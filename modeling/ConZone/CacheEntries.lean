import ConZone.SharedCache

set_option autoImplicit false

namespace ConZone

-- What a used entry says: the namespace, the LPN and the granularity.
structure Shows (ent : L2pCacheEnt) (nsid lpn : Nat) (gran : MapType) : Prop where
  nsid : ent.nsid = nsid
  lpn : ent.lpn = some lpn
  granularity : ent.granularity = gran

def EntryFor (cache : L2pCache) (nsid lpn : Nat) (gran : MapType) : Prop :=
  ∃ slot index, UsedIndex cache slot index ∧ Shows (cache.mapping slot index) nsid lpn gran

-- Entries appear only for the given namespace, LPN and granularity.
def OnlyNewEntry (before after : L2pCache) (nsid lpn : Nat) (gran : MapType) : Prop :=
  ∀ ns la g, EntryFor after ns la g → (ns = nsid ∧ la = lpn ∧ g = gran) ∨ EntryFor before ns la g

section Entries

variable (p : Params)

theorem same_entries_for (before after : L2pCache) (same : SameEntries before after) (nsid lpn : Nat) (gran : MapType) :
    EntryFor after nsid lpn gran ↔ EntryFor before nsid lpn gran := by
  have used : ∀ slot index, UsedIndex after slot index ↔ UsedIndex before slot index := by
    intro slot index
    simp only [UsedIndex, same.slotLen]
  have shows : ∀ slot index, Shows (after.mapping slot index) nsid lpn gran ↔ Shows (before.mapping slot index) nsid lpn gran := by
    intro slot index
    constructor
    · rintro ⟨ns, la, g⟩
      exact ⟨(same.nsid slot index).symm.trans ns, (same.lpn slot index).symm.trans la, (same.granularity slot index).symm.trans g⟩
    · rintro ⟨ns, la, g⟩
      exact ⟨(same.nsid slot index).trans ns, (same.lpn slot index).trans la, (same.granularity slot index).trans g⟩
  simp only [EntryFor, used, shows]

theorem access_entries (cache : L2pCache) (la : Nat) (index : Int) (nsid lpn : Nat) (gran : MapType) :
    EntryFor (l2pAccess cache la index) nsid lpn gran ↔ EntryFor cache nsid lpn gran := by
  unfold l2pAccess
  dsimp only
  split
  · exact Iff.rfl
  · exact same_entries_for _ _ (move_to_tail_same cache (la % l2pSlots) index) nsid lpn gran

theorem set_idx_entries (cache : L2pCache) (ns la : Nat) (index : Int) (nsid lpn : Nat) (gran : MapType) :
    EntryFor (setL2pcacheidx p cache ns la index) nsid lpn gran ↔ EntryFor cache nsid lpn gran := by
  obtain ⟨mapping, length, _, _⟩ := set_idx_rest p cache ns la index
  simp only [EntryFor, UsedIndex, mapping, length]

theorem filled_shows (cache : L2pCache) (slot : Nat) (index : Int) (la : Nat) (gran : MapType) (res : Bool) :
    Shows ((fillEnt p cache slot index la gran res).mapping slot index) p.zpp.nsid la gran := by
  unfold fillEnt
  rw [put_ent_mapping, if_pos ⟨rfl, rfl⟩]
  exact ⟨rfl, rfl, rfl⟩

theorem filled_other (cache : L2pCache) (slot : Nat) (index : Int) (la : Nat) (gran : MapType) (res : Bool) (other : Nat) (i : Int)
    (apart : ¬(other = slot ∧ i = index)) : (fillEnt p cache slot index la gran res).mapping other i = cache.mapping other i := by
  unfold fillEnt
  rw [put_ent_mapping, if_neg apart]

theorem shows_same (ent : L2pCacheEnt) (nsid lpn ns la : Nat) (gran g : MapType) (first : Shows ent nsid lpn gran)
    (second : Shows ent ns la g) : ns = nsid ∧ la = lpn ∧ g = gran := by
  obtain ⟨firstNs, firstLpn, firstGran⟩ := first
  obtain ⟨secondNs, secondLpn, secondGran⟩ := second
  rw [firstLpn] at secondLpn
  exact ⟨secondNs.symm.trans firstNs, (Option.some.inj secondLpn).symm, secondGran.symm.trans firstGran⟩

theorem fill_entries (cache : L2pCache) (slot : Nat) (index : Int) (la : Nat) (gran : MapType) (res : Bool) :
    OnlyNewEntry cache (fillEnt p cache slot index la gran res) p.zpp.nsid la gran := by
  rintro ns lpn g ⟨other, i, used, shows⟩
  by_cases here : other = slot ∧ i = index
  · obtain ⟨rfl, rfl⟩ := here
    exact .inl (shows_same _ _ _ _ _ _ _ (filled_shows p cache other i la gran res) shows)
  · rw [filled_other p cache slot index la gran res other i here] at shows
    exact .inr ⟨other, i, used, shows⟩

theorem appended_entries (cache : L2pCache) (la : Nat) (gran : MapType) (res : Bool) :
    OnlyNewEntry cache (appended p cache (la % l2pSlots) la gran res) p.zpp.nsid la gran := by
  have same := appended_same p cache (la % l2pSlots) la gran res
  have length := appended_len p cache (la % l2pSlots) la gran res
  generalize la % l2pSlots = slot at same length ⊢
  rintro ns lpn g ⟨other, i, used, ⟨nsid, holds, granularity⟩⟩
  have shows : Shows ((fillEnt p cache slot (cache.slotLen slot) la gran res).mapping other i) ns lpn g :=
    ⟨(same.nsid other i).symm.trans nsid, (same.lpn other i).symm.trans holds, (same.granularity other i).symm.trans granularity⟩
  by_cases here : other = slot ∧ i = cache.slotLen slot
  · obtain ⟨rfl, rfl⟩ := here
    exact .inl (shows_same _ _ _ _ _ _ _ (filled_shows p cache other _ la gran res) shows)
  · rw [filled_other p cache slot _ la gran res other i here] at shows
    refine .inr ⟨other, i, ?_, shows⟩
    obtain ⟨lower, upper⟩ := used
    refine ⟨lower, ?_⟩
    rw [length] at upper
    by_cases inSlot : other = slot
    · subst inSlot
      rw [Function.update_self] at upper
      have apart : i ≠ cache.slotLen other := fun same => here ⟨rfl, same⟩
      omega
    · rw [Function.update_of_ne inSlot] at upper
      exact upper

theorem replace_entries (cache : L2pCache) (la : Nat) (gran : MapType) (res : Bool) :
    OnlyNewEntry cache (l2pReplace p cache la gran res).2 p.zpp.nsid la gran := by
  unfold l2pReplace
  dsimp only
  generalize evictIdx cache (la % l2pSlots) l2pSlotSize (cache.head (la % l2pSlots)) = index
  split
  · exact fun _ _ _ held => .inr held
  · have moved : SameEntries cache (if index = cache.tail (la % l2pSlots) then cache else moveToTail cache (la % l2pSlots) index) := by
      split
      · exact same_entries_refl cache
      · exact move_to_tail_same cache _ index
    generalize (if index = cache.tail (la % l2pSlots) then cache else moveToTail cache (la % l2pSlots) index) = middle at moved ⊢
    intro ns lpn g held
    dsimp only at held
    cases old : (middle.mapping (la % l2pSlots) index).lpn with
    | none =>
        rw [old] at held
        rcases fill_entries p _ _ _ _ _ _ ns lpn g held with new | kept
        · exact .inl new
        · exact .inr ((same_entries_for _ _ moved ns lpn g).mp kept)
    | some evicted =>
        rw [old] at held
        rcases fill_entries p _ _ _ _ _ _ ns lpn g held with new | kept
        · exact .inl new
        · rw [set_idx_entries] at kept
          exact .inr ((same_entries_for _ _ moved ns lpn g).mp kept)

theorem insert_entries (cache : L2pCache) (la : Nat) (gran : MapType) (res : Bool) :
    OnlyNewEntry cache (l2pInsert p cache la gran res).2 p.zpp.nsid la gran := by
  by_cases full : cache.slotLen (la % l2pSlots) = l2pSlotSize
  · have replaced : l2pInsert p cache la gran res = l2pReplace p cache la gran res := by simp [l2pInsert, full]
    rw [replaced]
    exact replace_entries p cache la gran res
  · have grown : l2pInsert p cache la gran res =
        ((cache.slotLen (la % l2pSlots) : Int), appended p cache (la % l2pSlots) la gran res) := by
      simp only [l2pInsert, full, if_false]
      rfl
    rw [grown]
    exact appended_entries p cache la gran res

theorem insert_missed_entries (ftl : ZmsFtl) (mapSlpn : Nat) (gran : MapType) :
    OnlyNewEntry ftl.l2p (insertMissed p ftl mapSlpn gran) p.zpp.nsid mapSlpn gran := by
  intro ns la g held
  unfold insertMissed at held
  dsimp only at held
  rw [access_entries, set_idx_entries] at held
  exact insert_entries p ftl.l2p mapSlpn gran _ ns la g held

variable (limit : Nat → Nat)

theorem entry_indexed (cache : L2pCache) (rep : CacheRep limit cache) (nsid lpn : Nat) (slot : Nat) (index : Int)
    (used : UsedIndex cache slot index) (ns : (cache.mapping slot index).nsid = nsid)
    (holds : (cache.mapping slot index).lpn = some lpn) : slot = lpn % l2pSlots ∧ cache.idx nsid lpn = index ∧ index ≠ -1 := by
  obtain ⟨la, held, hash, _, _, back⟩ := rep.hashed slot index used
  rw [holds] at held
  cases held
  rw [ns] at back
  exact ⟨hash.symm, back, used_index_nil cache slot index used⟩

theorem entry_single (cache : L2pCache) (rep : CacheRep limit cache) (nsid lpn : Nat) (gran g : MapType)
    (first : EntryFor cache nsid lpn gran) (second : EntryFor cache nsid lpn g) : g = gran := by
  obtain ⟨slot, index, used, shows⟩ := first
  obtain ⟨other, entry, usedOther, showsOther⟩ := second
  obtain ⟨hash, back, _⟩ := entry_indexed limit cache rep nsid lpn slot index used shows.nsid shows.lpn
  obtain ⟨otherHash, otherBack, _⟩ := entry_indexed limit cache rep nsid lpn other entry usedOther showsOther.nsid showsOther.lpn
  have slots : slot = other := hash.trans otherHash.symm
  have entries : index = entry := back.symm.trans otherBack
  subst slots
  subst entries
  exact showsOther.granularity.symm.trans shows.granularity

theorem set_map_gran_entries (ftl : ZmsFtl) (gran : MapType) (mapSlpn : Nat) (inside : mapSlpn < p.zpp.ttLpns)
    (rep : CacheRep limit ftl.l2p) (ns la : Nat) (g : MapType) (held : EntryFor (setMapGran p ftl gran mapSlpn).l2p ns la g) :
    (ns = p.zpp.nsid ∧ la = mapSlpn ∧ g = gran) ∨ (¬(ns = p.zpp.nsid ∧ la = mapSlpn) ∧ EntryFor ftl.l2p ns la g) := by
  rw [set_map_gran_l2p, found_idx p ftl.l2p mapSlpn inside] at held
  by_cases absent : ftl.l2p.idx p.zpp.nsid mapSlpn = -1
  · rw [if_pos absent, set_idx_entries] at held
    rcases insert_entries p ftl.l2p mapSlpn gran _ ns la g held with new | ⟨slot, index, used, shows⟩
    · exact .inl new
    · refine .inr ⟨?_, slot, index, used, shows⟩
      rintro ⟨rfl, rfl⟩
      obtain ⟨_, back, present⟩ := entry_indexed limit ftl.l2p rep _ _ slot index used shows.nsid shows.lpn
      exact present (back.symm.trans absent)
  · rw [if_neg absent] at held
    obtain ⟨_, nsid, lpn⟩ := rep.backed p.zpp.nsid mapSlpn absent
    obtain ⟨slot, index, used, shows⟩ := held
    rw [put_ent_mapping] at shows
    by_cases here : slot = mapSlpn % l2pSlots ∧ index = ftl.l2p.idx p.zpp.nsid mapSlpn
    · rw [if_pos here] at shows
      exact .inl ⟨shows.nsid.symm.trans nsid, Option.some.inj (shows.lpn.symm.trans lpn), shows.granularity.symm⟩
    · rw [if_neg here] at shows
      refine .inr ⟨?_, slot, index, used, shows⟩
      rintro ⟨rfl, rfl⟩
      obtain ⟨hash, back, _⟩ := entry_indexed limit ftl.l2p rep _ _ slot index used shows.nsid shows.lpn
      exact here ⟨hash, back.symm⟩

end Entries

end ConZone
