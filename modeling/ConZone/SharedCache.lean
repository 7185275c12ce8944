import ConZone.Calls
import ConZone.Dual
import ConZone.L2pSlots
import ConZone.OnlyLines

set_option autoImplicit false

namespace ConZone

def nsidLoc (nsid : Nat) : Loc := if nsid = 0 then .pslc else .normal

def cacheLimit (config : DualConfig) (nsid : Nat) : Nat := (dualParams config (nsidLoc nsid)).zpp.ttLpns

structure Sharer (p : Params) (limit : Nat → Nat) : Prop where
  limits : ∀ nsid, nsid < 2 → nsTtLpns p nsid = limit nsid
  own : p.zpp.nsid < 2
  units : ∀ loc, 0 < unitPgs p loc

theorem dual_zone_pages_positive (config : DualConfig) (loc : Loc) : 0 < (dualParams config loc).zpp.pgsPerZone := by
  rw [dual_pgs_per_zone]
  exact config_media_pgs_positive config loc

theorem dual_sharer (config : DualConfig) (loc : Loc) : Sharer (dualParams config loc) (cacheLimit config) := by
  refine ⟨?_, ?_, ?_⟩
  · intro nsid bound
    have cases : nsid = 0 ∨ nsid = 1 := by omega
    cases loc with
    | normal =>
        cases cases with
        | inl first => subst first; rfl
        | inr second => subst second; rfl
    | pslc =>
        cases cases with
        | inl first => subst first; rfl
        | inr second => subst second; rfl
  · cases loc with
    | normal => exact Nat.lt_succ_self 1
    | pslc => exact Nat.zero_lt_two
  · intro unit
    cases unit with
    | normal => exact dual_zone_pages_positive config loc
    | pslc => exact Nat.one_pos

-- What translates an LPN: the forward table and the cache over it.
structure Lookup where
  maptbl : Nat → Ppa
  l2p : L2pCache

def lookupOf (ftl : ZmsFtl) : Lookup := ⟨ftl.maptbl, ftl.l2p⟩

section Frames

variable (p : Params)

theorem only_lines_lookup (before after : ZmsFtl) (only : OnlyLines before after) : lookupOf after = lookupOf before := by
  obtain ⟨_, _, _, _, _, same⟩ := only
  rw [same]
  rfl

theorem set_rmap_lookup (ftl : ZmsFtl) (lpn : Option Nat) (page : Page) : lookupOf (setRmapEnt p ftl lpn page) = lookupOf ftl := by
  by_cases inside : ppa2Pgidx p page < p.zpp.ttPpns
  · simp [setRmapEnt, inside, lookupOf]
  · simp [setRmapEnt, inside]

theorem mark_page_valid_lookup (ftl : ZmsFtl) (page : Page) : lookupOf (markPageValid p ftl page) = lookupOf ftl := by
  unfold markPageValid
  dsimp only
  split
  · rfl
  · split
    · rfl
    · split <;> rfl

theorem note_filled_line_lookup (ftl : ZmsFtl) (ref : LineRef) (loc : Loc) (ioType : IoType) :
    lookupOf (noteFilledLine p ftl ref loc ioType) = lookupOf ftl := by
  unfold noteFilledLine
  dsimp only
  split <;> rfl

theorem erase_line_lookup (ftl : ZmsFtl) (ref : LineRef) (ioType : IoType) : lookupOf (eraseLine p ftl ref ioType) = lookupOf ftl := by
  have blocks : ∀ (blocks : List Block) (before : ZmsFtl),
      lookupOf (blocks.foldl (eraseBlock p ioType) before) = lookupOf before := by
    intro blocks
    induction blocks with
    | nil => exact fun _ => rfl
    | cons block rest ih =>
        intro before
        rw [List.foldl_cons, ih]
        unfold eraseBlock
        dsimp only
        split <;> rfl
  have erased := blocks (erasedBlocks p ref) ftl
  unfold eraseLine
  generalize (erasedBlocks p ref).foldl (eraseBlock p ioType) ftl = middle at erased ⊢
  rw [← erased]
  unfold markLineFree
  dsimp only
  generalize clearLine _ ref = cleared
  have placed : lookupOf (if !isActiveLine middle ref then { middle with lm := addFree cleared (getLineLocation p ref) ref }
      else resetWp { middle with lm := cleared } ref) = lookupOf middle := by
    split
    · rfl
    · unfold resetWp
      split <;> rfl
  generalize (if !isActiveLine middle ref then _ else _ : ZmsFtl) = moved at placed ⊢
  rw [← placed]
  split <;> rfl

theorem select_victim_lookup (ftl next : ZmsFtl) (force : Bool) (loc : Loc) (victim : LineRef)
    (selected : selectVictimLine p ftl force loc = some (victim, next)) : lookupOf next = lookupOf ftl := by
  unfold selectVictimLine at selected
  split at selected
  · cases selected
  · split at selected
    · cases selected
    · cases selected
      rfl

theorem lookup_l2p (before after : ZmsFtl) (same : lookupOf after = lookupOf before) : after.l2p = before.l2p :=
  congrArg Lookup.l2p same

theorem set_maptbl_l2p (ftl : ZmsFtl) (lpn : Nat) (ppa : Ppa) : (setMaptblEnt p ftl lpn ppa).l2p = ftl.l2p := by
  by_cases inside : lpn < p.zpp.ttLpns
  · simp [setMaptblEnt, inside]
  · simp [setMaptblEnt, inside]

theorem drop_mapping_l2p (ftl : ZmsFtl) (lpn : Nat) (page : Page) : (dropMapping p ftl lpn page).l2p = ftl.l2p := by
  have cleared := lookup_l2p _ _ (set_rmap_lookup p (markPageInvalid p ftl page) none page)
  exact cleared

theorem drop_if_mapped_l2p (ftl : ZmsFtl) (lpn : Nat) : (dropIfMapped p ftl lpn).l2p = ftl.l2p := by
  unfold dropIfMapped
  split
  · exact drop_mapping_l2p p ftl lpn _
  · rfl

theorem marked_lookup (ftl : ZmsFtl) (lpn : Nat) (page : Page) (map : MapType) :
    lookupOf (setRmapEnt p (markPageValid p (setMaptblEnt p ftl lpn (.mapped page map)) page) (some lpn) page) =
      lookupOf (setMaptblEnt p ftl lpn (.mapped page map)) := by
  rw [set_rmap_lookup, mark_page_valid_lookup]

theorem marked_l2p (ftl : ZmsFtl) (lpn : Nat) (page : Page) (map : MapType) :
    (setRmapEnt p (markPageValid p (setMaptblEnt p ftl lpn (.mapped page map)) page) (some lpn) page).l2p = ftl.l2p := by
  rw [lookup_l2p _ _ (marked_lookup p ftl lpn page map), set_maptbl_l2p]

end Frames

section Uses

variable (p : Params) (limit : Nat → Nat) (sharer : Sharer p limit)

include sharer in
theorem inside_limit (lpn : Nat) (inside : lpn < p.zpp.ttLpns) : lpn < limit p.zpp.nsid := by
  rw [← sharer.limits _ sharer.own]
  simpa [nsTtLpns] using inside

theorem found_idx (cache : L2pCache) (lpn : Nat) (inside : lpn < p.zpp.ttLpns) :
    getL2pcacheidx p cache lpn = cache.idx p.zpp.nsid lpn := if_pos inside

theorem set_map_gran_l2p (ftl : ZmsFtl) (gran : MapType) (mapSlpn : Nat) :
    (setMapGran p ftl gran mapSlpn).l2p =
      if getL2pcacheidx p ftl.l2p mapSlpn = -1 then
        setL2pcacheidx p (l2pInsert p ftl.l2p mapSlpn gran (checkResident gran)).2 p.zpp.nsid mapSlpn
          (l2pInsert p ftl.l2p mapSlpn gran (checkResident gran)).1
      else putEnt ftl.l2p (mapSlpn % l2pSlots) (getL2pcacheidx p ftl.l2p mapSlpn)
        { ftl.l2p.mapping (mapSlpn % l2pSlots) (getL2pcacheidx p ftl.l2p mapSlpn) with
          granularity := gran, resident := checkResident gran } := by
  unfold setMapGran
  dsimp only
  rw [set_maptbl_l2p]

include sharer in
theorem set_map_gran_rep (ftl : ZmsFtl) (gran : MapType) (mapSlpn : Nat) (inside : mapSlpn < p.zpp.ttLpns)
    (rep : CacheRep limit ftl.l2p) : CacheRep limit (setMapGran p ftl gran mapSlpn).l2p := by
  rw [set_map_gran_l2p]
  by_cases absent : getL2pcacheidx p ftl.l2p mapSlpn = -1
  · rw [if_pos absent]
    rw [found_idx p ftl.l2p mapSlpn inside] at absent
    exact l2p_insert_rep p limit sharer.limits sharer.own ftl.l2p mapSlpn gran _ rep
      (inside_limit p limit sharer mapSlpn inside) absent
  · rw [if_neg absent]
    exact put_data_rep limit ftl.l2p _ _ gran _ rep

include sharer in
theorem insert_missed_rep (ftl : ZmsFtl) (mapSlpn : Nat) (gran : MapType) (inside : mapSlpn < p.zpp.ttLpns)
    (absent : getL2pcacheidx p ftl.l2p mapSlpn = -1) (rep : CacheRep limit ftl.l2p) :
    CacheRep limit (insertMissed p ftl mapSlpn gran) := by
  rw [found_idx p ftl.l2p mapSlpn inside] at absent
  have bound := inside_limit p limit sharer mapSlpn inside
  have inserted := l2p_insert_rep p limit sharer.limits sharer.own ftl.l2p mapSlpn gran (checkResident gran) rep bound absent
  have used := recorded_used p limit sharer.limits sharer.own _ mapSlpn _ bound inserted
  exact l2p_access_rep limit _ mapSlpn _ inserted used

theorem l2p_search_found (ftl : ZmsFtl) (lpn mapSlpn : Nat) (index : Int)
    (found : l2pSearch p ftl lpn = some (mapSlpn, index)) :
    index ≠ -1 ∧ getL2pcacheidx p ftl.l2p mapSlpn = index ∧ mapSlpn < p.zpp.ttLpns := by
  obtain ⟨gran, _, tried⟩ := List.exists_of_findSome?_eq_some found
  dsimp only at tried
  by_cases absent : getL2pcacheidx p ftl.l2p (getGranularityStartLpn p lpn gran) = -1
  · simp [absent] at tried
  · rw [if_neg absent] at tried
    cases tried
    refine ⟨absent, rfl, ?_⟩
    by_contra outside
    exact absent (if_neg outside)

theorem l2p_search_absent (ftl : ZmsFtl) (lpn : Nat) (gran : MapType) (tried : gran ∈ mapType)
    (missed : l2pSearch p ftl lpn = none) : getL2pcacheidx p ftl.l2p (getGranularityStartLpn p lpn gran) = -1 := by
  have none := List.findSome?_eq_none_iff.mp missed gran tried
  dsimp only at none
  by_contra cached
  rw [if_neg cached] at none
  cases none

theorem hit_rep (ftl : ZmsFtl) (lpn mapSlpn : Nat) (index : Int) (found : l2pSearch p ftl lpn = some (mapSlpn, index))
    (rep : CacheRep limit ftl.l2p) : CacheRep limit (l2pAccess ftl.l2p mapSlpn index) := by
  obtain ⟨some, read, inside⟩ := l2p_search_found p ftl lpn mapSlpn index found
  rw [found_idx p ftl.l2p mapSlpn inside] at read
  have backed := rep.backed p.zpp.nsid mapSlpn (by rw [read]; exact some)
  rw [read] at backed
  exact l2p_access_rep limit ftl.l2p mapSlpn index rep fun _ => backed.1

theorem mapped_within (ftl : ZmsFtl) (lpn : Nat) (page : Page) (map : MapType) (mapped : getMaptblEnt p ftl lpn = .mapped page map) :
    lpn < p.zpp.ttLpns := by
  by_contra outside
  rw [getMaptblEnt, if_neg outside] at mapped
  cases mapped

include sharer in
theorem refine_map_gran_rep (lpn : Nat) (loc : Loc) (grans : List MapType) (ftl : ZmsFtl) (rep : CacheRep limit ftl.l2p) :
    CacheRep limit (refineMapGran p lpn loc grans ftl).l2p := by
  induction grans with
  | nil => exact rep
  | cons gran rest ih =>
      unfold refineMapGran
      dsimp only
      split
      · rename_i page map mapped
        split
        · exact set_map_gran_rep p limit sharer ftl gran _ (mapped_within p ftl _ page map mapped) rep
        · exact ih
      · exact ih

include sharer in
theorem update_mapping_rep (ftl next : ZmsFtl) (lpn : Nat) (loc : Loc) (ioType : IoType)
    (updated : updateMappingIfReserved p ftl lpn loc ioType = some next) (rep : CacheRep limit ftl.l2p) :
    CacheRep limit next.l2p := by
  unfold updateMappingIfReserved at updated
  split at updated
  · split at updated
    · cases updated
    · split at updated
      · rename_i page map _
        cases updated
        apply refine_map_gran_rep p limit sharer
        rw [lookup_l2p _ _ (note_filled_line_lookup p _ _ loc ioType)]
        change CacheRep limit (setRmapEnt p (markPageValid p (setMaptblEnt p ftl lpn (.mapped page map)) page) (some lpn) page).l2p
        rw [marked_l2p]
        exact rep
      · cases updated
  · cases updated

include sharer in
theorem reserve_mapping_rep (ftl next : ZmsFtl) (lpn : Nat) (loc : Loc) (ioType : IoType)
    (ran : reserveMapping p ftl lpn loc ioType = .ok next) (rep : CacheRep limit ftl.l2p) : CacheRep limit next.l2p := by
  obtain ⟨reserved, page, opened, looped, advanced, last, entries, taken, reserving, advancing, checked⟩ :=
    reserve_mapping_runs p ftl next lpn loc ioType ran
  have loop := only_lines_lookup _ _ (reserve_loop_lines p ioType loc _ _ looped reserving)
  have moved := only_lines_lookup _ _ (advance_write_pointer_lines p looped advanced ioType loc advancing)
  have again := only_lines_lookup _ _ (get_new_page_lines p advanced next ioType loc last checked)
  have noted := note_filled_line_lookup p (takeFirstPage p opened (unitStart p lpn loc) page) (getLine p page) loc ioType
  rw [lookup_l2p _ _ (((again.trans moved).trans loop).trans noted)]
  have units := sharer.units loc
  unfold reserveUnit at entries
  split at entries
  · rename_i room
    cases entries
    apply set_map_gran_rep p limit sharer
    · omega
    · rw [marked_l2p, lookup_l2p _ _ (only_lines_lookup _ _ (get_new_page_lines p _ opened ioType loc page taken))]
      exact rep
  · cases entries

include sharer in
theorem update_or_reserve_rep (ftl next : ZmsFtl) (lpn : Nat) (loc : Loc) (ioType : IoType)
    (ran : updateOrReserveMapping p ftl lpn loc ioType = .ok next) (rep : CacheRep limit ftl.l2p) : CacheRep limit next.l2p := by
  unfold updateOrReserveMapping at ran
  split at ran
  · rename_i updated
    cases ran
    exact update_mapping_rep p limit sharer ftl _ lpn loc ioType updated rep
  · split at ran
    · cases ran
      exact rep
    · exact reserve_mapping_rep p limit sharer ftl next lpn loc ioType ran rep

include sharer in
theorem call_rep (ftl next : ZmsFtl) (op : Op) (called : Call p ftl op (.ok next)) (rep : CacheRep limit ftl.l2p) :
    CacheRep limit next.l2p := by
  generalize ran : (Except.ok next : Exec ZmsFtl) = result at called
  cases called with
  | aside after still =>
      have same := still.core
      cases ran
      rw [show next.l2p = ftl.l2p from congrArg Core.l2p same]
      exact rep
  | hit lpn mapSlpn index found =>
      cases ran
      exact hit_rep p limit ftl lpn mapSlpn index found rep
  | fill lpn gran page missed tried mapped =>
      cases ran
      exact insert_missed_rep p limit sharer ftl _ gran (mapped_within p ftl _ page gran mapped)
        (l2p_search_absent p ftl lpn gran tried missed) rep
  | map lpn loc ioType => exact update_or_reserve_rep p limit sharer ftl next lpn loc ioType ran.symm rep
  | move lpn loc ioType =>
      refine update_or_reserve_rep p limit sharer _ next lpn loc ioType ran.symm ?_
      rw [drop_if_mapped_l2p]
      exact rep
  | drop lpn page map mapped =>
      cases ran
      rw [drop_mapping_l2p]
      exact rep
  | select force loc victim after selected =>
      cases ran
      rw [lookup_l2p _ _ (select_victim_lookup p ftl next force loc victim selected)]
      exact rep
  | erase ref ioType =>
      cases ran
      rw [lookup_l2p _ _ (erase_line_lookup p ftl ref ioType)]
      exact rep

include sharer in
theorem calls_rep (ftl next : ZmsFtl) (run : Calls p anyCall ftl (.ok next)) (rep : CacheRep limit ftl.l2p) :
    CacheRep limit next.l2p :=
  calls_keep p anyCall (fun ftl => CacheRep limit ftl.l2p)
    (fun ftl op next before _ called => call_rep p limit sharer ftl next op called before) ftl next rep run

end Uses

-- What either namespace does to the cache, from whatever state it is in: a new
-- granularity for an LPN of its own, the fill after a miss, the touch of a hit.
inductive L2pEvent where
  | setMapGran (loc : Loc) (mapSlpn : Nat) (gran : MapType)
  | mapRead (loc : Loc) (lpn : Nat)
  | l2pAccess (loc : Loc) (lpn : Nat)

inductive L2pStep (config : DualConfig) : L2pCache → L2pEvent → L2pCache → Prop where
  | setMapGran (loc : Loc) (ftl : ZmsFtl) (mapSlpn : Nat) (gran : MapType) (inside : mapSlpn < (dualParams config loc).zpp.ttLpns) :
      L2pStep config ftl.l2p (.setMapGran loc mapSlpn gran) (setMapGran (dualParams config loc) ftl gran mapSlpn).l2p
  | mapRead (loc : Loc) (ftl : ZmsFtl) (lpn latest : Nat) (missed : l2pSearch (dualParams config loc) ftl lpn = none) :
      L2pStep config ftl.l2p (.mapRead loc lpn) (mapRead (dualParams config loc) lpn mapType (latest, ftl)).2.l2p
  | l2pAccess (loc : Loc) (ftl : ZmsFtl) (lpn mapSlpn : Nat) (index : Int)
      (found : l2pSearch (dualParams config loc) ftl lpn = some (mapSlpn, index)) :
      L2pStep config ftl.l2p (.l2pAccess loc lpn) (l2pAccess ftl.l2p mapSlpn index)

def l2pSystem (config : DualConfig) : TransitionSystem.System L2pCache L2pEvent :=
  ⟨fun cache => cache = ssdInitL2pcache, L2pStep config⟩

def slotWalk (cache : L2pCache) (slot : Nat) : List Int :=
  Chain.walk (slotThread cache slot).links (cache.slotLen slot) (cache.head slot)

structure CacheSound (cache : L2pCache) : Prop where
  once : ∀ slot, (slotWalk cache slot).Perm (slotIndexes (cache.slotLen slot))
  ends : ∀ slot, 0 < cache.slotLen slot → (slotWalk cache slot).getLast? = some (cache.tail slot) ∧
    (cache.mapping slot (cache.tail slot)).next = -1 ∧ (cache.mapping slot (cache.head slot)).last = -1
  inverse : ∀ slot before after, UsedIndex cache slot before → UsedIndex cache slot after →
    ((cache.mapping slot before).next = after ↔ (cache.mapping slot after).last = before)
  hashed : ∀ slot index, UsedIndex cache slot index → ∃ lpn, (cache.mapping slot index).lpn = some lpn ∧
    lpn % l2pSlots = slot ∧ cache.idx (cache.mapping slot index).nsid lpn = index
  backed : ∀ nsid lpn, cache.idx nsid lpn ≠ -1 → UsedIndex cache (lpn % l2pSlots) (cache.idx nsid lpn) ∧
    (cache.mapping (lpn % l2pSlots) (cache.idx nsid lpn)).nsid = nsid ∧
    (cache.mapping (lpn % l2pSlots) (cache.idx nsid lpn)).lpn = some lpn
  single : ∀ slot index other entry, UsedIndex cache slot index → UsedIndex cache other entry →
    (cache.mapping slot index).nsid = (cache.mapping other entry).nsid →
    (cache.mapping slot index).lpn = (cache.mapping other entry).lpn → slot = other ∧ index = entry

section Soundness

theorem slot_walk_order (cache : L2pCache) (slot : Nat) (order : List Int) (listed : SlotOrder cache slot order) :
    slotWalk cache slot = order := by
  have walked := Chain.chained_walk (-1) (slotThread cache slot) order listed.chained
  rw [slot_order_length cache slot order listed] at walked
  exact walked

theorem rep_used_order (limit : Nat → Nat) (cache : L2pCache) (rep : CacheRep limit cache) (slot : Nat) (index : Int)
    (used : UsedIndex cache slot index) : ∃ order, SlotOrder cache slot order ∧ index ∈ order := by
  obtain ⟨lower, upper⟩ := used
  obtain ⟨order, listed⟩ := rep.order slot (by omega)
  exact ⟨order, listed, (slot_order_mem cache slot order listed index).mpr ⟨lower, upper⟩⟩

theorem rep_sound (limit : Nat → Nat) (cache : L2pCache) (rep : CacheRep limit cache) : CacheSound cache := by
  constructor
  · intro slot
    by_cases empty : cache.slotLen slot = 0
    · simp [slotWalk, empty, Chain.walk, slotIndexes]
    · obtain ⟨order, listed⟩ := rep.order slot (Nat.pos_of_ne_zero empty)
      rw [slot_walk_order cache slot order listed]
      exact listed.used
  · intro slot some
    obtain ⟨order, listed⟩ := rep.order slot some
    rw [slot_walk_order cache slot order listed]
    exact ⟨listed.chained.last, listed.chained.ends, listed.chained.starts⟩
  · intro slot before after usedBefore usedAfter
    obtain ⟨order, listed, beforeIn⟩ := rep_used_order limit cache rep slot before usedBefore
    have afterIn := (slot_order_mem cache slot order listed after).mpr usedAfter
    exact Chain.chained_inverse (-1) (slotThread cache slot) order listed.chained before after beforeIn afterIn
  · intro slot index used
    obtain ⟨lpn, holds, hash, _, _, back⟩ := rep.hashed slot index used
    exact ⟨lpn, holds, hash, back⟩
  · exact rep.backed
  · intro slot index other entry used usedOther sameNsid sameLpn
    obtain ⟨lpn, holds, hash, _, _, back⟩ := rep.hashed slot index used
    obtain ⟨otherLpn, otherHolds, otherHash, _, _, otherBack⟩ := rep.hashed other entry usedOther
    rw [holds, otherHolds] at sameLpn
    cases sameLpn
    rw [sameNsid] at back
    exact ⟨hash.symm.trans otherHash, back.symm.trans otherBack⟩

theorem init_rep (limit : Nat → Nat) : CacheRep limit ssdInitL2pcache := by
  have unused : ∀ slot index, ¬UsedIndex ssdInitL2pcache slot index := by
    intro slot index used
    have lower := used.1
    have upper : index < (0 : Nat) := used.2
    omega
  refine ⟨fun _ => Nat.zero_le _, fun _ _ => ⟨rfl, rfl⟩, ?_, ?_, ?_⟩
  · intro slot some
    exact absurd some (Nat.lt_irrefl 0)
  · intro slot index used
    exact absurd used (unused slot index)
  · intro nsid lpn cached
    exact absurd rfl cached

theorem l2p_step_rep (config : DualConfig) (cache next : L2pCache) (event : L2pEvent)
    (rep : CacheRep (cacheLimit config) cache) (taken : L2pStep config cache event next) : CacheRep (cacheLimit config) next := by
  cases taken with
  | setMapGran loc ftl mapSlpn gran inside =>
      exact set_map_gran_rep _ _ (dual_sharer config loc) ftl gran mapSlpn inside rep
  | mapRead loc ftl lpn latest missed =>
      exact calls_rep _ _ (dual_sharer config loc) ftl _
        (map_read_calls (dualParams config loc) lpn mapType latest ftl missed fun _ member => member) rep
  | l2pAccess loc ftl lpn mapSlpn index found => exact hit_rep _ _ ftl lpn mapSlpn index found rep

theorem l2p_rep_kept (config : DualConfig) : TransitionSystem.Invariant (l2pSystem config) anyEvent (CacheRep (cacheLimit config)) where
  starts := by
    intro cache init
    rw [show cache = ssdInitL2pcache from init]
    exact init_rep (cacheLimit config)
  keeps cache next event rep _ taken := l2p_step_rep config cache next event rep taken

theorem dual_rep_kept (config : DualConfig) :
    TransitionSystem.Invariant (dualSystem config) anyEvent (fun dual => ∀ loc, CacheRep (cacheLimit config) (dual loc).l2p) where
  starts := by
    rintro dual ⟨clock, rfl⟩ loc
    exact init_rep (cacheLimit config)
  keeps := by
    intro dual next event rep _ taken other
    cases taken with
    | run loc event after ran =>
        rw [(ran_on_shares dual loc other after).l2p]
        exact calls_rep _ _ (dual_sharer config loc) (dual loc) after (step_calls _ _ _ _ ran) (rep loc)

end Soundness

-- However the two namespaces use the cache, and in every run of the device.
theorem l2p_cache_represents (config : DualConfig) :
    (∀ cache, TransitionSystem.Reach (l2pSystem config) anyEvent cache → CacheSound cache) ∧
      ∀ dual loc, DualReachable config anyEvent dual → CacheSound (dual loc).l2p := by
  constructor
  · intro cache reached
    exact rep_sound _ cache (TransitionSystem.reach_invariant _ _ _ (l2p_rep_kept config) cache reached)
  · intro dual loc reached
    exact rep_sound _ _ (TransitionSystem.reach_invariant _ _ _ (dual_rep_kept config) dual reached loc)

-- A page of each namespace is written and flushed, and one of them read back.
theorem l2p_cache_represents_sample :
    (∃ cache, CacheSound cache ∧ cache.slotLen 0 = 1) ∧
      ∃ dual : DualFtl, CacheSound (dual .pslc).l2p ∧ (dual .pslc).l2p.slotLen 0 = 2 ∧
        (dual .normal).l2p.idx 0 0 = 0 ∧ (dual .pslc).l2p.idx 1 0 = 1 := by
  constructor
  · have stepped : TransitionSystem.Reach (l2pSystem sampleConfig) anyEvent
        (setMapGran (dualParams sampleConfig .pslc) (zmsRealizeFtl (dualParams sampleConfig .pslc) fun _ => 0) .pageMap 0).l2p :=
      .next _ _ (.setMapGran .pslc 0 .pageMap) (.start ssdInitL2pcache rfl) trivial
        (.setMapGran .pslc (zmsRealizeFtl (dualParams sampleConfig .pslc) fun _ => 0) 0 .pageMap (by decide))
    exact ⟨_, (l2p_cache_represents sampleConfig).1 _ stepped, by decide⟩
  · obtain ⟨dual, reached, checked⟩ := dual_run_check sampleConfig
      [(.pslc, writeEvent 0 16), (.normal, writeEvent 0 16), (.pslc, .read ⟨0, 0⟩ ⟨false, 0, 7, false⟩)] (fun _ => 0)
      (fun dual : DualFtl => decide ((dual .pslc).l2p.slotLen 0 = 2) && decide ((dual .normal).l2p.idx 0 0 = 0) &&
        decide ((dual .pslc).l2p.idx 1 0 = 1)) (by decide +kernel)
    simp only [Bool.and_eq_true, decide_eq_true_eq] at checked
    obtain ⟨⟨length, slc⟩, tlc⟩ := checked
    exact ⟨dual, (l2p_cache_represents sampleConfig).2 dual .pslc reached, length, slc, tlc⟩

end ConZone
