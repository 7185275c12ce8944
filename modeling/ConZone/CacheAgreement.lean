import ConZone.CacheEntries
import ConZone.CallRuns
import ConZone.Maps

set_option autoImplicit false

namespace ConZone

def CachedLpn (p : Params) (ftl : ZmsFtl) (lpn : Nat) : Prop := ∃ gran, EntryFor ftl.l2p p.zpp.nsid lpn gran

-- The test under which refine_map_gran settles on a granularity.
def closesUnit (p : Params) (ftl : ZmsFtl) (lpn : Nat) (loc : Loc) (gran : MapType) : Bool :=
  match getMaptblEnt p ftl (getGranularityStartLpn p lpn gran) with
  | .mapped page _ =>
      decide (getPageLocation p page = loc ∧ (lpn - getGranularityStartLpn p lpn gran + 1) % getPagesPerGranularity p gran = 0)
  | _ => false

-- The mapping of an LPN leaves the cache right: on a reserved page an entry of
-- the LPN carries the bits it is given, and reserving a unit takes the mapping
-- from no other LPN the cache holds. A full medium leaves the LPN as it is.
def MapsInStep (p : Params) (ftl : ZmsFtl) (lpn : Nat) (loc : Loc) (ioType : IoType) : Prop :=
  match updateMappingIfReserved p ftl lpn loc ioType with
  | some _ =>
      ∀ prev map page after gran, getPrevPpa p ftl lpn (getMappingGranularity loc) = .mapped prev map →
        nextpage p ftl.lm.lines prev map true = .mapped page after → EntryFor ftl.l2p p.zpp.nsid lpn gran →
          gran = after ∨ ∃ unit, mapType.find? (closesUnit p (setMaptblEnt p ftl lpn (.mapped page after)) lpn loc) = some unit ∧
            getGranularityStartLpn p lpn unit = lpn
  | none =>
      if locFull ftl loc then CachedLpn p ftl lpn → Mapped p ftl lpn
      else ∀ other, unitStart p lpn loc < other → other < unitStart p lpn loc + unitPgs p loc → ¬CachedLpn p ftl other

-- No primitive takes the mapping from an LPN that the cache goes on holding.
def CallInStep (p : Params) (ftl : ZmsFtl) : Op → Prop
  | .drop lpn => ¬CachedLpn p ftl lpn
  | .map lpn loc ioType => MapsInStep p ftl lpn loc ioType
  | .move lpn loc ioType => MapsInStep p (dropIfMapped p ftl lpn) lpn loc ioType
  | _ => True

def EntryMapped (p : Params) (ftl : ZmsFtl) (lpn : Nat) (gran : MapType) : Prop :=
  ∃ page, getMaptblEnt p ftl lpn = .mapped page gran

def AgreesBut (p : Params) (ftl : ZmsFtl) (but : Nat) : Prop :=
  ∀ lpn gran, lpn ≠ but → EntryFor ftl.l2p p.zpp.nsid lpn gran → EntryMapped p ftl lpn gran

def Agrees (p : Params) (ftl : ZmsFtl) : Prop :=
  ∀ lpn gran, EntryFor ftl.l2p p.zpp.nsid lpn gran → EntryMapped p ftl lpn gran

section Table

variable (p : Params)

theorem get_set_maptbl (ftl : ZmsFtl) (lpn : Nat) (ppa : Ppa) (inside : lpn < p.zpp.ttLpns) (other : Nat) :
    getMaptblEnt p (setMaptblEnt p ftl lpn ppa) other = if other = lpn then ppa else getMaptblEnt p ftl other := by
  rw [set_maptbl_entry p ftl lpn ppa inside]
  by_cases same : other = lpn
  · subst same
    simp [getMaptblEnt, inside]
  · simp [getMaptblEnt, same]

theorem set_map_gran_table (ftl : ZmsFtl) (gran : MapType) (mapSlpn : Nat) (page : Page) (map : MapType)
    (mapped : getMaptblEnt p ftl mapSlpn = .mapped page map) (other : Nat) :
    getMaptblEnt p (setMapGran p ftl gran mapSlpn) other =
      if other = mapSlpn then .mapped page gran else getMaptblEnt p ftl other := by
  have inside := mapped_within p ftl mapSlpn page map mapped
  unfold setMapGran
  dsimp only
  rw [mapped, get_set_maptbl p _ mapSlpn _ inside]
  rfl

theorem lookup_entry (before after : ZmsFtl) (same : lookupOf after = lookupOf before) (lpn : Nat) :
    getMaptblEnt p after lpn = getMaptblEnt p before lpn := by
  have table : after.maptbl = before.maptbl := congrArg Lookup.maptbl same
  unfold getMaptblEnt
  rw [table]

theorem lookup_entry_mapped (before after : ZmsFtl) (same : lookupOf after = lookupOf before) (lpn : Nat) (gran : MapType)
    (mapped : EntryMapped p before lpn gran) : EntryMapped p after lpn gran := by
  obtain ⟨page, entry⟩ := mapped
  exact ⟨page, (lookup_entry p before after same lpn).trans entry⟩

theorem lookup_agrees (before after : ZmsFtl) (same : lookupOf after = lookupOf before) (agrees : Agrees p before) :
    Agrees p after := by
  intro lpn gran held
  rw [lookup_l2p before after same] at held
  exact lookup_entry_mapped p before after same lpn gran (agrees lpn gran held)

theorem refine_map_gran_find (lpn : Nat) (loc : Loc) (grans : List MapType) (ftl : ZmsFtl) :
    refineMapGran p lpn loc grans ftl =
      match grans.find? (closesUnit p ftl lpn loc) with
      | some gran => setMapGran p ftl gran (getGranularityStartLpn p lpn gran)
      | none => ftl := by
  induction grans with
  | nil => rfl
  | cons gran rest ih =>
      unfold refineMapGran
      dsimp only
      cases entry : getMaptblEnt p ftl (getGranularityStartLpn p lpn gran) with
      | mapped page map =>
          by_cases closes : getPageLocation p page = loc ∧
              (lpn - getGranularityStartLpn p lpn gran + 1) % getPagesPerGranularity p gran = 0
          · simp [closesUnit, entry, closes]
          · simp only [ih, List.find?_cons, closesUnit, entry, closes, decide_false, if_false]
      | unmapped => simp only [ih, List.find?_cons, closesUnit, entry]
      | rsv => simp only [ih, List.find?_cons, closesUnit, entry]

theorem closes_unit_mapped (ftl : ZmsFtl) (lpn : Nat) (loc : Loc) (gran : MapType) (closes : closesUnit p ftl lpn loc gran = true) :
    ∃ page map, getMaptblEnt p ftl (getGranularityStartLpn p lpn gran) = .mapped page map := by
  unfold closesUnit at closes
  split at closes
  · rename_i page map mapped
    exact ⟨page, map, mapped⟩
  · cases closes

end Table

section Agreement

variable (p : Params) (limit : Nat → Nat) (sharer : Sharer p limit)

theorem agrees_agrees_but (ftl : ZmsFtl) (agrees : Agrees p ftl) (but : Nat) : AgreesBut p ftl but :=
  fun lpn gran _ held => agrees lpn gran held

theorem set_map_gran_agrees (ftl : ZmsFtl) (gran : MapType) (mapSlpn : Nat) (page : Page) (map : MapType)
    (rep : CacheRep limit ftl.l2p) (mapped : getMaptblEnt p ftl mapSlpn = .mapped page map) (agrees : AgreesBut p ftl mapSlpn) :
    Agrees p (setMapGran p ftl gran mapSlpn) := by
  intro lpn g held
  unfold EntryMapped
  rw [set_map_gran_table p ftl gran mapSlpn page map mapped]
  rcases set_map_gran_entries p limit ftl gran mapSlpn (mapped_within p ftl _ page map mapped) rep _ lpn g held with
    ⟨_, rfl, rfl⟩ | ⟨apart, older⟩
  · exact ⟨page, if_pos rfl⟩
  · have other : lpn ≠ mapSlpn := fun same => apart ⟨rfl, same⟩
    rw [if_neg other]
    exact agrees lpn g other older

theorem refine_map_gran_agrees (ftl : ZmsFtl) (lpn : Nat) (loc : Loc) (rep : CacheRep limit ftl.l2p) (agrees : AgreesBut p ftl lpn)
    (own : (∀ gran, EntryFor ftl.l2p p.zpp.nsid lpn gran → EntryMapped p ftl lpn gran) ∨
      ∃ unit, mapType.find? (closesUnit p ftl lpn loc) = some unit ∧ getGranularityStartLpn p lpn unit = lpn) :
    Agrees p (refineMapGran p lpn loc mapType ftl) := by
  rw [refine_map_gran_find]
  rcases own with kept | ⟨unit, found, starts⟩
  · have whole : Agrees p ftl := by
      intro other gran held
      by_cases same : other = lpn
      · subst same
        exact kept gran held
      · exact agrees other gran same held
    cases found : mapType.find? (closesUnit p ftl lpn loc) with
    | none => exact whole
    | some gran =>
        obtain ⟨page, map, mapped⟩ := closes_unit_mapped p ftl lpn loc gran (List.find?_some found)
        exact set_map_gran_agrees p limit ftl gran _ page map rep mapped (agrees_agrees_but p ftl whole _)
  · rw [found]
    obtain ⟨page, map, mapped⟩ := closes_unit_mapped p ftl lpn loc unit (List.find?_some found)
    rw [starts] at mapped
    dsimp only
    rw [starts]
    exact set_map_gran_agrees p limit ftl unit lpn page map rep mapped agrees

theorem update_mapping_agrees (ftl next : ZmsFtl) (lpn : Nat) (loc : Loc) (ioType : IoType) (rep : CacheRep limit ftl.l2p)
    (agrees : AgreesBut p ftl lpn) (inside : ∀ gran, EntryFor ftl.l2p p.zpp.nsid lpn gran → lpn < p.zpp.ttLpns)
    (updated : updateMappingIfReserved p ftl lpn loc ioType = some next) (inStep : MapsInStep p ftl lpn loc ioType) :
    Agrees p next := by
  unfold MapsInStep at inStep
  rw [updated] at inStep
  dsimp only at inStep
  unfold updateMappingIfReserved at updated
  split at updated
  · rename_i prev map before
    split at updated
    · cases updated
    · split at updated
      · rename_i page after visited
        cases updated
        have marked := marked_lookup p ftl lpn page after
        have noted := note_filled_line_lookup p (decLineRpc p (setRmapEnt p
          (markPageValid p (setMaptblEnt p ftl lpn (.mapped page after)) page) (some lpn) page) page) (getLine p page) loc ioType
        have lookup := noted.trans marked
        generalize noteFilledLine p _ (getLine p page) loc ioType = ready at lookup
        have cache : ready.l2p = ftl.l2p := (lookup_l2p _ _ lookup).trans (set_maptbl_l2p p ftl lpn _)
        have entries := lookup_entry p _ ready lookup
        have closes : closesUnit p ready lpn loc = closesUnit p (setMaptblEnt p ftl lpn (.mapped page after)) lpn loc := by
          funext gran
          unfold closesUnit
          rw [entries]
        apply refine_map_gran_agrees p limit ready lpn loc (by rw [cache]; exact rep)
        · intro other gran apart held
          rw [cache] at held
          obtain ⟨old, mapped⟩ := agrees other gran apart held
          refine ⟨old, ?_⟩
          rw [entries]
          by_cases bound : lpn < p.zpp.ttLpns
          · rw [get_set_maptbl p ftl lpn _ bound, if_neg apart]
            exact mapped
          · rw [setMaptblEnt, if_neg bound]
            exact mapped
        · rw [closes]
          by_cases cached : ∃ gran, EntryFor ftl.l2p p.zpp.nsid lpn gran
          · obtain ⟨gran, held⟩ := cached
            rcases inStep prev map page after gran before visited held with same | starts
            · left
              intro g again
              rw [cache] at again
              have single := entry_single limit ftl.l2p rep _ _ _ _ held again
              refine ⟨page, ?_⟩
              rw [entries, get_set_maptbl p ftl lpn _ (inside gran held), if_pos rfl, single, same]
            · exact .inr starts
          · left
            intro g again
            rw [cache] at again
            exact absurd ⟨g, again⟩ cached
      · cases updated
  · cases updated

theorem unit_holds (lpn : Nat) (loc : Loc) (some : 0 < unitPgs p loc) :
    unitStart p lpn loc ≤ lpn ∧ lpn < unitStart p lpn loc + unitPgs p loc := by
  have zone := zone_start_le p lpn
  unfold unitPgs at some ⊢
  unfold unitStart getGranularityStartLpn
  dsimp only
  rw [if_neg (Nat.ne_of_gt some)]
  have lower := Nat.div_mul_le_self (lpn - zoneToSlpn p (lpnToZone p lpn)) (getPagesPerGranularity p (getMappingGranularity loc))
  have upper : lpn - zoneToSlpn p (lpnToZone p lpn) < _ := Nat.lt_div_mul_add some
  omega

include sharer in
theorem reserve_mapping_agrees (ftl next : ZmsFtl) (lpn : Nat) (loc : Loc) (ioType : IoType) (rep : CacheRep limit ftl.l2p)
    (agrees : AgreesBut p ftl lpn)
    (others : ∀ other, unitStart p lpn loc < other → other < unitStart p lpn loc + unitPgs p loc → ¬CachedLpn p ftl other)
    (ran : reserveMapping p ftl lpn loc ioType = .ok next) : Agrees p next := by
  obtain ⟨reserved, page, opened, looped, advanced, last, entries, taken, reserving, advancing, checked⟩ :=
    reserve_mapping_runs p ftl next lpn loc ioType ran
  have units := sharer.units loc
  obtain ⟨lower, upper⟩ := unit_holds p lpn loc units
  have loop := only_lines_lookup _ _ (reserve_loop_lines p ioType loc _ _ looped reserving)
  have moved := only_lines_lookup _ _ (advance_write_pointer_lines p looped advanced ioType loc advancing)
  have again := only_lines_lookup _ _ (get_new_page_lines p advanced next ioType loc last checked)
  have noted := note_filled_line_lookup p (takeFirstPage p opened (unitStart p lpn loc) page) (getLine p page) loc ioType
  have first := only_lines_lookup _ _ (get_new_page_lines p reserved opened ioType loc page taken)
  apply lookup_agrees p _ _ (((again.trans moved).trans loop).trans noted)
  generalize unitStart p lpn loc = slpn at *
  have cleared : AgreesBut p opened slpn ∧ opened.l2p = ftl.l2p ∧ slpn < p.zpp.ttLpns := by
    unfold reserveUnit at entries
    split at entries
    · rename_i room
      cases entries
      have cache := lookup_l2p _ _ first
      refine ⟨?_, cache, by omega⟩
      intro other gran apart held
      rw [cache] at held
      apply lookup_entry_mapped p _ _ first
      have outside : ¬(slpn ≤ other ∧ other < slpn + unitPgs p loc) := by
        rintro ⟨low, high⟩
        exact others other (by omega) high ⟨gran, held⟩
      have distinct : other ≠ lpn := by
        rintro rfl
        exact outside ⟨lower, upper⟩
      obtain ⟨old, mapped⟩ := agrees other gran distinct held
      refine ⟨old, ?_⟩
      rw [← mapped]
      simp only [getMaptblEnt, reserveEntries, if_neg outside]
    · cases entries
  obtain ⟨agreesBut, cache, inside⟩ := cleared
  unfold takeFirstPage
  dsimp only
  have marked := marked_lookup p opened slpn page .pageMap
  generalize setRmapEnt p (markPageValid p (setMaptblEnt p opened slpn (.mapped page .pageMap)) page) (some slpn) page = ready at marked
  have readyCache := (lookup_l2p _ _ marked).trans (set_maptbl_l2p p opened slpn (.mapped page .pageMap))
  have entry : ∀ other, getMaptblEnt p ready other = if other = slpn then .mapped page .pageMap else getMaptblEnt p opened other :=
    fun other => (lookup_entry p _ ready marked other).trans (get_set_maptbl p opened slpn _ inside other)
  apply set_map_gran_agrees p limit ready .pageMap slpn page .pageMap
  · rw [readyCache, cache]
    exact rep
  · rw [entry, if_pos rfl]
  · intro other gran apart held
    rw [readyCache] at held
    obtain ⟨old, mapped⟩ := agreesBut other gran apart held
    refine ⟨old, ?_⟩
    rw [entry, if_neg apart]
    exact mapped

include sharer in
theorem update_or_reserve_agrees (ftl next : ZmsFtl) (lpn : Nat) (loc : Loc) (ioType : IoType) (rep : CacheRep limit ftl.l2p)
    (agrees : AgreesBut p ftl lpn) (inside : ∀ gran, EntryFor ftl.l2p p.zpp.nsid lpn gran → lpn < p.zpp.ttLpns)
    (lost : Mapped p ftl lpn → Agrees p ftl) (inStep : MapsInStep p ftl lpn loc ioType)
    (ran : updateOrReserveMapping p ftl lpn loc ioType = .ok next) : Agrees p next := by
  unfold updateOrReserveMapping at ran
  cases updated : updateMappingIfReserved p ftl lpn loc ioType with
  | some after =>
      rw [updated] at ran
      cases ran
      exact update_mapping_agrees p limit ftl next lpn loc ioType rep agrees inside updated inStep
  | none =>
      rw [updated] at ran
      simp only [MapsInStep, updated] at inStep
      by_cases full : locFull ftl loc = true
      · simp only [full, if_true] at ran inStep
        cases ran
        intro other gran held
        by_cases same : other = lpn
        · subst same
          exact lost (inStep ⟨gran, held⟩) other gran held
        · exact agrees other gran same held
      · simp only [full] at ran inStep
        exact reserve_mapping_agrees p limit sharer ftl next lpn loc ioType rep agrees inStep ran

theorem cached_inside (ftl : ZmsFtl) (agrees : Agrees p ftl) (lpn : Nat) (gran : MapType)
    (held : EntryFor ftl.l2p p.zpp.nsid lpn gran) : lpn < p.zpp.ttLpns := by
  obtain ⟨page, mapped⟩ := agrees lpn gran held
  exact mapped_within p ftl lpn page gran mapped

theorem drop_if_mapped_agrees_but (ftl : ZmsFtl) (lpn : Nat) (agrees : Agrees p ftl) : AgreesBut p (dropIfMapped p ftl lpn) lpn := by
  intro other gran apart held
  rw [drop_if_mapped_l2p] at held
  obtain ⟨page, mapped⟩ := agrees other gran held
  refine ⟨page, ?_⟩
  rw [← mapped]
  unfold dropIfMapped
  split
  · unfold getMaptblEnt
    rw [drop_mapping_table, Function.update_of_ne apart]
  · rfl

include sharer in
theorem call_agrees (ftl next : ZmsFtl) (op : Op) (rep : CacheRep limit ftl.l2p) (agrees : Agrees p ftl)
    (inStep : CallInStep p ftl op) (called : Call p ftl op (.ok next)) : Agrees p next := by
  generalize ran : (Except.ok next : Exec ZmsFtl) = result at called
  cases called with
  | aside after still =>
      have same := still.core
      cases ran
      exact lookup_agrees p ftl next (congrArg (fun core => Lookup.mk core.maptbl core.l2p) same) agrees
  | hit lpn mapSlpn index found =>
      cases ran
      intro other gran held
      dsimp only at held
      rw [access_entries] at held
      exact agrees other gran held
  | fill lpn gran page missed tried mapped =>
      cases ran
      intro other g held
      rcases insert_missed_entries p ftl _ gran _ other g held with ⟨_, rfl, rfl⟩ | older
      · exact ⟨page, mapped⟩
      · exact agrees other g older
  | map lpn loc ioType =>
      exact update_or_reserve_agrees p limit sharer ftl next lpn loc ioType rep (agrees_agrees_but p ftl agrees lpn)
        (cached_inside p ftl agrees lpn) (fun _ => agrees) inStep ran.symm
  | move lpn loc ioType =>
      refine update_or_reserve_agrees p limit sharer _ next lpn loc ioType ?_ (drop_if_mapped_agrees_but p ftl lpn agrees) ?_ ?_
        inStep ran.symm
      · rw [drop_if_mapped_l2p]
        exact rep
      · rw [drop_if_mapped_l2p]
        exact cached_inside p ftl agrees lpn
      · intro mapped
        rw [drop_if_mapped_mapped] at mapped
        exact absurd rfl mapped.2
  | drop lpn page map mapped =>
      cases ran
      intro other gran held
      rw [drop_mapping_l2p] at held
      have apart : other ≠ lpn := by
        rintro rfl
        exact inStep ⟨gran, held⟩
      have kept := drop_if_mapped_agrees_but p ftl lpn agrees other gran apart
      simp only [dropIfMapped, mapped, drop_mapping_l2p] at kept
      exact kept held
  | select force loc victim after selected =>
      cases ran
      exact lookup_agrees p ftl next (select_victim_lookup p ftl next force loc victim selected) agrees
  | erase ref ioType =>
      cases ran
      exact lookup_agrees p ftl _ (erase_line_lookup p ftl ref ioType) agrees

end Agreement

-- The first page of a unit of the granularity.
def UnitStart (p : Params) (lpn : Nat) (gran : MapType) : Prop := ∃ other, getGranularityStartLpn p other gran = lpn

-- A namespace makes entries for itself only, each for the first page of a unit.
def MakesStarts (p : Params) (before after : L2pCache) : Prop :=
  ∀ ns lpn gran, EntryFor after ns lpn gran → (ns = p.zpp.nsid ∧ UnitStart p lpn gran) ∨ EntryFor before ns lpn gran

section Peers

variable (p : Params) (limit : Nat → Nat) (sharer : Sharer p limit)

theorem same_cache_starts (before after : L2pCache) (same : after = before) : MakesStarts p before after := by
  intro ns lpn gran held
  rw [same] at held
  exact .inr held

theorem page_unit_start (lpn : Nat) : UnitStart p lpn .pageMap := ⟨lpn, page_granularity_start p lpn⟩

theorem set_map_gran_starts (ftl : ZmsFtl) (gran : MapType) (mapSlpn : Nat) (inside : mapSlpn < p.zpp.ttLpns)
    (starts : UnitStart p mapSlpn gran) (rep : CacheRep limit ftl.l2p) : MakesStarts p ftl.l2p (setMapGran p ftl gran mapSlpn).l2p := by
  intro ns lpn g held
  rcases set_map_gran_entries p limit ftl gran mapSlpn inside rep ns lpn g held with ⟨own, rfl, rfl⟩ | ⟨_, older⟩
  · exact .inl ⟨own, starts⟩
  · exact .inr older

theorem refine_map_gran_starts (ftl : ZmsFtl) (lpn : Nat) (loc : Loc) (rep : CacheRep limit ftl.l2p) :
    MakesStarts p ftl.l2p (refineMapGran p lpn loc mapType ftl).l2p := by
  rw [refine_map_gran_find]
  cases found : mapType.find? (closesUnit p ftl lpn loc) with
  | none => exact same_cache_starts p _ _ rfl
  | some gran =>
      obtain ⟨page, map, mapped⟩ := closes_unit_mapped p ftl lpn loc gran (List.find?_some found)
      exact set_map_gran_starts p limit ftl gran _ (mapped_within p ftl _ page map mapped) ⟨lpn, rfl⟩ rep

include sharer in
theorem update_or_reserve_starts (ftl next : ZmsFtl) (lpn : Nat) (loc : Loc) (ioType : IoType) (rep : CacheRep limit ftl.l2p)
    (ran : updateOrReserveMapping p ftl lpn loc ioType = .ok next) : MakesStarts p ftl.l2p next.l2p := by
  unfold updateOrReserveMapping updateMappingIfReserved at ran
  split at ran
  · rename_i updated
    cases ran
    split at updated
    · split at updated
      · cases updated
      · split at updated
        · rename_i page map _
          cases updated
          have noted := note_filled_line_lookup p (decLineRpc p (setRmapEnt p
            (markPageValid p (setMaptblEnt p ftl lpn (.mapped page map)) page) (some lpn) page) page) (getLine p page) loc ioType
          have cache := (lookup_l2p _ _ noted).trans (marked_l2p p ftl lpn page map)
          generalize noteFilledLine p _ (getLine p page) loc ioType = ready at cache
          have refined := refine_map_gran_starts p limit ready lpn loc
          rw [cache] at refined
          exact refined rep
        · cases updated
    · cases updated
  · split at ran
    · cases ran
      exact same_cache_starts p _ _ rfl
    · obtain ⟨reserved, page, opened, looped, advanced, last, entries, taken, reserving, advancing, checked⟩ :=
        reserve_mapping_runs p ftl next lpn loc ioType ran
      have loop := only_lines_lookup _ _ (reserve_loop_lines p ioType loc _ _ looped reserving)
      have moved := only_lines_lookup _ _ (advance_write_pointer_lines p looped advanced ioType loc advancing)
      have again := only_lines_lookup _ _ (get_new_page_lines p advanced next ioType loc last checked)
      have noted := note_filled_line_lookup p (takeFirstPage p opened (unitStart p lpn loc) page) (getLine p page) loc ioType
      have first := lookup_l2p _ _ (only_lines_lookup _ _ (get_new_page_lines p reserved opened ioType loc page taken))
      rw [lookup_l2p _ _ (((again.trans moved).trans loop).trans noted)]
      have units := sharer.units loc
      unfold reserveUnit at entries
      split at entries
      · rename_i room
        cases entries
        have cache := (marked_l2p p opened (unitStart p lpn loc) page .pageMap).trans first
        have set := set_map_gran_starts p limit (setRmapEnt p (markPageValid p
          (setMaptblEnt p opened (unitStart p lpn loc) (.mapped page .pageMap)) page) (some (unitStart p lpn loc)) page)
          .pageMap (unitStart p lpn loc) (by omega) (page_unit_start p _)
        rw [cache] at set
        exact set rep
      · cases entries

include sharer in
theorem call_starts (ftl next : ZmsFtl) (op : Op) (rep : CacheRep limit ftl.l2p) (called : Call p ftl op (.ok next)) :
    MakesStarts p ftl.l2p next.l2p := by
  generalize ran : (Except.ok next : Exec ZmsFtl) = result at called
  cases called with
  | aside after still =>
      cases ran
      exact same_cache_starts p _ _ (congrArg Core.l2p still.core)
  | hit lpn mapSlpn index found =>
      cases ran
      intro ns other gran held
      dsimp only at held
      rw [access_entries] at held
      exact .inr held
  | fill lpn gran page missed tried mapped =>
      cases ran
      intro ns other g held
      rcases insert_missed_entries p ftl _ gran ns other g held with ⟨own, rfl, rfl⟩ | older
      · exact .inl ⟨own, lpn, rfl⟩
      · exact .inr older
  | map lpn loc ioType => exact update_or_reserve_starts p limit sharer ftl next lpn loc ioType rep ran.symm
  | move lpn loc ioType =>
      have moved := update_or_reserve_starts p limit sharer (dropIfMapped p ftl lpn) next lpn loc ioType
      rw [drop_if_mapped_l2p] at moved
      exact moved rep ran.symm
  | drop lpn page map mapped =>
      cases ran
      exact same_cache_starts p _ _ (drop_mapping_l2p p ftl lpn page)
  | select force loc victim after selected =>
      cases ran
      exact same_cache_starts p _ _ (lookup_l2p _ _ (select_victim_lookup p ftl next force loc victim selected))
  | erase ref ioType =>
      cases ran
      exact same_cache_starts p _ _ (lookup_l2p _ _ (erase_line_lookup p ftl ref ioType))

include sharer in
theorem calls_starts (ftl next : ZmsFtl) (run : Calls p anyCall ftl (.ok next)) (rep : CacheRep limit ftl.l2p) :
    CacheRep limit next.l2p ∧ MakesStarts p ftl.l2p next.l2p := by
  refine calls_keep p anyCall (fun after => CacheRep limit after.l2p ∧ MakesStarts p ftl.l2p after.l2p) ?_ ftl next
    ⟨rep, same_cache_starts p _ _ rfl⟩ run
  rintro before op after ⟨middle, made⟩ _ called
  refine ⟨call_rep p limit sharer before after op called middle, ?_⟩
  intro ns lpn gran held
  rcases call_starts p limit sharer before after op middle called ns lpn gran held with new | older
  · exact .inl new
  · exact made ns lpn gran older

end Peers

def CacheAgrees (config : DualConfig) (dual : DualFtl) : Prop :=
  ∀ holder slot index, UsedIndex (dual holder).l2p slot index →
    ∃ loc lpn, ((dual holder).l2p.mapping slot index).nsid = (dualParams config loc).zpp.nsid ∧
      ((dual holder).l2p.mapping slot index).lpn = some lpn ∧
        EntryMapped (dualParams config loc) (dual loc) lpn ((dual holder).l2p.mapping slot index).granularity

def ZoneUncached (p : Params) (ftl : ZmsFtl) (zid : Nat) : Prop := ∀ lpn ∈ zoneLpnList p zid, ¬CachedLpn p ftl lpn

section Runs

variable (config : DualConfig)

structure InStep (dual : DualFtl) : Prop where
  rep : ∀ loc, CacheRep (cacheLimit config) (dual loc).l2p
  shares : ∀ first second, (dual first).l2p = (dual second).l2p
  agrees : ∀ loc, Agrees (dualParams config loc) (dual loc)

theorem dual_nsids (first second : Loc) (same : (dualParams config first).zpp.nsid = (dualParams config second).zpp.nsid) :
    first = second := by
  cases first with
  | pslc =>
      cases second with
      | pslc => rfl
      | normal => exact absurd (show (0 : Nat) = 1 from same) (by decide)
  | normal =>
      cases second with
      | pslc => exact absurd (show (1 : Nat) = 0 from same) (by decide)
      | normal => rfl

theorem in_step_kept : TransitionSystem.Invariant (callSystem config) (callMeets config CallInStep) (InStep config) where
  starts := by
    intro dual init
    obtain ⟨clock, same⟩ := init
    subst same
    refine ⟨fun _ => init_rep (cacheLimit config), fun _ _ => rfl, ?_⟩
    rintro loc lpn gran ⟨slot, index, ⟨lower, upper⟩, _⟩
    have empty : index < (0 : Nat) := upper
    omega
  keeps := by
    intro dual next entry kept permitted taken
    cases taken with
    | run loc op after called =>
        have rep := call_rep _ _ (dual_sharer config loc) (dual loc) after op called (kept.rep loc)
        have made := call_starts _ _ (dual_sharer config loc) (dual loc) after op (kept.rep loc) called
        have own := call_agrees _ _ (dual_sharer config loc) (dual loc) after op (kept.rep loc) (kept.agrees loc) permitted called
        have cache := fun other => (ran_on_shares dual loc other after).l2p
        refine ⟨?_, ?_, ?_⟩
        · intro other
          rw [cache other]
          exact rep
        · intro first second
          rw [cache first, cache second]
        · intro other
          by_cases here : other = loc
          · subst here
            rw [ran_on_self]
            exact own
          · intro lpn gran held
            rw [cache other] at held
            have apart : (dualParams config other).zpp.nsid ≠ (dualParams config loc).zpp.nsid :=
              fun same => here (dual_nsids config other loc same)
            have older := (made _ lpn gran held).resolve_left fun own => apart own.1
            rw [kept.shares loc other] at older
            rw [ran_on_other dual loc other after here]
            exact kept.agrees other lpn gran older

theorem in_step_agrees (dual : DualFtl) (inStep : InStep config dual) : CacheAgrees config dual := by
  intro holder slot index used
  obtain ⟨lpn, holds, _, nsid, _, _⟩ := (inStep.rep holder).hashed slot index used
  have owner : ∃ loc, ((dual holder).l2p.mapping slot index).nsid = (dualParams config loc).zpp.nsid := by
    have cases : ((dual holder).l2p.mapping slot index).nsid = 0 ∨ ((dual holder).l2p.mapping slot index).nsid = 1 := by omega
    cases cases with
    | inl first => exact ⟨.pslc, first⟩
    | inr second => exact ⟨.normal, second⟩
  obtain ⟨loc, own⟩ := owner
  refine ⟨loc, lpn, own, holds, inStep.agrees loc lpn _ ?_⟩
  rw [inStep.shares loc holder]
  exact ⟨slot, index, used, ⟨own, holds, rfl⟩⟩

theorem reset_call_cache (p : Params) (ftl next : ZmsFtl) (run : Calls p resetCall ftl (.ok next)) : next.l2p = ftl.l2p := by
  refine calls_keep p resetCall (fun after => after.l2p = ftl.l2p) ?_ ftl next rfl run
  intro before op after kept met called
  generalize ran : (Except.ok after : Exec ZmsFtl) = result at called
  cases called with
  | aside _ still =>
      cases ran
      exact (congrArg Core.l2p still.core).trans kept
  | drop lpn page map _ =>
      cases ran
      exact (drop_mapping_l2p p before lpn page).trans kept
  | erase ref ioType =>
      cases ran
      exact (lookup_l2p _ _ (erase_line_lookup p before ref ioType)).trans kept
  | hit | fill | map | move | select => exact absurd met id

-- No management action touches the cache, so a reset clears nothing from it.
theorem mgmt_zone_uncached (dual next : DualFtl) (loc : Loc) (cmd : ZoneMgmtSend) (zid : Nat)
    (taken : DualStep config dual (loc, .mgmtSend cmd) next) :
    ZoneUncached (dualParams config loc) (next loc) zid ↔ ZoneUncached (dualParams config loc) (dual loc) zid := by
  cases taken with
  | run _ _ after ran =>
      have run := zns_zmgmt_send_calls (dualParams config loc) (dual loc) cmd
      have ended : effect Prod.snd (znsZmgmtSend (dualParams config loc) (dual loc) cmd) = .ok after := step_event_run _ _ _ _ ran
      rw [ended] at run
      rw [ran_on_self]
      simp only [ZoneUncached, CachedLpn, reset_call_cache _ _ _ run]

end Runs

theorem cache_agrees_in_step (config : DualConfig) :
    (∀ dual, TransitionSystem.Reach (callSystem config) (callMeets config CallInStep) dual → CacheAgrees config dual) ∧
      (∀ dual, DualReachable config (commandMeets config CallInStep) dual → CacheAgrees config dual) ∧
        ∀ dual next loc cmd zid, DualStep config dual (loc, .mgmtSend cmd) next →
          (ZoneUncached (dualParams config loc) (next loc) zid ↔ ZoneUncached (dualParams config loc) (dual loc) zid) := by
  have calls : ∀ dual, TransitionSystem.Reach (callSystem config) (callMeets config CallInStep) dual → CacheAgrees config dual :=
    fun dual reached => in_step_agrees config dual
      (TransitionSystem.reach_invariant _ _ _ (in_step_kept config) dual reached)
  refine ⟨calls, ?_, ?_⟩
  · intro dual reached
    exact calls dual (commands_reach config CallInStep dual reached)
  · intro dual next loc cmd zid taken
    exact mgmt_zone_uncached config dual next loc cmd zid taken

-- The first page of the SLC namespace is mapped, straight away and after it has
-- been put into a write buffer; a reset of another zone leaves its zone alone.
theorem mapped_page_agrees :
    (∃ dual : DualFtl, CacheAgrees sampleConfig dual ∧ (dual .pslc).l2p.slotLen 0 = 1 ∧ mappedPpa ((dual .pslc).maptbl 0) = true) ∧
      (∃ dual : DualFtl, CacheAgrees sampleConfig dual ∧ ((dual .pslc).writeBuffer 0).lpns = [0]) ∧
        ∃ dual next : DualFtl, ZoneUncached (dualParams sampleConfig .pslc) (dual .pslc) 1 ∧
          ZoneUncached (dualParams sampleConfig .pslc) (next .pslc) 1 := by
  obtain ⟨calls, commands, resets⟩ := cache_agrees_in_step sampleConfig
  have fresh : TransitionSystem.Reach (callSystem sampleConfig) (callMeets sampleConfig CallInStep)
      (dualRealize sampleConfig fun _ => 0) := .start _ ⟨_, rfl⟩
  refine ⟨?_, ?_, ?_⟩
  · have maps : (match updateOrReserveMapping (dualParams sampleConfig .pslc) (dualRealize sampleConfig (fun _ => 0) .pslc) 0 .pslc
        .userIo with
      | .ok next => decide (next.l2p.slotLen 0 = 1) && mappedPpa (next.maptbl 0)
      | .error _ => false) = true := by decide +kernel
    cases mapping : updateOrReserveMapping (dualParams sampleConfig .pslc) (dualRealize sampleConfig (fun _ => 0) .pslc) 0 .pslc .userIo with
    | error fault =>
        rw [mapping] at maps
        cases maps
    | ok next =>
        rw [mapping] at maps
        simp only [Bool.and_eq_true, decide_eq_true_eq] at maps
        have called : Call (dualParams sampleConfig .pslc) (dualRealize sampleConfig (fun _ => 0) .pslc) (.map 0 .pslc .userIo)
            (updateOrReserveMapping (dualParams sampleConfig .pslc) (dualRealize sampleConfig (fun _ => 0) .pslc) 0 .pslc .userIo) :=
          .map 0 .pslc .userIo
        rw [mapping] at called
        have inStep : callMeets sampleConfig CallInStep (dualRealize sampleConfig fun _ => 0) (.pslc, .map 0 .pslc .userIo) := by
          intro other above below
          have one : other < 0 + 1 := below
          have first : 0 < other := above
          omega
        have reached := TransitionSystem.Reach.next _ _ _ fresh inStep (.run _ .pslc _ next called)
        refine ⟨_, calls _ reached, ?_⟩
        rw [ran_on_self]
        exact maps
  · have stepped : ∃ next, stepEvent (dualParams sampleConfig .pslc) (dualRealize sampleConfig (fun _ => 0) .pslc) (writeEvent 0 8) = some next ∧
        coreOf next = coreOf (dualRealize sampleConfig (fun _ => 0) .pslc) ∧
        next.timing.planes = (dualRealize sampleConfig (fun _ => 0) .pslc).timing.planes ∧ BuffersSized next ∧
        (next.writeBuffer 0).lpns = [0] :=
      ⟨_, rfl, rfl, rfl, fun index => by cases index <;> rfl, rfl⟩
    obtain ⟨next, stepped, core, planes, sized, buffered⟩ := stepped
    have taken := step_event_step _ _ _ _ stepped
    have inStep : commandMeets sampleConfig CallInStep (dualRealize sampleConfig fun _ => 0) (.pslc, writeEvent 0 8) := by
      unfold commandMeets
      rw [step_event_run _ _ _ _ taken]
      exact .call _ .aside _ .done trivial (.aside next (aside_still _ _ _ core planes fun _ => sized))
    have start : DualReachable sampleConfig (commandMeets sampleConfig CallInStep) (dualRealize sampleConfig fun _ => 0) :=
      .start _ ⟨_, rfl⟩
    have reached := TransitionSystem.Reach.next _ _ _ start inStep (DualStep.run _ .pslc _ next taken)
    refine ⟨_, commands _ reached, ?_⟩
    rw [ran_on_self]
    exact buffered
  · have stepped : ∃ next, stepEvent (dualParams sampleConfig .pslc) (dualRealize sampleConfig (fun _ => 0) .pslc) (resetEvent 0) = some next :=
      ⟨_, rfl⟩
    obtain ⟨next, stepped⟩ := stepped
    have taken : DualStep sampleConfig (dualRealize sampleConfig fun _ => 0) (.pslc, resetEvent 0)
        (ranOn (dualRealize sampleConfig fun _ => 0) .pslc next) := .run _ .pslc _ next (step_event_step _ _ _ _ stepped)
    have empty : ZoneUncached (dualParams sampleConfig .pslc) (dualRealize sampleConfig (fun _ => 0) .pslc) 1 := by
      rintro lpn _ ⟨gran, slot, index, ⟨lower, upper⟩, _⟩
      have none : index < (0 : Nat) := upper
      omega
    exact ⟨_, _, empty, (resets _ _ .pslc _ 1 taken).mpr empty⟩

-- Zone 0 of the SLC namespace is written and reset: its LPNs stay in the cache.
theorem reset_leaves_entries :
    ∃ dual, DualReachable sampleConfig anyEvent dual ∧ ¬CacheAgrees sampleConfig dual ∧
      ¬ZoneUncached (dualParams sampleConfig .pslc) (dual .pslc) 0 := by
  obtain ⟨dual, reached, checked⟩ := dual_run_check sampleConfig [(.pslc, writeEvent 0 32), (.pslc, resetEvent 0)] (fun _ => 0)
    (fun dual : DualFtl => decide ((dual .pslc).l2p.slotLen 0 = 2) && decide (((dual .pslc).l2p.mapping 0 0).nsid = 0) &&
      decide (((dual .pslc).l2p.mapping 0 0).lpn = some 0) && decide ((dual .pslc).maptbl 0 = .unmapped)) (by decide +kernel)
  simp only [Bool.and_eq_true, decide_eq_true_eq] at checked
  obtain ⟨⟨⟨length, nsid⟩, lpn⟩, unmapped⟩ := checked
  have used : UsedIndex (dual .pslc).l2p 0 0 := by
    refine ⟨Int.le_refl 0, ?_⟩
    rw [length]
    decide
  refine ⟨dual, reached, ?_, ?_⟩
  · intro agrees
    obtain ⟨loc, la, own, holds, page, mapped⟩ := agrees .pslc 0 0 used
    have here : loc = .pslc := dual_nsids sampleConfig loc .pslc (own.symm.trans nsid)
    rw [lpn] at holds
    cases holds
    rw [here] at mapped
    simp [getMaptblEnt, unmapped] at mapped
  · intro none
    exact none 0 (by decide) ⟨_, 0, 0, used, nsid, lpn, rfl⟩

end ConZone
