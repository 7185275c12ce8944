import ConZone.CacheAgreement

set_option autoImplicit false

namespace ConZone

def Reached (p : Params) (cache : L2pCache) (lpn : Nat) : Prop :=
  ∃ slpn gran, EntryFor cache p.zpp.nsid slpn gran ∧ slpn ≤ lpn ∧ lpn < slpn + getPagesPerGranularity p gran

-- One of the entries the lookup comes to, those of the first pages of the units
-- around the page, reaches the page; none of them is there.
def UnitReached (p : Params) (cache : L2pCache) (lpn : Nat) : Prop :=
  ∃ unit ∈ mapType, ∃ gran, EntryFor cache p.zpp.nsid (getGranularityStartLpn p lpn unit) gran ∧
    lpn < getGranularityStartLpn p lpn unit + getPagesPerGranularity p gran

def NoUnitCached (p : Params) (cache : L2pCache) (lpn : Nat) : Prop :=
  ∀ unit ∈ mapType, getL2pcacheidx p cache (getGranularityStartLpn p lpn unit) = -1

-- The granularity map_read finds for a page and loads an entry of.
def loadedGran (p : Params) (ftl : ZmsFtl) (lpn : Nat) : Option MapType :=
  mapType.find? fun gran =>
    match getMaptblEnt p ftl (getGranularityStartLpn p lpn gran) with
    | .mapped _ map => decide (map = gran)
    | _ => false

-- Whatever entry the lookup may come to, cached before the request or loaded for
-- an earlier page of it, reaches the page.
def UnitsReach (p : Params) (ftl : ZmsFtl) (earlier : List Nat) (lpn : Nat) : Prop :=
  ∀ unit ∈ mapType, ∀ gran,
    (EntryFor ftl.l2p p.zpp.nsid (getGranularityStartLpn p lpn unit) gran ∨
      ∃ other ∈ earlier, loadedGran p ftl other = some gran ∧ getGranularityStartLpn p other gran = getGranularityStartLpn p lpn unit) →
    lpn < getGranularityStartLpn p lpn unit + getPagesPerGranularity p gran

def readLpns (cmd : RwCommand) : List Nat :=
  lpnRange (lbaToLpn cmd.slba) (lbaToLpn (u64 (cmd.slba + nrLbasFromRwCmd cmd - 1)))

-- handle_read_request when it comes to the page at the given place.
def readUpTo (p : Params) (ftl : ZmsFtl) (req : Request) (cmd : RwCommand) (place : Nat) : ReadState :=
  let begin := req.nsecsStart + (if nrLbasFromRwCmd cmd * secsz ≤ 4096 then fw4kbRdLat else fwRdLat)
  ((readLpns cmd).take place).foldl (readPage p (lbaToLpn cmd.slba)) ⟨{ ftl with currentTime := req.nsecsStart }, [], begin, begin, 0⟩

def pageCounted (ftl : ZmsFtl) : ZmsFtl := { ftl with stats := { ftl.stats with hostRPgs := ftl.stats.hostRPgs + 1 } }

@[simp] theorem page_counted_hits (ftl : ZmsFtl) : (pageCounted ftl).stats.l2pHits = ftl.stats.l2pHits := rfl

def servedByBuffer (p : Params) (ftl : ZmsFtl) (slpn lpn : Nat) : Bool :=
  let (buffer, ftl) := zmsWbGet p (pageCounted ftl) slpn
  bufferHolds p ftl buffer slpn lpn

def countsHit (p : Params) (slpn : Nat) (state : ReadState) (lpn : Nat) : Prop :=
  (readPage p slpn state lpn).ftl.stats.l2pHits = state.ftl.stats.l2pHits + 1

section Search

variable (p : Params)

theorem l2p_search_hit (ftl : ZmsFtl) (lpn : Nat) : (l2pSearch p ftl lpn).isSome = true ↔
    ∃ unit ∈ mapType, getL2pcacheidx p ftl.l2p (getGranularityStartLpn p lpn unit) ≠ -1 := by
  constructor
  · intro hit
    obtain ⟨⟨mapSlpn, index⟩, found⟩ := Option.isSome_iff_exists.mp hit
    obtain ⟨unit, tried, result⟩ := List.exists_of_findSome?_eq_some found
    dsimp only at result
    split at result
    · cases result
    · rename_i cached
      exact ⟨unit, tried, cached⟩
  · rintro ⟨unit, tried, cached⟩
    cases searched : l2pSearch p ftl lpn with
    | some _ => rfl
    | none => exact absurd (l2p_search_absent p ftl lpn unit tried searched) cached

variable (limit : Nat → Nat) (sharer : Sharer p limit)

include sharer in
theorem entry_cached (cache : L2pCache) (rep : CacheRep limit cache) (lpn : Nat) :
    getL2pcacheidx p cache lpn ≠ -1 ↔ ∃ gran, EntryFor cache p.zpp.nsid lpn gran := by
  constructor
  · intro cached
    have inside : lpn < p.zpp.ttLpns := by
      by_contra outside
      exact cached (if_neg outside)
    rw [found_idx p cache lpn inside] at cached
    obtain ⟨used, nsid, holds⟩ := rep.backed p.zpp.nsid lpn cached
    exact ⟨_, _, _, used, nsid, holds, rfl⟩
  · rintro ⟨gran, slot, index, used, nsid, holds, _⟩
    obtain ⟨la, held, _, own, bound, back⟩ := rep.hashed slot index used
    rw [holds] at held
    cases held
    rw [nsid] at bound back
    have inside : lpn < p.zpp.ttLpns := by
      have limits := sharer.limits _ sharer.own
      rw [nsTtLpns, if_pos rfl] at limits
      omega
    rw [found_idx p cache lpn inside, back]
    exact used_index_nil cache slot index used

end Search

section Counting

variable (p : Params)

theorem submit_read_hits (ftl : ZmsFtl) (ioType : IoType) (start : Nat) (agg : Page × Nat) :
    (submitRead p ftl ioType start agg).2.stats.l2pHits = ftl.stats.l2pHits := by
  unfold submitRead
  split <;> rfl

theorem nand_read_hits (ftl : ZmsFtl) (lpns : List Nat) (ioType : IoType) (start : Nat) :
    (nandRead p ftl lpns ioType start).2.stats.l2pHits = ftl.stats.l2pHits :=
  nand_read_keeps p (fun after => after.stats.l2pHits = ftl.stats.l2pHits) ioType start
    (fun middle agg before => (submit_read_hits p middle ioType start agg).trans before) ftl lpns rfl

theorem map_read_hits (lpn : Nat) (grans : List MapType) (latest : Nat) (ftl : ZmsFtl) :
    (mapRead p lpn grans (latest, ftl)).2.stats.l2pHits = ftl.stats.l2pHits := by
  induction grans generalizing latest ftl with
  | nil => rfl
  | cons gran rest ih =>
      have fetched := nand_read_hits p ftl [getGranularityStartLpn p lpn gran] .mapReadIo latest
      unfold mapRead
      dsimp only
      generalize nandRead p ftl [getGranularityStartLpn p lpn gran] .mapReadIo latest = done at fetched
      obtain ⟨time, middle⟩ := done
      dsimp only at fetched ⊢
      split
      · split
        · exact fetched
        · exact (ih time middle).trans fetched
      · exact (ih time middle).trans fetched

theorem lookup_l2p_hits (state : ReadState) (lpn : Nat) : (lookupL2p p state lpn).ftl.stats.l2pHits =
    state.ftl.stats.l2pHits + if (l2pSearch p state.ftl lpn).isSome then 1 else 0 := by
  unfold lookupL2p
  cases found : l2pSearch p state.ftl lpn with
  | some entry => rfl
  | none =>
      have fetched := nand_read_hits p state.ftl state.toRead .userIo state.readBegin
      have read := map_read_hits p lpn mapType state.readBegin (nandRead p state.ftl state.toRead .userIo state.readBegin).2
      exact read.trans fetched

theorem zms_wb_get_hits (ftl : ZmsFtl) (slpn : Nat) : (zmsWbGet p ftl slpn).2.stats = ftl.stats := by
  unfold zmsWbGet
  dsimp only
  split
  · rfl
  · split <;> rfl

theorem counts_hit_search (slpn : Nat) (state : ReadState) (lpn : Nat) : countsHit p slpn state lpn ↔
    servedByBuffer p state.ftl slpn lpn = false ∧ (l2pSearch p state.ftl lpn).isSome = true := by
  have counters := zms_wb_get_hits p (pageCounted state.ftl) slpn
  have core := (zms_wb_get_aside p (pageCounted state.ftl) slpn).core
  unfold countsHit readPage servedByBuffer
  dsimp only
  change _ ↔ bufferHolds p (zmsWbGet p (pageCounted state.ftl) slpn).2 (zmsWbGet p (pageCounted state.ftl) slpn).1 slpn lpn = false ∧ _
  rw [show ({ state.ftl with stats := { state.ftl.stats with hostRPgs := state.ftl.stats.hostRPgs + 1 } } : ZmsFtl) =
    pageCounted state.ftl from rfl]
  generalize zmsWbGet p (pageCounted state.ftl) slpn = found at counters core
  obtain ⟨buffer, middle⟩ := found
  dsimp only at counters core ⊢
  cases held : bufferHolds p middle buffer slpn lpn with
  | true => simp [counters]
  | false =>
      have looked := lookup_l2p_hits p { state with ftl := middle, wbReadPgs := state.wbReadPgs + middle.gcAggLpns.count lpn } lpn
      have searched : l2pSearch p middle lpn = l2pSearch p state.ftl lpn :=
        l2p_search_missed p state.ftl middle lpn (congrArg Core.l2p core)
      dsimp only at looked
      rw [searched, counters] at looked
      generalize lookupL2p p _ lpn = after at looked
      cases mapped : mappedPpa (getMaptblEnt p after.ftl lpn) with
      | true => simp [looked, Option.isSome_iff_ne_none]
      | false => simp [looked, Option.isSome_iff_ne_none]

end Counting

section Reading

variable (p : Params)

theorem granularity_start_le (lpn : Nat) (unit : MapType) : getGranularityStartLpn p lpn unit ≤ lpn := by
  have zone := zone_start_le p lpn
  unfold getGranularityStartLpn
  dsimp only
  split
  · exact le_refl lpn
  · have whole := Nat.div_mul_le_self (lpn - zoneToSlpn p (lpnToZone p lpn)) (getPagesPerGranularity p unit)
    omega

theorem read_up_to_calls (ftl : ZmsFtl) (req : Request) (cmd : RwCommand) (place : Nat) :
    Calls p anyCall ftl (.ok (readUpTo p ftl req cmd place).ftl) := by
  have pages := read_pages_calls p (lbaToLpn cmd.slba) ((readLpns cmd).take place)
    ⟨{ ftl with currentTime := req.nsecsStart }, [],
      req.nsecsStart + (if nrLbasFromRwCmd cmd * secsz ≤ 4096 then fw4kbRdLat else fwRdLat),
      req.nsecsStart + (if nrLbasFromRwCmd cmd * secsz ≤ 4096 then fw4kbRdLat else fwRdLat), 0⟩
  exact calls_trans p anyCall ftl _ _ (calls_aside p ftl { ftl with currentTime := req.nsecsStart } (aside_still p _ _ rfl rfl id)) pages

variable (limit : Nat → Nat) (sharer : Sharer p limit)

-- The lookup takes the first unit whose start it finds, whatever the entry says.
include sharer in
theorem counts_hit_held (slpn : Nat) (state : ReadState) (lpn : Nat) (rep : CacheRep limit state.ftl.l2p) :
    countsHit p slpn state lpn ↔ servedByBuffer p state.ftl slpn lpn = false ∧
      ∃ unit ∈ mapType, ∃ gran, EntryFor state.ftl.l2p p.zpp.nsid (getGranularityStartLpn p lpn unit) gran := by
  simp only [counts_hit_search, l2p_search_hit, entry_cached p limit sharer state.ftl.l2p rep]

theorem hit_reached_iff (slpn : Nat) (state : ReadState) (lpn : Nat)
    (aligned : Reached p state.ftl.l2p lpn ↔ UnitReached p state.ftl.l2p lpn) :
    (countsHit p slpn state lpn → Reached p state.ftl.l2p lpn) ↔
      servedByBuffer p state.ftl slpn lpn = true ∨ NoUnitCached p state.ftl.l2p lpn ∨ UnitReached p state.ftl.l2p lpn := by
  rw [aligned, counts_hit_search, l2p_search_hit]
  constructor
  · intro sound
    by_cases served : servedByBuffer p state.ftl slpn lpn = true
    · exact .inl served
    · by_cases cached : ∃ unit ∈ mapType, getL2pcacheidx p state.ftl.l2p (getGranularityStartLpn p lpn unit) ≠ -1
      · exact .inr (.inr (sound ⟨by simpa using served, cached⟩))
      · refine .inr (.inl fun unit tried => ?_)
        by_contra there
        exact cached ⟨unit, tried, there⟩
  · rintro holds ⟨missed, unit, tried, cached⟩
    rcases holds with served | absent | reached
    · rw [missed] at served
      cases served
    · exact absurd (absent unit tried) cached
    · exact reached

end Reading

section Loading

variable (p : Params)

-- The pages of a request that have been read leave the mapping table as it is,
-- and what they add to the cache are the entries map_read finds for them.
structure LoadsOnly (start : ZmsFtl) (pages : List Nat) (after : ZmsFtl) : Prop where
  table : after.maptbl = start.maptbl
  entries : ∀ la gran, EntryFor after.l2p p.zpp.nsid la gran → EntryFor start.l2p p.zpp.nsid la gran ∨
    ∃ other ∈ pages, loadedGran p start other = some gran ∧ getGranularityStartLpn p other gran = la

theorem loads_only_same (start : ZmsFtl) (pages : List Nat) (before after : ZmsFtl) (table : after.maptbl = before.maptbl)
    (cache : after.l2p = before.l2p) (loads : LoadsOnly p start pages before) : LoadsOnly p start pages after := by
  refine ⟨table.trans loads.table, ?_⟩
  rw [cache]
  exact loads.entries

theorem table_entry (before after : ZmsFtl) (table : after.maptbl = before.maptbl) (lpn : Nat) :
    getMaptblEnt p after lpn = getMaptblEnt p before lpn := by
  unfold getMaptblEnt
  rw [table]

theorem nand_read_table (ftl : ZmsFtl) (lpns : List Nat) (ioType : IoType) (start : Nat) :
    (nandRead p ftl lpns ioType start).2.maptbl = ftl.maptbl ∧ (nandRead p ftl lpns ioType start).2.l2p = ftl.l2p := by
  have core := (nand_read_aside p ftl lpns ioType start).core
  exact ⟨congrArg Core.maptbl core, congrArg Core.l2p core⟩

-- map_read loads the entry of the first granularity that the table confirms.
theorem map_read_loads (lpn : Nat) (grans : List MapType) (latest : Nat) (ftl : ZmsFtl) :
    (mapRead p lpn grans (latest, ftl)).2.maptbl = ftl.maptbl ∧
      ∀ la gran, EntryFor (mapRead p lpn grans (latest, ftl)).2.l2p p.zpp.nsid la gran → EntryFor ftl.l2p p.zpp.nsid la gran ∨
        (grans.find? fun gran =>
          match getMaptblEnt p ftl (getGranularityStartLpn p lpn gran) with
          | .mapped _ map => decide (map = gran)
          | _ => false) = some gran ∧ getGranularityStartLpn p lpn gran = la := by
  induction grans generalizing latest ftl with
  | nil => exact ⟨rfl, fun _ _ held => .inl held⟩
  | cons tried rest ih =>
      obtain ⟨table, cache⟩ := nand_read_table p ftl [getGranularityStartLpn p lpn tried] .mapReadIo latest
      unfold mapRead
      dsimp only
      generalize nandRead p ftl [getGranularityStartLpn p lpn tried] .mapReadIo latest = done at table cache
      obtain ⟨time, middle⟩ := done
      dsimp only at table cache ⊢
      have later := ih time middle
      simp only [table_entry p ftl middle table, cache, table] at later
      rw [table_entry p ftl middle table]
      cases entry : getMaptblEnt p ftl (getGranularityStartLpn p lpn tried) with
      | mapped page map =>
          by_cases confirmed : map = tried
          · subst confirmed
            simp only [if_true, List.find?_cons, entry, decide_true]
            refine ⟨table, fun la gran held => ?_⟩
            rcases insert_missed_entries p middle _ map _ la gran held with ⟨_, rfl, rfl⟩ | older
            · exact .inr ⟨rfl, rfl⟩
            · rw [cache] at older
              exact .inl older
          · simp only [List.find?_cons, entry, confirmed, decide_false]
            exact later
      | unmapped =>
          simp only [List.find?_cons, entry]
          exact later
      | rsv =>
          simp only [List.find?_cons, entry]
          exact later

theorem lookup_l2p_loads (start : ZmsFtl) (pages : List Nat) (state : ReadState) (lpn : Nat) (loads : LoadsOnly p start pages state.ftl) :
    LoadsOnly p start (pages ++ [lpn]) (lookupL2p p state lpn).ftl := by
  have earlier : ∀ la gran, EntryFor state.ftl.l2p p.zpp.nsid la gran → EntryFor start.l2p p.zpp.nsid la gran ∨
      ∃ other ∈ pages ++ [lpn], loadedGran p start other = some gran ∧ getGranularityStartLpn p other gran = la := by
    intro la gran held
    refine (loads.entries la gran held).imp_right ?_
    rintro ⟨other, member, loaded⟩
    exact ⟨other, List.mem_append_left _ member, loaded⟩
  unfold lookupL2p
  cases l2pSearch p state.ftl lpn with
  | some entry =>
      refine ⟨loads.table, fun la gran held => earlier la gran ?_⟩
      dsimp only at held
      rwa [access_entries] at held
  | none =>
      obtain ⟨table, cache⟩ := nand_read_table p state.ftl state.toRead .userIo state.readBegin
      obtain ⟨kept, added⟩ := map_read_loads p lpn mapType state.readBegin (nandRead p state.ftl state.toRead .userIo state.readBegin).2
      simp only [table_entry p state.ftl _ table, table_entry p start _ loads.table, cache] at added
      refine ⟨(kept.trans table).trans loads.table, fun la gran held => ?_⟩
      rcases added la gran held with older | loaded
      · exact earlier la gran older
      · exact .inr ⟨lpn, List.mem_append_right _ List.mem_cons_self, loaded⟩

theorem read_page_loads (start : ZmsFtl) (pages : List Nat) (slpn : Nat) (state : ReadState) (lpn : Nat)
    (loads : LoadsOnly p start pages state.ftl) : LoadsOnly p start (pages ++ [lpn]) (readPage p slpn state lpn).ftl := by
  have core := (zms_wb_get_aside p (pageCounted state.ftl) slpn).core
  unfold readPage
  dsimp only
  rw [show ({ state.ftl with stats := { state.ftl.stats with hostRPgs := state.ftl.stats.hostRPgs + 1 } } : ZmsFtl) =
    pageCounted state.ftl from rfl]
  generalize zmsWbGet p (pageCounted state.ftl) slpn = found at core
  obtain ⟨buffer, middle⟩ := found
  dsimp only at core ⊢
  have counted := loads_only_same p start pages state.ftl middle (congrArg Core.maptbl core) (congrArg Core.l2p core) loads
  split
  · refine ⟨counted.table, fun la gran held => (counted.entries la gran held).imp_right ?_⟩
    rintro ⟨other, member, loaded⟩
    exact ⟨other, List.mem_append_left _ member, loaded⟩
  · have looked := lookup_l2p_loads p start pages
      { state with ftl := middle, wbReadPgs := state.wbReadPgs + middle.gcAggLpns.count lpn } lpn counted
    generalize lookupL2p p _ lpn = after at looked
    dsimp only
    split
    · exact looked
    · exact loads_only_same p start _ after.ftl _ rfl rfl looked

theorem read_pages_loads (start : ZmsFtl) (slpn : Nat) (lpns pages : List Nat) (state : ReadState)
    (loads : LoadsOnly p start pages state.ftl) : LoadsOnly p start (pages ++ lpns) (lpns.foldl (readPage p slpn) state).ftl := by
  induction lpns generalizing pages state with
  | nil =>
      rw [List.append_nil]
      exact loads
  | cons lpn rest ih =>
      have next := ih (pages ++ [lpn]) (readPage p slpn state lpn) (read_page_loads p start pages slpn state lpn loads)
      rw [List.append_assoc] at next
      exact next

theorem read_up_to_loads (ftl : ZmsFtl) (req : Request) (cmd : RwCommand) (place : Nat) :
    LoadsOnly p ftl ((readLpns cmd).take place) (readUpTo p ftl req cmd place).ftl :=
  read_pages_loads p ftl (lbaToLpn cmd.slba) ((readLpns cmd).take place) [] _ ⟨rfl, fun _ _ held => .inl held⟩

variable (limit : Nat → Nat) (sharer : Sharer p limit)

include sharer in
theorem units_reach_sound (start : ZmsFtl) (pages : List Nat) (slpn : Nat) (state : ReadState) (lpn : Nat)
    (rep : CacheRep limit state.ftl.l2p) (loads : LoadsOnly p start pages state.ftl) (reach : UnitsReach p start pages lpn)
    (hit : countsHit p slpn state lpn) : Reached p state.ftl.l2p lpn := by
  obtain ⟨_, unit, tried, gran, held⟩ := (counts_hit_held p limit sharer slpn state lpn rep).mp hit
  exact ⟨_, gran, held, granularity_start_le p lpn unit, reach unit tried gran (loads.entries _ gran held)⟩

end Loading

section Units

variable (p : Params)

theorem whole_unit_start (lpn : Nat) (gran : MapType) (some : 0 < getPagesPerGranularity p gran)
    (whole : getPagesPerGranularity p gran ∣ zoneLpns p) :
    getGranularityStartLpn p lpn gran = lpn / getPagesPerGranularity p gran * getPagesPerGranularity p gran := by
  have zone := zone_start_le p lpn
  obtain ⟨units, size⟩ := whole
  have base : zoneToSlpn p (lpnToZone p lpn) = getPagesPerGranularity p gran * (lpnToZone p lpn * units) := by
    unfold zoneToSlpn
    rw [size]
    ring
  unfold getGranularityStartLpn
  dsimp only
  rw [if_neg (by omega)]
  rw [base] at zone ⊢
  rw [Nat.sub_mul_div, Nat.mul_comm (getPagesPerGranularity p gran), ← Nat.add_mul, Nat.sub_add_cancel]
  rw [Nat.mul_comm] at zone
  exact (Nat.le_div_iff_mul_le some).mpr zone

theorem reached_unit_reached (cache : L2pCache) (lpn : Nat) (some : 0 < zoneLpns p)
    (whole : ∀ gran, getPagesPerGranularity p gran ∣ zoneLpns p)
    (starts : ∀ la gran, EntryFor cache p.zpp.nsid la gran → UnitStart p la gran) :
    Reached p cache lpn ↔ UnitReached p cache lpn := by
  constructor
  · rintro ⟨slpn, gran, held, lower, upper⟩
    have size := Nat.pos_of_dvd_of_pos (whole gran) some
    obtain ⟨other, begins⟩ := starts slpn gran held
    have here : getGranularityStartLpn p lpn gran = slpn := by
      rw [whole_unit_start p other gran size (whole gran)] at begins
      rw [whole_unit_start p lpn gran size (whole gran), ← begins]
      have same : lpn / getPagesPerGranularity p gran = other / getPagesPerGranularity p gran := by
        rw [← begins] at lower upper
        exact Nat.div_eq_of_lt_le lower (by rw [Nat.succ_mul]; exact upper)
      rw [same]
    exact ⟨gran, by cases gran <;> decide, gran, by rw [here]; exact held, by rw [here]; exact upper⟩
  · rintro ⟨unit, _, gran, held, upper⟩
    exact ⟨_, gran, held, granularity_start_le p lpn unit, upper⟩

end Units

section Runs

variable (config : DualConfig)

-- Every entry of the shared cache is for the first page of a unit of its owner.
structure StartsCached (dual : DualFtl) : Prop where
  rep : ∀ loc, CacheRep (cacheLimit config) (dual loc).l2p
  shares : ∀ first second, (dual first).l2p = (dual second).l2p
  starts : ∀ loc lpn gran, EntryFor (dual loc).l2p (dualParams config loc).zpp.nsid lpn gran → UnitStart (dualParams config loc) lpn gran

theorem starts_cached_kept : TransitionSystem.Invariant (dualSystem config) anyEvent (StartsCached config) where
  starts := by
    rintro dual ⟨clock, rfl⟩
    refine ⟨fun _ => init_rep (cacheLimit config), fun _ _ => rfl, ?_⟩
    rintro loc lpn gran ⟨slot, index, ⟨lower, upper⟩, _⟩
    have empty : index < (0 : Nat) := upper
    omega
  keeps := by
    intro dual next event kept _ taken
    cases taken with
    | run loc event after ran =>
        obtain ⟨rep, made⟩ := calls_starts _ _ (dual_sharer config loc) (dual loc) after (step_calls _ _ _ _ ran) (kept.rep loc)
        have cache := fun other => (ran_on_shares dual loc other after).l2p
        refine ⟨?_, ?_, ?_⟩
        · intro other
          rw [cache other]
          exact rep
        · intro first second
          rw [cache first, cache second]
        · intro other lpn gran held
          rw [cache other] at held
          rcases made _ lpn gran held with ⟨own, starts⟩ | older
          · rw [dual_nsids config other loc own]
            exact starts
          · rw [kept.shares loc other] at older
            exact kept.starts other lpn gran older

theorem dual_zone_lpns (loc : Loc) : zoneLpns (dualParams config loc) = (dualParams config loc).zpp.pgsPerZone := rfl

theorem dual_sub_zone_whole (loc : Loc) : (dualParams config loc).zpp.pslcPgsPerLine ∣ zoneLpns (dualParams config loc) := by
  rw [dual_zone_lpns, dual_pgs_per_zone]
  change (ssdInitParams config).blksPerLine * (ssdInitParams config).pslcPgsPerBlk ∣ mediaPgsPerLine (ssdInitParams config) loc
  cases loc with
  | pslc => exact Nat.dvd_refl _
  | normal =>
      change _ ∣ (ssdInitParams config).blksPerLine * (ssdInitParams config).pgsPerBlk
      refine Nat.mul_dvd_mul_left _ ?_
      rw [config_pslc_pgs_per_blk, config_pgs_per_blk]
      exact ⟨config.cellMode, by ring⟩

theorem dual_units_whole (loc : Loc) (chunks : (dualParams config loc).zpp.pgsPerChunk ∣ (dualParams config loc).zpp.pgsPerZone)
    (gran : MapType) : getPagesPerGranularity (dualParams config loc) gran ∣ zoneLpns (dualParams config loc) := by
  cases gran with
  | pageMap => exact Nat.one_dvd _
  | chunkMap => exact chunks
  | subZoneMap => exact dual_sub_zone_whole config loc
  | zoneMap => exact Nat.dvd_refl _

end Runs

-- Two pages of a zone are written, and a page is read on its own afterwards.
def readOf (slba : Nat) : RwCommand := ⟨false, slba, 7, false⟩

def readHits (p : Params) (ftl : ZmsFtl) (cmd : RwCommand) : Option Nat :=
  match zonedRead p ftl ⟨0, 0⟩ cmd with
  | .ok (_, after) => some (after.stats.l2pHits - ftl.stats.l2pHits)
  | .error _ => none

theorem two_pages_cached : ∃ dual, DualReachable sampleConfig anyEvent dual ∧
    EntryFor (dual .pslc).l2p 0 0 .pageMap ∧
      countsHit (dualParams sampleConfig .pslc) 0 (readUpTo (dualParams sampleConfig .pslc) (dual .pslc) ⟨0, 0⟩ (readOf 0) 0) 0 ∧
      countsHit (dualParams sampleConfig .pslc) 2 (readUpTo (dualParams sampleConfig .pslc) (dual .pslc) ⟨0, 0⟩ (readOf 16) 0) 2 ∧
      readHits (dualParams sampleConfig .pslc) (dual .pslc) (readOf 16) = some 1 ∧
      ¬Reached (dualParams sampleConfig .pslc) (dual .pslc).l2p 2 := by
  obtain ⟨dual, reached, checked⟩ := dual_run_check sampleConfig [(.pslc, writeEvent 0 16)] (fun _ => 0)
    (fun dual : DualFtl => decide ((dual .pslc).l2p.idx 0 0 = 0 ∧ (dual .pslc).l2p.idx 0 1 = 0 ∧ (dual .pslc).l2p.idx 0 2 = -1) &&
      decide ((dual .pslc).l2p.slotLen 0 = 1 ∧ ((dual .pslc).l2p.mapping 0 0).nsid = 0 ∧ ((dual .pslc).l2p.mapping 0 0).lpn = some 0) &&
      decide (((dual .pslc).l2p.mapping 0 0).granularity = .pageMap ∧ ((dual .pslc).l2p.mapping 1 0).granularity = .pageMap) &&
      [0, 2].all fun lpn => decide ((readPage (dualParams sampleConfig .pslc) lpn
          (readUpTo (dualParams sampleConfig .pslc) (dual .pslc) ⟨0, 0⟩ (readOf (lpn * 8)) 0) lpn).ftl.stats.l2pHits =
        (readUpTo (dualParams sampleConfig .pslc) (dual .pslc) ⟨0, 0⟩ (readOf (lpn * 8)) 0).ftl.stats.l2pHits + 1 ∧
          readHits (dualParams sampleConfig .pslc) (dual .pslc) (readOf (lpn * 8)) = some 1)) (by decide +kernel)
  simp only [Bool.and_eq_true, decide_eq_true_eq, List.all_cons, List.all_nil, Bool.and_true] at checked
  obtain ⟨⟨⟨⟨first, second, third⟩, length, nsid, lpn⟩, coarse, also⟩, ⟨hit, _⟩, miss, read⟩ := checked
  refine ⟨dual, reached, ⟨0, 0, ⟨Int.le_refl 0, by rw [length]; decide⟩, nsid, lpn, coarse⟩, hit, miss, read, ?_⟩
  have rep := TransitionSystem.reach_invariant _ _ _ (dual_rep_kept sampleConfig) dual reached .pslc
  rintro ⟨slpn, gran, ⟨slot, index, used, own, holds, stored⟩, lower, upper⟩
  obtain ⟨hash, back, present⟩ := entry_indexed _ (dual .pslc).l2p rep 0 slpn slot index used own holds
  have places : slpn = 0 ∨ slpn = 1 ∨ slpn = 2 := by omega
  rcases places with rfl | rfl | rfl
  · rw [first] at back
    have entry : ((dual .pslc).l2p.mapping (0 % l2pSlots) 0).granularity = .pageMap := coarse
    rw [hash, ← back, entry] at stored
    subst stored
    exact absurd upper (by decide)
  · rw [second] at back
    have entry : ((dual .pslc).l2p.mapping (1 % l2pSlots) 0).granularity = .pageMap := also
    rw [hash, ← back, entry] at stored
    subst stored
    exact absurd upper (by decide)
  · exact present (back.symm.trans third)

end ConZone
