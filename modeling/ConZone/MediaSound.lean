import ConZone.LineHomes
import ConZone.SlcMaps

set_option autoImplicit false

namespace ConZone

open Tally

-- A dual namespace of one plane in each LUN, all of one kind of cell, whose
-- page numbers name its pages.
structure Regular (p : Params) (loc : Loc) : Prop where
  medium : Medium p
  rows : RowGeometry p.spp
  sizes : UnitSizes p
  erased : ∀ page, OwnedPage p page → page.pg < p.spp.pgsPerBlk
  flat : p.spp.plsPerLun = 1
  location : ∀ page, OwnedPage p page → getPageLocation p page = loc
  numbering : FaithfulNumbering p
  few : (lineRefs p).length < 2 ^ 32
  dual : zmsIsDualNs p.zpp.nsType = true

def OnPage (p : Params) (ftl : ZmsFtl) (lpn : Nat) (page : Page) : Prop :=
  lpn < p.zpp.ttLpns ∧ barePpa (ftl.maptbl lpn) = .mapped page .pageMap

theorem on_page_entry (p : Params) (ftl : ZmsFtl) (lpn : Nat) (page : Page) (there : OnPage p ftl lpn page) :
    ∃ map, getMaptblEnt p ftl lpn = .mapped page map := by
  obtain ⟨inside, bare⟩ := there
  unfold getMaptblEnt
  rw [if_pos inside]
  cases held : ftl.maptbl lpn with
  | mapped found map =>
      rw [held] at bare
      exact ⟨map, by rw [(Ppa.mapped.inj bare).1]⟩
  | unmapped =>
      rw [held] at bare
      cases bare
  | rsv =>
      rw [held] at bare
      cases bare

-- prog is how many pages of each line are programmed: the first ones on the
-- walk through the line.
structure PagesSound (p : Params) (ftl : ZmsFtl) (prog : LineRef → Nat) : Prop where
  blank : ∀ page, OwnedPage p page → prog (getLine p page) ≤ placeIn p page → pageStatus ftl page = .free
  used : ∀ page, OwnedPage p page → placeIn p page < prog (getLine p page) → pageStatus ftl page ≠ .free
  valid : ∀ page, OwnedPage p page → (pageStatus ftl page = .valid ↔ ∃ lpn, OnPage p ftl lpn page)
  named : ∀ lpn page, OnPage p ftl lpn page → OwnedPage p page ∧ getRmapEnt p ftl page = some lpn

structure CountsSound (p : Params) (ftl : ZmsFtl) : Prop where
  vpc : ∀ ref ∈ lineRefs p, (ftl.lm.lines ref).vpc = census (pagesIn p ref) (pageStatus ftl) .valid
  ipc : ∀ ref ∈ lineRefs p, (ftl.lm.lines ref).ipc = census (pagesIn p ref) (pageStatus ftl) .invalid
  blkVpc : ∀ block, OwnedBlock p block → (ftl.nand block).vpc = census (pagesOf p block) (pageStatus ftl) .valid
  blkIpc : ∀ block, OwnedBlock p block → (ftl.nand block).ipc = census (pagesOf p block) (pageStatus ftl) .invalid

-- How a line's pages are spent goes with where the line is kept. lead is how
-- far the programming of its line is ahead of a write pointer.
structure HomesSound (p : Params) (loc : Loc) (ftl : ZmsFtl) (home : LineRef → Home) (prog : LineRef → Nat) (lead : WpName → Nat) : Prop where
  housed : ∃ free full, Housed p loc ftl.lm home free full
  pointer : ∀ name ref, home ref = .cur name ↔ (ftl.wps name).curline = some ref
  loc : ∀ name ref, (ftl.wps name).curline = some ref → (ftl.wps name).loc = loc
  stands : ∀ name ref, home ref = .cur name → OwnedPage p (wpPage (ftl.wps name)) ∧ getLine p (wpPage (ftl.wps name)) = ref ∧
    (prog ref : Int) + (ftl.lm.lines ref).rpc = placeIn p (wpPage (ftl.wps name)) + lead name
  empty : ∀ ref, home ref = .free → prog ref = 0 ∧ (ftl.lm.lines ref).rpc = 0
  spent : ∀ ref, home ref = .full ∨ home ref = .victim ∨ home ref = .out → (prog ref : Int) + (ftl.lm.lines ref).rpc = pgsPerLineOf p ref
  clean : ∀ ref, home ref = .full → (ftl.lm.lines ref).ipc = 0 ∧ 0 < prog ref
  dirty : ∀ ref, home ref = .victim ∨ home ref = .out → 0 < (ftl.lm.lines ref).ipc
  reserved : ∀ ref ∈ lineRefs p, 0 ≤ (ftl.lm.lines ref).rpc ∧ ((ftl.lm.lines ref).ipc = 0 ∨ (ftl.lm.lines ref).rpc = 0)
  unlinked : ∀ ref ∈ lineRefs p, (ftl.lm.lines ref).rsvNextline = none

structure MediaSound (p : Params) (loc : Loc) (ftl : ZmsFtl) (home : LineRef → Home) (prog : LineRef → Nat) (lead : WpName → Nat) : Prop where
  pages : PagesSound p ftl prog
  counts : CountsSound p ftl
  homes : HomesSound p loc ftl home prog lead

structure SamePages (before after : ZmsFtl) : Prop where
  maps : SameMaps before after
  nand : after.nand = before.nand
  tallies : SameTallies before after

theorem same_pages_refl (ftl : ZmsFtl) : SamePages ftl ftl := ⟨same_maps_refl ftl, rfl, fun _ => rfl⟩

theorem same_pages_trans (first second third : ZmsFtl) (left : SamePages first second) (right : SamePages second third) :
    SamePages first third :=
  ⟨same_maps_trans _ _ _ left.maps right.maps, right.nand.trans left.nand, fun ref => (right.tallies ref).trans (left.tallies ref)⟩

section Frame

variable (p : Params) (loc : Loc) (before after : ZmsFtl)

theorem status_congr (nand : after.nand = before.nand) : pageStatus after = pageStatus before := by
  funext page
  unfold pageStatus
  rw [nand]

theorem on_page_congr (table : ∀ lpn, barePpa (after.maptbl lpn) = barePpa (before.maptbl lpn)) (lpn : Nat) (page : Page) :
    OnPage p after lpn page ↔ OnPage p before lpn page := by
  unfold OnPage
  rw [table]

theorem pages_congr (status : pageStatus after = pageStatus before) (onPage : ∀ lpn page, OnPage p after lpn page ↔ OnPage p before lpn page)
    (rmap : after.rmap = before.rmap) (prog : LineRef → Nat) (sound : PagesSound p before prog) : PagesSound p after prog := by
  refine ⟨?_, ?_, ?_, ?_⟩
  · rw [status]
    exact sound.blank
  · rw [status]
    exact sound.used
  · intro page owned
    rw [status, sound.valid page owned]
    exact exists_congr fun lpn => (onPage lpn page).symm
  · intro lpn page there
    obtain ⟨owned, named⟩ := sound.named lpn page ((onPage lpn page).mp there)
    refine ⟨owned, ?_⟩
    unfold getRmapEnt
    rw [rmap]
    exact named

theorem counts_congr (nand : after.nand = before.nand) (tallies : SameTallies before after) (sound : CountsSound p before) :
    CountsSound p after := by
  have status := status_congr before after nand
  refine ⟨?_, ?_, ?_, ?_⟩
  · intro ref listed
    have vpc : (after.lm.lines ref).vpc = (before.lm.lines ref).vpc := congrArg Prod.fst (tallies ref)
    rw [status, vpc]
    exact sound.vpc ref listed
  · intro ref listed
    have ipc : (after.lm.lines ref).ipc = (before.lm.lines ref).ipc := congrArg (fun counts => counts.2.1) (tallies ref)
    rw [status, ipc]
    exact sound.ipc ref listed
  · rw [status, nand]
    exact sound.blkVpc
  · rw [status, nand]
    exact sound.blkIpc

theorem same_pages_sound (same : SamePages before after) (prog : LineRef → Nat) (pages : PagesSound p before prog) (counts : CountsSound p before) :
    PagesSound p after prog ∧ CountsSound p after :=
  ⟨pages_congr p before after (status_congr before after same.nand) (on_page_congr p before after same.maps.table) same.maps.rmap prog pages,
    counts_congr p before after same.nand same.tallies counts⟩

theorem homes_congr (lm : after.lm = before.lm) (wps : after.wps = before.wps) (home : LineRef → Home) (prog : LineRef → Nat)
    (lead : WpName → Nat) (sound : HomesSound p loc before home prog lead) : HomesSound p loc after home prog lead := by
  constructor <;> first | rw [lm, wps] | rw [lm] | rw [wps]
  · exact sound.housed
  · exact sound.pointer
  · exact sound.loc
  · exact sound.stands
  · exact sound.empty
  · exact sound.spent
  · exact sound.clean
  · exact sound.dirty
  · exact sound.reserved
  · exact sound.unlinked

theorem media_kept (media : mediaSide after = mediaSide before) (home : LineRef → Home) (prog : LineRef → Nat) (lead : WpName → Nat) (sound : MediaSound p loc before home prog lead) :
    MediaSound p loc after home prog lead := by
  have nand : after.nand = before.nand := congrArg MediaSide.nand media
  have lm : after.lm = before.lm := congrArg MediaSide.lm media
  have same : SamePages before after := by
    refine ⟨media_maps before after media, nand, fun ref => ?_⟩
    rw [lm]
  obtain ⟨pages, counts⟩ := same_pages_sound p before after same prog sound.pages sound.counts
  exact ⟨pages, counts, homes_congr p loc before after lm (congrArg MediaSide.wps media) home prog lead sound.homes⟩

end Frame

section Lines

variable (p : Params) (loc : Loc) (before after : ZmsFtl) (home home' : LineRef → Home) (prog prog' : LineRef → Nat)
variable (lead lead' : WpName → Nat)

-- What a sound home says of its line.
structure Spending (p : Params) (ref : LineRef) (home : Home) (line : Line) (prog : Nat) : Prop where
  empty : home = .free → prog = 0 ∧ line.rpc = 0
  spent : home = .full ∨ home = .victim ∨ home = .out → (prog : Int) + line.rpc = pgsPerLineOf p ref
  clean : home = .full → line.ipc = 0 ∧ 0 < prog
  dirty : home = .victim ∨ home = .out → 0 < line.ipc
  reserved : ref ∈ lineRefs p → 0 ≤ line.rpc ∧ (line.ipc = 0 ∨ line.rpc = 0)
  unlinked : ref ∈ lineRefs p → line.rsvNextline = none

-- What sound homes say of the write pointers.
structure Pointing (p : Params) (loc : Loc) (ftl : ZmsFtl) (home : LineRef → Home) (prog : LineRef → Nat) (lead : WpName → Nat) : Prop where
  pointer : ∀ name ref, home ref = .cur name ↔ (ftl.wps name).curline = some ref
  loc : ∀ name ref, (ftl.wps name).curline = some ref → (ftl.wps name).loc = loc
  stands : ∀ name ref, home ref = .cur name → OwnedPage p (wpPage (ftl.wps name)) ∧ getLine p (wpPage (ftl.wps name)) = ref ∧
    (prog ref : Int) + (ftl.lm.lines ref).rpc = placeIn p (wpPage (ftl.wps name)) + lead name

theorem homes_of_parts (housed : ∃ free full, Housed p loc after.lm home free full) (pointing : Pointing p loc after home prog lead)
    (spending : ∀ ref, Spending p ref (home ref) (after.lm.lines ref) (prog ref)) : HomesSound p loc after home prog lead where
  housed := housed
  pointer := pointing.pointer
  loc := pointing.loc
  stands := pointing.stands
  empty := fun ref => (spending ref).empty
  spent := fun ref => (spending ref).spent
  clean := fun ref => (spending ref).clean
  dirty := fun ref => (spending ref).dirty
  reserved := fun ref => (spending ref).reserved
  unlinked := fun ref => (spending ref).unlinked

theorem spending_counts (ref : LineRef) (value : Home) (line next : Line) (pages : Nat) (same : (tally next).2 = (tally line).2)
    (spending : Spending p ref value line pages) : Spending p ref value next pages := by
  obtain ⟨ipc, rest⟩ := Prod.mk.inj same
  obtain ⟨rpc, linked⟩ := Prod.mk.inj rest
  constructor <;> simp only [ipc, rpc, linked]
  · exact spending.empty
  · exact spending.spent
  · exact spending.clean
  · exact spending.dirty
  · exact spending.reserved
  · exact spending.unlinked

theorem spending_current (name : WpName) (ref : LineRef) (line : Line) (pages : Nat)
    (reserved : ref ∈ lineRefs p → 0 ≤ line.rpc ∧ (line.ipc = 0 ∨ line.rpc = 0)) (unlinked : ref ∈ lineRefs p → line.rsvNextline = none) :
    Spending p ref (.cur name) line pages where
  empty := nofun
  spent := by
    rintro (full | victim | out)
    · cases full
    · cases victim
    · cases out
  clean := nofun
  dirty := by
    rintro (victim | out)
    · cases victim
    · cases out
  reserved := reserved
  unlinked := unlinked

variable (sound : HomesSound p loc before home prog lead)

include sound in
theorem homes_spending (ref : LineRef) : Spending p ref (home ref) (before.lm.lines ref) (prog ref) :=
  ⟨sound.empty ref, sound.spent ref, sound.clean ref, sound.dirty ref, sound.reserved ref, sound.unlinked ref⟩

include sound in
-- Only one line changes.
theorem spending_changed (cur : LineRef) (homes : ∀ ref, ref ≠ cur → home' ref = home ref) (progs : ∀ ref, ref ≠ cur → prog' ref = prog ref)
    (counts : ∀ ref, ref ≠ cur → (tally (after.lm.lines ref)).2 = (tally (before.lm.lines ref)).2)
    (here : Spending p cur (home' cur) (after.lm.lines cur) (prog' cur)) (ref : LineRef) :
    Spending p ref (home' ref) (after.lm.lines ref) (prog' ref) := by
  by_cases same : ref = cur
  · rw [same]
    exact here
  · rw [homes ref same, progs ref same]
    exact spending_counts p ref _ _ _ _ (counts ref same) (homes_spending p loc before home prog lead sound ref)

include sound in
-- No pointer moves, nor changes a line that a pointer is on.
theorem pointing_kept (wps : after.wps = before.wps) (same : ∀ name ref, home' ref = .cur name ↔ home ref = .cur name)
    (spent : ∀ name ref, home ref = .cur name → prog' ref = prog ref ∧ (after.lm.lines ref).rpc = (before.lm.lines ref).rpc) :
    Pointing p loc after home' prog' lead := by
  refine ⟨fun name ref => ?_, ?_, fun name ref there => ?_⟩
  · rw [same, wps]
    exact sound.pointer name ref
  · rw [wps]
    exact sound.loc
  · have before := (same name ref).mp there
    obtain ⟨progs, rpc⟩ := spent name ref before
    rw [wps, progs, rpc]
    exact sound.stands name ref before

include sound in
theorem pointed_alone (name : WpName) (ref other : LineRef) (first : home ref = .cur name) (second : home other = .cur name) : other = ref := by
  have here := (sound.pointer name ref).mp first
  rw [(sound.pointer name other).mp second] at here
  exact Option.some.inj here

include sound in
-- One pointer moves on within its line.
theorem pointing_moved (name : WpName) (cur : LineRef) (here : home cur = .cur name)
    (others : ∀ other, other ≠ name → after.wps other = before.wps other ∧ lead' other = lead other)
    (curline : (after.wps name).curline = (before.wps name).curline) (stays : (after.wps name).loc = (before.wps name).loc)
    (spent : ∀ ref, ref ≠ cur → prog' ref = prog ref ∧ (after.lm.lines ref).rpc = (before.lm.lines ref).rpc)
    (owned : OwnedPage p (wpPage (after.wps name))) (line : getLine p (wpPage (after.wps name)) = cur)
    (place : (prog' cur : Int) + (after.lm.lines cur).rpc = placeIn p (wpPage (after.wps name)) + lead' name) :
    Pointing p loc after home prog' lead' := by
  have curlines : ∀ other, (after.wps other).curline = (before.wps other).curline ∧ (after.wps other).loc = (before.wps other).loc := by
    intro other
    by_cases same : other = name
    · rw [same]
      exact ⟨curline, stays⟩
    · rw [(others other same).1]
      exact ⟨rfl, rfl⟩
  refine ⟨fun other ref => ?_, fun other ref pointed => ?_, fun other ref there => ?_⟩
  · rw [(curlines other).1]
    exact sound.pointer other ref
  · rw [(curlines other).1] at pointed
    rw [(curlines other).2]
    exact sound.loc other ref pointed
  · by_cases same : other = name
    · rw [same] at there ⊢
      rw [pointed_alone p loc before home prog lead sound name cur ref here there]
      exact ⟨owned, line, place⟩
    · have apart : ref ≠ cur := by
        rintro rfl
        rw [here] at there
        exact same (Home.cur.inj there).symm
      obtain ⟨pointer, leads⟩ := others other same
      obtain ⟨progs, rpc⟩ := spent ref apart
      rw [pointer, leads, progs, rpc]
      exact sound.stands other ref there

end Lines

section Places

variable (p : Params) (loc : Loc) (regular : Regular p loc)

include regular in
theorem first_page_regular (ref : LineRef) (listed : ref ∈ lineRefs p) :
    OwnedPage p (getFirstPage p ref) ∧ getLine p (getFirstPage p ref) = ref ∧ placeIn p (getFirstPage p ref) = 0 := by
  have owned := first_page_owned p regular.medium ref (line_refs_known p ref listed)
  exact ⟨owned, first_page_in_line p regular.rows regular.medium regular.flat ref listed,
    first_page_place p regular.rows ref listed owned⟩

include regular in
theorem line_size_positive (ref : LineRef) (listed : ref ∈ lineRefs p) : 0 < pgsPerLineOf p ref := by
  obtain ⟨owned, line, _⟩ := first_page_regular p loc regular ref listed
  have bound := place_in_line p regular.rows _ owned
  rw [← regular.sizes.size _ owned, line] at bound
  omega

include regular in
theorem owned_place (page : Page) (owned : OwnedPage p page) : placeIn p page < pgsPerLineOf p (getLine p page) := by
  rw [regular.sizes.size page owned]
  exact place_in_line p regular.rows page owned

include regular in
theorem owned_listed (page : Page) (owned : OwnedPage p page) : getLine p page ∈ lineRefs p := by
  have known := get_line_known p regular.medium page owned
  have line := owned_line p regular.rows page owned
  split at line
  · rename_i split
    rw [line] at known ⊢
    refine (mem_line_refs p _).mpr ⟨known, split, ?_⟩
    have geometry := regular.medium.geometry
    have row := Nat.mod_lt page.block.plane.lun geometry.rows
    have die := Radix.pair_bound _ _ _ _ row owned.block.ch
    unfold slotOf
    rw [geometry.blocks]
    exact Radix.pair_bound _ _ _ _ die owned.block.pl
  · rename_i whole
    rw [line] at known ⊢
    exact (mem_line_refs p _).mpr ⟨known, Nat.le_of_not_lt whole⟩

include regular in
theorem next_in_line (page : Page) (owned : OwnedPage p page) :
    match lineStep p page page with
    | some next => OwnedPage p next ∧ getLine p next = getLine p page ∧ placeIn p next = placeIn p page + 1
    | none => placeIn p page + 1 = pgsPerLineOf p (getLine p page) := by
  cases step : lineStep p page page with
  | some next =>
      exact ⟨step_owned p regular.medium page next owned step, step_line p regular.rows page next owned step,
        step_place p regular.rows page next owned step⟩
  | none =>
      have bound := place_in_line p regular.rows page owned
      rw [regular.sizes.size page owned]
      by_contra short
      obtain ⟨there, walked, _⟩ := walk_in_line p regular.rows page owned 1 (by omega)
      simp [Walk.advance, step] at walked

variable (ftl : ZmsFtl) (prog : LineRef → Nat)

include regular in
theorem programmed_counts (sound : PagesSound p ftl prog) (ref : LineRef) (listed : ref ∈ lineRefs p) (bound : prog ref ≤ pgsPerLineOf p ref) :
    census (pagesIn p ref) (pageStatus ftl) .valid + census (pagesIn p ref) (pageStatus ftl) .invalid = prog ref := by
  have below := pages_below_card p regular.rows regular.medium regular.sizes regular.flat ref listed (prog ref) bound
  rw [← below]
  unfold census
  rw [← Finset.card_union_of_disjoint]
  · congr 1
    rw [← Finset.filter_or]
    apply Finset.filter_congr
    intro page member
    obtain ⟨owned, line⟩ := (mem_pages_in p ref page).mp member
    constructor
    · intro programmed
      by_contra outside
      have free := sound.blank page owned (by rw [line]; omega)
      rw [free] at programmed
      rcases programmed with valid | invalid
      · cases valid
      · cases invalid
    · intro inside
      have programmed := sound.used page owned (by rw [line]; exact inside)
      cases status : pageStatus ftl page with
      | free => exact absurd status programmed
      | valid => exact .inl rfl
      | invalid => exact .inr rfl
  · apply Finset.disjoint_filter.mpr
    intro page _ valid invalid
    rw [valid] at invalid
    cases invalid

end Places

end ConZone
