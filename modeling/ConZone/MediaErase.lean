import ConZone.MediaMoves

set_option autoImplicit false

namespace ConZone

open Tally

section Freeing

variable (p : Params) (ftl : ZmsFtl) (ref : LineRef) (ioType : IoType)

theorem detach_tally (lm : LineMgmt) (loc : Loc) (other : LineRef) :
    tally ((detachLine p lm loc ref).lines other) = tally (lm.lines other) := by
  unfold detachLine
  split
  · split
    · rfl
    · dsimp only
      by_cases same : other = ref
      · rw [same, Function.update_self]
        rfl
      · rw [Function.update_of_ne same]
        rfl
  · rfl

def freedLm (lm : LineMgmt) (loc : Loc) : LineMgmt :=
  addFree (clearLine (if ioType ≠ .gcIo then detachLine p lm loc ref else lm) ref) loc ref

theorem freed_tally (lm : LineMgmt) (loc : Loc) (other : LineRef) :
    tally ((freedLm p ref ioType lm loc).lines other) = if other = ref then (0, 0, 0, none) else tally (lm.lines other) := by
  unfold freedLm addFree clearLine
  dsimp only
  by_cases same : other = ref
  · rw [same, Function.update_self, if_pos rfl]
    rfl
  · rw [Function.update_of_ne same, if_neg same]
    split
    · exact detach_tally p ref lm loc other
    · rfl

theorem mark_line_free_idle (idle : isActiveLine ftl ref = false) :
    (markLineFree p ftl ref ioType).wps = ftl.wps ∧
      ∃ lines, (markLineFree p ftl ref ioType).lm = { freedLm p ref ioType ftl.lm (getLineLocation p ref) with lines := lines } ∧
        ∀ other, (lines other).pos = ((freedLm p ref ioType ftl.lm (getLineLocation p ref)).lines other).pos ∧
          tally (lines other) = tally ((freedLm p ref ioType ftl.lm (getLineLocation p ref)).lines other) := by
  have left : (if ioType ≠ .gcIo ∧ (!isActiveLine ftl ref) = true then detachLine p ftl.lm (getLineLocation p ref) ref else ftl.lm) =
      if ioType ≠ .gcIo then detachLine p ftl.lm (getLineLocation p ref) ref else ftl.lm := by
    rw [idle]
    simp
  have freed : addFree (clearLine (if ioType ≠ .gcIo then detachLine p ftl.lm (getLineLocation p ref) ref else ftl.lm) ref)
      (getLineLocation p ref) ref = freedLm p ref ioType ftl.lm (getLineLocation p ref) := rfl
  unfold markLineFree
  dsimp only
  rw [left, idle, Bool.not_false, if_pos rfl, freed]
  generalize freedLm p ref ioType ftl.lm (getLineLocation p ref) = lm
  by_cases moved : getLineLocation p ref = .pslc ∧ ioType ≠ .migrateIo ∧ true = true ∧ (lm.lines ref).midPos ≠ 0
  · rw [if_pos moved]
    refine ⟨rfl, _, rfl, fun other => ?_⟩
    by_cases same : other = ref
    · rw [same, Function.update_self]
      exact ⟨rfl, rfl⟩
    · rw [Function.update_of_ne same]
      exact ⟨rfl, rfl⟩
  · rw [if_neg moved]
    exact ⟨rfl, _, rfl, fun other => ⟨rfl, rfl⟩⟩

theorem erase_blocks_lm (blocks : List Block) :
    (blocks.foldl (eraseBlock p ioType) ftl).lm = ftl.lm ∧ (blocks.foldl (eraseBlock p ioType) ftl).wps = ftl.wps := by
  induction blocks generalizing ftl with
  | nil => exact ⟨rfl, rfl⟩
  | cons block rest ih =>
      have first : (eraseBlock p ioType ftl block).lm = ftl.lm ∧ (eraseBlock p ioType ftl block).wps = ftl.wps := by
        unfold eraseBlock
        dsimp only
        split
        · exact ⟨rfl, rfl⟩
        · exact ⟨rfl, rfl⟩
      obtain ⟨lm, wps⟩ := ih (eraseBlock p ioType ftl block)
      exact ⟨lm.trans first.1, wps.trans first.2⟩

theorem erase_line_idle (idle : isActiveLine ftl ref = false) :
    (eraseLine p ftl ref ioType).wps = ftl.wps ∧
      ∃ lines, (eraseLine p ftl ref ioType).lm = { freedLm p ref ioType ftl.lm (getLineLocation p ref) with lines := lines } ∧
        ∀ other, (lines other).pos = ((freedLm p ref ioType ftl.lm (getLineLocation p ref)).lines other).pos ∧
          tally (lines other) = tally ((freedLm p ref ioType ftl.lm (getLineLocation p ref)).lines other) := by
  obtain ⟨lm, wps⟩ := erase_blocks_lm p ftl ioType (erasedBlocks p ref)
  have still : isActiveLine ((erasedBlocks p ref).foldl (eraseBlock p ioType) ftl) ref = false := by
    unfold isActiveLine at idle ⊢
    rw [wps]
    exact idle
  have freed := mark_line_free_idle p _ ref ioType still
  rw [lm, wps] at freed
  exact freed

end Freeing

section Erasing

variable (p : Params) (loc : Loc) (regular : Regular p loc) (ftl : ZmsFtl)
variable (home : LineRef → Home) (prog : LineRef → Nat) (lead : WpName → Nat) (sound : MediaSound p loc ftl home prog lead)
variable (ref : LineRef) (ioType : IoType)

-- A line is freed after it was collected or, all its pages invalid, out of the
-- victim queue.
structure Freeable (ftl : ZmsFtl) (home : LineRef → Home) (ref : LineRef) (ioType : IoType) : Prop where
  place : home ref = .out ∧ ioType = .gcIo ∨ home ref = .victim ∧ ioType ≠ .gcIo
  dead : (ftl.lm.lines ref).vpc = 0

variable (freeable : Freeable ftl home ref ioType)

include freeable in
theorem freeable_apart : home ref ≠ .free ∧ home ref ≠ .full ∧ home ref ≠ .beyond ∧ ∀ name, home ref ≠ .cur name := by
  rcases freeable.place with ⟨here, _⟩ | ⟨here, _⟩
  · rw [here]
    exact ⟨nofun, nofun, nofun, nofun⟩
  · rw [here]
    exact ⟨nofun, nofun, nofun, nofun⟩

include sound freeable in
theorem freeable_listed : ref ∈ lineRefs p := by
  obtain ⟨_, _, housed⟩ := sound.homes.housed
  exact (housed.bound ref).mp (freeable_apart ftl home ref ioType freeable).2.2.1

include sound freeable in
theorem freeable_idle : isActiveLine ftl ref = false := by
  by_contra active
  obtain ⟨name, _, pointed⟩ := List.any_eq_true.mp (Bool.not_eq_false _ ▸ active)
  exact (freeable_apart ftl home ref ioType freeable).2.2.2 name ((sound.homes.pointer name ref).mpr (by simpa using pointed))

include regular in
theorem listed_location (listed : ref ∈ lineRefs p) : getLineLocation p ref = loc :=
  regular.location _ (first_page_regular p loc regular ref listed).1

include regular sound freeable in
theorem erase_housed : ∃ free full, Housed p loc (eraseLine p ftl ref ioType).lm (Function.update home ref .free) free full := by
  have listed := freeable_listed p loc ftl home prog lead sound ref ioType freeable
  obtain ⟨_, _, beyond, _⟩ := freeable_apart ftl home ref ioType freeable
  obtain ⟨_, lines, after, kept⟩ := erase_line_idle p ftl ref ioType (freeable_idle p loc ftl home prog lead sound ref ioType freeable)
  rw [listed_location p loc regular ref listed] at after kept
  obtain ⟨free, full, housed⟩ := sound.homes.housed
  have left : Housed p loc (if ioType ≠ .gcIo then detachLine p ftl.lm loc ref else ftl.lm) (Function.update home ref .out) free full := by
    rcases freeable.place with ⟨here, collected⟩ | ⟨here, invalid⟩
    · rw [if_neg (fun apart => apart collected), ← here, Function.update_eq_self]
      exact housed
    · rw [if_pos invalid]
      obtain ⟨first, below, _⟩ := housed.stored.queued.placed ref here
      have size := line_size_positive p loc regular ref listed
      have dead := freeable.dead
      have peeked : IndexedHeap.pqueuePeek (victimHeap ftl.lm loc) ≠ none := by
        intro none
        have nobody := (IndexedHeap.peek_none _ _ housed.stored.queued).mp none
        have member : ref ∈ {other | home other = .victim} := here
        change ref ∈ {other | home other = homeLabels.queue} at member
        rw [nobody] at member
        exact member
      have queued : (ftl.lm.lines ref).pos ≠ 0 := by
        change 1 ≤ (ftl.lm.lines ref).pos at first
        omega
      obtain ⟨holds, fewer, others⟩ := IndexedHeap.remove_holds (victimPri ftl.lm) (victimHeap ftl.lm loc) _ ref housed.stored.queued here
      unfold detachLine
      rw [if_pos (by omega), if_neg (not_or.mpr ⟨peeked, queued⟩)]
      exact leave_queue_housed p loc regular.few ftl.lm home free full ref _ housed here fewer holds others
  have cleared : Housed p loc (clearLine (if ioType ≠ .gcIo then detachLine p ftl.lm loc ref else ftl.lm) ref)
      (Function.update home ref .out) free full := by
    refine housed_lines p loc _ _ free full _ (fun other => ?_) left
    by_cases same : other = ref
    · rw [same, Function.update_self]
    · rw [Function.update_of_ne same]
  have freed := add_free_housed p loc regular.few _ _ free full ref cleared (by rw [Function.update_self]; exact out_outside)
    (by rw [Function.update_self]; decide)
  rw [Function.update_idem] at freed
  rw [after]
  exact ⟨_, _, housed_lines p loc _ _ _ _ lines (fun other => (kept other).1) freed⟩

include regular in
theorem erase_statuses (listed : ref ∈ lineRefs p) :
    (∀ page, OwnedPage p page → pageStatus (eraseLine p ftl ref ioType) page = if getLine p page = ref then .free else pageStatus ftl page) ∧
      ∀ block, OwnedBlock p block → ((eraseLine p ftl ref ioType).nand block).vpc =
          (if getLine p ⟨block, 0⟩ = ref then 0 else (ftl.nand block).vpc) ∧
        ((eraseLine p ftl ref ioType).nand block).ipc = if getLine p ⟨block, 0⟩ = ref then 0 else (ftl.nand block).ipc := by
  have covers : EraseCovers p ref := by
    cases ref with
    | line id => exact regular.flat
    | sub parent id =>
        have within := ((mem_line_refs p _).mp listed).2.2
        have geometry := regular.medium.geometry
        rw [geometry.blocks, regular.flat, Nat.mul_one] at within
        change id % lunsPerGroup p.spp * p.spp.plsPerLun + id / lunsPerGroup p.spp = id
        rw [geometry.group, regular.flat, Nat.mul_one, Nat.mod_eq_of_lt within, Nat.div_eq_of_lt within, Nat.add_zero]
  have restores := (erase_restores_iff_visits p ftl ref ioType).mpr
    ((erase_visits_iff p regular.medium.toWholeRows ref listed).mpr covers)
  constructor
  · intro page owned
    unfold pageStatus
    by_cases inside : getLine p page = ref
    · rw [if_pos inside]
      exact (restores.inside page.block ⟨owned.block, inside⟩).pages page.pg (regular.erased page owned)
    · rw [if_neg inside, restores.outside page.block fun belongs => inside belongs.2]
  · intro block owned
    by_cases inside : getLine p ⟨block, 0⟩ = ref
    · rw [if_pos inside, if_pos inside]
      have erased := restores.inside block ⟨owned, inside⟩
      exact ⟨erased.vpc, erased.ipc⟩
    · rw [if_neg inside, if_neg inside, restores.outside block fun belongs => inside belongs.2]
      exact ⟨rfl, rfl⟩

include regular sound freeable in
theorem erase_pages : PagesSound p (eraseLine p ftl ref ioType) (Function.update prog ref 0) := by
  have listed := freeable_listed p loc ftl home prog lead sound ref ioType freeable
  obtain ⟨statuses, _⟩ := erase_statuses p loc regular ftl ref ioType listed
  obtain ⟨pages, counts, _⟩ := sound
  have onPage := on_page_congr p ftl (eraseLine p ftl ref ioType) (erase_line_maps p ftl ref ioType).table
  have none : ∀ page, OwnedPage p page → getLine p page = ref → ¬∃ lpn, OnPage p ftl lpn page := by
    intro page owned inside held
    have valid := (pages.valid page owned).mpr held
    have some := census_positive (pagesIn p ref) (pageStatus ftl) page ((mem_pages_in p ref page).mpr ⟨owned, inside⟩)
    have counted := counts.vpc ref listed
    rw [valid] at some
    rw [freeable.dead] at counted
    omega
  refine ⟨?_, ?_, ?_, ?_⟩
  · intro page owned ahead
    rw [statuses page owned]
    by_cases inside : getLine p page = ref
    · rw [if_pos inside]
    · rw [if_neg inside]
      rw [Function.update_of_ne inside] at ahead
      exact pages.blank page owned ahead
  · intro page owned behind
    rw [statuses page owned]
    by_cases inside : getLine p page = ref
    · rw [inside, Function.update_self] at behind
      exact absurd behind (Nat.not_lt_zero _)
    · rw [if_neg inside]
      rw [Function.update_of_ne inside] at behind
      exact pages.used page owned behind
  · intro page owned
    rw [statuses page owned, exists_congr fun lpn => onPage lpn page]
    by_cases inside : getLine p page = ref
    · rw [if_pos inside]
      exact iff_of_false (by decide) (none page owned inside)
    · rw [if_neg inside]
      exact pages.valid page owned
  · intro lpn page there
    obtain ⟨owned, named⟩ := pages.named lpn page ((onPage lpn page).mp there)
    refine ⟨owned, ?_⟩
    unfold getRmapEnt
    rw [(erase_line_maps p ftl ref ioType).rmap]
    exact named

theorem erase_tally (idle : isActiveLine ftl ref = false) (other : LineRef) :
    tally ((eraseLine p ftl ref ioType).lm.lines other) = if other = ref then (0, 0, 0, none) else tally (ftl.lm.lines other) := by
  obtain ⟨_, lines, after, kept⟩ := erase_line_idle p ftl ref ioType idle
  rw [after]
  dsimp only
  rw [(kept other).2]
  exact freed_tally p ref ioType ftl.lm _ other

include regular sound freeable in
theorem erase_counts : CountsSound p (eraseLine p ftl ref ioType) := by
  have listed := freeable_listed p loc ftl home prog lead sound ref ioType freeable
  have tallies := erase_tally p ftl ref ioType (freeable_idle p loc ftl home prog lead sound ref ioType freeable)
  obtain ⟨statuses, blocks⟩ := erase_statuses p loc regular ftl ref ioType listed
  have counts := sound.counts
  have line : ∀ other (value : PageStatus), value ≠ .free → census (pagesIn p other) (pageStatus (eraseLine p ftl ref ioType)) value =
      if other = ref then 0 else census (pagesIn p other) (pageStatus ftl) value := by
    intro other value programmed
    by_cases same : other = ref
    · rw [if_pos same, census_none]
      · intro page member
        obtain ⟨owned, inside⟩ := (mem_pages_in p other page).mp member
        rw [statuses page owned, if_pos (inside.trans same)]
        exact programmed.symm
    · rw [if_neg same, census_congr]
      intro page member
      obtain ⟨owned, inside⟩ := (mem_pages_in p other page).mp member
      rw [statuses page owned, if_neg fun here => same (inside.symm.trans here)]
  have block : ∀ block (value : PageStatus), value ≠ .free → census (pagesOf p block) (pageStatus (eraseLine p ftl ref ioType)) value =
      if getLine p ⟨block, 0⟩ = ref then 0 else census (pagesOf p block) (pageStatus ftl) value := by
    intro block value programmed
    by_cases same : getLine p ⟨block, 0⟩ = ref
    · rw [if_pos same, census_none]
      · intro page member
        obtain ⟨owned, rfl⟩ := (mem_pages_of p block page).mp member
        rw [statuses page owned]
        change getLine p page = ref at same
        rw [if_pos same]
        exact programmed.symm
    · rw [if_neg same, census_congr]
      intro page member
      obtain ⟨owned, rfl⟩ := (mem_pages_of p block page).mp member
      rw [statuses page owned]
      exact if_neg same
  refine ⟨?_, ?_, ?_, ?_⟩
  · intro other known
    have vpc := congrArg Prod.fst (tallies other)
    rw [line other .valid (by decide)]
    by_cases same : other = ref
    · rw [if_pos same] at vpc ⊢
      exact vpc
    · rw [if_neg same] at vpc ⊢
      exact vpc.trans (counts.vpc other known)
  · intro other known
    have ipc := congrArg (fun counts => counts.2.1) (tallies other)
    rw [line other .invalid (by decide)]
    by_cases same : other = ref
    · rw [if_pos same] at ipc ⊢
      exact ipc
    · rw [if_neg same] at ipc ⊢
      exact ipc.trans (counts.ipc other known)
  · intro other owned
    rw [block other .valid (by decide), (blocks other owned).1]
    split
    · rfl
    · exact counts.blkVpc other owned
  · intro other owned
    rw [block other .invalid (by decide), (blocks other owned).2]
    split
    · rfl
    · exact counts.blkIpc other owned

include regular sound freeable in
theorem erase_homes : HomesSound p loc (eraseLine p ftl ref ioType) (Function.update home ref .free) (Function.update prog ref 0) lead := by
  have idle := freeable_idle p loc ftl home prog lead sound ref ioType freeable
  obtain ⟨_, _, _, notCur⟩ := freeable_apart ftl home ref ioType freeable
  have wps := (erase_line_idle p ftl ref ioType idle).1
  have housed := erase_housed p loc regular ftl home prog lead sound ref ioType freeable
  have tallies := erase_tally p ftl ref ioType idle
  have homes := sound.homes
  have others : ∀ other, other ≠ ref → tally ((eraseLine p ftl ref ioType).lm.lines other) = tally (ftl.lm.lines other) := fun other apart =>
    (tallies other).trans (if_neg apart)
  have here : tally ((eraseLine p ftl ref ioType).lm.lines ref) = (0, 0, 0, none) := (tallies ref).trans (if_pos rfl)
  obtain ⟨_, here⟩ := Prod.mk.inj here
  obtain ⟨ipc, here⟩ := Prod.mk.inj here
  obtain ⟨rpc, linked⟩ := Prod.mk.inj here
  refine homes_of_parts p loc _ _ _ lead housed ?_ ?_
  · refine pointing_kept p loc ftl _ home _ prog _ lead homes wps (fun name other => ?_) fun name other there => ?_
    · by_cases same : other = ref
      · rw [same, Function.update_self]
        exact iff_of_false nofun (notCur name)
      · rw [Function.update_of_ne same]
    · have apart : other ≠ ref := by
        rintro rfl
        exact notCur name there
      exact ⟨Function.update_of_ne apart _ _, congrArg (fun counts => counts.2.2.1) (others other apart)⟩
  · refine spending_changed p loc ftl _ home _ prog _ lead homes ref (fun other apart => Function.update_of_ne apart _ _)
      (fun other apart => Function.update_of_ne apart _ _) (fun other apart => congrArg Prod.snd (others other apart)) ?_
    rw [Function.update_self, Function.update_self]
    refine ⟨fun _ => ⟨rfl, rpc⟩, ?_, nofun, ?_, fun _ => ?_, fun _ => linked⟩
    · rintro (full | victim | out)
      · cases full
      · cases victim
      · cases out
    · rintro (victim | out)
      · cases victim
      · cases out
    · rw [ipc, rpc]
      exact ⟨Int.le_refl _, .inl rfl⟩

include regular sound freeable in
theorem erase_sound : MediaSound p loc (eraseLine p ftl ref ioType) (Function.update home ref .free) (Function.update prog ref 0) lead :=
  ⟨erase_pages p loc regular ftl home prog lead sound ref ioType freeable, erase_counts p loc regular ftl home prog lead sound ref ioType freeable,
    erase_homes p loc regular ftl home prog lead sound ref ioType freeable⟩

end Erasing

section Selecting

variable (p : Params) (loc : Loc) (regular : Regular p loc) (ftl next : ZmsFtl)
variable (home : LineRef → Home) (prog : LineRef → Nat) (lead : WpName → Nat) (sound : MediaSound p loc ftl home prog lead)
variable (force : Bool) (victim : LineRef) (chosen : selectVictimLine p ftl force loc = some (victim, next))

include regular sound chosen in
theorem select_sound : home victim = .victim ∧ MediaSound p loc next (Function.update home victim .out) prog lead ∧ SamePages ftl next := by
  obtain ⟨pages, counts, homes⟩ := sound
  obtain ⟨free, full, housed⟩ := homes.housed
  unfold selectVictimLine at chosen
  split at chosen
  · cases chosen
  · rename_i top peeked
    split at chosen
    · cases chosen
    · obtain ⟨picked, after⟩ := Prod.mk.inj (Option.some.inj chosen)
      subst picked
      obtain ⟨here, occupied, first⟩ := IndexedHeap.peek_mem _ _ top housed.stored.queued peeked
      obtain ⟨holds, fewer, others⟩ := IndexedHeap.pop_holds (victimPri ftl.lm) (victimHeap ftl.lm loc) _ housed.stored.queued occupied
      rw [first] at holds
      have popped := leave_queue_housed p loc regular.few ftl.lm home free full top _ housed here fewer holds others
      change home top = .victim at here
      have wps : next.wps = ftl.wps := by rw [← after]
      have nand : next.nand = ftl.nand := by rw [← after]
      have maps : SameMaps ftl next := by
        rw [← after]
        exact ⟨fun _ => rfl, rfl⟩
      have tallies : SameTallies ftl next := by
        intro ref
        rw [← after]
        dsimp only
        by_cases same : ref = top
        · rw [same, Function.update_self]
          rfl
        · rw [Function.update_of_ne same]
          rfl
      have away : ∀ ref, ref ≠ top → Function.update home top .out ref = home ref := fun ref apart => Function.update_of_ne apart _ _
      obtain ⟨keptPages, keptCounts⟩ := same_pages_sound p ftl next ⟨maps, nand, tallies⟩ prog pages counts
      refine ⟨here, ⟨keptPages, keptCounts, homes_of_parts p loc next _ prog lead ⟨free, full, ?_⟩ ?_ ?_⟩, maps, nand, tallies⟩
      · rw [← after]
        exact popped
      · refine pointing_kept p loc ftl next home _ prog prog lead homes wps (fun name ref => ?_)
          fun _ ref _ => ⟨rfl, congrArg (fun counts => counts.2.2.1) (tallies ref)⟩
        by_cases same : ref = top
        · rw [same, Function.update_self, here]
          exact iff_of_false nofun nofun
        · rw [away ref same]
      · refine spending_changed p loc ftl next home _ prog prog lead homes top away (fun _ _ => rfl)
          (fun ref _ => congrArg Prod.snd (tallies ref)) ?_
        refine spending_counts p top _ (ftl.lm.lines top) _ _ (congrArg Prod.snd (tallies top)) ?_
        rw [Function.update_self]
        exact ⟨nofun, fun _ => homes.spent top (.inr (.inl here)), nofun, fun _ => homes.dirty top (.inl here), homes.reserved top,
          homes.unlinked top⟩

end Selecting

end ConZone
