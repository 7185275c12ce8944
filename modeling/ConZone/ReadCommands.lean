import ConZone.Device
import ConZone.Grouping

set_option autoImplicit false

namespace ConZone

section Reading

variable (p : Params) (ioType : IoType) (start : Nat)

-- The mapped LPNs of a request with their pages.
def mappedLpns (ftl : ZmsFtl) (lpns : List Nat) : List (Nat × Page) :=
  lpns.filterMap fun lpn =>
    match getMaptblEnt p ftl lpn with
    | .mapped page _ => some (lpn, page)
    | _ => none

-- The command that fetches a batch: its first page and the bytes of all of them.
def commandOf : List (Nat × Page) → Page × Nat
  | [] => (mkPage 0 0 0 0 0, 0)
  | first :: rest => (first.2, (rest.length + 1) * pgsz)

def issueRead (state : Nat × ZmsFtl) (command : Page × Nat) : Nat × ZmsFtl :=
  let (time, ftl) := submitRead p state.2 ioType start command
  (max state.1 time, ftl)

def issueReads (state : Nat × ZmsFtl) (commands : List (Page × Nat)) : Nat × ZmsFtl :=
  commands.foldl (issueRead p ioType start) state

theorem submit_read_issues (ftl : ZmsFtl) (command : Page × Nat) (issues : ioType ≠ .gcIo ∨ p.zpp.enableGcDelay = true) :
    submitRead p ftl ioType start command =
      submitNandCmd p { ftl with stats := { ftl.stats with deviceRPgs := ftl.stats.deviceRPgs + command.2 / pgsz } } ioType
        .nandRead start command.2 command.1 := if_pos issues

theorem submit_read_maptbl (ftl : ZmsFtl) (command : Page × Nat) : (submitRead p ftl ioType start command).2.maptbl = ftl.maptbl := by
  unfold submitRead
  split
  · rfl
  · rfl

theorem issue_reads_counts (issues : ioType ≠ .gcIo ∨ p.zpp.enableGcDelay = true) (commands : List (Page × Nat)) (state : Nat × ZmsFtl) :
    (issueReads p ioType start state commands).2.stats.deviceRPgs =
      state.2.stats.deviceRPgs + (commands.map fun command => command.2 / pgsz).sum := by
  induction commands generalizing state with
  | nil => rfl
  | cons command rest ih =>
      have first : (issueRead p ioType start state command).2.stats.deviceRPgs = state.2.stats.deviceRPgs + command.2 / pgsz := by
        unfold issueRead
        rw [submit_read_issues p ioType start state.2 command issues]
        rfl
      unfold issueReads at ih ⊢
      rw [List.foldl_cons, ih, first, List.map_cons, List.sum_cons, Nat.add_assoc]

def slotOfEntry (entry : Nat × Page) : Nat := planeIdx p entry.2

def sameFlashpage (entry first : Nat × Page) : Bool := flashpageSame p entry.2 first.2

def aggOf : List (Nat × Page) → Option (Page × Nat)
  | [] => none
  | batch => some (commandOf batch)

-- The collecting nand_read does, seen as groups: what was closed has been
-- submitted, what is open is the aggregate of its plane.
structure Collects (ftl : ZmsFtl) (state : Nat × ZmsFtl × ReadAgg) (groups : Grouping.Groups (Nat × Page)) : Prop where
  submitted : (state.1, state.2.1) = issueReads p ioType start (start, ftl) (groups.closed.map commandOf)
  opened : ∀ idx, state.2.2 idx = aggOf (groups.opened idx)
  maptbl : state.2.1.maptbl = ftl.maptbl

theorem collects_skip (ftl : ZmsFtl) (state : Nat × ZmsFtl × ReadAgg) (groups : Grouping.Groups (Nat × Page)) (lpn : Nat)
    (collects : Collects p ioType start ftl state groups) (unmapped : ∀ page map, getMaptblEnt p ftl lpn ≠ .mapped page map) :
    readStep p ioType start state lpn = state := by
  obtain ⟨latest, current, aggs⟩ := state
  have same : getMaptblEnt p current lpn = getMaptblEnt p ftl lpn := by
    unfold getMaptblEnt
    rw [show current.maptbl = ftl.maptbl from collects.maptbl]
  unfold readStep
  dsimp only
  rw [same]
  split
  · rename_i page map found
    exact absurd found (unmapped page map)
  · rfl

theorem aggs_update (aggs : ReadAgg) (opened : Nat → List (Nat × Page)) (idx : Nat) (batch : List (Nat × Page))
    (agrees : ∀ idx, aggs idx = aggOf (opened idx)) (other : Nat) :
    Function.update aggs idx (aggOf batch) other = aggOf (Function.update opened idx batch other) := by
  by_cases same : other = idx
  · rw [same, Function.update_self, Function.update_self]
  · rw [Function.update_of_ne same, Function.update_of_ne same]
    exact agrees other

theorem collects_entry (ftl : ZmsFtl) (state : Nat × ZmsFtl × ReadAgg) (groups : Grouping.Groups (Nat × Page)) (lpn : Nat) (page : Page)
    (map : MapType) (collects : Collects p ioType start ftl state groups) (found : getMaptblEnt p ftl lpn = .mapped page map) :
    Collects p ioType start ftl (readStep p ioType start state lpn)
      (Grouping.add (slotOfEntry p) (sameFlashpage p) groups (lpn, page)) := by
  obtain ⟨latest, current, aggs⟩ := state
  obtain ⟨submitted, opened, maptbl⟩ := collects
  have same : getMaptblEnt p current lpn = .mapped page map := by
    rw [← found]
    unfold getMaptblEnt
    rw [show current.maptbl = ftl.maptbl from maptbl]
  have agg := opened (planeIdx p page)
  dsimp only at agg
  have alone : aggOf [(lpn, page)] = some (page, pgsz) := rfl
  unfold readStep Grouping.add
  simp only [same, agg]
  rw [show slotOfEntry p (lpn, page) = planeIdx p page from rfl]
  cases collected : groups.opened (planeIdx p page) with
  | nil =>
      refine ⟨submitted, ?_, maptbl⟩
      exact aggs_update aggs groups.opened (planeIdx p page) [(lpn, page)] opened
  | cons first rest =>
      by_cases fits : flashpageSame p page first.2 = true
      · have joins : sameFlashpage p (lpn, page) first = true := fits
        simp only [aggOf, commandOf, fits, joins, if_true]
        refine ⟨submitted, ?_, maptbl⟩
        have grown : aggOf (first :: (rest ++ [(lpn, page)])) = some (first.2, (rest.length + 1) * pgsz + pgsz) := by
          simp [aggOf, commandOf, Nat.add_mul]
        rw [← grown]
        exact aggs_update aggs groups.opened (planeIdx p page) _ opened
      · have joins : ¬sameFlashpage p (lpn, page) first = true := fits
        simp only [aggOf, commandOf, fits, joins, Bool.false_eq_true, if_false]
        refine ⟨?_, ?_, ?_⟩
        · rw [List.map_append, issueReads, List.foldl_append]
          rw [issueReads] at submitted
          rw [← submitted]
          rfl
        · exact aggs_update aggs groups.opened (planeIdx p page) [(lpn, page)] opened
        · exact (submit_read_maptbl p ioType start current _).trans maptbl

theorem collects_request (ftl : ZmsFtl) (lpns : List Nat) (state : Nat × ZmsFtl × ReadAgg) (groups : Grouping.Groups (Nat × Page))
    (collects : Collects p ioType start ftl state groups) :
    Collects p ioType start ftl (lpns.foldl (readStep p ioType start) state)
      ((mappedLpns p ftl lpns).foldl (Grouping.add (slotOfEntry p) (sameFlashpage p)) groups) := by
  induction lpns generalizing state groups with
  | nil => exact collects
  | cons lpn rest ih =>
      rw [List.foldl_cons]
      unfold mappedLpns at ih ⊢
      rw [List.filterMap_cons]
      cases found : getMaptblEnt p ftl lpn with
      | mapped page map => exact ih _ _ (collects_entry p ioType start ftl state groups lpn page map collects found)
      | unmapped =>
          rw [collects_skip p ioType start ftl state groups lpn collects (fun _ _ same => by rw [found] at same; cases same)]
          exact ih state groups collects
      | rsv =>
          rw [collects_skip p ioType start ftl state groups lpn collects (fun _ _ same => by rw [found] at same; cases same)]
          exact ih state groups collects

theorem flush_aggregates (aggs : ReadAgg) (opened : Nat → List (Nat × Page)) (agrees : ∀ idx, aggs idx = aggOf (opened idx))
    (indices : List Nat) (state : Nat × ZmsFtl) :
    indices.foldl (fun state idx =>
        match aggs idx with
        | none => state
        | some agg =>
            let (time, ftl) := submitRead p state.2 ioType start agg
            (max state.1 time, ftl)) state =
      issueReads p ioType start state (((indices.map opened).filter fun group => !group.isEmpty).map commandOf) := by
  induction indices generalizing state with
  | nil => rfl
  | cons idx rest ih =>
      rw [List.foldl_cons, List.map_cons, agrees idx]
      cases collected : opened idx with
      | nil => exact ih state
      | cons first others => exact ih (issueRead p ioType start state (commandOf (first :: others)))

def readBatches (ftl : ZmsFtl) (lpns : List Nat) : List (List (Nat × Page)) :=
  Grouping.group (slotOfEntry p) (sameFlashpage p) (p.spp.nchs * p.spp.lunsPerCh * p.spp.plsPerLun) (mappedLpns p ftl lpns)

theorem nand_read_issues (ftl : ZmsFtl) (lpns : List Nat) :
    nandRead p ftl lpns ioType start = issueReads p ioType start (start, ftl) ((readBatches p ftl lpns).map commandOf) := by
  have first : Collects p ioType start ftl (start, ftl, fun _ => none) Grouping.empty := ⟨rfl, fun _ => rfl, rfl⟩
  have collected := collects_request p ioType start ftl lpns _ _ first
  unfold nandRead readBatches Grouping.group Grouping.finish
  generalize lpns.foldl (readStep p ioType start) (start, ftl, fun _ => none) = state at collected
  generalize (mappedLpns p ftl lpns).foldl (Grouping.add (slotOfEntry p) (sameFlashpage p)) Grouping.empty = groups at collected
  obtain ⟨latest, current, aggs⟩ := state
  obtain ⟨submitted, opened, _⟩ := collected
  dsimp only at submitted opened ⊢
  refine (flush_aggregates p ioType start aggs groups.opened opened _ (latest, current)).trans ?_
  rw [submitted, List.map_append]
  unfold issueReads
  rw [List.foldl_append]

theorem batch_pages (batches : List (List (Nat × Page))) (some : ∀ batch ∈ batches, batch ≠ []) :
    ((batches.map commandOf).map fun command => command.2 / pgsz).sum = batches.flatten.length ∧
      ((batches.map commandOf).map fun command => command.2).sum = batches.flatten.length * pgsz := by
  have positive : 0 < pgsz := by decide
  induction batches with
  | nil => exact ⟨rfl, rfl⟩
  | cons batch rest ih =>
      obtain ⟨pages, bytes⟩ := ih fun other member => some other (List.mem_cons_of_mem _ member)
      cases batch with
      | nil => exact absurd rfl (some [] List.mem_cons_self)
      | cons first others =>
          have whole : (others.length + 1) * pgsz / pgsz = others.length + 1 := Nat.mul_div_cancel _ positive
          constructor
          · simp only [List.map_cons, List.sum_cons, List.flatten_cons, List.length_append, List.length_cons, commandOf, whole, pages]
          · simp only [List.map_cons, List.sum_cons, List.flatten_cons, List.length_append, List.length_cons, commandOf, bytes,
              Nat.add_mul]

-- nand_read is the submission of one command for each batch; the batches hold
-- every mapped LPN of the request once.
theorem nand_read_conserves (some : 0 < p.spp.nchs * p.spp.lunsPerCh * p.spp.plsPerLun) (ftl : ZmsFtl) (lpns : List Nat)
    (issues : ioType ≠ .gcIo ∨ p.zpp.enableGcDelay = true) :
    ∃ batches : List (List (Nat × Page)),
      nandRead p ftl lpns ioType start = issueReads p ioType start (start, ftl) (batches.map commandOf) ∧
        batches.flatten.Perm (mappedLpns p ftl lpns) ∧
        (∀ batch ∈ batches, batch ≠ [] ∧ ∀ entry ∈ batch, flashpageSame p entry.2 (commandOf batch).1 = true) ∧
        ((batches.map commandOf).map fun command => command.2).sum = (mappedLpns p ftl lpns).length * pgsz ∧
        (nandRead p ftl lpns ioType start).2.stats.deviceRPgs = ftl.stats.deviceRPgs + (mappedLpns p ftl lpns).length := by
  have inside : ∀ entry ∈ mappedLpns p ftl lpns, slotOfEntry p entry < p.spp.nchs * p.spp.lunsPerCh * p.spp.plsPerLun :=
    fun entry _ => Nat.mod_lt _ some
  have once := Grouping.group_perm (slotOfEntry p) (sameFlashpage p) _ _ inside
  have joined : ∀ batch ∈ readBatches p ftl lpns, Grouping.Joined (sameFlashpage p) batch := fun batch member =>
    Grouping.group_joined _ _ _ _ batch member
  have nonempty : ∀ batch ∈ readBatches p ftl lpns, batch ≠ [] := by
    intro batch member
    obtain ⟨first, rest, same, _⟩ := joined batch member
    rw [same]
    exact List.cons_ne_nil _ _
  obtain ⟨pages, bytes⟩ := batch_pages (readBatches p ftl lpns) nonempty
  have issued := nand_read_issues p ioType start ftl lpns
  have counted := issue_reads_counts p ioType start issues ((readBatches p ftl lpns).map commandOf) (start, ftl)
  rw [← issued, pages] at counted
  refine ⟨readBatches p ftl lpns, issued, once, ?_, ?_, ?_⟩
  · intro batch member
    refine ⟨nonempty batch member, ?_⟩
    obtain ⟨first, rest, same, together⟩ := joined batch member
    rw [same]
    intro entry inBatch
    rcases List.mem_cons.mp inBatch with head | tail
    · rw [head]
      simp [flashpageSame, commandOf]
    · exact together entry tail
  · rw [bytes]
    exact congrArg (· * pgsz) once.length_eq
  · rw [counted]
    exact congrArg (ftl.stats.deviceRPgs + ·) once.length_eq

end Reading

def twoMapped : ZmsFtl :=
  { zmsRealizeFtl (dualParams sampleConfig .pslc) fun _ => 0 with
    maptbl := fun lpn => if lpn < 2 then .mapped (mkPage 0 lpn 0 0 0) .pageMap else .unmapped }

theorem nand_read_conserves_two_mapped :
    (mappedLpns (dualParams sampleConfig .pslc) twoMapped [0, 5, 1]).length = 2 ∧
      ∃ batches : List (List (Nat × Page)),
        nandRead (dualParams sampleConfig .pslc) twoMapped [0, 5, 1] .userIo 5 =
            issueReads (dualParams sampleConfig .pslc) .userIo 5 (5, twoMapped) (batches.map commandOf) ∧
          batches.flatten.Perm (mappedLpns (dualParams sampleConfig .pslc) twoMapped [0, 5, 1]) ∧
          (∀ batch ∈ batches, batch ≠ [] ∧
            ∀ entry ∈ batch, flashpageSame (dualParams sampleConfig .pslc) entry.2 (commandOf batch).1 = true) ∧
          ((batches.map commandOf).map fun command => command.2).sum =
            (mappedLpns (dualParams sampleConfig .pslc) twoMapped [0, 5, 1]).length * pgsz ∧
          (nandRead (dualParams sampleConfig .pslc) twoMapped [0, 5, 1] .userIo 5).2.stats.deviceRPgs =
            twoMapped.stats.deviceRPgs + (mappedLpns (dualParams sampleConfig .pslc) twoMapped [0, 5, 1]).length :=
  ⟨by decide, nand_read_conserves (dualParams sampleConfig .pslc) .userIo 5 (by decide) twoMapped [0, 5, 1] (.inl (by decide))⟩

end ConZone
