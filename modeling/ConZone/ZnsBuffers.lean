import ConZone.ZnsPointers

set_option autoImplicit false

namespace ConZone.Zns

section Pages

variable (c : ZnsParams)

def ProgramEnd (pages : Nat) : Prop := pages % c.pgsPerOneshotpg = 0 ∨ pages = zoneLpns c

instance (pages : Nat) : Decidable (ProgramEnd c pages) := by
  unfold ProgramEnd
  infer_instance

-- How many pages of a zone are programmed once so many have been written, and
-- with how many commands.
def coverPages (pages : Nat) : Nat := if pages = zoneLpns c then pages else pages / c.pgsPerOneshotpg * c.pgsPerOneshotpg

def programsUpTo (pages : Nat) : Nat :=
  pages / c.pgsPerOneshotpg + if pages = zoneLpns c ∧ zoneLpns c % c.pgsPerOneshotpg ≠ 0 then 1 else 0

theorem zone_lbas_pages : zoneLbas c = zoneLpns c * secsPerPg := by
  have pages := c.zonePages
  unfold zoneLbas zoneLpns secsPerPg
  unfold pgsz secsz at *
  omega

theorem zone_lpns_positive : 0 < zoneLpns c := by
  have pages := c.zonePages
  have size := c.zonePositive
  unfold zoneLpns
  unfold pgsz at *
  omega

theorem lpn_in_zone (zid page : Nat) (inside : zid < c.nrZones) (within : page < zoneLpns c) :
    lpnToPg c (zoneToSlpn c zid + page) = page % c.pgsPerOneshotpg := by
  have zone : lpnToZone c (zoneToSlpn c zid + page) = zid := by
    have fits := c.zonesFit
    unfold lpnToZone zoneToSlpn
    rw [Nat.mul_comm, Nat.mul_add_div (zone_lpns_positive c), Nat.div_eq_of_lt within, Nat.add_zero]
    exact Nat.mod_eq_of_lt (by omega)
  unfold lpnToPg
  rw [zone, Nat.add_sub_cancel_left]

theorem zone_slba_slpn (zid : Nat) : zoneToSlba c zid = zoneToSlpn c zid * secsPerPg := by
  unfold zoneToSlba zoneToSlpn
  rw [zone_lbas_pages, Nat.mul_assoc]

theorem zone_elpn_last (zid : Nat) : zoneToElpn c zid + 1 = zoneToSlpn c zid + zoneLpns c := by
  have size := zone_lpns_positive c
  have next : zoneToSlpn c (zid + 1) = zoneToSlpn c zid + zoneLpns c := Nat.succ_mul zid (zoneLpns c)
  unfold zoneToElpn zoneToElba
  rw [zone_slba_slpn, next]
  unfold secsPerPg
  omega

theorem turn_ends (unit page pgs : Nat) (some : 0 < pgs) (within : pgs ≤ unit - page % unit) :
    ((page + pgs) % unit = 0 ∧ (page + pgs) / unit = page / unit + 1 ∧ page % unit + pgs = unit) ∨
      ((page + pgs) % unit ≠ 0 ∧ (page + pgs) / unit = page / unit ∧ page % unit + pgs < unit) := by
  have positive : 0 < unit := by omega
  have whole : page + pgs = unit * (page / unit) + (page % unit + pgs) := by
    have parts := Nat.div_add_mod page unit
    omega
  by_cases last : page % unit + pgs = unit
  · refine .inl ⟨?_, ?_, last⟩
    · rw [whole, last, Nat.mul_add_mod, Nat.mod_self]
    · rw [whole, last, Nat.mul_add_div positive, Nat.div_self positive]
  · have less : page % unit + pgs < unit := by omega
    refine .inr ⟨?_, ?_, less⟩
    · rw [whole, Nat.mul_add_mod, Nat.mod_eq_of_lt less]
      omega
    · rw [whole, Nat.mul_add_div positive, Nat.div_eq_of_lt less, Nat.add_zero]

theorem cover_pages_inside (page : Nat) (within : page < zoneLpns c) :
    coverPages c page = page / c.pgsPerOneshotpg * c.pgsPerOneshotpg := if_neg (Nat.ne_of_lt within)

theorem programs_inside (page : Nat) (within : page < zoneLpns c) : programsUpTo c page = page / c.pgsPerOneshotpg := by
  unfold programsUpTo
  rw [if_neg (fun last => Nat.ne_of_lt within last.1), Nat.add_zero]

theorem cover_pages_end (page : Nat) (ends : ProgramEnd c page) : coverPages c page = page := by
  unfold coverPages
  split
  · rfl
  · rename_i inside
    exact Nat.div_mul_cancel (Nat.dvd_of_mod_eq_zero (ends.resolve_right inside))

theorem programs_mono (page later : Nat) (order : page ≤ later) (within : later ≤ zoneLpns c) : programsUpTo c page ≤ programsUpTo c later := by
  have divided := Nat.div_le_div_right (c := c.pgsPerOneshotpg) order
  unfold programsUpTo
  split
  · rename_i last
    rw [if_pos ⟨by omega, last.2⟩]
    omega
  · omega

theorem turn_worth (page pgs : Nat) (some : 0 < pgs) (within : pgs ≤ c.pgsPerOneshotpg - page % c.pgsPerOneshotpg)
    (inside : page + pgs ≤ zoneLpns c) :
    (ProgramEnd c (page + pgs) ∧ programsUpTo c (page + pgs) = programsUpTo c page + 1) ∨
      (¬ProgramEnd c (page + pgs) ∧ programsUpTo c (page + pgs) = programsUpTo c page ∧ coverPages c (page + pgs) = coverPages c page) := by
  have before := programs_inside c page (by omega)
  rcases turn_ends c.pgsPerOneshotpg page pgs some within with ⟨ends, next, _⟩ | ⟨open', same, _⟩
  · refine .inl ⟨.inl ends, ?_⟩
    unfold programsUpTo at before ⊢
    rw [before, next, if_neg (fun last => last.2 (last.1 ▸ ends)), Nat.add_zero]
  · by_cases last : page + pgs = zoneLpns c
    · refine .inl ⟨.inr last, ?_⟩
      rw [before]
      unfold programsUpTo
      rw [same, if_pos ⟨last, last ▸ open'⟩]
    · refine .inr ⟨fun ends => ends.elim open' last, ?_, ?_⟩
      · rw [before, programs_inside c _ (by omega), same]
      · rw [cover_pages_inside c _ (by omega), cover_pages_inside c _ (by omega), same]

theorem turn_bytes (page pgs : Nat) (some : 0 < pgs) (within : pgs ≤ c.pgsPerOneshotpg - page % c.pgsPerOneshotpg)
    (inside : page + pgs ≤ zoneLpns c) (fits : c.zoneSize % oneshotBytes c < 2 ^ 32) (ends : ProgramEnd c (page + pgs)) :
    (if page + pgs = zoneLpns c ∧ 0 < unalignedSpace c then unalignedSpace c else oneshotBytes c) + coverPages c page * pgsz =
      coverPages c (page + pgs) * pgsz := by
  have size : c.zoneSize = zoneLpns c * pgsz := (Nat.div_mul_cancel (Nat.dvd_of_mod_eq_zero c.zonePages)).symm
  have unaligned : unalignedSpace c = zoneLpns c % c.pgsPerOneshotpg * pgsz := by
    unfold unalignedSpace
    rw [show u32 (c.zoneSize % oneshotBytes c) = c.zoneSize % oneshotBytes c from Nat.mod_eq_of_lt fits]
    unfold oneshotBytes
    rw [size, Nat.mul_mod_mul_right]
  rw [cover_pages_end c _ ends, cover_pages_inside c page (by omega), unaligned]
  have parts := Nat.div_add_mod (page + pgs) c.pgsPerOneshotpg
  rcases turn_ends c.pgsPerOneshotpg page pgs some within with ⟨whole, next, _⟩ | ⟨open', same, _⟩
  · have notPart : ¬(page + pgs = zoneLpns c ∧ 0 < zoneLpns c % c.pgsPerOneshotpg * pgsz) := by
      rintro ⟨last, part⟩
      rw [← last, whole] at part
      simp at part
    rw [if_neg notPart]
    unfold oneshotBytes
    rw [whole, next, Nat.mul_add, Nat.mul_comm] at parts
    rw [← parts, Nat.mul_one, Nat.add_zero, Nat.add_mul, Nat.add_comm]
  · have last := ends.resolve_left open'
    have part : 0 < zoneLpns c % c.pgsPerOneshotpg * pgsz := by
      rw [← last]
      exact Nat.mul_pos (Nat.pos_of_ne_zero open') (by decide)
    rw [if_pos ⟨last, part⟩, ← last]
    rw [same, Nat.mul_comm] at parts
    rw [← Nat.add_mul, Nat.add_comm, parts]

end Pages

section Programming

variable (c : ZnsParams)

def dueBytes (ref : BufferRef) (scheduled : List (BufferRef × Nat)) : Nat :=
  ((scheduled.filter (fun item => item.1 = ref)).map Prod.snd).sum

@[simp] theorem due_bytes_append (ref : BufferRef) (first second : List (BufferRef × Nat)) :
    dueBytes ref (first ++ second) = dueBytes ref first + dueBytes ref second := by
  unfold dueBytes
  rw [List.filter_append, List.map_append, List.sum_append]

@[simp] theorem due_bytes_single (ref : BufferRef) (bytes : Nat) : dueBytes ref [(ref, bytes)] = bytes := by
  simp [dueBytes]

theorem due_bytes_other (ref other : BufferRef) (bytes : Nat) (apart : ref ≠ other) : dueBytes other [(ref, bytes)] = 0 := by
  simp [dueBytes, apart]

theorem due_bytes_erase (ref : BufferRef) (bytes : Nat) (scheduled : List (BufferRef × Nat)) (place : Nat)
    (due : scheduled[place]? = some (ref, bytes)) (other : BufferRef) :
    dueBytes other (scheduled.eraseIdx place) + dueBytes other [(ref, bytes)] = dueBytes other scheduled := by
  induction scheduled generalizing place with
  | nil => cases due
  | cons head rest ih =>
      have split : ∀ items, dueBytes other (head :: items) = dueBytes other [head] + dueBytes other items :=
        fun items => due_bytes_append other [head] items
      cases place with
      | zero =>
          have same : head = (ref, bytes) := Option.some.inj due
          rw [List.eraseIdx_zero, List.tail_cons, split rest, same, Nat.add_comm]
      | succ place =>
          rw [List.eraseIdx_cons_succ, split, split rest, Nat.add_assoc, ih place due]

structure ProgrammedTo (ref : BufferRef) (zid before pages : Nat) (first last : ZnsFtl) : Prop where
  covered : last.covered = Function.update first.covered zid (coverPages c pages * secsPerPg)
  due : dueBytes ref last.scheduled + coverPages c before * pgsz = dueBytes ref first.scheduled + coverPages c pages * pgsz
  others : ∀ other, other ≠ ref → dueBytes other last.scheduled = dueBytes other first.scheduled

theorem programmed_trans (ref : BufferRef) (zid before middle pages : Nat) (first second third : ZnsFtl)
    (left : ProgrammedTo c ref zid before middle first second) (right : ProgrammedTo c ref zid middle pages second third) :
    ProgrammedTo c ref zid before pages first third := by
  refine ⟨?_, ?_, fun other apart => (right.others other apart).trans (left.others other apart)⟩
  · rw [right.covered, left.covered, Function.update_idem]
  · have early := left.due
    have late := right.due
    omega

-- The descriptor that a turn finds: the write pointer is behind what it takes.
structure WritePlace (zid pages : Nat) (ftl : ZnsFtl) : Prop where
  start : (ftl.zoneDescs zid).zslba = zoneToSlpn c zid * secsPerPg
  reached : (zoneToSlpn c zid + pages) * secsPerPg ≤ (ftl.zoneDescs zid).wp

theorem advance_nand_programmed (zid pages : Nat) (ftl : ZnsFtl) (place : WritePlace c zid pages ftl)
    (less : ftl.covered zid ≤ pages * secsPerPg) :
    advanceNand ftl zid (zoneToSlpn c zid + pages) =
      { ftl with covered := Function.update ftl.covered zid (pages * secsPerPg) } := by
  have taken : min (ftl.zoneDescs zid).wp ((zoneToSlpn c zid + pages) * secsPerPg) - (ftl.zoneDescs zid).zslba = pages * secsPerPg := by
    rw [Nat.min_eq_right place.reached, place.start, Nat.add_mul, Nat.add_sub_cancel_left]
  unfold advanceNand
  dsimp only
  rw [taken, Nat.max_eq_right less]

theorem schedule_queued (state : Programs) (ref : BufferRef) (bytes : Nat) (queue : 0 < state.freeEntries) :
    scheduleInternalOperation state ref bytes =
      ⟨{ state.ftl with scheduled := state.ftl.scheduled ++ [(ref, bytes)] }, state.freeEntries - 1⟩ :=
  if_neg (Nat.ne_of_gt queue)

theorem turn_condition (zid page pgs : Nat) (inside : zid < c.nrZones) (some : 0 < pgs)
    (within : pgs ≤ c.pgsPerOneshotpg - page % c.pgsPerOneshotpg) (ends : page + pgs ≤ zoneLpns c) :
    (zoneToSlpn c zid + page + pgs - 1 = zoneToElpn c zid ↔ page + pgs = zoneLpns c) ∧
      (lpnToPg c (zoneToSlpn c zid + page) + pgs = c.pgsPerOneshotpg ∨ page + pgs = zoneLpns c ↔ ProgramEnd c (page + pgs)) := by
  have last := zone_elpn_last c zid
  refine ⟨by omega, ?_⟩
  rw [lpn_in_zone c zid page inside (by omega)]
  unfold ProgramEnd
  apply or_congr_left
  rcases turn_ends c.pgsPerOneshotpg page pgs some within with ⟨whole, _, full⟩ | ⟨part, _, less⟩
  · exact iff_of_true full whole
  · exact iff_of_false (Nat.ne_of_lt less) part

theorem program_pages_programmed (ref : BufferRef) (zid page pgs : Nat) (state : Programs) (inside : zid < c.nrZones) (some : 0 < pgs)
    (within : pgs ≤ c.pgsPerOneshotpg - page % c.pgsPerOneshotpg) (ends : page + pgs ≤ zoneLpns c)
    (fits : c.zoneSize % oneshotBytes c < 2 ^ 32) (covered : state.ftl.covered zid = coverPages c page * secsPerPg)
    (place : ProgramEnd c (page + pgs) → WritePlace c zid (page + pgs) state.ftl)
    (queue : programsUpTo c (page + pgs) ≤ programsUpTo c page + state.freeEntries) :
    ProgrammedTo c ref zid page (page + pgs) state.ftl (programPages c ref zid (zoneToSlpn c zid + page) pgs state).ftl ∧
      programsUpTo c (page + pgs) + (programPages c ref zid (zoneToSlpn c zid + page) pgs state).freeEntries =
        programsUpTo c page + state.freeEntries := by
  obtain ⟨atEnd, programs⟩ := turn_condition c zid page pgs inside some within ends
  unfold programPages
  simp only [atEnd, programs]
  rcases turn_worth c page pgs some within ends with ⟨program, more⟩ | ⟨none, same, cover⟩
  · rw [if_pos program]
    have bytes := turn_bytes c page pgs some within ends fits program
    have less : state.ftl.covered zid ≤ (page + pgs) * secsPerPg := by
      rw [covered, cover_pages_inside c page (by omega)]
      exact Nat.mul_le_mul_right _ ((Nat.div_mul_le_self page c.pgsPerOneshotpg).trans (Nat.le_add_right page pgs))
    have advanced := advance_nand_programmed c zid (page + pgs) state.ftl (place program) less
    rw [Nat.add_assoc, advanced, schedule_queued _ _ _ (by dsimp only; omega)]
    dsimp only
    refine ⟨⟨?_, ?_, ?_⟩, by omega⟩
    · rw [cover_pages_end c _ program]
    · rw [due_bytes_append, due_bytes_single]
      omega
    · intro other apart
      rw [due_bytes_append, due_bytes_other ref other _ (Ne.symm apart), Nat.add_zero]
  · rw [if_neg none]
    refine ⟨⟨?_, ?_, fun other apart => rfl⟩, by omega⟩
    · rw [cover, ← covered, Function.update_eq_self]
    · rw [cover]

-- The pages up to the last one that the write touches. Only there can the write
-- pointer be inside a page, and then no command takes that page.
theorem program_loop_programmed (ref : BufferRef) (zid last : Nat) (inside : zid < c.nrZones) (within : last < zoneLpns c)
    (fits : c.zoneSize % oneshotBytes c < 2 ^ 32) (fuel page : Nat) (state : Programs) (order : page ≤ last + 1)
    (enough : last + 1 - page ≤ fuel) (covered : state.ftl.covered zid = coverPages c page * secsPerPg)
    (reached : WritePlace c zid last state.ftl) (whole : ProgramEnd c (last + 1) → WritePlace c zid (last + 1) state.ftl)
    (queue : programsUpTo c (last + 1) ≤ programsUpTo c page + state.freeEntries) :
    ProgrammedTo c ref zid page (last + 1) state.ftl
      (programLoop c ref zid (zoneToSlpn c zid + last) fuel (zoneToSlpn c zid + page) state).ftl := by
  induction fuel generalizing page state with
  | zero =>
      have done : page = last + 1 := by omega
      subst done
      refine ⟨?_, rfl, fun other apart => rfl⟩
      rw [← covered]
      exact (Function.update_eq_self _ _).symm
  | succ fuel ih =>
      unfold programLoop
      split
      · have done : page = last + 1 := by omega
        subst done
        refine ⟨?_, rfl, fun other apart => rfl⟩
        rw [← covered]
        exact (Function.update_eq_self _ _).symm
      · rename_i more
        dsimp only
        rw [lpn_in_zone c zid page inside (by omega)]
        have unit := c.oneshotPositive
        have rest := Nat.mod_lt page unit
        generalize taken : min (zoneToSlpn c zid + last - (zoneToSlpn c zid + page) + 1)
          (c.pgsPerOneshotpg - page % c.pgsPerOneshotpg) = pgs
        have bounds : 0 < pgs ∧ page + pgs ≤ last + 1 ∧ pgs ≤ c.pgsPerOneshotpg - page % c.pgsPerOneshotpg := by omega
        obtain ⟨some, stays, short⟩ := bounds
        have mono := programs_mono c (page + pgs) (last + 1) stays (by omega)
        have place : ProgramEnd c (page + pgs) → WritePlace c zid (page + pgs) state.ftl := by
          intro ends
          by_cases final : page + pgs = last + 1
          · rw [final] at ends ⊢
            exact whole ends
          · exact ⟨reached.start, (Nat.mul_le_mul_right _ (by omega)).trans reached.reached⟩
        obtain ⟨turn, entries⟩ :=
          program_pages_programmed c ref zid page pgs state inside some short (by omega) fits covered place (by omega)
        have side := program_pages_side c ref zid (zoneToSlpn c zid + page) pgs state
        have kept : ∀ pages, WritePlace c zid pages state.ftl →
            WritePlace c zid pages (programPages c ref zid (zoneToSlpn c zid + page) pgs state).ftl := by
          intro pages before
          have descs : (programPages c ref zid (zoneToSlpn c zid + page) pgs state).ftl.zoneDescs = state.ftl.zoneDescs :=
            congrArg ZoneSide.zoneDescs side
          refine ⟨?_, ?_⟩
          · rw [descs]
            exact before.start
          · rw [descs]
            exact before.reached
        rw [Nat.add_assoc]
        exact programmed_trans c ref zid page (page + pgs) (last + 1) _ _ _ turn
          (ih (page + pgs) _ stays (by omega) (by rw [turn.covered, Function.update_self]) (kept last reached)
            (fun ends => kept (last + 1) (whole ends)) (by omega))

end Programming

section Accepting

variable (c : ZnsParams)

def MayBeWritten (ftl : ZnsFtl) (zid : Nat) : Prop :=
  match (ftl.zoneDescs zid).state with
  | .openedImpl | .openedExpl => True
  | .closed => isZoneResourceAvail ftl .openZone = true
  | .empty => (ftl.zoneDescs zid).wp = (ftl.zoneDescs zid).zslba ∧ isZoneResourceFull ftl .activeZone = false ∧
      isZoneResourceAvail ftl .openZone = true
  | _ => False

structure Acceptable (ftl : ZnsFtl) (cmd : RwCommand) : Prop where
  whole : nrLbasFromRwCmd cmd * secsz % c.writeUnitSize = 0
  boundary : checkBoundaryError c (placedSlba c ftl cmd) (nrLbasFromRwCmd cmd) = true
  placed : placedSlba c ftl cmd = (ftl.zoneDescs (writeZone c cmd)).wp
  zone : MayBeWritten ftl (writeZone c cmd)

theorem open_for_write_granted (ftl : ZnsFtl) (zid : Nat) :
    (openForWrite ftl zid).1 = .success ↔ isZoneResourceAvail ftl .openZone = true := by
  rcases open_for_write_cases ftl zid with ⟨acquired, taken, opened⟩ | ⟨full, refused⟩
  · rw [opened]
    unfold acquireZoneResource at taken
    split at taken
    · rename_i room
      exact iff_of_true rfl room
    · cases taken
  · rw [refused, full]
    exact iff_of_false (by simp) (by simp)

theorem avail_after_active (ftl : ZnsFtl) :
    isZoneResourceAvail (acquireZoneResource ftl .activeZone).2 .openZone = isZoneResourceAvail ftl .openZone := by
  unfold acquireZoneResource
  split <;> rfl

theorem avail_not_full (ftl : ZnsFtl) (type : ResType) (room : isZoneResourceAvail ftl type = true) :
    isZoneResourceFull ftl type = false := by
  unfold isZoneResourceAvail at room
  unfold isZoneResourceFull
  simp only [decide_eq_true_eq] at room
  simpa using Nat.ne_of_lt room

theorem admit_write_granted (ftl : ZnsFtl) (zid slba : Nat) (placed : slba = (ftl.zoneDescs zid).wp) :
    (admitWrite ftl zid slba).1 = .success ↔ MayBeWritten ftl zid := by
  unfold admitWrite MayBeWritten
  cases (ftl.zoneDescs zid).state with
  | empty =>
      dsimp only
      rw [← placed]
      by_cases start : slba = (ftl.zoneDescs zid).zslba
      · cases active : isZoneResourceFull ftl .activeZone with
        | true => simp [start]
        | false =>
            cases room : isZoneResourceAvail ftl .openZone with
            | true =>
                have notFull := avail_not_full ftl .openZone room
                simp [start, notFull, open_for_write_granted, avail_after_active, room]
            | false =>
                cases full : isZoneResourceFull ftl .openZone with
                | true => simp [start]
                | false => simp [start, open_for_write_granted, avail_after_active, room]
      · simp [start]
  | closed => exact open_for_write_granted ftl zid
  | _ => simp

theorem check_write_granted (ftl : ZnsFtl) (cmd : RwCommand) :
    (checkWrite c (afterTaking c ftl cmd) (writeZone c cmd) (placedSlba c ftl cmd) (nrLbasFromRwCmd cmd)).1 = .success ↔
      Acceptable c ftl cmd := by
  have granted := admit_write_granted (afterTaking c ftl cmd) (writeZone c cmd) (placedSlba c ftl cmd)
  unfold checkWrite
  split
  · rename_i partly
    exact iff_of_false (by simp) (fun accept => partly accept.whole)
  · rename_i whole
    split
    · rename_i crossing
      refine iff_of_false (by simp) (fun accept => ?_)
      rw [accept.boundary] at crossing
      cases crossing
    · rename_i boundary
      split
      · rename_i misplaced
        exact iff_of_false (by simp) (fun accept => misplaced accept.placed)
      · rename_i placed
        have here : placedSlba c ftl cmd = (ftl.zoneDescs (writeZone c cmd)).wp := not_not.mp placed
        rw [granted here]
        exact ⟨fun zone => ⟨by simpa using whole, by simpa using boundary, here, zone⟩, fun accept => accept.zone⟩

theorem rejected_unchanged_iff (ftl : ZnsFtl) (req : Request) (cmd : RwCommand) (outcome : WriteOutcome) (wb : c.zoneWbSize ≠ 0)
    (ran : writePlain c ftl req cmd = .ok outcome) :
    (outcome.done ≠ some .success → ∀ zid, (outcome.ftl.buffers (.zone zid)).remaining = (ftl.buffers (.zone zid)).remaining) ↔
      (HasRoom c ftl cmd → Acceptable c ftl cmd) := by
  have size := (command_bytes cmd).1
  have own : writeBufferOf c (writeZone c cmd) = .zone (writeZone c cmd) := if_pos wb
  obtain ⟨_, ⟨full, rfl⟩ | ⟨room, rfl⟩⟩ := write_plain_cases c ftl req cmd outcome ran
  · exact iff_of_true (fun _ _ => rfl) (fun room => absurd room full)
  · rw [write_taken_buffers]
    have took : (afterTaking c ftl cmd).buffers (.zone (writeZone c cmd)) =
        { ftl.buffers (.zone (writeZone c cmd)) with
          remaining := (ftl.buffers (.zone (writeZone c cmd))).remaining - nrLbasFromRwCmd cmd * secsz } := by
      rw [← own]
      exact Function.update_self _ _ _
    have less : ¬∀ zid, ((afterTaking c ftl cmd).buffers (.zone zid)).remaining = (ftl.buffers (.zone zid)).remaining := by
      intro same
      have here := same (writeZone c cmd)
      rw [took] at here
      unfold HasRoom at room
      rw [own] at room
      dsimp only at here
      omega
    have granted := check_write_granted c ftl cmd
    rcases write_taken_cases c (afterTaking c ftl cmd) req (writeZone c cmd) (placedSlba c ftl cmd) (nrLbasFromRwCmd cmd) with
      ⟨after, checked, done⟩ | ⟨status, after, refused, checked, done⟩
    · rw [done]
      rw [checked] at granted
      exact iff_of_true (fun failed => absurd rfl failed) (fun _ => granted.mp rfl)
    · rw [done]
      rw [checked] at granted
      refine iff_of_false (fun kept => less (kept ?_)) (fun accept => refused (granted.mpr (accept room)))
      simpa using refused

end Accepting

section Balance

variable (c : ZnsParams)

def pagesOf (lbas : Nat) : Nat := (lbas + secsPerPg - 1) / secsPerPg

def EndsClear (lbas : Nat) : Prop := ProgramEnd c (pagesOf lbas) → lbas % secsPerPg = 0

instance (lbas : Nat) : Decidable (EndsClear c lbas) := by
  unfold EndsClear
  infer_instance

-- Where a write that is accepted comes to end: in its zone, clear of the last
-- page of a program, and with an entry of the queue for each release.
structure WellPlaced (ftl : ZnsFtl) (req : Request) (cmd : RwCommand) (lbas : Nat) : Prop where
  inside : lbas + nrLbasFromRwCmd cmd ≤ zoneLbas c
  clear : EndsClear c (lbas + nrLbasFromRwCmd cmd)
  queue : programsUpTo c (pagesOf (lbas + nrLbasFromRwCmd cmd)) ≤ programsUpTo c (lbas / secsPerPg) + req.freeEntries
  fits : c.zoneSize % oneshotBytes c < 2 ^ 32

def writtenLbas (ftl : ZnsFtl) (zid : Nat) : Nat := (ftl.zoneDescs zid).wp - (ftl.zoneDescs zid).zslba

def balancedStep (ftl : ZnsFtl) : Event → Prop
  | .write req cmd => HasRoom c ftl cmd → Acceptable c ftl cmd ∧ WellPlaced c ftl req cmd (writtenLbas ftl (writeZone c cmd))
  | .release _ => True
  | .mgmtSend _ => False

structure Balanced (zid : Nat) (desc : ZoneDescriptor) (buffer : WriteBuffer) (due covered : Nat) : Prop where
  start : desc.zslba = zoneToSlba c zid
  capacity : desc.zoneCapacity = capacityLbas c
  plain : desc.zrwav = false
  lower : desc.zslba ≤ desc.wp
  upper : desc.wp ≤ desc.zslba + zoneLbas c
  full : desc.state = .full → desc.wp = desc.zslba + desc.zoneCapacity
  covers : covered = coverPages c ((desc.wp - desc.zslba) / secsPerPg) * secsPerPg
  size : buffer.size = c.zoneWbSize
  conserved : buffer.remaining + (desc.wp - desc.zslba - covered) * secsz + due = buffer.size

def AllBalanced (ftl : ZnsFtl) : Prop :=
  ∀ zid, Balanced c zid (ftl.zoneDescs zid) (ftl.buffers (.zone zid)) (dueBytes (.zone zid) ftl.scheduled) (ftl.covered zid)

theorem cover_pages_le (pages : Nat) : coverPages c pages ≤ pages := by
  unfold coverPages
  split
  · exact le_refl pages
  · exact Nat.div_mul_le_self pages c.pgsPerOneshotpg

theorem cover_clear (lbas : Nat) (inside : lbas ≤ zoneLbas c) (clear : EndsClear c lbas) :
    coverPages c (pagesOf lbas) = coverPages c (lbas / secsPerPg) := by
  by_cases whole : lbas % secsPerPg = 0
  · congr 1
    unfold pagesOf
    unfold secsPerPg at *
    omega
  · have begun : pagesOf lbas = lbas / secsPerPg + 1 := by
      unfold pagesOf
      unfold secsPerPg at *
      omega
    have within : lbas / secsPerPg + 1 ≤ zoneLpns c := by
      rw [zone_lbas_pages] at inside
      unfold secsPerPg at *
      omega
    have open' : ¬ProgramEnd c (lbas / secsPerPg + 1) := by
      rw [← begun]
      exact fun ends => whole (clear ends)
    have unit := Nat.mod_lt (lbas / secsPerPg) c.oneshotPositive
    rcases turn_worth c (lbas / secsPerPg) 1 Nat.one_pos (by omega) within with ⟨ends, _⟩ | ⟨_, _, same⟩
    · exact absurd ends open'
    · rw [begun, same]

theorem zone_fits (zid : Nat) (inside : zid < c.nrZones) : zoneToSlba c zid + zoneLbas c < 2 ^ 64 := by
  have size := c.addressable
  calc zoneToSlba c zid + zoneLbas c = (zid + 1) * zoneLbas c := (Nat.succ_mul zid (zoneLbas c)).symm
    _ ≤ c.nrZones * zoneLbas c := Nat.mul_le_mul_right _ inside
    _ ≤ c.nrZones * c.zoneSize := Nat.mul_le_mul_left _ (Nat.div_le_self c.zoneSize secsz)
    _ < 2 ^ 64 := size

theorem balanced_write (zid : Nat) (desc : ZoneDescriptor) (buffer : WriteBuffer) (due later covered lbas nrLba : Nat) (state : ZoneState)
    (balanced : Balanced c zid desc buffer due covered) (written : lbas = desc.wp - desc.zslba) (inside : lbas + nrLba ≤ zoneLbas c)
    (clear : EndsClear c (lbas + nrLba)) (room : nrLba * secsz ≤ buffer.remaining)
    (filled : state = .full → desc.wp + nrLba = desc.zslba + desc.zoneCapacity)
    (released : later + coverPages c (lbas / secsPerPg) * pgsz = due + coverPages c (pagesOf (lbas + nrLba)) * pgsz) :
    Balanced c zid { desc with wp := desc.wp + nrLba, state := state } { buffer with remaining := buffer.remaining - nrLba * secsz }
      later (coverPages c (pagesOf (lbas + nrLba)) * secsPerPg) := by
  have lower := balanced.lower
  have conserved := balanced.conserved
  have before := cover_pages_le c (lbas / secsPerPg)
  have after := cover_pages_le c ((lbas + nrLba) / secsPerPg)
  have cover := cover_clear c (lbas + nrLba) inside clear
  have moved : desc.wp + nrLba - desc.zslba = lbas + nrLba := by omega
  rw [balanced.covers, ← written] at conserved
  refine ⟨balanced.start, balanced.capacity, balanced.plain, ?_, ?_, filled, ?_, balanced.size, ?_⟩
  · dsimp only
    omega
  · dsimp only
    omega
  · dsimp only
    rw [moved, cover]
  · dsimp only
    rw [moved]
    rw [cover] at released ⊢
    unfold pgsz at released
    unfold secsPerPg secsz at *
    omega

theorem balanced_release (zid : Nat) (desc : ZoneDescriptor) (buffer : WriteBuffer) (due bytes covered : Nat)
    (balanced : Balanced c zid desc buffer (due + bytes) covered) :
    Balanced c zid desc { buffer with remaining := if buffer.size ≤ buffer.remaining + bytes then buffer.size else buffer.remaining + bytes }
      due covered := by
  have conserved := balanced.conserved
  refine ⟨balanced.start, balanced.capacity, balanced.plain, balanced.lower, balanced.upper, balanced.full, balanced.covers, balanced.size, ?_⟩
  dsimp only
  split <;> omega

theorem release_balanced (ftl : ZnsFtl) (place : Nat) (ref : BufferRef) (bytes : Nat) (balanced : AllBalanced c ftl)
    (due : ftl.scheduled[place]? = some (ref, bytes)) :
    AllBalanced c (bufferRelease { ftl with scheduled := ftl.scheduled.eraseIdx place } ref bytes) := by
  intro zid
  have here := balanced zid
  have share := due_bytes_erase ref bytes ftl.scheduled place due (.zone zid)
  by_cases own : ref = .zone zid
  · subst own
    rw [due_bytes_single] at share
    rw [← share] at here
    have released := balanced_release c zid _ _ _ bytes _ here
    unfold bufferRelease putBuffer
    dsimp only
    rw [Function.update_self]
    exact released
  · rw [due_bytes_other ref _ bytes own, Nat.add_zero] at share
    rw [← share] at here
    unfold bufferRelease putBuffer
    dsimp only
    rw [Function.update_of_ne (Ne.symm own)]
    exact here

theorem last_page (lbas nrLba : Nat) (some : 0 < nrLba) : (lbas + nrLba - 1) / secsPerPg + 1 = pagesOf (lbas + nrLba) := by
  unfold pagesOf
  unfold secsPerPg at *
  omega

theorem lba_in_zone (zid lbas : Nat) : lbaToLpn (zoneToSlba c zid + lbas) = zoneToSlpn c zid + lbas / secsPerPg := by
  unfold lbaToLpn
  rw [zone_slba_slpn, Nat.mul_comm, Nat.mul_add_div (by decide)]

theorem program_write_programmed (ftl : ZnsFtl) (req : Request) (zid lbas nrLba : Nat) (inside : zid < c.nrZones) (some : 0 < nrLba)
    (start : (ftl.zoneDescs zid).zslba = zoneToSlba c zid) (pointer : (ftl.zoneDescs zid).wp = zoneToSlba c zid + lbas + nrLba)
    (within : lbas + nrLba ≤ zoneLbas c) (clear : EndsClear c (lbas + nrLba)) (fits : c.zoneSize % oneshotBytes c < 2 ^ 32)
    (covered : ftl.covered zid = coverPages c (lbas / secsPerPg) * secsPerPg)
    (queue : programsUpTo c (pagesOf (lbas + nrLba)) ≤ programsUpTo c (lbas / secsPerPg) + req.freeEntries) :
    ProgrammedTo c (writeBufferOf c zid) zid (lbas / secsPerPg) (pagesOf (lbas + nrLba)) ftl
      (programWrite c ftl req zid (zoneToSlba c zid + lbas) nrLba).ftl := by
  have bound := zone_fits c zid inside
  have pages := zone_lbas_pages c
  have last := last_page lbas nrLba some
  have atEnd : u64 (zoneToSlba c zid + lbas + nrLba - 1) = zoneToSlba c zid + (lbas + nrLba - 1) := by
    rw [show zoneToSlba c zid + lbas + nrLba - 1 = zoneToSlba c zid + (lbas + nrLba - 1) by omega]
    exact Nat.mod_eq_of_lt (by omega)
  have first := zone_slba_slpn c zid
  unfold programWrite
  rw [atEnd, lba_in_zone, lba_in_zone]
  rw [← last] at queue ⊢
  have final : (lbas + nrLba - 1) / secsPerPg < zoneLpns c := by
    unfold secsPerPg at *
    omega
  apply program_loop_programmed c (writeBufferOf c zid) zid _ inside final fits _ (lbas / secsPerPg) ⟨ftl, req.freeEntries⟩
  · have before : lbas / secsPerPg ≤ (lbas + nrLba - 1) / secsPerPg := Nat.div_le_div_right (by omega)
    omega
  · omega
  · exact covered
  · refine ⟨start.trans first, ?_⟩
    rw [pointer, first]
    unfold secsPerPg
    omega
  · intro ends
    refine ⟨start.trans first, ?_⟩
    rw [last] at ends
    have whole := clear ends
    rw [pointer, first]
    unfold secsPerPg at *
    omega
  · exact queue

theorem accepted_desc (ftl after : ZnsFtl) (zid nrLba : Nat) (admitted : Admission ftl zid after) (inside : zid < c.nrZones)
    (start : (ftl.zoneDescs zid).zslba = zoneToSlba c zid)
    (within : (ftl.zoneDescs zid).wp + nrLba ≤ (ftl.zoneDescs zid).zslba + zoneLbas c) :
    ∃ state, (state = .full → (ftl.zoneDescs zid).wp + nrLba = (ftl.zoneDescs zid).zslba + (ftl.zoneDescs zid).zoneCapacity) ∧
      (increaseWritePtr c after zid nrLba).zoneDescs =
        Function.update ftl.zoneDescs zid { ftl.zoneDescs zid with wp := (ftl.zoneDescs zid).wp + nrLba, state := state } := by
  obtain ⟨opened, _, notFull, descs⟩ := admission_desc ftl after zid admitted
  have bound := zone_fits c zid inside
  have whole : u64 ((ftl.zoneDescs zid).wp + nrLba) = (ftl.zoneDescs zid).wp + nrLba := Nat.mod_eq_of_lt (by omega)
  have moved := increase_descs c after zid nrLba
  rw [descs, Function.update_self, Function.update_idem] at moved
  dsimp only at moved
  rw [whole] at moved
  refine ⟨_, ?_, moved⟩
  intro filled
  split at filled
  · rename_i atEnd
    rw [atEnd, start]
  · exact absurd filled notFull

theorem write_balanced (wb : c.zoneWbSize ≠ 0) (ftl : ZnsFtl) (req : Request) (cmd : RwCommand) (outcome : WriteOutcome)
    (balanced : AllBalanced c ftl) (permitted : balancedStep c ftl (.write req cmd))
    (ran : writePlain c ftl req cmd = .ok outcome) : AllBalanced c outcome.ftl := by
  obtain ⟨inside, ⟨_, rfl⟩ | ⟨room, rfl⟩⟩ := write_plain_cases c ftl req cmd outcome ran
  · exact balanced
  · obtain ⟨accept, place⟩ := permitted room
    have granted := (check_write_granted c ftl cmd).mpr accept
    generalize zone : writeZone c cmd = zid at *
    have own : writeBufferOf c zid = .zone zid := if_pos wb
    have here := balanced zid
    rcases write_taken_cases c (afterTaking c ftl cmd) req zid (placedSlba c ftl cmd) (nrLbasFromRwCmd cmd) with
      ⟨after, checked, done⟩ | ⟨status, after, refused, checked, done⟩
    · rw [done]
      have admitted := (check_write_admitted c _ after _ _ _ checked).2.2.2
      have within := place.inside
      unfold writtenLbas at within
      have lower := here.lower
      obtain ⟨state, filled, descs⟩ :=
        accepted_desc c _ after zid (nrLbasFromRwCmd cmd) admitted inside here.start
          (show (ftl.zoneDescs zid).wp + nrLbasFromRwCmd cmd ≤ (ftl.zoneDescs zid).zslba + zoneLbas c by omega)
      have side : bufferSide (increaseWritePtr c after zid (nrLbasFromRwCmd cmd)) = bufferSide (afterTaking c ftl cmd) :=
        (increase_buffer_side c after zid _).trans (admission_buffer_side _ after zid admitted)
      generalize increaseWritePtr c after zid (nrLbasFromRwCmd cmd) = moved at descs side
      have buffers : moved.buffers = (afterTaking c ftl cmd).buffers := congrArg BufferSide.buffers side
      have scheduled : moved.scheduled = ftl.scheduled := congrArg BufferSide.scheduled side
      have covered : moved.covered = ftl.covered := congrArg BufferSide.covered side
      have placed : placedSlba c ftl cmd = zoneToSlba c zid + writtenLbas ftl zid := by
        have pointer := accept.placed
        rw [zone] at pointer
        rw [pointer, ← here.start]
        unfold writtenLbas
        omega
      have programmed := program_write_programmed c moved req zid (writtenLbas ftl zid) (nrLbasFromRwCmd cmd) inside
        (Nat.succ_pos _) (by rw [descs, Function.update_self]; exact here.start)
        (by rw [descs, Function.update_self, ← placed, accept.placed, zone]; rfl) place.inside place.clear place.fits
        (by rw [covered]; exact here.covers) place.queue
      rw [← placed, own] at programmed
      have last := program_loop_side c (writeBufferOf c zid) zid (lbaToLpn (u64 (placedSlba c ftl cmd + nrLbasFromRwCmd cmd - 1)))
        (lbaToLpn (u64 (placedSlba c ftl cmd + nrLbasFromRwCmd cmd - 1)) + 1 - lbaToLpn (placedSlba c ftl cmd))
        (lbaToLpn (placedSlba c ftl cmd)) ⟨moved, req.freeEntries⟩
      have lastDescs : (programWrite c moved req zid (placedSlba c ftl cmd) (nrLbasFromRwCmd cmd)).ftl.zoneDescs = moved.zoneDescs :=
        congrArg ZoneSide.zoneDescs last
      have lastBuffers : (programWrite c moved req zid (placedSlba c ftl cmd) (nrLbasFromRwCmd cmd)).ftl.buffers = moved.buffers :=
        congrArg ZoneSide.buffers last
      have took : (afterTaking c ftl cmd).buffers = Function.update ftl.buffers (.zone zid)
          { ftl.buffers (.zone zid) with remaining := (ftl.buffers (.zone zid)).remaining - nrLbasFromRwCmd cmd * secsz } := by
        rw [← own, ← zone]
        rfl
      intro other
      dsimp only
      rw [lastDescs, lastBuffers, buffers, took, descs, programmed.covered, covered]
      by_cases same : other = zid
      · subst same
        rw [Function.update_self, Function.update_self, Function.update_self]
        have due := programmed.due
        rw [scheduled] at due
        have space : nrLbasFromRwCmd cmd * secsz ≤ (ftl.buffers (.zone other)).remaining := by
          unfold HasRoom at room
          rw [zone, own] at room
          exact room
        exact balanced_write c other _ _ _ _ _ (writtenLbas ftl other) _ state here rfl place.inside place.clear space filled due
      · have apart : BufferRef.zone other ≠ .zone zid := fun equal => same (BufferRef.zone.inj equal)
        rw [Function.update_of_ne same, Function.update_of_ne apart, Function.update_of_ne same, programmed.others _ apart, scheduled]
        exact balanced other
    · rw [checked] at granted
      exact absurd granted refused

theorem balance_kept (wb : c.zoneWbSize ≠ 0) : TransitionSystem.Invariant (system c) (balancedStep c) (AllBalanced c) where
  starts := by
    intro ftl init zid
    rw [show ftl = znsInitFtl c from init]
    have cover : 0 = coverPages c ((zoneToSlba c zid - zoneToSlba c zid) / secsPerPg) * secsPerPg := by
      rw [Nat.sub_self, Nat.zero_div, Nat.le_zero.mp (cover_pages_le c 0), Nat.zero_mul]
    refine ⟨rfl, rfl, rfl, le_refl _, Nat.le_add_right _ _, fun full => ?_, cover, rfl, ?_⟩
    · cases full
    · simp [znsInitFtl, dueBytes]
  keeps := by
    intro ftl next event balanced permitted taken
    cases taken with
    | write req cmd outcome ran =>
        exact write_balanced c wb ftl req cmd outcome balanced permitted
          (zns_write_plain c ftl req cmd outcome (fun zid => (balanced zid).plain) ran)
    | mgmtSend cmd status next ran => exact permitted.elim
    | release place ref bytes due => exact release_balanced c ftl place ref bytes balanced due

def ProgramsWhole (lbas : Nat) : Prop := lbas % (c.pgsPerOneshotpg * secsPerPg) = 0 ∨ lbas = zoneLbas c

theorem covered_whole (lbas : Nat) : coverPages c (lbas / secsPerPg) * secsPerPg = lbas ↔ ProgramsWhole c lbas := by
  have zone := zone_lbas_pages c
  constructor
  · intro covered
    unfold coverPages at covered
    split at covered
    · rename_i last
      exact .inr (by rw [zone, ← last, covered])
    · refine .inl ?_
      rw [← covered, Nat.mul_assoc]
      exact Nat.mul_mod_left _ _
  · rintro (whole | last)
    · obtain ⟨count, rfl⟩ := Nat.dvd_of_mod_eq_zero whole
      have pages : c.pgsPerOneshotpg * secsPerPg * count / secsPerPg = c.pgsPerOneshotpg * count := by
        rw [Nat.mul_right_comm]
        exact Nat.mul_div_cancel _ (by decide)
      have ends : ProgramEnd c (c.pgsPerOneshotpg * count) := .inl (Nat.mul_mod_right _ _)
      rw [pages, cover_pages_end c _ ends, Nat.mul_right_comm]
    · have ends : ProgramEnd c (zoneLpns c) := .inr rfl
      rw [last, zone, Nat.mul_div_cancel _ (by decide), cover_pages_end c _ ends]

end Balance

-- What is left of the buffer of a zone, what has been accepted and is in no
-- program yet, and what is still to be released.
def Conserved (ftl : ZnsFtl) (zid : Nat) : Prop :=
  (ftl.buffers (.zone zid)).remaining + (writtenLbas ftl zid - ftl.covered zid) * secsz + dueBytes (.zone zid) ftl.scheduled =
    (ftl.buffers (.zone zid)).size

def FullAndReleased (ftl : ZnsFtl) (zid : Nat) : Prop :=
  (ftl.zoneDescs zid).state = .full ∧ ∀ item ∈ ftl.scheduled, item.1 ≠ .zone zid

def KeepsRemaining (before after : ZnsFtl) : Prop :=
  ∀ zid, (after.buffers (.zone zid)).remaining = (before.buffers (.zone zid)).remaining

instance (ftl : ZnsFtl) (zid : Nat) : Decidable (Conserved ftl zid) := by
  unfold Conserved
  infer_instance

def withoutSends : Event → Prop
  | .mgmtSend _ => False
  | _ => True

theorem full_released_whole (c : ZnsParams) (ftl : ZnsFtl) (zid : Nat) (balanced : AllBalanced c ftl) (done : FullAndReleased ftl zid) :
    (ftl.buffers (.zone zid)).remaining = (ftl.buffers (.zone zid)).size ↔ ProgramsWhole c (capacityLbas c) := by
  have here := balanced zid
  have atEnd := here.full done.1
  have idle : dueBytes (.zone zid) ftl.scheduled = 0 := by
    have none : ftl.scheduled.filter (fun item => item.1 = .zone zid) = [] := by
      rw [List.filter_eq_nil_iff]
      intro item member
      simpa using done.2 item member
    unfold dueBytes
    rw [none]
    rfl
  have length : (ftl.zoneDescs zid).wp - (ftl.zoneDescs zid).zslba = capacityLbas c := by
    rw [atEnd, here.capacity]
    exact Nat.add_sub_cancel_left _ _
  have conserved := here.conserved
  have less := (Nat.mul_le_mul_right secsPerPg (cover_pages_le c (capacityLbas c / secsPerPg))).trans (Nat.div_mul_le_self _ _)
  rw [idle, here.covers, length] at conserved
  rw [← covered_whole c (capacityLbas c)]
  unfold secsz at conserved
  omega

-- A write that has room is accepted, or what it took is lost; one that ends
-- inside the last page of a program, or finds no entry for a release, upsets the
-- sum. A capacity that ends inside a one-shot page is never given back whole.
theorem zone_buffer_conserved (c : ZnsParams) (wb : c.zoneWbSize ≠ 0) (ftl : ZnsFtl) (reached : Reachable c (balancedStep c) ftl) :
    (∀ req cmd outcome, znsWrite c ftl req cmd = .ok outcome →
      ((outcome.done ≠ some .success → KeepsRemaining ftl outcome.ftl) ↔ (HasRoom c ftl cmd → Acceptable c ftl cmd))) ∧
      ∀ zid, zid < c.nrZones → Conserved ftl zid ∧
        (FullAndReleased ftl zid →
          ((ftl.buffers (.zone zid)).remaining = (ftl.buffers (.zone zid)).size ↔ ProgramsWhole c (capacityLbas c))) := by
  have balanced := TransitionSystem.reach_invariant _ _ _ (balance_kept c wb) ftl reached
  constructor
  · intro req cmd outcome ran
    exact rejected_unchanged_iff c ftl req cmd outcome wb (zns_write_plain c ftl req cmd outcome (fun zid => (balanced zid).plain) ran)
  · intro zid _
    exact ⟨(balanced zid).conserved, full_released_whole c ftl zid balanced⟩

-- A zone is filled in two writes, and its three releases are run.
theorem zone_filled_and_released : ∃ ftl : ZnsFtl, Conserved ftl 0 ∧ (ftl.zoneDescs 0).state = .full ∧
    (ftl.buffers (.zone 0)).remaining = (ftl.buffers (.zone 0)).size := by
  obtain ⟨ftl, reached, checked⟩ := run_events_check sampleParams (balancedStep sampleParams)
    (fun ftl event => match event with
      | .write req cmd =>
          let lbas := writtenLbas ftl (writeZone sampleParams cmd)
          decide ((checkWrite sampleParams (afterTaking sampleParams ftl cmd) (writeZone sampleParams cmd)
            (placedSlba sampleParams ftl cmd) (nrLbasFromRwCmd cmd)).1 = .success) &&
            decide (lbas + nrLbasFromRwCmd cmd ≤ zoneLbas sampleParams) &&
            decide (EndsClear sampleParams (lbas + nrLbasFromRwCmd cmd)) &&
            decide (programsUpTo sampleParams (pagesOf (lbas + nrLbasFromRwCmd cmd)) ≤
              programsUpTo sampleParams (lbas / secsPerPg) + req.freeEntries)
      | .release _ => true
      | .mgmtSend _ => false)
    (by
      intro ftl event permitted
      cases event with
      | write req cmd =>
          simp only [Bool.and_eq_true, decide_eq_true_eq] at permitted
          obtain ⟨⟨⟨accepted, inside⟩, clear⟩, queue⟩ := permitted
          exact fun _ => ⟨(check_write_granted sampleParams ftl cmd).mp accepted, inside, clear, queue, by decide⟩
      | mgmtSend cmd => cases permitted
      | release place => trivial)
    [writeEvent 0 7 (by decide) (by decide), writeEvent 8 15 (by decide) (by decide), .release 1, .release 0, .release 0]
    (fun ftl => decide ((ftl.zoneDescs 0).state = .full) && ftl.scheduled.isEmpty) (by decide +kernel)
  simp only [Bool.and_eq_true, decide_eq_true_eq, List.isEmpty_iff] at checked
  obtain ⟨full, idle⟩ := checked
  obtain ⟨conserved, whole⟩ := (zone_buffer_conserved sampleParams (by decide) ftl reached).2 0 (by decide)
  refine ⟨ftl, conserved, full, (whole ⟨full, ?_⟩).mpr (.inl (by decide))⟩
  intro item member
  rw [idle] at member
  cases member

def strayWrite : RwCommand := ⟨false, 8, 7, by decide, by decide⟩

def strayLeaks : Bool :=
  match znsWrite sampleParams (znsInitFtl sampleParams) ⟨8⟩ strayWrite with
  | .ok outcome => decide (outcome.done = some .znsInvalidWrite) && decide ((outcome.ftl.buffers (.zone 0)).remaining = 2 * pgsz) &&
      !decide (Conserved outcome.ftl 0)
  | .error _ => false

-- A write behind the write pointer is rejected, and its page of the buffer is gone.
theorem rejected_write_leaks : ∃ outcome, znsWrite sampleParams (znsInitFtl sampleParams) ⟨8⟩ strayWrite = .ok outcome ∧
    outcome.done = some .znsInvalidWrite ∧ ¬KeepsRemaining (znsInitFtl sampleParams) outcome.ftl ∧
    Reachable sampleParams (fun _ event => withoutSends event) outcome.ftl ∧ ¬Conserved outcome.ftl 0 := by
  have checked : strayLeaks = true := by decide +kernel
  unfold strayLeaks at checked
  cases ran : znsWrite sampleParams (znsInitFtl sampleParams) ⟨8⟩ strayWrite with
  | error stop =>
      rw [ran] at checked
      cases checked
  | ok outcome =>
      rw [ran] at checked
      simp only [Bool.and_eq_true, decide_eq_true_eq, Bool.not_eq_true', decide_eq_false_iff_not] at checked
      obtain ⟨⟨rejected, left⟩, unequal⟩ := checked
      refine ⟨outcome, rfl, rejected, ?_, .next _ _ (.write ⟨8⟩ strayWrite) (.start _ rfl) trivial (.write _ _ _ ran), unequal⟩
      intro kept
      have same := kept 0
      rw [left] at same
      exact absurd same (by decide)

end ConZone.Zns
