import ConZone.ConvOverwrite
import Mathlib.Data.List.Pairwise

set_option autoImplicit false

namespace ConZone.Conv

section Turns

variable (c : ConvParams)

theorem flash_positive : 0 < c.pgsPerFlashpg := Nat.pos_of_mul_pos_left (oneshot_positive c)

theorem flashpgs_pages : flashpgsPerBlk c * c.pgsPerFlashpg = pgsPerBlk c := by
  unfold flashpgsPerBlk pgsPerBlk pgsPerOneshotpg
  ring

def pagesOf (victim : Nat) (turns : List (Nat × Nat × Nat)) : List Page := turns.flatMap fun turn => flashPages c (turnPage c victim turn)

def turnOf (page : Page) : Nat × Nat × Nat := (page.pg / c.pgsPerFlashpg, page.block.plane.ch, page.block.plane.lun)

theorem mem_flash_pages (victim : Nat) (turn : Nat × Nat × Nat) (page : Page) :
    page ∈ flashPages c (turnPage c victim turn) ↔ page.block.blk = victim ∧ page.block.plane.pl = 0 ∧ turnOf c page = turn := by
  have positive := flash_positive c
  obtain ⟨flashpg, ch, lun⟩ := turn
  unfold flashPages turnPage turnOf
  rw [List.mem_map]
  constructor
  · rintro ⟨i, inside, rfl⟩
    refine ⟨rfl, rfl, ?_⟩
    dsimp only
    rw [Radix.div_digit flashpg i c.pgsPerFlashpg (List.mem_range.mp inside)]
  · rintro ⟨blk, pl, same⟩
    obtain ⟨⟨⟨pageCh, pageLun, pagePl⟩, pageBlk⟩, pg⟩ := page
    dsimp only at blk pl same
    rw [Prod.mk.injEq, Prod.mk.injEq] at same
    obtain ⟨high, rfl, rfl⟩ := same
    refine ⟨pg % c.pgsPerFlashpg, List.mem_range.mpr (Nat.mod_lt _ positive), ?_⟩
    dsimp only
    rw [← high, Radix.digits, blk, pl]

theorem mem_pages_of (victim : Nat) (turns : List (Nat × Nat × Nat)) (page : Page) :
    page ∈ pagesOf c victim turns ↔ page.block.blk = victim ∧ page.block.plane.pl = 0 ∧ turnOf c page ∈ turns := by
  unfold pagesOf
  rw [List.mem_flatMap]
  constructor
  · rintro ⟨turn, member, inside⟩
    obtain ⟨blk, pl, same⟩ := (mem_flash_pages c victim turn page).mp inside
    exact ⟨blk, pl, by rw [same]; exact member⟩
  · rintro ⟨blk, pl, member⟩
    exact ⟨turnOf c page, member, (mem_flash_pages c victim _ page).mpr ⟨blk, pl, rfl⟩⟩

theorem mem_gc_turns (turn : Nat × Nat × Nat) :
    turn ∈ gcTurns c ↔ turn.1 < flashpgsPerBlk c ∧ turn.2.1 < c.nchs ∧ turn.2.2 < c.lunsPerCh := by
  obtain ⟨flashpg, ch, lun⟩ := turn
  unfold gcTurns
  simp only [List.mem_flatMap, List.mem_map, List.mem_range, Prod.mk.injEq]
  constructor
  · rintro ⟨_, flashBound, _, chBound, _, lunBound, rfl, rfl, rfl⟩
    exact ⟨flashBound, chBound, lunBound⟩
  · rintro ⟨flashBound, chBound, lunBound⟩
    exact ⟨flashpg, flashBound, ch, chBound, lun, lunBound, rfl, rfl, rfl⟩

theorem turn_in_gc_turns (page : Page) (inside : InDevice c page) : turnOf c page ∈ gcTurns c := by
  rw [mem_gc_turns]
  refine ⟨?_, inside.ch, inside.lun⟩
  apply Nat.div_lt_of_lt_mul
  rw [Nat.mul_comm, flashpgs_pages]
  exact inside.pg

theorem pages_in_device (victim : Nat) (bound : victim < c.blksPerPl) (turns : List (Nat × Nat × Nat))
    (valid : ∀ turn ∈ turns, turn ∈ gcTurns c) (page : Page) (member : page ∈ pagesOf c victim turns) : InDevice c page := by
  obtain ⟨blk, pl, inTurns⟩ := (mem_pages_of c victim turns page).mp member
  obtain ⟨flashBound, ch, lun⟩ := (mem_gc_turns c _).mp (valid _ inTurns)
  refine ⟨ch, lun, pl, by rw [blk]; exact bound, ?_⟩
  rw [← flashpgs_pages, ← Radix.digits page.pg c.pgsPerFlashpg]
  exact Radix.pair_bound _ _ _ _ flashBound (Nat.mod_lt _ (flash_positive c))

theorem gc_turns_nodup : (gcTurns c).Nodup := by
  unfold gcTurns
  rw [List.nodup_flatMap]
  refine ⟨fun flashpg _ => ?_, ?_⟩
  · rw [List.nodup_flatMap]
    refine ⟨fun ch _ => ?_, ?_⟩
    · apply List.nodup_range.map
      intro lun other same
      exact congrArg (fun turn => turn.2.2) same
    · apply List.nodup_range.imp
      intro ch other apart turn first second
      obtain ⟨_, _, rfl⟩ := List.mem_map.mp first
      obtain ⟨_, _, same⟩ := List.mem_map.mp second
      exact apart (congrArg (fun turn => turn.2.1) same).symm
  · apply List.nodup_range.imp
    intro flashpg other apart turn first second
    obtain ⟨_, _, inner⟩ := List.mem_flatMap.mp first
    obtain ⟨_, _, rfl⟩ := List.mem_map.mp inner
    obtain ⟨_, _, otherInner⟩ := List.mem_flatMap.mp second
    obtain ⟨_, _, same⟩ := List.mem_map.mp otherInner
    exact apart (congrArg Prod.fst same).symm

theorem gc_turns_rise : (gcTurns c).Pairwise fun turn later => turn.1 ≤ later.1 := by
  unfold gcTurns
  rw [List.pairwise_flatMap]
  have level : ∀ flashpg : Nat, ∀ turn ∈ (List.range c.nchs).flatMap fun ch =>
      (List.range c.lunsPerCh).map fun lun => (flashpg, ch, lun), turn.1 = flashpg := by
    intro flashpg turn member
    obtain ⟨_, _, inner⟩ := List.mem_flatMap.mp member
    obtain ⟨_, _, rfl⟩ := List.mem_map.mp inner
    rfl
  refine ⟨fun flashpg _ => ?_, ?_⟩
  · apply List.pairwise_iff_forall_sublist.mpr
    intro turn later both
    have first := level flashpg turn (both.subset (by simp))
    have second := level flashpg later (both.subset (by simp))
    rw [first, second]
  · apply List.pairwise_lt_range.imp
    intro flashpg other below turn first later second
    rw [level flashpg turn first, level other later second]
    exact Nat.le_of_lt below

theorem pages_of_nodup (victim : Nat) (turns : List (Nat × Nat × Nat)) (nodup : turns.Nodup) : (pagesOf c victim turns).Nodup := by
  unfold pagesOf
  rw [List.nodup_flatMap]
  refine ⟨fun turn _ => ?_, ?_⟩
  · unfold flashPages
    apply List.nodup_range.map
    intro i other same
    exact Nat.add_left_cancel (congrArg Page.pg same)
  · apply nodup.imp
    intro turn other apart page first second
    obtain ⟨_, _, rfl⟩ := (mem_flash_pages c victim turn page).mp first
    obtain ⟨_, _, same⟩ := (mem_flash_pages c victim other page).mp second
    exact apart same

theorem all_pages (victim : Nat) (bound : victim < c.blksPerPl) (page : Page) :
    page ∈ pagesOf c victim (gcTurns c) ↔ page ∈ linePages c victim := by
  rw [mem_line_pages c victim bound]
  constructor
  · intro member
    exact ⟨pages_in_device c victim bound _ (fun _ inside => inside) page member, ((mem_pages_of c victim _ page).mp member).1⟩
  · rintro ⟨inside, blk⟩
    exact (mem_pages_of c victim _ page).mpr ⟨blk, inside.pl, turn_in_gc_turns c page inside⟩

def validIn (status : Page → PageStatus) (pages : List Page) : Nat := pages.countP fun page => status page = .valid

theorem valid_in_all (victim : Nat) (bound : victim < c.blksPerPl) (status : Page → PageStatus) :
    validIn status (pagesOf c victim (gcTurns c)) = Tally.census (linePages c victim) status .valid := by
  have same : (pagesOf c victim (gcTurns c)).toFinset = linePages c victim := by
    ext page
    rw [List.mem_toFinset]
    exact all_pages c victim bound page
  unfold validIn Tally.census
  rw [← same, List.countP_eq_length_filter, ← List.toFinset_card_of_nodup ((pages_of_nodup c victim _ (gc_turns_nodup c)).filter _),
    List.toFinset_filter]
  simp only [decide_eq_true_eq]

end Turns

end ConZone.Conv
