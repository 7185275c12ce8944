import ConZone.ConvRuns
import Mathlib.Algebra.BigOperators.Group.Finset.Basic

set_option autoImplicit false

namespace ConZone.Conv

section Room

variable (c : ConvParams) (ftl : ConvFtl) (shape : Shape) (addressable : Nat)

theorem valid_pages_bound (sound : Sound c ftl shape none unstale) (known : ∀ lpn, ftl.maptbl lpn ≠ none → lpn < addressable)
    (pages : Finset Page) (inside : ∀ page ∈ pages, InDevice c page ∧ pageStatus ftl page = .valid) : pages.card ≤ addressable := by
  have owner : ∀ page ∈ pages, ∃ lpn, ftl.rmap (ppa2pgidx c page) = some lpn ∧ ftl.maptbl lpn = some page := by
    intro page member
    obtain ⟨inDevice, valid⟩ := inside page member
    obtain ⟨lpn, _, named, mapped⟩ := sound.maps.valid page inDevice id valid
    exact ⟨lpn, named, mapped⟩
  have fits : pages.card ≤ (Finset.range addressable).card := by
    apply Finset.card_le_card_of_injOn fun page => (ftl.rmap (ppa2pgidx c page)).getD 0
    · intro page member
      obtain ⟨lpn, named, mapped⟩ := owner page (Finset.mem_coe.mp member)
      dsimp only
      rw [named, Option.getD_some]
      exact Finset.mem_coe.mpr (Finset.mem_range.mpr (known lpn (by rw [mapped]; simp)))
    · intro page member other otherMember same
      obtain ⟨lpn, named, mapped⟩ := owner page (Finset.mem_coe.mp member)
      obtain ⟨otherLpn, otherNamed, otherMapped⟩ := owner other (Finset.mem_coe.mp otherMember)
      dsimp only at same
      rw [named, otherNamed, Option.getD_some, Option.getD_some] at same
      rw [same, otherMapped] at mapped
      exact (Option.some.inj mapped).symm
  rw [Finset.card_range] at fits
  exact fits

theorem full_pages_bound (whole : WholeLines c) (sound : Sound c ftl shape none unstale)
    (known : ∀ lpn, ftl.maptbl lpn ≠ none → lpn < addressable) : shape.full.length * pgsPerLine c ≤ addressable := by
  have below : ∀ id ∈ shape.full.toFinset, shape.place id = .full ∧ id < c.blksPerPl := by
    intro id member
    have placed := (sound.owned.inFull id).mp (List.mem_toFinset.mp member)
    exact ⟨placed, placed_below c _ _ _ _ sound.owned id _ placed (by decide)⟩
  have bounded := valid_pages_bound c ftl shape addressable sound known (shape.full.toFinset.biUnion (linePages c)) fun page member => by
    obtain ⟨id, inFull, inLine⟩ := Finset.mem_biUnion.mp member
    obtain ⟨placed, bound⟩ := below id inFull
    exact ⟨((mem_line_pages c id bound page).mp inLine).1, sound.filled.full id placed page inLine⟩
  rw [Finset.card_biUnion, Finset.sum_congr rfl fun id _ => line_pages_card c id, Finset.sum_const,
    List.toFinset_card_of_nodup (ring_nodup _ _ _ sound.owned.fullRing), span_whole c whole] at bounded
  · exact bounded
  · intro id inFull other otherFull apart
    rw [Function.onFun, Finset.disjoint_left]
    intro page member otherMember
    have line := ((mem_line_pages c id (below id inFull).2 page).mp member).2
    have otherLine := ((mem_line_pages c other (below other otherFull).2 page).mp otherMember).2
    exact apart (line.symm.trans otherLine)

theorem lines_listed (sound : Sound c ftl shape none unstale) (noneOut : ∀ id, shape.place id ≠ .out)
    (noVictim : ∀ id, shape.place id ≠ .victim) : c.blksPerPl ≤ shape.free.length + shape.full.length + 2 := by
  have covered : Finset.range c.blksPerPl ⊆ (shape.cur .user :: shape.cur .gc :: (shape.free ++ shape.full)).toFinset := by
    intro id member
    rw [List.mem_toFinset, List.mem_cons, List.mem_cons, List.mem_append]
    cases placed : shape.place id with
    | free => exact .inr (.inr (.inl ((sound.owned.inFree id).mpr placed)))
    | full => exact .inr (.inr (.inr ((sound.owned.inFull id).mpr placed)))
    | victim => exact absurd placed (noVictim id)
    | user => exact .inl ((sound.active .userIo id).mp placed)
    | gc => exact .inr (.inl ((sound.active .gcIo id).mp placed))
    | out => exact absurd placed (noneOut id)
    | beyond => exact absurd placed ((sound.owned.bound id).mpr (Finset.mem_range.mp member))
  have fits := (Finset.card_le_card covered).trans (List.toFinset_card_le _)
  rw [Finset.card_range, List.length_cons, List.length_cons, List.length_append] at fits
  omega

theorem victim_found (whole : WholeLines c) (steady : Steady c ftl shape) (enough : addressable < (ttLines c - 4) * pgsPerLine c)
    (known : ∀ lpn, ftl.maptbl lpn ≠ none → lpn < addressable) (low : shape.free.length ≤ 2) : ¬∀ id, shape.place id ≠ .victim := by
  intro noVictim
  have listed := lines_listed c ftl shape steady.sound steady.noneOut noVictim
  have bounded := full_pages_bound c ftl shape addressable whole steady.sound known
  have more : ttLines c - 4 ≤ shape.full.length := by
    rw [lines_whole c whole]
    omega
  have less := Nat.mul_le_mul_right (pgsPerLine c) more
  omega

end Room

section Credits

variable (c : ConvParams) (ftl : ConvFtl) (shape : Shape) (addressable lpn : Nat)

-- The stock exceeds the credits by two lines: one that a collection may fill, one
-- that the pointers may have begun.
structure Spent : Prop where
  steady : Steady c ftl shape
  credits : ftl.writeCredits ≤ pgsPerLine c
  refill : 1 ≤ ftl.creditsToRefill ∧ ftl.creditsToRefill ≤ pgsPerLine c
  surplus : ftl.writeCredits + 2 * pgsPerLine c ≤ stock c shape
  collects : ftl.gcMissed = false
  unwrapped : ftl.creditsWrapped = false
  known : ∀ lpn, ftl.maptbl lpn ≠ none → lpn < addressable

structure Credited : Prop extends Spent c ftl shape addressable where
  positive : 1 ≤ ftl.writeCredits

theorem line_positive (whole : WholeLines c) : 0 < pgsPerLine c := by
  rw [← span_whole c whole]
  exact Nat.mul_pos c.lunsPositive (pgs_per_blk_positive c)

theorem addressable_mapped (whole : WholeLines c) (enough : addressable < (ttLines c - 4) * pgsPerLine c) : addressable < ttPgs c := by
  have total : ttPgs c = ttLines c * pgsPerLine c := by
    rw [lines_whole c whole, ← span_whole c whole]
    unfold ttPgs pgsPerCh pgsPerLun pgsPerPl spanPages
    ring
  have less := Nat.mul_le_mul_right (pgsPerLine c) (Nat.sub_le (ttLines c) 4)
  omega

theorem consume_credits (some : 1 ≤ ftl.writeCredits) (small : ftl.writeCredits < 2 ^ 32) :
    consumeWriteCredit ftl = { ftl with writeCredits := ftl.writeCredits - 1 } := by
  have taken : u32 (ftl.writeCredits + 2 ^ 32 - 1) = ftl.writeCredits - 1 := by
    unfold u32
    omega
  have left : (ftl.writeCredits == 0) = false := by
    rw [beq_eq_false_iff_ne]
    omega
  unfold consumeWriteCredit
  rw [taken, left, Bool.or_false]

theorem stock_free (free : 3 ≤ shape.free.length) : 3 * pgsPerLine c ≤ stock c shape := by
  have lines := Nat.mul_le_mul_right (pgsPerLine c) free
  unfold stock
  omega

theorem refill_credited (whole : WholeLines c) (enough : addressable < (ttLines c - 4) * pgsPerLine c)
    (spent : Spent c ftl shape addressable) :
    ∃ next after, checkAndRefillWriteCredit c ftl = .ok next ∧ Credited c next after addressable := by
  have small := c.lineFits
  change pgsPerLine c < 2 ^ 31 at small
  have surplus := spent.surplus
  unfold checkAndRefillWriteCredit
  by_cases out : ftl.writeCredits = 0
  · rw [if_pos out]
    unfold foregroundGc shouldGcHigh
    by_cases low : ftl.lm.freeLineCnt ≤ gcThresLinesHigh
    · rw [decide_eq_true low, if_pos rfl]
      rw [spent.steady.sound.owned.freeCnt] at low
      rcases do_gc_sound c ftl shape whole spent.steady with ⟨_, noVictim⟩ | ⟨next, after, ran, reclaimed⟩ | ⟨_, short⟩
      · exact absurd noVictim (victim_found c ftl shape addressable whole spent.steady enough spent.known low)
      · have credits : u32 (next.writeCredits + next.creditsToRefill) = next.creditsToRefill := by
          have range := reclaimed.refill
          rw [reclaimed.writeCredits, out]
          unfold u32
          omega
        rw [ran, ok_bind, credits]
        refine ⟨_, after, rfl, ⟨credits_steady c next after _ _ _ _ reclaimed.steady, reclaimed.refill.2, reclaimed.refill, ?_,
          reclaimed.gcMissed.trans spent.collects, reclaimed.creditsWrapped.trans spent.unwrapped, ?_⟩, reclaimed.refill.1⟩
        · have grown := reclaimed.stock
          dsimp only
          omega
        · exact fun lpn mapped => spent.known lpn fun none => mapped ((reclaimed.mapped lpn).mpr none)
      · exact absurd short (by omega)
    · have free : 3 ≤ shape.free.length := by
        rw [spent.steady.sound.owned.freeCnt] at low
        unfold gcThresLinesHigh at low
        omega
      have plenty := stock_free c shape free
      have range := spent.refill
      have credits : u32 (ftl.writeCredits + ftl.creditsToRefill) = ftl.creditsToRefill := by
        rw [out]
        unfold u32
        omega
      rw [decide_eq_false low, if_neg (by decide), ok_bind, credits]
      refine ⟨_, shape, rfl, ⟨credits_steady c ftl shape _ _ _ _ spent.steady, spent.refill.2, spent.refill, ?_, spent.collects,
        spent.unwrapped, spent.known⟩, spent.refill.1⟩
      dsimp only
      omega
  · rw [if_neg out]
    exact ⟨ftl, shape, rfl, spent, by omega⟩

theorem write_page_credited (whole : WholeLines c) (enough : addressable < (ttLines c - 4) * pgsPerLine c)
    (credited : Credited c ftl shape addressable) (bound : lpn < addressable) :
    ∃ page next after, writePage c ftl lpn = .ok (page, next) ∧ Credited c next after addressable := by
  have small := c.lineFits
  change pgsPerLine c < 2 ^ 31 at small
  have surplus := credited.surplus
  have credits := credited.credits
  have positive := credited.positive
  have mapped := addressable_mapped c addressable whole enough
  obtain ⟨dropped, between, drops, parted, result⟩ := overwrite_sound c ftl shape lpn whole credited.steady (by omega)
  rcases result with ⟨next, after, ran, placed, steady⟩ | ⟨_, noFree, last⟩
  · have first := parted.credits
    have second := placed.credits
    have stockSame : stock c between = stock c shape := by
      unfold stock
      rw [parted.free, parted.used]
    have used := placed.stock
    have nextCredits : next.writeCredits = ftl.writeCredits := second.writeCredits.trans first.writeCredits
    have consumed := consume_credits next (by omega) (by omega)
    have refillSame : next.creditsToRefill = ftl.creditsToRefill := second.creditsToRefill.trans first.creditsToRefill
    have spent : Spent c (consumeWriteCredit next) after addressable := by
      rw [consumed]
      refine ⟨credits_steady c next after _ _ _ _ steady, ?_, ?_, ?_, second.gcMissed.trans (first.gcMissed.trans credited.collects),
        second.creditsWrapped.trans (first.creditsWrapped.trans credited.unwrapped), ?_⟩
      · dsimp only
        omega
      · dsimp only
        rw [refillSame]
        exact credited.refill
      · dsimp only
        omega
      · intro other isMapped
        dsimp only at isMapped
        rw [placed.maptbl, parted.maptbl] at isMapped
        by_cases here : other = lpn
        · rw [here]
          exact bound
        · rw [Function.update_of_ne here] at isMapped
          exact credited.known other isMapped
    obtain ⟨final, lastShape, refilled, done⟩ := refill_credited c _ after addressable whole enough spent
    refine ⟨wpPage (getWp dropped .userIo), final, lastShape, ?_, done⟩
    unfold writePage
    rw [drops, ok_bind, ran, ok_bind]
    dsimp only
    rw [refilled]
    rfl
  · have lines := line_positive c whole
    have room : stock c shape = (pgsPerLine c - shape.used .user) + (pgsPerLine c - shape.used .gc) := by
      unfold stock
      rw [noFree, List.length_nil, Nat.zero_mul, Nat.zero_add]
    omega

end Credits

end ConZone.Conv
