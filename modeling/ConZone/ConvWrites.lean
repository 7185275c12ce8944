import ConZone.ConvGc

set_option autoImplicit false

namespace ConZone.Conv

section Steady

variable (c : ConvParams)

structure Steady (ftl : ConvFtl) (shape : Shape) : Prop where
  sound : Sound c ftl shape none unstale
  rest : AtRest c ftl shape
  noneOut : ∀ id, shape.place id ≠ .out

theorem steady_same (ftl next : ConvFtl) (shape : Shape) (nand : next.nand = ftl.nand) (maptbl : next.maptbl = ftl.maptbl)
    (rmap : next.rmap = ftl.rmap) (lm : next.lm = ftl.lm) (wp : next.wp = ftl.wp) (gcWp : next.gcWp = ftl.gcWp)
    (steady : Steady c ftl shape) : Steady c next shape := by
  obtain ⟨_, _, _, _, _, _, _, _, _, _⟩ := ftl
  obtain ⟨_, _, _, _, _, _, _, _, _, _⟩ := next
  dsimp only at nand maptbl rmap lm wp gcWp
  subst nand maptbl rmap lm wp gcWp
  have sound := steady.sound
  exact ⟨⟨⟨sound.maps.mapped, sound.maps.valid⟩, ⟨sound.counts.block, sound.counts.line⟩, sound.owned, sound.active, sound.standing,
    sound.filled⟩, steady.rest, steady.noneOut⟩

theorem credits_steady (ftl : ConvFtl) (shape : Shape) (writeCredits creditsToRefill : Nat) (gcMissed creditsWrapped : Bool)
    (steady : Steady c ftl shape) :
    Steady c { ftl with writeCredits := writeCredits, creditsToRefill := creditsToRefill, gcMissed := gcMissed,
                        creditsWrapped := creditsWrapped } shape :=
  steady_same c ftl _ shape rfl rfl rfl rfl rfl rfl steady

end Steady

section Collect

variable (c : ConvParams) (ftl : ConvFtl) (shape : Shape)

structure Reclaimed (next : ConvFtl) (after : Shape) : Prop where
  steady : Steady c next after
  writeCredits : next.writeCredits = ftl.writeCredits
  creditsWrapped : next.creditsWrapped = ftl.creditsWrapped
  gcMissed : next.gcMissed = ftl.gcMissed
  mapped : ∀ lpn, next.maptbl lpn = none ↔ ftl.maptbl lpn = none
  refill : 1 ≤ next.creditsToRefill ∧ next.creditsToRefill ≤ pgsPerLine c
  stock : stock c after = stock c shape + next.creditsToRefill

theorem collected_stock (victim : Nat) : stock c (collected shape victim) = stock c shape + pgsPerLine c := by
  unfold stock collected
  dsimp only
  rw [List.length_append, List.length_singleton, Nat.add_mul, Nat.one_mul]
  omega

theorem victim_counts (whole : WholeLines c) (steady : Steady c ftl shape) (victim : Nat) (wasVictim : shape.place victim = .victim) :
    ∃ invalid, (ftl.lm.lines victim).ipc = (invalid : Nat) ∧ 1 ≤ invalid ∧ invalid ≤ pgsPerLine c ∧
      validIn (pageStatus ftl) (pagesOf c victim (gcTurns c)) + invalid = pgsPerLine c := by
  have sound := steady.sound
  have bound := placed_below c _ _ _ _ sound.owned victim _ wasVictim (by decide)
  obtain ⟨used, page, member, invalid⟩ := sound.filled.victim victim wasVictim
  have positive := Tally.census_positive (linePages c victim) (pageStatus ftl) page member
  have whole' := Tally.census_pair_whole (linePages c victim) (pageStatus ftl) .valid .invalid (by decide) fun other otherMember => by
    cases entry : pageStatus ftl other with
    | free => exact absurd entry (used other otherMember)
    | invalid => exact .inr rfl
    | valid => exact .inl rfl
  rw [invalid] at positive
  rw [line_pages_card, span_whole c whole, ← valid_in_all c victim bound] at whole'
  exact ⟨_, (sound.counts.line victim bound (steady.noneOut victim)).ipc, positive, by omega, whole'⟩

theorem do_gc_sound (whole : WholeLines c) (steady : Steady c ftl shape) :
    (doGc c ftl true = .ok { ftl with gcMissed := true } ∧ ∀ id, shape.place id ≠ .victim) ∨
    (∃ next after, doGc c ftl true = .ok next ∧ Reclaimed c ftl shape next after) ∨
    (doGc c ftl true = .error .nullDeref ∧ stock c shape < 2 * pgsPerLine c) := by
  have sound := steady.sound
  cases peeked : IndexedHeap.pqueuePeek (victimHeap ftl.lm) with
  | none =>
      refine .inl ⟨?_, ?_⟩
      · unfold doGc selectVictimLine
        rw [peeked]
      · have empty := (IndexedHeap.peek_none _ _ sound.owned.heap).mp peeked
        intro id isVictim
        have member : id ∈ {id | shape.place id = .victim} := isVictim
        rw [empty] at member
        exact member
  | some victim =>
      obtain ⟨wasVictim, start⟩ := select_sound c ftl shape victim sound steady.rest steady.noneOut peeked
      obtain ⟨invalid, ipc, some, atMost, counted⟩ := victim_counts c ftl shape whole steady victim wasVictim
      have bound := placed_below c _ _ _ _ sound.owned victim _ wasVictim (by decide)
      have small := c.lineFits
      change pgsPerLine c < 2 ^ 31 at small
      have refill : (selectedFtl ftl victim).creditsToRefill = invalid := by
        change u32 ((ftl.lm.lines victim).ipc % 2 ^ 32).toNat = invalid
        rw [ipc]
        unfold u32
        omega
      have kept : (selectedFtl ftl victim).gcMissed = ftl.gcMissed := by
        change (ftl.gcMissed || decide ((ftl.lm.lines victim).ipc < 1)) = ftl.gcMissed
        rw [ipc, decide_eq_false (by omega), Bool.or_false]
      have erased : Erased c (selectedFtl ftl victim) victim (gcTurns c) := by
        intro ch lun chBound lunBound absent
        have positive := flashpgs_positive c
        exact absurd ((mem_gc_turns c _).mpr ⟨Nat.sub_lt positive (by decide), chBound, lunBound⟩) absent
      refine .inr ?_
      rw [do_gc_run c ftl victim peeked]
      rcases gc_loop_sound c _ _ _ victim _ _ _ whole _ (List.suffix_refl _) start erased with
        ⟨next, after, ran, done, allErased⟩ | ⟨stopped, short⟩
      · rw [ran]
        have finished := finish_sound c next after _ victim _ _ _ bound done allErased
        refine .inl ⟨_, collected after victim, rfl, ⟨finished, done.rest, ?_⟩, done.credits.writeCredits, done.credits.creditsWrapped, ?_,
          done.mapped, ?_, ?_⟩
        · intro id out
          rcases (move_leaves after.place victim .free .out (by decide) id).mp out with ⟨apart, wasOut⟩
          exact apart ((done.out id).mp wasOut)
        · exact done.credits.gcMissed.trans kept
        · have same : (markLineFree next victim).creditsToRefill = invalid := done.credits.creditsToRefill.trans refill
          rw [same]
          exact ⟨some, atMost⟩
        · have same : (markLineFree next victim).creditsToRefill = invalid := done.credits.creditsToRefill.trans refill
          have account := done.stock
          rw [same, collected_stock]
          unfold validIn at account counted
          rw [List.countP_nil] at account
          omega
      · rw [stopped]
        refine .inr ⟨rfl, ?_⟩
        omega

end Collect

section Write

theorem ok_bind {α β : Type} (value : α) (next : α → Exec β) : ((.ok value : Exec α) >>= next) = next value := rfl

variable (c : ConvParams) (ftl : ConvFtl) (shape : Shape) (lpn : Nat)

theorem refill_sound (whole : WholeLines c) (steady : Steady c ftl shape) :
    (∃ next after, checkAndRefillWriteCredit c ftl = .ok next ∧ Steady c next after) ∨
      checkAndRefillWriteCredit c ftl = .error .nullDeref := by
  unfold checkAndRefillWriteCredit foregroundGc
  split
  · split
    · rcases do_gc_sound c ftl shape whole steady with ⟨missed, _⟩ | ⟨next, after, ran, reclaimed⟩ | ⟨stopped, _⟩
      · rw [missed]
        exact .inl ⟨_, shape, rfl, credits_steady c ftl shape _ _ _ _ steady⟩
      · rw [ran]
        exact .inl ⟨_, after, rfl, credits_steady c next after _ _ _ _ reclaimed.steady⟩
      · rw [stopped]
        exact .inr rfl
    · exact .inl ⟨_, shape, rfl, credits_steady c ftl shape _ _ _ _ steady⟩
  · exact .inl ⟨ftl, shape, rfl, steady⟩

theorem overwrite_sound (whole : WholeLines c) (steady : Steady c ftl shape) (bound : lpn < ttPgs c) :
    ∃ dropped between, invalidateOld c ftl lpn = .ok dropped ∧ Dropped c ftl shape lpn unstale dropped between ∧
      ((∃ next after, placePage c dropped .userIo lpn = .ok (wpPage (getWp dropped .userIo), next) ∧
          Placed c dropped between lpn unstale .userIo next after ∧ Steady c next after) ∨
        (placePage c dropped .userIo lpn = .error .nullDeref ∧ shape.free = [] ∧ shape.used .user + 1 = pgsPerLine c)) := by
  obtain ⟨dropped, between, drops, parted⟩ := invalidate_old_sound c ftl shape lpn unstale whole steady.sound steady.rest steady.noneOut
  refine ⟨dropped, between, drops, parted, ?_⟩
  rcases place_page_sound c dropped between lpn unstale .userIo whole parted.sound parted.rest bound id with
    ⟨next, after, ran, placed⟩ | ⟨stopped, noFree, last⟩
  · refine .inl ⟨next, after, ran, placed, placed.sound, placed.rest, fun id out => ?_⟩
    exact steady.noneOut id ((parted.out id).mp ((placed.out id).mp out))
  · refine .inr ⟨stopped, by rw [← parted.free]; exact noFree, ?_⟩
    rw [← parted.used]
    exact last

theorem consume_steady (steady : Steady c ftl shape) : Steady c (consumeWriteCredit ftl) shape := by
  obtain ⟨credits, wrapped, same⟩ : ∃ credits wrapped,
      consumeWriteCredit ftl = { ftl with writeCredits := credits, creditsWrapped := wrapped } := ⟨_, _, rfl⟩
  rw [same]
  exact credits_steady c ftl shape credits _ _ wrapped steady

theorem write_page_sound (whole : WholeLines c) (steady : Steady c ftl shape) (bound : lpn < ttPgs c) :
    (∃ page next after, writePage c ftl lpn = .ok (page, next) ∧ Steady c next after) ∨ writePage c ftl lpn = .error .nullDeref := by
  obtain ⟨dropped, between, drops, _, result⟩ := overwrite_sound c ftl shape lpn whole steady bound
  have first : writePage c ftl lpn = (placePage c dropped .userIo lpn >>= fun placed =>
      checkAndRefillWriteCredit c (consumeWriteCredit placed.2) >>= fun last => pure (placed.1, last)) := by
    unfold writePage
    rw [drops]
    rfl
  rw [first]
  rcases result with ⟨next, after, ran, _, nextSteady⟩ | ⟨stopped, _⟩
  · have consumed := consume_steady c next after nextSteady
    rw [ran, ok_bind, show (wpPage (getWp dropped .userIo), next).2 = next from rfl]
    rcases refill_sound c _ after whole consumed with ⟨last, final, refilled, lastSteady⟩ | stopped
    · rw [refilled]
      exact .inl ⟨_, last, final, rfl, lastSteady⟩
    · rw [stopped]
      exact .inr rfl
  · rw [stopped]
    exact .inr rfl

end Write

end ConZone.Conv
