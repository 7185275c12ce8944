import ConZone.ZoneFlush
import ConZone.OutOfRange

set_option autoImplicit false

namespace ConZone

def held (buffer : Buffer) : Option Nat × List Nat × Nat := (buffer.zid, buffer.lpns, buffer.flushData)

-- Where the pages written to the zones are: the first ones of a zone on the
-- medium, those behind them in its only buffer.
structure Spread (p : Params) (ftl : ZmsFtl) (mapped buffered : Nat → Nat) : Prop where
  filled : ∀ zid, zid < p.zpp.nrZones → ZoneFilled p ftl zid (mapped zid)
  fits : ∀ zid, zid < p.zpp.nrZones → mapped zid + buffered zid ≤ p.zpp.pgsPerZone
  own : ∀ index, index < p.zpp.nrWb → ∀ zid, (ftl.writeBuffer index).zid = some zid → zid < p.zpp.nrZones ∧
    (ftl.writeBuffer index).lpns = (List.range' (mapped zid) (buffered zid)).map fun i => zoneToSlpn p zid + i
  free : ∀ index, index < p.zpp.nrWb → (ftl.writeBuffer index).zid = none → (ftl.writeBuffer index).lpns = []
  sized : ∀ index, index < p.zpp.nrWb → (ftl.writeBuffer index).flushData = pgsz * (ftl.writeBuffer index).pgs
  alone : ∀ index other zid, index < p.zpp.nrWb → other < p.zpp.nrWb → (ftl.writeBuffer index).zid = some zid →
    (ftl.writeBuffer other).zid = some zid → index = other
  rest : ∀ zid, (∀ index, index < p.zpp.nrWb → (ftl.writeBuffer index).zid ≠ some zid) → buffered zid = 0
  aggs : p.zpp.nsType = .tlc → ∀ zid, ftl.zoneAggLpns zid = []

section Keeping

variable (p : Params) (mapped buffered : Nat → Nat)

theorem spread_kept (before after : ZmsFtl) (maps : SameMaps before after)
    (buffers : ∀ index, held (after.writeBuffer index) = held (before.writeBuffer index)) (aggs : after.zoneAggLpns = before.zoneAggLpns)
    (spread : Spread p before mapped buffered) : Spread p after mapped buffered := by
  have zid : ∀ index, (after.writeBuffer index).zid = (before.writeBuffer index).zid := fun index => congrArg Prod.fst (buffers index)
  have lpns : ∀ index, (after.writeBuffer index).lpns = (before.writeBuffer index).lpns := fun index =>
    congrArg (fun contents => contents.2.1) (buffers index)
  have data : ∀ index, (after.writeBuffer index).flushData = (before.writeBuffer index).flushData := fun index =>
    congrArg (fun contents => contents.2.2) (buffers index)
  refine ⟨?_, spread.fits, ?_, ?_, ?_, ?_, ?_, ?_⟩
  · intro zid inside i bound
    rw [same_maps_mapped p before after maps]
    exact spread.filled zid inside i bound
  · intro index bound
    rw [zid, lpns]
    exact spread.own index bound
  · intro index bound
    rw [zid, lpns]
    exact spread.free index bound
  · intro index bound
    rw [data, Buffer.pgs, lpns]
    exact spread.sized index bound
  · intro index other
    rw [zid, zid]
    exact spread.alone index other
  · intro other none
    refine spread.rest other fun index bound => ?_
    rw [← zid]
    exact none index bound
  · rw [aggs]
    exact spread.aggs

variable (ftl : ZmsFtl) (spread : Spread p ftl mapped buffered)

theorem held_put (index : Nat) (buffer : Buffer) (same : held buffer = held (ftl.writeBuffer index)) (other : Nat) :
    held ((putBuffer ftl index buffer).writeBuffer other) = held (ftl.writeBuffer other) := by
  by_cases here : other = index
  · rw [here, show (putBuffer ftl index buffer).writeBuffer index = buffer from Function.update_self ..]
    exact same
  · rw [show (putBuffer ftl index buffer).writeBuffer other = ftl.writeBuffer other from Function.update_of_ne here ..]

include spread in
theorem empty_buffer (index : Nat) (bound : index < p.zpp.nrWb) (empty : (ftl.writeBuffer index).flushData = 0) :
    (ftl.writeBuffer index).lpns = [] := by
  have sized := spread.sized index bound
  rw [empty] at sized
  unfold pgsz Buffer.pgs at sized
  exact List.length_eq_zero_iff.mp (by omega)

include spread in
theorem buffered_pgs (index zid : Nat) (bound : index < p.zpp.nrWb) (own : (ftl.writeBuffer index).zid = some zid) :
    (ftl.writeBuffer index).pgs = buffered zid := by
  rw [Buffer.pgs, (spread.own index bound zid own).2, List.length_map, List.length_range']

include spread in
theorem relabel_spread (index zid : Nat) (bound : index < p.zpp.nrWb) (inside : zid < p.zpp.nrZones)
    (empty : (ftl.writeBuffer index).flushData = 0) (none : ∀ other, other < p.zpp.nrWb → (ftl.writeBuffer other).zid ≠ some zid) :
    Spread p (putBuffer ftl index { ftl.writeBuffer index with zid := some zid }) mapped buffered := by
  have blank := empty_buffer p mapped buffered ftl spread index bound empty
  have here : (putBuffer ftl index { ftl.writeBuffer index with zid := some zid }).writeBuffer index =
      { ftl.writeBuffer index with zid := some zid } := Function.update_self ..
  have there : ∀ other, other ≠ index → (putBuffer ftl index { ftl.writeBuffer index with zid := some zid }).writeBuffer other =
      ftl.writeBuffer other := fun other apart => Function.update_of_ne apart ..
  have zero := spread.rest zid none
  refine ⟨spread.filled, spread.fits, ?_, ?_, ?_, ?_, ?_, spread.aggs⟩
  · intro other inWb label same
    by_cases self : other = index
    · rw [self, here] at same ⊢
      rw [← Option.some.inj same, zero, List.range'_zero]
      exact ⟨inside, blank⟩
    · rw [there other self] at same ⊢
      exact spread.own other inWb label same
  · intro other inWb unlabelled
    by_cases self : other = index
    · rw [self, here] at unlabelled
      exact nomatch unlabelled
    · rw [there other self] at unlabelled ⊢
      exact spread.free other inWb unlabelled
  · intro other inWb
    by_cases self : other = index
    · rw [self, here]
      exact spread.sized index bound
    · rw [there other self]
      exact spread.sized other inWb
  · intro first second label firstBound secondBound firstZid secondZid
    by_cases firstSelf : first = index
    · by_cases secondSelf : second = index
      · rw [firstSelf, secondSelf]
      · rw [firstSelf, here] at firstZid
        rw [there second secondSelf, ← Option.some.inj firstZid] at secondZid
        exact absurd secondZid (none second secondBound)
    · rw [there first firstSelf] at firstZid
      by_cases secondSelf : second = index
      · rw [secondSelf, here] at secondZid
        rw [← Option.some.inj secondZid] at firstZid
        exact absurd firstZid (none first firstBound)
      · rw [there second secondSelf] at secondZid
        exact spread.alone first second label firstBound secondBound firstZid secondZid
  · intro label absent
    by_cases taken : (ftl.writeBuffer index).zid = some label
    · have pgs := buffered_pgs p mapped buffered ftl spread index label bound taken
      rw [Buffer.pgs, blank] at pgs
      exact pgs.symm
    · refine spread.rest label fun other inWb => ?_
      by_cases self : other = index
      · rw [self]
        exact taken
      · have kept := absent other inWb
        rwa [there other self] at kept

end Keeping

section Getting

variable (p : Params) (mapped buffered : Nat → Nat) (ftl : ZmsFtl) (spread : Spread p ftl mapped buffered)
variable (buffers : 0 < p.zpp.nrWb) (slpn : Nat)

theorem buffer_of_zone_spec (zid : Nat) :
    (∀ index, bufferOfZone p ftl zid = some index → index < p.zpp.nrWb ∧ (ftl.writeBuffer index).zid = some zid) ∧
      (bufferOfZone p ftl zid = none → ∀ index, index < p.zpp.nrWb → (ftl.writeBuffer index).zid ≠ some zid) := by
  unfold bufferOfZone
  constructor
  · intro index found
    have own := List.find?_some found
    exact ⟨List.mem_range.mp (List.mem_of_find?_eq_some found), by simpa using own⟩
  · intro absent index bound own
    have other := List.find?_eq_none.mp absent index (List.mem_range.mpr bound)
    simp [own] at other

include spread in
theorem zms_wb_get_spread (inside : lpnToZone p slpn < p.zpp.nrZones) : Spread p (zmsWbGet p ftl slpn).2 mapped buffered := by
  unfold zmsWbGet
  dsimp only
  split
  · exact spread
  · rename_i absent
    split
    · rename_i index idle
      have bound := List.mem_range.mp (List.mem_of_find?_eq_some idle)
      have empty := List.find?_some idle
      rw [Bool.and_eq_true, beq_iff_eq] at empty
      exact relabel_spread p mapped buffered ftl spread index _ bound inside empty.1 ((buffer_of_zone_spec p ftl _).2 absent)
    · exact spread

include spread buffers in
theorem zms_wb_get_index (index : Nat) (got : ZmsFtl) (found : zmsWbGet p ftl slpn = (some index, got)) :
    index < p.zpp.nrWb ∧ ((got.writeBuffer index).zid = some (lpnToZone p slpn) ∨
      zmsWbCheck p (got.writeBuffer index) slpn = false ∧ ∀ other, other < p.zpp.nrWb → (got.writeBuffer other).zid ≠ some (lpnToZone p slpn)) := by
  unfold zmsWbGet at found
  dsimp only at found
  split at found
  · rename_i own here
    obtain ⟨sameIndex, same⟩ := Prod.mk.inj found
    rw [← Option.some.inj sameIndex, ← same]
    obtain ⟨bound, zid⟩ := (buffer_of_zone_spec p ftl _).1 own here
    exact ⟨bound, .inl zid⟩
  · rename_i absent
    split at found
    · rename_i idle here
      obtain ⟨sameIndex, same⟩ := Prod.mk.inj found
      rw [← Option.some.inj sameIndex, ← same]
      refine ⟨List.mem_range.mp (List.mem_of_find?_eq_some here), .inl ?_⟩
      rw [show (putBuffer ftl idle { ftl.writeBuffer idle with zid := some (lpnToZone p slpn) }).writeBuffer idle =
        { ftl.writeBuffer idle with zid := some (lpnToZone p slpn) } from Function.update_self ..]
    · rename_i unfound
      obtain ⟨sameIndex, same⟩ := Prod.mk.inj found
      cases flushing : someOneFlushing p ftl with
      | true =>
          rw [flushing, if_pos rfl] at sameIndex
          exact nomatch sameIndex
      | false =>
          rw [flushing, if_neg Bool.false_ne_true] at sameIndex
          rw [← Option.some.inj sameIndex, ← same]
          have bound := fullest_buffer_bound p ftl buffers
          have unlocked : (ftl.writeBuffer (fullestBuffer p ftl)).busy = false := by
            simp only [someOneFlushing, List.any_eq_false, List.mem_range, Bool.not_eq_true] at flushing
            exact flushing _ bound
          have kept : (ftl.writeBuffer (fullestBuffer p ftl)).flushData ≠ 0 := by
            have used := List.find?_eq_none.mp unfound _ (List.mem_range.mpr bound)
            simpa [unlocked] using used
          refine ⟨bound, .inr ⟨?_, (buffer_of_zone_spec p ftl _).2 absent⟩⟩
          rw [zmsWbCheck, Bool.or_eq_false_iff, beq_eq_false_iff_ne, beq_eq_false_iff_ne]
          refine ⟨fun unlabelled => kept ?_, (buffer_of_zone_spec p ftl _).2 absent _ bound⟩
          rw [spread.sized _ bound, Buffer.pgs, spread.free _ bound unlabelled]
          rfl

theorem zms_wb_get_none (got : ZmsFtl) (found : zmsWbGet p ftl slpn = (none, got)) :
    ∀ index, index < p.zpp.nrWb → (got.writeBuffer index).zid ≠ some (lpnToZone p slpn) := by
  unfold zmsWbGet at found
  dsimp only at found
  split at found
  · cases (Prod.mk.inj found).1
  · rename_i absent
    split at found
    · cases (Prod.mk.inj found).1
    · rw [← (Prod.mk.inj found).2]
      exact (buffer_of_zone_spec p ftl _).2 absent

end Getting

end ConZone
