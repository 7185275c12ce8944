import ConZone.SlcReset
import ConZone.TlcReset

set_option autoImplicit false

namespace ConZone

-- What a reset may be asked of a zone: one of a TLC namespace is to have all of
-- its pages on the medium, or none.
def Clearable (p : Params) (ftl : ZmsFtl) (zid : Nat) : Prop :=
  p.zpp.nsType = .tlc → ZoneFilled p ftl zid p.zpp.pgsPerZone ∨ ZoneFilled p ftl zid 0

section Walk

variable (p : Params)

theorem reset_page_mapped (scan next : ResetScan) (lpn : Nat) (page : Page) (ran : resetPage p scan lpn page = .ok next) :
    next.stopped = scan.stopped ∧ ∀ other, Mapped p next.ftl other ↔ Mapped p scan.ftl other ∧ other ≠ lpn := by
  have dropped := drop_mapping_mapped p scan.ftl lpn page
  unfold resetPage at ran
  dsimp only at ran
  split at ran
  · obtain ⟨erased, erasing, rest⟩ := bind_ok _ _ _ ran
    rw [← pure_ok _ _ rest]
    refine ⟨rfl, fun other => ?_⟩
    rw [same_maps_mapped p _ _ (erase_linked_lines_maps p _ _ erased _ erasing), dropped]
  · rw [← Except.ok.inj ran]
    exact ⟨rfl, dropped⟩

theorem erase_rest_maps (scan : ResetScan) (next : ZmsFtl) (ran : eraseRest p scan = .ok next) : SameMaps scan.ftl next := by
  unfold eraseRest at ran
  split at ran
  · split at ran
    · exact erase_linked_lines_maps p _ scan.ftl next _ ran
    · rw [← Except.ok.inj ran]
      exact same_maps_refl scan.ftl
  · rw [← Except.ok.inj ran]
    exact same_maps_refl scan.ftl

theorem reset_pages_mapped (start count rest filled : Nat) (scan next : ResetScan) (first : count ≤ filled) (last : filled ≤ count + rest)
    (mapped : ∀ i, count ≤ i → i < count + rest → (Mapped p scan.ftl (start + i) ↔ i < filled))
    (ran : resetPages p ((List.range' count rest).map fun i => start + i) scan = .ok next) :
    next.stopped = (if filled < count + rest then some (start + filled) else scan.stopped) ∧
      ∀ other, Mapped p next.ftl other ↔ Mapped p scan.ftl other ∧ ¬(start + count ≤ other ∧ other < start + count + rest) := by
  induction rest generalizing count scan with
  | zero =>
      rw [← Except.ok.inj ran, if_neg (by omega)]
      refine ⟨rfl, fun other => ?_⟩
      rw [and_iff_left (by omega)]
  | succ rest ih =>
      rw [List.range'_succ, List.map_cons] at ran
      have here := mapped count (Nat.le_refl _) (by omega)
      by_cases past : count < filled
      · obtain ⟨page, map, entry⟩ := (mapped_entry p scan.ftl _).mp (here.mpr past)
        unfold resetPages at ran
        rw [entry] at ran
        obtain ⟨middle, resetting, ran⟩ := bind_ok _ _ _ ran
        obtain ⟨stopped, dropped⟩ := reset_page_mapped p scan middle _ page resetting
        obtain ⟨ends, after⟩ := ih (count + 1) middle past (by omega) (fun i low high => by
          rw [dropped, mapped i (by omega) (by omega), and_iff_left (by omega)]) ran
        refine ⟨by rw [ends, stopped, show count + 1 + rest = count + (rest + 1) by omega], fun other => ?_⟩
        rw [after, dropped]
        constructor
        · rintro ⟨⟨there, apart⟩, outside⟩
          exact ⟨there, by omega⟩
        · rintro ⟨there, outside⟩
          exact ⟨⟨there, by omega⟩, by omega⟩
      · have all : filled = count := by omega
        have absent : ¬Mapped p scan.ftl (start + count) := fun there => past (here.mp there)
        unfold resetPages at ran
        split at ran
        · rename_i page map entry
          exact absurd ((mapped_entry p scan.ftl _).mpr ⟨page, map, entry⟩) absent
        · rw [← Except.ok.inj ran, if_pos (by omega), all]
          refine ⟨rfl, fun other => ?_⟩
          constructor
          · intro there
            refine ⟨there, fun within => ?_⟩
            have low := (mapped (other - start) (by omega) (by omega)).mp
              (by rw [show start + (other - start) = other by omega]; exact there)
            omega
          · exact fun both => both.1

theorem zone_lpn_list (zid : Nat) : zoneLpnList p zid = (List.range' 0 p.zpp.pgsPerZone).map fun i => zoneToSlpn p zid + i := by
  rw [zoneLpnList, List.range_eq_range']

end Walk

theorem erase_rest_none (p : Params) (scan : ResetScan) (next : ZmsFtl) (none : scan.firstLine = none) (ran : eraseRest p scan = .ok next) :
    next = scan.ftl := by
  unfold eraseRest at ran
  rw [none] at ran
  exact (Except.ok.inj ran).symm

section Tlc

variable (p : Params) (ns : TlcNamespace p) (regular : Regular p .normal)

include ns regular in
theorem tlc_zone_cleared (ftl : ZmsFtl) (zid : Nat) (inside : zid < p.zpp.nrZones) (clearable : Clearable p ftl zid) (resting : TlcResting p ftl) :
    ∃ scan, resetPages p (zoneLpnList p zid) ⟨ftl, none, none⟩ = .ok scan ∧ TlcResting p scan.ftl ∧ scan.firstLine = none := by
  have positive := ns.space.some
  rw [zone_lpn_list]
  obtain ⟨rest, size⟩ : ∃ rest, p.zpp.pgsPerZone = rest + 1 := ⟨p.zpp.pgsPerZone - 1, by omega⟩
  rw [size]
  rcases clearable ns.tlc with whole | blank
  · obtain ⟨home, prog, ref, clearing⟩ := clearing_starts p ns regular zid inside ftl resting whole
    exact clearing_runs p ns regular zid ref rest none ftl home prog 0 clearing (by omega) rfl
  · have absent : ¬Mapped p ftl (zoneToSlpn p zid + 0) := fun there => Nat.not_lt_zero 0 ((blank 0 positive).mp there)
    refine ⟨⟨ftl, none, some (zoneToSlpn p zid + 0)⟩, ?_, resting, rfl⟩
    rw [List.range'_succ, List.map_cons]
    unfold resetPages
    dsimp only
    split
    · rename_i page map entry
      exact absurd ((mapped_entry p ftl _).mpr ⟨page, map, entry⟩) absent
    · rfl

end Tlc

-- What the host's side of a dual namespace asks of its medium between two
-- operations.
structure MediaContract (p : Params) (loc : Loc) (resting : ZmsFtl → Prop) : Prop where
  dual : zmsIsDualNs p.zpp.nsType = true
  target : zmsDualTargetLoc p.zpp.nsType = loc
  sound : ∀ ftl, resting ftl → ∃ home prog, MediaSound p loc ftl home prog (fun _ => 0) ∧ ∀ ref, home ref ≠ .out
  roomy : ∀ ftl, resting ftl → Roomy p ftl
  media : ∀ before after, mediaSide after = mediaSide before → resting before → resting after
  writes : ∀ ftl next start zid i toWritePgs elpn time, zid < p.zpp.nrZones → i < p.zpp.pgsPerZone → ZoneFilled p ftl zid i →
    resting ftl → nandWrite (foregroundGc p) p ftl start (zoneToSlpn p zid + i) loc .userIo toWritePgs elpn = .ok (time, next) →
    resting next ∧ (∀ other, Mapped p next other ↔ Mapped p ftl other ∨ other = zoneToSlpn p zid + i) ∧
      (loc = .normal → next.zoneAggLpns = ftl.zoneAggLpns)
  resets : ∀ ftl scan next zid, zid < p.zpp.nrZones → Clearable p ftl zid → resting ftl →
    resetPages p (zoneLpnList p zid) ⟨ftl, none, none⟩ = .ok scan → eraseRest p scan = .ok next → resting next

theorem slc_contract (p : Params) (ns : SlcNamespace p) (regular : Regular p .pslc) : MediaContract p .pslc (SlcResting p) where
  dual := regular.dual
  target := by
    rw [ns.slc]
    rfl
  sound := by
    rintro ftl ⟨home, prog, sound, none⟩
    exact ⟨home, prog, sound.media, none⟩
  roomy := by
    rintro ftl ⟨_, _, sound, _⟩
    exact sound.roomy
  media := fun before after media resting => slc_resting_kept p regular before after media resting
  writes := by
    intro ftl next start zid i toWritePgs elpn time _ bound filled resting ran
    have unmapped : ¬Mapped p ftl (zoneToSlpn p zid + i) := fun there => Nat.lt_irrefl i ((filled i bound).mp there)
    obtain ⟨after, mapped⟩ := slc_user_write_sound p ns regular ftl next start _ toWritePgs elpn time resting unmapped ran
    exact ⟨after, mapped, nofun⟩
  resets := by
    intro ftl scan next zid _ _ resting walked erased
    obtain ⟨after, known⟩ := slc_reset_pages p regular _ ⟨ftl, none, none⟩ scan resting (fun _ absent => nomatch absent) walked
    exact slc_erase_rest p regular scan next after known erased

theorem tlc_contract (p : Params) (ns : TlcNamespace p) (regular : Regular p .normal) : MediaContract p .normal (TlcResting p) where
  dual := regular.dual
  target := by
    rw [ns.tlc]
    rfl
  sound := by
    rintro ftl ⟨home, prog, sound⟩
    exact ⟨home, prog, sound.media, sound.none⟩
  roomy := by
    rintro ftl ⟨_, _, sound⟩
    exact sound.roomy
  media := fun before after media resting => tlc_resting_kept p regular before after media resting
  writes := by
    intro ftl next start zid i toWritePgs elpn time inside bound filled resting ran
    obtain ⟨after, mapped, aggs⟩ :=
      tlc_user_write_sound p ns regular ftl next start toWritePgs elpn time zid i inside bound filled resting ran
    exact ⟨after, mapped, fun _ => aggs⟩
  resets := by
    intro ftl scan next zid inside clearable resting walked erased
    obtain ⟨cleared, ran, after, none⟩ := tlc_zone_cleared p ns regular ftl zid inside clearable resting
    rw [walked] at ran
    rw [← Except.ok.inj ran] at after none
    rw [erase_rest_none p scan next none erased]
    exact after

end ConZone
