import ConZone.SlcMedia

set_option autoImplicit false

namespace ConZone

theorem mapped_iff_on_page (p : Params) (ftl : ZmsFtl) (lpn : Nat) : Mapped p ftl lpn ↔ ∃ page, OnPage p ftl lpn page := by
  unfold Mapped OnPage getMaptblEnt
  by_cases inside : lpn < p.zpp.ttLpns
  · rw [if_pos inside]
    cases ftl.maptbl lpn with
    | mapped page map => exact iff_of_true rfl ⟨page, inside, rfl⟩
    | unmapped => exact iff_of_false nofun fun ⟨_, _, entry⟩ => nomatch entry
    | rsv => exact iff_of_false nofun fun ⟨_, _, entry⟩ => nomatch entry
  · rw [if_neg inside]
    exact iff_of_false nofun fun ⟨_, within, _⟩ => inside within

theorem mapped_on_page (p : Params) (ftl : ZmsFtl) (lpn : Nat) (page : Page) (map : MapType)
    (entry : getMaptblEnt p ftl lpn = .mapped page map) : OnPage p ftl lpn page := by
  unfold getMaptblEnt at entry
  split at entry
  · rename_i inside
    refine ⟨inside, ?_⟩
    rw [entry]
    rfl
  · cases entry

section Slc

variable (p : Params) (ns : SlcNamespace p) (regular : Regular p .pslc)

include regular in
theorem slc_drop_sound (ftl : ZmsFtl) (lpn : Nat) (page : Page) (map : MapType) (home : LineRef → Home) (prog : LineRef → Nat)
    (sound : SlcSound p ftl home prog) (mapped : getMaptblEnt p ftl lpn = .mapped page map) :
    SlcSound p (dropMapping p ftl lpn page) (dropHome home (getLine p page)) prog := by
  have held := mapped_on_page p ftl lpn page map mapped
  have owned := (sound.media.pages.named lpn page held).1
  have settled := sound.settled _ (owned_listed p .pslc regular page owned)
  refine ⟨(roomy_rules p regular.medium regular.numbering.inside).drops ftl lpn page map sound.roomy mapped,
    drop_sound p .pslc regular ftl lpn page prog held home sound.media settled, fun ref listed => ?_⟩
  have tallies := congrArg (fun counts => counts.2.2.1) (drop_tally p ftl lpn page ref)
  split at tallies
  · exact tallies.trans (sound.settled ref listed)
  · exact tallies.trans (sound.settled ref listed)

theorem drop_same_out (home : LineRef → Home) (ref : LineRef) : SameOut home (dropHome home ref) := fun other =>
  drop_home_iff home ref other .out (by decide) (by decide)

include regular in
theorem slc_drop_if_mapped (ftl : ZmsFtl) (lpn : Nat) (home : LineRef → Home) (prog : LineRef → Nat) (sound : SlcSound p ftl home prog) :
    ∃ home', SlcSound p (dropIfMapped p ftl lpn) home' prog ∧ SameOut home home' ∧ ¬Mapped p (dropIfMapped p ftl lpn) lpn ∧
      ∀ other, other ≠ lpn → ∀ page, OnPage p (dropIfMapped p ftl lpn) other page ↔ OnPage p ftl other page := by
  have absent : ¬Mapped p (dropIfMapped p ftl lpn) lpn := fun held => ((drop_if_mapped_mapped p ftl lpn lpn).mp held).2 rfl
  unfold dropIfMapped at absent ⊢
  split
  · rename_i page map mapped
    rw [mapped] at absent
    refine ⟨_, slc_drop_sound p regular ftl lpn page map home prog sound mapped, drop_same_out home _, absent, ?_⟩
    intro other apart there
    rw [drop_on_page]
    exact and_iff_right apart
  · rename_i none
    split at absent
    · rename_i page map mapped
      exact absurd mapped (none page map)
    · exact ⟨home, sound, same_out_refl home, absent, fun _ _ _ => Iff.rfl⟩

include ns regular in
theorem slc_nand_write (collect : ZmsFtl → Loc → Exec ZmsFtl) (ftl next : ZmsFtl) (start lpn : Nat) (ioType : IoType) (toWritePgs elpn time : Nat)
    (home : LineRef → Home) (prog : LineRef → Nat) (sound : SlcSound p ftl home prog) (unmapped : ¬Mapped p ftl lpn)
    (ran : nandWrite collect p ftl start lpn .pslc ioType toWritePgs elpn = .ok (time, next)) :
    ∃ written home' prog', SlcSound p written home' prog' ∧ SameOut home home' ∧ Landed p ftl written home lpn ∧
      WroteAs collect .pslc written next := by
  obtain ⟨written, mapping, wrote⟩ := nand_write_runs collect p ftl next start lpn .pslc ioType toWritePgs elpn time ran
  rw [slc_update_or_reserve, any_full_loc ftl .pslc sound.roomy.clear, if_neg Bool.false_ne_true] at mapping
  obtain ⟨home', prog', done, out, landed⟩ := slc_reserve_sound p ns regular ftl written lpn ioType home prog sound
    (fun page held => unmapped ((mapped_iff_on_page p ftl lpn).mpr ⟨page, held⟩)) mapping
  exact ⟨written, home', prog', done, out, landed, wrote⟩

-- The LPNs are moved to lines that are not being collected; the others stay.
structure Moved (p : Params) (before after : ZmsFtl) (home : LineRef → Home) (lpns : List Nat) : Prop where
  there : ∀ lpn ∈ lpns, ∃ page, OnPage p after lpn page ∧ home (getLine p page) ≠ .out
  others : ∀ other, other ∉ lpns → ∀ page, OnPage p after other page ↔ OnPage p before other page

include regular in
theorem slc_quiet (before after : ZmsFtl) (media : mediaSide after = mediaSide before) (home : LineRef → Home) (prog : LineRef → Nat)
    (sound : SlcSound p before home prog) : SlcSound p after home prog :=
  slc_kept p before after media home prog ((roomy_rules p regular.medium regular.numbering.inside).media before after media sound.roomy) sound

include ns regular in
theorem gc_write_sound (start elpn : Nat) (lpns : List Nat) (ftl next : ZmsFtl) (toWritePgs latest time : Nat) (home : LineRef → Home)
    (prog : LineRef → Nat) (sound : SlcSound p ftl home prog)
    (ran : internalWriteLoop noCollect p .gcIo .pslc start elpn lpns ftl toWritePgs latest = .ok (time, next)) :
    ∃ home' prog', SlcSound p next home' prog' ∧ SameOut home home' ∧ Moved p ftl next home lpns := by
  induction lpns generalizing ftl toWritePgs latest home prog with
  | nil =>
      unfold internalWriteLoop at ran
      rw [← (Prod.mk.inj (Except.ok.inj ran)).2]
      exact ⟨home, prog, sound, same_out_refl home, fun _ member => absurd member List.not_mem_nil, fun _ _ _ => Iff.rfl⟩
  | cons lpn rest ih =>
      unfold internalWriteLoop at ran
      obtain ⟨⟨finish, middle⟩, writing, ran⟩ := bind_ok _ _ _ ran
      obtain ⟨dropped, droppedSound, droppedOut, absent, droppedOthers⟩ := slc_drop_if_mapped p regular ftl lpn home prog sound
      obtain ⟨written, home', prog', writtenSound, writtenOut, landed, settled⟩ := slc_nand_write p ns regular noCollect _ middle start lpn
        .gcIo _ elpn finish dropped prog droppedSound absent writing
      have media : mediaSide middle = mediaSide written := by
        rcases settled.settled with same | ⟨_, _, _, collecting, _⟩
        · exact congrArg Prod.fst same
        · cases collecting
      have kept := slc_quiet p regular written middle media home' prog' writtenSound
      have same := on_page_congr p written middle (media_maps written middle media).table
      have out := same_out_trans _ _ _ droppedOut writtenOut
      obtain ⟨home'', prog'', done, doneOut, moved⟩ := ih middle _ _ home' prog' kept ran
      refine ⟨home'', prog'', done, same_out_trans _ _ _ out doneOut, ?_, ?_⟩
      · intro other member
        by_cases later : other ∈ rest
        · obtain ⟨page, there, apart⟩ := moved.there other later
          exact ⟨page, there, fun here => apart ((out _).mpr here)⟩
        · rcases List.mem_cons.mp member with rfl | inside
          · obtain ⟨page, there, apart⟩ := landed.there
            exact ⟨page, (moved.others other later page).mpr ((same other page).mpr there), fun here => apart ((droppedOut _).mpr here)⟩
          · exact absurd inside later
      · intro other outside page
        rw [List.mem_cons, not_or] at outside
        rw [moved.others other outside.2, same, landed.others other outside.1, droppedOthers other outside.1]

include ns regular in
theorem gc_internal_write_sound (ftl next : ZmsFtl) (lpns : List Nat) (start time : Nat) (home : LineRef → Home) (prog : LineRef → Nat)
    (sound : SlcSound p ftl home prog) (ran : internalWrite noCollect p ftl lpns .gcIo .pslc start = .ok (time, next)) :
    ∃ home' prog', SlcSound p next home' prog' ∧ SameOut home home' ∧ Moved p ftl next home lpns := by
  unfold internalWrite at ran
  have quiet := nand_read_quiet p ftl lpns .gcIo start
  generalize nandRead p ftl lpns .gcIo start = fetched at ran quiet
  obtain ⟨writeStart, middle⟩ := fetched
  have kept := slc_quiet p regular ftl middle quiet.media home prog sound
  obtain ⟨home', prog', done, out, moved⟩ := gc_write_sound p ns regular writeStart _ lpns middle next _ _ time home prog kept ran
  refine ⟨home', prog', done, out, moved.there, fun other outside page => ?_⟩
  rw [moved.others other outside, on_page_congr p ftl middle (media_maps ftl middle quiet.media).table]

section Scanning

variable (victim : LineRef) (start : ZmsFtl)

-- A scan has reached a place in the victim: what is still valid before it is
-- waiting in agg, and nothing has been unmapped.
structure Swept (p : Params) (victim : LineRef) (start : ZmsFtl) (scan : GcScan) (home : LineRef → Home) (prog : LineRef → Nat) (place : Nat) :
    Prop where
  sound : SlcSound p scan.ftl home prog
  out : home victim = .out
  behind : ∀ page, OwnedPage p page → getLine p page = victim → placeIn p page < place → pageStatus scan.ftl page = .valid →
    ∃ lpn ∈ scan.agg, OnPage p scan.ftl lpn page
  waiting : ∀ lpn ∈ scan.agg, Mapped p scan.ftl lpn
  mapped : ∀ lpn, Mapped p scan.ftl lpn ↔ Mapped p start lpn

variable (home : LineRef → Home) (prog : LineRef → Nat) (place : Nat)

include ns regular in
theorem scanned_written (scan : GcScan) (next : ZmsFtl) (reached time : Nat) (scanned : Swept p victim start scan home prog place)
    (ran : internalWrite noCollect p scan.ftl scan.agg .gcIo .pslc reached = .ok (time, next)) :
    ∃ home' prog', Swept p victim start ⟨next, []⟩ home' prog' place ∧ SameOut home home' := by
  obtain ⟨home', prog', done, out, moved⟩ := gc_internal_write_sound p ns regular scan.ftl next scan.agg reached time home prog scanned.sound ran
  refine ⟨home', prog', ⟨done, (out victim).mpr scanned.out, ?_, nofun, ?_⟩, out⟩
  · intro page owned line before valid
    obtain ⟨lpn, there⟩ := (done.media.pages.valid page owned).mp valid
    have elsewhere : lpn ∉ scan.agg := by
      intro member
      obtain ⟨other, held, apart⟩ := moved.there lpn member
      have same := held_once p next lpn page other there held
      rw [same, line] at apart
      exact apart scanned.out
    have earlier := (moved.others lpn elsewhere page).mp there
    obtain ⟨other, member, held⟩ := scanned.behind page owned line before
      ((scanned.sound.media.pages.valid page owned).mpr ⟨lpn, earlier⟩)
    have same := held_alone p scan.ftl lpn page prog scanned.sound.media.pages earlier other held
    rw [same] at member
    exact absurd member elsewhere
  · intro lpn
    rw [← scanned.mapped]
    by_cases member : lpn ∈ scan.agg
    · obtain ⟨page, there, _⟩ := moved.there lpn member
      exact iff_of_true ((mapped_iff_on_page p next lpn).mpr ⟨page, there⟩) (scanned.waiting lpn member)
    · rw [mapped_iff_on_page, mapped_iff_on_page]
      exact exists_congr fun page => moved.others lpn member page

include ns regular in
theorem gc_visit_scanned (scan next : GcScan) (page : Page) (owned : OwnedPage p page) (line : getLine p page = victim)
    (scanned : Swept p victim start scan home prog (placeIn p page)) (ran : gcVisit p .pslc scan page = .ok next) :
    ∃ home' prog', Swept p victim start next home' prog' (placeIn p page + 1) ∧ SameOut home home' := by
  unfold gcVisit at ran
  split at ran
  · rename_i valid
    obtain ⟨lpn, there⟩ := (scanned.sound.media.pages.valid page owned).mp valid
    have named := (scanned.sound.media.pages.named lpn page there).2
    rw [named] at ran
    obtain ⟨middle, flushed, rest⟩ := bind_ok _ _ _ ran
    have joined : Swept p victim start ⟨scan.ftl, scan.agg ++ [lpn]⟩ home prog (placeIn p page + 1) := by
      refine ⟨scanned.sound, scanned.out, ?_, ?_, scanned.mapped⟩
      · intro other otherOwned otherLine before otherValid
        by_cases same : other = page
        · exact ⟨lpn, List.mem_append_right _ List.mem_cons_self, same ▸ there⟩
        · have earlier : placeIn p other < placeIn p page := by
            rcases Nat.lt_succ_iff_lt_or_eq.mp before with less | equal
            · exact less
            · exact absurd (place_unique p regular.rows other page otherOwned owned (otherLine.trans line.symm) equal) same
          obtain ⟨held, member, on⟩ := scanned.behind other otherOwned otherLine earlier otherValid
          exact ⟨held, List.mem_append_left _ member, on⟩
      · intro other member
        rcases List.mem_append.mp member with before | last
        · exact scanned.waiting other before
        · rw [List.mem_singleton.mp last]
          exact (mapped_iff_on_page p scan.ftl lpn).mpr ⟨page, there⟩
    have after : ∃ home' prog', Swept p victim start middle home' prog' (placeIn p page + 1) ∧ SameOut home home' := by
      unfold gcFlush at flushed
      split at flushed
      · obtain ⟨⟨time, written⟩, writing, rest⟩ := bind_ok _ _ _ flushed
        rw [← pure_ok _ _ rest]
        exact scanned_written p ns regular victim start home prog _ ⟨scan.ftl, scan.agg ++ [lpn]⟩ written 0 time joined writing
      · rw [← Except.ok.inj flushed]
        exact ⟨home, prog, joined, same_out_refl home⟩
    obtain ⟨home', prog', done, out⟩ := after
    rw [← pure_ok _ _ rest]
    have media : mediaSide (countCopy middle).ftl = mediaSide middle.ftl := rfl
    exact ⟨home', prog', ⟨slc_quiet p regular middle.ftl _ media home' prog' done.sound, done.out, done.behind, done.waiting, done.mapped⟩, out⟩
  · rename_i invalid
    rw [← Except.ok.inj ran]
    refine ⟨home, prog, ⟨scanned.sound, scanned.out, ?_, scanned.waiting, scanned.mapped⟩, same_out_refl home⟩
    intro other otherOwned otherLine before otherValid
    by_cases same : other = page
    · rw [same] at otherValid
      exact absurd otherValid invalid
    · refine scanned.behind other otherOwned otherLine ?_ otherValid
      rcases Nat.lt_succ_iff_lt_or_eq.mp before with less | equal
      · exact less
      · exact absurd (place_unique p regular.rows other page otherOwned owned (otherLine.trans line.symm) equal) same

theorem gc_next_step (ftl : ZmsFtl) (page : Page) : gcNext p ftl page = lineStep p page page := by
  have step : (if isSuperblock (getLine p page) then nextpageInterleave p page else nextpageNormal p page) = lineStep p page page := by
    unfold lineStep
    split <;> rfl
  unfold gcNext nextpage
  dsimp only
  rw [step]
  cases lineStep p page page <;> rfl

include ns regular in
theorem gc_scan_scanned (fuel : Nat) (scan next : GcScan) (page : Page) (owned : OwnedPage p page) (line : getLine p page = victim)
    (scanned : Swept p victim start scan home prog (placeIn p page)) (ran : gcScan p .pslc fuel scan (some page) = .ok next) :
    ∃ home' prog', Swept p victim start next home' prog' (pgsPerLineOf p victim) ∧ SameOut home home' := by
  induction fuel generalizing scan page home prog with
  | zero => exact nomatch ran
  | succ fuel ih =>
      unfold gcScan at ran
      obtain ⟨middle, visited, rest⟩ := bind_ok _ _ _ ran
      obtain ⟨home', prog', after, out⟩ := gc_visit_scanned p ns regular victim start home prog scan middle page owned line scanned visited
      have step := next_in_line p .pslc regular page owned
      rw [gc_next_step] at rest
      cases moved : lineStep p page page with
      | none =>
          rw [moved] at rest step
          dsimp only at step
          rw [line] at step
          rw [step] at after
          unfold gcScan at rest
          cases fuel with
          | zero =>
              rw [← Except.ok.inj rest]
              exact ⟨home', prog', after, out⟩
          | succ fuel =>
              rw [← Except.ok.inj rest]
              exact ⟨home', prog', after, out⟩
      | some there =>
          rw [moved] at rest step
          obtain ⟨thereOwned, thereLine, place⟩ := step
          rw [← place] at after
          obtain ⟨home'', prog'', done, later⟩ := ih home' prog' middle there thereOwned (thereLine.trans line) after rest
          exact ⟨home'', prog'', done, same_out_trans _ _ _ out later⟩

include ns regular in
theorem submit_internal_write_emptied (ftl next : ZmsFtl) (sound : SlcSound p ftl home prog) (out : home victim = .out)
    (listed : victim ∈ lineRefs p) (ran : submitInternalWrite p ftl victim = .ok next) :
    ∃ home' prog', SlcSound p next home' prog' ∧ SameOut home home' ∧ (next.lm.lines victim).vpc = 0 ∧
      ∀ lpn, Mapped p next lpn ↔ Mapped p ftl lpn := by
  obtain ⟨owned, line, first⟩ := first_page_regular p .pslc regular victim listed
  unfold submitInternalWrite at ran
  rw [listed_location p .pslc regular victim listed] at ran
  obtain ⟨scan, scanning, rest⟩ := bind_ok _ _ _ ran
  have begun : Swept p victim ftl ⟨ftl, []⟩ home prog (placeIn p (getFirstPage p victim)) := by
    refine ⟨sound, out, ?_, nofun, fun _ => Iff.rfl⟩
    intro page _ _ before
    rw [first] at before
    exact absurd before (Nat.not_lt_zero _)
  obtain ⟨home', prog', scanned, scannedOut⟩ := gc_scan_scanned p ns regular victim ftl home prog _ _ scan _ owned line begun scanning
  have emptied : ∃ home'' prog'', Swept p victim ftl ⟨next, []⟩ home'' prog'' (pgsPerLineOf p victim) ∧ SameOut home home'' := by
    unfold gcRest at rest
    split at rest
    · rename_i none
      rw [← Except.ok.inj rest]
      refine ⟨home', prog', ⟨scanned.sound, scanned.out, ?_, nofun, scanned.mapped⟩, scannedOut⟩
      intro page pageOwned pageLine before valid
      obtain ⟨lpn, member, _⟩ := scanned.behind page pageOwned pageLine before valid
      rw [none] at member
      exact absurd member List.not_mem_nil
    · rw [if_neg nofun] at rest
      obtain ⟨⟨time, written⟩, writing, rest⟩ := bind_ok _ _ _ rest
      rw [← pure_ok _ _ rest]
      obtain ⟨home'', prog'', done, doneOut⟩ := scanned_written p ns regular victim ftl home' prog' _ scan written 0 time scanned writing
      exact ⟨home'', prog'', done, same_out_trans _ _ _ scannedOut doneOut⟩
  obtain ⟨home'', prog'', done, doneOut⟩ := emptied
  refine ⟨home'', prog'', done.sound, doneOut, ?_, done.mapped⟩
  rw [done.sound.media.counts.vpc victim listed]
  refine Int.natCast_eq_zero.mpr (Tally.census_none _ _ _ ?_)
  intro page member valid
  obtain ⟨pageOwned, pageLine⟩ := (mem_pages_in p victim page).mp member
  have place := page_in_line p regular.rows regular.sizes victim page member
  obtain ⟨_, inside, _⟩ := done.behind page pageOwned pageLine place valid
  exact absurd inside List.not_mem_nil

end Scanning

def SlcResting (p : Params) (ftl : ZmsFtl) : Prop := ∃ home prog, SlcSound p ftl home prog ∧ ∀ ref, home ref ≠ .out

include regular in
theorem slc_resting_kept (before after : ZmsFtl) (media : mediaSide after = mediaSide before) (resting : SlcResting p before) :
    SlcResting p after := by
  obtain ⟨home, prog, sound, none⟩ := resting
  exact ⟨home, prog, slc_quiet p regular before after media home prog sound, none⟩

include regular in
theorem slc_erase_sound (ftl : ZmsFtl) (ref : LineRef) (ioType : IoType) (home : LineRef → Home) (prog : LineRef → Nat)
    (sound : SlcSound p ftl home prog) (freeable : Freeable ftl home ref ioType) :
    SlcSound p (eraseLine p ftl ref ioType) (Function.update home ref .free) (Function.update prog ref 0) := by
  have listed := freeable_listed p .pslc ftl home prog _ sound.media ref ioType freeable
  have known := line_refs_known p ref listed
  refine ⟨(roomy_rules p regular.medium regular.numbering.inside).erases ftl ref ioType sound.roomy known,
    erase_sound p .pslc regular ftl home prog _ sound.media ref ioType freeable, fun other otherListed => ?_⟩
  have tallies := congrArg (fun counts => counts.2.2.1)
    (erase_tally p ftl ref ioType (freeable_idle p .pslc ftl home prog _ sound.media ref ioType freeable) other)
  split at tallies
  · exact tallies
  · exact tallies.trans (sound.settled other otherListed)

include regular in
theorem slc_selected_sound (ftl selected : ZmsFtl) (force : Bool) (victim : LineRef) (home : LineRef → Home) (prog : LineRef → Nat)
    (sound : SlcSound p ftl home prog) (chosen : selectVictimLine p ftl force .pslc = some (victim, selected)) :
    SlcSound p (setCreditsToRefill selected .pslc ((selected.lm.lines victim).ipc + (selected.lm.lines victim).rpc))
      (Function.update home victim .out) prog ∧ victim ∈ lineRefs p ∧ SamePages ftl selected := by
  obtain ⟨queued, media, same⟩ := select_sound p .pslc regular ftl selected home prog _ sound.media force victim chosen
  have listed : victim ∈ lineRefs p := by
    obtain ⟨_, _, housed⟩ := sound.media.homes.housed
    exact (housed.bound victim).mp (by rw [queued]; decide)
  have picked : SlcSound p selected (Function.update home victim .out) prog := by
    refine ⟨(roomy_rules p regular.medium regular.numbering.inside).selects ftl selected force .pslc victim sound.roomy chosen, media, ?_⟩
    intro ref known
    rw [same_rpc ftl selected same]
    exact sound.settled ref known
  exact ⟨slc_quiet p regular selected (setCreditsToRefill selected .pslc _) rfl _ prog picked, listed, same⟩

include ns regular in
theorem slc_collect_sound (ftl selected next : ZmsFtl) (force : Bool) (victim : LineRef) (resting : SlcResting p ftl)
    (chosen : selectVictimLine p ftl force .pslc = some (victim, selected)) (ran : doGc p ftl force .pslc = .ok next) :
    SlcResting p next ∧ (∀ lpn, Mapped p next lpn ↔ Mapped p ftl lpn) ∧ victim ∈ lineRefs p ∧
      ∀ page, OwnedPage p page → getLine p page = victim → pageStatus next page = .free := by
  obtain ⟨home, prog, sound, none⟩ := resting
  unfold doGc at ran
  rw [chosen] at ran
  obtain ⟨emptied, moving, rest⟩ := bind_ok _ _ _ ran
  obtain ⟨credited, listed, same⟩ := slc_selected_sound p regular ftl selected force victim home prog sound chosen
  obtain ⟨home', prog', done, out, vpc, mapped⟩ := submit_internal_write_emptied p ns regular victim _ prog _ emptied credited
    (Function.update_self ..) listed moving
  have away : home' victim = .out := (out victim).mpr (Function.update_self ..)
  have erased := slc_erase_sound p regular emptied victim .gcIo home' prog' done ⟨.inl ⟨away, rfl⟩, vpc⟩
  rw [← pure_ok _ _ rest]
  refine ⟨⟨_, _, slc_quiet p regular (eraseLine p emptied victim .gcIo) (countGc (eraseLine p emptied victim .gcIo)) rfl _ _ erased, ?_⟩, ?_,
    listed, ?_⟩
  · intro ref
    by_cases here : ref = victim
    · rw [here, Function.update_self]
      decide
    · rw [Function.update_of_ne here, ne_eq, out ref, Function.update_of_ne here]
      exact none ref
  · intro lpn
    have kept := same_maps_mapped p emptied (eraseLine p emptied victim .gcIo) (erase_line_maps p emptied victim .gcIo) lpn
    have before := same_maps_mapped p ftl selected same.maps lpn
    exact kept.trans ((mapped lpn).trans before)
  · intro page owned line
    refine erased.media.pages.blank page owned ?_
    rw [line, Function.update_self]
    exact Nat.zero_le _

include ns regular in
theorem slc_do_gc_sound (ftl next : ZmsFtl) (force : Bool) (resting : SlcResting p ftl) (ran : doGc p ftl force .pslc = .ok next) :
    SlcResting p next ∧ ∀ lpn, Mapped p next lpn ↔ Mapped p ftl lpn := by
  cases chosen : selectVictimLine p ftl force .pslc with
  | none =>
      unfold doGc at ran
      rw [chosen] at ran
      rw [← Except.ok.inj ran]
      exact ⟨resting, fun _ => Iff.rfl⟩
  | some taken =>
      obtain ⟨victim, selected⟩ := taken
      obtain ⟨after, mapped, _⟩ := slc_collect_sound p ns regular ftl selected next force victim resting chosen ran
      exact ⟨after, mapped⟩

include ns regular in
theorem slc_foreground_gc_sound (ftl next : ZmsFtl) (resting : SlcResting p ftl) (ran : foregroundGc p ftl .pslc = .ok next) :
    SlcResting p next ∧ ∀ lpn, Mapped p next lpn ↔ Mapped p ftl lpn := by
  unfold foregroundGc at ran
  split at ran
  · have credited := slc_resting_kept p regular ftl (setCreditsToRefill ftl .pslc 0) rfl resting
    dsimp only at ran
    split at ran
    · rw [← Except.ok.inj ran]
      exact ⟨credited, fun _ => Iff.rfl⟩
    · exact slc_do_gc_sound p ns regular (setCreditsToRefill ftl .pslc 0) next true credited ran
  · rw [← Except.ok.inj ran]
    exact ⟨slc_resting_kept p regular ftl _ rfl resting, fun _ => Iff.rfl⟩

include ns regular in
theorem slc_user_write_sound (ftl next : ZmsFtl) (start lpn toWritePgs elpn time : Nat) (resting : SlcResting p ftl) (unmapped : ¬Mapped p ftl lpn)
    (ran : nandWrite (foregroundGc p) p ftl start lpn .pslc .userIo toWritePgs elpn = .ok (time, next)) :
    SlcResting p next ∧ ∀ other, Mapped p next other ↔ Mapped p ftl other ∨ other = lpn := by
  obtain ⟨home, prog, sound, none⟩ := resting
  obtain ⟨written, home', prog', done, out, landed, wrote⟩ := slc_nand_write p ns regular (foregroundGc p) ftl next start lpn .userIo toWritePgs
    elpn time home prog sound unmapped ran
  have rests : SlcResting p written := ⟨home', prog', done, fun ref here => none ref ((out ref).mp here)⟩
  have mapped : ∀ other, Mapped p written other ↔ Mapped p ftl other ∨ other = lpn := by
    intro other
    rw [mapped_iff_on_page, mapped_iff_on_page]
    by_cases same : other = lpn
    · obtain ⟨page, there, _⟩ := landed.there
      exact iff_of_true ⟨page, same ▸ there⟩ (.inr same)
    · rw [or_iff_left same]
      exact exists_congr fun page => landed.others other same page
  rcases wrote.settled with below | ⟨paid, collected, paidBelow, collecting, below⟩
  · have media : mediaSide next = mediaSide written := congrArg Prod.fst below
    refine ⟨slc_resting_kept p regular written next media rests, fun other => ?_⟩
    rw [same_maps_mapped p written next (media_maps written next media), mapped]
  · have paidMedia : mediaSide paid = mediaSide written := congrArg Prod.fst paidBelow
    have media : mediaSide next = mediaSide collected := congrArg Prod.fst below
    obtain ⟨after, kept⟩ := slc_foreground_gc_sound p ns regular paid collected (slc_resting_kept p regular written paid paidMedia rests) collecting
    refine ⟨slc_resting_kept p regular collected next media after, fun other => ?_⟩
    rw [same_maps_mapped p collected next (media_maps collected next media), kept,
      same_maps_mapped p written paid (media_maps written paid paidMedia), mapped]

end Slc

end ConZone
