import ConZone.MediaDrop

set_option autoImplicit false

namespace ConZone

open Tally

structure OutOfLines (ftl : ZmsFtl) (name : WpName) (loc : Loc) : Prop where
  curline : (ftl.wps name).curline = none
  free : IntrusiveList.Ring ftl.lm.links (.free loc) []

section FreeLines

variable (p : Params) (loc : Loc) (ftl : ZmsFtl) (home : LineRef → Home) (free full : List LineRef)

theorem no_free_line (housed : Housed p loc ftl.lm home [] full) : getNextFreeLine ftl loc = .ok (none, setFull ftl loc) := by
  have first := IntrusiveList.ring_first_entry _ _ _ housed.stored.firstRing
  change IntrusiveList.listFirstEntryOrNull ftl.lm.links (.free loc) = _ at first
  unfold getNextFreeLine
  rw [first]
  rfl

theorem next_free_line (ref : LineRef) (housed : Housed p loc ftl.lm home (ref :: free) full) :
    getNextFreeLine ftl loc = .ok (some ref, { ftl with lm := delFree ftl.lm loc ref }) := by
  have first := IntrusiveList.ring_first_entry _ _ _ housed.stored.firstRing
  change IntrusiveList.listFirstEntryOrNull ftl.lm.links (.free loc) = _ at first
  unfold getNextFreeLine
  rw [first]
  rfl

end FreeLines

section Moving

variable (p : Params) (loc : Loc) (regular : Regular p loc) (ftl : ZmsFtl)
variable (home : LineRef → Home) (prog : LineRef → Nat) (lead : WpName → Nat) (sound : MediaSound p loc ftl home prog lead)

include regular sound in
theorem pointed_listed (name : WpName) (ref : LineRef) (there : home ref = .cur name) : ref ∈ lineRefs p := by
  obtain ⟨owned, line, _⟩ := sound.homes.stands name ref there
  rw [← line]
  exact owned_listed p loc regular _ owned

theorem put_wp_pointer (ftl : ZmsFtl) (name : WpName) (pointer : WritePointer) (other : WpName) :
    (putWp ftl name pointer).wps other = if other = name then pointer else ftl.wps other := by
  unfold putWp
  dsimp only
  by_cases same : other = name
  · rw [if_pos same, same, Function.update_self]
  · rw [if_neg same, Function.update_of_ne same]

include regular sound in
theorem take_line_sound (next : ZmsFtl) (name : WpName) (ref : LineRef) (free full : List LineRef)
    (housed : Housed p loc ftl.lm home (ref :: free) full) (idle : ∀ other, home other ≠ .cur name)
    (lm : next.lm = delFree ftl.lm loc ref) (same : SamePages ftl next)
    (taken : next.wps name = ⟨some ref, loc, (getFirstPage p ref).block, (getFirstPage p ref).pg⟩)
    (others : ∀ other, other ≠ name → next.wps other = ftl.wps other) :
    MediaSound p loc next (Function.update home ref (.cur name)) prog (Function.update lead name 0) := by
  obtain ⟨pages, counts, homes⟩ := sound
  have here : home ref = .free := (housed.stored.inFirst ref).mp List.mem_cons_self
  have listed := housed_known p loc ftl.lm home _ full housed ref .free here (by decide)
  obtain ⟨owned, line, place⟩ := first_page_regular p loc regular ref listed
  have lines : next.lm.lines = ftl.lm.lines := by rw [lm]; rfl
  obtain ⟨pages, counts⟩ := same_pages_sound p ftl next same prog pages counts
  have first : wpPage (next.wps name) = getFirstPage p ref := by rw [taken]; rfl
  have alone : ∀ other, other ≠ ref → Function.update home ref (.cur name) other = home other := fun other apart =>
    Function.update_of_ne apart _ _
  obtain ⟨zero, none⟩ := homes.empty ref here
  refine ⟨pages, counts, homes_of_parts p loc next _ prog _ ?_ ⟨?_, ?_, ?_⟩ ?_⟩
  · rw [lm]
    exact ⟨free, full, del_free_housed p loc regular.few ftl.lm home free full ref (.cur name) housed (cur_outside name) nofun⟩
  · intro other line
    by_cases named : other = name
    · rw [named, taken]
      dsimp only
      by_cases same : line = ref
      · rw [same, Function.update_self]
        exact iff_of_true rfl rfl
      · rw [alone line same]
        exact iff_of_false (idle line) fun equal => same (Option.some.inj equal).symm
    · rw [others other named, ← homes.pointer other line]
      by_cases same : line = ref
      · rw [same, Function.update_self, here]
        exact iff_of_false (fun equal => named (Home.cur.inj equal).symm) nofun
      · rw [alone line same]
  · intro other line curline
    by_cases named : other = name
    · rw [named, taken]
    · rw [others other named] at curline ⊢
      exact homes.loc other line curline
  · intro other line there
    by_cases same : line = ref
    · rw [same, Function.update_self] at there
      have named := Home.cur.inj there
      rw [same, ← named, first, lines, zero, none, place, Function.update_self]
      exact ⟨owned, ‹getLine p _ = ref›, rfl⟩
    · rw [alone line same] at there
      have named : other ≠ name := by
        rintro rfl
        exact idle line there
      rw [others other named, lines, Function.update_of_ne named]
      exact homes.stands other line there
  · refine spending_changed p loc ftl next home _ prog prog lead homes ref alone (fun _ _ => rfl) (fun other _ => by rw [lines]) ?_
    rw [Function.update_self, lines]
    exact spending_current p name ref _ _ (homes.reserved ref) (homes.unlinked ref)

def SameOut (before after : LineRef → Home) : Prop := ∀ ref, after ref = .out ↔ before ref = .out

theorem same_out_refl (home : LineRef → Home) : SameOut home home := fun _ => Iff.rfl

theorem same_out_trans (first second third : LineRef → Home) (left : SameOut first second) (right : SameOut second third) :
    SameOut first third := fun ref => (right ref).trans (left ref)

theorem same_out_update (home : LineRef → Home) (ref : LineRef) (value : Home) (before : home ref ≠ .out) (after : value ≠ .out) :
    SameOut home (Function.update home ref value) := by
  intro other
  by_cases same : other = ref
  · rw [same, Function.update_self]
    exact iff_of_false after before
  · rw [Function.update_of_ne same]

def TakesFree (name : WpName) (before after : LineRef → Home) : Prop := ∀ ref, after ref = before ref ∨ before ref = .free ∧ after ref = .cur name

theorem takes_free_out (name : WpName) (before after : LineRef → Home) (takes : TakesFree name before after) : SameOut before after := by
  intro ref
  rcases takes ref with same | ⟨free, cur⟩
  · rw [same]
  · rw [free, cur]
    exact iff_of_false nofun nofun

theorem takes_free_update (name : WpName) (home : LineRef → Home) (ref : LineRef) (here : home ref = .free) :
    TakesFree name home (Function.update home ref (.cur name)) := by
  intro other
  by_cases same : other = ref
  · right
    rw [same, Function.update_self]
    exact ⟨here, rfl⟩
  · exact .inl (Function.update_of_ne same ..)

include regular sound in
theorem open_sound (next : ZmsFtl) (ioType : IoType) (leading : lead (zmsGetWp ioType loc) = 0)
    (ran : openWritePointer p ftl ioType loc = .ok next) :
    ∃ home', MediaSound p loc next home' prog lead ∧ (∃ ref, home' ref = .cur (zmsGetWp ioType loc)) ∧
      TakesFree (zmsGetWp ioType loc) home home' ∧ SamePages ftl next := by
  obtain ⟨free, full, housed⟩ := sound.homes.housed
  unfold openWritePointer at ran
  cases curline : (ftl.wps (zmsGetWp ioType loc)).curline with
  | some ref =>
      rw [curline, if_neg nofun] at ran
      rw [← Except.ok.inj ran]
      exact ⟨home, sound, ⟨ref, (sound.homes.pointer _ ref).mpr curline⟩, fun _ => .inl rfl, same_pages_refl ftl⟩
  | none =>
      rw [curline, if_pos rfl] at ran
      unfold initWritePointer at ran
      cases free with
      | nil =>
          rw [no_free_line p loc ftl home full housed] at ran
          exact nomatch ran
      | cons ref free =>
          rw [next_free_line p loc ftl home free full ref housed] at ran
          have idle : ∀ other, home other ≠ .cur (zmsGetWp ioType loc) := by
            intro other there
            rw [(sound.homes.pointer _ other).mp there] at curline
            cases curline
          have result := Except.ok.inj ran
          have same : Function.update lead (zmsGetWp ioType loc) 0 = lead := by
            rw [← leading, Function.update_eq_self]
          have pages : SamePages ftl next := by
            rw [← result]
            exact ⟨⟨fun _ => rfl, rfl⟩, rfl, fun _ => rfl⟩
          have opened := take_line_sound p loc regular ftl home prog lead sound next (zmsGetWp ioType loc) ref free full housed idle
            (by rw [← result]; rfl) pages
            (by rw [← result, put_wp_pointer, if_pos rfl])
            (by intro other apart; rw [← result, put_wp_pointer, if_neg apart])
          rw [same] at opened
          have here : home ref = .free := (housed.stored.inFirst ref).mp List.mem_cons_self
          exact ⟨_, opened, ⟨ref, Function.update_self ..⟩, takes_free_update _ home ref here, pages⟩

include sound in
theorem open_runs (ioType : IoType) (ref : LineRef) (room : home ref = .free ∨ home ref = .cur (zmsGetWp ioType loc)) :
    ∃ next, openWritePointer p ftl ioType loc = .ok next := by
  obtain ⟨free, full, housed⟩ := sound.homes.housed
  unfold openWritePointer
  cases curline : (ftl.wps (zmsGetWp ioType loc)).curline with
  | some line =>
      rw [if_neg nofun]
      exact ⟨ftl, rfl⟩
  | none =>
      rw [if_pos rfl]
      rcases room with here | pointed
      · unfold initWritePointer
        cases free with
        | nil => exact absurd ((housed.stored.inFirst ref).mpr here) List.not_mem_nil
        | cons line free =>
            rw [next_free_line p loc ftl home free full line housed]
            exact ⟨_, rfl⟩
      · rw [(sound.homes.pointer _ ref).mp pointed] at curline
        cases curline

section Retiring

variable (name : WpName) (cur : LineRef) (here : home cur = .cur name)
variable (spent : (prog cur : Int) + (ftl.lm.lines cur).rpc = pgsPerLineOf p cur) (positive : 0 < prog cur)

def retired (p : Params) (loc : Loc) (ftl : ZmsFtl) (name : WpName) (cur : LineRef) : ZmsFtl :=
  putWp { ftl with lm := retireCurline p ftl.lm loc cur } name { ftl.wps name with curline := none }

def retiredHome (ftl : ZmsFtl) (home : LineRef → Home) (cur : LineRef) : LineRef → Home :=
  Function.update home cur (if (ftl.lm.lines cur).ipc = 0 then .full else .victim)

include regular sound here spent in
theorem retire_housed (free full : List LineRef) (housed : Housed p loc ftl.lm home free full) :
    ∃ full, Housed p loc (retireCurline p ftl.lm loc cur) (retiredHome ftl home cur) free full := by
  have listed := pointed_listed p loc regular ftl home prog lead sound name cur here
  have reserved := (sound.homes.reserved cur listed).1
  have programmed := programmed_counts p loc regular ftl prog sound.pages cur listed (by omega)
  have vpc := sound.counts.vpc cur listed
  have ipc := sound.counts.ipc cur listed
  have outside : Depot.Outside homeLabels (home cur) := by rw [here]; exact cur_outside name
  have inside : home cur ≠ .beyond := by rw [here]; nofun
  unfold retireCurline retiredHome
  by_cases clean : (ftl.lm.lines cur).ipc = 0
  · rw [if_pos (by omega), if_pos clean]
    exact ⟨_, add_full_housed p loc regular.few ftl.lm home free full cur housed outside inside⟩
  · rw [if_neg (by omega), if_neg clean]
    exact ⟨full, insert_victim_housed p loc regular.few ftl.lm home free full cur housed outside inside⟩

include regular sound here spent positive in
theorem retire_sound : MediaSound p loc (retired p loc ftl name cur) (retiredHome ftl home cur) prog lead := by
  have listed := pointed_listed p loc regular ftl home prog lead sound name cur here
  have let_go : SamePages ftl (retired p loc ftl name cur) := ⟨⟨fun _ => rfl, rfl⟩, rfl, fun other => retire_tallies p ftl.lm loc cur other⟩
  have counted : ∀ ref, (tally ((retired p loc ftl name cur).lm.lines ref)).2 = (tally (ftl.lm.lines ref)).2 := fun ref =>
    congrArg Prod.snd (let_go.tallies ref)
  have rpc : ∀ ref, ((retired p loc ftl name cur).lm.lines ref).rpc = (ftl.lm.lines ref).rpc := fun ref =>
    congrArg (fun counts => counts.2.1) (counted ref)
  have away : ∀ other, other ≠ cur → retiredHome ftl home cur other = home other := fun other apart => Function.update_of_ne apart _ _
  have value : retiredHome ftl home cur cur = if (ftl.lm.lines cur).ipc = 0 then .full else .victim := Function.update_self ..
  have apart : ∀ other, retiredHome ftl home cur cur ≠ .cur other := by
    intro other
    rw [value]
    split <;> nofun
  have wps : ∀ other, other ≠ name → (retired p loc ftl name cur).wps other = ftl.wps other := by
    intro other apart
    unfold retired
    rw [put_wp_pointer, if_neg apart]
  have dropped : ((retired p loc ftl name cur).wps name).curline = none := by
    unfold retired
    rw [put_wp_pointer, if_pos rfl]
  obtain ⟨pages, counts, homes⟩ := sound
  have clean := counts.ipc cur listed
  have unique : ∀ other, other ≠ cur → home other ≠ .cur name := fun other apart there =>
    apart (pointed_alone p loc ftl home prog lead homes name cur other here there)
  obtain ⟨keptPages, keptCounts⟩ := same_pages_sound p ftl (retired p loc ftl name cur) let_go prog pages counts
  refine ⟨keptPages, keptCounts, homes_of_parts p loc _ _ prog lead ?_ ⟨?_, ?_, ?_⟩ ?_⟩
  · obtain ⟨free, full, housed⟩ := homes.housed
    obtain ⟨full, moved⟩ := retire_housed p loc regular ftl home prog lead ⟨pages, counts, homes⟩ name cur here spent free full housed
    exact ⟨free, full, moved⟩
  · intro other ref
    by_cases same : ref = cur
    · rw [same]
      refine iff_of_false (apart other) ?_
      by_cases named : other = name
      · rw [named, dropped]
        nofun
      · rw [wps other named, ← homes.pointer other cur, here]
        exact fun equal => named (Home.cur.inj equal).symm
    · rw [away ref same]
      by_cases named : other = name
      · rw [named, dropped]
        exact iff_of_false (unique ref same) nofun
      · rw [wps other named]
        exact homes.pointer other ref
  · intro other ref curline
    by_cases named : other = name
    · rw [named, dropped] at curline
      cases curline
    · rw [wps other named] at curline ⊢
      exact homes.loc other ref curline
  · intro other ref there
    by_cases same : ref = cur
    · rw [same] at there
      exact absurd there (apart other)
    · rw [away ref same] at there
      have named : other ≠ name := fun equal => unique ref same (equal ▸ there)
      rw [wps other named, rpc]
      exact homes.stands other ref there
  · refine spending_changed p loc ftl _ home _ prog prog lead homes cur away (fun _ _ => rfl) (fun ref _ => counted ref) ?_
    refine spending_counts p cur _ (ftl.lm.lines cur) _ _ (counted cur) ?_
    rw [value]
    refine ⟨?_, fun _ => spent, ?_, ?_, homes.reserved cur, homes.unlinked cur⟩
    · split <;> nofun
    · split
      · rename_i none
        exact fun _ => ⟨none, positive⟩
      · nofun
    · split
      · rintro (victim | out)
        · cases victim
        · cases out
      · intro _
        omega

include regular sound here spent positive in
theorem new_wp_sound : ∃ next, getNewWp p ftl name = .ok next ∧ SamePages ftl next ∧
    ((∃ home', MediaSound p loc next home' prog (Function.update lead name 0) ∧ (∃ ref, home' ref = .cur name) ∧ SameOut home home') ∨
      OutOfLines next name loc ∧ ∀ ref, home ref ≠ .free) := by
  have curline := (sound.homes.pointer name cur).mp here
  have medium := sound.homes.loc name cur curline
  subst medium
  have let_go := retire_sound p _ regular ftl home prog lead sound name cur here spent positive
  have let_gone : SamePages ftl (retired p (ftl.wps name).loc ftl name cur) :=
    ⟨⟨fun _ => rfl, rfl⟩, rfl, fun other => retire_tallies p ftl.lm _ cur other⟩
  have outSame : SameOut home (retiredHome ftl home cur) := by
    refine same_out_update home cur _ (by rw [here]; nofun) ?_
    split <;> nofun
  obtain ⟨free, full, housed⟩ := let_go.homes.housed
  cases free with
  | nil =>
      have found := no_free_line p _ { ftl with lm := retireCurline p ftl.lm (ftl.wps name).loc cur } (retiredHome ftl home cur) full housed
      have ran : getNewWp p ftl name = .ok (putWp (setFull { ftl with lm := retireCurline p ftl.lm (ftl.wps name).loc cur } (ftl.wps name).loc) name
          { (setFull { ftl with lm := retireCurline p ftl.lm (ftl.wps name).loc cur } (ftl.wps name).loc).wps name with curline := none }) := by
        unfold getNewWp
        rw [curline]
        dsimp only
        rw [found]
        rfl
      refine ⟨_, ran, ⟨?_, ?_, ?_⟩, .inr ⟨⟨?_, ?_⟩, ?_⟩⟩
      · have maps := set_full_maps { ftl with lm := retireCurline p ftl.lm (ftl.wps name).loc cur } (ftl.wps name).loc
        exact ⟨maps.table, maps.rmap⟩
      · exact (set_full_media _ (ftl.wps name).loc).2
      · intro other
        have lm := (set_full_media { ftl with lm := retireCurline p ftl.lm (ftl.wps name).loc cur } (ftl.wps name).loc).1
        change tally ((setFull { ftl with lm := retireCurline p ftl.lm (ftl.wps name).loc cur } (ftl.wps name).loc).lm.lines other) = _
        rw [lm]
        exact retire_tallies p ftl.lm _ cur other
      · rw [put_wp_pointer, if_pos rfl]
      · have lm : (putWp (setFull { ftl with lm := retireCurline p ftl.lm (ftl.wps name).loc cur } (ftl.wps name).loc) name
            { (setFull { ftl with lm := retireCurline p ftl.lm (ftl.wps name).loc cur } (ftl.wps name).loc).wps name with curline := none }).lm =
            retireCurline p ftl.lm (ftl.wps name).loc cur := (set_full_media _ (ftl.wps name).loc).1
        rw [lm]
        exact housed.stored.firstRing
      · intro ref free
        have apart : ref ≠ cur := by
          rintro rfl
          rw [here] at free
          cases free
        have kept : retiredHome ftl home cur ref = .free := (Function.update_of_ne apart ..).trans free
        exact List.not_mem_nil ((housed.stored.inFirst ref).mpr kept)
  | cons ref free =>
      have found := next_free_line p _ { ftl with lm := retireCurline p ftl.lm (ftl.wps name).loc cur } (retiredHome ftl home cur) free full ref housed
      let middle : ZmsFtl := { ftl with lm := delFree (retireCurline p ftl.lm (ftl.wps name).loc cur) (ftl.wps name).loc ref }
      have ran : getNewWp p ftl name = .ok (bumpZoneWrites (updateWritePointer (putWp middle name
          { middle.wps name with curline := some ref }) name (getFirstPage p ref)) name) := by
        unfold getNewWp
        rw [curline]
        dsimp only
        rw [found]
        rfl
      obtain ⟨lm, wps, nand⟩ := bump_keeps (updateWritePointer (putWp middle name
        { middle.wps name with curline := some ref }) name (getFirstPage p ref)) name
      have maps := media_maps _ _ (bump_zone_writes_media (updateWritePointer (putWp middle name
        { middle.wps name with curline := some ref }) name (getFirstPage p ref)) name)
      have idle : ∀ other, retiredHome ftl home cur other ≠ .cur name := by
        intro other there
        have pointed := (let_go.homes.pointer name other).mp there
        unfold retired at pointed
        rw [put_wp_pointer, if_pos rfl] at pointed
        cases pointed
      have onward : SamePages (retired p (ftl.wps name).loc ftl name cur) (bumpZoneWrites (updateWritePointer (putWp middle name
          { middle.wps name with curline := some ref }) name (getFirstPage p ref)) name) :=
        ⟨⟨maps.table, maps.rmap⟩, nand, fun other => by rw [lm]; rfl⟩
      have taken := take_line_sound p _ regular _ _ prog lead let_go _ name ref free full housed idle lm onward
        (by
          rw [wps]
          unfold updateWritePointer
          rw [put_wp_pointer, if_pos rfl, put_wp_pointer, if_pos rfl])
        (by
          intro other apart
          rw [wps]
          unfold updateWritePointer retired
          rw [put_wp_pointer, if_neg apart, put_wp_pointer, if_neg apart, put_wp_pointer, if_neg apart])
      have first : retiredHome ftl home cur ref = .free := (housed.stored.inFirst ref).mp List.mem_cons_self
      refine ⟨_, ran, same_pages_trans _ _ _ let_gone onward, .inl ⟨_, taken, ⟨ref, Function.update_self ..⟩, ?_⟩⟩
      exact same_out_trans _ _ _ outSame (same_out_update _ ref _ (by rw [first]; nofun) nofun)

end Retiring

section Advancing

variable (ioType : IoType) (cur : LineRef) (here : home cur = .cur (zmsGetWp ioType loc))

include regular in
theorem current_page (name : WpName) (owned : OwnedPage p (wpPage (ftl.wps name))) :
    getCurrentPage p ftl name = (wpPage (ftl.wps name), ftl) := by
  have inside := regular.numbering.inside _ owned
  unfold getCurrentPage
  exact if_neg (Nat.not_le_of_lt inside)

theorem update_pointer (name other : WpName) (page : Page) :
    (updateWritePointer ftl name page).wps other =
      if other = name then { ftl.wps name with block := page.block, pg := page.pg } else ftl.wps other := put_wp_pointer ftl name _ other

include sound here in
theorem stand_on (page : Page) (ahead : Nat) (owned : OwnedPage p page) (line : getLine p page = cur)
    (place : (prog cur : Int) + (ftl.lm.lines cur).rpc = placeIn p page + ahead) :
    MediaSound p loc (updateWritePointer ftl (zmsGetWp ioType loc) page) home prog (Function.update lead (zmsGetWp ioType loc) ahead) := by
  obtain ⟨pages, counts, homes⟩ := sound
  obtain ⟨keptPages, keptCounts⟩ := same_pages_sound p ftl (updateWritePointer ftl (zmsGetWp ioType loc) page)
    ⟨⟨fun _ => rfl, rfl⟩, rfl, fun _ => rfl⟩ prog pages counts
  have moved := update_pointer ftl (zmsGetWp ioType loc) (zmsGetWp ioType loc) page
  rw [if_pos rfl] at moved
  refine ⟨keptPages, keptCounts, homes_of_parts p loc _ home prog _ homes.housed ?_ (homes_spending p loc ftl home prog lead homes)⟩
  refine pointing_moved p loc ftl _ home prog prog lead _ homes (zmsGetWp ioType loc) cur here (fun other apart => ?_) ?_ ?_ (fun _ _ => ⟨rfl, rfl⟩)
    ?_ ?_ ?_
  · rw [update_pointer, if_neg apart, Function.update_of_ne apart]
    exact ⟨rfl, rfl⟩
  · rw [moved]
  · rw [moved]
  · rw [moved]
    exact owned
  · rw [moved]
    exact line
  · rw [moved, Function.update_self]
    exact place

include regular sound here in
theorem advance_sound (led : lead (zmsGetWp ioType loc) = 1) (positive : 0 < prog cur) :
    ∃ next, advanceWritePointer p ftl ioType loc = .ok next ∧ SamePages ftl next ∧
      ((∃ home', MediaSound p loc next home' prog (Function.update lead (zmsGetWp ioType loc) 0) ∧ (∃ ref, home' ref = .cur (zmsGetWp ioType loc)) ∧
          SameOut home home') ∨ OutOfLines next (zmsGetWp ioType loc) loc ∧ ∀ ref, home ref ≠ .free) := by
  obtain ⟨owned, line, stands⟩ := sound.homes.stands _ cur here
  rw [led] at stands
  have curline := (sound.homes.pointer _ cur).mp here
  have step := next_in_line p loc regular _ owned
  have kind : (if isSuperblock cur then nextpageInterleave p (wpPage (ftl.wps (zmsGetWp ioType loc)))
      else nextpageNormal p (wpPage (ftl.wps (zmsGetWp ioType loc)))) =
      lineStep p (wpPage (ftl.wps (zmsGetWp ioType loc))) (wpPage (ftl.wps (zmsGetWp ioType loc))) := by
    unfold lineStep
    rw [line]
    split <;> rfl
  unfold advanceWritePointer
  dsimp only
  rw [curline]
  dsimp only
  rw [current_page p loc regular ftl _ owned]
  dsimp only
  rw [kind]
  cases moved : lineStep p (wpPage (ftl.wps (zmsGetWp ioType loc))) (wpPage (ftl.wps (zmsGetWp ioType loc))) with
  | some there =>
      rw [moved] at step
      obtain ⟨thereOwned, thereLine, place⟩ := step
      refine ⟨_, rfl, ⟨⟨fun _ => rfl, rfl⟩, rfl, fun _ => rfl⟩, .inl ⟨home, ?_, ⟨cur, here⟩, same_out_refl home⟩⟩
      refine stand_on p loc ftl home prog lead sound ioType cur here there 0 thereOwned (thereLine.trans line) ?_
      rw [stands, place]
      push_cast
      omega
  | none =>
      rw [moved] at step
      dsimp only at step
      rw [line] at step
      exact new_wp_sound p loc regular ftl home prog lead sound (zmsGetWp ioType loc) cur here (by rw [stands, ← step]; push_cast; rfl) positive

include regular sound in
theorem opened_page (next : ZmsFtl) (page : Page) (led : lead (zmsGetWp ioType loc) = 0) (ran : getNewPage p ftl ioType loc = .ok (page, next)) :
    ∃ home', MediaSound p loc next home' prog lead ∧ (∃ ref, home' ref = .cur (zmsGetWp ioType loc)) ∧
      page = wpPage (next.wps (zmsGetWp ioType loc)) ∧ TakesFree (zmsGetWp ioType loc) home home' ∧ SamePages ftl next := by
  unfold getNewPage at ran
  obtain ⟨opened, opening, rest⟩ := bind_ok _ _ _ ran
  obtain ⟨home', kept, ⟨ref, there⟩, takes, same⟩ := open_sound p loc regular ftl home prog lead sound opened ioType led opening
  obtain ⟨owned, _⟩ := kept.homes.stands _ ref there
  rw [current_page p loc regular opened _ owned] at rest
  have result := Prod.mk.inj (pure_ok _ _ rest)
  rw [← result.2]
  exact ⟨home', kept, ⟨ref, there⟩, result.1.symm, takes, same⟩

include sound in
theorem page_runs (ref : LineRef) (room : home ref = .free ∨ home ref = .cur (zmsGetWp ioType loc)) :
    ∃ page next, getNewPage p ftl ioType loc = .ok (page, next) := by
  obtain ⟨opened, opening⟩ := open_runs p loc ftl home prog lead sound ioType ref room
  unfold getNewPage
  rw [opening]
  exact ⟨_, _, rfl⟩

include regular sound here in
theorem advanced_sound (advanced next : ZmsFtl) (last : Page) (led : lead (zmsGetWp ioType loc) = 1) (positive : 0 < prog cur)
    (advancing : advanceWritePointer p ftl ioType loc = .ok advanced) (checked : getNewPage p advanced ioType loc = .ok (last, next)) :
    ∃ home', MediaSound p loc next home' prog (Function.update lead (zmsGetWp ioType loc) 0) ∧ SameOut home home' ∧ SamePages ftl next := by
  obtain ⟨after, ran, same, moved⟩ := advance_sound p loc regular ftl home prog lead sound ioType cur here led positive
  rw [advancing] at ran
  rw [← Except.ok.inj ran] at same moved
  rcases moved with ⟨home', kept, _, outs⟩ | ⟨stuck, _⟩
  · obtain ⟨home'', opened, _, _, later, laterSame⟩ := opened_page p loc regular advanced home' prog _ kept ioType next last
      (Function.update_self ..) checked
    exact ⟨home'', opened, same_out_trans _ _ _ outs (takes_free_out _ _ _ later), same_pages_trans _ _ _ same laterSame⟩
  · rw [get_new_page_fails p advanced ioType loc stuck.curline stuck.free] at checked
    exact nomatch checked

include regular sound here in
theorem advanced_runs (led : lead (zmsGetWp ioType loc) = 1) (positive : 0 < prog cur) (spare : LineRef) (free : home spare = .free) :
    ∃ advanced last next, advanceWritePointer p ftl ioType loc = .ok advanced ∧ getNewPage p advanced ioType loc = .ok (last, next) := by
  obtain ⟨advanced, advancing, _, moved⟩ := advance_sound p loc regular ftl home prog lead sound ioType cur here led positive
  rcases moved with ⟨home', kept, ⟨ref, there⟩, _⟩ | ⟨_, noSpare⟩
  · obtain ⟨last, next, checked⟩ := page_runs p loc advanced home' prog _ kept ioType ref (.inr there)
    exact ⟨advanced, last, next, advancing, checked⟩
  · exact absurd free (noSpare spare)

end Advancing

section Assigning

variable (lpn : Nat) (page : Page) (map : MapType) (inside : lpn < p.zpp.ttLpns) (unmapped : ∀ there, ¬OnPage p ftl lpn there)
variable (name : WpName) (cur : LineRef) (here : home cur = .cur name)

include regular sound here in
-- The page a write pointer stands on is blank as long as nothing of its line
-- is reserved.
theorem pointer_blank (led : lead name = 0) (settled : (ftl.lm.lines cur).rpc = 0) :
    Markable p ftl (wpPage (ftl.wps name)) ∧ placeIn p (wpPage (ftl.wps name)) = prog cur ∧ getLine p (wpPage (ftl.wps name)) = cur := by
  obtain ⟨owned, line, stands⟩ := sound.homes.stands name cur here
  rw [led, settled] at stands
  have place : placeIn p (wpPage (ftl.wps name)) = prog cur := by omega
  have free := sound.pages.blank _ owned (by rw [line]; omega)
  exact ⟨blank_markable p loc regular ftl sound.counts _ owned free, place, line⟩

include regular sound here inside unmapped in
theorem assign_sound (led : lead name = 0) (settled : (ftl.lm.lines cur).rpc = 0) :
    MediaSound p loc (assignPage p ftl lpn (wpPage (ftl.wps name)) map) home (Function.update prog cur (prog cur + 1))
      (Function.update lead name 1) := by
  obtain ⟨markable, place, line⟩ := pointer_blank p loc regular ftl home prog lead sound name cur here led settled
  have pages := assign_pages p loc regular ftl prog lpn _ map inside markable sound.pages (by rw [line]; exact place) unmapped
  have counts := assign_counts p ftl lpn _ map inside markable sound.counts
  obtain ⟨lm, wps⟩ := assign_lm p ftl lpn _ map inside markable
  rw [line] at pages lm
  have counted : ∀ ref, (tally ((assignPage p ftl lpn (wpPage (ftl.wps name)) map).lm.lines ref)).2 = (tally (ftl.lm.lines ref)).2 := by
    intro ref
    rw [lm]
    by_cases same : ref = cur
    · simp [countValid, tally, same]
    · simp [countValid, tally, Function.update_of_ne same]
  have rpc : ∀ ref, ((assignPage p ftl lpn (wpPage (ftl.wps name)) map).lm.lines ref).rpc = (ftl.lm.lines ref).rpc := fun ref =>
    congrArg (fun counts => counts.2.1) (counted ref)
  obtain ⟨_, _, homes⟩ := sound
  have away : ∀ ref, ref ≠ cur → Function.update prog cur (prog cur + 1) ref = prog ref := fun ref apart => Function.update_of_ne apart _ _
  refine ⟨pages, counts, homes_of_parts p loc _ home _ _ ?_ ?_ ?_⟩
  · obtain ⟨free, full, housed⟩ := homes.housed
    rw [lm]
    refine ⟨free, full, housed_lines p loc ftl.lm home free full _ (fun ref => ?_) housed⟩
    by_cases same : ref = cur
    · simp [same]
    · simp [Function.update_of_ne same]
  · refine pointing_moved p loc ftl _ home prog _ lead _ homes name cur here (fun other apart => ⟨by rw [wps], Function.update_of_ne apart _ _⟩)
      (by rw [wps]) (by rw [wps]) (fun ref apart => ⟨away ref apart, rpc ref⟩) ?_ ?_ ?_
    · rw [wps]
      exact (homes.stands name cur here).1
    · rw [wps]
      exact line
    · rw [wps, rpc, Function.update_self, Function.update_self, place, settled]
      push_cast
      omega
  · refine spending_changed p loc ftl _ home home prog _ lead homes cur (fun _ _ => rfl) away (fun ref _ => counted ref) ?_
    refine spending_counts p cur _ (ftl.lm.lines cur) _ _ (counted cur) ?_
    rw [here]
    exact spending_current p name cur _ _ (homes.reserved cur) (homes.unlinked cur)

end Assigning

section Reserving

variable (slpn pgs : Nat) (unmapped : ∀ lpn, slpn ≤ lpn → lpn < slpn + pgs → ∀ page, ¬OnPage p ftl lpn page)

include unmapped in
theorem reserve_entries_on_page (lpn : Nat) (page : Page) : OnPage p (reserveEntries ftl slpn pgs) lpn page ↔ OnPage p ftl lpn page := by
  unfold OnPage reserveEntries
  dsimp only
  by_cases inside : slpn ≤ lpn ∧ lpn < slpn + pgs
  · rw [if_pos inside]
    exact iff_of_false (fun there => nomatch there.2) fun there => unmapped lpn inside.1 inside.2 page there
  · rw [if_neg inside]

include sound unmapped in
theorem reserve_entries_sound : MediaSound p loc (reserveEntries ftl slpn pgs) home prog lead :=
  ⟨pages_congr p ftl (reserveEntries ftl slpn pgs) rfl (reserve_entries_on_page p ftl slpn pgs unmapped) rfl prog sound.pages,
    counts_congr p ftl (reserveEntries ftl slpn pgs) rfl (fun _ => rfl) sound.counts,
    homes_congr p loc ftl (reserveEntries ftl slpn pgs) rfl rfl home prog _ sound.homes⟩

end Reserving

end Moving

-- What work on the medium can reach of a namespace: the medium and the
-- aggregated LPNs.
def lowerSide (ftl : ZmsFtl) : MediaSide × (Nat → List Nat) := (mediaSide ftl, ftl.zoneAggLpns)

-- A page write maps its LPN; after that only the collection that a spent credit
-- may bring about touches the medium.
structure WroteAs (collect : ZmsFtl → Loc → Exec ZmsFtl) (loc : Loc) (written next : ZmsFtl) : Prop where
  settled : lowerSide next = lowerSide written ∨ ∃ paid collected, lowerSide paid = lowerSide written ∧
    collect paid loc = .ok collected ∧ lowerSide next = lowerSide collected

theorem program_page_lower (p : Params) (ftl : ZmsFtl) (start lpn : Nat) (loc : Loc) (ioType : IoType) (toWritePgs elpn : Nat) (page : Page) :
    lowerSide (programPage p ftl start lpn loc ioType toWritePgs elpn page).2 = lowerSide ftl := by
  refine Prod.ext (program_page_quiet p ftl start lpn loc ioType toWritePgs elpn page).media ?_
  unfold programPage lowerSide
  split
  · split
    · rfl
    · rfl
  · rfl

theorem nand_write_runs (collect : ZmsFtl → Loc → Exec ZmsFtl) (p : Params) (ftl next : ZmsFtl) (start lpn : Nat) (loc : Loc) (ioType : IoType)
    (toWritePgs elpn time : Nat) (ran : nandWrite collect p ftl start lpn loc ioType toWritePgs elpn = .ok (time, next)) :
    ∃ written, updateOrReserveMapping p ftl lpn loc ioType = .ok written ∧ WroteAs collect loc written next := by
  unfold nandWrite at ran
  obtain ⟨written, mapping, rest⟩ := bind_ok _ _ _ ran
  refine ⟨written, mapping, ⟨?_⟩⟩
  split at rest
  · rename_i page map _
    split at rest
    · rw [← (Prod.mk.inj (pure_ok _ _ rest)).2]
      exact .inl rfl
    · have below := program_page_lower p written start lpn loc ioType toWritePgs elpn page
      generalize programPage p written start lpn loc ioType toWritePgs elpn page = programmed at rest below
      obtain ⟨finish, middle⟩ := programmed
      dsimp only at rest below
      split at rest
      · obtain ⟨refilled, refilling, rest⟩ := bind_ok _ _ _ rest
        rw [← (Prod.mk.inj (pure_ok _ _ rest)).2]
        unfold checkAndRefillWriteCredit at refilling
        split at refilling
        · obtain ⟨collected, collecting, rest⟩ := bind_ok _ _ _ refilling
          rw [← pure_ok _ _ rest]
          exact .inr ⟨consumeWriteCredit middle loc, collected, below, collecting, rfl⟩
        · rw [← pure_ok _ _ refilling]
          exact .inl below
      · rw [← (Prod.mk.inj (pure_ok _ _ rest)).2]
        exact .inl below
  · rw [← (Prod.mk.inj (pure_ok _ _ rest)).2]
    exact .inl rfl

end ConZone
