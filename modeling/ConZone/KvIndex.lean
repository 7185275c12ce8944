import ConZone.Kv

set_option autoImplicit false

namespace ConZone

section Conditions

variable (p : KvParams)

-- A key that is not stored is not taken for a stored one: the entry of no stored
-- key that the search comes to begins with it, as memcmp over its own length sees.
def Unmistaken (state : KvState) (key : KvKey) : Prop :=
  state.last key = none → ∀ other, state.last other ≠ none → ∀ slot, FoundAt p state.ftl.kvMappingTable other slot →
    Looks p state.ftl.kvMappingTable key slot → keyMatches key (state.ftl.kvMappingTable slot) = false

def LengthRecorded (event : KvEvent) (stored : KvStored) (value : List UInt8) : Prop :=
  value.length = stored.value.length ∨ recordsLength event value.length stored.value.length = true

def NothingBehind (state : KvState) (key : KvKey) : Prop :=
  ∀ other, other ≠ key → state.last other ≠ none → ∀ slot, FoundAt p state.ftl.kvMappingTable key slot →
    ¬Looks p state.ftl.kvMappingTable other slot

def IndexKept (state : KvState) (event : KvEvent) : Prop :=
  Unmistaken p state (askedOf event).key ∧
    match askedOf event with
    | .store key value => ∀ stored, state.last key = some stored → LengthRecorded event stored value
    | .delete key => NothingBehind p state key
    | .look _ => True

-- get_mapping_entry gives what was stored last, and nothing where nothing is.
def Answers (state : KvState) (key : KvKey) : Prop :=
  ∃ entry, getMappingEntry p state.ftl.kvMappingTable key = .ok entry ∧
    match state.last key with
    | none => entry.memOffset = none
    | some stored => entry.memOffset = some stored.offset ∧ entry.length = stored.value.length

end Conditions

section Chains

variable (p : KvParams) (table next : MappingTable) (key : KvKey)

theorem chain_at_before (count index there : Nat) (onChain : chainAt p table key count = some there) (before : index ≤ count) :
    ∃ place, chainAt p table key index = some place := by
  unfold chainAt at onChain ⊢
  split at onChain
  · rename_i home
    rw [if_pos home]
    exact Walk.advance_before _ count index _ there onChain before
  · cases onChain

theorem unfound_chain (unfound : Unfound p table key) (count there : Nat) (onChain : chainAt p table key count = some there) :
    keyMatches key (table there) = false := by
  induction count using Nat.strong_induction_on generalizing there with
  | _ count ih => exact unfound there ⟨count, onChain, fun index before below reached => ih index below before reached⟩

end Chains

section Entries

variable (p : KvParams)

-- place tells where the entry of each stored key is. There are no other entries.
structure Indexed (table : MappingTable) (last : KvContents) (place : KvKey → Nat) : Prop where
  linked : Linked p table
  found : ∀ key stored, last key = some stored → FoundAt p table key (place key)
  entry : ∀ key stored, last key = some stored →
    (table (place key)).memOffset = some stored.offset ∧ (table (place key)).length = stored.value.length
  apart : ∀ key other, last key ≠ none → last other ≠ none → place key = place other → key = other
  owned : ∀ slot, occupied table slot = true → ∃ key, last key ≠ none ∧ place key = slot

variable (table next : MappingTable) (last : KvContents) (place : KvKey → Nat) (indexed : Indexed p table last place)

include indexed in
theorem stored_occupied (key : KvKey) (stored : KvStored) (known : last key = some stored) : occupied table (place key) = true := by
  unfold occupied
  rw [(indexed.entry key stored known).1]
  rfl

section Insertion

variable (key : KvKey) (length offset slot : Nat) (made : Inserted p table next key length offset slot)

include made in
theorem inserted_matches (other : KvKey) (there : Nat) (held : occupied table there = true) :
    keyMatches other (next there) = keyMatches other (table there) := by
  have apart : there ≠ slot := by
    rintro rfl
    rw [made.empty] at held
    cases held
  unfold keyMatches
  rw [(made.others there apart).1]

include made in
theorem inserted_keeps (other : KvKey) (there : Nat) (found : FoundAt p table other there) : FoundAt p next other there := by
  have taken := inserted_taken p table next key length offset slot made
  obtain ⟨⟨count, onChain, first⟩, matched⟩ := found
  have held := chain_at_occupied p table other count there onChain
  refine ⟨⟨count, chain_at_enters p table next other slot made.enters taken count there onChain, ?_⟩, ?_⟩
  · intro index before below reached
    obtain ⟨onOld, earlier⟩ := chain_at_before p table other count index there onChain (Nat.le_of_lt below)
    have same := chain_at_enters p table next other slot made.enters taken index onOld earlier
    rw [reached] at same
    rw [Option.some.inj same, inserted_matches p table next key length offset slot made other onOld
      (chain_at_occupied p table other index onOld earlier)]
    exact first index onOld below earlier
  · rw [inserted_matches p table next key length offset slot made other there held]
    exact matched

include made in
theorem inserted_found (unfound : Unfound p table key) : FoundAt p next key slot := by
  have taken := inserted_taken p table next key length offset slot made
  obtain ⟨count, onChain⟩ := made.reached
  refine ⟨⟨count, onChain, ?_⟩, made.matched⟩
  intro index before below reached
  rcases chain_at_entered p table next key slot made.enters taken index before reached with earlier | new
  · rw [inserted_matches p table next key length offset slot made key before (chain_at_occupied p table key index before earlier)]
    exact unfound_chain p table key unfound index before earlier
  · obtain ⟨following, on⟩ := chain_at_before p next key count (index + 1) slot onChain below
    rw [chain_at_succ, reached, new, Option.bind_some, made.enters.last] at on
    cases on

include indexed made in
theorem inserted_indexed (unfound : Unfound p table key) (value : List UInt8) (absent : last key = none) (size : length = value.length) :
    Indexed p next (Function.update last key (some ⟨offset, value.length, value⟩)) (Function.update place key slot) := by
  have other_apart : ∀ other stored, last other = some stored → place other ≠ slot := by
    intro other stored known same
    have held := stored_occupied p table last place indexed other stored known
    rw [same, made.empty] at held
    cases held
  refine ⟨made.linked, ?_, ?_, ?_, ?_⟩
  · intro other stored known
    by_cases here : other = key
    · subst here
      rw [Function.update_self]
      exact inserted_found p table next other length offset slot made unfound
    · rw [Function.update_of_ne here] at known ⊢
      exact inserted_keeps p table next key length offset slot made other _ (indexed.found other stored known)
  · intro other stored known
    by_cases here : other = key
    · subst here
      rw [Function.update_self] at known ⊢
      rw [← Option.some.inj known, ← size]
      exact made.filled
    · rw [Function.update_of_ne here] at known ⊢
      obtain ⟨_, offsetSame, lengthSame⟩ := made.others (place other) (other_apart other stored known)
      rw [offsetSame, lengthSame]
      exact indexed.entry other stored known
  · intro first second firstKnown secondKnown same
    by_cases one : first = key
    · by_cases two : second = key
      · exact one.trans two.symm
      · subst one
        rw [Function.update_of_ne two] at secondKnown same
        rw [Function.update_self] at same
        obtain ⟨stored, known⟩ := Option.ne_none_iff_exists'.mp secondKnown
        exact absurd same.symm (other_apart second stored known)
    · rw [Function.update_of_ne one] at firstKnown same
      by_cases two : second = key
      · subst two
        rw [Function.update_self] at same
        obtain ⟨stored, known⟩ := Option.ne_none_iff_exists'.mp firstKnown
        exact absurd same (other_apart first stored known)
      · rw [Function.update_of_ne two] at secondKnown same
        exact indexed.apart first second firstKnown secondKnown same
  · intro there held
    by_cases new : there = slot
    · exact ⟨key, by simp, by rw [Function.update_self, new]⟩
    · have before : occupied table there = true := by
        unfold occupied at held ⊢
        rwa [← (made.others there new).2.1]
      obtain ⟨other, known, placed⟩ := indexed.owned there before
      have apart : other ≠ key := by
        rintro rfl
        exact known absent
      exact ⟨other, by rwa [Function.update_of_ne apart], by rwa [Function.update_of_ne apart]⟩

end Insertion

section Deletion

variable (key : KvKey) (slot : Nat)

theorem erased_keeps (other : KvKey) (there : Nat) (found : FoundAt p table other there) (aside : ¬Looks p table other slot) :
    FoundAt p (Function.update table slot erasedEntry) other there := by
  obtain ⟨⟨count, onChain, first⟩, matched⟩ := found
  have spared : ∀ index, index ≤ count → chainAt p table other index ≠ some slot := by
    intro index within reached
    exact aside ⟨index, reached, fun earlier before below => first earlier before (by omega)⟩
  refine ⟨⟨count, erase_chain_kept p table slot other count there onChain spared, ?_⟩, ?_⟩
  · intro index before below reached
    have earlier := erase_chain_cut p table slot other index before reached
    have apart : before ≠ slot := fun same => spared index (Nat.le_of_lt below) (by rw [earlier, same])
    rw [Function.update_of_ne apart]
    exact first index before below earlier
  · have apart : there ≠ slot := fun same => spared count (Nat.le_refl _) (by rw [onChain, same])
    rw [Function.update_of_ne apart]
    exact matched

include indexed in
theorem erased_indexed (own : place key = slot) (aside : ∀ other, other ≠ key → last other ≠ none → ¬Looks p table other slot) :
    Indexed p (Function.update table slot erasedEntry) (Function.update last key none) place := by
  have kept : ∀ other stored, Function.update last key none other = some stored → other ≠ key ∧ last other = some stored := by
    intro other stored known
    by_cases here : other = key
    · subst here
      rw [Function.update_self] at known
      cases known
    · rw [Function.update_of_ne here] at known
      exact ⟨here, known⟩
  refine ⟨erase_linked p table slot indexed.linked, ?_, ?_, ?_, ?_⟩
  · intro other stored known
    obtain ⟨apart, before⟩ := kept other stored known
    exact erased_keeps p table slot other _ (indexed.found other stored before) (aside other apart (by simp [before]))
  · intro other stored known
    obtain ⟨apart, before⟩ := kept other stored known
    have found := indexed.found other stored before
    have elsewhere : place other ≠ slot := by
      intro same
      have looks := found.looks
      rw [same] at looks
      exact aside other apart (by simp [before]) looks
    rw [Function.update_of_ne elsewhere]
    exact indexed.entry other stored before
  · intro first second firstKnown secondKnown same
    obtain ⟨one, known⟩ := Option.ne_none_iff_exists'.mp firstKnown
    obtain ⟨two, other⟩ := Option.ne_none_iff_exists'.mp secondKnown
    exact indexed.apart first second (by simp [(kept first one known).2]) (by simp [(kept second two other).2]) same
  · intro there held
    have elsewhere : there ≠ slot := by
      rintro rfl
      simp [occupied, erasedEntry] at held
    have before : occupied table there = true := by
      unfold occupied at held ⊢
      rwa [Function.update_of_ne elsewhere] at held
    obtain ⟨other, known, placed⟩ := indexed.owned there before
    have apart : other ≠ key := by
      rintro rfl
      exact elsewhere (placed.symm.trans own)
    exact ⟨other, by rwa [Function.update_of_ne apart], placed⟩

end Deletion

section Updating

variable (key : KvKey) (length : Nat)

theorem resized_keeps (slot : Nat) (other : KvKey) (there : Nat) (found : FoundAt p table other there) :
    FoundAt p (Function.update table slot { table slot with length := length }) other there := by
  obtain ⟨⟨count, onChain, first⟩, matched⟩ := found
  refine ⟨⟨count, (resize_chain p table slot length other count).trans onChain, ?_⟩, (resize_matches table slot length other there).trans matched⟩
  intro index before below reached
  rw [resize_chain] at reached
  rw [resize_matches]
  exact first index before below reached

include indexed in
theorem resized_indexed (before stored : KvStored) (known : last key = some before) (offset : stored.offset = before.offset)
    (size : length = stored.value.length) :
    Indexed p (Function.update table (place key) { table (place key) with length := length }) (Function.update last key (some stored)) place := by
  refine ⟨resize_linked p table _ length indexed.linked, ?_, ?_, ?_, ?_⟩
  · intro other record recorded
    refine resized_keeps p table length (place key) other _ ?_
    by_cases here : other = key
    · subst here
      exact indexed.found other before known
    · rw [Function.update_of_ne here] at recorded
      exact indexed.found other record recorded
  · intro other record recorded
    by_cases here : other = key
    · subst here
      rw [Function.update_self] at recorded
      rw [← Option.some.inj recorded, offset, ← size]
      exact ⟨by simp [(indexed.entry other before known).1], by simp⟩
    · rw [Function.update_of_ne here] at recorded
      have apart : place other ≠ place key :=
        fun same => here (indexed.apart other key (by simp [recorded]) (by simp [known]) same)
      rw [Function.update_of_ne apart]
      exact indexed.entry other record recorded
  · have stillKnown : ∀ other, Function.update last key (some stored) other ≠ none → last other ≠ none := by
      intro other present
      by_cases here : other = key
      · rw [here, known]
        simp
      · rwa [Function.update_of_ne here] at present
    intro first second firstKnown secondKnown same
    exact indexed.apart first second (stillKnown first firstKnown) (stillKnown second secondKnown) same
  · intro there held
    have before : occupied table there = true := by
      by_cases here : there = place key
      · rw [here] at held ⊢
        unfold occupied at held ⊢
        rwa [Function.update_self] at held
      · unfold occupied at held ⊢
        rwa [Function.update_of_ne here] at held
    obtain ⟨other, there', placed⟩ := indexed.owned there before
    refine ⟨other, ?_, placed⟩
    by_cases same : other = key
    · rw [same, Function.update_self]
      simp
    · rwa [Function.update_of_ne same]

include indexed in
theorem restored_indexed (before stored : KvStored) (known : last key = some before) (offset : stored.offset = before.offset)
    (size : stored.value.length = before.value.length) : Indexed p table (Function.update last key (some stored)) place := by
  have entry := (indexed.entry key before known).2
  have same := resized_indexed p table last place indexed key (table (place key)).length before stored known offset (entry.trans size.symm)
  rwa [show ({ table (place key) with length := (table (place key)).length } : MappingEntry) = table (place key) from rfl,
    Function.update_eq_self] at same

end Updating

end Entries

section Steps

variable (p : KvParams)

def Indexes (state : KvState) : Prop := ∃ place, Indexed p state.ftl.kvMappingTable state.last place

theorem known_found (state : KvState) (place : KvKey → Nat) (indexed : Indexed p state.ftl.kvMappingTable state.last place) (key : KvKey)
    (unfound : Unfound p state.ftl.kvMappingTable key) : state.last key = none := by
  cases known : state.last key with
  | none => rfl
  | some stored => exact absurd (indexed.found key stored known) (unfound_not_found p _ key unfound _)

-- An entry is taken for a key only where it is the entry of a stored key.
theorem unmistaken_unfound (state : KvState) (place : KvKey → Nat) (indexed : Indexed p state.ftl.kvMappingTable state.last place)
    (key : KvKey) (unmistaken : Unmistaken p state key) (absent : state.last key = none) : Unfound p state.ftl.kvMappingTable key := by
  intro slot looks
  have ⟨count, reached, _⟩ := looks
  obtain ⟨other, known, placed⟩ := indexed.owned slot (chain_at_occupied p _ key count slot reached)
  obtain ⟨stored, held⟩ := Option.ne_none_iff_exists'.mp known
  have found := indexed.found other stored held
  rw [placed] at found
  exact unmistaken absent other known slot found looks

theorem found_place (state : KvState) (place : KvKey → Nat) (indexed : Indexed p state.ftl.kvMappingTable state.last place) (key : KvKey)
    (slot : Nat) (found : FoundAt p state.ftl.kvMappingTable key slot) (unmistaken : Unmistaken p state key) :
    ∃ stored, state.last key = some stored ∧ slot = place key := by
  cases known : state.last key with
  | none => exact absurd found (unfound_not_found p _ key (unmistaken_unfound p state place indexed key unmistaken known) slot)
  | some stored => exact ⟨stored, rfl, found_unique p _ indexed.linked key slot (place key) found (indexed.found key stored known)⟩

theorem step_mapped (state next : KvState) (event : KvEvent) (mapped : Indexes p state) (kept : IndexKept p state event)
    (taken : KvStep p state event next) : Indexes p next := by
  obtain ⟨place, indexed⟩ := mapped
  obtain ⟨ran, contents⟩ := taken
  obtain ⟨unmistaken, condition⟩ := kept
  have performed := kv_run_performed p _ _ indexed.linked event ran
  unfold Indexes
  rw [contents]
  generalize askedOf event = asked at performed unmistaken condition
  generalize next.ftl = after at performed
  cases performed with
  | look key => exact ⟨place, indexed⟩
  | deleted key slot found =>
      obtain ⟨_, _, own⟩ := found_place p state place indexed key slot found unmistaken
      exact ⟨place, erased_indexed p _ _ place indexed key slot own.symm fun other apart known => condition other apart known slot found⟩
  | missed key unfound =>
      have absent := known_found p state place indexed key unfound
      rw [contents_missed _ _ key absent]
      exact ⟨place, indexed⟩
  | inserted key value slot table unfound _ made =>
      have absent := known_found p state place indexed key unfound
      rw [contents_inserted _ _ key value absent]
      refine ⟨Function.update place key slot, ?_⟩
      exact inserted_indexed p _ table _ place indexed key _ _ slot made unfound value absent rfl
  | updated key value slot offset found held =>
      obtain ⟨before, known, same⟩ := found_place p state place indexed key slot found unmistaken
      subst same
      rw [contents_updated _ _ key value before known]
      refine ⟨place, ?_⟩
      have entry := (indexed.entry key before known).2
      dsimp only
      split
      · exact resized_indexed p _ _ place indexed key _ before _ known rfl rfl
      · rename_i keeps
        rw [entry] at keeps
        rcases condition before known with equal | records
        · exact restored_indexed p _ _ place indexed key before _ known rfl equal
        · exact absurd records keeps

theorem init_mapped (state : KvState) (init : (kvSystem p).init state) : Indexes p state := by
  obtain ⟨storage, rfl⟩ := init
  refine ⟨fun _ => 0, init_linked p storage, ?_, ?_, ?_, ?_⟩
  · intro key stored known
    cases known
  · intro key stored known
    cases known
  · intro key other known
    exact absurd rfl known
  · intro slot held
    cases held

theorem mapped_answers_iff (state : KvState) (mapped : Indexes p state) (key : KvKey) : Answers p state key ↔ Unmistaken p state key := by
  obtain ⟨place, indexed⟩ := mapped
  unfold Answers Unmistaken
  rcases get_mapping_entry_cases p _ indexed.linked key with ⟨got, unfound⟩ | ⟨entry, slot, got, found, sameOffset, sameLength⟩
  · have absent := known_found p state place indexed key unfound
    rw [absent]
    exact ⟨fun _ _ other _ slot _ looks => unfound slot looks, fun _ => ⟨erasedEntry, got, rfl⟩⟩
  · cases known : state.last key with
    | none =>
        constructor
        · rintro ⟨other, again, forgotten⟩
          rw [got] at again
          obtain ⟨offset, held⟩ := found_held p _ key slot found
          rw [← Except.ok.inj again, sameOffset, held] at forgotten
          cases forgotten
        · intro unmistaken
          have unfound := unmistaken_unfound p state place indexed key (fun _ => unmistaken rfl) known
          exact absurd found (unfound_not_found p _ key unfound slot)
    | some stored =>
        have same := found_unique p _ indexed.linked key slot (place key) found (indexed.found key stored known)
        have said := indexed.entry key stored known
        refine ⟨fun _ absent => ?_, fun _ => ⟨entry, got, ?_⟩⟩
        · cases absent
        · rw [sameOffset, sameLength, same]
          exact said

def IndexEnds (table : MappingTable) : Prop :=
  (∀ key, ∃ entry, getMappingEntry p table key = .ok entry) ∧
    (∀ key length, ∃ next, updateMappingEntry p table key length = .ok next) ∧
    (∀ key, ∃ next, deleteMappingEntry p table key = .ok next) ∧
    ∀ key length offset, HasFree p table → offset < p.storageSize → ∃ next, newMappingEntry p table key length offset = .ok next

theorem linked_index_ends (table : MappingTable) (linked : Linked p table) : IndexEnds p table := by
  have found : ∀ key, ∃ result, findSlot p table key = .ok result := by
    intro key
    obtain ⟨result, ran, _⟩ := find_slot_spec p table linked key
    exact ⟨result, ran⟩
  refine ⟨?_, ?_, ?_, ?_⟩
  · intro key
    rcases get_mapping_entry_cases p table linked key with ⟨got, _⟩ | ⟨entry, _, got, _⟩
    · exact ⟨erasedEntry, got⟩
    · exact ⟨entry, got⟩
  · intro key length
    obtain ⟨result, ran⟩ := found key
    unfold updateMappingEntry
    rw [ran]
    cases result with
    | none => exact ⟨table, rfl⟩
    | some slot => exact ⟨_, rfl⟩
  · intro key
    obtain ⟨result, ran⟩ := found key
    unfold deleteMappingEntry
    rw [ran]
    cases result with
    | none => exact ⟨table, rfl⟩
    | some slot => exact ⟨_, rfl⟩
  · intro key length offset free fits
    exact new_mapping_entry_runs p table key length offset linked free fits

-- In every run the loops end; in a run of such steps the index is a map.
theorem kv_index_map :
    (∀ state, TransitionSystem.Reach (kvSystem p) (fun _ _ => True) state → IndexEnds p state.ftl.kvMappingTable) ∧
      ∀ state, TransitionSystem.Reach (kvSystem p) (IndexKept p) state → ∀ key, Answers p state key ↔ Unmistaken p state key := by
  constructor
  · intro state reached
    exact linked_index_ends p _ (reached_linked p _ state reached)
  · intro state reached key
    refine mapped_answers_iff p state ?_ key
    refine TransitionSystem.reach_invariant (kvSystem p) (IndexKept p) (Indexes p) ⟨init_mapped p, ?_⟩ state reached
    intro before after event mapped kept taken
    exact step_mapped p before after event mapped kept taken

end Steps

section Runs

variable (p : KvParams)

def runKv (permits : KvState → KvEvent → Bool) : List KvEvent → KvState → Option KvState
  | [], state => some state
  | event :: rest, state =>
      if permits state event then
        match kvRun p state.ftl event with
        | .ok ftl => runKv permits rest ⟨ftl, contentsNext state.ftl.allocator state.last (askedOf event)⟩
        | .error _ => none
      else none

theorem run_kv_reach (allowed : KvState → KvEvent → Prop) (permits : KvState → KvEvent → Bool)
    (sound : ∀ state event, permits state event = true → allowed state event) (events : List KvEvent) (state last : KvState)
    (reached : TransitionSystem.Reach (kvSystem p) allowed state) (ran : runKv p permits events state = some last) :
    TransitionSystem.Reach (kvSystem p) allowed last := by
  induction events generalizing state with
  | nil =>
      rw [← Option.some.inj ran]
      exact reached
  | cons event rest ih =>
      unfold runKv at ran
      split at ran
      · rename_i permitted
        cases performed : kvRun p state.ftl event with
        | ok ftl =>
            rw [performed] at ran
            refine ih _ ?_ ran
            exact .next state _ event reached (sound state event permitted) ⟨performed, rfl⟩
        | error fault =>
            rw [performed] at ran
            cases ran
      · cases ran

theorem contents_other (pool : AppendOnly) (last : KvContents) (asked : KvEffect) (other : KvKey) (apart : other ≠ asked.key) :
    contentsNext pool last asked other = last other := by
  cases asked with
  | store key value => exact Function.update_of_ne apart _ _
  | delete key => exact Function.update_of_ne apart _ _
  | look key => rfl

theorem run_kv_untouched (permits : KvState → KvEvent → Bool) (events : List KvEvent) (state last : KvState)
    (ran : runKv p permits events state = some last) (key : KvKey) (others : ∀ event ∈ events, key ≠ (askedOf event).key) :
    last.last key = state.last key := by
  induction events generalizing state with
  | nil => rw [← Option.some.inj ran]
  | cons event rest ih =>
      unfold runKv at ran
      split at ran
      · cases performed : kvRun p state.ftl event with
        | ok ftl =>
            rw [performed] at ran
            rw [ih _ ran fun other member => others other (List.mem_cons_of_mem _ member)]
            exact contents_other _ _ _ _ (others event List.mem_cons_self)
        | error fault =>
            rw [performed] at ran
            cases ran
      · cases ran

theorem run_kv_check (allowed : KvState → KvEvent → Prop) (permits : KvState → KvEvent → Bool)
    (sound : ∀ state event, permits state event = true → allowed state event) (events : List KvEvent) (check : KvState → Bool)
    (ran : (runKv p permits events ⟨kvInitNamespace p fun _ => 0, fun _ => none⟩).any check = true) :
    ∃ state, TransitionSystem.Reach (kvSystem p) allowed state ∧ check state = true := by
  rw [Option.any_eq_true] at ran
  obtain ⟨last, ran, checked⟩ := ran
  exact ⟨last, run_kv_reach p allowed permits sound events _ last (.start _ ⟨_, rfl⟩) ran, checked⟩

end Runs

-- KV_MAPPING_TABLE_SIZE bytes of mapping entries of 48 bytes each.
def deviceParams : KvParams :=
  ⟨hashFunction, 2 ^ 30 / 48, 2 ^ 30, by decide, by decide, by decide⟩

def inlineKey (bytes : List UInt8) (fits : 0 < bytes.length ∧ bytes.length ≤ 16) : KvKey := ⟨bytes, fits.1, fits.2⟩

def firstKey : KvKey := inlineKey [97, 107, 99, 108] (by decide)
def secondKey : KvKey := inlineKey [105, 109, 120, 97] (by decide)

def hostData : DataPointer := ⟨0, 0, fun _ => 0, fun address => UInt8.ofNat address⟩

def storeWords (key : KvKey) (words : Nat) : KvEvent := .io ⟨.store, key, words, hostData⟩

def missesStored (state : KvState) : Bool :=
  (state.last secondKey).isSome &&
    match getMappingEntry deviceParams state.ftl.kvMappingTable secondKey with
    | .ok entry => entry.memOffset.isNone
    | .error _ => false

def storesFresh (state : KvState) (event : KvEvent) : Bool :=
  (state.last (askedOf event).key).isNone && !occupied state.ftl.kvMappingTable (getHashSlot deviceParams (askedOf event).key) &&
    match askedOf event with
    | .store _ _ => true
    | .delete _ | .look _ => false

theorem stores_fresh_kept (state : KvState) (event : KvEvent) (fresh : storesFresh state event = true) : IndexKept deviceParams state event := by
  simp only [storesFresh, Bool.and_eq_true, Option.isNone_iff_eq_none, Bool.not_eq_true'] at fresh
  obtain ⟨⟨absent, free⟩, stores⟩ := fresh
  refine ⟨?_, ?_⟩
  · rintro _ other _ slot _ ⟨count, onChain, _⟩
    simp [chainAt, free] at onChain
  · cases asked : askedOf event with
    | store key value =>
        rw [asked] at absent
        intro stored known
        exact absurd (absent.symm.trans known) (by simp)
    | delete => simp [asked] at stores
    | look => simp [asked] at stores

def deleteFirst : KvEvent := .io ⟨.delete, firstKey, 0, hostData⟩

-- A key is stored, looked up and deleted again, and looked up once more.
theorem kv_index_map_sample :
    ∃ state next, TransitionSystem.Reach (kvSystem deviceParams) (IndexKept deviceParams) state ∧ (state.last firstKey).isSome = true ∧
      Answers deviceParams state firstKey ∧ TransitionSystem.Reach (kvSystem deviceParams) (IndexKept deviceParams) next ∧
      next.last firstKey = none ∧ Answers deviceParams next firstKey := by
  have ran : (runKv deviceParams storesFresh [storeWords firstKey 1] ⟨kvInitNamespace deviceParams fun _ => 0, fun _ => none⟩).any
      (fun state => (state.last firstKey).isSome && (kvRun deviceParams state.ftl deleteFirst).toOption.isSome) = true := by decide +kernel
  rw [Option.any_eq_true] at ran
  obtain ⟨state, ran, checked⟩ := ran
  rw [Bool.and_eq_true] at checked
  have reached := run_kv_reach deviceParams (IndexKept deviceParams) storesFresh stores_fresh_kept _ _ state (.start _ ⟨_, rfl⟩) ran
  have only : ∀ key, key ≠ firstKey → state.last key = none := fun key apart =>
    run_kv_untouched deviceParams storesFresh _ _ state ran key (List.forall_mem_singleton.mpr apart)
  obtain ⟨ftl, performed⟩ : ∃ ftl, kvRun deviceParams state.ftl deleteFirst = .ok ftl := by
    cases result : kvRun deviceParams state.ftl deleteFirst with
    | ok ftl => exact ⟨ftl, rfl⟩
    | error fault =>
        rw [result] at checked
        cases checked.2
  have kept : IndexKept deviceParams state deleteFirst := by
    refine ⟨fun absent => ?_, fun other apart known => absurd (only other apart) known⟩
    rw [show (askedOf deleteFirst).key = firstKey from rfl] at absent
    rw [absent] at checked
    cases checked.1
  have deleted : TransitionSystem.Reach (kvSystem deviceParams) (IndexKept deviceParams)
      ⟨ftl, contentsNext state.ftl.allocator state.last (.delete firstKey)⟩ :=
    .next state _ deleteFirst reached kept ⟨performed, rfl⟩
  have gone : contentsNext state.ftl.allocator state.last (.delete firstKey) = fun _ => none := by
    funext key
    by_cases here : key = firstKey
    · simp [contentsNext, here]
    · simp [contentsNext, here, only key here]
  refine ⟨state, _, reached, checked.1, ((kv_index_map deviceParams).2 state reached firstKey).mpr ?_, deleted, by rw [gone],
    ((kv_index_map deviceParams).2 _ deleted firstKey).mpr ?_⟩
  · intro absent
    rw [absent] at checked
    cases checked.1
  · intro _ other known
    rw [gone] at known
    exact absurd rfl known

-- Deleting the first entry of a chain loses the second.
theorem index_loses_key :
    ∃ state, TransitionSystem.Reach (kvSystem deviceParams) (fun state _ => HasFree deviceParams state.ftl.kvMappingTable) state ∧
      ¬Answers deviceParams state secondKey := by
  obtain ⟨state, reached, missed⟩ := run_kv_check deviceParams (fun state _ => HasFree deviceParams state.ftl.kvMappingTable)
    (fun state _ => !occupied state.ftl.kvMappingTable 0)
    (fun state _ permitted => ⟨0, deviceParams.slotsSome, by simpa using permitted⟩)
    [storeWords firstKey 1, storeWords secondKey 1, .io ⟨.delete, firstKey, 0, hostData⟩] missesStored (by decide +kernel)
  refine ⟨state, reached, ?_⟩
  rintro ⟨entry, got, said⟩
  simp only [missesStored, got, Bool.and_eq_true, Option.isSome_iff_exists] at missed
  obtain ⟨⟨stored, known⟩, forgotten⟩ := missed
  rw [known] at said
  rw [said.1] at forgotten
  cases forgotten

end ConZone
