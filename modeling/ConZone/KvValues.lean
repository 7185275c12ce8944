import ConZone.KvIndex

set_option autoImplicit false

namespace ConZone

section Conditions

variable (p : KvParams)

def NotExhausted (state : KvState) (value : List UInt8) : Prop :=
  state.ftl.allocator.latest < p.storageSize ∧ state.ftl.allocator.latest + value.length ≤ p.storageSize

-- A value goes where the first value of its key went, so it must not be longer.
def HasRoom (state : KvState) : KvEffect → Prop
  | .store key value =>
      match state.last key with
      | none => NotExhausted p state value
      | some stored => value.length ≤ stored.room
  | .delete _ | .look _ => True

def ValuesKept (state : KvState) (event : KvEvent) : Prop := IndexKept p state event ∧ HasRoom p state (askedOf event)

def retrieveReply (stored : Option KvStored) (valueLen : Nat) (data : DataPointer) : Exec KvReply :=
  match stored with
  | none => pure ⟨.keyNotExist, 0, []⟩
  | some stored =>
      let shown := stored.value.take (u32 (valueLen * 4))
      do
        let pieces ← valuePieces data shown.length
        pure ⟨.success, shown.length, ((List.range shown.length).map (byteAddress pieces)).zip shown⟩

def retrieve (ftl : KvFtl) (key : KvKey) (valueLen : Nat) (data : DataPointer) : Exec KvReply := do
  let (reply, _) ← doPerformKvIo p ftl ⟨.retrieve, key, valueLen, data⟩
  pure reply

-- The values lie apart from one another below latest, and the storage holds them.
structure Separate (latest : Nat) (storage : Storage) (last : KvContents) : Prop where
  within : latest ≤ p.storageSize
  room : ∀ key stored, last key = some stored → stored.value.length ≤ stored.room ∧ stored.offset + stored.room ≤ latest
  apart : ∀ key other stored second, last key = some stored → last other = some second → key ≠ other →
    stored.offset + stored.room ≤ second.offset ∨ second.offset + second.room ≤ stored.offset
  bytes : ∀ key stored, last key = some stored → ∀ index byte, stored.value[index]? = some byte → storage (stored.offset + index) = byte

def Kept (state : KvState) : Prop := Separate p state.ftl.allocator.latest state.ftl.storage state.last

end Conditions

section Writing

variable (storage : Storage) (offset : Nat) (bytes : List UInt8)

theorem written_inside (index : Nat) (byte : UInt8) (byteAt : bytes[index]? = some byte) :
    writeBytes storage offset bytes (offset + index) = byte := by
  have inside := (List.getElem?_eq_some_iff.mp byteAt).1
  have same := (List.getElem?_eq_some_iff.mp byteAt).2
  simp [writeBytes, memcpy, inside, List.getD_eq_getElem?_getD, same]

theorem written_outside (address : Nat) (outside : address < offset ∨ offset + bytes.length ≤ address) :
    writeBytes storage offset bytes address = storage address := by
  unfold writeBytes memcpy
  rw [if_neg (by omega)]

end Writing

section Steps

variable (p : KvParams)

theorem allocate_latest (pool : AppendOnly) (length : Nat) (below : pool.latest < p.storageSize) (fits : pool.latest + length ≤ p.storageSize) :
    (allocateMemOffset pool length).1 = pool.latest ∧ (allocateMemOffset pool length).2.latest = pool.latest + length := by
  have size := p.storageFits
  unfold allocateMemOffset appendOnlyAllocate
  dsimp only
  rw [if_neg (by omega)]
  exact ⟨rfl, Nat.mod_eq_of_lt (by omega)⟩

section Keeping

variable (latest : Nat) (storage : Storage) (last : KvContents) (separate : Separate p latest storage last)

include separate in
theorem dropped_separate (key : KvKey) : Separate p latest storage (Function.update last key none) := by
  have kept : ∀ other stored, Function.update last key none other = some stored → last other = some stored := by
    intro other stored known
    by_cases here : other = key
    · subst here
      rw [Function.update_self] at known
      cases known
    · rwa [Function.update_of_ne here] at known
  refine ⟨separate.within, ?_, ?_, ?_⟩
  · intro other stored known
    exact separate.room other stored (kept other stored known)
  · intro first second one two known otherKnown differ
    exact separate.apart first second one two (kept first one known) (kept second two otherKnown) differ
  · intro other stored known
    exact separate.bytes other stored (kept other stored known)

include separate in
theorem inserted_separate (key : KvKey) (value : List UInt8) (fits : latest + value.length ≤ p.storageSize) :
    Separate p (latest + value.length) (writeBytes storage latest value) (Function.update last key (some ⟨latest, value.length, value⟩)) := by
  refine ⟨fits, ?_, ?_, ?_⟩
  · intro other stored known
    by_cases here : other = key
    · subst here
      rw [Function.update_self] at known
      rw [← Option.some.inj known]
      exact ⟨Nat.le_refl _, Nat.le_refl _⟩
    · rw [Function.update_of_ne here] at known
      have before := separate.room other stored known
      omega
  · intro first second one two known otherKnown differ
    by_cases here : first = key
    · by_cases there : second = key
      · exact absurd (here.trans there.symm) differ
      · subst here
        rw [Function.update_self] at known
        rw [Function.update_of_ne there] at otherKnown
        rw [← Option.some.inj known]
        exact .inr (separate.room second two otherKnown).2
    · rw [Function.update_of_ne here] at known
      by_cases there : second = key
      · subst there
        rw [Function.update_self] at otherKnown
        rw [← Option.some.inj otherKnown]
        exact .inl (separate.room first one known).2
      · rw [Function.update_of_ne there] at otherKnown
        exact separate.apart first second one two known otherKnown differ
  · intro other stored known index byte byteAt
    by_cases here : other = key
    · subst here
      rw [Function.update_self] at known
      rw [← Option.some.inj known] at byteAt ⊢
      exact written_inside _ _ _ index byte byteAt
    · rw [Function.update_of_ne here] at known
      have inside := (List.getElem?_eq_some_iff.mp byteAt).1
      have before := separate.room other stored known
      refine (written_outside _ _ _ _ (.inl ?_)).trans (separate.bytes other stored known index byte byteAt)
      omega

include separate in
theorem updated_separate (key : KvKey) (before : KvStored) (known : last key = some before) (value : List UInt8)
    (fits : value.length ≤ before.room) :
    Separate p latest (writeBytes storage before.offset value) (Function.update last key (some { before with value := value })) := by
  -- The regions are those of before.
  have region : ∀ other stored, Function.update last key (some { before with value := value }) other = some stored →
      ∃ earlier, last other = some earlier ∧ stored.offset = earlier.offset ∧ stored.room = earlier.room := by
    intro other stored recorded
    by_cases here : other = key
    · subst here
      rw [Function.update_self] at recorded
      rw [← Option.some.inj recorded]
      exact ⟨before, known, rfl, rfl⟩
    · rw [Function.update_of_ne here] at recorded
      exact ⟨stored, recorded, rfl, rfl⟩
  refine ⟨separate.within, ?_, ?_, ?_⟩
  · intro other stored recorded
    by_cases here : other = key
    · subst here
      rw [Function.update_self] at recorded
      rw [← Option.some.inj recorded]
      exact ⟨fits, (separate.room other before known).2⟩
    · rw [Function.update_of_ne here] at recorded
      exact separate.room other stored recorded
  · intro first second one two recorded otherRecorded differ
    obtain ⟨earlier, firstKnown, oneOffset, oneRoom⟩ := region first one recorded
    obtain ⟨other, secondKnown, twoOffset, twoRoom⟩ := region second two otherRecorded
    rw [oneOffset, oneRoom, twoOffset, twoRoom]
    exact separate.apart first second earlier other firstKnown secondKnown differ
  · intro other stored recorded index byte byteAt
    by_cases here : other = key
    · subst here
      rw [Function.update_self] at recorded
      rw [← Option.some.inj recorded] at byteAt ⊢
      exact written_inside _ _ _ index byte byteAt
    · rw [Function.update_of_ne here] at recorded
      have inside := (List.getElem?_eq_some_iff.mp byteAt).1
      have within := separate.room other stored recorded
      have apart := separate.apart other key stored before recorded known here
      refine (written_outside _ _ _ _ ?_).trans (separate.bytes other stored recorded index byte byteAt)
      omega

end Keeping

theorem step_separate (state next : KvState) (event : KvEvent) (mapped : Indexes p state) (separate : Kept p state)
    (kept : ValuesKept p state event) (taken : KvStep p state event next) : Kept p next := by
  obtain ⟨place, indexed⟩ := mapped
  obtain ⟨ran, contents⟩ := taken
  obtain ⟨⟨unmistaken, _⟩, room⟩ := kept
  have performed := kv_run_performed p _ _ indexed.linked event ran
  obtain ⟨after, last⟩ := next
  dsimp only at contents performed
  unfold Kept
  rw [contents]
  generalize askedOf event = asked at performed unmistaken room
  cases performed with
  | look key => exact separate
  | deleted key slot => exact dropped_separate p _ _ _ separate key
  | missed key unfound => exact dropped_separate p _ _ _ separate key
  | inserted key value slot table unfound _ made =>
      have absent := known_found p state place indexed key unfound
      rw [contents_inserted _ _ key value absent]
      simp only [HasRoom, absent] at room
      obtain ⟨offset, latest⟩ := allocate_latest p state.ftl.allocator value.length room.1 room.2
      dsimp only
      rw [offset, latest]
      exact inserted_separate p _ _ _ separate key value room.2
  | updated key value slot offset found held =>
      obtain ⟨before, known, same⟩ := found_place p state place indexed key slot found unmistaken
      rw [contents_updated _ _ key value before known]
      simp only [HasRoom, known] at room
      rw [same, (indexed.entry key before known).1] at held
      rw [← Option.some.inj held]
      exact updated_separate p _ _ _ separate key before known value room

theorem init_separate (state : KvState) (init : (kvSystem p).init state) : Kept p state := by
  obtain ⟨storage, rfl⟩ := init
  refine ⟨Nat.zero_le _, ?_, ?_, ?_⟩
  · intro key stored known
    cases known
  · intro key other stored second known
    cases known
  · intro key stored known
    cases known

theorem reached_separate (state : KvState) (reached : TransitionSystem.Reach (kvSystem p) (ValuesKept p) state) :
    Indexes p state ∧ Kept p state := by
  refine TransitionSystem.reach_invariant (kvSystem p) (ValuesKept p) (fun state => Indexes p state ∧ Kept p state) ⟨?_, ?_⟩ state reached
  · intro state init
    exact ⟨init_mapped p state init, init_separate p state init⟩
  · rintro state next event ⟨mapped, separate⟩ kept taken
    exact ⟨step_mapped p state next event mapped kept.1 taken, step_separate p state next event mapped separate kept taken⟩

theorem copied_value (storage : Storage) (offset length : Nat) (value : List UInt8) (pieces : List (Nat × Nat))
    (bytes : ∀ index byte, value[index]? = some byte → storage (offset + index) = byte)
    (size : pieceBytes pieces = (value.take length).length) :
    copyOut storage pieces offset =
      ((List.range (value.take length).length).map (byteAddress pieces)).zip (value.take length) := by
  rw [copy_out_bytes, size]
  apply List.ext_getElem
  · simp
  · intro index inside _
    simp only [List.length_map, List.length_range, List.length_take] at inside
    obtain ⟨byte, byteAt⟩ : ∃ byte, value[index]? = some byte := ⟨_, List.getElem?_eq_getElem (by omega)⟩
    have same := (List.getElem?_eq_some_iff.mp byteAt).2
    simp [bytes index byte byteAt, same]

theorem retrieve_stored (state : KvState) (mapped : Indexes p state) (separate : Kept p state) (key : KvKey)
    (unmistaken : Unmistaken p state key) (valueLen : Nat) (data : DataPointer) :
    retrieve p state.ftl key valueLen data = retrieveReply (state.last key) valueLen data := by
  obtain ⟨entry, got, said⟩ := (mapped_answers_iff p state mapped key).mpr unmistaken
  unfold retrieve doPerformKvIo
  dsimp only
  rw [got]
  cases known : state.last key with
  | none =>
      rw [known] at said
      simp only [bind, Except.bind, said]
      rfl
  | some stored =>
      rw [known] at said
      have shownLength : min entry.length (cmdValueLength ⟨.retrieve, key, valueLen, data⟩) = (stored.value.take (u32 (valueLen * 4))).length := by
        rw [List.length_take, said.2, Nat.min_comm]
        rfl
      simp only [bind, Except.bind, said.1, shownLength, retrieveReply]
      cases ran : valuePieces data (stored.value.take (u32 (valueLen * 4))).length with
      | error fault => rfl
      | ok pieces =>
          have size := prp_pieces_bytes _ _ _ _ _ _ ran
          have copied := copied_value state.ftl.storage stored.offset (u32 (valueLen * 4)) stored.value pieces
            (separate.bytes key stored known) size
          simp only [pure, Except.pure, copied]

-- A retrieve returns the value stored last, and a step for one key leaves what
-- a retrieve of another returns.
theorem kv_values_kept (state : KvState) (reached : TransitionSystem.Reach (kvSystem p) (ValuesKept p) state) :
    (∀ key, Unmistaken p state key → ∀ valueLen data,
        retrieve p state.ftl key valueLen data = retrieveReply (state.last key) valueLen data) ∧
      ∀ event next, ValuesKept p state event → KvStep p state event next → ∀ other, other ≠ (askedOf event).key →
        Unmistaken p state other → Unmistaken p next other → ∀ valueLen data,
          retrieve p next.ftl other valueLen data = retrieve p state.ftl other valueLen data := by
  obtain ⟨mapped, separate⟩ := reached_separate p state reached
  refine ⟨retrieve_stored p state mapped separate, ?_⟩
  intro event next kept taken other apart before after valueLen data
  have later := reached_separate p next (.next state next event reached kept taken)
  rw [retrieve_stored p next later.1 later.2 other after, retrieve_stored p state mapped separate other before, taken.2,
    contents_other _ _ _ other apart]

end Steps

section Samples

def shortKey : KvKey := inlineKey [1] (by decide)
def otherKey : KvKey := inlineKey [2] (by decide)

def storesInRoom (state : KvState) (event : KvEvent) : Bool :=
  match askedOf event with
  | .store _ value => decide (state.ftl.allocator.latest < deviceParams.storageSize) &&
      decide (state.ftl.allocator.latest + value.length ≤ deviceParams.storageSize)
  | .delete _ | .look _ => false

def StoresInRoom (state : KvState) (event : KvEvent) : Prop :=
  ∃ key value, askedOf event = .store key value ∧ NotExhausted deviceParams state value

theorem stores_in_room (state : KvState) (event : KvEvent) (stores : storesInRoom state event = true) : StoresInRoom state event := by
  unfold storesInRoom at stores
  split at stores
  · rename_i key value asked
    simp only [Bool.and_eq_true, decide_eq_true_eq] at stores
    exact ⟨key, value, asked, stores⟩
  · cases stores
  · cases stores

theorem kv_values_kept_sample :
    ∃ state, TransitionSystem.Reach (kvSystem deviceParams) (ValuesKept deviceParams) state ∧ (state.last shortKey).isSome = true ∧
      retrieve deviceParams state.ftl shortKey 1 hostData = retrieveReply (state.last shortKey) 1 hostData := by
  have permitted : ∀ state event, (storesFresh state event && storesInRoom state event) = true → ValuesKept deviceParams state event := by
    intro state event both
    rw [Bool.and_eq_true] at both
    refine ⟨stores_fresh_kept state event both.1, ?_⟩
    obtain ⟨key, value, asked, room⟩ := stores_in_room state event both.2
    have absent : (state.last (askedOf event).key).isNone = true := by
      have fresh := both.1
      simp only [storesFresh, Bool.and_eq_true] at fresh
      exact fresh.1.1
    rw [asked] at absent ⊢
    have unstored : state.last key = none := Option.isNone_iff_eq_none.mp absent
    simp only [HasRoom, unstored]
    exact room
  obtain ⟨state, reached, known⟩ := run_kv_check deviceParams (ValuesKept deviceParams)
    (fun state event => storesFresh state event && storesInRoom state event) permitted
    [storeWords shortKey 1, storeWords otherKey 2] (fun state => (state.last shortKey).isSome) (by decide +kernel)
  refine ⟨state, reached, known, (kv_values_kept deviceParams state reached).1 shortKey ?_ 1 hostData⟩
  intro absent
  rw [absent] at known
  cases known

def otherValueLost (state : KvState) : Bool :=
  match retrieve deviceParams state.ftl otherKey 1 hostData, retrieveReply (state.last otherKey) 1 hostData with
  | .ok reply, .ok expected => decide (reply.delivered ≠ expected.delivered)
  | _, _ => false

-- An update by a longer value runs into the value stored behind it.
theorem update_overwrites_other :
    ∃ state, TransitionSystem.Reach (kvSystem deviceParams) StoresInRoom state ∧
      retrieve deviceParams state.ftl otherKey 1 hostData ≠ retrieveReply (state.last otherKey) 1 hostData := by
  obtain ⟨state, reached, lost⟩ := run_kv_check deviceParams StoresInRoom storesInRoom stores_in_room
    [storeWords shortKey 1, storeWords otherKey 1, storeWords shortKey 2] otherValueLost (by decide +kernel)
  refine ⟨state, reached, ?_⟩
  intro same
  unfold otherValueLost at lost
  rw [same] at lost
  cases expected : retrieveReply (state.last otherKey) 1 hostData with
  | error fault => simp [expected] at lost
  | ok reply => simp [expected] at lost

end Samples

end ConZone
