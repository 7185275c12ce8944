import ConZone.KvChains
import ConZone.Payload

set_option autoImplicit false

namespace ConZone

-- latest, dev_size and total_written of append_only.c.
structure AppendOnly where
  latest : Nat
  devSize : Nat
  totalWritten : Nat

def appendOnlyAllocatorInit (size : Nat) : AppendOnly := ⟨0, size, 0⟩

def appendOnlyAllocate (pool : AppendOnly) (length : Nat) : Nat × AppendOnly :=
  (pool.latest, { pool with latest := u64 (pool.latest + length), totalWritten := u64 (pool.totalWritten + length) })

structure KvFtl where
  kvMappingTable : MappingTable
  allocator : AppendOnly
  storage : Storage

def kvInitNamespace (p : KvParams) (storage : Storage) : KvFtl :=
  ⟨fun _ => initEntry, appendOnlyAllocatorInit p.storageSize, storage⟩

inductive KvOpcode where
  | store
  | retrieve
  | delete
  | exist
  | other
  deriving DecidableEq

-- The fields of struct nvme_kv_command that a single command uses; valueLen
-- counts words.
structure KvCommand where
  opcode : KvOpcode
  key : KvKey
  valueLen : Nat
  data : DataPointer

def cmdValueLength (cmd : KvCommand) : Nat := u32 (cmd.valueLen * 4)

inductive KvStatus where
  | success
  | keyNotExist
  deriving DecidableEq

-- The status of a command, the number it returns and what it wrote to the
-- host's memory.
structure KvReply where
  status : KvStatus
  length : Nat
  delivered : List (Nat × UInt8)

def allocateMemOffset (pool : AppendOnly) (length : Nat) : Nat × AppendOnly :=
  let (offset, pool) := appendOnlyAllocate pool length
  (if offset = 2 ^ 64 - 1 then 0 else offset, pool)

-- is_insert = 2: an update whose new length goes into the mapping.
def updatesLength (length recorded : Nat) : Bool :=
  decide (length ≠ recorded) && (decide (length ≤ smallLength) && decide (recorded ≤ smallLength))

def recordUpdate (p : KvParams) (table : MappingTable) (key : KvKey) (length recorded : Nat) : Exec MappingTable :=
  if updatesLength length recorded then updateMappingEntry p table key length else pure table

def valuePieces (data : DataPointer) (length : Nat) : Exec (List (Nat × Nat)) := prpPieces data length 0 none length

-- __do_perform_kv_io.
def doPerformKvIo (p : KvParams) (ftl : KvFtl) (cmd : KvCommand) : Exec (KvReply × KvFtl) := do
  let entry ← getMappingEntry p ftl.kvMappingTable cmd.key
  let length := cmdValueLength cmd
  match cmd.opcode, entry.memOffset with
  | .store, none =>
      let (offset, allocator) := allocateMemOffset ftl.allocator length
      let pieces ← valuePieces cmd.data length
      let table ← newMappingEntry p ftl.kvMappingTable cmd.key length offset
      pure (⟨.success, 0, []⟩, ⟨table, allocator, copyIn cmd.data.memory pieces offset ftl.storage⟩)
  | .store, some offset =>
      let pieces ← valuePieces cmd.data length
      let table ← recordUpdate p ftl.kvMappingTable cmd.key length entry.length
      pure (⟨.success, 0, []⟩, { ftl with kvMappingTable := table, storage := copyIn cmd.data.memory pieces offset ftl.storage })
  | .retrieve, none | .exist, none | .delete, none => pure (⟨.keyNotExist, 0, []⟩, ftl)
  | .retrieve, some offset =>
      let pieces ← valuePieces cmd.data (min entry.length length)
      pure (⟨.success, min entry.length length, copyOut ftl.storage pieces offset⟩, ftl)
  | .exist, some _ => pure (⟨.success, 0, []⟩, ftl)
  | .delete, some _ =>
      let table ← deleteMappingEntry p ftl.kvMappingTable cmd.key
      pure (⟨.success, 0, []⟩, { ftl with kvMappingTable := table })
  | .other, _ => pure (⟨.success, 0, []⟩, ftl)

-- The value of one command of a batch, which passes through a buffer of 4097
-- bytes.
structure BatchedValue where
  bytes : List UInt8
  fits : bytes.length ≤ 4097

def writeBytes (storage : Storage) (offset : Nat) (bytes : List UInt8) : Storage :=
  memcpy storage offset (fun index => bytes.getD index 0) bytes.length

-- __do_perform_kv_batched_io, which leaves the length of an update alone.
def doPerformKvBatchedIo (p : KvParams) (ftl : KvFtl) (opcode : KvOpcode) (key : KvKey) (value : BatchedValue) : Exec KvFtl := do
  let entry ← getMappingEntry p ftl.kvMappingTable key
  match opcode, entry.memOffset with
  | .store, none =>
      let (offset, allocator) := allocateMemOffset ftl.allocator value.bytes.length
      let table ← newMappingEntry p ftl.kvMappingTable key value.bytes.length offset
      pure ⟨table, allocator, writeBytes ftl.storage offset value.bytes⟩
  | .store, some offset => pure { ftl with storage := writeBytes ftl.storage offset value.bytes }
  | _, _ => pure ftl

-- A batch is a row of batched commands.
inductive KvEvent where
  | io (cmd : KvCommand)
  | batched (opcode : KvOpcode) (key : KvKey) (value : BatchedValue)

def kvRun (p : KvParams) (ftl : KvFtl) : KvEvent → Exec KvFtl
  | .io cmd => do
      let (_, next) ← doPerformKvIo p ftl cmd
      pure next
  | .batched opcode key value => doPerformKvBatchedIo p ftl opcode key value

section Effects

inductive KvEffect where
  | store (key : KvKey) (value : List UInt8)
  | delete (key : KvKey)
  | look (key : KvKey)

def KvEffect.key : KvEffect → KvKey
  | .store key _ | .delete key | .look key => key

def pieceValue (memory : Nat → UInt8) (pieces : List (Nat × Nat)) : List UInt8 :=
  (List.range (pieceBytes pieces)).map fun index => memory (byteAddress pieces index)

def commandValue (cmd : KvCommand) : List UInt8 :=
  match valuePieces cmd.data (cmdValueLength cmd) with
  | .ok pieces => pieceValue cmd.data.memory pieces
  | .error _ => []

def askedOf : KvEvent → KvEffect
  | .io cmd =>
      match cmd.opcode with
      | .store => .store cmd.key (commandValue cmd)
      | .delete => .delete cmd.key
      | .retrieve | .exist | .other => .look cmd.key
  | .batched opcode key value =>
      match opcode with
      | .store => .store key value.bytes
      | .retrieve | .exist | .delete | .other => .look key

-- What the device should hold for a key: where its value was put, how much room
-- was taken for it at its first store and the value last stored.
structure KvStored where
  offset : Nat
  room : Nat
  value : List UInt8

abbrev KvContents := KvKey → Option KvStored

def storedNext (before : Option KvStored) (offset : Nat) (value : List UInt8) : KvStored :=
  match before with
  | none => ⟨offset, value.length, value⟩
  | some stored => { stored with value := value }

def contentsNext (pool : AppendOnly) (last : KvContents) : KvEffect → KvContents
  | .store key value =>
      Function.update last key (some (storedNext (last key) (allocateMemOffset pool value.length).1 value))
  | .delete key => Function.update last key none
  | .look _ => last

variable (pool : AppendOnly) (last : KvContents) (key : KvKey)

theorem contents_inserted (value : List UInt8) (absent : last key = none) :
    contentsNext pool last (.store key value) =
      Function.update last key (some ⟨(allocateMemOffset pool value.length).1, value.length, value⟩) := by
  simp [contentsNext, storedNext, absent]

theorem contents_updated (value : List UInt8) (stored : KvStored) (known : last key = some stored) :
    contentsNext pool last (.store key value) = Function.update last key (some { stored with value := value }) := by
  simp [contentsNext, storedNext, known]

theorem contents_missed (absent : last key = none) : contentsNext pool last (.delete key) = last := by
  rw [contentsNext, ← absent, Function.update_eq_self]

end Effects

structure KvState where
  ftl : KvFtl
  last : KvContents

def KvStep (p : KvParams) (state : KvState) (event : KvEvent) (next : KvState) : Prop :=
  kvRun p state.ftl event = .ok next.ftl ∧ next.last = contentsNext state.ftl.allocator state.last (askedOf event)

def kvSystem (p : KvParams) : TransitionSystem.System KvState KvEvent :=
  ⟨fun state => ∃ storage, state = ⟨kvInitNamespace p storage, fun _ => none⟩, KvStep p⟩

section Running

variable (p : KvParams)

def Unfound (table : MappingTable) (key : KvKey) : Prop := ∀ slot, Looks p table key slot → keyMatches key (table slot) = false

structure FoundAt (table : MappingTable) (key : KvKey) (slot : Nat) : Prop where
  looks : Looks p table key slot
  matched : keyMatches key (table slot) = true

theorem unfound_not_found (table : MappingTable) (key : KvKey) (unfound : Unfound p table key) (slot : Nat) : ¬FoundAt p table key slot := by
  intro found
  have differs := unfound slot found.looks
  rw [found.matched] at differs
  cases differs

theorem found_held (table : MappingTable) (key : KvKey) (slot : Nat) (found : FoundAt p table key slot) :
    ∃ offset, (table slot).memOffset = some offset := by
  obtain ⟨count, onChain, _⟩ := found.looks
  exact Option.isSome_iff_exists.mp (chain_at_occupied p table key count slot onChain)

theorem found_unique (table : MappingTable) (linked : Linked p table) (key : KvKey) (slot other : Nat) (found : FoundAt p table key slot)
    (again : FoundAt p table key other) : slot = other := by
  obtain ⟨result, _, searched⟩ := find_slot_spec p table linked key
  have first := (searched slot).mpr ⟨found.looks, found.matched⟩
  rw [(searched other).mpr ⟨again.looks, again.matched⟩] at first
  exact (Option.some.inj first).symm

theorem find_slot_cases (table : MappingTable) (linked : Linked p table) (key : KvKey) :
    (findSlot p table key = .ok none ∧ Unfound p table key) ∨ ∃ slot, findSlot p table key = .ok (some slot) ∧ FoundAt p table key slot := by
  obtain ⟨result, ran, found⟩ := find_slot_spec p table linked key
  cases result with
  | none =>
      refine .inl ⟨ran, ?_⟩
      intro slot looks
      cases matched : keyMatches key (table slot) with
      | false => rfl
      | true => exact absurd ((found slot).mpr ⟨looks, matched⟩) (by simp)
  | some slot =>
      obtain ⟨looks, matched⟩ := (found slot).mp rfl
      exact .inr ⟨slot, ran, looks, matched⟩

theorem get_mapping_entry_cases (table : MappingTable) (linked : Linked p table) (key : KvKey) :
    (getMappingEntry p table key = .ok erasedEntry ∧ Unfound p table key) ∨
      ∃ entry slot, getMappingEntry p table key = .ok entry ∧ FoundAt p table key slot ∧ entry.memOffset = (table slot).memOffset ∧
        entry.length = (table slot).length := by
  unfold getMappingEntry
  rcases find_slot_cases p table linked key with ⟨ran, unfound⟩ | ⟨slot, ran, found⟩
  · rw [ran]
    exact .inl ⟨rfl, unfound⟩
  · rw [ran]
    exact .inr ⟨_, slot, rfl, found, rfl, rfl⟩

theorem update_mapping_entry_found (table : MappingTable) (linked : Linked p table) (key : KvKey) (length slot : Nat)
    (found : FoundAt p table key slot) :
    updateMappingEntry p table key length = .ok (Function.update table slot { table slot with length := length }) := by
  unfold updateMappingEntry
  rcases find_slot_cases p table linked key with ⟨_, unfound⟩ | ⟨there, ran, again⟩
  · exact absurd found (unfound_not_found p table key unfound slot)
  · rw [found_unique p table linked key slot there found again, ran]
    rfl

theorem delete_mapping_entry_found (table : MappingTable) (linked : Linked p table) (key : KvKey) (slot : Nat)
    (found : FoundAt p table key slot) : deleteMappingEntry p table key = .ok (Function.update table slot erasedEntry) := by
  unfold deleteMappingEntry
  rcases find_slot_cases p table linked key with ⟨_, unfound⟩ | ⟨there, ran, again⟩
  · exact absurd found (unfound_not_found p table key unfound slot)
  · rw [found_unique p table linked key slot there found again, ran]
    rfl

theorem piece_value_written (memory : Nat → UInt8) (pieces : List (Nat × Nat)) (offset : Nat) (storage : Storage) :
    copyIn memory pieces offset storage = writeBytes storage offset (pieceValue memory pieces) := by
  funext address
  rw [copy_in_bytes]
  unfold writeBytes memcpy pieceValue
  simp only [List.length_map, List.length_range]
  split
  · rename_i inside
    simp [List.getD_eq_getElem?_getD, show address - offset < pieceBytes pieces by omega]
  · rfl

theorem command_value (cmd : KvCommand) (pieces : List (Nat × Nat)) (ran : valuePieces cmd.data (cmdValueLength cmd) = .ok pieces) :
    commandValue cmd = pieceValue cmd.data.memory pieces ∧ (commandValue cmd).length = cmdValueLength cmd := by
  have same : commandValue cmd = pieceValue cmd.data.memory pieces := by rw [commandValue, ran]
  refine ⟨same, ?_⟩
  rw [same, pieceValue, List.length_map, List.length_range]
  exact prp_pieces_bytes _ _ _ _ _ _ ran

-- Whether a store of that length over a recorded one changes the record.
def recordsLength (event : KvEvent) (length recorded : Nat) : Bool :=
  match event with
  | .io _ => updatesLength length recorded
  | .batched _ _ _ => false

inductive Performed (ftl : KvFtl) (event : KvEvent) : KvEffect → KvFtl → Prop where
  | look (key : KvKey) : Performed ftl event (.look key) ftl
  | deleted (key : KvKey) (slot : Nat) (found : FoundAt p ftl.kvMappingTable key slot) :
      Performed ftl event (.delete key) { ftl with kvMappingTable := Function.update ftl.kvMappingTable slot erasedEntry }
  | missed (key : KvKey) (unfound : Unfound p ftl.kvMappingTable key) : Performed ftl event (.delete key) ftl
  | inserted (key : KvKey) (value : List UInt8) (slot : Nat) (table : MappingTable) (unfound : Unfound p ftl.kvMappingTable key)
      (fits : (allocateMemOffset ftl.allocator value.length).1 < p.storageSize)
      (made : Inserted p ftl.kvMappingTable table key value.length (allocateMemOffset ftl.allocator value.length).1 slot) :
      Performed ftl event (.store key value) ⟨table, (allocateMemOffset ftl.allocator value.length).2,
        writeBytes ftl.storage (allocateMemOffset ftl.allocator value.length).1 value⟩
  | updated (key : KvKey) (value : List UInt8) (slot offset : Nat) (found : FoundAt p ftl.kvMappingTable key slot)
      (held : (ftl.kvMappingTable slot).memOffset = some offset) :
      Performed ftl event (.store key value)
        { ftl with
          kvMappingTable :=
            if recordsLength event value.length (ftl.kvMappingTable slot).length then
              Function.update ftl.kvMappingTable slot { ftl.kvMappingTable slot with length := value.length }
            else ftl.kvMappingTable,
          storage := writeBytes ftl.storage offset value }

theorem kv_io_performed (ftl next : KvFtl) (linked : Linked p ftl.kvMappingTable) (cmd : KvCommand) (reply : KvReply)
    (ran : doPerformKvIo p ftl cmd = .ok (reply, next)) : Performed p ftl (.io cmd) (askedOf (.io cmd)) next := by
  unfold doPerformKvIo at ran
  obtain ⟨entry, got, rest⟩ := bind_ok _ _ _ ran
  rcases get_mapping_entry_cases p ftl.kvMappingTable linked cmd.key with ⟨gotNone, unfound⟩ | ⟨searched, slot, gotEntry, found, sameOffset, sameLength⟩
  · rw [got] at gotNone
    cases gotNone
    cases op : cmd.opcode with
    | store =>
        simp only [op, erasedEntry] at rest
        obtain ⟨pieces, piecesRan, more⟩ := bind_ok _ _ _ rest
        obtain ⟨table, tableRan, done⟩ := bind_ok _ _ _ more
        obtain ⟨value, length⟩ := command_value cmd pieces piecesRan
        cases pure_ok _ _ done
        rw [← length] at tableRan
        obtain ⟨fits, there, made⟩ := new_mapping_entry_inserts p _ _ _ _ linked table tableRan
        have performed : Performed p ftl (.io cmd) (.store cmd.key (commandValue cmd)) _ :=
          Performed.inserted cmd.key (commandValue cmd) there table unfound fits made
        rw [piece_value_written, ← value, ← length]
        simpa only [askedOf, op] using performed
    | delete =>
        simp only [op, erasedEntry] at rest
        cases pure_ok _ _ rest
        simpa only [askedOf, op] using Performed.missed cmd.key unfound
    | retrieve | exist | other =>
        simp only [op, erasedEntry] at rest
        cases pure_ok _ _ rest
        simpa only [askedOf, op] using Performed.look cmd.key
  · rw [got] at gotEntry
    cases gotEntry
    obtain ⟨offset, held⟩ := found_held p _ _ _ found
    rw [held] at sameOffset
    cases op : cmd.opcode with
    | store =>
        simp only [op, sameOffset] at rest
        obtain ⟨pieces, piecesRan, more⟩ := bind_ok _ _ _ rest
        obtain ⟨table, tableRan, done⟩ := bind_ok _ _ _ more
        obtain ⟨value, length⟩ := command_value cmd pieces piecesRan
        cases pure_ok _ _ done
        have performed : Performed p ftl (.io cmd) (.store cmd.key (commandValue cmd)) _ :=
          Performed.updated cmd.key (commandValue cmd) slot offset found held
        have same : table = if recordsLength (.io cmd) (commandValue cmd).length (ftl.kvMappingTable slot).length then
            Function.update ftl.kvMappingTable slot { ftl.kvMappingTable slot with length := (commandValue cmd).length }
            else ftl.kvMappingTable := by
          rw [sameLength, ← length] at tableRan
          unfold recordUpdate at tableRan
          unfold recordsLength
          split at tableRan
          · rename_i records
            rw [update_mapping_entry_found p _ linked _ _ slot found] at tableRan
            rw [if_pos records]
            exact (Except.ok.inj tableRan).symm
          · rename_i keeps
            rw [if_neg keeps]
            exact (pure_ok _ _ tableRan).symm
        rw [piece_value_written, ← value, same]
        simpa only [askedOf, op] using performed
    | delete =>
        simp only [op, sameOffset] at rest
        obtain ⟨table, tableRan, done⟩ := bind_ok _ _ _ rest
        cases pure_ok _ _ done
        rw [delete_mapping_entry_found p _ linked _ slot found] at tableRan
        rw [← Except.ok.inj tableRan]
        simpa only [askedOf, op] using Performed.deleted cmd.key slot found
    | retrieve =>
        simp only [op, sameOffset] at rest
        obtain ⟨pieces, _, done⟩ := bind_ok _ _ _ rest
        cases pure_ok _ _ done
        simpa only [askedOf, op] using Performed.look cmd.key
    | exist | other =>
        simp only [op, sameOffset] at rest
        cases pure_ok _ _ rest
        simpa only [askedOf, op] using Performed.look cmd.key

theorem kv_batched_performed (ftl next : KvFtl) (linked : Linked p ftl.kvMappingTable) (opcode : KvOpcode) (key : KvKey) (value : BatchedValue)
    (ran : doPerformKvBatchedIo p ftl opcode key value = .ok next) :
    Performed p ftl (.batched opcode key value) (askedOf (.batched opcode key value)) next := by
  unfold doPerformKvBatchedIo at ran
  obtain ⟨entry, got, rest⟩ := bind_ok _ _ _ ran
  cases opcode with
  | store =>
      rcases get_mapping_entry_cases p ftl.kvMappingTable linked key with ⟨gotNone, unfound⟩ | ⟨searched, slot, gotEntry, found, sameOffset, _⟩
      · rw [got] at gotNone
        cases gotNone
        simp only [erasedEntry] at rest
        obtain ⟨table, tableRan, done⟩ := bind_ok _ _ _ rest
        cases pure_ok _ _ done
        obtain ⟨fits, there, made⟩ := new_mapping_entry_inserts p _ _ _ _ linked table tableRan
        exact Performed.inserted key value.bytes there table unfound fits made
      · rw [got] at gotEntry
        cases gotEntry
        obtain ⟨offset, held⟩ := found_held p _ _ _ found
        rw [held] at sameOffset
        simp only [sameOffset] at rest
        cases pure_ok _ _ rest
        exact Performed.updated key value.bytes slot offset found held
  | retrieve | exist | delete | other =>
      cases pure_ok _ _ rest
      exact Performed.look key

theorem kv_run_performed (ftl next : KvFtl) (linked : Linked p ftl.kvMappingTable) (event : KvEvent) (ran : kvRun p ftl event = .ok next) :
    Performed p ftl event (askedOf event) next := by
  cases event with
  | io cmd =>
      obtain ⟨⟨reply, later⟩, performed, same⟩ := bind_ok _ _ _ ran
      cases pure_ok _ _ same
      exact kv_io_performed p ftl _ linked cmd reply performed
  | batched opcode key value => exact kv_batched_performed p ftl next linked opcode key value ran

theorem performed_linked (ftl next : KvFtl) (linked : Linked p ftl.kvMappingTable) (event : KvEvent) (asked : KvEffect)
    (performed : Performed p ftl event asked next) : Linked p next.kvMappingTable := by
  cases performed with
  | look | missed => exact linked
  | deleted key slot => exact erase_linked p _ slot linked
  | inserted key value slot table unfound fits made => exact made.linked
  | updated key value slot offset =>
      dsimp only
      split
      · exact resize_linked p _ slot value.length linked
      · exact linked

theorem init_linked (storage : Storage) : Linked p (kvInitNamespace p storage).kvMappingTable := by
  constructor
  · intro slot held
    cases held
  · intro slot next link
    cases link
  · intro slot _
    rfl
  · intro slot
    exact ⟨1, rfl⟩

theorem reached_linked (allowed : KvState → KvEvent → Prop) (state : KvState)
    (reached : TransitionSystem.Reach (kvSystem p) allowed state) : Linked p state.ftl.kvMappingTable := by
  refine TransitionSystem.reach_invariant (kvSystem p) allowed (fun state => Linked p state.ftl.kvMappingTable) ⟨?_, ?_⟩ state reached
  · rintro state ⟨storage, rfl⟩
    exact init_linked p storage
  · intro state next event linked _ taken
    exact performed_linked p _ _ linked event _ (kv_run_performed p _ _ linked event taken.1)

end Running

end ConZone
