import ConZone.Dma
import ConZone.KvValues
import ConZone.ZoneReport

set_option autoImplicit false

namespace ConZone

-- prefix, bitmask and current_pos of struct kv_iter_context.
structure KvIterContext where
  iterPrefix : UInt32
  bitmask : UInt32
  currentPos : Nat

-- iter_handle[17], none for NULL.
abbrev IterHandles := Nat → Option KvIterContext

def nrIterHandles : Nat := 17

def freeHandle (handles : IterHandles) : Option Nat := (List.range' 1 16).find? fun iter => (handles iter).isNone

def kvIterOpen (handles : IterHandles) (bitmask iterVal : UInt32) : Nat × IterHandles :=
  match freeHandle handles with
  | none => (1, handles)
  | some iter => (iter, Function.update handles iter (some ⟨iterVal, bitmask, 0⟩))

def keyWord (key : Nat → UInt8) : UInt32 :=
  (key 0).toUInt32 ||| (key 1).toUInt32 <<< 8 ||| (key 2).toUInt32 <<< 16 ||| (key 3).toUInt32 <<< 24

def iterMatches (table : MappingTable) (handle : KvIterContext) (pos : Nat) : Bool :=
  occupied table pos && keyWord (table pos).key &&& handle.bitmask == handle.iterPrefix &&& handle.bitmask

def iterKeyLen : Nat := 16
def iterBufferSize : Nat := 1024

def wordBytes (value : Nat) : List UInt8 := (leBytes 4 value).map UInt8.ofNat

def iterKey (key : Nat → UInt8) : List UInt8 := (List.range iterKeyLen).map key

structure IterScan where
  pos : Nat
  bufOffset : Nat
  nrKeys : Nat
  buf : Nat → UInt8

def appendKey (scan : IterScan) (key : Nat → UInt8) : IterScan :=
  { scan with
    bufOffset := scan.bufOffset + 4 + (iterKeyLen + 3) / 4 * 4, nrKeys := scan.nrKeys + 1,
    buf := writeBytes (writeBytes scan.buf scan.bufOffset (wordBytes iterKeyLen)) (scan.bufOffset + 4) (iterKey key) }

-- The loop of kv_iter_read, with end.
def kvIterScan (p : KvParams) (table : MappingTable) (handle : KvIterContext) : Nat → IterScan → Exec (IterScan × Bool)
  | 0, _ => .error .hang
  | fuel + 1, scan =>
      if p.hashSlots ≤ scan.pos then .ok (scan, false)
      else if iterMatches table handle scan.pos && decide (iterBufferSize < scan.bufOffset + 4 + iterKeyLen) then .ok (scan, false)
      else
        let scan := if iterMatches table handle scan.pos then appendKey scan (table scan.pos).key else scan
        if scan.pos + 1 = p.hashSlots then .ok ({ scan with pos := scan.pos + 1 }, true)
        else kvIterScan p table handle fuel { scan with pos := scan.pos + 1 }

inductive IterStatus where
  | success
  | iterEnd
  deriving DecidableEq

structure IterReply where
  status : IterStatus
  length : Nat
  delivered : List (Nat × UInt8)

-- kv_iter_read on a handle that is open.
def readHandle (p : KvParams) (table : MappingTable) (buf : Nat → UInt8) (handle : KvIterContext) (data : DataPointer) :
    Exec (IterReply × KvIterContext) := do
  let (scan, ended) ← kvIterScan p table handle (rounds p) ⟨handle.currentPos, 4, 0, buf⟩
  let pieces ← valuePieces data scan.bufOffset
  pure (⟨if ended then .iterEnd else .success, scan.bufOffset, copyOut (writeBytes scan.buf 0 (wordBytes scan.nrKeys)) pieces 0⟩,
    { handle with currentPos := scan.pos })

-- none where the handle is NULL.
def kvIterRead (p : KvParams) (table : MappingTable) (buf : Nat → UInt8) (handles : IterHandles) (iter : Nat) (data : DataPointer) :
    Exec (Option IterReply × IterHandles) :=
  if nrIterHandles ≤ iter then .error .outOfBounds
  else
    match handles iter with
    | none => .ok (none, handles)
    | some handle => do
        let (reply, handle) ← readHandle p table buf handle data
        pure (some reply, Function.update handles iter (some handle))

-- Call after call on one handle until the end is reported. calls gives the host's
-- pointers and what the handle's buffer holds before a call.
def kvIterReads (p : KvParams) (table : MappingTable) (iter : Nat) (calls : Nat → DataPointer × (Nat → UInt8)) :
    Nat → Nat → IterHandles → Exec (List IterReply)
  | 0, _, _ => .error .hang
  | limit + 1, call, handles => do
      match ← kvIterRead p table (calls call).2 handles iter (calls call).1 with
      | (none, _) => .error .nullDeref
      | (some reply, handles) =>
          match reply.status with
          | .iterEnd => pure [reply]
          | .success =>
              let rest ← kvIterReads p table iter calls limit (call + 1) handles
              pure (reply :: rest)

section Format

def wordValue (bytes : List UInt8) : Nat := leValue (bytes.map UInt8.toNat)

def parseKeys : Nat → List UInt8 → List (List UInt8)
  | 0, _ => []
  | count + 1, bytes =>
      let size := wordValue (bytes.take 4)
      (bytes.drop 4).take size :: parseKeys count (bytes.drop (4 + (size + 3) / 4 * 4))

def bufferCount (bytes : List UInt8) : Nat := wordValue (bytes.take 4)
def bufferKeys (bytes : List UInt8) : List (List UInt8) := parseKeys (bufferCount bytes) (bytes.drop 4)

def keyEntry (key : List UInt8) : List UInt8 := wordBytes iterKeyLen ++ key

theorem le_bytes_small (count value : Nat) (byte : Nat) (member : byte ∈ leBytes count value) : byte < 256 := by
  induction count generalizing value with
  | zero => cases member
  | succ count ih =>
      rcases List.mem_cons.mp member with same | later
      · rw [same]
        exact Nat.mod_lt _ (by decide)
      · exact ih _ later

@[simp] theorem word_bytes_length (value : Nat) : (wordBytes value).length = 4 := by simp [wordBytes]

theorem word_value_bytes (value : Nat) (fits : value < 2 ^ 32) : wordValue (wordBytes value) = value := by
  have same : ((leBytes 4 value).map UInt8.ofNat).map UInt8.toNat = leBytes 4 value := by
    rw [List.map_map]
    refine (List.map_congr_left ?_).trans (List.map_id _)
    intro byte member
    simp [Nat.mod_eq_of_lt (le_bytes_small 4 value byte member)]
  unfold wordValue wordBytes
  rw [same]
  exact le_value_bytes 4 value fits

@[simp] theorem iter_key_length (key : Nat → UInt8) : (iterKey key).length = iterKeyLen := by simp [iterKey]

theorem key_entry_length (key : List UInt8) (size : key.length = iterKeyLen) : (keyEntry key).length = 20 := by
  simp [keyEntry, size, iterKeyLen]

theorem parse_entries (keys : List (List UInt8)) (sizes : ∀ key ∈ keys, key.length = iterKeyLen) :
    parseKeys keys.length (keys.flatMap keyEntry) = keys := by
  induction keys with
  | nil => rfl
  | cons key rest ih =>
      have size := sizes key List.mem_cons_self
      have tail := ih fun other member => sizes other (List.mem_cons_of_mem _ member)
      have word : (keyEntry key ++ rest.flatMap keyEntry).take 4 = wordBytes iterKeyLen := by
        unfold keyEntry
        rw [List.append_assoc, List.take_left' (word_bytes_length _)]
      have after : (keyEntry key ++ rest.flatMap keyEntry).drop 4 = key ++ rest.flatMap keyEntry := by
        unfold keyEntry
        rw [List.append_assoc, List.drop_left' (word_bytes_length _)]
      have skip : (keyEntry key ++ rest.flatMap keyEntry).drop (4 + (iterKeyLen + 3) / 4 * 4) = rest.flatMap keyEntry :=
        List.drop_left' (key_entry_length key size)
      simp only [List.length_cons, List.flatMap_cons, parseKeys, word, after, word_value_bytes iterKeyLen (by decide), skip, tail]
      rw [List.take_left' size]

theorem buffer_reads_back (keys : List (List UInt8)) (sizes : ∀ key ∈ keys, key.length = iterKeyLen) (few : keys.length < 2 ^ 32) :
    bufferCount (wordBytes keys.length ++ keys.flatMap keyEntry) = keys.length ∧
      bufferKeys (wordBytes keys.length ++ keys.flatMap keyEntry) = keys := by
  have count : bufferCount (wordBytes keys.length ++ keys.flatMap keyEntry) = keys.length := by
    unfold bufferCount
    rw [List.take_left' (word_bytes_length _), word_value_bytes _ few]
  refine ⟨count, ?_⟩
  unfold bufferKeys
  rw [count, List.drop_left' (word_bytes_length _), parse_entries keys sizes]

end Format

section Scanning

variable (p : KvParams) (table : MappingTable) (handle : KvIterContext)

def pending (pos : Nat) : List Nat := (List.range' pos (p.hashSlots - pos)).filter (iterMatches table handle)

def slotKey (slot : Nat) : List UInt8 := iterKey (table slot).key

theorem pending_step (pos : Nat) (inside : pos < p.hashSlots) :
    pending p table handle pos =
      (if iterMatches table handle pos then [pos] else []) ++ pending p table handle (pos + 1) := by
  unfold pending
  rw [show p.hashSlots - pos = p.hashSlots - (pos + 1) + 1 by omega, List.range'_succ, List.filter_cons]
  split <;> rfl

theorem pending_end : pending p table handle p.hashSlots = [] := by simp [pending]

structure Holds (scan : IterScan) (slots : List Nat) : Prop where
  offset : scan.bufOffset = 4 + 20 * slots.length
  count : scan.nrKeys = slots.length
  bytes : ∀ index byte, ((slots.map (slotKey table)).flatMap keyEntry)[index]? = some byte → scan.buf (4 + index) = byte

theorem entries_length (slots : List Nat) : ((slots.map (slotKey table)).flatMap keyEntry).length = 20 * slots.length := by
  induction slots with
  | nil => rfl
  | cons slot rest ih =>
      rw [List.map_cons, List.flatMap_cons, List.length_append, ih, key_entry_length (slotKey table slot) (iter_key_length _), List.length_cons]
      omega

theorem append_holds (scan : IterScan) (slots : List Nat) (holds : Holds table scan slots) (slot : Nat) :
    Holds table (appendKey scan (table slot).key) (slots ++ [slot]) := by
  have offset := holds.offset
  refine ⟨?_, ?_, ?_⟩
  · simp only [appendKey, offset, iterKeyLen, List.length_append, List.length_singleton]
    omega
  · simp [appendKey, holds.count]
  · intro index byte byteAt
    have before := entries_length table slots
    simp only [List.map_append, List.flatMap_append, List.map_cons, List.map_nil, List.flatMap_cons, List.flatMap_nil,
      List.append_nil] at byteAt
    simp only [appendKey]
    rcases Nat.lt_or_ge index (20 * slots.length) with old | new
    · rw [List.getElem?_append_left (by omega)] at byteAt
      rw [written_outside _ _ _ _ (.inl (by omega)), written_outside _ _ _ _ (.inl (by omega))]
      exact holds.bytes index byte byteAt
    · rw [List.getElem?_append_right (by omega), before] at byteAt
      unfold keyEntry at byteAt
      rcases Nat.lt_or_ge (index - 20 * slots.length) 4 with word | key
      · rw [List.getElem?_append_left (by simpa using word)] at byteAt
        rw [written_outside _ _ _ _ (.inl (by omega)), show 4 + index = scan.bufOffset + (index - 20 * slots.length) by omega]
        exact written_inside _ _ _ _ byte byteAt
      · rw [List.getElem?_append_right (by simpa using key), word_bytes_length] at byteAt
        rw [show 4 + index = scan.bufOffset + 4 + (index - 20 * slots.length - 4) by omega]
        exact written_inside _ _ _ _ byte byteAt

structure Scanned (pos : Nat) (held : List Nat) (last : IterScan) (ended : Bool) : Prop where
  slots : ∃ took, pending p table handle pos = took ++ pending p table handle last.pos ∧ Holds table last (held ++ took)
  fits : last.bufOffset ≤ iterBufferSize
  stops : if ended then last.pos = p.hashSlots else last.pos < p.hashSlots ∧ iterBufferSize < last.bufOffset + 20

theorem scan_runs (fuel : Nat) (scan : IterScan) (held : List Nat) (inside : scan.pos < p.hashSlots) (enough : p.hashSlots - scan.pos ≤ fuel)
    (holds : Holds table scan held) (fits : scan.bufOffset ≤ iterBufferSize) :
    ∃ last ended, kvIterScan p table handle fuel scan = .ok (last, ended) ∧ Scanned p table handle scan.pos held last ended := by
  induction fuel generalizing scan held with
  | zero => omega
  | succ fuel ih =>
      have step := pending_step p table handle scan.pos inside
      rw [kvIterScan, if_neg (Nat.not_le.mpr inside)]
      by_cases full : (iterMatches table handle scan.pos && decide (iterBufferSize < scan.bufOffset + 4 + iterKeyLen)) = true
      · rw [if_pos full]
        simp only [Bool.and_eq_true, decide_eq_true_eq] at full
        unfold iterKeyLen at full
        exact ⟨scan, false, rfl, ⟨[], rfl, by rwa [List.append_nil]⟩, fits, inside, by omega⟩
      · rw [if_neg full]
        -- The scan goes on behind the slot, with its key in the buffer or without.
        obtain ⟨next, took, put, pos, holding, fitting, more⟩ : ∃ next took,
            (if iterMatches table handle scan.pos then appendKey scan (table scan.pos).key else scan) = next ∧ next.pos = scan.pos ∧
              Holds table next (held ++ took) ∧ next.bufOffset ≤ iterBufferSize ∧
              pending p table handle scan.pos = took ++ pending p table handle (scan.pos + 1) := by
          cases found : iterMatches table handle scan.pos with
          | true =>
              simp only [found, Bool.true_and, decide_eq_true_eq] at full
              unfold iterKeyLen at full
              refine ⟨_, [scan.pos], if_pos rfl, rfl, append_holds table scan held holds scan.pos, ?_, ?_⟩
              · simp only [appendKey, iterKeyLen]
                omega
              · rw [step, if_pos found]
          | false =>
              refine ⟨_, [], if_neg Bool.false_ne_true, rfl, by rwa [List.append_nil], fits, ?_⟩
              rw [step, found]
              rfl
        dsimp only
        rw [put]
        by_cases last : next.pos + 1 = p.hashSlots
        · rw [if_pos last]
          refine ⟨_, true, rfl, ⟨took, ?_, ⟨holding.offset, holding.count, holding.bytes⟩⟩, fitting, last⟩
          dsimp only
          rw [more, pos]
        · rw [if_neg last]
          obtain ⟨final, ended, ran, ⟨rest, tail, done⟩, room, stops⟩ :=
            ih { next with pos := next.pos + 1 } (held ++ took) (by dsimp only; omega) (by dsimp only; omega)
              ⟨holding.offset, holding.count, holding.bytes⟩ fitting
          refine ⟨final, ended, ran, ⟨took ++ rest, ?_, by rwa [← List.append_assoc]⟩, room, stops⟩
          dsimp only at tail
          rw [more, ← pos, tail, List.append_assoc]

end Scanning

section Reading

variable (p : KvParams) (table : MappingTable)

def replyBytes (reply : IterReply) : List UInt8 := reply.delivered.map Prod.snd

def HoldsBuffer (data : DataPointer) : Prop := ∀ length, length ≤ iterBufferSize → ∃ pieces, valuePieces data length = .ok pieces

theorem aligned_holds_buffer (data : DataPointer) (aligned : data.prp2 % pageSize = 0) : HoldsBuffer data := by
  intro length fits
  by_cases zero : length = 0
  · exact ⟨[], by rw [zero]; rfl⟩
  · refine ⟨_, host_pieces data length length zero (Nat.le_refl _) ?_⟩
    intro page member
    have few : length - ioSizeAt data.prp1 length ≤ pageSize := by
      unfold iterBufferSize at fits
      unfold pageSize
      omega
    unfold hostPrps restPrps at member
    rw [List.tail_cons] at member
    split at member
    · cases member
    · rw [if_neg (Nat.not_lt.mpr few), List.mem_singleton] at member
      rw [member]
      exact aligned

structure GoodBuffer (reply : IterReply) : Prop where
  size : (replyBytes reply).length = reply.length
  fits : reply.length ≤ iterBufferSize
  count : bufferCount (replyBytes reply) = (bufferKeys (replyBytes reply)).length
  filled : replyBytes reply = wordBytes (bufferKeys (replyBytes reply)).length ++ (bufferKeys (replyBytes reply)).flatMap keyEntry

theorem scanned_bytes (scan : IterScan) (slots : List Nat) (holds : Holds table scan slots) (pieces : List (Nat × Nat))
    (size : pieceBytes pieces = scan.bufOffset) :
    (copyOut (writeBytes scan.buf 0 (wordBytes scan.nrKeys)) pieces 0).map Prod.snd =
      wordBytes slots.length ++ (slots.map (slotKey table)).flatMap keyEntry := by
  have length := entries_length table slots
  have offset := holds.offset
  rw [copy_out_bytes, size, List.map_map, holds.count]
  apply List.ext_getElem?
  intro index
  rcases Nat.lt_or_ge index 4 with word | entry
  · rw [List.getElem?_append_left (by simpa using word)]
    have byte := List.getElem?_eq_getElem (show index < (wordBytes slots.length).length by simpa using word)
    have written := written_inside scan.buf 0 (wordBytes slots.length) index _ byte
    rw [byte, ← written]
    simp [show index < scan.bufOffset by omega]
  · rw [List.getElem?_append_right (by simpa using entry), word_bytes_length]
    rcases Nat.lt_or_ge index scan.bufOffset with inside | past
    · have byte := List.getElem?_eq_getElem (show index - 4 < ((slots.map (slotKey table)).flatMap keyEntry).length by omega)
      have there := holds.bytes (index - 4) _ byte
      rw [show 4 + (index - 4) = index by omega] at there
      rw [byte, ← there]
      simp [inside, written_outside scan.buf 0 (wordBytes slots.length) index (.inr (by simpa using entry))]
    · rw [List.getElem?_eq_none (by rwa [List.length_map, List.length_range]), List.getElem?_eq_none (by omega)]

theorem slot_keys_sized (slots : List Nat) (key : List UInt8) (member : key ∈ slots.map (slotKey table)) : key.length = iterKeyLen := by
  obtain ⟨slot, _, rfl⟩ := List.mem_map.mp member
  exact iter_key_length _

theorem read_handle_runs (buf : Nat → UInt8) (handle : KvIterContext) (data : DataPointer) (inside : handle.currentPos < p.hashSlots)
    (host : HoldsBuffer data) :
    ∃ reply took pos, readHandle p table buf handle data = .ok (reply, { handle with currentPos := pos }) ∧ GoodBuffer reply ∧
      bufferKeys (replyBytes reply) = took.map (slotKey table) ∧
      pending p table handle handle.currentPos = took ++ pending p table handle pos ∧
      ((reply.status = .iterEnd ∧ pos = p.hashSlots) ∨ (reply.status = .success ∧ pos < p.hashSlots ∧ took ≠ [])) := by
  have start : Holds table ⟨handle.currentPos, 4, 0, buf⟩ [] := by
    refine ⟨rfl, rfl, ?_⟩
    intro index byte byteAt
    simp at byteAt
  obtain ⟨last, ended, ran, ⟨took, slots, holds⟩, fits, stops⟩ :=
    scan_runs p table handle (rounds p) ⟨handle.currentPos, 4, 0, buf⟩ [] inside (by unfold rounds; dsimp only; omega) start (show 4 ≤ iterBufferSize by decide)
  obtain ⟨pieces, piecesRan⟩ := host last.bufOffset fits
  rw [List.nil_append] at holds
  have size := prp_pieces_bytes _ _ _ _ _ _ piecesRan
  have bytes := scanned_bytes table last took holds pieces size
  have few : took.length < 2 ^ 32 := by
    have offset := holds.offset
    unfold iterBufferSize at fits
    omega
  have sized := slot_keys_sized table took
  obtain ⟨count, keys⟩ := buffer_reads_back (took.map (slotKey table)) sized (by rwa [List.length_map])
  rw [List.length_map] at count keys
  let reply : IterReply :=
    ⟨if ended then .iterEnd else .success, last.bufOffset, copyOut (writeBytes last.buf 0 (wordBytes last.nrKeys)) pieces 0⟩
  have shown : replyBytes reply = wordBytes took.length ++ (took.map (slotKey table)).flatMap keyEntry := bytes
  refine ⟨reply, took, last.pos, ?_, ⟨?_, fits, ?_, ?_⟩, ?_, slots, ?_⟩
  · unfold readHandle
    simp only [ran, piecesRan, bind, Except.bind, pure, Except.pure]
    rfl
  · rw [shown, List.length_append, word_bytes_length, entries_length]
    exact holds.offset.symm
  · rw [shown, count, keys, List.length_map]
  · rw [shown, keys, List.length_map]
  · rw [shown, keys]
  · cases ended with
    | true => exact .inl ⟨rfl, stops⟩
    | false =>
        refine .inr ⟨rfl, stops.1, ?_⟩
        rintro rfl
        have offset := holds.offset
        have full := stops.2
        unfold iterBufferSize at full
        simp at offset
        omega

def returnedKeys (replies : List IterReply) : List (List UInt8) := replies.flatMap fun reply => bufferKeys (replyBytes reply)

def EndsOnce (replies : List IterReply) : Prop :=
  ∃ before last, replies = before ++ [last] ∧ last.status = .iterEnd ∧ ∀ reply ∈ before, reply.status = .success

theorem ends_once_cons (reply : IterReply) (rest : List IterReply) (more : reply.status = .success) (ends : EndsOnce rest) :
    EndsOnce (reply :: rest) := by
  obtain ⟨before, last, split, ended, others⟩ := ends
  refine ⟨reply :: before, last, by rw [split]; rfl, ended, ?_⟩
  intro other member
  rcases List.mem_cons.mp member with same | later
  · rw [same]
    exact more
  · exact others other later

variable (iter : Nat) (calls : Nat → DataPointer × (Nat → UInt8)) (host : ∀ call, HoldsBuffer (calls call).1)

include host in
theorem kv_iter_reads_run (opened : iter < nrIterHandles) (limit call : Nat) (handles : IterHandles) (handle : KvIterContext)
    (held : handles iter = some handle) (inside : handle.currentPos < p.hashSlots)
    (enough : (pending p table handle handle.currentPos).length < limit) :
    ∃ replies, kvIterReads p table iter calls limit call handles = .ok replies ∧
      returnedKeys replies = (pending p table handle handle.currentPos).map (slotKey table) ∧
      (∀ reply ∈ replies, GoodBuffer reply) ∧ EndsOnce replies := by
  induction limit generalizing call handles handle with
  | zero => omega
  | succ limit ih =>
      obtain ⟨reply, took, pos, ran, good, keys, slots, outcome⟩ :=
        read_handle_runs p table (calls call).2 handle (calls call).1 inside (host call)
      have read : kvIterRead p table (calls call).2 handles iter (calls call).1 =
          .ok (some reply, Function.update handles iter (some { handle with currentPos := pos })) := by
        unfold kvIterRead
        rw [if_neg (Nat.not_le.mpr opened), held]
        simp only [ran, bind, Except.bind]
        rfl
      rw [kvIterReads, read]
      rcases outcome with ⟨ended, last⟩ | ⟨more, within, moreKeys⟩
      · refine ⟨[reply], ?_, ?_, ?_, [], reply, rfl, ended, ?_⟩
        · simp only [bind, Except.bind, ended]
          rfl
        · rw [slots, last, pending_end, List.append_nil]
          simp [returnedKeys, keys]
        · intro other member
          rw [List.mem_singleton.mp member]
          exact good
        · intro other member
          cases member
      · have positive := List.length_pos_iff.mpr moreKeys
        rw [slots, List.length_append] at enough
        obtain ⟨rest, restRan, restKeys, restGood, ends⟩ :=
          ih (call + 1) (Function.update handles iter (some { handle with currentPos := pos })) { handle with currentPos := pos }
            (Function.update_self _ _ _) within (show (pending p table handle pos).length < limit by omega)
        refine ⟨reply :: rest, ?_, ?_, ?_, ends_once_cons reply rest more ends⟩
        · simp only [bind, Except.bind, more, restRan]
          rfl
        · have tail : returnedKeys rest = (pending p table handle pos).map (slotKey table) := restKeys
          rw [slots, List.map_append, ← keys, ← tail]
          rfl
        · intro other member
          rcases List.mem_cons.mp member with same | later
          · rw [same]
            exact good
          · exact restGood other later

def matchingSlots (handle : KvIterContext) : List Nat := (List.range p.hashSlots).filter (iterMatches table handle)

-- The keys the table holds. An entry does not record how long its key is: keyOf
-- names it, and it is what the entry begins with.
def HoldsKeys (keyOf : Nat → List UInt8) : Prop :=
  ∀ slot, occupied table slot = true → (List.range (keyOf slot).length).map (table slot).key = keyOf slot

-- A key as the iterator has to return it: in a field of 16 bytes, a shorter one
-- followed by zeros.
def reportedKey (key : List UInt8) : List UInt8 := key ++ List.replicate (iterKeyLen - key.length) 0

def KeysOnce (handle : KvIterContext) (keyOf : Nat → List UInt8) (replies : List IterReply) : Prop :=
  (returnedKeys replies).Perm ((matchingSlots p table handle).map fun slot => reportedKey (keyOf slot)) ∧ (returnedKeys replies).Nodup

-- The keys of the matching entries fit the 16 bytes, nothing is left behind them
-- from an earlier use of the slot, and no two of them are the same.
structure Reportable (handle : KvIterContext) (keyOf : Nat → List UInt8) : Prop where
  short : ∀ slot, slot ∈ matchingSlots p table handle → (keyOf slot).length ≤ iterKeyLen
  clean : ∀ slot, slot ∈ matchingSlots p table handle → ∀ index, (keyOf slot).length ≤ index → index < iterKeyLen →
    (table slot).key index = 0
  apart : ∀ slot other, slot ∈ matchingSlots p table handle → other ∈ matchingSlots p table handle →
    reportedKey (keyOf slot) = reportedKey (keyOf other) → slot = other

-- The sum of the bytes. It does not see zeros, so that it tells what stands
-- behind a key.
def byteSum (bytes : List UInt8) : Nat := (bytes.map UInt8.toNat).sum

theorem byte_sum_append (first second : List UInt8) : byteSum (first ++ second) = byteSum first + byteSum second := by
  simp [byteSum]

theorem byte_sum_zeros (count : Nat) : byteSum (List.replicate count 0) = 0 := by
  simp [byteSum]

theorem reported_key_length (key : List UInt8) : (reportedKey key).length = max key.length iterKeyLen := by
  simp only [reportedKey, List.length_append, List.length_replicate]
  omega

-- The bytes of an entry between its key and the sixteenth.
def leftover (keyOf : Nat → List UInt8) (slot : Nat) : List UInt8 :=
  (List.range' (keyOf slot).length (iterKeyLen - (keyOf slot).length)).map (table slot).key

theorem slot_key_split (keyOf : Nat → List UInt8) (stored : HoldsKeys table keyOf) (slot : Nat) (taken : occupied table slot = true)
    (short : (keyOf slot).length ≤ iterKeyLen) : slotKey table slot = keyOf slot ++ leftover table keyOf slot := by
  have split : List.range iterKeyLen =
      List.range (keyOf slot).length ++ List.range' (keyOf slot).length (iterKeyLen - (keyOf slot).length) := by
    rw [List.range_eq_range', List.range_eq_range']
    have joined := @List.range'_append_1 0 (keyOf slot).length (iterKeyLen - (keyOf slot).length)
    rw [Nat.zero_add, Nat.add_sub_cancel' short] at joined
    exact joined.symm
  unfold slotKey iterKey
  rw [split, List.map_append, stored slot taken]
  rfl

theorem leftover_zeros (keyOf : Nat → List UInt8) (slot : Nat) (clean : ∀ index, (keyOf slot).length ≤ index → index < iterKeyLen →
    (table slot).key index = 0) : leftover table keyOf slot = List.replicate (iterKeyLen - (keyOf slot).length) 0 := by
  refine List.eq_replicate_iff.mpr ⟨by simp [leftover], ?_⟩
  intro byte member
  obtain ⟨index, inside, rfl⟩ := List.mem_map.mp member
  rw [List.mem_range'_1] at inside
  exact clean index inside.1 (by omega)

theorem leftover_sum_zero (keyOf : Nat → List UInt8) (slot : Nat) (nothing : byteSum (leftover table keyOf slot) = 0) (index : Nat)
    (first : (keyOf slot).length ≤ index) (last : index < iterKeyLen) : (table slot).key index = 0 := by
  have member : (table slot).key index ∈ leftover table keyOf slot :=
    List.mem_map.mpr ⟨index, by rw [List.mem_range'_1]; omega, rfl⟩
  have zero := List.sum_eq_zero_iff.mp nothing _ (List.mem_map_of_mem member)
  exact UInt8.toNat_inj.mp zero

theorem matching_occupied (handle : KvIterContext) (slot : Nat) (member : slot ∈ matchingSlots p table handle) :
    occupied table slot = true := by
  have matched := (List.mem_filter.mp member).2
  unfold iterMatches at matched
  rw [Bool.and_eq_true] at matched
  exact matched.1

theorem keys_once_iff (handle : KvIterContext) (keyOf : Nat → List UInt8) (stored : HoldsKeys table keyOf) (replies : List IterReply)
    (keys : returnedKeys replies = (matchingSlots p table handle).map (slotKey table)) :
    KeysOnce p table handle keyOf replies ↔ Reportable p table handle keyOf := by
  have once : (matchingSlots p table handle).Nodup := List.nodup_range.filter _
  constructor
  · rintro ⟨same, distinct⟩
    have short : ∀ slot, slot ∈ matchingSlots p table handle → (keyOf slot).length ≤ iterKeyLen := by
      intro slot member
      have returned := same.symm.subset (List.mem_map_of_mem (f := fun slot => reportedKey (keyOf slot)) member)
      rw [keys] at returned
      have sized := slot_keys_sized table _ _ returned
      rw [reported_key_length] at sized
      omega
    -- Both sides have the same sum of bytes, and an entry adds what stands behind its key.
    have nothing : ((matchingSlots p table handle).map fun slot => byteSum (leftover table keyOf slot)).sum = 0 := by
      have whole : ∀ slot ∈ matchingSlots p table handle,
          byteSum (slotKey table slot) = byteSum (reportedKey (keyOf slot)) + byteSum (leftover table keyOf slot) := by
        intro slot member
        rw [slot_key_split table keyOf stored slot (matching_occupied p table handle slot member) (short slot member), byte_sum_append,
          reportedKey, byte_sum_append, byte_sum_zeros, Nat.add_zero]
      have sums := (same.map byteSum).sum_eq
      rw [keys, List.map_map, List.map_map] at sums
      have added := List.map_congr_left whole
      rw [show byteSum ∘ slotKey table = fun slot => byteSum (slotKey table slot) from rfl, added, List.sum_map_add] at sums
      exact Nat.add_eq_left.mp sums
    have clean : ∀ slot, slot ∈ matchingSlots p table handle → ∀ index, (keyOf slot).length ≤ index → index < iterKeyLen →
        (table slot).key index = 0 := by
      intro slot member
      exact leftover_sum_zero table keyOf slot
        (List.sum_eq_zero_iff.mp nothing _ (List.mem_map_of_mem (f := fun slot => byteSum (leftover table keyOf slot)) member))
    refine ⟨short, clean, ?_⟩
    intro slot other member otherMember equal
    have apart := same.nodup_iff.mp distinct
    exact List.inj_on_of_nodup_map apart member otherMember equal
  · intro reportable
    have shown : returnedKeys replies = (matchingSlots p table handle).map fun slot => reportedKey (keyOf slot) := by
      rw [keys]
      refine List.map_congr_left fun slot member => ?_
      rw [slot_key_split table keyOf stored slot (matching_occupied p table handle slot member) (reportable.short slot member),
        leftover_zeros table keyOf slot (reportable.clean slot member)]
      rfl
    refine ⟨by rw [shown], ?_⟩
    rw [shown]
    exact List.Nodup.map_on (fun slot member other otherMember => reportable.apart slot other member otherMember) once

theorem free_handle_open (handles : IterHandles) (free : freeHandle handles = some iter) : iter < nrIterHandles := by
  have member := List.mem_of_find?_eq_some free
  rw [List.mem_range'_1] at member
  exact member.2

include host in
theorem kv_iter_opened_run (handles : IterHandles) (bitmask iterVal : UInt32) (free : freeHandle handles = some iter) :
    (kvIterOpen handles bitmask iterVal).1 = iter ∧
      ∃ limit replies, kvIterReads p table iter calls limit 0 (kvIterOpen handles bitmask iterVal).2 = .ok replies ∧
        returnedKeys replies = (matchingSlots p table ⟨iterVal, bitmask, 0⟩).map (slotKey table) ∧
        (∀ reply ∈ replies, GoodBuffer reply) ∧ EndsOnce replies := by
  have opened : kvIterOpen handles bitmask iterVal = (iter, Function.update handles iter (some ⟨iterVal, bitmask, 0⟩)) := by
    unfold kvIterOpen
    rw [free]
  rw [opened]
  have all : pending p table ⟨iterVal, bitmask, 0⟩ 0 = matchingSlots p table ⟨iterVal, bitmask, 0⟩ := by
    unfold pending matchingSlots
    rw [Nat.sub_zero, List.range_eq_range']
  obtain ⟨replies, ran, keys, good, ends⟩ :=
    kv_iter_reads_run p table iter calls host (free_handle_open iter handles free) _ 0
      (Function.update handles iter (some ⟨iterVal, bitmask, 0⟩)) ⟨iterVal, bitmask, 0⟩ (Function.update_self _ _ _) p.slotsSome
      (Nat.lt_succ_self _)
  rw [show (⟨iterVal, bitmask, 0⟩ : KvIterContext).currentPos = 0 from rfl, all] at keys
  exact ⟨rfl, _, replies, ran, keys, good, ends⟩

end Reading

def batchKeys : List (List UInt8) := [List.replicate 16 97 ++ [49], List.replicate 16 97 ++ [50]]

-- The table with one of them in each of the slots 5 and 6.
def batchKeyOf (slot : Nat) : List UInt8 := if slot = 5 then batchKeys.getD 0 [] else if slot = 6 then batchKeys.getD 1 [] else []

def batchTable : MappingTable := fun slot =>
  if slot = 5 ∨ slot = 6 then ⟨fun index => (batchKeyOf slot).getD index 0, some (slot * 4096), 4, none⟩ else initEntry

theorem batch_table_holds : HoldsKeys batchTable batchKeyOf := by
  intro slot taken
  by_cases first : slot = 5
  · subst first
    decide
  · by_cases second : slot = 6
    · subst second
      decide
    · simp [batchTable, first, second, occupied, initEntry] at taken

def shortKeyOf (slot : Nat) : List UInt8 := if slot = 5 then [1] else []

theorem short_key_holds : HoldsKeys (fillEntry (fun _ => initEntry) 5 shortKey 4 0) shortKeyOf := by
  intro slot taken
  by_cases here : slot = 5
  · subst here
    decide
  · simp [fillEntry, Function.update_of_ne here, occupied, initEntry] at taken

end ConZone
