import ConZone.Bitmap
import ConZone.Io
import ConZone.Walk

set_option autoImplicit false

namespace ConZone

structure KvKey where
  bytes : List UInt8
  positive : 0 < bytes.length
  inline : bytes.length ≤ 16
  deriving DecidableEq

-- struct mapping_entry, whose key has 18 bytes. none is -1 in mem_offset and next_slot.
structure MappingEntry where
  key : Nat → UInt8
  memOffset : Option Nat
  length : Nat
  nextSlot : Option Nat

abbrev MappingTable := Nat → MappingEntry

structure KvParams where
  hash : List UInt8 → Nat
  hashSlots : Nat
  storageSize : Nat
  slotsSome : 0 < hashSlots
  slotsFit : hashSlots < 2 ^ 31
  storageFits : storageSize + 2 ^ 32 < 2 ^ 64

def hashFunction (bytes : List UInt8) : Nat :=
  bytes.foldl (fun h byte => u32 (h * 16777619) ^^^ byte.toNat) 2166136261

-- What memset(-1) makes of an entry, and what kv_init_namespace makes of it.
def erasedEntry : MappingEntry := ⟨fun _ => 255, none, 2 ^ 64 - 1, none⟩
def initEntry : MappingEntry := ⟨fun _ => 0, none, 2 ^ 64 - 1, none⟩

def getHashSlot (p : KvParams) (key : KvKey) : Nat := p.hash key.bytes % p.hashSlots

def occupied (table : MappingTable) (slot : Nat) : Bool := (table slot).memOffset.isSome

-- memcmp over the length of the searched key only.
def keyMatches (key : KvKey) (entry : MappingEntry) : Bool := (List.range key.bytes.length).map entry.key == key.bytes

-- The loop that get_mapping_entry, update_mapping_entry and
-- delete_mapping_entry share. A slot comes up once in a loop that ends, so more
-- rounds than slots are one that does not.
def searchSlot (table : MappingTable) (key : KvKey) : Nat → Nat → Exec (Option Nat)
  | 0, _ => .error .hang
  | fuel + 1, slot =>
      if occupied table slot then
        if keyMatches key (table slot) then .ok (some slot)
        else
          match (table slot).nextSlot with
          | none => .ok none
          | some next => searchSlot table key fuel next
      else .ok none

def rounds (p : KvParams) : Nat := p.hashSlots + 1

def findSlot (p : KvParams) (table : MappingTable) (key : KvKey) : Exec (Option Nat) :=
  searchSlot table key (rounds p) (getHashSlot p key)

def keyBytes (key : KvKey) (index : Nat) : UInt8 := key.bytes.getD index 0

def copyKey (buffer : Nat → UInt8) (key : KvKey) : Nat → UInt8 := memcpy buffer 0 (keyBytes key) key.bytes.length

-- get_mapping_entry and get_mapping_entry_by_key.
def getMappingEntry (p : KvParams) (table : MappingTable) (key : KvKey) : Exec MappingEntry := do
  match ← findSlot p table key with
  | some slot =>
      pure { key := memcpy erasedEntry.key 0 (table slot).key key.bytes.length, memOffset := (table slot).memOffset,
             length := (table slot).length, nextSlot := (table slot).nextSlot }
  | none => pure erasedEntry

-- The first loop of find_next_slot; prevs is none while it is -1.
def chainTail (table : MappingTable) : Nat → Nat → Option Nat → Exec (Option Nat)
  | 0, _, _ => .error .hang
  | fuel + 1, tail, prevs =>
      if occupied table tail then
        match (table tail).nextSlot with
        | none => .ok (some tail)
        | some next => chainTail table fuel next (some tail)
      else .ok prevs

-- Its second loop.
def probeFree (p : KvParams) (table : MappingTable) : Nat → Nat → Exec Nat
  | 0, _ => .error .hang
  | fuel + 1, slot =>
      if occupied table slot then probeFree p table fuel (if p.hashSlots ≤ slot + 1 then 0 else slot + 1)
      else .ok slot

def findNextSlot (p : KvParams) (table : MappingTable) (originalSlot : Nat) : Exec (Nat × Nat) := do
  match ← chainTail table (rounds p) originalSlot none with
  | none => .error .outOfBounds
  | some prev =>
      let slot ← probeFree p table (rounds p) prev
      pure (slot, prev)

def chainMapping (table : MappingTable) (prev slot : Nat) : MappingTable :=
  Function.update table prev { table prev with nextSlot := some slot }

def fillEntry (table : MappingTable) (slot : Nat) (key : KvKey) (length offset : Nat) : MappingTable :=
  Function.update table slot { table slot with key := copyKey (table slot).key key, memOffset := some offset, length := length }

-- new_mapping_entry and new_mapping_entry_by_key.
def newMappingEntry (p : KvParams) (table : MappingTable) (key : KvKey) (length offset : Nat) : Exec MappingTable :=
  if p.storageSize ≤ offset then .error .bugOn
  else if occupied table (getHashSlot p key) then do
    let (slot, prev) ← findNextSlot p table (getHashSlot p key)
    pure (chainMapping (fillEntry table slot key length offset) prev slot)
  else pure (fillEntry table (getHashSlot p key) key length offset)

def updateMappingEntry (p : KvParams) (table : MappingTable) (key : KvKey) (length : Nat) : Exec MappingTable := do
  match ← findSlot p table key with
  | some slot => pure (Function.update table slot { table slot with length := length })
  | none => pure table

def deleteMappingEntry (p : KvParams) (table : MappingTable) (key : KvKey) : Exec MappingTable := do
  match ← findSlot p table key with
  | some slot => pure (Function.update table slot erasedEntry)
  | none => pure table

-- The successor of a slot in its chain. The link of an entry may have outlived
-- the entry it was made for.
def chainNext (table : MappingTable) (slot : Nat) : Option Nat :=
  if occupied table slot then (table slot).nextSlot.filter (occupied table) else none

def chainAt (p : KvParams) (table : MappingTable) (key : KvKey) (count : Nat) : Option Nat :=
  if occupied table (getHashSlot p key) then Walk.advance (chainNext table) count (getHashSlot p key) else none

-- The search for a key comes to a slot: nothing before it in the chain begins
-- with the key.
def Looks (p : KvParams) (table : MappingTable) (key : KvKey) (slot : Nat) : Prop :=
  ∃ count, chainAt p table key count = some slot ∧
    ∀ index before, index < count → chainAt p table key index = some before → keyMatches key (table before) = false

structure Linked (p : KvParams) (table : MappingTable) : Prop where
  inside : ∀ slot, occupied table slot = true → slot < p.hashSlots
  links : ∀ slot next, (table slot).nextSlot = some next → next < p.hashSlots
  fresh : ∀ slot, occupied table slot = false → (table slot).nextSlot = none
  ends : ∀ slot, Walk.Ends (chainNext table) slot

def HasFree (p : KvParams) (table : MappingTable) : Prop := ∃ slot, slot < p.hashSlots ∧ occupied table slot = false

section Chains

variable (p : KvParams) (table : MappingTable)

theorem hash_slot_inside (key : KvKey) : getHashSlot p key < p.hashSlots := Nat.mod_lt _ p.slotsSome

theorem chain_next_some (slot next : Nat) :
    chainNext table slot = some next ↔ occupied table slot = true ∧ (table slot).nextSlot = some next ∧ occupied table next = true := by
  unfold chainNext
  by_cases taken : occupied table slot = true
  · simp [taken, Option.filter_eq_some_iff]
  · simp [taken]

theorem chain_next_none (slot : Nat) (taken : occupied table slot = true) :
    chainNext table slot = none ↔ ∀ next, (table slot).nextSlot = some next → occupied table next = false := by
  unfold chainNext
  rw [if_pos taken, Option.filter_eq_none_iff]
  simp

theorem chain_at_occupied (key : KvKey) (count slot : Nat) (onChain : chainAt p table key count = some slot) :
    occupied table slot = true := by
  unfold chainAt at onChain
  split at onChain
  · rename_i home
    cases count with
    | zero =>
        rw [← Option.some.inj onChain]
        exact home
    | succ count =>
        rw [Walk.advance_succ, Option.bind_eq_some_iff] at onChain
        obtain ⟨before, _, step⟩ := onChain
        exact ((chain_next_some table before slot).mp step).2.2
  · cases onChain

theorem chain_at_succ (key : KvKey) (count : Nat) : chainAt p table key (count + 1) = (chainAt p table key count).bind (chainNext table) := by
  unfold chainAt
  split
  · exact Walk.advance_succ _ _ _
  · rfl

variable (linked : Linked p table)

include linked in
theorem chain_ends (slot : Nat) (inside : slot < p.hashSlots) : Walk.advance (chainNext table) p.hashSlots slot = none := by
  refine Walk.ends_within _ _ _ inside ?_ (linked.ends slot)
  intro place following step
  exact linked.inside following ((chain_next_some table place following).mp step).2.2

-- The result of a search from a slot on: the first entry that begins with the
-- key, if any.
def Searched (key : KvKey) (start : Nat) : Option Nat → Prop
  | some slot => ∃ count, Walk.advance (chainNext table) count start = some slot ∧ keyMatches key (table slot) = true ∧
      ∀ index before, index < count → Walk.advance (chainNext table) index start = some before → keyMatches key (table before) = false
  | none => ∀ count there, Walk.advance (chainNext table) count start = some there → keyMatches key (table there) = false

theorem searched_past (key : KvKey) (start next : Nat) (found : Option Nat) (differs : keyMatches key (table start) = false)
    (step : chainNext table start = some next) (searched : Searched table key next found) : Searched table key start found := by
  cases found with
  | none =>
      intro count there reached
      cases count with
      | zero =>
          rw [← Option.some.inj reached]
          exact differs
      | succ count =>
          simp only [Walk.advance, step, Option.bind_some] at reached
          exact searched count there reached
  | some slot =>
      obtain ⟨count, reached, matched, first⟩ := searched
      refine ⟨count + 1, ?_, matched, ?_⟩
      · simp only [Walk.advance, step, Option.bind_some]
        exact reached
      · intro index before below there
        cases index with
        | zero =>
            rw [← Option.some.inj there]
            exact differs
        | succ index =>
            simp only [Walk.advance, step, Option.bind_some] at there
            exact first index before (by omega) there

theorem searched_last (key : KvKey) (start : Nat) (differs : keyMatches key (table start) = false) (step : chainNext table start = none) :
    Searched table key start none := by
  intro count there reached
  cases count with
  | zero =>
      rw [← Option.some.inj reached]
      exact differs
  | succ count =>
      simp only [Walk.advance, step, Option.bind_none] at reached
      cases reached

theorem search_runs (key : KvKey) (fuel start : Nat) (taken : occupied table start = true)
    (ends : Walk.advance (chainNext table) fuel start = none) :
    ∃ found, searchSlot table key (fuel + 1) start = .ok found ∧ Searched table key start found := by
  induction fuel generalizing start with
  | zero => cases ends
  | succ fuel ih =>
      rw [searchSlot, if_pos taken]
      cases matched : keyMatches key (table start) with
      | true => exact ⟨some start, rfl, 0, rfl, matched, fun index _ below => absurd below (Nat.not_lt_zero index)⟩
      | false =>
          cases link : (table start).nextSlot with
          | none =>
              refine ⟨none, rfl, searched_last table key start matched ?_⟩
              rw [chain_next_none table start taken, link]
              simp
          | some next =>
              cases held : occupied table next with
              | true =>
                  have step := (chain_next_some table start next).mpr ⟨taken, link, held⟩
                  simp only [Walk.advance, step, Option.bind_some] at ends
                  obtain ⟨found, ran, searched⟩ := ih next held ends
                  exact ⟨found, ran, searched_past table key start next found matched step searched⟩
              | false =>
                  refine ⟨none, ?_, searched_last table key start matched ?_⟩
                  · simp [searchSlot, held]
                  · rw [chain_next_none table start taken, link]
                    simp [held]

include linked in
theorem find_slot_spec (key : KvKey) :
    ∃ found, findSlot p table key = .ok found ∧ ∀ slot, found = some slot ↔ Looks p table key slot ∧ keyMatches key (table slot) = true := by
  have inside := hash_slot_inside p key
  unfold findSlot rounds Looks chainAt
  cases taken : occupied table (getHashSlot p key) with
  | false =>
      refine ⟨none, by simp [searchSlot, taken], ?_⟩
      simp
  | true =>
      obtain ⟨found, ran, searched⟩ := search_runs table key p.hashSlots _ taken (chain_ends p table linked _ inside)
      refine ⟨found, ran, ?_⟩
      intro slot
      simp only [if_true]
      cases found with
      | none =>
          constructor
          · intro positive
            cases positive
          · rintro ⟨⟨count, reached, _⟩, matched⟩
            rw [searched count slot reached] at matched
            cases matched
      | some there =>
          obtain ⟨count, reached, matched, first⟩ := searched
          constructor
          · intro same
            rw [← Option.some.inj same]
            exact ⟨⟨count, reached, first⟩, matched⟩
          · rintro ⟨⟨other, otherReached, otherFirst⟩, otherMatches⟩
            rcases Nat.lt_trichotomy count other with below | same | above
            · rw [otherFirst count there below reached] at matched
              cases matched
            · rw [← same, reached] at otherReached
              exact otherReached
            · rw [first other slot above otherReached] at otherMatches
              cases otherMatches

end Chains

section Probing

variable (p : KvParams) (table : MappingTable)

theorem chain_tail_runs (fuel start : Nat) (prevs : Option Nat) (taken : occupied table start = true)
    (ends : Walk.advance (chainNext table) fuel start = none) :
    ∃ count tail, chainTail table (fuel + 1) start prevs = .ok (some tail) ∧ Walk.advance (chainNext table) count start = some tail ∧
      chainNext table tail = none := by
  induction fuel generalizing start prevs with
  | zero => cases ends
  | succ fuel ih =>
      rw [chainTail, if_pos taken]
      cases link : (table start).nextSlot with
      | none =>
          refine ⟨0, start, rfl, rfl, ?_⟩
          rw [chain_next_none table start taken, link]
          simp
      | some next =>
          cases held : occupied table next with
          | true =>
              have step := (chain_next_some table start next).mpr ⟨taken, link, held⟩
              simp only [Walk.advance, step, Option.bind_some] at ends
              obtain ⟨count, tail, ran, reached, last⟩ := ih next (some start) held ends
              refine ⟨count + 1, tail, ran, ?_, last⟩
              simp only [Walk.advance, step, Option.bind_some]
              exact reached
          | false =>
              refine ⟨0, start, by simp [chainTail, held], rfl, ?_⟩
              rw [chain_next_none table start taken, link]
              simp [held]

theorem probe_next (slot : Nat) (inside : slot < p.hashSlots) :
    (if p.hashSlots ≤ slot + 1 then 0 else slot + 1) = (slot + 1) % p.hashSlots := by
  split
  · rename_i wraps
    rw [show slot + 1 = p.hashSlots by omega, Nat.mod_self]
  · rename_i more
    rw [Nat.mod_eq_of_lt (by omega)]

theorem probe_free_ok (fuel start slot : Nat) (inside : start < p.hashSlots) (ran : probeFree p table fuel start = .ok slot) :
    slot < p.hashSlots ∧ occupied table slot = false := by
  induction fuel generalizing start with
  | zero => cases ran
  | succ fuel ih =>
      rw [probeFree] at ran
      split at ran
      · rw [probe_next p start inside] at ran
        exact ih _ (Nat.mod_lt _ p.slotsSome) ran
      · rename_i empty
        rw [← Except.ok.inj ran]
        exact ⟨inside, by simpa using empty⟩

theorem probe_free_hangs (fuel start : Nat) (fault : Fault) (inside : start < p.hashSlots)
    (ran : probeFree p table fuel start = .error fault) (index : Nat) (below : index < fuel) :
    occupied table ((start + index) % p.hashSlots) = true := by
  induction fuel generalizing start index with
  | zero => omega
  | succ fuel ih =>
      rw [probeFree] at ran
      split at ran
      · rename_i taken
        cases index with
        | zero =>
            rw [Nat.add_zero, Nat.mod_eq_of_lt inside]
            exact taken
        | succ index =>
            rw [probe_next p start inside] at ran
            have rest := ih _ (Nat.mod_lt _ p.slotsSome) ran index (by omega)
            rw [Nat.mod_add_mod] at rest
            rw [show start + (index + 1) = start + 1 + index by omega]
            exact rest
      · cases ran

theorem probe_free_runs (start : Nat) (inside : start < p.hashSlots) (free : HasFree p table) :
    ∃ slot, probeFree p table (rounds p) start = .ok slot := by
  cases ran : probeFree p table (rounds p) start with
  | ok slot => exact ⟨slot, rfl⟩
  | error fault =>
      obtain ⟨slot, slotInside, empty⟩ := free
      have all := probe_free_hangs p table (rounds p) start fault inside ran
      have index : ∃ index, index < rounds p ∧ (start + index) % p.hashSlots = slot := by
        unfold rounds
        rcases Nat.lt_or_ge slot start with before | after
        · refine ⟨p.hashSlots - start + slot, by omega, ?_⟩
          rw [show start + (p.hashSlots - start + slot) = slot + p.hashSlots by omega, Nat.add_mod_right, Nat.mod_eq_of_lt slotInside]
        · refine ⟨slot - start, by omega, ?_⟩
          rw [Nat.add_sub_cancel' after, Nat.mod_eq_of_lt slotInside]
      obtain ⟨index, below, there⟩ := index
      have taken := all index below
      rw [there, empty] at taken
      cases taken

end Probing

end ConZone
