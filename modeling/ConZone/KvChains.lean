import ConZone.KvTable

set_option autoImplicit false

namespace ConZone

-- A new entry of a key in a slot that was free: it ends the key's chain and
-- perhaps others whose links had outlived an earlier entry there.
structure Inserted (p : KvParams) (table next : MappingTable) (key : KvKey) (length offset slot : Nat) : Prop where
  empty : occupied table slot = false
  others : ∀ other, other ≠ slot →
    (next other).key = (table other).key ∧ (next other).memOffset = (table other).memOffset ∧ (next other).length = (table other).length
  filled : (next slot).memOffset = some offset ∧ (next slot).length = length
  matched : keyMatches key (next slot) = true
  enters : Walk.Enters (chainNext table) (chainNext next) slot
  reached : ∃ count, chainAt p next key count = some slot
  linked : Linked p next

section Filling

variable (p : KvParams) (table next : MappingTable) (slot : Nat)

-- The links of a table with a new entry: those of the old one, but the one that
-- may lead to the slot.
structure NewLinks : Prop where
  empty : occupied table slot = false
  inside : slot < p.hashSlots
  taken : ∀ other, occupied next other = if other = slot then true else occupied table other
  last : (next slot).nextSlot = none
  links : ∀ other, (next other).nextSlot = (table other).nextSlot ∨
    (occupied table other = true ∧ chainNext table other = none ∧ (next other).nextSlot = some slot)

variable (links : NewLinks p table next slot)

include links in
theorem new_links_enters : Walk.Enters (chainNext table) (chainNext next) slot := by
  have ends : chainNext next slot = none := by simp [chainNext, links.last]
  refine ⟨ends, ?_⟩
  intro place
  by_cases here : place = slot
  · subst here
    exact .inl (ends.trans (by simp [chainNext, links.empty]))
  · have same := links.taken place
    rw [if_neg here] at same
    by_cases held : occupied table place = true
    · rcases links.links place with kept | ⟨_, last, linked⟩
      · cases link : (table place).nextSlot with
        | none =>
            refine .inl ?_
            simp [chainNext, kept, link]
        | some following =>
            by_cases there : following = slot
            · subst there
              refine .inr ⟨?_, ?_⟩
              · rw [chain_next_none table place held, link]
                simp [links.empty]
              · exact (chain_next_some next place following).mpr ⟨same.trans held, kept.trans link, by simp [links.taken]⟩
            · refine .inl ?_
              have other := links.taken following
              rw [if_neg there] at other
              simp [chainNext, same, kept, link, other, Option.filter]
      · exact .inr ⟨last, (chain_next_some next place slot).mpr ⟨same.trans held, linked, by simp [links.taken]⟩⟩
    · refine .inl ?_
      simp [chainNext, same, held]

include links in
theorem new_links_linked (linked : Linked p table) : Linked p next := by
  constructor
  · intro other held
    rw [links.taken] at held
    split at held
    · rename_i here
      rw [here]
      exact links.inside
    · exact linked.inside other held
  · intro other following link
    rcases links.links other with kept | ⟨_, _, entered⟩
    · exact linked.links other following (kept.symm.trans link)
    · rw [entered] at link
      rw [← Option.some.inj link]
      exact links.inside
  · intro other free
    rw [links.taken] at free
    split at free
    · cases free
    · rcases links.links other with kept | ⟨held, _, _⟩
      · exact kept.trans (linked.fresh other free)
      · rw [free] at held
        cases held
  · intro start
    exact Walk.ends_enters _ _ slot (new_links_enters p table next slot links) start (linked.ends start)

end Filling

section Entering

variable (p : KvParams) (table next : MappingTable) (key : KvKey) (slot : Nat) (enters : Walk.Enters (chainNext table) (chainNext next) slot)
  (taken : ∀ other, occupied next other = if other = slot then true else occupied table other)

include enters taken in
theorem chain_at_enters (count there : Nat) (onChain : chainAt p table key count = some there) : chainAt p next key count = some there := by
  unfold chainAt at onChain ⊢
  split at onChain
  · rename_i home
    rw [if_pos (by rw [taken, home]; simp)]
    exact Walk.advance_enters _ _ slot enters count _ there onChain
  · cases onChain

include enters taken in
theorem chain_at_entered (count there : Nat) (onChain : chainAt p next key count = some there) :
    chainAt p table key count = some there ∨ there = slot := by
  unfold chainAt at onChain ⊢
  split at onChain
  · rename_i home
    by_cases before : occupied table (getHashSlot p key) = true
    · rw [if_pos before]
      exact Walk.advance_entered _ _ slot enters count _ there onChain
    · rw [taken] at home
      split at home
      · rename_i fresh
        refine .inr ?_
        cases count with
        | zero =>
            rw [← Option.some.inj onChain]
            exact fresh
        | succ count =>
            simp only [Walk.advance, fresh, enters.last, Option.bind_none] at onChain
            cases onChain
      · exact absurd home before
  · cases onChain

end Entering

section Inserting

variable (p : KvParams) (table : MappingTable) (key : KvKey) (length offset : Nat)

theorem key_copied (buffer : Nat → UInt8) : (List.range key.bytes.length).map (copyKey buffer key) = key.bytes := by
  apply List.ext_getElem?
  intro index
  by_cases inside : index < key.bytes.length
  · simp [inside, copyKey, memcpy, keyBytes]
  · simp [inside]

theorem fill_taken (slot other : Nat) :
    occupied (fillEntry table slot key length offset) other = if other = slot then true else occupied table other := by
  unfold fillEntry occupied
  by_cases here : other = slot
  · simp [here]
  · simp [here]

theorem mapping_taken (prev slot other : Nat) : occupied (chainMapping table prev slot) other = occupied table other := by
  unfold chainMapping occupied
  by_cases here : other = prev
  · simp [here]
  · simp [here]

theorem fill_linked (linked : Linked p table) (slot : Nat) (inside : slot < p.hashSlots) (empty : occupied table slot = false) :
    NewLinks p table (fillEntry table slot key length offset) slot := by
  refine ⟨empty, inside, fill_taken table key length offset slot, ?_, ?_⟩
  · simp [fillEntry, linked.fresh slot empty]
  · intro other
    refine .inl ?_
    by_cases here : other = slot
    · simp [fillEntry, here]
    · simp [fillEntry, here]

theorem chained_linked (linked : Linked p table) (prev slot : Nat) (inside : slot < p.hashSlots) (empty : occupied table slot = false)
    (held : occupied table prev = true) (last : chainNext table prev = none) :
    NewLinks p table (chainMapping (fillEntry table slot key length offset) prev slot) slot := by
  have apart : slot ≠ prev := by
    rintro rfl
    rw [held] at empty
    cases empty
  refine ⟨empty, inside, ?_, ?_, ?_⟩
  · intro other
    rw [mapping_taken, fill_taken]
  · simp [chainMapping, apart, fillEntry, linked.fresh slot empty]
  · intro other
    by_cases here : other = prev
    · subst here
      exact .inr ⟨held, last, by simp [chainMapping]⟩
    · refine .inl ?_
      by_cases there : other = slot
      · simp [chainMapping, fillEntry, there, apart]
      · simp [chainMapping, here, fillEntry, there]

theorem mapping_entry (prev slot other : Nat) :
    (chainMapping table prev slot other).key = (table other).key ∧
      (chainMapping table prev slot other).memOffset = (table other).memOffset ∧
      (chainMapping table prev slot other).length = (table other).length := by
  unfold chainMapping
  by_cases here : other = prev
  · simp [here]
  · simp [here]

theorem fill_others (slot other : Nat) (apart : other ≠ slot) : fillEntry table slot key length offset other = table other := by
  simp [fillEntry, apart]

theorem fill_entry (slot : Nat) :
    (fillEntry table slot key length offset slot).memOffset = some offset ∧ (fillEntry table slot key length offset slot).length = length ∧
      (fillEntry table slot key length offset slot).key = copyKey (table slot).key key := by
  simp [fillEntry]

theorem copied_matches (entry : MappingEntry) (buffer : Nat → UInt8) (copied : entry.key = copyKey buffer key) :
    keyMatches key entry = true := by
  unfold keyMatches
  rw [copied, key_copied]
  simp

theorem find_next_slot_ok (linked : Linked p table) (start slot prev : Nat) (inside : start < p.hashSlots) (held : occupied table start = true)
    (ran : findNextSlot p table start = .ok (slot, prev)) :
    (slot < p.hashSlots ∧ occupied table slot = false) ∧ chainNext table prev = none ∧
      ∃ count, Walk.advance (chainNext table) count start = some prev := by
  obtain ⟨count, tail, tailRan, reached, last⟩ :=
    chain_tail_runs table p.hashSlots start none held (chain_ends p table linked start inside)
  unfold findNextSlot rounds at ran
  rw [tailRan] at ran
  have probing : (probeFree p table (p.hashSlots + 1) tail >>= fun slot => pure (slot, tail)) = Except.ok (slot, prev) := ran
  obtain ⟨there, probed, same⟩ := bind_ok _ _ _ probing
  cases pure_ok _ _ same
  have tailInside : prev < p.hashSlots := by
    cases count with
    | zero =>
        rw [← Option.some.inj reached]
        exact inside
    | succ count =>
        rw [Walk.advance_succ, Option.bind_eq_some_iff] at reached
        obtain ⟨before, _, step⟩ := reached
        exact linked.inside prev ((chain_next_some table before prev).mp step).2.2
  exact ⟨probe_free_ok p table _ prev slot tailInside probed, last, count, reached⟩

theorem new_mapping_entry_inserts (linked : Linked p table) (next : MappingTable)
    (ran : newMappingEntry p table key length offset = .ok next) :
    offset < p.storageSize ∧ ∃ slot, Inserted p table next key length offset slot := by
  have inside := hash_slot_inside p key
  unfold newMappingEntry at ran
  split at ran
  · cases ran
  · rename_i fits
    refine ⟨Nat.lt_of_not_le fits, ?_⟩
    split at ran
    · rename_i held
      obtain ⟨⟨slot, prev⟩, found, same⟩ := bind_ok _ _ _ ran
      obtain ⟨⟨slotInside, empty⟩, last, count, reached⟩ := find_next_slot_ok p table linked _ slot prev inside held found
      have prevHeld : occupied table prev = true :=
        chain_at_occupied p table key count prev (by rw [chainAt, if_pos held]; exact reached)
      have links := chained_linked p table key length offset linked prev slot slotInside empty prevHeld last
      have made := pure_ok _ _ same
      rw [made] at links
      have enters := new_links_enters p table next slot links
      have entry := fill_entry table key length offset slot
      refine ⟨slot, empty, ?_, ?_, ?_, enters, ⟨count + 1, ?_⟩, new_links_linked p table next slot links linked⟩
      · intro other apart
        have kept := mapping_entry (fillEntry table slot key length offset) prev slot other
        rw [made, fill_others table key length offset slot other apart] at kept
        exact kept
      · obtain ⟨_, offsetSame, lengthSame⟩ := mapping_entry (fillEntry table slot key length offset) prev slot slot
        rw [made] at offsetSame lengthSame
        exact ⟨offsetSame.trans entry.1, lengthSame.trans entry.2.1⟩
      · obtain ⟨keySame, _⟩ := mapping_entry (fillEntry table slot key length offset) prev slot slot
        rw [made] at keySame
        exact copied_matches key (next slot) _ (keySame.trans entry.2.2)
      · have there := chain_at_enters p table next key slot enters links.taken count prev (by rw [chainAt, if_pos held]; exact reached)
        rw [chain_at_succ, there, Option.bind_some]
        refine (chain_next_some next prev slot).mpr ⟨?_, ?_, ?_⟩
        · rw [links.taken, prevHeld]
          simp
        · rw [← made]
          simp [chainMapping]
        · simp [links.taken]
    · rename_i free
      have empty : occupied table (getHashSlot p key) = false := by simpa using free
      have made := pure_ok _ _ ran
      have links := fill_linked p table key length offset linked (getHashSlot p key) inside empty
      have entry := fill_entry table key length offset (getHashSlot p key)
      rw [made] at links entry
      refine ⟨getHashSlot p key, empty, ?_, ⟨entry.1, entry.2.1⟩, copied_matches key _ _ entry.2.2,
        new_links_enters p table next _ links, ⟨0, ?_⟩, new_links_linked p table next _ links linked⟩
      · intro other apart
        rw [← made, fill_others table key length offset _ other apart]
        exact ⟨rfl, rfl, rfl⟩
      · rw [chainAt, if_pos (by simp [links.taken])]
        rfl

theorem new_mapping_entry_runs (linked : Linked p table) (free : HasFree p table) (fits : offset < p.storageSize) :
    ∃ next, newMappingEntry p table key length offset = .ok next := by
  have inside := hash_slot_inside p key
  unfold newMappingEntry
  rw [if_neg (Nat.not_le.mpr fits)]
  split
  · rename_i held
    obtain ⟨count, tail, tailRan, reached, _⟩ :=
      chain_tail_runs table p.hashSlots _ none held (chain_ends p table linked _ inside)
    have tailInside : tail < p.hashSlots :=
      linked.inside tail (chain_at_occupied p table key count tail (by rw [chainAt, if_pos held]; exact reached))
    obtain ⟨slot, probed⟩ := probe_free_runs p table tail tailInside free
    refine ⟨chainMapping (fillEntry table slot key length offset) tail slot, ?_⟩
    unfold findNextSlot rounds
    unfold rounds at probed
    rw [tailRan]
    simp only [bind, Except.bind, probed]
    rfl
  · exact ⟨_, rfl⟩

end Inserting

theorem inserted_taken (p : KvParams) (table next : MappingTable) (key : KvKey) (length offset slot : Nat)
    (inserted : Inserted p table next key length offset slot) (other : Nat) :
    occupied next other = if other = slot then true else occupied table other := by
  unfold occupied
  split
  · rename_i here
    rw [here, inserted.filled.1]
    rfl
  · rename_i apart
    rw [(inserted.others other apart).2.1]

section Erasing

variable (p : KvParams) (table : MappingTable) (slot : Nat)

theorem erase_taken (other : Nat) :
    occupied (Function.update table slot erasedEntry) other = if other = slot then false else occupied table other := by
  unfold occupied
  by_cases here : other = slot
  · simp [here, erasedEntry]
  · simp [here]

-- Deletion takes the slot out of every chain, and cuts off what was behind it.
theorem erase_next (place : Nat) :
    chainNext (Function.update table slot erasedEntry) place =
      if place = slot ∨ chainNext table place = some slot then none else chainNext table place := by
  by_cases here : place = slot
  · simp [here, chainNext, erase_taken]
  · have link : (Function.update table slot erasedEntry place).nextSlot = (table place).nextSlot := by simp [here]
    have held := erase_taken table slot place
    rw [if_neg here] at held
    cases step : (table place).nextSlot with
    | none => simp [chainNext, here, step]
    | some following =>
        by_cases there : following = slot
        · subst there
          by_cases both : chainNext table place = some following
          · rw [if_pos (.inr both)]
            simp [chainNext, link, step, Option.filter, erase_taken]
          · have before : chainNext table place = none := by
              cases next : chainNext table place with
              | none => rfl
              | some other =>
                  have same := ((chain_next_some table place other).mp next).2.1
                  rw [step] at same
                  exact absurd (next.trans (congrArg some (Option.some.inj same).symm)) both
            rw [if_neg (by simp [here, before]), before]
            simp [chainNext, link, step, Option.filter, erase_taken]
        · have other := erase_taken table slot following
          rw [if_neg there] at other
          have apart : chainNext table place ≠ some slot := by
            intro led
            have same := ((chain_next_some table place slot).mp led).2.1
            rw [step] at same
            exact there (Option.some.inj same)
          rw [if_neg (by simp [here, apart])]
          simp [chainNext, held, link, step, other, Option.filter]

theorem erase_cuts : Walk.Cuts (chainNext table) (chainNext (Function.update table slot erasedEntry)) := by
  intro place
  rw [erase_next]
  split
  · exact .inr rfl
  · exact .inl rfl

theorem erase_linked (linked : Linked p table) : Linked p (Function.update table slot erasedEntry) := by
  constructor
  · intro other held
    rw [erase_taken] at held
    split at held
    · cases held
    · exact linked.inside other held
  · intro other following link
    by_cases here : other = slot
    · simp [here, erasedEntry] at link
    · simp only [Function.update_of_ne here] at link
      exact linked.links other following link
  · intro other free
    by_cases here : other = slot
    · simp [here, erasedEntry]
    · rw [erase_taken, if_neg here] at free
      simp only [Function.update_of_ne here]
      exact linked.fresh other free
  · intro start
    exact Walk.ends_cut _ _ (erase_cuts table slot) start (linked.ends start)

theorem erase_chain_cut (key : KvKey) (count there : Nat) (onChain : chainAt p (Function.update table slot erasedEntry) key count = some there) :
    chainAt p table key count = some there := by
  unfold chainAt at onChain ⊢
  rw [erase_taken] at onChain
  by_cases here : getHashSlot p key = slot
  · rw [if_pos here] at onChain
    cases onChain
  · rw [if_neg here] at onChain
    split at onChain
    · rename_i home
      rw [if_pos home]
      exact Walk.advance_cut _ _ (erase_cuts table slot) count _ there onChain
    · cases onChain

theorem erase_chain_kept (key : KvKey) (count there : Nat) (onChain : chainAt p table key count = some there)
    (spared : ∀ index, index ≤ count → chainAt p table key index ≠ some slot) :
    chainAt p (Function.update table slot erasedEntry) key count = some there := by
  unfold chainAt at onChain spared ⊢
  split at onChain
  · rename_i home
    simp only [home, if_true] at spared
    have apart : getHashSlot p key ≠ slot := fun same => spared 0 (Nat.zero_le _) (congrArg some same)
    rw [erase_taken, if_neg apart, if_pos home]
    refine Walk.advance_spared _ _ count _ there onChain ?_
    intro index place below reached
    rw [erase_next, if_neg]
    rintro (here | led)
    · exact spared index (Nat.le_of_lt below) (reached.trans (congrArg some here))
    · refine spared (index + 1) below ?_
      rw [Walk.advance_succ, reached]
      exact led
  · cases onChain

end Erasing

section Resizing

variable (p : KvParams) (table : MappingTable) (slot length : Nat)

theorem resize_same (other : Nat) :
    (Function.update table slot { table slot with length := length } other).key = (table other).key ∧
      (Function.update table slot { table slot with length := length } other).memOffset = (table other).memOffset ∧
      (Function.update table slot { table slot with length := length } other).nextSlot = (table other).nextSlot := by
  by_cases here : other = slot
  · subst here
    simp
  · simp [here]

theorem resize_taken (other : Nat) : occupied (Function.update table slot { table slot with length := length }) other = occupied table other :=
  congrArg Option.isSome (resize_same table slot length other).2.1

theorem resize_next : chainNext (Function.update table slot { table slot with length := length }) = chainNext table := by
  funext place
  have taken : occupied (Function.update table slot { table slot with length := length }) = occupied table :=
    funext (resize_taken table slot length)
  unfold chainNext
  rw [taken, (resize_same table slot length place).2.2]

theorem resize_chain (key : KvKey) (count : Nat) :
    chainAt p (Function.update table slot { table slot with length := length }) key count = chainAt p table key count := by
  unfold chainAt
  rw [resize_taken, resize_next]

theorem resize_matches (key : KvKey) (other : Nat) :
    keyMatches key (Function.update table slot { table slot with length := length } other) = keyMatches key (table other) := by
  unfold keyMatches
  rw [(resize_same table slot length other).1]

theorem resize_linked (linked : Linked p table) : Linked p (Function.update table slot { table slot with length := length }) := by
  constructor
  · intro other held
    rw [resize_taken] at held
    exact linked.inside other held
  · intro other following link
    rw [(resize_same table slot length other).2.2] at link
    exact linked.links other following link
  · intro other free
    rw [resize_taken] at free
    rw [(resize_same table slot length other).2.2]
    exact linked.fresh other free
  · intro start
    rw [resize_next]
    exact linked.ends start

end Resizing

end ConZone
