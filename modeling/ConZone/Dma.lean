import ConZone.Payload

set_option autoImplicit false

namespace ConZone

-- static u64 paddr_list[513], whose entry 0 is not used.
def paddrListSize : Nat := 513

-- The loop to get the PRP list. It gives num_prps and paddr_list.
def flattenPrps (data : DataPointer) : Nat → Nat → Option Nat → Nat → (Nat → Nat) → Exec (Nat × (Nat → Nat))
  | 0, prpOffs, _, remaining, paddrList => if remaining = 0 then .ok (prpOffs, paddrList) else .error .hang
  | fuel + 1, prpOffs, list, remaining, paddrList =>
      if remaining = 0 then .ok (prpOffs, paddrList)
      else
        match prpAt data prpOffs list remaining with
        | none => .error .nullDeref
        | some (paddr, list) =>
            if paddrListSize ≤ prpOffs + 1 then .error .outOfBounds
            else
              flattenPrps data fuel (prpOffs + 1) list (remaining - ioSizeAt paddr remaining)
                (Function.update paddrList (prpOffs + 1) paddr)

-- The for loop over the entries from prpOffs on, left of them, that adds the
-- pages behind one another in memory to page_size.
def mergePages (paddrList : Nat → Nat) : Nat → Nat → Nat → Nat × Nat
  | 0, prpOffs, size => (prpOffs, size)
  | left + 1, prpOffs, size =>
      if paddrList prpOffs = u64 (paddrList (prpOffs - 1) + pageSize) then mergePages paddrList left (prpOffs + 1) (size + pageSize)
      else (prpOffs, size)

-- The loop for data transfer: the ranges handed to ioat_dma_submit, whose size
-- is an unsigned int.
def dmaRanges (paddrList : Nat → Nat) (numPrps : Nat) : Nat → Nat → Nat → Exec (List (Nat × Nat))
  | 0, _, remaining => if remaining = 0 then .ok [] else .error .hang
  | fuel + 1, prpOffs, remaining =>
      if remaining = 0 then .ok []
      else if paddrListSize ≤ prpOffs then .error .outOfBounds
      else
        let merged := mergePages paddrList (numPrps - prpOffs) (prpOffs + 1) (ioSizeAt (paddrList prpOffs) remaining)
        let ioSize := min remaining merged.2
        do
          let rest ← dmaRanges paddrList numPrps fuel merged.1 (remaining - ioSize)
          pure ((paddrList prpOffs, u32 ioSize) :: rest)

def commandRanges (rw : RwCommand) (data : DataPointer) : Exec (List (Nat × Nat)) := do
  let (numPrps, paddrList) ← flattenPrps data (cmdIoSize rw) 0 none (cmdIoSize rw) (fun _ => 0)
  dmaRanges paddrList numPrps (cmdIoSize rw) 1 (cmdIoSize rw)

-- Every ioat_dma_submit copies its whole range; addresses have 64 bits.
def doPerformIoUsingDma (p : Params) (mapped : Nat) (storage : Storage) :
    HostCommand → Exec (Option (Storage × List (Nat × UInt8)))
  | .write rw data =>
      if cmdNsRange p rw then do
        let ranges ← commandRanges rw data
        pure (some (copyIn (fun address => data.memory (u64 address)) ranges (mapped + cmdIoOffset rw) storage, []))
      else pure none
  | .read rw data =>
      if cmdNsRange p rw then do
        let ranges ← commandRanges rw data
        pure (some (storage, (copyOut storage ranges (mapped + cmdIoOffset rw)).map fun byte => (u64 byte.1, byte.2)))
      else pure none
  | .flush | .mgmtSend _ => pure (some (storage, []))

-- The pages of a command as the host lays them out: one at PRP1 and the rest
-- either at PRP2 or in the list that PRP2 points to.
def pageCount (bytes : Nat) : Nat := (bytes + (pageSize - 1)) / pageSize

def restPrps (data : DataPointer) (rest : Nat) : List Nat :=
  if rest = 0 then [] else if pageSize < rest then (List.range (pageCount rest)).map data.prpList else [data.prp2]

def hostPrps (data : DataPointer) (length : Nat) : List Nat :=
  data.prp1 :: restPrps data (length - ioSizeAt data.prp1 length)

def sizedPages : List Nat → Nat → List (Nat × Nat)
  | [], _ => []
  | paddr :: rest, remaining => (paddr, ioSizeAt paddr remaining) :: sizedPages rest (remaining - ioSizeAt paddr remaining)

@[simp] theorem sized_pages_length (pages : List Nat) (remaining : Nat) : (sizedPages pages remaining).length = pages.length := by
  induction pages generalizing remaining with
  | nil => rfl
  | cons paddr rest ih => rw [sizedPages, List.length_cons, List.length_cons, ih]

@[simp] theorem sized_pages_addresses (pages : List Nat) (remaining : Nat) : (sizedPages pages remaining).map Prod.fst = pages := by
  induction pages generalizing remaining with
  | nil => rfl
  | cons paddr rest ih => rw [sizedPages, List.map_cons, ih]

theorem io_size_positive (paddr remaining : Nat) (more : remaining ≠ 0) : 0 < ioSizeAt paddr remaining := by
  have inPage := Nat.mod_lt paddr (show 0 < pageSize by decide)
  simp only [ioSizeAt]
  split <;> unfold pageSize at * <;> omega

theorem io_size_aligned (paddr remaining : Nat) (aligned : paddr % pageSize = 0) : ioSizeAt paddr remaining = min remaining pageSize := by
  simp [ioSizeAt, aligned]

theorem page_count_step (bytes : Nat) (more : bytes ≠ 0) : pageCount bytes = pageCount (bytes - min bytes pageSize) + 1 := by
  unfold pageCount pageSize
  omega

theorem page_count_none (bytes : Nat) : pageCount bytes = 0 ↔ bytes = 0 := by
  unfold pageCount pageSize
  omega

section Pieces

variable (data : DataPointer)

theorem listed_pieces (fuel prpOffs index remaining : Nat) (enough : remaining ≤ fuel)
    (aligned : ∀ entry, index ≤ entry → entry < index + pageCount remaining → data.prpList entry % pageSize = 0) :
    prpPieces data fuel (prpOffs + 2) (some index) remaining =
      .ok (sizedPages ((List.range' index (pageCount remaining)).map data.prpList) remaining) := by
  induction fuel generalizing prpOffs index remaining with
  | zero =>
      have spent : remaining = 0 := by omega
      subst spent
      rfl
  | succ fuel ih =>
      by_cases spent : remaining = 0
      · subst spent
        rfl
      · have count := page_count_step remaining spent
        have here := aligned index (Nat.le_refl _) (by omega)
        have size := io_size_aligned _ remaining here
        have positive := io_size_positive (data.prpList index) remaining spent
        have rest := ih (prpOffs + 1) (index + 1) (remaining - ioSizeAt (data.prpList index) remaining) (by omega) (by
          intro entry lower upper
          rw [size] at upper
          exact aligned entry (by omega) (by omega))
        rw [prpPieces, if_neg spent, count, List.range'_succ, List.map_cons, sizedPages]
        simp only [prpAt, Option.map_some]
        rw [rest, ← size]
        rfl

theorem rest_pieces (fuel remaining : Nat) (enough : remaining ≤ fuel) (aligned : ∀ page ∈ restPrps data remaining, page % pageSize = 0) :
    prpPieces data fuel 1 none remaining = .ok (sizedPages (restPrps data remaining) remaining) := by
  cases fuel with
  | zero =>
      have spent : remaining = 0 := by omega
      subst spent
      rfl
  | succ fuel =>
      by_cases spent : remaining = 0
      · subst spent
        rfl
      · rw [prpPieces, if_neg spent]
        by_cases listed : pageSize < remaining
        · simp only [restPrps, if_neg spent, if_pos listed] at aligned ⊢
          have every : ∀ entry < pageCount remaining, data.prpList entry % pageSize = 0 := fun entry below =>
            aligned _ (List.mem_map.mpr ⟨entry, List.mem_range.mpr below, rfl⟩)
          have count := page_count_step remaining spent
          have here := every 0 (by omega)
          have size := io_size_aligned _ remaining here
          have positive := io_size_positive (data.prpList 0) remaining spent
          have rest := listed_pieces data fuel 0 1 (remaining - ioSizeAt (data.prpList 0) remaining) (by omega) (by
            intro entry _ upper
            rw [size] at upper
            exact every entry (by omega))
          simp only [prpAt, if_pos listed]
          rw [rest, count, List.range_eq_range', List.range'_succ, List.map_cons, sizedPages, ← size]
          rfl
        · simp only [restPrps, if_neg spent, if_neg listed, List.mem_singleton, forall_eq] at aligned ⊢
          have whole : ioSizeAt data.prp2 remaining = remaining := by
            rw [io_size_aligned _ _ aligned]
            omega
          simp only [prpAt, if_neg listed, sizedPages, whole, Nat.sub_self]
          cases fuel <;> rfl

theorem host_pieces (fuel length : Nat) (nonzero : length ≠ 0) (enough : length ≤ fuel)
    (aligned : ∀ page ∈ (hostPrps data length).tail, page % pageSize = 0) :
    prpPieces data fuel 0 none length = .ok (sizedPages (hostPrps data length) length) := by
  have positive := io_size_positive data.prp1 length nonzero
  cases fuel with
  | zero => omega
  | succ fuel =>
      rw [prpPieces, if_neg nonzero]
      simp only [prpAt, hostPrps, sizedPages]
      rw [rest_pieces data fuel _ (by omega) aligned]
      rfl

def StoredAt (paddrList : Nat → Nat) : List Nat → Nat → Prop
  | [], _ => True
  | page :: rest, prpOffs => paddrList prpOffs = page ∧ StoredAt paddrList rest (prpOffs + 1)

def fillList (paddrList : Nat → Nat) : List Nat → Nat → Nat → Nat
  | [], _ => paddrList
  | page :: rest, prpOffs => fillList (Function.update paddrList prpOffs page) rest (prpOffs + 1)

theorem fill_below (pages : List Nat) (prpOffs entry : Nat) (paddrList : Nat → Nat) (below : entry < prpOffs) :
    fillList paddrList pages prpOffs entry = paddrList entry := by
  induction pages generalizing prpOffs paddrList with
  | nil => rfl
  | cons page rest ih =>
      rw [fillList, ih _ _ (by omega), Function.update_of_ne (by omega)]

theorem fill_stores (pages : List Nat) (prpOffs : Nat) (paddrList : Nat → Nat) :
    StoredAt (fillList paddrList pages prpOffs) pages prpOffs := by
  induction pages generalizing prpOffs paddrList with
  | nil => trivial
  | cons page rest ih =>
      refine ⟨?_, ih _ _⟩
      rw [fillList, fill_below _ _ _ _ (by omega), Function.update_self]

theorem flatten_pieces (fuel prpOffs remaining : Nat) (list : Option Nat) (paddrList : Nat → Nat) (pieces : List (Nat × Nat))
    (ran : prpPieces data fuel prpOffs list remaining = .ok pieces) (few : prpOffs + pieces.length < paddrListSize) :
    flattenPrps data fuel prpOffs list remaining paddrList =
      .ok (prpOffs + pieces.length, fillList paddrList (pieces.map Prod.fst) (prpOffs + 1)) := by
  induction fuel generalizing prpOffs remaining list paddrList pieces with
  | zero =>
      by_cases spent : remaining = 0
      · simp only [prpPieces, if_pos spent] at ran
        cases ran
        simp [flattenPrps, spent, fillList]
      · simp only [prpPieces, if_neg spent] at ran
        cases ran
  | succ fuel ih =>
      by_cases spent : remaining = 0
      · simp only [prpPieces, if_pos spent] at ran
        cases ran
        simp [flattenPrps, spent, fillList]
      · simp only [prpPieces, if_neg spent] at ran
        rw [flattenPrps, if_neg spent]
        cases entry : prpAt data prpOffs list remaining with
        | none =>
            rw [entry] at ran
            cases ran
        | some found =>
            obtain ⟨paddr, list'⟩ := found
            rw [entry] at ran
            obtain ⟨rest, tail, same⟩ := bind_ok _ _ _ ran
            rw [← pure_ok _ _ same] at few ⊢
            rw [List.length_cons] at few
            have room : ¬paddrListSize ≤ prpOffs + 1 := by omega
            dsimp only
            rw [if_neg room, ih _ _ _ _ rest tail (by omega), List.length_cons, List.map_cons, fillList]
            congr 2
            omega

end Pieces

section Merging

variable (paddrList : Nat → Nat)

theorem joined_bytes (paddr page first second : Nat) (rest : List (Nat × Nat)) (joins : u64 (paddr + first) = page) (index : Nat) :
    u64 (byteAddress ((paddr, first + second) :: rest) index) = u64 (byteAddress ((paddr, first) :: (page, second) :: rest) index) := by
  simp only [byteAddress]
  by_cases before : index < first
  · rw [if_pos before, if_pos (by omega)]
  · by_cases inside : index < first + second
    · rw [if_neg before, if_pos inside, if_pos (by omega), ← joins]
      unfold u64
      omega
    · rw [if_neg before, if_neg inside, if_neg (by omega), Nat.sub_sub]

theorem merged_pages (pages : List Nat) (prpOffs size total paddr : Nat) (stored : StoredAt paddrList pages prpOffs)
    (aligned : ∀ page ∈ pages, page % pageSize = 0) (count : pages.length = pageCount (total - size))
    (joins : pages ≠ [] → paddrList prpOffs = u64 (paddrList (prpOffs - 1) + pageSize) → u64 (paddr + size) = paddrList prpOffs) :
    ∃ left next merged, mergePages paddrList pages.length prpOffs size = (next, merged) ∧ size ≤ merged ∧
      StoredAt paddrList left next ∧ (∀ page ∈ left, page % pageSize = 0) ∧ left.length = pageCount (total - merged) ∧
      next + left.length = prpOffs + pages.length ∧ prpOffs ≤ next ∧
      ∀ index, u64 (byteAddress ((paddr, min total merged) :: sizedPages left (total - merged)) index) =
        u64 (byteAddress ((paddr, min total size) :: sizedPages pages (total - size)) index) := by
  induction pages generalizing prpOffs size with
  | nil => exact ⟨[], prpOffs, size, rfl, Nat.le_refl _, trivial, aligned, count, rfl, Nat.le_refl _, fun _ => rfl⟩
  | cons page rest ih =>
      obtain ⟨here, later⟩ := stored
      by_cases behind : paddrList prpOffs = u64 (paddrList (prpOffs - 1) + pageSize)
      · have join := joins (List.cons_ne_nil _ _) behind
        have more : total - size ≠ 0 := by
          intro spent
          rw [(page_count_none _).mpr spent] at count
          cases count
        have step := page_count_step _ more
        have fits : total - (size + pageSize) = total - size - min (total - size) pageSize := by omega
        obtain ⟨left, next, merged, ran, grown, listed, leftAligned, leftCount, ends, forward, same⟩ :=
          ih (prpOffs + 1) (size + pageSize) later (fun other member => aligned other (List.mem_cons_of_mem _ member))
            (by
              rw [fits]
              rw [List.length_cons, step] at count
              omega)
            (by
              intro _ again
              rw [Nat.add_sub_cancel] at again
              rw [again, ← join]
              unfold u64
              omega)
        refine ⟨left, next, merged, ?_, by omega, listed, leftAligned, leftCount, by rw [List.length_cons]; omega, by omega, ?_⟩
        · rw [List.length_cons, mergePages, if_pos behind]
          exact ran
        · intro index
          have sizeHere := io_size_aligned page (total - size) (aligned page (List.mem_cons_self ..))
          have taken : min total (size + pageSize) = min total size + min (total - size) pageSize := by omega
          have whole : min total size = size := by omega
          rw [same index, taken, fits, whole, sizedPages, sizeHere]
          exact joined_bytes paddr page size _ _ (join.trans here) index
      · refine ⟨page :: rest, prpOffs, size, ?_, Nat.le_refl _, ⟨here, later⟩, aligned, count, rfl, Nat.le_refl _, fun _ => rfl⟩
        rw [List.length_cons, mergePages, if_neg behind]

def RunCovers : List Nat → Nat → Prop
  | [], total => total = 0
  | paddr :: rest, total => total ≠ 0 ∧ rest.length = pageCount (total - ioSizeAt paddr total)

theorem aligned_covers (pages : List Nat) (total : Nat) (aligned : ∀ page ∈ pages, page % pageSize = 0)
    (count : pages.length = pageCount total) : RunCovers pages total := by
  cases pages with
  | nil => exact (page_count_none total).mp count.symm
  | cons page rest =>
      have more : total ≠ 0 := by
        intro spent
        rw [(page_count_none _).mpr spent] at count
        cases count
      refine ⟨more, ?_⟩
      rw [io_size_aligned page total (aligned page (List.mem_cons_self ..))]
      rw [List.length_cons, page_count_step total more] at count
      omega

theorem ranges_bytes (fuel prpOffs numPrps total : Nat) (pages : List Nat) (enough : total ≤ fuel) (fits : total < 2 ^ 32)
    (stored : StoredAt paddrList pages prpOffs) (aligned : ∀ page ∈ pages.tail, page % pageSize = 0) (covers : RunCovers pages total)
    (ends : prpOffs + pages.length = numPrps + 1) (few : numPrps < paddrListSize) :
    ∃ ranges, dmaRanges paddrList numPrps fuel prpOffs total = .ok ranges ∧ pieceBytes ranges = total ∧
      ∀ index, u64 (byteAddress ranges index) = u64 (byteAddress (sizedPages pages total) index) := by
  induction fuel generalizing prpOffs total pages with
  | zero =>
      have spent : total = 0 := by omega
      subst spent
      cases pages with
      | nil => exact ⟨[], rfl, rfl, fun _ => rfl⟩
      | cons page rest => exact absurd rfl covers.1
  | succ fuel ih =>
      cases pages with
      | nil =>
          have spent : total = 0 := covers
          subst spent
          exact ⟨[], rfl, rfl, fun _ => rfl⟩
      | cons paddr rest =>
          obtain ⟨more, count⟩ := covers
          obtain ⟨here, later⟩ := stored
          rw [List.length_cons] at ends
          have bound := io_size_bound paddr total
          have positive := io_size_positive paddr total more
          have behind : numPrps - prpOffs = rest.length := by omega
          obtain ⟨left, next, merged, ran, grown, listed, leftAligned, leftCount, leftEnds, forward, same⟩ :=
            merged_pages paddrList rest (prpOffs + 1) (ioSizeAt paddr total) total paddr later aligned count (by
              intro nonempty follows
              cases rest with
              | nil => exact absurd rfl nonempty
              | cons page rest =>
                  rw [Nat.add_sub_cancel, here, later.1] at follows
                  have pageAligned := aligned page (List.mem_cons_self ..)
                  have paddrAligned : paddr % pageSize = 0 := by
                    rw [follows] at pageAligned
                    unfold u64 pageSize at pageAligned
                    unfold pageSize
                    omega
                  have size := io_size_aligned paddr total paddrAligned
                  have unfinished : total - ioSizeAt paddr total ≠ 0 := by
                    intro spent
                    rw [(page_count_none _).mpr spent] at count
                    cases count
                  have whole : ioSizeAt paddr total = pageSize := by omega
                  rw [whole, later.1, follows])
          have restRan : total - min total merged = total - merged := by omega
          obtain ⟨ranges, tail, bytes, addresses⟩ := ih next (total - merged) left (by omega) (by omega) listed
            (fun page member => leftAligned page (List.mem_of_mem_tail member)) (aligned_covers left _ leftAligned leftCount) (by omega)
          have exactly : u32 (min total merged) = min total merged := Nat.mod_eq_of_lt (by omega)
          refine ⟨(paddr, min total merged) :: ranges, ?_, ?_, ?_⟩
          · rw [dmaRanges, if_neg more, if_neg (by omega), here, behind, ran]
            dsimp only
            rw [restRan, tail, exactly]
            rfl
          · simp only [pieceBytes, List.map_cons, List.sum_cons] at bytes ⊢
            omega
          · intro index
            have taken : min total (ioSizeAt paddr total) = ioSizeAt paddr total := by omega
            have joined := same index
            rw [taken] at joined
            rw [sizedPages, ← joined]
            simp only [byteAddress]
            split
            · rfl
            · exact addresses _

end Merging

section Transfer

variable (rw : RwCommand) (data : DataPointer)

theorem page_address_fits (pages : List Nat) (total : Nat) (addresses : ∀ page ∈ pages, page < 2 ^ 64) (index : Nat)
    (inside : index < pieceBytes (sizedPages pages total)) : byteAddress (sizedPages pages total) index < 2 ^ 64 := by
  induction pages generalizing total index with
  | nil => cases inside
  | cons paddr rest ih =>
      simp only [sizedPages, byteAddress]
      split
      · rename_i here
        have fits := addresses paddr (List.mem_cons_self ..)
        simp only [ioSizeAt] at here
        unfold pageSize at here
        split at here <;> omega
      · rename_i later
        refine ih _ (fun page member => addresses page (List.mem_cons_of_mem _ member)) _ ?_
        simp only [sizedPages, pieceBytes, List.map_cons, List.sum_cons] at inside ⊢
        omega

theorem io_size_page (paddr remaining : Nat) : ioSizeAt paddr remaining ≤ pageSize := by
  simp only [ioSizeAt]
  split <;> omega

theorem sized_pages_bound (pages : List Nat) (total : Nat) : pieceBytes (sizedPages pages total) ≤ pages.length * pageSize := by
  induction pages generalizing total with
  | nil => exact Nat.zero_le _
  | cons paddr rest ih =>
      have bound := io_size_page paddr total
      have tail := ih (total - ioSizeAt paddr total)
      rw [List.length_cons, Nat.succ_mul]
      simp only [sizedPages, pieceBytes, List.map_cons, List.sum_cons] at tail ⊢
      omega

theorem host_prps_cover (length : Nat) (nonzero : length ≠ 0) : RunCovers (hostPrps data length) length := by
  refine ⟨nonzero, ?_⟩
  unfold restPrps
  split
  · rename_i spent
    rw [spent]
    rfl
  · rename_i more
    split
    · rw [List.length_map, List.length_range]
    · rename_i single
      unfold pageCount pageSize at *
      rw [List.length_singleton]
      omega

theorem cmd_io_size_positive : cmdIoSize rw ≠ 0 := by
  unfold cmdIoSize nrLbasFromRwCmd secsz
  omega

variable (few : (hostPrps data (cmdIoSize rw)).length ≤ 512)
  (aligned : ∀ page ∈ (hostPrps data (cmdIoSize rw)).tail, page % pageSize = 0)

include aligned in
theorem command_pieces_pages : commandPieces rw data = .ok (sizedPages (hostPrps data (cmdIoSize rw)) (cmdIoSize rw)) :=
  host_pieces data _ _ (cmd_io_size_positive rw) (Nat.le_refl _) aligned

include few aligned in
theorem command_ranges_bytes :
    ∃ ranges, commandRanges rw data = .ok ranges ∧ pieceBytes ranges = cmdIoSize rw ∧
      ∀ index, u64 (byteAddress ranges index) =
        u64 (byteAddress (sizedPages (hostPrps data (cmdIoSize rw)) (cmdIoSize rw)) index) := by
  have pieces := command_pieces_pages rw data aligned
  have moved := command_pieces_bytes rw data _ pieces
  have bound := sized_pages_bound (hostPrps data (cmdIoSize rw)) (cmdIoSize rw)
  have fits : cmdIoSize rw < 2 ^ 32 := by
    unfold pageSize at bound
    omega
  have flattened := flatten_pieces data (cmdIoSize rw) 0 (cmdIoSize rw) none (fun _ => 0) _ pieces (by
    rw [sized_pages_length]
    unfold paddrListSize
    omega)
  rw [sized_pages_length, sized_pages_addresses] at flattened
  obtain ⟨ranges, ran, bytes, addresses⟩ := ranges_bytes (fillList (fun _ => 0) (hostPrps data (cmdIoSize rw)) 1)
    (cmdIoSize rw) 1 (hostPrps data (cmdIoSize rw)).length (cmdIoSize rw) (hostPrps data (cmdIoSize rw)) (Nat.le_refl _) fits
    (fill_stores _ _ _) aligned (host_prps_cover data _ (cmd_io_size_positive rw)) (by omega) (by unfold paddrListSize; omega)
  refine ⟨ranges, ?_, bytes, addresses⟩
  unfold commandRanges
  rw [flattened, Nat.zero_add, Nat.zero_add]
  exact ran

variable (addresses : ∀ page ∈ hostPrps data (cmdIoSize rw), page < 2 ^ 64)

include few aligned addresses in
theorem ranges_same_bytes :
    ∃ pieces ranges, commandPieces rw data = .ok pieces ∧ commandRanges rw data = .ok ranges ∧
      pieceBytes pieces = cmdIoSize rw ∧ pieceBytes ranges = cmdIoSize rw ∧
      ∀ index < cmdIoSize rw, u64 (byteAddress ranges index) = byteAddress pieces index := by
  have pieces := command_pieces_pages rw data aligned
  have moved := command_pieces_bytes rw data _ pieces
  obtain ⟨ranges, ran, bytes, same⟩ := command_ranges_bytes rw data few aligned
  refine ⟨_, ranges, pieces, ran, moved, bytes, ?_⟩
  intro index inside
  rw [same index]
  exact Nat.mod_eq_of_lt (page_address_fits _ _ addresses index (by rwa [moved]))

include few aligned addresses in
theorem dma_write_same (p : Params) (mapped : Nat) (storage : Storage) :
    doPerformIoUsingDma p mapped storage (.write rw data) = doPerformIo p mapped storage (.write rw data) := by
  obtain ⟨pieces, ranges, copied, submitted, moved, bytes, same⟩ := ranges_same_bytes rw data few aligned addresses
  simp only [doPerformIoUsingDma, doPerformIo, copied, submitted]
  congr 1
  have stored : copyIn (fun address => data.memory (u64 address)) ranges (mapped + cmdIoOffset rw) storage =
      copyIn data.memory pieces (mapped + cmdIoOffset rw) storage := by
    funext address
    rw [copy_in_bytes, copy_in_bytes, moved, bytes]
    split
    · rename_i inside
      rw [same _ (by omega)]
    · rfl
  simp only [bind, Except.bind, stored]

include few aligned addresses in
theorem dma_read_same (p : Params) (mapped : Nat) (storage : Storage) :
    doPerformIoUsingDma p mapped storage (.read rw data) = doPerformIo p mapped storage (.read rw data) := by
  obtain ⟨pieces, ranges, copied, submitted, moved, bytes, same⟩ := ranges_same_bytes rw data few aligned addresses
  simp only [doPerformIoUsingDma, doPerformIo, copied, submitted]
  congr 1
  have delivered : (copyOut storage ranges (mapped + cmdIoOffset rw)).map (fun byte => (u64 byte.1, byte.2)) =
      copyOut storage pieces (mapped + cmdIoOffset rw) := by
    rw [copy_out_bytes, copy_out_bytes, moved, bytes, List.map_map]
    apply List.map_congr_left
    intro index member
    simp only [Function.comp_apply, same index (List.mem_range.mp member)]
  simp only [bind, Except.bind, delivered]

end Transfer

-- Byte number index of a command has the same host address on both paths, and
-- what they leave in the storage and in the host's memory is the same.
theorem dma_transfers_same (p : Params) (mapped : Nat) (storage : Storage) (rw : RwCommand) (data : DataPointer)
    (few : (hostPrps data (cmdIoSize rw)).length ≤ 512)
    (aligned : ∀ page ∈ (hostPrps data (cmdIoSize rw)).tail, page % pageSize = 0)
    (addresses : ∀ page ∈ hostPrps data (cmdIoSize rw), page < 2 ^ 64) :
    (∃ pieces ranges, commandPieces rw data = .ok pieces ∧ commandRanges rw data = .ok ranges ∧
      pieceBytes pieces = cmdIoSize rw ∧ pieceBytes ranges = cmdIoSize rw ∧
      ∀ index < cmdIoSize rw, u64 (byteAddress ranges index) = byteAddress pieces index) ∧
    ∀ cmd, cmd = .write rw data ∨ cmd = .read rw data →
      doPerformIoUsingDma p mapped storage cmd = doPerformIo p mapped storage cmd := by
  refine ⟨ranges_same_bytes rw data few aligned addresses, ?_⟩
  rintro cmd (write | read)
  · rw [write]
    exact dma_write_same rw data few aligned addresses p mapped storage
  · rw [read]
    exact dma_read_same rw data few aligned addresses p mapped storage

def sampleData : DataPointer := ⟨8704, 4096, fun entry => [16384, 20480, 4096].getD entry 0, fun address => UInt8.ofNat address⟩

theorem dma_transfers_same_sample :
    doPerformIoUsingDma (dualParams sampleConfig .pslc) 0 (fun _ => 7) (.read ⟨false, 0, 25, false⟩ sampleData) =
      doPerformIo (dualParams sampleConfig .pslc) 0 (fun _ => 7) (.read ⟨false, 0, 25, false⟩ sampleData) :=
  (dma_transfers_same (dualParams sampleConfig .pslc) 0 (fun _ => 7) ⟨false, 0, 25, false⟩ sampleData (by decide) (by decide)
    (by decide)).2 _ (.inr rfl)

example : commandRanges ⟨false, 0, 25, false⟩ sampleData = .ok [(8704, 3584), (16384, 8192), (4096, 1536)] := by rfl

end ConZone
