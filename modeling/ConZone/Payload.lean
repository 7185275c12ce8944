import ConZone.IoRuns
import ConZone.Overlay

set_option autoImplicit false

namespace ConZone

def byteAddress : List (Nat × Nat) → Nat → Nat
  | [], _ => 0
  | (paddr, size) :: rest, index => if index < size then paddr + index else byteAddress rest (index - size)

def pieceBytes (pieces : List (Nat × Nat)) : Nat := (pieces.map Prod.snd).sum

section Pieces

theorem io_size_bound (paddr remaining : Nat) : ioSizeAt paddr remaining ≤ remaining := by
  simp only [ioSizeAt]
  split <;> omega

theorem prp_pieces_bytes (data : DataPointer) (fuel prpOffs remaining : Nat) (list : Option Nat) (pieces : List (Nat × Nat))
    (ran : prpPieces data fuel prpOffs list remaining = .ok pieces) : pieceBytes pieces = remaining := by
  induction fuel generalizing prpOffs remaining list pieces with
  | zero =>
      by_cases exceeds : remaining = 0
      · simp only [prpPieces, if_pos exceeds] at ran
        cases ran
        exact exceeds.symm
      · simp only [prpPieces, if_neg exceeds] at ran
        cases ran
  | succ fuel ih =>
      by_cases exceeds : remaining = 0
      · simp only [prpPieces, if_pos exceeds] at ran
        cases ran
        exact exceeds.symm
      · simp only [prpPieces, if_neg exceeds] at ran
        split at ran
        · cases ran
        · rename_i paddr list' start
          obtain ⟨rest, tail, same⟩ := bind_ok _ _ _ ran
          have total := ih _ _ _ rest tail
          have bound := io_size_bound paddr remaining
          rw [← pure_ok _ _ same]
          simp only [pieceBytes, List.map_cons, List.sum_cons] at total ⊢
          omega

theorem command_pieces_bytes (rw : RwCommand) (data : DataPointer) (pieces : List (Nat × Nat))
    (ran : commandPieces rw data = .ok pieces) : pieceBytes pieces = cmdIoSize rw :=
  prp_pieces_bytes data _ _ _ _ pieces ran

theorem copy_in_bytes (memory : Nat → UInt8) (pieces : List (Nat × Nat)) (dest : Nat) (storage : Storage) (address : Nat) :
    copyIn memory pieces dest storage address =
      if dest ≤ address ∧ address < dest + pieceBytes pieces then memory (byteAddress pieces (address - dest)) else storage address := by
  induction pieces generalizing dest storage with
  | nil =>
      rw [if_neg (by simp [pieceBytes])]
      rfl
  | cons piece rest ih =>
      obtain ⟨paddr, size⟩ := piece
      have total : pieceBytes ((paddr, size) :: rest) = size + pieceBytes rest := by simp [pieceBytes]
      rw [copyIn, ih, total]
      by_cases later : dest + size ≤ address ∧ address < dest + size + pieceBytes rest
      · rw [if_pos later, if_pos (by omega), byteAddress, if_neg (by omega)]
        have shift : address - (dest + size) = address - dest - size := by omega
        rw [shift]
      · rw [if_neg later, memcpy]
        by_cases here : dest ≤ address ∧ address < dest + size
        · rw [if_pos here, if_pos (by omega), byteAddress, if_pos (by omega)]
        · rw [if_neg here, if_neg (by omega)]

theorem copy_out_bytes (storage : Storage) (pieces : List (Nat × Nat)) (source : Nat) :
    copyOut storage pieces source =
      (List.range (pieceBytes pieces)).map fun index => (byteAddress pieces index, storage (source + index)) := by
  induction pieces generalizing source with
  | nil => rfl
  | cons piece rest ih =>
      obtain ⟨paddr, size⟩ := piece
      have total : pieceBytes ((paddr, size) :: rest) = size + pieceBytes rest := by simp [pieceBytes]
      rw [copyOut, ih, total, List.range_add, List.map_append, List.map_map]
      congr 1
      · apply List.map_congr_left
        intro index member
        rw [byteAddress, if_pos (List.mem_range.mp member)]
      · apply List.map_congr_left
        intro index _
        simp only [Function.comp_apply, byteAddress]
        rw [if_neg (by omega), Nat.add_sub_cancel_left, Nat.add_assoc]

end Pieces

section Copying

variable (p : Params) (mapped : Nat) (storage : Storage)

theorem failed_copies_nothing (status : NvmeStatus) (cmd : HostCommand) (failed : status ≠ .success) :
    copied p mapped storage status cmd = .ok (storage, status, []) := by
  simp [copied, failed]

theorem past_range_copies_nothing (rw : RwCommand) (data : DataPointer) (cmd : HostCommand) (past : cmdNsRange p rw = false)
    (kind : cmd = .write rw data ∨ cmd = .read rw data) : copied p mapped storage .success cmd = .ok (storage, .lbaRange, []) := by
  rcases kind with same | same
  · subst same
    simp [copied, doPerformIo, past, pure, Except.pure, bind, Except.bind]
  · subst same
    simp [copied, doPerformIo, past, pure, Except.pure, bind, Except.bind]

theorem in_range_copies (rw : RwCommand) (data : DataPointer) (cmd : HostCommand) (fits : cmdNsRange p rw = true)
    (kind : cmd = .write rw data ∨ cmd = .read rw data) (later : Storage) (status : NvmeStatus) (delivered : List (Nat × UInt8))
    (ran : copied p mapped storage .success cmd = .ok (later, status, delivered)) : status = .success := by
  rcases kind with same | same
  · subst same
    simp only [copied, doPerformIo, fits, if_true] at ran
    cases pieces : commandPieces rw data with
    | error fault =>
        rw [pieces] at ran
        cases ran
    | ok pieces' =>
        rw [pieces] at ran
        cases ran
        rfl
  · subst same
    simp only [copied, doPerformIo, fits, if_true] at ran
    cases pieces : commandPieces rw data with
    | error fault =>
        rw [pieces] at ran
        cases ran
    | ok pieces' =>
        rw [pieces] at ran
        cases ran
        rfl

end Copying

end ConZone
