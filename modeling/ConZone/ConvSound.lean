import ConZone.ConvPages

set_option autoImplicit false

namespace ConZone.Conv

-- Where a line is: in a list or queue, behind one of the write pointers, or out of
-- all of them while it is collected.
inductive Place where
  | free
  | full
  | victim
  | user
  | gc
  | out
  | beyond
  deriving DecidableEq

def activeOf (ioType : IoType) : Place := if ioType = .gcIo then .gc else .user

section Parts

variable (c : ConvParams)

-- Both directions of the mapping. hole is the LPN that is about to get a page, and
-- stale says of pages that a collection is done with them.
structure MapSound (ftl : ConvFtl) (hole : Option Nat) (stale : Page → Prop) : Prop where
  mapped : ∀ lpn page, hole ≠ some lpn → ftl.maptbl lpn = some page →
    lpn < ttPgs c ∧ InDevice c page ∧ ¬stale page ∧ pageStatus ftl page = .valid ∧ ftl.rmap (ppa2pgidx c page) = some lpn
  valid : ∀ page, InDevice c page → ¬stale page → pageStatus ftl page = .valid →
    ∃ lpn, hole ≠ some lpn ∧ ftl.rmap (ppa2pgidx c page) = some lpn ∧ ftl.maptbl lpn = some page

structure Counted (pages : Finset Page) (status : Page → PageStatus) (vpc ipc : Int) : Prop where
  vpc : vpc = Tally.census pages status .valid
  ipc : ipc = Tally.census pages status .invalid

structure CountSound (ftl : ConvFtl) (place : Nat → Place) : Prop where
  block : ∀ block, Counted (blockPages c block) (pageStatus ftl) (ftl.nand block).vpc (ftl.nand block).ipc
  line : ∀ id, id < c.blksPerPl → place id ≠ .out →
    Counted (linePages c id) (pageStatus ftl) (ftl.lm.lines id).vpc (ftl.lm.lines id).ipc

structure Owned (lm : LineMgmt) (place : Nat → Place) (free full : List Nat) : Prop where
  freeRing : IntrusiveList.Ring lm.links .free (free.map .line)
  fullRing : IntrusiveList.Ring lm.links .full (full.map .line)
  inFree : ∀ id, id ∈ free ↔ place id = .free
  inFull : ∀ id, id ∈ full ↔ place id = .full
  heap : IndexedHeap.Holds (victimHeap lm) {id | place id = .victim}
  unplaced : ∀ id, place id ≠ .victim → (lm.lines id).pos = 0
  freeCnt : lm.freeLineCnt = free.length
  fullCnt : lm.fullLineCnt = full.length
  victimCnt : lm.victimLineSize = lm.victimLineCnt + 1
  bound : ∀ id, place id ≠ .beyond ↔ id < c.blksPerPl

structure Filled (status : Page → PageStatus) (place : Nat → Place) (cur used : Place → Nat) : Prop where
  free : ∀ id, place id = .free → ∀ page ∈ linePages c id, status page = .free
  full : ∀ id, place id = .full → ∀ page ∈ linePages c id, status page = .valid
  victim : ∀ id, place id = .victim →
    (∀ page ∈ linePages c id, status page ≠ .free) ∧ ∃ page ∈ linePages c id, status page = .invalid
  active : ∀ ioType, ∀ page ∈ linePages c (cur (activeOf ioType)), status page = .free ↔ used (activeOf ioType) ≤ idxOf c page

-- What can be said of the lines of a partition: where each is, the lists in order,
-- the lines behind the write pointers and how many pages of these are used.
structure Shape where
  place : Nat → Place
  free : List Nat
  full : List Nat
  cur : Place → Nat
  used : Place → Nat

structure Sound (ftl : ConvFtl) (shape : Shape) (hole : Option Nat) (stale : Page → Prop) : Prop where
  maps : MapSound c ftl hole stale
  counts : CountSound c ftl shape.place
  owned : Owned c ftl.lm shape.place shape.free shape.full
  active : ∀ ioType id, shape.place id = activeOf ioType ↔ id = shape.cur (activeOf ioType)
  standing : ∀ ioType, Standing c (getWp ftl ioType) (shape.cur (activeOf ioType))
  filled : Filled c (pageStatus ftl) shape.place shape.cur shape.used

def AtRest (ftl : ConvFtl) (shape : Shape) : Prop := ∀ ioType, shape.used (activeOf ioType) = wpIdx c (getWp ftl ioType)

end Parts

section Status

variable (c : ConvParams)

theorem put_status (ftl : ConvFtl) (page : Page) (status : PageStatus) (vpc ipc eraseCnt : Int) :
    pageStatus (putBlock ftl page.block ⟨Function.update (ftl.nand page.block).status page.pg status, ipc, vpc, eraseCnt⟩) =
      Function.update (pageStatus ftl) page status := by
  funext other
  unfold pageStatus putBlock
  dsimp only
  by_cases block : other.block = page.block
  · rw [block, Function.update_self]
    dsimp only
    by_cases pg : other.pg = page.pg
    · have same : other = page := by
        obtain ⟨otherBlock, otherPg⟩ := other
        obtain ⟨pageBlock, pagePg⟩ := page
        dsimp only at block pg
        rw [block, pg]
      rw [same, Function.update_self, Function.update_self]
    · have apart : other ≠ page := fun same => pg (congrArg Page.pg same)
      rw [Function.update_of_ne pg, Function.update_of_ne apart, block]
  · have apart : other ≠ page := fun same => block (congrArg Page.block same)
    rw [Function.update_of_ne block, Function.update_of_ne apart]

theorem counted_outside (pages : Finset Page) (status : Page → PageStatus) (vpc ipc : Int) (page : Page) (entry : PageStatus)
    (outside : page ∉ pages) (counted : Counted pages status vpc ipc) : Counted pages (Function.update status page entry) vpc ipc :=
  ⟨by rw [Tally.census_outside _ _ _ _ _ outside]; exact counted.vpc, by rw [Tally.census_outside _ _ _ _ _ outside]; exact counted.ipc⟩

theorem counted_valid (pages : Finset Page) (status : Page → PageStatus) (vpc ipc : Int) (page : Page) (inside : page ∈ pages)
    (free : status page = .free) (counted : Counted pages status vpc ipc) :
    Counted pages (Function.update status page .valid) (vpc + 1) ipc := by
  have valid := Tally.census_update pages status page .valid .valid inside
  have invalid := Tally.census_update pages status page .valid .invalid inside
  rw [free] at valid invalid
  simp only [reduceCtorEq, ↓reduceIte, Nat.add_zero] at valid invalid
  refine ⟨?_, ?_⟩
  · rw [valid, counted.vpc]
    rfl
  · rw [invalid]
    exact counted.ipc

theorem counted_invalid (pages : Finset Page) (status : Page → PageStatus) (vpc ipc : Int) (page : Page) (inside : page ∈ pages)
    (before : status page = .valid) (counted : Counted pages status vpc ipc) :
    Counted pages (Function.update status page .invalid) (vpc - 1) (ipc + 1) := by
  have valid := Tally.census_update pages status page .invalid .valid inside
  have invalid := Tally.census_update pages status page .invalid .invalid inside
  rw [before] at valid invalid
  simp only [reduceCtorEq, ↓reduceIte, Nat.add_zero] at valid invalid
  refine ⟨?_, ?_⟩
  · rw [counted.vpc]
    omega
  · rw [counted.ipc, invalid]
    rfl

theorem counted_room (pages : Finset Page) (status : Page → PageStatus) (vpc ipc : Int) (page : Page) (inside : page ∈ pages)
    (free : status page = .free) (counted : Counted pages status vpc ipc) : 0 ≤ vpc ∧ vpc < pages.card := by
  have some := Tally.census_positive pages status page inside
  have pair := Tally.census_pair_le pages status .valid .free (by decide)
  rw [free] at some
  rw [counted.vpc]
  omega

theorem counted_stock (pages : Finset Page) (status : Page → PageStatus) (vpc ipc : Int) (page : Page) (inside : page ∈ pages)
    (valid : status page = .valid) (counted : Counted pages status vpc ipc) :
    (0 ≤ ipc ∧ ipc < pages.card) ∧ (0 < vpc ∧ vpc ≤ pages.card) ∧ (vpc = pages.card → ipc = 0) := by
  have some := Tally.census_positive pages status page inside
  have pair := Tally.census_pair_le pages status .valid .invalid (by decide)
  rw [valid] at some
  rw [counted.vpc, counted.ipc]
  omega

end Status

end ConZone.Conv
