import ConZone.MediaSound

set_option autoImplicit false

namespace ConZone

open Tally

section Blocks

variable (ftl : ZmsFtl)

theorem put_status (page : Page) (status : PageStatus) (state : NandBlock)
    (painted : state.status = Function.update (ftl.nand page.block).status page.pg status) :
    pageStatus (putBlock ftl page.block state) = Function.update (pageStatus ftl) page status := by
  funext other
  unfold pageStatus putBlock
  dsimp only
  by_cases same : other = page
  · rw [same, Function.update_self, Function.update_self, painted, Function.update_self]
  · rw [Function.update_of_ne same]
    by_cases block : other.block = page.block
    · have pg : other.pg ≠ page.pg := by
        intro equal
        obtain ⟨otherBlock, otherPg⟩ := other
        obtain ⟨pageBlock, pagePg⟩ := page
        dsimp only at block equal
        exact same (by rw [block, equal])
      rw [block, Function.update_self, painted, Function.update_of_ne pg]
    · rw [Function.update_of_ne block]

end Blocks

section Census

variable (p : Params) (ftl next : ZmsFtl) (page : Page) (owned : OwnedPage p page) (status : PageStatus)
variable (painted : pageStatus next = Function.update (pageStatus ftl) page status)

include owned painted in
theorem line_census (ref : LineRef) (value : PageStatus) :
    (census (pagesIn p ref) (pageStatus next) value : Int) = census (pagesIn p ref) (pageStatus ftl) value +
      if getLine p page = ref then (if status = value then 1 else 0) - (if pageStatus ftl page = value then 1 else 0) else 0 := by
  rw [painted]
  by_cases inside : getLine p page = ref
  · have changed := census_update (pagesIn p ref) (pageStatus ftl) page status value ((mem_pages_in p ref page).mpr ⟨owned, inside⟩)
    rw [if_pos inside]
    split_ifs at changed ⊢ <;> omega
  · rw [if_neg inside, census_outside]
    · simp
    · exact fun member => inside ((mem_pages_in p ref page).mp member).2

include owned painted in
theorem block_census (block : Block) (value : PageStatus) :
    (census (pagesOf p block) (pageStatus next) value : Int) = census (pagesOf p block) (pageStatus ftl) value +
      if page.block = block then (if status = value then 1 else 0) - (if pageStatus ftl page = value then 1 else 0) else 0 := by
  rw [painted]
  by_cases inside : page.block = block
  · have changed := census_update (pagesOf p block) (pageStatus ftl) page status value ((mem_pages_of p block page).mpr ⟨owned, inside⟩)
    rw [if_pos inside]
    split_ifs at changed ⊢ <;> omega
  · rw [if_neg inside, census_outside]
    · simp
    · exact fun member => inside ((mem_pages_of p block page).mp member).2

end Census

section Programming

variable (p : Params) (loc : Loc) (regular : Regular p loc) (ftl : ZmsFtl) (prog : LineRef → Nat)

-- A page of the medium is given to an LPN.
def assignPage (p : Params) (ftl : ZmsFtl) (lpn : Nat) (page : Page) (map : MapType) : ZmsFtl :=
  setRmapEnt p (markPageValid p (setMaptblEnt p ftl lpn (.mapped page map)) page) (some lpn) page

include regular in
theorem blank_markable (counts : CountsSound p ftl) (page : Page) (owned : OwnedPage p page) (free : pageStatus ftl page = .free) :
    Markable p ftl page := by
  have listed := owned_listed p loc regular page owned
  refine ⟨owned, free, ?_, ?_⟩
  · rw [counts.blkVpc page.block owned.block]
    refine ⟨Int.natCast_nonneg _, ?_⟩
    have room : census (pagesOf p page.block) (pageStatus ftl) .valid + census (pagesOf p page.block) (pageStatus ftl) .free ≤
        (pagesOf p page.block).card := census_pair_le _ _ _ _ (by decide)
    have positive := census_positive (pagesOf p page.block) (pageStatus ftl) page ((mem_pages_of p _ page).mpr ⟨owned, rfl⟩)
    rw [free] at positive
    rw [pages_of_card p page.block owned.block] at room
    change _ < (usedPgs p.spp page.block.blk : Int)
    omega
  · rw [counts.vpc _ listed]
    refine ⟨Int.natCast_nonneg _, ?_⟩
    have room : census (pagesIn p (getLine p page)) (pageStatus ftl) .valid + census (pagesIn p (getLine p page)) (pageStatus ftl) .free ≤
        (pagesIn p (getLine p page)).card := census_pair_le _ _ _ _ (by decide)
    have positive := census_positive (pagesIn p (getLine p page)) (pageStatus ftl) page ((mem_pages_in p _ page).mpr ⟨owned, rfl⟩)
    rw [free] at positive
    rw [pages_in_card p regular.rows regular.medium regular.sizes regular.flat _ listed] at room
    omega

theorem mark_page_valid_eq (page : Page) (markable : Markable p ftl page) :
    markPageValid p ftl page = putLine (putBlock ftl page.block
      { ftl.nand page.block with status := Function.update (ftl.nand page.block).status page.pg .valid, vpc := (ftl.nand page.block).vpc + 1 })
      (getLine p page) { ftl.lm.lines (getLine p page) with vpc := (ftl.lm.lines (getLine p page)).vpc + 1 } := by
  have pg := markable.owned.pg
  have free : (ftl.nand page.block).status page.pg = .free := markable.free
  unfold markPageValid
  dsimp only
  rw [if_neg (by rw [free]; simp [pg]), if_neg (fun outside => outside markable.block), if_neg (fun outside => outside markable.line)]

theorem assign_page_eq (lpn : Nat) (page : Page) (map : MapType) (inside : lpn < p.zpp.ttLpns) (markable : Markable p ftl page) :
    assignPage p ftl lpn page map = setRmapEnt p (putLine (putBlock { ftl with maptbl := Function.update ftl.maptbl lpn (.mapped page map) }
      page.block
      { ftl.nand page.block with status := Function.update (ftl.nand page.block).status page.pg .valid, vpc := (ftl.nand page.block).vpc + 1 })
      (getLine p page) { ftl.lm.lines (getLine p page) with vpc := (ftl.lm.lines (getLine p page)).vpc + 1 }) (some lpn) page := by
  unfold assignPage setMaptblEnt
  rw [if_pos inside, mark_page_valid_eq p _ page]
  exact ⟨markable.owned, markable.free, markable.block, markable.line⟩

theorem rmap_untouched (next : ZmsFtl) (lpn : Option Nat) (page other : Page) :
    pageStatus (setRmapEnt p next lpn page) other = pageStatus next other := by
  unfold setRmapEnt
  split <;> rfl

variable (lpn : Nat) (page : Page) (map : MapType) (inside : lpn < p.zpp.ttLpns) (markable : Markable p ftl page)

include inside markable in
theorem assign_status : pageStatus (assignPage p ftl lpn page map) = Function.update (pageStatus ftl) page .valid := by
  rw [assign_page_eq p ftl lpn page map inside markable]
  funext other
  rw [rmap_untouched]
  exact congrFun (put_status { ftl with maptbl := Function.update ftl.maptbl lpn (.mapped page map) } page .valid _ rfl) other

include inside markable in
theorem assign_lm : (assignPage p ftl lpn page map).lm = countValid ftl.lm (getLine p page) ∧
    (assignPage p ftl lpn page map).wps = ftl.wps := by
  rw [assign_page_eq p ftl lpn page map inside markable, (set_rmap_media p _ _ _).1, (set_rmap_media p _ _ _).2]
  exact ⟨rfl, rfl⟩

include inside markable in
theorem assign_nand : (assignPage p ftl lpn page map).nand = Function.update ftl.nand page.block
    { ftl.nand page.block with status := Function.update (ftl.nand page.block).status page.pg .valid, vpc := (ftl.nand page.block).vpc + 1 } := by
  rw [assign_page_eq p ftl lpn page map inside markable]
  unfold setRmapEnt
  split <;> rfl

include inside markable in
theorem assign_on_page (other : Nat) (there : Page) :
    OnPage p (assignPage p ftl lpn page map) other there ↔ if other = lpn then there = page else OnPage p ftl other there := by
  have table : (assignPage p ftl lpn page map).maptbl = Function.update ftl.maptbl lpn (.mapped page map) := by
    rw [assign_page_eq p ftl lpn page map inside markable]
    unfold setRmapEnt
    split <;> rfl
  unfold OnPage
  rw [table, bare_update]
  by_cases same : other = lpn
  · rw [if_pos same, if_pos same, same]
    constructor
    · rintro ⟨_, entry⟩
      exact (Ppa.mapped.inj entry).1.symm
    · intro equal
      exact ⟨inside, by rw [equal]; rfl⟩
  · rw [if_neg same, if_neg same]

include regular inside markable in
theorem assign_rmap (other : Page) (owned : OwnedPage p other) :
    getRmapEnt p (assignPage p ftl lpn page map) other = if other = page then some lpn else getRmapEnt p ftl other := by
  rw [assign_page_eq p ftl lpn page map inside markable]
  by_cases same : other = page
  · rw [if_pos same, same]
    exact regular.numbering.kept _ _ page markable.owned
  · rw [if_neg same, regular.numbering.apart _ _ page other markable.owned owned same]
    rfl

variable (sound : PagesSound p ftl prog) (nextPlace : placeIn p page = prog (getLine p page)) (unmapped : ∀ there, ¬OnPage p ftl lpn there)

include regular inside markable sound nextPlace unmapped in
theorem assign_pages : PagesSound p (assignPage p ftl lpn page map) (Function.update prog (getLine p page) (prog (getLine p page) + 1)) := by
  have status := assign_status p ftl lpn page map inside markable
  have onPage := assign_on_page p ftl lpn page map inside markable
  refine ⟨?_, ?_, ?_, ?_⟩
  · intro other owned ahead
    rw [status]
    by_cases line : getLine p other = getLine p page
    · rw [line, Function.update_self] at ahead
      have apart : other ≠ page := by
        rintro rfl
        omega
      rw [Function.update_of_ne apart]
      exact sound.blank other owned (by rw [line]; omega)
    · rw [Function.update_of_ne line] at ahead
      rw [Function.update_of_ne (fun same => line (congrArg (getLine p) same))]
      exact sound.blank other owned ahead
  · intro other owned behind
    rw [status]
    by_cases same : other = page
    · rw [same, Function.update_self]
      decide
    · rw [Function.update_of_ne same]
      refine sound.used other owned ?_
      by_cases line : getLine p other = getLine p page
      · rw [line, Function.update_self] at behind
        have apart : placeIn p other ≠ placeIn p page := fun equal =>
          same (place_unique p regular.rows other page owned markable.owned line equal)
        rw [line]
        omega
      · rwa [Function.update_of_ne line] at behind
  · intro other owned
    rw [status]
    by_cases same : other = page
    · rw [same, Function.update_self]
      exact iff_of_true rfl ⟨lpn, (onPage lpn page).mpr (by rw [if_pos rfl])⟩
    · rw [Function.update_of_ne same, sound.valid other owned]
      refine exists_congr fun holder => ?_
      rw [onPage]
      by_cases here : holder = lpn
      · rw [if_pos here, here]
        exact iff_of_false (unmapped other) same
      · rw [if_neg here]
  · intro other there held
    rw [onPage] at held
    by_cases here : other = lpn
    · rw [if_pos here] at held
      refine ⟨held ▸ markable.owned, ?_⟩
      rw [assign_rmap p loc regular ftl lpn page map inside markable there (held ▸ markable.owned), if_pos held, here]
    · rw [if_neg here] at held
      obtain ⟨owned, named⟩ := sound.named other there held
      have apart : there ≠ page := by
        rintro rfl
        have valid := (sound.valid there owned).mpr ⟨other, held⟩
        rw [markable.free] at valid
        cases valid
      refine ⟨owned, ?_⟩
      rw [assign_rmap p loc regular ftl lpn page map inside markable there owned, if_neg apart]
      exact named

include inside markable in
theorem assign_counts (counts : CountsSound p ftl) : CountsSound p (assignPage p ftl lpn page map) := by
  have status := assign_status p ftl lpn page map inside markable
  have lm := (assign_lm p ftl lpn page map inside markable).1
  have nand := assign_nand p ftl lpn page map inside markable
  have lines := line_census p ftl _ page markable.owned .valid status
  have blocks := block_census p ftl _ page markable.owned .valid status
  have free := markable.free
  refine ⟨?_, ?_, ?_, ?_⟩
  · intro ref listed
    rw [lines, ← counts.vpc ref listed, lm, free]
    by_cases here : getLine p page = ref
    · simp [countValid, here]
    · simp [countValid, here, Function.update_of_ne (Ne.symm here)]
  · intro ref listed
    rw [lines, ← counts.ipc ref listed, lm, free]
    by_cases here : getLine p page = ref
    · simp [countValid, here]
    · simp [countValid, here, Function.update_of_ne (Ne.symm here)]
  · intro block owned
    rw [blocks, ← counts.blkVpc block owned, nand, free]
    by_cases here : page.block = block
    · simp [here]
    · simp [here, Function.update_of_ne (Ne.symm here)]
  · intro block owned
    rw [blocks, ← counts.blkIpc block owned, nand, free]
    by_cases here : page.block = block
    · simp [here]
    · simp [here, Function.update_of_ne (Ne.symm here)]

end Programming

end ConZone
