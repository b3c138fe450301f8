import Mathlib.Algebra.BigOperators.Group.Multiset.Basic
import Mathlib.Tactic.Common
import MediaModules.Encoder.Vmm
import MediaModules.Lib.Tiles

/-!
# What the allocator's state stands for

The region is tiled by the blocks. The trees hold the free and the allocated ones, the page list
describes both. A block that a call is working on is in neither tree, and its pages may hold anything;
such blocks can be cut and joined without a change of the state.
-/
namespace MediaModules.Encoder

open MediaModules.Lib.AvlTree
open MediaModules.Lib.Tiles

/-! ## Pages -/

theorem pageIndex_nat {pages : List Page} {i : Nat} (hi : i < pages.length) :
    pageIndex pages i = some i := by
  rw [pageIndex, if_pos (by omega)]
  rfl

theorem writePage_nat {pages : List Page} {i : Nat} (hi : i < pages.length) (f : Page → Page) :
    writePage pages i f = some (pages.modify i f) := by
  rw [writePage, pageIndex_nat hi]
  rfl

theorem readPage_nat {pages : List Page} {i : Nat} {page : Page} (h : pages[i]? = some page) :
    readPage pages i = some page := by
  rw [readPage, pageIndex_nat (List.getElem?_eq_some_iff.mp h).1]
  exact h

theorem clearPages_eq (used : Bool) (n : Nat) {s : Nat} (pages : List Page)
    (h : s + n ≤ pages.length) : ∃ pages', clearPages used n s pages = some pages' ∧
      pages'.length = pages.length ∧
      ∀ j, pages'[j]? = if s ≤ j ∧ j < s + n then some ⟨used, 0, -1⟩ else pages[j]? := by
  induction n generalizing s pages with
  | zero => exact ⟨pages, rfl, rfl, fun j => (if_neg (by omega)).symm⟩
  | succ n ih =>
    obtain ⟨pages', hclear, hlen, hget⟩ := ih (s := s + 1)
      (pages.modify s fun _ => ⟨used, 0, -1⟩) (by rw [List.length_modify]; omega)
    refine ⟨pages', ?_, by rw [hlen, List.length_modify], fun j => ?_⟩
    · rw [clearPages, writePage_nat (by omega)]
      exact hclear
    · rw [hget]
      by_cases hj : s = j
      · subst hj
        rw [if_neg (by omega), if_pos (by omega), List.getElem?_modify_eq,
          List.getElem?_eq_getElem (by omega)]
        rfl
      · have hiff : (s + 1 ≤ j ∧ j < s + 1 + n) ↔ (s ≤ j ∧ j < s + (n + 1)) := by omega
        rw [List.getElem?_modify_ne _ _ hj]
        simp only [hiff]

/-- The page number `i` of a block of `n` pages from `s` on. -/
def blockPage (used : Bool) (s n i : Nat) : Page :=
  ⟨used, if i = 0 then n else 0, if i + 1 = n then s else -1⟩

/-- The two functions write just the pages of the block, whatever was there. -/
theorem setPages_eq (used : Bool) {s n : Nat} (hn : 0 < n) (pages : List Page)
    (h : s + n ≤ pages.length) : ∃ pages', setPages used s n pages = some pages' ∧
      pages'.length = pages.length ∧ (∀ j, ¬ (s ≤ j ∧ j < s + n) → pages'[j]? = pages[j]?) ∧
      ∀ i < n, pages'[s + i]? = some (blockPage used s n i) := by
  obtain ⟨cleared, hclear, hlen, hget⟩ := clearPages_eq used n pages h
  have hlast : (s : Int) + n - 1 = (s + n - 1 : Nat) := by omega
  refine ⟨(cleared.modify s fun page => { page with allocPages := n }).modify (s + n - 1)
    fun page => { page with firstPageno := s }, ?_, ?_, fun j hj => ?_, fun i hi => ?_⟩
  · simp only [setPages, Int.toNat_natCast, hclear, Option.bind_eq_bind, Option.bind_some, hlast]
    rw [writePage_nat (by omega), Option.bind_some, writePage_nat (by rw [List.length_modify]; omega)]
  · rw [List.length_modify, List.length_modify, hlen]
  · rw [List.getElem?_modify_ne _ _ (by omega), List.getElem?_modify_ne _ _ (by omega), hget,
      if_neg hj]
  · have h0 : (s = s + i) = (i = 0) := propext (by omega)
    have h1 : (s + n - 1 = s + i) = (i + 1 = n) := propext (by omega)
    rw [List.getElem?_modify, List.getElem?_modify, hget, if_pos (by omega), blockPage]
    simp only [Option.map_eq_map, Option.map_some, h0, h1]
    refine congrArg some ?_
    split <;> split <;> rfl

/-! ## Keys -/

theorem makeKey_nat {a b : Nat} (ha : a < 2 ^ 32) (hb : b < 2 ^ 32) :
    makeKey a b = a * 2 ^ 32 + b := by
  have hhigh : ((a : Int) * 2 ^ 32 % 2 ^ 64).toNat = a <<< 32 := by
    rw [Nat.shiftLeft_eq]
    omega
  rw [makeKey, hhigh, ← Nat.shiftLeft_add_eq_or_of_lt hb, Nat.shiftLeft_eq]

theorem makeKey_addr (p : Nat) : makeKey p 0 = p % 2 ^ 32 * 2 ^ 32 := by
  rw [makeKey, Nat.or_zero]
  omega

theorem keyToValue_makeKey {a b : Nat} (ha : a < 2 ^ 31) (hb : b < 2 ^ 32) :
    keyToValue (a * 2 ^ 32 + b) = a := by
  have hshift : (a * 2 ^ 32 + b) >>> 32 = a := by
    rw [Nat.shiftRight_eq_div_pow]
    omega
  unfold keyToValue
  rw [hshift, Int.bmod_def]
  split <;> omega

/-! ## Blocks -/

/-- What there is of a block: it is free, allocated, or worked on. -/
inductive Mark
  | free
  | used
  | limbo
  deriving Repr, DecidableEq

abbrev Block := Tile Mark

/-- The entry of the free tree for a block. -/
def freeItem (t : Block) : Nat × Nat := (t.len * 2 ^ 32 + t.start, t.start)

/-- The entry of the tree of allocated blocks. -/
def usedItem (base : Nat) (t : Block) : Nat × Nat :=
  ((base + t.start * vmemPageSize) % 2 ^ 32 * 2 ^ 32, t.start)

section

variable {α : Type*} {m : Mark} {f : Block → α} {t : Block} (xs ys : List Block)

/-- What there is in the bag for the blocks with a mark. -/
def tileBag (m : Mark) (f : Block → α) (ts : List Block) : Multiset α :=
  (ts.filter fun t => t.mark = m).map f

theorem tileBag_append : tileBag m f (xs ++ ys) = tileBag m f xs + tileBag m f ys := by
  rw [tileBag, List.filter_append, List.map_append, ← Multiset.coe_add]
  rfl

theorem tileBag_middle (h : t.mark = m) :
    tileBag m f (xs ++ t :: ys) = f t ::ₘ tileBag m f (xs ++ ys) := by
  have hcons : tileBag m f (t :: ys) = f t ::ₘ tileBag m f ys := by
    rw [tileBag, List.filter_cons_of_pos (by simp [h])]
    rfl
  rw [tileBag_append, hcons, Multiset.add_cons, ← tileBag_append]

theorem tileBag_other (h : t.mark ≠ m) : tileBag m f (xs ++ t :: ys) = tileBag m f (xs ++ ys) := by
  have hcons : tileBag m f (t :: ys) = tileBag m f ys := by
    rw [tileBag, List.filter_cons_of_neg (by simp [h])]
    rfl
  rw [tileBag_append, hcons, ← tileBag_append]

theorem tileBag_remark {t' : Block} (h : t.mark ≠ m) (h' : t'.mark ≠ m) :
    tileBag m f (xs ++ t :: ys) = tileBag m f (xs ++ t' :: ys) := by
  rw [tileBag_other _ _ h, tileBag_other _ _ h']

theorem mem_tileBag {ts : List Block} {x : α} :
    x ∈ tileBag m f ts ↔ ∃ t ∈ ts, t.mark = m ∧ f t = x := by
  simp only [tileBag, Multiset.mem_coe, List.mem_map, List.mem_filter, decide_eq_true_eq, and_assoc]

end

/-- What the blocks of a region of `n` pages determine of the state. -/
structure Layout (n : Nat) (mm : VideoMm) (ts : List Block) : Prop where
  numPages_eq : mm.numPages = n
  small : n < 2 ^ 17
  room : mm.baseAddr + n * vmemPageSize < 2 ^ 64
  covers : Covers 0 ts n
  length_eq : mm.pageList.length = n
  pages : ∀ t ∈ ts, t.mark ≠ .limbo → ∀ i < t.len,
    mm.pageList[t.start + i]? = some (blockPage (t.mark = .used) t.start t.len i)
  freeTree : SearchTree mm.freeTree
  freeBag : bag mm.freeTree = tileBag .free freeItem ts
  allocTree : SearchTree mm.allocTree
  allocBag : bag mm.allocTree = tileBag .used (usedItem mm.baseAddr) ts

section

variable {n : Nat} {mm : VideoMm} {ts xs ys zs : List Block} {s t : Block}

theorem Layout.bounds (h : Layout n mm ts) (ht : t ∈ ts) :
    0 < t.len ∧ t.start + t.len ≤ n ∧ t.start < 2 ^ 17 ∧ t.len < 2 ^ 17 := by
  obtain ⟨-, hlen, hstop⟩ := h.covers.mem ht
  have hsmall := h.small
  rw [Tile.stop] at hstop
  omega

/-- The address of a block. -/
theorem Layout.pageAddr (h : Layout n mm ts) (ht : t ∈ ts) :
    pageAddr mm.baseAddr t.start = mm.baseAddr + t.start * vmemPageSize := by
  obtain ⟨-, hle, hstart, -⟩ := h.bounds ht
  have hroom := h.room
  have hoff : Int.bmod ((t.start : Int) * (vmemPageSize : Nat)) (2 ^ 32) = t.start * 16384 := by
    rw [vmemPageSize, Int.bmod_def]
    split <;> omega
  rw [Encoder.pageAddr, hoff]
  rw [vmemPageSize] at hroom ⊢
  omega

theorem Layout.readPage (h : Layout n mm ts) (ht : t ∈ ts) (hm : t.mark ≠ .limbo) {i : Nat}
    (hi : i < t.len) : readPage mm.pageList ((t.start + i : Nat) : Int) =
      some (blockPage (t.mark = .used) t.start t.len i) :=
  readPage_nat (h.pages t ht hm i hi)

/-! ## Blocks taken out of a tree -/

theorem mem_of_mem_other {t' : Block} (hs : s ∈ xs ++ t' :: ys) (ht' : t'.mark = .limbo)
    (hm : s.mark ≠ .limbo) : s ∈ xs ++ t :: ys := by
  simp only [List.mem_append, List.mem_cons] at hs ⊢
  rcases hs with hs | rfl | hs
  · exact Or.inl hs
  · exact absurd ht' hm
  · exact Or.inr (Or.inr hs)

/-- The block as it is worked on. -/
def inLimbo (t : Block) : Block := ⟨t.start, t.len, .limbo⟩

theorem covers_remark (h : Covers 0 (xs ++ t :: ys) n) (m : Mark) :
    Covers 0 (xs ++ ⟨t.start, t.len, m⟩ :: ys) n := by
  obtain ⟨hxs, hlen, hys⟩ := covers_middle.mp h
  exact covers_middle.mpr ⟨hxs, hlen, hys⟩

theorem Layout.outFree (h : Layout n mm (xs ++ t :: ys)) (ht : t.mark = .free) {rest : Tree Nat Nat}
    (htree : SearchTree rest) (hbag : bag mm.freeTree = freeItem t ::ₘ bag rest) :
    Layout n { mm with freeTree := rest } (xs ++ inLimbo t :: ys) :=
  { h with
    covers := covers_remark h.covers _
    pages := fun s hs hm => h.pages s (mem_of_mem_other hs rfl hm) hm
    freeTree := htree
    freeBag := by
      rw [tileBag_other _ _ (by simp [inLimbo])]
      rwa [h.freeBag, tileBag_middle _ _ ht, Multiset.cons_inj_right, eq_comm] at hbag
    allocBag := h.allocBag.trans (tileBag_remark _ _ (by simp [ht]) (by simp [inLimbo])) }

/-- A free block is found by its size and place. -/
theorem Layout.takeFree (h : Layout n mm (xs ++ t :: ys)) (ht : t.mark = .free) : ∃ rest,
    takeFree mm (t.start, t.len) = ({ mm with freeTree := rest }, some t.start) ∧
      Layout n { mm with freeTree := rest } (xs ++ inLimbo t :: ys) := by
  have hin : freeItem t ∈ bag mm.freeTree := by
    rw [h.freeBag]
    exact mem_tileBag.mpr ⟨t, by simp, ht, rfl⟩
  obtain ⟨-, -, h1, h2⟩ := h.bounds (t := t) (by simp)
  obtain ⟨rest, hres, htree, hbag⟩ := h.freeTree.remove_some hin (by
    intro y hy hkey
    rw [h.freeBag] at hy
    obtain ⟨s, hs, -, rfl⟩ := mem_tileBag.mp hy
    obtain ⟨-, -, h3, -⟩ := h.bounds hs
    simp only [freeItem] at hkey ⊢
    have hstart : s.start = t.start := by omega
    have hlen : s.len = t.len := by omega
    rw [hstart, hlen])
  refine ⟨rest, ?_, h.outFree ht htree hbag⟩
  simp only [Encoder.takeFree, Int.toNat_natCast]
  rw [makeKey_nat (by omega) (by omega), show t.len * 2 ^ 32 + t.start = (freeItem t).1 from rfl, hres]
  rfl

/-- An allocated block is found by its address. -/
theorem Layout.takeUsed (h : Layout n mm (xs ++ t :: ys)) (ht : t.mark = .used) {ptr : Nat}
    (hptr : ptr % 2 ^ 32 = (mm.baseAddr + t.start * vmemPageSize) % 2 ^ 32) : ∃ key rest,
    avltreeRemove mm.allocTree (makeKey ptr 0) = (rest, some (key, t.start)) ∧
      Layout n { mm with allocTree := rest } (xs ++ inLimbo t :: ys) := by
  have hin : usedItem mm.baseAddr t ∈ bag mm.allocTree := by
    rw [h.allocBag]
    exact mem_tileBag.mpr ⟨t, by simp, ht, rfl⟩
  obtain ⟨-, -, h1, -⟩ := h.bounds (t := t) (by simp)
  obtain ⟨rest, hres, htree, hbag⟩ := h.allocTree.remove_some hin (by
    intro y hy hkey
    rw [h.allocBag] at hy
    obtain ⟨s, hs, -, rfl⟩ := mem_tileBag.mp hy
    obtain ⟨-, -, h2, -⟩ := h.bounds hs
    simp only [usedItem, vmemPageSize] at hkey ⊢
    have hstart : s.start = t.start := by omega
    rw [hstart])
  refine ⟨(usedItem mm.baseAddr t).1, rest, ?_, ?_⟩
  · rw [makeKey_addr, hptr]
    exact hres
  · exact
      { h with
        covers := covers_remark h.covers _
        pages := fun s hs hm => h.pages s (mem_of_mem_other hs rfl hm) hm
        freeBag := h.freeBag.trans (tileBag_remark _ _ (by simp [ht]) (by simp [inLimbo]))
        allocTree := htree
        allocBag := by
          rw [tileBag_other _ _ (by simp [inLimbo])]
          rwa [h.allocBag, tileBag_middle _ _ ht, Multiset.cons_inj_right, eq_comm] at hbag }

/-! ## Blocks worked on -/

theorem tileBag_limbo {α : Type*} {m : Mark} {f : Block → α} (hm : m ≠ .limbo)
    (hzs : ∀ z ∈ zs, z.mark = .limbo) : tileBag m f (xs ++ (zs ++ ys)) = tileBag m f (xs ++ ys) := by
  have hnone : tileBag m f zs = 0 := by
    rw [tileBag, List.filter_eq_nil_iff.mpr fun z hz => by simp [hzs z hz, hm.symm]]
    rfl
  rw [tileBag_append, tileBag_append, tileBag_append, hnone, zero_add]

/-- They may be cut and joined. -/
theorem Layout.recut (zs zs' : List Block) (h : Layout n mm (xs ++ (zs ++ ys))) {c d : Nat}
    (hc : Covers c zs d) (hne : zs ≠ []) (hc' : Covers c zs' d) (hzs : ∀ z ∈ zs, z.mark = .limbo)
    (hzs' : ∀ z ∈ zs', z.mark = .limbo) : Layout n mm (xs ++ (zs' ++ ys)) :=
  { h with
    covers := h.covers.exchange hc hne hc'
    pages := fun s hs hm => h.pages s (by
      simp only [List.mem_append] at hs ⊢
      rcases hs with hs | hs | hs
      · exact Or.inl hs
      · exact absurd (hzs' s hs) hm
      · exact Or.inr (Or.inr hs)) hm
    freeBag := by
      rw [h.freeBag, tileBag_limbo (by decide) hzs, tileBag_limbo (by decide) hzs']
    allocBag := by
      rw [h.allocBag, tileBag_limbo (by decide) hzs, tileBag_limbo (by decide) hzs'] }

/-- Pages outside a block are those of others. -/
theorem Layout.outside (h : Layout n mm (xs ++ t :: ys)) (hs : s ∈ xs ++ t :: ys) (hne : s ≠ t)
    {i : Nat} (hi : i < s.len) : ¬ (t.start ≤ s.start + i ∧ s.start + i < t.start + t.len) :=
  fun hin => hne (h.covers.eq_of_share hs (by simp) ⟨Nat.le_add_right _ _, Nat.add_lt_add_left hi _⟩
    hin)

theorem Layout.writePage (h : Layout n mm (xs ++ t :: ys)) (ht : t.mark = .limbo) {i : Nat}
    (hi : t.start ≤ i ∧ i < t.start + t.len) (f : Page → Page) : ∃ pages,
    writePage mm.pageList i f = some pages ∧
      Layout n { mm with pageList := pages } (xs ++ t :: ys) := by
  obtain ⟨-, hle, -⟩ := h.bounds (t := t) (by simp)
  have hlen := h.length_eq
  refine ⟨_, writePage_nat (by omega) f, ?_⟩
  exact
    { h with
      length_eq := by simp only [List.length_modify, hlen]
      pages := fun s hs hm j hj => by
        have hout := h.outside hs (by rintro rfl; exact hm ht) hj
        exact (List.getElem?_modify_ne _ _ (by rintro rfl; exact hout hi)).trans
          (h.pages s hs hm j hj) }

theorem Layout.setPages (h : Layout n mm (xs ++ t :: ys)) (ht : t.mark = .limbo) (m : Mark) :
    ∃ pages, setPages (m = .used) t.start t.len mm.pageList = some pages ∧ pages.length = n ∧
      ∀ s ∈ xs ++ ⟨t.start, t.len, m⟩ :: ys, s.mark ≠ .limbo → ∀ i < s.len,
        pages[s.start + i]? = some (blockPage (s.mark = .used) s.start s.len i) := by
  obtain ⟨h0, hle, -⟩ := h.bounds (t := t) (by simp)
  obtain ⟨pages, hset, hlen, hother, hown⟩ := setPages_eq (m = .used) h0
    mm.pageList (by rw [h.length_eq]; exact hle)
  refine ⟨pages, hset, hlen.trans h.length_eq, fun s hs hm i hi => ?_⟩
  by_cases hst : s = ⟨t.start, t.len, m⟩
  · rw [hst] at hi ⊢
    exact hown i hi
  · have hin : s ∈ xs ++ t :: ys := by
      simp only [List.mem_append, List.mem_cons, hst, false_or] at hs ⊢
      exact hs.imp_right Or.inr
    rw [hother _ (h.outside hin (by rintro rfl; exact hm ht) hi), h.pages s hin hm i hi]

theorem Layout.setFree (h : Layout n mm (xs ++ t :: ys)) (ht : t.mark = .limbo) : ∃ pages tree,
    setBlocksFree t.start t.len mm = some { mm with pageList := pages, freeTree := tree } ∧
      Layout n { mm with pageList := pages, freeTree := tree }
        (xs ++ ⟨t.start, t.len, .free⟩ :: ys) := by
  obtain ⟨h0, hle, h1, h2⟩ := h.bounds (t := t) (by simp)
  obtain ⟨pages, hset, hlen, hpages⟩ := h.setPages ht .free
  obtain ⟨hins, hbag⟩ := h.freeTree.insert (makeKey t.len t.start) t.start
  refine ⟨pages, avltreeInsert mm.freeTree (makeKey t.len t.start) t.start, ?_, ?_⟩
  · have hfalse : Encoder.setPages false t.start t.len mm.pageList = some pages := hset
    rw [setBlocksFree, if_neg (by rw [h.numPages_eq]; omega), hfalse]
    simp only [Option.bind_eq_bind, Option.bind_some]
    rw [pageIndex_nat (by omega)]
    rfl
  · exact
      { h with
        covers := covers_remark h.covers _
        length_eq := hlen
        pages := hpages
        freeTree := hins
        freeBag := by
          rw [tileBag_middle (m := .free) (t := ⟨t.start, t.len, .free⟩) _ _ rfl,
            ← tileBag_other (t := t) _ _ (by simp [ht]), ← h.freeBag, hbag,
            makeKey_nat (by omega) (by omega)]
          rfl
        allocBag := h.allocBag.trans (tileBag_remark _ _ (by simp [ht]) (by simp)) }

/-- It becomes an allocated block. -/
theorem Layout.setUsed (h : Layout n mm (xs ++ t :: ys)) (ht : t.mark = .limbo) : ∃ pages tree,
    setBlocksAlloc t.start t.len mm = some { mm with pageList := pages, allocTree := tree } ∧
      Layout n { mm with pageList := pages, allocTree := tree }
        (xs ++ ⟨t.start, t.len, .used⟩ :: ys) := by
  obtain ⟨h0, hle, -⟩ := h.bounds (t := t) (by simp)
  obtain ⟨pages, hset, hlen, hpages⟩ := h.setPages ht .used
  obtain ⟨hins, hbag⟩ := h.allocTree.insert (makeKey (Encoder.pageAddr mm.baseAddr t.start) 0) t.start
  refine ⟨pages, avltreeInsert mm.allocTree (makeKey (Encoder.pageAddr mm.baseAddr t.start) 0) t.start,
    ?_, ?_⟩
  · have htrue : Encoder.setPages true t.start t.len mm.pageList = some pages := hset
    rw [setBlocksAlloc, if_neg (by rw [h.numPages_eq]; omega), htrue]
    simp only [Option.bind_eq_bind, Option.bind_some]
    rw [pageIndex_nat (by omega)]
    rfl
  · exact
      { h with
        covers := covers_remark h.covers _
        length_eq := hlen
        pages := hpages
        freeBag := h.freeBag.trans (tileBag_remark _ _ (by simp [ht]) (by simp))
        allocTree := hins
        allocBag := by
          rw [tileBag_middle (m := .used) (t := ⟨t.start, t.len, .used⟩) _ _ rfl,
            ← tileBag_other (t := t) _ _ (by simp [ht]), ← h.allocBag, hbag,
            h.pageAddr (by simp), makeKey_addr]
          rfl }

end

end MediaModules.Encoder
