import MediaModules.Encoder.VmmBlocks

/-!
# The calls on the blocks

`vmem_alloc` cuts a block off the front of the smallest free one that is large enough, `vmem_free`
joins the block with the free ones on both its sides.
-/
namespace MediaModules.Encoder

open MediaModules.Lib.AvlTree
open MediaModules.Lib.Tiles

/-- The pages of the allocated blocks. -/
def usedPages (ts : List Block) : Nat := (tileBag .used Tile.len ts).sum

/-- The state between two calls. -/
structure Rep (n : Nat) (mm : VideoMm) (ts : List Block) : Prop extends Layout n mm ts where
  coalesced : Coalesced .free ts
  settled : ∀ t ∈ ts, t.mark ≠ .limbo
  allocCount : mm.allocPageCount = usedPages ts
  allPages : mm.allocPageCount + mm.freePageCount = n

variable {n : Nat} {mm : VideoMm} {ts xs ys : List Block} {t p : Block}

/-! ## Allocation -/

/-- The pages for a size. -/
def pagesFor (size : Nat) : Nat := (size + vmemPageSize - 1) / vmemPageSize

theorem pagesFor_pos {size : Nat} (h : 0 < size) : 0 < pagesFor size := by
  rw [pagesFor, vmemPageSize]
  omega

/-- The block is free and large enough, and smaller than every other such block or, when it is as
large, before it. -/
structure BestFit (ts : List Block) (k : Nat) (t : Block) : Prop where
  mem : t ∈ ts
  free : t.mark = .free
  fits : k ≤ t.len
  least : ∀ s ∈ ts, s.mark = .free → k ≤ s.len → t.len < s.len ∨ t.len = s.len ∧ t.start ≤ s.start

theorem sizeToPages_eq {size : Nat} (h : size + 16383 < 2 ^ 31) :
    sizeToPages size = pagesFor size := by
  have hpage : ((vmemPageSize : Nat) : Int) = 16384 := rfl
  have hmod : Int.bmod ((size : Int) + 16384 - 1) (2 ^ 32) = ((size + 16383 : Nat) : Int) := by
    rw [Int.bmod_def]
    split <;> omega
  rw [sizeToPages, hpage, hmod]
  rfl

/-- A size whose round-up overflows gives a key above those of all free blocks. -/
theorem sizeToPages_overflow {size : Nat} (h : 2 ^ 31 ≤ size + 16383) (hs : size < 2 ^ 31) :
    2 ^ 63 ≤ makeKey (sizeToPages size) 0 := by
  have hpage : ((vmemPageSize : Nat) : Int) = 16384 := rfl
  have hmod : Int.bmod ((size : Int) + 16384 - 1) (2 ^ 32) =
      -((2 ^ 32 - (size + 16383) : Nat) : Int) := by
    rw [Int.bmod_def]
    split <;> omega
  have hdiv : ((2 ^ 32 - (size + 16383) : Nat) : Int).tdiv 16384 =
      (((2 ^ 32 - (size + 16383)) / 16384 : Nat) : Int) := rfl
  rw [sizeToPages, hpage, hmod, Int.neg_tdiv, hdiv, makeKey, Nat.or_zero]
  omega

/-- What `remove_approx_value` finds in the free tree. -/
theorem Layout.search (h : Layout n mm ts) (key : Nat) :
    (removeApproxValue mm.freeTree key = (mm.freeTree, none) ∧
      ∀ t ∈ ts, t.mark = .free → (freeItem t).1 < key) ∨
    ∃ t ∈ ts, t.mark = .free ∧ key ≤ (freeItem t).1 ∧
      (∀ s ∈ ts, s.mark = .free → key ≤ (freeItem s).1 → (freeItem t).1 ≤ (freeItem s).1) ∧
      ∃ rest, removeApproxValue mm.freeTree key = (rest, some (freeItem t)) ∧ SearchTree rest ∧
        bag mm.freeTree = freeItem t ::ₘ bag rest := by
  have hitem : ∀ {s : Block}, s ∈ ts → s.mark = .free → freeItem s ∈ bag mm.freeTree := by
    intro s hs hfree
    rw [h.freeBag]
    exact mem_tileBag.mpr ⟨s, hs, hfree, rfl⟩
  rcases h.freeTree.removeApprox key with ⟨hres, hno⟩ | ⟨rest, x, hres, htree, hbag, hkey, hleast⟩
  · exact Or.inl ⟨hres, fun t ht hfree => hno _ (hitem ht hfree)⟩
  · have hx : x ∈ bag mm.freeTree := by
      rw [hbag]
      exact Multiset.mem_cons_self x _
    rw [h.freeBag] at hx
    obtain ⟨t, ht, hfree, rfl⟩ := mem_tileBag.mp hx
    exact Or.inr ⟨t, ht, hfree, hkey, fun s hs hsfree hsk => hleast _ (hitem hs hsfree) hsk,
      rest, hres, htree, hbag⟩

theorem Layout.bestFit (h : Layout n mm ts) {k : Nat} (hk : k < 2 ^ 32) (ht : t ∈ ts)
    (hfree : t.mark = .free) (hkey : makeKey k 0 ≤ (freeItem t).1)
    (hleast : ∀ s ∈ ts, s.mark = .free → makeKey k 0 ≤ (freeItem s).1 →
      (freeItem t).1 ≤ (freeItem s).1) : BestFit ts k t := by
  have hmk := makeKey_nat hk (show 0 < 2 ^ 32 by decide)
  obtain ⟨-, -, hstart, -⟩ := h.bounds ht
  rw [hmk] at hkey hleast
  simp only [freeItem] at hkey hleast
  refine ⟨ht, hfree, by omega, fun s hs hsfree hsk => ?_⟩
  obtain ⟨-, -, hsstart, -⟩ := h.bounds hs
  have hle := hleast s hs hsfree
  omega

/-- A call that asks for more than there is in any one place leaves everything as it was. -/
theorem vmemAlloc_none (h : Layout n mm ts) {size : Nat} (h0 : 0 < size) (hs : size < 2 ^ 31)
    (hno : ∀ t ∈ ts, t.mark = .free → t.len < pagesFor size) :
    vmemAlloc size mm = some (mm, none) := by
  have hres : removeApproxValue mm.freeTree (makeKey (sizeToPages size) 0) = (mm.freeTree, none) := by
    rcases h.search (makeKey (sizeToPages size) 0) with ⟨hres, -⟩ | ⟨t, ht, hfree, hkey, hleast, -⟩
    · exact hres
    · exfalso
      by_cases hover : size + 16383 < 2 ^ 31
      · rw [sizeToPages_eq hover] at hkey hleast
        have hfits := (h.bestFit (by rw [pagesFor, vmemPageSize]; omega) ht hfree hkey hleast).fits
        have := hno t ht hfree
        omega
      · have hbig := sizeToPages_overflow (by omega) hs
        obtain ⟨-, -, hstart, hlen⟩ := h.bounds ht
        simp only [freeItem] at hkey
        omega
  rw [vmemAlloc, if_neg (by omega)]
  simp only [hres]

/-- The blocks after one was cut off `t`. -/
def allocTiles (xs : List Block) (t : Block) (k : Nat) (ys : List Block) : List Block :=
  xs ++ ⟨t.start, k, .used⟩ :: if k = t.len then ys else ⟨t.start + k, t.len - k, .free⟩ :: ys

theorem coalesced_allocTiles {k : Nat} (h : Coalesced .free (xs ++ t :: ys)) (ht : t.mark = .free) :
    Coalesced .free (allocTiles xs t k ys) := by
  obtain ⟨hxs, hys, hlast, hhead⟩ := coalesced_middle.mp h
  refine coalesced_middle.mpr ⟨hxs, ?_, fun _ _ => Or.inr (by simp), fun _ _ => Or.inl (by simp)⟩
  split
  · exact hys
  · exact List.isChain_cons.mpr ⟨fun s hs => Or.inr ((hhead s hs).resolve_left (not_not.mpr ht)), hys⟩

theorem usedBag_allocTiles {α : Type*} {k : Nat} (ht : t.mark = .free) (f : Block → α) :
    tileBag .used f (allocTiles xs t k ys) =
      f ⟨t.start, k, .used⟩ ::ₘ tileBag .used f (xs ++ t :: ys) := by
  rw [allocTiles, tileBag_middle (m := .used) (t := ⟨t.start, k, .used⟩) _ _ rfl,
    tileBag_other (t := t) _ _ (by simp [ht])]
  split
  · rfl
  · rw [tileBag_other _ _ (by simp)]

/-- What the call does with the free block it has found. -/
theorem Layout.cutBlock (h : Layout n mm (xs ++ inLimbo t :: ys)) {k : Nat} (h0 : 0 < k)
    (hk : k ≤ t.len) : ∃ mm₁ pages freeTree allocTree, setBlocksAlloc t.start k mm = some mm₁ ∧
      (if (k : Int) ≠ t.len then setBlocksFree (t.start + k) (t.len - k) mm₁ else some mm₁) =
        some { mm with pageList := pages, freeTree := freeTree, allocTree := allocTree } ∧
      Layout n { mm with pageList := pages, freeTree := freeTree, allocTree := allocTree }
        (allocTiles xs t k ys) := by
  by_cases hall : k = t.len
  · obtain ⟨pages, tree, hset, hlayout⟩ := h.setUsed rfl
    refine ⟨_, pages, mm.freeTree, tree, by rw [hall]; exact hset, ?_, ?_⟩
    · rw [if_neg (by omega)]
    · rw [allocTiles, if_pos hall, hall]
      exact hlayout
  · have hcut : Layout n mm (xs ++ ⟨t.start, k, .limbo⟩ :: ⟨t.start + k, t.len - k, .limbo⟩ :: ys) :=
      h.recut [inLimbo t] [⟨t.start, k, .limbo⟩, ⟨t.start + k, t.len - k, .limbo⟩] (c := t.start)
        (d := t.start + t.len) ⟨rfl, by simp only [inLimbo]; omega, rfl⟩ (by simp)
        ⟨rfl, h0, rfl, by simp only; omega, by simp only [Covers, Tile.stop]; omega⟩
        (by simp [inLimbo]) (by simp)
    obtain ⟨pages, tree, hset, hlayout⟩ := hcut.setUsed rfl
    rw [List.append_cons] at hlayout
    obtain ⟨pages', tree', hset', hlayout'⟩ := hlayout.setFree rfl
    refine ⟨_, pages', tree', tree, hset, ?_, ?_⟩
    · have hplace : (t.start : Int) + k = (t.start + k : Nat) := by omega
      have hleft : (t.len : Int) - k = (t.len - k : Nat) := by omega
      rw [if_pos (by omega), hplace, hleft, hset']
    · rw [allocTiles, if_neg hall, List.append_cons]
      exact hlayout'

/-- A call that asks for no more than there is in some place gets the front of the best fit. -/
theorem vmemAlloc_some (h : Rep n mm ts) {size : Nat} (h0 : 0 < size) (hs : size + 16383 < 2 ^ 31)
    (hfit : ∃ t ∈ ts, t.mark = .free ∧ pagesFor size ≤ t.len) :
    ∃ t xs ys mm', ts = xs ++ t :: ys ∧ BestFit ts (pagesFor size) t ∧
      vmemAlloc size mm = some (mm', some (mm.baseAddr + t.start * vmemPageSize)) ∧
      mm'.baseAddr = mm.baseAddr ∧ mm'.memSize = mm.memSize ∧
      Rep n mm' (allocTiles xs t (pagesFor size) ys) := by
  have hk32 : pagesFor size < 2 ^ 32 := by
    rw [pagesFor, vmemPageSize]
    omega
  rcases h.search (makeKey (sizeToPages size) 0) with
    ⟨-, hnone⟩ | ⟨t, ht, hfree, hkey, hleast, rest, hres, htree, hbag⟩
  · exfalso
    obtain ⟨s, hs', hsfree, hsfits⟩ := hfit
    have hlt := hnone s hs' hsfree
    rw [sizeToPages_eq hs, makeKey_nat hk32 (by decide)] at hlt
    simp only [freeItem] at hlt
    omega
  rw [sizeToPages_eq hs] at hkey hleast hres
  have hbest := h.bestFit hk32 ht hfree hkey hleast
  obtain ⟨-, -, hstart, hlen⟩ := h.bounds ht
  have haddr := h.pageAddr ht
  obtain ⟨xs, ys, rfl⟩ := List.append_of_mem ht
  obtain ⟨mm₁, pages, freeTree, allocTree, hset, hset', hlayout⟩ :=
    (h.outFree hfree htree hbag).cutBlock (pagesFor_pos h0) hbest.fits
  have hcount := h.allocCount
  have hboth := h.allPages
  refine ⟨t, xs, ys, { mm with
    pageList := pages
    freeTree := freeTree
    allocTree := allocTree
    allocPageCount := mm.allocPageCount + pagesFor size
    freePageCount := mm.freePageCount - pagesFor size }, rfl, hbest, ?_, rfl, rfl, ?_⟩
  · rw [vmemAlloc, if_neg (by omega)]
    simp only [sizeToPages_eq hs, hres, freeItem, keyToValue_makeKey (show t.len < 2 ^ 31 by omega)
      (show t.start < 2 ^ 32 by omega), Option.bind_eq_bind, hset, Option.bind_some, hset', haddr]
  · exact
      { hlayout with
        coalesced := coalesced_allocTiles h.coalesced hfree
        settled := by
          intro s hs'
          have hold := h.settled s
          simp only [allocTiles, List.mem_append, List.mem_cons] at hs' hold
          rcases hs' with hs' | rfl | hs'
          · exact hold (Or.inl hs')
          · simp
          · split at hs'
            · exact hold (Or.inr (Or.inr hs'))
            · rcases List.mem_cons.mp hs' with rfl | hs'
              exacts [by simp, hold (Or.inr (Or.inr hs'))]
        allocCount := by
          rw [usedPages, usedBag_allocTiles hfree, Multiset.sum_cons, ← usedPages]
          simp only
          omega
        allPages := by simp only; omega }

/-! ## Giving a block back -/

/-- What the call learns from the last page of the block before. -/
theorem Layout.prevFree (h : Layout n mm (xs ++ p :: t :: ys)) (hp : p.mark ≠ .limbo) :
    prevFree mm t.start =
      some (if p.mark = .used then ((t.start : Int) - 1, -1) else ((p.start : Int), (p.len : Int))) := by
  obtain ⟨h0, -⟩ := h.bounds (t := p) (by simp)
  have hpt : t.start = p.start + p.len := (covers_middle.mp h.covers).2.2.1
  have hlast := h.readPage (t := p) (by simp) hp (show p.len - 1 < p.len by omega)
  have hfirst := h.readPage (t := p) (by simp) hp h0
  have hplace : ((p.start + (p.len - 1) : Nat) : Int) = (t.start : Int) - 1 := by omega
  rw [hplace, blockPage, if_pos (show p.len - 1 + 1 = p.len by omega)] at hlast
  rw [Encoder.prevFree, if_pos (by omega), hlast]
  simp only [Option.bind_eq_bind, Option.bind_some, decide_eq_true_eq]
  split
  · rfl
  · rw [Nat.add_zero] at hfirst
    rw [hfirst]
    rfl

/-- What it learns from the first page of the block behind. -/
theorem Layout.nextFree (h : Layout n mm (xs ++ t :: p :: ys)) (hp : p.mark ≠ .limbo) :
    nextFree mm ((t.start : Int) + t.len) =
      some (if p.mark = .used then ((p.start : Int), -1) else ((p.start : Int), (p.len : Int))) := by
  have hpt : p.start = t.start + t.len := (covers_middle.mp h.covers).2.2.1
  obtain ⟨h0, hle, -⟩ := h.bounds (t := p) (by simp)
  have hfirst := h.readPage (t := p) (by simp) hp h0
  have hplace : (t.start : Int) + t.len = (p.start : Int) := by omega
  have hin : (if (p.start : Int) = mm.numPages then (-1 : Int) else p.start) = p.start :=
    if_neg (by rw [h.numPages_eq]; omega)
  rw [Nat.add_zero, blockPage] at hfirst
  simp only [Encoder.nextFree, hplace, hin, hfirst, Option.bind_eq_bind, Option.bind_some]
  rw [if_pos (by omega)]
  simp only [decide_eq_true_eq]
  split <;> rfl

/-- The first page of a free block says how large it is. -/
theorem Layout.readFirst (h : Layout n mm ts) (hp : p ∈ ts) (hm : p.mark ≠ .limbo) :
    ∃ page, Encoder.readPage mm.pageList p.start = some page ∧ page.allocPages = p.len :=
  ⟨_, h.readPage hp hm (h.bounds hp).1, rfl⟩

/-- The free block before a block worked on, if any, becomes part of it. -/
theorem Layout.joinPrev (h : Layout n mm (xs ++ t :: ys)) (ht : t.mark = .limbo)
    (hxs : ∀ s ∈ xs, s.mark ≠ .limbo) (hc : Coalesced .free xs) : ∃ prev rest us s,
      Encoder.prevFree mm t.start = some prev ∧ mergePrev prev t.start t.len mm =
        some ({ mm with freeTree := rest }, some ((s.start : Int), (s.len : Int))) ∧
      Layout n { mm with freeTree := rest } (us ++ s :: ys) ∧ s.mark = .limbo ∧
      s.start ≤ t.start ∧ s.stop = t.stop ∧ us <+: xs ∧ (∀ q ∈ us.getLast?, q.mark ≠ .free) ∧
      ∀ (α : Type) (f : Block → α), tileBag .used f us = tileBag .used f xs := by
  rcases List.eq_nil_or_concat xs with rfl | ⟨us, p, rfl⟩
  · have hstart : t.start = 0 := h.covers.1
    exact ⟨_, mm.freeTree, [], t, by rw [Encoder.prevFree, hstart, if_neg (by decide)], rfl, h, ht,
      le_rfl, rfl, List.prefix_rfl, by simp, fun _ _ => rfl⟩
  rw [List.concat_eq_append] at h hxs hc ⊢
  have hp := hxs p (by simp)
  rw [List.append_assoc, List.singleton_append] at h
  have hprev := h.prevFree hp
  by_cases hfree : p.mark = .free
  · obtain ⟨rest, htake, hlayout⟩ := h.takeFree hfree
    obtain ⟨page, hread, hpages⟩ := h.readFirst (p := p) (by simp) hp
    obtain ⟨-, h0, hpt, h1, -⟩ := covers_middle.mp h.covers
    rw [if_neg (by simp [hfree])] at hprev
    refine ⟨_, rest, us, ⟨p.start, p.len + t.len, .limbo⟩, hprev, ?_, ?_, rfl, ?_, ?_,
      List.prefix_append us [p], fun q hq => ?_, fun α f => ?_⟩
    · rw [mergePrev, if_pos (Int.natCast_nonneg _)]
      simp only [htake, hread, Option.bind_eq_bind, Option.bind_some, hpages, Int.natCast_add]
      rw [Int.add_comm]
    · refine hlayout.recut [inLimbo p, t] [⟨p.start, p.len + t.len, .limbo⟩]
        (c := p.start) (d := t.stop) ⟨rfl, h0, hpt, h1, rfl⟩ (by simp) ⟨rfl, by simp only; omega, ?_⟩
        (by simp [inLimbo, ht]) (by simp)
      simp only [Covers, Tile.stop] at hpt ⊢
      omega
    · rw [Tile.stop] at hpt
      simp only
      omega
    · simp only [Tile.stop] at hpt ⊢
      omega
    · exact ((coalesced_middle.mp hc).2.2.1 q hq).resolve_right (not_not.mpr hfree)
    · rw [tileBag_other _ _ (by simp [hfree]), List.append_nil]
  · rw [if_pos (by cases hm : p.mark <;> simp_all)] at hprev
    refine ⟨_, mm.freeTree, us ++ [p], t, hprev, rfl, ?_, ht, le_rfl, rfl, List.prefix_rfl,
      by simp [hfree], fun _ _ => rfl⟩
    rw [List.append_assoc, List.singleton_append]
    exact h

/-- So does the free block behind it. -/
theorem Layout.joinNext (h : Layout n mm (xs ++ t :: ys)) (ht : t.mark = .limbo)
    (hys : ∀ s ∈ ys, s.mark ≠ .limbo) (hc : Coalesced .free ys) : ∃ next rest vs s,
      Encoder.nextFree mm ((t.start : Int) + t.len) = some next ∧
      mergeNext next t.len mm = some ({ mm with freeTree := rest }, some (s.len : Int)) ∧
      Layout n { mm with freeTree := rest } (xs ++ s :: vs) ∧ s.mark = .limbo ∧
      s.start = t.start ∧ t.stop ≤ s.stop ∧ vs <:+ ys ∧ (∀ q ∈ vs.head?, q.mark ≠ .free) ∧
      ∀ (α : Type) (f : Block → α), tileBag .used f vs = tileBag .used f ys := by
  match ys with
  | [] =>
    have hstop : t.start + t.len = n := (covers_middle.mp h.covers).2.2
    have hplace : (t.start : Int) + t.len = mm.numPages := by
      rw [h.numPages_eq]
      omega
    exact ⟨_, mm.freeTree, [], t, by rw [Encoder.nextFree, if_pos hplace]; rfl, rfl, h, ht, rfl, le_rfl,
      List.suffix_rfl, by simp, fun _ _ => rfl⟩
  | p :: vs =>
    have hp := hys p (by simp)
    have hnext := h.nextFree hp
    by_cases hfree : p.mark = .free
    · obtain ⟨-, h1, hpt, h0, -⟩ := covers_middle.mp h.covers
      rw [List.append_cons] at h
      obtain ⟨rest, htake, hlayout⟩ := h.takeFree hfree
      obtain ⟨page, hread, hpages⟩ := h.readFirst (p := p) (by simp) hp
      rw [if_neg (by simp [hfree])] at hnext
      rw [List.append_assoc, List.singleton_append] at hlayout
      refine ⟨_, rest, vs, ⟨t.start, t.len + p.len, .limbo⟩, hnext, ?_, ?_, rfl, rfl, ?_,
        List.suffix_cons p vs, fun q hq => ?_, fun α f => ?_⟩
      · rw [mergeNext, if_pos (Int.natCast_nonneg _)]
        simp only [htake, hread, Option.bind_eq_bind, Option.bind_some, hpages, Int.natCast_add]
      · refine hlayout.recut [t, inLimbo p] [⟨t.start, t.len + p.len, .limbo⟩]
          (c := t.start) (d := p.stop) ⟨rfl, h1, hpt, h0, rfl⟩ (by simp) ⟨rfl, by simp only; omega, ?_⟩
          (by simp [inLimbo, ht]) (by simp)
        simp only [Covers, Tile.stop] at hpt ⊢
        omega
      · simp only [Tile.stop]
        omega
      · exact ((List.isChain_cons.mp hc).1 q hq).resolve_left (not_not.mpr hfree)
      · exact (tileBag_other [] vs (by simp [hfree])).symm
    · rw [if_pos (by cases hm : p.mark <;> simp_all)] at hnext
      exact ⟨_, mm.freeTree, p :: vs, t, hnext, rfl, h, ht, rfl, le_rfl, List.suffix_rfl, by simp [hfree],
        fun _ _ => rfl⟩

/-- A call with the address of an allocated block frees it. -/
theorem vmemFree_some (h : Rep n mm (xs ++ t :: ys)) (ht : t.mark = .used) (ptr : Nat)
    (hptr : ptr % 2 ^ 32 = (mm.baseAddr + t.start * vmemPageSize) % 2 ^ 32) : ∃ mm' ts',
    vmemFree ptr mm = some (mm', true) ∧ mm'.baseAddr = mm.baseAddr ∧ mm'.memSize = mm.memSize ∧
      Rep n mm' ts' ∧ ∀ (α : Type) (f : Block → α),
        tileBag .used f (xs ++ t :: ys) = f t ::ₘ tileBag .used f ts' := by
  obtain ⟨page, hpage, hpages⟩ := h.readFirst (p := t) (by simp) (by simp [ht])
  obtain ⟨key, rest, hres, hlimbo⟩ := h.takeUsed ht hptr
  obtain ⟨hcxs, hcys, -⟩ := coalesced_middle.mp h.coalesced
  have hxs : ∀ s ∈ xs, s.mark ≠ .limbo := fun s hs => h.settled s (List.mem_append_left _ hs)
  have hys : ∀ s ∈ ys, s.mark ≠ .limbo :=
    fun s hs => h.settled s (List.mem_append_right _ (List.mem_cons_of_mem _ hs))
  obtain ⟨prev, rest₁, us, s, hprev, hmerge, hlayout₁, hs, hle, hstop, hpre, hlast, hbag₁⟩ :=
    hlimbo.joinPrev rfl hxs hcxs
  obtain ⟨next, rest₂, vs, r, hnext, hmerge₂, hlayout₂, hr, hstart, hle₂, hsuf, hhead, hbag₂⟩ :=
    hlayout₁.joinNext hs hys hcys
  obtain ⟨pages, hwrite, hlayout₃⟩ := hlayout₂.writePage hr (i := t.start)
    (by
      have h0 := (h.bounds (t := t) (by simp)).1
      simp only [Tile.stop, inLimbo] at hle hstop hle₂
      omega)
    fun page => { page with allocPages := 0, firstPageno := -1 }
  obtain ⟨pages', tree, hset, hlayout₄⟩ := hlayout₃.setFree hr
  have hbag : ∀ (α : Type) (f : Block → α), tileBag .used f (xs ++ t :: ys) =
      f t ::ₘ tileBag .used f (us ++ ⟨r.start, r.len, .free⟩ :: vs) := by
    intro α f
    rw [tileBag_middle _ _ ht, tileBag_other us vs (by simp), tileBag_append, tileBag_append, hbag₁,
      hbag₂]
  have hcus : Coalesced .free us := List.IsChain.prefix hcxs hpre
  have hcount := h.allocCount
  have hboth := h.allPages
  rw [usedPages, hbag, Multiset.sum_cons, ← usedPages] at hcount
  refine ⟨{ mm with
    allocTree := rest
    freeTree := tree
    pageList := pages'
    allocPageCount := mm.allocPageCount - t.len
    freePageCount := mm.freePageCount + t.len }, _, ?_, rfl, rfl, ?_, hbag⟩
  · have hend : (s.start : Int) + s.len = (t.start : Int) + t.len := by
      simp only [Tile.stop, inLimbo] at hstop
      omega
    have hnext' : Encoder.nextFree { mm with allocTree := rest } ((t.start : Int) + t.len) = some next := by
      rw [← hend]
      exact hnext
    simp only [inLimbo] at hprev hmerge
    simp only [vmemFree, hres, hpage, hpages, hprev, hnext', hmerge, hmerge₂, Option.bind_eq_bind,
      Option.bind_some]
    rw [hstart] at hset
    simp only at hwrite hset
    rw [hwrite, Option.bind_some, hset]
    rfl
  · exact
      { hlayout₄ with
        coalesced := coalesced_middle.mpr ⟨hcus, hcys.suffix hsuf,
          fun q hq => Or.inl (hlast q hq), fun q hq => Or.inr (hhead q hq)⟩
        settled := by
          intro q hq
          rcases List.mem_append.mp hq with hq | hq
          · exact hxs q (hpre.subset hq)
          · rcases List.mem_cons.mp hq with rfl | hq
            · simp
            · exact hys q (hsuf.subset hq)
        allocCount := by simp only; omega
        allPages := by simp only; omega }

end MediaModules.Encoder
