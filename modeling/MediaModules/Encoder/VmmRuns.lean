import MediaModules.Encoder.VmmCalls
import MediaModules.Lib.Run

/-!
# Runs of the allocator

The memory a caller holds is known from the answers the calls gave. Over any sequence of calls the
blocks held lie apart, each answer is that of an allocator that knows only these blocks, and when all
have been given back the state is the one the allocator started in.
-/
namespace MediaModules.Encoder

open MediaModules.Lib.AvlTree
open MediaModules.Lib.AvlTree.Tree
open MediaModules.Lib.Run
open MediaModules.Lib.Tiles

/-! ## Calls and answers -/

inductive VmmOp
  | alloc (size : Int32)
  | free (ptr : UInt64)

inductive VmmResult
  | addr (ptr : Option Nat)
  | done (ok : Bool)

def vmmCall (mm : VideoMm) : VmmOp → Option (VideoMm × VmmResult)
  | .alloc size => (vmemAlloc size.toInt mm).map fun res => (res.1, .addr res.2)
  | .free ptr => (vmemFree ptr.toNat mm).map fun res => (res.1, .done res.2)

/-- The blocks held, each with its address and its pages. -/
abbrev Live := Multiset (Nat × Nat)

/-- What the caller holds after a call. The low half of the address says which block it gives back. -/
def track (live : Live) : VmmOp → VmmResult → Live
  | .alloc size, .addr (some ptr) => (ptr, pagesFor size.toInt.toNat) ::ₘ live
  | .free ptr, .done true => live.filter fun b => b.1 % 2 ^ 32 ≠ ptr.toNat % 2 ^ 32
  | _, _ => live

def vmmStep (s : VideoMm × Live) (op : VmmOp) : Option (VideoMm × Live) :=
  (vmmCall s.1 op).map fun res => (res.1, track s.2 op res.2)

/-! ## The allocator that knows the blocks held -/

/-- A page of the region that no block holds. -/
def FreePage (base n : Nat) (live : Live) (i : Nat) : Prop :=
  i < n ∧ ∀ b ∈ live, ¬ (b.1 ≤ base + i * vmemPageSize ∧
    base + i * vmemPageSize < b.1 + b.2 * vmemPageSize)

/-- The answers allowed. An allocation fails when there is no room in one place, and otherwise gets the
front of the smallest place that is large enough, the first of them. -/
def Allowed (base n : Nat) (live : Live) : VmmOp → VmmResult → Prop
  | .alloc size, .addr none => size.toInt ≤ 0 ∨
      ∀ p, ¬ ∀ i, p ≤ i → i < p + pagesFor size.toInt.toNat → FreePage base n live i
  | .alloc size, .addr (some ptr) => 0 < size.toInt ∧
      ∃ s len, ptr = base + s * vmemPageSize ∧ MaxStretch (FreePage base n live) s len ∧
        pagesFor size.toInt.toNat ≤ len ∧
        ∀ s' len', MaxStretch (FreePage base n live) s' len' → pagesFor size.toInt.toNat ≤ len' →
          len < len' ∨ len = len' ∧ s ≤ s'
  | .free ptr, .done true => ∃ b ∈ live, b.1 % 2 ^ 32 = ptr.toNat % 2 ^ 32
  | .free ptr, .done false => ∀ b ∈ live, b.1 % 2 ^ 32 ≠ ptr.toNat % 2 ^ 32
  | _, _ => False

/-! ## Tiles and blocks -/

variable {n : Nat} {mm : VideoMm} {ts : List Block}

def block (base : Nat) (t : Block) : Nat × Nat := (base + t.start * vmemPageSize, t.len)

/-- The tiles of the state and the blocks held. -/
structure Holds (n base memSize : Nat) (s : VideoMm × Live) (ts : List Block) : Prop where
  rep : Rep n s.1 ts
  baseAddr_eq : s.1.baseAddr = base
  memSize_eq : s.1.memSize = memSize
  live_eq : s.2 = tileBag .used (block base) ts

theorem freePage_eq (hs : ∀ t ∈ ts, t.mark ≠ .limbo) {base : Nat} :
    FreePage base n (tileBag .used (block base) ts) = FreeAt .free 0 ts n := by
  funext i
  have hplace : ∀ t : Block, ((block base t).1 ≤ base + i * vmemPageSize ∧
      base + i * vmemPageSize < (block base t).1 + (block base t).2 * vmemPageSize) ↔
      (t.start ≤ i ∧ i < t.stop) := by
    intro t
    simp only [block, Tile.stop, vmemPageSize]
    omega
  refine propext ⟨?_, ?_⟩
  · rintro ⟨hi, hno⟩
    refine ⟨Nat.zero_le i, hi, fun t ht hfree hti => ?_⟩
    have hused : t.mark = .used := by
      have := hs t ht
      cases hm : t.mark <;> simp_all
    exact hno (block base t) (mem_tileBag.mpr ⟨t, ht, hused, rfl⟩) ((hplace t).mpr hti)
  · rintro ⟨-, hi, hno⟩
    refine ⟨hi, fun b hb hbi => ?_⟩
    obtain ⟨t, ht, hused, rfl⟩ := mem_tileBag.mp hb
    exact hno t ht (by simp [hused]) ((hplace t).mp hbi)

/-! ## One call -/

variable {base memSize : Nat} {s : VideoMm × Live}

theorem Holds.alloc (h : Holds n base memSize s ts) (size : Int32) :
    ∃ mm' res ts', vmmCall s.1 (.alloc size) = some (mm', res) ∧
      Allowed base n s.2 (.alloc size) res ∧
      Holds n base memSize (mm', track s.2 (.alloc size) res) ts' := by
  by_cases h0 : size.toInt ≤ 0
  · refine ⟨s.1, .addr none, ts, ?_, Or.inl h0, h⟩
    rw [vmmCall, vmemAlloc, if_pos h0]
    rfl
  obtain ⟨k, hk⟩ : ∃ k : Nat, size.toInt = k := ⟨size.toInt.toNat, by omega⟩
  have hmax : k < 2 ^ 31 := by
    have := size.toInt_lt
    omega
  by_cases hfit : ∃ t ∈ ts, t.mark = .free ∧ pagesFor k ≤ t.len
  · have hsmall : k + 16383 < 2 ^ 31 := by
      obtain ⟨t, ht, -, hle⟩ := hfit
      obtain ⟨-, -, -, hlen⟩ := h.rep.bounds ht
      rw [pagesFor, vmemPageSize] at hle
      omega
    obtain ⟨t, xs, ys, mm', rfl, hbest, hcall, hbase, hmem, hrep⟩ :=
      vmemAlloc_some h.rep (by omega : 0 < k) hsmall hfit
    refine ⟨mm', .addr (some (base + t.start * vmemPageSize)), _, ?_, ⟨by omega, t.start, t.len, rfl, ?_⟩,
      hrep, hbase.trans h.baseAddr_eq, hmem.trans h.memSize_eq, ?_⟩
    · rw [vmmCall, hk, hcall, h.baseAddr_eq]
      rfl
    · rw [h.live_eq, freePage_eq h.rep.settled, hk, Int.toNat_natCast]
      refine ⟨maxStretch_of_mem h.rep.covers h.rep.coalesced hbest.mem hbest.free, hbest.fits, ?_⟩
      intro s' len' hstretch hle
      exact hbest.least ⟨s', len', .free⟩ ((maxStretch_iff h.rep.covers h.rep.coalesced).mp hstretch)
        rfl hle
    · rw [track, h.live_eq, usedBag_allocTiles hbest.free, hk, Int.toNat_natCast]
      rfl
  · have hcall := vmemAlloc_none h.rep.toLayout (by omega : 0 < k) hmax fun t ht hfree => by
      by_contra hle
      exact hfit ⟨t, ht, hfree, by omega⟩
    refine ⟨s.1, .addr none, ts, ?_, Or.inr fun p hp => ?_, h⟩
    · rw [vmmCall, hk, hcall]
      rfl
    · rw [h.live_eq, freePage_eq h.rep.settled, hk, Int.toNat_natCast] at hp
      exact hfit (exists_tile_of_stretch h.rep.covers h.rep.coalesced (pagesFor_pos (by omega)) hp)

theorem Holds.block_inj (h : Holds n base memSize s ts) {t q : Block} (ht : t ∈ ts) (hq : q ∈ ts)
    (heq : (block base q).1 % 2 ^ 32 = (block base t).1 % 2 ^ 32) : q = t := by
  obtain ⟨ht0, -, ht1, -⟩ := h.rep.bounds ht
  obtain ⟨hq0, -, hq1, -⟩ := h.rep.bounds hq
  simp only [block, vmemPageSize] at heq
  refine h.rep.covers.eq_of_share hq ht (i := t.start) ⟨by omega, ?_⟩ ⟨le_rfl, ?_⟩ <;>
    rw [Tile.stop] <;> omega

theorem Holds.free (h : Holds n base memSize s ts) (ptr : UInt64) :
    ∃ mm' res ts', vmmCall s.1 (.free ptr) = some (mm', res) ∧ Allowed base n s.2 (.free ptr) res ∧
      Holds n base memSize (mm', track s.2 (.free ptr) res) ts' := by
  by_cases hblock : ∃ b ∈ s.2, b.1 % 2 ^ 32 = ptr.toNat % 2 ^ 32
  · have hheld := hblock
    obtain ⟨b, hb, hptr⟩ := hblock
    rw [h.live_eq] at hb
    obtain ⟨t, ht, hused, rfl⟩ := mem_tileBag.mp hb
    obtain ⟨xs, ys, rfl⟩ := List.append_of_mem ht
    obtain ⟨mm', ts', hcall, hbase, hmem, hrep, hbag⟩ := vmemFree_some h.rep hused
      ptr.toNat (by rw [h.baseAddr_eq]; exact hptr.symm)
    refine ⟨mm', .done true, ts', ?_, hheld,
      hrep, hbase.trans h.baseAddr_eq, hmem.trans h.memSize_eq, ?_⟩
    · rw [vmmCall, hcall]
      rfl
    · have hrest : tileBag .used (block base) ts' = tileBag .used (block base) (xs ++ ys) := by
        have hboth := hbag _ (block base)
        rw [tileBag_middle _ _ hused, Multiset.cons_inj_right] at hboth
        exact hboth.symm
      have hgone : ¬ (block base t).1 % 2 ^ 32 ≠ ptr.toNat % 2 ^ 32 := not_not.mpr hptr
      rw [track, h.live_eq, tileBag_middle _ _ hused,
        Multiset.filter_cons_of_neg (p := fun b : Nat × Nat => b.1 % 2 ^ 32 ≠ ptr.toNat % 2 ^ 32) _
          hgone, Multiset.filter_eq_self.mpr, hrest]
      intro b hb hbptr
      obtain ⟨q, hq, -, rfl⟩ := mem_tileBag.mp hb
      obtain rfl := h.block_inj ht (q := q) (by
        simp only [List.mem_append, List.mem_cons] at hq ⊢
        exact hq.imp_right Or.inr) (hbptr.trans hptr.symm)
      exact (List.nodup_middle.mp h.rep.covers.nodup).notMem hq
  · have hno : ∀ b ∈ s.2, b.1 % 2 ^ 32 ≠ ptr.toNat % 2 ^ 32 := fun b hb heq => hblock ⟨b, hb, heq⟩
    refine ⟨s.1, .done false, ts, ?_, hno, h⟩
    rcases h.rep.allocTree.remove (makeKey ptr.toNat 0) with ⟨hres, -⟩ | ⟨_, x, -, -, hbag, hkey⟩
    · rw [vmmCall, vmemFree, hres]
      rfl
    · have hx : x ∈ bag s.1.allocTree := by
        rw [hbag]
        exact Multiset.mem_cons_self x _
      rw [h.rep.allocBag, h.baseAddr_eq] at hx
      obtain ⟨t, ht, hused, rfl⟩ := mem_tileBag.mp hx
      refine absurd ⟨block base t, ?_, ?_⟩ hblock
      · rw [h.live_eq]
        exact mem_tileBag.mpr ⟨t, ht, hused, rfl⟩
      · rw [makeKey_addr] at hkey
        simp only [usedItem, block] at hkey ⊢
        omega

/-- Every call is defined, gives an answer that is allowed, and leaves a tiled region. -/
theorem Holds.call (h : Holds n base memSize s ts) (op : VmmOp) :
    ∃ mm' res ts', vmmCall s.1 op = some (mm', res) ∧ Allowed base n s.2 op res ∧
      Holds n base memSize (mm', track s.2 op res) ts' := by
  cases op with
  | alloc size => exact h.alloc size
  | free ptr => exact h.free ptr

/-! ## The start -/

/-- The mask leaves whole pages. -/
theorem toNat_maskPages (x : UInt64) :
    (x &&& ~~~(16 * 1024 - 1)).toNat = x.toNat / vmemPageSize * vmemPageSize := by
  have hx := x.toNat_lt
  have hmask : (~~~(16 * 1024 - 1) : UInt64).toNat = 2 ^ 14 * (2 ^ 50 - 1) := by decide
  have hlow : (x.toNat &&& 2 ^ 14 * (2 ^ 50 - 1)) % 2 ^ 14 = 0 := by
    rw [Nat.and_mod_two_pow, Nat.mul_mod_right, Nat.and_zero]
  have hhigh : (x.toNat &&& 2 ^ 14 * (2 ^ 50 - 1)) / 2 ^ 14 = x.toNat / 2 ^ 14 := by
    rw [Nat.and_div_two_pow, Nat.mul_div_cancel_left _ (by decide), Nat.and_two_pow_sub_one_eq_mod]
    omega
  rw [UInt64.toNat_and, hmask, vmemPageSize]
  omega

/-- A region with pages starts as one free tile. Its start is the address, rounded up to a page. -/
theorem vmemInit_holds {addr size : UInt64} (hsize : size.toNat < 2 ^ 31)
    (hroom : addr.toNat + size.toNat + vmemPageSize ≤ 2 ^ 64)
    (hinit : vmemInit addr size = some mm) : ∃ n, 0 < n ∧ n * vmemPageSize ≤ size.toNat ∧
      mm.baseAddr = pagesFor addr.toNat * vmemPageSize ∧
      Holds n mm.baseAddr mm.memSize (mm, 0) [⟨0, n, .free⟩] := by
  have hmem : (size &&& ~~~(16 * 1024)).toNat ≤ size.toNat := by
    rw [UInt64.toNat_and]
    exact Nat.and_le_left
  rw [vmemPageSize] at hroom
  have hbase : ((addr + (16 * 1024 - 1)) &&& ~~~(16 * 1024 - 1)).toNat =
      pagesFor addr.toNat * vmemPageSize := by
    have hadd : (addr + (16 * 1024 - 1)).toNat = addr.toNat + 16383 := by
      rw [UInt64.toNat_add, show (16 * 1024 - 1 : UInt64).toNat = 16383 from rfl]
      omega
    rw [toNat_maskPages, hadd]
    rfl
  obtain ⟨n, hn⟩ : ∃ n, n = (size &&& ~~~(16 * 1024)).toNat / 16384 := ⟨_, rfl⟩
  have hpages : Int.bmod ((size &&& ~~~(16 * 1024)).toNat / vmemPageSize : Nat) (2 ^ 32) = n := by
    rw [vmemPageSize, Int.bmod_def, hn]
    split <;> omega
  unfold vmemInit at hinit
  simp only at hinit
  split at hinit
  · cases hinit
  · next hpos =>
    rw [← Int.natCast_ediv, hpages] at hpos hinit
    rw [Int.toNat_natCast] at hinit
    have hnil : SearchTree (nil : Tree Nat Nat) := ⟨trivial, List.Pairwise.nil⟩
    have hlimbo : Layout n
        { freeTree := nil
          allocTree := nil
          pageList := List.replicate n ⟨false, 0, -1⟩
          numPages := n
          baseAddr := ((addr + (16 * 1024 - 1)) &&& ~~~(16 * 1024 - 1)).toNat
          memSize := (size &&& ~~~(16 * 1024)).toNat
          freePageCount := n
          allocPageCount := 0 } ([] ++ ⟨0, n, .limbo⟩ :: []) :=
      { numPages_eq := rfl
        small := by omega
        room := by
          simp only [hbase, pagesFor, vmemPageSize]
          omega
        covers := ⟨rfl, by simp only; omega, by simp [Covers, Tile.stop]⟩
        length_eq := List.length_replicate
        pages := by simp
        freeTree := hnil
        freeBag := rfl
        allocTree := hnil
        allocBag := rfl }
    obtain ⟨pages, tree, hset, hlayout⟩ := hlimbo.setFree rfl
    obtain rfl := Option.some.inj (hset.symm.trans hinit)
    refine ⟨n, by omega, by simp only [vmemPageSize]; omega, hbase, ?_, rfl, rfl, rfl⟩
    exact
      { hlayout with
        coalesced := List.isChain_singleton _
        settled := by simp
        allocCount := rfl
        allPages := by simp }

/-! ## Runs -/

theorem vmmStep_holds (s : VideoMm × Live) (op : VmmOp) (h : ∃ ts, Holds n base memSize s ts) :
    ∃ s', vmmStep s op = some s' ∧ ∃ ts, Holds n base memSize s' ts := by
  obtain ⟨ts, h⟩ := h
  obtain ⟨mm', res, ts', hcall, -, h'⟩ := h.call op
  exact ⟨_, by rw [vmmStep, hcall]; rfl, ts', h'⟩

theorem holds_of_run (h : Holds n base memSize s ts) {ops : List VmmOp} {s' : VideoMm × Live}
    (hrun : run vmmStep s ops = some s') : ∃ ts', Holds n base memSize s' ts' := by
  obtain ⟨t, ht, hP⟩ := run_total vmmStep_holds ⟨ts, h⟩ ops
  obtain rfl := Option.some.inj (ht.symm.trans hrun)
  exact hP

/-- The blocks held lie apart and in the `size` bytes from `base` on, and the counters are right. -/
def Safe (base size : Nat) (numPages : Int) (s : VideoMm × Live) : Prop :=
  ∃ blocks : List (Nat × Nat), s.2 = blocks ∧
    blocks.Pairwise (fun b c => b.1 + b.2 * vmemPageSize ≤ c.1) ∧
    (∀ b ∈ blocks, base ≤ b.1 ∧ 0 < b.2 ∧ b.1 + b.2 * vmemPageSize ≤ base + size) ∧
    s.1.allocPageCount = ((blocks.map Prod.snd).sum : Nat) ∧
    s.1.allocPageCount + s.1.freePageCount = numPages

theorem Holds.safe (h : Holds n base memSize s ts) {size : Nat}
    (hsize : n * vmemPageSize ≤ size) : Safe base size n s := by
  refine ⟨(ts.filter fun t : Block => t.mark = .used).map (block base), h.live_eq, ?_, ?_, ?_,
    h.rep.allPages⟩
  · refine List.pairwise_map.mpr ((h.rep.covers.pairwise.filter _).imp fun {t u} htu => ?_)
    simp only [block, Tile.stop, vmemPageSize] at htu ⊢
    omega
  · intro b hb
    obtain ⟨t, ht, rfl⟩ := List.mem_map.mp hb
    obtain ⟨h0, hle, -⟩ := h.rep.bounds (List.mem_filter.mp ht).1
    simp only [block, vmemPageSize] at hsize ⊢
    omega
  · rw [h.rep.allocCount, List.map_map]
    rfl

/-! ## Everything given back -/

/-- A balanced tree with one item is its node. -/
theorem SearchTree.eq_leaf {t : Tree Nat Nat} (ht : SearchTree t) {x : Nat × Nat}
    (h : bag t = {x}) : t = Tree.mk x.1 x.2 nil nil := by
  have hitems : t.items = [x] := List.perm_singleton.mp (Multiset.coe_eq_coe.mp h)
  match t, ht.avl with
  | nil, _ => cases hitems
  | node th k v l r, havl =>
    obtain ⟨hl, rfl, hr⟩ : l.items = [] ∧ (k, v) = x ∧ r.items = [] := by
      simpa [List.append_eq_singleton_iff] using hitems
    rw [havl.eq_mk, items_eq_nil.mp hl, items_eq_nil.mp hr]

/-- With no block held there is one free tile. -/
theorem tiles_of_empty (hcovers : Covers 0 ts n) (hc : Coalesced .free ts) (hn : 0 < n)
    (hs : ∀ t ∈ ts, t.mark ≠ .limbo) (hnone : tileBag .used (block base) ts = 0) :
    ts = [⟨0, n, .free⟩] := by
  have hfree : ∀ t ∈ ts, t.mark = .free := by
    intro t ht
    cases hm : t.mark with
    | free => rfl
    | limbo => exact absurd hm (hs t ht)
    | used =>
      have hmem : block base t ∈ tileBag .used (block base) ts := mem_tileBag.mpr ⟨t, ht, hm, rfl⟩
      rw [hnone] at hmem
      exact absurd hmem (Multiset.notMem_zero _)
  match ts, hcovers with
  | [], h0 => exact absurd (show 0 = n from h0) hn.ne
  | [⟨start, len, mark⟩], ⟨h0, _, hend⟩ =>
    obtain rfl : mark = .free := hfree ⟨start, len, mark⟩ (by simp)
    simp only at h0
    simp only [Covers, Tile.stop] at hend
    rw [h0, show len = n by omega]
  | t :: u :: ts, _ =>
    rcases (List.isChain_cons_cons.mp hc).1 with hmark | hmark
    · exact absurd (hfree t (by simp)) hmark
    · exact absurd (hfree u (by simp)) hmark

theorem Holds.eq_of_empty (h : Holds n base memSize s [⟨0, n, .free⟩]) {s' : VideoMm × Live}
    (h' : Holds n base memSize s' [⟨0, n, .free⟩]) : s.1 = s'.1 := by
  have hfree := h.rep.freeTree.eq_leaf (h.rep.freeBag.trans rfl)
  have hfree' := h'.rep.freeTree.eq_leaf (h'.rep.freeBag.trans rfl)
  have halloc := bag_eq_zero.mp (h.rep.allocBag.trans rfl)
  have halloc' := bag_eq_zero.mp (h'.rep.allocBag.trans rfl)
  have hcount := h.rep.allocCount.trans h'.rep.allocCount.symm
  have hboth := h.rep.allPages.trans h'.rep.allPages.symm
  refine VideoMm.ext (hfree.trans hfree'.symm) (halloc.trans halloc'.symm) ?_
    (h.rep.numPages_eq.trans h'.rep.numPages_eq.symm) (h.baseAddr_eq.trans h'.baseAddr_eq.symm)
    (h.memSize_eq.trans h'.memSize_eq.symm) (by omega) hcount
  refine List.ext_getElem? fun i => ?_
  by_cases hi : i < n
  · have hget := h.rep.pages ⟨0, n, .free⟩ (by simp) (by simp) i hi
    have hget' := h'.rep.pages ⟨0, n, .free⟩ (by simp) (by simp) i hi
    rw [Nat.zero_add] at hget hget'
    rw [hget, hget']
  · rw [List.getElem?_eq_none (by rw [h.rep.length_eq]; omega),
      List.getElem?_eq_none (by rw [h'.rep.length_eq]; omega)]

/-! ## What holds of all runs -/

section

variable {addr size : UInt64} (hsize : size.toNat < 2 ^ 31)
  (hroom : addr.toNat + size.toNat + vmemPageSize ≤ 2 ^ 64) (hinit : vmemInit addr size = some mm)

include hsize hroom hinit

/-- Any sequence of calls runs without a page outside the list, and at every moment the blocks held lie
apart and in the `size` bytes from `addr`, rounded up to a page, on, and the counters add up. -/
theorem vmem_runs_safe (ops : List VmmOp) : ∃ s, run vmmStep (mm, 0) ops = some s ∧
    Safe (pagesFor addr.toNat * vmemPageSize) size.toNat mm.numPages s := by
  obtain ⟨n, -, hn, hbase, h⟩ := vmemInit_holds hsize hroom hinit
  obtain ⟨s, hrun, ts, hs⟩ := run_total vmmStep_holds ⟨_, h⟩ ops
  rw [← hbase, h.rep.numPages_eq]
  exact ⟨s, hrun, hs.safe hn⟩

/-- After any sequence of calls, every call answers as the allocator does that knows only the blocks
held: it allocates the best fit, fails only when no free stretch is long enough, and frees just what
is held. -/
theorem vmem_runs_allowed {ops : List VmmOp} {s : VideoMm × Live}
    (hrun : run vmmStep (mm, 0) ops = some s) (op : VmmOp) : ∃ mm' res,
      vmmCall s.1 op = some (mm', res) ∧ Allowed mm.baseAddr mm.numPages.toNat s.2 op res := by
  obtain ⟨n, -, -, -, h⟩ := vmemInit_holds hsize hroom hinit
  obtain ⟨ts, hs⟩ := holds_of_run h hrun
  obtain ⟨mm', res, -, hcall, hallowed, -⟩ := hs.call op
  rw [h.rep.numPages_eq, Int.toNat_natCast]
  exact ⟨mm', res, hcall, hallowed⟩

/-- When all blocks have been given back, in whatever order they came and went, nothing of it is left:
the state is the one the allocator started in. -/
theorem vmem_runs_restored {ops : List VmmOp} {mm' : VideoMm}
    (hrun : run vmmStep (mm, 0) ops = some (mm', 0)) : mm' = mm := by
  obtain ⟨n, hn, -, -, h⟩ := vmemInit_holds hsize hroom hinit
  obtain ⟨ts, hs⟩ := holds_of_run h hrun
  obtain rfl := tiles_of_empty hs.rep.covers hs.rep.coalesced hn hs.rep.settled hs.live_eq.symm
  exact hs.eq_of_empty h

end

/-- A region that does not start at a page. -/
theorem vmem_runs_safe_unaligned : ∃ mm s, vmemInit 0x80001000 0x18000 = some mm ∧
    run vmmStep (mm, 0) [.alloc 1, .alloc 0x4001, .free 0x80004000] = some s ∧
    Safe 0x80004000 0x18000 mm.numPages s := by
  have hsome : (vmemInit 0x80001000 0x18000).isSome = true := by decide +kernel
  obtain ⟨mm, hinit⟩ := Option.isSome_iff_exists.mp hsome
  obtain ⟨s, hrun, hsafe⟩ := vmem_runs_safe (by decide) (by decide) hinit
    [.alloc 1, .alloc 0x4001, .free 0x80004000]
  exact ⟨mm, s, hinit, hrun, hsafe⟩

/-- Of six pages the first one and the last two are free when the call comes. -/
theorem vmem_runs_allowed_six_pages : ∃ mm s mm' res, vmemInit 0x80000000 0x18000 = some mm ∧
    run vmmStep (mm, 0) [.alloc 1, .alloc 0x8000, .alloc 1, .free 0x80000000] = some s ∧
    vmmCall s.1 (.alloc 0x4001) = some (mm', res) ∧
    Allowed mm.baseAddr mm.numPages.toNat s.2 (.alloc 0x4001) res := by
  have hsome : ((vmemInit 0x80000000 0x18000).bind fun mm =>
      run vmmStep (mm, 0) [.alloc 1, .alloc 0x8000, .alloc 1, .free 0x80000000]).isSome = true := by
    decide +kernel
  obtain ⟨s, hs⟩ := Option.isSome_iff_exists.mp hsome
  obtain ⟨mm, hinit, hrun⟩ := Option.bind_eq_some_iff.mp hs
  obtain ⟨mm', res, hcall, hallowed⟩ := vmem_runs_allowed (by decide) (by decide) hinit hrun
    (.alloc 0x4001)
  exact ⟨mm, s, mm', res, hinit, hrun, hcall, hallowed⟩

theorem vmem_runs_restored_two_pages : ∃ mm mm', vmemInit 0x80000000 0x8000 = some mm ∧
    run vmmStep (mm, 0) [.alloc 1, .alloc 1, .free 0x80000000, .free 0x80004000] =
      some (mm', 0) ∧ mm' = mm := by
  have hempty : ((vmemInit 0x80000000 0x8000).bind fun mm =>
      (run vmmStep (mm, 0) [.alloc 1, .alloc 1, .free 0x80000000, .free 0x80004000]).map
        Prod.snd) = some 0 := by decide +kernel
  obtain ⟨mm, hinit, hrun⟩ := Option.bind_eq_some_iff.mp hempty
  obtain ⟨⟨mm', live⟩, hrun, rfl⟩ := Option.map_eq_some_iff.mp hrun
  exact ⟨mm, mm', hinit, hrun, vmem_runs_restored (by decide) (by decide) hinit hrun⟩

end MediaModules.Encoder
