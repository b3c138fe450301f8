import Mathlib.Algebra.Order.Ring.Int
import MediaModules.Encoder.VmmTree

/-!
# The memory allocator of the encoder

`vmm.h` divides a physical region into pages of 16 KiB. A block is described by its first and its last
page; the free blocks are in one tree, by size and first page, the others in another, by address.
-/
namespace MediaModules.Encoder

open MediaModules.Lib.AvlTree
open MediaModules.Lib.AvlTree.Tree

/-! ## Data -/

/-- `VMEM_PAGE_SIZE`. -/
def vmemPageSize : Nat := 16 * 1024

/-- `struct page_t`, less its own number and address, which never change. -/
structure Page where
  used : Bool
  allocPages : Int
  firstPageno : Int
  deriving Repr, DecidableEq

/-- `struct video_mm_t`. A tree node refers to its page by the number. -/
@[ext]
structure VideoMm where
  freeTree : Tree Nat Nat
  allocTree : Tree Nat Nat
  pageList : List Page
  numPages : Int
  baseAddr : Nat
  memSize : Nat
  freePageCount : Int
  allocPageCount : Int
  deriving Repr, DecidableEq

/-- `MAKE_KEY`: the first argument converted to 64 bits, signed when it was signed. -/
def makeKey (a : Int) (b : Nat) : Nat := (a * 2 ^ 32 % 2 ^ 64).toNat ||| b

/-- `KEY_TO_VALUE`, stored in an `s32`. -/
def keyToValue (key : Nat) : Int := Int.bmod (key >>> 32) (2 ^ 32)

/-- The address of a page: the offset is a product of two `int`. -/
def pageAddr (base : Nat) (pageno : Int) : Nat :=
  ((base + Int.bmod (pageno * vmemPageSize) (2 ^ 32)) % 2 ^ 64).toNat

/-! ## Pages -/

/-- `&mm->page_list[i]`, which must be a page of the list. -/
def pageIndex (pages : List Page) (i : Int) : Option Nat :=
  if 0 ≤ i ∧ i < pages.length then some i.toNat else none

def readPage (pages : List Page) (i : Int) : Option Page :=
  (pageIndex pages i).bind fun k => pages[k]?

def writePage (pages : List Page) (i : Int) (f : Page → Page) : Option (List Page) :=
  (pageIndex pages i).map fun k => pages.modify k f

/-- The loop of `set_blocks_free` and `set_blocks_alloc`, `n` pages from `i` on. -/
def clearPages (used : Bool) : Nat → Int → List Page → Option (List Page)
  | 0, _, pages => some pages
  | n + 1, i, pages => do
    let pages ← writePage pages i fun _ => ⟨used, 0, -1⟩
    clearPages used n (i + 1) pages

/-- What the two functions write to the pages of a block. -/
def setPages (used : Bool) (pageno npages : Int) (pages : List Page) : Option (List Page) := do
  let lastPageno := pageno + npages - 1
  let pages ← clearPages used npages.toNat pageno pages
  let pages ← writePage pages pageno fun page => { page with allocPages := npages }
  writePage pages lastPageno fun page => { page with firstPageno := pageno }

/-- `set_blocks_free`. -/
def setBlocksFree (pageno npages : Int) (mm : VideoMm) : Option VideoMm :=
  if mm.numPages ≤ pageno + npages - 1 then some mm
  else do
    let pages ← setPages false pageno npages mm.pageList
    let page ← pageIndex pages pageno
    some { mm with
      pageList := pages
      freeTree := avltreeInsert mm.freeTree (makeKey npages page) page }

/-- `set_blocks_alloc`. -/
def setBlocksAlloc (pageno npages : Int) (mm : VideoMm) : Option VideoMm :=
  if mm.numPages ≤ pageno + npages - 1 then some mm
  else do
    let pages ← setPages true pageno npages mm.pageList
    let page ← pageIndex pages pageno
    some { mm with
      pageList := pages
      allocTree := avltreeInsert mm.allocTree (makeKey (pageAddr mm.baseAddr page) 0) page }

/-! ## The calls -/

/-- `vmem_init`. A region without a page has no page list, and the call fails. -/
def vmemInit (addr size : UInt64) : Option VideoMm :=
  let baseAddr := (addr + (16 * 1024 - 1)) &&& ~~~(16 * 1024 - 1)
  let memSize := size &&& ~~~(16 * 1024)
  let numPages := Int.bmod (memSize.toNat / vmemPageSize) (2 ^ 32)
  if numPages ≤ 0 then none
  else
    setBlocksFree 0 numPages
      { freeTree := nil
        allocTree := nil
        pageList := List.replicate numPages.toNat ⟨false, 0, -1⟩
        numPages := numPages
        baseAddr := baseAddr.toNat
        memSize := memSize.toNat
        freePageCount := numPages
        allocPageCount := 0 }

/-- The number of pages for a size, as an `s32`. -/
def sizeToPages (size : Int) : Int :=
  (Int.bmod (size + vmemPageSize - 1) (2 ^ 32)).tdiv vmemPageSize

/-- `vmem_alloc`: no address stands for -1. -/
def vmemAlloc (size : Int) (mm : VideoMm) : Option (VideoMm × Option Nat) :=
  if size ≤ 0 then some (mm, none)
  else
    let npages := sizeToPages size
    let (freeTree, found) := removeApproxValue mm.freeTree (makeKey npages 0)
    let mm := { mm with freeTree := freeTree }
    match found with
    | none => some (mm, none)
    | some (key, allocPageno) => do
      let freeSize := keyToValue key
      let mm ← setBlocksAlloc allocPageno npages mm
      let mm ← (if npages ≠ freeSize then
          setBlocksFree (allocPageno + npages) (freeSize - npages) mm
        else some mm)
      some ({ mm with
        allocPageCount := mm.allocPageCount + npages
        freePageCount := mm.freePageCount - npages }, some (pageAddr mm.baseAddr allocPageno))

/-- The first page and the size of the free block before a page; no size stands for -1. -/
def prevFree (mm : VideoMm) (pageno : Int) : Option (Int × Int) :=
  if 0 ≤ pageno - 1 then do
    let last ← readPage mm.pageList (pageno - 1)
    if last.used then some (pageno - 1, -1)
    else
      let first ← readPage mm.pageList last.firstPageno
      some (last.firstPageno, first.allocPages)
  else some (pageno - 1, -1)

/-- The first page and the size of the free block from a page on. -/
def nextFree (mm : VideoMm) (pageno : Int) : Option (Int × Int) :=
  let pageno := if pageno = mm.numPages then -1 else pageno
  if 0 ≤ pageno then do
    let first ← readPage mm.pageList pageno
    if first.used then some (pageno, -1) else some (pageno, first.allocPages)
  else some (pageno, -1)

/-- A neighbour taken out of the free tree: the tree left, and the page of the node, or `none` when the
node is not there. -/
def takeFree (mm : VideoMm) (block : Int × Int) : VideoMm × Option Nat :=
  let (freeTree, found) := avltreeRemove mm.freeTree (makeKey block.2 block.1.toNat)
  ({ mm with freeTree := freeTree }, found.map Prod.snd)

/-- `vmem_free`, the free block before: where the merged block starts and its size, or `none` when the
node is not there. -/
def mergePrev (prev : Int × Int) (pageno size : Int) (mm : VideoMm) :
    Option (VideoMm × Option (Int × Int)) :=
  if 0 ≤ prev.2 then
    match takeFree mm prev with
    | (mm, none) => some (mm, none)
    | (mm, some first) => do
      let page ← readPage mm.pageList first
      some (mm, some ((first : Int), size + page.allocPages))
  else some (mm, some (pageno, size))

/-- `vmem_free`, the free block behind: the size of the merged block. -/
def mergeNext (next : Int × Int) (size : Int) (mm : VideoMm) : Option (VideoMm × Option Int) :=
  if 0 ≤ next.2 then
    match takeFree mm next with
    | (mm, none) => some (mm, none)
    | (mm, some first) => do
      let page ← readPage mm.pageList first
      some (mm, some (size + page.allocPages))
  else some (mm, some size)

/-- `vmem_free`: `true` for 0. -/
def vmemFree (ptr : Nat) (mm : VideoMm) : Option (VideoMm × Bool) :=
  let (allocTree, found) := avltreeRemove mm.allocTree (makeKey ptr 0)
  let mm := { mm with allocTree := allocTree }
  match found with
  | none => some (mm, false)
  | some (_, pageno) => do
    let page ← readPage mm.pageList pageno
    let freePageSize := page.allocPages
    let prev ← prevFree mm pageno
    let next ← nextFree mm (pageno + page.allocPages)
    match ← mergePrev prev pageno freePageSize mm with
    | (mm, none) => some (mm, false)
    | (mm, some (mergePageNo, mergePageSize)) =>
      match ← mergeNext next mergePageSize mm with
      | (mm, none) => some (mm, false)
      | (mm, some mergePageSize) => do
        let pages ← writePage mm.pageList pageno fun page =>
          { page with allocPages := 0, firstPageno := -1 }
        let mm ← setBlocksFree mergePageNo mergePageSize { mm with pageList := pages }
        some ({ mm with
          allocPageCount := mm.allocPageCount - freePageSize
          freePageCount := mm.freePageCount + freePageSize }, true)

end MediaModules.Encoder
