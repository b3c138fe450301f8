import Mathlib.Tactic.Common
import Mathlib.Order.Lattice
import Mathlib.Data.List.Pairwise

/-!
# Search trees with stored heights

Every node stores its height. The items of a tree are what it holds in order; a tree is `Avl` when
the heights are right and the two sides of every node differ by at most one.
-/
namespace MediaModules.Lib.AvlTree

variable {κ ν : Type*}

inductive Tree (κ ν : Type*)
  | nil
  | node (height : Int) (key : κ) (value : ν) (left right : Tree κ ν)
  deriving Repr, DecidableEq

namespace Tree

/-- The stored height; the empty tree has height -1. -/
def height : Tree κ ν → Int
  | nil => -1
  | node h _ _ _ _ => h

def left : Tree κ ν → Tree κ ν
  | nil => nil
  | node _ _ _ l _ => l

def right : Tree κ ν → Tree κ ν
  | nil => nil
  | node _ _ _ _ r => r

def isNil : Tree κ ν → Bool
  | nil => true
  | node _ _ _ _ _ => false

/-- What the tree holds, in order. -/
def items : Tree κ ν → List (κ × ν)
  | nil => []
  | node _ k v l r => l.items ++ (k, v) :: r.items

/-- A node with the height its children give it. -/
def mk (k : κ) (v : ν) (l r : Tree κ ν) : Tree κ ν := node (max l.height r.height + 1) k v l r

def Avl : Tree κ ν → Prop
  | nil => True
  | node h _ _ l r => h = max l.height r.height + 1 ∧ r.height ≤ l.height + 1 ∧
      l.height ≤ r.height + 1 ∧ l.Avl ∧ r.Avl

@[simp] theorem height_nil : (nil : Tree κ ν).height = -1 := rfl
@[simp] theorem items_nil : (nil : Tree κ ν).items = [] := rfl
@[simp] theorem isNil_nil : (nil : Tree κ ν).isNil = true := rfl

section

variable (h : Int) (k : κ) (v : ν) (l r : Tree κ ν)

@[simp] theorem height_node : (node h k v l r).height = h := rfl
@[simp] theorem left_node : (node h k v l r).left = l := rfl
@[simp] theorem right_node : (node h k v l r).right = r := rfl
@[simp] theorem isNil_node : (node h k v l r).isNil = false := rfl
@[simp] theorem items_node : (node h k v l r).items = l.items ++ (k, v) :: r.items := rfl
@[simp] theorem height_mk : (mk k v l r).height = max l.height r.height + 1 := rfl
@[simp] theorem items_mk : (mk k v l r).items = l.items ++ (k, v) :: r.items := rfl

end

variable {h : Int} {k : κ} {v : ν} {l r t : Tree κ ν}

theorem avl_mk : (mk k v l r).Avl ↔
    r.height ≤ l.height + 1 ∧ l.height ≤ r.height + 1 ∧ l.Avl ∧ r.Avl := by
  simp [mk, Avl]

theorem Avl.eq_mk (ht : (node h k v l r).Avl) : node h k v l r = mk k v l r := by
  rw [mk, ← ht.1]

theorem items_eq_nil : t.items = [] ↔ t = nil := by
  cases t <;> simp

theorem mem_node {x : κ × ν} :
    x ∈ (node h k v l r).items ↔ x ∈ l.items ∨ x = (k, v) ∨ x ∈ r.items := by
  simp

theorem Avl.neg_one_le (ht : t.Avl) : -1 ≤ t.height := by
  induction t with
  | nil => exact le_rfl
  | node h k v l r ihl ihr =>
    have hl := ihl ht.2.2.2.1
    have hh := ht.1
    rw [height_node]
    omega

/-! ## Order -/

/-- The keys are in order, those of the left side before, those of the right side after the node's. -/
def Ordered [LE κ] (t : Tree κ ν) : Prop := t.items.Pairwise fun x y => x.1 ≤ y.1

theorem ordered_node [Preorder κ] : (node h k v l r).Ordered ↔
    l.Ordered ∧ r.Ordered ∧ (∀ x ∈ l.items, x.1 ≤ k) ∧ ∀ y ∈ r.items, k ≤ y.1 := by
  simp only [Ordered, items_node, List.pairwise_append, List.pairwise_cons, List.mem_cons]
  constructor
  · rintro ⟨hl, ⟨hk, hr⟩, hlr⟩
    exact ⟨hl, hr, fun x hx => hlr x hx _ (Or.inl rfl), hk⟩
  · rintro ⟨hl, hr, hlk, hkr⟩
    refine ⟨hl, ⟨hkr, hr⟩, fun x hx y hy => ?_⟩
    rcases hy with rfl | hy
    · exact hlk x hx
    · exact (hlk x hx).trans (hkr y hy)

end Tree

end MediaModules.Lib.AvlTree
