import Mathlib.Data.Multiset.Basic
import MediaModules.Lib.AvlTree

/-!
# The trees of the encoder's memory allocator

The AVL trees of `vmm.h` (and of its copy `vmm_multi.h`). A tree that a pointer refers to is the tree
itself, NULL is the empty tree, and `found` is what the key and the page of the node found are.
-/
namespace MediaModules.Encoder

open MediaModules.Lib.AvlTree
open MediaModules.Lib.AvlTree.Tree

variable {κ ν : Type*}

/-! ## Rotations -/

/-- `get_balance_factor`. -/
def getBalanceFactor : Tree κ ν → Int
  | nil => 0
  | node _ _ _ l r => r.height - l.height

/-- `rotation_left`. -/
def rotationLeft : Tree κ ν → Tree κ ν
  | nil => nil
  | node h k v l nil => node h k v l nil
  | node _ k v l (node _ rk rv rl rr) => mk rk rv (mk k v l rl) rr

/-- `rotation_right`, which returns NULL where `rotation_left` returns the tree. -/
def rotationRight : Tree κ ν → Tree κ ν
  | nil => nil
  | node _ _ _ nil _ => nil
  | node _ k v (node _ lk lv ll lr) r => mk lk lv ll (mk k v lr r)

/-- `do_balance`. The last cases are those of an invalid balancing factor. -/
def doBalance : Tree κ ν → Tree κ ν
  | nil => nil
  | node h k v l r =>
    if 2 ≤ r.height - l.height then
      if getBalanceFactor r = 1 ∨ getBalanceFactor r = 0 then rotationLeft (node h k v l r)
      else if getBalanceFactor r = -1 then rotationLeft (node h k v l (rotationRight r))
      else nil
    else if r.height - l.height ≤ -2 then
      if getBalanceFactor l = -1 ∨ getBalanceFactor l = 0 then rotationRight (node h k v l r)
      else if getBalanceFactor l = 1 then rotationRight (node h k v (rotationLeft l) r)
      else nil
    else node h k v l r

/-- The height of a node recomputed. -/
def fixHeight : Tree κ ν → Tree κ ν
  | nil => nil
  | node _ k v l r => mk k v l r

/-! ## Taking nodes out -/

/-- `enum rotation_dir_t`. -/
inductive RotationDir
  | left
  | right
  deriving Repr, DecidableEq

/-- `unlink_end_node`: the tree left and the node found. A tree without a further node in the
direction is itself the node found, and NULL is returned whatever is on its other side. -/
def unlinkEndNode (dir : RotationDir) : Tree κ ν → Tree κ ν × Tree κ ν
  | nil => (nil, nil)
  | node h k v l r =>
    match dir with
    | .left =>
      if l.isNil then (nil, node h k v l r)
      else
        let (rest, found) := unlinkEndNode .left l
        let rest := if rest.isNil then found.right else rest
        (doBalance (mk k v rest r), found)
    | .right =>
      if r.isNil then (nil, node h k v l r)
      else
        let (rest, found) := unlinkEndNode .right r
        let rest := if rest.isNil then found.left else rest
        (doBalance (mk k v l rest), found)

/-- The node with the given children. -/
def relink (l r : Tree κ ν) : Tree κ ν → Tree κ ν
  | nil => nil
  | node _ k v _ _ => mk k v l r

/-- `do_unlink`. In the last case the node found is a child of the root and keeps its own child on
that side. -/
def doUnlink : Tree κ ν → Tree κ ν
  | nil => nil
  | node _ _ _ l r =>
    let (rest, found) := unlinkEndNode .left r
    if !rest.isNil then relink l rest found
    else
      let (rest, found) := unlinkEndNode .right l
      if !rest.isNil then relink rest r found
      else if !r.isNil then relink l r.right r
      else relink l.left r l

section

variable [LinearOrder κ]

/-! ## Insertion and removal by key -/

/-- `avltree_insert`: the height is set after balancing. -/
def avltreeInsert (t : Tree κ ν) (key : κ) (page : ν) : Tree κ ν :=
  match t with
  | nil => fixHeight (doBalance (mk key page nil nil))
  | node h k v l r =>
    if k ≤ key then fixHeight (doBalance (node h k v l (avltreeInsert r key page)))
    else fixHeight (doBalance (node h k v (avltreeInsert l key page) r))

/-- `avltree_remove`: the tree left and the node found. -/
def avltreeRemove (t : Tree κ ν) (key : κ) : Tree κ ν × Option (κ × ν) :=
  match t with
  | nil => (nil, none)
  | node h k v l r =>
    if key = k then (doBalance (fixHeight (doUnlink (node h k v l r))), some (k, v))
    else if k < key then
      let (rest, found) := avltreeRemove r key
      (doBalance (mk k v l rest), found)
    else
      let (rest, found) := avltreeRemove l key
      (doBalance (mk k v rest r), found)

/-- `remove_approx_value`: the least key that is not below `key`. -/
def removeApproxValue (t : Tree κ ν) (key : κ) : Tree κ ν × Option (κ × ν) :=
  match t with
  | nil => (nil, none)
  | node h k v l r =>
    if key = k then (doBalance (fixHeight (doUnlink (node h k v l r))), some (k, v))
    else if k < key then
      let (rest, found) := removeApproxValue r key
      (doBalance (mk k v l rest), found)
    else
      match removeApproxValue l key with
      | (rest, none) => (doBalance (fixHeight (doUnlink (node h k v rest r))), some (k, v))
      | (rest, some found) => (doBalance (mk k v rest r), some found)

end

/-! ## Balancing -/

section

variable {k : κ} {v : ν} {l r t : Tree κ ν}

/-- What balancing a node over two balanced sides must give. -/
structure Rebalanced (l : Tree κ ν) (k : κ) (v : ν) (r t : Tree κ ν) : Prop where
  avl : t.Avl
  items_eq : t.items = l.items ++ (k, v) :: r.items
  height : t.height = max l.height r.height + 1 ∨ t.height = max l.height r.height ∧
    (r.height = l.height + 2 ∨ l.height = r.height + 2)

/-- The right side is two higher than the left one. -/
theorem doBalance_right (hl : l.Avl) (hr : r.Avl) (h : r.height = l.height + 2) :
    Rebalanced l k v r (doBalance (mk k v l r)) := by
  have hl0 := hl.neg_one_le
  match r with
  | nil => simp at h; omega
  | node rh rk rv rl rr =>
    obtain ⟨hrh, h1, h2, hrl, hrr⟩ := hr
    rw [height_node] at h
    have hdiff : 2 ≤ (node rh rk rv rl rr).height - l.height := by rw [height_node]; omega
    by_cases hflat : rl.height ≤ rr.height
    · -- One rotation: the right grandchild is as high as the left one, or higher.
      have hfac : getBalanceFactor (node rh rk rv rl rr) = 1 ∨
          getBalanceFactor (node rh rk rv rl rr) = 0 := by
        simp only [getBalanceFactor]
        omega
      rw [mk, doBalance, if_pos hdiff, if_pos hfac]
      simp only [rotationLeft]
      refine ⟨avl_mk.mpr ⟨?_, ?_, avl_mk.mpr ⟨?_, ?_, hl, hrl⟩, hrr⟩, by simp, ?_⟩
      all_goals
        try simp only [height_mk, height_node]
        omega
    · -- Two rotations: the left grandchild comes to the root.
      have hfac : getBalanceFactor (node rh rk rv rl rr) = -1 := by
        simp only [getBalanceFactor]
        omega
      cases rl with
      | nil => have := hrr.neg_one_le; simp at hflat; omega
      | node lh lk lv ll lr =>
        obtain ⟨hlh, h3, h4, hll, hlr⟩ := hrl
        rw [height_node] at hrh h1 h2 hflat
        rw [mk, doBalance, if_pos hdiff, if_neg (by omega), if_pos hfac]
        simp only [rotationRight, mk, rotationLeft]
        refine ⟨⟨rfl, ?_, ?_, ⟨rfl, ?_, ?_, hl, hll⟩, rfl, ?_, ?_, hlr, hrr⟩, by simp, ?_⟩
        all_goals
          try simp only [height_node]
          omega

/-- The left side is two higher than the right one. -/
theorem doBalance_left (hl : l.Avl) (hr : r.Avl) (h : l.height = r.height + 2) :
    Rebalanced l k v r (doBalance (mk k v l r)) := by
  have hr0 := hr.neg_one_le
  match l with
  | nil => simp at h; omega
  | node lh lk lv ll lr =>
    obtain ⟨hlh, h1, h2, hll, hlr⟩ := hl
    rw [height_node] at h
    have hnot : ¬ 2 ≤ r.height - (node lh lk lv ll lr).height := by rw [height_node]; omega
    have hdiff : r.height - (node lh lk lv ll lr).height ≤ -2 := by rw [height_node]; omega
    by_cases hflat : lr.height ≤ ll.height
    · have hfac : getBalanceFactor (node lh lk lv ll lr) = -1 ∨
          getBalanceFactor (node lh lk lv ll lr) = 0 := by
        simp only [getBalanceFactor]
        omega
      rw [mk, doBalance, if_neg hnot, if_pos hdiff, if_pos hfac]
      simp only [rotationRight]
      refine ⟨avl_mk.mpr ⟨?_, ?_, hll, avl_mk.mpr ⟨?_, ?_, hlr, hr⟩⟩, by simp, ?_⟩
      all_goals
        try simp only [height_mk, height_node]
        omega
    · have hfac : getBalanceFactor (node lh lk lv ll lr) = 1 := by
        simp only [getBalanceFactor]
        omega
      cases lr with
      | nil => have := hll.neg_one_le; simp at hflat; omega
      | node rh rk rv rl rr =>
        obtain ⟨hrh, h3, h4, hrl, hrr⟩ := hlr
        rw [height_node] at hlh h1 h2 hflat
        rw [mk, doBalance, if_neg hnot, if_pos hdiff, if_neg (by omega), if_pos hfac]
        simp only [rotationLeft, mk, rotationRight]
        refine ⟨⟨rfl, ?_, ?_, ⟨rfl, ?_, ?_, hll, hrl⟩, rfl, ?_, ?_, hrr, hr⟩, by simp, ?_⟩
        all_goals
          try simp only [height_node]
          omega

theorem doBalance_avl (ht : t.Avl) : doBalance t = t := by
  match t, ht with
  | nil, _ => rfl
  | node h k v l r, ⟨_, h1, h2, _, _⟩ => rw [doBalance, if_neg (by omega), if_neg (by omega)]

/-- Over balanced sides that differ by two at most, `do_balance` never meets an invalid balancing
factor. -/
theorem doBalance_mk (hl : l.Avl) (hr : r.Avl) (h1 : r.height ≤ l.height + 2)
    (h2 : l.height ≤ r.height + 2) : Rebalanced l k v r (doBalance (mk k v l r)) := by
  by_cases hright : r.height = l.height + 2
  · exact doBalance_right hl hr hright
  by_cases hleft : l.height = r.height + 2
  · exact doBalance_left hl hr hleft
  have ht : (mk k v l r).Avl := avl_mk.mpr ⟨by omega, by omega, hl, hr⟩
  rw [doBalance_avl ht]
  exact ⟨ht, items_mk .., Or.inl (height_mk ..)⟩

@[simp] theorem fixHeight_mk (k : κ) (v : ν) (l r : Tree κ ν) : fixHeight (mk k v l r) = mk k v l r := rfl

@[simp] theorem relink_node (h : Int) (k : κ) (v : ν) (l r l' r' : Tree κ ν) :
    relink l' r' (node h k v l r) = mk k v l' r' := rfl

theorem fixHeight_avl (ht : t.Avl) : fixHeight t = t := by
  cases t with
  | nil => rfl
  | node h k v l r => exact ht.eq_mk.symm

/-- Balancing before the height is set, as `avltree_insert` does, comes to the same. -/
theorem fixHeight_doBalance (h h' : Int) (k : κ) (v : ν) (l r : Tree κ ν) :
    fixHeight (doBalance (node h k v l r)) = fixHeight (doBalance (node h' k v l r)) := by
  have hleft (r : Tree κ ν) :
      fixHeight (rotationLeft (node h k v l r)) = fixHeight (rotationLeft (node h' k v l r)) := by
    cases r <;> rfl
  have hright (l : Tree κ ν) :
      fixHeight (rotationRight (node h k v l r)) = fixHeight (rotationRight (node h' k v l r)) := by
    cases l <;> rfl
  simp only [doBalance]
  split_ifs
  exacts [hleft r, hleft _, rfl, hright l, hright _, rfl, rfl]

/-! ## What is taken out -/

/-- The tree without an item: still balanced and no more than one lower. -/
structure Shrunk (t t' : Tree κ ν) (items : List (κ × ν)) : Prop where
  avl : t'.Avl
  items_eq : t'.items = items
  height_le : t'.height ≤ t.height
  le_height : t.height ≤ t'.height + 1

theorem Shrunk.isNil_eq {t' : Tree κ ν} {a b : List (κ × ν)} {x : κ × ν}
    (h : Shrunk t t' (a ++ x :: b)) : t'.isNil = false := by
  match t', h.items_eq with
  | nil, hitems => simp at hitems
  | node _ _ _ _ _, _ => rfl

theorem Shrunk.refl (ht : t.Avl) : Shrunk t t t.items :=
  ⟨ht, rfl, le_rfl, by omega⟩

/-- A node over sides that have shrunk. -/
theorem doBalance_shrunk {l' r' : Tree κ ν} {a b : List (κ × ν)} {h : Int}
    (ht : (node h k v l r).Avl) (hl : Shrunk l l' a) (hr : Shrunk r r' b) (k' : κ) (v' : ν) :
    Shrunk (node h k v l r) (doBalance (mk k' v' l' r')) (a ++ (k', v') :: b) := by
  obtain ⟨hh, h1, h2, -⟩ := ht
  obtain ⟨hlavl, hlitems, hl1, hl2⟩ := hl
  obtain ⟨hravl, hritems, hr1, hr2⟩ := hr
  have hb := doBalance_mk (k := k') (v := v') hlavl hravl (by omega) (by omega)
  have hheight := hb.height
  refine ⟨hb.avl, by rw [hb.items_eq, hlitems, hritems], ?_, ?_⟩
  all_goals
    simp only [height_node]
    omega

/-- What `unlink_end_node` leaves when the caller has put the other side of the node found in its
place. -/
def remainder (dir : RotationDir) (res : Tree κ ν × Tree κ ν) : Tree κ ν :=
  if res.1.isNil then
    match dir with
    | .left => res.2.right
    | .right => res.2.left
  else res.1

/-- A node is found, and NULL returned only if it is the root. -/
def EndFound (dir : RotationDir) (t : Tree κ ν) (x : κ × ν) (items : List (κ × ν)) : Prop :=
  ∃ h l r, (unlinkEndNode dir t).2 = node h x.1 x.2 l r ∧
    ((unlinkEndNode dir t).1.isNil = true → (unlinkEndNode dir t).2 = t) ∧
    Shrunk t (remainder dir (unlinkEndNode dir t)) items

/-- It is the first one. -/
theorem unlinkEndNode_left {h : Int} (ht : (node h k v l r).Avl) : ∃ x items,
    (node h k v l r).items = x :: items ∧ EndFound .left (node h k v l r) x items := by
  induction l generalizing h k v r with
  | nil =>
    refine ⟨(k, v), r.items, rfl, h, nil, r, rfl, fun _ => rfl, ?_⟩
    obtain ⟨hh, h1, h2, -, hr⟩ := ht
    have hr0 := hr.neg_one_le
    rw [height_nil] at hh h1 h2
    exact ⟨hr, rfl, by rw [height_node]; show r.height ≤ h; omega,
      by rw [height_node]; show h ≤ r.height + 1; omega⟩
  | node lh lk lv ll lr ihl _ =>
    obtain ⟨x, items, hitems, fh, fl, fr, hfound, -, hshrunk⟩ := ihl ht.2.2.2.1
    have hb := doBalance_shrunk ht hshrunk (.refl ht.2.2.2.2) k v
    have hrest : unlinkEndNode .left (node h k v (node lh lk lv ll lr) r) =
        (doBalance (mk k v (remainder .left (unlinkEndNode .left (node lh lk lv ll lr))) r),
          (unlinkEndNode .left (node lh lk lv ll lr)).2) := rfl
    refine ⟨x, items ++ (k, v) :: r.items, by rw [items_node, hitems, List.cons_append], fh, fl, fr,
      by rw [hrest]; exact hfound, fun hnil => ?_, ?_⟩
    · rw [hrest, hb.isNil_eq] at hnil
      cases hnil
    · rw [hrest, remainder, hb.isNil_eq, if_neg Bool.false_ne_true]
      exact hb

/-- It is the last one. -/
theorem unlinkEndNode_right {h : Int} (ht : (node h k v l r).Avl) : ∃ x items,
    (node h k v l r).items = items ++ [x] ∧ EndFound .right (node h k v l r) x items := by
  induction r generalizing h k v l with
  | nil =>
    refine ⟨(k, v), l.items, rfl, h, l, nil, rfl, fun _ => rfl, ?_⟩
    obtain ⟨hh, h1, h2, hl, -⟩ := ht
    have hl0 := hl.neg_one_le
    rw [height_nil] at hh h1 h2
    exact ⟨hl, rfl, by rw [height_node]; show l.height ≤ h; omega,
      by rw [height_node]; show h ≤ l.height + 1; omega⟩
  | node rh rk rv rl rr _ ihr =>
    obtain ⟨x, items, hitems, fh, fl, fr, hfound, -, hshrunk⟩ := ihr ht.2.2.2.2
    have hb := doBalance_shrunk ht (.refl ht.2.2.2.1) hshrunk k v
    have hrest : unlinkEndNode .right (node h k v l (node rh rk rv rl rr)) =
        (doBalance (mk k v l (remainder .right (unlinkEndNode .right (node rh rk rv rl rr)))),
          (unlinkEndNode .right (node rh rk rv rl rr)).2) := rfl
    refine ⟨x, l.items ++ (k, v) :: items,
      by rw [items_node, hitems, List.append_assoc, List.cons_append], fh, fl, fr,
      by rw [hrest]; exact hfound, fun hnil => ?_, ?_⟩
    · rw [hrest, hb.isNil_eq] at hnil
      cases hnil
    · rw [hrest, remainder, hb.isNil_eq, if_neg Bool.false_ne_true]
      exact hb

/-- The last node of the left side takes the place of the root. -/
theorem doUnlink_left {h lh : Int} {lk : κ} {lv : ν} {ll lr : Tree κ ν}
    (ht : (node h k v (node lh lk lv ll lr) r).Avl) (hrest : (unlinkEndNode .left r).1.isNil = true)
    (hdeep : (unlinkEndNode .right (node lh lk lv ll lr)).1.isNil = true → r = nil) :
    Shrunk (node h k v (node lh lk lv ll lr) r)
      (doBalance (fixHeight (doUnlink (node h k v (node lh lk lv ll lr) r))))
      ((node lh lk lv ll lr).items ++ r.items) := by
  obtain ⟨⟨fk, fv⟩, items, hitems, fh, fl, fr, hfound, hroot, hshrunk⟩ :=
    unlinkEndNode_right ht.2.2.2.1
  have hb := doBalance_shrunk ht hshrunk (.refl ht.2.2.2.2) fk fv
  have htree : fixHeight (doUnlink (node h k v (node lh lk lv ll lr) r)) =
      mk fk fv (remainder .right (unlinkEndNode .right (node lh lk lv ll lr))) r := by
    cases hnil : (unlinkEndNode .right (node lh lk lv ll lr)).1.isNil with
    | false => simp [doUnlink, hrest, hnil, hfound, remainder]
    | true =>
      have hself := hroot hnil
      rw [hfound, node.injEq] at hself
      obtain ⟨-, rfl, rfl, rfl, -⟩ := hself
      obtain rfl := hdeep hnil
      simp [doUnlink, hrest, hnil, hfound, remainder]
  rw [htree, hitems, List.append_assoc]
  exact hb

/-- The root taken out: what takes its place is the node next to it in order. -/
theorem doUnlink_shrunk {h : Int} (ht : (node h k v l r).Avl) :
    Shrunk (node h k v l r) (doBalance (fixHeight (doUnlink (node h k v l r))))
      (l.items ++ r.items) := by
  match r with
  | nil =>
    match l with
    | nil =>
      obtain ⟨hh, -⟩ := ht
      rw [height_nil] at hh
      have hnil : doBalance (fixHeight (doUnlink (node h k v (nil : Tree κ ν) nil))) = nil := rfl
      rw [hnil]
      exact ⟨trivial, rfl, by rw [height_node, height_nil]; omega,
        by rw [height_node, height_nil]; omega⟩
    | node _ _ _ _ _ => exact doUnlink_left ht rfl fun _ => rfl
  | node rh rk rv rl rr =>
    obtain ⟨⟨fk, fv⟩, items, hitems, fh, fl, fr, hfound, hroot, hshrunk⟩ :=
      unlinkEndNode_left ht.2.2.2.2
    have hb := doBalance_shrunk ht (.refl ht.2.2.2.1) hshrunk fk fv
    rw [← hitems] at hb
    cases hnil : (unlinkEndNode .left (node rh rk rv rl rr)).1.isNil with
    | false =>
      have htree : fixHeight (doUnlink (node h k v l (node rh rk rv rl rr))) =
          mk fk fv l (remainder .left (unlinkEndNode .left (node rh rk rv rl rr))) := by
        simp [doUnlink, hnil, hfound, remainder]
      rw [htree]
      exact hb
    | true =>
      cases hl : (unlinkEndNode .right l).1.isNil with
      | false =>
        match l, hl with
        | node _ _ _ _ _, hl => exact doUnlink_left ht hnil fun h => by rw [hl] at h; cases h
      | true =>
        have hself := hroot hnil
        rw [hfound, node.injEq] at hself
        obtain ⟨-, rfl, rfl, -, rfl⟩ := hself
        have htree : fixHeight (doUnlink (node h k v l (node rh fk fv rl fr))) =
            mk fk fv l (remainder .left (unlinkEndNode .left (node rh fk fv rl fr))) := by
          simp [doUnlink, hnil, hl, hfound, remainder]
        rw [htree]
        exact hb

/-- A call that looks for a node: the tree as it was, or without the item found. -/
def Taken (t : Tree κ ν) (res : Tree κ ν × Option (κ × ν)) : Prop :=
  match res.2 with
  | none => res.1 = t
  | some x => ∃ a b, t.items = a ++ x :: b ∧ Shrunk t res.1 (a ++ b)

theorem Taken.mem {t' : Tree κ ν} {x : κ × ν} (h : Taken t (t', some x)) : x ∈ t.items := by
  obtain ⟨a, b, hitems, -⟩ := h
  rw [hitems]
  exact List.mem_append_right a List.mem_cons_self

theorem taken_none {h : Int} (ht : (node h k v l r).Avl) :
    Taken (node h k v l r) (doBalance (mk k v l r), none) := by
  show doBalance (mk k v l r) = node h k v l r
  rw [← ht.eq_mk, doBalance_avl ht]

theorem taken_root {h : Int} (ht : (node h k v l r).Avl) :
    Taken (node h k v l r)
      (doBalance (fixHeight (doUnlink (node h k v l r))), some (k, v)) :=
  ⟨l.items, r.items, rfl, doUnlink_shrunk ht⟩

theorem taken_right {h : Int} (ht : (node h k v l r).Avl) {res : Tree κ ν × Option (κ × ν)}
    (hr : Taken r res) : Taken (node h k v l r) (doBalance (mk k v l res.1), res.2) := by
  obtain ⟨r', found⟩ := res
  match found, hr with
  | none, hr =>
    obtain rfl : r' = r := hr
    exact taken_none ht
  | some x, ⟨a, b, hitems, hshrunk⟩ =>
    have hb := doBalance_shrunk ht (.refl ht.2.2.2.1) hshrunk k v
    refine ⟨l.items ++ (k, v) :: a, b, by simp [hitems], ?_⟩
    rwa [List.append_assoc]

theorem taken_left {h : Int} (ht : (node h k v l r).Avl) {res : Tree κ ν × Option (κ × ν)}
    (hl : Taken l res) : Taken (node h k v l r) (doBalance (mk k v res.1 r), res.2) := by
  obtain ⟨l', found⟩ := res
  match found, hl with
  | none, hl =>
    obtain rfl : l' = l := hl
    exact taken_none ht
  | some x, ⟨a, b, hitems, hshrunk⟩ =>
    have hb := doBalance_shrunk ht hshrunk (.refl ht.2.2.2.2) k v
    refine ⟨a, b ++ (k, v) :: r.items, by simp [hitems], ?_⟩
    rwa [← List.append_assoc]

end

/-! ## The calls -/

section

variable [LinearOrder κ] {t : Tree κ ν} (key : κ) (page : ν)

/-- What an insertion must give. -/
structure Inserted (t : Tree κ ν) (key : κ) (page : ν) (t' : Tree κ ν) : Prop where
  avl : t'.Avl
  le_height : t.height ≤ t'.height
  height_le : t'.height ≤ t.height + 1
  items : ∃ a b, t.items = a ++ b ∧ t'.items = a ++ (key, page) :: b ∧ (∀ x ∈ a, x.1 ≤ key) ∧
    ∀ y ∈ b, key < y.1

/-- The item goes behind those with a key not above its own. -/
theorem avltreeInsert_inserted (ht : t.Avl) (hord : t.Ordered) :
    Inserted t key page (avltreeInsert t key page) := by
  induction t with
  | nil =>
    have hleaf : avltreeInsert nil key page = mk key page nil nil := rfl
    rw [hleaf]
    exact ⟨avl_mk.mpr ⟨by simp, by simp, trivial, trivial⟩, by simp, by simp,
      [], [], rfl, rfl, by simp, by simp⟩
  | node h k v l r ihl ihr =>
    obtain ⟨hordl, hordr, hlk, hkr⟩ := ordered_node.mp hord
    obtain ⟨hh, h1, h2, hl, hr⟩ := ht
    rw [avltreeInsert]
    split
    · next hkey =>
      obtain ⟨havl, hlo, hhi, a, b, hab, hins, hle, hlt⟩ := ihr hr hordr
      have hb := doBalance_mk (k := k) (v := v) hl havl (by omega) (by omega)
      have hheight := hb.height
      rw [fixHeight_doBalance, ← mk, fixHeight_avl hb.avl]
      refine ⟨hb.avl, by rw [height_node]; omega, by rw [height_node]; omega,
        l.items ++ (k, v) :: a, b, by simp [hab], by simp [hb.items_eq, hins], fun x hx => ?_, hlt⟩
      rcases List.mem_append.mp hx with hx | hx
      · exact (hlk x hx).trans hkey
      · rcases List.mem_cons.mp hx with rfl | hx
        · exact hkey
        · exact hle x hx
    · next hkey =>
      obtain ⟨havl, hlo, hhi, a, b, hab, hins, hle, hlt⟩ := ihl hl hordl
      have hb := doBalance_mk (k := k) (v := v) havl hr (by omega) (by omega)
      have hheight := hb.height
      have hlt' := not_le.mp hkey
      rw [fixHeight_doBalance, ← mk, fixHeight_avl hb.avl]
      refine ⟨hb.avl, by rw [height_node]; omega, by rw [height_node]; omega,
        a, b ++ (k, v) :: r.items, by simp [hab], by simp [hb.items_eq, hins], hle, fun y hy => ?_⟩
      rcases List.mem_append.mp hy with hy | hy
      · exact hlt y hy
      · rcases List.mem_cons.mp hy with rfl | hy
        · exact hlt'
        · exact hlt'.trans_le (hkr y hy)

theorem avltreeRemove_taken (ht : t.Avl) : Taken t (avltreeRemove t key) := by
  induction t with
  | nil => rfl
  | node h k v l r ihl ihr =>
    rw [avltreeRemove]
    split
    · exact taken_root ht
    · split
      · exact taken_right ht (ihr ht.2.2.2.2)
      · exact taken_left ht (ihl ht.2.2.2.1)

/-- `avltree_remove` finds an item with the key when there is one. -/
theorem avltreeRemove_found (hord : t.Ordered) :
    (∀ x, (avltreeRemove t key).2 = some x → x.1 = key) ∧
      ((avltreeRemove t key).2 = none → ∀ x ∈ t.items, x.1 ≠ key) := by
  induction t with
  | nil => exact ⟨by rintro x ⟨⟩, by simp⟩
  | node h k v l r ihl ihr =>
    obtain ⟨hordl, hordr, hlk, hkr⟩ := ordered_node.mp hord
    rw [avltreeRemove]
    split
    · next hkey => exact ⟨by rintro x ⟨⟩; exact hkey.symm, by rintro ⟨⟩⟩
    · next hkey =>
      split
      · next hlt =>
        refine ⟨(ihr hordr).1, fun hnone x hx => ?_⟩
        rcases mem_node.mp hx with hx | rfl | hx
        · exact ((hlk x hx).trans_lt hlt).ne
        · exact hlt.ne
        · exact (ihr hordr).2 hnone x hx
      · next hlt =>
        have hgt : key < k := lt_of_le_of_ne (not_lt.mp hlt) hkey
        refine ⟨(ihl hordl).1, fun hnone x hx => ?_⟩
        rcases mem_node.mp hx with hx | rfl | hx
        · exact (ihl hordl).2 hnone x hx
        · exact hgt.ne'
        · exact (hgt.trans_le (hkr x hx)).ne'

theorem removeApproxValue_taken (ht : t.Avl) : Taken t (removeApproxValue t key) := by
  induction t with
  | nil => rfl
  | node h k v l r ihl ihr =>
    rw [removeApproxValue]
    split
    · exact taken_root ht
    · split
      · exact taken_right ht (ihr ht.2.2.2.2)
      · have hl := ihl ht.2.2.2.1
        split
        · next rest hres =>
          rw [hres] at hl
          obtain rfl : rest = l := hl
          exact taken_root ht
        · next rest x hres =>
          rw [hres] at hl
          exact taken_left ht hl

/-- `remove_approx_value` finds an item whose key is the least that is not below the key given, when
there is one. -/
theorem removeApproxValue_found (ht : t.Avl) (hord : t.Ordered) :
    (∀ x, (removeApproxValue t key).2 = some x →
      key ≤ x.1 ∧ ∀ y ∈ t.items, key ≤ y.1 → x.1 ≤ y.1) ∧
      ((removeApproxValue t key).2 = none → ∀ x ∈ t.items, x.1 < key) := by
  induction t with
  | nil => exact ⟨by rintro x ⟨⟩, by simp⟩
  | node h k v l r ihl ihr =>
    obtain ⟨hordl, hordr, hlk, hkr⟩ := ordered_node.mp hord
    rw [removeApproxValue]
    split
    · next hkey =>
      subst hkey
      exact ⟨by rintro x ⟨⟩; exact ⟨le_rfl, fun y _ hy => hy⟩, by rintro ⟨⟩⟩
    · next hkey =>
      split
      · next hlt =>
        refine ⟨fun x hx => ⟨((ihr ht.2.2.2.2 hordr).1 x hx).1, fun y hy hle => ?_⟩, fun hnone x hx => ?_⟩
        · rcases mem_node.mp hy with hy | rfl | hy
          · exact absurd (hle.trans (hlk y hy)) (not_le.mpr hlt)
          · exact absurd hle (not_le.mpr hlt)
          · exact ((ihr ht.2.2.2.2 hordr).1 x hx).2 y hy hle
        · rcases mem_node.mp hx with hx | rfl | hx
          · exact (hlk x hx).trans_lt hlt
          · exact hlt
          · exact (ihr ht.2.2.2.2 hordr).2 hnone x hx
      · next hlt =>
        have hgt : key < k := lt_of_le_of_ne (not_lt.mp hlt) hkey
        split
        · next rest hres =>
          have hnone := (ihl ht.2.2.2.1 hordl).2 (by rw [hres])
          refine ⟨?_, by rintro ⟨⟩⟩
          rintro x ⟨⟩
          refine ⟨hgt.le, fun y hy hle => ?_⟩
          rcases mem_node.mp hy with hy | rfl | hy
          · exact absurd hle (not_le.mpr (hnone y hy))
          · exact le_rfl
          · exact hkr y hy
        · next rest x hres =>
          have hfound := (ihl ht.2.2.2.1 hordl).1 x (by rw [hres])
          have htaken := removeApproxValue_taken key ht.2.2.2.1
          rw [hres] at htaken
          have hxk := hlk x htaken.mem
          refine ⟨?_, by rintro ⟨⟩⟩
          rintro x ⟨⟩
          refine ⟨hfound.1, fun y hy hle => ?_⟩
          rcases mem_node.mp hy with hy | rfl | hy
          · exact hfound.2 y hy hle
          · exact hxk
          · exact hxk.trans (hkr y hy)

/-! ## The bag of items -/

/-- A tree between two calls. -/
structure SearchTree (t : Tree κ ν) : Prop where
  avl : t.Avl
  ordered : t.Ordered

/-- The bag of what a tree holds. -/
def bag (t : Tree κ ν) : Multiset (κ × ν) := t.items

omit [LinearOrder κ] in
theorem mem_bag {x : κ × ν} : x ∈ bag t ↔ x ∈ t.items := Multiset.mem_coe

omit [LinearOrder κ] in
theorem bag_eq_zero : bag t = 0 ↔ t = nil := (Multiset.coe_eq_zero _).trans items_eq_nil

theorem SearchTree.insert (ht : SearchTree t) : SearchTree (avltreeInsert t key page) ∧
    bag (avltreeInsert t key page) = (key, page) ::ₘ bag t := by
  obtain ⟨havl, -, -, a, b, hab, hins, hle, hlt⟩ := avltreeInsert_inserted key page
    ht.avl ht.ordered
  have hord := ht.ordered
  rw [Ordered, hab, List.pairwise_append] at hord
  obtain ⟨ha, hb, hcross⟩ := hord
  refine ⟨⟨havl, ?_⟩, ?_⟩
  · rw [Ordered, hins, List.pairwise_append, List.pairwise_cons]
    refine ⟨ha, ⟨fun y hy => (hlt y hy).le, hb⟩, fun x hx y hy => ?_⟩
    rcases List.mem_cons.mp hy with rfl | hy
    · exact hle x hx
    · exact hcross x hx y hy
  · rw [bag, bag, hins, hab, Multiset.cons_coe]
    exact Multiset.coe_eq_coe.mpr List.perm_middle

/-- What a call that looks for a node leaves. -/
theorem SearchTree.taken (ht : SearchTree t) {res : Tree κ ν × Option (κ × ν)} (h : Taken t res) :
    res = (t, none) ∨
      ∃ rest x, res = (rest, some x) ∧ SearchTree rest ∧ bag t = x ::ₘ bag rest := by
  obtain ⟨rest, found⟩ := res
  match found, h with
  | none, h => exact Or.inl (congrArg (·, none) h)
  | some x, ⟨a, b, hitems, hshrunk⟩ =>
    have hord := ht.ordered
    rw [Ordered, hitems] at hord
    refine Or.inr ⟨rest, x, rfl, ⟨hshrunk.avl, ?_⟩, ?_⟩
    · rw [Ordered, hshrunk.items_eq]
      exact hord.sublist ((List.Sublist.refl a).append (List.sublist_cons_self x b))
    · rw [bag, bag, hitems, hshrunk.items_eq, Multiset.cons_coe]
      exact Multiset.coe_eq_coe.mpr List.perm_middle

/-- `avltree_remove` on the bag. -/
theorem SearchTree.remove (ht : SearchTree t) (key : κ) :
    (avltreeRemove t key = (t, none) ∧ ∀ x ∈ bag t, x.1 ≠ key) ∨
      ∃ rest x, avltreeRemove t key = (rest, some x) ∧ SearchTree rest ∧
        bag t = x ::ₘ bag rest ∧ x.1 = key := by
  obtain ⟨hsome, hnone⟩ := avltreeRemove_found key ht.ordered
  rcases ht.taken (avltreeRemove_taken key ht.avl) with hres | ⟨rest, x, hres, htree, hbag⟩
  · rw [hres] at hnone
    exact Or.inl ⟨hres, fun x hx => hnone rfl x (mem_bag.mp hx)⟩
  · rw [hres] at hsome
    exact Or.inr ⟨rest, x, hres, htree, hbag, hsome x rfl⟩

/-- `remove_approx_value` on the bag. -/
theorem SearchTree.removeApprox (ht : SearchTree t) (key : κ) :
    (removeApproxValue t key = (t, none) ∧ ∀ x ∈ bag t, x.1 < key) ∨
      ∃ rest x, removeApproxValue t key = (rest, some x) ∧ SearchTree rest ∧
        bag t = x ::ₘ bag rest ∧ key ≤ x.1 ∧ ∀ y ∈ bag t, key ≤ y.1 → x.1 ≤ y.1 := by
  obtain ⟨hsome, hnone⟩ := removeApproxValue_found key ht.avl ht.ordered
  rcases ht.taken (removeApproxValue_taken key ht.avl) with hres | ⟨rest, x, hres, htree, hbag⟩
  · rw [hres] at hnone
    exact Or.inl ⟨hres, fun x hx => hnone rfl x (mem_bag.mp hx)⟩
  · rw [hres] at hsome
    exact Or.inr ⟨rest, x, hres, htree, hbag, (hsome x rfl).1,
      fun y hy => (hsome x rfl).2 y (mem_bag.mp hy)⟩

/-- An item whose key no other item has is found by it. -/
theorem SearchTree.remove_some (ht : SearchTree t) {x : κ × ν} (hx : x ∈ bag t)
    (huniq : ∀ y ∈ bag t, y.1 = x.1 → y = x) : ∃ rest, avltreeRemove t x.1 = (rest, some x) ∧
      SearchTree rest ∧ bag t = x ::ₘ bag rest := by
  rcases ht.remove x.1 with ⟨-, hno⟩ | ⟨rest, y, hres, htree, hbag, hy⟩
  · exact absurd rfl (hno x hx)
  · obtain rfl := huniq y (by rw [hbag]; exact Multiset.mem_cons_self y _) hy
    exact ⟨rest, hres, htree, hbag⟩

/-! ## Runs -/

/-- The calls made on a tree. -/
inductive TreeOp (κ ν : Type*)
  | insert (key : κ) (page : ν)
  | remove (key : κ)
  | removeApprox (key : κ)

/-- A call: the tree left and the node found. -/
def treeCall (t : Tree κ ν) : TreeOp κ ν → Tree κ ν × Option (κ × ν)
  | .insert key page => (avltreeInsert t key page, none)
  | .remove key => avltreeRemove t key
  | .removeApprox key => removeApproxValue t key

/-- What a call must find among the items and leave of them. -/
def Finds (items : Multiset (κ × ν)) : TreeOp κ ν → Option (κ × ν) → Multiset (κ × ν) → Prop
  | .insert key page, found, rest => found = none ∧ rest = (key, page) ::ₘ items
  | .remove key, none, rest => rest = items ∧ ∀ x ∈ items, x.1 ≠ key
  | .remove key, some x, rest => items = x ::ₘ rest ∧ x.1 = key
  | .removeApprox key, none, rest => rest = items ∧ ∀ x ∈ items, x.1 < key
  | .removeApprox key, some x, rest => items = x ::ₘ rest ∧ key ≤ x.1 ∧
      ∀ y ∈ items, key ≤ y.1 → x.1 ≤ y.1

theorem SearchTree.call (ht : SearchTree t) (op : TreeOp κ ν) : SearchTree (treeCall t op).1 ∧
    Finds (bag t) op (treeCall t op).2 (bag (treeCall t op).1) := by
  cases op with
  | insert key page => exact ⟨(ht.insert key page).1, rfl, (ht.insert key page).2⟩
  | remove key =>
    rw [treeCall]
    rcases ht.remove key with ⟨hres, hno⟩ | ⟨rest, x, hres, htree, hfound⟩
    · rw [hres]
      exact ⟨ht, rfl, hno⟩
    · rw [hres]
      exact ⟨htree, hfound⟩
  | removeApprox key =>
    rw [treeCall]
    rcases ht.removeApprox key with ⟨hres, hno⟩ | ⟨rest, x, hres, htree, hfound⟩
    · rw [hres]
      exact ⟨ht, rfl, hno⟩
    · rw [hres]
      exact ⟨htree, hfound⟩

/-- Whatever was inserted and taken out, from the empty tree on, the tree is ordered and balanced, and
the next call finds what it should of the items there are, and leaves the others. -/
theorem avltree_runs (ops : List (TreeOp κ ν)) (op : TreeOp κ ν) :
    let t := ops.foldl (fun t op => (treeCall t op).1) nil
    t.Ordered ∧ t.Avl ∧ Finds (bag t) op (treeCall t op).2 (bag (treeCall t op).1) := by
  have hrun : SearchTree (ops.foldl (fun t op => (treeCall t op).1) nil) :=
    List.foldlRecOn ops _ ⟨trivial, List.Pairwise.nil⟩ fun _ ht op _ => (ht.call op).1
  exact ⟨hrun.ordered, hrun.avl, (hrun.call op).2⟩

end

end MediaModules.Encoder
