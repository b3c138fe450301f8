import Mathlib.Data.List.Rotate

/-!
# Taking turns

The members of a list take turns: after one of them comes the next, and after the last one the first. A
search for the next one that is ready can go over the list twice, behind the one that had the last turn
and then from the head up to it.
-/
namespace MediaModules.Lib.RoundRobin

variable {α : Type*} [DecidableEq α] {l : List α} {a : α}

/-- The order of the turns after the last one; from the head when there was none. -/
def inTurn (l : List α) : Option α → List α
  | none => l
  | some a => l.rotate (l.idxOf a + 1)

@[simp] theorem mem_inTurn {b : α} {last : Option α} : b ∈ inTurn l last ↔ b ∈ l := by
  cases last with
  | none => exact Iff.rfl
  | some a => exact List.mem_rotate

/-- The members behind one of them. -/
def behind (l : List α) (a : α) : List α := (l.dropWhile fun b => b ≠ a).tail

/-- The members from the head up to the last one, with it. -/
def upTo : List α → Option α → List α
  | [], _ => []
  | b :: l, last => b :: if last = some b then [] else upTo l last

@[simp] theorem upTo_none : ∀ l : List α, upTo l none = l
  | [] => rfl
  | b :: l => congrArg (b :: ·) (upTo_none l)

theorem behind_eq_drop : ∀ l : List α, behind l a = l.drop (l.idxOf a + 1)
  | [] => rfl
  | b :: l => by
    by_cases hb : b = a
    · simp [behind, hb]
    · rw [List.idxOf_cons_ne l hb, List.drop_succ_cons, ← behind_eq_drop l]
      simp [behind, hb]

theorem upTo_eq_take : ∀ l : List α, upTo l (some a) = l.take (l.idxOf a + 1)
  | [] => rfl
  | b :: l => by
    by_cases hb : b = a
    · simp [upTo, hb]
    · rw [List.idxOf_cons_ne l hb, List.take_succ_cons, ← upTo_eq_take l, upTo,
        if_neg fun h => hb (Option.some.inj h).symm]

/-- The turns after a member are those behind it and then those from the head. -/
theorem inTurn_some (ha : a ∈ l) : inTurn l (some a) = behind l a ++ upTo l (some a) := by
  rw [behind_eq_drop, upTo_eq_take, inTurn, List.rotate_eq_drop_append_take]
  exact List.idxOf_lt_length_of_mem ha

end MediaModules.Lib.RoundRobin
