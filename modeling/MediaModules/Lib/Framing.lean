import Mathlib.Tactic.Common
import Mathlib.Data.List.TakeDrop
import Mathlib.Data.List.Infix

/-!
# Incremental parsing of a stream

A framer looks at the unread symbols and either asks for more of them or consumes a
nonempty prefix, possibly emitting a frame. Its decision may not be undone by symbols
that arrive later. Parsing to exhaustion is then independent of how the stream is cut:
keeping the unread tail and parsing it again with the next chunk in front loses and
repeats nothing.
-/
namespace MediaModules.Lib.Framing

/-- `next l` is `none` when `l` is too short to decide, otherwise the emitted frame, if
any, and the symbols left. -/
structure Framer (α β : Type*) where
  next : List α → Option (Option β × List α)
  next_suffix : ∀ {l o r}, next l = some (o, r) → r <:+ l
  next_lt : ∀ {l o r}, next l = some (o, r) → r.length < l.length
  next_append : ∀ {l o r}, next l = some (o, r) → ∀ t, next (l ++ t) = some (o, r ++ t)

namespace Framer

variable {α β : Type*} (f : Framer α β)

/-- Consume frames until the framer asks for more: the frames and the unread tail. -/
def parse (l : List α) : List β × List α :=
  match _h : f.next l with
  | none => ([], l)
  | some (o, r) => (o.toList ++ (parse r).1, (parse r).2)
termination_by l.length
decreasing_by all_goals exact f.next_lt ‹_›

/-- Parse chunk after chunk, each behind the tail the one before it left. -/
def feed : List α → List (List α) → List β × List α
  | c, [] => ([], c)
  | c, x :: xs =>
    ((f.parse (c ++ x)).1 ++ (feed (f.parse (c ++ x)).2 xs).1, (feed (f.parse (c ++ x)).2 xs).2)

theorem parse_none {l : List α} (h : f.next l = none) : f.parse l = ([], l) := by
  unfold parse
  split
  · rfl
  · rename_i h'
    rw [h] at h'
    cases h'

theorem parse_some {l r : List α} {o : Option β} (h : f.next l = some (o, r)) :
    f.parse l = (o.toList ++ (f.parse r).1, (f.parse r).2) := by
  conv_lhs => unfold parse
  split
  · rename_i h'
    rw [h] at h'
    cases h'
  · rename_i o' r' h'
    rw [h] at h'
    obtain ⟨rfl, rfl⟩ : o = o' ∧ r = r' := by simpa using h'
    rfl

/-- Induction along the consumption of a list. -/
theorem parse_induct {motive : List α → Prop}
    (stop : ∀ l, f.next l = none → motive l)
    (step : ∀ l o r, f.next l = some (o, r) → motive r → motive l) (l : List α) : motive l := by
  induction hn : l.length using Nat.strong_induction_on generalizing l with
  | h n ih =>
    cases h : f.next l with
    | none => exact stop l h
    | some p =>
      obtain ⟨o, r⟩ := p
      exact step l o r h (ih r.length (hn ▸ f.next_lt h) r rfl)

theorem next_parse_tail (l : List α) : f.next (f.parse l).2 = none := by
  induction l using f.parse_induct with
  | stop l h => rw [f.parse_none h]; exact h
  | step l o r h ih => rw [f.parse_some h]; exact ih

theorem parse_tail_suffix (l : List α) : (f.parse l).2 <:+ l := by
  induction l using f.parse_induct with
  | stop l h => rw [f.parse_none h]
  | step l o r h ih =>
    rw [f.parse_some h]
    exact ih.trans (f.next_suffix h)

theorem parse_append (a b : List α) :
    f.parse (a ++ b) =
      ((f.parse a).1 ++ (f.parse ((f.parse a).2 ++ b)).1, (f.parse ((f.parse a).2 ++ b)).2) := by
  induction a using f.parse_induct with
  | stop l h => rw [f.parse_none h, List.nil_append]
  | step l o r h ih =>
    rw [f.parse_some h, f.parse_some (f.next_append h b), ih, List.append_assoc]

/-- However a stream is cut into chunks, feeding them gives the parse of the whole. -/
theorem feed_eq_parse {c : List α} (hc : f.next c = none) (xs : List (List α)) :
    f.feed c xs = f.parse (c ++ xs.flatten) := by
  induction xs generalizing c with
  | nil => rw [List.flatten_nil, List.append_nil, f.parse_none hc]; rfl
  | cons x xs ih =>
    rw [feed, ih (f.next_parse_tail _), List.flatten_cons, ← List.append_assoc,
      f.parse_append (c ++ x)]

end Framer

end MediaModules.Lib.Framing
