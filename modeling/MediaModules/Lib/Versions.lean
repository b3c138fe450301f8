import Mathlib.Data.Nat.ModEq

/-!
# Copies kept by a version number

A source holds a value and a number that wraps at `m`. Whoever keeps a copy of the value also keeps
the number it saw with it, and copies again only when the source shows another number. The copy is
right as long as every write moves the number and the number does not come back to the one seen:
neither by running round, nor by starting again from zero.
-/
namespace MediaModules.Lib.Versions

/-- What happened to the number since it was last read: whether it started again from zero, and how
often it moved, since then if it did. -/
structure Since where
  moves : Nat := 0
  restarted : Bool := false
deriving DecidableEq, Repr

/-- One more move. -/
def Since.move (since : Since) : Since := { since with moves := since.moves + 1 }

/-- The number is where the moves have taken it, and without one the copy is still right. -/
structure Tracks {α : Type*} (m : Nat) (since : Since) (value copy : α) (count seen : Nat) :
    Prop where
  below : seen < m
  counted : count = ((if since.restarted then 0 else seen) + since.moves) % m
  untouched : since.restarted = false → since.moves = 0 → value = copy

variable {α : Type*} {m count seen : Nat} {since : Since} {value copy : α}

namespace Tracks

/-- A write that moves the number. -/
theorem move (h : Tracks m since value copy count seen) (value' : α) :
    Tracks m since.move value' copy ((count + 1) % m) seen where
  below := h.below
  counted := by
    rw [h.counted, Nat.mod_add_mod]
    rfl
  untouched _ hmoves := absurd hmoves (Nat.succ_ne_zero _)

/-- The number starts again. -/
theorem restart (h : Tracks m since value copy count seen) (value' : α) :
    Tracks m { restarted := true } value' copy 0 seen where
  below := h.below
  counted := by
    show 0 = (0 + 0) % m
    rw [Nat.add_zero, Nat.zero_mod]
  untouched hrestarted _ := Bool.noConfusion hrestarted

/-- The copy has just been compared, and made again if the number was another. -/
theorem reread (value : α) (hcount : count < m) : Tracks m {} value value count count where
  below := hcount
  counted := (Nat.mod_eq_of_lt hcount).symm
  untouched _ _ := rfl

theorem count_lt (h : Tracks m since value copy count seen) : count < m := by
  rw [h.counted]
  exact Nat.mod_lt _ (Nat.zero_lt_of_lt h.below)

/-- The copy is right when the number seen is shown again, unless the number ran round or came back
to it after a restart. -/
theorem current (h : Tracks m since value copy count seen)
    (hround : since.restarted = false → since.moves % m = 0 → since.moves = 0)
    (hback : since.restarted = true → since.moves % m = seen → value = copy)
    (hshown : count = seen) : value = copy := by
  have hcounted := h.counted
  rw [hshown] at hcounted
  cases hrestarted : since.restarted with
  | true =>
    rw [hrestarted, if_pos rfl, Nat.zero_add] at hcounted
    exact hback hrestarted hcounted.symm
  | false =>
    rw [hrestarted, if_neg (by decide)] at hcounted
    refine h.untouched hrestarted (hround hrestarted ?_)
    have hmod : (seen + since.moves) % m = (seen + 0) % m := by
      rw [← hcounted, Nat.add_zero, Nat.mod_eq_of_lt h.below]
    have hsame : since.moves % m = 0 % m := Nat.ModEq.add_left_cancel' seen hmod
    rwa [Nat.zero_mod] at hsame

end Tracks

end MediaModules.Lib.Versions
