import Mathlib.Data.List.OfFn
import Mathlib.Tactic.Common

/-!
# A shift register with feedback

Bits go in at the top, one at a time, and the register moves up. It is linear over exclusive or, so the
bits that leave may as well have been added to those that come: a register that takes in its own bits is
left empty, and one that takes in a few at a time needs only a table of what these few leave.
-/
namespace MediaModules.Lib.ShiftRegister

variable {w : Nat} {poly r s : BitVec w} {b : Bool} {bits : List Bool}

/-- One bit goes in; the polynomial is added when it differs from the one that leaves. -/
def shiftIn (poly r : BitVec w) (b : Bool) : BitVec w :=
  (r <<< 1) ^^^ if r.msb ^^ b then poly else 0#w

def feed (poly r : BitVec w) (bits : List Bool) : BitVec w := bits.foldl (shiftIn poly) r

/-- The bits of a word, from the top. -/
def msbBits (x : BitVec w) : List Bool := List.ofFn fun i : Fin w => x.getMsbD i

/-- Bits with the ones that leave the register added. -/
def against (r : BitVec w) (bits : List Bool) : List Bool :=
  bits.mapIdx fun i b => r.getMsbD i ^^ b

theorem feed_append (poly r : BitVec w) (bits bits' : List Bool) :
    feed poly r (bits ++ bits') = feed poly (feed poly r bits) bits' := List.foldl_append

theorem shiftIn_xor (poly r s : BitVec w) (b : Bool) :
    shiftIn poly (r ^^^ s) b = shiftIn poly r b ^^^ shiftIn poly s false := by
  have hfeedback : (if (r ^^^ s).msb ^^ b then poly else 0#w) =
      (if r.msb ^^ b then poly else 0#w) ^^^ if s.msb ^^ false then poly else 0#w := by
    rw [BitVec.msb_xor]
    cases r.msb <;> cases s.msb <;> cases b <;> simp
  rw [shiftIn, shiftIn, shiftIn, hfeedback, BitVec.shiftLeft_xor_distrib]
  ac_rfl

/-- What was in the register beside the rest moves on by itself. -/
theorem feed_xor (poly r s : BitVec w) (bits : List Bool) :
    feed poly (r ^^^ s) bits = feed poly r bits ^^^ feed poly s (List.replicate bits.length false) := by
  induction bits generalizing r s with
  | nil => rfl
  | cons b bits ih =>
    rw [feed, List.foldl_cons, shiftIn_xor]
    exact ih _ _

theorem feed_zeros (poly : BitVec w) (n : Nat) : feed poly 0#w (List.replicate n false) = 0#w := by
  induction n with
  | zero => rfl
  | succ n ih =>
    have hzero : shiftIn poly 0#w false = 0#w := by simp [shiftIn]
    rw [feed, List.replicate_succ, List.foldl_cons, hzero]
    exact ih

theorem against_cons (r : BitVec w) (b : Bool) (bits : List Bool) :
    against r (b :: bits) = (r.msb ^^ b) :: against (r <<< 1) bits := by
  rw [against, List.mapIdx_cons, BitVec.msb_eq_getMsbD_zero, against]
  simp only [BitVec.getMsbD_shiftLeft]

/-- A register that takes in bits is moved up by as many, with what they leave of an empty one once the
bits that left are added. -/
theorem feed_eq (poly r : BitVec w) (bits : List Bool) :
    feed poly r bits = (r <<< bits.length) ^^^ feed poly 0#w (against r bits) := by
  induction bits generalizing r with
  | nil => simp [feed, against]
  | cons b bits ih =>
    have hlength : (against (r <<< 1) bits).length = bits.length := List.length_mapIdx
    have hempty : shiftIn poly 0#w (r.msb ^^ b) = 0#w ^^^ if r.msb ^^ b then poly else 0#w := by
      simp [shiftIn]
    calc feed poly r (b :: bits)
        = feed poly ((r <<< 1) ^^^ if r.msb ^^ b then poly else 0#w) bits := rfl
      _ = (r <<< 1 <<< bits.length) ^^^ (feed poly 0#w (against (r <<< 1) bits) ^^^
            feed poly (if r.msb ^^ b then poly else 0#w) (List.replicate bits.length false)) := by
          rw [feed_xor, ih, BitVec.xor_assoc]
      _ = (r <<< 1 <<< bits.length) ^^^
            feed poly (0#w ^^^ if r.msb ^^ b then poly else 0#w) (against (r <<< 1) bits) := by
          rw [feed_xor poly 0#w, hlength]
      _ = (r <<< (b :: bits).length) ^^^ feed poly 0#w (against r (b :: bits)) := by
          rw [against_cons, ← hempty, ← BitVec.shiftLeft_add, List.length_cons, Nat.add_comm 1]
          rfl

theorem against_self (x : BitVec w) : against x (msbBits x) = List.replicate w false := by
  refine List.ext_getElem (by simp [against, msbBits]) fun i hi hi' => ?_
  simp [against, msbBits]

/-- A register that takes in its own bits is left empty. -/
theorem feed_self (poly r : BitVec w) : feed poly r (msbBits r) = 0#w := by
  rw [feed_eq, against_self, feed_zeros, msbBits, List.length_ofFn]
  simp

end MediaModules.Lib.ShiftRegister
