import Mathlib.Algebra.Group.Nat.Defs
import Mathlib.Tactic.Common

/-!
# Reading bits

A parser reads the bits of a block from an index on and notes what it finds in a record; when it fails it
keeps what it has noted. What it returns does not depend on what was in the record before.
-/
namespace MediaModules.Lib.BitReader

/-- The memory behind a pointer. -/
abbrev Bytes := Nat → UInt8

/-- A number of `n` bytes, the lowest one first. -/
def littleEndian (b : Bytes) (i : Nat) : Nat → Nat
  | 0 => 0
  | n + 1 => littleEndian b i n + (b (i + n)).toNat * 256 ^ n

theorem littleEndian_lt (b : Bytes) (i n : Nat) : littleEndian b i n < 256 ^ n := by
  induction n with
  | zero => exact Nat.one_pos
  | succ n ih =>
    have hbyte : (b (i + n)).toNat ≤ 255 := Nat.le_of_lt_succ (b (i + n)).toNat_lt
    calc littleEndian b i n + (b (i + n)).toNat * 256 ^ n
        < 256 ^ n + (b (i + n)).toNat * 256 ^ n := Nat.add_lt_add_right ih _
      _ = ((b (i + n)).toNat + 1) * 256 ^ n := by rw [Nat.add_mul, Nat.one_mul, Nat.add_comm]
      _ ≤ 256 * 256 ^ n := Nat.mul_le_mul_right _ (Nat.succ_le_succ hbyte)
      _ = 256 ^ (n + 1) := by rw [Nat.pow_succ, Nat.mul_comm]

/-- Four bytes, the highest one first. -/
def bigEndian32 (b : Bytes) (i : Nat) : Nat :=
  (b i).toNat * 16777216 + (b (i + 1)).toNat * 65536 + (b (i + 2)).toNat * 256 + (b (i + 3)).toNat

/-- The `n` bits from `index` on, when they are in the four bytes there. -/
def bitsAt (b : Bytes) (index n : Nat) : Nat :=
  (bigEndian32 b (index / 8) * 2 ^ (index % 8)) % 4294967296 / 2 ^ (32 - n)

/-- The bit at `index`. -/
def bitAt (b : Bytes) (index : Nat) : Nat := ((b (index / 8)).toNat * 2 ^ (index % 8)) % 256 / 128

/-- The index of the next bit and the record. -/
structure Reader (γ : Type) where
  index : Nat
  record : γ

abbrev Parser (γ α : Type) := ExceptT Int (StateM (Reader γ)) α

section

variable {γ α β : Type}

/-- Read `n` bits at the index with `f`. -/
def next (f : Nat → α) (n : Nat) : Parser γ α := fun s =>
  (.ok (f s.index), { s with index := s.index + n })

def note (f : γ → γ) : Parser γ Unit := fun s => (.ok (), { s with record := f s.record })

/-- Go to the start of the block. -/
def rewind : Parser γ Unit := fun s => (.ok (), { s with index := 0 })

def fail (e : Int) : Parser γ α := fun s => (.error e, s)

/-- What is returned, and where the parser is then, does not depend on the record. -/
def Blind (x : Parser γ α) : Prop :=
  ∀ s t : Reader γ, s.index = t.index → (x s).1 = (x t).1 ∧ (x s).2.index = (x t).2.index

theorem blind_pure (a : α) : Blind (pure a : Parser γ α) := fun _ _ h => ⟨rfl, h⟩

theorem blind_next (f : Nat → α) (n : Nat) : Blind (next f n : Parser γ α) := fun _ _ h =>
  ⟨congrArg (fun i => (.ok (f i) : Except Int α)) h, congrArg (· + n) h⟩

theorem blind_note (f : γ → γ) : Blind (note f) := fun _ _ h => ⟨rfl, h⟩

theorem blind_fail (e : Int) : Blind (fail e : Parser γ α) := fun _ _ h => ⟨rfl, h⟩

theorem Blind.bind {x : Parser γ α} {f : α → Parser γ β} (hx : Blind x) (hf : ∀ a, Blind (f a)) :
    Blind (x >>= f) := by
  intro s t h
  obtain ⟨hval, hindex⟩ := hx s t h
  have hbind (u : Reader γ) : (x >>= f) u = match x u with
      | (.ok a, u') => f a u'
      | (.error e, u') => (.error e, u') := by
    show ExceptT.bindCont f _ _ = _
    rcases x u with ⟨a | e, u'⟩ <;> rfl
  rw [hbind, hbind]
  rcases hs : x s with ⟨es, s'⟩
  rcases ht : x t with ⟨et, t'⟩
  rw [hs, ht] at hval hindex
  obtain rfl : es = et := hval
  cases es with
  | error e => exact ⟨rfl, hindex⟩
  | ok a => exact hf a s' t' hindex

theorem Blind.ite {c : Prop} {hc : Decidable c} {x y : Parser γ α} (hx : Blind x) (hy : Blind y) :
    Blind (if c then x else y) := by
  split
  · exact hx
  · exact hy

/-- A parser that starts at the start does not depend on the state at all. -/
theorem Blind.rewound {x : Parser γ α} (hx : Blind x) (s t : Reader γ) :
    ((rewind >>= fun _ => x) s).1 = ((rewind >>= fun _ => x) t).1 :=
  (hx { s with index := 0 } { t with index := 0 } rfl).1

end

end MediaModules.Lib.BitReader
