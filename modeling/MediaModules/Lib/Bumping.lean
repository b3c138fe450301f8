import Mathlib.Data.List.Perm.Basic
import Mathlib.Data.List.Nodup
import Mathlib.Order.Lattice
import Mathlib.Tactic.Common

/-!
# Reordering by bumping

Items arrive out of order and wait; the one with the lowest key goes out when too many wait. This
puts them in order when no item arrives after too many with a higher key.
-/
namespace MediaModules.Lib.Bumping

variable {α β : Type*} [LinearOrder β] {key : α → β} {r : Nat} {out wait rest done : List α}
  {post : List β} {a : α}

/-- No key comes after more than `r` higher ones. -/
def Reorders (r : Nat) (keys : List β) : Prop :=
  ∀ pre y post, keys = pre ++ y :: post → (pre.countP fun k => y < k) ≤ r

theorem reorders_of_take {keys : List β}
    (h : ∀ i : Fin keys.length, ((keys.take i).countP fun k => keys[i] < k) ≤ r) :
    Reorders r keys := by
  rintro pre y post rfl
  have hlt : pre.length < (pre ++ y :: post).length := by simp
  simpa using h ⟨pre.length, hlt⟩

/-- Of the items that have come, `out` went out in order and `wait` wait; the keys `post` are still
to come. -/
structure Bumped (key : α → β) (out wait done : List α) (post : List β) : Prop where
  perm : (out ++ wait).Perm done
  sorted : out.Pairwise fun a b => key a < key b
  below : ∀ a ∈ out, (∀ b ∈ wait, key a < key b) ∧ ∀ k ∈ post, key a < k

theorem bumped_nil (post : List β) : Bumped key [] [] [] post :=
  ⟨List.Perm.refl _, List.Pairwise.nil, fun _ h => by cases h⟩

theorem Bumped.perm_wait (h : Bumped key out wait done post) (hw : wait.Perm rest) :
    Bumped key out rest done post :=
  ⟨(hw.symm.append_left out).trans h.perm, h.sorted,
    fun a ha => ⟨fun b hb => (h.below a ha).1 b (hw.mem_iff.mpr hb), (h.below a ha).2⟩⟩

/-- The next item arrives. -/
theorem Bumped.arrive (h : Bumped key out wait done (key a :: post)) :
    Bumped key out (a :: wait) (done ++ [a]) post := by
  refine ⟨?_, h.sorted, fun x hx => ⟨fun b hb => ?_, fun k hk => ?_⟩⟩
  · exact (List.perm_middle.trans (h.perm.cons a)).trans (List.perm_append_singleton a done).symm
  · rcases List.mem_cons.mp hb with rfl | hb
    · exact (h.below x hx).2 (key b) List.mem_cons_self
    · exact (h.below x hx).1 b hb
  · exact (h.below x hx).2 k (List.mem_cons_of_mem _ hk)

/-- The item with the lowest key goes out. -/
theorem Bumped.bump (h : Bumped key out wait done post) (hw : wait.Perm (a :: rest))
    (hmin : ∀ b ∈ rest, key a < key b) (hpost : ∀ k ∈ post, key a < k) :
    Bumped key (out ++ [a]) rest done post := by
  have hsplit := h.perm_wait hw
  refine ⟨?_, ?_, fun x hx => ?_⟩
  · rw [List.append_assoc]
    exact hsplit.perm
  · rw [List.pairwise_append]
    refine ⟨h.sorted, List.pairwise_singleton _ _, fun x hx b hb => ?_⟩
    rw [List.mem_singleton.mp hb]
    exact (hsplit.below x hx).1 a List.mem_cons_self
  · rcases List.mem_append.mp hx with hx | hx
    · exact ⟨fun b hb => (hsplit.below x hx).1 b (List.mem_cons_of_mem a hb),
        (hsplit.below x hx).2⟩
    · rw [List.mem_singleton.mp hx]
      exact ⟨hmin, hpost⟩

/-- When `r` items wait behind the lowest one, nothing lower can still come. -/
theorem Bumped.above (h : Bumped key out wait done post) (hw : wait.Perm (a :: rest))
    (hmin : ∀ b ∈ rest, key a < key b) (hlen : r ≤ rest.length)
    (hreorder : Reorders r (done.map key ++ post)) (hnodup : (done.map key ++ post).Nodup) :
    ∀ k ∈ post, key a < k := by
  intro k hk
  have hperm := (h.perm_wait hw).perm
  have hmem : a ∈ done := hperm.mem_iff.mp (by simp)
  by_contra hle
  have hlt : k < key a := by
    apply lt_of_le_of_ne (not_lt.mp hle)
    intro heq
    exact (List.nodup_append.mp hnodup).2.2 _ (List.mem_map_of_mem hmem) k hk heq.symm
  obtain ⟨pre, tail, rfl⟩ := List.append_of_mem hk
  have hcount := hreorder (done.map key ++ pre) k tail (by simp)
  have hdone : (done.map key).countP (fun x => k < x) =
      ((out ++ a :: rest).map key).countP fun x => k < x :=
    ((hperm.map key).countP_eq _).symm
  have hrest : (rest.map key).countP (fun x => k < x) = rest.length := by
    have hlength : rest.length = (rest.map key).length := (List.length_map key).symm
    rw [hlength]
    apply List.countP_eq_length.mpr
    intro x hx
    obtain ⟨b, hb, rfl⟩ := List.mem_map.mp hx
    exact decide_eq_true (hlt.trans (hmin b hb))
  rw [List.countP_append, hdone, List.map_append, List.countP_append, List.map_cons,
    List.countP_cons, if_pos (decide_eq_true hlt), hrest] at hcount
  omega

end MediaModules.Lib.Bumping
