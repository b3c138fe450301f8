import Mathlib.Data.List.Infix
import Mathlib.Tactic.Common

/-!
# The first occurrence of a word in a text

`List.dropInfix?` in a text that is built from words and separators. A word without the separator
lies on one side of it.
-/
namespace MediaModules.Lib.Infix

variable {α : Type*} [BEq α] [LawfulBEq α] {i l p s w r : List α} {a c : α}

theorem dropPrefix?_eq_some : l.dropPrefix? i = some s ↔ l = i ++ s := by
  rw [List.dropPrefix?_eq_some_iff]
  simp only [beq_iff_eq, exists_eq_right]

theorem dropInfix?_eq_append (h : l.dropInfix? i = some (p, s)) : l = p ++ i ++ s := by
  obtain ⟨⟨i', hl, hi⟩, -⟩ := List.dropInfix?_eq_some_iff.mp h
  rw [← eq_of_beq hi]
  exact hl

omit [LawfulBEq α] in
theorem go_acc (l acc : List α) : List.dropInfix?.go i l acc =
    (List.dropInfix?.go i l []).map fun ps => (acc.reverse ++ ps.1, ps.2) := by
  induction l generalizing acc with
  | nil =>
    rw [List.dropInfix?.go, List.dropInfix?.go]
    split <;> simp
  | cons a l ih =>
    rw [List.dropInfix?.go, List.dropInfix?.go]
    cases List.dropPrefix? (a :: l) i with
    | none =>
      simp only
      rw [ih (a :: acc), ih [a], Option.map_map]
      simp [Function.comp_def]
    | some s => simp

omit [LawfulBEq α] in
/-- The search at the first letter and behind it. -/
theorem dropInfix?_cons : (a :: l).dropInfix? i =
    match (a :: l).dropPrefix? i with
    | some s => some ([], s)
    | none => (l.dropInfix? i).map fun ps => (a :: ps.1, ps.2) := by
  rw [List.dropInfix?, List.dropInfix?.go]
  cases List.dropPrefix? (a :: l) i with
  | none =>
    simp only
    rw [go_acc]
    rfl
  | some s => rfl

/-- A word without the separator begins a text exactly when it begins the part in front of it. -/
theorem dropPrefix?_append_sep (hc : c ∉ i) : (w ++ c :: r).dropPrefix? i =
    (w.dropPrefix? i).map (· ++ c :: r) := by
  ext s
  rw [dropPrefix?_eq_some, Option.map_eq_some_iff]
  constructor
  · intro h
    rw [List.append_eq_append_iff] at h
    obtain ⟨t, hi, ht⟩ | ⟨t, hw, hs⟩ := h
    · cases t with
      | nil => exact ⟨[], by rw [dropPrefix?_eq_some]; simpa using hi.symm, by simpa using ht⟩
      | cons b t =>
        rw [List.cons_append, List.cons.injEq] at ht
        exact absurd (hi ▸ List.mem_append_right w (ht.1 ▸ List.mem_cons_self)) hc
    · exact ⟨t, dropPrefix?_eq_some.mpr hw, hs.symm⟩
  · rintro ⟨t, ht, rfl⟩
    rw [dropPrefix?_eq_some.mp ht, List.append_assoc]

/-- The first occurrence lies in front of the separator, if there is one, else behind it. -/
theorem dropInfix?_append_sep (hi : i ≠ []) (hc : c ∉ i) : (w ++ c :: r).dropInfix? i =
    match w.dropInfix? i with
    | some (p, s) => some (p, s ++ c :: r)
    | none => (r.dropInfix? i).map fun ps => (w ++ c :: ps.1, ps.2) := by
  have hnil : ([] : List α).dropPrefix? i = none := by
    cases i with
    | nil => exact absurd rfl hi
    | cons b i => rfl
  induction w with
  | nil =>
    have hempty : ([] : List α).dropInfix? i = none := by
      rw [List.dropInfix?, List.dropInfix?.go, if_neg (by simpa using hi)]
    have hsep : (c :: r).dropPrefix? i = none := by
      have h := dropPrefix?_append_sep (w := []) (r := r) hc
      rwa [hnil] at h
    rw [List.nil_append, dropInfix?_cons, hsep, hempty]
    rfl
  | cons a w ih =>
    rw [List.cons_append, dropInfix?_cons, dropInfix?_cons, ← List.cons_append,
      dropPrefix?_append_sep hc]
    cases (a :: w).dropPrefix? i with
    | some s => rfl
    | none =>
      simp only [Option.map_none, ih]
      cases w.dropInfix? i with
      | some ps => rfl
      | none =>
        simp only [Option.map_none, Option.map_map]
        rfl

theorem dropInfix?_isSome_iff : (l.dropInfix? i).isSome ↔ i <:+: l := by
  constructor
  · intro h
    obtain ⟨⟨p, s⟩, hps⟩ := Option.isSome_iff_exists.mp h
    exact ⟨p, s, (dropInfix?_eq_append hps).symm⟩
  · rintro ⟨p, s, rfl⟩
    induction p with
    | nil =>
      have hpre : (i ++ s).dropPrefix? i = some s := dropPrefix?_eq_some.mpr rfl
      cases hl : i ++ s with
      | nil => simp [List.append_eq_nil_iff.mp hl]
      | cons b t =>
        rw [hl] at hpre
        rw [List.nil_append, hl, dropInfix?_cons, hpre]
        rfl
    | cons a p ih =>
      rw [List.cons_append, List.cons_append, dropInfix?_cons]
      cases (a :: (p ++ i ++ s)).dropPrefix? i with
      | some s => rfl
      | none => simpa using ih

theorem dropInfix?_eq_none_iff : l.dropInfix? i = none ↔ ¬ i <:+: l := by
  rw [← dropInfix?_isSome_iff, Option.not_isSome_iff_eq_none]

end MediaModules.Lib.Infix
