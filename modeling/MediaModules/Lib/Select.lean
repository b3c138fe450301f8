import Mathlib.Tactic.Common

/-!
# Selection loops

A loop over a list that keeps the best candidate met so far; the first of equally good ones stays.
-/
namespace MediaModules.Lib.Select

variable {α : Type*} {ok : α → Bool} {better : α → α → Bool} {best : Option α} {l : List α} {a : α}

/-- One round of the loop. -/
def pick (ok : α → Bool) (better : α → α → Bool) (best : Option α) (a : α) : Option α :=
  if ok a then
    match best with
    | none => some a
    | some b => if better a b then some a else some b
  else best

theorem pick_skip (best : Option α) (h : ok a = false) : pick ok better best a = best :=
  if_neg (by rw [h]; exact Bool.false_ne_true)

theorem pick_none (h : ok a = true) : pick ok better none a = some a := if_pos h

theorem pick_some {b : α} (h : ok a = true) :
    pick ok better (some b) a = if better a b then some a else some b := if_pos h

theorem pick_cases (best : Option α) (a : α) :
    pick ok better best a = best ∨ (ok a = true ∧ pick ok better best a = some a) := by
  cases hok : ok a with
  | false => exact Or.inl (pick_skip best hok)
  | true =>
    cases best with
    | none => exact Or.inr ⟨rfl, pick_none hok⟩
    | some b =>
      rw [pick_some hok]
      split
      · exact Or.inr ⟨rfl, rfl⟩
      · exact Or.inl rfl

/-- What is chosen was the choice before the loop or is a candidate of the list. -/
theorem mem_of_foldl_pick (h : l.foldl (pick ok better) best = some a) :
    best = some a ∨ (a ∈ l ∧ ok a = true) := by
  induction l generalizing best with
  | nil => exact Or.inl h
  | cons x l ih =>
    rcases ih h with hx | ⟨hmem, hok⟩
    · rcases pick_cases best x with heq | ⟨hok, heq⟩
      · exact Or.inl (heq ▸ hx)
      · cases heq.symm.trans hx
        exact Or.inr ⟨List.mem_cons_self, hok⟩
    · exact Or.inr ⟨List.mem_cons_of_mem x hmem, hok⟩

/-- Nothing is chosen exactly when there was nothing to choose. -/
theorem foldl_pick_eq_none :
    l.foldl (pick ok better) best = none ↔ best = none ∧ ∀ a ∈ l, ok a = false := by
  induction l generalizing best with
  | nil => simp
  | cons x l ih =>
    rw [List.foldl_cons, ih, List.forall_mem_cons, ← and_assoc]
    apply and_congr_left
    intro _
    cases hok : ok x with
    | false => simp [pick_skip best hok]
    | true =>
      rcases best with - | b
      · simp [pick_none hok]
      · rw [pick_some hok]
        split <;> simp

/-- For an order, no candidate of the list is better than the chosen one. -/
theorem foldl_pick_best (hirr : ∀ a, better a a = false)
    (hasymm : ∀ a b, better a b = true → better b a = false)
    (hneg : ∀ a b c, better a b = false → better b c = false → better a c = false)
    (h : l.foldl (pick ok better) best = some a) :
    (∀ b, best = some b → better b a = false) ∧ ∀ x ∈ l, ok x = true → better x a = false := by
  induction l generalizing best with
  | nil =>
    refine ⟨fun b hb => ?_, fun x hx => by cases hx⟩
    cases hb.symm.trans h
    exact hirr a
  | cons x l ih =>
    obtain ⟨hbest, hrest⟩ := ih h
    have hstep : (∀ b, best = some b → better b a = false) ∧ (ok x = true → better x a = false) := by
      cases hok : ok x with
      | false =>
        rw [pick_skip best hok] at hbest
        exact ⟨hbest, fun hx => by cases hx⟩
      | true =>
        cases best with
        | none => exact ⟨fun b hb => by (cases hb), fun _ => hbest x (pick_none hok)⟩
        | some b =>
          rw [pick_some hok] at hbest
          cases hbetter : better x b with
          | true =>
            have hxa := hbest x (by simp [hbetter])
            refine ⟨fun b' hb' => ?_, fun _ => hxa⟩
            cases hb'
            exact hneg b x a (hasymm x b hbetter) hxa
          | false =>
            have hba := hbest b (by simp [hbetter])
            refine ⟨fun b' hb' => ?_, fun _ => hneg x b a hbetter hba⟩
            cases hb'
            exact hba
    refine ⟨hstep.1, fun y hy hok => ?_⟩
    rcases List.mem_cons.mp hy with rfl | hy
    · exact hstep.2 hok
    · exact hrest y hy hok

/-! ## The nearest candidate -/

/-- One round of a loop that keeps the distance of the nearest candidate, and the candidate. -/
def closer (dist : α → Option Nat) (best : Nat × α) (a : α) : Nat × α :=
  match dist a with
  | some d => if d < best.1 then (d, a) else best
  | none => best

/-- What the loop ends with: where it started, when no candidate is nearer than that, or the nearest
candidate of the list. -/
structure Nearest (dist : α → Option Nat) (l : List α) (start best : Nat × α) : Prop where
  le_start : best.1 ≤ start.1
  le : ∀ a ∈ l, ∀ d, dist a = some d → best.1 ≤ d
  found : best = start ∨ best.2 ∈ l ∧ dist best.2 = some best.1

theorem closer_step (dist : α → Option Nat) (best : Nat × α) (a : α) :
    Nearest dist [a] best (closer dist best a) := by
  rw [closer]
  cases hdist : dist a with
  | none =>
    refine ⟨Nat.le_refl _, fun b hb d hd => ?_, Or.inl rfl⟩
    rw [List.mem_singleton.mp hb, hdist] at hd
    exact nomatch hd
  | some d =>
    dsimp only
    have hlist (e : Nat) (he : dist a = some e) : e = d := Option.some.inj (he.symm.trans hdist)
    split
    · next hlt =>
      refine ⟨Nat.le_of_lt hlt, fun b hb e he => ?_, Or.inr ⟨List.mem_singleton_self a, hdist⟩⟩
      rw [List.mem_singleton.mp hb] at he
      exact Nat.le_of_eq (hlist e he).symm
    · next hge =>
      refine ⟨Nat.le_refl _, fun b hb e he => ?_, Or.inl rfl⟩
      rw [List.mem_singleton.mp hb] at he
      rw [hlist e he]
      exact Nat.not_lt.mp hge

theorem foldl_closer (dist : α → Option Nat) (l : List α) (start : Nat × α) :
    Nearest dist l start (l.foldl (closer dist) start) := by
  induction l generalizing start with
  | nil => exact ⟨Nat.le_refl _, fun a ha => absurd ha List.not_mem_nil, Or.inl rfl⟩
  | cons x l ih =>
    have hstep := closer_step dist start x
    have hrest := ih (closer dist start x)
    rw [List.foldl_cons]
    refine ⟨Nat.le_trans hrest.le_start hstep.le_start, fun a ha d hd => ?_, ?_⟩
    · rcases List.mem_cons.mp ha with rfl | ha
      · exact Nat.le_trans hrest.le_start (hstep.le a (List.mem_singleton_self a) d hd)
      · exact hrest.le a ha d hd
    · rcases hrest.found with heq | ⟨hmem, hdist⟩
      · rw [heq]
        rcases hstep.found with heq | ⟨hmem, hdist⟩
        · exact Or.inl heq
        · exact Or.inr ⟨List.mem_cons.mpr (Or.inl (List.mem_singleton.mp hmem)), hdist⟩
      · exact Or.inr ⟨List.mem_cons_of_mem x hmem, hdist⟩

/-- Two loops over one list may be one. -/
theorem foldl_both {β γ : Type*} (f : β → α → β) (g : γ → α → γ) (l : List α) (b : β) (c : γ) :
    l.foldl (fun s a => (f s.1 a, g s.2 a)) (b, c) = (l.foldl f b, l.foldl g c) := by
  induction l generalizing b c with
  | nil => rfl
  | cons x l ih => exact ih (f b x) (g c x)

/-- What the loop finds is nearer than where it started. -/
theorem foldl_closer_lt (dist : α → Option Nat) (l : List α) (start : Nat × α) :
    l.foldl (closer dist) start = start ∨ (l.foldl (closer dist) start).1 < start.1 := by
  induction l generalizing start with
  | nil => exact Or.inl rfl
  | cons a l ih =>
    have hstep : closer dist start a = start ∨ (closer dist start a).1 < start.1 := by
      rw [closer]
      cases dist a with
      | none => exact Or.inl rfl
      | some d =>
        dsimp only
        split
        · next hlt => exact Or.inr hlt
        · exact Or.inl rfl
    rw [List.foldl_cons]
    rcases hstep with hsame | hlt
    · rw [hsame]
      exact ih start
    · refine Or.inr (Nat.lt_of_le_of_lt ?_ hlt)
      rcases ih (closer dist start a) with hsame | hlt'
      · exact Nat.le_of_eq (congrArg Prod.fst hsame)
      · exact Nat.le_of_lt hlt'

end MediaModules.Lib.Select
