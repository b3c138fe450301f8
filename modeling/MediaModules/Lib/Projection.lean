import MediaModules.Lib.Run

/-!
# What one party sees of a run

Several parties share a state, and a party sees a part of it. When the steps of the others leave
that part alone, and it decides what the party's own steps do to it, the party sees a run of its own
steps only.
-/
namespace MediaModules.Lib.Run

variable {σ ω α : Type*} {step : σ → ω → Option σ} {own : α → ω → Option α} {see : σ → α}
  {ok : σ → ω → Prop} {mine : ω → Bool}

/-- The guarded steps of the party do what `own` says, and those of the others are not seen. -/
structure Projects (step : σ → ω → Option σ) (own : α → ω → Option α) (see : σ → α)
    (ok : σ → ω → Prop) (mine : ω → Bool) : Prop where
  steps : ∀ s op, ok s op → mine op = true →
    ∃ s', step s op = some s' ∧ own (see s) op = some (see s')
  others : ∀ s op, ok s op → mine op = false → ∃ s', step s op = some s' ∧ see s' = see s

/-- The party sees a run of its own steps. -/
theorem Projects.run (h : Projects step own see ok mine) {s : σ} {ops : List ω}
    (hg : Guarded step ok s ops) :
    ∃ t, run step s ops = some t ∧ Run.run own (see s) (ops.filter mine) = some (see t) := by
  induction ops generalizing s with
  | nil => exact ⟨s, rfl, rfl⟩
  | cons op ops ih =>
    cases hm : mine op with
    | true =>
      obtain ⟨s', hs, hown⟩ := h.steps s op hg.1 hm
      obtain ⟨t, ht, hsee⟩ := ih (hg.2 s' hs)
      refine ⟨t, run_cons_some.mpr ⟨s', hs, ht⟩, ?_⟩
      rw [List.filter_cons, if_pos hm]
      exact run_cons_some.mpr ⟨see s', hown, hsee⟩
    | false =>
      obtain ⟨s', hs, hsame⟩ := h.others s op hg.1 hm
      obtain ⟨t, ht, hsee⟩ := ih (hg.2 s' hs)
      refine ⟨t, run_cons_some.mpr ⟨s', hs, ht⟩, ?_⟩
      rw [List.filter_cons, if_neg (Bool.eq_false_iff.mp hm), ← hsame]
      exact hsee

end MediaModules.Lib.Run
