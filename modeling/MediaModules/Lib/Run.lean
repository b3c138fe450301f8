import Mathlib.Tactic.Common

/-!
# Runs of a partial step function

A driver is a state type, a type of operations and a partial step function; `none`
is undefined behaviour. The rules below lift a fact about one step to whole runs:
an invariant, an invariant that needs a guard on the steps, and the exact form of
the latter (the invariant holds all along the run iff every step met the guard).
-/
namespace MediaModules.Lib.Run

variable {σ ω : Type*}

/-- Run the operations from left to right. -/
def run (step : σ → ω → Option σ) : σ → List ω → Option σ
  | s, [] => some s
  | s, op :: ops => (step s op).bind fun s' => run step s' ops

/-- Some run leads from `s` to `t`. -/
def Reaches (step : σ → ω → Option σ) (s t : σ) : Prop := ∃ ops, run step s ops = some t

/-- `P` holds of every state the run goes through, the first and the last included. -/
def Always (step : σ → ω → Option σ) (P : σ → Prop) : σ → List ω → Prop
  | s, [] => P s
  | s, op :: ops => P s ∧ ∀ s', step s op = some s' → Always step P s' ops

/-- Every step of the run meets the guard `ok` in the state it starts from. -/
def Guarded (step : σ → ω → Option σ) (ok : σ → ω → Prop) : σ → List ω → Prop
  | _, [] => True
  | s, op :: ops => ok s op ∧ ∀ s', step s op = some s' → Guarded step ok s' ops

variable {step : σ → ω → Option σ} {P : σ → Prop} {ok : σ → ω → Prop}

/-- A guard that can be checked can be checked along a run. -/
instance Guarded.decidable [∀ s op, Decidable (ok s op)] :
    (s : σ) → (ops : List ω) → Decidable (Guarded step ok s ops)
  | _, [] => .isTrue trivial
  | s, op :: ops =>
    match h : step s op with
    | none => decidable_of_iff (ok s op)
        ⟨fun h1 => ⟨h1, fun s' hs => by rw [h] at hs; cases hs⟩, And.left⟩
    | some s' =>
      have := Guarded.decidable s' ops
      decidable_of_iff (ok s op ∧ Guarded step ok s' ops)
        ⟨fun h1 => ⟨h1.1, fun u hu => Option.some.inj (h.symm.trans hu) ▸ h1.2⟩,
          fun h1 => ⟨h1.1, h1.2 s' h⟩⟩

theorem run_cons (s : σ) (op : ω) (ops : List ω) :
    run step s (op :: ops) = (step s op).bind fun s' => run step s' ops := rfl

theorem run_cons_some {s t : σ} {op : ω} {ops : List ω} :
    run step s (op :: ops) = some t ↔ ∃ s', step s op = some s' ∧ run step s' ops = some t := by
  rw [run_cons, Option.bind_eq_some_iff]

theorem run_append {s t : σ} {ops ops' : List ω} (h : run step s ops = some t) :
    run step s (ops ++ ops') = run step t ops' := by
  induction ops generalizing s with
  | nil => rw [List.nil_append, Option.some.inj h]
  | cons op ops ih =>
    obtain ⟨s', h1, h2⟩ := run_cons_some.mp h
    rw [List.cons_append, run_cons, h1, Option.bind_some, ih h2]

/-- A state that an operation leaves alone. -/
theorem run_fixed {s : σ} {op : ω} (h : step s op = some s) :
    ∀ n, run step s (List.replicate n op) = some s
  | 0 => rfl
  | n + 1 => run_cons_some.mpr ⟨s, h, run_fixed h n⟩

theorem read_of_run {α : Type*} {a : α} {s t : σ} {ops : List ω} (f : σ → α)
    (h : (run step s ops).map f = some a) (hr : run step s ops = some t) : f t = a := by
  rw [hr] at h
  exact Option.some.inj h

/-- An invariant of every step is an invariant of every run. -/
theorem run_invariant (hstep : ∀ s op s', P s → step s op = some s' → P s') {s t : σ}
    {ops : List ω} (hs : P s) (hr : run step s ops = some t) : P t := by
  induction ops generalizing s with
  | nil => exact Option.some.inj hr ▸ hs
  | cons op ops ih =>
    obtain ⟨s', h1, h2⟩ := run_cons_some.mp hr
    exact ih (hstep s op s' hs h1) h2

theorem reaches_invariant (hstep : ∀ s op s', P s → step s op = some s' → P s') {s t : σ}
    (hs : P s) (hr : Reaches step s t) : P t := by
  obtain ⟨ops, h⟩ := hr
  exact run_invariant hstep hs h

/-- An invariant under which no step is undefined makes every run defined. -/
theorem run_total (hstep : ∀ s op, P s → ∃ s', step s op = some s' ∧ P s') {s : σ}
    (hs : P s) (ops : List ω) : ∃ t, run step s ops = some t ∧ P t := by
  induction ops generalizing s with
  | nil => exact ⟨s, rfl, hs⟩
  | cons op ops ih =>
    obtain ⟨s', h1, h2⟩ := hstep s op hs
    obtain ⟨t, h3, h4⟩ := ih h2
    exact ⟨t, run_cons_some.mpr ⟨s', h1, h3⟩, h4⟩

theorem always_head {s : σ} {ops : List ω} (h : Always step P s ops) : P s := by
  cases ops with
  | nil => exact h
  | cons op ops => exact h.1

theorem always_last {s t : σ} {ops : List ω} (h : Always step P s ops)
    (hr : run step s ops = some t) : P t := by
  induction ops generalizing s with
  | nil => exact Option.some.inj hr ▸ h
  | cons op ops ih =>
    obtain ⟨s', h1, h2⟩ := run_cons_some.mp hr
    exact ih (h.2 s' h1) h2

theorem guarded_last {s t : σ} {ops : List ω} {op : ω} (h : Guarded step ok s (ops ++ [op]))
    (hr : run step s ops = some t) : ok t op := by
  induction ops generalizing s with
  | nil => exact Option.some.inj hr ▸ h.1
  | cons op' ops ih =>
    obtain ⟨s', h1, h2⟩ := run_cons_some.mp hr
    exact ih (h.2 s' h1) h2

/-- The guard holds all along the first part of a run. -/
theorem guarded_init {s : σ} {ops ops' : List ω} (h : Guarded step ok s (ops ++ ops')) :
    Guarded step ok s ops := by
  induction ops generalizing s with
  | nil => trivial
  | cons op ops ih => exact ⟨h.1, fun s' hs => ih (h.2 s' hs)⟩

theorem guarded_append {s t : σ} {ops ops' : List ω} (h : Guarded step ok s ops)
    (hr : run step s ops = some t) (h' : Guarded step ok t ops') :
    Guarded step ok s (ops ++ ops') := by
  induction ops generalizing s with
  | nil => exact Option.some.inj hr ▸ h'
  | cons op ops ih =>
    obtain ⟨s₁, hs₁, hrest⟩ := run_cons_some.mp hr
    refine ⟨h.1, fun s' hs => ?_⟩
    obtain rfl : s₁ = s' := Option.some.inj (hs₁.symm.trans hs)
    exact ih (h.2 s₁ hs₁) hrest

theorem Always.imp {Q : σ → Prop} (himp : ∀ s, P s → Q s) {s : σ} {ops : List ω}
    (h : Always step P s ops) : Always step Q s ops := by
  induction ops generalizing s with
  | nil => exact himp s h
  | cons op ops ih => exact ⟨himp s h.1, fun s' hs => ih (h.2 s' hs)⟩

/-- A guard that comes to the same in every state an invariant allows may be exchanged. -/
theorem guarded_congr {ok' : σ → ω → Prop} (hstep : ∀ s op s', P s → step s op = some s' → P s')
    (hiff : ∀ s op, P s → (ok s op ↔ ok' s op)) {s : σ} {ops : List ω} (hs : P s) :
    Guarded step ok s ops ↔ Guarded step ok' s ops := by
  induction ops generalizing s with
  | nil => exact Iff.rfl
  | cons op ops ih =>
    exact and_congr (hiff s op hs)
      (forall_congr' fun s' => forall_congr' fun h => ih (hstep s op s' hs h))

/-- Two guards that come to the same under an invariant come to the same along a run, when the steps
that meet the first keep the invariant. -/
theorem guarded_iff {ok' : σ → ω → Prop}
    (hkeep : ∀ s op s', P s → ok s op → step s op = some s' → P s')
    (hiff : ∀ s op, P s → (ok s op ↔ ok' s op)) {s : σ} {ops : List ω} (hs : P s) :
    Guarded step ok s ops ↔ Guarded step ok' s ops := by
  induction ops generalizing s with
  | nil => exact Iff.rfl
  | cons op ops ih =>
    constructor
    · rintro ⟨hok, hg⟩
      exact ⟨(hiff s op hs).mp hok, fun s' h => (ih (hkeep s op s' hs hok h)).mp (hg s' h)⟩
    · rintro ⟨hok', hg⟩
      have hok := (hiff s op hs).mpr hok'
      exact ⟨hok, fun s' h => (ih (hkeep s op s' hs hok h)).mpr (hg s' h)⟩

theorem guarded_and {ok' : σ → ω → Prop} {s : σ} {ops : List ω} :
    Guarded step (fun s op => ok s op ∧ ok' s op) s ops ↔
      Guarded step ok s ops ∧ Guarded step ok' s ops := by
  induction ops generalizing s with
  | nil => exact (and_self_iff (a := True)).symm
  | cons op ops ih =>
    simp only [Guarded, ih]
    constructor
    · rintro ⟨⟨h1, h2⟩, h⟩
      exact ⟨⟨h1, fun s' hs => (h s' hs).1⟩, h2, fun s' hs => (h s' hs).2⟩
    · rintro ⟨⟨h1, h⟩, h2, h'⟩
      exact ⟨⟨h1, h2⟩, fun s' hs => ⟨h s' hs, h' s' hs⟩⟩

theorem guarded_of_all {s : σ} {ops : List ω} (h : ∀ s, ∀ op ∈ ops, ok s op) :
    Guarded step ok s ops := by
  induction ops generalizing s with
  | nil => trivial
  | cons op ops ih =>
    exact ⟨h s op List.mem_cons_self, fun s' _ =>
      ih fun s'' op' h' => h s'' op' (List.mem_cons_of_mem _ h')⟩

theorem guarded_of_forall {D : ω → Prop} {s : σ} {ops : List ω} (h : ∀ op ∈ ops, D op) :
    Guarded step (fun _ op => D op) s ops :=
  guarded_of_all fun _ => h

/-- What the guarded steps keep holds all along a guarded run. -/
theorem always_of_guarded (hkeep : ∀ s op s', P s → ok s op → step s op = some s' → P s') {s : σ}
    {ops : List ω} (hs : P s) (hg : Guarded step ok s ops) : Always step P s ops := by
  induction ops generalizing s with
  | nil => exact hs
  | cons op ops ih => exact ⟨hs, fun s' h => ih (hkeep s op s' hs hg.1 h) (hg.2 s' h)⟩

/-- Under an invariant that the guarded steps keep, a guard may be exchanged for one it implies. -/
theorem guarded_imp {ok' : σ → ω → Prop}
    (hkeep : ∀ s op s', P s → ok s op → step s op = some s' → P s')
    (himp : ∀ s op, P s → ok s op → ok' s op) {s : σ} {ops : List ω} (hs : P s)
    (hg : Guarded step ok s ops) : Guarded step ok' s ops := by
  induction ops generalizing s with
  | nil => trivial
  | cons op ops ih =>
    exact ⟨himp s op hs hg.1, fun s' h => ih (hkeep s op s' hs hg.1 h) (hg.2 s' h)⟩

/-- The same for a loop, whose steps are all defined. -/
theorem foldl_of_guarded {f : σ → ω → σ} (hkeep : ∀ s op, P s → ok s op → P (f s op)) {s : σ}
    {ops : List ω} (hs : P s) (hg : Guarded (fun s op => some (f s op)) ok s ops) :
    P (ops.foldl f s) := by
  induction ops generalizing s with
  | nil => exact hs
  | cons op ops ih => exact ih (hkeep s op hs hg.1) (hg.2 (f s op) rfl)

/-- On runs of the operations `D`, what each of them keeps holds all along. -/
theorem always_of_domain {D : ω → Prop}
    (hkeep : ∀ s op s', P s → D op → step s op = some s' → P s') {s : σ} {ops : List ω}
    (hd : ∀ op ∈ ops, D op) (hs : P s) : Always step P s ops := by
  induction ops generalizing s with
  | nil => exact hs
  | cons op ops ih =>
    have hrest : ∀ op' ∈ ops, D op' := fun op' h => hd op' (List.mem_cons_of_mem _ h)
    exact ⟨hs, fun s' h => ih hrest (hkeep s op s' hs (hd op List.mem_cons_self) h)⟩

/-- On runs of the operations `D`: when the guarded steps keep the invariant `P`, and every
other step from `P` breaks what `P` implies, that holds all along a defined run exactly when
all of its steps meet the guard. -/
theorem always_iff_guarded {D : ω → Prop} {Q : σ → Prop} (himp : ∀ s, P s → Q s)
    (hkeep : ∀ s op s', P s → D op → ok s op → step s op = some s' → P s')
    (hbreak : ∀ s op s', P s → D op → ¬ ok s op → step s op = some s' → ¬ Q s')
    {s t : σ} {ops : List ω} (hs : P s) (hd : ∀ op ∈ ops, D op)
    (hr : run step s ops = some t) :
    Always step Q s ops ↔ Guarded step ok s ops := by
  induction ops generalizing s with
  | nil => exact ⟨fun _ => trivial, fun _ => himp s hs⟩
  | cons op ops ih =>
    obtain ⟨s', h1, h2⟩ := run_cons_some.mp hr
    have hop : D op := hd op List.mem_cons_self
    have hrest : ∀ op' ∈ ops, D op' := fun op' h => hd op' (List.mem_cons_of_mem _ h)
    simp only [Always, Guarded, h1, Option.some.injEq, forall_eq']
    constructor
    · rintro ⟨-, h⟩
      have hok : ok s op := by
        by_contra hn
        exact hbreak s op s' hs hop hn h1 (always_head h)
      exact ⟨hok, (ih (hkeep s op s' hs hop hok h1) hrest h2).mp h⟩
    · rintro ⟨hok, hg⟩
      exact ⟨himp s hs, (ih (hkeep s op s' hs hop hok h1) hrest h2).mpr hg⟩

/-- The same for all runs, when every step that breaks what `P` implies is defined. -/
theorem always_iff_guarded_total {Q : σ → Prop} (himp : ∀ s, P s → Q s)
    (hkeep : ∀ s op s', P s → ok s op → step s op = some s' → P s')
    (hbreak : ∀ s op, P s → ¬ ok s op → ∃ s', step s op = some s' ∧ ¬ Q s') {s : σ} {ops : List ω}
    (hs : P s) : Always step Q s ops ↔ Guarded step ok s ops := by
  refine ⟨fun h => ?_, fun hg => (always_of_guarded hkeep hs hg).imp himp⟩
  induction ops generalizing s with
  | nil => trivial
  | cons op ops ih =>
    have hok : ok s op := by
      by_contra hn
      obtain ⟨s', h1, h2⟩ := hbreak s op hs hn
      exact h2 (always_head (h.2 s' h1))
    exact ⟨hok, fun s' h1 => ih (hkeep s op s' hs hok h1) (h.2 s' h1)⟩

/-- When a step from `P` is defined exactly if it meets the guard, and keeps `P`, a run is defined
exactly if all of its steps meet the guard. -/
theorem run_defined_iff (hkeep : ∀ s op s', P s → step s op = some s' → P s')
    (hiff : ∀ s op, P s → ((∃ s', step s op = some s') ↔ ok s op)) {s : σ} {ops : List ω}
    (hs : P s) : (∃ t, run step s ops = some t) ↔ Guarded step ok s ops := by
  induction ops generalizing s with
  | nil => exact ⟨fun _ => trivial, fun _ => ⟨s, rfl⟩⟩
  | cons op ops ih =>
    constructor
    · rintro ⟨t, ht⟩
      obtain ⟨s', h1, h2⟩ := run_cons_some.mp ht
      refine ⟨(hiff s op hs).mp ⟨s', h1⟩, fun u hu => ?_⟩
      have hus : u = s' := Option.some.inj (hu.symm.trans h1)
      exact (ih (hkeep s op u hs hu)).mp ⟨t, hus ▸ h2⟩
    · rintro ⟨hok, hg⟩
      obtain ⟨s', h1⟩ := (hiff s op hs).mpr hok
      obtain ⟨t, ht⟩ := (ih (hkeep s op s' hs h1)).mpr (hg s' h1)
      exact ⟨t, run_cons_some.mpr ⟨s', h1, ht⟩⟩

/-- When the guarded steps are defined and keep `P`, a guarded run is defined and `P` holds all
along it. -/
theorem defined_of_guarded (hkeep : ∀ s op, P s → ok s op → ∃ s', step s op = some s' ∧ P s')
    {s : σ} {ops : List ω} (hs : P s) (hg : Guarded step ok s ops) :
    (∃ t, run step s ops = some t) ∧ Always step P s ops := by
  induction ops generalizing s with
  | nil => exact ⟨⟨s, rfl⟩, hs⟩
  | cons op ops ih =>
    obtain ⟨s', h1, hs'⟩ := hkeep s op hs hg.1
    obtain ⟨⟨t, ht⟩, halways⟩ := ih hs' (hg.2 s' h1)
    refine ⟨⟨t, run_cons_some.mpr ⟨s', h1, ht⟩⟩, hs, fun u hu => ?_⟩
    rw [← Option.some.inj (h1.symm.trans hu)]
    exact halways

/-- On runs whose steps meet `dom`: when the guarded steps are defined and keep `P`, and every other
step from `P` breaks what `P` implies, a run is defined and that holds all along it exactly when its
steps meet the guard. -/
theorem defined_iff_guarded_within {dom : σ → ω → Prop} {Q : σ → Prop} (himp : ∀ s, P s → Q s)
    (hkeep : ∀ s op, P s → dom s op → ok s op → ∃ s', step s op = some s' ∧ P s')
    (hbreak : ∀ s op s', P s → dom s op → ¬ ok s op → step s op = some s' → ¬ Q s') {s : σ}
    {ops : List ω} (hs : P s) (hd : Guarded step dom s ops) :
    ((∃ t, run step s ops = some t) ∧ Always step Q s ops) ↔ Guarded step ok s ops := by
  refine ⟨fun h => ?_, fun hg => ?_⟩
  · induction ops generalizing s with
    | nil => trivial
    | cons op ops ih =>
      obtain ⟨⟨t, ht⟩, hQ, halways⟩ := h
      obtain ⟨s', h1, h2⟩ := run_cons_some.mp ht
      have hok : ok s op := by
        by_contra hn
        exact hbreak s op s' hs hd.1 hn h1 (always_head (halways s' h1))
      obtain ⟨s'', h3, hs''⟩ := hkeep s op hs hd.1 hok
      refine ⟨hok, fun u hu => ?_⟩
      have hus : u = s' := Option.some.inj (hu.symm.trans h1)
      have hsu : s'' = s' := Option.some.inj (h3.symm.trans h1)
      rw [hus]
      exact ih (hsu ▸ hs'') (hd.2 s' h1) ⟨⟨t, h2⟩, halways s' h1⟩
  · obtain ⟨hdefined, halways⟩ :=
      defined_of_guarded (fun s op h hboth => hkeep s op h hboth.1 hboth.2) hs
        (guarded_and.mpr ⟨hd, hg⟩)
    exact ⟨hdefined, halways.imp himp⟩

/-- When the guarded steps are defined and keep `P`, and every other step from `P` breaks what `P`
implies, a run is defined and that holds all along it exactly when its steps meet the guard. -/
theorem defined_iff_guarded {Q : σ → Prop} (himp : ∀ s, P s → Q s)
    (hkeep : ∀ s op, P s → ok s op → ∃ s', step s op = some s' ∧ P s')
    (hbreak : ∀ s op s', P s → ¬ ok s op → step s op = some s' → ¬ Q s') {s : σ} {ops : List ω}
    (hs : P s) :
    ((∃ t, run step s ops = some t) ∧ Always step Q s ops) ↔ Guarded step ok s ops :=
  defined_iff_guarded_within himp (fun s op h _ => hkeep s op h)
    (fun s op s' h _ => hbreak s op s' h) hs
    (guarded_of_forall (D := fun _ => True) fun _ _ => trivial)

end MediaModules.Lib.Run
