import MediaModules.Decoder.Scheduler
import MediaModules.Lib.RoundRobin

/-!
# The election

While no core is combined the thread looks, from the highest core down, for a decoder that is ready for
the core. The decoders take turns on each core.
-/
namespace MediaModules.Scheduler

open Lib.Run Lib.RoundRobin Scheduler.Core

/-- The core is used, and no decoder has it. -/
def Idle (s : Core) (core : Nat) : Prop := coresUsed core = true ∧ s.schedMask.getLsbD core = false

instance (s : Core) (core : Nat) : Decidable (Idle s core) := inferInstanceAs (Decidable (_ ∧ _))

/-- The decoder is offered the core, and ready for it. -/
def Ready (c : Setup) (s : Core) (env : Nat → ReadyEnv) (core v : Nat) : Prop :=
  offered c s core v ≠ 0 ∧ vdecReadyToRun c s v (env v) (offered c s core v) ≠ 0

instance (c : Setup) (s : Core) (env : Nat → ReadyEnv) (core v : Nat) : Decidable (Ready c s env core v) :=
  inferInstanceAs (Decidable (_ ∧ _))

/-- Each of the last decoders is in the list. -/
def LastsConnected (c : Setup) (s : Core) : Prop :=
  ∀ core last, vdecGetLastVdec c s core = some last → last ∈ s.connectedVdecList

section Search

variable (c : Setup) (s : Core) (env : Nat → ReadyEnv) (core : Nat)

/-- A decoder with the cores that it is ready for. -/
def withCores (v : Nat) : Nat × Mask := (v, vdecReadyToRun c s v (env v) (offered c s core v))

/-- The first decoder in turn that is ready for the core. -/
def firstInTurn : Option (Nat × Mask) :=
  ((inTurn s.connectedVdecList (vdecGetLastVdec c s core)).find? fun v =>
    Ready c s env core v).map (withCores c s env core)

/-- The search through the cores below a bound, from the highest one down. -/
def elected : Nat → Option (Nat × Mask)
  | 0 => none
  | core + 1 => (if Idle s core then firstInTurn c s env core else none).or (elected core)

theorem electBehind_eq (vs : List Nat) : electBehind c s env core vs =
    (vs.find? fun v => Ready c s env core v).map (withCores c s env core) := by
  induction vs with
  | nil => rfl
  | cons v vs ih =>
    rw [electBehind, List.find?_cons]
    by_cases hmask : offered c s core v = 0
    · have hnot : ¬ Ready c s env core v := fun h => h.1 hmask
      simp only [hmask, if_true, hnot, decide_false, ih]
    · by_cases hready : vdecReadyToRun c s v (env v) (offered c s core v) = 0
      · have hnot : ¬ Ready c s env core v := fun h => h.2 hready
        simp only [hmask, if_false, hready, ne_eq, not_true_eq_false, hnot, decide_false, ih]
      · have hyes : Ready c s env core v := ⟨hmask, hready⟩
        simp only [hmask, if_false, hready, ne_eq, not_false_eq_true, if_true, hyes, decide_true]
        rfl

theorem electFrom_eq (vs : List Nat) : electFrom c s env core vs =
    ((upTo vs (vdecGetLastVdec c s core)).find? fun v => Ready c s env core v).map
      (withCores c s env core) := by
  induction vs with
  | nil => rfl
  | cons v vs ih =>
    rw [electFrom, upTo, List.find?_cons]
    by_cases hyes : Ready c s env core v
    · simp only [hyes.1, if_false, hyes.2, ne_eq, not_false_eq_true, if_true, hyes, decide_true]
      rfl
    · have hzero : (if offered c s core v = 0 then 0
          else vdecReadyToRun c s v (env v) (offered c s core v)) = 0 := by
        split
        · rfl
        · next hmask =>
          by_contra hready
          exact hyes ⟨hmask, hready⟩
      simp only [hzero, ne_eq, not_true_eq_false, if_false, hyes, decide_false]
      split
      · rfl
      · exact ih

/-- The two searches of a core together go through the decoders in turn. -/
theorem firstInTurn_last {last : Nat} (hlast : vdecGetLastVdec c s core = some last)
    (hmem : last ∈ s.connectedVdecList) : firstInTurn c s env core =
      (electBehind c s env core (behind s.connectedVdecList last)).or
        (electFrom c s env core s.connectedVdecList) := by
  rw [firstInTurn, hlast, inTurn_some hmem, List.find?_append, electBehind_eq, electFrom_eq, hlast]
  exact Option.map_or

theorem firstInTurn_none (hlast : vdecGetLastVdec c s core = none) :
    firstInTurn c s env core = electFrom c s env core s.connectedVdecList := by
  rw [firstInTurn, electFrom_eq, hlast, upTo_none]
  rfl

/-! ## The loop over the cores -/

theorem found_phase (phase next : Phase) (r : Option (Nat × Mask)) :
    ({ s with phase := phase }).found next r = s.found next r := by
  cases r <;> rfl

theorem electBehind_phase (phase : Phase) (vs : List Nat) :
    electBehind c { s with phase := phase } env core vs = electBehind c s env core vs := by
  rw [electBehind_eq, electBehind_eq]
  rfl

theorem electFrom_phase (phase : Phase) (vs : List Nat) :
    electFrom c { s with phase := phase } env core vs = electFrom c s env core vs := by
  rw [electFrom_eq, electFrom_eq]
  rfl

/-- From a phase the thread goes, in some sections, to where the election has the result. -/
def Elects (phase : Phase) (r : Option (Nat × Mask)) : Prop :=
  ∃ n, run (step c) { s with phase := phase } (List.replicate n (.thread env)) =
    some (s.found .finish r)

variable {c s env core}

theorem Elects.section {phase phase' : Phase} {r : Option (Nat × Mask)}
    (hstep : ({ s with phase := phase }).threadStep c env = some { s with phase := phase' })
    (h : Elects c s env phase' r) : Elects c s env phase r := by
  obtain ⟨n, hn⟩ := h
  exact ⟨n + 1, run_cons_some.mpr ⟨_, hstep, hn⟩⟩

/-- A search ends the election, or the thread goes on. -/
theorem Elects.search {phase next : Phase} {first r : Option (Nat × Mask)}
    (hstep : ({ s with phase := phase }).threadStep c env = some (s.found next first))
    (h : Elects c s env next r) : Elects c s env phase (first.or r) := by
  cases first with
  | none => exact Elects.section hstep h
  | some found => exact ⟨1, run_cons_some.mpr ⟨_, hstep, rfl⟩⟩

theorem Elects.fromHead {r : Option (Nat × Mask)} (h : Elects c s env (nextCore core) r) :
    Elects c s env (.elect core false) ((electFrom c s env core s.connectedVdecList).or r) := by
  refine Elects.search ?_ h
  rw [← electFrom_phase c s env core (.elect core false), ← found_phase s (.elect core false)]
  rfl

theorem threadStep_core : ({ s with phase := .elect core true }).threadStep c env =
    if ¬ Idle s core then some { s with phase := nextCore core }
    else match vdecGetLastVdec c s core with
      | none => some { s with phase := .elect core false }
      | some last =>
        if last ∈ s.connectedVdecList then
          some (s.found (.elect core false)
            (electBehind c s env core (behind s.connectedVdecList last)))
        else none := by
  have hpass : ((!coresUsed core || s.schedMask.getLsbD core) = true) ↔ ¬ Idle s core := by
    rw [Idle]
    cases coresUsed core <;> cases s.schedMask.getLsbD core <;> decide
  have hlast : vdecGetLastVdec c { s with phase := .elect core true } core =
      vdecGetLastVdec c s core := rfl
  rw [threadStep]
  simp only [hpass, hlast, electBehind_phase, found_phase]
  rfl

/-- A core is passed over when it is not idle, else the decoders are asked in turn. -/
theorem Elects.turn {r : Option (Nat × Mask)} (hlasts : LastsConnected c s)
    (h : Elects c s env (nextCore core) r) : Elects c s env (.elect core true)
      ((if Idle s core then firstInTurn c s env core else none).or r) := by
  by_cases hidle : Idle s core
  · rw [if_pos hidle]
    cases hlast : vdecGetLastVdec c s core with
    | none =>
      rw [firstInTurn_none c s env core hlast]
      refine Elects.section ?_ h.fromHead
      rw [threadStep_core, if_neg (not_not_intro hidle), hlast]
    | some last =>
      have hmem := hlasts core last hlast
      rw [firstInTurn_last c s env core hlast hmem, Option.or_assoc]
      refine Elects.search ?_ h.fromHead
      rw [threadStep_core, if_neg (not_not_intro hidle), hlast]
      exact if_pos hmem
  · rw [if_neg hidle]
    refine Elects.section ?_ h
    rw [threadStep_core, if_pos hidle]

/-- The election searches the cores from the highest one down. -/
theorem elects_elected (hlasts : LastsConnected c s) :
    ∀ cores, Elects c s env (nextCore cores) (elected c s env cores)
  | 0 => ⟨0, rfl⟩
  | core + 1 => (elects_elected hlasts core).turn hlasts

end Search

/-! ## Who is elected -/

/-- The decoder is the first in turn that is ready for the core, and no decoder is ready for a higher one
that is idle. -/
structure Chosen (c : Setup) (s : Core) (env : Nat → ReadyEnv) (core v : Nat) : Prop where
  idle : Idle s core
  ready : Ready c s env core v
  highest : ∀ above, core < above → Idle s above →
    ∀ w ∈ s.connectedVdecList, ¬ Ready c s env above w
  first : ∃ before after,
    inTurn s.connectedVdecList (vdecGetLastVdec c s core) = before ++ v :: after ∧
      ∀ w ∈ before, ¬ Ready c s env core w

section Who

variable {c : Setup} {s : Core} {env : Nat → ReadyEnv} {core : Nat}

theorem Idle.lt (h : Idle s core) : core < VDEC_MAX := by
  have hused := h.1
  simp only [coresUsed, Bool.or_eq_true, decide_eq_true_eq] at hused
  obtain (rfl | rfl) | rfl := hused <;> decide

theorem firstInTurn_eq_none :
    firstInTurn c s env core = none ↔ ∀ v ∈ s.connectedVdecList, ¬ Ready c s env core v := by
  rw [firstInTurn, Option.map_eq_none_iff, List.find?_eq_none]
  simp only [mem_inTurn, decide_eq_true_eq]

theorem elected_eq_none (cores : Nat) : elected c s env cores = none ↔
    ∀ core < cores, Idle s core → ∀ v ∈ s.connectedVdecList, ¬ Ready c s env core v := by
  induction cores with
  | zero => exact iff_of_true rfl fun _ h => absurd h (Nat.not_lt_zero _)
  | succ cores ih =>
    rw [elected, Option.or_eq_none_iff, ih, ite_eq_right_iff, firstInTurn_eq_none]
    constructor
    · rintro ⟨hlast, hbelow⟩ core hcore
      obtain hlt | rfl := Nat.lt_succ_iff_lt_or_eq.mp hcore
      · exact hbelow core hlt
      · exact hlast
    · intro h
      exact ⟨h cores (Nat.lt_succ_self cores), fun core hcore => h core (Nat.lt_succ_of_lt hcore)⟩

/-- What is elected below a bound, when nobody is ready for a core from the bound on. -/
theorem chosen_of_elected {r : Nat × Mask} :
    ∀ cores, (∀ above, cores ≤ above → Idle s above →
      ∀ w ∈ s.connectedVdecList, ¬ Ready c s env above w) →
    elected c s env cores = some r →
      ∃ core, Chosen c s env core r.1 ∧ r = withCores c s env core r.1
  | 0, _, h => nomatch h
  | cores + 1, habove, h => by
    rw [elected, Option.or_eq_some_iff] at h
    obtain hfirst | ⟨hnone, hbelow⟩ := h
    · split at hfirst
      · next hidle =>
        obtain ⟨v, hfind, rfl⟩ := Option.map_eq_some_iff.mp hfirst
        obtain ⟨hready, before, after, hturn, hbefore⟩ := List.find?_eq_some_iff_append.mp hfind
        exact ⟨cores, ⟨hidle, of_decide_eq_true hready, habove, before, after, hturn,
          fun w hw => by simpa using hbefore w hw⟩, rfl⟩
      · cases hfirst
    · refine chosen_of_elected cores (fun above hle hidle => ?_) hbelow
      obtain hlt | rfl := Nat.lt_or_eq_of_le hle
      · exact habove above hlt hidle
      · rw [if_pos hidle] at hnone
        exact firstInTurn_eq_none.mp hnone

/-- An election that nothing else disturbs comes to an end. It elects nobody exactly when no connected
decoder is ready for a core that is idle, else the first in turn that is ready for the highest core
somebody is ready for. -/
theorem election_round_robin (hphase : s.phase = .elect (VDEC_MAX - 1) true)
    (hlasts : LastsConnected c s) : ∃ n r,
      run (step c) s (List.replicate n (.thread env)) = some (s.found .finish r) ∧
      (r = none ↔ ∀ core, Idle s core → ∀ v ∈ s.connectedVdecList, ¬ Ready c s env core v) ∧
      ∀ v mask, r = some (v, mask) → ∃ core, Chosen c s env core v ∧
        mask = vdecReadyToRun c s v (env v) (offered c s core v) := by
  obtain ⟨n, hn⟩ := @elects_elected c s env hlasts VDEC_MAX
  refine ⟨n, elected c s env VDEC_MAX, ?_, ?_, fun v mask hr => ?_⟩
  · have hs : { s with phase := nextCore VDEC_MAX } = s := by
      rw [show nextCore VDEC_MAX = s.phase from hphase.symm]
    rwa [hs] at hn
  · rw [elected_eq_none]
    exact ⟨fun h core hidle => h core hidle.lt hidle, fun h core _ => h core⟩
  · obtain ⟨core, hchosen, heq⟩ := chosen_of_elected VDEC_MAX
      (fun above hle hidle => absurd hidle.lt (Nat.not_lt.mpr hle)) hr
    exact ⟨core, hchosen, congrArg Prod.snd heq⟩

end Who

/-- Three decoders of the front core, all connected; the second one had the last turn. -/
def threeConnected : Core where
  connectedVdecList := [1, 2, 3]
  lastHevc := some 2
  vdec := fun _ => { status := .connected, nextStatus := .connected }
  phase := .elect (VDEC_MAX - 1) true

def frontCores : Setup where
  coreMask := fun _ => CORE_MASK_HEVC
  vdecCombineFlag := 0

theorem election_round_robin_three : ∃ n r,
    run (step frontCores) threeConnected (List.replicate n (.thread allReady)) =
      some (threeConnected.found .finish r) ∧
    (r = none ↔ ∀ core, Idle threeConnected core →
      ∀ v ∈ threeConnected.connectedVdecList, ¬ Ready frontCores threeConnected allReady core v) ∧
    ∀ v mask, r = some (v, mask) → ∃ core, Chosen frontCores threeConnected allReady core v ∧
      mask = vdecReadyToRun frontCores threeConnected v (allReady v)
        (offered frontCores threeConnected core v) := by
  refine election_round_robin rfl fun core last hlast => ?_
  have hmem := vdecGetLastVdec_mem hlast
  simp only [lasts, threeConnected, List.mem_cons, reduceCtorEq, Option.some.injEq, List.not_mem_nil,
    or_false, false_or] at hmem
  exact hmem ▸ by decide

/-- After the second decoder the third one is elected. -/
example : elected frontCores threeConnected allReady VDEC_MAX = some (3, CORE_MASK_HEVC) := by decide

end MediaModules.Scheduler
