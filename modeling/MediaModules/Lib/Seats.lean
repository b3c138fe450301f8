import MediaModules.Lib.Rearrange

/-!
# Bringing wanted elements to the front

For each of the first `n` places in turn, the first element whose key is the wanted one is looked for
among the first `r` elements of an array, and exchanged with the element at the place. The array is
permuted. Elements that are there take their places when the wanted keys are distinct. A second pass
changes nothing when all are there, or when their keys are theirs alone and no key is wanted more than
twice: those wanted twice are exchanged and exchanged back.
-/
namespace MediaModules.Lib.Seats

open Lib.Rearrange

variable {α κ : Type*} [Inhabited α]

/-- Some element below `r` has the key `t`. -/
def Present (key : α → κ) (r : Nat) (a : List α) (t : κ) : Prop := ∃ j < r, key (item a j) = t

/-- Nobody who is there is wanted twice. -/
def Distinct (key : α → κ) (r : Nat) (target : Nat → κ) (n : Nat) (a : List α) : Prop :=
  ∀ i k, i < k → k < n → Present key r a (target i) → target i ≠ target k

/-- The keys of those who are wanted are theirs alone. -/
def Alone (key : α → κ) (r : Nat) (target : Nat → κ) (n : Nat) (a : List α) : Prop :=
  ∀ i < n, ∀ j < r, ∀ k < r, key (item a j) = target i → key (item a k) = target i → j = k

/-- Nobody who is there is wanted more than twice. -/
def AtMostTwice (key : α → κ) (r : Nat) (target : Nat → κ) (n : Nat) (a : List α) : Prop :=
  ∀ i j k, i < j → j < k → k < n → Present key r a (target i) → target i = target j → target j ≠ target k

variable {key : α → κ} {r : Nat} {a b : List α} {i j k n : Nat} {t t' : κ} {target : Nat → κ}

/-! ## What stays among the first elements -/

theorem within_symm {lo hi : Nat} (h : Within lo hi a b) : Within lo hi b a := by
  obtain ⟨σ, hσ, hb⟩ := h.perm
  refine ⟨h.length_eq.symm, σ.symm, fun k hk => ?_, fun k => ?_⟩
  · exact σ.symm_apply_eq.mpr (hσ k hk).symm
  · rw [hb, σ.apply_symm_apply]

/-- An element below the bound comes from below it. -/
theorem Within.from (h : Within 0 (r - 1) a b) (hj : j < r) : ∃ m < r, item b j = item a m := by
  obtain ⟨m, -, hm, heq⟩ := h.inside (Nat.zero_le j) (Nat.le_sub_one_of_lt hj)
  exact ⟨m, by omega, heq⟩

theorem present_of_within (h : Within 0 (r - 1) a b) : Present key r b t ↔ Present key r a t := by
  constructor
  · intro ⟨j, hj, hkey⟩
    obtain ⟨m, hm, heq⟩ := Within.from h hj
    exact ⟨m, hm, heq ▸ hkey⟩
  · intro ⟨j, hj, hkey⟩
    obtain ⟨m, hm, heq⟩ := Within.from (within_symm h) hj
    exact ⟨m, hm, heq ▸ hkey⟩

theorem alone_of_within (h : Within 0 (r - 1) a b) (halone : Alone key r target n a) :
    Alone key r target n b := by
  intro i hi j hj k hk hkeyj hkeyk
  obtain ⟨σ, hσ, hb⟩ := h.perm
  have hlt {m : Nat} (hm : m < r) : σ m < r := by
    by_contra hge
    have hfix := σ.injective (hσ (σ m) (by omega))
    omega
  rw [hb] at hkeyj hkeyk
  exact σ.injective (halone i hi _ (hlt hj) _ (hlt hk) hkeyj hkeyk)

/-- Two places are wanted for one who is there. -/
structure Twins (key : α → κ) (r : Nat) (target : Nat → κ) (n : Nat) (a : List α) (i k : Nat) :
    Prop where
  lt : i < k
  below : k < n
  present : Present key r a (target i)
  same : target i = target k

theorem Twins.unique {i' k' : Nat} (htwice : AtMostTwice key r target n a)
    (h : Twins key r target n a i k) (h' : Twins key r target n a i' k') (heq : target i = target i') : i = i' ∧ k = k' := by
  have hk' : target i = target k' := heq.trans h'.same
  rcases Nat.lt_trichotomy i i' with hlt | rfl | hgt
  · exact absurd h'.same (htwice i i' k' hlt h'.lt h'.below h.present heq)
  · rcases Nat.lt_trichotomy k k' with hlt | rfl | hgt
    · exact absurd (h.same.symm.trans hk') (htwice i k k' h.lt hlt h'.below h.present h.same)
    · exact ⟨rfl, rfl⟩
    · exact absurd (hk'.symm.trans h.same) (htwice i k' k h'.lt hgt h.below h.present hk')
  · exact absurd h.same (htwice i' i k hgt h.lt h.below h'.present heq.symm)

/-! ## Rounds -/

variable [DecidableEq κ]

instance (key : α → κ) (r : Nat) (a : List α) (t : κ) : Decidable (Present key r a t) :=
  inferInstanceAs (Decidable (∃ j < r, key (item a j) = t))

instance : Decidable (Distinct key r target n a) :=
  decidable_of_iff (∀ k < n, ∀ i < k, Present key r a (target i) → target i ≠ target k)
    ⟨fun h i k hik hk => h k hk i hik, fun h k hk i hik => h i k hik hk⟩

instance : Decidable (Alone key r target n a) :=
  inferInstanceAs (Decidable (∀ i < n, ∀ j < r, ∀ k < r, _ → _ → _))

instance : Decidable (AtMostTwice key r target n a) :=
  decidable_of_iff (∀ k < n, ∀ j < k, ∀ i < j,
    ¬ (Present key r a (target i) ∧ target i = target j ∧ target j = target k))
    ⟨fun h i j k hij hjk hk hi heq heq' => h k hk j hjk i hij ⟨hi, heq, heq'⟩,
      fun h k hk j hjk i hij ⟨hi, heq, heq'⟩ => h i j k hij hjk hk hi heq heq'⟩

/-- The first place below `r` with the key `t`. -/
def lookFor (key : α → κ) (r : Nat) (a : List α) (t : κ) : Option Nat :=
  (List.range r).find? fun j => key (item a j) = t

/-- The element with the key `t`, if there is one, changes places with the one at `i`. -/
def seat (key : α → κ) (r : Nat) (a : List α) (i : Nat) (t : κ) : List α :=
  match lookFor key r a t with
  | some j => swap a i j
  | none => a

/-- The places below `n` are filled in turn. -/
def seatAll (key : α → κ) (r : Nat) (target : Nat → κ) (a : List α) (n : Nat) : List α :=
  (List.range n).foldl (fun a i => seat key r a i (target i)) a

theorem seatAll_succ : seatAll key r target a (n + 1) =
    seat key r (seatAll key r target a n) n (target n) := by
  rw [seatAll, List.range_succ, List.foldl_append]
  rfl

theorem lookFor_some (h : lookFor key r a t = some j) : j < r ∧ key (item a j) = t := by
  obtain ⟨hkey, hmem, -⟩ := List.find?_range_eq_some.mp h
  exact ⟨List.mem_range.mp hmem, of_decide_eq_true hkey⟩

theorem lookFor_none : lookFor key r a t = none ↔ ¬ Present key r a t := by
  rw [lookFor, List.find?_range_eq_none]
  simp [Present]

/-- What a round does. -/
theorem seat_cases (key : α → κ) (r : Nat) (a : List α) (i : Nat) (t : κ) :
    (∃ j < r, key (item a j) = t ∧ seat key r a i t = swap a i j) ∨
      ¬ Present key r a t ∧ seat key r a i t = a := by
  rw [seat]
  cases hlook : lookFor key r a t with
  | some j =>
    obtain ⟨hj, hkey⟩ := lookFor_some hlook
    exact Or.inl ⟨j, hj, hkey, rfl⟩
  | none => exact Or.inr ⟨lookFor_none.mp hlook, rfl⟩

theorem swap_self (a : List α) (i : Nat) : swap a i i = a := by
  rw [swap, List.set_set]
  by_cases hi : i < a.length
  · rw [item, List.getD_eq_getElem?_getD, List.getElem?_eq_getElem hi]
    exact List.set_getElem_self hi
  · exact List.set_eq_of_length_le (Nat.not_lt.mp hi)

theorem seat_within {hi : Nat} (hhi : hi < a.length) (hr : r ≤ hi + 1) (hi' : i ≤ hi) (t : κ) :
    Within 0 hi a (seat key r a i t) := by
  rcases seat_cases key r a i t with ⟨j, hj, -, hseat⟩ | ⟨-, hseat⟩
  · rw [hseat]
    exact swap_within a hhi (Nat.zero_le i) hi' (Nat.zero_le j) (by omega)
  · rw [hseat]
    exact within_refl _ _ a

/-- Nobody moves but below a bound of the places and of the search. -/
theorem seatAll_within {hi : Nat} (key : α → κ) (hhi : hi < a.length) (hr : r ≤ hi + 1) (hn : n ≤ hi + 1)
    (target : Nat → κ) : Within 0 hi a (seatAll key r target a n) := by
  induction n with
  | zero => exact within_refl _ _ a
  | succ n ih =>
    have hbefore := ih (Nat.le_of_succ_le hn)
    rw [seatAll_succ]
    exact hbefore.trans (seat_within (hbefore.length_eq ▸ hhi) hr (Nat.le_of_succ_le_succ hn) _)

theorem seatAll_perm (hr : r ≤ a.length) (hn : n ≤ a.length) (target : Nat → κ) :
    (seatAll key r target a n).Perm a := by
  rcases Nat.eq_zero_or_pos a.length with hzero | hpos
  · obtain rfl : n = 0 := Nat.le_zero.mp (hzero ▸ hn)
    exact List.Perm.refl a
  · have hlast : a.length - 1 < a.length := Nat.sub_one_lt_of_lt hpos
    exact (seatAll_within key hlast (by omega) (by omega) target).toPerm hlast

/-- The first `r` elements stay together. -/
theorem seatAll_below (key : α → κ) (hr : r ≤ a.length) (hn : n ≤ r) (target : Nat → κ) :
    Within 0 (r - 1) a (seatAll key r target a n) := by
  rcases Nat.eq_zero_or_pos r with rfl | hpos
  · rw [Nat.le_zero.mp hn]
    exact within_refl _ _ a
  · exact seatAll_within key (by omega) (by omega) (by omega) target

/-! ## Who sits where -/

theorem seat_seated (hr : r ≤ a.length) (hi : i < r) (h : Present key r a t) :
    key (item (seat key r a i t) i) = t := by
  rcases seat_cases key r a i t with ⟨j, hj, hkey, hseat⟩ | ⟨hno, -⟩
  · rw [hseat, item_swap_left a (by omega) (by omega), hkey]
  · exact absurd h hno

/-- Nobody with another key leaves a place but the one at `i`. -/
theorem seat_other (hr : r ≤ a.length) (hi : i < r) (hk : k ≠ i) (hkey : key (item a k) ≠ t) :
    item (seat key r a i t) k = item a k := by
  rcases seat_cases key r a i t with ⟨j, hj, hfound, hseat⟩ | ⟨-, hseat⟩
  · have hne : k ≠ j := fun heq => hkey (heq ▸ hfound)
    rw [hseat, item_swap_other a (by omega) (by omega) hk hne]
  · rw [hseat]

/-- Who is there takes the last place it is wanted at. -/
theorem seatAll_last (hr : r ≤ a.length) (hn : n ≤ r) (hi : i < n)
    (hlast : ∀ k, i < k → k < n → target k ≠ target i) (h : Present key r a (target i)) :
    key (item (seatAll key r target a n) i) = target i := by
  induction n with
  | zero => exact absurd hi (Nat.not_lt_zero i)
  | succ n ih =>
    have hwithin := seatAll_below key hr (Nat.le_of_succ_le hn) target
    have hr' := hwithin.length_eq.symm ▸ hr
    rw [seatAll_succ]
    rcases Nat.lt_succ_iff_lt_or_eq.mp hi with hlt | rfl
    · have hseated := ih (Nat.le_of_succ_le hn) hlt fun k hik hk => hlast k hik (Nat.lt_succ_of_lt hk)
      have hother : key (item (seatAll key r target a n) i) ≠ target n :=
        hseated ▸ (hlast n hlt (Nat.lt_succ_self n)).symm
      rw [seat_other hr' hn (Nat.ne_of_lt hlt) hother, hseated]
    · exact seat_seated hr' hn ((present_of_within hwithin).mpr h)

/-- For distinct keys, everybody who is there takes the place. -/
theorem seatAll_seated (hr : r ≤ a.length) (hn : n ≤ r) (hdistinct : Distinct key r target n a)
    (hi : i < n) (h : Present key r a (target i)) : key (item (seatAll key r target a n) i) = target i :=
  seatAll_last hr hn hi (fun k hik hk heq => hdistinct i k hik hk h heq.symm) h

/-- The first places hold elements that were there before, or wanted ones. -/
theorem seatAll_low (hr : r ≤ a.length) (hn : n ≤ r) {m : Nat} (hm : n ≤ m) (hk : k < m) :
    (∃ l < m, item (seatAll key r target a n) k = item a l) ∨
      ∃ i < n, key (item (seatAll key r target a n) k) = target i := by
  induction n generalizing k with
  | zero => exact Or.inl ⟨k, hk, rfl⟩
  | succ n ih =>
    have hwithin := seatAll_below key hr (Nat.le_of_succ_le hn) target
    have hr' := hwithin.length_eq.symm ▸ hr
    have hbefore {k : Nat} (hk : k < m) :
        (∃ l < m, item (seatAll key r target a n) k = item a l) ∨
          ∃ i < n + 1, key (item (seatAll key r target a n) k) = target i := by
      rcases ih (Nat.le_of_succ_le hn) (Nat.le_of_succ_le hm) hk with hold | ⟨i, hi, hkey⟩
      · exact Or.inl hold
      · exact Or.inr ⟨i, Nat.lt_succ_of_lt hi, hkey⟩
    rw [seatAll_succ]
    rcases seat_cases key r (seatAll key r target a n) n (target n) with ⟨j, hj, hkey, hseat⟩ | ⟨-, hseat⟩
    · rw [hseat]
      by_cases hkn : k = n
      · rw [hkn, item_swap_left _ (by omega) (by omega)]
        exact Or.inr ⟨n, Nat.lt_succ_self n, hkey⟩
      · by_cases hkj : k = j
        · rw [hkj, item_swap_right _ (by omega) (by omega)]
          exact hbefore hm
        · rw [item_swap_other _ (by omega) (by omega) hkn hkj]
          exact hbefore hk
    · rw [hseat]
      exact hbefore hk

/-! ## A second pass -/

theorem seatAll_idle (h : ∀ i < n, ∀ j, lookFor key r a (target i) = some j → j = i) :
    seatAll key r target a n = a := by
  induction n with
  | zero => rfl
  | succ n ih =>
    rw [seatAll_succ, ih fun i hi => h i (Nat.lt_succ_of_lt hi), seat]
    cases hlook : lookFor key r a (target n) with
    | some j => exact (h n (Nat.lt_succ_self n) j hlook).symm ▸ swap_self a n
    | none => rfl

/-- When all who are wanted are there, and wanted once, a second pass changes nothing. -/
theorem seatAll_twice_of_present (hr : r ≤ a.length) (hn : n ≤ r) (hdistinct : Distinct key r target n a)
    (hall : ∀ i < n, Present key r a (target i)) :
    seatAll key r target (seatAll key r target a n) n = seatAll key r target a n := by
  refine seatAll_idle fun i hi j hlook => ?_
  have hseated {k : Nat} (hk : k < n) := seatAll_seated hr hn hdistinct hk (hall k hk)
  obtain ⟨hkey, -, hfirst⟩ := List.find?_range_eq_some.mp hlook
  have hkey := of_decide_eq_true hkey
  rcases Nat.lt_trichotomy j i with hlt | heq | hgt
  · have hj := hseated (Nat.lt_trans hlt hi)
    exact absurd (hj.symm.trans hkey) (hdistinct j i hlt hi (hall j (Nat.lt_trans hlt hi)))
  · exact heq
  · have hno := hfirst i hgt
    exact absurd (hseated hi) (by simpa using hno)

/-- Halfway through the second pass, at the place `m`, those wanted both before it and from it on are
at the wrong one of their places. -/
structure HalfWay (key : α → κ) (r : Nat) (target : Nat → κ) (n m : Nat) (b c : List α) : Prop where
  within : Within 0 (r - 1) b c
  twins : ∀ i k, i < m → m ≤ k → Twins key r target n b i k →
    item c i = item b k ∧ item c k = item b i
  others : ∀ s, (∀ i k, i < m → m ≤ k → Twins key r target n b i k → s ≠ i ∧ s ≠ k) → item c s = item b s

section HalfWay

variable {c : List α} {m p : Nat}

/-- The one who is wanted at a place changes places with it. -/
theorem seat_alone (halone : Alone key r target n c) (hm : m < n) (hp : p < r)
    (hkey : key (item c p) = target m) : seat key r c m (target m) = swap c m p := by
  rcases seat_cases key r c m (target m) with ⟨j, hj, hfound, hseat⟩ | ⟨hno, -⟩
  · rw [hseat, halone m hm j hj p hp hfound hkey]
  · exact absurd ⟨p, hp, hkey⟩ hno

/-- The second of two places: both are as they were. -/
theorem HalfWay.settle (h : HalfWay key r target n m b c) (hr : r ≤ b.length) (hn : n ≤ r)
    (halone : Alone key r target n b) (htwice : AtMostTwice key r target n b)
    (htwins : Twins key r target n b i m) (hkey : key (item b m) = target m) :
    HalfWay key r target n (m + 1) b (seat key r c m (target m)) := by
  have hm := htwins.below
  have hlt := htwins.lt
  have hlength := h.within.length_eq
  obtain ⟨hfirst, hsecond⟩ := h.twins i m hlt (Nat.le_refl m) htwins
  rw [seat_alone (alone_of_within h.within halone) hm (by omega) (hfirst.symm ▸ hkey)]
  refine ⟨h.within.trans (swap_within c (by omega) (by omega) (by omega) (by omega) (by omega)),
    fun i' k' hi' hk' h' => ?_, fun s hs => ?_⟩
  · have hne : target i ≠ target i' := fun heq => by
      have hunique := Twins.unique htwice htwins h' heq
      omega
    have hi : i' ≠ i := fun heq => hne (heq ▸ rfl)
    have him : i' ≠ m := fun heq => hne (heq ▸ htwins.same)
    have hki : k' ≠ i := by omega
    have hkm : k' ≠ m := by omega
    rw [item_swap_other c (by omega) (by omega) him hi, item_swap_other c (by omega) (by omega) hkm hki]
    exact h.twins i' k' (by omega) (by omega) h'
  · by_cases hsm : s = m
    · rw [hsm, item_swap_left c (by omega) (by omega), hfirst]
    · by_cases hsi : s = i
      · rw [hsi, item_swap_right c (by omega) (by omega), hsecond]
      · rw [item_swap_other c (by omega) (by omega) hsm hsi]
        refine h.others s fun i' k' hi' hk' h' => ?_
        rcases Nat.eq_or_lt_of_le hk' with rfl | hlater
        · have hunique := Twins.unique htwice htwins h' (htwins.same.trans h'.same.symm)
          exact ⟨hunique.1 ▸ hsi, hsm⟩
        · exact hs i' k' (by omega) hlater h'

/-- The first of two places: they are exchanged. -/
theorem HalfWay.exchange (h : HalfWay key r target n m b c) (hr : r ≤ b.length) (hn : n ≤ r)
    (halone : Alone key r target n b) (htwice : AtMostTwice key r target n b)
    (htwins : Twins key r target n b m k) (hkey : key (item b k) = target k) :
    HalfWay key r target n (m + 1) b (seat key r c m (target m)) := by
  have hk := htwins.below
  have hlt := htwins.lt
  have hlength := h.within.length_eq
  have hapart {i' k' : Nat} (hi' : i' < m) (h' : Twins key r target n b i' k') : target m ≠ target i' :=
    fun heq => by
      have hunique := Twins.unique htwice htwins h' heq
      omega
  have hfirst : item c m = item b m := h.others m fun i' k' hi' hk' h' =>
    ⟨by omega, fun heq => hapart hi' h' (heq ▸ h'.same.symm)⟩
  have hsecond : item c k = item b k := h.others k fun i' k' hi' hk' h' =>
    ⟨by omega, fun heq => hapart hi' h' (htwins.same.trans (heq ▸ h'.same.symm))⟩
  rw [seat_alone (alone_of_within h.within halone) (Nat.lt_trans hlt hk) (by omega)
    (hsecond.symm ▸ hkey.trans htwins.same.symm)]
  refine ⟨h.within.trans (swap_within c (by omega) (by omega) (by omega) (by omega) (by omega)),
    fun i' k' hi' hk' h' => ?_, fun s hs => ?_⟩
  · rcases Nat.lt_succ_iff_lt_or_eq.mp hi' with hearlier | rfl
    · have hkk : k' ≠ k := fun heq => hapart hearlier h' (htwins.same.trans (heq ▸ h'.same.symm))
      rw [item_swap_other c (by omega) (by omega) (by omega) (by omega),
        item_swap_other c (by omega) (by omega) (by omega) hkk]
      exact h.twins i' k' hearlier (by omega) h'
    · obtain ⟨-, rfl⟩ := Twins.unique htwice htwins h' rfl
      rw [item_swap_left c (by omega) (by omega), item_swap_right c (by omega) (by omega)]
      exact ⟨hsecond, hfirst⟩
  · obtain ⟨hsm, hsk⟩ := hs m k (Nat.lt_succ_self m) hlt htwins
    rw [item_swap_other c (by omega) (by omega) hsm hsk]
    refine h.others s fun i' k' hi' hk' h' => ?_
    rcases Nat.eq_or_lt_of_le hk' with rfl | hlater
    · exact absurd h'.same.symm (hapart hi' h')
    · exact hs i' k' (by omega) hlater h'

omit [DecidableEq κ] in
/-- A place of its own: nothing changes. -/
theorem HalfWay.skip (h : HalfWay key r target n m b c)
    (hno : ∀ i k, Twins key r target n b i k → i ≠ m ∧ k ≠ m) : HalfWay key r target n (m + 1) b c := by
  refine ⟨h.within, fun i' k' hi' hk' h' => ?_, fun s hs => h.others s fun i' k' hi' hk' h' => ?_⟩
  · have hne := (hno i' k' h').1
    exact h.twins i' k' (by omega) (by omega) h'
  · have hne := (hno i' k' h').2
    exact hs i' k' (by omega) (by omega) h'

/-- A round of the second pass. `hlast` is what the first pass has left. -/
theorem HalfWay.step (h : HalfWay key r target n m b c) (hr : r ≤ b.length) (hn : n ≤ r)
    (halone : Alone key r target n b) (htwice : AtMostTwice key r target n b) (hm : m < n)
    (hlast : ∀ i < n, Present key r b (target i) → (∀ k, i < k → k < n → target k ≠ target i) →
      key (item b i) = target i) :
    HalfWay key r target n (m + 1) b (seat key r c m (target m)) := by
  by_cases hpresent : Present key r b (target m)
  · by_cases hfirst : ∃ i, Twins key r target n b i m
    · obtain ⟨i, htwins⟩ := hfirst
      refine h.settle hr hn halone htwice htwins (hlast m hm hpresent fun k hmk hk heq => ?_)
      exact htwice i m k htwins.lt hmk hk htwins.present htwins.same heq.symm
    · by_cases hsecond : ∃ k, Twins key r target n b m k
      · obtain ⟨k, htwins⟩ := hsecond
        refine h.exchange hr hn halone htwice htwins
          (hlast k htwins.below (htwins.same ▸ hpresent) fun l hkl hl heq => ?_)
        exact htwice m k l htwins.lt hkl hl htwins.present htwins.same heq.symm
      · have hkey := hlast m hm hpresent fun k hmk hk heq => hsecond ⟨k, hmk, hk, hpresent, heq.symm⟩
        have hsame : item c m = item b m := h.others m fun i' k' _ _ h' =>
          ⟨fun heq => hsecond ⟨k', heq ▸ h'⟩, fun heq => hfirst ⟨i', heq ▸ h'⟩⟩
        rw [seat_alone (alone_of_within h.within halone) hm (by omega) (hsame.symm ▸ hkey), swap_self]
        exact h.skip fun i' k' h' => ⟨fun heq => hsecond ⟨k', heq ▸ h'⟩, fun heq => hfirst ⟨i', heq ▸ h'⟩⟩
  · have hidle : seat key r c m (target m) = c := by
      rcases seat_cases key r c m (target m) with ⟨j, hj, hfound, -⟩ | ⟨-, hseat⟩
      · exact absurd ((present_of_within h.within).mp ⟨j, hj, hfound⟩) hpresent
      · exact hseat
    rw [hidle]
    exact h.skip fun i' k' h' => ⟨fun heq => hpresent (heq ▸ h'.present),
      fun heq => hpresent (heq ▸ h'.same ▸ h'.present)⟩

/-- When the keys of those who are wanted are theirs alone, and nobody is wanted more than twice, a
second pass changes nothing in the end. -/
theorem seatAll_twice (hr : r ≤ a.length) (hn : n ≤ r) (halone : Alone key r target n a)
    (htwice : AtMostTwice key r target n a) :
    seatAll key r target (seatAll key r target a n) n = seatAll key r target a n := by
  have hwithin := seatAll_below key hr hn target
  have hr' := hwithin.length_eq.symm ▸ hr
  have hpresent {t : κ} : Present key r (seatAll key r target a n) t ↔ Present key r a t :=
    present_of_within hwithin
  have hlast : ∀ i < n, Present key r (seatAll key r target a n) (target i) →
      (∀ k, i < k → k < n → target k ≠ target i) → key (item (seatAll key r target a n) i) = target i :=
    fun i hi h hlater => seatAll_last hr hn hi hlater (hpresent.mp h)
  have htwice' : AtMostTwice key r target n (seatAll key r target a n) :=
    fun i j k hij hjk hk h => htwice i j k hij hjk hk (hpresent.mp h)
  have hway : ∀ m ≤ n, HalfWay key r target n m (seatAll key r target a n)
      (seatAll key r target (seatAll key r target a n) m) := by
    intro m hm
    induction m with
    | zero => exact ⟨within_refl _ _ _, fun i k hi => absurd hi (Nat.not_lt_zero i), fun s _ => rfl⟩
    | succ m ih =>
      rw [seatAll_succ]
      exact (ih (Nat.le_of_succ_le hm)).step hr' hn (alone_of_within hwithin halone) htwice' hm hlast
  have hend := hway n (Nat.le_refl n)
  have hitems := funext fun s => hend.others s fun i k hi hk h => absurd h.below (Nat.not_lt.mpr hk)
  rw [← map_item_range (seatAll key r target (seatAll key r target a n) n), hend.within.length_eq, hitems,
    map_item_range]

end HalfWay

end MediaModules.Lib.Seats
