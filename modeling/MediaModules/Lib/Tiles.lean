import Mathlib.Data.List.Chain
import Mathlib.Tactic.Common

/-!
# A range tiled by marked stretches

The tiles lie one behind the other. When no two with the mark of free ones touch, these are the longest
stretches free of others, so that the tiles say which room there is.
-/
namespace MediaModules.Lib.Tiles

variable {μ : Type*}

structure Tile (μ : Type*) where
  start : Nat
  len : Nat
  mark : μ

/-- The place behind a tile. -/
def Tile.stop (t : Tile μ) : Nat := t.start + t.len

/-- The tiles cover the places from `a` to `b`, in order. -/
def Covers (a : Nat) : List (Tile μ) → Nat → Prop
  | [], b => a = b
  | t :: ts, b => t.start = a ∧ 0 < t.len ∧ Covers t.stop ts b

/-- No two tiles with the mark `f` touch. -/
def Coalesced (f : μ) (ts : List (Tile μ)) : Prop := ts.IsChain fun s t => s.mark ≠ f ∨ t.mark ≠ f

variable {a b n : Nat} {f : μ} {t : Tile μ} {ts xs ys : List (Tile μ)}

/-! ## Covering -/

theorem covers_append :
    Covers a (xs ++ ys) b ↔ ∃ m, Covers a xs m ∧ Covers m ys b := by
  induction xs generalizing a with
  | nil => simp [Covers]
  | cons t xs ih =>
    rw [List.cons_append, Covers, ih]
    simp only [Covers]
    tauto

/-- A tile in the middle. -/
theorem covers_middle : Covers a (xs ++ t :: ys) b ↔
    Covers a xs t.start ∧ 0 < t.len ∧ Covers t.stop ys b := by
  simp only [covers_append, Covers]
  constructor
  · rintro ⟨m, hxs, rfl, hlen, hys⟩
    exact ⟨hxs, hlen, hys⟩
  · rintro ⟨hxs, hlen, hys⟩
    exact ⟨t.start, hxs, rfl, hlen, hys⟩

theorem Covers.le (h : Covers a ts b) : a ≤ b := by
  induction ts generalizing a with
  | nil => exact Nat.le_of_eq h
  | cons t ts ih =>
    obtain ⟨rfl, hlen, hts⟩ := h
    exact (Nat.le_add_right _ _).trans (ih hts)

theorem Covers.mem (h : Covers a ts b) (ht : t ∈ ts) : a ≤ t.start ∧ 0 < t.len ∧ t.stop ≤ b := by
  obtain ⟨xs, ys, rfl⟩ := List.append_of_mem ht
  obtain ⟨hxs, hlen, hys⟩ := covers_middle.mp h
  exact ⟨hxs.le, hlen, hys.le⟩

theorem Covers.unique {c : Nat} (h : Covers a ts b) (h' : Covers a ts c) : b = c := by
  induction ts generalizing a with
  | nil => exact h.symm.trans h'
  | cons t ts ih => exact ih h.2.2 h'.2.2

/-- Each tile lies before those behind it. -/
theorem Covers.pairwise (h : Covers a ts b) : ts.Pairwise fun s t => s.stop ≤ t.start := by
  induction ts generalizing a with
  | nil => exact List.Pairwise.nil
  | cons t ts ih =>
    obtain ⟨rfl, hlen, hts⟩ := h
    exact List.pairwise_cons.mpr ⟨fun s hs => (hts.mem hs).1, ih hts⟩

theorem Covers.nodup (h : Covers a ts b) : ts.Nodup := by
  refine h.pairwise.imp_of_mem fun {s t} hs ht hle heq => ?_
  have hlen := (h.mem ht).2.1
  rw [heq, Tile.stop] at hle
  omega

theorem Covers.exists_tile (h : Covers a ts b) {i : Nat} (ha : a ≤ i) (hb : i < b) :
    ∃ t ∈ ts, t.start ≤ i ∧ i < t.stop := by
  induction ts generalizing a with
  | nil =>
    obtain rfl : a = b := h
    omega
  | cons t ts ih =>
    obtain ⟨rfl, hlen, hts⟩ := h
    by_cases hi : i < t.stop
    · exact ⟨t, List.mem_cons_self, ha, hi⟩
    · obtain ⟨s, hs, hsi⟩ := ih hts (by omega)
      exact ⟨s, List.mem_cons_of_mem _ hs, hsi⟩

theorem Covers.eq_of_share (h : Covers a ts b) {s t : Tile μ} (hs : s ∈ ts) (ht : t ∈ ts) {i : Nat}
    (hsi : s.start ≤ i ∧ i < s.stop) (hti : t.start ≤ i ∧ i < t.stop) : s = t := by
  by_contra hne
  have hpw := List.pairwise_iff_getElem.mp h.pairwise
  obtain ⟨j, hj, rfl⟩ := List.mem_iff_getElem.mp hs
  obtain ⟨k, hk, rfl⟩ := List.mem_iff_getElem.mp ht
  rcases Nat.lt_trichotomy j k with hlt | rfl | hlt
  · have := hpw j k hj hk hlt
    omega
  · exact hne rfl
  · have := hpw k j hk hj hlt
    omega

theorem Covers.exchange {c d : Nat} {zs zs' : List (Tile μ)} (h : Covers a (xs ++ (zs ++ ys)) b)
    (hzs : Covers c zs d) (hne : zs ≠ []) (hzs' : Covers c zs' d) :
    Covers a (xs ++ (zs' ++ ys)) b := by
  obtain ⟨m, hxs, hrest⟩ := covers_append.mp h
  obtain ⟨m', hm, hys⟩ := covers_append.mp hrest
  obtain ⟨z, zs, rfl⟩ := List.exists_cons_of_ne_nil hne
  obtain ⟨h1, -, hm⟩ := hm
  obtain ⟨h2, -, hzs⟩ := hzs
  obtain rfl := hm.unique hzs
  exact covers_append.mpr ⟨m, hxs, covers_append.mpr ⟨_, by rw [← h1, h2]; exact hzs', hys⟩⟩

/-! ## Touching tiles -/

theorem coalesced_middle : Coalesced f (xs ++ t :: ys) ↔ Coalesced f xs ∧ Coalesced f ys ∧
    (∀ s ∈ xs.getLast?, s.mark ≠ f ∨ t.mark ≠ f) ∧ ∀ s ∈ ys.head?, t.mark ≠ f ∨ s.mark ≠ f := by
  rw [Coalesced, List.isChain_append, List.isChain_cons]
  constructor
  · rintro ⟨hxs, ⟨hhead, hys⟩, hlast⟩
    exact ⟨hxs, hys, fun s hs => hlast s hs t rfl, hhead⟩
  · rintro ⟨hxs, hys, hlast, hhead⟩
    refine ⟨hxs, ⟨hhead, hys⟩, ?_⟩
    rintro s hs _ ⟨⟩
    exact hlast s hs

/-! ## Free places -/

/-- A place of the range that no tile with another mark covers. -/
def FreeAt (f : μ) (a : Nat) (ts : List (Tile μ)) (b i : Nat) : Prop :=
  a ≤ i ∧ i < b ∧ ∀ t ∈ ts, t.mark ≠ f → ¬ (t.start ≤ i ∧ i < t.stop)

/-- A stretch of places with the property `P` that cannot be made longer. -/
structure MaxStretch (P : Nat → Prop) (s len : Nat) : Prop where
  pos : 0 < len
  inside : ∀ i, s ≤ i → i < s + len → P i
  before : ∀ i, i + 1 = s → ¬ P i
  behind : ¬ P (s + len)

section

variable {P : Nat → Prop} {s len s' len' : Nat}

/-- A stretch with the property that touches a longest one lies within. -/
theorem MaxStretch.within (h : MaxStretch P s len) {p m : Nat} (hm : ∀ i, p ≤ i → i < p + m → P i)
    {i : Nat} (hi : p ≤ i ∧ i < p + m) (hsi : s ≤ i ∧ i < s + len) : s ≤ p ∧ p + m ≤ s + len := by
  constructor
  · by_contra hlt
    exact h.before (s - 1) (by omega) (hm (s - 1) (by omega) (by omega))
  · by_contra hlt
    exact h.behind (hm (s + len) (by omega) (by omega))

/-- Two longest stretches that share a place are one. -/
theorem MaxStretch.unique (h : MaxStretch P s len) (h' : MaxStretch P s' len') {i : Nat}
    (hi : s ≤ i ∧ i < s + len) (hi' : s' ≤ i ∧ i < s' + len') : s = s' ∧ len = len' := by
  obtain ⟨h1, h2⟩ := h.within h'.inside hi' hi
  obtain ⟨h3, h4⟩ := h'.within h.inside hi hi'
  omega

end

theorem maxStretch_of_mem (h : Covers a ts b) (hc : Coalesced f ts) (ht : t ∈ ts)
    (hfree : t.mark = f) : MaxStretch (FreeAt f a ts b) t.start t.len := by
  obtain ⟨hstart, hlen, hstop⟩ := h.mem ht
  refine ⟨hlen, fun i h1 h2 => ⟨by omega, by rw [Tile.stop] at hstop; omega, fun s hs hused hsi => ?_⟩,
    fun i hi hP => ?_, fun hP => ?_⟩
  · exact hused (h.eq_of_share hs ht hsi ⟨h1, h2⟩ ▸ hfree)
  all_goals
    obtain ⟨xs, ys, rfl⟩ := List.append_of_mem ht
    obtain ⟨hxs, -, hys⟩ := covers_middle.mp h
    obtain ⟨-, -, hlast, hhead⟩ := coalesced_middle.mp hc
  · -- The tile before is another one.
    obtain ⟨s, hs, hsi⟩ := hxs.exists_tile hP.1 (by omega : i < t.start)
    obtain ⟨us, vs, rfl⟩ := List.append_of_mem hs
    cases vs with
    | nil =>
      exact hP.2.2 s (by simp) ((hlast s (by simp)).resolve_right (not_not.mpr hfree)) hsi
    | cons v vs =>
      obtain ⟨-, -, hv, hvlen, hvs⟩ := covers_middle.mp hxs
      have hle := hvs.le
      simp only [Tile.stop] at hsi hv hle
      omega
  · -- So is the tile behind.
    cases ys with
    | nil =>
      obtain rfl : t.stop = b := hys
      exact absurd hP.2.1 (Nat.lt_irrefl _)
    | cons v ys =>
      obtain ⟨hv, hvlen, -⟩ := hys
      refine hP.2.2 v (by simp) ((hhead v rfl).resolve_left (not_not.mpr hfree)) ?_
      simp only [Tile.stop] at hv ⊢
      omega

theorem FreeAt.exists_tile (h : Covers a ts b) {i : Nat} (hi : FreeAt f a ts b i) :
    ∃ t ∈ ts, t.mark = f ∧ t.start ≤ i ∧ i < t.stop := by
  obtain ⟨t, ht, hti⟩ := h.exists_tile hi.1 hi.2.1
  exact ⟨t, ht, by_contra fun hused => hi.2.2 t ht hused hti, hti⟩

/-- The longest free stretches are the free tiles. -/
theorem maxStretch_iff (h : Covers a ts b) (hc : Coalesced f ts) {s len : Nat} :
    MaxStretch (FreeAt f a ts b) s len ↔ ⟨s, len, f⟩ ∈ ts := by
  constructor
  · intro hmax
    obtain ⟨t, ht, hfree, hti⟩ := FreeAt.exists_tile h
      (hmax.inside s le_rfl (Nat.lt_add_of_pos_right hmax.pos))
    obtain ⟨rfl, rfl⟩ := (maxStretch_of_mem h hc ht hfree).unique hmax hti
      ⟨le_rfl, Nat.lt_add_of_pos_right hmax.pos⟩
    rw [← hfree]
    exact ht
  · intro ht
    exact maxStretch_of_mem h hc ht rfl

/-- Free places in a row lie in one free tile. -/
theorem exists_tile_of_stretch (h : Covers a ts b) (hc : Coalesced f ts) (h0 : 0 < n) {p : Nat}
    (hp : ∀ i, p ≤ i → i < p + n → FreeAt f a ts b i) :
    ∃ t ∈ ts, t.mark = f ∧ n ≤ t.len := by
  have hhere : p ≤ p ∧ p < p + n := ⟨le_rfl, Nat.lt_add_of_pos_right h0⟩
  obtain ⟨t, ht, hfree, hti⟩ := FreeAt.exists_tile h (hp p hhere.1 hhere.2)
  obtain ⟨h1, h2⟩ := (maxStretch_of_mem h hc ht hfree).within hp hhere hti
  exact ⟨t, ht, hfree, by omega⟩

end MediaModules.Lib.Tiles
