import MediaModules.Hevc.DisplayQueues

/-!
# The balance of frames and pictures

The books cover the frames that a call has in hand between two queues, and the picture that is output
without being shown, whose mark is already taken back.
-/
namespace MediaModules.Hevc.Display

open MediaModules.Lib.Run

/-- A pending frame that the picture completes is shown, and one that is recycled is the only frame
of its picture. -/
def FieldOk (s : State) (topFlag showFrame : Bool) : Prop :=
  ∀ v ∈ s.pendingQ,
    if s.Open v topFlag then showFrame = true else ∀ q, s.Names q v → s.vfRef q = 1

/-- The other field that a field of a frame looks for is not its own picture; if the field completed
a pending frame before, it is there. -/
def OtherOk (s : State) (p : Pic) (other : Option Pic) (topFlag : Bool) : Prop :=
  other ≠ some p ∧
    ((∀ v ∈ s.pendingQ, ¬ s.Open v topFlag) ∨ ∃ r, other = some r ∧ 0 < s.vfRef r)

/-- The number of frames that show a picture. -/
def needed (picStruct : Nat) : Nat :=
  if picStruct = 3 ∨ picStruct = 4 then 2 else if picStruct = 5 ∨ picStruct = 6 then 3 else 1

/-- A picture is output without harm: there are free frames enough, and a field finds what it needs.
A picture that is not shown needs none if there is none. -/
def OutputOk (s : State) (p : Pic) (picStruct : Nat) (showFrame : Bool) : Prop :=
  (s.newframeQ = [] ∧ showFrame = false) ∨
  needed picStruct ≤ s.newframeQ.length ∧
    (picStruct = 1 ∨ picStruct = 9 ∨ picStruct = 11 → FieldOk s true showFrame) ∧
    (picStruct = 2 ∨ picStruct = 10 ∨ picStruct = 12 → FieldOk s false showFrame) ∧
    (picStruct = 9 → showFrame = true → OtherOk s p s.preBotPic true) ∧
    (picStruct = 10 → showFrame = true → OtherOk s p s.preTopPic false)

/-- The flush finds no picture with one frame in an interlaced stream. -/
def EventOk (s : State) : Event → Prop
  | .output p picStruct showFrame => OutputOk s p picStruct showFrame
  | .flush interlaceFlag => interlaceFlag = true → ∀ p, s.vfRef p ≠ 1
  | _ => True

/-- The books with the frames `hand` between the queues and the picture `hide` not to be shown. -/
structure Books (s : State) (hand : List Vframe) (hide : Option Pic) : Prop where
  places : ∀ v, s.newframeQ.count v + s.pendingQ.count v + s.displayQ.count v + s.held.count v +
    hand.count v = 1
  counts : ∀ p, s.vfRef p = s.pendingQ.countP (s.Names p) + s.displayQ.countP (s.Names p) +
    s.held.countP (s.Names p) + hand.countP (s.Names p)
  ready : ∀ p, hide ≠ some p → (s.outputReady p = true ↔ 0 < s.vfRef p)
  hidden : ∀ p, hide = some p → s.outputReady p = false
  distinct : ∀ v p, s.top v = some p → s.bot v ≠ some p

section Frames
variable {s t : State} {hand : List Vframe} {hide : Option Pic} {v : Vframe} {p q : Pic}

/-- What one byte of the index of a frame that is put back does to each picture. -/
theorem dropRef_spec (s : State) (o : Option Pic) :
    ∃ ref ready, dropRef s o = { s with vfRef := ref, outputReady := ready } ∧
      (∀ p, ref p = s.vfRef p - if o = some p then 1 else 0) ∧
      ∀ p, ready p = if o = some p ∧ s.vfRef p = 1 then false else s.outputReady p := by
  cases o with
  | none => exact ⟨_, _, rfl, fun p => by simp, fun p => by simp⟩
  | some q =>
    unfold dropRef
    dsimp only
    split
    · refine ⟨_, _, rfl, fun p => ?_, fun p => ?_⟩
      · simp only [State.setRef, Option.some.injEq, eq_comm (a := q)]
        by_cases he : p = q
        · rw [if_pos he, if_pos he, he]
        · rw [if_neg he, if_neg he, Nat.sub_zero]
      · simp only [Option.some.injEq, eq_comm (a := q)]
        by_cases he : p = q
        · rw [he]
        · simp [he]
    · refine ⟨_, _, rfl, fun p => ?_, fun p => ?_⟩
      · split
        · rename_i he
          obtain rfl := Option.some.inj he
          omega
        · rw [Nat.sub_zero]
      · split
        · rename_i he
          obtain rfl := Option.some.inj he.1
          omega
        · rfl

/-- What putting a frame back does to each picture. -/
theorem put_spec (s : State) (v : Vframe) (hdistinct : ∀ p, s.top v = some p → s.bot v ≠ some p) :
    ∃ ref ready, vh265VfPut s v =
        { s with newframeQ := s.newframeQ ++ [v], vfRef := ref, outputReady := ready } ∧
      (∀ p, ref p = s.vfRef p - if s.Names p v then 1 else 0) ∧
      ∀ p, ready p = if s.Names p v ∧ s.vfRef p = 1 then false else s.outputReady p := by
  obtain ⟨ref1, ready1, h1, href1, hready1⟩ :=
    dropRef_spec { s with newframeQ := s.newframeQ ++ [v] } (s.top v)
  obtain ⟨ref2, ready2, h2, href2, hready2⟩ :=
    dropRef_spec { s with newframeQ := s.newframeQ ++ [v], vfRef := ref1, outputReady := ready1 }
      (s.bot v)
  refine ⟨ref2, ready2, ?_, fun p => ?_, fun p => ?_⟩
  · show dropRef (dropRef { s with newframeQ := s.newframeQ ++ [v] } (s.top v)) (s.bot v) = _
    rw [h1, h2]
  · have hd := hdistinct p
    simp only [href2, href1, State.Names]
    by_cases ht : s.top v = some p <;> by_cases hb : s.bot v = some p <;> simp_all
  · have hd := hdistinct p
    simp only [hready2, hready1, href1, State.Names]
    by_cases ht : s.top v = some p <;> by_cases hb : s.bot v = some p <;> simp_all

theorem recycle_spec (s : State) (v : Vframe) :
    ∃ ref ready, (recyclePendingVframe s v).2 =
        { s with newframeQ := s.newframeQ ++ [v], vfRef := ref, outputReady := ready } ∧
      (∀ p, ref p = if s.Names p v then 0 else s.vfRef p) ∧
      ∀ p, ready p = if s.Names p v then false else s.outputReady p := by
  have hone : ∀ (s : State) (o : Option Pic), ∃ ref ready, clearRef s o =
        { s with vfRef := ref, outputReady := ready } ∧
      (∀ p, ref p = if o = some p then 0 else s.vfRef p) ∧
      ∀ p, ready p = if o = some p then false else s.outputReady p := by
    intro s o
    cases o with
    | none => exact ⟨_, _, rfl, fun p => by simp, fun p => by simp⟩
    | some q =>
      refine ⟨_, _, rfl, fun p => ?_, fun p => ?_⟩
      · simp only [State.setRef, Option.some.injEq, eq_comm (a := q)]
      · simp only [Option.some.injEq, eq_comm (a := q)]
  unfold recyclePendingVframe
  dsimp only
  split
  · rename_i hnone
    refine ⟨_, _, rfl, fun p => ?_, fun p => ?_⟩ <;> simp [State.Names, hnone]
  · obtain ⟨ref1, ready1, h1, href1, hready1⟩ :=
      hone { s with newframeQ := s.newframeQ ++ [v] } (s.top v)
    obtain ⟨ref2, ready2, h2, href2, hready2⟩ :=
      hone { s with newframeQ := s.newframeQ ++ [v], vfRef := ref1, outputReady := ready1 }
        (s.bot v)
    refine ⟨ref2, ready2, by rw [h1, h2], fun p => ?_, fun p => ?_⟩
    · simp only [href2, href1, State.Names]
      by_cases ht : s.top v = some p <;> by_cases hb : s.bot v = some p <;> simp [ht, hb]
    · simp only [hready2, hready1, State.Names]
      by_cases ht : s.top v = some p <;> by_cases hb : s.bot v = some p <;> simp [ht, hb]

theorem countP_names {l : List Vframe} (h : ∀ u ∈ l, t.Names p u ↔ s.Names p u) :
    l.countP (t.Names p) = l.countP (s.Names p) :=
  List.countP_congr fun u hu => by simp [h u hu]

theorem Books.push (h : Books s (v :: hand) hide) :
    Books { s with displayQ := s.displayQ ++ [v] } hand hide := by
  refine ⟨fun u => ?_, fun p => ?_, h.ready, h.hidden, h.distinct⟩
  · have hu := h.places u
    simp only [List.count_append, List.count_cons, List.count_nil] at hu ⊢
    omega
  · have hp := h.counts p
    show s.vfRef p = s.pendingQ.countP (s.Names p) + (s.displayQ ++ [v]).countP (s.Names p) +
      s.held.countP (s.Names p) + hand.countP (s.Names p)
    simp only [List.countP_append, List.countP_cons, List.countP_nil] at hp ⊢
    omega

theorem Books.pend (h : Books s (v :: hand) hide) :
    Books { s with pendingQ := s.pendingQ ++ [v] } hand hide := by
  refine ⟨fun u => ?_, fun p => ?_, h.ready, h.hidden, h.distinct⟩
  · have hu := h.places u
    simp only [List.count_append, List.count_cons, List.count_nil] at hu ⊢
    omega
  · have hp := h.counts p
    show s.vfRef p = (s.pendingQ ++ [v]).countP (s.Names p) + s.displayQ.countP (s.Names p) +
      s.held.countP (s.Names p) + hand.countP (s.Names p)
    simp only [List.countP_append, List.countP_cons, List.countP_nil] at hp ⊢
    omega

/-- Putting a frame back. -/
theorem Books.put (h : Books s (v :: hand) hide) : Books (vh265VfPut s v) hand hide := by
  obtain ⟨ref, ready, heq, href, hready⟩ := put_spec s v (h.distinct v)
  rw [heq]
  have hv : ∀ p, (if s.Names p v then 1 else 0) ≤ s.vfRef p := by
    intro p
    rw [h.counts p, List.countP_cons]
    simp only [decide_eq_true_eq]
    omega
  refine ⟨fun u => ?_, fun p => ?_, fun p hp => ?_, fun p hp => ?_, h.distinct⟩
  · have hu := h.places u
    simp only [List.count_append, List.count_cons, List.count_nil] at hu ⊢
    omega
  · have hp := h.counts p
    show ref p = s.pendingQ.countP (s.Names p) + s.displayQ.countP (s.Names p) +
      s.held.countP (s.Names p) + hand.countP (s.Names p)
    rw [href, hp, List.countP_cons]
    simp only [decide_eq_true_eq]
    omega
  · have hr := h.ready p hp
    show ready p = true ↔ 0 < ref p
    rw [hready, href]
    by_cases hn : s.Names p v
    · have hpos := hv p
      rw [if_pos hn] at hpos ⊢
      by_cases hone : s.vfRef p = 1
      · simp [hn, hone]
      · rw [if_neg fun h => hone h.2, hr]
        omega
    · rw [if_neg fun h => hn h.1, if_neg hn, hr, Nat.sub_zero]
  · show ready p = false
    rw [hready, h.hidden p hp, ite_self]

theorem Books.recycle (h : Books s (v :: hand) hide) (honly : ∀ q, s.Names q v → s.vfRef q = 1) :
    Books (recyclePendingVframe s v).2 hand hide := by
  obtain ⟨ref, ready, heq, href, hready⟩ := recycle_spec s v
  rw [heq]
  refine ⟨fun u => ?_, fun p => ?_, fun p hp => ?_, fun p hp => ?_, h.distinct⟩
  · have hu := h.places u
    simp only [List.count_append, List.count_cons, List.count_nil] at hu ⊢
    omega
  · have hp := h.counts p
    show ref p = s.pendingQ.countP (s.Names p) + s.displayQ.countP (s.Names p) +
      s.held.countP (s.Names p) + hand.countP (s.Names p)
    rw [List.countP_cons] at hp
    simp only [decide_eq_true_eq] at hp
    rw [href]
    split
    · rename_i hn
      have hone := honly p hn
      rw [if_pos hn] at hp
      omega
    · rename_i hn
      rw [if_neg hn] at hp
      omega
  · show ready p = true ↔ 0 < ref p
    rw [hready, href]
    split
    · simp
    · exact h.ready p hp
  · show ready p = false
    rw [hready, h.hidden p hp, ite_self]

/-- A frame in hand is in no queue. -/
theorem Books.notMem (h : Books s hand hide) (hv : v ∈ hand) :
    v ∉ s.pendingQ ∧ v ∉ s.displayQ ∧ v ∉ s.held := by
  have hpos := List.count_pos_iff.mpr hv
  have hu := h.places v
  refine ⟨?_, ?_, ?_⟩ <;> (rw [← List.count_eq_zero]; omega)

/-- The frame keeps what it names and names the picture too. -/
theorem pairVframe_eq {topFlag : Bool} (hopen : s.Open v topFlag) (hother : ¬ s.Names p v) :
    ∃ top bot pre pre', pairVframe s v p topFlag = { s with
        top := top, bot := bot, displayQ := s.displayQ ++ [v], preTopPic := pre, preBotPic := pre'
        vfRef := fun q => if q = p then s.vfRef p + 1 else s.vfRef q } ∧
      (∀ u, u ≠ v → top u = s.top u) ∧ (∀ u, u ≠ v → bot u = s.bot u) ∧
      (∀ q, (top v = some q ∨ bot v = some q) ↔ s.Names q v ∨ q = p) ∧
      ∀ q, top v = some q → bot v ≠ some q := by
  cases topFlag with
  | true =>
    have hnone : s.top v = none := hopen
    refine ⟨_, _, _, _, rfl, fun u hu => if_neg hu, fun u hu => if_neg hu, fun q => ?_, fun q => ?_⟩
    · simp only [State.setIndex, if_true, State.setRef, State.Names, hnone, reduceCtorEq,
        false_or, Option.some.injEq, eq_comm (a := p)]
      exact or_comm
    · simp only [State.setIndex, State.setRef, if_true, Option.some.injEq]
      rintro rfl hb
      exact hother (Or.inr hb)
  | false =>
    have hnone : s.bot v = none := hopen
    refine ⟨_, _, _, _, rfl, fun u hu => if_neg hu, fun u hu => if_neg hu, fun q => ?_, fun q => ?_⟩
    · simp only [State.setIndex, if_true, State.setRef, State.Names, hnone, reduceCtorEq,
        or_false, Option.some.injEq, eq_comm (a := p)]
    · simp only [State.setIndex, State.setRef, if_true]
      intro ht hb
      obtain rfl := Option.some.inj hb
      exact hother (Or.inl ht)

/-- A frame of one picture gets another one for its open field. -/
theorem Books.pair (h : Books s (v :: hand) hide) {topFlag : Bool} (hopen : s.Open v topFlag)
    (hpos : 0 < s.vfRef p) (hother : ¬ s.Names p v) :
    Books (pairVframe s v p topFlag) hand hide := by
  obtain ⟨top, bot, pre, pre', heq, hother', hsame, hnames, hdistinct⟩ := pairVframe_eq hopen hother
  rw [heq]
  have hkeep : ∀ q, ∀ l : List Vframe, v ∉ l →
      l.countP (fun u => decide (top u = some q ∨ bot u = some q)) = l.countP (s.Names q) := by
    intro q l hl
    apply List.countP_congr
    intro u hu
    have hne : u ≠ v := fun h => hl (h ▸ hu)
    simp only [decide_eq_true_eq, State.Names, hother' u hne, hsame u hne]
    exact decide_eq_true_iff.symm
  have hv : v ∉ hand := by
    have hu := h.places v
    rw [List.count_cons_self] at hu
    rw [← List.count_eq_zero]
    omega
  obtain ⟨hpend, hdisp, hheld⟩ := h.notMem List.mem_cons_self
  refine ⟨fun u => ?_, fun q => ?_, fun q hq => ?_, h.hidden, fun u q => ?_⟩
  · have hu := h.places u
    simp only [List.count_append, List.count_cons, List.count_nil] at hu ⊢
    omega
  · show (if q = p then s.vfRef p + 1 else s.vfRef q) =
      s.pendingQ.countP (fun u => decide (top u = some q ∨ bot u = some q)) +
      (s.displayQ ++ [v]).countP (fun u => decide (top u = some q ∨ bot u = some q)) +
      s.held.countP (fun u => decide (top u = some q ∨ bot u = some q)) +
      hand.countP (fun u => decide (top u = some q ∨ bot u = some q))
    have hq := h.counts q
    rw [List.countP_cons] at hq
    rw [List.countP_append, List.countP_singleton, hkeep q _ hpend, hkeep q _ hdisp,
      hkeep q _ hheld, hkeep q _ hv]
    simp only [decide_eq_true_eq, hnames q] at hq ⊢
    by_cases he : q = p
    · rw [he] at hq ⊢
      simp only [hother, if_false, false_or, if_true] at hq ⊢
      omega
    · simp only [he, if_false, or_false] at hq ⊢
      omega
  · show s.outputReady q = true ↔ 0 < if q = p then s.vfRef p + 1 else s.vfRef q
    rw [h.ready q hq]
    split
    · rename_i he
      rw [he]
      omega
    · rfl
  · show top u = some q → bot u ≠ some q
    by_cases hu : u = v
    · rw [hu]
      exact hdistinct q
    · rw [hother' u hu, hsame u hu]
      exact h.distinct u q

/-- The picture completes the frame: it has frames itself, the field is open, and it is not the
picture the frame shows. -/
def Completes (s : State) (pairPic : Option Pic) (topFlag : Bool) (v : Vframe) : Prop :=
  ∃ p, pairPic = some p ∧ 0 < s.vfRef p ∧ s.Open v topFlag ∧ ¬ s.Names p v

/-- The frame is recycled, and is the only one of its picture. -/
def Alone (s : State) (pairPic : Option Pic) (topFlag : Bool) (v : Vframe) : Prop :=
  (∀ p, pairPic = some p → 0 < s.vfRef p → ¬ s.Open v topFlag) ∧ ∀ q, s.Names q v → s.vfRef q = 1

/-- What `process_pending_vframe` does to the books: nothing stays pending. -/
structure Processed (s t : State) (hand : List Vframe) (hide pairPic : Option Pic)
    (topFlag : Bool) : Prop where
  books : Books t hand hide
  empty : t.pendingQ = []
  keep : ∀ u ∈ hand, t.top u = s.top u ∧ t.bot u = s.bot u
  alone : (∀ v ∈ s.pendingQ, ¬ s.Open v topFlag) → ∀ q, (∀ v ∈ s.pendingQ, ¬ s.Names q v) →
    t.vfRef q = s.vfRef q
  paired : (∃ v ∈ s.pendingQ, Completes s pairPic topFlag v) → ∀ q, s.vfRef q ≤ t.vfRef q
  preBot : topFlag = true → t.preBotPic = s.preBotPic
  preTop : topFlag = false → t.preTopPic = s.preTopPic

/-- The frame at the head of the queue is the only one. -/
theorem process_single (h : Books s hand hide) (hpend : s.pendingQ = [v]) {pairPic : Option Pic}
    {topFlag : Bool} (hok : Completes s pairPic topFlag v ∨ Alone s pairPic topFlag v) :
    Processed s (processPendingVframe s pairPic topFlag) hand hide pairPic topFlag := by
  have hpop : Books { s with pendingQ := [] } (v :: hand) hide := by
    refine ⟨fun u => ?_, fun q => ?_, h.ready, h.hidden, h.distinct⟩
    · have hu := h.places u
      rw [hpend] at hu
      simp only [List.count_cons, List.count_nil] at hu ⊢
      omega
    · have hq := h.counts q
      rw [hpend] at hq
      show s.vfRef q = ([] : List Vframe).countP (s.Names q) + s.displayQ.countP (s.Names q) +
        s.held.countP (s.Names q) + (v :: hand).countP (s.Names q)
      simp only [List.countP_cons, List.countP_nil] at hq ⊢
      omega
  have hne : ∀ u ∈ hand, u ≠ v := by
    rintro u hu rfl
    have hcount := h.places u
    have hpos := List.count_pos_iff.mpr hu
    rw [hpend, List.count_singleton_self] at hcount
    omega
  rcases hok with ⟨p, rfl, hpos, hopen, hother⟩ | ⟨hno, honly⟩
  · have hprocess : processPendingVframe s (some p) topFlag =
        pairVframe { s with pendingQ := [] } v p topFlag := by
      simp only [processPendingVframe, pairPending, hpend]
      exact if_pos ⟨hpos, hopen⟩
    rw [hprocess]
    refine ⟨hpop.pair hopen hpos hother, ?_, fun u hu => ?_, fun hclosed => ?_, fun _ q => ?_,
      fun htop => ?_, fun hbot => ?_⟩
    · cases topFlag <;> rfl
    · have hu' := hne u hu
      cases topFlag <;> exact ⟨if_neg hu', if_neg hu'⟩
    · exact absurd hopen (hclosed v (hpend ▸ List.mem_cons_self))
    · have hset : (pairVframe { s with pendingQ := [] } v p topFlag).vfRef q =
          if q = p then s.vfRef p + 1 else s.vfRef q := by cases topFlag <;> rfl
      rw [hset]
      split
      · rename_i he
        rw [he]
        omega
      · exact Nat.le_refl _
    · rw [htop]
      rfl
    · rw [hbot]
      rfl
  · have hprocess : processPendingVframe s pairPic topFlag =
        (recyclePendingVframe { s with pendingQ := [] } v).2 := by
      simp only [processPendingVframe, pairPending, hpend]
      cases pairPic with
      | none => rfl
      | some p => exact if_neg fun h => hno p rfl h.1 h.2
    obtain ⟨ref, ready, heq, href, -⟩ := recycle_spec { s with pendingQ := [] } v
    rw [hprocess]
    refine ⟨hpop.recycle honly, ?_, fun u hu => ?_, fun _ q hq => ?_, ?_, fun _ => ?_, fun _ => ?_⟩
    · rw [heq]
    · rw [heq]
      exact ⟨rfl, rfl⟩
    · rw [heq]
      show ref q = s.vfRef q
      rw [href]
      exact if_neg (hq v (hpend ▸ List.mem_cons_self))
    · rintro ⟨u, hu, p, hp, hpos, hopen, -⟩
      rw [hpend, List.mem_singleton] at hu
      exact absurd (hu ▸ hopen) (hno p hp hpos)
    · rw [heq]
    · rw [heq]

theorem process_books (h : Books s hand hide) (hlen : s.pendingQ.length ≤ 1)
    {pairPic : Option Pic} {topFlag : Bool}
    (hok : ∀ v ∈ s.pendingQ, Completes s pairPic topFlag v ∨ Alone s pairPic topFlag v) :
    Processed s (processPendingVframe s pairPic topFlag) hand hide pairPic topFlag := by
  match hpend : s.pendingQ with
  | [] =>
    have hprocess : processPendingVframe s pairPic topFlag = s := by
      simp only [processPendingVframe, pairPending, hpend]
    rw [hprocess]
    refine ⟨h, hpend, fun u _ => ⟨rfl, rfl⟩, fun _ _ _ => rfl, ?_, fun _ => rfl, fun _ => rfl⟩
    rintro ⟨v, hv, -⟩
    rw [hpend] at hv
    cases hv
  | [v] => exact process_single h hpend (hok v (hpend ▸ List.mem_cons_self))
  | _ :: _ :: _ =>
    rw [hpend] at hlen
    simp at hlen

/-- Frames from the free queue show a picture that had none. -/
theorem Books.take {vs : List Vframe} {showFrame : Bool} (h : Books s [] none)
    (hp : s.vfRef p = 0) (hvs : vs ≠ []) (hnew : s.newframeQ = vs ++ t.newframeQ)
    (hpend : t.pendingQ = s.pendingQ) (hdisp : t.displayQ = s.displayQ) (hheld : t.held = s.held)
    (htop : ∀ v, t.top v = if v ∈ vs then some p else s.top v)
    (hbot : ∀ v, t.bot v = if v ∈ vs then none else s.bot v)
    (href : ∀ q, t.vfRef q = if q = p then vs.length else s.vfRef q)
    (hready : ∀ q, t.outputReady q = if q = p then showFrame else s.outputReady q) :
    Books t vs (if showFrame then none else some p) := by
  have hout : ∀ v ∈ vs, v ∉ s.pendingQ ∧ v ∉ s.displayQ ∧ v ∉ s.held := by
    intro v hv
    have hu := h.places v
    have hpos := List.count_pos_iff.mpr hv
    rw [hnew, List.count_append] at hu
    refine ⟨?_, ?_, ?_⟩ <;> (rw [← List.count_eq_zero]; omega)
  have hkeep : ∀ q, ∀ l : List Vframe, (∀ v ∈ vs, v ∉ l) →
      l.countP (t.Names q) = l.countP (s.Names q) := by
    intro q l hl
    apply countP_names
    intro u hu
    have hno : u ∉ vs := fun hv => hl u hv hu
    simp only [State.Names, htop, hbot, if_neg hno]
  have hnames : ∀ q, vs.countP (t.Names q) = if q = p then vs.length else 0 := by
    intro q
    split
    · rename_i he
      apply List.countP_eq_length.mpr
      intro u hu
      simp only [State.Names, htop, if_pos hu, he, decide_eq_true_eq, true_or]
    · rename_i he
      apply List.countP_eq_zero.mpr
      intro u hu
      simp only [State.Names, htop, hbot, if_pos hu, decide_eq_true_eq, Option.some.injEq,
        reduceCtorEq, or_false]
      exact fun h => he h.symm
  have hlen : 0 < vs.length := List.length_pos_of_ne_nil hvs
  refine ⟨fun u => ?_, fun q => ?_, fun q hq => ?_, fun q hq => ?_, fun u q => ?_⟩
  · have hu := h.places u
    rw [hnew] at hu
    simp only [hpend, hdisp, hheld, List.count_append, List.count_nil] at hu ⊢
    omega
  · have hq := h.counts q
    rw [hpend, hdisp, hheld, hkeep q _ fun v hv => (hout v hv).1,
      hkeep q _ fun v hv => (hout v hv).2.1, hkeep q _ fun v hv => (hout v hv).2.2, hnames, href]
    simp only [List.countP_nil] at hq
    split
    · rename_i he
      rw [he, hp] at hq
      rw [he]
      omega
    · omega
  · rw [hready, href]
    cases showFrame with
    | true =>
      split
      · simp [hlen]
      · exact h.ready q (by simp)
    | false =>
      have hne : q ≠ p := fun he => hq (by simp [he])
      rw [if_neg hne, if_neg hne]
      exact h.ready q (by simp)
  · cases showFrame with
    | true => cases hq
    | false =>
      obtain rfl := Option.some.inj hq
      rw [hready, if_pos rfl]
  · rw [htop, hbot]
    split
    · exact fun _ h => by cases h
    · exact h.distinct u q

/-- A hidden picture without frames needs no mark. -/
theorem Books.unhide (h : Books s hand (some p)) (hp : s.vfRef p = 0) : Books s hand none := by
  refine ⟨h.places, h.counts, fun q _ => ?_, fun q hq => (by cases hq), h.distinct⟩
  by_cases he : q = p
  · rw [he, h.hidden p rfl, hp]
    simp
  · exact h.ready q fun h => he (Option.some.inj h).symm

theorem Books.pushAll {vs : List Vframe} (h : Books s vs hide) :
    Books { s with displayQ := s.displayQ ++ vs } [] hide := by
  induction vs generalizing s with
  | nil => rw [List.append_nil]; exact h
  | cons v vs ih =>
    have hrest := ih h.push
    simp only [List.append_assoc, List.singleton_append] at hrest
    exact hrest

/-- Frames that show one picture only are put back, and take its references with them. -/
theorem Books.putAll {vs : List Vframe} (h : Books s vs hide)
    (hvs : ∀ v ∈ vs, ∀ q, s.Names q v ↔ q = p) :
    Books (vs.foldl vh265VfPut s) [] hide ∧
      (vs.foldl vh265VfPut s).vfRef p = s.vfRef p - vs.length ∧
      (vs.foldl vh265VfPut s).pendingQ = s.pendingQ := by
  induction vs generalizing s with
  | nil => exact ⟨h, (Nat.sub_zero _).symm, rfl⟩
  | cons v vs ih =>
    obtain ⟨ref, ready, heq, href, -⟩ := put_spec s v (h.distinct v)
    have hnames : ∀ u ∈ vs, ∀ q, (vh265VfPut s v).Names q u ↔ q = p := by
      intro u hu q
      rw [heq]
      exact hvs u (List.mem_cons_of_mem v hu) q
    obtain ⟨hbooks, hcount, hpend⟩ := ih h.put hnames
    refine ⟨hbooks, hcount.trans ?_, hpend.trans (by rw [heq])⟩
    rw [heq, List.length_cons]
    show ref p - vs.length = s.vfRef p - (vs.length + 1)
    rw [href, if_pos ((hvs v List.mem_cons_self p).mpr rfl)]
    omega

/-- Frames that show one picture only, to the display or straight back. -/
theorem Books.showFrames (vs : List Vframe) (showFrame : Bool)
    (h : Books s vs (if showFrame then none else some p))
    (hvs : ∀ v ∈ vs, ∀ q, s.Names q v ↔ q = p)
    (hhidden : showFrame = false → s.vfRef p = vs.length) :
    Books (showFrames s vs showFrame) [] none ∧
      (showFrames s vs showFrame).pendingQ = s.pendingQ := by
  cases showFrame with
  | true => exact ⟨h.pushAll, rfl⟩
  | false =>
    obtain ⟨hbooks, hcount, hpend⟩ := h.putAll hvs
    refine ⟨hbooks.unhide ?_, hpend⟩
    rw [hcount, hhidden rfl, Nat.sub_self]

end Frames

section Output
variable {s : State} {p : Pic} {vf : Vframe} {rest : List Vframe} {showFrame : Bool}

/-- The state in which a picture that had no frames has its first one in hand. -/
def takenFrame (s : State) (p : Pic) (vf : Vframe) (rest : List Vframe) (showFrame : Bool) : State :=
  { s with
    newframeQ := rest
    outputReady := fun q => if q = p then showFrame else s.outputReady q }.setIndex vf (some p) none

/-- The copies of a frame show its picture. -/
theorem copies_spec (p : Pic) (vf : Vframe) (vs : List Vframe) (s : State) (htop : s.top vf = some p)
    (hbot : s.bot vf = none) :
    ∃ top bot, vs.foldl (fun s v => s.setIndex v (s.top vf) (s.bot vf)) s =
        { s with top := top, bot := bot } ∧
      (∀ u, top u = if u ∈ vs then some p else s.top u) ∧
      ∀ u, bot u = if u ∈ vs then none else s.bot u := by
  induction vs generalizing s with
  | nil => exact ⟨_, _, rfl, fun u => (if_neg List.not_mem_nil).symm,
      fun u => (if_neg List.not_mem_nil).symm⟩
  | cons v vs ih =>
    have htop' : (s.setIndex v (s.top vf) (s.bot vf)).top vf = some p := by
      simp only [State.setIndex, htop, ite_self]
    have hbot' : (s.setIndex v (s.top vf) (s.bot vf)).bot vf = none := by
      simp only [State.setIndex, hbot, ite_self]
    obtain ⟨top, bot, heq, ht, hb⟩ := ih _ htop' hbot'
    refine ⟨top, bot, heq, fun u => ?_, fun u => ?_⟩
    · rw [ht]
      simp only [State.setIndex, htop, List.mem_cons]
      by_cases hu : u ∈ vs <;> by_cases he : u = v <;> simp [hu, he]
    · rw [hb]
      simp only [State.setIndex, hbot, List.mem_cons]
      by_cases hu : u ∈ vs <;> by_cases he : u = v <;> simp [hu, he]

theorem postRepeated_books (showFrame : Bool) (more : Nat) (h : Books s [] none)
    (hp : s.vfRef p = 0) (hnew : s.newframeQ = vf :: rest) (hmore : more ≤ rest.length) :
    Books (postRepeated (takenFrame s p vf rest showFrame) p vf more showFrame) [] none ∧
      (postRepeated (takenFrame s p vf rest showFrame) p vf more showFrame).pendingQ =
        s.pendingQ := by
  have hlen : (rest.take more).length = more := List.length_take_of_le hmore
  obtain ⟨top, bot, heq, htop, hbot⟩ := copies_spec p vf (rest.take more)
    { takenFrame s p vf rest showFrame with newframeQ := rest.drop more }
    (if_pos rfl) (if_pos rfl)
  have hpost : postRepeated (takenFrame s p vf rest showFrame) p vf more showFrame =
      showFrames (({ takenFrame s p vf rest showFrame with
        newframeQ := rest.drop more, top := top, bot := bot } : State).setRef p (more + 1))
        (vf :: rest.take more) showFrame := by
    show (if (rest.take more).length < more then _ else _) = _
    rw [if_neg (by omega)]
    show showFrames (((rest.take more).foldl (fun (s : State) v => s.setIndex v (s.top vf) (s.bot vf))
      { takenFrame s p vf rest showFrame with newframeQ := rest.drop more }).setRef p (more + 1))
      (vf :: rest.take more) showFrame = _
    rw [heq]
  rw [hpost]
  have htop' : ∀ u, top u = if u ∈ vf :: rest.take more then some p else s.top u := by
    intro u
    rw [htop]
    simp only [takenFrame, State.setIndex, List.mem_cons]
    by_cases hu : u ∈ rest.take more <;> by_cases he : u = vf <;> simp [hu, he]
  have hbot' : ∀ u, bot u = if u ∈ vf :: rest.take more then none else s.bot u := by
    intro u
    rw [hbot]
    simp only [takenFrame, State.setIndex, List.mem_cons]
    by_cases hu : u ∈ rest.take more <;> by_cases he : u = vf <;> simp [hu, he]
  refine Books.showFrames _ _ (h.take hp (by simp) ?_ rfl rfl rfl htop' hbot' (fun q => ?_)
    fun q => rfl) (fun v hv q => ?_) fun _ => ?_
  · rw [hnew]
    show vf :: rest = (vf :: rest.take more) ++ rest.drop more
    rw [List.cons_append, List.take_append_drop]
  · rw [List.length_cons, hlen]
    rfl
  · show top v = some q ∨ bot v = some q ↔ q = p
    rw [htop', hbot', if_pos hv, if_pos hv]
    simp [eq_comm]
  · rw [List.length_cons, hlen]
    exact if_pos rfl

/-- Which byte names the picture makes no difference to the books. -/
theorem Books.reindex {hand : List Vframe} {hide : Option Pic} (h : Books s hand hide)
    (hnames : ∀ q, s.Names q vf ↔ q = p) : Books (s.setIndex vf none (some p)) hand hide := by
  have hsame : ∀ q u, (s.setIndex vf none (some p)).Names q u ↔ s.Names q u := by
    intro q u
    by_cases he : u = vf
    · rw [he, hnames q]
      simp [State.Names, State.setIndex, eq_comm]
    · simp [State.Names, State.setIndex, he]
  refine ⟨h.places, fun q => ?_, h.ready, h.hidden, fun u q => ?_⟩
  · have hcount : ∀ l : List Vframe,
        l.countP ((s.setIndex vf none (some p)).Names q) = l.countP (s.Names q) :=
      fun l => countP_names fun u _ => hsame q u
    rw [hcount, hcount, hcount, hcount]
    exact h.counts q
  · simp only [State.setIndex]
    split
    · intro hq
      cases hq
    · exact h.distinct u q

theorem Books.single {hand : List Vframe} {hide : Option Pic} (h : Books s hand hide)
    (hp : s.vfRef p = 0) {v : Vframe} (hv : v ∈ s.pendingQ) : ¬ s.Names p v := by
  intro hn
  have hpos : 0 < s.pendingQ.countP (s.Names p) :=
    List.countP_pos_iff.mpr ⟨v, hv, decide_eq_true hn⟩
  have hcount := h.counts p
  omega

/-- A field has its frame in hand. -/
def fieldStart (s : State) (p : Pic) (vf : Vframe) (rest : List Vframe) (showFrame : Bool) : State :=
  (takenFrame s p vf rest showFrame).setRef p 1

theorem fieldStart_books (showFrame : Bool) (h : Books s [] none) (hp : s.vfRef p = 0)
    (hnew : s.newframeQ = vf :: rest) :
    Books (fieldStart s p vf rest showFrame) [vf] (if showFrame then none else some p) := by
  refine h.take hp (by simp) hnew rfl rfl rfl (fun u => ?_) (fun u => ?_) (fun q => rfl) fun q => rfl
  · simp [fieldStart, takenFrame, State.setIndex, State.setRef]
  · simp [fieldStart, takenFrame, State.setIndex, State.setRef]

/-- A field finds its pending frame. -/
theorem fieldStart_processed (h : Books s [] none) (hlen : s.pendingQ.length ≤ 1)
    (hp : s.vfRef p = 0) (hnew : s.newframeQ = vf :: rest) {topFlag : Bool}
    (hok : FieldOk s topFlag showFrame) :
    Processed (fieldStart s p vf rest showFrame)
      (processPendingVframe (fieldStart s p vf rest showFrame) (some p) topFlag) [vf]
      (if showFrame then none else some p) (some p) topFlag := by
  have hbooks := fieldStart_books showFrame h hp hnew
  apply process_books hbooks hlen
  intro v hv
  have hne : v ≠ vf := fun he => (hbooks.notMem List.mem_cons_self).1 (he ▸ hv)
  have htop : (fieldStart s p vf rest showFrame).top v = s.top v := if_neg hne
  have hbot : (fieldStart s p vf rest showFrame).bot v = s.bot v := if_neg hne
  have hnames : ∀ q, (fieldStart s p vf rest showFrame).Names q v ↔ s.Names q v := by
    intro q
    rw [State.Names, htop, hbot]
    rfl
  have hopen : (fieldStart s p vf rest showFrame).Open v topFlag ↔ s.Open v topFlag := by
    rw [State.Open, htop, hbot]
    rfl
  have hno := h.single hp hv
  have hv' := hok v hv
  by_cases hopen' : s.Open v topFlag
  · refine Or.inl ⟨p, rfl, ?_, hopen.mpr hopen', fun hn => hno ((hnames p).mp hn)⟩
    show 0 < if p = p then 1 else s.vfRef p
    rw [if_pos rfl]
    exact Nat.one_pos
  · rw [if_neg hopen'] at hv'
    refine Or.inr ⟨fun _ _ _ hn => hopen' (hopen.mp hn), fun q hq => ?_⟩
    have hq' := (hnames q).mp hq
    have hqp : q ≠ p := fun he => hno (he ▸ hq')
    exact (if_neg hqp).trans (hv' q hq')

/-- A field that completes no pending frame has one frame. -/
theorem fieldStart_alone (h : Books s [] none) (hp : s.vfRef p = 0) (hnew : s.newframeQ = vf :: rest)
    {t : State} {hand : List Vframe} {hide : Option Pic} {topFlag : Bool}
    (hproc : Processed (fieldStart s p vf rest showFrame) t hand hide (some p) topFlag)
    (hclosed : ∀ v ∈ s.pendingQ, ¬ s.Open v topFlag) : t.vfRef p = 1 := by
  have hbooks := fieldStart_books showFrame h hp hnew
  have hindex : ∀ v ∈ s.pendingQ, (fieldStart s p vf rest showFrame).top v = s.top v ∧
      (fieldStart s p vf rest showFrame).bot v = s.bot v := by
    intro v hv
    have hne : v ≠ vf := fun he => (hbooks.notMem List.mem_cons_self).1 (he ▸ hv)
    exact ⟨if_neg hne, if_neg hne⟩
  refine (hproc.alone (fun v hv => ?_) p fun v hv => ?_).trans (if_pos rfl)
  · rw [State.Open, (hindex v hv).1, (hindex v hv).2]
    exact hclosed v hv
  · rw [State.Names, (hindex v hv).1, (hindex v hv).2]
    exact h.single hp hv

theorem fieldStart_names {t : State} {hide : Option Pic} {topFlag : Bool}
    (hproc : Processed (fieldStart s p vf rest showFrame) t [vf] hide (some p) topFlag) :
    t.top vf = some p ∧ t.bot vf = none ∧ ∀ q, t.Names q vf ↔ q = p := by
  have htop : t.top vf = some p := (hproc.keep vf List.mem_cons_self).1.trans (if_pos rfl)
  have hbot : t.bot vf = none := (hproc.keep vf List.mem_cons_self).2.trans (if_pos rfl)
  refine ⟨htop, hbot, fun q => ?_⟩
  rw [State.Names, htop, hbot]
  simp [eq_comm]

/-- No frame is in hand, and one is pending at most. -/
abbrev AtRest (s : State) : Prop := Books s [] none ∧ s.pendingQ.length ≤ 1

/-- The frame of a field of a frame is pending, and finds the other field or goes back. -/
theorem otherField_books {t : State} (ht : Books t [] none) (hpend : t.pendingQ = [vf])
    (hnames : ∀ q, t.Names q vf ↔ q = p) (topFlag : Bool) (hopen : t.Open vf topFlag)
    {other : Option Pic} (hother : other ≠ some p)
    (hcount : t.vfRef p = 1 ∨ ∃ r, other = some r ∧ 0 < t.vfRef r) :
    AtRest (processPendingVframe t other topFlag) := by
  have hproc : Processed t (processPendingVframe t other topFlag) [] none other topFlag := by
    apply process_single ht hpend
    by_cases hthere : ∃ r, other = some r ∧ 0 < t.vfRef r
    · obtain ⟨r, hr, hpos⟩ := hthere
      refine Or.inl ⟨r, hr, hpos, hopen, fun hn => ?_⟩
      rw [hnames r] at hn
      exact hother (hn ▸ hr)
    · refine Or.inr ⟨fun r hr hpos => absurd ⟨r, hr, hpos⟩ hthere, fun q hq => ?_⟩
      rw [(hnames q).mp hq]
      exact hcount.resolve_right hthere
  exact ⟨hproc.books, by rw [hproc.empty]; exact Nat.zero_le 1⟩

/-- A field that is not shown goes back, and takes its only reference with it. -/
theorem unshownField_books {t : State} (ht : Books t [vf] (some p)) (hone : t.vfRef p = 1)
    (hnames : ∀ q, t.Names q vf ↔ q = p) (hpend : t.pendingQ = []) :
    AtRest (vh265VfPut t vf) := by
  obtain ⟨hbooks, hp⟩ := Books.showFrames (p := p) [vf] false ht
    (by simpa using hnames) fun _ => hone
  refine ⟨hbooks, ?_⟩
  have hempty : (vh265VfPut t vf).pendingQ = [] := hp.trans hpend
  rw [hempty]
  exact Nat.zero_le 1

/-- A field that is not shown completes no pending frame. -/
theorem FieldOk.closed {topFlag : Bool} (h : FieldOk s topFlag false) :
    ∀ v ∈ s.pendingQ, ¬ s.Open v topFlag := by
  intro v hv hopen
  have hv' := h v hv
  rw [if_pos hopen] at hv'
  cases hv'

theorem fieldStart_other (h : Books s [] none) (hp : s.vfRef p = 0) (hnew : s.newframeQ = vf :: rest)
    {t : State} {hand : List Vframe} {hide other : Option Pic} {topFlag : Bool}
    (hproc : Processed (fieldStart s p vf rest showFrame) t hand hide (some p) topFlag)
    (hother : OtherOk s p other topFlag) :
    t.vfRef p = 1 ∨ ∃ r, other = some r ∧ 0 < t.vfRef r := by
  by_cases hclosed : ∀ v ∈ s.pendingQ, ¬ s.Open v topFlag
  · exact Or.inl (fieldStart_alone h hp hnew hproc hclosed)
  · obtain ⟨r, hr, hpos⟩ := hother.2.resolve_left hclosed
    simp only [not_forall, not_not] at hclosed
    obtain ⟨v, hv, hopen⟩ := hclosed
    have hbooks := fieldStart_books showFrame h hp hnew
    have hne : v ≠ vf := fun he => (hbooks.notMem List.mem_cons_self).1 (he ▸ hv)
    have htop : (fieldStart s p vf rest showFrame).top v = s.top v := if_neg hne
    have hbot : (fieldStart s p vf rest showFrame).bot v = s.bot v := if_neg hne
    have hcompletes : Completes (fieldStart s p vf rest showFrame) (some p) topFlag v := by
      refine ⟨p, rfl, ?_, ?_, ?_⟩
      · show 0 < if p = p then 1 else s.vfRef p
        rw [if_pos rfl]
        exact Nat.one_pos
      · rw [State.Open, htop, hbot]
        exact hopen
      · rw [State.Names, htop, hbot]
        exact h.single hp hv
    have hle := hproc.paired ⟨v, hv, hcompletes⟩ r
    have hrp : r ≠ p := fun he => hother.1 (he ▸ hr)
    have hkeep : (fieldStart s p vf rest showFrame).vfRef r = s.vfRef r := if_neg hrp
    exact Or.inr ⟨r, hr, by omega⟩

theorem postMiddleField_books (topField : Bool) (h : Books s [] none)
    (hlen : s.pendingQ.length ≤ 1) (hp : s.vfRef p = 0) (hnew : s.newframeQ = vf :: rest)
    (hfield : FieldOk s topField showFrame)
    (hother : showFrame = true →
      OtherOk s p (if topField then s.preBotPic else s.preTopPic) topField) :
    AtRest (postMiddleField (takenFrame s p vf rest showFrame) p vf topField showFrame) := by
  have hproc := fieldStart_processed h hlen hp hnew hfield
  obtain ⟨htop, hbot, hnames⟩ := fieldStart_names hproc
  unfold postMiddleField
  rw [show (takenFrame s p vf rest showFrame).setRef p 1 = fieldStart s p vf rest showFrame from rfl]
  obtain ⟨t, ht⟩ : ∃ t, processPendingVframe (fieldStart s p vf rest showFrame) (some p)
      topField = t := ⟨_, rfl⟩
  rw [ht] at hproc htop hbot hnames ⊢
  cases showFrame with
  | false =>
    have hone := fieldStart_alone h hp hnew hproc hfield.closed
    exact unshownField_books hproc.books hone hnames hproc.empty
  | true =>
    have hcount := fieldStart_other h hp hnew hproc (hother rfl)
    have hpended : Books { t with pendingQ := t.pendingQ ++ [vf] } [] none := hproc.books.pend
    have hpend : t.pendingQ ++ [vf] = [vf] := by rw [hproc.empty]; rfl
    cases topField with
    | true =>
      have hpre : t.preBotPic = s.preBotPic := hproc.preBot rfl
      exact otherField_books hpended hpend hnames false hbot (hpre ▸ (hother rfl).1) (hpre ▸ hcount)
    | false =>
      have hpre : t.preTopPic = s.preTopPic := hproc.preTop rfl
      refine otherField_books (hpended.reindex hnames) hpend (fun q => ?_) true (if_pos rfl)
        (hpre ▸ (hother rfl).1) (hpre ▸ hcount)
      simp [State.Names, State.setIndex, eq_comm]

theorem postFirstField_books (topField : Bool) (h : Books s [] none)
    (hlen : s.pendingQ.length ≤ 1) (hp : s.vfRef p = 0) (hnew : s.newframeQ = vf :: rest)
    (hfield : FieldOk s topField showFrame) :
    AtRest (postFirstField (takenFrame s p vf rest showFrame) p vf topField showFrame) := by
  have hproc := fieldStart_processed h hlen hp hnew hfield
  obtain ⟨htop, hbot, hnames⟩ := fieldStart_names hproc
  unfold postFirstField
  rw [show (takenFrame s p vf rest showFrame).setRef p 1 = fieldStart s p vf rest showFrame from rfl]
  obtain ⟨t, ht⟩ : ∃ t, processPendingVframe (fieldStart s p vf rest showFrame) (some p)
      topField = t := ⟨_, rfl⟩
  rw [ht] at hproc htop hbot hnames ⊢
  have hpend : t.pendingQ ++ [vf] = [vf] := by rw [hproc.empty]; rfl
  have hreindex := hproc.books.reindex hnames
  have hnames' : ∀ q, (t.setIndex vf none (some p)).Names q vf ↔ q = p := by
    intro q
    simp [State.Names, State.setIndex, eq_comm]
  cases showFrame with
  | false =>
    have hone := fieldStart_alone h hp hnew hproc hfield.closed
    cases topField with
    | true => exact unshownField_books hproc.books hone hnames hproc.empty
    | false => exact unshownField_books hreindex hone hnames' hproc.empty
  | true =>
    have hone : (t.pendingQ ++ [vf]).length ≤ 1 := by rw [hpend]; exact Nat.le_refl 1
    cases topField with
    | true =>
      have hbooks := hproc.books.pend
      exact ⟨⟨hbooks.places, hbooks.counts, hbooks.ready, hbooks.hidden, hbooks.distinct⟩, hone⟩
    | false =>
      have hbooks := hreindex.pend
      exact ⟨⟨hbooks.places, hbooks.counts, hbooks.ready, hbooks.hidden, hbooks.distinct⟩, hone⟩

/-- A picture with one frame that goes to the display at once. -/
theorem postSingle_books (h : Books s [] none) (hlen : s.pendingQ.length ≤ 1) (hp : s.vfRef p = 0)
    (hnew : s.newframeQ = vf :: rest) {picStruct : Nat}
    (htop : picStruct = 1 → FieldOk s true showFrame)
    (hbot : picStruct = 2 → FieldOk s false showFrame) :
    AtRest (postSingle (takenFrame s p vf rest showFrame) p vf picStruct showFrame) := by
  have hfinish : ∀ t : State, Books t [vf] (if showFrame then none else some p) →
      (∀ q, t.Names q vf ↔ q = p) → (showFrame = false → t.vfRef p = 1) → t.pendingQ.length ≤ 1 →
      AtRest (showFrames t [vf] showFrame) := by
    intro t ht hnames hone hl
    obtain ⟨hbooks, hpend⟩ := Books.showFrames [vf] showFrame ht (by simpa using hnames) hone
    exact ⟨hbooks, by rw [hpend]; exact hl⟩
  have hfield : ∀ topFlag, FieldOk s topFlag showFrame →
      ∀ t, processPendingVframe (fieldStart s p vf rest showFrame) (some p) topFlag = t →
      Books t [vf] (if showFrame then none else some p) ∧ (∀ q, t.Names q vf ↔ q = p) ∧
        (showFrame = false → t.vfRef p = 1) ∧ t.pendingQ.length ≤ 1 := by
    rintro topFlag hok t rfl
    have hproc := fieldStart_processed h hlen hp hnew hok
    refine ⟨hproc.books, (fieldStart_names hproc).2.2, fun hhidden => ?_, ?_⟩
    · subst hhidden
      exact fieldStart_alone h hp hnew hproc hok.closed
    · rw [hproc.empty]
      exact Nat.zero_le 1
  unfold postSingle
  rw [show (takenFrame s p vf rest showFrame).setRef p 1 = fieldStart s p vf rest showFrame from rfl]
  by_cases h1 : picStruct = 1
  · obtain ⟨hbooks, hnames, hone, hl⟩ := hfield true (htop h1) _ rfl
    simp only [h1, if_true]
    exact hfinish _ ⟨hbooks.places, hbooks.counts, hbooks.ready, hbooks.hidden, hbooks.distinct⟩
      hnames hone hl
  · by_cases h2 : picStruct = 2
    · obtain ⟨hbooks, hnames, hone, hl⟩ := hfield false (hbot h2) _ rfl
      simp only [h2, if_true]
      exact hfinish _ ⟨hbooks.places, hbooks.counts, hbooks.ready, hbooks.hidden, hbooks.distinct⟩
        hnames hone hl
    · simp only [if_neg h1, if_neg h2]
      refine hfinish _ (fieldStart_books _ h hp hnew) (fun q => ?_) (fun _ => if_pos rfl) hlen
      simp [State.Names, fieldStart, takenFrame, State.setIndex, State.setRef, eq_comm]

theorem outputPicture_books (h : Books s [] none) (hlen : s.pendingQ.length ≤ 1)
    (hp : s.vfRef p = 0) (hready : s.outputReady p = false) {picStruct : Nat}
    (hok : OutputOk s p picStruct showFrame) :
    AtRest (outputPicture s p picStruct showFrame) := by
  cases hnew : s.newframeQ with
  | nil =>
    have hhidden : showFrame = false := by
      rcases hok with hok | hok
      · exact hok.2
      · have hneed := hok.1
        rw [hnew] at hneed
        unfold needed at hneed
        split at hneed
        · simp at hneed
        · split at hneed <;> simp at hneed
    have hsame : (fun q => if q = p then showFrame else s.outputReady q) = s.outputReady := by
      funext q
      split
      · rename_i he
        rw [hhidden, he, hready]
      · rfl
    have hkeep : outputPicture s p picStruct showFrame = s := by
      unfold outputPicture postVideoFrame
      rw [hsame]
      dsimp only
      split
      · rfl
      · rename_i hcons
        rw [hnew] at hcons
        cases hcons
    rw [hkeep]
    exact ⟨h, hlen⟩
  | cons vf rest =>
    obtain ⟨hneed, htop, hbot, hnine, hten⟩ := hok.resolve_left fun hno => by
      rw [hnew] at hno
      cases hno.1
    rw [hnew, List.length_cons] at hneed
    unfold needed at hneed
    unfold outputPicture postVideoFrame
    simp only [hnew]
    by_cases h34 : picStruct = 3 ∨ picStruct = 4
    · rw [if_pos h34] at hneed ⊢
      obtain ⟨hbooks, hpend⟩ := postRepeated_books showFrame 1 h hp hnew
        (by omega)
      exact ⟨hbooks, (Nat.le_of_eq (congrArg List.length hpend)).trans hlen⟩
    · rw [if_neg h34] at hneed ⊢
      by_cases h56 : picStruct = 5 ∨ picStruct = 6
      · rw [if_pos h56] at hneed ⊢
        obtain ⟨hbooks, hpend⟩ := postRepeated_books showFrame 2 h hp hnew
          (by omega)
        exact ⟨hbooks, (Nat.le_of_eq (congrArg List.length hpend)).trans hlen⟩
      · rw [if_neg h56]
        by_cases h910 : picStruct = 9 ∨ picStruct = 10
        · rw [if_pos h910]
          rcases h910 with rfl | rfl
          · exact postMiddleField_books true h hlen hp hnew
              (htop (Or.inr (Or.inl rfl))) (hnine rfl)
          · exact postMiddleField_books false h hlen hp hnew
              (hbot (Or.inr (Or.inl rfl))) (hten rfl)
        · rw [if_neg h910]
          by_cases h1112 : picStruct = 11 ∨ picStruct = 12
          · rw [if_pos h1112]
            rcases h1112 with rfl | rfl
            · exact postFirstField_books true h hlen hp hnew
                (htop (Or.inr (Or.inr rfl)))
            · exact postFirstField_books false h hlen hp hnew
                (hbot (Or.inr (Or.inr rfl)))
          · rw [if_neg h1112]
            exact postSingle_books h hlen hp hnew (fun h1 => htop (Or.inl h1))
              fun h2 => hbot (Or.inl h2)

end Output

section Runs
variable {s : State}

/-- Between two calls. -/
structure Sound (s : State) : Prop where
  books : Books s [] none
  pending : s.pendingQ.length ≤ 1

theorem Sound.balanced (h : Sound s) : Balanced s := by
  refine ⟨?_, fun p => ?_, fun p => h.books.ready p (by simp)⟩
  · apply List.perm_iff_count.mpr
    intro v
    have hv := h.books.places v
    rw [List.count_eq_one_of_mem (List.nodup_finRange _) (List.mem_finRange v)]
    simp only [List.count_append, List.count_nil] at hv ⊢
    omega
  · have hp := h.books.counts p
    simp only [List.countP_append, List.countP_nil] at hp ⊢
    omega

theorem start_sound : Sound {} := by
  refine ⟨⟨fun v => ?_, fun p => rfl, fun p _ => ?_, fun p hp => (by cases hp), fun v p hp => ?_⟩,
    Nat.zero_le 1⟩
  · have hone := List.count_eq_one_of_mem (List.nodup_finRange VF_POOL_SIZE) (List.mem_finRange v)
    simp only [List.count_nil, hone]
  · simp
  · cases hp

theorem get_sound (h : Sound s) : Sound (vh265VfGet s) := by
  unfold vh265VfGet
  split
  · exact h
  · rename_i v rest hdisp
    refine ⟨⟨fun u => ?_, fun p => ?_, h.books.ready, h.books.hidden, h.books.distinct⟩, h.pending⟩
    · have hu := h.books.places u
      simp only [hdisp, List.count_cons] at hu ⊢
      omega
    · have hp := h.books.counts p
      show s.vfRef p = s.pendingQ.countP (s.Names p) + rest.countP (s.Names p) +
        (v :: s.held).countP (s.Names p) + ([] : List Vframe).countP (s.Names p)
      simp only [hdisp, List.countP_cons] at hp ⊢
      omega

theorem put_sound (h : Sound s) {v : Vframe} (hv : v ∈ s.held) :
    Sound (vh265VfPut { s with held := s.held.erase v } v) := by
  have hhand : Books { s with held := s.held.erase v } [v] none := by
    have hperm := List.perm_cons_erase hv
    refine ⟨fun u => ?_, fun p => ?_, h.books.ready, h.books.hidden, h.books.distinct⟩
    · have hu := h.books.places u
      rw [hperm.count_eq] at hu
      simp only [List.count_cons, List.count_nil] at hu ⊢
      omega
    · have hp := h.books.counts p
      rw [hperm.countP_eq] at hp
      show s.vfRef p = s.pendingQ.countP (s.Names p) + s.displayQ.countP (s.Names p) +
        (s.held.erase v).countP (s.Names p) + [v].countP (s.Names p)
      simp only [List.countP_cons, List.countP_nil] at hp ⊢
      omega
  obtain ⟨ref, ready, heq, -, -⟩ := put_spec { s with held := s.held.erase v } v
    (h.books.distinct v)
  refine ⟨hhand.put, ?_⟩
  rw [heq]
  exact h.pending

theorem flush_same {interlaceFlag : Bool}
    (hok : interlaceFlag = true → ∀ p, s.vfRef p ≠ 1) :
    interlaceClearNoPairPic s interlaceFlag = s := by
  unfold interlaceClearNoPairPic
  split
  · rename_i hflag
    have href : (fun p => if s.vfRef p = 1 then 0 else s.vfRef p) = s.vfRef :=
      funext fun p => if_neg (hok hflag p)
    have hready : (fun p => if s.vfRef p = 1 then false else s.outputReady p) = s.outputReady :=
      funext fun p => if_neg (hok hflag p)
    rw [href, hready]
  · rfl

/-- Over any calls that meet the condition, frames and pictures stay in balance. -/
theorem frames_balanced (events : List Event) (horder : Guarded step InOrder {} events)
    (hok : Guarded step EventOk {} events) : Always step Balanced {} events := by
  have hboth := always_of_guarded (P := Sound) (fun s event s' h hboth hs => ?_) start_sound
    (guarded_and.mpr ⟨horder, hok⟩)
  · exact hboth.imp fun _ h => h.balanced
  · obtain ⟨hin, hev⟩ := hboth
    cases event with
    | output p picStruct showFrame =>
      obtain rfl := Option.some.inj hs
      obtain ⟨hbooks, hlen⟩ := outputPicture_books h.books h.pending hin.2.1 hin.2.2 hev
      exact ⟨hbooks, hlen⟩
    | get =>
      obtain rfl := Option.some.inj hs
      exact get_sound h
    | put v =>
      obtain rfl := Option.some.inj hs
      exact put_sound h hin
    | flush interlaceFlag =>
      obtain rfl := Option.some.inj hs
      rw [flush_same hev]
      exact h

instance (s : State) (topFlag showFrame : Bool) : Decidable (FieldOk s topFlag showFrame) :=
  inferInstanceAs (Decidable (∀ v ∈ s.pendingQ,
    if s.Open v topFlag then showFrame = true else ∀ q, s.Names q v → s.vfRef q = 1))

instance (s : State) (p : Pic) (other : Option Pic) (topFlag : Bool) :
    Decidable (OtherOk s p other topFlag) :=
  decidable_of_iff (other ≠ some p ∧ ((∀ v ∈ s.pendingQ, ¬ s.Open v topFlag) ∨
    ∃ r ∈ other, 0 < s.vfRef r)) Iff.rfl

instance (s : State) : (event : Event) → Decidable (EventOk s event)
  | .output _ _ _ => inferInstanceAs (Decidable (_ ∨ _ ∧ (_ → _) ∧ (_ → _) ∧ (_ → _ → _) ∧
      (_ → _ → _)))
  | .flush _ => inferInstanceAs (Decidable (_ → ∀ _, _))
  | .get => .isTrue trivial
  | .put _ => .isTrue trivial

/-- A repeated picture, a field pair that shares its frames, and the receiver giving one back. -/
def fieldPair : List Event :=
  [.output 0 5 true, .get, .put 0, .output 1 11 true, .output 2 10 true, .get, .flush true]

theorem frames_balanced_pair : Always step Balanced {} fieldPair :=
  frames_balanced fieldPair (by decide +kernel) (by decide +kernel)

/-- A field that is on display when the stream is flushed. -/
def flushedField : List Event := [.output 0 1 true, .get, .flush true]

/-- The receiver has a frame of picture 0, whose buffer counts as free. -/
theorem shown_field_cleared :
    Guarded step InOrder {} flushedField ∧
      (run step {} flushedField).map (fun s =>
        (s.vfRef 0, (s.pendingQ ++ s.displayQ ++ s.held).countP (s.Names 0), s.outputReady 0)) =
        some (0, 1, false) ∧
      ¬ Always step Balanced {} flushedField := by
  have hread : (run step {} flushedField).map (fun s =>
      (s.vfRef 0, (s.pendingQ ++ s.displayQ ++ s.held).countP (s.Names 0), s.outputReady 0)) =
      some (0, 1, false) := by decide +kernel
  refine ⟨by decide +kernel, hread, fun halways => ?_⟩
  obtain ⟨t, ht, hlast⟩ := Option.map_eq_some_iff.mp hread
  simp only [Prod.mk.injEq] at hlast
  have hcount := (always_last halways ht).counts 0
  rw [hlast.1, hlast.2.1] at hcount
  cases hcount

end Runs

end MediaModules.Hevc.Display
