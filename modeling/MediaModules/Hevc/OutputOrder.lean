import MediaModules.Hevc.OutputRounds
import MediaModules.Lib.Run

/-!
# The order in which HEVC pictures are shown

The decoder reads a stream of pictures, one header after the other: `hevc_pre_pic` marks the picture
before and shows pictures, `get_new_pic` takes a picture of the pool, perhaps after some attempts. In
between the display gives pictures back. The pictures are shown in the order of the POC, one sequence
after the other.
-/
namespace MediaModules.Hevc.Pictures

open MediaModules.Lib.Bumping MediaModules.Lib.Run MediaModules.Lib.Select

/-! ## Streams -/

/-- A coded video sequence: an IDR picture and those after it, in decoding order. -/
structure Sequence where
  width : Nat
  height : Nat
  numReorder : Nat
  pocs : List Int

def Sequence.header (q : Sequence) (idr : Bool) (poc : Int) : Header :=
  ⟨idr, poc, q.width, q.height, q.numReorder⟩

/-- The headers of the pictures; the first one is an IDR picture. -/
def Sequence.headers (q : Sequence) : List Header :=
  match q.pocs with
  | [] => []
  | poc :: pocs => q.header true poc :: pocs.map (q.header false)

/-- What a sequence keeps to: at most `numReorder` pictures come before one that they follow in the
order of the POC. A level allows at most 15. -/
structure Sequence.Conforms (q : Sequence) : Prop where
  starts : q.pocs ≠ []
  numReorder : 0 < q.numReorder
  nodup : q.pocs.Nodup
  valid : INVALID_POC ∉ q.pocs
  reorders : Reorders (min q.numReorder (MAX_REF_PIC_NUM - 2)) q.pocs

/-- The pictures of a sequence, the first of which has the decode index `n`. -/
def keysFrom : Int → List Int → List Key
  | _, [] => []
  | n, poc :: pocs => (n, poc) :: keysFrom (n + 1) pocs

/-- The pictures of the sequences, numbered one after the other. -/
def numbered : Int → List Sequence → List (List Key)
  | _, [] => []
  | n, q :: qs => keysFrom n q.pocs :: numbered (n + q.pocs.length) qs

/-- Every picture is shown once, in the order of the POC. -/
def InOrder (keys shown : List Key) : Prop :=
  shown.Perm keys ∧ shown.Pairwise fun a b => a.2 < b.2

/-! ## The decoder -/

/-- Where the decoder is with the picture of the last header: it is done, it has no buffers yet, or
it is being decoded. -/
inductive Phase
  | idle
  | pending
  | decoding
  deriving DecidableEq

/-- The decoder and the headers still to come. `waits` records after each `hevc_pre_pic` how many
pictures wait for their output, and the reorder depth. -/
structure Decoder where
  state : State
  input : List Header
  phase : Phase := .idle
  waits : List (Nat × Nat) := []

inductive Op
  | header (interlace : Bool) (workPicNum records : Nat) (curRps : Fin 16 → UInt16)
  | again (workPicNum records : Nat) (curRps : Fin 16 → UInt16)
  | picListProcess (workPicNum records : Nat)
  | newPic (a : Allocs)
  | slice (workPicNum records sliceType : Nat)
  | putBack (p : Pic) (vfRef : Nat) (ready : Bool)
  | decoded

/-- The header of a new picture, up to `get_new_pic`. -/
def newPicture (c : Config) (d : Decoder) (workPicNum records : Nat) (curRps : Fin 16 → UInt16) :
    Decoder :=
  let s := hevcPrePic c (picListProcess d.state workPicNum records)
  { d with
    state := applyRefPicSet s s.currPOC curRps
    phase := .pending
    waits := d.waits ++ [(numPicNotYetDisplay s, s.spsNumReorderPics0)] }

/-- Another slice segment header of the picture. -/
def nextSlice (s : State) (workPicNum records sliceType : Nat) : State :=
  let s := picListProcess { s with iPrevPOC := s.currPOC } workPicNum records
  match s.curPic with
  | none => s
  | some p => setMarks s p { sliceType := sliceType }

/-- A step of the decoder. When `get_new_pic` had no picture, a multi-instance decoder reads the
header again, another one calls `pic_list_process` and `get_new_pic`. -/
def play (c : Config) (d : Decoder) : Op → Option Decoder
  | .header interlace workPicNum records curRps =>
    match d.phase, d.input with
    | .idle, h :: input =>
      some (newPicture c { d with
        state := { readHeader d.state h with interlaceFlag := interlace }, input := input }
        workPicNum records curRps)
    | _, _ => none
  | .again workPicNum records curRps =>
    if d.phase = .pending ∧ c.mInsFlag then some (newPicture c d workPicNum records curRps)
    else none
  | .picListProcess workPicNum records =>
    if d.phase = .pending then
      some { d with state := picListProcess d.state workPicNum records }
    else none
  | .newPic a =>
    if d.phase = .pending then
      let s := nextPic c d.state a
      some { d with state := s, phase := if s.curPic.isSome then .decoding else .pending }
    else none
  | .slice workPicNum records sliceType =>
    if d.phase = .decoding then
      some { d with state := nextSlice d.state workPicNum records sliceType }
    else none
  | .putBack p vfRef ready => some { d with state := returnPic d.state p vfRef ready }
  | .decoded =>
    if d.phase = .decoding then
      some { d with state := { d.state with decodedPoc := d.state.currPOC }, phase := .idle }
    else none

/-! ## What holds along a run -/

/-- How far the stream has come: the current sequence, which starts at the decode index `first`, its
pictures that have been taken and those to come, and the sequences after it. `outs` and `out` are the
pictures shown of the sequences before and of the current one. -/
structure Position where
  seq : Sequence
  first : Int
  played : List Int
  todo : List Int
  future : List Sequence
  outs : List (List Key)
  out : List Key

/-- The headers that follow the picture `todo` begins with. -/
def Position.headers (P : Position) (todo : List Int) : List Header :=
  todo.map (P.seq.header false) ++ P.future.flatMap Sequence.headers

/-- The position lies in the stream, and the sequences before it have been shown. -/
structure Position.Within (P : Position) (stream : List Sequence) : Prop where
  past : ∃ keys, numbered 0 stream = keys ++ numbered P.first (P.seq :: P.future) ∧
    List.Forall₂ InOrder keys P.outs
  split : P.seq.pocs = P.played ++ P.todo
  numReorder : 0 < P.seq.numReorder
  nodup : P.seq.pocs.Nodup
  valid : INVALID_POC ∉ P.seq.pocs
  reorders : Reorders (min P.seq.numReorder (MAX_REF_PIC_NUM - 2)) P.seq.pocs
  future : ∀ q ∈ P.future, q.Conforms

/-- The pictures shown and those that wait are the ones that have been taken; `wait` has been taken
and has no mark yet. -/
structure Flows (s : State) (P : Position) (wait : List Key) : Prop where
  shown : s.handed = P.outs.flatten ++ P.out
  bumped : Bumped Prod.snd P.out (wait ++ s.waitKeys) (keysFrom P.first P.played) P.todo
  plain : ∀ q, (s.mPIC q).waiting = true → (s.mPIC q).Plain P.seq.numReorder
  ages : ∀ q, (s.mPIC q).known = true → (s.mPIC q).decodeIdx < s.decodeIdx
  index : s.decodeIdx = P.first + P.played.length
  firstPicFlag : s.firstPicFlag = 0

/-- The pictures have the size of the sequence. -/
structure Sized (s : State) (q : Sequence) : Prop where
  width : s.picW = q.width
  height : s.picH = q.height
  resChange : s.resChange = false

/-- The picture of the last header. -/
structure Current (s : State) (r : Nat) (p : Pic) : Prop extends Unmarked s r p where
  referenced : (s.mPIC p).referenced = true
  poc : (s.mPIC p).poc = s.currPOC
  newest : ∀ q, q ≠ p → (s.mPIC q).known = true → (s.mPIC q).decodeIdx < (s.mPIC p).decodeIdx

/-- A header has been read and its picture has not been taken. -/
structure Pending (c : Config) (s : State) (P : Position) : Prop extends Flows s P [] where
  sized : Sized s P.seq
  depth : 0 < P.seq.numReorder ∧ s.spsNumReorderPics0 = P.seq.numReorder
  next : P.todo.head? = some s.currPOC
  idr : s.idr = true → s.waitKeys = []
  forgotten : c.mInsFlag = true → s.decodedPoc = INVALID_POC

/-- The last picture is done, or there was none. -/
structure Idle (s : State) (P : Position) (cur : Option Pic) : Prop extends
    Flows s P (cur.map fun p => (s.mPIC p).key).toList where
  sized : Sized s P.seq
  current : ∀ p, cur = some p → Current s P.seq.numReorder p
  fresh : cur = none → s.currPOC = INVALID_POC
  decodedPoc : s.decodedPoc = s.currPOC

/-- The picture of the last header is being decoded. -/
structure Decoding (s : State) (P : Position) (p : Pic) : Prop extends
    Flows s P [(s.mPIC p).key] where
  sized : Sized s P.seq
  current : Current s P.seq.numReorder p
  curPic : s.curPic = some p

/-- What holds of the decoder in each phase. -/
def Decoder.At (c : Config) (d : Decoder) (P : Position) : Prop :=
  match d.phase with
  | .idle => d.input = P.headers P.todo ∧ ∃ cur, Idle d.state P cur
  | .pending => d.input = P.headers P.todo.tail ∧ Pending c d.state P
  | .decoding => d.input = P.headers P.todo ∧ ∃ p, Decoding d.state P p

/-- The invariant of a run. -/
structure Playing (c : Config) (stream : List Sequence) (d : Decoder) : Prop where
  waits : ∀ w ∈ d.waits, w.1 ≤ w.2
  place : ∃ P : Position, P.Within stream ∧ d.At c P

section Runs
variable {c : Config} {s t u : State} {p q : Pic} {r : Nat} {P : Position} {wait : List Key}

theorem keysFrom_append (n : Int) (pocs : List Int) (poc : Int) :
    keysFrom n (pocs ++ [poc]) = keysFrom n pocs ++ [(n + pocs.length, poc)] := by
  induction pocs generalizing n with
  | nil => simp [keysFrom]
  | cons poc' pocs ih =>
    rw [List.cons_append, keysFrom, ih, keysFrom, List.cons_append, List.length_cons]
    simp only [List.cons.injEq, true_and, List.append_cancel_left_eq, Prod.mk.injEq, and_true]
    omega

theorem map_snd_keysFrom (n : Int) (pocs : List Int) : (keysFrom n pocs).map Prod.snd = pocs := by
  induction pocs generalizing n with
  | nil => rfl
  | cons poc pocs ih => rw [keysFrom, List.map_cons, ih]

theorem orderly_slice {stream : List Sequence} (h : P.Within stream) :
    Orderly 0 P.seq.numReorder (keysFrom P.first P.played) P.todo := by
  refine ⟨?_, ?_, fun h => absurd rfl h⟩
  all_goals rw [map_snd_keysFrom, ← h.split]
  · exact h.reorders
  · exact h.nodup

theorem orderly_flush {stream : List Sequence} (h : P.Within stream) (htodo : P.todo = []) :
    Orderly 2 P.seq.numReorder (keysFrom P.first P.played) [] := by
  obtain ⟨hreorders, hnodup, -⟩ := orderly_slice h
  rw [htodo] at hreorders hnodup
  exact ⟨hreorders, hnodup, fun _ => rfl⟩

/-! ### Moves without output -/

theorem Flows.rests (h : Flows s P wait) (hr : Rests s t) : Flows t P wait := by
  refine ⟨hr.handed.trans h.shown, ?_, fun q hq => ?_, fun q hq => ?_, ?_, ?_⟩
  · rw [waitKeys_eq hr]
    exact h.bumped
  · have hs := hr.unmarked q hq
    exact (h.plain q hs).of_core (hr.waiting q hs).2
  · obtain ⟨hs, hkey⟩ := hr.known q hq
    have hidx : (t.mPIC q).decodeIdx = (s.mPIC q).decodeIdx := (congrArg Prod.fst hkey :)
    have hnow : t.decodeIdx = s.decodeIdx := (congrArg State.decodeIdx hr.rest :)
    rw [hidx, hnow]
    exact h.ages q hs
  · exact (congrArg State.decodeIdx hr.rest).trans h.index
  · exact (congrArg State.firstPicFlag hr.rest).trans h.firstPicFlag

theorem Sized.rests {q : Sequence} (h : Sized s q) (hr : t.rest = s.rest) : Sized t q :=
  ⟨(congrArg State.picW hr).trans h.width, (congrArg State.picH hr).trans h.height,
    (congrArg State.resChange hr).trans h.resChange⟩

/-- A move that leaves the picture as `output_pic` sees it, and a reference. -/
theorem Current.rests (h : Current s r p) (hr : Rests s t)
    (hcore : (t.mPIC p).core = (s.mPIC p).core)
    (hmark : (t.mPIC p).outputMark = (s.mPIC p).outputMark)
    (href : (t.mPIC p).referenced = (s.mPIC p).referenced) : Current t r p := by
  have hkey := key_of_core hcore
  refine ⟨⟨(known_of_core hcore).trans h.known, hmark.trans h.mark,
    (congrArg Picture.ipMode hcore).trans h.ipMode, h.plain.of_core hcore⟩,
    href.trans h.referenced, ?_, fun q hq hknown => ?_⟩
  · have hpoc : (t.mPIC p).poc = (s.mPIC p).poc := (congrArg Prod.snd hkey :)
    rw [hpoc, h.poc]
    exact (congrArg State.currPOC hr.rest).symm
  · obtain ⟨hs, hold⟩ := hr.known q hknown
    have hq' : (t.mPIC q).decodeIdx = (s.mPIC q).decodeIdx := (congrArg Prod.fst hold :)
    have hp' : (t.mPIC p).decodeIdx = (s.mPIC p).decodeIdx := (congrArg Prod.fst hkey :)
    rw [hq', hp']
    exact h.newest q hq hs

/-- `get_pic_by_POC` finds the picture of the last header. -/
theorem Current.found (h : Current s r p) : getPicByPOC s s.currPOC = some p := by
  have hknown := h.known
  simp only [Picture.known, Bool.and_eq_true, decide_eq_true_eq] at hknown
  have hok : ((s.mPIC p).live && (s.mPIC p).poc == s.currPOC) = true := by
    rw [hknown.1, h.poc, Bool.true_and]
    exact beq_self_eq_true _
  cases hfound : getPicByPOC s s.currPOC with
  | none =>
    rw [getPicByPOC, if_neg (h.poc ▸ hknown.2)] at hfound
    have hno := (foldl_pick_eq_none.mp hfound).2 p (List.mem_finRange p)
    rw [hok] at hno
    cases hno
  | some q =>
    by_cases hq : q = p
    · rw [hq]
    · have hage := h.newest q hq (getPicByPOC_known hfound).1
      rw [getPicByPOC, if_neg (h.poc ▸ hknown.2)] at hfound
      have hbest := (foldl_pick_best (fun a => by simp) (fun a b hab => ?_) (fun a b d hab hbd => ?_)
        hfound).2 p (List.mem_finRange p) hok
      · simp only [decide_eq_false_iff_not] at hbest
        omega
      · simp only [decide_eq_true_eq, decide_eq_false_iff_not] at hab ⊢
        omega
      · simp only [decide_eq_false_iff_not] at hab hbd ⊢
        omega

theorem Recycled.kept (h : Recycled s t) (hlive : (s.mPIC p).live = true)
    (href : (s.mPIC p).referenced = true) : t.mPIC p = s.mPIC p := by
  rcases h p with hsame | ⟨-, hidle | hvalid⟩
  · exact hsame
  · simp only [Picture.idle, href, Bool.not_true, Bool.and_false, Bool.false_and] at hidle
    cases hidle
  · rw [Picture.live, hvalid] at hlive
    cases hlive

theorem Current.recycled (h : Current s r p) (hr : Reuses s t) : Current t r p := by
  have hknown := h.known
  simp only [Picture.known, Bool.and_eq_true] at hknown
  have hkept := hr.pics.kept hknown.1 h.referenced
  exact h.rests hr.rests (by rw [hkept]) (by rw [hkept]) (by rw [hkept])

/-! ### A new picture -/

theorem Pending.rests (h : Pending c s P) (hr : Rests s t) : Pending c t P := by
  refine ⟨h.toFlows.rests hr, h.sized.rests hr.rest, ⟨h.depth.1, ?_⟩, ?_, fun hidr => ?_,
    fun hins => ?_⟩
  · exact (congrArg State.spsNumReorderPics0 hr.rest).trans h.depth.2
  · have hpoc : t.currPOC = s.currPOC := (congrArg State.currPOC hr.rest :)
    rw [hpoc]
    exact h.next
  · rw [waitKeys_eq hr]
    have hsame : t.idr = s.idr := (congrArg State.idr hr.rest :)
    exact h.idr (hsame ▸ hidr)
  · exact (congrArg State.decodedPoc hr.rest).trans (h.forgotten hins)

theorem Pending.setCurPic (h : Pending c s P) (o : Option Pic) :
    Pending c { s with curPic := o } P :=
  ⟨⟨h.shown, h.bumped, h.plain, h.ages, h.index, h.firstPicFlag⟩,
    ⟨h.sized.width, h.sized.height, h.sized.resChange⟩, h.depth, h.next, h.idr, h.forgotten⟩

/-- The picture `get_new_pic` takes becomes the current one. -/
theorem Pending.start {stream : List Sequence} (h : Pending c s P) (hw : P.Within stream)
    (hlive : (s.mPIC p).live = true) (hmark : (s.mPIC p).outputMark = false)
    (hpic : ∀ q, t.mPIC q = if q = p then startedPic c s p else s.mPIC q)
    (hrest : t.rest = { s.rest with decodeIdx := s.decodeIdx + 1, curPic := some p })
    (hhanded : t.handed = s.handed) :
    Decoding t { P with played := P.played ++ [s.currPOC], todo := P.todo.tail } p := by
  have hself : t.mPIC p = startedPic c s p := (hpic p).trans (if_pos rfl)
  have hother : ∀ q, q ≠ p → t.mPIC q = s.mPIC q := fun q hq => (hpic q).trans (if_neg hq)
  have hidle : (t.mPIC p).waiting = false := by
    rw [hself]
    exact not_waiting rfl
  have hpoc : t.currPOC = s.currPOC := (congrArg State.currPOC hrest :)
  have hindex : t.decodeIdx = s.decodeIdx + 1 := (congrArg State.decodeIdx hrest :)
  have hkey : (t.mPIC p).key = (P.first + P.played.length, s.currPOC) := by
    rw [hself, ← h.index]
    rfl
  have htodo : P.todo = s.currPOC :: P.todo.tail := by
    have hnext := h.next
    cases htodo : P.todo with
    | nil =>
      rw [htodo] at hnext
      cases hnext
    | cons poc todo =>
      rw [htodo] at hnext
      rw [Option.some.inj hnext, List.tail_cons]
  have hkeys : t.waitKeys = s.waitKeys := by
    refine waitKeys_congr (fun q => ?_) fun q hq => ?_
    all_goals by_cases hqp : q = p
    · rw [hqp, hidle, not_waiting hmark]
    · rw [hother q hqp]
    · rw [hqp, hidle] at hq
      cases hq
    · rw [hother q hqp]
  have hflows : Flows t { P with played := P.played ++ [s.currPOC], todo := P.todo.tail }
      [(t.mPIC p).key] := by
    refine ⟨hhanded.trans h.shown, ?_, fun q hq => ?_, fun q hq => ?_, ?_, ?_⟩
    · show Bumped Prod.snd P.out ([(t.mPIC p).key] ++ t.waitKeys)
        (keysFrom P.first (P.played ++ [s.currPOC])) P.todo.tail
      rw [hkeys, keysFrom_append, hkey]
      have hbumped := h.bumped
      rw [htodo] at hbumped
      exact hbumped.arrive
    · by_cases hqp : q = p
      · rw [hqp, hidle] at hq
        cases hq
      · rw [hother q hqp] at hq ⊢
        exact h.plain q hq
    · rw [hindex]
      by_cases hqp : q = p
      · rw [hqp, hself]
        exact Int.lt_succ s.decodeIdx
      · rw [hother q hqp] at hq ⊢
        exact Int.lt_trans (h.ages q hq) (Int.lt_succ s.decodeIdx)
    · rw [hindex, h.index]
      simp [Int.add_assoc]
    · exact (congrArg State.firstPicFlag hrest).trans h.firstPicFlag
  refine ⟨hflows, ?_, ⟨⟨?_, ?_, ?_, ?_⟩, ?_, ?_, fun q hq hknown => ?_⟩,
    (congrArg State.curPic hrest :)⟩
  · exact ⟨(congrArg State.picW hrest).trans h.sized.width,
      (congrArg State.picH hrest).trans h.sized.height,
      (congrArg State.resChange hrest).trans h.sized.resChange⟩
  · have hvalid : s.currPOC ≠ INVALID_POC := fun heq => hw.valid (by
      rw [hw.split, htodo, heq]
      simp)
    rw [hself]
    show ((s.mPIC p).live && decide (s.currPOC ≠ INVALID_POC)) = true
    rw [hlive, decide_eq_true hvalid]
    rfl
  · rw [hself]
    rfl
  · rw [hself]
    show (s.spsNumReorderPics0 == 0 && !c.dual && !c.disableIpMode) = false
    rw [h.depth.2, beq_eq_false_iff_ne.mpr (Nat.pos_iff_ne_zero.mp h.depth.1)]
    rfl
  · rw [hself]
    exact ⟨h.depth.2, rfl, rfl, rfl, rfl⟩
  · rw [hself]
    rfl
  · rw [hself, hpoc]
    rfl
  · rw [hother q hq] at hknown ⊢
    rw [hself]
    exact h.ages q hknown

theorem startPic_frame (c : Config) (s : State) (p : Pic) :
    (startPic c s p).mPIC = (s.setPic p (startedPic c s p)).mPIC ∧
      (startPic c s p).rest = s.rest ∧ (startPic c s p).handed = s.handed := by
  rw [startPic]
  split <;> exact ⟨rfl, rfl, rfl⟩

theorem Pending.newPic {stream : List Sequence} (h : Pending c s P) (hw : P.Within stream)
    (a : Allocs) :
    ((nextPic c s a).curPic = none ∧ Pending c (nextPic c s a) P) ∨
      ∃ p, Decoding (nextPic c s a)
        { P with played := P.played ++ [s.currPOC], todo := P.todo.tail } p := by
  rcases getNewPic_rests c s a with ⟨hnone, hrests⟩ | ⟨p, t, heq, hrests, hlive, hmark⟩
  · have hcur : (nextPic c s a).curPic = none := hnone
    have hnext : nextPic c s a = { (getNewPic c s a).2 with curPic := none } := by
      rw [nextPic, hnone]
      rfl
    refine Or.inl ⟨hcur, ?_⟩
    rw [hnext]
    exact (h.rests hrests).setCurPic none
  · have ht := h.rests hrests
    have hpoc : t.currPOC = s.currPOC := (congrArg State.currPOC hrests.rest :)
    obtain ⟨hpics, hrest, hhanded⟩ := startPic_frame c t p
    have hnext : nextPic c s a =
        { startPic c t p with curPic := some p, decodeIdx := (startPic c t p).decodeIdx + 1 } := by
      rw [nextPic, heq]
      rfl
    refine Or.inr ⟨p, ?_⟩
    rw [hnext, ← hpoc]
    refine ht.start hw hlive hmark (fun q => congrFun hpics q) ?_ hhanded
    have hindex : (startPic c t p).decodeIdx = t.decodeIdx := (congrArg State.decodeIdx hrest :)
    rw [← hindex, ← hrest]
    rfl

/-! ### A header -/

/-- What `hevc_pre_pic` leaves, and `apply_ref_pic_set` after it. -/
theorem pending_of_shows {stream : List Sequence} {most : Nat} {out' : List Key}
    (curRps : Fin 16 → UInt16) (hw : P.Within stream)
    (hshows : Shows s t P.seq.numReorder most P.outs.flatten out' (keysFrom P.first P.played)
      P.todo)
    (hrest : t.rest = { (forgetDecoded c s).rest with resChange := false })
    (hmost : s.idr = true → most = 0) (hages : ∀ q, (s.mPIC q).known = true →
      (s.mPIC q).decodeIdx < s.decodeIdx) (hindex : s.decodeIdx = P.first + P.played.length)
    (hfirst : s.firstPicFlag = 0) (hsize : s.picW = P.seq.width ∧ s.picH = P.seq.height)
    (hdepth : 0 < P.seq.numReorder ∧ s.spsNumReorderPics0 = P.seq.numReorder)
    (hnext : P.todo.head? = some s.currPOC) :
    ∃ P' : Position, P'.Within stream ∧ P'.headers = P.headers ∧ P'.todo = P.todo ∧
      Pending c (applyRefPicSet t t.currPOC curRps) P' := by
  have hfields : t.decodeIdx = s.decodeIdx ∧ t.firstPicFlag = s.firstPicFlag ∧ t.picW = s.picW ∧
      t.picH = s.picH ∧ t.spsNumReorderPics0 = s.spsNumReorderPics0 ∧ t.currPOC = s.currPOC ∧
      t.idr = s.idr ∧ t.resChange = false ∧ (c.mInsFlag = true → t.decodedPoc = INVALID_POC) := by
    have hforget : (forgetDecoded c s).rest = { s.rest with
        decodedPoc := if c.mInsFlag then INVALID_POC else s.decodedPoc } := by
      rw [forgetDecoded]
      cases c.mInsFlag <;> rfl
    rw [hforget] at hrest
    refine ⟨(congrArg State.decodeIdx hrest :), (congrArg State.firstPicFlag hrest :),
      (congrArg State.picW hrest :), (congrArg State.picH hrest :),
      (congrArg State.spsNumReorderPics0 hrest :), (congrArg State.currPOC hrest :),
      (congrArg State.idr hrest :), (congrArg State.resChange hrest :), fun hins => ?_⟩
    exact (congrArg State.decodedPoc hrest).trans (if_pos hins)
  obtain ⟨h1, h2, h3, h4, h5, h6, h7, h8, h9⟩ := hfields
  refine ⟨{ P with out := out' }, ⟨hw.past, hw.split, hw.numReorder, hw.nodup, hw.valid, hw.reorders, hw.future⟩,
    rfl, rfl, Pending.rests ?_ (applyRefPicSet_stays t t.currPOC curRps).rests⟩
  refine ⟨⟨hshows.handed, hshows.bumped, hshows.plain, fun q hq => ?_, h1.trans hindex,
    h2.trans hfirst⟩, ⟨h3.trans hsize.1, h4.trans hsize.2, h8⟩, ⟨hdepth.1, h5.trans hdepth.2⟩,
    ?_, fun hidr => ?_, h9⟩
  · have hcore := hshows.core q
    have hkey : (t.mPIC q).decodeIdx = (s.mPIC q).decodeIdx :=
      (congrArg Prod.fst (key_of_core hcore) :)
    rw [hkey, h1]
    exact hages q ((known_of_core hcore).symm.trans hq)
  · rw [h6]
    exact hnext
  · have hlen := hshows.limit
    rw [hmost (h7 ▸ hidr)] at hlen
    exact List.eq_nil_of_length_eq_zero (Nat.le_zero.mp hlen)

theorem Idle.recycled {cur : Option Pic} (h : Idle s P cur) (hr : Reuses s t) :
    Idle t P cur := by
  have hkeys : (cur.map fun p => (t.mPIC p).key) = cur.map fun p => (s.mPIC p).key := by
    cases cur with
    | none => rfl
    | some p =>
      have hcur := h.current p rfl
      have hknown := hcur.known
      simp only [Picture.known, Bool.and_eq_true] at hknown
      rw [Option.map_some, hr.pics.kept hknown.1 hcur.referenced, Option.map_some]
  have hpoc : t.currPOC = s.currPOC := (congrArg State.currPOC hr.rest :)
  refine ⟨?_, h.sized.rests hr.rest, fun p hp => (h.current p hp).recycled hr, fun hcur => ?_, ?_⟩
  · rw [hkeys]
    exact h.toFlows.rests hr.rests
  · rw [hpoc]
    exact h.fresh hcur
  · rw [hpoc]
    exact (congrArg State.decodedPoc hr.rest).trans h.decodedPoc

theorem getPicByPOC_invalid (s : State) : getPicByPOC s INVALID_POC = none := if_pos rfl

theorem Idle.found {cur : Option Pic} (h : Idle s P cur) : getPicByPOC s s.currPOC = cur := by
  cases cur with
  | none =>
    rw [h.fresh rfl]
    exact getPicByPOC_invalid s
  | some p => exact (h.current p rfl).found

/-- The header of the next picture: the last one is marked and pictures are shown. -/
theorem Idle.prePic {cur : Option Pic} {hd : Header} (hc : c.Plain) (h : Idle s P cur)
    (hpics : Recycled s t) (hrest : t.rest = (readHeader s hd).rest)
    (hhanded : t.handed = s.handed) (hres : hd.idr = false → (readHeader s hd).resChange = false)
    (horder : Orderly (if hd.idr then 2 else 0) P.seq.numReorder (keysFrom P.first P.played)
      P.todo) :
    (hevcPrePic c t).rest = { (forgetDecoded c t).rest with resChange := false } ∧
      ∃ out', Shows t (hevcPrePic c t) P.seq.numReorder
        (limit (if hd.idr then 2 else 0) P.seq.numReorder) P.outs.flatten out'
        (keysFrom P.first P.played) P.todo := by
  have hold : Idle { s with mPIC := t.mPIC } P cur := h.recycled ⟨hpics, rfl, rfl⟩
  have hidr : t.idr = hd.idr := (congrArg State.idr hrest :)
  have hprev : decodedBefore c t = s.currPOC := by
    rw [decodedBefore]
    split
    · exact (congrArg State.decodedPoc hrest).trans h.decodedPoc
    · exact (congrArg State.iPrevPOC hrest :)
  rw [← hidr] at horder hres ⊢
  refine hevcPrePic_shows hc (fun hno => ?_) horder
    ((congrArg State.firstPicFlag hrest).trans h.firstPicFlag) hold.plain ?_ (fun p hp => ?_)
    hold.bumped (hhanded.trans h.shown)
  · exact (congrArg State.resChange hrest).trans (hres hno)
  · rw [hprev]
    exact hold.found
  · obtain ⟨hknown, hmark, hmode, hplain⟩ := (hold.current p hp).toUnmarked
    exact ⟨hknown, hmark, hmode, hplain⟩

/-- The sequence is over and all its pictures have been shown: the next one begins. -/
def Position.next (P : Position) (q : Sequence) (future : List Sequence) (out : List Key) :
    Position :=
  { seq := q, first := P.first + P.played.length, played := [], todo := q.pocs, future := future
    outs := P.outs ++ [out], out := [] }

theorem Position.Within.next {stream future : List Sequence} {q : Sequence} {out : List Key}
    (h : P.Within stream) (htodo : P.todo = []) (hfuture : P.future = q :: future)
    (hout : InOrder (keysFrom P.first P.played) out) : (P.next q future out).Within stream := by
  obtain ⟨keys, hkeys, houts⟩ := h.past
  have hq := h.future q (by rw [hfuture]; exact List.mem_cons_self)
  have hplayed : P.seq.pocs = P.played := by rw [h.split, htodo, List.append_nil]
  refine ⟨⟨keys ++ [keysFrom P.first P.played], ?_, ?_⟩, rfl, hq.numReorder, hq.nodup,
    hq.valid, hq.reorders, fun q' hq' => h.future q' (by rw [hfuture]; exact List.mem_cons_of_mem q hq')⟩
  · rw [hkeys, hfuture, numbered, hplayed, List.append_assoc, List.singleton_append]
    rfl
  · exact List.rel_append houts (List.Forall₂.cons hout List.Forall₂.nil)

theorem limit_le (flush r : Nat) : limit flush r ≤ r := by
  rw [limit]
  split
  · exact Nat.min_le_left r _
  · exact Nat.zero_le r

/-- A header of the stream is read. -/
theorem Idle.header {stream : List Sequence} {cur : Option Pic} {hd : Header} {input : List Header}
    {curRps : Fin 16 → UInt16} (hc : c.Plain) (h : Idle s P cur) (hw : P.Within stream)
    (hinput : hd :: input = P.headers P.todo) (hpics : Recycled s t)
    (hrest : t.rest = (readHeader s hd).rest) (hhanded : t.handed = s.handed) :
    (hevcPrePic c t).waitKeys.length ≤ (hevcPrePic c t).spsNumReorderPics0 ∧
      ∃ P' : Position, P'.Within stream ∧ input = P'.headers P'.todo.tail ∧
        Pending c (applyRefPicSet (hevcPrePic c t) (hevcPrePic c t).currPOC curRps) P' := by
  have hold : Idle { s with mPIC := t.mPIC } P cur := h.recycled ⟨hpics, rfl, rfl⟩
  have hindex : t.decodeIdx = s.decodeIdx := (congrArg State.decodeIdx hrest :)
  have hfirst : t.firstPicFlag = 0 := (congrArg State.firstPicFlag hrest).trans h.firstPicFlag
  have hages : ∀ q, (t.mPIC q).known = true → (t.mPIC q).decodeIdx < t.decodeIdx := fun q hq => by
    rw [hindex]
    exact hold.ages q hq
  have hidr : t.idr = hd.idr := (congrArg State.idr hrest :)
  have hpoc : t.currPOC = hd.poc := (congrArg State.currPOC hrest :)
  have hdepth : t.spsNumReorderPics0 = hd.numReorder := (congrArg State.spsNumReorderPics0 hrest :)
  have hsize : t.picW = hd.width ∧ t.picH = hd.height :=
    ⟨(congrArg State.picW hrest :), (congrArg State.picH hrest :)⟩
  have hkept : ∀ {u : State}, u.rest = { (forgetDecoded c t).rest with resChange := false } →
      u.spsNumReorderPics0 = hd.numReorder := fun hu => by
    apply (congrArg State.spsNumReorderPics0 hu).trans
    rw [← hdepth, forgetDecoded]
    split <;> rfl
  cases htodo : P.todo with
  | cons poc todo =>
    rw [htodo, Position.headers, List.map_cons, List.cons_append] at hinput
    obtain ⟨rfl, rfl⟩ := List.cons.inj hinput
    have hres : (readHeader s (P.seq.header false poc)).resChange = false := by
      show (s.resChange || decide (s.picW ≠ P.seq.width) || decide (s.picH ≠ P.seq.height)) = false
      rw [h.sized.resChange, h.sized.width, h.sized.height]
      simp
    obtain ⟨hafter, out', hshows⟩ := h.prePic hc hpics hrest hhanded (fun _ => hres)
      (orderly_slice hw)
    refine ⟨?_, ?_⟩
    · rw [hkept hafter]
      exact hshows.limit.trans (limit_le _ _)
    · obtain ⟨P', hw', hheaders, htodo', hpending⟩ := pending_of_shows curRps hw hshows
        hafter (fun hno => by rw [hidr] at hno; cases hno) hages (hindex.trans h.index) hfirst hsize
        ⟨hw.numReorder, hdepth⟩ (by rw [htodo, hpoc]; rfl)
      refine ⟨P', hw', ?_, hpending⟩
      rw [hheaders, htodo', htodo]
      rfl
  | nil =>
    rw [htodo, Position.headers, List.map_nil, List.nil_append] at hinput
    cases hfuture : P.future with
    | nil =>
      rw [hfuture] at hinput
      cases hinput
    | cons q future =>
      have hq := hw.future q (by rw [hfuture]; exact List.mem_cons_self)
      obtain ⟨poc, pocs, hpocs⟩ := List.exists_cons_of_ne_nil hq.starts
      rw [hfuture, List.flatMap_cons, Sequence.headers, hpocs, List.cons_append] at hinput
      obtain ⟨rfl, rfl⟩ := List.cons.inj hinput
      have horder := orderly_flush hw htodo
      rw [← htodo] at horder
      obtain ⟨hafter, out', hshows⟩ := h.prePic hc hpics hrest hhanded (fun hno => by cases hno)
        horder
      have hnone : (hevcPrePic c t).waitKeys = [] :=
        List.eq_nil_of_length_eq_zero (Nat.le_zero.mp hshows.limit)
      have hbumped := hshows.bumped
      rw [hnone] at hbumped
      have hout : InOrder (keysFrom P.first P.played) out' :=
        ⟨by simpa using hbumped.perm, hbumped.sorted⟩
      have hbegin : Shows t (hevcPrePic c t) q.numReorder 0 (P.next q future out').outs.flatten []
          (keysFrom (P.next q future out').first (P.next q future out').played)
          (P.next q future out').todo := by
        refine ⟨hshows.core, fun p hp => ?_, Nat.le_of_eq (congrArg List.length hnone), ?_, ?_⟩
        · have hmem := mem_waitKeys.mpr ⟨p, hp, rfl⟩
          rw [hnone] at hmem
          cases hmem
        · rw [hshows.handed]
          simp [Position.next]
        · rw [hnone]
          exact bumped_nil _
      refine ⟨?_, ?_⟩
      · rw [hnone]
        exact Nat.zero_le _
      · obtain ⟨P', hw', hheaders, htodo', hpending⟩ := pending_of_shows curRps
          (hw.next htodo hfuture hout) hbegin hafter (fun _ => rfl) hages
          (by rw [hindex, h.index]; exact (Int.add_zero _).symm) hfirst hsize
          ⟨hq.numReorder, hdepth⟩ (by rw [hpoc]; show q.pocs.head? = _; rw [hpocs]; rfl)
        refine ⟨P', hw', ?_, hpending⟩
        rw [hheaders, htodo']
        show _ = (q.pocs.tail.map (q.header false)) ++ future.flatMap Sequence.headers
        rw [hpocs]
        rfl

/-! ### The other steps -/

/-- The header is read again: nothing is marked, and no more pictures wait than may. -/
theorem Pending.again_shows {stream : List Sequence} (hc : c.Plain) (h : Pending c s P)
    (hw : P.Within stream) (hins : c.mInsFlag = true) :
    (hevcPrePic c s).rest = { (forgetDecoded c s).rest with resChange := false } ∧
      ∃ out', Shows s (hevcPrePic c s) P.seq.numReorder
        (limit (if s.idr then 2 else 0) P.seq.numReorder) P.outs.flatten out'
        (keysFrom P.first P.played) P.todo := by
  have hfound : getPicByPOC s (decodedBefore c s) = none := by
    rw [decodedBefore, if_pos hins, h.forgotten hins]
    exact getPicByPOC_invalid s
  have hnone : ∀ p, (none : Option Pic) = some p → Unmarked s P.seq.numReorder p :=
    fun p hp => by cases hp
  cases hidr : s.idr with
  | false =>
    have hshows := hevcPrePic_shows hc (fun _ => h.sized.resChange)
      (by rw [hidr]; exact orderly_slice hw) h.firstPicFlag h.plain hfound hnone h.bumped h.shown
    rw [hidr] at hshows
    exact hshows
  | true =>
    have hempty := h.idr hidr
    have horder : Orderly 2 P.seq.numReorder [] [] :=
      ⟨fun pre y post hno => by simp at hno, List.nodup_nil, fun _ => rfl⟩
    have hnothing : Bumped Prod.snd [] ([] ++ s.waitKeys) [] [] := by
      rw [hempty]
      exact bumped_nil []
    obtain ⟨hrest, out', hshows⟩ := hevcPrePic_shows hc (fun _ => h.sized.resChange)
      (by rw [hidr]; exact horder) h.firstPicFlag h.plain hfound hnone hnothing
      (List.append_nil s.handed).symm
    rw [hidr] at hshows
    have hgone : (hevcPrePic c s).waitKeys = [] :=
      List.eq_nil_of_length_eq_zero (Nat.le_zero.mp hshows.limit)
    have hout : out' = [] := (List.append_eq_nil_iff.mp hshows.bumped.perm.eq_nil).1
    refine ⟨hrest, P.out, hshows.core, hshows.plain, hshows.limit, ?_, ?_⟩
    · rw [hshows.handed, hout, List.append_nil]
      exact h.shown
    · have hbumped := h.bumped
      rw [hempty] at hbumped
      rw [hgone]
      exact hbumped

theorem Pending.again {stream : List Sequence} (h : Pending c s P) (curRps : Fin 16 → UInt16)
    (hc : c.Plain) (hw : P.Within stream) (hins : c.mInsFlag = true) :
    (hevcPrePic c s).waitKeys.length ≤ (hevcPrePic c s).spsNumReorderPics0 ∧
      ∃ P' : Position, P'.Within stream ∧ P'.headers P'.todo.tail = P.headers P.todo.tail ∧
        Pending c (applyRefPicSet (hevcPrePic c s) (hevcPrePic c s).currPOC curRps) P' := by
  obtain ⟨hrest, out', hshows⟩ := h.again_shows hc hw hins
  have hdepth : (hevcPrePic c s).spsNumReorderPics0 = P.seq.numReorder := by
    apply (congrArg State.spsNumReorderPics0 hrest).trans
    rw [← h.depth.2, forgetDecoded]
    split <;> rfl
  refine ⟨?_, ?_⟩
  · rw [hdepth]
    exact hshows.limit.trans (limit_le _ _)
  · obtain ⟨P', hw', hheaders, htodo, hpending⟩ := pending_of_shows curRps hw hshows
      hrest (fun hidr => by rw [hidr]; rfl) h.ages h.index h.firstPicFlag
      ⟨h.sized.width, h.sized.height⟩ h.depth h.next
    exact ⟨P', hw', by rw [hheaders, htodo], hpending⟩

/-- A move that leaves the current picture as it is. -/
theorem Decoding.rests (h : Decoding s P p) (hr : Rests s t)
    (hcore : (t.mPIC p).core = (s.mPIC p).core)
    (hmark : (t.mPIC p).outputMark = (s.mPIC p).outputMark)
    (href : (t.mPIC p).referenced = (s.mPIC p).referenced) : Decoding t P p := by
  refine ⟨?_, h.sized.rests hr.rest, h.current.rests hr hcore hmark href,
    (congrArg State.curPic hr.rest).trans h.curPic⟩
  rw [key_of_core hcore]
  exact h.toFlows.rests hr

theorem Idle.rests {cur : Option Pic} (h : Idle s P cur) (hr : Stays s t)
    (href : ∀ q, (t.mPIC q).referenced = (s.mPIC q).referenced) : Idle t P cur := by
  have hpoc : t.currPOC = s.currPOC := (congrArg State.currPOC hr.rest :)
  refine ⟨?_, h.sized.rests hr.rest, fun p hp =>
    (h.current p hp).rests hr.rests (hr.core p) (hr.mark p) (href p), fun hcur => ?_, ?_⟩
  · have hkeys : (fun p => (t.mPIC p).key) = fun p => (s.mPIC p).key :=
      funext fun p => key_of_core (hr.core p)
    rw [hkeys]
    exact h.toFlows.rests hr.rests
  · rw [hpoc]
    exact h.fresh hcur
  · rw [hpoc]
    exact (congrArg State.decodedPoc hr.rest).trans h.decodedPoc

/-- Only the slice type of a picture without marks changes. -/
theorem setMarks_stays (h : (s.mPIC p).Plain r) (sliceType : Nat) :
    Stays s (setMarks s p { sliceType := sliceType }) := by
  refine stays_setPic ?_ rfl
  simp only [Picture.core, h.errorMark, h.nodispMark, h.dropFlag, h.needMmuCopy]

theorem Decoding.slice (h : Decoding s P p) (workPicNum records sliceType : Nat) :
    Decoding (nextSlice s workPicNum records sliceType) P p := by
  have hprev : Decoding { s with iPrevPOC := s.currPOC } P p :=
    ⟨⟨h.shown, h.bumped, h.plain, h.ages, h.index, h.firstPicFlag⟩,
      ⟨h.sized.width, h.sized.height, h.sized.resChange⟩,
      ⟨⟨h.current.known, h.current.mark, h.current.ipMode, h.current.plain⟩, h.current.referenced,
        h.current.poc, h.current.newest⟩, h.curPic⟩
  have hreuses := picListProcess_reuses { s with iPrevPOC := s.currPOC } workPicNum records
  have hknown := hprev.current.known
  simp only [Picture.known, Bool.and_eq_true] at hknown
  have hkept := hreuses.pics.kept hknown.1 hprev.current.referenced
  have hused := hprev.rests hreuses.rests (by rw [hkept]) (by rw [hkept]) (by rw [hkept])
  rw [nextSlice, hused.curPic]
  refine hused.rests (setMarks_stays hused.current.plain sliceType).rests ?_ ?_ ?_
  · exact (setMarks_stays hused.current.plain sliceType).core p
  · exact (setMarks_stays hused.current.plain sliceType).mark p
  · show ((setMarks _ p { sliceType := sliceType }).mPIC p).referenced = _
    rw [setMarks, setPic_self]

theorem Decoding.idle (h : Decoding s P p) :
    Idle { s with decodedPoc := s.currPOC } P (some p) := by
  have hcur : Current { s with decodedPoc := s.currPOC } P.seq.numReorder p :=
    ⟨⟨h.current.known, h.current.mark, h.current.ipMode, h.current.plain⟩, h.current.referenced,
      h.current.poc, h.current.newest⟩
  exact ⟨⟨h.shown, h.bumped, h.plain, h.ages, h.index, h.firstPicFlag⟩,
    ⟨h.sized.width, h.sized.height, h.sized.resChange⟩, fun q hq => Option.some.inj hq ▸ hcur,
    fun hno => absurd hno (Option.some_ne_none p), rfl⟩

theorem returnPic_referenced (s : State) (p q : Pic) (vfRef : Nat) (ready : Bool) :
    ((returnPic s p vfRef ready).mPIC q).referenced = (s.mPIC q).referenced := by
  by_cases hq : q = p
  · rw [hq, returnPic, setPic_self]
  · rw [returnPic, setPic_other _ _ hq]

/-! ### Runs -/

theorem at_idle {d : Decoder} (h : d.phase = .idle) :
    d.At c P ↔ d.input = P.headers P.todo ∧ ∃ cur, Idle d.state P cur := by
  rw [Decoder.At, h]

theorem at_pending {d : Decoder} (h : d.phase = .pending) :
    d.At c P ↔ d.input = P.headers P.todo.tail ∧ Pending c d.state P := by
  rw [Decoder.At, h]

theorem at_decoding {d : Decoder} (h : d.phase = .decoding) :
    d.At c P ↔ d.input = P.headers P.todo ∧ ∃ p, Decoding d.state P p := by
  rw [Decoder.At, h]

theorem newPicture_state (c : Config) (d : Decoder) (workPicNum records : Nat)
    (curRps : Fin 16 → UInt16) : (newPicture c d workPicNum records curRps).state =
      applyRefPicSet (hevcPrePic c (picListProcess d.state workPicNum records))
        (hevcPrePic c (picListProcess d.state workPicNum records)).currPOC curRps := by
  rw [newPicture]

theorem newPicture_input (c : Config) (d : Decoder) (workPicNum records : Nat)
    (curRps : Fin 16 → UInt16) : (newPicture c d workPicNum records curRps).input = d.input := by
  rw [newPicture]

theorem newPicture_phase (c : Config) (d : Decoder) (workPicNum records : Nat)
    (curRps : Fin 16 → UInt16) : (newPicture c d workPicNum records curRps).phase = .pending := by
  rw [newPicture]

theorem newPicture_waits (c : Config) (d : Decoder) (workPicNum records : Nat)
    (curRps : Fin 16 → UInt16) : (newPicture c d workPicNum records curRps).waits =
      d.waits ++ [(numPicNotYetDisplay (hevcPrePic c (picListProcess d.state workPicNum records)),
        (hevcPrePic c (picListProcess d.state workPicNum records)).spsNumReorderPics0)] := by
  rw [newPicture]

theorem newPicture_playing {stream : List Sequence} {d : Decoder} {workPicNum records : Nat}
    {curRps : Fin 16 → UInt16} (hwaits : ∀ w ∈ d.waits, w.1 ≤ w.2)
    (hnext : (hevcPrePic c (picListProcess d.state workPicNum records)).waitKeys.length ≤
        (hevcPrePic c (picListProcess d.state workPicNum records)).spsNumReorderPics0 ∧
      ∃ P' : Position, P'.Within stream ∧ d.input = P'.headers P'.todo.tail ∧
        Pending c (applyRefPicSet (hevcPrePic c (picListProcess d.state workPicNum records))
          (hevcPrePic c (picListProcess d.state workPicNum records)).currPOC curRps) P') :
    Playing c stream (newPicture c d workPicNum records curRps) := by
  obtain ⟨hlen, P', hw', hinput, hpending⟩ := hnext
  refine ⟨fun w hw => ?_, P', hw', (at_pending (newPicture_phase c d _ _ _)).mpr ⟨?_, ?_⟩⟩
  · rw [newPicture_waits] at hw
    rcases List.mem_append.mp hw with hold | hnew
    · exact hwaits w hold
    · rw [List.mem_singleton.mp hnew, length_waitKeys]
      exact hlen
  · rw [newPicture_input]
    exact hinput
  · rw [newPicture_state]
    exact hpending

theorem play_playing {stream : List Sequence} (hc : c.Plain) {d d' : Decoder} {op : Op}
    (h : Playing c stream d) (hstep : play c d op = some d') : Playing c stream d' := by
  obtain ⟨hwaits, P, hw, hat⟩ := h
  cases op with
  | header interlace workPicNum records curRps =>
    simp only [play] at hstep
    split at hstep
    next hd input hphase hinput =>
      rw [← Option.some.inj hstep]
      obtain ⟨hheaders, cur, hidle⟩ := (at_idle hphase).mp hat
      rw [hinput] at hheaders
      have hreuses := picListProcess_reuses
        { readHeader d.state hd with interlaceFlag := interlace } workPicNum records
      exact newPicture_playing (d := { d with
        state := { readHeader d.state hd with interlaceFlag := interlace }, input := input }) hwaits
        (hidle.header hc hw hheaders hreuses.pics hreuses.rest hreuses.handed)
    next => cases hstep
  | again workPicNum records curRps =>
    simp only [play] at hstep
    split at hstep
    next hphase =>
      rw [← Option.some.inj hstep]
      obtain ⟨hinput, hpending⟩ := (at_pending hphase.1).mp hat
      have hreuses := picListProcess_reuses d.state workPicNum records
      obtain ⟨hlen, P', hw', hsame, hpending'⟩ :=
        (hpending.rests hreuses.rests).again curRps hc hw hphase.2
      exact newPicture_playing hwaits ⟨hlen, P', hw', hinput.trans hsame.symm, hpending'⟩
    next => cases hstep
  | picListProcess workPicNum records =>
    simp only [play] at hstep
    split at hstep
    next hphase =>
      cases hstep
      obtain ⟨hinput, hpending⟩ := (at_pending hphase).mp hat
      exact ⟨hwaits, P, hw, (at_pending
        (d := { d with state := picListProcess d.state workPicNum records }) hphase).mpr
        ⟨hinput, hpending.rests (picListProcess_reuses d.state workPicNum records).rests⟩⟩
    next => cases hstep
  | newPic a =>
    simp only [play] at hstep
    split at hstep
    next hphase =>
      cases hstep
      obtain ⟨hinput, hpending⟩ := (at_pending hphase).mp hat
      rcases hpending.newPic hw a with ⟨hnone, hpending'⟩ | ⟨p, hdecoding⟩
      · refine ⟨hwaits, P, hw, (at_pending ?_).mpr ⟨hinput, hpending'⟩⟩
        show (if (nextPic c d.state a).curPic.isSome = true then Phase.decoding else .pending) = _
        rw [hnone]
        rfl
      · refine ⟨hwaits, { P with played := P.played ++ [d.state.currPOC], todo := P.todo.tail },
          ⟨hw.past, ?_, hw.numReorder, hw.nodup, hw.valid, hw.reorders, hw.future⟩,
          (at_decoding ?_).mpr ⟨hinput, p, hdecoding⟩⟩
        · have htodo := List.cons_head?_tail (Option.mem_def.mpr hpending.next)
          rw [hw.split, ← htodo]
          simp
        · show (if (nextPic c d.state a).curPic.isSome = true then Phase.decoding else .pending) = _
          rw [hdecoding.curPic]
          rfl
    next => cases hstep
  | slice workPicNum records sliceType =>
    simp only [play] at hstep
    split at hstep
    next hphase =>
      cases hstep
      obtain ⟨hinput, p, hdecoding⟩ := (at_decoding hphase).mp hat
      exact ⟨hwaits, P, hw, (at_decoding
        (d := { d with state := nextSlice d.state workPicNum records sliceType }) hphase).mpr
        ⟨hinput, p, hdecoding.slice workPicNum records sliceType⟩⟩
    next => cases hstep
  | putBack p vfRef ready =>
    cases hstep
    have hstays := returnPic_stays d.state p vfRef ready
    have href := fun q => returnPic_referenced d.state p q vfRef ready
    refine ⟨hwaits, P, hw, ?_⟩
    cases hphase : d.phase with
    | idle =>
      obtain ⟨hinput, cur, hidle⟩ := (at_idle hphase).mp hat
      exact (at_idle rfl).mpr ⟨hinput, cur, hidle.rests hstays href⟩
    | pending =>
      obtain ⟨hinput, hpending⟩ := (at_pending hphase).mp hat
      exact (at_pending rfl).mpr ⟨hinput, hpending.rests hstays.rests⟩
    | decoding =>
      obtain ⟨hinput, q, hdecoding⟩ := (at_decoding hphase).mp hat
      exact (at_decoding rfl).mpr ⟨hinput, q,
        hdecoding.rests hstays.rests (hstays.core q) (hstays.mark q) (href q)⟩
  | decoded =>
    simp only [play] at hstep
    split at hstep
    next hphase =>
      cases hstep
      obtain ⟨hinput, p, hdecoding⟩ := (at_decoding hphase).mp hat
      exact ⟨hwaits, P, hw, (at_idle rfl).mpr ⟨hinput, some p, hdecoding.idle⟩⟩
    next => cases hstep

/-! ### The first picture -/

theorem allocBufs_rest (bufSize : Int) (allocs : List Bool) (s : State) :
    (allocBufs bufSize allocs s).rest = s.rest ∧
      (allocBufs bufSize allocs s).handed = s.handed := by
  induction allocs generalizing s with
  | nil => exact ⟨rfl, rfl⟩
  | cons alloc allocs ih =>
    obtain ⟨hrest, hhanded⟩ := allocBuf_rest s bufSize alloc
    simp only [allocBufs]
    split
    · obtain ⟨h1, h2⟩ := ih (allocBuf s bufSize alloc).2
      exact ⟨h1.trans hrest, h2.trans hhanded⟩
    · exact ⟨hrest, hhanded⟩

/-- `init_pic_list` makes no picture that can be found. -/
theorem initPics_unknown (bufSize : Int) (l : List Pic) (records : Nat) (s : State)
    (h : ∀ q, (s.mPIC q).known = false) :
    (∀ q, ((initPics bufSize l records s).mPIC q).known = false) ∧
      (initPics bufSize l records s).rest = s.rest ∧
      (initPics bufSize l records s).handed = s.handed := by
  induction l generalizing records s with
  | nil => exact ⟨h, rfl, rfl⟩
  | cons p ps ih =>
    cases records with
    | zero => exact ⟨h, rfl, rfl⟩
    | succ records =>
      rw [initPics]
      dsimp only
      generalize hx : ({ picInit with
        valid := true, bufIndex := none, mvBufIndex := none, width := s.picW, height := s.picH
        poc := INVALID_POC } : Picture) = x
      have hset : ∀ (u : State) (y : Picture), (∀ q, q ≠ p → u.mPIC q = s.mPIC q) →
          y.known = false → ∀ q, ((u.setPic p y).mPIC q).known = false := fun u y hu hy q => by
        by_cases hq : q = p
        · rw [hq, setPic_self]
          exact hy
        · rw [setPic_other u y hq, hu q hq]
          exact h q
      have hconfig := configPic_rest (s.setPic p x) p bufSize
      rcases configPic_spec (s.setPic p x) p bufSize with hfail | ⟨t, hok, -, hother, ⟨i, hi⟩, -⟩
      · rw [hfail]
        dsimp only
        rw [if_neg Bool.false_ne_true]
        refine ⟨hset (s.setPic p x) _ (fun q hq => setPic_other s x hq) ?_, rfl, rfl⟩
        rw [setPic_self]
        exact Bool.and_eq_false_imp.mpr fun hlive => by simp [Picture.live] at hlive
      · rw [hok] at hconfig ⊢
        dsimp only at hconfig ⊢
        rw [if_pos rfl]
        obtain ⟨h1, h2, h3⟩ := ih records t fun q => by
          by_cases hq : q = p
          · rw [hq, hi]
            simp [Picture.known]
          · rw [hother q hq, setPic_other s x hq]
            exact h q
        exact ⟨h1, h2.trans hconfig.1, h3.trans hconfig.2⟩

/-- The decoder before the stream begins. -/
def Decoder.start (width height initBufNum records : Nat) (bufSize : Int) (allocs : List Bool)
    (stream : List Sequence) : Decoder :=
  { state := initPicList width height initBufNum records bufSize allocs
    input := stream.flatMap Sequence.headers }

/-- Before the stream there is a sequence without pictures. -/
def emptySequence (width height : Nat) : Sequence := ⟨width, height, 1, []⟩

theorem start_playing (c : Config) (width height initBufNum records : Nat) (bufSize : Int)
    (allocs : List Bool) {stream : List Sequence} (hstream : ∀ q ∈ stream, q.Conforms) :
    Playing c (emptySequence width height :: stream)
      (Decoder.start width height initBufNum records bufSize allocs stream) := by
  have hpics := (allocBufs_frame bufSize (allocs.take initBufNum)
    { picW := width, picH := height }).1
  obtain ⟨hrest, hhanded⟩ := allocBufs_rest bufSize (allocs.take initBufNum)
    { picW := width, picH := height }
  obtain ⟨hunknown, hrest', hhanded'⟩ := initPics_unknown bufSize ((List.finRange _).take initBufNum)
    records _ fun q => by
      rw [hpics]
      rfl
  have hall := hrest'.trans hrest
  have hkeys : (initPicList width height initBufNum records bufSize allocs).waitKeys = [] := by
    apply List.eq_nil_iff_forall_not_mem.mpr
    intro k hk
    obtain ⟨p, hp, -⟩ := mem_waitKeys.mp hk
    exact Bool.false_ne_true ((hunknown p).symm.trans (known_of_waiting hp))
  refine ⟨fun w hw => absurd hw List.not_mem_nil,
    ⟨emptySequence width height, 0, [], [], stream, [], []⟩, ?_, ?_⟩
  · exact ⟨⟨[], rfl, List.Forall₂.nil⟩, rfl, Nat.one_pos, List.nodup_nil, List.not_mem_nil,
      fun pre y post hno => by simp [emptySequence] at hno, hstream⟩
  · refine (at_idle rfl).mpr ⟨rfl, none, ⟨hhanded'.trans hhanded, ?_, fun q hq => ?_, fun q hq => ?_,
      (congrArg State.decodeIdx hall :), (congrArg State.firstPicFlag hall :)⟩,
      ⟨(congrArg State.picW hall :), (congrArg State.picH hall :),
        (congrArg State.resChange hall :)⟩, fun p hp => absurd hp (Option.some_ne_none p).symm,
      fun _ => (congrArg State.currPOC hall :), ?_⟩
    · show Bumped Prod.snd [] (initPicList width height initBufNum records bufSize allocs).waitKeys
        [] []
      rw [hkeys]
      exact bumped_nil []
    · exact absurd ((hunknown q).symm.trans (known_of_waiting hq)) Bool.false_ne_true
    · exact absurd ((hunknown q).symm.trans hq) Bool.false_ne_true
    · exact ((congrArg State.decodedPoc hall :) : _ = INVALID_POC).trans
        (congrArg State.currPOC hall : _ = INVALID_POC).symm

/-! ### The end of the stream -/

theorem numbered_last {stream : List Sequence} {keys : List (List Key)}
    (h : numbered 0 stream = keys ++ numbered P.first (P.seq :: P.future)) (hfuture : P.future = [])
    (hseq : P.seq.pocs = P.played) :
    numbered 0 stream = keys ++ [keysFrom P.first P.played] := by
  rw [h, hfuture, numbered, numbered, hseq]

/-- The final flush shows the rest of the last sequence. -/
theorem Idle.flush {stream : List Sequence} {cur : Option Pic} (hc : c.Plain) (h : Idle s P cur)
    (hw : P.Within stream) (hinput : P.headers P.todo = []) :
    ∃ shown, (flushOutput c s (getPicByPOC s s.currPOC)).handed = shown.flatten ∧
      List.Forall₂ InOrder (numbered 0 stream) shown := by
  obtain ⟨htodo, hrest⟩ := List.append_eq_nil_iff.mp hinput
  have htodo : P.todo = [] := List.map_eq_nil_iff.mp htodo
  have hfuture : P.future = [] := by
    apply List.eq_nil_iff_forall_not_mem.mpr
    intro q hq
    have hnone := List.flatMap_eq_nil_iff.mp hrest q hq
    obtain ⟨poc, pocs, hpocs⟩ := List.exists_cons_of_ne_nil (hw.future q hq).starts
    rw [Sequence.headers, hpocs] at hnone
    cases hnone
  have hbumped := h.bumped
  rw [htodo] at hbumped
  obtain ⟨-, out', hshows⟩ := flushOutput_shows hc (orderly_flush hw htodo) h.firstPicFlag h.plain
    (fun p hp => (h.current p hp).toUnmarked) hbumped h.shown
  have hnone : (flushOutput c s cur).waitKeys = [] :=
    List.eq_nil_of_length_eq_zero (Nat.le_zero.mp hshows.limit)
  have hout := hshows.bumped
  rw [hnone] at hout
  obtain ⟨keys, hkeys, houts⟩ := hw.past
  refine ⟨P.outs ++ [out'], ?_, ?_⟩
  · rw [h.found, hshows.handed]
    simp
  · rw [numbered_last hkeys hfuture (by rw [hw.split, htodo, List.append_nil])]
    exact List.rel_append houts
      (List.Forall₂.cons ⟨by simpa using hout.perm, hout.sorted⟩ List.Forall₂.nil)

/-- Every run of the decoder on a stream of conforming sequences leaves no more pictures waiting
after `hevc_pre_pic` than the reorder depth. When the stream is over, the last flush has handed every
picture to the display once, one sequence after the other, each in the order of the POC. -/
theorem pictures_in_order (hc : c.Plain) (width height initBufNum records : Nat) (bufSize : Int)
    (allocs : List Bool) (stream : List Sequence) (hstream : ∀ q ∈ stream, q.Conforms)
    (ops : List Op) (d : Decoder)
    (hr : run (play c) (Decoder.start width height initBufNum records bufSize allocs stream) ops =
      some d) :
    (∀ w ∈ d.waits, w.1 ≤ w.2) ∧ (d.phase = .idle → d.input = [] →
      ∃ shown, (flushOutput c d.state (getPicByPOC d.state d.state.currPOC)).handed =
          shown.flatten ∧ List.Forall₂ InOrder (numbered 0 stream) shown) := by
  have hstart := start_playing c width height initBufNum records bufSize allocs hstream
  obtain ⟨hwaits, P, hw, hat⟩ := run_invariant (fun _ _ _ h hstep => play_playing hc h hstep)
    hstart hr
  refine ⟨hwaits, fun hphase hinput => ?_⟩
  obtain ⟨hheaders, cur, hidle⟩ := (at_idle hphase).mp hat
  obtain ⟨shown, hhanded, hall⟩ := hidle.flush hc hw (hheaders.symm.trans hinput)
  rw [numbered, emptySequence, keysFrom] at hall
  cases hall with
  | cons hfirst hrest =>
    refine ⟨_, ?_, hrest⟩
    rw [hhanded, List.flatten_cons, hfirst.1.eq_nil, List.nil_append]

end Runs

/-- Two sequences, the first with a picture that is shown before the one decoded before it. -/
def shortStream : List Sequence := [⟨64, 64, 1, [0, 2, 1]⟩, ⟨64, 64, 1, [0, 1]⟩]

theorem shortStream_conforms : ∀ q ∈ shortStream, q.Conforms := by
  intro q hq
  rcases List.mem_cons.mp hq with rfl | hq
  · exact ⟨List.cons_ne_nil _ _, by decide, by decide, by decide, reorders_of_take (by decide)⟩
  · rw [List.mem_singleton.mp hq]
    exact ⟨List.cons_ne_nil _ _, by decide, by decide, by decide, reorders_of_take (by decide)⟩

/-- The second picture is taken at the second attempt. -/
def shortRun : List Op :=
  [.header false 4 0 noRefs, .newPic {}, .slice 4 0 2, .decoded,
    .header false 4 0 noRefs, .newPic { mmu := false }, .again 4 0 noRefs, .newPic {}, .decoded,
    .header false 4 0 noRefs, .newPic {}, .putBack firstSlot 0 false, .decoded,
    .header false 4 0 noRefs, .newPic {}, .decoded,
    .header false 4 0 noRefs, .newPic {}, .decoded]

theorem pictures_in_order_shortRun :
    ∃ d, run (play { mInsFlag := true })
        (Decoder.start 64 64 4 4 1 [true, true, true, true] shortStream) shortRun = some d ∧
      d.waits.length = 6 ∧ (∀ w ∈ d.waits, w.1 ≤ w.2) ∧
      ∃ shown, (flushOutput { mInsFlag := true } d.state
          (getPicByPOC d.state d.state.currPOC)).handed = shown.flatten ∧
        List.Forall₂ InOrder (numbered 0 shortStream) shown := by
  have hread : ((run (play { mInsFlag := true })
      (Decoder.start 64 64 4 4 1 [true, true, true, true] shortStream) shortRun).map fun d =>
      (d.waits.length, d.phase, d.input.isEmpty)) = some (6, .idle, true) := by decide +kernel
  obtain ⟨d, hrun, hend⟩ := Option.map_eq_some_iff.mp hread
  simp only [Prod.mk.injEq, List.isEmpty_iff] at hend
  have hall := pictures_in_order (c := { mInsFlag := true }) ⟨rfl, rfl, rfl, rfl, rfl⟩ 64 64 4 4 1
    [true, true, true, true] shortStream shortStream_conforms shortRun d hrun
  exact ⟨d, hrun, hend.1, hall.1, hall.2 hend.2.1 hend.2.2⟩

end MediaModules.Hevc.Pictures
