import Mathlib.Tactic.Common
import MediaModules.Demux.Matching

/-!
# Reassembly of sections

The section buffer is followed over a whole stream of packets. A conforming packetisation
is a derivation of `Packetised`; the state of the buffer between two packets is
`Assembling`, and `pidFilterRun_packetised` says which sections are completed.
-/
namespace MediaModules.Demux

open MediaModules.Lib.Buffer

/-! ## Sections and packetisations -/

/-- A PSI section with the length its header gives. -/
structure PsiSection where
  bytes : List UInt8
  length_eq : bytes.length = secLen bytes
  table_id : bytes.getD 0 0 ≠ 0xff

theorem PsiSection.length_ge (s : PsiSection) : 3 ≤ s.bytes.length :=
  s.length_eq ▸ secLen_ge s.bytes

/-- The bytes of the sections, one behind the other. -/
def sectionBytes (secs : List PsiSection) : List UInt8 := secs.flatMap PsiSection.bytes

def stuffing (k : Nat) : List UInt8 := List.replicate k 0xff

@[simp] theorem length_stuffing (k : Nat) : (stuffing k).length = k := List.length_replicate

/-- The packets carry the bytes `cur`, which end the section in progress, and then the
sections `secs`. -/
inductive Packetised : List UInt8 → List PsiSection → List Tspacket → Prop
  | done : Packetised [] [] []
  /-- no section starts in the packet -/
  | cont {c cur : List UInt8} {secs : List PsiSection} {pkt : Tspacket} {pkts : List Tspacket}
      {k : Nat} : pkt.scramble = 0 → pkt.payloadStart = 0 →
      pkt.payload = some (c ++ stuffing k) → (c ++ stuffing k).length ≤ 184 →
      (k ≠ 0 → cur = []) → Packetised cur secs pkts →
      Packetised (c ++ cur) secs (pkt :: pkts)
  /-- `whole` and the section `s` start in the packet, and `rest` of `s` is still to come -/
  | start {cur a rest : List UInt8} {whole secs : List PsiSection} {s : PsiSection}
      {pkt : Tspacket} {pkts : List Tspacket} {k : Nat} : pkt.scramble = 0 →
      pkt.payloadStart ≠ 0 →
      pkt.payload = some (UInt8.ofNat cur.length ::
        (cur ++ (sectionBytes whole ++ (a ++ stuffing k)))) →
      1 + (cur ++ (sectionBytes whole ++ (a ++ stuffing k))).length ≤ 184 →
      a ≠ [] → s.bytes = a ++ rest → (k ≠ 0 → rest = []) → Packetised rest secs pkts →
      Packetised cur (whole ++ s :: secs) (pkt :: pkts)

/-- Every list of sections has a packetisation: each section starts a packet of its own. -/
theorem packetised_exists (pid : UInt16) (secs : List PsiSection) :
    ∃ pkts, Packetised [] secs pkts ∧ ∀ pkt ∈ pkts, pkt.pid = pid := by
  let packet : UInt8 → List UInt8 → Tspacket := fun start payload =>
    ⟨pid, start, 0, 0, 0, 0, [], none, some payload⟩
  -- the rest of a section goes into packets of 184 bytes
  have hrest : ∀ (n : Nat) {cur : List UInt8} {secs : List PsiSection} {pkts : List Tspacket},
      cur.length ≤ n → Packetised [] secs pkts → (∀ pkt ∈ pkts, pkt.pid = pid) →
      ∃ pkts', Packetised cur secs pkts' ∧ ∀ pkt ∈ pkts', pkt.pid = pid := by
    intro n
    induction n with
    | zero =>
      intro cur secs pkts hn hp hpid
      obtain rfl := List.length_eq_zero_iff.mp (Nat.le_zero.mp hn)
      exact ⟨pkts, hp, hpid⟩
    | succ n ih =>
      intro cur secs pkts hn hp hpid
      have hn' : (cur.drop 184).length ≤ n := by
        rw [List.length_drop]
        omega
      obtain ⟨pkts', h1, h2⟩ := ih hn' hp hpid
      refine ⟨packet 0 (cur.take 184) :: pkts', ?_, List.forall_mem_cons.mpr ⟨rfl, h2⟩⟩
      have hcont : Packetised (cur.take 184 ++ cur.drop 184) secs
          (packet 0 (cur.take 184) :: pkts') :=
        .cont (k := 0) rfl rfl (by simp [packet, stuffing]) (by simp [stuffing])
          (fun h => absurd rfl h) h1
      rwa [List.take_append_drop] at hcont
  induction secs with
  | nil => exact ⟨[], .done, fun _ h => absurd h List.not_mem_nil⟩
  | cons s secs ih =>
    obtain ⟨pkts, h1, h2⟩ := ih
    obtain ⟨pkts', h3, h4⟩ := hrest (s.bytes.drop 183).length (Nat.le_refl _) h1 h2
    refine ⟨packet 1 (0 :: s.bytes.take 183) :: pkts', ?_, List.forall_mem_cons.mpr ⟨rfl, h4⟩⟩
    have hge := s.length_ge
    refine @Packetised.start [] (s.bytes.take 183) (s.bytes.drop 183) [] secs s _ _ 0 rfl
      (by decide : (1 : UInt8) ≠ 0) ?_ ?_ ?_ (List.take_append_drop 183 s.bytes).symm
      (fun h => absurd rfl h) h3
    · simp [packet, sectionBytes, stuffing]
    · simp only [sectionBytes, stuffing, List.flatMap_nil, List.nil_append, List.replicate_zero,
        List.append_nil, List.length_take]
      omega
    · rw [← List.length_pos_iff, List.length_take]
      omega

/-- A packet given to a PID filter, and the filters linked in it at that time. -/
structure PidCall where
  tsFilters : List TsFilter
  secFilters : List SecFilter
  pkt : Tspacket

/-- `pid_filter_data` on one packet after the other. The section buffer is allocated at most
once, as `heap`. -/
def pidFilterRun (heap : Block UInt8 secDataSize) :
    SecState → List PidCall → Option (List Output × SecState)
  | st, [] => some ([], st)
  | st, c :: cs => do
    let r ← pidFilterData heap c.tsFilters c.secFilters st c.pkt
    let q ← pidFilterRun heap r.2 cs
    return (r.1 :: q.1, q.2)

/-- `sec_data` and `sec_recv` as `pid_filter_get` sets them. -/
def secStateInit : SecState := ⟨none, 0⟩

/-! ## The buffer -/

/-- The buffer `g` after the bytes `s` were written to its front. -/
def overlay (s g : List UInt8) : List UInt8 := s ++ g.drop s.length

/-- The completions of `secs` in a buffer that held `g`. -/
def deliverAll (fs : List SecFilter) : List UInt8 → List PsiSection → List Completion
  | _, [] => []
  | g, s :: ss =>
    let sec := overlay s.bytes g
    ⟨s.bytes, secDeliver sec s.bytes.length false fs⟩ :: deliverAll fs sec ss

/-- The buffer once all of `secs` were completed in it. -/
def overlayAll (g : List UInt8) (secs : List PsiSection) : List UInt8 :=
  secs.foldl (fun g s => overlay s.bytes g) g

theorem deliverAll_append (fs : List SecFilter) (g : List UInt8) (ss ss' : List PsiSection) :
    deliverAll fs g (ss ++ ss') = deliverAll fs g ss ++ deliverAll fs (overlayAll g ss) ss' := by
  induction ss generalizing g with
  | nil => rfl
  | cons s ss ih =>
    simp only [List.cons_append, deliverAll, ih]
    rfl

theorem overlayAll_append (g : List UInt8) (ss ss' : List PsiSection) :
    overlayAll g (ss ++ ss') = overlayAll (overlayAll g ss) ss' := List.foldl_append

/-- The first bytes of the buffer are `acc`; behind them, and behind the header, it is `g`. -/
structure Holds (sec : Block UInt8 secDataSize) (g acc : List UInt8) : Prop where
  front : sec.cells.take acc.length = acc
  behind : ∀ k, 3 ≤ k → acc.length ≤ k → sec.cells.drop k = g.drop k

namespace Holds

variable {sec sec' : Block UInt8 secDataSize} {g acc : List UInt8}

theorem wrote (h : Holds sec g acc) {p : List UInt8} (hw : sec.Wrote acc.length p sec') :
    Holds sec' g (acc ++ p) := by
  constructor
  · rw [List.length_append, hw.front, h.front]
  · intro k h3 hk
    rw [List.length_append] at hk
    rw [hw.behind k hk, h.behind k h3 (by omega)]

theorem forget (h : Holds sec g acc) (hacc : acc.length ≤ 3) : Holds sec g [] :=
  ⟨rfl, fun k h3 _ => h.behind k h3 (by omega)⟩

/-- A complete section lies over what was there before. -/
theorem cells_eq (h : Holds sec g acc) (h3 : 3 ≤ acc.length) : sec.cells = overlay acc g := by
  rw [← List.take_append_drop acc.length sec.cells, h.front, h.behind _ h3 (Nat.le_refl _)]
  rfl

theorem take_three (h : Holds sec g acc) {rest : List UInt8} (h3 : 3 ≤ acc.length) :
    sec.cells.take 3 = (acc ++ rest).take 3 := by
  have ht := congrArg (List.take 3) h.front
  rw [List.take_take, Nat.min_eq_left h3] at ht
  rw [ht, List.take_append_of_le_length h3]

variable {s : PsiSection} {rest q : List UInt8}

/-- With three bytes of a section, the buffer has its header. -/
theorem header (h : Holds sec g acc) (hs : acc ++ rest = s.bytes ++ q) (h3 : 3 ≤ acc.length) :
    sec.cells.getD 0 0 ≠ 0xff ∧ secLen sec.cells = s.bytes.length := by
  have ht : sec.cells.take 3 = s.bytes.take 3 := by
    rw [h.take_three h3, hs, List.take_append_of_le_length s.length_ge]
  refine ⟨?_, (secLen_congr ht).trans s.length_eq.symm⟩
  rw [getD_of_take_eq ht (by decide : 0 < 3)]
  exact s.table_id

theorem secOk (h : Holds sec g acc) (hs : s.bytes = acc ++ rest) (hrest : rest ≠ []) :
    SecOk sec.cells acc.length := by
  by_cases h3 : acc.length < 3
  · exact Or.inl h3
  · have hpre : acc ++ rest = s.bytes ++ [] := by rw [List.append_nil, hs]
    obtain ⟨h1, h2⟩ := h.header hpre (by omega)
    have hpos := List.length_pos_iff.mpr hrest
    refine Or.inr (Or.inr ⟨by omega, h1, ?_⟩)
    rw [h2, hs, List.length_append]
    omega

end Holds

/-! ## One call of `sec_data` on bytes of a section -/

section

variable (fs : List SecFilter) {sec : Block UInt8 secDataSize} {g acc : List UInt8}
  {s : PsiSection}

/-- A write of some of the bytes that follow `acc`: what the header says is then known. -/
theorem Holds.wrote_header {p q : List UInt8} {sec' : Block UInt8 secDataSize} {n : Nat}
    (h : Holds sec g acc) (hs : acc ++ p = s.bytes ++ q) (hn : n ≤ p.length)
    (hw : sec.Wrote acc.length (p.take n) sec') (h3 : 3 ≤ acc.length + n) :
    sec'.cells.getD 0 0 ≠ 0xff ∧ secLen sec'.cells = s.bytes.length := by
  have hpre : acc ++ p.take n ++ p.drop n = s.bytes ++ q := by
    rw [List.append_assoc, List.take_append_drop, hs]
  apply (h.wrote hw).header hpre
  rw [List.length_append, List.length_take]
  omega

/-- Bytes that leave the section incomplete are appended. -/
theorem secData_partial {p rest : List UInt8} (h : Holds sec g acc)
    (hs : s.bytes = acc ++ (p ++ rest)) (hrest : rest ≠ []) :
    ∃ sec', secData fs sec acc.length p =
      some ⟨sec', (acc ++ p).length, p.length, []⟩ ∧ Holds sec' g (acc ++ p) := by
  have hpos := List.length_pos_iff.mpr hrest
  have hlen : s.bytes.length = acc.length + (p.length + rest.length) := by
    rw [hs, List.length_append, List.length_append]
  have hpre : acc ++ (p ++ rest) = s.bytes ++ [] := by rw [List.append_nil, hs]
  have htake : ∀ n, n ≤ p.length → (p ++ rest).take n = p.take n :=
    fun n hn => List.take_append_of_le_length hn
  obtain ⟨r, hr, ho⟩ := secData_outcome fs
    (h.secOk hs (List.append_ne_nil_of_right_ne_nil p hrest)) p
  rw [hr, List.length_append]
  cases ho with
  | header _ hw | body hw _ _ _ => exact ⟨_, rfl, h.wrote hw⟩
  | stuffing hn h3 hw hff =>
    rw [← htake _ hn] at hw
    exact absurd hff (h.wrote_header hpre (by rw [List.length_append]; omega) hw (by omega)).1
  | @done sec' n hn hw hff hend =>
    have hge := secLen_ge sec'.cells
    rw [← htake _ hn] at hw
    have h2 := (h.wrote_header hpre (by rw [List.length_append]; omega) hw (by omega)).2
    omega

/-- The last bytes of a section complete it; what follows them is left. -/
theorem secData_complete {p q : List UInt8} (h : Holds sec g acc) (hs : s.bytes = acc ++ p)
    (hp : p ≠ []) :
    ∃ sec', secData fs sec acc.length (p ++ q) = some ⟨sec', 0, p.length,
        [⟨s.bytes, secDeliver (overlay s.bytes g) s.bytes.length false fs⟩]⟩ ∧
      sec'.cells = overlay s.bytes g := by
  have hlen : s.bytes.length = acc.length + p.length := by rw [hs, List.length_append]
  have hge := s.length_ge
  have hpre : acc ++ (p ++ q) = s.bytes ++ q := by rw [hs, List.append_assoc]
  have hpq : (p ++ q).length = p.length + q.length := List.length_append
  obtain ⟨r, hr, ho⟩ := secData_outcome fs (h.secOk hs hp) (p ++ q)
  rw [hr]
  cases ho with
  | header hshort _ => omega
  | stuffing hn h3 hw hff => exact absurd hff (h.wrote_header hpre hn hw (by omega)).1
  | body hw h3 hff hlt =>
    rw [← List.take_length (l := p ++ q)] at hw
    have h2 := (h.wrote_header hpre (Nat.le_refl _) hw h3).2
    omega
  | @done sec' n hn hw hff hend =>
    have hge' := secLen_ge sec'.cells
    have h2 := (h.wrote_header hpre hn hw (by omega)).2
    obtain rfl : n = p.length := by omega
    rw [List.take_left' rfl] at hw
    have hcells : sec'.cells = overlay s.bytes g := by
      rw [hs]
      exact (h.wrote hw).cells_eq (by rw [List.length_append]; omega)
    refine ⟨sec', ?_, hcells⟩
    have htake : (overlay s.bytes g).take s.bytes.length = s.bytes := List.take_left' rfl
    rw [complete, ← hlen, hcells, htake]

end

/-! ## The state between two packets -/

/-- Between two packets: nothing, or stuffing, is in progress; or a section `s` has begun and
the bytes `cur` of it are missing. `pend` lists the section that has begun, if any. -/
inductive Assembling (g : List UInt8) (sec : Block UInt8 secDataSize) :
    Nat → List PsiSection → List UInt8 → Prop
  | idle {recv : Nat} : recv ≤ 3 → sec.cells.take recv = stuffing recv → Holds sec g [] →
      Assembling g sec recv [] []
  | begun {acc cur : List UInt8} {s : PsiSection} : s.bytes = acc ++ cur → acc ≠ [] →
      cur ≠ [] → Holds sec g acc → Assembling g sec acc.length [s] cur

section

variable (fs : List SecFilter) {sec : Block UInt8 secDataSize} {g : List UInt8}

theorem Assembling.zero (h : Holds sec g []) : Assembling g sec 0 [] [] :=
  .idle (by decide) rfl h

theorem secLoop_nil (fuel : Nat) (recv : Nat) : secLoop fs fuel sec recv [] = some (sec, recv, []) := by
  cases fuel with
  | zero => rfl
  | succ fuel => rfl

theorem secLoop_cons {fuel recv : Nat} {p : List UInt8} {r : SecStep} (hp : p ≠ [])
    (hr : secData fs sec recv p = some r) {sec' : Block UInt8 secDataSize} {recv' : Nat}
    {cs : List Completion}
    (hl : secLoop fs fuel r.sec r.recv (p.drop r.used) = some (sec', recv', cs)) :
    secLoop fs (fuel + 1) sec recv p = some (sec', recv', r.done ++ cs) := by
  have hne : p.length ≠ 0 := fun h => hp (List.length_eq_zero_iff.mp h)
  rw [secLoop, if_neg hne, hr]
  simp only [Option.bind_some, Option.bind_eq_bind, hl]
  rfl

theorem stuffing_append (j k : Nat) : stuffing j ++ stuffing k = stuffing (j + k) :=
  List.replicate_append_replicate

theorem stuffing_head {cells : List UInt8} {n : Nat} (h : cells.take n = stuffing n)
    (hn : 0 < n) : cells.getD 0 0 = 0xff := by
  obtain ⟨m, rfl⟩ := Nat.exists_eq_succ_of_ne_zero (Nat.ne_of_gt hn)
  cases cells with
  | nil => exact absurd h (by simp [stuffing, List.replicate_succ])
  | cons b bs =>
    rw [List.take_succ_cons, stuffing, List.replicate_succ, List.cons.injEq] at h
    exact h.1

/-- Stuffing keeps the idle state. -/
theorem secLoop_stuffing {recv : Nat} (hrecv : recv ≤ 3)
    (hs : sec.cells.take recv = stuffing recv) (h : Holds sec g []) {k fuel : Nat}
    (hf : k ≤ fuel) :
    ∃ sec' recv', secLoop fs fuel sec recv (stuffing k) = some (sec', recv', []) ∧
      Assembling g sec' recv' [] [] := by
  rcases Nat.eq_zero_or_pos k with rfl | hk
  · exact ⟨sec, recv, secLoop_nil fs fuel recv, .idle hrecv hs h⟩
  obtain ⟨fuel, rfl⟩ := Nat.exists_eq_succ_of_ne_zero (by omega : fuel ≠ 0)
  have hlen := length_stuffing k
  have hne : stuffing k ≠ [] := List.length_pos_iff.mp (by omega)
  have hrl := length_stuffing recv
  have hfront : Holds sec g (stuffing recv) :=
    ⟨by rw [hrl]; exact hs, fun j h3 _ => h.behind j h3 (Nat.zero_le _)⟩
  have hok : SecOk sec.cells recv := by
    by_cases h3 : recv < 3
    · exact Or.inl h3
    · exact Or.inr (Or.inl ⟨by omega, stuffing_head hs (by omega)⟩)
  -- whatever part of the stuffing was written, the buffer now starts with that much stuffing
  have hwrote : ∀ {sec' : Block UInt8 secDataSize} {n : Nat}, n ≤ k →
      sec.Wrote recv ((stuffing k).take n) sec' →
      sec'.cells.take (recv + n) = stuffing (recv + n) ∧ Holds sec' g (stuffing (recv + n)) := by
    intro sec' n hn hw
    rw [stuffing, List.take_replicate, Nat.min_eq_left hn] at hw
    have hh := hfront.wrote (p := stuffing n) (by rw [hrl]; exact hw)
    rw [stuffing_append] at hh
    have hf := hh.front
    rw [length_stuffing] at hf
    exact ⟨hf, hh⟩
  obtain ⟨r, hr, ho⟩ := secData_outcome fs hok (stuffing k)
  suffices hst : r.done = [] ∧ r.used = k ∧ Assembling g r.sec r.recv [] [] by
    obtain ⟨h1, h2, h3⟩ := hst
    refine ⟨r.sec, r.recv, ?_, h3⟩
    have hdrop : secLoop fs fuel r.sec r.recv ((stuffing k).drop r.used) =
        some (r.sec, r.recv, []) := by
      rw [h2, List.drop_of_length_le (by omega)]
      exact secLoop_nil fs fuel r.recv
    rw [secLoop_cons fs hne hr hdrop, h1]
    rfl
  cases ho with
  | header hshort hw =>
    rw [← List.take_length (l := stuffing k), hlen] at hw
    obtain ⟨h1, h2⟩ := hwrote (Nat.le_refl k) hw
    rw [hlen] at hshort ⊢
    refine ⟨rfl, rfl, .idle (by omega : recv + k ≤ 3) h1 (h2.forget ?_)⟩
    rw [length_stuffing]
    omega
  | @stuffing sec' n hn h3 hw hff =>
    obtain ⟨h1, h2⟩ := hwrote (by omega) hw
    rw [h3] at h1 h2
    exact ⟨rfl, hlen, .idle (Nat.le_refl 3) h1 (h2.forget (Nat.le_refl 3))⟩
  | body hw h3 hff _ =>
    rw [← List.take_length (l := stuffing k), hlen] at hw
    exact absurd (stuffing_head (hwrote (Nat.le_refl k) hw).1 (by omega)) hff
  | @done sec' n hn hw hff hend =>
    have hge := secLen_ge sec'.cells
    exact absurd (stuffing_head (hwrote (by omega) hw).1 (by omega)) hff

/-- The end of a section, or a part that leaves it incomplete, followed by what `tail` does. -/
theorem secLoop_complete {acc cur tail : List UInt8} {s : PsiSection} (h : Holds sec g acc)
    (hs : s.bytes = acc ++ cur) (hcur : cur ≠ []) {fuel : Nat}
    (hf : (cur ++ tail).length ≤ fuel) (Q : Block UInt8 secDataSize → Nat → Prop)
    (cs : List Completion)
    (htail : ∀ sec' fuel', sec'.cells = overlay s.bytes g → tail.length ≤ fuel' →
      ∃ sec'' recv'', secLoop fs fuel' sec' 0 tail = some (sec'', recv'', cs) ∧ Q sec'' recv'') :
    ∃ sec'' recv'', secLoop fs fuel sec acc.length (cur ++ tail) =
      some (sec'', recv'', deliverAll fs g [s] ++ cs) ∧ Q sec'' recv'' := by
  have hpos := List.length_pos_iff.mpr hcur
  rw [List.length_append] at hf
  obtain ⟨fuel, rfl⟩ := Nat.exists_eq_succ_of_ne_zero (by omega : fuel ≠ 0)
  obtain ⟨sec', h1, h2⟩ := secData_complete fs h hs hcur (q := tail)
  obtain ⟨sec'', recv'', h3, h4⟩ := htail sec' fuel h2 (by omega)
  refine ⟨sec'', recv'', ?_, h4⟩
  apply secLoop_cons fs (List.append_ne_nil_of_left_ne_nil hcur tail) h1
  rw [List.drop_left' rfl]
  exact h3

/-- Complete sections from an empty buffer, followed by what `tail` does. -/
theorem secLoop_sections {tail : List UInt8} (Q : Block UInt8 secDataSize → Nat → Prop)
    (cs : List Completion) (secs : List PsiSection) {g : List UInt8}
    {sec : Block UInt8 secDataSize} (h : Holds sec g []) {fuel : Nat}
    (hf : (sectionBytes secs ++ tail).length ≤ fuel)
    (htail : ∀ sec' fuel', Holds sec' (overlayAll g secs) [] → tail.length ≤ fuel' →
      ∃ sec'' recv'', secLoop fs fuel' sec' 0 tail = some (sec'', recv'', cs) ∧ Q sec'' recv'') :
    ∃ sec'' recv'', secLoop fs fuel sec 0 (sectionBytes secs ++ tail) =
      some (sec'', recv'', deliverAll fs g secs ++ cs) ∧ Q sec'' recv'' := by
  induction secs generalizing g sec fuel with
  | nil => exact htail sec fuel h hf
  | cons s secs ih =>
    have hne : s.bytes ≠ [] := List.length_pos_iff.mp (by have := s.length_ge; omega)
    rw [sectionBytes, List.flatMap_cons, List.append_assoc] at hf ⊢
    obtain ⟨sec'', recv'', h1, h2⟩ := secLoop_complete fs h (s := s) rfl hne hf
      Q (deliverAll fs (overlay s.bytes g) secs ++ cs) (by
        intro sec' fuel' hc hl
        exact ih ⟨rfl, fun k _ _ => by rw [hc]⟩ hl htail)
    exact ⟨sec'', recv'', h1, h2⟩

/-- The end of a section and stuffing behind it. -/
theorem secLoop_finish {acc cur : List UInt8} {s : PsiSection} (h : Holds sec g acc)
    (hs : s.bytes = acc ++ cur) (hcur : cur ≠ []) {k fuel : Nat}
    (hf : (cur ++ stuffing k).length ≤ fuel) :
    ∃ sec' recv', secLoop fs fuel sec acc.length (cur ++ stuffing k) =
        some (sec', recv', deliverAll fs g [s]) ∧
      Assembling (overlayAll g [s]) sec' recv' [] [] := by
  obtain ⟨sec', recv', h1, h2⟩ := secLoop_complete fs h hs hcur hf
    (fun sec' recv' => Assembling (overlayAll g [s]) sec' recv' [] []) [] (by
      intro sec' fuel' hc hl
      have hh : Holds sec' (overlayAll g [s]) [] := ⟨rfl, fun j _ _ => by rw [hc]; rfl⟩
      exact secLoop_stuffing fs (by decide) rfl hh (by rwa [length_stuffing] at hl))
  exact ⟨sec', recv', h1, h2⟩

theorem secLoop_partial {acc c cur : List UInt8} {s : PsiSection} (h : Holds sec g acc)
    (hs : s.bytes = acc ++ (c ++ cur)) (hcur : cur ≠ []) (hacc : acc ++ c ≠ []) {fuel : Nat}
    (hf : c.length ≤ fuel) :
    ∃ sec' recv', secLoop fs fuel sec acc.length c = some (sec', recv', []) ∧
      Assembling g sec' recv' [s] cur := by
  have hs' : s.bytes = acc ++ c ++ cur := by rw [hs, List.append_assoc]
  by_cases hc : c = []
  · subst hc
    rw [List.append_nil] at hs' hacc
    exact ⟨sec, acc.length, secLoop_nil fs fuel _, .begun hs' hacc hcur h⟩
  · have hpos := List.length_pos_iff.mpr hc
    obtain ⟨fuel, rfl⟩ := Nat.exists_eq_succ_of_ne_zero (by omega : fuel ≠ 0)
    obtain ⟨sec', h1, h2⟩ := secData_partial fs h hs hcur
    refine ⟨sec', (acc ++ c).length, ?_, .begun hs' hacc hcur h2⟩
    apply secLoop_cons fs hc h1
    rw [List.drop_length]
    exact secLoop_nil fs fuel _

/-- A packet in which no section starts. -/
theorem secLoop_cont {recv : Nat} {pend : List PsiSection} {c cur : List UInt8} {k fuel : Nat}
    (h : Assembling g sec recv pend (c ++ cur)) (hk : k ≠ 0 → cur = [])
    (hf : (c ++ stuffing k).length ≤ fuel) :
    ∃ sec' recv' ss pend', secLoop fs fuel sec recv (c ++ stuffing k) =
        some (sec', recv', deliverAll fs g ss) ∧
      Assembling (overlayAll g ss) sec' recv' pend' cur ∧ ss ++ pend' = pend := by
  generalize hcc : c ++ cur = need at h
  cases h with
  | idle hrecv hst hh =>
    obtain ⟨rfl, rfl⟩ := List.append_eq_nil_iff.mp hcc
    rw [List.nil_append, length_stuffing] at hf
    obtain ⟨sec', recv', h1, h2⟩ := secLoop_stuffing fs hrecv hst hh hf
    exact ⟨sec', recv', [], [], h1, h2, rfl⟩
  | @begun acc need s hs hacc hneed hh =>
    subst hcc
    by_cases hcur : cur = []
    · subst hcur
      rw [List.append_nil] at hs hneed
      obtain ⟨sec', recv', h1, h2⟩ := secLoop_finish fs hh hs hneed hf
      exact ⟨sec', recv', [s], [], h1, h2, rfl⟩
    · obtain rfl : k = 0 := by
        by_contra h0
        exact hcur (hk h0)
      rw [stuffing, List.replicate_zero, List.append_nil] at hf ⊢
      obtain ⟨sec', recv', h1, h2⟩ := secLoop_partial fs hh hs hcur
        (List.append_ne_nil_of_left_ne_nil hacc c) hf
      exact ⟨sec', recv', [], [s], h1, h2, rfl⟩

/-- The tail of a packet: the first part `a` of a section, or all of it and stuffing. -/
theorem secLoop_last {a rest : List UInt8} {s : PsiSection} (ha : a ≠ [])
    (hs : s.bytes = a ++ rest) {k : Nat} (hk : k ≠ 0 → rest = []) :
    ∃ ss pend, ss ++ pend = [s] ∧ ∀ (g : List UInt8) (sec : Block UInt8 secDataSize) (fuel : Nat),
      Holds sec g [] → (a ++ stuffing k).length ≤ fuel →
      ∃ sec' recv', secLoop fs fuel sec 0 (a ++ stuffing k) =
          some (sec', recv', deliverAll fs g ss) ∧
        Assembling (overlayAll g ss) sec' recv' pend rest := by
  by_cases hrest : rest = []
  · subst hrest
    rw [List.append_nil] at hs
    exact ⟨[s], [], rfl, fun g sec fuel h hf => secLoop_finish fs h hs ha hf⟩
  · obtain rfl : k = 0 := by
      by_contra h0
      exact hrest (hk h0)
    rw [stuffing, List.replicate_zero, List.append_nil]
    exact ⟨[], [s], rfl, fun g sec fuel h hf => secLoop_partial fs h hs hrest ha hf⟩

/-- The bytes of a packet from the first section start on. -/
theorem secLoop_starts (whole : List PsiSection) {a rest : List UInt8} {s : PsiSection}
    (h : Holds sec g []) (ha : a ≠ []) (hs : s.bytes = a ++ rest) {k fuel : Nat}
    (hk : k ≠ 0 → rest = []) (hf : (sectionBytes whole ++ (a ++ stuffing k)).length ≤ fuel) :
    ∃ sec' recv' ss pend, secLoop fs fuel sec 0 (sectionBytes whole ++ (a ++ stuffing k)) =
        some (sec', recv', deliverAll fs g ss) ∧
      Assembling (overlayAll g ss) sec' recv' pend rest ∧ ss ++ pend = whole ++ [s] := by
  obtain ⟨ss, pend, hss, hlast⟩ := secLoop_last fs ha hs hk
  obtain ⟨sec', recv', h1, h2⟩ := secLoop_sections fs
    (fun sec' recv' => Assembling (overlayAll (overlayAll g whole) ss) sec' recv' pend rest)
    (deliverAll fs (overlayAll g whole) ss) whole h hf (hlast (overlayAll g whole))
  refine ⟨sec', recv', whole ++ ss, pend, ?_, ?_, ?_⟩
  · rw [deliverAll_append]
    exact h1
  · rw [overlayAll_append]
    exact h2
  · rw [List.append_assoc, hss]

/-- A packet in which the sections `whole` and the section `s` start. -/
theorem secPayload_start {recv : Nat} {pend : List PsiSection} {cur : List UInt8}
    (h : Assembling g sec recv pend cur) (whole : List PsiSection) {a rest : List UInt8}
    {s : PsiSection} {k : Nat} {start : UInt8} (hstart : start ≠ 0) (hlen : cur.length < 256)
    (ha : a ≠ []) (hs : s.bytes = a ++ rest) (hk : k ≠ 0 → rest = []) :
    ∃ sec' recv' ss pend', secPayload fs sec recv start
        (UInt8.ofNat cur.length :: (cur ++ (sectionBytes whole ++ (a ++ stuffing k)))) =
        some (sec', recv', deliverAll fs g ss) ∧
      Assembling (overlayAll g ss) sec' recv' pend' rest ∧
      ss ++ pend' = pend ++ (whole ++ [s]) := by
  have hptr : (UInt8.ofNat cur.length).toNat = cur.length := by
    rw [UInt8.toNat_ofNat']
    exact Nat.mod_eq_of_lt hlen
  simp only [secPayload, if_pos hstart, hptr]
  cases h with
  | idle hrecv hst hh =>
    obtain ⟨sec', recv', ss, pend', h1, h2, h3⟩ :=
      secLoop_starts fs whole hh ha hs hk (Nat.le_refl _)
    exact ⟨sec', recv', ss, pend', h1, h2, h3⟩
  | @begun acc cur s' hs' hacc hcur hh =>
    have hpos := List.length_pos_iff.mpr hcur
    have hapos := List.length_pos_iff.mpr hacc
    obtain ⟨sec₁, hd, hc⟩ := secData_complete fs hh hs' hcur (q := [])
    have hfuel : ∀ p : List UInt8, p.length ≤ (cur ++ p).length := fun p => by
      rw [List.length_append]
      omega
    have hh₁ : Holds sec₁ (overlayAll g [s']) [] := ⟨rfl, fun j _ _ => by rw [hc]; rfl⟩
    obtain ⟨sec', recv', ss, pend', h1, h2, h3⟩ :=
      secLoop_starts fs whole hh₁ ha hs hk (hfuel (sectionBytes whole ++ (a ++ stuffing k)))
    rw [List.append_nil] at hd
    have hshort : ¬ (cur ++ (sectionBytes whole ++ (a ++ stuffing k))).length < cur.length := by
      rw [List.length_append]
      omega
    rw [if_neg (by omega), if_neg hshort, List.take_left' rfl, List.drop_left' rfl, secPointer,
      if_pos (by omega), hd]
    simp only [Option.bind_some, Option.bind_eq_bind, h1]
    refine ⟨sec', recv', s' :: ss, pend', rfl, h2, ?_⟩
    rw [List.cons_append, h3]
    rfl

end

/-! ## Whole streams -/

/-- A PID filter between two packets, its buffer allocated as `heap` when there is none. -/
def SecState.Assembling (heap : Block UInt8 secDataSize) (g : List UInt8) (st : SecState)
    (pend : List PsiSection) (cur : List UInt8) : Prop :=
  Demux.Assembling g (st.secData.getD heap) st.secRecv pend cur

theorem secStateInit_assembling (heap : Block UInt8 secDataSize) :
    secStateInit.Assembling heap heap.cells [] [] :=
  Assembling.zero ⟨rfl, fun _ _ _ => rfl⟩

section

variable {heap : Block UInt8 secDataSize} {fs : List SecFilter}

theorem pidFilterData_of_payload (hfs : fs ≠ []) (tsFilters : List TsFilter) {st : SecState}
    {pkt : Tspacket} {payload : List UInt8} (hscr : pkt.scramble = 0)
    (hp : pkt.payload = some payload) {sec' : Block UInt8 secDataSize} {recv' : Nat}
    {cs : List Completion}
    (h : secPayload fs (st.secData.getD heap) st.secRecv pkt.payloadStart payload =
      some (sec', recv', cs)) :
    pidFilterData heap tsFilters fs st pkt =
      some (⟨tsFilters.map fun f => ⟨f.ref, f.cbList⟩, cs⟩, ⟨some sec', recv'⟩) := by
  have hne : fs.length ≠ 0 := fun h0 => hfs (List.length_eq_zero_iff.mp h0)
  have hscr' : ¬ pkt.scramble ≠ 0 := fun h0 => h0 hscr
  simp only [pidFilterData, if_neg hne, hp, if_neg hscr', h, Option.bind_some,
    Option.bind_eq_bind]
  rfl

theorem pidFilterRun_cons {st st' st'' : SecState} {c : PidCall} {cs : List PidCall}
    {out : Output} {outs : List Output}
    (h : pidFilterData heap c.tsFilters c.secFilters st c.pkt = some (out, st'))
    (hs : pidFilterRun heap st' cs = some (outs, st'')) :
    pidFilterRun heap st (c :: cs) = some (out :: outs, st'') := by
  simp only [pidFilterRun, h, Option.bind_some, Option.bind_eq_bind, hs]
  rfl

/-- Every packetisation of a list of sections completes these sections, in order, each laid
over what the buffer held before. -/
theorem pidFilterRun_packetised (hfs : fs ≠ []) {cur : List UInt8} {secs : List PsiSection}
    {pkts : List Tspacket} (hp : Packetised cur secs pkts) :
    ∀ {calls : List PidCall} {g : List UInt8} {st : SecState} {pend : List PsiSection},
      calls.map PidCall.pkt = pkts → (∀ c ∈ calls, c.secFilters = fs) →
      st.Assembling heap g pend cur →
      ∃ outs st', pidFilterRun heap st calls = some (outs, st') ∧
        outs.flatMap Output.sections = deliverAll fs g (pend ++ secs) ∧
        st'.Assembling heap (overlayAll g (pend ++ secs)) [] [] := by
  induction hp with
  | done =>
    intro calls g st pend hcalls _ hst
    obtain rfl := List.map_eq_nil_iff.mp hcalls
    generalize hcur : ([] : List UInt8) = cur at hst
    unfold SecState.Assembling at hst
    generalize hr : st.secRecv = recv at hst
    cases hst with
    | idle h1 h2 h3 =>
      refine ⟨[], st, rfl, rfl, ?_⟩
      unfold SecState.Assembling
      rw [hr]
      exact .idle h1 h2 h3
    | begun _ _ hne _ => exact absurd hcur.symm hne
  | @cont c cur secs pkt pkts k hscr hstart hpay hlen hk _ ih =>
    intro calls g st pend hcalls hall hst
    obtain ⟨call, calls, rfl, rfl, hrest⟩ := List.map_eq_cons_iff.mp hcalls
    obtain rfl := hall call List.mem_cons_self
    obtain ⟨sec', recv', ss, pend', h1, h2, h3⟩ :=
      secLoop_cont call.secFilters hst hk (Nat.le_refl _)
    have hd := pidFilterData_of_payload hfs call.tsFilters hscr hpay (by rw [hstart]; exact h1)
    have hst' : SecState.Assembling heap (overlayAll g ss) ⟨some sec', recv'⟩ pend' cur := h2
    obtain ⟨outs, st', h4, h5, h6⟩ :=
      ih hrest (fun c hc => hall c (List.mem_cons_of_mem _ hc)) hst'
    refine ⟨_ :: outs, st', pidFilterRun_cons hd h4, ?_, ?_⟩
    · rw [List.flatMap_cons, h5, ← deliverAll_append, ← h3, List.append_assoc]
    · rw [← h3, List.append_assoc, overlayAll_append]
      exact h6
  | @start cur a rest whole secs s pkt pkts k hscr hstart hpay hlen ha hs hk _ ih =>
    intro calls g st pend hcalls hall hst
    obtain ⟨call, calls, rfl, rfl, hrest⟩ := List.map_eq_cons_iff.mp hcalls
    obtain rfl := hall call List.mem_cons_self
    have hcur : cur.length < 256 := by
      rw [List.length_append] at hlen
      omega
    obtain ⟨sec', recv', ss, pend', h1, h2, h3⟩ :=
      secPayload_start call.secFilters hst whole hstart hcur ha hs hk
    have hd := pidFilterData_of_payload hfs call.tsFilters hscr hpay h1
    have hst' : SecState.Assembling heap (overlayAll g ss) ⟨some sec', recv'⟩ pend' rest := h2
    obtain ⟨outs, st', h4, h5, h6⟩ :=
      ih hrest (fun c hc => hall c (List.mem_cons_of_mem _ hc)) hst'
    have happ : pend ++ (whole ++ s :: secs) = ss ++ (pend' ++ secs) := by
      rw [← List.append_assoc ss, h3]
      simp only [List.append_assoc, List.cons_append, List.nil_append]
    refine ⟨_ :: outs, st', pidFilterRun_cons hd h4, ?_, ?_⟩
    · rw [List.flatMap_cons, h5, ← deliverAll_append, happ]
    · rw [happ, overlayAll_append]
      exact h6

/-- The callbacks of a completion, each with the bytes it is given. -/
def Completion.callbacks (c : Completion) : List (CbEntry × List UInt8) :=
  c.calls.flatMap fun d => d.cbs.map fun ce => (ce, c.data)

/-- Every section callback of a run, in order. -/
def sectionCallbacks (outs : List Output) : List (CbEntry × List UInt8) :=
  (outs.flatMap Output.sections).flatMap Completion.callbacks

/-- A filter that accepts everything is run on every section. -/
theorem deliverAll_accept_all {f : SecFilter} {params : SecParams}
    (hconfig : f.config = secConfigOf params) (hmask : ∀ i, params.mask i = 0)
    (hcrc : params.crc32 = 0) (g : List UInt8) (secs : List PsiSection) :
    deliverAll [f] g secs = secs.map fun s => ⟨s.bytes, [⟨f.ref, f.cbList⟩]⟩ := by
  have hone : ∀ (sec : List UInt8) (recv : Nat),
      secDeliver sec recv false [f] = [⟨f.ref, f.cbList⟩] := by
    intro sec recv
    rw [secDeliver_single fun _ => by rw [hconfig]; exact hcrc, hconfig,
      secFilterMatch_of_mask_zero sec hmask]
    rfl
  induction secs generalizing g with
  | nil => rfl
  | cons s secs ih => rw [deliverAll, ih, hone, List.map_cons]

/-- From a new PID filter, every packetisation of a list of sections runs the callback of a
filter that accepts everything once a section, in order, on exactly the section's bytes. -/
theorem sections_delivered_once {secs : List PsiSection} {pkts : List Tspacket}
    (hp : Packetised [] secs pkts) {calls : List PidCall} (hcalls : calls.map PidCall.pkt = pkts)
    {f : SecFilter} (hfilters : ∀ c ∈ calls, c.secFilters = [f]) {params : SecParams}
    (hconfig : f.config = secConfigOf params) (hmask : ∀ i, params.mask i = 0)
    (hcrc : params.crc32 = 0) {ce : CbEntry} (hcb : f.cbList = [ce])
    (heap : Block UInt8 secDataSize) :
    ∃ outs st, pidFilterRun heap secStateInit calls = some (outs, st) ∧
      sectionCallbacks outs = secs.map fun s => (ce, s.bytes) := by
  obtain ⟨outs, st, h1, h2, -⟩ := pidFilterRun_packetised (List.cons_ne_nil f []) hp hcalls
    hfilters (secStateInit_assembling heap)
  refine ⟨outs, st, h1, ?_⟩
  rw [sectionCallbacks, h2, deliverAll_accept_all hconfig hmask hcrc, List.nil_append,
    List.flatMap_map]
  simp only [Completion.callbacks, hcb, List.flatMap_cons, List.flatMap_nil, List.append_nil,
    List.map_cons, List.map_nil]
  exact List.flatMap_pure_eq_map _ secs

end

/-! A stream of two sections; the header of the second one is split between two packets. -/

def splitParams : SecParams := ⟨0x100, 0, fun _ => 0, fun _ => 0, fun _ => 0⟩

def splitFilter : SecFilter := ⟨1, .run, some 2, secConfigOf splitParams, [⟨7, 8⟩]⟩

def splitSection : PsiSection := ⟨[0, 0, 1, 0xaa], by decide, by decide⟩

def splitSection' : PsiSection := ⟨[2, 0, 2, 1, 2], by decide, by decide⟩

def splitPacket (start : UInt8) (payload : List UInt8) : Tspacket :=
  ⟨0x100, start, 0, 0, 0, 0, [], none, some payload⟩

def splitPackets : List Tspacket :=
  [splitPacket 1 [0, 0, 0, 1, 0xaa, 2, 0], splitPacket 0 [2, 1, 2, 0xff, 0xff, 0xff]]

theorem splitPackets_packetised :
    Packetised [] [splitSection, splitSection'] splitPackets := by
  have hcont : Packetised ([2, 1, 2] ++ []) [] [splitPacket 0 [2, 1, 2, 0xff, 0xff, 0xff]] :=
    .cont (k := 3) rfl rfl rfl (by decide) (fun _ => rfl) .done
  exact @Packetised.start [] [2, 0] [2, 1, 2] [splitSection] [] splitSection' _ _ 0 rfl
    (by decide) rfl (by decide) (by decide) rfl (by decide) hcont

theorem sections_delivered_once_split :
    ∃ outs st, pidFilterRun (Block.fill _ 0xff) secStateInit
        (splitPackets.map fun pkt => ⟨[], [splitFilter], pkt⟩) = some (outs, st) ∧
      sectionCallbacks outs = [(⟨7, 8⟩, [0, 0, 1, 0xaa]), (⟨7, 8⟩, [2, 0, 2, 1, 2])] :=
  sections_delivered_once splitPackets_packetised rfl (by simp [splitPackets])
    (rfl : splitFilter.config = secConfigOf splitParams) (fun _ => rfl) rfl rfl _

end MediaModules.Demux
