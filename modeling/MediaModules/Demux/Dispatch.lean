import Mathlib.Tactic.Common
import MediaModules.Demux.FilterInvariant

/-!
# Which TS filters get a packet

`swdmx_demux_ts_packet_cb` leaves its loop at the first PID filter that takes the packet, so
a packet's own PID and the all-PID value are served together only when no TS filter hangs
off the second PID filter that takes it.
-/
namespace MediaModules.Demux

open MediaModules.Lib.Buffer MediaModules.Lib.Run

/-- The filter gets the packet exactly once. -/
def Output.Serves (out : Output) (f : TsFilter) : Prop :=
  out.ts.filter (fun d => d.filter = f.ref) = [f.delivery]

/-- The filter runs on the packet's PID or on all PIDs. -/
def Wants (pkt : Tspacket) (f : TsFilter) : Prop :=
  f.state = .run ∧ (f.config.pid = pkt.pid ∨ f.config.pid = 0x2000)

/-- Every TS filter that wants the packet gets it exactly once. -/
def AllServed (heap : Block UInt8 secDataSize) (pkt : Tspacket) (dmx : Dmx) : Prop :=
  ∃ dmx' out, swdmxDemuxTsPacketCb heap pkt dmx = some (dmx', out) ∧
    ∀ f ∈ dmx.filterList .ts, Wants pkt f → out.Serves f

/-- Behind the first PID filter that takes the packet, none that takes it has a TS filter. -/
def FirstServesAll (pkt : Tspacket) (dmx : Dmx) : Prop :=
  ∀ p ∈ (dmx.pidFilterList.filter (PidFilter.takes pkt)).tail, p.filterList .ts = []

theorem filter_ref_eq_singleton {fs : List TsFilter} (hnodup : (fs.map Filter.ref).Nodup)
    {f : TsFilter} (hf : f ∈ fs) : fs.filter (fun g => g.ref = f.ref) = [f] := by
  induction fs with
  | nil => exact absurd hf List.not_mem_nil
  | cons g fs ih =>
    obtain ⟨hg, hnodup⟩ := List.nodup_cons.mp hnodup
    rw [List.filter_cons]
    rcases List.mem_cons.mp hf with rfl | hf
    · rw [if_pos (decide_eq_true rfl)]
      have hnil : fs.filter (fun g => g.ref = f.ref) = [] := by
        refine List.filter_eq_nil_iff.mpr fun g' hg' he => hg ?_
        exact of_decide_eq_true he ▸ List.mem_map_of_mem hg'
      rw [hnil]
    · have hne : g.ref ≠ f.ref := fun he => hg (he ▸ List.mem_map_of_mem hf)
      rw [if_neg (by simpa using hne)]
      exact ih hnodup hf

section

variable {dmx : Dmx} {pkt : Tspacket}

/-- Served filters are the ones linked in the PID filter that gets the packet. -/
theorem serves_iff (h : Wf dmx) {p : PidFilter} (hp : p ∈ dmx.pidFilterList)
    {fs : List TsFilter} (hrefs : fs.map Filter.ref = p.filterList .ts)
    (hfs : ∀ f ∈ fs, f ∈ dmx.filterList .ts) {out : Output}
    (hout : out.ts = fs.map Filter.delivery) {f : TsFilter} (hf : f ∈ dmx.filterList .ts) :
    out.Serves f ↔ f.ref ∈ p.filterList .ts := by
  unfold Output.Serves
  have hmap : out.ts.filter (fun d => d.filter = f.ref) =
      (fs.filter fun g => g.ref = f.ref).map Filter.delivery := by
    rw [hout, List.filter_map]
    rfl
  rw [hmap, ← hrefs]
  constructor
  · intro he
    by_contra hno
    have hnil : fs.filter (fun g => g.ref = f.ref) = [] := by
      refine List.filter_eq_nil_iff.mpr fun g hg he => hno ?_
      exact of_decide_eq_true he ▸ List.mem_map_of_mem hg
    rw [hnil] at he
    exact absurd he (by simp)
  · intro hin
    obtain ⟨g, hg, hgr⟩ := List.mem_map.mp hin
    obtain rfl := h.filter_unique hf (hfs g hg) hgr
    rw [filter_ref_eq_singleton (hrefs ▸ h.nodup p hp .ts) hg]
    rfl

theorem takes_iff (p : PidFilter) : p.takes pkt = true ↔ p.pid = pkt.pid ∨ p.pid = 0x2000 := by
  unfold PidFilter.takes
  rw [decide_eq_true_iff, eq_comm]

/-- A filter wants the packet exactly when it is linked in a PID filter that takes it. -/
theorem wants_iff (h : Wf dmx) {f : TsFilter} (hf : f ∈ dmx.filterList .ts) :
    Wants pkt f ↔
      ∃ p ∈ dmx.pidFilterList.filter (PidFilter.takes pkt), f.ref ∈ p.filterList .ts := by
  constructor
  · rintro ⟨hrun, hpid⟩
    obtain ⟨p, hp, hptr, hpp⟩ := h.running hf hrun
    refine ⟨p, List.mem_filter.mpr ⟨hp, (takes_iff p).mpr ?_⟩, (h.pointer_linked hf hp).mp hptr⟩
    rwa [← hpp]
  · rintro ⟨p, hp, hin⟩
    obtain ⟨hp, htakes⟩ := List.mem_filter.mp hp
    obtain ⟨hrun, hptr⟩ := (h.runsOn_iff hf p.ref).mp ((h.links p hp .ts f.ref).mp hin)
    obtain ⟨q, hq, hqtr, hqp⟩ := h.running hf hrun
    obtain rfl := h.pid_unique hp hq (Option.some.inj (hqtr.symm.trans hptr))
    refine ⟨hrun, ?_⟩
    rw [hqp]
    exact (takes_iff q).mp htakes

/-- In a reachable state, every TS filter that wants a packet gets it exactly once if and only
if the first PID filter that takes the packet has all of them. -/
theorem all_served_iff (hreach : Reachable dmx) (heap : Block UInt8 secDataSize)
    (pkt : Tspacket) : AllServed heap pkt dmx ↔ FirstServesAll pkt dmx := by
  have h := hreach.wf
  obtain ⟨dmx', out, hstep, -, hout⟩ := h.tsPacketCb heap pkt
  have hserved : AllServed heap pkt dmx ↔
      ∀ f ∈ dmx.filterList .ts, Wants pkt f → out.Serves f := by
    constructor
    · rintro ⟨d, o, hs, hall⟩
      rw [hstep] at hs
      obtain ⟨-, rfl⟩ := Prod.mk.inj (Option.some.inj hs)
      exact hall
    · exact fun hall => ⟨dmx', out, hstep, hall⟩
  rw [hserved]
  rw [← List.head?_filter] at hout
  unfold FirstServesAll
  cases htakes : dmx.pidFilterList.filter (PidFilter.takes pkt) with
  | nil =>
    refine ⟨fun _ p hp => absurd hp List.not_mem_nil, fun _ f hf hw => ?_⟩
    obtain ⟨p, hp, -⟩ := (wants_iff h hf).mp hw
    rw [htakes] at hp
    exact absurd hp List.not_mem_nil
  | cons p ps =>
    rw [htakes] at hout
    obtain ⟨fs, hrefs, hfs, hout⟩ := hout
    have hmem : ∀ q ∈ p :: ps, q ∈ dmx.pidFilterList := by
      intro q hq
      rw [← htakes] at hq
      exact (List.mem_filter.mp hq).1
    have hnodup : ((p :: ps).map PidFilter.ref).Nodup := by
      rw [← htakes]
      exact h.pidRefs.sublist (List.filter_sublist.map _)
    have hp := hmem p List.mem_cons_self
    constructor
    · -- a filter behind the first PID filter wants the packet and is not linked in the first
      intro hall q hq
      apply List.eq_nil_iff_forall_not_mem.mpr
      intro r hr
      have hq' := hmem q (List.mem_cons_of_mem _ hq)
      obtain ⟨f, hf, rfl, -, hptr⟩ := (h.links q hq' .ts r).mp hr
      have hw := (wants_iff h hf).mpr ⟨q, by rw [htakes]; exact List.mem_cons_of_mem _ hq, hr⟩
      have hin := (serves_iff h hp hrefs hfs hout hf).mp (hall f hf hw)
      have hptr' := (h.pointer_linked hf hp).mpr hin
      have hne : p.ref ∉ ps.map PidFilter.ref := (List.nodup_cons.mp hnodup).1
      rw [Option.some.inj (hptr'.symm.trans hptr)] at hne
      exact hne (List.mem_map_of_mem hq)
    · intro hempty f hf hw
      apply (serves_iff h hp hrefs hfs hout hf).mpr
      obtain ⟨q, hq, hin⟩ := (wants_iff h hf).mp hw
      rw [htakes] at hq
      rcases List.mem_cons.mp hq with rfl | hq
      · exact hin
      · rw [hempty q hq] at hin
        exact absurd hin List.not_mem_nil

end

/-! A filter on one PID, enabled first, and a filter on all PIDs. -/

def wildcardOps : List Op :=
  [.alloc .ts ⟨0⟩, .setParams .ts 0 (⟨0x100⟩ : TsParams), .enable .ts 0,
    .alloc .ts ⟨0⟩, .setParams .ts 2 (⟨0x2000⟩ : TsParams), .enable .ts 2]

def wildcardPacket (pid : UInt16) : Tspacket := ⟨pid, 0, 0, 0, 0, 0, [], none, none⟩

def noHeap : Block UInt8 secDataSize := Block.fill _ 0

/-- A packet of another PID goes to the all-PID filter. -/
theorem all_served_other_pid : ∃ dmx, run step swdmxDemuxNew wildcardOps = some dmx ∧
    AllServed noHeap (wildcardPacket 0x200) dmx :=
  ⟨_, rfl, (all_served_iff ⟨wildcardOps, rfl⟩ noHeap (wildcardPacket 0x200)).mpr
    fun _ hp => absurd hp List.not_mem_nil⟩

/-- A packet of the first PID does not. -/
theorem wildcard_not_served : ∃ dmx, Reachable dmx ∧
    ¬ AllServed noHeap (wildcardPacket 0x100) dmx := by
  refine ⟨_, ⟨wildcardOps, rfl⟩, ?_⟩
  rintro ⟨dmx', out, hstep, hall⟩
  have hserves := hall ⟨2, .run, some 3, (⟨0x2000⟩ : TsParams), []⟩
    (List.mem_cons_of_mem _ List.mem_cons_self) ⟨rfl, Or.inr rfl⟩
  have hts : out.ts = [⟨0, []⟩] :=
    (Option.some.inj (congrArg (Option.map fun r => r.2.ts) hstep)).symm
  rw [Output.Serves, hts] at hserves
  exact absurd hserves (by decide)

end MediaModules.Demux
