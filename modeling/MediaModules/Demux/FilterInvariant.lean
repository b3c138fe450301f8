import Mathlib.Tactic.Common
import MediaModules.Demux.FilterMoves

/-!
# What every sequence of calls keeps

Each call of the demux is followed through the moves. The invariant holds after every call,
and no call on an existing filter runs into an assertion.
-/
namespace MediaModules.Demux

open MediaModules.Lib.Buffer MediaModules.Lib.Run

/-! ## The operations -/

theorem wf_new : Wf swdmxDemuxNew where
  pidRefs := List.nodup_nil
  pids := List.nodup_nil
  refs _ := List.nodup_nil
  freshPid _ hp := absurd hp List.not_mem_nil
  fresh _ _ hf := absurd hf List.not_mem_nil
  nodup _ hp := absurd hp List.not_mem_nil
  links _ hp := absurd hp List.not_mem_nil
  points _ _ hf := absurd hf List.not_mem_nil
  secOk _ hp := absurd hp List.not_mem_nil
  nonempty _ hp := absurd hp List.not_mem_nil

section

variable {dmx : Dmx} {k : Kind} {ref : Ref}

theorem Wf.idle (h : Wf dmx) {f : Filter k} (hf : f ∈ dmx.filterList k) (hidle : f.state ≠ .run) :
    f.pidFilter = none := by
  rcases h.points k f hf with ⟨hrun, -⟩ | ⟨-, hp⟩
  · exact absurd hrun hidle
  · exact hp

theorem Wf.running (h : Wf dmx) {f : Filter k} (hf : f ∈ dmx.filterList k)
    (hrun : f.state = .run) :
    ∃ p ∈ dmx.pidFilterList, f.pidFilter = some p.ref ∧ f.config.pid = p.pid := by
  rcases h.points k f hf with ⟨-, hp⟩ | ⟨hidle, -⟩
  · exact hp
  · exact absurd hrun hidle

/-- A call on a filter: it is defined when the filter exists, and keeps the invariant. -/
def KeepsWf (dmx : Dmx) (k : Kind) (ref : Ref) {α : Type} (res : Option (Dmx × α)) : Prop :=
  (dmx.filter? k ref = none ∧ res = none) ∨ ∃ dmx' r, res = some (dmx', r) ∧ Wf dmx'

theorem Wf.filterEnable (h : Wf dmx) : KeepsWf dmx k ref (filterEnable k ref dmx) := by
  unfold Demux.filterEnable
  cases hf : dmx.filter? k ref with
  | none => exact Or.inl ⟨hf, rfl⟩
  | some f =>
    right
    obtain ⟨hmem, rfl⟩ := filter?_some hf
    simp only [Option.bind_some, Option.bind_eq_bind]
    cases hst : f.state with
    | init | run => exact ⟨_, _, rfl, h⟩
    | set =>
      have hidle : f.state ≠ .run := by rw [hst]; decide
      exact ⟨_, _, rfl, h.join hmem hidle rfl rfl rfl rfl⟩

theorem Wf.filterDisable (h : Wf dmx) :
    (dmx.filter? k ref = none ∧ Demux.filterDisable k ref dmx = none) ∨
      ∃ dmx' r, Demux.filterDisable k ref dmx = some (dmx', r) ∧ Wf dmx' ∧
        ∀ f ∈ dmx'.filterList k, f.ref = ref → f.state ≠ .run := by
  unfold Demux.filterDisable
  cases hf : dmx.filter? k ref with
  | none => exact Or.inl ⟨rfl, rfl⟩
  | some f =>
    right
    obtain ⟨hmem, rfl⟩ := filter?_some hf
    simp only [Option.bind_some, Option.bind_eq_bind]
    by_cases hrun : f.state = .run
    · obtain ⟨p, -, hptr, -⟩ := h.running hmem hrun
      simp only [if_pos hrun, hptr, Option.bind_some]
      have hset : FilterState.set ≠ .run := by decide
      have hwf : Wf ((pidFilterRemove (dmx.unlink k f.ref) p.ref).setFilter
          { f with pidFilter := none, state := .set }) :=
        h.leave hmem hrun hptr rfl hset rfl
      refine ⟨_, _, rfl, hwf, fun g hg href => ?_⟩
      have hin : ({ f with pidFilter := none, state := .set } : Filter k) ∈
          ((pidFilterRemove (dmx.unlink k f.ref) p.ref).setFilter
            { f with pidFilter := none, state := .set }).filterList k :=
        mem_setFilter (d := pidFilterRemove (dmx.unlink k f.ref) p.ref) hmem rfl
      rw [hwf.filter_unique hin hg href]
      exact hset
    · rw [if_neg hrun]
      refine ⟨_, _, rfl, h, fun g hg href => ?_⟩
      rwa [h.filter_unique hmem hg href]

theorem Wf.filterCbList (h : Wf dmx) (change : List CbEntry → List CbEntry) :
    KeepsWf dmx k ref (filterCbList k ref change dmx) := by
  unfold Demux.filterCbList
  cases hf : dmx.filter? k ref with
  | none => exact Or.inl ⟨hf, rfl⟩
  | some f =>
    right
    obtain ⟨hmem, rfl⟩ := filter?_some hf
    exact ⟨_, _, rfl, h.store hmem rfl Iff.rfl rfl fun _ => rfl⟩

theorem pidFilterGet_setFilter {d : Dmx} (f : Filter k) (pid : UInt16) :
    pidFilterGet (d.setFilter f) pid =
      ((pidFilterGet d pid).1.setFilter f, (pidFilterGet d pid).2) := by
  unfold pidFilterGet
  rw [setFilter_pidFilterList]
  cases d.pidFilterList.find? fun f => f.pid = pid <;> rfl

theorem link_setFilter (f : Filter k) (k' : Kind) (pf r : Ref) :
    (dmx.setFilter f).link k' pf r = (dmx.link k' pf r).setFilter f := rfl

/-- A running filter moves to the PID filter of another PID. -/
theorem Wf.move (h : Wf dmx) {f f' : Filter k} (hf : f ∈ dmx.filterList k) {pf : Ref}
    (hrun : f.state = .run) (hptr : f.pidFilter = some pf) {d : Dmx}
    (hd : d = pidFilterRemove (dmx.unlink k f.ref) pf) (href : f'.ref = f.ref)
    (hrun' : f'.state = .run) (hptr' : f'.pidFilter = some (pidFilterGet d f'.config.pid).2) :
    Wf (((pidFilterGet d f'.config.pid).1.link k (pidFilterGet d f'.config.pid).2
      f.ref).setFilter f') := by
  -- in between the filter is written back as one that does not run
  let parked : Filter k := { f' with pidFilter := none, state := .set }
  have hset : parked.state ≠ .run := fun he => FilterState.noConfusion he
  have h₁ : Wf (d.setFilter parked) := hd ▸ h.leave hf hrun hptr href hset rfl
  have hmem : parked ∈ (d.setFilter parked).filterList k :=
    mem_setFilter (f := f) (by rw [hd]; exact hf) href
  have hget := pidFilterGet_setFilter (d := d) parked f'.config.pid
  have h₂ : Wf (((pidFilterGet (d.setFilter parked) f'.config.pid).1.link k
      (pidFilterGet (d.setFilter parked) f'.config.pid).2 parked.ref).setFilter f') :=
    h₁.join hmem hset rfl hrun' (by rw [hget]; exact hptr') rfl
  rw [hget, link_setFilter, setFilter_setFilter parked f' rfl] at h₂
  rw [← href]
  exact h₂

theorem filterLeave_stay {f : Filter k} {pf : Ref} {pid : UInt16} (hrun : f.state = .run)
    (hptr : f.pidFilter = some pf) (hpid : f.config.pid = pid) :
    filterLeave dmx f pid = some (dmx, f) := by
  simp only [filterLeave, if_pos hrun, hptr, Option.bind_some, Option.bind_eq_bind,
    if_neg (not_not.mpr hpid)]

theorem filterLeave_move {f : Filter k} {pf : Ref} {pid : UInt16} (hrun : f.state = .run)
    (hptr : f.pidFilter = some pf) (hpid : f.config.pid ≠ pid) :
    filterLeave dmx f pid =
      some (pidFilterRemove (dmx.unlink k f.ref) pf, { f with pidFilter := none }) := by
  simp only [filterLeave, if_pos hrun, hptr, Option.bind_some, Option.bind_eq_bind, if_pos hpid]

theorem Wf.filterSetParams (h : Wf dmx) (params : Params k) :
    KeepsWf dmx k ref (filterSetParams k ref params dmx) := by
  unfold Demux.filterSetParams
  cases hf : dmx.filter? k ref with
  | none => exact Or.inl ⟨hf, rfl⟩
  | some f =>
    right
    obtain ⟨hmem, rfl⟩ := filter?_some hf
    simp only [Option.bind_some, Option.bind_eq_bind]
    by_cases hv : params.valid = false
    · rw [if_pos hv]
      exact ⟨_, _, rfl, h⟩
    rw [if_neg hv]
    by_cases hrun : f.state = .run
    · obtain ⟨p, -, hptr, -⟩ := h.running hmem hrun
      have hkept : (if f.state = .init then FilterState.set else f.state) = .run := by
        rw [hrun]
        rfl
      by_cases hpid : f.config.pid = params.pid
      · -- the PID stays: only the parameters are written
        rw [filterLeave_stay hrun hptr hpid]
        simp only [Option.bind_some, filterJoin, hptr, hkept, reduceCtorEq, and_false, if_false]
        exact ⟨_, _, rfl, h.store hmem rfl ⟨fun _ => hrun, fun _ => rfl⟩ hptr.symm
          fun _ => params.config_pid.trans hpid.symm⟩
      · rw [filterLeave_move hrun hptr hpid]
        simp only [Option.bind_some, filterJoin, hkept, and_self, if_true]
        refine ⟨_, _, rfl, ?_⟩
        let moved : Filter k := { f with
          state := .run
          pidFilter := some (pidFilterGet (pidFilterRemove (dmx.unlink k f.ref) p.ref)
            params.pid).2
          config := params.config }
        let d := pidFilterRemove (dmx.unlink k f.ref) p.ref
        have hptr' : moved.pidFilter = some (pidFilterGet d moved.config.pid).2 := by
          dsimp only [moved, d]
          rw [params.config_pid]
        have hwf : Wf (((pidFilterGet d moved.config.pid).1.link k
            (pidFilterGet d moved.config.pid).2 f.ref).setFilter moved) :=
          h.move hmem hrun hptr rfl rfl rfl hptr'
        simp only [moved, d, params.config_pid] at hwf
        exact hwf
    · -- a filter that does not run has no PID filter to leave or to join
      have hset : (if f.state = .init then FilterState.set else f.state) ≠ .run := by
        split
        · exact fun he => FilterState.noConfusion he
        · exact hrun
      simp only [filterLeave, if_neg hrun, Option.bind_some, filterJoin, hset, false_and, if_false]
      exact ⟨_, _, rfl, h.store hmem rfl ⟨fun he => absurd he hset, fun he => absurd he hrun⟩ rfl
        fun he => absurd he hrun⟩

theorem Wf.filterAlloc (h : Wf dmx) (config : Config k) : Wf (filterAlloc k config dmx) := by
  let f : Filter k := ⟨dmx.next, .init, none, config, []⟩
  have hself : (Demux.filterAlloc k config dmx).filterList k = dmx.filterList k ++ [f] :=
    Function.update_self ..
  have hother : ∀ k', k' ≠ k →
      (Demux.filterAlloc k config dmx).filterList k' = dmx.filterList k' :=
    fun k' hk => Function.update_of_ne hk ..
  have hforall : ∀ {P : (k : Kind) → Filter k → Prop}, P k f →
      (∀ k', ∀ g ∈ dmx.filterList k', P k' g) →
      ∀ k', ∀ g ∈ (Demux.filterAlloc k config dmx).filterList k', P k' g := by
    intro P hf hall k' g hg
    by_cases hk : k' = k
    · subst hk
      rw [hself] at hg
      rcases List.mem_append.mp hg with hg | hg
      · exact hall k' g hg
      · rw [List.mem_singleton.mp hg]
        exact hf
    · rw [hother k' hk] at hg
      exact hall k' g hg
  have hruns : ∀ k' r pf, (Demux.filterAlloc k config dmx).RunsOn k' r pf ↔ dmx.RunsOn k' r pf := by
    intro k' r pf
    unfold Dmx.RunsOn
    by_cases hk : k' = k
    · subst hk
      rw [hself]
      constructor
      · rintro ⟨g, hg, hr, hrun, hp⟩
        rcases List.mem_append.mp hg with hg | hg
        · exact ⟨g, hg, hr, hrun, hp⟩
        · rw [List.mem_singleton.mp hg] at hrun
          exact FilterState.noConfusion hrun
      · rintro ⟨g, hg, hs⟩
        exact ⟨g, List.mem_append_left _ hg, hs⟩
    · rw [hother k' hk]
  exact
    { pidRefs := h.pidRefs
      pids := h.pids
      refs := by
        intro k'
        by_cases hk : k' = k
        · subst hk
          rw [hself, List.map_append]
          apply (h.refs k').append (List.nodup_singleton _)
          intro r h1 h2
          obtain ⟨g, hg, rfl⟩ := List.mem_map.mp h1
          have hlt := h.fresh k' g hg
          rw [List.mem_singleton.mp h2] at hlt
          exact Nat.lt_irrefl _ hlt
        · rw [hother k' hk]
          exact h.refs k'
      freshPid := fun p hp => Nat.lt_succ_of_lt (h.freshPid p hp)
      fresh := hforall (Nat.lt_succ_self _) fun k' g hg => Nat.lt_succ_of_lt (h.fresh k' g hg)
      nodup := h.nodup
      links := fun p hp k' r => by rw [hruns]; exact h.links p hp k' r
      points := hforall (Or.inr ⟨fun he => FilterState.noConfusion he, rfl⟩) h.points
      secOk := h.secOk
      nonempty := h.nonempty }

theorem Wf.remove (h : Wf dmx)
    (hidle : ∀ f ∈ dmx.filterList k, f.ref = ref → f.state ≠ .run) :
    Wf { dmx with
      filterList := Function.update dmx.filterList k
        ((dmx.filterList k).filter fun f => f.ref ≠ ref) } := by
  let d : Dmx := { dmx with
      filterList := Function.update dmx.filterList k
        ((dmx.filterList k).filter fun f => f.ref ≠ ref) }
  have hself : d.filterList k = (dmx.filterList k).filter fun f => f.ref ≠ ref :=
    Function.update_self ..
  have hother : ∀ k', k' ≠ k → d.filterList k' = dmx.filterList k' :=
    fun k' hk => Function.update_of_ne hk ..
  have hsub : ∀ k', (d.filterList k').Sublist (dmx.filterList k') := by
    intro k'
    by_cases hk : k' = k
    · subst hk
      rw [hself]
      exact List.filter_sublist
    · rw [hother k' hk]
  have hruns : ∀ k' r pf, d.RunsOn k' r pf ↔ dmx.RunsOn k' r pf := by
    intro k' r pf
    constructor
    · rintro ⟨g, hg, hs⟩
      exact ⟨g, (hsub k').subset hg, hs⟩
    · rintro ⟨g, hg, hr, hrun, hp⟩
      refine ⟨g, ?_, hr, hrun, hp⟩
      by_cases hk : k' = k
      · subst hk
        rw [hself]
        exact List.mem_filter.mpr ⟨hg, decide_eq_true fun he => hidle g hg he hrun⟩
      · rw [hother k' hk]
        exact hg
  show Wf d
  exact
    { pidRefs := h.pidRefs
      pids := h.pids
      refs := fun k' => (h.refs k').sublist ((hsub k').map _)
      freshPid := h.freshPid
      fresh := fun k' g hg => h.fresh k' g ((hsub k').subset hg)
      nodup := h.nodup
      links := fun p hp k' r => by rw [hruns]; exact h.links p hp k' r
      points := fun k' g hg => h.points k' g ((hsub k').subset hg)
      secOk := h.secOk
      nonempty := h.nonempty }

theorem Wf.filterFree (h : Wf dmx) :
    (dmx.filter? k ref = none ∧ filterFree k ref dmx = none) ∨
      ∃ dmx', Demux.filterFree k ref dmx = some dmx' ∧ Wf dmx' := by
  unfold Demux.filterFree
  rcases @Wf.filterDisable _ k ref h with ⟨h1, h2⟩ | ⟨d, r, h1, hd, hidle⟩
  · left
    rw [h2]
    exact ⟨h1, rfl⟩
  · right
    rw [h1]
    exact ⟨_, rfl, hd.remove hidle⟩

theorem mapM_filter? {refs : List Ref} (h : ∀ r ∈ refs, ∃ f ∈ dmx.filterList k, f.ref = r) :
    ∃ fs, refs.mapM (dmx.filter? k) = some fs ∧ fs.map Filter.ref = refs ∧
      ∀ f ∈ fs, f ∈ dmx.filterList k := by
  induction refs with
  | nil => exact ⟨[], rfl, rfl, fun f hf => absurd hf List.not_mem_nil⟩
  | cons r refs ih =>
    obtain ⟨f, hf, hr⟩ := h r List.mem_cons_self
    obtain ⟨fs, h1, h2, h3⟩ := ih fun r' hr' => h r' (List.mem_cons_of_mem _ hr')
    cases hfind : dmx.filter? k r with
    | none => exact absurd (decide_eq_true hr) (List.find?_eq_none.mp hfind f hf)
    | some g =>
      obtain ⟨hg, hgr⟩ := filter?_some hfind
      refine ⟨g :: fs, ?_, ?_, ?_⟩
      · rw [List.mapM_cons, hfind, h1]
        rfl
      · rw [List.map_cons, h2, hgr]
      · exact List.forall_mem_cons.mpr ⟨hg, h3⟩

theorem Wf.linked (h : Wf dmx) {p : PidFilter} (hp : p ∈ dmx.pidFilterList) (k : Kind) :
    ∃ fs, (p.filterList k).mapM (dmx.filter? k) = some fs ∧ fs.map Filter.ref = p.filterList k ∧
      ∀ f ∈ fs, f ∈ dmx.filterList k :=
  mapM_filter? fun r hr => by
    obtain ⟨f, hf, href, -⟩ := (h.links p hp k r).mp hr
    exact ⟨f, hf, href⟩

/-- A packet changes section buffers only. -/
theorem Wf.setSec (h : Wf dmx) {pf : Ref} {sec : SecState} (hsec : sec.Ok) :
    Wf { dmx with
      pidFilterList := dmx.pidFilterList.map fun q => if q.ref = pf then { q with sec := sec }
        else q } := by
  let upd : PidFilter → PidFilter := fun q => if q.ref = pf then { q with sec := sec } else q
  have hupd : ∀ p, (upd p).ref = p.ref ∧ (upd p).pid = p.pid ∧
      (upd p).filterList = p.filterList := by
    intro p
    dsimp only [upd]
    split <;> exact ⟨rfl, rfl, rfl⟩
  have hmap : ∀ {β : Type} (φ : PidFilter → β), (∀ p, φ (upd p) = φ p) →
      (dmx.pidFilterList.map upd).map φ = dmx.pidFilterList.map φ := by
    intro β φ hφ
    rw [List.map_map]
    exact List.map_congr_left fun p _ => hφ p
  have hall : ∀ {P : PidFilter → Prop}, (∀ p ∈ dmx.pidFilterList, P (upd p)) →
      ∀ q ∈ dmx.pidFilterList.map upd, P q := by
    intro P hP q hq
    obtain ⟨p, hp, rfl⟩ := List.mem_map.mp hq
    exact hP p hp
  exact
    { pidRefs := by rw [hmap _ fun p => (hupd p).1]; exact h.pidRefs
      pids := by rw [hmap _ fun p => (hupd p).2.1]; exact h.pids
      refs := h.refs
      freshPid := hall fun p hp => by rw [(hupd p).1]; exact h.freshPid p hp
      fresh := h.fresh
      nodup := hall fun p hp k => by rw [(hupd p).2.2]; exact h.nodup p hp k
      links := hall fun p hp k r => by
        rw [(hupd p).2.2, (hupd p).1]
        exact h.links p hp k r
      points := fun k f hf => by
        rcases h.points k f hf with ⟨hrun, p, hp, h1, h2⟩ | hidle
        · exact Or.inl ⟨hrun, upd p, List.mem_map_of_mem hp, by rw [(hupd p).1, h1],
            by rw [(hupd p).2.1, h2]⟩
        · exact Or.inr hidle
      secOk := hall fun p hp => by
        dsimp only [upd]
        split
        · exact hsec
        · exact h.secOk p hp
      nonempty := hall fun p hp => by
        have he : (upd p).isEmpty = p.isEmpty := by
          unfold PidFilter.isEmpty
          rw [(hupd p).2.2]
        rw [he]
        exact h.nonempty p hp }

/-- What a TS filter does with a packet. -/
def Filter.delivery {k : Kind} (f : Filter k) : Delivery := ⟨f.ref, f.cbList⟩

/-- The packet callback takes every packet. It hands the packet to the TS filters of the
first PID filter that takes it. -/
theorem Wf.tsPacketCb (h : Wf dmx) (heap : Block UInt8 secDataSize) (pkt : Tspacket) :
    ∃ dmx' out, swdmxDemuxTsPacketCb heap pkt dmx = some (dmx', out) ∧ Wf dmx' ∧
      match dmx.pidFilterList.find? (PidFilter.takes pkt) with
      | none => out.ts = []
      | some p => ∃ fs : List TsFilter, fs.map Filter.ref = p.filterList .ts ∧
        (∀ f ∈ fs, f ∈ dmx.filterList .ts) ∧ out.ts = fs.map Filter.delivery := by
  unfold swdmxDemuxTsPacketCb
  cases hfind : dmx.pidFilterList.find? (PidFilter.takes pkt) with
  | none => exact ⟨_, _, rfl, h, rfl⟩
  | some p =>
    have hp := List.mem_of_find?_eq_some hfind
    obtain ⟨ts, h1, h2, h3⟩ := h.linked hp .ts
    obtain ⟨fs, h4, -, -⟩ := h.linked hp .sec
    obtain ⟨out, sec, h5, h6, h7, -⟩ := pidFilterData_total heap ts fs (h.secOk p hp) pkt
    simp only [h1, h4, h5, Option.bind_some, Option.bind_eq_bind]
    exact ⟨_, _, rfl, h.setSec h6, ts, h2, h3, h7⟩

end

/-! ## Runs -/

/-- The filter a call works on exists. -/
def Op.Live (dmx : Dmx) : Op → Prop
  | .alloc _ _ | .packet _ _ => True
  | .setParams k ref _ | .enable k ref | .disable k ref | .free k ref | .addCb k ref _
  | .removeCb k ref _ => dmx.filter? k ref ≠ none

theorem KeepsWf.step {dmx : Dmx} {k : Kind} {ref : Ref} {α : Type} {res : Option (Dmx × α)}
    (h : KeepsWf dmx k ref res) :
    (∀ dmx', res.map Prod.fst = some dmx' → Wf dmx') ∧
      (dmx.filter? k ref ≠ none → ∃ dmx', res.map Prod.fst = some dmx') := by
  rcases h with ⟨h1, rfl⟩ | ⟨d, r, rfl, hd⟩
  · exact ⟨fun dmx' he => (by cases he), fun hl => absurd h1 hl⟩
  · refine ⟨fun dmx' he => ?_, fun _ => ⟨d, rfl⟩⟩
    obtain rfl := Option.some.inj he
    exact hd

/-- A call keeps the invariant, and is defined when its filter exists. -/
theorem step_wf {dmx : Dmx} (h : Wf dmx) (op : Op) :
    (∀ dmx', step dmx op = some dmx' → Wf dmx') ∧
      (op.Live dmx → ∃ dmx', step dmx op = some dmx') := by
  cases op with
  | alloc k config =>
    refine ⟨fun dmx' he => ?_, fun _ => ⟨_, rfl⟩⟩
    obtain rfl := Option.some.inj he
    exact h.filterAlloc config
  | setParams k ref params => exact (h.filterSetParams params).step
  | enable k ref => exact h.filterEnable.step
  | disable k ref =>
    have hk : KeepsWf dmx k ref (filterDisable k ref dmx) :=
      h.filterDisable.imp_right fun ⟨d, r, h1, h2, _⟩ => ⟨d, r, h1, h2⟩
    exact hk.step
  | free k ref =>
    rcases @Wf.filterFree _ k ref h with ⟨h1, h2⟩ | ⟨d, h1, h2⟩
    · refine ⟨fun dmx' he => ?_, fun hl => absurd h1 hl⟩
      rw [step, h2] at he
      exact absurd he (Option.some_ne_none _).symm
    · refine ⟨fun dmx' he => ?_, fun _ => ⟨d, h1⟩⟩
      rw [step, h1] at he
      obtain rfl := Option.some.inj he
      exact h2
  | addCb k ref ce => exact (h.filterCbList _).step
  | removeCb k ref ce => exact (h.filterCbList _).step
  | packet heap pkt =>
    obtain ⟨d, out, h1, h2, -⟩ := h.tsPacketCb heap pkt
    have hs : step dmx (.packet heap pkt) = some d := by rw [step, h1]; rfl
    refine ⟨fun dmx' he => ?_, fun _ => ⟨d, hs⟩⟩
    rw [hs] at he
    obtain rfl := Option.some.inj he
    exact h2

theorem Reachable.wf {dmx : Dmx} (h : Reachable dmx) : Wf dmx :=
  reaches_invariant (fun _ op s' hs he => (step_wf hs op).1 s' he) wf_new h

/-- The filter is linked exactly once in the list of its kind of exactly one PID filter,
the one of its PID. -/
def Dmx.LinkedOnce (dmx : Dmx) {k : Kind} (f : Filter k) : Prop :=
  ∃ p ∈ dmx.pidFilterList, p.pid = f.config.pid ∧ (p.filterList k).count f.ref = 1 ∧
    ∀ q ∈ dmx.pidFilterList, f.ref ∈ q.filterList k → q = p

/-- What holds of a demux after every call. -/
structure FiltersOk (dmx : Dmx) : Prop where
  run_iff_pointer : ∀ k, ∀ f ∈ dmx.filterList k, f.state = .run ↔ f.pidFilter ≠ none
  run_iff_linked : ∀ k, ∀ f ∈ dmx.filterList k, f.state = .run ↔ dmx.LinkedOnce f
  pointer_linked : ∀ k, ∀ f ∈ dmx.filterList k, ∀ p ∈ dmx.pidFilterList,
    f.pidFilter = some p.ref ↔ f.ref ∈ p.filterList k
  pids_distinct : (dmx.pidFilterList.map PidFilter.pid).Nodup
  no_empty : ∀ p ∈ dmx.pidFilterList, ¬ (p.filterList .ts = [] ∧ p.filterList .sec = [])

theorem Wf.pointer_linked {dmx : Dmx} (h : Wf dmx) {k : Kind} {f : Filter k}
    (hf : f ∈ dmx.filterList k) {p : PidFilter} (hp : p ∈ dmx.pidFilterList) :
    f.pidFilter = some p.ref ↔ f.ref ∈ p.filterList k := by
  rw [h.links p hp, h.runsOn_iff hf]
  refine ⟨fun hptr => ⟨?_, hptr⟩, fun hs => hs.2⟩
  by_contra hrun
  rw [h.idle hf hrun] at hptr
  exact Option.some_ne_none _ hptr.symm

theorem Wf.linkedOnce {dmx : Dmx} (h : Wf dmx) {k : Kind} {f : Filter k}
    (hf : f ∈ dmx.filterList k) (hrun : f.state = .run) : dmx.LinkedOnce f := by
  obtain ⟨p, hp, hptr, hpid⟩ := h.running hf hrun
  have hin : f.ref ∈ p.filterList k := (h.pointer_linked hf hp).mp hptr
  refine ⟨p, hp, hpid.symm, List.count_eq_one_of_mem (h.nodup p hp k) hin, ?_⟩
  intro q hq hinq
  have hptr' := (h.pointer_linked hf hq).mpr hinq
  exact h.pid_unique hp hq (Option.some.inj (hptr'.symm.trans hptr))

theorem Wf.filtersOk {dmx : Dmx} (h : Wf dmx) : FiltersOk dmx where
  run_iff_pointer k f hf := by
    constructor
    · intro hrun
      obtain ⟨p, -, hptr, -⟩ := h.running hf hrun
      rw [hptr]
      exact Option.some_ne_none _
    · intro hptr
      by_contra hrun
      exact hptr (h.idle hf hrun)
  run_iff_linked k f hf := by
    refine ⟨h.linkedOnce hf, fun ⟨p, hp, _, hcount, _⟩ => ?_⟩
    have hin : f.ref ∈ p.filterList k := List.count_pos_iff.mp (by omega)
    exact ((h.runsOn_iff hf p.ref).mp ((h.links p hp k f.ref).mp hin)).1
  pointer_linked k f hf p hp := h.pointer_linked hf hp
  pids_distinct := h.pids
  no_empty p hp he := by
    have hne := h.nonempty p hp
    unfold PidFilter.isEmpty at hne
    rw [he.1, he.2] at hne
    exact Bool.noConfusion hne

/-- After every sequence of calls the filters and the PID filters agree, and the next call on
an existing filter is defined: no assertion fails. -/
theorem filters_ok_of_run (ops : List Op) (dmx : Dmx) (h : run step swdmxDemuxNew ops = some dmx) :
    FiltersOk dmx ∧ ∀ op, op.Live dmx → ∃ dmx', step dmx op = some dmx' := by
  have hwf : Wf dmx := Reachable.wf ⟨ops, h⟩
  exact ⟨hwf.filtersOk, fun op hop => (step_wf hwf op).2 hop⟩

/-- A running filter is moved to another PID. -/
def retargetOps : List Op :=
  [.alloc .ts ⟨0⟩, .setParams .ts 0 (⟨0x100⟩ : TsParams), .enable .ts 0,
    .setParams .ts 0 (⟨0x200⟩ : TsParams)]

theorem filters_ok_retarget : ∃ dmx, run step swdmxDemuxNew retargetOps = some dmx ∧
    dmx.pidFilterList.map PidFilter.pid = [0x200] ∧ FiltersOk dmx ∧
    ∀ op, op.Live dmx → ∃ dmx', step dmx op = some dmx' :=
  ⟨_, rfl, rfl, filters_ok_of_run retargetOps _ rfl⟩

end MediaModules.Demux
