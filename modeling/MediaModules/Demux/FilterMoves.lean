import Mathlib.Tactic.Common
import Mathlib.Data.List.Nodup
import MediaModules.Demux.Filters

/-!
# The PID filters and the running filters

`Linkage` ties the lists of the PID filters to the pointers of the filters. The calls are
made of three moves, which keep it: a filter is written back in place, leaves its PID filter,
or joins one.
-/
namespace MediaModules.Demux

open MediaModules.Lib.Buffer MediaModules.Lib.Run

/-- A filter at the address `r` runs on the PID filter `pf`. -/
def Dmx.RunsOn (dmx : Dmx) (k : Kind) (r pf : Ref) : Prop :=
  ∃ f ∈ dmx.filterList k, f.ref = r ∧ f.state = .run ∧ f.pidFilter = some pf

/-- What the pointer of a filter says. -/
def Dmx.Points (dmx : Dmx) {k : Kind} (f : Filter k) : Prop :=
  (f.state = .run ∧ ∃ p ∈ dmx.pidFilterList, f.pidFilter = some p.ref ∧ f.config.pid = p.pid) ∨
    (f.state ≠ .run ∧ f.pidFilter = none)

/-- The invariant, less the absence of empty PID filters. -/
structure Linkage (dmx : Dmx) : Prop where
  pidRefs : (dmx.pidFilterList.map PidFilter.ref).Nodup
  pids : (dmx.pidFilterList.map PidFilter.pid).Nodup
  refs : ∀ k, ((dmx.filterList k).map Filter.ref).Nodup
  freshPid : ∀ p ∈ dmx.pidFilterList, p.ref < dmx.next
  fresh : ∀ k, ∀ f ∈ dmx.filterList k, f.ref < dmx.next
  nodup : ∀ p ∈ dmx.pidFilterList, ∀ k, (p.filterList k).Nodup
  links : ∀ p ∈ dmx.pidFilterList, ∀ k r, r ∈ p.filterList k ↔ dmx.RunsOn k r p.ref
  points : ∀ k, ∀ f ∈ dmx.filterList k, dmx.Points f
  secOk : ∀ p ∈ dmx.pidFilterList, p.sec.Ok

/-- The invariant of a demux. -/
structure Wf (dmx : Dmx) : Prop extends Linkage dmx where
  nonempty : ∀ p ∈ dmx.pidFilterList, p.isEmpty = false

/-! ## Writing a filter back -/

section

variable {dmx : Dmx} {k : Kind}

theorem filter?_some {ref : Ref} {f : Filter k} (h : dmx.filter? k ref = some f) :
    f ∈ dmx.filterList k ∧ f.ref = ref := by
  refine ⟨List.mem_of_find?_eq_some h, ?_⟩
  have hp := List.find?_some h
  exact of_decide_eq_true hp

@[simp] theorem setFilter_pidFilterList (f : Filter k) :
    (dmx.setFilter f).pidFilterList = dmx.pidFilterList := rfl

theorem setFilter_self {d : Dmx} (f : Filter k) :
    (d.setFilter f).filterList k =
      (d.filterList k).map fun g => if g.ref = f.ref then f else g :=
  Function.update_self ..

theorem setFilter_of_ne (f : Filter k) {k' : Kind} (h : k' ≠ k) :
    (dmx.setFilter f).filterList k' = dmx.filterList k' :=
  Function.update_of_ne h ..

/-- Writing back changes no address. -/
theorem setFilter_refs (f : Filter k) (k' : Kind) :
    ((dmx.setFilter f).filterList k').map Filter.ref = (dmx.filterList k').map Filter.ref := by
  by_cases h : k' = k
  · subst h
    rw [setFilter_self, List.map_map]
    apply List.map_congr_left
    intro g _
    simp only [Function.comp_apply]
    split
    · next h => exact h.symm
    · rfl
  · rw [setFilter_of_ne f h]

/-- A fact about every filter, after a write: it holds of the filter written, and of the
others as before. -/
theorem forall_setFilter {P : (k : Kind) → Filter k → Prop} {f : Filter k} (hf : P k f)
    (hrest : ∀ k', ∀ g ∈ dmx.filterList k', ¬ (k' = k ∧ g.ref = f.ref) → P k' g) :
    ∀ k', ∀ g ∈ (dmx.setFilter f).filterList k', P k' g := by
  intro k' g hg
  by_cases h : k' = k
  · subst h
    rw [setFilter_self] at hg
    obtain ⟨g', hg', rfl⟩ := List.mem_map.mp hg
    split
    · exact hf
    · next hne => exact hrest k' g' hg' fun hc => hne hc.2
  · rw [setFilter_of_ne f h] at hg
    exact hrest k' g hg fun hc => h hc.1

theorem runsOn_setFilter {d : Dmx} {f f' : Filter k} (hf : f ∈ d.filterList k) (href : f'.ref = f.ref)
    (k' : Kind) (r pf : Ref) :
    (d.setFilter f').RunsOn k' r pf ↔
      if k' = k ∧ r = f.ref then f'.state = .run ∧ f'.pidFilter = some pf
      else d.RunsOn k' r pf := by
  by_cases h : k' = k
  · subst h
    unfold Dmx.RunsOn
    rw [setFilter_self]
    by_cases hr : r = f.ref
    · rw [if_pos ⟨rfl, hr⟩]
      constructor
      · rintro ⟨g, hg, hgr, hs⟩
        obtain ⟨g', -, rfl⟩ := List.mem_map.mp hg
        split at hgr
        · next he => rwa [if_pos he] at hs
        · next hne => exact absurd (hgr.trans (hr.trans href.symm)) hne
      · intro hs
        exact ⟨f', List.mem_map.mpr ⟨f, hf, if_pos href.symm⟩, href.trans hr.symm, hs⟩
    · rw [if_neg fun hc => hr hc.2]
      constructor
      · rintro ⟨g, hg, hgr, hs⟩
        obtain ⟨g', hg', rfl⟩ := List.mem_map.mp hg
        split at hgr
        · exact absurd (hgr.symm.trans href) hr
        · next hne =>
          rw [if_neg hne] at hs
          exact ⟨g', hg', hgr, hs⟩
      · rintro ⟨g, hg, hgr, hs⟩
        have hne : g.ref ≠ f'.ref := fun he => hr (hgr.symm.trans (he.trans href))
        exact ⟨g, List.mem_map.mpr ⟨g, hg, if_neg hne⟩, hgr, hs⟩
  · unfold Dmx.RunsOn
    rw [setFilter_of_ne f' h, if_neg fun hc => h hc.1]

/-- Two writes of one filter are the last of them. -/
theorem setFilter_setFilter (f f' : Filter k) (href : f.ref = f'.ref) :
    (dmx.setFilter f).setFilter f' = dmx.setFilter f' := by
  have hself := setFilter_self (d := dmx) f
  unfold Dmx.setFilter at *
  dsimp only at *
  rw [hself, Function.update_idem, List.map_map]
  congr 2
  apply List.map_congr_left
  intro g _
  simp only [Function.comp_apply]
  by_cases h : g.ref = f.ref
  · rw [if_pos h, if_pos href, if_pos (h.trans href)]
  · rw [if_neg h]

theorem mem_setFilter {d : Dmx} {f f' : Filter k} (hf : f ∈ d.filterList k) (href : f'.ref = f.ref) :
    f' ∈ (d.setFilter f').filterList k := by
  rw [setFilter_self]
  exact List.mem_map.mpr ⟨f, hf, if_pos href.symm⟩

theorem Linkage.filter_unique (h : Linkage dmx) {f g : Filter k} (hf : f ∈ dmx.filterList k)
    (hg : g ∈ dmx.filterList k) (href : g.ref = f.ref) : g = f :=
  List.inj_on_of_nodup_map (h.refs k) hg hf href

theorem Linkage.pid_unique (h : Linkage dmx) {p q : PidFilter} (hp : p ∈ dmx.pidFilterList)
    (hq : q ∈ dmx.pidFilterList) (href : q.ref = p.ref) : q = p :=
  List.inj_on_of_nodup_map h.pidRefs hq hp href

theorem Linkage.runsOn_iff (h : Linkage dmx) {f : Filter k} (hf : f ∈ dmx.filterList k)
    (pf : Ref) : dmx.RunsOn k f.ref pf ↔ f.state = .run ∧ f.pidFilter = some pf := by
  constructor
  · rintro ⟨g, hg, hr, hs⟩
    obtain rfl := h.filter_unique hf hg hr
    exact hs
  · exact fun hs => ⟨f, hf, rfl, hs⟩

/-- Writing a filter back with the same links. -/
theorem Wf.store (h : Wf dmx) {f f' : Filter k} (hf : f ∈ dmx.filterList k)
    (href : f'.ref = f.ref) (hstate : f'.state = .run ↔ f.state = .run)
    (hpf : f'.pidFilter = f.pidFilter)
    (hpid : f.state = .run → f'.config.pid = f.config.pid) : Wf (dmx.setFilter f') where
  pidRefs := h.pidRefs
  pids := h.pids
  refs k' := by
    rw [setFilter_refs]
    exact h.refs k'
  freshPid := h.freshPid
  fresh := forall_setFilter (by rw [href]; exact h.fresh k f hf) fun k' g hg _ => h.fresh k' g hg
  nodup := h.nodup
  links p hp k' r := by
    rw [h.links p hp, runsOn_setFilter hf href]
    split
    · next he =>
      obtain ⟨rfl, rfl⟩ := he
      rw [h.runsOn_iff hf, hstate, hpf]
    · rfl
  points := by
    refine forall_setFilter ?_ fun k' g hg _ => h.points k' g hg
    rcases h.points k f hf with ⟨hrun, p, hp, h1, h2⟩ | ⟨hrun, h1⟩
    · exact Or.inl ⟨hstate.mpr hrun, p, hp, hpf.trans h1, (hpid hrun).trans h2⟩
    · exact Or.inr ⟨fun hr => hrun (hstate.mp hr), hpf.trans h1⟩
  secOk := h.secOk
  nonempty := h.nonempty

end

/-! ## Leaving a PID filter -/

section

variable {dmx : Dmx} {k : Kind}

theorem unlink_self (p : PidFilter) (ref : Ref) :
    (p.unlink k ref).filterList k = (p.filterList k).erase ref := Function.update_self ..

theorem unlink_of_ne (p : PidFilter) (ref : Ref) {k' : Kind} (h : k' ≠ k) :
    (p.unlink k ref).filterList k' = p.filterList k' := Function.update_of_ne h ..

theorem mem_unlink {p : PidFilter} (hp : ∀ k, (p.filterList k).Nodup) {ref r : Ref} (k' : Kind) :
    r ∈ (p.unlink k ref).filterList k' ↔ r ∈ p.filterList k' ∧ ¬ (k' = k ∧ r = ref) := by
  by_cases h : k' = k
  · subst h
    rw [unlink_self, (hp k').mem_erase_iff]
    tauto
  · rw [unlink_of_ne p ref h]
    tauto

theorem nodup_unlink {p : PidFilter} (hp : ∀ k, (p.filterList k).Nodup) (ref : Ref) (k' : Kind) :
    ((p.unlink k ref).filterList k').Nodup := by
  by_cases h : k' = k
  · subst h
    rw [unlink_self]
    exact (hp k').erase ref
  · rw [unlink_of_ne p ref h]
    exact hp k'

theorem isEmpty_iff (p : PidFilter) : p.isEmpty = true ↔ ∀ k, p.filterList k = [] := by
  unfold PidFilter.isEmpty
  rw [Bool.and_eq_true, List.isEmpty_iff, List.isEmpty_iff]
  exact ⟨fun h k => by cases k; exacts [h.1, h.2], fun h => ⟨h .ts, h .sec⟩⟩

theorem isEmpty_eq_false_iff (p : PidFilter) : p.isEmpty = false ↔ ∃ k r, r ∈ p.filterList k := by
  rw [Bool.eq_false_iff, ne_eq, isEmpty_iff, not_forall]
  exact exists_congr fun k => ⟨List.exists_mem_of_ne_nil _, fun ⟨_, hr⟩ => List.ne_nil_of_mem hr⟩

/-- A running filter leaves its PID filter, which goes when it was the last one. -/
theorem Wf.leave (h : Wf dmx) {f f' : Filter k} (hf : f ∈ dmx.filterList k)
    {pf : Ref} (hrun : f.state = .run) (hptr : f.pidFilter = some pf) (href : f'.ref = f.ref)
    (hstate : f'.state ≠ .run) (hpf : f'.pidFilter = none) :
    Wf ((pidFilterRemove (dmx.unlink k f.ref) pf).setFilter f') := by
  -- the PID filters that stay are the old ones, less the filter's address
  have hmem : ∀ q ∈ (pidFilterRemove (dmx.unlink k f.ref) pf).pidFilterList,
      (∃ p ∈ dmx.pidFilterList, q = p.unlink k f.ref) ∧ (q.ref = pf → q.isEmpty = false) := by
    intro q hq
    obtain ⟨h1, h2⟩ := List.mem_filter.mp hq
    obtain ⟨p, hp, rfl⟩ := List.mem_map.mp h1
    refine ⟨⟨p, hp, rfl⟩, fun he => ?_⟩
    simpa [he] using h2
  have hsub : (pidFilterRemove (dmx.unlink k f.ref) pf).pidFilterList.Sublist
      (dmx.pidFilterList.map (PidFilter.unlink k f.ref)) := List.filter_sublist
  have hrefs : ((dmx.pidFilterList.map (PidFilter.unlink k f.ref)).map PidFilter.ref) =
      dmx.pidFilterList.map PidFilter.ref := by rw [List.map_map]; rfl
  have hpids : ((dmx.pidFilterList.map (PidFilter.unlink k f.ref)).map PidFilter.pid) =
      dmx.pidFilterList.map PidFilter.pid := by rw [List.map_map]; rfl
  have hlinks : ∀ p ∈ dmx.pidFilterList, ∀ k' r, r ∈ (p.unlink k f.ref).filterList k' ↔
      dmx.RunsOn k' r p.ref ∧ ¬ (k' = k ∧ r = f.ref) := by
    intro p hp k' r
    rw [mem_unlink (h.nodup p hp), h.links p hp]
  have hrest : ∀ (k' : Kind) (g : Filter k'), g ∈ dmx.filterList k' →
      ¬ (k' = k ∧ g.ref = f'.ref) →
      ((pidFilterRemove (dmx.unlink k f.ref) pf).setFilter f').Points g := by
    intro k' g hg hne
    rcases h.points k' g hg with ⟨hgr, p, hp, h1, h2⟩ | hidle
    · refine Or.inl ⟨hgr, p.unlink k f.ref, ?_, h1, h2⟩
      refine List.mem_filter.mpr ⟨List.mem_map_of_mem hp, ?_⟩
      have hin : g.ref ∈ (p.unlink k f.ref).filterList k' :=
        (hlinks p hp k' g.ref).mpr ⟨⟨g, hg, rfl, hgr, h1⟩, by rw [← href]; exact hne⟩
      have he : (p.unlink k f.ref).isEmpty = false := (isEmpty_eq_false_iff _).mpr ⟨k', g.ref, hin⟩
      rw [he, Bool.and_false, Bool.not_false]
    · exact Or.inr hidle
  constructor
  · constructor
    · exact (hrefs ▸ h.pidRefs).sublist (hsub.map _)
    · exact (hpids ▸ h.pids).sublist (hsub.map _)
    · intro k'
      rw [setFilter_refs]
      exact h.refs k'
    · intro q hq
      obtain ⟨⟨p, hp, rfl⟩, -⟩ := hmem q hq
      exact h.freshPid p hp
    · exact forall_setFilter (by rw [href]; exact h.fresh k f hf) fun k' g hg _ => h.fresh k' g hg
    · intro q hq k'
      obtain ⟨⟨p, hp, rfl⟩, -⟩ := hmem q hq
      exact nodup_unlink (h.nodup p hp) f.ref k'
    · intro q hq k' r
      obtain ⟨⟨p, hp, rfl⟩, -⟩ := hmem q hq
      rw [hlinks p hp, runsOn_setFilter (d := pidFilterRemove (dmx.unlink k f.ref) pf) hf href]
      split
      · next he => exact ⟨fun hc => absurd he hc.2, fun hc => absurd hc.1 hstate⟩
      · next he => exact ⟨fun hc => hc.1, fun hc => ⟨hc, he⟩⟩
    · exact forall_setFilter (Or.inr ⟨hstate, hpf⟩) hrest
    · intro q hq
      obtain ⟨⟨p, hp, rfl⟩, -⟩ := hmem q hq
      exact h.secOk p hp
  · intro q hq
    obtain ⟨⟨p, hp, rfl⟩, hne⟩ := hmem q hq
    by_cases he : p.ref = pf
    · exact hne he
    · -- no other PID filter loses anything
      obtain ⟨k', r, hr⟩ := (isEmpty_eq_false_iff p).mp (h.nonempty p hp)
      have hon := (h.links p hp k' r).mp hr
      refine (isEmpty_eq_false_iff _).mpr ⟨k', r, (hlinks p hp k' r).mpr ⟨hon, ?_⟩⟩
      rintro ⟨rfl, rfl⟩
      have hp' := ((h.runsOn_iff hf p.ref).mp hon).2
      exact he (Option.some.inj (hp'.symm.trans hptr))

end

/-! ## Joining a PID filter -/

section

variable {dmx : Dmx} {k : Kind}

theorem link_self (p : PidFilter) (ref : Ref) :
    (p.link k ref).filterList k = p.filterList k ++ [ref] := Function.update_self ..

theorem link_of_ne (p : PidFilter) (ref : Ref) {k' : Kind} (h : k' ≠ k) :
    (p.link k ref).filterList k' = p.filterList k' := Function.update_of_ne h ..

theorem mem_link (p : PidFilter) (ref r : Ref) (k' : Kind) :
    r ∈ (p.link k ref).filterList k' ↔ r ∈ p.filterList k' ∨ (k' = k ∧ r = ref) := by
  by_cases h : k' = k
  · subst h
    rw [link_self, List.mem_append, List.mem_singleton]
    tauto
  · rw [link_of_ne p ref h]
    tauto

theorem nodup_link {p : PidFilter} (hp : ∀ k, (p.filterList k).Nodup) {ref : Ref}
    (hnew : ref ∉ p.filterList k) (k' : Kind) : ((p.link k ref).filterList k').Nodup := by
  by_cases h : k' = k
  · subst h
    rw [link_self]
    exact (hp k').append (List.nodup_singleton ref) (by
      simpa using hnew)
  · rw [link_of_ne p ref h]
    exact hp k'

/-- What linking at one PID filter makes of each. -/
def PidFilter.linkAt (k : Kind) (pf ref : Ref) (p : PidFilter) : PidFilter :=
  if p.ref = pf then p.link k ref else p

theorem linkAt_same (k : Kind) (pf ref : Ref) (p : PidFilter) :
    (p.linkAt k pf ref).ref = p.ref ∧ (p.linkAt k pf ref).pid = p.pid ∧
      (p.linkAt k pf ref).sec = p.sec := by
  rw [PidFilter.linkAt]
  split <;> exact ⟨rfl, rfl, rfl⟩

theorem mem_linkAt (p : PidFilter) (pf ref r : Ref) (k' : Kind) :
    r ∈ (p.linkAt k pf ref).filterList k' ↔
      r ∈ p.filterList k' ∨ (p.ref = pf ∧ k' = k ∧ r = ref) := by
  rw [PidFilter.linkAt]
  split
  · next he => rw [mem_link]; tauto
  · next he => tauto

theorem nodup_linkAt {p : PidFilter} (hp : ∀ k, (p.filterList k).Nodup) {ref : Ref}
    (hnew : ref ∉ p.filterList k) (pf : Ref) (k' : Kind) :
    ((p.linkAt k pf ref).filterList k').Nodup := by
  rw [PidFilter.linkAt]
  split
  · exact nodup_link hp hnew k'
  · exact hp k'

theorem map_linkAt {β : Type} (l : List PidFilter) (pf ref : Ref) {φ : PidFilter → β}
    (hφ : ∀ p, φ (p.linkAt k pf ref) = φ p) : (l.map (PidFilter.linkAt k pf ref)).map φ = l.map φ := by
  rw [List.map_map]
  exact List.map_congr_left fun p _ => hφ p

/-- `pid_filter_get` returns the one PID filter of the PID; only that one can be empty. -/
theorem pidFilterGet_spec (h : Wf dmx) (pid : UInt16) :
    Linkage (pidFilterGet dmx pid).1 ∧
      (pidFilterGet dmx pid).1.filterList = dmx.filterList ∧
      (∃ p ∈ (pidFilterGet dmx pid).1.pidFilterList, p.ref = (pidFilterGet dmx pid).2 ∧
        p.pid = pid) ∧
      ∀ p ∈ (pidFilterGet dmx pid).1.pidFilterList, p.ref ≠ (pidFilterGet dmx pid).2 →
        p.isEmpty = false := by
  unfold pidFilterGet
  cases hfind : dmx.pidFilterList.find? fun f => f.pid = pid with
  | some p =>
    have hpid := List.find?_some hfind
    exact ⟨h.toLinkage, rfl, ⟨p, List.mem_of_find?_eq_some hfind, rfl, of_decide_eq_true hpid⟩,
      fun q hq _ => h.nonempty q hq⟩
  | none =>
    have hno : ∀ p ∈ dmx.pidFilterList, p.pid ≠ pid := by
      intro p hp he
      exact (List.find?_eq_none.mp hfind) p hp (decide_eq_true he)
    have hmem : ∀ q ∈ dmx.pidFilterList ++ [(⟨dmx.next, pid, fun _ => [], ⟨none, 0⟩⟩ : PidFilter)],
        q ∈ dmx.pidFilterList ∨ q = ⟨dmx.next, pid, fun _ => [], ⟨none, 0⟩⟩ := by
      intro q hq
      simpa using hq
    refine ⟨?_, rfl, ⟨_, List.mem_append_right _ (List.mem_singleton_self _), rfl, rfl⟩, ?_⟩
    · constructor
      · rw [List.map_append]
        apply h.pidRefs.append (List.nodup_singleton _)
        intro r h1 h2
        obtain ⟨p, hp, rfl⟩ := List.mem_map.mp h1
        have hlt := h.freshPid p hp
        rw [List.mem_singleton.mp h2] at hlt
        exact Nat.lt_irrefl _ hlt
      · rw [List.map_append]
        apply h.pids.append (List.nodup_singleton _)
        intro r h1 h2
        obtain ⟨p, hp, rfl⟩ := List.mem_map.mp h1
        exact hno p hp (List.mem_singleton.mp h2)
      · exact h.refs
      · intro q hq
        rcases hmem q hq with hq | rfl
        · exact Nat.lt_succ_of_lt (h.freshPid q hq)
        · exact Nat.lt_succ_self _
      · exact fun k f hf => Nat.lt_succ_of_lt (h.fresh k f hf)
      · intro q hq
        rcases hmem q hq with hq | rfl
        · exact h.nodup q hq
        · exact fun _ => List.nodup_nil
      · intro q hq k r
        rcases hmem q hq with hq | rfl
        · exact h.links q hq k r
        · constructor
          · exact fun hr => absurd hr List.not_mem_nil
          · rintro ⟨f, hf, -, hrun, hptr⟩
            rcases h.points k f hf with ⟨-, p, hp, h1, -⟩ | ⟨hidle, -⟩
            · have hlt := h.freshPid p hp
              rw [Option.some.inj (h1.symm.trans hptr)] at hlt
              exact absurd hlt (Nat.lt_irrefl _)
            · exact absurd hrun hidle
      · intro k f hf
        rcases h.points k f hf with ⟨hrun, p, hp, h1, h2⟩ | hidle
        · exact Or.inl ⟨hrun, p, List.mem_append_left _ hp, h1, h2⟩
        · exact Or.inr hidle
      · intro q hq
        rcases hmem q hq with hq | rfl
        · exact h.secOk q hq
        · rfl
    · intro q hq hne
      rcases hmem q hq with hq | rfl
      · exact h.nonempty q hq
      · exact absurd rfl hne

/-- A filter that does not run joins the PID filter of a PID. -/
theorem Wf.join (h : Wf dmx) {f f' : Filter k} (hf : f ∈ dmx.filterList k)
    (hidle : f.state ≠ .run) {pid : UInt16} (href : f'.ref = f.ref) (hrun : f'.state = .run)
    (hptr : f'.pidFilter = some (pidFilterGet dmx pid).2) (hpid : f'.config.pid = pid) :
    Wf (((pidFilterGet dmx pid).1.link k (pidFilterGet dmx pid).2 f.ref).setFilter f') := by
  obtain ⟨hl, hfs, ⟨p₀, hp₀, hpref, hppid⟩, hne⟩ := pidFilterGet_spec h pid
  generalize pidFilterGet dmx pid = g at *
  obtain ⟨d, pf⟩ := g
  dsimp only at *
  have hfd : f ∈ d.filterList k := hfs ▸ hf
  have hmem : ∀ q ∈ ((d.link k pf f.ref).setFilter f').pidFilterList,
      ∃ p ∈ d.pidFilterList, q = p.linkAt k pf f.ref := by
    intro q hq
    obtain ⟨p, hp, rfl⟩ := List.mem_map.mp hq
    exact ⟨p, hp, rfl⟩
  have hnew : ∀ p ∈ d.pidFilterList, f.ref ∉ p.filterList k := by
    intro p hp hin
    exact hidle ((hl.runsOn_iff hfd p.ref).mp ((hl.links p hp k f.ref).mp hin)).1
  have hsame := linkAt_same k pf f.ref
  constructor
  · constructor
    · exact (map_linkAt d.pidFilterList pf f.ref fun p => (hsame p).1) ▸ hl.pidRefs
    · exact (map_linkAt d.pidFilterList pf f.ref fun p => (hsame p).2.1) ▸ hl.pids
    · intro k'
      rw [setFilter_refs]
      exact hl.refs k'
    · intro q hq
      obtain ⟨p, hp, rfl⟩ := hmem q hq
      rw [(hsame p).1]
      exact hl.freshPid p hp
    · exact forall_setFilter (by rw [href]; exact hl.fresh k f hfd) fun k' g hg _ =>
        hl.fresh k' g hg
    · intro q hq k'
      obtain ⟨p, hp, rfl⟩ := hmem q hq
      exact nodup_linkAt (hl.nodup p hp) (hnew p hp) pf k'
    · intro q hq k' r
      obtain ⟨p, hp, rfl⟩ := hmem q hq
      rw [mem_linkAt, (hsame p).1, hl.links p hp, runsOn_setFilter (d := d.link k pf f.ref) hfd href]
      split
      · next he =>
        obtain ⟨rfl, rfl⟩ := he
        rw [hl.runsOn_iff hfd, hptr, Option.some.injEq]
        exact ⟨fun hc => ⟨hrun, hc.elim (fun hc => absurd hc.1 hidle) fun hc => hc.1.symm⟩,
          fun hc => Or.inr ⟨hc.2.symm, rfl, rfl⟩⟩
      · next he => exact ⟨fun hc => hc.elim id fun hc => absurd hc.2 he, Or.inl⟩
    · refine forall_setFilter ?_ ?_
      · refine Or.inl ⟨hrun, p₀.linkAt k pf f.ref, List.mem_map_of_mem hp₀, ?_, ?_⟩
        · rw [(hsame p₀).1, hptr, hpref]
        · rw [(hsame p₀).2.1, hpid, hppid]
      · intro k' g hg _
        rcases hl.points k' g hg with ⟨hgr, p, hp, h1, h2⟩ | hgi
        · exact Or.inl ⟨hgr, p.linkAt k pf f.ref, List.mem_map_of_mem hp, by rw [(hsame p).1, h1],
            by rw [(hsame p).2.1, h2]⟩
        · exact Or.inr hgi
    · intro q hq
      obtain ⟨p, hp, rfl⟩ := hmem q hq
      rw [(hsame p).2.2]
      exact hl.secOk p hp
  · intro q hq
    obtain ⟨p, hp, rfl⟩ := hmem q hq
    by_cases he : p.ref = pf
    · exact (isEmpty_eq_false_iff _).mpr
        ⟨k, f.ref, (mem_linkAt p pf f.ref f.ref k).mpr (Or.inr ⟨he, rfl, rfl⟩)⟩
    · rw [PidFilter.linkAt, if_neg he]
      exact hne p hp he

end

end MediaModules.Demux
