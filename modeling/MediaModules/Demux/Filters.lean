import Mathlib.Tactic.Common
import MediaModules.Lib.Run
import MediaModules.Demux.Section

/-!
# The filters of a software demux

`swdmx_demux_alloc_*`, the setters, enable, disable and free of both filter kinds, and the
packet callback. The two kinds differ in the PIDs they accept and in what the setter
computes; the rest is one definition with the kind as a parameter. A failed assertion spins
for ever, and it and the use of a dangling pointer are `none`.
-/
namespace MediaModules.Demux

open MediaModules.Lib.Buffer MediaModules.Lib.Run

/-! ## Parameters -/

/-- What the setter of each kind is given. -/
def Params : Kind → Type
  | .ts => TsParams
  | .sec => SecParams

def Params.pid : {k : Kind} → Params k → UInt16
  | .ts, p => TsParams.pid p
  | .sec, p => SecParams.pid p

/-- `swdmx_is_valid_pid`. -/
def isValidPid (pid : UInt16) : Bool := decide (pid ≤ 0x1fff)

/-- The PIDs accepted by `swdmx_ts_filter_set_params` and `swdmx_sec_filter_set_params`. -/
def Params.valid : {k : Kind} → Params k → Bool
  | .ts, p => !decide (TsParams.pid p > 0x2000)
  | .sec, p => !(!isValidPid (SecParams.pid p) || decide (SecParams.pid p = 0x1fff))

/-- What the setter stores. -/
def Params.config : {k : Kind} → Params k → Config k
  | .ts, p => p
  | .sec, p => secConfigOf p

@[simp] theorem Params.config_pid {k : Kind} (p : Params k) : p.config.pid = p.pid := by
  cases k <;> rfl

/-- `SWDMX_OK` and `SWDMX_ERR`. -/
inductive Ret
  | ok
  | err
  deriving Repr, DecidableEq

/-! ## Lists of the demux -/

/-- The filter at an address. -/
def Dmx.filter? (dmx : Dmx) (k : Kind) (ref : Ref) : Option (Filter k) :=
  (dmx.filterList k).find? fun f => f.ref = ref

/-- Write the fields of a filter back. -/
def Dmx.setFilter (dmx : Dmx) {k : Kind} (f : Filter k) : Dmx :=
  { dmx with
    filterList := Function.update dmx.filterList k
      ((dmx.filterList k).map fun g => if g.ref = f.ref then f else g) }

/-- `swdmx_list_remove(&filter->pid_ln)`. -/
def PidFilter.unlink (k : Kind) (ref : Ref) (p : PidFilter) : PidFilter :=
  { p with filterList := Function.update p.filterList k ((p.filterList k).erase ref) }

/-- `swdmx_list_append` of the filter's `pid_ln` to the list of its kind. -/
def PidFilter.link (k : Kind) (ref : Ref) (p : PidFilter) : PidFilter :=
  { p with filterList := Function.update p.filterList k (p.filterList k ++ [ref]) }

def Dmx.unlink (dmx : Dmx) (k : Kind) (ref : Ref) : Dmx :=
  { dmx with pidFilterList := dmx.pidFilterList.map (PidFilter.unlink k ref) }

def Dmx.link (dmx : Dmx) (k : Kind) (pf ref : Ref) : Dmx :=
  { dmx with
    pidFilterList := dmx.pidFilterList.map fun p => if p.ref = pf then p.link k ref else p }

/-- `pid_filter_get`. -/
def pidFilterGet (dmx : Dmx) (pid : UInt16) : Dmx × Ref :=
  match dmx.pidFilterList.find? fun f => f.pid = pid with
  | some f => (dmx, f.ref)
  | none =>
    ({ dmx with
        pidFilterList := dmx.pidFilterList ++ [⟨dmx.next, pid, fun _ => [], ⟨none, 0⟩⟩]
        next := dmx.next + 1 }, dmx.next)

/-- Both lists of a PID filter are empty. -/
def PidFilter.isEmpty (p : PidFilter) : Bool :=
  (p.filterList .ts).isEmpty && (p.filterList .sec).isEmpty

/-- `pid_filter_remove`. -/
def pidFilterRemove (dmx : Dmx) (pf : Ref) : Dmx :=
  { dmx with pidFilterList := dmx.pidFilterList.filter fun p => !(p.ref = pf && p.isEmpty) }

/-! ## The operations -/

/-- `swdmx_demux_new`. -/
def swdmxDemuxNew : Dmx := ⟨[], fun _ => [], 0⟩

/-- Allocation of a filter. `config` is what the fresh memory holds. -/
def filterAlloc (k : Kind) (config : Config k) (dmx : Dmx) : Dmx :=
  let f : Filter k := ⟨dmx.next, .init, none, config, []⟩
  { dmx with
    filterList := Function.update dmx.filterList k (dmx.filterList k ++ [f])
    next := dmx.next + 1 }

/-- First part of a setter: a running filter whose PID changes leaves its PID filter. -/
def filterLeave {k : Kind} (dmx : Dmx) (f : Filter k) (pid : UInt16) :
    Option (Dmx × Filter k) :=
  if f.state = .run then do
    let pf ← f.pidFilter
    if f.config.pid ≠ pid then
      some (pidFilterRemove (dmx.unlink k f.ref) pf, { f with pidFilter := none })
    else some (dmx, f)
  else some (dmx, f)

/-- Last part of a setter: a running filter without a PID filter joins one. -/
def filterJoin {k : Kind} (dmx : Dmx) (f : Filter k) (pid : UInt16) : Dmx × Filter k :=
  if f.state = .run ∧ f.pidFilter = none then
    let (dmx, pf) := pidFilterGet dmx pid
    (dmx.link k pf f.ref, { f with pidFilter := some pf })
  else (dmx, f)

/-- The setter of the parameters. -/
def filterSetParams (k : Kind) (ref : Ref) (params : Params k) (dmx : Dmx) :
    Option (Dmx × Ret) := do
  let f ← dmx.filter? k ref
  if params.valid = false then some (dmx, .err)
  else do
    let (dmx, f) ← filterLeave dmx f params.pid
    let f : Filter k :=
      { f with config := params.config, state := if f.state = .init then .set else f.state }
    let (dmx, f) := filterJoin dmx f params.pid
    some (dmx.setFilter f, .ok)

def filterEnable (k : Kind) (ref : Ref) (dmx : Dmx) : Option (Dmx × Ret) := do
  let f ← dmx.filter? k ref
  match f.state with
  | .init => some (dmx, .err)
  | .set =>
    let (dmx, pf) := pidFilterGet dmx f.config.pid
    some ((dmx.link k pf ref).setFilter { f with pidFilter := some pf, state := .run }, .ok)
  | .run => some (dmx, .ok)

def filterDisable (k : Kind) (ref : Ref) (dmx : Dmx) : Option (Dmx × Ret) := do
  let f ← dmx.filter? k ref
  if f.state = .run then do
    let pf ← f.pidFilter
    some ((pidFilterRemove (dmx.unlink k ref) pf).setFilter
      { f with pidFilter := none, state := .set }, .ok)
  else some (dmx, .ok)

def filterFree (k : Kind) (ref : Ref) (dmx : Dmx) : Option Dmx := do
  let (dmx, _) ← filterDisable k ref dmx
  some { dmx with
    filterList := Function.update dmx.filterList k
      ((dmx.filterList k).filter fun f => f.ref ≠ ref) }

/-- `swdmx_cb_list_add`. -/
def cbListAdd (ce : CbEntry) (l : List CbEntry) : List CbEntry := l ++ [ce]

/-- `swdmx_cb_list_remove`: the first entry with the function and the data. -/
def cbListRemove (ce : CbEntry) (l : List CbEntry) : List CbEntry := l.erase ce

def filterCbList (k : Kind) (ref : Ref) (change : List CbEntry → List CbEntry) (dmx : Dmx) :
    Option (Dmx × Ret) := do
  let f ← dmx.filter? k ref
  some (dmx.setFilter { f with cbList := change f.cbList }, .ok)

/-! The functions of the source. -/

def swdmxDemuxAllocTsFilter := filterAlloc .ts
def swdmxDemuxAllocSecFilter := filterAlloc .sec
def swdmxTsFilterSetParams := filterSetParams .ts
def swdmxSecFilterSetParams := filterSetParams .sec
def swdmxTsFilterEnable := filterEnable .ts
def swdmxSecFilterEnable := filterEnable .sec
def swdmxTsFilterDisable := filterDisable .ts
def swdmxSecFilterDisable := filterDisable .sec
def swdmxTsFilterFree := filterFree .ts
def swdmxSecFilterFree := filterFree .sec
def swdmxTsFilterAddTsPacketCb (ref : Ref) (ce : CbEntry) := filterCbList .ts ref (cbListAdd ce)
def swdmxTsFilterRemoveTsPacketCb (ref : Ref) (ce : CbEntry) :=
  filterCbList .ts ref (cbListRemove ce)
def swdmxSecFilterAddSectionCb (ref : Ref) (ce : CbEntry) := filterCbList .sec ref (cbListAdd ce)
def swdmxSecFilterRemoveSectionCb (ref : Ref) (ce : CbEntry) :=
  filterCbList .sec ref (cbListRemove ce)

/-- A packet goes to a PID filter with its PID or with the all-PID value. -/
def PidFilter.takes (pkt : Tspacket) (p : PidFilter) : Bool :=
  decide (pkt.pid = p.pid ∨ p.pid = 0x2000)

/-- `swdmx_demux_ts_packet_cb`: the loop is left at the first PID filter that takes the
packet. -/
def swdmxDemuxTsPacketCb (heap : Block UInt8 secDataSize) (pkt : Tspacket) (dmx : Dmx) :
    Option (Dmx × Output) :=
  match dmx.pidFilterList.find? (PidFilter.takes pkt) with
  | none => some (dmx, ⟨[], []⟩)
  | some p => do
    let tsFilters ← (p.filterList .ts).mapM (dmx.filter? .ts)
    let secFilters ← (p.filterList .sec).mapM (dmx.filter? .sec)
    let (out, sec) ← pidFilterData heap tsFilters secFilters p.sec pkt
    some ({ dmx with
      pidFilterList := dmx.pidFilterList.map fun q => if q.ref = p.ref then { q with sec := sec }
        else q }, out)

/-! ## Runs -/

/-- The calls a demux receives. -/
inductive Op
  | alloc (k : Kind) (config : Config k)
  | setParams (k : Kind) (ref : Ref) (params : Params k)
  | enable (k : Kind) (ref : Ref)
  | disable (k : Kind) (ref : Ref)
  | free (k : Kind) (ref : Ref)
  | addCb (k : Kind) (ref : Ref) (ce : CbEntry)
  | removeCb (k : Kind) (ref : Ref) (ce : CbEntry)
  | packet (heap : Block UInt8 secDataSize) (pkt : Tspacket)

def step (dmx : Dmx) : Op → Option Dmx
  | .alloc k config => some (filterAlloc k config dmx)
  | .setParams k ref params => (filterSetParams k ref params dmx).map Prod.fst
  | .enable k ref => (filterEnable k ref dmx).map Prod.fst
  | .disable k ref => (filterDisable k ref dmx).map Prod.fst
  | .free k ref => filterFree k ref dmx
  | .addCb k ref ce => (filterCbList k ref (cbListAdd ce) dmx).map Prod.fst
  | .removeCb k ref ce => (filterCbList k ref (cbListRemove ce) dmx).map Prod.fst
  | .packet heap pkt => (swdmxDemuxTsPacketCb heap pkt dmx).map Prod.fst

/-- A state some sequence of calls leads to. -/
def Reachable (dmx : Dmx) : Prop := Reaches step swdmxDemuxNew dmx

end MediaModules.Demux
