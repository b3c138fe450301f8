import Mathlib.Tactic.Common
import Mathlib.Data.Fintype.Pi
import MediaModules.Lib.Buffer
import MediaModules.Demux.TsParser

/-!
# The software demux: data model

Filters of two kinds hang off PID filters that are created and destroyed on demand.
A pointer is a number; the record it points to sits in the list it is linked in.
-/
namespace MediaModules.Demux

open MediaModules.Lib.Buffer

/-- The address of a filter or a PID filter. -/
abbrev Ref := Nat

/-- `struct swdmx_cb_entry`. -/
structure CbEntry where
  cb : Nat
  data : Nat
  deriving Repr, DecidableEq

/-- `enum swdmx_filter_state`. -/
inductive FilterState
  | init
  | set
  | run
  deriving Repr, DecidableEq

/-- `SWDMX_SEC_FILTER_LEN`. -/
abbrev secFilterLen : Nat := 16

/-- `struct swdmx_tsfilter_params`. -/
structure TsParams where
  pid : UInt16
  deriving Repr, DecidableEq

/-- `struct swdmx_secfilter_params`. -/
structure SecParams where
  pid : UInt16
  crc32 : UInt8
  value : Fin secFilterLen → UInt8
  mask : Fin secFilterLen → UInt8
  mode : Fin secFilterLen → UInt8
  deriving DecidableEq

/-- The parameters of a section filter and the arrays computed from them. -/
structure SecConfig where
  params : SecParams
  value : Fin (secFilterLen + 2) → UInt8
  mam : Fin (secFilterLen + 2) → UInt8
  manm : Fin (secFilterLen + 2) → UInt8
  deriving DecidableEq

/-- The two kinds of filter. -/
inductive Kind
  | ts
  | sec
  deriving Repr, DecidableEq

/-- What a filter of each kind is configured with. -/
def Config : Kind → Type
  | .ts => TsParams
  | .sec => SecConfig

/-- `filter->params.pid`. -/
def Config.pid : {k : Kind} → Config k → UInt16
  | .ts, c => TsParams.pid c
  | .sec, c => (SecConfig.params c).pid

/-- `struct swdmx_tsfilter` and `struct swdmx_secfilter`. -/
structure Filter (k : Kind) where
  ref : Ref
  state : FilterState
  pidFilter : Option Ref
  config : Config k
  cbList : List CbEntry

abbrev TsFilter := Filter .ts
abbrev SecFilter := Filter .sec

/-- The size of the section buffer, `4096 + 3`. -/
abbrev secDataSize : Nat := 4099

/-- `sec_data` and `sec_recv` of a PID filter. -/
structure SecState where
  secData : Option (Block UInt8 secDataSize)
  secRecv : Nat

/-- `struct swdmx_pid_filter`. `filterList .ts` is `ts_filter_list` and `filterList .sec`
is `sec_filter_list`: the filters linked in, in order. -/
structure PidFilter where
  ref : Ref
  pid : UInt16
  filterList : Kind → List Ref
  sec : SecState

/-- `struct swdmx_demux`, and the address the next allocation returns. -/
structure Dmx where
  pidFilterList : List PidFilter
  filterList : (k : Kind) → List (Filter k)
  next : Ref

end MediaModules.Demux
