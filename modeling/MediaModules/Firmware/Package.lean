import MediaModules.Lib.Memory
import MediaModules.Lib.Run

/-!
# Firmware packages

A package file is a head of 256 bytes and a chain of entries: a head with the name, the format and
the length of what follows, and then that many bytes, which are a firmware with a head of its own.
The parser walks the chain twice, the first time to take the firmwares over into the list of the
manager, the second time to complete those that are duplicates of others. A read or a write outside
the file, or outside the memory allocated for a firmware, is undefined.
-/
namespace MediaModules.Firmware

open Lib.Memory Lib.Run

def ascii (s : String) : List UInt8 := s.toList.map fun c => UInt8.ofNat c.toNat

/-- `TAG`. -/
def tag (a b c d : Char) : Nat := a.toNat * 16777216 + b.toNat * 65536 + c.toNat * 256 + d.toNat

def FIRMWARE_MAX : Nat := 4294967295
def FIRMWARE_SIZE : Int := 65536
def PATH_MAX : Nat := 4096
def DIR : List UInt8 := ascii "video"
def VIDEO_FW_FILE : Nat := 1
def ENOMEM : Int := 12

/-- The rounds of a loop that counts `TRY_PARSE_MAX` down after its body. -/
abbrev TRY_ROUNDS : Nat := 257

/-- The value an `int` takes. -/
def s32 (x : Int) : Int := (x + 2147483648) % 4294967296 - 2147483648

/-- `struct format_name_s`. -/
structure FormatName where
  format : Nat
  name : List UInt8
  formatMask : Nat

/-- `format_name`. -/
def formatName : List FormatName :=
  [⟨0, ascii "mpeg12", 2 ^ 0⟩, ⟨tag 'M' '1' '2' 'M', ascii "mpeg12_multi", 2 ^ 1⟩,
    ⟨1, ascii "mpeg4_3", 2 ^ 2⟩, ⟨2, ascii "mpeg4_4", 2 ^ 3⟩,
    ⟨tag 'M' '4' '4' 'M', ascii "mpeg4_4_multi", 2 ^ 4⟩, ⟨3, ascii "xvid", 2 ^ 5⟩,
    ⟨tag 'M' '4' '5' 'M', ascii "xvid_multi", 2 ^ 6⟩, ⟨4, ascii "h263", 2 ^ 7⟩,
    ⟨tag '2' '6' '3' 'M', ascii "h263_multi", 2 ^ 8⟩, ⟨5, ascii "mjpeg", 2 ^ 9⟩,
    ⟨6, ascii "mjpeg_multi", 2 ^ 10⟩, ⟨7, ascii "real_v8", 2 ^ 11⟩, ⟨8, ascii "real_v9", 2 ^ 12⟩,
    ⟨9, ascii "vc1", 2 ^ 13⟩, ⟨32, ascii "vc1_g12a", 2 ^ 14⟩, ⟨10, ascii "avs", 2 ^ 15⟩,
    ⟨28, ascii "avs_gxm", 2 ^ 16⟩, ⟨29, ascii "avs_no_cabac", 2 ^ 17⟩,
    ⟨tag 'A' 'V' 'S' 'M', ascii "avs_multi", 2 ^ 18⟩, ⟨11, ascii "h264", 2 ^ 19⟩,
    ⟨14, ascii "h264_mvc", 2 ^ 20⟩, ⟨31, ascii "h264_mvc_gxm", 2 ^ 21⟩,
    ⟨15, ascii "h264_multi", 2 ^ 22⟩, ⟨23, ascii "h264_multi_mmu", 2 ^ 23⟩,
    ⟨30, ascii "h264_multi_gxm", 2 ^ 24⟩, ⟨16, ascii "hevc", 2 ^ 25⟩,
    ⟨17, ascii "hevc_mmu", 2 ^ 26⟩, ⟨tag '2' '6' '5' 'S', ascii "hevc_mmu_swap", 2 ^ 27⟩,
    ⟨24, ascii "hevc_g12a", 2 ^ 28⟩, ⟨18, ascii "vp9", 2 ^ 29⟩, ⟨19, ascii "vp9_mmu", 2 ^ 30⟩,
    ⟨25, ascii "vp9_g12a", 2 ^ 31⟩, ⟨26, ascii "avs2", 2 ^ 32⟩, ⟨27, ascii "avs2_mmu", 2 ^ 33⟩,
    ⟨tag 'A' 'V' '1' 'M', ascii "av1_mmu", 2 ^ 34⟩,
    ⟨tag 'A' 'V' '1' 'S', ascii "av1_mmu_swap", 2 ^ 35⟩,
    ⟨tag 'A' 'V' 'S' '3', ascii "avs3_mmu", 2 ^ 36⟩,
    ⟨tag '2' '6' '5' 'F', ascii "hevc_front", 2 ^ 37⟩,
    ⟨tag '2' '6' '5' 'B', ascii "hevc_back", 2 ^ 38⟩,
    ⟨tag 'V' 'P' '9' 'F', ascii "vp9_front", 2 ^ 39⟩,
    ⟨tag 'V' 'P' '9' 'B', ascii "vp9_back", 2 ^ 40⟩,
    ⟨tag 'A' 'V' '1' 'F', ascii "av1_front", 2 ^ 41⟩,
    ⟨tag 'A' 'V' '1' 'B', ascii "av1_back", 2 ^ 42⟩,
    ⟨tag 'A' 'S' '2' 'F', ascii "avs2_front", 2 ^ 43⟩,
    ⟨tag 'A' 'S' '2' 'B', ascii "avs2_back", 2 ^ 44⟩,
    ⟨tag 'A' 'S' '3' 'F', ascii "avs3_front", 2 ^ 45⟩,
    ⟨tag 'A' 'S' '3' 'B', ascii "avs3_back", 2 ^ 46⟩, ⟨20, ascii "h264_enc", 2 ^ 47⟩,
    ⟨21, ascii "jpeg_enc", 2 ^ 48⟩, ⟨tag 'H' '2' '6' '6', ascii "h266_mmu", 2 ^ 49⟩,
    ⟨FIRMWARE_MAX, ascii "unknown", 0⟩]

/-- `struct cpu_type_s`. -/
structure CpuType where
  type : Int
  name : List UInt8

/-- `cpu_type`. -/
def cpuType : List CpuType :=
  [⟨0x21, ascii "gxl"⟩, ⟨0x22, ascii "gxm"⟩, ⟨0x23, ascii "txl"⟩, ⟨0x24, ascii "txlx"⟩,
    ⟨0x25, ascii "axg"⟩, ⟨0x26, ascii "gxlx"⟩, ⟨0x27, ascii "txhd"⟩, ⟨0x28, ascii "g12a"⟩,
    ⟨0x29, ascii "g12b"⟩, ⟨0x2a, ascii "gxlx2"⟩, ⟨0x2b, ascii "sm1"⟩, ⟨0x2e, ascii "tl1"⟩,
    ⟨0x2f, ascii "tm2"⟩, ⟨0x30, ascii "c1"⟩, ⟨0x32, ascii "sc2"⟩, ⟨0x33, ascii "c2"⟩,
    ⟨0x34, ascii "t5"⟩, ⟨0x35, ascii "t5d"⟩, ⟨0x36, ascii "t7"⟩, ⟨0x37, ascii "s4"⟩,
    ⟨0x38, ascii "t3"⟩, ⟨0x39, ascii "p1"⟩, ⟨0x3a, ascii "s4d"⟩, ⟨0x3e, ascii "s5"⟩,
    ⟨0x3f, ascii "gxlx3"⟩, ⟨0x41, ascii "t5m"⟩, ⟨0x42, ascii "t3x"⟩, ⟨0x44, ascii "txhd2"⟩,
    ⟨0x45, ascii "s1a"⟩, ⟨0x46, ascii "s7"⟩, ⟨0x47, ascii "s7d"⟩, ⟨0x48, ascii "s6"⟩,
    ⟨0x49, ascii "t6d"⟩]

/-! ## Fields

`sizeof(struct package_s)` and `sizeof(struct package_info_s)` are 256, `sizeof(struct firmware_s)`
is 512. -/

def PACKAGE_HEAD : Int := 256
def INFO_HEAD : Int := 256
abbrev FIRMWARE_HEAD : Nat := 512

/-- `sizeof(struct fw_info_s)`. -/
def FW_INFO_SIZE : Int := 96

def INFO_FORMAT : Int := 32
def INFO_LENGTH : Int := 96
def HEAD_CHECKSUM : Int := 4
def HEAD_CPU : Int := 40
def HEAD_FORMAT : Int := 56
def HEAD_DATA_SIZE : Int := 200
def HEAD_DUPLICATE : Int := 224

/-- `struct fw_info_s`. The data is the memory allocated for the firmware. -/
structure FwInfo where
  name : List UInt8
  srcFrom : List UInt8
  fileType : Nat
  format : Nat
  data : List UInt8

/-- `struct fw_files_s`. -/
structure FwFiles where
  fileType : Nat
  name : List UInt8

/-- What the parser finds set: the sizes `kzalloc` serves, whether `__getname` does, the processor,
the mask of the formats to load, the kind of the package, and whether the firmwares are loaded by the
trusted side. A negative size is an enormous one to `kzalloc`. -/
structure FwConfig where
  kzalloc : Int → Bool
  kzalloc_neg : ∀ n < 0, kzalloc n = false
  getname : Bool := true
  curCpu : Int
  fwMask : Nat
  newPackage : Bool
  tee : Bool

/-! ## Lookups and checks -/

/-- The loops of `get_fw_format` and `fw_get_cpu`, in which the last match counts. -/
def lookup {α : Type} (name : α → List UInt8) (b : List UInt8) (off : Int) :
    List α → Option α → Option (Option α)
  | [], found => some found
  | e :: rest, found => do
    if ← sameString b off (name e) then lookup name b off rest (some e)
    else lookup name b off rest found

/-- `get_fw_format`. -/
def getFwFormat (b : List UInt8) (off : Int) : Option Nat :=
  (lookup FormatName.name b off formatName none).map fun found => (found.map (·.format)).getD FIRMWARE_MAX

/-- `fw_get_cpu`. -/
def fwGetCpu (b : List UInt8) (off : Int) : Option Int :=
  (lookup CpuType.name b off cpuType none).map fun found => (found.map (·.type)).getD 0

/-- The loop of `fw_check_need_load`, in which the first match counts. A format that is in no entry is
reported by its name, which is read to its end, and loaded. -/
def checkNeedLoad (fwMask : Nat) (b : List UInt8) (off : Int) : List FormatName → Option Bool
  | [] => (readString b off).map fun _ => true
  | e :: rest => do
    if ← sameString b off e.name then return fwMask &&& e.formatMask ≠ 0
    else checkNeedLoad fwMask b off rest

/-- `fw_check_need_load`. -/
def fwCheckNeedLoad (cfg : FwConfig) (b : List UInt8) (off : Int) : Option Bool :=
  checkNeedLoad cfg.fwMask b off formatName

/-- One bit of `crc32_le`. -/
def crcBit (crc : UInt32) : UInt32 :=
  if crc &&& 1 ≠ 0 then (crc >>> 1) ^^^ 0xedb88320 else crc >>> 1

/-- `crc32_le`. -/
def crc32Le (crc : UInt32) (p : List UInt8) : UInt32 :=
  p.foldl (fun crc byte => (List.range 8).foldl (fun crc _ => crcBit crc) (crc ^^^ byte.toUInt32)) crc

/-- The check sum is that of these bytes. -/
def sumMatches (checksum : Int) (bytes : List UInt8) : Bool :=
  UInt32.ofInt checksum = crc32Le 0xffffffff bytes ^^^ 0xffffffff

/-- The value a `size_t` takes. -/
def sizeT (x : Int) : Nat := (x % 18446744073709551616).toNat

/-- `fw_data_check_sum`. -/
def fwDataCheckSum (data : List UInt8) : Option Bool := do
  let size ← readInt data HEAD_DATA_SIZE
  let bytes ← readAll data FIRMWARE_HEAD (sizeT size)
  let checksum ← readInt data HEAD_CHECKSUM
  return sumMatches checksum bytes

/-- The loop of `fw_data_filter` over the firmwares already there: older ones of the format go, and
the new one is refused when there is a newer one, or one from a file of its own. -/
def filterList (cpu : Int) (format : Nat) : List FwInfo → Option (Int × List FwInfo)
  | [] => some (0, [])
  | info :: rest => do
    if info.format ≠ format then
      let (ret, rest) ← filterList cpu format rest
      return (ret, info :: rest)
    else if info.fileType = VIDEO_FW_FILE then return (1, info :: rest)
    else
      let other ← fwGetCpu info.data HEAD_CPU
      if cpu < other then return (1, info :: rest) else filterList cpu format rest

/-- `fw_data_filter`. -/
def fwDataFilter (cfg : FwConfig) (data : List UInt8) (format : Nat) (infos : List FwInfo) :
    Option (Int × List FwInfo) := do
  let cpu ← fwGetCpu data HEAD_CPU
  if cfg.curCpu < cpu then return (-1, infos)
  else if format = FIRMWARE_MAX then return (0, infos)
  else
    let need ← fwCheckNeedLoad cfg data HEAD_FORMAT
    if need then filterList cpu format infos else return (1, infos)

/-! ## The walks -/

/-- Where the parser stands: in the first walk at an entry, behind it, in the second walk at an entry,
or behind that. -/
inductive Place
  | parse (off : Int)
  | parsed
  | replace (off : Int)
  | out
deriving DecidableEq, Repr

/-- The parser and the list of the manager. -/
structure FwState where
  place : Place
  infos : List FwInfo
  ret : Int := 0

/-- A firmware taken over is put at the front of the list; for the trusted side its head is enough. -/
def addInfo (cfg : FwConfig) (info : FwInfo) (off : Int) (infos : List FwInfo) : Option FwState :=
  if cfg.tee then
    if cfg.kzalloc FIRMWARE_HEAD then do
      let head ← read info.data 0 FIRMWARE_HEAD
      return { place := .parse off, infos := { info with data := head } :: infos }
    else some { place := .out, infos := infos, ret := -ENOMEM }
  else some { place := .parse off, infos := info :: infos }

/-- Duplicates, and the firmwares of a new package, are taken over without the check. -/
def sumAccepted (cfg : FwConfig) (duplicate : Int) (data : List UInt8) : Option Bool :=
  if duplicate = 0 ∧ cfg.newPackage = false then fwDataCheckSum data else some true

/-- A firmware copied out of the package is checked, filtered and taken over. The entry after it is at
`off`. -/
def takeFirmware (cfg : FwConfig) (info : FwInfo) (off : Int) (infos : List FwInfo) :
    Option FwState := do
  let duplicate ← readInt info.data HEAD_DUPLICATE
  let good ← sumAccepted cfg duplicate info.data
  if good then
    let (filtered, infos) ← fwDataFilter cfg info.data info.format infos
    if filtered ≠ 0 then return { place := .parse off, infos := infos }
    else addInfo cfg info off infos
  else return { place := .out, infos := infos }

/-- How many bytes of an entry are copied. -/
def copied (length : Int) : Int := if length > FIRMWARE_SIZE then FIRMWARE_SIZE else length

/-- The data of the entry at `off` is copied into memory of its own. -/
def takeEntry (cfg : FwConfig) (files : FwFiles) (buf : List UInt8) (off length : Int)
    (name : List UInt8) (format : Nat) (infos : List FwInfo) : Option FwState := do
  let data ← read buf (off + INFO_HEAD) (copied length).toNat
  let info : FwInfo :=
    { name := name.take 31
      srcFrom := files.name.take 31
      fileType := files.fileType
      format := format
      data := data }
  takeFirmware cfg info (off + s32 (length + INFO_HEAD)) infos

/-- One round of the loop of `fw_package_parse`. -/
def parseEntry (cfg : FwConfig) (files : FwFiles) (buf : List UInt8) (off : Int)
    (infos : List FwInfo) : Option FwState := do
  let length ← readInt buf (off + INFO_LENGTH)
  if length = 0 then return { place := .parsed, infos := infos }
  else
    let name ← readString buf off
    if DIR.length + 1 + name.length ≥ PATH_MAX then return { place := .parse off, infos := infos }
    else if cfg.kzalloc FW_INFO_SIZE = false then
      return { place := .out, infos := infos, ret := -ENOMEM }
    else
      let format ← getFwFormat buf (off + INFO_FORMAT)
      if cfg.kzalloc (copied length) = false then
        return { place := .out, infos := infos, ret := -ENOMEM }
      else
        takeEntry cfg files buf off length name format infos

/-- A firmware whose data is in the entry at `off`: the data of the entry under the head it has, with
the size of the entry. -/
def completed (buf : List UInt8) (off length : Int) (data : List UInt8) : Option (List UInt8) := do
  let whole ← read buf (off + INFO_HEAD) length.toNat
  let head ← read data 0 FIRMWARE_HEAD
  let whole ← write whole 0 head
  let size ← read buf (off + INFO_HEAD + HEAD_DATA_SIZE) 4
  write whole HEAD_DATA_SIZE size

/-- The firmware is a duplicate of the data in the entry at `off`. -/
def sameFirmware (buf : List UInt8) (off : Int) (data : List UInt8) : Option Bool := do
  let duplicate ← readInt data HEAD_DUPLICATE
  if duplicate = 0 then return false
  else
    let sum ← readInt buf (off + INFO_HEAD + HEAD_CHECKSUM)
    let sum' ← readInt data HEAD_CHECKSUM
    return sum = sum'

/-- The inner loop of `fw_replace_dup_data`, over the list. The flag says that memory ran out. -/
def replaceList (cfg : FwConfig) (buf : List UInt8) (off length : Int) :
    List FwInfo → Option (List FwInfo × Bool)
  | [] => some ([], false)
  | info :: rest => do
    let skip ← readInt buf (off + INFO_HEAD + HEAD_DUPLICATE)
    if skip ≠ 0 then return (info :: rest, false)
    else
      let same ← sameFirmware buf off info.data
      if same then
        if cfg.kzalloc length then
          let data ← completed buf off length info.data
          let (rest, full) ← replaceList cfg buf off length rest
          return ({ info with data := data } :: rest, full)
        else return (info :: rest, true)
      else
        let (rest, full) ← replaceList cfg buf off length rest
        return (info :: rest, full)

/-- One round of the loop of `fw_replace_dup_data`. -/
def replaceEntry (cfg : FwConfig) (buf : List UInt8) (off : Int) (infos : List FwInfo) :
    Option FwState := do
  let length ← readInt buf (off + INFO_LENGTH)
  if length = 0 then return { place := .out, infos := infos }
  else
    let (infos, full) ← replaceList cfg buf off length infos
    if full then return { place := .out, infos := infos, ret := -ENOMEM }
    else return { place := .replace (off + length + INFO_HEAD), infos := infos }

/-- A round of the first walk, what lies between the walks, and a round of the second. -/
inductive Round
  | parse
  | turn
  | replace
deriving DecidableEq, Repr

/-- One round. -/
def fwStep (cfg : FwConfig) (files : FwFiles) (buf : List UInt8) (s : FwState) :
    Round → Option FwState
  | .parse =>
    match s.place with
    | .parse off => parseEntry cfg files buf off s.infos
    | _ => some s
  | .turn =>
    match s.place with
    | .out => some s
    | _ => some { s with place := if cfg.tee then .out else .replace PACKAGE_HEAD }
  | .replace =>
    match s.place with
    | .replace off => replaceEntry cfg buf off s.infos
    | _ => some s

/-- The rounds of `fw_package_parse`. -/
def parseRounds : List Round :=
  List.replicate TRY_ROUNDS .parse ++ .turn :: List.replicate TRY_ROUNDS .replace

/-- The list of the manager. What is in it has been filtered by its head. -/
structure FwMgr where
  infos : List FwInfo := []
  headed : ∀ info ∈ infos, 228 ≤ info.data.length := by exact nofun

/-- The parser before its first round. -/
def fwStart (cfg : FwConfig) (mgr : FwMgr) : FwState :=
  if cfg.getname then { place := .parse PACKAGE_HEAD, infos := mgr.infos }
  else { place := .out, infos := mgr.infos, ret := -ENOMEM }

/-- `fw_package_parse`. -/
def fwPackageParse (cfg : FwConfig) (files : FwFiles) (buf : List UInt8) (mgr : FwMgr) :
    Option FwState :=
  run (fwStep cfg files buf) (fwStart cfg mgr) parseRounds

end MediaModules.Firmware
