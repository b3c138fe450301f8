import MediaModules.Firmware.PackageBounds
import MediaModules.Lib.LastMax
import Mathlib.Data.List.Forall2

/-!
# Which firmwares of a package are kept

Each firmware of a package is held against the list so far, and the newest one of its format stays. The
list is filtered while it is searched, and the duplicates in it are completed afterwards.
-/
namespace MediaModules.Firmware

open Lib.Memory Lib.Run Lib.LastMax

/-! ## Well-formed packages -/

/-- The data of the entry at `off` that is copied. -/
def dataAt (buf : List UInt8) (off : Int) : List UInt8 :=
  slice buf (off + INFO_HEAD) (copied (lengthAt buf off)).toNat

/-- An entry with a name that fits its field and a firmware with a whole head, in which the format ends,
and with the right check sum. -/
structure EntrySound (cfg : FwConfig) (buf : List UInt8) (off : Int) : Prop where
  length : Inside buf (off + INFO_LENGTH) 4
  name : Terminated buf off
  short : (stringAt buf off).length < 32
  headed : FIRMWARE_HEAD ≤ lengthAt buf off
  data : Inside buf (off + INFO_HEAD) (lengthAt buf off).toNat
  format : FormatFits (dataAt buf off)
  sum : SumPasses cfg (dataAt buf off)

/-- The entries follow each other from `off` on, and behind the last one there is an entry without
data. -/
def Chain (cfg : FwConfig) (buf : List UInt8) : Int → List Int → Prop
  | off, [] => Inside buf (off + INFO_LENGTH) 4 ∧ lengthAt buf off = 0
  | off, entry :: entries => entry = off ∧ EntrySound cfg buf off ∧
      Chain cfg buf (off + (lengthAt buf off + INFO_HEAD)) entries

instance (data : List UInt8) : Decidable (FormatFits data) :=
  inferInstanceAs (Decidable (_ ∨ _))

instance (cfg : FwConfig) (buf : List UInt8) (off : Int) : Decidable (EntrySound cfg buf off) :=
  decidable_of_iff
    (Inside buf (off + INFO_LENGTH) 4 ∧ Terminated buf off ∧ (stringAt buf off).length < 32 ∧
      FIRMWARE_HEAD ≤ lengthAt buf off ∧ Inside buf (off + INFO_HEAD) (lengthAt buf off).toNat ∧
      FormatFits (dataAt buf off) ∧
      sumAccepted cfg (intAt (dataAt buf off) HEAD_DUPLICATE) (dataAt buf off) = some true)
    ⟨fun ⟨h1, h2, h3, h4, h5, h6, h7⟩ => ⟨h1, h2, h3, h4, h5, h6, h7⟩,
      fun h => ⟨h.length, h.name, h.short, h.headed, h.data, h.format, h.sum⟩⟩

instance Chain.decidable (cfg : FwConfig) (buf : List UInt8) :
    (off : Int) → (entries : List Int) → Decidable (Chain cfg buf off entries)
  | _, [] => inferInstanceAs (Decidable (_ ∧ _))
  | off, _ :: entries =>
    have := Chain.decidable cfg buf (off + (lengthAt buf off + INFO_HEAD)) entries
    inferInstanceAs (Decidable (_ ∧ _ ∧ _))

/-- A package with the entries at these places. -/
structure WellFormed (cfg : FwConfig) (buf : List UInt8) (entries : List Int) : Prop where
  size : buf.length < 2147483648
  chain : Chain cfg buf PACKAGE_HEAD entries
  few : entries.length < TRY_ROUNDS

/-- A piece of memory that the parser asks for is not there. -/
def Denied (cfg : FwConfig) : Prop := cfg.getname = false ∨ ∃ n, 0 ≤ n ∧ cfg.kzalloc n = false

/-! ## What an entry holds -/

/-- The version in the head of a firmware. -/
def cpuOf (data : List UInt8) : Int := (fwGetCpu data HEAD_CPU).getD 0

/-- The format that the head of an entry names. -/
def formatAt (buf : List UInt8) (off : Int) : Nat :=
  (getFwFormat buf (off + INFO_FORMAT)).getD FIRMWARE_MAX

def cpuAt (buf : List UInt8) (off : Int) : Int := cpuOf (dataAt buf off)

/-- The entry has the format, needs loading, and is not for a later processor. -/
def Eligible (cfg : FwConfig) (buf : List UInt8) (format : Nat) (off : Int) : Prop :=
  formatAt buf off = format ∧ fwCheckNeedLoad cfg (dataAt buf off) HEAD_FORMAT = some true ∧
    cpuAt buf off ≤ cfg.curCpu

instance (cfg : FwConfig) (buf : List UInt8) (format : Nat) (off : Int) :
    Decidable (Eligible cfg buf format off) :=
  inferInstanceAs (Decidable (_ ∧ _))

/-- Heads that read the same up to the size of the data. -/
def SameHead (data data' : List UInt8) : Prop :=
  ∀ o n, 0 ≤ o → o + (n : Nat) ≤ HEAD_DATA_SIZE → read data o n = read data' o n

/-- The firmware is the one of the entry: it has the name of the entry, its format and its head. -/
structure IsFrom (files : FwFiles) (buf : List UInt8) (off : Int) (info : FwInfo) : Prop where
  name : info.name = (stringAt buf off).take 31
  srcFrom : info.srcFrom = files.name.take 31
  fileType : info.fileType = files.fileType
  format : info.format = formatAt buf off
  head : SameHead info.data (dataAt buf off)

/-- The firmwares of a format in the list. -/
def ofFormat (format : Nat) (infos : List FwInfo) : List FwInfo := infos.filter fun info => info.format = format

/-- Of the entries of a format that can be taken, the list holds the last one of the newest; and nothing
when there is none. -/
inductive Kept (cfg : FwConfig) (files : FwFiles) (buf : List UInt8) (format : Nat)
    (infos : List FwInfo) (entries : List Int) : Prop
  | nothing (hinfos : ofFormat format infos = [])
      (hentries : entries.filter (Eligible cfg buf format ·) = [])
  | one (off : Int) (info : FwInfo) (hinfos : ofFormat format infos = [info])
      (hnewest : IsLastMax (cpuAt buf) (entries.filter (Eligible cfg buf format ·)) off)
      (hfrom : IsFrom files buf off info)

variable {cfg : FwConfig} {files : FwFiles} {buf data data' : List UInt8} {off : Int} {format : Nat}
  {infos : List FwInfo}

/-! ## Heads -/

theorem SameHead.refl (data : List UInt8) : SameHead data data := fun _ _ _ _ => rfl

theorem SameHead.trans {data'' : List UInt8} (h : SameHead data data') (h' : SameHead data' data'') :
    SameHead data data'' := fun o n ho hend => (h o n ho hend).trans (h' o n ho hend)

theorem SameHead.cpuOf (h : SameHead data data') : cpuOf data = cpuOf data' := by
  have hlookup : ∀ l : List CpuType, (∀ e ∈ l, e.name.length ≤ 15) → ∀ found,
      lookup CpuType.name data HEAD_CPU l found = lookup CpuType.name data' HEAD_CPU l found := by
    intro l
    induction l with
    | nil => exact fun _ _ => rfl
    | cons e rest ih =>
      intro hshort found
      have hsame : sameString data HEAD_CPU e.name = sameString data' HEAD_CPU e.name := by
        refine sameString_congr e.name fun o hstart hend => h o 1 ?_ ?_
        · simp only [HEAD_CPU] at hstart
          omega
        · have hlen := hshort e List.mem_cons_self
          simp only [HEAD_CPU, HEAD_DATA_SIZE] at hend ⊢
          omega
      have hrest := ih fun e' he' => hshort e' (List.mem_cons_of_mem _ he')
      simp only [lookup, hsame, hrest]
  rw [Firmware.cpuOf, Firmware.cpuOf, fwGetCpu, fwGetCpu, hlookup cpuType cpuType_short]

theorem IsFrom.cpuOf {info : FwInfo} (h : IsFrom files buf off info) :
    cpuOf info.data = cpuAt buf off := h.head.cpuOf

/-! ## The filter -/

theorem fwGetCpu_eq (h : 228 ≤ data.length) : fwGetCpu data HEAD_CPU = some (cpuOf data) := by
  obtain ⟨cpu, hcpu⟩ := fwGetCpu_some
    (head_inside h (o := HEAD_CPU) (n := 16) (by decide) (by decide))
  rw [cpuOf, hcpu]
  rfl

/-- When the firmwares of the format are no newer they go. -/
theorem filterList_older {cpu : Int} (hinfos : Headed infos)
    (holder : ∀ info ∈ infos, info.format = format →
      info.fileType ≠ VIDEO_FW_FILE ∧ cpuOf info.data ≤ cpu) :
    filterList cpu format infos = some (0, infos.filter fun info => info.format ≠ format) := by
  induction infos with
  | nil => rfl
  | cons info rest ih =>
    have hhead := fwGetCpu_eq (hinfos info List.mem_cons_self)
    have hrest := ih (fun i hi => hinfos i (List.mem_cons_of_mem _ hi))
      fun i hi => holder i (List.mem_cons_of_mem _ hi)
    rw [filterList, hrest]
    by_cases hf : info.format = format
    · obtain ⟨htype, hcpu⟩ := holder info List.mem_cons_self hf
      simp [hf, htype, hhead, not_lt.mpr hcpu]
    · simp [hf]

theorem filterList_newer {cpu : Int} {info : FwInfo} (hinfos : Headed infos)
    (hone : ofFormat format infos = [info]) (hnewer : cpu < cpuOf info.data) :
    filterList cpu format infos = some (1, infos) := by
  induction infos with
  | nil => cases hone
  | cons i rest ih =>
    rw [filterList]
    by_cases hf : i.format = format
    · rw [ofFormat, List.filter_cons_of_pos (by simpa using hf)] at hone
      obtain ⟨rfl, -⟩ := List.cons.inj hone
      have hhead := fwGetCpu_eq (hinfos i List.mem_cons_self)
      simp [hf, hhead, hnewer]
    · rw [ofFormat, List.filter_cons_of_neg (by simpa using hf)] at hone
      simp [hf, ih (fun j hj => hinfos j (List.mem_cons_of_mem _ hj)) hone]

/-- What the filter says of the entry at `off`: whether it is refused, and which firmwares are left. -/
inductive Verdict (cfg : FwConfig) (buf : List UInt8) (off : Int) (infos : List FwInfo) :
    Int × List FwInfo → Prop
  | refused (ret : Int) (hret : ret ≠ 0) (hno : ¬ Eligible cfg buf (formatAt buf off) off) :
    Verdict cfg buf off infos (ret, infos)
  | newer (info : FwInfo) (hone : ofFormat (formatAt buf off) infos = [info])
    (hnewer : cpuAt buf off < cpuOf info.data) : Verdict cfg buf off infos (1, infos)
  | older (hnewest : Eligible cfg buf (formatAt buf off) off)
    (holder : ∀ info ∈ ofFormat (formatAt buf off) infos, cpuOf info.data ≤ cpuAt buf off) :
    Verdict cfg buf off infos (0, infos.filter fun info => info.format ≠ formatAt buf off)
  | unfiltered (hmax : formatAt buf off = FIRMWARE_MAX) : Verdict cfg buf off infos (0, infos)

/-- The firmwares in the list are from files of the kind, and have whole heads. -/
def Ours (files : FwFiles) (infos : List FwInfo) : Prop :=
  ∀ info ∈ infos, info.fileType = files.fileType ∧ FIRMWARE_HEAD ≤ info.data.length

theorem Ours.headed (h : Ours files infos) : Headed infos := fun info hinfo => by
  have hlen := (h info hinfo).2
  simp only [FIRMWARE_HEAD] at hlen
  omega

/-! ## What the verdict does to the list -/

theorem ofFormat_cons {info : FwInfo} :
    ofFormat format (info :: infos) =
      if info.format = format then info :: ofFormat format infos else ofFormat format infos := by
  rw [ofFormat, List.filter_cons]
  simp only [decide_eq_true_eq, ofFormat]

theorem ofFormat_others {other : Nat} (h : other ≠ format) :
    ofFormat format (infos.filter fun info => info.format ≠ other) = ofFormat format infos := by
  rw [ofFormat, List.filter_filter, ofFormat]
  refine List.filter_congr fun info _ => ?_
  by_cases hf : info.format = format
  · simp [hf, h.symm]
  · simp [hf]

theorem ofFormat_gone : ofFormat format (infos.filter fun info => info.format ≠ format) = [] := by
  rw [ofFormat, List.filter_filter, List.filter_eq_nil_iff]
  simp

section Step

variable {entries : List Int}

/-- An entry that cannot be taken for the format changes nothing for it, when the firmwares of the format
stay. -/
theorem Kept.passed {infos' : List FwInfo} (h : Kept cfg files buf format infos entries)
    (hinfos : ofFormat format infos' = ofFormat format infos)
    (hno : ¬ Eligible cfg buf format off) : Kept cfg files buf format infos' (entries ++ [off]) := by
  have hsame : (entries ++ [off]).filter (Eligible cfg buf format ·) =
      entries.filter (Eligible cfg buf format ·) := by
    rw [List.filter_append, List.filter_singleton, decide_eq_false hno]
    exact List.append_nil _
  cases h with
  | nothing hnone hentries => exact .nothing (hinfos.trans hnone) (hsame.trans hentries)
  | one off' info hone hnewest hfrom =>
    exact .one off' info (hinfos.trans hone) (hsame ▸ hnewest) hfrom

theorem filter_append_eligible (h : Eligible cfg buf format off) :
    (entries ++ [off]).filter (Eligible cfg buf format ·) =
      entries.filter (Eligible cfg buf format ·) ++ [off] := by
  rw [List.filter_append, List.filter_singleton, decide_eq_true h]
  rfl

theorem Kept.refused {r : Int × List FwInfo} (h : Kept cfg files buf format infos entries)
    (hv : Verdict cfg buf off infos r) (hret : r.1 ≠ 0) : Kept cfg files buf format r.2 (entries ++ [off]) := by
  cases hv with
  | refused ret _ hno =>
    refine h.passed rfl fun helig => hno ?_
    rwa [helig.1]
  | newer info hone hnewer =>
    by_cases helig : Eligible cfg buf format off
    · rw [helig.1] at hone
      cases h with
      | nothing hinfos _ =>
        rw [hone] at hinfos
        cases hinfos
      | one off' info' hinfos hnewest hfrom =>
        obtain rfl := List.singleton_inj.mp (hone.symm.trans hinfos)
        rw [hfrom.cpuOf] at hnewer
        refine .one off' info hone ?_ hfrom
        rw [filter_append_eligible helig]
        exact hnewest.append_lt hnewer
    · exact h.passed rfl helig
  | older _ _ => exact absurd rfl hret
  | unfiltered _ => exact absurd rfl hret

theorem Kept.taken {r : Int × List FwInfo} {info : FwInfo}
    (h : Kept cfg files buf format infos entries) (hmax : format ≠ FIRMWARE_MAX)
    (hv : Verdict cfg buf off infos r) (hret : r.1 = 0) (hfrom : IsFrom files buf off info) :
    Kept cfg files buf format (info :: r.2) (entries ++ [off]) := by
  by_cases hf : formatAt buf off = format
  · subst hf
    cases hv with
    | refused _ hne _ => exact absurd hret hne
    | newer _ _ _ => exact absurd hret one_ne_zero
    | unfiltered hmax' => exact absurd hmax' hmax
    | older helig holder =>
      refine .one off info ?_ ?_ hfrom
      · rw [ofFormat_cons, if_pos hfrom.format, ofFormat_gone]
      · rw [filter_append_eligible helig]
        cases h with
        | nothing _ hentries =>
          rw [hentries]
          exact isLastMax_singleton _ off
        | one off' info' hinfos hnewest hfrom' =>
          refine hnewest.append_le ?_
          rw [← hfrom'.cpuOf]
          exact holder info' (hinfos ▸ List.mem_singleton_self info')
  · have hno : ¬ Eligible cfg buf format off := fun helig => hf helig.1
    have hinfo : ¬ info.format = format := fun h => hf (hfrom.format ▸ h)
    refine h.passed ?_ hno
    rw [ofFormat_cons, if_neg hinfo]
    cases hv with
    | refused _ hne _ => exact absurd hret hne
    | newer _ _ _ => exact absurd hret one_ne_zero
    | unfiltered _ => rfl
    | older _ _ => exact ofFormat_others hf

end Step

/-! ## The first walk -/

section Round

variable {entries : List Int} (hs : EntrySound cfg buf off)
include hs

theorem EntrySound.data_inside :
    Inside buf (off + INFO_HEAD) (copied (lengthAt buf off)).toNat := by
  obtain ⟨hstart, hend⟩ := hs.data
  refine ⟨hstart, ?_⟩
  rw [copied]
  split <;> omega

theorem EntrySound.data_length : FIRMWARE_HEAD ≤ (dataAt buf off).length := by
  have hlen := hs.headed
  have hcopied : (FIRMWARE_HEAD : Int) ≤ copied (lengthAt buf off) := by
    rw [copied]
    split
    · decide
    · exact hlen
  rw [dataAt, slice_length hs.data_inside]
  omega

/-- The filter of a sound entry on a list with one firmware at most of each format. -/
theorem EntrySound.verdict (hours : Ours files infos) (hfile : files.fileType ≠ VIDEO_FW_FILE)
    (hkept : ∀ format, format ≠ FIRMWARE_MAX → Kept cfg files buf format infos entries) :
    ∃ r, fwDataFilter cfg (dataAt buf off) (formatAt buf off) infos = some r ∧
      Verdict cfg buf off infos r := by
  have hlen : 228 ≤ (dataAt buf off).length := le_trans (by decide) hs.data_length
  obtain ⟨need, hneed⟩ := (checkNeedLoad_defined cfg.fwMask formatName_short
    (head_inside hlen (o := HEAD_FORMAT) (n := 16) (by decide) (by decide))).mpr hs.format
  have hload : fwCheckNeedLoad cfg (dataAt buf off) HEAD_FORMAT = some need := hneed
  simp only [fwDataFilter, fwGetCpu_eq hlen, hload, Option.bind_eq_bind, Option.bind_some]
  split
  · next hlater =>
    exact ⟨_, rfl, .refused (-1) (by decide) fun h => absurd h.2.2 (not_le.mpr hlater)⟩
  · next hnow =>
    split
    · next hmax => exact ⟨_, rfl, .unfiltered hmax⟩
    · next hmax =>
      cases need with
      | false =>
        refine ⟨_, rfl, .refused 1 (by decide) fun h => ?_⟩
        have hyes := h.2.1
        rw [hload] at hyes
        cases hyes
      | true =>
        have helig : Eligible cfg buf (formatAt buf off) off := ⟨rfl, hload, not_lt.mp hnow⟩
        by_cases holder : ∀ info ∈ ofFormat (formatAt buf off) infos, cpuOf info.data ≤ cpuAt buf off
        · refine ⟨_, filterList_older hours.headed fun info hinfo hf => ?_, .older helig holder⟩
          exact ⟨(hours info hinfo).1 ▸ hfile,
            holder info (List.mem_filter.mpr ⟨hinfo, decide_eq_true hf⟩)⟩
        · push Not at holder
          obtain ⟨info, hinfo, hnewer⟩ := holder
          have hone : ofFormat (formatAt buf off) infos = [info] := by
            cases hkept (formatAt buf off) hmax with
            | nothing hinfos _ =>
              rw [hinfos] at hinfo
              exact absurd hinfo List.not_mem_nil
            | one _ info' hinfos _ _ =>
              rw [hinfos] at hinfo ⊢
              rw [List.mem_singleton.mp hinfo]
          exact ⟨_, filterList_newer hours.headed hone hnewer, .newer info hone hnewer⟩

/-- The firmware that is made of an entry. -/
def entryInfo (files : FwFiles) (buf : List UInt8) (off : Int) : FwInfo :=
  { name := (stringAt buf off).take 31
    srcFrom := files.name.take 31
    fileType := files.fileType
    format := formatAt buf off
    data := dataAt buf off }

omit hs in
theorem isFrom_entryInfo {data : List UInt8} (h : SameHead data (dataAt buf off)) :
    IsFrom files buf off { entryInfo files buf off with data := data } :=
  ⟨rfl, rfl, rfl, rfl, h⟩

/-- After a round of the first walk there is no memory, or the walk is at the next entry. -/
inductive Walked (cfg : FwConfig) (files : FwFiles) (buf : List UInt8) (off : Int)
    (infos : List FwInfo) : FwState → Prop
  | denied (infos' : List FwInfo) (hmemory : ∃ n, 0 ≤ n ∧ cfg.kzalloc n = false) :
    Walked cfg files buf off infos { place := .out, infos := infos', ret := -ENOMEM }
  | refused (r : Int × List FwInfo) (hv : Verdict cfg buf off infos r) (hret : r.1 ≠ 0) :
    Walked cfg files buf off infos
      { place := .parse (off + (lengthAt buf off + INFO_HEAD)), infos := r.2 }
  | taken (r : Int × List FwInfo) (hv : Verdict cfg buf off infos r) (hret : r.1 = 0) (info : FwInfo)
    (hfrom : IsFrom files buf off info) (hlen : FIRMWARE_HEAD ≤ info.data.length) :
    Walked cfg files buf off infos
      { place := .parse (off + (lengthAt buf off + INFO_HEAD)), infos := info :: r.2 }

theorem EntrySound.addInfo {r : Int × List FwInfo} (hv : Verdict cfg buf off infos r)
    (hret : r.1 = 0) :
    ∃ s, addInfo cfg (entryInfo files buf off) (off + (lengthAt buf off + INFO_HEAD)) r.2 = some s ∧
      Walked cfg files buf off infos s := by
  have hlen := hs.data_length
  have hhead : Inside (dataAt buf off) 0 FIRMWARE_HEAD := ⟨le_rfl, by omega⟩
  rw [Firmware.addInfo]
  split
  · split
    · have hread : read (entryInfo files buf off).data 0 FIRMWARE_HEAD =
          some (slice (dataAt buf off) 0 FIRMWARE_HEAD) := read_some hhead
      rw [hread]
      refine ⟨_, rfl, .taken r hv hret _ (isFrom_entryInfo fun o n ho hend => ?_) ?_⟩
      · rw [read_slice hhead ho (hend.trans (by decide)), zero_add]
      · exact (slice_length hhead).ge
    · next hmemory =>
      exact ⟨_, rfl, .denied r.2 ⟨FIRMWARE_HEAD, by decide, by simpa using hmemory⟩⟩
  · exact ⟨_, rfl, .taken r hv hret _ (isFrom_entryInfo (.refl _)) hlen⟩

theorem EntrySound.takeFirmware (hours : Ours files infos) (hfile : files.fileType ≠ VIDEO_FW_FILE)
    (hkept : ∀ format, format ≠ FIRMWARE_MAX → Kept cfg files buf format infos entries) :
    ∃ s, takeFirmware cfg (entryInfo files buf off) (off + (lengthAt buf off + INFO_HEAD)) infos =
      some s ∧ Walked cfg files buf off infos s := by
  have hlen : 228 ≤ (dataAt buf off).length := le_trans (by decide) hs.data_length
  have hmark : readInt (entryInfo files buf off).data HEAD_DUPLICATE =
      some (intAt (dataAt buf off) HEAD_DUPLICATE) :=
    readInt_some (head_inside hlen (by decide) (by decide))
  have hsum : sumAccepted cfg (intAt (dataAt buf off) HEAD_DUPLICATE)
      (entryInfo files buf off).data = some true := hs.sum
  obtain ⟨r, hr, hv⟩ := hs.verdict hours hfile hkept
  have hfilter : fwDataFilter cfg (entryInfo files buf off).data (entryInfo files buf off).format infos =
      some r := hr
  simp only [Firmware.takeFirmware, hmark, hsum, hfilter, Option.bind_eq_bind, Option.bind_some,
    if_true]
  split
  · next hret => exact ⟨_, rfl, .refused r hv hret⟩
  · next hret => exact hs.addInfo hv (not_not.mp hret)

theorem EntrySound.takeEntry (hsize : buf.length < 2147483648) (hours : Ours files infos)
    (hfile : files.fileType ≠ VIDEO_FW_FILE)
    (hkept : ∀ format, format ≠ FIRMWARE_MAX → Kept cfg files buf format infos entries) :
    ∃ s, takeEntry cfg files buf off (lengthAt buf off) (stringAt buf off) (formatAt buf off) infos =
      some s ∧ Walked cfg files buf off infos s := by
  have hnext : s32 (lengthAt buf off + INFO_HEAD) = lengthAt buf off + INFO_HEAD := by
    have hlen := hs.headed
    have hoff := hs.name.1
    obtain ⟨-, hend⟩ := hs.data
    simp only [s32, INFO_HEAD, FIRMWARE_HEAD] at *
    omega
  rw [Firmware.takeEntry, hnext, read_some hs.data_inside]
  exact hs.takeFirmware hours hfile hkept

/-- A round of the first walk at a sound entry. -/
theorem EntrySound.walked (hsize : buf.length < 2147483648) (hours : Ours files infos)
    (hfile : files.fileType ≠ VIDEO_FW_FILE)
    (hkept : ∀ format, format ≠ FIRMWARE_MAX → Kept cfg files buf format infos entries) :
    ∃ s, parseEntry cfg files buf off infos = some s ∧ Walked cfg files buf off infos s := by
  have hlen := hs.headed
  have hread : readInt buf (off + INFO_LENGTH) = some (lengthAt buf off) := readInt_some hs.length
  have hstring : readString buf off = some (stringAt buf off) := if_pos hs.name
  have hmore : lengthAt buf off ≠ 0 := by
    simp only [FIRMWARE_HEAD] at hlen
    omega
  have hpath : ¬ DIR.length + 1 + (stringAt buf off).length ≥ PATH_MAX := by
    have hshort := hs.short
    have hdir : DIR.length = 5 := by decide
    rw [hdir, PATH_MAX]
    omega
  obtain ⟨format, hf⟩ := format_inside hs.length hs.name
  have hformat : getFwFormat buf (off + INFO_FORMAT) = some (formatAt buf off) := by
    rw [formatAt, hf]
    rfl
  simp only [parseEntry, hread, hstring, hformat, Option.bind_eq_bind, Option.bind_some,
    if_neg hmore, if_neg hpath]
  split
  · next hinfo => exact ⟨_, rfl, .denied infos ⟨FW_INFO_SIZE, by decide, hinfo⟩⟩
  · split
    · next hdata =>
      refine ⟨_, rfl, .denied infos ⟨_, ?_, hdata⟩⟩
      rw [copied]
      split
      · decide
      · omega
    · exact hs.takeEntry hsize hours hfile hkept

end Round

theorem Verdict.ours {r : Int × List FwInfo} (h : Ours files infos)
    (hv : Verdict cfg buf off infos r) : Ours files r.2 := by
  cases hv with
  | refused _ _ _ => exact h
  | newer _ _ _ => exact h
  | older _ _ => exact fun info hinfo => h info (List.mem_of_mem_filter hinfo)
  | unfiltered _ => exact h

/-- A walk has come to the end of the package with what is to be kept, or has run out of memory. -/
inductive Ended (cfg : FwConfig) (files : FwFiles) (buf : List UInt8) (entries : List Int)
    (place : Place) : FwState → Prop
  | denied (infos : List FwInfo) (hmemory : ∃ n, 0 ≤ n ∧ cfg.kzalloc n = false) :
    Ended cfg files buf entries place { place := .out, infos := infos, ret := -ENOMEM }
  | done (infos : List FwInfo) (hours : Ours files infos)
    (hkept : ∀ format, format ≠ FIRMWARE_MAX → Kept cfg files buf format infos entries) :
    Ended cfg files buf entries place { place := place, infos := infos }

/-- The first walk, with a round for each entry and one for the end. -/
theorem firstWalk (hsize : buf.length < 2147483648) (hfile : files.fileType ≠ VIDEO_FW_FILE)
    (entries : List Int) {before : List Int} {n : Nat} (hn : entries.length < n)
    (hchain : Chain cfg buf off entries) (hours : Ours files infos)
    (hkept : ∀ format, format ≠ FIRMWARE_MAX → Kept cfg files buf format infos before) :
    ∃ s, run (fwStep cfg files buf) { place := .parse off, infos := infos }
        (List.replicate n .parse) = some s ∧ Ended cfg files buf (before ++ entries) .parsed s := by
  induction entries generalizing off infos before n with
  | nil =>
    cases n with
    | zero => exact absurd hn (Nat.lt_irrefl 0)
    | succ n =>
      have hstep : fwStep cfg files buf { place := .parse off, infos := infos } .parse =
          some { place := .parsed, infos := infos } := by
        have hread : readInt buf (off + INFO_LENGTH) = some 0 := by
          rw [readInt_some hchain.1]
          exact congrArg some hchain.2
        show parseEntry cfg files buf off infos = _
        rw [parseEntry, hread]
        rfl
      refine ⟨_, run_cons_some.mpr ⟨_, hstep, run_fixed rfl n⟩, ?_⟩
      rw [List.append_nil]
      exact .done infos hours hkept
  | cons entry entries ih =>
    cases n with
    | zero => exact absurd hn (Nat.not_lt_zero _)
    | succ n =>
      obtain ⟨rfl, hsound, hrest⟩ := hchain
      obtain ⟨s, hs, hwalked⟩ := hsound.walked hsize hours hfile hkept
      have hn' : entries.length < n := Nat.lt_of_succ_lt_succ hn
      have happend : before ++ entry :: entries = (before ++ [entry]) ++ entries := by
        rw [List.append_assoc, List.singleton_append]
      cases hwalked with
      | denied infos' hmemory =>
        exact ⟨_, run_cons_some.mpr ⟨_, hs, run_fixed rfl n⟩, .denied infos' hmemory⟩
      | refused r hv hret =>
        obtain ⟨t, ht, hended⟩ := ih hn' hrest (hv.ours hours)
          fun format hmax => (hkept format hmax).refused hv hret
        exact ⟨t, run_cons_some.mpr ⟨_, hs, ht⟩, happend ▸ hended⟩
      | taken r hv hret info hfrom hlen =>
        have hours' : Ours files (info :: r.2) :=
          List.forall_mem_cons.mpr ⟨⟨hfrom.fileType, hlen⟩, hv.ours hours⟩
        obtain ⟨t, ht, hended⟩ := ih hn' hrest hours'
          fun format hmax => (hkept format hmax).taken hmax hv hret hfrom
        exact ⟨t, run_cons_some.mpr ⟨_, hs, ht⟩, happend ▸ hended⟩

/-! ## The second walk -/

theorem completed_sameHead {length : Int} {r : List UInt8}
    (hr : completed buf off length data = some r) : SameHead r data := by
  obtain ⟨whole, -, hfirst⟩ := Option.bind_eq_some_iff.mp hr
  obtain ⟨head, hhead, hsecond⟩ := Option.bind_eq_some_iff.mp hfirst
  obtain ⟨whole', hwrite, hthird⟩ := Option.bind_eq_some_iff.mp hsecond
  obtain ⟨size, -, hlast⟩ := Option.bind_eq_some_iff.mp hthird
  obtain ⟨hin, rfl⟩ := read_eq_some.mp hhead
  have hlen := slice_length hin
  intro o n ho hend
  have hroom : o + n ≤ (FIRMWARE_HEAD : Nat) := hend.trans (by decide)
  calc read r o n = read whole' o n := read_write_apart hlast (.inr hend)
    _ = read (slice data 0 FIRMWARE_HEAD) (o - 0) n :=
        read_write_inside hwrite ho (by rw [hlen]; omega)
    _ = read data o n := by rw [sub_zero, read_slice hin ho hroom, zero_add]

/-- The same firmware, with data under its head that may have been completed. -/
structure Completes (info info' : FwInfo) : Prop where
  same : info' = { info with data := info'.data }
  head : SameHead info'.data info.data
  length : FIRMWARE_HEAD ≤ info.data.length → FIRMWARE_HEAD ≤ info'.data.length

theorem Completes.refl (info : FwInfo) : Completes info info := ⟨rfl, .refl _, id⟩

theorem completes_refl (infos : List FwInfo) : List.Forall₂ Completes infos infos :=
  List.forall₂_same.mpr fun info _ => .refl info

theorem replaceList_completes {length : Int} {r : List FwInfo × Bool}
    (hr : replaceList cfg buf off length infos = some r) :
    List.Forall₂ Completes infos r.1 ∧ (r.2 = true → cfg.kzalloc length = false) := by
  induction infos generalizing r with
  | nil =>
    obtain rfl := Option.some.inj hr
    exact ⟨.nil, fun h => absurd h Bool.false_ne_true⟩
  | cons info rest ih =>
    obtain ⟨skip, -, hr⟩ := Option.bind_eq_some_iff.mp hr
    split at hr
    · obtain rfl := Option.some.inj hr
      exact ⟨completes_refl _, fun h => absurd h Bool.false_ne_true⟩
    · obtain ⟨same, -, hr⟩ := Option.bind_eq_some_iff.mp hr
      split at hr
      · split at hr
        · obtain ⟨data, hdata, hr⟩ := Option.bind_eq_some_iff.mp hr
          obtain ⟨r', hr', hr⟩ := Option.bind_eq_some_iff.mp hr
          obtain rfl := Option.some.inj hr
          obtain ⟨hrest, hfull⟩ := ih hr'
          have hlen := completed_length hdata
          have hroom := (completed_defined.mp ⟨data, hdata⟩).2.1
          exact ⟨.cons ⟨rfl, completed_sameHead hdata, fun _ => by
            show FIRMWARE_HEAD ≤ data.length
            omega⟩ hrest, hfull⟩
        · next hmemory =>
          obtain rfl := Option.some.inj hr
          exact ⟨completes_refl _, fun _ => by simpa using hmemory⟩
      · obtain ⟨r', hr', hr⟩ := Option.bind_eq_some_iff.mp hr
        obtain rfl := Option.some.inj hr
        obtain ⟨hrest, hfull⟩ := ih hr'
        exact ⟨.cons (.refl info) hrest, hfull⟩

theorem Ours.completes {infos' : List FwInfo} (h : Ours files infos)
    (hc : List.Forall₂ Completes infos infos') : Ours files infos' := by
  induction hc with
  | nil => exact fun _ hinfo => absurd hinfo List.not_mem_nil
  | cons hone _ ih =>
    obtain ⟨⟨htype, hlen⟩, hrest⟩ := List.forall_mem_cons.mp h
    refine List.forall_mem_cons.mpr ⟨⟨?_, hone.length hlen⟩, ih hrest⟩
    rw [hone.same]
    exact htype

theorem Kept.completes {entries : List Int} {infos' : List FwInfo}
    (h : Kept cfg files buf format infos entries) (hc : List.Forall₂ Completes infos infos') :
    Kept cfg files buf format infos' entries := by
  have hfilter : List.Forall₂ Completes (ofFormat format infos) (ofFormat format infos') := by
    refine List.rel_filter (fun info info' hone => ?_) hc
    rw [hone.same]
  cases h with
  | nothing hinfos hentries =>
    rw [hinfos] at hfilter
    exact .nothing (List.forall₂_nil_left_iff.mp hfilter) hentries
  | one off info hinfos hnewest hfrom =>
    rw [hinfos] at hfilter
    obtain ⟨info', rest, hone, hrest, hinfos'⟩ := List.forall₂_cons_left_iff.mp hfilter
    rw [List.forall₂_nil_left_iff.mp hrest] at hinfos'
    refine .one off info' hinfos' hnewest ⟨?_, ?_, ?_, ?_, hone.head.trans hfrom.head⟩
    · rw [hone.same]
      exact hfrom.name
    · rw [hone.same]
      exact hfrom.srcFrom
    · rw [hone.same]
      exact hfrom.fileType
    · rw [hone.same]
      exact hfrom.format

/-- A round of the second walk at a sound entry. -/
theorem EntrySound.replaced (hs : EntrySound cfg buf off) (hours : Ours files infos) :
    ∃ infos' full, replaceList cfg buf off (lengthAt buf off) infos = some (infos', full) ∧
      List.Forall₂ Completes infos infos' ∧
      (full = true → cfg.kzalloc (lengthAt buf off) = false) := by
  have hlen := hs.headed
  have hmark : Inside buf (off + INFO_HEAD + HEAD_DUPLICATE) 4 := by
    refine hs.data.mono (by simp only [HEAD_DUPLICATE]; omega) ?_
    simp only [HEAD_DUPLICATE, FIRMWARE_HEAD] at *
    omega
  obtain ⟨r, hr⟩ := (replaceList_defined cfg (lengthAt buf off) hs.length hours.headed).mpr
    ⟨fun _ => hmark, fun _ _ info hinfo _ => ⟨hs.data, hlen, (hours info hinfo).2⟩⟩
  exact ⟨r.1, r.2, hr, replaceList_completes hr⟩

theorem secondWalk (rest : List Int) {entries : List Int} {n : Nat} (hn : rest.length < n)
    (hchain : Chain cfg buf off rest) (hours : Ours files infos)
    (hkept : ∀ format, format ≠ FIRMWARE_MAX → Kept cfg files buf format infos entries) :
    ∃ s, run (fwStep cfg files buf) { place := .replace off, infos := infos }
        (List.replicate n .replace) = some s ∧ Ended cfg files buf entries .out s := by
  induction rest generalizing off infos n with
  | nil =>
    cases n with
    | zero => exact absurd hn (Nat.lt_irrefl 0)
    | succ n =>
      have hstep : fwStep cfg files buf { place := .replace off, infos := infos } .replace =
          some { place := .out, infos := infos } := by
        have hread : readInt buf (off + INFO_LENGTH) = some 0 := by
          rw [readInt_some hchain.1]
          exact congrArg some hchain.2
        show replaceEntry cfg buf off infos = _
        rw [replaceEntry, hread]
        rfl
      exact ⟨_, run_cons_some.mpr ⟨_, hstep, run_fixed rfl n⟩, .done infos hours hkept⟩
  | cons entry rest ih =>
    cases n with
    | zero => exact absurd hn (Nat.not_lt_zero _)
    | succ n =>
      obtain ⟨rfl, hsound, hrest⟩ := hchain
      obtain ⟨infos', full, hlist, hcompletes, hfull⟩ := hsound.replaced hours
      have hlen := hsound.headed
      have hread : readInt buf (entry + INFO_LENGTH) = some (lengthAt buf entry) :=
        readInt_some hsound.length
      have hmore : lengthAt buf entry ≠ 0 := by
        simp only [FIRMWARE_HEAD] at hlen
        omega
      have hstep : fwStep cfg files buf { place := .replace entry, infos := infos } .replace =
          if full then some { place := .out, infos := infos', ret := -ENOMEM }
          else some { place := .replace (entry + lengthAt buf entry + INFO_HEAD), infos := infos' } := by
        show replaceEntry cfg buf entry infos = _
        simp only [replaceEntry, hread, hlist, hmore, if_false, Option.bind_eq_bind,
          Option.bind_some]
        rfl
      cases full with
      | true =>
        refine ⟨_, run_cons_some.mpr ⟨_, hstep, run_fixed rfl n⟩,
          .denied infos' ⟨_, ?_, hfull rfl⟩⟩
        simp only [FIRMWARE_HEAD] at hlen
        omega
      | false =>
        obtain ⟨t, ht, hended⟩ := ih (Nat.lt_of_succ_lt_succ hn) hrest (hours.completes hcompletes)
          fun format hmax => (hkept format hmax).completes hcompletes
        rw [← add_assoc] at ht
        exact ⟨t, run_cons_some.mpr ⟨_, hstep, ht⟩, hended⟩

/-! ## The parse -/

theorem denied_ret : -ENOMEM ≠ 0 := by decide

/-- A parse that fails has been denied memory; one that does not ends with what is to be kept. -/
theorem parse_ended {entries : List Int} (hfile : files.fileType ≠ VIDEO_FW_FILE)
    (hpack : WellFormed cfg buf entries) :
    ∃ t, fwPackageParse cfg files buf {} = some t ∧
      (t.ret ≠ 0 ∧ Denied cfg ∨ Ended cfg files buf entries .out t) := by
  have hours : Ours files [] := fun _ hinfo => absurd hinfo List.not_mem_nil
  have hnone (format : Nat) : Kept cfg files buf format [] [] := .nothing rfl rfl
  have hfew : entries.length < TRY_ROUNDS := hpack.few
  -- from where the walks stop, the other rounds do nothing
  have hout {infos : List FwInfo} {ret : Int} : run (fwStep cfg files buf)
      { place := .out, infos := infos, ret := ret }
      (.turn :: List.replicate TRY_ROUNDS .replace) =
        some { place := .out, infos := infos, ret := ret } :=
    run_cons_some.mpr ⟨_, rfl, run_fixed rfl _⟩
  rw [fwPackageParse, parseRounds, fwStart]
  by_cases hname : cfg.getname = true
  · rw [if_pos hname]
    obtain ⟨s, hs, hended⟩ := firstWalk hpack.size hfile entries hfew hpack.chain hours
      fun format _ => hnone format
    rw [run_append hs]
    cases hended with
    | denied infos hmemory => exact ⟨_, hout, .inl ⟨denied_ret, .inr hmemory⟩⟩
    | done infos hours hkept =>
      by_cases htee : cfg.tee = true
      · have hturn : fwStep cfg files buf { place := .parsed, infos := infos } .turn =
            some { place := .out, infos := infos } := by
          simp only [fwStep, htee, if_true]
        exact ⟨_, run_cons_some.mpr ⟨_, hturn, run_fixed rfl _⟩, .inr (.done infos hours hkept)⟩
      · have hturn : fwStep cfg files buf { place := .parsed, infos := infos } .turn =
            some { place := .replace PACKAGE_HEAD, infos := infos } := by
          simp only [fwStep, htee, if_false, Bool.false_eq_true]
        obtain ⟨t, ht, hended⟩ := secondWalk entries hfew hpack.chain hours hkept
        exact ⟨t, run_cons_some.mpr ⟨_, hturn, ht⟩, .inr hended⟩
  · rw [if_neg hname, run_append (run_fixed rfl _)]
    exact ⟨_, hout, .inl ⟨denied_ret, .inl (by simpa using hname)⟩⟩

/-- A well-formed package is parsed, unless memory runs out. Of each format with entries that need
loading and are not for a later processor there is then one firmware in the list, which is that of the
last of the newest of these entries. -/
theorem package_selects {entries : List Int} (hfile : files.fileType ≠ VIDEO_FW_FILE)
    (hpack : WellFormed cfg buf entries) :
    ∃ t, fwPackageParse cfg files buf {} = some t ∧ (t.ret ≠ 0 → Denied cfg) ∧
      (t.ret = 0 → ∀ format, format ≠ FIRMWARE_MAX →
        (∃ off ∈ entries, Eligible cfg buf format off) → ∃ off info,
          ofFormat format t.infos = [info] ∧
          IsLastMax (cpuAt buf) (entries.filter (Eligible cfg buf format ·)) off ∧
          IsFrom files buf off info ∧ cpuOf info.data = cpuAt buf off) := by
  obtain ⟨t, ht, hended⟩ := parse_ended hfile hpack
  refine ⟨t, ht, ?_, fun hret format hmax ⟨off, hoff, helig⟩ => ?_⟩
  · obtain ⟨-, hdenied⟩ | hended := hended
    · exact fun _ => hdenied
    · cases hended with
      | denied _ hmemory => exact fun _ => .inr hmemory
      | done _ _ _ => exact fun hret => absurd rfl hret
  · obtain ⟨hne, -⟩ | hended := hended
    · exact absurd hret hne
    · cases hended with
      | denied _ _ => exact absurd hret denied_ret
      | done infos _ hkept =>
        cases hkept format hmax with
        | nothing _ hentries =>
          have hnot := List.filter_eq_nil_iff.mp hentries off hoff
          exact absurd (decide_eq_true helig) hnot
        | one off info hinfos hnewest hfrom =>
          exact ⟨off, info, hinfos, hnewest, hfrom, hfrom.cpuOf⟩

/-- A firmware of 512 bytes, all head, for a processor and of a format. -/
def headOf (cpu format : String) : List UInt8 :=
  padded 512 (List.replicate 40 0 ++ padded 16 (ascii cpu) ++ ascii format)

def entryOf (name cpu format : String) : List UInt8 :=
  padded 256 (padded 96 (padded 32 (ascii name) ++ ascii format) ++ [0, 2, 0, 0]) ++ headOf cpu format

/-- Three firmwares: two of one format, the newer one first, and one of another format. -/
def threeFirmwares : List UInt8 :=
  padded 256 (ascii "KCAP") ++ entryOf "new.bin" "sm1" "h264" ++ entryOf "vp9.bin" "gxl" "vp9" ++
    entryOf "old.bin" "gxl" "h264" ++ padded 256 []

theorem package_selects_three :
    ∃ t, fwPackageParse plainConfig packageFile threeFirmwares {} = some t ∧
      (t.ret ≠ 0 → Denied plainConfig) ∧
      (t.ret = 0 → ∀ format, format ≠ FIRMWARE_MAX →
        (∃ off ∈ [256, 1024, 1792], Eligible plainConfig threeFirmwares format off) → ∃ off info,
          ofFormat format t.infos = [info] ∧
          IsLastMax (cpuAt threeFirmwares)
            ([256, 1024, 1792].filter (Eligible plainConfig threeFirmwares format ·)) off ∧
          IsFrom packageFile threeFirmwares off info ∧
          cpuOf info.data = cpuAt threeFirmwares off) :=
  package_selects (by decide)
    { size := by decide +kernel
      chain := by decide +kernel
      few := by decide }

/-- The older firmware behind the newer one does not replace it. -/
example : (fwPackageParse plainConfig packageFile threeFirmwares {}).map
    (fun t => t.infos.map FwInfo.name) = some [ascii "vp9.bin", ascii "new.bin"] := by
  decide +kernel

end MediaModules.Firmware
