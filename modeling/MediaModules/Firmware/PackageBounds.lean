import MediaModules.Firmware.Package

/-!
# Which packages are parsed inside their memory

The lengths, sizes and names of a package are not checked. Every round of the two walks stays inside
the file and the memory of the firmwares exactly when what it looks at fits, and so the whole parse
does when every round does.
-/
namespace MediaModules.Firmware

open Lib.Memory Lib.Run

/-! ## What has to fit -/

/-- The length field of the entry at `off`. -/
def lengthAt (buf : List UInt8) (off : Int) : Int := intAt buf (off + INFO_LENGTH)

/-- The data of the entry at `off` is copied: it is not the last entry, its path is not too long, and
there is memory. -/
structure Taken (cfg : FwConfig) (buf : List UInt8) (off : Int) : Prop where
  more : lengthAt buf off ≠ 0
  path : DIR.length + 1 + (stringAt buf off).length < PATH_MAX
  info : cfg.kzalloc FW_INFO_SIZE = true
  memory : cfg.kzalloc (copied (lengthAt buf off)) = true

/-- A firmware is not refused for its check sum. -/
def SumPasses (cfg : FwConfig) (data : List UInt8) : Prop :=
  sumAccepted cfg (intAt data HEAD_DUPLICATE) data = some true

/-- What is summed of a firmware is in its memory. -/
def SumFits (data : List UInt8) : Prop :=
  intAt data HEAD_DATA_SIZE ≠ 0 →
    0 < intAt data HEAD_DATA_SIZE ∧ FIRMWARE_HEAD + intAt data HEAD_DATA_SIZE ≤ data.length

/-- The format in the head of a firmware is a known one, or ends in its memory. -/
def FormatFits (data : List UInt8) : Prop :=
  (∃ e ∈ formatName, sameString data HEAD_FORMAT e.name = some true) ∨ Terminated data HEAD_FORMAT

/-- A firmware copied out of the package fits its memory: there is room for its head, for what is
summed of it if it is summed, for the name of its format if that is looked at, and for the head the
trusted side gets. -/
structure FirmwareFits (cfg : FwConfig) (data : List UInt8) (format : Nat) (infos : List FwInfo) :
    Prop where
  headed : 228 ≤ data.length
  sum : intAt data HEAD_DUPLICATE = 0 → cfg.newPackage = false → SumFits data
  named : SumPasses cfg data → format ≠ FIRMWARE_MAX →
    (∀ cpu, fwGetCpu data HEAD_CPU = some cpu → cpu ≤ cfg.curCpu) → FormatFits data
  trusted : SumPasses cfg data → cfg.tee = true → cfg.kzalloc FIRMWARE_HEAD = true →
    (∃ infos', fwDataFilter cfg data format infos = some (0, infos')) → FIRMWARE_HEAD ≤ data.length

/-- The entry at `off` fits in the first walk: its length is in the file, its name ends there, and the
data that is copied is there and fits its memory. -/
structure EntryFits (cfg : FwConfig) (buf : List UInt8) (off : Int) (infos : List FwInfo) : Prop where
  length : Inside buf (off + INFO_LENGTH) 4
  name : lengthAt buf off ≠ 0 → Terminated buf off
  data : Taken cfg buf off → Inside buf (off + INFO_HEAD) (copied (lengthAt buf off)).toNat
  firmware : Taken cfg buf off → ∀ format, getFwFormat buf (off + INFO_FORMAT) = some format →
    FirmwareFits cfg (slice buf (off + INFO_HEAD) (copied (lengthAt buf off)).toNat) format infos

/-- The firmware is a duplicate of the entry at `off`. -/
def DuplicateOf (buf : List UInt8) (off : Int) (data : List UInt8) : Prop :=
  intAt data HEAD_DUPLICATE ≠ 0 ∧
    intAt buf (off + INFO_HEAD + HEAD_CHECKSUM) = intAt data HEAD_CHECKSUM

/-- The entry at `off` fits in the second walk: its length is in the file, and unless the list is
empty the mark of a duplicate; and where the entry completes a duplicate, it is in the file with its
whole length, and both it and the duplicate have room for a head. -/
structure DupFits (cfg : FwConfig) (buf : List UInt8) (off : Int) (infos : List FwInfo) : Prop where
  length : Inside buf (off + INFO_LENGTH) 4
  mark : lengthAt buf off ≠ 0 → infos ≠ [] → Inside buf (off + INFO_HEAD + HEAD_DUPLICATE) 4
  data : lengthAt buf off ≠ 0 → intAt buf (off + INFO_HEAD + HEAD_DUPLICATE) = 0 →
    cfg.kzalloc (lengthAt buf off) = true → ∀ info ∈ infos, DuplicateOf buf off info.data →
      Inside buf (off + INFO_HEAD) (lengthAt buf off).toNat ∧
        FIRMWARE_HEAD ≤ lengthAt buf off ∧ FIRMWARE_HEAD ≤ info.data.length

/-- What a round looks at fits. -/
def RoundFits (cfg : FwConfig) (buf : List UInt8) (s : FwState) : Round → Prop
  | .parse => ∀ off, s.place = .parse off → EntryFits cfg buf off s.infos
  | .turn => True
  | .replace => ∀ off, s.place = .replace off → DupFits cfg buf off s.infos

/-- The firmwares in the list have room for what the parser looks at in their heads. -/
def Headed (infos : List FwInfo) : Prop := ∀ info ∈ infos, 228 ≤ info.data.length

/-! ## Lookups and checks -/

variable {cfg : FwConfig} {files : FwFiles} {buf data : List UInt8} {off : Int} {format : Nat}
  {infos : List FwInfo}

theorem defined_bind {α β : Type} {x : Option α} {f : α → Option β} :
    (∃ r, (x >>= f) = some r) ↔ ∃ a, x = some a ∧ ∃ r, f a = some r := by
  cases x with
  | none => simp
  | some a => simp

theorem lookup_some {α : Type} {name : α → List UInt8} {l : List α}
    (hname : ∀ e ∈ l, (name e).length ≤ 15) (h : Inside buf off 16) (found : Option α) :
    ∃ r, lookup name buf off l found = some r := by
  induction l generalizing found with
  | nil => exact ⟨found, rfl⟩
  | cons e rest ih =>
    have hshort := hname e List.mem_cons_self
    obtain ⟨same, hsame⟩ := sameString_some (name e) (h.mono le_rfl (by omega))
    have hrest := ih fun e' h' => hname e' (List.mem_cons_of_mem _ h')
    simp only [lookup, hsame, Option.bind_eq_bind, Option.bind_some]
    split
    · exact hrest (some e)
    · exact hrest found

theorem formatName_short : ∀ e ∈ formatName, e.name.length ≤ 15 := by decide

theorem cpuType_short : ∀ e ∈ cpuType, e.name.length ≤ 15 := by decide

theorem getFwFormat_some (h : Inside buf off 16) : ∃ r, getFwFormat buf off = some r := by
  obtain ⟨found, hfound⟩ := lookup_some formatName_short h none
  exact ⟨_, by rw [getFwFormat, hfound]; rfl⟩

theorem fwGetCpu_some (h : Inside buf off 16) : ∃ r, fwGetCpu buf off = some r := by
  obtain ⟨found, hfound⟩ := lookup_some cpuType_short h none
  exact ⟨_, by rw [fwGetCpu, hfound]; rfl⟩

theorem checkNeedLoad_defined (fwMask : Nat) {l : List FormatName}
    (hname : ∀ e ∈ l, e.name.length ≤ 15) (h : Inside buf off 16) :
    (∃ r, checkNeedLoad fwMask buf off l = some r) ↔
      (∃ e ∈ l, sameString buf off e.name = some true) ∨ Terminated buf off := by
  induction l with
  | nil =>
    simp only [checkNeedLoad, Option.map_eq_some_iff, readString_eq_some]
    simp
  | cons e rest ih =>
    have hshort := hname e List.mem_cons_self
    obtain ⟨same, hsame⟩ := sameString_some e.name (h.mono le_rfl (by omega))
    have hrest := ih fun e' h' => hname e' (List.mem_cons_of_mem _ h')
    simp only [checkNeedLoad, hsame, Option.bind_eq_bind, Option.bind_some, List.mem_cons,
      exists_eq_or_imp]
    cases same with
    | true => simpa using em _
    | false => simpa using hrest

/-- The head of a firmware can be looked at. -/
theorem head_inside (h : 228 ≤ data.length) {o : Int} {n : Nat} (ho : 0 ≤ o) (hn : o + n ≤ 228) :
    Inside data o n :=
  inside_of_length h ho (by exact_mod_cast hn)

/-- As a length, a negative size is an enormous one. -/
theorem sizeT_cases (data : List UInt8) (off : Int) :
    (0 ≤ intAt data off ∧ (sizeT (intAt data off) : Int) = intAt data off) ∨
      (intAt data off < 0 ∧ 4294967296 ≤ sizeT (intAt data off)) := by
  have hbounds := intAt_bounds data off
  generalize intAt data off = size at hbounds
  simp only [sizeT]
  omega

theorem fwDataCheckSum_defined (h : 228 ≤ data.length) (hmost : data.length ≤ 65536) :
    (∃ r, fwDataCheckSum data = some r) ↔ SumFits data := by
  have hsize : Inside data HEAD_DATA_SIZE 4 := head_inside h (by decide) (by decide)
  have hsum : Inside data HEAD_CHECKSUM 4 := head_inside h (by decide) (by decide)
  have hcases := sizeT_cases data HEAD_DATA_SIZE
  have hread : (∃ r, fwDataCheckSum data = some r) ↔
      ∃ r, readAll data FIRMWARE_HEAD (sizeT (intAt data HEAD_DATA_SIZE)) = some r := by
    simp only [fwDataCheckSum, readInt_some hsize, readInt_some hsum, Option.bind_eq_bind,
      Option.bind_some]
    rw [← Option.bind_eq_bind, defined_bind]
    exact exists_congr fun bytes => and_iff_left_of_imp fun _ => ⟨_, rfl⟩
  rw [hread, readAll_defined]
  simp only [SumFits, Inside, FIRMWARE_HEAD]
  omega

theorem filterList_some (cpu : Int) (format : Nat) (h : Headed infos) :
    ∃ r, filterList cpu format infos = some r ∧ r.2 ⊆ infos := by
  induction infos with
  | nil => exact ⟨(0, []), rfl, List.Subset.refl _⟩
  | cons info rest ih =>
    obtain ⟨r, hr, hsub⟩ := ih fun info' h' => h info' (List.mem_cons_of_mem _ h')
    have hdrop : r.2 ⊆ info :: rest := List.subset_cons_of_subset _ hsub
    obtain ⟨other, hother⟩ := fwGetCpu_some
      (head_inside (h info List.mem_cons_self) (o := HEAD_CPU) (n := 16) (by decide) (by decide))
    simp only [filterList, hr, hother, Option.bind_eq_bind, Option.bind_some]
    split
    · exact ⟨_, rfl, List.cons_subset_cons _ hsub⟩
    · split
      · exact ⟨_, rfl, List.Subset.refl _⟩
      · split
        · exact ⟨_, rfl, List.Subset.refl _⟩
        · exact ⟨r, rfl, hdrop⟩

theorem fwDataFilter_defined (cfg : FwConfig) (format : Nat) (h : 228 ≤ data.length) (hinfos : Headed infos) :
    (∃ r, fwDataFilter cfg data format infos = some r) ↔
      (format ≠ FIRMWARE_MAX → (∀ cpu, fwGetCpu data HEAD_CPU = some cpu → cpu ≤ cfg.curCpu) →
        FormatFits data) := by
  obtain ⟨cpu, hcpu⟩ := fwGetCpu_some
    (head_inside h (o := HEAD_CPU) (n := 16) (by decide) (by decide))
  have hload := checkNeedLoad_defined cfg.fwMask formatName_short
    (head_inside h (o := HEAD_FORMAT) (n := 16) (by decide) (by decide))
  obtain ⟨r, hr, -⟩ := filterList_some cpu format hinfos
  simp only [fwDataFilter, hcpu, Option.bind_eq_bind, Option.bind_some, Option.some.injEq,
    forall_eq', FormatFits]
  by_cases hnewer : cfg.curCpu < cpu
  · simp [hnewer]
  · by_cases hmax : format = FIRMWARE_MAX
    · simp [hnewer, hmax]
    · simp only [hnewer, hmax, if_false, not_lt.mp hnewer, ne_eq, not_false_eq_true, forall_const]
      rw [← hload, ← Option.bind_eq_bind, defined_bind]
      refine exists_congr fun need => and_iff_left_of_imp fun _ => ?_
      cases need with
      | true => exact ⟨r, by simpa using hr⟩
      | false => exact ⟨_, rfl⟩

theorem fwDataFilter_subset (hinfos : Headed infos) {r : Int × List FwInfo}
    (hr : fwDataFilter cfg data format infos = some r) : r.2 ⊆ infos := by
  simp only [fwDataFilter, Option.bind_eq_bind, Option.bind_eq_some_iff] at hr
  obtain ⟨cpu, -, hr⟩ := hr
  obtain ⟨r', hr', hsub⟩ := filterList_some cpu format hinfos
  split at hr
  · obtain rfl := Option.some.inj hr
    exact List.Subset.refl _
  · split at hr
    · obtain rfl := Option.some.inj hr
      exact List.Subset.refl _
    · obtain ⟨need, -, hr⟩ := Option.bind_eq_some_iff.mp hr
      split at hr
      · obtain rfl := Option.some.inj (hr'.symm.trans hr)
        exact hsub
      · obtain rfl := Option.some.inj hr
        exact List.Subset.refl _

/-! ## The first walk -/

theorem sumAccepted_defined (cfg : FwConfig) (h : 228 ≤ data.length) (hmost : data.length ≤ 65536) :
    (∃ r, sumAccepted cfg (intAt data HEAD_DUPLICATE) data = some r) ↔
      (intAt data HEAD_DUPLICATE = 0 → cfg.newPackage = false → SumFits data) := by
  simp only [sumAccepted]
  split
  · rename_i hchecked
    rw [fwDataCheckSum_defined h hmost]
    exact ⟨fun hfits _ _ => hfits, fun hfits => hfits hchecked.1 hchecked.2⟩
  · rename_i hfree
    exact ⟨fun _ hdup hnew => absurd ⟨hdup, hnew⟩ hfree, fun _ => ⟨true, rfl⟩⟩

theorem addInfo_defined (info : FwInfo) :
    (∃ r, addInfo cfg info off infos = some r) ↔
      (cfg.tee = true → cfg.kzalloc FIRMWARE_HEAD = true → FIRMWARE_HEAD ≤ info.data.length) := by
  simp only [addInfo]
  split
  · split
    · rename_i htee hmemory
      rw [defined_bind]
      simp only [read_eq_some, Inside]
      constructor
      · rintro ⟨_, ⟨⟨-, hend⟩, -⟩, -⟩ - -
        omega
      · intro hroom
        have hlen := hroom htee hmemory
        exact ⟨_, ⟨⟨le_rfl, by omega⟩, rfl⟩, _, rfl⟩
    · rename_i htee hmemory
      exact ⟨fun _ _ h => absurd h hmemory, fun _ => ⟨_, rfl⟩⟩
  · rename_i htee
    exact ⟨fun _ h => absurd h htee, fun _ => ⟨_, rfl⟩⟩

/-- A firmware is checked, filtered and taken over inside its memory exactly when it fits. -/
theorem takeFirmware_defined (info : FwInfo) (hmost : info.data.length ≤ 65536)
    (hinfos : Headed infos) :
    (∃ r, takeFirmware cfg info off infos = some r) ↔
      FirmwareFits cfg info.data info.format infos := by
  by_cases h : 228 ≤ info.data.length
  · have hmark : Inside info.data HEAD_DUPLICATE 4 := head_inside h (by decide) (by decide)
    have hsum := sumAccepted_defined cfg h hmost
    have hfilter := fwDataFilter_defined cfg info.format h hinfos
    simp only [takeFirmware, readInt_some hmark, Option.bind_eq_bind, Option.bind_some]
    cases haccepted : sumAccepted cfg (intAt info.data HEAD_DUPLICATE) info.data with
    | none =>
      refine ⟨fun ⟨r, hr⟩ => (by cases hr), fun hfits => ?_⟩
      obtain ⟨r, hr⟩ := hsum.mpr hfits.sum
      rw [haccepted] at hr
      cases hr
    | some good =>
      have hsummed := hsum.mp ⟨good, haccepted⟩
      cases good with
      | false =>
        have hfails : ¬ SumPasses cfg info.data := by
          simp only [SumPasses, haccepted]
          exact nofun
        exact ⟨fun _ => ⟨h, hsummed, fun hp => absurd hp hfails, fun hp => absurd hp hfails⟩,
          fun _ => ⟨_, rfl⟩⟩
      | true =>
        cases hfiltered : fwDataFilter cfg info.data info.format infos with
        | none =>
          refine ⟨fun ⟨r, hr⟩ => (by cases hr), fun hfits => ?_⟩
          obtain ⟨r, hr⟩ := hfilter.mpr (hfits.named haccepted)
          rw [hfiltered] at hr
          cases hr
        | some r =>
          obtain ⟨filtered, infos'⟩ := r
          have hnamed := hfilter.mp ⟨_, hfiltered⟩
          simp only [Option.bind_some, if_true]
          by_cases hzero : filtered = 0
          · subst hzero
            simp only [ne_eq, not_true_eq_false, if_false]
            rw [addInfo_defined]
            exact ⟨fun hroom => ⟨h, hsummed, fun _ => hnamed, fun _ ht hm _ => hroom ht hm⟩,
              fun hfits ht hm => hfits.trusted haccepted ht hm ⟨infos', hfiltered⟩⟩
          · simp only [hzero, ne_eq, not_false_eq_true, if_true]
            refine ⟨fun _ => ⟨h, hsummed, fun _ => hnamed, fun _ _ _ hpass => ?_⟩, fun _ => ⟨_, rfl⟩⟩
            obtain ⟨infos'', hpass⟩ := hpass
            rw [hfiltered] at hpass
            exact absurd (congrArg Prod.fst (Option.some.inj hpass)) hzero
  · refine ⟨fun ⟨r, hr⟩ => ?_, fun hfits => absurd hfits.headed h⟩
    obtain ⟨mark, hmark, -⟩ := Option.bind_eq_some_iff.mp hr
    obtain ⟨⟨-, hend⟩, -⟩ := readInt_eq_some.mp hmark
    simp only [HEAD_DUPLICATE] at hend
    omega

theorem copied_le (length : Int) : copied length ≤ FIRMWARE_SIZE := by
  simp only [copied]
  split
  · exact le_rfl
  · exact not_lt.mp ‹_›

/-- The format of an entry can be looked up when its length and its name can be read. -/
theorem format_inside (hlength : Inside buf (off + INFO_LENGTH) 4) (hname : Terminated buf off) :
    ∃ format, getFwFormat buf (off + INFO_FORMAT) = some format := by
  obtain ⟨-, hend⟩ := hlength
  obtain ⟨hoff, -⟩ := hname
  simp only [INFO_LENGTH] at hend
  refine getFwFormat_some ⟨?_, ?_⟩ <;> simp only [INFO_FORMAT] <;> omega

/-- What a round of the first walk comes to when the data of the entry is copied. -/
theorem parseEntry_taken (htaken : Taken cfg buf off) (hlength : Inside buf (off + INFO_LENGTH) 4)
    (hname : Terminated buf off) (hformat : getFwFormat buf (off + INFO_FORMAT) = some format) :
    parseEntry cfg files buf off infos =
      takeEntry cfg files buf off (lengthAt buf off) (stringAt buf off) format infos := by
  obtain ⟨hmore, hpath, hinfo, hmemory⟩ := htaken
  have hstring : readString buf off = some (stringAt buf off) := if_pos hname
  have hread : readInt buf (off + INFO_LENGTH) = some (lengthAt buf off) := readInt_some hlength
  simp only [parseEntry, hread, hstring, hformat, hmore, ge_iff_le, not_le.mpr hpath, hinfo,
    hmemory, Option.bind_eq_bind, Option.bind_some, if_false, Bool.true_eq_false]

/-- When the data is not copied, the length and the name are all that is read. -/
theorem parseEntry_untaken (htaken : ¬ Taken cfg buf off)
    (hlength : Inside buf (off + INFO_LENGTH) 4)
    (hname : lengthAt buf off ≠ 0 → Terminated buf off) :
    ∃ r, parseEntry cfg files buf off infos = some r := by
  have hread : readInt buf (off + INFO_LENGTH) = some (lengthAt buf off) := readInt_some hlength
  simp only [parseEntry, hread, Option.bind_eq_bind, Option.bind_some]
  split
  · exact ⟨_, rfl⟩
  · rename_i hmore
    obtain ⟨format, hformat⟩ := format_inside hlength (hname hmore)
    have hstring : readString buf off = some (stringAt buf off) := if_pos (hname hmore)
    simp only [hstring, hformat, Option.bind_some]
    split
    · exact ⟨_, rfl⟩
    · rename_i hpath
      split
      · exact ⟨_, rfl⟩
      · rename_i hinfo
        split
        · exact ⟨_, rfl⟩
        · rename_i hmemory
          exact absurd ⟨hmore, not_le.mp hpath, by simpa using hinfo, by simpa using hmemory⟩ htaken

theorem parseEntry_read {r : FwState} (hr : parseEntry cfg files buf off infos = some r) :
    Inside buf (off + INFO_LENGTH) 4 ∧ (lengthAt buf off ≠ 0 → Terminated buf off) := by
  obtain ⟨length, hread, hr⟩ := Option.bind_eq_some_iff.mp hr
  obtain ⟨hlength, rfl⟩ := readInt_eq_some.mp hread
  refine ⟨hlength, fun hmore => ?_⟩
  have hr := (if_neg hmore).symm.trans hr
  obtain ⟨name, hname, -⟩ := Option.bind_eq_some_iff.mp hr
  exact (readString_eq_some.mp hname).1

/-- A round of the first walk stays inside exactly when its entry fits. -/
theorem parseEntry_defined (hinfos : Headed infos) :
    (∃ r, parseEntry cfg files buf off infos = some r) ↔ EntryFits cfg buf off infos := by
  have htake (hlength : Inside buf (off + INFO_LENGTH) 4) (hname : Terminated buf off)
      (htaken : Taken cfg buf off) {format : Nat}
      (hformat : getFwFormat buf (off + INFO_FORMAT) = some format) :
      (∃ r, parseEntry cfg files buf off infos = some r) ↔
        Inside buf (off + INFO_HEAD) (copied (lengthAt buf off)).toNat ∧
          FirmwareFits cfg (slice buf (off + INFO_HEAD) (copied (lengthAt buf off)).toNat) format
            infos := by
    rw [parseEntry_taken htaken hlength hname hformat, takeEntry, defined_bind]
    simp only [read_eq_some, and_assoc, exists_and_left, exists_eq_left']
    refine and_congr_right fun hin => takeFirmware_defined _ ?_ hinfos
    show (slice _ _ _).length ≤ 65536
    have hmost : copied (lengthAt buf off) ≤ 65536 := copied_le _
    rw [slice_length hin]
    omega
  constructor
  · rintro ⟨r, hr⟩
    obtain ⟨hlength, hname⟩ := parseEntry_read hr
    refine ⟨hlength, hname, fun htaken => ?_, fun htaken format hformat => ?_⟩
    · obtain ⟨format, hformat⟩ := format_inside hlength (hname htaken.more)
      exact ((htake hlength (hname htaken.more) htaken hformat).mp ⟨r, hr⟩).1
    · exact ((htake hlength (hname htaken.more) htaken hformat).mp ⟨r, hr⟩).2
  · intro h
    by_cases htaken : Taken cfg buf off
    · obtain ⟨format, hformat⟩ := format_inside h.length (h.name htaken.more)
      exact (htake h.length (h.name htaken.more) htaken hformat).mpr
        ⟨h.data htaken, h.firmware htaken format hformat⟩
    · exact parseEntry_untaken htaken h.length h.name

/-! ## The second walk -/

open Classical in
theorem sameFirmware_eq (h : 228 ≤ data.length)
    (hsum : Inside buf (off + INFO_HEAD + HEAD_CHECKSUM) 4) :
    sameFirmware buf off data = some (decide (DuplicateOf buf off data)) := by
  have hmark : Inside data HEAD_DUPLICATE 4 := head_inside h (by decide) (by decide)
  have hown : Inside data HEAD_CHECKSUM 4 := head_inside h (by decide) (by decide)
  simp only [sameFirmware, readInt_some hmark, readInt_some hown, readInt_some hsum,
    Option.bind_eq_bind, Option.bind_some, DuplicateOf]
  split
  · rename_i hzero
    simp [hzero]
  · rename_i hdup
    simp [hdup]

theorem firmware_head : (FIRMWARE_HEAD : Int) = 512 := rfl

/-- A duplicate is completed inside its memory exactly when the entry is in the file and both have
room for a head. -/
theorem completed_defined {length : Int} :
    (∃ r, completed buf off length data = some r) ↔
      Inside buf (off + INFO_HEAD) length.toNat ∧ FIRMWARE_HEAD ≤ length ∧
        FIRMWARE_HEAD ≤ data.length := by
  have hhead512 := firmware_head
  constructor
  · rintro ⟨r, hr⟩
    obtain ⟨whole, hwhole, hr⟩ := Option.bind_eq_some_iff.mp hr
    obtain ⟨head, hhead, hr⟩ := Option.bind_eq_some_iff.mp hr
    obtain ⟨whole', hwrite, -⟩ := Option.bind_eq_some_iff.mp hr
    obtain ⟨hin, rfl⟩ := read_eq_some.mp hwhole
    obtain ⟨hroom, rfl⟩ := read_eq_some.mp hhead
    have hfits := (write_length hwrite).1
    rw [slice_length hroom] at hfits
    have hlen := slice_length hin
    obtain ⟨-, hroom⟩ := hroom
    obtain ⟨-, hfits⟩ := hfits
    refine ⟨hin, ?_, ?_⟩ <;> omega
  · rintro ⟨hin, hlength, hroom⟩
    have hhead : Inside data 0 FIRMWARE_HEAD := ⟨le_rfl, by omega⟩
    have hlen := slice_length hin
    have hstart : Inside (slice buf (off + INFO_HEAD) length.toNat) 0
        (slice data 0 FIRMWARE_HEAD).length := by
      rw [slice_length hhead]
      exact ⟨le_rfl, by omega⟩
    obtain ⟨whole, hwhole⟩ := write_some _ hstart
    have hsize : Inside buf (off + INFO_HEAD + HEAD_DATA_SIZE) 4 :=
      hin.mono (by simp only [HEAD_DATA_SIZE]; omega) (by simp only [HEAD_DATA_SIZE]; omega)
    have hfield : Inside whole HEAD_DATA_SIZE
        (slice buf (off + INFO_HEAD + HEAD_DATA_SIZE) 4).length := by
      rw [slice_length hsize]
      refine ⟨by decide, ?_⟩
      rw [(write_length hwhole).2, hlen]
      simp only [HEAD_DATA_SIZE]
      omega
    obtain ⟨r, hr⟩ := write_some _ hfield
    refine ⟨r, ?_⟩
    simp only [completed, read_some hin, read_some hhead, read_some hsize, hwhole, hr,
      Option.bind_eq_bind, Option.bind_some]

theorem completed_length {length : Int} {r : List UInt8}
    (hr : completed buf off length data = some r) : (r.length : Int) = length := by
  obtain ⟨hin, hlength, -⟩ := completed_defined.mp ⟨r, hr⟩
  obtain ⟨whole, hwhole, hfirst⟩ := Option.bind_eq_some_iff.mp hr
  obtain ⟨head, hhead, hsecond⟩ := Option.bind_eq_some_iff.mp hfirst
  obtain ⟨whole', hwrite, hthird⟩ := Option.bind_eq_some_iff.mp hsecond
  obtain ⟨size, hsize, hlast⟩ := Option.bind_eq_some_iff.mp hthird
  obtain ⟨-, rfl⟩ := read_eq_some.mp hwhole
  have hhead512 := firmware_head
  rw [(write_length hlast).2, (write_length hwrite).2, slice_length hin]
  omega

/-- The loop over the list stays inside exactly when the mark of the entry is in the file, and the
entry fits with every duplicate it completes. -/
theorem replaceList_defined (cfg : FwConfig) (length : Int) (hlength : Inside buf (off + INFO_LENGTH) 4)
    (hinfos : Headed infos) :
    (∃ r, replaceList cfg buf off length infos = some r) ↔
      (infos ≠ [] → Inside buf (off + INFO_HEAD + HEAD_DUPLICATE) 4) ∧
        (intAt buf (off + INFO_HEAD + HEAD_DUPLICATE) = 0 → cfg.kzalloc length = true →
          ∀ info ∈ infos, DuplicateOf buf off info.data →
            Inside buf (off + INFO_HEAD) length.toNat ∧ FIRMWARE_HEAD ≤ length ∧
              FIRMWARE_HEAD ≤ info.data.length) := by
  induction infos with
  | nil => exact ⟨fun _ => ⟨fun h => absurd rfl h, fun _ _ _ h => absurd h List.not_mem_nil⟩,
      fun _ => ⟨_, rfl⟩⟩
  | cons info rest ih =>
    have hrest := ih fun info' h' => hinfos info' (List.mem_cons_of_mem _ h')
    by_cases hmark : Inside buf (off + INFO_HEAD + HEAD_DUPLICATE) 4
    · have hsum : Inside buf (off + INFO_HEAD + HEAD_CHECKSUM) 4 := by
        obtain ⟨hfrom, -⟩ := hlength
        obtain ⟨-, hend⟩ := hmark
        simp only [INFO_LENGTH, INFO_HEAD, HEAD_DUPLICATE, HEAD_CHECKSUM] at *
        constructor <;> omega
      have hsame := sameFirmware_eq (hinfos info List.mem_cons_self) hsum
      simp only [hmark, implies_true, true_and] at hrest ⊢
      simp only [replaceList, readInt_some hmark, hsame, Option.bind_eq_bind, Option.bind_some]
      by_cases hskip : intAt buf (off + INFO_HEAD + HEAD_DUPLICATE) = 0
      · simp only [hskip, ne_eq, not_true_eq_false, if_false, forall_const, List.forall_mem_cons,
          decide_eq_true_eq] at hrest ⊢
        by_cases hdup : DuplicateOf buf off info.data
        · simp only [hdup, decide_true, if_true, forall_const]
          by_cases hmemory : cfg.kzalloc length = true
          · simp only [hmemory, if_true, forall_const] at hrest ⊢
            rw [← completed_defined, ← hrest, ← Option.bind_eq_bind, defined_bind]
            constructor
            · rintro ⟨data, hdata, r, hr⟩
              obtain ⟨r', hr', -⟩ := Option.bind_eq_some_iff.mp hr
              exact ⟨⟨data, hdata⟩, r', hr'⟩
            · rintro ⟨⟨data, hdata⟩, r', hr'⟩
              exact ⟨data, hdata, by rw [hr']; exact ⟨_, rfl⟩⟩
          · simp only [hmemory]
            exact ⟨fun _ h => absurd h (by decide), fun _ => ⟨_, rfl⟩⟩
        · simp only [hdup, decide_false, Bool.false_eq_true, if_false, false_implies, true_and]
          rw [← Option.bind_eq_bind, defined_bind, ← hrest]
          exact exists_congr fun r => and_iff_left_of_imp fun _ => ⟨_, rfl⟩
      · simp only [hskip, ne_eq, not_false_eq_true, if_true, false_implies, iff_true]
        exact ⟨_, rfl⟩
    · refine ⟨fun ⟨r, hr⟩ => ?_, fun h => absurd (h.1 (List.cons_ne_nil _ _)) hmark⟩
      obtain ⟨mark, hread, -⟩ := Option.bind_eq_some_iff.mp hr
      exact absurd (readInt_eq_some.mp hread).1 hmark

/-- A round of the second walk stays inside exactly when its entry fits. -/
theorem replaceEntry_defined (hinfos : Headed infos) :
    (∃ r, replaceEntry cfg buf off infos = some r) ↔ DupFits cfg buf off infos := by
  by_cases hlength : Inside buf (off + INFO_LENGTH) 4
  · have hread : readInt buf (off + INFO_LENGTH) = some (lengthAt buf off) := readInt_some hlength
    simp only [replaceEntry, hread, Option.bind_eq_bind, Option.bind_some]
    by_cases hmore : lengthAt buf off = 0
    · simp only [hmore, if_true]
      exact ⟨fun _ => ⟨hlength, fun h => absurd hmore h, fun h => absurd hmore h⟩,
        fun _ => ⟨_, rfl⟩⟩
    · simp only [hmore, if_false]
      have hlist := replaceList_defined cfg (lengthAt buf off) hlength hinfos
      rw [← Option.bind_eq_bind, defined_bind]
      have hrest : (∃ r, replaceList cfg buf off (lengthAt buf off) infos = some r) ↔
          DupFits cfg buf off infos := by
        rw [hlist]
        exact ⟨fun h => ⟨hlength, fun _ => h.1, fun _ => h.2⟩,
          fun h => ⟨h.mark hmore, h.data hmore⟩⟩
      rw [← hrest]
      refine exists_congr fun r => and_iff_left_of_imp fun _ => ?_
      split <;> exact ⟨_, rfl⟩
  · refine ⟨fun ⟨r, hr⟩ => ?_, fun h => absurd h.length hlength⟩
    obtain ⟨length, hread, -⟩ := Option.bind_eq_some_iff.mp hr
    exact absurd (readInt_eq_some.mp hread).1 hlength

/-! ## The list keeps its heads -/

theorem headed_of_subset {infos' : List FwInfo} (h : Headed infos) (hsub : infos' ⊆ infos) :
    Headed infos' := fun info hinfo => h info (hsub hinfo)

theorem headed_cons {info : FwInfo} (hinfo : 228 ≤ info.data.length) (h : Headed infos) :
    Headed (info :: infos) := List.forall_mem_cons.mpr ⟨hinfo, h⟩

theorem headed_addInfo {info : FwInfo} {r : FwState} (hinfo : 228 ≤ info.data.length)
    (h : Headed infos) (hr : addInfo cfg info off infos = some r) : Headed r.infos := by
  simp only [addInfo] at hr
  split at hr
  · split at hr
    · obtain ⟨head, hhead, hr⟩ := Option.bind_eq_some_iff.mp hr
      obtain ⟨hin, rfl⟩ := read_eq_some.mp hhead
      obtain rfl := Option.some.inj hr
      refine headed_cons ?_ h
      show 228 ≤ (slice _ _ _).length
      rw [slice_length hin]
      decide
    · obtain rfl := Option.some.inj hr
      exact h
  · obtain rfl := Option.some.inj hr
    exact headed_cons hinfo h

theorem headed_takeFirmware {info : FwInfo} {r : FwState} (h : Headed infos)
    (hr : takeFirmware cfg info off infos = some r) : Headed r.infos := by
  obtain ⟨mark, hmark, hr⟩ := Option.bind_eq_some_iff.mp hr
  obtain ⟨good, -, hr⟩ := Option.bind_eq_some_iff.mp hr
  obtain ⟨⟨-, hend⟩, -⟩ := readInt_eq_some.mp hmark
  have hinfo : 228 ≤ info.data.length := by
    simp only [HEAD_DUPLICATE] at hend
    omega
  split at hr
  · obtain ⟨⟨filtered, infos'⟩, hfilter, hr⟩ := Option.bind_eq_some_iff.mp hr
    have hleft := headed_of_subset h (fwDataFilter_subset h hfilter)
    dsimp only at hr
    split at hr
    · obtain rfl := Option.some.inj hr
      exact hleft
    · exact headed_addInfo hinfo hleft hr
  · obtain rfl := Option.some.inj hr
    exact h

theorem headed_parseEntry {r : FwState} (h : Headed infos)
    (hr : parseEntry cfg files buf off infos = some r) : Headed r.infos := by
  obtain ⟨length, -, hr⟩ := Option.bind_eq_some_iff.mp hr
  split at hr
  · obtain rfl := Option.some.inj hr
    exact h
  · obtain ⟨name, -, hr⟩ := Option.bind_eq_some_iff.mp hr
    split at hr
    · obtain rfl := Option.some.inj hr
      exact h
    · split at hr
      · obtain rfl := Option.some.inj hr
        exact h
      · obtain ⟨format, -, hr⟩ := Option.bind_eq_some_iff.mp hr
        split at hr
        · obtain rfl := Option.some.inj hr
          exact h
        · obtain ⟨data, -, hr⟩ := Option.bind_eq_some_iff.mp hr
          exact headed_takeFirmware h hr

theorem headed_replaceList {length : Int} {r : List FwInfo × Bool} (h : Headed infos)
    (hr : replaceList cfg buf off length infos = some r) : Headed r.1 := by
  induction infos generalizing r with
  | nil =>
    obtain rfl := Option.some.inj hr
    exact h
  | cons info rest ih =>
    have hinfo := h info List.mem_cons_self
    have hrest : Headed rest := fun info' h' => h info' (List.mem_cons_of_mem _ h')
    obtain ⟨skip, -, hr⟩ := Option.bind_eq_some_iff.mp hr
    split at hr
    · obtain rfl := Option.some.inj hr
      exact h
    · obtain ⟨same, -, hr⟩ := Option.bind_eq_some_iff.mp hr
      split at hr
      · split at hr
        · obtain ⟨data, hdata, hr⟩ := Option.bind_eq_some_iff.mp hr
          obtain ⟨r', hr', hr⟩ := Option.bind_eq_some_iff.mp hr
          obtain rfl := Option.some.inj hr
          refine headed_cons ?_ (ih hrest hr')
          have hlen := completed_length hdata
          have hroom := (completed_defined.mp ⟨data, hdata⟩).2.1
          have hhead512 := firmware_head
          show 228 ≤ data.length
          omega
        · obtain rfl := Option.some.inj hr
          exact h
      · obtain ⟨r', hr', hr⟩ := Option.bind_eq_some_iff.mp hr
        obtain rfl := Option.some.inj hr
        exact headed_cons hinfo (ih hrest hr')

theorem headed_replaceEntry {r : FwState} (h : Headed infos)
    (hr : replaceEntry cfg buf off infos = some r) : Headed r.infos := by
  obtain ⟨length, -, hr⟩ := Option.bind_eq_some_iff.mp hr
  split at hr
  · obtain rfl := Option.some.inj hr
    exact h
  · obtain ⟨⟨infos', full⟩, hr', hr⟩ := Option.bind_eq_some_iff.mp hr
    have hlist := headed_replaceList h hr'
    cases full <;> exact Option.some.inj hr ▸ hlist

/-! ## The parse -/

theorem headed_fwStep {s s' : FwState} {op : Round} (h : Headed s.infos)
    (hs : fwStep cfg files buf s op = some s') : Headed s'.infos := by
  cases op with
  | parse =>
    simp only [fwStep] at hs
    split at hs
    · exact headed_parseEntry h hs
    · exact Option.some.inj hs ▸ h
  | turn =>
    simp only [fwStep] at hs
    split at hs <;> exact Option.some.inj hs ▸ h
  | replace =>
    simp only [fwStep] at hs
    split at hs
    · exact headed_replaceEntry h hs
    · exact Option.some.inj hs ▸ h

theorem fwStep_defined {s : FwState} (op : Round) (h : Headed s.infos) :
    (∃ s', fwStep cfg files buf s op = some s') ↔ RoundFits cfg buf s op := by
  cases op with
  | parse =>
    cases hplace : s.place <;> simp only [fwStep, RoundFits, hplace]
    case parse off =>
      rw [parseEntry_defined h]
      exact ⟨fun hfits off' heq => (Place.parse.inj heq) ▸ hfits, fun hfits => hfits off rfl⟩
    all_goals exact ⟨fun _ _ heq => (by cases heq), fun _ => ⟨s, rfl⟩⟩
  | turn =>
    refine ⟨fun _ => trivial, fun _ => ?_⟩
    simp only [fwStep]
    split <;> exact ⟨_, rfl⟩
  | replace =>
    cases hplace : s.place <;> simp only [fwStep, RoundFits, hplace]
    case replace off =>
      rw [replaceEntry_defined h]
      exact ⟨fun hfits off' heq => (Place.replace.inj heq) ▸ hfits, fun hfits => hfits off rfl⟩
    all_goals exact ⟨fun _ _ heq => (by cases heq), fun _ => ⟨s, rfl⟩⟩

/-- A package is parsed inside its file and the memory of its firmwares exactly when what each round
of the two walks looks at fits. -/
theorem package_inside (cfg : FwConfig) (files : FwFiles) (buf : List UInt8) (mgr : FwMgr) :
    (∃ t, fwPackageParse cfg files buf mgr = some t) ↔
      Guarded (fwStep cfg files buf) (RoundFits cfg buf) (fwStart cfg mgr) parseRounds := by
  refine run_defined_iff (P := fun s => Headed s.infos) (fun s op s' h hs => headed_fwStep h hs)
    (fun s op h => fwStep_defined op h) ?_
  simp only [fwStart]
  split <;> exact mgr.headed

/-- A field of `n` bytes. -/
def padded (n : Nat) (bytes : List UInt8) : List UInt8 := bytes ++ List.replicate (n - bytes.length) 0

/-- A package with one entry: a firmware of 512 bytes, all head, that gives `size` as the size of its
data. -/
def onePackage (size : UInt8) : List UInt8 :=
  padded 256 (ascii "KCAP") ++
  padded 256 (padded 96 (ascii "h264.bin") ++ [0, 2, 0, 0]) ++
  padded 512 (List.replicate 200 0 ++ [size]) ++
  padded 256 []

/-- A manager on a T6D, with memory. -/
def plainConfig : FwConfig where
  kzalloc n := decide (0 ≤ n)
  kzalloc_neg _ hn := decide_eq_false (not_le.mpr hn)
  curCpu := 0x49
  fwMask := 2 ^ 64 - 1
  newPackage := false
  tee := false

def packageFile : FwFiles := ⟨0, ascii "video_ucode.bin"⟩

example : (fwPackageParse plainConfig packageFile (onePackage 0) {}).isSome := by decide +kernel

/-- A firmware that gives one byte of data and has none is summed behind its memory. -/
theorem package_overrun : ¬ ∀ (cfg : FwConfig) (files : FwFiles) (buf : List UInt8) (mgr : FwMgr),
    ∃ t, fwPackageParse cfg files buf mgr = some t := by
  intro h
  obtain ⟨t, ht⟩ := h plainConfig packageFile (onePackage 1) {}
  have hnone : (fwPackageParse plainConfig packageFile (onePackage 1) {}).isNone := by
    decide +kernel
  rw [ht] at hnone
  cases hnone

end MediaModules.Firmware
