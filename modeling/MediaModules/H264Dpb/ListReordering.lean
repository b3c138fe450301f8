import Mathlib.Tactic.Common

/-!
# The list modification commands of a slice

`ref_pic_list_reordering` reads the words the microcode left for each reference picture list. One
counter walks over the words, the other over the commands.
-/
namespace MediaModules.H264Dpb

def REORDERING_COMMAND_MAX_SIZE : Nat := 33

/-- `l0_reorder_cmd` and `l1_reorder_cmd`. -/
abbrev ReorderCmd := Vector UInt16 66

/-- One of the arrays of a slice. -/
abbrev ReorderArray := Vector Int 33

/-- The list modification fields of a slice, for one list. -/
structure ReorderFields where
  refPicListReorderingFlag : Bool
  modificationOfPicNumsIdc : ReorderArray
  absDiffPicNumMinus1 : ReorderArray
  longTermPicIdx : ReorderArray

/-- The types of a slice. -/
inductive ReorderSliceType
  | p
  | b
  | i
  | sp
  | si
  deriving DecidableEq, Repr

/-- A write to an array of the slice; `none` behind its end. -/
def ReorderArray.write (a : ReorderArray) (i : Nat) (x : Int) : Option ReorderArray :=
  if h : i < 33 then some (a.set i x) else none

namespace ReorderFields

/-- The operand of a command: an absolute difference, a long-term index or none. Reads behind the
words are `none`. -/
def readOperand (cmd : ReorderCmd) (val : UInt16) (i j : Nat) (r : ReorderFields) :
    Option (Nat × ReorderFields) :=
  if val = 0 ∨ val = 1 then do
    let x ← cmd[j]?
    let a ← ReorderArray.write r.absDiffPicNumMinus1 i x.toNat
    return (j + 1, { r with absDiffPicNumMinus1 := a })
  else if val = 2 then do
    let x ← cmd[j]?
    let a ← ReorderArray.write r.longTermPicIdx i x.toNat
    return (j + 1, { r with longTermPicIdx := a })
  else
    return (j, r)

def clearFlag (r : ReorderFields) : ReorderFields := { r with refPicListReorderingFlag := false }

/-- The loop over the commands. Its last exit clears the flag in the first list only. -/
def reorderLoop (clears : Bool) (cmd : ReorderCmd) : Nat → Nat → Nat → ReorderFields →
    Option ReorderFields
  | 0, _, _, _ => none
  | fuel + 1, i, j, r => do
    let val ← cmd[j]?
    let idc ← ReorderArray.write r.modificationOfPicNumsIdc i val.toNat
    let r := { r with modificationOfPicNumsIdc := idc }
    if j + 1 ≥ 66 then return r.clearFlag
    else
      let (j, r) ← r.readOperand cmd val i (j + 1)
      if i + 1 ≥ REORDERING_COMMAND_MAX_SIZE then return r.clearFlag
      else if j ≥ 66 then return if clears then r.clearFlag else r
      else if val = 3 then return r
      else reorderLoop clears cmd fuel (i + 1) j r

/-- The part of `ref_pic_list_reordering` for one list. -/
def reorderList (clears : Bool) (cmd : ReorderCmd) (r : ReorderFields) : Option ReorderFields :=
  if cmd[0] ≠ 3 then
    reorderLoop clears cmd 66 0 0 { r with refPicListReorderingFlag := true }
  else
    some r.clearFlag

end ReorderFields

/-- The list modification fields of a slice. -/
structure SliceReordering where
  list0 : ReorderFields
  list1 : ReorderFields

/-- All but I slices have the first list. -/
def HasList0 (sliceType : ReorderSliceType) : Prop := sliceType ≠ .i ∧ sliceType ≠ .si

/-- B slices have the second one too. -/
def HasList1 (sliceType : ReorderSliceType) : Prop := sliceType = .b

instance (sliceType : ReorderSliceType) : Decidable (HasList0 sliceType) :=
  inferInstanceAs (Decidable (_ ∧ _))

instance (sliceType : ReorderSliceType) : Decidable (HasList1 sliceType) :=
  inferInstanceAs (Decidable (_ = _))

/-- `ref_pic_list_reordering`. -/
def refPicListReordering (sliceType : ReorderSliceType) (l0ReorderCmd l1ReorderCmd : ReorderCmd)
    (s : SliceReordering) : Option SliceReordering :=
  (if HasList0 sliceType then s.list0.reorderList true l0ReorderCmd else some s.list0).bind
    fun list0 =>
      (if HasList1 sliceType then s.list1.reorderList false l1ReorderCmd else some s.list1).map
        fun list1 => { list0 := list0, list1 := list1 }

/-- A command of two words. -/
structure ReorderCommand where
  idc : UInt16
  operand : UInt16
  valid : idc = 0 ∨ idc = 1 ∨ idc = 2

theorem ReorderCommand.ne_terminator (c : ReorderCommand) : ¬ c.idc = 3 := by
  intro h3
  rcases c.valid with hzero | hone | htwo
  · exact absurd (h3.symm.trans hzero) (by decide)
  · exact absurd (h3.symm.trans hone) (by decide)
  · exact absurd (h3.symm.trans htwo) (by decide)

/-- The array that an operand goes to, at a place. -/
def ReorderFields.operandAt (r : ReorderFields) (c : ReorderCommand) (k : Nat) : Option Int :=
  (if c.idc = 2 then r.longTermPicIdx else r.absDiffPicNumMinus1)[k]?

/-- The words are the commands with the terminator behind them. -/
structure HoldsCommands (cmd : ReorderCmd) (cs : List ReorderCommand) : Prop where
  length : cs.length ≤ 32
  idc : ∀ k (h : k < cs.length), cmd[2 * k]? = some cs[k].idc
  operand : ∀ k (h : k < cs.length), cmd[2 * k + 1]? = some cs[k].operand
  terminator : cmd[2 * cs.length]? = some 3

/-- The fields tell the commands, and the flag that there are some. -/
structure TellsCommands (r : ReorderFields) (cs : List ReorderCommand) : Prop where
  flag : r.refPicListReorderingFlag = decide (1 ≤ cs.length)
  idc : ∀ k (h : k < cs.length), r.modificationOfPicNumsIdc[k]? = some (cs[k].idc.toNat : Int)
  operand : ∀ k (h : k < cs.length), r.operandAt cs[k] k = some (cs[k].operand.toNat : Int)
  terminator : 1 ≤ cs.length → r.modificationOfPicNumsIdc[cs.length]? = some 3

section Arrays
variable {cmd : ReorderCmd} {a : ReorderArray} {i k : Nat}

theorem cmd_read (cmd : ReorderCmd) {j : Nat} (h : j < 66) : cmd[j]? = some cmd[j] :=
  Vector.getElem?_eq_getElem h

theorem write_some (a : ReorderArray) (h : i < 33) (x : Int) : a.write i x = some (a.set i x) :=
  dif_pos h

theorem set_read_self (a : ReorderArray) (h : i < 33) (x : Int) : (a.set i x)[i]? = some x :=
  Vector.getElem?_set_self h

theorem set_read_ne (a : ReorderArray) (h : i < 33) (x : Int) (hk : i ≠ k) :
    (a.set i x)[k]? = a[k]? := Vector.getElem?_set_ne h hk

end Arrays

namespace ReorderFields
variable {cmd : ReorderCmd} {r : ReorderFields}

/-- Inside the words and the arrays an operand is one word at most. -/
theorem readOperand_some (cmd : ReorderCmd) (val : UInt16) {i j : Nat} (r : ReorderFields)
    (hi : i < 33) (hj : j < 66) :
    ∃ j' r', r.readOperand cmd val i j = some (j', r') ∧ j' ≤ j + 1 := by
  unfold readOperand
  rw [cmd_read cmd hj]
  split
  · rw [Option.bind_eq_bind, Option.bind_some, write_some _ hi]
    exact ⟨_, _, rfl, Nat.le_refl _⟩
  · split
    · rw [Option.bind_eq_bind, Option.bind_some, write_some _ hi]
      exact ⟨_, _, rfl, Nat.le_refl _⟩
    · exact ⟨_, _, rfl, Nat.le_succ _⟩

/-- The loop over any words: at most two of them are read for a command, so the array of commands is
full before the words end. -/
theorem reorderLoop_some (clears : Bool) (cmd : ReorderCmd) {fuel i j : Nat} (r : ReorderFields)
    (hi : i < 33) (hj : j ≤ 2 * i) (hfuel : 33 - i ≤ fuel) :
    ∃ t, reorderLoop clears cmd fuel i j r = some t := by
  induction fuel generalizing i j r with
  | zero => omega
  | succ fuel ih =>
    unfold reorderLoop
    rw [cmd_read cmd (show j < 66 by omega), Option.bind_eq_bind, Option.bind_some,
      write_some _ hi, Option.bind_eq_bind, Option.bind_some]
    dsimp only
    rw [if_neg (by omega)]
    obtain ⟨j', r', hread, hj'⟩ := readOperand_some cmd cmd[j]
      { r with modificationOfPicNumsIdc := r.modificationOfPicNumsIdc.set i cmd[j].toNat } hi
      (show j + 1 < 66 by omega)
    rw [hread]
    dsimp only [Option.bind_eq_bind, Option.bind_some]
    split
    · exact ⟨_, rfl⟩
    · rename_i hmore
      unfold REORDERING_COMMAND_MAX_SIZE at hmore
      split
      · split
        · exact ⟨_, rfl⟩
        · exact ⟨_, rfl⟩
      · split
        · exact ⟨_, rfl⟩
        · exact ih r' (by omega) (by omega) (by omega)

theorem reorderList_some (clears : Bool) (cmd : ReorderCmd) (r : ReorderFields) :
    ∃ t, r.reorderList clears cmd = some t := by
  unfold reorderList
  split
  · exact reorderLoop_some clears cmd _ (by omega) (by omega) (by omega)
  · exact ⟨_, rfl⟩

/-- The operand of a command in its array. -/
def putOperand (r : ReorderFields) (c : ReorderCommand) {i : Nat} (hi : i < 33) : ReorderFields :=
  if c.idc = 2 then { r with longTermPicIdx := r.longTermPicIdx.set i c.operand.toNat }
  else { r with absDiffPicNumMinus1 := r.absDiffPicNumMinus1.set i c.operand.toNat }

theorem readOperand_command (c : ReorderCommand) {i j : Nat} (r : ReorderFields) (hi : i < 33)
    (hj : cmd[j]? = some c.operand) :
    r.readOperand cmd c.idc i j = some (j + 1, r.putOperand c hi) := by
  unfold readOperand putOperand
  rw [hj]
  by_cases hlong : c.idc = 2
  · rw [hlong, if_neg (by decide), if_pos rfl, if_pos rfl, Option.bind_eq_bind, Option.bind_some,
      write_some _ hi]
    rfl
  · have hdiff : c.idc = 0 ∨ c.idc = 1 := by
      rcases c.valid with hzero | hone | htwo
      · exact .inl hzero
      · exact .inr hone
      · exact absurd htwo hlong
    rw [if_pos hdiff, if_neg hlong, Option.bind_eq_bind, Option.bind_some, write_some _ hi]
    rfl

theorem readOperand_terminator (i j : Nat) (r : ReorderFields) :
    r.readOperand cmd 3 i j = some (j, r) := by
  unfold readOperand
  rw [if_neg (by decide), if_neg (by decide)]
  rfl

theorem putOperand_same (r : ReorderFields) (c : ReorderCommand) {i : Nat} (hi : i < 33) :
    (r.putOperand c hi).refPicListReorderingFlag = r.refPicListReorderingFlag ∧
      (r.putOperand c hi).modificationOfPicNumsIdc = r.modificationOfPicNumsIdc := by
  unfold putOperand
  split
  · exact ⟨rfl, rfl⟩
  · exact ⟨rfl, rfl⟩

theorem putOperand_self (r : ReorderFields) (c : ReorderCommand) {i : Nat} (hi : i < 33) :
    (r.putOperand c hi).operandAt c i = some (c.operand.toNat : Int) := by
  unfold operandAt putOperand
  split
  · exact set_read_self _ hi _
  · exact set_read_self _ hi _

theorem putOperand_ne (r : ReorderFields) (c d : ReorderCommand) {i k : Nat} (hi : i < 33)
    (hk : i ≠ k) : (r.putOperand c hi).operandAt d k = r.operandAt d k := by
  unfold operandAt putOperand
  by_cases hc : c.idc = 2
  · rw [if_pos hc]
    split
    · exact set_read_ne _ hi _ hk
    · rfl
  · rw [if_neg hc]
    split
    · rfl
    · exact set_read_ne _ hi _ hk

/-- The first `k` commands are in the arrays. -/
structure DecodedTo (r : ReorderFields) (cs : List ReorderCommand) (k : Nat) : Prop where
  flag : r.refPicListReorderingFlag = true
  idc : ∀ l (h : l < cs.length), l < k →
    r.modificationOfPicNumsIdc[l]? = some (cs[l].idc.toNat : Int)
  operand : ∀ l (h : l < cs.length), l < k →
    r.operandAt cs[l] l = some (cs[l].operand.toNat : Int)

variable {cs : List ReorderCommand} {k fuel : Nat} {clears : Bool}

/-- A turn of the loop at a command. -/
theorem reorderLoop_command (fuel : Nat) (clears : Bool) (hc : HoldsCommands cmd cs) (hd : r.DecodedTo cs k)
    (hk : k < cs.length) :
    ∃ r' : ReorderFields, r'.DecodedTo cs (k + 1) ∧
      reorderLoop clears cmd (fuel + 1) k (2 * k) r =
        reorderLoop clears cmd fuel (k + 1) (2 * (k + 1)) r' := by
  have hlen := hc.length
  have hk33 : k < 33 := by omega
  have hmax : ¬ k + 1 ≥ REORDERING_COMMAND_MAX_SIZE := by
    unfold REORDERING_COMMAND_MAX_SIZE
    omega
  refine ⟨putOperand { r with
    modificationOfPicNumsIdc := r.modificationOfPicNumsIdc.set k cs[k].idc.toNat } cs[k] hk33,
    ?_, ?_⟩
  · obtain ⟨hflag, hidc⟩ := putOperand_same { r with
      modificationOfPicNumsIdc := r.modificationOfPicNumsIdc.set k cs[k].idc.toNat } cs[k] hk33
    constructor
    · exact hflag.trans hd.flag
    · intro l hl hlk
      rw [hidc]
      by_cases he : k = l
      · subst he
        exact set_read_self _ hk33 _
      · rw [set_read_ne _ hk33 _ he]
        exact hd.idc l hl (by omega)
    · intro l hl hlk
      by_cases he : k = l
      · subst he
        exact putOperand_self _ _ hk33
      · rw [putOperand_ne _ _ _ hk33 he]
        exact hd.operand l hl (by omega)
  · rw [reorderLoop, hc.idc k hk, Option.bind_eq_bind, Option.bind_some, write_some _ hk33,
      Option.bind_eq_bind, Option.bind_some]
    dsimp only
    rw [if_neg (by omega), readOperand_command cs[k] _ hk33 (hc.operand k hk)]
    dsimp only [Option.bind_eq_bind, Option.bind_some]
    rw [if_neg hmax, if_neg (by omega), if_neg cs[k].ne_terminator]
    rfl

/-- The last turn, at the terminator: after 32 commands it finds the array full and takes the flag
away. -/
theorem reorderLoop_terminator (hc : HoldsCommands cmd cs) (hd : r.DecodedTo cs cs.length)
    (hsome : 1 ≤ cs.length) :
    ∃ t, reorderLoop clears cmd (fuel + 1) cs.length (2 * cs.length) r = some t ∧
      (TellsCommands t cs ↔ cs.length ≤ 31) := by
  have hlen := hc.length
  have hi : cs.length < 33 := by omega
  rw [reorderLoop, hc.terminator, Option.bind_eq_bind, Option.bind_some, write_some _ hi,
    Option.bind_eq_bind, Option.bind_some]
  dsimp only
  rw [if_neg (by omega), readOperand_terminator]
  dsimp only [Option.bind_eq_bind, Option.bind_some]
  by_cases hfull : cs.length + 1 ≥ REORDERING_COMMAND_MAX_SIZE
  · rw [if_pos hfull]
    unfold REORDERING_COMMAND_MAX_SIZE at hfull
    refine ⟨_, rfl, fun htells => ?_, fun hle => by omega⟩
    have hflag := htells.flag
    rw [decide_eq_true hsome] at hflag
    exact nomatch hflag
  · rw [if_neg hfull, if_neg (by omega), if_pos rfl]
    unfold REORDERING_COMMAND_MAX_SIZE at hfull
    refine ⟨_, rfl, fun _ => by omega, fun _ => ⟨?_, fun l hl => ?_, fun l hl => ?_, fun _ => ?_⟩⟩
    · rw [decide_eq_true hsome]
      exact hd.flag
    · rw [set_read_ne _ hi _ (by omega)]
      exact hd.idc l hl hl
    · exact hd.operand l hl hl
    · exact set_read_self _ hi _

theorem reorderLoop_commands (hc : HoldsCommands cmd cs) (hsome : 1 ≤ cs.length) {m : Nat}
    (hm : k + m = cs.length) (hfuel : m < fuel) (hd : r.DecodedTo cs k) :
    ∃ t, reorderLoop clears cmd fuel k (2 * k) r = some t ∧
      (TellsCommands t cs ↔ cs.length ≤ 31) := by
  induction m generalizing k fuel r with
  | zero =>
    obtain rfl : k = cs.length := hm
    obtain ⟨fuel, rfl⟩ := Nat.exists_eq_succ_of_ne_zero (show fuel ≠ 0 by omega)
    exact reorderLoop_terminator hc hd hsome
  | succ m ih =>
    obtain ⟨fuel, rfl⟩ := Nat.exists_eq_succ_of_ne_zero (show fuel ≠ 0 by omega)
    obtain ⟨r', hd', hloop⟩ := reorderLoop_command fuel clears hc hd (by omega)
    rw [hloop]
    exact ih (by omega) (by omega) hd'

/-- A list with commands is told exactly when there are fewer than 32 of them. -/
theorem reorderList_tells_iff (hc : HoldsCommands cmd cs) (clears : Bool) (r : ReorderFields) :
    ∃ t, r.reorderList clears cmd = some t ∧ (TellsCommands t cs ↔ cs.length ≤ 31) := by
  unfold reorderList
  cases cs with
  | nil =>
    have hfirst : cmd[0] = 3 := by
      have hterm := hc.terminator
      rw [List.length_nil, Nat.mul_zero, cmd_read cmd (by omega)] at hterm
      exact Option.some.inj hterm
    rw [if_neg (not_not.mpr hfirst)]
    refine ⟨_, rfl, fun _ => Nat.zero_le _, fun _ => ⟨rfl, ?_, ?_, ?_⟩⟩
    · exact fun k hk => absurd hk (Nat.not_lt_zero k)
    · exact fun k hk => absurd hk (Nat.not_lt_zero k)
    · exact fun hsome => absurd hsome (by decide)
  | cons c cs =>
    have hfirst : cmd[0] ≠ 3 := by
      have hidc := hc.idc 0 (Nat.succ_pos _)
      rw [Nat.mul_zero, cmd_read cmd (by omega)] at hidc
      rw [Option.some.inj hidc]
      exact c.ne_terminator
    have hlen := hc.length
    rw [if_pos hfirst]
    have hstart : DecodedTo { r with refPicListReorderingFlag := true } (c :: cs) 0 := by
      refine ⟨rfl, ?_, ?_⟩
      · exact fun l _ hl => absurd hl (Nat.not_lt_zero l)
      · exact fun l _ hl => absurd hl (Nat.not_lt_zero l)
    exact reorderLoop_commands hc (Nat.succ_pos _) (Nat.zero_add _) (by omega) hstart

end ReorderFields

/-- For every content of the words no access leaves an array; and the commands of the lists of a
slice are told exactly when there are at most 31 of them for each. -/
theorem refPicListReordering_tells_iff (sliceType : ReorderSliceType) (s : SliceReordering) :
    (∀ cmd0 cmd1 : ReorderCmd, ∃ t, refPicListReordering sliceType cmd0 cmd1 s = some t) ∧
    ∀ (cmd0 cmd1 : ReorderCmd) (cs0 cs1 : List ReorderCommand) (t : SliceReordering),
      (HasList0 sliceType → HoldsCommands cmd0 cs0) →
      (HasList1 sliceType → HoldsCommands cmd1 cs1) →
      refPicListReordering sliceType cmd0 cmd1 s = some t →
      ((HasList0 sliceType → TellsCommands t.list0 cs0) ∧
          (HasList1 sliceType → TellsCommands t.list1 cs1) ↔
        (HasList0 sliceType → cs0.length ≤ 31) ∧ (HasList1 sliceType → cs1.length ≤ 31)) := by
  constructor
  · intro cmd0 cmd1
    have hlist0 : ∃ t0, (if HasList0 sliceType then s.list0.reorderList true cmd0
        else some s.list0) = some t0 := by
      split
      · exact ReorderFields.reorderList_some _ _ _
      · exact ⟨_, rfl⟩
    have hlist1 : ∃ t1, (if HasList1 sliceType then s.list1.reorderList false cmd1
        else some s.list1) = some t1 := by
      split
      · exact ReorderFields.reorderList_some _ _ _
      · exact ⟨_, rfl⟩
    obtain ⟨t0, h0⟩ := hlist0
    obtain ⟨t1, h1⟩ := hlist1
    refine ⟨{ list0 := t0, list1 := t1 }, ?_⟩
    unfold refPicListReordering
    rw [h0, h1]
    rfl
  · intro cmd0 cmd1 cs0 cs1 t hc0 hc1 ht
    obtain ⟨t0, h0, ht⟩ := Option.bind_eq_some_iff.mp ht
    obtain ⟨t1, h1, rfl⟩ := Option.map_eq_some_iff.mp ht
    refine and_congr (forall_congr' fun hlist => ?_) (forall_congr' fun hlist => ?_)
    · obtain ⟨u, hu, hiff⟩ := ReorderFields.reorderList_tells_iff (hc0 hlist) true s.list0
      rw [if_pos hlist] at h0
      obtain rfl := Option.some.inj (hu.symm.trans h0)
      exact hiff
    · obtain ⟨u, hu, hiff⟩ := ReorderFields.reorderList_tells_iff (hc1 hlist) false s.list1
      rw [if_pos hlist] at h1
      obtain rfl := Option.some.inj (hu.symm.trans h1)
      exact hiff

/-- Words of commands that take the picture before, with the terminator behind them. -/
def wordsOf (n : Nat) : ReorderCmd :=
  Vector.ofFn fun k => if k.val = 2 * n then 3 else 0

/-- The commands in them. -/
def stepsBack (n : Nat) : List ReorderCommand :=
  List.replicate n { idc := 0, operand := 0, valid := .inl rfl }

theorem holds_wordsOf {n : Nat} (hn : n ≤ 32) : HoldsCommands (wordsOf n) (stepsBack n) := by
  have hlen : (stepsBack n).length = n := List.length_replicate
  have hword (k : Nat) (hk : k < 66) :
      (wordsOf n)[k]? = some (if k = 2 * n then 3 else 0) := by
    rw [cmd_read _ hk]
    exact congrArg some (Vector.getElem_ofFn hk)
  constructor
  · rw [hlen]
    exact hn
  · intro k hk
    rw [hword _ (by omega), if_neg (by omega)]
    exact congrArg some (congrArg ReorderCommand.idc (List.getElem_replicate hk).symm)
  · intro k hk
    rw [hword _ (by omega), if_neg (by omega)]
    exact congrArg some (congrArg ReorderCommand.operand (List.getElem_replicate hk).symm)
  · rw [hlen, hword _ (by omega), if_pos rfl]

/-- The fields of a slice that is not written to. -/
def blankFields : ReorderFields :=
  { refPicListReorderingFlag := false, modificationOfPicNumsIdc := Vector.replicate 33 0
    absDiffPicNumMinus1 := Vector.replicate 33 0, longTermPicIdx := Vector.replicate 33 0 }

def blankSlice : SliceReordering := { list0 := blankFields, list1 := blankFields }

theorem refPicListReordering_tells_31 :
    ∃ t, refPicListReordering .p (wordsOf 31) (wordsOf 0) blankSlice = some t ∧
      TellsCommands t.list0 (stepsBack 31) := by
  obtain ⟨hinside, hiff⟩ := refPicListReordering_tells_iff .p blankSlice
  obtain ⟨t, ht⟩ := hinside (wordsOf 31) (wordsOf 0)
  have htells := (hiff _ _ (stepsBack 31) [] t (fun _ => holds_wordsOf (by decide)) nofun ht).mpr
    ⟨fun _ => Nat.le_of_eq List.length_replicate, nofun⟩
  exact ⟨t, ht, htells.1 (by decide)⟩

/-- With 32 commands for the list of a P slice the flag is lost. -/
theorem full_list_loses_flag :
    ¬ ∀ (sliceType : ReorderSliceType) (s : SliceReordering) (cmd0 cmd1 : ReorderCmd)
      (cs0 cs1 : List ReorderCommand) (t : SliceReordering),
      (HasList0 sliceType → HoldsCommands cmd0 cs0) →
      (HasList1 sliceType → HoldsCommands cmd1 cs1) →
      refPicListReordering sliceType cmd0 cmd1 s = some t →
        (HasList0 sliceType → TellsCommands t.list0 cs0) ∧
          (HasList1 sliceType → TellsCommands t.list1 cs1) := by
  intro hall
  have hholds : HoldsCommands (wordsOf 32) (stepsBack 32) := holds_wordsOf (by decide)
  obtain ⟨t0, h0, hiff⟩ := ReorderFields.reorderList_tells_iff hholds true blankFields
  have hp : refPicListReordering .p (wordsOf 32) (wordsOf 0) blankSlice =
      some { list0 := t0, list1 := blankFields } := by
    unfold refPicListReordering
    rw [if_pos (by decide), if_neg (by decide)]
    show (blankFields.reorderList true (wordsOf 32)).bind _ = _
    rw [h0]
    rfl
  have htells := (hall .p blankSlice _ _ (stepsBack 32) [] _ (fun _ => hholds) nofun hp).1
    (by decide)
  have hle := hiff.mp htells
  rw [stepsBack, List.length_replicate] at hle
  exact absurd hle (by decide)

end MediaModules.H264Dpb
