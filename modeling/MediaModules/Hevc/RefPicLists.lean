import Mathlib.Algebra.Order.Ring.Int
import Mathlib.Tactic.Common

/-!
# HEVC reference picture lists

The microcode hands the current reference picture set over as sixteen words. They are sorted into
three sets of POCs, from which the lists of a slice are filled: in order and cyclically, or by the
entries of the modification list.
-/
namespace MediaModules.Hevc

def RPS_END : UInt16 := 0x8000

def RPS_LT_BIT : Nat := 14

def RPS_USED_BIT : Nat := 13

def MAX_REF_ACTIVE : Nat := 16

/-- `enum SliceType` -/
def B_SLICE : Nat := 0

def P_SLICE : Nat := 1

def I_SLICE : Nat := 2

/-- The words of `union param_u` that are used here. -/
structure RpsParams where
  CUR_RPS : Fin 16 → UInt16
  numRefIdxL0Active : Nat
  numRefIdxL1Active : Nat
  sliceType : Nat
  modificationFlag : Nat
  modificationList : Nat → UInt16
  spsMaxDecPicBufferingMinus1 : Nat

/-- `struct hevc_RPS_s` -/
structure HevcRPS where
  numNeg : Nat
  numPos : Nat
  refPicSetStCurr0 : Nat → Int
  refPicSetStCurr1 : Nat → Int
  numLt : Nat
  refPicSetLtCurr : Nat → Int

/-- What a slice sets in `struct PIC_s`; the POC lists are those of all its slices. -/
structure SlicePic where
  sliceIdx : Nat
  refPOCList0 : Nat → Nat → Int
  refPOCList1 : Nat → Nat → Int
  sliceType : Int
  refNumL0 : Nat
  refNumL1 : Nat
  errorMark : Int

/-- An array after `arr[i] = x`. -/
def store (arr : Nat → Int) (i : Nat) (x : Int) : Nat → Int :=
  fun j => if j = i then x else arr j

def HevcRPS.addLt (rps : HevcRPS) (poc : Int) : HevcRPS :=
  { rps with refPicSetLtCurr := store rps.refPicSetLtCurr rps.numLt poc, numLt := rps.numLt + 1 }

def HevcRPS.addNeg (rps : HevcRPS) (poc : Int) : HevcRPS :=
  { rps with refPicSetStCurr0 := store rps.refPicSetStCurr0 rps.numNeg poc, numNeg := rps.numNeg + 1 }

def HevcRPS.addPos (rps : HevcRPS) (poc : Int) : HevcRPS :=
  { rps with refPicSetStCurr1 := store rps.refPicSetStCurr1 rps.numPos poc, numPos := rps.numPos + 1 }

/-- One word of the current reference picture set. -/
def readWord (poc : Int) (rps : HevcRPS) (word : UInt16) : HevcRPS :=
  let w := word.toNat
  if (w >>> RPS_USED_BIT) &&& 1 = 1 then
    let delt : Int := (w &&& ((1 <<< (RPS_USED_BIT - 1)) - 1) : Nat)
    if (w >>> (RPS_USED_BIT - 1)) &&& 1 = 1 then
      let sum := poc - ((1 <<< (RPS_USED_BIT - 1) : Nat) - delt)
      if (w >>> RPS_LT_BIT) &&& 1 = 1 then rps.addLt sum else rps.addNeg sum
    else if (w >>> RPS_LT_BIT) &&& 1 = 1 then rps.addLt (poc + delt)
    else rps.addPos (poc + delt)
  else rps

def readWords (poc : Int) (rps : HevcRPS) : List UInt16 → HevcRPS
  | [] => rps
  | word :: words => if word = RPS_END then rps else readWords poc (readWord poc rps word) words

/-- `read_ref_pic_set`: the long term set keeps what it held. -/
def readRefPicSet (params : RpsParams) (poc : Int) (rps : HevcRPS) : Int × HevcRPS :=
  let rps := readWords poc { rps with
    numNeg := 0, numPos := 0, numLt := 0
    refPicSetStCurr0 := fun i => if i < 16 then 0 else rps.refPicSetStCurr0 i
    refPicSetStCurr1 := fun i => if i < 16 then 0 else rps.refPicSetStCurr1 i }
    (List.ofFn params.CUR_RPS)
  ((rps.numNeg + rps.numPos + rps.numLt : Nat), rps)

section Lists
variable (params : RpsParams) (rps : HevcRPS)

/-- The numbers of active entries, as `set_ref_pic_list` bounds them. -/
def numL0 : Nat := if params.numRefIdxL0Active > MAX_REF_ACTIVE then MAX_REF_ACTIVE
  else params.numRefIdxL0Active

def numL1 : Nat := if params.numRefIdxL1Active > MAX_REF_ACTIVE then MAX_REF_ACTIVE
  else params.numRefIdxL1Active

/-- The check of a list entry, the same for both lists. -/
def outOfArray (cIdx : Nat) : Bool :=
  if cIdx ≥ rps.numNeg + rps.numPos then cIdx - rps.numNeg - rps.numPos > 15
  else if cIdx ≥ rps.numNeg then cIdx - rps.numNeg > 15
  else cIdx > 15

/-- The POC of an index into list 0, and into list 1. -/
def pocL0 (cIdx : Nat) : Int :=
  if cIdx ≥ rps.numNeg + rps.numPos then rps.refPicSetLtCurr (cIdx - rps.numNeg - rps.numPos)
  else if cIdx ≥ rps.numNeg then rps.refPicSetStCurr1 (cIdx - rps.numNeg)
  else rps.refPicSetStCurr0 cIdx

def pocL1 (cIdx : Nat) : Int :=
  if cIdx ≥ rps.numNeg + rps.numPos then rps.refPicSetLtCurr (cIdx - rps.numNeg - rps.numPos)
  else if cIdx ≥ rps.numPos then rps.refPicSetStCurr0 (cIdx - rps.numPos)
  else rps.refPicSetStCurr1 cIdx

/-- The loops over `rIdx`; `false` is the jump to `set_ref_err`. -/
def fillList (err : Nat → Bool) (poc : Nat → Int) : List Nat → Nat → (Nat → Int) → Bool × (Nat → Int)
  | [], _, list => (true, list)
  | cIdx :: rest, rIdx, list =>
    if err cIdx then (false, list) else fillList err poc rest (rIdx + 1) (store list rIdx (poc cIdx))

def modifiedL0 : Bool := params.modificationFlag &&& 1 ≠ 0

def modifiedL1 : Bool := params.modificationFlag &&& 2 ≠ 0

/-- Both lists are filled by their `list_entry` values, or cyclically. -/
def buildList (modified : Bool) (poc : Nat → Int) (entry : Nat → UInt16) (n total : Nat)
    (list : Nat → Int) : Bool × (Nat → Int) :=
  if modified then
    fillList (outOfArray rps) poc ((List.range n).map fun rIdx => (entry rIdx).toNat) 0 list
  else fillList (fun _ => false) poc ((List.range n).map (· % total)) 0 list

def buildL0 : Nat → (Nat → Int) → Bool × (Nat → Int) :=
  buildList rps (modifiedL0 params) (pocL0 rps) params.modificationList (numL0 params)

/-- The entries of list 1 follow those of list 0, where it has any. -/
def buildL1 : Nat → (Nat → Int) → Bool × (Nat → Int) :=
  buildList rps (modifiedL1 params) (pocL1 rps)
    (fun rIdx => params.modificationList
      (if modifiedL0 params then numL0 params + rIdx else rIdx)) (numL1 params)

/-- `m_aiRefPOCList0[slice_idx] = list`, and the same of list 1. -/
def SlicePic.setList0 (pic : SlicePic) (list : Nat → Int) : SlicePic :=
  { pic with refPOCList0 := fun k => if k = pic.sliceIdx then list else pic.refPOCList0 k }

def SlicePic.setList1 (pic : SlicePic) (list : Nat → Int) : SlicePic :=
  { pic with refPOCList1 := fun k => if k = pic.sliceIdx then list else pic.refPOCList1 k }

/-- A list whose first sixteen entries are cleared. -/
def cleared (list : Nat → Int) : Nat → Int := fun i => if i < 16 then 0 else list i

/-- The end of `set_ref_pic_list` -/
def SlicePic.finish (pic : SlicePic) : SlicePic :=
  { pic with
    sliceType := if params.sliceType = I_SLICE then 2 else if params.sliceType = P_SLICE then 1
      else if params.sliceType = B_SLICE then 0 else 3
    refNumL0 := numL0 params
    refNumL1 := numL1 params }

/-- `set_ref_pic_list` -/
def setRefPicList (pic : SlicePic) : Int × RpsParams × SlicePic :=
  let total := rps.numNeg + rps.numPos + rps.numLt
  let params' := if total > params.spsMaxDecPicBufferingMinus1 then
    { params with spsMaxDecPicBufferingMinus1 := total } else params
  let pic := (pic.setList0 (cleared (pic.refPOCList0 pic.sliceIdx))).setList1
    (cleared (pic.refPOCList1 pic.sliceIdx))
  if total = 0 then (0, params', pic.finish params)
  else
    let r0 := buildL0 params rps total (pic.refPOCList0 pic.sliceIdx)
    let pic := pic.setList0 r0.2
    if !r0.1 then (-1, params', { pic with errorMark := 1 })
    else if params.sliceType ≠ B_SLICE then (0, params', pic.finish params)
    else
      let r1 := buildL1 params rps total (pic.refPOCList1 pic.sliceIdx)
      let pic := pic.setList1 r1.2
      if !r1.1 then (-1, params', { pic with errorMark := 1 })
      else (0, params', pic.finish params)

end Lists

/-!
## The lists of the standard
-/

section Standard
variable (params : RpsParams) (poc : Int)

/-- The words before the end mark whose picture the current one may use. -/
def usedWords (words : List UInt16) : List UInt16 :=
  (words.takeWhile (· ≠ RPS_END)).filter fun w => w.toNat.testBit RPS_USED_BIT

def isLongTerm (w : UInt16) : Bool := w.toNat.testBit RPS_LT_BIT

/-- The POC difference of a word, in 13-bit two's complement. -/
def deltaPoc (w : UInt16) : Int := Int.bmod w.toNat 8192

def stCurrBefore (words : List UInt16) : List Int :=
  ((usedWords words).filter fun w => !isLongTerm w && decide (deltaPoc w < 0)).map fun w =>
    poc + deltaPoc w

def stCurrAfter (words : List UInt16) : List Int :=
  ((usedWords words).filter fun w => !isLongTerm w && decide (0 ≤ deltaPoc w)).map fun w =>
    poc + deltaPoc w

def ltCurr (words : List UInt16) : List Int :=
  ((usedWords words).filter isLongTerm).map fun w => poc + deltaPoc w

/-- The current references in the order of list 0, and of list 1. -/
def refs0 : List Int := stCurrBefore poc (List.ofFn params.CUR_RPS) ++
  stCurrAfter poc (List.ofFn params.CUR_RPS) ++ ltCurr poc (List.ofFn params.CUR_RPS)

def refs1 : List Int := stCurrAfter poc (List.ofFn params.CUR_RPS) ++
  stCurrBefore poc (List.ofFn params.CUR_RPS) ++ ltCurr poc (List.ofFn params.CUR_RPS)

/-- `NumPicTotalCurr` -/
def numPicTotalCurr : Nat := (refs0 params poc).length

/-- The entry `rIdx` of a list: the `list_entry` of it selects it, or the list repeats the
references. -/
def listEntry (refs : List Int) (modified : Bool) (entry : Nat → UInt16) (rIdx : Nat) :
    Option Int :=
  if modified then refs[(entry rIdx).toNat]? else refs[rIdx % refs.length]?

/-- Where the entries of list 1 start in the modification list. -/
def firstEntryL1 : Nat := if modifiedL0 params then params.numRefIdxL0Active else 0

/-- The slice has the `list_entry` value `e`. -/
def HasEntry (e : Nat) : Prop :=
  (modifiedL0 params = true ∧
    ∃ i < params.numRefIdxL0Active, e = (params.modificationList i).toNat) ∨
  (params.sliceType = B_SLICE ∧ modifiedL1 params = true ∧
    ∃ i < params.numRefIdxL1Active, e = (params.modificationList (firstEntryL1 params + i)).toNat)

/-- The result of the two functions for a slice. -/
def sliceLists (rps : HevcRPS) (pic : SlicePic) : Int × RpsParams × SlicePic :=
  setRefPicList params (readRefPicSet params poc rps).2 pic

/-- A slice with a `list_entry` that names no current reference is rejected. Every other one gets the
lists of the standard; without a current reference there are none. -/
structure ListsCorrect (rps : HevcRPS) (pic : SlicePic) : Prop where
  total : (readRefPicSet params poc rps).1 = numPicTotalCurr params poc
  rejected : (∃ e, HasEntry params e ∧ numPicTotalCurr params poc ≤ e) →
    (sliceLists params poc rps pic).1 = -1 ∧ (sliceLists params poc rps pic).2.2.errorMark = 1
  built : (¬ ∃ e, HasEntry params e ∧ numPicTotalCurr params poc ≤ e) →
    (sliceLists params poc rps pic).1 = 0 ∧
    (sliceLists params poc rps pic).2.2.errorMark = pic.errorMark ∧
    (0 < numPicTotalCurr params poc →
      (∀ i < params.numRefIdxL0Active,
        listEntry (refs0 params poc) (modifiedL0 params) params.modificationList i =
          some ((sliceLists params poc rps pic).2.2.refPOCList0 pic.sliceIdx i)) ∧
      (params.sliceType = B_SLICE → ∀ i < params.numRefIdxL1Active,
        listEntry (refs1 params poc) (modifiedL1 params)
          (fun i => params.modificationList (firstEntryL1 params + i)) i =
          some ((sliceLists params poc rps pic).2.2.refPOCList1 pic.sliceIdx i)))

end Standard

/-!
## The sets
-/

section Sets

/-- The first entries of an array are those of a list. -/
def Lists (arr : Nat → Int) (n : Nat) (l : List Int) : Prop :=
  n = l.length ∧ ∀ i (h : i < l.length), arr i = l[i]

theorem Lists.append {arr : Nat → Int} {n : Nat} {l : List Int} (h : Lists arr n l) (x : Int) :
    Lists (store arr n x) (n + 1) (l ++ [x]) := by
  refine ⟨by rw [h.1, List.length_append, List.length_singleton], fun i hi => ?_⟩
  rw [List.length_append, List.length_singleton] at hi
  by_cases hlast : i = l.length
  · rw [store, if_pos (hlast.trans h.1.symm)]
    simp [hlast]
  · rw [store, if_neg (fun he => hlast (he.trans h.1)), h.2 i (by omega),
      List.getElem_append_left (by omega)]

theorem Lists.getElem? {arr : Nat → Int} {n : Nat} {l : List Int} (h : Lists arr n l) {i : Nat}
    (hi : i < n) : l[i]? = some (arr i) := by
  rw [h.2 i (h.1 ▸ hi), List.getElem?_eq_getElem]

/-- The three sets of a picture. -/
structure Sets (rps : HevcRPS) (before after lt : List Int) : Prop where
  before : Lists rps.refPicSetStCurr0 rps.numNeg before
  after : Lists rps.refPicSetStCurr1 rps.numPos after
  lt : Lists rps.refPicSetLtCurr rps.numLt lt

/-- The 13-bit two's complement of a number, from its low twelve bits and the next one. -/
theorem bmod_low_bits (x : Nat) : Int.bmod x 8192 =
    if x / 4096 % 2 = 1 then ((x % 4096 : Nat) : Int) - 4096 else (x % 4096 : Nat) := by
  rw [Int.bmod_def]
  split <;> split <;> omega

theorem deltaPoc_eq (w : UInt16) : deltaPoc w = if w.toNat / 4096 % 2 = 1 then
    ((w.toNat % 4096 : Nat) : Int) - 4096 else (w.toNat % 4096 : Nat) :=
  bmod_low_bits w.toNat

/-- The tests of `readWord`, in terms of what the words say. -/
theorem word_used (w : UInt16) :
    (w.toNat >>> RPS_USED_BIT) &&& 1 = 1 ↔ w.toNat.testBit RPS_USED_BIT = true := by
  rw [Nat.shiftRight_eq_div_pow, Nat.and_one_is_mod, Nat.testBit_eq_decide_div_mod_eq,
    decide_eq_true_eq]

theorem word_lt (w : UInt16) : (w.toNat >>> RPS_LT_BIT) &&& 1 = 1 ↔ isLongTerm w = true := by
  rw [Nat.shiftRight_eq_div_pow, Nat.and_one_is_mod, isLongTerm, Nat.testBit_eq_decide_div_mod_eq,
    decide_eq_true_eq]

theorem word_sign (w : UInt16) :
    (w.toNat >>> (RPS_USED_BIT - 1)) &&& 1 = 1 ↔ w.toNat / 4096 % 2 = 1 := by
  rw [Nat.shiftRight_eq_div_pow, Nat.and_one_is_mod]
  exact Iff.rfl

theorem word_low (w : UInt16) :
    w.toNat &&& ((1 <<< (RPS_USED_BIT - 1)) - 1) = w.toNat % 4096 :=
  Nat.and_two_pow_sub_one_eq_mod w.toNat 12

theorem usedWords_cons {w : UInt16} (hend : w ≠ RPS_END) (ws : List UInt16) :
    usedWords (w :: ws) = if w.toNat.testBit RPS_USED_BIT then w :: usedWords ws else usedWords ws := by
  simp only [usedWords]
  rw [List.takeWhile_cons_of_pos (by simpa using hend), List.filter_cons]

theorem word_pow : ((1 <<< (RPS_USED_BIT - 1) : Nat) : Int) = 4096 := by decide

/-- A word puts its picture into the set it belongs to. -/
theorem readWord_eq (poc : Int) (rps : HevcRPS) (w : UInt16) : readWord poc rps w =
    if w.toNat.testBit RPS_USED_BIT then
      if isLongTerm w then rps.addLt (poc + deltaPoc w)
      else if deltaPoc w < 0 then rps.addNeg (poc + deltaPoc w)
      else rps.addPos (poc + deltaPoc w)
    else rps := by
  simp only [readWord, word_used, word_lt, word_sign, word_low, word_pow]
  have hdelta := deltaPoc_eq w
  split
  · split
    · next hneg =>
      rw [if_pos hneg] at hdelta
      rw [show poc - (4096 - ((w.toNat % 4096 : Nat) : Int)) = poc + deltaPoc w by omega,
        if_pos (show deltaPoc w < 0 by omega)]
    · next hpos =>
      rw [if_neg hpos] at hdelta
      rw [← hdelta, if_neg (show ¬ deltaPoc w < 0 by omega)]
  · rfl

theorem readWords_sets {poc : Int} {words : List UInt16} : ∀ {rps : HevcRPS}
    {before after lt : List Int}, Sets rps before after lt →
    Sets (readWords poc rps words) (before ++ stCurrBefore poc words)
      (after ++ stCurrAfter poc words) (lt ++ ltCurr poc words) := by
  induction words with
  | nil =>
    intro rps before after lt h
    simpa [stCurrBefore, stCurrAfter, ltCurr, usedWords, readWords] using h
  | cons w ws ih =>
    intro rps before after lt h
    rw [readWords]
    split
    · next hend =>
      simpa [stCurrBefore, stCurrAfter, ltCurr, usedWords, hend] using h
    · next hend =>
      rw [readWord_eq]
      simp only [stCurrBefore, stCurrAfter, ltCurr, usedWords_cons hend]
      split
      · by_cases hlt : isLongTerm w = true
        · have h' : Sets (rps.addLt (poc + deltaPoc w)) before after (lt ++ [poc + deltaPoc w]) :=
            ⟨h.before, h.after, h.lt.append _⟩
          simpa [hlt, stCurrBefore, stCurrAfter, ltCurr] using ih h'
        · by_cases hneg : deltaPoc w < 0
          · have h' : Sets (rps.addNeg (poc + deltaPoc w)) (before ++ [poc + deltaPoc w]) after lt :=
              ⟨h.before.append _, h.after, h.lt⟩
            simpa [hlt, hneg, Int.not_le.mpr hneg, stCurrBefore, stCurrAfter, ltCurr] using ih h'
          · have h' : Sets (rps.addPos (poc + deltaPoc w)) before (after ++ [poc + deltaPoc w]) lt :=
              ⟨h.before, h.after.append _, h.lt⟩
            simpa [hlt, hneg, Int.not_lt.mp hneg, stCurrBefore, stCurrAfter, ltCurr] using ih h'
      · exact ih h

/-- `read_ref_pic_set` sorts the words into the three sets. -/
theorem readRefPicSet_sets (params : RpsParams) (poc : Int) (rps : HevcRPS) :
    Sets (readRefPicSet params poc rps).2 (stCurrBefore poc (List.ofFn params.CUR_RPS))
      (stCurrAfter poc (List.ofFn params.CUR_RPS)) (ltCurr poc (List.ofFn params.CUR_RPS)) := by
  have hempty : ∀ arr, Lists arr 0 [] := fun arr => ⟨rfl, fun i hi => absurd hi (Nat.not_lt_zero i)⟩
  have h : Sets (readRefPicSet params poc rps).2 ([] ++ _) ([] ++ _) ([] ++ _) :=
    readWords_sets ⟨hempty _, hempty _, hempty _⟩
  exact h

end Sets

/-!
## The lists of a slice
-/

section Fill
variable {err : Nat → Bool} {poc : Nat → Int}

theorem fillList_ok {cs : List Nat} : ∀ {rIdx : Nat} {list : Nat → Int},
    (fillList err poc cs rIdx list).1 = true ↔ ∀ c ∈ cs, err c = false := by
  induction cs with
  | nil => intro rIdx list; simp [fillList]
  | cons c cs ih =>
    intro rIdx list
    rw [fillList]
    split
    · next he => simp [he]
    · next he => simp [he, ih]

theorem fillList_before {cs : List Nat} : ∀ {rIdx : Nat} {list : Nat → Int} {j : Nat}, j < rIdx →
    (fillList err poc cs rIdx list).2 j = list j := by
  induction cs with
  | nil => intro rIdx list j _; rfl
  | cons c cs ih =>
    intro rIdx list j hj
    rw [fillList]
    split
    · rfl
    · rw [ih (Nat.lt_succ_of_lt hj), store, if_neg (Nat.ne_of_lt hj)]

theorem fillList_get {cs : List Nat} : ∀ {rIdx : Nat} {list : Nat → Int},
    (fillList err poc cs rIdx list).1 = true → ∀ i (h : i < cs.length),
      (fillList err poc cs rIdx list).2 (rIdx + i) = poc cs[i] := by
  induction cs with
  | nil => intro rIdx list _ i h; exact absurd h (Nat.not_lt_zero i)
  | cons c cs ih =>
    intro rIdx list hok i h
    rw [fillList] at hok ⊢
    split
    · next he => rw [if_pos he] at hok; exact absurd hok (by simp)
    · next he =>
      rw [if_neg he] at hok
      cases i with
      | zero =>
        show (fillList err poc cs (rIdx + 1) (store list rIdx (poc c))).2 rIdx = poc c
        rw [fillList_before (Nat.lt_add_one rIdx), store, if_pos rfl]
      | succ i =>
        rw [show rIdx + (i + 1) = rIdx + 1 + i by omega]
        exact ih hok i (Nat.lt_of_succ_lt_succ h)

variable {rps : HevcRPS} {modified : Bool} {entry : Nat → UInt16} {n total : Nat}
  {list : Nat → Int}

theorem buildList_ok : (buildList rps modified poc entry n total list).1 = true ↔
    (modified = true → ∀ i < n, outOfArray rps (entry i).toNat = false) := by
  unfold buildList
  split
  · next hm => simp [hm, fillList_ok]
  · next hm => simp [hm, fillList_ok]

/-- The list built from indices that all name a reference is that of the standard. -/
theorem buildList_get {refs : List Int} (hrefs : ∀ c < total, refs[c]? = some (poc c))
    (htotal : refs.length = total) (hpos : 0 < total)
    (hok : (buildList rps modified poc entry n total list).1 = true)
    (hentry : modified = true → ∀ i < n, (entry i).toNat < total) {i : Nat} (hi : i < n) :
    listEntry refs modified entry i =
      some ((buildList rps modified poc entry n total list).2 i) := by
  unfold buildList at hok ⊢
  rw [listEntry]
  split
  · next hm =>
    rw [if_pos hm] at hok
    have hget := fillList_get hok i (by simpa using hi)
    rw [Nat.zero_add] at hget
    rw [hrefs _ (hentry hm i hi), hget]
    simp
  · next hm =>
    rw [if_neg hm] at hok
    have hget := fillList_get hok i (by simpa using hi)
    rw [Nat.zero_add] at hget
    rw [htotal, hrefs _ (Nat.mod_lt i hpos), hget]
    simp

end Fill

section Slice
variable {rps : HevcRPS} {before after lt : List Int}

/-- The check rejects what lies beyond the arrays. -/
theorem outOfArray_iff (hneg : rps.numNeg ≤ 16) (hpos : rps.numPos ≤ 16) (c : Nat) :
    outOfArray rps c = true ↔ rps.numNeg + rps.numPos + 16 ≤ c := by
  unfold outOfArray
  split
  · simp only [decide_eq_true_eq]; omega
  · split <;> simp only [decide_eq_true_eq] <;> omega

/-- The indices follow the order of the references in list 0, and in list 1. -/
theorem Sets.pocL0_get (h : Sets rps before after lt) {c : Nat}
    (hc : c < rps.numNeg + rps.numPos + rps.numLt) :
    (before ++ after ++ lt)[c]? = some (pocL0 rps c) := by
  have hb := h.before.1
  have ha := h.after.1
  unfold pocL0
  split
  · rw [List.getElem?_append_right (by rw [List.length_append]; omega), List.length_append,
      ← hb, ← ha, ← Nat.sub_sub, h.lt.getElem? (by omega)]
  · rw [List.getElem?_append_left (by rw [List.length_append]; omega)]
    split
    · rw [List.getElem?_append_right (by omega), ← hb, h.after.getElem? (by omega)]
    · rw [List.getElem?_append_left (by omega), h.before.getElem? (by omega)]

theorem Sets.pocL1_get (h : Sets rps before after lt) {c : Nat}
    (hc : c < rps.numNeg + rps.numPos + rps.numLt) :
    (after ++ before ++ lt)[c]? = some (pocL1 rps c) := by
  have hb := h.before.1
  have ha := h.after.1
  unfold pocL1
  split
  · rw [List.getElem?_append_right (by rw [List.length_append]; omega), List.length_append,
      ← hb, ← ha, Nat.add_comm rps.numPos, ← Nat.sub_sub, h.lt.getElem? (by omega)]
  · rw [List.getElem?_append_left (by rw [List.length_append]; omega)]
    split
    · rw [List.getElem?_append_right (by omega), ← ha, h.before.getElem? (by omega)]
    · rw [List.getElem?_append_left (by omega), h.after.getElem? (by omega)]

variable {params : RpsParams} {pic : SlicePic}

/-- Beyond the arrays, a `list_entry` is found to be wrong. -/
def EntryFound (params : RpsParams) (rps : HevcRPS) : Prop :=
  ∃ e, HasEntry params e ∧ rps.numNeg + rps.numPos + 16 ≤ e

theorem numL0_eq (h : params.numRefIdxL0Active ≤ MAX_REF_ACTIVE) :
    numL0 params = params.numRefIdxL0Active := if_neg (Nat.not_lt.mpr h)

theorem numL1_eq (h : params.numRefIdxL1Active ≤ MAX_REF_ACTIVE) :
    numL1 params = params.numRefIdxL1Active := if_neg (Nat.not_lt.mpr h)

/-- The entries of list 1 start where the standard has them. -/
theorem entryL1_eq (h0 : params.numRefIdxL0Active ≤ MAX_REF_ACTIVE) (rIdx : Nat) :
    (if modifiedL0 params then numL0 params + rIdx else rIdx) = firstEntryL1 params + rIdx := by
  rw [firstEntryL1, numL0_eq h0]
  split <;> simp

section Outcome
variable (hneg : rps.numNeg ≤ 16) (hpos : rps.numPos ≤ 16)
  (h0 : params.numRefIdxL0Active ≤ MAX_REF_ACTIVE)
  (h1 : params.sliceType = B_SLICE → params.numRefIdxL1Active ≤ MAX_REF_ACTIVE)
include hneg hpos h0

theorem buildL0_ok {total : Nat} {list : Nat → Int} :
    (buildL0 params rps total list).1 = true ↔ (modifiedL0 params = true →
      ∀ i < params.numRefIdxL0Active,
        (params.modificationList i).toNat < rps.numNeg + rps.numPos + 16) := by
  rw [buildL0, buildList_ok, numL0_eq h0]
  simp only [← Bool.not_eq_true, outOfArray_iff hneg hpos, Nat.not_le]

theorem buildL1_ok (h1 : params.numRefIdxL1Active ≤ MAX_REF_ACTIVE) {total : Nat}
    {list : Nat → Int} : (buildL1 params rps total list).1 = true ↔ (modifiedL1 params = true →
      ∀ i < params.numRefIdxL1Active,
        (params.modificationList (firstEntryL1 params + i)).toNat <
          rps.numNeg + rps.numPos + 16) := by
  rw [buildL1, buildList_ok, numL1_eq h1]
  simp only [← Bool.not_eq_true, outOfArray_iff hneg hpos, Nat.not_le, entryL1_eq h0]

include h1

variable (pic) in
/-- With a current reference, exactly the entries beyond the arrays are rejected. -/
theorem setRefPicList_outcome (htotal : rps.numNeg + rps.numPos + rps.numLt ≠ 0) :
    let out := setRefPicList params rps pic
    (EntryFound params rps → out.1 = -1 ∧ out.2.2.errorMark = 1) ∧
    (¬ EntryFound params rps → out.1 = 0 ∧ out.2.2.errorMark = pic.errorMark ∧
      (∃ list, (buildL0 params rps (rps.numNeg + rps.numPos + rps.numLt) list).1 = true ∧
        out.2.2.refPOCList0 pic.sliceIdx =
          (buildL0 params rps (rps.numNeg + rps.numPos + rps.numLt) list).2) ∧
      (params.sliceType = B_SLICE → ∃ list,
        (buildL1 params rps (rps.numNeg + rps.numPos + rps.numLt) list).1 = true ∧
        out.2.2.refPOCList1 pic.sliceIdx =
          (buildL1 params rps (rps.numNeg + rps.numPos + rps.numLt) list).2)) := by
  simp only [setRefPicList, if_neg htotal]
  split
  · -- a wrong entry of list 0
    next hbad =>
    rw [Bool.not_eq_true', ← Bool.not_eq_true, buildL0_ok hneg hpos h0] at hbad
    refine ⟨fun _ => ⟨rfl, rfl⟩, fun hno => absurd ?_ hbad⟩
    intro hm i hi
    by_contra hge
    exact hno ⟨_, Or.inl ⟨hm, i, hi, rfl⟩, by omega⟩
  · next hok =>
    rw [Bool.not_eq_true', Bool.not_eq_false] at hok
    have hok' := (buildL0_ok hneg hpos h0).mp hok
    split
    · next hP =>
      refine ⟨?_, fun _ => ⟨rfl, rfl, ⟨_, hok, if_pos rfl⟩, fun hB => absurd hB hP⟩⟩
      rintro ⟨e, ⟨hm, i, hi, rfl⟩ | ⟨hB, -⟩, he⟩
      · exact absurd (hok' hm i hi) (by omega)
      · exact absurd hB hP
    · next hB =>
      rw [ne_eq, not_not] at hB
      split
      · -- a wrong entry of list 1
        next hbad =>
        rw [Bool.not_eq_true', ← Bool.not_eq_true, buildL1_ok hneg hpos h0 (h1 hB)] at hbad
        refine ⟨fun _ => ⟨rfl, rfl⟩, fun hno => absurd ?_ hbad⟩
        intro hm i hi
        by_contra hge
        exact hno ⟨_, Or.inr ⟨hB, hm, i, hi, rfl⟩, by omega⟩
      · next hok1 =>
        rw [Bool.not_eq_true', Bool.not_eq_false] at hok1
        have hok1' := (buildL1_ok hneg hpos h0 (h1 hB)).mp hok1
        refine ⟨?_, fun _ => ⟨rfl, rfl, ⟨_, hok, if_pos rfl⟩, fun _ => ⟨_, hok1, if_pos rfl⟩⟩⟩
        rintro ⟨e, ⟨hm, i, hi, rfl⟩ | ⟨-, hm, i, hi, rfl⟩, he⟩
        · exact absurd (hok' hm i hi) (by omega)
        · exact absurd (hok1' hm i hi) (by omega)

end Outcome

section Main
variable (params : RpsParams) (poc : Int) (rps : HevcRPS) (pic : SlicePic)

/-- Each wrong `list_entry` is found: there is none, or, with a current reference, one of them lies
sixteen entries behind the short term references. -/
def EntriesFound : Prop :=
  (∀ e, HasEntry params e → e < numPicTotalCurr params poc) ∨
    (0 < numPicTotalCurr params poc ∧ ∃ e, HasEntry params e ∧
      (stCurrBefore poc (List.ofFn params.CUR_RPS)).length +
        (stCurrAfter poc (List.ofFn params.CUR_RPS)).length + 16 ≤ e)

theorem usedWords_length_le : (usedWords (List.ofFn params.CUR_RPS)).length ≤ 16 :=
  (List.length_filter_le _ _).trans ((List.takeWhile_sublist _).length_le.trans
    (List.length_ofFn (f := params.CUR_RPS)).le)

theorem set_length_le (p : UInt16 → Bool) (f : UInt16 → Int) :
    (((usedWords (List.ofFn params.CUR_RPS)).filter p).map f).length ≤ 16 := by
  rw [List.length_map]
  exact (List.length_filter_le _ _).trans (usedWords_length_le params)

/-- The sets that are read are those of the standard, and the arrays hold them. -/
theorem readRefPicSet_counts :
    let r := (readRefPicSet params poc rps).2
    r.numNeg = (stCurrBefore poc (List.ofFn params.CUR_RPS)).length ∧
    r.numPos = (stCurrAfter poc (List.ofFn params.CUR_RPS)).length ∧
    r.numNeg ≤ 16 ∧ r.numPos ≤ 16 ∧ r.numLt ≤ 16 ∧
    r.numNeg + r.numPos + r.numLt = numPicTotalCurr params poc ∧
    (readRefPicSet params poc rps).1 = numPicTotalCurr params poc := by
  have h := readRefPicSet_sets params poc rps
  have hb := h.before.1
  have ha := h.after.1
  have hl := h.lt.1
  have htotal : (readRefPicSet params poc rps).2.numNeg + (readRefPicSet params poc rps).2.numPos +
      (readRefPicSet params poc rps).2.numLt = numPicTotalCurr params poc := by
    rw [numPicTotalCurr, refs0, List.length_append, List.length_append, hb, ha, hl]
  refine ⟨hb, ha, ?_, ?_, ?_, htotal, ?_⟩
  · rw [hb]
    exact set_length_le params _ _
  · rw [ha]
    exact set_length_le params _ _
  · rw [hl]
    exact set_length_le params _ _
  · rw [← htotal]
    rfl

/-- A slice gets the lists of the standard, or is rejected for an entry that names no reference,
exactly when its wrong entries are found. -/
theorem lists_correct_iff (h0 : params.numRefIdxL0Active ≤ MAX_REF_ACTIVE)
    (h1 : params.sliceType = B_SLICE → params.numRefIdxL1Active ≤ MAX_REF_ACTIVE) :
    ListsCorrect params poc rps pic ↔ EntriesFound params poc := by
  obtain ⟨hb, ha, hneg, hpos, hlt, htotal, hret⟩ := readRefPicSet_counts params poc rps
  have hsets := readRefPicSet_sets params poc rps
  rw [EntriesFound, ← hb, ← ha]
  by_cases hzero : numPicTotalCurr params poc = 0
  · -- without a reference the slice is accepted
    have hsum := htotal.trans hzero
    have hout : (sliceLists params poc rps pic).1 = 0 := by
      simp only [sliceLists, setRefPicList, hsum, if_true]
    have herr : (sliceLists params poc rps pic).2.2.errorMark = pic.errorMark := by
      simp only [sliceLists, setRefPicList, hsum, if_true]
      rfl
    rw [hzero]
    constructor
    · intro h
      apply Or.inl
      intro e he
      have hrej := (h.rejected ⟨e, he, hzero.le.trans (Nat.zero_le e)⟩).1
      rw [hout] at hrej
      exact absurd hrej (by decide)
    · rintro (h | h)
      · exact ⟨hret, fun ⟨e, he, _⟩ => absurd (h e he) (Nat.not_lt_zero e),
          fun _ => ⟨hout, herr, fun hp => absurd hp (by omega)⟩⟩
      · exact absurd h.1 (Nat.lt_irrefl 0)
  · obtain ⟨hbad, hgood⟩ := setRefPicList_outcome pic hneg hpos h0 h1 (htotal ▸ hzero)
    rw [htotal] at hgood
    constructor
    · intro h
      by_cases hex : ∃ e, HasEntry params e ∧ numPicTotalCurr params poc ≤ e
      · refine Or.inr ⟨Nat.pos_of_ne_zero hzero, ?_⟩
        by_contra hno
        have hrej := (h.rejected hex).1
        rw [sliceLists, (hgood hno).1] at hrej
        exact absurd hrej (by decide)
      · exact Or.inl fun e he => Nat.lt_of_not_le fun hle => hex ⟨e, he, hle⟩
    · rintro (hall | ⟨hp, e, he, hle⟩)
      · have hno : ¬ EntryFound params (readRefPicSet params poc rps).2 := fun ⟨e, he, hle⟩ =>
          absurd (hall e he) (by omega)
        obtain ⟨hret0, herr, ⟨list0, hok0, hl0⟩, hL1⟩ := hgood hno
        refine ⟨hret, fun ⟨e, he, hle⟩ => absurd (hall e he) (Nat.not_lt.mpr hle),
          fun _ => ⟨hret0, herr, fun hp => ⟨fun i hi => ?_, fun hB i hi => ?_⟩⟩⟩
        · rw [sliceLists, hl0]
          refine buildList_get (fun c hc => hsets.pocL0_get (htotal.symm ▸ hc)) rfl hp hok0 ?_ ?_
          · intro hm i hi
            rw [numL0_eq h0] at hi
            exact hall _ (Or.inl ⟨hm, i, hi, rfl⟩)
          · rwa [numL0_eq h0]
        · obtain ⟨list1, hok1, hl1⟩ := hL1 hB
          have hlen : (refs1 params poc).length = numPicTotalCurr params poc := by
            rw [numPicTotalCurr, refs1, refs0]
            simp only [List.length_append]
            omega
          have hentry : (fun i => params.modificationList (firstEntryL1 params + i)) =
              fun i => params.modificationList
                (if modifiedL0 params then numL0 params + i else i) := by
            simp only [entryL1_eq h0]
          rw [sliceLists, hl1, hentry]
          refine buildList_get (fun c hc => hsets.pocL1_get (htotal.symm ▸ hc)) hlen hp hok1 ?_ ?_
          · intro hm i hi
            rw [numL1_eq (h1 hB)] at hi
            rw [entryL1_eq h0]
            exact hall _ (Or.inr ⟨hB, hm, i, hi, rfl⟩)
          · rwa [numL1_eq (h1 hB)]
      · have hrej := hbad ⟨e, he, hle⟩
        exact ⟨hret, fun _ => hrej, fun hno => absurd ⟨e, he, by omega⟩ hno⟩

end Main

/-- A B slice with a reference before it, one after it and a long-term one; `entry` is the first of its
two `list_entry` values for list 0. -/
def threeRefs (entry : UInt16) : RpsParams where
  CUR_RPS := fun i => [0x3fff, 0x2002, 0x7ffb].getD i.val RPS_END
  numRefIdxL0Active := 2
  numRefIdxL1Active := 2
  sliceType := B_SLICE
  modificationFlag := 3
  modificationList := fun i => [entry, 0, 1, 2].getD i 0
  spsMaxDecPicBufferingMinus1 := 3

def zeroRps : HevcRPS := ⟨0, 0, fun _ => 0, fun _ => 0, 0, fun _ => 0⟩

def zeroPic : SlicePic := ⟨0, fun _ _ => 0, fun _ _ => 0, 0, 0, 0, 0⟩

theorem lists_correct_threeRefs : ListsCorrect (threeRefs 2) 8 zeroRps zeroPic ∧
    (List.range 2).map ((sliceLists (threeRefs 2) 8 zeroRps zeroPic).2.2.refPOCList0 0) = [3, 7] ∧
    (List.range 2).map ((sliceLists (threeRefs 2) 8 zeroRps zeroPic).2.2.refPOCList1 0) = [7, 3] := by
  refine ⟨(lists_correct_iff (threeRefs 2) 8 zeroRps zeroPic (by decide) (by decide)).mpr
    (Or.inl fun e he => ?_), by decide +kernel, by decide +kernel⟩
  have hentries : ∀ i < 4, ((threeRefs 2).modificationList i).toNat <
      numPicTotalCurr (threeRefs 2) 8 := by decide +kernel
  rcases he with ⟨-, i, hi, rfl⟩ | ⟨-, -, i, hi, rfl⟩
  · exact hentries i (Nat.lt_trans hi (by decide))
  · exact hentries (2 + i) (Nat.add_lt_add_left hi 2)

/-- The entry 3 of a slice with three references is accepted. -/
theorem wrong_entry_accepted : ¬ ListsCorrect (threeRefs 3) 8 zeroRps zeroPic := by
  intro h
  have hrej := (h.rejected ⟨3, Or.inl ⟨by decide, 0, by decide, rfl⟩, by decide +kernel⟩).1
  exact absurd hrej (by decide +kernel)

end Slice

end MediaModules.Hevc
