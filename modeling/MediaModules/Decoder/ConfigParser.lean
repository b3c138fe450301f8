import MediaModules.Lib.Infix
import MediaModules.Lib.Words

/-!
# Integers in a configuration string

`get_config_int`. The string is a row of entries `key:int;` and the key is looked for with `strstr`,
which also stops inside another key or inside a number.
-/
namespace MediaModules.ConfigParser

open MediaModules.Lib.Infix
open MediaModules.Lib.Words (s32)

/-- The letters that `skip_spaces` passes over. -/
def isSpace (c : Char) : Bool :=
  c ∈ [' ', '\t', '\n', Char.ofNat 0x0b, Char.ofNat 0x0c, '\r', Char.ofNat 0xa0]

/-- The number that a row of decimal digits stands for. -/
def decimal (digits : List Char) : Nat := digits.foldl (fun v c => 10 * v + (c.toNat - 48)) 0

def signed (negative : Bool) (v : Nat) : Int := if negative then -v else v

/-- `sscanf(str, ":%d", &lval)` of the kernel. -/
def sscanfInt : List Char → Option Int
  | ':' :: str =>
    match str.dropWhile isSpace with
    | '-' :: str =>
      if (str.takeWhile Char.isDigit).isEmpty then none
      else some (s32 (signed true (decimal (str.takeWhile Char.isDigit))))
    | str =>
      if (str.takeWhile Char.isDigit).isEmpty then none
      else some (s32 (signed false (decimal (str.takeWhile Char.isDigit))))
  | _ => none

/-- `get_config_int`: the return value and what is stored in `*val`. The search splits the string into
what is in front of the key and what is behind it. -/
def getConfigInt (configs need : Option (List Char)) : Int × Int :=
  match configs, need with
  | some configs, some need =>
    match configs.dropInfix? need with
    | some (before, str) =>
      if before ≠ [] ∧ before.getLast? ≠ some ';' then (-2, 0)
      else if str.head? ≠ some ':' ∨ str.tail = [] then (-3, 0)
      else
        match sscanfInt str with
        | some lval => (0, lval)
        | none => (-4, 0)
    | none => (-4, 0)
  | _, _ => (-1, 0)

/-! ## The entries -/

/-- The letters of a key. -/
def keyChar (c : Char) : Bool := c.isAlphanum || c = '_'

/-- An entry `key:int;`. The number is the text of an `int`. -/
structure Entry where
  key : List Char
  negative : Bool
  digits : List Char
  key_ne : key ≠ []
  key_chars : ∀ c ∈ key, keyChar c = true
  digits_ne : digits ≠ []
  digits_isDigit : ∀ c ∈ digits, c.isDigit = true
  low : -2147483648 ≤ signed negative (decimal digits)
  high : signed negative (decimal digits) < 2147483648

namespace Entry

variable (e : Entry)

def number : List Char := if e.negative then '-' :: e.digits else e.digits

def value : Int := signed e.negative (decimal e.digits)

/-- The entry as it stands in the string. -/
def text : List Char := e.key ++ ':' :: e.number ++ [';']

/-- The key or the number has the word in it. -/
def Holds (need : List Char) : Prop := need <:+: e.key ∨ need <:+: e.number

instance (need : List Char) : Decidable (e.Holds need) :=
  inferInstanceAs (Decidable (_ ∨ _))

end Entry

/-- The configuration string of a row of entries. -/
def configsOf (es : List Entry) : List Char := es.flatMap Entry.text

/-- The function finds the value of the first entry of the key, or reports that there is none. -/
def LooksUp (es : List Entry) (need : List Char) : Prop :=
  match es.find? (fun e => e.key = need) with
  | some e => getConfigInt (some (configsOf es)) (some need) = (0, e.value)
  | none => (getConfigInt (some (configsOf es)) (some need)).1 < 0

/-! ## Letters -/

theorem ne_of_keyChar {c d : Char} (hc : keyChar c = true) (hd : keyChar d = false) : c ≠ d := by
  rintro rfl
  rw [hc] at hd
  cases hd

theorem not_mem_of_keyChars {need : List Char} {d : Char} (hk : ∀ c ∈ need, keyChar c = true)
    (hd : keyChar d = false) : d ∉ need := fun h => ne_of_keyChar (hk d h) hd rfl

theorem Entry.semicolon_not_mem_number (e : Entry) : ';' ∉ e.number := by
  have hdigits : ';' ∉ e.digits := fun h => absurd (e.digits_isDigit _ h) (by decide)
  rw [number]
  split
  · simpa using hdigits
  · exact hdigits

theorem takeWhile_digits {ds rest : List Char} (hd : ∀ c ∈ ds, c.isDigit = true) :
    (ds ++ ';' :: rest).takeWhile Char.isDigit = ds := by
  rw [List.takeWhile_append_of_pos hd, List.takeWhile_cons_of_neg (by decide), List.append_nil]

theorem not_space_of_isDigit {c : Char} (hc : c.isDigit = true) : isSpace c = false := by
  simp only [isSpace, decide_eq_false_iff_not, List.mem_cons, List.not_mem_nil, or_false, not_or]
  refine ⟨?_, ?_, ?_, ?_, ?_, ?_, ?_⟩ <;> rintro rfl <;> exact absurd hc (by decide)

/-- The number of an entry is read back. -/
theorem sscanfInt_number (e : Entry) (rest : List Char) :
    sscanfInt (':' :: (e.number ++ ';' :: rest)) = some e.value := by
  have hdigits : (e.digits ++ ';' :: rest).takeWhile Char.isDigit = e.digits :=
    takeWhile_digits e.digits_isDigit
  have hvalue : s32 e.value = e.value := Lib.Words.s32_of_range e.low e.high
  have hempty : e.digits.isEmpty = false := by simpa using e.digits_ne
  rw [Entry.number]
  split
  · next hneg =>
    have hskip : ('-' :: (e.digits ++ ';' :: rest)).dropWhile isSpace =
        '-' :: (e.digits ++ ';' :: rest) := List.dropWhile_cons_of_neg (by decide)
    simp only [sscanfInt, List.cons_append, hskip, hdigits, hempty, Bool.false_eq_true, if_false]
    rw [Entry.value, hneg] at hvalue
    rw [hvalue, Entry.value, hneg]
  · next hpos =>
    obtain ⟨d, ds, hds⟩ := List.exists_cons_of_ne_nil e.digits_ne
    have hd : d.isDigit = true := e.digits_isDigit d (hds ▸ List.mem_cons_self)
    have hskip : (e.digits ++ ';' :: rest).dropWhile isSpace = e.digits ++ ';' :: rest := by
      rw [hds, List.cons_append]
      exact List.dropWhile_cons_of_neg (by simp [not_space_of_isDigit hd])
    have hminus (str : List Char) : e.digits ++ ';' :: rest ≠ '-' :: str := by
      rw [hds, List.cons_append]
      rintro h
      rw [(List.cons.inj h).1] at hd
      exact absurd hd (by decide)
    rw [Bool.not_eq_true] at hpos
    rw [sscanfInt, hskip]
    split
    · next h => exact absurd h (hminus _)
    · rw [hdigits, hempty, if_neg Bool.false_ne_true]
      rw [Entry.value, hpos] at hvalue
      rw [hvalue, Entry.value, hpos]

/-! ## Where the search stops -/

/-- The search stopped at the key of this entry, as a whole. -/
structure StopsAt (e : Entry) (before str : List Char) : Prop where
  start : before = [] ∨ before.getLast? = some ';'
  rest : ∃ rest, str = ':' :: (e.number ++ ';' :: rest)

/-- The search stopped inside a key or a number, or at the front part of a key. -/
def StopsInside (before str : List Char) : Prop :=
  (before ≠ [] ∧ before.getLast? ≠ some ';') ∨ str.head? ≠ some ':'

theorem getConfigInt_at {e : Entry} {configs need before str : List Char}
    (hfound : configs.dropInfix? need = some (before, str)) (h : StopsAt e before str) :
    getConfigInt (some configs) (some need) = (0, e.value) := by
  obtain ⟨hstart, rest, rfl⟩ := h
  have hfront : ¬(before ≠ [] ∧ before.getLast? ≠ some ';') := by
    rcases hstart with h | h <;> simp [h]
  simp [getConfigInt, hfound, hfront, sscanfInt_number]

theorem getConfigInt_inside {configs need before str : List Char}
    (hfound : configs.dropInfix? need = some (before, str)) (h : StopsInside before str) :
    (getConfigInt (some configs) (some need)).1 < 0 := by
  simp only [getConfigInt, hfound]
  by_cases hfront : before ≠ [] ∧ before.getLast? ≠ some ';'
  · rw [if_pos hfront]
    decide
  · rw [if_neg hfront, if_pos (.inl (h.resolve_left hfront))]
    decide

theorem getConfigInt_none {configs need : List Char} (hfound : configs.dropInfix? need = none) :
    getConfigInt (some configs) (some need) = (-4, 0) := by
  simp only [getConfigInt, hfound]

variable {need : List Char}

/-- The search goes through the key, through the number and then through the other entries. -/
theorem dropInfix?_text (e : Entry) (rest : List Char) (hne : need ≠ [])
    (hk : ∀ c ∈ need, keyChar c = true) : (e.text ++ rest).dropInfix? need =
      match e.key.dropInfix? need with
      | some (p, s) => some (p, s ++ ':' :: (e.number ++ ';' :: rest))
      | none =>
        match e.number.dropInfix? need with
        | some (p, s) => some (e.key ++ ':' :: p, s ++ ';' :: rest)
        | none => (rest.dropInfix? need).map fun ps => (e.text ++ ps.1, ps.2) := by
  have htext : e.text ++ rest = e.key ++ ':' :: (e.number ++ ';' :: rest) := by simp [Entry.text]
  rw [htext, dropInfix?_append_sep hne (not_mem_of_keyChars hk rfl),
    dropInfix?_append_sep hne (not_mem_of_keyChars hk rfl)]
  cases e.key.dropInfix? need with
  | some ps => rfl
  | none =>
    cases e.number.dropInfix? need with
    | some ps => rfl
    | none => simp [Option.map_map, Function.comp_def, Entry.text]

theorem getLast?_text (e : Entry) : e.text.getLast? = some ';' := by
  have h : e.text = e.key ++ ':' :: e.number ++ [';'] := by simp [Entry.text]
  rw [h, List.getLast?_concat]

theorem stops_in_key {e : Entry} {p s rest : List Char}
    (hfound : e.key.dropInfix? need = some (p, s)) :
    if e.key = need then StopsAt e p (s ++ ':' :: (e.number ++ ';' :: rest))
    else StopsInside p (s ++ ':' :: (e.number ++ ';' :: rest)) := by
  have hkey := dropInfix?_eq_append hfound
  split
  · next hexact =>
    have hlen := congrArg List.length hkey
    rw [List.length_append, List.length_append, hexact] at hlen
    obtain rfl : p = [] := List.length_eq_zero_iff.mp (by omega)
    obtain rfl : s = [] := List.length_eq_zero_iff.mp (by omega)
    exact ⟨.inl rfl, rest, rfl⟩
  · next hlonger =>
    cases p with
    | nil =>
      cases s with
      | nil => exact absurd (by simpa using hkey) hlonger
      | cons d s =>
        refine .inr fun h => ?_
        have hd : keyChar d = true := e.key_chars d (by simp [hkey])
        exact ne_of_keyChar hd rfl (Option.some.inj h)
    | cons b p =>
      refine .inl ⟨List.cons_ne_nil b p, fun h => ?_⟩
      have hmem : ';' ∈ e.key := by
        rw [hkey, List.append_assoc]
        exact List.mem_append_left _ (List.mem_of_getLast? h)
      exact ne_of_keyChar (e.key_chars _ hmem) rfl rfl

/-- An occurrence inside a number stops the search behind the colon. -/
theorem stops_in_number {e : Entry} {p s str : List Char}
    (hfound : e.number.dropInfix? need = some (p, s)) : StopsInside (e.key ++ ':' :: p) str := by
  refine .inl ⟨by simp, fun h => ?_⟩
  have hnumber := dropInfix?_eq_append hfound
  rw [List.getLast?_append_cons] at h
  cases p with
  | nil => exact absurd h (by decide)
  | cons b p =>
    rw [List.getLast?_cons_cons] at h
    have hmem : ';' ∈ e.number := by
      rw [hnumber, List.append_assoc]
      exact List.mem_append_left _ (List.mem_of_getLast? h)
    exact e.semicolon_not_mem_number hmem

theorem StopsAt.behind {e d : Entry} {before str : List Char} (h : StopsAt e before str) :
    StopsAt e (d.text ++ before) str := by
  refine ⟨.inr ?_, h.rest⟩
  rcases h.start with rfl | hlast
  · rw [List.append_nil, getLast?_text]
  · rw [List.getLast?_append, hlast]
    rfl

theorem StopsInside.behind {d : Entry} {before str : List Char} (h : StopsInside before str) :
    StopsInside (d.text ++ before) str := by
  refine h.imp_left fun ⟨hne, hlast⟩ => ⟨by simp [hne], ?_⟩
  rwa [List.getLast?_append_of_ne_nil _ hne]

theorem search_stops (es : List Entry) (hne : need ≠ []) (hk : ∀ c ∈ need, keyChar c = true) :
    match es.find? (fun e => e.Holds need) with
    | none => (configsOf es).dropInfix? need = none
    | some e => ∃ before str, (configsOf es).dropInfix? need = some (before, str) ∧
        if e.key = need then StopsAt e before str else StopsInside before str := by
  induction es with
  | nil =>
    refine dropInfix?_eq_none_iff.mpr fun h => hne ?_
    exact List.infix_nil.mp h
  | cons e es ih =>
    have hstep := dropInfix?_text e (configsOf es) hne hk
    have hcons : configsOf (e :: es) = e.text ++ configsOf es := List.flatMap_cons
    rw [← hcons] at hstep
    cases hkey : e.key.dropInfix? need with
    | some ps =>
      have hholds : e.Holds need := .inl (dropInfix?_isSome_iff.mp (by rw [hkey]; rfl))
      rw [List.find?_cons_of_pos (by simpa using hholds)]
      rw [hkey] at hstep
      exact ⟨_, _, hstep, stops_in_key hkey⟩
    | none =>
      rw [hkey] at hstep
      have hnkey : ¬ need <:+: e.key := dropInfix?_eq_none_iff.mp hkey
      cases hnumber : e.number.dropInfix? need with
      | some ps =>
        have hholds : e.Holds need := .inr (dropInfix?_isSome_iff.mp (by rw [hnumber]; rfl))
        rw [List.find?_cons_of_pos (by simpa using hholds)]
        rw [hnumber] at hstep
        refine ⟨_, _, hstep, ?_⟩
        rw [if_neg fun h : e.key = need => hnkey (h ▸ List.infix_refl _)]
        exact stops_in_number hnumber
      | none =>
        rw [hnumber] at hstep
        have hnholds : ¬ e.Holds need := not_or.mpr ⟨hnkey, dropInfix?_eq_none_iff.mp hnumber⟩
        rw [List.find?_cons_of_neg (by simpa using hnholds)]
        cases hfind : es.find? (fun e => e.Holds need) with
        | none =>
          rw [hfind] at ih
          rw [hstep, ih]
          rfl
        | some d =>
          rw [hfind] at ih
          obtain ⟨before, str, hrest, hstops⟩ := ih
          rw [hrest] at hstep
          refine ⟨_, _, hstep, ?_⟩
          split
          · next h => exact (by rwa [if_pos h] at hstops : StopsAt d before str).behind
          · next h => exact (by rwa [if_neg h] at hstops : StopsInside before str).behind

/-! ## The lookup -/

theorem holds_of_key {e : Entry} (h : e.key = need) : e.Holds need := .inl (h ▸ List.infix_refl _)

/-- The first entry that holds the word is the first one of the key, when it is one of the key. -/
theorem find?_key {es : List Entry} {d : Entry} (hfirst : es.find? (fun e => e.Holds need) = some d)
    (hkey : d.key = need) : es.find? (fun e => e.key = need) = some d := by
  rw [List.find?_eq_some_iff_append] at hfirst ⊢
  obtain ⟨-, as, bs, hes, hbefore⟩ := hfirst
  refine ⟨by simpa using hkey, as, bs, hes, fun a ha => ?_⟩
  have hnot : ¬ a.Holds need := by simpa using hbefore a ha
  simpa using fun h => hnot (holds_of_key h)

theorem looksUp_nil (es : List Entry) : LooksUp es [] := by
  have hnone : es.find? (fun e => e.key = []) = none :=
    List.find?_eq_none.mpr fun e _ => by simpa using e.key_ne
  rw [LooksUp, hnone]
  refine getConfigInt_inside List.dropInfix?_nil (.inr fun h => ?_)
  cases es with
  | nil => cases h
  | cons e es =>
    obtain ⟨c, cs, hkey⟩ := List.exists_cons_of_ne_nil e.key_ne
    have hc : keyChar c = true := e.key_chars c (hkey ▸ List.mem_cons_self)
    have hhead : (configsOf (e :: es)).head? = some c := by
      simp [configsOf, Entry.text, hkey]
    rw [hhead] at h
    exact ne_of_keyChar hc rfl (Option.some.inj h)

/-- A key is looked up exactly when no entry has it, or the first entry that has it as a part of its key
or of its number has it as its key. -/
theorem looksUp_iff (es : List Entry) (hk : ∀ c ∈ need, keyChar c = true) :
    LooksUp es need ↔ (∀ e ∈ es, e.key ≠ need) ∨
      ∀ e, es.find? (fun e => e.Holds need) = some e → e.key = need := by
  by_cases hne : need = []
  · subst hne
    exact ⟨fun _ => .inl fun e _ => e.key_ne, fun _ => looksUp_nil es⟩
  have hstops := search_stops es hne hk
  cases hfirst : es.find? (fun e => e.Holds need) with
  | none =>
    rw [hfirst] at hstops
    have hno : ∀ e ∈ es, e.key ≠ need := fun e he h =>
      (by simpa using List.find?_eq_none.mp hfirst e he : ¬ e.Holds need) (holds_of_key h)
    have hnone : es.find? (fun e => e.key = need) = none :=
      List.find?_eq_none.mpr fun e he => by simpa using hno e he
    rw [LooksUp, hnone, getConfigInt_none hstops]
    exact ⟨fun _ => .inl hno, fun _ => by decide⟩
  | some d =>
    rw [hfirst] at hstops
    obtain ⟨before, str, hfound, hstops⟩ := hstops
    by_cases hkey : d.key = need
    · rw [if_pos hkey] at hstops
      rw [LooksUp, find?_key hfirst hkey, getConfigInt_at hfound hstops]
      exact ⟨fun _ => .inr fun e he => Option.some.inj he ▸ hkey, fun _ => rfl⟩
    · rw [if_neg hkey] at hstops
      have hneg := getConfigInt_inside hfound hstops
      rw [LooksUp]
      cases hexact : es.find? (fun e => e.key = need) with
      | none =>
        refine ⟨fun _ => .inl fun e he => ?_, fun _ => hneg⟩
        simpa using List.find?_eq_none.mp hexact e he
      | some e =>
        have hmem : e ∈ es := List.mem_of_find?_eq_some hexact
        have hekey : e.key = need := by simpa using List.find?_some hexact
        constructor
        · intro h
          simp only [h] at hneg
          exact absurd hneg (by decide)
        · rintro (hno | hall)
          · exact absurd hekey (hno e hmem)
          · exact absurd (hall d rfl) hkey

/-- `width:64;` -/
def widthEntry : Entry where
  key := ['w', 'i', 'd', 't', 'h']
  negative := false
  digits := ['6', '4']
  key_ne := by decide
  key_chars := List.all_eq_true.mp (by decide)
  digits_ne := by decide
  digits_isDigit := List.all_eq_true.mp (by decide)
  low := by decide
  high := by decide

/-- `crop_width:60;` -/
def cropWidthEntry : Entry where
  key := ['c', 'r', 'o', 'p', '_', 'w', 'i', 'd', 't', 'h']
  negative := false
  digits := ['6', '0']
  key_ne := by decide
  key_chars := List.all_eq_true.mp (by decide)
  digits_ne := by decide
  digits_isDigit := List.all_eq_true.mp (by decide)
  low := by decide
  high := by decide

theorem looksUp_iff_width_first : LooksUp [widthEntry, cropWidthEntry] widthEntry.key :=
  (looksUp_iff _ widthEntry.key_chars).mpr (.inr (by decide))

/-- Behind `crop_width` the width is not found. -/
theorem width_behind_cropWidth :
    [cropWidthEntry, widthEntry].find? (fun e => e.key = widthEntry.key) = some widthEntry ∧
      getConfigInt (some (configsOf [cropWidthEntry, widthEntry])) (some widthEntry.key) = (-2, 0) ∧
      ¬ LooksUp [cropWidthEntry, widthEntry] widthEntry.key := by
  have hfind : [cropWidthEntry, widthEntry].find? (fun e => e.key = widthEntry.key) =
      some widthEntry := rfl
  have hret : getConfigInt (some (configsOf [cropWidthEntry, widthEntry]))
      (some widthEntry.key) = (-2, 0) := by decide
  refine ⟨hfind, hret, fun h => ?_⟩
  rw [LooksUp, hfind] at h
  simp only [hret, Prod.mk.injEq] at h
  exact absurd h.1 (by decide)

end MediaModules.ConfigParser
