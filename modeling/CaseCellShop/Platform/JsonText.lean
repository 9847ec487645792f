import CaseCellShop.Platform.Json
import CaseCellShop.Platform.Numeral
import CaseCellShop.Platform.Rounding

/-! `JSON.parse`, and that it reads back what `JSON.stringify` wrote.

The parser is the one of the grammar: white space between tokens, strings as UTF-16 code
units with their escapes, numbers as the Number closest to the literal, and of a repeated
key the last value. What is written is read back, whatever white space surrounds it, if
its numbers are integers below 2^53 and no object repeats a key. -/
namespace CaseCellShop

/-! ### Strings of code units -/

namespace Text

/-- A code unit by itself. A surrogate without its other half is read as U+FFFD, as it is
when the string is written out. -/
def ofUnit (u : Nat) : Char := if 0xD800 ≤ u ∧ u < 0xE000 then '\uFFFD' else Char.ofNat u

/-- The characters of code units. -/
def ofUnits : List Nat → List Char
  | [] => []
  | [u] => [ofUnit u]
  | high :: low :: rest =>
    if 0xD800 ≤ high ∧ high < 0xDC00 ∧ 0xDC00 ≤ low ∧ low < 0xE000 then
      Char.ofNat (0x10000 + (high - 0xD800) * 0x400 + (low - 0xDC00)) :: ofUnits rest
    else ofUnit high :: ofUnits (low :: rest)

theorem ofUnit_toNat (c : Char) : ofUnit c.toNat = c := by
  have hc := toNat_not_surrogate c
  unfold ofUnit
  rw [if_neg (by omega), Char.ofNat_toNat]

theorem ofUnits_charUnits (c : Char) (units : List Nat) : ofUnits (charUnits c ++ units) = c :: ofUnits units := by
  have hc := toNat_not_surrogate c
  have hlt := toNat_lt c
  unfold charUnits
  split
  · cases units with
    | nil => simp [ofUnits, ofUnit_toNat]
    | cons u units =>
      simp only [List.cons_append, List.nil_append, ofUnits]
      rw [if_neg (by omega), ofUnit_toNat]
  · simp only [List.cons_append, List.nil_append, ofUnits]
    rw [if_pos (by omega)]
    have hsum : 0x10000 + (0xD800 + (c.toNat - 0x10000) / 0x400 - 0xD800) * 0x400 +
        (0xDC00 + (c.toNat - 0x10000) % 0x400 - 0xDC00) = c.toNat := by omega
    rw [hsum, Char.ofNat_toNat]

/-- Every string is the one of its code units. -/
theorem ofUnits_utf16 (s : String) : String.ofList (ofUnits (utf16 s)) = s := by
  have hlist : ∀ cs : List Char, ofUnits (cs.flatMap charUnits) = cs := by
    intro cs
    induction cs with
    | nil => rfl
    | cons c cs ih => rw [List.flatMap_cons, ofUnits_charUnits, ih]
  rw [utf16, hlist, String.ofList_toList]

end Text

namespace Json

/-! ### Strings -/

def hexValue (c : Char) : Option Nat :=
  if c.isDigit then some (c.toNat - '0'.toNat)
  else if 'a' ≤ c ∧ c ≤ 'f' then some (c.toNat - 'a'.toNat + 10)
  else if 'A' ≤ c ∧ c ≤ 'F' then some (c.toNat - 'A'.toNat + 10)
  else none

/-- The code unit of four hexadecimal digits. -/
def hexUnit (a b c d : Char) : Option Nat := do
  return (((← hexValue a) * 16 + (← hexValue b)) * 16 + (← hexValue c)) * 16 + (← hexValue d)

/-- The character after a backslash. -/
def escaped : Char → Option Char
  | '"' => some '"'
  | '\\' => some '\\'
  | '/' => some '/'
  | 'b' => some '\x08'
  | 'f' => some '\x0c'
  | 'n' => some '\n'
  | 'r' => some '\r'
  | 't' => some '\t'
  | _ => none

/-- The code units up to the closing quote, and what follows it. -/
def readUnits : List Char → Option (List Nat × List Char)
  | [] => none
  | '"' :: rest => some ([], rest)
  | '\\' :: 'u' :: a :: b :: c :: d :: rest => do
    let unit ← hexUnit a b c d
    (readUnits rest).map fun (units, rest) => (unit :: units, rest)
  | '\\' :: c :: rest => do
    let c ← escaped c
    (readUnits rest).map fun (units, rest) => (Text.charUnits c ++ units, rest)
  | c :: rest =>
    if c.toNat < 0x20 then none
    else (readUnits rest).map fun (units, rest) => (Text.charUnits c ++ units, rest)

/-- A string after its opening quote. -/
def readString (text : List Char) : Option (String × List Char) :=
  (readUnits text).map fun (units, rest) => (String.ofList (Text.ofUnits units), rest)

theorem hexValue_hexDigit : ∀ n < 16, hexValue (Text.hexDigit n) = some n := by decide

theorem readUnits_escaped {c d : Char} (h : escaped c = some d) (rest : List Char) :
    readUnits ('\\' :: c :: rest) = (readUnits rest).map fun (units, rest) => (Text.charUnits d ++ units, rest) := by
  have hu : c ≠ 'u' := by
    rintro rfl
    cases h
  simp [readUnits, hu, h]

theorem readUnits_plain {c : Char} (hq : c ≠ '"') (hb : c ≠ '\\') (hc : ¬c.toNat < 0x20) (rest : List Char) :
    readUnits (c :: rest) = (readUnits rest).map fun (units, rest) => (Text.charUnits c ++ units, rest) := by
  simp [readUnits, hb, hc]

theorem readUnits_escape (c : Char) (rest : List Char) :
    readUnits (Text.escape c ++ rest) = (readUnits rest).map fun (units, rest) => (Text.charUnits c ++ units, rest) := by
  unfold Text.escape
  split_ifs with hq hb h8 hc hn hr ht hu
  · subst hq
    exact readUnits_escaped rfl rest
  · subst hb
    exact readUnits_escaped rfl rest
  · subst h8
    exact readUnits_escaped rfl rest
  · subst hc
    exact readUnits_escaped rfl rest
  · subst hn
    exact readUnits_escaped rfl rest
  · subst hr
    exact readUnits_escaped rfl rest
  · subst ht
    exact readUnits_escaped rfl rest
  · have hunits : Text.charUnits c = [c.toNat] := if_pos (by omega)
    have hzero : hexValue '0' = some 0 := rfl
    have hhex : hexUnit '0' '0' (Text.hexDigit (c.toNat / 16)) (Text.hexDigit (c.toNat % 16)) = some c.toNat := by
      simp only [hexUnit, hzero, hexValue_hexDigit _ (show c.toNat / 16 < 16 by omega),
        hexValue_hexDigit _ (Nat.mod_lt c.toNat (show 0 < 16 by decide))]
      exact congrArg some (by omega)
    simp only [List.cons_append, List.nil_append, readUnits, hhex, hunits]
    rfl
  · exact readUnits_plain hq hb hu rest

/-- A quoted string is read back. -/
theorem readString_quote (s : String) (rest : List Char) :
    ∃ text, Text.quote s ++ rest = '"' :: text ∧ readString text = some (s, rest) := by
  have hunits : ∀ cs : List Char, readUnits (cs.flatMap Text.escape ++ '"' :: rest) = some (cs.flatMap Text.charUnits, rest) := by
    intro cs
    induction cs with
    | nil => rfl
    | cons c cs ih => rw [List.flatMap_cons, List.append_assoc, readUnits_escape, ih]; rfl
  refine ⟨s.toList.flatMap Text.escape ++ '"' :: rest, by simp [Text.quote], ?_⟩
  rw [readString, hunits, Option.map_some]
  exact congrArg some (Prod.ext (Text.ofUnits_utf16 s) rfl)

/-! ### Numbers -/

/-- The digits before a point: no zero stands before others. -/
def readWhole (text : List Char) : Option (List Char × List Char) :=
  let digits := text.takeWhile Char.isDigit
  if digits = [] ∨ digits.head? = some '0' ∧ digits ≠ ['0'] then none
  else some (digits, text.dropWhile Char.isDigit)

/-- The digits after a point, if there is one. -/
def readFraction : List Char → Option (List Char × List Char)
  | '.' :: text =>
    let digits := text.takeWhile Char.isDigit
    if digits = [] then none else some (digits, text.dropWhile Char.isDigit)
  | text => some ([], text)

/-- The digits of an exponent, after its sign. -/
def exponentDigits (text : List Char) : Option (Int × List Char) :=
  let digits := text.takeWhile Char.isDigit
  if digits = [] then none else some (Numeral.natOf 10 digits, text.dropWhile Char.isDigit)

def readExponent : List Char → Option (Int × List Char)
  | [] => some (0, [])
  | c :: text =>
    if c = 'e' ∨ c = 'E' then
      match text with
      | '-' :: text => (exponentDigits text).map fun (n, text) => (-n, text)
      | '+' :: text => exponentDigits text
      | text => exponentDigits text
    else some (0, c :: text)

def readUnsigned (text : List Char) : Option (JsNumber × List Char) := do
  let (whole, text) ← readWhole text
  let (fraction, text) ← readFraction text
  let (exponent, text) ← readExponent text
  return (JsNumber.ofRat (Numeral.natOf 10 (whole ++ fraction) * (10 : Rat) ^ (exponent - fraction.length)), text)

def readNumber : List Char → Option (JsNumber × List Char)
  | '-' :: text => (readUnsigned text).map fun (n, text) => (n.neg, text)
  | text => readUnsigned text

/-- No number goes on here. -/
def Delimited (text : List Char) : Prop := ∀ c ∈ text.head?, c.isDigit = false ∧ c ≠ '.' ∧ c ≠ 'e' ∧ c ≠ 'E'

theorem digits_append {digits text : List Char} (hdigits : ∀ c ∈ digits, c.isDigit = true) (h : Delimited text) :
    (digits ++ text).takeWhile Char.isDigit = digits ∧ (digits ++ text).dropWhile Char.isDigit = text := by
  have hstop : text.takeWhile Char.isDigit = [] ∧ text.dropWhile Char.isDigit = text := by
    cases text with
    | nil => exact ⟨rfl, rfl⟩
    | cons c text => simp [(h c rfl).1]
  rw [List.takeWhile_append_of_pos hdigits, List.dropWhile_append_of_pos hdigits, hstop.1, hstop.2, List.append_nil]
  exact ⟨rfl, rfl⟩

/-- A decimal numeral starts with a zero only if it is 0. -/
theorem head_decimal {n : Nat} (h : 0 < n) : (Text.decimal n).head? ≠ some '0' := by
  induction n using Nat.strongRecOn with
  | ind n ih =>
    rw [Text.decimal, Nat.toDigits_eq_if (by decide)]
    split
    · rename_i hlt
      clear ih
      revert h
      revert n
      decide
    · have htail := ih (n / 10) (by omega) (by omega)
      rwa [List.head?_append_of_ne_nil _ Nat.toDigits_ne_nil]

theorem natOf_decimal (n : Nat) : Numeral.natOf 10 (Text.decimal n) = n := by
  have hdigits : ∀ c ∈ Text.decimal n, c.isDigit = true :=
    fun c hc => Nat.isDigit_of_mem_toDigits (by decide) (by decide) hc
  have hfold : ∀ (digits : List Char) (value : Nat), (∀ c ∈ digits, c.isDigit = true) →
      digits.foldl (fun value c => 10 * value + Numeral.digitValue c) value = Nat.ofDigitChars 10 digits value := by
    intro digits
    induction digits with
    | nil => exact fun _ _ => rfl
    | cons c digits ih =>
      intro value h
      have hc : Numeral.digitValue c = c.toNat - '0'.toNat := if_pos (h c (.head _))
      rw [List.foldl_cons, ih _ fun d hd => h d (.tail _ hd), hc]
      rfl
  rw [Numeral.natOf, hfold _ _ hdigits]
  exact Nat.ofDigitChars_toDigits (by decide) (by decide)

theorem readUnsigned_decimal {n : Nat} (hn : n < 2 ^ 53) {text : List Char} (h : Delimited text) :
    readUnsigned (Text.decimal n ++ text) = some (.finite n, text) := by
  have hdigits : ∀ c ∈ Text.decimal n, c.isDigit = true :=
    fun c hc => Nat.isDigit_of_mem_toDigits (by decide) (by decide) hc
  obtain ⟨htake, hdrop⟩ := digits_append hdigits h
  have hwhole : readWhole (Text.decimal n ++ text) = some (Text.decimal n, text) := by
    unfold readWhole
    rw [htake, hdrop]
    refine if_neg ?_
    rintro (hnil | ⟨hhead, hne⟩)
    · exact Nat.toDigits_ne_nil hnil
    · rcases Nat.eq_zero_or_pos n with rfl | hpos
      · exact hne rfl
      · exact head_decimal hpos hhead
  have hfraction : readFraction text = some ([], text) := by
    cases text with
    | nil => rfl
    | cons c text => simp [readFraction, (h c rfl).2.1]
  have hexponent : readExponent text = some (0, text) := by
    cases text with
    | nil => rfl
    | cons c text => simp [readExponent, (h c rfl).2.2]
  have hvalue : JsNumber.ofRat n = .finite n :=
    JsNumber.ofRat_of_lt (Number.isNumber_of_lt (by simpa using hn)) (lt_trans hn (by decide))
  simp only [readUnsigned, hwhole, hfraction, hexponent, Option.bind_eq_bind, Option.bind_some, List.append_nil,
    natOf_decimal, List.length_nil, Nat.cast_zero, sub_zero, zpow_zero, mul_one, hvalue]
  rfl

theorem readNumber_integer {n : Int} (hn : n.natAbs < 2 ^ 53) {text : List Char} (h : Delimited text) :
    readNumber (Text.integer n ++ text) = some (.finite n, text) := by
  cases n with
  | ofNat n =>
    change n < 2 ^ 53 at hn
    have hminus : ∀ rest, Text.decimal n ++ text ≠ '-' :: rest := by
      intro rest heq
      cases hdecimal : Text.decimal n with
      | nil => exact Nat.toDigits_ne_nil hdecimal
      | cons c digits =>
        rw [hdecimal] at heq
        have hmem : '-' ∈ Text.decimal n := by
          rw [hdecimal, ← (List.cons.inj heq).1]
          exact List.mem_cons_self
        exact Text.not_mem_decimal (by decide) n hmem
    show readNumber (Text.decimal n ++ text) = _
    have hread : readNumber (Text.decimal n ++ text) = readUnsigned (Text.decimal n ++ text) := by
      rw [readNumber.eq_def]
      split
      · rename_i heq
        exact absurd heq (hminus _)
      · rfl
    rw [hread, readUnsigned_decimal hn h]
    rfl
  | negSucc n =>
    change n + 1 < 2 ^ 53 at hn
    show readNumber ('-' :: (Text.decimal (n + 1) ++ text)) = _
    rw [readNumber, readUnsigned_decimal hn h]
    simp [JsNumber.neg, Int.negSucc_eq]

/-! ### Values -/

/-- White space between tokens. -/
def isBlank (c : Char) : Bool := c = ' ' || c = '\t' || c = '\n' || c = '\r'

def skip (text : List Char) : List Char := text.dropWhile isBlank

/-- `object[key] = value` -/
def assign (fields : List (String × Json)) (key : String) (value : Json) : List (String × Json) :=
  if key ∈ fields.map Prod.fst then fields.map fun field => if field.1 = key then (key, value) else field
  else fields ++ [(key, value)]

/-- The object that fields are assigned to in order. -/
def ofFields (fields : List (String × Json)) : Json :=
  .object (fields.foldl (fun object field => assign object field.1 field.2) [])

/-- A literal after its first character. -/
def readLiteral (literal : List Char) (value : Json) (text : List Char) : Option (Json × List Char) :=
  if literal.isPrefixOf text then some (value, text.drop literal.length) else none

mutual

/-- The value at the start of a text, and what follows it. -/
def readValue : Nat → List Char → Option (Json × List Char)
  | 0, _ => none
  | fuel + 1, text =>
    match skip text with
    | [] => none
    | c :: text =>
      if c = '"' then (readString text).map fun (s, text) => (.string s, text)
      else if c = '[' then
        if (skip text).head? = some ']' then some (.array [], (skip text).tail)
        else (readElements fuel text).map fun (elements, text) => (.array elements, text)
      else if c = '\x7b' then
        if (skip text).head? = some '\x7d' then some (.object [], (skip text).tail)
        else (readFields fuel text).map fun (fields, text) => (ofFields fields, text)
      else if c = 'n' then readLiteral "ull".toList .null text
      else if c = 't' then readLiteral "rue".toList (.bool true) text
      else if c = 'f' then readLiteral "alse".toList (.bool false) text
      else (readNumber (c :: text)).map fun (n, text) => (.number n, text)

/-- The elements of an array that has some, up to the closing bracket. -/
def readElements : Nat → List Char → Option (List Json × List Char)
  | 0, _ => none
  | fuel + 1, text => do
    let (element, text) ← readValue fuel text
    match skip text with
    | ']' :: text => return ([element], text)
    | ',' :: text => (readElements fuel text).map fun (elements, text) => (element :: elements, text)
    | _ => none

/-- The fields of an object that has some, up to the closing brace. -/
def readFields : Nat → List Char → Option (List (String × Json) × List Char)
  | 0, _ => none
  | fuel + 1, text =>
    match skip text with
    | '"' :: text => do
      let (key, text) ← readString text
      match skip text with
      | ':' :: text => do
        let (value, text) ← readValue fuel text
        match skip text with
        | '\x7d' :: text => return ([(key, value)], text)
        | ',' :: text => (readFields fuel text).map fun (fields, text) => ((key, value) :: fields, text)
        | _ => none
      | _ => none
    | _ => none

end

/-- `JSON.parse(text)`; `none` throws. A value inside another begins further on, so that
the fuel outlasts every text. -/
def parse (text : List Char) : Option Json := do
  let (value, text) ← readValue (2 * text.length + 1) text
  if skip text = [] then return value else none

example : (parse "  \x7b \"a\" : [1, -2.50e1 ,\"\\u00e9\\ud83d\\ude00\"], \"a\":null\x7d ".toList).isSome = true := by
  decide +kernel

/-! ### What is written is read back -/

/-- `String(n)` for an integer of at most 53 bits: its decimal digits. -/
def PrintsIntegers (numberText : JsNumber → String) : Prop :=
  ∀ n : Int, n.natAbs < 2 ^ 53 → numberText (.finite n) = String.ofList (Text.integer n)

mutual

/-- All numbers are integers below 2^53, and no object repeats a key. -/
def Writable : Json → Prop
  | .number n => ∃ k : Int, k.natAbs < 2 ^ 53 ∧ n = .finite k
  | .array elements => AllWritable elements
  | .object fields => (fields.map Prod.fst).Nodup ∧ FieldsWritable fields
  | _ => True

def AllWritable : List Json → Prop
  | [] => True
  | element :: rest => element.Writable ∧ AllWritable rest

def FieldsWritable : List (String × Json) → Prop
  | [] => True
  | (_, value) :: rest => value.Writable ∧ FieldsWritable rest

end

theorem ofFields_of_nodup {fields : List (String × Json)} (h : (fields.map Prod.fst).Nodup) :
    ofFields fields = .object fields := by
  have hfold : ∀ (rest before : List (String × Json)), ((before ++ rest).map Prod.fst).Nodup →
      rest.foldl (fun object field => assign object field.1 field.2) before = before ++ rest := by
    intro rest
    induction rest with
    | nil => simp
    | cons field rest ih =>
      intro before hnodup
      have hnew : field.1 ∉ before.map Prod.fst := by
        rw [List.map_append, List.nodup_append] at hnodup
        exact fun hmem => hnodup.2.2 _ hmem _ (List.mem_map_of_mem (.head _)) rfl
      rw [List.foldl_cons, assign, if_neg hnew, ih _ (by simpa using hnodup)]
      simp
  exact congrArg Json.object (hfold fields [] h)

section
variable {numberText : JsNumber → String}

/-- A written number begins with its sign or a digit. -/
theorem integer_cons (n : Int) : ∃ c digits, Text.integer n = c :: digits ∧ (c = '-' ∨ c.isDigit = true) := by
  cases n with
  | ofNat n =>
    obtain ⟨c, digits, hdecimal⟩ := List.exists_cons_of_ne_nil (Nat.toDigits_ne_nil (n := n) (b := 10))
    have hc : c ∈ Nat.toDigits 10 n := by
      rw [hdecimal]
      exact List.mem_cons_self
    exact ⟨c, digits, hdecimal, .inr (Nat.isDigit_of_mem_toDigits (by decide) (by decide) hc)⟩
  | negSucc n => exact ⟨'-', Text.decimal (n + 1), rfl, .inl rfl⟩

/-- No other token begins so. -/
theorem numeral_ne {c : Char} (hc : c = '-' ∨ c.isDigit = true) {d : Char} (hminus : d ≠ '-')
    (hdigit : d.isDigit = false) :
    c ≠ d := by
  rintro rfl
  rcases hc with hc | hc
  · exact hminus hc
  · rw [hdigit] at hc
    cases hc

theorem not_blank_numeral {c : Char} (hc : c = '-' ∨ c.isDigit = true) : isBlank c = false := by
  simp [isBlank, numeral_ne hc (show ' ' ≠ '-' by decide) (by decide),
    numeral_ne hc (show '\t' ≠ '-' by decide) (by decide),
    numeral_ne hc (show '\n' ≠ '-' by decide) (by decide), numeral_ne hc (show '\r' ≠ '-' by decide) (by decide)]

theorem skip_cons {c : Char} (h : isBlank c = false) (text : List Char) : skip (c :: text) = c :: text := by
  simp [skip, h]

theorem readValue_integer {n : Int} (hn : n.natAbs < 2 ^ 53) (fuel : Nat) {text : List Char} (h : Delimited text) :
    readValue (fuel + 1) (Text.integer n ++ text) = some (.number (.finite n), text) := by
  obtain ⟨c, digits, hinteger, hc⟩ := integer_cons n
  have hread := readNumber_integer hn h
  rw [hinteger] at hread ⊢
  rw [List.cons_append] at hread ⊢
  rw [readValue, skip_cons (not_blank_numeral hc)]
  dsimp only
  rw [if_neg (numeral_ne hc (by decide) (by decide)), if_neg (numeral_ne hc (by decide) (by decide)),
    if_neg (numeral_ne hc (by decide) (by decide)), if_neg (numeral_ne hc (by decide) (by decide)),
    if_neg (numeral_ne hc (by decide) (by decide)), if_neg (numeral_ne hc (by decide) (by decide)), hread]
  rfl

/-- A written value begins with a character of its own. -/
theorem stringify_cons (hprints : PrintsIntegers numberText) {value : Json} (h : value.Writable) :
    ∃ c text, stringify numberText value = c :: text ∧ isBlank c = false ∧ c ≠ ']' := by
  cases value with
  | number n =>
    obtain ⟨k, hk, rfl⟩ := h
    obtain ⟨c, digits, hinteger, hc⟩ := integer_cons k
    refine ⟨c, digits, ?_, not_blank_numeral hc, numeral_ne hc (by decide) (by decide)⟩
    rw [stringify, hprints k hk, String.toList_ofList, hinteger]
  | null => exact ⟨'n', _, rfl, by decide⟩
  | bool b => cases b <;> exact ⟨_, _, rfl, by decide⟩
  | string s => exact ⟨'"', _, rfl, by decide⟩
  | array elements => exact ⟨'[', _, by rw [stringify], by decide⟩
  | object fields => exact ⟨'\x7b', _, by rw [stringify], by decide⟩

theorem delimited_of {c : Char} (h : c.isDigit = false ∧ c ≠ '.' ∧ c ≠ 'e' ∧ c ≠ 'E') (text : List Char) :
    Delimited (c :: text) := by
  rintro d ⟨⟩
  exact h

mutual

theorem readValue_stringify (hprints : PrintsIntegers numberText) :
    ∀ (value : Json), value.Writable → ∀ (fuel : Nat) (text : List Char),
    2 * (stringify numberText value).length ≤ fuel + 1 → Delimited text →
    readValue fuel (stringify numberText value ++ text) = some (value, text)
  | value, h, 0, text, hfuel, _ => by
    obtain ⟨c, rest, hvalue, -⟩ := stringify_cons hprints h
    rw [hvalue, List.length_cons] at hfuel
    omega
  | .null, _, fuel + 1, text, _, _ => rfl
  | .bool true, _, fuel + 1, text, _, _ => rfl
  | .bool false, _, fuel + 1, text, _, _ => rfl
  | .number n, h, fuel + 1, text, _, htext => by
    obtain ⟨k, hk, rfl⟩ := h
    rw [stringify, hprints k hk, String.toList_ofList]
    exact readValue_integer hk fuel htext
  | .string s, _, fuel + 1, text, _, _ => by
    obtain ⟨rest, hquote, hread⟩ := readString_quote s text
    rw [stringify, hquote, readValue, skip_cons (by decide)]
    simp only [if_true, hread]
    rfl
  | .array [], _, fuel + 1, text, _, _ => rfl
  | .array (element :: rest), h, fuel + 1, text, hfuel, _ => by
    rw [stringify, List.length_cons] at hfuel
    have helements := readElements_stringify hprints (element :: rest) h (List.cons_ne_nil _ _) fuel text (by omega)
    -- the first element is no closing bracket
    obtain ⟨c, begun, hc, hblank, hbracket⟩ := stringify_cons hprints h.1
    have hbegins : ∃ after, stringifyElements numberText (element :: rest) = c :: after := by
      cases rest with
      | nil => exact ⟨_, by rw [stringifyElements, hc, List.cons_append]⟩
      | cons next rest => exact ⟨_, by rw [stringifyElements, hc, List.cons_append]; nofun⟩
    obtain ⟨after, hafter⟩ := hbegins
    rw [stringify, List.cons_append, readValue, skip_cons (by decide)]
    have hhead : (skip (stringifyElements numberText (element :: rest) ++ text)).head? ≠ some ']' := by
      rw [hafter, List.cons_append, skip_cons hblank, List.head?_cons, ne_eq, Option.some.injEq]
      exact hbracket
    dsimp only
    rw [if_neg (by decide), if_pos rfl, if_neg hhead, helements]
    rfl
  | .object [], _, fuel + 1, text, _, _ => rfl
  | .object (field :: rest), h, fuel + 1, text, hfuel, _ => by
    rw [stringify, List.length_cons] at hfuel
    have hfields := readFields_stringify hprints (field :: rest) h.2 (List.cons_ne_nil _ _) fuel text (by omega)
    have hbegins : ∃ after, stringifyFields numberText (field :: rest) = '"' :: after := by
      cases rest with
      | nil => exact ⟨_, by rw [stringifyFields, Text.quote, List.cons_append]⟩
      | cons next rest => exact ⟨_, by rw [stringifyFields, Text.quote, List.cons_append]; nofun⟩
    obtain ⟨after, hafter⟩ := hbegins
    rw [stringify, List.cons_append, readValue, skip_cons (by decide)]
    have hhead : (skip (stringifyFields numberText (field :: rest) ++ text)).head? ≠ some '\x7d' := by
      rw [hafter, List.cons_append, skip_cons (by decide), List.head?_cons]
      decide
    dsimp only
    rw [if_neg (by decide), if_neg (by decide), if_pos rfl, if_neg hhead, hfields, Option.map_some,
      ofFields_of_nodup h.1]

theorem readElements_stringify (hprints : PrintsIntegers numberText) :
    ∀ (elements : List Json), AllWritable elements → elements ≠ [] →
    ∀ (fuel : Nat) (text : List Char), 2 * (stringifyElements numberText elements).length ≤ fuel →
    readElements fuel (stringifyElements numberText elements ++ text) = some (elements, text)
  | [], _, h, _, _, _ => absurd rfl h
  | element :: rest, _, _, 0, _, hfuel => by
    cases rest <;> simp [stringifyElements] at hfuel
  | [element], h, _, fuel + 1, text, hfuel => by
    rw [stringifyElements, List.length_append, List.length_singleton] at hfuel
    have hread := readValue_stringify hprints element h.1 fuel (']' :: text) (by omega) (delimited_of (by decide) _)
    rw [stringifyElements, List.append_assoc, List.singleton_append, readElements, hread]
    rfl
  | element :: next :: rest, h, _, fuel + 1, text, hfuel => by
    simp only [stringifyElements, List.length_append, List.length_cons] at hfuel
    have hread := readValue_stringify hprints element h.1 fuel (',' :: (stringifyElements numberText (next :: rest) ++ text))
      (by omega) (delimited_of (by decide) _)
    have hrest := readElements_stringify hprints (next :: rest) h.2 (List.cons_ne_nil _ _) fuel text (by omega)
    rw [stringifyElements, List.append_assoc, List.cons_append, readElements, hread]
    · simp only [Option.bind_eq_bind, Option.bind_some, skip_cons (show isBlank ',' = false by decide), hrest, Option.map_some]
    · nofun

theorem readFields_stringify (hprints : PrintsIntegers numberText) : ∀ (fields : List (String × Json)),
    FieldsWritable fields → fields ≠ [] → ∀ (fuel : Nat) (text : List Char), 2 * (stringifyFields numberText fields).length ≤ fuel →
    readFields fuel (stringifyFields numberText fields ++ text) = some (fields, text)
  | [], _, h, _, _, _ => absurd rfl h
  | (key, value) :: rest, _, _, 0, _, hfuel => by
    cases rest <;> simp [stringifyFields, Text.quote] at hfuel
  | [(key, value)], h, _, fuel + 1, text, hfuel => by
    simp only [stringifyFields, List.length_append, List.length_cons, List.length_nil] at hfuel
    have hread := readValue_stringify hprints value h.1 fuel ('\x7d' :: text) (by omega) (delimited_of (by decide) _)
    obtain ⟨after, hquote, hkey⟩ :=
      readString_quote key (':' :: (stringify numberText value ++ '\x7d' :: text))
    have htext : stringifyFields numberText [(key, value)] ++ text = '"' :: after := by
      rw [← hquote]
      simp [stringifyFields]
    rw [htext, readFields, skip_cons (by decide)]
    simp only [hkey, Option.bind_eq_bind, Option.bind_some, skip_cons (show isBlank ':' = false by decide), hread,
      skip_cons (show isBlank '\x7d' = false by decide)]
    rfl
  | (key, value) :: next :: rest, h, _, fuel + 1, text, hfuel => by
    simp only [stringifyFields, List.length_append, List.length_cons] at hfuel
    have hread := readValue_stringify hprints value h.1 fuel (',' :: (stringifyFields numberText (next :: rest) ++ text))
      (by omega) (delimited_of (by decide) _)
    have hrest := readFields_stringify hprints (next :: rest) h.2 (List.cons_ne_nil _ _) fuel text (by omega)
    obtain ⟨after, hquote, hkey⟩ := readString_quote key
      (':' :: (stringify numberText value ++ ',' :: (stringifyFields numberText (next :: rest) ++ text)))
    have htext : stringifyFields numberText ((key, value) :: next :: rest) ++ text = '"' :: after := by
      rw [← hquote]
      simp [stringifyFields]
    rw [htext, readFields, skip_cons (by decide)]
    simp only [hkey, Option.bind_eq_bind, Option.bind_some, skip_cons (show isBlank ':' = false by decide), hread,
      skip_cons (show isBlank ',' = false by decide), hrest, Option.map_some]

end

/-- `JSON.parse(JSON.stringify(value))` is the value. -/
theorem parse_stringify (hprints : PrintsIntegers numberText) {value : Json} (h : value.Writable) :
    parse (stringify numberText value) = some value := by
  have hread := readValue_stringify hprints value h (2 * (stringify numberText value).length + 1) [] (by omega) nofun
  rw [List.append_nil] at hread
  rw [parse, hread]
  rfl

end

/-! ### Fields in any order -/

theorem fieldsWritable_iff {fields : List (String × Json)} :
    FieldsWritable fields ↔ ∀ field ∈ fields, field.2.Writable := by
  induction fields with
  | nil => simp [FieldsWritable]
  | cons field rest ih => simp [FieldsWritable, ih]

theorem lookup_eq_some_iff_mem {fields : List (String × Json)} (h : (fields.map Prod.fst).Nodup) {key : String}
    {value : Json} : fields.lookup key = some value ↔ (key, value) ∈ fields := by
  induction fields with
  | nil => simp
  | cons field rest ih =>
    obtain ⟨name, other⟩ := field
    rw [List.map_cons, List.nodup_cons] at h
    by_cases hkey : key = name
    · subst hkey
      have hrest : (key, value) ∉ rest := fun hmem => h.1 (List.mem_map.mpr ⟨_, hmem, rfl⟩)
      simp [hrest, eq_comm]
    · have hbeq : (key == name) = false := by simpa using hkey
      simp [List.lookup_cons, hbeq, hkey, ih h.2]

/-- What a field holds does not depend on where it stands. -/
theorem lookup_perm {fields fields' : List (String × Json)} (h : (fields.map Prod.fst).Nodup)
    (hperm : fields'.Perm fields) (key : String) : fields'.lookup key = fields.lookup key := by
  have h' : (fields'.map Prod.fst).Nodup := (hperm.map Prod.fst).nodup_iff.mpr h
  ext value
  rw [lookup_eq_some_iff_mem h', lookup_eq_some_iff_mem h, hperm.mem_iff]

theorem writable_perm {fields fields' : List (String × Json)} (hperm : fields'.Perm fields)
    (h : (Json.object fields).Writable) : (Json.object fields').Writable := by
  refine ⟨(hperm.map Prod.fst).nodup_iff.mpr h.1, fieldsWritable_iff.mpr fun field hfield => ?_⟩
  exact fieldsWritable_iff.mp h.2 field (hperm.mem_iff.mp hfield)

/-! ### The fuel outlasts every text -/

theorem length_dropWhile_le (p : Char → Bool) (text : List Char) : (text.dropWhile p).length ≤ text.length :=
  (List.dropWhile_sublist p).length_le

theorem length_skip_le (text : List Char) : (skip text).length ≤ text.length := length_dropWhile_le _ _

theorem readUnits_length {text : List Char} {units : List Nat} {rest : List Char}
    (h : readUnits text = some (units, rest)) : rest.length < text.length := by
  induction text using readUnits.induct generalizing units rest with
  | case1 => cases h
  | case2 text =>
    cases h
    exact Nat.lt_succ_self _
  | case3 a b c d text ih =>
    simp only [readUnits, Option.bind_eq_bind, Option.bind_eq_some_iff, Option.map_eq_some_iff] at h
    obtain ⟨_, _, ⟨units', rest'⟩, hread, heq⟩ := h
    cases heq
    have := ih hread
    simp only [List.length_cons]
    omega
  | case4 c text hnot ih =>
    simp only [readUnits, Option.bind_eq_bind, Option.bind_eq_some_iff, Option.map_eq_some_iff] at h
    obtain ⟨_, _, ⟨units', rest'⟩, hread, heq⟩ := h
    cases heq
    have := ih hread
    simp only [List.length_cons]
    omega
  | case5 c text hq hb hc hlt =>
    simp [readUnits, hlt] at h
  | case6 c text hq hb hc hlt ih =>
    simp only [readUnits, hlt, if_false, Option.map_eq_some_iff] at h
    obtain ⟨⟨units', rest'⟩, hread, heq⟩ := h
    cases heq
    have := ih hread
    simp only [List.length_cons]
    omega

theorem readString_length {text : List Char} {s : String} {rest : List Char}
    (h : readString text = some (s, rest)) : rest.length < text.length := by
  obtain ⟨⟨units, rest'⟩, hread, heq⟩ := Option.map_eq_some_iff.mp h
  cases heq
  exact readUnits_length hread

theorem exponentDigits_length {text : List Char} {n : Int} {rest : List Char}
    (h : exponentDigits text = some (n, rest)) : rest.length ≤ text.length := by
  unfold exponentDigits at h
  dsimp only at h
  split at h
  · cases h
  · cases h
    exact length_dropWhile_le _ _

theorem readExponent_length {text : List Char} {n : Int} {rest : List Char}
    (h : readExponent text = some (n, rest)) : rest.length ≤ text.length := by
  unfold readExponent at h
  split at h
  · cases h
    exact le_rfl
  · split at h
    · split at h
      · obtain ⟨⟨n', rest'⟩, hread, heq⟩ := Option.map_eq_some_iff.mp h
        cases heq
        have := exponentDigits_length hread
        simp only [List.length_cons]
        omega
      · have := exponentDigits_length h
        simp only [List.length_cons]
        omega
      · have := exponentDigits_length h
        simp only [List.length_cons]
        omega
    · cases h
      exact le_rfl

theorem readFraction_length {text digits rest : List Char} (h : readFraction text = some (digits, rest)) :
    rest.length ≤ text.length := by
  unfold readFraction at h
  split at h
  · dsimp only at h
    split at h
    · cases h
    · cases h
      exact le_trans (length_dropWhile_le _ _) (Nat.le_succ _)
  · cases h
    exact le_rfl

theorem readWhole_length {text digits rest : List Char} (h : readWhole text = some (digits, rest)) :
    rest.length < text.length := by
  unfold readWhole at h
  dsimp only at h
  split at h
  · cases h
  · rename_i hdigits
    cases h
    have hsum := congrArg List.length (List.takeWhile_append_dropWhile (p := Char.isDigit) (l := text))
    have hpos : 0 < (text.takeWhile Char.isDigit).length :=
      List.length_pos_iff.mpr fun hnil => hdigits (.inl hnil)
    rw [List.length_append] at hsum
    omega

theorem readUnsigned_length {text : List Char} {n : JsNumber} {rest : List Char}
    (h : readUnsigned text = some (n, rest)) : rest.length < text.length := by
  simp only [readUnsigned, Option.bind_eq_bind, Option.bind_eq_some_iff, Option.pure_def, Option.some.injEq,
    Prod.mk.injEq] at h
  obtain ⟨whole, hwhole, fraction, hfraction, exponent, hexponent, -, rfl⟩ := h
  have := readWhole_length hwhole
  have := readFraction_length hfraction
  have := readExponent_length hexponent
  omega

theorem readNumber_length {text : List Char} {n : JsNumber} {rest : List Char}
    (h : readNumber text = some (n, rest)) : rest.length < text.length := by
  unfold readNumber at h
  split at h
  · obtain ⟨⟨n', rest'⟩, hread, heq⟩ := Option.map_eq_some_iff.mp h
    cases heq
    exact lt_trans (readUnsigned_length hread) (Nat.lt_succ_self _)
  · exact readUnsigned_length h

theorem readLiteral_length {literal text : List Char} {value : Json} {v : Json} {rest : List Char}
    (h : readLiteral literal value text = some (v, rest)) : rest.length ≤ text.length := by
  unfold readLiteral at h
  split at h
  · cases h
    exact (List.drop_sublist _ _).length_le
  · cases h

/-- What is read is gone. -/
structure Consumes (fuel : Nat) : Prop where
  value : ∀ {text v rest}, readValue fuel text = some (v, rest) → rest.length < text.length
  elements : ∀ {text es rest}, readElements fuel text = some (es, rest) → rest.length < text.length
  fields : ∀ {text fs rest}, readFields fuel text = some (fs, rest) → rest.length < text.length

theorem consumes (fuel : Nat) : Consumes fuel := by
  induction fuel with
  | zero => constructor <;> intro text v rest h <;> simp [readValue, readElements, readFields] at h
  | succ fuel ih =>
    constructor
    · intro text v rest h
      have hskip := length_skip_le text
      rw [readValue] at h
      split at h
      · cases h
      · rename_i c text' htext
        rw [htext, List.length_cons] at hskip
        have htail := length_skip_le text'
        have hlast : (skip text').tail.length ≤ (skip text').length := by simp
        split_ifs at h
        · obtain ⟨⟨s, rest'⟩, hread, heq⟩ := Option.map_eq_some_iff.mp h
          cases heq
          have := readString_length hread
          omega
        · cases h
          omega
        · obtain ⟨⟨es, rest'⟩, hread, heq⟩ := Option.map_eq_some_iff.mp h
          cases heq
          have := ih.elements hread
          omega
        · cases h
          omega
        · obtain ⟨⟨es, rest'⟩, hread, heq⟩ := Option.map_eq_some_iff.mp h
          cases heq
          have := ih.fields hread
          omega
        · have := readLiteral_length h
          omega
        · have := readLiteral_length h
          omega
        · have := readLiteral_length h
          omega
        · obtain ⟨⟨n, rest'⟩, hread, heq⟩ := Option.map_eq_some_iff.mp h
          cases heq
          have := readNumber_length hread
          simp only [List.length_cons] at this
          omega
    · intro text es rest h
      simp only [readElements, Option.bind_eq_bind, Option.bind_eq_some_iff] at h
      obtain ⟨⟨element, text'⟩, hvalue, h⟩ := h
      have := ih.value hvalue
      have hskip := length_skip_le text'
      split at h
      · rename_i htext
        cases h
        rw [htext, List.length_cons] at hskip
        omega
      · rename_i htext
        obtain ⟨⟨es', rest'⟩, hread, heq⟩ := Option.map_eq_some_iff.mp h
        cases heq
        have := ih.elements hread
        rw [htext, List.length_cons] at hskip
        show rest'.length < text.length
        omega
      · cases h
    · intro text fs rest h
      have hskip := length_skip_le text
      rw [readFields] at h
      split at h
      · rename_i htext
        rw [htext, List.length_cons] at hskip
        simp only [Option.bind_eq_bind, Option.bind_eq_some_iff] at h
        obtain ⟨⟨key, text'⟩, hkey, h⟩ := h
        have := readString_length hkey
        have hskip' := length_skip_le text'
        split at h
        · rename_i htext'
          rw [htext', List.length_cons] at hskip'
          simp only [Option.bind_eq_some_iff] at h
          obtain ⟨⟨value, text''⟩, hvalue, h⟩ := h
          have := ih.value hvalue
          have hskip'' := length_skip_le text''
          split at h
          · rename_i htext''
            cases h
            rw [htext'', List.length_cons] at hskip''
            omega
          · rename_i htext''
            obtain ⟨⟨fs', rest'⟩, hread, heq⟩ := Option.map_eq_some_iff.mp h
            cases heq
            have := ih.fields hread
            rw [htext'', List.length_cons] at hskip''
            show rest'.length < text.length
            omega
          · cases h
        · cases h
      · cases h

/-- More fuel changes nothing. -/
structure Outlasts (fuel : Nat) : Prop where
  value : ∀ text, 2 * text.length + 1 ≤ fuel → readValue (fuel + 1) text = readValue fuel text
  elements : ∀ text, 2 * text.length + 2 ≤ fuel → readElements (fuel + 1) text = readElements fuel text
  fields : ∀ text, 2 * text.length + 2 ≤ fuel → readFields (fuel + 1) text = readFields fuel text

theorem outlasts (fuel : Nat) : Outlasts fuel := by
  induction fuel with
  | zero => constructor <;> (intro text h; omega)
  | succ fuel ih =>
    constructor
    · intro text h
      have hskip := length_skip_le text
      rw [readValue, readValue]
      split
      · rfl
      · rename_i c text' htext
        rw [htext, List.length_cons] at hskip
        rw [ih.elements text' (by omega), ih.fields text' (by omega)]
    · intro text h
      rw [readElements, readElements, ih.value text (by omega)]
      refine Option.bind_congr fun ⟨element, text'⟩ hvalue => ?_
      have := (consumes fuel).value hvalue
      have hskip := length_skip_le text'
      dsimp only
      split
      · rfl
      · rename_i htext
        rw [htext, List.length_cons] at hskip
        rw [ih.elements _ (by omega)]
      · rfl
    · intro text h
      have hskip := length_skip_le text
      rw [readFields, readFields]
      split
      · rename_i htext
        rw [htext, List.length_cons] at hskip
        refine Option.bind_congr fun ⟨key, text'⟩ hkey => ?_
        have := readString_length hkey
        have hskip' := length_skip_le text'
        dsimp only
        split
        · rename_i htext'
          rw [htext', List.length_cons] at hskip'
          rw [ih.value _ (by omega)]
          refine Option.bind_congr fun ⟨value, text''⟩ hvalue => ?_
          have := (consumes fuel).value hvalue
          have hskip'' := length_skip_le text''
          dsimp only
          split
          · rfl
          · rename_i htext''
            rw [htext'', List.length_cons] at hskip''
            rw [ih.fields _ (by omega)]
          · rfl
        · rfl
      · rfl

/-- `parse` refuses no text for want of fuel. -/
theorem readValue_fuel (text : List Char) (more : Nat) :
    readValue (2 * text.length + 1 + more) text = readValue (2 * text.length + 1) text := by
  induction more with
  | zero => rfl
  | succ more ih => rw [← ih, ← Nat.add_assoc, (outlasts _).value text (Nat.le_add_right _ _)]

end Json

end CaseCellShop
