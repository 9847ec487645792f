import CaseCellShop.Library.PrefixCode
import Mathlib.Data.List.DropRight
import Mathlib.Data.List.Lex
import Mathlib.Data.List.Sort

/-! Strings as JavaScript orders and serializes them.

`Array.prototype.sort` without a comparator orders strings by their UTF-16 code
units, and `JSON.stringify` writes a string between quotes with the quote, the
backslash and the control characters escaped. Both are injective on strings, which
is all that lock orders and request hashes rest on. -/
namespace CaseCellShop.Text
open PrefixCode

/-! ### UTF-16 code units -/

/-- The code units of one character. -/
def charUnits (c : Char) : List Nat :=
  if c.toNat < 0x10000 then [c.toNat]
  else [0xD800 + (c.toNat - 0x10000) / 0x400, 0xDC00 + (c.toNat - 0x10000) % 0x400]

/-- The code units of a string. -/
def utf16 (s : String) : List Nat := s.toList.flatMap charUnits

/-- No character is a surrogate. -/
theorem toNat_not_surrogate (c : Char) : c.toNat < 0xD800 ∨ 0xDFFF < c.toNat := by
  rcases c.valid with hv | hv
  · exact .inl hv
  · exact .inr hv.1

theorem toNat_lt (c : Char) : c.toNat < 0x110000 := by
  rcases c.valid with hv | hv
  · exact lt_trans hv (by decide)
  · exact hv.2

theorem toNat_injective {c d : Char} (h : c.toNat = d.toNat) : c = d :=
  Char.ext (UInt32.toNat.inj h)

theorem prefixFree_charUnits : PrefixFree charUnits := by
  intro c d s t h
  unfold charUnits at h
  have hc := toNat_lt c
  have hd := toNat_lt d
  split at h <;> split at h
  · obtain ⟨hn, hst⟩ := List.cons.inj h
    exact ⟨toNat_injective hn, hst⟩
  · -- a single unit against a high surrogate
    have hn := (List.cons.inj h).1
    have := toNat_not_surrogate c
    omega
  · have hn := (List.cons.inj h).1
    have := toNat_not_surrogate d
    omega
  · obtain ⟨hhigh, hrest⟩ := List.cons.inj h
    obtain ⟨hlow, hst⟩ := List.cons.inj hrest
    exact ⟨toNat_injective (by omega), hst⟩

theorem charUnits_ne_nil (c : Char) : charUnits c ≠ [] := by
  unfold charUnits
  split <;> exact List.cons_ne_nil _ _

theorem utf16_injective : Function.Injective utf16 := by
  intro a b h
  exact String.toList_injective (flatMap_injective prefixFree_charUnits charUnits_ne_nil h)

/-- The order of `Array.prototype.sort` on strings. -/
def codeUnitLe (a b : String) : Prop := utf16 a ≤ utf16 b

instance : DecidableRel codeUnitLe := fun a b => inferInstanceAs (Decidable (utf16 a ≤ utf16 b))

/-- `strings.sort()`. -/
def sort (strings : List String) : List String := strings.insertionSort codeUnitLe

instance : IsTrans String codeUnitLe := ⟨fun _ _ _ h k => le_trans (α := List Nat) h k⟩

instance : Std.Total codeUnitLe := ⟨fun a b => le_total (utf16 a) (utf16 b)⟩

theorem sort_perm (strings : List String) : (sort strings).Perm strings :=
  List.perm_insertionSort codeUnitLe strings

/-- Sorting distinct strings puts them in strictly ascending order. -/
theorem sort_ascending {strings : List String} (h : strings.Nodup) :
    (sort strings).Pairwise fun a b => utf16 a < utf16 b := by
  have hs : (sort strings).Pairwise codeUnitLe := List.pairwise_insertionSort codeUnitLe strings
  have hn : (sort strings).Nodup := (sort_perm strings).nodup_iff.mpr h
  exact (hs.and hn).imp fun ⟨hle, hne⟩ => lt_of_le_of_ne hle fun he => hne (utf16_injective he)

/-! ### JSON -/

def hexDigit (n : Nat) : Char := "0123456789abcdef".toList.getD n '0'

/-- One character inside a JSON string. -/
def escape (c : Char) : List Char :=
  if c = '"' then ['\\', '"']
  else if c = '\\' then ['\\', '\\']
  else if c = '\x08' then ['\\', 'b']
  else if c = '\x0c' then ['\\', 'f']
  else if c = '\n' then ['\\', 'n']
  else if c = '\r' then ['\\', 'r']
  else if c = '\t' then ['\\', 't']
  else if c.toNat < 0x20 then ['\\', 'u', '0', '0', hexDigit (c.toNat / 16), hexDigit (c.toNat % 16)]
  else [c]

/-- `JSON.stringify` of a string. -/
def quote (s : String) : List Char := '"' :: (s.toList.flatMap escape ++ ['"'])

/-- Reads one escaped character back. -/
def unescape : List Char → Option (Char × List Char)
  | [] => none
  | c :: s =>
    if c = '\\' then
      match s with
      | 'u' :: '0' :: '0' :: high :: low :: rest =>
        some (Char.ofNat ("0123456789abcdef".toList.idxOf high * 16 + "0123456789abcdef".toList.idxOf low), rest)
      | 'b' :: rest => some ('\x08', rest)
      | 'f' :: rest => some ('\x0c', rest)
      | 'n' :: rest => some ('\n', rest)
      | 'r' :: rest => some ('\r', rest)
      | 't' :: rest => some ('\t', rest)
      | d :: rest => some (d, rest)
      | [] => none
    else some (c, s)

theorem idxOf_hexDigit {n : Nat} (h : n < 16) : "0123456789abcdef".toList.idxOf (hexDigit n) = n := by
  revert n
  decide

theorem unescape_escape (c : Char) (s : List Char) : unescape (escape c ++ s) = some (c, s) := by
  unfold escape
  split_ifs with hq hb h8 hc hn hr ht hu
  · subst hq; rfl
  · subst hb; rfl
  · subst h8; rfl
  · subst hc; rfl
  · subst hn; rfl
  · subst hr; rfl
  · subst ht; rfl
  · have hlow : c.toNat % 16 < 16 := Nat.mod_lt _ (by decide)
    have hhigh : c.toNat / 16 < 16 := by omega
    simp only [List.cons_append, List.nil_append, unescape, if_true, idxOf_hexDigit hlow,
      idxOf_hexDigit hhigh, Nat.div_add_mod', Char.ofNat_toNat]
  · simp only [List.cons_append, List.nil_append, unescape, if_neg hb]

theorem prefixFree_escape : PrefixFree escape := of_decoder unescape unescape_escape

theorem escape_ne_quote (c : Char) (s t : List Char) : escape c ++ s ≠ '"' :: t := by
  unfold escape
  split_ifs with hq <;> intro h
  all_goals first
    | exact hq (List.cons.inj h).1
    | exact absurd (List.cons.inj h).1 (by decide)

theorem prefixFree_quote : PrefixFree quote :=
  ((prefixFree_flatMap prefixFree_escape escape_ne_quote).after ['"']).comp
    fun _ _ h => String.toList_injective h

/-- `JSON.stringify` of a positive integer, in decimal digits. Numbers from 10^21 on
have an exponent form, which differs as a text but not in which texts are equal. -/
def decimal (n : Nat) : List Char := Nat.toDigits 10 n

theorem decimal_injective : Function.Injective decimal := by
  intro a b h
  rw [← Nat.ofDigitChars_toDigits (n := a) (b := 10) (by decide) (by decide),
    ← Nat.ofDigitChars_toDigits (n := b) (b := 10) (by decide) (by decide)]
  exact congrArg (fun ds => Nat.ofDigitChars 10 ds 0) h

theorem not_mem_decimal {c : Char} (hc : c.isDigit = false) (n : Nat) : c ∉ decimal n := by
  intro h
  have := Nat.isDigit_of_mem_toDigits (by decide) (by decide) h
  rw [hc] at this
  cases this

/-- An integer in a template string. -/
def integer : Int → List Char
  | .ofNat n => decimal n
  | .negSucc n => '-' :: decimal (n + 1)

theorem not_mem_integer {c : Char} (hc : c.isDigit = false) (hminus : c ≠ '-') (n : Int) : c ∉ integer n := by
  cases n with
  | ofNat n => exact not_mem_decimal hc n
  | negSucc n =>
    intro h
    rcases List.mem_cons.mp h with h | h
    · exact hminus h
    · exact not_mem_decimal hc _ h

theorem integer_injective : Function.Injective integer := by
  intro a b h
  cases a with
  | ofNat m =>
    cases b with
    | ofNat n => exact congrArg Int.ofNat (decimal_injective h)
    | negSucc n =>
      have hminus : '-' ∈ decimal m := by
        rw [show decimal m = '-' :: decimal (n + 1) from h]
        exact List.mem_cons_self
      exact absurd hminus (not_mem_decimal (by decide) m)
  | negSucc m =>
    cases b with
    | ofNat n =>
      have hminus : '-' ∈ decimal n := by
        rw [show decimal n = '-' :: decimal (m + 1) from h.symm]
        exact List.mem_cons_self
      exact absurd hminus (not_mem_decimal (by decide) n)
    | negSucc n =>
      have hmn := decimal_injective (List.cons.inj h).2
      exact congrArg Int.negSucc (Nat.succ.inj hmn)

/-! ### Whitespace -/

/-- White space and line terminators. -/
def isSpace (c : Char) : Bool :=
  c.toNat ∈ [0x9, 0xa, 0xb, 0xc, 0xd, 0x20, 0xa0, 0x1680, 0x2028, 0x2029, 0x202f, 0x205f, 0x3000, 0xfeff] ||
    0x2000 ≤ c.toNat && c.toNat ≤ 0x200a

/-- `s.trim()` -/
def trim (s : String) : String :=
  String.ofList (((s.toList.dropWhile isSpace).reverse.dropWhile isSpace).reverse)

theorem trim_trim (s : String) : trim (trim s) = trim s := by
  let stripped := (s.toList.dropWhile isSpace).rdropWhile isSpace
  -- what is cut off at the end leaves the first character as it is
  have hfront : stripped.dropWhile isSpace = stripped := by
    rw [List.dropWhile_eq_self_iff]
    intro hpos
    have hbegins : stripped <+: s.toList.dropWhile isSpace := List.rdropWhile_prefix isSpace _
    rw [hbegins.getElem hpos]
    exact List.dropWhile_eq_self_iff.mp (List.dropWhile_idempotent isSpace _) _
  show String.ofList (((String.ofList stripped).toList.dropWhile isSpace).rdropWhile isSpace) = String.ofList stripped
  rw [String.toList_ofList, hfront, List.rdropWhile_idempotent isSpace]

/-! ### Separators -/

/-- `text` ends at the separator, and `text'` runs over it up to the next one; what
follows is the same in both readings. -/
def RunsOver (sep text rest text' rest' : String) : Prop :=
  ∃ between, text' = text ++ sep ++ between ∧ rest = between ++ sep ++ rest'

theorem RunsOver.append_eq {sep text rest text' rest' : String} (h : RunsOver sep text rest text' rest') :
    text ++ sep ++ rest = text' ++ sep ++ rest' := by
  obtain ⟨between, rfl, rfl⟩ := h
  simp only [String.append_assoc]

theorem runsOver_of_toList {sep text rest text' rest' : String}
    (h : PrefixCode.RunsOver sep.toList text.toList rest.toList text'.toList rest'.toList) :
    RunsOver sep text rest text' rest' := by
  obtain ⟨between, htext, hrest⟩ := h
  refine ⟨String.ofList between, String.toList_injective ?_, String.toList_injective ?_⟩
  · simpa using htext
  · simpa using hrest

theorem RunsOver.ne {sep text rest text' rest' : String} (hsep : sep ≠ "") (h : RunsOver sep text rest text' rest') :
    text ≠ text' := by
  obtain ⟨between, rfl, rfl⟩ := h
  intro he
  have hlist := congrArg String.toList he
  simp [hsep] at hlist

section
variable {sep : String} {c : Char} {word : List Char} (hsep : sep.toList = c :: word) (hword : c ∉ word)
include hsep hword

theorem append_sep_cases {text rest text' rest' : String} (h : text ++ sep ++ rest = text' ++ sep ++ rest') :
    (text = text' ∧ rest = rest') ∨ RunsOver sep text rest text' rest' ∨ RunsOver sep text' rest' text rest := by
  have hlist := congrArg String.toList h
  simp only [String.toList_append, hsep] at hlist
  rcases PrefixCode.append_sep_cases hword hlist with ⟨htext, hrest⟩ | hover | hover
  · exact .inl ⟨String.toList_injective htext, String.toList_injective hrest⟩
  · exact .inr (.inl (runsOver_of_toList (by rwa [hsep])))
  · exact .inr (.inr (runsOver_of_toList (by rwa [hsep])))

theorem append_sep_inj {text rest text' rest' : String} (hrest : c ∉ rest.toList) (hrest' : c ∉ rest'.toList)
    (h : text ++ sep ++ rest = text' ++ sep ++ rest') : text = text' ∧ rest = rest' := by
  have hlist := congrArg String.toList h
  simp only [String.toList_append, hsep] at hlist
  obtain ⟨htext, hrest⟩ := PrefixCode.append_sep_inj hword hrest hrest' hlist
  exact ⟨String.toList_injective htext, String.toList_injective hrest⟩

end

end CaseCellShop.Text
