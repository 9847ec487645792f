import CaseCellShop.Platform.Number
import CaseCellShop.Platform.Text

/-! The Number a string stands for (`Number(text)`).

White space around the literal is skipped, and nothing but white space stands for 0.
What is no literal becomes NaN; a literal becomes the Number closest to its value. -/
namespace CaseCellShop.Numeral

def digitValue (c : Char) : Nat :=
  if c.isDigit then c.toNat - '0'.toNat
  else if c.isLower then c.toNat - 'a'.toNat + 10
  else c.toNat - 'A'.toNat + 10

/-- The value of digits in a base. -/
def natOf (base : Nat) (digits : List Char) : Nat :=
  digits.foldl (fun value c => base * value + digitValue c) 0

/-- A literal after `0x`, `0o` or `0b`. -/
def radixLiteral (base : Nat) (digits : List Char) : JsNumber :=
  if digits ≠ [] ∧ digits.all (fun c => c.isAlphanum && digitValue c < base) then JsNumber.ofRat (natOf base digits)
  else .nan

/-- The digits of an exponent, after its sign. -/
def exponentDigits (digits : List Char) : Option Nat :=
  if digits ≠ [] ∧ digits.all Char.isDigit then some (natOf 10 digits) else none

/-- What may follow the digits of a decimal literal. -/
def exponentPart : List Char → Option Int
  | [] => some 0
  | c :: rest =>
    if c = 'e' ∨ c = 'E' then
      match rest with
      | '-' :: digits => (exponentDigits digits).map fun n => -(n : Int)
      | '+' :: digits => (exponentDigits digits).map fun n => (n : Int)
      | digits => (exponentDigits digits).map fun n => (n : Int)
    else none

/-- The digits after a decimal point, and what follows them. -/
def fractionPart : List Char → List Char × List Char
  | '.' :: rest => rest.span Char.isDigit
  | rest => ([], rest)

/-- A decimal literal without a sign. -/
def unsignedDecimal (text : List Char) : JsNumber :=
  if text = "Infinity".toList then .infinite false
  else
    let (whole, rest) := text.span Char.isDigit
    let (fraction, rest) := fractionPart rest
    if whole = [] ∧ fraction = [] then .nan
    else
      match exponentPart rest with
      | none => .nan
      | some exponent => JsNumber.ofRat (natOf 10 (whole ++ fraction) * (10 : Rat) ^ (exponent - fraction.length))

def toNumber (s : String) : JsNumber :=
  match (Text.trim s).toList with
  | [] => .finite 0
  | '0' :: 'x' :: digits | '0' :: 'X' :: digits => radixLiteral 16 digits
  | '0' :: 'o' :: digits | '0' :: 'O' :: digits => radixLiteral 8 digits
  | '0' :: 'b' :: digits | '0' :: 'B' :: digits => radixLiteral 2 digits
  | '+' :: rest => unsignedDecimal rest
  | '-' :: rest => (unsignedDecimal rest).neg
  | text => unsignedDecimal text

example : toNumber " 2.5e1\n" = .finite 25 ∧ toNumber "0x1F" = .finite 31 ∧ toNumber "-1e400" = .infinite true ∧
    toNumber "1_0" = .nan ∧ toNumber "" = .finite 0 := by decide +kernel

end CaseCellShop.Numeral
