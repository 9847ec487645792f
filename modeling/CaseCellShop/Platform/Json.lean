import CaseCellShop.Platform.Number
import CaseCellShop.Platform.Text

/-! JSON values as JavaScript objects.

What a parsed body can be, and where using it throws: reading a property of `null`, and
converting an object whose own `toString` shadows the inherited one. A value from
`JSON.parse` holds no functions, so that no own property can be called. -/
namespace CaseCellShop

/-- A value that `JSON.parse` returns. Of a repeated key the parser keeps the last value. -/
inductive Json where
  | null
  | bool (b : Bool)
  | number (n : JsNumber)
  | string (s : String)
  | array (elements : List Json)
  | object (fields : List (String × Json))

namespace Json

/-- `value.key` for a key that no prototype has: `none` throws, `some none` is undefined. -/
def get (key : String) : Json → Option (Option Json)
  | .null => none
  | .object fields => some (fields.lookup key)
  | _ => some none

def isNull : Json → Bool
  | .null => true
  | _ => false

/-- Whether a value, or undefined, counts as true. -/
def truthy : Option Json → Bool
  | none | some .null => false
  | some (.bool b) => b
  | some (.number n) => n ≠ .nan && n ≠ .finite 0
  | some (.string s) => s ≠ ""
  | some (.array _) | some (.object _) => true

/-! ### Conversion to a string -/

section
variable (numberText : JsNumber → String)

mutual

/-- `String(value)`; `none` throws. -/
def toText : Json → Option String
  | .null => some "null"
  | .bool b => some (if b then "true" else "false")
  | .number n => some (numberText n)
  | .string s => some s
  | .array elements => (elementTexts elements).map (String.intercalate ",")
  | .object fields => if (fields.lookup "toString").isSome then none else some "[object Object]"

/-- The texts that `Array.prototype.join` puts together; `null` has none. -/
def elementTexts : List Json → Option (List String)
  | [] => some []
  | .null :: rest => (elementTexts rest).map ("" :: ·)
  | element :: rest => do
    let text ← toText element
    let texts ← elementTexts rest
    return text :: texts

end

end

mutual

/-- No object shadows `toString`, neither the value nor an element of its arrays. -/
def convertible : Json → Bool
  | .array elements => allConvertible elements
  | .object fields => (fields.lookup "toString").isNone
  | _ => true

def allConvertible : List Json → Bool
  | [] => true
  | element :: rest => convertible element && allConvertible rest

end

mutual

theorem isSome_toText (numberText : JsNumber → String) :
    ∀ value : Json, (toText numberText value).isSome = value.convertible
  | .null | .bool _ | .number _ | .string _ => rfl
  | .array elements => by simp [toText, convertible, isSome_elementTexts]
  | .object fields => by
    simp only [toText, convertible]
    cases fields.lookup "toString" <;> rfl

theorem isSome_elementTexts (numberText : JsNumber → String) :
    ∀ elements : List Json, (elementTexts numberText elements).isSome = allConvertible elements
  | [] => rfl
  | element :: rest => by
    have helement := isSome_toText numberText element
    have hrest := isSome_elementTexts numberText rest
    cases element with
    | null => simpa [elementTexts, allConvertible, convertible] using hrest
    | _ =>
      rw [allConvertible, ← helement, ← hrest]
      simp only [elementTexts]
      cases toText numberText _ <;> cases elementTexts numberText rest <;> rfl

end

/-! ### `JSON.stringify` -/

section
variable (numberText : JsNumber → String)

mutual

def stringify : Json → List Char
  | .null => "null".toList
  | .bool b => (if b then "true" else "false").toList
  | .number (.finite q) => (numberText (.finite q)).toList
  | .number _ => "null".toList
  | .string s => Text.quote s
  | .array elements => '[' :: stringifyElements elements
  | .object fields => '\x7b' :: stringifyFields fields

/-- The elements after the opening bracket. -/
def stringifyElements : List Json → List Char
  | [] => [']']
  | [element] => stringify element ++ [']']
  | element :: rest => stringify element ++ ',' :: stringifyElements rest

/-- The fields after the opening brace. -/
def stringifyFields : List (String × Json) → List Char
  | [] => ['\x7d']
  | [(key, value)] => Text.quote key ++ ':' :: (stringify value ++ ['\x7d'])
  | (key, value) :: rest => Text.quote key ++ ':' :: (stringify value ++ ',' :: stringifyFields rest)

end

end

end Json

end CaseCellShop
