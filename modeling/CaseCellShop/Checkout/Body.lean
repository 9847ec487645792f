import CaseCellShop.Checkout.Request
import CaseCellShop.Library.ThrowingSort
import CaseCellShop.Platform.Json
import CaseCellShop.Platform.Numeral

/-! Request bodies before they are checkout requests.

No schema stands between the JSON of a request and the service, so that validation,
normalization and hashing meet every JSON value. Validation reads properties of what may
be `null`, iterates over what may have a length without being iterable, and compares what
may not convert to a number; and it lets any truthy product id pass. -/
namespace CaseCellShop.Checkout

/-- What the service throws before its transaction. -/
inductive BodyError where
  | checkout (error : CheckoutError)
  | typeError
  deriving DecidableEq, Repr

def orTypeError {α : Type} : Option α → Except BodyError α
  | some a => .ok a
  | none => .error .typeError

/-- `body?.items`; no prototype has the key. -/
def itemsOf (body : Json) : Option Json := (body.get "items").getD none

/-- `items?.length` -/
def lengthOf : Option Json → Option Json
  | some (.string s) => some (.number (.finite (Text.utf16 s).length))
  | some (.array elements) => some (.number (.finite elements.length))
  | some (.object fields) => fields.lookup "length"
  | _ => none

/-- What `for (const item of items)` runs over; `none` is not iterable. -/
def iterate : Option Json → Option (List Json)
  | some (.string s) => some (s.toList.map fun c => .string (String.singleton c))
  | some (.array elements) => some elements
  | _ => none

section
variable (numberText : JsNumber → String)

/-- `value <= 0`; `none` throws. -/
def atMostZero : Option Json → Option Bool
  | none => some false
  | some .null => some true
  | some (.bool b) => some !b
  | some (.number n) => some n.atMostZero
  | some (.string s) => some (Numeral.toNumber s).atMostZero
  | some value => (value.toText numberText).map fun text => (Numeral.toNumber text).atMostZero

/-- `Number.isInteger(value)` -/
def isInteger : Option Json → Bool
  | some (.number n) => n.isInteger
  | _ => false

def validateItem (item : Json) : Except BodyError Unit := do
  let productId ← orTypeError (item.get "productId")
  if !Json.truthy productId then .error (.checkout (.badRequest "Invalid checkout item"))
  else do
    let quantity ← orTypeError (item.get "quantity")
    let low ← orTypeError (atMostZero numberText quantity)
    if low || !isInteger quantity then .error (.checkout (.badRequest "Invalid checkout item"))
    else return ()

def validateItems : List Json → Except BodyError Unit
  | [] => .ok ()
  | item :: rest => do
    validateItem numberText item
    validateItems rest

def validateBody (body : Json) : Except BodyError Unit :=
  if !Json.truthy (lengthOf (itemsOf body)) then
    .error (.checkout (.badRequest "Checkout requires at least one item"))
  else do
    let items ← orTypeError (iterate (itemsOf body))
    validateItems numberText items

/-! ### Normalization -/

/-- A line of the normalized body. -/
structure JsonLine where
  productId : Option Json
  quantity : Option Json

def lineOf (item : Json) : Except BodyError JsonLine := do
  let productId ← orTypeError (item.get "productId")
  let quantity ← orTypeError (item.get "quantity")
  return ⟨productId, quantity⟩

/-- `left.productId.localeCompare(right.productId)`: only strings have the method, and it
converts its argument. -/
def compareProductIds (P : Platform) (left right : JsonLine) : Except BodyError Ordering :=
  match left.productId with
  | some (.string leftId) => do
    let rightId ← orTypeError ((right.productId.map (Json.toText numberText)).getD (some "undefined"))
    return P.localeCompare leftId rightId
  | _ => .error .typeError

/-- The comparison does not put `left` after `right`. -/
def notAfter (P : Platform) (left right : JsonLine) : Except BodyError Bool := do
  let order ← compareProductIds numberText P left right
  return order ≠ .gt

def normalizeBody (P : Platform) (body : Json) : Except BodyError (List JsonLine) := do
  let items ← orTypeError (iterate (itemsOf body))
  let lines ← items.mapM lineOf
  ThrowingSort.sort (notAfter numberText P) lines

/-- The JSON of a line; what is undefined is left out. -/
def JsonLine.toJson (line : JsonLine) : Json :=
  .object ((line.productId.map fun value => ("productId", value)).toList ++
    (line.quantity.map fun value => ("quantity", value)).toList)

def hashBody (P : Platform) (lines : List JsonLine) : String :=
  P.sha256 ((Json.object [("items", .array (lines.map JsonLine.toJson))]).stringify numberText)

/-- What the service does with the body before its transaction. -/
def prepare (P : Platform) (body : Json) : Except BodyError (List JsonLine × String) := do
  validateBody numberText body
  let lines ← normalizeBody numberText P body
  return (lines, hashBody numberText P lines)

end

/-! ### Kinds of items -/

def positiveInteger : Option Json → Bool
  | some (.number (.finite q)) => 0 < q && q.den = 1
  | _ => false

/-- Validation lets the item pass. -/
def passes : Json → Bool
  | .object fields => Json.truthy (fields.lookup "productId") && positiveInteger (fields.lookup "quantity")
  | _ => false

/-- Validation answers the item with a 400. -/
def refused : Json → Bool
  | .null => false
  | .object fields => !Json.truthy (fields.lookup "productId") ||
      ((fields.lookup "quantity").all Json.convertible && !positiveInteger (fields.lookup "quantity"))
  | _ => true

def isString : Option Json → Bool
  | some (.string _) => true
  | _ => false

/-- The item passes, and its product id is a string. -/
def wellFormed (item : Json) : Bool := passes item && isString ((item.get "productId").getD none)

/-- The body's items are no object with a length; the first of them that does not pass is
refused, or all are well formed. -/
def soundBody (body : Json) : Bool :=
  match itemsOf body with
  | some (.object fields) => !Json.truthy (fields.lookup "length")
  | some (.array items) =>
    match items.find? fun item => !passes item with
    | none => items.all wellFormed
    | some item => refused item
  | _ => true

/-! ### Validation -/

section
variable {numberText : JsNumber → String}

theorem isSome_atMostZero (numberText : JsNumber → String) (value : Option Json) :
    (atMostZero numberText value).isSome = value.all Json.convertible := by
  cases value with
  | none => rfl
  | some value =>
    cases value with
    | array elements => simp [atMostZero, Json.isSome_toText]
    | object fields => simp [atMostZero, Json.isSome_toText]
    | _ => rfl

theorem low_or_not_integer {value : Option Json} {low : Bool} (h : atMostZero numberText value = some low) :
    (low || !isInteger value) = !positiveInteger value := by
  cases value with
  | none =>
    cases h
    rfl
  | some value =>
    cases value with
    | number n =>
      cases h
      cases n with
      | finite q =>
        simp only [JsNumber.atMostZero, isInteger, JsNumber.isInteger, positiveInteger, Bool.not_and]
        congr 1
        rw [← decide_not, decide_eq_decide]
        exact Rat.not_lt.symm
      | nan => rfl
      | infinite negative => simp [isInteger, JsNumber.isInteger, positiveInteger]
    | _ => simp [isInteger, positiveInteger]

theorem convertible_of_positiveInteger {value : Option Json} (h : positiveInteger value = true) :
    value.all Json.convertible = true := by
  cases value with
  | none => rfl
  | some value =>
    cases value with
    | array elements => cases h
    | object fields => cases h
    | _ => rfl

/-- An item passes, is answered with a 400, or makes validation throw a TypeError. -/
theorem validateItem_eq (item : Json) :
    validateItem numberText item =
      if passes item then .ok ()
      else if refused item then .error (.checkout (.badRequest "Invalid checkout item")) else .error .typeError := by
  cases item with
  | object fields =>
    show (if (!Json.truthy (fields.lookup "productId")) = true then
        .error (.checkout (.badRequest "Invalid checkout item"))
      else orTypeError (atMostZero numberText (fields.lookup "quantity")) >>= fun low =>
        if (low || !isInteger (fields.lookup "quantity")) = true then
          Except.error (.checkout (.badRequest "Invalid checkout item"))
        else return ()) = _
    simp only [passes, refused, ← isSome_atMostZero numberText]
    cases Json.truthy (fields.lookup "productId") with
    | false => rfl
    | true =>
      cases hlow : atMostZero numberText (fields.lookup "quantity") with
      | none =>
        have hnot : positiveInteger (fields.lookup "quantity") = false := by
          rw [Bool.eq_false_iff]
          intro hpositive
          have hsome := convertible_of_positiveInteger hpositive
          rw [← isSome_atMostZero numberText, hlow] at hsome
          cases hsome
        simp [hnot, orTypeError]
        rfl
      | some low =>
        show (if (low || !isInteger (fields.lookup "quantity")) = true then
          Except.error (BodyError.checkout (.badRequest "Invalid checkout item")) else return ()) = _
        rw [low_or_not_integer hlow]
        cases positiveInteger (fields.lookup "quantity") <;> rfl
  | _ => rfl

/-- The first item that does not pass decides. -/
theorem validateItems_eq (items : List Json) :
    validateItems numberText items = ((items.find? fun item => !passes item).map (validateItem numberText)).getD (.ok ()) := by
  induction items with
  | nil => rfl
  | cons item rest ih =>
    rw [validateItems, validateItem_eq, ih, List.find?_cons]
    cases hpasses : passes item with
    | true => rfl
    | false =>
      simp only [Bool.not_false, Option.map_some, Option.getD_some, validateItem_eq, hpasses]
      cases refused item <;> rfl

theorem validateBody_array (numberText : JsNumber → String) {body : Json} {items : List Json}
    (h : itemsOf body = some (.array items)) :
    validateBody numberText body =
      if items = [] then .error (.checkout (.badRequest "Checkout requires at least one item"))
      else validateItems numberText items := by
  rw [validateBody, h]
  cases items with
  | nil => rfl
  | cons item rest =>
    have hlength : Json.truthy (lengthOf (some (.array (item :: rest)))) = true := by
      simp only [lengthOf, Json.truthy, List.length_cons, Bool.and_eq_true, decide_eq_true_eq]
      refine ⟨nofun, fun he => ?_⟩
      have hpositive : ((rest.length + 1 : Nat) : Rat) ≠ 0 := by exact_mod_cast Nat.succ_ne_zero rest.length
      exact hpositive (JsNumber.finite.inj he)
    rw [hlength]
    rfl

/-- An object may have a length, but nothing iterates over it. -/
theorem validateBody_object (numberText : JsNumber → String) {body : Json} {fields : List (String × Json)}
    (h : itemsOf body = some (.object fields)) :
    validateBody numberText body =
      if Json.truthy (fields.lookup "length") then .error .typeError
      else .error (.checkout (.badRequest "Checkout requires at least one item")) := by
  rw [validateBody, h, show lengthOf (some (.object fields)) = fields.lookup "length" from rfl]
  cases Json.truthy (fields.lookup "length") <;> rfl

/-- Whatever else the items are, they are none or have no product id. -/
theorem validateBody_other (numberText : JsNumber → String) {body : Json}
    (harray : ∀ items, itemsOf body ≠ some (.array items))
    (hobject : ∀ fields, itemsOf body ≠ some (.object fields)) :
    ∃ message, validateBody numberText body = .error (.checkout (.badRequest message)) := by
  unfold validateBody
  cases hlength : Json.truthy (lengthOf (itemsOf body)) with
  | false => exact ⟨_, rfl⟩
  | true =>
    rcases hitems : itemsOf body with _ | items
    · rw [hitems] at hlength
      cases hlength
    · rw [hitems] at hlength
      cases items with
      | array items => exact absurd hitems (harray items)
      | object fields => exact absurd hitems (hobject fields)
      | string s =>
        cases hs : s.toList with
        | nil =>
          have hempty : s = "" := String.toList_inj.mp hs
          rw [hempty] at hlength
          exact absurd hlength (by decide)
        | cons c rest =>
          refine ⟨"Invalid checkout item", ?_⟩
          simp only [iterate, orTypeError, hs]
          rfl
      | _ => cases hlength

/-! ### Normalization and hash -/

theorem mapM_lineOf {items : List Json} (h : ∀ item ∈ items, passes item = true) :
    items.mapM lineOf = .ok (items.map fun item =>
      ⟨(item.get "productId").getD none, (item.get "quantity").getD none⟩) := by
  induction items with
  | nil => rfl
  | cons item rest ih =>
    have hitem := h item (.head rest)
    rw [List.mapM_cons, ih fun i hi => h i (.tail item hi)]
    cases item with
    | object fields => rfl
    | _ => cases hitem

/-- The line has a product id and a quantity that a checkout can take. -/
def JsonLine.WellFormed (line : JsonLine) : Prop :=
  ∃ productId quantity, line.productId = some (.string productId) ∧ productId ≠ "" ∧
    line.quantity = some (.number (.finite quantity)) ∧ 0 < quantity ∧ quantity.den = 1

/-- The line of an item that passes. -/
def passedLine (item : Json) : JsonLine := ⟨(item.get "productId").getD none, (item.get "quantity").getD none⟩

theorem positiveInteger_eq_true {value : Option Json} :
    positiveInteger value = true ↔ ∃ quantity, value = some (.number (.finite quantity)) ∧ 0 < quantity ∧
    quantity.den = 1 := by
  constructor
  · intro h
    unfold positiveInteger at h
    split at h
    · rename_i quantity
      simp only [Bool.and_eq_true, decide_eq_true_eq] at h
      exact ⟨quantity, rfl, h⟩
    · cases h
  · rintro ⟨quantity, rfl, hpositive, hden⟩
    simp [positiveInteger, hpositive, hden]

theorem wellFormed_iff {item : Json} (h : passes item = true) :
    (passedLine item).WellFormed ↔ wellFormed item = true := by
  rw [wellFormed, h, Bool.true_and]
  cases item with
  | object fields =>
    simp only [passes, Bool.and_eq_true, positiveInteger_eq_true] at h
    obtain ⟨htruthy, quantity, hquantity, hinteger⟩ := h
    show (∃ productId q, fields.lookup "productId" = some (.string productId) ∧ productId ≠ "" ∧
      fields.lookup "quantity" = some (.number (.finite q)) ∧ 0 < q ∧ q.den = 1) ↔
        isString (fields.lookup "productId") = true
    constructor
    · rintro ⟨productId, q, hid, _⟩
      rw [hid]
      rfl
    · intro hstring
      rcases hid : fields.lookup "productId" with _ | value
      · rw [hid] at hstring
        cases hstring
      · rw [hid] at hstring htruthy
        cases value with
        | string productId => exact ⟨productId, quantity, rfl, by simpa [Json.truthy] using htruthy,
          hquantity, hinteger⟩
        | _ => cases hstring
  | _ => cases h

theorem normalizeBody_eq (P : Platform) {body : Json} {items : List Json} (h : itemsOf body = some (.array items))
    (hitems : ∀ item ∈ items, passes item = true) :
    normalizeBody numberText P body = ThrowingSort.sort (notAfter numberText P) (items.map passedLine) := by
  show (orTypeError (iterate (itemsOf body)) >>= fun items => items.mapM lineOf >>= _) = _
  rw [h]
  show (items.mapM lineOf >>= _) = _
  rw [mapM_lineOf hitems]
  rfl

/-- The product id of a line that has a string for it. -/
def JsonLine.idText (line : JsonLine) : String :=
  match line.productId with
  | some (.string productId) => productId
  | _ => ""

theorem notAfter_wellFormed (P : Platform) {left right : JsonLine} (hleft : left.WellFormed)
    (hright : right.WellFormed) :
    notAfter numberText P left right = .ok (decide (P.localeCompare left.idText right.idText ≠ .gt)) := by
  obtain ⟨leftId, _, hleft, _⟩ := hleft
  obtain ⟨rightId, _, hright, _⟩ := hright
  simp only [notAfter, compareProductIds, JsonLine.idText, hleft, hright]
  rfl

/-- Lines with strings for ids can be compared. -/
theorem sort_wellFormed (P : Platform) {lines : List JsonLine} (h : ∀ line ∈ lines, line.WellFormed) :
    ThrowingSort.sort (notAfter numberText P) lines =
      .ok (lines.insertionSort fun left right => P.localeCompare left.idText right.idText ≠ .gt) :=
  ThrowingSort.sort_of_total fun left hleft right hright => notAfter_wellFormed P (h left hleft) (h right hright)

/-- What a body that validation lets pass becomes, if its normalization returns. -/
theorem prepare_passed (numberText : JsNumber → String) (P : Platform) {body : Json} {items : List Json}
    (h : itemsOf body = some (.array items))
    (hne : items ≠ []) (hitems : ∀ item ∈ items, passes item = true) :
    prepare numberText P body =
      (ThrowingSort.sort (notAfter numberText P) (items.map passedLine)).map fun lines =>
        (lines, hashBody numberText P lines) := by
  have hfind : items.find? (fun item => !passes item) = none := by
    rw [List.find?_eq_none]
    exact fun item hitem => by simp [hitems item hitem]
  have hvalid : validateBody numberText body = .ok () := by
    rw [validateBody_array numberText h, if_neg hne, validateItems_eq, hfind]
    rfl
  show (validateBody numberText body >>= fun _ => normalizeBody numberText P body >>= _) = _
  rw [hvalid, normalizeBody_eq P h hitems]
  cases ThrowingSort.sort (notAfter numberText P) (items.map passedLine) <;> rfl

theorem notAfter_error {P : Platform} {left right : JsonLine} {e : BodyError}
    (h : notAfter numberText P left right = .error e) : e = .typeError := by
  unfold notAfter compareProductIds at h
  split at h
  · cases htext : (right.productId.map (Json.toText numberText)).getD (some "undefined") with
    | none =>
      rw [htext] at h
      cases h
      rfl
    | some text =>
      rw [htext] at h
      cases h
  · cases h
    rfl

/-- The service answers a body with a 400 before its transaction, or makes well-formed
lines of it. -/
def Handled (numberText : JsNumber → String) (P : Platform) (body : Json) : Prop :=
  (∃ message, prepare numberText P body = .error (.checkout (.badRequest message))) ∨
    ∃ lines hash, prepare numberText P body = .ok (lines, hash) ∧ lines ≠ [] ∧ ∀ line ∈ lines, line.WellFormed

theorem handled_of_refused {P : Platform} {body : Json} {message : String}
    (h : validateBody numberText body = .error (.checkout (.badRequest message))) : Handled numberText P body := by
  refine .inl ⟨message, ?_⟩
  show (validateBody numberText body >>= _) = _
  rw [h]
  rfl

theorem not_handled_of_typeError {P : Platform} {body : Json} (h : prepare numberText P body = .error .typeError) :
    ¬Handled numberText P body := by
  rintro (⟨message, hrefused⟩ | ⟨lines, hash, hok, _⟩)
  · rw [h] at hrefused
    cases hrefused
  · rw [h] at hok
    cases hok

theorem prepare_invalid {P : Platform} {body : Json} (h : validateBody numberText body = .error .typeError) :
    prepare numberText P body = .error .typeError := by
  show (validateBody numberText body >>= _) = _
  rw [h]
  rfl

theorem handled_passed_iff {P : Platform} {body : Json} {items : List Json} (h : itemsOf body = some (.array items))
    (hne : items ≠ []) (hitems : ∀ item ∈ items, passes item = true) :
    Handled numberText P body ↔ ∀ item ∈ items, wellFormed item = true := by
  have hprepare := prepare_passed numberText P h hne hitems
  cases hsort : ThrowingSort.sort (notAfter numberText P) (items.map passedLine) with
  | error e =>
    rw [hsort] at hprepare
    obtain ⟨left, right, herror⟩ := ThrowingSort.sort_error hsort
    obtain rfl := notAfter_error herror
    refine iff_of_false (not_handled_of_typeError hprepare) fun hall => ?_
    rw [sort_wellFormed P fun line hline => ?_] at hsort
    · cases hsort
    · obtain ⟨item, hitem, rfl⟩ := List.mem_map.mp hline
      exact (wellFormed_iff (hitems item hitem)).mpr (hall item hitem)
  | ok lines =>
    rw [hsort] at hprepare
    have hperm := ThrowingSort.sort_perm hsort
    have hlines : (∀ line ∈ lines, line.WellFormed) ↔ ∀ item ∈ items, wellFormed item = true := by
      constructor
      · intro hall item hitem
        exact (wellFormed_iff (hitems item hitem)).mp (hall _ (hperm.mem_iff.mpr (List.mem_map_of_mem hitem)))
      · intro hall line hline
        obtain ⟨item, hitem, rfl⟩ := List.mem_map.mp (hperm.mem_iff.mp hline)
        exact (wellFormed_iff (hitems item hitem)).mpr (hall item hitem)
    rw [← hlines]
    constructor
    · rintro (⟨message, hrefused⟩ | ⟨lines', hash, hok, _, hall⟩)
      · rw [hprepare] at hrefused
        cases hrefused
      · rw [hprepare] at hok
        cases hok
        exact hall
    · intro hall
      refine .inr ⟨lines, _, hprepare, fun hnil => hne ?_, hall⟩
      rw [hnil] at hperm
      exact List.map_eq_nil_iff.mp hperm.nil_eq.symm

/-- Before its transaction the service answers a body with a 400 or makes well-formed
lines of it exactly if the body is sound. -/
theorem handled_iff (numberText : JsNumber → String) (P : Platform) (body : Json) :
    Handled numberText P body ↔ soundBody body = true := by
  by_cases hobject : ∃ fields, itemsOf body = some (.object fields)
  · obtain ⟨fields, hfields⟩ := hobject
    have hvalidate := validateBody_object numberText hfields
    simp only [soundBody, hfields]
    cases htruthy : Json.truthy (fields.lookup "length") with
    | true =>
      rw [htruthy] at hvalidate
      exact iff_of_false (not_handled_of_typeError (prepare_invalid hvalidate)) nofun
    | false =>
      rw [htruthy] at hvalidate
      exact iff_of_true (handled_of_refused hvalidate) rfl
  · by_cases harray : ∃ items, itemsOf body = some (.array items)
    · obtain ⟨items, hitems⟩ := harray
      have hvalidate := validateBody_array numberText hitems
      simp only [soundBody, hitems]
      by_cases hnil : items = []
      · rw [if_pos hnil] at hvalidate
        subst hnil
        exact iff_of_true (handled_of_refused hvalidate) rfl
      · rw [if_neg hnil, validateItems_eq] at hvalidate
        cases hfind : items.find? fun item => !passes item with
        | none =>
          rw [List.find?_eq_none] at hfind
          rw [handled_passed_iff hitems hnil fun item hitem => by simpa using hfind item hitem]
          simp
        | some item =>
          have hfails : passes item = false := by simpa using List.find?_some hfind
          rw [hfind, Option.map_some, Option.getD_some, validateItem_eq, hfails] at hvalidate
          dsimp only
          cases hrefused : refused item with
          | true =>
            rw [hrefused] at hvalidate
            exact iff_of_true (handled_of_refused hvalidate) rfl
          | false =>
            rw [hrefused] at hvalidate
            exact iff_of_false (not_handled_of_typeError (prepare_invalid hvalidate)) nofun
    · obtain ⟨message, hvalidate⟩ := validateBody_other numberText
        (fun items h => harray ⟨items, h⟩) fun fields h => hobject ⟨fields, h⟩
      refine iff_of_true (handled_of_refused hvalidate) ?_
      unfold soundBody
      split
      · rename_i fields h
        exact absurd ⟨fields, h⟩ hobject
      · rename_i items h
        exact absurd ⟨items, h⟩ harray
      · rfl

end

theorem null_item_unhandled : ¬∀ (numberText : JsNumber → String) (P : Platform) (body : Json),
    Handled numberText P body := by
  intro h
  have hhandled := h (fun _ => "0") ⟨compare, String.ofList, fun _ => ""⟩ (.object [("items", .array [.null])])
  exact not_handled_of_typeError rfl hhandled

/-! ### Bodies of the right shape -/

def itemJson (item : CheckoutItemInput) : Json :=
  .object [("productId", .string item.productId), ("quantity", .number (.finite item.quantity))]

/-- The JSON of a request. -/
def bodyJson (body : CheckoutRequest) : Json := .object [("items", .array (body.items.map itemJson))]

def lineJson (line : CheckoutLine) : JsonLine :=
  ⟨some (.string line.productId), some (.number (.finite line.quantity))⟩

theorem passes_itemJson (item : CheckoutItemInput) : passes (itemJson item) = !invalidItem item := by
  have hid : Json.truthy (some (.string item.productId)) = !decide (item.productId = "") := by
    simp [Json.truthy]
  have hquantity : (decide (0 < item.quantity)) = !decide (item.quantity ≤ 0) := by
    rw [← decide_not, decide_eq_decide]
    exact Rat.not_le.symm
  show (Json.truthy (some (.string item.productId)) && (decide (0 < item.quantity) && decide (item.quantity.den = 1))) = _
  rw [hid, hquantity, invalidItem]
  simp [Bool.and_assoc]

theorem refused_itemJson (item : CheckoutItemInput) : refused (itemJson item) = invalidItem item := by
  have hpasses := passes_itemJson item
  show (!Json.truthy (some (.string item.productId)) || !positiveInteger (some (.number (.finite item.quantity)))) = _
  rw [← Bool.not_and, show (Json.truthy (some (.string item.productId)) &&
    positiveInteger (some (.number (.finite item.quantity)))) = passes (itemJson item) from rfl, hpasses, Bool.not_not]

theorem validateItems_itemJson (numberText : JsNumber → String) (items : List CheckoutItemInput) :
    validateItems numberText (items.map itemJson) =
      if items.any invalidItem then .error (.checkout (.badRequest "Invalid checkout item")) else .ok () := by
  induction items with
  | nil => rfl
  | cons item rest ih =>
    rw [List.map_cons, validateItems, validateItem_eq, passes_itemJson, refused_itemJson, ih, List.any_cons]
    cases invalidItem item with
    | true => rfl
    | false => rfl

/-- On the JSON of a request validation is that of the request. -/
theorem validateBody_bodyJson (numberText : JsNumber → String) (body : CheckoutRequest) :
    validateBody numberText (bodyJson body) = (validateRequest body).mapError .checkout := by
  rw [validateBody_array numberText rfl, validateItems_itemJson, validateRequest]
  cases body.items with
  | nil => rfl
  | cons item rest =>
    have hitems : (item :: rest).map itemJson ≠ [] := List.cons_ne_nil _ _
    have hlength : (item :: rest).length ≠ 0 := Nat.succ_ne_zero _
    rw [if_neg hitems, if_neg hlength]
    cases (item :: rest).any invalidItem <;> rfl

theorem insertionSort_lineJson (P : Platform) (lines : List CheckoutLine) :
    (lines.map lineJson).insertionSort (fun left right => P.localeCompare left.idText right.idText ≠ .gt) =
      (lines.insertionSort (lineLe P)).map lineJson :=
  (List.map_insertionSort (lineLe P) _ lineJson lines fun _ _ _ _ => Iff.rfl).symm

theorem stringify_lineJson {numberText : JsNumber → String} {line : CheckoutLine}
    (h : (numberText (.finite line.quantity)).toList = Text.decimal line.quantity) :
    (lineJson line).toJson.stringify numberText = stringifyLine line := by
  have hid : Text.quote "productId" = "\"productId\"".toList := by decide
  have hquantity : Text.quote "quantity" = "\"quantity\"".toList := by decide
  show '\x7b' :: (Text.quote "productId" ++ ':' :: (Text.quote line.productId ++ ',' ::
    (Text.quote "quantity" ++ ':' :: ((numberText (.finite line.quantity)).toList ++ ['\x7d'])))) = _
  rw [hid, hquantity, h]
  rfl

/-- The text that is hashed, where quantities are written as decimals. -/
theorem stringify_lines {numberText : JsNumber → String} {lines : List CheckoutLine}
    (h : ∀ line ∈ lines, (numberText (.finite line.quantity)).toList = Text.decimal line.quantity) :
    (Json.object [("items", .array ((lines.map lineJson).map JsonLine.toJson))]).stringify numberText =
      stringifyRequest lines := by
  have helements : Json.stringifyElements numberText ((lines.map lineJson).map JsonLine.toJson) =
      PrefixCode.separated stringifyLine ',' ']' lines := by
    induction lines with
    | nil => rfl
    | cons line rest ih =>
      have hline := stringify_lineJson (h line (.head rest))
      have hrest := ih fun l hl => h l (.tail line hl)
      cases rest with
      | nil =>
        show (lineJson line).toJson.stringify numberText ++ [']'] = stringifyLine line ++ [']']
        rw [hline]
      | cons next rest =>
        show (lineJson line).toJson.stringify numberText ++ ',' ::
          Json.stringifyElements numberText (((next :: rest).map lineJson).map JsonLine.toJson) = _
        rw [hline, hrest]
        rfl
  have hitems : Text.quote "items" = "\"items\"".toList := by decide
  show '\x7b' :: (Text.quote "items" ++ ':' :: ('[' :: Json.stringifyElements numberText
    ((lines.map lineJson).map JsonLine.toJson) ++ ['\x7d'])) = _
  rw [helements, hitems]
  rfl

/-- A valid quantity is the natural number the request's line holds. -/
theorem passedLine_itemJson {item : CheckoutItemInput} (h : invalidItem item = false) :
    passedLine (itemJson item) = lineJson ⟨item.productId, item.quantity.num.toNat⟩ := by
  have hquantity := quantity_of_valid h
  show (⟨some (.string item.productId), some (.number (.finite item.quantity))⟩ : JsonLine) =
    ⟨some (.string item.productId), some (.number (.finite ((item.quantity.num.toNat : Nat) : Rat)))⟩
  rw [← hquantity]

/-- On the JSON of a valid request the lines and the hash are those of the request. -/
theorem prepare_bodyJson {numberText : JsNumber → String} {P : Platform} {body : CheckoutRequest}
    (hvalid : validateRequest body = .ok ())
    (hnumbers : ∀ line ∈ normalizeRequest P body,
      (numberText (.finite line.quantity)).toList = Text.decimal line.quantity) :
    prepare numberText P (bodyJson body) =
      .ok ((normalizeRequest P body).map lineJson, hashRequest P (normalizeRequest P body)) := by
  obtain ⟨hne, hitems⟩ := validateRequest_ok.mp hvalid
  have hpasses : ∀ item ∈ body.items.map itemJson, passes item = true := by
    intro item hitem
    obtain ⟨input, hinput, rfl⟩ := List.mem_map.mp hitem
    rw [passes_itemJson, hitems input hinput]
    rfl
  have hlines : (body.items.map itemJson).map passedLine =
      (body.items.map fun item => ⟨item.productId, item.quantity.num.toNat⟩).map lineJson := by
    rw [List.map_map, List.map_map]
    exact List.map_congr_left fun item hitem => passedLine_itemJson (hitems item hitem)
  have hwellFormed : ∀ line ∈ (body.items.map itemJson).map passedLine, line.WellFormed := by
    intro line hline
    obtain ⟨item, hitem, rfl⟩ := List.mem_map.mp hline
    have hstring : isString ((item.get "productId").getD none) = true := by
      obtain ⟨input, _, rfl⟩ := List.mem_map.mp hitem
      rfl
    exact (wellFormed_iff (hpasses item hitem)).mpr (by rw [wellFormed, hpasses item hitem, hstring]; rfl)
  rw [prepare_passed numberText P rfl (by simpa using hne) hpasses, sort_wellFormed P hwellFormed, hlines,
    insertionSort_lineJson]
  show Except.ok ((normalizeRequest P body).map lineJson, hashBody numberText P ((normalizeRequest P body).map lineJson)) = _
  rw [hashBody, stringify_lines hnumbers]
  rfl

end CaseCellShop.Checkout
