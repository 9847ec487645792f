import Mathlib.Data.Nat.Log
import Mathlib.Data.Int.Order.Basic
import Mathlib.Algebra.Order.Field.Rat
import Mathlib.Data.Rat.Floor
import Mathlib.Tactic.Linarith

/-! The two number formats the shop computes with.

JavaScript Numbers are doubles: an integer result that needs more than 53
significant bits is rounded to the nearest Number, ties to even. Integer columns
of the schema are signed 32-bit, and a value outside that range is refused by the
database client. -/
namespace CaseCellShop

namespace Number

/-- The Number closest to a natural number. -/
def roundNat (n : Nat) : Nat :=
  if n < 2 ^ 53 then n
  else
    let unit := 2 ^ (Nat.log2 n - 52)
    let below := n / unit * unit
    let rest := n % unit
    if 2 * rest < unit ∨ 2 * rest = unit ∧ n / unit % 2 = 0 then below else below + unit

/-- The Number closest to an integer. -/
def round : Int → Int
  | .ofNat n => roundNat n
  | .negSucc n => -roundNat (n + 1)

/-- `a + b` on integer-valued Numbers. -/
def add (a b : Int) : Int := round (a + b)

/-- `a * b` on integer-valued Numbers. -/
def mul (a b : Int) : Int := round (a * b)

theorem roundNat_of_lt {n : Nat} (h : n < 2 ^ 53) : roundNat n = n := by
  unfold roundNat
  rw [if_pos h]

theorem le_roundNat {n : Nat} (h : 2 ^ 53 ≤ n) : 2 ^ 53 ≤ roundNat n := by
  have hn : n ≠ 0 := by
    rintro rfl
    exact absurd h (by decide)
  have hlog : 53 ≤ Nat.log2 n := (Nat.le_log2 hn).mpr h
  have hpow : 2 ^ Nat.log2 n ≤ n := (Nat.le_log2 hn).mp le_rfl
  have hsplit : 2 ^ Nat.log2 n = 2 ^ 52 * 2 ^ (Nat.log2 n - 52) := by
    rw [← Nat.pow_add]
    congr 1
    omega
  have hbelow : 2 ^ 53 ≤ n / 2 ^ (Nat.log2 n - 52) * 2 ^ (Nat.log2 n - 52) := by
    have hdiv : 2 ^ 52 ≤ n / 2 ^ (Nat.log2 n - 52) := by
      rw [Nat.le_div_iff_mul_le (Nat.two_pow_pos _), ← hsplit]
      exact hpow
    calc 2 ^ 53 ≤ 2 ^ Nat.log2 n := Nat.pow_le_pow_right (by decide) hlog
      _ = 2 ^ 52 * 2 ^ (Nat.log2 n - 52) := hsplit
      _ ≤ n / 2 ^ (Nat.log2 n - 52) * 2 ^ (Nat.log2 n - 52) := Nat.mul_le_mul_right _ hdiv
  unfold roundNat
  rw [if_neg (by omega)]
  dsimp only
  split
  · exact hbelow
  · exact le_trans hbelow (Nat.le_add_right _ _)

theorem round_of_lt {n : Int} (h0 : 0 ≤ n) (h : n < 2 ^ 53) : round n = n := by
  obtain ⟨m, rfl⟩ := Int.eq_ofNat_of_zero_le h0
  have hm : m < 2 ^ 53 := by exact_mod_cast h
  show ((roundNat m : Nat) : Int) = m
  rw [roundNat_of_lt hm]

theorem le_round {n : Int} (h : 2 ^ 53 ≤ n) : 2 ^ 53 ≤ round n := by
  obtain ⟨m, rfl⟩ := Int.eq_ofNat_of_zero_le (le_trans (by decide) h)
  have hm : 2 ^ 53 ≤ m := by exact_mod_cast h
  show (2 ^ 53 : Int) ≤ (roundNat m : Nat)
  exact_mod_cast le_roundNat hm

/-- A non-negative sum or product is either exact or at least 2^53. -/
theorem round_exact_or_large {n : Int} (h0 : 0 ≤ n) :
    round n = n ∨ 2 ^ 53 ≤ n ∧ 2 ^ 53 ≤ round n := by
  by_cases h : n < 2 ^ 53
  · exact .inl (round_of_lt h0 h)
  · exact .inr ⟨not_lt.mp h, le_round (not_lt.mp h)⟩

/-- The integers that are Numbers: those of at most 53 significant bits. -/
def IsNumber (n : Int) : Prop := ∃ exponent : Nat, 2 ^ exponent ∣ n.natAbs ∧ n.natAbs < 2 ^ (exponent + 53)

/-- Rounding takes away what lies below the last significant bit. -/
theorem roundNat_eq_iff {n : Nat} (h : 2 ^ 53 ≤ n) : roundNat n = n ↔ 2 ^ (Nat.log2 n - 52) ∣ n := by
  have hsplit : n / 2 ^ (Nat.log2 n - 52) * 2 ^ (Nat.log2 n - 52) + n % 2 ^ (Nat.log2 n - 52) = n := by
    rw [Nat.mul_comm]
    exact Nat.div_add_mod n _
  have hrest : n % 2 ^ (Nat.log2 n - 52) < 2 ^ (Nat.log2 n - 52) := Nat.mod_lt _ (Nat.two_pow_pos _)
  rw [Nat.dvd_iff_mod_eq_zero]
  unfold roundNat
  rw [if_neg (by omega)]
  dsimp only
  split <;> omega

theorem round_eq_iff {n : Int} : round n = n ↔ IsNumber n := by
  have hnat : round n = n ↔ roundNat n.natAbs = n.natAbs := by
    cases n with
    | ofNat m =>
      show ((roundNat m : Nat) : Int) = m ↔ _
      exact Int.ofNat_inj
    | negSucc m =>
      show -((roundNat (m + 1) : Nat) : Int) = -((m + 1 : Nat) : Int) ↔ _
      rw [Int.neg_inj, Int.ofNat_inj]
      rfl
  rw [hnat]
  unfold IsNumber
  generalize n.natAbs = m
  by_cases hsmall : m < 2 ^ 53
  · rw [roundNat_of_lt hsmall]
    exact ⟨fun _ => ⟨0, by simp, by simpa using hsmall⟩, fun _ => rfl⟩
  · have hlarge : 2 ^ 53 ≤ m := by omega
    have hm : m ≠ 0 := by omega
    have hlog : 53 ≤ Nat.log2 m := (Nat.le_log2 hm).mpr hlarge
    rw [roundNat_eq_iff hlarge]
    constructor
    · intro h
      refine ⟨Nat.log2 m - 52, h, ?_⟩
      rw [show Nat.log2 m - 52 + 53 = Nat.log2 m + 1 by omega]
      exact Nat.lt_log2_self
    · rintro ⟨exponent, hdvd, hlt⟩
      have hexponent : Nat.log2 m < exponent + 53 := (Nat.log2_lt hm).mpr hlt
      exact (Nat.pow_dvd_pow 2 (by omega)).trans hdvd

instance (n : Int) : Decidable (IsNumber n) := decidable_of_iff (round n = n) round_eq_iff

theorem isNumber_of_lt {n : Int} (h : n.natAbs < 2 ^ 53) : IsNumber n := ⟨0, by simp, by simpa using h⟩

end Number

/-! ### All Numbers -/

/-- A Number. The two zeros are one, since nothing here tells them apart. -/
inductive JsNumber where
  | nan
  | infinite (negative : Bool)
  | finite (value : Rat)
  deriving DecidableEq, Repr

namespace JsNumber

/-- The exponent of the last place of the Numbers around a positive `q`. -/
def lastPlace (q : Rat) : Int :=
  let guess : Int := Nat.log2 q.num.toNat - Nat.log2 q.den
  let exponent := if q < 2 ^ guess then guess - 1 else guess
  max (exponent - 52) (-1074)

/-- The nearest integer, ties to even. -/
def nearest (q : Rat) : Int :=
  let rest := q - q.floor
  if rest < 1 / 2 ∨ rest = 1 / 2 ∧ q.floor % 2 = 0 then q.floor else q.floor + 1

/-- The Number closest to `q`. -/
def ofRat (q : Rat) : JsNumber :=
  if q = 0 then .finite 0
  else
    let unit : Rat := 2 ^ lastPlace |q|
    let size := nearest (|q| / unit) * unit
    if 2 ^ 1024 ≤ size then .infinite (q < 0)
    else .finite (if q < 0 then -size else size)

/-- `-a` -/
def neg : JsNumber → JsNumber
  | .finite a => .finite (-a)
  | .infinite negative => .infinite !negative
  | .nan => .nan

/-- `a - b` -/
def sub : JsNumber → JsNumber → JsNumber
  | .finite a, .finite b => ofRat (a - b)
  | .infinite negative, .finite _ => .infinite negative
  | .finite _, .infinite negative => .infinite !negative
  | .infinite a, .infinite b => if a = b then .nan else .infinite a
  | _, _ => .nan

/-- `a * b` -/
def mul : JsNumber → JsNumber → JsNumber
  | .finite a, .finite b => ofRat (a * b)
  | .infinite negative, .finite a | .finite a, .infinite negative =>
    if a = 0 then .nan else .infinite (negative != decide (a < 0))
  | .infinite a, .infinite b => .infinite (a != b)
  | _, _ => .nan

/-- `a > 0` -/
def positive : JsNumber → Bool
  | .nan => false
  | .infinite negative => !negative
  | .finite a => 0 < a

/-- `a <= 0` -/
def atMostZero : JsNumber → Bool
  | .nan => false
  | .infinite negative => negative
  | .finite a => a ≤ 0

/-- `Number.isInteger(a)` -/
def isInteger : JsNumber → Bool
  | .finite a => a.den = 1
  | _ => false

/-- `Math.min(a, b)` -/
def min : JsNumber → JsNumber → JsNumber
  | .finite a, .finite b => .finite (if a ≤ b then a else b)
  | .infinite negative, b | b, .infinite negative =>
    if b = .nan then .nan else if negative then .infinite true else b
  | _, _ => .nan

example : mul (sub (.finite 3) (.finite 1)) (.finite 24) = .finite 48 := by decide +kernel

example : ofRat (1 / 10) = .finite (3602879701896397 / 36028797018963968) := by decide +kernel

end JsNumber

/-- The values of an `Int` column. -/
def Int4 (n : Int) : Prop := -2 ^ 31 ≤ n ∧ n < 2 ^ 31

instance (n : Int) : Decidable (Int4 n) := inferInstanceAs (Decidable (_ ∧ _))

end CaseCellShop
