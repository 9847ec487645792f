import CaseCellShop.Platform.Numeral
import Mathlib.Algebra.Order.Field.Power
import Mathlib.Data.Nat.Factorization.Basic
import Mathlib.Tactic.FieldSimp
import Mathlib.Tactic.Ring

/-! Which integers survive arithmetic on Numbers.

The Number closest to a rational is a multiple of the last place, of at most 53
significant bits. So an integer of at most 53 bits is its own closest Number, whatever
operation it is the exact result of, and an integer that is the result of an operation
has no more. -/
namespace CaseCellShop

namespace Number

theorem IsNumber.of_mul {m k : Nat} (hk : 0 < k) (h : IsNumber ((m * k : Nat) : Int)) : IsNumber m := by
  obtain ⟨exponent, hdvd, hlt⟩ := h
  simp only [Int.natAbs_natCast] at hdvd hlt
  rcases Nat.eq_zero_or_pos m with rfl | hm
  · exact isNumber_of_lt (by decide)
  obtain ⟨a, x, hx, rfl⟩ := Nat.exists_eq_two_pow_mul_odd hm.ne'
  obtain ⟨b, y, hy, rfl⟩ := Nat.exists_eq_two_pow_mul_odd hk.ne'
  have hsplit : 2 ^ a * x * (2 ^ b * y) = 2 ^ (a + b) * (x * y) := by
    rw [pow_add]
    ring
  rw [hsplit] at hdvd hlt
  have hcoprime : Nat.Coprime (2 ^ exponent) (x * y) := (Nat.coprime_two_left.mpr (hx.mul hy)).pow_left _
  have hexponent : exponent ≤ a + b := Nat.pow_dvd_pow_iff_le_right'.mp (hcoprime.dvd_of_dvd_mul_right hdvd)
  have hpow : 2 ^ (exponent + 53) ≤ 2 ^ (a + b) * 2 ^ 53 := by
    rw [← pow_add]
    exact Nat.pow_le_pow_right (by decide) (by omega)
  have hxy : x * y < 2 ^ 53 := Nat.lt_of_mul_lt_mul_left (lt_of_lt_of_le hlt hpow)
  have hxlt : x < 2 ^ 53 := lt_of_le_of_lt (Nat.le_mul_of_pos_right x hy.pos) hxy
  refine ⟨a, ?_, ?_⟩
  · rw [Int.natAbs_natCast]
    exact Nat.dvd_mul_right _ _
  · rw [Int.natAbs_natCast, pow_add]
    exact Nat.mul_lt_mul_of_pos_left hxlt (Nat.two_pow_pos a)

/-- Of two neighbours above 2^53 one is no Number. -/
theorem lt_of_isNumber_succ {n : Nat} (h : IsNumber n) (h' : IsNumber ((n + 1 : Nat) : Int)) : n < 2 ^ 53 := by
  by_contra hlarge
  have heven : ∀ m : Nat, 2 ^ 53 ≤ m → IsNumber m → 2 ∣ m := by
    rintro m hm ⟨exponent, hdvd, hlt⟩
    simp only [Int.natAbs_natCast] at hdvd hlt
    have hpos : 1 ≤ exponent := by
      by_contra hzero
      have : exponent = 0 := by omega
      subst this
      omega
    exact (dvd_pow_self 2 (by omega)).trans hdvd
  have hn := heven n (by omega) h
  have hsucc := heven (n + 1) (by omega) h'
  omega

end Number

namespace JsNumber

/-! ### The last place -/

theorem zpow_log2_le {n : Nat} (hn : n ≠ 0) : (2 : Rat) ^ (Nat.log2 n : Int) ≤ n ∧
    (n : Rat) < 2 ^ ((Nat.log2 n : Int) + 1) := by
  constructor
  · rw [zpow_natCast]
    exact_mod_cast (Nat.le_log2 hn).mp le_rfl
  · have h : (2 : Rat) ^ ((Nat.log2 n : Int) + 1) = 2 ^ (Nat.log2 n + 1) := by
      rw [← zpow_natCast]
      rfl
    rw [h]
    exact_mod_cast Nat.lt_log2_self

/-- The last place is 52 places below the first. -/
theorem lastPlace_spec {q : Rat} (hq : 0 < q) :
    ∃ first : Int, 2 ^ first ≤ q ∧ q < 2 ^ (first + 1) ∧ lastPlace q = max (first - 52) (-1074) := by
  have hnum : q.num.toNat ≠ 0 := by
    have := Rat.num_pos.mpr hq
    omega
  obtain ⟨hnumLe, hnumLt⟩ := zpow_log2_le hnum
  obtain ⟨hdenLe, hdenLt⟩ := zpow_log2_le q.den_nz
  have hdiv : q = (q.num.toNat : Rat) / q.den := by
    have hcast : ((q.num.toNat : Nat) : Int) = q.num := Int.toNat_of_nonneg (Rat.num_pos.mpr hq).le
    rw [← Int.cast_natCast, hcast]
    exact (Rat.num_div_den q).symm
  have hden : (0 : Rat) < q.den := by exact_mod_cast q.den_pos
  have htwo : (2 : Rat) ≠ 0 := by norm_num
  set a : Int := (Nat.log2 q.num.toNat : Int)
  set b : Int := (Nat.log2 q.den : Int)
  have hlower : 2 ^ (a - b - 1) ≤ q := by
    rw [hdiv, le_div_iff₀ hden]
    calc (2 : Rat) ^ (a - b - 1) * q.den ≤ 2 ^ (a - b - 1) * 2 ^ (b + 1) := by gcongr
      _ = 2 ^ a := by rw [← zpow_add₀ htwo]; congr 1; ring
      _ ≤ _ := hnumLe
  have hupper : q < 2 ^ (a - b + 1) := by
    rw [hdiv, div_lt_iff₀ hden]
    calc (q.num.toNat : Rat) < 2 ^ (a + 1) := hnumLt
      _ = 2 ^ (a - b + 1) * 2 ^ b := by rw [← zpow_add₀ htwo]; congr 1; ring
      _ ≤ _ := by gcongr
  by_cases h : q < 2 ^ (a - b)
  · refine ⟨a - b - 1, hlower, by rwa [Int.sub_add_cancel], ?_⟩
    show max ((if q < 2 ^ (a - b) then a - b - 1 else a - b) - 52) (-1074) = _
    rw [if_pos h]
  · refine ⟨a - b, not_lt.mp h, hupper, ?_⟩
    show max ((if q < 2 ^ (a - b) then a - b - 1 else a - b) - 52) (-1074) = _
    rw [if_neg h]

theorem nearest_intCast (n : Int) : nearest n = n := by
  unfold nearest
  simp

theorem nearest_nonneg {q : Rat} (hq : 0 ≤ q) : 0 ≤ nearest q := by
  have hfloor : 0 ≤ q.floor := Rat.le_floor_iff.mpr (by exact_mod_cast hq)
  unfold nearest
  dsimp only
  split <;> omega

theorem nearest_le {q : Rat} {n : Int} (hq : q < n) : nearest q ≤ n := by
  have hfloor : q.floor < n := Rat.floor_lt_iff.mpr hq
  unfold nearest
  dsimp only
  split <;> omega

/-! ### Integers -/

/-- An integer of at most 53 bits is a multiple of its last place. -/
theorem multiple_of_lastPlace {n : Nat} (h : Number.IsNumber n) (hn : 0 < n) :
    ∃ m : Int, (n : Rat) / 2 ^ lastPlace n = m := by
  have hpos : (0 : Rat) < n := by exact_mod_cast hn
  obtain ⟨first, hle, hlt, hplace⟩ := lastPlace_spec hpos
  have hone : (1 : Rat) ≤ n := by exact_mod_cast hn
  have hfirst : 0 ≤ first := by
    by_contra hneg
    have : (2 : Rat) ^ (first + 1) ≤ 2 ^ (0 : Int) := zpow_le_zpow_right₀ (by norm_num) (by omega)
    rw [zpow_zero] at this
    linarith
  rw [hplace, max_eq_left (by omega)]
  by_cases hsmall : first ≤ 52
  · obtain ⟨k, hk⟩ := Int.eq_ofNat_of_zero_le (show 0 ≤ 52 - first by omega)
    refine ⟨n * 2 ^ k, ?_⟩
    rw [show first - 52 = -(k : Int) by omega, zpow_neg, zpow_natCast, div_inv_eq_mul]
    push_cast
    rfl
  · obtain ⟨k, hk⟩ := Int.eq_ofNat_of_zero_le (show 0 ≤ first - 52 by omega)
    obtain ⟨exponent, hdvd, hsize⟩ := h
    rw [Int.natAbs_natCast] at hdvd hsize
    have hexponent : (2 : Rat) ^ first < 2 ^ ((exponent : Int) + 53) := by
      refine lt_of_le_of_lt hle ?_
      have hcast : (n : Rat) < 2 ^ (exponent + 53) := by exact_mod_cast hsize
      rwa [← zpow_natCast] at hcast
    have hk' : k ≤ exponent := by
      have := (zpow_lt_zpow_iff_right₀ (by norm_num : (1 : Rat) < 2)).mp hexponent
      omega
    obtain ⟨m, rfl⟩ := (pow_dvd_pow 2 hk').trans hdvd
    refine ⟨m, ?_⟩
    rw [hk, zpow_natCast]
    push_cast
    exact mul_div_cancel_left₀ _ (by positivity)

/-- An integer of at most 53 bits is its own closest Number. -/
theorem ofRat_isNumber {n : Nat} (h : Number.IsNumber n) (hlt : n < 2 ^ 1024) : ofRat n = .finite n := by
  rcases Nat.eq_zero_or_pos n with rfl | hn
  · rfl
  have hpos : (0 : Rat) < n := by exact_mod_cast hn
  have hne : (n : Rat) ≠ 0 := hpos.ne'
  have habs : |(n : Rat)| = n := abs_of_pos hpos
  obtain ⟨m, hm⟩ := multiple_of_lastPlace h hn
  have hsize : (nearest ((n : Rat) / 2 ^ lastPlace n) : Rat) * 2 ^ lastPlace n = n := by
    rw [hm, nearest_intCast, ← hm]
    exact div_mul_cancel₀ _ (zpow_ne_zero _ (by norm_num))
  unfold ofRat
  rw [if_neg hne]
  simp only [habs, hsize]
  rw [if_neg (not_le.mpr (by exact_mod_cast hlt)), if_neg (not_lt.mpr hpos.le)]

theorem ofRat_of_lt {n : Nat} (h : Number.IsNumber n) (hlt : n < 2 ^ 64) : ofRat n = .finite n := by
  have hpow : (2 : Nat) ^ 64 ≤ 2 ^ 1024 := pow_le_pow_right₀ one_le_two (by decide)
  exact ofRat_isNumber h (Nat.lt_of_lt_of_le hlt hpow)

/-- The closest Number has at most 53 bits above its last place. -/
theorem nearest_lastPlace_le {q : Rat} (hq : 0 < q) : nearest (q / 2 ^ lastPlace q) ≤ 2 ^ 53 := by
  obtain ⟨first, _, hlt, hplace⟩ := lastPlace_spec hq
  have hunit : (0 : Rat) < 2 ^ lastPlace q := by positivity
  have hbound : q / 2 ^ lastPlace q < ((2 ^ 53 : Int) : Rat) := by
    have hpow : ((2 ^ 53 : Int) : Rat) = 2 ^ (53 : Int) := by norm_num
    rw [div_lt_iff₀ hunit, hpow, ← zpow_add₀ (by norm_num : (2 : Rat) ≠ 0)]
    refine lt_of_lt_of_le hlt (zpow_le_zpow_right₀ (by norm_num) ?_)
    have := le_max_left (first - 52) (-1074)
    rw [hplace]
    omega
  exact nearest_le hbound

/-- A multiple of a power of two with a factor of at most 53 bits. -/
theorem isNumber_of_multiple {n m : Nat} {place : Int} (hm : m ≤ 2 ^ 53) (h : (m : Rat) * 2 ^ place = n) :
    Number.IsNumber n := by
  rcases le_total 0 place with hplace | hplace
  · obtain ⟨k, rfl⟩ := Int.eq_ofNat_of_zero_le hplace
    rw [zpow_natCast] at h
    have hn : n = m * 2 ^ k := by exact_mod_cast h.symm
    rcases Nat.lt_or_ge m (2 ^ 53) with hlt | hge
    · refine ⟨k, ?_, ?_⟩
      · rw [Int.natAbs_natCast, hn]
        exact Nat.dvd_mul_left _ _
      · rw [Int.natAbs_natCast, hn, Nat.add_comm, pow_add]
        exact Nat.mul_lt_mul_of_pos_right hlt (Nat.two_pow_pos k)
    · have hpow : n = 2 ^ (53 + k) := by
        rw [hn, le_antisymm hm hge, pow_add]
      refine ⟨53 + k, ?_, ?_⟩
      · rw [Int.natAbs_natCast, hpow]
      · rw [Int.natAbs_natCast, hpow]
        exact Nat.pow_lt_pow_right (by decide) (by omega)
  · obtain ⟨k, hk⟩ := Int.eq_ofNat_of_zero_le (show 0 ≤ -place by omega)
    have hplace' : place = -(k : Int) := by omega
    rw [hplace', zpow_neg, zpow_natCast, ← div_eq_mul_inv, div_eq_iff (by positivity)] at h
    have hn : m = n * 2 ^ k := by exact_mod_cast h
    have hle : n ≤ 2 ^ 53 := by
      refine le_trans (Nat.le_mul_of_pos_right n (Nat.two_pow_pos k)) ?_
      rw [← hn]
      exact hm
    rcases Nat.lt_or_ge n (2 ^ 53) with hlt | hge
    · exact Number.isNumber_of_lt (by simpa using hlt)
    · rw [le_antisymm hle hge]
      decide +kernel

/-- An integer that is a closest Number has at most 53 bits. -/
theorem isNumber_of_ofRat {q : Rat} {n : Nat} (h : ofRat q = .finite n) : Number.IsNumber n := by
  by_cases hq : q = 0
  · subst hq
    have hzero : (0 : Rat) = n := by simpa [ofRat] using h
    have hn : n = 0 := by exact_mod_cast hzero.symm
    subst hn
    exact Number.isNumber_of_lt (by decide)
  · have habs : 0 < |q| := abs_pos.mpr hq
    unfold ofRat at h
    rw [if_neg hq] at h
    dsimp only at h
    have hunit : (0 : Rat) < 2 ^ lastPlace |q| := by positivity
    have hnonneg : 0 ≤ nearest (|q| / 2 ^ lastPlace |q|) := nearest_nonneg (by positivity)
    obtain ⟨m, hm⟩ := Int.eq_ofNat_of_zero_le hnonneg
    have hle : m ≤ 2 ^ 53 := by
      have := nearest_lastPlace_le habs
      rw [hm] at this
      exact_mod_cast this
    rw [hm] at h
    by_cases hlarge : (2 : Rat) ^ 1024 ≤ ((m : Int) : Rat) * 2 ^ lastPlace |q|
    · rw [if_pos hlarge] at h
      cases h
    · rw [if_neg hlarge] at h
      by_cases hneg : q < 0
      · rw [if_pos hneg, JsNumber.finite.injEq] at h
        have hsize : (0 : Rat) ≤ ((m : Int) : Rat) * 2 ^ lastPlace |q| := by positivity
        have hzero : (n : Rat) ≤ 0 := by linarith
        have hn : n = 0 := by exact_mod_cast le_antisymm hzero n.cast_nonneg
        exact Number.isNumber_of_lt (by rw [hn]; decide)
      · rw [if_neg hneg] at h
        exact isNumber_of_multiple hle (by simpa using h)

theorem ofRat_neg (q : Rat) : ofRat (-q) = (ofRat q).neg := by
  by_cases hq : q = 0
  · subst hq
    rfl
  · unfold ofRat
    rw [if_neg hq, if_neg (neg_ne_zero.mpr hq), abs_neg]
    dsimp only
    rcases lt_or_gt_of_ne hq with hneg | hpos
    · have hflip : ¬-q < 0 := by linarith
      split <;> simp [neg, hneg, hflip]
    · have hflip : -q < 0 := by linarith
      split <;> simp [neg, hflip, not_lt.mpr hpos.le]

/-! ### Grids -/

/-- `v` is a multiple of the place `a`. -/
def OnGrid (v : Rat) (a : Int) : Prop := ∃ m : Int, v = m * 2 ^ a

theorem OnGrid.mono {v : Rat} {a b : Int} (h : OnGrid v a) (hba : b ≤ a) : OnGrid v b := by
  obtain ⟨m, rfl⟩ := h
  obtain ⟨k, hk⟩ := Int.eq_ofNat_of_zero_le (show 0 ≤ a - b by omega)
  refine ⟨m * 2 ^ k, ?_⟩
  rw [show a = (k : Int) + b by omega, zpow_add₀ (by norm_num), zpow_natCast]
  push_cast
  ring

theorem OnGrid.sub {v w : Rat} {a : Int} (h : OnGrid v a) (k : OnGrid w a) : OnGrid (v - w) a := by
  obtain ⟨m, rfl⟩ := h
  obtain ⟨n, rfl⟩ := k
  exact ⟨m - n, by push_cast; ring⟩

theorem onGrid_zpow (a : Int) : OnGrid (2 ^ a) a := ⟨1, by simp⟩

theorem OnGrid.mul_nat {v : Rat} {a : Int} (h : OnGrid v a) (n : Nat) : OnGrid (v * n) a := by
  obtain ⟨m, rfl⟩ := h
  exact ⟨m * n, by push_cast; ring⟩

/-- What is positive and on a grid is no less than its unit. -/
theorem OnGrid.unit_le {v : Rat} {a : Int} (h : OnGrid v a) (hv : 0 < v) : (2 : Rat) ^ a ≤ v := by
  obtain ⟨m, rfl⟩ := h
  have hunit : (0 : Rat) < 2 ^ a := by positivity
  have hm : (0 : Rat) < m := (mul_pos_iff_of_pos_right hunit).mp hv
  have hone : (1 : Rat) ≤ m := by exact_mod_cast (by exact_mod_cast hm : (0 : Int) < m)
  exact le_mul_of_one_le_left hunit.le hone

theorem le_lastPlace (q : Rat) : -1074 ≤ lastPlace q := le_max_right _ _

theorem exponent_lt {a b : Int} {q : Rat} (h : (2 : Rat) ^ a ≤ q) (h' : q < 2 ^ b) : a < b :=
  (zpow_lt_zpow_iff_right₀ (by norm_num : (1 : Rat) < 2)).mp (lt_of_le_of_lt h h')

theorem lastPlace_le {q : Rat} (hq : 0 < q) {a : Int} (ha : -1074 ≤ a) (h : q < 2 ^ (a + 53)) : lastPlace q ≤ a := by
  obtain ⟨first, hle, _, hplace⟩ := lastPlace_spec hq
  have := exponent_lt hle h
  omega

/-! ### The closest Number -/

theorem nearest_error (q : Rat) : |(nearest q : Rat) - q| ≤ 1 / 2 := by
  have hle := Rat.floor_le q
  have hlt := Rat.lt_floor_add_one q
  unfold nearest
  dsimp only
  split
  · rename_i h
    rw [abs_le]
    constructor
    · rcases h with h | ⟨h, _⟩ <;> linarith
    · linarith
  · rename_i h
    have hge : 1 / 2 ≤ q - q.floor := not_lt.mp fun hlt => h (.inl hlt)
    push_cast at hlt ⊢
    rw [abs_le]
    constructor <;> linarith

/-- The finite closest Number of a positive `q`. -/
theorem ofRat_finite {q v : Rat} (hq : 0 < q) (h : ofRat q = .finite v) :
    v = nearest (q / 2 ^ lastPlace q) * 2 ^ lastPlace q := by
  unfold ofRat at h
  rw [if_neg hq.ne'] at h
  simp only [abs_of_pos hq, not_lt.mpr hq.le, if_false] at h
  split at h
  · cases h
  · cases h
    rfl

theorem lt_of_ofRat {q v : Rat} (h : ofRat q = .finite v) : v < 2 ^ 1024 := by
  unfold ofRat at h
  dsimp only at h
  split at h
  · cases h
    positivity
  · split at h
    · cases h
    · rename_i hlt
      have hsize := not_le.mp hlt
      cases h
      split
      · rename_i hneg
        have hnonneg := nearest_nonneg (q := |q| / 2 ^ lastPlace |q|) (by positivity)
        have : (0 : Rat) ≤ nearest (|q| / 2 ^ lastPlace |q|) := by exact_mod_cast hnonneg
        have hpos : (0 : Rat) ≤ nearest (|q| / 2 ^ lastPlace |q|) * 2 ^ lastPlace |q| := by positivity
        exact lt_of_le_of_lt (neg_nonpos.mpr hpos) (by positivity)
      · exact hsize

theorem ofRat_error {q v : Rat} (hq : 0 < q) (h : ofRat q = .finite v) : |v - q| ≤ 2 ^ lastPlace q / 2 := by
  have hunit : (0 : Rat) < 2 ^ lastPlace q := by positivity
  rw [ofRat_finite hq h]
  have hscaled : (nearest (q / 2 ^ lastPlace q) : Rat) * 2 ^ lastPlace q - q =
      (nearest (q / 2 ^ lastPlace q) - q / 2 ^ lastPlace q) * 2 ^ lastPlace q := by
    field_simp
  rw [hscaled, abs_mul, abs_of_pos hunit]
  have := mul_le_mul_of_nonneg_right (nearest_error (q / 2 ^ lastPlace q)) hunit.le
  linarith

theorem eq_of_ofRat_onGrid {q v : Rat} (hq : 0 < q) (hgrid : OnGrid q (lastPlace q)) (h : ofRat q = .finite v) :
    v = q := by
  obtain ⟨m, hm⟩ := hgrid
  have hunit : (2 : Rat) ^ lastPlace q ≠ 0 := by positivity
  have hdiv : q / 2 ^ lastPlace q = m := by
    rw [div_eq_iff hunit]
    exact hm
  rw [ofRat_finite hq h, hdiv, nearest_intCast]
  exact hm.symm

theorem ofRat_onGrid {q : Rat} (hq : 0 < q) (hlt : q < 2 ^ 1024) (hgrid : OnGrid q (lastPlace q)) :
    ofRat q = .finite q := by
  obtain ⟨m, hm⟩ := hgrid
  have hunit : (2 : Rat) ^ lastPlace q ≠ 0 := by positivity
  have hsize : (nearest (q / 2 ^ lastPlace q) : Rat) * 2 ^ lastPlace q = q := by
    rw [show q / 2 ^ lastPlace q = m by rw [div_eq_iff hunit]; exact hm, nearest_intCast]
    exact hm.symm
  unfold ofRat
  rw [if_neg hq.ne']
  simp only [abs_of_pos hq, hsize]
  rw [if_neg (not_le.mpr hlt), if_neg (not_lt.mpr hq.le)]

/-- A Number is on the grid of its own last place. -/
theorem onGrid_of_ofRat {q v : Rat} (h : ofRat q = .finite v) (hv : 0 < v) : OnGrid v (lastPlace v) := by
  have hq : 0 < q := by
    rcases lt_trichotomy q 0 with hneg | rfl | hpos
    · have hflip := congrArg neg h
      rw [← ofRat_neg] at hflip
      have hv' := ofRat_finite (by linarith) hflip
      have hsize : (0 : Rat) ≤ nearest (-q / 2 ^ lastPlace (-q)) * 2 ^ lastPlace (-q) := by
        have hnonneg := nearest_nonneg (q := -q / 2 ^ lastPlace (-q)) (div_nonneg (by linarith) (by positivity))
        have : (0 : Rat) ≤ nearest (-q / 2 ^ lastPlace (-q)) := by exact_mod_cast hnonneg
        positivity
      linarith
    · cases h
      exact absurd hv (lt_irrefl 0)
    · exact hpos
  have hvalue := ofRat_finite hq h
  have hle := nearest_lastPlace_le hq
  generalize nearest (q / 2 ^ lastPlace q) = m at hvalue hle
  have hunit : (0 : Rat) < 2 ^ lastPlace q := by positivity
  have hgrid : OnGrid v (lastPlace q) := ⟨m, hvalue⟩
  have hplace := le_lastPlace q
  rcases lt_or_eq_of_le hle with hlt | rfl
  · refine hgrid.mono (lastPlace_le hv hplace ?_)
    have hcast : (m : Rat) < 2 ^ 53 := by exact_mod_cast hlt
    rw [hvalue, add_comm, zpow_add₀ (by norm_num), mul_lt_mul_iff_left₀ hunit]
    exact_mod_cast hcast
  · have hpow : v = 2 ^ (lastPlace q + 53) := by
      rw [hvalue, add_comm, zpow_add₀ (by norm_num)]
      norm_num
    have hplaceV : lastPlace v ≤ lastPlace q + 1 := by
      refine lastPlace_le hv (by omega) ?_
      rw [hpow]
      exact zpow_lt_zpow_right₀ (by norm_num) (by omega)
    have hgridV : OnGrid v (lastPlace q + 53) := hpow ▸ onGrid_zpow _
    exact hgridV.mono (by omega)

/-- A multiple of `take` that is the closest Number to a product with `take` is the product. -/
theorem eq_of_ofRat_mul {d : Rat} {take k : Nat} (hd : (2 : Rat) ^ (-52 : Int) ≤ d) (hgrid : OnGrid d (lastPlace d))
    (hpos : 1 ≤ take) (hle : take ≤ 50) (h : ofRat (d * take) = .finite ((k * take : Nat) : Rat)) : d = k := by
  have hdpos : 0 < d := lt_of_lt_of_le (by positivity) hd
  have htake : (1 : Rat) ≤ take := by exact_mod_cast hpos
  have hs : 0 < d * take := by positivity
  obtain ⟨e, hdle, hdlt, hplace⟩ := lastPlace_spec hdpos
  obtain ⟨f, hsle, hslt, hplaceS⟩ := lastPlace_spec hs
  have he : -53 < e := by
    have := exponent_lt hd hdlt
    omega
  have hf : e ≤ f := by
    have := exponent_lt (hdle.trans (le_mul_of_one_le_right hdpos.le htake)) hslt
    omega
  have hplaceD : lastPlace d = e - 52 := by omega
  rw [hplaceD] at hgrid
  by_contra hne
  -- two Numbers around `d` are no closer than its last place
  have hgap : (2 : Rat) ^ (e - 52) ≤ |(k : Rat) - d| := by
    by_cases hk : (k : Rat) < 2 ^ e
    · rcases eq_or_lt_of_le hdle with heq | hlt
      · have hgridS : OnGrid (d * take) (lastPlace (d * take)) := by
          refine (heq ▸ (onGrid_zpow e).mul_nat take).mono ?_
          have hsmall : d * take < 2 ^ (e + 53) := by
            rw [← heq, zpow_add₀ (by norm_num)]
            have : (take : Rat) < 2 ^ (53 : Int) := by
              have : (take : Rat) ≤ 50 := by exact_mod_cast hle
              norm_num
              linarith
            exact mul_lt_mul_of_pos_left this (by positivity)
          exact lastPlace_le hs (by omega) hsmall
        have hexact := eq_of_ofRat_onGrid hs hgridS h
        push_cast at hexact
        exact absurd (mul_right_cancel₀ (by positivity) hexact).symm hne
      · have hdiff := (hgrid.sub ((onGrid_zpow e).mono (by omega))).unit_le (by linarith)
        rw [abs_sub_comm]
        exact le_trans (by linarith) (le_abs_self _)
    · have hk' : (2 : Rat) ^ e ≤ k := not_lt.mp hk
      have hkpos : (0 : Rat) < k := lt_of_lt_of_le (by positivity) hk'
      have hknat : 0 < k := by exact_mod_cast hkpos
      have hknumber : Number.IsNumber k := (isNumber_of_ofRat h).of_mul hpos
      obtain ⟨first, hfirst, hfirst', hplaceK⟩ := lastPlace_spec hkpos
      have hefirst := exponent_lt hk' hfirst'
      obtain ⟨m, hm⟩ := multiple_of_lastPlace hknumber hknat
      have hgridK : OnGrid (k : Rat) (lastPlace k) := ⟨m, by rw [← hm]; field_simp⟩
      have hgridK' : OnGrid (k : Rat) (e - 52) := hgridK.mono (by omega)
      rcases lt_or_gt_of_ne hne with hlt | hgt
      · exact ((hgridK'.sub hgrid).unit_le (by linarith)).trans (le_abs_self _)
      · rw [abs_sub_comm]
        exact ((hgrid.sub hgridK').unit_le (by linarith)).trans (le_abs_self _)
  have herror := ofRat_error hs h
  have hplaceS' : lastPlace (d * take) = f - 52 := by omega
  rw [hplaceS'] at herror
  push_cast at herror
  rw [← sub_mul, abs_mul, abs_of_nonneg (by positivity : (0 : Rat) ≤ take)] at herror
  have hbound := (mul_le_mul_of_nonneg_right hgap (by positivity : (0 : Rat) ≤ take)).trans herror
  have hscale : ∀ a : Int, (2 : Rat) ^ (a - 52) = 2 ^ a / 2 ^ (52 : Int) := fun a => zpow_sub₀ (by norm_num) a 52
  rw [hscale, hscale] at hbound
  have hdouble : (2 : Rat) ^ (e + 1) = 2 ^ e * 2 := by rw [zpow_add₀ (by norm_num), zpow_one]
  have hfar : (2 : Rat) ^ (e + 1) * take ≤ 2 ^ f := by
    rw [hdouble]
    norm_num at hbound ⊢
    linarith
  have hnear : d * take < 2 ^ (e + 1) * take := mul_lt_mul_of_pos_right hdlt (by positivity)
  linarith

/-- What is at least the smallest Number is not rounded to zero. -/
theorem ofRat_unit_le {q v : Rat} (hq : (2 : Rat) ^ (-1074 : Int) ≤ q) (h : ofRat q = .finite v) :
    (2 : Rat) ^ (-1074 : Int) ≤ v := by
  have hqpos : 0 < q := lt_of_lt_of_le (by positivity) hq
  obtain ⟨first, hle, hlt, hplace⟩ := lastPlace_spec hqpos
  have hfirst := exponent_lt hq hlt
  have hunit : (0 : Rat) < 2 ^ lastPlace q := by positivity
  have hone : ((1 : Int) : Rat) ≤ q / 2 ^ lastPlace q := by
    rw [le_div_iff₀ hunit, Int.cast_one, one_mul]
    exact (zpow_le_zpow_right₀ (by norm_num) (by omega)).trans hle
  have hnearest : (1 : Int) ≤ nearest (q / 2 ^ lastPlace q) := by
    have hfloor : (1 : Int) ≤ (q / 2 ^ lastPlace q).floor := Rat.le_floor_iff.mpr hone
    unfold nearest
    dsimp only
    split <;> omega
  have hcast : (1 : Rat) ≤ nearest (q / 2 ^ lastPlace q) := by exact_mod_cast hnearest
  rw [ofRat_finite hqpos h]
  calc (2 : Rat) ^ (-1074 : Int) ≤ 2 ^ lastPlace q := zpow_le_zpow_right₀ (by norm_num) (le_lastPlace q)
    _ ≤ _ := le_mul_of_one_le_left hunit.le hcast

/-! ### One less -/

/-- The Number closest to `p - 1`, for a Number `p`: beyond 2^53 the Numbers are even, and what is
between two of them goes to the one that is a multiple of four. -/
def pred (p : Nat) : Nat := if p ≤ 2 ^ 53 then p - 1 else p / 4 * 4

theorem sub_one_of_le {p : Nat} (hpos : 1 ≤ p) (hle : p ≤ 2 ^ 53) :
    sub (.finite p) (.finite 1) = .finite (pred p) := by
  have hlt : p - 1 < 2 ^ 53 := by omega
  rw [pred, if_pos hle, ← ofRat_of_lt (Number.isNumber_of_lt (by simpa using hlt)) (hlt.trans (by norm_num))]
  show ofRat ((p : Rat) - 1) = _
  rw [Nat.cast_sub hpos, Nat.cast_one]

theorem floor_eq {q : Rat} {n : Int} (hle : (n : Rat) ≤ q) (hlt : q < n + 1) : q.floor = n := by
  have h := Rat.le_floor_iff.mpr hle
  have h' := Rat.floor_lt_iff.mpr (show q < ((n + 1 : Int) : Rat) by push_cast; exact hlt)
  omega

theorem nearest_sub_small {n : Int} {q : Rat} (hpos : 0 < q) (hq : q < 1 / 2) : nearest (n - q) = n := by
  have hfloor : (n - q : Rat).floor = n - 1 := floor_eq (by push_cast; linarith) (by push_cast; linarith)
  unfold nearest
  rw [hfloor]
  push_cast
  rw [if_neg (by rintro (h | ⟨h, _⟩) <;> linarith)]
  ring

theorem nearest_sub_half (n : Int) : nearest (n - 1 / 2) = if n % 2 = 0 then n else n - 1 := by
  have hfloor : (n - 1 / 2 : Rat).floor = n - 1 := floor_eq (by push_cast; linarith) (by push_cast; linarith)
  unfold nearest
  rw [hfloor]
  push_cast
  by_cases h : n % 2 = 0
  · rw [if_pos h, if_neg (by rintro (h' | ⟨_, h'⟩) <;> [linarith; omega])]
    ring
  · rw [if_neg h, if_pos (.inr ⟨by ring, by omega⟩)]

theorem sub_one_of_gt {p : Nat} (hnumber : Number.IsNumber p) (hgt : 2 ^ 53 < p) (hlt : p < 2 ^ 1024) :
    sub (.finite p) (.finite 1) = .finite (pred p) := by
  obtain ⟨exponent, hdvd, hsize⟩ := hnumber
  rw [Int.natAbs_natCast] at hdvd hsize
  have hx : (2 : Rat) ^ (53 : Int) ≤ (p : Rat) - 1 := by
    have hcast : ((2 ^ 53 + 1 : Nat) : Rat) ≤ p := by exact_mod_cast hgt
    push_cast at hcast
    rw [show (2 : Rat) ^ (53 : Int) = 2 ^ 53 from zpow_natCast 2 53]
    linarith
  have hxpos : (0 : Rat) < (p : Rat) - 1 := lt_of_lt_of_le (by positivity) hx
  obtain ⟨first, hfirst, hfirst', hplace⟩ := lastPlace_spec hxpos
  have hbig := exponent_lt hx hfirst'
  have hexponent : first < exponent + 53 := by
    have hcast : (p : Rat) < 2 ^ ((exponent : Int) + 53) := by
      have : (p : Rat) < 2 ^ (exponent + 53) := by exact_mod_cast hsize
      rwa [← zpow_natCast] at this
    exact exponent_lt (hfirst.trans (by linarith)) hcast
  obtain ⟨j, hj⟩ := Int.eq_ofNat_of_zero_le (show 0 ≤ first - 52 by omega)
  have hplace' : lastPlace ((p : Rat) - 1) = j := by omega
  obtain ⟨n, rfl⟩ := (pow_dvd_pow 2 (show j ≤ exponent by omega)).trans hdvd
  have hunit : (0 : Rat) < 2 ^ j := by positivity
  have hscaled : (((2 ^ j * n : Nat) : Rat) - 1) / 2 ^ j = ((n : Int) : Rat) - 1 / 2 ^ j := by
    push_cast
    field_simp
  have hnearest : (nearest ((((2 ^ j * n : Nat) : Rat) - 1) / 2 ^ j) : Rat) * 2 ^ j = (pred (2 ^ j * n) : Nat) := by
    rw [hscaled, pred, if_neg (by omega)]
    by_cases hone : j = 1
    · subst hone
      rw [pow_one, nearest_sub_half]
      split
      · rename_i heven
        obtain ⟨m, rfl⟩ : 2 ∣ n := by omega
        rw [show 2 ^ 1 * (2 * m) / 4 * 4 = 2 * m * 2 by omega]
        push_cast
        ring
      · rename_i hodd
        obtain ⟨m, rfl⟩ : ∃ m, n = 2 * m + 1 := ⟨n / 2, by omega⟩
        rw [show 2 ^ 1 * (2 * m + 1) / 4 * 4 = 4 * m by omega]
        push_cast
        ring
    · obtain ⟨i, rfl⟩ : ∃ i, j = i + 2 := ⟨j - 2, by omega⟩
      have hsmall : (1 : Rat) / 2 ^ (i + 2) < 1 / 2 := by
        rw [pow_add]
        have : (1 : Rat) ≤ 2 ^ i := one_le_pow₀ (by norm_num)
        rw [div_lt_div_iff₀ (by positivity) (by norm_num)]
        linarith
      rw [nearest_sub_small (by positivity) hsmall]
      have hfour : 4 ∣ 2 ^ (i + 2) * n := ⟨2 ^ i * n, by rw [pow_add]; ring⟩
      rw [Nat.div_mul_cancel hfour]
      push_cast
      ring
  have hpredLe : (pred (2 ^ j * n) : Rat) < 2 ^ 1024 := by
    have hle : pred (2 ^ j * n) ≤ 2 ^ j * n := by
      unfold pred
      split <;> omega
    exact_mod_cast lt_of_le_of_lt hle hlt
  show ofRat (((2 ^ j * n : Nat) : Rat) - 1) = _
  unfold ofRat
  rw [if_neg hxpos.ne']
  simp only [abs_of_pos hxpos, hplace', zpow_natCast, hnearest]
  rw [if_neg (not_le.mpr hpredLe), if_neg (not_lt.mpr hxpos.le)]

theorem sub_one {p : Nat} (hnumber : Number.IsNumber p) (hpos : 1 ≤ p) (hlt : p < 2 ^ 1024) :
    sub (.finite p) (.finite 1) = .finite (pred p) := by
  by_cases hle : p ≤ 2 ^ 53
  · exact sub_one_of_le hpos hle
  · exact sub_one_of_gt hnumber (not_le.mp hle) hlt

/-- A fraction loses one without being rounded. -/
theorem sub_one_of_fraction {q : Rat} (hgrid : OnGrid q (lastPlace q)) (hgt : 1 < q) (hfraction : ∀ n : Nat, q ≠ n) :
    sub (.finite q) (.finite 1) = .finite (q - 1) ∧ (2 : Rat) ^ (-52 : Int) ≤ q - 1 ∧
      OnGrid (q - 1) (lastPlace (q - 1)) := by
  obtain ⟨e, hle, hlt, hplace⟩ := lastPlace_spec (lt_trans one_pos hgt)
  have he : -1 < e := by
    have := exponent_lt (a := 0) (by rw [zpow_zero]; exact hgt.le) hlt
    omega
  have hplace' : lastPlace q = e - 52 := by omega
  rw [hplace'] at hgrid
  have hsmall : e - 52 < 0 := by
    by_contra hlarge
    obtain ⟨m, hm⟩ := hgrid
    obtain ⟨k, hk⟩ := Int.eq_ofNat_of_zero_le (show 0 ≤ e - 52 by omega)
    rw [hk, zpow_natCast] at hm
    have hmpos : 0 ≤ m := by
      by_contra hneg
      have hmneg : (m : Rat) ≤ 0 := by exact_mod_cast (by omega : m ≤ 0)
      have := mul_nonpos_of_nonpos_of_nonneg hmneg (by positivity : (0 : Rat) ≤ 2 ^ k)
      linarith
    obtain ⟨i, rfl⟩ := Int.eq_ofNat_of_zero_le hmpos
    exact hfraction (i * 2 ^ k) (by rw [hm]; push_cast; rfl)
  have hone : OnGrid (1 : Rat) (e - 52) := by
    have h := (onGrid_zpow 0).mono hsmall.le
    rwa [zpow_zero] at h
  have hpred := hgrid.sub hone
  have hpos : 0 < q - 1 := by linarith
  have hunit := hpred.unit_le hpos
  have hgrid' : OnGrid (q - 1) (lastPlace (q - 1)) := by
    refine hpred.mono (lastPlace_le hpos (by omega) ?_)
    rw [show e - 52 + 53 = e + 1 by omega]
    linarith
  refine ⟨ofRat_onGrid hpos ?_ hgrid', (zpow_le_zpow_right₀ (by norm_num) (by omega)).trans hunit, hgrid'⟩
  rw [← zpow_natCast]
  exact lt_of_lt_of_le (by linarith) (zpow_le_zpow_right₀ (by norm_num : (1 : Rat) ≤ 2) (show e + 1 ≤ (1024 : Nat) by omega))

/-- A Number below one is less than one by at least the smallest Number. -/
theorem unit_le_one_sub {q : Rat} (hgrid : OnGrid q (lastPlace q)) (hpos : 0 < q) (hlt : q < 1) :
    (2 : Rat) ^ (-1074 : Int) ≤ 1 - q := by
  obtain ⟨e, hle, _, hplace⟩ := lastPlace_spec hpos
  have he := exponent_lt (b := 0) hle (by rwa [zpow_zero])
  have hone : OnGrid (1 : Rat) (lastPlace q) := by
    have h := (onGrid_zpow 0).mono (show lastPlace q ≤ 0 by omega)
    rwa [zpow_zero] at h
  exact (zpow_le_zpow_right₀ (by norm_num) (le_lastPlace q)).trans ((hone.sub hgrid).unit_le (by linarith))

end JsNumber

/-! ### Literals -/

namespace Numeral

/-- The value, if it is finite, is the closest Number of something. -/
def Rounded (n : JsNumber) : Prop := ∀ v, n = .finite v → ∃ q, JsNumber.ofRat q = n

theorem rounded_ofRat (q : Rat) : Rounded (JsNumber.ofRat q) := fun _ _ => ⟨q, rfl⟩

theorem rounded_nan : Rounded .nan := by
  intro v h
  cases h

theorem Rounded.neg {n : JsNumber} (h : Rounded n) : Rounded n.neg := by
  intro v hv
  cases n with
  | nan => cases hv
  | infinite negative => cases hv
  | finite a =>
    obtain ⟨q, hq⟩ := h a rfl
    exact ⟨-q, by rw [JsNumber.ofRat_neg, hq]⟩

theorem rounded_radixLiteral (base : Nat) (digits : List Char) : Rounded (radixLiteral base digits) := by
  unfold radixLiteral
  split
  · exact rounded_ofRat _
  · exact rounded_nan

theorem rounded_unsignedDecimal (text : List Char) : Rounded (unsignedDecimal text) := by
  unfold unsignedDecimal
  split
  · intro v h
    cases h
  · dsimp only
    split
    · exact rounded_nan
    · split
      · exact rounded_nan
      · exact rounded_ofRat _

theorem rounded_toNumber (s : String) : Rounded (toNumber s) := by
  unfold toNumber
  split
  · exact fun _ _ => ⟨0, rfl⟩
  · exact rounded_radixLiteral 16 _
  · exact rounded_radixLiteral 16 _
  · exact rounded_radixLiteral 8 _
  · exact rounded_radixLiteral 8 _
  · exact rounded_radixLiteral 2 _
  · exact rounded_radixLiteral 2 _
  · exact rounded_unsignedDecimal _
  · exact (rounded_unsignedDecimal _).neg
  · exact rounded_unsignedDecimal _

end Numeral

end CaseCellShop
