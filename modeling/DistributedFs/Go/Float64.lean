import Mathlib.Data.Int.Log
import Mathlib.Data.Rat.Floor
import Mathlib.Tactic.Linarith
import Mathlib.Tactic.Positivity
import Mathlib.Tactic.FieldSimp

namespace Go.Float64

def roundEven (y : ℚ) : ℤ :=
  if y - ⌊y⌋ < 1 / 2 then ⌊y⌋
  else if 1 / 2 < y - ⌊y⌋ then ⌊y⌋ + 1
  else if ⌊y⌋ % 2 = 0 then ⌊y⌋
  else ⌊y⌋ + 1

def scale (x : ℚ) : ℚ := 2 ^ (52 - Int.log 2 x)

def ulp (x : ℚ) : ℚ := 2 ^ (Int.log 2 x - 52)

/-- The `float64` nearest to a number of the normal range, or to zero. -/
def round (x : ℚ) : ℚ := roundEven (x * scale x) / scale x

def ofInt (n : ℤ) : ℚ := round n

def div (x y : ℚ) : ℚ := round (x / y)

def mul (x y : ℚ) : ℚ := round (x * y)

def truncate (x : ℚ) : ℤ := if 0 ≤ x then ⌊x⌋ else ⌈x⌉

theorem roundEven_le {y : ℚ} {n : ℤ} (bound : y ≤ n) : roundEven y ≤ n := by
  have floor_le : (⌊y⌋ : ℚ) ≤ y := Int.floor_le y
  unfold roundEven
  have low : ⌊y⌋ ≤ n := by exact_mod_cast floor_le.trans bound
  have high (above : (⌊y⌋ : ℚ) < y) : ⌊y⌋ + 1 ≤ n := by
    have strict : (⌊y⌋ : ℚ) < n := lt_of_lt_of_le above bound
    exact_mod_cast strict
  split
  · exact low
  · split
    · exact high (by linarith)
    · split
      · exact low
      · exact high (by linarith)

theorem lt_roundEven {y : ℚ} {n : ℤ} (bound : n + 1 / 2 < y) : n < roundEven y := by
  have floor_le : (⌊y⌋ : ℚ) ≤ y := Int.floor_le y
  have lt_floor : y < ⌊y⌋ + 1 := Int.lt_floor_add_one y
  have low : n ≤ ⌊y⌋ := Int.le_floor.mpr (by linarith)
  unfold roundEven
  split
  · rename_i near
    have strict : (n : ℚ) < ⌊y⌋ := by linarith
    exact_mod_cast strict
  · split
    · omega
    · split
      · have strict : (n : ℚ) < ⌊y⌋ := by linarith
        exact_mod_cast strict
      · omega

theorem roundEven_int (n : ℤ) : roundEven n = n := by
  simp [roundEven]

theorem round_zero : round 0 = 0 := by
  simp [round, roundEven]

theorem scale_pos (x : ℚ) : 0 < scale x := zpow_pos (by norm_num) _

theorem round_eq {x : ℚ} {k : ℤ} (whole : x * scale x = k) : round x = x := by
  have positive := scale_pos x
  rw [round, whole, roundEven_int, ← whole]
  field_simp

theorem scale_mul {x : ℚ} : scale x * 2 ^ Int.log 2 x = 2 ^ 52 := by
  rw [scale, ← zpow_add₀ (by norm_num)]
  norm_num

theorem exists_scale {x : ℚ} (small : Int.log 2 x ≤ 52) : ∃ k : ℕ, scale x = (2 ^ k : ℕ) := by
  refine ⟨(52 - Int.log 2 x).toNat, ?_⟩
  rw [scale]
  push_cast
  rw [← zpow_natCast, Int.toNat_of_nonneg (by omega)]

theorem ofInt_eq {n : ℕ} (positive : 0 < n) (bound : n ≤ 2 ^ 53) : ofInt n = n := by
  have cast : (2 : ℚ) ^ Int.log 2 (n : ℚ) ≤ n :=
    Int.zpow_log_le_self (by norm_num) (by exact_mod_cast positive)
  have below : (2 : ℚ) ^ Int.log 2 (n : ℚ) ≤ 2 ^ (53 : ℤ) := by
    apply cast.trans
    exact_mod_cast bound
  have exponent : Int.log 2 (n : ℚ) ≤ 53 := (zpow_le_zpow_iff_right₀ (by norm_num)).mp below
  rcases Int.lt_or_eq_of_le exponent with small | largest
  · obtain ⟨k, power⟩ := exists_scale (show Int.log 2 (n : ℚ) ≤ 52 by omega)
    apply round_eq (k := n * 2 ^ k)
    rw [Int.cast_natCast, power]
    push_cast
    rfl
  · -- only `2 ^ 53` itself has 54 bits
    have value : (n : ℚ) = 2 ^ 53 := by
      apply le_antisymm (by exact_mod_cast bound)
      rw [largest] at cast
      exact_mod_cast cast
    apply round_eq (k := 2 ^ 52)
    rw [Int.cast_natCast, scale, largest, value]
    norm_num

theorem ulp_pos (x : ℚ) : 0 < ulp x := zpow_pos (by norm_num) _

theorem ulp_mul_scale (x : ℚ) : ulp x * scale x = 1 := by
  rw [ulp, scale, ← zpow_add₀ (by norm_num), show Int.log 2 x - 52 + (52 - Int.log 2 x) = 0 by omega,
    zpow_zero]

theorem ulp_mul (x : ℚ) : ulp x * 2 ^ 52 = 2 ^ Int.log 2 x := by
  rw [ulp, ← zpow_natCast, ← zpow_add₀ (by norm_num)]
  norm_num

theorem log_eq {x : ℚ} {e : ℤ} (low : 2 ^ e ≤ x) (high : x < 2 ^ (e + 1)) : Int.log 2 x = e := by
  have positive : 0 < x := lt_of_lt_of_le (zpow_pos (by norm_num) _) low
  have below : Int.log 2 x < e + 1 :=
    (Int.lt_zpow_iff_log_lt (b := 2) (by norm_num) positive).mp (by exact_mod_cast high)
  have above : e ≤ Int.log 2 x :=
    (Int.zpow_le_iff_le_log (b := 2) (by norm_num) positive).mp (by exact_mod_cast low)
  omega

theorem round_le {x : ℚ} {q : ℕ} (small : Int.log 2 x ≤ 52) (bound : x ≤ q) : round x ≤ q := by
  have positive := scale_pos x
  obtain ⟨k, power⟩ := exists_scale small
  have rounded : roundEven (x * scale x) ≤ ((q * 2 ^ k : ℕ) : ℤ) := by
    apply roundEven_le
    rw [power]
    push_cast
    gcongr
  have cast : (roundEven (x * scale x) : ℚ) ≤ (q * 2 ^ k : ℕ) := by exact_mod_cast rounded
  rw [round, div_le_iff₀ positive]
  rw [Nat.cast_mul, ← power] at cast
  exact cast

theorem zpow_log_le_round {x : ℚ} (positive : 0 < x) : 2 ^ Int.log 2 x ≤ round x := by
  have low : (2 : ℚ) ^ Int.log 2 x ≤ x := Int.zpow_log_le_self (by norm_num) positive
  have mantissa : (2 ^ 52 - 1 : ℤ) < roundEven (x * scale x) := by
    apply lt_roundEven
    have scaled := mul_le_mul_of_nonneg_right low (scale_pos x).le
    rw [mul_comm, scale_mul] at scaled
    push_cast
    linarith
  have cast : (2 : ℚ) ^ 52 ≤ roundEven (x * scale x) := by
    exact_mod_cast Int.sub_one_lt_iff.mp mantissa
  rw [round, le_div_iff₀ (scale_pos x), mul_comm, scale_mul]
  exact cast

theorem round_pos {x : ℚ} (positive : 0 < x) : 0 < round x :=
  lt_of_lt_of_le (zpow_pos (by norm_num) _) (zpow_log_le_round positive)

theorem roundEven_add_half {n : ℤ} {y : ℚ} (even : n % 2 = 0) (low : n ≤ y) (high : y ≤ n + 1 / 2) :
    roundEven y = n := by
  have floor : ⌊y⌋ = n := by
    rw [Int.floor_eq_iff]
    constructor <;> linarith
  unfold roundEven
  rw [floor]
  split
  · rfl
  · rw [if_neg (by linarith)]

theorem exists_mantissa {x : ℚ} {q : ℕ} (same : Int.log 2 x = Int.log 2 (q : ℚ))
    (small : Int.log 2 (q : ℚ) < 52) :
    ∃ m : ℤ, m % 2 = 0 ∧ q * scale x = m ∧ (q + ulp q / 2) * scale x = m + 1 / 2 := by
  have scaled : scale x = scale (q : ℚ) := by rw [scale, scale, same]
  have power : scale (q : ℚ) = 2 * 2 ^ (51 - Int.log 2 (q : ℚ)).toNat := by
    rw [scale, ← pow_succ', ← zpow_natCast]
    congr 1
    omega
  have whole : q * scale (q : ℚ) = ((2 * (q * 2 ^ (51 - Int.log 2 (q : ℚ)).toNat) : ℤ) : ℚ) := by
    rw [power]
    push_cast
    ring
  refine ⟨2 * (q * 2 ^ (51 - Int.log 2 (q : ℚ)).toNat), Int.mul_emod_right 2 _, ?_, ?_⟩
  · rw [scaled, whole]
  · rw [scaled, add_mul, div_mul_eq_mul_div, ulp_mul_scale, whole]

theorem pos_lt_round_iff {x : ℚ} {q : ℕ} (positive : 0 < x) (nonzero : 0 < q) (range : q < 2 ^ 52) :
    q < round x ↔ q + ulp q / 2 < x := by
  have qpos : (0 : ℚ) < q := by exact_mod_cast nonzero
  have upos := ulp_pos q
  have spos := scale_pos x
  have low : (2 : ℚ) ^ Int.log 2 (q : ℚ) ≤ q := Int.zpow_log_le_self (by norm_num) qpos
  have next : (q : ℚ) + 1 ≤ 2 ^ (Int.log 2 (q : ℚ) + 1) := by
    have natural : q + 1 ≤ 2 ^ (Nat.log 2 q + 1) := Nat.lt_pow_succ_log_self (by norm_num) q
    rw [Int.log_natCast]
    exact_mod_cast natural
  have small : Int.log 2 (q : ℚ) < 52 := by
    apply (Int.lt_zpow_iff_log_lt (b := 2) (by norm_num) qpos).mp
    exact_mod_cast range
  constructor
  · contrapose!
    intro near
    rcases le_or_gt x q with below | above
    · apply round_le _ below
      exact (Int.log_mono_right positive below).trans small.le
    · have same : Int.log 2 x = Int.log 2 (q : ℚ) := by
        apply log_eq (low.trans above.le)
        have unit : ulp (q : ℚ) ≤ 1 := zpow_le_one_of_nonpos₀ (by norm_num) (by omega)
        linarith
      -- a tie goes to the even mantissa, which is the integer's
      obtain ⟨m, even, whole, half⟩ := exists_mantissa same small
      have mantissa : roundEven (x * scale x) = m := by
        apply roundEven_add_half even
        · rw [← whole]
          gcongr
        · rw [← half]
          gcongr
      rw [round, mantissa, ← whole, mul_div_cancel_right₀ _ spos.ne']
  · intro far
    rcases (Int.log_mono_right (b := 2) qpos (show (q : ℚ) ≤ x by linarith)).lt_or_eq with apart | same
    · calc (q : ℚ) < 2 ^ (Int.log 2 (q : ℚ) + 1) := by linarith
        _ ≤ 2 ^ Int.log 2 x := by
          apply zpow_le_zpow_right₀ (by norm_num)
          omega
        _ ≤ round x := zpow_log_le_round positive
    · obtain ⟨m, -, whole, half⟩ := exists_mantissa same.symm small
      have mantissa : m < roundEven (x * scale x) := by
        apply lt_roundEven
        rw [← half]
        gcongr
      rw [round, lt_div_iff₀ spos, whole]
      exact_mod_cast mantissa

theorem nat_lt_round_iff {x : ℚ} {q : ℕ} (positive : 0 < x) (range : q < 2 ^ 52) :
    q < round x ↔ (0 < q → q + ulp q / 2 < x) := by
  rcases Nat.eq_zero_or_pos q with zero | nonzero
  · simp only [zero, Nat.cast_zero, round_pos positive, Nat.lt_irrefl, false_imp_iff]
  · rw [pos_lt_round_iff positive nonzero range]
    exact ⟨fun far _ => far, fun far => far nonzero⟩

theorem ceil_round_iff {x : ℚ} {k : ℕ} (positive : 0 < x) (range : k + 1 < 2 ^ 52) :
    ⌈round x⌉ = k + 1 ↔ (0 < k → k + ulp k / 2 < x) ∧ x ≤ (k + 1 : ℕ) + ulp (k + 1 : ℕ) / 2 := by
  have upper : round x ≤ (k + 1 : ℕ) ↔ x ≤ (k + 1 : ℕ) + ulp (k + 1 : ℕ) / 2 := by
    rw [← not_lt, ← not_lt, pos_lt_round_iff positive (by omega) range]
  rw [Int.ceil_eq_iff, ← nat_lt_round_iff positive (by omega), ← upper]
  push_cast
  rw [add_sub_cancel_right]

theorem exists_ceil {x : ℚ} (positive : 0 < x) : ∃ k : ℕ, ⌈x⌉ = k + 1 ∧ k < x ∧ x ≤ k + 1 := by
  have one : 0 < ⌈x⌉ := Int.ceil_pos.mpr positive
  obtain ⟨k, ceiling⟩ : ∃ k : ℕ, ⌈x⌉ = k + 1 := ⟨(⌈x⌉ - 1).toNat, by omega⟩
  have bounds := Int.ceil_eq_iff.mp ceiling
  push_cast at bounds
  rw [add_sub_cancel_right] at bounds
  exact ⟨k, ceiling, bounds⟩

theorem half_ulp_mul_lt {k c n : ℕ} (nonzero : 0 < k) (strict : k * c < n) (bound : n ≤ 2 ^ 53) :
    (k + ulp k / 2) * c < n := by
  have unit : ulp (k : ℚ) * 2 ^ 52 ≤ k := by
    rw [ulp_mul]
    exact Int.zpow_log_le_self (by norm_num) (by exact_mod_cast nonzero)
  have product : ulp (k : ℚ) * c < 2 := by
    have bound' : (k : ℚ) * c < 2 ^ 53 := by exact_mod_cast (show k * c < 2 ^ 53 by omega)
    have natural : (0 : ℚ) ≤ c := Nat.cast_nonneg c
    nlinarith
  have next : (k : ℚ) * c + 1 ≤ n := by exact_mod_cast strict
  linarith

theorem ceil_div {n c : ℕ} (positive : 0 < n) (bound : n ≤ 2 ^ 53) (divisor : 2 ≤ c)
    (range : c ≤ 2 ^ 53) : ⌈div (ofInt n) (ofInt c)⌉ = ⌈(n : ℚ) / c⌉ := by
  have cpos : (0 : ℚ) < c := by exact_mod_cast (show 0 < c by omega)
  have npos : (0 : ℚ) < n := by exact_mod_cast positive
  have quotient : 0 < (n : ℚ) / c := by positivity
  obtain ⟨k, ceiling, above, below⟩ := exists_ceil quotient
  rw [lt_div_iff₀ cpos] at above
  have strict : k * c < n := by exact_mod_cast above
  have twice : k * 2 ≤ k * c := Nat.mul_le_mul_left k divisor
  rw [ofInt_eq positive bound, ofInt_eq (by omega) range, div, ceiling, Int.ceil_eq_iff]
  push_cast
  rw [add_sub_cancel_right]
  constructor
  · rw [nat_lt_round_iff quotient (by omega)]
    intro nonzero
    rw [lt_div_iff₀ cpos]
    exact half_ulp_mul_lt nonzero strict bound
  · have small : Int.log 2 ((n : ℚ) / c) ≤ 52 := by
      apply Int.lt_add_one_iff.mp
      apply (Int.lt_zpow_iff_log_lt (b := 2) (by norm_num) quotient).mp
      have half : (k : ℚ) + 1 < 2 ^ 53 := by exact_mod_cast (show k + 1 < 2 ^ 53 by omega)
      exact lt_of_le_of_lt below (by exact_mod_cast half)
    have rounded := round_le (q := k + 1) small (by exact_mod_cast below)
    exact_mod_cast rounded

end Go.Float64
