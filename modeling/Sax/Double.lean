import Mathlib.Data.Int.Log
import Mathlib.Data.Rat.Floor
import Mathlib.Tactic.FieldSimp
import Mathlib.Tactic.Linarith
import Mathlib.Tactic.Ring

/-!
The numbers a double holds, among the rationals.

A number is rounded to 53 binary digits, the even one of two neighbours as near, and to no finer
unit than `2 ^ -1074`. What comes to `2 ^ 1024` or more is infinite, and `2 ^ 1024` itself stands
for the infinite double: it is above the others, and adding to it leaves it as it is.
-/

namespace Sax.Double

/-- The integer nearest to a number, the even one of two. -/
def roundEven (x : ℚ) : ℤ :=
  if x - ⌊x⌋ < 1 / 2 then ⌊x⌋
  else if 1 / 2 < x - ⌊x⌋ then ⌊x⌋ + 1
  else if ⌊x⌋ % 2 = 0 then ⌊x⌋ else ⌊x⌋ + 1

/-- The place of the last of the 53 binary digits. -/
def unit (q : ℚ) : ℤ := max (Int.log 2 |q| - 52) (-1074)

def nearest (q : ℚ) : ℚ := roundEven (q / 2 ^ unit q) * 2 ^ unit q

/-- The infinite double. -/
def huge : ℚ := 2 ^ 1024

/-- The double nearest to a number. -/
def double (q : ℚ) : ℚ := max (-huge) (min huge (nearest q))

/-- The number is one a double holds. -/
def IsDouble (q : ℚ) : Prop := double q = q

instance (q : ℚ) : Decidable (IsDouble q) := inferInstanceAs (Decidable (_ = _))

/-- The sum of two doubles, as the machine adds them. -/
def add (a b : ℚ) : ℚ := double (a + b)

/-- The difference of two doubles. -/
def sub (a b : ℚ) : ℚ := double (a - b)

/-- The double nearest to the number is not infinite. -/
def Finite (q : ℚ) : Prop := |double q| < huge

instance (q : ℚ) : Decidable (Finite q) := inferInstanceAs (Decidable (_ < _))

/-! ### To the nearest integer -/

section roundEven

variable {x y : ℚ}

lemma abs_roundEven_sub_le (x : ℚ) : |(roundEven x : ℚ) - x| ≤ 1 / 2 := by
  have hle := Int.floor_le x
  have hlt := Int.lt_floor_add_one x
  unfold roundEven
  rw [abs_le]
  split_ifs <;> push_cast <;> constructor <;> linarith

lemma roundEven_intCast (n : ℤ) : roundEven n = n := by simp [roundEven]

lemma floor_le_roundEven (x : ℚ) : ⌊x⌋ ≤ roundEven x := by
  unfold roundEven
  split_ifs <;> omega

lemma roundEven_le (x : ℚ) : roundEven x ≤ ⌊x⌋ + 1 := by
  unfold roundEven
  split_ifs <;> omega

lemma roundEven_nonneg (h : 0 ≤ x) : 0 ≤ roundEven x :=
  le_trans (Int.floor_nonneg.mpr h) (floor_le_roundEven x)

lemma roundEven_mono (h : x ≤ y) : roundEven x ≤ roundEven y := by
  rcases (Int.floor_mono h).lt_or_eq with hlt | heq
  · calc roundEven x ≤ ⌊x⌋ + 1 := roundEven_le x
      _ ≤ ⌊y⌋ := hlt
      _ ≤ roundEven y := floor_le_roundEven y
  · unfold roundEven
    rw [heq]
    split_ifs <;> first | omega | (exfalso; linarith)

lemma roundEven_le_intCast {n : ℤ} (h : x ≤ n) : roundEven x ≤ n := by
  have hmono := roundEven_mono h
  rwa [roundEven_intCast] at hmono

lemma intCast_le_roundEven {n : ℤ} (h : n ≤ x) : n ≤ roundEven x := by
  have hmono := roundEven_mono h
  rwa [roundEven_intCast] at hmono

lemma roundEven_neg (x : ℚ) : roundEven (-x) = -roundEven x := by
  by_cases hint : (⌊x⌋ : ℚ) = x
  · rw [← hint, ← Int.cast_neg, roundEven_intCast, roundEven_intCast]
  · have hfloor : ⌊-x⌋ = -⌊x⌋ - 1 := by
      have hle := Int.floor_le x
      have hlt := Int.lt_floor_add_one x
      have hne : (⌊x⌋ : ℚ) < x := lt_of_le_of_ne hle hint
      rw [Int.floor_eq_iff]
      push_cast
      constructor <;> linarith
    unfold roundEven
    rw [hfloor]
    push_cast
    split_ifs <;> first | omega | (exfalso; linarith)

end roundEven

/-! ### To the nearest double -/

section nearest

variable {q r : ℚ}

lemma two_zpow_pos (k : ℤ) : (0 : ℚ) < 2 ^ k := zpow_pos (by norm_num) k

lemma unit_neg (q : ℚ) : unit (-q) = unit q := by rw [unit, unit, abs_neg]

lemma nearest_neg (q : ℚ) : nearest (-q) = -nearest q := by
  rw [nearest, nearest, unit_neg, neg_div, roundEven_neg]
  push_cast
  ring

@[simp] lemma nearest_zero : nearest 0 = 0 := by simp [nearest, roundEven]

lemma nearest_nonneg (h : 0 ≤ q) : 0 ≤ nearest q :=
  mul_nonneg (Int.cast_nonneg (roundEven_nonneg (div_nonneg h (two_zpow_pos _).le)))
    (two_zpow_pos _).le

/-- A multiple of the unit is kept. -/
lemma nearest_of_int (h : ∃ n : ℤ, q = n * 2 ^ unit q) : nearest q = q := by
  obtain ⟨n, hn⟩ := h
  have hdiv : q / 2 ^ unit q = n := by
    rw [div_eq_iff (two_zpow_pos _).ne']
    exact hn
  rw [nearest, hdiv, roundEven_intCast, ← hn]

/-- The number is below the first one that has a digit more. -/
lemma lt_two_zpow_unit (q : ℚ) : |q| < 2 ^ (unit q + 53) := by
  have hlog := Int.lt_zpow_succ_log_self (b := 2) (by decide) |q|
  refine lt_of_lt_of_le hlog ?_
  rw [Nat.cast_ofNat]
  refine zpow_le_zpow_right₀ (by norm_num) ?_
  unfold unit
  omega

lemma roundEven_div_le (q : ℚ) : roundEven (q / 2 ^ unit q) ≤ 2 ^ 53 := by
  refine roundEven_le_intCast ?_
  rw [div_le_iff₀ (two_zpow_pos _)]
  have hlt := lt_two_zpow_unit q
  rw [zpow_add₀ (by norm_num)] at hlt
  have hle := le_abs_self q
  push_cast
  have hpow : (2 : ℚ) ^ (53 : ℤ) = 2 ^ 53 := by norm_cast
  rw [hpow] at hlt
  linarith

lemma abs_roundEven_div_le (q : ℚ) : |roundEven (q / 2 ^ unit q)| ≤ 2 ^ 53 := by
  rw [abs_le]
  refine ⟨?_, roundEven_div_le q⟩
  have hneg := roundEven_div_le (-q)
  rw [unit_neg, neg_div, roundEven_neg] at hneg
  omega

lemma nearest_mono_pos (hq : 0 < q) (h : q ≤ r) : nearest q ≤ nearest r := by
  have hr : 0 < r := lt_of_lt_of_le hq h
  have hlog : Int.log 2 |q| ≤ Int.log 2 |r| := by
    rw [abs_of_pos hq, abs_of_pos hr]
    exact Int.log_mono_right hq h
  have hunit : unit q ≤ unit r := by
    unfold unit
    omega
  rcases hunit.lt_or_eq with hlt | heq
  · -- a power of two lies between the two numbers, and rounding does not cross it
    have hunitr : unit r = Int.log 2 |r| - 52 := by
      unfold unit at hlt ⊢
      omega
    have hpow : ((2 ^ 52 : ℤ) : ℚ) * 2 ^ unit r ≤ r := by
      have hself := Int.zpow_log_le_self (b := 2) (by decide) hr
      rw [← abs_of_pos hr, show Int.log 2 |r| = 52 + unit r by omega, zpow_add₀ (by norm_num),
        abs_of_pos hr] at hself
      exact_mod_cast hself
    have hup : (2 ^ 52 : ℤ) ≤ roundEven (r / 2 ^ unit r) :=
      intCast_le_roundEven (by rwa [le_div_iff₀ (two_zpow_pos _)])
    have hstep : (2 : ℚ) ^ 53 * 2 ^ unit q ≤ 2 ^ 52 * 2 ^ unit r := by
      have hle : (2 : ℚ) ^ (unit q + 1) ≤ 2 ^ unit r :=
        zpow_le_zpow_right₀ (by norm_num) (by omega)
      rw [zpow_add_one₀ (by norm_num)] at hle
      linarith
    calc nearest q ≤ 2 ^ 53 * 2 ^ unit q :=
          mul_le_mul_of_nonneg_right (by exact_mod_cast roundEven_div_le q) (two_zpow_pos _).le
      _ ≤ 2 ^ 52 * 2 ^ unit r := hstep
      _ ≤ nearest r :=
          mul_le_mul_of_nonneg_right (by exact_mod_cast hup) (two_zpow_pos _).le
  · rw [nearest, nearest, heq]
    refine mul_le_mul_of_nonneg_right ?_ (two_zpow_pos _).le
    exact_mod_cast roundEven_mono (div_le_div_of_nonneg_right h (two_zpow_pos _).le)

lemma nearest_mono (h : q ≤ r) : nearest q ≤ nearest r := by
  rcases lt_trichotomy q 0 with hq | rfl | hq
  · rcases lt_or_ge r 0 with hr | hr
    · have hneg := nearest_mono_pos (neg_pos.mpr hr) (neg_le_neg h)
      rw [nearest_neg, nearest_neg] at hneg
      linarith
    · have hneg := nearest_nonneg (neg_nonneg.mpr hq.le)
      rw [nearest_neg] at hneg
      linarith [nearest_nonneg hr]
  · rw [nearest_zero]
    exact nearest_nonneg h
  · exact nearest_mono_pos hq h

/-- What 53 digits can write is kept. -/
lemma nearest_digits {n k : ℤ} (hn : |n| ≤ 2 ^ 53) (hk : -1074 ≤ k) :
    nearest (n * 2 ^ k) = n * 2 ^ k := by
  by_cases h0 : n = 0
  · subst h0
    simp
  have habs : (0 : ℚ) < |(n : ℚ)| := abs_pos.mpr (by exact_mod_cast h0)
  have hpos : |(n : ℚ) * 2 ^ k| = |(n : ℚ)| * 2 ^ k := by
    rw [abs_mul, abs_of_pos (two_zpow_pos k)]
  -- it is a multiple of the unit, also where it is the power of two above the digits
  refine nearest_of_int ?_
  rcases hn.lt_or_eq with hlt | heq
  · have hunit : unit (n * 2 ^ k) ≤ k := by
      have hlog : Int.log 2 |(n : ℚ) * 2 ^ k| < 53 + k := by
        rw [hpos, ← Int.lt_zpow_iff_log_lt (by decide) (mul_pos habs (two_zpow_pos k)),
          Nat.cast_ofNat, zpow_add₀ (by norm_num)]
        exact mul_lt_mul_of_pos_right (by exact_mod_cast hlt) (two_zpow_pos k)
      unfold unit
      omega
    obtain ⟨m, hm⟩ := Int.eq_ofNat_of_zero_le (sub_nonneg.mpr hunit)
    refine ⟨n * 2 ^ m, ?_⟩
    have hexp : k = m + unit (n * 2 ^ k) := by omega
    conv_lhs => rw [hexp, zpow_add₀ (by norm_num), zpow_natCast]
    push_cast
    ring
  · have hlog : Int.log 2 |(n : ℚ) * 2 ^ k| = 53 + k := by
      have hcast : |(n : ℚ)| = 2 ^ (53 : ℤ) := by exact_mod_cast congrArg (Int.cast (R := ℚ)) heq
      rw [hpos, hcast, ← zpow_add₀ (by norm_num)]
      exact_mod_cast Int.log_zpow (R := ℚ) (b := 2) (by decide) (53 + k)
    have hunit : unit (n * 2 ^ k) = k + 1 := by
      unfold unit
      omega
    have heven : ∃ m : ℤ, n = m * 2 := by
      rcases abs_choice n with h | h
      · exact ⟨2 ^ 52, by omega⟩
      · exact ⟨-2 ^ 52, by omega⟩
    obtain ⟨m, rfl⟩ := heven
    refine ⟨m, ?_⟩
    rw [hunit, zpow_add_one₀ (by norm_num)]
    push_cast
    ring

lemma nearest_nearest (q : ℚ) : nearest (nearest q) = nearest q := by
  conv_lhs => rw [nearest.eq_def q]
  exact nearest_digits (abs_roundEven_div_le q) (le_max_right _ _)

end nearest

/-! ### Doubles -/

section double

variable {q r : ℚ}

lemma huge_pos : 0 < huge := by
  unfold huge
  positivity

lemma nearest_huge : nearest huge = huge := by
  have h := nearest_digits (n := 1) (k := 1024) (by norm_num) (by norm_num)
  simpa [huge] using h

lemma double_mono : Monotone double := fun _ _ h =>
  max_le_max le_rfl (min_le_min le_rfl (nearest_mono h))

lemma isDouble_double (q : ℚ) : IsDouble (double q) := by
  unfold IsDouble double
  have hpos := huge_pos
  have hneg : nearest (-huge) = -huge := by rw [nearest_neg, nearest_huge]
  rcases le_total (nearest q) huge with hle | hle
  · rw [min_eq_right hle]
    rcases le_total (-huge) (nearest q) with hge | hge
    · rw [max_eq_right hge, nearest_nearest, min_eq_right hle, max_eq_right hge]
    · rw [max_eq_left hge, hneg, min_eq_right (by linarith), max_self]
  · have hle' : -huge ≤ huge := by linarith
    rw [min_eq_left hle, max_eq_right hle', nearest_huge, min_self, max_eq_right hle']

@[simp] lemma double_double (q : ℚ) : double (double q) = double q := isDouble_double q

lemma isDouble_add (a b : ℚ) : IsDouble (add a b) := isDouble_double _

/-- An integer of 53 digits is a double. -/
lemma isDouble_intCast {n : ℤ} (h : |n| ≤ 2 ^ 53) : IsDouble n := by
  have hnear := nearest_digits (k := 0) h (by norm_num)
  rw [zpow_zero, mul_one] at hnear
  have hbound : |(n : ℚ)| ≤ huge := by
    have hcast : |(n : ℚ)| ≤ 2 ^ 53 := by exact_mod_cast h
    exact le_trans hcast (pow_le_pow_right₀ (by norm_num) (by norm_num))
  rw [abs_le] at hbound
  rw [IsDouble, double, hnear, min_eq_right hbound.2, max_eq_right hbound.1]

lemma isDouble_natCast {n : ℕ} (h : n ≤ 2 ^ 53) : IsDouble n := by
  have hint := isDouble_intCast (n := n) (by simpa using h)
  simpa using hint

/-- Adding what is not negative does not go down. -/
lemma le_add {a b : ℚ} (ha : IsDouble a) (hb : 0 ≤ b) : a ≤ add a b := by
  conv_lhs => rw [← ha]
  exact double_mono (by linarith)

/-- Whole numbers are added exactly while the sum has 53 digits. -/
lemma add_natCast {m n : ℕ} (h : m + n ≤ 2 ^ 53) : add m n = (m + n : ℕ) := by
  rw [add, ← Nat.cast_add]
  exact isDouble_natCast h

lemma sub_natCast {m n : ℕ} (h : m ≤ 2 ^ 53) (hle : n ≤ m) : sub m n = (m - n : ℕ) := by
  rw [sub, ← Nat.cast_sub hle]
  exact isDouble_natCast (by omega)

end double

/-! ### What lies above a double -/

section above

variable {q r s : ℚ}

lemma nearest_of_isDouble (h : IsDouble q) : nearest q = q := by
  have hneg : nearest (-huge) = -huge := by rw [nearest_neg, nearest_huge]
  unfold IsDouble double at h
  rcases max_choice (-huge) (min huge (nearest q)) with hmax | hmax
  · rw [hmax] at h
    rw [← h, hneg]
  · rw [hmax] at h
    rcases min_choice huge (nearest q) with hmin | hmin
    · rw [hmin] at h
      rw [← h, nearest_huge]
    · rw [← hmin, h]

lemma unit_mono (hq : 0 < q) (h : q ≤ r) : unit q ≤ unit r := by
  have hlog : Int.log 2 |q| ≤ Int.log 2 |r| := by
    rw [abs_of_pos hq, abs_of_pos (hq.trans_le h)]
    exact Int.log_mono_right hq h
  unfold unit
  omega

/-- The digits of a double. -/
lemma exists_digits (hq : 0 < q) (hd : IsDouble q) :
    ∃ m : ℤ, 0 < m ∧ m < 2 ^ 53 ∧ q = m * 2 ^ unit q := by
  have hm : q = roundEven (q / 2 ^ unit q) * 2 ^ unit q := (nearest_of_isDouble hd).symm
  have hlt := lt_two_zpow_unit q
  rw [abs_of_pos hq, zpow_add₀ (by norm_num), mul_comm] at hlt
  generalize unit q = e at hm hlt
  generalize roundEven (q / 2 ^ e) = m at hm
  have hpos : (0 : ℚ) < m := pos_of_mul_pos_left (hm ▸ hq) (two_zpow_pos e).le
  have hbound : (m : ℚ) < 2 ^ (53 : ℤ) :=
    lt_of_mul_lt_mul_right (hm ▸ hlt) (two_zpow_pos e).le
  exact ⟨m, by exact_mod_cast hpos, by exact_mod_cast hbound, hm⟩

/-- The next double lies a unit higher. -/
lemma add_unit_le (hq : 0 < q) (hdq : IsDouble q) (hdr : IsDouble r) (h : q < r) :
    q + 2 ^ unit q ≤ r := by
  obtain ⟨k, hk⟩ := Int.eq_ofNat_of_zero_le (sub_nonneg.mpr (unit_mono hq h.le))
  have hunit : unit r = k + unit q := by omega
  -- both numbers are multiples of the unit of the lower one
  obtain ⟨m, -, -, hm⟩ := exists_digits hq hdq
  obtain ⟨n, -, -, hn⟩ := exists_digits (hq.trans h) hdr
  rw [hunit, zpow_add₀ (by norm_num), zpow_natCast, ← mul_assoc] at hn
  generalize unit q = e at hm hn
  have hlt : (m : ℚ) < n * 2 ^ k := lt_of_mul_lt_mul_right (hm ▸ hn ▸ h) (two_zpow_pos e).le
  have hle : (m : ℚ) + 1 ≤ n * 2 ^ k := by exact_mod_cast hlt
  calc q + 2 ^ e = (m + 1) * 2 ^ e := by rw [hm]; ring
    _ ≤ n * 2 ^ k * 2 ^ e := mul_le_mul_of_nonneg_right hle (two_zpow_pos e).le
    _ = r := hn.symm

/-- More than half a unit above a double the rounding ends above it. -/
lemma lt_nearest (hs : 0 < s) (hd : IsDouble s) (h : s + 2 ^ unit s / 2 < q) : s < nearest q := by
  have hu := two_zpow_pos (unit s)
  obtain ⟨m, hpos, hlt, hm⟩ := exists_digits hs hd
  have hsum : s + 2 ^ unit s = ((m + 1 : ℤ) : ℚ) * 2 ^ unit s := by
    rw [Int.cast_add, Int.cast_one, add_mul, one_mul, ← hm]
  rcases le_or_gt (s + 2 ^ unit s) q with hle | hgt
  · have hnext : nearest (s + 2 ^ unit s) = s + 2 ^ unit s := by
      rw [hsum]
      refine nearest_digits ?_ (le_max_right _ _)
      rw [abs_of_nonneg (by omega)]
      omega
    calc s < nearest (s + 2 ^ unit s) := by linarith
      _ ≤ nearest q := nearest_mono hle
  · -- between the two doubles the unit stays the same
    have hq : 0 < q := by linarith
    have hunit : unit q = unit s := by
      refine le_antisymm ?_ (unit_mono hs (by linarith))
      have hbound : q < 2 ^ (unit s + 53) := by
        rw [zpow_add₀ (by norm_num), mul_comm]
        refine hgt.trans_le (hsum.trans_le (mul_le_mul_of_nonneg_right ?_ hu.le))
        exact_mod_cast hlt
      have hlog : Int.log 2 |q| < unit s + 53 := by
        rw [abs_of_pos hq, ← Int.lt_zpow_iff_log_lt (by decide) hq, Nat.cast_ofNat]
        exact hbound
      have hmin : -1074 ≤ unit s := le_max_right _ _
      rw [unit]
      omega
    have herr := (abs_le.mp (abs_roundEven_sub_le (q / 2 ^ unit q))).1
    rw [hunit] at herr
    have hmul := mul_le_mul_of_nonneg_right herr hu.le
    rw [sub_mul, div_mul_cancel₀ _ hu.ne'] at hmul
    rw [nearest, hunit]
    linarith

lemma lt_double (hs : 0 < s) (hd : IsDouble s) (hlt : s < huge) (h : s + 2 ^ unit s / 2 < q) :
    s < double q :=
  lt_max_of_lt_right (lt_min hlt (lt_nearest hs hd h))

lemma unit_two_mul_le (hq : 0 < q) : unit (2 * q) ≤ unit q + 1 := by
  have hlog : Int.log 2 |2 * q| < Int.log 2 |q| + 2 := by
    rw [abs_of_pos hq, abs_of_pos (by positivity), ← Int.lt_zpow_iff_log_lt (by decide) (by positivity)]
    have hself := Int.lt_zpow_succ_log_self (b := 2) (by decide) q
    rw [show Int.log 2 q + 2 = Int.log 2 q + 1 + 1 by ring, zpow_add_one₀ (by norm_num)]
    push_cast at hself ⊢
    linarith
  unfold unit
  omega

/-- A sum of two doubles, each above a natural number, lies above the sum of these. -/
lemma natCast_lt_add {m n : ℕ} (hq : IsDouble q) (hr : IsDouble r) (hm : (m : ℚ) < q)
    (hn : (n : ℚ) < r) (h : m + n ≤ 2 ^ 53) : ((m + n : ℕ) : ℚ) < add q r := by
  wlog hle : n ≤ m generalizing m n q r
  · have hswap := this hr hq hn hm (by omega) (by omega)
    rwa [add_comm m n, add, add_comm q r]
  have hsum : ((m + n : ℕ) : ℚ) = m + n := Nat.cast_add m n
  rcases Nat.eq_zero_or_pos n with rfl | hn0
  · rw [Nat.cast_zero] at hn
    exact hm.trans_le (le_add hq hn.le)
  have hmpos : (0 : ℚ) < m := by exact_mod_cast hn0.trans_le hle
  have hnpos : (0 : ℚ) < n := by exact_mod_cast hn0
  have hmunit := add_unit_le hmpos (isDouble_natCast (by omega)) hq hm
  have hnunit := add_unit_le hnpos (isDouble_natCast (by omega)) hr hn
  -- the unit of the sum is at most twice the one of the greater number
  have hunit : (2 : ℚ) ^ unit (m + n) ≤ 2 ^ unit (m : ℚ) * 2 := by
    rw [← zpow_add_one₀ (by norm_num)]
    refine zpow_le_zpow_right₀ (by norm_num) (le_trans ?_ (unit_two_mul_le hmpos))
    have hcast : (n : ℚ) ≤ m := by exact_mod_cast hle
    exact unit_mono (by positivity) (by linarith)
  have hhuge : ((m + n : ℕ) : ℚ) < huge := by
    have hcast : ((m + n : ℕ) : ℚ) ≤ 2 ^ 53 := by exact_mod_cast h
    exact lt_of_le_of_lt hcast (pow_lt_pow_right₀ (by norm_num) (by norm_num))
  refine lt_double (by rw [hsum]; positivity) (isDouble_natCast h) hhuge ?_
  rw [hsum]
  linarith [two_zpow_pos (unit (n : ℚ))]

end above

example : add 9007199254740992 1 = 9007199254740992 := by decide +kernel

end Sax.Double
