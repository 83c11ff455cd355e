import Sax.Double
import Sax.Runtime

/-!
Numbers as `%.{p}g` prints them, and the texts read back.

A number is rounded to `p` significant digits, the even one of two neighbours as near, and its
trailing zeros are dropped. It is written with an exponent where the point would stand more than
four places before the digits or after all of them.
-/

namespace Sax.Decimal

open Sax.LuaVal Sax.Runtime
open Sax.Double (roundEven abs_roundEven_sub_le roundEven_intCast roundEven_nonneg)

/-- The place of the last of the `p` digits. -/
def place (p : ℕ) (q : ℚ) : ℤ := Int.log 10 |q| - (p - 1)

/-- The digits, as a number. -/
def mantissa (p : ℕ) (q : ℚ) : ℕ := (roundEven (|q| / 10 ^ place p q)).toNat

/-- The number that the `p` digits show. -/
def shown (p : ℕ) (q : ℚ) : ℚ :=
  if q < 0 then -(mantissa p q * 10 ^ place p q) else mantissa p q * 10 ^ place p q

/-! ### Printing -/

/-- Trailing zeros go from the digits into the place; `fuel` bounds the number of digits. -/
def strip : ℕ → ℕ → ℤ → ℕ × ℤ
  | 0, m, k => (m, k)
  | fuel + 1, m, k => if m % 10 = 0 then strip fuel (m / 10) (k + 1) else (m, k)

/-- With zeros in front, up to `s` digits. -/
def padded (s n : ℕ) : Str := List.replicate (s - (decimalNat n).length) 48 ++ decimalNat n

/-- The digits of `m` with the point before the last `s`. -/
def pointed (s m : ℕ) : Str :=
  if s = 0 then decimalNat m else decimalNat (m / 10 ^ s) ++ 46 :: padded s (m % 10 ^ s)

/-- `m * 10 ^ k` in the style its exponent asks for. -/
def unsigned (p m : ℕ) (k : ℤ) : Str :=
  let x := k + Nat.log 10 m
  if -4 ≤ x ∧ x < p then
    if 0 ≤ k then decimalNat (m * 10 ^ k.toNat) else pointed (-k).toNat m
  else pointed (Nat.log 10 m) m ++ 101 :: (if x < 0 then 45 else 43) :: padded 2 x.natAbs

def print (p : ℕ) (q : ℚ) : Str :=
  if q = 0 then lit "0"
  else
    let (m, k) := strip (p + 1) (mantissa p q) (place p q)
    if q < 0 then 45 :: unsigned p m k else unsigned p m k

/-! ### Reading -/

/-- Digits, at least one. -/
def AllDigits (s : Str) : Prop := s ≠ [] ∧ s.all isDigit

instance (s : Str) : Decidable (AllDigits s) := inferInstanceAs (Decidable (_ ∧ _))

def readPointed (s : Str) : Option ℚ :=
  match split 46 s with
  | [a] => if AllDigits a then some (parseNat a) else none
  | [a, b] => if AllDigits (a ++ b) then some (parseNat (a ++ b) / 10 ^ b.length) else none
  | _ => none

def readExponent : Str → Option ℤ
  | 43 :: s => if AllDigits s then some (parseNat s) else none
  | s => parseDecimal s

def readUnsigned (s : Str) : Option ℚ :=
  match split 101 s with
  | [m] => readPointed m
  | [m, e] => do return (← readPointed m) * 10 ^ (← readExponent e)
  | _ => none

/-- The number a decimal text denotes. -/
def read : Str → Option ℚ
  | 45 :: s => (readUnsigned s).map (- ·)
  | s => readUnsigned s

/-! ### Rounding -/

section rounding

variable {q : ℚ} {p : ℕ}

lemma ten_zpow_pos (k : ℤ) : (0 : ℚ) < 10 ^ k := zpow_pos (by norm_num) k

lemma mantissa_cast (p : ℕ) (q : ℚ) : (mantissa p q : ℚ) = roundEven (|q| / 10 ^ place p q) := by
  have hnonneg := roundEven_nonneg (div_nonneg (abs_nonneg q) (ten_zpow_pos (place p q)).le)
  rw [mantissa, ← Int.cast_natCast, Int.toNat_of_nonneg hnonneg]

/-- The last place is at most a unit of the first digit, moved `p - 1` places. -/
lemma ten_zpow_place_le (hq : q ≠ 0) : (10 : ℚ) ^ place p q * 10 ^ ((p : ℤ) - 1) ≤ |q| := by
  have hlog := Int.zpow_log_le_self (b := 10) (by decide) (abs_pos.mpr hq)
  rw [← zpow_add₀ (by norm_num), place, sub_add_cancel]
  exact_mod_cast hlog

/-- What is shown is off by at most half a unit of the last place. -/
lemma abs_shown_sub_le (p : ℕ) (q : ℚ) : |shown p q - q| ≤ 10 ^ place p q / 2 := by
  have hpos := ten_zpow_pos (place p q)
  have hround := abs_roundEven_sub_le (|q| / 10 ^ place p q)
  rw [← mantissa_cast] at hround
  have hmul : abs ((mantissa p q : ℚ) * 10 ^ place p q - |q|) ≤ 10 ^ place p q / 2 := by
    have heq : (mantissa p q : ℚ) * 10 ^ place p q - |q| =
        (mantissa p q - |q| / 10 ^ place p q) * 10 ^ place p q := by
      field_simp
    rw [heq, abs_mul, abs_of_pos hpos, div_eq_inv_mul _ (2 : ℚ), ← one_div]
    exact mul_le_mul_of_nonneg_right hround hpos.le
  unfold shown
  split
  · next hneg =>
    rw [abs_of_neg hneg] at hmul
    rw [← abs_neg]
    convert hmul using 2
    ring
  · next hneg => rwa [abs_of_nonneg (not_lt.mp hneg)] at hmul

/-- A multiple of its last place is shown as it is. -/
lemma shown_of_int (h : ∃ n : ℤ, |q| = n * 10 ^ place p q) : shown p q = q := by
  obtain ⟨n, hn⟩ := h
  have hm : (mantissa p q : ℚ) * 10 ^ place p q = |q| := by
    have hdiv : |q| / 10 ^ place p q = n := by
      rw [hn, mul_div_cancel_right₀ _ (ten_zpow_pos _).ne']
    rw [mantissa_cast, hdiv, roundEven_intCast, hn]
  unfold shown
  rw [hm]
  split
  · next hneg => rw [abs_of_neg hneg, neg_neg]
  · next hneg => exact abs_of_nonneg (not_lt.mp hneg)

lemma abs_shown (p : ℕ) (q : ℚ) : |shown p q| = mantissa p q * 10 ^ place p q := by
  have hnonneg : (0 : ℚ) ≤ mantissa p q * 10 ^ place p q :=
    mul_nonneg (Nat.cast_nonneg _) (ten_zpow_pos _).le
  unfold shown
  split
  · rw [abs_neg, abs_of_nonneg hnonneg]
  · exact abs_of_nonneg hnonneg

lemma shown_zero (p : ℕ) : shown p 0 = 0 :=
  shown_of_int ⟨0, by simp⟩

/-- A whole number of `p` digits is shown as it is. -/
lemma shown_intCast {n : ℤ} (h : n.natAbs < 10 ^ p) : shown p n = n := by
  by_cases hn : n = 0
  · subst hn
    exact_mod_cast shown_zero p
  · refine shown_of_int ⟨n.natAbs * 10 ^ (-place p n).toNat, ?_⟩
    have habs : |(n : ℚ)| = n.natAbs := by rw [Nat.cast_natAbs, Int.cast_abs]
    have hlog : Nat.log 10 n.natAbs < p := Nat.log_lt_of_lt_pow (by omega) h
    have hplace : place p n ≤ 0 := by
      rw [place, habs, Int.log_natCast]
      omega
    rw [habs]
    push_cast
    rw [mul_assoc, ← zpow_natCast, Int.toNat_of_nonneg (by omega), ← zpow_add₀ (by norm_num),
      neg_add_cancel, zpow_zero, mul_one, ← habs]

lemma shown_nonneg (h : 0 ≤ q) : 0 ≤ shown p q := by
  rw [shown, if_neg (not_lt.mpr h)]
  exact mul_nonneg (Nat.cast_nonneg _) (ten_zpow_pos _).le

end rounding

/-! ### Texts of digits -/

section digits

variable {s t : Str} {n m : ℕ}

lemma parseNat_append (s t : Str) : parseNat (s ++ t) = parseNat s * 10 ^ t.length + parseNat t := by
  simp only [parseNat, List.reverse_append, List.map_append, Nat.ofDigits_append, List.length_map,
    List.length_reverse]
  ring

lemma parseNat_padded (s n : ℕ) : parseNat (padded s n) = n := by
  have hzero : ∀ j, parseNat (List.replicate j 48) = 0 := by
    intro j
    simp [parseNat, Nat.ofDigits_replicate_zero]
  rw [padded, parseNat_append, hzero, parseNat_decimalNat, zero_mul, zero_add]

lemma allDigits_decimalNat (n : ℕ) : AllDigits (decimalNat n) :=
  ⟨decimalNat_ne_nil n, List.all_eq_true.mpr fun _ hc => decimalNat_isDigit hc⟩

lemma AllDigits.append (hs : AllDigits s) (ht : AllDigits t) : AllDigits (s ++ t) :=
  ⟨List.append_ne_nil_of_left_ne_nil hs.1 t, by rw [List.all_append, hs.2, ht.2]; rfl⟩

lemma allDigits_padded (s n : ℕ) : AllDigits (padded s n) := by
  refine ⟨List.append_ne_nil_of_right_ne_nil _ (decimalNat_ne_nil n), ?_⟩
  rw [padded, List.all_append, (allDigits_decimalNat n).2, Bool.and_true, List.all_eq_true]
  intro c hc
  rw [List.eq_of_mem_replicate hc]
  decide

lemma AllDigits.notMem (h : AllDigits s) {c : UInt8} (hc : isDigit c = false) : c ∉ s := by
  intro hmem
  have hdigit := List.all_eq_true.mp h.2 c hmem
  rw [hc] at hdigit
  cases hdigit

lemma length_decimalNat_le {s : ℕ} (hs : s ≠ 0) (hn : n < 10 ^ s) : (decimalNat n).length ≤ s := by
  unfold decimalNat
  split
  · have hlen : (lit "0").length = 1 := by decide
    omega
  · simp only [List.length_reverse, List.length_map]
    exact Nat.digits_length_le_iff (by decide) n |>.mpr hn

lemma length_padded {s : ℕ} (hs : s ≠ 0) (hn : n < 10 ^ s) : (padded s n).length = s := by
  have hle := length_decimalNat_le hs hn
  rw [padded, List.length_append, List.length_replicate, Nat.sub_add_cancel hle]

end digits

/-! ### A printed number is read back -/

section read

variable {p m : ℕ} {k : ℤ} {q : ℚ}

lemma mem_pointed {s : ℕ} {c : UInt8} (h : c ∈ pointed s m) : isDigit c ∨ c = 46 := by
  unfold pointed at h
  split at h
  · exact .inl (decimalNat_isDigit h)
  · rcases List.mem_append.mp h with h | h
    · exact .inl (decimalNat_isDigit h)
    · rcases List.mem_cons.mp h with rfl | h
      · exact .inr rfl
      · exact .inl (List.all_eq_true.mp (allDigits_padded s _).2 c h)

lemma readPointed_pointed (s m : ℕ) : readPointed (pointed s m) = some ((m : ℚ) / 10 ^ s) := by
  have hpoint : ∀ n, (46 : UInt8) ∉ decimalNat n :=
    fun n => (allDigits_decimalNat n).notMem (by decide)
  unfold pointed
  split
  · next hs =>
    rw [readPointed, split_of_notMem (hpoint m)]
    simp [allDigits_decimalNat, parseNat_decimalNat, hs]
  · next hs =>
    have hlen : (padded s (m % 10 ^ s)).length = s :=
      length_padded hs (Nat.mod_lt _ (Nat.pos_of_neZero _))
    have hdigits : AllDigits (decimalNat (m / 10 ^ s) ++ padded s (m % 10 ^ s)) :=
      (allDigits_decimalNat _).append (allDigits_padded s _)
    have hvalue : parseNat (decimalNat (m / 10 ^ s) ++ padded s (m % 10 ^ s)) = m := by
      rw [parseNat_append, parseNat_decimalNat, parseNat_padded, hlen, Nat.div_add_mod']
    rw [readPointed, split_append_cons (hpoint _),
      split_of_notMem ((allDigits_padded s _).notMem (by decide))]
    simp [hdigits, hvalue, hlen]

lemma readExponent_signed (x : ℤ) :
    readExponent ((if x < 0 then 45 else 43) :: padded 2 x.natAbs) = some x := by
  have hdigits := allDigits_padded 2 x.natAbs
  split
  · have hparse : readExponent (45 :: padded 2 x.natAbs) = some (-(parseNat (padded 2 x.natAbs) : ℤ)) := by
      show (if _ then _ else _) = _
      rw [if_pos ⟨hdigits.1, hdigits.2⟩]
    rw [hparse, parseNat_padded]
    congr 1
    omega
  · simp only [readExponent]
    rw [if_pos hdigits, parseNat_padded]
    congr 1
    omega

lemma readUnsigned_unsigned (p m : ℕ) (k : ℤ) :
    readUnsigned (unsigned p m k) = some ((m : ℚ) * 10 ^ k) := by
  have he : ∀ s, (101 : UInt8) ∉ pointed s m := by
    intro s h
    rcases mem_pointed h with h | h <;> revert h <;> decide
  have hread : ∀ s, readUnsigned (pointed s m) = some ((m : ℚ) / 10 ^ s) := by
    intro s
    rw [readUnsigned, split_of_notMem (he s)]
    exact readPointed_pointed s m
  unfold unsigned
  dsimp only
  split
  · split
    · next hk =>
      have hwhole := readPointed_pointed 0 (m * 10 ^ k.toNat)
      rw [pointed, if_pos rfl, pow_zero, div_one] at hwhole
      rw [readUnsigned, split_of_notMem ((allDigits_decimalNat _).notMem (by decide))]
      show readPointed _ = _
      rw [hwhole]
      push_cast
      rw [← zpow_natCast, Int.toNat_of_nonneg hk]
    · next hk =>
      rw [hread, ← zpow_natCast, Int.toNat_of_nonneg (by omega), zpow_neg, div_inv_eq_mul]
  · have hsign : (101 : UInt8) ∉ (if k + Nat.log 10 m < 0 then 45 else 43 : UInt8) ::
        padded 2 (k + Nat.log 10 m).natAbs := by
      rw [List.mem_cons, not_or]
      exact ⟨by split <;> decide, (allDigits_padded 2 _).notMem (by decide)⟩
    rw [readUnsigned, split_append_cons (he _), split_of_notMem hsign]
    simp only [readPointed_pointed, readExponent_signed]
    have hten : (10 : ℚ) ≠ 0 := by norm_num
    have hpow : ((10 : ℚ) ^ Nat.log 10 m) ≠ 0 := pow_ne_zero _ hten
    show some ((m : ℚ) / 10 ^ Nat.log 10 m * 10 ^ (k + Nat.log 10 m)) = _
    rw [zpow_add₀ hten, zpow_natCast]
    congr 1
    field_simp

lemma strip_value (fuel m : ℕ) (k : ℤ) :
    ((strip fuel m k).1 : ℚ) * 10 ^ (strip fuel m k).2 = m * 10 ^ k := by
  induction fuel generalizing m k with
  | zero => rfl
  | succ fuel ih =>
    unfold strip
    split
    · next hm =>
      have hdiv : (m : ℚ) = (m / 10 : ℕ) * 10 := by exact_mod_cast (by omega : m = m / 10 * 10)
      rw [ih, hdiv, zpow_add_one₀ (by norm_num)]
      ring
    · rfl

lemma unsigned_head (p m : ℕ) (k : ℤ) : (unsigned p m k).head? ≠ some 45 := by
  have hdigit : ∀ n (t : Str), (decimalNat n ++ t).head? ≠ some 45 := by
    intro n t h
    cases hn : decimalNat n with
    | nil => exact decimalNat_ne_nil n hn
    | cons c s =>
      rw [hn] at h
      cases h
      exact (allDigits_decimalNat n).notMem (by decide : isDigit 45 = false) (by simp [hn])
  have hpointed : ∀ s (t : Str), (pointed s m ++ t).head? ≠ some 45 := by
    intro s t
    unfold pointed
    split
    · exact hdigit m t
    · rw [List.append_assoc]
      exact hdigit _ _
  unfold unsigned
  dsimp only
  split
  · split
    · simpa using hdigit (m * 10 ^ k.toNat) []
    · simpa using hpointed (-k).toNat []
  · exact hpointed _ _

/-- **A printed number is read back as the number its digits show.** -/
theorem read_print (p : ℕ) (q : ℚ) : read (print p q) = some (shown p q) := by
  unfold print
  split
  · next hq =>
    subst hq
    rw [shown_zero]
    decide +kernel
  · dsimp only
    split
    · next hneg =>
      rw [read, readUnsigned_unsigned, strip_value, shown, if_pos hneg]
      rfl
    · next hneg =>
      have hhead := unsigned_head p (strip (p + 1) (mantissa p q) (place p q)).1
        (strip (p + 1) (mantissa p q) (place p q)).2
      have hread : ∀ {s : Str}, s.head? ≠ some 45 → read s = readUnsigned s := by
        intro s hs
        unfold read
        split
        · exact absurd rfl hs
        · rfl
      rw [hread hhead, readUnsigned_unsigned, strip_value, shown, if_neg hneg]

end read

/-! ### Whole numbers, and the characters of a printed number -/

section whole

variable {p m : ℕ} {k : ℤ}

lemma strip_last {fuel : ℕ} (hpos : 0 < m) (hlt : m < 10 ^ fuel) :
    (strip fuel m k).1 % 10 ≠ 0 := by
  induction fuel generalizing m k with
  | zero => omega
  | succ fuel ih =>
    rw [pow_succ] at hlt
    unfold strip
    split
    · exact ih (by omega) (by omega)
    · assumption

/-- Digits without a trailing zero that make a whole number stand at its front. -/
lemma unsigned_whole {n : ℕ} (hlast : m % 10 ≠ 0) (hn : n < 10 ^ p)
    (h : (m : ℚ) * 10 ^ k = n) : unsigned p m k = decimalNat n := by
  have hk : 0 ≤ k := by
    by_contra hneg
    obtain ⟨j, hj⟩ : ∃ j : ℕ, k = -((j + 1 : ℕ) : ℤ) := ⟨(-k - 1).toNat, by omega⟩
    rw [hj, zpow_neg, zpow_natCast, ← div_eq_mul_inv, div_eq_iff (by positivity)] at h
    have hm : m = n * 10 ^ (j + 1) := by exact_mod_cast h
    rw [hm, pow_succ, ← mul_assoc] at hlast
    omega
  obtain ⟨j, rfl⟩ := Int.eq_ofNat_of_zero_le hk
  have hmn : m * 10 ^ j = n := by exact_mod_cast h
  have hlog : ∀ i, Nat.log 10 (m * 10 ^ i) = Nat.log 10 m + i := by
    intro i
    induction i with
    | zero => simp
    | succ i ih =>
      have hne : m * 10 ^ i ≠ 0 := Nat.mul_ne_zero (by omega) (Nat.pos_of_neZero _).ne'
      rw [pow_succ, ← mul_assoc, Nat.log_mul_base (by decide) hne, ih]
      rfl
  have hlt : Nat.log 10 m + j < p := by
    rw [← hlog, hmn]
    refine Nat.log_lt_of_lt_pow ?_ hn
    rintro rfl
    simp_all
  unfold unsigned
  dsimp only
  rw [if_pos (by omega), if_pos hk, Int.toNat_natCast, hmn]

/-- The digits of a whole number. -/
lemma mantissa_intCast {n : ℤ} (hn : n ≠ 0) (h : n.natAbs < 10 ^ p) :
    0 < mantissa p n ∧ mantissa p n < 10 ^ (p + 1) ∧
      (mantissa p n : ℚ) * 10 ^ place p n = n.natAbs := by
  have habs : |(n : ℚ)| = n.natAbs := by rw [Nat.cast_natAbs, Int.cast_abs]
  have hvalue : (mantissa p n : ℚ) * 10 ^ place p n = n.natAbs := by
    rw [← habs, ← abs_shown, shown_intCast h]
  have hpos : (0 : ℚ) < n.natAbs := by exact_mod_cast Int.natAbs_pos.mpr hn
  refine ⟨?_, ?_, hvalue⟩
  · by_contra hzero
    rw [Nat.eq_zero_of_not_pos hzero, Nat.cast_zero, zero_mul] at hvalue
    exact hpos.ne hvalue
  · have hlt : (n.natAbs : ℚ) < 10 ^ (place p n + p) := by
      have hsucc := Int.lt_zpow_succ_log_self (b := 10) (by decide) |(n : ℚ)|
      rw [place, sub_add, sub_sub_cancel_left, sub_neg_eq_add, ← habs]
      exact_mod_cast hsucc
    rw [← hvalue, zpow_add₀ (by norm_num), mul_comm, mul_lt_mul_iff_right₀ (ten_zpow_pos _),
      zpow_natCast] at hlt
    calc mantissa p n < 10 ^ p := by exact_mod_cast hlt
      _ ≤ 10 ^ (p + 1) := Nat.pow_le_pow_right (by decide) (Nat.le_succ p)

/-- **A whole number that has not more digits is printed as an integer.** -/
theorem print_intCast {n : ℤ} (h : n.natAbs < 10 ^ p) : print p n = decimal n := by
  unfold print
  split
  · next hn =>
    rw [Int.cast_eq_zero] at hn
    subst hn
    decide
  · next hn =>
    obtain ⟨hpos, hlt, hvalue⟩ := mantissa_intCast (by exact_mod_cast hn) h
    have hwhole := unsigned_whole (strip_last (k := place p n) hpos hlt) h
      ((strip_value (p + 1) (mantissa p n) (place p n)).trans hvalue)
    dsimp only
    rw [hwhole, decimal]
    simp only [Int.cast_lt_zero]
    rfl

/-- A printed number has digits, a point, and the letter and sign of its exponent. -/
lemma mem_print {q : ℚ} {c : UInt8} (h : c ∈ print p q) : isDigit c ∨ c ∈ lit ".e+-" := by
  have hpointed : ∀ {s m}, c ∈ pointed s m → isDigit c ∨ c ∈ lit ".e+-" := by
    intro s m h
    rcases mem_pointed h with h | rfl
    · exact .inl h
    · exact .inr (by decide)
  have hunsigned : ∀ {m k}, c ∈ unsigned p m k → isDigit c ∨ c ∈ lit ".e+-" := by
    intro m k h
    unfold unsigned at h
    dsimp only at h
    split at h
    · split at h
      · exact .inl (decimalNat_isDigit h)
      · exact hpointed h
    · rcases List.mem_append.mp h with h | h
      · exact hpointed h
      · rcases List.mem_cons.mp h with rfl | h
        · exact .inr (by decide)
        · rcases List.mem_cons.mp h with rfl | h
          · exact .inr (by split <;> decide)
          · exact .inl (List.all_eq_true.mp (allDigits_padded 2 _).2 c h)
  unfold print at h
  split at h
  · have hzero : lit "0" = [48] := by decide
    rw [hzero, List.mem_singleton] at h
    subst h
    exact .inl (by decide)
  · dsimp only at h
    split at h
    · rcases List.mem_cons.mp h with rfl | h
      · exact .inr (by decide)
      · exact hunsigned h
    · exact hunsigned h

/-- A text of an integer is read as that integer. -/
lemma read_of_parseDecimal {s : Str} {n : ℤ} (h : parseDecimal s = some n) : read s = some (n : ℚ) := by
  have hdigits : ∀ {s}, AllDigits s → readUnsigned s = some (parseNat s : ℚ) := by
    intro s hs
    rw [readUnsigned, split_of_notMem (hs.notMem (by decide))]
    show readPointed s = _
    rw [readPointed, split_of_notMem (hs.notMem (by decide))]
    exact if_pos hs
  cases s with
  | nil => cases h
  | cons c digits =>
    unfold parseDecimal at h
    dsimp only at h
    split at h
    · next hc =>
      subst hc
      split at h
      · next hd =>
        cases h
        rw [read, hdigits hd, Option.map_some]
        push_cast
        rfl
      · cases h
    · next hc =>
      split at h
      · next hd =>
        cases h
        have hs : AllDigits (c :: digits) := ⟨List.cons_ne_nil _ _, hd⟩
        have hread : read (c :: digits) = readUnsigned (c :: digits) := by
          unfold read
          split
          · next heq => cases heq; exact absurd rfl hc
          · rfl
        rw [hread, hdigits hs]
        rfl
      · cases h

end whole

end Sax.Decimal
