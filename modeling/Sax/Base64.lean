import Mathlib.Data.List.TakeWhile
import Sax.Loop
import Sax.Uri

/-!
Base64 as nginx has it.

The decoder stops at the first `=`, refuses a text with a character outside the alphabet before it,
and needs no padding.
-/

namespace Sax.Base64

open Sax.LuaVal Sax.Loop Sax.Uri

def basis64 : Str := lit "ABCDEFGHIJKLMNOPQRSTUVWXYZabcdefghijklmnopqrstuvwxyz0123456789+/"

def char (d : UInt8) : UInt8 := basis64.getD d.toNat 0

/-- The place of a character in the alphabet. -/
def value (c : UInt8) : Option UInt8 :=
  if 65 ≤ c ∧ c ≤ 90 then some (c - 65)
  else if 97 ≤ c ∧ c ≤ 122 then some (c - 97 + 26)
  else if 48 ≤ c ∧ c ≤ 57 then some (c - 48 + 52)
  else if c = 43 then some 62
  else if c = 47 then some 63
  else none

def pad : UInt8 := 61

def encode_base64 : Str → Str
  | a :: b :: c :: s =>
    char ((a >>> 2) &&& 63) :: char (((a &&& 3) <<< 4) ||| (b >>> 4)) ::
      char (((b &&& 15) <<< 2) ||| (c >>> 6)) :: char (c &&& 63) :: encode_base64 s
  | [a, b] =>
    [char ((a >>> 2) &&& 63), char (((a &&& 3) <<< 4) ||| (b >>> 4)), char ((b &&& 15) <<< 2), pad]
  | [a] => [char ((a >>> 2) &&& 63), char ((a &&& 3) <<< 4), pad, pad]
  | [] => []

/-- The bytes of a list of values, four values for three bytes. -/
def decodeValues : List UInt8 → Str
  | w :: x :: y :: z :: l =>
    (w <<< 2 ||| x >>> 4) :: (x <<< 4 ||| y >>> 2) :: (y <<< 6 ||| z) :: decodeValues l
  | [w, x, y] => [w <<< 2 ||| x >>> 4, x <<< 4 ||| y >>> 2]
  | [w, x] => [w <<< 2 ||| x >>> 4]
  | _ => []

def decode_base64 (s : Str) : Option Str := do
  let values ← (s.takeWhile (· ≠ pad)).mapM value
  if values.length % 4 = 1 then none else return decodeValues values

/-! ### Characters and bits -/

lemma value_char {d : UInt8} (h : d < 64) : value (char d) = some d :=
  forall_byte (P := fun d => d < 64 → value (char d) = some d) (by decide +kernel) d h

lemma char_ne_pad {d : UInt8} (h : d < 64) : char d ≠ pad := by
  intro hpad
  have hvalue := value_char h
  rw [hpad] at hvalue
  cases hvalue

lemma or_shiftRight (a b c : UInt8) : (a ||| b) >>> c = a >>> c ||| b >>> c :=
  UInt8.toBitVec_inj.1 (by simp [BitVec.ushiftRight_or_distrib])

lemma or_shiftLeft (a b c : UInt8) : (a ||| b) <<< c = a <<< c ||| b <<< c :=
  UInt8.toBitVec_inj.1 (by simp [BitVec.shiftLeft_or_distrib])

lemma or_lt {a b : UInt8} (ha : a < 64) (hb : b < 64) : a ||| b < 64 := by
  rw [UInt8.lt_iff_toNat_lt] at *
  rw [UInt8.toNat_or]
  exact Nat.or_lt_two_pow (n := 6) ha hb

section bits

variable (a : UInt8)

/-- The parts a byte is cut into at each of the three places are sextets. -/
lemma parts_lt : (a >>> 2) &&& 63 < 64 ∧ (a &&& 3) <<< 4 < 64 ∧ a >>> 4 < 64 ∧
    (a &&& 15) <<< 2 < 64 ∧ a >>> 6 < 64 ∧ a &&& 63 < 64 :=
  forall_byte (P := fun a => (a >>> 2) &&& 63 < 64 ∧ (a &&& 3) <<< 4 < 64 ∧ a >>> 4 < 64 ∧
    (a &&& 15) <<< 2 < 64 ∧ a >>> 6 < 64 ∧ a &&& 63 < 64) (by decide +kernel) a

lemma high6_lt : (a >>> 2) &&& 63 < 64 := (parts_lt a).1
lemma low2_lt : (a &&& 3) <<< 4 < 64 := (parts_lt a).2.1
lemma high4_lt : a >>> 4 < 64 := (parts_lt a).2.2.1
lemma low4_lt : (a &&& 15) <<< 2 < 64 := (parts_lt a).2.2.2.1
lemma high2_lt : a >>> 6 < 64 := (parts_lt a).2.2.2.2.1
lemma low6_lt : a &&& 63 < 64 := (parts_lt a).2.2.2.2.2

/-- They make the byte again, and nothing of them is left in its neighbours. -/
lemma parts_join : (((a >>> 2) &&& 63) <<< 2 ||| ((a &&& 3) <<< 4) >>> 4 = a ∧
      (a &&& 3) <<< 4 <<< 4 = 0) ∧
    ((a >>> 4) <<< 4 ||| ((a &&& 15) <<< 2) >>> 2 = a ∧ a >>> 4 >>> 4 = 0 ∧
      (a &&& 15) <<< 2 <<< 6 = 0) ∧
    (a >>> 6) <<< 6 ||| (a &&& 63) = a ∧ a >>> 6 >>> 2 = 0 :=
  forall_byte (P := fun a => (((a >>> 2) &&& 63) <<< 2 ||| ((a &&& 3) <<< 4) >>> 4 = a ∧
      (a &&& 3) <<< 4 <<< 4 = 0) ∧
    ((a >>> 4) <<< 4 ||| ((a &&& 15) <<< 2) >>> 2 = a ∧ a >>> 4 >>> 4 = 0 ∧
      (a &&& 15) <<< 2 <<< 6 = 0) ∧
    (a >>> 6) <<< 6 ||| (a &&& 63) = a ∧ a >>> 6 >>> 2 = 0) (by decide +kernel) a

lemma high6_low2 : ((a >>> 2) &&& 63) <<< 2 ||| ((a &&& 3) <<< 4) >>> 4 = a ∧
    (a &&& 3) <<< 4 <<< 4 = 0 := (parts_join a).1

lemma high4_low4 : (a >>> 4) <<< 4 ||| ((a &&& 15) <<< 2) >>> 2 = a ∧ a >>> 4 >>> 4 = 0 ∧
    (a &&& 15) <<< 2 <<< 6 = 0 := (parts_join a).2.1

lemma high2_low6 : (a >>> 6) <<< 6 ||| (a &&& 63) = a ∧ a >>> 6 >>> 2 = 0 := (parts_join a).2.2

end bits

/-! ### Decoding undoes encoding -/

/-- The values whose characters encode a text. -/
def sextets : Str → List UInt8
  | a :: b :: c :: s =>
    ((a >>> 2) &&& 63) :: (((a &&& 3) <<< 4) ||| (b >>> 4)) :: (((b &&& 15) <<< 2) ||| (c >>> 6)) ::
      (c &&& 63) :: sextets s
  | [a, b] => [(a >>> 2) &&& 63, ((a &&& 3) <<< 4) ||| (b >>> 4), (b &&& 15) <<< 2]
  | [a] => [(a >>> 2) &&& 63, (a &&& 3) <<< 4]
  | [] => []

lemma sextets_lt (s : Str) : ∀ d ∈ sextets s, d < 64 := by
  induction s using sextets.induct with
  | case1 a b c s ih =>
    simp only [sextets, List.forall_mem_cons]
    exact ⟨high6_lt a, or_lt (low2_lt a) (high4_lt b), or_lt (low4_lt b) (high2_lt c), low6_lt c, ih⟩
  | case2 a b =>
    simp only [sextets, List.forall_mem_cons]
    exact ⟨high6_lt a, or_lt (low2_lt a) (high4_lt b), low4_lt b, by simp⟩
  | case3 a =>
    simp only [sextets, List.forall_mem_cons]
    exact ⟨high6_lt a, low2_lt a, by simp⟩
  | case4 => simp [sextets]

lemma encode_eq (s : Str) : ∃ n, encode_base64 s = (sextets s).map char ++ List.replicate n pad ∧
    (n = 0 ↔ s.length % 3 = 0) := by
  induction s using sextets.induct with
  | case1 a b c s ih =>
    obtain ⟨n, hn, hlength⟩ := ih
    refine ⟨n, ?_, ?_⟩
    · rw [encode_base64, sextets, hn]
      rfl
    · rw [hlength]
      simp only [List.length_cons]
      omega
  | case2 a b => exact ⟨1, rfl, by simp⟩
  | case3 a => exact ⟨2, rfl, by simp⟩
  | case4 => exact ⟨0, rfl, by simp⟩

lemma length_sextets (s : Str) : (sextets s).length % 4 ≠ 1 := by
  induction s using sextets.induct with
  | case1 a b c s ih =>
    simp only [sextets, List.length_cons]
    omega
  | case2 a b => simp [sextets]
  | case3 a => simp [sextets]
  | case4 => simp [sextets]

lemma decodeValues_sextets (s : Str) : decodeValues (sextets s) = s := by
  induction s using sextets.induct with
  | case1 a b c s ih =>
    simp only [sextets, decodeValues, or_shiftRight, or_shiftLeft, ih, (high4_low4 b).2.1,
      (high6_low2 a).2, (high2_low6 c).2, (high4_low4 b).2.2, UInt8.or_zero, UInt8.zero_or,
      (high6_low2 a).1, (high4_low4 b).1, (high2_low6 c).1]
  | case2 a b =>
    simp only [sextets, decodeValues, or_shiftRight, or_shiftLeft, (high4_low4 b).2.1,
      (high6_low2 a).2, UInt8.or_zero, UInt8.zero_or, (high6_low2 a).1, (high4_low4 b).1]
  | case3 a => simp only [sextets, decodeValues, (high6_low2 a).1]
  | case4 => rfl

lemma mapM_value_char {l : List UInt8} (h : ∀ d ∈ l, d < 64) : (l.map char).mapM value = some l := by
  induction l with
  | nil => rfl
  | cons d l ih =>
    rw [List.forall_mem_cons] at h
    rw [List.map_cons, List.mapM_cons, value_char h.1, ih h.2]
    rfl

/-- **Decoding undoes encoding.** -/
theorem decode_encode (s : Str) : decode_base64 (encode_base64 s) = some s := by
  obtain ⟨n, hn, -⟩ := encode_eq s
  have hchars : ∀ c ∈ (sextets s).map char, decide (c ≠ pad) = true := by
    intro c hc
    obtain ⟨d, hd, rfl⟩ := List.mem_map.mp hc
    exact decide_eq_true (char_ne_pad (sextets_lt s d hd))
  have htake : (encode_base64 s).takeWhile (· ≠ pad) = (sextets s).map char := by
    rw [hn, List.takeWhile_append_of_pos hchars]
    cases n <;> simp [List.replicate_succ]
  unfold decode_base64
  rw [htake, mapM_value_char (sextets_lt s)]
  simp only [Option.bind_eq_bind, Option.bind_some, length_sextets, if_false,
    decodeValues_sextets]
  rfl

/-- A text whose length is no multiple of 3 is padded. -/
lemma pad_mem_encode {s : Str} (h : s.length % 3 ≠ 0) : pad ∈ encode_base64 s := by
  obtain ⟨n, hn, hlength⟩ := encode_eq s
  rw [hn, List.mem_append, List.mem_replicate]
  exact .inr ⟨fun h0 => h (hlength.mp h0), rfl⟩

/-- A text with a character that is in no alphabet, and no `=`, does not decode. -/
lemma decode_eq_none {s : Str} (hpad : pad ∉ s) {c : UInt8} (hc : c ∈ s) (hvalue : value c = none) :
    decode_base64 s = none := by
  have htake : s.takeWhile (· ≠ pad) = s := by
    rw [List.takeWhile_eq_self_iff]
    intro d hd
    exact decide_eq_true fun h => hpad (h ▸ hd)
  unfold decode_base64
  rw [htake]
  cases hvalues : s.mapM value with
  | none => rfl
  | some values =>
    obtain ⟨d, hd⟩ := mapM_isSome.mp ⟨values, hvalues⟩ c hc
    rw [hvalue] at hd
    cases hd

end Sax.Base64
