import Mathlib.Data.Int.DivMod
import Sax.Base64
import Sax.Runtime

/-!
The encrypted price of `saxmob/common/util.lua`.

The price is packed as a signed number of eight bytes, so what is not a whole number in their range
does not come back.
-/

namespace Sax.Cipher

open Sax.LuaVal Sax.Loop Sax.Runtime Sax.Base64

/-- `struct.unpack(">l", s)` -/
def unpackI8 (s : Str) : ℤ := ((s.foldl (fun l c => l * 256 + c.toNat) 0 : ℕ) : ℤ).bmod (2 ^ 64)

/-- The loop over `bit.bxor`, which needs eight bytes of both. -/
def xor8 (pad s : Str) : Lua Str :=
  if 8 ≤ pad.length ∧ 8 ≤ s.length then .ok (List.zipWith (· ^^^ ·) (pad.take 8) (s.take 8))
  else .error .badArgument

def encrypt_price (lib : Ngx) (iv e_key i_key : Str) (win_cpm_price : ℚ) : Lua Str := do
  let pad := (lib.hmac_sha1 e_key iv).take 8
  let price := packI8 win_cpm_price
  let enc_price ← xor8 pad price
  let signature := (lib.hmac_sha1 i_key (price ++ iv)).take 4
  return encode_base64 (iv ++ enc_price ++ signature)

/-- The price, or `none` for the empty string that stands for a wrong signature. -/
def unencrypt_price (lib : Ngx) (e_key i_key encrypt_str : Str) : Lua (Option ℤ) := do
  let iv := encrypt_str.take 16
  let encrypt_price := (encrypt_str.drop 16).take 8
  let signature := (encrypt_str.drop 24).take 4
  let pad := (lib.hmac_sha1 e_key iv).take 8
  let price ← xor8 pad encrypt_price
  if (lib.hmac_sha1 i_key (price ++ iv)).take 4 = signature then return some (unpackI8 price)
  else return none

/-! ### Packing -/

/-- A whole number of eight bytes. -/
def IsLong (q : ℚ) : Prop := ∃ n : ℤ, q = n ∧ -2 ^ 63 ≤ n ∧ n < 2 ^ 63

lemma length_packI8 (q : ℚ) : (packI8 q).length = 8 := by simp [packI8]

/-- The last `k` bytes of a number, read from the highest on. -/
lemma foldl_bytes (k n : ℕ) : ((List.range k).map fun i => UInt8.ofNat (n / 256 ^ (k - 1 - i))).foldl
    (fun l c => l * 256 + c.toNat) 0 = n % 256 ^ k := by
  induction k generalizing n with
  | zero => simp [Nat.mod_one]
  | succ k ih =>
    have hhigh : ((List.range k).map fun i => UInt8.ofNat (n / 256 ^ (k + 1 - 1 - i))) =
        (List.range k).map fun i => UInt8.ofNat (n / 256 / 256 ^ (k - 1 - i)) := by
      refine List.map_congr_left fun i hi => ?_
      have hexp : k + 1 - 1 - i = k - 1 - i + 1 := by
        have := List.mem_range.mp hi
        omega
      rw [hexp, pow_succ', Nat.div_div_eq_div_mul]
    rw [List.range_succ, List.map_append, List.foldl_append, hhigh, ih (n / 256), pow_succ',
      Nat.mod_mul]
    simp [Nat.add_comm, Nat.mul_comm]

lemma unpack_pack (q : ℚ) : unpackI8 (packI8 q) = (q.num.tdiv q.den).bmod (2 ^ 64) := by
  unfold unpackI8 packI8
  have hpos : (0 : ℤ) ≤ (q.num.tdiv q.den) % 2 ^ 64 := Int.emod_nonneg _ (by decide)
  have hlt : (q.num.tdiv q.den) % 2 ^ 64 < 2 ^ 64 := Int.emod_lt_of_pos _ (by decide)
  generalize hn : ((q.num.tdiv q.den) % 2 ^ 64).toNat = n
  have hlt' : n < 2 ^ 64 := by omega
  have hfold : ((List.range 8).map fun i => UInt8.ofNat (n / 256 ^ (7 - i))).foldl
      (fun l c => l * 256 + c.toNat) 0 = n :=
    (foldl_bytes 8 n).trans (Nat.mod_eq_of_lt hlt')
  have hmod : (q.num.tdiv q.den % 2 ^ 64).bmod (2 ^ 64) = (q.num.tdiv q.den).bmod (2 ^ 64) := by
    exact_mod_cast Int.emod_bmod (q.num.tdiv q.den) (2 ^ 64)
  rw [hfold, ← hn, Int.toNat_of_nonneg hpos, hmod]

lemma bmod_bounds (n : ℤ) : -2 ^ 63 ≤ n.bmod (2 ^ 64) ∧ n.bmod (2 ^ 64) < 2 ^ 63 := by
  have hle : -((2 ^ 64 : ℕ) / 2 : ℤ) ≤ n.bmod (2 ^ 64) := Int.le_bmod (by decide)
  have hlt : n.bmod (2 ^ 64) < ((2 ^ 64 : ℕ) + 1) / 2 := Int.bmod_lt (by decide)
  norm_num at hle hlt ⊢
  exact ⟨hle, hlt⟩

lemma bmod_self {n : ℤ} (hlow : -2 ^ 63 ≤ n) (hhigh : n < 2 ^ 63) : n.bmod (2 ^ 64) = n := by
  apply Int.bmod_eq_of_le <;> norm_num <;> omega

/-- **A packed price is read back exactly when it is a whole number of eight bytes.** -/
lemma unpack_pack_eq {q : ℚ} : ((unpackI8 (packI8 q) : ℤ) : ℚ) = q ↔ IsLong q := by
  rw [unpack_pack]
  constructor
  · intro h
    exact ⟨_, h.symm, bmod_bounds _⟩
  · rintro ⟨n, rfl, hlow, hhigh⟩
    rw [Rat.num_intCast, Rat.den_intCast, Nat.cast_one, Int.tdiv_one, bmod_self hlow hhigh]

/-! ### Encrypting and back -/

section crypt

variable {lib : Ngx} {iv e_key i_key : Str} {q : ℚ}

/-- Every signature has twenty bytes. -/
def HmacLength (lib : Ngx) : Prop := ∀ k s, (lib.hmac_sha1 k s).length = 20

lemma length_take_hmac (hlib : HmacLength lib) (k s : Str) {n : ℕ} (hn : n ≤ 20) :
    ((lib.hmac_sha1 k s).take n).length = n := by
  rw [List.length_take, hlib]
  exact min_eq_left hn

lemma xor8_of_length {a b : Str} (ha : a.length = 8) (hb : b.length = 8) :
    xor8 a b = .ok (List.zipWith (· ^^^ ·) a b) := by
  unfold xor8
  rw [if_pos ⟨ha.ge, hb.ge⟩, List.take_of_length_le ha.le, List.take_of_length_le hb.le]

lemma zipWith_xor_xor {a b : Str} (h : a.length = b.length) :
    List.zipWith (· ^^^ ·) a (List.zipWith (· ^^^ ·) a b) = b := by
  induction a generalizing b with
  | nil =>
    cases b with
    | nil => rfl
    | cons => cases h
  | cons x a ih =>
    cases b with
    | nil => cases h
    | cons y b =>
      rw [List.zipWith_cons_cons, List.zipWith_cons_cons, ih (Nat.succ.inj h), ← UInt8.xor_assoc,
        UInt8.xor_self, UInt8.zero_xor]

/-- Encrypting goes through, whatever the price. -/
lemma encrypt_isOk (hlib : HmacLength lib) :
    ∃ msg, encrypt_price lib iv e_key i_key q = .ok msg := by
  unfold encrypt_price
  dsimp only
  rw [xor8_of_length (length_take_hmac hlib e_key iv (by decide)) (length_packI8 q)]
  exact ⟨_, rfl⟩

/-- The message before it is encoded. -/
lemma encrypt_ok (hlib : HmacLength lib) (hiv : iv.length = 16) :
    ∃ message, encrypt_price lib iv e_key i_key q = .ok (encode_base64 message) ∧
      message.length = 28 ∧
      unencrypt_price lib e_key i_key message = .ok (some (unpackI8 (packI8 q))) := by
  have hpad := length_take_hmac hlib e_key iv (show 8 ≤ 20 by decide)
  have hsign := length_take_hmac hlib i_key (packI8 q ++ iv) (show 4 ≤ 20 by decide)
  have hprice := length_packI8 q
  unfold encrypt_price
  generalize hp : (lib.hmac_sha1 e_key iv).take 8 = pad at hpad ⊢
  generalize hs : (lib.hmac_sha1 i_key (packI8 q ++ iv)).take 4 = signature at hsign ⊢
  dsimp only
  rw [xor8_of_length hpad hprice]
  have hxor := zipWith_xor_xor (hpad.trans hprice.symm)
  generalize he : List.zipWith (· ^^^ ·) pad (packI8 q) = enc_price at hxor ⊢
  have henc : enc_price.length = 8 := by rw [← he, List.length_zipWith, hpad, hprice]; rfl
  refine ⟨iv ++ enc_price ++ signature, by rw [ok_bind, hs]; rfl, ?_, ?_⟩
  · simp only [List.length_append, hiv, henc, hsign]
  · have htake : (iv ++ enc_price ++ signature).take 16 = iv := by
      rw [List.append_assoc, List.take_left' hiv]
    have hprice' : ((iv ++ enc_price ++ signature).drop 16).take 8 = enc_price := by
      rw [List.append_assoc, List.drop_left' hiv, List.take_left' henc]
    have hsign' : ((iv ++ enc_price ++ signature).drop 24).take 4 = signature := by
      rw [List.drop_left' (by simp [hiv, henc]), List.take_of_length_le hsign.le]
    unfold unencrypt_price
    dsimp only
    rw [htake, hprice', hsign', hp, xor8_of_length hpad henc, hxor, ok_bind, hs, if_pos rfl]
    rfl

/-- **An encrypted price is decrypted to itself**, for every whole price that a Lua number holds
exactly, every iv and every two keys. -/
theorem price_round_trip (hlib : HmacLength lib) (hiv : iv.length = 16) {price : ℤ}
    (hprice : |price| ≤ 2 ^ 53) :
    ∃ msg message, encrypt_price lib iv e_key i_key price = .ok msg ∧
      decode_base64 msg = some message ∧
      unencrypt_price lib e_key i_key message = .ok (some price) := by
  obtain ⟨message, hencrypt, -, hdecrypt⟩ :
      ∃ message, encrypt_price lib iv e_key i_key price = .ok (encode_base64 message) ∧
        message.length = 28 ∧
        unencrypt_price lib e_key i_key message = .ok (some (unpackI8 (packI8 price))) :=
    encrypt_ok hlib hiv
  have hlong : IsLong price := by
    obtain ⟨hlow, hhigh⟩ := abs_le.mp hprice
    exact ⟨price, rfl, by omega, by omega⟩
  have hunpack : unpackI8 (packI8 price) = price := by exact_mod_cast unpack_pack_eq.mpr hlong
  rw [hunpack] at hdecrypt
  exact ⟨_, message, hencrypt, decode_encode message, hdecrypt⟩

/-- The greatest price, with a signature of zeroes. -/
theorem price_round_trip_greatest :
    ∃ msg message, encrypt_price { Ngx.ofTexts [] with hmac_sha1 := fun _ _ => List.replicate 20 0 }
        (List.replicate 16 0) [] [] ((2 ^ 53 : ℤ) : ℚ) = .ok msg ∧
      decode_base64 msg = some message ∧
      unencrypt_price { Ngx.ofTexts [] with hmac_sha1 := fun _ _ => List.replicate 20 0 } [] [] message =
        .ok (some (2 ^ 53)) :=
  price_round_trip (fun _ _ => rfl) rfl (by decide)

end crypt

end Sax.Cipher
