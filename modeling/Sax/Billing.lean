import Sax.Cipher
import Sax.Confirm
import Sax.Decimal
import Sax.WinPrice

/-!
The price of a winner as the exchange of `rtb.lua` records it and as the DSP reads it.

The view URL and the confirmation carry the price as it is printed, the creative carries it packed
in eight bytes. Printing keeps fourteen digits and packing keeps the whole part, so what they keep
of a price need not be the same.
-/

namespace Sax.Billing

open Sax.LuaVal Sax.Loop Sax.Const Sax.Runtime Sax.Store Sax.Auction Sax.Creative Sax.WebRtb
open Sax.Base64 Sax.Cipher
open Sax.BidRsp (Ctx selectWinner)

/-- `%.14g`, the format of `tostring` and of `cjson`. -/
abbrev format (q : ℚ) : Str := Decimal.print 14 q

/-! ### The three records -/

/-- The line that `generateViewUrl` logs in its URL, up to the price. -/
def logHead (c : Ctx) (dspId adUnitId : Str) : Str :=
  c.bid ++ tab ++ dspId ++ tab ++ adUnitId ++ tab

/-- The line that `generateViewUrl` logs in its URL. -/
def viewLog (c : Ctx) (dspId adUnitId creativeId : Str) (winCpmPrice : Option ℚ) : Lua Str := do
  let uniqueId ← concatUniqueId c dspId creativeId
  let price ← concatNumber c.lib winCpmPrice
  return logHead c dspId adUnitId ++ price ++ tab ++ creativeId ++ tab ++ uniqueId

/-- The URL of a line. -/
def viewUrl (c : Ctx) (log : Str) : Str :=
  RTB_VIEW_URL ++ lit "?" ++ c.lib.encode_args
    [(RTB_VIEW_ARG_TYPE, VIEW_TYPE_DSP), (RTB_VIEW_ARG_T, c.lib.encode_base64 log)]

/-- The field of the price. -/
def loggedPrice (c : Ctx) (dspId adUnitId log : Str) : Option ℚ :=
  Decimal.read ((log.drop (logHead c dspId adUnitId).length).takeWhile (· ≠ 9))

/-- The price of an element of `ad_price`, as its JSON text shows it. -/
def confirmedPrice (price : WinPrice) : Option ℚ :=
  price.win_cpm_price.bind fun q => Decimal.read (format q)

/-- What a DSP with the two keys makes of the message in its creative. -/
def decryptedPrice (lib : Ngx) (eKey iKey msg : Str) : Option ℤ :=
  (decode_base64 msg).bind fun message => (unencrypt_price lib eKey iKey message).toOption.join

section records

variable (c : Ctx) (adUnitId : Str) (winner : Win) (creativeId : Str) (p : ℚ)

/-- The view URL records the price. -/
def Viewed : Prop :=
  ∃ log, viewLog c winner.dsp_id adUnitId creativeId winner.win_cpm_price = .ok log ∧
    generateViewUrl c winner.dsp_id adUnitId creativeId winner.win_cpm_price =
      .ok (viewUrl c log) ∧
    loggedPrice c winner.dsp_id adUnitId log = some p

/-- A confirmation, if the DSP wants one, records the price. -/
def Confirmed : Prop :=
  ∀ l l', fillWinPriceList c adUnitId winner l = .ok l' →
    getConfirmUrl c.dict winner.dsp_id ≠ .ok (some []) →
      ∃ prices price, l'.get winner.dsp_id = some (prices ++ [price]) ∧ price.id = adUnitId ∧
        confirmedPrice price = some p

/-- The DSP decrypts the price with its keys. -/
def Decrypted : Prop :=
  ∃ eKey iKey msg n, getEncryptionKey c.dict winner.dsp_id = .ok (some eKey) ∧
    getIntegrityKey c.dict winner.dsp_id = .ok (some iKey) ∧
    priceMsg c winner.dsp_id winner.win_cpm_price = .ok msg ∧
    decryptedPrice c.lib eKey iKey msg = some n ∧ (n : ℚ) = p

end records

/-- **The three records of a creative that won agree** on a price. -/
def Agree (c : Ctx) (o : Order) (draw : Draw) (bidInfo : List (Bid (List BidRsp.Creative)))
    (adUnitId : Str) (creative : BidRsp.Creative) : Prop :=
  ∃ winner p, selectWinner c.dict c.auction_type o draw bidInfo adUnitId = .ok winner ∧
    creative ∈ winner.creative ∧ Viewed c adUnitId winner creative.id p ∧
    Confirmed c adUnitId winner p ∧ Decrypted c winner p

/-! ### What the two encodings keep of a price -/

/-- The number that `struct.pack` packs. -/
def cut (q : ℚ) : ℤ := q.num.tdiv q.den

/-- Fourteen digits of the price show the whole number of eight bytes it is cut to. -/
def ShownCut (q : ℚ) : Prop := -2 ^ 63 ≤ cut q ∧ cut q < 2 ^ 63 ∧ Decimal.shown 14 q = cut q

section cut

variable {q : ℚ}

lemma cut_intCast (n : ℤ) : cut n = n := by
  rw [cut, Rat.num_intCast, Rat.den_intCast, Nat.cast_one, Int.tdiv_one]

lemma cut_neg (q : ℚ) : cut (-q) = -cut q := by
  rw [cut, cut, Rat.neg_num, Rat.neg_den, Int.neg_tdiv]

/-- A price is cut towards zero. -/
lemma cut_of_nonneg (h : 0 ≤ q) : 0 ≤ cut q ∧ (cut q : ℚ) ≤ q := by
  have hfloor : cut q = ⌊q⌋ := by
    rw [cut, Int.tdiv_eq_ediv_of_nonneg (Rat.num_nonneg.mpr h), Rat.floor_def']
  rw [hfloor]
  exact ⟨Int.floor_nonneg.mpr h, Int.floor_le q⟩

lemma cut_of_neg (h : q < 0) : cut q ≤ 0 ∧ q ≤ cut q := by
  obtain ⟨hpos, hle⟩ := cut_of_nonneg (neg_nonneg.mpr h.le)
  rw [cut_neg] at hpos hle
  push_cast at hle
  exact ⟨by omega, by linarith⟩

/-- Fourteen digits are not so few that half of the price could be lost. -/
lemma abs_shown_sub_le_half (q : ℚ) : |Decimal.shown 14 q - q| ≤ |q| / 2 := by
  by_cases hq : q = 0
  · subst hq
    simp [Decimal.shown_zero]
  · have hplace := Decimal.ten_zpow_place_le (p := 14) hq
    have hpos := Decimal.ten_zpow_pos (Decimal.place 14 q)
    norm_num at hplace
    linarith [Decimal.abs_shown_sub_le 14 q]

/-- A price beyond eight bytes wraps around to a number that its digits do not show. -/
lemma shown_eq_bmod_iff : Decimal.shown 14 q = ((cut q).bmod (2 ^ 64) : ℤ) ↔ ShownCut q := by
  obtain ⟨hlow, hhigh⟩ := bmod_bounds (cut q)
  constructor
  · intro h
    have hwrap : (cut q).bmod (2 ^ 64) = cut q - (2 ^ 64 : ℕ) * (cut q).bdiv (2 ^ 64) :=
      Int.bmod_eq_self_sub_mul_bdiv _ _
    have hhalf := abs_le.mp (abs_shown_sub_le_half q)
    rw [h] at hhalf
    have hrange : -2 ^ 63 ≤ cut q ∧ cut q < 2 ^ 63 := by
      rcases le_or_gt 0 q with hq | hq
      · obtain ⟨hpos, hle⟩ := cut_of_nonneg hq
        rw [abs_of_nonneg hq] at hhalf
        have htwice : cut q ≤ 2 * (cut q).bmod (2 ^ 64) := by
          rw [← Int.cast_le (R := ℚ)]
          push_cast
          linarith
        omega
      · obtain ⟨hneg, hle⟩ := cut_of_neg hq
        rw [abs_of_neg hq] at hhalf
        have htwice : 2 * (cut q).bmod (2 ^ 64) ≤ cut q := by
          rw [← Int.cast_le (R := ℚ)]
          push_cast
          linarith
        omega
    rw [bmod_self hrange.1 hrange.2] at h
    exact ⟨hrange.1, hrange.2, h⟩
  · rintro ⟨hl, hh, hshown⟩
    rw [hshown, bmod_self hl hh]

/-- A price that fourteen digits show in full is shown cut when it is a whole number. -/
lemma shownCut_iff_isLong (h : Decimal.shown 14 q = q) : ShownCut q ↔ IsLong q := by
  constructor
  · rintro ⟨hlow, hhigh, hshown⟩
    exact ⟨cut q, h.symm.trans hshown, hlow, hhigh⟩
  · rintro ⟨n, rfl, hlow, hhigh⟩
    rw [ShownCut, cut_intCast]
    exact ⟨hlow, hhigh, h⟩

end cut

/-! ### What the records hold -/

section records

variable {c : Ctx} {adUnitId creativeId : Str} {winner : Win} {p q : ℚ}

lemma tab_eq : tab = [9] := by decide

lemma tab_notMem_format (q : ℚ) : (9 : UInt8) ∉ format q := by
  intro h
  rcases Decimal.mem_print h with h | h <;> revert h <;> decide

/-- The view URL records what fourteen digits of the price show. -/
lemma viewed_iff (htostring : c.lib.tostring = format) (hprice : winner.win_cpm_price = some q)
    (hview : ∃ url, generateViewUrl c winner.dsp_id adUnitId creativeId winner.win_cpm_price =
      .ok url) : Viewed c adUnitId winner creativeId p ↔ p = Decimal.shown 14 q := by
  obtain ⟨url, hurl⟩ := hview
  obtain ⟨uniqueId, hid, h⟩ := bind_ok.mp hurl
  have hnumber : concatNumber c.lib winner.win_cpm_price = .ok (format q) := by
    rw [hprice, concatNumber, htostring]
  have hlog : viewLog c winner.dsp_id adUnitId creativeId winner.win_cpm_price =
      .ok (logHead c winner.dsp_id adUnitId ++ format q ++ tab ++ creativeId ++ tab ++ uniqueId) := by
    rw [viewLog, hid, ok_bind, hnumber]
    rfl
  have hread : loggedPrice c winner.dsp_id adUnitId
      (logHead c winner.dsp_id adUnitId ++ format q ++ tab ++ creativeId ++ tab ++ uniqueId) =
        some (Decimal.shown 14 q) := by
    have hdigits : ∀ d ∈ format q, decide (d ≠ 9) = true :=
      fun d hd => decide_eq_true fun h => tab_notMem_format q (h ▸ hd)
    rw [loggedPrice, List.append_assoc, List.append_assoc, List.append_assoc, List.append_assoc,
      List.drop_left, List.takeWhile_append_of_pos hdigits, tab_eq, List.singleton_append,
      List.takeWhile_cons_of_neg (by decide), List.append_nil, Decimal.read_print]
  constructor
  · rintro ⟨log, hlog', -, hp⟩
    rw [hlog] at hlog'
    cases hlog'
    rw [hread] at hp
    exact (Option.some.inj hp).symm
  · rintro rfl
    refine ⟨_, hlog, ?_, hread⟩
    rw [generateViewUrl, hid, ok_bind, hnumber]
    simp only [ok_bind, viewUrl, logHead]
    rfl

/-- So does a confirmation. -/
lemma confirmed_shown (hprice : winner.win_cpm_price = some q) :
    Confirmed c adUnitId winner (Decimal.shown 14 q) := by
  intro l l' hfill hasks
  obtain ⟨url, hurl, h⟩ := bind_ok.mp hfill
  obtain ⟨_, -, h⟩ := bind_ok.mp h
  have hne : url ≠ some [] := fun heq => hasks (heq ▸ hurl)
  rw [if_pos hne] at h
  cases h
  refine ⟨_, _, Tbl.get_push _ _ _, rfl, ?_⟩
  rw [confirmedPrice, hprice, Option.bind_some, Decimal.read_print]

/-- The two copies of the encryption agree where `bit.bxor` has eight bytes of both. -/
lemma encryptPrice_eq (hlib : HmacLength c.lib) (hbase64 : c.lib.encode_base64 = encode_base64)
    (iv eKey iKey : Str) (q : ℚ) :
    encryptPrice c.lib iv (some eKey) (some iKey) (some q) =
      encrypt_price c.lib iv eKey iKey q := by
  have hpad := length_take_hmac hlib eKey iv (show 8 ≤ 20 by decide)
  unfold encryptPrice encrypt_price
  simp only [argument, ok_bind, hbase64, xor8_of_length hpad (length_packI8 q)]

/-- The DSP reads the price cut and wrapped to eight bytes. -/
lemma decrypted_iff (hlib : HmacLength c.lib) (hbase64 : c.lib.encode_base64 = encode_base64)
    (huuid : c.uuid.length = 16) (hprice : winner.win_cpm_price = some q)
    (hmsg : ∃ msg, priceMsg c winner.dsp_id winner.win_cpm_price = .ok msg) :
    Decrypted c winner p ↔ p = ((cut q).bmod (2 ^ 64) : ℤ) := by
  obtain ⟨msg, hmsg⟩ := hmsg
  obtain ⟨eKey?, he, h⟩ := bind_ok.mp hmsg
  obtain ⟨iKey?, hi, h⟩ := bind_ok.mp h
  obtain ⟨eKey, iKey, rfl, rfl⟩ : ∃ eKey iKey, eKey? = some eKey ∧ iKey? = some iKey := by
    obtain ⟨eKey, heKey, h⟩ := bind_ok.mp h
    obtain ⟨_, -, h⟩ := bind_ok.mp h
    obtain ⟨iKey, hiKey, -⟩ := bind_ok.mp h
    cases eKey? <;> cases heKey
    cases iKey? <;> cases hiKey
    exact ⟨_, _, rfl, rfl⟩
  obtain ⟨message, hok, -, hback⟩ : ∃ message, encrypt_price c.lib c.uuid eKey iKey q =
      .ok (encode_base64 message) ∧ message.length = 28 ∧
        unencrypt_price c.lib eKey iKey message = .ok (some (unpackI8 (packI8 q))) :=
    encrypt_ok hlib huuid
  rw [hprice, encryptPrice_eq hlib hbase64, hok] at h
  cases h
  have hread : decryptedPrice c.lib eKey iKey (encode_base64 message) =
      some ((cut q).bmod (2 ^ 64)) := by
    rw [decryptedPrice, decode_encode, Option.bind_some, hback, unpack_pack]
    rfl
  constructor
  · rintro ⟨e, i, msg, n, he', hi', hmsg', hn, rfl⟩
    rw [he] at he'
    rw [hi] at hi'
    rw [hmsg] at hmsg'
    cases he'
    cases hi'
    cases hmsg'
    rw [hread] at hn
    rw [← Option.some.inj hn]
  · rintro rfl
    exact ⟨eKey, iKey, _, _, he, hi, hmsg, hread, rfl⟩

/-- A content comes with its view URL and its message. -/
lemma content_records {dspId : Str} {creative : BidRsp.Creative} {winCpmPrice : Option ℚ} {v : Val}
    (h : content c adUnitId dspId winCpmPrice creative = .ok v) :
    (∃ url, generateViewUrl c dspId adUnitId creative.id winCpmPrice = .ok url) ∧
      ∃ msg, priceMsg c dspId winCpmPrice = .ok msg := by
  unfold content at h
  split at h
  · obtain ⟨r, hr, h⟩ := bind_ok.mp h
    cases hv : c.lib.decode creative.html_snippet with
    | error e =>
      simp only [alterSinaDspCreative, hv] at hr
      cases hr
      exact absurd ⟨v, h⟩ Shape.fillSign_text
    | ok result =>
      simp only [alterSinaDspCreative, hv] at hr
      obtain ⟨_, -, hr⟩ := bind_ok.mp hr
      obtain ⟨_, -, hr⟩ := bind_ok.mp hr
      obtain ⟨_, -, hr⟩ := bind_ok.mp hr
      obtain ⟨_, -, hr⟩ := bind_ok.mp hr
      obtain ⟨url, hurl, hr⟩ := bind_ok.mp hr
      obtain ⟨_, -, hr⟩ := bind_ok.mp hr
      obtain ⟨_, -, hr⟩ := bind_ok.mp hr
      obtain ⟨_, -, hr⟩ := bind_ok.mp hr
      obtain ⟨_, -, hr⟩ := bind_ok.mp hr
      obtain ⟨_, -, hr⟩ := bind_ok.mp hr
      obtain ⟨msg, hmsg, -⟩ := bind_ok.mp hr
      exact ⟨⟨url, hurl⟩, msg, hmsg⟩
  · split at h
    · obtain ⟨r, hr, h⟩ := bind_ok.mp h
      cases hv : c.lib.decode creative.html_snippet with
      | error e =>
        simp only [alterWapDspCreative, hv] at hr
        cases hr
        exact absurd ⟨v, h⟩ Shape.fillSign_text
      | ok result =>
        simp only [alterWapDspCreative, hv] at hr
        obtain ⟨_, -, hr⟩ := bind_ok.mp hr
        obtain ⟨_, -, hr⟩ := bind_ok.mp hr
        obtain ⟨_, -, hr⟩ := bind_ok.mp hr
        obtain ⟨_, -, hr⟩ := bind_ok.mp hr
        obtain ⟨msg, hmsg, hr⟩ := bind_ok.mp hr
        obtain ⟨_, -, hr⟩ := bind_ok.mp hr
        obtain ⟨_, -, hr⟩ := bind_ok.mp hr
        obtain ⟨_, -, hr⟩ := bind_ok.mp hr
        obtain ⟨url, hurl, -⟩ := bind_ok.mp hr
        exact ⟨⟨url, hurl⟩, msg, hmsg⟩
    · obtain ⟨src, hsrc, h⟩ := bind_ok.mp h
      obtain ⟨url, hurl, -⟩ := bind_ok.mp h
      obtain ⟨_, -, hsrc⟩ := bind_ok.mp hsrc
      obtain ⟨msg, hmsg, -⟩ := bind_ok.mp hsrc
      exact ⟨⟨url, hurl⟩, msg, hmsg⟩

/-- The records agree when the digits shown make the number that is packed. -/
lemma agree_iff_shown_eq {o : Order} {draw : Draw} {bidInfo : List (Bid (List BidRsp.Creative))}
    {creative : BidRsp.Creative} {v : Val}
    (hlib : HmacLength c.lib) (hbase64 : c.lib.encode_base64 = encode_base64)
    (htostring : c.lib.tostring = format) (huuid : c.uuid.length = 16)
    (hwin : selectWinner c.dict c.auction_type o draw bidInfo adUnitId = .ok winner)
    (hprice : winner.win_cpm_price = some q) (hmem : creative ∈ winner.creative)
    (hcontent : content c adUnitId winner.dsp_id winner.win_cpm_price creative = .ok v) :
    Agree c o draw bidInfo adUnitId creative ↔
      Decimal.shown 14 q = ((cut q).bmod (2 ^ 64) : ℤ) := by
  obtain ⟨hview, hmsg⟩ := content_records hcontent
  constructor
  · rintro ⟨w, p, hw, -, hviewed, -, hdecrypted⟩
    rw [hwin] at hw
    cases hw
    rw [← (viewed_iff htostring hprice hview).mp hviewed]
    exact (decrypted_iff hlib hbase64 huuid hprice hmsg).mp hdecrypted
  · intro h
    exact ⟨winner, _, hwin, hmem, (viewed_iff htostring hprice hview).mpr rfl,
      confirmed_shown hprice, (decrypted_iff hlib hbase64 huuid hprice hmsg).mpr h⟩

end records

/-- **The records of a price agree exactly when fourteen digits of it show its whole part**, a
number of eight bytes, for all bids, keys and bid ids of sixteen bytes. -/
theorem agree_iff {c : Ctx} {o : Order} {draw : Draw} {bidInfo : List (Bid (List BidRsp.Creative))}
    {adUnitId : Str} {winner : Win} {q : ℚ} {creative : BidRsp.Creative} {v : Val}
    (hlib : HmacLength c.lib) (hbase64 : c.lib.encode_base64 = encode_base64)
    (htostring : c.lib.tostring = format) (huuid : c.uuid.length = 16)
    (hwin : selectWinner c.dict c.auction_type o draw bidInfo adUnitId = .ok winner)
    (hprice : winner.win_cpm_price = some q) (hmem : creative ∈ winner.creative)
    (hcontent : content c adUnitId winner.dsp_id winner.win_cpm_price creative = .ok v) :
    Agree c o draw bidInfo adUnitId creative ↔ ShownCut q :=
  (agree_iff_shown_eq hlib hbase64 htostring huuid hwin hprice hmem hcontent).trans
    shown_eq_bmod_iff

section samples

open Sax.Clearing (sampleReq)
open Sax.WinPrice (sampleUuid sampleHmac sample_hmac)

def sampleLib : Ngx :=
  { Ngx.ofTexts [] with
    tostring := format
    tostring_int := fun _ h => Decimal.print_intCast h
    comma_notMem_tostring := fun _ h => by
      rcases Decimal.mem_print h with h | h <;> revert h <;> decide
    tonumber := Decimal.read
    tonumber_int := fun _ _ h _ => Decimal.read_of_parseDecimal h
    tonumber_nonneg := fun q r hq h => by
      rw [Decimal.read_print] at h
      cases h
      exact Decimal.shown_nonneg hq
    names_nan := fun _ => false
    tonumber_nan := fun _ h => by cases h
    encode_base64 := encode_base64
    hmac_sha1 := sampleHmac }

/-- DSP 2 and its keys. -/
def sampleCtx : Ctx where
  lib := sampleLib
  dict := Dict.ofLists [] [] [] [("2", ⟨lit "http://b/bid", lit "http://b/cfm", lit "e", lit "i", 1, []⟩)]
    [("2c", ⟨1, 2, lit "c", lit "a", 1⟩)] []
  adReq := sampleReq
  auction_type := .openAuction
  bid := lit "b"
  uuid := sampleUuid

def sampleCreative : BidRsp.Creative := ⟨lit "c", lit "x"⟩

/-- DSP 2 bids 3, and DSP 3 less. -/
def sampleBids (second : ℚ) : List (Bid (List BidRsp.Creative)) :=
  [⟨lit "2", 3, [sampleCreative]⟩, ⟨lit "3", second, [sampleCreative]⟩]

def sampleWinner (price : ℚ) : Win := ⟨lit "2", some price, [sampleCreative]⟩

lemma sample_hmac' : HmacLength sampleCtx.lib := sample_hmac

lemma sample_content (price : ℚ) :
    (content sampleCtx (lit "U") (lit "2") (some price) sampleCreative).isOk := by
  rfl

theorem agree_iff_sample :
    Agree sampleCtx .plain .least (sampleBids 1) (lit "U") sampleCreative ↔ ShownCut 2 := by
  have hwin : selectWinner sampleCtx.dict sampleCtx.auction_type .plain .least (sampleBids 1)
      (lit "U") = .ok (sampleWinner 2) := by decide +kernel
  obtain ⟨v, hv⟩ := exists_ok (sample_content 2)
  exact agree_iff sample_hmac' rfl rfl rfl hwin rfl (List.mem_singleton_self _) hv

/-- A second bid of 1.5 makes the price 2.5, and the DSP reads 2. -/
theorem half_is_lost :
    selectWinner sampleCtx.dict sampleCtx.auction_type .plain .least (sampleBids (3 / 2))
      (lit "U") = .ok (sampleWinner (5 / 2)) ∧
    (∃ v, content sampleCtx (lit "U") (lit "2") (some (5 / 2)) sampleCreative = .ok v) ∧
    Viewed sampleCtx (lit "U") (sampleWinner (5 / 2)) (lit "c") (5 / 2) ∧
    Decrypted sampleCtx (sampleWinner (5 / 2)) 2 ∧
    ¬ Agree sampleCtx .plain .least (sampleBids (3 / 2)) (lit "U") sampleCreative := by
  have hwin : selectWinner sampleCtx.dict sampleCtx.auction_type .plain .least
      (sampleBids (3 / 2)) (lit "U") = .ok (sampleWinner (5 / 2)) := by decide +kernel
  have hshown : Decimal.shown 14 (5 / 2) = 5 / 2 := by decide +kernel
  have hcut : (cut (5 / 2)).bmod (2 ^ 64) = 2 := by decide +kernel
  obtain ⟨v, hv⟩ := exists_ok (sample_content (5 / 2))
  obtain ⟨hview, hmsg⟩ := content_records hv
  refine ⟨hwin, ⟨v, hv⟩, (viewed_iff rfl rfl hview).mpr hshown.symm,
    (decrypted_iff sample_hmac' rfl rfl rfl hmsg).mpr (by rw [hcut]; rfl), ?_⟩
  rw [agree_iff_shown_eq sample_hmac' rfl rfl rfl hwin rfl (List.mem_singleton_self _) hv, hshown,
    hcut]
  norm_num

end samples

end Sax.Billing
