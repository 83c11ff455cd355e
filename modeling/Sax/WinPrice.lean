import Sax.Cipher
import Sax.Clearing
import Sax.Creative
import Sax.Replace
import Sax.SaxmobRtb

/-!
The price a DSP reads in its creative, in `saxmob/rtb/rtb.lua`.

After the auction the price is encrypted and escaped, and handed over in the creatives: as an
argument added to the first click and view URL for the Sina DSP, in place of the macro for the
others.
-/

namespace Sax.WinPrice

open Sax.LuaVal Sax.Loop Sax.Runtime Sax.Auction Sax.Extract Sax.SaxmobRtb Sax.Uri Sax.Replace
open Sax.Base64 Sax.Cipher
open Sax.Creative (argument notation_ tab)
open Sax.Const (RTB_MACRO_WIN_PRICE SINA_DSP_CLICK_ARG_P RTB_CLICK_URL RTB_VIEW_URL)

def SINA_DSP_ID : Str := lit "1"
def CLICK_TYPE_DSP : Str := lit "saxmob"
def VIEW_TYPE_DSP : Str := lit "saxmob"
def ARG_MONITOR_TYPE : Str := lit "type"
def ARG_MONITOR_T : Str := lit "t"

/-- `ngx.ctx` with `uuid`, and the keys of the DSPs. -/
structure Ctx extends SaxmobRtb.Ctx where
  uuid : Str
  ekey : Str → Option Str
  ikey : Str → Option Str

section source

variable (c : Ctx) (o : Order)

/-- `ngx.encode_args`, in the order of `pairs`. -/
def encode_args (args : List (Str × Str)) : Str :=
  concat ampersand ((o.visit args).map fun e => encode_arg e.1 e.2)

def generate_click_url (dsp_id adunit_id creative_id : Str) : Str :=
  let log := c.id ++ tab ++ dsp_id ++ tab ++ adunit_id ++ tab ++ creative_id
  RTB_CLICK_URL ++ lit "?" ++ encode_args o
    [(ARG_MONITOR_TYPE, CLICK_TYPE_DSP), (ARG_MONITOR_T, encode_base64 log)]

def generate_view_url (dsp_id adunit_id : Str) (win_cpm_price : ℚ) (creative_id : Str) : Str :=
  let log := c.id ++ tab ++ dsp_id ++ tab ++ adunit_id ++ tab ++ c.lib.tostring win_cpm_price ++
    tab ++ creative_id
  RTB_VIEW_URL ++ lit "?" ++ encode_args o
    [(ARG_MONITOR_TYPE, VIEW_TYPE_DSP), (ARG_MONITOR_T, encode_base64 log)]

def add_monitor_arg_p (ad : Val) (monitor_type : String) (msg : Str) : Lua Val := do
  let list ← field monitor_type (some ad)
  let first ← checkString c.lib.tostring (← item 1 list)
  let list ← setItem 1
    (.str (first ++ notation_ first ++ encode_args o [(SINA_DSP_CLICK_ARG_P, msg)]))
    (list.getD .null)
  setField monitor_type (some list) ad

def alter_sina_dsp_creative (ad : Val) (click_url view_url msg : Str) : Lua Val := do
  let click ← insertLast (.str click_url) (← field "click" (some ad))
  let ad ← setField "click" (some click) ad
  let view ← insertLast (.str view_url) (← field "view" (some ad))
  let ad ← setField "view" (some view) ad
  let ad ← add_monitor_arg_p c o ad "click" msg
  add_monitor_arg_p c o ad "view" msg

/-- The message has no `$`, which would have a meaning in a replacement. -/
def alter_third_party_dsp_creative (ad : Val) (click_url view_url msg : Str) : Lua Val := do
  let view ← field "view" (some ad)
  let replaced ← (← ipairs view).mapM fun v => do
    return Val.str (replace RTB_MACRO_WIN_PRICE msg (← checkString c.lib.tostring (some v)))
  let view := (view.getD .null).setArr replaced
  let ad ← setField "view" (some view) ad
  let click ← insertFirst (.str click_url) (← field "click" (some ad))
  let ad ← setField "click" (some click) ad
  let view ← insertFirst (.str view_url) (← field "view" (some ad))
  setField "view" (some view) ad

/-- The loop of `fill_ad_for_dsp`. -/
def alterAds (adunit_id dsp_id : Str) (win_cpm_price : ℚ) (msg : Str) :
    List Val → List Str → Lua (List Val)
  | [], _ => .ok []
  | _ :: _, [] => .error .badConcat
  | ad :: ads, creative_id :: ids => do
    let click_url := generate_click_url c o dsp_id adunit_id creative_id
    let view_url := generate_view_url c o dsp_id adunit_id win_cpm_price creative_id
    let ad ← if dsp_id = SINA_DSP_ID then alter_sina_dsp_creative c o ad click_url view_url msg
      else alter_third_party_dsp_creative c ad click_url view_url msg
    return ad :: (← alterAds adunit_id dsp_id win_cpm_price msg ads ids)

/-- An entry of `ad_creative_list`. -/
structure Filled where
  ad : List Val
  dsp_id : Str
  creative_id : List Str

def fill_ad_for_dsp (adunit_id : Str) (winner : Winner Kept) : Lua Filled := do
  let e_key ← argument (c.ekey winner.dsp_id)
  let i_key ← argument (c.ikey winner.dsp_id)
  let price ← argument winner.win_cpm_price
  let msg ← encrypt_price c.lib c.uuid e_key i_key price
  let ad ← alterAds c o adunit_id winner.dsp_id price (escape_uri msg) winner.creative.ad
    winner.creative.creative_id
  return ⟨ad, winner.dsp_id, winner.creative.creative_id⟩

/-- `log_dsp_win` concatenates the price. -/
def log_dsp_win (winner : Winner Kept) : Lua Unit :=
  if winner.win_cpm_price.isSome then .ok () else .error .badConcat

/-- The round of `handle_bid_rsp` for one ad unit. -/
def settle (draw : Draw) (bid_info : List (Bid Kept)) (adunit_id : Str) : Lua Filled := do
  let winner ← select_winner c.toCtx o draw bid_info adunit_id
  log_dsp_win winner
  fill_ad_for_dsp c o adunit_id winner

end source

/-! ### What the DSP reads -/

section spec

variable (c : Ctx) (o : Order)

/-- The argument is unescaped once, decoded and decrypted. -/
def readPrice (lib : Ngx) (e_key i_key arg : Str) : Option ℤ :=
  (decode_base64 (unescape_uri arg)).bind fun message =>
    (unencrypt_price lib e_key i_key message).toOption.join

/-- The DSP reads the price in the argument with its keys. -/
def Reads (dsp_id : Str) (price : ℚ) (arg : Str) : Prop :=
  ∃ e_key i_key n, c.ekey dsp_id = some e_key ∧ c.ikey dsp_id = some i_key ∧
    readPrice c.lib e_key i_key arg = some n ∧ (n : ℚ) = price

/-- The list of URLs of a creative, for `click` or `view`. -/
def urls (monitor_type : String) (ad : Val) : List Val :=
  match ad.get monitor_type with
  | some (.table a _) => a
  | _ => []

/-- What stands after the last `=`. -/
def lastValue (url : Str) : Str := (url.reverse.takeWhile (· ≠ equals)).reverse

/-- The creative has a place for the price. -/
def Carries (dsp_id : Str) (ad : Val) : Prop :=
  if dsp_id = SINA_DSP_ID then
    ∀ m ∈ ["click", "view"], ∃ url, (urls m ad)[0]? = some (.str url)
  else ∃ m ∈ ["click", "view"], ∃ url, .str url ∈ urls m ad ∧ RTB_MACRO_WIN_PRICE ∈ argValues url

/-- The price is read in every place the creative has for it: at the end of the first click and
view URL, or in the arguments that were the macro. The exchange's own URLs come first then. -/
def Delivered (dsp_id : Str) (price : ℚ) (ad ad' : Val) : Prop :=
  if dsp_id = SINA_DSP_ID then
    ∀ m ∈ ["click", "view"], ∃ url, (urls m ad')[0]? = some (.str url) ∧
      Reads c dsp_id price (lastValue url)
  else ∀ m ∈ ["click", "view"], ∀ (j : ℕ) (url : Str) (n : ℕ), (urls m ad)[j]? = some (.str url) →
    (argValues url)[n]? = some RTB_MACRO_WIN_PRICE →
      ∃ url' arg, (urls m ad')[j + 1]? = some (.str url') ∧ (argValues url')[n]? = some arg ∧
        Reads c dsp_id price arg

/-- The creatives of the winner are filled, and its price is delivered in each. -/
def Delivers (draw : Draw) (bid_info : List (Bid Kept)) (adunit_id : Str) : Prop :=
  ∃ winner price filled, select_winner c.toCtx o draw bid_info adunit_id = .ok winner ∧
    winner.win_cpm_price = some price ∧ settle c o draw bid_info adunit_id = .ok filled ∧
      List.Forall₂ (Delivered c winner.dsp_id price) winner.creative.ad filled.ad

end spec

/-! ### Reading an argument -/

section reads

variable {c : Ctx} {dsp_id e_key i_key : Str} {price : ℚ}

lemma decode_placeholder : decode_base64 (unescape_uri RTB_MACRO_WIN_PRICE) = none := by decide +kernel

/-- The macro itself is no price. -/
lemma not_reads_placeholder : ¬ Reads c dsp_id price RTB_MACRO_WIN_PRICE := by
  rintro ⟨e_key, i_key, n, -, -, hread, -⟩
  rw [readPrice, decode_placeholder] at hread
  cases hread

/-- A price escaped once is read exactly when it is a whole number of eight bytes. -/
lemma reads_escaped_iff (hlib : HmacLength c.lib) (huuid : c.uuid.length = 16)
    (he : c.ekey dsp_id = some e_key) (hi : c.ikey dsp_id = some i_key) {msg : Str}
    (hmsg : encrypt_price c.lib c.uuid e_key i_key price = .ok msg) :
    Reads c dsp_id price (escape_uri msg) ↔ IsLong price := by
  obtain ⟨message, hok, -, hback⟩ : ∃ message, encrypt_price c.lib c.uuid e_key i_key price =
      .ok (encode_base64 message) ∧ message.length = 28 ∧
        unencrypt_price c.lib e_key i_key message = .ok (some (unpackI8 (packI8 price))) :=
    encrypt_ok hlib huuid
  rw [hok] at hmsg
  cases hmsg
  have hread : readPrice c.lib e_key i_key (escape_uri (encode_base64 message)) =
      some (unpackI8 (packI8 price)) := by
    rw [readPrice, unescape_escape, decode_encode, Option.bind_some, hback]
    rfl
  rw [← unpack_pack_eq]
  constructor
  · rintro ⟨e, i, n, he', hi', hn, rfl⟩
    rw [he] at he'
    rw [hi] at hi'
    cases he'
    cases hi'
    rw [hread, Option.some.injEq] at hn
    rw [hn]
  · intro hprice
    exact ⟨e_key, i_key, _, he, hi, hread, hprice⟩

/-- A price escaped twice is never read: after one unescaping its padding is still escaped. -/
lemma not_reads_twice (hlib : HmacLength c.lib) (huuid : c.uuid.length = 16) {msg : Str}
    (hmsg : encrypt_price c.lib c.uuid e_key i_key price = .ok msg) :
    ¬ Reads c dsp_id price (escape_uri (escape_uri msg)) := by
  obtain ⟨message, hok, hlength, -⟩ : ∃ message, encrypt_price c.lib c.uuid e_key i_key price =
      .ok (encode_base64 message) ∧ message.length = 28 ∧
        unencrypt_price c.lib e_key i_key message = .ok (some (unpackI8 (packI8 price))) :=
    encrypt_ok hlib huuid
  rw [hok] at hmsg
  cases hmsg
  have hpad : pad ∈ encode_base64 message := pad_mem_encode (by rw [hlength]; decide)
  have hnone : decode_base64 (escape_uri (encode_base64 message)) = none := by
    refine decode_eq_none (fun h => escape_uri_plain h (by decide)) ?_ (by decide : value percent = none)
    exact percent_mem_escape hpad (by decide)
  rintro ⟨e, i, n, -, -, hread, -⟩
  rw [readPrice, unescape_escape, hnone] at hread
  cases hread

end reads

/-! ### Altering a creative -/

section alter

variable {c : Ctx} {o : Order} {ad ad' : Val} {click_url view_url msg : Str}

/-- A creative with its lists of click and view URLs. -/
structure Markup (ad : Val) : Prop where
  click : ∃ a h, ad.get "click" = some (.table a h)
  view : ∃ a h, ad.get "view" = some (.table a h)

lemma urls_eq {m : String} {a : List Val} {h : List (Str × Val)}
    (hget : ad.get m = some (.table a h)) : urls m ad = a := by
  rw [urls, hget]

lemma field_get {m : String} {v : Val} (h : ad.get m = some v) : field m (some ad) = .ok (some v) := by
  cases ad with
  | table a g => exact congrArg _ h
  | _ => cases h

lemma isTable_of_get {m : String} {v : Val} (h : ad.get m = some v) : ad.isTable := by
  cases ad <;> first | rfl | cases h

/-- The macro is replaced in the view URLs alone, and the exchange's URLs come first. -/
lemma alter_third_ok (hmarkup : Markup ad)
    (h : alter_third_party_dsp_creative c ad click_url view_url msg = .ok ad') :
    (∀ v ∈ urls "view" ad, v.isText) ∧ urls "click" ad' = .str click_url :: urls "click" ad ∧
      ∀ (j : ℕ) url, (urls "view" ad)[j]? = some (.str url) →
        (urls "view" ad')[j + 1]? = some (.str (replace RTB_MACRO_WIN_PRICE msg url)) := by
  obtain ⟨⟨ca, ch, hclick⟩, va, vh, hview⟩ := hmarkup
  unfold alter_third_party_dsp_creative at h
  rw [field_get hview, ok_bind, ipairs, ok_bind] at h
  obtain ⟨replaced, hreplaced, h⟩ := bind_ok.mp h
  obtain ⟨ad₁, hset₁, h⟩ := bind_ok.mp h
  have hclick₁ : ad₁.get "click" = some (.table ca ch) :=
    (Val.get_setField_ne (by decide) hset₁).trans hclick
  rw [field_get hclick₁, ok_bind, insertFirst, ok_bind] at h
  obtain ⟨ad₂, hset₂, h⟩ := bind_ok.mp h
  have hview₂ : ad₂.get "view" = some (.table replaced vh) :=
    (Val.get_setField_ne (by decide) hset₂).trans (Val.get_setField hset₁)
  rw [field_get hview₂, ok_bind, insertFirst, ok_bind] at h
  have hclick' : ad'.get "click" = some (.table (.str click_url :: ca) ch) :=
    (Val.get_setField_ne (by decide) h).trans (Val.get_setField hset₂)
  rw [urls_eq hview, urls_eq hclick, urls_eq (Val.get_setField h), urls_eq hclick']
  refine ⟨fun v hv => ?_, rfl, fun j url hj => ?_⟩
  · obtain ⟨b, hb⟩ := mapM_isOk.mp ⟨replaced, hreplaced⟩ v hv
    obtain ⟨s, hs, -⟩ := bind_ok.mp hb
    exact checkString_isOk.mp ⟨s, hs⟩
  · obtain ⟨b, hb, hstep⟩ := mapM_getElem? hreplaced hj
    cases hstep
    exact hb

lemma alter_third_isOk (hmarkup : Markup ad) (htext : ∀ v ∈ urls "view" ad, v.isText) :
    ∃ ad', alter_third_party_dsp_creative c ad click_url view_url msg = .ok ad' := by
  obtain ⟨⟨ca, ch, hclick⟩, va, vh, hview⟩ := hmarkup
  rw [urls_eq hview] at htext
  unfold alter_third_party_dsp_creative
  rw [field_get hview, ok_bind, ipairs, ok_bind]
  obtain ⟨replaced, hreplaced⟩ : ∃ replaced, va.mapM (fun v => do
      return Val.str (replace RTB_MACRO_WIN_PRICE msg (← checkString c.lib.tostring (some v)))) =
        .ok replaced := by
    refine mapM_isOk.mpr fun v hv => ?_
    obtain ⟨s, hs⟩ := checkString_isOk.mpr (htext v hv)
    exact ⟨_, bind_ok.mpr ⟨s, hs, rfl⟩⟩
  obtain ⟨ad₁, hset₁⟩ : ∃ w, setField "view" (some (.table replaced vh)) ad = .ok w :=
    setField_ok (isTable_of_get hview)
  have hclick₁ : ad₁.get "click" = some (.table ca ch) :=
    (Val.get_setField_ne (by decide) hset₁).trans hclick
  obtain ⟨ad₂, hset₂⟩ : ∃ w, setField "click" (some (.table (.str click_url :: ca) ch)) ad₁ = .ok w :=
    setField_ok (isTable_setField hset₁)
  have hview₂ : ad₂.get "view" = some (.table replaced vh) :=
    (Val.get_setField_ne (by decide) hset₂).trans (Val.get_setField hset₁)
  rw [hreplaced, ok_bind]
  dsimp only [Option.getD_some, Val.setArr]
  rw [hset₁, ok_bind, field_get hclick₁, ok_bind, insertFirst, ok_bind, hset₂, ok_bind,
    field_get hview₂, ok_bind, insertFirst, ok_bind]
  exact setField_ok (isTable_setField hset₂)

lemma encode_args_single (key value : Str) :
    encode_args o [(key, value)] = escape_uri key ++ equals :: escape_uri value := by
  rw [encode_args, List.perm_singleton.mp (o.visit_perm [(key, value)])]
  simp [concat, encode_arg, List.intercalate]

lemma lastValue_append {pre v : Str} (hv : equals ∉ v) : lastValue (pre ++ equals :: v) = v := by
  have hne : ∀ d ∈ v.reverse, decide (d ≠ equals) = true :=
    fun d hd => decide_eq_true fun h => hv (h ▸ List.mem_reverse.mp hd)
  rw [lastValue, List.reverse_append, List.reverse_cons, List.append_assoc,
    List.takeWhile_append_of_pos hne]
  simp

/-- The argument added last is the message, escaped. -/
lemma add_monitor_arg_p_last {m : String} (h : add_monitor_arg_p c o ad m msg = .ok ad') {url : Str}
    (hurl : (urls m ad')[0]? = some (.str url)) : lastValue url = escape_uri msg := by
  unfold add_monitor_arg_p at h
  obtain ⟨list, -, h⟩ := bind_ok.mp h
  obtain ⟨v, -, h⟩ := bind_ok.mp h
  obtain ⟨first, -, h⟩ := bind_ok.mp h
  obtain ⟨list', hset, h⟩ := bind_ok.mp h
  have hget := Val.get_setField h
  cases hlist : list.getD .null with
  | table a g =>
    rw [hlist] at hset
    cases hset
    rw [urls_eq hget, encode_args_single] at hurl
    cases a with
    | nil => cases hurl
    | cons x a =>
      cases hurl
      rw [← List.append_assoc]
      exact lastValue_append fun hmem => escape_uri_plain hmem (by decide)
  | _ =>
    rw [hlist] at hset
    cases hset

lemma alter_sina_last (h : alter_sina_dsp_creative c o ad click_url view_url msg = .ok ad')
    {url : Str} (hurl : (urls "view" ad')[0]? = some (.str url)) :
    lastValue url = escape_uri msg := by
  unfold alter_sina_dsp_creative at h
  obtain ⟨_, -, h⟩ := bind_ok.mp h
  obtain ⟨_, -, h⟩ := bind_ok.mp h
  obtain ⟨_, -, h⟩ := bind_ok.mp h
  obtain ⟨_, -, h⟩ := bind_ok.mp h
  obtain ⟨_, -, h⟩ := bind_ok.mp h
  obtain ⟨_, -, h⟩ := bind_ok.mp h
  obtain ⟨_, -, h⟩ := bind_ok.mp h
  exact add_monitor_arg_p_last h hurl

/-- The price is added to the first URL of a list, which must be a text. -/
lemma add_monitor_arg_p_isOk {m : String} {v : Val} {a : List Val} {g : List (Str × Val)}
    (hget : ad.get m = some (.table (v :: a) g)) :
    (∃ ad', add_monitor_arg_p c o ad m msg = .ok ad') ↔ v.isText := by
  unfold add_monitor_arg_p
  rw [field_get hget, ok_bind, item, ok_bind]
  constructor
  · rintro ⟨ad', h⟩
    obtain ⟨first, hfirst, -⟩ := bind_ok.mp h
    exact checkString_isOk.mp ⟨first, hfirst⟩
  · intro htext
    obtain ⟨first, hfirst⟩ := checkString_isOk.mpr htext
    have hfirst' : checkString c.lib.tostring (v :: a)[1 - 1]? = .ok first := hfirst
    rw [hfirst', ok_bind]
    exact setField_ok (isTable_of_get hget)

lemma add_monitor_arg_p_get {m k : String} (hne : lit k ≠ lit m)
    (h : add_monitor_arg_p c o ad m msg = .ok ad') : ad'.get k = ad.get k := by
  unfold add_monitor_arg_p at h
  obtain ⟨list, -, h⟩ := bind_ok.mp h
  obtain ⟨v, -, h⟩ := bind_ok.mp h
  obtain ⟨first, -, h⟩ := bind_ok.mp h
  obtain ⟨list', -, h⟩ := bind_ok.mp h
  exact Val.get_setField_ne hne h

/-- The first URL of the list, if there is one, is a text. -/
def FirstText (m : String) (ad : Val) : Prop := ∀ v ∈ (urls m ad).head?, v.isText

/-- The exchange's own URL comes last, and is the first one only in an empty list. -/
lemma firstText_iff {m : String} {a : List Val} {g : List (Str × Val)}
    (hget : ad.get m = some (.table a g)) (url : Str) :
    ∃ v rest, a ++ [.str url] = v :: rest ∧ (FirstText m ad ↔ v.isText) := by
  unfold FirstText
  rw [urls_eq hget]
  cases a with
  | nil => exact ⟨.str url, [], rfl, by simp⟩
  | cons v rest => exact ⟨v, rest ++ [.str url], rfl, by simp⟩

lemma alter_sina_isOk (hmarkup : Markup ad) :
    (∃ ad', alter_sina_dsp_creative c o ad click_url view_url msg = .ok ad') ↔
      FirstText "click" ad ∧ FirstText "view" ad := by
  obtain ⟨⟨ca, ch, hclick⟩, va, vh, hview⟩ := hmarkup
  obtain ⟨cv, crest, hca, hctext⟩ := firstText_iff hclick click_url
  obtain ⟨vv, vrest, hva, hvtext⟩ := firstText_iff hview view_url
  unfold alter_sina_dsp_creative
  obtain ⟨ad₁, hset₁⟩ : ∃ w, setField "click" (some (.table (cv :: crest) ch)) ad = .ok w :=
    setField_ok (isTable_of_get hclick)
  have hview₁ : ad₁.get "view" = some (.table va vh) :=
    (Val.get_setField_ne (by decide) hset₁).trans hview
  obtain ⟨ad₂, hset₂⟩ : ∃ w, setField "view" (some (.table (vv :: vrest) vh)) ad₁ = .ok w :=
    setField_ok (isTable_setField hset₁)
  have hclick₂ : ad₂.get "click" = some (.table (cv :: crest) ch) :=
    (Val.get_setField_ne (by decide) hset₂).trans (Val.get_setField hset₁)
  have hview₂ : ad₂.get "view" = some (.table (vv :: vrest) vh) := Val.get_setField hset₂
  rw [field_get hclick, ok_bind, insertLast, ok_bind, hca, hset₁, ok_bind, field_get hview₁, ok_bind,
    insertLast, ok_bind, hva, hset₂, ok_bind, hctext, hvtext]
  constructor
  · rintro ⟨ad', h⟩
    obtain ⟨ad₃, hadd, h⟩ := bind_ok.mp h
    have hview₃ := (add_monitor_arg_p_get (by decide) hadd).trans hview₂
    exact ⟨(add_monitor_arg_p_isOk hclick₂).mp ⟨ad₃, hadd⟩, (add_monitor_arg_p_isOk hview₃).mp ⟨ad', h⟩⟩
  · rintro ⟨hc, hv⟩
    obtain ⟨ad₃, hadd⟩ : ∃ ad₃, add_monitor_arg_p c o ad₂ "click" msg = .ok ad₃ :=
      (add_monitor_arg_p_isOk hclick₂).mpr hc
    have hview₃ := (add_monitor_arg_p_get (by decide) hadd).trans hview₂
    rw [hadd, ok_bind]
    exact (add_monitor_arg_p_isOk hview₃).mpr hv

end alter

/-! ### One creative -/

section creative

variable {c : Ctx} {o : Order} {dsp_id e_key i_key msg : Str} {price : ℚ} {ad : Val}

/-- What a creative of a DSP other than Sina needs. -/
def Fit (ad : Val) : Prop :=
  (∀ v ∈ urls "view" ad, v.isText) ∧
    ∀ url, .str url ∈ urls "click" ad → RTB_MACRO_WIN_PRICE ∉ argValues url

lemma argValues_placeholder {msg : Str} (hmsg : ∀ b ∈ msg, b ∉ lit "+&=?#/: \"") {url : Str} {n : ℕ}
    (hn : (argValues url)[n]? = some RTB_MACRO_WIN_PRICE) :
    (argValues (replace RTB_MACRO_WIN_PRICE msg url))[n]? = some msg := by
  have hne : RTB_MACRO_WIN_PRICE ≠ [] := by decide
  have hplace : ∀ b ∈ lit "#?&=", b ∉ RTB_MACRO_WIN_PRICE := by decide +kernel
  have hsub : ∀ b ∈ lit "#?&=", b ∈ lit "+&=?#/: \"" := by decide +kernel
  have hplain : ∀ b ∈ lit "#?&=", b ∉ RTB_MACRO_WIN_PRICE ∧ b ∉ msg :=
    fun b hb => ⟨hplace b hb, fun hmem => hmsg b hmem (hsub b hb)⟩
  rw [argValues_replace hne hplain, List.getElem?_map, hn, Option.map_some, replace_self hne]

/-- **The price reaches a creative of another DSP exactly when the creative is fit and the price a
whole number of eight bytes.** -/
lemma third_delivered_iff (hlib : HmacLength c.lib) (huuid : c.uuid.length = 16)
    (hdsp : dsp_id ≠ SINA_DSP_ID) (he : c.ekey dsp_id = some e_key)
    (hi : c.ikey dsp_id = some i_key)
    (hmsg : encrypt_price c.lib c.uuid e_key i_key price = .ok msg) (hmarkup : Markup ad)
    (hcarries : Carries dsp_id ad) (click_url view_url : Str) :
    (∃ ad', alter_third_party_dsp_creative c ad click_url view_url (escape_uri msg) = .ok ad' ∧
      Delivered c dsp_id price ad ad') ↔ IsLong price ∧ Fit ad := by
  have hread := reads_escaped_iff hlib huuid he hi hmsg
  unfold Carries at hcarries
  unfold Delivered
  simp only [if_neg hdsp] at hcarries ⊢
  constructor
  · rintro ⟨ad', halter, hall⟩
    obtain ⟨htext, hclick, hview⟩ := alter_third_ok hmarkup halter
    have hfit : ∀ url, .str url ∈ urls "click" ad → RTB_MACRO_WIN_PRICE ∉ argValues url := by
      intro url hurl hplace
      obtain ⟨j, hj⟩ := List.mem_iff_getElem?.mp hurl
      obtain ⟨n, hn⟩ := List.mem_iff_getElem?.mp hplace
      obtain ⟨url', arg, hurl', harg, hreads⟩ := hall "click" (by simp) j url n hj hn
      rw [hclick, List.getElem?_cons_succ, hj] at hurl'
      cases hurl'
      rw [hn] at harg
      cases harg
      exact not_reads_placeholder hreads
    refine ⟨?_, htext, hfit⟩
    obtain ⟨m, hm, url, hurl, hplace⟩ := hcarries
    simp only [List.mem_cons, List.not_mem_nil, or_false] at hm
    rcases hm with rfl | rfl
    · exact absurd hplace (hfit url hurl)
    · obtain ⟨j, hj⟩ := List.mem_iff_getElem?.mp hurl
      obtain ⟨n, hn⟩ := List.mem_iff_getElem?.mp hplace
      obtain ⟨url', arg, hurl', harg, hreads⟩ := hall "view" (by simp) j url n hj hn
      rw [hview j url hj] at hurl'
      cases hurl'
      rw [argValues_placeholder (fun b hb => escape_uri_plain hb) hn] at harg
      cases harg
      exact hread.mp hreads
  · rintro ⟨hlong, htext, hfit⟩
    obtain ⟨ad', halter⟩ : ∃ ad', alter_third_party_dsp_creative c ad click_url view_url
        (escape_uri msg) = .ok ad' := alter_third_isOk hmarkup htext
    obtain ⟨-, hclick, hview⟩ := alter_third_ok hmarkup halter
    refine ⟨ad', halter, fun m hm j url n hj hn => ?_⟩
    simp only [List.mem_cons, List.not_mem_nil, or_false] at hm
    rcases hm with rfl | rfl
    · exact absurd (List.mem_of_getElem? hn) (hfit url (List.mem_of_getElem? hj))
    · exact ⟨_, _, hview j url hj, argValues_placeholder (fun b hb => escape_uri_plain hb) hn,
        hread.mpr hlong⟩

/-- The Sina DSP does not read the price. -/
lemma sina_not_delivered (hlib : HmacLength c.lib) (huuid : c.uuid.length = 16)
    (hdsp : dsp_id = SINA_DSP_ID)
    (hmsg : encrypt_price c.lib c.uuid e_key i_key price = .ok msg) {click_url view_url : Str}
    {ad' : Val}
    (halter : alter_sina_dsp_creative c o ad click_url view_url (escape_uri msg) = .ok ad') :
    ¬ Delivered c dsp_id price ad ad' := by
  unfold Delivered
  rw [if_pos hdsp]
  intro hall
  obtain ⟨url, hurl, hreads⟩ := hall "view" (by simp)
  rw [alter_sina_last halter hurl] at hreads
  exact not_reads_twice hlib huuid hmsg hreads

end creative

/-! ### The winner -/

section winner

variable {c : Ctx} {o : Order} {draw : Draw} {bid_info : List (Bid Kept)} {winner : Winner Kept}
  {adunit_id dsp_id e_key i_key msg : Str} {price : ℚ}

lemma alterAds_cons_ok {ad : Val} {ads ads' : List Val} {id : Str} {ids : List Str} :
    alterAds c o adunit_id dsp_id price msg (ad :: ads) (id :: ids) = .ok ads' ↔
      ∃ ad', (if dsp_id = SINA_DSP_ID then
          alter_sina_dsp_creative c o ad (generate_click_url c o dsp_id adunit_id id)
            (generate_view_url c o dsp_id adunit_id price id) msg
        else alter_third_party_dsp_creative c ad (generate_click_url c o dsp_id adunit_id id)
          (generate_view_url c o dsp_id adunit_id price id) msg) = .ok ad' ∧
        ∃ rest, alterAds c o adunit_id dsp_id price msg ads ids = .ok rest ∧ ad' :: rest = ads' := by
  rw [alterAds]
  by_cases hdsp : dsp_id = SINA_DSP_ID
  · simp only [if_pos hdsp, bind_ok, pure_ok]
  · simp only [if_neg hdsp, bind_ok, pure_ok]

/-- The URLs that are read in altering a creative are texts. -/
def Alterable (dsp_id : Str) (ad : Val) : Prop :=
  if dsp_id = SINA_DSP_ID then FirstText "click" ad ∧ FirstText "view" ad
  else ∀ v ∈ urls "view" ad, v.isText

lemma alterAds_isOk {ads : List Val} {ids : List Str} (hlength : ids.length = ads.length)
    (hads : ∀ ad ∈ ads, Markup ad) :
    (∃ ads', alterAds c o adunit_id dsp_id price msg ads ids = .ok ads') ↔
      ∀ ad ∈ ads, Alterable dsp_id ad := by
  induction ads generalizing ids with
  | nil => exact ⟨fun _ => by simp, fun _ => ⟨[], by simp [alterAds]⟩⟩
  | cons ad ads ih =>
    cases ids with
    | nil => cases hlength
    | cons id ids =>
      rw [List.forall_mem_cons] at hads ⊢
      rw [← ih (Nat.succ.inj hlength) hads.2]
      unfold Alterable
      simp only [alterAds_cons_ok]
      by_cases hdsp : dsp_id = SINA_DSP_ID
      · simp only [if_pos hdsp]
        have hsina : (∃ ad', alter_sina_dsp_creative c o ad
            (generate_click_url c o dsp_id adunit_id id)
            (generate_view_url c o dsp_id adunit_id price id) msg = .ok ad') ↔
              FirstText "click" ad ∧ FirstText "view" ad := alter_sina_isOk hads.1
        rw [← hsina]
        exact ⟨fun ⟨_, ad', had', rest, hrest, _⟩ => ⟨⟨ad', had'⟩, rest, hrest⟩,
          fun ⟨⟨ad', had'⟩, rest, hrest⟩ => ⟨_, ad', had', rest, hrest, rfl⟩⟩
      · simp only [if_neg hdsp]
        constructor
        · rintro ⟨_, ad', had', rest, hrest, -⟩
          exact ⟨(alter_third_ok hads.1 had').1, rest, hrest⟩
        · rintro ⟨htext, rest, hrest⟩
          obtain ⟨ad', had'⟩ : ∃ ad', alter_third_party_dsp_creative c ad
              (generate_click_url c o dsp_id adunit_id id)
              (generate_view_url c o dsp_id adunit_id price id) msg = .ok ad' :=
            alter_third_isOk hads.1 htext
          exact ⟨_, ad', had', rest, hrest, rfl⟩

lemma alterAds_third_iff (hlib : HmacLength c.lib) (huuid : c.uuid.length = 16)
    (hdsp : dsp_id ≠ SINA_DSP_ID) (he : c.ekey dsp_id = some e_key)
    (hi : c.ikey dsp_id = some i_key)
    (hmsg : encrypt_price c.lib c.uuid e_key i_key price = .ok msg) {ads : List Val}
    {ids : List Str} (hlength : ids.length = ads.length)
    (hads : ∀ ad ∈ ads, Markup ad ∧ Carries dsp_id ad) :
    (∃ ads', alterAds c o adunit_id dsp_id price (escape_uri msg) ads ids = .ok ads' ∧
      List.Forall₂ (Delivered c dsp_id price) ads ads') ↔ ∀ ad ∈ ads, IsLong price ∧ Fit ad := by
  induction ads generalizing ids with
  | nil => exact ⟨fun _ => by simp, fun _ => ⟨[], by simp [alterAds], .nil⟩⟩
  | cons ad ads ih =>
    cases ids with
    | nil => cases hlength
    | cons id ids =>
      rw [List.forall_mem_cons] at hads ⊢
      rw [← ih (Nat.succ.inj hlength) hads.2, ← third_delivered_iff hlib huuid hdsp he hi hmsg
        hads.1.1 hads.1.2 (generate_click_url c o dsp_id adunit_id id)
        (generate_view_url c o dsp_id adunit_id price id)]
      simp only [alterAds_cons_ok, if_neg hdsp]
      constructor
      · rintro ⟨_, ⟨ad', had', rest, hrest, rfl⟩, hall⟩
        obtain ⟨hhead, htail⟩ := List.forall₂_cons.mp hall
        exact ⟨⟨ad', had', hhead⟩, rest, hrest, htail⟩
      · rintro ⟨⟨ad', had', hhead⟩, rest, hrest, htail⟩
        exact ⟨_, ⟨ad', had', rest, hrest, rfl⟩, .cons hhead htail⟩

lemma alterAds_sina (hlib : HmacLength c.lib) (huuid : c.uuid.length = 16)
    (hdsp : dsp_id = SINA_DSP_ID)
    (hmsg : encrypt_price c.lib c.uuid e_key i_key price = .ok msg) {ads ads' : List Val}
    (hne : ads ≠ []) {ids : List Str}
    (h : alterAds c o adunit_id dsp_id price (escape_uri msg) ads ids = .ok ads') :
    ¬ List.Forall₂ (Delivered c dsp_id price) ads ads' := by
  obtain ⟨ad, ads, rfl⟩ := List.exists_cons_of_ne_nil hne
  cases ids with
  | nil => cases h
  | cons id ids =>
    rw [alterAds_cons_ok, if_pos hdsp] at h
    obtain ⟨ad', had', rest, -, rfl⟩ := h
    intro hall
    exact sina_not_delivered hlib huuid hdsp hmsg had' (List.forall₂_cons.mp hall).1

lemma tableField_ok {k msg : String} {v : Val} {a : List Val}
    (h : BidRsp.tableField k msg (some v) = .ok a) : ∃ g, v.get k = some (.table a g) := by
  unfold BidRsp.tableField at h
  obtain ⟨x, hx, h⟩ := bind_ok.mp h
  cases v with
  | table b g =>
    cases hx
    split at h
    · next heq =>
      cases h
      exact ⟨_, heq⟩
    · cases h
  | str s =>
    cases hx
    cases h
  | _ => cases hx

/-- A creative that was kept has its lists of URLs. -/
lemma markup_of_valid {lib : Ngx} {s : Str} {ad : Val} (h : valid_markup lib s = .ok ad) :
    Markup ad := by
  unfold valid_markup at h
  obtain ⟨markup, -, h⟩ := bind_ok.mp h
  obtain ⟨_, -, h⟩ := bind_ok.mp h
  obtain ⟨_, -, h⟩ := bind_ok.mp h
  obtain ⟨_, -, h⟩ := bind_ok.mp h
  obtain ⟨view, hview, h⟩ := bind_ok.mp h
  obtain ⟨click, hclick, h⟩ := bind_ok.mp h
  cases h
  exact ⟨⟨click, tableField_ok hclick⟩, view, tableField_ok hview⟩

lemma valid_ads_spec (lib : Ngx) (ads : List Ad) :
    (valid_ads lib ads).creative_id.length = (valid_ads lib ads).ad.length ∧
      ∀ ad ∈ (valid_ads lib ads).ad, Markup ad := by
  unfold valid_ads
  constructor
  · simp only [List.length_map]
  · intro ad had
    obtain ⟨e, he, rfl⟩ := List.mem_map.mp had
    obtain ⟨a, -, ha⟩ := List.mem_filterMap.mp he
    split at ha
    · next markup hvalid =>
      cases ha
      exact markup_of_valid hvalid
    · cases ha

/-- What is kept of a bid: creatives with their ids, at least one. -/
lemma keep_spec {c : SaxmobRtb.Ctx} {p : Str × AdContent} {b : Bid Kept}
    (h : (rtb c).keep p.1 p.2 = .ok (some b)) :
    b.creative.ad ≠ [] ∧ b.creative.creative_id.length = b.creative.ad.length ∧
      ∀ ad ∈ b.creative.ad, Markup ad := by
  obtain ⟨price, f, -, -, hge, rfl⟩ := keep_some h
  exact ⟨List.length_eq_zero_iff.not.mp hge.2, valid_ads_spec c.lib p.2.ad⟩

/-- The winner is one of the bids. -/
lemma winner_creative {c : SaxmobRtb.Ctx} (hne : bid_info ≠ [])
    (h : select_winner c o draw bid_info adunit_id = .ok winner) :
    ∃ b ∈ bid_info, b.creative = winner.creative := by
  obtain ⟨b, hb, ⟨-, hr⟩ | ⟨s, -, hr⟩⟩ := auction_spec o draw (get_min_price c adunit_id) hne
  · rw [select_winner, hr] at h
    obtain ⟨floor, -, h⟩ := bind_ok.mp h
    cases h
    exact ⟨b, hb.1, rfl⟩
  · rw [select_winner, hr] at h
    cases h
    exact ⟨b, hb.1, rfl⟩

lemma settle_ok (hwin : select_winner c.toCtx o draw bid_info adunit_id = .ok winner)
    (hprice : winner.win_cpm_price = some price) (he : c.ekey winner.dsp_id = some e_key)
    (hi : c.ikey winner.dsp_id = some i_key)
    (hmsg : encrypt_price c.lib c.uuid e_key i_key price = .ok msg) {filled : Filled} :
    settle c o draw bid_info adunit_id = .ok filled ↔
      ∃ ads, alterAds c o adunit_id winner.dsp_id price (escape_uri msg) winner.creative.ad
        winner.creative.creative_id = .ok ads ∧
          ⟨ads, winner.dsp_id, winner.creative.creative_id⟩ = filled := by
  unfold settle log_dsp_win fill_ad_for_dsp
  rw [hwin, ok_bind, hprice, he, hi]
  simp only [Option.isSome_some, if_true, argument, ok_bind, hmsg, bind_ok, pure_ok]

lemma delivers_iff_alterAds (hwin : select_winner c.toCtx o draw bid_info adunit_id = .ok winner)
    (hprice : winner.win_cpm_price = some price) (he : c.ekey winner.dsp_id = some e_key)
    (hi : c.ikey winner.dsp_id = some i_key)
    (hmsg : encrypt_price c.lib c.uuid e_key i_key price = .ok msg) :
    Delivers c o draw bid_info adunit_id ↔
      ∃ ads, alterAds c o adunit_id winner.dsp_id price (escape_uri msg) winner.creative.ad
        winner.creative.creative_id = .ok ads ∧
          List.Forall₂ (Delivered c winner.dsp_id price) winner.creative.ad ads := by
  constructor
  · rintro ⟨w, q, filled, hw, hq, hfilled, hforall⟩
    rw [hwin] at hw
    cases hw
    rw [hprice] at hq
    cases hq
    obtain ⟨ads, halter, rfl⟩ := (settle_ok hwin hprice he hi hmsg).mp hfilled
    exact ⟨ads, halter, hforall⟩
  · rintro ⟨ads, halter, hforall⟩
    exact ⟨winner, price, _, hwin, hprice,
      (settle_ok hwin hprice he hi hmsg).mpr ⟨ads, halter, rfl⟩, hforall⟩

/-- Nothing is delivered to the Sina DSP. -/
lemma not_delivers_sina (hlib : HmacLength c.lib) (huuid : c.uuid.length = 16)
    (hwin : select_winner c.toCtx o draw bid_info adunit_id = .ok winner)
    (hprice : winner.win_cpm_price = some price) (he : c.ekey winner.dsp_id = some e_key)
    (hi : c.ikey winner.dsp_id = some i_key) (hdsp : winner.dsp_id = SINA_DSP_ID)
    (hads : winner.creative.ad ≠ []) : ¬ Delivers c o draw bid_info adunit_id := by
  obtain ⟨message, hmsg, -, -⟩ : ∃ message, encrypt_price c.lib c.uuid e_key i_key price =
      .ok (encode_base64 message) ∧ message.length = 28 ∧
        unencrypt_price c.lib e_key i_key message = .ok (some (unpackI8 (packI8 price))) :=
    encrypt_ok hlib huuid
  rw [delivers_iff_alterAds hwin hprice he hi hmsg]
  rintro ⟨ads, halter, hforall⟩
  exact alterAds_sina hlib huuid hdsp hmsg hads halter hforall

/-- **The winning price is delivered exactly when the DSP is not Sina, the price is a whole number
of eight bytes, and the creatives have texts for view URLs and the macro in none of the click
URLs**, for all bids an extraction keeps and every outcome of the draw. -/
theorem delivers_iff (hlib : HmacLength c.lib) (huuid : c.uuid.length = 16)
    {bid_rsp_list : List Rsp} {dsp_bid_list : List Str}
    (hbids : (rtb c.toCtx).Keeps bid_rsp_list dsp_bid_list [] adunit_id bid_info)
    (hwin : select_winner c.toCtx o draw bid_info adunit_id = .ok winner)
    (hprice : winner.win_cpm_price = some price) (he : c.ekey winner.dsp_id = some e_key)
    (hi : c.ikey winner.dsp_id = some i_key)
    (hcarries : ∀ ad ∈ winner.creative.ad, Carries winner.dsp_id ad) :
    Delivers c o draw bid_info adunit_id ↔
      winner.dsp_id ≠ SINA_DSP_ID ∧ IsLong price ∧ ∀ ad ∈ winner.creative.ad, Fit ad := by
  obtain ⟨hne, hall⟩ := hbids.exists_entry
  obtain ⟨b, hb, hcreative⟩ := winner_creative hne hwin
  obtain ⟨p, -, -, hkeep⟩ := hall b hb
  obtain ⟨hads, hlength, hmarkup⟩ := keep_spec hkeep
  rw [hcreative] at hads hlength hmarkup
  obtain ⟨message, hmsg, -, -⟩ : ∃ message, encrypt_price c.lib c.uuid e_key i_key price =
      .ok (encode_base64 message) ∧ message.length = 28 ∧
        unencrypt_price c.lib e_key i_key message = .ok (some (unpackI8 (packI8 price))) :=
    encrypt_ok hlib huuid
  by_cases hdsp : winner.dsp_id = SINA_DSP_ID
  · exact iff_of_false (not_delivers_sina hlib huuid hwin hprice he hi hdsp hads) fun h => h.1 hdsp
  · rw [delivers_iff_alterAds hwin hprice he hi hmsg,
      alterAds_third_iff hlib huuid hdsp he hi hmsg hlength
      fun ad had => ⟨hmarkup ad had, hcarries ad had⟩]
    obtain ⟨ad, had⟩ := List.exists_mem_of_ne_nil _ hads
    constructor
    · exact fun h => ⟨hdsp, (h ad had).1, fun ad had => (h ad had).2⟩
    · exact fun ⟨_, hlong, hfit⟩ ad had => ⟨hlong, hfit ad had⟩

end winner

section samples

open Sax.Clearing (appText appBody ok)

/-- A markup with the macro in its view URL, and how it stands in a JSON string. -/
def markupText : String :=
  "\x7b\"src\":[],\"type\":[],\"link\":[],\"view\":[\"http://d/v?p=%%WIN_PRICE%%\"]," ++
    "\"click\":[\"http://d/c\"]\x7d"

def markupQuoted : String :=
  "\x7b\\\"src\\\":[],\\\"type\\\":[],\\\"link\\\":[]," ++
    "\\\"view\\\":[\\\"http://d/v?p=%%WIN_PRICE%%\\\"],\\\"click\\\":[\\\"http://d/c\\\"]\x7d"

def markup : Val :=
  .obj [("src", .arr []), ("type", .arr []), ("link", .arr []),
    ("view", .arr [.str (lit "http://d/v?p=%%WIN_PRICE%%")]),
    ("click", .arr [.str (lit "http://d/c")])]

def sampleUuid : Str := List.replicate 16 1

/-- `ngx.hmac_sha1` on the two texts that are signed. -/
def sampleHmac (k s : Str) : Str :=
  if k = lit "e" ∧ s = sampleUuid then
    [40, 169, 52, 60, 200, 178, 40, 23, 43, 137, 33, 247, 164, 76, 139, 22, 3, 179, 141, 154]
  else if k = lit "i" ∧ s = packI8 2 ++ sampleUuid then
    [80, 49, 96, 120, 137, 34, 73, 175, 203, 204, 36, 203, 111, 41, 126, 32, 94, 200, 11, 13]
  else List.replicate 20 0

/-- An ad unit `U` with floor 2. -/
def sampleCtx : Ctx where
  lib := { Ngx.ofTexts [(appText "3" markupQuoted, appBody 3 markupText), (markupText, markup)] with
    hmac_sha1 := sampleHmac }
  id := lit "b"
  adunit u := if u = lit "U" then some (some 2) else none
  uuid := sampleUuid
  ekey _ := some (lit "e")
  ikey _ := some (lit "i")

lemma sample_hmac : HmacLength sampleCtx.lib := by
  intro k s
  change (sampleHmac k s).length = 20
  unfold sampleHmac
  split
  · rfl
  · split <;> simp

/-- The one bid, of 3. -/
def sampleBids (dsp_id : Str) : List (Bid Kept) := [⟨dsp_id, 3, ⟨[lit "c"], [markup]⟩⟩]

/-- It wins at the floor. -/
def sampleWinner (dsp_id : Str) : Winner Kept := ⟨dsp_id, some 2, ⟨[lit "c"], [markup]⟩⟩

theorem delivers_iff_sample :
    Delivers sampleCtx .plain .least (sampleBids (lit "2")) (lit "U") ↔
      (lit "2" ≠ SINA_DSP_ID ∧ IsLong 2 ∧ ∀ ad ∈ [markup], Fit ad) := by
  have hcarries : ∀ ad ∈ [markup], Carries (lit "2") ad := by
    have hsina : lit "2" ≠ SINA_DSP_ID := by decide
    have hplace : .str (lit "http://d/v?p=%%WIN_PRICE%%") ∈ urls "view" markup ∧
        RTB_MACRO_WIN_PRICE ∈ argValues (lit "http://d/v?p=%%WIN_PRICE%%") := by decide +kernel
    rw [List.forall_mem_singleton, Carries, if_neg hsina]
    exact ⟨"view", by simp, _, hplace⟩
  have hwin : select_winner sampleCtx.toCtx .plain .least (sampleBids (lit "2")) (lit "U") =
      .ok (sampleWinner (lit "2")) := by decide +kernel
  have hbids : (rtb sampleCtx.toCtx).Keeps [ok (appText "3" markupQuoted)] [lit "2"] [] (lit "U")
      (sampleBids (lit "2")) := by decide +kernel
  exact delivers_iff sample_hmac rfl hbids hwin rfl rfl rfl hcarries

/-- The Sina DSP wins at price 2, and the price is not delivered. -/
theorem sina_price_unreadable :
    (rtb sampleCtx.toCtx).Keeps [ok (appText "3" markupQuoted)] [SINA_DSP_ID] [] (lit "U")
      (sampleBids SINA_DSP_ID) ∧
    select_winner sampleCtx.toCtx .plain .least (sampleBids SINA_DSP_ID) (lit "U") =
      .ok (sampleWinner SINA_DSP_ID) ∧
    (∀ ad ∈ [markup], Carries SINA_DSP_ID ad) ∧
    ¬ Delivers sampleCtx .plain .least (sampleBids SINA_DSP_ID) (lit "U") := by
  have hwin : select_winner sampleCtx.toCtx .plain .least (sampleBids SINA_DSP_ID) (lit "U") =
      .ok (sampleWinner SINA_DSP_ID) := by decide +kernel
  refine ⟨by decide +kernel, hwin, ?_,
    not_delivers_sina sample_hmac rfl hwin rfl rfl rfl rfl (List.cons_ne_nil _ _)⟩
  rw [List.forall_mem_singleton, Carries, if_pos rfl]
  intro m hm
  simp only [List.mem_cons, List.not_mem_nil, or_false] at hm
  rcases hm with rfl | rfl
  · exact ⟨lit "http://d/c", by decide +kernel⟩
  · exact ⟨lit "http://d/v?p=%%WIN_PRICE%%", by decide +kernel⟩

end samples

end Sax.WinPrice
