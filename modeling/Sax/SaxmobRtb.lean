import Sax.BidRsp

/-!
The application exchange's copy of the extraction and the auction, `saxmob/rtb/rtb.lua`.

Its floor is an attribute of the ad unit, its creatives are approved by the shape of their
markup alone, and a kept bid carries the decoded markups beside the creative ids.
-/

namespace Sax.SaxmobRtb

open Sax.LuaVal Sax.Loop Sax.Const Sax.Runtime Sax.Store Sax.Auction Sax.Extract Sax.BidRsp
open Sax.Double (double IsDouble)

/-- What the extraction reads in `ngx.ctx`: the id of the request and the ad units of the
worker's dictionary with their `min_price`, which is no number where the column is `NULL`. -/
structure Ctx where
  lib : Ngx
  id : Str
  adunit : Str → Option (Option ℚ)

structure Ad where
  id : Str
  markup : Str

structure AdContent where
  id : Str
  price : WithBot ℚ
  ad : List Ad

/-- `temp.creative_id` and `temp.ad`. -/
structure Kept where
  creative_id : List Str
  ad : List Val
  deriving DecidableEq

def check_ad (ad : Val) : Lua Ad := do
  let markup ← stringField "markup" "invalid field markup type" (some ad)
  return ⟨← stringField "id" "invalid field ad id" (some ad), markup⟩

def check_ad_content (ad_content : Val) : Lua AdContent := do
  let id ← stringField "id" "invalid field bid.id" (some ad_content)
  let price ← numberField "price" "invalid field price" (some ad_content)
  let ad ← tableField "ad" "invalid field ad" (some ad_content)
  return ⟨id, price, ← ad.mapM check_ad⟩

/-- The test of `cm` reads `bid_result.cm ~= 0 and bid_result ~= 1`, whose second half always
holds. -/
def get_bid_result (c : Ctx) (bid_rsp : Rsp) : Lua (List AdContent) := do
  let bid_result ← c.lib.decode bid_rsp.body
  unless bid_result.isTable do throw (.error "invalid bid response")
  match ← field "id" (some bid_result) with
  | some (.str id) => unless id = c.id do throw (.error "invalid field id")
  | _ => throw (.error "invalid field id")
  match ← field "cm" (some bid_result) with
  | some (.num cm) => unless double cm = 0 do throw (.error "invalid field cm")
  | _ => throw (.error "invalid field cm")
  let bid ← tableField "bid" "invalid field bid" (some bid_result)
  bid.mapM check_ad_content

def valid_markup (lib : Ngx) (markup_str : Str) : Lua Val := do
  let markup ← lib.decode markup_str
  let _src ← tableField "src" "error type markup.src" (some markup)
  let _type ← tableField "type" "error type markup.type" (some markup)
  let _link ← tableField "link" "error type markup.link " (some markup)
  let _view ← tableField "view" "error type markup.view" (some markup)
  let _click ← tableField "click" "error type markup.click" (some markup)
  return markup

def get_min_price (c : Ctx) (adunit_id : Str) : Lua (Option ℚ) :=
  return (← getInfoSD c.adunit adunit_id).join

/-- The creatives whose markup is valid, with the markup. -/
def valid_ads (lib : Ngx) (ad : List Ad) : Kept :=
  let valid := ad.filterMap fun a =>
    match valid_markup lib a.markup with
    | .ok markup => some (a.id, markup)
    | .error _ => none
  ⟨valid.map Prod.fst, valid.map Prod.snd⟩

def keep (c : Ctx) (dsp_id : Str) (bid_content : AdContent) : Lua (Option (Bid Kept)) := do
  match ← get_min_price c bid_content.id with
  | some min_price =>
    let temp := valid_ads c.lib bid_content.ad
    return match bid_content.price with
      | some price =>
        if price ≥ min_price ∧ temp.ad.length ≠ 0 then some ⟨dsp_id, price, temp⟩ else none
      | none => none
  | none => throw .badCompare

/-- `saxmob/rtb/rtb.lua`'s copy of the extraction, which maps no cookies and whose log reads
the ids of the entry only. -/
def rtb (c : Ctx) : Copy AdContent Kept where
  getBidResult rsp := do return ⟨← get_bid_result c rsp, false⟩
  id := AdContent.id
  keep := keep c
  logDspRsp _ _ := .ok ()
  cmUrl _ := []

def extract_ad_bid (c : Ctx) (bid_rsp_list : List Rsp) (dsp_bid_list : List Str) :
    Lua (Extracted Kept) :=
  (rtb c).extractAdBid bid_rsp_list dsp_bid_list []

def select_winner (c : Ctx) (o : Order) (draw : Draw) (bid_info : List (Bid Kept))
    (adunit_id : Str) : Lua (Winner Kept) :=
  auction o draw (get_min_price c adunit_id) bid_info

/-- A kept bid has the price of the entry, which is at or above the floor, and valid markup. -/
lemma keep_some {c : Ctx} {dsp_id : Str} {bid_content : AdContent} {b : Bid Kept}
    (h : keep c dsp_id bid_content = .ok (some b)) :
    ∃ price min_price : ℚ, bid_content.price = price ∧
      get_min_price c bid_content.id = .ok (some min_price) ∧
      (price ≥ min_price ∧ (valid_ads c.lib bid_content.ad).ad.length ≠ 0) ∧
      b = ⟨dsp_id, price, valid_ads c.lib bid_content.ad⟩ := by
  obtain ⟨floor, hf, h⟩ := bind_ok.mp h
  cases floor with
  | none => cases h
  | some min_price =>
    dsimp only at h
    rw [pure_ok] at h
    cases hprice : bid_content.price with
    | bot =>
      rw [hprice] at h
      cases h
    | coe price =>
      rw [hprice] at h
      change (if _ then _ else _) = _ at h
      split at h
      · next hge =>
        cases h
        exact ⟨price, min_price, rfl, hf, hge, rfl⟩
      · cases h

lemma check_ad_content_ok {v : Val} {bid : AdContent} (h : check_ad_content v = .ok bid) :
    ∀ q : ℚ, bid.price = q → IsDouble q := by
  obtain ⟨_, -, h⟩ := bind_ok.mp h
  obtain ⟨price, hprice, h⟩ := bind_ok.mp h
  obtain ⟨_, -, h⟩ := bind_ok.mp h
  obtain ⟨_, -, h⟩ := bind_ok.mp h
  cases h
  exact numberField_ok hprice

/-- A checked body lists entries that were checked. -/
lemma get_bid_result_ok {c : Ctx} {bid_rsp : Rsp} {l : List AdContent}
    (h : get_bid_result c bid_rsp = .ok l) :
    ∃ bid : List Val, bid.mapM check_ad_content = .ok l := by
  obtain ⟨_, -, h⟩ := bind_ok.mp h
  dsimp only at h
  split at h
  · obtain ⟨_, -, h⟩ := bind_ok.mp h
    split at h
    · split at h
      · obtain ⟨_, -, h⟩ := bind_ok.mp h
        split at h
        · split at h
          · obtain ⟨bid, -, h⟩ := bind_ok.mp h
            exact ⟨bid, h⟩
          · cases h
        · cases h
      · cases h
    · cases h
  · cases h

/-- The prices of a checked body are doubles. -/
lemma price_isDouble {c : Ctx} {bid : AdContent} (h : (rtb c).Reads bid) :
    ∀ q : ℚ, bid.price = q → IsDouble q := by
  obtain ⟨bidRsp, result, h, hbid⟩ := h
  obtain ⟨l, hl, h⟩ := bind_ok.mp h
  cases h
  obtain ⟨vs, hvs⟩ := get_bid_result_ok hl
  obtain ⟨v, -, hv⟩ := mapM_mem hvs hbid
  exact check_ad_content_ok hv

end Sax.SaxmobRtb
