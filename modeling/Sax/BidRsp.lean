import Mathlib.Order.WithBot
import Sax.Extract

/-!
The web exchange's side of a bid response: `getAdLowestPrice`, `getBidResult`,
`isValidCreative`, `extractAdBid` and `selectWinner` of `rtb.lua`.
-/

namespace Sax.BidRsp

open Sax.LuaVal Sax.Loop Sax.Const Sax.Runtime Sax.Store Sax.Auction Sax.Extract
open Sax.Double (double IsDouble isDouble_double)

/-- The fields of `ngx.ctx.adReq` that the exchange reads. -/
structure AdReq where
  publisherType : PublisherType
  adUnitIdList : List Str
  ip : Str
  cookie : Str
  pageUrl : Str
  userAgent : Str
  version : Str
  hashCode : Str

/-- What a phase of the exchange finds in `ngx.ctx`: the request, the objects, the auction
type, and the bid id with its 16 bytes. -/
structure Ctx where
  lib : Ngx
  dict : Dict
  adReq : AdReq
  auction_type : AuctionType
  bid : Str
  uuid : Str

/-! ### The fields of a body -/

/-- `v.k` where anything but a string is an error with the given text. -/
def stringField (k msg : String) (v : Option Val) : Lua Str := do
  match ← field k v with
  | some (.str s) => return s
  | _ => throw (.error msg)

/-- The number read is a double. NaN, which is at or above no number, is `⊥`. -/
def numberField (k msg : String) (v : Option Val) : Lua (WithBot ℚ) := do
  match ← field k v with
  | some (.num q) => return (double q : ℚ)
  | some .nan => return ⊥
  | _ => throw (.error msg)

def tableField (k msg : String) (v : Option Val) : Lua (List Val) := do
  match ← field k v with
  | some (.table a _) => return a
  | _ => throw (.error msg)

structure Creative where
  id : Str
  html_snippet : Str
  deriving DecidableEq

structure AdCreative where
  id : Str
  max_cpm_price : WithBot ℚ
  creative : List Creative
  deriving DecidableEq

structure BidResult where
  ad_creative : List AdCreative
  cm_flag : Str

def checkCreative (creative : Val) : Lua Creative := do
  let id ← stringField "id" "invalid field id" (some creative)
  let html_snippet ← stringField "html_snippet" "invalid field html_snippet" (some creative)
  return ⟨id, html_snippet⟩

def checkAd (ad : Val) : Lua AdCreative := do
  let id ← stringField "id" "invalid field id" (some ad)
  let max_cpm_price ← numberField "max_cpm_price" "invalid field max_cpm_price" (some ad)
  let creative ← tableField "creative" "invalid field creative" (some ad)
  return ⟨id, max_cpm_price, ← creative.mapM checkCreative⟩

def getBidResult (lib : Ngx) (bidRsp : Rsp) : Lua BidResult := do
  let bidResult ← lib.decode bidRsp.body
  unless bidResult.isTable do throw (.error "invalid bid response")
  let _version ← stringField "version" "invalid field version" (some bidResult)
  let _bid ← stringField "bid" "invalid field bid" (some bidResult)
  let ad_creative ← tableField "ad_creative" "invalid field ad_creative" (some bidResult)
  let ad_creative ← ad_creative.mapM checkAd
  return ⟨ad_creative, ← stringField "cm_flag" "invalid field cm_flag" (some bidResult)⟩

/-! ### Floor and approval -/

/-- A preferred deal has price 0. An ad unit the dictionary does not hold has no publisher to
ask for. -/
def getAdLowestPrice (d : Dict) (auction_type : AuctionType) (adUnitId : Str) :
    Lua (Option ℚ) :=
  if auction_type = .preferredDeal then .ok (some 0)
  else do getLowestPrice d (← getPublisher d adUnitId)

/-- `util.checkAdvertiserType`: the digit of the auction type in the advertiser's type. -/
def checkAdvertiserType (auctionType : AuctionType) : Option Str → Lua Bool
  | none => .error .badArgument
  | some advertiserType =>
    let i := match auctionType with
      | .preferredDeal => 1
      | .privateAuction => 2
      | .openAuction => 3
    .ok ((advertiserType.drop (i - 1)).take 1 = lit "1")

def isValidCreative (d : Dict) (auction_type : AuctionType) (dspId creativeId : Str) :
    Lua Bool := do
  if !(← creativeIsValid d dspId creativeId) then return false
  if (← creativeGetStatus d dspId creativeId) = some OBJECT_STATUS_INVALID then return false
  let advertiserId ← creativeGetAdvertiserId d dspId creativeId
  if !(← advertiserIsValid d dspId advertiserId) then return false
  if (← advertiserGetStatus d dspId advertiserId) = some OBJECT_STATUS_INVALID then return false
  let advertiserType ← advertiserGetType d dspId advertiserId
  if !(← checkAdvertiserType auction_type advertiserType) then return false
  return true

/-- The creatives of an entry that pass the check. -/
def validCreatives {α : Type} (valid : α → Lua Bool) : List α → Lua (List α)
  | [] => return []
  | creative :: rest => do
    if ← valid creative then return creative :: (← validCreatives valid rest)
    else validCreatives valid rest

/-- Logging a response asks for the unique id of each of its creatives. -/
def logCreatives (d : Dict) (dspId : Str) (creative : List Str) : Lua Unit :=
  creative.forM fun id => do let _ ← creativeGetUniqueId d dspId id

/-- The bid an entry at or above the floor becomes, if any of its creatives is approved. -/
def keepAbove {α : Type} (valid : α → Lua Bool) (dspId : Str) (price : ℚ)
    (creative : List α) : Lua (Option (Bid (List α))) := do
  let creative ← validCreatives valid creative
  return if creative.length ≠ 0 then some ⟨dspId, price, creative⟩ else none

/-- The bid of an entry with a price, where it is at or above the floor. -/
def keepAtLeast {α : Type} (floor : ℚ) (valid : α → Lua Bool) (dspId : Str) (price : WithBot ℚ)
    (creative : List α) : Lua (Option (Bid (List α))) :=
  match price with
  | some price => if price ≥ floor then keepAbove valid dspId price creative else .ok none
  | none => .ok none

/-! ### `extractAdBid` and `selectWinner` of `rtb.lua` -/

def keep (d : Dict) (auction_type : AuctionType) (dspId : Str) (ad : AdCreative) :
    Lua (Option (Bid (List Creative))) := do
  match ← getAdLowestPrice d auction_type ad.id with
  | some lowestPrice =>
    keepAtLeast lowestPrice (fun c => isValidCreative d auction_type dspId c.id) dspId
      ad.max_cpm_price ad.creative
  | none => return none

/-- The cookie mapping URL of a DSP. -/
def fillCmUrlList (lib : Ngx) (publisherType : PublisherType) (dspId : Str) : Str :=
  (match publisherType with
    | .wap => RTB_WAP_CM_URL
    | .pc => RTB_CM_URL) ++ lit "?" ++ lib.encode_args [(RTB_CM_ARG_NID, dspId)]

/-- `rtb.lua`'s copy of the extraction. -/
def rtb (c : Ctx) : Copy AdCreative (List Creative) where
  getBidResult rsp := do
    let bidResult ← getBidResult c.lib rsp
    return ⟨bidResult.ad_creative, bidResult.cm_flag = RTB_CM_FLAG⟩
  id := AdCreative.id
  keep := keep c.dict c.auction_type
  logDspRsp dspId ad := logCreatives c.dict dspId (ad.creative.map Creative.id)
  cmUrl := fillCmUrlList c.lib c.adReq.publisherType

def extractAdBid (c : Ctx) (bidRspList : List Rsp) (dspBidList cmUrlList : List Str) :
    Lua (Extracted (List Creative)) :=
  (rtb c).extractAdBid bidRspList dspBidList cmUrlList

def selectWinner (d : Dict) (auction_type : AuctionType) (o : Order) (draw : Draw)
    (bidInfo : List (Bid (List Creative))) (adUnitId : Str) : Lua (Winner (List Creative)) :=
  auction o draw (getAdLowestPrice d auction_type adUnitId) bidInfo

/-! ### What a kept bid is -/

section creatives

variable {α : Type} {valid : α → Lua Bool} {dspId : Str} {price : ℚ} {creative l : List α}

lemma validCreatives_spec (h : validCreatives valid creative = .ok l) :
    l.Sublist creative ∧ ∀ c ∈ l, valid c = .ok true := by
  induction creative generalizing l with
  | nil => cases h; simp
  | cons c rest ih =>
    obtain ⟨b, hb, h⟩ := bind_ok.mp h
    cases b with
    | false =>
      obtain ⟨h1, h2⟩ := ih h
      exact ⟨h1.cons c, h2⟩
    | true =>
      obtain ⟨l', hl', h⟩ := bind_ok.mp h
      cases h
      obtain ⟨h1, h2⟩ := ih hl'
      exact ⟨h1.cons_cons c, by simpa [hb] using h2⟩

/-- The check goes through exactly when it does on every creative. -/
lemma validCreatives_isOk :
    (∃ l, validCreatives valid creative = .ok l) ↔ ∀ c ∈ creative, ∃ b, valid c = .ok b := by
  induction creative with
  | nil => exact ⟨fun _ c hc => absurd hc List.not_mem_nil, fun _ => ⟨[], rfl⟩⟩
  | cons c rest ih =>
    rw [validCreatives, bind_isOk, List.forall_mem_cons, ← ih]
    constructor
    · rintro ⟨b, hb, l, hl⟩
      refine ⟨⟨b, hb⟩, ?_⟩
      cases b with
      | false => exact ⟨l, hl⟩
      | true =>
        obtain ⟨l', hl', -⟩ := bind_ok.mp hl
        exact ⟨l', hl'⟩
    · rintro ⟨⟨b, hb⟩, l, hl⟩
      refine ⟨b, hb, ?_⟩
      cases b with
      | false => exact ⟨l, hl⟩
      | true => exact ⟨c :: l, bind_ok.mpr ⟨l, hl, rfl⟩⟩

/-- A creative that passes the check is among the ones kept. -/
lemma validCreatives_mem (h : validCreatives valid creative = .ok l) {c : α}
    (hc : c ∈ creative) (hv : valid c = .ok true) : c ∈ l := by
  induction creative generalizing l with
  | nil => exact absurd hc List.not_mem_nil
  | cons a rest ih =>
    obtain ⟨b, hb, h⟩ := bind_ok.mp h
    rcases List.mem_cons.mp hc with rfl | hc
    · rw [hv] at hb
      cases hb
      obtain ⟨l', -, h⟩ := bind_ok.mp h
      cases h
      exact List.mem_cons_self
    · cases b with
      | false => exact ih h hc
      | true =>
        obtain ⟨l', hl', h⟩ := bind_ok.mp h
        cases h
        exact List.mem_cons_of_mem _ (ih hl' hc)

lemma keepAbove_some {b : Bid (List α)} (h : keepAbove valid dspId price creative = .ok (some b)) :
    b.dsp_id = dspId ∧ b.max_cpm_price = price ∧ b.creative ≠ [] ∧
      validCreatives valid creative = .ok b.creative := by
  obtain ⟨l, hl, h⟩ := bind_ok.mp h
  rw [pure_ok] at h
  split at h
  · next hne => cases h; exact ⟨rfl, rfl, by simpa using hne, hl⟩
  · cases h

/-- A kept bid has the price of the entry, which is at or above the floor. -/
lemma keepAtLeast_some {floor : ℚ} {price : WithBot ℚ} {b : Bid (List α)}
    (h : keepAtLeast floor valid dspId price creative = .ok (some b)) :
    b.dsp_id = dspId ∧ price = b.max_cpm_price ∧ floor ≤ b.max_cpm_price ∧ b.creative ≠ [] ∧
      validCreatives valid creative = .ok b.creative := by
  unfold keepAtLeast at h
  split at h
  · next q =>
    split at h
    · next hge =>
      obtain ⟨hdsp, rfl, hne, hvalid⟩ := keepAbove_some h
      exact ⟨hdsp, rfl, hge, hne, hvalid⟩
    · cases h
  · cases h

lemma keepAtLeast_isOk {floor : ℚ} {price : WithBot ℚ}
    (h : ∀ c ∈ creative, ∃ b, valid c = .ok b) :
    ∃ kept, keepAtLeast floor valid dspId price creative = .ok kept := by
  unfold keepAtLeast
  split
  · split
    · obtain ⟨l, hl⟩ := validCreatives_isOk.mpr h
      exact ⟨_, bind_ok.mpr ⟨l, hl, rfl⟩⟩
    · exact ⟨_, rfl⟩
  · exact ⟨_, rfl⟩

/-- A bid at or above the floor is kept as soon as one of its creatives passes the check. -/
lemma keepAtLeast_kept {floor : ℚ} {price : WithBot ℚ} {kept : Option (Bid (List α))}
    (h : keepAtLeast floor valid dspId price creative = .ok kept) (hle : floor ≤ price) {c : α}
    (hc : c ∈ creative) (hv : valid c = .ok true) : ∃ b, kept = some b ∧ c ∈ b.creative := by
  unfold keepAtLeast at h
  split at h
  · rw [if_pos (WithBot.coe_le_coe.mp hle)] at h
    obtain ⟨l, hl, h⟩ := bind_ok.mp h
    have hmem := validCreatives_mem hl hc hv
    rw [pure_ok, if_pos (by simpa using List.ne_nil_of_mem hmem)] at h
    exact ⟨_, h.symm, hmem⟩
  · exact absurd hle (WithBot.not_coe_le_bot floor)

end creatives

variable {d : Dict} {auction_type : AuctionType} {dspId : Str} {ad : AdCreative}
  {b : Bid (List Creative)}

/-- **A kept bid is at or above a known floor** and has an approved creative. -/
theorem keep_some (h : keep d auction_type dspId ad = .ok (some b)) :
    b.dsp_id = dspId ∧ ad.max_cpm_price = b.max_cpm_price ∧
      (∃ floor, getAdLowestPrice d auction_type ad.id = .ok (some floor) ∧
        floor ≤ b.max_cpm_price) ∧
      b.creative ≠ [] ∧ b.creative.Sublist ad.creative ∧
        ∀ c ∈ b.creative, isValidCreative d auction_type dspId c.id = .ok true := by
  obtain ⟨floor, hf, h⟩ := bind_ok.mp h
  cases floor with
  | none => cases h
  | some lowestPrice =>
    obtain ⟨hdsp, hprice, hle, hne, hvalid⟩ := keepAtLeast_some h
    exact ⟨hdsp, hprice, ⟨lowestPrice, hf, hle⟩, hne, validCreatives_spec hvalid⟩

/-! ### The prices of the entries -/

lemma numberField_ok {k msg : String} {v : Option Val} {price : WithBot ℚ}
    (h : numberField k msg v = .ok price) : ∀ q : ℚ, price = q → IsDouble q := by
  obtain ⟨x, -, h⟩ := bind_ok.mp h
  split at h
  · cases h
    intro q hq
    exact WithBot.coe_injective hq ▸ isDouble_double _
  · cases h
    intro q hq
    exact absurd hq WithBot.bot_ne_coe
  · cases h

lemma checkAd_ok {v : Val} (h : checkAd v = .ok ad) : ∀ q : ℚ, ad.max_cpm_price = q → IsDouble q := by
  obtain ⟨_, -, h⟩ := bind_ok.mp h
  obtain ⟨price, hprice, h⟩ := bind_ok.mp h
  obtain ⟨_, -, h⟩ := bind_ok.mp h
  obtain ⟨_, -, h⟩ := bind_ok.mp h
  cases h
  exact numberField_ok hprice

/-- The prices of a checked body are doubles. -/
lemma price_isDouble {c : Ctx} (h : (rtb c).Reads ad) :
    ∀ q : ℚ, ad.max_cpm_price = q → IsDouble q := by
  obtain ⟨bidRsp, result, h, had⟩ := h
  obtain ⟨bidResult, hresult, h⟩ := bind_ok.mp h
  cases h
  obtain ⟨_, -, hresult⟩ := bind_ok.mp hresult
  dsimp only at hresult
  split at hresult
  · obtain ⟨_, -, hresult⟩ := bind_ok.mp hresult
    obtain ⟨_, -, hresult⟩ := bind_ok.mp hresult
    obtain ⟨_, -, hresult⟩ := bind_ok.mp hresult
    obtain ⟨l, hl, hresult⟩ := bind_ok.mp hresult
    obtain ⟨_, -, hresult⟩ := bind_ok.mp hresult
    cases hresult
    obtain ⟨v, -, hv⟩ := mapM_mem hl had
    exact checkAd_ok hv
  · cases hresult

end Sax.BidRsp
