import Sax.BidRsp

/-!
The mobile exchange's copy of the extraction and the auction, `mobile_rtb.lua`.

It differs from the web exchange in the fields of a body, and in that an ad unit without a
floor makes the comparison raise.
-/

namespace Sax.MobileRtb

open Sax.LuaVal Sax.Loop Sax.Const Sax.Runtime Sax.Store Sax.Auction Sax.Extract Sax.BidRsp
open Sax.Double (IsDouble)

structure Ad where
  id : Str
  markup : Str
  deriving DecidableEq

structure AdBid where
  id : Str
  price : WithBot ℚ
  ad : List Ad
  deriving DecidableEq

structure BidResult where
  bid : List AdBid
  cm : WithBot ℚ

def checkAd (ad : Val) : Lua Ad := do
  let id ← stringField "id" "invalid field id" (some ad)
  return ⟨id, ← stringField "markup" "invalid field markup" (some ad)⟩

def checkBid (bid : Val) : Lua AdBid := do
  let id ← stringField "id" "invalid field id" (some bid)
  let price ← numberField "price" "invalid field price" (some bid)
  let ad ← tableField "ad" "invalid field ad" (some bid)
  return ⟨id, price, ← ad.mapM checkAd⟩

def getBidResult (lib : Ngx) (bidRsp : Rsp) : Lua BidResult := do
  let bidResult ← lib.decode bidRsp.body
  unless bidResult.isTable do throw (.error "invalid bid response")
  let _id ← stringField "id" "invalid field bid" (some bidResult)
  let cm ← numberField "cm" "invalid field cm" (some bidResult)
  match ← field "bid" (some bidResult) with
  | none | some (.bool false) => return ⟨[], cm⟩
  | some (.table bid _) => return ⟨← bid.mapM checkBid, cm⟩
  | some _ => throw (.error "invalid field bid")

def getFloorPrice (d : Dict) (auction_type : AuctionType) (adUnitId : Str) : Lua (Option ℚ) :=
  if auction_type = .preferredDeal then .ok (some 0)
  else do getLowestPrice d (← getPublisher d adUnitId)

def keep (d : Dict) (auction_type : AuctionType) (dspId : Str) (bid : AdBid) :
    Lua (Option (Bid (List Ad))) := do
  match ← getFloorPrice d auction_type bid.id with
  | some floor =>
    keepAtLeast floor (fun ad => isValidCreative d auction_type dspId ad.id) dspId bid.price bid.ad
  | none => throw .badCompare

/-- `mobile_rtb.lua`'s copy of the extraction. -/
def rtb (c : Ctx) : Copy AdBid (List Ad) where
  getBidResult rsp := do
    let bidResult ← getBidResult c.lib rsp
    return ⟨bidResult.bid, bidResult.cm = (1 : ℚ)⟩
  id := AdBid.id
  keep := keep c.dict c.auction_type
  logDspRsp dspId bid := logCreatives c.dict dspId (bid.ad.map Ad.id)
  cmUrl := fillCmUrlList c.lib .pc

def extractAdBid (c : Ctx) (bidRspList : List Rsp) (dspIdList cmUrlList : List Str) :
    Lua (Extracted (List Ad)) :=
  (rtb c).extractAdBid bidRspList dspIdList cmUrlList

def selectWinner (d : Dict) (auction_type : AuctionType) (o : Order) (draw : Draw)
    (adUnitId : Str) (bidInfo : List (Bid (List Ad))) : Lua (Winner (List Ad)) :=
  auction o draw (getFloorPrice d auction_type adUnitId) bidInfo

lemma checkBid_ok {v : Val} {bid : AdBid} (h : checkBid v = .ok bid) :
    ∀ q : ℚ, bid.price = q → IsDouble q := by
  obtain ⟨_, -, h⟩ := bind_ok.mp h
  obtain ⟨price, hprice, h⟩ := bind_ok.mp h
  obtain ⟨_, -, h⟩ := bind_ok.mp h
  obtain ⟨_, -, h⟩ := bind_ok.mp h
  cases h
  exact numberField_ok hprice

/-- The prices of a checked body are doubles. -/
lemma price_isDouble {c : Ctx} {bid : AdBid} (h : (rtb c).Reads bid) :
    ∀ q : ℚ, bid.price = q → IsDouble q := by
  obtain ⟨bidRsp, result, h, hbid⟩ := h
  obtain ⟨bidResult, hresult, h⟩ := bind_ok.mp h
  cases h
  obtain ⟨_, -, hresult⟩ := bind_ok.mp hresult
  dsimp only at hresult
  split at hresult
  · obtain ⟨_, -, hresult⟩ := bind_ok.mp hresult
    obtain ⟨_, -, hresult⟩ := bind_ok.mp hresult
    obtain ⟨_, -, hresult⟩ := bind_ok.mp hresult
    split at hresult
    · cases hresult
      cases hbid
    · cases hresult
      cases hbid
    · obtain ⟨l, hl, hresult⟩ := bind_ok.mp hresult
      cases hresult
      obtain ⟨v, -, hv⟩ := mapM_mem hl hbid
      exact checkBid_ok hv
    · cases hresult
  · cases hresult

/-! ### `buildBidReq` of `mobile_rtb.lua` -/

/-- The fields of the mobile request that a bid request carries on. -/
structure AdReq where
  client : Str
  ip : Str
  device_platform : Str
  device_type : Str
  carrier : Str
  device_id : Str
  size_map : Tbl Str

/-- An element of `body.imp`, with its `banner`. -/
structure Imp where
  id : Str
  bidfloor : Option ℚ
  type : Option Str
  w : Option Val
  h : Option Val
  num : Option ℤ

structure BidBody where
  id : Str
  imp : List Imp
  auction_type : AuctionType
  app_name : Str
  ip : Str
  os : Option Val
  devicetype : Option Val
  connectiontype : Option Val
  user_id : Str

def Imp.val (imp : Imp) : Val :=
  .fields [("id", some (.str imp.id)), ("bidfloor", imp.bidfloor.map .num),
    ("banner", some (.fields [("type", imp.type.map .str), ("w", imp.w), ("h", imp.h),
      ("num", imp.num.map fun n => .num n)]))]

/-- The table that is encoded. -/
def BidBody.val (body : BidBody) : Val :=
  .fields [("id", some (.str body.id)), ("imp", some (.arr (body.imp.map Imp.val))),
    ("at", some (.num body.auction_type.code)),
    ("app", some (.fields [("name", some (.str body.app_name)), ("cat", some (.str []))])),
    ("device", some (.fields [("ip", some (.str body.ip)), ("os", body.os),
      ("devicetype", body.devicetype), ("connectiontype", body.connectiontype)])),
    ("user", some (.fields [("id", some (.str body.user_id))]))]

structure BidReq where
  body : BidBody
  url : Option Str

def asterisk : UInt8 := 42

def imp (c : Ctx) (adReq : AdReq) (adUnitId : Str) : Lua Imp := do
  let bidfloor ← getFloorPrice c.dict c.auction_type adUnitId
  let type ← getDisplayType c.dict adUnitId
  let size := split asterisk ((adReq.size_map.get adUnitId).getD [])
  let num ← getAdNum c.dict adUnitId
  return ⟨adUnitId, bidfloor, type, size[0]?.bind c.lib.number, size[1]?.bind c.lib.number, num⟩

/-- The Sina DSP is sent no URL. -/
def bidUrl (d : Dict) (dspId : Str) : Lua (Option Str) := do
  if dspId = SINA_DSP_ID then return none
  let url ← getRTBUrl d dspId
  if dspId = DSP_ID_IPINYOU then
    match url with
    | some url => return some (url ++ lit "/app")
    | none => throw .badConcat
  return url

def bidReq (c : Ctx) (adReq : AdReq) (dspId : Str) (adUnitList : List Str) :
    Lua (Str × BidReq) := do
  let imp ← adUnitList.mapM (imp c adReq)
  let body : BidBody := ⟨c.bid, imp, c.auction_type, adReq.client, adReq.ip,
    c.lib.number adReq.device_platform, c.lib.number adReq.device_type, c.lib.number adReq.carrier,
    adReq.device_id⟩
  let _ ← c.lib.encode body.val
  return (dspId, ⟨body, ← bidUrl c.dict dspId⟩)

/-- `bidReqList` and `dspIdList`, side by side. -/
def buildBidReq (c : Ctx) (adReq : AdReq) (o : Order) (dspBidList : Tbl (List Str)) :
    Lua (List (Str × BidReq)) :=
  (o.pairs dspBidList).mapM fun e => bidReq c adReq e.1 e.2

end Sax.MobileRtb
