import Sax.MobileRtb

/-!
The video exchange's copy of the extraction and the auction, `video_rtb.lua`.

A preferred deal's bid is kept whatever its price, with the price set to 0.
-/

namespace Sax.VideoRtb

open Sax.LuaVal Sax.Const Sax.Runtime Sax.Store Sax.Auction Sax.Extract Sax.BidRsp
open Sax.MobileRtb (Ad AdBid)
open Sax.Double (double)

structure BidResult where
  bid : List AdBid
  cm : Bool

def checkAd (ad : Val) : Lua Ad := do
  let id ← stringField "id" "invalid field ad.id" (some ad)
  return ⟨id, ← stringField "markup" "invalid field ad.markup" (some ad)⟩

def checkBid (bid : Val) : Lua AdBid := do
  let id ← stringField "id" "invalid field bid.id" (some bid)
  let price ← numberField "price" "invalid field bid.price" (some bid)
  let ad ← tableField "ad" "invalid field bid.ad" (some bid)
  if ad.length = 0 then throw (.error "invalid field bid.ad")
  return ⟨id, price, ← ad.mapM checkAd⟩

/-- `v == q` for a number `q`. -/
def isNum (q : ℚ) : Option Val → Bool
  | some (.num p) => double p = q
  | _ => false

/-- The flag `cm` is checked only in a body with bids. -/
def getBidResult (lib : Ngx) (bidRsp : Rsp) : Lua BidResult := do
  let bidResult ← lib.decode bidRsp.body
  unless bidResult.isTable do throw (.error "invalid bid response")
  let _id ← stringField "id" "invalid field rsp.id" (some bidResult)
  let cm ← field "cm" (some bidResult)
  match ← field "bid" (some bidResult) with
  | none | some (.bool false) => return ⟨[], isNum 1 cm⟩
  | some (.table bid _) =>
    let bid ← bid.mapM checkBid
    unless isNum 0 cm || isNum 1 cm do throw (.error "invalid field rsp.cm")
    return ⟨bid, isNum 1 cm⟩
  | some _ => throw (.error "invalid field rsp.bid")

/-- `pub` is `adData.pub`: the publisher of each pending ad unit. -/
def keep (d : Dict) (pub : Tbl ℤ) (auction_type : AuctionType) (dspId : Str) (bid : AdBid) :
    Lua (Option (Bid (List Ad))) := do
  let valid := fun ad : Ad => isValidCreative d auction_type dspId ad.id
  if auction_type = .preferredDeal then keepAbove valid dspId 0 bid.ad
  else
    match ← getLowestPrice d (pub.get bid.id) with
    | some bidfloor => keepAtLeast bidfloor valid dspId bid.price bid.ad
    | none => throw .badCompare

/-- `video_rtb.lua`'s copy of the extraction. -/
def rtb (c : Ctx) (pub : Tbl ℤ) : Copy AdBid (List Ad) where
  getBidResult rsp := do
    let bidResult ← getBidResult c.lib rsp
    return ⟨bidResult.bid, bidResult.cm⟩
  id := AdBid.id
  keep := keep c.dict pub c.auction_type
  logDspRsp dspId bid := logCreatives c.dict dspId (bid.ad.map Ad.id)
  cmUrl := fillCmUrlList c.lib .pc

def extractAdBid (c : Ctx) (pub : Tbl ℤ) (bidRspList : List Rsp)
    (dspBidList cmUrlList : List Str) : Lua (Extracted (List Ad)) :=
  (rtb c pub).extractAdBid bidRspList dspBidList cmUrlList

def selectWinner (d : Dict) (pub : Tbl ℤ) (auction_type : AuctionType) (o : Order)
    (draw : Draw) (adUnitId : Str) (bidInfo : List (Bid (List Ad))) : Lua (Winner (List Ad)) :=
  auction o draw
    (if auction_type = .preferredDeal then .ok (some 0) else getLowestPrice d (pub.get adUnitId))
    bidInfo

end Sax.VideoRtb
