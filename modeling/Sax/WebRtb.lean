import Sax.Shape

/-!
One phase of the web exchange, `launchRtbForDsp` of `rtb.lua`: build the bid requests, handle
the bid responses.

A phase is played against responses given by DSP id and draws given by ad unit.
-/

namespace Sax.WebRtb

open Sax.LuaVal Sax.Loop Sax.Const Sax.Runtime Sax.Store Sax.Auction Sax.Extract Sax.BidRsp

/-- `adCreativeList`: the contents filled in for each ad unit so far. -/
abbrev Creatives := Tbl (List Val)

/-- `adCreativeList[adUnitId] and #adCreativeList[adUnitId].content or 0` -/
def used (adCreativeList : Creatives) (adUnitId : Str) : ℕ :=
  ((adCreativeList.get adUnitId).getD []).length

/-- `t.content = t.content or {}`, then `table.insert` of each of `contents`. -/
def fill (adCreativeList : Creatives) (adUnitId : Str) (contents : List Val) : Creatives :=
  adCreativeList.insert adUnitId ((adCreativeList.get adUnitId).getD [] ++ contents)

def getLeftAdNum (d : Dict) (adUnitId : Str) (adCreativeList : Creatives) : Lua ℤ := do
  let adType ← getDisplayType d adUnitId
  let total ← if adType = some (lit "fp") then .ok (some 1) else getAdNum d adUnitId
  match total with
  | some total => return total - used adCreativeList adUnitId
  | none => throw .badArith

/-- The first occurrence leaves the list, the others stay. -/
def removeAdFromPendList (adPendList : List Str) (adUnitId : Str) : List Str :=
  adPendList.erase adUnitId

/-! ### Bid requests -/

def adSizeNo : List (String × String) :=
  [("950*90", "001"), ("300*250", "002"), ("250*230", "003"), ("640*90", "004"),
    ("300*120", "005"), ("240*120", "006"), ("340*120", "007"), ("1000*90", "008"),
    ("240*60", "009"), ("240*200", "010"), ("250*90", "011"), ("250*120", "012"),
    ("355*200", "013"), ("360*110", "014"), ("585*90", "015"), ("260*120", "016"),
    ("240*170", "017"), ("350*110", "018"), ("125*95", "019"), ("200*200", "020"),
    ("196*130", "021"), ("320*115", "022"), ("230*90", "023"), ("300*60", "024"),
    ("300*100", "025"), ("320*190", "026"), ("210*220", "027")]

def getAdSizeNo (size : Option Str) : Option Str :=
  match adSizeNo.find? fun e => some (lit e.1) = size with
  | some e => some (lit e.2)
  | none => size

/-- An element of `body.ad_unit`. -/
structure AdUnitReq where
  id : Str
  type : Option Str
  size : Option Str
  pos : Option Str
  creative_num : ℤ
  excluded_creative_category : Option (List Str)
  min_cpm_price : Option ℚ

/-- The body of a bid request; its other exclusion lists are always empty. -/
structure BidBody where
  version : Str
  bid : Str
  sid : Str
  ip : Str
  page_url : Str
  user_agent : Str
  ad_unit : List AdUnitReq

/-- What is posted to `/dsp/bid` for one DSP. -/
structure BidReq where
  body : BidBody
  url : Option Str
  hash_str : Str

/-- `util.sid` -/
def sid (lib : Ngx) (cookie : Str) : Str :=
  if cookie = [] then [] else lib.encode_base64 (lib.md5_bin cookie)

def adUnitReq (c : Ctx) (adCreativeList : Creatives) (adUnitId : Str) : Lua AdUnitReq := do
  let type ← getDisplayType c.dict adUnitId
  let size ← getSize c.dict adUnitId
  let pos ← getLocation c.dict adUnitId
  let creative_num ← getLeftAdNum c.dict adUnitId adCreativeList
  let excluded ← getAdTypeList c.dict adUnitId
  let min_cpm_price ← getAdLowestPrice c.dict c.auction_type adUnitId
  return ⟨adUnitId, type, getAdSizeNo size, pos, creative_num, excluded, min_cpm_price⟩

def bidUrl (c : Ctx) (dspId : Str) : Lua (Option Str) := do
  let url ← getRTBUrl c.dict dspId
  if dspId = SINA_DSP_ID then
    let url ← Creative.argument url
    return some (url ++ Creative.notation_ url ++ c.lib.encode_args
      [(SINA_DSP_BID_ARG_HASHCODE, c.adReq.hashCode), (SINA_DSP_BID_ARG_COOKIE, c.adReq.cookie),
        (SINA_DSP_BID_ARG_VERSION, c.adReq.version)])
  else if dspId = lit "1" ∧ c.adReq.publisherType = .wap then
    match url with
    | some url => return some (url ++ lit "/gm")
    | none => throw .badConcat
  else return url

/-- The request for one DSP. -/
def bidReq (c : Ctx) (adCreativeList : Creatives) (dspId : Str) (adUnitList : List Str) :
    Lua (Str × BidReq) := do
  let ad_unit ← adUnitList.mapM (adUnitReq c adCreativeList)
  let body := ⟨RTB_VERSION, c.bid, sid c.lib c.adReq.cookie, c.adReq.ip, c.adReq.pageUrl,
    c.adReq.userAgent, ad_unit⟩
  let url ← bidUrl c dspId
  return (dspId, ⟨body, url, if c.adReq.cookie ≠ [] then c.adReq.cookie else c.adReq.ip⟩)

/-- `bidReqList` and `dspBidList`, side by side. -/
def buildBidReq (c : Ctx) (o : Order) (queryDspList : Tbl (List Str))
    (adCreativeList : Creatives) : Lua (List (Str × BidReq)) :=
  (o.pairs queryDspList).mapM fun e => bidReq c adCreativeList e.1 e.2

/-! ### Bid responses -/

structure WinPrice where
  id : Str
  win_cpm_price : Option ℚ
  deriving DecidableEq

abbrev Win := Winner (List Creative)

/-- Logging a confirmation puts the price and the unique ids of the creatives into a text. -/
def logDspCfm (c : Ctx) (winner : Win) : Lua Unit := do
  winner.creative.forM fun creative => do
    let _ ← Creative.concatUniqueId c winner.dsp_id creative.id
  let _ ← Creative.concatNumber c.lib winner.win_cpm_price

def fillWinPriceList (c : Ctx) (adUnitId : Str) (winner : Win)
    (winPriceList : Tbl (List WinPrice)) : Lua (Tbl (List WinPrice)) := do
  let url ← getConfirmUrl c.dict winner.dsp_id
  logDspCfm c winner
  return if url ≠ some [] then
    winPriceList.push winner.dsp_id ⟨adUnitId, winner.win_cpm_price⟩ else winPriceList

def fillAdCreativeListForDsp (c : Ctx) (adUnitId : Str) (winner : Win)
    (adCreativeList : Creatives) : Lua Creatives := do
  let contents ← Creative.contents c adUnitId winner.dsp_id winner.win_cpm_price winner.creative
  return fill adCreativeList adUnitId contents

/-- What the loop over the auctions carries; `winners` records whom it selected. -/
structure Round where
  adPendList : List Str
  adCreativeList : Creatives
  winPriceList : Tbl (List WinPrice)
  winners : List (Str × Win)

/-- The auction of one ad unit. -/
def round (c : Ctx) (o : Order) (draw : Str → Draw) (s : Round)
    (e : Sigma fun _ : Str => List (Bid (List Creative))) : Lua Round := do
  let winner ← selectWinner c.dict c.auction_type o (draw e.1) e.2 e.1
  let winPriceList ← fillWinPriceList c e.1 winner s.winPriceList
  let adCreativeList ← fillAdCreativeListForDsp c e.1 winner s.adCreativeList
  let left ← getLeftAdNum c.dict e.1 adCreativeList
  return ⟨if left ≤ 0 then removeAdFromPendList s.adPendList e.1 else s.adPendList,
    adCreativeList, winPriceList, s.winners ++ [(e.1, winner)]⟩

/-- The lists a phase leaves. The prices to confirm carry the bid id under the key `bid`. -/
structure Phase where
  adPendList : List Str
  adCreativeList : Creatives
  cmUrlList : List Str
  winPriceList : Tbl (List WinPrice)
  bid : Option Str
  winners : List (Str × Win)

def handleBidRsp (c : Ctx) (o : Order) (draw : Str → Draw) (bidRspList : List Rsp)
    (adPendList dspBidList : List Str) (adCreativeList : Creatives) (cmUrlList : List Str) :
    Lua Phase := do
  let extracted ← extractAdBid c bidRspList dspBidList cmUrlList
  let s ← (o.pairs extracted.adBidList).foldlM (round c o draw) ⟨adPendList, adCreativeList, ∅, []⟩
  let sent := s.winPriceList ≠ ∅
  return ⟨s.adPendList, s.adCreativeList, extracted.cmUrlList,
    if sent then s.winPriceList.erase (lit "bid") else ∅, if sent then some c.bid else none,
    s.winners⟩

/-- A phase in which the DSP `dspId` answers `rsp dspId`. -/
def launchRtbForDsp (c : Ctx) (o : Order) (draw : Str → Draw) (rsp : Str → Rsp)
    (dspQueryList : Tbl (List Str)) (adPendList : List Str) (adCreativeList : Creatives)
    (cmUrlList : List Str) : Lua Phase := do
  let reqs ← buildBidReq c o dspQueryList adCreativeList
  handleBidRsp c o draw (reqs.map fun r => rsp r.1) adPendList (reqs.map Prod.fst)
    adCreativeList cmUrlList

end Sax.WebRtb
