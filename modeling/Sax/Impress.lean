import Sax.SinaQuery
import Sax.Qps

/-!
Serving an ad request: `newImpress` and `wapImpress` of `impress.lua`.

Five stages fill the ad units one after the other: the Sina ad engine, the preferred deals, the
open auction, the network ads and the bottom ads. They share the pending list and the creative
list. What the parties answer and what is drawn is given with the request.
-/

namespace Sax.Impress

open Sax.LuaVal Sax.Loop Sax.Const Sax.Runtime Sax.Store Sax.Extract Sax.WebRtb Sax.SinaQuery
open Sax.BidRsp (Ctx AdReq)
open Sax.Qps (QpsInfo checkDspQps)

/-- What a phase of bidding meets: the counters of the DSPs, the bid id, the orders and draws,
and the response of each DSP. -/
structure PhaseInput where
  order : Order
  qpsList : Tbl QpsInfo
  bid : Str
  uuid : Str
  draw : Str → Draw
  rsp : Str → Rsp

/-- A request with all it meets. -/
structure Request where
  lib : Ngx
  dict : Dict
  adReq : AdReq
  sina : Rsp
  preDeal : PhaseInput
  openAuction : PhaseInput
  networkDraw : Str → Draw
  bottomDraw : Str → ℕ → Draw

def Request.ctx (x : Request) (auction_type : AuctionType) (input : PhaseInput) : Ctx :=
  ⟨x.lib, x.dict, x.adReq, auction_type, input.bid, input.uuid⟩

/-! ### `getAdData` and the query lists -/

/-- `flag`: the ad unit, its publisher and its resource are present and not invalid. -/
def isServed (d : Dict) (adUnitId : Str) : Lua Bool := do
  if !(← isValid d.adunit adUnitId) then return false
  if (← getAttribute d.adunit adUnitId AdUnit.status) = some OBJECT_STATUS_INVALID then return false
  match ← getPublisher d adUnitId with
  | none => throw .badConcat
  | some publisherId =>
    match d.publisher publisherId with
    | none => return false
    | some publisher =>
      if publisher.status = OBJECT_STATUS_INVALID then return false
      match d.resource publisher.resource with
      | none => return false
      | some resource => return resource.status ≠ OBJECT_STATUS_INVALID

/-- The list `adPendList` of the ad units served. -/
def getAdData (d : Dict) (adUnitIdList : List Str) : Lua (List Str) :=
  adUnitIdList.foldlM (fun adPendList adUnitId => do
    return if ← isServed d adUnitId then adPendList ++ [adUnitId] else adPendList) []

def getSinaQueryList (d : Dict) (adPendList : List Str) : Lua (List Str) :=
  adPendList.foldlM (fun sinaQueryList adUnitId => do
    let resourceId ← getResource d (← getPublisher d adUnitId)
    return if (← getFlag d resourceId) = some OBJECT_FLAG_SET then sinaQueryList ++ [adUnitId]
      else sinaQueryList) []

/-- One DSP of the whitelist of an ad unit. -/
def queryDsp (d : Dict) (adUnitId : Str) (dspQueryList : Tbl (List Str)) (dspId : Str) :
    Lua (Tbl (List Str)) := do
  if !(← isValid d.dsp dspId) then return dspQueryList
  return if (← getDspStatus d dspId) = some OBJECT_STATUS_VALID then dspQueryList.push dspId adUnitId
    else dspQueryList

/-- One ad unit of the loop of `getDspQueryList`. -/
def queryUnit (d : Dict) (dspQueryList : Tbl (List Str)) (adUnitId : Str) :
    Lua (Tbl (List Str)) := do
  let resourceId ← getResource d (← getPublisher d adUnitId)
  match ← getWhiteDspList d resourceId with
  | none => throw .badArgument
  | some dspIdList => dspIdList.foldlM (queryDsp d adUnitId) dspQueryList

def getDspQueryList (d : Dict) (input : PhaseInput) (adPendList : List Str) :
    Lua (Tbl (List Str)) := do
  let dspQueryList ← adPendList.foldlM (queryUnit d) ∅
  checkDspQps input.order input.qpsList dspQueryList

def getPreDealQueryList (input : PhaseInput) (s : Page) : Lua (Tbl (List Str)) :=
  checkDspQps input.order input.qpsList s.preDealQueryList

/-! ### Network and bottom ads -/

/-- The network ads of a unit that may be shown, with the URLs of their networks. -/
def validNetworkAds (d : Dict) (networkAdList : List NetworkAd) : Lua (List (NetworkAd × Str)) :=
  networkAdList.foldlM (fun validAdList networkAd => do
    match ← getInfoSD d.network networkAd.id with
    | some network =>
      return if network.status = OBJECT_STATUS_VALID ∧ networkAd.weight > 0 then
        validAdList ++ [(networkAd, network.url)] else validAdList
    | none => return validAdList) []

/-- The ad the number `i` falls on, each having as many numbers as its weight. -/
def choose (i : ℚ) : List (NetworkAd × Str) → Option (NetworkAd × Str)
  | [] => none
  | e :: rest => if i ≤ e.1.weight then some e else choose (Double.sub i e.1.weight) rest

/-- `math.random(1, total)` of LuaJIT, which is `math.floor(d * total) + 1` for a `d` below 1, also
where the total is below 1. -/
def random (draw : Draw) (total : ℚ) : ℚ :=
  if total < Double.huge then Double.double (draw.pick 1 ⌈total⌉₊) else Double.huge

/-- The ad that a number between 1 and the sum of the weights falls on. -/
def drawNetworkAd (draw : Draw) (validAdList : List (NetworkAd × Str)) :
    Option (NetworkAd × Str) :=
  if validAdList = [] then none
  else
    let total := (validAdList.map fun e => e.1.weight).foldl Double.add 0
    choose (random draw total) validAdList

/-- The network ad an ad unit is given, if any. -/
def networkAd (d : Dict) (draw : Draw) (adUnitId : Str) : Lua (Option (NetworkAd × Str)) := do
  match ← getNetworkList d adUnitId with
  | none => throw .badArgument
  | some networkAdList => return drawNetworkAd draw (← validNetworkAds d networkAdList)

/-- The content of a network ad. -/
def networkContent (lib : Ngx) (d : Dict) (publisherType : PublisherType) (adUnitId : Str)
    (e : NetworkAd × Str) : Lua Val := do
  let rest := [("link", .empty), ("pv", .empty), ("monitor", .empty)]
  match publisherType with
  | .pc =>
    match ← getSize d adUnitId with
    | none => throw .badArgument
    | some size =>
      let wdht := split 42 size
      let args := [(lit "w", wdht[0]?), (lit "h", wdht[1]?)].filterMap fun a => a.2.map (a.1, ·)
      return .obj ([("src", .strs [e.2 ++ e.1.pid ++ lit "&" ++ lib.encode_args args]),
        ("type", .strs [lit "url"])] ++ rest)
  | .wap =>
    let type := if e.1.id = ANMO_NETWORK_ID then [lit "anmo_js", lit "id"]
      else if e.1.id = BAIDU_NETWORK_ID then [lit "baidu_js", lit "id"] else []
    return .obj ([("src", .strs [e.2, e.1.pid]), ("type", .strs type)] ++ rest)

/-- One ad unit of the loop of `fillNetworkAd`. -/
def fillNetwork (x : Request) (s : Page) (adUnitId : Str) : Lua Page := do
  if used s.adCreativeList adUnitId = 0 then
    match ← networkAd x.dict (x.networkDraw adUnitId) adUnitId with
    | some e =>
      let temp ← networkContent x.lib x.dict x.adReq.publisherType adUnitId e
      return { s with
        adCreativeList := s.adCreativeList.insert adUnitId [temp]
        adPendList := removeAdFromPendList s.adPendList adUnitId }
    | none => return s
  else return s

def fillNetworkAd (x : Request) (s : Page) : Lua Page := s.adPendList.foldlM (fillNetwork x) s

/-- `bottomAdList[i]` and `bottomAdList[j]` change places. -/
def swap (l : List Val) (i j : ℕ) : List Val :=
  match l[i]?, l[j]? with
  | some a, some b => (l.set i b).set j a
  | _, _ => l

/-- The loop that shuffles the bottom ads. -/
def shuffle (draw : ℕ → Draw) (l : List Val) : List Val :=
  (List.range l.length).foldl (fun t i => swap t i ((draw i).pick (i + 1) l.length - 1)) l

/-- The content `bottomAdList[i % size + 1]`, with the id a WAP page shows. -/
def bottomContent (lib : Ngx) (publisherType : PublisherType) (bottomAdList : List Val) (i : ℕ) :
    Lua Val := do
  match bottomAdList[i % bottomAdList.length]? with
  | none => throw .badArgument
  | some content =>
    match publisherType with
    | .wap =>
      let src ← item 1 (← field "src" (some content))
      -- `ngx.md5` takes `nil` for the empty text
      let text ← if src.isNone then pure [] else checkString lib.tostring src
      setField "adId" (some (.str (lib.md5 text))) content
    | .pc => return content

/-- One ad unit of the loop of `fillBottomAd`. -/
def fillBottom (x : Request) (s : Page) (adUnitId : Str) : Lua Page := do
  match ← getNadList x.dict adUnitId with
  | none => throw .badLength
  | some nad =>
    if nad.length ≠ 0 then
      let bottomAdList := shuffle (x.bottomDraw adUnitId) nad
      let left ← getLeftAdNum x.dict adUnitId s.adCreativeList
      let contents ← (List.range left.toNat).mapM
        (bottomContent x.lib x.adReq.publisherType bottomAdList)
      return { s with
        adCreativeList := fill s.adCreativeList adUnitId contents
        adPendList := removeAdFromPendList s.adPendList adUnitId }
    else return s

def fillBottomAd (x : Request) (s : Page) : Lua Page := s.adPendList.foldlM (fillBottom x) s

/-! ### The response -/

/-- An element of `adRsp.ad`. -/
structure Ad where
  id : Str
  type : Option Str
  size : Option Str
  content : List Val

/-- The response, with the cookie mapping URLs. -/
structure AdRsp where
  ad : List Ad
  cm : List Str

/-- The key and its value, where there is one. -/
def present (k : String) (v : Option Val) : List (String × Val) := (v.map fun v => (k, v)).toList

def Ad.val (ad : Ad) : Val :=
  .obj ([("id", .str ad.id)] ++ present "type" (ad.type.map .str) ++ present "size" (ad.size.map .str)
    ++ [("content", .arr ad.content)])

/-- The table that is encoded, with the URLs under the key `k`. -/
def AdRsp.val (k : String) (rsp : AdRsp) : Val :=
  .obj [("ad", .arr (rsp.ad.map Ad.val)), (k, .strs rsp.cm)]

/-- An element of the response, from the contents `content` makes of those filled in. -/
def adOf (d : Dict) (adCreativeList : Creatives) (content : Val → Lua Val) (adUnitId : Str) :
    Lua Ad := do
  let type ← getDisplayType d adUnitId
  let size ← getSize d adUnitId
  return ⟨adUnitId, type, size, ← ((adCreativeList.get adUnitId).getD []).mapM content⟩

def buildNewAdRsp (x : Request) (adCreativeList : Creatives) (cmUrlList : List Str) :
    Lua AdRsp := do
  let ad ← x.adReq.adUnitIdList.mapM (adOf x.dict adCreativeList .ok)
  let _ ← x.lib.encode (AdRsp.val "mapUrl" ⟨ad, cmUrlList⟩)
  return ⟨ad, cmUrlList⟩

def parseWapContentType (contentTypeList : Option Val) : Lua Str := do
  let first ← item 1 contentTypeList
  let second ← item 2 contentTypeList
  let n ← len contentTypeList
  let is (a : String) (v : Option Val) : Bool := v = some (.str (lit a))
  let typeStr := if is "text" first ∧ n = 1 then lit "text" else []
  let typeStr := if is "text" first ∧ is "text" second then lit "text" else typeStr
  let typeStr := if is "text" first ∧ is "image" second then lit "image_text" else typeStr
  let typeStr := if is "image" first ∧ is "alt" second then lit "image" else typeStr
  let typeStr := if is "js" first ∧ n = 1 then lit "rich_media" else typeStr
  let typeStr := if is "baidu_js" first ∧ is "id" second then lit "baidu_network" else typeStr
  return if is "anmo_js" first ∧ is "id" second then lit "anmo_network" else typeStr

/-- What a WAP page gets of a content. -/
def wapContent (content : Val) : Lua Val := do
  let src ← field "src" (some content)
  let type ← parseWapContentType (← field "type" (some content))
  let pv ← field "pv" (some content)
  let adId ← field "adId" (some content)
  let link ← field "link" (some content)
  let ad_id := if adId = some (.bool false) then .str [] else adId.getD (.str [])
  return .obj (present "src" src ++ [("type", .str type)] ++ present "pv" pv
    ++ [("ad_id", ad_id)] ++ present "link" link)

def buildWapAdRsp (x : Request) (adCreativeList : Creatives) (cmUrlList : List Str) :
    Lua AdRsp := do
  let ad ← x.adReq.adUnitIdList.mapM (adOf x.dict adCreativeList wapContent)
  let _ ← x.lib.encode (AdRsp.val "cm" ⟨ad, cmUrlList⟩)
  return ⟨ad, cmUrlList⟩

/-! ### The stages -/

/-- After the Sina ad engine was asked, if any ad unit is to ask it. -/
def querySina (x : Request) (valid : List Str) : Lua Page := do
  let sinaQueryList ← getSinaQueryList x.dict valid
  if sinaQueryList ≠ [] then handleQueryRsp x.lib x.dict x.sina ⟨valid, ∅, ∅⟩
  else return ⟨valid, ∅, ∅⟩

/-- What a phase of bidding leaves: who won, and the lists. -/
structure Stage where
  winners : List (Str × Win)
  page : Page
  cmUrlList : List Str

/-- A phase of bidding, if any DSP is to be asked. -/
def launch (x : Request) (auction_type : AuctionType) (input : PhaseInput)
    (query : Tbl (List Str)) (s : Page) (cmUrlList : List Str) : Lua Stage :=
  if !query.entries.isEmpty then do
    let out ← launchRtbForDsp (x.ctx auction_type input) input.order input.draw input.rsp query
      s.adPendList s.adCreativeList cmUrlList
    return ⟨out.winners, ⟨out.adPendList, out.adCreativeList, s.preDealQueryList⟩, out.cmUrlList⟩
  else .ok ⟨[], s, cmUrlList⟩

/-- The network ads, where they are filled in. -/
def networkStage (x : Request) (network : Bool) (s : Page) : Lua Page :=
  if network then fillNetworkAd x s else .ok s

/-- The pages a request goes through. -/
structure Stages where
  valid : List Str
  sina : Page
  preDealQuery : Tbl (List Str)
  preDeal : Stage
  openQuery : Tbl (List Str)
  openAuction : Stage
  network : Page
  bottom : Page

/-- The stages; `network` says whether network ads are filled in. -/
def stages (x : Request) (network : Bool) : Lua Stages := do
  let valid ← getAdData x.dict x.adReq.adUnitIdList
  let sina ← querySina x valid
  let preDealQuery ← getPreDealQueryList x.preDeal sina
  let preDeal ← launch x .preferredDeal x.preDeal preDealQuery sina []
  let openQuery ← getDspQueryList x.dict x.openAuction preDeal.page.adPendList
  let openAuction ← launch x .openAuction x.openAuction openQuery preDeal.page preDeal.cmUrlList
  let networkPage ← networkStage x network openAuction.page
  let bottom ← fillBottomAd x networkPage
  return ⟨valid, sina, preDealQuery, preDeal, openQuery, openAuction, networkPage, bottom⟩

/-- A request as `parseAdReq` leaves it. -/
def Request.pc (x : Request) : Request :=
  { x with adReq := { x.adReq with publisherType := .pc, version := [] } }

/-- A request as `parseWapAdReq` leaves it. -/
def Request.wap (x : Request) : Request :=
  { x with adReq := { x.adReq with publisherType := .wap } }

def newImpress (x : Request) : Lua (Stages × AdRsp) := do
  let s ← stages x.pc true
  return (s, ← buildNewAdRsp x.pc s.bottom.adCreativeList s.openAuction.cmUrlList)

def wapImpress (x : Request) : Lua (Stages × AdRsp) := do
  let s ← stages x.wap (x.adReq.version = lit "vt4")
  return (s, ← buildWapAdRsp x.wap s.bottom.adCreativeList s.openAuction.cmUrlList)

/-! ### What a run has gone through -/

section runs

variable {x : Request} {network : Bool} {st : Stages} {rsp : AdRsp}

/-- Every stage went through and left what the record says. -/
structure Ran (x : Request) (network : Bool) (st : Stages) : Prop where
  valid : getAdData x.dict x.adReq.adUnitIdList = .ok st.valid
  sina : querySina x st.valid = .ok st.sina
  preDealQuery : getPreDealQueryList x.preDeal st.sina = .ok st.preDealQuery
  preDeal : launch x .preferredDeal x.preDeal st.preDealQuery st.sina [] = .ok st.preDeal
  openQuery : getDspQueryList x.dict x.openAuction st.preDeal.page.adPendList = .ok st.openQuery
  openAuction : launch x .openAuction x.openAuction st.openQuery st.preDeal.page
    st.preDeal.cmUrlList = .ok st.openAuction
  network : networkStage x network st.openAuction.page = .ok st.network
  bottom : fillBottomAd x st.network = .ok st.bottom

lemma stages_ran (h : stages x network = .ok st) : Ran x network st := by
  obtain ⟨valid, hvalid, h⟩ := bind_ok.mp h
  obtain ⟨sina, hsina, h⟩ := bind_ok.mp h
  obtain ⟨preDealQuery, hdealQuery, h⟩ := bind_ok.mp h
  obtain ⟨preDeal, hdeal, h⟩ := bind_ok.mp h
  obtain ⟨openQuery, hopenQuery, h⟩ := bind_ok.mp h
  obtain ⟨openAuction, hopen, h⟩ := bind_ok.mp h
  obtain ⟨networkPage, hnetwork, h⟩ := bind_ok.mp h
  obtain ⟨bottom, hbottom, h⟩ := bind_ok.mp h
  cases h
  exact ⟨hvalid, hsina, hdealQuery, hdeal, hopenQuery, hopen, hnetwork, hbottom⟩

lemma newImpress_ok (h : newImpress x = .ok (st, rsp)) : stages x.pc true = .ok st ∧
    buildNewAdRsp x.pc st.bottom.adCreativeList st.openAuction.cmUrlList = .ok rsp := by
  obtain ⟨st', hst, h⟩ := bind_ok.mp h
  obtain ⟨rsp', hrsp, h⟩ := bind_ok.mp h
  cases h
  exact ⟨hst, hrsp⟩

lemma wapImpress_ok (h : wapImpress x = .ok (st, rsp)) :
    stages x.wap (x.adReq.version = lit "vt4") = .ok st ∧
      buildWapAdRsp x.wap st.bottom.adCreativeList st.openAuction.cmUrlList = .ok rsp := by
  obtain ⟨st', hst, h⟩ := bind_ok.mp h
  obtain ⟨rsp', hrsp, h⟩ := bind_ok.mp h
  cases h
  exact ⟨hst, hrsp⟩

end runs

end Sax.Impress
