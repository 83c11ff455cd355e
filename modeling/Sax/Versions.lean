import Sax.Caching
import Sax.Confirm

/-!
Which versions of a DSP a request reads: `newImpress` and `wapImpress` with the objects of
`adData`, while the shared dictionary is updated.

The dictionary changes only while a request waits on its subrequests. `adData.dspObj` lives as
long as the request and keeps every DSP it has read; `fillSign` makes an object of its own.
Only what reads a DSP is written anew here; a request that meets no update is the one of
`Impress` and `Confirm`.
-/

namespace Sax.Versions

open Sax.LuaVal Sax.Const Sax.Runtime Sax.Caching
open Sax.Store (Dict Dsp)
open Sax.Auction (Bid)
open Sax.Extract (Rsp)
open Sax.BidRsp (Ctx Creative)
open Sax.WebRtb (Creatives BidBody BidReq WinPrice Win Round Phase)
open Sax.SinaQuery (Page)
open Sax.Impress (PhaseInput Request Stage Stages AdRsp)
open Sax.Confirm (CfmReq)

deriving instance DecidableEq for Dsp

/-- A version of a DSP: the text stored, and the attributes it decodes to. -/
structure Version where
  text : Str
  dsp : Dsp
  deriving DecidableEq

/-- The dictionary after each wait of a request: its DSPs, and what the other objects of the
request find. -/
structure World where
  dict : ℕ → Dict
  dsp : History Str Version

/-- A part of a request. -/
abbrev Run := Caching.Run LuaError (St Str Version)

/-! ### Objects -/

section objects

variable (w : World)

/-- Waiting on subrequests. -/
def wait : Run Unit := fun s => (.ok (), s.wait)

/-- The other objects. -/
def dict : Run Dict := fun s => (.ok (w.dict s.waits), s)

/-- `dspObj:getInfoSD` -/
def getInfoSD (dspId : Str) : Run (Option Version) := fun s =>
  (.ok (s.look w.dsp dspId), s.read w.dsp dspId)

/-- `getInfoSD` of an object made by `sax.newObject`. -/
def newGetInfoSD (dspId : Str) : Run (Option Version) := fun s =>
  (.ok (w.dsp s.waits dspId), s.readFresh w.dsp dspId)

def isValid (dspId : Str) : Run Bool := return (← getInfoSD w dspId).isSome

def getAttribute {β : Type} (dspId : Str) (attr : Dsp → β) : Run (Option β) :=
  return (← getInfoSD w dspId).map fun v => attr v.dsp

def getRTBUrl (dspId : Str) : Run (Option Str) := getAttribute w dspId Dsp.bidurl
def getConfirmUrl (dspId : Str) : Run (Option Str) := getAttribute w dspId Dsp.notifyurl
def getDspStatus (dspId : Str) : Run (Option ℤ) := getAttribute w dspId Dsp.status
def getEncryptionKey (dspId : Str) : Run (Option Str) := getAttribute w dspId Dsp.encryptionkey
def getIntegrityKey (dspId : Str) : Run (Option Str) := getAttribute w dspId Dsp.integritykey

/-- `getSignKey` of a new object. -/
def newGetSignKey (dspId : Str) : Run (Option ℤ) :=
  return (← newGetInfoSD w dspId).map fun v => v.dsp.status

end objects

variable (w : World)

/-! ### The Sina ad engine -/

def isDealDsp (lib : Ngx) (dspWhiteList : Option (List Str)) : Option Val → Run Bool
  | none | some (.bool false) => return false
  | some dspId => do
    let key ← SinaQuery.gluedKey lib dspId
    if !(← isValid w key) then return false
    if (← getDspStatus w key) ≠ some OBJECT_STATUS_VALID then return false
    SinaQuery.isAllowedForPd dspWhiteList dspId

def fillCreative (lib : Ngx) (d : Dict) (id : Str) (s : Page) (creative : Val) : Run Page := do
  let content ← field "content" (some creative)
  if ← next content then
    let type ← item 1 (← field "type" content)
    if type = some (.str PREFERRED_DEAL_TYPE) then
      let dspId ← item 1 (← field "src" content)
      let publisherId ← Store.getPublisher d id
      let resourceId ← Store.getResource d publisherId
      let dspWhiteList ← Store.getPdWhiteList d resourceId
      if ← isDealDsp w lib dspWhiteList dspId then
        match dspId with
        | some (.str dspId) => return { s with preDealQueryList := s.preDealQueryList.push dspId id }
        | _ => return s
      else return s
    else
      let temp ← setField "adId" (← field "lineitemId" (some creative)) (content.getD .null)
      return { s with adCreativeList := WebRtb.fill s.adCreativeList id [temp] }
  else return s

def fillAdCreativeListForSina (lib : Ngx) (d : Dict) (id : Str) (value : List Val) (s : Page) :
    Run Page :=
  value.foldlM (fillCreative w lib d id)
    { s with adCreativeList := WebRtb.fill s.adCreativeList id [] }

def handleAd (lib : Ngx) (d : Dict) (s : Page) (ad : Val) : Run Page := do
  let value ← field "value" (some ad)
  if (← len value) ≠ 0 then
    let id ← SinaQuery.adId ad
    let s ← fillAdCreativeListForSina w lib d id (← ipairs value) s
    SinaQuery.logSinaImpress lib (← ipairs value)
    let left ← WebRtb.getLeftAdNum d id s.adCreativeList
    return if left ≤ 0 then
      { s with adPendList := WebRtb.removeAdFromPendList s.adPendList id } else s
  else return s

def handleQueryRsp (lib : Ngx) (d : Dict) (queryRsp : Rsp) (s : Page) : Run Page :=
  if SinaQuery.isValidRsp queryRsp then
    match lib.decode queryRsp.body with
    | .ok queryResult => do (← ipairs (some queryResult)).foldlM (handleAd w lib d) s
    | .error _ => return s
  else return s

def querySina (x : Request) (valid : List Str) : Run Page := do
  let sinaQueryList ← Impress.getSinaQueryList (← dict w) valid
  if sinaQueryList ≠ [] then
    wait
    handleQueryRsp w x.lib (← dict w) x.sina ⟨valid, ∅, ∅⟩
  else return ⟨valid, ∅, ∅⟩

/-! ### Bid requests -/

def queryDsp (adUnitId : Str) (dspQueryList : Tbl (List Str)) (dspId : Str) :
    Run (Tbl (List Str)) := do
  if !(← isValid w dspId) then return dspQueryList
  return if (← getDspStatus w dspId) = some OBJECT_STATUS_VALID then
    dspQueryList.push dspId adUnitId else dspQueryList

def queryUnit (d : Dict) (dspQueryList : Tbl (List Str)) (adUnitId : Str) :
    Run (Tbl (List Str)) := do
  let resourceId ← Store.getResource d (← Store.getPublisher d adUnitId)
  match ← (Store.getWhiteDspList d resourceId : Lua _) with
  | none => throw .badArgument
  | some dspIdList => dspIdList.foldlM (queryDsp w adUnitId) dspQueryList

def getDspQueryList (d : Dict) (input : PhaseInput) (adPendList : List Str) :
    Run (Tbl (List Str)) := do
  let dspQueryList ← adPendList.foldlM (queryUnit w d) ∅
  Qps.checkDspQps input.order input.qpsList dspQueryList

def bidUrl (c : Ctx) (dspId : Str) : Run (Option Str) := do
  let url ← getRTBUrl w dspId
  if dspId = SINA_DSP_ID then
    let url ← Creative.argument url
    return some (url ++ Creative.notation_ url ++ c.lib.encode_args
      [(SINA_DSP_BID_ARG_HASHCODE, c.adReq.hashCode), (SINA_DSP_BID_ARG_COOKIE, c.adReq.cookie),
        (SINA_DSP_BID_ARG_VERSION, c.adReq.version)])
  else if dspId = lit "1" ∧ c.adReq.publisherType = .wap then
    match url with
    | some url => return some (url ++ lit "/gm")
    | none => throw .badConcat
  else return url

def bidReq (c : Ctx) (adCreativeList : Creatives) (dspId : Str) (adUnitList : List Str) :
    Run (Str × BidReq) := do
  let ad_unit ← (adUnitList.mapM (WebRtb.adUnitReq c adCreativeList) : Lua _)
  let body : BidBody := ⟨RTB_VERSION, c.bid, WebRtb.sid c.lib c.adReq.cookie, c.adReq.ip,
    c.adReq.pageUrl, c.adReq.userAgent, ad_unit⟩
  let url ← bidUrl w c dspId
  return (dspId, ⟨body, url, if c.adReq.cookie ≠ [] then c.adReq.cookie else c.adReq.ip⟩)

def buildBidReq (c : Ctx) (o : Order) (queryDspList : Tbl (List Str))
    (adCreativeList : Creatives) : Run (List (Str × BidReq)) :=
  (o.pairs queryDspList).mapM fun e => bidReq w c adCreativeList e.1 e.2

/-! ### Rewriting a creative -/

def priceMsg (c : Ctx) (dspId : Str) (winCpmPrice : Option ℚ) : Run Str := do
  let eKey ← getEncryptionKey w dspId
  let iKey ← getIntegrityKey w dspId
  Creative.encryptPrice c.lib c.uuid eKey iKey winCpmPrice

def fillSign (c : Ctx) (content : Val) (dspId : Str) : Run Val := do
  let signkey ← newGetSignKey w dspId
  let link ← field "link" (some content)
  let n ← len link
  let links ← ipairs (← Creative.startLinks (n ≠ 0) link)
  let tempLink ← (links.mapM (Creative.signLink c signkey (n ≠ 0) content) : Lua _)
  setField "link" (some (.arr tempLink)) content

def alterSinaDspCreative (c : Ctx) (creative : Creative) (adUnitId dspId : Str)
    (winCpmPrice : Option ℚ) : Run Val := do
  match c.lib.decode creative.html_snippet with
  | .error _ => return .str []
  | .ok result =>
    let url ← Creative.generateClickUrl c dspId adUnitId creative.id
    let monitor ← insertLast (.str url) (← field "monitor" (some result))
    let result ← setField "monitor" (some monitor) result
    let viewUrl ← Creative.generateViewUrl c dspId adUnitId creative.id winCpmPrice
    let pv ← insertLast (.str viewUrl) (← field "pv" (some result))
    let result ← setField "pv" (some pv) result
    let first ← checkString c.lib.tostring (← item 1 (some monitor))
    let msg ← priceMsg w c dspId winCpmPrice
    let monitor ← setItem 1 (.str (first ++ Creative.notation_ first
      ++ c.lib.encode_args [(SINA_DSP_CLICK_ARG_P, msg)])) monitor
    setField "monitor" (some monitor) result

def expandMacro (c : Ctx) (creative : Creative) (adUnitId dspId : Str) (winCpmPrice : Option ℚ) :
    Run Str := do
  let url_unesc ← Creative.clickUrlUnesc c dspId adUnitId creative.id
  let url_esc := c.lib.escape_uri url_unesc
  let result := c.lib.gsub creative.html_snippet RTB_MACRO_CLICK_UNESC url_unesc
  let result := c.lib.gsub result RTB_MACRO_CLICK_ESC url_esc
  let msg := c.lib.escape_uri (← priceMsg w c dspId winCpmPrice)
  return c.lib.gsub result RTB_MACRO_WIN_PRICE msg

def alterWapDspCreative (c : Ctx) (creative : Creative) (adUnitId dspId : Str)
    (winCpmPrice : Option ℚ) : Run Val := do
  match c.lib.decode creative.html_snippet with
  | .error _ => return .str []
  | .ok result =>
    let url_unesc ← Creative.clickUrlUnesc c dspId adUnitId creative.id
    let link ← field "link" (some result)
    let result ← Creative.wapLink c.lib url_unesc (c.lib.escape_uri url_unesc) link (← len link)
      result
    let msg ← priceMsg w c dspId winCpmPrice
    let pv ← field "pv" (some result)
    let urls ← ((← ipairs pv).mapM fun pvUrl =>
      Creative.gsub c.lib (some pvUrl) RTB_MACRO_WIN_PRICE (c.lib.escape_uri msg) : Lua _)
    let viewUrl ← Creative.generateViewUrl c dspId adUnitId creative.id winCpmPrice
    let pv ← insertFirst (.str viewUrl) (pv.map fun v => v.setArr (urls.map .str))
    let result ← setField "pv" (some pv) result
    setField "monitor" (some .empty) result

def content (c : Ctx) (adUnitId dspId : Str) (winCpmPrice : Option ℚ) (creative : Creative) :
    Run Val := do
  if dspId = SINA_DSP_ID then
    fillSign w c (← alterSinaDspCreative w c creative adUnitId dspId winCpmPrice) dspId
  else
    match c.adReq.publisherType with
    | .wap => fillSign w c (← alterWapDspCreative w c creative adUnitId dspId winCpmPrice) dspId
    | .pc =>
      let src ← expandMacro w c creative adUnitId dspId winCpmPrice
      let pv ← Creative.generateViewUrl c dspId adUnitId creative.id winCpmPrice
      return .obj [("src", .strs [src]), ("type", .strs [lit "html"]), ("link", .empty),
        ("pv", .strs [pv]), ("monitor", .empty)]

def contents (c : Ctx) (adUnitId dspId : Str) (winCpmPrice : Option ℚ) (creative : List Creative) :
    Run (List Val) :=
  creative.mapM fun cr => do
    let temp ← content w c adUnitId dspId winCpmPrice cr
    let _ ← c.lib.encode temp
    return temp

/-! ### Bid responses -/

def fillWinPriceList (c : Ctx) (adUnitId : Str) (winner : Win) (winPriceList : Tbl (List WinPrice)) :
    Run (Tbl (List WinPrice)) := do
  let url ← getConfirmUrl w winner.dsp_id
  WebRtb.logDspCfm c winner
  return if url ≠ some [] then
    winPriceList.push winner.dsp_id ⟨adUnitId, winner.win_cpm_price⟩ else winPriceList

def fillAdCreativeListForDsp (c : Ctx) (adUnitId : Str) (winner : Win)
    (adCreativeList : Creatives) : Run Creatives := do
  let contents ← contents w c adUnitId winner.dsp_id winner.win_cpm_price winner.creative
  return WebRtb.fill adCreativeList adUnitId contents

def round (c : Ctx) (o : Order) (draw : Str → Draw) (s : Round)
    (e : Sigma fun _ : Str => List (Bid (List Creative))) : Run Round := do
  let winner ← BidRsp.selectWinner c.dict c.auction_type o (draw e.1) e.2 e.1
  let winPriceList ← fillWinPriceList w c e.1 winner s.winPriceList
  let adCreativeList ← fillAdCreativeListForDsp w c e.1 winner s.adCreativeList
  let left ← WebRtb.getLeftAdNum c.dict e.1 adCreativeList
  return ⟨if left ≤ 0 then WebRtb.removeAdFromPendList s.adPendList e.1 else s.adPendList,
    adCreativeList, winPriceList, s.winners ++ [(e.1, winner)]⟩

def handleBidRsp (c : Ctx) (o : Order) (draw : Str → Draw) (bidRspList : List Rsp)
    (adPendList dspBidList : List Str) (adCreativeList : Creatives) (cmUrlList : List Str) :
    Run Phase := do
  let extracted ← BidRsp.extractAdBid c bidRspList dspBidList cmUrlList
  let s ← (o.pairs extracted.adBidList).foldlM (round w c o draw) ⟨adPendList, adCreativeList, ∅, []⟩
  let sent := !s.winPriceList.entries.isEmpty
  return ⟨s.adPendList, s.adCreativeList, extracted.cmUrlList,
    if sent then s.winPriceList.erase (lit "bid") else ∅, if sent then some c.bid else none,
    s.winners⟩

/-- The bids are asked for and awaited. -/
def launchRtbForDsp (c : Ctx) (o : Order) (draw : Str → Draw) (rsp : Str → Rsp)
    (dspQueryList : Tbl (List Str)) (adPendList : List Str) (adCreativeList : Creatives)
    (cmUrlList : List Str) : Run Phase := do
  let reqs ← buildBidReq w { c with dict := ← dict w } o dspQueryList adCreativeList
  wait
  handleBidRsp w { c with dict := ← dict w } o draw (reqs.map fun r => rsp r.1) adPendList
    (reqs.map Prod.fst) adCreativeList cmUrlList

/-! ### Confirming -/

def cfmReq (x : Request) (bid dspId : Str) (priceInfo : List WinPrice) : Run (Str × CfmReq) := do
  let url ← getConfirmUrl w dspId
  return (dspId, ⟨⟨RTB_VERSION, bid, priceInfo⟩, url,
    if x.adReq.cookie ≠ [] then x.adReq.cookie else x.adReq.ip⟩)

/-- The confirmations are sent, and their answers awaited. -/
def cfmWinPrice (x : Request) (o : Order) (winPriceList : Tbl (List WinPrice)) (bid : Str) :
    Run (List (Str × CfmReq)) := do
  let reqList ← (o.pairs winPriceList).mapM fun e => cfmReq w x bid e.1 e.2
  let reqList ← Confirm.captureMulti reqList
  wait
  return reqList

def confirm (x : Request) (o : Order) : Tbl (List WinPrice) × Option Str →
    Run (List (Str × CfmReq))
  | (winPriceList, some bid) => cfmWinPrice w x o winPriceList bid
  | (_, none) => return []

/-! ### The request -/

/-- A phase of bidding, with the prices to confirm. -/
def launch (x : Request) (auction_type : AuctionType) (input : PhaseInput)
    (query : Tbl (List Str)) (s : Page) (cmUrlList : List Str) :
    Run (Stage × Tbl (List WinPrice) × Option Str) :=
  if !query.entries.isEmpty then do
    let out ← launchRtbForDsp w (x.ctx auction_type input) input.order input.draw input.rsp query
      s.adPendList s.adCreativeList cmUrlList
    return (⟨out.winners, ⟨out.adPendList, out.adCreativeList, s.preDealQueryList⟩, out.cmUrlList⟩,
      out.winPriceList, out.bid)
  else return (⟨[], s, cmUrlList⟩, ∅, none)

/-- The stages, and the prices to confirm of both phases. -/
def stages (x : Request) (network : Bool) : Run (Stages × (Tbl (List WinPrice) × Option Str) ×
    (Tbl (List WinPrice) × Option Str)) := do
  let valid ← Impress.getAdData (← dict w) x.adReq.adUnitIdList
  let sina ← querySina w x valid
  let preDealQuery ← Impress.getPreDealQueryList x.preDeal sina
  let (preDeal, preDealWinPriceList) ← launch w x .preferredDeal x.preDeal preDealQuery sina []
  let openQuery ← getDspQueryList w (← dict w) x.openAuction preDeal.page.adPendList
  let (openAuction, winPriceList) ← launch w x .openAuction x.openAuction openQuery preDeal.page
    preDeal.cmUrlList
  let x := { x with dict := ← dict w }
  let networkPage ← Impress.networkStage x network openAuction.page
  let bottom ← Impress.fillBottomAd x networkPage
  return (⟨valid, sina, preDealQuery, preDeal, openQuery, openAuction, networkPage, bottom⟩,
    preDealWinPriceList, winPriceList)

/-- The response is built, then the prices are confirmed. -/
def impress (x : Request) (network : Bool)
    (buildAdRsp : Request → Creatives → List Str → Lua AdRsp) :
    Run (Stages × AdRsp × List (Str × CfmReq) × List (Str × CfmReq)) := do
  let (s, preDealWinPriceList, winPriceList) ← stages w x network
  let rsp ← buildAdRsp { x with dict := ← dict w } s.bottom.adCreativeList s.openAuction.cmUrlList
  let preDealReqs ← confirm w x x.preDeal.order preDealWinPriceList
  return (s, rsp, preDealReqs, ← confirm w x x.openAuction.order winPriceList)

def newImpress (x : Request) :
    Run (Stages × AdRsp × List (Str × CfmReq) × List (Str × CfmReq)) :=
  impress w x.pc true Impress.buildNewAdRsp

def wapImpress (x : Request) :
    Run (Stages × AdRsp × List (Str × CfmReq) × List (Str × CfmReq)) :=
  impress w x.wap (x.adReq.version = lit "vt4") Impress.buildWapAdRsp

/-- The reads of DSPs in a run of a request. -/
def reads {α : Type} (p : Run α) : List (Read Str Version) := (p.play .start).2.reads

/-! ### What a request does to its objects -/

/-- No update meets the request: its objects find what is in `d`. -/
def Still (w : World) (d : Dict) : Prop :=
  (∀ n, w.dict n = d) ∧ ∀ n dspId, (w.dsp n dspId).map Version.dsp = d.dsp dspId

/-- A part of a request keeps its reads in order, and does what it does to one dictionary if no
update meets it; `keys` are the DSPs that were read since the last wait. -/
abbrev Tracks {α : Type} (w : World) (d : Dict) (keys : List Str) (p : Run α) (q : Lua α) : Prop :=
  Follows (Still w d) (Safe w.dsp keys) p q

section tracks

variable {w : World} {d : Dict} {keys : List Str} {dspId : Str} {α β : Type}

lemma look_still {s : St Str Version} (hw : Still w d) (hs : Sound w.dsp s) (dspId : Str) :
    (s.look w.dsp dspId).map Version.dsp = d.dsp dspId := by
  rw [St.look]
  cases hkept : s.kept dspId with
  | none => rw [Option.none_or, hw.2]
  | some v =>
    obtain ⟨f, -, hstore⟩ := hs.kept _ _ hkept
    rw [Option.some_or, ← hw.2 f.waits, hstore]

/-- After `dspObj` has read a DSP, that DSP may be read by another object. -/
lemma getInfoSD_tracks {f : Option Version → Run β} {g : Option Dsp → Lua β}
    (h : ∀ v, Tracks w d (dspId :: keys) (f v) (g (v.map Version.dsp))) :
    Tracks w d keys (getInfoSD w dspId >>= f) (Store.getInfoSD d.dsp dspId >>= g) := by
  intro s hs
  rw [Caching.Run.play_bind]
  have hplay : (getInfoSD w dspId).play s = (.ok (s.look w.dsp dspId), s.read w.dsp dspId) := rfl
  rw [hplay, Store.getInfoSD_eq]
  obtain ⟨hsafe, hout⟩ := h (s.look w.dsp dspId) _ (hs.read dspId)
  refine ⟨hsafe.tail, fun hw => ?_⟩
  rw [hout hw, look_still hw hs.1]
  rfl

lemma newGetInfoSD_tracks {f : Option Version → Run β} {g : Option Dsp → Lua β}
    (hkey : dspId ∈ keys) (h : ∀ v, Tracks w d keys (f v) (g (v.map Version.dsp))) :
    Tracks w d keys (newGetInfoSD w dspId >>= f) (Store.getInfoSD d.dsp dspId >>= g) := by
  intro s hs
  rw [Caching.Run.play_bind]
  have hplay : (newGetInfoSD w dspId).play s =
      (.ok (w.dsp s.waits dspId), s.readFresh w.dsp dspId) := rfl
  rw [hplay, Store.getInfoSD_eq]
  obtain ⟨hsafe, hout⟩ := h (w.dsp s.waits dspId) _ (hs.readFresh hkey)
  refine ⟨hsafe, fun hw => ?_⟩
  rw [hout hw, hw.2]
  rfl

lemma dict_tracks {f : Dict → Run β} {g : Dict → Lua β} (h : ∀ d, Tracks w d keys (f d) (g d)) :
    ∀ d, Tracks w d keys (dict w >>= f) (g d) := by
  intro d s hs
  have hplay : (dict w >>= f).play s = (f (w.dict s.waits)).play s := by
    rw [Caching.Run.play_bind]
    rfl
  rw [hplay]
  obtain ⟨hsafe, hout⟩ := h (w.dict s.waits) s hs
  refine ⟨hsafe, fun hw => ?_⟩
  rw [hw.1 s.waits] at hout ⊢
  exact hout hw

lemma wait_tracks {f : Unit → Run β} {q : Lua β} (h : Tracks w d [] (f ()) q) :
    Tracks w d [] (wait >>= f) q := by
  intro s hs
  have hplay : (wait >>= f).play s = (f ()).play s.wait := by
    rw [Caching.Run.play_bind]
    rfl
  rw [hplay]
  exact h s.wait hs.wait


lemma isValid_tracks : Tracks w d keys (isValid w dspId) (Store.isValid d.dsp dspId) :=
  getInfoSD_tracks fun v => by
    rw [Option.isSome_map]
    exact follows_pure _

lemma getAttribute_tracks (attr : Dsp → β) :
    Tracks w d keys (getAttribute w dspId attr) (Store.getAttribute d.dsp dspId attr) :=
  getInfoSD_tracks fun v => by
    rw [Option.map_map]
    exact follows_pure _

lemma newGetSignKey_tracks (hkey : dspId ∈ keys) :
    Tracks w d keys (newGetSignKey w dspId) (Store.getSignKey d dspId) :=
  newGetInfoSD_tracks hkey fun v => by
    rw [Option.map_map]
    exact follows_pure _

/-! The Sina ad engine. -/

variable {lib : Ngx} {id : Str}

lemma isDealDsp_tracks (dspWhiteList : Option (List Str)) (v : Option Val) :
    Tracks w d keys (isDealDsp w lib dspWhiteList v) (SinaQuery.isDealDsp lib d dspWhiteList v) := by
  have hkey : ∀ (v : Val) (key : Str), Tracks w d keys (do
      if !(← isValid w key) then return false
      if (← getDspStatus w key) ≠ some OBJECT_STATUS_VALID then return false
      SinaQuery.isAllowedForPd dspWhiteList v) (do
      if !(← Store.isValid d.dsp key) then return false
      if (← Store.getDspStatus d key) ≠ some OBJECT_STATUS_VALID then return false
      SinaQuery.isAllowedForPd dspWhiteList v) := by
    intro v key
    refine isValid_tracks.bind fun valid => follows_ite (fun _ => follows_pure _) fun _ => ?_
    refine (getAttribute_tracks _).bind fun status => ?_
    exact follows_ite (fun _ => follows_pure _) fun _ => follows_lift _
  rcases v with _ | v
  · exact follows_pure _
  · cases v with
    | bool b =>
      cases b with
      | false => exact follows_pure _
      | true => exact follows_lift_bind (hkey _)
    | _ => exact follows_lift_bind (hkey _)

lemma fillCreative_tracks (s : Page) (creative : Val) :
    Tracks w d keys (fillCreative w lib d id s creative)
      (SinaQuery.fillCreative lib d id s creative) := by
  refine follows_lift_bind fun content => follows_lift_bind fun b => ?_
  refine follows_ite (fun _ => ?_) fun _ => follows_pure _
  refine follows_lift_bind fun _ => follows_lift_bind fun type => ?_
  refine follows_ite (fun _ => ?_) fun _ => ?_
  · refine follows_lift_bind fun _ => follows_lift_bind fun v => follows_lift_bind fun _ =>
      follows_lift_bind fun _ => follows_lift_bind fun dspWhiteList => ?_
    refine (isDealDsp_tracks dspWhiteList v).bind fun deal => ?_
    refine follows_ite (fun _ => ?_) fun _ => follows_pure _
    rcases v with _ | v
    · exact follows_pure _
    · cases v <;> exact follows_pure _
  · exact follows_lift_bind fun _ => follows_lift_bind fun _ => follows_pure _

lemma handleAd_tracks (s : Page) (ad : Val) :
    Tracks w d keys (handleAd w lib d s ad) (SinaQuery.handleAd lib d s ad) := by
  refine follows_lift_bind fun value => follows_lift_bind fun n => ?_
  refine follows_ite (fun _ => ?_) fun _ => follows_pure _
  refine follows_lift_bind fun id => follows_lift_bind fun creatives => ?_
  refine (follows_foldlM fillCreative_tracks _ _).bind fun t => ?_
  exact follows_lift_bind fun _ => follows_lift_bind fun _ => follows_lift_bind fun _ =>
    follows_pure _

lemma handleQueryRsp_tracks (queryRsp : Rsp) (s : Page) :
    Tracks w d keys (handleQueryRsp w lib d queryRsp s)
      (SinaQuery.handleQueryRsp lib d queryRsp s) := by
  refine follows_ite (fun _ => ?_) fun _ => follows_pure _
  cases lib.decode queryRsp.body with
  | ok queryResult => exact follows_lift_bind fun ads => follows_foldlM handleAd_tracks ads s
  | error e => exact follows_pure _

lemma querySina_tracks (d : Dict) (x : Request) (valid : List Str) :
    Tracks w d [] (querySina w x valid) (Impress.querySina { x with dict := d } valid) := by
  revert d
  refine dict_tracks fun d => follows_lift_bind fun sinaQueryList => ?_
  refine follows_ite (fun _ => wait_tracks ?_) fun _ => follows_pure _
  revert d
  exact dict_tracks fun d => handleQueryRsp_tracks _ _

/-! Bid requests. -/

lemma queryDsp_tracks (adUnitId : Str) (dspQueryList : Tbl (List Str)) (dspId : Str) :
    Tracks w d keys (queryDsp w adUnitId dspQueryList dspId)
      (Impress.queryDsp d adUnitId dspQueryList dspId) := by
  refine isValid_tracks.bind fun valid => follows_ite (fun _ => follows_pure _) fun _ => ?_
  exact (getAttribute_tracks _).bind fun status => follows_pure _

lemma queryUnit_tracks (dspQueryList : Tbl (List Str)) (adUnitId : Str) :
    Tracks w d keys (queryUnit w d dspQueryList adUnitId)
      (Impress.queryUnit d dspQueryList adUnitId) := by
  refine follows_lift_bind fun _ => follows_lift_bind fun _ => follows_lift_bind fun list => ?_
  cases list with
  | none => exact follows_throw _
  | some dspIdList => exact follows_foldlM (queryDsp_tracks adUnitId) dspIdList _

lemma getDspQueryList_tracks (input : PhaseInput) (adPendList : List Str) :
    Tracks w d keys (getDspQueryList w d input adPendList)
      (Impress.getDspQueryList d input adPendList) :=
  (follows_foldlM queryUnit_tracks adPendList ∅).bind fun _ => follows_lift _

variable {c : Ctx}

lemma bidUrl_tracks (dspId : Str) :
    Tracks w c.dict keys (bidUrl w c dspId) (WebRtb.bidUrl c dspId) := by
  refine (getAttribute_tracks _).bind fun url => ?_
  refine follows_ite (fun _ => follows_lift_bind fun _ => follows_pure _) fun _ => ?_
  refine follows_ite (fun _ => ?_) fun _ => follows_pure _
  cases url with
  | none => exact follows_throw _
  | some url => exact follows_pure _

lemma bidReq_tracks (adCreativeList : Creatives) (dspId : Str) (adUnitList : List Str) :
    Tracks w c.dict keys (bidReq w c adCreativeList dspId adUnitList)
      (WebRtb.bidReq c adCreativeList dspId adUnitList) := by
  unfold bidReq WebRtb.bidReq
  exact follows_lift_bind fun _ => (bidUrl_tracks dspId).bind fun _ => follows_pure _

lemma buildBidReq_tracks (o : Order) (queryDspList : Tbl (List Str)) (adCreativeList : Creatives) :
    Tracks w c.dict keys (buildBidReq w c o queryDspList adCreativeList)
      (WebRtb.buildBidReq c o queryDspList adCreativeList) := by
  unfold buildBidReq WebRtb.buildBidReq
  refine follows_mapM (fun e => ?_) _
  exact bidReq_tracks adCreativeList e.1 e.2

/-! Creatives. A content is signed after `dspObj` has read its DSP. -/

variable {adUnitId : Str} {winCpmPrice : Option ℚ}

lemma priceMsg_tracks : Tracks w c.dict keys (priceMsg w c dspId winCpmPrice)
    (Creative.priceMsg c dspId winCpmPrice) :=
  (getAttribute_tracks _).bind fun _ => (getAttribute_tracks _).bind fun _ => follows_lift _

lemma fillSign_tracks (hkey : dspId ∈ keys) (content : Val) :
    Tracks w c.dict keys (fillSign w c content dspId) (Creative.fillSign c content dspId) :=
  (newGetSignKey_tracks hkey).bind fun _ => follows_lift_bind fun _ => follows_lift_bind fun _ =>
    follows_lift_bind fun _ => follows_lift_bind fun _ => follows_lift_bind fun _ => follows_lift _

lemma alterSinaDspCreative_tracks (creative : Creative) :
    Tracks w c.dict keys (alterSinaDspCreative w c creative adUnitId dspId winCpmPrice)
      (Creative.alterSinaDspCreative c creative adUnitId dspId winCpmPrice) := by
  unfold alterSinaDspCreative Creative.alterSinaDspCreative
  cases c.lib.decode creative.html_snippet with
  | error e => exact follows_pure _
  | ok result =>
    refine follows_lift_bind fun _ => follows_lift_bind fun _ => follows_lift_bind fun _ =>
      follows_lift_bind fun _ => follows_lift_bind fun _ => follows_lift_bind fun _ =>
      follows_lift_bind fun _ => follows_lift_bind fun _ => follows_lift_bind fun _ =>
      follows_lift_bind fun _ => ?_
    exact priceMsg_tracks.bind fun _ => follows_lift_bind fun _ => follows_lift _

lemma expandMacro_tracks (creative : Creative) :
    Tracks w c.dict keys (expandMacro w c creative adUnitId dspId winCpmPrice)
      (Creative.expandMacro c creative adUnitId dspId winCpmPrice) :=
  follows_lift_bind fun _ => priceMsg_tracks.bind fun _ => follows_pure _

lemma alterWapDspCreative_tracks (creative : Creative) :
    Tracks w c.dict keys (alterWapDspCreative w c creative adUnitId dspId winCpmPrice)
      (Creative.alterWapDspCreative c creative adUnitId dspId winCpmPrice) := by
  unfold alterWapDspCreative Creative.alterWapDspCreative
  cases c.lib.decode creative.html_snippet with
  | error e => exact follows_pure _
  | ok result =>
    refine follows_lift_bind fun _ => follows_lift_bind fun _ => follows_lift_bind fun _ =>
      follows_lift_bind fun _ => priceMsg_tracks.bind fun _ => ?_
    exact follows_lift_bind fun _ => follows_lift_bind fun _ => follows_lift_bind fun _ =>
      follows_lift_bind fun _ => follows_lift_bind fun _ => follows_lift_bind fun _ =>
      follows_lift _

lemma content_tracks (hkey : dspId ∈ keys) (creative : Creative) :
    Tracks w c.dict keys (content w c adUnitId dspId winCpmPrice creative)
      (Creative.content c adUnitId dspId winCpmPrice creative) := by
  refine follows_ite (fun _ => ?_) fun _ => ?_
  · exact (alterSinaDspCreative_tracks creative).bind fun _ => fillSign_tracks hkey _
  · cases c.adReq.publisherType with
    | wap => exact (alterWapDspCreative_tracks creative).bind fun _ => fillSign_tracks hkey _
    | pc =>
      exact (expandMacro_tracks creative).bind fun _ => follows_lift_bind fun _ => follows_pure _

lemma fillAdCreativeListForDsp_tracks {winner : Win} (hkey : winner.dsp_id ∈ keys)
    (adCreativeList : Creatives) :
    Tracks w c.dict keys (fillAdCreativeListForDsp w c adUnitId winner adCreativeList)
      (WebRtb.fillAdCreativeListForDsp c adUnitId winner adCreativeList) :=
  (follows_mapM (fun cr => (content_tracks hkey cr).bind fun _ => follows_lift_bind fun _ =>
    follows_pure _) winner.creative).bind fun _ => follows_pure _

/-! Bid responses. -/

/-- The confirm URL of a winner is asked for before its contents are filled in. -/
lemma round_tracks (o : Order) (draw : Str → Draw) (s : Round)
    (e : Sigma fun _ : Str => List (Bid (List Creative))) :
    Tracks w c.dict keys (round w c o draw s e) (WebRtb.round c o draw s e) := by
  unfold round WebRtb.round fillWinPriceList WebRtb.fillWinPriceList getConfirmUrl
    Store.getConfirmUrl getAttribute Store.getAttribute
  refine follows_lift_bind fun winner => ?_
  simp only [bind_assoc, pure_bind]
  refine getInfoSD_tracks fun v => ?_
  rw [Option.map_map]
  refine follows_lift_bind fun _ => ?_
  refine (fillAdCreativeListForDsp_tracks List.mem_cons_self _).bind fun _ => ?_
  exact follows_lift_bind fun _ => follows_pure _

lemma handleBidRsp_tracks (o : Order) (draw : Str → Draw) (bidRspList : List Rsp)
    (adPendList dspBidList : List Str) (adCreativeList : Creatives) (cmUrlList : List Str) :
    Tracks w c.dict keys
      (handleBidRsp w c o draw bidRspList adPendList dspBidList adCreativeList cmUrlList)
      (WebRtb.handleBidRsp c o draw bidRspList adPendList dspBidList adCreativeList cmUrlList) := by
  refine follows_lift_bind fun _ => (follows_foldlM (round_tracks o draw) _ _).bind fun s => ?_
  have hsent : (s.winPriceList ≠ ∅) = ((!s.winPriceList.entries.isEmpty) = true) := by
    simp [AList.ext_iff]
  simp only [hsent]
  exact follows_pure _

lemma launchRtbForDsp_tracks (d : Dict) (c : Ctx) (o : Order) (draw : Str → Draw) (rsp : Str → Rsp)
    (dspQueryList : Tbl (List Str)) (adPendList : List Str) (adCreativeList : Creatives)
    (cmUrlList : List Str) :
    Tracks w d []
      (launchRtbForDsp w c o draw rsp dspQueryList adPendList adCreativeList cmUrlList)
      (WebRtb.launchRtbForDsp { c with dict := d } o draw rsp dspQueryList adPendList
        adCreativeList cmUrlList) := by
  revert d
  refine dict_tracks fun d => ?_
  refine (buildBidReq_tracks (c := { c with dict := d }) o dspQueryList adCreativeList).bind
    fun reqs => wait_tracks ?_
  revert d
  exact dict_tracks fun d => handleBidRsp_tracks (c := { c with dict := d }) o draw _ _ _ _ _

/-! The request. -/

lemma cfmWinPrice_tracks (x : Request) (o : Order) (winPriceList : Tbl (List WinPrice))
    (bid : Str) : Tracks w d [] (cfmWinPrice w x o winPriceList bid)
      (Confirm.cfmWinPrice { x with dict := d } o winPriceList bid) := by
  have hreq : ∀ e : Sigma fun _ : Str => List WinPrice, Tracks w d [] (cfmReq w x bid e.1 e.2)
      (Confirm.cfmReq { x with dict := d } bid e.1 e.2) :=
    fun e => (getAttribute_tracks _).bind fun url => follows_pure _
  refine (follows_mapM hreq _).bind fun reqList => ?_
  have hsent := follows_lift_bind (A := Still w d) (I := Safe w.dsp [])
    (q := Confirm.captureMulti reqList) fun l => wait_tracks (f := fun _ => pure l) (follows_pure l)
  rwa [bind_pure] at hsent

lemma confirm_tracks (x : Request) (o : Order) (p : Tbl (List WinPrice) × Option Str) :
    Tracks w d [] (confirm w x o p) (Confirm.confirm { x with dict := d } o p) := by
  obtain ⟨winPriceList, _ | bid⟩ := p
  · exact follows_pure _
  · exact cfmWinPrice_tracks x o winPriceList bid

/-- What `Impress` and `Confirm` take from a phase. -/
def phase (x : Request) (auction_type : AuctionType) (input : PhaseInput) (query : Tbl (List Str))
    (s : Page) (cmUrlList : List Str) : Lua (Stage × Tbl (List WinPrice) × Option Str) := do
  let st ← Impress.launch x auction_type input query s cmUrlList
  return (st, ← Confirm.winPrices x auction_type input query s cmUrlList)

lemma launch_tracks (x : Request) (auction_type : AuctionType) (input : PhaseInput)
    (query : Tbl (List Str)) (s : Page) (cmUrlList : List Str) :
    Tracks w d [] (launch w x auction_type input query s cmUrlList)
      (phase { x with dict := d } auction_type input query s cmUrlList) := by
  unfold launch phase Impress.launch Confirm.winPrices
  by_cases hasks : (!query.entries.isEmpty) = true
  · rw [if_pos hasks, if_pos hasks, if_pos hasks]
    have hout := (launchRtbForDsp_tracks (w := w) d (x.ctx auction_type input) input.order
      input.draw input.rsp query s.adPendList s.adCreativeList cmUrlList).bind fun out =>
      follows_pure (A := Still w d) (I := Safe w.dsp []) ((⟨out.winners,
        ⟨out.adPendList, out.adCreativeList, s.preDealQueryList⟩, out.cmUrlList⟩ : Stage),
        out.winPriceList, out.bid)
    convert hout using 1
    change _ = (WebRtb.launchRtbForDsp (Request.ctx { x with dict := d } auction_type input) _ _ _ _ _ _ _ >>= _)
    cases WebRtb.launchRtbForDsp (Request.ctx { x with dict := d } auction_type input) input.order
      input.draw input.rsp query s.adPendList s.adCreativeList cmUrlList <;> rfl
  · rw [if_neg hasks, if_neg hasks, if_neg hasks]
    exact follows_pure _

/-- The stages, with the prices to confirm of both phases. -/
def pricedStages (x : Request) (network : Bool) : Lua (Stages ×
    (Tbl (List WinPrice) × Option Str) × (Tbl (List WinPrice) × Option Str)) := do
  let valid ← Impress.getAdData x.dict x.adReq.adUnitIdList
  let sina ← Impress.querySina x valid
  let preDealQuery ← Impress.getPreDealQueryList x.preDeal sina
  let (preDeal, preDealWinPriceList) ← phase x .preferredDeal x.preDeal preDealQuery sina []
  let openQuery ← Impress.getDspQueryList x.dict x.openAuction preDeal.page.adPendList
  let (openAuction, winPriceList) ← phase x .openAuction x.openAuction openQuery preDeal.page
    preDeal.cmUrlList
  let networkPage ← Impress.networkStage x network openAuction.page
  let bottom ← Impress.fillBottomAd x networkPage
  return (⟨valid, sina, preDealQuery, preDeal, openQuery, openAuction, networkPage, bottom⟩,
    preDealWinPriceList, winPriceList)

lemma stages_tracks (d : Dict) (x : Request) (network : Bool) :
    Tracks w d [] (stages w x network) (pricedStages { x with dict := d } network) := by
  revert d
  refine dict_tracks fun d => ?_
  refine follows_lift_bind fun valid => (querySina_tracks d x valid).bind fun sina =>
    follows_lift_bind fun preDealQuery => ?_
  refine (launch_tracks x .preferredDeal x.preDeal preDealQuery sina []).bind fun preDeal => ?_
  revert d
  refine dict_tracks fun d => (getDspQueryList_tracks x.openAuction _).bind fun openQuery => ?_
  refine (launch_tracks x .openAuction x.openAuction openQuery preDeal.1.page _).bind
    fun openAuction => ?_
  revert d
  refine dict_tracks fun d => ?_
  exact follows_lift_bind fun networkPage => follows_lift_bind fun bottom => follows_pure _

/-- A request that meets one dictionary. -/
def impressOnce (x : Request) (network : Bool)
    (buildAdRsp : Request → Creatives → List Str → Lua AdRsp) :
    Lua (Stages × AdRsp × List (Str × CfmReq) × List (Str × CfmReq)) := do
  let (s, preDealWinPriceList, winPriceList) ← pricedStages x network
  let rsp ← buildAdRsp x s.bottom.adCreativeList s.openAuction.cmUrlList
  let preDealReqs ← Confirm.confirm x x.preDeal.order preDealWinPriceList
  return (s, rsp, preDealReqs, ← Confirm.confirm x x.openAuction.order winPriceList)

lemma impress_tracks (d : Dict) (x : Request) (network : Bool)
    (buildAdRsp : Request → Creatives → List Str → Lua AdRsp) :
    Tracks w d [] (impress w x network buildAdRsp)
      (impressOnce { x with dict := d } network buildAdRsp) := by
  refine (stages_tracks d x network).bind fun ⟨s, preDealWinPriceList, winPriceList⟩ => ?_
  revert d
  refine dict_tracks fun d => follows_lift_bind fun rsp => (confirm_tracks x _ _).bind
    fun preDealReqs => ?_
  exact (confirm_tracks x _ _).bind fun reqs => follows_pure _

end tracks

/-! ### A request that meets no update -/

section still

variable {x : Request} {auction_type : AuctionType} {input : PhaseInput} {query : Tbl (List Str)}
  {s : Page} {cmUrlList : List Str} {st : Stage}

lemma winPrices_of_launch (h : Impress.launch x auction_type input query s cmUrlList = .ok st) :
    ∃ p, Confirm.winPrices x auction_type input query s cmUrlList = .ok p := by
  unfold Impress.launch at h
  unfold Confirm.winPrices
  split at h
  · next hasks =>
    obtain ⟨out, hout, -⟩ := Loop.bind_ok.mp h
    exact ⟨_, by rw [if_pos hasks, hout]; rfl⟩
  · next hasks => exact ⟨_, if_neg hasks⟩

/-- The prices of both phases may be taken from the stages, as `Confirm` does. -/
lemma pricedStages_eq (x : Request) (network : Bool) : pricedStages x network = do
    let st ← Impress.stages x network
    let preDealWinPriceList ← Confirm.winPrices x .preferredDeal x.preDeal st.preDealQuery st.sina []
    let winPriceList ← Confirm.winPrices x .openAuction x.openAuction st.openQuery st.preDeal.page
      st.preDeal.cmUrlList
    return (st, preDealWinPriceList, winPriceList) := by
  unfold pricedStages Impress.stages phase
  simp only [bind_assoc, pure_bind]
  refine bind_congr fun valid => bind_congr fun sina => bind_congr fun preDealQuery => ?_
  cases hdeal : Impress.launch x .preferredDeal x.preDeal preDealQuery sina [] with
  | error e => rfl
  | ok preDeal =>
    obtain ⟨p, hp⟩ := winPrices_of_launch hdeal
    simp only [Loop.ok_bind, hp]
    refine bind_congr fun openQuery => ?_
    cases hopen : Impress.launch x .openAuction x.openAuction openQuery preDeal.page
        preDeal.cmUrlList with
    | error e => rfl
    | ok openAuction =>
      obtain ⟨p', hp'⟩ := winPrices_of_launch hopen
      simp only [Loop.ok_bind, hp']

lemma winPrices_of_stages {network : Bool} {st : Stages} (h : Impress.stages x network = .ok st) :
    (∃ p, Confirm.winPrices x .preferredDeal x.preDeal st.preDealQuery st.sina [] = .ok p) ∧
      ∃ p, Confirm.winPrices x .openAuction x.openAuction st.openQuery st.preDeal.page
        st.preDeal.cmUrlList = .ok p := by
  have hran := Impress.stages_ran h
  exact ⟨winPrices_of_launch hran.preDeal, winPrices_of_launch hran.openAuction⟩

lemma impressOnce_eq (x : Request) (network : Bool)
    (buildAdRsp : Request → Creatives → List Str → Lua AdRsp) :
    impressOnce x network buildAdRsp = do
      let st ← Impress.stages x network
      let rsp ← buildAdRsp x st.bottom.adCreativeList st.openAuction.cmUrlList
      let reqs ← Confirm.confirms x st
      return (st, rsp, reqs.1, reqs.2) := by
  unfold impressOnce
  rw [pricedStages_eq]
  cases hst : Impress.stages x network with
  | error e => rfl
  | ok st =>
    obtain ⟨⟨p, hp⟩, p', hp'⟩ := winPrices_of_stages hst
    simp only [Confirm.confirms, Loop.ok_bind, hp, hp', bind_assoc, pure_bind]

lemma impress_still {w : World} (hw : Still w x.dict) (network : Bool)
    (buildAdRsp : Request → Creatives → List Str → Lua AdRsp) :
    ((impress w x network buildAdRsp).play .start).1 = do
      let st ← Impress.stages x network
      let rsp ← buildAdRsp x st.bottom.adCreativeList st.openAuction.cmUrlList
      let reqs ← Confirm.confirms x st
      return (st, rsp, reqs.1, reqs.2) := by
  rw [((impress_tracks x.dict x network buildAdRsp) .start safe_start).2 hw]
  exact impressOnce_eq x network buildAdRsp

/-- **A request that meets no update is the one that sees one dictionary**, up to what it answers
and what it confirms. -/
theorem newImpress_still (w : World) (x : Request) (hw : Still w x.dict) :
    ((newImpress w x).play .start).1 = do
      let r ← Impress.newImpress x
      let reqs ← Confirm.confirms x.pc r.1
      return (r.1, r.2, reqs.1, reqs.2) := by
  rw [newImpress, impress_still (x := x.pc) hw, Impress.newImpress]
  simp only [bind_assoc, pure_bind]

theorem wapImpress_still (w : World) (x : Request) (hw : Still w x.dict) :
    ((wapImpress w x).play .start).1 = do
      let r ← Impress.wapImpress x
      let reqs ← Confirm.confirms x.wap r.1
      return (r.1, r.2, reqs.1, reqs.2) := by
  rw [wapImpress, impress_still (x := x.wap) hw, Impress.wapImpress]
  simp only [bind_assoc, pure_bind]

end still

/-- **A run reads one version of each DSP exactly if, whenever `fillSign` reads a DSP, what is stored
is what was stored when the run first found the DSP**, or the DSP is stored no more. -/
theorem one_version_iff (w : World) (x : Request) :
    (OneVersion (reads (newImpress w x)) ↔ Current w.dsp (reads (newImpress w x))) ∧
      (OneVersion (reads (wapImpress w x)) ↔ Current w.dsp (reads (wapImpress w x))) :=
  ⟨oneVersion_iff ((impress_tracks x.dict x.pc _ _) .start safe_start).1.1,
    oneVersion_iff ((impress_tracks x.dict x.wap _ _) .start safe_start).1.1⟩

section samples

/-- A content with one link. -/
def linkText : String := "\x7b\"monitor\":[],\"pv\":[],\"link\":[\"http://l\"]\x7d"

def linkQuoted : String :=
  "\x7b\\\"monitor\\\":[],\\\"pv\\\":[],\\\"link\\\":[\\\"http://l\\\"]\x7d"

def linkContent : Val :=
  .obj [("monitor", .empty), ("pv", .empty), ("link", .strs [lit "http://l"])]

/-- A bid of the DSP of Sina for `U`. -/
def bidText : String :=
  "\x7b\"version\":\"1.0\",\"bid\":\"b\",\"ad_creative\":[\x7b\"id\":\"U\",\"max_cpm_price\":3," ++
    "\"creative\":[\x7b\"id\":\"c\",\"html_snippet\":\"" ++ linkQuoted ++ "\"\x7d]\x7d]," ++
    "\"cm_flag\":\"false\"\x7d"

def bidBody : Val :=
  .obj [("version", .str (lit "1.0")), ("bid", .str (lit "b")),
    ("ad_creative", .arr [.obj [("id", .str (lit "U")), ("max_cpm_price", .num 3),
      ("creative", .arr [.obj [("id", .str (lit "c")), ("html_snippet", .str (lit linkText))]])]]),
    ("cm_flag", .str (lit "false"))]

/-- The DSP of Sina, valid and no longer so. -/
def sinaDsp (status : ℤ) : Version :=
  ⟨lit "[17,null,\"r\",\"http://b/bid\",\"\",1,5,\"e\",\"i\"," ++ decimal status ++ lit ",\"k\"]",
    ⟨lit "http://b/bid", [], lit "e", lit "i", status, lit "k"⟩⟩

/-- `U` is bid for by the DSP of Sina. -/
def sinaDict : Dict := .ofLists
  [("U", ⟨lit "300*250", [], 1, 1, 1, [], lit "fp", [], []⟩)] [(1, ⟨1, 1, 1⟩)]
  [(1, ⟨0, [lit "17"], 1, []⟩)] [("17", (sinaDsp 1).dsp)] [] []

/-- The DSP is disabled while its bid is awaited. -/
def disabling : World where
  dict _ := sinaDict
  dsp n dspId := if dspId = SINA_DSP_ID then some (sinaDsp (if n = 0 then 1 else 0)) else none

def sinaInput : PhaseInput where
  order := .plain
  qpsList := (∅ : Tbl Qps.QpsInfo).insert SINA_DSP_ID ⟨10, some 1⟩
  bid := lit "b"
  uuid := lit "0123456789abcdef"
  draw := fun _ => .least
  rsp := fun _ => ⟨200, lit bidText⟩

def sinaRequest : Request where
  lib := .ofTexts [(bidText, bidBody), (linkText, linkContent)]
  dict := sinaDict
  adReq := Clearing.sampleReq
  sina := ⟨500, []⟩
  preDeal := sinaInput
  openAuction := sinaInput
  networkDraw := fun _ => .least
  bottomDraw := fun _ _ => .least

/-- The bid URL is read of the DSP while it is valid, and the key its link is signed with after it
was disabled. -/
theorem two_versions_read :
    ¬ OneVersion (reads (newImpress disabling sinaRequest)) ∧
      ¬ OneVersion (reads (wapImpress disabling sinaRequest)) := by
  decide +kernel

end samples

end Sax.Versions
