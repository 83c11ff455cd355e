import Sax.Served
import Sax.View

/-!
Serving a request of a video player: `video.lua` and the bid requests of `video_rtb.lua`.

Three parties fill the ad units one after the other: the Sina ad engine, the preferred deals and
the open auction. Each adds to what it finds; an ad unit whose Sina answer has a creative without a
source, or one of a preferred deal, is cleared and stays pending.
-/

namespace Sax.Video

open Sax.LuaVal Sax.Loop Sax.Const Sax.Runtime Sax.Store Sax.Extract Sax.Placement Sax.Served Sax.Uri
open Sax.BidRsp (Ctx)
open Sax.Impress (PhaseInput queryDsp)
open Sax.MobileRtb (Ad AdBid asterisk)
open Sax.Qps (checkDspQps)
open Sax.SinaQuery (Page isDealDsp adsOf first queueOf)
open Sax.Slots (Win Parser)
open Sax.View (getArg getCookie)
open Sax.WebRtb (Creatives)

def VIDEO_LENGTH_TYPE_SHORT : Str := lit "short"
def VIDEO_LENGTH_TYPE_MEDIUM : Str := lit "medium"
def VIDEO_LENGTH_TYPE_LONG : Str := lit "long"
def VIDEO_LENGTH_THRESH_SHORT : ℚ := 45001
def VIDEO_LENGTH_THRESH_LONG : ℚ := 300000

/-! ### `parseAdReq` and `getAdData` -/

/-- What `parser.lua` reads of a request; `user_id` is the `uid` of the cookie `sup`. -/
structure Head extends View.Request where
  http_x_forwarded_for : Option Str
  http_user_agent : Option Str
  user_id : Str

def getIp (head : Head) : Str :=
  let ip := getArg head.toRequest "tgip"
  if ip = [] then head.http_x_forwarded_for.getD [] else ip

/-- The name of a function the response is handed to, or none. -/
def getCallbackFunc (head : Head) : Str :=
  let callbackFunc := getArg head.toRequest "callback"
  let allowed (c : UInt8) : Bool := (48 ≤ c && c ≤ 57) || (65 ≤ c && c ≤ 90) ||
    (97 ≤ c && c ≤ 122) || c = 46 || c = 95
  if callbackFunc ≠ [] ∧ callbackFunc.all allowed then callbackFunc else []

/-- The fields that only go on to the Sina ad engine, with the argument each comes from. -/
def passedOn : List (String × String) :=
  [("site", "site"), ("hostname", "hostname"), ("client", "client"), ("vid", "vid"),
    ("movietvid", "movietvid"), ("subid", "subid"), ("srcid", "srcid"), ("v_cha", "v_cha"),
    ("v_sub", "v_sub"), ("v_sports1", "v_sports1"), ("v_sports2", "v_sports2"),
    ("v_sports3", "v_sports3"), ("v_sports4", "v_sports4"), ("room", "room"),
    ("liveid", "liveid"), ("media_tags", "media_tags"), ("live_tags", "live_tags"),
    ("pageUrl", "page_url")]

structure AdReq where
  position : Str
  rotateCount : Str
  length : Str
  sports1 : Str
  ip : Str
  cookie : Str
  userId : Str
  pageUrl : Str
  hashCode : Str
  ua : Str
  sid : Str
  adUnitIdList : List Str
  passed : List (String × Str)
  istest : Bool

def parseAdReq (lib : Ngx) (head : Head) : AdReq :=
  let text (name : String) : Str := unescape_uri (getArg head.toRequest name)
  let position := getArg head.toRequest "pos"
  let ip := getIp head
  let cookie := getCookie head.toRequest
  { position
    rotateCount := getArg head.toRequest "rotate_count"
    length := getArg head.toRequest "v_length"
    sports1 := text "v_sports1"
    ip, cookie
    userId := head.user_id
    pageUrl := text "page_url"
    hashCode := lib.md5 (ip ++ cookie ++ getArg head.toRequest "timestamp")
    ua := head.http_user_agent.getD []
    sid := WebRtb.sid lib cookie
    adUnitIdList := split comma position
    passed := passedOn.map fun e => (e.1, text e.2)
    istest := (ClickSign.arg (lit "istest") head.args).isSome }

/-- The publisher and the resource of an ad unit, where all three are present and not invalid. -/
def isValid (d : Dict) (adUnitId : Str) : Lua (Option (ℤ × ℤ)) := do
  if !(← Store.isValid d.adunit adUnitId) then return none
  if (← getAttribute d.adunit adUnitId AdUnit.status) = some OBJECT_STATUS_INVALID then return none
  match ← getPublisher d adUnitId with
  | none => return none
  | some pubId =>
    match d.publisher pubId with
    | none => return none
    | some publisher =>
      if publisher.status = OBJECT_STATUS_INVALID then return none
      match d.resource publisher.resource with
      | none => return none
      | some resource =>
        return if resource.status = OBJECT_STATUS_INVALID then none
          else some (pubId, publisher.resource)

/-- The pending ad units, with the publisher and the resource of each. -/
structure AdData where
  adPendList : List Str
  pub : Tbl ℤ
  res : Tbl ℤ

/-- One ad unit of the loop of `getAdData`. -/
def addUnit (d : Dict) (s : AdData) (adUnitId : Str) : Lua AdData := do
  match ← isValid d adUnitId with
  | some (pubId, resId) =>
    return ⟨s.adPendList ++ [adUnitId], s.pub.insert adUnitId pubId, s.res.insert adUnitId resId⟩
  | none => return s

def getAdData (d : Dict) (adUnitIdList : List Str) : Lua AdData :=
  adUnitIdList.foldlM (addUnit d) ⟨[], ∅, ∅⟩

/-! ### The Sina ad engine -/

def getSinaAdList (d : Dict) (adData : AdData) : Lua (List Str) :=
  adData.adPendList.filterM fun adUnitId => do
    return (← getFlag d (adData.res.get adUnitId)) = some OBJECT_FLAG_SET

/-- What is posted to the Sina ad engine. -/
structure VideoReq where
  body : Str
  hash_str : Str

def hashStr (adReq : AdReq) : Str := if adReq.cookie ≠ [] then adReq.cookie else adReq.ip

/-- `v_length`: the class of a length. -/
def lengthType (lib : Ngx) (length : Str) : Str :=
  match lib.tonumber length with
  | none => []
  | some len =>
    if len < VIDEO_LENGTH_THRESH_SHORT then VIDEO_LENGTH_TYPE_SHORT
    else if len > VIDEO_LENGTH_THRESH_LONG then VIDEO_LENGTH_TYPE_LONG
    else VIDEO_LENGTH_TYPE_MEDIUM

def buildVideoReq (lib : Ngx) (adReq : AdReq) (position : Str) : Lua VideoReq := do
  let body := [("adunitId", position), ("rotation", adReq.rotateCount), ("length", adReq.length),
    ("v_length", lengthType lib adReq.length), ("ip", adReq.ip), ("cookieId", adReq.cookie),
    ("userId", adReq.userId), ("hashCode", adReq.hashCode)] ++ adReq.passed
  let jsonStr ← lib.encode (.obj (body.map fun e => (e.1, .str e.2)))
  return ⟨jsonStr, hashStr adReq⟩

/-- The first loop of `fillAdCreativeListForSina`. -/
def fillContents (value : List Val) (contents : List Val) : Lua (List Val) :=
  value.foldlM (fun contents creative => do
    return contents ++ (← field "content" (some creative)).toList) contents

/-- `not src or #src == 0` -/
def isEmptySrc : Option Val → Lua Bool
  | none | some (.bool false) => .ok true
  | some src => return (← len (some src)) = 0

/-- The second loop, which ends at the first creative that has no source or is one of a preferred
deal; the flag says whether it met none. -/
def checkCreatives (lib : Ngx) (d : Dict) (res : Tbl ℤ) (id : Str) :
    List Val → Page → Lua (Page × Bool)
  | [], s => .ok (s, true)
  | creative :: rest, s => do
    let cleared := { s with adCreativeList := s.adCreativeList.erase id }
    let content ← field "content" (some creative)
    let src ← field "src" content
    if ← isEmptySrc src then return (cleared, false)
    else
      let type ← item 1 (← field "type" content)
      if type = some (.str PREFERRED_DEAL_TYPE) then
        let dspId ← item 1 src
        let dspWhiteList ← getPdWhiteList d (res.get id)
        if ← isDealDsp lib d dspWhiteList dspId then
          match dspId with
          | some (.str dspId) =>
            return ({ cleared with preDealQueryList := s.preDealQueryList.push dspId id }, false)
          | _ => return (cleared, false)
        else return (cleared, false)
      else checkCreatives lib d res id rest s

def fillAdCreativeListForSina (lib : Ngx) (d : Dict) (res : Tbl ℤ) (id : Str) (value : List Val)
    (s : Page) : Lua (Page × Bool) := do
  let contents ← fillContents value ((s.adCreativeList.get id).getD [])
  checkCreatives lib d res id value
    { s with adCreativeList := s.adCreativeList.insert id contents }

def handleVideoRsp (lib : Ngx) (d : Dict) (res : Tbl ℤ) : Rsp → Page → Lua Page :=
  handleQueryRsp (fillAdCreativeListForSina lib d res) lib

/-! ### Bid requests -/

/-- An element of `body.imp`. -/
structure Imp where
  id : Str
  bidfloor : Option ℚ
  w : Option Val
  h : Option Val

structure BidBody where
  id : Str
  auction_type : AuctionType
  imp : List Imp
  ip : Str
  ua : Str
  page : Str
  channel : Str
  len : Option Val
  user_id : Option Str
  istest : ℤ

/-- The durations, the protocol and the type of a video are fixed. -/
def Imp.val (imp : Imp) : Val :=
  .fields [("id", some (.str imp.id)), ("bidfloor", imp.bidfloor.map .num),
    ("video", some (.fields [("minduration", some (.num 15)), ("maxduration", some (.num 15)),
      ("mimes", some (.strs [lit "video/x-flv"])), ("protocol", some (.num 3)),
      ("linearity", some (.num 1)), ("w", imp.w), ("h", imp.h)]))]

/-- The table that is encoded. -/
def BidBody.val (body : BidBody) : Val :=
  .fields [("id", some (.str body.id)), ("at", some (.num body.auction_type.code)),
    ("imp", some (.arr (body.imp.map Imp.val))),
    ("device", some (.fields [("ip", some (.str body.ip)), ("ua", some (.str body.ua))])),
    ("site", some (.fields [("page", some (.str body.page)),
      ("content", some (.fields [("channel", some (.str body.channel)), ("len", body.len)]))])),
    ("user", body.user_id.map fun id => .fields [("id", some (.str id))]),
    ("istest", some (.num body.istest))]

structure BidReq where
  body : BidBody
  url : Option Str
  hash_str : Str

def imp (c : Ctx) (pub : Tbl ℤ) (adUnitId : Str) : Lua Imp := do
  let bidfloor ← if c.auction_type = .preferredDeal then .ok (some 0)
    else getLowestPrice c.dict (pub.get adUnitId)
  let size ← Creative.argument (← getSize c.dict adUnitId)
  let wdht := split asterisk size
  return ⟨adUnitId, bidfloor, wdht[0]?.bind c.lib.number, wdht[1]?.bind c.lib.number⟩

/-- `floor(len / 1000)`; what is not finite stays as it is. -/
def seconds : Val → Val
  | .num len => if Double.Finite len then .num ⌊len / 1000⌋ else .num len
  | v => v

def buildBidBody (c : Ctx) (adReq : AdReq) (pub : Tbl ℤ) (adPendList : List Str) : Lua BidBody := do
  let imp ← adPendList.mapM (imp c pub)
  return ⟨c.bid, c.auction_type, imp, adReq.ip, adReq.ua, adReq.pageUrl, adReq.sports1,
    (c.lib.number adReq.length).map seconds,
    if adReq.sid ≠ [] then some adReq.sid else none, if adReq.istest then 1 else 0⟩

/-- `url .. s` -/
def glue (s : Str) : Option Str → Lua (Option Str)
  | some url => .ok (some (url ++ s))
  | none => .error .badConcat

def bidUrl (c : Ctx) (adReq : AdReq) (dspId : Str) : Lua (Option Str) := do
  let url ← getRTBUrl c.dict dspId
  if dspId = SINA_DSP_ID then
    let sinaBidUrl ← glue (lit "/video.do") url
    let notation_ := Creative.notation_ (sinaBidUrl.getD [])
    glue (notation_ ++ c.lib.encode_args [(SINA_DSP_BID_ARG_HASHCODE, adReq.hashCode),
      (SINA_DSP_BID_ARG_COOKIE, adReq.cookie)]) sinaBidUrl
  else if dspId = lit "1" then glue (lit "/omg") url
  else if dspId = lit "21" then glue (lit "&video=1") url
  else return url

def bidReq (c : Ctx) (adReq : AdReq) (pub : Tbl ℤ) (dspId : Str) (adPendList : List Str) :
    Lua (Str × BidReq) := do
  let body ← buildBidBody c adReq pub adPendList
  let _ ← c.lib.encode body.val
  return (dspId, ⟨body, ← bidUrl c adReq dspId, hashStr adReq⟩)

/-- `bidReqList` and `dspBidList`, side by side. -/
def buildBidReq (c : Ctx) (adReq : AdReq) (pub : Tbl ℤ) (o : Order) (dspAdList : Tbl (List Str)) :
    Lua (List (Str × BidReq)) :=
  (o.pairs dspAdList).mapM fun e => bidReq c adReq pub e.1 e.2

/-! ### A request -/

/-- A request with all it meets. -/
structure Request where
  lib : Ngx
  dict : Dict
  parser : Parser
  head : Head
  sina : VideoReq → Rsp
  preDeal : PhaseInput
  openAuction : PhaseInput
  order : Order

/-- The fields of a web request, which nothing here reads. -/
def webReq : BidRsp.AdReq := ⟨.pc, [], [], [], [], [], [], []⟩

def Request.ctx (x : Request) (auction_type : AuctionType) (input : PhaseInput) : Ctx :=
  ⟨x.lib, x.dict, webReq, auction_type, input.bid, input.uuid⟩

/-- What the Sina ad engine leaves, and the ads it answered with. -/
structure SinaStage where
  ads : List Val
  page : Page

def querySinaAdEngine (x : Request) (adReq : AdReq) (adData : AdData) (sinaAdList : List Str) :
    Lua SinaStage := do
  let option ← buildVideoReq x.lib adReq (concat comma sinaAdList)
  let queryRsp := x.sina option
  return ⟨adsOf x.lib queryRsp,
    ← handleVideoRsp x.lib x.dict adData.res queryRsp ⟨adData.adPendList, ∅, ∅⟩⟩

/-- After the Sina ad engine was asked, if any ad unit is to ask it. -/
def sinaStage (x : Request) (adReq : AdReq) (adData : AdData) : Lua SinaStage := do
  let sinaAdList ← getSinaAdList x.dict adData
  if sinaAdList ≠ [] then querySinaAdEngine x adReq adData sinaAdList
  else return ⟨[], adData.adPendList, ∅, ∅⟩

def getDspPdAdList (input : PhaseInput) (s : Page) : Lua (Tbl (List Str)) :=
  checkDspQps input.order input.qpsList s.preDealQueryList

/-- One ad unit of the loop of `getDspAdList`. -/
def queryUnit (d : Dict) (res : Tbl ℤ) (dspAdList : Tbl (List Str)) (adUnitId : Str) :
    Lua (Tbl (List Str)) := do
  match ← getWhiteDspList d (res.get adUnitId) with
  | none => throw .badArgument
  | some dspIdList => dspIdList.foldlM (queryDsp d adUnitId) dspAdList

def getDspAdList (d : Dict) (res : Tbl ℤ) (input : PhaseInput) (adPendList : List Str) :
    Lua (Tbl (List Str)) := do
  let dspAdList ← adPendList.foldlM (queryUnit d res) ∅
  checkDspQps input.order input.qpsList dspAdList

/-- What a phase of bidding leaves. -/
structure Stage where
  winners : List (Str × Win)
  adPendList : List Str
  adCreativeList : Creatives
  cmUrlList : List Str

def launchRtbForDsp (x : Request) (c : Ctx) (adReq : AdReq) (pub : Tbl ℤ) (input : PhaseInput)
    (dspAdList : Tbl (List Str)) (adPendList : List Str) (adCreativeList : Creatives)
    (cmUrlList : List Str) : Lua Stage := do
  let reqs ← buildBidReq c adReq pub input.order dspAdList
  let (s, cmUrlList) ← Slots.Video.handleBidRsp c pub x.parser input.order input.draw
    (reqs.map fun r => input.rsp r.1) (reqs.map Prod.fst) adPendList adCreativeList cmUrlList
  return ⟨s.winners, s.adPendList, s.adCreativeList, cmUrlList⟩

/-- A phase of bidding, if any DSP is to be asked. -/
def launch (x : Request) (adReq : AdReq) (pub : Tbl ℤ) (auction_type : AuctionType)
    (input : PhaseInput) (dspAdList : Tbl (List Str)) (adPendList : List Str)
    (adCreativeList : Creatives) (cmUrlList : List Str) : Lua Stage :=
  if !dspAdList.entries.isEmpty then
    launchRtbForDsp x (x.ctx auction_type input) adReq pub input dspAdList adPendList adCreativeList
      cmUrlList
  else .ok ⟨[], adPendList, adCreativeList, cmUrlList⟩

/-- An element of `result.ad`. -/
structure AdContent where
  pos : Str
  content : List Val

/-- The response, and the text that is sent. -/
structure AdRsp where
  ad : List AdContent
  cm : List Str
  text : Str

def AdContent.val (ad : AdContent) : Val := .obj [("pos", .str ad.pos), ("content", .arr ad.content)]

def buildAdRsp (x : Request) (adReq : AdReq) (adCreativeList : Creatives) (cmUrlList : List Str) :
    Lua AdRsp := do
  let ad := adReq.adUnitIdList.map fun id => ⟨id, (adCreativeList.get id).getD []⟩
  let tmp : Tbl Unit := (∅ : Tbl Unit).putAll (cmUrlList.map fun url => (url, ()))
  let cm := (x.order.pairs tmp).map Sigma.fst
  let callback := getCallbackFunc x.head
  let result ← x.lib.encode (.obj [("ad", .arr (ad.map AdContent.val)), ("cm", .strs cm)])
  return ⟨ad, cm, if callback ≠ [] then callback ++ lit "(" ++ result ++ lit ")" else result⟩

/-- What a request goes through. -/
structure Stages where
  adReq : AdReq
  adData : AdData
  sina : SinaStage
  dspPdAdList : Tbl (List Str)
  preDeal : Stage
  dspAdList : Tbl (List Str)
  openAuction : Stage

def stages (x : Request) : Lua Stages := do
  let adReq := parseAdReq x.lib x.head
  let adData ← getAdData x.dict adReq.adUnitIdList
  let sina ← sinaStage x adReq adData
  let dspPdAdList ← getDspPdAdList x.preDeal sina.page
  let preDeal ← launch x adReq adData.pub .preferredDeal x.preDeal dspPdAdList sina.page.adPendList
    sina.page.adCreativeList []
  let dspAdList ← getDspAdList x.dict adData.res x.openAuction preDeal.adPendList
  let openAuction ← launch x adReq adData.pub .openAuction x.openAuction dspAdList
    preDeal.adPendList preDeal.adCreativeList preDeal.cmUrlList
  return ⟨adReq, adData, sina, dspPdAdList, preDeal, dspAdList, openAuction⟩

def newimpress (x : Request) : Lua (Stages × AdRsp) := do
  let s ← stages x
  return (s, ← buildAdRsp x s.adReq s.openAuction.adCreativeList s.openAuction.cmUrlList)

/-! ### What the Sina ad engine does to the ad units -/

/-- The test on a source, where it can be made. -/
def emptySrc : Option Val → Bool
  | none | some (.bool false) => true
  | some (.table a _) => a.isEmpty
  | some (.str s) => s.isEmpty
  | some _ => false

/-- The creative has no source. -/
def hasNoSrc (creative : Val) : Bool := emptySrc ((creative.get "content").bind (Val.get "src"))

def clears (creative : Val) : Bool := hasNoSrc creative || isDeal creative

/-- An ad with a creative that has no source or is one of a preferred deal clears its unit. -/
def answer (value : List Val) : Event Val :=
  if value.any clears then .cleared else .settled (value.filterMap (Val.get "content"))

section fill

variable {lib : Ngx} {d : Dict} {res : Tbl ℤ} {id : Str} {s s' : Page} {flag : Bool}

lemma fillContents_ok {value contents l : List Val} (h : fillContents value contents = .ok l) :
    l = contents ++ value.filterMap (Val.get "content") := by
  refine foldlM_prefix (P := fun done (r : List Val) =>
    r = contents ++ done.filterMap (Val.get "content")) (d := []) ?_ (by simp) h
  intro done creative r r' _ hr hstep
  obtain ⟨content, hcontent, hstep⟩ := bind_ok.mp hstep
  cases hstep
  rw [hr, List.filterMap_append, ← List.append_assoc, ← get_eq_of_field hcontent]
  cases h : creative.get "content" <;> simp [h]

lemma isEmptySrc_ok {src : Option Val} {b : Bool} (h : isEmptySrc src = .ok b) :
    emptySrc src = b := by
  rcases src with _ | src
  · cases h; rfl
  · cases src with
    | bool b => cases b <;> cases h; rfl
    | str t => cases h; cases t <;> rfl
    | table a g => cases h; cases a <;> rfl
    | null => cases h
    | num q => cases h
    | nan => cases h

/-- What the second loop leaves. -/
structure Checked (id : Str) (value : List Val) (s s' : Page) (flag : Bool) : Prop where
  pend : s'.adPendList = s.adPendList
  settles : flag = !value.any clears
  list : s'.adCreativeList =
    if value.any clears then s.adCreativeList.erase id else s.adCreativeList
  deals : ∀ dspId, ∀ u ∈ queueOf s' dspId, u ∈ queueOf s dspId ∨ u = id ∧ flag = false

lemma checked_cleared {creative : Val} {rest : List Val} (hclears : clears creative = true)
    {t : Tbl (List Str)} (ht : ∀ dspId, ∀ u ∈ (t.get dspId).getD [], u ∈ queueOf s dspId ∨ u = id) :
    Checked id (creative :: rest) s
      { s with adCreativeList := s.adCreativeList.erase id, preDealQueryList := t } false := by
  have hany : (creative :: rest).any clears = true := by simp [hclears]
  exact ⟨rfl, by simp [hany], by simp [hany],
    fun dspId u hu => (ht dspId u hu).imp_right fun h => ⟨h, rfl⟩⟩

/-- The second loop, by induction on the creatives. -/
lemma checkCreatives_checked {value : List Val}
    (h : checkCreatives lib d res id value s = .ok (s', flag)) : Checked id value s s' flag := by
  induction value generalizing s with
  | nil =>
    cases h
    exact ⟨rfl, rfl, rfl, fun _ _ hu => .inl hu⟩
  | cons creative rest ih =>
    obtain ⟨content, hcontent, h⟩ := bind_ok.mp h
    obtain ⟨src, hsrc, h⟩ := bind_ok.mp h
    obtain ⟨empty, hempty, h⟩ := bind_ok.mp h
    cases content with
    | none => cases hsrc
    | some content =>
    have hget := SinaQuery.get_of_field hcontent
    have hnoSrc : hasNoSrc creative = empty := by
      rw [hasNoSrc, hget, Option.bind_some, get_eq_of_field hsrc]
      exact isEmptySrc_ok hempty
    cases empty with
    | true =>
      cases h
      exact checked_cleared (by simp [clears, hnoSrc]) fun _ _ hu => .inl hu
    | false =>
      obtain ⟨v, hv, h⟩ := bind_ok.mp h
      obtain ⟨type, htype, h⟩ := bind_ok.mp h
      have hfirst : first "type" creative = type := SinaQuery.first_of_item hget hv htype
      split at h
      · next hpd =>
        have hclears : clears creative = true := by simp [clears, isDeal, hfirst, hpd]
        obtain ⟨dspId, -, h⟩ := bind_ok.mp h
        obtain ⟨w, -, h⟩ := bind_ok.mp h
        obtain ⟨b, -, h⟩ := bind_ok.mp h
        split at h
        · split at h
          · cases h
            exact checked_cleared hclears fun _ _ hu => mem_push hu
          · cases h
            exact checked_cleared hclears fun _ _ hu => .inl hu
        · cases h
          exact checked_cleared hclears fun _ _ hu => .inl hu
      · next hpd =>
        have hclears : clears creative = false := by simp [clears, hnoSrc, isDeal, hfirst, hpd]
        have hany : (creative :: rest).any clears = rest.any clears := by simp [hclears]
        have hrest := ih h
        exact ⟨hrest.pend, hany ▸ hrest.settles, hany ▸ hrest.list, hrest.deals⟩

/-- An ad adds to what its unit showed. -/
lemma fillAd_filled (id : Str) (value : List Val) (s s' : Page) (flag : Bool)
    (h : fillAdCreativeListForSina lib d res id value s = .ok (s', flag)) :
    Filled keep answer id value s s' flag := by
  obtain ⟨contents, hcontents, h⟩ := bind_ok.mp h
  have hchecked := checkCreatives_checked h
  have hlist := hchecked.list
  refine ⟨hchecked.pend, ?_, ?_, fun u hu => ?_, hchecked.deals⟩
  · rw [hchecked.settles, answer]
    cases value.any clears <;> rfl
  · rw [hlist, answer]
    cases value.any clears with
    | true => exact AList.lookup_erase _ _
    | false =>
      rw [fillContents_ok hcontents]
      exact AList.lookup_insert _
  · rw [hlist]
    cases value.any clears with
    | true => exact (AList.lookup_erase_ne hu).trans (AList.lookup_insert_ne hu)
    | false => exact AList.lookup_insert_ne hu

end fill

/-! ### The stages -/

/-- The auctions of a phase. -/
def Request.exchange (x : Request) (pub : Tbl ℤ) (auction_type : AuctionType)
    (input : PhaseInput) : Slots.Exchange :=
  Slots.Video.exchange (x.ctx auction_type input) pub x.parser input.order input.draw

/-- What the parties of a request did. -/
def parties (x : Request) (st : Stages) : Parties where
  sina := sinaEvents answer st.sina.ads
  preDeal := wonBy (x.exchange st.adData.pub .preferredDeal x.preDeal) st.preDeal.winners
  openAuction := wonBy (x.exchange st.adData.pub .openAuction x.openAuction) st.openAuction.winners

/-- The DSPs answer with bids for what they were asked for. -/
def Fair (x : Request) (st : Stages) : Prop :=
  AnswersAsked (VideoRtb.rtb (x.ctx .preferredDeal x.preDeal) st.adData.pub) st.dspPdAdList
    x.preDeal.rsp ∧
  AnswersAsked (VideoRtb.rtb (x.ctx .openAuction x.openAuction) st.adData.pub) st.dspAdList
    x.openAuction.rsp

/-- The ad unit, its publisher and its resource are present and not invalid. -/
def served (d : Dict) (u : Str) : Bool :=
  (d.adunit u).any fun a => a.status ≠ OBJECT_STATUS_INVALID &&
    (d.publisher a.publisher).any fun p => p.status ≠ OBJECT_STATUS_INVALID &&
      (d.resource p.resource).any fun r => r.status ≠ OBJECT_STATUS_INVALID

/-- The ad units a request asks for. -/
def requested (x : Request) : List Str := split comma (getArg x.head.toRequest "pos")

section stages

variable {x : Request} {st : Stages} {adReq : AdReq} {d : Dict}

lemma isValid_ok {u : Str} {r : Option (ℤ × ℤ)} (h : isValid d u = .ok r) : r.isSome = served d u := by
  rw [isValid, isValid_eq, ok_bind, getPublisher, getAttribute_eq, getAttribute_eq] at h
  cases ha : d.adunit u with
  | none =>
    rw [ha] at h
    cases h
    simp [served, ha]
  | some a =>
    simp only [ha, Option.isSome_some, Bool.not_true, Bool.false_eq_true, if_false, Option.map_some,
      ok_bind, Option.some.injEq] at h
    by_cases hs : a.status = OBJECT_STATUS_INVALID
    · rw [if_pos hs] at h
      cases h
      simp [served, ha, hs]
    rw [if_neg hs] at h
    cases hp : d.publisher a.publisher with
    | none =>
      rw [hp] at h
      cases h
      simp [served, ha, hs, hp]
    | some p =>
      simp only [hp] at h
      by_cases hps : p.status = OBJECT_STATUS_INVALID
      · rw [if_pos hps] at h
        cases h
        simp [served, ha, hs, hp, hps]
      rw [if_neg hps] at h
      cases hr : d.resource p.resource with
      | none =>
        rw [hr] at h
        cases h
        simp [served, ha, hs, hp, hps, hr]
      | some r =>
        rw [hr] at h
        by_cases hrs : r.status = OBJECT_STATUS_INVALID
        · simp only [hrs, if_true] at h
          cases h
          simp [served, ha, hs, hp, hps, hr, hrs]
        · simp only [hrs, if_false] at h
          cases h
          simp [served, ha, hs, hp, hps, hr, hrs]

lemma getAdData_pend {ids : List Str} {adData : AdData} (h : getAdData d ids = .ok adData) :
    adData.adPendList = ids.filter (served d) := by
  refine foldlM_prefix (P := fun done (r : AdData) => r.adPendList = done.filter (served d)) (d := [])
    ?_ rfl h
  intro done u r r' _ hr hstep
  obtain ⟨v, hv, hstep⟩ := bind_ok.mp hstep
  have hserved := isValid_ok hv
  rw [List.filter_append, ← hr]
  cases v with
  | none =>
    cases hstep
    simp [← hserved]
  | some v =>
    cases hstep
    simp [← hserved]

lemma sinaStage_answered {adData : AdData} {s : SinaStage} (h : sinaStage x adReq adData = .ok s) :
    Answered keep (sinaEvents answer s.ads) ⟨adData.adPendList, ∅, ∅⟩ s.page := by
  obtain ⟨l, -, h⟩ := bind_ok.mp h
  split at h
  · obtain ⟨option, -, h⟩ := bind_ok.mp h
    obtain ⟨page, hpage, h⟩ := bind_ok.mp h
    cases h
    exact handleQueryRsp_answered fillAd_filled hpage
  · cases h
    exact ⟨fun _ => rfl, fun _ _ hu => .inl hu⟩

lemma launch_auctioned {pub : Tbl ℤ} {auction_type : AuctionType} {input : PhaseInput}
    {query : Tbl (List Str)} {adPendList cmUrlList : List Str} {adCreativeList : Creatives}
    {out : Stage}
    (h : launch x adReq pub auction_type input query adPendList adCreativeList cmUrlList = .ok out) :
    Auctioned keep (x.exchange pub auction_type input) (VideoRtb.rtb (x.ctx auction_type input) pub)
      query input.rsp out.winners (placeOf adPendList adCreativeList)
      (placeOf out.adPendList out.adCreativeList) := by
  unfold launch at h
  split at h
  · obtain ⟨reqs, hreqs, h⟩ := bind_ok.mp h
    obtain ⟨⟨s, urls⟩, hs, h⟩ := bind_ok.mp h
    cases h
    obtain ⟨ex, hex, hs⟩ := bind_ok.mp hs
    obtain ⟨s', hrun, hs⟩ := bind_ok.mp hs
    cases hs
    refine auctioned (fun _ _ => rfl) ?_ hex hrun
    refine mapM_map_eq (fun e r hr => ?_) hreqs
    obtain ⟨body, -, hr⟩ := bind_ok.mp hr
    obtain ⟨text, -, hr⟩ := bind_ok.mp hr
    obtain ⟨url, -, hr⟩ := bind_ok.mp hr
    cases hr
    rfl
  · cases h
    exact auctioned_none _

/-- The open auction is over pending ad units. -/
lemma getDspAdList_pending {res : Tbl ℤ} {input : PhaseInput} {adPendList : List Str}
    {dspAdList : Tbl (List Str)} (h : getDspAdList d res input adPendList = .ok dspAdList)
    {dspId : Str} {units : List Str} (hget : dspAdList.get dspId = some units) {u : Str}
    (hu : u ∈ units) : u ∈ adPendList := by
  obtain ⟨q, hq, h⟩ := bind_ok.mp h
  have hpend : ∀ dspId, ∀ v ∈ (q.get dspId).getD [], v ∈ adPendList := by
    refine foldlM_prefix (P := fun done (t : Tbl (List Str)) =>
      ∀ dspId, ∀ v ∈ (t.get dspId).getD [], v ∈ done) (d := []) ?_ (by simp) hq
    intro done v t t' _ ht hstep
    obtain ⟨l, -, hstep⟩ := bind_ok.mp hstep
    cases l with
    | none => cases hstep
    | some l =>
    refine foldlM_inv (P := fun t : Tbl (List Str) =>
      ∀ dspId, ∀ w ∈ (t.get dspId).getD [], w ∈ done ++ [v]) ?_
      (fun k w hw => List.mem_append_left _ (ht k w hw)) hstep
    intro t k t' _ ht hstep
    obtain rfl := OfferedOnce.queryDsp_spec hstep
    intro k' w hw
    split at hw
    · rcases mem_push hw with hw | rfl
      · exact ht k' w hw
      · simp
    · exact ht k' w hw
  refine hpend dspId u ?_
  rw [OfferedOnce.checkDspQps_get h hget, Option.getD_some]
  exact hu

/-- What the parties of a run did to the ad units. -/
lemma stages_exchanged (h : stages x = .ok st) :
    Exchanged keep st.adData.adPendList (parties x st) (Fair x st)
      (placeOf st.openAuction.adPendList st.openAuction.adCreativeList) ∧
    st.adReq.adUnitIdList = requested x ∧
    st.adData.adPendList = (requested x).filter (served x.dict) := by
  obtain ⟨adData, hdata, h⟩ := bind_ok.mp h
  obtain ⟨sina, hsina, h⟩ := bind_ok.mp h
  obtain ⟨dspPdAdList, hpd, h⟩ := bind_ok.mp h
  obtain ⟨preDeal, hpreDeal, h⟩ := bind_ok.mp h
  obtain ⟨dspAdList, hoa, h⟩ := bind_ok.mp h
  obtain ⟨openAuction, hopen, h⟩ := bind_ok.mp h
  cases h
  refine ⟨exchanged (sinaStage_answered hsina) (fun dspId units hget => ?_)
    (launch_auctioned hpreDeal) (fun dspId units hget u hu => getDspAdList_pending hoa hget hu)
    (launch_auctioned hopen), rfl, getAdData_pend hdata⟩
  rw [queueOf, OfferedOnce.checkDspQps_get hpd hget, Option.getD_some]

end stages

/-! ### What a response shows -/

/-- What the response shows for an ad unit. -/
def shown (st : Stages) (u : Str) : List Val := (st.openAuction.adCreativeList.get u).getD []

section shown

variable {x : Request} {st : Stages} {rsp : AdRsp} {u : Str}

lemma stages_shown (h : stages x = .ok st) (u : Str) :
    shown st u = (((parties x st).events u).rtakeWhile Event.isSettled).flatMap Event.contents := by
  obtain ⟨hex, -, -⟩ := stages_exchanged h
  have hcontent := congrArg Place.content (hex.place u)
  rw [shown, ← content_keep (p := ⟨st.adData.adPendList.count u, none⟩) rfl, ← hcontent]
  rfl

lemma mem_cm {o : Order} {urls : List Str} {url : Str} :
    url ∈ (o.pairs ((∅ : Tbl Unit).putAll (urls.map fun url => (url, ())))).map Sigma.fst ↔
      url ∈ urls := by
  constructor
  · intro hmem
    obtain ⟨⟨k, v⟩, hk, rfl⟩ := List.mem_map.mp hmem
    obtain ⟨url, hurl, heq⟩ := List.mem_map.mp (Tbl.mem_of_get_putAll (o.mem_pairs.mp hk))
    cases heq
    exact hurl
  · intro hurl
    obtain ⟨v, -, hget⟩ := Tbl.get_putAll_mem (t := (∅ : Tbl Unit)) (k := url)
      (l := urls.map fun url => (url, ())) ⟨(url, ()), List.mem_map_of_mem hurl, rfl⟩
    exact List.mem_map.mpr ⟨⟨url, v⟩, o.mem_pairs.mpr hget, rfl⟩

/-- **What a response shows.** It lists the ad units as requested, and on each one stands what the
Sina ad engine, the winner of the preferred deals and the one of the open auction brought since the
unit was last cleared, one behind the other. Each URL for cookie mapping is listed once. -/
theorem newimpress_shown (h : newimpress x = .ok (st, rsp)) :
    rsp.ad = (requested x).map (fun u => ⟨u, shown st u⟩) ∧
    (∀ u, shown st u =
      (((parties x st).events u).rtakeWhile Event.isSettled).flatMap Event.contents) ∧
    rsp.cm.Nodup ∧ ∀ url, url ∈ rsp.cm ↔ url ∈ st.openAuction.cmUrlList := by
  obtain ⟨st', hst, h⟩ := bind_ok.mp h
  obtain ⟨rsp', hrsp, h⟩ := bind_ok.mp h
  cases h
  obtain ⟨-, hids, -⟩ := stages_exchanged hst
  obtain ⟨result, -, hrsp⟩ := bind_ok.mp hrsp
  cases hrsp
  exact ⟨by rw [hids]; rfl, stages_shown hst, x.order.pairs_nodup _, fun url => mem_cm⟩

/-- **An ad unit requested once shows the ads of one party**, if the DSPs answer with bids for what
they were asked for and the Sina ad engine names the unit once at most; nothing stands on it where
nobody settled it. -/
theorem newimpress_once (h : newimpress x = .ok (st, rsp)) (hfair : Fair x st)
    (hserved : served x.dict u) (hcount : (requested x).count u = 1)
    (hsina : (sinaEvents answer st.sina.ads u).length ≤ 1) :
    (((parties x st).events u).filter Event.isSettled = [] ∧ shown st u = []) ∨
    ∃ contents, ((parties x st).events u).filter Event.isSettled = [.settled contents] ∧
      shown st u = contents := by
  obtain ⟨st', hst, h⟩ := bind_ok.mp h
  obtain ⟨_, -, h⟩ := bind_ok.mp h
  cases h
  obtain ⟨hex, -, hpend⟩ := stages_exchanged hst
  have hcount' : st.adData.adPendList.count u = 1 := by
    rw [hpend, List.count_filter hserved, hcount]
  have hshown : ∀ p, placeOf st.openAuction.adPendList st.openAuction.adCreativeList u = p →
      shown st u = p.content.getD [] := by
    rintro p rfl
    rfl
  rcases hex.once rfl hfair hcount' hsina with ⟨hnone, hplace⟩ | ⟨contents, hone, hplace⟩
  · exact .inl ⟨hnone, hshown _ hplace⟩
  · exact .inr ⟨contents, hone, hshown _ hplace⟩

end shown

section samples

open Sax.Capacity (plainDict plainInput)
open Sax.Clearing (ok appText appBody)

/-- A request for `U`, on which DSP 2 bids 3. -/
def bidRequest : Request where
  lib := .ofTexts [(appText "3" "x", appBody 3 "x")]
  dict := plainDict
  parser := Slots.sampleParser
  head := ⟨⟨lit "pos=U", none, none⟩, none, none, []⟩
  sina := fun _ => ⟨500, []⟩
  preDeal := plainInput (ok (appText "3" "x"))
  openAuction := plainInput (ok (appText "3" "x"))
  order := .plain

lemma bidRequest_run : ∃ st rsp, newimpress bidRequest = .ok (st, rsp) ∧ st.sina.ads = [] ∧
    st.dspPdAdList = ∅ ∧ st.dspAdList.entries = [⟨lit "2", [lit "U"]⟩] := by
  have hrun : ((newimpress bidRequest).map fun r =>
      r.1.sina.ads.isEmpty && r.1.dspPdAdList.keys.isEmpty &&
        decide (r.1.dspAdList.entries.map (fun e => ((e.1, e.2) : Str × List Str)) =
          [(lit "2", [lit "U"])])) = .ok true := by
    decide +kernel
  cases h : newimpress bidRequest with
  | error e => rw [h] at hrun; cases hrun
  | ok r =>
    rw [h] at hrun
    have hall := Except.ok.inj hrun
    rw [Bool.and_eq_true, Bool.and_eq_true, decide_eq_true_eq] at hall
    obtain ⟨⟨hads, hpd⟩, hoa⟩ := hall
    refine ⟨r.1, r.2, rfl, List.isEmpty_iff.mp hads, ?_, ?_⟩
    · exact AList.ext (List.map_eq_nil_iff.mp (List.isEmpty_iff.mp hpd))
    · match hentries : r.1.dspAdList.entries, hoa with
      | [⟨_, _⟩], hoa =>
        cases hoa
        rfl

lemma bidRequest_fair {st : Stages} (hpd : st.dspPdAdList = ∅)
    (hoa : st.dspAdList.entries = [⟨lit "2", [lit "U"]⟩]) : Fair bidRequest st := by
  constructor
  · intro dspId units hget
    rw [hpd] at hget
    cases hget
  · intro dspId units hget p hp
    rw [← Tbl.mem_entries, hoa, List.mem_singleton] at hget
    cases hget
    have hall : ∀ p ∈ (VideoRtb.rtb (bidRequest.ctx .openAuction bidRequest.openAuction) ∅).entries
        (lit "2", ok (appText "3" "x")), p.2.id = lit "U" := by decide +kernel
    exact List.mem_singleton.mpr (hall p hp)

theorem newimpress_shown_sample : ∃ (st : Stages) (rsp : AdRsp),
    rsp.ad = (requested bidRequest).map (fun u => ⟨u, shown st u⟩) ∧
    (∀ u, shown st u =
      (((parties bidRequest st).events u).rtakeWhile Event.isSettled).flatMap Event.contents) ∧
    rsp.cm.Nodup ∧ ∀ url, url ∈ rsp.cm ↔ url ∈ st.openAuction.cmUrlList := by
  obtain ⟨st, rsp, hrun, -⟩ := bidRequest_run
  exact ⟨st, rsp, newimpress_shown hrun⟩

theorem newimpress_once_sample : ∃ st,
    (((parties bidRequest st).events (lit "U")).filter Event.isSettled = [] ∧
      shown st (lit "U") = []) ∨
    ∃ contents, ((parties bidRequest st).events (lit "U")).filter Event.isSettled =
      [.settled contents] ∧ shown st (lit "U") = contents := by
  obtain ⟨st, rsp, hrun, hads, hpd, hoa⟩ := bidRequest_run
  refine ⟨st, newimpress_once hrun (bidRequest_fair hpd hoa) (by decide +kernel) (by decide +kernel)
    ?_⟩
  rw [hads]
  exact Nat.zero_le 1

end samples

end Sax.Video
