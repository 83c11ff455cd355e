import Sax.Served

/-!
Serving a request of a mobile client: `mobile.lua`, and the side of the Sina ad engine in
`mobile_rtb.lua`.

Four parties fill the ad units one after the other: the Sina ad engine, the preferred deals, the
open auction and the bottom ads. Each replaces what it finds; an ad unit whose Sina answer names a
preferred deal is cleared and stays pending.
-/

namespace Sax.Mobile

open Sax.LuaVal Sax.Loop Sax.Const Sax.Runtime Sax.Store Sax.Extract Sax.Placement Sax.Served
open Sax.BidRsp (Ctx)
open Sax.Impress (PhaseInput queryUnit)
open Sax.MobileRtb (buildBidReq)
open Sax.Qps (checkDspQps)
open Sax.SinaQuery (Page isDealDsp adsOf first queueOf)
open Sax.Slots (Win)
open Sax.WebRtb (Creatives fill)

/-! ### `parseAdReq` and `getAdData` -/

/-- The body of a request. -/
structure Body where
  adunit_id : List Str
  size : List Str
  client : Str
  device_platform : Str
  device_type : Str
  carrier : Str
  device_id : Option Str
  rotate_count : ℚ
  intra : Option Val
  targeting : Option (Tbl Val)

/-- A request; `size_map` is empty until `getAdData` fills it. -/
structure AdReq extends MobileRtb.AdReq where
  adunit_id : List Str
  size : List Str
  rotate_count : ℚ
  intra : Option Val
  targeting : Tbl Val

/-- `tonumber(v)` -/
def tonumber (lib : Ngx) : Val → Option ℚ
  | .num q => some q
  | .str s => lib.tonumber s
  | _ => none

/-- The length of a video becomes its class. -/
def videoLength (lib : Ngx) (targeting : Tbl Val) : Tbl Val :=
  match targeting.get (lit "v_length") with
  | none => targeting
  | some v_length =>
    match tonumber lib v_length with
    | none => targeting
    | some len =>
      targeting.insert (lit "v_length") (.str (if len ≥ 30000 then lit "long" else lit "short"))

def parseAdReq (lib : Ngx) (body : Body) (ip : Str) : AdReq :=
  ⟨⟨body.client, ip, body.device_platform, body.device_type, body.carrier,
    body.device_id.getD [], ∅⟩, body.adunit_id, body.size, body.rotate_count, body.intra,
    videoLength lib (body.targeting.getD ∅)⟩

/-- One ad unit of the loop that fills `size_map`. -/
def sizeUnit (d : Dict) (size : List Str) (size_map : Tbl Str) (e : Str × ℕ) : Lua (Tbl Str) := do
  let given := size[e.2]?
  if given ≠ none ∧ given ≠ some (lit "unknown") then
    return size_map.insert e.1 (given.getD [])
  match ← getSize d e.1 with
  | some size => return size_map.insert e.1 size
  | none => return size_map.erase e.1

/-- The ad unit, its publisher and its resource are present and valid. -/
def isServed (d : Dict) (adUnitId : Str) : Lua Bool := do
  if !(← isValid d.adunit adUnitId) then return false
  if (← getAttribute d.adunit adUnitId AdUnit.status) ≠ some OBJECT_STATUS_VALID then return false
  match ← getPublisher d adUnitId with
  | none => throw .badConcat
  | some publisherId =>
    match d.publisher publisherId with
    | none => return false
    | some publisher =>
      if publisher.status ≠ OBJECT_STATUS_VALID then return false
      match d.resource publisher.resource with
      | none => return false
      | some resource => return resource.status = OBJECT_STATUS_VALID

/-- The request with its sizes, and `adPendList`. -/
def getAdData (d : Dict) (adReq : AdReq) : Lua (AdReq × List Str) := do
  let size_map ← adReq.adunit_id.zipIdx.foldlM (sizeUnit d adReq.size) adReq.size_map
  let adPendList ← adReq.adunit_id.filterM (isServed d)
  return ({ adReq with size_map }, adPendList)

/-! ### The Sina ad engine -/

def getSinaQueryList (d : Dict) (adPendList : List Str) : Lua (List Str) :=
  adPendList.filterM fun adUnitId => do
    let resourceId ← getResource d (← getPublisher d adUnitId)
    return (← getFlag d resourceId) = some OBJECT_FLAG_SET

/-- What is posted to the Sina ad engine. -/
structure QueryReq where
  body : Str
  hash_str : Str

def buildQueryReq (lib : Ngx) (d : Dict) (adReq : AdReq) (sinaQueryList : List Str) :
    Lua QueryReq := do
  let adSizeList := sinaQueryList.filterMap adReq.size_map.get
  let adNumList ← sinaQueryList.mapM (getAdNum d)
  let adNum := adNumList.filterMap fun adNum => adNum.map fun n => lib.tostring n
  let body : Tbl Val := (∅ : Tbl Val).putAll ([
    (lit "adunitId", .str (concat comma sinaQueryList)),
    (lit "size", .str (concat comma adSizeList)),
    (lit "adNum", .str (concat comma adNum)),
    (lit "rotateCount", .str (lib.tostring adReq.rotate_count)),
    (lit "deviceId", .str adReq.device_id), (lit "devicePla", .str adReq.device_platform),
    (lit "deviceType", .str adReq.device_type), (lit "ip", .str adReq.ip),
    (lit "carrier", .str adReq.carrier), (lit "client", .str adReq.client)]
    ++ (adReq.intra.map fun v => (lit "intra", v)).toList)
  -- the targeting may name fields of the body again
  let body := body.putAll (adReq.targeting.entries.map fun e => (e.1, e.2))
  let text ← lib.encode (.table [] (body.entries.map fun e => (e.1, e.2)))
  return ⟨text, if adReq.device_id ≠ [] then adReq.device_id else adReq.ip⟩

/-- The content of a creative, with the names of its times changed. -/
def rename (creative content : Val) : Lua Val := do
  let content ← setField "begin_time" (← field "beginTime" (some content)) content
  let content ← setField "beginTime" none content
  let content ← setField "end_time" (← field "endTime" (some content)) content
  let content ← setField "endTime" none content
  setField "lineitem_id" (← field "lineitemId" (some creative)) content

/-- The loop of `fillAdCreativeListForSina`, which ends at the first creative of a preferred deal;
the flag says whether it met none. -/
def fillCreatives (lib : Ngx) (d : Dict) (id : Str) : List Val → Page → Lua (Page × Bool)
  | [], s => .ok (s, true)
  | creative :: rest, s => do
    let content ← field "content" (some creative)
    let type ← item 1 (← field "type" content)
    if type = some (.str PREFERRED_DEAL_TYPE) then
      let publisherId ← getPublisher d id
      let resourceId ← getResource d publisherId
      let dspWhiteList ← getPdWhiteList d resourceId
      let dspId ← item 1 (← field "src" content)
      let s := { s with adCreativeList := s.adCreativeList.erase id }
      if ← isDealDsp lib d dspWhiteList dspId then
        match dspId with
        | some (.str dspId) =>
          return ({ s with preDealQueryList := s.preDealQueryList.push dspId id }, false)
        | _ => return (s, false)
      else return (s, false)
    else
      let temp ← rename creative (content.getD .null)
      fillCreatives lib d id rest { s with adCreativeList := fill s.adCreativeList id [temp] }

def fillAdCreativeListForSina (lib : Ngx) (d : Dict) (id : Str) (value : List Val) (s : Page) :
    Lua (Page × Bool) :=
  fillCreatives lib d id value { s with adCreativeList := s.adCreativeList.insert id [] }

def handleQueryRsp (lib : Ngx) (d : Dict) : Rsp → Page → Lua Page :=
  Served.handleQueryRsp (fillAdCreativeListForSina lib d) lib

/-! ### A request -/

/-- A request with all it meets: the body and the address it came from, the answer of the Sina ad
engine to what is posted to it, what the phases of bidding meet, and the draws for the bottom
ads. -/
structure Request where
  lib : Ngx
  dict : Dict
  body : Body
  ip : Str
  sina : QueryReq → Rsp
  preDeal : PhaseInput
  openAuction : PhaseInput
  bottomDraw : ℕ → Draw

/-- The fields of a web request, which nothing here reads. -/
def webReq : BidRsp.AdReq := ⟨.pc, [], [], [], [], [], [], []⟩

def Request.ctx (x : Request) (auction_type : AuctionType) (input : PhaseInput) : Ctx :=
  ⟨x.lib, x.dict, webReq, auction_type, input.bid, input.uuid⟩

/-- What the Sina ad engine leaves, and the ads it answered with. -/
structure SinaStage where
  ads : List Val
  page : Page

def querySinaAdEngine (x : Request) (adReq : AdReq) (valid sinaQueryList : List Str) :
    Lua SinaStage := do
  let queryReq ← buildQueryReq x.lib x.dict adReq sinaQueryList
  let queryRsp := x.sina queryReq
  return ⟨adsOf x.lib queryRsp, ← handleQueryRsp x.lib x.dict queryRsp ⟨valid, ∅, ∅⟩⟩

/-- After the Sina ad engine was asked, if any ad unit is to ask it. -/
def sinaStage (x : Request) (adReq : AdReq) (valid : List Str) : Lua SinaStage := do
  let sinaQueryList ← getSinaQueryList x.dict valid
  if sinaQueryList ≠ [] then querySinaAdEngine x adReq valid sinaQueryList
  else return ⟨[], valid, ∅, ∅⟩

def getPdBidList (input : PhaseInput) (s : Page) : Lua (Tbl (List Str)) :=
  checkDspQps input.order input.qpsList s.preDealQueryList

def getOaBidList (d : Dict) (input : PhaseInput) (adPendList : List Str) :
    Lua (Tbl (List Str)) := do
  let oaBidList ← adPendList.foldlM (queryUnit d) ∅
  checkDspQps input.order input.qpsList oaBidList

/-- What a phase of bidding leaves. -/
structure Stage where
  winners : List (Str × Win)
  adPendList : List Str
  adCreativeList : Creatives
  cmUrlList : List Str

def launchRtbForDsp (c : Ctx) (adReq : AdReq) (input : PhaseInput) (dspBidList : Tbl (List Str))
    (adPendList : List Str) (adCreativeList : Creatives) (cmUrlList : List Str) : Lua Stage := do
  let reqs ← buildBidReq c adReq.toAdReq input.order dspBidList
  let (s, cmUrlList) ← Slots.Mobile.handleBidRsp c adReq.toAdReq input.order input.draw
    (reqs.map fun r => input.rsp r.1) (reqs.map Prod.fst) adPendList adCreativeList cmUrlList
  return ⟨s.winners, s.adPendList, s.adCreativeList, cmUrlList⟩

/-- A phase of bidding, if any DSP is to be asked. -/
def launch (x : Request) (adReq : AdReq) (auction_type : AuctionType) (input : PhaseInput)
    (dspBidList : Tbl (List Str)) (adPendList : List Str) (adCreativeList : Creatives)
    (cmUrlList : List Str) : Lua Stage :=
  if !dspBidList.entries.isEmpty then
    launchRtbForDsp (x.ctx auction_type input) adReq input dspBidList adPendList adCreativeList
      cmUrlList
  else .ok ⟨[], adPendList, adCreativeList, cmUrlList⟩

/-- One ad unit of the loop of `fillBottomAd`. -/
def fillBottom (d : Dict) (draw : ℕ → Draw) (adCreativeList : Creatives) (e : Str × ℕ) :
    Lua Creatives := do
  match ← getNadList d e.1 with
  | none => throw .badLength
  | some bottomAdList =>
    if bottomAdList.length ≠ 0 then
      let i := if bottomAdList.length > 1 then (draw e.2).pick 1 bottomAdList.length else 1
      return adCreativeList.insert e.1 bottomAdList[i - 1]?.toList
    else return adCreativeList

def fillBottomAd (d : Dict) (draw : ℕ → Draw) (adPendList : List Str)
    (adCreativeList : Creatives) : Lua Creatives :=
  adPendList.zipIdx.foldlM (fillBottom d draw) adCreativeList

/-- An element of `rsp.ad`. -/
structure Ad where
  id : Str
  content : List Val

def Ad.val (ad : Ad) : Val := .obj [("id", .str ad.id), ("content", .arr ad.content)]

/-- The sport client is sent no empty head of a live page. -/
def isLeftOut (adReq : AdReq) (ad : Ad) : Bool :=
  ad.content.length = 0 ∧ adReq.client = lit "sportapp" ∧ adReq.device_platform = lit "2" ∧
    ad.id ∈ [lit "applivehead", lit "applivehead2", lit "applivehead3"]

def buildAdRsp (lib : Ngx) (adReq : AdReq) (adCreativeList : Creatives) : Lua (List Ad) := do
  let ad := (adReq.adunit_id.map fun id => ⟨id, (adCreativeList.get id).getD []⟩).filter
    fun ad => !isLeftOut adReq ad
  let _ ← lib.encode (.obj [("ad", .arr (ad.map Ad.val))])
  return ad

/-- What a request goes through. -/
structure Stages where
  adReq : AdReq
  valid : List Str
  sina : SinaStage
  pdBidList : Tbl (List Str)
  preDeal : Stage
  oaBidList : Tbl (List Str)
  openAuction : Stage
  bottom : Creatives

def stages (x : Request) : Lua Stages := do
  let (adReq, valid) ← getAdData x.dict (parseAdReq x.lib x.body x.ip)
  let sina ← sinaStage x adReq valid
  let pdBidList ← getPdBidList x.preDeal sina.page
  let preDeal ← launch x adReq .preferredDeal x.preDeal pdBidList sina.page.adPendList
    sina.page.adCreativeList []
  let oaBidList ← getOaBidList x.dict x.openAuction preDeal.adPendList
  let openAuction ← launch x adReq .openAuction x.openAuction oaBidList preDeal.adPendList
    preDeal.adCreativeList preDeal.cmUrlList
  let bottom ← fillBottomAd x.dict x.bottomDraw openAuction.adPendList openAuction.adCreativeList
  return ⟨adReq, valid, sina, pdBidList, preDeal, oaBidList, openAuction, bottom⟩

def impress (x : Request) : Lua (Stages × List Ad) := do
  let s ← stages x
  return (s, ← buildAdRsp x.lib s.adReq s.bottom)

/-! ### What the Sina ad engine does to the ad units -/

/-- What an ad unit shows of a creative. -/
def renamed (creative : Val) : Val :=
  (rename creative ((creative.get "content").getD .null)).toOption.getD .null

/-- An ad with a creative of a preferred deal clears its unit. -/
def answer (value : List Val) : Event Val :=
  if value.any isDeal then .cleared else .settled (value.map renamed)

section fill

variable {lib : Ngx} {d : Dict} {id : Str} {s s' : Page} {flag : Bool}

/-- The loop over the creatives of an ad, by induction on them: `l` is what those before left. -/
lemma fillCreatives_filled {value : List Val} {l : List Val}
    (hl : s.adCreativeList.get id = some l) (h : fillCreatives lib d id value s = .ok (s', flag)) :
    Filled keep answer id value s s' flag := by
  induction value generalizing s l with
  | nil =>
    cases h
    exact ⟨rfl, rfl, by simp [answer, Place.step, hl, keep], fun _ _ => rfl,
      fun _ _ hu => .inl hu⟩
  | cons creative rest ih =>
    obtain ⟨content, hcontent, h⟩ := bind_ok.mp h
    obtain ⟨v, hv, h⟩ := bind_ok.mp h
    obtain ⟨type, htype, h⟩ := bind_ok.mp h
    cases content with
    | none => cases hv
    | some content =>
    have hget := SinaQuery.get_of_field hcontent
    have hfirst : first "type" creative = type := SinaQuery.first_of_item hget hv htype
    split at h
    · next hpd =>
      have hdeal : isDeal creative = true := by simp [isDeal, hfirst, hpd]
      have hcleared : answer (creative :: rest) = .cleared := by simp [answer, hdeal]
      obtain ⟨pub, -, h⟩ := bind_ok.mp h
      obtain ⟨res, -, h⟩ := bind_ok.mp h
      obtain ⟨w, -, h⟩ := bind_ok.mp h
      obtain ⟨src, -, h⟩ := bind_ok.mp h
      obtain ⟨dspId, -, h⟩ := bind_ok.mp h
      obtain ⟨b, -, h⟩ := bind_ok.mp h
      -- whoever is queued, the unit is emptied
      have hfilled : ∀ t : Tbl (List Str), (∀ dspId, ∀ u ∈ (t.get dspId).getD [],
          u ∈ queueOf s dspId ∨ u = id) → Filled keep answer id (creative :: rest) s
            { s with adCreativeList := s.adCreativeList.erase id, preDealQueryList := t } false := by
        intro t ht
        refine ⟨rfl, by rw [hcleared]; rfl, ?_, fun u hu => AList.lookup_erase_ne hu,
          fun dspId u hu => (ht dspId u hu).imp_right fun h => ⟨h, rfl⟩⟩
        rw [hcleared]
        exact AList.lookup_erase _ _
      split at h
      · split at h
        · next t _ =>
          cases h
          exact hfilled _ fun k u hu => mem_push hu
        · cases h
          exact hfilled _ fun k u hu => .inl hu
      · cases h
        exact hfilled _ fun k u hu => .inl hu
    · next hpd =>
      have hdeal : isDeal creative = false := by simp [isDeal, hfirst, hpd]
      obtain ⟨temp, htemp, h⟩ := bind_ok.mp h
      have htemp' : renamed creative = temp := by
        rw [renamed, hget]
        rw [Option.getD_some] at htemp ⊢
        rw [htemp]
        rfl
      have hfill : (fill s.adCreativeList id [temp]).get id = some (l ++ [temp]) := by
        rw [fill, hl]
        exact AList.lookup_insert _
      have hrest := ih hfill h
      have hanswer : answer (creative :: rest) =
          if rest.any isDeal then .cleared else .settled (temp :: rest.map renamed) := by
        rw [answer, List.any_cons, hdeal, Bool.false_or, List.map_cons, htemp']
      refine ⟨hrest.pend, ?_, ?_, fun u hu => ?_, hrest.deals⟩
      · rw [hrest.settles, hanswer, answer]
        split <;> rfl
      · rw [hrest.content, hanswer, answer, hl, hfill]
        split
        · rfl
        · simp [Place.step, keep]
      · rw [hrest.kept u hu]
        exact AList.lookup_insert_ne hu

/-- An ad replaces what its unit showed. -/
lemma fillAd_filled (id : Str) (value : List Val) (s s' : Page) (flag : Bool)
    (h : fillAdCreativeListForSina lib d id value s = .ok (s', flag)) :
    Filled drop answer id value s s' flag := by
  have hstart : Tbl.get (s.adCreativeList.insert id []) id = some [] := AList.lookup_insert _
  have hfilled := fillCreatives_filled hstart h
  refine ⟨hfilled.pend, hfilled.settles, ?_, fun u hu => ?_, hfilled.deals⟩
  · rw [hfilled.content, answer]
    split
    · rfl
    · simp [Place.step, keep, drop, hstart]
  · rw [hfilled.kept u hu]
    exact AList.lookup_insert_ne hu

end fill

/-! ### The stages -/

/-- The auctions of a phase. -/
def Request.exchange (x : Request) (adReq : AdReq) (auction_type : AuctionType)
    (input : PhaseInput) : Slots.Exchange :=
  Slots.Mobile.exchange (x.ctx auction_type input) adReq.toAdReq input.order input.draw

/-- What the parties of a request did. -/
def parties (x : Request) (st : Stages) : Parties where
  sina := sinaEvents answer st.sina.ads
  preDeal := wonBy (x.exchange st.adReq .preferredDeal x.preDeal) st.preDeal.winners
  openAuction := wonBy (x.exchange st.adReq .openAuction x.openAuction) st.openAuction.winners

/-- The DSPs answer with bids for what they were asked for. -/
def Fair (x : Request) (st : Stages) : Prop :=
  AnswersAsked (MobileRtb.rtb (x.ctx .preferredDeal x.preDeal)) st.pdBidList x.preDeal.rsp ∧
    AnswersAsked (MobileRtb.rtb (x.ctx .openAuction x.openAuction)) st.oaBidList x.openAuction.rsp

/-- The ad unit, its publisher and its resource are valid. -/
def served (d : Dict) (u : Str) : Bool :=
  (d.adunit u).any fun a => a.status = OBJECT_STATUS_VALID &&
    (d.publisher a.publisher).any fun p => p.status = OBJECT_STATUS_VALID &&
      (d.resource p.resource).any fun r => r.status = OBJECT_STATUS_VALID

/-- The bottom ads of an ad unit. -/
def bottomAds (d : Dict) (u : Str) : List Val := ((d.adunit u).map AdUnit.nad).getD []

section stages

variable {x : Request} {st : Stages} {adReq : AdReq}

lemma isServed_ok {d : Dict} {u : Str} {b : Bool} (h : isServed d u = .ok b) : b = served d u := by
  rw [isServed, isValid_eq, ok_bind, getPublisher, getAttribute_eq, getAttribute_eq] at h
  cases ha : d.adunit u with
  | none =>
    rw [ha] at h
    cases h
    simp [served, ha]
  | some a =>
    simp only [ha, Option.isSome_some, Bool.not_true, Bool.false_eq_true, if_false, Option.map_some,
      ok_bind, ne_eq, Option.some.injEq] at h
    by_cases hs : a.status = OBJECT_STATUS_VALID
    swap
    · rw [if_pos hs] at h
      cases h
      simp [served, ha, hs]
    simp only [hs, not_true_eq_false, if_false] at h
    cases hp : d.publisher a.publisher with
    | none =>
      rw [hp] at h
      cases h
      simp [served, ha, hs, hp]
    | some p =>
      simp only [hp] at h
      by_cases hps : p.status = OBJECT_STATUS_VALID
      swap
      · rw [if_pos hps] at h
        cases h
        simp [served, ha, hs, hp, hps]
      simp only [hps, not_true_eq_false, if_false] at h
      cases hr : d.resource p.resource with
      | none =>
        rw [hr] at h
        cases h
        simp [served, ha, hs, hp, hps, hr]
      | some r =>
        rw [hr] at h
        cases h
        simp [served, ha, hs, hp, hps, hr]

lemma getAdData_valid {d : Dict} {adReq' : AdReq} {valid : List Str}
    (h : getAdData d adReq = .ok (adReq', valid)) :
    adReq'.adunit_id = adReq.adunit_id ∧ valid = adReq.adunit_id.filter (served d) := by
  obtain ⟨size_map, -, h⟩ := bind_ok.mp h
  obtain ⟨l, hl, h⟩ := bind_ok.mp h
  cases h
  exact ⟨rfl, filterM_ok (fun u _ b hb => isServed_ok hb) hl⟩

lemma sinaStage_answered {valid : List Str} {s : SinaStage} (h : sinaStage x adReq valid = .ok s) :
    Answered drop (sinaEvents answer s.ads) ⟨valid, ∅, ∅⟩ s.page := by
  obtain ⟨l, -, h⟩ := bind_ok.mp h
  split at h
  · obtain ⟨queryReq, -, h⟩ := bind_ok.mp h
    obtain ⟨page, hpage, h⟩ := bind_ok.mp h
    cases h
    exact handleQueryRsp_answered fillAd_filled hpage
  · cases h
    exact ⟨fun _ => rfl, fun _ _ hu => .inl hu⟩

lemma launch_auctioned {auction_type : AuctionType} {input : PhaseInput} {query : Tbl (List Str)}
    {adPendList cmUrlList : List Str} {adCreativeList : Creatives} {out : Stage}
    (h : launch x adReq auction_type input query adPendList adCreativeList cmUrlList = .ok out) :
    Auctioned drop (x.exchange adReq auction_type input) (MobileRtb.rtb (x.ctx auction_type input))
      query input.rsp out.winners (placeOf adPendList adCreativeList)
      (placeOf out.adPendList out.adCreativeList) := by
  unfold launch at h
  split at h
  · obtain ⟨reqs, hreqs, h⟩ := bind_ok.mp h
    obtain ⟨⟨s, urls⟩, hs, h⟩ := bind_ok.mp h
    cases h
    obtain ⟨ex, hex, hs⟩ := bind_ok.mp hs
    obtain ⟨s', hrun, hs⟩ := bind_ok.mp hs
    cases hs
    refine auctioned (fun _ _ => rfl) ?_ hex hrun
    refine mapM_map_eq (fun e r hr => ?_) hreqs
    obtain ⟨imp, -, hr⟩ := bind_ok.mp hr
    obtain ⟨text, -, hr⟩ := bind_ok.mp hr
    obtain ⟨url, -, hr⟩ := bind_ok.mp hr
    cases hr
    rfl
  · cases h
    exact auctioned_none _

/-- The open auction is over pending ad units. -/
lemma getOaBidList_pending {d : Dict} {input : PhaseInput} {adPendList : List Str}
    {oaBidList : Tbl (List Str)} (h : getOaBidList d input adPendList = .ok oaBidList) {dspId : Str}
    {units : List Str} (hget : oaBidList.get dspId = some units) {u : Str} (hu : u ∈ units) :
    u ∈ adPendList := by
  obtain ⟨q, hq, h⟩ := bind_ok.mp h
  have hentered : OfferedOnce.Entered d adPendList q :=
    foldlM_prefix (P := OfferedOnce.Entered d) (d := []) (fun done u t t' _ ht hstep => ht.unit hstep)
      ⟨by simp, by simp⟩ hq
  have hcount := hentered.count dspId u
  rw [OfferedOnce.checkDspQps_get h hget, Option.getD_some] at hcount
  have hpos : 0 < units.count u := List.count_pos_iff.mpr hu
  rw [hcount] at hpos
  split at hpos
  · exact List.count_pos_iff.mp (Nat.pos_of_mul_pos_right hpos)
  · omega

/-- Run lemma: the last draw for a pending ad unit with bottom ads replaces what it shows. -/
lemma fillBottomAd_get {d : Dict} {draw : ℕ → Draw} {adPendList : List Str} {t t' : Creatives}
    (h : fillBottomAd d draw adPendList t = .ok t') (u : Str) :
    if u ∈ adPendList ∧ bottomAds d u ≠ [] then ∃ v ∈ bottomAds d u, t'.get u = some [v]
    else t'.get u = t.get u := by
  have hrun := foldlM_prefix (P := fun done (r : Creatives) =>
    if u ∈ done.map Prod.fst ∧ bottomAds d u ≠ [] then ∃ v ∈ bottomAds d u, r.get u = some [v]
    else r.get u = t.get u) (d := []) ?_ (by simp) h
  · rwa [List.nil_append, List.zipIdx_map_fst] at hrun
  · rintro done e r r' - hr hstep
    obtain ⟨nad, hnad, hstep⟩ := bind_ok.mp hstep
    cases nad with
    | none => cases hstep
    | some nad =>
    have hads : bottomAds d e.1 = nad := by
      rw [getNadList, getAttribute_eq] at hnad
      rw [bottomAds, Except.ok.inj hnad, Option.getD_some]
    simp only [List.map_append, List.mem_append, List.map_singleton, List.mem_singleton]
    change (if nad.length ≠ 0 then _ else _) = Except.ok r' at hstep
    by_cases hu : u = e.1
    · subst hu
      split at hstep
      · next hne =>
        have hnil : bottomAds d e.1 ≠ [] := by
          rw [hads]
          exact List.ne_nil_of_length_pos (Nat.pos_of_ne_zero hne)
        rw [if_pos ⟨.inr rfl, hnil⟩]
        cases hstep
        -- the number drawn is one of the list
        have hdraw : (if nad.length > 1 then (draw e.2).pick 1 nad.length else 1) - 1 < nad.length := by
          split
          · next hlen =>
            have hle := (draw e.2).pick_le 1 nad.length (by omega)
            omega
          · omega
        obtain ⟨v, hv⟩ : ∃ v, nad[(if nad.length > 1 then (draw e.2).pick 1 nad.length else 1) - 1]? =
            some v := ⟨_, List.getElem?_eq_getElem hdraw⟩
        refine ⟨v, ?_, ?_⟩
        · rw [hads]
          exact List.mem_of_getElem? hv
        · rw [hv, Tbl.get, AList.lookup_insert]
          rfl
      · next hzero =>
        have hnil : bottomAds d e.1 = [] := by
          rw [hads]
          exact List.eq_nil_of_length_eq_zero (not_not.mp hzero)
        cases hstep
        simpa [hnil] using hr
    · have hget : Tbl.get r' u = Tbl.get r u := by
        split at hstep <;> cases hstep
        · exact AList.lookup_insert_ne hu
        · rfl
      simpa only [hu, or_false, hget] using hr

/-- What the parties of a run did to the ad units. -/
lemma stages_exchanged (h : stages x = .ok st) :
    Exchanged drop st.valid (parties x st) (Fair x st)
      (placeOf st.openAuction.adPendList st.openAuction.adCreativeList) ∧
    st.adReq.adunit_id = x.body.adunit_id ∧ st.valid = x.body.adunit_id.filter (served x.dict) ∧
    fillBottomAd x.dict x.bottomDraw st.openAuction.adPendList st.openAuction.adCreativeList =
      .ok st.bottom := by
  obtain ⟨⟨adReq, valid⟩, hdata, h⟩ := bind_ok.mp h
  obtain ⟨sina, hsina, h⟩ := bind_ok.mp h
  obtain ⟨pdBidList, hpdBidList, h⟩ := bind_ok.mp h
  obtain ⟨preDeal, hpreDeal, h⟩ := bind_ok.mp h
  obtain ⟨oaBidList, hoaBidList, h⟩ := bind_ok.mp h
  obtain ⟨openAuction, hopen, h⟩ := bind_ok.mp h
  obtain ⟨bottom, hbottom, h⟩ := bind_ok.mp h
  cases h
  obtain ⟨hids, hvalid⟩ := getAdData_valid hdata
  refine ⟨exchanged (sinaStage_answered hsina) (fun dspId units hget => ?_)
    (launch_auctioned hpreDeal) (fun dspId units hget u hu => getOaBidList_pending hoaBidList hget hu)
    (launch_auctioned hopen), hids, hvalid, hbottom⟩
  rw [queueOf, OfferedOnce.checkDspQps_get hpdBidList hget, Option.getD_some]

end stages

/-! ### What a response shows -/

/-- What the response shows for an ad unit. -/
def shown (st : Stages) (u : Str) : List Val := (st.bottom.get u).getD []

/-- A unit a bottom ad is shown on: it was requested more often than the parties settled it. -/
def TakesBottomAd (x : Request) (st : Stages) (u : Str) : Prop :=
  served x.dict u ∧ bottomAds x.dict u ≠ [] ∧
    ((parties x st).events u).countP Event.isSettled < x.body.adunit_id.count u

instance (x : Request) (st : Stages) (u : Str) : Decidable (TakesBottomAd x st u) :=
  inferInstanceAs (Decidable (_ ∧ _ ∧ _))

section shown

variable {x : Request} {st : Stages} {ads : List Ad} {u : Str}

lemma count_valid (hvalid : st.valid = x.body.adunit_id.filter (served x.dict)) (u : Str) :
    st.valid.count u = if served x.dict u then x.body.adunit_id.count u else 0 := by
  rw [hvalid]
  by_cases hu : served x.dict u
  · rw [List.count_filter hu, if_pos hu]
  · rw [if_neg hu, List.count_eq_zero]
    exact fun hmem => hu (List.mem_filter.mp hmem).2

/-- What an ad unit shows, from where the auctions left it. -/
lemma stages_shown (h : stages x = .ok st) (u : Str) :
    if TakesBottomAd x st u then ∃ v ∈ bottomAds x.dict u, shown st u = [v]
    else shown st u = ((Place.run drop ⟨st.valid.count u, none⟩ ((parties x st).events u)).content).getD
      [] := by
  obtain ⟨hex, -, hvalid, hbottom⟩ := stages_exchanged h
  have hplace := hex.place u
  have hbottom := fillBottomAd_get hbottom u
  have hpending : u ∈ st.openAuction.adPendList ↔ served x.dict u ∧
      ((parties x st).events u).countP Event.isSettled < x.body.adunit_id.count u := by
    have hcount := congrArg Place.pending hplace
    rw [pending_run, count_valid hvalid] at hcount
    rw [← List.count_pos_iff]
    change 0 < (placeOf st.openAuction.adPendList st.openAuction.adCreativeList u).pending ↔ _
    rw [hcount]
    by_cases hu : served x.dict u
    · simp only [hu, if_true, true_and]
      omega
    · simp [hu]
  have hcontent := congrArg Place.content hplace
  change st.openAuction.adCreativeList.get u = _ at hcontent
  by_cases htakes : TakesBottomAd x st u
  · obtain ⟨hserved, hads, hcount⟩ := id htakes
    rw [if_pos htakes]
    rw [if_pos ⟨hpending.mpr ⟨hserved, hcount⟩, hads⟩] at hbottom
    obtain ⟨v, hv, hget⟩ := hbottom
    exact ⟨v, hv, by rw [shown, hget, Option.getD_some]⟩
  · rw [if_neg htakes]
    rw [if_neg fun hno => htakes ⟨(hpending.mp hno.1).1, hno.2, (hpending.mp hno.1).2⟩] at hbottom
    rw [shown, hbottom, hcontent]

/-- **What a response shows.** It lists the ad units as requested, and on each one stands a bottom
ad if the unit was requested more often than it was settled, else what the last party brought: the
winner of the open auction, else the one of the preferred deals, else the Sina ad engine. -/
theorem impress_shown (h : impress x = .ok (st, ads)) :
    ads = (x.body.adunit_id.map fun u => ⟨u, shown st u⟩).filter (fun ad => !isLeftOut st.adReq ad) ∧
    ∀ u, if TakesBottomAd x st u then ∃ v ∈ bottomAds x.dict u, shown st u = [v]
      else shown st u = (((parties x st).events u).getLast?.map Event.contents).getD [] := by
  obtain ⟨st', hst, h⟩ := bind_ok.mp h
  obtain ⟨ads', hads, h⟩ := bind_ok.mp h
  cases h
  obtain ⟨-, hids, -, -⟩ := stages_exchanged hst
  obtain ⟨_, -, hads⟩ := bind_ok.mp hads
  cases hads
  refine ⟨by rw [hids]; rfl, fun u => ?_⟩
  have hshown := stages_shown hst u
  by_cases htakes : TakesBottomAd x st u
  · simpa only [if_pos htakes] using hshown
  · rw [if_neg htakes] at hshown ⊢
    rw [hshown, content_drop]
    cases ((parties x st).events u).getLast? with
    | none => rfl
    | some e => cases e <;> rfl

/-- **An ad unit requested once shows the ads of one party**, if the DSPs answer with bids for what
they were asked for and the Sina ad engine names the unit once at most: what the only party that
settled it brought, or a bottom ad where nobody did. -/
theorem impress_once (h : impress x = .ok (st, ads)) (hfair : Fair x st) (hserved : served x.dict u)
    (hcount : x.body.adunit_id.count u = 1) (hsina : (sinaEvents answer st.sina.ads u).length ≤ 1) :
    (((parties x st).events u).filter Event.isSettled = [] ∧
      if bottomAds x.dict u = [] then shown st u = [] else ∃ v ∈ bottomAds x.dict u, shown st u = [v]) ∨
    ∃ contents, ((parties x st).events u).filter Event.isSettled = [.settled contents] ∧
      shown st u = contents := by
  obtain ⟨st', hst, h⟩ := bind_ok.mp h
  obtain ⟨_, -, h⟩ := bind_ok.mp h
  cases h
  obtain ⟨hex, -, hvalid, -⟩ := stages_exchanged hst
  have hvalidCount : st.valid.count u = 1 := by rw [count_valid hvalid, if_pos hserved, hcount]
  have hshown := stages_shown hst u
  have honce := hex.once rfl hfair hvalidCount hsina
  rw [hex.place, hvalidCount] at honce
  rw [hvalidCount] at hshown
  rcases honce with ⟨hnone, hplace⟩ | ⟨contents, hone, hplace⟩
  · refine .inl ⟨hnone, ?_⟩
    have hsettled : ((parties x st).events u).countP Event.isSettled = 0 := by
      rw [List.countP_eq_length_filter, hnone]
      rfl
    by_cases hads : bottomAds x.dict u = []
    · rw [if_pos hads]
      rwa [if_neg fun htakes : TakesBottomAd x st u => htakes.2.1 hads, hplace] at hshown
    · rw [if_neg hads]
      rwa [if_pos (show TakesBottomAd x st u from ⟨hserved, hads, by rw [hsettled, hcount]; omega⟩)]
        at hshown
  · refine .inr ⟨contents, hone, ?_⟩
    have hsettled : ((parties x st).events u).countP Event.isSettled = 1 := by
      rw [List.countP_eq_length_filter, hone]
      rfl
    have hnot : ¬ TakesBottomAd x st u := by
      rintro ⟨-, -, hlt⟩
      rw [hsettled, hcount] at hlt
      omega
    rwa [if_neg hnot, hplace] at hshown

end shown

section samples

open Sax.Capacity (plainDict plainInput)
open Sax.Clearing (ok appText appBody)

/-- A request for `U`, on which DSP 2 bids 3. -/
def bidRequest : Request where
  lib := .ofTexts [(appText "3" "x", appBody 3 "x")]
  dict := plainDict
  body := ⟨[lit "U"], [lit "300*250"], [], [], [], [], none, 0, none, none⟩
  ip := lit "1.1.1.1"
  sina := fun _ => ⟨500, []⟩
  preDeal := plainInput (ok (appText "3" "x"))
  openAuction := plainInput (ok (appText "3" "x"))
  bottomDraw := fun _ => .least

lemma bidRequest_run : ∃ st ads, impress bidRequest = .ok (st, ads) ∧ st.sina.ads = [] ∧
    st.pdBidList = ∅ ∧ st.oaBidList.entries = [⟨lit "2", [lit "U"]⟩] := by
  have hrun : ((impress bidRequest).map fun r => r.1.sina.ads.isEmpty && r.1.pdBidList.keys.isEmpty &&
      decide (r.1.oaBidList.entries.map (fun e => ((e.1, e.2) : Str × List Str)) =
        [(lit "2", [lit "U"])])) = .ok true := by
    decide +kernel
  cases h : impress bidRequest with
  | error e => rw [h] at hrun; cases hrun
  | ok r =>
    rw [h] at hrun
    have hall := Except.ok.inj hrun
    rw [Bool.and_eq_true, Bool.and_eq_true, decide_eq_true_eq] at hall
    obtain ⟨⟨hads, hpd⟩, hoa⟩ := hall
    refine ⟨r.1, r.2, rfl, List.isEmpty_iff.mp hads, ?_, ?_⟩
    · exact AList.ext (List.map_eq_nil_iff.mp (List.isEmpty_iff.mp hpd))
    · match hentries : r.1.oaBidList.entries, hoa with
      | [⟨_, _⟩], hoa =>
        cases hoa
        rfl

lemma bidRequest_fair {st : Stages} (hpd : st.pdBidList = ∅)
    (hoa : st.oaBidList.entries = [⟨lit "2", [lit "U"]⟩]) : Fair bidRequest st := by
  constructor
  · intro dspId units hget
    rw [hpd] at hget
    cases hget
  · intro dspId units hget p hp
    rw [← Tbl.mem_entries, hoa, List.mem_singleton] at hget
    cases hget
    have hall : ∀ p ∈ (MobileRtb.rtb (bidRequest.ctx .openAuction bidRequest.openAuction)).entries
        (lit "2", ok (appText "3" "x")), p.2.id = lit "U" := by decide +kernel
    exact List.mem_singleton.mpr (hall p hp)

theorem impress_shown_sample : ∃ st ads,
    ads = ([lit "U"].map fun u => ⟨u, shown st u⟩).filter (fun ad => !isLeftOut st.adReq ad) ∧
    ∀ u, if TakesBottomAd bidRequest st u then
        ∃ v ∈ bottomAds bidRequest.dict u, shown st u = [v]
      else shown st u = (((parties bidRequest st).events u).getLast?.map Event.contents).getD [] := by
  obtain ⟨st, ads, hrun, -⟩ := bidRequest_run
  exact ⟨st, ads, impress_shown hrun⟩

theorem impress_once_sample : ∃ st,
    (((parties bidRequest st).events (lit "U")).filter Event.isSettled = [] ∧
      if bottomAds bidRequest.dict (lit "U") = [] then shown st (lit "U") = []
      else ∃ v ∈ bottomAds bidRequest.dict (lit "U"), shown st (lit "U") = [v]) ∨
    ∃ contents, ((parties bidRequest st).events (lit "U")).filter Event.isSettled =
      [.settled contents] ∧ shown st (lit "U") = contents := by
  obtain ⟨st, ads, hrun, hads, hpd, hoa⟩ := bidRequest_run
  refine ⟨st, impress_once hrun (bidRequest_fair hpd hoa) (by decide +kernel) (by decide +kernel) ?_⟩
  rw [hads]
  exact Nat.zero_le 1

end samples

end Sax.Mobile
