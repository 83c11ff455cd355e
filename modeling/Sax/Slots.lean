import Sax.Clearing
import Sax.Creative
import Sax.Replace
import Sax.Vast
import Sax.WebRtb

/-!
Filling the slots of a page in the mobile and the video exchange: `handleBidRsp` of `mobile_rtb.lua`
and of `video_rtb.lua`.

The markup of a winning creative is decoded after the auction, and its ad unit leaves the pending
list whatever came of it.
-/

namespace Sax.Slots

open Sax.LuaVal Sax.Loop Sax.Const Sax.Runtime Sax.Store Sax.Auction Sax.Extract Sax.Creative
open Sax.SecondPrice (IsTop)
open Sax.BidRsp (Ctx)
open Sax.MobileRtb (Ad)
open Sax.WebRtb (Creatives removeAdFromPendList)

abbrev Win := Winner (List Ad)

/-- What the loop over the auctions carries; `winners` records whom it selected. -/
structure St where
  adPendList : List Str
  adCreativeList : Creatives
  winners : List (Str × Win)

/-- What the copies of `handleBidRsp` differ in: the auction, the logs before and after the content
is filled in, the list it is added to, and what a creative becomes. -/
structure Exchange where
  selectWinner : Str → List (Bid (List Ad)) → Lua Win
  logBefore : Str → Win → Lua Unit
  logAfter : Str → Win → Lua Unit
  filled : Creatives → Str → List Val
  content : Str → Win → Ad → Lua Val

/-- The auction of one ad unit. -/
def Exchange.round (x : Exchange) (s : St) (e : Sigma fun _ : Str => List (Bid (List Ad))) :
    Lua St := do
  let winner ← x.selectWinner e.1 e.2
  x.logBefore e.1 winner
  let contents ← winner.creative.mapM (x.content e.1 winner)
  x.logAfter e.1 winner
  return ⟨removeAdFromPendList s.adPendList e.1,
    s.adCreativeList.insert e.1 (x.filled s.adCreativeList e.1 ++ contents),
    s.winners ++ [(e.1, winner)]⟩

/-- The texts of the unique ids of the winner's creatives, which a log wants. -/
def logCreatives (c : Ctx) (winner : Win) : Lua Unit :=
  winner.creative.forM fun creative => do
    let _ ← concatUniqueId c winner.dsp_id creative.id

/-! ### `mobile_rtb.lua` -/

namespace Mobile

def generateClickUrl (c : Ctx) (adReq : MobileRtb.AdReq) (dspId adUnitId creativeId : Str) :
    Lua Str := do
  let uniqueId ← concatUniqueId c dspId creativeId
  let t := c.lib.encode_base64
    (c.bid ++ tab ++ dspId ++ tab ++ adUnitId ++ tab ++ creativeId ++ tab ++ uniqueId)
  let targeting := c.lib.encode_base64
    (lit "-" ++ tab ++ orDash adReq.ip ++ tab ++ orDash adReq.device_id)
  return RTB_CLICK_URL ++ lit "?" ++ c.lib.encode_args
    [(RTB_CLICK_ARG_TYPE, CLICK_TYPE_DSP), (RTB_CLICK_ARG_T, t),
      (RTB_CLICK_ARG_TARGETING, targeting)]

def alterThirdPartyDspCreative (c : Ctx) (adReq : MobileRtb.AdReq) (creative : Ad)
    (dspId adUnitId : Str) (winCpmPrice : Option ℚ) : Lua Val := do
  match c.lib.decode creative.markup with
  | .error _ => return .str []
  | .ok result =>
    -- expand winning price macro
    let msg := c.lib.escape_uri (← priceMsg c dspId winCpmPrice)
    let view ← field "view" (some result)
    let urls ← (← ipairs view).mapM fun url => gsub c.lib (some url) RTB_MACRO_WIN_PRICE msg
    -- add view url
    let url ← generateViewUrl c dspId adUnitId creative.id winCpmPrice
    let view ← insertFirst (.str url) (view.map fun v => v.setArr (urls.map .str))
    -- add click-through url
    let url ← generateClickUrl c adReq dspId adUnitId creative.id
    let click ← insertFirst (.str url) (← field "click" (some result))
    let result ← setField "pv" (some view) result
    let result ← setField "view" none result
    let result ← setField "monitor" (some click) result
    let result ← setField "click" none result
    setField "lineitem_id" (some (.str (lit "dsp-" ++ dspId ++ lit "-" ++ creative.id))) result

/-- `temp` of `fillAdCreativeListForDsp`, which stays empty for the Sina DSP. -/
def content (c : Ctx) (adReq : MobileRtb.AdReq) (adUnitId : Str) (winner : Win) (creative : Ad) :
    Lua Val :=
  if winner.dsp_id = SINA_DSP_ID then .ok .empty
  else alterThirdPartyDspCreative c adReq creative winner.dsp_id adUnitId winner.win_cpm_price

def logDspWin (c : Ctx) (winner : Win) : Lua Unit := do
  logCreatives c winner
  let _ ← concatNumber c.lib winner.win_cpm_price

/-- What was filled in before is dropped. -/
def exchange (c : Ctx) (adReq : MobileRtb.AdReq) (o : Order) (draw : Str → Draw) : Exchange where
  selectWinner u := MobileRtb.selectWinner c.dict c.auction_type o (draw u) u
  logBefore _ _ := .ok ()
  logAfter _ := logDspWin c
  filled _ _ := []
  content := content c adReq

def handleBidRsp (c : Ctx) (adReq : MobileRtb.AdReq) (o : Order) (draw : Str → Draw)
    (bidRspList : List Rsp) (dspIdList adPendList : List Str) (adCreativeList : Creatives)
    (cmUrlList : List Str) : Lua (St × List Str) := do
  let extracted ← MobileRtb.extractAdBid c bidRspList dspIdList cmUrlList
  let s ← (o.pairs extracted.adBidList).foldlM (exchange c adReq o draw).round
    ⟨adPendList, adCreativeList, []⟩
  return (s, extracted.cmUrlList)

end Mobile

/-! ### `video_rtb.lua` -/

/-- The number of matches `ngx.re.gsub` replaces, with `skip` bytes of one still to pass. -/
def matchesFrom (pat : Str) : (skip : ℕ) → Str → ℕ
  | _, [] => 0
  | skip + 1, _ :: s => matchesFrom pat skip s
  | 0, c :: s =>
    if pat.isPrefixOf (c :: s) then 1 + matchesFrom pat (pat.length - 1) s
    else matchesFrom pat 0 s

/-- The XML parser: what it calls back with, and which texts are documents. -/
structure Parser where
  parse : Str → Vast.Parsed
  WellFormed : Str → Prop
  succ_of_wellFormed : ∀ markup, WellFormed markup → (parse markup).succ

namespace Video

/-- The result, and how many click macros were expanded. -/
def expandMacro (c : Ctx) (creative : Ad) (str adUnitId dspId : Str) (winCpmPrice : Option ℚ) :
    Lua (Str × ℕ) := do
  let url_unesc ← clickUrlUnesc c dspId adUnitId creative.id
  let url_esc := c.lib.escape_uri url_unesc
  let result := c.lib.gsub str RTB_MACRO_CLICK_UNESC url_unesc
  let num := matchesFrom RTB_MACRO_CLICK_UNESC 0 str + matchesFrom RTB_MACRO_CLICK_ESC 0 result
  let result := c.lib.gsub result RTB_MACRO_CLICK_ESC url_esc
  let msg := c.lib.escape_uri (← priceMsg c dspId winCpmPrice)
  return (c.lib.gsub result RTB_MACRO_WIN_PRICE msg, num)

/-- The lists as a table, without the numbers that stand beside their entries. -/
def table (content : Vast.Content) : Val :=
  .obj [("src", .strs (content.src.map Prod.snd)), ("len", .arr (content.len.map .num)),
    ("size", .strs (content.size.map Prod.snd)), ("type", .strs (content.type.map Prod.snd)),
    ("volume", .strs content.volume), ("link", .strs content.link),
    ("monitor", .strs content.monitor), ("pvBegin", .strs content.pvBegin),
    ("pvEnd", .strs content.pvEnd)]

def nullret : Val := table {}

def dspParseVast (c : Ctx) (parser : Parser) (creative : Ad) (adUnitId dspId : Str)
    (winCpmPrice : Option ℚ) : Lua Val := do
  match ← Vast.getContent c.lib (parser.parse creative.markup) with
  | none => return nullret
  | some content =>
    let expand := fun str => expandMacro c creative str adUnitId dspId winCpmPrice
    let pvBegin ← content.pvBegin.mapM expand
    let viewUrl ← generateViewUrl c dspId adUnitId creative.id winCpmPrice
    let pvEnd ← content.pvEnd.mapM expand
    let monitor ← content.monitor.mapM expand
    let link ← content.link.mapM expand
    let click := ((monitor ++ link).map Prod.snd).sum
    -- where a macro was expanded this URL has been made before
    let clickUrl ← generateClickUrl c dspId adUnitId creative.id
    return table { content with
      pvBegin := viewUrl :: pvBegin.map Prod.fst
      pvEnd := pvEnd.map Prod.fst
      monitor := (if click = 0 then [clickUrl] else []) ++ monitor.map Prod.fst
      link := link.map Prod.fst }

/-- `result[k] = result[k] or {}`, and `url` behind what it has. -/
def append (k : String) (url : Str) (result : Val) : Lua Val := do
  let list ← match ← field k (some result) with
    | none => .ok .empty
    | some (.bool false) => .ok .empty
    | some list => .ok list
  setField k (some (← insertLast (.str url) (some list))) result

/-- `args` behind the first URL of `result[k]`. -/
def addArgs (c : Ctx) (k : String) (args : Str) (result : Val) : Lua Val := do
  let list ← field k (some result)
  let first ← checkString c.lib.tostring (← item 1 list)
  let list ← setItem 1 (.str (first ++ notation_ first ++ args)) (list.getD .null)
  setField k (some list) result

def alterSinaDspCreative (c : Ctx) (creative : Ad) (adUnitId dspId : Str)
    (winCpmPrice : Option ℚ) : Lua Val := do
  match c.lib.decode creative.markup with
  | .error _ => return .empty
  | .ok result =>
    -- add click-through url
    let result ← append "monitor" (← generateClickUrl c dspId adUnitId creative.id) result
    -- add view url
    let viewUrl ← generateViewUrl c dspId adUnitId creative.id winCpmPrice
    let result ← append "pvBegin" viewUrl result
    -- add winning price
    let args := c.lib.encode_args [(SINA_DSP_CLICK_ARG_P, ← priceMsg c dspId winCpmPrice)]
    let result ← addArgs c "monitor" args result
    addArgs c "pvBegin" args result

/-- What `fillAdCreativeListForDsp` adds for a creative. -/
def content (c : Ctx) (parser : Parser) (adUnitId : Str) (winner : Win) (creative : Ad) : Lua Val :=
  if winner.dsp_id = SINA_DSP_ID then
    alterSinaDspCreative c creative adUnitId winner.dsp_id winner.win_cpm_price
  else dspParseVast c parser creative adUnitId winner.dsp_id winner.win_cpm_price

/-- What was filled in before stays. -/
def exchange (c : Ctx) (pub : Tbl ℤ) (parser : Parser) (o : Order) (draw : Str → Draw) :
    Exchange where
  selectWinner u := VideoRtb.selectWinner c.dict pub c.auction_type o (draw u) u
  logBefore _ := logCreatives c
  logAfter _ _ := .ok ()
  filled adCreativeList u := (adCreativeList.get u).getD []
  content := content c parser

def handleBidRsp (c : Ctx) (pub : Tbl ℤ) (parser : Parser) (o : Order) (draw : Str → Draw)
    (bidRspList : List Rsp) (dspIdList adPendList : List Str) (adCreativeList : Creatives)
    (cmUrlList : List Str) : Lua (St × List Str) := do
  let extracted ← VideoRtb.extractAdBid c pub bidRspList dspIdList cmUrlList
  let s ← (o.pairs extracted.adBidList).foldlM (exchange c pub parser o draw).round
    ⟨adPendList, adCreativeList, []⟩
  return (s, extracted.cmUrlList)

end Video

/-! ### What a creative is decoded to -/

/-- A decoded markup for a page: `view` and `click` have become `pv` and `monitor`, each behind a
URL of the exchange and with the price in the views, and the other fields are as they were. -/
structure Mobile.Made (c : Ctx) (dspId creativeId : Str) (result v : Val) : Prop where
  kept : ∀ k, lit k ∉ ["view", "click", "pv", "monitor", "lineitem_id"].map lit →
    v.get k = result.get k
  pv : ∃ url msg views urls h, result.get "view" = some (.table views h) ∧
    List.Forall₂ (fun view url => ∃ text, checkString c.lib.tostring (some view) = .ok text ∧
      url = c.lib.gsub text RTB_MACRO_WIN_PRICE msg) views urls ∧
    v.get "pv" = some (.table (.str url :: urls.map .str) h)
  monitor : ∃ url clicks h, result.get "click" = some (.table clicks h) ∧
    v.get "monitor" = some (.table (.str url :: clicks) h)
  lineitem : v.get "lineitem_id" = some (.str (lit "dsp-" ++ dspId ++ lit "-" ++ creativeId))

/-- What the mobile exchange makes of a markup that is JSON, unless it is the Sina DSP's. -/
def Mobile.Decoded (c : Ctx) (_adUnitId : Str) (winner : Win) (creative : Ad) (v : Val) : Prop :=
  winner.dsp_id ≠ SINA_DSP_ID ∧ ∃ result, c.lib.decode creative.markup = .ok result ∧
    Mobile.Made c winner.dsp_id creative.id result v

/-- The list of a field, which may be missing, with a URL behind it and arguments behind the
first. -/
def Extended (c : Ctx) (old new : Option Val) : Prop :=
  ∃ list h url first args,
    (old = some (.table list h) ∨ (old = none ∨ old = some (.bool false)) ∧ list = [] ∧ h = []) ∧
    checkString c.lib.tostring (list ++ [Val.str url])[0]? = .ok first ∧
    new = some (.table ((list ++ [Val.str url]).set 0 (.str (first ++ args))) h)

/-- A decoded markup of the Sina DSP, with a URL of the exchange in two of its fields. -/
structure Video.MadeSina (c : Ctx) (result v : Val) : Prop where
  kept : ∀ k, lit k ∉ ["monitor", "pvBegin"].map lit → v.get k = result.get k
  monitor : Extended c (result.get "monitor") (v.get "monitor")
  pvBegin : Extended c (result.get "pvBegin") (v.get "pvBegin")

/-- The content of a document with its macros expanded, a URL of the exchange in front of `pvBegin`
and one in front of `monitor` unless a click macro made it. -/
structure Video.MadeVast (expand : Str → Lua (Str × ℕ)) (content made : Vast.Content) : Prop where
  src : made.src = content.src
  len : made.len = content.len
  size : made.size = content.size
  type : made.type = content.type
  volume : made.volume = content.volume
  link : List.Forall₂ (fun s t => ∃ n, expand s = .ok (t, n)) content.link made.link
  pvEnd : List.Forall₂ (fun s t => ∃ n, expand s = .ok (t, n)) content.pvEnd made.pvEnd
  pvBegin : ∃ url urls, made.pvBegin = url :: urls ∧
    List.Forall₂ (fun s t => ∃ n, expand s = .ok (t, n)) content.pvBegin urls
  monitor : ∃ urls, (made.monitor = urls ∨ ∃ url, made.monitor = url :: urls) ∧
    List.Forall₂ (fun s t => ∃ n, expand s = .ok (t, n)) content.monitor urls

/-- What the video exchange makes of a markup of the Sina DSP that is JSON, and of another one that
is a document. -/
def Video.Decoded (c : Ctx) (parser : Parser) (adUnitId : Str) (winner : Win) (creative : Ad)
    (v : Val) : Prop :=
  if winner.dsp_id = SINA_DSP_ID then
    ∃ result, c.lib.decode creative.markup = .ok result ∧ Video.MadeSina c result v
  else parser.WellFormed creative.markup ∧ ∃ content made,
    Vast.getContent c.lib (parser.parse creative.markup) = .ok (some content) ∧
      Video.MadeVast (fun str => Video.expandMacro c creative str adUnitId winner.dsp_id
        winner.win_cpm_price) content made ∧ v = Video.table made

/-- The creatives of the Sina DSP are not decoded in the mobile exchange. -/
def Mobile.Decodes (c : Ctx) (dspId : Str) (creative : Ad) : Prop :=
  dspId ≠ SINA_DSP_ID ∧ ∃ v, c.lib.decode creative.markup = .ok v

def Video.Decodes (c : Ctx) (parser : Parser) (dspId : Str) (creative : Ad) : Prop :=
  if dspId = SINA_DSP_ID then ∃ v, c.lib.decode creative.markup = .ok v
  else parser.WellFormed creative.markup

/-- The creatives that decode are decoded, and no others. -/
structure Faithful (x : Exchange) (Decoded : Str → Win → Ad → Val → Prop)
    (Decodes : Str → Ad → Prop) : Prop where
  decodes : ∀ u winner creative v, Decoded u winner creative v → Decodes winner.dsp_id creative
  decoded : ∀ u winner creative v, x.content u winner creative = .ok v →
    Decodes winner.dsp_id creative → Decoded u winner creative v

section decoded

variable {c : Ctx} {u dspId : Str} {price : Option ℚ} {creative : Ad} {v : Val}

lemma field_ok {k : String} {x : Val} {y : Option Val} (htable : x.isTable)
    (h : field k (some x) = .ok y) : y = x.get k := by
  rw [field_of_isTable htable] at h
  exact (Except.ok.inj h).symm

lemma made_of_alter {adReq : MobileRtb.AdReq} {result : Val}
    (hdecode : c.lib.decode creative.markup = .ok result)
    (h : Mobile.alterThirdPartyDspCreative c adReq creative dspId u price = .ok v) :
    Mobile.Made c dspId creative.id result v := by
  unfold Mobile.alterThirdPartyDspCreative at h
  rw [hdecode] at h
  dsimp only at h
  obtain ⟨msg, -, h⟩ := bind_ok.mp h
  obtain ⟨view, hview, h⟩ := bind_ok.mp h
  obtain ⟨views, hviews, h⟩ := bind_ok.mp h
  obtain ⟨urls, hurls, h⟩ := bind_ok.mp h
  obtain ⟨url, -, h⟩ := bind_ok.mp h
  obtain ⟨pv, hpv, h⟩ := bind_ok.mp h
  obtain ⟨clickUrl, -, h⟩ := bind_ok.mp h
  obtain ⟨click, hclick, h⟩ := bind_ok.mp h
  obtain ⟨monitor, hmonitor, h⟩ := bind_ok.mp h
  obtain ⟨r₁, h₁, h⟩ := bind_ok.mp h
  obtain ⟨r₂, h₂, h⟩ := bind_ok.mp h
  obtain ⟨r₃, h₃, h⟩ := bind_ok.mp h
  obtain ⟨r₄, h₄, h⟩ := bind_ok.mp h
  have htable : result.isTable := isTable_of_setField h₁
  obtain ⟨g, hg⟩ := ipairs_ok.mp hviews
  rw [hg] at hview hpv
  refine ⟨fun k hk => ?_, ?_, ?_, Val.get_setField h⟩
  · simp only [List.map_cons, List.map_nil, List.mem_cons, List.not_mem_nil, or_false, not_or] at hk
    obtain ⟨hkview, hkclick, hkpv, hkmonitor, hkitem⟩ := hk
    rw [Val.get_setField_ne hkitem h, Val.get_setField_ne hkclick h₄,
      Val.get_setField_ne hkmonitor h₃, Val.get_setField_ne hkview h₂,
      Val.get_setField_ne hkpv h₁]
  · refine ⟨url, c.lib.escape_uri msg, views, urls, g, (field_ok htable hview).symm, ?_, ?_⟩
    · refine (mapM_forall₂ hurls).imp fun view text htext => ?_
      obtain ⟨t, ht, htext⟩ := bind_ok.mp htext
      exact ⟨t, ht, (pure_ok.mp htext).symm⟩
    · rw [Val.get_setField_ne (by decide) h, Val.get_setField_ne (by decide) h₄,
        Val.get_setField_ne (by decide) h₃, Val.get_setField_ne (by decide) h₂,
        Val.get_setField h₁]
      cases hpv
      rfl
  · obtain ⟨clicks, g', hclicks, hlist⟩ := insertFirst_ok.mp hmonitor
    rw [hlist] at h₃
    refine ⟨clickUrl, clicks, g', ?_, ?_⟩
    · rw [← field_ok htable hclick, hclicks]
    · rw [Val.get_setField_ne (by decide) h, Val.get_setField_ne (by decide) h₄,
        Val.get_setField h₃]

lemma append_ok {k : String} {url : Str} {x w : Val} (h : Video.append k url x = .ok w) :
    ∃ list g, (x.get k = some (.table list g) ∨
        (x.get k = none ∨ x.get k = some (.bool false)) ∧ list = [] ∧ g = []) ∧
      setField k (some (.table (list ++ [.str url]) g)) x = .ok w := by
  obtain ⟨old, hold, h⟩ := bind_ok.mp h
  have hbody : ∃ list, (old = some list ∨ (old = none ∨ old = some (.bool false)) ∧ list = .empty) ∧
      (insertLast (.str url) (some list) >>= fun new => setField k (some new) x) = .ok w := by
    dsimp only at h
    split at h
    · exact ⟨_, .inr ⟨.inl rfl, rfl⟩, h⟩
    · exact ⟨_, .inr ⟨.inr rfl, rfl⟩, h⟩
    · exact ⟨_, .inl rfl, h⟩
  obtain ⟨list, hlist, h⟩ := hbody
  obtain ⟨new, hnew, h⟩ := bind_ok.mp h
  rw [field_ok (isTable_of_setField h) hold] at hlist
  obtain ⟨a, g, ha, rfl⟩ := insertLast_ok.mp hnew
  cases ha
  refine ⟨a, g, hlist.imp_right fun ⟨hnone, hempty⟩ => ⟨hnone, ?_⟩, h⟩
  cases hempty
  exact ⟨rfl, rfl⟩

lemma addArgs_ok {k : String} {args : Str} {x w : Val} {list : List Val} {g : List (Str × Val)}
    (hk : x.get k = some (.table list g)) (h : Video.addArgs c k args x = .ok w) :
    ∃ first mark, checkString c.lib.tostring list[0]? = .ok first ∧
      setField k (some (.table (list.set 0 (.str (first ++ mark))) g)) x = .ok w := by
  obtain ⟨old, hold, h⟩ := bind_ok.mp h
  obtain ⟨v₀, hv₀, h⟩ := bind_ok.mp h
  obtain ⟨first, hfirst, h⟩ := bind_ok.mp h
  obtain ⟨new, hnew, h⟩ := bind_ok.mp h
  rw [field_ok (isTable_of_setField h) hold, hk] at hv₀ hnew
  cases hv₀
  cases hnew
  exact ⟨first, notation_ first ++ args, hfirst, by rw [← List.append_assoc]; exact h⟩

lemma made_of_sina {result : Val} (hdecode : c.lib.decode creative.markup = .ok result)
    (h : Video.alterSinaDspCreative c creative u dspId price = .ok v) :
    Video.MadeSina c result v := by
  unfold Video.alterSinaDspCreative at h
  rw [hdecode] at h
  obtain ⟨url, -, h⟩ := bind_ok.mp h
  obtain ⟨r₁, h₁, h⟩ := bind_ok.mp h
  obtain ⟨viewUrl, -, h⟩ := bind_ok.mp h
  obtain ⟨r₂, h₂, h⟩ := bind_ok.mp h
  obtain ⟨msg, -, h⟩ := bind_ok.mp h
  obtain ⟨r₃, h₃, h⟩ := bind_ok.mp h
  obtain ⟨monitor, g, hmonitor, h₁⟩ := append_ok h₁
  obtain ⟨pvBegin, g', hpvBegin, h₂⟩ := append_ok h₂
  have hget₂ : r₂.get "monitor" = some (.table (monitor ++ [.str url]) g) := by
    rw [Val.get_setField_ne (by decide) h₂, Val.get_setField h₁]
  obtain ⟨first, args, hfirst, h₃⟩ := addArgs_ok hget₂ h₃
  have hget₃ : r₃.get "pvBegin" = some (.table (pvBegin ++ [.str viewUrl]) g') := by
    rw [Val.get_setField_ne (by decide) h₃, Val.get_setField h₂]
  obtain ⟨first', args', hfirst', h⟩ := addArgs_ok hget₃ h
  refine ⟨fun k hk => ?_, ⟨monitor, g, url, first, args, hmonitor, hfirst, ?_⟩,
    ⟨pvBegin, g', viewUrl, first', args', ?_, hfirst', Val.get_setField h⟩⟩
  · simp only [List.map_cons, List.map_nil, List.mem_cons, List.not_mem_nil, or_false, not_or] at hk
    rw [Val.get_setField_ne hk.2 h, Val.get_setField_ne hk.1 h₃, Val.get_setField_ne hk.2 h₂,
      Val.get_setField_ne hk.1 h₁]
  · rw [Val.get_setField_ne (by decide) h, Val.get_setField h₃]
  · rwa [Val.get_setField_ne (by decide) h₁] at hpvBegin

/-- The results of the expansions, without the numbers of the macros. -/
lemma expanded {f : Str → Lua (Str × ℕ)} {l : List Str} {r : List (Str × ℕ)}
    (h : l.mapM f = .ok r) :
    List.Forall₂ (fun s t => ∃ n, f s = .ok (t, n)) l (r.map Prod.fst) := by
  rw [List.forall₂_map_right_iff]
  exact (mapM_forall₂ h).imp fun s e he => ⟨e.2, he⟩

lemma made_of_vast {parser : Parser} (hformed : parser.WellFormed creative.markup)
    (h : Video.dspParseVast c parser creative u dspId price = .ok v) :
    ∃ content made, Vast.getContent c.lib (parser.parse creative.markup) = .ok (some content) ∧
      Video.MadeVast (fun str => Video.expandMacro c creative str u dspId price) content made ∧
        v = Video.table made := by
  unfold Video.dspParseVast at h
  obtain ⟨r, hr, h⟩ := bind_ok.mp h
  obtain ⟨st, -, hst⟩ := bind_ok.mp hr
  rw [pure_ok, parser.succ_of_wellFormed _ hformed, if_pos rfl] at hst
  subst hst
  obtain ⟨pvBegin, hpvBegin, h⟩ := bind_ok.mp h
  obtain ⟨viewUrl, -, h⟩ := bind_ok.mp h
  obtain ⟨pvEnd, hpvEnd, h⟩ := bind_ok.mp h
  obtain ⟨monitor, hmonitor, h⟩ := bind_ok.mp h
  obtain ⟨link, hlink, h⟩ := bind_ok.mp h
  obtain ⟨clickUrl, -, h⟩ := bind_ok.mp h
  refine ⟨st.content, _, hr, ?_, (pure_ok.mp h).symm⟩
  refine ⟨rfl, rfl, rfl, rfl, rfl, expanded hlink, expanded hpvEnd,
    ⟨viewUrl, _, rfl, expanded hpvBegin⟩, ⟨_, ?_, expanded hmonitor⟩⟩
  dsimp only
  split
  · exact .inr ⟨clickUrl, rfl⟩
  · exact .inl rfl

lemma mobile_faithful (c : Ctx) (adReq : MobileRtb.AdReq) (o : Order) (draw : Str → Draw) :
    Faithful (Mobile.exchange c adReq o draw) (Mobile.Decoded c) (Mobile.Decodes c) where
  decodes _ _ _ _ := fun ⟨hdsp, result, hresult, _⟩ => ⟨hdsp, result, hresult⟩
  decoded u winner creative v h := by
    rintro ⟨hdsp, result, hresult⟩
    have halter : Mobile.content c adReq u winner creative = .ok v := h
    rw [Mobile.content, if_neg hdsp] at halter
    exact ⟨hdsp, result, hresult, made_of_alter hresult halter⟩

lemma video_faithful (c : Ctx) (pub : Tbl ℤ) (parser : Parser) (o : Order) (draw : Str → Draw) :
    Faithful (Video.exchange c pub parser o draw) (Video.Decoded c parser)
      (Video.Decodes c parser) where
  decodes u winner creative v h := by
    unfold Video.Decoded at h
    unfold Video.Decodes
    split at h
    · next hdsp =>
      rw [if_pos hdsp]
      exact h.imp fun _ hresult => hresult.1
    · next hdsp =>
      rw [if_neg hdsp]
      exact h.1
  decoded u winner creative v h hdecodes := by
    have hcontent : Video.content c parser u winner creative = .ok v := h
    unfold Video.content at hcontent
    unfold Video.Decodes at hdecodes
    unfold Video.Decoded
    split at hcontent
    · next hdsp =>
      rw [if_pos hdsp] at hdecodes ⊢
      obtain ⟨result, hresult⟩ := hdecodes
      exact ⟨result, hresult, made_of_sina hresult hcontent⟩
    · next hdsp =>
      rw [if_neg hdsp] at hdecodes ⊢
      exact ⟨hdecodes, made_of_vast hdecodes hcontent⟩

end decoded

/-! ### Who left the pending list -/

/-- What a winner's creative was decoded to was added to the list of the ad unit. -/
def Serves (Decoded : Str → Win → Ad → Val → Prop) (s : St) (u : Str) : Prop :=
  ∃ winner creative v, (u, winner) ∈ s.winners ∧ creative ∈ winner.creative ∧
    Decoded u winner creative v ∧ v ∈ (s.adCreativeList.get u).getD []

/-- An ad unit that left the pending list was served. -/
def KeepsSlots (Decoded : Str → Win → Ad → Val → Prop) (adPendList : List Str) (s : St) : Prop :=
  ∀ u ∈ adPendList, u ∉ s.adPendList → Serves Decoded s u

/-- What the auctions `l` make of a state. -/
structure Ran (x : Exchange) (l : List (Sigma fun _ : Str => List (Bid (List Ad)))) (s s' : St) :
    Prop where
  pend : ∀ u, s'.adPendList.count u =
    s.adPendList.count u - if u ∈ l.map Sigma.fst then 1 else 0
  won : ∀ u winner, (u, winner) ∈ s'.winners ↔
    (u, winner) ∈ s.winners ∨ ∃ bidInfo, ⟨u, bidInfo⟩ ∈ l ∧ x.selectWinner u bidInfo = .ok winner
  kept : ∀ u, u ∉ l.map Sigma.fst → s'.adCreativeList.get u = s.adCreativeList.get u
  added : ∀ e ∈ l, ∃ winner, x.selectWinner e.1 e.2 = .ok winner ∧
    ∀ creative ∈ winner.creative, ∃ v, x.content e.1 winner creative = .ok v ∧
      v ∈ (s'.adCreativeList.get e.1).getD []

section run

variable {x : Exchange} {s s' : St} {l : List (Sigma fun _ : Str => List (Bid (List Ad)))}

/-- Step lemma: the auction of one ad unit. -/
lemma round_ok {e : Sigma fun _ : Str => List (Bid (List Ad))} (h : x.round s e = .ok s') :
    ∃ winner contents, x.selectWinner e.1 e.2 = .ok winner ∧
      winner.creative.mapM (x.content e.1 winner) = .ok contents ∧
      s'.adPendList = s.adPendList.erase e.1 ∧
      s'.adCreativeList =
        s.adCreativeList.insert e.1 (x.filled s.adCreativeList e.1 ++ contents) ∧
      s'.winners = s.winners ++ [(e.1, winner)] := by
  obtain ⟨winner, hwinner, h⟩ := bind_ok.mp h
  obtain ⟨_, -, h⟩ := bind_ok.mp h
  obtain ⟨contents, hcontents, h⟩ := bind_ok.mp h
  obtain ⟨_, -, h⟩ := bind_ok.mp h
  cases h
  exact ⟨winner, contents, hwinner, hcontents, rfl, rfl, rfl⟩

/-- **Run lemma**, by induction on the auctions; each ad unit has one. -/
theorem run_ran (hkeys : (l.map Sigma.fst).Nodup) (h : l.foldlM x.round s = .ok s') :
    Ran x l s s' := by
  induction l generalizing s with
  | nil =>
    cases h
    exact ⟨fun _ => rfl, fun _ _ => by simp, fun _ _ => rfl, fun _ h => nomatch h⟩
  | cons e l ih =>
    obtain ⟨mid, hround, hrun⟩ := foldlM_cons_ok.mp h
    obtain ⟨winner, contents, hwinner, hcontents, hpend, hlist, hwinners⟩ := round_ok hround
    rw [List.map_cons, List.nodup_cons] at hkeys
    obtain ⟨hnew, hkeys⟩ := hkeys
    have ran := ih hkeys hrun
    refine ⟨fun u => ?_, fun u w => ?_, fun u hu => ?_, fun e' he' => ?_⟩
    · rw [ran.pend, hpend, List.count_erase, List.map_cons]
      by_cases hu : e.1 = u
      · subst hu
        simp [hnew]
      · have hbeq : (e.1 == u) = false := beq_eq_false_iff_ne.mpr hu
        have hmem : u ∈ e.1 :: l.map Sigma.fst ↔ u ∈ l.map Sigma.fst :=
          List.mem_cons.trans (or_iff_right (Ne.symm hu))
        simp only [hbeq, hmem, Bool.false_eq_true, if_false, Nat.sub_zero]
    · rw [ran.won, hwinners, List.mem_append, List.mem_singleton, or_assoc]
      refine or_congr_right ?_
      constructor
      · rintro (heq | ⟨bidInfo, hmem, hw⟩)
        · cases heq
          exact ⟨e.2, List.mem_cons_self, hwinner⟩
        · exact ⟨bidInfo, List.mem_cons_of_mem _ hmem, hw⟩
      · rintro ⟨bidInfo, hmem, hw⟩
        rcases List.mem_cons.mp hmem with rfl | hmem
        · rw [hwinner] at hw
          cases hw
          exact .inl rfl
        · exact .inr ⟨bidInfo, hmem, hw⟩
    · rw [List.map_cons, List.mem_cons, not_or] at hu
      rw [ran.kept u hu.2, hlist, Tbl.get, AList.lookup_insert_ne hu.1]
    · rcases List.mem_cons.mp he' with rfl | he'
      · refine ⟨winner, hwinner, fun creative hcreative => ?_⟩
        obtain ⟨v, hv, hcontent⟩ := mem_mapM hcontents hcreative
        refine ⟨v, hcontent, ?_⟩
        rw [ran.kept e'.1 hnew, hlist, Tbl.get, AList.lookup_insert, Option.getD_some]
        exact List.mem_append_right _ hv
      · exact ran.added e' he'

/-- An ad unit leaves the list that stands in it once and has bids. -/
lemma left_iff {adPendList : List Str} {adCreativeList : Creatives} {u : Str}
    (ran : Ran x l ⟨adPendList, adCreativeList, []⟩ s) :
    u ∈ adPendList ∧ u ∉ s.adPendList ↔ adPendList.count u = 1 ∧ u ∈ l.map Sigma.fst := by
  have hcount := ran.pend u
  simp only at hcount
  rw [← List.count_pos_iff, ← List.count_eq_zero]
  split at hcount
  · next hu => simp only [hu, and_true]; omega
  · next hu => simp only [hu, and_false, iff_false]; omega

/-- **When no slot is lost**: wherever an ad unit leaves the list, its winner has a creative that
decodes. -/
theorem keepsSlots_iff {Decoded : Str → Win → Ad → Val → Prop} {Decodes : Str → Ad → Prop}
    (hx : Faithful x Decoded Decodes) {o : Order} {t : Tbl (List (Bid (List Ad)))}
    {adPendList : List Str} {adCreativeList : Creatives}
    (h : (o.pairs t).foldlM x.round ⟨adPendList, adCreativeList, []⟩ = .ok s) :
    KeepsSlots Decoded adPendList s ↔
      ∀ u bidInfo winner, t.get u = some bidInfo → adPendList.count u = 1 →
        x.selectWinner u bidInfo = .ok winner → ∃ creative ∈ winner.creative,
          Decodes winner.dsp_id creative := by
  have ran := run_ran (o.pairs_nodup t) h
  constructor
  · intro hkeeps u bidInfo winner hget hcount hwinner
    have hmem : (⟨u, bidInfo⟩ : Sigma fun _ : Str => List (Bid (List Ad))) ∈ o.pairs t :=
      o.mem_pairs.mpr hget
    obtain ⟨hpend, hleft⟩ := (left_iff ran).mpr ⟨hcount, List.mem_map_of_mem hmem⟩
    obtain ⟨winner', creative, v, hwon, hcreative, hdecoded, -⟩ := hkeeps u hpend hleft
    obtain ⟨bidInfo', hmem', hwinner'⟩ := ((ran.won u winner').mp hwon).resolve_left
      List.not_mem_nil
    rw [o.mem_pairs.mp hmem'] at hget
    cases hget
    rw [hwinner] at hwinner'
    cases hwinner'
    exact ⟨creative, hcreative, hx.decodes u winner creative v hdecoded⟩
  · intro hall u hpend hleft
    obtain ⟨hcount, hkey⟩ := (left_iff ran).mp ⟨hpend, hleft⟩
    obtain ⟨⟨_, bidInfo⟩, hmem, rfl⟩ := List.mem_map.mp hkey
    obtain ⟨winner, hwinner, hadded⟩ := ran.added _ hmem
    obtain ⟨creative, hcreative, hdecodes⟩ :=
      hall _ bidInfo winner (o.mem_pairs.mp hmem) hcount hwinner
    obtain ⟨v, hcontent, hv⟩ := hadded creative hcreative
    exact ⟨winner, creative, v, (ran.won _ _).mpr (.inr ⟨bidInfo, hmem, hwinner⟩), hcreative,
      hx.decoded _ winner creative v hcontent hdecodes, hv⟩

end run

/-! ### The two exchanges -/

/-- The bids kept for the ad unit `u` of what the DSPs answer. -/
def offers {ε : Type} (x : Copy ε (List Ad)) (bidRspList : List Rsp) (dspIdList : List Str)
    (u : Str) : List (Bid (List Ad)) :=
  x.bids u (x.accepted (dspIdList.zip bidRspList))

/-- No bid in the lead on an ad unit that stands in the pending list once lacks a creative that
decodes. -/
def LeadsDecode (adPendList : List Str) (offers : Str → List (Bid (List Ad)))
    (Decodes : Str → Ad → Prop) : Prop :=
  ∀ u, adPendList.count u = 1 → ∀ b, IsTop Bid.max_cpm_price (offers u) b →
    ∃ creative ∈ b.creative, Decodes b.dsp_id creative

/-- **When a bad creative consumes no slot**, for a run that depends on the draws: if the bids in
the lead decode, no slot is lost; and any other bid in the lead wins with some draw for its unit,
and loses the slot in every run with this draw that ends. -/
structure SlotsKept (run : (Str → Draw) → Lua (St × List Str))
    (Decoded : Str → Win → Ad → Val → Prop) (adPendList : List Str)
    (offers : Str → List (Bid (List Ad))) (Decodes : Str → Ad → Prop) : Prop where
  kept : LeadsDecode adPendList offers Decodes → ∀ draw s urls, run draw = .ok (s, urls) →
    KeepsSlots Decoded adPendList s
  lost : ∀ u, adPendList.count u = 1 → ∀ b, IsTop Bid.max_cpm_price (offers u) b →
    (∀ creative ∈ b.creative, ¬ Decodes b.dsp_id creative) →
      ∃ n, ∀ draw s urls, draw u = n → run draw = .ok (s, urls) → ¬ KeepsSlots Decoded adPendList s

section handleBidRsp

variable {c : Ctx} {o : Order} {bidRspList : List Rsp} {dspIdList adPendList cmUrlList : List Str}
  {adCreativeList : Creatives} {u : Str} {b : Bid (List Ad)} {w : Win}

lemma winner_of_outcome {floor : Lua (Option ℚ)} {bidInfo : List (Bid (List Ad))} {r : Lua Win}
    (h : Outcome floor bidInfo b r) (hw : r = .ok w) :
    w.dsp_id = b.dsp_id ∧ w.creative = b.creative := by
  rcases h with ⟨-, rfl⟩ | ⟨p, -, rfl⟩
  · obtain ⟨f, -, hw⟩ := bind_ok.mp hw
    cases hw
    exact ⟨rfl, rfl⟩
  · cases hw
    exact ⟨rfl, rfl⟩

/-- The extraction, and the auctions of what it keeps. -/
lemma slotsKept {ε : Type} {copy : Copy ε (List Ad)} {x : (Str → Draw) → Exchange}
    {floor : Str → Lua (Option ℚ)} {Decoded : Str → Win → Ad → Val → Prop}
    {Decodes : Str → Ad → Prop} (hx : ∀ draw, Faithful (x draw) Decoded Decodes)
    (hauction : ∀ draw u bidInfo,
      (x draw).selectWinner u bidInfo = auction o (draw u) (floor u) bidInfo) :
    SlotsKept (fun draw => do
        let extracted ← copy.extractAdBid bidRspList dspIdList cmUrlList
        let s ← (o.pairs extracted.adBidList).foldlM (x draw).round ⟨adPendList, adCreativeList, []⟩
        return (s, extracted.cmUrlList))
      Decoded adPendList (offers copy bidRspList dspIdList) Decodes where
  kept hleads draw s urls h := by
    obtain ⟨extracted, hextracted, h⟩ := bind_ok.mp h
    obtain ⟨s', hrun, h⟩ := bind_ok.mp h
    cases h
    refine (keepsSlots_iff (hx draw) hrun).mpr fun u bidInfo w hget hcount hw => ?_
    obtain ⟨rfl, hne⟩ := (Copy.extractAdBid_get hextracted).mp hget
    rw [hauction] at hw
    obtain ⟨b, hb, hout⟩ := auction_spec o (draw u) (floor u) hne
    obtain ⟨hdsp, hcreative⟩ := winner_of_outcome hout hw
    rw [hdsp, hcreative]
    exact hleads u hcount b hb
  lost u hcount b hb hbad := by
    obtain ⟨n, hout⟩ := auction_reaches o (floor u) hb
    refine ⟨n, fun draw s urls hdraw h hkeeps => ?_⟩
    obtain ⟨extracted, hextracted, h⟩ := bind_ok.mp h
    obtain ⟨s', hrun, h⟩ := bind_ok.mp h
    cases h
    have hget := (Copy.extractAdBid_get hextracted).mpr ⟨rfl, List.ne_nil_of_mem hb.1⟩
    have ran := run_ran (o.pairs_nodup _) hrun
    obtain ⟨w, hw, -⟩ := ran.added ⟨u, _⟩ (o.mem_pairs.mpr hget)
    obtain ⟨creative, hmem, hdecodes⟩ :=
      (keepsSlots_iff (hx draw) hrun).mp hkeeps u _ w hget hcount hw
    rw [hauction, hdraw] at hw
    obtain ⟨hdsp, hcreative⟩ := winner_of_outcome hout hw
    rw [hdsp] at hdecodes
    exact hbad creative (hcreative ▸ hmem) hdecodes

end handleBidRsp

/-- **When a bad creative consumes no slot**, in both exchanges: exactly when no bid in the lead
lacks a creative that decodes, as far as the draws go. -/
theorem slots_kept (c : Ctx) (o : Order) (bidRspList : List Rsp)
    (dspIdList adPendList cmUrlList : List Str) (adCreativeList : Creatives) :
    (∀ adReq, SlotsKept
      (fun draw => Mobile.handleBidRsp c adReq o draw bidRspList dspIdList adPendList adCreativeList
        cmUrlList)
      (Mobile.Decoded c) adPendList (offers (MobileRtb.rtb c) bidRspList dspIdList)
      (Mobile.Decodes c)) ∧
    ∀ pub parser, SlotsKept
      (fun draw => Video.handleBidRsp c pub parser o draw bidRspList dspIdList adPendList
        adCreativeList cmUrlList)
      (Video.Decoded c parser) adPendList (offers (VideoRtb.rtb c pub) bidRspList dspIdList)
      (Video.Decodes c parser) :=
  ⟨fun adReq => slotsKept (mobile_faithful c adReq o) fun _ _ _ => rfl,
    fun pub parser => slotsKept (video_faithful c pub parser o) fun _ _ _ => rfl⟩

section samples

open Sax.Clearing (ok appText appBody appBids appBid sampleCtx markup markupText markupQuoted)

def sampleReq : MobileRtb.AdReq := ⟨[], [], [], [], [], [], ∅⟩

/-- A parser that waits for more after the text `x`, and takes no other. -/
def sampleParser : Parser := ⟨fun s => ⟨[], s = lit "x"⟩, fun _ => False, fun _ h => h.elim⟩

/-- The mobile exchange with winners whose markup is the text `x`. -/
abbrev mobileRun (draw : Str → Draw) : Lua (St × List Str) :=
  Mobile.handleBidRsp appBids sampleReq .plain draw
    [ok (appText "3" "x"), ok (appText "2" "x")] [lit "2", lit "3"] [lit "U"] ∅ []

abbrev videoRun (draw : Str → Draw) : Lua (St × List Str) :=
  Video.handleBidRsp appBids ((∅ : Tbl ℤ).insert (lit "U") 1) sampleParser .plain draw
    [ok (appText "3" "x"), ok (appText "2" "x")] [lit "2", lit "3"] [lit "U"] ∅ []

/-- One bid, with a markup that is JSON. -/
def goodBids : Ctx :=
  sampleCtx [(appText "3" markupQuoted, appBody 3 markupText), (markupText, markup)] .openAuction

abbrev goodRun (draw : Str → Draw) : Lua (St × List Str) :=
  Mobile.handleBidRsp goodBids sampleReq .plain draw [ok (appText "3" markupQuoted)] [lit "2"]
    [lit "U"] ∅ []


lemma offers_mobile : offers (MobileRtb.rtb appBids) [ok (appText "3" "x"), ok (appText "2" "x")]
    [lit "2", lit "3"] (lit "U") = [appBid "2" 3, appBid "3" 2] := by decide +kernel

lemma offers_video : offers (VideoRtb.rtb appBids ((∅ : Tbl ℤ).insert (lit "U") 1))
    [ok (appText "3" "x"), ok (appText "2" "x")] [lit "2", lit "3"] (lit "U") =
      [appBid "2" 3, appBid "3" 2] := by decide +kernel

lemma offers_good : offers (MobileRtb.rtb goodBids) [ok (appText "3" markupQuoted)] [lit "2"]
    (lit "U") = [⟨lit "2", 3, [⟨lit "c", lit markupText⟩]⟩] := by decide +kernel

lemma appBid_top : IsTop Bid.max_cpm_price [appBid "2" 3, appBid "3" 2] (appBid "2" 3) :=
  ⟨List.mem_cons_self, by decide +kernel⟩

lemma good_leads : LeadsDecode [lit "U"]
    (offers (MobileRtb.rtb goodBids) [ok (appText "3" markupQuoted)] [lit "2"])
    (Mobile.Decodes goodBids) := by
  intro u hu b hb
  have heq : u = lit "U" := by
    have : u ∈ [lit "U"] := List.count_pos_iff.mp (by omega)
    exact List.mem_singleton.mp this
  subst heq
  rw [offers_good] at hb
  obtain rfl := List.mem_singleton.mp hb.1
  exact ⟨_, List.mem_singleton_self _, by decide +kernel, markup, by decide +kernel⟩

lemma x_no_json : ¬ ∃ v, appBids.lib.decode (lit "x") = .ok v := by
  rintro ⟨v, hv⟩
  have hbad : (appBids.lib.decode (lit "x")).toOption = none := by decide +kernel
  rw [hv] at hbad
  cases hbad

theorem slots_kept_samples :
    (∃ s urls, goodRun (fun _ => .least) = .ok (s, urls) ∧
      KeepsSlots (Mobile.Decoded goodBids) [lit "U"] s) ∧
    (∃ n, ∀ draw s urls, draw (lit "U") = n → mobileRun draw = .ok (s, urls) →
      ¬ KeepsSlots (Mobile.Decoded appBids) [lit "U"] s) ∧
    ∃ n, ∀ draw s urls, draw (lit "U") = n → videoRun draw = .ok (s, urls) →
      ¬ KeepsSlots (Video.Decoded appBids sampleParser) [lit "U"] s := by
  refine ⟨?_, ?_, ?_⟩
  · obtain ⟨⟨s, urls⟩, h⟩ := exists_ok (show (goodRun fun _ => .least).isOk by decide +kernel)
    exact ⟨s, urls, h, ((slots_kept goodBids .plain [ok (appText "3" markupQuoted)] [lit "2"]
      [lit "U"] [] ∅).1 sampleReq).kept good_leads _ _ _ h⟩
  · refine ((slots_kept appBids .plain _ _ _ _ _).1 sampleReq).lost (lit "U") (by decide)
      (appBid "2" 3) (offers_mobile ▸ appBid_top) ?_
    rintro creative hmem ⟨-, hdecodes⟩
    obtain rfl := List.mem_singleton.mp hmem
    exact x_no_json hdecodes
  · refine ((slots_kept appBids .plain _ _ _ _ _).2 ((∅ : Tbl ℤ).insert (lit "U") 1)
      sampleParser).lost (lit "U") (by decide) (appBid "2" 3) (offers_video ▸ appBid_top) ?_
    intro creative hmem
    obtain rfl := List.mem_singleton.mp hmem
    exact id

/-- The winner's markup `x` is no JSON: the ad unit leaves the list with an empty content, and is
not served. -/
theorem bad_creative_consumes_slot :
    ∃ s urls, mobileRun (fun _ => .least) = .ok (s, urls) ∧ s.adPendList = [] ∧
      s.adCreativeList.get (lit "U") = some [.str []] ∧
      ¬ KeepsSlots (Mobile.Decoded appBids) [lit "U"] s := by
  obtain ⟨⟨s, urls⟩, hrun⟩ := exists_ok (show (mobileRun fun _ => .least).isOk by decide +kernel)
  have hleaves : (mobileRun fun _ => .least).map (fun r => (r.1.adPendList,
      r.1.adCreativeList.get (lit "U"), r.1.winners.map fun w => w.2.creative)) =
      .ok ([], some [.str []], [[⟨lit "c", lit "x"⟩]]) := by decide +kernel
  rw [hrun] at hleaves
  simp only [Except.map, Except.ok.injEq, Prod.mk.injEq] at hleaves
  obtain ⟨hpend, hlist, hwinners⟩ := hleaves
  refine ⟨s, urls, hrun, hpend, hlist, fun hkeeps => ?_⟩
  obtain ⟨winner, creative, v, hwon, hcreative, ⟨-, result, hdecode, -⟩, -⟩ :=
    hkeeps (lit "U") (List.mem_singleton_self _) (hpend ▸ List.not_mem_nil)
  have hmem : winner.creative ∈ s.winners.map fun w => w.2.creative :=
    List.mem_map_of_mem (f := fun w : Str × Win => w.2.creative) hwon
  rw [hwinners] at hmem
  rw [List.mem_singleton.mp hmem] at hcreative
  obtain rfl := List.mem_singleton.mp hcreative
  exact x_no_json ⟨result, hdecode⟩

end samples

end Sax.Slots
