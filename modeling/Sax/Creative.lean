import Sax.BidRsp

/-!
Rewriting a winning creative: the click and view URLs, the encrypted price, the signed links.

A snippet of the Sina DSP, and any snippet for a WAP page, is decoded as JSON and rewritten in
place, so whether the rewriting raises is a matter of the shape of the decoded value.
-/

namespace Sax.Creative

open Sax.LuaVal Sax.Loop Sax.Const Sax.Runtime Sax.Store Sax.BidRsp

def tab : Str := lit "\t"

/-- `s ~= "" and s or "-"` -/
def orDash (s : Str) : Str := if s ≠ [] then s else lit "-"

/-- `.. v` where `v` should be a number. -/
def concatNumber (lib : Ngx) : Option ℚ → Lua Str
  | some q => .ok (lib.tostring q)
  | none => .error .badConcat

/-- `.. adData.creativeObj:getUniqueId(dspId, creativeId)` -/
def concatUniqueId (c : Ctx) (dspId creativeId : Str) : Lua Str := do
  concatNumber c.lib ((← creativeGetUniqueId c.dict dspId creativeId).map Int.cast)

/-- `ngx.re.match(url, [[\?]], "jo") and "&" or "?"` -/
def notation_ (url : Str) : Str := if lit "?" ⊆ url then lit "&" else lit "?"

def generateClickUrl (c : Ctx) (dspId adUnitId creativeId : Str) : Lua Str := do
  let uniqueId ← concatUniqueId c dspId creativeId
  let t := c.lib.encode_base64
    (c.bid ++ tab ++ dspId ++ tab ++ adUnitId ++ tab ++ creativeId ++ tab ++ uniqueId)
  let targeting := c.lib.encode_base64
    (orDash c.adReq.pageUrl ++ tab ++ orDash c.adReq.ip ++ tab ++ orDash c.adReq.cookie)
  return RTB_CLICK_URL ++ lit "?" ++ c.lib.encode_args
    [(RTB_CLICK_ARG_TYPE, CLICK_TYPE_DSP), (RTB_CLICK_ARG_T, t),
      (RTB_CLICK_ARG_TARGETING, targeting)]

def generateViewUrl (c : Ctx) (dspId adUnitId creativeId : Str) (winCpmPrice : Option ℚ) :
    Lua Str := do
  let uniqueId ← concatUniqueId c dspId creativeId
  let price ← concatNumber c.lib winCpmPrice
  let t := c.lib.encode_base64
    (c.bid ++ tab ++ dspId ++ tab ++ adUnitId ++ tab ++ price ++ tab ++ creativeId ++ tab
      ++ uniqueId)
  return RTB_VIEW_URL ++ lit "?" ++ c.lib.encode_args
    [(RTB_VIEW_ARG_TYPE, VIEW_TYPE_DSP), (RTB_VIEW_ARG_T, t)]

/-- An argument that must be a string, or a number, as the callee checks. -/
def argument {α : Type} : Option α → Lua α
  | some a => .ok a
  | none => .error .badArgument

/-- `util.encryptPrice` -/
def encryptPrice (lib : Ngx) (iv : Str) (eKey iKey : Option Str) (winCpmPrice : Option ℚ) :
    Lua Str := do
  let pad := (lib.hmac_sha1 (← argument eKey) iv).take 8
  let price := packI8 (← argument winCpmPrice)
  let enc_price := List.zipWith (· ^^^ ·) pad price
  let signature := (lib.hmac_sha1 (← argument iKey) (price ++ iv)).take 4
  return lib.encode_base64 (iv ++ enc_price ++ signature)

/-- The message with the price a DSP finds in its creative. -/
def priceMsg (c : Ctx) (dspId : Str) (winCpmPrice : Option ℚ) : Lua Str := do
  let eKey ← getEncryptionKey c.dict dspId
  let iKey ← getIntegrityKey c.dict dspId
  encryptPrice c.lib c.uuid eKey iKey winCpmPrice

/-- `util.generateSign` -/
def generateSign (lib : Ngx) (signkey : Option ℤ) (url : Str) : Lua Str := do
  let signkey ← argument signkey
  return lib.to_hex ((lib.hmac_sha1 (lib.tostring signkey) url).take 16)

/-! ### `fillSign` -/

/-- One round of the loop over the monitors. Its test reads `moniorUrl ~= ""`, a global that
is always `nil`, so a monitor is wrapped around the link whatever it is. -/
def wrapMonitor (lib : Ngx) (monitorUrl : Option Val) (linkUrl : Val) : Lua Val := do
  let monitorUrl ← checkString lib.tostring monitorUrl
  let linkUrl ← checkString lib.tostring (some linkUrl)
  return .str (monitorUrl ++ notation_ monitorUrl ++ RTB_CLICK_ARG_URL ++ lit "="
    ++ lib.escape_uri linkUrl)

/-- The loop `for i = #content.monitor, 1, -1`. -/
def wrapMonitors (lib : Ngx) (monitor : Option Val) : ℕ → Val → Lua Val
  | 0, linkUrl => .ok linkUrl
  | i + 1, linkUrl => do
    wrapMonitors lib monitor i (← wrapMonitor lib (← item (i + 1) monitor) linkUrl)

/-- The round of `fillSign` for one link. -/
def signLink (c : Ctx) (signkey : Option ℤ) (needSign : Bool) (content : Val) (link : Val) :
    Lua Val := do
  let monitor ← field "monitor" (some content)
  let linkUrl ← wrapMonitors c.lib monitor (← len monitor) link
  if needSign then
    let linkUrl ← checkString c.lib.tostring (some linkUrl)
    let sign ← generateSign c.lib signkey linkUrl
    return .str (linkUrl ++ lit "&" ++ RTB_CLICK_ARG_SIGN ++ lit "=" ++ sign)
  else return linkUrl

/-- `table.insert(content.link, "")` if there is no link, which is not signed then. -/
def startLinks (needSign : Bool) (link : Option Val) : Lua (Option Val) :=
  if needSign then .ok link else return some (← insertLast (.str []) link)

def fillSign (c : Ctx) (content : Val) (dspId : Str) : Lua Val := do
  let signkey ← getSignKey c.dict dspId
  let link ← field "link" (some content)
  let n ← len link
  let links ← ipairs (← startLinks (n ≠ 0) link)
  let tempLink ← links.mapM (signLink c signkey (n ≠ 0) content)
  setField "link" (some (.arr tempLink)) content

/-! ### The three ways to alter a creative -/

def alterSinaDspCreative (c : Ctx) (creative : BidRsp.Creative) (adUnitId dspId : Str)
    (winCpmPrice : Option ℚ) : Lua Val := do
  match c.lib.decode creative.html_snippet with
  | .error _ => return .str []
  | .ok result =>
    -- add click-through url
    let url ← generateClickUrl c dspId adUnitId creative.id
    let monitor ← insertLast (.str url) (← field "monitor" (some result))
    let result ← setField "monitor" (some monitor) result
    -- add view url
    let viewUrl ← generateViewUrl c dspId adUnitId creative.id winCpmPrice
    let pv ← insertLast (.str viewUrl) (← field "pv" (some result))
    let result ← setField "pv" (some pv) result
    -- add winning price
    let first ← checkString c.lib.tostring (← item 1 (some monitor))
    let msg ← priceMsg c dspId winCpmPrice
    let monitor ← setItem 1
      (.str (first ++ notation_ first ++ c.lib.encode_args [(SINA_DSP_CLICK_ARG_P, msg)])) monitor
    setField "monitor" (some monitor) result

/-- `ngx.re.gsub` on an argument that should be a string. -/
def gsub (lib : Ngx) (subject : Option Val) (regex replace : Str) : Lua Str :=
  return lib.gsub (← checkString lib.tostring subject) regex replace

/-- The click URL an advertiser's landing page is appended to. -/
def clickUrlUnesc (c : Ctx) (dspId adUnitId creativeId : Str) : Lua Str :=
  return (← generateClickUrl c dspId adUnitId creativeId) ++ lit "&"
    ++ c.lib.encode_args [(RTB_CLICK_ARG_URL, [])]

def expandMacro (c : Ctx) (creative : BidRsp.Creative) (adUnitId dspId : Str)
    (winCpmPrice : Option ℚ) : Lua Str := do
  let url_unesc ← clickUrlUnesc c dspId adUnitId creative.id
  let url_esc := c.lib.escape_uri url_unesc
  let result := c.lib.gsub creative.html_snippet RTB_MACRO_CLICK_UNESC url_unesc
  let result := c.lib.gsub result RTB_MACRO_CLICK_ESC url_esc
  let msg := c.lib.escape_uri (← priceMsg c dspId winCpmPrice)
  return c.lib.gsub result RTB_MACRO_WIN_PRICE msg

/-- The click macros of the first of the `n` links, if there is one. -/
def wapLink (lib : Ngx) (url_unesc url_esc : Str) (link : Option Val) (n : ℕ) (result : Val) :
    Lua Val :=
  if n ≠ 0 then do
    let first ← gsub lib (← item 1 link) RTB_MACRO_CLICK_UNESC url_unesc
    let link ← setItem 1 (.str (lib.gsub first RTB_MACRO_CLICK_ESC url_esc)) (link.getD .null)
    setField "link" (some link) result
  else .ok result

def alterWapDspCreative (c : Ctx) (creative : BidRsp.Creative) (adUnitId dspId : Str)
    (winCpmPrice : Option ℚ) : Lua Val := do
  match c.lib.decode creative.html_snippet with
  | .error _ => return .str []
  | .ok result =>
    -- expand click-through macro
    let url_unesc ← clickUrlUnesc c dspId adUnitId creative.id
    let link ← field "link" (some result)
    let result ← wapLink c.lib url_unesc (c.lib.escape_uri url_unesc) link (← len link) result
    -- expand winning price macro
    let msg ← priceMsg c dspId winCpmPrice
    let pv ← field "pv" (some result)
    let urls ← (← ipairs pv).mapM fun pvUrl =>
      gsub c.lib (some pvUrl) RTB_MACRO_WIN_PRICE (c.lib.escape_uri msg)
    -- add view url
    let viewUrl ← generateViewUrl c dspId adUnitId creative.id winCpmPrice
    let pv ← insertFirst (.str viewUrl) (pv.map fun v => v.setArr (urls.map .str))
    let result ← setField "pv" (some pv) result
    setField "monitor" (some .empty) result

/-- The content a winning creative becomes. -/
def content (c : Ctx) (adUnitId dspId : Str) (winCpmPrice : Option ℚ)
    (creative : BidRsp.Creative) : Lua Val := do
  if dspId = SINA_DSP_ID then
    fillSign c (← alterSinaDspCreative c creative adUnitId dspId winCpmPrice) dspId
  else
    match c.adReq.publisherType with
    | .wap => fillSign c (← alterWapDspCreative c creative adUnitId dspId winCpmPrice) dspId
    | .pc =>
      let src ← expandMacro c creative adUnitId dspId winCpmPrice
      let pv ← generateViewUrl c dspId adUnitId creative.id winCpmPrice
      return .obj [("src", .strs [src]), ("type", .strs [lit "html"]), ("link", .empty),
        ("pv", .strs [pv]), ("monitor", .empty)]

/-- The loop of `fillAdCreativeListForDsp`: each content is encoded for the log and appended. -/
def contents (c : Ctx) (adUnitId dspId : Str) (winCpmPrice : Option ℚ)
    (creative : List BidRsp.Creative) : Lua (List Val) :=
  creative.mapM fun cr => do
    let temp ← content c adUnitId dspId winCpmPrice cr
    let _ ← c.lib.encode temp
    return temp

end Sax.Creative
