import Sax.Clearing
import Sax.Creative
import Sax.ObjectInfo
import Sax.Replace

/-!
The signature of a click, as `fillSign` makes it and `click.click` checks it.

`fillSign` signs the whole URL with an attribute of the DSP and appends 32 digits; the handler
compares with 16 digits of a signature of the decoded `url` under a key of its own.
-/

namespace Sax.ClickSign

open Sax.LuaVal Sax.Loop Sax.Runtime Sax.Const Sax.Creative Sax.Uri Sax.Replace
open Sax.ObjectInfo (lower)

/-! ### Arguments of nginx -/

/-- The value in `name=value`, for a name in any case. -/
def argOf (name piece : Str) : Option Str :=
  if lower (piece.take name.length) = name ∧ piece[name.length]? = some equals then
    some (piece.drop (name.length + 1))
  else none

/-- `ngx.var.arg_name`: the value of the first such argument, as it stands there. -/
def arg (name args : Str) : Option Str := (args.splitOn ampersand).findSome? (argOf name)

/-- The query of a URL. -/
def query (url : Str) : Str := after question (before hash url)

/-! ### `click.click` -/

def NONSTD_CLK_SIGN_KEY : Str := lit "49fb1e091e4b119fec4557fe8ac08a6f"

/-- The types whose handler writes a log and goes on. That of weibo reads the body, which a click
has not, and ends the request. -/
def clickTypes : List Str :=
  [lit "2", lit "3", lit "6", lit "4", lit "10", lit "load", lit "submit", lit "unload",
    lit "nonstd", lit "open", lit "stay", lit "play", lit "network", lit "saxmob"]

/-- `return`, `ngx.exit(ngx.HTTP_OK)` or `ngx.redirect(url)`. -/
inductive Outcome
  | returned
  | exited
  | redirect (url : Str)
  deriving DecidableEq

/-- The digits the handler compares with. -/
def clickSign (lib : Ngx) (url : Str) : Str :=
  (lib.to_hex (lib.hmac_sha1 NONSTD_CLK_SIGN_KEY url)).take 16

def click (lib : Ngx) (args : Str) : Outcome :=
  if (arg (lit "type") args).getD [] ∉ clickTypes then .exited
  else
    let url := (arg (lit "url") args).getD []
    if url = [] then .returned
    else
      let url := unescape_uri url
      let s := (arg (lit "sign") args).getD []
      if s ≠ [] then
        if clickSign lib url ≠ s then .returned else .redirect url
      else if (13 : UInt8) ∈ url ∨ (10 : UInt8) ∈ url then .returned
      else .redirect url

/-! ### Reading arguments -/

section arg

variable {name key v q r : Str}

lemma lower_equals {s : Str} (h : equals ∈ s) : equals ∈ lower s :=
  List.mem_map.mpr ⟨equals, h, by decide⟩

/-- A pair has the value of its key. -/
lemma argOf_pair (hname : equals ∉ name) (hkey : equals ∉ key) :
    argOf name (key ++ equals :: v) = if lower key = name then some v else none := by
  unfold argOf
  have hlower : (lower key).length = key.length := List.length_map ..
  rcases lt_trichotomy name.length key.length with hlt | heq | hgt
  · have hnone : ¬ (key ++ equals :: v)[name.length]? = some equals := by
      rw [List.getElem?_append_left hlt]
      exact fun h => hkey (List.mem_of_getElem? h)
    have hne : lower key ≠ name := fun h => by rw [h] at hlower; omega
    rw [if_neg fun h => hnone h.2, if_neg hne]
  · have htake : (key ++ equals :: v).take name.length = key := List.take_left' heq.symm
    have hget : (key ++ equals :: v)[name.length]? = some equals := by
      rw [heq, List.getElem?_append_right le_rfl]
      simp
    have hdrop : (key ++ equals :: v).drop (name.length + 1) = v := by
      rw [heq, List.drop_append]
      simp
    simp only [htake, hget, hdrop, and_true]
  · have hmem : equals ∈ (key ++ equals :: v).take name.length := by
      refine List.mem_iff_getElem?.mpr ⟨key.length, ?_⟩
      rw [List.getElem?_take_of_lt hgt, List.getElem?_append_right le_rfl]
      simp
    have hne : ¬ lower ((key ++ equals :: v).take name.length) = name :=
      fun h => hname (h ▸ lower_equals hmem)
    have hne' : lower key ≠ name := fun h => by rw [h] at hlower; omega
    rw [if_neg fun h => hne h.1, if_neg hne']

lemma arg_of_notMem (h : ampersand ∉ q) : arg name q = argOf name q := by
  rw [arg, List.splitOn_eq_singleton h]
  simp

/-- `key=value` on its own. -/
lemma arg_pair (hname : equals ∉ name) (hequals : equals ∉ key) (hkey : ampersand ∉ key)
    (hv : ampersand ∉ v) : arg name (key ++ equals :: v) = if lower key = name then some v else none := by
  have hmem : ampersand ∉ key ++ equals :: v := by
    rw [List.mem_append, List.mem_cons]
    rintro (h | h | h)
    · exact hkey h
    · exact absurd h (by decide)
    · exact hv h
  rw [arg_of_notMem hmem, argOf_pair hname hequals]

lemma arg_append : arg name (q ++ ampersand :: r) = (arg name q).or (arg name r) := by
  rw [arg, List.splitOn_append_cons_self, List.findSome?_append]
  rfl

lemma arg_nil (hname : name ≠ []) : arg name [] = none := by
  rw [arg_of_notMem List.not_mem_nil, argOf]
  have hne : ¬ lower (([] : Str).take name.length) = name := by
    rw [List.take_nil]
    exact fun h => hname h.symm
  rw [if_neg fun h => hne h.1]

lemma notation_eq (url : Str) : notation_ url = if question ∈ url then [ampersand] else [question] := by
  unfold notation_
  have hlit : lit "?" ⊆ url ↔ question ∈ url := by
    have h : lit "?" = [question] := by decide
    rw [h, List.cons_subset]
    simp
  simp only [hlit]
  rfl

/-- The query of a URL that arguments were added to has them after its own. -/
lemma arg_query_append {outer s : Str} (hname : name ≠ []) (houter : hash ∉ outer) (hs : hash ∉ s) :
    arg name (query (outer ++ notation_ outer ++ s)) = (arg name (query outer)).or (arg name s) := by
  unfold query
  rw [notation_eq]
  by_cases hquestion : question ∈ outer
  · rw [if_pos hquestion]
    have hhash : hash ∉ outer ++ [ampersand] ++ s := by
      simp only [List.mem_append, not_or]
      exact ⟨⟨houter, by decide⟩, hs⟩
    obtain ⟨a, b, rfl, ha⟩ := List.eq_append_cons_of_mem hquestion
    rw [before_of_notMem hhash, before_of_notMem houter, after_append_cons ha]
    have happ : a ++ question :: b ++ [ampersand] ++ s = a ++ question :: (b ++ ampersand :: s) := by
      simp
    rw [happ, after_append_cons ha, arg_append]
  · rw [if_neg hquestion]
    have hhash : hash ∉ outer ++ [question] ++ s := by
      simp only [List.mem_append, not_or]
      exact ⟨⟨houter, by decide⟩, hs⟩
    rw [before_of_notMem hhash, before_of_notMem houter, after_of_notMem hquestion, arg_nil hname]
    have happ : outer ++ [question] ++ s = outer ++ question :: s := by simp
    rw [happ, after_append_cons hquestion, Option.none_or]

/-- What is added behind a `#` is not in the query. -/
lemma query_append_of_hash {outer : Str} (h : hash ∈ outer) (s : Str) :
    query (outer ++ s) = query outer := by
  obtain ⟨a, b, rfl, ha⟩ := List.eq_append_cons_of_mem h
  have happ : a ++ hash :: b ++ s = a ++ hash :: (b ++ s) := by simp
  rw [query, query, happ, before_append_cons ha, before_append_cons ha]

end arg

/-! ### The link that is signed -/

/-- The hexadecimal digits of a text. -/
def hexDump (s : Str) : Str := s.flatMap fun (c : UInt8) => [hexChar (c >>> 4), hexChar (c &&& 15)]

/-- The library escapes and prints as the modules of nginx do, and its signatures have twenty
bytes. -/
structure Nginx (lib : Ngx) : Prop where
  escape_uri : ∀ s, lib.escape_uri s = Uri.escape_uri s
  to_hex : ∀ s, lib.to_hex s = hexDump s
  hmac_length : ∀ k s, (lib.hmac_sha1 k s).length = 20

/-- The outermost URL of a link: the first monitor, or the link itself. -/
def outerUrl (lib : Ngx) (content link : Val) : Lua Str := do
  let monitor ← field "monitor" (some content)
  if (← len monitor) = 0 then checkString lib.tostring (some link)
  else checkString lib.tostring (← item 1 monitor)

section link

variable {lib : Ngx} {c : BidRsp.Ctx} {content content' link : Val} {dspId outer : Str}

lemma length_hexDump (s : Str) : (hexDump s).length = 2 * s.length := by
  induction s with
  | nil => rfl
  | cons c s ih =>
    rw [hexDump, List.flatMap_cons, List.length_append, ← hexDump, ih, List.length_cons,
      List.length_cons, List.length_cons, List.length_nil]
    omega

lemma hexDump_plain {s : Str} {b : UInt8} (h : b ∈ hexDump s) : b ∉ lit "%+&=?#/: \"" := by
  obtain ⟨a, -, ha⟩ := List.mem_flatMap.mp h
  simp only [List.mem_cons, List.not_mem_nil, or_false] at ha
  rcases ha with rfl | rfl
  · exact (hexChar_plain a).1
  · exact (hexChar_plain a).2

/-- A link in its monitors begins with the first one. -/
lemma wrapMonitors_outer {monitor : Option Val} {n : ℕ} {v w : Val} {u : Str}
    (h : wrapMonitors lib monitor n v = .ok w) (hu : checkString lib.tostring (some w) = .ok u) :
    n = 0 ∧ w = v ∨ n ≠ 0 ∧ ∃ first e, (do checkString lib.tostring (← item 1 monitor)) = .ok first ∧
      u = first ++ notation_ first ++ RTB_CLICK_ARG_URL ++ lit "=" ++ lib.escape_uri e := by
  induction n generalizing v with
  | zero =>
    cases h
    exact .inl ⟨rfl, rfl⟩
  | succ n ih =>
    refine .inr ⟨Nat.succ_ne_zero n, ?_⟩
    obtain ⟨m, hm, h⟩ := bind_ok.mp h
    obtain ⟨w', hw', h⟩ := bind_ok.mp h
    rcases ih h with ⟨rfl, rfl⟩ | ⟨-, hfirst⟩
    · obtain ⟨first, hfirst, hw'⟩ := bind_ok.mp hw'
      obtain ⟨e, -, hw'⟩ := bind_ok.mp hw'
      cases hw'
      cases hu
      exact ⟨first, e, bind_ok.mpr ⟨m, hm, hfirst⟩, rfl⟩
    · exact hfirst

/-- What `fillSign` makes of a link. -/
lemma fillSign_link (h : fillSign c content dspId = .ok content') {links : List Val}
    {g : List (Str × Val)} (hlinks : content.get "link" = some (.table links g)) {n : ℕ}
    (hn : links[n]? = some link) (houter : outerUrl c.lib content link = .ok outer) :
    ∃ u key, (u = outer ∨ ∃ e, u = outer ++ notation_ outer ++ RTB_CLICK_ARG_URL ++ lit "=" ++
        c.lib.escape_uri e) ∧
      ∃ links', content'.get "link" = some (.arr links') ∧
        links'[n]? = some (.str (u ++ lit "&" ++ RTB_CLICK_ARG_SIGN ++ lit "=" ++
          c.lib.to_hex ((c.lib.hmac_sha1 key u).take 16))) := by
  unfold fillSign at h
  obtain ⟨signkey, -, h⟩ := bind_ok.mp h
  have htable : content.isTable := by
    cases content <;> first | rfl | cases hlinks
  have hlength : links.length ≠ 0 := by
    rintro h0
    rw [List.length_eq_zero_iff.mp h0] at hn
    cases hn
  rw [field_of_isTable htable, hlinks, ok_bind, len, ok_bind] at h
  simp only [startLinks, hlength, ne_eq, not_false_eq_true, decide_true, if_true, ok_bind,
    ipairs] at h
  obtain ⟨tempLink, htemp, h⟩ := bind_ok.mp h
  obtain ⟨b, hb, hsign⟩ := mapM_getElem? htemp hn
  unfold signLink at hsign
  obtain ⟨monitor, hmonitor, hsign⟩ := bind_ok.mp hsign
  obtain ⟨m, hm, hsign⟩ := bind_ok.mp hsign
  obtain ⟨w, hwrap, hsign⟩ := bind_ok.mp hsign
  rw [if_pos rfl] at hsign
  obtain ⟨u, hu, hsign⟩ := bind_ok.mp hsign
  obtain ⟨sign, hkey, hsign⟩ := bind_ok.mp hsign
  obtain ⟨key, -, hkey⟩ := bind_ok.mp hkey
  cases hkey
  cases hsign
  refine ⟨u, _, ?_, tempLink, Val.get_setField h, hb⟩
  unfold outerUrl at houter
  rw [hmonitor, ok_bind, hm, ok_bind] at houter
  rcases wrapMonitors_outer hwrap hu with ⟨rfl, rfl⟩ | ⟨hne, first, e, hfirst, rfl⟩
  · rw [if_pos rfl, hu] at houter
    cases houter
    exact .inl rfl
  · rw [if_neg hne, hfirst] at houter
    cases houter
    exact .inr ⟨e, rfl⟩

/-- The arguments `fillSign` adds. -/
lemma args_added {sign e : Str} (hsign : ∀ b ∈ sign, b ∉ lit "%+&=?#/: \"") :
    (arg (lit "type") (RTB_CLICK_ARG_SIGN ++ equals :: sign) = none ∧
      arg (lit "sign") (RTB_CLICK_ARG_SIGN ++ equals :: sign) = some sign) ∧
    (arg (lit "type") (RTB_CLICK_ARG_URL ++ equals :: Uri.escape_uri e) = none ∧
      arg (lit "sign") (RTB_CLICK_ARG_URL ++ equals :: Uri.escape_uri e) = none) := by
  have hampersand : ampersand ∉ sign := fun h => hsign _ h (by decide)
  have hescape : ampersand ∉ Uri.escape_uri e := fun h => escape_uri_plain h (by decide)
  rw [arg_pair (by decide) (by decide) (by decide) hampersand,
    arg_pair (by decide) (by decide) (by decide) hampersand,
    arg_pair (by decide) (by decide) (by decide) hescape,
    arg_pair (by decide) (by decide) (by decide) hescape]
  have hkeys : (lower RTB_CLICK_ARG_SIGN ≠ lit "type" ∧ lower RTB_CLICK_ARG_SIGN = lit "sign") ∧
      lower RTB_CLICK_ARG_URL ≠ lit "type" ∧ lower RTB_CLICK_ARG_URL ≠ lit "sign" := by decide
  rw [if_neg hkeys.1.1, if_pos hkeys.1.2, if_neg hkeys.2.1, if_neg hkeys.2.2]
  exact ⟨⟨rfl, rfl⟩, rfl, rfl⟩

lemma hash_notMem_pair {key v : Str} (hkey : hash ∉ key) (hv : hash ∉ v) :
    hash ∉ key ++ equals :: v := by
  rw [List.mem_append, List.mem_cons]
  rintro (h | h | h)
  · exact hkey h
  · exact absurd h (by decide)
  · exact hv h

/-- The arguments a signed link is clicked with: its signature comes after those of the outermost
URL, unless a `#` hides what was added. -/
lemma args_of_link (hlib : Nginx lib) {u sign v : Str}
    (hu : u = outer ∨ ∃ e, u = outer ++ notation_ outer ++ RTB_CLICK_ARG_URL ++ lit "=" ++
      lib.escape_uri e)
    (hsign : ∀ b ∈ sign, b ∉ lit "%+&=?#/: \"")
    (hv : arg (lit "url") (query (u ++ lit "&" ++ RTB_CLICK_ARG_SIGN ++ lit "=" ++ sign)) = some v) :
    arg (lit "type") (query (u ++ lit "&" ++ RTB_CLICK_ARG_SIGN ++ lit "=" ++ sign)) =
        arg (lit "type") (query outer) ∧
      arg (lit "sign") (query (u ++ lit "&" ++ RTB_CLICK_ARG_SIGN ++ lit "=" ++ sign)) =
        (arg (lit "sign") (query outer)).or (if hash ∈ outer then none else some sign) := by
  have hampersand : lit "&" = [ampersand] := by decide
  have hequals : lit "=" = [equals] := by decide
  by_cases hhash : hash ∈ outer
  · have happ : ∃ s, u ++ lit "&" ++ RTB_CLICK_ARG_SIGN ++ lit "=" ++ sign = outer ++ s := by
      rcases hu with rfl | ⟨e, rfl⟩
      · exact ⟨lit "&" ++ RTB_CLICK_ARG_SIGN ++ lit "=" ++ sign, by simp⟩
      · exact ⟨notation_ outer ++ RTB_CLICK_ARG_URL ++ lit "=" ++ lib.escape_uri e ++ lit "&" ++
          RTB_CLICK_ARG_SIGN ++ lit "=" ++ sign, by simp⟩
    obtain ⟨s, hs⟩ := happ
    rw [hs, query_append_of_hash hhash, if_pos hhash, Option.or_none]
    exact ⟨rfl, rfl⟩
  · have hsignHash : hash ∉ RTB_CLICK_ARG_SIGN ++ equals :: sign :=
      hash_notMem_pair (by decide) fun h => hsign _ h (by decide)
    obtain ⟨s, hs, hhashs, htype, hsigns⟩ : ∃ s,
        u ++ lit "&" ++ RTB_CLICK_ARG_SIGN ++ lit "=" ++ sign = outer ++ notation_ outer ++ s ∧
          hash ∉ s ∧ arg (lit "type") s = none ∧ arg (lit "sign") s = some sign := by
      rcases hu with rfl | ⟨e, rfl⟩
      · by_cases hquestion : question ∈ u
        · refine ⟨RTB_CLICK_ARG_SIGN ++ equals :: sign, ?_, hsignHash,
            (args_added (e := []) hsign).1⟩
          rw [notation_eq, if_pos hquestion, hampersand, hequals]
          simp
        · -- there is no query, so no argument `url` either
          have hnone : question ∉ u ++ lit "&" ++ RTB_CLICK_ARG_SIGN ++ lit "=" ++ sign := by
            simp only [List.mem_append, not_or]
            exact ⟨⟨⟨⟨hquestion, by decide⟩, by decide⟩, by decide⟩,
              fun h => hsign _ h (by decide)⟩
          have hbefore : question ∉ before hash
              (u ++ lit "&" ++ RTB_CLICK_ARG_SIGN ++ lit "=" ++ sign) :=
            fun h => hnone (List.takeWhile_subset _ h)
          rw [query, after_of_notMem hbefore, arg_nil (by decide)] at hv
          cases hv
      · obtain ⟨⟨htype, hsigns⟩, htype', hsigns'⟩ := args_added (e := e) hsign
        refine ⟨(RTB_CLICK_ARG_URL ++ equals :: Uri.escape_uri e) ++ ampersand ::
          (RTB_CLICK_ARG_SIGN ++ equals :: sign), ?_, ?_, ?_, ?_⟩
        · rw [hampersand, hequals, hlib.escape_uri]
          simp
        · have hurlHash : hash ∉ RTB_CLICK_ARG_URL ++ equals :: Uri.escape_uri e :=
            hash_notMem_pair (by decide) fun h => escape_uri_plain h (by decide)
          rw [List.mem_append, List.mem_cons]
          rintro (h | h | h)
          · exact hurlHash h
          · exact absurd h (by decide)
          · exact hsignHash h
        · rw [arg_append, htype', htype, Option.none_or]
        · rw [arg_append, hsigns', hsigns, Option.none_or]
    rw [hs, arg_query_append (by decide) hhash hhashs, arg_query_append (by decide) hhash hhashs,
      htype, hsigns, if_neg hhash, Option.or_none]
    exact ⟨rfl, rfl⟩

end link

/-! ### What the handler accepts -/

section accept

variable {lib : Ngx} {c : BidRsp.Ctx} {content content' link : Val} {dspId outer v : Str}

/-- The URL has no line break. -/
def NoBreak (url : Str) : Prop := (13 : UInt8) ∉ url ∧ (10 : UInt8) ∉ url

/-- The outermost URL brings a signature that passes, so that the one appended is not looked at. -/
def Passes (lib : Ngx) (outer v : Str) : Prop :=
  (∃ t ∈ clickTypes, arg (lit "type") (query outer) = some t) ∧ v ≠ [] ∧
    match arg (lit "sign") (query outer) with
    | some [] => NoBreak (unescape_uri v)
    | some s => clickSign lib (unescape_uri v) = s
    | none => hash ∈ outer ∧ NoBreak (unescape_uri v)

/-- What the handler makes of its arguments. -/
lemma click_redirect_iff {args : Str} (hv : arg (lit "url") args = some v) :
    click lib args = .redirect (unescape_uri v) ↔
      (∃ t ∈ clickTypes, arg (lit "type") args = some t) ∧ v ≠ [] ∧
        (if (arg (lit "sign") args).getD [] = [] then NoBreak (unescape_uri v)
          else clickSign lib (unescape_uri v) = (arg (lit "sign") args).getD []) := by
  have htype : (arg (lit "type") args).getD [] ∈ clickTypes ↔
      ∃ t ∈ clickTypes, arg (lit "type") args = some t := by
    have hnil : ([] : Str) ∉ clickTypes := by decide
    cases arg (lit "type") args with
    | none => simp [hnil]
    | some t => simp
  rw [← htype]
  unfold click NoBreak
  rw [hv, Option.getD_some]
  generalize (arg (lit "type") args).getD [] = t
  generalize (arg (lit "sign") args).getD [] = s
  by_cases ht : t ∈ clickTypes
  · by_cases hne : v = []
    · simp [ht, hne]
    · by_cases hs : s = []
      · rw [← not_or]
        by_cases hbreak : (13 : UInt8) ∈ unescape_uri v ∨ (10 : UInt8) ∈ unescape_uri v
        · simp [ht, hne, hs, hbreak]
        · simp [ht, hne, hs, hbreak]
      · by_cases hsign : clickSign lib (unescape_uri v) = s
        · simp [ht, hne, hs, hsign]
        · simp [ht, hne, hs, hsign]
  · simp [ht]

/-- The exchange's own click URL, with an argument `url`. -/
def OwnClick (url v : Str) : Prop :=
  (RTB_CLICK_URL ++ lit "?") <+: url ∧ arg (lit "url") (query url) = some v

/-- **The handler accepts a signed link exactly when the outermost URL brings a signature that
passes**: the one `fillSign` appends never does. -/
theorem click_accepts_iff (hlib : Nginx c.lib) (h : fillSign c content dspId = .ok content')
    {links links' : List Val} {g g' : List (Str × Val)}
    (hlinks : content.get "link" = some (.table links g))
    (hlinks' : content'.get "link" = some (.table links' g')) {n : ℕ} {url : Str}
    (hn : links[n]? = some link) (hurl : links'[n]? = some (.str url))
    (houter : outerUrl c.lib content link = .ok outer) (hown : OwnClick url v) :
    click c.lib (query url) = .redirect (unescape_uri v) ↔ Passes c.lib outer v := by
  obtain ⟨u, key, hu, links₁, hlinks₁, hn₁⟩ := fillSign_link h hlinks hn houter
  rw [hlinks'] at hlinks₁
  cases hlinks₁
  rw [hurl] at hn₁
  cases hn₁
  have hv := hown.2
  rw [click_redirect_iff hv]
  rw [hlib.to_hex] at hv ⊢
  generalize hsign : hexDump ((c.lib.hmac_sha1 key u).take 16) = sign at hv ⊢
  have hlength : sign.length = 32 := by
    rw [← hsign, length_hexDump, List.length_take, hlib.hmac_length]
    rfl
  have hplain : ∀ b ∈ sign, b ∉ lit "%+&=?#/: \"" := fun b hb => hexDump_plain (hsign ▸ hb)
  obtain ⟨htype, hsigns⟩ := args_of_link hlib hu hplain hv
  rw [htype, hsigns]
  refine and_congr_right fun _ => and_congr_right fun _ => ?_
  cases hearlier : arg (lit "sign") (query outer) with
  | some s =>
    cases s with
    | nil => simp
    | cons b s => simp
  | none =>
    have hshort : clickSign c.lib (unescape_uri v) ≠ sign := by
      intro heq
      have := congrArg List.length heq
      rw [clickSign, List.length_take, hlength] at this
      omega
    by_cases hhash : hash ∈ outer
    · simp [hhash]
    · have hne : sign ≠ [] := by
        rintro rfl
        cases hlength
      simp [hhash, hne, hshort]

end accept

section samples

/-- The URL of the one monitor, the exchange's click URL of the DSP's type. -/
def sampleMonitor : Str := lit "http://sax.sina.com.cn/click?type=2&t=dA=="

/-- A content with one link and one monitor. -/
def sampleContent (monitor : Str) : Val :=
  .obj [("link", .arr [.str (lit "http://l")]), ("monitor", .arr [.str monitor])]

/-- A monitor that brings a signature of its own. -/
def signedMonitor : Str := lit "http://sax.sina.com.cn/click?type=2&sign=8aa52b8f5e16e6eb"

/-- `ngx.hmac_sha1` on the URLs that are signed and on the one that is checked. -/
def sampleHmac (k s : Str) : Str :=
  if k = lit "1" ∧ s = sampleMonitor ++ lit "&url=http%3a%2f%2fl" then
    [59, 35, 215, 19, 220, 133, 141, 246, 138, 131, 26, 247, 108, 50, 26, 10, 236, 174, 38, 135]
  else if k = lit "1" ∧ s = signedMonitor ++ lit "&url=http%3a%2f%2fl" then
    [98, 123, 129, 235, 60, 163, 13, 125, 186, 224, 202, 43, 60, 113, 192, 250, 247, 210, 252, 197]
  else if k = NONSTD_CLK_SIGN_KEY ∧ s = lit "http://l" then
    [138, 165, 43, 143, 94, 22, 230, 235, 61, 198, 69, 153, 135, 28, 129, 146, 149, 161, 25, 179]
  else List.replicate 20 0

def sampleLib : Ngx :=
  { Ngx.ofTexts [] with escape_uri := Uri.escape_uri, to_hex := hexDump, hmac_sha1 := sampleHmac }

def sampleCtx : BidRsp.Ctx := { Clearing.sampleCtx [] .openAuction with lib := sampleLib }

lemma sample_nginx : Nginx sampleCtx.lib := by
  refine ⟨fun _ => rfl, fun _ => rfl, fun k s => ?_⟩
  change (sampleHmac k s).length = 20
  unfold sampleHmac
  split
  · rfl
  split
  · rfl
  split <;> simp

/-- The link as it is signed. -/
def sampleUrl (monitor : Str) (sign : String) : Str :=
  monitor ++ lit "&url=http%3a%2f%2fl&sign=" ++ lit sign

/-- The content with the link signed. -/
def signedContent (monitor : Str) (sign : String) : Val :=
  .obj [("link", .arr [.str (sampleUrl monitor sign)]), ("monitor", .arr [.str monitor])]

theorem click_accepts_iff_sample :
    click sampleCtx.lib
        (query (sampleUrl signedMonitor "627b81eb3ca30d7dbae0ca2b3c71c0fa")) =
      .redirect (unescape_uri (lit "http%3a%2f%2fl")) ↔
    Passes sampleCtx.lib signedMonitor (lit "http%3a%2f%2fl") := by
  have hsign : fillSign sampleCtx (sampleContent signedMonitor) (lit "2") =
      .ok (signedContent signedMonitor "627b81eb3ca30d7dbae0ca2b3c71c0fa") := by decide +kernel
  have houter : outerUrl sampleCtx.lib (sampleContent signedMonitor) (.str (lit "http://l")) =
      .ok signedMonitor := by decide +kernel
  have hown : OwnClick (sampleUrl signedMonitor "627b81eb3ca30d7dbae0ca2b3c71c0fa")
      (lit "http%3a%2f%2fl") := by
    unfold OwnClick
    decide +kernel
  exact click_accepts_iff sample_nginx hsign rfl rfl (n := 0) rfl rfl houter hown

/-- The signed link of the sample is a click URL of the exchange, and the click goes nowhere. -/
theorem signed_link_refused :
    Nginx sampleCtx.lib ∧
      fillSign sampleCtx (sampleContent sampleMonitor) (lit "2") =
        .ok (signedContent sampleMonitor "3b23d713dc858df68a831af76c321a0a") ∧
      OwnClick (sampleUrl sampleMonitor "3b23d713dc858df68a831af76c321a0a")
        (lit "http%3a%2f%2fl") ∧
      click sampleCtx.lib
        (query (sampleUrl sampleMonitor "3b23d713dc858df68a831af76c321a0a")) = .returned := by
  refine ⟨sample_nginx, ?_, ?_, ?_⟩
  · decide +kernel
  · unfold OwnClick
    decide +kernel
  · decide +kernel

end samples

end Sax.ClickSign
