import Sax.Base64
import Sax.ClickSign

/-!
The payload of a click or view URL: fields joined by tabs, encoded by the exchange and decoded for
the log.
-/

namespace Sax.Tracking

open Sax.LuaVal Sax.Loop Sax.Runtime Sax.Const Sax.Store Sax.Creative Sax.Uri Sax.Base64
open Sax.Replace Sax.ClickSign
open Sax.BidRsp (Ctx)
open Sax.ObjectInfo (lower)

/-- `util.decodeLogStr` -/
def decodeLogStr (str : Str) : Str :=
  match decode_base64 (unescape_uri str) with
  | some res => res
  | none => lit "invalid base64 str:" ++ str

/-- The library encodes arguments in the order of `pairs`, has base64, and prints no tab in a
number. -/
structure Encodes (lib : Ngx) : Prop where
  args : ∀ args, ∃ args' : List (Str × Str), args'.Perm args ∧
    lib.encode_args args = concat ampersand (args'.map fun e => encode_arg e.1 e.2)
  base64 : lib.encode_base64 = encode_base64
  tab_notMem : ∀ q, (9 : UInt8) ∉ lib.tostring q

/-- The argument `t` of a URL, decoded and split at tabs. -/
def payload (url : Str) : Option (List Str) :=
  (arg (lit "t") (query url)).map fun t => split 9 (decodeLogStr t)

/-- What `generateClickUrl` puts in. -/
def clickFields (c : Ctx) (dspId adUnitId creativeId : Str) (uniqueId : ℤ) : List Str :=
  [c.bid, dspId, adUnitId, creativeId, c.lib.tostring uniqueId]

/-- What `generateViewUrl` puts in. -/
def viewFields (c : Ctx) (dspId adUnitId creativeId : Str) (winCpmPrice : ℚ) (uniqueId : ℤ) :
    List Str :=
  [c.bid, dspId, adUnitId, c.lib.tostring winCpmPrice, creativeId, c.lib.tostring uniqueId]

/-- Both URLs of a creative give back the fields put in. -/
def RoundTrips (c : Ctx) (dspId adUnitId creativeId : Str) (winCpmPrice : ℚ) (uniqueId : ℤ) :
    Prop :=
  (∃ url, generateClickUrl c dspId adUnitId creativeId = .ok url ∧
      payload url = some (clickFields c dspId adUnitId creativeId uniqueId)) ∧
    ∃ url, generateViewUrl c dspId adUnitId creativeId (some winCpmPrice) = .ok url ∧
      payload url = some (viewFields c dspId adUnitId creativeId winCpmPrice uniqueId)

lemma tab_eq : tab = [9] := by decide

/-! ### Encoded arguments -/

section args

variable {lib : Ngx} {args : List (Str × Str)} {name key v : Str}

lemma notMem_encode_arg {b : UInt8} (hb : b ∈ lit "&#?") (key v : Str) : b ∉ encode_arg key v := by
  have hplain : ∀ s, b ∉ escape_uri s := fun s h => by
    have hnot := escape_uri_plain h
    revert hb hnot
    exact forall_byte (P := fun b => b ∈ lit "&#?" → b ∉ lit "+&=?#/: \"" → False)
      (by decide +kernel) b
  have hequals : b ≠ equals := by
    rintro rfl
    exact absurd hb (by decide)
  rw [encode_arg, List.mem_append, List.mem_cons]
  rintro (h | h | h)
  · exact hplain key h
  · exact hequals h
  · exact hplain v h

/-- The encoded arguments are those of a query, in some order. -/
lemma arg_encode_args (hlib : Encodes lib) (hname : equals ∉ name) (hne : args ≠ []) :
    ∃ args' : List (Str × Str), args'.Perm args ∧ hash ∉ lib.encode_args args ∧
      arg name (lib.encode_args args) =
        args'.findSome? fun e => if lower (escape_uri e.1) = name then some (escape_uri e.2)
          else none := by
  obtain ⟨args', hperm, hargs⟩ := hlib.args args
  have hpieces : ∀ piece ∈ args'.map fun e => encode_arg e.1 e.2,
      ampersand ∉ piece ∧ hash ∉ piece := by
    intro piece h
    obtain ⟨e, -, rfl⟩ := List.mem_map.mp h
    exact ⟨notMem_encode_arg (by decide) e.1 e.2, notMem_encode_arg (by decide) e.1 e.2⟩
  have hne' : (args'.map fun e => encode_arg e.1 e.2) ≠ [] := by
    rw [ne_eq, List.map_eq_nil_iff]
    rintro rfl
    exact hne (List.perm_nil.mp hperm.symm)
  refine ⟨args', hperm, ?_, ?_⟩
  · rw [hargs]
    intro h
    rcases mem_concat h with h | ⟨piece, hpiece, hmem⟩
    · exact absurd h (by decide)
    · exact (hpieces piece hpiece).2 hmem
  · have hsplit : (concat ampersand (args'.map fun e => encode_arg e.1 e.2)).splitOn ampersand =
        args'.map fun e => encode_arg e.1 e.2 :=
      split_concat (fun piece h => (hpieces piece h).1) hne'
    rw [hargs, arg, hsplit, List.findSome?_map]
    congr
    funext e
    have hkey : equals ∉ escape_uri e.1 := fun h => escape_uri_plain h (by decide)
    exact argOf_pair hname hkey

/-- Where one key has the name, its value is the argument, in whatever order they stand. -/
lemma arg_of_mem (hlib : Encodes lib) (hname : equals ∉ name) (hmem : (key, v) ∈ args)
    (hkey : lower (escape_uri key) = name)
    (hunique : ∀ e ∈ args, lower (escape_uri e.1) = name → e.2 = v) :
    hash ∉ lib.encode_args args ∧ arg name (lib.encode_args args) = some (escape_uri v) := by
  obtain ⟨args', hperm, hhash, harg⟩ := arg_encode_args hlib hname (List.ne_nil_of_mem hmem)
  refine ⟨hhash, ?_⟩
  rw [harg]
  cases hfind : args'.findSome? fun e => if lower (escape_uri e.1) = name then
      some (escape_uri e.2) else none with
  | none =>
    have hnone := List.findSome?_eq_none_iff.mp hfind (key, v) (hperm.mem_iff.mpr hmem)
    rw [if_pos hkey] at hnone
    cases hnone
  | some w =>
    obtain ⟨e, he, hw⟩ := List.exists_of_findSome?_eq_some hfind
    by_cases hname : lower (escape_uri e.1) = name
    · rw [if_pos hname, hunique e (hperm.mem_iff.mp he) hname] at hw
      exact hw.symm
    · rw [if_neg hname] at hw
      cases hw

lemma query_append {base s : Str} (hbase : question ∉ base ∧ hash ∉ base) (hs : hash ∉ s) :
    query (base ++ lit "?" ++ s) = s := by
  have hquestion : lit "?" = [question] := by decide
  have hhash : hash ∉ base ++ lit "?" ++ s := by
    simp only [List.mem_append, not_or]
    exact ⟨⟨hbase.2, by decide⟩, hs⟩
  rw [query, before_of_notMem hhash, hquestion, List.append_assoc, List.singleton_append,
    after_append_cons hbase.1]

/-- **Encoding and decoding undo each other**: the payload of a URL is its text, split. -/
theorem payload_url (hlib : Encodes lib) {base log : Str}
    (hbase : question ∉ base ∧ hash ∉ base)
    (hmem : (lit "t", lib.encode_base64 log) ∈ args)
    (hunique : ∀ e ∈ args, lower (escape_uri e.1) = lit "t" → e.2 = lib.encode_base64 log) :
    payload (base ++ lit "?" ++ lib.encode_args args) = some (split 9 log) := by
  have hkey : lower (escape_uri (lit "t")) = lit "t" := by decide
  obtain ⟨hhash, harg⟩ := arg_of_mem hlib (by decide) hmem hkey hunique
  have hdecode : decodeLogStr (escape_uri (lib.encode_base64 log)) = log := by
    rw [decodeLogStr, unescape_escape, hlib.base64, decode_encode]
  rw [payload, query_append hbase hhash, harg, Option.map_some, hdecode]

end args

/-! ### The fields -/

section fields

variable {c : Ctx} {dspId adUnitId creativeId : Str} {winCpmPrice : ℚ} {uniqueId : ℤ}

/-- Fields joined by tabs are told apart exactly when none has a tab. -/
lemma split_concat_iff {fields : List Str} (hne : fields ≠ []) :
    split 9 (concat 9 fields) = fields ↔ ∀ field ∈ fields, 9 ∉ field := by
  constructor
  · intro h field hfield
    rw [← h] at hfield
    exact notMem_of_mem_split hfield
  · intro h
    exact split_concat h hne

lemma concatUniqueId_ok (hid : creativeGetUniqueId c.dict dspId creativeId = .ok (some uniqueId)) :
    concatUniqueId c dspId creativeId = .ok (c.lib.tostring uniqueId) := by
  rw [concatUniqueId, hid]
  rfl

lemma click_payload (hlib : Encodes c.lib) (adUnitId : Str)
    (hid : creativeGetUniqueId c.dict dspId creativeId = .ok (some uniqueId)) :
    ∃ url, generateClickUrl c dspId adUnitId creativeId = .ok url ∧
      payload url = some (split 9
        (concat 9 (clickFields c dspId adUnitId creativeId uniqueId))) := by
  have hlog : concat 9 (clickFields c dspId adUnitId creativeId uniqueId) =
      c.bid ++ tab ++ dspId ++ tab ++ adUnitId ++ tab ++ creativeId ++ tab ++
        c.lib.tostring uniqueId := by
    simp [clickFields, concat, tab_eq, List.intercalate]
  rw [generateClickUrl, concatUniqueId_ok hid, ok_bind, ← hlog]
  refine ⟨_, rfl, payload_url hlib (by decide) (List.mem_cons_of_mem _ List.mem_cons_self) ?_⟩
  have hne : lower (escape_uri RTB_CLICK_ARG_TARGETING) ≠ lit "t" := by decide
  rw [List.forall_mem_cons, List.forall_mem_cons, List.forall_mem_singleton]
  exact ⟨fun h => absurd h (by decide), fun _ => rfl, fun h => absurd h hne⟩

lemma view_payload (hlib : Encodes c.lib) (adUnitId : Str) (winCpmPrice : ℚ)
    (hid : creativeGetUniqueId c.dict dspId creativeId = .ok (some uniqueId)) :
    ∃ url, generateViewUrl c dspId adUnitId creativeId (some winCpmPrice) = .ok url ∧
      payload url = some (split 9
        (concat 9 (viewFields c dspId adUnitId creativeId winCpmPrice uniqueId))) := by
  have hlog : concat 9 (viewFields c dspId adUnitId creativeId winCpmPrice uniqueId) =
      c.bid ++ tab ++ dspId ++ tab ++ adUnitId ++ tab ++ c.lib.tostring winCpmPrice ++ tab ++
        creativeId ++ tab ++ c.lib.tostring uniqueId := by
    simp [viewFields, concat, tab_eq, List.intercalate]
  rw [generateViewUrl, concatUniqueId_ok hid, ok_bind, concatNumber, ok_bind, ← hlog]
  refine ⟨_, rfl, payload_url hlib (by decide) (List.mem_cons_of_mem _ List.mem_cons_self) ?_⟩
  rw [List.forall_mem_cons, List.forall_mem_singleton]
  exact ⟨fun h => absurd h (by decide), fun _ => rfl⟩

/-- A number that is put in has no tab. -/
lemma forall_clickFields (hlib : Encodes c.lib) :
    (∀ field ∈ clickFields c dspId adUnitId creativeId uniqueId, 9 ∉ field) ↔
      ∀ field ∈ [c.bid, dspId, adUnitId, creativeId], 9 ∉ field := by
  simp [clickFields, hlib.tab_notMem]

lemma forall_viewFields (hlib : Encodes c.lib) :
    (∀ field ∈ viewFields c dspId adUnitId creativeId winCpmPrice uniqueId, 9 ∉ field) ↔
      ∀ field ∈ [c.bid, dspId, adUnitId, creativeId], 9 ∉ field := by
  simp [viewFields, hlib.tab_notMem]

/-- **When the fields come back**: none of the texts that are put in has a tab. -/
theorem round_trips_iff (hlib : Encodes c.lib) (adUnitId : Str) (winCpmPrice : ℚ)
    (hid : creativeGetUniqueId c.dict dspId creativeId = .ok (some uniqueId)) :
    RoundTrips c dspId adUnitId creativeId winCpmPrice uniqueId ↔
      ∀ field ∈ [c.bid, dspId, adUnitId, creativeId], 9 ∉ field := by
  obtain ⟨clickUrl, hclick, hclickPayload⟩ := click_payload hlib adUnitId hid
  obtain ⟨viewUrl, hview, hviewPayload⟩ := view_payload hlib adUnitId winCpmPrice hid
  have hclickNe : clickFields c dspId adUnitId creativeId uniqueId ≠ [] := List.cons_ne_nil _ _
  have hviewNe : viewFields c dspId adUnitId creativeId winCpmPrice uniqueId ≠ [] :=
    List.cons_ne_nil _ _
  constructor
  · rintro ⟨⟨url, hurl, hpayload⟩, -⟩
    rw [hclick] at hurl
    cases hurl
    rw [hclickPayload, Option.some.injEq] at hpayload
    exact (forall_clickFields hlib).mp ((split_concat_iff hclickNe).mp hpayload)
  · intro h
    refine ⟨⟨clickUrl, hclick, ?_⟩, viewUrl, hview, ?_⟩
    · rw [hclickPayload, split_concat ((forall_clickFields hlib).mpr h) hclickNe]
    · rw [hviewPayload, split_concat ((forall_viewFields hlib).mpr h) hviewNe]

end fields

section samples

open Sax.Clearing (ok sampleDict)

/-- A response of the Sina DSP, whose creatives need no approval. -/
def sinaText : String :=
  "\x7b\"version\":\"1.0\",\"bid\":\"b\",\"ad_creative\":[\x7b\"id\":\"U\",\"max_cpm_price\":2," ++
    "\"creative\":[\x7b\"id\":\"c\\td\",\"html_snippet\":\"x\"\x7d]\x7d],\"cm_flag\":\"false\"\x7d"

def sinaBody : Val :=
  .obj [("version", .str (lit "1.0")), ("bid", .str (lit "b")),
    ("ad_creative", .arr [.obj [("id", .str (lit "U")), ("max_cpm_price", .num 2),
      ("creative", .arr [.obj [("id", .str (lit "c\td")), ("html_snippet", .str (lit "x"))]])]]),
    ("cm_flag", .str (lit "false"))]

def sampleLib : Ngx :=
  { Ngx.ofTexts [(sinaText, sinaBody)] with
    encode_args := fun args => concat ampersand (args.map fun e => encode_arg e.1 e.2)
    encode_base64 := encode_base64 }

def sampleCtx : Ctx := { Clearing.sampleCtx [] .openAuction with lib := sampleLib }

lemma sample_encodes : Encodes sampleCtx.lib := by
  refine ⟨fun args => ⟨args, .refl _, rfl⟩, rfl, fun q h => ?_⟩
  rcases mem_decimal h with h | h
  · exact absurd h (by decide)
  · exact absurd h (by decide)

theorem round_trips_iff_sample :
    RoundTrips sampleCtx (lit "2") (lit "U") (lit "c") 1 1 ↔
      ∀ field ∈ [lit "b", lit "2", lit "U", lit "c"], 9 ∉ field :=
  round_trips_iff sample_encodes (lit "U") 1 rfl

/-- The creative `c<tab>d` wins, and its identifier comes back as two fields. -/
theorem tab_shifts_fields :
    (BidRsp.rtb sampleCtx).Keeps [ok sinaText] [SINA_DSP_ID] [] (lit "U")
      [⟨SINA_DSP_ID, 2, [⟨lit "c\td", lit "x"⟩]⟩] ∧
    BidRsp.selectWinner sampleCtx.dict .openAuction .plain .least
      [⟨SINA_DSP_ID, 2, [⟨lit "c\td", lit "x"⟩]⟩] (lit "U") =
        .ok ⟨SINA_DSP_ID, some 1, [⟨lit "c\td", lit "x"⟩]⟩ ∧
    creativeGetUniqueId sampleCtx.dict SINA_DSP_ID (lit "c\td") = .ok (some 1) ∧
    ¬ RoundTrips sampleCtx SINA_DSP_ID (lit "U") (lit "c\td") 1 1 := by
  refine ⟨by decide +kernel, by decide +kernel, rfl, ?_⟩
  rintro ⟨⟨url, hurl, hpayload⟩, -⟩
  obtain ⟨url', hurl', hpayload'⟩ := click_payload sample_encodes (lit "U")
    (rfl : creativeGetUniqueId sampleCtx.dict SINA_DSP_ID (lit "c\td") = .ok (some 1))
  rw [hurl'] at hurl
  cases hurl
  rw [hpayload', Option.some.injEq] at hpayload
  exact absurd hpayload (by decide +kernel)

end samples

end Sax.Tracking
