import Sax.ObjectInfo
import Sax.SqlText

/-!
The select statements of `model/db.lua` that name object ids: the text for one id and the text for
several.

Ids are pasted into the text: bare, or for ad units between quotes. What an id has in it is
part of the statement then.
-/

namespace Sax.IdQuery

open Sax.LuaVal Sax.Runtime Sax.SqlText
open Sax.ObjectInfo (Kind)

section source

def listConcator (list : List Str) (needQuote : Bool) : Str :=
  if needQuote then concat comma (list.map fun v => lit "'" ++ v ++ lit "'")
  else concat comma list

def adunitColumns : String :=
  "id, wdht, location, adnum, publisher, status, adtype, displaytype, rotatenum, gina, nad, " ++
    "networkinfo, channel"

/-- `selectDspInfo` and its siblings. -/
def selectInfo : Kind → Str → Str
  | .dsp, id => lit ("    select id, redirecturl, bidurl, notifyurl, priority, qps, " ++
      "encryptionkey, integritykey, status, signkey\n    from dsp\n    where id =\n    ") ++ id
  | .adunit, id => lit ("        select " ++ adunitColumns ++
      "\n        from adunit\n        where id =\n    ") ++ lit " '" ++ id ++ lit "'"
  | .publisher, id => lit ("        select id, id as resource, dspprice, blackadtype, " ++
      "blackterm, blackclickurl, status\n        from resource\n        where id =\n    ") ++ id
  | .resource, id => lit ("        select id, flag, dspwhitelist, status, pdwhitelist\n" ++
      "        from resource\n        where id =\n    ") ++ id
  | .creative, id =>
    lit "select id, dspid, dspideaid, advertiserid, status from creative where id = " ++ id
  | .advertiser, id =>
    lit "select id, dspid, advertiserid, status, type from advertiser where id = " ++ id
  | .network, id => lit "select id, name, url ,status from network where id =" ++ id

/-- `selectDspInfoList` and its siblings. -/
def selectInfoList : Kind → List Str → Str
  | .dsp, idList => lit ("        select id, redirecturl, bidurl, notifyurl, priority, qps, " ++
      "encryptionkey, integritykey, status, signkey\n        from dsp\n        where id in\n    ") ++
      lit " (" ++ listConcator idList false ++ lit ")"
  | .adunit, idList => lit ("        select " ++ adunitColumns ++
      "\n        from adunit\n        where id in\n    ") ++
      lit " (" ++ listConcator idList true ++ lit ")"
  | .publisher, idList => lit ("        select id, id as resource, dspprice, blackadtype, " ++
      "blackterm, blackclickurl, status\n        from resource\n        where id in\n    ") ++
      lit " (" ++ listConcator idList false ++ lit ")"
  | .resource, idList => lit ("        select id, flag, dspwhitelist, status, pdwhitelist\n" ++
      "        from resource\n        where id in\n    ") ++
      lit " (" ++ listConcator idList false ++ lit ")"
  | .creative, idList =>
    lit "select id, dspid, dspideaid, advertiserid, status from creative where id in (" ++
      listConcator idList false ++ lit ")"
  | .advertiser, idList =>
    lit "select id, dspid, advertiserid, status, type from advertiser where id in (" ++
      listConcator idList false ++ lit ")"
  | .network, idList => lit "select id, name, url, status from network where id in (" ++
      listConcator idList false ++ lit ")"

/-- The statement `updateInfoListSD` sends. -/
def statement (kind : Kind) (idList : List Str) : Str :=
  match idList with
  | [id] => selectInfo kind id
  | _ => selectInfoList kind idList

end source

/-- What is asked for of an ad unit. -/
def adunitAttributes : List Str :=
  ["id", "wdht", "location", "adnum", "publisher", "status", "adtype", "displaytype", "rotatenum",
    "gina", "nad", "networkinfo", "channel"].map lit

/-- The text is the select of the ad units whose id is one of `ids`. -/
def Intended (text : Str) (ids : List Str) : Prop :=
  ∃ sel, parse text = some sel ∧ sel.columns = adunitAttributes ∧ sel.table = lit "adunit" ∧
    sel.column = lit "id" ∧ ∀ x, x ∈ sel.values ↔ x ∈ ids

/-! ### The tokens before the ids -/

/-- The tokens up to the column of the condition. -/
def head : List Token :=
  .word (lit "select") :: (adunitAttributes.map Token.word).intersperse (.sym 44) ++
    [.word (lit "from"), .word (lit "adunit"), .word (lit "where"), .word (lit "id")]

lemma run_single : run .start (lit ("        select " ++ adunitColumns ++
    "\n        from adunit\n        where id =\n    ") ++ lit " '") =
      some (head ++ [.sym 61], .str []) := by
  decide +kernel

lemma run_list : run .start (lit ("        select " ++ adunitColumns ++
    "\n        from adunit\n        where id in\n    ") ++ lit " (" ++ lit "'") =
      some (head ++ [.word (lit "in"), .sym 40], .str []) := by
  decide +kernel

lemma parse_head (ts : List Token) : parseTokens (head ++ ts) =
    (parseWhere (.word (lit "id") :: ts)).map fun r =>
      ⟨adunitAttributes, lit "adunit", r.1, r.2⟩ := by
  rfl

lemma parseWhere_single {ts : List Token} {r : Str × List Str} :
    parseWhere (.word (lit "id") :: .sym 61 :: ts) = some r ↔
      ∃ v, ts = [.str v] ∧ r = (lit "id", [v]) := by
  constructor
  · intro h
    match ts, h with
    | [.str v], h => cases h; exact ⟨v, rfl, rfl⟩
  · rintro ⟨v, rfl, rfl⟩
    rfl

lemma parseWhere_list (ts : List Token) :
    parseWhere (.word (lit "id") :: .word (lit "in") :: .sym 40 :: ts) =
      (parseValues ts).map fun values => (lit "id", values) := by
  rfl

lemma listConcator_quoted (x : Str) (l : List Str) :
    listConcator (x :: l) true = 39 :: (joined x l ++ [39]) := by
  have hquote : lit "'" = [39] := by decide
  rw [listConcator, if_pos rfl, hquote]
  induction l generalizing x with
  | nil => simp [concat, List.intercalate, joined]
  | cons y l ih =>
    have hrest := ih y
    rw [List.map_cons] at hrest
    rw [List.map_cons, List.map_cons, concat_cons, hrest, joined]
    simp [comma]

/-! ### The statement -/

section statement

variable {x : Str} {l : List Str} {sel : Select}

lemma parse_single : parse (selectInfo .adunit x) = some sel ↔
    ∃ v, lex (.str []) (x ++ [39]) = some [.str v] ∧
      sel = ⟨adunitAttributes, lit "adunit", lit "id", [v]⟩ := by
  have hquote : lit "'" = [39] := by decide
  rw [parse, selectInfo, hquote, List.append_assoc, lex_append, run_single, Option.bind_some]
  constructor
  · intro h
    obtain ⟨ts, hts, h⟩ := Option.bind_eq_some_iff.mp h
    obtain ⟨ts', hts', rfl⟩ := Option.map_eq_some_iff.mp hts
    rw [List.append_assoc, parse_head] at h
    obtain ⟨r, hr, rfl⟩ := Option.map_eq_some_iff.mp h
    obtain ⟨v, rfl, rfl⟩ := parseWhere_single.mp hr
    exact ⟨v, hts', rfl⟩
  · rintro ⟨v, hv, rfl⟩
    rw [hv, Option.map_some, Option.bind_some, List.append_assoc, parse_head]
    rfl

lemma parse_list : parse (selectInfoList .adunit (x :: l)) = some sel ↔
    ∃ ts values, lex (.str []) (joined x l ++ [39, 41]) = some ts ∧
      parseValues ts = some values ∧
      sel = ⟨adunitAttributes, lit "adunit", lit "id", values⟩ := by
  have hquote : lit "'" = [39] := by decide
  have hclose : lit ")" = [41] := by decide
  have htext : selectInfoList .adunit (x :: l) =
      (lit ("        select " ++ adunitColumns ++
        "\n        from adunit\n        where id in\n    ") ++ lit " (" ++ lit "'") ++
        (joined x l ++ [39, 41]) := by
    rw [selectInfoList, listConcator_quoted, hquote, hclose]
    simp
  rw [parse, htext, lex_append, run_list, Option.bind_some]
  constructor
  · intro h
    obtain ⟨ts, hts, h⟩ := Option.bind_eq_some_iff.mp h
    obtain ⟨ts', hts', rfl⟩ := Option.map_eq_some_iff.mp hts
    rw [List.append_assoc, parse_head] at h
    obtain ⟨r, hr, rfl⟩ := Option.map_eq_some_iff.mp h
    rw [List.cons_append, List.singleton_append, parseWhere_list] at hr
    obtain ⟨values, hvalues, rfl⟩ := Option.map_eq_some_iff.mp hr
    exact ⟨ts', values, hts', hvalues, rfl⟩
  · rintro ⟨ts, values, hts, hvalues, rfl⟩
    rw [hts, Option.map_some, Option.bind_some, List.append_assoc, parse_head, List.cons_append,
      List.singleton_append, parseWhere_list, hvalues]
    rfl

/-- The content of each id is a value of the statement, where no id has a comma. -/
lemma contents_of_intended (hcomma : ∀ y ∈ x :: l, 44 ∉ y)
    (h : Intended (statement .adunit (x :: l)) (x :: l)) :
    ∃ values : List Str, (x :: l).map content = values.map some ∧
      ∀ y, y ∈ values ↔ y ∈ x :: l := by
  obtain ⟨sel, hparse, -, -, -, hvalues⟩ := h
  obtain ⟨hx, hl⟩ := List.forall_mem_cons.mp hcomma
  cases l with
  | nil =>
    obtain ⟨v, hlex, rfl⟩ := parse_single.mp hparse
    exact ⟨[v], by simp [(lex_single hx).mp hlex], hvalues⟩
  | cons y l =>
    obtain ⟨ts, values, hlex, hts, rfl⟩ := parse_list.mp hparse
    exact ⟨values, parseValues_joined hx hl hlex hts fun v hv => hcomma v ((hvalues v).mp hv),
      hvalues⟩

lemma intended_of_plain (hplain : ∀ y ∈ x :: l, Plain y) :
    Intended (statement .adunit (x :: l)) (x :: l) := by
  obtain ⟨hx, hl⟩ := List.forall_mem_cons.mp hplain
  cases l with
  | nil =>
    have hlex : lex (.str []) (x ++ [39]) = some [.str x] := by
      rw [lex_content (content_plain hx)]
      rfl
    exact ⟨_, parse_single.mpr ⟨x, hlex, rfl⟩, rfl, rfl, rfl, fun _ => Iff.rfl⟩
  | cons y l =>
    obtain ⟨ts, hlex, hts⟩ := parseValues_plain hx hl
    exact ⟨_, parse_list.mpr ⟨ts, _, hlex, hts, rfl⟩, rfl, rfl, rfl, fun _ => Iff.rfl⟩

end statement

/-- **The ids of a notification make up the select intended** exactly when none of them has a
quote in it, or a backslash other than before `%` and `_`. -/
theorem intended_iff (objectId : Str) :
    Intended (statement .adunit (split comma objectId)) (split comma objectId) ↔
      ∀ id ∈ split comma objectId, Plain id := by
  have hcomma : ∀ id ∈ split comma objectId, 44 ∉ id := fun id hid => notMem_of_mem_split hid
  obtain ⟨x, l, hids⟩ := List.exists_cons_of_ne_nil (List.splitOn_ne_nil comma objectId)
  have hids : split comma objectId = x :: l := hids
  rw [hids] at hcomma ⊢
  constructor
  · intro h
    obtain ⟨values, hcontent, hset⟩ := contents_of_intended hcomma h
    exact plain_of_contents hcontent hset
  · exact intended_of_plain

/-- The id `b'b`. -/
theorem quoted_id_breaks :
    ¬ Intended (statement .adunit (split comma (lit "b'b"))) (split comma (lit "b'b")) := by
  have hids : split comma (lit "b'b") = [lit "b'b"] := by decide
  rw [hids]
  rintro ⟨sel, hparse, -⟩
  obtain ⟨v, hlex, -⟩ := parse_single.mp hparse
  have hnone : lex (.str []) (lit "b'b" ++ [39]) = none := by decide
  rw [hnone] at hlex
  cases hlex

end Sax.IdQuery
