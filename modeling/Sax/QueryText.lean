import Sax.Columns
import Sax.FastPath
import Sax.SqlStatement

/-!
The statements of `model/db.lua` as texts.

The center writes the keys and the values of a request into its statements: a key as it is, a
string through `ngx.quote_sql_str`, a number as it is printed. A server that parses what it gets
does what was meant all the same, since the keys have been compared with the attributes before.
-/

namespace Sax.QueryText

open Sax.LuaVal Sax.Loop Sax.Runtime Sax.Center Sax.SqlStatement
open Sax.FastPath.bdm (quote_sql_str select_info select_info_list list_concator)
open Sax.ObjectInfo (Kind lower)
open Sax.SqlText (content isWord)
open Sax.Columns (pairs mem_pairs contentParse_accepts)
open Sax.Upsert (checked_attr statement_update statement_insert columnListParse_ne_nil)

/-! ### The texts -/

section source

/-- A value as it is concatenated. -/
def valueText : Literal → Str
  | .number text => text
  | .name text => text
  | .negated text => lit "-" ++ text
  | .quoted s => quote_sql_str s

/-- The loop of `columnListParse` for an update; nothing for an empty list. -/
def setBlock (list : List (Str × Literal)) : Option Str :=
  list.foldl (fun setBlock e =>
    match setBlock with
    | none => some (e.1 ++ lit "=" ++ valueText e.2)
    | some setBlock => some (setBlock ++ lit "," ++ e.1 ++ lit "=" ++ valueText e.2)) none

def insertInfo (tableName : Str) (columnList : List (Str × Literal)) : Str :=
  let columns := concat comma (columnList.map Prod.fst)
  let values := concat comma (columnList.map fun e => valueText e.2)
  lit "insert into " ++ tableName ++ lit "(" ++ columns ++ lit ") " ++ lit "values(" ++ values ++
    lit ")"

def updateInfo (tableName : Str) (id : Literal) (columnList : List (Str × Literal)) : Option Str :=
  (setBlock columnList).map fun setBlock =>
    lit "update " ++ tableName ++ lit " set " ++ setBlock ++ lit " where id = " ++ valueText id

def deleteInfo (tableName : Str) (id : Literal) : Str :=
  lit "delete from " ++ tableName ++ lit " where id = " ++ valueText id

def checkExist (tableName : Str) (id : Literal) : Str :=
  lit "select count(*) as num from " ++ tableName ++ lit " where id = " ++ valueText id

end source

/-- The text posted for a statement of the center, which has an assignment in every update. -/
def text (kind : Kind) : Center.Statement → Str
  | .update id columnList => (updateInfo (lit kind.objectName) id columnList).getD []
  | .insert columnList => insertInfo (lit kind.objectName) columnList
  | .delete id => deleteInfo (lit kind.objectName) id

/-! ### What is meant -/

def value : Literal → Value
  | .number x => .number x
  | .name w => .name w
  | .negated w => .negated w
  | .quoted s => .quoted s

def literalOf : Value → Literal
  | .number x => .number x
  | .name w => .name w
  | .negated w => .negated w
  | .quoted s => .quoted s

def meaning (kind : Kind) : Center.Statement → SqlStatement.Statement
  | .update id columnList => .update (lit kind.objectName)
      (columnList.map fun e => (e.1, value e.2)) (lit "id") (value id)
  | .insert columnList => .insert (lit kind.objectName) (columnList.map fun e => (e.1, value e.2))
  | .delete id => .delete (lit kind.objectName) (lit "id") (value id)

/-- The database behind the texts. -/
structure Server (σ : Type) where
  count : Str → σ → Except Str Bool
  exec : Str → σ → Except Str σ

/-- The statement of an object that a parsed one is. -/
def ofStatement : SqlStatement.Statement → Option (Kind × Center.Statement)
  | .update table assignments column v =>
    if column = lit "id" then (ofName table).map fun kind =>
      (kind, .update (literalOf v) (assignments.map fun e => (e.1, literalOf e.2)))
    else none
  | .insert table assignments => (ofName table).map fun kind =>
      (kind, .insert (assignments.map fun e => (e.1, literalOf e.2)))
  | .delete table column v =>
    if column = lit "id" then (ofName table).map fun kind => (kind, .delete (literalOf v)) else none
  | .count _ _ _ => none

def syntaxError : Str := lit "You have an error in your SQL syntax"

/-- A server that parses each text and carries out what it reads. -/
def server {σ : Type} (engine : Engine σ) : Server σ where
  count text db :=
    match parse text with
    | some (.count table column v) =>
      match if column = lit "id" then ofName table else none with
      | some kind => engine.exist kind (literalOf v) db
      | none => .error syntaxError
    | _ => .error syntaxError
  exec text db :=
    match (parse text).bind ofStatement with
    | some (kind, st) => engine.exec kind st db
    | none => .error syntaxError

/-- The database as the center sees it through texts. The object id of a row is asked for by
another statement. -/
def overText {σ : Type} (server : Server σ) (objectId : Kind → Literal → σ → Lua (Option Str)) :
    Engine σ where
  exist kind id db := server.count (checkExist (lit kind.objectName) id) db
  exec kind st db := server.exec (text kind st) db
  objectId := objectId

/-! ### What is read of a value -/

section values

/-- What stands between the quotes of a literal. -/
def escaped (s : Str) : Str :=
  s.flatMap fun c =>
    if c = 0 then lit "\\0" else if c = 8 then lit "\\b" else if c = 10 then lit "\\n"
    else if c = 13 then lit "\\r" else if c = 9 then lit "\\t" else if c = 26 then lit "\\Z"
    else if c = 92 ∨ c = 39 ∨ c = 34 then [92, c] else [c]

lemma quote_sql_str_eq (s : Str) : quote_sql_str s = 39 :: (escaped s ++ [39]) := by
  have hquote : lit "'" = [39] := by decide
  rw [quote_sql_str, hquote]
  rfl

lemma content_escape {c : UInt8} {s : Str} :
    content (92 :: c :: s) = (content s).map (SqlText.escape c ++ ·) := by
  rw [content, if_neg (by decide), if_pos rfl]

lemma content_plain_cons {c : UInt8} {s : Str} (hquote : c ≠ 39) (hback : c ≠ 92) :
    content (c :: s) = (content s).map (c :: ·) := by
  cases s with
  | nil => simp [content, hquote, hback]
  | cons d s => rw [content, if_neg hquote, if_neg hback]

/-- **A quoted string denotes the string**, whatever bytes it has. -/
theorem content_escaped (s : Str) : content (escaped s) = some s := by
  induction s with
  | nil => rfl
  | cons c s ih =>
    have hletters : lit "\\0" = [92, 48] ∧ lit "\\b" = [92, 98] ∧ lit "\\n" = [92, 110] ∧
        lit "\\r" = [92, 114] ∧ lit "\\t" = [92, 116] ∧ lit "\\Z" = [92, 90] := by decide
    obtain ⟨h0, hb, hn, hr, ht, hz⟩ := hletters
    have hcons : escaped (c :: s) = (if c = 0 then lit "\\0" else if c = 8 then lit "\\b"
        else if c = 10 then lit "\\n" else if c = 13 then lit "\\r" else if c = 9 then lit "\\t"
        else if c = 26 then lit "\\Z" else if c = 92 ∨ c = 39 ∨ c = 34 then [92, c] else [c]) ++
          escaped s := List.flatMap_cons
    rw [hcons, h0, hb, hn, hr, ht, hz]
    split_ifs with hc hc hc hc hc hc hc
    iterate 6
      · subst hc
        rw [List.cons_append, List.singleton_append, content_escape, ih]
        rfl
    · rw [List.cons_append, List.singleton_append, content_escape, ih]
      rcases hc with rfl | rfl | rfl <;> rfl
    · rw [List.singleton_append, content_plain_cons (by tauto) (by tauto), ih, Option.map_some]

/-- A literal that can be told from what stands around it. -/
def Legible : Literal → Prop
  | .number text => IsNumeral text
  | .name text => IsName text
  | .negated text => IsName text
  | .quoted _ => True

lemma reads_value {v : Literal} (h : Legible v) : Reads (valueText v) [(value v).token] := by
  cases v with
  | number text => exact reads_numeral h
  | name text => exact reads_name h
  | negated text => exact reads_negated h
  | quoted s =>
    rw [valueText, quote_sql_str_eq]
    exact reads_literal (content_escaped s)

@[simp] lemma literalOf_value (v : Literal) : literalOf (value v) = v := by cases v <;> rfl

end values

/-! ### What is read of a statement -/

section statements

variable {kind : Kind} {id : Literal} {l : List (Str × Literal)}

lemma isName_objectName (kind : Kind) : IsName (lit kind.objectName) := by
  cases kind <;> decide +kernel

/-- The keys are names and the values can be read. -/
def Written (l : List (Str × Literal)) : Prop := ∀ e ∈ l, IsName e.1 ∧ Legible e.2

lemma concat_append (x y : Str) (l : List Str) :
    concat comma ((x ++ y) :: l) = x ++ concat comma (y :: l) := by
  cases l with
  | nil => simp [concat, List.intercalate]
  | cons z l => rw [concat_cons, concat_cons, List.append_assoc]

lemma setBlock_eq (hl : l ≠ []) :
    setBlock l = some (concat comma (l.map fun e => e.1 ++ (lit "=" ++ valueText e.2))) := by
  have hcomma : lit "," = [44] := by decide
  have hfold : ∀ (l : List (Str × Literal)) (b : Str), l.foldl (fun setBlock e =>
      match setBlock with
      | none => some (e.1 ++ lit "=" ++ valueText e.2)
      | some setBlock => some (setBlock ++ lit "," ++ e.1 ++ lit "=" ++ valueText e.2)) (some b) =
        some (concat comma (b :: l.map fun e => e.1 ++ (lit "=" ++ valueText e.2))) := by
    intro l
    induction l with
    | nil => exact fun b => by simp [concat, List.intercalate]
    | cons e l ih =>
      intro b
      rw [List.foldl_cons, ih, List.map_cons, concat_cons, hcomma]
      simp only [List.append_assoc, concat_append, List.singleton_append]
      rfl
  cases l with
  | nil => exact absurd rfl hl
  | cons e l => rw [setBlock, List.foldl_cons, hfold, List.map_cons, List.append_assoc]

lemma reads_assignment {e : Str × Literal} (h : IsName e.1 ∧ Legible e.2) :
    Reads (e.1 ++ (lit "=" ++ valueText e.2)) (assignmentTokens (e.1, value e.2)) := by
  have hequals : Link (lit "=") [.sym 61] := by decide
  rw [← List.append_assoc]
  exact ((reads_name h.1).append hequals).append_reads (reads_value h.2)

lemma reads_deleteInfo (hid : Legible id) :
    Reads (text kind (.delete id)) (meaning kind (.delete id)).tokens := by
  have hdelete : Closed (lit "delete from ") [.word (lit "delete"), .word (lit "from")] := by decide
  have hwhere : Link (lit " where id = ") [.word (lit "where"), .word (lit "id"), .sym 61] := by
    decide
  exact (((hdelete.append_reads (reads_name (isName_objectName kind))).append hwhere).append_reads
    (reads_value hid))

lemma reads_checkExist (hid : Legible id) : Reads (checkExist (lit kind.objectName) id)
    (Statement.count (lit kind.objectName) (lit "id") (value id)).tokens := by
  have hselect : Closed (lit "select count(*) as num from ") [.word (lit "select"),
      .word (lit "count"), .sym 40, .sym 42, .sym 41, .word (lit "as"), .word (lit "num"),
      .word (lit "from")] := by decide
  have hwhere : Link (lit " where id = ") [.word (lit "where"), .word (lit "id"), .sym 61] := by
    decide
  exact (((hselect.append_reads (reads_name (isName_objectName kind))).append hwhere).append_reads
    (reads_value hid))

lemma reads_updateInfo (hid : Legible id) (hl : l ≠ []) (hwritten : Written l) :
    Reads (text kind (.update id l)) (meaning kind (.update id l)).tokens := by
  have hupdate : Closed (lit "update ") [.word (lit "update")] := by decide
  have hset : Link (lit " set ") [.word (lit "set")] := by decide
  have hwhere : Link (lit " where id = ") [.word (lit "where"), .word (lit "id"), .sym 61] := by
    decide
  have hblock := reads_concat hl fun e he => reads_assignment (hwritten e he)
  have h := ((((hupdate.append_reads (reads_name (isName_objectName kind))).append
    hset).append_reads hblock).append hwhere).append_reads (reads_value hid)
  rw [text, updateInfo, setBlock_eq hl, Option.map_some, Option.getD_some]
  convert h using 1
  simp [meaning, Statement.tokens, whereTokens, List.map_map, Function.comp_def]

lemma reads_insertInfo (hl : l ≠ []) (hwritten : Written l) :
    Closed (text kind (.insert l)) (meaning kind (.insert l)).tokens := by
  have hinsert : Closed (lit "insert into ") [.word (lit "insert"), .word (lit "into")] := by decide
  have hopen : Link (lit "(") [.sym 40] := by decide
  have hvalues : Link (lit ") " ++ lit "values(") [.sym 41, .word (lit "values"), .sym 40] := by
    decide
  have hclose : Link (lit ")") [.sym 41] := by decide
  have hcolumns := reads_concat hl fun e he => reads_name (hwritten e he).1
  have hlist := reads_concat hl fun e he => reads_value (hwritten e he).2
  have h := ((((((hinsert.append_reads (reads_name (isName_objectName kind))).append
    hopen).append_reads hcolumns).append hvalues).append_reads hlist).append hclose)
  convert h using 1
  · simp [text, insertInfo]
  · simp [meaning, Statement.tokens, List.map_map, Function.comp_def]

lemma ofName_objectName (kind : Kind) : ofName (lit kind.objectName) = some kind := by
  cases kind <;> decide +kernel

/-- A statement that the server reads as it is meant. -/
def Readable : Center.Statement → Prop
  | .update id l => Legible id ∧ l ≠ [] ∧ Written l
  | .insert l => l ≠ [] ∧ Written l
  | .delete id => Legible id

/-- **The text of a statement is parsed as what was meant.** -/
theorem parse_text {st : Center.Statement} (h : Readable st) :
    parse (text kind st) = some (meaning kind st) := by
  cases st with
  | update id l =>
    obtain ⟨hid, hl, hwritten⟩ := h
    exact parse_of_reads (by simpa [meaning, Statement.Proper] using hl)
      (reads_updateInfo hid hl hwritten)
  | insert l =>
    obtain ⟨hl, hwritten⟩ := h
    exact parse_of_closed (by simpa [meaning, Statement.Proper] using hl)
      (reads_insertInfo hl hwritten)
  | delete id => exact parse_of_reads trivial (reads_deleteInfo h)

lemma ofStatement_meaning (st : Center.Statement) :
    ofStatement (meaning kind st) = some (kind, st) := by
  cases st <;> simp [meaning, ofStatement, ofName_objectName, List.map_map, Function.comp_def]

end statements

/-! ### The engine behind the texts -/

section engine

variable {σ : Type} {engine : Engine σ} {kind : Kind} {db : σ}

/-- The center with its statements written out, on a server that reads them. -/
def written (engine : Engine σ) : Engine σ := overText (server engine) engine.objectId

lemma written_exist {id : Literal} (hid : Legible id) :
    (written engine).exist kind id db = engine.exist kind id db := by
  have hparse : parse (checkExist (lit kind.objectName) id) =
      some (.count (lit kind.objectName) (lit "id") (value id)) :=
    parse_of_reads trivial (reads_checkExist hid)
  simp [written, overText, server, hparse, ofName_objectName]

lemma written_exec {st : Center.Statement} (h : Readable st) :
    (written engine).exec kind st db = engine.exec kind st db := by
  simp [written, overText, server, parse_text h, ofStatement_meaning]

end engine

/-! ### The requests of the center -/

section requests

variable {σ : Type} {lib : Ngx} {o : Order} {engine : Engine σ} {fails : Point → Option Str}
  {kind : Kind} {db : σ}

/-- Numbers are printed so that they are read as numerals, unless they are infinite. -/
def PrintsNumerals (lib : Ngx) : Prop := ∀ q, Double.Finite q → IsNumeral (lib.tostring q)

lemma isName_inf : IsName (lit "inf") := by decide

lemma literal_legible (hlib : PrintsNumerals lib) {v : Val} {x : Literal}
    (h : literal lib v = .ok x) : Legible x := by
  cases v with
  | num q =>
    rw [literal] at h
    split_ifs at h with hfinite hpos
    · cases h; exact hlib q hfinite
    · cases h; exact isName_inf
    · cases h; exact isName_inf
  | nan => cases h; exact (by decide : IsName (lit "nan"))
  | str s => cases h; trivial
  | _ => cases h

/-- Small letters, as the names of the attributes are. -/
def IsLower (w : Str) : Prop := w ≠ [] ∧ ∀ c ∈ w, 97 ≤ c ∧ c ≤ 122

lemma isName_of_lower {w : Str} (h : IsLower (lower w)) : IsName w := by
  obtain ⟨hne, hall⟩ := h
  have hletter : ∀ c ∈ w, isWord c ∧ isDigit c = false := by
    intro c hc
    have hlower := hall _ (List.mem_map_of_mem hc)
    simp only [isWord, isDigit, Bool.or_eq_true, Bool.and_eq_true, decide_eq_true_eq,
      decide_eq_false_iff_not, UInt8.le_iff_toNat_le,
      ← UInt8.toNat_inj, UInt8.reduceToNat] at hlower ⊢
    split_ifs at hlower with hupper
    · omega
    · omega
  cases w with
  | nil => exact absurd rfl hne
  | cons c w =>
    refine ⟨by simpa using (hletter c List.mem_cons_self).2, List.all_eq_true.mpr ?_⟩
    exact fun d hd => (hletter d hd).1

lemma isLower_attr {attr : ManageAttr} (h : attr ∈ (attr_manage_end kind).getD []) :
    IsLower (lit attr.name) := by
  have hall : ∀ attr ∈ (attr_manage_end kind).getD [], lit attr.name ≠ [] ∧
      ∀ c ∈ lit attr.name, 97 ≤ c ∧ c ≤ 122 := by
    cases kind <;> decide +kernel
  exact hall attr h

/-- **The keys of a table that was accepted are names.** -/
lemma accepted_names {t : Tbl Val} {isUpdate : Bool}
    (h : attributeValidityCheck lib o kind t isUpdate = .ok (.ok ())) {k : Str} {v : Val}
    (hk : t.get k = some v) : IsName k := by
  obtain ⟨attr, hattr, hname⟩ := checked_attr h hk
  exact isName_of_lower (hname ▸ isLower_attr hattr)

/-- **The statement of an accepted content is read as it is meant.** -/
theorem readable_of_accepted (hlib : PrintsNumerals lib) {content : Parsed} {st : Center.Statement}
    (hid : content.attrs.get (lit "id") = some content.id)
    (haccept : attributeValidityCheck lib o kind content.attrs content.isExist = .ok (.ok ()))
    (h : statement lib o content = .ok st) : Readable st := by
  have hpairs : Written (pairs st) := by
    intro e he
    obtain ⟨v, hget, hv⟩ := (mem_pairs hid h).mp he
    exact ⟨accepted_names haccept hget, literal_legible hlib hv⟩
  by_cases hexist : content.isExist
  · obtain ⟨l, t, hl, -, -, rfl⟩ := (statement_update hexist).mp h
    exact ⟨(hpairs _ List.mem_cons_self).2, hl, fun e he => hpairs e (List.mem_cons_of_mem _ he)⟩
  · obtain ⟨l, hl, rfl⟩ := (statement_insert hexist).mp h
    exact ⟨(columnListParse_ne_nil hl).mpr ⟨_, _, hid⟩, hpairs⟩

lemma contentCheck_written (hlib : PrintsNumerals lib) (isDelete : Bool) (content : Content)
    (i : ℕ) : contentCheck lib o (written engine) fails kind isDelete db content i =
      contentCheck lib o engine fails kind isDelete db content i := by
  cases content with
  | noField => rfl
  | other => rfl
  | object attrs =>
    simp only [contentCheck]
    split
    · rfl
    · rfl
    · next id _ _ =>
      cases hid : literal lib id with
      | error e => rfl
      | ok x => simp only [ok_bind, written_exist (literal_legible hlib hid)]

lemma contentChecks_written (hlib : PrintsNumerals lib) (isDelete : Bool)
    (contentList : List Content) (i : ℕ) :
    contentChecks lib o (written engine) fails kind isDelete db contentList i =
      contentChecks lib o engine fails kind isDelete db contentList i := by
  induction contentList generalizing i with
  | nil => rfl
  | cons content contentList ih => simp only [contentChecks, contentCheck_written hlib, ih]

lemma contentParse_written (hlib : PrintsNumerals lib) (objectName : Str)
    (contentList : List Content) (isDelete : Bool) :
    contentParse lib o (written engine) fails objectName contentList isDelete db =
      contentParse lib o engine fails objectName contentList isDelete db := by
  simp only [contentParse, contentChecks_written hlib]

/-- A loop does what another does where their steps agree on the contents. -/
lemma runSteps_congr {step step' : Parsed → ℕ → σ → Lua (Except Str (σ × Option Str))}
    {contents : List Parsed}
    (h : ∀ content ∈ contents, ∀ i db, step content i db = step' content i db) (i : ℕ)
    (db : σ) : runSteps step contents i db = runSteps step' contents i db := by
  induction contents generalizing i db with
  | nil => rfl
  | cons content contents ih =>
    obtain ⟨hcontent, hrest⟩ := List.forall_mem_cons.mp h
    simp only [runSteps, hcontent, ih hrest]

lemma updateStep_written (hlib : PrintsNumerals lib) {content : Parsed}
    (hid : content.attrs.get (lit "id") = some content.id)
    (haccept : attributeValidityCheck lib o kind content.attrs content.isExist = .ok (.ok ()))
    (i : ℕ) (db : σ) : updateStep lib o (written engine) fails kind content i db =
      updateStep lib o engine fails kind content i db := by
  unfold updateStep
  cases hst : statement lib o content with
  | error e => rfl
  | ok st => simp only [ok_bind, written_exec (readable_of_accepted hlib hid haccept hst)]

lemma deleteStep_written (hlib : PrintsNumerals lib) (content : Parsed) (i : ℕ) (db : σ) :
    deleteStep lib (written engine) fails kind content i db =
      deleteStep lib engine fails kind content i db := by
  unfold deleteStep
  cases hid : literal lib content.id with
  | error e => rfl
  | ok x =>
    have hexec : (written engine).exec kind (.delete x) db = engine.exec kind (.delete x) db :=
      written_exec (literal_legible hlib hid)
    simp only [ok_bind, hexec]
    rfl

end requests

section samples

lemma ofTexts_numerals (texts : List (String × Val)) : PrintsNumerals (Ngx.ofTexts texts) :=
  fun q _ => isNumeral_decimal q.floor

/-- A network whose URL would end the statement and begin another, were it not quoted. -/
def sampleContents : List Content :=
  [.object ((∅ : Tbl Val).putAll [(lit "id", .num 7),
    (lit "Url", .str (lit "'); delete from dsp --")), (lit "status", .num 1)])]

end samples

/-! ### The selects of `saxmob` -/

section selects

/-- The statement of `update_info_list_sd`. -/
def selectText (kind : ObjectCheck.Kind) (ids : List Str) : Str :=
  match ids with
  | [id] => select_info kind id
  | _ => select_info_list kind ids

/-- The tokens of a select up to the column of its condition. -/
def selectHead (kind : ObjectCheck.Kind) : List SqlText.Token :=
  .word (lit "select") ::
    ((Schema.columns kind).map fun c => SqlText.Token.word (lit c)).intersperse (.sym 44) ++
      [.word (lit "from"), .word (lit (Schema.objectName kind)), .word (lit "where"),
        .word (lit "id")]

lemma parse_selectHead (kind : ObjectCheck.Kind) (ts : List SqlText.Token) :
    SqlText.parseTokens (selectHead kind ++ ts) =
      (SqlText.parseWhere (.word (lit "id") :: ts)).map fun r =>
        ⟨(Schema.columns kind).map lit, lit (Schema.objectName kind), r.1, r.2⟩ := by
  cases kind <;> rfl

lemma run_select_info (kind : ObjectCheck.Kind) :
    ∃ x, (∀ id, select_info kind id = x ++ (escaped id ++ [39])) ∧
      SqlText.run .start x = some (selectHead kind ++ [.sym 61], .str []) := by
  have hsplit : ∀ (x : Str) id, x ++ quote_sql_str id = (x ++ [39]) ++ (escaped id ++ [39]) := by
    intro x id
    rw [quote_sql_str_eq, List.append_assoc, List.singleton_append]
  cases kind <;> exact ⟨_, fun id => hsplit _ id, by decide +kernel⟩

lemma list_concator_eq (x : Str) (l : List Str) :
    list_concator (x :: l) true = 39 :: (SqlText.joined (escaped x) (l.map escaped) ++ [39]) := by
  rw [list_concator, if_pos rfl]
  induction l generalizing x with
  | nil => simp [concat, List.intercalate, SqlText.joined, quote_sql_str_eq]
  | cons y l ih =>
    have hrest := ih y
    rw [List.map_cons] at hrest
    rw [List.map_cons, List.map_cons, concat_cons, hrest, List.map_cons, SqlText.joined,
      quote_sql_str_eq]
    simp [comma]

lemma run_select_info_list (kind : ObjectCheck.Kind) : ∃ y, (∀ x l, select_info_list kind (x :: l) =
      y ++ (SqlText.joined (escaped x) (l.map escaped) ++ [39, 41])) ∧
    SqlText.run .start y = some (selectHead kind ++ [.word (lit "in"), .sym 40], .str []) := by
  have hsplit : ∀ (y : Str) x l, y ++ lit "(" ++ list_concator (x :: l) true ++ lit ")" =
      (y ++ lit "(" ++ [39]) ++ (SqlText.joined (escaped x) (l.map escaped) ++ [39, 41]) := by
    intro y x l
    have hclose : lit ")" = [41] := by decide
    rw [list_concator_eq, hclose]
    simp
  cases kind <;> exact ⟨_, fun x l => hsplit _ x l, by decide +kernel⟩

/-- The quoted ids of a list are read as the ids. -/
lemma lex_escaped (x : Str) (l : List Str) : ∃ ts,
    SqlText.lex (.str []) (SqlText.joined (escaped x) (l.map escaped) ++ [39, 41]) = some ts ∧
      SqlText.parseValues ts = some (x :: l) := by
  induction l generalizing x with
  | nil =>
    refine ⟨[.str x, .sym 41], ?_, rfl⟩
    rw [List.map_nil, SqlText.joined, SqlText.lex_content (content_escaped x), List.nil_append,
      SqlText.lex_close]
  | cons y l ih =>
    obtain ⟨ts, hts, hparse⟩ := ih y
    have htext : SqlText.joined (escaped x) ((y :: l).map escaped) ++ [39, 41] = escaped x ++
        39 :: 44 :: 39 :: (SqlText.joined (escaped y) (l.map escaped) ++ [39, 41]) := by
      simp [SqlText.joined]
    refine ⟨.str x :: .sym 44 :: ts, ?_, by
      rw [SqlText.parseValues_cons, hparse, Option.map_some]⟩
    rw [htext, SqlText.lex_content (content_escaped x), List.nil_append, SqlText.lex_separator, hts,
      Option.map_some]

lemma parse_select_info (kind : ObjectCheck.Kind) (id : Str) :
    SqlText.parse (select_info kind id) = some ⟨(Schema.columns kind).map lit,
      lit (Schema.objectName kind), lit "id", [id]⟩ := by
  obtain ⟨y, htext, hrun⟩ := run_select_info kind
  have hlex : SqlText.lex (.str []) (escaped id ++ [39]) = some [.str id] := by
    rw [SqlText.lex_content (content_escaped id)]
    rfl
  rw [htext, SqlText.parse, SqlText.lex_append, hrun, Option.bind_some, hlex, Option.map_some,
    Option.bind_some, List.append_assoc, parse_selectHead]
  rfl

lemma parse_select_info_list (kind : ObjectCheck.Kind) (x : Str) (l : List Str) :
    SqlText.parse (select_info_list kind (x :: l)) = some ⟨(Schema.columns kind).map lit,
      lit (Schema.objectName kind), lit "id", x :: l⟩ := by
  obtain ⟨y, htext, hrun⟩ := run_select_info_list kind
  obtain ⟨ts, hlex, hts⟩ := lex_escaped x l
  have hwhere : SqlText.parseWhere (.word (lit "id") :: .word (lit "in") :: .sym 40 :: ts) =
      some (lit "id", x :: l) := by
    rw [SqlText.parseWhere, hts]
    rfl
  rw [htext, SqlText.parse, SqlText.lex_append, hrun, Option.bind_some, hlex, Option.map_some,
    Option.bind_some, List.append_assoc, parse_selectHead, List.cons_append, List.singleton_append,
    hwhere]
  rfl

end selects

end Sax.QueryText
