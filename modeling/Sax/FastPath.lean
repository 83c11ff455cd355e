import Sax.Getters
import Sax.IdQuery
import Sax.Schema

/-!
The two ways a worker fetches the objects of a notification, with their result codes:
`updateInfoSD` for one id and the loop of `updateInfoListSD`, in `model/object.lua` and in
`saxmob/bdm/object.lua`.

What the database answers to a statement and what the shared dictionary does with an entry are
arbitrary. The result code is `nil` where a function ends without a `return`.
-/

namespace Sax.FastPath

open Sax.LuaVal Sax.Loop Sax.Runtime Sax.SqlText
open Sax.ObjectInfo (Kind Row Cell select transformInfo)
open Sax.Getters (objectId)
open Sax.IdQuery (selectInfo selectInfoList)

/-- `ngx.shared.DICT:set`: whether it succeeded, whether it removed valid entries for it, and the
dictionary after it. -/
structure SharedDict (σ : Type) where
  set : Str → Str → σ → (Bool × Bool) × σ

/-- The result code of a call, and the dictionary after it. -/
abbrev Update (σ : Type) := Lua (Option ℤ) × σ

/-- One result code, or both calls raise, and one dictionary after them. -/
def Agree {σ : Type} (a b : Update σ) : Prop :=
  a.1.toOption = b.1.toOption ∧ a.2 = b.2

section source

variable {σ ρ : Type} (lib : Ngx) (d : SharedDict σ)

/-- The end of `setDict`: an entry that displaced others counts as a failure. -/
def setEntry (key value : Str) (dict : σ) : ℤ × σ :=
  let r := d.set key value dict
  (if !r.1.1 || r.1.2 then -1 else 0, r.2)

/-- The loop over the rows; `failed` is what is returned for the code of an entry that failed. -/
def putAll (put : ρ → σ → Lua ℤ × σ) (failed : ℤ → ℤ) : List ρ → σ → Lua ℤ × σ
  | [], dict => (.ok 0, dict)
  | info :: rest, dict =>
    match put info dict with
    | (.ok res, dict) => if res ≠ 0 then (.ok (failed res), dict) else putAll put failed rest dict
    | (.error e, dict) => (.error e, dict)

/-- A result that is a number. -/
def code (r : Lua ℤ × σ) : Update σ := (r.1.map some, r.2)

/-! ### `model/object.lua` -/

/-- `object:setDict` -/
def setDict (kind : Kind) (value : List Val) (dict : σ) : Lua ℤ × σ :=
  match lib.encode (.arr value), objectId lib value with
  | .ok text, some id =>
    let r := setEntry d (kind.sharedDictPre ++ id) text dict
    (.ok r.1, r.2)
  | .ok _, none => (.error .badConcat, dict)
  | .error e, _ => (.error e, dict)

/-- `self:setDict(self:transformInfo(info))` -/
def put (kind : Kind) (info : List (String × Cell)) (dict : σ) : Lua ℤ × σ :=
  match transformInfo lib kind info with
  | .ok value => setDict lib d kind value dict
  | .error e => (.error e, dict)

/-- An id that is pasted into a statement as one literal: a number, or a plain text between the
quotes. -/
def IsLiteral (kind : Kind) (id : Str) : Prop :=
  if kind = .adunit then Plain id else (parseDecimal id).isSome

/-- The database: `id in (x)` is `id = x` for a literal `x`. -/
structure MySql where
  query : Str → Lua (List Row)
  in_literal : ∀ kind id, IsLiteral kind id →
    (query (selectInfoList kind [id])).toOption = (query (selectInfo kind id)).toOption

variable (q : MySql)

/-- `getInfoDB`: `selectDspInfo` and its siblings. -/
def getInfoDB (kind : Kind) (id : Str) : Lua (Option (List (String × Cell))) := do
  match ← q.query (selectInfo kind id) with
  | [row] => return some (← select lib kind row)
  | _ => return none

/-- `getInfoListDB`: `selectDspInfoList` and its siblings. -/
def getInfoListDB (kind : Kind) (idList : List Str) : Lua (List (List (String × Cell))) := do
  (← q.query (selectInfoList kind idList)).mapM (select lib kind)

def updateInfoSD (kind : Kind) (id : Str) (dict : σ) : Update σ :=
  match getInfoDB lib q kind id with
  | .ok (some info) => code (put lib d kind info dict)
  | .ok none => (.ok none, dict)
  | .error e => (.error e, dict)

/-- `updateInfoListSD` after its first line. -/
def updateInfoListSDLoop (kind : Kind) (idList : List Str) (dict : σ) : Update σ :=
  match getInfoListDB lib q kind idList with
  | .ok infoList => code (putAll (put lib d kind) (fun _ => -1) infoList dict)
  | .error e => (.error e, dict)

def updateInfoListSD (kind : Kind) (idList : List Str) (dict : σ) : Update σ :=
  match idList with
  | [id] => updateInfoSD lib d q kind id dict
  | _ => updateInfoListSDLoop lib d q kind idList dict

end source

/-! ### `saxmob/bdm/object.lua` -/

namespace bdm

section source

variable {σ : Type} (lib : Ngx) (d : SharedDict σ) (o : Order)

/-- The kinds of objects. -/
abbrev Kind := ObjectCheck.Kind

/-- `ngx.quote_sql_str` -/
def quote_sql_str (s : Str) : Str :=
  lit "'" ++ s.flatMap (fun c =>
    if c = 0 then lit "\\0" else if c = 8 then lit "\\b" else if c = 10 then lit "\\n"
    else if c = 13 then lit "\\r" else if c = 9 then lit "\\t" else if c = 26 then lit "\\Z"
    else if c = 92 ∨ c = 39 ∨ c = 34 then [92, c] else [c]) ++ lit "'"

def list_concator (list : List Str) (need_quote : Bool) : Str :=
  if need_quote then concat comma (list.map quote_sql_str) else concat comma list

/-- The statement of `get_info_db`. -/
def select_info : Kind → Str → Str
  | .adunit, id => lit ("select id ,status, type, ad_num, excluded_creative_type," ++
      "excluded_product_type, excluded_landing_url ,min_price, ssp_id  from adunit where id=") ++
      quote_sql_str id
  | .dsp, id =>
    lit "select id ,name, status, qps, bid_url, ekey,ikey,timeout from dsp where id=" ++
      quote_sql_str id
  | .ssp, id => lit "select id ,name,status  from ssp where id=" ++ quote_sql_str id

/-- The statement of `get_info_list_db`. -/
def select_info_list : Kind → List Str → Str
  | .adunit, ids => lit ("select id ,status, type, ad_num, excluded_creative_type," ++
      "excluded_product_type, excluded_landing_url ,min_price, ssp_id from adunit  where id in ") ++
      lit "(" ++ list_concator ids true ++ lit ")"
  | .dsp, ids =>
    lit "select id ,name, status, qps, bid_url,ekey, ikey, timeout from dsp  where id in " ++
      lit "(" ++ list_concator ids true ++ lit ")"
  | .ssp, ids => lit "select id ,name, status  from ssp  where id in " ++
      lit "(" ++ list_concator ids true ++ lit ")"

/-- The database; `mysql.query` returns `nil` for a query that fails. -/
structure MySql where
  query : Str → Option (List Row)
  in_literal : ∀ kind id, query (select_info_list kind [id]) = query (select_info kind id)

def shared_dict_pre : Kind → Str
  | .adunit => lit "a"
  | .dsp => lit "d"
  | .ssp => lit "s"

/-- `value.id`, as it is glued to the prefix. -/
def record_id (value : List (String × Val)) : Option Str :=
  match value.lookup "id" with
  | some (.str id) => some id
  | some (.num id) => some (lib.tostring id)
  | _ => none

/-- `object:set_dict` -/
def set_dict (kind : Kind) (value : List (String × Val)) (dict : σ) : Lua ℤ × σ :=
  match lib.encode (.obj value), record_id lib value with
  | .ok text, some id =>
    let r := setEntry d (shared_dict_pre kind ++ id) text dict
    (.ok r.1, r.2)
  | .ok _, none => (.error .badConcat, dict)
  | .error e, _ => (.error e, dict)

/-- `self:set_dict(self:trans_form_info(info))` -/
def put (kind : Kind) (row : Row) (dict : σ) : Lua ℤ × σ :=
  match Schema.trans_form_info o kind (Schema.select kind row) with
  | .ok value => set_dict lib d kind value dict
  | .error e => (.error e, dict)

variable (q : MySql)

def get_info_db (kind : Kind) (id : Str) : Option Row :=
  match q.query (select_info kind id) with
  | some [row] => some row
  | _ => none

def update_info_sd (kind : Kind) (id : Str) (dict : σ) : Update σ :=
  match get_info_db q kind id with
  | some row => code (put lib d o kind row dict)
  | none => (.ok none, dict)

/-- `update_info_list_sd` after its first line; `ipairs(nil)` raises. -/
def update_info_list_sd_loop (kind : Kind) (ids : List Str) (dict : σ) : Update σ :=
  match q.query (select_info_list kind ids) with
  | some info_list => code (putAll (put lib d o kind) (fun status => status) info_list dict)
  | none => (.error .badArgument, dict)

def update_info_list_sd (kind : Kind) (ids : List Str) (dict : σ) : Update σ :=
  match ids with
  | [id] => update_info_sd lib d o q kind id dict
  | _ => update_info_list_sd_loop lib d o q kind ids dict

end source

end bdm

/-! ### What the loop does with one row -/

section agree

variable {σ ρ : Type} {lib : Ngx} {d : SharedDict σ} {dict : σ}

lemma setEntry_code (key value : Str) :
    (setEntry d key value dict).1 = 0 ∨ (setEntry d key value dict).1 = -1 := by
  unfold setEntry
  simp only
  split
  · exact .inr rfl
  · exact .inl rfl

/-- With one row the loop returns what storing the row does. -/
lemma putAll_single {put : ρ → σ → Lua ℤ × σ} {failed : ℤ → ℤ} {info : ρ}
    (h : ∀ res, (put info dict).1 = .ok res → res = 0 ∨ failed res = res) :
    putAll put failed [info] dict = put info dict := by
  rw [putAll]
  rcases hput : put info dict with ⟨e | res, dict'⟩
  · rfl
  · rw [hput] at h
    simp only
    split
    · next hne => rw [(h res rfl).resolve_left hne]
    · next heq => rw [not_not.mp heq, putAll]

lemma put_code {kind : Kind} {info : List (String × Cell)} {res : ℤ}
    (h : (put lib d kind info dict).1 = .ok res) : res = 0 ∨ res = -1 := by
  unfold put setDict at h
  split at h
  · split at h
    · cases h; exact setEntry_code _ _
    · cases h
    · cases h
  · cases h

/-- A number is not `nil`. -/
lemma code_ne_none (r : Lua ℤ × σ) : (code r).1 ≠ .ok none := by
  rcases r with ⟨e | res, dict⟩ <;> intro h <;> cases h

lemma not_agree_of_none {a b : Update σ} (ha : a.1 = .ok none) (hb : b.1 ≠ .ok none) :
    ¬ Agree a b := by
  rintro ⟨hcode, -⟩
  rw [ha] at hcode
  exact hb (toOption_eq_some.mp hcode.symm)

/-! ### Agreement -/

/-- The rows of an answer are fetched and stored as the loop does it. -/
def stored (lib : Ngx) (d : SharedDict σ) (kind : Kind) (answer : Lua (List Row)) (dict : σ) :
    Update σ :=
  match (do (← answer).mapM (select lib kind) : Lua _) with
  | .ok infoList => code (putAll (put lib d kind) (fun _ => -1) infoList dict)
  | .error e => (.error e, dict)

variable {q : MySql} {kind : Kind} {id : Str}

lemma stored_congr {a b : Lua (List Row)} (h : a.toOption = b.toOption) :
    Agree (stored lib d kind a dict) (stored lib d kind b dict) := by
  cases a with
  | error e =>
    cases b with
    | error e' => exact ⟨rfl, rfl⟩
    | ok rows => cases h
  | ok rows =>
    cases b with
    | error e => cases h
    | ok rows' => cases h; exact ⟨rfl, rfl⟩

/-- The answer to the statement for one id is one row, if it is an answer. -/
def OneRow (answer : Lua (List Row)) : Prop := ∀ rows, answer = .ok rows → rows.length = 1

lemma updateInfoSD_eq (h : OneRow (q.query (selectInfo kind id))) :
    updateInfoSD lib d q kind id dict = stored lib d kind (q.query (selectInfo kind id)) dict := by
  unfold updateInfoSD getInfoDB stored
  cases hanswer : q.query (selectInfo kind id) with
  | error e => rfl
  | ok rows =>
    obtain ⟨row, rfl⟩ := List.length_eq_one_iff.mp (h rows hanswer)
    simp only [ok_bind, List.mapM_cons, List.mapM_nil]
    cases select lib kind row with
    | error e => rfl
    | ok info =>
      exact congrArg code (putAll_single fun res hres => (put_code hres).imp_right Eq.symm).symm

lemma updateInfoSD_none (h : ¬ OneRow (q.query (selectInfo kind id))) :
    (updateInfoSD lib d q kind id dict).1 = .ok none := by
  unfold OneRow at h
  push Not at h
  obtain ⟨rows, hanswer, hlength⟩ := h
  unfold updateInfoSD getInfoDB
  rw [hanswer]
  match rows, hlength with
  | [], _ => rfl
  | [_], h => exact absurd rfl h
  | _ :: _ :: _, _ => rfl

lemma stored_ne_none (answer : Lua (List Row)) : (stored lib d kind answer dict).1 ≠ .ok none := by
  unfold stored
  split
  · exact code_ne_none _
  · intro h; cases h

lemma web_agree_iff :
    Agree (updateInfoListSD lib d q kind [id] dict) (updateInfoListSDLoop lib d q kind [id] dict) ↔
      OneRow (q.query (selectInfo kind id)) ∧
        (IsLiteral kind id ∨ Agree (stored lib d kind (q.query (selectInfo kind id)) dict)
          (stored lib d kind (q.query (selectInfoList kind [id])) dict)) := by
  have hloop : updateInfoListSDLoop lib d q kind [id] dict =
      stored lib d kind (q.query (selectInfoList kind [id])) dict := rfl
  have hsingle : updateInfoListSD lib d q kind [id] dict = updateInfoSD lib d q kind id dict := rfl
  rw [hsingle, hloop]
  by_cases hone : OneRow (q.query (selectInfo kind id))
  · rw [updateInfoSD_eq hone]
    refine ⟨fun h => ⟨hone, .inr h⟩, fun h => h.2.elim (fun hlit => ?_) fun h => h⟩
    exact stored_congr (q.in_literal kind id hlit).symm
  · exact iff_of_false (not_agree_of_none (updateInfoSD_none hone) (stored_ne_none _))
      fun h => hone h.1

lemma bdm_agree_iff {o : Order} {q : bdm.MySql} {kind : bdm.Kind} :
    Agree (bdm.update_info_list_sd lib d o q kind [id] dict)
        (bdm.update_info_list_sd_loop lib d o q kind [id] dict) ↔
      ∃ row, q.query (bdm.select_info kind id) = some [row] := by
  have hsingle : bdm.update_info_list_sd lib d o q kind [id] dict =
      bdm.update_info_sd lib d o q kind id dict := rfl
  rw [hsingle]
  unfold bdm.update_info_sd bdm.get_info_db bdm.update_info_list_sd_loop
  rw [q.in_literal]
  cases q.query (bdm.select_info kind id) with
  | none =>
    refine iff_of_false ?_ (by simp)
    rintro ⟨hcode, -⟩
    cases hcode
  | some rows =>
    match rows with
    | [row] =>
      refine iff_of_true ?_ ⟨row, rfl⟩
      simp only
      rw [putAll_single fun _ _ => .inr rfl]
      exact ⟨rfl, rfl⟩
    | [] => exact iff_of_false (not_agree_of_none rfl (code_ne_none _)) (by simp)
    | _ :: _ :: _ => exact iff_of_false (not_agree_of_none rfl (code_ne_none _)) (by simp)

end agree

/-- **The fast path agrees with the loop** where one row has the id; of a query that fails `saxmob`
makes a `nil` and an error. -/
theorem fast_path_agrees_iff {σ : Type} (lib : Ngx) (d : SharedDict σ) (dict : σ) (id : Str) :
    (∀ (q : MySql) kind,
      Agree (updateInfoListSD lib d q kind [id] dict)
          (updateInfoListSDLoop lib d q kind [id] dict) ↔
        OneRow (q.query (selectInfo kind id)) ∧
          (IsLiteral kind id ∨ Agree (stored lib d kind (q.query (selectInfo kind id)) dict)
            (stored lib d kind (q.query (selectInfoList kind [id])) dict))) ∧
    ∀ o (q : bdm.MySql) kind,
      Agree (bdm.update_info_list_sd lib d o q kind [id] dict)
          (bdm.update_info_list_sd_loop lib d o q kind [id] dict) ↔
        ∃ row, q.query (bdm.select_info kind id) = some [row] :=
  ⟨fun _ _ => web_agree_iff, fun _ _ _ => bdm_agree_iff⟩

/-- A dictionary that takes every entry. -/
def roomy : SharedDict (Tbl Str) := ⟨fun key value dict => ((true, false), dict.insert key value)⟩

/-- A database without rows. -/
def noRows : MySql := ⟨fun _ => .ok [], fun _ _ _ => rfl⟩

/-- The id of a DSP that has no row. -/
theorem missing_row_differs :
    ¬ Agree (updateInfoListSD (.ofTexts []) roomy noRows .dsp [lit "5"] ∅)
      (updateInfoListSDLoop (.ofTexts []) roomy noRows .dsp [lit "5"] ∅) := by
  rintro ⟨hcode, -⟩
  cases hcode

end Sax.FastPath
