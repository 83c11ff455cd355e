import Sax.Keyspace
import Sax.QueryText
import Sax.StoreSync

/-!
Keeping the dictionary of an application exchange in step with its database:
`saxmob/bdm/master.lua`, `saxmob/bdm/worker.lua` and what they use of `saxmob/bdm/object.lua`.

The master validates every request against the attributes, deletions too, and carries its
statements out one by one; it notifies the workers of the ids only when all of them went through. A
worker reads the rows of an update back by their ids, and the ids of all DSPs after any request
about DSPs. So what a worker holds of an object is as old as the last request about it that went
through. The dictionary has room: no entry is refused, and none has to go for another.
-/

namespace Sax.SaxmobSync

open Sax.LuaVal Sax.Loop Sax.Runtime Sax.ObjectCheck Sax.FastPath
open Sax.Center (Content Parsed Point Literal Statement Answer literal runSteps statement)
open Sax.Keyspace (DSP_ALL_SD)
open Sax.ObjectInfo (Cell Row lower)
open Sax.QueryText (parse_select_info parse_select_info_list)
open Sax.FastPath.bdm (shared_dict_pre record_id select_info select_info_list update_info_list_sd)

/-- The rows of each table. -/
abbrev Db := Kind → List Row

/-- The database server: how it compares, changes and inserts rows, and how it reads a number. -/
structure Server where
  sql : ObjectInfo.MySql
  number : Str → Option ℚ

/-- What a query that fails returns as its error. -/
def badResult : Str := lit "bad result"

section server

variable (server : Server)

/-- A name stands for a column, and there is none. -/
def Server.cell : Literal → Option Cell
  | .number text => (server.number text).map .num
  | .name _ | .negated _ => none
  | .quoted s => some (.str s)

def Server.cells (l : List (Str × Literal)) : Option (List (Str × Cell)) :=
  l.mapM fun e => (server.cell e.2).map fun c => (e.1, c)

def Server.count (kind : Kind) (id : Literal) (db : Db) : Except Str Bool :=
  match server.cell id with
  | some c => .ok ((db kind).any fun row => server.sql.eq c (row.col "id"))
  | none => .error badResult

/-- The rows of the table after a statement. -/
def Server.rows (st : Statement) (rows : List Row) : Option (List Row) :=
  match st with
  | .update id setBlock => do
    let id ← server.cell id
    let attrs ← server.cells setBlock
    (StoreSync.updateInfo server.sql rows ⟨id, attrs⟩).toOption
  | .insert columns => do
    let id ← server.cell (← columns.lookup (lit "id"))
    let attrs ← server.cells (columns.filter fun e => e.1 ≠ lit "id")
    (StoreSync.insertInfo server.sql rows ⟨id, attrs⟩).toOption
  | .delete id => do
    let c ← server.cell id
    return rows.filter fun row => !server.sql.eq c (row.col "id")

def Server.exec (kind : Kind) (st : Statement) (db : Db) : Except Str Db :=
  match server.rows st (db kind) with
  | some rows => .ok (Function.update db kind rows)
  | none => .error badResult

/-- The rows a select asks for. -/
def Server.select (db : Db) (text : Str) : Option (List Row) := do
  let sel ← SqlText.parse text
  let kind ← object_table sel.table
  if sel.column = lit "id" then
    return (db kind).filter fun row => sel.values.any fun v => server.sql.eq (.str v) (row.col "id")
  else none

lemma object_table_objectName (kind : Kind) :
    object_table (lit (Schema.objectName kind)) = some kind := by
  cases kind <;> decide +kernel

variable {server : Server} {db : Db} {kind : Kind}

lemma select_one (id : Str) : server.select db (select_info kind id) =
    some ((db kind).filter fun row => server.sql.eq (.str id) (row.col "id")) := by
  simp [Server.select, parse_select_info, object_table_objectName]

lemma select_list (x : Str) (l : List Str) :
    server.select db (select_info_list kind (x :: l)) = some ((db kind).filter fun row =>
      (x :: l).any fun v => server.sql.eq (.str v) (row.col "id")) := by
  simp [Server.select, parse_select_info_list, object_table_objectName]

end server

/-! ### `saxmob/bdm/master.lua` -/

section master

variable (lib : Ngx) (o : Order) (server : Server) (fails : Point → Option Str)

def toContent : Val → Content
  | .table _ fields => .object ((∅ : Tbl Val).putAll fields)
  | .str _ => .noField
  | _ => .other

/-- A request of the management: the name of the object, the list `content` and the operation. -/
structure Request where
  name : Str
  content : List Content
  is_delete : Bool

/-- `get_update_info` on the argument `info` of the body. -/
def get_update_info (info : Option Str) : Lua (Except Str Request) := do
  match info with
  | none | some [] => return .error (lit "no info in request body")
  | some msg =>
    match lib.cjson_decode msg with
    | .error _ => return .error (lit "the request info is not json")
    | .ok info =>
      match ← field "name" (some info) with
      | some (.str name) =>
        match ← field "content" (some info) with
        | some (.table content _) =>
          let operate ← field "operate" (some info)
          if operate = some (.str (lit "delete")) then
            return .ok ⟨name, content.map toContent, true⟩
          else if operate = some (.str (lit "update")) then
            return .ok ⟨name, content.map toContent, false⟩
          else return .error (lit "operate is not delete or update;")
        | _ => return .error (lit "bad type of content ;")
      | _ => return .error (lit "bad type of  object name ;")

/-- `check_is_exist`; where the id is no literal the caller raises as well. -/
def check_is_exist (kind : Kind) (i : ℕ) (db : Db) (id : Val) : Except Str Bool :=
  match literal lib id with
  | .ok id => Center.query fails (.checkExist i) (server.count kind id db)
  | .error _ => .error badResult

/-- One round of `content_parse`. It is called without `is_delete`. -/
def content_parse_step (kind : Kind) (db : Db) (content : Content) (i : ℕ) :
    Lua (Except Str Parsed) := do
  match content with
  | .other => throw .badIndex
  | .noField => return .error (lit "id of object missing")
  | .object attrs =>
    match ← content_check o lib (check_is_exist lib server fails kind i db) kind.objectName false
        attrs with
    | .error err => return .error err
    | .ok is_exist => return .ok ⟨attrs, (attrs.get (lit "id")).getD .null, is_exist⟩

def content_parse_loop (kind : Kind) (db : Db) : List Content → ℕ → Lua (Except Str (List Parsed))
  | [], _ => .ok (.ok [])
  | content :: content_list, i => do
    match ← content_parse_step lib o server fails kind db content i with
    | .error err => return .error err
    | .ok parsed =>
      match ← content_parse_loop kind db content_list (i + 1) with
      | .error err => return .error err
      | .ok rest => return .ok (parsed :: rest)

def content_parse (object_name : Str) (content_list : List Content) (db : Db) :
    Lua (Except Str (Kind × List Parsed)) := do
  match object_table object_name with
  | none => return .error (object_name ++ lit "is not a object")
  | some kind =>
    match ← content_parse_loop lib o server fails kind db content_list 0 with
    | .error err => return .error err
    | .ok contents => return .ok (kind, contents)

/-- A round of `update_info_db`: the database it leaves and the id to notify, or the error. -/
def update_info_step (kind : Kind) (content : Parsed) (i : ℕ) (db : Db) :
    Lua (Except Str (Db × Option Str)) := do
  match Center.query fails (.write i) (server.exec kind (← statement lib o content) db) with
  | .error err =>
    let str ← lib.encode (.table [] (content.attrs.entries.map fun e => (e.1, e.2)))
    return .error ((if content.isExist then lit "Error happend when  update values : "
      else lit "Error happend when insert values : ") ++ kind.objectName ++ lit ":" ++ str ++
        lit " Detail : " ++ err)
  | .ok db => return .ok (db, some (← checkString lib.tostring content.id))

/-- A round of `delete_info_db`. -/
def delete_info_step (kind : Kind) (content : Parsed) (i : ℕ) (db : Db) :
    Lua (Except Str (Db × Option Str)) := do
  match Center.query fails (.write i)
      (server.exec kind (.delete (← literal lib content.id)) db) with
  | .error err =>
    return .error (lit "Error happened when delete tuple of" ++ kind.objectName ++ lit "(id = " ++
      (← checkString lib.tostring content.id) ++ lit ")" ++ lit ". Details: " ++ err)
  | .ok db => return .ok (db, some (← checkString lib.tostring content.id))

/-- `master.update_object_info`: the answer with the ids to notify, and the database it leaves. -/
def master.update_object_info (req : Request) (db : Db) : Lua Answer × Db :=
  match content_parse lib o server fails req.name req.content db with
  | .error e => (.error e, db)
  | .ok (.error err) => (.ok (.fail err), db)
  | .ok (.ok (kind, contents)) =>
    let r := runSteps (if req.is_delete then delete_info_step lib server fails kind
      else update_info_step lib o server fails kind) contents 0 db
    (r.1.map Answer.ofExcept, r.2)

end master

/-! ### `saxmob/bdm/worker.lua` -/

section worker

variable (lib : Ngx) (o : Order) (server : Server)

/-- The connection to the database: one that is down fails every query. -/
def connection (db : Db) (up : Bool) : bdm.MySql where
  query text := if up then server.select db text else none
  in_literal kind id := by
    simp only [select_one, select_list, List.any_cons, List.any_nil, Bool.or_false]

/-- `set_dsplist_sd` with `get_all_dsp_db`: whether it came to its end. Without an answer the list
is removed. -/
def set_dsplist_sd (rows : Option (List Row)) (dict : Tbl Str) : Bool × Tbl Str :=
  match rows with
  | none => (true, dict.erase DSP_ALL_SD)
  | some [row] =>
    match (row.col "id").text lib with
    | .ok id => (true, dict.insert DSP_ALL_SD id)
    | .error _ => (true, dict)
  | some rows =>
    match rows.mapM fun row => (row.col "id").text lib with
    | .ok ids => (true, dict.insert DSP_ALL_SD (concat comma ids))
    | .error _ => (false, dict)

/-- `object:delete_info_list_sd` -/
def delete_info_list_sd (kind : Kind) (ids : List Str) (dict : Tbl Str) : Tbl Str :=
  dict.eraseAll (ids.map (shared_dict_pre kind ++ ·))

/-- The answers a worker gets from the database while it handles a notification. -/
structure Answers where
  rows : Bool
  list : Bool

/-- `worker.update_object_info` on the argument `id` of the body: whether it answers 200, and the
dictionary it leaves. -/
def worker.update_object_info (kind : Kind) (is_delete : Bool) (idstr : Str) (db : Db)
    (answers : Answers) (dict : Tbl Str) : Bool × Tbl Str :=
  let ids := split comma idstr
  let r : Bool × Tbl Str :=
    if is_delete then (true, delete_info_list_sd kind ids dict)
    else match update_info_list_sd lib roomy o (connection server db answers.rows) kind ids
        dict with
      | (.ok (some res), dict) => (res = 0, dict)
      | (_, dict) => (false, dict)
  if r.1 && kind = .dsp then
    set_dsplist_sd lib (if answers.list then some (db .dsp) else none) r.2
  else r

/-- `object:update_info_all_sd` for the objects in turn. -/
def update_all (db : Db) : List Kind → Tbl Str → Bool × Tbl Str
  | [], dict => (true, dict)
  | kind :: kinds, dict =>
    match putAll (bdm.put lib roomy o kind) (fun _ => -1) (db kind) dict with
    | (.ok res, dict) => if res = 0 then update_all db kinds dict else (false, dict)
    | (.error _, dict) => (false, dict)

/-- `init_object_info`: whether the worker comes up, and the dictionary it leaves. -/
def init_object_info (db : Db) (answers : Answers) : Bool × Tbl Str :=
  if answers.rows then
    let r := update_all lib o db (o.visit [.dsp, .adunit, .ssp]) ∅
    if r.1 then set_dsplist_sd lib (if answers.list then some (db .dsp) else none) r.2 else r
  else (false, ∅)

end worker

/-! ### One worker and the database -/

structure State where
  db : Db
  dict : Tbl Str

/-- A request with the argument `info` of its body, and whether its notification arrives; or the
worker is started again. -/
inductive Step
  | request (info : Option Str) (fails : Point → Option Str) (delivered : Option Answers)
  | restart (answers : Answers)

section steps

variable (lib : Ngx) (o : Order) (server : Server)

/-- A request: whether it went through, and what it leaves. -/
def update_object_info (s : State) (req : Request) (fails : Point → Option Str)
    (delivered : Option Answers) : Bool × State :=
  let r := master.update_object_info lib o server fails req s.db
  match r.1, delivered, object_table req.name with
  | .ok (.ok ids), some answers, some kind =>
    let w := worker.update_object_info lib o server kind req.is_delete
      (lib.form_value (concat comma ids)) r.2 answers s.dict
    (w.1, ⟨r.2, w.2⟩)
  | _, _, _ => (false, ⟨r.2, s.dict⟩)

/-- The request the body holds. -/
def requestOf (info : Option Str) : Option Request :=
  match get_update_info lib info with
  | .ok (.ok req) => some req
  | _ => none

/-- A step: whether it went through, and what it leaves. -/
def step (s : State) : Step → Bool × State
  | .request info fails delivered =>
    match requestOf lib info with
    | some req => update_object_info lib o server s req fails delivered
    | none => (false, s)
  | .restart answers =>
    let r := init_object_info lib o s.db answers
    (r.1, ⟨s.db, r.2⟩)

def run (s : State) (steps : List Step) : State :=
  steps.foldl (fun s st => (step lib o server s st).2) s

end steps

/-! ### What should hold -/

/-- The id of a content, where it is a string. -/
def idOf : Content → Option Str
  | .object attrs =>
    match attrs.get (lit "id") with
    | some (.str id) => some id
    | _ => none
  | _ => none

def Request.ids (req : Request) : List Str := req.content.filterMap idOf

/-- The ids a worker makes of a notification; of an empty one it makes the empty id. -/
def Request.told (req : Request) : List Str := split comma (concat comma req.ids)

def rowOf (kind : Kind) (id : Str) (db : Db) : Option Row :=
  (db kind).find? fun row => row.col "id" = .str id

section spec

variable (lib : Ngx) (o : Order) (server : Server) (U : Kind → Set Str)

/-- The text a row is stored as. -/
def image (kind : Kind) (row : Row) : Option Str :=
  (Schema.trans_form_info o kind (Schema.select kind row)).toOption.bind fun value =>
    (lib.encode (.obj value)).toOption

/-- The entry of an object in a dictionary is its row, and is absent if and only if there is
none. -/
structure Holds (db : Db) (kind : Kind) (id : Str) (dict : Tbl Str) : Prop where
  entry : dict.get (shared_dict_pre kind ++ id) = (rowOf kind id db).bind (image lib o kind)
  absent : dict.get (shared_dict_pre kind ++ id) = none ↔ rowOf kind id db = none

/-- **The entry of an object is its row.** -/
def Fresh (kind : Kind) (id : Str) (s : State) : Prop := Holds lib o s.db kind id s.dict

/-- The ids of all DSPs, as the database lists them. -/
def Listed (s : State) : Prop :=
  ∃ ids, ((s.db .dsp).mapM fun row => (row.col "id").text lib) = .ok ids ∧
    s.dict.get DSP_ALL_SD = some (concat comma ids)

/-- The ids in use: the server tells them apart and stores them as they are, they survive the way to
a worker, and none spells out the key of the list. -/
structure InUse : Prop where
  empty : ∀ kind, [] ∈ U kind
  exact : ∀ kind, ∀ a ∈ U kind, ∀ b ∈ U kind, server.sql.eq (.str a) (.str b) → a = b
  held : ∀ kind, ∀ a ∈ U kind, ∀ attrs row, server.sql.insert (.str a) attrs = .ok row →
    row.col "id" = .str a
  clean : ∀ kind, ∀ a ∈ U kind, ∀ c ∈ a, c ∉ lit ",&%+"
  free : lit "spall" ∉ U .dsp

/-- The rows have ids in use, no two of them one. -/
def Sane (kind : Kind) (rows : List Row) : Prop :=
  (∀ row ∈ rows, ∃ a ∈ U kind, row.col "id" = .str a) ∧ (rows.map fun row => row.col "id").Nodup

end spec

section steps

variable (lib : Ngx)

/-- The step is a request, of which that holds. -/
def Step.Asks (P : Request → Prop) : Step → Prop
  | .request info _ _ => ∃ req, requestOf lib info = some req ∧ P req
  | .restart _ => False

/-- The requests name ids in use. -/
def Step.Named (U : Kind → Set Str) (st : Step) : Prop :=
  ∀ kind id, st.Asks lib (fun req => object_table req.name = some kind ∧ id ∈ req.ids) → id ∈ U kind

/-- The step is about the object. -/
def Step.Concerns (kind : Kind) (id : Str) (st : Step) : Prop :=
  st.Asks lib (fun req => object_table req.name = some kind ∧ id ∈ req.told) ∨
    ∃ answers, st = .restart answers

/-- The step names the object, or loads all of them. -/
def Step.Names (kind : Kind) (id : Str) (st : Step) : Prop :=
  st.Asks lib (fun req => object_table req.name = some kind ∧ id ∈ req.ids) ∨
    ∃ answers, st = .restart answers

/-- The step is about DSPs. -/
def Step.AboutDsps (st : Step) : Prop :=
  st.Asks lib (fun req => object_table req.name = some .dsp) ∨ ∃ answers, st = .restart answers

/-- The worker gets the ids of all DSPs, should it ask for them. -/
def Step.Lists : Step → Prop
  | .request _ _ delivered => ∃ answers, delivered = some answers ∧ answers.list = true
  | .restart answers => answers.list = true

end steps

/-! ### Storing rows -/

section put

variable {lib : Ngx} {o : Order} {kind : Kind} {row : Row} {rows : List Row} {dict : Tbl Str}
  {a : Str}

variable (lib) in
lemma record_id_eq (hid : row.col "id" = .str a) {value : List (String × Val)}
    (h : Schema.trans_form_info o kind (Schema.select kind row) = .ok value) :
    record_id lib value = some a := by
  have hattr : ∃ attr, ("id", attr) ∈ Schema.attr_mem kind := by
    cases kind <;> exact ⟨_, List.mem_cons_self⟩
  obtain ⟨attr, hattr⟩ := hattr
  obtain ⟨x, hx, hlookup⟩ := Schema.record_lookup h hattr
  have hx : x = .str a := by
    rw [hid, Schema.kept, if_neg nofun, Option.some.injEq] at hx
    exact hx.symm
  rw [record_id, hlookup, hx]

/-- A row is stored as its image under its id. -/
lemma put_some (hid : row.col "id" = .str a) {text : Str} (h : image lib o kind row = some text) :
    bdm.put lib roomy o kind row dict = (.ok 0, dict.insert (shared_dict_pre kind ++ a) text) := by
  unfold image at h
  obtain ⟨value, hvalue, h⟩ := Option.bind_eq_some_iff.mp h
  have hvalue := toOption_eq_some.mp hvalue
  have htext := toOption_eq_some.mp h
  unfold bdm.put bdm.set_dict
  simp only [hvalue, htext, record_id_eq lib hid hvalue]
  rfl

/-- Storing a row without an image raises. -/
lemma put_none (h : image lib o kind row = none) :
    ∃ e, bdm.put lib roomy o kind row dict = (.error e, dict) := by
  unfold bdm.put
  cases hvalue : Schema.trans_form_info o kind (Schema.select kind row) with
  | error e => exact ⟨e, rfl⟩
  | ok value =>
    have htext : (lib.encode (.obj value)).toOption = none := by
      simpa [image, hvalue, Except.toOption] using h
    cases hencode : lib.encode (.obj value) with
    | ok text =>
      rw [hencode] at htext
      cases htext
    | error e => exact ⟨e, by simp only [bdm.set_dict, hencode]⟩

/-- Storing rows touches the entries under their ids alone. -/
lemma putAll_kept (hids : ∀ row ∈ rows, ∃ a, row.col "id" = .str a) (failed : ℤ → ℤ) {key : Str}
    (hkey : ∀ row ∈ rows, ∀ a, row.col "id" = .str a → key ≠ shared_dict_pre kind ++ a) :
    (putAll (bdm.put lib roomy o kind) failed rows dict).2.get key = dict.get key := by
  induction rows generalizing dict with
  | nil => rfl
  | cons row rows ih =>
    obtain ⟨⟨a, ha⟩, hrest⟩ := List.forall_mem_cons.mp hids
    obtain ⟨hne, hkey⟩ := List.forall_mem_cons.mp hkey
    rw [putAll]
    cases himage : image lib o kind row with
    | none =>
      obtain ⟨e, hput⟩ : ∃ e, bdm.put lib roomy o kind row dict = (.error e, dict) :=
        put_none himage
      rw [hput]
    | some text =>
      rw [put_some ha himage]
      dsimp only
      rw [if_neg (not_not.mpr rfl), ih hrest hkey]
      exact AList.lookup_insert_ne (hne a ha)

/-- When all rows have been stored, each has an image, and its entry is that. -/
lemma putAll_fresh (hids : ∀ row ∈ rows, ∃ a, row.col "id" = .str a)
    (hnodup : (rows.map fun row => row.col "id").Nodup) {failed : ℤ → ℤ} {res : ℤ}
    (h : (putAll (bdm.put lib roomy o kind) failed rows dict).1 = .ok res) (hrow : row ∈ rows)
    (ha : row.col "id" = .str a) :
    ∃ text, image lib o kind row = some text ∧
      (putAll (bdm.put lib roomy o kind) failed rows dict).2.get (shared_dict_pre kind ++ a) =
        some text := by
  induction rows generalizing dict with
  | nil => cases hrow
  | cons r rows ih =>
    obtain ⟨⟨b, hb⟩, hrest⟩ := List.forall_mem_cons.mp hids
    obtain ⟨hnot, hnodup⟩ := List.nodup_cons.mp hnodup
    rw [putAll] at h ⊢
    cases himage : image lib o kind r with
    | none =>
      obtain ⟨e, hput⟩ : ∃ e, bdm.put lib roomy o kind r dict = (.error e, dict) :=
        put_none himage
      rw [hput] at h
      cases h
    | some text =>
      rw [put_some hb himage] at h ⊢
      dsimp only at h ⊢
      rw [if_neg (not_not.mpr rfl)] at h ⊢
      rcases List.mem_cons.mp hrow with heq | hrow
      · -- the rows behind have other ids
        subst heq
        obtain rfl : a = b := Cell.str.inj (ha.symm.trans hb)
        refine ⟨text, himage, ?_⟩
        rw [putAll_kept hrest failed]
        · exact AList.lookup_insert dict
        · intro r' hr' b' hb' heq
          have hsame : b' = a := (List.append_cancel_left heq).symm
          exact hnot (List.mem_map.mpr ⟨r', hr', by rw [hb', hsame]; exact ha.symm⟩)
      · exact ih hrest hnodup h hrow

end put

/-! ### The rows of a table -/

section rows

variable {U : Kind → Set Str} {server : Server} {kind : Kind} {rows rows' : List Row} {row : Row}
  {a b : Str} {db : Db}

/-- The table has a row with the id. -/
def Has (rows : List Row) (id : Str) : Prop := ∃ row ∈ rows, row.col "id" = .str id

/-- The rows with the id are the same. -/
def SameRow (id : Str) (rows rows' : List Row) : Prop :=
  ∀ row, row.col "id" = .str id → (row ∈ rows' ↔ row ∈ rows)

lemma rowOf_eq_some (hsane : Sane U kind (db kind)) :
    rowOf kind a db = some row ↔ row ∈ db kind ∧ row.col "id" = .str a := by
  constructor
  · intro h
    exact ⟨List.mem_of_find?_eq_some h, by simpa using List.find?_some h⟩
  · rintro ⟨hrow, hid⟩
    cases hfind : rowOf kind a db with
    | none => exact absurd hid (by simpa using List.find?_eq_none.mp hfind row hrow)
    | some r =>
      have hr : r ∈ db kind ∧ r.col "id" = .str a :=
        ⟨List.mem_of_find?_eq_some hfind, by simpa using List.find?_some hfind⟩
      rw [List.inj_on_of_nodup_map hsane.2 hr.1 hrow (hr.2.trans hid.symm)]

lemma rowOf_eq_none : rowOf kind a db = none ↔ ¬ Has (db kind) a := by
  simp [rowOf, Has]

lemma holds_of_row {lib : Ngx} {o : Order} {dict : Tbl Str} (hrow : rowOf kind a db = some row)
    (h : ∃ text, image lib o kind row = some text ∧
      dict.get (shared_dict_pre kind ++ a) = some text) : Holds lib o db kind a dict := by
  obtain ⟨text, himage, hget⟩ := h
  exact ⟨by rw [hget, hrow, Option.bind_some, himage], by simp [hget, hrow]⟩

lemma holds_of_none {lib : Ngx} {o : Order} {dict : Tbl Str} (hrow : rowOf kind a db = none)
    (hget : dict.get (shared_dict_pre kind ++ a) = none) : Holds lib o db kind a dict :=
  ⟨by rw [hget, hrow, Option.bind_none], by simp [hget, hrow]⟩

lemma Holds.congr {lib : Ngx} {o : Order} {db' : Db} {dict dict' : Tbl Str}
    (h : Holds lib o db kind a dict) (hrow : rowOf kind a db' = rowOf kind a db)
    (hget : dict'.get (shared_dict_pre kind ++ a) = dict.get (shared_dict_pre kind ++ a)) :
    Holds lib o db' kind a dict' :=
  ⟨by rw [hget, hrow, h.entry], by rw [hget, hrow, h.absent]⟩

lemma rowOf_congr {db' : Db} (hsane : Sane U kind (db kind)) (hsane' : Sane U kind (db' kind))
    (h : SameRow a (db kind) (db' kind)) : rowOf kind a db' = rowOf kind a db := by
  ext row
  rw [rowOf_eq_some hsane, rowOf_eq_some hsane']
  constructor
  · rintro ⟨hrow, hid⟩
    exact ⟨(h row hid).mp hrow, hid⟩
  · rintro ⟨hrow, hid⟩
    exact ⟨(h row hid).mpr hrow, hid⟩

/-- The server finds the row with the id. -/
lemma eq_iff (huse : InUse server U) (hsane : Sane U kind rows) (ha : a ∈ U kind)
    (hrow : row ∈ rows) :
    server.sql.eq (.str a) (row.col "id") = true ↔ row.col "id" = .str a := by
  obtain ⟨b, hb, hid⟩ := hsane.1 row hrow
  rw [hid]
  constructor
  · intro h
    rw [huse.exact kind a ha b hb h]
  · intro h
    rw [h]
    exact server.sql.eq_refl _ nofun

/-- A statement about the row with the id, that leaves it its id. -/
def About (a : Str) : Statement → Prop
  | .update id setBlock => id = .quoted a ∧ ∀ e ∈ setBlock, lower e.1 ≠ lit "id"
  | .insert columns => columns.lookup (lit "id") = some (.quoted a)
  | .delete id => id = .quoted a

/-- What a statement about an id does to the table. -/
structure Written (U : Kind → Set Str) (kind : Kind) (a : Str) (rows rows' : List Row) : Prop where
  sane : Sane U kind rows'
  same : ∀ b ∈ U kind, b ≠ a → SameRow b rows rows'

lemma cells_keys {l : List (Str × Literal)} {attrs : List (Str × Cell)}
    (h : server.cells l = some attrs) : ∀ e ∈ attrs, ∃ e' ∈ l, e'.1 = e.1 := by
  intro e he
  obtain ⟨e', he', hcell⟩ := (mem_mapM_some h).mp he
  obtain ⟨c, -, rfl⟩ := Option.map_eq_some_iff.mp hcell
  exact ⟨e', he', rfl⟩

lemma update_written (huse : InUse server U) (hsane : Sane U kind rows) (ha : a ∈ U kind)
    {attrs : List (Str × Cell)} (hattrs : ∀ e ∈ attrs, lower e.1 ≠ lit "id")
    (h : StoreSync.updateInfo server.sql rows ⟨.str a, attrs⟩ = .ok rows') :
    Written U kind a rows rows' ∧ ∀ b, Has rows b → Has rows' b := by
  obtain ⟨hids, hrows⟩ := StoreSync.updateInfo_ok hattrs h
  unfold StoreSync.updateInfo at h
  split at h
  · cases h
  have hhas : ∀ b, Has rows b → Has rows' b := by
    rintro b ⟨row, hrow, hid⟩
    have hmem : Cell.str b ∈ rows'.map fun row => row.col "id" := by
      rw [hids]
      exact List.mem_map.mpr ⟨row, hrow, hid⟩
    exact List.mem_map.mp hmem
  refine ⟨⟨⟨fun row' hrow' => ?_, hids ▸ hsane.2⟩,
    fun b hb hne row hid => ⟨fun hrow' => ?_, fun hrow => ?_⟩⟩, hhas⟩
  · rcases hrows row' hrow' with hrow | ⟨row, hrow, -, hid⟩
    · exact hsane.1 row' hrow
    · rw [hid]
      exact hsane.1 row hrow
  · rcases hrows row hrow' with hrow | ⟨r, hr, heq, hid'⟩
    · exact hrow
    · rw [eq_iff huse hsane ha hr, ← hid', hid] at heq
      exact absurd (Cell.str.inj heq) hne
  · obtain ⟨row', hrow', hstep⟩ := mem_mapM h hrow
    have hother : ¬ server.sql.eq (.str a) (row.col "id") = true := by
      rw [eq_iff huse hsane ha hrow, hid]
      exact fun heq => hne (Cell.str.inj heq)
    rw [if_neg hother] at hstep
    cases hstep
    exact hrow'

lemma insert_written (huse : InUse server U) (hsane : Sane U kind rows) (ha : a ∈ U kind)
    {attrs : List (Str × Cell)}
    (h : StoreSync.insertInfo server.sql rows ⟨.str a, attrs⟩ = .ok rows') :
    Written U kind a rows rows' ∧ (∀ b, Has rows b → Has rows' b) ∧ Has rows' a := by
  obtain ⟨row, hinsert, rfl, hdup⟩ := StoreSync.insertInfo_ok h
  have hid := huse.held kind a ha attrs row hinsert
  refine ⟨⟨⟨fun r hr => ?_, ?_⟩, fun b _ hne r hr => ?_⟩, ?_, row, by simp, hid⟩
  · rcases List.mem_append.mp hr with hr | hr
    · exact hsane.1 r hr
    · rw [List.mem_singleton.mp hr]
      exact ⟨a, ha, hid⟩
  · rw [List.map_append, List.nodup_append]
    refine ⟨hsane.2, by simp, ?_⟩
    rintro c hc _ hd rfl
    obtain ⟨r, hr, rfl⟩ := List.mem_map.mp hc
    have heq : r.col "id" = row.col "id" := by simpa using hd
    refine hdup r hr ?_
    rw [heq]
    exact server.sql.eq_refl _ (by rw [hid]; nofun)
  · have hother : r ≠ row := by
      rintro rfl
      rw [hid] at hr
      exact hne (Cell.str.inj hr).symm
    simp [hother]
  · rintro b ⟨r, hr, hrid⟩
    exact ⟨r, List.mem_append_left _ hr, hrid⟩

lemma delete_written (huse : InUse server U) (hsane : Sane U kind rows) (ha : a ∈ U kind) :
    Written U kind a rows (rows.filter fun row => !server.sql.eq (.str a) (row.col "id")) ∧
      (∀ b, ¬ Has rows b →
        ¬ Has (rows.filter fun row => !server.sql.eq (.str a) (row.col "id")) b) ∧
        ¬ Has (rows.filter fun row => !server.sql.eq (.str a) (row.col "id")) a := by
  have hmem : ∀ row, row ∈ rows.filter (fun row => !server.sql.eq (.str a) (row.col "id")) ↔
      row ∈ rows ∧ row.col "id" ≠ .str a := by
    intro row
    rw [List.mem_filter]
    refine and_congr_right fun hrow => ?_
    rw [Bool.not_eq_true', ← Bool.not_eq_true, eq_iff huse hsane ha hrow]
  refine ⟨⟨⟨fun row hrow => hsane.1 row ((hmem row).mp hrow).1, ?_⟩, fun b _ hne row hid => ?_⟩,
    ?_, ?_⟩
  · exact hsane.2.sublist (List.filter_sublist.map _)
  · rw [hmem, hid]
    simp [hne]
  · rintro b hnone ⟨row, hrow, hid⟩
    exact hnone ⟨row, ((hmem row).mp hrow).1, hid⟩
  · rintro ⟨row, hrow, hid⟩
    exact ((hmem row).mp hrow).2 hid

/-- The row with the id is there, or is gone when it is deleted. -/
def Tells (is_delete : Bool) (rows : List Row) (id : Str) : Prop :=
  if is_delete then ¬ Has rows id else Has rows id

/-- Which rows a statement about an id leaves. -/
def Leaves (a : Str) (rows rows' : List Row) : Statement → Prop
  | .update _ _ => ∀ b, Tells false rows b → Tells false rows' b
  | .insert _ => (∀ b, Tells false rows b → Tells false rows' b) ∧ Tells false rows' a
  | .delete _ => (∀ b, Tells true rows b → Tells true rows' b) ∧ Tells true rows' a

/-- **A statement changes the row it is about**, and no other. -/
lemma rows_written (huse : InUse server U) (hsane : Sane U kind rows) (ha : a ∈ U kind)
    {st : Statement} (habout : About a st) (h : server.rows st rows = some rows') :
    Written U kind a rows rows' ∧ Leaves a rows rows' st := by
  cases st with
  | update id setBlock =>
    obtain ⟨rfl, hkeys⟩ := habout
    have h : ((server.cells setBlock).bind fun attrs =>
        (StoreSync.updateInfo server.sql rows ⟨.str a, attrs⟩).toOption) = some rows' := h
    obtain ⟨attrs, hattrs, h⟩ := Option.bind_eq_some_iff.mp h
    refine update_written huse hsane ha (fun e he => ?_) (toOption_eq_some.mp h)
    obtain ⟨e', he', hkey⟩ := cells_keys hattrs e he
    exact hkey ▸ hkeys e' he'
  | insert columns =>
    obtain ⟨l, hl, h⟩ := Option.bind_eq_some_iff.mp h
    rw [show columns.lookup (lit "id") = some (.quoted a) from habout, Option.some.injEq] at hl
    subst hl
    have h : ((server.cells (columns.filter fun e => e.1 ≠ lit "id")).bind fun attrs =>
        (StoreSync.insertInfo server.sql rows ⟨.str a, attrs⟩).toOption) = some rows' := h
    obtain ⟨attrs, -, h⟩ := Option.bind_eq_some_iff.mp h
    exact insert_written huse hsane ha (toOption_eq_some.mp h)
  | delete id =>
    obtain rfl : id = .quoted a := habout
    cases h
    exact delete_written huse hsane ha

end rows

/-! ### What the master writes -/

section master

variable {lib : Ngx} {o : Order} {server : Server} {fails : Point → Option Str} {U : Kind → Set Str}
  {kind : Kind} {db db' : Db}

/-- A content that passed: its id is a string, and its keys are attributes of the object. -/
structure Valid (kind : Kind) (content : Parsed) (id : Str) : Prop where
  id_eq : content.id = .str id
  get_id : content.attrs.get (lit "id") = some (.str id)
  keys : ∀ k v, content.attrs.get k = some v → lower k = lit "id" → k = lit "id"

lemma fields_keys {k : Str} {attr : Attr} (h : kind.attr_manage_end.lookup k = some attr)
    (hlower : lower k = lit "id") : k = lit "id" := by
  have hall : ∀ e ∈ kind.attr_manage_end, lower e.1 = lit "id" → e.1 = lit "id" := by
    cases kind <;> decide +kernel
  obtain ⟨l, l', hl, -⟩ := List.lookup_eq_some_iff.mp h
  exact hall (k, attr) (by rw [hl]; simp) hlower

/-- The ids of all kinds are strings. -/
lemma id_string {t : Tbl Val} (htyped : WellTyped kind.attr_manage_end t)
    (hid : t.get (lit "id") ≠ none) : ∃ id, t.get (lit "id") = some (.str id) := by
  obtain ⟨v, hv⟩ := Option.ne_none_iff_exists'.mp hid
  obtain ⟨attr, hattr, htype⟩ := htyped _ v hv
  have hstring : (kind.attr_manage_end.lookup (lit "id")).map (·.type) = some "string" := by
    cases kind <;> decide +kernel
  rw [hattr, Option.map_some, Option.some.injEq] at hstring
  rw [hstring] at htype
  cases v with
  | str id => exact ⟨id, hv⟩
  | _ => simp [Center.typeName] at htype

lemma content_check_exist {exist : Val → Except Str Bool} {t : Tbl Val} {id : Str} {b : Bool}
    (hid : t.get (lit "id") = some (.str id))
    (h : content_check o lib exist kind.objectName false t = .ok (.ok b)) :
    exist (.str id) = .ok b := by
  unfold content_check at h
  rw [hid] at h
  dsimp only at h
  split at h
  · obtain ⟨text, -, h⟩ := bind_ok.mp h
    cases h
  · next is_exist hexist =>
    obtain ⟨r, -, h⟩ := bind_ok.mp h
    cases r with
    | error err =>
      obtain ⟨text, -, h⟩ := bind_ok.mp h
      cases h
    | ok _ =>
      cases h
      exact hexist

/-- What the master makes sure of before it writes. -/
lemma content_parse_step_ok {content : Content} {i : ℕ} {parsed : Parsed}
    (h : content_parse_step lib o server fails kind db content i = .ok (.ok parsed)) :
    ∃ id, idOf content = some id ∧ Valid kind parsed id ∧
      server.count kind (.quoted id) db = .ok parsed.isExist := by
  cases content with
  | other => cases h
  | noField => cases h
  | object attrs =>
    obtain ⟨r, hr, h⟩ := bind_ok.mp h
    cases r with
    | error err => cases h
    | ok is_exist =>
      cases h
      obtain ⟨kind', hkind', htyped, hne⟩ := content_check_ok hr
      have hkind : object_table kind.objectName = some kind := by cases kind <;> decide +kernel
      rw [hkind, Option.some.injEq] at hkind'
      subst hkind'
      obtain ⟨id, hid⟩ := id_string htyped hne
      refine ⟨id, by simp only [idOf, hid], ⟨by rw [hid]; rfl, hid, ?_⟩, ?_⟩
      · intro k v hk hlower
        obtain ⟨attr, hattr, -⟩ := htyped k v hk
        exact fields_keys hattr hlower
      · have hexist := content_check_exist hid hr
        rw [check_is_exist] at hexist
        exact Upsert.query_ok hexist

lemma content_parse_loop_ok {content_list : List Content} {i : ℕ} {contents : List Parsed}
    (h : content_parse_loop lib o server fails kind db content_list i = .ok (.ok contents)) :
    List.Forall₂ (fun content id => Valid kind content id ∧
      server.count kind (.quoted id) db = .ok content.isExist) contents
        (content_list.filterMap idOf) := by
  induction content_list generalizing i contents with
  | nil => cases h; exact .nil
  | cons content content_list ih =>
    obtain ⟨r, hr, h⟩ := bind_ok.mp h
    cases r with
    | error err => cases h
    | ok parsed =>
      obtain ⟨r, hrest, h⟩ := bind_ok.mp h
      cases r with
      | error err => cases h
      | ok rest =>
        cases h
        obtain ⟨id, hid, hvalid, hcount⟩ := content_parse_step_ok hr
        rw [List.filterMap_cons_some hid]
        exact .cons ⟨hvalid, hcount⟩ (ih hrest)

/-- The columns of a statement stand under the keys of the table. -/
lemma lookup_columnListParse {attrs : Tbl Val} {l : List (Str × Literal)}
    (h : Center.columnListParse lib o attrs = .ok l) {k : Str} {x : Literal} (hx : (k, x) ∈ l) :
    l.lookup k = some x := by
  have hkeys : l.map Prod.fst = (o.pairs attrs).map Sigma.fst := by
    refine mapM_map_eq (fun e e' he => ?_) h
    obtain ⟨t, -, heq⟩ := bind_ok.mp he
    cases heq
    rfl
  have hnodup : (l.map Prod.fst).Nodup := hkeys ▸ o.pairs_nodup attrs
  obtain ⟨l₁, l₂, rfl⟩ := List.append_of_mem hx
  rw [List.lookup_eq_some_iff]
  refine ⟨l₁, l₂, rfl, fun p hp => ?_⟩
  rw [List.map_append, List.map_cons, List.nodup_append] at hnodup
  have hne := hnodup.2.2 p.1 (List.mem_map_of_mem hp) k List.mem_cons_self
  simpa using Ne.symm hne

/-- The statement for a valid content is about its id. -/
lemma statement_about {content : Parsed} {id : Str} (hvalid : Valid kind content id)
    {st : Statement} (h : statement lib o content = .ok st) : About id st ∧
      if content.isExist then ∃ t l, st = .update t l else ∃ l, st = .insert l := by
  by_cases hexist : content.isExist
  · obtain ⟨l, t, -, hl, ht, rfl⟩ := (Upsert.statement_update hexist).mp h
    rw [if_pos hexist]
    rw [hvalid.id_eq] at ht
    cases ht
    refine ⟨⟨rfl, fun e he hlower => ?_⟩, _, _, rfl⟩
    obtain ⟨v, hv, -⟩ := (Upsert.mem_columnListParse hl).mp he
    by_cases hkey : e.1 = lit "id"
    · rw [hkey, Tbl.get, AList.lookup_erase] at hv
      cases hv
    · rw [Tbl.get, AList.lookup_erase_ne hkey] at hv
      exact hkey (hvalid.keys e.1 v hv hlower)
  · obtain ⟨l, hl, rfl⟩ := (Upsert.statement_insert hexist).mp h
    rw [if_neg hexist]
    have hmem : (lit "id", .quoted id) ∈ l :=
      (Upsert.mem_columnListParse hl).mpr ⟨.str id, hvalid.get_id, rfl⟩
    exact ⟨lookup_columnListParse hl hmem, l, rfl⟩

lemma exec_ok {st : Statement} (h : server.exec kind st db = .ok db') :
    ∃ rows, server.rows st (db kind) = some rows ∧ db' = Function.update db kind rows := by
  unfold Server.exec at h
  split at h
  · next rows hrows => cases h; exact ⟨rows, hrows, rfl⟩
  · cases h

lemma update_info_step_ok {content : Parsed} {i : ℕ} {id : Option Str}
    (h : update_info_step lib o server fails kind content i db = .ok (.ok (db', id))) :
    ∃ st, statement lib o content = .ok st ∧ server.exec kind st db = .ok db' ∧
      checkString lib.tostring content.id = .ok (id.getD []) ∧ id.isSome := by
  unfold update_info_step at h
  obtain ⟨st, hst, h⟩ := bind_ok.mp h
  split at h
  · obtain ⟨str, -, h⟩ := bind_ok.mp h
    cases h
  · next db'' hquery =>
    obtain ⟨t, ht, h⟩ := bind_ok.mp h
    cases h
    exact ⟨st, hst, Upsert.query_ok hquery, ht, rfl⟩

lemma delete_info_step_ok {content : Parsed} {i : ℕ} {id : Option Str}
    (h : delete_info_step lib server fails kind content i db = .ok (.ok (db', id))) :
    ∃ t, literal lib content.id = .ok t ∧ server.exec kind (.delete t) db = .ok db' ∧
      checkString lib.tostring content.id = .ok (id.getD []) ∧ id.isSome := by
  unfold delete_info_step at h
  obtain ⟨t, ht, h⟩ := bind_ok.mp h
  split at h
  · obtain ⟨str, -, h⟩ := bind_ok.mp h
    cases h
  · next db'' hquery =>
    obtain ⟨s, hs, h⟩ := bind_ok.mp h
    cases h
    exact ⟨t, ht, Upsert.query_ok hquery, hs, rfl⟩

/-- The statements of a request. -/
def request_step (lib : Ngx) (o : Order) (server : Server) (fails : Point → Option Str)
    (is_delete : Bool) (kind : Kind) : Parsed → ℕ → Db → Lua (Except Str (Db × Option Str)) :=
  if is_delete then delete_info_step lib server fails kind
  else update_info_step lib o server fails kind

/-- What a request about the ids leaves of the database, whether it comes to its end or not. -/
structure Reached (U : Kind → Set Str) (kind : Kind) (is_delete : Bool) (ids : List Str)
    (db db' : Db) : Prop where
  sane : Sane U kind (db' kind)
  others : ∀ k ≠ kind, db' k = db k
  same : ∀ b ∈ U kind, b ∉ ids → SameRow b (db kind) (db' kind)
  kept : ∀ b, Tells is_delete (db kind) b → Tells is_delete (db' kind) b

lemma reached_refl {is_delete : Bool} {ids : List Str} (hsane : Sane U kind (db kind)) :
    Reached U kind is_delete ids db db :=
  ⟨hsane, fun _ _ => rfl, fun _ _ _ _ _ => Iff.rfl, fun _ h => h⟩

lemma Reached.trans {is_delete : Bool} {a : Str} {ids : List Str} {db'' : Db}
    (h : Reached U kind is_delete [a] db db') (h' : Reached U kind is_delete ids db' db'') :
    Reached U kind is_delete (a :: ids) db db'' where
  sane := h'.sane
  others k hk := (h'.others k hk).trans (h.others k hk)
  same b hb hne row hid := by
    rw [List.mem_cons, not_or] at hne
    rw [h'.same b hb hne.2 row hid, h.same b hb (by simpa using hne.1) row hid]
  kept b hb := h'.kept b (h.kept b hb)

lemma reached_exec {is_delete : Bool} {a : Str} {rows : List Row}
    (h : Written U kind a (db kind) rows)
    (hkept : ∀ b, Tells is_delete (db kind) b → Tells is_delete rows b) :
    Reached U kind is_delete [a] db (Function.update db kind rows) where
  sane := by simpa using h.sane
  others k hk := Function.update_of_ne hk _ _
  same b hb hne := by simpa using h.same b hb (by simpa using hne)
  kept b hb := by simpa using hkept b hb

lemma id_of_checkString {content : Parsed} {a : Str} {id : Option Str}
    (hvalid : Valid kind content a) (h : checkString lib.tostring content.id = .ok (id.getD []))
    (hsome : id.isSome) : id = some a := by
  obtain ⟨id, rfl⟩ := Option.isSome_iff_exists.mp hsome
  rw [hvalid.id_eq] at h
  cases h
  rfl

/-- One statement of a request. -/
lemma request_step_ok (huse : InUse server U) (hsane : Sane U kind (db kind)) {is_delete : Bool}
    {content : Parsed} {a : Str} (hvalid : Valid kind content a) (ha : a ∈ U kind)
    (hexist : is_delete = false → content.isExist → Has (db kind) a) {i : ℕ} {id : Option Str}
    (h : request_step lib o server fails is_delete kind content i db = .ok (.ok (db', id))) :
    id = some a ∧ Reached U kind is_delete [a] db db' ∧ Tells is_delete (db' kind) a := by
  cases is_delete with
  | false =>
    obtain ⟨st, hst, hexec, hid, hsome⟩ := update_info_step_ok h
    obtain ⟨rows, hrows, rfl⟩ := exec_ok hexec
    obtain ⟨habout, hshape⟩ := statement_about hvalid hst
    obtain ⟨hwritten, hleaves⟩ := rows_written huse hsane ha habout hrows
    refine ⟨id_of_checkString hvalid hid hsome, ?_⟩
    by_cases hex : content.isExist
    · rw [if_pos hex] at hshape
      obtain ⟨t, l, rfl⟩ := hshape
      exact ⟨reached_exec hwritten hleaves, by simpa using hleaves a (hexist rfl hex)⟩
    · rw [if_neg hex] at hshape
      obtain ⟨l, rfl⟩ := hshape
      exact ⟨reached_exec hwritten hleaves.1, by simpa using hleaves.2⟩
  | true =>
    obtain ⟨t, ht, hexec, hid, hsome⟩ := delete_info_step_ok h
    obtain ⟨rows, hrows, rfl⟩ := exec_ok hexec
    rw [hvalid.id_eq] at ht
    cases ht
    have habout : About a (.delete (.quoted a)) := rfl
    obtain ⟨hwritten, hleaves⟩ := rows_written huse hsane ha habout hrows
    exact ⟨id_of_checkString hvalid hid hsome, reached_exec hwritten hleaves.1,
      by simpa using hleaves.2⟩

/-- **The statements of a request, one after the other**: rows of other ids stay, and when all went
through the ids are those to notify and their rows are there, or gone. -/
lemma request_steps (huse : InUse server U) {is_delete : Bool} {contents : List Parsed}
    {ids : List Str} (hids : ∀ a ∈ ids, a ∈ U kind)
    (hvalid : List.Forall₂ (fun content a => Valid kind content a ∧
      (is_delete = false → content.isExist → Has (db kind) a)) contents ids)
    (hsane : Sane U kind (db kind)) (i : ℕ) :
    Reached U kind is_delete ids db
        (runSteps (request_step lib o server fails is_delete kind) contents i db).2 ∧
      ∀ got, (runSteps (request_step lib o server fails is_delete kind) contents i db).1 =
          .ok (.ok got) → got = ids ∧ ∀ a ∈ ids, Tells is_delete
        ((runSteps (request_step lib o server fails is_delete kind) contents i db).2 kind) a := by
  induction contents generalizing i db ids with
  | nil =>
    cases hvalid
    refine ⟨reached_refl hsane, fun got h => ?_⟩
    cases h
    exact ⟨rfl, by simp⟩
  | cons content contents ih =>
    obtain ⟨a, ids, hcontent, hrest, rfl⟩ := List.forall₂_cons_left_iff.mp hvalid
    obtain ⟨ha, hids⟩ := List.forall_mem_cons.mp hids
    rw [runSteps]
    rcases hstep : request_step lib o server fails is_delete kind content i db with
      e | err | ⟨db', id⟩
    · refine ⟨reached_refl hsane, fun got hgot => ?_⟩
      cases hgot
    · refine ⟨reached_refl hsane, fun got hgot => ?_⟩
      cases hgot
    · obtain ⟨rfl, hreached, htells⟩ :=
        request_step_ok huse hsane hcontent.1 ha hcontent.2 hstep
      have hrest' : List.Forall₂ (fun content a => Valid kind content a ∧
          (is_delete = false → content.isExist → Has (db' kind) a)) contents ids := by
        refine hrest.imp fun content b hb => ⟨hb.1, fun hdel hex => ?_⟩
        subst hdel
        exact hreached.kept b (hb.2 rfl hex)
      obtain ⟨htail, hdone⟩ := ih hids hrest' hreached.sane (i + 1)
      refine ⟨hreached.trans htail, fun got hgot => ?_⟩
      dsimp only at hgot ⊢
      rcases hrun : (runSteps (request_step lib o server fails is_delete kind) contents (i + 1)
          db').1 with e | err | rest
      · rw [hrun] at hgot; cases hgot
      · rw [hrun] at hgot; cases hgot
      · rw [hrun] at hgot
        cases hgot
        obtain ⟨rfl, htold⟩ := hdone rest hrun
        exact ⟨rfl, List.forall_mem_cons.mpr ⟨htail.kept a htells, htold⟩⟩

lemma has_of_count (huse : InUse server U) (hsane : Sane U kind (db kind)) {a : Str}
    (ha : a ∈ U kind) (h : server.count kind (.quoted a) db = .ok true) : Has (db kind) a := by
  unfold Server.count at h
  have h : (db kind).any (fun row => server.sql.eq (.str a) (row.col "id")) = true := by
    simpa [Server.cell] using h
  obtain ⟨row, hrow, heq⟩ := List.any_eq_true.mp h
  exact ⟨row, hrow, (eq_iff huse hsane ha hrow).mp heq⟩

lemma of_map_ofExcept {r : Lua (Except Str (List Str))} {ids : List Str}
    (h : r.map Answer.ofExcept = .ok (.ok ids)) : r = .ok (.ok ids) := by
  rcases r with e | err | ids'
  · cases h
  · cases h
  · cases h
    rfl

/-- **What a request leaves of the database.** -/
lemma master_reached (huse : InUse server U) {req : Request}
    (hkind : object_table req.name = some kind) (hids : ∀ a ∈ req.ids, a ∈ U kind)
    (hsane : Sane U kind (db kind)) :
    Reached U kind req.is_delete req.ids db
        (master.update_object_info lib o server fails req db).2 ∧
      ∀ got, (master.update_object_info lib o server fails req db).1 = .ok (.ok got) →
        got = req.ids ∧ ∀ a ∈ req.ids, Tells req.is_delete
          ((master.update_object_info lib o server fails req db).2 kind) a := by
  unfold master.update_object_info
  rcases hparse : content_parse lib o server fails req.name req.content db with
    e | err | ⟨kind', contents⟩
  · exact ⟨reached_refl hsane, nofun⟩
  · exact ⟨reached_refl hsane, nofun⟩
  · unfold content_parse at hparse
    rw [hkind] at hparse
    obtain ⟨r, hloop, hparse⟩ := bind_ok.mp hparse
    cases r with
    | error err => cases hparse
    | ok contents' =>
      cases hparse
      have hvalid : List.Forall₂ (fun content a => Valid kind content a ∧
          (req.is_delete = false → content.isExist → Has (db kind) a)) contents req.ids := by
        have hcounts := List.forall₂_and_left _ _ |>.mpr ⟨hids, (content_parse_loop_ok hloop).flip⟩
        refine hcounts.flip.imp fun content a h => ⟨h.2.1, fun _ hex => ?_⟩
        exact has_of_count huse hsane h.1 (hex ▸ h.2.2)
      obtain ⟨hreached, hdone⟩ := request_steps huse hids hvalid hsane 0
      refine ⟨hreached, fun got hgot => hdone got ?_⟩
      exact of_map_ofExcept hgot

end master

/-! ### What a worker stores -/

section worker

variable {lib : Ngx} {o : Order} {server : Server} {U : Kind → Set Str} {kind : Kind} {db : Db}
  {dict : Tbl Str} {ids : List Str} {up : Bool}

/-- The rows with one of the ids. -/
def matched (server : Server) (rows : List Row) (ids : List Str) : List Row :=
  rows.filter fun row => ids.any fun v => server.sql.eq (.str v) (row.col "id")

lemma mem_matched (huse : InUse server U) (hsane : Sane U kind (db kind))
    (hids : ∀ a ∈ ids, a ∈ U kind) {row : Row} : row ∈ matched server (db kind) ids ↔
      row ∈ db kind ∧ ∃ a ∈ ids, row.col "id" = .str a := by
  rw [matched, List.mem_filter, List.any_eq_true]
  refine and_congr_right fun hrow => exists_congr fun a => and_congr_right fun ha => ?_
  exact eq_iff huse hsane (hids a ha) hrow

variable (lib o server kind db dict up) in
/-- A worker stores the rows with the ids, or nothing. -/
lemma update_info_list_sd_eq (x : Str) (l : List Str) :
    update_info_list_sd lib roomy o (connection server db up) kind (x :: l) dict =
        code (putAll (bdm.put lib roomy o kind) (fun status => status)
          (matched server (db kind) (x :: l)) dict) ∨
      (update_info_list_sd lib roomy o (connection server db up) kind (x :: l) dict).2 = dict ∧
        ∀ res, (update_info_list_sd lib roomy o (connection server db up) kind (x :: l) dict).1 ≠
          .ok (some res) := by
  cases up with
  | false => cases l <;> exact .inr ⟨rfl, nofun⟩
  | true =>
    cases l with
    | nil =>
      have hquery : (connection server db true).query (select_info kind x) =
          some (matched server (db kind) [x]) := by
        simp [connection, select_one, matched]
      have hsingle : update_info_list_sd lib roomy o (connection server db true) kind [x] dict =
          bdm.update_info_sd lib roomy o (connection server db true) kind x dict := rfl
      rw [hsingle, bdm.update_info_sd, bdm.get_info_db, hquery]
      match matched server (db kind) [x] with
      | [row] => exact .inl (congrArg code (putAll_single fun _ _ => .inr rfl).symm)
      | [] => exact .inr ⟨rfl, nofun⟩
      | _ :: _ :: _ => exact .inr ⟨rfl, nofun⟩
    | cons y l =>
      have hquery : (connection server db true).query (select_info_list kind (x :: y :: l)) =
          some (matched server (db kind) (x :: y :: l)) := by
        simp [connection, select_list, matched]
      have hlist : update_info_list_sd lib roomy o (connection server db true) kind (x :: y :: l)
          dict = bdm.update_info_list_sd_loop lib roomy o (connection server db true) kind
            (x :: y :: l) dict := rfl
      rw [hlist, bdm.update_info_list_sd_loop, hquery]
      exact .inl rfl

lemma update_info_list_sd_kept (huse : InUse server U) (hsane : Sane U kind (db kind))
    (hids : ∀ a ∈ ids, a ∈ U kind) (hne : ids ≠ []) {key : Str}
    (hkey : ∀ a ∈ ids, key ≠ shared_dict_pre kind ++ a) :
    (update_info_list_sd lib roomy o (connection server db up) kind ids dict).2.get key =
      dict.get key := by
  obtain ⟨x, l, rfl⟩ := List.exists_cons_of_ne_nil hne
  rcases update_info_list_sd_eq lib o server kind db dict up x l with h | ⟨h, -⟩
  · rw [h]
    refine putAll_kept (fun row hrow => ?_) _ fun row hrow a hid => ?_
    · obtain ⟨-, a, -, hid⟩ := (mem_matched huse hsane hids).mp hrow
      exact ⟨a, hid⟩
    · obtain ⟨-, b, hb, hid'⟩ := (mem_matched huse hsane hids).mp hrow
      obtain rfl : b = a := Cell.str.inj (hid'.symm.trans hid)
      exact hkey b hb
  · rw [h]

lemma update_info_list_sd_fresh (huse : InUse server U) (hsane : Sane U kind (db kind))
    (hids : ∀ a ∈ ids, a ∈ U kind) {res : ℤ}
    (h : (update_info_list_sd lib roomy o (connection server db up) kind ids dict).1 =
      .ok (some res)) {a : Str} (ha : a ∈ ids) (hhas : Has (db kind) a) :
    Holds lib o db kind a
      (update_info_list_sd lib roomy o (connection server db up) kind ids dict).2 := by
  obtain ⟨x, l, rfl⟩ := List.exists_cons_of_ne_nil (List.ne_nil_of_mem ha)
  obtain ⟨row, hrow, hid⟩ := hhas
  refine holds_of_row ((rowOf_eq_some hsane).mpr ⟨hrow, hid⟩) ?_
  rcases update_info_list_sd_eq lib o server kind db dict up x l with heq | ⟨-, hne⟩
  · rw [heq] at h ⊢
    have hrow' := (mem_matched huse hsane hids).mpr ⟨hrow, a, ha, hid⟩
    have hcode : ∃ res, (putAll (bdm.put lib roomy o kind) (fun status => status)
        (matched server (db kind) (x :: l)) dict).1 = .ok res := by
      rcases hput : (putAll (bdm.put lib roomy o kind) (fun status => status)
        (matched server (db kind) (x :: l)) dict).1 with e | res
      · rw [code, hput] at h
        cases h
      · exact ⟨res, rfl⟩
    obtain ⟨res, hres⟩ := hcode
    refine putAll_fresh (fun r hr => ?_) ?_ hres hrow' hid
    · obtain ⟨-, b, -, hb⟩ := (mem_matched huse hsane hids).mp hr
      exact ⟨b, hb⟩
    · exact hsane.2.sublist (List.filter_sublist.map _)
  · exact absurd h (hne res)

lemma pre_inj {kind kind' : Kind} {a b : Str}
    (h : shared_dict_pre kind ++ a = shared_dict_pre kind' ++ b) : kind = kind' ∧ a = b := by
  have hlength : ∀ kind : Kind, (shared_dict_pre kind).length = 1 := by
    intro kind
    cases kind <;> decide +kernel
  obtain ⟨hpre, hab⟩ := List.append_inj h (by rw [hlength, hlength])
  refine ⟨?_, hab⟩
  revert hpre
  cases kind <;> cases kind' <;> decide +kernel

/-- No object in use lies under the key of the list. -/
lemma key_ne_list (huse : InUse server U) {a : Str} (ha : a ∈ U kind) :
    shared_dict_pre kind ++ a ≠ DSP_ALL_SD := by
  intro h
  have hlist : DSP_ALL_SD = shared_dict_pre .dsp ++ lit "spall" := by decide +kernel
  rw [hlist] at h
  obtain ⟨rfl, rfl⟩ := pre_inj h
  exact huse.free ha

lemma set_dsplist_sd_kept {rows : Option (List Row)} {key : Str} (hkey : key ≠ DSP_ALL_SD) :
    (set_dsplist_sd lib rows dict).2.get key = dict.get key := by
  unfold set_dsplist_sd
  split
  · exact AList.lookup_erase_ne hkey
  · split
    · exact AList.lookup_insert_ne hkey
    · rfl
  · split
    · exact AList.lookup_insert_ne hkey
    · rfl

/-- The list is that of the rows. -/
lemma set_dsplist_sd_listed {rows : List Row} (hids : ∀ row ∈ rows, ∃ a, row.col "id" = .str a) :
    ∃ ids, (rows.mapM fun row => (row.col "id").text lib) = .ok ids ∧
      (set_dsplist_sd lib (some rows) dict).2.get DSP_ALL_SD = some (concat comma ids) := by
  obtain ⟨ids, hmap⟩ : ∃ ids, (rows.mapM fun row => (row.col "id").text lib) = .ok ids := by
    refine mapM_isOk.mpr fun row hrow => ?_
    obtain ⟨a, ha⟩ := hids row hrow
    exact ⟨a, by rw [ha]; rfl⟩
  refine ⟨ids, hmap, ?_⟩
  unfold set_dsplist_sd
  match rows, hmap with
  | [], hmap =>
    cases hmap
    exact AList.lookup_insert dict
  | [row], hmap =>
    obtain ⟨id, hid, rest, hrest, rfl⟩ := mapM_cons_ok.mp hmap
    cases hrest
    have hconcat : concat comma [id] = id := by simp [concat, List.intercalate]
    simp only [hid, List.reverse_nil, hconcat]
    exact AList.lookup_insert dict
  | row :: row' :: rows, hmap =>
    simp only [hmap]
    exact AList.lookup_insert dict

/-! ### The handler of a notification -/

variable {is_delete : Bool} {idstr : Str} {answers : Answers}

/-- The list apart, the entries are those the objects of the notification leave. -/
lemma handler_get {key : Str} (hkey : key ≠ DSP_ALL_SD ∨ kind ≠ .dsp) :
    (worker.update_object_info lib o server kind is_delete idstr db answers dict).2.get key =
      if is_delete then (delete_info_list_sd kind (split comma idstr) dict).get key
      else (update_info_list_sd lib roomy o (connection server db answers.rows) kind
        (split comma idstr) dict).2.get key := by
  have hlist : ∀ r : Bool × Tbl Str, (if r.1 && kind = .dsp then
      set_dsplist_sd lib (if answers.list then some (db .dsp) else none) r.2 else r).2.get key =
        r.2.get key := by
    intro r
    split
    · next h =>
      refine set_dsplist_sd_kept (hkey.resolve_right ?_)
      simpa using (Bool.and_eq_true_iff.mp h).2
    · rfl
  unfold worker.update_object_info
  rw [hlist]
  cases is_delete with
  | true => rfl
  | false =>
    simp only [Bool.false_eq_true, if_false]
    rcases update_info_list_sd lib roomy o (connection server db answers.rows) kind
      (split comma idstr) dict with ⟨e | _ | res, dict'⟩ <;> rfl

lemma delete_get {a : Str} : (delete_info_list_sd kind ids dict).get (shared_dict_pre kind ++ a) =
    if a ∈ ids then none else dict.get (shared_dict_pre kind ++ a) := by
  rw [delete_info_list_sd, Tbl.get_eraseAll]
  have hmem : shared_dict_pre kind ++ a ∈ ids.map (shared_dict_pre kind ++ ·) ↔ a ∈ ids := by
    simp
  simp only [hmem]

lemma handler_kept (huse : InUse server U) (hsane : Sane U kind (db kind))
    (hids : ∀ a ∈ split comma idstr, a ∈ U kind) {key : Str}
    (hlist : key ≠ DSP_ALL_SD ∨ kind ≠ .dsp)
    (hkey : ∀ a ∈ split comma idstr, key ≠ shared_dict_pre kind ++ a) :
    (worker.update_object_info lib o server kind is_delete idstr db answers dict).2.get key =
      dict.get key := by
  rw [handler_get hlist]
  split
  · rw [delete_info_list_sd, Tbl.get_eraseAll, if_neg]
    intro hmem
    obtain ⟨a, ha, rfl⟩ := List.mem_map.mp hmem
    exact hkey a ha rfl
  · exact update_info_list_sd_kept huse hsane hids (List.splitOn_ne_nil comma idstr) hkey

/-- A worker that answers 200 holds the rows of the ids, and nothing of those deleted. -/
lemma handler_fresh (huse : InUse server U) (hsane : Sane U kind (db kind))
    (hids : ∀ a ∈ split comma idstr, a ∈ U kind) {a : Str} (ha : a ∈ split comma idstr)
    (htells : Tells is_delete (db kind) a)
    (h : (worker.update_object_info lib o server kind is_delete idstr db answers dict).1 = true) :
    Holds lib o db kind a
      (worker.update_object_info lib o server kind is_delete idstr db answers dict).2 := by
  have hkey := key_ne_list huse (hids a ha)
  cases is_delete with
  | true =>
    refine holds_of_none (rowOf_eq_none.mpr htells) ?_
    rw [handler_get (.inl hkey), if_pos rfl, delete_get, if_pos ha]
  | false =>
    have hres : ∃ res, (update_info_list_sd lib roomy o (connection server db answers.rows) kind
        (split comma idstr) dict).1 = .ok (some res) := by
      unfold worker.update_object_info at h
      simp only [Bool.false_eq_true, if_false] at h
      rcases hlist : update_info_list_sd lib roomy o (connection server db answers.rows) kind
        (split comma idstr) dict with ⟨e | _ | res, dict'⟩
      · rw [hlist] at h; simp at h
      · rw [hlist] at h; simp at h
      · exact ⟨res, rfl⟩
    obtain ⟨res, hres⟩ := hres
    refine (update_info_list_sd_fresh huse hsane hids hres ha htells).congr rfl ?_
    rw [handler_get (.inl hkey), if_neg Bool.false_ne_true]

/-- A worker that answers 200 to a request about DSPs, and is told the list, has it. -/
lemma handler_listed (hids : ∀ row ∈ db .dsp, ∃ a, row.col "id" = .str a)
    (hlist : answers.list = true)
    (h : (worker.update_object_info lib o server .dsp is_delete idstr db answers dict).1 = true) :
    ∃ ids, ((db .dsp).mapM fun row => (row.col "id").text lib) = .ok ids ∧
      (worker.update_object_info lib o server .dsp is_delete idstr db answers dict).2.get
        DSP_ALL_SD = some (concat comma ids) := by
  have hlisted : ∀ r : Bool × Tbl Str, (if r.1 && .dsp = Kind.dsp then
      set_dsplist_sd lib (if answers.list then some (db .dsp) else none) r.2 else r).1 = true →
        ∃ ids, ((db .dsp).mapM fun row => (row.col "id").text lib) = .ok ids ∧
          (if r.1 && .dsp = Kind.dsp then
            set_dsplist_sd lib (if answers.list then some (db .dsp) else none) r.2
            else r).2.get DSP_ALL_SD = some (concat comma ids) := by
    rintro ⟨done, dict⟩ h
    cases done with
    | false => cases h
    | true =>
      rw [hlist]
      exact set_dsplist_sd_listed hids
  exact hlisted _ h

/-! ### Starting a worker -/

/-- The objects of one kind are loaded into a dictionary that holds nothing else of them. -/
lemma load_kind (hsane : ∀ kind, Sane U kind (db kind)) {res : ℤ} {failed : ℤ → ℤ}
    (h : (putAll (bdm.put lib roomy o kind) failed (db kind) dict).1 = .ok res)
    (hdict : ∀ k, ∀ a ∈ U k, dict.get (shared_dict_pre k ++ a) = none ∨ Holds lib o db k a dict)
    (k : Kind) {a : Str} (ha : a ∈ U k) :
    ((putAll (bdm.put lib roomy o kind) failed (db kind) dict).2.get
        (shared_dict_pre k ++ a) = none ∨
      Holds lib o db k a (putAll (bdm.put lib roomy o kind) failed (db kind) dict).2) ∧
    (k = kind ∨ Holds lib o db k a dict →
      Holds lib o db k a (putAll (bdm.put lib roomy o kind) failed (db kind) dict).2) := by
  have hids : ∀ row ∈ db kind, ∃ a, row.col "id" = .str a := fun row hrow =>
    ((hsane kind).1 row hrow).imp fun _ h => h.2
  by_cases hown : k = kind ∧ Has (db kind) a
  · -- a row of its own
    obtain ⟨rfl, row, hrow, hid⟩ := hown
    have hholds : Holds lib o db k a (putAll (bdm.put lib roomy o k) failed (db k) dict).2 := by
      refine holds_of_row ((rowOf_eq_some (hsane k)).mpr ⟨hrow, hid⟩) ?_
      exact putAll_fresh hids (hsane k).2 h hrow hid
    exact ⟨.inr hholds, fun _ => hholds⟩
  · have hkept : (putAll (bdm.put lib roomy o kind) failed (db kind) dict).2.get
        (shared_dict_pre k ++ a) = dict.get (shared_dict_pre k ++ a) := by
      refine putAll_kept hids failed fun row hrow b hid heq => ?_
      obtain ⟨rfl, rfl⟩ := pre_inj heq
      exact hown ⟨rfl, row, hrow, hid⟩
    have hholds : Holds lib o db k a dict →
        Holds lib o db k a (putAll (bdm.put lib roomy o kind) failed (db kind) dict).2 :=
      fun h => h.congr rfl hkept
    rw [hkept]
    refine ⟨(hdict k a ha).imp_right hholds, ?_⟩
    rintro (rfl | hold)
    · rcases hdict k a ha with hnone | hold
      · have hrow : rowOf k a db = none := rowOf_eq_none.mpr fun hhas => hown ⟨rfl, hhas⟩
        exact holds_of_none hrow (hkept.trans hnone)
      · exact hholds hold
    · exact hholds hold

lemma update_all_holds (hsane : ∀ kind, Sane U kind (db kind)) {kinds : List Kind}
    (h : (update_all lib o db kinds dict).1 = true)
    (hdict : ∀ k, ∀ a ∈ U k, dict.get (shared_dict_pre k ++ a) = none ∨ Holds lib o db k a dict)
    (k : Kind) {a : Str} (ha : a ∈ U k) (hk : k ∈ kinds ∨ Holds lib o db k a dict) :
    Holds lib o db k a (update_all lib o db kinds dict).2 := by
  induction kinds generalizing dict with
  | nil => exact hk.resolve_left List.not_mem_nil
  | cons kind kinds ih =>
    rw [update_all] at h ⊢
    rcases hput : putAll (bdm.put lib roomy o kind) (fun _ => -1) (db kind) dict with
      ⟨e | res, dict'⟩
    · rw [hput] at h; cases h
    · have hput' : (putAll (bdm.put lib roomy o kind) (fun _ => -1) (db kind) dict).1 =
          .ok res := by
        rw [hput]
      have hload : ∀ k, ∀ a ∈ U k,
          (dict'.get (shared_dict_pre k ++ a) = none ∨ Holds lib o db k a dict') ∧
            (k = kind ∨ Holds lib o db k a dict → Holds lib o db k a dict') := by
        intro k a ha
        have hkind := load_kind hsane hput' hdict k ha
        rwa [hput] at hkind
      rw [hput] at h
      dsimp only at h ⊢
      split at h
      · next hres =>
        rw [if_pos hres]
        refine ih h (fun k a ha => (hload k a ha).1) ?_
        rcases hk with hk | hk
        · rcases List.mem_cons.mp hk with rfl | hk
          · exact .inr ((hload _ a ha).2 (.inl rfl))
          · exact .inl hk
        · exact .inr ((hload k a ha).2 (.inr hk))
      · cases h

/-- **A worker that comes up holds all rows.** -/
lemma init_holds (huse : InUse server U) (hsane : ∀ kind, Sane U kind (db kind))
    (h : (init_object_info lib o db answers).1 = true) {a : Str} (ha : a ∈ U kind) :
    Holds lib o db kind a (init_object_info lib o db answers).2 := by
  unfold init_object_info at h ⊢
  split at h
  · next hrows =>
    rw [if_pos hrows]
    dsimp only at h ⊢
    split at h
    · next hall =>
      rw [if_pos hall]
      refine Holds.congr ?_ rfl (set_dsplist_sd_kept (key_ne_list huse ha))
      refine update_all_holds hsane hall (fun k a _ => .inl rfl) kind ha (.inl ?_)
      rw [(o.visit_perm _).mem_iff]
      cases kind <;> simp
    · next hall => exact absurd h hall
  · cases h

lemma init_listed (hids : ∀ row ∈ db .dsp, ∃ a, row.col "id" = .str a) (hlist : answers.list = true)
    (h : (init_object_info lib o db answers).1 = true) :
    ∃ ids, ((db .dsp).mapM fun row => (row.col "id").text lib) = .ok ids ∧
      (init_object_info lib o db answers).2.get DSP_ALL_SD = some (concat comma ids) := by
  unfold init_object_info at h ⊢
  rw [hlist] at h ⊢
  split at h
  · next hrows =>
    rw [if_pos hrows]
    dsimp only at h ⊢
    split at h
    · next hall =>
      rw [if_pos hall, if_pos rfl]
      exact set_dsplist_sd_listed hids
    · next hall => exact absurd h hall
  · cases h

end worker

/-! ### One step -/

section steps

variable {lib : Ngx} {o : Order} {server : Server} {U : Kind → Set Str} {kind : Kind} {id : Str}
  {s : State} {st : Step}

variable (lib) in
/-- Ids in use come to the worker as they are; of none it makes the empty one. -/
lemma told_eq (huse : InUse server U) {req : Request} (hids : ∀ a ∈ req.ids, a ∈ U kind) :
    split comma (lib.form_value (concat comma req.ids)) = req.told ∧ (∀ a ∈ req.told, a ∈ U kind) ∧
      ∀ a ∈ req.ids, a ∈ req.told := by
  have hclean : ∀ a ∈ req.ids, ∀ c ∈ a, c ∉ lit ",&%+" := fun a ha => huse.clean kind a (hids a ha)
  refine ⟨?_, ?_⟩
  · rw [Request.told, lib.form_value_plain]
    intro c hc
    rcases mem_concat hc with rfl | ⟨a, ha, hc⟩
    · decide
    · intro hmem
      exact hclean a ha c hc (List.mem_cons_of_mem _ hmem)
  · by_cases hnil : req.ids = []
    · have htold : req.told = [[]] := by
        rw [Request.told, hnil]
        rfl
      rw [htold, hnil]
      exact ⟨by simpa using huse.empty kind, by simp⟩
    · have htold : req.told = req.ids := by
        refine split_concat (fun a ha hcomma => hclean a ha comma hcomma ?_) hnil
        decide
      rw [htold]
      exact ⟨hids, fun a ha => ha⟩

lemma master_unknown {req : Request} {fails : Point → Option Str} {db : Db}
    (h : object_table req.name = none) :
    (master.update_object_info lib o server fails req db).2 = db := by
  simp only [master.update_object_info, content_parse, h]
  rfl

/-- What a request does: the worker handles its ids, or is not reached. -/
lemma request_cases (req : Request) (fails : Point → Option Str) (delivered : Option Answers) :
    update_object_info lib o server s req fails delivered =
        (false, ⟨(master.update_object_info lib o server fails req s.db).2, s.dict⟩) ∨
      ∃ ids answers kind,
        (master.update_object_info lib o server fails req s.db).1 = .ok (.ok ids) ∧
        delivered = some answers ∧ object_table req.name = some kind ∧
        update_object_info lib o server s req fails delivered =
          ((worker.update_object_info lib o server kind req.is_delete
              (lib.form_value (concat comma ids))
              (master.update_object_info lib o server fails req s.db).2 answers s.dict).1,
            ⟨(master.update_object_info lib o server fails req s.db).2,
              (worker.update_object_info lib o server kind req.is_delete
                (lib.form_value (concat comma ids))
                (master.update_object_info lib o server fails req s.db).2 answers s.dict).2⟩) := by
  unfold update_object_info
  rcases hmaster : (master.update_object_info lib o server fails req s.db).1 with e | ids | err
  · exact .inl (by simp only [hmaster])
  · cases delivered with
    | none => exact .inl (by simp only [hmaster])
    | some answers =>
      cases hkind : object_table req.name with
      | none => exact .inl (by simp only [hmaster])
      | some kind => exact .inr ⟨ids, answers, kind, rfl, rfl, rfl, by simp only [hmaster]⟩
  · exact .inl (by simp only [hmaster])

/-- The database is the one the master leaves. -/
lemma request_db (req : Request) (fails : Point → Option Str) (delivered : Option Answers) :
    (update_object_info lib o server s req fails delivered).2.db =
      (master.update_object_info lib o server fails req s.db).2 := by
  rcases request_cases req fails delivered with h | ⟨ids, answers, kind, -, -, -, h⟩ <;> rw [h]

variable {req : Request} {fails : Point → Option Str} {delivered : Option Answers}

/-- The request names ids in use. -/
def Request.Named (U : Kind → Set Str) (req : Request) : Prop :=
  ∀ kind, object_table req.name = some kind → ∀ a ∈ req.ids, a ∈ U kind

/-- The tables keep ids in use, each of them once. -/
lemma request_sane (huse : InUse server U) (hnamed : req.Named U)
    (hsane : ∀ kind, Sane U kind (s.db kind)) (kind : Kind) :
    Sane U kind ((update_object_info lib o server s req fails delivered).2.db kind) := by
  rw [request_db]
  cases hname : object_table req.name with
  | none =>
    rw [master_unknown hname]
    exact hsane kind
  | some kind' =>
    have hreached : Reached U kind' req.is_delete req.ids s.db
        (master.update_object_info lib o server fails req s.db).2 :=
      (master_reached huse hname (hnamed kind' hname) (hsane kind')).1
    by_cases hkind : kind = kind'
    · rw [hkind]
      exact hreached.sane
    · rw [hreached.others kind hkind]
      exact hsane kind

/-- What a request leaves of the rows of another id. -/
lemma request_rowOf (huse : InUse server U) (hnamed : req.Named U)
    (hsane : ∀ kind, Sane U kind (s.db kind)) (hid : id ∈ U kind)
    (hother : ¬ (object_table req.name = some kind ∧ id ∈ req.ids)) :
    rowOf kind id (update_object_info lib o server s req fails delivered).2.db =
      rowOf kind id s.db := by
  rw [request_db]
  cases hname : object_table req.name with
  | none => rw [master_unknown hname]
  | some kind' =>
    have hreached : Reached U kind' req.is_delete req.ids s.db
        (master.update_object_info lib o server fails req s.db).2 :=
      (master_reached huse hname (hnamed kind' hname) (hsane kind')).1
    by_cases hkind : kind = kind'
    · subst hkind
      exact rowOf_congr (hsane kind) hreached.sane
        (hreached.same id hid fun hmem => hother ⟨hname, hmem⟩)
    · rw [rowOf, rowOf, hreached.others kind hkind]

/-- **A request about other objects** leaves the row and its entry. -/
lemma request_kept (huse : InUse server U) (hnamed : req.Named U)
    (hsane : ∀ kind, Sane U kind (s.db kind)) (hid : id ∈ U kind)
    (hother : ¬ (object_table req.name = some kind ∧ id ∈ req.told)) (h : Fresh lib o kind id s) :
    Fresh lib o kind id (update_object_info lib o server s req fails delivered).2 := by
  have hrow : rowOf kind id (update_object_info lib o server s req fails delivered).2.db =
      rowOf kind id s.db := by
    refine request_rowOf huse hnamed hsane hid fun hmem => hother ⟨hmem.1, ?_⟩
    exact (told_eq lib huse (hnamed kind hmem.1)).2.2 id hmem.2
  refine Holds.congr h hrow ?_
  rcases request_cases req fails delivered with heq | ⟨ids, answers, kind', hok, -, hname, heq⟩
  · rw [heq]
  · obtain ⟨hreached, hdone⟩ := master_reached huse hname (hnamed kind' hname) (hsane kind')
    obtain ⟨rfl, -⟩ := hdone ids hok
    obtain ⟨htold, hmem, -⟩ := told_eq lib huse (hnamed kind' hname)
    rw [heq, handler_kept huse hreached.sane (htold ▸ hmem) (.inl (key_ne_list huse hid))]
    · rw [htold]
      intro a ha hkey
      obtain ⟨rfl, rfl⟩ := pre_inj hkey
      exact hother ⟨hname, ha⟩

/-- **A request that names the object and goes through** leaves its entry as its row. -/
lemma request_fresh (huse : InUse server U) (hnamed : req.Named U)
    (hsane : ∀ kind, Sane U kind (s.db kind)) (hname : object_table req.name = some kind)
    (hmem : id ∈ req.ids)
    (hok : (update_object_info lib o server s req fails delivered).1 = true) :
    Fresh lib o kind id (update_object_info lib o server s req fails delivered).2 := by
  rcases request_cases req fails delivered with heq | ⟨ids, answers, kind', hdone, -, hname', heq⟩
  · rw [heq] at hok
    cases hok
  · rw [hname, Option.some.injEq] at hname'
    subst hname'
    obtain ⟨hreached, hall⟩ := master_reached huse hname (hnamed kind hname) (hsane kind)
    obtain ⟨rfl, htells⟩ := hall ids hdone
    obtain ⟨htold, hin, hfrom⟩ := told_eq lib huse (hnamed kind hname)
    rw [heq] at hok ⊢
    exact handler_fresh huse hreached.sane (htold ▸ hin) (htold ▸ hfrom id hmem)
      (htells id hmem) hok

/-- A request that is not about DSPs leaves their list. -/
lemma request_list_kept (huse : InUse server U) (hnamed : req.Named U)
    (hsane : ∀ kind, Sane U kind (s.db kind)) (hother : object_table req.name ≠ some .dsp)
    (h : Listed lib s) : Listed lib (update_object_info lib o server s req fails delivered).2 := by
  have hrows : (update_object_info lib o server s req fails delivered).2.db .dsp = s.db .dsp := by
    rw [request_db]
    cases hname : object_table req.name with
    | none => rw [master_unknown hname]
    | some kind =>
      obtain ⟨hreached, -⟩ := master_reached huse hname (hnamed kind hname) (hsane kind)
      refine hreached.others .dsp ?_
      rintro rfl
      exact hother hname
  unfold Listed
  rw [hrows]
  rcases request_cases req fails delivered with heq | ⟨ids, answers, kind, hok, -, hname, heq⟩
  · rw [heq]
    exact h
  · obtain ⟨hreached, hdone⟩ := master_reached huse hname (hnamed kind hname) (hsane kind)
    obtain ⟨rfl, -⟩ := hdone ids hok
    obtain ⟨htold, hmem, -⟩ := told_eq lib huse (hnamed kind hname)
    have hkind : kind ≠ .dsp := by
      rintro rfl
      exact hother hname
    rw [heq, handler_kept huse hreached.sane (htold ▸ hmem) (.inr hkind)]
    · exact h
    · rw [htold]
      intro a ha
      exact (key_ne_list huse (hmem a ha)).symm

lemma ids_of_sane {rows : List Row} (hsane : Sane U .dsp rows) :
    ∀ row ∈ rows, ∃ a, row.col "id" = .str a :=
  fun row hrow => (hsane.1 row hrow).imp fun _ h => h.2

/-- A request about DSPs that goes through, with the list told, leaves it as the database has it. -/
lemma request_listed (huse : InUse server U) (hnamed : req.Named U)
    (hsane : ∀ kind, Sane U kind (s.db kind)) (hname : object_table req.name = some .dsp)
    {answers : Answers} (hlist : answers.list = true)
    (hok : (update_object_info lib o server s req fails (some answers)).1 = true) :
    Listed lib (update_object_info lib o server s req fails (some answers)).2 := by
  rcases request_cases req fails (some answers) with heq | ⟨ids, _, kind, hdone, h, hname', heq⟩
  · rw [heq] at hok
    cases hok
  · cases h
    rw [hname, Option.some.injEq] at hname'
    subst hname'
    obtain ⟨hreached, -⟩ := master_reached huse hname (hnamed .dsp hname) (hsane .dsp)
    rw [heq] at hok ⊢
    exact handler_listed (ids_of_sane hreached.sane) hlist hok

variable {info : Option Str}

lemma step_request (h : requestOf lib info = some req) :
    step lib o server s (.request info fails delivered) =
      update_object_info lib o server s req fails delivered := by
  simp only [step, h]

lemma step_none (h : requestOf lib info = none) :
    step lib o server s (.request info fails delivered) = (false, s) := by
  simp only [step, h]

lemma named_of_step (h : requestOf lib info = some req)
    (hnamed : (Step.request info fails delivered).Named lib U) : req.Named U :=
  fun kind hname a ha => hnamed kind a ⟨req, h, hname, ha⟩

lemma step_sane (huse : InUse server U) (hnamed : st.Named lib U)
    (hsane : ∀ kind, Sane U kind (s.db kind)) :
    ∀ kind, Sane U kind ((step lib o server s st).2.db kind) := by
  cases st with
  | restart answers => exact hsane
  | request info fails delivered =>
    cases hreq : requestOf lib info with
    | none =>
      rw [step_none hreq]
      exact hsane
    | some req =>
      rw [step_request hreq]
      exact request_sane huse (named_of_step hreq hnamed) hsane

lemma step_kept (huse : InUse server U) (hnamed : st.Named lib U)
    (hsane : ∀ kind, Sane U kind (s.db kind)) (hid : id ∈ U kind)
    (hother : ¬ st.Concerns lib kind id) (h : Fresh lib o kind id s) :
    Fresh lib o kind id (step lib o server s st).2 := by
  cases st with
  | restart answers => exact absurd (.inr ⟨answers, rfl⟩) hother
  | request info fails delivered =>
    cases hreq : requestOf lib info with
    | none =>
      rw [step_none hreq]
      exact h
    | some req =>
      rw [step_request hreq]
      refine request_kept huse (named_of_step hreq hnamed) hsane hid (fun hmem => ?_) h
      exact hother (.inl ⟨req, hreq, hmem⟩)

lemma step_fresh (huse : InUse server U) (hnamed : st.Named lib U)
    (hsane : ∀ kind, Sane U kind (s.db kind)) (hid : id ∈ U kind) (hnames : st.Names lib kind id)
    (hok : (step lib o server s st).1 = true) : Fresh lib o kind id (step lib o server s st).2 := by
  cases st with
  | restart answers => exact init_holds huse hsane hok hid
  | request info fails delivered =>
    obtain ⟨req, hreq, hname, hmem⟩ := hnames.resolve_right nofun
    rw [step_request hreq] at hok ⊢
    exact request_fresh huse (named_of_step hreq hnamed) hsane hname hmem hok

lemma step_list_kept (huse : InUse server U) (hnamed : st.Named lib U)
    (hsane : ∀ kind, Sane U kind (s.db kind)) (hother : ¬ st.AboutDsps lib) (h : Listed lib s) :
    Listed lib (step lib o server s st).2 := by
  cases st with
  | restart answers => exact absurd (.inr ⟨answers, rfl⟩) hother
  | request info fails delivered =>
    cases hreq : requestOf lib info with
    | none =>
      rw [step_none hreq]
      exact h
    | some req =>
      rw [step_request hreq]
      refine request_list_kept huse (named_of_step hreq hnamed) hsane (fun hname => ?_) h
      exact hother (.inl ⟨req, hreq, hname⟩)

lemma step_listed (huse : InUse server U) (hnamed : st.Named lib U)
    (hsane : ∀ kind, Sane U kind (s.db kind)) (hdsps : st.AboutDsps lib) (hlists : st.Lists)
    (hok : (step lib o server s st).1 = true) : Listed lib (step lib o server s st).2 := by
  cases st with
  | restart answers => exact init_listed (ids_of_sane (hsane .dsp)) hlists hok
  | request info fails delivered =>
    obtain ⟨req, hreq, hname⟩ := hdsps.resolve_right nofun
    obtain ⟨answers, rfl, hlist⟩ := hlists
    rw [step_request hreq] at hok ⊢
    exact request_listed huse (named_of_step hreq hnamed) hsane hname hlist hok

end steps

/-! ### Any run -/

section run

variable {lib : Ngx} {o : Order} {server : Server} {U : Kind → Set Str} {kind : Kind} {id : Str}
  {s : State} {st : Step} {before after : List Step}

lemma run_sane (huse : InUse server U) {steps : List Step} (hnamed : ∀ st ∈ steps, st.Named lib U)
    (hsane : ∀ kind, Sane U kind (s.db kind)) :
    ∀ kind, Sane U kind ((run lib o server s steps).db kind) := by
  induction steps generalizing s with
  | nil => exact hsane
  | cons st steps ih =>
    obtain ⟨hst, hnamed⟩ := List.forall_mem_cons.mp hnamed
    exact ih hnamed (step_sane huse hst hsane)

/-- What one step keeps, a run keeps. -/
lemma run_kept (huse : InUse server U) {Other : Step → Prop} {P : State → Prop}
    (hstep : ∀ s st, (∀ kind, Sane U kind (s.db kind)) → st.Named lib U → Other st → P s →
      P (step lib o server s st).2)
    {steps : List Step} (hnamed : ∀ st ∈ steps, st.Named lib U) (hother : ∀ st ∈ steps, Other st)
    (hsane : ∀ kind, Sane U kind (s.db kind)) (h : P s) : P (run lib o server s steps) := by
  induction steps generalizing s with
  | nil => exact h
  | cons st steps ih =>
    obtain ⟨hst, hnamed⟩ := List.forall_mem_cons.mp hnamed
    obtain ⟨hthis, hother⟩ := List.forall_mem_cons.mp hother
    exact ih hnamed hother (step_sane huse hst hsane) (hstep s st hsane hst hthis h)

lemma run_append : run lib o server s (before ++ st :: after) =
    run lib o server (step lib o server (run lib o server s before) st).2 after := by
  rw [run, List.foldl_append, List.foldl_cons]
  rfl

/-- **The entry of an object is its row** from the last step that went through for it, until one is
about it again: whatever happened before, and whatever becomes of the other objects. -/
theorem entry_fresh (huse : InUse server U)
    (hnamed : ∀ st' ∈ before ++ st :: after, st'.Named lib U)
    (hsane : ∀ kind, Sane U kind (s.db kind)) (hid : id ∈ U kind) (hnames : st.Names lib kind id)
    (hok : (step lib o server (run lib o server s before) st).1 = true)
    (hafter : ∀ st' ∈ after, ¬ st'.Concerns lib kind id) :
    Fresh lib o kind id (run lib o server s (before ++ st :: after)) := by
  rw [List.forall_mem_append, List.forall_mem_cons] at hnamed
  obtain ⟨hbefore, hst, hrest⟩ := hnamed
  have hsane : ∀ kind, Sane U kind ((run lib o server s before).db kind) :=
    run_sane huse hbefore hsane
  rw [run_append]
  refine run_kept huse (fun s st hsane hst hother h => ?_) hrest hafter
    (step_sane huse hst hsane) ?_
  · exact step_kept huse hst hsane hid hother h
  · exact step_fresh huse hst hsane hid hnames hok

/-- **The list of DSPs is that of the database** from the last step that brought it, until one is
about DSPs again. -/
theorem dsplist_fresh (huse : InUse server U)
    (hnamed : ∀ st' ∈ before ++ st :: after, st'.Named lib U)
    (hsane : ∀ kind, Sane U kind (s.db kind)) (hdsps : st.AboutDsps lib)
    (hlists : st.Lists)
    (hok : (step lib o server (run lib o server s before) st).1 = true)
    (hafter : ∀ st' ∈ after, ¬ st'.AboutDsps lib) :
    Listed lib (run lib o server s (before ++ st :: after)) := by
  rw [List.forall_mem_append, List.forall_mem_cons] at hnamed
  obtain ⟨hbefore, hst, hrest⟩ := hnamed
  have hsane : ∀ kind, Sane U kind ((run lib o server s before).db kind) :=
    run_sane huse hbefore hsane
  rw [run_append]
  refine run_kept huse (fun s st hsane hst hother h => ?_) hrest hafter
    (step_sane huse hst hsane) ?_
  · exact step_list_kept huse hst hsane hother h
  · exact step_listed huse hst hsane hdsps hlists hok

end run

section samples

open Sax.StoreSync (plainSql)

/-- How a record of numbers and plain strings is printed. -/
def recordText : Val → Str
  | .table [] fields => lit "\x7b" ++ concat comma (fields.map fun e =>
      lit "\"" ++ e.1 ++ lit "\":" ++ match e.2 with
        | .num q => decimal q.floor
        | .str s => lit "\"" ++ s ++ lit "\""
        | _ => lit "null") ++ lit "\x7d"
  | v => jsonText v

/-- A request that enters DSP `1`, and one that enters SSP `1`. -/
def sampleLib : Ngx :=
  { Ngx.ofTexts [
      ("\x7b\"name\":\"dsp\",\"operate\":\"update\",\"content\":[\x7b\"id\":\"1\",\"status\":1," ++
        "\"bid_url\":\"u\",\"timeout\":100\x7d]\x7d",
        .obj [("name", .str (lit "dsp")), ("operate", .str (lit "update")), ("content", .arr [
          .obj [("id", .str (lit "1")), ("status", .num 1), ("bid_url", .str (lit "u")),
            ("timeout", .num 100)]])]),
      ("\x7b\"name\":\"ssp\",\"operate\":\"update\",\"content\":[\x7b\"id\":\"1\"\x7d]\x7d",
        .obj [("name", .str (lit "ssp")), ("operate", .str (lit "update")), ("content", .arr [
          .obj [("id", .str (lit "1"))]])])] with
    cjson_encode := recordText }

def sampleServer : Server where
  sql := { plainSql with
    insert := fun id attrs => .ok (("id", id) :: (Schema.columns .dsp).tail.map fun c =>
      (c, (attrs.lookup (lit c)).getD .null)) }
  number s := (parseDecimal s).map Int.cast

/-- The empty id and `1`. -/
def sampleIds : Kind → Set Str := fun _ => {[], lit "1"}

lemma sample_inUse : InUse sampleServer sampleIds where
  empty kind := by simp [sampleIds]
  exact kind a ha b hb h := by simpa [sampleServer, plainSql] using h
  held kind a ha attrs row h := by
    cases h
    rfl
  clean kind a ha := by
    rcases ha with rfl | rfl <;> decide +kernel
  free := by
    rintro (h | h) <;> revert h <;> decide

def sampleInfo (name rest : String) : Option Str :=
  some (lit ("\x7b\"name\":\"" ++ name ++
    "\",\"operate\":\"update\",\"content\":[\x7b\"id\":\"1\"" ++ rest ++ "\x7d]\x7d"))

/-- The worker is told of the DSP. -/
def sampleDsp : Step :=
  .request (sampleInfo "dsp" ",\"status\":1,\"bid_url\":\"u\",\"timeout\":100") (fun _ => none)
    (some ⟨true, true⟩)

/-- The worker is not reached when the SSP is entered. -/
def sampleSsp : Step := .request (sampleInfo "ssp" "") (fun _ => none) none

def sampleStart : State := ⟨fun _ => [], ∅⟩

lemma sample_sane (kind : Kind) : Sane sampleIds kind (sampleStart.db kind) :=
  ⟨nofun, List.nodup_nil⟩

lemma sample_asked {name rest : String} {kind : Kind} {req : Request}
    (h : (requestOf sampleLib (sampleInfo name rest)).map
      (fun req => (object_table req.name, req.ids)) = some (some kind, [lit "1"]))
    (hreq : requestOf sampleLib (sampleInfo name rest) = some req) :
    object_table req.name = some kind ∧ req.ids = [lit "1"] := by
  rw [hreq, Option.map_some, Option.some.injEq, Prod.mk.injEq] at h
  exact h

lemma sample_dsp : ∀ req, requestOf sampleLib (sampleInfo "dsp"
    ",\"status\":1,\"bid_url\":\"u\",\"timeout\":100") = some req →
      object_table req.name = some .dsp ∧ req.ids = [lit "1"] :=
  fun _ => sample_asked (by decide +kernel)

lemma sample_ssp : ∀ req, requestOf sampleLib (sampleInfo "ssp" "") = some req →
    object_table req.name = some .ssp ∧ req.ids = [lit "1"] :=
  fun _ => sample_asked (by decide +kernel)

lemma sample_named : ∀ st ∈ [.restart ⟨true, true⟩] ++ sampleDsp :: [sampleSsp],
    st.Named sampleLib sampleIds := by
  simp only [List.singleton_append, List.forall_mem_cons]
  refine ⟨?_, ?_, ?_, nofun⟩
  · rintro kind id ⟨⟩
  · rintro kind id ⟨req, hreq, -, hid⟩
    rw [(sample_dsp req hreq).2] at hid
    exact .inr (List.mem_singleton.mp hid)
  · rintro kind id ⟨req, hreq, -, hid⟩
    rw [(sample_ssp req hreq).2] at hid
    exact .inr (List.mem_singleton.mp hid)

lemma sample_about : sampleDsp.AboutDsps sampleLib ∧ sampleDsp.Names sampleLib .dsp (lit "1") := by
  obtain ⟨req, hreq⟩ : ∃ req, requestOf sampleLib (sampleInfo "dsp"
      ",\"status\":1,\"bid_url\":\"u\",\"timeout\":100") = some req :=
    Option.isSome_iff_exists.mp (by decide +kernel)
  obtain ⟨hname, hids⟩ := sample_dsp req hreq
  exact ⟨.inl ⟨req, hreq, hname⟩, .inl ⟨req, hreq, hname, by simp [hids]⟩⟩

/-- The SSP is no DSP. -/
lemma sample_other : ∀ st ∈ [sampleSsp], ∀ P : Request → Prop,
    (∀ req, P req → object_table req.name = some .dsp) → ¬ st.Asks sampleLib P := by
  rintro st hst P hP hasks
  rw [List.mem_singleton.mp hst] at hasks
  obtain ⟨req, hreq, hreqP⟩ := hasks
  have hname := hP req hreqP
  rw [(sample_ssp req hreq).1] at hname
  cases hname

lemma sample_ok : (step sampleLib .plain sampleServer
    (run sampleLib .plain sampleServer sampleStart [.restart ⟨true, true⟩])
    sampleDsp).1 = true := by
  decide +kernel

theorem entry_fresh_sample : Fresh sampleLib .plain .dsp (lit "1")
    (run sampleLib .plain sampleServer sampleStart
      ([.restart ⟨true, true⟩] ++ sampleDsp :: [sampleSsp])) := by
  refine entry_fresh sample_inUse sample_named sample_sane (.inr rfl) sample_about.2 sample_ok ?_
  rintro st hst (hasks | ⟨answers, rfl⟩)
  · exact sample_other st hst _ (fun req h => h.1) hasks
  · cases List.mem_singleton.mp hst

theorem dsplist_fresh_sample : Listed sampleLib
    (run sampleLib .plain sampleServer sampleStart
      ([.restart ⟨true, true⟩] ++ sampleDsp :: [sampleSsp])) := by
  refine dsplist_fresh sample_inUse sample_named sample_sane sample_about.1 ⟨_, rfl, rfl⟩
    sample_ok ?_
  rintro st hst (hasks | ⟨answers, rfl⟩)
  · exact sample_other st hst _ (fun req h => h) hasks
  · cases List.mem_singleton.mp hst

end samples

end Sax.SaxmobSync
