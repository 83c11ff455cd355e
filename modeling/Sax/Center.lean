import Sax.ObjectInfo

/-!
`center.updateObjectInfo`: a list of contents is checked against the attributes of their object
and against the database, and then carried out statement by statement.

The database is an engine that answers queries and carries out statements; any query of a
request may fail. There is no transaction, so a statement that fails leaves what the ones
before it have done.
-/

namespace Sax.Center

open Sax.LuaVal Sax.Loop Sax.Runtime Sax.ObjectInfo

/-! ### The attributes of an object -/

/-- `OBJECT_ATTR_UPDATE_INSERT`, `OBJECT_ATTR_INSERT` and `OBJECT_ATTR_NONE`. -/
inductive Required
  | updateInsert
  | insert
  | none
  deriving DecidableEq

/-- A line of an `_attr_manage_end` table. A check may end the request. -/
structure ManageAttr where
  name : String
  required : Required
  type : String
  check : Option (Ngx → Str → Lua Bool)

def networkInfoCheck (lib : Ngx) (v : Str) : Lua Bool :=
  if v = [] then .ok true
  else .ok ((split 124 v).all fun value =>
    let list2 := split comma value
    list2.length = 4 && (lib.number (list2.getD 3 [])).isSome)

def nadListCheck (lib : Ngx) (v : Str) : Lua Bool :=
  if v = [] then .ok true
  else match lib.cjson_decode v with
    | .ok (.table _ _) => .ok true
    | _ => .error (.error "Bad Request")

def attr_manage_end : Kind → Option (List ManageAttr)
  | .dsp => some [
      ⟨"id", .updateInsert, "number", none⟩,
      ⟨"dspname", .none, "string", none⟩,
      ⟨"redirecturl", .insert, "string", none⟩,
      ⟨"bidurl", .insert, "string", none⟩,
      ⟨"notifyurl", .none, "string", none⟩,
      ⟨"priority", .none, "number", none⟩,
      ⟨"qps", .none, "number", none⟩,
      ⟨"encryptionkey", .none, "string", none⟩,
      ⟨"integritykey", .none, "string", none⟩,
      ⟨"status", .insert, "number", none⟩,
      ⟨"signkey", .none, "string", none⟩]
  | .adunit => some [
      ⟨"id", .updateInsert, "string", none⟩,
      ⟨"wdht", .insert, "string", none⟩,
      ⟨"location", .none, "string", none⟩,
      ⟨"adnum", .none, "number", none⟩,
      ⟨"publisher", .insert, "number", none⟩,
      ⟨"adtype", .none, "string", none⟩,
      ⟨"displaytype", .none, "string", none⟩,
      ⟨"rotatenum", .insert, "number", none⟩,
      ⟨"gina", .none, "string", none⟩,
      ⟨"nad", .none, "string", some nadListCheck⟩,
      ⟨"networkinfo", .none, "string", some networkInfoCheck⟩,
      ⟨"status", .insert, "number", none⟩,
      ⟨"channel", .none, "string", none⟩]
  | .resource => some [
      ⟨"id", .updateInsert, "number", none⟩,
      ⟨"levelname", .none, "string", none⟩,
      ⟨"flag", .none, "number", none⟩,
      ⟨"dspwhitelist", .none, "string", none⟩,
      ⟨"dspprice", .none, "number", none⟩,
      ⟨"blackadtype", .none, "string", none⟩,
      ⟨"blackterm", .none, "string", none⟩,
      ⟨"blackclickurl", .none, "string", none⟩,
      ⟨"status", .insert, "number", none⟩,
      ⟨"pdwhitelist", .none, "string", none⟩]
  | .publisher => none
  | .creative => some [
      ⟨"id", .updateInsert, "number", none⟩,
      ⟨"dspid", .insert, "number", none⟩,
      ⟨"dspideaid", .insert, "string", none⟩,
      ⟨"advertiserid", .insert, "string", none⟩,
      ⟨"onlineurl", .none, "string", none⟩,
      ⟨"ideatype", .none, "number", none⟩,
      ⟨"wdht", .none, "string", none⟩,
      ⟨"status", .insert, "number", none⟩]
  | .advertiser => some [
      ⟨"id", .updateInsert, "number", none⟩,
      ⟨"dspid", .insert, "number", none⟩,
      ⟨"advertiserid", .insert, "string", none⟩,
      ⟨"status", .insert, "number", none⟩,
      ⟨"type", .none, "string", none⟩]
  | .network => some [
      ⟨"id", .updateInsert, "number", none⟩,
      ⟨"name", .none, "string", none⟩,
      ⟨"url", .updateInsert, "string", none⟩,
      ⟨"status", .updateInsert, "number", none⟩]

/-- `type(v)` -/
def typeName : Val → String
  | .null => "userdata"
  | .bool _ => "boolean"
  | .num _ => "number"
  | .nan => "number"
  | .str _ => "string"
  | .table _ _ => "table"

section checks

variable (lib : Ngx) (o : Order)

/-- The attributes under lower-case names; which of two spellings stays is up to `pairs`. -/
def lowered (attributeTable : Tbl Val) : Tbl Val :=
  (∅ : Tbl Val).putAll ((o.pairs attributeTable).map fun e => (lower e.1, e.2))

/-- The errors of one attribute: unknown, of another type, or refused by its check. -/
def attributeCheck (kind : Kind) (attrs : List ManageAttr) (attrName : Str) (attrValue : Val) :
    Lua (Except Str Unit) :=
  match attrs.find? fun attr => lit attr.name = attrName with
  | none => .ok (.error (attrName ++ lit " is not attribute of sax object: " ++
      lit kind.objectName))
  | some attr =>
    if typeName attrValue ≠ attr.type then
      .ok (.error (lit "type of attribute " ++ attrName ++
        lit " is not consitent with sax object: " ++ lit kind.objectName))
    else match attr.check, attrValue with
      | some check, .str v => do
        if ← check lib v then return .ok ()
        else return .error (lit "format of attribute " ++ attrName ++ lit " is incorrect")
      | _, _ => .ok (.ok ())

/-- The first error of a list of checks. -/
def firstError {β : Type} (check : β → Lua (Except Str Unit)) : List β → Lua (Except Str Unit)
  | [] => .ok (.ok ())
  | x :: l => do
    match ← check x with
    | .error errInfo => return .error errInfo
    | .ok () => firstError check l

lemma firstError_ok {β : Type} {check : β → Lua (Except Str Unit)} {l : List β} :
    firstError check l = .ok (.ok ()) ↔ ∀ x ∈ l, check x = .ok (.ok ()) := by
  induction l with
  | nil => exact ⟨fun _ x hx => absurd hx List.not_mem_nil, fun _ => rfl⟩
  | cons x l ih =>
    rw [List.forall_mem_cons, ← ih, firstError, bind_ok]
    constructor
    · rintro ⟨r, hr, h⟩
      cases r with
      | error errInfo => cases h
      | ok _ => exact ⟨hr, h⟩
    · rintro ⟨hx, h⟩
      exact ⟨_, hx, h⟩

def attributeValidityCheck (kind : Kind) (attributeTable : Tbl Val) (isUpdate : Bool) :
    Lua (Except Str Unit) := do
  match attr_manage_end kind with
  | none => return .error (lit kind.objectName ++ lit " is a virtual object!")
  | some attrs =>
    let newAttrTable := lowered o attributeTable
    match ← firstError (fun e => attributeCheck lib kind attrs e.1 e.2) (o.pairs newAttrTable) with
    | .error errInfo => return .error errInfo
    | .ok () =>
      let missing := attrs.any fun attr => (newAttrTable.get (lit attr.name)).isNone &&
        (attr.required = .updateInsert || !isUpdate && attr.required = .insert)
      if missing then
        return .error (lit "attribute(that is must) missing when " ++
          (if isUpdate then lit "udpate" else lit "insert new") ++ lit " sax object: " ++
            lit kind.objectName)
      else return .ok ()

end checks

/-! ### Statements -/

/-- What stands for a value in a statement: a number as it is printed, or a quoted string. A number
that is none, or infinite, is printed as a name, with a minus below all others. -/
inductive Literal
  | number (text : Str)
  | name (text : Str)
  | negated (text : Str)
  | quoted (s : Str)
  deriving DecidableEq

/-- Anything else cannot be concatenated. -/
def literal (lib : Ngx) : Val → Lua Literal
  | .num q => .ok (if Double.Finite q then .number (lib.tostring q)
      else if 0 < q then .name (lit "inf") else .negated (lit "inf"))
  | .nan => .ok (.name (lit "nan"))
  | .str s => .ok (.quoted s)
  | _ => .error .badConcat

/-- The statements of `db.lua` that change a table, with the columns in the order written. -/
inductive Statement
  | update (id : Literal) (setBlock : List (Str × Literal))
  | insert (columns : List (Str × Literal))
  | delete (id : Literal)

/-- The database as the center sees it, on states `σ`; an error is the text of a failed query. -/
structure Engine (σ : Type) where
  /-- `select count(*) ... where id = ` is not 0 -/
  exist : Kind → Literal → σ → Except Str Bool
  exec : Kind → Statement → σ → Except Str σ
  /-- the object id of the row of a creative or an advertiser, if there is one -/
  objectId : Kind → Literal → σ → Lua (Option Str)

/-- The queries of a request, by the number of the content they are for. -/
inductive Point
  | checkExist (i : ℕ)
  | getObjectId (i : ℕ)
  | write (i : ℕ)

/-- An element of the list `content`: a JSON object, a string or a list, which has no field
`id`, or a value that has no fields at all. -/
inductive Content
  | object (attrs : Tbl Val)
  | noField
  | other

/-- A content that passed, with its `id` and the flag `_isExist`. -/
structure Parsed where
  attrs : Tbl Val
  id : Val
  isExist : Bool

def ofName (objectName : Str) : Option Kind := Kind.all.find? fun kind => lit kind.objectName = objectName

section center

variable {σ : Type} (lib : Ngx) (o : Order) (engine : Engine σ) (fails : Point → Option Str)

/-- A query that fails for a reason of its own replies with that error. -/
def query {β : Type} (p : Point) (reply : Except Str β) : Except Str β :=
  match fails p with
  | some errInfo => .error errInfo
  | none => reply

/-- One round of the first loop of `contentParse`. -/
def contentCheck (kind : Kind) (isDelete : Bool) (db : σ) (content : Content) (i : ℕ) :
    Lua (Except Str Parsed) := do
  match content with
  | .other => throw .badIndex
  | .noField => return .error (lit "id of object missing")
  | .object attrs =>
    match attrs.get (lit "id") with
    | none | some (.bool false) => return .error (lit "id of object missing")
    | some id =>
      let text ← checkString lib.tostring id
      match query fails (.checkExist i) (engine.exist kind (← literal lib id) db) with
      | .error errInfo =>
        return .error (lit "Failed to check info of object(id = " ++ text ++
          lit ") in db, details: " ++ errInfo)
      | .ok isExist =>
        if isDelete then return .ok ⟨attrs, id, isExist⟩
        else match ← attributeValidityCheck lib o kind attrs isExist with
          | .error errInfo =>
            return .error (lit "object(id = " ++ text ++ lit ") info is invalid, details: " ++ errInfo)
          | .ok () => return .ok ⟨attrs, id, isExist⟩

def contentChecks (kind : Kind) (isDelete : Bool) (db : σ) :
    List Content → ℕ → Lua (Except Str (List Parsed))
  | [], _ => .ok (.ok [])
  | content :: contentList, i => do
    match ← contentCheck lib o engine fails kind isDelete db content i with
    | .error errInfo => return .error errInfo
    | .ok parsed =>
      match ← contentChecks kind isDelete db contentList (i + 1) with
      | .error errInfo => return .error errInfo
      | .ok rest => return .ok (parsed :: rest)

def contentParse (objectName : Str) (contentList : List Content) (isDelete : Bool) (db : σ) :
    Lua (Except Str (Kind × List Parsed)) := do
  match ofName objectName with
  | none => return .error (objectName ++ lit " is not a sax object")
  | some kind =>
    match ← contentChecks lib o engine fails kind isDelete db contentList 0 with
    | .error errInfo => return .error errInfo
    | .ok contents =>
      match if isDelete then contents.find? fun content => !content.isExist else none with
      | some content =>
        return .error (lit "object(id = " ++ (← checkString lib.tostring content.id) ++
          lit ") not exists")
      | none => return .ok (kind, contents)

/-- `columnListParse`: the keys and values in the order `pairs` runs through them. -/
def columnListParse (list : Tbl Val) : Lua (List (Str × Literal)) :=
  (o.pairs list).mapM fun e => do return (e.1, ← literal lib e.2)

/-- The statement for a content: the id is left out of an update, under the key `id` alone. An
update that sets nothing cannot be written. -/
def statement (content : Parsed) : Lua Statement := do
  if content.isExist then
    match ← columnListParse lib o (content.attrs.erase (lit "id")) with
    | [] => throw .badConcat
    | setBlock => return .update (← literal lib content.id) setBlock
  else return .insert (← columnListParse lib o content.attrs)

/-- A round of `updateInfoDB`: the database it leaves and the id to notify, or the error. -/
def updateStep (kind : Kind) (content : Parsed) (i : ℕ) (db : σ) :
    Lua (Except Str (σ × Option Str)) := do
  match query fails (.write i) (engine.exec kind (← statement lib o content) db) with
  | .error errInfo =>
    let str ← lib.encode (.table [] (content.attrs.entries.map fun e => (e.1, e.2)))
    return .error (lit "Error happend when " ++
      (if content.isExist then lit "update values : " else lit "insert values : ") ++
        lit kind.objectName ++ lit " : " ++ str ++ lit ".  Details : " ++ errInfo)
  | .ok db => return .ok (db, some (← checkString lib.tostring content.id))

/-- `sax.getObjectId`: a query only for the objects with an id of their own, and one that raises
when it fails. -/
def getObjectId (kind : Kind) (id : Val) (i : ℕ) (db : σ) : Lua (Option Str) := do
  match kind.glued with
  | none => return some (← checkString lib.tostring id)
  | some _ =>
    match fails (.getObjectId i) with
    | some _ => throw (.error "failed to query mysql")
    | none => engine.objectId kind (← literal lib id) db

/-- A round of `deleteInfoDB`. -/
def deleteStep (kind : Kind) (content : Parsed) (i : ℕ) (db : σ) :
    Lua (Except Str (σ × Option Str)) := do
  let objectId ← getObjectId lib engine fails kind content.id i db
  match query fails (.write i) (engine.exec kind (.delete (← literal lib content.id)) db) with
  | .error errInfo =>
    return .error (lit "Error happened when delete tuple of " ++ lit kind.objectName ++
      lit "(id = " ++ (← checkString lib.tostring content.id) ++ lit "). Details: " ++ errInfo)
  | .ok db => return .ok (db, objectId)

/-- The loop of `updateInfoDB` and `deleteInfoDB`: what it returns, and the database it leaves,
which is what the statements before an error made of it. -/
def runSteps (step : Parsed → ℕ → σ → Lua (Except Str (σ × Option Str))) :
    List Parsed → ℕ → σ → Lua (Except Str (List Str)) × σ
  | [], _, db => (.ok (.ok []), db)
  | content :: contents, i, db =>
    match step content i db with
    | .error e => (.error e, db)
    | .ok (.error errInfo) => (.ok (.error errInfo), db)
    | .ok (.ok (db, id)) =>
      let r := runSteps step contents (i + 1) db
      (r.1.map (·.map (id.toList ++ ·)), r.2)

def updateInfoDB (kind : Kind) (contents : List Parsed) (db : σ) :
    Lua (Except Str (List Str)) × σ :=
  runSteps (updateStep lib o engine fails kind) contents 0 db

def deleteInfoDB (kind : Kind) (contents : List Parsed) (db : σ) :
    Lua (Except Str (List Str)) × σ :=
  runSteps (deleteStep lib engine fails kind) contents 0 db

/-- The code of the answer, with the ids that are notified or the text `info`. -/
inductive Answer
  | ok (idList : List Str)
  | fail (info : Str)

def Answer.ofExcept : Except Str (List Str) → Answer
  | .ok idList => .ok idList
  | .error errInfo => .fail errInfo

/-- `center.updateObjectInfo` on arguments that were parsed. -/
def updateObjectInfo (objectName : Str) (contentList : List Content) (isDelete : Bool) (db : σ) :
    Lua Answer × σ :=
  match contentParse lib o engine fails objectName contentList isDelete db with
  | .error e => (.error e, db)
  | .ok (.error errInfo) => (.ok (.fail errInfo), db)
  | .ok (.ok (kind, contents)) =>
    let r := if isDelete then deleteInfoDB lib engine fails kind contents db
      else updateInfoDB lib o engine fails kind contents db
    (r.1.map Answer.ofExcept, r.2)

end center

end Sax.Center
