import Sax.Const
import Sax.Loop
import Sax.Runtime

/-!
The objects in the shared dictionary of a worker as copies of database rows: `model/db.lua`
selects them, `model/object.lua` transforms and stores them, `sax.lua` follows the
notifications of the center.

An entry lies under the letter of its object kind followed by the id of the object, which for
a creative or an advertiser is glued together from two columns.
-/

namespace Sax.ObjectInfo

open Sax.LuaVal Sax.Loop Sax.Const Sax.Runtime

inductive Kind
  | dsp
  | adunit
  | resource
  | publisher
  | creative
  | advertiser
  | network
  deriving DecidableEq

namespace Kind

def all : List Kind := [dsp, adunit, resource, publisher, creative, advertiser, network]

def objectName : Kind → String
  | dsp => "dsp"
  | adunit => "adunit"
  | resource => "resource"
  | publisher => "publisher"
  | creative => "creative"
  | advertiser => "advertiser"
  | network => "network"

def sharedDictPre : Kind → Str
  | dsp => lit "d"
  | adunit => lit "a"
  | resource => lit "r"
  | publisher => lit "p"
  | creative => lit "c"
  | advertiser => lit "v"
  | network => lit "n"

/-- The table the rows come from: publishers are another reading of the resources. -/
def table : Kind → Kind
  | publisher => resource
  | kind => kind

def virtualObject : Kind → Option Kind
  | resource => some publisher
  | _ => none

end Kind

/-! ### Rows -/

inductive Cell
  | null
  | num (q : ℚ)
  | str (s : Str)
  deriving DecidableEq

/-- What `..` makes of a cell; the null of the parser is no text. -/
def Cell.text (lib : Ngx) : Cell → Lua Str
  | .null => .error .badConcat
  | .num q => .ok (lib.tostring q)
  | .str s => .ok s

abbrev Row := List (String × Cell)

def Row.col (row : Row) (column : String) : Cell := (row.lookup column).getD .null

/-- What the select statements ask for, as the key in the record and the column. -/
def Kind.columns : Kind → List (String × String)
  | .dsp => ["id", "redirecturl", "bidurl", "notifyurl", "priority", "qps", "encryptionkey",
      "integritykey", "status", "signkey"].map fun c => (c, c)
  | .adunit => ["id", "wdht", "location", "adnum", "publisher", "status", "adtype", "displaytype",
      "rotatenum", "gina", "nad", "networkinfo", "channel"].map fun c => (c, c)
  | .resource => ["id", "flag", "dspwhitelist", "status", "pdwhitelist"].map fun c => (c, c)
  | .publisher => ("id", "id") :: ("resource", "id") ::
      ["dspprice", "blackadtype", "blackterm", "blackclickurl", "status"].map fun c => (c, c)
  | .creative => ("uniqueid", "id") ::
      ["dspid", "dspideaid", "advertiserid", "status"].map fun c => (c, c)
  | .advertiser => ("uniqueid", "id") ::
      ["dspid", "advertiserid", "status", "type"].map fun c => (c, c)
  | .network => ["id", "name", "url", "status"].map fun c => (c, c)

/-- The columns a creative's or an advertiser's object id is glued together from. -/
def Kind.glued : Kind → Option (String × String)
  | .creative => some ("dspid", "dspideaid")
  | .advertiser => some ("dspid", "advertiserid")
  | _ => none

/-- A row as its select function returns it. -/
def select (lib : Ngx) (kind : Kind) (row : Row) : Lua (List (String × Cell)) := do
  let info := kind.columns.map fun e => (e.1, row.col e.2)
  match kind.glued with
  | some (a, b) => return ("id", .str ((← (row.col a).text lib) ++ (← (row.col b).text lib))) :: info
  | none => return info

/-! ### `object:transformInfo` -/

inductive DataType
  | number
  | string
  | table

/-- A line of an `_attr_mem` table. -/
structure Attr where
  name : String
  index : ℕ
  dataType : DataType
  nullOk : Bool
  defaultValue : Option Val
  transformFunc : Option (Ngx → Cell → Lua Val)

def splitNetwork (lib : Ngx) (v : Cell) : Lua Val := do
  let list := split 124 (← v.text lib)
  return .arr (list.map fun value =>
    let tmp := split comma value
    if tmp.length < 4 then .strs tmp
    else .arr ((tmp.map .str).set 3 ((lib.number (tmp.getD 3 [])).getD .null)))

def splitNadList (lib : Ngx) (v : Cell) : Lua Val := do lib.decode (← v.text lib)

def tonumber (lib : Ngx) : Cell → Lua (Option ℚ)
  | .num q => .ok (some q)
  | v => return lib.tonumber (← v.text lib)

def transformDspPrice (lib : Ngx) (v : Cell) : Lua Val := do
  match ← tonumber lib v with
  | some q => return .num ⌊q * 100⌋
  | none => throw .badArith

def Kind.attr_mem : Kind → List Attr
  | .dsp => [
      ⟨"id", 1, .number, false, none, none⟩,
      ⟨"dspname", 2, .string, true, some (.str (lit "anonymous")), none⟩,
      ⟨"redirecturl", 3, .string, false, none, none⟩,
      ⟨"bidurl", 4, .string, false, none, none⟩,
      ⟨"notifyurl", 5, .string, true, some (.str []), none⟩,
      ⟨"priority", 6, .number, true, some (.num 0), none⟩,
      ⟨"qps", 7, .number, true, some (.num 0), none⟩,
      ⟨"encryptionkey", 8, .string, true, some (.str []), none⟩,
      ⟨"integritykey", 9, .string, true, some (.str []), none⟩,
      ⟨"status", 10, .number, false, none, none⟩,
      ⟨"signkey", 11, .string, false, none, none⟩]
  | .adunit => [
      ⟨"id", 1, .string, false, none, none⟩,
      ⟨"wdht", 2, .string, false, none, none⟩,
      ⟨"location", 3, .string, true, some (.str []), none⟩,
      ⟨"adnum", 4, .number, true, some (.num 1), none⟩,
      ⟨"publisher", 5, .number, false, none, none⟩,
      ⟨"status", 6, .number, false, none, none⟩,
      ⟨"adtype", 7, .table, true, some .empty, none⟩,
      ⟨"displaytype", 8, .string, true, some (.str []), none⟩,
      ⟨"gina", 9, .string, true, some (.str []), none⟩,
      ⟨"nad", 10, .table, true, some .empty, some splitNadList⟩,
      ⟨"rotatenum", 11, .number, false, none, none⟩,
      ⟨"networkinfo", 12, .table, true, some .empty, some splitNetwork⟩,
      ⟨"channel", 13, .string, true, some (.str []), none⟩]
  | .resource => [
      ⟨"id", 1, .number, false, none, none⟩,
      ⟨"flag", 2, .number, true, some (.num 1), none⟩,
      ⟨"dspwhitelist", 3, .table, true, some .empty, none⟩,
      ⟨"status", 4, .number, false, none, none⟩,
      ⟨"pdwhitelist", 5, .table, true, some .empty, none⟩]
  | .publisher => [
      ⟨"id", 1, .number, false, none, none⟩,
      ⟨"resource", 2, .number, false, none, none⟩,
      ⟨"dspprice", 3, .number, false, some (.num 0), some transformDspPrice⟩,
      ⟨"blackadtype", 4, .table, true, some .empty, none⟩,
      ⟨"blackterm", 5, .table, true, some .empty, none⟩,
      ⟨"blackclickurl", 6, .table, true, some .empty, none⟩,
      ⟨"status", 7, .number, false, none, none⟩]
  | .creative => [
      ⟨"id", 1, .string, false, none, none⟩,
      ⟨"uniqueid", 2, .number, false, none, none⟩,
      ⟨"dspid", 3, .number, false, none, none⟩,
      ⟨"dspideaid", 4, .string, false, none, none⟩,
      ⟨"advertiserid", 5, .string, false, none, none⟩,
      ⟨"status", 6, .number, false, none, none⟩]
  | .advertiser => [
      ⟨"id", 1, .string, false, none, none⟩,
      ⟨"uniqueid", 2, .number, false, none, none⟩,
      ⟨"dspid", 3, .number, false, none, none⟩,
      ⟨"advertiserid", 4, .string, false, none, none⟩,
      ⟨"status", 5, .number, false, none, none⟩,
      ⟨"type", 6, .string, false, none, none⟩]
  | .network => [
      ⟨"id", 1, .number, false, none, none⟩,
      ⟨"name", 2, .string, true, some (.str []), none⟩,
      ⟨"url", 3, .string, false, none, none⟩,
      ⟨"status", 4, .number, false, none, none⟩]

/-- A value that is neither null nor empty, by the type of its attribute. -/
def convert (lib : Ngx) (dataType : DataType) (v : Cell) : Lua (Option Val) := do
  match dataType with
  | .table => return some (.strs (split comma (← v.text lib)))
  | .string => return some (.str (← v.text lib))
  | .number => return (← tonumber lib v).map .num

/-- The loop body of `transformInfo`: the index and the value put there. -/
def transformAttr (lib : Ngx) (kind : Kind) (e : String × Cell) : Lua (ℕ × Option Val) := do
  match kind.attr_mem.find? fun attr => attr.name = e.1 with
  | none =>
    throw (.error ("attribute: " ++ e.1 ++ " of " ++ kind.objectName ++
      " is not attribute of this object"))
  | some attr =>
    match e.2 with
    | .null =>
      if attr.nullOk then return (attr.index, attr.defaultValue)
      else throw (.error ("attribute: " ++ e.1 ++ " of " ++ kind.objectName ++
        " is null, that is illegal!"))
    | .str [] => return (attr.index, some (attr.defaultValue.getD (.str [])))
    | v =>
      match attr.transformFunc with
      | some transformFunc => return (attr.index, some (← transformFunc lib v))
      | none => return (attr.index, ← convert lib attr.dataType v)

/-- The list the attributes make up. What is `nil` below the last of them prints as null. -/
def transformInfo (lib : Ngx) (kind : Kind) (info : List (String × Cell)) : Lua (List Val) := do
  let result ← info.mapM (transformAttr lib kind)
  let filled := result.filterMap fun e => e.2.map fun v => (e.1, v)
  return (List.range ((filled.map Prod.fst).foldr max 0)).map fun i =>
    (filled.lookup (i + 1)).getD .null

/-! ### The shared dictionary -/

/-- `dictPre .. value[1]`, and the text stored there. -/
def entry (lib : Ngx) (kind : Kind) (row : Row) : Lua (Str × Str) := do
  let value ← transformInfo lib kind (← select lib kind row)
  let text ← lib.encode (.arr value)
  match value.head? with
  | some (.str id) => return (kind.sharedDictPre ++ id, text)
  | some (.num id) => return (kind.sharedDictPre ++ lib.tostring id, text)
  | _ => throw .badConcat

/-- `setDict` of each row. -/
def setDicts (lib : Ngx) (kind : Kind) (rows : List Row) (dict : Tbl Str) : Lua (Tbl Str) :=
  return dict.putAll (← rows.mapM (entry lib kind))

/-- `string.lower` -/
def lower (s : Str) : Str := s.map fun c => if 65 ≤ c ∧ c ≤ 90 then c + 32 else c

/-- The database engine: `=` on a literal and a cell, and the row a write makes, or its error.
An update leaves the column `id` alone unless it names it. -/
structure MySql where
  eq : Cell → Cell → Bool
  eq_refl : ∀ c, c ≠ .null → eq c c
  update : List (Str × Cell) → Row → Lua Row
  update_id : ∀ attrs row row', (∀ a ∈ attrs, lower a.1 ≠ lit "id") →
    update attrs row = .ok row' → row'.col "id" = row.col "id"
  insert : Cell → List (Str × Cell) → Lua Row

section sd

variable (lib : Ngx) (sql : MySql)

/-- The literal a select statement is left with when an id is pasted into it: quoted for ad
units, bare for the other kinds. -/
def literal (kind : Kind) (id : Str) : Lua Cell :=
  if kind = .adunit then
    if 39 ∈ id ∨ 92 ∈ id then .error (.error "failed to query mysql") else .ok (.str id)
  else match lib.tonumber id with
    | some q => .ok (.num q)
    | none => .error (.error "failed to query mysql")

def getInfoListDB (kind : Kind) (rows : List Row) (idList : List Str) : Lua (List Row) := do
  let literals ← idList.mapM (literal lib kind)
  return rows.filter fun row => literals.any fun id => sql.eq id (row.col "id")

/-- One row or nothing. -/
def getInfoDB (kind : Kind) (rows : List Row) (id : Str) : Lua (Option Row) := do
  match ← getInfoListDB lib sql kind rows [id] with
  | [row] => return some row
  | _ => return none

/-- A single id without its row makes the result `nil`, which is not 0. -/
def updateInfoListSD (kind : Kind) (rows : List Row) (idList : List Str) (dict : Tbl Str) :
    Lua (Tbl Str) := do
  match idList with
  | [id] =>
    match ← getInfoDB lib sql kind rows id with
    | some row => setDicts lib kind [row] dict
    | none => throw (.error "error update object in SD")
  | _ => setDicts lib kind (← getInfoListDB lib sql kind rows idList) dict

def deleteInfoListSD (kind : Kind) (idList : List Str) (dict : Tbl Str) : Tbl Str :=
  dict.eraseAll (idList.map (kind.sharedDictPre ++ ·))

def handleSD (kind : Kind) (rows : List Row) (isDelete : Bool) (idList : List Str)
    (dict : Tbl Str) : Lua (Tbl Str) :=
  if isDelete then .ok (deleteInfoListSD kind idList dict)
  else updateInfoListSD lib sql kind rows idList dict

/-- `sax.updateObjectInfo` on the argument `id` of the body. An answer other than 200 is an
error here. -/
def updateObjectInfo (kind : Kind) (rows : List Row) (isDelete : Bool) (objectId : Str)
    (dict : Tbl Str) : Lua (Tbl Str) := do
  if objectId = [] then throw (.error "fail in get args")
  let objectIdList := split comma objectId
  let dict ← handleSD lib sql kind rows isDelete objectIdList dict
  match kind.virtualObject with
  | none => return dict
  | some kind => handleSD lib sql kind rows isDelete objectIdList dict

/-- The rows of every table. -/
abbrev Db := Kind → List Row

/-- The kinds are cached in the order `pairs` runs through them. -/
def initObjectInfo (o : Order) (db : Db) : Lua (Tbl Str) :=
  (o.visit Kind.all).foldlM (fun dict kind => setDicts lib kind (db kind.table) dict) ∅

end sd

end Sax.ObjectInfo
