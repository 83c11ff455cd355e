import Mathlib.Logic.Function.Basic
import Sax.Center

/-!
The tables of the database as the engine behind `center.updateObjectInfo`.

A table maps the key of an id to the row with that id, so the primary key is part of the type.
A statement names columns in any case; each value it writes becomes what the column stores. The
column `modifytime` the server keeps itself: `DEFAULT CURRENT_TIMESTAMP ON UPDATE CURRENT_TIMESTAMP`.
-/

namespace Sax.Tables

open Sax.LuaVal Sax.Loop Sax.Runtime Sax.ObjectInfo Sax.Center

/-- The cells of a row by lower-case column. -/
abbrev Row := Str → Option Cell

/-- The rows of a table by the key of their id. -/
abbrev Table := Cell → Option Row

/-- What the server decides: how it reads a number, which columns a table has, what a value becomes in
a column (or an error) and what a column is without one, by which key it compares ids, and what its
clock says when a statement comes to a table.
What a column `id` stores it stores again as it is, and ids that compare equal it stores as ids that
compare equal. -/
structure Schema where
  number : Str → Option ℚ
  columns : Kind → List Str
  store : Kind → Str → Cell → Option Cell
  default : Kind → Str → Cell
  key : Kind → Cell → Cell
  now : Kind → Table → Cell
  store_store : ∀ kind c x, store kind (lit "id") c = some x → store kind (lit "id") x = some x
  store_key : ∀ kind c c' x x', key kind c = key kind c' → store kind (lit "id") c = some x →
    store kind (lit "id") c' = some x' → key kind x = key kind x'

/-- The tables of the objects. -/
abbrev Db := Kind → Table

def Row.id (row : Row) : Cell := (row (lit "id")).getD .null

def modifytime : Str := lit "modifytime"

section engine

variable (schema : Schema)

/-- A name stands for a column, and there is none. -/
def Schema.cell : Literal → Option Cell
  | .number text => (schema.number text).map .num
  | .name _ | .negated _ => none
  | .quoted s => some (.str s)

/-- One assignment of a statement. -/
def assign (kind : Kind) (row : Row) (e : Str × Literal) : Option Row := do
  let column := lower e.1
  if column ∉ schema.columns kind then none
  return Function.update row column (some (← schema.store kind column (← schema.cell e.2)))

/-- `ON UPDATE CURRENT_TIMESTAMP`: a row with a new value in some column gets the time, unless the
statement sets it. -/
def touch (kind : Kind) (now : Cell) (setBlock : List (Str × Literal)) (row row' : Row) : Row :=
  if modifytime ∈ schema.columns kind ∧ (∀ e ∈ setBlock, lower e.1 ≠ modifytime) ∧
      ∃ column ∈ schema.columns kind, row' column ≠ row column
  then Function.update row' modifytime (some now)
  else row'

/-- A row before its first values. -/
def blank (kind : Kind) (now : Cell) : Row := fun column =>
  if column ∈ schema.columns kind then
    some (if column = modifytime then now else schema.default kind column)
  else none

/-- A row that goes under a key, unless another has it. -/
def put (kind : Kind) (table : Table) (row : Row) : Option Table :=
  if (table (schema.key kind row.id)).isSome then none
  else some (Function.update table (schema.key kind row.id) (some row))

def update (kind : Kind) (id : Cell) (setBlock : List (Str × Literal)) (table : Table) :
    Option Table := do
  match table (schema.key kind id) with
  | none => return table
  | some row =>
    let row' ← setBlock.foldlM (assign schema kind) row
    put schema kind (Function.update table (schema.key kind id) none)
      (touch schema kind (schema.now kind table) setBlock row row')

/-- A column may be named once. -/
def insert (kind : Kind) (columns : List (Str × Literal)) (table : Table) : Option Table := do
  if ¬ (columns.map fun e => lower e.1).Nodup then none
  put schema kind table
    (← columns.foldlM (assign schema kind) (blank schema kind (schema.now kind table)))

/-- The table after a statement, if it can be carried out. -/
def run (kind : Kind) (table : Table) : Statement → Option Table
  | .update id setBlock => do update schema kind (← schema.cell id) setBlock table
  | .insert columns => insert schema kind columns table
  | .delete id => do
    return Function.update table (schema.key kind (← schema.cell id)) none

/-- `row.dspid .. row.dspideaid`, or the like. -/
def objectId (lib : Ngx) (kind : Kind) (row : Row) : Lua (Option Str) :=
  match kind.glued with
  | none => .ok none
  | some (a, b) => do
    let cell c := ((row (lit c)).getD .null).text lib
    return some ((← cell a) ++ (← cell b))

/-- Publishers have no table of their own. -/
def engine (lib : Ngx) : Engine Db where
  exist kind id db :=
    match schema.cell id with
    | some c => if kind = .publisher then .error (lit "failed to query mysql")
      else .ok (db kind (schema.key kind c)).isSome
    | none => .error (lit "failed to query mysql")
  exec kind st db :=
    match run schema kind (db kind) st with
    | some table => if kind = .publisher then .error (lit "failed to query mysql")
      else .ok (Function.update db kind table)
    | none => .error (lit "failed to query mysql")
  objectId kind id db :=
    match schema.cell id with
    | some c => match db kind (schema.key kind c) with
      | some row => objectId lib kind row
      | none => .ok none
    | none => .error (.error "failed to query mysql")

end engine

/-! ### What a statement does to the rows -/

section rows

variable {schema : Schema} {kind : Kind} {table table' : Table} {row row' : Row}

/-- Every row stands under the key of its id. -/
def Keyed (schema : Schema) (kind : Kind) (table : Table) : Prop :=
  ∀ k row, table k = some row → schema.key kind row.id = k

/-- Every row stands under the key of its id, and its id is one the column stores. -/
def Indexed (schema : Schema) (kind : Kind) (table : Table) : Prop :=
  ∀ k row, table k = some row →
    schema.key kind row.id = k ∧ schema.store kind (lit "id") row.id = some row.id

lemma Indexed.keyed (h : Indexed schema kind table) : Keyed schema kind table :=
  fun k row hrow => (h k row hrow).1

/-- The column and the cell an assignment writes. -/
def written (schema : Schema) (kind : Kind) (e : Str × Literal) : Option (Str × Cell) :=
  if lower e.1 ∈ schema.columns kind then
    (schema.cell e.2).bind fun c => (schema.store kind (lower e.1) c).map fun x => (lower e.1, x)
  else none

/-- What the assignments of a statement leave in a column. -/
def left (schema : Schema) (kind : Kind) (l : List (Str × Literal)) (column : Str) : Option Cell :=
  (l.filterMap (written schema kind)).reverse.lookup column

/-- A row after the assignments of a statement. -/
def assigned (schema : Schema) (kind : Kind) (l : List (Str × Literal)) (row : Row) : Row :=
  fun column => (left schema kind l column).or (row column)

lemma written_eq_some {e : Str × Literal} {p : Str × Cell} : written schema kind e = some p ↔
    p.1 = lower e.1 ∧ lower e.1 ∈ schema.columns kind ∧
      ∃ c, schema.cell e.2 = some c ∧ schema.store kind (lower e.1) c = some p.2 := by
  obtain ⟨column, x⟩ := p
  unfold written
  split
  · next hcolumn =>
    simp only [Option.bind_eq_some_iff, Option.map_eq_some_iff, Prod.mk.injEq, hcolumn, true_and]
    constructor
    · rintro ⟨c, hc, y, hy, rfl, rfl⟩
      exact ⟨rfl, c, hc, hy⟩
    · rintro ⟨rfl, c, hc, hx⟩
      exact ⟨c, hc, x, hx, rfl, rfl⟩
  · next hcolumn => simp [hcolumn]

lemma assign_eq (e : Str × Literal) : assign schema kind row e =
    (written schema kind e).map fun p => Function.update row p.1 (some p.2) := by
  unfold assign written
  by_cases hcolumn : lower e.1 ∈ schema.columns kind
  · simp only [hcolumn, not_true_eq_false, if_false, if_true]
    cases schema.cell e.2 with
    | none => rfl
    | some c => cases hstore : schema.store kind (lower e.1) c <;> simp [hstore]
  · simp [hcolumn]

/-- A cell that is written under the rest stays only where the rest writes nothing. -/
lemma or_update (ps : List (Str × Cell)) (p : Str × Cell) :
    (fun column => (ps.reverse.lookup column).or (Function.update row p.1 (some p.2) column)) =
      fun column => ((p :: ps).reverse.lookup column).or (row column) := by
  funext column
  rw [List.reverse_cons, List.lookup_append, Option.or_assoc]
  congr 1
  by_cases hcolumn : column = p.1
  · subst hcolumn
    rw [Function.update_self, List.lookup_cons, beq_self_eq_true]
    rfl
  · rw [Function.update_of_ne hcolumn, List.lookup_cons, beq_false_of_ne hcolumn]
    rfl

/-- **The assignments of a statement go through together**, and the last one to a column counts. -/
lemma foldlM_assign {l : List (Str × Literal)} :
    l.foldlM (assign schema kind) row = some row' ↔
      (∀ e ∈ l, ∃ p, written schema kind e = some p) ∧
        assigned schema kind l row = row' := by
  induction l generalizing row with
  | nil =>
    have hnil : assigned schema kind [] row = row := rfl
    simp [hnil]
  | cons e l ih =>
    rw [List.foldlM_cons, assign_eq, List.forall_mem_cons]
    cases hwritten : written schema kind e with
    | none => simp
    | some p =>
      simp only [Option.map_some, Option.bind_eq_bind, Option.bind_some, ih, Option.some.injEq,
        exists_eq', true_and]
      refine and_congr_right fun _ => ?_
      unfold assigned left
      rw [List.filterMap_cons_some hwritten, or_update]

lemma left_eq_some {l : List (Str × Literal)} {column : Str} {x : Cell}
    (h : left schema kind l column = some x) :
    ∃ e ∈ l, lower e.1 = column ∧ column ∈ schema.columns kind ∧
      ∃ c, schema.cell e.2 = some c ∧ schema.store kind column c = some x := by
  have hmem : (column, x) ∈ l.filterMap (written schema kind) := by
    obtain ⟨l₁, l₂, hl, -⟩ := List.lookup_eq_some_iff.mp h
    exact List.mem_reverse.mp (hl ▸ List.mem_append_right l₁ List.mem_cons_self)
  obtain ⟨e, he, hwritten⟩ := List.mem_filterMap.mp hmem
  obtain ⟨hcolumn, hmem, c, hc, hstore⟩ := written_eq_some.mp hwritten
  rw [show lower e.1 = column from hcolumn.symm] at hstore hmem
  exact ⟨e, he, hcolumn.symm, hmem, c, hc, hstore⟩

/-- Nothing is left in a column only if nothing is written there. -/
lemma left_eq_none {l : List (Str × Literal)} (hl : ∀ e ∈ l, ∃ p, written schema kind e = some p)
    {column : Str} (h : left schema kind l column = none) : ∀ e ∈ l, lower e.1 ≠ column := by
  intro e he hcolumn
  obtain ⟨p, hp⟩ := hl e he
  have hmem := List.mem_reverse.mpr (List.mem_filterMap.mpr ⟨e, he, hp⟩)
  have hne := List.lookup_eq_none_iff.mp h p hmem
  rw [(written_eq_some.mp hp).1, hcolumn] at hne
  simp at hne

/-- A column holds what the last assignment to it stores, or what it held. -/
lemma assigned_get {l : List (Str × Literal)}
    (h : l.foldlM (assign schema kind) row = some row') (column : Str) :
    (∃ e ∈ l, lower e.1 = column ∧ ∃ c x, schema.cell e.2 = some c ∧
      schema.store kind column c = some x ∧ row' column = some x) ∨
    ((∀ e ∈ l, lower e.1 ≠ column) ∧ row' column = row column) := by
  obtain ⟨hl, rfl⟩ := foldlM_assign.mp h
  cases hleft : left schema kind l column with
  | some x =>
    obtain ⟨e, he, hcolumn, -, c, hc, hstore⟩ := left_eq_some hleft
    exact .inl ⟨e, he, hcolumn, c, x, hc, hstore, by rw [assigned, hleft, Option.some_or]⟩
  | none => exact .inr ⟨left_eq_none hl hleft, by rw [assigned, hleft, Option.none_or]⟩

lemma assign_isSome {l : List (Str × Literal)} :
    (∃ row', l.foldlM (assign schema kind) row = some row') ↔
      ∀ e ∈ l, ∃ p, written schema kind e = some p := by
  simp only [foldlM_assign, exists_and_left, exists_eq', and_true]

/-- The stamp is the only thing that a statement does to a column it does not name. -/
lemma touch_get (now : Cell) (l : List (Str × Literal)) (row row' : Row) {column : Str}
    (h : column ≠ modifytime) : touch schema kind now l row row' column = row' column := by
  unfold touch
  split
  · exact Function.update_of_ne h _ _
  · rfl

lemma touch_modifytime (now : Cell) (l : List (Str × Literal)) (row row' : Row) :
    touch schema kind now l row row' modifytime = row' modifytime ∨
      touch schema kind now l row row' modifytime = some now := by
  unfold touch
  split
  · exact .inr (Function.update_self _ _ _)
  · exact .inl rfl

lemma touch_id (now : Cell) (l : List (Str × Literal)) (row row' : Row) :
    (touch schema kind now l row row').id = row'.id := by
  rw [Row.id, touch_get now l row row' (by decide), Row.id]

lemma Keyed.update {key : Cell} {row : Row} (hkeyed : Keyed schema kind table)
    (hrow : schema.key kind row.id = key) :
    Keyed schema kind (Function.update table key (some row)) := by
  intro k row' hrow'
  by_cases hk : k = key
  · subst hk
    rw [Function.update_self] at hrow'
    cases hrow'
    exact hrow
  · rw [Function.update_of_ne hk] at hrow'
    exact hkeyed k row' hrow'

lemma Keyed.erase (hkeyed : Keyed schema kind table) (key : Cell) :
    Keyed schema kind (Function.update table key none) := by
  intro k row hrow
  by_cases hk : k = key
  · subst hk
    rw [Function.update_self] at hrow
    cases hrow
  · rw [Function.update_of_ne hk] at hrow
    exact hkeyed k row hrow

lemma put_eq_some : put schema kind table row = some table' ↔
    table (schema.key kind row.id) = none ∧
      Function.update table (schema.key kind row.id) (some row) = table' := by
  unfold put
  split
  · next h =>
    rw [Option.isSome_iff_ne_none] at h
    exact ⟨nofun, fun h' => absurd h'.1 h⟩
  · next h =>
    rw [Option.not_isSome_iff_eq_none] at h
    simp [h]

lemma Indexed.put (hindex : Indexed schema kind table)
    (hid : schema.store kind (lit "id") row.id = some row.id)
    (h : Tables.put schema kind table row = some table') : Indexed schema kind table' := by
  obtain ⟨-, rfl⟩ := put_eq_some.mp h
  intro k row' hrow'
  by_cases hk : k = schema.key kind row.id
  · subst hk
    rw [Function.update_self] at hrow'
    cases hrow'
    exact ⟨rfl, hid⟩
  · rw [Function.update_of_ne hk] at hrow'
    exact hindex k row' hrow'

lemma Indexed.erase (hindex : Indexed schema kind table) (key : Cell) :
    Indexed schema kind (Function.update table key none) := by
  intro k row hrow
  by_cases hk : k = key
  · subst hk
    rw [Function.update_self] at hrow
    cases hrow
  · rw [Function.update_of_ne hk] at hrow
    exact hindex k row hrow

lemma update_eq_some {id : Cell} {setBlock : List (Str × Literal)}
    (hrow : table (schema.key kind id) = some row) :
    update schema kind id setBlock table = some table' ↔
      ∃ row', setBlock.foldlM (assign schema kind) row = some row' ∧
        put schema kind (Function.update table (schema.key kind id) none)
          (touch schema kind (schema.now kind table) setBlock row row') = some table' := by
  unfold update
  simp only [hrow, Option.bind_eq_bind, Option.bind_eq_some_iff]

lemma insert_eq_some {columns : List (Str × Literal)} :
    insert schema kind columns table = some table' ↔
      (columns.map fun e => lower e.1).Nodup ∧ ∃ row,
        columns.foldlM (assign schema kind) (blank schema kind (schema.now kind table)) =
          some row ∧ put schema kind table row = some table' := by
  unfold insert
  by_cases hnodup : (columns.map fun e => lower e.1).Nodup
  · simp [hnodup, Option.bind_eq_some_iff]
  · simp [hnodup]

end rows

/-! ### A server that takes what fits -/

section plain

/-- The columns of a kind and their types, as its attributes have them. -/
def columnType (kind : Kind) (column : Str) : Option String :=
  ((attr_manage_end kind).getD []).find? (fun attr => lit attr.name = column) |>.map (·.type)

/-- A number is rounded, a string is kept, and anything else is refused. -/
def plainStore (kind : Kind) (column : Str) (c : Cell) : Option Cell :=
  match columnType kind column, c with
  | some "number", .num q => some (.num ⌊q + 1 / 2⌋)
  | some "string", .str s => some (.str s)
  | _, _ => none

/-- Strings compare without regard to case. -/
def plainKey : Cell → Cell
  | .str s => .str (lower s)
  | c => c

lemma round_round (q : ℚ) : ⌊((⌊q + 1 / 2⌋ : ℤ) : ℚ) + 1 / 2⌋ = ⌊q + 1 / 2⌋ := by
  rw [Int.floor_intCast_add]
  norm_num

def plainSchema : Schema where
  number s := (parseDecimal s).map Int.cast
  columns kind := modifytime :: ((attr_manage_end kind).getD []).map fun attr => lit attr.name
  store := plainStore
  default _ _ := .null
  key _ := plainKey
  now _ _ := .str (lit "2015-06-01 12:00:00")
  store_store kind c x h := by
    unfold plainStore at h ⊢
    split at h
    · next hcol => cases h; simp only [hcol, round_round]
    · next hcol => cases h; simp only [hcol]
    · cases h
  store_key kind c c' x x' hkey h h' := by
    unfold plainStore at h h'
    split at h
    · cases h
      split at h'
      · cases h'
        rw [Cell.num.inj hkey]
      · cases hkey
      · cases h'
    · cases h
      split at h'
      · cases hkey
      · cases h'
        exact hkey
      · cases h'
    · cases h

/-- Two DSPs, both with status 1 since the year before. -/
def sampleDb : Db := fun kind id =>
  if kind = .dsp ∧ (id = .num 1 ∨ id = .num 2) then
    some fun column =>
      if column = lit "id" then some id
      else if column = lit "status" then some (.num 1)
      else if column = modifytime then some (.str (lit "2014-06-01 12:00:00"))
      else none
  else none

lemma sampleDb_indexed (kind : Kind) : Indexed plainSchema kind (sampleDb kind) := by
  intro k row h
  unfold sampleDb at h
  split at h
  · next hk =>
    cases h
    obtain ⟨rfl, rfl | rfl⟩ := hk <;> decide +kernel
  · cases h

end plain

end Sax.Tables
