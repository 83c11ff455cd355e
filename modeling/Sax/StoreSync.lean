import Sax.ObjectInfo

/-!
Keeping the dictionaries of the workers in step with the database: `center.updateObjectInfo`
writes rows and notifies every worker of their ids.

For an update the workers are sent the ids of the rows, and read the rows back; for a deletion they are
sent the object ids the rows had. So a row whose object id changes leaves its old entry
behind, and rows that share an object id share one entry.
-/

namespace Sax.StoreSync

open Sax.LuaVal Sax.Loop Sax.Const Sax.Runtime Sax.ObjectInfo

/-- An element of the list `content`: the id and the columns to write. -/
structure Content where
  id : Cell
  attrs : List (Str × Cell)

structure Request where
  name : Kind
  content : List Content
  isDelete : Bool

structure State where
  db : Db
  workers : List (Tbl Str)

section center

variable (lib : Ngx) (sql : MySql)

/-- `checkExist` on the rows of the table. -/
def checkExist (rows : List Row) (content : Content) : Bool :=
  rows.any fun row => sql.eq content.id (row.col "id")

/-- `db.updateInfo`; a statement that sets nothing cannot be written. -/
def updateInfo (rows : List Row) (content : Content) : Lua (List Row) :=
  if content.attrs = [] then .error .badConcat
  else rows.mapM fun row =>
    if sql.eq content.id (row.col "id") then sql.update content.attrs row else .ok row

/-- `db.insertInfo` -/
def insertInfo (rows : List Row) (content : Content) : Lua (List Row) := do
  let row ← sql.insert content.id content.attrs
  if rows.any fun r => sql.eq (row.col "id") (r.col "id") then throw (.error "duplicate entry")
  return rows ++ [row]

/-- The loop of `updateInfoDB`, with the flags `_isExist` set before it. -/
def updateInfoDB (rows : List Row) (contentList : List Content) : Lua (List Row) :=
  (contentList.map fun content => (content, checkExist sql rows content)).foldlM
    (fun rows e => if e.2 then updateInfo sql rows e.1 else insertInfo sql rows e.1) rows

/-- `getObjectId`: creatives and advertisers are looked up, the others go by their database id. -/
def getObjectId (kind : Kind) (rows : List Row) (id : Cell) : Lua (Option Str) := do
  let text ← id.text lib
  match kind.glued with
  | none => return some text
  | some (a, b) =>
    match ← getInfoDB lib sql kind rows text with
    | none => return none
    | some row => return some ((← (row.col a).text lib) ++ (← (row.col b).text lib))

/-- One round of `deleteInfoDB`: the object id is taken before the row goes. -/
def deleteInfo (kind : Kind) (s : List Row × List Str) (content : Content) :
    Lua (List Row × List Str) := do
  let objectId ← getObjectId lib sql kind s.1 content.id
  return (s.1.filter fun row => !sql.eq content.id (row.col "id"), s.2 ++ objectId.toList)

/-- The rows of the table afterwards, and the ids to notify. -/
def writeDB (rows : List Row) (req : Request) : Lua (List Row × List Str) := do
  if req.isDelete then
    if req.content.all (checkExist sql rows) then
      req.content.foldlM (deleteInfo lib sql req.name) (rows, [])
    else throw (.error "not exists")
  else
    let rows ← updateInfoDB sql rows req.content
    return (rows, ← req.content.mapM fun content => content.id.text lib)

/-- `center.updateObjectInfo` as far as it answers OK and every worker answers 200; anything
else is an error here. Publishers have no table of their own to look in. -/
def updateObjectInfo (req : Request) (s : State) : Lua State := do
  if req.name = .publisher ∨ req.content = [] then throw (.error "FAIL")
  let (rows, ids) ← writeDB lib sql (s.db req.name) req
  let workers ← s.workers.mapM
    (ObjectInfo.updateObjectInfo lib sql req.name rows req.isDelete
      (lib.form_value (concat comma ids)))
  return ⟨Function.update s.db req.name rows, workers⟩

/-- The state once every worker has been started. -/
def init (o : Order) (db : Db) (n : ℕ) : Lua State :=
  return ⟨db, List.replicate n (← initObjectInfo lib o db)⟩

/-! ### What should hold -/

/-- No two of the rows have one object id. -/
def Apart (kind : Kind) (rows : List Row) : Prop :=
  ∀ row ∈ rows, ∀ row' ∈ rows, ∀ k v v', entry lib kind row = .ok (k, v) →
    entry lib kind row' = .ok (k, v') → row = row'

/-- The entries of the dictionary are the images of the rows, one for each. -/
structure Image (db : Db) (dict : Tbl Str) : Prop where
  holds : ∀ kind, ∀ row ∈ db kind.table, ∃ k v, entry lib kind row = .ok (k, v) ∧ dict.get k = some v
  only : ∀ k v, dict.get k = some v → ∃ kind, ∃ row ∈ db kind.table, entry lib kind row = .ok (k, v)
  apart : ∀ kind : Kind, Apart lib kind (db kind.table)

end center

/-! ### Object ids -/

section entry

variable {lib : Ngx} {kind : Kind} {row : Row} {k v : Str}

lemma sharedDictPre_length (kind : Kind) : kind.sharedDictPre.length = 1 := by
  cases kind <;> decide

lemma sharedDictPre_inj {a b : Kind} (h : a.sharedDictPre = b.sharedDictPre) : a = b := by
  revert h
  cases a <;> cases b <;> decide

/-- A key tells its kind. -/
lemma key_inj {a b : Kind} {s t : Str} (h : a.sharedDictPre ++ s = b.sharedDictPre ++ t) :
    a = b ∧ s = t := by
  obtain ⟨hpre, ht⟩ := List.append_inj h (by rw [sharedDictPre_length, sharedDictPre_length])
  exact ⟨sharedDictPre_inj hpre, ht⟩

/-- The type of the attribute `id`. -/
def idType : Kind → DataType
  | .adunit | .creative | .advertiser => .string
  | _ => .number

lemma transformAttr_id {id : Cell} {value : ℕ × Option Val} {t : Str}
    (hid : id = .str t ∧ idType kind = .string ∨ ∃ q, id = .num q ∧ t = lib.tostring q)
    (h : transformAttr lib kind ("id", id) = .ok value) :
    ∃ w, value = (1, some w) ∧ (w = .str t ∨ ∃ q, w = .num q ∧ t = lib.tostring q) := by
  have hattr : kind.attr_mem.find? (fun attr => attr.name = "id") =
      some ⟨"id", 1, idType kind, false, none, none⟩ := by
    cases kind <;> rfl
  simp only [transformAttr, hattr] at h
  rcases hid with ⟨rfl, htype⟩ | ⟨q, rfl, rfl⟩
  · cases t with
    | nil =>
      cases h
      exact ⟨_, rfl, .inl rfl⟩
    | cons c t =>
      simp only [htype, convert] at h
      cases h
      exact ⟨_, rfl, .inl rfl⟩
  · cases hkind : idType kind with
    | number =>
      simp only [hkind, convert, tonumber] at h
      cases h
      exact ⟨_, rfl, .inr ⟨q, rfl, rfl⟩⟩
    | string =>
      simp only [hkind, convert] at h
      cases h
      exact ⟨_, rfl, .inl rfl⟩
    | table =>
      exfalso
      cases kind <;> cases hkind

/-- An object lies under the text of the first attribute. -/
lemma key_of_first {id : Cell} {info : List (String × Cell)} {t : Str}
    (hsel : select lib kind row = .ok (("id", id) :: info))
    (hid : id = .str t ∧ idType kind = .string ∨ ∃ q, id = .num q ∧ t = lib.tostring q)
    (h : entry lib kind row = .ok (k, v)) : k = kind.sharedDictPre ++ t := by
  obtain ⟨info', hinfo', h⟩ := bind_ok.mp h
  rw [hsel] at hinfo'
  cases hinfo'
  obtain ⟨value, hvalue, h⟩ := bind_ok.mp h
  obtain ⟨result, hresult, hvalue⟩ := bind_ok.mp hvalue
  obtain ⟨first, hfirst, rest, -, rfl⟩ := mapM_cons_ok.mp hresult
  obtain ⟨w, rfl, hw⟩ := transformAttr_id hid hfirst
  have hhead : value.head? = some w := by
    cases hvalue
    simp [List.head?_range]
  obtain ⟨text, -, h⟩ := bind_ok.mp h
  rw [hhead] at h
  rcases hw with rfl | ⟨q, rfl, rfl⟩ <;> · cases h; rfl

/-- A row of any other kind lies under the text of its column `id`. -/
lemma key_of_id {id : Cell} {t : Str} (hglued : kind.glued = none) (hrow : row.col "id" = id)
    (hid : id = .str t ∧ idType kind = .string ∨ ∃ q, id = .num q ∧ t = lib.tostring q)
    (h : entry lib kind row = .ok (k, v)) : k = kind.sharedDictPre ++ t := by
  have hsel : select lib kind row =
      .ok (("id", id) :: (kind.columns.map fun e => (e.1, row.col e.2)).tail) := by
    subst hrow
    cases kind <;> first | rfl | cases hglued
  exact key_of_first hsel hid h

/-- A creative or an advertiser lies under its two columns. -/
lemma key_of_glued {a b : String} {s t : Str} (hglued : kind.glued = some (a, b))
    (ha : (row.col a).text lib = .ok s) (hb : (row.col b).text lib = .ok t)
    (h : entry lib kind row = .ok (k, v)) : k = kind.sharedDictPre ++ (s ++ t) := by
  have hsel : select lib kind row =
      .ok (("id", .str (s ++ t)) :: kind.columns.map fun e => (e.1, row.col e.2)) := by
    simp only [select, hglued, ha, hb]
    rfl
  have htype : idType kind = .string := by
    cases kind <;> first | rfl | cases hglued
  exact key_of_first hsel (.inl ⟨rfl, htype⟩) h

end entry

/-! ### The condition -/

/-- A text that survives the way to a worker and into a statement there. -/
def Clean (t : Str) : Prop := ∀ c ∈ t, c ∉ lit ",&%+" ∧ c ≠ 39 ∧ c ≠ 92

/-- An id as the table has them: a clean text for an ad unit, an integer for the others. -/
def Named (kind : Kind) (id : Cell) : Prop :=
  if kind = .adunit then ∃ s, id = .str s ∧ Clean s
  else ∃ n : ℤ, id = .num n ∧ n.natAbs < 10 ^ 14

/-- What a request must not do: name an id other than the row does, write the column `id`, or
have an id that does not survive the way; change an object id, or give one row another's. -/
structure Fits (lib : Ngx) (sql : MySql) (db : Db) (req : Request) : Prop where
  named : ∀ c ∈ req.content, Named req.name c.id
  addressed : ∀ c ∈ req.content, ∀ row ∈ db req.name, sql.eq c.id (row.col "id") →
    row.col "id" = c.id
  unwritten : req.isDelete = false → ∀ c ∈ req.content, ∀ a ∈ c.attrs, lower a.1 ≠ lit "id"
  inserted : ∀ c ∈ req.content, checkExist sql (db req.name) c = false →
    ∀ row, sql.insert c.id c.attrs = .ok row → row.col "id" = c.id
  clean : req.isDelete → ∀ row ∈ db req.name, (∃ c ∈ req.content, sql.eq c.id (row.col "id")) →
    ∀ k v, entry lib req.name row = .ok (k, v) → Clean k
  kept : ∀ rows ids, writeDB lib sql (db req.name) req = .ok (rows, ids) →
    ∀ kind : Kind, kind.table = req.name → ∀ row ∈ db req.name, ∀ row' ∈ rows,
      row'.col "id" = row.col "id" → ∀ k v k' v', entry lib kind row = .ok (k, v) →
        entry lib kind row' = .ok (k', v') → k' = k
  apart : ∀ rows ids, writeDB lib sql (db req.name) req = .ok (rows, ids) →
    ∀ kind : Kind, kind.table = req.name → Apart lib kind rows

/-- The primary key of every table. -/
def Keyed (db : Db) : Prop := ∀ kind, ((db kind).map fun row => row.col "id").Nodup

/-- The runs from freshly built dictionaries in which every request fits. -/
inductive Run (lib : Ngx) (sql : MySql) : State → Prop
  | init {o : Order} {db : Db} {n : ℕ} {s : State} : Keyed db →
      (∀ kind : Kind, Apart lib kind (db kind.table)) → init lib o db n = .ok s → Run lib sql s
  | step {req : Request} {s s' : State} : Run lib sql s → Fits lib sql s.db req →
      updateObjectInfo lib sql req s = .ok s' → Run lib sql s'

section named

variable {lib : Ngx} {kind : Kind} {id : Cell}

lemma decimalNat_clean (n : ℕ) : Clean (decimalNat n) := by
  intro c hc
  have hdigit := decimalNat_isDigit hc
  simp only [isDigit, decide_eq_true_eq] at hdigit
  refine ⟨fun hmem => ?_, ?_, ?_⟩
  · have hlit : lit ",&%+" = [44, 38, 37, 43] := by decide
    rw [hlit] at hmem
    simp only [List.mem_cons, List.not_mem_nil, or_false] at hmem
    rcases hmem with rfl | rfl | rfl | rfl <;> revert hdigit <;> decide
  · rintro rfl
    revert hdigit
    decide
  · rintro rfl
    revert hdigit
    decide

lemma decimal_clean (n : ℤ) : Clean (decimal n) := by
  unfold decimal
  split
  · intro c hc
    rcases List.mem_append.mp hc with hc | hc
    · have hlit : lit "-" = [45] := by decide
      rw [hlit, List.mem_singleton] at hc
      subst hc
      decide
    · exact decimalNat_clean _ c hc
  · exact decimalNat_clean _

variable (lib) in
/-- An id of the right kind travels as a clean text that reads back as the id. -/
lemma Named.text (h : Named kind id) : ∃ t, id.text lib = .ok t ∧ Clean t ∧
    literal lib kind t = .ok id ∧ id ≠ .null ∧
      (id = .str t ∧ idType kind = .string ∨ ∃ q, id = .num q ∧ t = lib.tostring q) := by
  unfold Named at h
  split at h
  · next hkind =>
    obtain ⟨s, rfl, hs⟩ := h
    have hquote : ¬ (39 ∈ s ∨ 92 ∈ s) := by
      rintro (hc | hc)
      · exact (hs _ hc).2.1 rfl
      · exact (hs _ hc).2.2 rfl
    exact ⟨s, rfl, hs, by rw [literal, if_pos hkind, if_neg hquote], nofun, .inl ⟨rfl, by rw [hkind]; rfl⟩⟩
  · next hkind =>
    obtain ⟨n, rfl, hn⟩ := h
    have hprint := lib.tostring_int n hn
    have hread := lib.tonumber_int _ _ (parseDecimal_decimal n) hn
    refine ⟨decimal n, by rw [Cell.text, hprint], decimal_clean n, ?_, nofun, .inr ⟨n, rfl, hprint.symm⟩⟩
    rw [literal, if_neg hkind, hread]

/-- Clean ids arrive as they were sent. -/
lemma split_form {ids : List Str} (h : ∀ t ∈ ids, Clean t) (hne : ids ≠ []) :
    split comma (lib.form_value (concat comma ids)) = ids := by
  have hcomma : comma ∈ lit ",&%+" := by decide
  rw [lib.form_value_plain]
  · exact split_concat (fun t ht hc => (h t ht _ hc).1 hcomma) hne
  · intro c hc hmem
    rcases mem_concat hc with rfl | ⟨t, ht, hct⟩
    · revert hmem
      decide
    · refine (h t ht c hct).1 ?_
      have hsub : ∀ c ∈ lit "&%+", c ∈ lit ",&%+" := by decide +kernel
      exact hsub c hmem

end named

/-! ### The rows a request leaves -/

section rows

variable {lib : Ngx} {sql : MySql} {db : Db} {req : Request} {rows : List Row}

lemma updateInfo_ok {c : Content} {rows' : List Row} (hattrs : ∀ a ∈ c.attrs, lower a.1 ≠ lit "id")
    (h : updateInfo sql rows c = .ok rows') :
    rows'.map (fun row => row.col "id") = rows.map (fun row => row.col "id") ∧
      ∀ row' ∈ rows', row' ∈ rows ∨
        ∃ row ∈ rows, sql.eq c.id (row.col "id") ∧ row'.col "id" = row.col "id" := by
  unfold updateInfo at h
  split at h
  · cases h
  · constructor
    · refine mapM_map_eq (fun row row' hrow => ?_) h
      split at hrow
      · exact sql.update_id _ _ _ hattrs hrow
      · cases hrow
        rfl
    · intro row' hrow'
      obtain ⟨row, hrow, hupdate⟩ := mapM_mem h hrow'
      split at hupdate
      · next heq => exact .inr ⟨row, hrow, heq, sql.update_id _ _ _ hattrs hupdate⟩
      · cases hupdate
        exact .inl hrow

lemma insertInfo_ok {c : Content} {rows' : List Row} (h : insertInfo sql rows c = .ok rows') :
    ∃ row, sql.insert c.id c.attrs = .ok row ∧ rows' = rows ++ [row] ∧
      ∀ r ∈ rows, ¬ sql.eq (row.col "id") (r.col "id") := by
  obtain ⟨row, hrow, h⟩ := bind_ok.mp h
  refine ⟨row, hrow, ?_⟩
  by_cases hdup : rows.any fun r => sql.eq (row.col "id") (r.col "id")
  · simp [hdup] at h
    cases h
  · simp only [hdup, Bool.false_eq_true, if_false] at h
    cases h
    simp only [List.any_eq_true, not_exists, not_and] at hdup
    exact ⟨rfl, hdup⟩

/-- What the rows have been through on the way from `rows₀`: a row is as it was or has the id of an
element of the list, and no row is gone. -/
structure Written (content : List Content) (rows₀ rows : List Row) : Prop where
  nodup : (rows.map fun row => row.col "id").Nodup
  touched : ∀ row ∈ rows, row ∈ rows₀ ∨ ∃ c ∈ content, row.col "id" = c.id
  still : ∀ row ∈ rows₀, ∃ row' ∈ rows, row'.col "id" = row.col "id"

lemma Written.update {content : List Content} {rows₀ rows' : List Row} {c : Content}
    (h : Written content rows₀ rows) (hc : c ∈ content)
    (hattrs : ∀ a ∈ c.attrs, lower a.1 ≠ lit "id")
    (haddr : ∀ row ∈ rows₀, sql.eq c.id (row.col "id") → row.col "id" = c.id)
    (hupdate : updateInfo sql rows c = .ok rows') : Written content rows₀ rows' := by
  obtain ⟨hids, hrows⟩ := updateInfo_ok hattrs hupdate
  refine ⟨hids ▸ h.nodup, fun row' hrow' => ?_, fun row hrow => ?_⟩
  · rcases hrows row' hrow' with hrow' | ⟨row, hrow, heq, hid⟩
    · exact h.touched row' hrow'
    · rw [hid]
      rcases h.touched row hrow with hrow₀ | htouched
      · exact .inr ⟨c, hc, haddr row hrow₀ heq⟩
      · exact .inr htouched
  · obtain ⟨row', hrow', hid⟩ := h.still row hrow
    have hmem : row.col "id" ∈ rows'.map fun row => row.col "id" := by
      rw [hids]
      exact List.mem_map.mpr ⟨row', hrow', hid⟩
    exact List.mem_map.mp hmem

lemma Written.insert {content : List Content} {rows₀ rows' : List Row} {c : Content}
    (h : Written content rows₀ rows) (hc : c ∈ content) (hnull : c.id ≠ .null)
    (hinserted : ∀ row, sql.insert c.id c.attrs = .ok row → row.col "id" = c.id)
    (hinsert : insertInfo sql rows c = .ok rows') : Written content rows₀ rows' := by
  obtain ⟨row, hrow, rfl, hdup⟩ := insertInfo_ok hinsert
  have hid := hinserted row hrow
  refine ⟨?_, fun row' hrow' => ?_, fun row₀ hrow₀ => ?_⟩
  · rw [List.map_append, List.nodup_append]
    refine ⟨h.nodup, by simp, ?_⟩
    rintro a ha _ hb rfl
    obtain ⟨r, hr, rfl⟩ := List.mem_map.mp ha
    have heq : r.col "id" = row.col "id" := by simpa using hb
    refine hdup r hr ?_
    rw [heq]
    exact sql.eq_refl _ (hid ▸ hnull)
  · rcases List.mem_append.mp hrow' with hrow' | hrow'
    · exact h.touched row' hrow'
    · rw [List.mem_singleton.mp hrow']
      exact .inr ⟨c, hc, hid⟩
  · obtain ⟨row', hrow', hid'⟩ := h.still row₀ hrow₀
    exact ⟨row', List.mem_append_left _ hrow', hid'⟩

/-- An update or an insert of each element in turn. -/
lemma updateInfoDB_written (hkeyed : Keyed db) (hfits : Fits lib sql db req)
    (hupd : req.isDelete = false) (h : updateInfoDB sql (db req.name) req.content = .ok rows) :
    Written req.content (db req.name) rows := by
  refine foldlM_inv (P := Written req.content (db req.name)) ?_
    ⟨hkeyed _, fun row hrow => .inl hrow, fun row hrow => ⟨row, hrow, rfl⟩⟩ h
  rintro s e s' he hs hstep
  obtain ⟨c, hc, rfl⟩ := List.mem_map.mp he
  by_cases hexist : checkExist sql (db req.name) c
  · simp only [hexist, if_true] at hstep
    exact hs.update hc (hfits.unwritten hupd c hc) (hfits.addressed c hc) hstep
  · simp only [hexist, Bool.false_eq_true, if_false] at hstep
    obtain ⟨t, -, -, -, hnull, -⟩ := (hfits.named c hc).text lib
    exact hs.insert hc hnull (hfits.inserted c hc (by simpa using hexist)) hstep

/-- The text names the object of the row, whatever kinds read the table. -/
def Names (lib : Ngx) (table : Kind) (row : Row) (t : Str) : Prop :=
  ∀ kind : Kind, kind.table = table → ∀ k v, entry lib kind row = .ok (k, v) →
    k = kind.sharedDictPre ++ t

/-- How far a deletion has come: the rows of the elements done are gone, and the ids collected are
the object ids of these rows. -/
structure Deleted (lib : Ngx) (sql : MySql) (table : Kind) (rows₀ : List Row) (done : List Content)
    (s : List Row × List Str) : Prop where
  rows : ∀ row, row ∈ s.1 ↔ row ∈ rows₀ ∧ ∀ c ∈ done, ¬ sql.eq c.id (row.col "id")
  sublist : s.1.Sublist rows₀
  named : ∀ t ∈ s.2, ∃ row ∈ rows₀, (∃ c ∈ done, sql.eq c.id (row.col "id")) ∧ Names lib table row t
  complete : ∀ row ∈ rows₀, (∃ c ∈ done, sql.eq c.id (row.col "id")) →
    ∃ t ∈ s.2, Names lib table row t

lemma glued_table {kind table : Kind} (h : kind.table = table) (hne : table ≠ .publisher)
    (hglued : table.glued ≠ none) : kind = table := by
  subst h
  revert hne hglued
  cases kind <;> decide

lemma glued_of_table {kind : Kind} (h : kind.table.glued = none) : kind.glued = none := by
  revert h
  cases kind <;> decide

lemma idType_table (kind : Kind) : idType kind = idType kind.table := by
  cases kind <;> rfl

/-- The one row of a table that has an id. -/
lemma eq_singleton {l : List Row} {row : Row} (hnodup : (l.map fun row => row.col "id").Nodup)
    (hid : ∀ r ∈ l, r.col "id" = row.col "id") (hrow : row ∈ l) : l = [row] := by
  cases l with
  | nil => cases hrow
  | cons r l =>
    have hl : l = [] := by
      rw [List.map_cons, List.nodup_cons] at hnodup
      refine List.eq_nil_iff_forall_not_mem.mpr fun r' hr' => hnodup.1 ?_
      rw [hid r List.mem_cons_self, ← hid r' (List.mem_cons_of_mem _ hr')]
      exact List.mem_map.mpr ⟨r', hr', rfl⟩
    subst hl
    rw [List.mem_singleton.mp hrow]

/-- The row found by the text of an id is the only one that has it. -/
lemma getInfoDB_ok {name : Kind} {rows : List Row} {t : Str} {id : Cell} {found : Option Row}
    (hlit : literal lib name t = .ok id)
    (hsame : ∀ row ∈ rows, sql.eq id (row.col "id") → row.col "id" = id)
    (hnodup : (rows.map fun row => row.col "id").Nodup)
    (h : getInfoDB lib sql name rows t = .ok found) (row : Row) :
    found = some row ↔ row ∈ rows ∧ sql.eq id (row.col "id") := by
  have hlist : getInfoListDB lib sql name rows [t] =
      .ok (rows.filter fun row => sql.eq id (row.col "id")) := by
    simp [getInfoListDB, hlit]
  simp only [getInfoDB, hlist, ok_bind] at h
  constructor
  · rintro rfl
    have hfilter : rows.filter (fun row => sql.eq id (row.col "id")) = [row] := by
      split at h
      · next heq => cases h; exact heq
      · cases h
    have hmem : row ∈ rows.filter fun row => sql.eq id (row.col "id") := by simp [hfilter]
    exact List.mem_filter.mp hmem
  · rintro ⟨hrow, heq⟩
    have hone : rows.filter (fun row => sql.eq id (row.col "id")) = [row] := by
      refine eq_singleton ?_ (fun r hr => ?_) (List.mem_filter.mpr ⟨hrow, heq⟩)
      · exact hnodup.sublist (List.filter_sublist.map _)
      · obtain ⟨hr, hreq⟩ := List.mem_filter.mp hr
        rw [hsame r hr hreq, hsame row hrow heq]
    rw [hone] at h
    cases h
    rfl

/-- The object id that is looked up for an element, and the row that has it. -/
lemma getObjectId_ok {s : List Row × List Str} {done : List Content} {c : Content}
    {objectId : Option Str} (hkeyed : Keyed db) (hfits : Fits lib sql db req)
    (hpub : req.name ≠ .publisher) (hc : c ∈ req.content)
    (hexist : checkExist sql (db req.name) c) (hs : Deleted lib sql req.name (db req.name) done s)
    (h : getObjectId lib sql req.name s.1 c.id = .ok objectId) :
    (∀ t ∈ objectId, ∃ row ∈ db req.name, sql.eq c.id (row.col "id") ∧ Names lib req.name row t) ∧
      ∀ row ∈ s.1, sql.eq c.id (row.col "id") → ∃ t ∈ objectId, Names lib req.name row t := by
  obtain ⟨t, ht, -, hlit, -, hid⟩ := (hfits.named c hc).text lib
  have haddr := hfits.addressed c hc
  have hmem : ∀ row ∈ s.1, row ∈ db req.name := fun row hrow => ((hs.rows row).mp hrow).1
  obtain ⟨text, htext, h⟩ := bind_ok.mp h
  rw [ht] at htext
  cases htext
  cases hglued : req.name.glued with
  | none =>
    simp only [hglued] at h
    cases h
    have hnames : ∀ row ∈ db req.name, sql.eq c.id (row.col "id") → Names lib req.name row t := by
      intro row hrow heq kind hkind k v hentry
      refine key_of_id (glued_of_table (hkind ▸ hglued)) (haddr row hrow heq) ?_ hentry
      rw [idType_table, hkind]
      exact hid
    refine ⟨fun t' ht' => ?_, fun row hrow heq => ⟨t, rfl, hnames row (hmem row hrow) heq⟩⟩
    cases ht'
    obtain ⟨row, hrow, heq⟩ := List.any_eq_true.mp hexist
    exact ⟨row, hrow, heq, hnames row hrow heq⟩
  | some ab =>
    simp only [hglued] at h
    obtain ⟨found, hfound, h⟩ := bind_ok.mp h
    have hrows := getInfoDB_ok hlit (fun row hrow => haddr row (hmem row hrow))
      ((hkeyed req.name).sublist (hs.sublist.map _)) hfound
    cases found with
    | none =>
      cases h
      refine ⟨fun t' ht' => (by cases ht'), fun row hrow heq => ?_⟩
      cases (hrows row).mpr ⟨hrow, heq⟩
    | some row =>
      obtain ⟨hrow, heq⟩ := (hrows row).mp rfl
      obtain ⟨a, ha, h⟩ := bind_ok.mp h
      obtain ⟨b, hb, h⟩ := bind_ok.mp h
      cases h
      have hnames : Names lib req.name row (a ++ b) := by
        intro kind hkind k v hentry
        have hsame := glued_table hkind hpub (by simp [hglued])
        subst hsame
        exact key_of_glued hglued ha hb hentry
      refine ⟨fun t' ht' => ?_, fun row' hrow' heq' => ⟨_, rfl, ?_⟩⟩
      · cases ht'
        exact ⟨row, hmem row hrow, heq, hnames⟩
      · cases (hrows row').mpr ⟨hrow', heq'⟩
        exact hnames

/-- A deletion of each element in turn. -/
lemma deleteInfoDB_deleted {s : List Row × List Str} (hkeyed : Keyed db)
    (hfits : Fits lib sql db req) (hpub : req.name ≠ .publisher)
    (hexist : ∀ c ∈ req.content, checkExist sql (db req.name) c)
    (h : req.content.foldlM (deleteInfo lib sql req.name) (db req.name, []) = .ok s) :
    Deleted lib sql req.name (db req.name) req.content s := by
  refine foldlM_prefix (P := Deleted lib sql req.name (db req.name)) (d := []) ?_ ?_ h
  · intro done c s s' hc hs hstep
    obtain ⟨objectId, hobj, hstep⟩ := bind_ok.mp hstep
    cases hstep
    obtain ⟨hnamed, hcomplete⟩ := getObjectId_ok hkeyed hfits hpub hc (hexist c hc) hs hobj
    refine ⟨fun row => ?_, List.filter_sublist.trans hs.sublist, fun t ht => ?_, fun row hrow hdone => ?_⟩
    · rw [List.mem_filter, hs.rows row]
      simp only [List.mem_append, List.mem_singleton, or_imp, forall_and, forall_eq,
        Bool.not_eq_true', Bool.not_eq_true, and_assoc]
    · rcases List.mem_append.mp ht with ht | ht
      · obtain ⟨row, hrow, ⟨c', hc', heq⟩, hnames⟩ := hs.named t ht
        exact ⟨row, hrow, ⟨c', List.mem_append_left _ hc', heq⟩, hnames⟩
      · obtain ⟨row, hrow, heq, hnames⟩ := hnamed t (Option.mem_toList.mp ht)
        exact ⟨row, hrow, ⟨c, by simp, heq⟩, hnames⟩
    · by_cases hearlier : ∃ c ∈ done, sql.eq c.id (row.col "id")
      · obtain ⟨t, ht, hnames⟩ := hs.complete row hrow hearlier
        exact ⟨t, List.mem_append_left _ ht, hnames⟩
      · obtain ⟨c', hc', heq⟩ := hdone
        have hsame : c' = c := by
          rcases List.mem_append.mp hc' with hc' | hc'
          · exact absurd ⟨c', hc', heq⟩ hearlier
          · exact List.mem_singleton.mp hc'
        subst hsame
        have hleft : row ∈ s.1 := (hs.rows row).mpr ⟨hrow, fun c hc heq => hearlier ⟨c, hc, heq⟩⟩
        obtain ⟨t, ht, hnames⟩ := hcomplete row hleft heq
        exact ⟨t, List.mem_append_right _ (Option.mem_toList.mpr ht), hnames⟩
  · exact ⟨fun row => by simp, .refl _, fun t ht => by simp at ht, fun row _ h => by simp at h⟩

end rows

/-! ### What a worker does -/

section worker

variable {lib : Ngx} {sql : MySql} {kind table : Kind} {rows : List Row} {ids : List Str}
  {dict dict' : Tbl Str}

lemma literal_table (t : Str) : literal lib kind t = literal lib kind.table t := by
  cases kind <;> rfl

lemma kind_of_table (h : kind.table = table) (hpub : table ≠ .publisher) :
    kind = table ∨ table.virtualObject = some kind := by
  subst h
  revert hpub
  cases kind <;> decide

lemma table_virtual (h : table.virtualObject = some kind) : kind.table = table := by
  revert h
  cases table <;> cases kind <;> decide

lemma table_self (hpub : table ≠ .publisher) : table.table = table := by
  revert hpub
  cases table <;> decide

lemma getInfoListDB_ok {found : List Row} (h : getInfoListDB lib sql kind rows ids = .ok found) :
    (∀ row ∈ found, row ∈ rows) ∧ ∀ t ∈ ids, ∀ id, literal lib kind t = .ok id →
      ∀ row ∈ rows, sql.eq id (row.col "id") → row ∈ found := by
  obtain ⟨literals, hlits, h⟩ := bind_ok.mp h
  cases h
  refine ⟨fun row hrow => (List.mem_filter.mp hrow).1, fun t ht id hid row hrow heq => ?_⟩
  obtain ⟨id', hid', hlit⟩ := mem_mapM hlits ht
  rw [hid] at hlit
  cases hlit
  exact List.mem_filter.mpr ⟨hrow, List.any_eq_true.mpr ⟨id, hid', heq⟩⟩

/-- The entries an update puts are those of the rows it finds. -/
lemma updateInfoListSD_ok (h : updateInfoListSD lib sql kind rows ids dict = .ok dict') :
    ∃ found l, getInfoListDB lib sql kind rows ids = .ok found ∧
      found.mapM (entry lib kind) = .ok l ∧ dict' = dict.putAll l := by
  unfold updateInfoListSD at h
  split at h
  · next id =>
    obtain ⟨found, hfound, h⟩ := bind_ok.mp h
    cases found with
    | none => cases h
    | some row =>
      obtain ⟨rows', hrows', hfound⟩ := bind_ok.mp hfound
      obtain ⟨l, hl, h⟩ := bind_ok.mp h
      cases h
      split at hfound
      · cases hfound
        exact ⟨_, l, hrows', hl, rfl⟩
      · cases hfound
  · obtain ⟨found, hfound, h⟩ := bind_ok.mp h
    obtain ⟨l, hl, h⟩ := bind_ok.mp h
    cases h
    exact ⟨found, l, hfound, hl, rfl⟩

/-- Entries of rows of the table, with one of each row that has the id of an element. -/
structure Fresh (lib : Ngx) (content : List Content) (rows : List Row) (kind : Kind)
    (l : List (Str × Str)) : Prop where
  sound : ∀ e ∈ l, ∃ row ∈ rows, entry lib kind row = .ok e
  complete : ∀ row ∈ rows, (∃ c ∈ content, row.col "id" = c.id) → ∃ e ∈ l, entry lib kind row = .ok e

lemma updateInfoListSD_fresh {content : List Content} (hkind : kind.table = table)
    (hnamed : ∀ c ∈ content, Named table c.id)
    (hids : content.mapM (fun c => c.id.text lib) = .ok ids)
    (h : updateInfoListSD lib sql kind rows ids dict = .ok dict') :
    ∃ l, dict' = dict.putAll l ∧ Fresh lib content rows kind l := by
  obtain ⟨found, l, hfound, hl, rfl⟩ := updateInfoListSD_ok h
  obtain ⟨hsub, hfind⟩ := getInfoListDB_ok hfound
  refine ⟨l, rfl, fun e he => ?_, ?_⟩
  · obtain ⟨row, hrow, hentry⟩ := mapM_mem hl he
    exact ⟨row, hsub row hrow, hentry⟩
  · rintro row hrow ⟨c, hc, hid⟩
    obtain ⟨t, ht, htext⟩ := mem_mapM hids hc
    obtain ⟨t', ht', -, hlit, hnull, -⟩ := (hnamed c hc).text lib
    rw [ht', Except.ok.injEq] at htext
    subst htext
    refine mem_mapM hl (hfind t' ht c.id ?_ row hrow ?_)
    · rw [literal_table, hkind]
      exact hlit
    · rw [hid]
      exact sql.eq_refl _ hnull

/-- The table's own kind is handled first, then the virtual one. -/
lemma worker_ok {isDelete : Bool} {body : Str}
    (h : ObjectInfo.updateObjectInfo lib sql table rows isDelete body dict = .ok dict') :
    body ≠ [] ∧ ∃ dict₁, handleSD lib sql table rows isDelete (split comma body) dict = .ok dict₁ ∧
      (match table.virtualObject with
        | none => Except.ok dict₁
        | some kind => handleSD lib sql kind rows isDelete (split comma body) dict₁) = .ok dict' := by
  by_cases hbody : body = []
  · simp only [ObjectInfo.updateObjectInfo, hbody, if_true] at h
    cases h
  · simp only [ObjectInfo.updateObjectInfo, hbody, if_false] at h
    obtain ⟨dict₁, h₁, h⟩ := bind_ok.mp h
    refine ⟨hbody, dict₁, h₁, ?_⟩
    cases hv : table.virtualObject <;> simpa [hv] using h

lemma worker_update {content : List Content} {body : Str} (hpub : table ≠ .publisher)
    (hnamed : ∀ c ∈ content, Named table c.id)
    (hids : content.mapM (fun c => c.id.text lib) = .ok ids) (hbody : split comma body = ids)
    (h : ObjectInfo.updateObjectInfo lib sql table rows false body dict = .ok dict') :
    ∃ l, dict' = dict.putAll l ∧
      (∀ e ∈ l, ∃ kind : Kind, kind.table = table ∧ ∃ row ∈ rows, entry lib kind row = .ok e) ∧
      ∀ kind : Kind, kind.table = table → ∀ row ∈ rows, (∃ c ∈ content, row.col "id" = c.id) →
        ∃ e ∈ l, entry lib kind row = .ok e := by
  obtain ⟨-, dict₁, h₁, h⟩ := worker_ok h
  rw [hbody] at h₁ h
  obtain ⟨l₁, rfl, hl₁⟩ := updateInfoListSD_fresh (table_self hpub) hnamed hids h₁
  cases hvirtual : table.virtualObject with
  | none =>
    simp only [hvirtual] at h
    cases h
    refine ⟨l₁, rfl, fun e he => ⟨table, table_self hpub, hl₁.sound e he⟩, fun kind hkind => ?_⟩
    rcases kind_of_table hkind hpub with rfl | hv
    · exact hl₁.complete
    · rw [hvirtual] at hv
      cases hv
  | some v =>
    simp only [hvirtual] at h
    obtain ⟨l₂, rfl, hl₂⟩ := updateInfoListSD_fresh (table_virtual hvirtual) hnamed hids h
    refine ⟨l₁ ++ l₂, (Tbl.putAll_append _ _ _).symm, fun e he => ?_, fun kind hkind row hrow hc => ?_⟩
    · rcases List.mem_append.mp he with he | he
      · exact ⟨table, table_self hpub, hl₁.sound e he⟩
      · exact ⟨v, table_virtual hvirtual, hl₂.sound e he⟩
    · rcases kind_of_table hkind hpub with rfl | hv
      · obtain ⟨e, he, hentry⟩ := hl₁.complete row hrow hc
        exact ⟨e, List.mem_append_left _ he, hentry⟩
      · rw [hvirtual, Option.some.injEq] at hv
        subst hv
        obtain ⟨e, he, hentry⟩ := hl₂.complete row hrow hc
        exact ⟨e, List.mem_append_right _ he, hentry⟩

lemma worker_delete {body : Str} (hpub : table ≠ .publisher) (hbody : split comma body = ids)
    (h : ObjectInfo.updateObjectInfo lib sql table rows true body dict = .ok dict') :
    ∃ ks, dict' = dict.eraseAll ks ∧
      ∀ k, k ∈ ks ↔ ∃ kind : Kind, kind.table = table ∧ ∃ t ∈ ids, k = kind.sharedDictPre ++ t := by
  obtain ⟨-, dict₁, h₁, h⟩ := worker_ok h
  rw [hbody] at h₁ h
  cases h₁
  have hmem : ∀ (kind : Kind) k, k ∈ ids.map (kind.sharedDictPre ++ ·) ↔
      ∃ t ∈ ids, k = kind.sharedDictPre ++ t := by
    intro kind k
    simp [eq_comm]
  cases hvirtual : table.virtualObject with
  | none =>
    simp only [hvirtual] at h
    cases h
    refine ⟨_, rfl, fun k => ?_⟩
    rw [hmem]
    constructor
    · exact fun hk => ⟨table, table_self hpub, hk⟩
    · rintro ⟨kind, hkind, hk⟩
      rcases kind_of_table hkind hpub with rfl | hv
      · exact hk
      · rw [hvirtual] at hv
        cases hv
  | some v =>
    simp only [hvirtual] at h
    cases h
    refine ⟨_, (Tbl.eraseAll_append _ _ _).symm, fun k => ?_⟩
    rw [List.mem_append, hmem, hmem]
    constructor
    · rintro (hk | hk)
      · exact ⟨table, table_self hpub, hk⟩
      · exact ⟨v, table_virtual hvirtual, hk⟩
    · rintro ⟨kind, hkind, hk⟩
      rcases kind_of_table hkind hpub with rfl | hv
      · exact .inl hk
      · rw [hvirtual, Option.some.injEq] at hv
        exact .inr (hv ▸ hk)

end worker

/-! ### The image -/

section image

variable {lib : Ngx} {sql : MySql} {db : Db} {req : Request} {dict dict' : Tbl Str}
  {rows : List Row} {ids : List Str}

/-- The entries there should be. -/
def Entries (lib : Ngx) (db : Db) (k v : Str) : Prop :=
  ∃ kind : Kind, ∃ row ∈ db kind.table, entry lib kind row = .ok (k, v)

lemma entry_pre {kind : Kind} {row : Row} {k v : Str} (h : entry lib kind row = .ok (k, v)) :
    ∃ s, k = kind.sharedDictPre ++ s := by
  obtain ⟨info, -, h⟩ := bind_ok.mp h
  obtain ⟨value, -, h⟩ := bind_ok.mp h
  obtain ⟨text, -, h⟩ := bind_ok.mp h
  split at h
  · cases h; exact ⟨_, rfl⟩
  · cases h; exact ⟨_, rfl⟩
  · cases h

/-- A key belongs to one object. -/
lemma same_object (hapart : ∀ kind : Kind, Apart lib kind (db kind.table)) {kind kind' : Kind}
    {row row' : Row} {k v v' : Str} (hrow : row ∈ db kind.table) (hrow' : row' ∈ db kind'.table)
    (h : entry lib kind row = .ok (k, v)) (h' : entry lib kind' row' = .ok (k, v')) :
    kind = kind' ∧ row = row' := by
  obtain ⟨s, hs⟩ := entry_pre h
  obtain ⟨s', hs'⟩ := entry_pre h'
  obtain ⟨rfl, -⟩ := key_inj (hs.symm.trans hs')
  exact ⟨rfl, hapart kind row hrow row' hrow' k v v' h h'⟩

lemma Entries.functional (hapart : ∀ kind : Kind, Apart lib kind (db kind.table)) {k v v' : Str}
    (h : Entries lib db k v) (h' : Entries lib db k v') : v = v' := by
  obtain ⟨kind, row, hrow, h⟩ := h
  obtain ⟨kind', row', hrow', h'⟩ := h'
  obtain ⟨rfl, rfl⟩ := same_object hapart hrow hrow' h h'
  rw [h, Except.ok.injEq, Prod.mk.injEq] at h'
  exact h'.2

lemma Image.graph (h : Image lib db dict) : dict.Graph (Entries lib db) := by
  intro k v
  constructor
  · exact h.only k v
  · rintro ⟨kind, row, hrow, hentry⟩
    obtain ⟨k', v', hentry', hget⟩ := h.holds kind row hrow
    rw [hentry, Except.ok.injEq, Prod.mk.injEq] at hentry'
    rw [hentry'.1, hentry'.2]
    exact hget

lemma image_of_graph (hapart : ∀ kind : Kind, Apart lib kind (db kind.table))
    (hok : ∀ kind : Kind, ∀ row ∈ db kind.table, ∃ e, entry lib kind row = .ok e)
    (h : dict.Graph (Entries lib db)) : Image lib db dict where
  holds kind row hrow := by
    obtain ⟨⟨k, v⟩, hentry⟩ := hok kind row hrow
    exact ⟨k, v, hentry, (h k v).mpr ⟨kind, row, hrow, hentry⟩⟩
  only k v hget := (h k v).mp hget
  apart := hapart

lemma update_table {kind table : Kind} :
    (Function.update db table rows) kind.table = if kind.table = table then rows else db kind.table := by
  simp [Function.update_apply]

/-- The rows of a kind after the request. -/
lemma mem_update_table {kind table : Kind} {row : Row} :
    row ∈ (Function.update db table rows) kind.table ↔
      (kind.table = table ∧ row ∈ rows) ∨ (kind.table ≠ table ∧ row ∈ db kind.table) := by
  rw [update_table]
  by_cases h : kind.table = table <;> simp [h]

lemma apart_update (hapart : ∀ kind : Kind, Apart lib kind (db kind.table)) {table : Kind}
    (hrows : ∀ kind : Kind, kind.table = table → Apart lib kind rows) :
    ∀ kind : Kind, Apart lib kind ((Function.update db table rows) kind.table) := by
  intro kind
  rw [update_table]
  split
  · next h => exact hrows kind h
  · exact hapart kind

/-- Reading back what an update wrote. -/
lemma image_written (himage : Image lib db dict) (hfits : Fits lib sql db req)
    (hwrite : writeDB lib sql (db req.name) req = .ok (rows, ids))
    (hwritten : Written req.content (db req.name) rows) {l : List (Str × Str)}
    (hsound : ∀ e ∈ l, ∃ kind : Kind, kind.table = req.name ∧ ∃ row ∈ rows, entry lib kind row = .ok e)
    (hcomplete : ∀ kind : Kind, kind.table = req.name → ∀ row ∈ rows,
      (∃ c ∈ req.content, row.col "id" = c.id) → ∃ e ∈ l, entry lib kind row = .ok e) :
    Image lib (Function.update db req.name rows) (dict.putAll l) := by
  have hapart := apart_update himage.apart (hfits.apart rows ids hwrite)
  have hok : ∀ kind : Kind, ∀ row ∈ (Function.update db req.name rows) kind.table,
      ∃ e, entry lib kind row = .ok e := by
    intro kind row hrow
    have hold : row ∈ db kind.table → ∃ e, entry lib kind row = .ok e := fun hrow => by
      obtain ⟨k, v, hentry, -⟩ := himage.holds kind row hrow
      exact ⟨_, hentry⟩
    rcases mem_update_table.mp hrow with ⟨hkind, hrow⟩ | ⟨-, hrow⟩
    · rcases hwritten.touched row hrow with hrow₀ | htouched
      · exact hold (hkind ▸ hrow₀)
      · obtain ⟨e, -, hentry⟩ := hcomplete kind hkind row hrow htouched
        exact ⟨e, hentry⟩
    · exact hold hrow
  refine image_of_graph hapart hok (himage.graph.putAll ?_ ?_ ?_ ?_)
  · exact fun k v v' => Entries.functional hapart
  · intro e he
    obtain ⟨kind, hkind, row, hrow, hentry⟩ := hsound e he
    exact ⟨kind, row, mem_update_table.mpr (.inl ⟨hkind, hrow⟩), hentry⟩
  · rintro k v ⟨kind, row, hrow, hentry⟩
    rcases mem_update_table.mp hrow with ⟨hkind, hrow⟩ | ⟨-, hrow⟩
    · rcases hwritten.touched row hrow with hrow₀ | htouched
      · exact .inr ⟨kind, row, hkind ▸ hrow₀, hentry⟩
      · obtain ⟨e, he, hentry'⟩ := hcomplete kind hkind row hrow htouched
        rw [hentry, Except.ok.injEq] at hentry'
        exact .inl (hentry' ▸ he)
    · exact .inr ⟨kind, row, hrow, hentry⟩
  · rintro k v ⟨kind, row, hrow, hentry⟩
    by_cases hkind : kind.table = req.name
    · rw [hkind] at hrow
      obtain ⟨row', hrow', hid⟩ := hwritten.still row hrow
      obtain ⟨⟨k', v'⟩, hentry'⟩ := hok kind row' (mem_update_table.mpr (.inl ⟨hkind, hrow'⟩))
      have hkey : k' = k :=
        hfits.kept rows ids hwrite kind hkind row hrow row' hrow' hid k v k' v' hentry hentry'
      rcases hwritten.touched row' hrow' with hrow₀ | htouched
      · -- the row itself is still there
        have hsame : row' = row := himage.apart kind row' (hkind ▸ hrow₀) row (hkind ▸ hrow) k v' v
          (hkey ▸ hentry') hentry
        subst hsame
        exact .inr ⟨kind, row', mem_update_table.mpr (.inl ⟨hkind, hrow'⟩), hentry⟩
      · obtain ⟨e, he, hentry''⟩ := hcomplete kind hkind row' hrow' htouched
        rw [hentry', Except.ok.injEq] at hentry''
        exact .inl ⟨e, he, by rw [← hentry'']; exact hkey⟩
    · exact .inr ⟨kind, row, mem_update_table.mpr (.inr ⟨hkind, hrow⟩), hentry⟩

/-- Erasing the keys of the rows deleted. -/
lemma image_deleted (himage : Image lib db dict) {table : Kind} {content : List Content}
    (hdeleted : Deleted lib sql table (db table) content (rows, ids)) {ks : List Str}
    (hks : ∀ k, k ∈ ks ↔
      ∃ kind : Kind, kind.table = table ∧ ∃ t ∈ ids, k = kind.sharedDictPre ++ t) :
    Image lib (Function.update db table rows) (dict.eraseAll ks) := by
  have hsub : ∀ (kind : Kind) row, row ∈ (Function.update db table rows) kind.table →
      row ∈ db kind.table := by
    intro kind row hrow
    rcases mem_update_table.mp hrow with ⟨hkind, hrow⟩ | ⟨-, hrow⟩
    · rw [hkind]
      exact ((hdeleted.rows row).mp hrow).1
    · exact hrow
  have hapart : ∀ kind : Kind, Apart lib kind ((Function.update db table rows) kind.table) :=
    fun kind row hrow row' hrow' =>
      himage.apart kind row (hsub kind row hrow) row' (hsub kind row' hrow')
  have hok : ∀ kind : Kind, ∀ row ∈ (Function.update db table rows) kind.table,
      ∃ e, entry lib kind row = .ok e := by
    intro kind row hrow
    obtain ⟨k, v, hentry, -⟩ := himage.holds kind row (hsub kind row hrow)
    exact ⟨_, hentry⟩
  refine image_of_graph hapart hok (himage.graph.eraseAll fun k v => ⟨?_, ?_⟩)
  · rintro ⟨kind, row, hrow, hentry⟩
    refine ⟨⟨kind, row, hsub kind row hrow, hentry⟩, fun hk => ?_⟩
    -- an erased key is the key of a row that went
    obtain ⟨kind', hkind', t, ht, rfl⟩ := (hks k).mp hk
    obtain ⟨gone, hgone, ⟨c, hc, heq⟩, hnames⟩ := hdeleted.named t ht
    obtain ⟨k', v', hentry', -⟩ := himage.holds kind' gone (hkind' ▸ hgone)
    rw [hnames kind' hkind' k' v' hentry'] at hentry'
    obtain ⟨rfl, rfl⟩ := same_object himage.apart (hsub kind row hrow) (hkind' ▸ hgone) hentry
      hentry'
    rcases mem_update_table.mp hrow with ⟨-, hrow⟩ | ⟨hne, -⟩
    · exact ((hdeleted.rows row).mp hrow).2 c hc heq
    · exact hne hkind'
  · rintro ⟨⟨kind, row, hrow, hentry⟩, hk⟩
    refine ⟨kind, row, mem_update_table.mpr ?_, hentry⟩
    by_cases hkind : kind.table = table
    · refine .inl ⟨hkind, (hdeleted.rows row).mpr ⟨hkind ▸ hrow, fun c hc heq => hk ?_⟩⟩
      obtain ⟨t, ht, hnames⟩ := hdeleted.complete row (hkind ▸ hrow) ⟨c, hc, heq⟩
      exact (hks k).mpr ⟨kind, hkind, t, ht, hnames kind hkind k v hentry⟩
    · exact .inr ⟨hkind, hrow⟩

end image

/-! ### The runs -/

section run

variable {lib : Ngx} {sql : MySql} {s s' : State} {req : Request}

lemma writeDB_delete {rows : List Row} {ids : List Str} {db : Db} (hdel : req.isDelete = true)
    (h : writeDB lib sql (db req.name) req = .ok (rows, ids)) :
    (∀ c ∈ req.content, checkExist sql (db req.name) c) ∧
      req.content.foldlM (deleteInfo lib sql req.name) (db req.name, []) = .ok (rows, ids) := by
  simp only [writeDB, hdel, if_true] at h
  split at h
  · next hall => exact ⟨List.all_eq_true.mp hall, h⟩
  · cases h

lemma writeDB_update {rows : List Row} {ids : List Str} {db : Db} (hupd : req.isDelete = false)
    (h : writeDB lib sql (db req.name) req = .ok (rows, ids)) :
    updateInfoDB sql (db req.name) req.content = .ok rows ∧
      req.content.mapM (fun c => c.id.text lib) = .ok ids := by
  simp only [writeDB, hupd, Bool.false_eq_true, if_false] at h
  obtain ⟨rows', hrows, h⟩ := bind_ok.mp h
  obtain ⟨ids', hids, h⟩ := bind_ok.mp h
  cases h
  exact ⟨hrows, hids⟩

lemma updateObjectInfo_ok (h : updateObjectInfo lib sql req s = .ok s') :
    req.name ≠ .publisher ∧ req.content ≠ [] ∧ ∃ rows ids,
      writeDB lib sql (s.db req.name) req = .ok (rows, ids) ∧
        s'.db = Function.update s.db req.name rows ∧
          ∀ dict' ∈ s'.workers, ∃ dict ∈ s.workers, ObjectInfo.updateObjectInfo lib sql req.name
            rows req.isDelete (lib.form_value (concat comma ids)) dict = .ok dict' := by
  by_cases hbad : req.name = .publisher ∨ req.content = []
  · simp only [updateObjectInfo, hbad, if_true] at h
    cases h
  · simp only [updateObjectInfo, hbad, if_false] at h
    obtain ⟨⟨rows, ids⟩, hwrite, h⟩ := bind_ok.mp h
    obtain ⟨workers, hworkers, h⟩ := bind_ok.mp h
    cases h
    rw [not_or] at hbad
    exact ⟨hbad.1, hbad.2, rows, ids, hwrite, rfl, fun dict' hdict' => mapM_mem hworkers hdict'⟩

/-- What a request that fits keeps. -/
lemma step_synced (hkeyed : Keyed s.db) (hfits : Fits lib sql s.db req)
    (h : updateObjectInfo lib sql req s = .ok s')
    (himage : ∀ dict ∈ s.workers, Image lib s.db dict) :
    Keyed s'.db ∧ ∀ dict ∈ s'.workers, Image lib s'.db dict := by
  obtain ⟨hpub, hne, rows, ids, hwrite, hdb, hworkers⟩ := updateObjectInfo_ok h
  have hkeyed' : (rows.map fun row => row.col "id").Nodup → Keyed s'.db := by
    intro hrows kind
    rw [hdb, Function.update_apply]
    split
    · exact hrows
    · exact hkeyed kind
  rw [hdb] at hkeyed' ⊢
  cases hdel : req.isDelete with
  | false =>
    obtain ⟨hrows, hids⟩ := writeDB_update hdel hwrite
    have hwritten := updateInfoDB_written hkeyed hfits hdel hrows
    refine ⟨hkeyed' hwritten.nodup, fun dict' hdict' => ?_⟩
    obtain ⟨dict, hdict, hworker⟩ := hworkers dict' hdict'
    have hclean : ∀ t ∈ ids, Clean t := by
      intro t ht
      obtain ⟨c, hc, htext⟩ := mapM_mem hids ht
      obtain ⟨t', ht', hclean, -⟩ := (hfits.named c hc).text lib
      rw [ht', Except.ok.injEq] at htext
      exact htext ▸ hclean
    have hids_ne : ids ≠ [] := by
      rintro rfl
      exact hne (List.length_eq_zero_iff.mp (mapM_length hids).symm)
    rw [hdel] at hworker
    obtain ⟨l, rfl, hsound, hcomplete⟩ :=
      worker_update hpub hfits.named hids (split_form hclean hids_ne) hworker
    exact image_written (himage dict hdict) hfits hwrite hwritten hsound hcomplete
  | true =>
    obtain ⟨hexist, hrows⟩ := writeDB_delete hdel hwrite
    have hdeleted := deleteInfoDB_deleted hkeyed hfits hpub hexist hrows
    refine ⟨hkeyed' ((hkeyed req.name).sublist (hdeleted.sublist.map _)), fun dict' hdict' => ?_⟩
    obtain ⟨dict, hdict, hworker⟩ := hworkers dict' hdict'
    have hclean : ∀ t ∈ ids, Clean t := by
      intro t ht
      obtain ⟨row, hrow, hgone, hnames⟩ := hdeleted.named t ht
      have hself := table_self hpub
      obtain ⟨k, v, hentry, -⟩ := (himage dict hdict).holds req.name row (hself.symm ▸ hrow)
      have hk := hfits.clean hdel row hrow hgone k v hentry
      rw [hnames req.name hself k v hentry] at hk
      exact fun c hc => hk c (List.mem_append_right _ hc)
    have hids_ne : ids ≠ [] := by
      rintro rfl
      refine (worker_ok hworker).1 ?_
      exact lib.form_value_plain _ (by simp [concat, List.intercalate])
    rw [hdel] at hworker
    obtain ⟨ks, rfl, hks⟩ := worker_delete hpub (split_form hclean hids_ne) hworker
    exact image_deleted (himage dict hdict) hdeleted hks

/-- The dictionary holds the entries of the kinds done so far. -/
def Loaded (lib : Ngx) (db : Db) (done : List Kind) (dict : Tbl Str) : Prop :=
  ∃ l, dict = (∅ : Tbl Str).putAll l ∧
    (∀ e ∈ l, ∃ kind ∈ done, ∃ row ∈ db kind.table, entry lib kind row = .ok e) ∧
      ∀ kind ∈ done, ∀ row ∈ db kind.table, ∃ e ∈ l, entry lib kind row = .ok e

lemma setDicts_loaded {db : Db} {done : List Kind} {kind : Kind} {dict dict' : Tbl Str}
    (hdict : Loaded lib db done dict) (h : setDicts lib kind (db kind.table) dict = .ok dict') :
    Loaded lib db (done ++ [kind]) dict' := by
  obtain ⟨l, rfl, hsound, hcomplete⟩ := hdict
  obtain ⟨l', hl', h⟩ := bind_ok.mp h
  cases h
  refine ⟨l ++ l', (Tbl.putAll_append _ _ _).symm, fun e he => ?_, fun kind' hkind' row hrow => ?_⟩
  · rcases List.mem_append.mp he with he | he
    · obtain ⟨kind', hkind', hrow⟩ := hsound e he
      exact ⟨kind', List.mem_append_left _ hkind', hrow⟩
    · obtain ⟨row, hrow, hentry⟩ := mapM_mem hl' he
      exact ⟨kind, by simp, row, hrow, hentry⟩
  · rcases List.mem_append.mp hkind' with hkind' | hkind'
    · obtain ⟨e, he, hentry⟩ := hcomplete kind' hkind' row hrow
      exact ⟨e, List.mem_append_left _ he, hentry⟩
    · rw [List.mem_singleton.mp hkind'] at hrow ⊢
      obtain ⟨e, he, hentry⟩ := mem_mapM hl' hrow
      exact ⟨e, List.mem_append_right _ he, hentry⟩

/-- A dictionary freshly built is the image of the database. -/
lemma initObjectInfo_image {o : Order} {db : Db} {dict : Tbl Str}
    (hapart : ∀ kind : Kind, Apart lib kind (db kind.table))
    (h : initObjectInfo lib o db = .ok dict) : Image lib db dict := by
  have hloaded : Loaded lib db ([] ++ o.visit Kind.all) dict :=
    foldlM_prefix (P := Loaded lib db) (fun _ _ _ _ _ => setDicts_loaded)
      ⟨[], rfl, by simp, by simp⟩ h
  obtain ⟨l, rfl, hsound, hcomplete⟩ := hloaded
  have hall : ∀ kind, kind ∈ [] ++ o.visit Kind.all := by
    intro kind
    rw [List.nil_append, (o.visit_perm _).mem_iff]
    cases kind <;> decide
  have hok : ∀ kind : Kind, ∀ row ∈ db kind.table, ∃ e, entry lib kind row = .ok e := by
    intro kind row hrow
    obtain ⟨e, -, hentry⟩ := hcomplete kind (hall kind) row hrow
    exact ⟨e, hentry⟩
  have hempty : (∅ : Tbl Str).Graph fun _ _ => False := fun k v => by simp
  refine image_of_graph hapart hok (hempty.putAll ?_ ?_ ?_ fun _ _ hfalse => hfalse.elim)
  · exact fun k v v' => Entries.functional hapart
  · intro e he
    obtain ⟨kind, -, row, hrow, hentry⟩ := hsound e he
    exact ⟨kind, row, hrow, hentry⟩
  · rintro k v ⟨kind, row, hrow, hentry⟩
    obtain ⟨e, he, hentry'⟩ := hcomplete kind (hall kind) row hrow
    rw [hentry, Except.ok.injEq] at hentry'
    exact .inl (hentry' ▸ he)

lemma run_synced (h : Run lib sql s) : Keyed s.db ∧ ∀ dict ∈ s.workers, Image lib s.db dict := by
  induction h with
  | @init o db n s hkeyed hapart hinit =>
    obtain ⟨dict, hdict, hinit⟩ := bind_ok.mp hinit
    cases hinit
    refine ⟨hkeyed, fun dict' hdict' => ?_⟩
    rw [List.eq_of_mem_replicate hdict']
    exact initObjectInfo_image hapart hdict
  | step _ hfits hstep ih => exact step_synced ih.1 hfits hstep ih.2

/-- **In every run whose requests fit, the entries of each worker are the image of the
database**: one for each row, and no other. -/
theorem store_synced (h : Run lib sql s) : ∀ dict ∈ s.workers, Image lib s.db dict :=
  (run_synced h).2

end run

section samples

/-- The row with the columns that are named set. -/
def writeRow (attrs : List (Str × Cell)) (row : Row) : Row :=
  row.map fun e => (e.1, (attrs.lookup (lit e.1)).getD e.2)

lemma writeRow_id {attrs : List (Str × Cell)} (row : Row) (h : ∀ a ∈ attrs, lower a.1 ≠ lit "id") :
    (writeRow attrs row).col "id" = row.col "id" := by
  have hnone : attrs.lookup (lit "id") = none := by
    rw [List.lookup_eq_none_iff]
    intro a ha
    have hne : lit "id" ≠ a.1 := fun heq => h a ha (by rw [← heq]; decide)
    simpa using hne
  unfold Row.col writeRow
  induction row with
  | nil => rfl
  | cons e row ih =>
    rw [List.map_cons, List.lookup_cons, List.lookup_cons]
    by_cases he : "id" = e.1
    · simp [← he, hnone]
    · have hbeq : ("id" == e.1) = false := by simpa using he
      simpa only [hbeq] using ih

/-- A database engine that compares cells as they are. -/
def plainSql : MySql where
  eq a b := a = b
  eq_refl _ _ := by simp
  update attrs row := .ok (writeRow attrs row)
  update_id attrs row row' h heq := by
    cases heq
    exact writeRow_id row h
  insert id attrs := .ok (("id", id) :: ["dspid", "dspideaid", "advertiserid", "status"].map fun c =>
    (c, (attrs.lookup (lit c)).getD .null))

/-- Creative `a` of DSP 2. -/
def sampleRow : Row := [("id", .num 1), ("dspid", .num 2), ("dspideaid", .str (lit "a")),
  ("advertiserid", .str (lit "x")), ("status", .num 1)]

def sampleDb : Db
  | .creative => [sampleRow]
  | _ => []

def sampleRequest (column : String) (cell : Cell) : Request :=
  ⟨.creative, [⟨.num 1, [(lit column, cell)]⟩], false⟩

/-- The state after the one request, with one worker. -/
def sampleState (column : String) (cell : Cell) : Lua State := do
  updateObjectInfo (Ngx.ofTexts []) plainSql (sampleRequest column cell)
    (← init (Ngx.ofTexts []) .plain sampleDb 1)

lemma sampleDb_apart (kind : Kind) : Apart (Ngx.ofTexts []) kind (sampleDb kind.table) := by
  intro row hrow row' hrow' k v v' _ _
  cases kind <;> simp_all [sampleDb, Kind.table]

lemma sample_fits : Fits (Ngx.ofTexts []) plainSql sampleDb (sampleRequest "status" (.num 0)) where
  named c hc := by
    rw [List.mem_singleton.mp hc]
    exact ⟨1, rfl, by decide⟩
  addressed := by decide
  unwritten _ := by decide
  inserted c hc hexist := by
    rw [List.mem_singleton.mp hc] at hexist
    exact absurd hexist (by decide)
  clean hdel := by cases hdel
  kept rows ids hwrite kind hkind row hrow row' hrow' _ k v k' v' h h' := by
    have hkind : kind = .creative := by
      cases kind <;> first | rfl | cases hkind
    cases hwrite
    rw [List.mem_singleton.mp hrow, hkind] at h
    rw [List.mem_singleton.mp hrow', hkind] at h'
    have hkey : (entry (Ngx.ofTexts []) .creative sampleRow).map Prod.fst =
        (entry (Ngx.ofTexts []) .creative (writeRow [(lit "status", .num 0)] sampleRow)).map
          Prod.fst := by
      decide +kernel
    rw [h] at hkey
    erw [h'] at hkey
    exact (Except.ok.inj hkey).symm
  apart rows ids hwrite kind _ row hrow row' hrow' _ _ _ _ _ := by
    cases hwrite
    rw [List.mem_singleton.mp hrow, List.mem_singleton.mp hrow']

theorem store_synced_sample :
    ∃ s, sampleState "status" (.num 0) = .ok s ∧
      ∀ dict ∈ s.workers, Image (Ngx.ofTexts []) s.db dict := by
  obtain ⟨s', hs'⟩ : ∃ s', sampleState "status" (.num 0) = .ok s' := exists_ok (by decide +kernel)
  obtain ⟨s, hs, hstep⟩ := bind_ok.mp hs'
  have hdb : s.db = sampleDb := by
    obtain ⟨_, -, hs⟩ := bind_ok.mp hs
    cases hs
    rfl
  have hkeyed : Keyed sampleDb := by
    intro kind
    cases kind <;> decide
  have hrun : Run (Ngx.ofTexts []) plainSql s := .init hkeyed sampleDb_apart hs
  exact ⟨s', hs', store_synced (.step hrun (hdb ▸ sample_fits) hstep)⟩

/-- An update that gives the creative another `dspideaid` leaves the entry under the old object id. -/
theorem stale_entry_stays :
    ∃ s, sampleState "dspideaid" (.str (lit "b")) = .ok s ∧
      ∃ dict ∈ s.workers, ¬ Image (Ngx.ofTexts []) s.db dict := by
  obtain ⟨s, hs⟩ : ∃ s, sampleState "dspideaid" (.str (lit "b")) = .ok s :=
    exists_ok (by decide +kernel)
  have hworkers : (sampleState "dspideaid" (.str (lit "b"))).map (fun s => s.workers.map fun dict =>
      (dict.get (lit "c2a")).isSome) = .ok [true] := by
    decide +kernel
  have hrows : (sampleState "dspideaid" (.str (lit "b"))).map (fun s => Kind.all.all fun kind =>
      (s.db kind.table).all fun row =>
        (entry (Ngx.ofTexts []) kind row).map Prod.fst = .ok (lit "c2b")) = .ok true := by
    decide +kernel
  rw [hs] at hworkers hrows
  obtain ⟨dict, hdict⟩ : ∃ dict, s.workers = [dict] := by
    have := congrArg List.length (Except.ok.inj hworkers)
    exact List.length_eq_one_iff.mp (by simpa using this)
  have hsome : (dict.get (lit "c2a")).isSome := by
    simpa [hdict] using Except.ok.inj hworkers
  refine ⟨s, hs, dict, by simp [hdict], fun himage => ?_⟩
  obtain ⟨v, hget⟩ := Option.isSome_iff_exists.mp hsome
  obtain ⟨kind, row, hrow, hentry⟩ := himage.only _ v hget
  have hkind : kind ∈ Kind.all := by cases kind <;> decide
  have hkey := List.all_eq_true.mp (List.all_eq_true.mp (Except.ok.inj hrows) kind hkind) row hrow
  rw [hentry] at hkey
  have hne : lit "c2a" ≠ lit "c2b" := by decide
  exact hne (by simpa [Except.map] using hkey)

end samples

end Sax.StoreSync
