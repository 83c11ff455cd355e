import Sax.Tables

/-!
`updateInfoDB` as an upsert.

Where no query fails, a content leaves the row of its id as it wants it exactly when it fits:
the server stores every value exactly as given, an update lists something besides its id, and no two
spellings of a column are at odds. Contents whose ids are one to the server have to want the
same of their row. Of the column `modifytime` no content wants anything: the server stamps it.
-/

namespace Sax.Upsert

open Sax.LuaVal Sax.Loop Sax.Runtime Sax.Center Sax.Tables
open Sax.ObjectInfo (Kind Cell lower)

section spec

variable (lib : Ngx) (o : Order) (schema : Schema) (kind : Kind)

/-- The cell the server reads for a value, a number from the literal printed for it. -/
def given (v : Val) : Option Cell := (literal lib v).toOption.bind schema.cell

/-- What a content lists besides its id. -/
def Listed (content : Parsed) (k : Str) (v : Val) : Prop :=
  content.attrs.get k = some v ∧ k ≠ lit "id"

/-- The key of the row a content is about. -/
def rowKey (content : Parsed) : Cell :=
  schema.key kind ((given lib schema content.id).getD .null)

/-- What a content wants of a column of its row: the value listed, or what the row had. -/
inductive Wants (content : Parsed) (old : Option Row) : Str → Option Cell → Prop
  | listed {k : Str} {v : Val} :
      Listed content k v → Wants content old (lower k) (given lib schema v)
  | kept {column : Str} {row : Row} : (∀ k v, Listed content k v → lower k ≠ column) →
      column ≠ modifytime → old = some row → Wants content old column (row column)

/-- The column `modifytime` of a row that was there is as it was, or what the clock said. -/
def Stamped (old row : Row) : Prop :=
  row modifytime = old modifytime ∨ ∃ table, row modifytime = some (schema.now kind table)

/-- The row of each content is as the content wants it, and the other rows are as they were. -/
structure Upserted (table table' : Table) (contents : List Parsed) : Prop where
  row : ∀ content ∈ contents, ∃ row, table' (rowKey lib schema kind content) = some row ∧
    ∀ column x, Wants lib schema content (table (rowKey lib schema kind content)) column x →
      row column = x
  stamp : ∀ k old row, table k = some old → table' k = some row → Stamped schema kind old row
  others : ∀ k, (∀ content ∈ contents, rowKey lib schema kind content ≠ k) → table' k = table k

/-- Without a failed query, the contents are carried out and upserted. -/
def Upserts (contents : List Parsed) (db : Db) : Prop :=
  ∃ ids db', updateInfoDB lib o (engine schema lib) (fun _ => none) kind contents db =
      (.ok (.ok ids), db') ∧ Upserted lib schema kind (db kind) (db' kind) contents

/-- What the statement for a content needs to do what the content wants. -/
structure Fits (content : Parsed) : Prop where
  stored : ∀ k v, Listed content k v → ∃ x, given lib schema v = some x ∧
    lower k ∈ schema.columns kind ∧ schema.store kind (lower k) x = some x
  agree : ∀ k v k' v', Listed content k v → Listed content k' v' → lower k = lower k' →
    given lib schema v = given lib schema v'
  sets : content.isExist → ∃ k v, Listed content k v
  sameId : content.isExist → ∀ k v x, Listed content k v → lower k = lit "id" →
    given lib schema v = some x → schema.key kind x = rowKey lib schema kind content
  once : ¬ content.isExist → ∀ k v k' v', content.attrs.get k = some v →
    content.attrs.get k' = some v' → lower k = lower k' → k = k'
  newId : ¬ content.isExist → lit "id" ∈ schema.columns kind ∧ ∃ c x,
    given lib schema content.id = some c ∧ schema.store kind (lit "id") c = some x ∧
      schema.key kind x = rowKey lib schema kind content

/-- Two contents about one row update it, and want the same of it. -/
def Agrees (table : Table) (content content' : Parsed) : Prop :=
  rowKey lib schema kind content = rowKey lib schema kind content' → content'.isExist ∧
    ∀ column x x', Wants lib schema content (table (rowKey lib schema kind content)) column x →
      Wants lib schema content' (table (rowKey lib schema kind content)) column x' → x = x'

/-- What `contentParse` makes sure of. -/
structure Accepted (table : Table) (content : Parsed) : Prop where
  id : content.attrs.get (lit "id") = some content.id
  cell : ∃ c, given lib schema content.id = some c
  exist : content.isExist = (table (rowKey lib schema kind content)).isSome
  unstamped : ∀ k v, content.attrs.get k = some v → lower k ≠ modifytime
  text : ∃ s, checkString lib.tostring (some content.id) = .ok s

end spec

/-! ### What `contentParse` accepts -/

section parse

variable {lib : Ngx} {o : Order} {schema : Schema} {kind : Kind}

lemma given_eq_some {v : Val} {c : Cell} :
    given lib schema v = some c ↔ ∃ t, literal lib v = .ok t ∧ schema.cell t = some c := by
  simp only [given, Option.bind_eq_some_iff, toOption_eq_some]

lemma lower_id : lower (lit "id") = lit "id" := by decide +kernel

lemma exist_ok {t : Literal} {db : Db} {b : Bool} (h : (engine schema lib).exist kind t db = .ok b) :
    kind ≠ .publisher ∧ ∃ c, schema.cell t = some c ∧ b = (db kind (schema.key kind c)).isSome := by
  unfold engine at h
  dsimp only at h
  split at h
  · next c hc =>
    split at h
    · cases h
    · next hkind =>
      cases h
      exact ⟨hkind, c, hc, rfl⟩
  · cases h

lemma query_ok {β : Type} {fails : Point → Option Str} {p : Point} {reply : Except Str β} {b : β}
    (h : query fails p reply = .ok b) : reply = .ok b := by
  unfold query at h
  split at h
  · cases h
  · exact h

variable {fails : Point → Option Str} {db : Db}

/-- A key that passes the check of the attributes is a spelling of the name of one. -/
lemma checked_attr {t : Tbl Val} {isUpdate : Bool}
    (h : attributeValidityCheck lib o kind t isUpdate = .ok (.ok ())) {k : Str} {v : Val}
    (hk : t.get k = some v) : ∃ attr ∈ (attr_manage_end kind).getD [], lit attr.name = lower k := by
  unfold attributeValidityCheck at h
  split at h
  · cases h
  · next attrs hattrs =>
    obtain ⟨r, hchecks, h⟩ := bind_ok.mp h
    cases r with
    | error errInfo => cases h
    | ok _ =>
      obtain ⟨v', -, hget⟩ := Tbl.get_putAll_mem (t := (∅ : Tbl Val)) (k := lower k)
        ⟨(lower k, v), List.mem_map_of_mem (f := fun e : Sigma fun _ : Str => Val => (lower e.1, e.2))
          (o.mem_pairs.mpr hk), rfl⟩
      have hcheck := firstError_ok.mp hchecks ⟨lower k, v'⟩ (o.mem_pairs.mpr hget)
      unfold attributeCheck at hcheck
      split at hcheck
      · cases hcheck
      · next attr hfind =>
        exact ⟨attr, by rw [hattrs]; exact List.mem_of_find?_eq_some hfind,
          by simpa using List.find?_some hfind⟩

/-- No attribute is the time of the last change. -/
lemma checked_unstamped {t : Tbl Val} {isUpdate : Bool}
    (h : attributeValidityCheck lib o kind t isUpdate = .ok (.ok ())) {k : Str} {v : Val}
    (hk : t.get k = some v) : lower k ≠ modifytime := by
  obtain ⟨attr, hattr, hname⟩ := checked_attr h hk
  have hall : ∀ attr ∈ (attr_manage_end kind).getD [], lit attr.name ≠ modifytime := by
    cases kind <;> decide +kernel
  rw [← hname]
  exact hall attr hattr

/-- What a content is found to have when it passes its check. -/
lemma contentCheck_passed {σ : Type} {engine : Engine σ} {db : σ} {content : Content} {i : ℕ}
    {parsed : Parsed} {isDelete : Bool}
    (h : contentCheck lib o engine fails kind isDelete db content i = .ok (.ok parsed)) :
    parsed.attrs.get (lit "id") = some parsed.id ∧
      (∃ text, checkString lib.tostring (some parsed.id) = .ok text) ∧
      (∃ t, literal lib parsed.id = .ok t ∧ engine.exist kind t db = .ok parsed.isExist) ∧
      (isDelete = false →
        attributeValidityCheck lib o kind parsed.attrs parsed.isExist = .ok (.ok ())) := by
  unfold contentCheck at h
  split at h
  · cases h
  · cases h
  · next attrs =>
    split at h
    · cases h
    · cases h
    · next id _ hid =>
      obtain ⟨text, htext, h⟩ := bind_ok.mp h
      obtain ⟨t, ht, h⟩ := bind_ok.mp h
      split at h
      · cases h
      · next isExist hquery =>
        have hexist := query_ok hquery
        split at h
        · next hdelete =>
          cases h
          exact ⟨hid, ⟨text, htext⟩, ⟨t, ht, hexist⟩, fun hupdate => by simp [hdelete] at hupdate⟩
        · obtain ⟨r, hr, h⟩ := bind_ok.mp h
          cases r with
          | error errInfo => cases h
          | ok _ =>
            cases h
            exact ⟨hid, ⟨text, htext⟩, ⟨t, ht, hexist⟩, fun _ => hr⟩

lemma contentCheck_ok {content : Content} {i : ℕ} {parsed : Parsed}
    (h : contentCheck lib o (engine schema lib) fails kind false db content i = .ok (.ok parsed)) :
    kind ≠ .publisher ∧ Accepted lib schema kind (db kind) parsed := by
  obtain ⟨hid, htext, ⟨t, ht, hquery⟩, hcheck⟩ := contentCheck_passed h
  obtain ⟨hkind, c, hc, hexist⟩ := exist_ok hquery
  have hgiven : given lib schema parsed.id = some c := given_eq_some.mpr ⟨t, ht, hc⟩
  refine ⟨hkind, hid, ⟨c, hgiven⟩, ?_, fun k v => checked_unstamped (hcheck rfl), htext⟩
  rw [hexist, rowKey, hgiven, Option.getD_some]

/-- What holds of every content that passes its check holds of all contents that pass. -/
lemma contentChecks_forall {σ : Type} {engine : Engine σ} {db : σ} {P : Parsed → Prop}
    {isDelete : Bool} (hP : ∀ content i parsed,
      contentCheck lib o engine fails kind isDelete db content i = .ok (.ok parsed) → P parsed)
    {contentList : List Content} {i : ℕ} {contents : List Parsed}
    (h : contentChecks lib o engine fails kind isDelete db contentList i = .ok (.ok contents)) :
    ∀ content ∈ contents, P content := by
  induction contentList generalizing i contents with
  | nil => cases h; simp
  | cons content contentList ih =>
    unfold contentChecks at h
    obtain ⟨r, hcheck, h⟩ := bind_ok.mp h
    cases r with
    | error errInfo => cases h
    | ok parsed =>
      obtain ⟨r, hrest, h⟩ := bind_ok.mp h
      cases r with
      | error errInfo => cases h
      | ok rest =>
        cases h
        rw [List.forall_mem_cons]
        exact ⟨hP _ _ _ hcheck, ih hrest⟩

lemma contentParse_forall {σ : Type} {engine : Engine σ} {db : σ} {P : Parsed → Prop}
    {isDelete : Bool} (hP : ∀ content i parsed,
      contentCheck lib o engine fails kind isDelete db content i = .ok (.ok parsed) → P parsed)
    {objectName : Str} {contentList : List Content} {contents : List Parsed}
    (h : contentParse lib o engine fails objectName contentList isDelete db =
      .ok (.ok (kind, contents))) : ∀ content ∈ contents, P content := by
  unfold contentParse at h
  split at h
  · cases h
  · obtain ⟨r, hchecks, h⟩ := bind_ok.mp h
    cases r with
    | error errInfo => cases h
    | ok _ =>
      dsimp only at h
      split at h
      · obtain ⟨_, -, h⟩ := bind_ok.mp h
        cases h
      · cases h
        exact contentChecks_forall hP hchecks

lemma contentParse_ok {objectName : Str} {contentList : List Content} {contents : List Parsed}
    (h : contentParse lib o (engine schema lib) fails objectName contentList false db =
      .ok (.ok (kind, contents))) :
    ∀ content ∈ contents, kind ≠ .publisher ∧ Accepted lib schema kind (db kind) content :=
  contentParse_forall (fun _ _ _ hcheck => contentCheck_ok hcheck) h

end parse

/-! ### The row a statement writes -/

section step

variable (lib : Ngx) (o : Order) (schema : Schema) (kind : Kind)

/-- The assignments for a table of attributes, made on a row. -/
def writeRow (attrs : Tbl Val) (row : Row) : Option Row :=
  (columnListParse lib o attrs).toOption.bind fun l => l.foldlM (assign schema kind) row

/-- The row after an update with a table of attributes. -/
def changeRow (now : Cell) (attrs : Tbl Val) (row : Row) : Option Row :=
  (columnListParse lib o attrs).toOption.bind fun l =>
    (l.foldlM (assign schema kind) row).map (touch schema kind now l row)

/-- The table after the statement for a content. -/
def tableStep (table : Table) (content : Parsed) : Option Table :=
  (statement lib o content).toOption.bind (run schema kind table)

/-- How the row of a content is written at a time, over the one it had. -/
def StepRow (now : Cell) (content : Parsed) (old : Option Row) (row : Row) : Prop :=
  match old with
  | some old => content.isExist ∧ (∃ k v, Listed content k v) ∧
      changeRow lib o schema kind now (content.attrs.erase (lit "id")) old = some row
  | none => ¬ content.isExist ∧ (∀ k v k' v', content.attrs.get k = some v →
      content.attrs.get k' = some v' → lower k = lower k' → k = k') ∧
        writeRow lib o schema kind content.attrs (blank schema kind now) = some row

/-- The row a content writes has the id of the content. -/
structure Own (content : Parsed) : Prop where
  sameId : content.isExist → ∀ k v x, Listed content k v → lower k = lit "id" →
    given lib schema v = some x → schema.key kind x = rowKey lib schema kind content
  newId : ¬ content.isExist → ∀ c x, given lib schema content.id = some c →
    schema.store kind (lit "id") c = some x → schema.key kind x = rowKey lib schema kind content

end step

section step

variable {lib : Ngx} {o : Order} {schema : Schema} {kind : Kind} {table table' : Table}
  {content : Parsed} {attrs : Tbl Val} {row row' : Row}

lemma listed_iff {k : Str} {v : Val} :
    Tbl.get (content.attrs.erase (lit "id")) k = some v ↔ Listed content k v := by
  by_cases hk : k = lit "id"
  · subst hk
    simp [Listed, Tbl.get]
  · simp [Listed, Tbl.get, AList.lookup_erase_ne hk, hk]

lemma mem_columnListParse {l : List (Str × Literal)} (h : columnListParse lib o attrs = .ok l)
    {e : Str × Literal} : e ∈ l ↔ ∃ v, attrs.get e.1 = some v ∧ literal lib v = .ok e.2 := by
  unfold columnListParse at h
  constructor
  · intro he
    obtain ⟨⟨k, v⟩, hmem, hv⟩ := mapM_mem h he
    obtain ⟨t, ht, heq⟩ := bind_ok.mp hv
    cases heq
    exact ⟨v, o.mem_pairs.mp hmem, ht⟩
  · rintro ⟨v, hget, ht⟩
    obtain ⟨e', he', hv⟩ := mem_mapM h (o.mem_pairs.mpr hget)
    obtain ⟨t, ht', heq⟩ := bind_ok.mp hv
    rw [ht] at ht'
    cases ht'
    cases heq
    exact he'

lemma columnListParse_isOk : (∃ l, columnListParse lib o attrs = .ok l) ↔
    ∀ k v, attrs.get k = some v → ∃ t, literal lib v = .ok t := by
  unfold columnListParse
  rw [mapM_isOk]
  constructor
  · intro h k v hget
    obtain ⟨b, hb⟩ := h ⟨k, v⟩ (o.mem_pairs.mpr hget)
    obtain ⟨t, ht, -⟩ := bind_ok.mp hb
    exact ⟨t, ht⟩
  · rintro h ⟨k, v⟩ hmem
    obtain ⟨t, ht⟩ := h k v (o.mem_pairs.mp hmem)
    exact ⟨(k, t), bind_ok.mpr ⟨t, ht, rfl⟩⟩

/-- No two columns of the statement are one exactly when no two keys are. -/
lemma columnListParse_nodup {l : List (Str × Literal)} (h : columnListParse lib o attrs = .ok l) :
    (l.map fun e => lower e.1).Nodup ↔ ∀ k v k' v', attrs.get k = some v →
      attrs.get k' = some v' → lower k = lower k' → k = k' := by
  have hkeys : l.map Prod.fst = (o.pairs attrs).map Sigma.fst := by
    refine mapM_map_eq (fun e e' he => ?_) h
    obtain ⟨t, -, heq⟩ := bind_ok.mp he
    cases heq
    rfl
  have hmap : (l.map fun e => lower e.1) = ((o.pairs attrs).map Sigma.fst).map lower := by
    rw [← hkeys, List.map_map]
    rfl
  rw [hmap, List.nodup_map_iff_inj_on (o.pairs_nodup attrs)]
  simp only [List.mem_map, Sigma.exists, exists_and_right, exists_eq_right, o.mem_pairs]
  exact ⟨fun h k v k' v' hk hk' => h k ⟨v, hk⟩ k' ⟨v', hk'⟩,
    fun h k ⟨v, hk⟩ k' ⟨v', hk'⟩ => h k v k' v' hk hk'⟩

lemma writeRow_eq_some : writeRow lib o schema kind attrs row = some row' ↔
    ∃ l, columnListParse lib o attrs = .ok l ∧ l.foldlM (assign schema kind) row = some row' := by
  simp only [writeRow, Option.bind_eq_some_iff, toOption_eq_some]

/-- A column holds what one of its values is stored as, or what it held. -/
lemma writeRow_get (h : writeRow lib o schema kind attrs row = some row') (column : Str) :
    (∃ k v c x, attrs.get k = some v ∧ lower k = column ∧ given lib schema v = some c ∧
      schema.store kind column c = some x ∧ row' column = some x) ∨
    ((∀ k v, attrs.get k = some v → lower k ≠ column) ∧ row' column = row column) := by
  obtain ⟨l, hl, hrow⟩ := writeRow_eq_some.mp h
  rcases assigned_get hrow column with ⟨e, he, hcolumn, c, x, hc, hstore, hget⟩ | ⟨hnone, hget⟩
  · obtain ⟨v, hv, ht⟩ := (mem_columnListParse hl).mp he
    exact .inl ⟨e.1, v, c, x, hv, hcolumn, given_eq_some.mpr ⟨_, ht, hc⟩, hstore, hget⟩
  · refine .inr ⟨fun k v hv => ?_, hget⟩
    obtain ⟨t, ht⟩ := columnListParse_isOk.mp ⟨l, hl⟩ k v hv
    exact hnone (k, t) ((mem_columnListParse hl).mpr ⟨v, hv, ht⟩)

/-- A row is written exactly when every value can be stored. -/
lemma writeRow_isSome : (∃ row', writeRow lib o schema kind attrs row = some row') ↔
    ∀ k v, attrs.get k = some v → ∃ c x, given lib schema v = some c ∧
      lower k ∈ schema.columns kind ∧ schema.store kind (lower k) c = some x := by
  simp only [writeRow_eq_some]
  constructor
  · rintro ⟨row', l, hl, hrow⟩ k v hv
    obtain ⟨t, ht⟩ := columnListParse_isOk.mp ⟨l, hl⟩ k v hv
    obtain ⟨p, hp⟩ := assign_isSome.mp ⟨row', hrow⟩ (k, t) ((mem_columnListParse hl).mpr ⟨v, hv, ht⟩)
    obtain ⟨-, hcolumn, c, hc, hstore⟩ := written_eq_some.mp hp
    exact ⟨c, p.2, given_eq_some.mpr ⟨t, ht, hc⟩, hcolumn, hstore⟩
  · intro h
    obtain ⟨l, hl⟩ : ∃ l, columnListParse lib o attrs = .ok l := by
      refine columnListParse_isOk.mpr fun k v hv => ?_
      obtain ⟨c, x, hc, -⟩ := h k v hv
      obtain ⟨t, ht, -⟩ := given_eq_some.mp hc
      exact ⟨t, ht⟩
    rw [exists_comm]
    refine ⟨l, ?_⟩
    rw [exists_and_left]
    refine ⟨hl, assign_isSome.mpr fun e he => ?_⟩
    obtain ⟨v, hv, ht⟩ := (mem_columnListParse hl).mp he
    obtain ⟨c, x, hc, hcolumn, hstore⟩ := h e.1 v hv
    obtain ⟨t, ht', hcell⟩ := given_eq_some.mp hc
    rw [ht] at ht'
    cases ht'
    exact ⟨(lower e.1, x), written_eq_some.mpr ⟨rfl, hcolumn, c, hcell, hstore⟩⟩

/-- An update writes a row and stamps it. -/
lemma changeRow_written {now : Cell} (h : changeRow lib o schema kind now attrs row = some row') :
    ∃ l row₁, columnListParse lib o attrs = .ok l ∧ writeRow lib o schema kind attrs row = some row₁ ∧
      touch schema kind now l row row₁ = row' := by
  obtain ⟨l, hl, h⟩ := Option.bind_eq_some_iff.mp h
  obtain ⟨row₁, hrow, hrow'⟩ := Option.map_eq_some_iff.mp h
  exact ⟨l, row₁, toOption_eq_some.mp hl, writeRow_eq_some.mpr ⟨l, toOption_eq_some.mp hl, hrow⟩,
    hrow'⟩

lemma changeRow_get {now : Cell} (h : changeRow lib o schema kind now attrs row = some row')
    {column : Str} (hcolumn : column ≠ modifytime) :
    (∃ k v c x, attrs.get k = some v ∧ lower k = column ∧ given lib schema v = some c ∧
      schema.store kind column c = some x ∧ row' column = some x) ∨
    ((∀ k v, attrs.get k = some v → lower k ≠ column) ∧ row' column = row column) := by
  obtain ⟨l, row₁, -, hwrite, rfl⟩ := changeRow_written h
  rw [touch_get now l row row₁ hcolumn]
  exact writeRow_get hwrite column

lemma changeRow_isSome {now : Cell} :
    (∃ row', changeRow lib o schema kind now attrs row = some row') ↔
      ∃ row', writeRow lib o schema kind attrs row = some row' := by
  constructor
  · rintro ⟨row', h⟩
    obtain ⟨l, row₁, -, hwrite, -⟩ := changeRow_written h
    exact ⟨row₁, hwrite⟩
  · rintro ⟨row₁, h⟩
    obtain ⟨l, hl, hrow⟩ := writeRow_eq_some.mp h
    exact ⟨_, by rw [changeRow, toOption_eq_some.mpr hl, Option.bind_some, hrow, Option.map_some]⟩

/-- A statement that does not name the time leaves it, or sets it to what the clock says. -/
lemma changeRow_stamped {now : Cell} (h : changeRow lib o schema kind now attrs row = some row')
    (hattrs : ∀ k v, attrs.get k = some v → lower k ≠ modifytime) :
    row' modifytime = row modifytime ∨ row' modifytime = some now := by
  obtain ⟨l, row₁, -, hwrite, rfl⟩ := changeRow_written h
  rcases writeRow_get hwrite modifytime with ⟨k, v, -, -, hv, hk, -⟩ | ⟨-, hget⟩
  · exact absurd hk (hattrs k v hv)
  · rw [← hget]
    exact touch_modifytime now l row row₁

/-- The id of a row stays one that the column stores. -/
lemma writeRow_id (h : writeRow lib o schema kind attrs row = some row')
    (hid : (∃ k v, attrs.get k = some v ∧ lower k = lit "id") ∨
      schema.store kind (lit "id") row.id = some row.id) :
    schema.store kind (lit "id") row'.id = some row'.id := by
  rcases writeRow_get h (lit "id") with ⟨k, v, c, x, -, -, -, hstore, hget⟩ | ⟨hnone, hget⟩
  · rw [Row.id, hget, Option.getD_some]
    exact schema.store_store kind c x hstore
  · rw [Row.id, hget]
    rcases hid with ⟨k, v, hv, hk⟩ | hid
    · exact absurd hk (hnone k v hv)
    · exact hid

lemma rowKey_eq {c : Cell} (hc : given lib schema content.id = some c) :
    rowKey lib schema kind content = schema.key kind c := by
  rw [rowKey, hc, Option.getD_some]

/-! ### One step -/

lemma tableStep_eq_some : tableStep lib o schema kind table content = some table' ↔
    ∃ st, statement lib o content = .ok st ∧ run schema kind table st = some table' := by
  simp only [tableStep, Option.bind_eq_some_iff, toOption_eq_some]

lemma statement_update (hexist : content.isExist) {st : Statement} :
    statement lib o content = .ok st ↔ ∃ l t, l ≠ [] ∧
      columnListParse lib o (content.attrs.erase (lit "id")) = .ok l ∧
        literal lib content.id = .ok t ∧ Statement.update t l = st := by
  unfold statement
  rw [if_pos hexist]
  constructor
  · intro h
    obtain ⟨l, hl, h⟩ := bind_ok.mp h
    cases l with
    | nil => cases h
    | cons e l =>
      obtain ⟨t, ht, h⟩ := bind_ok.mp h
      exact ⟨e :: l, t, List.cons_ne_nil _ _, hl, ht, pure_ok.mp h⟩
  · rintro ⟨l, t, hne, hl, ht, rfl⟩
    rw [hl, ok_bind]
    cases l with
    | nil => exact absurd rfl hne
    | cons e l =>
      rw [ht]
      rfl

lemma statement_insert (hexist : ¬ content.isExist) {st : Statement} :
    statement lib o content = .ok st ↔ ∃ l, columnListParse lib o content.attrs = .ok l ∧
      Statement.insert l = st := by
  unfold statement
  rw [if_neg hexist, bind_ok]
  simp only [pure_ok]

lemma columnListParse_ne_nil {l : List (Str × Literal)}
    (h : columnListParse lib o attrs = .ok l) : l ≠ [] ↔ ∃ k v, attrs.get k = some v := by
  constructor
  · intro hne
    obtain ⟨e, he⟩ := List.exists_mem_of_ne_nil l hne
    obtain ⟨v, hv, -⟩ := (mem_columnListParse h).mp he
    exact ⟨e.1, v, hv⟩
  · rintro ⟨k, v, hv⟩
    obtain ⟨t, ht⟩ := columnListParse_isOk.mp ⟨l, h⟩ k v hv
    exact List.ne_nil_of_mem ((mem_columnListParse h (e := (k, t))).mpr ⟨v, hv, ht⟩)

/-- An update writes the row anew, and puts it where its id belongs. -/
lemma tableStep_update (hexist : content.isExist)
    (hid : ∃ c, given lib schema content.id = some c)
    (hrow : table (rowKey lib schema kind content) = some row) :
    tableStep lib o schema kind table content = some table' ↔ (∃ k v, Listed content k v) ∧
      ∃ row', changeRow lib o schema kind (schema.now kind table) (content.attrs.erase (lit "id"))
          row = some row' ∧
        put schema kind (Function.update table (rowKey lib schema kind content) none) row' =
          some table' := by
  obtain ⟨c, hc⟩ := hid
  obtain ⟨t, ht, hcell⟩ := given_eq_some.mp hc
  rw [rowKey_eq hc] at hrow ⊢
  have hrun (l : List (Str × Literal)) :
      run schema kind table (.update t l) = update schema kind c l table := by
    simp only [run, hcell, Option.bind_eq_bind, Option.bind_some]
  simp only [← listed_iff]
  rw [tableStep_eq_some]
  simp only [statement_update hexist, ht, Except.ok.injEq]
  constructor
  · rintro ⟨st, ⟨l, t, hne, hl, rfl, rfl⟩, h⟩
    rw [hrun, update_eq_some hrow] at h
    obtain ⟨row', hassign, hput⟩ := h
    refine ⟨(columnListParse_ne_nil hl).mp hne, _, ?_, hput⟩
    rw [changeRow, toOption_eq_some.mpr hl, Option.bind_some, hassign, Option.map_some]
  · rintro ⟨hsets, row', hchange, hput⟩
    obtain ⟨l, row₁, hl, hwrite, rfl⟩ := changeRow_written hchange
    obtain ⟨l', hl', hassign⟩ := writeRow_eq_some.mp hwrite
    cases hl.symm.trans hl'
    refine ⟨_, ⟨l, t, (columnListParse_ne_nil hl).mpr hsets, hl, rfl, rfl⟩, ?_⟩
    rw [hrun, update_eq_some hrow]
    exact ⟨row₁, hassign, hput⟩

/-- An update without a row changes nothing. -/
lemma tableStep_absent (hexist : content.isExist)
    (hid : ∃ c, given lib schema content.id = some c)
    (hrow : table (rowKey lib schema kind content) = none)
    (h : tableStep lib o schema kind table content = some table') : table' = table := by
  obtain ⟨c, hc⟩ := hid
  obtain ⟨t, ht, hcell⟩ := given_eq_some.mp hc
  rw [rowKey_eq hc] at hrow
  obtain ⟨st, hst, hrun⟩ := tableStep_eq_some.mp h
  obtain ⟨l, t', -, -, ht', rfl⟩ := (statement_update hexist).mp hst
  rw [ht] at ht'
  cases ht'
  simp only [run, hcell, update, hrow, Option.bind_eq_bind, Option.bind_some, Option.pure_def,
    Option.some.injEq] at hrun
  exact hrun.symm

lemma tableStep_insert (hexist : ¬ content.isExist) :
    tableStep lib o schema kind table content = some table' ↔
      (∀ k v k' v', content.attrs.get k = some v → content.attrs.get k' = some v' →
        lower k = lower k' → k = k') ∧
      ∃ row, writeRow lib o schema kind content.attrs (blank schema kind (schema.now kind table)) =
          some row ∧
        put schema kind table row = some table' := by
  rw [tableStep_eq_some]
  simp only [statement_insert hexist]
  constructor
  · rintro ⟨st, ⟨l, hl, rfl⟩, h⟩
    obtain ⟨hnodup, row, hassign, hput⟩ := insert_eq_some.mp h
    exact ⟨(columnListParse_nodup hl).mp hnodup, row, writeRow_eq_some.mpr ⟨l, hl, hassign⟩, hput⟩
  · rintro ⟨honce, row, hwrite, hput⟩
    obtain ⟨l, hl, hassign⟩ := writeRow_eq_some.mp hwrite
    exact ⟨_, ⟨l, hl, rfl⟩,
      insert_eq_some.mpr ⟨(columnListParse_nodup hl).mpr honce, row, hassign, hput⟩⟩

lemma id_ne_modifytime : lit "id" ≠ modifytime := by decide

lemma update_key (hown : Own lib schema kind content) (hindex : Indexed schema kind table)
    (hexist : content.isExist) (hrow : table (rowKey lib schema kind content) = some row) {now : Cell}
    (hchange : changeRow lib o schema kind now (content.attrs.erase (lit "id")) row = some row') :
    schema.key kind row'.id = rowKey lib schema kind content := by
  obtain ⟨hkey, hstored⟩ := hindex _ row hrow
  rcases changeRow_get hchange id_ne_modifytime with
    ⟨k, v, c, x, hv, hk, hc, hstore, hget⟩ | ⟨-, hget⟩
  · have hsame := hown.sameId hexist k v c (listed_iff.mp hv) hk hc
    rw [Row.id, hget, Option.getD_some, ← hkey]
    exact schema.store_key kind c row.id x row.id (hsame.trans hkey.symm) hstore hstored
  · rw [Row.id, hget]
    exact hkey

lemma insert_key (hid : content.attrs.get (lit "id") = some content.id)
    (hown : Own lib schema kind content) (hexist : ¬ content.isExist)
    (honce : ∀ k v k' v', content.attrs.get k = some v → content.attrs.get k' = some v' →
      lower k = lower k' → k = k')
    (hwrite : writeRow lib o schema kind content.attrs row = some row') :
    schema.key kind row'.id = rowKey lib schema kind content := by
  rcases writeRow_get hwrite (lit "id") with ⟨k, v, c, x, hv, hk, hc, hstore, hget⟩ | ⟨hnone, -⟩
  · have hkid : k = lit "id" := honce k v _ _ hv hid (hk.trans lower_id.symm)
    subst hkid
    rw [hid] at hv
    cases hv
    rw [Row.id, hget, Option.getD_some]
    exact hown.newId hexist c x hc hstore
  · exact absurd lower_id (hnone _ _ hid)

/-- **A step writes the row of its content and no other.** -/
lemma tableStep_iff {table₀ : Table} (hacc : Accepted lib schema kind table₀ content)
    (hown : Own lib schema kind content) (hindex : Indexed schema kind table)
    (hexist : content.isExist → (table (rowKey lib schema kind content)).isSome) :
    tableStep lib o schema kind table content = some table' ↔
      ∃ row, StepRow lib o schema kind (schema.now kind table) content
          (table (rowKey lib schema kind content)) row ∧
        Function.update table (rowKey lib schema kind content) (some row) = table' := by
  by_cases h : content.isExist
  · obtain ⟨old, hold⟩ := Option.isSome_iff_exists.mp (hexist h)
    rw [tableStep_update h hacc.cell hold, hold, ← exists_and_left]
    refine exists_congr fun row => ?_
    rw [put_eq_some, StepRow, and_assoc, and_assoc]
    constructor
    · rintro ⟨hsets, hwrite, -, hput⟩
      rw [update_key hown hindex h hold hwrite, Function.update_idem] at hput
      exact ⟨h, hsets, hwrite, hput⟩
    · rintro ⟨-, hsets, hwrite, hput⟩
      refine ⟨hsets, hwrite, ?_⟩
      rw [update_key hown hindex h hold hwrite, Function.update_self, Function.update_idem]
      exact ⟨rfl, hput⟩
  · rw [tableStep_insert h, ← exists_and_left]
    refine exists_congr fun row => ?_
    rw [put_eq_some]
    constructor
    · rintro ⟨honce, hwrite, hnone, hput⟩
      rw [insert_key hacc.id hown h honce hwrite] at hnone hput
      rw [hnone]
      exact ⟨⟨h, honce, hwrite⟩, hput⟩
    · rintro ⟨hrow, hput⟩
      cases hold : table (rowKey lib schema kind content) with
      | some old =>
        rw [hold] at hrow
        exact absurd hrow.1 h
      | none =>
        rw [hold] at hrow
        obtain ⟨-, honce, hwrite⟩ := hrow
        refine ⟨honce, hwrite, ?_⟩
        rw [insert_key hacc.id hown h honce hwrite]
        exact ⟨hold, hput⟩

/-- The id of a row a step writes is one the column stores. -/
lemma tableStep_indexed {table₀ : Table} (hacc : Accepted lib schema kind table₀ content)
    (hindex : Indexed schema kind table)
    (h : tableStep lib o schema kind table content = some table') :
    Indexed schema kind table' := by
  by_cases hexist : content.isExist
  · cases hold : table (rowKey lib schema kind content) with
    | none =>
      rw [tableStep_absent hexist hacc.cell hold h]
      exact hindex
    | some old =>
      obtain ⟨-, row, hchange, hput⟩ := (tableStep_update hexist hacc.cell hold).mp h
      obtain ⟨l, row₁, -, hwrite, rfl⟩ := changeRow_written hchange
      refine (hindex.erase _).put ?_ hput
      rw [touch_id]
      exact writeRow_id hwrite (.inr (hindex _ old hold).2)
  · obtain ⟨-, row, hwrite, hput⟩ := (tableStep_insert hexist).mp h
    exact hindex.put (writeRow_id hwrite (.inl ⟨_, _, hacc.id, lower_id⟩)) hput

end step

/-! ### A whole list of contents -/

section runs

variable {lib : Ngx} {o : Order} {schema : Schema} {kind : Kind} {table table₀ table' : Table}
  {contents : List Parsed}

/-- The contents write their rows one after the other. -/
inductive Runs (lib : Ngx) (o : Order) (schema : Schema) (kind : Kind) :
    List Parsed → Table → Table → Prop
  | nil (table : Table) : Runs lib o schema kind [] table table
  | cons {content : Parsed} {contents : List Parsed} {table table' : Table} {row : Row} :
      StepRow lib o schema kind (schema.now kind table) content
        (table (rowKey lib schema kind content)) row →
      Runs lib o schema kind contents
        (Function.update table (rowKey lib schema kind content) (some row)) table' →
      Runs lib o schema kind (content :: contents) table table'

lemma isSome_update {k key : Cell} {row : Row} (h : (table k).isSome) :
    (Function.update table key (some row) k).isSome := by
  by_cases hk : k = key
  · subst hk
    rw [Function.update_self]
    rfl
  · rwa [Function.update_of_ne hk]

lemma foldlM_indexed (hacc : ∀ content ∈ contents, Accepted lib schema kind table₀ content)
    (hindex : Indexed schema kind table)
    (h : contents.foldlM (tableStep lib o schema kind) table = some table') :
    Indexed schema kind table' := by
  induction contents generalizing table with
  | nil => cases h; exact hindex
  | cons content contents ih =>
    rw [List.forall_mem_cons] at hacc
    obtain ⟨t, hstep, hrest⟩ := Option.bind_eq_some_iff.mp h
    exact ih hacc.2 (tableStep_indexed hacc.1 hindex hstep) hrest

lemma foldlM_iff_runs (hacc : ∀ content ∈ contents, Accepted lib schema kind table₀ content)
    (hown : ∀ content ∈ contents, Own lib schema kind content)
    (hindex : Indexed schema kind table)
    (hexist : ∀ content ∈ contents, content.isExist →
      (table (rowKey lib schema kind content)).isSome) :
    contents.foldlM (tableStep lib o schema kind) table = some table' ↔
      Runs lib o schema kind contents table table' := by
  induction contents generalizing table with
  | nil =>
    constructor
    · intro h; cases h; exact .nil _
    · intro h; cases h; rfl
  | cons content contents ih =>
    rw [List.forall_mem_cons] at hacc hown hexist
    have hstep (t : Table) : tableStep lib o schema kind table content = some t ↔ _ :=
      tableStep_iff hacc.1 hown.1 hindex hexist.1
    have ih' : ∀ t, tableStep lib o schema kind table content = some t →
        (contents.foldlM (tableStep lib o schema kind) t = some table' ↔
          Runs lib o schema kind contents t table') := by
      intro t ht
      refine ih hacc.2 hown.2 (tableStep_indexed hacc.1 hindex ht) fun c hc hc' => ?_
      obtain ⟨row, -, rfl⟩ := (hstep t).mp ht
      exact isSome_update (hexist.2 c hc hc')
    rw [List.foldlM_cons, Option.bind_eq_bind, Option.bind_eq_some_iff]
    constructor
    · rintro ⟨t, ht, hrest⟩
      have hruns := (ih' t ht).mp hrest
      obtain ⟨row, hrow, rfl⟩ := (hstep t).mp ht
      exact .cons hrow hruns
    · intro h
      cases h with
      | cons hrow hruns =>
        have ht := (hstep _).mpr ⟨_, hrow, rfl⟩
        exact ⟨_, ht, (ih' _ ht).mpr hruns⟩

/-- Only contents of rows that are not there yet are new, and each of another row. -/
lemma Runs.fresh (h : Runs lib o schema kind contents table table') :
    (∀ content ∈ contents, ¬ content.isExist → table (rowKey lib schema kind content) = none) ∧
      contents.Pairwise fun content content' =>
        rowKey lib schema kind content = rowKey lib schema kind content' → content'.isExist := by
  induction h with
  | nil => exact ⟨nofun, .nil⟩
  | @cons content contents table table' row hrow _ ih =>
    obtain ⟨hnone, hpair⟩ := ih
    rw [List.forall_mem_cons, List.pairwise_cons]
    refine ⟨⟨fun hexist => ?_, fun c hc hexist => ?_⟩, fun c hc hkey => ?_, hpair⟩
    · cases hold : table (rowKey lib schema kind content) with
      | none => rfl
      | some old =>
        rw [hold] at hrow
        exact absurd hrow.1 hexist
    · have := hnone c hc hexist
      by_cases hkey : rowKey lib schema kind c = rowKey lib schema kind content
      · rw [hkey, Function.update_self] at this
        cases this
      · rwa [Function.update_of_ne hkey] at this
    · by_contra hexist
      have := hnone c hc hexist
      rw [← hkey, Function.update_self] at this
      cases this

/-- The last steps of a run, from that of a content on. -/
lemma Runs.from_mem (h : Runs lib o schema kind contents table table') {content : Parsed}
    (hmem : content ∈ contents) :
    ∃ t row rest, StepRow lib o schema kind (schema.now kind t) content
        (t (rowKey lib schema kind content)) row ∧
      rest ⊆ contents ∧ Runs lib o schema kind rest
        (Function.update t (rowKey lib schema kind content) (some row)) table' := by
  induction h with
  | nil => cases hmem
  | cons hrow hruns ih =>
    rcases List.mem_cons.mp hmem with rfl | hmem
    · exact ⟨_, _, _, hrow, List.subset_cons_self _ _, hruns⟩
    · obtain ⟨t, row, rest, hrow', hsub, hruns'⟩ := ih hmem
      exact ⟨t, row, rest, hrow', List.Subset.trans hsub (List.subset_cons_self _ _), hruns'⟩

/-- What is stored in a column stays there if every content stores the same. -/
lemma Runs.stays (h : Runs lib o schema kind contents table table') {key : Cell} {row : Row}
    {column : Str} (hcolumn : column ≠ modifytime) {y : Cell} (hrow : table key = some row)
    (hget : row column = some y)
    (hsame : ∀ content ∈ contents, rowKey lib schema kind content = key → ∀ k v c x,
      Listed content k v → lower k = column → given lib schema v = some c →
        schema.store kind column c = some x → x = y) :
    ∃ row', table' key = some row' ∧ row' column = some y := by
  induction h generalizing row with
  | nil => exact ⟨row, hrow, hget⟩
  | @cons content contents table table' new hnew _ ih =>
    rw [List.forall_mem_cons] at hsame
    by_cases hkey : rowKey lib schema kind content = key
    · subst hkey
      refine ih (Function.update_self _ _ _) ?_ hsame.2
      rw [hrow] at hnew
      obtain ⟨-, -, hchange⟩ := hnew
      rcases changeRow_get hchange hcolumn with ⟨k, v, c, x, hv, hk, hc, hstore, hx⟩ | ⟨-, hx⟩
      · rw [hx, hsame.1 rfl k v c x (listed_iff.mp hv) hk hc hstore]
      · rw [hx, hget]
    · refine ih ?_ hget hsame.2
      rw [Function.update_of_ne (Ne.symm hkey), hrow]

end runs

/-! ### Contents that fit are upserted -/

section fits

variable {lib : Ngx} {o : Order} {schema : Schema} {kind : Kind} {table t : Table}
  {content content' : Parsed} {now : Cell}

/-- A content wants something of every column its row had but the time of its last change. -/
lemma wants_total (content : Parsed) (old : Row) {column : Str} (hcolumn : column ≠ modifytime) :
    ∃ x, Wants lib schema content (some old) column x := by
  by_cases h : ∃ k v, Listed content k v ∧ lower k = column
  · obtain ⟨k, v, hlist, rfl⟩ := h
    exact ⟨_, .listed hlist⟩
  · exact ⟨_, .kept (fun k v hlist hk => h ⟨k, v, hlist, hk⟩) hcolumn rfl⟩

lemma Accepted.wants_ne (hacc : Accepted lib schema kind table content) {old : Option Row}
    {column : Str} {x : Option Cell} (h : Wants lib schema content old column x) :
    column ≠ modifytime := by
  cases h with
  | listed hlist => exact hacc.unstamped _ _ hlist.1
  | kept _ hcolumn => exact hcolumn

lemma Fits.own (h : Fits lib schema kind content) : Own lib schema kind content where
  sameId := h.sameId
  newId hexist c x hc hx := by
    obtain ⟨-, c', x', hc', hx', hkey⟩ := h.newId hexist
    rw [hc] at hc'
    cases hc'
    rw [hx] at hx'
    cases hx'
    exact hkey

/-- A row can be written for a content that fits. -/
lemma Fits.stepRow (h : Fits lib schema kind content)
    (hacc : Accepted lib schema kind table content) {old : Option Row}
    (hold : content.isExist = old.isSome) :
    ∃ row, StepRow lib o schema kind now content old row := by
  cases old with
  | some old =>
    have hwrite : ∃ row,
        changeRow lib o schema kind now (content.attrs.erase (lit "id")) old = some row := by
      refine changeRow_isSome.mpr (writeRow_isSome.mpr fun k v hv => ?_)
      obtain ⟨x, hx, hcolumn, hstore⟩ := h.stored k v (listed_iff.mp hv)
      exact ⟨x, x, hx, hcolumn, hstore⟩
    obtain ⟨row, hrow⟩ := hwrite
    exact ⟨row, hold, h.sets hold, hrow⟩
  | none =>
    have hexist : ¬ content.isExist := by simp [hold]
    have hwrite : ∃ row,
        writeRow lib o schema kind content.attrs (blank schema kind now) = some row := by
      refine writeRow_isSome.mpr fun k v hv => ?_
      by_cases hk : k = lit "id"
      · subst hk
        rw [hacc.id] at hv
        cases hv
        obtain ⟨hcolumn, c, x, hc, hstore, -⟩ := h.newId hexist
        rw [lower_id]
        exact ⟨c, x, hc, hcolumn, hstore⟩
      · obtain ⟨x, hx, hcolumn, hstore⟩ := h.stored k v ⟨hv, hk⟩
        exact ⟨x, x, hx, hcolumn, hstore⟩
    obtain ⟨row, hrow⟩ := hwrite
    exact ⟨row, hexist, h.once hexist, hrow⟩

/-- The row written has every value listed, exactly as given. -/
lemma Fits.listed_get (h : Fits lib schema kind content)
    (hacc : Accepted lib schema kind table content) {old : Option Row} {row : Row}
    (hrow : StepRow lib o schema kind now content old row) {k : Str} {v : Val}
    (hlist : Listed content k v) : row (lower k) = given lib schema v := by
  cases old with
  | some old =>
    obtain ⟨-, -, hchange⟩ := hrow
    rcases changeRow_get hchange (hacc.unstamped k v hlist.1) with
      ⟨k', v', c, x, hv, hk, hc, hstore, hget⟩ | ⟨hnone, -⟩
    · have hlist' := listed_iff.mp hv
      obtain ⟨y, hy, -, hexact⟩ := h.stored k' v' hlist'
      rw [hc] at hy
      cases hy
      rw [hk, hstore] at hexact
      cases hexact
      rw [hget, ← hc, h.agree k v k' v' hlist hlist' hk.symm]
    · exact absurd rfl (hnone k v (listed_iff.mpr hlist))
  | none =>
    obtain ⟨-, honce, hwrite⟩ := hrow
    rcases writeRow_get hwrite (lower k) with ⟨k', v', c, x, hv, hk, hc, hstore, hget⟩ | ⟨hnone, -⟩
    · have hkk := honce k' v' k v hv hlist.1 hk
      subst hkk
      rw [hlist.1] at hv
      cases hv
      obtain ⟨y, hy, -, hexact⟩ := h.stored k' v hlist
      rw [hc] at hy
      cases hy
      rw [hstore] at hexact
      cases hexact
      rw [hget, hc]
    · exact absurd rfl (hnone k v hlist.1)

/-- A column that is not listed stays as it was. -/
lemma StepRow.kept_get {old row : Row} {column : Str}
    (hrow : StepRow lib o schema kind now content (some old) row)
    (hnone : ∀ k v, Listed content k v → lower k ≠ column) (hcolumn : column ≠ modifytime) :
    row column = old column := by
  obtain ⟨-, -, hchange⟩ := hrow
  rcases changeRow_get hchange hcolumn with ⟨k, v, c, x, hv, hk, -⟩ | ⟨-, hget⟩
  · exact absurd hk (hnone k v (listed_iff.mp hv))
  · exact hget

lemma StepRow.stamped {old row : Row} (hacc : Accepted lib schema kind table content)
    (hrow : StepRow lib o schema kind now content (some old) row) :
    row modifytime = old modifytime ∨ row modifytime = some now := by
  obtain ⟨-, -, hchange⟩ := hrow
  exact changeRow_stamped hchange fun k v hv => hacc.unstamped k v (listed_iff.mp hv).1

/-- One more content is upserted, and the ones before it stay so. -/
lemma upserted_snoc {done : List Parsed} (hups : Upserted lib schema kind table t done)
    (hdone : ∀ c ∈ done, Accepted lib schema kind table c)
    (hfits : Fits lib schema kind content) (hacc : Accepted lib schema kind table content)
    (hagrees : ∀ c ∈ done, Agrees lib schema kind table c content) :
    ∃ row, StepRow lib o schema kind (schema.now kind t) content
        (t (rowKey lib schema kind content)) row ∧
      Upserted lib schema kind table
        (Function.update t (rowKey lib schema kind content) (some row)) (done ++ [content]) := by
  have hexist : content.isExist = (t (rowKey lib schema kind content)).isSome := by
    by_cases hshared : ∃ c ∈ done, rowKey lib schema kind c = rowKey lib schema kind content
    · obtain ⟨c, hc, hkey⟩ := hshared
      obtain ⟨row, hrow, -⟩ := hups.row c hc
      rw [← hkey, hrow, (hagrees c hc hkey).1]
      rfl
    · rw [hacc.exist, hups.others _ fun c hc hkey => hshared ⟨c, hc, hkey⟩]
  obtain ⟨row, hrow⟩ : ∃ row, StepRow lib o schema kind (schema.now kind t) content
      (t (rowKey lib schema kind content)) row := hfits.stepRow hacc hexist
  have hwants : ∀ column x, Wants lib schema content (table (rowKey lib schema kind content))
      column x → row column = x := by
    intro column x hx
    cases hx with
    | listed hlist => exact hfits.listed_get hacc hrow hlist
    | @kept _ old hnone hcolumn hold =>
      by_cases hshared : ∃ c ∈ done, rowKey lib schema kind c = rowKey lib schema kind content
      · -- the row is as an earlier content wants it, and that content agrees
        obtain ⟨c, hc, hkey⟩ := hshared
        obtain ⟨prev, hprev, hget⟩ := hups.row c hc
        rw [hkey] at hprev hget
        obtain ⟨x, hx⟩ : ∃ x, Wants lib schema c (some old) column x := wants_total c old hcolumn
        have heq := (hagrees c hc hkey).2 column x (old column)
        rw [hkey, hold] at heq
        rw [hprev] at hrow
        rw [hrow.kept_get hnone hcolumn, hget column x (hold ▸ hx)]
        exact heq hx (.kept hnone hcolumn rfl)
      · rw [hups.others _ fun c hc hkey => hshared ⟨c, hc, hkey⟩, hold] at hrow
        exact hrow.kept_get hnone hcolumn
  refine ⟨row, hrow, ⟨fun c hc => ?_, fun k old row' hold hrow' => ?_, fun k hk => ?_⟩⟩
  · rcases List.mem_append.mp hc with hc | hc
    · by_cases hkey : rowKey lib schema kind c = rowKey lib schema kind content
      · obtain ⟨hcontent, heq⟩ := hagrees c hc hkey
        rw [hkey] at heq ⊢
        refine ⟨row, Function.update_self _ _ _, fun column x hx => ?_⟩
        rw [hacc.exist] at hcontent
        obtain ⟨old, hold⟩ := Option.isSome_iff_exists.mp hcontent
        obtain ⟨x', hx'⟩ : ∃ x', Wants lib schema content (some old) column x' :=
          wants_total content old ((hdone c hc).wants_ne hx)
        rw [← hold] at hx'
        rw [hwants column x' hx', heq column x x' hx hx']
      · rw [Function.update_of_ne hkey]
        exact hups.row c hc
    · rw [List.mem_singleton.mp hc]
      exact ⟨row, Function.update_self _ _ _, hwants⟩
  · by_cases hk : k = rowKey lib schema kind content
    · subst hk
      rw [Function.update_self, Option.some.injEq] at hrow'
      subst hrow'
      rw [hacc.exist, hold] at hexist
      obtain ⟨prev, hprev⟩ := Option.isSome_iff_exists.mp hexist.symm
      rw [hprev] at hrow
      rcases hrow.stamped hacc with hkept | hnow
      · rw [Stamped, hkept]
        exact hups.stamp _ old prev hold hprev
      · exact .inr ⟨t, hnow⟩
    · rw [Function.update_of_ne hk] at hrow'
      exact hups.stamp k old row' hold hrow'
  · rw [Function.update_of_ne (hk content (by simp)).symm]
    exact hups.others k fun c hc => hk c (List.mem_append_left _ hc)

/-- **Contents that fit and agree are all carried out, and upserted.** -/
lemma runs_of_fits {done contents : List Parsed}
    (hacc : ∀ c ∈ done ++ contents, Accepted lib schema kind table c)
    (hfits : ∀ c ∈ contents, Fits lib schema kind c)
    (hagrees : (done ++ contents).Pairwise (Agrees lib schema kind table))
    (hups : Upserted lib schema kind table t done) :
    ∃ t', Runs lib o schema kind contents t t' ∧
      Upserted lib schema kind table t' (done ++ contents) := by
  induction contents generalizing done t with
  | nil =>
    rw [List.append_nil]
    exact ⟨t, .nil t, hups⟩
  | cons content contents ih =>
    rw [List.forall_mem_cons] at hfits
    have hbefore := (List.pairwise_append.mp hagrees).2.2
    obtain ⟨row, hrow, hups'⟩ := upserted_snoc (o := o) hups
      (fun c hc => hacc c (List.mem_append_left _ hc)) hfits.1
      (hacc content (List.mem_append_right _ List.mem_cons_self)) fun c hc =>
        hbefore c hc content List.mem_cons_self
    rw [List.append_cons] at hagrees hacc
    obtain ⟨t', hruns, hend⟩ := ih hacc hfits.2 hagrees hups'
    rw [← List.append_cons] at hend
    exact ⟨t', .cons hrow hruns, hend⟩

end fits

/-! ### Only contents that fit are upserted -/

section necessary

variable {lib : Ngx} {o : Order} {schema : Schema} {kind : Kind} {table table' : Table}
  {contents : List Parsed}

/-- Contents that were upserted want the same of a row they share. -/
lemma wants_same (hups : Upserted lib schema kind table table' contents) {c c' : Parsed}
    (hc : c ∈ contents) (hc' : c' ∈ contents)
    (hkey : rowKey lib schema kind c = rowKey lib schema kind c') {column : Str}
    {x x' : Option Cell}
    (hx : Wants lib schema c (table (rowKey lib schema kind c)) column x)
    (hx' : Wants lib schema c' (table (rowKey lib schema kind c)) column x') : x = x' := by
  obtain ⟨row, hrow, hget⟩ := hups.row c hc
  obtain ⟨row', hrow', hget'⟩ := hups.row c' hc'
  rw [← hkey] at hrow' hget'
  rw [hrow] at hrow'
  cases hrow'
  rw [← hget column x hx, hget' column x' hx']

/-- Rows that were upserted have the ids of their contents. -/
lemma own_of_upserted (hindex : Indexed schema kind table')
    (hups : Upserted lib schema kind table table' contents) {content : Parsed} (hmem : content ∈ contents) : Own lib schema kind content := by
  obtain ⟨row, hrow, hget⟩ := hups.row content hmem
  obtain ⟨hkey, hstored⟩ := hindex _ row hrow
  constructor
  · intro _ k v x hlist hk hx
    have hid := hget _ _ (.listed hlist)
    rw [hk, hx] at hid
    rw [← hkey, Row.id, hid, Option.getD_some]
  · intro _ c x hc hstore
    have hcc : schema.key kind c = schema.key kind row.id := by rw [hkey, rowKey_eq hc]
    rw [← hkey]
    exact schema.store_key kind c row.id x row.id hcc hstore hstored

/-- What a step stores for a value that is listed. -/
lemma StepRow.stores {content : Parsed} {now : Cell} {old : Option Row} {row : Row}
    (hacc : Accepted lib schema kind table content)
    (hstep : StepRow lib o schema kind now content old row)
    (hagree : ∀ k v k' v', Listed content k v → Listed content k' v' → lower k = lower k' →
      given lib schema v = given lib schema v') {k : Str} {v : Val} (hlist : Listed content k v) :
    ∃ c y, given lib schema v = some c ∧ lower k ∈ schema.columns kind ∧
      schema.store kind (lower k) c = some y ∧ row (lower k) = some y := by
  cases old with
  | some old =>
    obtain ⟨-, -, hchange⟩ := hstep
    obtain ⟨_, _, _, hcolumn, -⟩ :=
      writeRow_isSome.mp (changeRow_isSome.mp ⟨row, hchange⟩) k v (listed_iff.mpr hlist)
    rcases changeRow_get hchange (hacc.unstamped k v hlist.1) with
      ⟨k', v', c, y, hv, hk, hc, hstore, hy⟩ | ⟨hnone, -⟩
    · rw [← hagree k v k' v' hlist (listed_iff.mp hv) hk.symm] at hc
      exact ⟨c, y, hc, hcolumn, hstore, hy⟩
    · exact absurd rfl (hnone k v (listed_iff.mpr hlist))
  | none =>
    obtain ⟨-, honce, hwrite⟩ := hstep
    obtain ⟨_, _, _, hcolumn, -⟩ := writeRow_isSome.mp ⟨row, hwrite⟩ k v hlist.1
    rcases writeRow_get hwrite (lower k) with ⟨k', v', c, y, hv, hk, hc, hstore, hy⟩ | ⟨hnone, -⟩
    · have hkk := honce k' v' k v hv hlist.1 hk
      subst hkk
      rw [hlist.1] at hv
      cases hv
      exact ⟨c, y, hc, hcolumn, hstore, hy⟩
    · exact absurd rfl (hnone k v hlist.1)

/-- Every content of a run that upserted them fits. -/
lemma fits_of_runs (hacc : ∀ c ∈ contents, Accepted lib schema kind table c)
    (hruns : Runs lib o schema kind contents table table')
    (hups : Upserted lib schema kind table table' contents)
    {content : Parsed} (hmem : content ∈ contents) (hown : Own lib schema kind content) :
    Fits lib schema kind content := by
  obtain ⟨t, row, rest, hstep, hsub, hrest⟩ := hruns.from_mem hmem
  obtain ⟨final, hfinal, hget⟩ := hups.row content hmem
  have hagree : ∀ k v k' v', Listed content k v → Listed content k' v' → lower k = lower k' →
      given lib schema v = given lib schema v' := by
    intro k v k' v' hlist hlist' hk
    have hx := hget _ _ (.listed hlist)
    rw [hk] at hx
    rw [← hx, hget _ _ (.listed hlist')]
  refine ⟨fun k v hlist => ?_, hagree, fun hexist => ?_, hown.sameId, fun hexist => ?_,
    fun hexist => ?_⟩
  · -- what the step stored is still there in the end, when the row holds the value given
    obtain ⟨c, y, hc, hcolumn, hstore, hy⟩ := hstep.stores (hacc content hmem) hagree hlist
    have hne : lower k ≠ modifytime := (hacc content hmem).unstamped k v hlist.1
    obtain ⟨final', hfinal', hy'⟩ := hrest.stays hne (Function.update_self _ _ _) hy
      fun c' hc' hkey k' v' d x hlist' hk hd hx => by
        have hwant : Wants lib schema c' (table (rowKey lib schema kind content)) (lower k)
            (given lib schema v') := hk ▸ .listed hlist'
        have heq := wants_same hups hmem (hsub hc') hkey.symm (.listed hlist) hwant
        rw [hc, hd] at heq
        cases heq
        rw [hstore] at hx
        exact (Option.some.inj hx).symm
    rw [hfinal] at hfinal'
    cases hfinal'
    have hgiven := hget _ _ (.listed hlist)
    rw [hy', hc] at hgiven
    cases hgiven
    exact ⟨c, hc, hcolumn, hstore⟩
  · cases hold : t (rowKey lib schema kind content) with
    | some old =>
      rw [hold] at hstep
      exact hstep.2.1
    | none =>
      rw [hold] at hstep
      exact absurd hexist hstep.1
  · cases hold : t (rowKey lib schema kind content) with
    | some old =>
      rw [hold] at hstep
      exact absurd hstep.1 hexist
    | none =>
      rw [hold] at hstep
      exact hstep.2.1
  · cases hold : t (rowKey lib schema kind content) with
    | some old =>
      rw [hold] at hstep
      exact absurd hstep.1 hexist
    | none =>
      rw [hold] at hstep
      have hid := (hacc content hmem).id
      obtain ⟨c, x, hc, hcolumn, hstore⟩ := writeRow_isSome.mp ⟨row, hstep.2.2⟩ _ _ hid
      rw [lower_id] at hcolumn hstore
      exact ⟨hcolumn, c, x, hc, hstore, hown.newId hexist c x hc hstore⟩

end necessary

/-! ### The request -/

section request

variable {lib : Ngx} {o : Order} {schema : Schema} {kind : Kind} {db : Db} {table : Table}
  {contents : List Parsed}

/-- **A list of contents is carried out and upserted exactly when its contents fit and agree.** -/
lemma foldlM_upserted_iff (hacc : ∀ c ∈ contents, Accepted lib schema kind table c)
    (hindex : Indexed schema kind table) :
    (∃ table', contents.foldlM (tableStep lib o schema kind) table = some table' ∧
      Upserted lib schema kind table table' contents) ↔
    (∀ c ∈ contents, Fits lib schema kind c) ∧
      contents.Pairwise (Agrees lib schema kind table) := by
  have hexist : ∀ c ∈ contents, c.isExist → (table (rowKey lib schema kind c)).isSome :=
    fun c hc h => (hacc c hc).exist.symm.trans h
  constructor
  · rintro ⟨table', hfold, hups⟩
    have hown : ∀ c ∈ contents, Own lib schema kind c := fun c hc =>
      own_of_upserted (foldlM_indexed hacc hindex hfold) hups hc
    have hruns := (foldlM_iff_runs hacc hown hindex hexist).mp hfold
    refine ⟨fun c hc => fits_of_runs hacc hruns hups hc (hown c hc),
      hruns.fresh.2.imp_of_mem fun hc hc' hnew hkey => ⟨hnew hkey, fun column x x' hx hx' => ?_⟩⟩
    exact wants_same hups hc hc' hkey hx hx'
  · rintro ⟨hfits, hagrees⟩
    have hnil : Upserted lib schema kind table table [] :=
      ⟨nofun, fun k old row hold hrow => by rw [hold] at hrow; cases hrow; exact .inl rfl,
        fun _ _ => rfl⟩
    obtain ⟨table', hruns, hups⟩ : ∃ table', Runs lib o schema kind contents table table' ∧
        Upserted lib schema kind table table' ([] ++ contents) :=
      runs_of_fits hacc hfits hagrees hnil
    exact ⟨table', (foldlM_iff_runs hacc (fun c hc => (hfits c hc).own) hindex hexist).mpr hruns,
      hups⟩

lemma exec_ok {st : Statement} {db' : Db} (hkind : kind ≠ .publisher) :
    (engine schema lib).exec kind st db = .ok db' ↔
      ∃ table, run schema kind (db kind) st = some table ∧ Function.update db kind table = db' := by
  unfold engine
  dsimp only
  cases run schema kind (db kind) st with
  | none => simp
  | some table => simp [hkind]

/-- Without a failed query, a round of the loop is a step on the table of the object. -/
lemma updateStep_of_tableStep (hkind : kind ≠ .publisher) {content : Parsed} {text : Str}
    (htext : checkString lib.tostring (some content.id) = .ok text)
    (h : tableStep lib o schema kind (db kind) content = some table) (i : ℕ) :
    updateStep lib o (engine schema lib) (fun _ => none) kind content i db =
      .ok (.ok (Function.update db kind table, some text)) := by
  obtain ⟨st, hst, hrun⟩ := tableStep_eq_some.mp h
  unfold updateStep
  rw [hst, ok_bind, query, (exec_ok hkind).mpr ⟨table, hrun, rfl⟩]
  dsimp only
  rw [htext]
  rfl

lemma tableStep_of_updateStep (hkind : kind ≠ .publisher) {content : Parsed} {i : ℕ} {db' : Db}
    {id : Option Str} (h : updateStep lib o (engine schema lib) (fun _ => none) kind content i db =
      .ok (.ok (db', id))) :
    ∃ t, tableStep lib o schema kind (db kind) content = some t ∧
      Function.update db kind t = db' := by
  unfold updateStep at h
  obtain ⟨st, hst, h⟩ := bind_ok.mp h
  split at h
  · obtain ⟨_, -, h⟩ := bind_ok.mp h
    cases h
  · next db₁ hquery =>
    obtain ⟨t, hrun, heq⟩ := (exec_ok hkind).mp (query_ok hquery)
    obtain ⟨_, -, h⟩ := bind_ok.mp h
    cases h
    exact ⟨t, tableStep_eq_some.mpr ⟨st, hst, hrun⟩, heq⟩

lemma runSteps_of_foldlM {table₀ : Table}
    (hacc : ∀ c ∈ contents, kind ≠ .publisher ∧ Accepted lib schema kind table₀ c)
    (h : contents.foldlM (tableStep lib o schema kind) (db kind) = some table) (i : ℕ) :
    ∃ ids, runSteps (updateStep lib o (engine schema lib) (fun _ => none) kind) contents i db =
      (.ok (.ok ids), Function.update db kind table) := by
  induction contents generalizing i db with
  | nil =>
    cases h
    exact ⟨[], by rw [Function.update_eq_self]; rfl⟩
  | cons content contents ih =>
    rw [List.forall_mem_cons] at hacc
    obtain ⟨⟨hkind, hc⟩, hrest⟩ := hacc
    obtain ⟨t, hstep, hfold⟩ := Option.bind_eq_some_iff.mp h
    obtain ⟨text, hs⟩ := hc.text
    have hfold' : contents.foldlM (tableStep lib o schema kind) (Function.update db kind t kind) =
        some table := by
      rw [Function.update_self]
      exact hfold
    obtain ⟨ids, hids⟩ := ih hrest hfold' (i + 1)
    refine ⟨text :: ids, ?_⟩
    rw [runSteps, updateStep_of_tableStep hkind hs hstep]
    dsimp only
    rw [hids, Function.update_idem]
    rfl

lemma foldlM_of_runSteps (hkind : contents = [] ∨ kind ≠ .publisher) {i : ℕ} {ids : List Str}
    {db' : Db}
    (h : runSteps (updateStep lib o (engine schema lib) (fun _ => none) kind) contents i db =
      (.ok (.ok ids), db')) :
    contents.foldlM (tableStep lib o schema kind) (db kind) = some (db' kind) := by
  induction contents generalizing i db ids with
  | nil => cases h; rfl
  | cons content contents ih =>
    unfold runSteps at h
    split at h
    · cases h
    · cases h
    · next db₁ id hstep =>
      replace hkind := hkind.resolve_left (List.cons_ne_nil _ _)
      obtain ⟨t, ht, rfl⟩ := tableStep_of_updateStep hkind hstep
      rw [List.foldlM_cons, ht]
      cases hrest : runSteps (updateStep lib o (engine schema lib) (fun _ => none) kind) contents
        (i + 1) (Function.update db kind t) with
      | mk r db₂ =>
        rw [hrest] at h
        obtain ⟨hr, rfl⟩ := Prod.mk.inj h
        rcases r with e | errInfo | rest
        · cases hr
        · cases hr
        · have hfold := ih (.inr hkind) hrest
          rw [Function.update_self] at hfold
          exact hfold

variable {objectName : Str} {contentList : List Content}

/-- **A request that `contentParse` accepts is an upsert exactly when its contents fit and
agree.** -/
theorem upserts_iff (hindex : ∀ kind, Indexed schema kind (db kind))
    (hparse : contentParse lib o (engine schema lib) (fun _ => none) objectName contentList false
      db = .ok (.ok (kind, contents))) :
    Upserts lib o schema kind contents db ↔
      (∀ content ∈ contents, Fits lib schema kind content) ∧
        contents.Pairwise (Agrees lib schema kind (db kind)) := by
  have hacc := contentParse_ok hparse
  rw [← foldlM_upserted_iff (o := o) (fun c hc => (hacc c hc).2) (hindex kind)]
  have hkind : contents = [] ∨ kind ≠ .publisher := by
    rcases contents with _ | ⟨c, contents⟩
    · exact .inl rfl
    · exact .inr (hacc c List.mem_cons_self).1
  constructor
  · rintro ⟨ids, db', hrun, hups⟩
    exact ⟨db' kind, foldlM_of_runSteps hkind hrun, hups⟩
  · rintro ⟨table', hfold, hups⟩
    obtain ⟨ids, hids⟩ := runSteps_of_foldlM hacc hfold 0
    exact ⟨ids, _, hids, by rw [Function.update_self]; exact hups⟩

end request

section samples

/-- `contentParse` on one content for a DSP. -/
def sampleParse (attrs : Tbl Val) : Lua (Except Str (Kind × List Parsed)) :=
  contentParse (Ngx.ofTexts []) .plain (engine plainSchema (Ngx.ofTexts [])) (fun _ => none)
    (lit "dsp") [.object attrs] false sampleDb

def kindOf : Lua (Except Str (Kind × List Parsed)) → Option Kind
  | .ok (.ok (kind, _)) => some kind
  | _ => none

def contentsOf : Lua (Except Str (Kind × List Parsed)) → List Parsed
  | .ok (.ok (_, contents)) => contents
  | _ => []

lemma eq_parsed {r : Lua (Except Str (Kind × List Parsed))} {kind : Kind}
    (h : kindOf r = some kind) : r = .ok (.ok (kind, contentsOf r)) := by
  unfold kindOf at h
  split at h
  · cases h; rfl
  · cases h

/-- A new status for the first DSP. -/
def statusAttrs : Tbl Val := (∅ : Tbl Val).putAll [(lit "id", .num 1), (lit "status", .num 0)]

theorem upserts_iff_sample :
    Upserts (Ngx.ofTexts []) .plain plainSchema .dsp (contentsOf (sampleParse statusAttrs)) sampleDb ↔
      (∀ content ∈ contentsOf (sampleParse statusAttrs),
        Fits (Ngx.ofTexts []) plainSchema .dsp content) ∧
      (contentsOf (sampleParse statusAttrs)).Pairwise
        (Agrees (Ngx.ofTexts []) plainSchema .dsp (sampleDb .dsp)) :=
  upserts_iff sampleDb_indexed (eq_parsed (by decide +kernel))

/-- The update with the new status. -/
def sampleUpdate : Lua (Except Str (List Str)) × Db :=
  updateInfoDB (Ngx.ofTexts []) .plain (engine plainSchema (Ngx.ofTexts [])) (fun _ => none) .dsp
    (contentsOf (sampleParse statusAttrs)) sampleDb

def stampOf (db : Db) (id : Cell) : Option Cell := (db .dsp id).bind (· modifytime)

/-- The update is carried out, and changes a column that it does not list. -/
theorem status_update_stamps :
    sampleParse statusAttrs = .ok (.ok (.dsp, contentsOf (sampleParse statusAttrs))) ∧
      (∀ content ∈ contentsOf (sampleParse statusAttrs), ∀ e ∈ content.attrs.entries,
        lower e.1 ≠ modifytime) ∧
      sampleUpdate.1.toOption.bind Except.toOption = some [lit "1"] ∧
      stampOf sampleUpdate.2 (.num 1) ≠ stampOf sampleDb (.num 1) :=
  ⟨eq_parsed (by decide +kernel), by decide +kernel, by decide +kernel, by decide +kernel⟩

end samples

end Sax.Upsert
