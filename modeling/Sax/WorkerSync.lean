import Sax.Atomic
import Sax.StoreSync

/-!
One worker and one object of the database, while requests about the object and the
notifications that follow them are under way.

The center checks, looks up and writes in separate statements. The worker reads the row back
for an update and stores it in a later step; for a deletion it drops the entry. Nothing
orders the steps of two handlers, so an entry can be written from a row that has changed since.
-/

namespace Sax.WorkerSync

open Sax.LuaVal Sax.Loop Sax.Runtime Sax.Atomic Sax.ObjectInfo Sax.StoreSync

/-- An object of a table: the id of its row, the text of that id and its object id. A
creative or an advertiser has an object id of its own. -/
structure Object (lib : Ngx) where
  kind : Kind
  id : Cell
  text : Str
  objectId : Str
  text_eq : id.text lib = .ok text
  literal_eq : literal lib kind text = .ok id
  plain : kind.glued = none → objectId = text

/-- The rows of the table of the object, and the dictionary of the worker. -/
structure Shared where
  rows : List Row
  dict : Tbl Str

inductive Op
  | checkExist (content : Content)
  | getObjectId (id : Cell)
  | updateInfo (content : Content)
  | insertInfo (content : Content)
  | deleteInfo (content : Content)
  | getInfoDB (kind : Kind) (id : Str)
  | setDict (key value : Str)
  | eraseDict (key : Str)

abbrev Reply : Op → Type
  | .checkExist _ => Bool
  | .getObjectId _ => Lua (Option Str)
  | .updateInfo _ | .insertInfo _ => Lua Unit
  | .getInfoDB _ _ => Lua (Option Row)
  | .deleteInfo _ | .setDict _ _ | .eraseDict _ => Unit

section exec

variable (lib : Ngx) (sql : MySql) (kind : Kind)

/-- A statement that fails changes nothing. -/
def Shared.write (s : Shared) : Lua (List Row) → Lua Unit × Shared
  | .ok rows => (.ok (), { s with rows })
  | .error e => (.error e, s)

def exec : (o : Op) → Shared → Reply o × Shared
  | .checkExist content, s => (StoreSync.checkExist sql s.rows content, s)
  | .getObjectId id, s => (StoreSync.getObjectId lib sql kind s.rows id, s)
  | .updateInfo content, s => s.write (StoreSync.updateInfo sql s.rows content)
  | .insertInfo content, s => s.write (StoreSync.insertInfo sql s.rows content)
  | .deleteInfo content, s =>
    ((), { s with rows := s.rows.filter fun row => !sql.eq content.id (row.col "id") })
  | .getInfoDB kind id, s => (ObjectInfo.getInfoDB lib sql kind s.rows id, s)
  | .setDict key value, s => ((), { s with dict := s.dict.insert key value })
  | .eraseDict key, s => ((), { s with dict := s.dict.erase key })

end exec

/-! ### The programs -/

abbrev Program := Prog Op Reply

section programs

variable (lib : Ngx)

/-- `object:updateInfoSD`, with what makes the handler answer 500 as an error. -/
def updateInfoSD (kind : Kind) (id : Str) : Program (Lua Unit) := do
  match ← Prog.perform (Op.getInfoDB kind id) with
  | .error e => return .error e
  | .ok none => return .error (.error "error update object in SD")
  | .ok (some row) =>
    match entry lib kind row with
    | .error e => return .error e
    | .ok (key, value) =>
      Prog.perform (Op.setDict key value)
      return .ok ()

/-- `object:deleteInfoSD` -/
def deleteInfoSD (kind : Kind) (id : Str) : Program (Lua Unit) := do
  Prog.perform (Op.eraseDict (kind.sharedDictPre ++ id))
  return .ok ()

def handleSD (kind : Kind) (isDelete : Bool) (id : Str) : Program (Lua Unit) :=
  if isDelete then deleteInfoSD kind id else updateInfoSD lib kind id

/-- `sax.updateObjectInfo` for a notification of one id. -/
def handler (kind : Kind) (isDelete : Bool) (id : Str) : Program (Lua Unit) := do
  match ← handleSD lib kind isDelete id with
  | .error e => return .error e
  | .ok () =>
    match kind.virtualObject with
    | none => return .ok ()
    | some kind => handleSD lib kind isDelete id

/-- The statement `updateInfoDB` picks by the flag `_isExist`. -/
def putInfo (content : Content) (isExist : Bool) : Program (Lua Unit) :=
  if isExist then Prog.perform (Op.updateInfo content) else Prog.perform (Op.insertInfo content)

/-- `contentParse` and `updateInfoDB`, or `deleteInfoDB`, on a list of one object: the id to
notify, or the error the center answers FAIL with. A row that is gone when the object id is looked up
leaves no id. -/
def writeDB (content : Content) (isDelete : Bool) : Program (Lua (Option Str)) := do
  let isExist ← Prog.perform (Op.checkExist content)
  if isDelete then
    if isExist then
      match ← Prog.perform (Op.getObjectId content.id) with
      | .error e => return .error e
      | .ok objectId =>
        Prog.perform (Op.deleteInfo content)
        return .ok objectId
    else return .error (.error "not exists")
  else
    match ← putInfo content isExist with
    | .error e => return .error e
    | .ok () => return (content.id.text lib).map some

/-- A request of the center and the notification it ends with. -/
def operation (kind : Kind) (content : Content) (isDelete : Bool) : Program (Lua Unit) := do
  match ← writeDB lib content isDelete with
  | .error e => return .error e
  | .ok none => return .error (.error "fail in get args")
  | .ok (some id) => handler lib kind isDelete id

end programs

abbrev Ev := Event ℕ Op Reply Shared
abbrev Worker := Pool ℕ Op Reply Shared (Lua Unit)

/-- A write to the row of an object: the columns to write, or its deletion. -/
structure Change where
  attrs : List (Str × Cell)
  isDelete : Bool

section object

variable {lib : Ngx} (sql : MySql) (x : Object lib)

def Object.content (change : Change) : Content := ⟨x.id, change.attrs⟩

/-- The requests about the object, each with the handler of its notification. -/
def Object.start (changes : ℕ → Change) (s : Shared) : Worker :=
  ⟨s, fun t => operation lib x.kind (x.content (changes t)) (changes t).isDelete⟩

/-- The runs of the requests; nothing else writes. -/
abbrev Object.Run (c : Worker) : List Ev → Worker → Prop :=
  Atomic.Run (exec lib sql x.kind) (fun _ _ => False) c

/-- The kinds under which the worker stores the object. -/
def Object.passes : List Kind := x.kind :: x.kind.virtualObject.toList

def Object.key (kind : Kind) : Str := kind.sharedDictPre ++ x.objectId

def Object.owns (row : Row) : Bool := sql.eq x.id (row.col "id")

/-- The row of the object. -/
def Object.row (rows : List Row) : Option Row :=
  match rows.filter (x.owns sql) with
  | [row] => some row
  | _ => none

/-- The text a row is stored as. -/
def shown (lib : Ngx) (kind : Kind) (row : Row) : Option Str :=
  (entry lib kind row).toOption.map Prod.snd

/-- **The entry of the object is its row, or is absent with it.** -/
def Object.Synced (s : Shared) : Prop :=
  ∀ kind ∈ x.passes, s.dict.get (x.key kind) = (x.row sql s.rows).bind (shown lib kind)

/-! ### The condition -/

/-- The row can be stored, and lies under the object id. -/
def Object.Stored (row : Row) : Prop :=
  ∀ kind ∈ x.passes, (entry lib kind row).map Prod.fst = .ok (x.key kind)

/-- Every row of the object can be stored. -/
def Object.AllStored (s : Shared) : Prop := ∀ row ∈ x.row sql s.rows, x.Stored row

/-- The columns of a change leave the row its id. -/
structure Object.Keeps (change : Change) : Prop where
  update : ∀ row row', x.owns sql row → sql.update change.attrs row = .ok row' → x.owns sql row'
  insert : ∀ row, sql.insert x.id change.attrs = .ok row → row.col "id" = x.id

/-- What a step must find or leave. A statement leaves a row that can be stored. When a handler
writes the entry, the row it has read is still in the database; when it drops the entry, the
row is gone; and it was not gone yet when the object id was looked up for it. -/
def Object.InTime (e : Ev) : Prop :=
  match e.op with
  | .updateInfo _ | .insertInfo _ => x.AllStored sql e.post
  | .getObjectId _ => x.kind.glued.isSome → (x.row sql e.post.rows).isSome
  | .setDict key value => ∀ kind ∈ x.passes, key = x.key kind →
    (x.row sql e.post.rows).map (entry lib kind) = some (.ok (key, value))
  | .eraseDict _ => x.row sql e.post.rows = none
  | _ => True

end object

/-! ### The row of the object -/

section row

variable {lib : Ngx} {sql : MySql} {x : Object lib} {rows rows' : List Row} {change : Change}

lemma Object.id_ne_null (x : Object lib) : x.id ≠ .null := by
  intro h
  have htext := x.text_eq
  rw [h] at htext
  cases htext

lemma Object.Stored.entry {row : Row} {kind : Kind} (h : x.Stored row) (hkind : kind ∈ x.passes) :
    ∃ value, ObjectInfo.entry lib kind row = .ok (x.key kind, value) := by
  have hkey := h kind hkind
  cases hentry : ObjectInfo.entry lib kind row with
  | error e => rw [hentry] at hkey; cases hkey
  | ok e =>
    rw [hentry, Except.map, Except.ok.injEq] at hkey
    exact ⟨e.2, by rw [← hkey]⟩

/-- The handlers read the row of the object. -/
lemma getInfoDB_eq {kind : Kind} (hkind : kind ∈ x.passes) :
    ObjectInfo.getInfoDB lib sql kind rows x.text = .ok (x.row sql rows) := by
  have hliteral : literal lib kind x.text = .ok x.id := by
    rcases List.mem_cons.mp hkind with rfl | hkind
    · exact x.literal_eq
    · rw [Option.mem_toList] at hkind
      have hresource : x.kind = .resource ∧ kind = .publisher := by
        revert hkind
        cases x.kind <;> simp [Kind.virtualObject, eq_comm]
      rw [← x.literal_eq, hresource.1, hresource.2]
      rfl
  have hlist : getInfoListDB lib sql kind rows [x.text] = .ok (rows.filter (x.owns sql)) := by
    simp only [getInfoListDB, List.mapM_cons, hliteral, List.mapM_nil]
    simp [pure, Except.pure, bind, Except.bind]
    rfl
  unfold ObjectInfo.getInfoDB Object.row
  rw [hlist, ok_bind]
  split <;> simp_all [pure, Except.pure]

lemma row_delete (content : Content) (hid : content.id = x.id) :
    x.row sql (rows.filter fun row => !sql.eq content.id (row.col "id")) = none := by
  have hnone : (rows.filter fun row => !sql.eq content.id (row.col "id")).filter (x.owns sql) =
      [] := by
    simp [Object.owns, hid]
  simp [Object.row, hnone]

lemma filter_updateInfo (hkeeps : x.Keeps sql change)
    (h : StoreSync.updateInfo sql rows (x.content change) = .ok rows') :
    (rows.filter (x.owns sql)).mapM (sql.update change.attrs) = .ok (rows'.filter (x.owns sql)) := by
  unfold StoreSync.updateInfo at h
  split at h
  · cases h
  · induction rows generalizing rows' with
    | nil => cases h; rfl
    | cons row rows ih =>
      obtain ⟨row', hrow, rest, hrest, rfl⟩ := mapM_cons_ok.mp h
      have ih := ih hrest
      by_cases hown : x.owns sql row
      · have hupdate : sql.update change.attrs row = .ok row' := by
          rwa [if_pos (by exact hown)] at hrow
        rw [List.filter_cons_of_pos hown,
          List.filter_cons_of_pos (hkeeps.update row row' hown hupdate)]
        exact mapM_cons_ok.mpr ⟨row', hupdate, _, ih, rfl⟩
      · rw [if_neg (by exact hown), Except.ok.injEq] at hrow
        subst hrow
        rwa [List.filter_cons_of_neg hown, List.filter_cons_of_neg hown]

/-- An update leaves the object with a row if it had one. -/
lemma row_update (hkeeps : x.Keeps sql change)
    (h : StoreSync.updateInfo sql rows (x.content change) = .ok rows') :
    (x.row sql rows = none ∧ x.row sql rows' = none) ∨
      (x.row sql rows).isSome ∧ (x.row sql rows').isSome := by
  have hfilter := filter_updateInfo hkeeps h
  have hlength := mapM_length hfilter
  unfold Object.row
  generalize rows.filter (x.owns sql) = own at *
  generalize rows'.filter (x.owns sql) = own' at *
  match own, own', hlength with
  | [], [], _ => exact .inl ⟨rfl, rfl⟩
  | [_], [_], _ => exact .inr ⟨rfl, rfl⟩
  | _ :: _ :: _, _ :: _ :: _, _ => exact .inl ⟨rfl, rfl⟩

/-- An insertion gives the object a row. -/
lemma row_insert (hkeeps : x.Keeps sql change)
    (h : StoreSync.insertInfo sql rows (x.content change) = .ok rows') :
    (x.row sql rows').isSome := by
  obtain ⟨row, hinsert, h⟩ := bind_ok.mp h
  split at h
  · cases h
  · next hfree =>
    cases h
    have hid := hkeeps.insert row hinsert
    have hnone : rows.filter (x.owns sql) = [] := by
      rw [List.filter_eq_nil_iff]
      intro r hr hown
      exact hfree (List.any_eq_true.mpr ⟨r, hr, by rwa [hid]⟩)
    have hown : x.owns sql row := by
      rw [Object.owns, hid]
      exact sql.eq_refl _ x.id_ne_null
    simp [Object.row, List.filter_append, hnone, hown]

end row

/-! ### One step -/

/-- A statement is about the row of the object, and leaves it its id. -/
def About {lib : Ngx} (sql : MySql) (x : Object lib) : Op → Prop
  | .updateInfo content | .insertInfo content =>
    ∃ change, x.Keeps sql change ∧ content = x.content change
  | .deleteInfo content => content.id = x.id
  | _ => True

/-- The statements that write. -/
def Op.Writes : Op → Prop
  | .updateInfo _ | .insertInfo _ | .deleteInfo _ => True
  | _ => False

/-- The steps that write the entry under a key. -/
def Op.Touches (key : Str) : Op → Prop
  | .setDict k _ | .eraseDict k => k = key
  | _ => False

section step

variable {lib : Ngx} {sql : MySql} {x : Object lib} {s : Shared} {o : Op}

lemma dict_exec {key : Str} (h : ¬ o.Touches key) :
    (exec lib sql x.kind o s).2.dict.get key = s.dict.get key := by
  cases o with
  | setDict k value => exact AList.lookup_insert_ne (Ne.symm h)
  | eraseDict k => exact AList.lookup_erase_ne (Ne.symm h)
  | updateInfo content =>
    simp only [exec, Shared.write]
    split <;> rfl
  | insertInfo content =>
    simp only [exec, Shared.write]
    split <;> rfl
  | _ => rfl

/-- The statement was carried out, and the object has a row, or none, as it says. -/
def Told : (o : Op) → Reply o → Option Row → Prop
  | .updateInfo _, .ok (), row | .insertInfo _, .ok (), row => row.isSome
  | .deleteInfo _, _, row => row = none
  | _, _, _ => False

/-- A step leaves the row of the object as it was, or is a statement that was carried out. -/
lemma told_or_same (ho : About sql x o) :
    Told o (exec lib sql x.kind o s).1 (x.row sql (exec lib sql x.kind o s).2.rows) ∨
      x.row sql (exec lib sql x.kind o s).2.rows = x.row sql s.rows := by
  cases o with
  | updateInfo content =>
    obtain ⟨change, hkeeps, rfl⟩ := ho
    simp only [exec]
    cases h : StoreSync.updateInfo sql s.rows (x.content change) with
    | error e => exact .inr rfl
    | ok rows =>
      rcases row_update hkeeps h with ⟨hnone, hnone'⟩ | ⟨-, hsome⟩
      · exact .inr (hnone'.trans hnone.symm)
      · exact .inl hsome
  | insertInfo content =>
    obtain ⟨change, hkeeps, rfl⟩ := ho
    simp only [exec]
    cases h : StoreSync.insertInfo sql s.rows (x.content change) with
    | error e => exact .inr rfl
    | ok rows => exact .inl (row_insert hkeeps h)
  | deleteInfo content => exact .inl (row_delete content ho)
  | _ => exact .inr rfl

lemma allStored_exec {t : ℕ} (ho : About sql x o)
    (htime : x.InTime sql ⟨t, o, (exec lib sql x.kind o s).1, (exec lib sql x.kind o s).2⟩)
    (hall : x.AllStored sql s) : x.AllStored sql (exec lib sql x.kind o s).2 := by
  cases o with
  | updateInfo content => exact htime
  | insertInfo content => exact htime
  | deleteInfo content =>
    intro row hrow
    rw [exec, row_delete content ho] at hrow
    cases hrow
  | _ => exact hall

end step

/-! ### The history since the last change -/

section since

variable {lib : Ngx} {sql : MySql} {x : Object lib} {s₀ s : Shared} {es : List Ev} {kind : Kind}

/-- The entry under the key of one kind is the row. -/
def Object.Fresh (sql : MySql) (x : Object lib) (kind : Kind) (s : Shared) : Prop :=
  s.dict.get (x.key kind) = (x.row sql s.rows).bind (shown lib kind)

/-- The row is as a statement left it that lies behind, and the first handler that has
touched the entry since has made it fresh. -/
def Since (sql : MySql) (x : Object lib) (kind : Kind) (s : Shared) (es : List Ev) : Prop :=
  ∃ before after, es = before ++ after ∧ (∀ e ∈ after, x.row sql e.post.rows = x.row sql s.rows) ∧
    ((∃ e ∈ after, e.op.Touches (x.key kind)) → x.Fresh sql kind s) ∧
    (x.Fresh sql kind s ∨
      ∃ init e, before = init ++ [e] ∧ Told e.op e.reply (x.row sql s.rows))

/-- A step in time that touches the entry makes it fresh. -/
lemma fresh_touch {o : Op} {t : ℕ} (hkind : kind ∈ x.passes) (htouch : o.Touches (x.key kind))
    (htime : x.InTime sql
      ⟨t, o, (exec lib sql x.kind o s).1, (exec lib sql x.kind o s).2⟩) :
    x.Fresh sql kind (exec lib sql x.kind o s).2 := by
  cases o with
  | setDict k value =>
    obtain rfl : k = x.key kind := htouch
    obtain ⟨row, hrow, hentry⟩ := Option.map_eq_some_iff.mp (htime kind hkind rfl)
    have hrow : x.row sql s.rows = some row := hrow
    simp [Object.Fresh, exec, hrow, shown, hentry, Except.toOption]
  | eraseDict k =>
    obtain rfl : k = x.key kind := htouch
    have hnone : x.row sql s.rows = none := htime
    simp [Object.Fresh, exec, hnone]
  | _ => exact htouch.elim

lemma since_step {o : Op} {t : ℕ} (hkind : kind ∈ x.passes) (ho : About sql x o)
    (htime : x.InTime sql
      ⟨t, o, (exec lib sql x.kind o s).1, (exec lib sql x.kind o s).2⟩)
    (h : Since sql x kind s es) :
    Since sql x kind (exec lib sql x.kind o s).2
      (es ++ [⟨t, o, (exec lib sql x.kind o s).1, (exec lib sql x.kind o s).2⟩]) := by
  rcases told_or_same ho (s := s) with htold | hsame
  · -- the statement is the last that lies behind
    exact ⟨_, [], (List.append_nil _).symm, by simp, by simp, .inr ⟨es, _, rfl, htold⟩⟩
  · obtain ⟨before, after, rfl, hrow, htouched, hstart⟩ := h
    have hkept : x.Fresh sql kind s → x.Fresh sql kind (exec lib sql x.kind o s).2 := by
      intro hfresh
      by_cases htouch : o.Touches (x.key kind)
      · exact fresh_touch hkind htouch htime
      · rwa [Object.Fresh, dict_exec htouch, hsame]
    refine ⟨before, after ++ [_], List.append_assoc _ _ _, ?_, ?_, ?_⟩
    · intro e he
      rcases List.mem_append.mp he with he | he
      · exact (hrow e he).trans hsame.symm
      · rw [List.mem_singleton.mp he]
    · by_cases htouch : o.Touches (x.key kind)
      · exact fun _ => fresh_touch hkind htouch htime
      · rintro ⟨e, he, hte⟩
        rcases List.mem_append.mp he with he | he
        · exact hkept (htouched ⟨e, he, hte⟩)
        · rw [List.mem_singleton.mp he] at hte
          exact absurd hte htouch
    · rcases hstart with hfresh | ⟨init, e, rfl, htold⟩
      · exact .inl (hkept hfresh)
      · exact .inr ⟨init, e, rfl, hsame ▸ htold⟩

end since

/-! ### The handler of the last change -/

section handler

variable {lib : Ngx} {sql : MySql} {x : Object lib} {kind : Kind} {own : List Ev}
  {res : Lua Unit} {row : Row}

/-- An event is one of its operation. -/
def Genuine (sql : MySql) (x : Object lib) (e : Ev) : Prop :=
  ∃ s, exec lib sql x.kind e.op s = (e.reply, e.post)

/-- A handler that reads the row writes it. -/
lemma updateInfoSD_touches (hkind : kind ∈ x.passes) (hstored : x.Stored row)
    (hgenuine : ∀ e ∈ own, Genuine sql x e) (hrow : ∀ e ∈ own, x.row sql e.post.rows = some row)
    (h : Trace (updateInfoSD lib kind x.text) own (.ret res)) :
    res = .ok () ∧ ∃ e ∈ own, e.op.Touches (x.key kind) := by
  obtain ⟨es₁, es₂, reply, rfl, hread, hrest⟩ := h.bind_ret
  obtain ⟨t, s, rfl⟩ := hread.perform_ret
  obtain ⟨s', hexec⟩ := hgenuine _ (List.mem_append_left _ (List.mem_singleton_self _))
  have hreply : reply = .ok (some row) := by
    have hs := hrow _ (List.mem_append_left _ (List.mem_singleton_self _))
    simp only [exec, Prod.mk.injEq] at hexec
    rw [← hexec.1, getInfoDB_eq hkind, hexec.2, hs]
  obtain ⟨value, hentry⟩ := hstored.entry hkind
  subst hreply
  simp only [hentry] at hrest
  obtain ⟨es₃, es₄, _, rfl, hset, hend⟩ := hrest.bind_ret
  obtain ⟨t', s', rfl⟩ := hset.perform_ret
  obtain ⟨-, rfl⟩ := hend.pure_ret
  exact ⟨rfl, _, List.mem_append_right _ List.mem_cons_self, rfl⟩

lemma deleteInfoSD_touches (h : Trace (deleteInfoSD kind x.objectId) own (.ret res)) :
    res = .ok () ∧ ∃ e ∈ own, e.op.Touches (x.key kind) := by
  obtain ⟨es₁, es₂, _, rfl, herase, hend⟩ := h.bind_ret
  obtain ⟨t, s, rfl⟩ := herase.perform_ret
  obtain ⟨-, rfl⟩ := hend.pure_ret
  exact ⟨rfl, _, List.mem_cons_self, rfl⟩

/-- A handler whose passes touch what they are for touches every entry of the object. -/
lemma handler_touches {isDelete : Bool} {id : Str} (hkind : kind ∈ x.passes)
    (hpass : ∀ kind ∈ x.passes, ∀ part : List Ev, (∀ e ∈ part, e ∈ own) → ∀ res,
      Trace (handleSD lib kind isDelete id) part (.ret res) →
        res = .ok () ∧ ∃ e ∈ part, e.op.Touches (x.key kind))
    (h : Trace (handler lib x.kind isDelete id) own (.ret res)) :
    ∃ e ∈ own, e.op.Touches (x.key kind) := by
  obtain ⟨es₁, es₂, first, rfl, hfirst, hrest⟩ := h.bind_ret
  obtain ⟨rfl, e, he, htouch⟩ := hpass x.kind List.mem_cons_self es₁
    (fun e he => List.mem_append_left _ he) _ hfirst
  rcases List.mem_cons.mp hkind with rfl | hvirtual
  · exact ⟨e, List.mem_append_left _ he, htouch⟩
  · rw [Option.mem_toList] at hvirtual
    simp only [hvirtual] at hrest
    obtain ⟨-, e, he, htouch⟩ := hpass kind hkind es₂
      (fun e he => List.mem_append_right _ he) _ hrest
    exact ⟨e, List.mem_append_right _ he, htouch⟩

lemma handleSD_quiet (kind : Kind) (isDelete : Bool) (id : Str) :
    (handleSD lib kind isDelete id).Only fun o => ¬ o.Writes := by
  unfold handleSD
  split
  · exact (Prog.only_perform (o := Op.eraseDict _) fun h => h).bind fun _ => .ret _
  · refine (Prog.only_perform (o := Op.getInfoDB kind id) fun h => h).bind fun reply => ?_
    rcases reply with _ | _ | row
    · exact .ret _
    · exact .ret _
    · dsimp only
      split
      · exact .ret _
      · exact (Prog.only_perform (o := Op.setDict _ _) fun h => h).bind fun _ => .ret _

/-- A handler writes no row. -/
lemma handler_quiet (kind : Kind) (isDelete : Bool) (id : Str) :
    (handler lib kind isDelete id).Only fun o => ¬ o.Writes := by
  refine (handleSD_quiet kind isDelete id).bind fun res => ?_
  rcases res with _ | _
  · exact .ret _
  · dsimp only
    split
    · exact .ret _
    · exact handleSD_quiet _ _ _

lemma writeDB_about {change : Change} (hkeeps : change.isDelete = false → x.Keeps sql change) :
    (writeDB lib (x.content change) change.isDelete).Only (About sql x) := by
  unfold writeDB
  refine (Prog.only_perform (P := About sql x) (o := Op.checkExist _) trivial).bind fun isExist => ?_
  cases hdel : change.isDelete with
  | true =>
    cases isExist
    · exact .ret _
    · refine (Prog.only_perform (P := About sql x) (o := Op.getObjectId _) trivial).bind fun r => ?_
      cases r with
      | error e => exact .ret _
      | ok objectId =>
        exact (Prog.only_perform (P := About sql x) (o := Op.deleteInfo (x.content change))
          rfl).bind fun _ => .ret _
  | false =>
    have habout : ∃ change', x.Keeps sql change' ∧ x.content change = x.content change' :=
      ⟨change, hkeeps hdel, rfl⟩
    refine Prog.Only.bind ?_ fun r => ?_
    · cases isExist
      · exact Prog.only_perform (P := About sql x) (o := Op.insertInfo _) habout
      · exact Prog.only_perform (P := About sql x) (o := Op.updateInfo _) habout
    · cases r <;> exact .ret _

lemma handler_about (kind : Kind) (isDelete : Bool) (id : Str) :
    (handler lib kind isDelete id).Only (About sql x) := by
  refine (handler_quiet kind isDelete id).imp fun o ho => ?_
  cases o <;> first | trivial | exact absurd trivial ho

lemma operation_about {change : Change} (hkeeps : change.isDelete = false → x.Keeps sql change) :
    (operation lib x.kind (x.content change) change.isDelete).Only (About sql x) := by
  refine (writeDB_about hkeeps).bind fun r => ?_
  rcases r with _ | _ | id
  · exact .ret _
  · exact .ret _
  · exact handler_about _ _ _

lemma putInfo_told {content : Content} {isExist : Bool} {es : List Ev} {r : Lua Unit} {e : Ev}
    {found : Option Row} (h : Trace (putInfo content isExist) es (.ret r)) (he : e ∈ es)
    (htold : Told e.op e.reply found) : r = .ok () ∧ found.isSome := by
  cases isExist with
  | false =>
    obtain ⟨t, s, rfl⟩ := Trace.perform_ret (o := Op.insertInfo content) h
    rw [List.mem_singleton.mp he] at htold
    cases r with
    | error e => exact htold.elim
    | ok _ => exact ⟨rfl, htold⟩
  | true =>
    obtain ⟨t, s, rfl⟩ := Trace.perform_ret (o := Op.updateInfo content) h
    rw [List.mem_singleton.mp he] at htold
    cases r with
    | error e => exact htold.elim
    | ok _ => exact ⟨rfl, htold⟩

/-- The statement that was carried out decides what is notified. -/
lemma writeDB_told {change : Change} {written : List Ev} {found : Option Row} {e : Ev}
    {res : Lua (Option Str)}
    (h : Trace (writeDB lib (x.content change) change.isDelete) written (.ret res))
    (he : e ∈ written) (htold : Told e.op e.reply found) :
    (change.isDelete = false ∧ found.isSome ∧ res = .ok (some x.text)) ∨
      change.isDelete = true ∧ found = none ∧ ∃ objectId t s, res = .ok objectId ∧
        ⟨t, .getObjectId x.id, .ok objectId, s⟩ ∈ written := by
  obtain ⟨es₁, es₂, isExist, rfl, hcheck, hrest⟩ := h.bind_ret
  obtain ⟨t, s, rfl⟩ := hcheck.perform_ret
  have he₂ : e ∈ es₂ := by
    rcases List.mem_append.mp he with he | he
    · rw [List.mem_singleton.mp he] at htold
      exact htold.elim
    · exact he
  cases hdel : change.isDelete with
  | false =>
    simp only [hdel, Bool.false_eq_true, if_false] at hrest
    obtain ⟨es₃, es₄, r, rfl, hput, hend⟩ := hrest.bind_ret
    have hnil : es₄ = [] := by
      cases r <;> exact hend.pure_ret.1
    rw [hnil, List.append_nil] at he₂
    obtain ⟨rfl, hsome⟩ := putInfo_told hput he₂ htold
    have hres := hend.pure_ret.2
    rw [show (x.content change).id = x.id from rfl, x.text_eq] at hres
    exact .inl ⟨rfl, hsome, hres.symm⟩
  | true =>
    simp only [hdel, if_true] at hrest
    cases isExist with
    | false =>
      rw [hrest.pure_ret.1] at he₂
      cases he₂
    | true =>
      obtain ⟨es₃, es₄, r, rfl, hlook, hend⟩ := hrest.bind_ret
      obtain ⟨t', s', rfl⟩ := hlook.perform_ret
      have he₄ : e ∈ es₄ := by
        rcases List.mem_append.mp he₂ with he | he
        · rw [List.mem_singleton.mp he] at htold
          exact htold.elim
        · exact he
      cases r with
      | error _ =>
        rw [hend.pure_ret.1] at he₄
        cases he₄
      | ok objectId =>
        obtain ⟨es₅, es₆, _, rfl, hdelete, hret⟩ := hend.bind_ret
        obtain ⟨t'', s'', rfl⟩ := hdelete.perform_ret
        obtain ⟨rfl, hres⟩ := hret.pure_ret
        rw [List.append_nil, List.mem_singleton] at he₄
        rw [he₄] at htold
        exact .inr ⟨rfl, htold, objectId, t', s', hres.symm, by simp [Object.content]⟩

/-- A deletion that finds the row is notified under the object id. -/
lemma getObjectId_eq {rows : List Row} {objectId : Option Str}
    (hfound : x.kind.glued.isSome → (x.row sql rows).isSome)
    (hstored : ∀ row ∈ x.row sql rows, x.Stored row)
    (h : StoreSync.getObjectId lib sql x.kind rows x.id = .ok objectId) :
    objectId = some x.objectId := by
  unfold StoreSync.getObjectId at h
  rw [x.text_eq, ok_bind] at h
  split at h
  · next hglued =>
    cases h
    rw [x.plain hglued]
  · next a b hglued =>
    obtain ⟨row, hrow⟩ := Option.isSome_iff_exists.mp (hfound (by simp [hglued]))
    rw [getInfoDB_eq List.mem_cons_self, hrow, ok_bind] at h
    obtain ⟨s, hs, h⟩ := bind_ok.mp h
    obtain ⟨t, ht, h⟩ := bind_ok.mp h
    cases h
    obtain ⟨value, hentry⟩ := (hstored row hrow).entry List.mem_cons_self
    have hkey := key_of_glued hglued hs ht hentry
    rw [List.append_cancel_left hkey]

lemma told_writes {o : Op} {r : Reply o} {found : Option Row} (h : Told o r found) : o.Writes := by
  cases o <;> trivial

/-- After the last statement its own handler touches every entry of the object. -/
lemma last_touches {change : Change} {before after : List Ev} {e : Ev} {found : Option Row}
    (hkind : kind ∈ x.passes)
    (h : Trace (operation lib x.kind (x.content change) change.isDelete)
      (before ++ e :: after) (.ret res))
    (htold : Told e.op e.reply found)
    (hgenuine : ∀ e' ∈ before ++ e :: after, Genuine sql x e')
    (htime : ∀ e' ∈ before ++ e :: after, x.InTime sql e')
    (hall : ∀ e' ∈ before ++ e :: after, x.AllStored sql e'.post)
    (hrow : ∀ e' ∈ after, x.row sql e'.post.rows = found)
    (hfound : ∀ row ∈ found, x.Stored row) :
    ∃ e' ∈ after, e'.op.Touches (x.key kind) := by
  obtain ⟨written, rest, r, hsplit, hwrite, hrest⟩ := h.bind_ret
  -- the handler writes no row, so the statement lies before it
  have hquiet : e ∉ rest := by
    have hrest_quiet : ∀ e' ∈ rest, ¬ e'.op.Writes := by
      rcases r with _ | _ | id
      · rw [hrest.pure_ret.1]; simp
      · rw [hrest.pure_ret.1]; simp
      · exact hrest.mem_only (handler_quiet _ _ _)
    exact fun he => hrest_quiet e he (told_writes htold)
  obtain ⟨between, rfl, rfl⟩ : ∃ between, written = before ++ e :: between ∧
      after = between ++ rest := by
    rcases List.append_eq_append_iff.mp hsplit with ⟨mid, rfl, hmid⟩ | ⟨mid, rfl, hmid⟩
    · cases mid with
      | nil =>
        rw [List.nil_append] at hmid
        exact absurd (hmid ▸ List.mem_cons_self) hquiet
      | cons e' between =>
        rw [List.cons_append, List.cons.injEq] at hmid
        exact ⟨between, by rw [hmid.1], hmid.2⟩
    · exact absurd (hmid ▸ List.mem_append_right _ List.mem_cons_self) hquiet
  have hsub : ∀ e' ∈ rest, e' ∈ before ++ e :: (between ++ rest) :=
    fun e' he' => List.mem_append_right _ (List.mem_cons_of_mem _ (List.mem_append_right _ he'))
  suffices ∃ e' ∈ rest, e'.op.Touches (x.key kind) by
    obtain ⟨e', he', htouch⟩ := this
    exact ⟨e', List.mem_append_right _ he', htouch⟩
  rcases writeDB_told hwrite (List.mem_append_right _ List.mem_cons_self) htold with
    ⟨hdel, hsome, rfl⟩ | ⟨hdel, hnone, objectId, t, s, rfl, hlook⟩
  · obtain ⟨row, rfl⟩ := Option.isSome_iff_exists.mp hsome
    refine handler_touches hkind (fun kind hkind part hpart res' hpass => ?_) hrest
    rw [hdel] at hpass
    exact updateInfoSD_touches hkind (hfound row rfl) (fun e' he' => hgenuine e' (hsub e' (hpart e' he')))
      (fun e' he' => hrow e' (List.mem_append_right _ (hpart e' he'))) hpass
  · -- the object id was looked up while the row was there
    have hlook' : (⟨t, .getObjectId x.id, .ok objectId, s⟩ : Ev) ∈
        before ++ e :: (between ++ rest) := by
      rw [hsplit]
      exact List.mem_append_left _ hlook
    obtain ⟨s', hexec⟩ := hgenuine _ hlook'
    simp only [exec, Prod.mk.injEq] at hexec
    have hreply : StoreSync.getObjectId lib sql x.kind s.rows x.id = .ok objectId :=
      hexec.2 ▸ hexec.1
    obtain rfl := getObjectId_eq (htime _ hlook') (hall _ hlook') hreply
    refine handler_touches hkind (fun kind hkind part hpart res' hpass => ?_) hrest
    rw [hdel] at hpass
    exact deleteInfoSD_touches hpass

end handler

/-! ### The runs -/

section run

variable {lib : Ngx} {sql : MySql} {x : Object lib} {changes : ℕ → Change} {s : Shared}
  {c : Worker} {es : List Ev}

lemma run_since {kind : Kind} (hkind : kind ∈ x.passes)
    (hkeeps : ∀ t, (changes t).isDelete = false → x.Keeps sql (changes t))
    (hstart : x.Fresh sql kind s) (hrun : x.Run sql (x.start changes s) es c)
    (htime : ∀ e ∈ es, x.InTime sql e) : Since sql x kind c.state es := by
  refine Run.invariant (P := About sql x)
    (I := fun s es => (∀ e ∈ es, x.InTime sql e) → Since sql x kind s es) ?_ (by simp) ?_
    (fun t => operation_about (hkeeps t)) hrun htime
  · intro s es t o ho hsince htime
    exact since_step hkind ho (htime _ (by simp)) (hsince fun e he => htime e (by simp [he]))
  · exact fun _ => ⟨[], [], rfl, by simp, by simp, .inl hstart⟩

lemma run_stored (hkeeps : ∀ t, (changes t).isDelete = false → x.Keeps sql (changes t))
    (hstored : x.AllStored sql s) (hrun : x.Run sql (x.start changes s) es c)
    (htime : ∀ e ∈ es, x.InTime sql e) :
    x.AllStored sql c.state ∧ ∀ e ∈ es, x.AllStored sql e.post := by
  refine Run.invariant (P := About sql x)
    (I := fun s es => (∀ e ∈ es, x.InTime sql e) →
      x.AllStored sql s ∧ ∀ e ∈ es, x.AllStored sql e.post) ?_ (by simp) ?_
    (fun t => operation_about (hkeeps t)) hrun htime
  · intro s es t o ho hstep htime
    obtain ⟨hs, hes⟩ := hstep fun e he => htime e (by simp [he])
    have hpost := allStored_exec ho (htime _ (List.mem_append_right _ List.mem_cons_self)) hs
    refine ⟨hpost, fun e he => ?_⟩
    rcases List.mem_append.mp he with he | he
    · exact hes e he
    · rw [List.mem_singleton.mp he]
      exact hpost
  · exact fun _ => ⟨hstored, by simp⟩

/-- **Once every request about the object is done, with its handler, the entry of the object is
its row, or absent with it**, as long as every step of a handler was in time. -/
theorem object_synced (hkeeps : ∀ t, (changes t).isDelete = false → x.Keeps sql (changes t))
    (hstored : x.AllStored sql s) (hstart : x.Synced sql s)
    (hrun : x.Run sql (x.start changes s) es c) (htime : ∀ e ∈ es, x.InTime sql e)
    (hdone : ∀ e ∈ es, (c.prog e.tid).result.isSome) : x.Synced sql c.state := by
  intro kind hkind
  have hgenuine : ∀ e ∈ es, Genuine sql x e := fun e he => hrun.event he
  obtain ⟨hall, hposts⟩ := run_stored hkeeps hstored hrun htime
  obtain ⟨before, after, rfl, hrow, htouched, hfresh | ⟨init, e, rfl, htold⟩⟩ :=
    run_since hkind hkeeps (hstart kind hkind) hrun htime
  · exact hfresh
  -- the thread of the last statement is done, and its handler came after
  obtain ⟨res, hres⟩ := Option.isSome_iff_exists.mp (hdone e (by simp))
  rw [Prog.result_eq_some] at hres
  have htrace := hrun.trace e.tid
  rw [hres] at htrace
  have hown : (init ++ [e] ++ after).filter (fun e' => e'.tid = e.tid) =
      init.filter (fun e' => e'.tid = e.tid) ++ e :: after.filter (fun e' => e'.tid = e.tid) := by
    simp
  rw [hown] at htrace
  have hsub : ∀ e' ∈ init.filter (fun e' => e'.tid = e.tid) ++
      e :: after.filter (fun e' => e'.tid = e.tid), e' ∈ init ++ [e] ++ after := by
    intro e' he'
    rw [← hown] at he'
    exact List.mem_of_mem_filter he'
  obtain ⟨e', he', htouch⟩ := last_touches hkind htrace htold
    (fun e' he' => hgenuine e' (hsub e' he')) (fun e' he' => htime e' (hsub e' he'))
    (fun e' he' => hposts e' (hsub e' he'))
    (fun e' he' => hrow e' (List.mem_of_mem_filter he')) hall
  exact htouched ⟨e', List.mem_of_mem_filter he', htouch⟩

end run

section samples

instance (lib : Ngx) (x : Object lib) (row : Row) : Decidable (x.Stored row) :=
  inferInstanceAs (Decidable (∀ kind ∈ _, _))

instance (lib : Ngx) (sql : MySql) (x : Object lib) (s : Shared) : Decidable (x.AllStored sql s) :=
  inferInstanceAs (Decidable (∀ row ∈ x.row sql s.rows, _))

instance (lib : Ngx) (sql : MySql) (x : Object lib) (s : Shared) : Decidable (x.Synced sql s) :=
  inferInstanceAs (Decidable (∀ kind ∈ _, _))

instance (lib : Ngx) (sql : MySql) (x : Object lib) : (e : Ev) → Decidable (x.InTime sql e)
  | ⟨_, .updateInfo _, _, s⟩ | ⟨_, .insertInfo _, _, s⟩ =>
    inferInstanceAs (Decidable (x.AllStored sql s))
  | ⟨_, .getObjectId _, _, _⟩ => inferInstanceAs (Decidable (_ → _))
  | ⟨_, .setDict _ _, _, _⟩ => inferInstanceAs (Decidable (∀ kind ∈ _, _ → _))
  | ⟨_, .eraseDict _, _, _⟩ => inferInstanceAs (Decidable (_ = _))
  | ⟨_, .checkExist _, _, _⟩ | ⟨_, .deleteInfo _, _, _⟩ | ⟨_, .getInfoDB _ _, _, _⟩ =>
    inferInstanceAs (Decidable True)

def sampleLib : Ngx := { Ngx.ofTexts [] with cjson_encode := jsonText }

/-- Creative `a` of DSP 2. -/
def sampleObject : Object sampleLib where
  kind := .creative
  id := .num 1
  text := lit "1"
  objectId := lit "2a"
  text_eq := by decide +kernel
  literal_eq := by decide +kernel
  plain := by decide

/-- A worker that has stored the creative. -/
def sampleStart : Shared :=
  ⟨[sampleRow], (∅ : Tbl Str).putAll (([sampleRow].mapM (entry sampleLib .creative)).toOption.getD [])⟩

/-- A first request sets the status to 0, a second one to 2. -/
def sampleChanges (t : ℕ) : Change := ⟨[(lit "status", .num (if t = 0 then 0 else 2))], false⟩

/-- A first request sets the status to 0, a second one deletes the creative. -/
def deletingChanges (t : ℕ) : Change := ⟨[(lit "status", .num 0)], t ≠ 0⟩

def sampleRun (changes : ℕ → Change) (schedule : List ℕ) : List Ev × Worker :=
  (sampleObject.start changes sampleStart).play (exec sampleLib plainSql .creative) schedule

lemma sample_keeps (attrs : List (Str × Cell)) (isDelete : Bool)
    (h : ∀ a ∈ attrs, lower a.1 ≠ lit "id") :
    sampleObject.Keeps plainSql ⟨attrs, isDelete⟩ where
  update row row' hown hupdate := by
    rw [Object.owns, plainSql.update_id _ _ _ h hupdate]
    exact hown
  insert row hinsert := by
    cases hinsert
    rfl

theorem object_synced_sample :
    sampleObject.Synced plainSql (sampleRun deletingChanges [0, 0, 0, 0, 1, 1, 1, 1]).2.state := by
  have hrun : sampleObject.Run plainSql (sampleObject.start deletingChanges sampleStart) _ _ :=
    Pool.run_play _ [0, 0, 0, 0, 1, 1, 1, 1]
  exact object_synced
    (fun t _ => sample_keeps [(lit "status", .num 0)] (t ≠ 0) (by decide)) (by decide +kernel)
    (by decide +kernel) hrun (by decide +kernel) (by decide +kernel)

/-- Two updates: the first reads its row, the second writes its row to the database and to the
dictionary, and then the first stores what it has read. -/
theorem stale_row_stays : ∃ es c,
    sampleObject.Run plainSql (sampleObject.start sampleChanges sampleStart) es c ∧
      sampleObject.Synced plainSql sampleStart ∧
        (∀ e ∈ es, (c.prog e.tid).result = some (.ok ())) ∧ ¬ sampleObject.Synced plainSql c.state :=
  ⟨_, _, Pool.run_play _ [0, 0, 0, 1, 1, 1, 1, 0], by decide +kernel, by decide +kernel,
    by decide +kernel⟩

end samples

end Sax.WorkerSync
