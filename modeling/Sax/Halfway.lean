import Sax.InUse
import Sax.Upsert

/-!
What a request that was answered FAIL leaves in the database.

The statements of a request are carried out one after the other and never taken back, so FAIL
means that nothing was done unless a content is refused after contents that went through. Which
contents go through follows from the request, the queries that fail and the ids in use before it.
-/

namespace Sax.Halfway

open Sax.LuaVal Sax.Loop Sax.Runtime Sax.Center Sax.Tables Sax.InUse Sax.Upsert
open Sax.ObjectInfo (Kind Cell lower)

section spec

variable (lib : Ngx) (o : Order) (schema : Schema) (fails : Point → Option Str) (isDelete : Bool)
  (kind : Kind) (table : Table)

/-- The statement of a content. -/
def asked (content : Parsed) : Lua Statement :=
  if isDelete then do return .delete (← literal lib content.id) else statement lib o content

/-- The object id of a row that is to be deleted can be told. -/
def Named (used : Set Cell) (i : ℕ) (content : Parsed) : Prop :=
  isDelete → kind.glued.isSome → fails (.getObjectId i) = none ∧
    (rowKey lib schema kind content ∈ used → ∀ row,
      table (rowKey lib schema kind content) = some row → ∃ id, objectId lib kind row = .ok id)

/-- The `i`th content goes through while some ids are in use, with a statement. -/
structure Goes (used : Set Cell) (i : ℕ) (content : Parsed) (st : Statement) : Prop where
  named : Named lib schema fails isDelete kind table used i content
  asks : asked lib o isDelete content = .ok st
  replies : fails (.write i) = none
  allowed : Allowed schema kind used st

/-- The `i`th content is refused while some ids are in use, and the error can be told. -/
structure Refused (used : Set Cell) (i : ℕ) (content : Parsed) : Prop where
  named : Named lib schema fails isDelete kind table used i content
  fails : ∃ st, asked lib o isDelete content = .ok st ∧
    ¬ (fails (.write i) = none ∧ Allowed schema kind used st)
  told : isDelete = false →
    ∃ str, lib.encode (.table [] (content.attrs.entries.map fun e => (e.1, e.2))) = .ok str

/-- Of the contents, the first of them the `i`th, those with the statements `sts` go through and the
next one is refused. -/
inductive Breaks : Set Cell → ℕ → List Parsed → List Statement → Prop
  | refused {used : Set Cell} {i : ℕ} {content : Parsed} {contents : List Parsed} :
      Refused lib o schema fails isDelete kind table used i content →
        Breaks used i (content :: contents) []
  | goes {used : Set Cell} {i : ℕ} {content : Parsed} {contents : List Parsed} {st : Statement}
      {sts : List Statement} :
      Goes lib o schema fails isDelete kind table used i content st →
        Breaks (after schema kind used st) (i + 1) contents sts →
          Breaks used i (content :: contents) (st :: sts)

variable (objectName : Str) (contentList : List Content) (db : Db)

/-- **A request is half done**: a content is refused after contents that go through, and one of
these has a statement that alters the table. -/
def HalfDone : Prop :=
  ∃ kind contents sts, contentParse lib o (engine schema lib) fails objectName contentList isDelete
      db = .ok (.ok (kind, contents)) ∧
    Breaks lib o schema fails isDelete kind (db kind) (inUse (db kind)) 0 contents sts ∧
      ∃ st ∈ sts, Alters schema kind (db kind) st

/-- FAIL means that the database is as it was. -/
def Atomic : Prop :=
  ∀ info, (updateObjectInfo lib o (engine schema lib) fails objectName contentList isDelete db).1 =
      .ok (.fail info) →
    (updateObjectInfo lib o (engine schema lib) fails objectName contentList isDelete db).2 = db

/-- The statements for the contents of a request, one by one. -/
def requestStep (content : Parsed) (i : ℕ) (db : Db) : Lua (Except Str (Db × Option Str)) :=
  if isDelete then deleteStep lib (engine schema lib) fails kind content i db
  else updateStep lib o (engine schema lib) fails kind content i db

/-- What `contentParse` makes sure of, for an update or a delete. -/
structure Checked (content : Parsed) : Prop where
  kind : kind ≠ .publisher
  cell : ∃ t c, literal lib content.id = .ok t ∧ schema.cell t = some c
  text : ∃ s, checkString lib.tostring (some content.id) = .ok s
  unstamped : isDelete = false → ∀ k v, content.attrs.get k = some v → lower k ≠ modifytime

end spec

/-! ### One content -/

section step

variable {lib : Ngx} {o : Order} {schema : Schema} {fails : Point → Option Str} {isDelete : Bool}
  {kind : Kind} {table : Table} {content : Parsed} {i : ℕ} {db db' : Db} {st : Statement}

lemma getObjectId_isOk (hchecked : Checked lib schema isDelete kind content) :
    (∃ id, getObjectId lib (engine schema lib) fails kind content.id i db = .ok id) ↔
      (kind.glued.isSome → fails (.getObjectId i) = none ∧
        ∀ row, db kind (rowKey lib schema kind content) = some row →
          ∃ id, objectId lib kind row = .ok id) := by
  obtain ⟨text, htext⟩ := hchecked.text
  obtain ⟨t, c, ht, hc⟩ := hchecked.cell
  have hkey : rowKey lib schema kind content = schema.key kind c :=
    rowKey_eq (given_eq_some.mpr ⟨t, ht, hc⟩)
  unfold getObjectId
  cases kind.glued with
  | none => simp [htext]
  | some columns =>
    cases hfails : fails (.getObjectId i) with
    | some errInfo => simp
    | none =>
      simp only [ht, ok_bind, engine, hc, hkey, Option.isSome_some, true_and, forall_const]
      cases hrow : db kind (schema.key kind c) with
      | none => simp
      | some row => simp

/-- A round goes through with a statement that is carried out, and is refused with one that is not. -/
lemma requestStep_iff (hchecked : Checked lib schema isDelete kind content) :
    ((∃ id, requestStep lib o schema fails isDelete kind content i db = .ok (.ok (db', id))) ↔
      (isDelete → ∃ id, getObjectId lib (engine schema lib) fails kind content.id i db = .ok id) ∧
        ∃ st, asked lib o isDelete content = .ok st ∧
          query fails (.write i) ((engine schema lib).exec kind st db) = .ok db') ∧
    ((∃ errInfo, requestStep lib o schema fails isDelete kind content i db =
        .ok (.error errInfo)) ↔
      (isDelete → ∃ id, getObjectId lib (engine schema lib) fails kind content.id i db = .ok id) ∧
        (∃ st, asked lib o isDelete content = .ok st ∧
          ¬ ∃ db', query fails (.write i) ((engine schema lib).exec kind st db) = .ok db') ∧
        (isDelete = false → ∃ str,
          lib.encode (.table [] (content.attrs.entries.map fun e => (e.1, e.2))) = .ok str)) := by
  obtain ⟨text, htext⟩ := hchecked.text
  unfold requestStep asked
  cases isDelete with
  | false =>
    simp only [Bool.false_eq_true, if_false, false_imp_iff, true_and, forall_const]
    unfold updateStep
    cases statement lib o content with
    | error e => simp
    | ok st =>
      simp only [ok_bind, Except.ok.injEq, exists_eq_left']
      cases query fails (.write i) ((engine schema lib).exec kind st db) with
      | error errInfo => cases lib.encode _ <;> simp
      | ok db₁ => simp [htext]
  | true =>
    simp only [if_true, forall_const, Bool.true_eq_false, false_imp_iff, and_true]
    unfold deleteStep
    cases getObjectId lib (engine schema lib) fails kind content.id i db with
    | error e => simp
    | ok id =>
      cases literal lib content.id with
      | error e => simp
      | ok t =>
        simp only [ok_bind, Except.ok.injEq, exists_eq', exists_eq_left', true_and, pure_ok]
        cases query fails (.write i) ((engine schema lib).exec kind (.delete t) db) with
        | error errInfo => simp [htext]
        | ok db₁ => simp

lemma query_exec (hkind : kind ≠ .publisher) :
    query fails (.write i) ((engine schema lib).exec kind st db) = .ok db' ↔
      fails (.write i) = none ∧ ∃ t, run schema kind (db kind) st = some t ∧
        Function.update db kind t = db' := by
  unfold query
  cases fails (.write i) with
  | some errInfo => simp
  | none => simp [exec_ok hkind]

/-- The object id of a row can be told when it could before the request, and no row has come since. -/
lemma named_iff (hchecked : Checked lib schema isDelete kind content)
    (hkept : isDelete → ∀ k row, db kind k = some row → table k = some row) :
    Named lib schema fails isDelete kind table (inUse (db kind)) i content ↔
      (isDelete → ∃ id, getObjectId lib (engine schema lib) fails kind content.id i db = .ok id) := by
  rw [getObjectId_isOk hchecked]
  refine forall_congr' fun hdelete => forall_congr' fun _ => and_congr_right fun _ => ?_
  constructor
  · exact fun h row hrow => h ⟨row, hrow⟩ row (hkept hdelete _ row hrow)
  · rintro h ⟨row, hrow⟩ row' hrow'
    rw [hkept hdelete _ row hrow, Option.some.injEq] at hrow'
    exact h row' (hrow' ▸ hrow)

variable (hchecked : Checked lib schema isDelete kind content) (hkeyed : Keyed schema kind (db kind))
  (hkept : isDelete → ∀ k row, db kind k = some row → table k = some row)

include hchecked hkeyed hkept

lemma requestStep_goes :
    (∃ id, requestStep lib o schema fails isDelete kind content i db = .ok (.ok (db', id))) ↔
      ∃ st, Goes lib o schema fails isDelete kind table (inUse (db kind)) i content st ∧
        ∃ t, run schema kind (db kind) st = some t ∧ Function.update db kind t = db' := by
  rw [requestStep_iff hchecked |>.1, ← named_iff hchecked hkept]
  simp only [query_exec hchecked.kind]
  constructor
  · rintro ⟨hnamed, st, hst, hreplies, t, hrun, hdb⟩
    exact ⟨st, ⟨hnamed, hst, hreplies, (run_isSome_iff hkeyed).mp ⟨t, hrun⟩⟩, t, hrun, hdb⟩
  · rintro ⟨st, hgoes, t, hrun, hdb⟩
    exact ⟨hgoes.named, st, hgoes.asks, hgoes.replies, t, hrun, hdb⟩

lemma requestStep_refused :
    (∃ errInfo, requestStep lib o schema fails isDelete kind content i db =
        .ok (.error errInfo)) ↔
      Refused lib o schema fails isDelete kind table (inUse (db kind)) i content := by
  have hrefused (st : Statement) :
      (¬ ∃ db', query fails (.write i) ((engine schema lib).exec kind st db) = .ok db') ↔
        ¬ (fails (.write i) = none ∧ Allowed schema kind (inUse (db kind)) st) := by
    simp only [query_exec hchecked.kind, ← run_isSome_iff hkeyed]
    simp only [exists_and_left, @exists_comm Db, exists_eq', and_true]
  have hstep : (∃ errInfo, requestStep lib o schema fails isDelete kind content i db =
      .ok (.error errInfo)) ↔ _ :=
    (@requestStep_iff lib o schema fails isDelete kind content i db db hchecked).2
  rw [hstep, ← named_iff hchecked hkept]
  simp only [hrefused]
  exact ⟨fun ⟨hnamed, hfails, htold⟩ => ⟨hnamed, hfails, htold⟩,
    fun h => ⟨h.named, h.fails, h.told⟩⟩

end step

/-! ### A whole list of contents -/

section runs

variable {lib : Ngx} {o : Order} {schema : Schema} {fails : Point → Option Str} {isDelete : Bool}
  {kind : Kind} {table : Table} {contents : List Parsed} {i : ℕ} {db db' : Db}
  {sts : List Statement} {used : Set Cell}

lemma asked_delete {content : Parsed} {st : Statement} (hdelete : isDelete)
    (h : asked lib o isDelete content = .ok st) : ∃ id, st = .delete id := by
  rw [asked, if_pos hdelete] at h
  obtain ⟨id, -, h⟩ := bind_ok.mp h
  exact ⟨id, (pure_ok.mp h).symm⟩

lemma asked_timeless {content : Parsed} {st : Statement}
    (hchecked : Checked lib schema isDelete kind content) (hupdate : isDelete = false)
    (h : asked lib o isDelete content = .ok st) : Timeless st := by
  have hcolumns {attrs : Tbl Val} {l : List (Str × Literal)} (hl : columnListParse lib o attrs = .ok l)
      (hattrs : ∀ k v, attrs.get k = some v → lower k ≠ modifytime) :
      ∀ e ∈ l, lower e.1 ≠ modifytime := by
    intro e he
    obtain ⟨v, hv, -⟩ := (mem_columnListParse hl).mp he
    exact hattrs e.1 v hv
  rw [asked, hupdate, if_neg Bool.false_ne_true] at h
  by_cases hexist : content.isExist
  · obtain ⟨l, t, -, hl, -, rfl⟩ := (statement_update hexist).mp h
    exact hcolumns hl fun k v hv => hchecked.unstamped hupdate k v (listed_iff.mp hv).1
  · obtain ⟨l, hl, rfl⟩ := (statement_insert hexist).mp h
    exact hcolumns hl (hchecked.unstamped hupdate)

lemma map_append_error {l : List Str} {r : Lua (Except Str (List Str))} {errInfo : Str} :
    r.map (·.map (l ++ ·)) = .ok (.error errInfo) ↔ r = .ok (.error errInfo) := by
  rcases r with e | errInfo' | ids
  · exact ⟨nofun, nofun⟩
  · constructor <;> · intro h; cases h; rfl
  · exact ⟨nofun, nofun⟩

/-- **A list of contents fails exactly when it breaks**, and leaves what the statements before made
of the table. -/
lemma runSteps_fail_iff (hchecked : ∀ content ∈ contents, Checked lib schema isDelete kind content)
    (hkeyed : Keyed schema kind (db kind))
    (hkept : isDelete → ∀ k row, db kind k = some row → table k = some row) :
    (∃ errInfo, runSteps (requestStep lib o schema fails isDelete kind) contents i db =
        (.ok (.error errInfo), db')) ↔
      ∃ sts, Breaks lib o schema fails isDelete kind table (inUse (db kind)) i contents sts ∧
        ∃ t, sts.foldlM (run schema kind) (db kind) = some t ∧ Function.update db kind t = db' := by
  induction contents generalizing i db with
  | nil =>
    constructor
    · rintro ⟨errInfo, h⟩
      cases h
    · rintro ⟨sts, hbreaks, -⟩
      cases hbreaks
  | cons content contents ih =>
    rw [List.forall_mem_cons] at hchecked
    obtain ⟨hcontent, hrest⟩ := hchecked
    have hgoes (db₁ : Db) : (∃ id, requestStep lib o schema fails isDelete kind content i db =
        .ok (.ok (db₁, id))) ↔ _ := requestStep_goes hcontent hkeyed hkept
    have hrefused : (∃ errInfo, requestStep lib o schema fails isDelete kind content i db =
        .ok (.error errInfo)) ↔ _ := requestStep_refused hcontent hkeyed hkept
    have hnext {st : Statement} {t : Table} (hst : asked lib o isDelete content = .ok st)
        (hrun : run schema kind (db kind) st = some t) :
        (∃ errInfo, runSteps (requestStep lib o schema fails isDelete kind) contents (i + 1)
          (Function.update db kind t) = (.ok (.error errInfo), db')) ↔
        ∃ sts, Breaks lib o schema fails isDelete kind table
            (after schema kind (inUse (db kind)) st) (i + 1) contents sts ∧
          ∃ t', sts.foldlM (run schema kind) t = some t' ∧ Function.update db kind t' = db' := by
      obtain ⟨hused, hkeyed'⟩ := run_inUse hkeyed hrun
      have hself : Function.update db kind t kind = t := Function.update_self _ _ _
      have hkept' : isDelete → ∀ k row, t k = some row → table k = some row := by
        intro hdelete k row hrow
        obtain ⟨id, rfl⟩ := asked_delete hdelete hst
        obtain ⟨-, rfl⟩ := run_delete.mp hrun
        by_cases hk : k = keyOf schema kind id
        · rw [hk, Function.update_self] at hrow
          cases hrow
        · rw [Function.update_of_ne hk] at hrow
          exact hkept hdelete k row hrow
      have hiff := @ih (i + 1) (Function.update db kind t) hrest (hself.symm ▸ hkeyed')
        (hself.symm ▸ hkept')
      simpa only [hself, hused, Function.update_idem] using hiff
    constructor
    · rintro ⟨errInfo, h⟩
      unfold runSteps at h
      split at h
      · cases h
      · next e hstep =>
        cases h
        exact ⟨[], .refused (hrefused.mp ⟨_, hstep⟩), _, rfl, Function.update_eq_self _ _⟩
      · next db₁ id hstep =>
        obtain ⟨st, hst, t, hrun, rfl⟩ := (hgoes db₁).mp ⟨id, hstep⟩
        have hfail : ∃ errInfo, runSteps (requestStep lib o schema fails isDelete kind) contents
            (i + 1) (Function.update db kind t) = (.ok (.error errInfo), db') := by
          obtain ⟨hinfo, hdb⟩ := Prod.mk.inj h
          exact ⟨errInfo, Prod.ext (map_append_error.mp hinfo) hdb⟩
        obtain ⟨sts, hbreaks, t', hruns, hdb⟩ := (hnext hst.asks hrun).mp hfail
        exact ⟨st :: sts, .goes hst hbreaks, t', by rw [List.foldlM_cons, hrun]; exact hruns, hdb⟩
    · rintro ⟨sts, hbreaks, t, hruns, rfl⟩
      cases hbreaks with
      | refused h =>
        obtain ⟨errInfo, hstep⟩ := hrefused.mpr h
        refine ⟨errInfo, ?_⟩
        cases hruns
        rw [runSteps, hstep, Function.update_eq_self]
      | goes hst hbreaks =>
        obtain ⟨t₁, hrun, hruns⟩ := Option.bind_eq_some_iff.mp hruns
        obtain ⟨id, hstep⟩ := (hgoes _).mpr ⟨_, hst, t₁, hrun, rfl⟩
        obtain ⟨errInfo, hfail⟩ := (hnext hst.asks hrun).mpr ⟨_, hbreaks, t, hruns, rfl⟩
        refine ⟨errInfo, ?_⟩
        rw [runSteps, hstep]
        dsimp only
        rw [hfail]
        rfl

/-- Statements that go through are carried out. -/
lemma Breaks.runs (h : Breaks lib o schema fails isDelete kind table used i contents sts)
    {t : Table} (hkeyed : Keyed schema kind t) (hused : inUse t = used) :
    ∃ t', sts.foldlM (run schema kind) t = some t' := by
  induction h generalizing t with
  | refused => exact ⟨t, rfl⟩
  | goes hgoes _ ih =>
    subst hused
    obtain ⟨t', hrun⟩ := (run_isSome_iff hkeyed).mpr hgoes.allowed
    obtain ⟨hnext, hkeyed'⟩ := run_inUse hkeyed hrun
    obtain ⟨t'', hruns⟩ := ih hkeyed' hnext
    exact ⟨t'', by rw [List.foldlM_cons, hrun]; exact hruns⟩

lemma Breaks.forall_mem {P : Statement → Prop}
    (h : Breaks lib o schema fails isDelete kind table used i contents sts)
    (hP : ∀ content ∈ contents, ∀ st, asked lib o isDelete content = .ok st → P st) :
    ∀ st ∈ sts, P st := by
  induction h with
  | refused => simp
  | goes hgoes _ ih =>
    rw [List.forall_mem_cons] at hP ⊢
    exact ⟨hP.1 _ hgoes.asks, ih hP.2⟩

end runs

/-! ### The request -/

section request

variable {lib : Ngx} {o : Order} {schema : Schema} {fails : Point → Option Str} {isDelete : Bool}
  {kind : Kind} {contents : List Parsed} {objectName : Str} {contentList : List Content} {db : Db}

lemma contentParse_checked
    (h : contentParse lib o (engine schema lib) fails objectName contentList isDelete db =
      .ok (.ok (kind, contents))) :
    ∀ content ∈ contents, Checked lib schema isDelete kind content := by
  refine contentParse_forall (fun content i parsed hcheck => ?_) h
  obtain ⟨-, htext, ⟨t, ht, hexist⟩, hattrs⟩ := contentCheck_passed hcheck
  obtain ⟨hkind, c, hc, -⟩ := exist_ok hexist
  exact ⟨hkind, ⟨t, c, ht, hc⟩, htext, fun hupdate k v => checked_unstamped (hattrs hupdate)⟩

lemma updateObjectInfo_parsed
    (h : contentParse lib o (engine schema lib) fails objectName contentList isDelete db =
      .ok (.ok (kind, contents))) :
    updateObjectInfo lib o (engine schema lib) fails objectName contentList isDelete db =
      ((runSteps (requestStep lib o schema fails isDelete kind) contents 0 db).1.map
          Answer.ofExcept,
        (runSteps (requestStep lib o schema fails isDelete kind) contents 0 db).2) := by
  unfold updateObjectInfo
  rw [h]
  cases isDelete <;> rfl

lemma map_ofExcept {r : Lua (Except Str (List Str))} {info : Str} :
    r.map Answer.ofExcept = .ok (.fail info) ↔ r = .ok (.error info) := by
  rcases r with e | errInfo | ids
  · exact ⟨nofun, nofun⟩
  · constructor <;> · intro h; cases h; rfl
  · exact ⟨nofun, nofun⟩

/-- FAIL is answered when a content is refused, with what the statements before it made. -/
lemma fail_iff (hkeyed : ∀ kind, Keyed schema kind (db kind))
    (hparse : contentParse lib o (engine schema lib) fails objectName contentList isDelete db =
      .ok (.ok (kind, contents))) {db' : Db} :
    (∃ info, updateObjectInfo lib o (engine schema lib) fails objectName contentList isDelete db =
        (.ok (.fail info), db')) ↔
      ∃ sts, Breaks lib o schema fails isDelete kind (db kind) (inUse (db kind)) 0 contents sts ∧
        ∃ t, sts.foldlM (run schema kind) (db kind) = some t ∧ Function.update db kind t = db' := by
  rw [← runSteps_fail_iff (contentParse_checked hparse) (hkeyed kind) fun _ _ _ h => h,
    updateObjectInfo_parsed hparse]
  simp only [Prod.ext_iff, map_ofExcept]

lemma atomic_iff (hkeyed : ∀ kind, Keyed schema kind (db kind))
    (hparse : contentParse lib o (engine schema lib) fails objectName contentList isDelete db =
      .ok (.ok (kind, contents))) :
    Atomic lib o schema fails isDelete objectName contentList db ↔
      ∀ sts t, Breaks lib o schema fails isDelete kind (db kind) (inUse (db kind)) 0 contents sts →
        sts.foldlM (run schema kind) (db kind) = some t → t = db kind := by
  constructor
  · intro hatomic sts t hbreaks hruns
    obtain ⟨info, hfail⟩ := (fail_iff hkeyed hparse).mpr ⟨sts, hbreaks, t, hruns, rfl⟩
    have hsame := hatomic info (by rw [hfail])
    rw [hfail] at hsame
    exact Function.update_eq_self_iff.mp hsame
  · intro h info hinfo
    obtain ⟨sts, hbreaks, t, hruns, hdb⟩ := (fail_iff hkeyed hparse).mp ⟨info, Prod.ext hinfo rfl⟩
    exact hdb.symm.trans (by rw [h sts t hbreaks hruns, Function.update_eq_self])

lemma Breaks.ne_nil {used : Set Cell} {i : ℕ} {sts : List Statement} {table : Table}
    (h : Breaks lib o schema fails isDelete kind table used i contents sts) :
    ∃ content, content ∈ contents := by
  cases h with
  | refused => exact ⟨_, List.mem_cons_self⟩
  | goes => exact ⟨_, List.mem_cons_self⟩

/-- Statements of which one alters the table leave another one. -/
lemma ne_of_alters (hkeyed : Keyed schema kind (db kind))
    (hpast : isDelete ∨ ∀ kind, kind ≠ .publisher → Past schema kind (db kind))
    (hchecked : ∀ content ∈ contents, Checked lib schema isDelete kind content)
    {sts : List Statement} {t : Table}
    (hbreaks : Breaks lib o schema fails isDelete kind (db kind) (inUse (db kind)) 0 contents sts)
    (hruns : sts.foldlM (run schema kind) (db kind) = some t)
    (halters : ∃ st ∈ sts, Alters schema kind (db kind) st) : t ≠ db kind := by
  cases hdelete : isDelete with
  | true =>
    exact runs_deleted (hbreaks.forall_mem fun _ _ _ hst => asked_delete hdelete hst) hruns halters
  | false =>
    obtain ⟨content, hmem⟩ := hbreaks.ne_nil
    have hpast' := hpast.resolve_left (by simp [hdelete]) kind (hchecked content hmem).kind
    exact runs_altered hkeyed hpast'
      (hbreaks.forall_mem fun c hc _ hst => asked_timeless (hchecked c hc) hdelete hst) hruns halters

/-- **FAIL means that the database is as it was unless the request is half done**, whatever the
tables hold and whichever queries fail. A request that is half done leaves another database: a
delete always, and an update if the times of the last changes have passed. -/
theorem fail_unchanged (hkeyed : ∀ kind, Keyed schema kind (db kind)) :
    (¬ HalfDone lib o schema fails isDelete objectName contentList db →
      Atomic lib o schema fails isDelete objectName contentList db) ∧
    (isDelete ∨ (∀ kind, kind ≠ .publisher → Past schema kind (db kind)) →
      (Atomic lib o schema fails isDelete objectName contentList db ↔
        ¬ HalfDone lib o schema fails isDelete objectName contentList db)) := by
  have hsound : ¬ HalfDone lib o schema fails isDelete objectName contentList db →
      Atomic lib o schema fails isDelete objectName contentList db := by
    intro hhalf
    cases hparse : contentParse lib o (engine schema lib) fails objectName contentList isDelete db with
    | error e => simp [Atomic, updateObjectInfo, hparse]
    | ok r =>
      obtain errInfo | ⟨kind, contents⟩ := r
      · simp [Atomic, updateObjectInfo, hparse]
      · refine (atomic_iff hkeyed hparse).mpr fun sts t hbreaks hruns => ?_
        refine runs_unaltered (hkeyed kind) hruns fun st hst halters => ?_
        exact hhalf ⟨kind, contents, sts, hparse, hbreaks, st, hst, halters⟩
  refine ⟨hsound, fun hpast => ⟨?_, hsound⟩⟩
  rintro hatomic ⟨kind, contents, sts, hparse, hbreaks, halters⟩
  have hchecked := contentParse_checked hparse
  obtain ⟨t, hruns⟩ := hbreaks.runs (hkeyed kind) rfl
  exact ne_of_alters (hkeyed kind) hpast hchecked hbreaks hruns halters
    ((atomic_iff hkeyed hparse).mp hatomic sts t hbreaks hruns)

lemma contentChecks_length {i : ℕ}
    (h : contentChecks lib o (engine schema lib) fails kind isDelete db contentList i =
      .ok (.ok contents)) :
    contents.length = contentList.length := by
  induction contentList generalizing contents i with
  | nil => cases h; rfl
  | cons content contentList ih =>
    unfold contentChecks at h
    obtain ⟨r, -, h⟩ := bind_ok.mp h
    cases r with
    | error errInfo => cases h
    | ok parsed =>
      obtain ⟨rest, hrest, h⟩ := bind_ok.mp h
      cases rest with
      | error errInfo => cases h
      | ok rest =>
        cases h
        rw [List.length_cons, List.length_cons, ih hrest]

lemma contentParse_length
    (h : contentParse lib o (engine schema lib) fails objectName contentList isDelete db =
      .ok (.ok (kind, contents))) : contents.length = contentList.length := by
  unfold contentParse at h
  split at h
  · cases h
  · obtain ⟨r, hchecks, h⟩ := bind_ok.mp h
    cases r with
    | error errInfo => cases h
    | ok contents' =>
      dsimp only at h
      split at h
      · obtain ⟨_, -, h⟩ := bind_ok.mp h
        cases h
      · cases h
        exact contentChecks_length hchecks

/-- A request about one object is never half done. -/
theorem atomic_single (hkeyed : ∀ kind, Keyed schema kind (db kind)) {content : Content} :
    Atomic lib o schema fails isDelete objectName [content] db := by
  refine (fail_unchanged hkeyed).1 ?_
  rintro ⟨kind, contents, sts, hparse, hbreaks, st, hst, -⟩
  obtain ⟨parsed, rfl⟩ := List.length_eq_one_iff.mp (contentParse_length hparse)
  cases hbreaks with
  | refused => cases hst
  | goes _ hrest => cases hrest

end request

section samples

/-- A status for each of the two. -/
def sampleContents : List Content :=
  [.object ((∅ : Tbl Val).putAll [(lit "id", .num 1), (lit "status", .num 0)]),
    .object ((∅ : Tbl Val).putAll [(lit "id", .num 2), (lit "status", .num 0)])]

/-- The second update fails. -/
def secondFails : Point → Option Str
  | .write 1 => some (lit "failed to query mysql")
  | _ => none

/-- The request to set both statuses to 0. -/
def sampleAnswer (fails : Point → Option Str) : Lua Answer × Db :=
  updateObjectInfo (Ngx.ofTexts []) .plain (engine plainSchema (Ngx.ofTexts [])) fails (lit "dsp")
    sampleContents false sampleDb

def isFail : Lua Answer → Bool
  | .ok (.fail _) => true
  | _ => false

lemma eq_fail {r : Lua Answer} (h : isFail r) : ∃ info, r = .ok (.fail info) := by
  unfold isFail at h
  split at h
  · exact ⟨_, rfl⟩
  · cases h

lemma sampleDb_past (kind : Kind) : Past plainSchema kind (sampleDb kind) where
  keeps := List.mem_cons_self
  passed := by
    rintro ⟨k, row, t, hrow, htime⟩
    unfold sampleDb at hrow
    split at hrow
    · cases hrow
      have hne : Cell.str (lit "2014-06-01 12:00:00") ≠ .str (lit "2015-06-01 12:00:00") := by
        decide +kernel
      exact hne (Option.some.inj htime)
    · cases hrow

theorem fail_unchanged_sample :
    (¬ HalfDone (Ngx.ofTexts []) .plain plainSchema secondFails false (lit "dsp") sampleContents
        sampleDb →
      Atomic (Ngx.ofTexts []) .plain plainSchema secondFails false (lit "dsp") sampleContents
        sampleDb) ∧
    (Atomic (Ngx.ofTexts []) .plain plainSchema secondFails false (lit "dsp") sampleContents
        sampleDb ↔
      ¬ HalfDone (Ngx.ofTexts []) .plain plainSchema secondFails false (lit "dsp") sampleContents
        sampleDb) :=
  ⟨(fail_unchanged fun kind => (sampleDb_indexed kind).keyed).1,
    (fail_unchanged fun kind => (sampleDb_indexed kind).keyed).2
      (.inr fun kind _ => sampleDb_past kind)⟩

def statusOf (db : Db) (id : Cell) : Option Cell := (db .dsp id).bind (· (lit "status"))

/-- The request is answered FAIL, and the first DSP has its new status. -/
theorem first_update_stays :
    (∃ info, (sampleAnswer secondFails).1 = .ok (.fail info)) ∧
      (sampleAnswer secondFails).2 ≠ sampleDb := by
  refine ⟨eq_fail (by decide +kernel), fun h => ?_⟩
  have hstatus : statusOf (sampleAnswer secondFails).2 (.num 1) ≠ statusOf sampleDb (.num 1) := by
    decide +kernel
  exact hstatus (by rw [h])

end samples

end Sax.Halfway
