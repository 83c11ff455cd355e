import Mathlib.Data.Set.Insert
import Sax.Tables

/-!
The ids in use as an abstract view of a table.

Which statements the server refuses, and which ids are in use after one it carries out, depends
only on the ids in use before: the rest of the row an update finds does not matter. What the rows
hold says whether a statement changes the table.
-/

namespace Sax.InUse

open Sax.LuaVal Sax.Center Sax.Tables
open Sax.ObjectInfo (Kind Cell lower)

section spec

variable (schema : Schema) (kind : Kind)

/-- The ids in use, by the key the server compares them by. -/
def inUse (table : Table) : Set Cell := {k | ∃ row, table k = some row}

def keyOf (id : Literal) : Cell := schema.key kind ((schema.cell id).getD .null)

/-- The key of a row under a key once the assignments are made. -/
def movedTo (k : Cell) (l : List (Str × Literal)) : Cell :=
  ((left schema kind l (lit "id")).map (schema.key kind)).getD k

/-- The key of a row that is inserted. -/
def newKey (columns : List (Str × Literal)) : Cell :=
  movedTo schema kind (schema.key kind (blank schema kind .null).id) columns

/-- A statement that the server carries out while some ids are in use. -/
def Allowed (used : Set Cell) : Statement → Prop
  | .update id setBlock => (∃ c, schema.cell id = some c) ∧ (keyOf schema kind id ∈ used →
      (∀ e ∈ setBlock, ∃ p, written schema kind e = some p) ∧
        movedTo schema kind (keyOf schema kind id) setBlock ∉ used \ {keyOf schema kind id})
  | .insert columns => (columns.map fun e => lower e.1).Nodup ∧
      (∀ e ∈ columns, ∃ p, written schema kind e = some p) ∧ newKey schema kind columns ∉ used
  | .delete id => ∃ c, schema.cell id = some c

/-- The ids in use after a statement. -/
def after (used : Set Cell) : Statement → Set Cell
  | .update id setBlock => {k | keyOf schema kind id ∈ used ∧
      k = movedTo schema kind (keyOf schema kind id) setBlock} ∪ (used \ {keyOf schema kind id})
  | .insert columns => insert (newKey schema kind columns) used
  | .delete id => used \ {keyOf schema kind id}

/-- A statement that changes a table: it writes another value to a column of a row that is there,
inserts a row or deletes one. -/
def Alters (table : Table) : Statement → Prop
  | .update id setBlock => ∃ row, table (keyOf schema kind id) = some row ∧
      ∃ column x, left schema kind setBlock column = some x ∧ row column ≠ some x
  | .insert _ => True
  | .delete id => ∃ row, table (keyOf schema kind id) = some row

/-- A table with a row that bears a time the clock shows. -/
def Fresh (table : Table) : Prop :=
  ∃ k row t, table k = some row ∧ row modifytime = some (schema.now kind t)

/-- The table keeps the times of the last changes, and all of them have passed. -/
structure Past (table : Table) : Prop where
  keeps : modifytime ∈ schema.columns kind
  passed : ¬ Fresh schema kind table

/-- A statement that leaves the time of the last change to the server. -/
def Timeless : Statement → Prop
  | .update _ setBlock => ∀ e ∈ setBlock, lower e.1 ≠ modifytime
  | .insert columns => ∀ e ∈ columns, lower e.1 ≠ modifytime
  | .delete _ => False

end spec

/-! ### The rows that are written -/

section rows

variable {schema : Schema} {kind : Kind} {table table' : Table} {row : Row}

lemma assigned_id (l : List (Str × Literal)) : schema.key kind (assigned schema kind l row).id =
    movedTo schema kind (schema.key kind row.id) l := by
  unfold movedTo Row.id assigned
  cases hleft : left schema kind l (lit "id") with
  | none => simp only [Option.none_or, Option.map_none, Option.getD_none]
  | some x => simp only [Option.some_or, Option.map_some, Option.getD_some]

lemma blank_id (now : Cell) : (blank schema kind now).id = (blank schema kind .null).id := by
  have hid : lit "id" ≠ modifytime := by decide
  simp only [Row.id, blank, if_neg hid]

lemma run_update {id : Literal} {c : Cell} {setBlock : List (Str × Literal)}
    (hkeyed : Keyed schema kind table) (hc : schema.cell id = some c)
    (hrow : table (keyOf schema kind id) = some row) :
    run schema kind table (.update id setBlock) = some table' ↔
      (∀ e ∈ setBlock, ∃ p, written schema kind e = some p) ∧
        Function.update table (keyOf schema kind id) none
          (movedTo schema kind (keyOf schema kind id) setBlock) = none ∧
        Function.update (Function.update table (keyOf schema kind id) none)
          (movedTo schema kind (keyOf schema kind id) setBlock)
          (some (touch schema kind (schema.now kind table) setBlock row
            (assigned schema kind setBlock row))) = table' := by
  have hkey : keyOf schema kind id = schema.key kind c := by rw [keyOf, hc, Option.getD_some]
  have hmoved (now : Cell) : schema.key kind (touch schema kind now setBlock row
      (assigned schema kind setBlock row)).id =
        movedTo schema kind (keyOf schema kind id) setBlock := by
    rw [touch_id, assigned_id, hkeyed _ row hrow]
  rw [run, hc, Option.bind_eq_bind, Option.bind_some, update_eq_some (hkey ▸ hrow), ← hkey]
  simp only [foldlM_assign, put_eq_some]
  constructor
  · rintro ⟨_, ⟨hl, rfl⟩, hput⟩
    rw [hmoved] at hput
    exact ⟨hl, hput⟩
  · rintro ⟨hl, hput⟩
    refine ⟨_, ⟨hl, rfl⟩, ?_⟩
    rw [hmoved]
    exact hput

lemma run_absent {id : Literal} {c : Cell} {setBlock : List (Str × Literal)}
    (hc : schema.cell id = some c) (hrow : table (keyOf schema kind id) = none) :
    run schema kind table (.update id setBlock) = some table' ↔ table = table' := by
  rw [keyOf, hc, Option.getD_some] at hrow
  rw [run, hc, Option.bind_eq_bind, Option.bind_some, update, hrow]
  exact Option.some_inj

lemma run_insert {columns : List (Str × Literal)} :
    run schema kind table (.insert columns) = some table' ↔
      (columns.map fun e => lower e.1).Nodup ∧
        (∀ e ∈ columns, ∃ p, written schema kind e = some p) ∧
        table (newKey schema kind columns) = none ∧
        Function.update table (newKey schema kind columns)
          (some (assigned schema kind columns (blank schema kind (schema.now kind table)))) =
            table' := by
  have hkey (now : Cell) : schema.key kind (assigned schema kind columns (blank schema kind now)).id =
      newKey schema kind columns := by
    rw [assigned_id, blank_id, newKey]
  rw [run, insert_eq_some]
  simp only [foldlM_assign, put_eq_some]
  refine and_congr_right fun _ => ?_
  constructor
  · rintro ⟨_, ⟨hl, rfl⟩, hput⟩
    rw [hkey] at hput
    exact ⟨hl, hput⟩
  · rintro ⟨hl, hput⟩
    refine ⟨_, ⟨hl, rfl⟩, ?_⟩
    rw [hkey]
    exact hput

lemma run_delete {id : Literal} : run schema kind table (.delete id) = some table' ↔
    (∃ c, schema.cell id = some c) ∧
      Function.update table (keyOf schema kind id) none = table' := by
  cases hc : schema.cell id with
  | none => simp [run, hc]
  | some c => simp [run, hc, keyOf]

end rows

/-! ### One statement -/

section step

variable {schema : Schema} {kind : Kind} {table table' : Table} {st : Statement}

lemma update_none_iff {key k : Cell} :
    Function.update table key none k = none ↔ k ∉ inUse table \ {key} := by
  by_cases hk : k = key
  · subst hk
    simp
  · rw [Function.update_of_ne hk, Option.eq_none_iff_forall_ne_some]
    simp [inUse, hk]

lemma inUse_update (key : Cell) (row : Row) :
    inUse (Function.update table key (some row)) = insert key (inUse table) := by
  ext k
  by_cases hk : k = key
  · subst hk
    simp [inUse]
  · simp [inUse, hk]

lemma inUse_erase (key : Cell) : inUse (Function.update table key none) = inUse table \ {key} := by
  ext k
  by_cases hk : k = key
  · subst hk
    simp [inUse]
  · simp [inUse, hk]

/-- **A statement is refused for the ids in use alone.** -/
lemma run_isSome_iff (hkeyed : Keyed schema kind table) :
    (∃ table', run schema kind table st = some table') ↔
      Allowed schema kind (inUse table) st := by
  cases st with
  | update id setBlock =>
    cases hc : schema.cell id with
    | none => simp [run, Allowed, hc]
    | some c =>
      cases hrow : table (keyOf schema kind id) with
      | none =>
        have hunused : keyOf schema kind id ∉ inUse table := by simp [inUse, hrow]
        simp only [run_absent hc hrow, exists_eq', true_iff]
        exact ⟨⟨c, hc⟩, fun hused => absurd hused hunused⟩
      | some row =>
        have hused : keyOf schema kind id ∈ inUse table := ⟨row, hrow⟩
        simp only [run_update hkeyed hc hrow, update_none_iff, exists_and_left, exists_eq',
          and_true]
        exact ⟨fun h => ⟨⟨c, hc⟩, fun _ => h⟩, fun h => h.2 hused⟩
  | insert columns =>
    simp only [run_insert, exists_and_left, exists_eq', and_true, Allowed]
    refine and_congr_right fun _ => and_congr_right fun _ => ?_
    simp [inUse, Option.eq_none_iff_forall_ne_some]
  | delete id => simp only [run_delete, exists_and_left, exists_eq', and_true, Allowed]

/-- **The ids in use after a statement follow from those in use before it.** -/
lemma run_inUse (hkeyed : Keyed schema kind table) (h : run schema kind table st = some table') :
    inUse table' = after schema kind (inUse table) st ∧ Keyed schema kind table' := by
  obtain hallowed := (run_isSome_iff hkeyed).mp ⟨table', h⟩
  cases st with
  | update id setBlock =>
    obtain ⟨⟨c, hc⟩, -⟩ := hallowed
    cases hrow : table (keyOf schema kind id) with
    | none =>
      have hunused : keyOf schema kind id ∉ inUse table := by simp [inUse, hrow]
      rw [run_absent hc hrow] at h
      subst h
      refine ⟨?_, hkeyed⟩
      rw [after, Set.sdiff_singleton_eq_self hunused]
      simp [hunused]
    | some row =>
      have hused : keyOf schema kind id ∈ inUse table := ⟨row, hrow⟩
      obtain ⟨-, -, rfl⟩ := (run_update hkeyed hc hrow).mp h
      constructor
      · rw [inUse_update, inUse_erase, after]
        simp only [hused, true_and]
        rfl
      · refine (hkeyed.erase _).update ?_
        rw [touch_id, assigned_id, hkeyed _ row hrow]
  | insert columns =>
    obtain ⟨-, -, -, rfl⟩ := run_insert.mp h
    refine ⟨inUse_update _ _, hkeyed.update ?_⟩
    rw [assigned_id, blank_id, newKey]
  | delete id =>
    obtain ⟨-, rfl⟩ := run_delete.mp h
    exact ⟨inUse_erase _, hkeyed.erase _⟩

/-- A statement that alters nothing leaves the table as it is, and no time is set. -/
lemma run_unaltered (hkeyed : Keyed schema kind table) (h : run schema kind table st = some table')
    (hst : ¬ Alters schema kind table st) : table' = table := by
  have hallowed := (run_isSome_iff hkeyed).mp ⟨table', h⟩
  cases st with
  | update id setBlock =>
    obtain ⟨⟨c, hc⟩, -⟩ := hallowed
    cases hrow : table (keyOf schema kind id) with
    | none => exact ((run_absent hc hrow).mp h).symm
    | some row =>
      obtain ⟨-, -, rfl⟩ := (run_update hkeyed hc hrow).mp h
      have hsame : ∀ column x, left schema kind setBlock column = some x → row column = some x := by
        intro column x hx
        by_contra hne
        exact hst ⟨row, hrow, column, x, hx, hne⟩
      have hassigned : assigned schema kind setBlock row = row := by
        funext column
        unfold assigned
        cases hleft : left schema kind setBlock column with
        | none => rfl
        | some x => exact (hsame column x hleft).symm
      have hmoved : movedTo schema kind (keyOf schema kind id) setBlock = keyOf schema kind id := by
        rw [← hkeyed _ row hrow, ← assigned_id, hassigned]
      have htouch (now : Cell) : touch schema kind now setBlock row row = row := by
        simp [touch]
      rw [hassigned, htouch, hmoved, Function.update_idem, ← hrow, Function.update_eq_self]
  | insert columns => exact absurd trivial hst
  | delete id =>
    obtain ⟨-, rfl⟩ := run_delete.mp h
    rw [Function.update_eq_self_iff, eq_comm, Option.eq_none_iff_forall_ne_some]
    exact fun row hrow => hst ⟨row, hrow⟩

lemma left_timeless {l : List (Str × Literal)} (hl : ∀ e ∈ l, lower e.1 ≠ modifytime) :
    left schema kind l modifytime = none := by
  rw [Option.eq_none_iff_forall_ne_some]
  intro x hx
  obtain ⟨e, he, hcolumn, -⟩ := left_eq_some hx
  exact hl e he hcolumn

/-- **What alters a table leaves the time in it.** -/
lemma fresh_of_alters (hkeyed : Keyed schema kind table) (hkeeps : modifytime ∈ schema.columns kind)
    (htimeless : Timeless st) (h : run schema kind table st = some table')
    (hst : Alters schema kind table st) : Fresh schema kind table' := by
  have hallowed := (run_isSome_iff hkeyed).mp ⟨table', h⟩
  cases st with
  | update id setBlock =>
    obtain ⟨⟨c, hc⟩, -⟩ := hallowed
    obtain ⟨row, hrow, column, x, hx, hne⟩ := hst
    obtain ⟨-, -, rfl⟩ := (run_update hkeyed hc hrow).mp h
    have hchanged : ∃ column ∈ schema.columns kind,
        assigned schema kind setBlock row column ≠ row column := by
      obtain ⟨-, -, -, hcolumn, -⟩ := left_eq_some hx
      refine ⟨column, hcolumn, ?_⟩
      rw [assigned, hx]
      exact hne.symm
    refine ⟨_, _, table, Function.update_self _ _ _, ?_⟩
    rw [touch, if_pos ⟨hkeeps, htimeless, hchanged⟩, Function.update_self]
  | insert columns =>
    obtain ⟨-, -, -, rfl⟩ := run_insert.mp h
    refine ⟨_, _, table, Function.update_self _ _ _, ?_⟩
    rw [assigned, left_timeless htimeless, Option.none_or, blank, if_pos hkeeps, if_pos rfl]
  | delete id => exact htimeless.elim

/-- **A time that was left in a table stays there**, or a later one. -/
lemma fresh_run (hkeyed : Keyed schema kind table) (htimeless : Timeless st)
    (h : run schema kind table st = some table') (hfresh : Fresh schema kind table) :
    Fresh schema kind table' := by
  have hallowed := (run_isSome_iff hkeyed).mp ⟨table', h⟩
  obtain ⟨k, old, t, hold, htime⟩ := hfresh
  cases st with
  | update id setBlock =>
    obtain ⟨⟨c, hc⟩, -⟩ := hallowed
    cases hrow : table (keyOf schema kind id) with
    | none =>
      rw [run_absent hc hrow] at h
      exact h ▸ ⟨k, old, t, hold, htime⟩
    | some row =>
      obtain ⟨-, hnone, rfl⟩ := (run_update hkeyed hc hrow).mp h
      by_cases hk : k = keyOf schema kind id
      · -- the row is the one that is written, and keeps the time or gets a new one
        rw [hk, hrow, Option.some.injEq] at hold
        subst hold
        have hkept : assigned schema kind setBlock row modifytime = row modifytime := by
          rw [assigned, left_timeless htimeless, Option.none_or]
        rcases touch_modifytime (schema.now kind table) setBlock
          row (assigned schema kind setBlock row) with hsame | hnow
        · exact ⟨_, _, t, Function.update_self _ _ _, by rw [hsame, hkept, htime]⟩
        · exact ⟨_, _, table, Function.update_self _ _ _, hnow⟩
      · have hne : k ≠ movedTo schema kind (keyOf schema kind id) setBlock := by
          rintro rfl
          rw [Function.update_of_ne hk, hold] at hnone
          cases hnone
        refine ⟨k, old, t, ?_, htime⟩
        rw [Function.update_of_ne hne, Function.update_of_ne hk, hold]
  | insert columns =>
    obtain ⟨-, -, hnone, rfl⟩ := run_insert.mp h
    have hne : k ≠ newKey schema kind columns := by
      rintro rfl
      rw [hold] at hnone
      cases hnone
    exact ⟨k, old, t, by rw [Function.update_of_ne hne, hold], htime⟩
  | delete id => exact htimeless.elim

end step

/-! ### The statements of a request -/

section runs

variable {schema : Schema} {kind : Kind} {table table' : Table} {sts : List Statement}

lemma runs_unaltered (hkeyed : Keyed schema kind table)
    (h : sts.foldlM (run schema kind) table = some table')
    (hsts : ∀ st ∈ sts, ¬ Alters schema kind table st) : table' = table := by
  induction sts with
  | nil => cases h; rfl
  | cons st sts ih =>
    rw [List.forall_mem_cons] at hsts
    obtain ⟨t, hstep, hrest⟩ := Option.bind_eq_some_iff.mp h
    rw [run_unaltered hkeyed hstep hsts.1] at hrest
    exact ih hrest hsts.2

lemma runs_fresh (hkeyed : Keyed schema kind table) (htimeless : ∀ st ∈ sts, Timeless st)
    (h : sts.foldlM (run schema kind) table = some table') (hfresh : Fresh schema kind table) :
    Fresh schema kind table' := by
  induction sts generalizing table with
  | nil => cases h; exact hfresh
  | cons st sts ih =>
    rw [List.forall_mem_cons] at htimeless
    obtain ⟨t, hstep, hrest⟩ := Option.bind_eq_some_iff.mp h
    exact ih (run_inUse hkeyed hstep).2 htimeless.2 hrest
      (fresh_run hkeyed htimeless.1 hstep hfresh)

/-- **Updates and inserts of which one alters the table leave another table**, if the times in it
have passed. -/
lemma runs_altered (hkeyed : Keyed schema kind table) (hpast : Past schema kind table)
    (htimeless : ∀ st ∈ sts, Timeless st)
    (h : sts.foldlM (run schema kind) table = some table')
    (hsts : ∃ st ∈ sts, Alters schema kind table st) : table' ≠ table := by
  induction sts with
  | nil =>
    obtain ⟨st, hst, -⟩ := hsts
    cases hst
  | cons st sts ih =>
    rw [List.forall_mem_cons] at htimeless
    obtain ⟨t, hstep, hrest⟩ := Option.bind_eq_some_iff.mp h
    by_cases hst : Alters schema kind table st
    · have hfresh : Fresh schema kind table' :=
        runs_fresh (run_inUse hkeyed hstep).2 htimeless.2 hrest
          (fresh_of_alters hkeyed hpast.keeps htimeless.1 hstep hst)
      rintro rfl
      exact hpast.passed hfresh
    · rw [run_unaltered hkeyed hstep hst] at hrest
      obtain ⟨st', hst', halters⟩ := hsts
      rcases List.mem_cons.mp hst' with rfl | hmem
      · exact absurd halters hst
      · exact ih htimeless.2 hrest ⟨st', hmem, halters⟩

/-- What was deleted is not there after more deletes. -/
lemma runs_delete_none {k : Cell} (hdelete : ∀ st ∈ sts, ∃ id, st = .delete id)
    (h : sts.foldlM (run schema kind) table = some table') (hk : table k = none) :
    table' k = none := by
  induction sts generalizing table with
  | nil => cases h; exact hk
  | cons st sts ih =>
    rw [List.forall_mem_cons] at hdelete
    obtain ⟨⟨id, rfl⟩, hrest'⟩ := hdelete
    obtain ⟨t, hstep, hrest⟩ := Option.bind_eq_some_iff.mp h
    refine ih hrest' hrest ?_
    obtain ⟨-, rfl⟩ := run_delete.mp hstep
    by_cases hkey : k = keyOf schema kind id
    · rw [hkey, Function.update_self]
    · rw [Function.update_of_ne hkey, hk]

/-- Deletes of which one deletes a row leave another table. -/
lemma runs_deleted (hdelete : ∀ st ∈ sts, ∃ id, st = .delete id)
    (h : sts.foldlM (run schema kind) table = some table')
    (hsts : ∃ st ∈ sts, Alters schema kind table st) : table' ≠ table := by
  obtain ⟨st, hst, halters⟩ := hsts
  obtain ⟨before, rest, rfl⟩ := List.append_of_mem hst
  obtain ⟨id, rfl⟩ := hdelete st hst
  obtain ⟨row, hrow⟩ := halters
  rw [List.foldlM_append] at h
  obtain ⟨t, -, h⟩ := Option.bind_eq_some_iff.mp h
  obtain ⟨t', hstep, hrest⟩ := Option.bind_eq_some_iff.mp h
  have hgone : t' (keyOf schema kind id) = none := by
    obtain ⟨-, rfl⟩ := run_delete.mp hstep
    exact Function.update_self _ _ _
  have hend : table' (keyOf schema kind id) = none :=
    runs_delete_none (fun st hmem => hdelete st (by simp [hmem])) hrest hgone
  rintro rfl
  rw [hrow] at hend
  cases hend

end runs

end Sax.InUse
