import Sax.StoreSync
import Sax.Qps

/-!
Reloading the shared dictionary of a worker: `initObjectInfo` of `sax.lua`, which flushes it and
has every object kind read its table and store row after row, as `updateInfoAllSD` of
`model/object.lua` does.

The dictionary holds the entries of the objects and the numbers that count the requests of the
DSPs. The flush takes both, and the reload brings back the rows up to the first query, row or
write that fails.
-/

namespace Sax.Reload

open Sax.LuaVal Sax.Loop Sax.Const Sax.Runtime Sax.ObjectInfo Sax.Qps

/-- What `ngx.shared.sax:set` does with a value. Where memory runs out it evicts entries, and
says so if it stored the value after all. -/
inductive SetResult
  | stored
  | forcible (evicted : List Str)
  | failed (evicted : List Str)
  deriving DecidableEq

/-- How the database and the dictionary behave during a reload: the error of the query for a
kind, and the result of each call of `set` by its number. -/
structure Outside where
  query : Kind → Option LuaError
  set : ℕ → SetResult

abbrev Dict := Tbl Val

structure State where
  dict : Dict
  sets : ℕ

/-- What a call of `set` leaves. -/
def SetResult.store (r : SetResult) (e : Str × Str) (dict : Dict) : Dict :=
  match r with
  | stored => dict.insert e.1 (.str e.2)
  | forcible evicted => (dict.eraseAll evicted).insert e.1 (.str e.2)
  | failed evicted => dict.eraseAll evicted

section code

variable (lib : Ngx) (w : Outside)

/-- The rest of `entry`, for what the select function returned. -/
def infoEntry (kind : Kind) (info : List (String × Cell)) : Lua (Str × Str) := do
  let value ← transformInfo lib kind info
  let text ← lib.encode (.arr value)
  match value.head? with
  | some (.str id) => return (kind.sharedDictPre ++ id, text)
  | some (.num id) => return (kind.sharedDictPre ++ lib.tostring id, text)
  | _ => throw .badConcat

/-- `setDict`; the answer -1 ends the request in `initObjectInfo`. -/
def setDict (e : Str × Str) (s : State) : Lua Unit × State :=
  let r := w.set s.sets
  (if r = .stored then .ok () else .error (.error "Failed to update info"),
    ⟨r.store e s.dict, s.sets + 1⟩)

/-- The body of the loop over the rows. -/
def storeInfo (kind : Kind) (info : List (String × Cell)) (s : State) : Lua Unit × State :=
  match infoEntry lib kind info with
  | .ok e => setDict w e s
  | .error err => (.error err, s)

/-- `cacheInfoSD`, which is `updateInfoAllSD`. -/
def cacheInfoSD (kind : Kind) (rows : List Row) (s : State) : Lua Unit × State :=
  match w.query kind with
  | some err => (.error err, s)
  | none =>
    match rows.mapM (select lib kind) with
    | .ok infoList => each (storeInfo lib w kind) infoList s
    | .error err => (.error err, s)

/-- A flush leaves nothing of the dictionary there was. -/
def flushAllDict (_ : Dict) : Dict := ∅

/-- `sax.initObjectInfo` -/
def initObjectInfo (o : Order) (db : Db) (dict : Dict) : Lua Unit × State :=
  each (fun kind => cacheInfoSD lib w kind (db kind.table)) (o.visit Kind.all)
    ⟨flushAllDict dict, 0⟩

end code

/-! ### What a reload should leave -/

/-- The keys of the limit, the count and the total of a DSP. -/
def QpsKey (k : Str) : Prop :=
  ∃ id, k = genKeyForQpsLimit id ∨ k = genKeyForQpsCount id ∨ k = genKeyForQpsTotal id

/-- Every other entry is as it was. -/
def SameObjects (dict dict' : Dict) : Prop := ∀ k, ¬ QpsKey k → dict'.get k = dict.get k

/-- The numbers of the DSPs are as they were. -/
def SameQps (dict dict' : Dict) : Prop := ∀ k, QpsKey k → dict'.get k = dict.get k

/-- The objects are those of a dictionary filled with the whole database. -/
def Refreshed (lib : Ngx) (o : Order) (db : Db) (dict' : Dict) : Prop :=
  ∃ t, ObjectInfo.initObjectInfo lib o db = .ok t ∧
    ∀ k, ¬ QpsKey k → dict'.get k = (t.get k).map .str

/-- **What a reload should keep**: all of the objects or none are new, and no number of a DSP. -/
def Safe (lib : Ngx) (w : Outside) (o : Order) (db : Db) (dict : Dict) : Prop :=
  (Refreshed lib o db (initObjectInfo lib w o db dict).2.dict ∨
      SameObjects dict (initObjectInfo lib w o db dict).2.dict) ∧
    SameQps dict (initObjectInfo lib w o db dict).2.dict

/-! ### A reload as one list of writes -/

section steps

variable (lib : Ngx) (w : Outside)

/-- The entries a kind is to write, or what it raises instead. -/
def kindSteps (kind : Kind) (rows : List Row) : List (Lua (Str × Str)) :=
  match w.query kind with
  | some err => [.error err]
  | none =>
    match rows.mapM (select lib kind) with
    | .ok infoList => infoList.map (infoEntry lib kind)
    | .error err => [.error err]

def steps (o : Order) (db : Db) : List (Lua (Str × Str)) :=
  (o.visit Kind.all).flatMap fun kind => kindSteps lib w kind (db kind.table)

/-- The entries of rows, as the dictionary holds them. -/
def loaded (done : List (Str × Str)) : Dict :=
  (∅ : Dict).putAll (done.map fun e => (e.1, .str e.2))

/-- The first step that does not store its entry, after those of `done`. -/
structure FirstFailure (o : Order) (db : Db) (done : List (Str × Str)) (step : Lua (Str × Str)) :
    Prop where
  before : ∃ rest, steps lib w o db = done.map .ok ++ step :: rest
  stored : ∀ i < done.length, w.set i = .stored
  fails : (∀ e, step ≠ .ok e) ∨ w.set done.length ≠ .stored

/-- What the first failure leaves. -/
def left (done : List (Str × Str)) (step : Lua (Str × Str)) : Dict :=
  match step with
  | .ok e => (w.set done.length).store e (loaded done)
  | .error _ => loaded done

end steps

section proofs

variable {lib : Ngx} {w : Outside} {o : Order} {db : Db} {dict : Dict}

/-- One step of the list. -/
def exec (w : Outside) (step : Lua (Str × Str)) (s : State) : Lua Unit × State :=
  match step with
  | .ok e => setDict w e s
  | .error err => (.error err, s)

lemma cacheInfoSD_eq {kind : Kind} {rows : List Row} (s : State) :
    cacheInfoSD lib w kind rows s = each (exec w) (kindSteps lib w kind rows) s := by
  unfold cacheInfoSD kindSteps
  cases w.query kind with
  | some err => rfl
  | none =>
    cases rows.mapM (select lib kind) with
    | error err => rfl
    | ok infoList =>
      simp only
      rw [each_map]
      rfl

/-- The reload runs through its steps. -/
lemma initObjectInfo_eq :
    initObjectInfo lib w o db dict = each (exec w) (steps lib w o db) ⟨∅, 0⟩ := by
  rw [steps, each_flatMap]
  exact each_congr fun kind _ s => cacheInfoSD_eq s

lemma exec_stored {e : Str × Str} {s : State} (h : w.set s.sets = .stored) :
    exec w (.ok e) s = (.ok (), ⟨s.dict.insert e.1 (.str e.2), s.sets + 1⟩) := by
  simp [exec, setDict, h, SetResult.store]

/-- Steps that all store their entries put them into the dictionary. -/
lemma each_stored {done : List (Str × Str)} {s : State}
    (h : ∀ i < done.length, w.set (s.sets + i) = .stored) :
    each (exec w) (done.map .ok) s =
      (.ok (), ⟨s.dict.putAll (done.map fun e => (e.1, .str e.2)), s.sets + done.length⟩) := by
  induction done generalizing s with
  | nil => rfl
  | cons e done ih =>
    have hrest : ∀ i < done.length, w.set (s.sets + 1 + i) = .stored := by
      intro i hi
      rw [Nat.add_assoc, Nat.add_comm 1 i]
      exact h (i + 1) (by simpa using hi)
    rw [List.map_cons, each, exec_stored (h 0 (by simp))]
    simp only
    rw [ih hrest]
    simp [Tbl.putAll, Nat.add_assoc, Nat.add_comm 1]

/-- Steps that go through are entries, and all are stored. -/
lemma each_ok {l : List (Lua (Str × Str))} {s t : State} (h : each (exec w) l s = (.ok (), t)) :
    ∃ done : List (Str × Str), l = done.map .ok ∧
      ∀ i < done.length, w.set (s.sets + i) = .stored := by
  induction l generalizing s with
  | nil => exact ⟨[], rfl, by simp⟩
  | cons a l ih =>
    cases a with
    | error err => simp [each, exec] at h
    | ok e =>
      by_cases hset : w.set s.sets = .stored
      · rw [each, exec_stored hset] at h
        obtain ⟨done, rfl, hdone⟩ := ih h
        refine ⟨e :: done, rfl, fun i hi => ?_⟩
        cases i with
        | zero => exact hset
        | succ i =>
          have := hdone i (by simpa using hi)
          rwa [Nat.add_assoc, Nat.add_comm 1 i] at this
      · simp [each, exec, setDict, hset] at h

/-- A reload that fails leaves what its first failure does. -/
lemma left_of_failure {done : List (Str × Str)} {step : Lua (Str × Str)}
    (h : FirstFailure lib w o db done step) :
    (initObjectInfo lib w o db dict).2.dict = left w done step := by
  obtain ⟨rest, hsteps⟩ := h.before
  rw [initObjectInfo_eq, hsteps, each_append, each_stored (by simpa using h.stored)]
  simp only
  cases step with
  | error err => simp [each, exec, left, loaded]
  | ok e =>
    have hset : w.set done.length ≠ .stored := h.fails.resolve_left fun hne => hne e rfl
    simp [each, exec, setDict, hset, left, loaded]

/-- A reload either stores all its steps or has a first failure. -/
lemma stored_or_failure (lib : Ngx) (w : Outside) (o : Order) (db : Db) (dict : Dict) :
    (∃ done : List (Str × Str), steps lib w o db = done.map .ok ∧
      (initObjectInfo lib w o db dict).2.dict = loaded done) ∨
      ∃ done step, FirstFailure lib w o db done step := by
  rcases each_stop (exec w) (steps lib w o db) ⟨∅, 0⟩ with h | ⟨pre, a, post, t, hsteps, hpre, ha, -⟩
  · left
    obtain ⟨done, hdone, hset⟩ := each_ok (Prod.ext h rfl)
    refine ⟨done, hdone, ?_⟩
    rw [initObjectInfo_eq, hdone, each_stored hset, loaded]
  · right
    obtain ⟨done, rfl, hset⟩ := each_ok hpre
    refine ⟨done, a, ⟨post, hsteps⟩, by simpa using hset, ?_⟩
    rw [each_stored hset] at hpre
    cases hpre
    cases a with
    | error err => exact .inl nofun
    | ok e =>
      right
      simpa [exec, setDict] using ha

/-! ### Rows that are all stored -/

lemma mapM_entry {kind : Kind} {rows : List Row} {infoList : List (List (String × Cell))}
    {done : List (Str × Str)} (hsel : rows.mapM (select lib kind) = .ok infoList)
    (h : infoList.map (infoEntry lib kind) = done.map .ok) :
    rows.mapM (entry lib kind) = .ok done := by
  induction rows generalizing infoList done with
  | nil =>
    cases hsel
    cases done with
    | nil => rfl
    | cons e done => cases h
  | cons row rows ih =>
    obtain ⟨info, hinfo, infoList', hrest, rfl⟩ := mapM_cons_ok.mp hsel
    cases done with
    | nil => cases h
    | cons e done =>
      rw [List.map_cons, List.map_cons, List.cons.injEq] at h
      exact mapM_cons_ok.mpr ⟨e, bind_ok.mpr ⟨info, hinfo, h.1⟩, done, ih hrest h.2, rfl⟩

lemma setDicts_of_kindSteps {kind : Kind} {rows : List Row} {done : List (Str × Str)}
    (h : kindSteps lib w kind rows = done.map .ok) (t : Tbl Str) :
    setDicts lib kind rows t = .ok (t.putAll done) := by
  have herror : ∀ err : LuaError, [(.error err : Lua (Str × Str))] ≠ done.map .ok := by
    intro err heq
    rcases done with _ | ⟨e, done⟩ <;> simp at heq
  unfold kindSteps at h
  split at h
  · exact absurd h (herror _)
  · split at h
    · next infoList hsel =>
      rw [setDicts, mapM_entry hsel h]
      rfl
    · exact absurd h (herror _)

/-- Steps that are all entries make up the dictionary of the whole database. -/
lemma initObjectInfo_of_steps {done : List (Str × Str)} (h : steps lib w o db = done.map .ok) :
    ObjectInfo.initObjectInfo lib o db = .ok ((∅ : Tbl Str).putAll done) := by
  unfold steps at h
  unfold ObjectInfo.initObjectInfo
  generalize (∅ : Tbl Str) = t
  generalize o.visit Kind.all = kinds at h
  induction kinds generalizing done t with
  | nil =>
    cases done with
    | nil => rfl
    | cons e done => cases h
  | cons kind kinds ih =>
    rw [List.flatMap_cons] at h
    obtain ⟨first, rest, rfl, hfirst, hrest⟩ := List.map_eq_append_iff.mp h.symm
    rw [List.foldlM_cons, setDicts_of_kindSteps hfirst.symm, ok_bind, ih _ hrest.symm,
      Tbl.putAll_append]

lemma get_loaded (done : List (Str × Str)) (k : Str) :
    (loaded done).get k = (((∅ : Tbl Str).putAll done).get k).map .str := by
  have hstep : ∀ (l : List (Str × Str)) (t : Tbl Str) (d : Dict),
      (∀ k, d.get k = (t.get k).map .str) →
      ∀ k, (d.putAll (l.map fun e => (e.1, .str e.2))).get k = ((t.putAll l).get k).map .str := by
    intro l
    induction l with
    | nil => exact fun t d h => h
    | cons e l ih =>
      intro t d h
      refine ih (t.insert e.1 e.2) (d.insert e.1 (.str e.2)) fun k => ?_
      by_cases hk : k = e.1
      · subst hk
        simp [Tbl.get]
      · simp only [Tbl.get] at h
        simp [Tbl.get, AList.lookup_insert_ne hk, h]
  exact hstep done ∅ ∅ (fun k => by simp) k

lemma refreshed_loaded {done : List (Str × Str)} (h : steps lib w o db = done.map .ok) :
    Refreshed lib o db (loaded done) :=
  ⟨_, initObjectInfo_of_steps h, fun k _ => get_loaded done k⟩

/-! ### No row lies under a key of the numbers -/

/-- The first attribute of a DSP is a number or empty. -/
lemma transformAttr_first {e : String × Cell} {v : Val}
    (h : transformAttr lib .dsp e = .ok (1, some v)) : (∃ q, v = .num q) ∨ v = .str [] := by
  unfold transformAttr at h
  split at h
  · cases h
  · next attr hattr =>
    have hmem := List.mem_of_find?_eq_some hattr
    simp only [Kind.attr_mem, List.mem_cons, List.not_mem_nil, or_false] at hmem
    rcases hmem with rfl | rfl | rfl | rfl | rfl | rfl | rfl | rfl | rfl | rfl | rfl
    case inl =>
      rcases e with ⟨name, _ | q | s⟩
      · cases h
      · cases h
        exact .inl ⟨q, rfl⟩
      · cases s with
        | nil =>
          cases h
          exact .inr rfl
        | cons c s =>
          simp only [convert, tonumber, Cell.text, ok_bind] at h
          cases hnum : lib.tonumber (c :: s) with
          | none =>
            rw [hnum] at h
            cases h
          | some q =>
            rw [hnum] at h
            cases h
            exact .inl ⟨q, rfl⟩
    all_goals
      exfalso
      split at h
      · cases h
      · cases h
      · simp only at h
        obtain ⟨_, -, h⟩ := bind_ok.mp h
        cases h

lemma qpsKey_cons {k : Str} (h : QpsKey k) : ∃ rest, k = 100 :: 115 :: rest := by
  obtain ⟨id, rfl | rfl | rfl⟩ := h
  · exact ⟨lit "p:qps:limit:" ++ id, by rw [genKeyForQpsLimit]; rfl⟩
  · exact ⟨lit "p:qps:count:" ++ id, by rw [genKeyForQpsCount]; rfl⟩
  · exact ⟨lit "p:qps:total:" ++ id, by rw [genKeyForQpsTotal]; rfl⟩

/-- What a row is stored under, as far as a DSP is concerned. -/
lemma infoEntry_dsp {info : List (String × Cell)} {e : Str × Str}
    (h : infoEntry lib .dsp info = .ok e) : ∃ id, e.1 = Kind.dsp.sharedDictPre ++ id ∧
      (id = [] ∨ ∃ q, id = lib.tostring q) := by
  obtain ⟨value, hvalue, h⟩ := bind_ok.mp h
  obtain ⟨text, -, h⟩ := bind_ok.mp h
  obtain ⟨result, hresult, hvalue⟩ := bind_ok.mp hvalue
  have hfirst : ∀ v, v ≠ .null → value.head? = some v → (∃ q, v = .num q) ∨ v = .str [] := by
    intro v hnull hv
    cases hvalue
    set filled := result.filterMap fun e => e.2.map fun v => (e.1, v) with hfilled
    have hlookup : filled.lookup 1 = some v := by
      cases hn : (filled.map Prod.fst).foldr max 0 with
      | zero => simp [hn] at hv
      | succ n =>
        rw [hn, List.range_succ_eq_map] at hv
        simp only [List.map_cons, List.head?_cons, Option.some.injEq] at hv
        cases hl : filled.lookup 1 with
        | none => simp [hl, hnull.symm] at hv
        | some x => simpa [hl] using hv
    have hmem : (1, v) ∈ filled := by
      obtain ⟨l, r, heq, -⟩ := List.lookup_eq_some_iff.mp hlookup
      rw [heq]
      simp
    rw [hfilled, List.mem_filterMap] at hmem
    obtain ⟨⟨i, x⟩, hx, hsome⟩ := hmem
    cases x with
    | none => cases hsome
    | some x =>
      cases hsome
      obtain ⟨a, -, ha⟩ := mapM_mem hresult hx
      exact transformAttr_first ha
  split at h
  · next id hid =>
    cases h
    rcases hfirst (.str id) (by simp) hid with ⟨q, hq⟩ | hq
    · cases hq
    · cases hq
      exact ⟨[], rfl, .inl rfl⟩
  · next q hq =>
    cases h
    exact ⟨_, rfl, .inr ⟨q, rfl⟩⟩
  · cases h

lemma infoEntry_pre {kind : Kind} {info : List (String × Cell)} {e : Str × Str}
    (h : infoEntry lib kind info = .ok e) : ∃ id, e.1 = kind.sharedDictPre ++ id := by
  obtain ⟨value, -, h⟩ := bind_ok.mp h
  obtain ⟨text, -, h⟩ := bind_ok.mp h
  split at h
  · cases h
    exact ⟨_, rfl⟩
  · cases h
    exact ⟨_, rfl⟩
  · cases h

/-- The text of a number does not go on with the letters of the keys of the numbers. -/
lemma infoEntry_key (htext : ∀ q, (lib.tostring q).head? ≠ some 115) {kind : Kind}
    {info : List (String × Cell)} {e : Str × Str} (h : infoEntry lib kind info = .ok e) :
    ¬ QpsKey e.1 := by
  intro hqps
  obtain ⟨rest, hrest⟩ := qpsKey_cons hqps
  obtain ⟨id, hid⟩ := infoEntry_pre h
  have hkind : kind = .dsp := by
    have hkey : kind.sharedDictPre ++ id = Kind.dsp.sharedDictPre ++ (115 :: rest) := by
      rw [← hid, hrest]
      rfl
    exact (StoreSync.key_inj hkey).1
  subst hkind
  obtain ⟨id, hid, hcase⟩ := infoEntry_dsp h
  rw [hrest, show Kind.dsp.sharedDictPre ++ id = 100 :: id from rfl, List.cons.injEq] at hid
  rcases hcase with rfl | ⟨q, rfl⟩
  · cases hid.2
  · exact htext q (by rw [← hid.2]; rfl)

lemma step_key (htext : ∀ q, (lib.tostring q).head? ≠ some 115) {e : Str × Str}
    (h : .ok e ∈ steps lib w o db) : ¬ QpsKey e.1 := by
  obtain ⟨kind, -, he⟩ := List.mem_flatMap.mp h
  unfold kindSteps at he
  split at he
  · simp at he
  · split at he
    · obtain ⟨info, -, hinfo⟩ := List.mem_map.mp he
      exact infoEntry_key htext hinfo
    · simp at he

lemma get_loaded_qps {done : List (Str × Str)} (h : ∀ e ∈ done, ¬ QpsKey e.1) {k : Str}
    (hk : QpsKey k) : (loaded done).get k = none := by
  rw [loaded, Tbl.get_putAll_notMem]
  · simp
  · intro e he heq
    obtain ⟨e', he', rfl⟩ := List.mem_map.mp he
    exact h e' he' (heq ▸ hk)

lemma get_store_qps {r : SetResult} {e : Str × Str} {dict : Dict} {k : Str} (hk : QpsKey k)
    (he : ¬ QpsKey e.1) (h : dict.get k = none) : (r.store e dict).get k = none := by
  have hne : k ≠ e.1 := fun heq => he (heq ▸ hk)
  cases r <;> simp only [SetResult.store, Tbl.get, AList.lookup_insert_ne hne]
  · exact h
  · exact (Tbl.get_eraseAll).trans (by simp [h])
  · exact (Tbl.get_eraseAll).trans (by simp [h])

/-- A reload leaves no number of a DSP. -/
lemma initObjectInfo_qps (htext : ∀ q, (lib.tostring q).head? ≠ some 115) {k : Str}
    (hk : QpsKey k) : (initObjectInfo lib w o db dict).2.dict.get k = none := by
  rcases stored_or_failure lib w o db dict with ⟨done, hsteps, hdict⟩ | ⟨done, step, h⟩
  · rw [hdict]
    have hdone : ∀ e ∈ done, ¬ QpsKey e.1 := fun e he =>
      step_key htext (hsteps ▸ List.mem_map_of_mem he)
    exact get_loaded_qps hdone hk
  · rw [left_of_failure h]
    obtain ⟨rest, hsteps⟩ := h.before
    have hdone : ∀ e ∈ done, ¬ QpsKey e.1 := fun e he =>
      step_key htext (hsteps ▸ List.mem_append_left _ (List.mem_map_of_mem he))
    cases step with
    | error err => exact get_loaded_qps hdone hk
    | ok e =>
      have hmem : .ok e ∈ steps lib w o db := by
        rw [hsteps]
        simp
      have he : ¬ QpsKey e.1 := step_key htext hmem
      exact get_store_qps hk he (get_loaded_qps hdone hk)

lemma sameQps_iff (htext : ∀ q, (lib.tostring q).head? ≠ some 115) :
    SameQps dict (initObjectInfo lib w o db dict).2.dict ↔ ∀ k, QpsKey k → dict.get k = none := by
  refine forall₂_congr fun k hk => ?_
  rw [initObjectInfo_qps htext hk]
  exact eq_comm

/-- **A reload is safe exactly when the dictionary held no number of a DSP, and where a query, a
row or a write fails, what was loaded before it happens to be the objects there were, or those
of the whole database.** -/
theorem reload_safe_iff (htext : ∀ q, (lib.tostring q).head? ≠ some 115) :
    Safe lib w o db dict ↔ (∀ k, QpsKey k → dict.get k = none) ∧
      ∀ done step, FirstFailure lib w o db done step →
        Refreshed lib o db (left w done step) ∨ SameObjects dict (left w done step) := by
  rw [Safe, sameQps_iff htext, and_comm, and_congr_right_iff]
  intro _
  constructor
  · intro h done step hfail
    rwa [left_of_failure hfail] at h
  · intro h
    rcases stored_or_failure lib w o db dict with ⟨done, hsteps, hdict⟩ | ⟨done, step, hfail⟩
    · left
      rw [hdict]
      exact refreshed_loaded hsteps
    · rw [left_of_failure hfail]
      exact h done step hfail

end proofs

section samples

/-- A dictionary with the entry of a creative and the limit of DSP 2. -/
def sampleDict : Dict :=
  ((∅ : Dict).insert (lit "c2a") (.str (lit "[]"))).insert (genKeyForQpsLimit (lit "2")) (.num 10)

/-- A database that answers no query. -/
def noDb : Outside := ⟨fun _ => some (.error "failed to query mysql"), fun _ => .stored⟩

lemma decimal_head (n : ℤ) : (decimal n).head? ≠ some 115 := by
  intro h
  have hmem : (115 : UInt8) ∈ decimal n := List.mem_of_mem_head? h
  rw [decimal] at hmem
  split at hmem
  · rcases List.mem_cons.mp hmem with hc | hc
    · exact absurd hc (by decide)
    · exact absurd (decimalNat_isDigit hc) (by decide)
  · exact absurd (decimalNat_isDigit hmem) (by decide)

theorem reload_safe_iff_sample :
    Safe (Ngx.ofTexts []) noDb .plain StoreSync.sampleDb sampleDict ↔
      (∀ k, QpsKey k → sampleDict.get k = none) ∧
        ∀ done step, FirstFailure (Ngx.ofTexts []) noDb .plain StoreSync.sampleDb done step →
          Refreshed (Ngx.ofTexts []) .plain StoreSync.sampleDb (left noDb done step) ∨
            SameObjects sampleDict (left noDb done step) :=
  reload_safe_iff fun q => decimal_head q.floor

/-- The creative is neither read again nor kept, and the limit is lost. -/
theorem failed_query_loses_all :
    ¬ Safe (Ngx.ofTexts []) noDb .plain StoreSync.sampleDb sampleDict ∧
      ¬ SameQps sampleDict
        (initObjectInfo (Ngx.ofTexts []) noDb .plain StoreSync.sampleDb sampleDict).2.dict := by
  have hafter :
      (initObjectInfo (Ngx.ofTexts []) noDb .plain StoreSync.sampleDb sampleDict).2.dict = ∅ := rfl
  have hkey : ¬ QpsKey (lit "c2a") := by
    intro h
    obtain ⟨rest, hrest⟩ := qpsKey_cons h
    have hhead : (lit "c2a").head? = some 100 := by
      rw [hrest]
      rfl
    exact absurd hhead (by decide)
  rw [Safe, hafter]
  constructor
  · rintro ⟨⟨t, ht, hget⟩ | hsame, -⟩
    · have hsome : (ObjectInfo.initObjectInfo (Ngx.ofTexts []) .plain StoreSync.sampleDb).map
          (fun t => (t.get (lit "c2a")).isSome) = .ok true := by
        decide +kernel
      rw [ht] at hsome
      have hnone : (t.get (lit "c2a")).map Val.str = none := (hget _ hkey).symm
      rw [Option.map_eq_none_iff] at hnone
      simp [Except.map, hnone] at hsome
    · exact absurd (hsame _ hkey) (by decide)
  · intro hsame
    exact absurd (hsame (genKeyForQpsLimit (lit "2")) ⟨_, .inl rfl⟩) (by decide)

end samples

end Sax.Reload
