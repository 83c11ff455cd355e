import Sax.Atomic
import Sax.Runtime

/-!
The targeting records of users: redis holds them, the dictionary of a worker caches them, and
an import is followed by a flush of that dictionary.

A read looks in the dictionary, then in redis, and stores what it found there. The three
are separate steps, so what is stored may be older than the flush.
-/

namespace Sax.Targeting

open Sax.LuaVal Sax.Runtime Sax.Atomic

/-- The attributes of a record by their place in the list. -/
def attr_mem : List String :=
  ["udid", "uid", "device", "age", "gender", "degree", "prov", "city", "interest", "worklbs",
    "homelbs"]

/-- `attr[name][1]` -/
def index (name : String) : ℕ := attr_mem.idxOf name + 1

/-- How redis answers at the moment. -/
inductive Link
  | up
  | failing
  | down
  deriving DecidableEq

/-- The records in redis, the slaves being equal to the masters, and the dictionary of the worker. -/
structure Shared where
  redis : Tbl Str
  dict : Tbl Str
  link : Link

/-- What `redis.get` returns for one id: nothing, an error in place of the record, or the
record, absent when there is none. -/
inductive Answer
  | unreachable
  | error
  | info (record : Option Str)
  deriving DecidableEq

inductive Op
  | get_dict (id : Str)
  | set_dict (id info : Str)
  | redis_get (id : Str)
  | redis_set (id info : Str)
  | flush_all
  deriving DecidableEq

abbrev Reply : Op → Type
  | .get_dict _ => Option Str
  | .redis_get _ => Answer
  | .redis_set _ _ => Bool
  | .set_dict _ _ | .flush_all => Unit

def exec : (o : Op) → Shared → Reply o × Shared
  | .get_dict id, s => (s.dict.get id, s)
  | .set_dict id info, s => ((), { s with dict := s.dict.insert id info })
  | .redis_get id, s =>
    (match s.link with
      | .up => .info (s.redis.get id)
      | .failing => .error
      | .down => .unreachable, s)
  | .redis_set id info, s =>
    if s.link = .up then (true, { s with redis := s.redis.insert id info }) else (false, s)
  | .flush_all, s => ((), { s with dict := ∅ })

/-- The dictionary may drop an entry for want of memory, and redis may fail and recover. -/
def Drifts (s s' : Shared) : Prop :=
  s'.redis = s.redis ∧ ∀ id info, s'.dict.get id = some info → s.dict.get id = some info

/-! ### Reading -/

abbrev Program := Prog Op Reply

section programs

variable (lib : Ngx)

/-- `_get_attr` up to the index: the record of the user from the table of the request, or from
the dictionary. -/
def get_attr (object : Tbl Val) (id : Str) : Program (Option (Val × Tbl Val)) := do
  match object.get id with
  | some res => return some (res, object)
  | none =>
    match ← Prog.perform (Op.get_dict id) with
    | none => return none
    | some info =>
      match lib.cjson_decode info with
      | .error _ => return none
      | .ok res => return some (res, object.insert id res)

/-- What a record from redis is decoded to, and the text to cache. -/
def parse (record : Option Str) : Val × Str :=
  let info := record.getD (lit "[]")
  match lib.cjson_decode info with
  | .ok res_arr => (res_arr, info)
  | .error _ => (.empty, lit "[]")

/-- `_get_value`, with the table of the request as it leaves it. -/
def get_value (object : Tbl Val) (id : Str) (index : ℕ) :
    Program (Lua (Option Val × Tbl Val)) := do
  if id = [] then return .ok (none, object)
  match ← get_attr lib object id with
  | some (res, object) => return (item index (some res)).map (·, object)
  | none =>
    match ← Prog.perform (Op.redis_get id) with
    | .unreachable => return .ok (none, object.insert id .empty)
    | .error =>
      -- the decoder refuses what is no string
      Prog.perform (Op.set_dict id (lit "[]"))
      return .ok (none, object.insert id .empty)
    | .info record =>
      Prog.perform (Op.set_dict id (parse lib record).2)
      return (item index (some (parse lib record).1)).map (·, object.insert id (parse lib record).1)

/-- The attributes a bid request asks for, one after the other. -/
def get_values : List (Str × ℕ) → Tbl Val → Program (Lua (List (Option Val)))
  | [], _ => return .ok []
  | (id, index) :: queries, object => do
    match ← get_value lib object id index with
    | .error e => return .error e
    | .ok (value, object) =>
      match ← get_values queries object with
      | .error e => return .error e
      | .ok values => return .ok (value :: values)

/-! ### Importing -/

/-- `_transfer_table`: what a row leaves out is the empty string. -/
def transfer_table (res_rec : Val) : Lua (List Val) :=
  match res_rec.get "udid" with
  | none | some (.bool false) => .error (.error "Bad Request")
  | _ => attr_mem.mapM fun key =>
    match res_rec.get key with
    | none | some (.bool false) => .ok (.str [])
    | some (.str s) => .ok (.str s)
    | some _ => .error (.error "Bad Request")

/-- `_format_data`: each record under its user. -/
def format_data (rows : List Val) : Lua (List (Str × Str)) :=
  rows.mapM fun row => do
    let row_arr ← transfer_table row
    return (← checkString lib.tostring row_arr[0]?, ← lib.encode (.arr row_arr))

/-- `redis.set` of the records: the ids that failed. -/
def redis_set : List (Str × Str) → Program (List Str)
  | [] => return []
  | (id, info) :: records => do
    let res ← Prog.perform (Op.redis_set id info)
    let failed ← redis_set records
    return if res then failed else id :: failed

/-- What comes to the worker and to redis: a bid request with its queries, an import, and the
flush that `finish` asks the worker for. -/
inductive Call
  | get_values (queries : List (Str × ℕ))
  | update_redis (rows : List Val)
  | flush_dict

/-- What a call comes to. -/
inductive Result
  | values (values : Lua (List (Option Val)))
  | failed (ids : Lua (List Str))
  | flushed
  deriving DecidableEq

def Call.prog : Call → Program Result
  | .get_values queries => do return .values (← Targeting.get_values lib queries ∅)
  | .update_redis rows =>
    match format_data lib rows with
    | .error e => return .failed (.error e)
    | .ok data => do return .failed (.ok (← redis_set data))
  | .flush_dict => do
    Prog.perform Op.flush_all
    return .flushed

end programs

abbrev Ev := Event ℕ Op Reply Shared
abbrev Worker := Pool ℕ Op Reply Shared Result

def start (lib : Ngx) (calls : ℕ → Call) (s : Shared) : Worker := ⟨s, fun t => (calls t).prog lib⟩

abbrev Run (c : Worker) : List Ev → Worker → Prop := Atomic.Run exec Drifts c

/-! ### What should hold -/

/-- The record of a user in redis, as a read decodes it. -/
def record (lib : Ngx) (redis : Tbl Str) (id : Str) : Val := (parse lib (redis.get id)).1

/-- What the queries come to when the records are those in redis. -/
def answers (lib : Ngx) (redis : Tbl Str) (queries : List (Str × ℕ)) : Lua (List (Option Val)) :=
  queries.mapM fun q => if q.1 = [] then .ok none else item q.2 (some (record lib redis q.1))

/-- Redis answers a read, and what is stored in the dictionary is still the record in redis. -/
def InTime (lib : Ngx) : Ev → Prop
  | ⟨_, .redis_get id, answer, s⟩ => answer = .info (s.redis.get id)
  | ⟨_, .set_dict id info, _, s⟩ => info = (parse lib (s.redis.get id)).2
  | _ => True

/-- The records in redis stay as they are. -/
def Imports : Op → Prop
  | .redis_set _ _ => True
  | _ => False

/-! ### After a flush -/

section after

variable {lib : Ngx} {redis : Tbl Str}

/-- The dictionary caches nothing but the records in redis. -/
def Cached (lib : Ngx) (redis dict : Tbl Str) : Prop :=
  ∀ id info, dict.get id = some info → info = (parse lib (redis.get id)).2

/-- The event gives the record in redis, if it gives one. -/
def Gives (lib : Ngx) (redis : Tbl Str) : Ev → Prop
  | ⟨_, .redis_get id, answer, _⟩ => answer = .info (redis.get id)
  | ⟨_, .get_dict id, found, _⟩ => ∀ info, found = some info → info = (parse lib (redis.get id)).2
  | _ => True

lemma cached_step {s : Shared} {o : Op} {t : ℕ} (himport : ¬ Imports o)
    (htime : InTime lib ⟨t, o, (exec o s).1, (exec o s).2⟩) (hredis : s.redis = redis)
    (hcached : Cached lib redis s.dict) :
    (exec o s).2.redis = redis ∧ Cached lib redis (exec o s).2.dict ∧
      Gives lib redis ⟨t, o, (exec o s).1, (exec o s).2⟩ := by
  subst hredis
  cases o with
  | get_dict id => exact ⟨rfl, hcached, fun info hinfo => hcached id info hinfo⟩
  | set_dict id info =>
    refine ⟨rfl, fun id' info' hget => ?_, trivial⟩
    by_cases hid : id' = id
    · subst hid
      have hinfo : info = info' := by simpa [exec] using hget
      exact hinfo ▸ htime
    · exact hcached id' info' (by rwa [exec, Tbl.get, AList.lookup_insert_ne hid] at hget)
  | redis_get id => exact ⟨rfl, hcached, htime⟩
  | redis_set id info => exact absurd trivial himport
  | flush_all => exact ⟨rfl, fun id info hget => by simp [exec] at hget, trivial⟩

/-- **While nothing is imported and every step is in time, the dictionary caches the records in
redis, and every look there or in redis gives them.** -/
lemma run_cached {c c' : Worker} {es : List Ev} (hrun : Run c es c')
    (hcached : Cached lib c.state.redis c.state.dict) (himport : ∀ e ∈ es, ¬ Imports e.op)
    (htime : ∀ e ∈ es, InTime lib e) :
    c'.state.redis = c.state.redis ∧ ∀ e ∈ es, Gives lib c.state.redis e := by
  have hinv := Run.invariant (P := fun _ => True)
    (I := fun s es => (∀ e ∈ es, ¬ Imports e.op) → (∀ e ∈ es, InTime lib e) →
      s.redis = c.state.redis ∧ Cached lib c.state.redis s.dict ∧
        ∀ e ∈ es, Gives lib c.state.redis e) ?_ ?_ (fun _ _ => ⟨rfl, hcached, by simp⟩)
    (fun t => Prog.only_trivial _) hrun himport htime
  · exact ⟨hinv.1, hinv.2.2⟩
  · intro s es t o _ ih himport htime
    obtain ⟨hredis, hcached, hgives⟩ := ih (fun e he => himport e (List.mem_append_left _ he))
      fun e he => htime e (List.mem_append_left _ he)
    have hlast := List.mem_append_right es (List.mem_singleton_self
      (⟨t, o, (exec o s).1, (exec o s).2⟩ : Ev))
    obtain ⟨hredis', hcached', hgives'⟩ :=
      cached_step (himport _ hlast) (htime _ hlast) hredis hcached
    refine ⟨hredis', hcached', fun e he => ?_⟩
    rcases List.mem_append.mp he with he | he
    · exact hgives e he
    · rw [List.mem_singleton.mp he]
      exact hgives'
  · rintro s s' es ⟨hsame, hdrop⟩ ih himport htime
    obtain ⟨hredis, hcached, hgives⟩ := ih himport htime
    exact ⟨hsame.trans hredis, fun id info hget => hcached id info (hdrop id info hget), hgives⟩

end after

/-! ### A read -/

section read

variable {lib : Ngx} {redis : Tbl Str} {object : Tbl Val} {es : List Ev}

/-- The table of the request holds nothing but the records in redis. -/
def Held (lib : Ngx) (redis : Tbl Str) (object : Tbl Val) : Prop :=
  ∀ id res, object.get id = some res → res = record lib redis id

lemma Held.insert (h : Held lib redis object) (id : Str) :
    Held lib redis (object.insert id (record lib redis id)) := by
  intro id' res hget
  by_cases hid : id' = id
  · subst hid
    rw [Tbl.get, AList.lookup_insert, Option.some.injEq] at hget
    exact hget.symm
  · exact h id' res (by rwa [Tbl.get, AList.lookup_insert_ne hid] at hget)

variable (hempty : lib.cjson_decode (lit "[]") = .ok .empty)
include hempty

/-- What is cached decodes to the record. -/
lemma decode_parse (record : Option Str) :
    lib.cjson_decode (parse lib record).2 = .ok (parse lib record).1 := by
  unfold parse
  dsimp only
  split
  · next h => exact h
  · exact hempty

lemma get_attr_held {id : Str} {found : Option (Val × Tbl Val)} (hheld : Held lib redis object)
    (hgives : ∀ e ∈ es, Gives lib redis e) (h : Trace (get_attr lib object id) es (.ret found)) :
    ∀ e ∈ found, e.1 = record lib redis id ∧ Held lib redis e.2 := by
  unfold get_attr at h
  split at h
  · next res hres =>
    obtain ⟨-, rfl⟩ := h.pure_ret
    rintro e ⟨⟩
    exact ⟨hheld id res hres, hheld⟩
  · obtain ⟨es₁, es₂, reply, rfl, hget, hrest⟩ := h.bind_ret
    obtain ⟨t, s, rfl⟩ := hget.perform_ret
    cases reply with
    | none =>
      obtain ⟨-, rfl⟩ := hrest.pure_ret
      simp
    | some info =>
      have hgive := hgives _ (List.mem_append_left _ (List.mem_singleton_self _))
      obtain rfl : info = (parse lib (redis.get id)).2 := hgive info rfl
      simp only [decode_parse hempty] at hrest
      obtain ⟨-, rfl⟩ := hrest.pure_ret
      rintro e ⟨⟩
      exact ⟨rfl, hheld.insert id⟩

/-- One query comes to the attribute of the record. -/
lemma get_value_held {id : Str} {index : ℕ} {r : Lua (Option Val × Tbl Val)}
    (hheld : Held lib redis object) (hgives : ∀ e ∈ es, Gives lib redis e)
    (h : Trace (get_value lib object id index) es (.ret r)) :
    ∃ object', Held lib redis object' ∧
      r = (if id = [] then .ok none else item index (some (record lib redis id))).map
        (·, object') := by
  unfold get_value at h
  split at h
  · next hid =>
    obtain ⟨-, rfl⟩ := h.pure_ret
    exact ⟨object, hheld, by rw [if_pos hid]; rfl⟩
  · next hid =>
    rw [if_neg hid]
    obtain ⟨es₁, es₂, found, rfl, hattr, hrest⟩ := h.bind_ret
    have hfound := get_attr_held hempty hheld
      (fun e he => hgives e (List.mem_append_left _ he)) hattr
    cases found with
    | some e =>
      obtain ⟨hres, hheld'⟩ := hfound e rfl
      obtain ⟨-, rfl⟩ := hrest.pure_ret
      exact ⟨e.2, hheld', by rw [hres]⟩
    | none =>
      obtain ⟨es₃, es₄, answer, rfl, hredis, hstore⟩ := hrest.bind_ret
      obtain ⟨t, s, rfl⟩ := hredis.perform_ret
      have hgive := hgives _ (List.mem_append_right _
        (List.mem_append_left _ (List.mem_singleton_self _)))
      obtain rfl : answer = .info (redis.get id) := hgive
      obtain ⟨es₅, es₆, _, rfl, hset, hend⟩ := hstore.bind_ret
      obtain ⟨-, rfl⟩ := hend.pure_ret
      exact ⟨_, hheld.insert id, rfl⟩

lemma get_values_answers {queries : List (Str × ℕ)} {r : Lua (List (Option Val))}
    (hheld : Held lib redis object) (hgives : ∀ e ∈ es, Gives lib redis e)
    (h : Trace (get_values lib queries object) es (.ret r)) : r = answers lib redis queries := by
  induction queries generalizing object es r with
  | nil => exact h.pure_ret.2.symm
  | cons q queries ih =>
    obtain ⟨es₁, es₂, first, rfl, hfirst, hrest⟩ := h.bind_ret
    obtain ⟨object', hheld', rfl⟩ := get_value_held hempty hheld
      (fun e he => hgives e (List.mem_append_left _ he)) hfirst
    rw [answers, List.mapM_cons, ← answers]
    generalize (if q.1 = [] then .ok none else item q.2 (some (record lib redis q.1))) = value at *
    cases value with
    | error e => exact hrest.pure_ret.2.symm
    | ok value =>
      obtain ⟨es₃, es₄, values, rfl, hvalues, hend⟩ := hrest.bind_ret
      obtain rfl := ih hheld' (fun e he => hgives e (by simp [he])) hvalues
      generalize answers lib redis queries = values at *
      cases values <;> exact hend.pure_ret.2.symm

end read

/-! ### Reads after the flush -/

/-- **A read that starts after a flush sees the records in redis**, as long as nothing is imported
since, and what the reads store meanwhile is still the record in redis. -/
theorem fresh_after_flush {lib : Ngx} {calls : ℕ → Call} {s : Shared} {c : Worker}
    {before after : List Ev} {e : Ev} {t : ℕ} {queries : List (Str × ℕ)} {r : Result}
    (hempty : lib.cjson_decode (lit "[]") = .ok .empty)
    (hrun : Run (start lib calls s) (before ++ e :: after) c) (hflush : e.op = .flush_all)
    (himport : ∀ e' ∈ after, ¬ Imports e'.op) (htime : ∀ e' ∈ after, InTime lib e')
    (hcall : calls t = .get_values queries) (hlate : ∀ e' ∈ before ++ [e], e'.tid ≠ t)
    (hdone : (c.prog t).result = some r) : r = .values (answers lib c.state.redis queries) := by
  obtain ⟨s', prog, prog', hbefore, hexec, hprog, hafter⟩ := hrun.split
  have hte : t ≠ e.tid := (hlate e (by simp)).symm
  have hstart : prog' t = (calls t).prog lib := by
    rw [hprog t hte]
    exact hbefore.prog_eq fun e' he' => hlate e' (by simp [he'])
  have hflushed : e.post.dict = ∅ := by
    obtain ⟨tid, o, reply, post⟩ := e
    cases hflush
    have hpost : post = (exec .flush_all s').2 := (congrArg Prod.snd hexec).symm
    rw [hpost]
    rfl
  obtain ⟨hredis, hgives⟩ := run_cached hafter
    (fun id info hget => by simp [hflushed] at hget) himport htime
  have htrace := hafter.trace t
  rw [Prog.result_eq_some.mp hdone] at htrace
  simp only [hstart, hcall] at htrace
  obtain ⟨es₁, es₂, values, hes, hvalues, hend⟩ := htrace.bind_ret
  obtain ⟨-, rfl⟩ := hend.pure_ret
  have hown : ∀ e' ∈ es₁, Gives lib e.post.redis e' := fun e' he' =>
    hgives e' (List.mem_of_mem_filter (hes ▸ List.mem_append_left _ he'))
  have hheld : Held lib e.post.redis ∅ := fun id res hget => by simp at hget
  rw [get_values_answers hempty hheld hown hvalues, hredis]

section samples

instance : (o : Op) → Decidable (Imports o)
  | .redis_set _ _ => isTrue trivial
  | .get_dict _ | .set_dict _ _ | .redis_get _ | .flush_all => isFalse id

instance (lib : Ngx) : (e : Ev) → Decidable (InTime lib e)
  | ⟨_, .redis_get _, _, _⟩ | ⟨_, .set_dict _ _, _, _⟩ => inferInstanceAs (Decidable (_ = _))
  | ⟨_, .get_dict _, _, _⟩ | ⟨_, .redis_set _ _, _, _⟩ | ⟨_, .flush_all, _, _⟩ =>
    inferInstanceAs (Decidable True)

/-- The record of user `u`, of whom only the age is known. -/
def ageRecord (age : String) : Val :=
  .strs ([lit "u", [], [], lit age] ++ List.replicate 7 [])

def sampleLib : Ngx :=
  let unknown := "\"\",\"\",\"\",\"\",\"\",\"\",\"\"]"
  { Ngx.ofTexts [("[]", .empty), ("[\"u\",\"\",\"\",\"20\"," ++ unknown, ageRecord "20"),
      ("[\"u\",\"\",\"\",\"30\"," ++ unknown, ageRecord "30")] with
    cjson_encode := jsonText }

/-- A bid request about the user, an import, the flush after it, and further bid requests. -/
def sampleCalls : ℕ → Call
  | 1 => .update_redis [.obj [("udid", .str (lit "u")), ("age", .str (lit "30"))]]
  | 2 => .flush_dict
  | _ => .get_values [(lit "u", index "age")]

def sampleStart : Worker :=
  start sampleLib sampleCalls
    ⟨(∅ : Tbl Str).insert (lit "u") (jsonText (ageRecord "20")), ∅, .up⟩

lemma run_split_at {c c' : Worker} {es : List Ev} (h : Run c es c') (n : Fin es.length) :
    Run c (es.take n ++ es.get n :: es.drop (n + 1)) c' := by
  rwa [List.get_eq_getElem, List.getElem_cons_drop, List.take_append_drop]

/-- The first request is done before the import. -/
def sampleRun : List Ev × Worker := sampleStart.play exec [0, 0, 0, 1, 2, 3, 3, 3]

theorem fresh_after_flush_sample :
    (sampleRun.2.prog 3).result =
      some (.values (answers sampleLib sampleRun.2.state.redis [(lit "u", index "age")])) := by
  obtain ⟨r, hr⟩ : ∃ r, (sampleRun.2.prog 3).result = some r :=
    Option.isSome_iff_exists.mp (by decide +kernel)
  have hrun : Run sampleStart _ sampleRun.2 :=
    run_split_at (Pool.run_play _ [0, 0, 0, 1, 2, 3, 3, 3]) ⟨4, by decide +kernel⟩
  rw [hr, fresh_after_flush (by decide +kernel) hrun (by decide +kernel) (by decide +kernel)
    (by decide +kernel) rfl (by decide +kernel) hr]

/-- The first request has read the record from redis when the import and the flush come, and
stores it after them: the next request sees the user at 20 while redis has 30. -/
def staleRun : List Ev × Worker := sampleStart.play exec [0, 0, 1, 2, 0, 3]

theorem stale_fill_stays : ∃ before e after, Run sampleStart (before ++ e :: after) staleRun.2 ∧
    e.op = .flush_all ∧ (∀ e' ∈ after, ¬ Imports e'.op) ∧ (∀ e' ∈ before ++ [e], e'.tid ≠ 3) ∧
      (staleRun.2.prog 1).result = some (.failed (.ok [])) ∧
      answers sampleLib staleRun.2.state.redis [(lit "u", index "age")] =
        .ok [some (.str (lit "30"))] ∧
      (staleRun.2.prog 3).result = some (.values (.ok [some (.str (lit "20"))])) :=
  ⟨_, _, _, run_split_at (Pool.run_play _ [0, 0, 1, 2, 0, 3]) ⟨3, by decide +kernel⟩,
    by decide +kernel, by decide +kernel, by decide +kernel, by decide +kernel, by decide +kernel,
    by decide +kernel⟩

end samples

end Sax.Targeting
