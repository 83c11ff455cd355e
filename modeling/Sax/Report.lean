import Sax.Batch

/-!
The report of an import: `_check_failed` and `update_redis` of `saxmob/tdm/master.lua`.

Every group is sent in a thread of its own, and its answers come back in the order of its commands.
The rows of the batch have places in the groups, one for each, so that the ids of the places
without an acknowledgement are the ids of the rows without one.
-/

namespace Sax.Report

open Sax.LuaVal Sax.Loop Sax.Runtime Sax.Batch
open Sax.Records hiding format_data check_failed

/-- An answer of redis to a command. -/
inductive Reply
  | status (s : Str)
  | error (err : Str)

/-- The answer in the results of `commit_pipeline`. -/
def Reply.val : Reply → Val
  | .status s => .str s
  | .error err => .arr [.bool false, .str err]

/-- What becomes of a group: its thread raises, redis refuses the connection, the pipeline fails, or
every command is answered. -/
inductive Outcome
  | raised (e : LuaError)
  | refused
  | lost
  | replied (reply : ℕ → Reply)

/-- The `SET` at place `k` of the pipeline is acknowledged. -/
def Outcome.acknowledged : Outcome → ℕ → Bool
  | .replied reply, k => match reply k with
    | .status _ => true
    | .error _ => false
  | _, _ => false

section source

/-- `redis.set`, as the thread runs it. -/
def set (t : Group) : Outcome → Lua (Option (List Val))
  | .raised e => .error e
  | .refused => .ok none
  | .lost => .ok none
  | .replied reply => .ok (some ((List.range t.ids.length).map fun i => (reply i).val))

/-- `succ and results` after `ngx.thread.wait`. -/
def wait : Lua (Option (List Val)) → Option (List Val)
  | .ok results => results
  | .error _ => none

/-- `res` is a table, and `res[1]` is false or missing. -/
def rejected : Val → Bool
  | .table a _ => match a.head? with
    | none | some (.bool false) => true
    | some _ => false
  | _ => false

def check_failed (results : Option (List Val)) (ids failed : List Val) : List Val :=
  match results with
  | none => failed ++ ids
  | some results => results.zipIdx.foldl
      (fun failed e => if rejected e.1 then failed ++ ids[e.2]?.toList else failed) failed

/-- The table `failed` of `update_redis`, when the `i`th group ends in `outcome i`. -/
def update_redis (tdm : Tdm) (rows : List Val) (outcome : ℕ → Outcome) : Lua (List Val) := do
  let data ← format_data tdm rows
  return data.zipIdx.foldl
    (fun failed e => check_failed (wait (set e.1 (outcome e.2))) e.1.ids failed) []

end source

/-- The id at a place, which is the number of a group and a position in it. -/
def idAt (data : List Group) (e : ℕ × ℕ) : Option Val := data[e.1]?.bind fun t => t.ids[e.2]?

/-- The rows have the places `slots`, one for each, and no place is left over. -/
structure Placed (rows : List Val) (data : List Group) (slots : List (ℕ × ℕ)) : Prop where
  length : slots.length = rows.length
  nodup : slots.Nodup
  mem_iff : ∀ e, e ∈ slots ↔ idAt data e ≠ none
  filled : ∀ row e, (row, e) ∈ rows.zip slots → idAt data e = row.get "udid"

/-! ### The places of the commands -/

section places

variable {cs : List Cmd} {g : Groups}

/-- The record at a place. -/
def record (data : List Req) (e : ℕ × ℕ) : Option (Str × Str) :=
  data[e.1]?.bind fun req => req.records[e.2]?

/-- `Placed` for the commands and their requests. -/
structure Slotted (cs : List Cmd) (data : List Req) (slots : List (ℕ × ℕ)) : Prop where
  length : slots.length = cs.length
  nodup : slots.Nodup
  mem_iff : ∀ e, e ∈ slots ↔ record data e ≠ none
  filled : ∀ c e, (c, e) ∈ cs.zip slots → record data e = some (c.id, c.info)

/-- A command fills one place that was free, and leaves the others. -/
lemma record_add (hg : Grouped cs g) (c : Cmd) :
    ∃ slot, record g.data slot = none ∧ ∀ e, record (g.add c).data e =
      if e = slot then some (c.id, c.info) else record g.data e := by
  unfold Groups.add
  cases hget : g.temp.get (addrText c.addr) with
  | none =>
    refine ⟨(g.data.length, 0), by simp [record], fun ⟨i, k⟩ => ?_⟩
    dsimp only [record]
    rcases Nat.lt_trichotomy i g.data.length with hi | rfl | hi
    · rw [List.getElem?_append_left hi, if_neg (by simp [hi.ne])]
    · rw [List.getElem?_concat_length, List.getElem?_eq_none le_rfl]
      cases k <;> simp
    · rw [List.getElem?_eq_none (by simpa using hi), List.getElem?_eq_none hi.le,
        if_neg (by simp [hi.ne'])]
  | some i =>
    obtain ⟨-, req, hreq, -, -⟩ := hg.filed _ i hget
    refine ⟨(i - 1, req.records.length), by simp [record, hreq], fun ⟨j, k⟩ => ?_⟩
    dsimp only [record]
    by_cases hj : i - 1 = j
    · subst hj
      rw [List.getElem?_modify_eq, hreq]
      rcases Nat.lt_trichotomy k req.records.length with hk | rfl | hk
      · simp [List.getElem?_append_left hk, hk.ne]
      · simp
      · simp [hk.ne', List.getElem?_eq_none hk.le, hk]
    · rw [List.getElem?_modify_ne _ _ hj, if_neg (by simp [Ne.symm hj])]

/-- Step lemma: the next command has the place that it fills. -/
lemma Slotted.add {slots : List (ℕ × ℕ)} (h : Slotted cs g.data slots) (hg : Grouped cs g) (c : Cmd) :
    ∃ slot, Slotted (cs ++ [c]) (g.add c).data (slots ++ [slot]) := by
  obtain ⟨slot, hfree, hadd⟩ := record_add hg c
  refine ⟨slot, by simp [h.length], ?_, fun e => ?_, fun c' e he => ?_⟩
  · refine List.nodup_append.mpr ⟨h.nodup, List.nodup_singleton _, fun e he e' he' heq => ?_⟩
    rw [heq, List.mem_singleton.mp he'] at he
    exact (h.mem_iff slot).mp he hfree
  · rw [List.mem_append, h.mem_iff, List.mem_singleton, hadd]
    split <;> simp_all
  · rw [List.zip_append h.length.symm, List.mem_append] at he
    rw [hadd]
    rcases he with he | he
    · have hmem : e ∈ slots := (List.of_mem_zip he).2
      have hne : e ≠ slot := by
        rintro rfl
        exact (h.mem_iff e).mp hmem hfree
      rw [if_neg hne]
      exact h.filled c' e he
    · rw [List.zip_cons_cons, List.zip_nil_right, List.mem_singleton, Prod.mk.injEq] at he
      obtain ⟨rfl, rfl⟩ := he
      rw [if_pos rfl]

lemma slotted_foldl (cs : List Cmd) :
    ∃ slots, Slotted cs (cs.foldl Groups.add ⟨∅, []⟩).data slots := by
  induction cs using List.reverseRecOn with
  | nil => exact ⟨[], rfl, List.nodup_nil, fun e => by simp [record], fun c e h => by simp at h⟩
  | append_singleton cs c ih =>
    obtain ⟨slots, hslots⟩ := ih
    rw [List.foldl_append]
    obtain ⟨slot, hslot⟩ := hslots.add (grouped_foldl cs) c
    exact ⟨_, hslot⟩

end places

/-! ### The places of the rows -/

section rows

variable {tdm : Tdm} {rows : List Val} {data : List Group} {slots : List (ℕ × ℕ)}
  {outcome : ℕ → Outcome} {failed : List Val}

lemma idAt_ofReq (reqs : List Req) (e : ℕ × ℕ) :
    idAt (reqs.map Group.ofReq) e = (record reqs e).map fun r => .str r.1 := by
  unfold idAt record
  rw [List.getElem?_map]
  cases reqs[e.1]? with
  | none => rfl
  | some req => simp [Group.ofReq, Req.ids, Function.comp_def]

/-- **Every row of a batch has a place of its own.** -/
theorem exists_placed (h : format_data tdm rows = .ok data) : ∃ slots, Placed rows data slots := by
  obtain ⟨reqs, hreqs, rfl⟩ := format_data_iff.mp h
  obtain ⟨cs, hcs, rfl⟩ := format_data_ok hreqs
  obtain ⟨slots, hslots⟩ := slotted_foldl cs
  refine ⟨slots, hslots.length.trans (mapM_length hcs), hslots.nodup, fun e => ?_, fun row e he => ?_⟩
  · rw [hslots.mem_iff, idAt_ofReq, ne_eq, ne_eq, Option.map_eq_none_iff]
  · obtain ⟨k, hk⟩ := List.mem_iff_getElem?.mp he
    obtain ⟨hrow, hslot⟩ := List.getElem?_zip_eq_some.mp hk
    obtain ⟨c, hc, hrowc⟩ := mapM_getElem? hcs hrow
    rw [idAt_ofReq, hslots.filled c e, (format_row_ok hrowc).1]
    · rfl
    · exact List.mem_of_getElem? (List.getElem?_zip_eq_some.mpr ⟨hc, hslot⟩)

lemma filterMap_range {α : Type} (l : List α) : (List.range l.length).filterMap (l[·]?) = l := by
  induction l using List.reverseRecOn with
  | nil => rfl
  | append_singleton l a ih =>
    rw [List.length_append, List.length_singleton, List.range_succ, List.filterMap_append]
    have hleft : (List.range l.length).filterMap ((l ++ [a])[·]?) =
        (List.range l.length).filterMap (l[·]?) := by
      refine List.filterMap_congr fun k hk => ?_
      exact List.getElem?_append_left (List.mem_range.mp hk)
    rw [hleft, ih]
    simp

/-- An answer is rejected when it is no acknowledgement. -/
lemma rejected_val (reply : ℕ → Reply) (k : ℕ) :
    rejected (reply k).val = !(Outcome.replied reply).acknowledged k := by
  dsimp only [Outcome.acknowledged]
  cases reply k <;> rfl

/-- The ids of a group at the places that are not acknowledged. -/
def unacknowledged (t : Group) (o : Outcome) : List Val :=
  ((List.range t.ids.length).filter fun k => !o.acknowledged k).filterMap (t.ids[·]?)

lemma unacknowledged_all {t : Group} {o : Outcome} (h : ∀ k, o.acknowledged k = false) :
    unacknowledged t o = t.ids := by
  rw [unacknowledged, List.filter_eq_self.mpr fun k _ => by rw [h k]; rfl, filterMap_range]

/-- Of a group, the ids at these places are reported. -/
lemma check_failed_set (t : Group) (o : Outcome) (failed : List Val) :
    check_failed (wait (set t o)) t.ids failed = failed ++ unacknowledged t o := by
  cases o with
  | raised e => rw [unacknowledged_all fun _ => rfl]; rfl
  | refused => rw [unacknowledged_all fun _ => rfl]; rfl
  | lost => rw [unacknowledged_all fun _ => rfl]; rfl
  | replied reply =>
    have hzip : ((List.range t.ids.length).map fun i => (reply i).val).zipIdx =
        (List.range t.ids.length).map fun i => ((reply i).val, i) := by
      refine List.ext_getElem? fun i => ?_
      rcases Nat.lt_or_ge i t.ids.length with hi | hi
      · simp [List.getElem?_zipIdx, List.getElem?_range hi]
      · simp [hi]
    dsimp only [set, wait, check_failed, unacknowledged]
    rw [hzip, List.foldl_map]
    simp only [rejected_val]
    generalize List.range t.ids.length = l
    induction l generalizing failed with
    | nil => simp
    | cons k l ih =>
      rw [List.foldl_cons, ih, List.filter_cons]
      split
      · rw [List.filterMap_cons]
        cases t.ids[k]? <;> simp
      · rfl

/-- The places in the order in which they are looked at. -/
def places (data : List Group) : List (ℕ × ℕ) :=
  data.zipIdx.flatMap fun t => (List.range t.1.ids.length).map fun k => (t.2, k)

lemma mem_places {e : ℕ × ℕ} : e ∈ places data ↔ idAt data e ≠ none := by
  unfold places idAt
  simp only [List.mem_flatMap, List.mem_map, List.mem_range, List.mem_zipIdx_iff_getElem?]
  constructor
  · rintro ⟨t, ht, k, hk, rfl⟩
    simp [ht, hk]
  · intro h
    cases ht : data[e.1]? with
    | none => simp [ht] at h
    | some t =>
      refine ⟨(t, e.1), ht, e.2, ?_, rfl⟩
      simpa [ht] using h

lemma places_nodup (data : List Group) : (places data).Nodup := by
  have hnumber : data.zipIdx.Pairwise fun t t' => t.2 ≠ t'.2 := by
    rw [← List.pairwise_map, List.zipIdx_map_snd]
    exact List.nodup_range'
  refine List.nodup_flatMap.mpr ⟨fun t _ => ?_, hnumber.imp fun hne => ?_⟩
  · exact List.nodup_range.map fun k k' h => (Prod.mk.inj h).2
  · intro e he he'
    obtain ⟨k, -, rfl⟩ := List.mem_map.mp he
    obtain ⟨k', -, heq⟩ := List.mem_map.mp he'
    exact hne (Prod.mk.inj heq).1.symm

lemma update_redis_eq (hdata : format_data tdm rows = .ok data) (outcome : ℕ → Outcome) :
    update_redis tdm rows outcome = .ok (((places data).filter fun e =>
      !(outcome e.1).acknowledged e.2).filterMap (idAt data)) := by
  have hfold : ∀ (l : List (Group × ℕ)) (failed : List Val), (∀ t ∈ l, data[t.2]? = some t.1) →
      l.foldl (fun failed e => check_failed (wait (set e.1 (outcome e.2))) e.1.ids failed) failed =
        failed ++ ((l.flatMap fun t => (List.range t.1.ids.length).map fun k => (t.2, k)).filter
          fun e => !(outcome e.1).acknowledged e.2).filterMap (idAt data) := by
    intro l
    induction l with
    | nil => simp
    | cons t l ih =>
      intro failed hl
      rw [List.forall_mem_cons] at hl
      have hidAt : ∀ k, idAt data (t.2, k) = t.1.ids[k]? := by
        intro k
        rw [idAt, hl.1]
        rfl
      rw [List.foldl_cons, check_failed_set, ih _ hl.2, List.flatMap_cons, List.filter_append,
        List.filterMap_append, List.append_assoc, List.filter_map, List.filterMap_map]
      congr 2
      exact List.filterMap_congr fun k _ => (hidAt k).symm
  rw [update_redis, hdata, ok_bind, hfold data.zipIdx [] fun t ht => List.mem_zipIdx_iff_getElem?.mp ht]
  rfl

/-- **The report of an import lists the ids of the rows whose `SET` is not acknowledged, and no
others**: with multiplicity, for every batch that is accepted and every pattern of failures. -/
theorem failures_reported (h : update_redis tdm rows outcome = .ok failed) :
    ∃ data slots, format_data tdm rows = .ok data ∧ Placed rows data slots ∧
      failed.Perm (((rows.zip slots).filter fun e => !(outcome e.2.1).acknowledged e.2.2).filterMap
        fun e => e.1.get "udid") := by
  obtain ⟨data, hdata, -⟩ := bind_ok.mp h
  obtain ⟨slots, hslots⟩ := exists_placed hdata
  refine ⟨data, slots, hdata, hslots, ?_⟩
  rw [update_redis_eq hdata, Except.ok.injEq] at h
  have hperm : (places data).Perm slots :=
    (List.perm_ext_iff_of_nodup (places_nodup data) hslots.nodup).mpr fun e => by
      rw [mem_places, hslots.mem_iff]
  have hrows : ((rows.zip slots).filter fun e => !(outcome e.2.1).acknowledged e.2.2).filterMap
      (fun e => e.1.get "udid") =
        (slots.filter fun e => !(outcome e.1).acknowledged e.2).filterMap (idAt data) := by
    have hsnd : slots = (rows.zip slots).map Prod.snd := (List.map_snd_zip hslots.length.le).symm
    nth_rewrite 2 [hsnd]
    rw [List.filter_map, List.filterMap_map]
    refine List.filterMap_congr fun e he => ?_
    exact (hslots.filled e.1 e.2 (List.mem_filter.mp he).1).symm
  rw [← h, hrows]
  exact (hperm.filter _).filterMap _

end rows

section samples

/-- The first command of every group is answered by an error. -/
def sampleOutcome (_ : ℕ) : Outcome :=
  .replied fun k => if k = 0 then .error (lit "READONLY") else .status (lit "OK")

theorem failures_reported_sample : ∃ data slots,
    format_data sampleTdm [sampleRow "v" "30", sampleRow "u" "20"] = .ok data ∧
    Placed [sampleRow "v" "30", sampleRow "u" "20"] data slots ∧
    [Val.str (lit "v")].Perm ((([sampleRow "v" "30", sampleRow "u" "20"].zip slots).filter fun e =>
      !(sampleOutcome e.2.1).acknowledged e.2.2).filterMap fun e => e.1.get "udid") :=
  failures_reported (by decide +kernel)

end samples

end Sax.Report
