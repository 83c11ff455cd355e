import Mathlib.Algebra.Order.Floor.Ring
import Mathlib.Data.Finset.Card
import Mathlib.Order.Interval.Finset.Nat
import Sax.Qps

/-!
Admission under QPS limits: calls of `getQpsInfoList` and `setQpsLimit` in any interleaving,
while count keys expire.

`incr` is three operations, and other calls, an expiry or a reset may come between any two of them. The
counts handed out in one life of a count key grow all the same. A call compares its
count with the limit it read before, so a limit bounds the calls that read it.
-/

namespace Sax.Admission

open Sax.LuaVal Sax.Runtime Sax.Atomic Sax.Shdict Sax.Qps

inductive Call
  | getQpsInfoList (idList : List Str)
  | setQpsLimit (dspIdList qpsLimitList : List Str)

def Call.prog (lib : Ngx) : Call → Program (Tbl QpsInfo)
  | .getQpsInfoList idList => Qps.getQpsInfoList idList
  | .setQpsLimit dspIdList qpsLimitList => do
    Qps.setQpsLimit lib dspIdList qpsLimitList
    return ∅

abbrev Ev := Event ℕ Op Reply Counters
abbrev Workers := Pool ℕ Op Reply Counters (Tbl QpsInfo)

def start (lib : Ngx) (calls : ℕ → Call) (d : Counters) : Workers :=
  ⟨d, fun t => (calls t).prog lib⟩

/-- The key and the count, when the event hands one out. -/
def fetched : Ev → Option (Str × ℚ)
  | ⟨_, .incrDict key _, some v, _⟩ | ⟨_, .addDict key v _, true, _⟩ => some (key, v)
  | _ => none

/-- The same with the life of the key the count belongs to. -/
def taken (e : Ev) : Option (Str × ℕ × ℚ) :=
  (fetched e).bind fun f => (e.post.entries.get f.1).map fun x => (f.1, x.life, f.2)

/-- Thread `t` obtained the count `v` for a DSP in the life `n` of its count key. -/
def Obtains (es : List Ev) (t : ℕ) (id : Str) (n : ℕ) (v : ℚ) : Prop :=
  ∃ e ∈ es, e.tid = t ∧ taken e = some (genKeyForQpsCount id, n, v)

/-- What the finished call of thread `t` returned for a DSP. -/
def info (c : Workers) (t : ℕ) (id : Str) : Option QpsInfo :=
  (c.prog t).result.bind fun r => r.get id

/-- The call of thread `t` read the limit `L`, obtained its count in the life `n` and passes. -/
def Admitted (c : Workers) (es : List Ev) (id : Str) (n : ℕ) (L : ℚ) (t : ℕ) : Prop :=
  ∃ v, info c t id = some ⟨L, some v⟩ ∧
    stays ⟨L, some v⟩ = .ok true ∧ Obtains es t id n v

/-! ### What the calls do to the dictionary -/

/-- Counting goes by one, from 0 where it is a count or a total. -/
def Counted : Op → Prop
  | .incrDict _ step => step = 1
  | .addDict _ value _ => value = 1
  | .setDict key value _ =>
    ∀ id, key = genKeyForQpsCount id ∨ key = genKeyForQpsTotal id → value = 0
  | _ => True

lemma incr_counted (key : Str) (exptime : ℕ) : (incr key 1 exptime).Only Counted := by
  refine (Prog.only_perform (P := Counted) (o := Op.incrDict key 1) rfl).bind fun newValue => ?_
  cases newValue with
  | some _ => exact .ret _
  | none =>
    refine (Prog.only_perform (P := Counted) (o := Op.addDict key 1 exptime) rfl).bind fun success => ?_
    cases success
    · exact Prog.only_perform (P := Counted) (o := Op.incrDict key 1) rfl
    · exact .ret _

lemma qpsInfo_counted (id : Str) : (qpsInfo id).Only Counted :=
  (Prog.only_perform (P := Counted) (o := Op.getDict _) trivial).bind fun _ =>
    (incr_counted _ _).bind fun _ => (incr_counted _ _).bind fun _ => .ret _

lemma resetQps_counted (dspId : Str) (limit : ℚ) : (resetQps dspId limit).Only Counted := by
  refine (Prog.only_perform (P := Counted) (o := Op.setDict _ _ _) fun id h => ?_).bind fun _ =>
    (Prog.only_perform (P := Counted) (o := Op.setDict _ _ _) fun id h => ?_).bind fun _ =>
      Prog.only_perform (P := Counted) (o := Op.setDict _ _ _) fun _ _ => rfl
  · rcases h with h | h
    · exact absurd h.symm (count_ne_limit _ _)
    · exact absurd h (limit_ne_total _ _)
  · rfl

lemma prog_counted (lib : Ngx) (call : Call) : (call.prog lib).Only Counted := by
  cases call with
  | getQpsInfoList idList =>
    exact Prog.only_foldlM (fun _ id => (qpsInfo_counted id).bind fun _ => .ret _) _ _
  | setQpsLimit dspIdList qpsLimitList =>
    refine Prog.Only.bind (Prog.Only.bind ?_ fun _ => ?_) fun _ => .ret _
    · exact Prog.only_foldlM (fun _ e => resetQps_counted _ _) _ _
    · exact Prog.only_perform (P := Counted) (o := Op.flushExpiredDict) trivial

/-! ### The invariant -/

/-- `b` lives have begun before the run. Counts taken in a life are at most what the entry
holds, no count is taken twice, and in the lives of a count key that the run began counts go 1, 2, .... -/
structure Counting (b : ℕ) (d : Counters) (es : List Ev) : Prop where
  le_value : ∀ {key n v}, (key, n, v) ∈ es.filterMap taken →
    n < d.births ∧ ∀ e, d.entries.get key = some e → e.life = n → v ≤ e.value
  nodup : (es.filterMap taken).Nodup
  whole : ∀ {id e}, d.entries.get (genKeyForQpsCount id) = some e → b ≤ e.life →
    ∃ m : ℕ, e.value = m
  positive : ∀ {id n v}, (genKeyForQpsCount id, n, v) ∈ es.filterMap taken → b ≤ n →
    ∃ m : ℕ, v = m + 1

namespace Counting

variable {b : ℕ} {d : Counters} {es : List Ev}

lemma start (d : Counters) : Counting d.births d [] where
  le_value h := by simp at h
  nodup := by simp
  whole {id e} h hb := absurd (d.life_lt _ e h) (not_lt.mpr hb)
  positive h := by simp at h

/-- An event that takes nothing. -/
lemma skip (h : Counting b d es) {e : Ev} (he : taken e = none) : Counting b d (es ++ [e]) := by
  have heq : (es ++ [e]).filterMap taken = es.filterMap taken := by simp [List.filterMap_append, he]
  exact ⟨fun hm => h.le_value (heq ▸ hm), heq ▸ h.nodup, h.whole,
    fun hm => h.positive (heq ▸ hm)⟩

/-- An event that takes a count above all those taken in the life before. -/
lemma take (h : Counting b d es) {e : Ev} {key : Str} {x : Entry}
    (he : taken e = some (key, x.life, x.value)) (hx : d.entries.get key = some x)
    (hnew : ∀ v, (key, x.life, v) ∈ es.filterMap taken → v < x.value)
    (hm : ∀ id, key = genKeyForQpsCount id → b ≤ x.life → ∃ m : ℕ, x.value = m + 1) :
    Counting b d (es ++ [e]) := by
  have heq : (es ++ [e]).filterMap taken = es.filterMap taken ++ [(key, x.life, x.value)] := by
    simp [List.filterMap_append, he]
  refine ⟨?_, ?_, h.whole, ?_⟩
  · intro key' n v hmem
    rw [heq, List.mem_append, List.mem_singleton] at hmem
    rcases hmem with hmem | hmem
    · exact h.le_value hmem
    · cases hmem
      refine ⟨d.life_lt _ _ hx, fun e' he' _ => ?_⟩
      rw [hx, Option.some.injEq] at he'
      rw [he']
  · rw [heq, List.nodup_append]
    refine ⟨h.nodup, by simp, ?_⟩
    rintro a ha _ hb rfl
    rw [List.mem_singleton] at hb
    subst hb
    exact lt_irrefl _ (hnew _ ha)
  · intro id n v hmem hb
    rw [heq, List.mem_append, List.mem_singleton] at hmem
    rcases hmem with hmem | hmem
    · exact h.positive hmem hb
    · cases hmem
      exact hm id rfl hb

lemma put (h : Counting b d es) {key : Str} {value : ℚ} {exptime : ℕ}
    (hv : ∀ id, key = genKeyForQpsCount id → ∃ m : ℕ, value = m) :
    Counting b (d.put key value exptime) es := by
  refine ⟨?_, h.nodup, ?_, h.positive⟩
  · intro k n v hm
    obtain ⟨hn, hle⟩ := h.le_value hm
    refine ⟨Nat.lt_succ_of_lt hn, fun e he hlife => ?_⟩
    by_cases hk : k = key
    · subst hk
      rw [get_put, Option.some.injEq] at he
      subst he
      exact absurd hlife.symm (Nat.ne_of_lt hn)
    · rw [get_put_ne d hk] at he
      exact hle e he hlife
  · intro id e he hb
    by_cases hk : genKeyForQpsCount id = key
    · rw [hk, get_put, Option.some.injEq] at he
      subst he
      exact hv id hk.symm
    · rw [get_put_ne d hk] at he
      exact h.whole he hb

lemma renew (h : Counting b d es) {key : Str} {e : Entry} (hkey : d.entries.get key = some e) :
    Counting b (d.renew key e hkey (e.value + 1)) es := by
  refine ⟨?_, h.nodup, ?_, h.positive⟩
  · intro k n v hm
    obtain ⟨hn, hle⟩ := h.le_value hm
    refine ⟨hn, fun e' he' hlife => ?_⟩
    by_cases hk : k = key
    · subst hk
      rw [get_renew, Option.some.injEq] at he'
      subst he'
      have := hle e hkey hlife
      show v ≤ e.value + 1
      linarith
    · rw [get_renew_ne d hkey hk] at he'
      exact hle e' he' hlife
  · intro id e' he' hb
    by_cases hk : genKeyForQpsCount id = key
    · subst hk
      rw [get_renew, Option.some.injEq] at he'
      subst he'
      obtain ⟨m, hm⟩ := h.whole hkey hb
      exact ⟨m + 1, by simp [hm]⟩
    · rw [get_renew_ne d hkey hk] at he'
      exact h.whole he' hb

lemma expire (h : Counting b d es) {d' : Counters} (hd : Expires d d') : Counting b d' es :=
  ⟨fun hm => ⟨by rw [hd.births]; exact (h.le_value hm).1,
      fun e he => (h.le_value hm).2 e (hd.get he)⟩,
    h.nodup, fun he => h.whole (hd.get he), h.positive⟩

/-- One operation of a call. -/
lemma step (h : Counting b d es) (t : ℕ) {o : Op} (ho : Counted o) :
    Counting b (exec o d).2 (es ++ [⟨t, o, (exec o d).1, (exec o d).2⟩]) := by
  cases o with
  | getDict key => exact h.skip rfl
  | flushExpiredDict => exact h.skip rfl
  | setDict key value exptime => exact (h.put fun id hid => ⟨0, by simp [ho id (.inl hid)]⟩).skip rfl
  | addDict key value exptime =>
    cases ho
    by_cases hkey : (d.value key).isSome
    · rw [exec_addDict_taken d hkey]
      exact h.skip rfl
    · rw [exec_addDict_free d hkey]
      refine (h.put fun _ _ => ⟨1, by simp⟩).take (x := ⟨1, exptime, d.births⟩) ?_ (get_put d) ?_ ?_
      · simp [taken, fetched]
      · intro v hv
        exact absurd (h.le_value hv).1 (lt_irrefl _)
      · exact fun _ _ _ => ⟨0, by simp⟩
  | incrDict key step =>
    cases ho
    cases hkey : d.entries.get key with
    | none =>
      rw [exec_incrDict_none d hkey]
      exact h.skip rfl
    | some e =>
      rw [exec_incrDict d hkey]
      refine (h.renew hkey).take (x := { e with value := e.value + 1 }) ?_ (get_renew d hkey) ?_ ?_
      · simp [taken, fetched]
      · intro v hv
        have := (h.le_value hv).2 e hkey rfl
        show v < e.value + 1
        linarith
      · rintro id rfl hb
        obtain ⟨m, hm⟩ := h.whole hkey hb
        exact ⟨m, by simp [hm]⟩

end Counting

/-- The totals of a worker are counts. -/
def Totals (d : Counters) : Prop := ∀ id q, d.value (genKeyForQpsTotal id) = some q → 0 ≤ q

namespace Totals

variable {d : Counters}

lemma put (h : Totals d) {key : Str} {value : ℚ} {exptime : ℕ}
    (hv : ∀ id, key = genKeyForQpsTotal id → 0 ≤ value) : Totals (d.put key value exptime) := by
  intro id q hq
  by_cases hk : genKeyForQpsTotal id = key
  · rw [hk, value_put, Option.some.injEq] at hq
    exact hq ▸ hv id hk.symm
  · rw [value_put_ne d hk] at hq
    exact h id q hq

lemma expire (h : Totals d) {d' : Counters} (hd : Expires d d') : Totals d' := by
  intro id q hq
  obtain ⟨e, he, rfl⟩ := Option.map_eq_some_iff.mp hq
  exact h id _ (by rw [Counters.value, hd.get he, Option.map_some])

lemma step (h : Totals d) {o : Op} (ho : Counted o) : Totals (exec o d).2 := by
  cases o with
  | getDict key => exact h
  | flushExpiredDict => exact h
  | setDict key value exptime => exact h.put fun id hid => (ho id (.inr hid)).ge
  | addDict key value exptime =>
    cases ho
    by_cases hkey : (d.value key).isSome
    · rw [exec_addDict_taken d hkey]
      exact h
    · rw [exec_addDict_free d hkey]
      exact h.put fun _ _ => zero_le_one
  | incrDict key step =>
    cases ho
    cases hkey : d.entries.get key with
    | none =>
      rw [exec_incrDict_none d hkey]
      exact h
    | some e =>
      rw [exec_incrDict d hkey]
      intro id q hq
      obtain ⟨x, hx, rfl⟩ := Option.map_eq_some_iff.mp hq
      by_cases hk : genKeyForQpsTotal id = key
      · subst hk
        rw [get_renew, Option.some.injEq] at hx
        subst hx
        have := h id e.value (by rw [Counters.value, hkey, Option.map_some])
        show 0 ≤ e.value + 1
        linarith
      · rw [get_renew_ne d hkey hk] at hx
        exact h id _ (by rw [Counters.value, hx, Option.map_some])

end Totals

/-! ### Where a count comes from -/

section trace

variable {es : List Ev} {key id : Str} {exptime : ℕ}

lemma incr_trace {v : ℚ} (h : Trace (incr key 1 exptime) es (.ret (some v))) :
    ∃ e ∈ es, fetched e = some (key, v) := by
  obtain ⟨es₁, es₂, newValue, rfl, h₁, h₂⟩ := Trace.bind_ret h
  obtain ⟨t, s, rfl⟩ := Trace.perform_ret h₁
  cases newValue with
  | some newValue =>
    obtain ⟨rfl, hv⟩ := Trace.pure_ret h₂
    cases hv
    exact ⟨⟨t, .incrDict key 1, some v, s⟩, by simp, rfl⟩
  | none =>
    obtain ⟨es₁, es₃, success, rfl, h₁, h₃⟩ := Trace.bind_ret h₂
    obtain ⟨t', s', rfl⟩ := Trace.perform_ret h₁
    cases success with
    | true =>
      obtain ⟨rfl, hv⟩ := Trace.pure_ret h₃
      cases hv
      exact ⟨⟨t', .addDict key 1 exptime, true, s'⟩, by simp, rfl⟩
    | false =>
      obtain ⟨t'', s'', rfl⟩ := Trace.perform_ret h₃
      exact ⟨⟨t'', .incrDict key 1, some v, s''⟩, by simp, rfl⟩

lemma qpsInfo_trace {info : QpsInfo} {v : ℚ} (h : Trace (qpsInfo id) es (.ret info))
    (hv : info.count = some v) : ∃ e ∈ es, fetched e = some (genKeyForQpsCount id, v) := by
  obtain ⟨es₁, es₂, limit, rfl, -, h⟩ := Trace.bind_ret h
  obtain ⟨es₃, es₄, count, rfl, hcount, h⟩ := Trace.bind_ret h
  obtain ⟨es₅, es₆, _, rfl, -, h⟩ := Trace.bind_ret h
  obtain ⟨rfl, rfl⟩ := Trace.pure_ret h
  cases hv
  obtain ⟨e, he, hf⟩ := incr_trace hcount
  exact ⟨e, by simp [he], hf⟩

/-- Each info of the list comes from a round of the loop. -/
lemma getQpsInfoList_trace {idList : List Str} {acc r : Tbl QpsInfo} {info : QpsInfo}
    (h : Trace (idList.foldlM (fun result id => do return result.insert id (← qpsInfo id)) acc)
      es (.ret r)) (hr : r.get id = some info) :
    acc.get id = some info ∨ ∃ es', es' ⊆ es ∧ Trace (qpsInfo id) es' (.ret info) := by
  induction idList generalizing acc es with
  | nil =>
    obtain ⟨-, rfl⟩ := Trace.pure_ret h
    exact .inl hr
  | cons id' idList ih =>
    obtain ⟨es₁, es₂, acc', rfl, h₁, h₂⟩ := Trace.bind_ret h
    rcases ih h₂ with hacc | ⟨es', hsub, htrace⟩
    · obtain ⟨es₃, es₄, info', rfl, h₃, h₄⟩ := Trace.bind_ret h₁
      obtain ⟨rfl, rfl⟩ := Trace.pure_ret h₄
      by_cases hid : id = id'
      · subst hid
        rw [Tbl.get, AList.lookup_insert, Option.some.injEq] at hacc
        subst hacc
        exact .inr ⟨es₃, by simp, h₃⟩
      · rw [Tbl.get, AList.lookup_insert_ne hid] at hacc
        exact .inl hacc
    · exact .inr ⟨es', List.subset_append_of_subset_right _ hsub, htrace⟩

/-- An event that fetches a count takes it in some life. -/
lemma taken_of_fetched {e : Ev} {v : ℚ} {d : Counters} (h : exec e.op d = (e.reply, e.post))
    (hf : fetched e = some (key, v)) : ∃ n, taken e = some (key, n, v) := by
  have hpost : ∃ x, e.post.entries.get key = some x := by
    unfold fetched at hf
    split at hf
    · next t key' step v' post =>
      cases hf
      cases hkey : d.entries.get key with
      | none =>
        rw [exec_incrDict_none d hkey] at h
        cases h
      | some x =>
        rw [exec_incrDict d hkey] at h
        cases h
        exact ⟨_, get_renew d hkey⟩
    · next t key' v' exptime post =>
      cases hf
      by_cases hkey : (d.value key).isSome
      · rw [exec_addDict_taken d hkey] at h
        cases h
      · rw [exec_addDict_free d hkey] at h
        cases h
        exact ⟨_, get_put d⟩
    · cases hf
  obtain ⟨x, hx⟩ := hpost
  exact ⟨x.life, by simp [taken, hf, hx]⟩

end trace

section runs

variable {lib : Ngx} {calls : ℕ → Call} {d : Counters} {es : List Ev} {c : Workers} {id : Str}
  {n : ℕ}

/-- **The invariant of every run.** -/
theorem counting (h : Run exec Expires (start lib calls d) es c) :
    Counting d.births c.state es :=
  Run.invariant (fun _ _ t _ ho h => h.step t ho) (fun _ _ _ he h => h.expire he)
    (Counting.start d) (fun t => prog_counted lib (calls t)) h

/-- **Totals stay counts in every run.** -/
theorem totals (h : Run exec Expires (start lib calls d) es c) (hd : Totals d) : Totals c.state :=
  Run.invariant (I := fun d _ => Totals d) (fun _ _ _ _ ho h => h.step ho)
    (fun _ _ _ he h => h.expire he) hd (fun t => prog_counted lib (calls t)) h

lemma obtains_unique {t₁ t₂ : ℕ} {v : ℚ} (hd : (es.filterMap taken).Nodup)
    (h₁ : Obtains es t₁ id n v) (h₂ : Obtains es t₂ id n v) : t₁ = t₂ := by
  obtain ⟨e₁, he₁, rfl, ht₁⟩ := h₁
  obtain ⟨e₂, he₂, rfl, ht₂⟩ := h₂
  induction es with
  | nil => cases he₁
  | cons e es ih =>
    have hmem : ∀ e', e' ∈ es → taken e' = some (genKeyForQpsCount id, n, v) →
        taken e ≠ some (genKeyForQpsCount id, n, v) := by
      intro e' he' ht' ht
      rw [List.filterMap_cons, ht, List.nodup_cons] at hd
      exact hd.1 (List.mem_filterMap.mpr ⟨e', he', ht'⟩)
    rcases List.mem_cons.mp he₁ with rfl | hes₁
    · rcases List.mem_cons.mp he₂ with rfl | hes₂
      · rfl
      · exact absurd ht₁ (hmem _ hes₂ ht₂)
    · rcases List.mem_cons.mp he₂ with rfl | hes₂
      · exact absurd ht₂ (hmem _ hes₁ ht₁)
      · refine ih (hd.sublist ?_) hes₁ hes₂
        exact (List.sublist_cons_self e es).filterMap taken

/-- The counts of the admitted are distinct numbers from 1 to their limit. -/
lemma admitted_card (h : Counting d.births c.state es) (hn : d.births ≤ n) {L : ℚ}
    {ts : Finset ℕ} (hts : ∀ t ∈ ts, Admitted c es id n L t) : (ts.card : ℚ) ≤ max L 0 := by
  have hcount : ∀ t ∈ ts, ∃ m : ℕ, (m + 1 : ℚ) ≤ L ∧ Obtains es t id n (m + 1) := by
    intro t ht
    obtain ⟨v, -, hstays, e, he, rfl, htake⟩ := hts t ht
    obtain ⟨m, rfl⟩ := h.positive (List.mem_filterMap.mpr ⟨e, he, htake⟩) hn
    exact ⟨m, (stays_some.mp hstays).2, e, he, rfl, htake⟩
  choose! m hle hobt using hcount
  have hinj : Set.InjOn m ts := by
    intro t₁ h₁ t₂ h₂ heq
    exact obtains_unique h.nodup (hobt t₁ h₁) (heq ▸ hobt t₂ h₂)
  have hmaps : ∀ t ∈ ts, m t ∈ Finset.range ⌊L⌋₊ := by
    intro t ht
    rw [Finset.mem_range, Nat.lt_iff_add_one_le]
    exact Nat.le_floor (by exact_mod_cast hle t ht)
  have hcard : ts.card ≤ ⌊L⌋₊ := by
    simpa using Finset.card_le_card_of_injOn m hmaps hinj
  rcases le_total L 0 with hL | hL
  · rw [Nat.floor_of_nonpos hL, Nat.le_zero] at hcard
    simp [hcard]
  · calc (ts.card : ℚ) ≤ ⌊L⌋₊ := by exact_mod_cast hcard
      _ ≤ L := Nat.floor_le hL
      _ ≤ max L 0 := le_max_left _ _

/-- **In one life of a DSP's count key no two calls obtain the same count, and of the calls that
read the limit `L` at most `L` pass**; each call that has a count obtained it in some life. -/
theorem counts_distinct_and_limited (h : Run exec Expires (start lib calls d) es c) (id : Str) :
    (∀ n v t₁ t₂, Obtains es t₁ id n v → Obtains es t₂ id n v → t₁ = t₂) ∧
    (∀ n, d.births ≤ n → ∀ L (ts : Finset ℕ),
      (∀ t ∈ ts, Admitted c es id n L t) → (ts.card : ℚ) ≤ max L 0) ∧
    (∀ t idList L v, calls t = .getQpsInfoList idList → info c t id = some ⟨L, some v⟩ →
      ∃ n, Obtains es t id n v) := by
  have hcounting := counting h
  refine ⟨fun n v t₁ t₂ => obtains_unique hcounting.nodup,
    fun n hn L ts => admitted_card hcounting hn, ?_⟩
  intro t idList L v hcall hinfo
  obtain ⟨r, hr, hget⟩ := Option.bind_eq_some_iff.mp hinfo
  have htrace := h.trace t
  rw [Prog.result_eq_some.mp hr] at htrace
  simp only [start, hcall, Call.prog] at htrace
  rcases getQpsInfoList_trace htrace hget with hacc | ⟨es', hsub, hround⟩
  · simp at hacc
  · obtain ⟨e, he, hf⟩ := qpsInfo_trace hround rfl
    obtain ⟨hmem, htid⟩ := List.mem_filter.mp (hsub he)
    obtain ⟨s, hs⟩ := h.event hmem
    obtain ⟨n, htake⟩ := taken_of_fetched hs hf
    exact ⟨n, e, hmem, by simpa using htid, htake⟩

end runs

section samples

/-- Thread 0 asks for DSP 2, the others set its limit to 0. -/
def staleCalls : ℕ → Call
  | 0 => .getQpsInfoList [lit "2"]
  | _ => .setQpsLimit [lit "2"] [lit "0"]

/-- The limit of DSP 2 is 1. -/
def staleStart : Workers :=
  start (Ngx.ofTexts []) staleCalls (Counters.empty.put (genKeyForQpsLimit (lit "2")) 1 0)

/-- Thread 1 comes between the limit and the count of thread 0. -/
def staleRun : List Ev × Workers := staleStart.play exec [0, 1, 1, 1, 1, 0, 0]

lemma staleRun_admitted : Admitted staleRun.2 staleRun.1 (lit "2") 3 1 0 :=
  ⟨1, by decide +kernel, by decide +kernel, by unfold Obtains; decide +kernel⟩

theorem counts_distinct_and_limited_staleRun : ((({0} : Finset ℕ).card : ℕ) : ℚ) ≤ max 1 0 :=
  (counts_distinct_and_limited (Pool.run_play staleStart [0, 1, 1, 1, 1, 0, 0]) (lit "2")).2.1 3
    (by decide) 1 {0} fun t ht => by
      rw [Finset.mem_singleton.mp ht]
      exact staleRun_admitted

/-- All through the life that the reset began the limit key holds 0, and one request passes: the one that had
read the limit before. -/
theorem stale_limit_admits :
    Run exec Expires staleStart staleRun.1 staleRun.2 ∧
    (∀ e ∈ staleRun.1,
      (e.post.entries.get (genKeyForQpsCount (lit "2"))).map Entry.life = some 3 →
        e.post.value (genKeyForQpsLimit (lit "2")) = some 0) ∧
    Admitted staleRun.2 staleRun.1 (lit "2") 3 1 0 :=
  ⟨Pool.run_play _ _, by decide +kernel, staleRun_admitted⟩

end samples

end Sax.Admission
