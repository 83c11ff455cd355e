import Sax.RequestCount

/-!
The race of the workers for a count key that expires.

`incr` falls back on `addDict`, and on `incrDict` again where another worker was first. Between these
two the key can expire: then the call has no count, and the check of the limit compares with `nil`.
A call has all its counts where every key that `addDict` found taken is still there, or there
again, when its worker moves on.
-/

namespace Sax.Race

open Sax.LuaVal Sax.Const Sax.Runtime Sax.Atomic Sax.Shdict Sax.Qps Sax.Admission Sax.Loop

/-- The key an `addDict` found taken. -/
def refused : Ev → Option Str
  | ⟨_, .addDict key _ _, false, _⟩ => some key
  | _ => none

/-- The key an `incrDict` did not find. -/
def missed : Ev → Option Str
  | ⟨_, .incrDict key _, none, _⟩ => some key
  | _ => none

/-- The count key that the last operation of thread `t` found taken is there. -/
def Kept (t : ℕ) (es : List Ev) (d : Counters) : Prop :=
  ∀ e id, lastOf es t = some e → refused e = some (genKeyForQpsCount id) →
    (d.value (genKeyForQpsCount id)).isSome

/-- An entry expires, but no count key that the last operation of a thread found taken. -/
def Unexpired (es : List Ev) (d d' : Counters) : Prop :=
  Expires d d' ∧ ∀ t, Kept t es d'

/-- The table has a count for each DSP. -/
def Numeric (idList : List Str) (r : Tbl QpsInfo) : Prop :=
  ∀ id ∈ idList, ∃ limit count, r.get id = some ⟨limit, some count⟩

/-- After a refusal the count key is found. -/
def Retried (e e' : Ev) : Prop :=
  ∀ id, refused e = some (genKeyForQpsCount id) → missed e' ≠ some (genKeyForQpsCount id)

/-! ### The calls -/

section calls

variable {es : List Ev} {id : Str}

lemma incr_numeric {count : Option ℚ} (h : Trace (incr (genKeyForQpsCount id) 1 1) es (.ret count))
    (hes : es.IsChain Retried) : ∃ v, count = some v := by
  obtain ⟨es₁, es₂, newValue, rfl, h₁, h₂⟩ := Trace.bind_ret h
  cases newValue with
  | some v =>
    obtain ⟨-, rfl⟩ := Trace.pure_ret h₂
    exact ⟨v, rfl⟩
  | none =>
    obtain ⟨es₃, es₄, success, rfl, h₃, h₄⟩ := Trace.bind_ret h₂
    cases success with
    | true =>
      obtain ⟨-, rfl⟩ := Trace.pure_ret h₄
      exact ⟨1, rfl⟩
    | false =>
      obtain ⟨t, s, rfl⟩ := Trace.perform_ret h₃
      obtain ⟨t', s', rfl⟩ := Trace.perform_ret h₄
      cases count with
      | some v => exact ⟨v, rfl⟩
      | none =>
        -- the two operations follow one another
        have hretry := (List.isChain_cons_cons.mp hes.right_of_append).1
        exact absurd rfl (hretry id rfl)

lemma qpsInfo_numeric {info : QpsInfo} (h : Trace (qpsInfo id) es (.ret info))
    (hes : es.IsChain Retried) : ∃ limit count, info = ⟨limit, some count⟩ := by
  obtain ⟨es₁, es₂, limit, rfl, -, h₂⟩ := Trace.bind_ret h
  obtain ⟨es₃, es₄, count, rfl, h₃, h₄⟩ := Trace.bind_ret h₂
  obtain ⟨v, rfl⟩ := incr_numeric h₃ hes.right_of_append.left_of_append
  obtain ⟨es₅, es₆, _, rfl, -, h₆⟩ := Trace.bind_ret h₄
  obtain ⟨-, rfl⟩ := Trace.pure_ret h₆
  exact ⟨_, v, rfl⟩

lemma Numeric.insert {idList : List Str} {r : Tbl QpsInfo} (h : Numeric idList r) (limit v : ℚ) :
    Numeric (idList ++ [id]) (r.insert id ⟨limit, some v⟩) := by
  intro id' hid'
  by_cases hid : id' = id
  · subst hid
    exact ⟨limit, v, AList.lookup_insert _⟩
  · have hmem : id' ∈ idList := by simpa [hid] using hid'
    obtain ⟨limit', v', hget⟩ := h id' hmem
    exact ⟨limit', v', (AList.lookup_insert_ne hid).trans hget⟩

lemma getQpsInfoList_numeric {idList : List Str} {r : Tbl QpsInfo}
    (h : Trace (getQpsInfoList idList) es (.ret r)) (hes : es.IsChain Retried) :
    Numeric idList r := by
  refine Trace.foldlM_ret (P := Numeric) (d := []) ?_ (by simp [Numeric]) h hes
  intro done id acc acc' es hacc htrace hes
  obtain ⟨es₁, es₂, info, rfl, h₁, h₂⟩ := Trace.bind_ret htrace
  obtain ⟨-, rfl⟩ := Trace.pure_ret h₂
  obtain ⟨limit, v, rfl⟩ := qpsInfo_numeric h₁ hes.left_of_append
  exact hacc.insert limit v

end calls

/-! ### The checks -/

lemma stays_isOk (limit v : ℚ) : ∃ b, stays ⟨limit, some v⟩ = .ok b := by
  unfold stays
  split
  · exact ⟨_, rfl⟩
  · exact ⟨_, rfl⟩

/-- A loop that tests each DSP comes to its end. -/
lemma checks_isOk {σ : Type} {f : σ → Str → Lua σ} {test : QpsInfo → Lua Bool}
    (yes no : σ → Str → σ) {qpsList : Tbl QpsInfo} {idList : List Str}
    (htest : test = stays) (hf : ∀ s id info, qpsList.get id = some info →
      f s id = do if ← test info then return yes s id else return no s id)
    (h : Numeric idList qpsList) (s : σ) : ∃ s', idList.foldlM f s = .ok s' := by
  refine foldlM_isOk (P := fun _ => True) ?_ (fun _ _ _ _ _ _ => trivial) trivial
  intro s id hid _
  obtain ⟨limit, v, hget⟩ := h id hid
  obtain ⟨b, hb⟩ := stays_isOk limit v
  rw [hf s id _ hget, htest, hb]
  cases b
  · exact ⟨_, rfl⟩
  · exact ⟨_, rfl⟩

lemma checkDspQps_isOk {o : Order} {qpsList : Tbl QpsInfo} {dspQueryList : Tbl (List Str)}
    (h : Numeric ((o.pairs dspQueryList).map Sigma.fst) qpsList) :
    ∃ left, checkDspQps o qpsList dspQueryList = .ok left :=
  checks_isOk (fun l _ => l) (fun l id => l.erase id) rfl
    (fun s id info hget => by simp only [dropOver, hget]) h _

lemma check_dsp_qps_isOk {qps_list : Tbl QpsInfo} {dsp_white_list : List Str}
    (h : Numeric dsp_white_list qps_list) :
    ∃ left, check_dsp_qps qps_list dsp_white_list = .ok left :=
  checks_isOk (fun l id => l ++ [id]) (fun l _ => l) bids_eq_stays
    (fun s id info hget => by simp only [addUnder, hget]) h _

/-! ### The runs -/

section runs

variable {lib : Ngx} {calls : ℕ → Call} {d : Counters} {es : List Ev} {c : Workers}

/-- No operation removes a key. -/
lemma exec_isSome {key : Str} (o : Op) (h : (d.value key).isSome) :
    ((exec o d).2.value key).isSome := by
  cases o with
  | getDict key' => exact h
  | flushExpiredDict => exact h
  | setDict key' value exptime =>
    by_cases hk : key = key'
    · subst hk
      simp [exec]
    · simpa only [exec, value_put_ne d hk] using h
  | addDict key' value exptime =>
    by_cases htaken : (d.value key').isSome
    · rwa [exec_addDict_taken d htaken]
    · rw [exec_addDict_free d htaken]
      have hk : key ≠ key' := fun hk => htaken (hk ▸ h)
      rwa [value_put_ne d hk]
  | incrDict key' step =>
    cases hkey : d.entries.get key' with
    | none => rwa [exec_incrDict_none d hkey]
    | some e =>
      rw [exec_incrDict d hkey]
      by_cases hk : key = key'
      · subst hk
        simp [Counters.value]
      · rwa [Counters.value, get_renew_ne d hkey hk]

lemma refused_isSome {t : ℕ} {o : Op} {key : Str}
    (h : refused ⟨t, o, (exec o d).1, (exec o d).2⟩ = some key) :
    ((exec o d).2.value key).isSome := by
  cases o with
  | addDict key' value exptime =>
    by_cases htaken : (d.value key').isSome
    · rw [exec_addDict_taken d htaken] at h ⊢
      cases h
      exact htaken
    · rw [exec_addDict_free d htaken] at h
      cases h
  | _ => cases h

/-- **A count key that was found taken only goes by expiring.** -/
lemma kept_step {t : ℕ} {o : Op} (h : ∀ t, Kept t es d) (t' : ℕ) :
    Kept t' (es ++ [⟨t, o, (exec o d).1, (exec o d).2⟩]) (exec o d).2 := by
  intro e id he href
  by_cases ht : t = t'
  · subst ht
    rw [lastOf_snoc, Option.some.injEq] at he
    subst he
    exact refused_isSome href
  · rw [lastOf_snoc_ne ht] at he
    exact exec_isSome o (h t' e id he href)

/-- **Where no key expires that a worker has just found taken**, it is there when the worker
moves on. -/
theorem kept_of_unexpired
    (h : Guarded exec (fun _ _ _ => True) Unexpired (start lib calls d) es c) :
    Guarded exec Kept (fun _ => Expires) (start lib calls d) es c := by
  refine (h.mono (I := fun es d => ∀ t, Kept t es d) ?_ ?_ ?_ ?_ ?_).1
  · exact fun t es s o _ hkept => kept_step hkept
  · exact fun es s s' hexp _ => hexp.2
  · intro t e id he
    simp [lastOf] at he
  · exact fun t es s hkept _ => hkept t
  · exact fun es s s' _ hexp => hexp.1

lemma missed_eq_none {t : ℕ} {o : Op} {key : Str} (h : (d.value key).isSome) :
    missed ⟨t, o, (exec o d).1, (exec o d).2⟩ ≠ some key := by
  intro hm
  cases o with
  | incrDict key' step =>
    cases hkey : d.entries.get key' with
    | none =>
      rw [exec_incrDict_none d hkey] at hm
      cases hm
      simp [Counters.value, hkey] at h
    | some e =>
      rw [exec_incrDict d hkey] at hm
      cases hm
  | _ => cases hm

/-- The retries of each worker find their key. -/
lemma retried (h : Guarded exec Kept (fun _ => Expires) (start lib calls d) es c) (t : ℕ) :
    (es.filter fun e => e.tid = t).IsChain Retried :=
  h.isChain (fun _ _ _ _ _ hkept hlast id href => missed_eq_none (hkept _ id hlast href)) t

/-- **In every run whose workers find a count key that refused their `addDict` when they move on,
each call has a count for each DSP, and the checks raise no error.** -/
theorem counts_numeric (h : Guarded exec Kept (fun _ => Expires) (start lib calls d) es c)
    {t : ℕ} {idList : List Str} {r : Tbl QpsInfo} (hcall : calls t = .getQpsInfoList idList)
    (hr : (c.prog t).result = some r) :
    Numeric idList r ∧
    (∀ (o : Order) (dspQueryList : Tbl (List Str)),
      (o.pairs dspQueryList).map Sigma.fst = idList → ∃ left, checkDspQps o r dspQueryList = .ok left) ∧
    ∃ left, check_dsp_qps r idList = .ok left := by
  have hrun : Run exec Expires (start lib calls d) es c := h.run fun _ _ _ he => he
  have htrace := hrun.trace t
  rw [Prog.result_eq_some.mp hr] at htrace
  simp only [start, hcall, Call.prog] at htrace
  have hnumeric := getQpsInfoList_numeric htrace (retried h t)
  refine ⟨hnumeric, ?_, check_dsp_qps_isOk hnumeric⟩
  rintro o dspQueryList rfl
  exact checkDspQps_isOk hnumeric

end runs

section samples

/-- Every worker asks for DSP 2. -/
def raceCalls : ℕ → Call := fun _ => .getQpsInfoList [lit "2"]

/-- The limit of DSP 2 is 1, and it has no count. -/
def raceStart : Workers :=
  start (Ngx.ofTexts []) raceCalls (Counters.empty.put (genKeyForQpsLimit (lit "2")) 1 0)

/-- Workers 0 and 1 find no count, and worker 1 is the first to add one. -/
def raceRun : List Ev × Workers := raceStart.play exec [0, 1, 0, 1, 1, 0]

/-- The count of DSP 2 expires. -/
def raceExpired : Workers :=
  ⟨RequestCount.expire (genKeyForQpsCount (lit "2")) raceRun.2.state, raceRun.2.prog⟩

/-- Worker 0 goes on to its end. -/
def raceLost : List Ev × Workers := raceExpired.play exec [0, 0, 0]

/-- Without the expiry worker 0 counts as well. -/
def raceKept : List Ev × Workers := raceStart.play exec [0, 1, 0, 1, 1, 0, 0, 0, 0]

theorem counts_numeric_raceKept : ∃ r, (raceKept.2.prog 0).result = some r ∧
    r.get (lit "2") = some ⟨1, some 2⟩ ∧ Numeric [lit "2"] r ∧
    ∃ left, check_dsp_qps r [lit "2"] = .ok left := by
  have hplay : Guarded exec (fun _ _ _ => True) Unexpired raceStart raceKept.1 raceKept.2 :=
    Guarded.start.play (fun _ _ _ => trivial) [0, 1, 0, 1, 1, 0, 0, 0, 0]
  obtain ⟨r, hr, hcount⟩ : ∃ r, (raceKept.2.prog 0).result = some r ∧
      r.get (lit "2") = some ⟨1, some 2⟩ := ⟨_, rfl, by decide +kernel⟩
  have hnumeric := counts_numeric (kept_of_unexpired hplay) rfl hr
  exact ⟨r, hr, hcount, hnumeric.1, hnumeric.2.2⟩

/-- The query of worker 0. -/
def raceQuery : Tbl (List Str) := (∅ : Tbl (List Str)).insert (lit "2") [lit "U"]

/-- The count expires after worker 1 added it and before worker 0, refused, tries again: worker 0
has no count, and both checks raise an error. -/
theorem expired_retry_raises :
    Run exec Expires raceStart (raceRun.1 ++ raceLost.1) raceLost.2 ∧
    info raceLost.2 0 (lit "2") = some ⟨1, none⟩ ∧
    (Order.plain.pairs raceQuery).map Sigma.fst = [lit "2"] ∧
    ∃ r, (raceLost.2.prog 0).result = some r ∧
      checkDspQps Order.plain r raceQuery = .error .badCompare ∧
      check_dsp_qps r [lit "2"] = .error .badCompare := by
  refine ⟨?_, by decide +kernel, rfl, _, rfl, by decide +kernel, by decide +kernel⟩
  have hexptime : (raceRun.2.state.entries.get (genKeyForQpsCount (lit "2"))).map Entry.exptime =
      some 1 := by decide +kernel
  obtain ⟨e, he, hone⟩ := Option.map_eq_some_iff.mp hexptime
  have hexpires : Expires raceRun.2.state raceExpired.state :=
    ⟨_, e, he, hone ▸ one_ne_zero, rfl, rfl⟩
  exact ((Pool.run_play _ _).env hexpires).trans (Pool.run_play _ _)

end samples

end Sax.Race
