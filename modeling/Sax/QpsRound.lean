import Mathlib.Algebra.Order.BigOperators.Group.List
import Mathlib.Algebra.BigOperators.Ring.Finset
import Mathlib.Data.List.GetD
import Sax.Admission
import Sax.Extract

/-!
A round of `center.updateQpsInfo`: the center asks every sax worker for its totals, splits the
allowance of each DSP over the workers, and sends every worker its limits.

Identifiers, totals and limits travel as texts. The last worker that `math.random` picks gets what
the rounding left over, so the limits of a DSP sum up to its allowance whatever the totals are.
-/

namespace Sax.QpsRound

open Sax.LuaVal Sax.Const Sax.Runtime Sax.Atomic Sax.Shdict Sax.Qps
open Sax.Extract (Rsp)
open Sax.Admission (Totals)

/-- What a column of type `int` holds. -/
abbrev IntCol := { n : ℤ // n.natAbs ≤ 2 ^ 31 }

/-- A row of the table `dsp`. -/
structure Row where
  id : IntCol
  qps : IntCol
  status : ℤ

/-- `row.status == 1 and row.qps > 0` -/
def Row.Active (row : Row) : Prop := row.status = 1 ∧ 0 < row.qps.1

instance (row : Row) : Decidable row.Active := inferInstanceAs (Decidable (_ ∧ _))

/-- An element of `dspList`. -/
structure DspQps where
  id : IntCol
  qps : IntCol
  total : List ℚ
  limit : List ℤ

def getDspQpsInfoDB (rows : List Row) : List DspQps :=
  (rows.filter (·.Active)).map fun row => ⟨row.id, row.qps, [], []⟩

def dspIdStr (lib : Ngx) (dspList : List DspQps) : Str :=
  concat comma (dspList.map fun dsp => lib.tostring dsp.id.1)

/-! ### A worker -/

/-- `sax.updateQpsInfo` on the arguments `type`, `dspids` and `qpslimit`. -/
def saxUpdateQpsInfo (lib : Ngx) (type dspids qpslimit : Str) : Program Rsp :=
  if type = GET_DSP_QPS_TOTAL then
    if dspids = [] then return ⟨HTTP_BAD_REQUEST, []⟩
    else do
      let qpsTotalList ← getQpsTotal (split comma dspids)
      return ⟨HTTP_OK, concat comma (qpsTotalList.map lib.tostring)⟩
  else if type = SET_DSP_QPS_LIMIT then
    if dspids = [] ∨ qpslimit = [] then return ⟨HTTP_BAD_REQUEST, []⟩
    else do
      setQpsLimit lib (split comma dspids) (split comma qpslimit)
      return ⟨HTTP_OK, []⟩
  else return ⟨HTTP_BAD_REQUEST, []⟩

/-! ### The center -/

/-- `dsp.total` of every DSP from the replies: a worker that fails counts as 0. -/
def getQpsTotalFromSax (lib : Ngx) (rspList : List Rsp) (dspList : List DspQps) : List DspQps :=
  dspList.zipIdx.map fun e =>
    { e.1 with total := rspList.map fun rsp =>
        if rsp.status ≠ HTTP_OK then 0 else limitAt lib (split comma rsp.body) e.2 }

/-- The limits before what is left over is added. -/
def shares (qps : ℤ) (total : List ℚ) : List ℤ :=
  if total.sum = 0 then total.map fun _ => ⌊(qps : ℚ) / total.length⌋
  else
    let quota := ⌊(qps : ℚ) * (9 / 10)⌋
    let avg := ⌊(qps : ℚ) * (1 / 10) / total.length⌋
    total.map fun v => ⌊(quota : ℚ) * (v / total.sum)⌋ + avg

def realloc (draw : Draw) (qps : ℤ) (total : List ℚ) : List ℤ :=
  (shares qps total).modify (draw.pick 1 total.length - 1) (· + (qps - (shares qps total).sum))

def reallocQpsLimit (draw : ℤ → Draw) (dspList : List DspQps) : List DspQps :=
  dspList.map fun dsp => { dsp with limit := realloc (draw dsp.id.1) dsp.qps.1 dsp.total }

/-- The argument `qpslimit` for the `i`-th worker. -/
def qpsLimitStr (lib : Ngx) (dspList : List DspQps) (i : ℕ) : Str :=
  concat comma ((dspList.filterMap fun dsp => dsp.limit[i]?).map fun n : ℤ => lib.tostring n)

def ask (lib : Ngx) (dspList : List DspQps) (d : Counters) : Rsp × Counters :=
  (saxUpdateQpsInfo lib GET_DSP_QPS_TOTAL (dspIdStr lib dspList) []).run exec d

def tell (lib : Ngx) (dspList : List DspQps) (d : Counters) (i : ℕ) : Counters :=
  ((saxUpdateQpsInfo lib SET_DSP_QPS_LIMIT (dspIdStr lib dspList)
    (qpsLimitStr lib dspList i)).run exec d).2

/-- The dictionaries of the workers after a round in which every worker answers. -/
def updateQpsInfo (lib : Ngx) (draw : ℤ → Draw) (rows : List Row) (saxList : List Counters) :
    List Counters :=
  let dspList := getDspQpsInfoDB rows
  if dspList ≠ [] ∧ saxList ≠ [] then
    let rspList := saxList.map (ask lib dspList)
    let dspList := reallocQpsLimit draw (getQpsTotalFromSax lib (rspList.map Prod.fst) dspList)
    (rspList.map Prod.snd).zipIdx.map fun e => tell lib dspList e.1 e.2
  else saxList

/-! ### The split of an allowance -/

lemma length_shares (qps : ℤ) (total : List ℚ) : (shares qps total).length = total.length := by
  unfold shares
  split <;> simp

@[simp] lemma length_realloc (draw : Draw) (qps : ℤ) (total : List ℚ) :
    (realloc draw qps total).length = total.length := by
  simp [realloc, length_shares]

lemma sum_modify (l : List ℤ) {i : ℕ} (h : i < l.length) (c : ℤ) :
    (l.modify i (· + c)).sum = l.sum + c := by
  induction l generalizing i with
  | nil => cases h
  | cons x l ih =>
    cases i with
    | zero =>
      rw [List.modify_zero_cons, List.sum_cons, List.sum_cons]
      ring
    | succ i =>
      rw [List.modify_succ_cons, List.sum_cons, List.sum_cons, ih (by simpa using h)]
      ring

lemma pick_lt (draw : Draw) {n : ℕ} (h : n ≠ 0) : draw.pick 1 n - 1 < n := by
  have h1 : 1 ≤ n := Nat.one_le_iff_ne_zero.mpr h
  have := draw.le_pick 1 n h1
  have := draw.pick_le 1 n h1
  omega

/-- **The limits of a DSP sum up to its allowance**, whatever the totals. -/
theorem sum_realloc (draw : Draw) (qps : ℤ) {total : List ℚ} (h : total ≠ []) :
    (realloc draw qps total).sum = qps := by
  have hlt : draw.pick 1 total.length - 1 < (shares qps total).length := by
    rw [length_shares]
    exact pick_lt draw (List.length_pos_iff.mpr h).ne'
  rw [realloc, sum_modify _ hlt]
  ring

lemma sum_floor_le {α : Type} (f : α → ℚ) (l : List α) :
    (((l.map fun x => ⌊f x⌋).sum : ℤ) : ℚ) ≤ (l.map f).sum := by
  induction l with
  | nil => simp
  | cons x l ih =>
    simp only [List.map_cons, List.sum_cons, Int.cast_add]
    exact add_le_add (Int.floor_le (f x)) ih

lemma sum_map_add_const (f : ℚ → ℤ) (c : ℤ) (l : List ℚ) :
    (l.map fun x => f x + c).sum = (l.map f).sum + l.length * c := by
  induction l with
  | nil => simp
  | cons x l ih =>
    simp only [List.map_cons, List.sum_cons, List.length_cons, ih]
    push_cast
    ring

section shares

variable {qps : ℤ} {total : List ℚ} (hqps : 0 ≤ qps) (htotal : ∀ v ∈ total, 0 ≤ v)
include hqps htotal

lemma shares_nonneg {x : ℤ} (hx : x ∈ shares qps total) : 0 ≤ x := by
  have hq : (0 : ℚ) ≤ qps := by exact_mod_cast hqps
  unfold shares at hx
  split at hx
  · obtain ⟨v, -, rfl⟩ := List.mem_map.mp hx
    exact Int.floor_nonneg.mpr (by positivity)
  · obtain ⟨v, hv, rfl⟩ := List.mem_map.mp hx
    have hsum : 0 ≤ total.sum := List.sum_nonneg htotal
    have hv0 := htotal v hv
    have hquota : (0 : ℚ) ≤ ⌊(qps : ℚ) * (9 / 10)⌋ := by
      exact_mod_cast Int.floor_nonneg.mpr (by positivity)
    refine add_nonneg (Int.floor_nonneg.mpr ?_) (Int.floor_nonneg.mpr (by positivity))
    exact mul_nonneg hquota (div_nonneg hv0 hsum)

omit htotal in
/-- The shares leave something over or use up the allowance. -/
lemma sum_shares_le (hne : total ≠ []) : (shares qps total).sum ≤ qps := by
  have hq : (0 : ℚ) ≤ qps := by exact_mod_cast hqps
  have hlen : (0 : ℚ) < total.length := by exact_mod_cast List.length_pos_iff.mpr hne
  unfold shares
  split
  · have hfloor := Int.floor_le ((qps : ℚ) / total.length)
    rw [le_div_iff₀ hlen] at hfloor
    rw [List.map_const', List.sum_replicate, nsmul_eq_mul, mul_comm]
    exact_mod_cast hfloor
  · next hsum =>
    simp only [sum_map_add_const]
    have hshare := sum_floor_le (fun v => (⌊(qps : ℚ) * (9 / 10)⌋ : ℚ) * (v / total.sum)) total
    have hquota : (total.map fun v => (⌊(qps : ℚ) * (9 / 10)⌋ : ℚ) * (v / total.sum)).sum =
        ⌊(qps : ℚ) * (9 / 10)⌋ := by
      have hdiv : (total.map fun v => v / total.sum).sum = 1 := by
        simp only [div_eq_mul_inv, List.sum_map_mul_right, List.map_id']
        exact mul_inv_cancel₀ hsum
      rw [List.sum_map_mul_left, hdiv, mul_one]
    have hnine := Int.floor_le ((qps : ℚ) * (9 / 10))
    have havg := Int.floor_le ((qps : ℚ) * (1 / 10) / total.length)
    rw [le_div_iff₀ hlen] at havg
    have hcast : (((total.map fun v => ⌊(⌊(qps : ℚ) * (9 / 10)⌋ : ℚ) * (v / total.sum)⌋).sum +
        total.length * ⌊(qps : ℚ) * (1 / 10) / total.length⌋ : ℤ) : ℚ) ≤ qps := by
      rw [Int.cast_add, Int.cast_mul, Int.cast_natCast]
      linarith
    exact_mod_cast hcast

lemma realloc_nonneg (draw : Draw) (hne : total ≠ []) {x : ℤ}
    (hx : x ∈ realloc draw qps total) : 0 ≤ x := by
  obtain ⟨i, hi⟩ := List.mem_iff_getElem?.mp hx
  rw [realloc, List.getElem?_modify] at hi
  cases hs : (shares qps total)[i]? with
  | none => simp [hs] at hi
  | some y =>
    have hy := shares_nonneg hqps htotal (List.mem_of_getElem? hs)
    have hle := sum_shares_le hqps hne
    simp only [hs, Option.map_eq_map, Option.map_some, Option.some.injEq] at hi
    split at hi <;> omega

/-- No worker gets more than the whole allowance. -/
lemma realloc_le (draw : Draw) (hne : total ≠ []) {x : ℤ} (hx : x ∈ realloc draw qps total) :
    x ≤ qps := by
  calc x ≤ (realloc draw qps total).sum :=
        List.single_le_sum (fun y hy => realloc_nonneg hqps htotal draw hne hy) x hx
    _ = qps := sum_realloc draw qps hne

end shares

/-! ### What a worker keeps -/

/-- The limit in force for a DSP, summed up over the workers. -/
def limitSum (saxList : List Counters) (id : IntCol) : ℚ :=
  (saxList.map fun d => (d.value (genKeyForQpsLimit (decimal id.1))).getD 0).sum

section worker

variable (lib : Ngx) {d : Counters}

lemma value_resetQps (id dspId : Str) (limit : ℚ) :
    ((resetQps dspId limit).run exec d).2.value (genKeyForQpsLimit id) =
      if id = dspId then some limit else d.value (genKeyForQpsLimit id) := by
  have hrun : ((resetQps dspId limit).run exec d).2 =
      ((d.put (genKeyForQpsLimit dspId) limit 0).put (genKeyForQpsTotal dspId) 0 0).put
        (genKeyForQpsCount dspId) 0 1 := rfl
  rw [hrun, value_put_ne _ (count_ne_limit _ _).symm, value_put_ne _ (limit_ne_total _ _)]
  split
  · next h => rw [h, value_put]
  · next h => rw [value_put_ne _ (fun heq => h (genKeyForQpsLimit_inj.mp heq))]

/-- The loop of `setQpsLimit` on the pairs of a DSP and its limit. -/
def resets (l : List (Str × ℚ)) (d : Counters) : Counters :=
  l.foldl (fun d e => ((resetQps e.1 e.2).run exec d).2) d

lemma value_resets_notMem {l : List (Str × ℚ)} {id : Str} (h : id ∉ l.map Prod.fst) :
    (resets l d).value (genKeyForQpsLimit id) = d.value (genKeyForQpsLimit id) := by
  induction l generalizing d with
  | nil => rfl
  | cons e l ih =>
    rw [List.map_cons, List.mem_cons, not_or] at h
    rw [resets, List.foldl_cons, ← resets, ih h.2, value_resetQps, if_neg h.1]

lemma value_resets {l : List (Str × ℚ)} {id : Str} {q : ℚ} (hd : (l.map Prod.fst).Nodup)
    (h : (id, q) ∈ l) : (resets l d).value (genKeyForQpsLimit id) = some q := by
  induction l generalizing d with
  | nil => cases h
  | cons e l ih =>
    rw [List.map_cons, List.nodup_cons] at hd
    rw [resets, List.foldl_cons, ← resets]
    rcases List.mem_cons.mp h with rfl | h
    · rw [value_resets_notMem hd.1, value_resetQps, if_pos rfl]
    · exact ih hd.2 h

/-- What `setQpsLimit` pairs up. -/
def limits (dspIdList qpsLimitList : List Str) : List (Str × ℚ) :=
  dspIdList.zipIdx.map fun e => (e.1, limitAt lib qpsLimitList e.2)

lemma run_setQpsLimit (dspIdList qpsLimitList : List Str) :
    ((setQpsLimit lib dspIdList qpsLimitList).run exec d).2 =
      resets (limits lib dspIdList qpsLimitList) d := by
  rw [setQpsLimit, Prog.run_bind]
  show ((dspIdList.zipIdx.foldlM (fun _ e => resetQps e.1 (limitAt lib qpsLimitList e.2)) ()).run
    exec d).2 = _
  rw [Prog.run_foldlM_unit, resets, limits, List.foldl_map]

@[simp] lemma limits_fst (dspIdList qpsLimitList : List Str) :
    (limits lib dspIdList qpsLimitList).map Prod.fst = dspIdList := by
  rw [limits, List.map_map]
  exact List.zipIdx_map_fst 0 dspIdList

lemma run_getQpsTotal (dspIdList : List Str) :
    (getQpsTotal dspIdList).run exec d =
      (dspIdList.map fun dspId => (d.value (genKeyForQpsTotal dspId)).getD 0, d) := by
  suffices h : ∀ acc, (dspIdList.foldlM (fun qpsTotalList dspId => do
      let value ← getDict (genKeyForQpsTotal dspId)
      return qpsTotalList ++ [value.getD 0]) acc : Program (List ℚ)).run exec d =
      (acc ++ dspIdList.map fun dspId => (d.value (genKeyForQpsTotal dspId)).getD 0, d) from h []
  induction dspIdList with
  | nil => simp
  | cons dspId dspIdList ih =>
    intro acc
    rw [List.foldlM_cons, Prog.run_bind]
    exact (ih (acc ++ [(d.value (genKeyForQpsTotal dspId)).getD 0])).trans (by simp)

end worker

/-! ### A round -/

section round

variable (lib : Ngx) {dspList : List DspQps} {d : Counters}

lemma natAbs_col_lt (n : IntCol) : n.1.natAbs < 10 ^ 14 :=
  lt_of_le_of_lt n.2 (by decide)

lemma dspIdStr_eq : dspIdStr lib dspList = concat comma (dspList.map fun dsp => decimal dsp.id.1) := by
  unfold dspIdStr
  congr 1
  exact List.map_congr_left fun dsp _ => lib.tostring_int _ (natAbs_col_lt dsp.id)

lemma split_dspIdStr (h : dspList ≠ []) :
    split comma (dspIdStr lib dspList) = dspList.map fun dsp => decimal dsp.id.1 := by
  rw [dspIdStr_eq]
  refine split_concat ?_ (by simpa using h)
  intro s hs
  obtain ⟨dsp, -, rfl⟩ := List.mem_map.mp hs
  exact comma_notMem_decimal _

/-- A text that splits into texts that are not empty is not empty. -/
lemma ne_nil_of_split {s : Str} {l : List Str} (h : split comma s = l) (hl : ∀ x ∈ l, x ≠ []) :
    s ≠ [] := by
  rintro rfl
  refine hl [] ?_ rfl
  rw [← h, split, List.splitOn_nil]
  exact List.mem_singleton_self _

lemma decimal_ne_nil (n : ℤ) : decimal n ≠ [] := by
  unfold decimal
  split
  · exact List.append_ne_nil_of_right_ne_nil _ (decimalNat_ne_nil _)
  · exact decimalNat_ne_nil _

lemma dspIdStr_ne_nil (h : dspList ≠ []) : dspIdStr lib dspList ≠ [] := by
  refine ne_nil_of_split (split_dspIdStr lib h) fun s hs => ?_
  obtain ⟨dsp, -, rfl⟩ := List.mem_map.mp hs
  exact decimal_ne_nil _

lemma ask_eq (h : dspList ≠ []) : ask lib dspList d =
    (⟨HTTP_OK, concat comma ((dspList.map fun dsp =>
      (d.value (genKeyForQpsTotal (decimal dsp.id.1))).getD 0).map lib.tostring)⟩, d) := by
  unfold ask saxUpdateQpsInfo
  rw [if_pos rfl, if_neg (dspIdStr_ne_nil lib h), Prog.run_bind, run_getQpsTotal,
    split_dspIdStr lib h, Prog.run_pure, List.map_map (f := fun dsp : DspQps => decimal dsp.id.1)]
  rfl

/-- The totals a worker reports are counts too. -/
lemma ask_nonneg (h : dspList ≠ []) (hd : Totals d) (j : ℕ) :
    0 ≤ limitAt lib (split comma (ask lib dspList d).1.body) j := by
  rw [ask_eq lib h]
  show 0 ≤ limitAt lib (split comma (concat comma _)) j
  rw [split_concat (by
    intro s hs
    obtain ⟨q, -, rfl⟩ := List.mem_map.mp hs
    exact lib.comma_notMem_tostring q) (by simpa using h)]
  unfold limitAt
  rw [List.getElem?_map, List.getElem?_map]
  cases hj : dspList[j]? with
  | none => simp
  | some dsp =>
    set q := (d.value (genKeyForQpsTotal (decimal dsp.id.1))).getD 0 with hq
    have hq0 : 0 ≤ q := by
      cases hv : d.value (genKeyForQpsTotal (decimal dsp.id.1)) with
      | none => simp [hq, hv]
      | some r => simpa [hq, hv] using hd _ _ hv
    simp only [Option.map_some, Option.bind_some, ← hq]
    cases hr : lib.tonumber (lib.tostring q) with
    | none => simp
    | some r => simpa using lib.tonumber_nonneg q r hq0 hr

/-- The limits of a DSP are one for each worker, and print in full. -/
structure Split (n : ℕ) (dspList : List DspQps) : Prop where
  length : ∀ dsp ∈ dspList, dsp.limit.length = n
  lt : ∀ dsp ∈ dspList, ∀ x ∈ dsp.limit, x.natAbs < 10 ^ 14

variable {lib} {n i : ℕ}

/-- The `i`-th limits, one for each DSP. -/
lemma filterMap_limit (hs : Split n dspList) (hi : i < n) :
    dspList.filterMap (fun dsp => dsp.limit[i]?) = dspList.map fun dsp => dsp.limit.getD i 0 := by
  rw [← List.filterMap_eq_map]
  refine List.filterMap_congr fun dsp hdsp => ?_
  have hlt : i < dsp.limit.length := by rw [hs.length dsp hdsp]; exact hi
  simp [List.getD_eq_getElem?_getD, List.getElem?_eq_getElem hlt]

lemma split_qpsLimitStr (h : dspList ≠ []) (hs : Split n dspList) (hi : i < n) :
    split comma (qpsLimitStr lib dspList i) =
      dspList.map fun dsp => decimal (dsp.limit.getD i 0) := by
  rw [qpsLimitStr, filterMap_limit hs hi, List.map_map]
  have hprint : dspList.map ((fun n : ℤ => lib.tostring n) ∘ fun dsp => dsp.limit.getD i 0) =
      dspList.map fun dsp => decimal (dsp.limit.getD i 0) := by
    refine List.map_congr_left fun dsp hdsp => lib.tostring_int _ ?_
    have hlt : i < dsp.limit.length := by rw [hs.length dsp hdsp]; exact hi
    show (dsp.limit.getD i 0).natAbs < 10 ^ 14
    rw [List.getD_eq_getElem _ _ hlt]
    exact hs.lt dsp hdsp _ (List.getElem_mem hlt)
  rw [hprint]
  refine split_concat ?_ (by simpa using h)
  intro s hs
  obtain ⟨dsp, -, rfl⟩ := List.mem_map.mp hs
  exact comma_notMem_decimal _

lemma tell_eq (h : dspList ≠ []) (hs : Split n dspList) (hi : i < n) :
    tell lib dspList d i = resets (limits lib (dspList.map fun dsp => decimal dsp.id.1)
      (dspList.map fun dsp => decimal (dsp.limit.getD i 0))) d := by
  have hlimit : qpsLimitStr lib dspList i ≠ [] := by
    refine ne_nil_of_split (split_qpsLimitStr h hs hi) fun s hs => ?_
    obtain ⟨dsp, -, rfl⟩ := List.mem_map.mp hs
    exact decimal_ne_nil _
  unfold tell saxUpdateQpsInfo
  rw [if_neg (by decide), if_pos rfl, if_neg (by simp [hlimit, dspIdStr_ne_nil lib h]),
    Prog.run_bind, Prog.run_pure, split_dspIdStr lib h, split_qpsLimitStr h hs hi]
  exact run_setQpsLimit lib _ _

lemma decimal_inj {a b : ℤ} (h : decimal a = decimal b) : a = b := by
  have := congrArg parseDecimal h
  rwa [parseDecimal_decimal, parseDecimal_decimal, Option.some.injEq] at this

/-- A worker that is told its limits has them in force. -/
lemma value_tell (hd : (dspList.map DspQps.id).Nodup) (hs : Split n dspList) (hi : i < n)
    {dsp : DspQps} (hdsp : dsp ∈ dspList) :
    (tell lib dspList d i).value (genKeyForQpsLimit (decimal dsp.id.1)) =
      some (dsp.limit.getD i 0 : ℚ) := by
  rw [tell_eq (List.ne_nil_of_mem hdsp) hs hi]
  refine value_resets ?_ ?_
  · rw [limits_fst]
    refine List.Nodup.of_map (fun s => (parseDecimal s).getD 0) ?_
    rw [List.map_map]
    have hids : dspList.map ((fun s => (parseDecimal s).getD 0) ∘ fun dsp => decimal dsp.id.1) =
        (dspList.map DspQps.id).map Subtype.val := by
      simp [parseDecimal_decimal, Function.comp_def]
    rw [hids]
    exact hd.map Subtype.val_injective
  · obtain ⟨j, hj⟩ := List.mem_iff_getElem?.mp hdsp
    refine List.mem_map.mpr ⟨(decimal dsp.id.1, j), ?_, ?_⟩
    · rw [List.mem_zipIdx_iff_getElem?]
      simp [hj]
    · have hlt : i < dsp.limit.length := by rw [hs.length dsp hdsp]; exact hi
      have habs : (dsp.limit.getD i 0).natAbs < 10 ^ 14 := by
        rw [List.getD_eq_getElem _ _ hlt]
        exact hs.lt dsp hdsp _ (List.getElem_mem hlt)
      simp only [limitAt, List.getElem?_map, hj, Option.map_some, Option.bind_some,
        lib.tonumber_int _ _ (parseDecimal_decimal _) habs, Option.getD_some]

lemma value_tell_notMem (h : dspList ≠ []) (hs : Split n dspList) (hi : i < n) {id : IntCol}
    (hid : id ∉ dspList.map DspQps.id) :
    (tell lib dspList d i).value (genKeyForQpsLimit (decimal id.1)) =
      d.value (genKeyForQpsLimit (decimal id.1)) := by
  rw [tell_eq h hs hi]
  refine value_resets_notMem ?_
  rw [limits_fst, List.mem_map]
  rintro ⟨dsp, hdsp, heq⟩
  exact hid (List.mem_map.mpr ⟨dsp, hdsp, Subtype.ext (decimal_inj heq)⟩)

/-! ### The sums -/

variable {saxList : List Counters}

/-- The `i`-th dictionary is told the `i`-th limits. -/
lemma limitSum_tell (hd : (dspList.map DspQps.id).Nodup) (hs : Split saxList.length dspList)
    {dsp : DspQps} (hdsp : dsp ∈ dspList) :
    limitSum (saxList.zipIdx.map fun e => tell lib dspList e.1 e.2) dsp.id = dsp.limit.sum := by
  have hmap : (saxList.zipIdx.map fun e => tell lib dspList e.1 e.2).map
      (fun d => (d.value (genKeyForQpsLimit (decimal dsp.id.1))).getD 0) =
      dsp.limit.map Int.cast := by
    refine List.ext_getElem (by simp [hs.length dsp hdsp]) fun i hi hi' => ?_
    have hlt : i < saxList.length := by simpa using hi
    simp only [List.getElem_map, List.getElem_zipIdx, zero_add, value_tell hd hs hlt hdsp,
      Option.getD_some, Int.cast_inj]
    exact List.getD_eq_getElem _ _ (by simpa using hi')
  rw [limitSum, hmap]
  exact (Int.cast_list_sum dsp.limit).symm

lemma limitSum_tell_notMem (h : dspList ≠ []) (hs : Split saxList.length dspList) {id : IntCol}
    (hid : id ∉ dspList.map DspQps.id) :
    limitSum (saxList.zipIdx.map fun e => tell lib dspList e.1 e.2) id = limitSum saxList id := by
  unfold limitSum
  congr 1
  refine List.ext_getElem (by simp) fun i hi hi' => ?_
  have hlt : i < saxList.length := by simpa using hi'
  simp only [List.getElem_map, List.getElem_zipIdx, zero_add, value_tell_notMem h hs hlt hid]

end round

/-- What the limits of a DSP should sum up to. -/
def allowance (row : Row) : ℤ := if row.Active then row.qps.1 else 0

section rows

variable {lib : Ngx} {draw : ℤ → Draw} {rows : List Row} {saxList : List Counters}

/-- The list the center distributes: the active rows with their totals and limits. -/
def distributed (lib : Ngx) (draw : ℤ → Draw) (rows : List Row) (saxList : List Counters) :
    List DspQps :=
  reallocQpsLimit draw (getQpsTotalFromSax lib
    (saxList.map fun d => (ask lib (getDspQpsInfoDB rows) d).1) (getDspQpsInfoDB rows))

lemma updateQpsInfo_eq (h : getDspQpsInfoDB rows ≠ []) (hne : saxList ≠ []) :
    updateQpsInfo lib draw rows saxList =
      saxList.zipIdx.map fun e => tell lib (distributed lib draw rows saxList) e.1 e.2 := by
  have hsnd : (saxList.map (ask lib (getDspQpsInfoDB rows))).map Prod.snd = saxList := by
    rw [List.map_map, List.map_congr_left (g := id), List.map_id]
    exact fun d _ => by rw [Function.comp_apply, ask_eq lib h]; rfl
  simp only [updateQpsInfo, h, hne, ne_eq, not_false_eq_true, and_self, if_true, hsnd, List.map_map]
  rfl

/-- An element of the list: an active row and the split of its allowance. -/
lemma mem_distributed (h : getDspQpsInfoDB rows ≠ []) {dsp : DspQps}
    (hdsp : dsp ∈ distributed lib draw rows saxList) :
    ∃ row ∈ rows, row.Active ∧ dsp.id = row.id ∧ ∃ j, dsp.limit =
      realloc (draw row.id.1) row.qps.1 (saxList.map fun d =>
        limitAt lib (split comma (ask lib (getDspQpsInfoDB rows) d).1.body) j) := by
  simp only [distributed, reallocQpsLimit, getQpsTotalFromSax, List.map_map, List.mem_map] at hdsp
  obtain ⟨e, he, rfl⟩ := hdsp
  obtain ⟨row, hrow, heq⟩ := List.mem_map.mp (List.fst_mem_of_mem_zipIdx he)
  obtain ⟨hmem, hactive⟩ := List.mem_filter.mp hrow
  obtain ⟨_, j⟩ := e
  subst heq
  refine ⟨row, hmem, by simpa using hactive, rfl, j, ?_⟩
  simp [ask_eq lib h, Function.comp_def]

lemma distributed_ids (lib : Ngx) (draw : ℤ → Draw) (rows : List Row) (saxList : List Counters) :
    (distributed lib draw rows saxList).map DspQps.id = (rows.filter (·.Active)).map Row.id := by
  simp only [distributed, reallocQpsLimit, getQpsTotalFromSax, List.map_map]
  have hfst : (getDspQpsInfoDB rows).zipIdx.map (DspQps.id ∘ Prod.fst) =
      (rows.filter (·.Active)).map Row.id := by
    rw [← List.map_map, List.zipIdx_map_fst, getDspQpsInfoDB, List.map_map]
    rfl
  exact hfst

variable (h : getDspQpsInfoDB rows ≠ []) (hne : saxList ≠ [])
  (htotals : ∀ d ∈ saxList, Totals d)
include h hne htotals

lemma split_distributed : Split saxList.length (distributed lib draw rows saxList) := by
  refine ⟨fun dsp hdsp => ?_, fun dsp hdsp x hx => ?_⟩
  · obtain ⟨row, -, -, -, j, hlimit⟩ := mem_distributed h hdsp
    simp [hlimit]
  · obtain ⟨row, -, hactive, -, j, hlimit⟩ := mem_distributed h hdsp
    rw [hlimit] at hx
    have htotal : ∀ v ∈ saxList.map (fun d =>
        limitAt lib (split comma (ask lib (getDspQpsInfoDB rows) d).1.body) j), 0 ≤ v := by
      intro v hv
      obtain ⟨d, hd, rfl⟩ := List.mem_map.mp hv
      exact ask_nonneg lib h (htotals d hd) j
    have hnonneg := realloc_nonneg hactive.2.le htotal _ (by simpa using hne) hx
    have hle := realloc_le hactive.2.le htotal _ (by simpa using hne) hx
    have hqps := natAbs_col_lt row.qps
    omega

/-- An active row gets its allowance, split over the workers. -/
lemma limitSum_active (hrows : (rows.map Row.id).Nodup) {row : Row} (hrow : row ∈ rows)
    (hactive : row.Active) : limitSum (updateQpsInfo lib draw rows saxList) row.id = row.qps.1 := by
  have hd : ((distributed lib draw rows saxList).map DspQps.id).Nodup := by
    rw [distributed_ids]
    exact hrows.sublist (List.filter_sublist.map _)
  have hid : row.id ∈ (distributed lib draw rows saxList).map DspQps.id := by
    rw [distributed_ids]
    exact List.mem_map.mpr ⟨row, List.mem_filter.mpr ⟨hrow, by simpa using hactive⟩, rfl⟩
  obtain ⟨dsp, hdsp, hdspid⟩ := List.mem_map.mp hid
  obtain ⟨row', hrow', -, hid', j, hlimit⟩ := mem_distributed h hdsp
  have hsame : row' = row := List.inj_on_of_nodup_map hrows hrow' hrow (hid'.symm.trans hdspid)
  rw [updateQpsInfo_eq h hne, ← hdspid,
    limitSum_tell hd (split_distributed h hne htotals) hdsp, hlimit,
    sum_realloc _ _ (by simpa using hne), hsame]

omit htotals hne in
/-- Any other row keeps the limits it had. -/
lemma limitSum_inactive (hne : saxList ≠ []) (htotals : ∀ d ∈ saxList, Totals d)
    (hrows : (rows.map Row.id).Nodup) {row : Row} (hrow : row ∈ rows) (hactive : ¬ row.Active) :
    limitSum (updateQpsInfo lib draw rows saxList) row.id = limitSum saxList row.id := by
  have hid : row.id ∉ (distributed lib draw rows saxList).map DspQps.id := by
    rw [distributed_ids, List.mem_map]
    rintro ⟨row', hrow', heq⟩
    obtain ⟨hmem, hact⟩ := List.mem_filter.mp hrow'
    have hsame : row' = row := List.inj_on_of_nodup_map hrows hmem hrow heq
    exact hactive (by simpa [hsame] using hact)
  have hlist : distributed lib draw rows saxList ≠ [] := by
    intro heq
    have := congrArg (List.map DspQps.id) heq
    rw [distributed_ids, List.map_nil, List.map_eq_nil_iff] at this
    exact h (by rw [getDspQpsInfoDB, this, List.map_nil])
  rw [updateQpsInfo_eq h hne, limitSum_tell_notMem hlist (split_distributed h hne htotals) hid]

end rows

/-- **After a round the limits of every DSP sum up to its allowance exactly when those of every
DSP that has none summed up to 0 before**, and some DSP has one only if there is a worker. -/
theorem round_matches_iff (lib : Ngx) (draw : ℤ → Draw) (rows : List Row)
    (saxList : List Counters) (hrows : (rows.map Row.id).Nodup)
    (htotals : ∀ d ∈ saxList, Totals d) :
    (∀ row ∈ rows, limitSum (updateQpsInfo lib draw rows saxList) row.id = allowance row) ↔
      (∀ row ∈ rows, ¬ row.Active → limitSum saxList row.id = 0) ∧
        (saxList = [] → ∀ row ∈ rows, ¬ row.Active) := by
  by_cases h : getDspQpsInfoDB rows ≠ [] ∧ saxList ≠ []
  · obtain ⟨h, hne⟩ := h
    constructor
    · refine fun hall => ⟨fun row hrow hactive => ?_, fun hnil => absurd hnil hne⟩
      have := hall row hrow
      rwa [limitSum_inactive h hne htotals hrows hrow hactive, allowance, if_neg hactive,
        Int.cast_zero] at this
    · rintro ⟨hzero, -⟩ row hrow
      by_cases hactive : row.Active
      · rw [limitSum_active h hne htotals hrows hrow hactive, allowance, if_pos hactive]
      · rw [limitSum_inactive h hne htotals hrows hrow hactive, hzero row hrow hactive, allowance,
          if_neg hactive, Int.cast_zero]
  · have hsame : updateQpsInfo lib draw rows saxList = saxList := if_neg h
    rw [hsame]
    have hnone : saxList ≠ [] → ∀ row ∈ rows, ¬ row.Active := by
      intro hne row hrow hactive
      refine h ⟨fun heq => ?_, hne⟩
      have hmem : row ∈ rows.filter (·.Active) := List.mem_filter.mpr ⟨hrow, by simpa using hactive⟩
      rw [getDspQpsInfoDB, List.map_eq_nil_iff] at heq
      rw [heq] at hmem
      cases hmem
    constructor
    · intro hall
      refine ⟨fun row hrow hactive => ?_, fun hnil row hrow hactive => ?_⟩
      · have := hall row hrow
        rwa [allowance, if_neg hactive, Int.cast_zero] at this
      · have := hall row hrow
        rw [allowance, if_pos hactive, hnil] at this
        have hpos := hactive.2
        simp only [limitSum, List.map_nil, List.sum_nil] at this
        have : row.qps.1 = 0 := by exact_mod_cast this.symm
        omega
    · rintro ⟨hzero, hnil⟩ row hrow
      have hactive : ¬ row.Active := by
        by_cases hs : saxList = []
        · exact hnil hs row hrow
        · exact hnone hs row hrow
      rw [hzero row hrow hactive, allowance, if_neg hactive, Int.cast_zero]

section samples

/-- DSP 2 is enabled, DSP 3 has just been disabled. -/
def sampleRows : List Row := [⟨⟨2, by decide⟩, ⟨10, by decide⟩, 1⟩, ⟨⟨3, by decide⟩, ⟨10, by decide⟩, 0⟩]

/-- Two workers that gave DSP 3 limits of 5 in an earlier round. -/
def sampleWorkers : List Counters :=
  List.replicate 2 (Counters.empty.put (genKeyForQpsLimit (lit "3")) 5 0)

lemma sampleWorkers_totals : ∀ d ∈ sampleWorkers, Totals d := by
  intro d hd id q hq
  rw [List.eq_of_mem_replicate hd, value_put_ne _ (limit_ne_total _ _).symm] at hq
  simp [Counters.value, Counters.empty] at hq

theorem round_matches_iff_sample :
    (∀ row ∈ sampleRows, limitSum (updateQpsInfo (Ngx.ofTexts []) (fun _ => .least) sampleRows
        sampleWorkers) row.id = allowance row) ↔
      (∀ row ∈ sampleRows, ¬ row.Active → limitSum sampleWorkers row.id = 0) ∧
        (sampleWorkers = [] → ∀ row ∈ sampleRows, ¬ row.Active) :=
  round_matches_iff _ _ _ _ (by decide) sampleWorkers_totals

/-- The limits of DSP 3 still sum up to 10. -/
theorem disabled_dsp_keeps_limits :
    ∃ row ∈ sampleRows, row.status = 0 ∧
      limitSum (updateQpsInfo (Ngx.ofTexts []) (fun _ => .least) sampleRows sampleWorkers) row.id = 10 ∧
        allowance row = 0 :=
  ⟨⟨⟨3, by decide⟩, ⟨10, by decide⟩, 0⟩, by simp [sampleRows], rfl, by decide +kernel, rfl⟩

end samples

end Sax.QpsRound
