import Sax.Shdict
import Sax.Const

/-!
The QPS counters of a DSP: `incr`, `getQpsInfoList`, `getQpsTotal` and `setQpsLimit` of
`model/dsp.lua`, and the tests `checkDspQps` of `impress.lua` and `check_dsp_qps` of
`saxmob/rtb/impress.lua` make on them.

The copies under `saxmob/` differ in their names and in how the test is written.
-/

namespace Sax.Qps

open Sax.LuaVal Sax.Const Sax.Runtime Sax.Atomic Sax.Shdict

abbrev Program := Prog Op Reply

def genKeyForQpsLimit (id : Str) : Str := DSP_QPS_LIMIT_PREFIX ++ id
def genKeyForQpsCount (id : Str) : Str := DSP_QPS_COUNT_PREFIX ++ id
def genKeyForQpsTotal (id : Str) : Str := DSP_QPS_TOTAL_PREFIX ++ id

def getDict (key : Str) : Program (Option ℚ) := .perform (Op.getDict key)
def setDict (key : Str) (value : ℚ) (exptime : ℕ) : Program Unit :=
  .perform (Op.setDict key value exptime)
def addDict (key : Str) (value : ℚ) (exptime : ℕ) : Program Bool :=
  .perform (Op.addDict key value exptime)
def incrDict (key : Str) (step : ℚ) : Program (Option ℚ) := .perform (Op.incrDict key step)
def flushExpiredDict : Program Unit := .perform Op.flushExpiredDict

def incr (key : Str) (value : ℚ) (exptime : ℕ) : Program (Option ℚ) := do
  match ← incrDict key value with
  | some newValue => return some newValue
  | none =>
    let success ← addDict key value exptime
    if success then return some value else incrDict key value

structure QpsInfo where
  limit : ℚ
  count : Option ℚ
  deriving DecidableEq

/-- One round of the loop of `getQpsInfoList`. -/
def qpsInfo (id : Str) : Program QpsInfo := do
  let limit ← getDict (genKeyForQpsLimit id)
  let count ← incr (genKeyForQpsCount id) 1 1
  let _ ← incr (genKeyForQpsTotal id) 1 0
  return ⟨limit.getD 0, count⟩

def getQpsInfoList (idList : List Str) : Program (Tbl QpsInfo) :=
  idList.foldlM (fun result id => do return result.insert id (← qpsInfo id)) ∅

def getQpsTotal (dspIdList : List Str) : Program (List ℚ) :=
  dspIdList.foldlM (fun qpsTotalList dspId => do
    let value ← getDict (genKeyForQpsTotal dspId)
    return qpsTotalList ++ [value.getD 0]) []

/-- One round of the loop of `setQpsLimit`. -/
def resetQps (dspId : Str) (limit : ℚ) : Program Unit := do
  setDict (genKeyForQpsLimit dspId) limit 0
  setDict (genKeyForQpsTotal dspId) 0 0
  setDict (genKeyForQpsCount dspId) 0 1

/-- A limit that is missing or no number counts as 0. -/
def limitAt (lib : Ngx) (qpsLimitList : List Str) (i : ℕ) : ℚ :=
  (qpsLimitList[i]?.bind lib.tonumber).getD 0

def setQpsLimit (lib : Ngx) (dspIdList qpsLimitList : List Str) : Program Unit := do
  dspIdList.zipIdx.foldlM (fun _ e => resetQps e.1 (limitAt lib qpsLimitList e.2)) ()
  flushExpiredDict

/-- `not (limit <= 0 or count > limit)`, the test a DSP must pass to stay on the list. -/
def stays (info : QpsInfo) : Lua Bool :=
  if info.limit ≤ 0 then .ok false
  else match info.count with
    | some count => .ok (¬ count > info.limit)
    | none => .error .badCompare

/-- `limit > 0 and count <= limit`, as `saxmob/rtb/impress.lua` writes it. -/
def bids (info : QpsInfo) : Lua Bool :=
  if info.limit > 0 then
    match info.count with
    | some count => .ok (count ≤ info.limit)
    | none => .error .badCompare
  else .ok false

/-- The two tests are one. -/
lemma bids_eq_stays : bids = stays := by
  funext info
  unfold bids stays
  by_cases h : info.limit ≤ 0
  · rw [if_neg (not_lt.mpr h), if_pos h]
  · rw [if_pos (not_le.mp h), if_neg h]
    cases info.count <;> simp

lemma stays_some {limit count : ℚ} :
    stays ⟨limit, some count⟩ = .ok true ↔ 0 < limit ∧ count ≤ limit := by
  unfold stays
  by_cases h : limit ≤ 0
  · simp [h, not_lt.mpr h]
  · simp [h, not_le.mp h]

/-- One round of the loop of `checkDspQps`. -/
def dropOver (qpsList : Tbl QpsInfo) (dspQueryList : Tbl (List Str)) (dspId : Str) :
    Lua (Tbl (List Str)) :=
  match qpsList.get dspId with
  | some info => do if ← stays info then return dspQueryList else return dspQueryList.erase dspId
  | none => .error .badIndex

/-- `checkDspQps` on what `getQpsInfoList` returned. -/
def checkDspQps (o : Order) (qpsList : Tbl QpsInfo) (dspQueryList : Tbl (List Str)) :
    Lua (Tbl (List Str)) :=
  ((o.pairs dspQueryList).map Sigma.fst).foldlM (dropOver qpsList) dspQueryList

/-- One round of the loop of `check_dsp_qps`. -/
def addUnder (qps_list : Tbl QpsInfo) (dsp_bid_list : List Str) (dsp_id : Str) : Lua (List Str) :=
  match qps_list.get dsp_id with
  | some info => do if ← bids info then return dsp_bid_list ++ [dsp_id] else return dsp_bid_list
  | none => .error .badIndex

/-- `check_dsp_qps` on what `get_qps_info_list` returned. -/
def check_dsp_qps (qps_list : Tbl QpsInfo) (dsp_white_list : List Str) : Lua (List Str) :=
  dsp_white_list.foldlM (addUnder qps_list) []

/-! ### The keys -/

lemma prefix_ne {p q a b : Str} (h : p.length = q.length) (hne : p ≠ q) : p ++ a ≠ q ++ b :=
  fun heq => hne (List.append_inj heq h).1

lemma count_ne_limit (a b : Str) : genKeyForQpsCount a ≠ genKeyForQpsLimit b :=
  prefix_ne (by decide) (by decide)

lemma count_ne_total (a b : Str) : genKeyForQpsCount a ≠ genKeyForQpsTotal b :=
  prefix_ne (by decide) (by decide)

lemma limit_ne_total (a b : Str) : genKeyForQpsLimit a ≠ genKeyForQpsTotal b :=
  prefix_ne (by decide) (by decide)

lemma genKeyForQpsLimit_inj {a b : Str} : genKeyForQpsLimit a = genKeyForQpsLimit b ↔ a = b :=
  List.append_right_inj _

end Sax.Qps
