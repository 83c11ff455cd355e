import Sax.QpsRound
import Sax.Tally

/-!
Counting requests: the bid calls of every worker increment the totals of the DSPs while
`center.updateQpsInfo` goes through its rounds, `getQpsTotalFromSax`, `reallocQpsLimit` and
`setQpsLimitToSax`.

A round asks all workers at once and tells all at once, so its messages and the calls make
their operations in any order; but no worker is told before all have answered. A total is read by the
first message and set back by the second.
-/

namespace Sax.RequestCount

open Sax.LuaVal Sax.Const Sax.Runtime Sax.Atomic Sax.Shdict Sax.Qps Sax.QpsRound Sax.Tally
open Sax.Extract (Rsp)

variable {ι : Type} [DecidableEq ι]

/-- An operation on the dictionary of a worker, and what it replied. -/
structure Done (ι : Type) where
  worker : ι
  op : Op
  reply : Reply op

/-- Where the center is in its rounds. -/
inductive Phase (ι : Type)
  | idle
  | reading (dspList : List DspQps) (saxList : List ι)
  | setting (saxList : List ι)

structure System (ι : Type) where
  dict : ι → Counters
  /-- what is left of each call of `getQpsInfoList` -/
  bids : ℕ → Program (Tbl QpsInfo)
  phase : Phase ι
  /-- what is left of the message of the center to each worker -/
  msgs : ι → Program Rsp
  log : List (Done ι)

inductive Act (ι : Type)
  | bid (t : ℕ)
  | message (w : ι)
  | expire (w : ι) (key : Str)
  | begin (rows : List Row) (saxList : List ι)
  | tell (draw : ℤ → Draw)
  | finish

/-- An entry that can expire goes. -/
def expire (key : Str) (d : Counters) : Counters where
  entries := d.entries.erase key
  births := d.births
  life_lt k e h := by
    by_cases hk : k = key
    · subst hk
      simp [Tbl.get] at h
    · rw [Tbl.get, AList.lookup_erase_ne hk] at h
      exact d.life_lt k e h

/-- An operation on the dictionary of a worker. -/
def System.perform (s : System ι) (w : ι) (o : Op) : System ι :=
  { s with
    dict := Function.update s.dict w (exec o (s.dict w)).2
    log := s.log ++ [⟨w, o, (exec o (s.dict w)).1⟩] }

section code

variable (lib : Ngx) (host : ℕ → ι)

/-- The messages of the second half of a round, from the answers to those of the first. -/
def tellMsg (draw : ℤ → Draw) (dspList : List DspQps) (saxList : List ι) (rspList : List Rsp)
    (w : ι) : Program Rsp :=
  let dspList := reallocQpsLimit draw (getQpsTotalFromSax lib rspList dspList)
  saxUpdateQpsInfo lib SET_DSP_QPS_LIMIT (dspIdStr lib dspList)
    (qpsLimitStr lib dspList (saxList.idxOf w))

/-- One step. A round begins with the rows of the tables `dsp` and `sax`, which have keys, and
does nothing where one of the lists is empty. -/
def step (s : System ι) : Act ι → Option (System ι)
  | .bid t =>
    match s.bids t with
    | .op o k => some { s.perform (host t) o with
        bids := Function.update s.bids t (k (exec o (s.dict (host t))).1) }
    | .ret _ => none
  | .message w =>
    match s.msgs w with
    | .op o k => some { s.perform w o with
        msgs := Function.update s.msgs w (k (exec o (s.dict w)).1) }
    | .ret _ => none
  | .expire w key =>
    match (s.dict w).entries.get key with
    | some e =>
      if e.exptime ≠ 0 then
        some { s with dict := Function.update s.dict w (expire key (s.dict w)) }
      else none
    | none => none
  | .begin rows saxList =>
    match s.phase with
    | .idle =>
      if (rows.map Row.id).Nodup ∧ saxList.Nodup ∧ getDspQpsInfoDB rows ≠ [] ∧ saxList ≠ [] then
        some { s with
          phase := .reading (getDspQpsInfoDB rows) saxList
          msgs := fun w => if w ∈ saxList then
              saxUpdateQpsInfo lib GET_DSP_QPS_TOTAL (dspIdStr lib (getDspQpsInfoDB rows)) []
            else s.msgs w }
      else none
    | _ => none
  | .tell draw =>
    match s.phase with
    | .reading dspList saxList =>
      match saxList.mapM fun w => (s.msgs w).result with
      | some rspList => some { s with
          phase := .setting saxList
          msgs := fun w => if w ∈ saxList then tellMsg lib draw dspList saxList rspList w
            else s.msgs w }
      | none => none
    | _ => none
  | .finish =>
    match s.phase with
    | .setting saxList =>
      if ∀ w ∈ saxList, (s.msgs w).result.isSome then some { s with phase := .idle } else none
    | _ => none

/-- The workers start with empty dictionaries. -/
def start (calls : ℕ → List Str) : System ι where
  dict _ := Counters.empty
  bids t := getQpsInfoList (calls t)
  phase := .idle
  msgs _ := .ret ⟨HTTP_OK, []⟩
  log := []

def run (acts : List (Act ι)) (s : System ι) : Option (System ι) :=
  acts.foldlM (step lib host) s

end code

/-- What an operation does to the total of a DSP. -/
def opMark (id : Str) : (o : Op) → Reply o → Option Mark
  | .getDict key, q => if key = genKeyForQpsTotal id then some (.read (q.getD 0)) else none
  | .setDict key _ _, _ => if key = genKeyForQpsTotal id then some .zero else none
  | .addDict key _ _, true => if key = genKeyForQpsTotal id then some .inc else none
  | .incrDict key _, some _ => if key = genKeyForQpsTotal id then some .inc else none
  | _, _ => none

/-- What happened to the total of a DSP on a worker. -/
def marks (w : ι) (id : Str) (log : List (Done ι)) : List Mark :=
  (log.filter fun e => e.worker = w).filterMap fun e => opMark id e.op e.reply

/-! ### What the operations of calls and messages do to a total -/

/-- Totals go up by one, are set to 0 only, and last. -/
def Touch : Op → Prop
  | .setDict key value exptime => ∀ id, key = genKeyForQpsTotal id → value = 0 ∧ exptime = 0
  | .addDict key value exptime => ∀ id, key = genKeyForQpsTotal id → value = 1 ∧ exptime = 0
  | .incrDict key step => ∀ id, key = genKeyForQpsTotal id → step = 1
  | _ => True

/-- An operation that reads the total of a DSP, or sets it. -/
inductive Turn
  | reads
  | zeroes
  deriving DecidableEq

def turn (id : Str) : Op → Option Turn
  | .getDict key => if key = genKeyForQpsTotal id then some .reads else none
  | .setDict key _ _ => if key = genKeyForQpsTotal id then some .zeroes else none
  | _ => none

lemma opMark_of_turn_none {id : Str} {o : Op} {r : Reply o} (h : turn id o = none) :
    opMark id o r = none ∨ opMark id o r = some .inc := by
  cases o with
  | getDict key =>
    by_cases hk : key = genKeyForQpsTotal id
    · simp [turn, hk] at h
    · simp [opMark, hk]
  | setDict key value exptime =>
    by_cases hk : key = genKeyForQpsTotal id
    · simp [turn, hk] at h
    · simp [opMark, hk]
  | addDict key value exptime => cases r <;> simp [opMark, Classical.em, or_comm]
  | incrDict key step => cases r <;> simp [opMark, Classical.em, or_comm]
  | flushExpiredDict => simp [opMark]

lemma opMark_of_reads {id : Str} {o : Op} {r : Reply o} (h : turn id o = some .reads) :
    ∃ v, opMark id o r = some (.read v) := by
  cases o with
  | getDict key =>
    by_cases hk : key = genKeyForQpsTotal id
    · exact ⟨Option.getD r 0, by simp [opMark, hk]⟩
    · simp [turn, hk] at h
  | setDict key value exptime => simp [turn] at h
  | _ => cases h

lemma opMark_of_zeroes {id : Str} {o : Op} {r : Reply o} (h : turn id o = some .zeroes) :
    opMark id o r = some .zero := by
  cases o with
  | setDict key value exptime =>
    by_cases hk : key = genKeyForQpsTotal id
    · simp [opMark, hk]
    · simp [turn, hk] at h
  | getDict key => simp [turn] at h
  | _ => cases h

/-- The dictionary holds the total that the marks make up, and every reading reported it. -/
structure Tallied (id : Str) (d : Counters) (l : List Mark) : Prop where
  value : (d.value (genKeyForQpsTotal id)).getD 0 = held l
  lasting : ∀ e, d.entries.get (genKeyForQpsTotal id) = some e → e.exptime = 0
  honest : Honest l

namespace Tallied

variable {id : Str} {d : Counters} {l : List Mark}

lemma empty : Tallied id Counters.empty [] where
  value := by simp [Counters.value, Counters.empty, held]
  lasting e h := by simp [Counters.empty] at h
  honest := along_nil

/-- Another entry is put. -/
lemma put_ne (h : Tallied id d l) {key : Str} {value : ℚ} {exptime : ℕ}
    (hk : genKeyForQpsTotal id ≠ key) : Tallied id (d.put key value exptime) l where
  value := by rw [value_put_ne d hk, h.value]
  lasting e he := h.lasting e (by rwa [get_put_ne d hk] at he)
  honest := h.honest

/-- The total is put, for good. -/
lemma put (h : Tallied id d l) {value : ℚ} {m : Mark} (hm : m.hold (held l) = value)
    (hread : ∀ v, m ≠ .read v) :
    Tallied id (d.put (genKeyForQpsTotal id) value 0) (l ++ [m]) where
  value := by rw [value_put, held_snoc, hm, Option.getD_some]
  lasting e he := by
    rw [get_put, Option.some.injEq] at he
    rw [← he]
  honest := along_snoc.mpr ⟨h.honest, fun v hv => absurd hv (hread v)⟩

/-- **One operation.** -/
lemma exec (h : Tallied id d l) {o : Op} (ho : Touch o) :
    Tallied id (exec o d).2 (l ++ (opMark id o (Shdict.exec o d).1).toList) := by
  cases o with
  | getDict key =>
    by_cases hk : key = genKeyForQpsTotal id
    · subst hk
      simp only [opMark, if_true, Option.toList_some, Shdict.exec]
      refine ⟨?_, h.lasting, along_snoc.mpr ⟨h.honest, fun v hv => ?_⟩⟩
      · rw [held_snoc]
        exact h.value
      · cases hv
        exact h.value
    · simpa [opMark, hk, Shdict.exec] using h
  | setDict key value exptime =>
    by_cases hk : key = genKeyForQpsTotal id
    · obtain ⟨rfl, rfl⟩ := ho id hk
      subst hk
      have hzero : Mark.hold (held l) .zero = 0 := rfl
      simpa [opMark, Shdict.exec] using h.put hzero (by simp)
    · simpa [opMark, hk, Shdict.exec] using h.put_ne (Ne.symm hk)
  | addDict key value exptime =>
    by_cases hkey : (d.value key).isSome
    · simpa [exec_addDict_taken d hkey, opMark] using h
    · rw [exec_addDict_free d hkey]
      by_cases hk : key = genKeyForQpsTotal id
      · obtain ⟨rfl, rfl⟩ := ho id hk
        subst hk
        have hzero : held l = 0 := by
          rw [← h.value, Option.not_isSome_iff_eq_none.mp hkey, Option.getD_none]
        simpa [opMark] using h.put (m := .inc) (by rw [hzero, Mark.hold, zero_add]) (by simp)
      · simpa [opMark, hk] using h.put_ne (Ne.symm hk)
  | incrDict key step =>
    cases hkey : d.entries.get key with
    | none => simpa [exec_incrDict_none d hkey, opMark] using h
    | some e =>
      rw [exec_incrDict d hkey]
      by_cases hk : key = genKeyForQpsTotal id
      · obtain rfl := ho id hk
        subst hk
        have hheld : held l = e.value := by
          rw [← h.value, Counters.value, hkey, Option.map_some, Option.getD_some]
        simp only [opMark, if_true, Option.toList_some]
        refine ⟨?_, fun e' he' => ?_, along_snoc.mpr ⟨h.honest, by simp⟩⟩
        · rw [Counters.value, get_renew, held_snoc, hheld]
          rfl
        · rw [get_renew, Option.some.injEq] at he'
          rw [← he']
          exact h.lasting e hkey
      · have hne := Ne.symm hk
        simp only [opMark, hk, if_false, Option.toList_none, List.append_nil]
        refine ⟨?_, fun e' he' => h.lasting e' ?_, h.honest⟩
        · rw [Counters.value, get_renew_ne d hkey hne, ← h.value, Counters.value]
        · rwa [get_renew_ne d hkey hne] at he'
  | flushExpiredDict => simpa [opMark, Shdict.exec] using h

/-- A total never expires. -/
lemma expire (h : Tallied id d l) {key : Str} {e : Entry} (hkey : d.entries.get key = some e)
    (hexp : e.exptime ≠ 0) : Tallied id (RequestCount.expire key d) l := by
  have hne : genKeyForQpsTotal id ≠ key := by
    rintro rfl
    exact hexp (h.lasting e hkey)
  have hget : (RequestCount.expire key d).entries.get (genKeyForQpsTotal id) =
      d.entries.get (genKeyForQpsTotal id) := AList.lookup_erase_ne hne
  exact ⟨by rw [Counters.value, hget, ← h.value, Counters.value],
    fun e' he' => h.lasting e' (hget ▸ he'), h.honest⟩

end Tallied

/-! ### What calls and messages show -/

lemma genKeyForQpsTotal_inj {a b : Str} : genKeyForQpsTotal a = genKeyForQpsTotal b ↔ a = b :=
  List.append_right_inj _

lemma incr_touch {key : Str} {exptime : ℕ} (h : ∀ id, key = genKeyForQpsTotal id → exptime = 0) :
    (incr key 1 exptime).Only Touch := by
  refine (Prog.only_perform (P := Touch) (o := Op.incrDict key 1) fun _ _ => rfl).bind fun newValue => ?_
  cases newValue with
  | some _ => exact .ret _
  | none =>
    refine (Prog.only_perform (P := Touch) (o := Op.addDict key 1 exptime)
      fun id hid => ⟨rfl, h id hid⟩).bind fun success => ?_
    cases success
    · exact Prog.only_perform (P := Touch) (o := Op.incrDict key 1) fun _ _ => rfl
    · exact .ret _

lemma getQpsInfoList_touch (idList : List Str) : (getQpsInfoList idList).Only Touch := by
  refine Prog.only_foldlM (fun _ dspId => Prog.Only.bind ?_ fun _ => .ret _) _ _
  refine (Prog.only_perform (P := Touch) (o := Op.getDict _) trivial).bind fun _ => ?_
  refine (incr_touch fun id h => absurd h (count_ne_total _ _)).bind fun _ => ?_
  exact (incr_touch fun _ _ => rfl).bind fun _ => .ret _

lemma resetQps_touch (dspId : Str) (limit : ℚ) : (resetQps dspId limit).Only Touch := by
  refine (Prog.only_perform (P := Touch) (o := Op.setDict _ _ _) fun id h => ?_).bind fun _ =>
    (Prog.only_perform (P := Touch) (o := Op.setDict _ _ _) fun id h => ⟨rfl, rfl⟩).bind fun _ =>
      Prog.only_perform (P := Touch) (o := Op.setDict _ _ _) fun id h => ?_
  · exact absurd h (limit_ne_total _ _)
  · exact absurd h (count_ne_total _ _)

lemma saxUpdateQpsInfo_touch (lib : Ngx) (type dspids qpslimit : Str) :
    (saxUpdateQpsInfo lib type dspids qpslimit).Only Touch := by
  unfold saxUpdateQpsInfo
  split
  · split
    · exact .ret _
    · refine Prog.Only.bind (Prog.only_foldlM (fun _ _ => ?_) _ _) fun _ => .ret _
      exact (Prog.only_perform (P := Touch) (o := Op.getDict _) trivial).bind fun _ => .ret _
  · split
    · split
      · exact .ret _
      · refine Prog.Only.bind (Prog.Only.bind ?_ fun _ => ?_) fun _ => .ret _
        · exact Prog.only_foldlM (fun _ e => resetQps_touch _ _) _ _
        · exact Prog.only_perform (P := Touch) (o := Op.flushExpiredDict) trivial
    · exact .ret _

section shows

variable {id : Str}

/-- One operation, and what it shows. -/
lemma emits_one {o : Op} {l : List Turn} (h : (turn id o).toList = l) :
    (Prog.perform o : Program (Reply o)).Emits (turn id) l :=
  h ▸ Prog.emits_perform o

lemma incr_emits (key : Str) (value : ℚ) (exptime : ℕ) :
    (incr key value exptime).Emits (turn id) [] := by
  refine (emits_one (o := .incrDict key value) rfl).bind_nil fun newValue => ?_
  cases newValue with
  | some _ => exact .ret _
  | none =>
    refine (emits_one (o := .addDict key value exptime) rfl).bind_nil fun success => ?_
    cases success
    · exact emits_one rfl
    · exact .ret _

/-- A call neither reads nor sets a total. -/
lemma getQpsInfoList_emits (idList : List Str) : (getQpsInfoList idList).Emits (turn id) [] := by
  have hround : ∀ (result : Tbl QpsInfo) (dspId : Str),
      Prog.Emits (turn id) [] (do return result.insert dspId (← qpsInfo dspId) : Program _) := by
    intro result dspId
    have hlimit : (turn id (.getDict (genKeyForQpsLimit dspId))).toList = [] := by
      simp [turn, limit_ne_total]
    have hinfo : (qpsInfo dspId).Emits (turn id) [] :=
      (emits_one hlimit).bind_nil fun _ =>
        (incr_emits _ _ _).bind_nil fun _ => (incr_emits _ _ _).bind_nil fun _ => .ret _
    exact hinfo.bind_nil fun _ => .ret _
  have h := Prog.emits_foldlM hround idList ∅
  rwa [show idList.flatMap (fun _ => ([] : List Turn)) = [] by simp] at h

lemma flatMap_once {l : List Str} (h : l.Nodup) (t : Turn) :
    l.flatMap (fun dspId => if dspId = id then [t] else []) = if id ∈ l then [t] else [] := by
  induction l with
  | nil => rfl
  | cons a l ih =>
    rw [List.nodup_cons] at h
    rw [List.flatMap_cons, ih h.2]
    by_cases ha : a = id
    · subst ha
      simp [h.1]
    · simp [ha, Ne.symm ha]

/-- The first message reads the total of every DSP it names. -/
lemma getQpsTotal_emits {dspIdList : List Str} (h : dspIdList.Nodup) :
    (getQpsTotal dspIdList).Emits (turn id) (if id ∈ dspIdList then [.reads] else []) := by
  rw [← flatMap_once h]
  refine Prog.emits_foldlM (fun _ dspId => ?_) _ _
  have hturn : (turn id (.getDict (genKeyForQpsTotal dspId))).toList =
      if dspId = id then [.reads] else [] := by
    by_cases hid : dspId = id <;> simp [turn, hid, genKeyForQpsTotal_inj]
  exact (emits_one hturn).bind_nil fun _ => .ret _

lemma resetQps_emits (dspId : Str) (limit : ℚ) :
    (resetQps dspId limit).Emits (turn id) (if dspId = id then [.zeroes] else []) := by
  have hlimit : (turn id (.setDict (genKeyForQpsLimit dspId) limit 0)).toList = [] := by
    simp [turn, limit_ne_total]
  have htotal : (turn id (.setDict (genKeyForQpsTotal dspId) 0 0)).toList =
      if dspId = id then [.zeroes] else [] := by
    by_cases hid : dspId = id <;> simp [turn, hid, genKeyForQpsTotal_inj]
  have hcount : (turn id (.setDict (genKeyForQpsCount dspId) 0 1)).toList = [] := by
    simp [turn, count_ne_total]
  exact (emits_one hlimit).nil_bind fun _ =>
    (emits_one htotal).bind_nil fun _ => emits_one hcount

/-- The second message sets the total of every DSP it names. -/
lemma setQpsLimit_emits (lib : Ngx) {dspIdList : List Str} (qpsLimitList : List Str)
    (h : dspIdList.Nodup) : (setQpsLimit lib dspIdList qpsLimitList).Emits (turn id)
      (if id ∈ dspIdList then [.zeroes] else []) := by
  have hloop := Prog.emits_foldlM (f := turn id) (a := ())
    (fun (_ : Unit) (e : Str × ℕ) => resetQps_emits e.1 (limitAt lib qpsLimitList e.2))
    dspIdList.zipIdx
  have hfst : dspIdList.zipIdx.flatMap (fun e => if e.1 = id then [Turn.zeroes] else []) =
      if id ∈ dspIdList then [.zeroes] else [] := by
    rw [← flatMap_once h, ← List.flatMap_map (f := Prod.fst)
      (g := fun dspId => if dspId = id then [Turn.zeroes] else []), List.zipIdx_map_fst]
  rw [hfst] at hloop
  exact hloop.bind_nil fun _ => emits_one rfl

end shows

section messages

variable {lib : Ngx} {id : Str} {dspList : List DspQps} {saxList : List ι}

/-- The ids of a list, as a message names them. -/
def ids (dspList : List DspQps) : List Str := dspList.map fun dsp => decimal dsp.id.1

lemma ids_nodup (h : (dspList.map DspQps.id).Nodup) : (ids dspList).Nodup := by
  have hmap : ids dspList = (dspList.map DspQps.id).map fun n : IntCol => decimal n.1 := by
    rw [List.map_map]
    rfl
  rw [hmap]
  exact h.map fun a b hab => Subtype.ext (decimal_inj hab)

lemma rows_nodup {rows : List Row} (h : (rows.map Row.id).Nodup) :
    ((getDspQpsInfoDB rows).map DspQps.id).Nodup := by
  rw [getDspQpsInfoDB, List.map_map]
  exact h.sublist (List.filter_sublist.map _)

lemma askMsg_emits (hne : dspList ≠ []) (hd : (dspList.map DspQps.id).Nodup) :
    (saxUpdateQpsInfo lib GET_DSP_QPS_TOTAL (dspIdStr lib dspList) []).Emits (turn id)
      (if id ∈ ids dspList then [.reads] else []) := by
  unfold saxUpdateQpsInfo
  rw [if_pos rfl, if_neg (dspIdStr_ne_nil lib hne), split_dspIdStr lib hne]
  exact (getQpsTotal_emits (ids_nodup hd)).bind_nil fun _ => .ret _

/-- A limit is sent for every DSP, so the list of limits is no empty text. -/
lemma qpsLimitStr_ne_nil (htext : ∀ q, lib.tostring q ≠ []) (hne : dspList ≠ []) {i : ℕ}
    (hlimit : ∀ dsp ∈ dspList, i < dsp.limit.length) : qpsLimitStr lib dspList i ≠ [] := by
  obtain ⟨dsp, hdsp⟩ := List.exists_mem_of_ne_nil dspList hne
  obtain ⟨limit, hi⟩ : ∃ limit, dsp.limit[i]? = some limit :=
    ⟨_, List.getElem?_eq_getElem (hlimit dsp hdsp)⟩
  obtain ⟨c, hc⟩ := List.exists_mem_of_ne_nil _ (htext limit)
  refine List.ne_nil_of_mem (mem_concat_of_mem (List.mem_map_of_mem ?_) hc)
  exact List.mem_filterMap.mpr ⟨dsp, hdsp, hi⟩

/-- The list that the second half of a round goes by. -/
lemma realloc_list (lib : Ngx) (dspList : List DspQps) (draw : ℤ → Draw) (rspList : List Rsp) :
    (reallocQpsLimit draw (getQpsTotalFromSax lib rspList dspList)).map DspQps.id =
        dspList.map DspQps.id ∧
      ∀ dsp ∈ reallocQpsLimit draw (getQpsTotalFromSax lib rspList dspList),
        dsp.limit.length = rspList.length := by
  constructor
  · simp only [reallocQpsLimit, getQpsTotalFromSax, List.map_map]
    have hfst : dspList.zipIdx.map (DspQps.id ∘ Prod.fst) = dspList.map DspQps.id := by
      rw [← List.map_map, List.zipIdx_map_fst]
    exact hfst
  · intro dsp hdsp
    simp only [reallocQpsLimit, getQpsTotalFromSax, List.map_map, List.mem_map] at hdsp
    obtain ⟨e, -, rfl⟩ := hdsp
    simp

lemma tellMsg_emits (htext : ∀ q, lib.tostring q ≠ []) (draw : ℤ → Draw) (hne : dspList ≠ [])
    (hd : (dspList.map DspQps.id).Nodup) {rspList : List Rsp} {w : ι} (hw : w ∈ saxList)
    (hlen : rspList.length = saxList.length) :
    (tellMsg lib draw dspList saxList rspList w).Emits (turn id)
      (if id ∈ ids dspList then [.zeroes] else []) := by
  obtain ⟨hids, hlimit⟩ := realloc_list lib dspList draw rspList
  unfold tellMsg
  generalize reallocQpsLimit draw (getQpsTotalFromSax lib rspList dspList) = told at hids hlimit ⊢
  have htold : told ≠ [] := fun heq => hne (by simpa [heq] using hids.symm)
  have hlist : ids told = ids dspList := by
    have hmap : ∀ l : List DspQps, ids l = (l.map DspQps.id).map fun n : IntCol => decimal n.1 :=
      fun l => by simp [ids]
    rw [hmap, hmap, hids]
  have hidx : ∀ dsp ∈ told, saxList.idxOf w < dsp.limit.length := fun dsp hdsp => by
    rw [hlimit dsp hdsp, hlen]
    exact List.idxOf_lt_length_of_mem hw
  have hmsg : saxUpdateQpsInfo lib SET_DSP_QPS_LIMIT (dspIdStr lib told)
      (qpsLimitStr lib told (saxList.idxOf w)) = (do
        setQpsLimit lib (ids told) (split comma (qpsLimitStr lib told (saxList.idxOf w)))
        return ⟨HTTP_OK, []⟩) := by
    unfold saxUpdateQpsInfo
    rw [if_neg (by decide), if_pos rfl,
      if_neg (by simp [dspIdStr_ne_nil lib htold, qpsLimitStr_ne_nil htext htold hidx]),
      split_dspIdStr lib htold, ids]
  simp only
  rw [hmsg, hlist]
  exact (setQpsLimit_emits lib _ (ids_nodup hd)).bind_nil fun _ => .ret _

end messages

/-! ### The invariant of the runs -/

section runs

variable {lib : Ngx} {host : ℕ → ι} {s s' : System ι} {id : Str}

/-- What the message to a worker has still to do with the total of a DSP, and whether a reading
of it waits for its reset. -/
def Stage (id : Str) (phase : Phase ι) (w : ι) (waits : Bool) (msg : Program Rsp) : Prop :=
  match phase with
  | .idle => waits = false ∧ msg.Emits (turn id) []
  | .reading dspList saxList =>
    (w ∈ saxList ∧ id ∈ ids dspList ∧ waits = false ∧ msg.Emits (turn id) [.reads]) ∨
      (waits = decide (w ∈ saxList ∧ id ∈ ids dspList) ∧ msg.Emits (turn id) [])
  | .setting saxList =>
    (w ∈ saxList ∧ waits = true ∧ msg.Emits (turn id) [.zeroes]) ∨
      (waits = false ∧ msg.Emits (turn id) [])

/-- The DSPs of a round are some, and each is in it once. -/
def Phase.Fair : Phase ι → Prop
  | .reading dspList _ => dspList ≠ [] ∧ (dspList.map DspQps.id).Nodup
  | _ => True

structure Inv (id : Str) (s : System ι) : Prop where
  bids : ∀ t, (s.bids t).Only Touch ∧ (s.bids t).Emits (turn id) []
  msgs : ∀ w, (s.msgs w).Only Touch
  tallied : ∀ w, Tallied id (s.dict w) (marks w id s.log)
  alternates : ∀ w, Alternates (marks w id s.log)
  fair : s.phase.Fair
  stage : ∀ w, Stage id s.phase w (pending (marks w id s.log)) (s.msgs w)

@[simp] lemma perform_phase (w : ι) (o : Op) : (s.perform w o).phase = s.phase := rfl

lemma marks_perform (w w' : ι) (o : Op) : marks w' id (s.perform w o).log =
    marks w' id s.log ++
      if w' = w then (opMark id o (exec o (s.dict w)).1).toList else [] := by
  by_cases hw : w' = w
  · subst hw
    cases h : opMark id o (exec o (s.dict w')).1 <;> simp [marks, System.perform, h]
  · simp [marks, System.perform, hw, Ne.symm hw]

lemma tallied_perform (h : ∀ w, Tallied id (s.dict w) (marks w id s.log)) {o : Op} (ho : Touch o)
    (w w' : ι) :
    Tallied id ((s.perform w o).dict w') (marks w' id (s.perform w o).log) := by
  rw [marks_perform]
  by_cases hw : w' = w
  · subst hw
    simpa [System.perform] using (h w').exec ho
  · simpa [System.perform, hw] using h w'

/-- An operation that neither reads nor sets the total. -/
lemma alternates_inc {l : List Mark} {o : Op} {r : Reply o} (h : Alternates l)
    (ho : turn id o = none) : Alternates (l ++ (opMark id o r).toList) ∧
      pending (l ++ (opMark id o r).toList) = pending l := by
  rcases opMark_of_turn_none ho with hm | hm
  · rw [hm]
    exact ⟨by simpa using h, by simp⟩
  · rw [hm]
    exact ⟨along_snoc.mpr ⟨h, nofun, nofun⟩, by simp [Mark.pend]⟩

lemma only_op {o : Op} {k : Reply o → Program Rsp} (h : (Prog.op o k).Only Touch) :
    Touch o ∧ ∀ r, (k r).Only Touch := by
  cases h with
  | op ho hk => exact ⟨ho, hk⟩

/-- **A step of a call.** -/
lemma Inv.bid (h : Inv id s) {t : ℕ} {o : Op} {k : Reply o → Program (Tbl QpsInfo)}
    (hk : s.bids t = .op o k) :
    Inv id { s.perform (host t) o with
      bids := Function.update s.bids t (k (exec o (s.dict (host t))).1) } := by
  obtain ⟨htouch, hemits⟩ := h.bids t
  rw [hk] at htouch hemits
  obtain ⟨l', hl, hrest⟩ := hemits.of_op (exec o (s.dict (host t))).1
  obtain ⟨hturn, rfl⟩ : turn id o = none ∧ l' = [] := by simpa using hl.symm
  have hmarks : ∀ w', Alternates (marks w' id (s.perform (host t) o).log) ∧
      pending (marks w' id (s.perform (host t) o).log) = pending (marks w' id s.log) := by
    intro w'
    rw [marks_perform]
    split
    · exact alternates_inc (h.alternates w') hturn
    · simpa using h.alternates w'
  cases htouch with
  | op ho htouch =>
    constructor
    · intro t'
      by_cases ht : t' = t
      · subst ht
        simpa using ⟨htouch _, hrest⟩
      · simpa [ht] using h.bids t'
    · exact h.msgs
    · exact tallied_perform h.tallied ho (host t)
    · exact fun w' => (hmarks w').1
    · exact h.fair
    · intro w'
      have hstage := h.stage w'
      rw [← (hmarks w').2] at hstage
      exact hstage

/-- What a step of a message does to the marks, and to its stage. -/
lemma stage_op {phase : Phase ι} {w : ι} {l : List Mark} {o : Op} {k : Reply o → Program Rsp}
    {r : Reply o} (halt : Alternates l) (h : Stage id phase w (pending l) (.op o k)) :
    Alternates (l ++ (opMark id o r).toList) ∧
      Stage id phase w (pending (l ++ (opMark id o r).toList)) (k r) := by
  -- an operation that the message does not show leaves the stage as it is
  have hquiet : ∀ {c : List Turn}, (Prog.op o k).Emits (turn id) c → turn id o = none →
      (k r).Emits (turn id) c := by
    intro c hc ho
    obtain ⟨c', hc', hr⟩ := hc.of_op r
    rw [ho] at hc'
    exact hc' ▸ hr
  have hsilent : (Prog.op o k).Emits (turn id) [] → turn id o = none := by
    intro hc
    obtain ⟨c', hc', -⟩ := hc.of_op r
    simpa using (List.append_eq_nil_iff.mp hc'.symm).1
  have hshown : ∀ {x : Turn}, (Prog.op o k).Emits (turn id) [x] →
      turn id o = none ∨ turn id o = some x ∧ (k r).Emits (turn id) [] := by
    intro x hc
    obtain ⟨c', hc', hr⟩ := hc.of_op r
    cases ho : turn id o with
    | none => exact .inl rfl
    | some y =>
      rw [ho] at hc'
      simp only [Option.toList_some, List.singleton_append, List.cons.injEq] at hc'
      obtain ⟨rfl, rfl⟩ := hc'
      exact .inr ⟨rfl, hr⟩
  cases phase with
  | idle =>
    obtain ⟨hp, hc⟩ := h
    obtain ⟨halt', hp'⟩ := alternates_inc (r := r) halt (hsilent hc)
    exact ⟨halt', hp'.trans hp, hquiet hc (hsilent hc)⟩
  | reading dspList saxList =>
    rcases h with ⟨hw, hid, hp, hc⟩ | ⟨hp, hc⟩
    · rcases hshown hc with ho | ⟨ho, hr⟩
      · obtain ⟨halt', hp'⟩ := alternates_inc (r := r) halt ho
        exact ⟨halt', .inl ⟨hw, hid, hp'.trans hp, hquiet hc ho⟩⟩
      · obtain ⟨v, hv⟩ := opMark_of_reads (r := r) ho
        rw [hv]
        refine ⟨along_snoc.mpr ⟨halt, fun _ _ => hp, by simp⟩, .inr ⟨?_, hr⟩⟩
        simp [Mark.pend, hw, hid]
    · obtain ⟨halt', hp'⟩ := alternates_inc (r := r) halt (hsilent hc)
      exact ⟨halt', .inr ⟨hp'.trans hp, hquiet hc (hsilent hc)⟩⟩
  | setting saxList =>
    rcases h with ⟨hw, hp, hc⟩ | ⟨hp, hc⟩
    · rcases hshown hc with ho | ⟨ho, hr⟩
      · obtain ⟨halt', hp'⟩ := alternates_inc (r := r) halt ho
        exact ⟨halt', .inl ⟨hw, hp'.trans hp, hquiet hc ho⟩⟩
      · rw [opMark_of_zeroes ho]
        refine ⟨along_snoc.mpr ⟨halt, by simp, fun _ => hp⟩, .inr ⟨?_, hr⟩⟩
        simp [Mark.pend]
    · obtain ⟨halt', hp'⟩ := alternates_inc (r := r) halt (hsilent hc)
      exact ⟨halt', .inr ⟨hp'.trans hp, hquiet hc (hsilent hc)⟩⟩

/-- **A step of a message.** -/
lemma Inv.message (h : Inv id s) {w : ι} {o : Op} {k : Reply o → Program Rsp}
    (hk : s.msgs w = .op o k) :
    Inv id { s.perform w o with
      msgs := Function.update s.msgs w (k (exec o (s.dict w)).1) } := by
  have htouch := h.msgs w
  have hstage := h.stage w
  rw [hk] at htouch hstage
  obtain ⟨ho, hrest⟩ := only_op htouch
  have hop := stage_op (r := (exec o (s.dict w)).1) (h.alternates w) hstage
  constructor
  · exact h.bids
  · intro w'
    by_cases hw : w' = w
    · subst hw
      simpa using hrest _
    · simpa [hw] using h.msgs w'
  · exact tallied_perform h.tallied ho w
  · intro w'
    simp only [marks_perform]
    split
    · next hw => exact hw ▸ hop.1
    · simpa using h.alternates w'
  · exact h.fair
  · intro w'
    simp only [marks_perform]
    by_cases hw : w' = w
    · subst hw
      simpa using hop.2
    · simpa [hw] using h.stage w'

/-- An entry that can expire is no total. -/
lemma Inv.expire (h : Inv id s) {w : ι} {key : Str} {e : Entry}
    (hkey : (s.dict w).entries.get key = some e) (hexp : e.exptime ≠ 0) :
    Inv id { s with dict := Function.update s.dict w (expire key (s.dict w)) } where
  bids := h.bids
  msgs := h.msgs
  tallied w' := by
    by_cases hw : w' = w
    · subst hw
      simpa using (h.tallied w').expire hkey hexp
    · simpa [hw] using h.tallied w'
  alternates := h.alternates
  fair := h.fair
  stage := h.stage

/-- **A round begins.** -/
lemma Inv.begin (h : Inv id s) (hidle : s.phase = .idle) {rows : List Row} {saxList : List ι}
    (hrows : (rows.map Row.id).Nodup) (hne : getDspQpsInfoDB rows ≠ []) :
    Inv id { s with
      phase := .reading (getDspQpsInfoDB rows) saxList
      msgs := fun w => if w ∈ saxList then
          saxUpdateQpsInfo lib GET_DSP_QPS_TOTAL (dspIdStr lib (getDspQpsInfoDB rows)) []
        else s.msgs w } where
  bids := h.bids
  msgs w := by
    simp only
    split
    · exact saxUpdateQpsInfo_touch _ _ _ _
    · exact h.msgs w
  tallied := h.tallied
  alternates := h.alternates
  fair := ⟨hne, rows_nodup hrows⟩
  stage w := by
    have hstage := h.stage w
    rw [hidle] at hstage
    obtain ⟨hp, hc⟩ := hstage
    by_cases hw : w ∈ saxList
    · have hask : Prog.Emits (turn id) (if id ∈ ids (getDspQpsInfoDB rows) then [.reads] else [])
          (saxUpdateQpsInfo lib GET_DSP_QPS_TOTAL (dspIdStr lib (getDspQpsInfoDB rows)) []) :=
        askMsg_emits hne (rows_nodup hrows)
      by_cases hid : id ∈ ids (getDspQpsInfoDB rows)
      · rw [if_pos hid] at hask
        exact .inl ⟨hw, hid, hp, by simpa only [if_pos hw] using hask⟩
      · rw [if_neg hid] at hask
        exact .inr ⟨by simpa [hid] using hp, by simpa only [if_pos hw] using hask⟩
    · exact .inr ⟨by simpa [hw] using hp, by simpa only [if_neg hw] using hc⟩

/-- **Every worker has answered and is told.** -/
lemma Inv.tell (htext : ∀ q, lib.tostring q ≠ []) (h : Inv id s) {dspList : List DspQps}
    {saxList : List ι} (hphase : s.phase = .reading dspList saxList) (draw : ℤ → Draw)
    {rspList : List Rsp} (hrsp : saxList.mapM (fun w => (s.msgs w).result) = some rspList) :
    Inv id { s with
      phase := .setting saxList
      msgs := fun w => if w ∈ saxList then tellMsg lib draw dspList saxList rspList w
        else s.msgs w } where
  bids := h.bids
  msgs w := by
    simp only
    split
    · exact saxUpdateQpsInfo_touch _ _ _ _
    · exact h.msgs w
  tallied := h.tallied
  alternates := h.alternates
  fair := trivial
  stage w := by
    have hfair := h.fair
    have hstage := h.stage w
    rw [hphase] at hfair hstage
    by_cases hw : w ∈ saxList
    · have hdone : (s.msgs w).result.isSome := by
        obtain ⟨rsp, hres⟩ := Loop.mapM_isSome.mp ⟨rspList, hrsp⟩ w hw
        rw [hres]
        rfl
      -- a message that has come to its end has read what it was to read
      have hwaits : pending (marks w id s.log) = decide (id ∈ ids dspList) := by
        rcases hstage with ⟨-, -, -, hc⟩ | ⟨hp, -⟩
        · exact absurd (hc.of_result hdone) (by simp)
        · simpa [hw] using hp
      have htell : Prog.Emits (turn id) (if id ∈ ids dspList then [.zeroes] else [])
          (tellMsg lib draw dspList saxList rspList w) :=
        tellMsg_emits htext draw hfair.1 hfair.2 hw (Loop.mapM_some_length hrsp)
      by_cases hid : id ∈ ids dspList
      · rw [if_pos hid] at htell
        exact .inl ⟨hw, by simpa [hid] using hwaits, by simpa only [if_pos hw] using htell⟩
      · rw [if_neg hid] at htell
        exact .inr ⟨by simpa [hid] using hwaits, by simpa only [if_pos hw] using htell⟩
    · rcases hstage with ⟨hw', -⟩ | ⟨hp, hc⟩
      · exact absurd hw' hw
      · exact .inr ⟨by simpa [hw] using hp, by simpa only [if_neg hw] using hc⟩

lemma Inv.finish (h : Inv id s) {saxList : List ι} (hphase : s.phase = .setting saxList)
    (hdone : ∀ w ∈ saxList, (s.msgs w).result.isSome) : Inv id { s with phase := .idle } where
  bids := h.bids
  msgs := h.msgs
  tallied := h.tallied
  alternates := h.alternates
  fair := trivial
  stage w := by
    have hstage := h.stage w
    rw [hphase] at hstage
    rcases hstage with ⟨hw, -, hc⟩ | hstage
    · exact absurd (hc.of_result (hdone w hw)) (by simp)
    · exact hstage

/-- **One step.** -/
lemma Inv.step (htext : ∀ q, lib.tostring q ≠ []) (h : Inv id s) {a : Act ι}
    (hstep : step lib host s a = some s') : Inv id s' := by
  cases a with
  | bid t =>
    cases hk : s.bids t with
    | ret r => simp [RequestCount.step, hk] at hstep
    | op o k =>
      simp only [RequestCount.step, hk, Option.some.injEq] at hstep
      exact hstep ▸ h.bid hk
  | message w =>
    cases hk : s.msgs w with
    | ret r => simp [RequestCount.step, hk] at hstep
    | op o k =>
      simp only [RequestCount.step, hk, Option.some.injEq] at hstep
      exact hstep ▸ h.message hk
  | expire w key =>
    simp only [RequestCount.step] at hstep
    split at hstep
    · next e hkey =>
      split at hstep
      · next hexp =>
        cases hstep
        exact h.expire hkey hexp
      · cases hstep
    · cases hstep
  | begin rows saxList =>
    simp only [RequestCount.step] at hstep
    split at hstep
    · next hidle =>
      split at hstep
      · next hrows =>
        cases hstep
        exact h.begin hidle hrows.1 hrows.2.2.1
      · cases hstep
    · cases hstep
  | tell draw =>
    simp only [RequestCount.step] at hstep
    split at hstep
    · next dspList saxList hphase =>
      split at hstep
      · next rspList hrsp =>
        cases hstep
        exact h.tell htext hphase draw hrsp
      · cases hstep
    · cases hstep
  | finish =>
    simp only [RequestCount.step] at hstep
    split at hstep
    · next saxList hphase =>
      split at hstep
      · next hdone =>
        cases hstep
        exact h.finish hphase hdone
      · cases hstep
    · cases hstep

lemma inv_start (calls : ℕ → List Str) : Inv id (start calls : System ι) where
  bids _ := ⟨getQpsInfoList_touch _, getQpsInfoList_emits _⟩
  msgs _ := .ret _
  tallied _ := Tallied.empty
  alternates _ := along_nil
  fair := trivial
  stage _ := ⟨rfl, .ret _⟩

lemma inv_run (htext : ∀ q, lib.tostring q ≠ []) {acts : List (Act ι)} (h : Inv id s)
    (hrun : run lib host acts s = some s') : Inv id s' := by
  induction acts generalizing s with
  | nil =>
    cases hrun
    exact h
  | cons a acts ih =>
    rw [run, List.foldlM_cons] at hrun
    obtain ⟨t, ht, hrest⟩ := Option.bind_eq_some_iff.mp hrun
    exact ih (h.step htext ht) hrest

/-- **In every run each increment of a total is read by exactly one round, the first to read it,
exactly when none comes between a round's reading of the total and its reset**, where another
round reads the total after it. -/
theorem counted_once_iff (htext : ∀ q, lib.tostring q ≠ []) {calls : ℕ → List Str}
    {acts : List (Act ι)} (hrun : run lib host acts (start calls) = some s) (w : ι) (id : Str) :
    Exact (marks w id s.log) ↔ Clear (marks w id s.log) := by
  have hinv : Inv id s := inv_run htext (inv_start calls) hrun
  exact exact_iff (hinv.tallied w).honest (hinv.alternates w)

end runs

section samples

/-- DSP 2 with an allowance of 10. -/
def sampleRows : List Row := QpsRound.sampleRows.take 1

/-- One worker goes through a round and reads again, and a call comes after the first reading. -/
def sampleActs : List (Act ℕ) :=
  [.begin sampleRows [0], .message 0, .tell fun _ => .least] ++ List.replicate 5 (.bid 0) ++
    List.replicate 4 (.message 0) ++ [.finish, .begin sampleRows [0], .message 0]

def sampleRun : Option (System ℕ) :=
  run (Ngx.ofTexts []) (fun _ => 0) sampleActs (start fun _ => [lit "2"])

lemma sampleRun_marks : sampleRun.map (fun s => marks 0 (lit "2") s.log) =
    some [.read 0, .inc, .zero, .read 0] := by
  decide +kernel

theorem counted_once_iff_sample : ∃ s, sampleRun = some s ∧
    (Exact (marks 0 (lit "2") s.log) ↔ Clear (marks 0 (lit "2") s.log)) := by
  obtain ⟨s, hs, -⟩ := Option.map_eq_some_iff.mp sampleRun_marks
  exact ⟨s, hs, counted_once_iff (fun q => decimal_ne_nil _) hs 0 (lit "2")⟩

/-- The request is in neither total. -/
theorem request_between_is_lost : ∃ s, sampleRun = some s ∧
    ¬ Exact (marks 0 (lit "2") s.log) := by
  obtain ⟨s, hs, hmarks⟩ := Option.map_eq_some_iff.mp sampleRun_marks
  refine ⟨s, hs, fun h => ?_⟩
  rw [hmarks] at h
  have hlast := h [.read 0, .inc, .zero] (.read 0) [] rfl 0 rfl
  simp [owed, Mark.owe] at hlast

end samples

end Sax.RequestCount
