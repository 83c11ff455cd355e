import Sax.Room

/-!
The answer of the Sina ad engine: `handleQueryRsp` of `rtb.lua` and what it calls.

The answer lists ad units, each with its creatives. A creative either fills its ad unit or
queues it for a preferred deal of the DSP it names. Nothing holds the creatives of a unit
against its room, and a unit is queued whether or not the same answer fills it.
-/

namespace Sax.SinaQuery

open Sax.LuaVal Sax.Loop Sax.Const Sax.Runtime Sax.Store Sax.Extract Sax.WebRtb
open Sax.Room
open Sax.Ledger (Book Sound added)

/-- What the phases of a request share. -/
structure Page where
  adPendList : List Str
  adCreativeList : Creatives
  preDealQueryList : Tbl (List Str)

def isValidRsp (rsp : Rsp) : Bool := rsp.status = HTTP_OK

/-- `ad.id`, used as a key; the engine names ad units by strings. -/
def adId (ad : Val) : Lua Str := do
  match ← field "id" (some ad) with
  | some (.str s) => return s
  | _ => throw .badIndex

/-- The line items are concatenated for the log. -/
def logSinaImpress (lib : Ngx) (value : List Val) : Lua Unit :=
  value.forM fun creative => do
    match ← field "lineitemId" (some creative) with
    | some lineitemId => let _ ← checkString lib.tostring (some lineitemId)
    | none => return ()

/-- `util.isAllowedForPd` -/
def isAllowedForPd (dspWhiteList : Option (List Str)) (dspId : Val) : Lua Bool :=
  match dspWhiteList with
  | some l => .ok (l.any fun id => .str id = dspId)
  | none => .error .badArgument

/-- A value glued to the prefix of a key. -/
def gluedKey (lib : Ngx) : Val → Lua Str
  | .str s => .ok s
  | .num q => .ok (lib.tostring q)
  | .nan => .ok (lit "nan")
  | _ => .error .badConcat

/-- The test on the DSP of a preferred deal; a number is glued to the key of the DSP like a
string, but is on no whitelist. -/
def isDealDsp (lib : Ngx) (d : Dict) (dspWhiteList : Option (List Str)) :
    Option Val → Lua Bool
  | none | some (.bool false) => .ok false
  | some dspId => do
    let key ← gluedKey lib dspId
    if !(← isValid d.dsp key) then return false
    if (← getDspStatus d key) ≠ some OBJECT_STATUS_VALID then return false
    isAllowedForPd dspWhiteList dspId

/-- One round of the loop of `fillAdCreativeListForSina`. -/
def fillCreative (lib : Ngx) (d : Dict) (id : Str) (s : Page) (creative : Val) : Lua Page := do
  let content ← field "content" (some creative)
  if ← next content then
    let type ← item 1 (← field "type" content)
    if type = some (.str PREFERRED_DEAL_TYPE) then
      let dspId ← item 1 (← field "src" content)
      let publisherId ← getPublisher d id
      let resourceId ← getResource d publisherId
      let dspWhiteList ← getPdWhiteList d resourceId
      if ← isDealDsp lib d dspWhiteList dspId then
        match dspId with
        | some (.str dspId) => return { s with preDealQueryList := s.preDealQueryList.push dspId id }
        | _ => return s
      else return s
    else
      let temp ← setField "adId" (← field "lineitemId" (some creative)) (content.getD .null)
      return { s with adCreativeList := fill s.adCreativeList id [temp] }
  else return s

def fillAdCreativeListForSina (lib : Ngx) (d : Dict) (id : Str) (value : List Val) (s : Page) :
    Lua Page :=
  value.foldlM (fillCreative lib d id) { s with adCreativeList := fill s.adCreativeList id [] }

/-- One round of the loop of `handleQueryRsp`. -/
def handleAd (lib : Ngx) (d : Dict) (s : Page) (ad : Val) : Lua Page := do
  let value ← field "value" (some ad)
  if (← len value) ≠ 0 then
    let id ← adId ad
    let s ← fillAdCreativeListForSina lib d id (← ipairs value) s
    logSinaImpress lib (← ipairs value)
    let left ← getLeftAdNum d id s.adCreativeList
    return if left ≤ 0 then { s with adPendList := removeAdFromPendList s.adPendList id } else s
  else return s

def handleQueryRsp (lib : Ngx) (d : Dict) (queryRsp : Rsp) (s : Page) : Lua Page :=
  if isValidRsp queryRsp then
    match lib.decode queryRsp.body with
    | .ok queryResult => do (← ipairs (some queryResult)).foldlM (handleAd lib d) s
    | .error _ => .ok s
  else .ok s

/-! ### What an answer says -/

/-- The ads of an answer. -/
def adsOf (lib : Ngx) (queryRsp : Rsp) : List Val :=
  if isValidRsp queryRsp then
    match lib.decode queryRsp.body with
    | .ok (.table a _) => a
    | _ => []
  else []

/-- The creatives of an ad. -/
def valueOf (ad : Val) : List Val :=
  match ad.get "value" with
  | some (.table a _) => a
  | _ => []

/-- The name of an ad. -/
def idOf (ad : Val) : Option Str :=
  match ad.get "id" with
  | some (.str s) => some s
  | _ => none

/-- `content[k][1]` of a creative. -/
def first (k : String) (creative : Val) : Option Val :=
  match (creative.get "content").bind (Val.get k) with
  | some (.table a _) => a[0]?
  | _ => none

/-- The creative has a content and is none of a preferred deal. -/
def isOrdinary (creative : Val) : Bool :=
  match creative.get "content" with
  | some (.table a h) =>
    !(a.isEmpty && h.isEmpty) && first "type" creative ≠ some (.str PREFERRED_DEAL_TYPE)
  | _ => false

/-- The creative is one of a preferred deal with the DSP. -/
def isDealOf (dspId : Str) (creative : Val) : Bool :=
  first "type" creative = some (.str PREFERRED_DEAL_TYPE) ∧ first "src" creative = some (.str dspId)

/-- The whitelist of preferred deals of an ad unit. -/
def pdWhiteList (d : Dict) (u : Str) : List Str :=
  ((((d.adunit u).bind fun a => d.publisher a.publisher).bind fun p => d.resource p.resource).map
    Resource.pdwhitelist).getD []

/-- The DSP may have a preferred deal on the ad unit. -/
def DealAllowed (d : Dict) (u dspId : Str) : Prop :=
  (∃ r, d.dsp dspId = some r ∧ r.status = OBJECT_STATUS_VALID) ∧ dspId ∈ pdWhiteList d u

instance (d : Dict) (u dspId : Str) : Decidable (DealAllowed d u dspId) :=
  decidable_of_iff (((d.dsp dspId).any fun r => r.status = OBJECT_STATUS_VALID) = true ∧
    dspId ∈ pdWhiteList d u) (by simp [DealAllowed, Option.any_eq_true])

/-- How many ordinary creatives each ad brings to the ad unit it names. -/
def fillsOf (ads : List Val) : List (Str × ℕ) :=
  ads.filterMap fun ad => if valueOf ad = [] then none
    else (idOf ad).map fun id => (id, (valueOf ad).countP isOrdinary)

/-- How many preferred deals with the DSP an answer has on the ad unit. -/
def dealsOn (ads : List Val) (u dspId : Str) : ℕ :=
  ((ads.filter fun ad => idOf ad = some u).map fun ad => (valueOf ad).countP (isDealOf dspId)).sum

/-! ### The steps -/

section steps

variable {lib : Ngx} {d : Dict} {id : Str} {s s' : Page}

/-- The queue of a DSP. -/
def queueOf (s : Page) (dspId : Str) : List Str := (s.preDealQueryList.get dspId).getD []

/-- What handling creatives of the ad unit `id` does to a page, `n` of them ordinary and
`m dspId` of them deals with the DSP. -/
structure Handled (d : Dict) (id : Str) (n : ℕ) (m : Str → ℕ) (s s' : Page) : Prop where
  pend : s'.adPendList = s.adPendList
  used : used s'.adCreativeList = Function.update (used s.adCreativeList) id
    (used s.adCreativeList id + n)
  queue : ∀ dspId, queueOf s' dspId = queueOf s dspId ++
    if DealAllowed d id dspId then List.replicate (m dspId) id else []
  known : ∀ dspId, m dspId ≠ 0 → DealAllowed d id dspId →
    Isolation.HasDsp d dspId ∧ d.HasUnit id
  nonempty : ∀ dspId, s'.preDealQueryList.get dspId = some [] →
    s.preDealQueryList.get dspId = some []

lemma Handled.trans {t : Page} {n n' : ℕ} {m m' : Str → ℕ} (h : Handled d id n m s t)
    (h' : Handled d id n' m' t s') : Handled d id (n + n') (fun dspId => m dspId + m' dspId) s s' := by
  refine ⟨h'.pend.trans h.pend, ?_, fun dspId => ?_, fun dspId hm hallowed => ?_,
    fun dspId hget => h.nonempty dspId (h'.nonempty dspId hget)⟩
  · rw [h'.used, h.used, Function.update_self, Function.update_idem, Nat.add_assoc]
  · rw [h'.queue, h.queue, List.append_assoc]
    by_cases hallowed : DealAllowed d id dspId
    · simp only [hallowed, if_true, List.replicate_append_replicate]
    · simp only [hallowed, if_false, List.append_nil]
  · by_cases h0 : m dspId = 0
    · exact h'.known dspId (by omega) hallowed
    · exact h.known dspId h0 hallowed

lemma get_of_field {k : String} {v w : Val} (h : field k (some v) = .ok (some w)) :
    v.get k = some w := by
  cases v with
  | table a g => exact Except.ok.inj h
  | _ => cases h

lemma first_of_item {k : String} {creative content : Val} {v x : Option Val}
    (hc : creative.get "content" = some content) (hv : field k (some content) = .ok v)
    (hx : item 1 v = .ok x) : first k creative = x := by
  cases content with
  | table a h =>
    cases hv
    rw [first, hc, Option.bind_some, Val.get]
    cases hget : h.lookup (lit k) with
    | none => rw [hget] at hx; cases hx
    | some w =>
      rw [hget] at hx
      cases w <;> cases hx <;> rfl
  | str t => cases hv; cases hx
  | _ => cases hv

lemma pdWhiteList_eq {pub res : Option ℤ} {l : Option (List Str)}
    (hpub : getPublisher d id = .ok pub) (hres : getResource d pub = .ok res)
    (hl : getPdWhiteList d res = .ok l) : d.HasUnit id ∧ pdWhiteList d id = l.getD [] := by
  rw [getPublisher, getAttribute_eq] at hpub
  cases hpub
  cases hu : d.adunit id with
  | none => rw [hu] at hres; cases hres
  | some a =>
    rw [hu] at hres
    cases hres
    cases hp : d.publisher a.publisher with
    | none => rw [hp] at hl; cases hl
    | some p =>
      rw [hp] at hl
      cases hl
      refine ⟨by rw [Dict.HasUnit, hu]; rfl, ?_⟩
      simp only [pdWhiteList, hu, hp, Option.bind_some]

/-- No number is on a whitelist. -/
lemma isAllowedForPd_str {v : Val} {l : Option (List Str)} (h : isAllowedForPd l v = .ok true) :
    ∃ t, v = .str t := by
  cases l with
  | none => cases h
  | some l =>
    simp only [isAllowedForPd, Except.ok.injEq, List.any_eq_true, decide_eq_true_eq] at h
    obtain ⟨t, -, ht⟩ := h
    exact ⟨t, ht.symm⟩

lemma isDealDsp_str {v : Val} {l : Option (List Str)} (h : isDealDsp lib d l (some v) = .ok true) :
    ∃ t, v = .str t := by
  unfold isDealDsp at h
  split at h
  · cases h
  · cases h
  · next w hw =>
    cases hw
    obtain ⟨key, -, h⟩ := bind_ok.mp h
    obtain ⟨valid, -, h⟩ := bind_ok.mp h
    split at h
    · cases h
    obtain ⟨status, -, h⟩ := bind_ok.mp h
    split at h
    · cases h
    exact isAllowedForPd_str h

/-- A deal the program queues is allowed, with a DSP and an ad unit the dictionary knows. -/
lemma isDealDsp_spec {dspId : Option Val} {l : Option (List Str)} {b : Bool}
    (hl : pdWhiteList d id = l.getD []) (h : isDealDsp lib d l dspId = .ok b) :
    (∀ t, dspId = some (.str t) → (b = true ↔ DealAllowed d id t)) ∧
      (b = true → ∃ t, dspId = some (.str t) ∧ Isolation.HasDsp d t) := by
  cases dspId with
  | none => cases h; simp
  | some v =>
    cases v with
    | str t =>
      simp only [isDealDsp, gluedKey, ok_bind] at h
      rw [isValid_eq, ok_bind, getDspStatus, getAttribute_eq, ok_bind] at h
      simp only [Option.some.injEq, Val.str.injEq, forall_eq']
      cases hd : d.dsp t with
      | none =>
        rw [hd] at h
        cases h
        simp [DealAllowed, hd]
      | some r =>
        simp only [hd, Option.isSome_some, Bool.not_true, Bool.false_eq_true, if_false,
          Option.map_some, ne_eq, Option.some.injEq] at h
        by_cases hs : r.status = OBJECT_STATUS_VALID
        · simp only [hs, not_true_eq_false, if_false, isAllowedForPd] at h
          cases l with
          | none => cases h
          | some l =>
            cases h
            refine ⟨?_, fun _ => ⟨t, rfl, by rw [Isolation.HasDsp, hd]; rfl⟩⟩
            simp [DealAllowed, hd, hs, hl]
        · simp only [hs, not_false_eq_true, if_true] at h
          cases h
          simp [DealAllowed, hd, hs]
    | _ =>
      refine ⟨fun t ht => by simp at ht, fun hb => ?_⟩
      subst hb
      obtain ⟨t, ht⟩ := isDealDsp_str h
      cases ht

/-- A creative that is passed over: it is empty, or one of a deal that is not allowed. -/
lemma handled_skip {creative : Val} (hord : isOrdinary creative = false)
    (hdeal : ∀ t, isDealOf t creative = true → ¬ DealAllowed d id t) :
    Handled d id (if isOrdinary creative then 1 else 0)
      (fun dspId => if isDealOf dspId creative then 1 else 0) s s := by
  simp only [hord, Bool.false_eq_true, if_false]
  refine ⟨rfl, by simp, fun t => ?_, fun t hm hallow => ?_, fun _ hget => hget⟩
  · by_cases ht : isDealOf t creative = true
    · simp [hdeal t ht]
    · simp [ht]
  · have ht : isDealOf t creative = true := by
      by_contra hno
      simp [hno] at hm
    exact absurd hallow (hdeal t ht)

/-- A creative of a preferred deal that is allowed. -/
lemma handled_deal {creative : Val} {t : Str} (hord : isOrdinary creative = false)
    (hdeal : ∀ t', isDealOf t' creative = true ↔ t' = t) (hallow : DealAllowed d id t)
    (hknown : Isolation.HasDsp d t ∧ d.HasUnit id) :
    Handled d id (if isOrdinary creative then 1 else 0)
      (fun dspId => if isDealOf dspId creative then 1 else 0) s
      { s with preDealQueryList := s.preDealQueryList.push t id } := by
  simp only [hord, Bool.false_eq_true, if_false]
  refine ⟨rfl, by simp, fun t' => ?_, fun t' hm _ => ?_, fun t' hget => ?_⟩
  · by_cases ht : t' = t
    · subst ht
      simp only [queueOf, Tbl.get_push, Option.getD_some, hallow, if_true, hdeal]
      rfl
    · have hno : isDealOf t' creative = false := by
        rw [Bool.eq_false_iff, ne_eq, hdeal]
        exact ht
      simp [queueOf, Tbl.get_push_ne _ _ _ ht, hno]
  · have ht : isDealOf t' creative = true := by
      by_contra hno
      simp [hno] at hm
    cases (hdeal t').mp ht
    exact hknown
  · by_cases ht : t' = t
    · subst ht
      simp at hget
    · rwa [Tbl.get_push_ne _ _ _ ht] at hget

/-- An ordinary creative. -/
lemma handled_fill {creative temp : Val} (hord : isOrdinary creative = true)
    (hdeal : ∀ t, isDealOf t creative = false) :
    Handled d id (if isOrdinary creative then 1 else 0)
      (fun dspId => if isDealOf dspId creative then 1 else 0) s
      { s with adCreativeList := fill s.adCreativeList id [temp] } := by
  simp only [hord, hdeal, if_true, Bool.false_eq_true, if_false]
  exact ⟨rfl, used_fill _ _, fun t => by simp [queueOf], fun _ h => absurd rfl h,
    fun _ hget => hget⟩

/-- Step lemma: one creative. -/
lemma fillCreative_handled {creative : Val} (h : fillCreative lib d id s creative = .ok s') :
    Handled d id (if isOrdinary creative then 1 else 0)
      (fun dspId => if isDealOf dspId creative then 1 else 0) s s' := by
  obtain ⟨content, hcontent, h⟩ := bind_ok.mp h
  obtain ⟨b, hb, h⟩ := bind_ok.mp h
  obtain ⟨a, g, rfl⟩ : ∃ a g, content = some (.table a g) := by
    rcases content with _ | content
    · cases hb
    · cases content <;> first | exact ⟨_, _, rfl⟩ | cases hb
  cases hb
  have hget := get_of_field hcontent
  by_cases hempty : (a.isEmpty && g.isEmpty) = true
  · -- an empty content is passed over
    rw [Bool.and_eq_true, List.isEmpty_iff, List.isEmpty_iff] at hempty
    obtain ⟨rfl, rfl⟩ := hempty
    simp only [List.isEmpty_nil, Bool.and_self, Bool.not_true, Bool.false_eq_true, if_false] at h
    cases h
    have hfirst : first "type" creative = none := by rw [first, hget]; rfl
    exact handled_skip (by simp [isOrdinary, hget]) fun t ht => by simp [isDealOf, hfirst] at ht
  simp only [hempty, Bool.not_false, if_true] at h
  obtain ⟨v, hv, h⟩ := bind_ok.mp h
  obtain ⟨type, htype, h⟩ := bind_ok.mp h
  have hfirst : first "type" creative = type := first_of_item hget hv htype
  split at h
  · next hpd =>
    -- a preferred deal
    obtain ⟨w, hw, h⟩ := bind_ok.mp h
    obtain ⟨dspId, hdsp, h⟩ := bind_ok.mp h
    obtain ⟨pub, hpub, h⟩ := bind_ok.mp h
    obtain ⟨res, hres, h⟩ := bind_ok.mp h
    obtain ⟨l, hl, h⟩ := bind_ok.mp h
    obtain ⟨b, hb, h⟩ := bind_ok.mp h
    have hsrc : first "src" creative = dspId := first_of_item hget hw hdsp
    obtain ⟨hunit, hpdl⟩ := pdWhiteList_eq hpub hres hl
    obtain ⟨hallowed, hknown⟩ := isDealDsp_spec hpdl hb
    have hord : isOrdinary creative = false := by simp [isOrdinary, hget, hfirst, hpd]
    have hdeal : ∀ t, isDealOf t creative = true ↔ dspId = some (.str t) := by
      intro t
      simp [isDealOf, hfirst, hpd, hsrc]
    cases b with
    | true =>
      obtain ⟨t, rfl, hdspt⟩ := hknown rfl
      cases h
      refine handled_deal hord (fun t' => ?_) ((hallowed t rfl).mp rfl) ⟨hdspt, hunit⟩
      rw [hdeal, Option.some.injEq, Val.str.injEq, eq_comm]
    | false =>
      cases h
      refine handled_skip hord fun t ht hallow => ?_
      simpa using (hallowed t ((hdeal t).mp ht)).mpr hallow
  · next hpd =>
    -- an ordinary creative
    obtain ⟨lineitemId, hline, h⟩ := bind_ok.mp h
    obtain ⟨temp, htemp, h⟩ := bind_ok.mp h
    cases h
    refine handled_fill (by simp [isOrdinary, hget, hfirst, hpd, hempty]) fun t => ?_
    simp [isDealOf, hfirst, hpd]

/-- Run lemma: the creatives of an ad. -/
lemma fillAdCreativeListForSina_handled {value : List Val}
    (h : fillAdCreativeListForSina lib d id value s = .ok s') :
    Handled d id (value.countP isOrdinary) (fun dspId => value.countP (isDealOf dspId)) s s' := by
  have hstart : Handled d id 0 (fun _ => 0) s
      { s with adCreativeList := fill s.adCreativeList id [] } :=
    ⟨rfl, used_fill _ _, fun _ => by simp [queueOf], fun _ h => absurd rfl h, fun _ hget => hget⟩
  have hrun := foldlM_prefix
    (P := fun done t => Handled d id (done.countP isOrdinary)
      (fun dspId => done.countP (isDealOf dspId)) s t) (d := []) ?_ hstart h
  · exact hrun
  · intro done creative t t' _ ht hstep
    have hsum := ht.trans (fillCreative_handled hstep)
    simpa only [List.countP_append, List.countP_singleton] using hsum

/-- Step lemma: an ad without creatives is passed over, any other is handled and then taken off
the pending list if it is full. -/
lemma handleAd_spec {ad : Val} (h : handleAd lib d s ad = .ok s') :
    valueOf ad = [] ∧ s' = s ∨ valueOf ad ≠ [] ∧ ∃ id t left, idOf ad = some id ∧
      Handled d id ((valueOf ad).countP isOrdinary) (fun dspId => (valueOf ad).countP (isDealOf dspId))
        s t ∧
      getLeftAdNum d id t.adCreativeList = .ok left ∧
      s' = { t with adPendList :=
        if left ≤ 0 then removeAdFromPendList t.adPendList id else t.adPendList } := by
  obtain ⟨value, hvalue, h⟩ := bind_ok.mp h
  obtain ⟨n, hn, h⟩ := bind_ok.mp h
  split at h
  · next hne =>
    obtain ⟨id, hid, h⟩ := bind_ok.mp h
    obtain ⟨l, hl, h⟩ := bind_ok.mp h
    obtain ⟨t, ht, h⟩ := bind_ok.mp h
    obtain ⟨_, -, h⟩ := bind_ok.mp h
    obtain ⟨_, -, h⟩ := bind_ok.mp h
    obtain ⟨left, hleft, hend⟩ := bind_ok.mp h
    rw [pure_ok] at hend
    obtain ⟨g, rfl⟩ := ipairs_ok.mp hl
    have hget : valueOf ad = l := by rw [valueOf, get_of_field hvalue]
    have hidOf : idOf ad = some id := by
      obtain ⟨v, hv, hid⟩ := bind_ok.mp hid
      split at hid
      · cases hid; rw [idOf, get_of_field hv]
      · cases hid
    refine .inr ⟨?_, id, t, left, hidOf, ?_, hleft, ?_⟩
    · rintro hnil
      cases hn
      simp [← hget, hnil] at hne
    · rw [hget]
      exact fillAdCreativeListForSina_handled ht
    · rw [← hend]
      split <;> rfl
  · next hzero =>
    cases h
    refine .inl ⟨?_, rfl⟩
    rcases value with _ | value
    · cases hn
    · rw [valueOf, get_of_field hvalue]
      cases value with
      | table a g =>
        cases hn
        simpa using hzero
      | _ => rfl

lemma fillsOf_snoc (ads : List Val) (ad : Val) : fillsOf (ads ++ [ad]) = fillsOf ads ++ fillsOf [ad] := by
  rw [fillsOf, List.filterMap_append]
  rfl

lemma dealsOn_snoc (ads : List Val) (ad : Val) (u dspId : Str) :
    dealsOn (ads ++ [ad]) u dspId = dealsOn ads u dspId +
      if idOf ad = some u then (valueOf ad).countP (isDealOf dspId) else 0 := by
  unfold dealsOn
  by_cases h : idOf ad = some u <;> simp [List.filter_append, h]

/-- **What an answer leaves**: the book is filled by the ordinary creatives of its ads, each
queue holds a unit once for each allowed deal on it, and all that is queued is known. -/
structure Answered (d : Dict) (ads : List Val) (s s' : Page) : Prop where
  book : book s'.adPendList s'.adCreativeList =
    (book s.adPendList s.adCreativeList).fills (capacity d) (fillsOf ads)
  queue : ∀ dspId u, (queueOf s' dspId).count u = (queueOf s dspId).count u +
    if DealAllowed d u dspId then dealsOn ads u dspId else 0
  known : ∀ dspId, ∀ u ∈ queueOf s' dspId, u ∈ queueOf s dspId ∨
    Isolation.HasDsp d dspId ∧ d.HasUnit u
  nonempty : ∀ dspId, s'.preDealQueryList.get dspId = some [] →
    s.preDealQueryList.get dspId = some []

lemma answered_nil (s : Page) : Answered d [] s s :=
  ⟨rfl, fun _ _ => by simp [dealsOn], fun _ _ h => .inl h, fun _ hget => hget⟩

lemma Answered.snoc {ads : List Val} {ad : Val} {t : Page} (h : Answered d ads s t)
    (hstep : handleAd lib d t ad = .ok s') : Answered d (ads ++ [ad]) s s' := by
  rcases handleAd_spec hstep with ⟨hnil, rfl⟩ | ⟨hne, id, r, left, hid, hr, hleft, rfl⟩
  · have hfills : fillsOf [ad] = [] := by simp [fillsOf, hnil]
    refine ⟨by rw [h.book, fillsOf_snoc, hfills, List.append_nil], fun dspId u => ?_, h.known,
      h.nonempty⟩
    rw [h.queue, dealsOn_snoc, hnil]
    simp
  · have hfills : fillsOf [ad] = [(id, (valueOf ad).countP isOrdinary)] := by
      simp [fillsOf, hne, hid]
    refine ⟨?_, fun dspId u => ?_, fun dspId u hu => ?_,
      fun dspId hget => h.nonempty dspId (hr.nonempty dspId hget)⟩
    · rw [fillsOf_snoc, hfills, Book.fills_snoc, ← h.book, ← hr.pend]
      exact book_fill hr.used hleft
    · have hq := hr.queue dspId
      rw [dealsOn_snoc, hid]
      change (queueOf r dspId).count u = _
      rw [hq, List.count_append, h.queue, Nat.add_assoc]
      congr 1
      by_cases hu : id = u
      · subst hu
        by_cases hallow : DealAllowed d id dspId <;> simp [hallow]
      · have hcount : (if DealAllowed d id dspId then
            List.replicate ((valueOf ad).countP (isDealOf dspId)) id else []).count u = 0 := by
          refine List.count_eq_zero.mpr fun hmem => hu ?_
          split at hmem
          · exact (List.eq_of_mem_replicate hmem).symm
          · cases hmem
        rw [hcount]
        simp [hu]
    · change u ∈ queueOf r dspId at hu
      rw [hr.queue, List.mem_append] at hu
      rcases hu with hu | hu
      · exact h.known dspId u hu
      · split at hu
        · next hallow =>
          obtain ⟨hm, rfl⟩ := List.mem_replicate.mp hu
          exact .inr (hr.known dspId hm hallow)
        · cases hu

/-- **The answer of the Sina ad engine, handled.** -/
theorem handleQueryRsp_answered {queryRsp : Rsp} (h : handleQueryRsp lib d queryRsp s = .ok s') :
    Answered d (adsOf lib queryRsp) s s' := by
  unfold handleQueryRsp at h
  unfold adsOf
  split at h
  · next hvalid =>
    rw [if_pos hvalid]
    split at h
    · next v hv =>
      obtain ⟨ads, hads, h⟩ := bind_ok.mp h
      obtain ⟨g, hg⟩ := ipairs_ok.mp hads
      cases hg
      rw [hv]
      exact foldlM_prefix (P := fun done t => Answered d done s t) (d := [])
        (fun done ad t t' _ ht hstep => ht.snoc hstep) (answered_nil s) h
    · next e he =>
      cases h
      rw [he]
      exact answered_nil s
  · next hvalid =>
    cases h
    rw [if_neg hvalid]
    exact answered_nil s

end steps

end Sax.SinaQuery
