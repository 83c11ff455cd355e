import Sax.Capacity

/-!
What the bid requests of a run offer.

A request repeats an ad unit when the ad request does, when a whitelist repeats the DSP, or
when the Sina answer has two deals with the DSP on the unit; and it offers a unit without room
when the answer that queued the unit also filled it, or the ad number is not positive.
-/

namespace Sax.OfferedOnce

open Sax.LuaVal Sax.Loop Sax.Const Sax.Runtime Sax.Store Sax.WebRtb Sax.SinaQuery Sax.Impress
open Sax.Room Sax.Ledger Sax.Capacity
open Sax.Isolation (HasDsp Known)
open Sax.BidRsp (Ctx)
open Sax.Extract (Rsp)

/-- Each bid request lists each ad unit at most once, with room for a creative at least. -/
def OffersOnce (reqs : List (Str × BidReq)) : Prop :=
  ∀ r ∈ reqs, (r.2.body.ad_unit.map AdUnitReq.id).Nodup ∧
    ∀ t ∈ r.2.body.ad_unit, 1 ≤ t.creative_num

/-- The phase of preferred deals of a run emits `reqs`: `s` is the page after the Sina ad engine
answered, `query` what the QPS check leaves of its queues. -/
def PreDealEmits (x : Request) (valid : List Str) (s : Page) (query : Tbl (List Str))
    (reqs : List (Str × BidReq)) : Prop :=
  getAdData x.dict x.adReq.adUnitIdList = .ok valid ∧ querySina x valid = .ok s ∧
    getPreDealQueryList x.preDeal s = .ok query ∧
    buildBidReq (x.ctx .preferredDeal x.preDeal) x.preDeal.order query s.adCreativeList = .ok reqs

/-- The open auction of a run emits `reqs`: `st` is what the preferred deals left. -/
def OpenEmits (x : Request) (valid : List Str) (st : Stage) (query : Tbl (List Str))
    (reqs : List (Str × BidReq)) : Prop :=
  ∃ s preDealQuery, getAdData x.dict x.adReq.adUnitIdList = .ok valid ∧ querySina x valid = .ok s ∧
    getPreDealQueryList x.preDeal s = .ok preDealQuery ∧
    launch x .preferredDeal x.preDeal preDealQuery s [] = .ok st ∧
    getDspQueryList x.dict x.openAuction st.page.adPendList = .ok query ∧
    buildBidReq (x.ctx .openAuction x.openAuction) x.openAuction.order query
      st.page.adCreativeList = .ok reqs

/-! ### From queries to requests -/

section build

variable {c : Ctx} {o : Order} {query q : Tbl (List Str)} {adCreativeList : Creatives}
  {reqs : List (Str × BidReq)} {d : Dict}

lemma adUnitReq_room {u : Str} {t : AdUnitReq} (h : adUnitReq c adCreativeList u = .ok t) :
    t.creative_num = capacity c.dict u - used adCreativeList u := by
  obtain ⟨_, -, h⟩ := bind_ok.mp h
  obtain ⟨_, -, h⟩ := bind_ok.mp h
  obtain ⟨_, -, h⟩ := bind_ok.mp h
  obtain ⟨left, hleft, h⟩ := bind_ok.mp h
  obtain ⟨_, -, h⟩ := bind_ok.mp h
  obtain ⟨_, -, h⟩ := bind_ok.mp h
  cases h
  exact (getLeftAdNum_eq hleft).2

/-- **The requests offer once what the query holds once and with room.** -/
lemma offersOnce_iff (h : buildBidReq c o query adCreativeList = .ok reqs) :
    OffersOnce reqs ↔ ∀ dspId units, query.get dspId = some units →
      units.Nodup ∧ ∀ u ∈ units, (used adCreativeList u : ℤ) < capacity c.dict u := by
  have hreq : ∀ (e : Sigma fun _ : Str => List Str) r, bidReq c adCreativeList e.1 e.2 = .ok r →
      (((r.2.body.ad_unit.map AdUnitReq.id).Nodup ∧ ∀ t ∈ r.2.body.ad_unit, 1 ≤ t.creative_num) ↔
        e.2.Nodup ∧ ∀ u ∈ e.2, (used adCreativeList u : ℤ) < capacity c.dict u) := by
    intro e r hr
    obtain ⟨-, hunits⟩ := Offered.bidReq_ok hr
    rw [mapM_map (fun u t => Offered.adUnitReq_id) hunits]
    refine and_congr_right fun _ => ⟨fun hroom u hu => ?_, fun hroom t ht => ?_⟩
    · obtain ⟨t, ht, hok⟩ := mem_mapM hunits hu
      have hnum := hroom t ht
      rw [adUnitReq_room hok] at hnum
      omega
    · obtain ⟨u, hu, hok⟩ := mapM_mem hunits ht
      have hnum := hroom u hu
      rw [adUnitReq_room hok]
      omega
  constructor
  · intro hoffers dspId units hget
    obtain ⟨r, hr, hok⟩ := mem_mapM h (o.mem_pairs.mpr hget)
    exact (hreq ⟨dspId, units⟩ r hok).mp (hoffers r hr)
  · intro hquery r hr
    obtain ⟨e, he, hok⟩ := mapM_mem h hr
    exact (hreq e r hok).mpr (hquery e.1 e.2 (o.mem_pairs.mp he))

/-- The QPS check only takes DSPs off the query. -/
lemma checkDspQps_get {qpsList : Tbl Qps.QpsInfo} (h : Qps.checkDspQps o qpsList q = .ok query)
    {dspId : Str} {units : List Str} (hget : query.get dspId = some units) :
    q.get dspId = some units := by
  refine foldlM_inv (P := fun t : Tbl (List Str) => t.get dspId = some units → q.get dspId = some units)
    ?_ (fun h => h) h hget
  intro t k t' _ ht hstep
  unfold Qps.dropOver at hstep
  split at hstep
  · obtain ⟨b, -, hstep⟩ := bind_ok.mp hstep
    cases b with
    | true => cases hstep; exact ht
    | false =>
      cases hstep
      intro hget
      by_cases hk : dspId = k
      · subst hk
        simp [Tbl.get] at hget
      · exact ht (by rwa [Tbl.get, AList.lookup_erase_ne hk] at hget)
  · cases hstep

/-! ### The query of the open auction -/

/-- The whitelist of an ad unit. -/
def whiteDspList (d : Dict) (u : Str) : List Str :=
  ((((d.adunit u).bind fun a => d.publisher a.publisher).bind fun p => d.resource p.resource).map
    Resource.dspwhitelist).getD []

/-- The DSP is present and valid. -/
def DspValid (d : Dict) (dspId : Str) : Prop :=
  ∃ r, d.dsp dspId = some r ∧ r.status = OBJECT_STATUS_VALID

instance (d : Dict) (dspId : Str) : Decidable (DspValid d dspId) :=
  decidable_of_iff (((d.dsp dspId).any fun r => r.status = OBJECT_STATUS_VALID) = true)
    (by simp [DspValid, Option.any_eq_true])

/-- What a query holds once the ad units `done` are entered. -/
structure Entered (d : Dict) (done : List Str) (t : Tbl (List Str)) : Prop where
  count : ∀ dspId u, ((t.get dspId).getD []).count u =
    if DspValid d dspId then done.count u * (whiteDspList d u).count dspId else 0
  dsp : ∀ dspId, (t.get dspId).isSome → DspValid d dspId ∧ HasDsp d dspId

/-- Step lemma: one DSP of a whitelist. -/
lemma queryDsp_spec {u dspId : Str} {t t' : Tbl (List Str)}
    (h : queryDsp d u t dspId = .ok t') :
    t' = if DspValid d dspId then t.push dspId u else t := by
  rw [queryDsp, isValid_eq, ok_bind, getDspStatus, getAttribute_eq, ok_bind] at h
  cases hd : d.dsp dspId with
  | none =>
    rw [hd] at h
    cases h
    simp [DspValid, hd]
  | some r =>
    simp only [hd, Option.isSome_some, Bool.not_true, Bool.false_eq_true, if_false, Option.map_some,
      Option.some.injEq, pure_ok] at h
    rw [← h]
    simp only [DspValid, hd, Option.some.injEq, exists_eq_left']

lemma whiteDspList_eq {u : Str} {pub res : Option ℤ} {l : List Str}
    (hpub : getPublisher d u = .ok pub) (hres : getResource d pub = .ok res)
    (hl : getWhiteDspList d res = .ok (some l)) : whiteDspList d u = l := by
  rw [getPublisher, getAttribute_eq] at hpub
  cases hpub
  cases ha : d.adunit u with
  | none => rw [ha] at hres; cases hres
  | some a =>
    rw [ha] at hres
    cases hres
    cases hp : d.publisher a.publisher with
    | none => rw [hp] at hl; cases hl
    | some p =>
      rw [hp] at hl
      simp only [whiteDspList, ha, hp, Option.bind_some]
      rw [Except.ok.inj hl]
      rfl

/-- One ad unit enters the query once for each time its whitelist names a valid DSP. -/
lemma Entered.unit {done : List Str} {t t' : Tbl (List Str)} {u : Str} (ht : Entered d done t)
    (h : queryUnit d t u = .ok t') : Entered d (done ++ [u]) t' := by
  obtain ⟨pub, hpub, h⟩ := bind_ok.mp h
  obtain ⟨res, hres, h⟩ := bind_ok.mp h
  obtain ⟨l, hl, h⟩ := bind_ok.mp h
  cases l with
  | none => cases h
  | some l =>
    have hrun := foldlM_prefix (P := fun dsps (r : Tbl (List Str)) =>
        (∀ dspId v, ((r.get dspId).getD []).count v = ((t.get dspId).getD []).count v +
          if DspValid d dspId ∧ v = u then dsps.count dspId else 0) ∧
        ∀ dspId, (r.get dspId).isSome → DspValid d dspId ∧ HasDsp d dspId)
      (d := []) ?_ ⟨by simp, ht.dsp⟩ h
    · obtain ⟨hcount, hdsp⟩ := hrun
      rw [List.nil_append] at hcount
      refine ⟨fun dspId v => ?_, hdsp⟩
      rw [hcount, ht.count, List.count_append, List.count_singleton]
      by_cases hvalid : DspValid d dspId
      · by_cases hv : v = u
        · subst hv
          simp only [hvalid, true_and, if_true, beq_self_eq_true, whiteDspList_eq hpub hres hl]
          rw [Nat.add_mul, Nat.one_mul]
        · have hb : (u == v) = false := by simpa using Ne.symm hv
          simp [hvalid, hv, hb]
      · simp [hvalid]
    · rintro dsps dspId r r' _ ⟨hcount, hdsp⟩ hstep
      obtain rfl := queryDsp_spec hstep
      by_cases hvalid : DspValid d dspId
      · simp only [hvalid, if_true]
        refine ⟨fun k v => ?_, fun k hsome => ?_⟩
        · by_cases hkey : k = dspId
          · subst hkey
            rw [Tbl.get_push, Option.getD_some, List.count_append, hcount]
            by_cases hv : v = u
            · subst hv
              simp [hvalid, Nat.add_assoc]
            · simp [hv, Ne.symm hv]
          · rw [Tbl.get_push_ne _ _ _ hkey, hcount, List.count_append]
            have hb : (dspId == k) = false := by simpa using Ne.symm hkey
            simp [List.count_singleton, hb]
        · by_cases hkey : k = dspId
          · subst hkey
            obtain ⟨row, hrow, -⟩ := id hvalid
            exact ⟨hvalid, by rw [HasDsp, hrow]; rfl⟩
          · rw [Tbl.get_push_ne _ _ _ hkey] at hsome
            exact hdsp k hsome
      · simp only [hvalid, if_false]
        refine ⟨fun k v => ?_, hdsp⟩
        rw [hcount, List.count_append]
        by_cases hkey : k = dspId
        · subst hkey
          simp [hvalid]
        · have hb : (dspId == k) = false := by simpa using Ne.symm hkey
          simp [List.count_singleton, hb]

end build

/-! ### The two phases of a run -/

section run

variable {x : Request} {valid : List Str} {s : Page} {st : Stage} {query : Tbl (List Str)}
  {reqs : List (Str × BidReq)}

/-- **No unit is queued twice, and none without room**, for the DSPs `query` keeps: the Sina
answer has at most one allowed deal with a DSP on a unit, and fewer ordinary creatives on a
unit it queues than the unit may carry. -/
def DealsOnce (x : Request) (query : Tbl (List Str)) : Prop :=
  ∀ dspId, (query.get dspId).isSome → ∀ u, DealAllowed x.dict u dspId →
    dealsOn (adsOf x.lib x.sina) u dspId ≠ 0 →
      dealsOn (adsOf x.lib x.sina) u dspId = 1 ∧
        (added u (fillsOf (adsOf x.lib x.sina)) : ℤ) < capacity x.dict u

/-- **Every pending unit was requested once and may carry a creative**, if a DSP that `query`
keeps is on its whitelist, and stands there once. -/
def PendingOnce (x : Request) (valid pending : List Str) (query : Tbl (List Str)) : Prop :=
  ∀ dspId, (query.get dspId).isSome → ∀ u ∈ pending, dspId ∈ whiteDspList x.dict u →
    valid.count u = 1 ∧ 0 < capacity x.dict u ∧ (whiteDspList x.dict u).count dspId = 1

/-- What the page holds after the Sina ad engine, if some DSP has a preferred deal. -/
lemma querySina_queue (h : querySina x valid = .ok s) {dspId u : Str} (hu : u ∈ queueOf s dspId) :
    Answered x.dict (adsOf x.lib x.sina) ⟨valid, ∅, ∅⟩ s := by
  rcases querySina_spec h with ⟨-, hans⟩ | ⟨-, rfl⟩
  · exact hans
  · simp [queueOf] at hu

lemma preDeal_once_iff (h : PreDealEmits x valid s query reqs) :
    OffersOnce reqs ↔ DealsOnce x query := by
  obtain ⟨-, hsina, hquery, hreqs⟩ := h
  rw [offersOnce_iff hreqs]
  change (∀ dspId units, query.get dspId = some units → units.Nodup ∧
    ∀ u ∈ units, (used s.adCreativeList u : ℤ) < capacity x.dict u) ↔ _
  have hunits : ∀ dspId units, query.get dspId = some units → queueOf s dspId = units := by
    intro dspId units hget
    rw [queueOf, checkDspQps_get hquery hget]
    rfl
  have hcount : Answered x.dict (adsOf x.lib x.sina) ⟨valid, ∅, ∅⟩ s → ∀ dspId u,
      (queueOf s dspId).count u =
        if DealAllowed x.dict u dspId then dealsOn (adsOf x.lib x.sina) u dspId else 0 := by
    intro hans dspId u
    rw [hans.queue]
    simp [queueOf]
  constructor
  · intro honce dspId hsome u hallow hdeals
    obtain ⟨units, hget⟩ := Option.isSome_iff_exists.mp hsome
    obtain ⟨hnodup, hroom⟩ := honce dspId units hget
    rw [← hunits dspId units hget] at hnodup hroom
    rcases querySina_spec hsina with ⟨-, hans⟩ | ⟨-, rfl⟩
    · have hc := hcount hans dspId u
      rw [if_pos hallow] at hc
      have hle := List.nodup_iff_count_le_one.mp hnodup u
      have hmem : u ∈ queueOf s dspId := List.count_pos_iff.mp (by omega)
      exact ⟨by omega, answered_used hans u ▸ hroom u hmem⟩
    · have hempty := checkDspQps_get hquery hget
      simp at hempty
  · intro hdeals dspId units hget
    rw [← hunits dspId units hget]
    have hone : ∀ u ∈ queueOf s dspId, (queueOf s dspId).count u = 1 ∧
        (used s.adCreativeList u : ℤ) < capacity x.dict u := by
      intro u hu
      have hans := querySina_queue hsina hu
      have hc := hcount hans dspId u
      have hpos : 0 < (queueOf s dspId).count u := List.count_pos_iff.mpr hu
      split at hc
      · next hallow =>
        obtain ⟨h1, h2⟩ := hdeals dspId (by rw [hget]; rfl) u hallow (by omega)
        exact ⟨hc.trans h1, answered_used hans u ▸ h2⟩
      · omega
    exact ⟨List.nodup_iff_count_eq_one.mpr fun u hu => (hone u hu).1, fun u hu => (hone u hu).2⟩

lemma getDspQueryList_spec {input : PhaseInput} {pending : List Str}
    (h : getDspQueryList x.dict input pending = .ok query) :
    ∃ q, Entered x.dict pending q ∧ Qps.checkDspQps input.order input.qpsList q = .ok query := by
  obtain ⟨q, hq, h⟩ := bind_ok.mp h
  refine ⟨q, ?_, h⟩
  exact foldlM_prefix (P := Entered x.dict) (d := []) (fun done u t t' _ ht hstep => ht.unit hstep)
    ⟨by simp, by simp⟩ hq

lemma open_once_iff (h : OpenEmits x valid st query reqs) :
    OffersOnce reqs ↔ PendingOnce x valid st.page.adPendList query := by
  obtain ⟨s, preDealQuery, -, hsina, -, hdeal, hquery, hreqs⟩ := h
  have hsound := preDeal_sound hsina hdeal
  obtain ⟨q, hq, hcheck⟩ := getDspQueryList_spec hquery
  rw [offersOnce_iff hreqs]
  change (∀ dspId units, query.get dspId = some units → units.Nodup ∧
    ∀ u ∈ units, (used st.page.adCreativeList u : ℤ) < capacity x.dict u) ↔ _
  have hcount : ∀ dspId units, query.get dspId = some units → ∀ u,
      units.count u = st.page.adPendList.count u * (whiteDspList x.dict u).count dspId := by
    intro dspId units hget u
    have hqget := checkDspQps_get hcheck hget
    have hc := hq.count dspId u
    rw [hqget, if_pos (hq.dsp dspId (by rw [hqget]; rfl)).1] at hc
    exact hc
  constructor
  · intro honce dspId hsome u hu hwhite
    obtain ⟨units, hget⟩ := Option.isSome_iff_exists.mp hsome
    obtain ⟨hnodup, hroom⟩ := honce dspId units hget
    have hle := List.nodup_iff_count_le_one.mp hnodup u
    have hpend : 0 < st.page.adPendList.count u := List.count_pos_iff.mpr hu
    have hlist : 0 < (whiteDspList x.dict u).count dspId := List.count_pos_iff.mpr hwhite
    have hprod := hcount dspId units hget u
    have hmem : u ∈ units := by
      refine List.count_pos_iff.mp ?_
      rw [hprod]
      exact Nat.mul_pos hpend hlist
    rw [hprod] at hle
    have hp1 : st.page.adPendList.count u = 1 :=
      le_antisymm (le_trans (Nat.le_mul_of_pos_right _ hlist) hle) hpend
    have hl1 : (whiteDspList x.dict u).count dspId = 1 :=
      le_antisymm (le_trans (Nat.le_mul_of_pos_left _ hpend) hle) hlist
    obtain ⟨h1, h2⟩ := (hsound.open_iff hu).mp ⟨hp1, hroom u hmem⟩
    exact ⟨h1, h2, hl1⟩
  · intro hpending dspId units hget
    have hone : ∀ u ∈ units, units.count u = 1 ∧
        (used st.page.adCreativeList u : ℤ) < capacity x.dict u := by
      intro u hu
      have hpos : 0 < units.count u := List.count_pos_iff.mpr hu
      have hprod := hcount dspId units hget u
      have hpend : u ∈ st.page.adPendList := by
        refine List.count_pos_iff.mp (Nat.pos_of_ne_zero fun h0 => ?_)
        rw [h0, Nat.zero_mul] at hprod
        omega
      have hwhite : dspId ∈ whiteDspList x.dict u := by
        refine List.count_pos_iff.mp (Nat.pos_of_ne_zero fun h0 => ?_)
        rw [h0, Nat.mul_zero] at hprod
        omega
      obtain ⟨h1, h2, h3⟩ := hpending dspId (by rw [hget]; rfl) u hpend hwhite
      obtain ⟨hp1, hroom⟩ := (hsound.open_iff hpend).mpr ⟨h1, h2⟩
      have hp1' : st.page.adPendList.count u = 1 := hp1
      exact ⟨by rw [hprod, hp1', h3], hroom⟩
    exact ⟨List.nodup_iff_count_eq_one.mpr fun u hu => (hone u hu).1, fun u hu => (hone u hu).2⟩

lemma getAdData_known {d : Dict} {l : List Str} (h : getAdData d l = .ok valid) :
    ∀ u ∈ valid, d.HasUnit u := by
  intro u hu
  obtain ⟨v, hv, hserved⟩ := bind_ok.mp (getAdData_mem h u hu).2
  rw [isValid_eq] at hv
  cases hv
  by_contra hnone
  rw [Dict.HasUnit, Bool.not_eq_true] at hnone
  rw [hnone] at hserved
  cases hserved

/-- **The queries of a run name known DSPs and known ad units.** -/
theorem query_known :
    (∀ (x : Request) valid s query reqs, PreDealEmits x valid s query reqs → Known x.dict query) ∧
    (∀ (x : Request) valid st query reqs, OpenEmits x valid st query reqs →
      Known x.dict query) := by
  constructor
  · rintro x valid s query reqs ⟨-, hsina, hquery, -⟩ dspId units hget
    have hs := checkDspQps_get hquery hget
    have hqueue : queueOf s dspId = units := by rw [queueOf, hs]; rfl
    rcases querySina_spec hsina with ⟨-, hans⟩ | ⟨-, rfl⟩
    · have hknown : ∀ u ∈ units, HasDsp x.dict dspId ∧ x.dict.HasUnit u := by
        intro u hu
        rcases hans.known dspId u (hqueue ▸ hu) with hold | hnew
        · simp [queueOf] at hold
        · exact hnew
      have hne : units ≠ [] := by
        rintro rfl
        have hstart := hans.nonempty dspId hs
        simp at hstart
      obtain ⟨u, hu⟩ := List.exists_mem_of_ne_nil _ hne
      exact ⟨(hknown u hu).1, fun u hu => (hknown u hu).2⟩
    · simp at hs
  · rintro x valid st query reqs ⟨s, preDealQuery, hvalid, hsina, -, hdeal, hquery, -⟩ dspId units hget
    have hsound := preDeal_sound hsina hdeal
    obtain ⟨q, hq, hcheck⟩ := getDspQueryList_spec hquery
    have hqget := checkDspQps_get hcheck hget
    have hdsp := hq.dsp dspId (by rw [hqget]; rfl)
    refine ⟨hdsp.2, fun u hu => getAdData_known hvalid u ?_⟩
    have hc := hq.count dspId u
    rw [hqget, if_pos hdsp.1, Option.getD_some] at hc
    have hpos : 0 < units.count u := List.count_pos_iff.mpr hu
    have hpend : 0 < st.page.adPendList.count u := Nat.pos_of_ne_zero fun h0 => by
      rw [h0, Nat.zero_mul] at hc
      omega
    exact List.count_pos_iff.mp (lt_of_lt_of_le hpend (hsound.sub u))

end run

/-! ### Runs -/

/-- The bid requests of the preferred deals of a run. -/
def preDealRequests (x : Request) : Lua (List (Str × BidReq)) := do
  let valid ← getAdData x.dict x.adReq.adUnitIdList
  let s ← querySina x valid
  let query ← getPreDealQueryList x.preDeal s
  buildBidReq (x.ctx .preferredDeal x.preDeal) x.preDeal.order query s.adCreativeList

/-- The bid requests of the open auction of a run. -/
def openRequests (x : Request) : Lua (List (Str × BidReq)) := do
  let valid ← getAdData x.dict x.adReq.adUnitIdList
  let s ← querySina x valid
  let preDealQuery ← getPreDealQueryList x.preDeal s
  let st ← launch x .preferredDeal x.preDeal preDealQuery s []
  let query ← getDspQueryList x.dict x.openAuction st.page.adPendList
  buildBidReq (x.ctx .openAuction x.openAuction) x.openAuction.order query st.page.adCreativeList

section runs

variable {x : Request} {reqs : List (Str × BidReq)}

lemma preDealRequests_ok (h : preDealRequests x = .ok reqs) :
    ∃ valid s query, PreDealEmits x valid s query reqs := by
  obtain ⟨valid, hvalid, h⟩ := bind_ok.mp h
  obtain ⟨s, hs, h⟩ := bind_ok.mp h
  obtain ⟨query, hquery, h⟩ := bind_ok.mp h
  exact ⟨valid, s, query, hvalid, hs, hquery, h⟩

lemma openRequests_ok (h : openRequests x = .ok reqs) :
    ∃ valid st query, OpenEmits x valid st query reqs := by
  obtain ⟨valid, hvalid, h⟩ := bind_ok.mp h
  obtain ⟨s, hs, h⟩ := bind_ok.mp h
  obtain ⟨q, hq, h⟩ := bind_ok.mp h
  obtain ⟨st, hst, h⟩ := bind_ok.mp h
  obtain ⟨query, hquery, h⟩ := bind_ok.mp h
  exact ⟨valid, st, query, s, q, hvalid, hs, hq, hst, hquery, h⟩

end runs

section samples

open Sax.Clearing

/-- A request that names `U` twice. -/
def twiceRequest : Request :=
  let x := plainRequest ⟨500, []⟩
  { x with adReq := { sampleReq with adUnitIdList := [lit "U", lit "U"] } }

/-- A preferred deal with DSP 2. -/
def dealCreative : Val :=
  .obj [("lineitemId", .str (lit "1")),
    ("content", .obj [("type", .strs [PREFERRED_DEAL_TYPE]), ("src", .strs [lit "2"])])]

/-- A request whose Sina answer has two deals with DSP 2 on `U`. -/
def dealsRequest : Request :=
  let x := plainRequest ⟨500, []⟩
  { x with
    lib := .ofTexts [("deals",
      .arr [.obj [("id", .str (lit "U")), ("value", .arr [dealCreative, dealCreative])]])]
    dict := { plainDict with resource := fun _ => some ⟨1, [lit "2"], 1, [lit "2"]⟩ }
    sina := ⟨200, lit "deals"⟩ }

end samples

end Sax.OfferedOnce
