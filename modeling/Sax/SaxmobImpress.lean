import Sax.Launch
import Sax.PublisherRules
import Sax.Qps

/-!
Serving a request of an application: `impress` of `saxmob/rtb/impress.lua`.

The units in use and the DSPs in use are looked up, the DSPs over their limits are left out, and
the others are asked for bids on the usable units. The answer lists the units as requested. What
stands on one depends on the bids alone: a DSP may bid on a unit that was not offered to it.
-/

namespace Sax.SaxmobImpress

open Sax.LuaVal Sax.Loop Sax.Runtime Sax.SecondPrice Sax.Auction Sax.Extract Sax.SaxmobRtb
open Sax.WinPrice Sax.Cipher Sax.BidReq Sax.Launch Sax.PublisherRules Sax.Uri
open Sax.Qps (QpsInfo bids addUnder check_dsp_qps)
open Sax.Store (getAttribute isValid)
open Sax.Const (OBJECT_STATUS_VALID OBJECT_STATUS_INVALID)

def SAX_SSP_PROTOCOL_VERSION : Str := lit "1.0.1"

/-! ### The request -/

/-- An ad unit as the body has it. -/
structure AdUnitArg where
  id : Option Str
  size : Option Str

/-- The device as the body has it. -/
structure DeviceArg where
  udid : Option Str
  platform : Option Val
  brand : Option Str
  model : Option Str

structure AppArg where
  name : Option Str
  category : Option Str

/-- The body of a request, once it is decoded. A field that is `nil` or `false` is `none`. -/
structure RequestBody where
  version : Option Str
  pid : Option Str
  adunit : Option (List AdUnitArg)
  carrier : Option Val
  ip : Option Str
  ua : Option Str
  lbs : Option Str
  device : Option DeviceArg
  app : Option AppArg

/-- `parse_ad_req`: the `pid` and the request, or the end with `HTTP_BAD_REQUEST`. Only the id of
the first unit is checked; the loop of `get_ad_data` raises where another one has none. -/
def parse_ad_req (body : Option RequestBody) : Lua (Option (Str × AdReq)) := do
  match body with
  | none => return none
  | some body =>
    if body.version ≠ some SAX_SSP_PROTOCOL_VERSION then return none
    else match body.pid with
    | none | some [] => return none
    | some pid =>
      match body.adunit with
      | none | some [] => return none
      | some (adunit :: adunit_list) =>
        match adunit.id with
        | none | some [] => return none
        | some _ =>
          let adunit_list ← (adunit :: adunit_list).mapM fun u => do
            return (⟨← concatenated u.id, u.size⟩ : AdUnit)
          let device := body.device.getD ⟨none, none, none, none⟩
          let app := body.app.getD ⟨none, none⟩
          return some (pid, {
            adunit_list := adunit_list
            carrier := body.carrier.getD (.num 0)
            ip := body.ip.getD []
            ua := body.ua.getD []
            lbs := body.lbs.getD []
            device := ⟨device.udid.getD [], device.platform, device.brand, device.model⟩
            app := ⟨app.name.getD [], app.category⟩ })

/-- A request, what the worker and the DSPs bring to it, and the outcomes of `math.random`. -/
structure Request where
  lib : Ngx
  dict : Dict
  body : Option RequestBody
  id : Str
  uuid : Str
  /-- what `get_qps_info_list` returns -/
  qps_list : Tbl QpsInfo
  order : Order
  draw : Str → Draw
  net : ℕ → Reply

/-- `ngx.ctx` -/
def Request.ctx (x : Request) (ad_req : AdReq) (ssp_id : Str) : BidReq.Ctx where
  lib := x.lib
  dict := x.dict
  ad_req := ad_req
  id := x.id
  uuid := x.uuid
  ssp_id := ssp_id

/-! ### The answer -/

/-- An entry of the answer. -/
structure Shown where
  id : Str
  ad : List Val

structure AdRsp where
  pid : Str
  adunit : List Shown

def Shown.val (a : Shown) : Val := .obj [("id", .str a.id), ("ad", .arr a.ad)]

def AdRsp.val (rsp : AdRsp) : Val :=
  .obj [("pid", .str rsp.pid), ("version", .str SAX_SSP_PROTOCOL_VERSION),
    ("adunit", .arr (rsp.adunit.map Shown.val))]

def build_ad_rsp (lib : Ngx) (pid : Str) (ad_req : AdReq) (ad_creative_list : Tbl Filled) :
    Lua AdRsp := do
  let rsp : AdRsp := ⟨pid, ad_req.adunit_list.map fun adunit =>
    ⟨adunit.id, ((ad_creative_list.get adunit.id).map Filled.ad).getD []⟩⟩
  let _text ← lib.encode rsp.val
  return rsp

/-! ### The run -/

/-- The creatives the bidding brings, where it takes place. -/
def bidding (x : Request) (ad_req : AdReq) (data : AdData) : Lua (Tbl Filled) := do
  if data.ad_pend_list.length ≠ 0 ∧ data.dsp_white_list.length ≠ 0 then
    let dsp_bid_list ← check_dsp_qps x.qps_list data.dsp_white_list
    if dsp_bid_list.length ≠ 0 then
      let s ← launch_rtb_for_dsp (x.ctx ad_req data.ssp_id) x.order x.draw x.net data.ad_pend_list
        dsp_bid_list ∅
      return s.ad_creative_list
    else return ∅
  else return ∅

def impress (x : Request) : Lua (Option AdRsp) := do
  match ← parse_ad_req x.body with
  | none => return none
  | some (pid, ad_req) =>
    let data ← get_ad_data x.dict ad_req
    let ad_creative_list ← bidding x ad_req data
    return some (← build_ad_rsp x.lib pid ad_req ad_creative_list)

/-! ### Who is asked -/

section asked

variable (d : Dict)

/-- The DSPs of the list that are in the dictionary and in use. -/
def dspsInUse : List Str :=
  (get_dsp_id_list d).filter fun id => (d.dsp id).any (·.status = OBJECT_STATUS_VALID)

/-- The owner of the first unit is in the dictionary and not invalid. -/
def firstOwnerFine (adunit_list : List AdUnit) : Bool :=
  adunit_list.head?.any fun u => (d.adunit u.id).any fun info =>
    (d.ssp info.ssp_id).any (·.status ≠ OBJECT_STATUS_INVALID)

/-- The DSP has a limit and has not passed it. -/
def under (qps_list : Tbl QpsInfo) (id : Str) : Bool :=
  (qps_list.get id).any fun info => 0 < info.limit && info.count.any (· ≤ info.limit)

/-- The DSPs asked for bids, when there is something to bid on. -/
def asked (qps_list : Tbl QpsInfo) (adunit_list : List AdUnit) : List Str :=
  if firstOwnerFine d adunit_list ∧ usable d adunit_list ≠ [] then
    (dspsInUse d).filter (under qps_list)
  else []

end asked

section lookup

variable {d : Dict} {ad_req : AdReq} {data : AdData}

lemma inUse_eq {α : Type} {kind : Str → Option α} {attr : α → ℤ} {id : Str} {k : Bool}
    (h : inUse kind (fun id => getAttribute kind id attr) id = .ok k) :
    k = (kind id).any (attr · = OBJECT_STATUS_VALID) := by
  rw [inUse, Store.isValid_eq, Store.getAttribute_eq] at h
  cases hinfo : kind id with
  | none =>
    rw [hinfo] at h
    cases h
    rfl
  | some info =>
    rw [hinfo] at h
    cases h
    simp

lemma checkSsp_ok {l r : List AdUnit} {ssp_id : Option Str} (h : checkSsp d l ssp_id = .ok r) :
    r = if (ssp_id.bind d.ssp).any (·.status ≠ OBJECT_STATUS_INVALID) then l else [] := by
  cases ssp_id with
  | none =>
    cases h
    rfl
  | some s =>
    rw [checkSsp, Store.isValid_eq, get_ssp_status, Store.getAttribute_eq] at h
    rw [Option.bind_some]
    cases hinfo : d.ssp s with
    | none =>
      rw [hinfo] at h
      cases h
      rfl
    | some info =>
      rw [hinfo] at h
      simp only [ok_bind, Option.isSome_some, if_true, Option.map_some, Option.some.injEq] at h
      split at h
      · next hstatus =>
        cases h
        simp [hstatus]
      · next hstatus =>
        cases h
        simp [hstatus]

/-- What the lookup comes to. -/
lemma get_ad_data_ok (h : get_ad_data d ad_req = .ok data) :
    data.ad_pend_list = (if firstOwnerFine d ad_req.adunit_list then usable d ad_req.adunit_list
      else []) ∧ data.dsp_white_list = dspsInUse d := by
  unfold get_ad_data at h
  obtain ⟨pend, hpend, h⟩ := bind_ok.mp h
  have husable : pend = usable d ad_req.adunit_list := select_ok (fun u k => inUse_ok) hpend
  cases hlist : ad_req.adunit_list with
  | nil =>
    rw [hlist] at h
    cases h
  | cons u us =>
    rw [hlist] at h husable
    obtain ⟨ssp_id, hssp, h⟩ := bind_ok.mp h
    obtain ⟨checked, hchecked, h⟩ := bind_ok.mp h
    obtain ⟨white, hwhite, h⟩ := bind_ok.mp h
    cases h
    rw [get_ssp_id, Store.getAttribute_eq] at hssp
    cases hssp
    refine ⟨?_, select_ok (fun _ _ => inUse_eq) hwhite⟩
    rw [checkSsp_ok hchecked, husable]
    cases hinfo : d.adunit u.id with
    | none => simp [firstOwnerFine, hinfo]
    | some info => simp [firstOwnerFine, hinfo]

lemma bids_ok {info : QpsInfo} {b : Bool} (h : bids info = .ok b) :
    b = (0 < info.limit && info.count.any (· ≤ info.limit)) := by
  unfold bids at h
  split at h
  · next hlimit =>
    cases hcount : info.count with
    | none =>
      rw [hcount] at h
      cases h
    | some count =>
      rw [hcount] at h
      cases h
      simp [hlimit]
  · next hlimit =>
    cases h
    simp [hlimit]

lemma check_dsp_qps_run {q : Tbl QpsInfo} {l acc r : List Str}
    (h : l.foldlM (addUnder q) acc = .ok r) : r = acc ++ l.filter (under q) := by
  induction l generalizing acc with
  | nil =>
    cases h
    simp
  | cons id l ih =>
    obtain ⟨acc', hstep, h⟩ := foldlM_cons_ok.mp h
    have hacc : acc' = acc ++ [id].filter (under q) := by
      unfold addUnder at hstep
      cases hinfo : q.get id with
      | none =>
        rw [hinfo] at hstep
        cases hstep
      | some info =>
        rw [hinfo] at hstep
        obtain ⟨b, hb, hstep⟩ := bind_ok.mp hstep
        have hunder : under q id = b := by
          rw [under, hinfo, bids_ok hb]
          rfl
        cases b with
        | true =>
          cases hstep
          simp [hunder]
        | false =>
          cases hstep
          simp [hunder]
    rw [ih h, hacc, List.append_assoc, ← List.filter_append]
    rfl

end lookup

/-! ### What a unit shows -/

/-- The ads of a highest bid among those on the unit, at the price the auction comes to. -/
def Shows (c : WinPrice.Ctx) (o : Order) (u : Str) (bid_info : List (Bid Kept)) (ads : List Val) :
    Prop :=
  ∃ b p e_key i_key msg, IsTop Bid.max_cpm_price bid_info b ∧
    Outcome (get_min_price c.toCtx u) bid_info b (.ok ⟨b.dsp_id, some p, b.creative⟩) ∧
    c.ekey b.dsp_id = some e_key ∧ c.ikey b.dsp_id = some i_key ∧
    encrypt_price c.lib c.uuid e_key i_key p = .ok msg ∧
    alterAds c o u b.dsp_id p (escape_uri msg) b.creative.ad b.creative.creative_id = .ok ads

section settle

variable {c : WinPrice.Ctx} {o : Order} {draw : Draw} {u : Str} {bid_info : List (Bid Kept)}
  {filled : Filled}

lemma argument_ok {α : Type} {a : Option α} {b : α} (h : Creative.argument a = .ok b) :
    a = some b := by
  cases a with
  | none => cases h
  | some a =>
    cases h
    rfl

lemma length_alterAds {dsp_id msg : Str} {p : ℚ} {ads ads' : List Val} {ids : List Str}
    (h : alterAds c o u dsp_id p msg ads ids = .ok ads') : ads'.length = ads.length := by
  induction ads generalizing ids ads' with
  | nil =>
    cases h
    rfl
  | cons ad ads ih =>
    cases ids with
    | nil => cases h
    | cons id ids =>
      obtain ⟨ad', -, rest, hrest, rfl⟩ := alterAds_cons_ok.mp h
      rw [List.length_cons, List.length_cons, ih hrest]

/-- **A settled unit shows a highest bid.** -/
lemma settle_shows (hne : bid_info ≠ []) (h : settle c o draw bid_info u = .ok filled) :
    Shows c o u bid_info filled.ad := by
  obtain ⟨b, hb, houtcome⟩ := auction_spec o draw (get_min_price c.toCtx u) hne
  obtain ⟨winner, hwin, h⟩ := bind_ok.mp h
  obtain ⟨_, -, h⟩ := bind_ok.mp h
  obtain ⟨e_key, he, h⟩ := bind_ok.mp h
  obtain ⟨i_key, hi, h⟩ := bind_ok.mp h
  obtain ⟨p, hp, h⟩ := bind_ok.mp h
  obtain ⟨msg, hmsg, h⟩ := bind_ok.mp h
  obtain ⟨ads, hads, h⟩ := bind_ok.mp h
  cases h
  have hprice := argument_ok hp
  rw [show auction o draw (get_min_price c.toCtx u) bid_info = .ok winner from hwin] at houtcome
  have hbid : winner = ⟨b.dsp_id, some p, b.creative⟩ := by
    rcases houtcome with ⟨-, hr⟩ | ⟨s, -, hr⟩
    · obtain ⟨floor, -, hr⟩ := bind_ok.mp hr.symm
      cases hr
      rw [← hprice]
    · cases hr
      rw [← hprice]
  subst hbid
  exact ⟨b, p, e_key, i_key, msg, hb, houtcome, argument_ok he, argument_ok hi, hmsg, hads⟩

end settle

/-! ### The bidding -/

section bidding

variable {c : BidReq.Ctx} {o : Order} {draw : Str → Draw} {net : ℕ → Reply}

/-- The loop over the units with bids settles each of them once. -/
lemma handle_get {l : List (Sigma fun _ : Str => List (Bid Kept))}
    (hnodup : (l.map Sigma.fst).Nodup) {s s' : Launch.State}
    (h : l.foldlM (handle_adunit c o draw) s = .ok s') (u : Str) :
    (u ∉ l.map Sigma.fst → s'.ad_creative_list.get u = s.ad_creative_list.get u) ∧
      ∀ bid_info, ⟨u, bid_info⟩ ∈ l → ∃ filled,
        settle (win c) o (draw u) bid_info u = .ok filled ∧
          s'.ad_creative_list.get u = some filled := by
  induction l generalizing s with
  | nil =>
    cases h
    exact ⟨fun _ => rfl, fun _ hmem => absurd hmem List.not_mem_nil⟩
  | cons e l ih =>
    obtain ⟨m, hm, h⟩ := foldlM_cons_ok.mp h
    obtain ⟨filled, hfilled, hm⟩ := bind_ok.mp hm
    cases hm
    rw [List.map_cons, List.nodup_cons] at hnodup
    obtain ⟨hkept, hfound⟩ := ih hnodup.2 h
    refine ⟨fun hu => ?_, fun bid_info hmem => ?_⟩
    · rw [List.map_cons, List.mem_cons, not_or] at hu
      rw [hkept hu.2]
      exact AList.lookup_insert_ne hu.1
    · rcases List.mem_cons.mp hmem with rfl | hmem
      · refine ⟨filled, hfilled, ?_⟩
        rw [hkept hnodup.1]
        exact AList.lookup_insert _
      · exact hfound bid_info hmem

/-- What the bidding leaves for a unit: nothing without bids on it, else what they settle to. -/
lemma launch_shows {ad_pend_list : List AdUnit} {dsp_bid_list : List Str} {s : Launch.State}
    (h : launch_rtb_for_dsp c o draw net ad_pend_list dsp_bid_list ∅ = .ok s) (u : Str) :
    ∃ bid_info, (∀ b, b ∈ bid_info ↔ ∃ i : ℕ, dsp_bid_list[i]? = some b.dsp_id ∧
        Holds c net i b.dsp_id u b) ∧
      if bid_info = [] then s.ad_creative_list.get u = none
      else ∃ filled, s.ad_creative_list.get u = some filled ∧
        Shows (win c) o u bid_info filled.ad := by
  obtain ⟨reqs, hreqs, h⟩ := bind_ok.mp h
  obtain ⟨t, ht, h⟩ := bind_ok.mp h
  have hlength := (build_bid_req_ok hreqs).length_eq
  obtain ⟨hkept, hfound⟩ := handle_get (o.pairs_nodup t) h u
  refine ⟨(t.get u).getD [], fun b => filed_iff hlength ht, ?_⟩
  obtain ⟨-, hcollect⟩ := (extract_ad_bid_ok (hlength.trans (length_req_muti reqs).symm)).mp ht
  cases hget : t.get u with
  | none =>
    rw [Option.getD_none, if_pos rfl]
    refine hkept fun hmem => ?_
    obtain ⟨⟨u', bid_info⟩, hpair, rfl⟩ := List.mem_map.mp hmem
    rw [o.mem_pairs, hget] at hpair
    cases hpair
  | some bid_info =>
    have hne : bid_info ≠ [] := fun hnil =>
      ((Copy.collect_holds Copy.holds_nil hcollect) u).2 (hnil ▸ hget)
    rw [Option.getD_some, if_neg hne]
    obtain ⟨filled, hsettle, hshown⟩ := hfound bid_info (o.mem_pairs.mpr hget)
    exact ⟨filled, hshown, settle_shows hne hsettle⟩

end bidding

section impress

variable {x : Request} {ad_req : AdReq} {data : AdData} {rsp : AdRsp}

/-- The bids on a unit that the answers of the DSPs hold. -/
def Bids (x : Request) (c : BidReq.Ctx) (dsp_bid_list : List Str) (u : Str)
    (bid_info : List (Bid Kept)) : Prop :=
  ∀ b, b ∈ bid_info ↔ ∃ i : ℕ, dsp_bid_list[i]? = some b.dsp_id ∧ Holds c x.net i b.dsp_id u b

lemma bids_nobody {c : BidReq.Ctx} {u : Str} : Bids x c [] u [] := by
  intro b
  simp

lemma bidding_shows (hdata : get_ad_data x.dict ad_req = .ok data) {t : Tbl Filled}
    (h : bidding x ad_req data = .ok t) (u : Str) :
    ∃ bid_info, Bids x (x.ctx ad_req data.ssp_id)
        (asked x.dict x.qps_list ad_req.adunit_list) u bid_info ∧
      if bid_info = [] then t.get u = none
      else ∃ filled, t.get u = some filled ∧
        Shows (win (x.ctx ad_req data.ssp_id)) x.order u bid_info filled.ad := by
  obtain ⟨hpend, hwhite⟩ := get_ad_data_ok hdata
  unfold bidding at h
  split at h
  · next hsome =>
    rw [hpend, hwhite, ne_eq, List.length_eq_zero_iff] at hsome
    have hasked : asked x.dict x.qps_list ad_req.adunit_list =
        (dspsInUse x.dict).filter (under x.qps_list) := by
      rw [asked, if_pos]
      by_cases howner : firstOwnerFine x.dict ad_req.adunit_list
      · rw [if_pos howner] at hsome
        exact ⟨howner, hsome.1⟩
      · rw [if_neg howner] at hsome
        exact absurd rfl hsome.1
    obtain ⟨dsp_bid_list, hcheck, h⟩ := bind_ok.mp h
    have hbid : dsp_bid_list = asked x.dict x.qps_list ad_req.adunit_list := by
      rw [check_dsp_qps_run hcheck, hwhite, hasked]
      rfl
    subst hbid
    split at h
    · obtain ⟨s, hs, h⟩ := bind_ok.mp h
      cases h
      exact launch_shows hs u
    · next hnobody =>
      cases h
      rw [not_not, List.length_eq_zero_iff] at hnobody
      rw [hnobody]
      exact ⟨[], bids_nobody, rfl⟩
  · next hnone =>
    cases h
    have hasked : asked x.dict x.qps_list ad_req.adunit_list = [] := by
      unfold asked
      rw [hpend, hwhite] at hnone
      split
      · next hboth =>
        rw [if_pos hboth.1, ne_eq, List.length_eq_zero_iff, ne_eq, List.length_eq_zero_iff] at hnone
        have hnodsp : dspsInUse x.dict = [] := by
          by_contra hdsps
          exact hnone ⟨hboth.2, hdsps⟩
        rw [hnodsp]
        rfl
      · rfl
    rw [hasked]
    exact ⟨[], bids_nobody, rfl⟩

/-- The creatives of a bid that was kept are shown, and there are some. -/
lemma shows_ne_nil {c : BidReq.Ctx} {o : Order} {dsp_bid_list : List Str} {u : Str}
    {bid_info : List (Bid Kept)} {ads : List Val} (hbids : Bids x c dsp_bid_list u bid_info)
    (h : Shows (win c) o u bid_info ads) : ads ≠ [] := by
  obtain ⟨b, p, e_key, i_key, msg, hb, -, -, -, -, hads⟩ := h
  obtain ⟨i, -, e, -, -, hkeep⟩ := (hbids b).mp hb.1
  have hne : b.creative.ad ≠ [] := (keep_spec (p := (b.dsp_id, e.2)) hkeep).1
  rw [← List.length_pos_iff] at hne ⊢
  rw [length_alterAds hads]
  exact hne

end impress

section samples

/-- One unit, asked for twice, and the unit of nobody. -/
def sampleBody : RequestBody where
  version := some SAX_SSP_PROTOCOL_VERSION
  pid := some (lit "p")
  adunit := some [⟨some (lit "U"), some (lit "320*50")⟩, ⟨some (lit "V"), none⟩,
    ⟨some (lit "U"), some (lit "320*50")⟩]
  carrier := none
  ip := some (lit "1.1.1.1")
  ua := none
  lbs := none
  device := none
  app := none

/-- DSP `2` is under its limit and bids 3 on `U`. -/
def sampleRequest : Request where
  lib := WinPrice.sampleCtx.lib
  dict := { Launch.sampleDict with dspall := some (lit "2") }
  body := some sampleBody
  id := lit "b"
  uuid := sampleUuid
  qps_list := (∅ : Tbl QpsInfo).insert (lit "2") ⟨10, some 3⟩
  order := .plain
  draw _ := .least
  net := sampleNet

lemma sample_answers : ∃ rsp, impress sampleRequest = .ok (some rsp) ∧
    rsp.adunit.map (fun a => a.ad.length) = [1, 0, 1] := by
  have hrun : ((impress sampleRequest).toOption.join.map fun rsp =>
      rsp.adunit.map fun a => a.ad.length) = some [1, 0, 1] := by
    decide +kernel
  obtain ⟨rsp, hrsp, hlengths⟩ := Option.map_eq_some_iff.mp hrun
  exact ⟨rsp, toOption_eq_some.mp (Option.join_eq_some_iff.mp hrsp), hlengths⟩

end samples

end Sax.SaxmobImpress
