import Sax.OfferedOnce

/-!
Confirming the winning prices, `cfmWinPrice` of `rtb.lua` and the end of `newImpress` and
`wapImpress`.

A phase files the prices of its winners by DSP, with its bid id beside them. They are sent after
the response, the preferred deals first, each phase under the bid id its list carries.
-/

namespace Sax.Confirm

open Sax.LuaVal Sax.Loop Sax.Const Sax.Runtime Sax.Store Sax.Auction Sax.WebRtb Sax.Impress
open Sax.BidRsp (Ctx Creative)
open Sax.Isolation (HasDsp Known)

structure CfmBody where
  version : Str
  bid : Str
  ad_price : List WinPrice

/-- What is posted to `/dsp/cfm` for one DSP. -/
structure CfmReq where
  body : CfmBody
  url : Option Str
  hash_str : Str

/-- `ngx.location.capture_multi` raises when there is nothing to send. -/
def captureMulti {β : Type} (reqList : List β) : Lua (List β) :=
  if reqList = [] then .error (.error "at least one subrequest should be specified")
  else .ok reqList

def cfmReq (x : Request) (bid dspId : Str) (priceInfo : List WinPrice) : Lua (Str × CfmReq) := do
  let url ← getConfirmUrl x.dict dspId
  return (dspId, ⟨⟨RTB_VERSION, bid, priceInfo⟩, url,
    if x.adReq.cookie ≠ [] then x.adReq.cookie else x.adReq.ip⟩)

/-- `dspIdList` and `reqList`, side by side; `bid` is what the list has under its key `bid`. -/
def cfmWinPrice (x : Request) (o : Order) (winPriceList : Tbl (List WinPrice)) (bid : Str) :
    Lua (List (Str × CfmReq)) := do
  captureMulti (← (o.pairs winPriceList).mapM fun e => cfmReq x bid e.1 e.2)

/-- The `winPriceList` of a phase: the prices by DSP and the bid id, if there is a price. -/
def winPrices (x : Request) (auction_type : AuctionType) (input : PhaseInput)
    (query : Tbl (List Str)) (s : SinaQuery.Page) (cmUrlList : List Str) :
    Lua (Tbl (List WinPrice) × Option Str) :=
  if !query.entries.isEmpty then do
    let out ← launchRtbForDsp (x.ctx auction_type input) input.order input.draw input.rsp query
      s.adPendList s.adCreativeList cmUrlList
    return (out.winPriceList, out.bid)
  else .ok (∅, none)

/-- `if next(winPriceList) then cfmWinPrice(winPriceList)` -/
def confirm (x : Request) (o : Order) : Tbl (List WinPrice) × Option Str →
    Lua (List (Str × CfmReq))
  | (winPriceList, some bid) => cfmWinPrice x o winPriceList bid
  | (_, none) => .ok []

/-- The confirm requests of the preferred deals and of the open auction. -/
def confirms (x : Request) (st : Stages) : Lua (List (Str × CfmReq) × List (Str × CfmReq)) := do
  let preDealWinPriceList ← winPrices x .preferredDeal x.preDeal st.preDealQuery st.sina []
  let winPriceList ← winPrices x .openAuction x.openAuction st.openQuery st.preDeal.page
    st.preDeal.cmUrlList
  let preDealReqs ← confirm x x.preDeal.order preDealWinPriceList
  return (preDealReqs, ← confirm x x.openAuction.order winPriceList)

/-- The confirm requests of a run of `newImpress`, sent once the response is built. -/
def newImpressCfm (x : Request) : Lua (List (Str × CfmReq) × List (Str × CfmReq)) := do
  confirms x.pc (← newImpress x).1

/-- The confirm requests of a run of `wapImpress`. -/
def wapImpressCfm (x : Request) : Lua (List (Str × CfmReq) × List (Str × CfmReq)) := do
  confirms x.wap (← wapImpress x).1

/-! ### What a phase files -/

/-- The prices of the units the DSP won, in the order they were awarded. -/
def due (winners : List (Str × Win)) (dspId : Str) : List WinPrice :=
  (winners.filter fun e => e.2.dsp_id = dspId).map fun e => ⟨e.1, e.2.win_cpm_price⟩

section due

variable {winners : List (Str × Win)} {e : Str × Win} {dspId : Str}

lemma due_snoc (h : e.2.dsp_id = dspId) :
    due (winners ++ [e]) dspId = due winners dspId ++ [⟨e.1, e.2.win_cpm_price⟩] := by
  simp [due, h]

lemma due_snoc_ne (h : e.2.dsp_id ≠ dspId) : due (winners ++ [e]) dspId = due winners dspId := by
  simp [due, h]

lemma due_ne_nil : due winners dspId ≠ [] ↔ ∃ e ∈ winners, e.2.dsp_id = dspId := by
  simp [due, List.filter_eq_nil_iff]

end due

/-- The list holds, for each DSP that is to be told, the prices due to it. -/
def Filed (d : Dict) (winners : List (Str × Win)) (winPriceList : Tbl (List WinPrice)) : Prop :=
  ∀ dspId l, winPriceList.get dspId = some l ↔
    l = due winners dspId ∧ l ≠ [] ∧ getConfirmUrl d dspId ≠ .ok (some [])

section phase

variable {c : Ctx} {o : Order} {draw : Str → Draw} {s s' : Round}

/-- Step lemma: the round of a unit files its price. -/
lemma round_filed {e : Sigma fun _ : Str => List (Bid (List Creative))}
    (h : round c o draw s e = .ok s') (hs : Filed c.dict s.winners s.winPriceList) :
    ∃ w, s'.winners = s.winners ++ [(e.1, w)] ∧ Filed c.dict s'.winners s'.winPriceList := by
  obtain ⟨w, -, h⟩ := bind_ok.mp h
  obtain ⟨winPriceList, hfill, h⟩ := bind_ok.mp h
  obtain ⟨_, -, h⟩ := bind_ok.mp h
  obtain ⟨_, -, h⟩ := bind_ok.mp h
  cases h
  obtain ⟨url, hurl, hfill⟩ := bind_ok.mp hfill
  obtain ⟨_, -, hfill⟩ := bind_ok.mp hfill
  cases hfill
  refine ⟨w, rfl, fun dspId l => ?_⟩
  by_cases hdsp : w.dsp_id = dspId
  · subst hdsp
    rw [due_snoc rfl]
    by_cases hempty : url = some []
    · have hno : ¬ getConfirmUrl c.dict w.dsp_id ≠ .ok (some []) := by simp [hurl, hempty]
      simp only [hempty, ne_eq, not_true_eq_false, if_false, hs w.dsp_id l]
      exact ⟨fun h => absurd h.2.2 hno, fun h => absurd h.2.2 hno⟩
    · have hold : (s.winPriceList.get w.dsp_id).getD [] = due s.winners w.dsp_id := by
        cases hget : s.winPriceList.get w.dsp_id with
        | some l => exact ((hs _ _).mp hget).1
        | none =>
          by_contra hne
          have hget' := (hs w.dsp_id (due s.winners w.dsp_id)).mpr
            ⟨rfl, fun h => hne h.symm, by simp [hurl, hempty]⟩
          rw [hget] at hget'
          cases hget'
      simp only [ne_eq, hempty, not_false_eq_true, if_true, Tbl.get_push, hold, Option.some.injEq]
      constructor
      · rintro rfl
        exact ⟨rfl, by simp, by simp [hurl, hempty]⟩
      · exact fun h => h.1.symm
  · rw [due_snoc_ne hdsp, ← hs dspId l]
    by_cases hempty : url = some []
    · simp only [hempty, ne_eq, not_true_eq_false, if_false]
    · simp only [hempty, ne_eq, not_false_eq_true, if_true, Tbl.get_push_ne _ _ _ (Ne.symm hdsp)]

/-- **A phase files the price of each winner** under its DSP, and its bid id. -/
theorem handleBidRsp_filed {bidRspList : List Extract.Rsp}
    {adPendList dspBidList cmUrlList : List Str} {adCreativeList : Creatives} {out : Phase}
    (h : handleBidRsp c o draw bidRspList adPendList dspBidList adCreativeList cmUrlList =
      .ok out) :
    (out.winners.map Prod.fst).Nodup ∧ ∃ winPriceList, Filed c.dict out.winners winPriceList ∧
      (winPriceList = ∅ ∧ out.bid = none ∨ winPriceList ≠ ∅ ∧ out.bid = some c.bid ∧
        out.winPriceList = winPriceList.erase (lit "bid")) := by
  have hnodup := (Room.handleBidRsp_book h).2.1
  obtain ⟨ex, hex, h⟩ := bind_ok.mp h
  obtain ⟨s, hs, h⟩ := bind_ok.mp h
  have hfiled : Filed c.dict s.winners s.winPriceList := by
    refine foldlM_inv (P := fun r : Round => Filed c.dict r.winners r.winPriceList) ?_ ?_ hs
    · intro r e r' _ hr hstep
      obtain ⟨w, -, hr'⟩ := round_filed hstep hr
      exact hr'
    · intro dspId l
      simpa [due] using fun h hne => absurd h hne
  cases h
  refine ⟨by simpa [Room.awards, Function.comp_def] using hnodup, s.winPriceList, hfiled, ?_⟩
  by_cases hempty : s.winPriceList = ∅
  · exact Or.inl ⟨hempty, by simp [hempty]⟩
  · exact Or.inr ⟨hempty, by simp [hempty], by simp [hempty]⟩

end phase

/-! ### What is sent -/

/-- **The confirmations of a phase**: each winner's price goes to the confirm URL of its DSP, if
it has one, under the bid id of the phase, in one request, and nothing else is sent. -/
structure Confirmed (d : Dict) (bid : Str) (winners : List (Str × Win))
    (reqs : List (Str × CfmReq)) : Prop where
  units : (winners.map Prod.fst).Nodup
  once : (reqs.map Prod.fst).Nodup
  sent : ∀ e ∈ winners, ∀ url, getConfirmUrl d e.2.dsp_id = .ok (some url) → url ≠ [] →
    ∃ req, (e.2.dsp_id, req) ∈ reqs
  only : ∀ dspId req, (dspId, req) ∈ reqs →
    req.body.ad_price = due winners dspId ∧ req.body.ad_price ≠ [] ∧ req.body.bid = bid ∧
      ∃ url, getConfirmUrl d dspId = .ok (some url) ∧ url ≠ [] ∧ req.url = some url

section send

variable {x : Request} {o : Order} {bid : Str} {winners : List (Str × Win)}
  {winPriceList : Tbl (List WinPrice)}

lemma getConfirmUrl_known {d : Dict} {dspId : Str} (h : HasDsp d dspId) :
    ∃ url, getConfirmUrl d dspId = .ok (some url) := by
  obtain ⟨dsp, hdsp⟩ := Option.isSome_iff_exists.mp h
  exact ⟨dsp.notifyurl, by rw [getConfirmUrl, getAttribute_eq, hdsp]; rfl⟩

/-- The requests of a list of prices filed for known DSPs. -/
lemma cfmWinPrice_confirmed (hnodup : (winners.map Prod.fst).Nodup)
    (hknown : ∀ e ∈ winners, HasDsp x.dict e.2.dsp_id)
    (hfiled : Filed x.dict winners winPriceList) (hne : winPriceList ≠ ∅) :
    ∃ reqs, cfmWinPrice x o winPriceList bid = .ok reqs ∧ Confirmed x.dict bid winners reqs := by
  have hurl : ∀ e ∈ o.pairs winPriceList, ∃ url, getConfirmUrl x.dict e.1 = .ok (some url) := by
    intro e he
    obtain ⟨hl, hnil, -⟩ := (hfiled e.1 e.2).mp (o.mem_pairs.mp he)
    obtain ⟨w, hw, hdsp⟩ := due_ne_nil.mp (hl ▸ hnil)
    exact getConfirmUrl_known (hdsp ▸ hknown w hw)
  obtain ⟨reqs, hreqs⟩ := (mapM_isOk (g := fun e : Sigma fun _ : Str => List WinPrice =>
      cfmReq x bid e.1 e.2)).mpr fun e he => by
    obtain ⟨url, hurl⟩ := hurl e he
    exact ⟨_, by rw [cfmReq, hurl]; rfl⟩
  have hreq : ∀ {e : Sigma fun _ : Str => List WinPrice} {r}, cfmReq x bid e.1 e.2 = .ok r →
      r.1 = e.1 ∧ r.2.body.ad_price = e.2 ∧ r.2.body.bid = bid ∧
        getConfirmUrl x.dict e.1 = .ok r.2.url := by
    intro e r h
    obtain ⟨url, hu, h⟩ := bind_ok.mp h
    cases h
    exact ⟨rfl, rfl, rfl, hu⟩
  have hkeys : reqs.map Prod.fst = (o.pairs winPriceList).map Sigma.fst :=
    mapM_map_eq (fun e r h => (hreq h).1) hreqs
  have hreqsne : reqs ≠ [] := by
    rintro rfl
    have hlen := mapM_length hreqs
    have hpairs : o.pairs winPriceList = [] := List.length_eq_zero_iff.mp hlen.symm
    have hentries : winPriceList.entries = [] :=
      List.perm_nil.mp (hpairs ▸ (o.visit_perm winPriceList.entries).symm)
    exact hne (AList.ext hentries)
  refine ⟨reqs, ?_, hnodup, ?_, ?_, ?_⟩
  · rw [cfmWinPrice, hreqs]
    simp [captureMulti, hreqsne]
  · rw [hkeys]
    exact o.pairs_nodup winPriceList
  · intro e he url hu hune
    have hget := (hfiled e.2.dsp_id (due winners e.2.dsp_id)).mpr
      ⟨rfl, due_ne_nil.mpr ⟨e, he, rfl⟩, by simp [hu, hune]⟩
    obtain ⟨r, hr, hcfm⟩ := mem_mapM hreqs (o.mem_pairs.mpr hget)
    have hkey : r.1 = e.2.dsp_id := (hreq hcfm).1
    exact ⟨r.2, hkey ▸ hr⟩
  · intro dspId req hmem
    obtain ⟨e, he, hcfm⟩ := mapM_mem hreqs hmem
    obtain ⟨rfl, hprice, hbid, hgurl⟩ := hreq hcfm
    obtain ⟨hl, hnil, hurlne⟩ := (hfiled e.1 e.2).mp (o.mem_pairs.mp he)
    obtain ⟨url, hu⟩ := hurl e he
    rw [hu] at hgurl
    refine ⟨hprice.trans hl, hprice ▸ hnil, hbid, url, hu, fun hempty => hurlne ?_,
      (Except.ok.inj hgurl).symm⟩
    rw [hu, hempty]

/-- No DSP is called `bid`, so its key takes no prices with it. -/
lemma filed_erase (hno : ∀ e ∈ winners, e.2.dsp_id ≠ lit "bid")
    (hfiled : Filed x.dict winners winPriceList) :
    Filed x.dict winners (winPriceList.erase (lit "bid")) ∧
      (winPriceList ≠ ∅ → winPriceList.erase (lit "bid") ≠ ∅) := by
  have hkey : ∀ {dspId l}, winPriceList.get dspId = some l → dspId ≠ lit "bid" := by
    intro dspId l hget
    obtain ⟨hl, hnil, -⟩ := (hfiled dspId l).mp hget
    obtain ⟨e, he, rfl⟩ := due_ne_nil.mp (hl ▸ hnil)
    exact hno e he
  have hget : ∀ dspId, Tbl.get (winPriceList.erase (lit "bid")) dspId = winPriceList.get dspId := by
    intro dspId
    by_cases hk : dspId = lit "bid"
    · subst hk
      cases hg : winPriceList.get (lit "bid") with
      | none => simp [Tbl.get]
      | some l => exact absurd rfl (hkey hg)
    · exact AList.lookup_erase_ne hk
  refine ⟨fun dspId l => by rw [hget, hfiled dspId l], fun hne hempty => hne ?_⟩
  refine AList.ext (List.eq_nil_iff_forall_not_mem.mpr fun e he => ?_)
  have hmem := hget e.1
  rw [hempty, Tbl.mem_entries.mp he] at hmem
  simp at hmem

end send

/-! ### The phases of a run -/

section run

variable {x : Request} {auction_type : AuctionType} {input : PhaseInput} {query : Tbl (List Str)}
  {s : SinaQuery.Page} {cmUrlList : List Str} {st : Stage}

/-- A winner is one of the DSPs queried. -/
lemma winner_known {c : Ctx} {o : Order} {draw : Str → Draw} {rsp : Str → Extract.Rsp}
    {adPendList : List Str} {adCreativeList : Creatives} {out : Phase}
    (hknown : ∀ reqs, buildBidReq c o query adCreativeList = .ok reqs → Known c.dict query)
    (h : launchRtbForDsp c o draw rsp query adPendList adCreativeList cmUrlList = .ok out) :
    ∀ e ∈ out.winners, HasDsp c.dict e.2.dsp_id := by
  obtain ⟨reqs, hreqs, hwin⟩ := Offered.launch_winners h
  intro e he
  obtain ⟨-, p, hp, hdsp, -, -⟩ :=
    (Offered.exists_canWin_iff (Offered.web_signed c)).mp ⟨e.2, hwin e he, rfl⟩
  obtain ⟨q, hq, hentry⟩ := List.mem_flatMap.mp hp
  obtain ⟨r, hr, rfl⟩ := List.mem_map.mp hq
  have hkey : r.1 = e.2.dsp_id := (Extract.Copy.mem_entries hentry).symm.trans hdsp
  obtain ⟨units, hget, -⟩ : ∃ units, query.get r.1 = some units ∧ _ :=
    Offered.buildBidReq_ids hreqs hr
  exact hkey ▸ (hknown reqs hreqs r.1 units hget).1

/-- A phase, where it asks anyone, leaves what is confirmed after the response. -/
lemma phase_confirmed (hbid : x.dict.dsp (lit "bid") = none)
    (hknown : ∀ reqs, buildBidReq (x.ctx auction_type input) input.order query s.adCreativeList =
      .ok reqs → Known x.dict query)
    (h : launch x auction_type input query s cmUrlList = .ok st) :
    ∃ p reqs, winPrices x auction_type input query s cmUrlList = .ok p ∧
      confirm x input.order p = .ok reqs ∧ Confirmed x.dict input.bid st.winners reqs := by
  unfold launch at h
  unfold winPrices
  split at h
  · next hasks =>
    rw [if_pos hasks]
    obtain ⟨out, hout, h⟩ := bind_ok.mp h
    cases h
    have hdsp := winner_known hknown hout
    have hno : ∀ e ∈ out.winners, e.2.dsp_id ≠ lit "bid" := by
      intro e he heq
      have hsome := hdsp e he
      rw [heq] at hsome
      change (x.dict.dsp (lit "bid")).isSome at hsome
      rw [hbid] at hsome
      cases hsome
    obtain ⟨reqs, -, hhandle⟩ := bind_ok.mp hout
    obtain ⟨hnodup, t, hfiled, hcase⟩ := handleBidRsp_filed hhandle
    refine ⟨(out.winPriceList, out.bid), ?_⟩
    rw [hout]
    rcases hcase with ⟨rfl, hnone⟩ | ⟨hne, hsome, hlist⟩
    · refine ⟨[], rfl, by simp [confirm, hnone], hnodup, by simp, ?_, by simp⟩
      intro e he url hu hune
      have hget := (hfiled e.2.dsp_id (due out.winners e.2.dsp_id)).mpr
        ⟨rfl, due_ne_nil.mpr ⟨e, he, rfl⟩, fun heq => by
          rw [show getConfirmUrl (x.ctx auction_type input).dict e.2.dsp_id = _ from hu] at heq
          cases heq
          exact hune rfl⟩
      simp at hget
    · obtain ⟨herase, hkeep⟩ := filed_erase (x := x) hno hfiled
      obtain ⟨cfm, hcfm, hconf⟩ : ∃ cfm, cfmWinPrice x input.order _ input.bid = .ok cfm ∧ _ :=
        cfmWinPrice_confirmed hnodup hdsp herase (hkeep hne)
      refine ⟨cfm, rfl, ?_, hconf⟩
      rw [hsome, hlist]
      exact hcfm
  · next hasks =>
    cases h
    rw [if_neg hasks]
    exact ⟨_, [], rfl, rfl, by simp, by simp, by simp, by simp⟩

/-- **The confirmations of both phases go out** after the stages of a run. -/
lemma stages_confirmed {network : Bool} {st : Stages} (hbid : x.dict.dsp (lit "bid") = none)
    (h : stages x network = .ok st) :
    ∃ reqs reqs', confirms x st = .ok (reqs, reqs') ∧
      Confirmed x.dict x.preDeal.bid st.preDeal.winners reqs ∧
      Confirmed x.dict x.openAuction.bid st.openAuction.winners reqs' := by
  obtain ⟨hvalid, hsina, hdealQuery, hdeal, hopenQuery, hopen, -, -⟩ := stages_ran h
  obtain ⟨p, reqs, hp, hreqs, hconf⟩ := phase_confirmed hbid
    (fun reqs hreqs => OfferedOnce.query_known.1 x st.valid st.sina st.preDealQuery reqs
      ⟨hvalid, hsina, hdealQuery, hreqs⟩) hdeal
  obtain ⟨p', reqs', hp', hreqs', hconf'⟩ := phase_confirmed hbid
    (fun reqs hreqs => OfferedOnce.query_known.2 x st.valid st.preDeal st.openQuery reqs
      ⟨st.sina, st.preDealQuery, hvalid, hsina, hdealQuery, hdeal, hopenQuery, hreqs⟩) hopen
  refine ⟨reqs, reqs', ?_, hconf, hconf'⟩
  simp only [confirms, hp, hp', ok_bind, hreqs, hreqs']
  rfl

end run

/-- **Whoever won is told, and nobody else**: a run of `newImpress` or `wapImpress` that builds
its response confirms the winners of each phase, where no DSP has the id `bid`. -/
theorem winners_confirmed (x : Request) (hbid : x.dict.dsp (lit "bid") = none) :
    (∀ st rsp, newImpress x = .ok (st, rsp) → ∃ reqs reqs', newImpressCfm x = .ok (reqs, reqs') ∧
      Confirmed x.dict x.preDeal.bid st.preDeal.winners reqs ∧
      Confirmed x.dict x.openAuction.bid st.openAuction.winners reqs') ∧
    (∀ st rsp, wapImpress x = .ok (st, rsp) → ∃ reqs reqs', wapImpressCfm x = .ok (reqs, reqs') ∧
      Confirmed x.dict x.preDeal.bid st.preDeal.winners reqs ∧
      Confirmed x.dict x.openAuction.bid st.openAuction.winners reqs') := by
  constructor
  · intro st rsp h
    obtain ⟨reqs, reqs', hreqs, hconf⟩ :=
      stages_confirmed (x := x.pc) hbid (newImpress_ok h).1
    exact ⟨reqs, reqs', by rw [newImpressCfm, h]; exact hreqs, hconf⟩
  · intro st rsp h
    obtain ⟨reqs, reqs', hreqs, hconf⟩ :=
      stages_confirmed (x := x.wap) hbid (wapImpress_ok h).1
    exact ⟨reqs, reqs', by rw [wapImpressCfm, h]; exact hreqs, hconf⟩

section samples

open Sax.Clearing Sax.Capacity

/-- The phases of bidding of a run. -/
def bidding (x : Request) : Lua (Stage × Stage) := do
  let valid ← getAdData x.dict x.adReq.adUnitIdList
  let sina ← querySina x valid
  let preDealQuery ← getPreDealQueryList x.preDeal sina
  let preDeal ← launch x .preferredDeal x.preDeal preDealQuery sina []
  let openQuery ← getDspQueryList x.dict x.openAuction preDeal.page.adPendList
  return (preDeal, ← launch x .openAuction x.openAuction openQuery preDeal.page preDeal.cmUrlList)

/-- `V` has the bottom ads `[{}]`, and DSP 2 is told what it won. -/
def cfmDict : Dict := .ofLists
  [("U", ⟨lit "300*250", [], 1, 1, 1, [], lit "fp", [], []⟩),
    ("V", ⟨lit "300*250", [], 1, 1, 1, [], lit "fp", [.empty], []⟩)]
  [(1, ⟨1, 1, 1⟩)] [(1, ⟨0, [lit "2"], 1, []⟩)]
  [("2", ⟨lit "http://b/bid", lit "http://b/cfm", [], [], 1, []⟩)]
  [("2c", ⟨1, 2, lit "c", lit "a", 1⟩)] [("2a", ⟨1, 2, lit "a", 1, lit "111"⟩)]

/-- The creative of DSP 2. -/
def snippetText : String :=
  "\x7b\"src\":[\"s\"],\"type\":[\"text\"],\"link\":[],\"pv\":[]\x7d"

def snippet : Val :=
  .obj [("src", .strs [lit "s"]), ("type", .strs [lit "text"]), ("link", .empty), ("pv", .empty)]

/-- DSP 2 bids 3 for `U`. -/
def cfmText : String :=
  "\x7b\"version\":\"1.0\",\"bid\":\"b\",\"ad_creative\":[\x7b\"id\":\"U\",\"max_cpm_price\":3," ++
    "\"creative\":[\x7b\"id\":\"c\",\"html_snippet\":\"\x7b\\\"src\\\":[\\\"s\\\"]," ++
    "\\\"type\\\":[\\\"text\\\"],\\\"link\\\":[],\\\"pv\\\":[]\x7d\"\x7d]\x7d]," ++
    "\"cm_flag\":\"false\"\x7d"

def cfmBody : Val :=
  .obj [("version", .str (lit "1.0")), ("bid", .str (lit "b")),
    ("ad_creative", .arr [.obj [("id", .str (lit "U")), ("max_cpm_price", .num 3),
      ("creative", .arr [.obj [("id", .str (lit "c")),
        ("html_snippet", .str (lit snippetText))]])]]),
    ("cm_flag", .str (lit "false"))]

/-- A request for the ad units. -/
def cfmRequest (units : List String) : Request where
  lib := .ofTexts [(cfmText, cfmBody), (snippetText, snippet)]
  dict := cfmDict
  adReq := { sampleReq with adUnitIdList := units.map lit }
  sina := ⟨500, []⟩
  preDeal := plainInput (ok cfmText)
  openAuction := plainInput (ok cfmText)
  networkDraw := fun _ => .least
  bottomDraw := fun _ _ => .least

/-- DSP 2 has won `U` on a WAP page when the bottom ad of `V` raises, for want of a `src`, and DSP 2
is not told. -/
theorem raising_bottom_ad_confirms_nobody :
    (bidding (cfmRequest ["U", "V"]).wap).map
        (fun p => p.2.winners.map fun e => (e.1, e.2.dsp_id, e.2.win_cpm_price)) =
      .ok [(lit "U", lit "2", some 1)] ∧
    getConfirmUrl cfmDict (lit "2") = .ok (some (lit "http://b/cfm")) ∧
    ∀ r, wapImpressCfm (cfmRequest ["U", "V"]) ≠ .ok r := by
  have hraise : (wapImpressCfm (cfmRequest ["U", "V"])).isOk = false := by decide +kernel
  refine ⟨by decide +kernel, by decide, fun r hr => ?_⟩
  rw [hr] at hraise
  cases hraise

theorem winners_confirmed_samples :
    (∃ st rsp, newImpress (cfmRequest ["U"]) = .ok (st, rsp) ∧
      ∃ reqs reqs', newImpressCfm (cfmRequest ["U"]) = .ok (reqs, reqs') ∧
        Confirmed cfmDict (lit "b") st.preDeal.winners reqs ∧
        Confirmed cfmDict (lit "b") st.openAuction.winners reqs') ∧
    ∃ st rsp, wapImpress (cfmRequest ["U"]) = .ok (st, rsp) ∧
      ∃ reqs reqs', wapImpressCfm (cfmRequest ["U"]) = .ok (reqs, reqs') ∧
        Confirmed cfmDict (lit "b") st.preDeal.winners reqs ∧
        Confirmed cfmDict (lit "b") st.openAuction.winners reqs' := by
  have hpc : (newImpress (cfmRequest ["U"])).isOk := by decide +kernel
  have hwap : (wapImpress (cfmRequest ["U"])).isOk := by decide +kernel
  obtain ⟨r, hr⟩ := exists_ok hpc
  obtain ⟨r', hr'⟩ := exists_ok hwap
  exact ⟨⟨r.1, r.2, hr, (winners_confirmed (cfmRequest ["U"]) rfl).1 _ _ hr⟩,
    r'.1, r'.2, hr', (winners_confirmed (cfmRequest ["U"]) rfl).2 _ _ hr'⟩

end samples

end Sax.Confirm
