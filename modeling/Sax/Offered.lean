import Sax.WebRtb
import Sax.Clearing

/-!
Who can win what: the winners of a phase against the bid requests the phase sent.

The extraction files a bid under whatever ad unit its entry names, and never looks at the
request the DSP was sent. So a DSP can win exactly the units on which it leads, and it wins
only units it was offered exactly when it leads on no other.
-/

namespace Sax.Offered

open Sax.LuaVal Sax.Loop Sax.SecondPrice Sax.Const Sax.Runtime Sax.Store Sax.Auction Sax.Extract
open Sax.BidRsp (Ctx Creative AdCreative getAdLowestPrice)
open Sax.WebRtb (Win Phase Round)

section copy

variable {ε γ : Type} (x : Copy ε γ) (floor : Str → Lua (Option ℚ))

/-- With some order of equal bids and some draw, ad unit `u` goes to the winner `w` when the
DSPs answer `l`. -/
def CanWin (l : List (Str × Rsp)) (u : Str) (w : Winner γ) : Prop :=
  ∃ bidInfo, (∃ cmUrlList, x.Keeps (l.map Prod.snd) (l.map Prod.fst) cmUrlList u bidInfo) ∧
    ∃ (o : Order) (draw : Draw), auction o draw (floor u) bidInfo = .ok w

/-- The entry is kept as a bid that no other on its ad unit beats. -/
def Leads (l : List (Str × ε)) (p : Str × ε) : Prop :=
  ∃ b, x.keep p.1 p.2 = .ok (some b) ∧ IsTop Bid.max_cpm_price (x.bids (x.id p.2) l) b

/-- Whoever can win a unit is related to it. -/
def WinsOnly (l : List (Str × Rsp)) (R : Str → Str → Prop) : Prop :=
  ∀ u w, CanWin x floor l u w → R w.dsp_id u

/-- Unless some accepted entry makes the extraction raise, each one that leads comes from a
DSP related to the unit it names. -/
def LeadsOnly (l : List (Str × Rsp)) (R : Str → Str → Prop) : Prop :=
  (∀ p ∈ x.accepted l, x.Passes p) →
    ∀ p ∈ x.accepted l, Leads x (x.accepted l) p → R p.1 (x.id p.2)

variable {x floor} {l : List (Str × Rsp)} {cmUrlList : List Str} {u : Str}

lemma keeps_iff_passes {bidInfo : List (Bid γ)} :
    x.Keeps (l.map Prod.snd) (l.map Prod.fst) cmUrlList u bidInfo ↔
      (∀ p ∈ x.accepted l, x.Passes p) ∧ x.bids u (x.accepted l) = bidInfo ∧ bidInfo ≠ [] := by
  have hzip : (l.map Prod.fst).zip (l.map Prod.snd) = l := by simp [List.zip_map']
  constructor
  · rintro ⟨s, hs, hu⟩
    obtain ⟨t, ht, -⟩ := Copy.extractAdBid_ok.mp hs
    have hbids := (Copy.extractAdBid_get hs).mp hu
    rw [hzip] at ht hbids
    exact ⟨Copy.collect_isOk.mp ⟨t, ht⟩, hbids⟩
  · rintro ⟨hpass, hbids⟩
    obtain ⟨t, ht⟩ := Copy.collect_isOk.mpr hpass
    have hs : x.extractAdBid (l.map Prod.snd) (l.map Prod.fst) cmUrlList = .ok _ :=
      Copy.extractAdBid_ok.mpr ⟨t, by rw [hzip]; exact ht, rfl⟩
    exact ⟨_, hs, (Copy.extractAdBid_get hs).mpr (by rw [hzip]; exact hbids)⟩

/-- An entry's bid carries the DSP it came from, against a floor that is known. -/
def Signed (x : Copy ε γ) (floor : Str → Lua (Option ℚ)) : Prop :=
  ∀ (p : Str × ε) (b : Bid γ), x.keep p.1 p.2 = .ok (some b) →
    b.dsp_id = p.1 ∧ ∃ f, floor (x.id p.2) = .ok (some f)

lemma outcome_winner {bidInfo : List (Bid γ)} {b : Bid γ} {r : Lua (Winner γ)} {f : ℚ}
    {look : Lua (Option ℚ)} (hf : look = .ok (some f)) (h : Outcome look bidInfo b r) :
    ∃ w, r = .ok w ∧ w.dsp_id = b.dsp_id ∧ w.creative = b.creative ∧ w.win_cpm_price.isSome := by
  rcases h with ⟨-, rfl⟩ | ⟨s, -, rfl⟩
  · exact ⟨⟨b.dsp_id, some f, b.creative⟩, by rw [hf]; rfl, rfl, rfl, rfl⟩
  · exact ⟨_, rfl, rfl, rfl, rfl⟩

/-- **A DSP can win exactly the units on which one of its entries leads**, provided the
extraction comes to its end. -/
theorem exists_canWin_iff (hx : Signed x floor) {dspId : Str} :
    (∃ w, CanWin x floor l u w ∧ w.dsp_id = dspId) ↔
      (∀ p ∈ x.accepted l, x.Passes p) ∧
        ∃ p ∈ x.accepted l, p.1 = dspId ∧ x.id p.2 = u ∧ Leads x (x.accepted l) p := by
  constructor
  · rintro ⟨w, ⟨bidInfo, ⟨cm, hkeeps⟩, o, draw, hw⟩, rfl⟩
    obtain ⟨hpass, rfl, hne⟩ := keeps_iff_passes.mp hkeeps
    obtain ⟨b, hb, hout⟩ := auction_spec o draw (floor u) hne
    obtain ⟨p, hp, rfl, hk⟩ := Copy.mem_bids.mp hb.1
    obtain ⟨hdsp, f, hf⟩ := hx p b hk
    obtain ⟨w', hw', hd, -⟩ := outcome_winner hf hout
    rw [hw] at hw'
    cases hw'
    exact ⟨hpass, p, hp, by rw [hd, hdsp], rfl, b, hk, hb⟩
  · rintro ⟨hpass, p, hp, rfl, rfl, b, hk, hb⟩
    obtain ⟨hdsp, f, hf⟩ := hx p b hk
    obtain ⟨draw, hout⟩ := auction_reaches .plain (floor (x.id p.2)) hb
    obtain ⟨w, hw, hd, -⟩ := outcome_winner hf hout
    have hne : x.bids (x.id p.2) (x.accepted l) ≠ [] :=
      List.ne_nil_of_mem (Copy.mem_bids.mpr ⟨p, hp, rfl, hk⟩)
    exact ⟨w, ⟨_, ⟨[], keeps_iff_passes.mpr ⟨hpass, rfl, hne⟩⟩, .plain, draw, hw⟩, by rw [hd, hdsp]⟩

/-- Every winner is related to its unit exactly when every leading entry is. -/
theorem winsOnly_iff_leadsOnly (hx : Signed x floor) {R : Str → Str → Prop} :
    WinsOnly x floor l R ↔ LeadsOnly x l R := by
  constructor
  · intro h hpass p hp hlead
    obtain ⟨w, hw, hd⟩ := (exists_canWin_iff hx).mpr ⟨hpass, p, hp, rfl, rfl, hlead⟩
    exact hd ▸ h _ w hw
  · intro h u w hw
    obtain ⟨hpass, p, hp, hd, rfl, hlead⟩ := (exists_canWin_iff hx).mp ⟨w, hw, rfl⟩
    exact hd ▸ h hpass p hp hlead

end copy

lemma web_signed (c : Ctx) :
    Signed (BidRsp.rtb c) (getAdLowestPrice c.dict c.auction_type) := by
  intro p b h
  obtain ⟨hd, -, ⟨f, hf, -⟩, -⟩ := BidRsp.keep_some h
  exact ⟨hd, f, hf⟩

lemma mobile_signed (c : Ctx) :
    Signed (MobileRtb.rtb c) (MobileRtb.getFloorPrice c.dict c.auction_type) := by
  intro p b h
  obtain ⟨floor, hfloor, h⟩ := bind_ok.mp h
  cases floor with
  | none => cases h
  | some f => exact ⟨(BidRsp.keepAtLeast_some h).1, f, hfloor⟩

/-! ### The requests of a phase -/

section requests

variable {c : Ctx} {o : Order} {dspQueryList : Tbl (List Str)} {adCreativeList : WebRtb.Creatives}
  {reqs : List (Str × WebRtb.BidReq)}

lemma bidReq_ok {dspId : Str} {adUnitList : List Str} {r : Str × WebRtb.BidReq}
    (h : WebRtb.bidReq c adCreativeList dspId adUnitList = .ok r) :
    r.1 = dspId ∧ adUnitList.mapM (WebRtb.adUnitReq c adCreativeList) = .ok r.2.body.ad_unit := by
  obtain ⟨l, hl, h⟩ := bind_ok.mp h
  obtain ⟨url, -, h⟩ := bind_ok.mp h
  cases h
  exact ⟨rfl, hl⟩

lemma adUnitReq_id {u : Str} {t : WebRtb.AdUnitReq}
    (h : WebRtb.adUnitReq c adCreativeList u = .ok t) : t.id = u := by
  obtain ⟨_, -, h⟩ := bind_ok.mp h
  obtain ⟨_, -, h⟩ := bind_ok.mp h
  obtain ⟨_, -, h⟩ := bind_ok.mp h
  obtain ⟨_, -, h⟩ := bind_ok.mp h
  obtain ⟨_, -, h⟩ := bind_ok.mp h
  obtain ⟨_, -, h⟩ := bind_ok.mp h
  cases h
  rfl

/-- The body for a DSP lists the ad units queued for it. -/
lemma buildBidReq_ids (h : WebRtb.buildBidReq c o dspQueryList adCreativeList = .ok reqs)
    {dspId : Str} {req : WebRtb.BidReq} (hr : (dspId, req) ∈ reqs) :
    ∃ adUnitList, dspQueryList.get dspId = some adUnitList ∧
      req.body.ad_unit.map WebRtb.AdUnitReq.id = adUnitList := by
  obtain ⟨e, he, hreq⟩ := mapM_mem h hr
  obtain ⟨rfl, hunits⟩ := bidReq_ok hreq
  refine ⟨e.2, (o.mem_pairs (k := e.1)).mp he, ?_⟩
  exact mapM_map (fun u t => adUnitReq_id) hunits

end requests

/-- The body sent to the DSP lists the ad unit. -/
def Listed (reqs : List (Str × WebRtb.BidReq)) (dspId u : Str) : Prop :=
  ∃ req, (dspId, req) ∈ reqs ∧ u ∈ req.body.ad_unit.map WebRtb.AdUnitReq.id

/-- The same of a mobile request. -/
def MobileListed (reqs : List (Str × MobileRtb.BidReq)) (dspId u : Str) : Prop :=
  ∃ req, (dspId, req) ∈ reqs ∧ u ∈ req.body.imp.map MobileRtb.Imp.id

/-- The answers to the requests. -/
def answers {β : Type} (reqs : List (Str × β)) (rsp : Str → Rsp) : List (Str × Rsp) :=
  reqs.map fun r => (r.1, rsp r.1)

/-- **Whom a phase selects can win.** -/
theorem launch_winners {c : Ctx} {o : Order} {draw : Str → Draw} {rsp : Str → Rsp}
    {dspQueryList : Tbl (List Str)} {adPendList cmUrlList : List Str}
    {adCreativeList : WebRtb.Creatives} {out : Phase}
    (h : WebRtb.launchRtbForDsp c o draw rsp dspQueryList adPendList adCreativeList cmUrlList =
      .ok out) :
    ∃ reqs, WebRtb.buildBidReq c o dspQueryList adCreativeList = .ok reqs ∧
      ∀ e ∈ out.winners, CanWin (BidRsp.rtb c) (getAdLowestPrice c.dict c.auction_type)
        (answers reqs rsp) e.1 e.2 := by
  obtain ⟨reqs, hreqs, h⟩ := bind_ok.mp h
  obtain ⟨s, hs, h⟩ := bind_ok.mp h
  obtain ⟨r, hr, h⟩ := bind_ok.mp h
  cases h
  refine ⟨reqs, hreqs, ?_⟩
  refine foldlM_inv (P := fun r : Round => ∀ e ∈ r.winners, CanWin _ _ _ e.1 e.2) ?_ ?_ hr
  · intro r e r' he hr hstep
    obtain ⟨w, hw, hstep⟩ := bind_ok.mp hstep
    obtain ⟨_, -, hstep⟩ := bind_ok.mp hstep
    obtain ⟨_, -, hstep⟩ := bind_ok.mp hstep
    obtain ⟨_, -, hstep⟩ := bind_ok.mp hstep
    cases hstep
    intro e' he'
    rcases List.mem_append.mp he' with h | h
    · exact hr e' h
    · rw [List.mem_singleton] at h
      subst h
      refine ⟨e.2, ⟨cmUrlList, s, ?_, (o.mem_pairs (k := e.1)).mp he⟩, o, draw e.1, hw⟩
      simpa [answers, BidRsp.extractAdBid, Function.comp_def] using hs
  · simp

/-- **A DSP wins only ad units listed in the body this phase sent to it exactly when, unless
the extraction raises, each entry of its response that leads on its unit names a listed
one**, in the web and in the mobile exchange. -/
theorem wins_only_listed_iff (c : Ctx) (o : Order) (rsp : Str → Rsp) :
    (∀ dspQueryList adCreativeList reqs,
      WebRtb.buildBidReq c o dspQueryList adCreativeList = .ok reqs →
        (WinsOnly (BidRsp.rtb c) (getAdLowestPrice c.dict c.auction_type) (answers reqs rsp)
            (Listed reqs) ↔
          LeadsOnly (BidRsp.rtb c) (answers reqs rsp) (Listed reqs))) ∧
    (∀ (adReq : MobileRtb.AdReq) dspBidList reqs,
      MobileRtb.buildBidReq c adReq o dspBidList = .ok reqs →
        (WinsOnly (MobileRtb.rtb c) (MobileRtb.getFloorPrice c.dict c.auction_type)
            (answers reqs rsp) (MobileListed reqs) ↔
          LeadsOnly (MobileRtb.rtb c) (answers reqs rsp) (MobileListed reqs))) :=
  ⟨fun _ _ _ _ => winsOnly_iff_leadsOnly (web_signed c),
    fun _ _ _ _ => winsOnly_iff_leadsOnly (mobile_signed c)⟩

section samples

open Sax.Clearing

/-- Ad unit `U` has DSP 3 on its whitelist, ad unit `V` DSP 2. -/
def offerDict : Dict := .ofLists
  [("U", ⟨lit "300*250", [], 1, 1, 1, [], lit "fp", [], []⟩),
    ("V", ⟨lit "300*250", [], 1, 2, 1, [], lit "fp", [], []⟩)]
  [(1, ⟨1, 1, 1⟩), (2, ⟨2, 1, 1⟩)]
  [(1, ⟨1, [lit "3"], 1, [lit "3"]⟩), (2, ⟨1, [lit "2"], 1, [lit "2"]⟩)]
  [("2", ⟨lit "http://b/bid", [], [], [], 1, []⟩), ("3", ⟨lit "http://c/bid", [], [], [], 1, []⟩)]
  [("2c", ⟨1, 2, lit "c", lit "a", 1⟩)] [("2a", ⟨1, 2, lit "a", 1, lit "111"⟩)]

def offerCtx : Ctx :=
  { sampleCtx [(webText "3", webBody 3), (appText "3" "x", appBody 3 "x")] .openAuction with
    dict := offerDict }

/-- Only DSP 2 is queried, for `V`. -/
def offerQuery : Tbl (List Str) := (∅ : Tbl (List Str)).insert (lit "2") [lit "V"]

def mobileReq : MobileRtb.AdReq := ⟨[], [], [], [], [], [], ∅⟩

/-- DSP 2 is sent a request for `V` alone, answers with a bid for `U`, and wins `U`. -/
theorem unlisted_unit_won :
    (WebRtb.buildBidReq offerCtx .plain offerQuery ∅).map
        (·.map fun r => (r.1, r.2.body.ad_unit.map WebRtb.AdUnitReq.id)) =
      .ok [(lit "2", [lit "V"])] ∧
    (WebRtb.launchRtbForDsp offerCtx .plain (fun _ => .least) (fun _ => ok (webText "3"))
        offerQuery [lit "V"] ∅ []).map (·.winners.map fun e => (e.1, e.2.dsp_id)) =
      .ok [(lit "U", lit "2")] := by
  decide +kernel

theorem wins_only_listed_iff_samples :
    (∃ reqs, WebRtb.buildBidReq offerCtx .plain offerQuery ∅ = .ok reqs ∧
      (WinsOnly (BidRsp.rtb offerCtx) (getAdLowestPrice offerDict .openAuction)
          (answers reqs fun _ => ok (webText "3")) (Listed reqs) ↔
        LeadsOnly (BidRsp.rtb offerCtx) (answers reqs fun _ => ok (webText "3")) (Listed reqs))) ∧
    ∃ reqs, MobileRtb.buildBidReq offerCtx mobileReq .plain offerQuery = .ok reqs ∧
      (WinsOnly (MobileRtb.rtb offerCtx) (MobileRtb.getFloorPrice offerDict .openAuction)
          (answers reqs fun _ => ok (appText "3" "x")) (MobileListed reqs) ↔
        LeadsOnly (MobileRtb.rtb offerCtx) (answers reqs fun _ => ok (appText "3" "x"))
          (MobileListed reqs)) := by
  have hweb : (WebRtb.buildBidReq offerCtx .plain offerQuery ∅).isOk := by decide +kernel
  have hmobile : (MobileRtb.buildBidReq offerCtx mobileReq .plain offerQuery).isOk := by
    decide +kernel
  obtain ⟨reqs, hreqs⟩ := exists_ok hweb
  obtain ⟨reqs', hreqs'⟩ := exists_ok hmobile
  exact ⟨⟨reqs, hreqs, (wins_only_listed_iff _ _ _).1 _ _ _ hreqs⟩,
    reqs', hreqs', (wins_only_listed_iff _ _ _).2 _ _ _ hreqs'⟩

end samples

end Sax.Offered
