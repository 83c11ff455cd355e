import Sax.Impress

/-!
How many creatives an ad unit carries in the response.

The bottom ads alone look at the room that is left. Sina's creatives and a winner's are all
taken, and a network ad goes to any pending unit without a creative. So the response is within the
ad numbers if, in each stage, the answers leave no bid in the lead that brings more creatives than
its unit has room before the stage; and a bid in the lead can win.
-/

namespace Sax.Capacity

open Sax.LuaVal Sax.Loop Sax.Const Sax.Runtime Sax.Store Sax.WebRtb Sax.SinaQuery Sax.Impress
open Sax.Room Sax.Ledger
open Sax.Auction (Bid auction_spec auction_reaches)
open Sax.Extract (Rsp Copy)
open Sax.SecondPrice (IsTop)
open Sax.BidRsp (Creative)

variable {x : Request} {d : Dict} {s : Page} {s' : Page} {u : Str}

/-! ### The stages as fills -/

lemma getAdData_mem {l pend : List Str} (h : getAdData d l = .ok pend) :
    ∀ u ∈ pend, u ∈ l ∧ isServed d u = .ok true := by
  refine foldlM_inv (P := fun pend => ∀ u ∈ pend, u ∈ l ∧ isServed d u = .ok true) ?_ (by simp) h
  intro pend a pend' ha hpend hstep
  obtain ⟨b, hb, hstep⟩ := bind_ok.mp hstep
  cases hstep
  cases b with
  | false => exact hpend
  | true =>
    intro u hu
    rcases List.mem_append.mp hu with hu | hu
    · exact hpend u hu
    · rw [List.mem_singleton.mp hu]
      exact ⟨ha, hb⟩

/-- The ad units that are to ask the Sina ad engine. -/
def AsksSina (x : Request) (valid : List Str) : Prop :=
  ∃ l, getSinaQueryList x.dict valid = .ok l ∧ l ≠ []

/-- What the Sina ad engine fills in. -/
lemma querySina_spec {valid : List Str} (h : querySina x valid = .ok s) :
    AsksSina x valid ∧ Answered x.dict (adsOf x.lib x.sina) ⟨valid, ∅, ∅⟩ s ∨
      ¬ AsksSina x valid ∧ s = ⟨valid, ∅, ∅⟩ := by
  obtain ⟨l, hl, h⟩ := bind_ok.mp h
  split at h
  · next hne => exact .inl ⟨⟨l, hl, hne⟩, handleQueryRsp_answered h⟩
  · next hnil =>
    cases h
    refine .inr ⟨?_, rfl⟩
    rintro ⟨l', hl', hne⟩
    rw [hl] at hl'
    cases hl'
    exact hnil hne

lemma used_empty : used (∅ : Creatives) = fun _ => 0 := by
  funext u
  simp [used]

/-- What an answer uses is what its ordinary creatives take up. -/
lemma answered_used {valid : List Str}
    (h : Answered x.dict (adsOf x.lib x.sina) ⟨valid, ∅, ∅⟩ s) (u : Str) :
    used s.adCreativeList u = added u (fillsOf (adsOf x.lib x.sina)) := by
  have hfills : ((book valid (∅ : Creatives)).fills (capacity x.dict)
    (fillsOf (adsOf x.lib x.sina))).used u = _ := Book.used_fills
  rw [← h.book] at hfills
  simpa [book, used_empty] using hfills

/-- A phase of bidding fills the book by the creatives of its winners. -/
lemma launch_book {auction_type : AuctionType} {input : PhaseInput} {query : Tbl (List Str)}
    {cmUrlList : List Str} {out : Stage}
    (h : launch x auction_type input query s cmUrlList = .ok out) :
    book out.page.adPendList out.page.adCreativeList =
        (book s.adPendList s.adCreativeList).fills (capacity x.dict) (awards out.winners) ∧
      ((awards out.winners).map Prod.fst).Nodup ∧ ∀ e ∈ awards out.winners, 0 < e.2 := by
  unfold launch at h
  split at h
  · obtain ⟨r, hr, h⟩ := bind_ok.mp h
    cases h
    obtain ⟨reqs, -, hr⟩ := bind_ok.mp hr
    exact handleBidRsp_book hr
  · cases h
    exact ⟨rfl, by simp [awards], by simp [awards]⟩

/-- The bids kept for the ad unit `u` of what the DSPs of `query` answer. -/
def offers (x : Request) (auction_type : AuctionType) (input : PhaseInput) (query : Tbl (List Str))
    (u : Str) : List (Bid (List Creative)) :=
  let copy := BidRsp.rtb (x.ctx auction_type input)
  copy.bids u (copy.accepted ((input.order.pairs query).map fun e => (e.1, input.rsp e.1)))

/-- A phase of bidding awards each ad unit that has bids to whom the auction selects. -/
lemma launch_winners {auction_type : AuctionType} {input : PhaseInput} {query : Tbl (List Str)}
    {cmUrlList : List Str} {out : Stage}
    (h : launch x auction_type input query s cmUrlList = .ok out) :
    (∀ u w, (u, w) ∈ out.winners ↔ offers x auction_type input query u ≠ [] ∧
        BidRsp.selectWinner x.dict auction_type input.order (input.draw u)
          (offers x auction_type input query u) u = .ok w) ∧
      ∀ u, offers x auction_type input query u ≠ [] →
        ∃ w, BidRsp.selectWinner x.dict auction_type input.order (input.draw u)
          (offers x auction_type input query u) u = .ok w := by
  unfold launch at h
  split at h
  · obtain ⟨r, hr, h⟩ := bind_ok.mp h
    cases h
    obtain ⟨reqs, hreqs, hr⟩ := bind_ok.mp hr
    have hids : reqs.map Prod.fst = (input.order.pairs query).map Sigma.fst :=
      mapM_map_eq (fun e r hr => (Offered.bidReq_ok hr).1) hreqs
    have hzip : (reqs.map Prod.fst).zip (reqs.map fun r => input.rsp r.1) =
        (input.order.pairs query).map fun e => (e.1, input.rsp e.1) := by
      have hrsp : (reqs.map fun r => input.rsp r.1) = (reqs.map Prod.fst).map input.rsp := by
        rw [List.map_map]
        rfl
      rw [hrsp, hids, List.map_map, List.zip_map']
      rfl
    exact handleBidRsp_winners hr fun u => by rw [hzip]; rfl
  · next hnone =>
    cases h
    have hnil : input.order.pairs query = [] := by
      rw [Bool.not_eq_true', Bool.not_eq_false, List.isEmpty_iff] at hnone
      refine List.eq_nil_iff_forall_not_mem.mpr fun e he => ?_
      have hget := (input.order.mem_pairs (k := e.1) (v := e.2)).mp he
      rw [show query = ∅ from AList.ext hnone] at hget
      cases hget
    have hoffers : ∀ u, offers x auction_type input query u = [] := fun u => by
      rw [offers, hnil]
      rfl
    simp [hoffers]

/-- A winner has the creatives of a bid in the lead. -/
lemma winner_top {auction_type : AuctionType} {input : PhaseInput} {query : Tbl (List Str)}
    {w : Win} {draw : Draw} (hne : offers x auction_type input query u ≠ [])
    (hw : BidRsp.selectWinner x.dict auction_type input.order draw
      (offers x auction_type input query u) u = .ok w) :
    ∃ b, IsTop Bid.max_cpm_price (offers x auction_type input query u) b ∧
      w.creative = b.creative := by
  obtain ⟨b, hb, hout⟩ :=
    auction_spec input.order draw (BidRsp.getAdLowestPrice x.dict auction_type u) hne
  obtain ⟨p, -, hu, hkeep⟩ := Copy.mem_bids.mp hb.1
  obtain ⟨-, f, hf⟩ := Offered.web_signed (x.ctx auction_type input) p b hkeep
  rw [hu] at hf
  obtain ⟨w', hw', -, hcreative, -⟩ := Offered.outcome_winner hf hout
  rw [BidRsp.selectWinner, hw'] at hw
  cases hw
  exact ⟨b, hb, hcreative⟩

/-- A bid in the lead wins with some draw. -/
lemma top_wins {auction_type : AuctionType} {input : PhaseInput} {query : Tbl (List Str)}
    {b : Bid (List Creative)} (hb : IsTop Bid.max_cpm_price (offers x auction_type input query u) b) :
    ∃ draw w, BidRsp.selectWinner x.dict auction_type input.order draw
      (offers x auction_type input query u) u = .ok w ∧ w.creative = b.creative := by
  obtain ⟨p, -, hu, hkeep⟩ := Copy.mem_bids.mp hb.1
  obtain ⟨-, f, hf⟩ := Offered.web_signed (x.ctx auction_type input) p b hkeep
  rw [hu] at hf
  obtain ⟨draw, hout⟩ :=
    auction_reaches input.order (BidRsp.getAdLowestPrice x.dict auction_type u) hb
  obtain ⟨w, hw, -, hcreative, -⟩ := Offered.outcome_winner hf hout
  exact ⟨draw, w, hw, hcreative⟩

/-! ### Network and bottom ads -/

/-- The ad unit is given a network ad. -/
def GetsNetworkAd (x : Request) (u : Str) : Prop :=
  ∃ e, networkAd x.dict (x.networkDraw u) u = .ok (some e)

/-- Step lemma: an ad unit without a creative that gets a network ad has one afterwards. -/
lemma fillNetwork_used (h : fillNetwork x s u = .ok s') (v : Str) :
    (v = u ∧ used s.adCreativeList u = 0 ∧ GetsNetworkAd x u → used s'.adCreativeList v = 1) ∧
      (¬ (v = u ∧ used s.adCreativeList u = 0 ∧ GetsNetworkAd x u) →
        used s'.adCreativeList v = used s.adCreativeList v) := by
  unfold fillNetwork at h
  split at h
  · next h0 =>
    obtain ⟨e, he, h⟩ := bind_ok.mp h
    cases e with
    | none =>
      cases h
      refine ⟨?_, fun _ => rfl⟩
      rintro ⟨-, -, e, hsome⟩
      rw [he] at hsome
      cases hsome
    | some e =>
      obtain ⟨temp, -, h⟩ := bind_ok.mp h
      cases h
      constructor
      · rintro ⟨rfl, -, -⟩
        simp [used, Tbl.get]
      · intro hno
        have hv : v ≠ u := fun hv => hno ⟨hv, h0, e, he⟩
        simp [used, Tbl.get, AList.lookup_insert_ne hv]
  · next h0 =>
    cases h
    exact ⟨fun hyes => absurd hyes.2.1 h0, fun _ => rfl⟩

/-- Run lemma. -/
lemma fillNetworkAd_used (h : fillNetworkAd x s = .ok s') (v : Str) :
    (v ∈ s.adPendList ∧ used s.adCreativeList v = 0 ∧ GetsNetworkAd x v →
        used s'.adCreativeList v = 1) ∧
      (¬ (v ∈ s.adPendList ∧ used s.adCreativeList v = 0 ∧ GetsNetworkAd x v) →
        used s'.adCreativeList v = used s.adCreativeList v) := by
  have hrun := foldlM_prefix
    (P := fun done t => (v ∈ done ∧ used s.adCreativeList v = 0 ∧ GetsNetworkAd x v →
        used t.adCreativeList v = 1) ∧
      (¬ (v ∈ done ∧ used s.adCreativeList v = 0 ∧ GetsNetworkAd x v) →
        used t.adCreativeList v = used s.adCreativeList v)) (d := []) ?_ (by simp) h
  · exact hrun
  · rintro done u t t' _ ⟨hfilled, hkept⟩ hstep
    obtain ⟨h1, h2⟩ := fillNetwork_used hstep v
    by_cases hdone : v ∈ done ∧ used s.adCreativeList v = 0 ∧ GetsNetworkAd x v
    · have hone := hfilled hdone
      have hstay : used t'.adCreativeList v = 1 := by
        rw [h2, hone]
        rintro ⟨rfl, h0, -⟩
        omega
      exact ⟨fun _ => hstay, fun hno => absurd ⟨List.mem_append_left _ hdone.1, hdone.2⟩ hno⟩
    · have hsame := hkept hdone
      constructor
      · rintro ⟨hmem, h0, hgets⟩
        have hv : v = u := by
          rcases List.mem_append.mp hmem with hmem | hmem
          · exact absurd ⟨hmem, h0, hgets⟩ hdone
          · exact List.mem_singleton.mp hmem
        subst hv
        exact h1 ⟨rfl, hsame.trans h0, hgets⟩
      · intro hno
        rw [h2, hsame]
        rintro ⟨rfl, h0, hgets⟩
        exact hno ⟨by simp, hsame ▸ h0, hgets⟩

/-- Step lemma: bottom ads fill an ad unit up to its capacity. -/
lemma fillBottom_used (h : fillBottom x s u = .ok s') (v : Str) :
    used s'.adCreativeList v = used s.adCreativeList v ∨
      used s'.adCreativeList v = max (used s.adCreativeList v) (capacity x.dict v).toNat := by
  obtain ⟨nad, -, h⟩ := bind_ok.mp h
  cases nad with
  | none => cases h
  | some nad =>
    simp only at h
    split at h
    · obtain ⟨left, hleft, h⟩ := bind_ok.mp h
      obtain ⟨contents, hcontents, h⟩ := bind_ok.mp h
      cases h
      by_cases hv : v = u
      · subst hv
        obtain ⟨-, heq⟩ := getLeftAdNum_eq hleft
        have hlen : contents.length = left.toNat := by rw [mapM_length hcontents, List.length_range]
        rw [used_fill, Function.update_self, hlen]
        omega
      · rw [used_fill, Function.update_of_ne hv]
        exact .inl rfl
    · cases h
      exact .inl rfl

/-- Run lemma. -/
lemma fillBottomAd_used (h : fillBottomAd x s = .ok s') (v : Str) :
    used s.adCreativeList v ≤ used s'.adCreativeList v ∧
      used s'.adCreativeList v ≤ max (used s.adCreativeList v) (capacity x.dict v).toNat := by
  refine foldlM_inv (P := fun t => used s.adCreativeList v ≤ used t.adCreativeList v ∧
    used t.adCreativeList v ≤ max (used s.adCreativeList v) (capacity x.dict v).toNat) ?_
    ⟨le_rfl, le_max_left _ _⟩ h
  rintro t u t' _ ⟨hlo, hhi⟩ hstep
  rcases fillBottom_used hstep v with heq | heq <;> rw [heq] <;> omega

/-! ### The response -/

/-- No bid in the lead on an ad unit served brings more creatives than the unit has room on the
page before the phase. -/
def PhaseFits (x : Request) (auction_type : AuctionType) (input : PhaseInput)
    (query : Tbl (List Str)) (valid : List Str) (s : Page) : Prop :=
  ∀ u ∈ valid, ∀ b, IsTop Bid.max_cpm_price (offers x auction_type input query u) b →
    (b.creative.length : ℤ) ≤ capacity x.dict u - used s.adCreativeList u

/-- **What each stage is answered fits** the page before it, on the ad units served: the ordinary
creatives of the Sina answer on a unit are within its capacity, no bid in the lead brings more than
its unit has room, and a network ad is drawn for a unit that may carry one. -/
structure Fits (x : Request) (network : Bool) (st : Stages) : Prop where
  sina : AsksSina x st.valid → ∀ u ∈ st.valid,
    added u (fillsOf (adsOf x.lib x.sina)) ≤ (capacity x.dict u).toNat
  preDeal : ∀ query, getPreDealQueryList x.preDeal st.sina = .ok query →
    PhaseFits x .preferredDeal x.preDeal query st.valid st.sina
  openAuction : ∀ query, getDspQueryList x.dict x.openAuction st.preDeal.page.adPendList = .ok query →
    PhaseFits x .openAuction x.openAuction query st.valid st.preDeal.page
  network : network → ∀ u ∈ st.openAuction.page.adPendList,
    used st.openAuction.page.adCreativeList u = 0 → GetsNetworkAd x u → 1 ≤ capacity x.dict u

/-- Each fill of the run found room on the ad units served. -/
structure FoundRoom (x : Request) (network : Bool) (st : Stages) : Prop where
  sina : AsksSina x st.valid → ∀ u ∈ st.valid,
    added u (fillsOf (adsOf x.lib x.sina)) ≤ (capacity x.dict u).toNat
  preDeal : ∀ e ∈ st.preDeal.winners, e.1 ∈ st.valid →
    (e.2.creative.length : ℤ) ≤ capacity x.dict e.1 - used st.sina.adCreativeList e.1
  openAuction : ∀ e ∈ st.openAuction.winners, e.1 ∈ st.valid →
    (e.2.creative.length : ℤ) ≤ capacity x.dict e.1 - used st.preDeal.page.adCreativeList e.1
  network : network → ∀ u ∈ st.openAuction.page.adPendList,
    used st.openAuction.page.adCreativeList u = 0 → GetsNetworkAd x u → 1 ≤ capacity x.dict u

/-- Each requested ad unit that is served carries at most its capacity. -/
def Carries (d : Dict) (valid : List Str) (rsp : AdRsp) : Prop :=
  ∀ ad ∈ rsp.ad, ad.id ∈ valid → ad.content.length ≤ (capacity d ad.id).toNat

section stages

variable {network : Bool} {st : Stages}

/-- The page before the open auction is a sound book of the ad units served. -/
lemma preDeal_sound {valid : List Str} {preDealQuery : Tbl (List Str)} {p : Stage}
    (hsina : querySina x valid = .ok s)
    (hdeal : launch x .preferredDeal x.preDeal preDealQuery s [] = .ok p) :
    Sound (capacity x.dict) valid (book p.page.adPendList p.page.adCreativeList) := by
  have hstart : Sound (capacity x.dict) valid (book valid (∅ : Creatives)) := by
    rw [book, used_empty]
    exact sound_start
  rw [(launch_book hdeal).1]
  refine Sound.fills ?_
  rcases querySina_spec hsina with ⟨-, hans⟩ | ⟨-, rfl⟩
  · rw [hans.book]
    exact hstart.fills
  · exact hstart

/-- The pending list names only ad units served. -/
lemma pending_valid (h : stages x network = .ok st) :
    Sound (capacity x.dict) st.valid
      (book st.openAuction.page.adPendList st.openAuction.page.adCreativeList) := by
  have hran := stages_ran h
  rw [(launch_book hran.openAuction).1]
  exact (preDeal_sound hran.sina hran.preDeal).fills

/-- The answer of the Sina ad engine fits if its ordinary creatives do. -/
lemma sina_within_iff {valid : List Str} {s : Page} (h : querySina x valid = .ok s) :
    Within (capacity x.dict) (· ∈ valid) (used s.adCreativeList) ↔ (AsksSina x valid →
      ∀ u ∈ valid, added u (fillsOf (adsOf x.lib x.sina)) ≤ (capacity x.dict u).toNat) := by
  rcases querySina_spec h with ⟨hasks, hans⟩ | ⟨hnot, heq⟩
  · simp only [Within, answered_used hans, hasks, true_imp_iff]
  · rw [heq]
    simp [Within, used_empty, hnot]

/-- A phase of bidding fits if what was there before it does, and each winner finds room. -/
lemma launch_within_iff {auction_type : AuctionType} {input : PhaseInput}
    {query : Tbl (List Str)} {s : Page} {cmUrlList : List Str} {valid : List Str} {p : Stage}
    (h : launch x auction_type input query s cmUrlList = .ok p) :
    Within (capacity x.dict) (· ∈ valid) (used p.page.adCreativeList) ↔
      Within (capacity x.dict) (· ∈ valid) (used s.adCreativeList) ∧
        ∀ e ∈ p.winners, e.1 ∈ valid →
          (e.2.creative.length : ℤ) ≤ capacity x.dict e.1 - used s.adCreativeList e.1 := by
  obtain ⟨hbook, hnodup, hpos⟩ := launch_book h
  have hiff : Within (capacity x.dict) (· ∈ valid)
      ((book s.adPendList s.adCreativeList).fills (capacity x.dict) (awards p.winners)).used ↔ _ :=
    within_fills_iff hnodup hpos
  rw [← hbook] at hiff
  refine hiff.trans (and_congr_right fun _ => ⟨fun hfit e he => ?_, fun hfit => ?_⟩)
  · exact hfit _ (List.mem_map.mpr ⟨e, he, rfl⟩)
  · rintro _ he
    obtain ⟨e, hwin, rfl⟩ := List.mem_map.mp he
    exact hfit e hwin

/-- The network ads fit if what was there before them does, and they go to ad units that may carry
one. -/
lemma network_within_iff {s s' : Page} {valid : List Str} (h : networkStage x network s = .ok s')
    (hpending : ∀ u ∈ s.adPendList, u ∈ valid) :
    Within (capacity x.dict) (· ∈ valid) (used s'.adCreativeList) ↔
      Within (capacity x.dict) (· ∈ valid) (used s.adCreativeList) ∧
        (network → ∀ u ∈ s.adPendList, used s.adCreativeList u = 0 → GetsNetworkAd x u →
          1 ≤ capacity x.dict u) := by
  cases network with
  | false =>
    have heq : s' = s := (Except.ok.inj h).symm
    rw [heq]
    simp
  | true =>
    change fillNetworkAd x s = .ok s' at h
    constructor
    · intro hw
      refine ⟨fun u hu => ?_, fun _ u hu h0 hgets => ?_⟩
      · obtain ⟨h1, h2⟩ := fillNetworkAd_used h u
        by_cases hyes : u ∈ s.adPendList ∧ used s.adCreativeList u = 0 ∧ GetsNetworkAd x u
        · rw [hyes.2.1]
          exact Nat.zero_le _
        · rw [← h2 hyes]
          exact hw u hu
      · have hle := hw u (hpending u hu)
        rw [(fillNetworkAd_used h u).1 ⟨hu, h0, hgets⟩] at hle
        omega
    · rintro ⟨hw, hfit⟩ u hu
      obtain ⟨h1, h2⟩ := fillNetworkAd_used h u
      by_cases hyes : u ∈ s.adPendList ∧ used s.adCreativeList u = 0 ∧ GetsNetworkAd x u
      · rw [h1 hyes]
        have hcap := hfit rfl u hyes.1 hyes.2.1 hyes.2.2
        omega
      · rw [h2 hyes]
        exact hw u hu

/-- The bottom ads fit if what was there before them does. -/
lemma bottom_within_iff {s s' : Page} {valid : List Str} (h : fillBottomAd x s = .ok s') :
    Within (capacity x.dict) (· ∈ valid) (used s'.adCreativeList) ↔
      Within (capacity x.dict) (· ∈ valid) (used s.adCreativeList) := by
  refine forall₂_congr fun u _ => ?_
  obtain ⟨hlo, hhi⟩ := fillBottomAd_used h u
  omega

/-- **The ad units served are within their capacity in the end exactly when each fill finds
room.** -/
theorem within_iff (h : stages x network = .ok st) :
    Within (capacity x.dict) (· ∈ st.valid) (used st.bottom.adCreativeList) ↔
      FoundRoom x network st := by
  obtain ⟨-, hsina, -, hdeal, -, hopen, hnetwork, hbottom⟩ := stages_ran h
  have hpending : ∀ u ∈ st.openAuction.page.adPendList, u ∈ st.valid := by
    intro u hu
    have hsub := (pending_valid h).sub u
    have hpos : 0 < (book st.openAuction.page.adPendList
        st.openAuction.page.adCreativeList).pending.count u := List.count_pos_iff.mpr hu
    exact List.count_pos_iff.mp (by omega)
  rw [bottom_within_iff hbottom, network_within_iff hnetwork hpending, launch_within_iff hopen,
    launch_within_iff hdeal, sina_within_iff hsina]
  constructor
  · rintro ⟨⟨⟨h1, h2⟩, h3⟩, h4⟩
    exact ⟨h1, h2, h3, h4⟩
  · rintro ⟨h1, h2, h3, h4⟩
    exact ⟨⟨⟨h1, h2⟩, h3⟩, h4⟩

/-- The response shows of each requested ad unit what it was filled with. -/
lemma carries_iff {adCreativeList : Creatives} {content : Val → Lua Val} {ads : List Ad}
    {cm l : List Str} {valid : List Str} (hsub : ∀ u ∈ valid, u ∈ l)
    (h : l.mapM (adOf d adCreativeList content) = .ok ads) :
    Carries d valid ⟨ads, cm⟩ ↔ Within (capacity d) (· ∈ valid) (used adCreativeList) := by
  have hone : ∀ u ad, adOf d adCreativeList content u = .ok ad →
      ad.id = u ∧ ad.content.length = used adCreativeList u := by
    intro u ad hu
    obtain ⟨_, -, hu⟩ := bind_ok.mp hu
    obtain ⟨_, -, hu⟩ := bind_ok.mp hu
    obtain ⟨contents, hc, hu⟩ := bind_ok.mp hu
    cases hu
    exact ⟨rfl, mapM_length hc⟩
  constructor
  · intro hc u hu
    obtain ⟨ad, had, hok⟩ := mem_mapM h (hsub u hu)
    obtain ⟨rfl, hlen⟩ := hone u ad hok
    exact hlen ▸ hc ad had hu
  · intro hw ad had hvalid
    obtain ⟨u, -, hok⟩ := mapM_mem h had
    obtain ⟨rfl, hlen⟩ := hone u ad hok
    exact hlen ▸ hw ad.id hvalid

/-- What fits finds room. -/
lemma Fits.foundRoom (hran : Ran x network st) (h : Fits x network st) : FoundRoom x network st := by
  refine ⟨h.sina, ?_, ?_, h.network⟩
  · rintro ⟨u, w⟩ he hu
    obtain ⟨hne, hw⟩ := ((launch_winners hran.preDeal).1 u w).mp he
    obtain ⟨b, hb, hcreative⟩ := winner_top hne hw
    exact hcreative ▸ h.preDeal _ hran.preDealQuery u hu b hb
  · rintro ⟨u, w⟩ he hu
    obtain ⟨hne, hw⟩ := ((launch_winners hran.openAuction).1 u w).mp he
    obtain ⟨b, hb, hcreative⟩ := winner_top hne hw
    exact hcreative ▸ h.openAuction _ hran.openQuery u hu b hb

/-! ### Other draws -/

/-- The request with other draws in its auctions. -/
def redraw (x : Request) (preDeal openAuction : Str → Draw) : Request :=
  { x with
    preDeal := { x.preDeal with draw := preDeal }
    openAuction := { x.openAuction with draw := openAuction } }

/-- The stages before the preferred deals are the same whatever is drawn, and those before the open
auction whatever is drawn in it. -/
lemma Ran.redraw_eq {st st' : Stages} {p o p' o' : Str → Draw} (h : Ran (redraw x p o) network st)
    (h' : Ran (redraw x p' o') network st') : st'.valid = st.valid ∧ st'.sina = st.sina ∧
      st'.preDealQuery = st.preDealQuery ∧
      (p' = p → st'.preDeal = st.preDeal ∧ st'.openQuery = st.openQuery) := by
  have hvalid : st'.valid = st.valid := Except.ok.inj (h'.valid.symm.trans h.valid)
  have hsina : st'.sina = st.sina := by
    have hrun := h'.sina
    rw [hvalid] at hrun
    exact Except.ok.inj (hrun.symm.trans h.sina)
  have hquery : st'.preDealQuery = st.preDealQuery := by
    have hrun := h'.preDealQuery
    rw [hsina] at hrun
    exact Except.ok.inj (hrun.symm.trans h.preDealQuery)
  refine ⟨hvalid, hsina, hquery, ?_⟩
  rintro rfl
  have hdeal : st'.preDeal = st.preDeal := by
    have hrun := h'.preDeal
    rw [hsina, hquery] at hrun
    exact Except.ok.inj (hrun.symm.trans h.preDeal)
  have hopen := h'.openQuery
  rw [hdeal] at hopen
  exact ⟨hdeal, Except.ok.inj (hopen.symm.trans h.openQuery)⟩

/-- If the run comes to its end and finds room whatever is drawn, everything fits. -/
lemma fits_of_foundRoom (hran : Ran x network st)
    (h : ∀ p o, ∃ st', Ran (redraw x p o) network st' ∧ FoundRoom (redraw x p o) network st') :
    Fits x network st := by
  have hself : FoundRoom x network st := by
    obtain ⟨st', hran', hroom⟩ := h x.preDeal.draw x.openAuction.draw
    have hsame : st' = st := by
      have hstages : ∀ r, Ran x network r → stages x network = .ok r := fun r hr => by
        unfold stages
        rw [hr.valid, ok_bind, hr.sina, ok_bind, hr.preDealQuery, ok_bind, hr.preDeal, ok_bind,
          hr.openQuery, ok_bind, hr.openAuction, ok_bind, hr.network, ok_bind, hr.bottom]
        rfl
      exact Except.ok.inj ((hstages st' hran').symm.trans (hstages st hran))
    exact hsame ▸ hroom
  refine ⟨hself.sina, fun query hquery u hu b hb => ?_, fun query hquery u hu b hb => ?_,
    hself.network⟩
  · obtain ⟨draw, w, hw, hcreative⟩ := top_wins hb
    obtain ⟨st', hran', hroom⟩ := h (fun _ => draw) x.openAuction.draw
    obtain ⟨hvalid, hsina, hsame, -⟩ :=
      Ran.redraw_eq (p := x.preDeal.draw) (o := x.openAuction.draw) hran hran'
    have hq : query = st'.preDealQuery := by
      rw [hsame]
      exact Except.ok.inj (hquery.symm.trans hran.preDealQuery)
    have hwin : (u, w) ∈ st'.preDeal.winners :=
      ((launch_winners hran'.preDeal).1 u w).mpr ⟨hq ▸ List.ne_nil_of_mem hb.1, hq ▸ hw⟩
    have hle := hroom.preDeal _ hwin (hvalid ▸ hu)
    rw [hsina] at hle
    exact hcreative ▸ hle
  · obtain ⟨draw, w, hw, hcreative⟩ := top_wins hb
    obtain ⟨st', hran', hroom⟩ := h x.preDeal.draw fun _ => draw
    obtain ⟨hvalid, -, -, hdeal⟩ :=
      Ran.redraw_eq (p := x.preDeal.draw) (o := x.openAuction.draw) hran hran'
    obtain ⟨hpage, hsame⟩ := hdeal rfl
    have hq : query = st'.openQuery := by
      rw [hsame]
      exact Except.ok.inj (hquery.symm.trans hran.openQuery)
    have hwin : (u, w) ∈ st'.openAuction.winners :=
      ((launch_winners hran'.openAuction).1 u w).mpr ⟨hq ▸ List.ne_nil_of_mem hb.1, hq ▸ hw⟩
    have hle := hroom.openAuction _ hwin (hvalid ▸ hu)
    rw [hpage] at hle
    exact hcreative ▸ hle

/-- **Each ad unit served carries at most its capacity** in a run in which each stage is answered
what fits; and where the run answers and the units do so whatever is drawn, each stage is answered
what fits. -/
structure CarriesWhenFits (impress : Request → Lua (Stages × AdRsp)) (page : Request → Request)
    (network : Bool) (x : Request) : Prop where
  carries : ∀ st rsp, impress x = .ok (st, rsp) → Fits (page x) network st →
    Carries x.dict st.valid rsp
  fits : (∀ p o, ∃ st rsp, impress (redraw x p o) = .ok (st, rsp) ∧ Carries x.dict st.valid rsp) →
    ∀ st rsp, impress x = .ok (st, rsp) → Fits (page x) network st

/-- What is shown in a run whose response lists what the units were filled with. -/
lemma carriesWhenFits {impress : Request → Lua (Stages × AdRsp)} {page : Request → Request}
    (hself : redraw (page x) x.preDeal.draw x.openAuction.draw = page x)
    (hstages : ∀ p o st rsp, impress (redraw x p o) = .ok (st, rsp) →
      stages (redraw (page x) p o) network = .ok st ∧ (Carries x.dict st.valid rsp ↔
        Within (capacity (page x).dict) (· ∈ st.valid) (used st.bottom.adCreativeList))) :
    CarriesWhenFits impress page network x := by
  refine ⟨fun st rsp h hfits => ?_, fun hall st rsp h => ?_⟩
  · obtain ⟨hst, hcarries⟩ := hstages x.preDeal.draw x.openAuction.draw st rsp h
    rw [hself] at hst
    rw [hcarries]
    exact (within_iff hst).mpr (hfits.foundRoom (stages_ran hst))
  · obtain ⟨hst, -⟩ := hstages x.preDeal.draw x.openAuction.draw st rsp h
    rw [hself] at hst
    refine fits_of_foundRoom (stages_ran hst) fun p o => ?_
    obtain ⟨st', rsp', h', hc⟩ := hall p o
    obtain ⟨hst', hcarries⟩ := hstages p o st' rsp' h'
    exact ⟨st', stages_ran hst', (within_iff hst').mp (hcarries.mp hc)⟩

/-- **PC and WAP pages carry at most the ad number of each ad unit served when each stage is
answered what fits, and only then whatever is drawn.** -/
theorem carries_when_fits (x : Request) : CarriesWhenFits newImpress .pc true x ∧
    CarriesWhenFits wapImpress .wap (x.adReq.version = lit "vt4") x := by
  constructor
  · refine carriesWhenFits rfl fun p o st rsp h => ?_
    obtain ⟨hst, hrsp⟩ := newImpress_ok h
    obtain ⟨ads, hads, hrsp⟩ := bind_ok.mp hrsp
    obtain ⟨_, -, hrsp⟩ := bind_ok.mp hrsp
    cases hrsp
    exact ⟨hst, carries_iff (fun u hu => (getAdData_mem (stages_ran hst).valid u hu).1) hads⟩
  · refine carriesWhenFits rfl fun p o st rsp h => ?_
    obtain ⟨hst, hrsp⟩ := wapImpress_ok h
    obtain ⟨ads, hads, hrsp⟩ := bind_ok.mp hrsp
    obtain ⟨_, -, hrsp⟩ := bind_ok.mp hrsp
    cases hrsp
    exact ⟨hst, carries_iff (fun u hu => (getAdData_mem (stages_ran hst).valid u hu).1) hads⟩

end stages

section samples

open Sax.Clearing

/-- An answer with two creatives for the ad unit `U`, which shows one. -/
def twoText : String :=
  "\x7b\"version\":\"1.0\",\"bid\":\"b\",\"ad_creative\":[\x7b\"id\":\"U\",\"max_cpm_price\":3," ++
    "\"creative\":[\x7b\"id\":\"c\",\"html_snippet\":\"x\"\x7d," ++
    "\x7b\"id\":\"c\",\"html_snippet\":\"y\"\x7d]\x7d],\"cm_flag\":\"false\"\x7d"

def twoBody : Val :=
  .obj [("version", .str (lit "1.0")), ("bid", .str (lit "b")),
    ("ad_creative", .arr [.obj [("id", .str (lit "U")), ("max_cpm_price", .num 3),
      ("creative", .arr [.obj [("id", .str (lit "c")), ("html_snippet", .str (lit "x"))],
        .obj [("id", .str (lit "c")), ("html_snippet", .str (lit "y"))]])]]),
    ("cm_flag", .str (lit "false"))]

/-- `U` does not ask the Sina ad engine. -/
def plainDict : Dict := .ofLists
  [("U", ⟨lit "300*250", [], 1, 1, 1, [], lit "fp", [.obj [("src", .strs [lit "s"]),
    ("type", .strs [lit "image", lit "alt"])]], []⟩)] [(1, ⟨1, 1, 1⟩)]
  [(1, ⟨0, [lit "2"], 1, [lit "2"]⟩)] [("2", ⟨lit "http://b/bid", [], [], [], 1, []⟩)]
  [("2c", ⟨1, 2, lit "c", lit "a", 1⟩)] [("2a", ⟨1, 2, lit "a", 1, lit "111"⟩)]

def plainInput (rsp : Rsp) : PhaseInput where
  order := .plain
  qpsList := (∅ : Tbl Qps.QpsInfo).insert (lit "2") ⟨10, some 1⟩
  bid := lit "b"
  uuid := lit "0123456789abcdef"
  draw := fun _ => .least
  rsp := fun _ => rsp

/-- A request for `U`, to which DSP 2 answers `rsp`. -/
def plainRequest (rsp : Rsp) : Request where
  lib := .ofTexts [(twoText, twoBody)]
  dict := plainDict
  adReq := sampleReq
  sina := ⟨500, []⟩
  preDeal := plainInput rsp
  openAuction := plainInput rsp
  networkDraw := fun _ => .least
  bottomDraw := fun _ _ => .least

/-- Both creatives are shown on the one place of `U`. -/
theorem response_over_capacity :
    ∃ st rsp, newImpress (plainRequest (ok twoText)) = .ok (st, rsp) ∧
      ¬ Carries plainDict st.valid rsp := by
  have hrun : ((newImpress (plainRequest (ok twoText))).map fun r =>
      (r.1.valid, r.2.ad.map fun ad => (ad.id, ad.content.length))) =
        .ok ([lit "U"], [(lit "U", 2)]) := by decide +kernel
  cases h : newImpress (plainRequest (ok twoText)) with
  | error e => rw [h] at hrun; cases hrun
  | ok r =>
    rw [h] at hrun
    obtain ⟨hvalid, hads⟩ := Prod.mk.inj (Except.ok.inj hrun)
    refine ⟨r.1, r.2, rfl, fun hc => ?_⟩
    have hmem : (lit "U", 2) ∈ r.2.ad.map fun ad => (ad.id, ad.content.length) := by
      rw [hads]
      exact List.mem_singleton_self _
    obtain ⟨ad, had, heq⟩ := List.mem_map.mp hmem
    obtain ⟨hid, hlen⟩ := Prod.mk.inj heq
    have hle := hc ad had (by rw [hvalid, hid]; decide)
    rw [hlen, hid] at hle
    exact absurd hle (by decide)

theorem carries_when_fits_samples :
    (∃ st rsp, newImpress (plainRequest ⟨500, []⟩) = .ok (st, rsp)) ∧
    (∃ st rsp, wapImpress (plainRequest ⟨500, []⟩) = .ok (st, rsp)) ∧
    CarriesWhenFits newImpress .pc true (plainRequest ⟨500, []⟩) ∧
    CarriesWhenFits wapImpress .wap (([] : Str) = lit "vt4") (plainRequest ⟨500, []⟩) := by
  have hpc : (newImpress (plainRequest ⟨500, []⟩)).isOk := by decide +kernel
  have hwap : (wapImpress (plainRequest ⟨500, []⟩)).isOk := by decide +kernel
  obtain ⟨r, hr⟩ := exists_ok hpc
  obtain ⟨r', hr'⟩ := exists_ok hwap
  exact ⟨⟨r.1, r.2, hr⟩, ⟨r'.1, r'.2, hr'⟩, carries_when_fits _⟩

end samples

end Sax.Capacity
