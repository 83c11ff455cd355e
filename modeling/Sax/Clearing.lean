import Sax.VideoRtb
import Sax.SaxmobRtb

/-!
The clearing price of a unit, from the responses to the winner.

An extraction keeps only bids at or above the floor of their unit, so the floor that a tied
auction falls back on exists and is below every bid. The price one unit above the runner-up
is bounded by the winner's own bid only where no bid comes closer to the top than that unit,
and in a preferred deal it is 0 only where all bids tie, unless the bids were set to 0 as they
were kept.
-/

namespace Sax.Clearing

open Sax.LuaVal Sax.Loop Sax.SecondPrice Sax.Const Sax.Runtime Sax.Store Sax.Auction Sax.Extract
open Sax.BidRsp (Ctx Creative getAdLowestPrice)
open Sax.Double (IsDouble)

section floor

variable {ε γ : Type} {x : Copy ε γ} {bidRspList : List Rsp} {dspBidList cmUrlList : List Str}
  {u : Str} {bidInfo : List (Bid γ)} {floor : Lua (Option ℚ)}

/-- Where every bid is a double kept against the floor of its unit, the bids kept for a unit have a
floor. -/
lemma keeps_floor
    (hkeep : ∀ (p : Str × ε) b, x.Reads p.2 → x.id p.2 = u → x.keep p.1 p.2 = .ok (some b) →
      IsDouble b.max_cpm_price ∧ ∃ f, floor = .ok (some f) ∧ f ≤ b.max_cpm_price)
    (h : x.Keeps bidRspList dspBidList cmUrlList u bidInfo) :
    ∃ f, floor = .ok (some f) ∧ ∀ b ∈ bidInfo, IsDouble b.max_cpm_price ∧ f ≤ b.max_cpm_price := by
  obtain ⟨hne, hall⟩ := h.exists_entry
  have hbid : ∀ b ∈ bidInfo, IsDouble b.max_cpm_price ∧
      ∃ f, floor = .ok (some f) ∧ f ≤ b.max_cpm_price := by
    intro b hb
    obtain ⟨p, hp, hid, hk⟩ := hall b hb
    exact hkeep p b (Copy.reads_of_accepted hp) hid hk
  obtain ⟨a, ha⟩ := List.exists_mem_of_ne_nil _ hne
  obtain ⟨-, f, hf, -⟩ := hbid a ha
  refine ⟨f, hf, fun b hb => ?_⟩
  obtain ⟨hdouble, f', hf', hle⟩ := hbid b hb
  rw [hf] at hf'
  cases hf'
  exact ⟨hdouble, hle⟩

lemma keeps_within_iff (o : Order) (draw : Draw)
    (hkeep : ∀ (p : Str × ε) b, x.Reads p.2 → x.id p.2 = u → x.keep p.1 p.2 = .ok (some b) →
      IsDouble b.max_cpm_price ∧ ∃ f, floor = .ok (some f) ∧ f ≤ b.max_cpm_price)
    (h : x.Keeps bidRspList dspBidList cmUrlList u bidInfo) :
    ∃ f, floor = .ok (some f) ∧
      (Within (auction o draw floor bidInfo) f bidInfo ↔ Apart bidInfo) := by
  obtain ⟨f, hf, hle⟩ := keeps_floor hkeep h
  refine ⟨f, hf, ?_⟩
  rw [hf]
  exact within_iff o draw h.exists_entry.1 hle

end floor

/-! ### What each copy keeps -/

lemma web_keep {c : Ctx} {u : Str} (p : Str × BidRsp.AdCreative) (b : Bid (List Creative))
    (hread : (BidRsp.rtb c).Reads p.2) (hid : (BidRsp.rtb c).id p.2 = u)
    (h : (BidRsp.rtb c).keep p.1 p.2 = .ok (some b)) :
    IsDouble b.max_cpm_price ∧
      ∃ f, getAdLowestPrice c.dict c.auction_type u = .ok (some f) ∧ f ≤ b.max_cpm_price := by
  obtain ⟨-, hprice, hfloor, -⟩ := BidRsp.keep_some h
  exact ⟨BidRsp.price_isDouble hread _ hprice, hid ▸ hfloor⟩

lemma mobile_keep {c : Ctx} {u : Str} (p : Str × MobileRtb.AdBid) (b : Bid (List MobileRtb.Ad))
    (hread : (MobileRtb.rtb c).Reads p.2) (hid : (MobileRtb.rtb c).id p.2 = u)
    (h : (MobileRtb.rtb c).keep p.1 p.2 = .ok (some b)) :
    IsDouble b.max_cpm_price ∧
      ∃ f, MobileRtb.getFloorPrice c.dict c.auction_type u = .ok (some f) ∧
        f ≤ b.max_cpm_price := by
  subst hid
  obtain ⟨floor, hf, h⟩ := bind_ok.mp h
  cases floor with
  | none => cases h
  | some f =>
    obtain ⟨-, hprice, hle, -⟩ := BidRsp.keepAtLeast_some h
    exact ⟨MobileRtb.price_isDouble hread _ hprice, f, hf, hle⟩

lemma saxmob_keep {c : SaxmobRtb.Ctx} {u : Str} (p : Str × SaxmobRtb.AdContent)
    (b : Bid SaxmobRtb.Kept) (hread : (SaxmobRtb.rtb c).Reads p.2)
    (hid : (SaxmobRtb.rtb c).id p.2 = u) (h : (SaxmobRtb.rtb c).keep p.1 p.2 = .ok (some b)) :
    IsDouble b.max_cpm_price ∧
      ∃ f, SaxmobRtb.get_min_price c u = .ok (some f) ∧ f ≤ b.max_cpm_price := by
  subst hid
  obtain ⟨price, f, hprice, hf, hge, rfl⟩ := SaxmobRtb.keep_some h
  exact ⟨SaxmobRtb.price_isDouble hread _ hprice, f, hf, hge.1⟩

/-- A preferred deal's bid of the video exchange has price 0. -/
lemma video_keep {c : Ctx} {pub : Tbl ℤ} (hc : c.auction_type = .preferredDeal)
    (p : Str × MobileRtb.AdBid) (b : Bid (List MobileRtb.Ad))
    (h : (VideoRtb.rtb c pub).keep p.1 p.2 = .ok (some b)) : b.max_cpm_price = 0 := by
  simp only [VideoRtb.rtb, VideoRtb.keep, hc, if_true] at h
  exact (BidRsp.keepAbove_some h).2.1

/-! ### The clearing price of an open auction -/

/-- **The clearing price lies between the floor and the winner's bid exactly when no bid below the
top comes above it by the unit added**, as doubles are added, in the web, the mobile and the
application exchange, for all bids an extraction keeps and every outcome of the draw. -/
theorem clearing_price_within_iff (o : Order) (draw : Draw) :
    (∀ (c : Ctx) bidRspList dspBidList cmUrlList u bidInfo,
      (BidRsp.rtb c).Keeps bidRspList dspBidList cmUrlList u bidInfo →
        ∃ floor, getAdLowestPrice c.dict c.auction_type u = .ok (some floor) ∧
          (Within (BidRsp.selectWinner c.dict c.auction_type o draw bidInfo u) floor bidInfo ↔
            Apart bidInfo)) ∧
    (∀ (c : Ctx) bidRspList dspIdList cmUrlList u bidInfo,
      (MobileRtb.rtb c).Keeps bidRspList dspIdList cmUrlList u bidInfo →
        ∃ floor, MobileRtb.getFloorPrice c.dict c.auction_type u = .ok (some floor) ∧
          (Within (MobileRtb.selectWinner c.dict c.auction_type o draw u bidInfo) floor bidInfo ↔
            Apart bidInfo)) ∧
    (∀ (c : SaxmobRtb.Ctx) bid_rsp_list dsp_bid_list u bid_info,
      (SaxmobRtb.rtb c).Keeps bid_rsp_list dsp_bid_list [] u bid_info →
        ∃ floor, SaxmobRtb.get_min_price c u = .ok (some floor) ∧
          (Within (SaxmobRtb.select_winner c o draw bid_info u) floor bid_info ↔
            Apart bid_info)) :=
  ⟨fun _ _ _ _ _ _ h => keeps_within_iff o draw web_keep h,
    fun _ _ _ _ _ _ h => keeps_within_iff o draw mobile_keep h,
    fun _ _ _ _ _ h => keeps_within_iff o draw saxmob_keep h⟩

section samples

/-- One ad unit `U` with floor 1, and a creative of each of the DSPs 2 and 3. -/
def sampleDict : Dict := .ofLists
  [("U", ⟨lit "300*250", [], 1, 1, 1, [], lit "fp", [], []⟩)] [(1, ⟨1, 1, 1⟩)]
  [(1, ⟨1, [lit "2", lit "3"], 1, [lit "2", lit "3"]⟩)]
  [("2", ⟨lit "http://b/bid", [], [], [], 1, []⟩), ("3", ⟨lit "http://c/bid", [], [], [], 1, []⟩)]
  [("2c", ⟨1, 2, lit "c", lit "a", 1⟩), ("3c", ⟨2, 3, lit "c", lit "a", 1⟩)]
  [("2a", ⟨1, 2, lit "a", 1, lit "111"⟩), ("3a", ⟨2, 3, lit "a", 1, lit "111"⟩)]

/-- The body of a web response with one entry for `U`. -/
def webBody (price : ℚ) : Val :=
  .obj [("version", .str (lit "1.0")), ("bid", .str (lit "b")),
    ("ad_creative", .arr [.obj [("id", .str (lit "U")), ("max_cpm_price", .num price),
      ("creative", .arr [.obj [("id", .str (lit "c")), ("html_snippet", .str (lit "x"))]])]]),
    ("cm_flag", .str (lit "false"))]

/-- The body of a mobile or an application response with one entry for `U`. -/
def appBody (price : ℚ) (markup : String) : Val :=
  .obj [("id", .str (lit "b")), ("cm", .num 0),
    ("bid", .arr [.obj [("id", .str (lit "U")), ("price", .num price),
      ("ad", .arr [.obj [("id", .str (lit "c")), ("markup", .str (lit markup))]])]])]

def webText (price : String) : String :=
  "\x7b\"version\":\"1.0\",\"bid\":\"b\",\"ad_creative\":[\x7b\"id\":\"U\",\"max_cpm_price\":" ++
    price ++ ",\"creative\":[\x7b\"id\":\"c\",\"html_snippet\":\"x\"\x7d]\x7d]," ++
    "\"cm_flag\":\"false\"\x7d"

def appText (price : String) (markup : String) : String :=
  "\x7b\"id\":\"b\",\"cm\":0,\"bid\":[\x7b\"id\":\"U\",\"price\":" ++ price ++
    ",\"ad\":[\x7b\"id\":\"c\",\"markup\":\"" ++ markup ++ "\"\x7d]\x7d]\x7d"

def sampleReq : BidRsp.AdReq := ⟨.pc, [lit "U"], lit "1.1.1.1", [], [], [], [], []⟩

def sampleCtx (texts : List (String × Val)) (auction_type : AuctionType) : Ctx :=
  ⟨.ofTexts texts, sampleDict, sampleReq, auction_type, lit "b", lit "0123456789abcdef"⟩

def ok (body : String) : Rsp := ⟨200, lit body⟩

def webBid (dsp_id : String) (price : ℚ) : Bid (List Creative) :=
  ⟨lit dsp_id, price, [⟨lit "c", lit "x"⟩]⟩

def appBid (dsp_id : String) (price : ℚ) : Bid (List MobileRtb.Ad) :=
  ⟨lit dsp_id, price, [⟨lit "c", lit "x"⟩]⟩

/-- Bids 1.5 and 1 on a unit with floor 1. -/
def closeBids : Ctx :=
  sampleCtx [(webText "1.5", webBody (3 / 2)), (webText "1", webBody 1)] .openAuction

/-- The bid of 1.5 wins at price 2, above every bid. -/
theorem clearing_price_exceeds_bid :
    (BidRsp.rtb closeBids).Keeps [ok (webText "1.5"), ok (webText "1")] [lit "2", lit "3"] []
      (lit "U") [webBid "2" (3 / 2), webBid "3" 1] ∧
    BidRsp.selectWinner closeBids.dict .openAuction .plain .least
      [webBid "2" (3 / 2), webBid "3" 1] (lit "U") =
        .ok ⟨lit "2", some 2, [⟨lit "c", lit "x"⟩]⟩ ∧
    ∀ b ∈ [webBid "2" (3 / 2), webBid "3" 1], b.max_cpm_price < 2 := by
  decide +kernel

/-- A markup that passes `valid_markup`, and how it stands in a JSON string. -/
def markupText : String :=
  "\x7b\"src\":[],\"type\":[],\"link\":[],\"view\":[],\"click\":[]\x7d"

def markupQuoted : String :=
  "\x7b\\\"src\\\":[],\\\"type\\\":[],\\\"link\\\":[],\\\"view\\\":[],\\\"click\\\":[]\x7d"

def markup : Val :=
  .obj [("src", .arr []), ("type", .arr []), ("link", .arr []), ("view", .arr []),
    ("click", .arr [])]

def appBids : Ctx :=
  sampleCtx [(appText "3" "x", appBody 3 "x"), (appText "2" "x", appBody 2 "x")] .openAuction

def saxmobBids : SaxmobRtb.Ctx where
  lib := .ofTexts [(appText "3" markupQuoted, appBody 3 markupText), (markupText, markup)]
  id := lit "b"
  adunit u := if u = lit "U" then some (some 1) else none

theorem clearing_price_within_iff_samples :
    (∃ floor, getAdLowestPrice closeBids.dict .openAuction (lit "U") = .ok (some floor) ∧
      (Within (BidRsp.selectWinner closeBids.dict .openAuction .plain .least
        [webBid "2" (3 / 2), webBid "3" 1] (lit "U")) floor [webBid "2" (3 / 2), webBid "3" 1] ↔
          Apart [webBid "2" (3 / 2), webBid "3" 1])) ∧
    (∃ floor, MobileRtb.getFloorPrice appBids.dict .openAuction (lit "U") = .ok (some floor) ∧
      (Within (MobileRtb.selectWinner appBids.dict .openAuction .plain .least (lit "U")
        [appBid "2" 3, appBid "3" 2]) floor [appBid "2" 3, appBid "3" 2] ↔
          Apart [appBid "2" 3, appBid "3" 2])) ∧
    (∃ floor, SaxmobRtb.get_min_price saxmobBids (lit "U") = .ok (some floor) ∧
      (Within (SaxmobRtb.select_winner saxmobBids .plain .least
        [⟨lit "2", 3, ⟨[lit "c"], [markup]⟩⟩] (lit "U")) floor
          [⟨lit "2", 3, ⟨[lit "c"], [markup]⟩⟩] ↔
          Apart [(⟨lit "2", 3, ⟨[lit "c"], [markup]⟩⟩ : Bid SaxmobRtb.Kept)])) :=
  ⟨(clearing_price_within_iff .plain .least).1 closeBids [ok (webText "1.5"), ok (webText "1")]
      [lit "2", lit "3"] [] (lit "U") _ (by decide +kernel),
    (clearing_price_within_iff .plain .least).2.1 appBids
      [ok (appText "3" "x"), ok (appText "2" "x")] [lit "2", lit "3"] [] (lit "U") _
      (by decide +kernel),
    (clearing_price_within_iff .plain .least).2.2 saxmobBids [ok (appText "3" markupQuoted)]
      [lit "2"] (lit "U") _ (by decide +kernel)⟩

end samples

/-! ### The clearing price of a preferred deal -/

/-- **The three exchanges all charge 0 for a preferred deal exactly when, in the web and in
the mobile exchange, all bids kept for the unit have one price.** The video exchange always
does. -/
theorem preferred_deal_zero_iff (c : Ctx) (pub : Tbl ℤ) (hc : c.auction_type = .preferredDeal)
    (webRspList mobileRspList videoRspList : List Rsp)
    (webDspList mobileDspList videoDspList cmUrlList : List Str) (u : Str)
    (web : List (Bid (List Creative))) (mobile video : List (Bid (List MobileRtb.Ad)))
    (hw : (BidRsp.rtb c).Keeps webRspList webDspList cmUrlList u web)
    (hm : (MobileRtb.rtb c).Keeps mobileRspList mobileDspList cmUrlList u mobile)
    (hv : (VideoRtb.rtb c pub).Keeps videoRspList videoDspList cmUrlList u video)
    (o : Order) (draw : Draw) :
    ((∃ w, BidRsp.selectWinner c.dict c.auction_type o draw web u = .ok w ∧
          w.win_cpm_price = some 0) ∧
      (∃ w, MobileRtb.selectWinner c.dict c.auction_type o draw u mobile = .ok w ∧
          w.win_cpm_price = some 0) ∧
      ∃ w, VideoRtb.selectWinner c.dict pub c.auction_type o draw u video = .ok w ∧
          w.win_cpm_price = some 0) ↔
    AllTie Bid.max_cpm_price web ∧ AllTie Bid.max_cpm_price mobile := by
  have hweb : getAdLowestPrice c.dict c.auction_type u = .ok (some 0) := by
    simp [getAdLowestPrice, hc]
  have hmobile : MobileRtb.getFloorPrice c.dict c.auction_type u = .ok (some 0) := by
    simp [MobileRtb.getFloorPrice, hc]
  obtain ⟨fw, hfw, hposw⟩ := keeps_floor web_keep hw
  obtain ⟨fm, hfm, hposm⟩ := keeps_floor mobile_keep hm
  cases hweb.symm.trans hfw
  cases hmobile.symm.trans hfm
  have hzero : ∀ b ∈ video, b.max_cpm_price = 0 := by
    intro b hb
    obtain ⟨p, -, -, hk⟩ := hv.exists_entry.2 b hb
    exact video_keep hc p b hk
  have htie : AllTie Bid.max_cpm_price video := by
    intro a ha b hb
    rw [hzero a ha, hzero b hb]
  have hvideo : ∃ w, VideoRtb.selectWinner c.dict pub c.auction_type o draw u video = .ok w ∧
      w.win_cpm_price = some 0 := by
    rw [VideoRtb.selectWinner, if_pos hc]
    exact (zero_iff_allTie o draw hv.exists_entry.1 fun b hb => (hzero b hb).ge).mpr htie
  rw [BidRsp.selectWinner, MobileRtb.selectWinner, hweb, hmobile,
    zero_iff_allTie o draw hw.exists_entry.1 fun b hb => (hposw b hb).2,
    zero_iff_allTie o draw hm.exists_entry.1 fun b hb => (hposm b hb).2]
  exact ⟨fun h => ⟨h.1, h.2.1⟩, fun h => ⟨h.1, h.2, hvideo⟩⟩

section samples

/-- Preferred-deal bids 5 and 3. -/
def dealBids : Ctx :=
  sampleCtx [(webText "5", webBody 5), (webText "3", webBody 3), (appText "5" "x", appBody 5 "x"),
    (appText "3" "x", appBody 3 "x")] .preferredDeal

theorem preferred_deal_zero_iff_samples :
    ((∃ w, BidRsp.selectWinner dealBids.dict .preferredDeal .plain .least
          [webBid "2" 5, webBid "3" 3] (lit "U") = .ok w ∧ w.win_cpm_price = some 0) ∧
      (∃ w, MobileRtb.selectWinner dealBids.dict .preferredDeal .plain .least (lit "U")
          [appBid "2" 5, appBid "3" 3] = .ok w ∧ w.win_cpm_price = some 0) ∧
      ∃ w, VideoRtb.selectWinner dealBids.dict ∅ .preferredDeal .plain .least (lit "U")
          [appBid "2" 0, appBid "3" 0] = .ok w ∧ w.win_cpm_price = some 0) ↔
    AllTie Bid.max_cpm_price [webBid "2" 5, webBid "3" 3] ∧
      AllTie Bid.max_cpm_price [appBid "2" 5, appBid "3" 3] :=
  preferred_deal_zero_iff dealBids ∅ rfl [ok (webText "5"), ok (webText "3")]
    [ok (appText "5" "x"), ok (appText "3" "x")] [ok (appText "5" "x"), ok (appText "3" "x")]
    [lit "2", lit "3"] [lit "2", lit "3"] [lit "2", lit "3"] [] (lit "U") _ _ _
    (by decide +kernel) (by decide +kernel) (by decide +kernel) .plain .least

/-- The web and the mobile exchange charge 4 for the deal, the video exchange 0. -/
theorem preferred_deal_prices_differ :
    (BidRsp.rtb dealBids).Keeps [ok (webText "5"), ok (webText "3")] [lit "2", lit "3"] []
      (lit "U") [webBid "2" 5, webBid "3" 3] ∧
    (MobileRtb.rtb dealBids).Keeps [ok (appText "5" "x"), ok (appText "3" "x")]
      [lit "2", lit "3"] [] (lit "U") [appBid "2" 5, appBid "3" 3] ∧
    (VideoRtb.rtb dealBids ∅).Keeps [ok (appText "5" "x"), ok (appText "3" "x")]
      [lit "2", lit "3"] [] (lit "U") [appBid "2" 0, appBid "3" 0] ∧
    BidRsp.selectWinner dealBids.dict .preferredDeal .plain .least [webBid "2" 5, webBid "3" 3]
      (lit "U") = .ok ⟨lit "2", some 4, [⟨lit "c", lit "x"⟩]⟩ ∧
    MobileRtb.selectWinner dealBids.dict .preferredDeal .plain .least (lit "U")
      [appBid "2" 5, appBid "3" 3] = .ok ⟨lit "2", some 4, [⟨lit "c", lit "x"⟩]⟩ ∧
    VideoRtb.selectWinner dealBids.dict ∅ .preferredDeal .plain .least (lit "U")
      [appBid "2" 0, appBid "3" 0] = .ok ⟨lit "2", some 0, [⟨lit "c", lit "x"⟩]⟩ := by
  decide +kernel

end samples

end Sax.Clearing
