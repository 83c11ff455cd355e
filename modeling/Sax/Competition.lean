import Sax.Clearing

/-!
What an auction can come to, and how the price follows the competition.

The random draw decides among the top bids alone, so the results an auction can have depend
on the bids as a set. The price follows the runner-up: one more bid never lowers it, and a bid
that is raised lowers it only by catching up with the top, where it is no runner-up any more. The
unit added may be lost in rounding, and the price then stays as it was.
-/

namespace Sax.Competition

open Sax.LuaVal Sax.SecondPrice Sax.Const Sax.Runtime Sax.Store Sax.Auction
open Sax.BidRsp (Creative getAdLowestPrice)
open Sax.MobileRtb (Ad getFloorPrice)
open Sax.Double (IsDouble)

variable {γ : Type} {floor : Lua (Option ℚ)} {bidInfo bidInfo' : List (Bid γ)} {b : Bid γ}

/-! ### The results over all draws -/

/-- The results an auction can have over all outcomes of its draw. -/
def results (select : Draw → Lua (Winner γ)) : Set (Lua (Winner γ)) := {r | ∃ draw, select draw = r}

/-- The results that award the unit to a top bid: at the floor if no bid is below the top, else
at one unit above the largest bid below it, as doubles are added. -/
def awards (floor : Lua (Option ℚ)) (bidInfo : List (Bid γ)) : Set (Lua (Winner γ)) :=
  {r | ∃ b, IsTop Bid.max_cpm_price bidInfo b ∧ Outcome floor bidInfo b r}

/-- A bid has one outcome. -/
lemma outcome_unique {r r' : Lua (Winner γ)} (h : Outcome floor bidInfo b r)
    (h' : Outcome floor bidInfo b r') : r = r' := by
  rcases h with ⟨ht, rfl⟩ | ⟨s, hs, rfl⟩ <;> rcases h' with ⟨ht', rfl⟩ | ⟨s', hs', rfl⟩
  · rfl
  · exact absurd ht hs'.not_allTie
  · exact absurd ht' hs.not_allTie
  · rw [hs.eq hs']

lemma awards_perm (hp : bidInfo.Perm bidInfo') : awards floor bidInfo = awards floor bidInfo' := by
  ext r
  constructor
  · rintro ⟨b, hb, hr⟩
    exact ⟨b, hb.perm hp, hr.perm hp⟩
  · rintro ⟨b, hb, hr⟩
    exact ⟨b, hb.perm hp.symm, hr.perm hp.symm⟩

/-- The results over all draws are the awards to the top bids, however the sort orders the
bids. -/
lemma results_auction (o : Order) (hne : bidInfo ≠ []) :
    results (fun draw => auction o draw floor bidInfo) = awards floor bidInfo := by
  ext r
  constructor
  · rintro ⟨draw, rfl⟩
    exact auction_spec o draw floor hne
  · rintro ⟨b, hb, hr⟩
    obtain ⟨draw, hdraw⟩ := auction_reaches o floor hb
    exact ⟨draw, outcome_unique hdraw hr⟩

/-- What is to be shown of one exchange: its results are the awards to the top bids, every top
bid is awarded the unit in one of them, and a permutation of the bids has the same results. -/
def Characterised (select : Order → Draw → List (Bid γ) → Lua (Winner γ))
    (floor : Lua (Option ℚ)) (o : Order) (bidInfo : List (Bid γ)) : Prop :=
  results (select o · bidInfo) = awards floor bidInfo ∧
    (∀ b, IsTop Bid.max_cpm_price bidInfo b →
      ∃ r ∈ results (select o · bidInfo), Outcome floor bidInfo b r) ∧
    ∀ o' bidInfo', bidInfo.Perm bidInfo' →
      results (select o' · bidInfo') = results (select o · bidInfo)

lemma characterised_auction (o : Order) (hne : bidInfo ≠ []) :
    Characterised (fun o draw => auction o draw floor) floor o bidInfo := by
  have hresults : results (fun draw => auction o draw floor bidInfo) = awards floor bidInfo :=
    results_auction o hne
  refine ⟨hresults, fun b hb => ?_, fun o' bidInfo' hp => ?_⟩
  · obtain ⟨draw, hdraw⟩ := auction_reaches o floor hb
    exact ⟨_, ⟨draw, rfl⟩, hdraw⟩
  · have hne' : bidInfo' ≠ [] := fun hnil => hne (List.perm_nil.mp (hnil ▸ hp))
    rw [results_auction o' hne', hresults, awards_perm hp]

/-- **The results of an open auction over all draws** are the awards to the top bids, at the double
nearest to one more than the largest bid below the top or at the floor, in every order of the bids
and of the sort: in the web, the application, the video and the mobile exchange. -/
theorem open_auction_characterised (o : Order) :
    (∀ (d : Dict) u (bidInfo : List (Bid (List Creative))), bidInfo ≠ [] →
      Characterised (fun o draw l => BidRsp.selectWinner d .openAuction o draw l u)
        (getAdLowestPrice d .openAuction u) o bidInfo) ∧
    (∀ (c : SaxmobRtb.Ctx) u (bid_info : List (Bid SaxmobRtb.Kept)), bid_info ≠ [] →
      Characterised (fun o draw l => SaxmobRtb.select_winner c o draw l u)
        (SaxmobRtb.get_min_price c u) o bid_info) ∧
    (∀ (d : Dict) (pub : Tbl ℤ) u (bidInfo : List (Bid (List Ad))), bidInfo ≠ [] →
      Characterised (fun o draw l => VideoRtb.selectWinner d pub .openAuction o draw u l)
        (getLowestPrice d (pub.get u)) o bidInfo) ∧
    (∀ (d : Dict) u (bidInfo : List (Bid (List Ad))), bidInfo ≠ [] →
      Characterised (fun o draw l => MobileRtb.selectWinner d .openAuction o draw u l)
        (getFloorPrice d .openAuction u) o bidInfo) :=
  ⟨fun _ _ _ hne => characterised_auction o hne, fun _ _ _ hne => characterised_auction o hne,
    fun _ _ _ _ hne => characterised_auction o hne, fun _ _ _ hne => characterised_auction o hne⟩

section samples

open Sax.Clearing

theorem open_auction_characterised_samples :
    Characterised (fun o draw l => BidRsp.selectWinner sampleDict .openAuction o draw l (lit "U"))
        (getAdLowestPrice sampleDict .openAuction (lit "U")) .plain [webBid "2" 5, webBid "3" 5] ∧
      Characterised (fun o draw l => SaxmobRtb.select_winner saxmobBids o draw l (lit "U"))
        (SaxmobRtb.get_min_price saxmobBids (lit "U")) .plain
          [⟨lit "2", 3, ⟨[lit "c"], [markup]⟩⟩] ∧
      Characterised
        (fun o draw l => VideoRtb.selectWinner sampleDict ∅ .openAuction o draw (lit "U") l)
        (getLowestPrice sampleDict ((∅ : Tbl ℤ).get (lit "U"))) .plain [appBid "2" 3, appBid "3" 2] ∧
      Characterised
        (fun o draw l => MobileRtb.selectWinner sampleDict .openAuction o draw (lit "U") l)
        (getFloorPrice sampleDict .openAuction (lit "U")) .plain [appBid "2" 3, appBid "3" 2] :=
  have h := open_auction_characterised .plain
  ⟨h.1 sampleDict (lit "U") _ (by simp), h.2.1 saxmobBids (lit "U") _ (by simp),
    h.2.2.1 sampleDict ∅ (lit "U") _ (by simp), h.2.2.2 sampleDict (lit "U") _ (by simp)⟩

/-- With bids `2 ^ 53 + 2` and `2 ^ 53` the price is `2 ^ 53`, which is the runner-up itself. -/
theorem extra_price_rounded :
    BidRsp.selectWinner sampleDict .openAuction .plain .least
        [webBid "2" 9007199254740994, webBid "3" 9007199254740992] (lit "U") =
          .ok ⟨lit "2", some 9007199254740992, [⟨lit "c", lit "x"⟩]⟩ ∧
      (∀ b ∈ [webBid "2" 9007199254740994, webBid "3" 9007199254740992],
        IsDouble b.max_cpm_price ∧ 1 ≤ b.max_cpm_price) ∧
      IsRunnerUp Bid.max_cpm_price [webBid "2" 9007199254740994, webBid "3" 9007199254740992]
        9007199254740992 ∧
      (9007199254740992 : ℚ) ≠ 9007199254740992 + 1 := by
  refine ⟨by decide +kernel, by decide +kernel, ⟨⟨webBid "3" 9007199254740992, by simp, rfl⟩,
    ⟨webBid "2" 9007199254740994, by simp, by norm_num [webBid]⟩, ?_⟩, by norm_num⟩
  norm_num [webBid]

end samples

/-! ### The price and the competition -/

/-- Whatever the sort and the draw, the unit is awarded at the price. -/
def Charges (select : Order → Draw → List (Bid γ) → Lua (Winner γ)) (bidInfo : List (Bid γ))
    (price : ℚ) : Prop :=
  ∀ o draw, ∃ w, select o draw bidInfo = .ok w ∧ w.win_cpm_price = some price

/-- The bid is the only one of the largest price below the top, and `price` is the top; with the
unit added it is above the floor and above every bid below it. -/
def CatchesUp (f : ℚ) (others : List (Bid γ)) (b : Bid γ) (price : ℚ) : Prop :=
  IsRunnerUp Bid.max_cpm_price (b :: others) b.max_cpm_price ∧
    (∀ c ∈ others, c.max_cpm_price ≠ b.max_cpm_price) ∧
      (∃ t, IsTop Bid.max_cpm_price (b :: others) t ∧ price = t.max_cpm_price) ∧
      f < Double.add b.max_cpm_price RTB_EXTRA_PRICE ∧
      ∀ c ∈ others, c.max_cpm_price < b.max_cpm_price →
        Double.add c.max_cpm_price RTB_EXTRA_PRICE < Double.add b.max_cpm_price RTB_EXTRA_PRICE

/-- What is to be shown of one exchange: a further bid never lowers the price, and a raised bid
lowers it exactly by catching up. -/
def Follows (select : Order → Draw → List (Bid γ) → Lua (Winner γ)) (f : ℚ)
    (pre post : List (Bid γ)) (b : Bid γ) (price : ℚ) : Prop :=
  (pre ++ post ≠ [] → ∃ p p', Charges select (pre ++ post) p ∧
    Charges select (pre ++ b :: post) p' ∧ p ≤ p') ∧
  (b.max_cpm_price ≤ price → IsDouble price → ∃ p p', Charges select (pre ++ b :: post) p ∧
    Charges select (pre ++ { b with max_cpm_price := price } :: post) p' ∧
      (p' < p ↔ CatchesUp f (pre ++ post) b price))

section follows

variable {f price p : ℚ} {pre post : List (Bid γ)}

/-- The clearing price of a list of bids: `f` if they all tie. -/
abbrev ClearsAt (f : ℚ) : List (Bid γ) → ℚ → Prop :=
  Clears Bid.max_cpm_price (Double.add · RTB_EXTRA_PRICE) f

/-- An auction charges what its bids clear at. -/
lemma charges_auction (hne : bidInfo ≠ []) (h : ClearsAt f bidInfo p) :
    Charges (fun o draw => auction o draw (.ok (some f))) bidInfo p := by
  intro o draw
  obtain ⟨b, -, ⟨ht, hr⟩ | ⟨s, hs, hr⟩⟩ := auction_spec o draw (.ok (some f)) hne
  · rcases h with ⟨-, rfl⟩ | ⟨s, hs, -⟩
    · exact ⟨_, hr, rfl⟩
    · exact absurd ht hs.not_allTie
  · exact ⟨_, hr, by rw [h.eq_up hs]⟩

/-- A clearing price read of the list with one bid in front. -/
lemma clears_middle (h : ClearsAt f (pre ++ b :: post) p) : ClearsAt f (b :: (pre ++ post)) p :=
  h.perm List.perm_middle

/-- Bids that are doubles at or above the floor. -/
def Offered (f : ℚ) (l : List (Bid γ)) : Prop :=
  ∀ c ∈ l, IsDouble c.max_cpm_price ∧ f ≤ c.max_cpm_price

instance (f : ℚ) (l : List (Bid γ)) : Decidable (Offered f l) :=
  inferInstanceAs (Decidable (∀ c ∈ l, _))

lemma follows_auction (hfloor : Offered f (pre ++ b :: post)) :
    Follows (fun o draw => auction o draw (.ok (some f))) f pre post b price := by
  have hfloor' : ∀ c ∈ b :: (pre ++ post), IsDouble c.max_cpm_price ∧ f ≤ c.max_cpm_price :=
    fun c hc => hfloor c (List.perm_middle.symm.subset hc)
  have hres : ∀ c ∈ b :: (pre ++ post), f ≤ c.max_cpm_price := fun c hc => (hfloor' c hc).2
  have hle : ∀ c ∈ b :: (pre ++ post),
      c.max_cpm_price ≤ Double.add c.max_cpm_price RTB_EXTRA_PRICE := fun c hc =>
    le_extra (hfloor' c hc).1
  obtain ⟨p', hp'⟩ : ∃ p', ClearsAt f (pre ++ b :: post) p' := exists_clears
  have hcharge := charges_auction (by simp) hp'
  constructor
  · intro hne
    obtain ⟨p, hp⟩ : ∃ p, ClearsAt f (pre ++ post) p := exists_clears
    exact ⟨p, p', charges_auction hne hp, hcharge, hp.le_cons extra_mono hle hres (clears_middle hp')⟩
  · intro hraise hdouble
    obtain ⟨q, hq⟩ : ∃ q, ClearsAt f (pre ++ { b with max_cpm_price := price } :: post) q :=
      exists_clears
    have hle' : ∀ c ∈ { b with max_cpm_price := price } :: (pre ++ post),
        c.max_cpm_price ≤ Double.add c.max_cpm_price RTB_EXTRA_PRICE :=
      List.forall_mem_cons.mpr ⟨le_extra hdouble, (List.forall_mem_cons.mp hle).2⟩
    exact ⟨p', q, hcharge, charges_auction (by simp) hq,
      (clears_middle hp').raise_lt_iff extra_mono hle' hres hraise (clears_middle hq)⟩

end follows

/-- **More competition lowers the price of an open auction only where the runner-up, alone at
its price, catches up with the top**, and with the unit added was above what stays below it: one
more bid at or above the floor never does, and raising a bid does exactly then, in the web, the
mobile and the application exchange. -/
theorem competition_lowers_iff (f price : ℚ) :
    (∀ (d : Dict) u (pre post : List (Bid (List Creative))) b,
      getAdLowestPrice d .openAuction u = .ok (some f) →
      Offered f (pre ++ b :: post) →
        Follows (fun o draw l => BidRsp.selectWinner d .openAuction o draw l u) f pre post b price) ∧
    (∀ (d : Dict) u (pre post : List (Bid (List Ad))) b,
      getFloorPrice d .openAuction u = .ok (some f) →
      Offered f (pre ++ b :: post) →
        Follows (fun o draw l => MobileRtb.selectWinner d .openAuction o draw u l) f pre post b
          price) ∧
    (∀ (c : SaxmobRtb.Ctx) u (pre post : List (Bid SaxmobRtb.Kept)) b,
      SaxmobRtb.get_min_price c u = .ok (some f) →
      Offered f (pre ++ b :: post) →
        Follows (fun o draw l => SaxmobRtb.select_winner c o draw l u) f pre post b price) := by
  refine ⟨fun d u pre post b hf hfloor => ?_, fun d u pre post b hf hfloor => ?_,
    fun c u pre post b hf hfloor => ?_⟩
  · simp only [BidRsp.selectWinner, hf]
    exact follows_auction hfloor
  · simp only [MobileRtb.selectWinner, hf]
    exact follows_auction hfloor
  · simp only [SaxmobRtb.select_winner, hf]
    exact follows_auction hfloor

section samples

open Sax.Clearing

theorem competition_lowers_iff_samples :
    Follows (fun o draw l => BidRsp.selectWinner sampleDict .openAuction o draw l (lit "U"))
        1 [webBid "2" 10] [] (webBid "3" 5) 10 ∧
      Follows (fun o draw l => MobileRtb.selectWinner sampleDict .openAuction o draw (lit "U") l)
        1 [appBid "2" 10] [] (appBid "3" 5) 10 ∧
      Follows (fun o draw l => SaxmobRtb.select_winner saxmobBids o draw l (lit "U")) 1 [] []
        ⟨lit "2", 3, ⟨[lit "c"], [markup]⟩⟩ 10 :=
  have h := competition_lowers_iff 1 10
  ⟨h.1 sampleDict (lit "U") _ _ _ (by decide) (by decide +kernel),
    h.2.1 sampleDict (lit "U") _ _ _ (by decide) (by decide +kernel),
    h.2.2 saxmobBids (lit "U") _ _ _ (by decide) (by decide +kernel)⟩

/-- Bids 10 and 5 on a unit with floor 1 clear at 6; once the 5 is raised to 10 they clear at
the floor. -/
theorem raised_bid_lowers_price :
    Charges (fun o draw l => BidRsp.selectWinner sampleDict .openAuction o draw l (lit "U"))
        [webBid "2" 10, webBid "3" 5] 6 ∧
      Charges (fun o draw l => BidRsp.selectWinner sampleDict .openAuction o draw l (lit "U"))
        [webBid "2" 10, webBid "3" 10] 1 := by
  have hf : getAdLowestPrice sampleDict .openAuction (lit "U") = .ok (some 1) := by decide
  simp only [BidRsp.selectWinner, hf]
  constructor
  · refine charges_auction (by simp) (Or.inr ⟨5, ⟨?_, ?_, ?_⟩, by decide +kernel⟩)
    · exact ⟨webBid "3" 5, by simp, rfl⟩
    · exact ⟨webBid "2" 10, by simp, by norm_num [webBid]⟩
    · norm_num [webBid]
  · exact charges_auction (by simp) (Or.inl ⟨by simp [AllTie, webBid], rfl⟩)

end samples

end Sax.Competition
