import Sax.Isolation
import Sax.Ledger

/-!
The ad units of a page as places with a capacity.

The pending list and the creative list of a request are a book of the ad units: a phase of the
web exchange fills it by the creatives of its winners, one fill for each unit it awards.
-/

namespace Sax.Room

open Sax.LuaVal Sax.Loop Sax.Const Sax.Runtime Sax.Store Sax.Auction Sax.Extract Sax.WebRtb
open Sax.BidRsp (Ctx Creative)
open Sax.Ledger (Book)

/-- How many creatives an ad unit may carry: one if it is of type `fp`, else its ad number. -/
def capacity (d : Dict) (u : Str) : ℤ :=
  match d.adunit u with
  | some a => if a.displaytype = lit "fp" then 1 else a.adnum
  | none => 0

def book (adPendList : List Str) (adCreativeList : Creatives) : Book Str :=
  ⟨adPendList, used adCreativeList⟩

section fill

variable {d : Dict} {u : Str} {adPendList : List Str} {adCreativeList : Creatives}

/-- The room left is the capacity less what is used. -/
lemma getLeftAdNum_eq {left : ℤ} (h : getLeftAdNum d u adCreativeList = .ok left) :
    d.HasUnit u ∧ left = capacity d u - used adCreativeList u := by
  have hunit : d.HasUnit u := Isolation.getLeftAdNum_isOk.mp ⟨left, h⟩
  refine ⟨hunit, ?_⟩
  obtain ⟨a, ha⟩ := Option.isSome_iff_exists.mp hunit
  simp only [getLeftAdNum, getDisplayType, getAdNum, getAttribute_eq, ha, Option.map_some,
    ok_bind, Option.some.injEq] at h
  rw [capacity, ha]
  split at h
  · next hfp => cases h; simp [hfp]
  · next hfp => cases h; simp [hfp]

lemma used_fill (u : Str) (contents : List Val) :
    used (fill adCreativeList u contents) =
      Function.update (used adCreativeList) u (used adCreativeList u + contents.length) := by
  funext v
  by_cases h : v = u
  · subst h
    simp [used, fill, Tbl.get]
  · rw [Function.update_of_ne h, used, used, fill, Tbl.get, AList.lookup_insert_ne h]

/-- Filling an ad unit, and taking it off the pending list if no room is left, is a fill of
the book. -/
lemma book_fill {left : ℤ} {adCreativeList' : Creatives} {n : ℕ}
    (hused : used adCreativeList' = Function.update (used adCreativeList) u
      (used adCreativeList u + n))
    (h : getLeftAdNum d u adCreativeList' = .ok left) :
    book (if left ≤ 0 then removeAdFromPendList adPendList u else adPendList) adCreativeList' =
      (book adPendList adCreativeList).fill (capacity d) (u, n) := by
  obtain ⟨-, hleft⟩ := getLeftAdNum_eq h
  have hu : used adCreativeList' u = used adCreativeList u + n := by rw [hused, Function.update_self]
  have hfull : left ≤ 0 ↔ capacity d u ≤ (used adCreativeList u + n : ℕ) := by
    rw [hleft, hu]
    omega
  refine congrArg₂ Book.mk ?_ hused
  by_cases hroom : left ≤ 0
  · rw [if_pos hroom]
    exact (if_pos (hfull.mp hroom)).symm
  · rw [if_neg hroom]
    exact (if_neg fun h => hroom (hfull.mpr h)).symm

end fill

/-! ### A phase -/

section phase

variable {c : Ctx} {o : Order} {draw : Str → Draw} {s s' : Round}

/-- Step lemma: the round of one ad unit fills it with the winner's creatives. -/
lemma round_book {e : Sigma fun _ : Str => List (Bid (List Creative))}
    (h : round c o draw s e = .ok s') :
    ∃ w, BidRsp.selectWinner c.dict c.auction_type o (draw e.1) e.2 e.1 = .ok w ∧
      s'.winners = s.winners ++ [(e.1, w)] ∧
      book s'.adPendList s'.adCreativeList =
        (book s.adPendList s.adCreativeList).fill (capacity c.dict) (e.1, w.creative.length) := by
  obtain ⟨w, hw, h⟩ := bind_ok.mp h
  obtain ⟨_, -, h⟩ := bind_ok.mp h
  obtain ⟨adCreativeList, hfill, h⟩ := bind_ok.mp h
  obtain ⟨left, hleft, h⟩ := bind_ok.mp h
  cases h
  obtain ⟨contents, hcontents, hfill⟩ := bind_ok.mp hfill
  cases hfill
  refine ⟨w, hw, rfl, book_fill ?_ hleft⟩
  rw [used_fill, mapM_length hcontents]

/-- The fills the winners stand for. -/
def awards (winners : List (Str × Win)) : List (Str × ℕ) :=
  winners.map fun e => (e.1, e.2.creative.length)

/-- The winner of an auction of kept bids has creatives. -/
lemma creative_ne_nil {A : List (Str × BidRsp.AdCreative)} {draw : Draw}
    {e : Sigma fun _ : Str => List (Bid (List Creative))} {w : Win}
    (he : (BidRsp.rtb c).bids e.1 A = e.2) (hne : e.2 ≠ [])
    (hw : BidRsp.selectWinner c.dict c.auction_type o draw e.2 e.1 = .ok w) : w.creative ≠ [] := by
  obtain ⟨b, hb, hout⟩ :=
    auction_spec o draw (BidRsp.getAdLowestPrice c.dict c.auction_type e.1) hne
  rw [← he] at hb
  obtain ⟨p, -, hu, hk⟩ := Copy.mem_bids.mp hb.1
  obtain ⟨-, -, ⟨f, hf, -⟩, hcr, -⟩ := BidRsp.keep_some hk
  have hu' : p.2.id = e.1 := hu
  rw [hu'] at hf
  obtain ⟨w', hw', -, hwc, -⟩ := Offered.outcome_winner hf hout
  rw [BidRsp.selectWinner, hw'] at hw
  cases hw
  exact hwc ▸ hcr

/-- **A phase fills the book by the creatives of its winners**, at most one winner for a unit,
each with a creative at least. -/
theorem handleBidRsp_book {bidRspList : List Rsp} {adPendList dspBidList cmUrlList : List Str}
    {adCreativeList : Creatives} {out : Phase}
    (h : handleBidRsp c o draw bidRspList adPendList dspBidList adCreativeList cmUrlList =
      .ok out) :
    book out.adPendList out.adCreativeList =
        (book adPendList adCreativeList).fills (capacity c.dict) (awards out.winners) ∧
      ((awards out.winners).map Prod.fst).Nodup ∧ ∀ e ∈ awards out.winners, 0 < e.2 := by
  obtain ⟨ex, hex, h⟩ := bind_ok.mp h
  obtain ⟨s, hs, h⟩ := bind_ok.mp h
  cases h
  obtain ⟨t, ht, rfl⟩ := Copy.extractAdBid_ok.mp hex
  have hholds := Copy.collect_holds Copy.holds_nil ht
  rw [List.nil_append] at hholds
  have hrun := foldlM_prefix
    (P := fun done (r : Round) => r.winners.map Prod.fst = done.map Sigma.fst ∧
      (∀ e ∈ awards r.winners, 0 < e.2) ∧
      book r.adPendList r.adCreativeList =
        (book adPendList adCreativeList).fills (capacity c.dict) (awards r.winners))
    (d := []) ?_ ⟨rfl, by simp [awards], rfl⟩ hs
  · obtain ⟨hkeys, hpos, hbook⟩ := hrun
    refine ⟨hbook, ?_, hpos⟩
    have hfst : (awards s.winners).map Prod.fst = s.winners.map Prod.fst := by
      simp [awards, Function.comp_def]
    rw [hfst, hkeys]
    exact o.pairs_nodup t
  · rintro done e r r' he ⟨hkeys, hpos, hbook⟩ hstep
    obtain ⟨w, hw, hwin, hb⟩ := round_book hstep
    obtain ⟨hbids, hne⟩ := hholds.get.mp (o.mem_pairs.mp he)
    have hcr := creative_ne_nil hbids hne hw
    have hsnoc : awards r'.winners = awards r.winners ++ [(e.1, w.creative.length)] := by
      rw [hwin, awards, List.map_append]
      rfl
    refine ⟨by rw [hwin, List.map_append, List.map_append, hkeys]; rfl, ?_, ?_⟩
    · rw [hsnoc, List.forall_mem_append]
      exact ⟨hpos, by simpa using List.length_pos_iff.mpr hcr⟩
    · rw [hb, hbook, hsnoc, Book.fills_snoc]

/-- **Who wins**: on each ad unit that has bids, whom the auction over these selects. -/
theorem handleBidRsp_winners {bidRspList : List Rsp} {adPendList dspBidList cmUrlList : List Str}
    {adCreativeList : Creatives} {out : Phase} {bids : Str → List (Bid (List Creative))}
    (h : handleBidRsp c o draw bidRspList adPendList dspBidList adCreativeList cmUrlList =
      .ok out)
    (hbids : ∀ u, (BidRsp.rtb c).bids u ((BidRsp.rtb c).accepted (dspBidList.zip bidRspList)) =
      bids u) :
    (∀ u w, (u, w) ∈ out.winners ↔ bids u ≠ [] ∧
        BidRsp.selectWinner c.dict c.auction_type o (draw u) (bids u) u = .ok w) ∧
      ∀ u, bids u ≠ [] →
        ∃ w, BidRsp.selectWinner c.dict c.auction_type o (draw u) (bids u) u = .ok w := by
  obtain ⟨ex, hex, h⟩ := bind_ok.mp h
  obtain ⟨s, hs, h⟩ := bind_ok.mp h
  cases h
  have hget : ∀ u l, ex.adBidList.get u = some l ↔ bids u = l ∧ l ≠ [] := fun u l => by
    rw [← hbids]
    exact Copy.extractAdBid_get hex
  have hrun := foldlM_prefix
    (P := fun done (r : Round) =>
      (∀ u w, (u, w) ∈ r.winners ↔ ∃ l, ⟨u, l⟩ ∈ done ∧
        BidRsp.selectWinner c.dict c.auction_type o (draw u) l u = .ok w) ∧
      ∀ e ∈ done, ∃ w, BidRsp.selectWinner c.dict c.auction_type o (draw e.1) e.2 e.1 = .ok w)
    (d := []) ?_ ⟨by simp, by simp⟩ hs
  · obtain ⟨hwinners, hall⟩ := hrun
    rw [List.nil_append] at hwinners hall
    refine ⟨fun u w => ?_, fun u hne => ?_⟩
    · rw [hwinners]
      constructor
      · rintro ⟨l, hl, hw⟩
        obtain ⟨rfl, hne⟩ := (hget u l).mp (o.mem_pairs.mp hl)
        exact ⟨hne, hw⟩
      · rintro ⟨hne, hw⟩
        exact ⟨bids u, o.mem_pairs.mpr ((hget u _).mpr ⟨rfl, hne⟩), hw⟩
    · exact hall ⟨u, bids u⟩ (o.mem_pairs.mpr ((hget u _).mpr ⟨rfl, hne⟩))
  · rintro done e r r' - ⟨hwinners, hall⟩ hstep
    obtain ⟨w, hw, hwin, -⟩ := round_book hstep
    refine ⟨fun u v => ?_, fun e' he' => ?_⟩
    · rw [hwin, List.mem_append, hwinners, List.mem_singleton]
      constructor
      · rintro (⟨l, hl, hv⟩ | heq)
        · exact ⟨l, List.mem_append_left _ hl, hv⟩
        · obtain ⟨rfl, rfl⟩ := Prod.mk.inj heq
          exact ⟨e.2, List.mem_append_right _ List.mem_cons_self, hw⟩
      · rintro ⟨l, hl, hv⟩
        rcases List.mem_append.mp hl with hl | hl
        · exact .inl ⟨l, hl, hv⟩
        · obtain rfl := List.mem_singleton.mp hl
          rw [hw] at hv
          cases hv
          exact .inr rfl
    · rcases List.mem_append.mp he' with he' | he'
      · exact hall e' he'
      · rw [List.mem_singleton.mp he']
        exact ⟨w, hw⟩

end phase

end Sax.Room
