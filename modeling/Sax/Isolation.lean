import Sax.Offered
import Sax.Approval

/-!
Fault isolation of the web exchange: which responses make `launchRtbForDsp` raise.

Only the field check runs under `pcall`. What the program does with the fields afterwards goes
through exactly when every accepted entry is harmless: an ad unit it names is known, and a
creative that can win can be altered. A phase that ends selects from the other responses as if a
faulty one were absent.
-/

namespace Sax.Isolation

open Sax.LuaVal Sax.Loop Sax.SecondPrice Sax.Const Sax.Runtime Sax.Store Sax.Auction Sax.Extract
open Sax.BidRsp Sax.Shape Sax.Offered
open Sax.WebRtb (Win Phase Round)

/-! ### What an entry needs -/

/-- The entry is at or above a known floor. -/
def AtFloor (c : Ctx) (ad : AdCreative) : Prop :=
  ∃ floor, getAdLowestPrice c.dict c.auction_type ad.id = .ok (some floor) ∧
    floor ≤ ad.max_cpm_price

def Approved (c : Ctx) (dspId : Str) (creative : Creative) : Prop :=
  isValidCreative c.dict c.auction_type dspId creative.id = .ok true

/-- The entry is a bid: at or above the floor, with an approved creative. -/
def Bids (c : Ctx) (p : Str × AdCreative) : Prop :=
  AtFloor c p.2 ∧ ∃ creative ∈ p.2.creative, Approved c p.1 creative

/-- No bid among `A` for the same ad unit is higher. -/
def Leading (c : Ctx) (A : Str × AdCreative → Prop) (p : Str × AdCreative) : Prop :=
  Bids c p ∧ ∀ q, A q → Bids c q → q.2.id = p.2.id → q.2.max_cpm_price ≤ p.2.max_cpm_price

/-- Every approved creative of the entry can be altered for the page. -/
def Displays (c : Ctx) (p : Str × AdCreative) : Prop :=
  ∀ creative ∈ p.2.creative, Approved c p.1 creative → Alterable c p.1 creative.html_snippet

/-- **The entries `A` do no harm.** -/
structure Harmless (c : Ctx) (A : Str × AdCreative → Prop) : Prop where
  unit : ∀ p, A p → c.auction_type ≠ .preferredDeal ∨ Bids c p → c.dict.HasUnit p.2.id
  displays : ∀ p, A p → Leading c A p → Displays c p

/-! ### When the lookups raise -/

section lookups

variable {d : Dict} {auction_type : AuctionType} {dspId creativeId u : Str}

/-- The check of a creative never raises. -/
lemma isValidCreative_isOk : ∃ b, isValidCreative d auction_type dspId creativeId = .ok b := by
  simp only [isValidCreative, creativeIsValid, creativeGetStatus, creativeGetAdvertiserId,
    advertiserIsValid, advertiserGetStatus, advertiserGetType, advertiserKey]
  by_cases hs : dspId = SINA_DSP_ID
  · simp only [hs, if_true, ok_bind]
    cases auction_type <;> exact ⟨_, rfl⟩
  simp only [hs, if_false, isValid_eq, getAttribute_eq, ok_bind]
  cases d.creative (dspId ++ creativeId) with
  | none => exact ⟨false, by simp⟩
  | some ci =>
    by_cases hstatus : ci.status = OBJECT_STATUS_INVALID
    · exact ⟨false, by simp [hstatus]⟩
    cases ha : d.advertiser (dspId ++ ci.advertiserid) with
    | none => exact ⟨false, by simp [hstatus, ha]⟩
    | some ai =>
      by_cases hai : ai.status = OBJECT_STATUS_INVALID
      · exact ⟨false, by simp [hstatus, ha, hai]⟩
      · obtain ⟨b, hb⟩ : ∃ b, checkAdvertiserType auction_type (some ai.type) = .ok b := ⟨_, rfl⟩
        exact ⟨b, by cases b <;> simp [hstatus, ha, hai, hb]⟩

/-- An approved creative has a unique id. -/
lemma uniqueId_of_approved (h : isValidCreative d auction_type dspId creativeId = .ok true) :
    ∃ n, creativeGetUniqueId d dspId creativeId = .ok (some n) := by
  unfold creativeGetUniqueId
  by_cases hs : dspId = SINA_DSP_ID
  · exact ⟨_, if_pos hs⟩
  · obtain ⟨ci, hci, -⟩ := (Approval.isValidCreative_iff hs).mp h
    rw [if_neg hs, getAttribute_eq, hci]
    exact ⟨_, rfl⟩

variable (d dspId creativeId) in
lemma getUniqueId_isOk : ∃ n, creativeGetUniqueId d dspId creativeId = .ok n := by
  unfold creativeGetUniqueId
  split
  · exact ⟨_, rfl⟩
  · exact ⟨_, getAttribute_eq _ _ _⟩

/-- Outside preferred deals the floor is looked up, and an unknown ad unit has none. -/
lemma getAdLowestPrice_isOk :
    (∃ floor, getAdLowestPrice d auction_type u = .ok floor) ↔
      (auction_type ≠ .preferredDeal → d.HasUnit u) := by
  unfold getAdLowestPrice
  split
  · next h => simp [h]
  · next h =>
    rw [getPublisher, getAttribute_eq]
    cases hu : d.adunit u <;> simp [h, hu, Dict.HasUnit, getLowestPrice]

/-- The room of an ad unit is known exactly when the unit is. -/
lemma getLeftAdNum_isOk {adCreativeList : WebRtb.Creatives} :
    (∃ n, WebRtb.getLeftAdNum d u adCreativeList = .ok n) ↔ d.HasUnit u := by
  unfold WebRtb.getLeftAdNum getDisplayType getAdNum Dict.HasUnit
  rw [getAttribute_eq, getAttribute_eq]
  cases d.adunit u with
  | none => simp
  | some a =>
    simp only [Option.map_some, ok_bind, Option.some.injEq, Option.isSome_some, iff_true]
    split <;> exact ⟨_, rfl⟩

end lookups

/-! ### The entries of a response -/

section entries

variable {c : Ctx} {p : Str × AdCreative}

/-- An entry is kept or dropped without an error exactly when it names a known ad unit, outside
preferred deals. -/
lemma keep_isOk :
    (∃ kept, (rtb c).keep p.1 p.2 = .ok kept) ↔
      (c.auction_type ≠ .preferredDeal → c.dict.HasUnit p.2.id) := by
  rw [← getAdLowestPrice_isOk]
  simp only [rtb, BidRsp.keep]
  cases hfloor : getAdLowestPrice c.dict c.auction_type p.2.id with
  | error e => simp
  | ok floor =>
    refine iff_of_true ?_ ⟨_, rfl⟩
    cases floor with
    | none => exact ⟨_, rfl⟩
    | some f => exact keepAtLeast_isOk fun creative _ => isValidCreative_isOk

/-- **An entry goes through the extraction exactly when it is known where it belongs.** -/
theorem passes_iff :
    (rtb c).Passes p ↔ (c.auction_type ≠ .preferredDeal → c.dict.HasUnit p.2.id) := by
  have hlog : (rtb c).logDspRsp p.1 p.2 = .ok () := by
    simp only [rtb, logCreatives]
    rw [forM_isOk, List.forall_mem_map]
    intro creative _
    obtain ⟨n, hn⟩ := getUniqueId_isOk c.dict p.1 creative.id
    exact bind_ok.mpr ⟨n, hn, rfl⟩
  rw [Copy.Passes, keep_isOk]
  exact and_iff_left hlog

/-- The creatives of a bid are the approved ones of its entry. -/
lemma mem_creative {b : Bid (List Creative)} (h : (rtb c).keep p.1 p.2 = .ok (some b))
    {creative : Creative} :
    creative ∈ b.creative ↔ creative ∈ p.2.creative ∧ Approved c p.1 creative := by
  obtain ⟨-, -, -, -, hsub, happroved⟩ := keep_some h
  refine ⟨fun hc => ⟨hsub.subset hc, happroved creative hc⟩, ?_⟩
  rintro ⟨hc, hv⟩
  obtain ⟨floor, -, h⟩ := bind_ok.mp h
  cases floor with
  | none => cases h
  | some f => exact validCreatives_mem (keepAtLeast_some h).2.2.2.2 hc hv

/-- An entry that passes is kept exactly when it is a bid. -/
lemma kept_iff (hpass : (rtb c).Passes p) :
    (∃ b, (rtb c).keep p.1 p.2 = .ok (some b)) ↔ Bids c p := by
  constructor
  · rintro ⟨b, h⟩
    obtain ⟨-, hprice, ⟨f, hf, hle⟩, hne, -⟩ := keep_some h
    obtain ⟨creative, hc⟩ := List.exists_mem_of_ne_nil _ hne
    exact ⟨⟨f, hf, hprice ▸ WithBot.coe_le_coe.mpr hle⟩, creative, (mem_creative h).mp hc⟩
  · rintro ⟨⟨f, hf, hle⟩, creative, hc, hv⟩
    obtain ⟨kept, hk⟩ := hpass.1
    have hkeep := hk
    simp only [rtb, BidRsp.keep, hf, ok_bind] at hkeep
    obtain ⟨b, rfl, -⟩ := keepAtLeast_kept hkeep hle hc hv
    exact ⟨b, hk⟩

variable {A : List (Str × AdCreative)}

/-- Among entries that pass, the one whose bid no other beats is the one that leads. -/
lemma leads_iff (hpass : ∀ q ∈ A, (rtb c).Passes q) (hp : p ∈ A) :
    Leads (rtb c) A p ↔ Leading c (· ∈ A) p := by
  constructor
  · rintro ⟨b, hb, htop⟩
    refine ⟨(kept_iff (hpass p hp)).mp ⟨b, hb⟩, fun q hq hbids hu => ?_⟩
    obtain ⟨b', hb'⟩ := (kept_iff (hpass q hq)).mpr hbids
    have hle := htop.2 b' (Copy.mem_bids.mpr ⟨q, hq, hu, hb'⟩)
    rw [(keep_some hb').2.1, (keep_some hb).2.1]
    exact WithBot.coe_le_coe.mpr hle
  · rintro ⟨hbids, htop⟩
    obtain ⟨b, hb⟩ := (kept_iff (hpass p hp)).mpr hbids
    refine ⟨b, hb, Copy.mem_bids.mpr ⟨p, hp, rfl, hb⟩, fun b' hmem => ?_⟩
    obtain ⟨q, hq, hu, hb'⟩ := Copy.mem_bids.mp hmem
    have hle := htop q hq ((kept_iff (hpass q hq)).mp ⟨b', hb'⟩) hu
    rw [(keep_some hb').2.1, (keep_some hb).2.1] at hle
    exact WithBot.coe_le_coe.mp hle

end entries

/-! ### The rounds of a phase -/

section rounds

variable {c : Ctx} {A : List (Str × AdCreative)} {o : Order}

/-- The DSP has a row. -/
def HasDsp (d : Dict) (dspId : Str) : Prop := (d.dsp dspId).isSome

/-- The auction of the unit ends, its winner's creatives can be altered and its room is known. -/
def RoundOk (c : Ctx) (o : Order) (draw : Draw) (e : Sigma fun _ : Str => List (Bid (List Creative))) :
    Prop :=
  ∃ w, selectWinner c.dict c.auction_type o draw e.2 e.1 = .ok w ∧
    (∀ creative ∈ w.creative, Alterable c w.dsp_id creative.html_snippet) ∧ c.dict.HasUnit e.1

/-- A winner whose creatives are ready goes through its round exactly when it is `RoundOk`. -/
lemma round_isOk {draw : Str → Draw} {s : Round} {e : Sigma fun _ : Str => List (Bid (List Creative))}
    {w : Win} (hw : selectWinner c.dict c.auction_type o (draw e.1) e.2 e.1 = .ok w)
    (hprice : w.win_cpm_price.isSome)
    (hready : ∀ creative ∈ w.creative, Ready c w.dsp_id creative.id w.win_cpm_price) :
    (∃ s', WebRtb.round c o draw s e = .ok s') ↔ RoundOk c o (draw e.1) e := by
  obtain ⟨q, hq⟩ := Option.isSome_iff_exists.mp hprice
  have hlog : WebRtb.logDspCfm c w = .ok () := by
    have hforM : (w.creative.forM fun creative => do
        let _ ← Creative.concatUniqueId c w.dsp_id creative.id) = Except.ok () := by
      refine forM_isOk.mpr fun creative hc => ?_
      obtain ⟨s, hs⟩ := (hready creative hc).concatUniqueId
      rw [hs]
      rfl
    refine bind_ok.mpr ⟨(), hforM, ?_⟩
    rw [hq]
    rfl
  have hcfm : ∀ l, ∃ l', WebRtb.fillWinPriceList c e.1 w l = .ok l' := by
    intro l
    simp only [WebRtb.fillWinPriceList, getConfirmUrl, getAttribute_eq, hlog, ok_bind]
    exact ⟨_, rfl⟩
  have hcontents : (∃ temps, Creative.contents c e.1 w.dsp_id w.win_cpm_price w.creative =
      .ok temps) ↔ ∀ creative ∈ w.creative, Alterable c w.dsp_id creative.html_snippet :=
    contents_isOk hready
  constructor
  · rintro ⟨s', h⟩
    obtain ⟨w', hw', h⟩ := bind_ok.mp h
    obtain ⟨_, -, h⟩ := bind_ok.mp h
    obtain ⟨creatives, hfill, h⟩ := bind_ok.mp h
    obtain ⟨left, hleft, -⟩ := bind_ok.mp h
    rw [hw] at hw'
    cases hw'
    obtain ⟨temps, htemps, -⟩ := bind_ok.mp hfill
    exact ⟨w, hw, hcontents.mp ⟨temps, htemps⟩, getLeftAdNum_isOk.mp ⟨left, hleft⟩⟩
  · rintro ⟨w', hw', halter, hunit⟩
    rw [hw] at hw'
    cases hw'
    obtain ⟨l, hl⟩ := hcfm s.winPriceList
    obtain ⟨temps, htemps⟩ := hcontents.mpr halter
    obtain ⟨left, hleft⟩ : ∃ n, WebRtb.getLeftAdNum c.dict e.1
        (WebRtb.fill s.adCreativeList e.1 temps) = .ok n := getLeftAdNum_isOk.mpr hunit
    exact ⟨_, bind_ok.mpr ⟨w, hw, bind_ok.mpr ⟨l, hl,
      bind_ok.mpr ⟨_, bind_ok.mpr ⟨temps, htemps, rfl⟩, bind_ok.mpr ⟨left, hleft, rfl⟩⟩⟩⟩⟩

/-- What a kept bid that is awarded the unit brings to its round. -/
lemma ready_of_outcome {p : Str × AdCreative} {b : Bid (List Creative)} {bidInfo : List (Bid (List Creative))}
    {r : Lua Win} (hb : (rtb c).keep p.1 p.2 = .ok (some b)) (hdsp : HasDsp c.dict p.1)
    (h : Outcome (getAdLowestPrice c.dict c.auction_type p.2.id) bidInfo b r) :
    ∃ w, r = .ok w ∧ w.dsp_id = p.1 ∧ w.creative = b.creative ∧ w.win_cpm_price.isSome ∧
      ∀ creative ∈ w.creative, Ready c w.dsp_id creative.id w.win_cpm_price := by
  obtain ⟨hd, f, hf⟩ := web_signed c p b hb
  obtain ⟨w, hw, hwd, hwc, hwp⟩ := outcome_winner hf h
  refine ⟨w, hw, hwd.trans hd, hwc, hwp, fun creative hc => ?_⟩
  rw [hwc] at hc
  rw [hwd, hd]
  exact ⟨hdsp, uniqueId_of_approved ((mem_creative hb).mp hc).2, hwp⟩

/-- **The rounds of a unit go through for every draw exactly when the unit is known and each
leading entry displays.** -/
theorem roundOk_iff {e : Sigma fun _ : Str => List (Bid (List Creative))}
    (hpass : ∀ p ∈ A, (rtb c).Passes p) (hdsp : ∀ p ∈ A, HasDsp c.dict p.1)
    (he : (rtb c).bids e.1 A = e.2) (hne : e.2 ≠ []) :
    (∀ draw, RoundOk c o draw e) ↔ c.dict.HasUnit e.1 ∧
      ∀ p ∈ A, p.2.id = e.1 → Leading c (· ∈ A) p → Displays c p := by
  constructor
  · intro h
    obtain ⟨_, -, -, hunit⟩ := h .least
    refine ⟨hunit, fun p hp hu hlead => ?_⟩
    obtain ⟨b, hb, htop⟩ := (leads_iff hpass hp).mpr hlead
    have htop' : IsTop Bid.max_cpm_price e.2 b := by
      rw [← he, ← hu]
      exact htop
    obtain ⟨draw, hout⟩ := auction_reaches o (getAdLowestPrice c.dict c.auction_type p.2.id) htop'
    obtain ⟨w, hw, hwd, hwc, -, -⟩ := ready_of_outcome hb (hdsp p hp) hout
    obtain ⟨w', hw', halter, -⟩ := h draw
    rw [selectWinner, ← hu, hw] at hw'
    cases hw'
    intro creative hc hv
    rw [← hwd]
    exact halter creative (hwc ▸ (mem_creative hb).mpr ⟨hc, hv⟩)
  · rintro ⟨hunit, hdisplay⟩ draw
    obtain ⟨b, htop, hout⟩ := auction_spec o draw (getAdLowestPrice c.dict c.auction_type e.1) hne
    rw [← he] at htop
    obtain ⟨p, hp, hu, hb⟩ := Copy.mem_bids.mp htop.1
    change p.2.id = e.1 at hu
    rw [← hu] at hout htop
    obtain ⟨w, hw, hwd, hwc, -, -⟩ := ready_of_outcome hb (hdsp p hp) hout
    rw [hu] at hw
    refine ⟨w, hw, fun creative hc => ?_, hunit⟩
    rw [hwc] at hc
    obtain ⟨hmem, hv⟩ := (mem_creative hb).mp hc
    rw [hwd]
    exact hdisplay p hp hu ((leads_iff hpass hp).mp ⟨b, hb, htop⟩) creative hmem hv

/-- The loop over the units ends exactly when each round goes through. -/
lemma rounds_isOk {draw : Str → Draw} {t : Tbl (List (Bid (List Creative)))} {s : Round}
    (ht : (rtb c).Holds t A) (hdsp : ∀ p ∈ A, HasDsp c.dict p.1) :
    (∃ s', (o.pairs t).foldlM (WebRtb.round c o draw) s = .ok s') ↔
      ∀ e ∈ o.pairs t, RoundOk c o (draw e.1) e := by
  refine foldlM_ok_iff (P := fun _ => True) ?_ (fun _ _ _ _ _ _ => trivial) trivial
  intro s e he _
  obtain ⟨hbids, hne⟩ := ht.get.mp (o.mem_pairs.mp he)
  obtain ⟨b, htop, hout⟩ :=
    auction_spec o (draw e.1) (getAdLowestPrice c.dict c.auction_type e.1) hne
  rw [← hbids] at htop
  obtain ⟨p, hp, hu, hb⟩ := Copy.mem_bids.mp htop.1
  change p.2.id = e.1 at hu
  rw [← hu] at hout
  obtain ⟨w, hw, -, -, hwp, hready⟩ := ready_of_outcome hb (hdsp p hp) hout
  rw [hu] at hw
  exact round_isOk hw hwp hready

variable {l : List (Str × Rsp)} {adPendList cmUrlList : List Str}
  {adCreativeList : WebRtb.Creatives}

/-- A phase in which the DSPs answer `l`. -/
def phase (c : Ctx) (o : Order) (draw : Str → Draw) (l : List (Str × Rsp)) (adPendList : List Str)
    (adCreativeList : WebRtb.Creatives) (cmUrlList : List Str) : Lua Phase :=
  WebRtb.handleBidRsp c o draw (l.map Prod.snd) adPendList (l.map Prod.fst) adCreativeList cmUrlList

/-- Handling the responses is collecting their entries and playing a round for each unit. -/
lemma phase_ok {draw : Str → Draw} {out : Phase} :
    phase c o draw l adPendList adCreativeList cmUrlList = .ok out ↔
      ∃ t s, (rtb c).collect ∅ ((rtb c).accepted l) = .ok t ∧
        (o.pairs t).foldlM (WebRtb.round c o draw) ⟨adPendList, adCreativeList, ∅, []⟩ = .ok s ∧
        out = ⟨s.adPendList, s.adCreativeList, cmUrlList ++ l.flatMap (rtb c).cmUrls,
          if s.winPriceList ≠ ∅ then s.winPriceList.erase (lit "bid") else ∅,
          if s.winPriceList ≠ ∅ then some c.bid else none, s.winners⟩ := by
  have hzip : (l.map Prod.fst).zip (l.map Prod.snd) = l := by simp [List.zip_map']
  unfold phase WebRtb.handleBidRsp
  simp only [bind_ok, pure_ok, BidRsp.extractAdBid]
  constructor
  · rintro ⟨ex, hex, s, hs, rfl⟩
    obtain ⟨t, ht, rfl⟩ := Copy.extractAdBid_ok.mp hex
    rw [hzip] at ht
    exact ⟨t, s, ht, hs, by rw [hzip]⟩
  · rintro ⟨t, s, ht, hs, rfl⟩
    exact ⟨_, Copy.extractAdBid_ok.mpr ⟨t, by rw [hzip]; exact ht, rfl⟩, s, hs, by rw [hzip]⟩

/-- **Handling the responses ends for every draw exactly when their entries are harmless.** -/
theorem phase_isOk (hdsp : ∀ p ∈ (rtb c).accepted l, HasDsp c.dict p.1) :
    (∀ draw, ∃ out, phase c o draw l adPendList adCreativeList cmUrlList = .ok out) ↔
      Harmless c (· ∈ (rtb c).accepted l) := by
  constructor
  · intro h
    obtain ⟨_, hleast⟩ := h fun _ => .least
    obtain ⟨t, _, ht, -, -⟩ := phase_ok.mp hleast
    have hpass := Copy.collect_isOk.mp ⟨t, ht⟩
    have hholds := Copy.collect_holds Copy.holds_nil ht
    rw [List.nil_append] at hholds
    have hrounds : ∀ e ∈ o.pairs t, ∀ draw, RoundOk c o draw e := by
      intro e he draw
      obtain ⟨_, hout⟩ := h fun _ => draw
      obtain ⟨t', s, ht', hs, -⟩ := phase_ok.mp hout
      rw [ht] at ht'
      cases ht'
      exact (rounds_isOk hholds hdsp).mp ⟨s, hs⟩ e he
    -- a bid has its unit in the table, so the rounds of that unit go through
    have hunit : ∀ p ∈ (rtb c).accepted l, Bids c p → c.dict.HasUnit p.2.id ∧
        (Leading c (· ∈ (rtb c).accepted l) p → Displays c p) := by
      intro p hp hbids
      obtain ⟨b, hb⟩ := (kept_iff (hpass p hp)).mpr hbids
      have hne : (rtb c).bids p.2.id ((rtb c).accepted l) ≠ [] :=
        List.ne_nil_of_mem (Copy.mem_bids.mpr ⟨p, hp, rfl, hb⟩)
      have he := o.mem_pairs.mpr (hholds.get.mpr ⟨rfl, hne⟩)
      obtain ⟨h1, h2⟩ := (roundOk_iff hpass hdsp rfl hne).mp (hrounds _ he)
      exact ⟨h1, h2 p hp rfl⟩
    refine ⟨fun p hp => ?_, fun p hp hlead => (hunit p hp hlead.1).2 hlead⟩
    rintro (hopen | hbids)
    · exact passes_iff.mp (hpass p hp) hopen
    · exact (hunit p hp hbids).1
  · intro h draw
    have hpass : ∀ p ∈ (rtb c).accepted l, (rtb c).Passes p := fun p hp =>
      passes_iff.mpr fun hopen => h.unit p hp (.inl hopen)
    obtain ⟨t, ht⟩ := Copy.collect_isOk.mpr hpass
    have hholds := Copy.collect_holds Copy.holds_nil ht
    rw [List.nil_append] at hholds
    have hrounds : ∀ e ∈ o.pairs t, RoundOk c o (draw e.1) e := by
      intro e he
      obtain ⟨hbids, hne⟩ := hholds.get.mp (o.mem_pairs.mp he)
      refine (roundOk_iff hpass hdsp hbids hne).mpr ⟨?_, fun p hp _ => h.displays p hp⟩ (draw e.1)
      obtain ⟨b, hb⟩ := List.exists_mem_of_ne_nil _ (hbids ▸ hne)
      obtain ⟨p, hp, hu, hk⟩ := Copy.mem_bids.mp hb
      have hknown := h.unit p hp (.inr ((kept_iff (hpass p hp)).mp ⟨b, hk⟩))
      rwa [show p.2.id = e.1 from hu] at hknown
    obtain ⟨s, hs⟩ := (rounds_isOk hholds hdsp).mpr hrounds
    exact ⟨_, phase_ok.mpr ⟨t, s, ht, hs, rfl⟩⟩

end rounds

/-! ### A phase -/

section launch

/-- What the callers see to: a query names known DSPs and known ad units. -/
def Known (d : Dict) (dspQueryList : Tbl (List Str)) : Prop :=
  ∀ dspId adUnitList, dspQueryList.get dspId = some adUnitList →
    HasDsp d dspId ∧ ∀ u ∈ adUnitList, d.HasUnit u

/-- The entries of the accepted responses of the DSPs queried. -/
def Accepted (c : Ctx) (dspQueryList : Tbl (List Str)) (rsp : Str → Rsp) (p : Str × AdCreative) :
    Prop :=
  (dspQueryList.get p.1).isSome ∧ p ∈ (rtb c).entries (p.1, rsp p.1)

/-- The response of the DSP holds no bid: it failed, is malformed, or each of its entries is
below the floor or without an approved creative. -/
def NoBid (c : Ctx) (rsp : Str → Rsp) (dspId : Str) : Prop :=
  ∀ p ∈ (rtb c).entries (dspId, rsp dspId), ¬ Bids c p

/-- The response holds no usable bid: each bid of it names an unknown ad unit, or has an
approved creative that cannot be altered. -/
def Faulty (c : Ctx) (rsp : Str → Rsp) (dspId : Str) : Prop :=
  ∀ p ∈ (rtb c).entries (dspId, rsp dspId), Bids c p → c.dict.HasUnit p.2.id → ¬ Displays c p

/-- The DSP can win the unit when the DSPs answer `l`. -/
def Wins (c : Ctx) (l : List (Str × Rsp)) (u dspId : Str) : Prop :=
  ∃ w, CanWin (rtb c) (getAdLowestPrice c.dict c.auction_type) l u w ∧ w.dsp_id = dspId

/-- The responses without the one of a DSP. -/
def without (dspId : Str) (l : List (Str × Rsp)) : List (Str × Rsp) := l.filter (·.1 ≠ dspId)

/-- **The phase is isolated from faults**: whatever the order and the draws it returns, a
response without a bid changes none of the winners it selects, and a faulty one changes for
no unit who can win it. -/
def Isolated (c : Ctx) (dspQueryList : Tbl (List Str)) (adPendList : List Str)
    (adCreativeList : WebRtb.Creatives) (cmUrlList : List Str) (rsp : Str → Rsp) : Prop :=
  ∀ o draw, ∃ reqs out, WebRtb.buildBidReq c o dspQueryList adCreativeList = .ok reqs ∧
    WebRtb.launchRtbForDsp c o draw rsp dspQueryList adPendList adCreativeList cmUrlList =
      .ok out ∧
    ∀ dspId,
      (NoBid c rsp dspId → ∃ out', phase c o draw (without dspId (answers reqs rsp)) adPendList
        adCreativeList cmUrlList = .ok out' ∧ out'.winners = out.winners) ∧
      (Faulty c rsp dspId → ∀ u dspId',
        Wins c (answers reqs rsp) u dspId' ↔ Wins c (without dspId (answers reqs rsp)) u dspId')

variable {c : Ctx} {o : Order} {draw : Str → Draw} {dspQueryList : Tbl (List Str)}
  {adPendList cmUrlList : List Str} {adCreativeList : WebRtb.Creatives} {rsp : Str → Rsp}
  {reqs : List (Str × WebRtb.BidReq)} {l : List (Str × Rsp)} {dspId : Str}

lemma adUnitReq_isOk {u : Str} (h : c.dict.HasUnit u) :
    ∃ r, WebRtb.adUnitReq c adCreativeList u = .ok r := by
  obtain ⟨left, hleft⟩ : ∃ n, WebRtb.getLeftAdNum c.dict u adCreativeList = .ok n :=
    getLeftAdNum_isOk.mpr h
  obtain ⟨floor, hfloor⟩ : ∃ f, getAdLowestPrice c.dict c.auction_type u = .ok f :=
    getAdLowestPrice_isOk.mpr fun _ => h
  simp only [WebRtb.adUnitReq, getDisplayType, getSize, getLocation, getAdTypeList,
    getAttribute_eq, ok_bind, hleft, hfloor]
  exact ⟨_, rfl⟩

lemma bidUrl_isOk (h : HasDsp c.dict dspId) : ∃ url, WebRtb.bidUrl c dspId = .ok url := by
  obtain ⟨d, hd⟩ := Option.isSome_iff_exists.mp h
  simp only [WebRtb.bidUrl, getRTBUrl, getAttribute_eq, hd, Option.map_some, ok_bind,
    Creative.argument]
  split
  · exact ⟨_, rfl⟩
  · split <;> exact ⟨_, rfl⟩

/-- The requests of a known query are built, one for each DSP. -/
lemma buildBidReq_isOk (h : Known c.dict dspQueryList) :
    ∃ reqs, WebRtb.buildBidReq c o dspQueryList adCreativeList = .ok reqs := by
  refine mapM_isOk.mpr fun e he => ?_
  obtain ⟨hdsp, hunits⟩ := h e.1 e.2 (o.mem_pairs.mp he)
  obtain ⟨ad_unit, hu⟩ : ∃ l, e.2.mapM (WebRtb.adUnitReq c adCreativeList) = .ok l :=
    mapM_isOk.mpr fun u hu => adUnitReq_isOk (hunits u hu)
  obtain ⟨url, hurl⟩ := bidUrl_isOk hdsp
  exact ⟨_, bind_ok.mpr ⟨ad_unit, hu, bind_ok.mpr ⟨url, hurl, rfl⟩⟩⟩

lemma mem_answers (h : WebRtb.buildBidReq c o dspQueryList adCreativeList = .ok reqs)
    {p : Str × Rsp} : p ∈ answers reqs rsp ↔ (dspQueryList.get p.1).isSome ∧ p.2 = rsp p.1 := by
  have hids : reqs.map Prod.fst = (o.pairs dspQueryList).map Sigma.fst :=
    mapM_map_eq (fun _ _ h => (bidReq_ok h).1) h
  have hkey : p.1 ∈ reqs.map Prod.fst ↔ (dspQueryList.get p.1).isSome := by
    rw [hids, List.mem_map, Option.isSome_iff_exists]
    constructor
    · rintro ⟨e, he, heq⟩
      exact ⟨e.2, heq ▸ o.mem_pairs.mp he⟩
    · rintro ⟨adUnitList, hget⟩
      exact ⟨⟨p.1, adUnitList⟩, o.mem_pairs.mpr hget, rfl⟩
  rw [← hkey, answers, List.mem_map, List.mem_map]
  constructor
  · rintro ⟨r, hr, rfl⟩
    exact ⟨⟨r, hr, rfl⟩, rfl⟩
  · rintro ⟨⟨r, hr, heq⟩, hp⟩
    exact ⟨r, hr, Prod.ext heq (by rw [hp, heq])⟩

lemma mem_accepted (h : WebRtb.buildBidReq c o dspQueryList adCreativeList = .ok reqs)
    {p : Str × AdCreative} :
    p ∈ (rtb c).accepted (answers reqs rsp) ↔ Accepted c dspQueryList rsp p := by
  unfold Copy.accepted Accepted
  rw [List.mem_flatMap]
  constructor
  · rintro ⟨a, ha, hp⟩
    obtain ⟨hget, hrsp⟩ := (mem_answers h).mp ha
    have hfst : p.1 = a.1 := Copy.mem_entries hp
    have ha' : a = (p.1, rsp p.1) := Prod.ext hfst.symm (by rw [hrsp, hfst])
    exact ⟨hfst ▸ hget, ha' ▸ hp⟩
  · rintro ⟨hget, hp⟩
    exact ⟨(p.1, rsp p.1), (mem_answers h).mpr ⟨hget, rfl⟩, hp⟩

lemma launch_eq (h : WebRtb.buildBidReq c o dspQueryList adCreativeList = .ok reqs) :
    WebRtb.launchRtbForDsp c o draw rsp dspQueryList adPendList adCreativeList cmUrlList =
      phase c o draw (answers reqs rsp) adPendList adCreativeList cmUrlList := by
  rw [WebRtb.launchRtbForDsp, h, ok_bind, phase, answers, List.map_map, List.map_map]
  rfl

/-- Without a response that holds no bid the same rounds are played. -/
lemma winners_without {out : Phase} (hnone : ∀ p ∈ (rtb c).accepted l, p.1 = dspId → ¬ Bids c p)
    (h : phase c o draw l adPendList adCreativeList cmUrlList = .ok out) :
    ∃ out', phase c o draw (without dspId l) adPendList adCreativeList cmUrlList = .ok out' ∧
      out'.winners = out.winners := by
  obtain ⟨t, s, ht, hs, rfl⟩ := phase_ok.mp h
  have hpass := Copy.collect_isOk.mp ⟨t, ht⟩
  refine ⟨_, phase_ok.mpr ⟨t, s, ?_, hs, rfl⟩, rfl⟩
  rw [without, Copy.accepted_filter]
  refine Copy.collect_filter (fun p hp hdsp => ?_) ht
  obtain ⟨kept, hk⟩ := (hpass p hp).1
  cases kept with
  | none => rw [Copy.bid, hk]
  | some b =>
    have hbids : Bids c p := (kept_iff (hpass p hp)).mp ⟨b, hk⟩
    exact absurd hbids (hnone p hp (by simpa using hdsp))

/-- Without a response none of whose entries leads, the same DSPs can win. -/
lemma wins_without (hpass : ∀ p ∈ (rtb c).accepted l, (rtb c).Passes p)
    (hbehind : ∀ p ∈ (rtb c).accepted l, p.1 = dspId → ¬ Leads (rtb c) ((rtb c).accepted l) p)
    (u dspId' : Str) : Wins c l u dspId' ↔ Wins c (without dspId l) u dspId' := by
  have hmem : ∀ p, p ∈ (rtb c).accepted (without dspId l) ↔
      p ∈ (rtb c).accepted l ∧ p.1 ≠ dspId := by
    intro p
    rw [without, Copy.accepted_filter, List.mem_filter, decide_eq_true_eq]
  have hsub : ∀ b, b ∈ (rtb c).bids u ((rtb c).accepted (without dspId l)) →
      b ∈ (rtb c).bids u ((rtb c).accepted l) := by
    intro b hb
    obtain ⟨p, hp, hk⟩ := Copy.mem_bids.mp hb
    exact Copy.mem_bids.mpr ⟨p, ((hmem p).mp hp).1, hk⟩
  unfold Wins
  rw [exists_canWin_iff (web_signed c), exists_canWin_iff (web_signed c)]
  constructor
  · rintro ⟨-, p, hp, hdsp, rfl, b, hb, htop⟩
    have hin : p ∈ (rtb c).accepted (without dspId l) :=
      (hmem p).mpr ⟨hp, fun heq => hbehind p hp heq ⟨b, hb, htop⟩⟩
    exact ⟨fun q hq => hpass q ((hmem q).mp hq).1, p, hin, hdsp, rfl, b, hb,
      Copy.mem_bids.mpr ⟨p, hin, rfl, hb⟩, fun b' hb' => htop.2 b' (hsub b' hb')⟩
  · rintro ⟨-, p, hp, hdsp, rfl, b, hb, htop⟩
    refine ⟨hpass, p, ((hmem p).mp hp).1, hdsp, rfl, b, hb, hsub b htop.1, ?_⟩
    -- the highest bid of all is not of the DSP left out, so it is no higher than the one here
    have hne : (rtb c).bids ((rtb c).id p.2) ((rtb c).accepted l) ≠ [] :=
      List.ne_nil_of_mem (hsub b htop.1)
    obtain ⟨m, hm, -⟩ := auction_spec .plain .least (.ok none) hne
    obtain ⟨q, hq, hu, hqm⟩ := Copy.mem_bids.mp hm.1
    have hlead : Leads (rtb c) ((rtb c).accepted l) q := ⟨m, hqm, by rw [hu]; exact hm⟩
    have hq' : q ∈ (rtb c).accepted (without dspId l) :=
      (hmem q).mpr ⟨hq, fun heq => hbehind q hq heq hlead⟩
    have hle : m.max_cpm_price ≤ b.max_cpm_price :=
      htop.2 m (Copy.mem_bids.mpr ⟨q, hq', hu, hqm⟩)
    exact fun b' hb' => le_trans (hm.2 b' hb') hle

/-- **A phase is isolated from faults exactly when every accepted entry is harmless.** -/
theorem isolated_iff_harmless (h : Known c.dict dspQueryList) :
    Isolated c dspQueryList adPendList adCreativeList cmUrlList rsp ↔
      Harmless c (Accepted c dspQueryList rsp) := by
  have hphase : ∀ (o : Order) reqs,
      WebRtb.buildBidReq c o dspQueryList adCreativeList = .ok reqs →
        ((∀ draw, ∃ out, phase c o draw (answers reqs rsp) adPendList adCreativeList cmUrlList =
          .ok out) ↔ Harmless c (Accepted c dspQueryList rsp)) := by
    intro o reqs hreqs
    have hset : (· ∈ (rtb c).accepted (answers reqs rsp)) = Accepted c dspQueryList rsp :=
      funext fun p => propext (mem_accepted hreqs)
    rw [← hset]
    refine phase_isOk fun p hp => ?_
    obtain ⟨units, hunits⟩ := Option.isSome_iff_exists.mp ((mem_accepted hreqs).mp hp).1
    exact (h p.1 units hunits).1
  constructor
  · intro hiso
    obtain ⟨reqs, hreqs⟩ : ∃ reqs,
        WebRtb.buildBidReq c .plain dspQueryList adCreativeList = .ok reqs := buildBidReq_isOk h
    refine (hphase .plain reqs hreqs).mp fun draw => ?_
    obtain ⟨reqs', out, hreqs', hout, -⟩ := hiso .plain draw
    exact ⟨out, launch_eq hreqs ▸ hout⟩
  · intro hharm o draw
    obtain ⟨reqs, hreqs⟩ : ∃ reqs,
        WebRtb.buildBidReq c o dspQueryList adCreativeList = .ok reqs := buildBidReq_isOk h
    obtain ⟨out, hout⟩ := (hphase o reqs hreqs).mpr hharm draw
    obtain ⟨t, _, ht, -, -⟩ := phase_ok.mp hout
    have hpass := Copy.collect_isOk.mp ⟨t, ht⟩
    have hentry : ∀ dspId, ∀ p ∈ (rtb c).accepted (answers reqs rsp), p.1 = dspId →
        p ∈ (rtb c).entries (dspId, rsp dspId) := by
      rintro _ p hp rfl
      exact ((mem_accepted hreqs).mp hp).2
    refine ⟨reqs, out, hreqs, launch_eq hreqs ▸ hout, fun dspId => ⟨fun hnone => ?_, ?_⟩⟩
    · exact winners_without (fun p hp heq => hnone p (hentry dspId p hp heq)) hout
    · intro hfault
      refine wins_without hpass fun p hp heq hleads => ?_
      have hlead := (leads_iff hpass hp).mp hleads
      have hset : (· ∈ (rtb c).accepted (answers reqs rsp)) = Accepted c dspQueryList rsp :=
        funext fun p => propext (mem_accepted hreqs)
      rw [hset] at hlead
      have hacc := (mem_accepted hreqs).mp hp
      exact hfault p (hentry dspId p hp heq) hlead.1 (hharm.unit p hacc (.inr hlead.1))
        (hharm.displays p hacc hlead)

end launch

section samples

open Sax.Clearing

/-- Ad unit `V` alone, with DSP 2 on its whitelist. -/
def strayDict : Dict := .ofLists
  [("V", ⟨lit "300*250", [], 1, 2, 1, [], lit "fp", [], []⟩)] [(2, ⟨2, 1, 1⟩)]
  [(2, ⟨1, [lit "2"], 1, [lit "2"]⟩)] [("2", ⟨lit "http://b/bid", [], [], [], 1, []⟩)]
  [("2c", ⟨1, 2, lit "c", lit "a", 1⟩)] [("2a", ⟨1, 2, lit "a", 1, lit "111"⟩)]

def strayCtx : Ctx := { offerCtx with dict := strayDict }

lemma offerQuery_known (d : Dict) (hdsp : (d.dsp (lit "2")).isSome)
    (hunit : (d.adunit (lit "V")).isSome) : Known d offerQuery := by
  intro dspId adUnitList hget
  by_cases hd : dspId = lit "2"
  · subst hd
    simp only [offerQuery, Tbl.get, AList.lookup_insert, Option.some.injEq] at hget
    subst hget
    refine ⟨hdsp, fun u hu => ?_⟩
    rw [List.mem_singleton.mp hu]
    exact hunit
  · rw [offerQuery, Tbl.get, AList.lookup_insert_ne hd] at hget
    cases hget

/-- DSP 2 answers with an entry for the unknown ad unit `U`, and the phase raises; on a WAP
page it raises on a snippet that is no JSON. -/
theorem faulty_response_raises :
    Known strayDict offerQuery ∧
    (WebRtb.launchRtbForDsp strayCtx .plain (fun _ => .least) (fun _ => ok (webText "3"))
        offerQuery [lit "V"] ∅ []).isOk = false ∧
    ¬ Isolated strayCtx offerQuery [lit "V"] ∅ [] (fun _ => ok (webText "3")) ∧
    (WebRtb.launchRtbForDsp { offerCtx with adReq := { sampleReq with publisherType := .wap } }
        .plain (fun _ => .least) (fun _ => ok (webText "3")) offerQuery [lit "V"] ∅ []).isOk =
      false := by
  have hraise : (WebRtb.launchRtbForDsp strayCtx .plain (fun _ => .least)
      (fun _ => ok (webText "3")) offerQuery [lit "V"] ∅ []).isOk = false := by decide +kernel
  refine ⟨offerQuery_known _ (by decide) (by decide), hraise, fun h => ?_, by decide +kernel⟩
  obtain ⟨_, _, -, hout, -⟩ := h .plain fun _ => .least
  rw [hout] at hraise
  cases hraise

theorem isolated_iff_harmless_sample :
    Isolated offerCtx offerQuery [lit "V"] ∅ [] (fun _ => ok (webText "3")) ↔
      Harmless offerCtx (Accepted offerCtx offerQuery fun _ => ok (webText "3")) :=
  isolated_iff_harmless (offerQuery_known _ (by decide) (by decide))

end samples

end Sax.Isolation
