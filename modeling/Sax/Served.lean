import Sax.OfferedOnce
import Sax.Placement
import Sax.Slots

/-!
The ad units of a request as places, and what the Sina ad engine and the auctions do to them.

In the mobile and the video exchange an ad unit is open as often as it stands in the pending list.
An ad of the Sina ad engine settles or clears it, and a winner settles it. The exchanges differ in
what a party leaves of the contents it finds, and in how an ad fills its unit.
-/

namespace Sax.Served

open Sax.LuaVal Sax.Loop Sax.Const Sax.Runtime Sax.Store Sax.Auction Sax.Extract Sax.Placement
open Sax.MobileRtb (Ad AdBid)
open Sax.SinaQuery (Page isValidRsp adId logSinaImpress adsOf valueOf idOf first queueOf get_of_field)
open Sax.Slots (Exchange St Win)
open Sax.WebRtb (Creatives removeAdFromPendList)

/-! ### Handling the answer of the Sina ad engine -/

/-- One round of the loop of `handleQueryRsp`. What fills an ad unit says whether the unit leaves
the pending list. -/
def handleAd (fillAd : Str → List Val → Page → Lua (Page × Bool)) (lib : Ngx) (s : Page) (ad : Val) :
    Lua Page := do
  let value ← field "value" (some ad)
  if (← len value) ≠ 0 then
    let id ← adId ad
    let (s, flag) ← fillAd id (← ipairs value) s
    logSinaImpress lib (← ipairs value)
    return if flag then { s with adPendList := removeAdFromPendList s.adPendList id } else s
  else return s

/-- `handleQueryRsp` of `mobile_rtb.lua`, which is `handleVideoRsp` of `video.lua`. -/
def handleQueryRsp (fillAd : Str → List Val → Page → Lua (Page × Bool)) (lib : Ngx) (queryRsp : Rsp)
    (s : Page) : Lua Page :=
  if isValidRsp queryRsp then
    match lib.decode queryRsp.body with
    | .ok queryResult => do (← ipairs (some queryResult)).foldlM (handleAd fillAd lib) s
    | .error _ => .ok s
  else .ok s

/-! ### Ad units as places -/

def placeOf (adPendList : List Str) (adCreativeList : Creatives) (u : Str) : Place Val :=
  ⟨adPendList.count u, adCreativeList.get u⟩

/-- The creative is one of a preferred deal. -/
def isDeal (creative : Val) : Bool := first "type" creative = some (.str PREFERRED_DEAL_TYPE)

/-- What the ads of an answer did to the ad unit, where `answer` says what one with the given
creatives does. -/
def sinaEvents (answer : List Val → Event Val) (ads : List Val) (u : Str) : List (Event Val) :=
  (ads.filter fun ad => idOf ad = some u ∧ valueOf ad ≠ []).map fun ad => answer (valueOf ad)

/-- What an ad with the creatives `value` does to the page. -/
structure Filled (left : Option (List Val) → List Val) (answer : List Val → Event Val) (id : Str)
    (value : List Val) (s s' : Page) (flag : Bool) : Prop where
  pend : s'.adPendList = s.adPendList
  settles : flag = (answer value).isSettled
  content : s'.adCreativeList.get id =
    (Place.step left ⟨0, s.adCreativeList.get id⟩ (answer value)).content
  kept : ∀ u ≠ id, s'.adCreativeList.get u = s.adCreativeList.get u
  deals : ∀ dspId, ∀ u ∈ queueOf s' dspId, u ∈ queueOf s dspId ∨ u = id ∧ flag = false

/-- What the ads did to the page. An ad unit is queued for a preferred deal by an ad that clears
it. -/
structure Answered (left : Option (List Val) → List Val) (events : Str → List (Event Val))
    (s s' : Page) : Prop where
  place : ∀ u, placeOf s'.adPendList s'.adCreativeList u =
    (placeOf s.adPendList s.adCreativeList u).run left (events u)
  deals : ∀ dspId, ∀ u ∈ queueOf s' dspId, u ∈ queueOf s dspId ∨ .cleared ∈ events u

/-- What the winners did to the ad unit. -/
def wonBy (x : Exchange) (winners : List (Str × Win)) (u : Str) : List (Event Val) :=
  (winners.filter (·.1 = u)).map fun e =>
    .settled ((e.2.creative.mapM (x.content u e.2)).toOption.getD [])

/-- A DSP answers with bids for ad units it was asked for. -/
def AnswersAsked (copy : Copy AdBid (List Ad)) (query : Tbl (List Str)) (rsp : Str → Rsp) : Prop :=
  ∀ dspId units, query.get dspId = some units →
    ∀ p ∈ copy.entries (dspId, rsp dspId), copy.id p.2 ∈ units

/-- What a phase that asks the DSPs of `query` does to the ad units. -/
structure Auctioned (left : Option (List Val) → List Val) (x : Exchange)
    (copy : Copy AdBid (List Ad)) (query : Tbl (List Str)) (rsp : Str → Rsp)
    (winners : List (Str × Win)) (before after : Str → Place Val) : Prop where
  place : ∀ u, after u = (before u).run left (wonBy x winners u)
  once : ∀ u, (wonBy x winners u).length ≤ 1
  asked : AnswersAsked copy query rsp → ∀ u, wonBy x winners u ≠ [] →
    ∃ dspId units, query.get dspId = some units ∧ u ∈ units

section answer

variable {left : Option (List Val) → List Val} {answer : List Val → Event Val}
  {fillAd : Str → List Val → Page → Lua (Page × Bool)} {lib : Ngx} {s s' : Page}

lemma get_eq_of_field {k : String} {v : Val} {w : Option Val} (h : field k (some v) = .ok w) :
    v.get k = w := by
  cases v <;> cases h <;> rfl

/-- Queueing an ad unit for a deal queues no other. -/
lemma mem_push {t : Tbl (List Str)} {dspId k id u : Str}
    (h : u ∈ ((t.push k id).get dspId).getD []) : u ∈ (t.get dspId).getD [] ∨ u = id := by
  by_cases hk : dspId = k
  · subst hk
    rwa [Tbl.get_push, Option.getD_some, List.mem_append, List.mem_singleton] at h
  · rw [Tbl.get_push_ne _ _ _ hk] at h
    exact .inl h

lemma eq_cleared {e : Event Val} (h : e.isSettled = false) : e = .cleared := by
  cases e with
  | settled contents => cases h
  | cleared => rfl

lemma Filled.answered {t : Page} {ad : Val} {id : Str} {flag : Bool} (hid : idOf ad = some id)
    (hne : valueOf ad ≠ []) (h : Filled left answer id (valueOf ad) s t flag) :
    Answered left (sinaEvents answer [ad]) s
      (if flag then { t with adPendList := removeAdFromPendList t.adPendList id } else t) := by
  have hevents : ∀ u, sinaEvents answer [ad] u = if u = id then [answer (valueOf ad)] else [] := by
    intro u
    by_cases hu : u = id
    · simp [sinaEvents, hid, hne, hu]
    · simp [sinaEvents, hid, hu, Ne.symm hu]
  refine ⟨fun u => ?_, fun dspId u hu => ?_⟩
  · rw [hevents]
    by_cases hu : u = id
    · subst hu
      rw [if_pos rfl, run_cons, run_nil]
      have hcontent := h.content
      rw [h.settles]
      cases he : answer (valueOf ad) with
      | settled contents =>
        rw [he] at hcontent
        simp [Event.isSettled, placeOf, Place.step, hcontent, h.pend, removeAdFromPendList]
      | cleared =>
        rw [he] at hcontent
        simp [Event.isSettled, placeOf, Place.step, hcontent, h.pend]
    · rw [if_neg hu, run_nil]
      cases flag <;>
        simp [placeOf, h.kept u hu, h.pend, removeAdFromPendList, List.count_erase_of_ne hu]
  · have hqueue : u ∈ queueOf t dspId := by
      cases flag <;> exact hu
    rcases h.deals dspId u hqueue with hold | ⟨rfl, hflag⟩
    · exact .inl hold
    · refine .inr ?_
      rw [h.settles] at hflag
      rw [hevents, if_pos rfl, eq_cleared hflag]
      exact List.mem_singleton_self _

/-- Step lemma: one ad. -/
lemma handleAd_answered (hfill : ∀ id value s s' flag, fillAd id value s = .ok (s', flag) →
      Filled left answer id value s s' flag) {ad : Val}
    (h : handleAd fillAd lib s ad = .ok s') : Answered left (sinaEvents answer [ad]) s s' := by
  obtain ⟨value, hvalue, h⟩ := bind_ok.mp h
  obtain ⟨n, hn, h⟩ := bind_ok.mp h
  split at h
  · next hne =>
    obtain ⟨id, hid, h⟩ := bind_ok.mp h
    obtain ⟨l, hl, h⟩ := bind_ok.mp h
    obtain ⟨⟨t, flag⟩, ht, h⟩ := bind_ok.mp h
    obtain ⟨_, -, h⟩ := bind_ok.mp h
    obtain ⟨_, -, h⟩ := bind_ok.mp h
    have hend := Except.ok.inj h
    obtain ⟨g, rfl⟩ := ipairs_ok.mp hl
    have hget : valueOf ad = l := by rw [valueOf, get_of_field hvalue]
    have hidOf : idOf ad = some id := by
      obtain ⟨v, hv, hid⟩ := bind_ok.mp hid
      split at hid
      · cases hid; rw [idOf, get_of_field hv]
      · cases hid
    rw [← hend]
    refine Filled.answered hidOf ?_ (hget ▸ hfill _ _ _ _ _ ht)
    rintro hnil
    cases hn
    simp [← hget, hnil] at hne
  · next hzero =>
    cases h
    have hnil : valueOf ad = [] := by
      rcases value with _ | value
      · cases hn
      · rw [valueOf, get_of_field hvalue]
        cases value with
        | table a g =>
          cases hn
          simpa using hzero
        | _ => rfl
    have hevents : ∀ u, sinaEvents answer [ad] u = [] := fun u => by simp [sinaEvents, hnil]
    exact ⟨fun u => by rw [hevents, run_nil], fun dspId u hu => .inl hu⟩

/-- **The answer of the Sina ad engine settles and clears the ad units it names**, one ad after
the other. -/
theorem handleQueryRsp_answered (hfill : ∀ id value s s' flag, fillAd id value s = .ok (s', flag) →
      Filled left answer id value s s' flag) {queryRsp : Rsp}
    (h : handleQueryRsp fillAd lib queryRsp s = .ok s') :
    Answered left (sinaEvents answer (adsOf lib queryRsp)) s s' := by
  have hnil : Answered left (sinaEvents answer []) s s := ⟨fun _ => rfl, fun _ _ hu => .inl hu⟩
  unfold handleQueryRsp at h
  unfold adsOf
  split at h
  · next hvalid =>
    rw [if_pos hvalid]
    split at h
    · next v hv =>
      obtain ⟨ads, hads, h⟩ := bind_ok.mp h
      obtain ⟨g, hg⟩ := ipairs_ok.mp hads
      cases hg
      rw [hv]
      refine foldlM_prefix (P := fun done t => Answered left (sinaEvents answer done) s t) (d := [])
        ?_ hnil h
      intro done ad t t' _ ht hstep
      have hone := handleAd_answered hfill hstep
      have hsnoc : ∀ u, sinaEvents answer (done ++ [ad]) u =
          sinaEvents answer done u ++ sinaEvents answer [ad] u := fun u => by
        rw [sinaEvents, List.filter_append, List.map_append]
        rfl
      refine ⟨fun u => ?_, fun dspId u hu => ?_⟩
      · rw [hsnoc, run_append, ← ht.place, hone.place]
      · rw [hsnoc, List.mem_append]
        rcases hone.deals dspId u hu with hu | hu
        · exact (ht.deals dspId u hu).imp_right .inl
        · exact .inr (.inr hu)
    · next e he =>
      cases h
      rw [he]
      exact hnil
  · next hvalid =>
    cases h
    rw [if_neg hvalid]
    exact hnil

end answer

section place

variable {left : Option (List Val) → List Val} {x : Exchange} {s s' : St}
  {adPendList : List Str} {adCreativeList : Creatives} {u v : Str} {contents : List Val}

lemma placeOf_settle (h : left (adCreativeList.get u) = contents) (l : List Val) (v : Str) :
    placeOf (removeAdFromPendList adPendList u) (adCreativeList.insert u (contents ++ l)) v =
      if u = v then (placeOf adPendList adCreativeList v).step left (.settled l)
      else placeOf adPendList adCreativeList v := by
  by_cases huv : u = v
  · subst huv
    simp [placeOf, Place.step, removeAdFromPendList, Tbl.get, ← h]
  · simp [placeOf, removeAdFromPendList, Tbl.get, AList.lookup_insert_ne (Ne.symm huv), huv,
      List.count_erase_of_ne (Ne.symm huv)]

/-- Step lemma: an auction settles its ad unit. -/
lemma round_place (hleft : ∀ t u, x.filled t u = left (t.get u))
    {e : Sigma fun _ : Str => List (Bid (List Ad))} (h : x.round s e = .ok s') :
    ∃ w, s'.winners = s.winners ++ [(e.1, w)] ∧ ∀ v,
      placeOf s'.adPendList s'.adCreativeList v =
        (placeOf s.adPendList s.adCreativeList v).run left (wonBy x [(e.1, w)] v) := by
  obtain ⟨w, contents, -, hcontents, hpend, hlist, hwinners⟩ := Slots.round_ok h
  refine ⟨w, hwinners, fun v => ?_⟩
  rw [hpend, hlist, ← removeAdFromPendList, placeOf_settle (hleft _ _).symm]
  by_cases huv : e.1 = v
  · subst huv
    simp [wonBy, hcontents, Except.toOption]
  · simp [wonBy, huv]

/-- **Run lemma**: the auctions settle the ad units of their winners. -/
lemma run_place (hleft : ∀ t u, x.filled t u = left (t.get u))
    {l : List (Sigma fun _ : Str => List (Bid (List Ad)))}
    (h : l.foldlM x.round ⟨adPendList, adCreativeList, []⟩ = .ok s) :
    s.winners.map Prod.fst = l.map Sigma.fst ∧ ∀ v,
      placeOf s.adPendList s.adCreativeList v =
        (placeOf adPendList adCreativeList v).run left (wonBy x s.winners v) := by
  refine foldlM_prefix (P := fun done (r : St) => r.winners.map Prod.fst = done.map Sigma.fst ∧
    ∀ v, placeOf r.adPendList r.adCreativeList v =
      (placeOf adPendList adCreativeList v).run left (wonBy x r.winners v)) (d := [])
    ?_ ⟨rfl, fun _ => rfl⟩ h
  rintro done e r r' - ⟨hkeys, hplace⟩ hround
  obtain ⟨w, hwinners, hstep⟩ := round_place hleft hround
  refine ⟨by rw [hwinners, List.map_append, List.map_append, hkeys]; rfl, fun v => ?_⟩
  rw [hstep, hplace, ← run_append, hwinners]
  simp only [wonBy, List.filter_append, List.map_append]

lemma length_filter_le_one {winners : List (Str × Win)} (h : (winners.map Prod.fst).Nodup)
    (u : Str) : (wonBy x winners u).length ≤ 1 := by
  have hcount := List.nodup_iff_count_le_one.mp h u
  rw [wonBy, List.length_map, ← List.countP_eq_length_filter]
  rw [List.count, List.countP_map] at hcount
  refine (Nat.le_of_eq (List.countP_congr fun e _ => ?_)).trans hcount
  rw [decide_eq_true_eq, Function.comp_apply, beq_iff_eq]

/-- **A phase settles the ad units of its winners**, each one the DSPs were asked for if they
answer with bids for what they were asked for. -/
theorem auctioned (hleft : ∀ t u, x.filled t u = left (t.get u)) {β : Type}
    {copy : Copy AdBid (List Ad)} {o : Order} {query : Tbl (List Str)} {rsp : Str → Rsp}
    {reqs : List (Str × β)} (hreqs : reqs.map Prod.fst = (o.pairs query).map Sigma.fst)
    {cmUrlList : List Str} {ex : Extracted (List Ad)}
    (hex : copy.extractAdBid (reqs.map fun r => rsp r.1) (reqs.map Prod.fst) cmUrlList = .ok ex)
    (hrun : (o.pairs ex.adBidList).foldlM x.round ⟨adPendList, adCreativeList, []⟩ = .ok s) :
    Auctioned left x copy query rsp s.winners (placeOf adPendList adCreativeList)
      (placeOf s.adPendList s.adCreativeList) := by
  obtain ⟨hkeys, hplace⟩ := run_place hleft hrun
  refine ⟨hplace, length_filter_le_one (hkeys ▸ o.pairs_nodup _), fun hasked u hwon => ?_⟩
  have hmem : u ∈ s.winners.map Prod.fst := by
    rw [wonBy, ne_eq, List.map_eq_nil_iff] at hwon
    obtain ⟨e, he⟩ := List.exists_mem_of_ne_nil _ hwon
    obtain ⟨he, hu⟩ := List.mem_filter.mp he
    exact List.mem_map.mpr ⟨e, he, of_decide_eq_true hu⟩
  rw [hkeys] at hmem
  obtain ⟨⟨_, bidInfo⟩, he, rfl⟩ := List.mem_map.mp hmem
  have hkeeps : copy.Keeps (reqs.map fun r => rsp r.1) (reqs.map Prod.fst) cmUrlList _ bidInfo :=
    ⟨ex, hex, o.mem_pairs.mp he⟩
  obtain ⟨hne, hentry⟩ := hkeeps.exists_entry
  obtain ⟨b, hb⟩ := List.exists_mem_of_ne_nil _ hne
  obtain ⟨p, hp, hid, -⟩ := hentry b hb
  rw [List.zip_map', Copy.accepted, List.mem_flatMap] at hp
  obtain ⟨q, hq, hp⟩ := hp
  obtain ⟨r, hr, rfl⟩ := List.mem_map.mp hq
  have hdsp : r.1 ∈ (o.pairs query).map Sigma.fst := hreqs ▸ List.mem_map_of_mem hr
  obtain ⟨⟨dspId, units⟩, hpair, rfl⟩ := List.mem_map.mp hdsp
  have hget := o.mem_pairs.mp hpair
  exact ⟨_, units, hget, hid ▸ hasked _ units hget p hp⟩

lemma auctioned_none {copy : Copy AdBid (List Ad)} {query : Tbl (List Str)} {rsp : Str → Rsp}
    (p : Str → Place Val) : Auctioned left x copy query rsp [] p p :=
  ⟨fun _ => rfl, fun _ => Nat.zero_le 1, fun _ _ h => absurd rfl h⟩

end place

/-! ### A whole request -/

/-- What the parties that settle ad units did to them. -/
structure Parties where
  sina : Str → List (Event Val)
  preDeal : Str → List (Event Val)
  openAuction : Str → List (Event Val)

def Parties.events (p : Parties) (u : Str) : List (Event Val) :=
  p.sina u ++ p.preDeal u ++ p.openAuction u

/-- What the parties leave of the ad units `valid`; `Fair` says that the DSPs answer with bids for
what they were asked for. -/
structure Exchanged (left : Option (List Val) → List Val) (valid : List Str) (p : Parties)
    (Fair : Prop) (after : Str → Place Val) : Prop where
  place : ∀ u, after u = Place.run left ⟨valid.count u, none⟩ (p.events u)
  preDeal : ∀ u, (p.preDeal u).length ≤ 1
  openAuction : ∀ u, (p.openAuction u).length ≤ 1
  dealt : Fair → ∀ u, p.preDeal u ≠ [] → .cleared ∈ p.sina u
  opened : Fair → ∀ u, p.openAuction u ≠ [] →
    0 < (Place.run left ⟨valid.count u, none⟩ (p.sina u ++ p.preDeal u)).pending

section exchanged

variable {left : Option (List Val) → List Val} {valid : List Str} {u : Str}

/-- The stages of a request, put together. -/
theorem exchanged {events : Str → List (Event Val)} {page : Page} {x x' : Exchange}
    {copy copy' : Copy AdBid (List Ad)} {pdBidList oaBidList : Tbl (List Str)}
    {rsp rsp' : Str → Rsp} {winners winners' : List (Str × Win)} {adPendList adPendList' : List Str}
    {adCreativeList adCreativeList' : Creatives}
    (hsina : Answered left events ⟨valid, ∅, ∅⟩ page)
    (hpdBidList : ∀ dspId units, pdBidList.get dspId = some units → queueOf page dspId = units)
    (hpd : Auctioned left x copy pdBidList rsp winners
      (placeOf page.adPendList page.adCreativeList) (placeOf adPendList adCreativeList))
    (hoaBidList : ∀ dspId units, oaBidList.get dspId = some units → ∀ u ∈ units, u ∈ adPendList)
    (hoa : Auctioned left x' copy' oaBidList rsp' winners' (placeOf adPendList adCreativeList)
      (placeOf adPendList' adCreativeList')) :
    Exchanged left valid ⟨events, wonBy x winners, wonBy x' winners'⟩
      (AnswersAsked copy pdBidList rsp ∧ AnswersAsked copy' oaBidList rsp')
      (placeOf adPendList' adCreativeList') := by
  have hstart : ∀ u, placeOf valid ∅ u = ⟨valid.count u, none⟩ := fun u => by
    simp [placeOf, Tbl.get]
  have hmid : ∀ u, placeOf adPendList adCreativeList u =
      Place.run left ⟨valid.count u, none⟩ (events u ++ wonBy x winners u) := fun u => by
    rw [hpd.place, hsina.place, hstart, ← run_append]
  refine ⟨fun u => ?_, hpd.once, hoa.once, fun hfair u hu => ?_, fun hfair u hu => ?_⟩
  · rw [hoa.place, hmid, ← run_append]
    rfl
  · obtain ⟨dspId, units, hget, hmem⟩ := hpd.asked hfair.1 u hu
    rw [← hpdBidList dspId units hget] at hmem
    exact (hsina.deals dspId u hmem).resolve_left (by simp [queueOf])
  · obtain ⟨dspId, units, hget, hmem⟩ := hoa.asked hfair.2 u hu
    change 0 < (Place.run left ⟨valid.count u, none⟩ (events u ++ wonBy x winners u)).pending
    rw [← hmid]
    exact List.count_pos_iff.mpr (hoaBidList dspId units hget u hmem)

/-- **An ad unit asked for once is served by one party at most**, whose contents it shows, if the
DSPs answer with bids for what they were asked for and the Sina ad engine names it once at
most. -/
theorem Exchanged.once {p : Parties} {Fair : Prop} {after : Str → Place Val}
    (h : Exchanged left valid p Fair after) (hleft : left none = []) (hfair : Fair)
    (hcount : valid.count u = 1) (hsina : (p.sina u).length ≤ 1) : Once (p.events u) (after u) := by
  rw [h.place, hcount]
  refine once_of_orderly hleft (orderly_append.mpr ⟨orderly_append.mpr ⟨?_, ?_⟩, ?_⟩)
  · exact orderly_of_length_le hsina fun _ => Nat.one_pos
  · refine orderly_of_length_le (h.preDeal u) fun hne => ?_
    -- the one ad that names the unit cleared it
    have hcleared := h.dealt hfair u hne
    have hone : p.sina u = [.cleared] := by
      match p.sina u, hsina, hcleared with
      | [e], _, hmem => rw [List.mem_singleton.mp hmem]
    rw [hone]
    exact Nat.one_pos
  · refine orderly_of_length_le (h.openAuction u) fun hne => ?_
    have hopen := h.opened hfair u hne
    rwa [hcount] at hopen

end exchanged

end Sax.Served
