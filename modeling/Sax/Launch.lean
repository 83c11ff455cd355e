import Sax.BidReq
import Sax.WinPrice

/-!
The bidding of the application exchange as a whole: `launch_rtb_for_dsp` of `saxmob/rtb/rtb.lua`.

The fields of a response are checked in a protected call, and so is every markup. What is done
outside these calls still reads what the DSPs and the dictionary hold: the parsed URL, a body that
may be missing, the floor of the unit a bid names, and the URLs of the creatives that win.
-/

namespace Sax.Launch

open Sax.LuaVal Sax.Loop Sax.Runtime Sax.SecondPrice Sax.Auction Sax.Extract Sax.SaxmobRtb
open Sax.WinPrice Sax.Cipher Sax.BidReq Sax.InetUrl
open Sax.Const (HTTP_OK)

/-! ### The responses -/

/-- An entry of the list `req_muti` returns. -/
structure HttpRsp where
  status : Option ℚ
  body : Option Str
  deriving DecidableEq

/-- How the client fares with a request. A response may have no status that can be read, or no
body that was received whole. -/
inductive Reply
  | unconnected (err : Str)
  | failed (err : Str)
  | answered (status : Option ℚ) (body : Option Str)
  | aborted (err : Str)

/-- `http.query`, and what becomes of a thread that raises. -/
def query : Reply → HttpRsp
  | .unconnected err => ⟨none, some err⟩
  | .failed err => ⟨none, some err⟩
  | .answered status body => ⟨status, body⟩
  | .aborted err => ⟨none, some err⟩

/-- `http.req_muti`: the threads are waited for in the order of the requests. `net i` is what the
thread of request `i` meets. -/
def req_muti (net : ℕ → Reply) (reqs : List Req) : List HttpRsp := reqs.mapIdx fun i _ => query (net i)

/-! ### The bidding -/

/-- The context of the extraction and of the auctions. -/
def win (c : BidReq.Ctx) : WinPrice.Ctx where
  lib := c.lib
  id := c.id
  adunit u := (c.dict.adunit u).map AdUnitInfo.min_price
  uuid := c.uuid
  ekey d := (c.dict.dsp d).map DspInfo.ekey
  ikey d := (c.dict.dsp d).map DspInfo.ikey

section source

variable (c : BidReq.Ctx)

/-- A value that is concatenated to a text. -/
def concatenated {α : Type} : Option α → Lua α
  | some a => .ok a
  | none => .error .badConcat

def is_valid_rsp (rsp : HttpRsp) : Bool := rsp.status = some (HTTP_OK : ℚ)

def get_bid_result (bid_rsp : HttpRsp) : Lua (List AdContent) :=
  match bid_rsp.body with
  | some body => SaxmobRtb.get_bid_result (win c).toCtx ⟨HTTP_OK, body⟩
  | none => .error .badArgument

/-- `bid_rsp.status or bid_rsp.body` is concatenated. -/
def log_dsp_fail (bid_rsp : HttpRsp) : Lua Unit :=
  if bid_rsp.status.isSome then .ok () else do
    let _body ← concatenated bid_rsp.body
    return ()

/-- The round of `extract_ad_bid` for one response. -/
def extract_rsp (ad_bid_list : Tbl (List (Bid Kept))) (dsp_id : Str) (bid_rsp : HttpRsp) :
    Lua (Tbl (List (Bid Kept))) :=
  if is_valid_rsp bid_rsp then
    match get_bid_result c bid_rsp with
    | .ok bid => bid.foldlM ((rtb (win c).toCtx).entry dsp_id) ad_bid_list
    | .error _ => do
      let _body ← concatenated bid_rsp.body
      return ad_bid_list
  else do
    log_dsp_fail bid_rsp
    return ad_bid_list

/-- Every way through the loop logs `dsp_bid_list[i]`. -/
def extract_ad_bid (bid_rsp_list : List HttpRsp) (dsp_bid_list : List Str) :
    Lua (Tbl (List (Bid Kept))) :=
  bid_rsp_list.zipIdx.foldlM (fun ad_bid_list e => do
    let dsp_id ← concatenated dsp_bid_list[e.2]?
    extract_rsp c ad_bid_list dsp_id e.1) ∅

def remove_ad_from_pend_list (ad_pend_list : List AdUnit) (adunit_id : Str) : List AdUnit :=
  ad_pend_list.eraseP fun adunit => adunit.id = adunit_id

/-- `ad_pend_list` and `ad_creative_list`, which the bidding changes. -/
structure State where
  ad_pend_list : List AdUnit
  ad_creative_list : Tbl Filled

/-- The round of `handle_bid_rsp` for one ad unit. -/
def handle_adunit (o : Order) (draw : Str → Draw) (s : State)
    (e : Sigma fun _ : Str => List (Bid Kept)) : Lua State := do
  let filled ← settle (win c) o (draw e.1) e.2 e.1
  return ⟨remove_ad_from_pend_list s.ad_pend_list e.1, s.ad_creative_list.insert e.1 filled⟩

def handle_bid_rsp (o : Order) (draw : Str → Draw) (bid_rsp_list : List HttpRsp)
    (ad_pend_list : List AdUnit) (dsp_bid_list : List Str) (ad_creative_list : Tbl Filled) :
    Lua State := do
  let ad_bid_list ← extract_ad_bid c bid_rsp_list dsp_bid_list
  (o.pairs ad_bid_list).foldlM (handle_adunit c o draw) ⟨ad_pend_list, ad_creative_list⟩

/-- `draw` gives the outcome of `math.random` in the auction on each unit. -/
def launch_rtb_for_dsp (o : Order) (draw : Str → Draw) (net : ℕ → Reply)
    (ad_pend_list : List AdUnit) (dsp_bid_list : List Str) (ad_creative_list : Tbl Filled) :
    Lua State := do
  let bid_req_list ← build_bid_req c ad_pend_list dsp_bid_list
  let bid_rsp_list := req_muti net bid_req_list
  handle_bid_rsp c o draw bid_rsp_list ad_pend_list dsp_bid_list ad_creative_list

end source

/-! ### Extracting from the responses -/

section extract

variable {c : BidReq.Ctx} {t t' : Tbl (List (Bid Kept))} {dsp_id u : Str} {rsp : HttpRsp}
  {bid_rsp_list : List HttpRsp} {dsp_bid_list : List Str}

/-- There is something to log: a body, or else a status other than `200`. -/
def Loggable (rsp : HttpRsp) : Prop :=
  rsp.body.isSome ∨ ∃ s, rsp.status = some s ∧ s ≠ (HTTP_OK : ℚ)

/-- The response as the extraction of the bids takes it, where only one with status `200` and a
body counts. -/
def plain (rsp : HttpRsp) : Rsp :=
  match rsp.body with
  | some body => ⟨if is_valid_rsp rsp then HTTP_OK else 0, body⟩
  | none => ⟨0, []⟩

/-- The entries of a response whose fields are right. -/
def offers (c : BidReq.Ctx) (p : Str × HttpRsp) : List (Str × AdContent) :=
  (rtb (win c).toCtx).entries (p.1, plain p.2)

lemma entries_of_status {p : Str × Rsp} (h : p.2.status = 0) :
    (rtb (win c).toCtx).entries p = [] := by
  rw [Copy.entries, if_neg (by rw [h]; decide)]

lemma offers_of_error {e : LuaError} (h : get_bid_result c rsp = .error e) :
    offers c (dsp_id, rsp) = [] := by
  unfold get_bid_result at h
  unfold offers plain
  cases hbody : rsp.body with
  | none => exact entries_of_status rfl
  | some body =>
    rw [hbody] at h
    dsimp only at h ⊢
    cases hvalid : is_valid_rsp rsp with
    | false => exact entries_of_status rfl
    | true =>
      rw [if_pos rfl, Copy.entries, if_pos rfl]
      simp only [rtb, h]
      rfl

lemma offers_of_invalid (h : is_valid_rsp rsp = false) : offers c (dsp_id, rsp) = [] := by
  unfold offers plain
  rw [h]
  cases rsp.body with
  | none => exact entries_of_status rfl
  | some body => exact entries_of_status rfl

lemma offers_of_ok {bid : List AdContent} (hvalid : is_valid_rsp rsp = true)
    (h : get_bid_result c rsp = .ok bid) : offers c (dsp_id, rsp) = bid.map (dsp_id, ·) := by
  unfold get_bid_result at h
  unfold offers plain
  cases hbody : rsp.body with
  | none =>
    rw [hbody] at h
    cases h
  | some body =>
    rw [hbody] at h
    dsimp only at h ⊢
    rw [if_pos hvalid, Copy.entries, if_pos rfl]
    simp only [rtb, h]
    rfl

/-- One response: it can be logged, and its entries are collected. -/
lemma extract_rsp_ok : extract_rsp c t dsp_id rsp = .ok t' ↔
    Loggable rsp ∧ (rtb (win c).toCtx).collect t (offers c (dsp_id, rsp)) = .ok t' := by
  unfold extract_rsp
  cases hvalid : is_valid_rsp rsp with
  | false =>
    have hstatus : rsp.status ≠ some (HTTP_OK : ℚ) := of_decide_eq_false hvalid
    rw [offers_of_invalid hvalid, if_neg Bool.false_ne_true, log_dsp_fail, Loggable]
    cases hs : rsp.status with
    | some s =>
      have hs' : s ≠ (HTTP_OK : ℚ) := fun h => hstatus (h ▸ hs)
      simp [Copy.collect, hs']
    | none => cases rsp.body <;> simp [Copy.collect, concatenated]
  | true =>
    have hstatus : rsp.status = some (HTTP_OK : ℚ) := of_decide_eq_true hvalid
    rw [if_pos rfl]
    cases hresult : get_bid_result c rsp with
    | ok bid =>
      have hbody : rsp.body.isSome := by
        unfold get_bid_result at hresult
        cases hb : rsp.body with
        | none =>
          rw [hb] at hresult
          cases hresult
        | some body => rfl
      rw [offers_of_ok hvalid hresult, Copy.collect, List.foldlM_map]
      exact ⟨fun h => ⟨.inl hbody, h⟩, And.right⟩
    | error e =>
      rw [offers_of_error hresult, Loggable, hstatus]
      cases rsp.body <;> simp [Copy.collect, concatenated]

lemma foldlM_rounds {pre ds : List Str} {rsps : List HttpRsp} (hlength : ds.length = rsps.length) :
    (rsps.zipIdx pre.length).foldlM (fun t e => do
        let dsp_id ← concatenated (pre ++ ds)[e.2]?
        extract_rsp c t dsp_id e.1) t =
      (ds.zip rsps).foldlM (fun t p => extract_rsp c t p.1 p.2) t := by
  induction rsps generalizing pre ds t with
  | nil => simp
  | cons rsp rsps ih =>
    cases ds with
    | nil => cases hlength
    | cons d ds =>
      have hget : (pre ++ d :: ds)[pre.length]? = some d := by simp
      have happ : pre ++ d :: ds = (pre ++ [d]) ++ ds := by simp
      have hd : concatenated (some d) = .ok d := rfl
      have ih' := fun t => @ih t (pre ++ [d]) ds (Nat.succ.inj hlength)
      rw [← happ, List.length_append, List.length_singleton] at ih'
      rw [List.zipIdx_cons, List.foldlM_cons, List.zip_cons_cons, List.foldlM_cons, hget, hd, ok_bind]
      exact congrArg _ (funext ih')

/-- The entries of all responses, with the DSP each response is taken for. -/
def allOffers (c : BidReq.Ctx) (dsp_bid_list : List Str) (bid_rsp_list : List HttpRsp) :
    List (Str × AdContent) :=
  (dsp_bid_list.zip bid_rsp_list).flatMap (offers c)

lemma extract_run_ok {l : List (Str × HttpRsp)} :
    l.foldlM (fun t p => extract_rsp c t p.1 p.2) t = .ok t' ↔
      (∀ p ∈ l, Loggable p.2) ∧ (rtb (win c).toCtx).collect t (l.flatMap (offers c)) = .ok t' := by
  induction l generalizing t with
  | nil => simp [Copy.collect]
  | cons p l ih =>
    rw [foldlM_cons_ok, List.forall_mem_cons, List.flatMap_cons, Copy.collect, List.foldlM_append,
      bind_ok]
    constructor
    · rintro ⟨m, hm, hrest⟩
      obtain ⟨hlog, hcollect⟩ := extract_rsp_ok.mp hm
      obtain ⟨hlogs, hrest⟩ := ih.mp hrest
      exact ⟨⟨hlog, hlogs⟩, m, hcollect, hrest⟩
    · rintro ⟨⟨hlog, hlogs⟩, m, hcollect, hrest⟩
      exact ⟨m, extract_rsp_ok.mpr ⟨hlog, hcollect⟩, ih.mpr ⟨hlogs, hrest⟩⟩

/-- **The extraction goes through exactly when every response can be logged and every entry names a
unit with a floor.** -/
theorem extract_ad_bid_ok (hlength : dsp_bid_list.length = bid_rsp_list.length) :
    extract_ad_bid c bid_rsp_list dsp_bid_list = .ok t ↔
      (∀ rsp ∈ bid_rsp_list, Loggable rsp) ∧
        (rtb (win c).toCtx).collect ∅ (allOffers c dsp_bid_list bid_rsp_list) = .ok t := by
  have hzip : extract_ad_bid c bid_rsp_list dsp_bid_list =
      (dsp_bid_list.zip bid_rsp_list).foldlM (fun t p => extract_rsp c t p.1 p.2) ∅ :=
    @foldlM_rounds c ∅ [] dsp_bid_list bid_rsp_list hlength
  have hmem : (∀ p ∈ dsp_bid_list.zip bid_rsp_list, Loggable p.2) ↔
      ∀ rsp ∈ bid_rsp_list, Loggable rsp := by
    have hmap : (dsp_bid_list.zip bid_rsp_list).map Prod.snd = bid_rsp_list :=
      List.map_snd_zip hlength.ge
    conv_rhs => rw [← hmap]
    exact List.forall_mem_map.symm
  rw [hzip, extract_run_ok, hmem]
  rfl

/-- Every bid comes from the response that is taken for its DSP. -/
lemma mem_allOffers {e : Str × AdContent} :
    e ∈ allOffers c dsp_bid_list bid_rsp_list ↔
      ∃ (i : ℕ) (d : Str) (rsp : HttpRsp), dsp_bid_list[i]? = some d ∧
        bid_rsp_list[i]? = some rsp ∧ e ∈ offers c (d, rsp) := by
  unfold allOffers
  rw [List.mem_flatMap]
  constructor
  · rintro ⟨⟨d, rsp⟩, hmem, he⟩
    obtain ⟨i, hi⟩ := List.mem_iff_getElem?.mp hmem
    rw [List.getElem?_zip_eq_some] at hi
    exact ⟨i, d, rsp, hi.1, hi.2, he⟩
  · rintro ⟨i, d, rsp, hd, hrsp, he⟩
    exact ⟨(d, rsp), List.mem_iff_getElem?.mpr ⟨i, List.getElem?_zip_eq_some.mpr ⟨hd, hrsp⟩⟩, he⟩

end extract

/-! ### Settling the units -/

section settle

variable {c : WinPrice.Ctx} {o : Order} {draw : Draw} {bid_info : List (Bid Kept)} {u : Str} {p : ℚ}

/-- The bid has creatives of the right shape, of a DSP with keys. -/
structure Sound (c : WinPrice.Ctx) (b : Bid Kept) : Prop where
  ekey : (c.ekey b.dsp_id).isSome
  ikey : (c.ikey b.dsp_id).isSome
  length_eq : b.creative.creative_id.length = b.creative.ad.length
  markup : ∀ ad ∈ b.creative.ad, Markup ad

/-- Once it wins, the creatives of the bid can be altered. -/
def Fillable (b : Bid Kept) : Prop := ∀ ad ∈ b.creative.ad, Alterable b.dsp_id ad

lemma settle_of_winner (hlib : HmacLength c.lib) {b : Bid Kept} (hb : Sound c b)
    (hwin : select_winner c.toCtx o draw bid_info u = .ok ⟨b.dsp_id, some p, b.creative⟩) :
    (∃ filled, settle c o draw bid_info u = .ok filled) ↔ Fillable b := by
  obtain ⟨e_key, he⟩ := Option.isSome_iff_exists.mp hb.ekey
  obtain ⟨i_key, hi⟩ := Option.isSome_iff_exists.mp hb.ikey
  obtain ⟨msg, hmsg⟩ : ∃ msg, encrypt_price c.lib c.uuid e_key i_key p = .ok msg := encrypt_isOk hlib
  have halter : (∃ ads, alterAds c o u b.dsp_id p (Uri.escape_uri msg) b.creative.ad
      b.creative.creative_id = .ok ads) ↔ Fillable b := alterAds_isOk hb.length_eq hb.markup
  rw [← halter]
  constructor
  · rintro ⟨filled, h⟩
    obtain ⟨ads, hads, -⟩ := (settle_ok hwin rfl he hi hmsg).mp h
    exact ⟨ads, hads⟩
  · rintro ⟨ads, hads⟩
    exact ⟨_, (settle_ok hwin rfl he hi hmsg).mpr ⟨ads, hads, rfl⟩⟩

/-- The winner is a bid, at some price. -/
lemma winner_of_outcome {b : Bid Kept} (hfloor : get_min_price c.toCtx u = .ok (some p))
    (h : Outcome (get_min_price c.toCtx u) bid_info b (select_winner c.toCtx o draw bid_info u)) :
    ∃ q, select_winner c.toCtx o draw bid_info u = .ok ⟨b.dsp_id, some q, b.creative⟩ := by
  rw [hfloor] at h
  rcases h with ⟨-, hr⟩ | ⟨s, -, hr⟩
  · exact ⟨p, hr⟩
  · exact ⟨_, hr⟩

/-- **A unit is settled whatever the draw exactly when each of its highest bids is fillable.** -/
theorem settle_isOk (hlib : HmacLength c.lib) (hne : bid_info ≠ [])
    (hfloor : get_min_price c.toCtx u = .ok (some p)) (hsound : ∀ b ∈ bid_info, Sound c b) :
    (∀ draw, ∃ filled, settle c o draw bid_info u = .ok filled) ↔
      ∀ b, IsTop Bid.max_cpm_price bid_info b → Fillable b := by
  constructor
  · intro h b hb
    obtain ⟨draw, houtcome⟩ := auction_reaches o (get_min_price c.toCtx u) hb
    obtain ⟨q, hq⟩ := winner_of_outcome hfloor houtcome
    exact (settle_of_winner hlib (hsound b hb.1) hq).mp (h draw)
  · intro h draw
    obtain ⟨b, hb, houtcome⟩ := auction_spec o draw (get_min_price c.toCtx u) hne
    obtain ⟨q, hq⟩ := winner_of_outcome hfloor houtcome
    exact (settle_of_winner hlib (hsound b hb.1) hq).mpr (h b hb)

end settle

/-! ### The bidding goes through -/

section launch

variable {c : BidReq.Ctx} {net : ℕ → Reply} {ad_pend_list : List AdUnit} {dsp_bid_list : List Str}
  {ad_creative_list : Tbl Filled}

/-- The responses to a list of requests, of which there are as many. -/
lemma length_req_muti (reqs : List Req) : (req_muti net reqs).length = reqs.length :=
  List.length_mapIdx

lemma handle_isOk {o : Order} {bid_rsp_list : List HttpRsp} {t : Tbl (List (Bid Kept))}
    (ht : extract_ad_bid c bid_rsp_list dsp_bid_list = .ok t) {draw : Str → Draw} :
    (∃ s, handle_bid_rsp c o draw bid_rsp_list ad_pend_list dsp_bid_list ad_creative_list = .ok s) ↔
      ∀ u bid_info, t.get u = some bid_info →
        ∃ filled, settle (win c) o (draw u) bid_info u = .ok filled := by
  have hstep : ∀ (s : State) (e : Sigma fun _ : Str => List (Bid Kept)),
      (∃ s', handle_adunit c o draw s e = .ok s') ↔
        ∃ filled, settle (win c) o (draw e.1) e.2 e.1 = .ok filled := by
    intro s e
    unfold handle_adunit
    constructor
    · rintro ⟨s', h⟩
      obtain ⟨filled, hfilled, -⟩ := bind_ok.mp h
      exact ⟨filled, hfilled⟩
    · rintro ⟨filled, hfilled⟩
      exact ⟨_, bind_ok.mpr ⟨filled, hfilled, rfl⟩⟩
  unfold handle_bid_rsp
  rw [ht, ok_bind, foldlM_ok_iff (P := fun _ => True) (fun s e _ _ => hstep s e)
    (fun _ _ _ _ _ _ => trivial) trivial]
  constructor
  · exact fun h u bid_info hu => h ⟨u, bid_info⟩ ((o.mem_pairs).mpr hu)
  · exact fun h e he => h e.1 e.2 ((o.mem_pairs).mp he)

/-- The bid is one for unit `u` that response `i` holds, when it is taken for DSP `d`. -/
def Holds (c : BidReq.Ctx) (net : ℕ → Reply) (i : ℕ) (d u : Str) (b : Bid Kept) : Prop :=
  ∃ e ∈ offers c (d, query (net i)), e.2.id = u ∧ keep (win c).toCtx d e.2 = .ok (some b)

/-- The bidding raises no error, asks every DSP whose URL can be taken apart, and files the bids of
each response under the DSP its request was addressed to. -/
structure Isolated (c : BidReq.Ctx) (net : ℕ → Reply) (ad_pend_list : List AdUnit)
    (dsp_bid_list : List Str) (ad_creative_list : Tbl Filled) : Prop where
  no_error : ∀ o draw, ∃ s,
    launch_rtb_for_dsp c o draw net ad_pend_list dsp_bid_list ad_creative_list = .ok s
  sent : ∀ d ∈ dsp_bid_list, (∃ url, Parses c d url) →
    ∃ reqs, build_bid_req c ad_pend_list dsp_bid_list = .ok reqs ∧ ∃ req ∈ reqs, Addressed c d req
  attributed : ∀ reqs t, build_bid_req c ad_pend_list dsp_bid_list = .ok reqs →
    extract_ad_bid c (req_muti net reqs) dsp_bid_list = .ok t → ∀ u b,
      b ∈ (t.get u).getD [] ↔ ∃ (i : ℕ) (req : Req), reqs[i]? = some req ∧
        dsp_bid_list[i]? = some b.dsp_id ∧ Addressed c b.dsp_id req ∧ Holds c net i b.dsp_id u b

/-- What the DSPs and the dictionary must not bring. -/
structure Harmless (c : BidReq.Ctx) (net : ℕ → Reply) (ad_pend_list : List AdUnit)
    (dsp_bid_list : List Str) : Prop where
  body : Describable c ad_pend_list
  numbers : Printable c ad_pend_list
  urls : ∀ d ∈ dsp_bid_list, ∃ url, Parses c d url
  logs : ∀ i < dsp_bid_list.length, Loggable (query (net i))
  floors : ∀ (i : ℕ) d, dsp_bid_list[i]? = some d → ∀ e ∈ offers c (d, query (net i)),
    ∃ p, get_min_price (win c).toCtx e.2.id = .ok (some p)
  texts : ∀ (i : ℕ) d u b, dsp_bid_list[i]? = some d → Holds c net i d u b →
    (∀ (j : ℕ) d' b', dsp_bid_list[j]? = some d' → Holds c net j d' u b' →
      b'.max_cpm_price ≤ b.max_cpm_price) → Fillable b

lemma keep_dsp {c : SaxmobRtb.Ctx} {d : Str} {e : AdContent} {b : Bid Kept}
    (h : keep c d e = .ok (some b)) : b.dsp_id = d := by
  obtain ⟨_, _, -, -, -, rfl⟩ := keep_some h
  rfl

lemma Holds.dsp_eq {i : ℕ} {d u : Str} {b : Bid Kept} (h : Holds c net i d u b) : b.dsp_id = d := by
  obtain ⟨e, -, -, hkeep⟩ := h
  exact keep_dsp hkeep

lemma passes_iff {c : SaxmobRtb.Ctx} {e : Str × AdContent} :
    (rtb c).Passes e ↔ ∃ p, get_min_price c e.2.id = .ok (some p) := by
  have hkeep : (∃ kept, keep c e.1 e.2 = .ok kept) ↔ ∃ p, get_min_price c e.2.id = .ok (some p) := by
    constructor
    · rintro ⟨kept, h⟩
      obtain ⟨floor, hfloor, h⟩ := bind_ok.mp h
      cases floor with
      | none => cases h
      | some f => exact ⟨f, hfloor⟩
    · rintro ⟨p, hp⟩
      unfold keep
      rw [hp, ok_bind]
      exact ⟨_, rfl⟩
  rw [← hkeep]
  exact and_iff_left rfl

lemma getElem?_req_muti {reqs : List Req} {i : ℕ} {rsp : HttpRsp} :
    (req_muti net reqs)[i]? = some rsp ↔ i < reqs.length ∧ query (net i) = rsp := by
  rw [req_muti, List.getElem?_mapIdx]
  by_cases hi : i < reqs.length
  · rw [List.getElem?_eq_getElem hi]
    simp [hi]
  · rw [List.getElem?_eq_none (not_lt.mp hi)]
    simp [hi]

/-- The offers of the responses to as many requests as there are DSPs. -/
lemma mem_offers_iff {reqs : List Req} (hlength : dsp_bid_list.length = reqs.length)
    {e : Str × AdContent} :
    e ∈ allOffers c dsp_bid_list (req_muti net reqs) ↔
      ∃ (i : ℕ) (d : Str), dsp_bid_list[i]? = some d ∧ e ∈ offers c (d, query (net i)) := by
  rw [mem_allOffers]
  constructor
  · rintro ⟨i, d, rsp, hd, hrsp, he⟩
    obtain ⟨-, rfl⟩ := getElem?_req_muti.mp hrsp
    exact ⟨i, d, hd, he⟩
  · rintro ⟨i, d, hd, he⟩
    have hi := (List.getElem?_eq_some_iff.mp hd).1
    exact ⟨i, d, _, hd, getElem?_req_muti.mpr ⟨hlength ▸ hi, rfl⟩, he⟩

/-- The bids on a unit are those the responses hold. -/
lemma mem_bids_iff {reqs : List Req} (hlength : dsp_bid_list.length = reqs.length) {u : Str}
    {b : Bid Kept} :
    b ∈ (rtb (win c).toCtx).bids u (allOffers c dsp_bid_list (req_muti net reqs)) ↔
      ∃ (i : ℕ) (d : Str), dsp_bid_list[i]? = some d ∧ Holds c net i d u b := by
  rw [Copy.mem_bids]
  constructor
  · rintro ⟨e, he, hu, hkeep⟩
    obtain ⟨i, d, hd, he⟩ := (mem_offers_iff hlength).mp he
    have hfst : e.1 = d := Copy.mem_entries he
    exact ⟨i, d, hd, e, he, hu, hfst ▸ hkeep⟩
  · rintro ⟨i, d, hd, e, he, hu, hkeep⟩
    have hfst : e.1 = d := Copy.mem_entries he
    exact ⟨e, (mem_offers_iff hlength).mpr ⟨i, d, hd, he⟩, hu, hfst.symm ▸ hkeep⟩

lemma extract_isOk {reqs : List Req} (hlength : dsp_bid_list.length = reqs.length) :
    (∃ t, extract_ad_bid c (req_muti net reqs) dsp_bid_list = .ok t) ↔
      (∀ i < dsp_bid_list.length, Loggable (query (net i))) ∧
        ∀ (i : ℕ) d, dsp_bid_list[i]? = some d → ∀ e ∈ offers c (d, query (net i)),
          ∃ p, get_min_price (win c).toCtx e.2.id = .ok (some p) := by
  have hlogs : (∀ rsp ∈ req_muti net reqs, Loggable rsp) ↔
      ∀ i < dsp_bid_list.length, Loggable (query (net i)) := by
    constructor
    · exact fun h i hi => h _ (List.mem_iff_getElem?.mpr
        ⟨i, getElem?_req_muti.mpr ⟨hlength ▸ hi, rfl⟩⟩)
    · intro h rsp hrsp
      obtain ⟨i, hget⟩ := List.mem_iff_getElem?.mp hrsp
      obtain ⟨hi, rfl⟩ := getElem?_req_muti.mp hget
      exact h i (hlength ▸ hi)
  simp only [extract_ad_bid_ok (hlength.trans (length_req_muti reqs).symm), hlogs,
    exists_and_left, Copy.collect_isOk, passes_iff, mem_offers_iff hlength]
  refine and_congr_right fun _ => ?_
  exact ⟨fun h i d hd e he => h e ⟨i, d, hd, he⟩, fun h e ⟨i, d, hd, he⟩ => h i d hd e he⟩

/-- The bids filed under a unit. -/
lemma filed_iff {reqs : List Req} (hlength : dsp_bid_list.length = reqs.length)
    {t : Tbl (List (Bid Kept))} (ht : extract_ad_bid c (req_muti net reqs) dsp_bid_list = .ok t)
    {u : Str} {b : Bid Kept} :
    b ∈ (t.get u).getD [] ↔ ∃ i : ℕ, dsp_bid_list[i]? = some b.dsp_id ∧ Holds c net i b.dsp_id u b := by
  obtain ⟨-, hcollect⟩ := (extract_ad_bid_ok (hlength.trans (length_req_muti reqs).symm)).mp ht
  rw [((Copy.collect_holds Copy.holds_nil hcollect) u).1, List.nil_append, mem_bids_iff hlength]
  constructor
  · rintro ⟨i, d, hd, hb⟩
    have hdsp := hb.dsp_eq
    subst hdsp
    exact ⟨i, hd, hb⟩
  · rintro ⟨i, hd, hb⟩
    exact ⟨i, _, hd, hb⟩

/-- **Positions match**: the bids filed under a unit are those the responses hold, each under the
DSP that its request was addressed to. -/
theorem filed_addressed {reqs : List Req} {t : Tbl (List (Bid Kept))}
    (hreqs : build_bid_req c ad_pend_list dsp_bid_list = .ok reqs)
    (ht : extract_ad_bid c (req_muti net reqs) dsp_bid_list = .ok t) (u : Str) (b : Bid Kept) :
    b ∈ (t.get u).getD [] ↔ ∃ (i : ℕ) (req : Req), reqs[i]? = some req ∧
      dsp_bid_list[i]? = some b.dsp_id ∧ Addressed c b.dsp_id req ∧ Holds c net i b.dsp_id u b := by
  have hforall := build_bid_req_ok hreqs
  rw [filed_iff hforall.length_eq ht]
  constructor
  · rintro ⟨i, hi, hb⟩
    obtain ⟨req, hreq, haddr⟩ := forall₂_getElem? hforall hi
    exact ⟨i, req, hreq, hi, haddr, hb⟩
  · rintro ⟨i, req, -, hi, -, hb⟩
    exact ⟨i, hi, hb⟩

/-- A bid that was kept is sound, for a DSP the request was built for. -/
lemma sound_of_holds {i : ℕ} {d u : Str} {b : Bid Kept} (hurl : ∃ url, Parses c d url)
    (hb : Holds c net i d u b) : Sound (win c) b := by
  obtain ⟨e, -, -, hkeep⟩ := hb
  obtain ⟨-, hlength, hmarkup⟩ := keep_spec (p := (d, e.2)) hkeep
  obtain ⟨url, info, hinfo, -⟩ := hurl
  have hdsp : c.dict.dsp b.dsp_id = some info := keep_dsp hkeep ▸ hinfo
  refine ⟨?_, ?_, hlength, hmarkup⟩
  · simp [win, hdsp]
  · simp [win, hdsp]

/-- A unit with bids is settled for every draw when its highest bids are fillable. -/
lemma unit_settles_iff (hlib : HmacLength c.lib) {reqs : List Req}
    (hlength : dsp_bid_list.length = reqs.length) (hurls : ∀ d ∈ dsp_bid_list, ∃ url, Parses c d url)
    {t : Tbl (List (Bid Kept))} (ht : extract_ad_bid c (req_muti net reqs) dsp_bid_list = .ok t)
    (o : Order) {u : Str} {bid_info : List (Bid Kept)} (hu : t.get u = some bid_info) :
    (∀ draw, ∃ filled, settle (win c) o draw bid_info u = .ok filled) ↔
      ∀ b, IsTop Bid.max_cpm_price bid_info b → Fillable b := by
  obtain ⟨-, hfloors⟩ := (extract_isOk hlength).mp ⟨t, ht⟩
  have hnil : bid_info ≠ [] := by
    obtain ⟨-, hcollect⟩ := (extract_ad_bid_ok (hlength.trans (length_req_muti reqs).symm)).mp ht
    exact fun h => ((Copy.collect_holds Copy.holds_nil hcollect) u).2 (h ▸ hu)
  have hmem : ∀ b ∈ bid_info, ∃ i : ℕ, dsp_bid_list[i]? = some b.dsp_id ∧
      Holds c net i b.dsp_id u b := by
    intro b hb
    refine (filed_iff hlength ht).mp ?_
    rw [hu]
    exact hb
  obtain ⟨b, hb⟩ := List.exists_mem_of_ne_nil _ hnil
  obtain ⟨i, hi, e, he, rfl, -⟩ := hmem b hb
  obtain ⟨p, hp⟩ := hfloors i _ hi e he
  refine settle_isOk hlib hnil hp fun b hb => ?_
  obtain ⟨i, hi, hholds⟩ := hmem b hb
  exact sound_of_holds (hurls _ (List.mem_of_getElem? hi)) hholds

/-- Once the requests are sent and the bids filed, what is left to go wrong is in the creatives of
the highest bids. -/
lemma settles_iff (hlib : HmacLength c.lib) {reqs : List Req}
    (hlength : dsp_bid_list.length = reqs.length) (hurls : ∀ d ∈ dsp_bid_list, ∃ url, Parses c d url)
    {t : Tbl (List (Bid Kept))} (ht : extract_ad_bid c (req_muti net reqs) dsp_bid_list = .ok t)
    (o : Order) :
    (∀ draw u bid_info, t.get u = some bid_info →
        ∃ filled, settle (win c) o (draw : Draw) bid_info u = .ok filled) ↔
      ∀ (i : ℕ) d u b, dsp_bid_list[i]? = some d → Holds c net i d u b →
        (∀ (j : ℕ) d' b', dsp_bid_list[j]? = some d' → Holds c net j d' u b' →
          b'.max_cpm_price ≤ b.max_cpm_price) → Fillable b := by
  have hfiled := fun u b => filed_iff (c := c) (u := u) (b := b) hlength ht
  have hunit := fun u bid_info (hu : t.get u = some bid_info) =>
    unit_settles_iff hlib hlength hurls ht o hu
  have hall : (∀ draw u bid_info, t.get u = some bid_info →
        ∃ filled, settle (win c) o (draw : Draw) bid_info u = .ok filled) ↔
      ∀ u bid_info, t.get u = some bid_info → ∀ b, IsTop Bid.max_cpm_price bid_info b → Fillable b :=
    ⟨fun h u bid_info hu => (hunit u bid_info hu).mp fun draw => h draw u bid_info hu,
      fun h draw u bid_info hu => (hunit u bid_info hu).mpr (h u bid_info hu) draw⟩
  rw [hall]
  constructor
  · intro h i d u b hd hb htop
    have hdsp := hb.dsp_eq
    subst hdsp
    have hmem := (hfiled u b).mpr ⟨i, hd, hb⟩
    cases hu : t.get u with
    | none =>
      rw [hu] at hmem
      cases hmem
    | some bid_info =>
      rw [hu] at hmem
      refine h u bid_info hu b ⟨hmem, fun b' hb' => ?_⟩
      have hb'' : b' ∈ (t.get u).getD [] := by
        rw [hu]
        exact hb'
      obtain ⟨j, hj, hholds⟩ := (hfiled u b').mp hb''
      exact htop j _ b' hj hholds
  · intro h u bid_info hu b hb
    have hget : ∀ b, b ∈ bid_info ↔ ∃ i : ℕ, dsp_bid_list[i]? = some b.dsp_id ∧
        Holds c net i b.dsp_id u b := by
      intro b
      rw [← hfiled u b, hu]
      rfl
    obtain ⟨i, hi, hholds⟩ := (hget b).mp hb.1
    refine h i _ u b hi hholds fun j d' b' hd' hb' => ?_
    have hdsp := hb'.dsp_eq
    subst hdsp
    exact hb.2 b' ((hget b').mpr ⟨j, hd', hb'⟩)

/-- **A bidding is isolated exactly when the DSPs and the dictionary bring nothing harmful**:
whatever the draws and the orders, no error is raised, every DSP is asked, and each response is
filed under its DSP. -/
theorem isolated_iff (hlib : HmacLength c.lib) :
    Isolated c net ad_pend_list dsp_bid_list ad_creative_list ↔
      Harmless c net ad_pend_list dsp_bid_list := by
  constructor
  · intro h
    have hparts : ∀ o draw, ∃ reqs t, build_bid_req c ad_pend_list dsp_bid_list = .ok reqs ∧
        extract_ad_bid c (req_muti net reqs) dsp_bid_list = .ok t ∧
          ∃ s, handle_bid_rsp c o draw (req_muti net reqs) ad_pend_list dsp_bid_list
            ad_creative_list = .ok s := by
      intro o draw
      obtain ⟨s, hs⟩ := h.no_error o draw
      obtain ⟨reqs, hreqs, hs⟩ := bind_ok.mp hs
      obtain ⟨t, ht, -⟩ := bind_ok.mp hs
      exact ⟨reqs, t, hreqs, ht, s, hs⟩
    obtain ⟨reqs, t, hreqs, ht, -⟩ := hparts .plain fun _ => .least
    have hlength := (build_bid_req_ok hreqs).length_eq
    obtain ⟨hbody, hnumbers, hurls⟩ := build_bid_req_isOk.mp ⟨reqs, hreqs⟩
    obtain ⟨hlogs, hfloors⟩ := (extract_isOk hlength).mp ⟨t, ht⟩
    refine ⟨hbody, hnumbers, hurls, hlogs, hfloors, (settles_iff hlib hlength hurls ht .plain).mp ?_⟩
    intro draw u bid_info hu
    obtain ⟨reqs', t', hreqs', ht', s, hs⟩ := hparts .plain fun _ => draw
    rw [hreqs] at hreqs'
    cases hreqs'
    exact (handle_isOk ht).mp ⟨s, hs⟩ u bid_info hu
  · intro h
    obtain ⟨reqs, hreqs⟩ := build_bid_req_isOk.mpr ⟨h.body, h.numbers, h.urls⟩
    have hforall := build_bid_req_ok hreqs
    have hlength := hforall.length_eq
    obtain ⟨t, ht⟩ := (extract_isOk hlength).mpr ⟨h.logs, h.floors⟩
    refine ⟨fun o draw => ?_, fun d hd _ => ⟨reqs, hreqs, ?_⟩, fun _ _ => filed_addressed⟩
    · have hsettle := (settles_iff hlib hlength h.urls ht o).mpr h.texts
      have hok : ∃ s, handle_bid_rsp c o draw (req_muti net reqs) ad_pend_list dsp_bid_list
          ad_creative_list = .ok s :=
        (handle_isOk ht).mpr fun u bid_info hu => hsettle (draw u) u bid_info hu
      obtain ⟨s, hs⟩ := hok
      exact ⟨s, bind_ok.mpr ⟨reqs, hreqs, hs⟩⟩
    · obtain ⟨i, hi⟩ := List.mem_iff_getElem?.mp hd
      obtain ⟨req, hreq, haddr⟩ := forall₂_getElem? hforall hi
      exact ⟨req, List.mem_of_getElem? hreq, haddr⟩

end launch

section samples

open Sax.Clearing (appText)

/-- A unit `U` with floor 2, a DSP `2`, and a DSP `3` whose URL has no port after the colon. -/
def sampleDict : BidReq.Dict where
  adunit u := if u = lit "U" then
    some ⟨1, lit "banner", 1, [], [], some 2, lit "s"⟩ else none
  dsp d := if d = lit "2" then some ⟨1, lit "http://b/bid", lit "e", lit "i", 100⟩
    else if d = lit "3" then some ⟨1, lit "http://c:/bid", lit "e", lit "i", 100⟩ else none
  ssp s := if s = lit "s" then some ⟨1⟩ else none
  dspall := some (lit "2,3")
  targeting _ := ⟨none, none, none, none, none⟩

def sampleUnits : List AdUnit := [⟨lit "U", some (lit "320*50")⟩]

def sampleCtx : BidReq.Ctx where
  lib := WinPrice.sampleCtx.lib
  dict := sampleDict
  ad_req := ⟨sampleUnits, .num 0, lit "1.1.1.1", [], [], ⟨[], none, none, none⟩, ⟨[], none⟩⟩
  id := lit "b"
  uuid := sampleUuid
  ssp_id := lit "s"

/-- Every DSP answers with a bid of 3. -/
def sampleNet (_ : ℕ) : Reply := .answered (some 200) (some (lit (appText "3" markupQuoted)))

theorem isolated_iff_sample :
    Isolated sampleCtx sampleNet sampleUnits [lit "2"] ∅ ↔
      Harmless sampleCtx sampleNet sampleUnits [lit "2"] :=
  isolated_iff sample_hmac

/-- The URL of DSP 3 stops the bidding, and DSP 2 is not asked either. -/
theorem broken_url_stops_bidding :
    parse_inet_url sampleCtx.lib (some (lit "http://b/bid")) =
        some ⟨lit "http", lit "b", 80, lit "/bid"⟩ ∧
      ¬ (build_bid_req sampleCtx sampleUnits [lit "2", lit "3"]).isOk ∧
      ¬ Isolated sampleCtx sampleNet sampleUnits [lit "2", lit "3"] ∅ := by
  have hbuild : (build_bid_req sampleCtx sampleUnits [lit "2", lit "3"]).isOk = false := by
    decide +kernel
  refine ⟨by decide +kernel, by simp [hbuild], fun h => ?_⟩
  obtain ⟨s, hs⟩ := h.no_error .plain fun _ => .least
  obtain ⟨reqs, hreqs, -⟩ := bind_ok.mp hs
  rw [hreqs] at hbuild
  cases hbuild

end samples

end Sax.Launch
