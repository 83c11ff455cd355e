import Sax.Auction

/-!
Extracting the bids from the responses, as the four exchanges do it.

The loop runs through the responses, skips those whose status or whose fields are wrong, and
files every entry it keeps under the ad unit the entry names. The outcome is read off the
list of accepted entries: the bids of a unit are the ones kept from the entries that name it,
in their order, and the loop raises exactly when one of the accepted entries does.
-/

namespace Sax.Extract

open Sax.LuaVal Sax.Loop Sax.Const Sax.Runtime Sax.Auction

/-- A response to a subrequest. -/
structure Rsp where
  status : ℕ
  body : Str
  deriving DecidableEq

/-- What the loop reads of a checked body: its entries, and whether it asks for cookie
mapping. -/
structure Result (ε : Type) where
  entries : List ε
  cm : Bool

structure Extracted (γ : Type) where
  adBidList : Tbl (List (Bid γ))
  cmUrlList : List Str

/-- What the copies of `extractAdBid` differ in: the check of the fields, the bid an entry
becomes, what logging an entry reads, and the cookie mapping URL. -/
structure Copy (ε γ : Type) where
  getBidResult : Rsp → Lua (Result ε)
  id : ε → Str
  keep : Str → ε → Lua (Option (Bid γ))
  logDspRsp : Str → ε → Lua Unit
  cmUrl : Str → Str

variable {ε γ : Type} (x : Copy ε γ)

/-- The loop over the entries of one response. -/
def Copy.entry (dspId : Str) (adBidList : Tbl (List (Bid γ))) (ad : ε) :
    Lua (Tbl (List (Bid γ))) := do
  let kept ← x.keep dspId ad
  x.logDspRsp dspId ad
  return match kept with
    | some bid => adBidList.push (x.id ad) bid
    | none => adBidList

/-- The loop over the responses. -/
def Copy.rsp (s : Extracted γ) (p : Str × Rsp) : Lua (Extracted γ) :=
  if p.2.status = HTTP_OK then
    match x.getBidResult p.2 with
    | .ok bidResult => do
      let adBidList ← bidResult.entries.foldlM (x.entry p.1) s.adBidList
      return ⟨adBidList,
        if bidResult.cm then s.cmUrlList ++ [x.cmUrl p.1] else s.cmUrlList⟩
    | .error _ => .ok s
  else .ok s

def Copy.extractAdBid (bidRspList : List Rsp) (dspBidList : List Str) (cmUrlList : List Str) :
    Lua (Extracted γ) :=
  (dspBidList.zip bidRspList).foldlM x.rsp ⟨∅, cmUrlList⟩

/-! ### The accepted entries -/

/-- The entries of a response that passes both checks. -/
def Copy.entries (p : Str × Rsp) : List (Str × ε) :=
  if p.2.status = HTTP_OK then
    match x.getBidResult p.2 with
    | .ok bidResult => bidResult.entries.map (p.1, ·)
    | .error _ => []
  else []

def Copy.cmUrls (p : Str × Rsp) : List Str :=
  if p.2.status = HTTP_OK then
    match x.getBidResult p.2 with
    | .ok bidResult => if bidResult.cm then [x.cmUrl p.1] else []
    | .error _ => []
  else []

/-- The entries of all accepted responses, with the DSP each came from. -/
def Copy.accepted (l : List (Str × Rsp)) : List (Str × ε) := l.flatMap x.entries

/-- The bid an accepted entry becomes. -/
def Copy.bid (p : Str × ε) : Option (Bid γ) :=
  match x.keep p.1 p.2 with
  | .ok kept => kept
  | .error _ => none

/-- The bids of ad unit `u`. -/
def Copy.bids (u : Str) (l : List (Str × ε)) : List (Bid γ) :=
  (l.filter fun p => x.id p.2 = u).filterMap x.bid

/-- The entry stands in a body that passes the check. -/
def Copy.Reads (ad : ε) : Prop :=
  ∃ bidRsp bidResult, x.getBidResult bidRsp = .ok bidResult ∧ ad ∈ bidResult.entries

/-- The entry goes through the loop. -/
def Copy.Passes (p : Str × ε) : Prop :=
  (∃ kept, x.keep p.1 p.2 = .ok kept) ∧ x.logDspRsp p.1 p.2 = .ok ()

variable {x} {u : Str} {b : Bid γ}

lemma Copy.mem_bids {l : List (Str × ε)} :
    b ∈ x.bids u l ↔ ∃ p ∈ l, x.id p.2 = u ∧ x.keep p.1 p.2 = .ok (some b) := by
  simp only [Copy.bids, List.mem_filterMap, List.mem_filter, decide_eq_true_eq, and_assoc]
  refine exists_congr fun p => and_congr_right fun _ => and_congr_right fun _ => ?_
  unfold Copy.bid
  cases h : x.keep p.1 p.2 <;> simp

lemma Copy.entry_ok {t t' : Tbl (List (Bid γ))} {p : Str × ε} :
    x.entry p.1 t p.2 = .ok t' ↔ x.Passes p ∧
      t' = match x.bid p with | some bid => t.push (x.id p.2) bid | none => t := by
  simp only [Copy.entry, bind_ok, pure_ok, Copy.Passes, Copy.bid]
  constructor
  · rintro ⟨kept, hk, _, hl, rfl⟩
    exact ⟨⟨⟨kept, hk⟩, hl⟩, by rw [hk]⟩
  · rintro ⟨⟨⟨kept, hk⟩, hl⟩, rfl⟩
    exact ⟨kept, hk, (), hl, by rw [hk]⟩

/-- The loop over accepted entries. -/
def Copy.collect (x : Copy ε γ) (t : Tbl (List (Bid γ))) (l : List (Str × ε)) :
    Lua (Tbl (List (Bid γ))) :=
  l.foldlM (fun t p => x.entry p.1 t p.2) t

lemma Copy.rsp_ok {s s' : Extracted γ} {p : Str × Rsp} :
    x.rsp s p = .ok s' ↔ ∃ t, x.collect s.adBidList (x.entries p) = .ok t ∧
      s' = ⟨t, s.cmUrlList ++ x.cmUrls p⟩ := by
  unfold Copy.rsp Copy.entries Copy.cmUrls Copy.collect
  split
  · cases x.getBidResult p.2 with
    | ok r =>
      simp only [bind_ok, pure_ok, List.foldlM_map]
      refine exists_congr fun t => and_congr_right fun _ => ?_
      cases r.cm <;> simp [eq_comm]
    | error e =>
      simp only [List.foldlM_nil, pure_ok, List.append_nil, exists_eq_left', Except.ok.injEq]
      exact eq_comm
  · simp only [List.foldlM_nil, pure_ok, List.append_nil, exists_eq_left', Except.ok.injEq]
    exact eq_comm

/-- **The loop over the responses is the loop over their accepted entries.** -/
theorem Copy.run_ok {s s' : Extracted γ} {l : List (Str × Rsp)} :
    l.foldlM x.rsp s = .ok s' ↔ ∃ t, x.collect s.adBidList (x.accepted l) = .ok t ∧
      s' = ⟨t, s.cmUrlList ++ l.flatMap x.cmUrls⟩ := by
  induction l generalizing s with
  | nil =>
    simp only [List.foldlM_nil, pure_ok, Copy.accepted, List.flatMap_nil, Copy.collect,
      List.append_nil, exists_eq_left']
    exact eq_comm
  | cons p l ih =>
    rw [foldlM_cons_ok]
    simp only [Copy.accepted, Copy.collect, List.flatMap_cons, List.foldlM_append, bind_ok]
    constructor
    · rintro ⟨m, hm, hrest⟩
      obtain ⟨t, ht, rfl⟩ := Copy.rsp_ok.mp hm
      obtain ⟨t', ht', rfl⟩ := ih.mp hrest
      exact ⟨t', ⟨t, ht, ht'⟩, by simp⟩
    · rintro ⟨t', ⟨t, ht, ht'⟩, rfl⟩
      exact ⟨_, Copy.rsp_ok.mpr ⟨t, ht, rfl⟩, ih.mpr ⟨t', ht', by simp⟩⟩

theorem Copy.extractAdBid_ok {s : Extracted γ} {bidRspList : List Rsp}
    {dspBidList cmUrlList : List Str} :
    x.extractAdBid bidRspList dspBidList cmUrlList = .ok s ↔
      ∃ t, x.collect ∅ (x.accepted (dspBidList.zip bidRspList)) = .ok t ∧
        s = ⟨t, cmUrlList ++ (dspBidList.zip bidRspList).flatMap x.cmUrls⟩ :=
  Copy.run_ok

/-! ### The bids of a unit -/

/-- The table holds the bids of the entries `l`, and no empty list. -/
def Copy.Holds (x : Copy ε γ) (t : Tbl (List (Bid γ))) (l : List (Str × ε)) : Prop :=
  ∀ u, (t.get u).getD [] = x.bids u l ∧ t.get u ≠ some []

lemma Copy.bids_snoc (l : List (Str × ε)) (p : Str × ε) :
    x.bids u (l ++ [p]) =
      x.bids u l ++ if x.id p.2 = u then (x.bid p).toList else [] := by
  unfold Copy.bids
  split <;> cases h : x.bid p <;> simp [List.filter_append, *]

/-- **What the loop collects**: every entry passed, and each unit has its bids. -/
theorem Copy.collect_holds {t t' : Tbl (List (Bid γ))} {l : List (Str × ε)} {d : List (Str × ε)}
    (ht : x.Holds t d) (h : x.collect t l = .ok t') : x.Holds t' (d ++ l) := by
  refine foldlM_prefix (P := fun d t => x.Holds t d) ?_ ht h
  intro d p t t' _ hd hp u
  obtain ⟨-, rfl⟩ := Copy.entry_ok.mp hp
  obtain ⟨hget, hne⟩ := hd u
  rw [Copy.bids_snoc, ← hget]
  cases hb : x.bid p with
  | none => simpa using hne
  | some bid =>
    by_cases hu : x.id p.2 = u
    · subst hu
      simp
    · simpa [hu, Tbl.get_push_ne _ _ _ (Ne.symm hu)] using hne

lemma Copy.holds_nil : x.Holds ∅ [] := fun u => by simp [Tbl.get, Copy.bids]

lemma Copy.Holds.get {t : Tbl (List (Bid γ))} {l : List (Str × ε)} (h : x.Holds t l)
    {bidInfo : List (Bid γ)} :
    t.get u = some bidInfo ↔ x.bids u l = bidInfo ∧ bidInfo ≠ [] := by
  obtain ⟨hget, hne⟩ := h u
  constructor
  · intro hu
    rw [← hget, hu]
    exact ⟨rfl, fun h0 => hne (h0 ▸ hu)⟩
  · rintro ⟨rfl, h0⟩
    cases hu : t.get u with
    | none => rw [hu] at hget; exact absurd hget.symm h0
    | some l' => rw [hu] at hget; simpa using hget

/-- **The loop ends exactly when every accepted entry passes.** -/
theorem Copy.collect_isOk {t : Tbl (List (Bid γ))} {l : List (Str × ε)} :
    (∃ t', x.collect t l = .ok t') ↔ ∀ p ∈ l, x.Passes p := by
  refine foldlM_ok_iff (P := fun _ => True) ?_ (fun _ _ _ _ _ _ => trivial) trivial
  intro t p _ _
  exact ⟨fun ⟨_, h⟩ => (Copy.entry_ok.mp h).1, fun h => ⟨_, Copy.entry_ok.mpr ⟨h, rfl⟩⟩⟩

/-- Entries that are no bids leave nothing behind. -/
lemma Copy.collect_filter {keep : Str × ε → Bool} {t t' : Tbl (List (Bid γ))}
    {l : List (Str × ε)} (hdrop : ∀ p ∈ l, keep p = false → x.bid p = none)
    (h : x.collect t l = .ok t') : x.collect t (l.filter keep) = .ok t' := by
  induction l generalizing t with
  | nil => exact h
  | cons p l ih =>
    obtain ⟨m, hm, hrest⟩ := foldlM_cons_ok.mp h
    obtain ⟨hp, hl⟩ := List.forall_mem_cons.mp hdrop
    obtain ⟨-, hmid⟩ := Copy.entry_ok.mp hm
    cases hk : keep p with
    | true =>
      rw [List.filter_cons_of_pos hk]
      exact foldlM_cons_ok.mpr ⟨m, hm, ih hl hrest⟩
    | false =>
      rw [hp hk] at hmid
      subst hmid
      rw [List.filter_cons_of_neg (by simp [hk])]
      exact ih hl hrest

lemma Copy.mem_entries {p : Str × Rsp} {q : Str × ε} (h : q ∈ x.entries p) : q.1 = p.1 := by
  unfold Copy.entries at h
  split at h
  · split at h
    · obtain ⟨e, -, rfl⟩ := List.mem_map.mp h
      rfl
    · cases h
  · cases h

lemma Copy.reads_of_accepted {l : List (Str × Rsp)} {q : Str × ε} (h : q ∈ x.accepted l) :
    x.Reads q.2 := by
  obtain ⟨p, -, hq⟩ := List.mem_flatMap.mp h
  unfold Copy.entries at hq
  split at hq
  · split at hq
    · next bidResult hresult =>
      obtain ⟨ad, had, rfl⟩ := List.mem_map.mp hq
      exact ⟨p.2, bidResult, hresult, had⟩
    · cases hq
  · cases hq

/-- Without a DSP's response its entries are missing. -/
lemma Copy.accepted_filter (dspId : Str) (l : List (Str × Rsp)) :
    x.accepted (l.filter (·.1 ≠ dspId)) = (x.accepted l).filter (·.1 ≠ dspId) := by
  induction l with
  | nil => rfl
  | cons p l ih =>
    unfold Copy.accepted at ih ⊢
    rw [List.flatMap_cons, List.filter_append, ← ih]
    by_cases hp : p.1 = dspId
    · have hnone : (x.entries p).filter (·.1 ≠ dspId) = [] := by
        rw [List.filter_eq_nil_iff]
        intro q hq
        simp [Copy.mem_entries hq, hp]
      rw [List.filter_cons_of_neg (by simp [hp]), hnone, List.nil_append]
    · have hall : (x.entries p).filter (·.1 ≠ dspId) = x.entries p := by
        rw [List.filter_eq_self]
        intro q hq
        simp [Copy.mem_entries hq, hp]
      rw [List.filter_cons_of_pos (by simp [hp]), hall, List.flatMap_cons]

/-- The bids `extractAdBid` files under a unit. -/
lemma Copy.extractAdBid_get {s : Extracted γ} {bidRspList : List Rsp}
    {dspBidList cmUrlList : List Str}
    (h : x.extractAdBid bidRspList dspBidList cmUrlList = .ok s) {bidInfo : List (Bid γ)} :
    s.adBidList.get u = some bidInfo ↔
      x.bids u (x.accepted (dspBidList.zip bidRspList)) = bidInfo ∧ bidInfo ≠ [] := by
  obtain ⟨t, ht, rfl⟩ := Copy.extractAdBid_ok.mp h
  exact (Copy.collect_holds Copy.holds_nil ht).get

/-- The extraction ends and leaves `bidInfo` under ad unit `u`. -/
def Copy.Keeps (x : Copy ε γ) (bidRspList : List Rsp) (dspBidList cmUrlList : List Str) (u : Str)
    (bidInfo : List (Bid γ)) : Prop :=
  ∃ s, x.extractAdBid bidRspList dspBidList cmUrlList = .ok s ∧
    s.adBidList.get u = some bidInfo

lemma Copy.keeps_iff {bidRspList : List Rsp} {dspBidList cmUrlList : List Str}
    {bidInfo : List (Bid γ)} :
    x.Keeps bidRspList dspBidList cmUrlList u bidInfo ↔
      (x.extractAdBid bidRspList dspBidList cmUrlList).toOption.bind (·.adBidList.get u) =
        some bidInfo := by
  unfold Copy.Keeps
  cases x.extractAdBid bidRspList dspBidList cmUrlList <;> simp [Except.toOption]

instance [DecidableEq γ] (x : Copy ε γ) (bidRspList : List Rsp) (dspBidList cmUrlList : List Str)
    (u : Str) (bidInfo : List (Bid γ)) :
    Decidable (x.Keeps bidRspList dspBidList cmUrlList u bidInfo) :=
  decidable_of_iff' _ Copy.keeps_iff

/-- Every kept bid comes from an accepted entry that names its unit. -/
lemma Copy.Keeps.exists_entry {bidRspList : List Rsp} {dspBidList cmUrlList : List Str}
    {bidInfo : List (Bid γ)} (h : x.Keeps bidRspList dspBidList cmUrlList u bidInfo) :
    bidInfo ≠ [] ∧ ∀ b ∈ bidInfo, ∃ p ∈ x.accepted (dspBidList.zip bidRspList),
      x.id p.2 = u ∧ x.keep p.1 p.2 = .ok (some b) := by
  obtain ⟨s, hs, hu⟩ := h
  obtain ⟨rfl, hne⟩ := (Copy.extractAdBid_get hs).mp hu
  exact ⟨hne, fun b hb => Copy.mem_bids.mp hb⟩

end Sax.Extract
