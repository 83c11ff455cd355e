import Sax.Creative

/-!
When the rewriting of a creative goes through.

The only things a DSP decides are its snippet and how the snippet decodes. `SinaShape` and
`WapShape` say what the decoded value must look like, and `content_isOk` that rewriting and
logging raise on every other value.
-/

namespace Sax.Shape

open Sax.LuaVal Sax.Loop Sax.Const Sax.Runtime Sax.Store Sax.BidRsp Sax.Creative

/-- The keys of a table that is no plain list hold finite numbers. -/
def keysFinite : Option Val → Bool
  | some (.table _ h) => Val.finiteHash h
  | _ => true

/-- So do its elements after the first one. -/
def restFinite : Option Val → Bool
  | some (.table a h) => Val.finiteArr a.tail && Val.finiteHash h
  | _ => true

/-- A content the Sina DSP may send: texts for monitors and links, a list of view URLs, and what
can be encoded once the links and the first monitor are replaced. -/
def SinaShape (v : Val) : Prop :=
  isTextList (v.get "monitor") ∧ isList (v.get "pv") ∧ isTextList (v.get "link") ∧
    (v.erase "link").depth ≤ encode_max_depth ∧
    ((v.erase "link").erase "monitor").finite ∧ restFinite (v.get "monitor")

/-- A content a DSP may send for a WAP page, whose monitors are dropped. -/
def WapShape (v : Val) : Prop :=
  isTextList (v.get "link") ∧ isTextList (v.get "pv") ∧
    ((v.erase "link").erase "monitor").depth ≤ encode_max_depth ∧
    (((v.erase "link").erase "monitor").erase "pv").finite ∧ keysFinite (v.get "pv")

/-- The snippet decodes to a content of the shape its page needs; for a PC page any snippet
of a third party will do. -/
def Alterable (c : Ctx) (dspId snippet : Str) : Prop :=
  if dspId = SINA_DSP_ID then
    ∃ v, c.lib.decode snippet = .ok v ∧ SinaShape v
  else match c.adReq.publisherType with
    | .wap => ∃ v, c.lib.decode snippet = .ok v ∧ WapShape v
    | .pc => True

/-- What the exchange knows of a winner before it alters its creatives: the DSP and the unique
id of the creative are in the dictionary, and there is a price. -/
structure Ready (c : Ctx) (dspId creativeId : Str) (winCpmPrice : Option ℚ) : Prop where
  dsp : (c.dict.dsp dspId).isSome
  uniqueId : ∃ n, creativeGetUniqueId c.dict dspId creativeId = .ok (some n)
  price : winCpmPrice.isSome

section ready

variable {c : Ctx} {dspId creativeId : Str} {winCpmPrice : Option ℚ}

lemma Ready.concatUniqueId (h : Ready c dspId creativeId winCpmPrice) :
    ∃ s, concatUniqueId c dspId creativeId = .ok s := by
  obtain ⟨n, hn⟩ := h.uniqueId
  exact ⟨_, bind_ok.mpr ⟨_, hn, rfl⟩⟩

lemma Ready.clickUrl (h : Ready c dspId creativeId winCpmPrice) (adUnitId : Str) :
    ∃ s, generateClickUrl c dspId adUnitId creativeId = .ok s := by
  obtain ⟨s, hs⟩ := h.concatUniqueId
  exact ⟨_, bind_ok.mpr ⟨s, hs, rfl⟩⟩

lemma Ready.viewUrl (h : Ready c dspId creativeId winCpmPrice) (adUnitId : Str) :
    ∃ s, generateViewUrl c dspId adUnitId creativeId winCpmPrice = .ok s := by
  obtain ⟨s, hs⟩ := h.concatUniqueId
  obtain ⟨q, rfl⟩ := Option.isSome_iff_exists.mp h.price
  exact ⟨_, bind_ok.mpr ⟨s, hs, rfl⟩⟩

lemma Ready.clickUrlUnesc (h : Ready c dspId creativeId winCpmPrice) (adUnitId : Str) :
    ∃ s, clickUrlUnesc c dspId adUnitId creativeId = .ok s := by
  obtain ⟨s, hs⟩ := h.clickUrl adUnitId
  exact ⟨_, bind_ok.mpr ⟨s, hs, rfl⟩⟩

lemma Ready.priceMsg (h : Ready c dspId creativeId winCpmPrice) :
    ∃ s, priceMsg c dspId winCpmPrice = .ok s := by
  obtain ⟨d, hd⟩ := Option.isSome_iff_exists.mp h.dsp
  obtain ⟨q, rfl⟩ := Option.isSome_iff_exists.mp h.price
  have he : getEncryptionKey c.dict dspId = .ok (some d.encryptionkey) := by
    rw [getEncryptionKey, getAttribute_eq, hd]
    rfl
  have hi : getIntegrityKey c.dict dspId = .ok (some d.integritykey) := by
    rw [getIntegrityKey, getAttribute_eq, hd]
    rfl
  simp only [Creative.priceMsg, he, hi]
  exact ⟨_, rfl⟩

lemma Ready.signKey (h : Ready c dspId creativeId winCpmPrice) :
    ∃ n, getSignKey c.dict dspId = .ok (some n) := by
  obtain ⟨d, hd⟩ := Option.isSome_iff_exists.mp h.dsp
  exact ⟨d.status, by rw [getSignKey, getAttribute_eq, hd]; rfl⟩

end ready

/-! ### Signing the links -/

section sign

variable {c : Ctx} {dspId : Str} {ms : List Val} {mh : List (Str × Val)}

lemma wrapMonitor_isOk {lib : Ngx} {m l : Val} :
    (∃ w, wrapMonitor lib (some m) l = .ok w) ↔ m.isText ∧ l.isText := by
  simp only [wrapMonitor, bind_isOk, ← checkString_isOk (t := lib.tostring)]
  constructor
  · rintro ⟨s, hs, t, ht, -⟩
    exact ⟨⟨s, hs⟩, t, ht⟩
  · rintro ⟨⟨s, hs⟩, t, ht⟩
    exact ⟨s, hs, t, ht, _, rfl⟩

lemma wrapMonitor_isText {lib : Ngx} {m : Option Val} {l w : Val}
    (h : wrapMonitor lib m l = .ok w) : w.isText := by
  obtain ⟨_, -, h⟩ := bind_ok.mp h
  obtain ⟨_, -, h⟩ := bind_ok.mp h
  cases h
  rfl

/-- The loop over the first `n` monitors goes through exactly when they are texts, and the
link is one if there are any. -/
lemma wrapMonitors_isOk (lib : Ngx) (mh : List (Str × Val)) {n : ℕ} {l : Val}
    (hn : n ≤ ms.length) :
    (∃ w, wrapMonitors lib (some (.table ms mh)) n l = .ok w) ↔
      (∀ m ∈ ms.take n, m.isText) ∧ (0 < n → l.isText) := by
  induction n generalizing l with
  | zero => simp [wrapMonitors]
  | succ i ih =>
    have hget : ms[i]? = some ms[i] := List.getElem?_eq_getElem (by omega)
    have hitem : item (i + 1) (some (.table ms mh)) = .ok (some ms[i]) := by simp [item, hget]
    rw [wrapMonitors, hitem, List.take_add_one, hget]
    simp only [ok_bind, Option.toList_some, List.forall_mem_append, List.forall_mem_singleton]
    constructor
    · rintro ⟨w, h⟩
      obtain ⟨l', hl', h⟩ := bind_ok.mp h
      obtain ⟨hm, hl⟩ := wrapMonitor_isOk.mp ⟨l', hl'⟩
      exact ⟨⟨((ih (by omega)).mp ⟨w, h⟩).1, hm⟩, fun _ => hl⟩
    · rintro ⟨⟨hms, hm⟩, hl⟩
      obtain ⟨l', hl'⟩ := wrapMonitor_isOk.mpr ⟨hm, hl (by omega)⟩
      obtain ⟨w, hw⟩ := (ih (by omega)).mpr ⟨hms, fun _ => wrapMonitor_isText hl'⟩
      exact ⟨w, bind_ok.mpr ⟨l', hl', hw⟩⟩

lemma wrapMonitors_isText {lib : Ngx} {m : Option Val} {n : ℕ} {l w : Val}
    (h : wrapMonitors lib m n l = .ok w) : 0 < n ∨ l.isText → w.isText := by
  induction n generalizing l with
  | zero => cases h; simp
  | succ i ih =>
    obtain ⟨_, -, h⟩ := bind_ok.mp h
    obtain ⟨l', hl', h⟩ := bind_ok.mp h
    exact fun _ => ih h (Or.inr (wrapMonitor_isText hl'))

lemma wrapMonitors_finite {lib : Ngx} {m : Option Val} {n : ℕ} {l w : Val}
    (h : wrapMonitors lib m n l = .ok w) (hl : l.finite) : w.finite := by
  induction n generalizing l with
  | zero => cases h; exact hl
  | succ i ih =>
    obtain ⟨_, -, h⟩ := bind_ok.mp h
    obtain ⟨l', hl', h⟩ := bind_ok.mp h
    obtain ⟨_, -, hl'⟩ := bind_ok.mp hl'
    obtain ⟨_, -, hl'⟩ := bind_ok.mp hl'
    cases hl'
    exact ih h rfl

variable {r : Val} {n : ℤ} {needSign : Bool} {l w : Val}

lemma signLink_isOk (hr : r.get "monitor" = some (.table ms mh))
    (hl : needSign = false → l.isText) :
    (∃ w, signLink c (some n) needSign r l = .ok w) ↔ (∀ m ∈ ms, m.isText) ∧ l.isText := by
  have htab : r.isTable := by cases r <;> first | rfl | cases hr
  have hwrap := wrapMonitors_isOk c.lib mh (l := l) (le_refl ms.length)
  rw [List.take_length] at hwrap
  simp only [signLink, field_of_isTable htab, hr, len, ok_bind]
  constructor
  · rintro ⟨w, h⟩
    obtain ⟨w', hw', h⟩ := bind_ok.mp h
    obtain ⟨hms, hpos⟩ := hwrap.mp ⟨w', hw'⟩
    refine ⟨hms, ?_⟩
    cases ms with
    | cons => exact hpos (by simp)
    | nil =>
      cases hw'
      cases needSign with
      | false => exact hl rfl
      | true =>
        obtain ⟨s, hs, -⟩ := bind_ok.mp h
        exact checkString_isOk.mp ⟨s, hs⟩
  · rintro ⟨hms, ht⟩
    obtain ⟨w, hw⟩ := hwrap.mpr ⟨hms, fun _ => ht⟩
    have hwt : w.isText := wrapMonitors_isText hw (Or.inr ht)
    cases needSign with
    | false => exact ⟨w, bind_ok.mpr ⟨w, hw, rfl⟩⟩
    | true =>
      obtain ⟨s, hs⟩ := checkString_isOk.mpr hwt
      exact ⟨_, bind_ok.mpr ⟨w, hw, bind_ok.mpr ⟨s, hs, rfl⟩⟩⟩

lemma signLink_isText (hl : needSign = false → l.isText)
    (h : signLink c (some n) needSign r l = .ok w) : w.isText := by
  obtain ⟨m, -, h⟩ := bind_ok.mp h
  obtain ⟨k, -, h⟩ := bind_ok.mp h
  obtain ⟨w', hw', h⟩ := bind_ok.mp h
  cases needSign with
  | true =>
    obtain ⟨_, -, h⟩ := bind_ok.mp h
    cases h
    rfl
  | false =>
    cases h
    exact wrapMonitors_isText hw' (Or.inr (hl rfl))

/-- The links `fillSign` runs through: an empty list stands for one empty link, unsigned. -/
lemma fillSign_eq {ls : List Val} {lh : List (Str × Val)} (htab : r.isTable)
    (hn : getSignKey c.dict dspId = .ok (some n)) (hlink : r.get "link" = some (.table ls lh)) :
    fillSign c r dspId =
      (if ls = [] then [.str []] else ls).mapM (signLink c (some n) (ls ≠ []) r) >>=
        fun tempLink => setField "link" (some (.arr tempLink)) r := by
  simp only [fillSign, hn, field_of_isTable htab, hlink, ok_bind]
  cases ls <;> rfl

lemma isTextList_of_fillSign {t : Val} (htab : r.isTable) (h : fillSign c r dspId = .ok t) :
    ∃ ls lh, r.get "link" = some (.table ls lh) := by
  obtain ⟨_, -, h⟩ := bind_ok.mp h
  obtain ⟨link, hlink, h⟩ := bind_ok.mp h
  obtain ⟨k, -, h⟩ := bind_ok.mp h
  obtain ⟨link', hlink', h⟩ := bind_ok.mp h
  obtain ⟨l, hl, -⟩ := bind_ok.mp h
  obtain ⟨lh', rfl⟩ := ipairs_ok.mp hl
  rw [field_of_isTable htab] at hlink
  cases hlink
  unfold startLinks at hlink'
  split at hlink'
  · exact ⟨_, _, Except.ok.inj hlink'⟩
  · obtain ⟨_, hlink', -⟩ := bind_ok.mp hlink'
    obtain ⟨a, h', ha, -⟩ := insertLast_ok.mp hlink'
    exact ⟨a, h', ha⟩

/-- **Signing goes through exactly on texts**, for a content with a list of monitors. -/
theorem fillSign_isOk (hn : getSignKey c.dict dspId = .ok (some n))
    (hr : r.get "monitor" = some (.table ms mh)) :
    (∃ t, fillSign c r dspId = .ok t) ↔
      isTextList (r.get "link") ∧ ∀ m ∈ ms, m.isText := by
  have htab : r.isTable := by cases r <;> first | rfl | cases hr
  have hsign : ∀ {ls : List Val} {lh}, r.get "link" = some (.table ls lh) →
      ((∃ t, fillSign c r dspId = .ok t) ↔ (∀ l ∈ ls, l.isText) ∧ ∀ m ∈ ms, m.isText) := by
    intro ls lh hlink
    have hl : ∀ l ∈ (if ls = [] then [.str []] else ls), decide (ls ≠ []) = false → l.isText := by
      by_cases h : ls = [] <;> simp [h, Val.isText]
    have hset : ∀ tempLink, ∃ t, setField "link" (some (.arr tempLink)) r = .ok t :=
      fun _ => setField_ok htab
    rw [fillSign_eq htab hn hlink, bind_isOk]
    simp only [hset, and_true, mapM_isOk]
    have hround : ∀ l ∈ (if ls = [] then [.str []] else ls),
        ((∃ w, signLink c (some n) (ls ≠ []) r l = .ok w) ↔
          (∀ m ∈ ms, m.isText) ∧ l.isText) := fun l h => signLink_isOk hr (hl l h)
    rw [forall₂_congr hround]
    by_cases h : ls = []
    · simp [h, Val.isText]
    · obtain ⟨l, hmem⟩ := List.exists_mem_of_ne_nil _ h
      simp only [h, if_false]
      exact ⟨fun hall => ⟨fun l hl => (hall l hl).2, (hall l hmem).1⟩,
        fun hall l hl => ⟨hall.2, hall.1 l hl⟩⟩
  constructor
  · rintro ⟨t, h⟩
    obtain ⟨ls, lh, hlink⟩ := isTextList_of_fillSign htab h
    obtain ⟨hls, hms⟩ := (hsign hlink).mp ⟨t, h⟩
    exact ⟨by simpa [hlink, isTextList] using hls, hms⟩
  · rintro ⟨hlist, hms⟩
    rcases hlink : r.get "link" with _ | link
    · rw [hlink] at hlist
      cases hlist
    cases link with
    | table ls lh =>
      refine (hsign hlink).mpr ⟨?_, hms⟩
      simpa [hlink, isTextList] using hlist
    | _ =>
      rw [hlink] at hlist
      cases hlist

/-- A signed content nests as deep as it did without its links, and holds a list of strings. -/
lemma fillSign_depth (htab : r.isTable) (hn : getSignKey c.dict dspId = .ok (some n)) {t : Val}
    (h : fillSign c r dspId = .ok t) : t.depth = max 2 (r.erase "link").depth := by
  obtain ⟨ls, lh, hlink⟩ := isTextList_of_fillSign htab h
  rw [fillSign_eq htab hn hlink] at h
  obtain ⟨tempLink, htemp, h⟩ := bind_ok.mp h
  have htext : ∀ w ∈ tempLink, w.isText := by
    refine mapM_forall (fun l hl w hw => signLink_isText (fun hd => ?_) hw) htemp
    by_cases h0 : ls = []
    · simp only [h0, if_true, List.mem_singleton] at hl
      subst hl
      rfl
    · simp [h0] at hd
  rw [Val.depth_setField h]
  simp [Val.arr, Val.depth, Val.depthArr_texts htext, Val.depthHash]

/-- A round makes a string of a string, and of a text where it has something to add. -/
lemma signLink_finite (hl : needSign = false → l.finite)
    (h : signLink c (some n) needSign r l = .ok w) : w.finite := by
  obtain ⟨m, -, h⟩ := bind_ok.mp h
  obtain ⟨k, -, h⟩ := bind_ok.mp h
  obtain ⟨w', hw', h⟩ := bind_ok.mp h
  cases needSign with
  | true =>
    obtain ⟨_, -, h⟩ := bind_ok.mp h
    cases h
    rfl
  | false =>
    cases h
    exact wrapMonitors_finite hw' (hl rfl)

/-- A signed content is finite where it was without its links. -/
lemma fillSign_finite (htab : r.isTable) (hn : getSignKey c.dict dspId = .ok (some n)) {t : Val}
    (h : fillSign c r dspId = .ok t) : t.finite = (r.erase "link").finite := by
  obtain ⟨ls, lh, hlink⟩ := isTextList_of_fillSign htab h
  rw [fillSign_eq htab hn hlink] at h
  obtain ⟨tempLink, htemp, h⟩ := bind_ok.mp h
  have hfin : ∀ w ∈ tempLink, w.finite := by
    refine mapM_forall (fun l hl w hw => signLink_finite (fun hd => ?_) hw) htemp
    by_cases h0 : ls = []
    · simp only [h0, if_true, List.mem_singleton] at hl
      subst hl
      rfl
    · simp [h0] at hd
  rw [Bool.eq_iff_iff, Val.finite_setField h, Val.finite_arr]
  exact and_iff_right hfin

end sign

/-! ### A creative of the Sina DSP -/

section sina

variable {c : Ctx} {creative : BidRsp.Creative} {adUnitId dspId : Str} {winCpmPrice : Option ℚ}
  {v r : Val}

/-- What altering leaves of the decoded content: the monitors are texts as far as they were,
the links stay, and nothing gets deeper. -/
structure SinaAltered (v r : Val) : Prop where
  isTable : r.isTable
  pv : isList (v.get "pv")
  link : r.get "link" = v.get "link"
  monitor : ∃ ms ms' mh, v.get "monitor" = some (.table ms mh) ∧
    r.get "monitor" = some (.table ms' mh) ∧ ((∀ m ∈ ms', m.isText) ↔ ∀ m ∈ ms, m.isText)
  depth : v.KeysNodup → isTextList (v.get "monitor") →
    (r.erase "link").depth = (v.erase "link").depth
  finite : v.KeysNodup → ((r.erase "link").finite = true ↔
    ((v.erase "link").erase "monitor").finite ∧ restFinite (v.get "monitor"))

lemma alterSina_spec (hv : c.lib.decode creative.html_snippet = .ok v)
    (h : alterSinaDspCreative c creative adUnitId dspId winCpmPrice = .ok r) :
    SinaAltered v r := by
  simp only [alterSinaDspCreative, hv] at h
  obtain ⟨url, -, h⟩ := bind_ok.mp h
  obtain ⟨m0, hm0, h⟩ := bind_ok.mp h
  obtain ⟨m1, hm1, h⟩ := bind_ok.mp h
  obtain ⟨r1, hr1, h⟩ := bind_ok.mp h
  obtain ⟨viewUrl, -, h⟩ := bind_ok.mp h
  obtain ⟨p0, hp0, h⟩ := bind_ok.mp h
  obtain ⟨p1, hp1, h⟩ := bind_ok.mp h
  obtain ⟨r2, hr2, h⟩ := bind_ok.mp h
  obtain ⟨x0, hx0, h⟩ := bind_ok.mp h
  obtain ⟨first, hfirst, h⟩ := bind_ok.mp h
  obtain ⟨msg, -, h⟩ := bind_ok.mp h
  obtain ⟨m2, hm2, hr⟩ := bind_ok.mp h
  obtain ⟨ms, mh, rfl, rfl⟩ := insertLast_ok.mp hm1
  obtain ⟨ps, ph, rfl, rfl⟩ := insertLast_ok.mp hp1
  have hvt : v.isTable := isTable_of_setField hr1
  rw [field_of_isTable hvt] at hm0
  have hmon : v.get "monitor" = some (.table ms mh) := Except.ok.inj hm0
  have hpv : v.get "pv" = some (.table ps ph) := by
    rw [field_of_isTable (isTable_of_setField hr2),
      Val.get_setField_ne (by decide) hr1] at hp0
    exact Except.ok.inj hp0
  obtain ⟨x, rest, hxs⟩ := List.exists_cons_of_ne_nil (l := ms ++ [.str url]) (by simp)
  have hrest : (∀ m ∈ rest, m.isText) ∧ x.isText ↔ ∀ m ∈ ms, m.isText := by
    have hcons : (∀ m ∈ x :: rest, m.isText) ↔ ∀ m ∈ ms, m.isText := by
      rw [← hxs]
      simp [or_imp, forall_and]
    rw [← hcons, List.forall_mem_cons, and_comm]
  have hxt : x.isText := by
    simp only [item, hxs] at hx0
    cases hx0
    exact checkString_isOk.mp ⟨first, hfirst⟩
  simp only [setItem, hxs] at hm2
  cases hm2
  have e1 := Val.erase_setField_ne (j := "link") (by decide) hr1
  have e2 := Val.erase_setField_ne (j := "monitor") (by decide)
    (Val.erase_setField_ne (j := "link") (by decide) hr2)
  have e3 := Val.erase_setField_ne (j := "link") (by decide) hr
  have hpv' : ((v.erase "link").erase "monitor").get "pv" = some (.table ps ph) :=
    (Val.get_erase_ne (by decide)).trans ((Val.get_erase_ne (by decide)).trans hpv)
  refine ⟨isTable_setField hr, by simp [hpv, isList], ?_, ⟨ms, _, mh, hmon,
    Val.get_setField hr, ?_⟩, ?_, fun hnodup => ?_⟩
  · rw [Val.get_setField_ne (by decide) hr, Val.get_setField_ne (by decide) hr2,
      Val.get_setField_ne (by decide) hr1]
  · rw [← hrest]
    simp [hxt]
  · intro hnodup htext
    have hms : ∀ m ∈ ms, m.isText := by simpa [hmon, isTextList] using htext
    have d3 := Val.depth_setField e3
    have d2 := Val.depth_setField e2
    rw [Val.erase_setField e1] at d2
    have n1 : (v.erase "link").KeysNodup := hnodup.erase
    have d0 := Val.depth_get n1 ((Val.get_erase_ne (by decide)).trans hmon)
    have d1 := Val.depth_get (n1.erase (k := "monitor")) hpv'
    rw [d3, d2, d0, d1]
    simp [Val.depth, Val.depthArr_append, Val.depthArr, Val.depthArr_texts hms,
      Val.depthArr_texts (hrest.mpr hms).1]
  · -- the view URLs get a text more, the monitors too, and the first of these is a text now
    have hfin : (∀ m ∈ rest, m.finite) ↔ ∀ m ∈ ms.tail, m.finite := by
      have htail : rest = (ms ++ [Val.str url]).tail := by rw [hxs, List.tail_cons]
      rw [htail]
      cases ms <;> simp [or_imp, forall_and]
    rw [Val.finite_setField e3, Val.finite_setField e2, Val.erase_setField e1,
      Val.finite_get hnodup.erase.erase hpv']
    simp only [hmon, restFinite, Val.finite, Val.finiteArr_iff, Nat.sub_self, List.set_cons_zero,
      List.forall_mem_append, List.forall_mem_cons, hfin,
      Bool.and_eq_true, true_and]
    tauto

lemma alterSina_isOk (h : Ready c dspId creative.id winCpmPrice) (adUnitId : Str)
    (hv : c.lib.decode creative.html_snippet = .ok v) (hmon : isTextList (v.get "monitor"))
    (hpv : isList (v.get "pv")) :
    ∃ r, alterSinaDspCreative c creative adUnitId dspId winCpmPrice = .ok r := by
  have hvt : v.isTable := by
    cases v <;> first | rfl | cases hpv
  obtain ⟨url, hurl⟩ := h.clickUrl adUnitId
  obtain ⟨viewUrl, hview⟩ := h.viewUrl adUnitId
  obtain ⟨msg, hmsg⟩ := h.priceMsg
  rcases hm : v.get "monitor" with _ | m
  · simp [hm, isTextList] at hmon
  rcases hp : v.get "pv" with _ | p
  · simp [hp, isList] at hpv
  cases m with
  | table ms mh =>
    cases p with
    | table ps ph =>
      obtain ⟨r1, hr1⟩ := setField_ok (k := "monitor") (x := .table (ms ++ [.str url]) mh) hvt
      obtain ⟨r2, hr2⟩ := setField_ok (k := "pv") (x := .table (ps ++ [.str viewUrl]) ph)
        (isTable_setField hr1)
      have hp1 : r1.get "pv" = some (.table ps ph) := by
        rw [Val.get_setField_ne (by decide) hr1, hp]
      obtain ⟨x, rest, hxs⟩ := List.exists_cons_of_ne_nil (l := ms ++ [.str url]) (by simp)
      have hall : ∀ m ∈ ms ++ [.str url], m.isText := by
        have hms : ∀ m ∈ ms, m.isText := by simpa [hm, isTextList] using hmon
        simpa [or_imp, forall_and] using hms
      obtain ⟨first, hfirst⟩ := checkString_isOk (t := c.lib.tostring).mpr
        (hall x (by simp [hxs]))
      simp only [alterSinaDspCreative, hv]
      refine bind_isOk.mpr ⟨url, hurl, bind_isOk.mpr ⟨_, field_of_isTable hvt, ?_⟩⟩
      refine bind_isOk.mpr ⟨_, by rw [hm]; rfl, bind_isOk.mpr ⟨r1, hr1, ?_⟩⟩
      refine bind_isOk.mpr ⟨viewUrl, hview, ?_⟩
      refine bind_isOk.mpr ⟨_, field_of_isTable (isTable_setField hr1), ?_⟩
      refine bind_isOk.mpr ⟨_, by rw [hp1]; rfl, bind_isOk.mpr ⟨r2, hr2, ?_⟩⟩
      refine bind_isOk.mpr ⟨some x, by simp [item, hxs], bind_isOk.mpr ⟨first, hfirst, ?_⟩⟩
      refine bind_isOk.mpr ⟨msg, hmsg, bind_isOk.mpr ⟨_, rfl, ?_⟩⟩
      exact setField_ok (isTable_setField hr2)
    | _ => simp [hp, isList] at hpv
  | _ => simp [hm, isTextList] at hmon

end sina

/-! ### A creative for a WAP page -/

section wap

variable {c : Ctx} {creative : BidRsp.Creative} {adUnitId dspId : Str} {winCpmPrice : Option ℚ}
  {v r : Val}

/-- Expanding the macros of the first link touches the links alone, and keeps them texts or
not. -/
lemma wapLink_spec {lib : Ngx} {unesc esc : Str} {link : Option Val} {k : ℕ} (hvt : v.isTable)
    (hlink : v.get "link" = link) (hk : len link = .ok k)
    (h : wapLink lib unesc esc link k v = .ok r) :
    r.isTable ∧ r.get "pv" = v.get "pv" ∧ r.erase "link" = v.erase "link" ∧
      isTextList (r.get "link") = isTextList (v.get "link") := by
  unfold wapLink at h
  split at h
  · obtain ⟨y, hy, h⟩ := bind_ok.mp h
    obtain ⟨first, hfirst, h⟩ := bind_ok.mp h
    obtain ⟨l, hl, hr⟩ := bind_ok.mp h
    obtain ⟨s, hs, -⟩ := bind_ok.mp hfirst
    refine ⟨isTable_setField hr, Val.get_setField_ne (by decide) hr, Val.erase_setField hr, ?_⟩
    rw [Val.get_setField hr, hlink]
    rcases link with _ | link
    · cases hk
    cases link with
    | table ls lh =>
      cases hl
      cases ls with
      | nil =>
        cases hk
        contradiction
      | cons x rest =>
        cases hy
        simp [isTextList, checkString_isOk.mp ⟨s, hs⟩]
    | str _ =>
      cases hy
      cases hs
    | _ => cases hk
  · cases h
    exact ⟨hvt, rfl, rfl, rfl⟩

lemma wapLink_isOk (lib : Ngx) (unesc esc : Str) {link : Option Val} (hvt : v.isTable)
    (htext : isTextList link) :
    ∃ k, len link = .ok k ∧ ∃ r, wapLink lib unesc esc link k v = .ok r := by
  rcases link with _ | link
  · cases htext
  cases link with
  | table ls lh =>
    refine ⟨ls.length, rfl, ?_⟩
    cases ls with
    | nil => exact ⟨v, rfl⟩
    | cons x rest =>
      rw [wapLink, if_pos (by simp)]
      have hx : x.isText := by
        simp only [isTextList, List.all_cons, Bool.and_eq_true] at htext
        exact htext.1
      obtain ⟨s, hs⟩ := checkString_isOk (t := lib.tostring).mpr hx
      refine bind_isOk.mpr ⟨some x, rfl, bind_isOk.mpr ⟨_, bind_ok.mpr ⟨s, hs, rfl⟩, ?_⟩⟩
      exact bind_isOk.mpr ⟨_, rfl, setField_ok hvt⟩
  | _ => cases htext

/-- What altering leaves of the decoded content. -/
structure WapAltered (v r : Val) : Prop where
  isTable : r.isTable
  pv : isTextList (v.get "pv")
  link : isTextList (r.get "link") = isTextList (v.get "link")
  monitor : r.get "monitor" = some .empty
  depth : v.KeysNodup →
    (r.erase "link").depth = max 2 ((v.erase "link").erase "monitor").depth
  finite : (r.erase "link").finite = true ↔
    (((v.erase "link").erase "monitor").erase "pv").finite ∧ keysFinite (v.get "pv")

lemma alterWap_spec (hv : c.lib.decode creative.html_snippet = .ok v)
    (h : alterWapDspCreative c creative adUnitId dspId winCpmPrice = .ok r) :
    WapAltered v r := by
  simp only [alterWapDspCreative, hv] at h
  obtain ⟨unesc, -, h⟩ := bind_ok.mp h
  obtain ⟨link, hlink, h⟩ := bind_ok.mp h
  obtain ⟨k, hk, h⟩ := bind_ok.mp h
  obtain ⟨r1, hr1, h⟩ := bind_ok.mp h
  obtain ⟨msg, -, h⟩ := bind_ok.mp h
  obtain ⟨pv, hpv, h⟩ := bind_ok.mp h
  obtain ⟨ps, hps, h⟩ := bind_ok.mp h
  obtain ⟨urls, hurls, h⟩ := bind_ok.mp h
  obtain ⟨viewUrl, -, h⟩ := bind_ok.mp h
  obtain ⟨pv', hpv', h⟩ := bind_ok.mp h
  obtain ⟨r2, hr2, hr⟩ := bind_ok.mp h
  obtain ⟨ph, rfl⟩ := ipairs_ok.mp hps
  cases hpv'
  have hvt : v.isTable := by
    by_contra hnot
    cases v with
    | table => exact hnot rfl
    | str => cases hlink; cases hk
    | _ => cases hlink
  rw [field_of_isTable hvt] at hlink
  obtain ⟨h1t, h1pv, h1erase, h1link⟩ := wapLink_spec hvt (Except.ok.inj hlink) hk hr1
  rw [field_of_isTable h1t, h1pv] at hpv
  have hpv := Except.ok.inj hpv
  have htext : ∀ p ∈ ps, p.isText := by
    intro p hp
    obtain ⟨u, hu⟩ := mapM_isOk.mp ⟨urls, hurls⟩ p hp
    obtain ⟨s, hs, -⟩ := bind_ok.mp hu
    exact checkString_isOk.mp ⟨s, hs⟩
  have e2 := Val.erase_setField_ne (j := "monitor") (by decide)
    (Val.erase_setField_ne (j := "link") (by decide) hr2)
  have e3 := Val.erase_setField_ne (j := "link") (by decide) hr
  have hstr : ∀ p ∈ urls.map Val.str, p.isText := by simp
  refine ⟨isTable_setField hr, by simpa [hpv, isTextList] using htext, ?_,
    Val.get_setField hr, ?_, ?_⟩
  · rw [Val.get_setField_ne (by decide) hr, Val.get_setField_ne (by decide) hr2, h1link]
  · intro hnodup
    have d2 := Val.depth_setField e2
    have d3 := Val.depth_setField e3
    have n1 : ((v.erase "link").erase "monitor").KeysNodup := hnodup.erase.erase
    have d1 := Val.depth_get n1
      ((Val.get_erase_ne (by decide)).trans ((Val.get_erase_ne (by decide)).trans hpv))
    rw [d3, d2, h1erase, d1]
    simp [Val.empty, Val.depth, Val.depthArr, Val.depthHash, Val.depthArr_texts htext,
      Val.depthArr_texts hstr]
  · rw [Val.finite_setField e3, Val.finite_setField e2, h1erase]
    simp [hpv, keysFinite, Val.empty, Val.finite, Val.finiteArr, Val.finiteHash,
      Val.finiteArr_iff, and_comm]

lemma alterWap_isOk (h : Ready c dspId creative.id winCpmPrice) (adUnitId : Str)
    (hv : c.lib.decode creative.html_snippet = .ok v) (hlink : isTextList (v.get "link"))
    (hpv : isTextList (v.get "pv")) :
    ∃ r, alterWapDspCreative c creative adUnitId dspId winCpmPrice = .ok r := by
  have hvt : v.isTable := by
    cases v <;> first | rfl | cases hpv
  obtain ⟨unesc, hunesc⟩ := h.clickUrlUnesc adUnitId
  obtain ⟨viewUrl, hview⟩ := h.viewUrl adUnitId
  obtain ⟨msg, hmsg⟩ := h.priceMsg
  obtain ⟨k, hk, r1, hr1⟩ := wapLink_isOk c.lib unesc (c.lib.escape_uri unesc) hvt hlink
  obtain ⟨h1t, h1pv, -, -⟩ := wapLink_spec hvt rfl hk hr1
  rcases hp : v.get "pv" with _ | p
  · simp [hp, isTextList] at hpv
  cases p with
  | table ps ph =>
    have htext : ∀ p ∈ ps, p.isText := by simpa [hp, isTextList] using hpv
    have hurls : ∃ urls, ps.mapM (fun pvUrl =>
        gsub c.lib (some pvUrl) RTB_MACRO_WIN_PRICE (c.lib.escape_uri msg)) = .ok urls := by
      refine mapM_isOk.mpr fun p hmem => ?_
      obtain ⟨s, hs⟩ := checkString_isOk (t := c.lib.tostring).mpr (htext p hmem)
      exact ⟨_, bind_ok.mpr ⟨s, hs, rfl⟩⟩
    obtain ⟨urls, hurls⟩ := hurls
    simp only [alterWapDspCreative, hv]
    refine bind_isOk.mpr ⟨unesc, hunesc, bind_isOk.mpr ⟨_, field_of_isTable hvt, ?_⟩⟩
    refine bind_isOk.mpr ⟨k, hk, bind_isOk.mpr ⟨r1, hr1, bind_isOk.mpr ⟨msg, hmsg, ?_⟩⟩⟩
    refine bind_isOk.mpr ⟨_, field_of_isTable h1t, bind_isOk.mpr ⟨ps, by rw [h1pv, hp]; rfl, ?_⟩⟩
    refine bind_isOk.mpr ⟨urls, hurls, bind_isOk.mpr ⟨viewUrl, hview, ?_⟩⟩
    refine bind_isOk.mpr ⟨_, by rw [h1pv, hp]; rfl, ?_⟩
    obtain ⟨r2, hr2⟩ := setField_ok (k := "pv")
      (x := .table (.str viewUrl :: urls.map .str) ph) h1t
    exact bind_isOk.mpr ⟨r2, hr2, setField_ok (isTable_setField hr2)⟩
  | _ => simp [hp, isTextList] at hpv

end wap

/-! ### The content of a creative -/

section content

variable {c : Ctx} {creative : BidRsp.Creative} {adUnitId dspId : Str} {winCpmPrice : Option ℚ}

/-- The creative is altered and its content logged. -/
def Altered (c : Ctx) (adUnitId dspId : Str) (winCpmPrice : Option ℚ)
    (creative : BidRsp.Creative) : Prop :=
  ∃ temp, content c adUnitId dspId winCpmPrice creative = .ok temp ∧
    ∃ s, c.lib.encode temp = .ok s

/-- The text `""` that stands for an undecodable snippet has no links to sign. -/
lemma fillSign_text {s : Str} : ¬ ∃ t, fillSign c (.str s) dspId = .ok t := by
  rintro ⟨t, h⟩
  obtain ⟨_, -, h⟩ := bind_ok.mp h
  obtain ⟨link, hlink, h⟩ := bind_ok.mp h
  cases hlink
  cases h

lemma keysNodup_of_decode {s : Str} {v : Val} (h : c.lib.decode s = .ok v) : v.KeysNodup := by
  unfold Ngx.decode at h
  split at h
  · next hd => cases h; exact c.lib.decode_keys s _ hd
  · cases h

lemma sina_isOk (h : Ready c dspId creative.id winCpmPrice) (adUnitId : Str) :
    (∃ r, alterSinaDspCreative c creative adUnitId dspId winCpmPrice = .ok r ∧
      ∃ t, fillSign c r dspId = .ok t ∧ ∃ s, c.lib.encode t = .ok s) ↔
    ∃ v, c.lib.decode creative.html_snippet = .ok v ∧ SinaShape v := by
  obtain ⟨n, hn⟩ := h.signKey
  constructor
  · rintro ⟨r, hr, t, ht, henc⟩
    cases hv : c.lib.decode creative.html_snippet with
    | error e =>
      simp only [alterSinaDspCreative, hv] at hr
      cases hr
      exact absurd ⟨t, ht⟩ fillSign_text
    | ok v =>
      obtain ⟨htab, hpv, hlink, ⟨ms, ms', mh, hmon, hmon', htext⟩, hdepth, hfin⟩ :=
        alterSina_spec hv hr
      obtain ⟨hlinks, hms⟩ := (fillSign_isOk hn hmon').mp ⟨t, ht⟩
      have hmtext : isTextList (v.get "monitor") := by
        simpa [hmon, isTextList] using htext.mp hms
      have hnodup := keysNodup_of_decode hv
      obtain ⟨hle, hfinite⟩ := Ngx.encode_isOk.mp henc
      rw [fillSign_depth htab hn ht, hdepth hnodup hmtext] at hle
      rw [fillSign_finite htab hn ht, hfin hnodup] at hfinite
      exact ⟨v, rfl, hmtext, hpv, hlink ▸ hlinks, le_trans (le_max_right _ _) hle, hfinite⟩
  · rintro ⟨v, hv, hmtext, hpv, hlinks, hle, hfinite⟩
    obtain ⟨r, hr⟩ := alterSina_isOk h adUnitId hv hmtext hpv
    obtain ⟨htab, -, hlink, ⟨ms, ms', mh, hmon, hmon', htext⟩, hdepth, hfin⟩ :=
      alterSina_spec hv hr
    have hms : ∀ m ∈ ms, m.isText := by simpa [hmon, isTextList] using hmtext
    obtain ⟨t, ht⟩ := (fillSign_isOk hn hmon').mpr ⟨hlink ▸ hlinks, htext.mpr hms⟩
    have hnodup := keysNodup_of_decode hv
    refine ⟨r, hr, t, ht, Ngx.encode_isOk.mpr ⟨?_, ?_⟩⟩
    · rw [fillSign_depth htab hn ht, hdepth hnodup hmtext]
      exact max_le (by decide) hle
    · rw [fillSign_finite htab hn ht, hfin hnodup]
      exact hfinite

lemma wap_isOk (h : Ready c dspId creative.id winCpmPrice) (adUnitId : Str) :
    (∃ r, alterWapDspCreative c creative adUnitId dspId winCpmPrice = .ok r ∧
      ∃ t, fillSign c r dspId = .ok t ∧ ∃ s, c.lib.encode t = .ok s) ↔
    ∃ v, c.lib.decode creative.html_snippet = .ok v ∧ WapShape v := by
  obtain ⟨n, hn⟩ := h.signKey
  constructor
  · rintro ⟨r, hr, t, ht, henc⟩
    cases hv : c.lib.decode creative.html_snippet with
    | error e =>
      simp only [alterWapDspCreative, hv] at hr
      cases hr
      exact absurd ⟨t, ht⟩ fillSign_text
    | ok v =>
      obtain ⟨htab, hpv, hlink, hmon, hdepth, hfin⟩ := alterWap_spec hv hr
      obtain ⟨hlinks, -⟩ := (fillSign_isOk hn hmon).mp ⟨t, ht⟩
      obtain ⟨hle, hfinite⟩ := Ngx.encode_isOk.mp henc
      rw [fillSign_depth htab hn ht, hdepth (keysNodup_of_decode hv)] at hle
      rw [fillSign_finite htab hn ht, hfin] at hfinite
      exact ⟨v, rfl, hlink ▸ hlinks, hpv,
        le_trans (le_trans (le_max_right _ _) (le_max_right _ _)) hle, hfinite⟩
  · rintro ⟨v, hv, hlinks, hpv, hle, hfinite⟩
    obtain ⟨r, hr⟩ := alterWap_isOk h adUnitId hv hlinks hpv
    obtain ⟨htab, -, hlink, hmon, hdepth, hfin⟩ := alterWap_spec hv hr
    obtain ⟨t, ht⟩ := (fillSign_isOk hn hmon).mpr ⟨hlink.trans hlinks, by simp⟩
    refine ⟨r, hr, t, ht, Ngx.encode_isOk.mpr ⟨?_, ?_⟩⟩
    · rw [fillSign_depth htab hn ht, hdepth (keysNodup_of_decode hv)]
      exact max_le (by decide) (max_le (by decide) hle)
    · rw [fillSign_finite htab hn ht, hfin]
      exact hfinite

/-- **A winning creative goes through exactly when its snippet has the shape its page needs.** -/
theorem altered_iff (h : Ready c dspId creative.id winCpmPrice) (adUnitId : Str) :
    Altered c adUnitId dspId winCpmPrice creative ↔
      Alterable c dspId creative.html_snippet := by
  unfold Altered Alterable content
  by_cases hs : dspId = SINA_DSP_ID
  · simp only [hs, if_true, bind_ok]
    rw [← hs, ← sina_isOk h adUnitId]
    constructor
    · rintro ⟨t, ⟨r, hr, ht⟩, henc⟩
      exact ⟨r, hr, t, ht, henc⟩
    · rintro ⟨r, hr, t, ht, henc⟩
      exact ⟨t, ⟨r, hr, ht⟩, henc⟩
  · simp only [hs, if_false]
    cases c.adReq.publisherType with
    | wap =>
      simp only [bind_ok]
      rw [← wap_isOk h adUnitId]
      constructor
      · rintro ⟨t, ⟨r, hr, ht⟩, henc⟩
        exact ⟨r, hr, t, ht, henc⟩
      · rintro ⟨r, hr, t, ht, henc⟩
        exact ⟨t, ⟨r, hr, ht⟩, henc⟩
    | pc =>
      refine iff_of_true ?_ trivial
      obtain ⟨unesc, hunesc⟩ := h.clickUrlUnesc adUnitId
      obtain ⟨viewUrl, hview⟩ := h.viewUrl adUnitId
      obtain ⟨msg, hmsg⟩ := h.priceMsg
      refine ⟨_, bind_ok.mpr ⟨_, bind_ok.mpr ⟨unesc, hunesc, bind_ok.mpr ⟨msg, hmsg, rfl⟩⟩,
        bind_ok.mpr ⟨viewUrl, hview, rfl⟩⟩, Ngx.encode_isOk.mpr ⟨?_, ?_⟩⟩
      · refine le_trans (b := 2) ?_ (by decide)
        simp [Val.obj, Val.strs, Val.empty, Val.depth, Val.depthArr, Val.depthHash]
      · simp [Val.empty, Val.finite, Val.finiteArr, Val.finiteHash]

lemma contents_isOk {creatives : List BidRsp.Creative}
    (h : ∀ cr ∈ creatives, Ready c dspId cr.id winCpmPrice) :
    (∃ temps, contents c adUnitId dspId winCpmPrice creatives = .ok temps) ↔
      ∀ cr ∈ creatives, Alterable c dspId cr.html_snippet := by
  rw [contents, mapM_isOk]
  refine forall₂_congr fun cr hcr => ?_
  rw [← altered_iff (h cr hcr) adUnitId]
  constructor
  · rintro ⟨t, ht⟩
    obtain ⟨temp, htemp, ht⟩ := bind_ok.mp ht
    obtain ⟨s, hs, -⟩ := bind_ok.mp ht
    exact ⟨temp, htemp, s, hs⟩
  · rintro ⟨temp, htemp, s, hs⟩
    exact ⟨temp, bind_ok.mpr ⟨temp, htemp, bind_ok.mpr ⟨s, hs, rfl⟩⟩⟩

end content

end Sax.Shape
