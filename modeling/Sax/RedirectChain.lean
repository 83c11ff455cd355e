import Sax.ClickSign

/-!
The redirects of a click: each monitor takes the next URL of the chain as its argument `url`, and
`fillSign` nests them around the link from the last one on.
-/

namespace Sax.RedirectChain

open Sax.LuaVal Sax.Loop Sax.Runtime Sax.Const Sax.Creative Sax.Uri Sax.Replace Sax.ClickSign
open Sax.ObjectInfo (lower)

/-! ### Following a chain -/

/-- Where a URL leads: its argument `url`, decoded. -/
def follow (url : Str) : Option Str := (arg (lit "url") (query url)).map unescape_uri

/-- The monitor as it was given, with arguments added. -/
def Visits (monitor url : Str) : Prop :=
  ∃ args, url = monitor ++ (if question ∈ monitor then ampersand else question) :: args

/-- The URL leads through the monitors to the link. -/
inductive Leads (link : Str) : Str → List Str → Prop
  | done : Leads link link []
  | hop {url next monitor : Str} {monitors : List Str} (visits : Visits monitor url)
    (follows : follow url = some next) (leads : Leads link next monitors) :
    Leads link url (monitor :: monitors)

/-- The monitors that are not empty. -/
def nonEmpty (monitors : List Str) : List Str := monitors.filter (· ≠ [])

/-- No monitor is empty, has a `#`, or has an argument `url` of its own; or the first that has such
an argument is led by it through the monitors left to the link. -/
def Fits (link : Str) : List Str → Prop
  | [] => True
  | monitor :: monitors =>
    monitor ≠ [] ∧
      match arg (lit "url") (query monitor) with
      | some v => Leads link (unescape_uri v) (nonEmpty monitors)
      | none => hash ∉ monitor ∧ Fits link monitors

section leads

variable {link url monitor : Str} {monitors : List Str}

lemma leads_nil_iff : Leads link url [] ↔ url = link := by
  constructor
  · intro h
    cases h
    rfl
  · rintro rfl
    exact .done

lemma leads_cons_iff : Leads link url (monitor :: monitors) ↔
    Visits monitor url ∧ ∃ next, follow url = some next ∧ Leads link next monitors := by
  constructor
  · rintro (_ | ⟨visits, follows, leads⟩)
    exact ⟨visits, _, follows, leads⟩
  · rintro ⟨visits, _, follows, leads⟩
    exact .hop visits follows leads

end leads

/-! ### The nested URL -/

/-- `monitorUrl .. notation .. const.RTB_CLICK_ARG_URL .. "=" .. ngx.escape_uri(linkUrl)` -/
def wrap (monitor url : Str) : Str :=
  monitor ++ notation_ monitor ++ RTB_CLICK_ARG_URL ++ lit "=" ++ escape_uri url

/-- The monitors around the link. -/
def nest (link : Str) (monitors : List Str) : Str := monitors.foldr wrap link

/-- What comes after the nested URL: nothing, or the signature. -/
def Tail (tail : Str) : Prop :=
  tail = [] ∨ ∃ sign, (∀ b ∈ sign, b ∉ lit "%+&=?#/: \"") ∧
    tail = lit "&" ++ RTB_CLICK_ARG_SIGN ++ lit "=" ++ sign

section nest

variable {link monitor tail url : Str} {monitors : List Str}

lemma nest_cons (link monitor : Str) (monitors : List Str) :
    nest link (monitor :: monitors) = wrap monitor (nest link monitors) := rfl

lemma visits_wrap (monitor url tail : Str) : Visits monitor (wrap monitor url ++ tail) := by
  refine ⟨RTB_CLICK_ARG_URL ++ lit "=" ++ escape_uri url ++ tail, ?_⟩
  rw [wrap, notation_eq]
  split <;> simp

/-- The arguments added to a monitor have the next URL. -/
lemma arg_added (htail : Tail tail) (url : Str) :
    hash ∉ RTB_CLICK_ARG_URL ++ lit "=" ++ escape_uri url ++ tail ∧
      arg (lit "url") (RTB_CLICK_ARG_URL ++ lit "=" ++ escape_uri url ++ tail) =
        some (escape_uri url) := by
  have hescape : ampersand ∉ escape_uri url := fun h => escape_uri_plain h (by decide)
  have hhash : hash ∉ RTB_CLICK_ARG_URL ++ lit "=" ++ escape_uri url := by
    simp only [List.mem_append, not_or]
    exact ⟨⟨by decide, by decide⟩, fun h => escape_uri_plain h (by decide)⟩
  have hname : lower RTB_CLICK_ARG_URL = lit "url" := by decide
  have hequals : lit "=" = [equals] := by decide
  have hurl : arg (lit "url") (RTB_CLICK_ARG_URL ++ lit "=" ++ escape_uri url) =
      some (escape_uri url) := by
    rw [hequals, List.append_assoc, List.singleton_append,
      arg_pair (by decide) (by decide) (by decide) hescape, if_pos hname]
  rcases htail with rfl | ⟨sign, hsign, rfl⟩
  · rw [List.append_nil]
    exact ⟨hhash, hurl⟩
  · have hampersand : lit "&" = [ampersand] := by decide
    constructor
    · rw [List.mem_append, not_or]
      refine ⟨hhash, ?_⟩
      simp only [List.mem_append, not_or]
      exact ⟨⟨⟨by decide, by decide⟩, by decide⟩, fun h => hsign _ h (by decide)⟩
    · rw [hampersand, List.append_assoc [ampersand], List.append_assoc [ampersand],
        List.singleton_append, arg_append, hurl, Option.some_or]

/-- **Where a monitor leads**: its own argument comes first, and a `#` hides what was added. -/
lemma follow_wrap (htail : Tail tail) (monitor url : Str) :
    follow (wrap monitor url ++ tail) =
      match arg (lit "url") (query monitor) with
      | some v => some (unescape_uri v)
      | none => if hash ∈ monitor then none else some url := by
  obtain ⟨hadded, harg⟩ := arg_added htail url
  have happ : wrap monitor url ++ tail = monitor ++ notation_ monitor ++
      (RTB_CLICK_ARG_URL ++ lit "=" ++ escape_uri url ++ tail) := by simp [wrap]
  unfold follow
  by_cases hhash : hash ∈ monitor
  · rw [happ, List.append_assoc monitor, query_append_of_hash hhash, if_pos hhash]
    cases arg (lit "url") (query monitor) <;> rfl
  · rw [happ, arg_query_append (by decide) hhash hadded, harg, if_neg hhash]
    cases arg (lit "url") (query monitor) with
    | none => rw [Option.none_or, Option.map_some, unescape_escape]
    | some v => rfl

/-! ### An empty monitor -/

lemma length_le_escape (s : Str) : s.length ≤ (escape_uri s).length := by
  have h := length_unescape_le .usual (escape_uri s)
  change (unescape_uri (escape_uri s)).length ≤ _ at h
  rwa [unescape_escape] at h

lemma length_wrap (monitor url : Str) :
    monitor.length + url.length + 5 ≤ (wrap monitor url).length := by
  have hsep : (notation_ monitor).length = 1 := by
    rw [notation_eq]
    split <;> rfl
  have hname : RTB_CLICK_ARG_URL.length = 3 := by decide
  have hequals : (lit "=").length = 1 := by decide
  have hescape := length_le_escape url
  simp only [wrap, List.length_append]
  omega

lemma length_link_le (link : Str) (monitors : List Str) :
    link.length ≤ (nest link monitors).length := by
  induction monitors with
  | nil => exact le_rfl
  | cons monitor monitors ih =>
    have h := length_wrap monitor (nest link monitors)
    rw [nest_cons]
    omega

lemma length_monitor_le (h : monitor ∈ monitors) :
    monitor.length ≤ (nest link monitors).length := by
  induction monitors with
  | nil => cases h
  | cons first monitors ih =>
    have hwrap := length_wrap first (nest link monitors)
    rw [nest_cons]
    rcases List.mem_cons.mp h with rfl | h
    · omega
    · have := ih h
      omega

lemma wrap_nil (url : Str) : wrap [] url = lit "?url=" ++ escape_uri url := by
  have h : notation_ [] = lit "?" := by decide
  rw [wrap, h]
  rfl

/-- What is made of an empty monitor visits none that is shorter than the rest of the URL. -/
lemma not_visits_wrap_nil (hne : monitor ≠ [])
    (hlength : monitor.length ≤ url.length) : ¬ Visits monitor (wrap [] url ++ tail) := by
  rintro ⟨args, h⟩
  rw [wrap_nil] at h
  by_cases hquestion : question ∈ monitor
  · rw [if_pos hquestion] at h
    have hescape := length_le_escape url
    have hget : (lit "?url=" ++ escape_uri url ++ tail)[monitor.length]? = some ampersand := by
      rw [h, List.getElem?_append_right le_rfl, Nat.sub_self]
      rfl
    have hshort : monitor.length < (lit "?url=" ++ escape_uri url).length := by
      have hfive : (lit "?url=").length = 5 := by decide
      rw [List.length_append]
      omega
    rw [List.getElem?_append_left hshort] at hget
    rcases List.mem_append.mp (List.mem_of_getElem? hget) with h | h
    · exact absurd h (by decide)
    · exact escape_uri_plain h (by decide)
  · obtain ⟨b, rest, rfl⟩ := List.exists_cons_of_ne_nil hne
    have hb : some question = some b := congrArg List.head? h
    cases hb
    exact hquestion List.mem_cons_self

lemma not_leads_wrap_nil (link tail : Str) (monitors : List Str) :
    ¬ Leads link (wrap [] (nest link monitors) ++ tail) (nonEmpty monitors) := by
  intro h
  cases hmonitors : nonEmpty monitors with
  | nil =>
    rw [hmonitors, leads_nil_iff] at h
    have hlength := congrArg List.length h
    have hwrap := length_wrap [] (nest link monitors)
    have hlink := length_link_le link monitors
    rw [List.length_append] at hlength
    omega
  | cons monitor rest =>
    have hmem : monitor ∈ nonEmpty monitors := hmonitors ▸ List.mem_cons_self
    obtain ⟨hmem, hne⟩ := List.mem_filter.mp hmem
    rw [hmonitors, leads_cons_iff] at h
    exact not_visits_wrap_nil (of_decide_eq_true hne) (length_monitor_le hmem) h.1

end nest

/-- **When a nested URL leads through the monitors to the link**, with the signature after it or
not. -/
theorem leads_nest_iff {tail : Str} (htail : Tail tail) (link : Str) (monitors : List Str) :
    Leads link (nest link monitors ++ tail) (nonEmpty monitors) ↔
      (monitors = [] → tail = []) ∧ Fits link monitors := by
  induction monitors generalizing tail with
  | nil =>
    have hiff : link ++ tail = link ↔ tail = [] := List.append_right_eq_self
    simp [nest, nonEmpty, leads_nil_iff, Fits, hiff]
  | cons monitor monitors ih =>
    have ih := ih (Or.inl rfl : Tail [])
    rw [List.append_nil] at ih
    rw [nest_cons, Fits]
    by_cases hne : monitor = []
    · subst hne
      have hnonEmpty : nonEmpty ([] :: monitors) = nonEmpty monitors := rfl
      rw [hnonEmpty]
      exact iff_of_false (not_leads_wrap_nil link tail monitors) fun h => h.2.1 rfl
    · have hnonEmpty : nonEmpty (monitor :: monitors) = monitor :: nonEmpty monitors := by
        simp [nonEmpty, hne]
      have hvisits := visits_wrap monitor (nest link monitors) tail
      rw [hnonEmpty, leads_cons_iff, follow_wrap htail]
      cases arg (lit "url") (query monitor) with
      | some v => simp [hvisits, hne]
      | none =>
        by_cases hhash : hash ∈ monitor
        · simp [hhash]
        · simp [hvisits, hne, hhash, ih]

/-! ### `fillSign` -/

/-- The chain from the URL that was made of a link: it leads through the monitors that are not
empty and ends at the link. -/
def Chained (monitors : List Str) (link url : Val) : Prop :=
  ∃ l u, link = .str l ∧ url = .str u ∧ Leads l u (nonEmpty monitors)

section fillSign

variable {c : BidRsp.Ctx} {content content' : Val} {dspId link : Str} {links monitors : List Str}
  {g g' : List (Str × Val)}

/-- The loop over the first `n` monitors, with the later ones around the link. -/
lemma wrapMonitors_texts (hlib : Nginx c.lib) (g : List (Str × Val)) (link : Str) {n : ℕ}
    (hn : n ≤ monitors.length) :
    wrapMonitors c.lib (some (.table (monitors.map .str) g)) n
        (.str (nest link (monitors.drop n))) = .ok (.str (nest link monitors)) := by
  induction n with
  | zero => rfl
  | succ n ih =>
    have hget : monitors[n]? = some monitors[n] := List.getElem?_eq_getElem hn
    have hitem : item (n + 1) (some (.table (monitors.map .str) g)) =
        .ok (some (.str monitors[n])) := by
      simp [item, hget]
    have hdrop : monitors.drop n = monitors[n] :: monitors.drop (n + 1) :=
      List.drop_eq_getElem_cons hn
    have hwrap : wrapMonitor c.lib (some (.str monitors[n]))
        (.str (nest link (monitors.drop (n + 1)))) =
          .ok (.str (nest link (monitors.drop n))) := by
      rw [hdrop, nest_cons, wrap, ← hlib.escape_uri]
      rfl
    rw [wrapMonitors, hitem, ok_bind, hwrap, ok_bind]
    exact ih (Nat.le_of_succ_le hn)

/-- What becomes of one link. -/
lemma signLink_text (hlib : Nginx c.lib)
    (hmonitor : content.get "monitor" = some (.table (monitors.map .str) g)) {signkey : Option ℤ}
    {url : Val} (h : signLink c signkey true content (.str link) = .ok url) :
    ∃ tail, Tail tail ∧ tail ≠ [] ∧ url = .str (nest link monitors ++ tail) := by
  have htable : content.isTable := by
    cases content <;> first | rfl | cases hmonitor
  have hwrap := wrapMonitors_texts hlib g link (le_refl monitors.length)
  rw [List.drop_length] at hwrap
  unfold signLink at h
  rw [field_of_isTable htable, hmonitor, ok_bind, len, ok_bind, List.length_map] at h
  change wrapMonitors c.lib _ _ (.str link) = _ at hwrap
  rw [hwrap, ok_bind, if_pos rfl] at h
  obtain ⟨_, hu, h⟩ := bind_ok.mp h
  cases hu
  obtain ⟨sign, hsign, h⟩ := bind_ok.mp h
  obtain ⟨key, -, hsign⟩ := bind_ok.mp hsign
  cases hsign
  cases h
  refine ⟨lit "&" ++ RTB_CLICK_ARG_SIGN ++ lit "=" ++ c.lib.to_hex
    ((c.lib.hmac_sha1 (c.lib.tostring key) (nest link monitors)).take 16),
    .inr ⟨_, fun b hb => ?_, rfl⟩, fun hnil => ?_, by simp⟩
  · rw [hlib.to_hex] at hb
    exact hexDump_plain hb
  · cases hnil

lemma chained_iff (hlib : Nginx c.lib)
    (hmonitor : content.get "monitor" = some (.table (monitors.map .str) g)) {signkey : Option ℤ}
    {url : Val} (h : signLink c signkey true content (.str link) = .ok url) :
    Chained monitors (.str link) url ↔ monitors ≠ [] ∧ Fits link monitors := by
  obtain ⟨tail, htail, hne, rfl⟩ := signLink_text hlib hmonitor h
  have hleads := leads_nest_iff htail link monitors
  constructor
  · rintro ⟨_, _, ⟨⟩, ⟨⟩, hl⟩
    obtain ⟨hnil, hfits⟩ := hleads.mp hl
    exact ⟨fun h => hne (hnil h), hfits⟩
  · rintro ⟨hmonitors, hfits⟩
    exact ⟨_, _, rfl, rfl, hleads.mpr ⟨fun h => absurd h hmonitors, hfits⟩⟩

lemma all_chained_iff (hlib : Nginx c.lib)
    (hmonitor : content.get "monitor" = some (.table (monitors.map .str) g)) {signkey : Option ℤ}
    {urls : List Val} (h : (links.map .str).mapM (signLink c signkey true content) = .ok urls) :
    List.Forall₂ (Chained monitors) (links.map .str) urls ↔
      ∀ link ∈ links, monitors ≠ [] ∧ Fits link monitors := by
  induction links generalizing urls with
  | nil =>
    cases h
    simp
  | cons link links ih =>
    obtain ⟨url, hurl, urls, hurls, rfl⟩ := mapM_cons_ok.mp h
    rw [List.map_cons, List.forall₂_cons, ih hurls, chained_iff hlib hmonitor hurl,
      List.forall_mem_cons]

/-- **When the links of a signed content lead through the monitors**: there are monitors, and they
fit. -/
theorem chains_iff (hlib : Nginx c.lib) (h : fillSign c content dspId = .ok content')
    (hlink : content.get "link" = some (.table (links.map .str) g')) (hne : links ≠ [])
    (hmonitor : content.get "monitor" = some (.table (monitors.map .str) g)) :
    (∃ urls, content'.get "link" = some (.arr urls) ∧
        List.Forall₂ (Chained monitors) (links.map .str) urls) ↔
      monitors ≠ [] ∧ ∀ link ∈ links, Fits link monitors := by
  have htable : content.isTable := by
    cases content <;> first | rfl | cases hlink
  unfold fillSign at h
  obtain ⟨signkey, -, h⟩ := bind_ok.mp h
  have hlength : (links.map Val.str).length ≠ 0 := by
    rw [List.length_map]
    exact fun h => hne (List.length_eq_zero_iff.mp h)
  rw [field_of_isTable htable, hlink, ok_bind, len, ok_bind] at h
  simp only [startLinks, hlength, ne_eq, not_false_eq_true, decide_true, if_true, ok_bind,
    ipairs] at h
  obtain ⟨urls, hurls, h⟩ := bind_ok.mp h
  have hget := Val.get_setField h
  have hchained := all_chained_iff hlib hmonitor hurls
  constructor
  · rintro ⟨urls', hurls', hall⟩
    rw [hget] at hurls'
    cases hurls'
    have hfits := hchained.mp hall
    obtain ⟨link, hmem⟩ := List.exists_mem_of_ne_nil _ hne
    exact ⟨(hfits link hmem).1, fun link hmem => (hfits link hmem).2⟩
  · rintro ⟨hmonitors, hfits⟩
    exact ⟨urls, hget, hchained.mpr fun link hmem => ⟨hmonitors, hfits link hmem⟩⟩

end fillSign

section samples

theorem chains_iff_sample :
    (∃ urls, (signedContent sampleMonitor "3b23d713dc858df68a831af76c321a0a").get "link" =
        some (.arr urls) ∧
      List.Forall₂ (Chained [sampleMonitor]) ([lit "http://l"].map .str) urls) ↔
    [sampleMonitor] ≠ [] ∧ ∀ link ∈ [lit "http://l"], Fits link [sampleMonitor] := by
  have hsign : fillSign sampleCtx (sampleContent sampleMonitor) (lit "2") =
      .ok (signedContent sampleMonitor "3b23d713dc858df68a831af76c321a0a") := by decide +kernel
  exact chains_iff sample_nginx hsign rfl (by simp) rfl

/-- The content of the sample with an empty monitor before the other one, and this link. -/
def emptyFirst (link : Str) : Val :=
  .obj [("link", .arr [.str link]), ("monitor", .arr [.str [], .str (lit "http://m")])]

def emptyFirstUrl : Str :=
  lit "?url=http%3a%2f%2fm%3furl%3dhttp%253a%252f%252fl&sign=00000000000000000000000000000000"

/-- The URL an empty monitor makes is that of no monitor and not the link. -/
theorem empty_monitor_breaks :
    fillSign sampleCtx (emptyFirst (lit "http://l")) (lit "2") = .ok (emptyFirst emptyFirstUrl) ∧
      ¬ Leads (lit "http://l") emptyFirstUrl (nonEmpty [[], lit "http://m"]) := by
  refine ⟨by decide +kernel, fun h => ?_⟩
  obtain ⟨⟨args, hvisits⟩, -⟩ := leads_cons_iff.mp h
  have hne : lit "http://m" ≠ lit "?url=htt" := by decide
  have htake := congrArg (List.take 8) hvisits
  rw [List.take_left' (by rfl)] at htake
  exact hne htake.symm

end samples

end Sax.RedirectChain
