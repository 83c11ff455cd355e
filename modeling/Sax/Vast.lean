import Sax.VideoRtb

/-!
Reading a VAST document: `getContent` of `video_rtb.lua`, which collects what it finds while the
parser runs.

The parser calls back at the start of an element, at a text, and at the end of an element. What
becomes of a text is decided by a handler, which the start of some elements sets and the end of any
element takes away.
-/

namespace Sax.Vast

open Sax.LuaVal Sax.Loop Sax.Runtime

abbrev Attrs := List (Str × Str)

/-- What the parser calls back with. `media` is the number of the `MediaFile` element that starts,
or that the text stands in; the callbacks do not have it and only put it beside what they keep. -/
inductive Event
  | start (tagName : Str) (attrs : Attrs) (media : ℕ)
  | text (str : Str) (media : Option ℕ)
  | stop

/-- What the parser made of a markup: its calls, and whether it took the markup without an error. -/
structure Parsed where
  events : List Event
  succ : Bool

/-- An entry of a list, beside the number of the element it was made for. -/
abbrev Entry := Option ℕ × Str

structure Content where
  src : List Entry := []
  len : List ℚ := []
  size : List Entry := []
  type : List Entry := []
  volume : List Str := []
  link : List Str := []
  monitor : List Str := []
  pvBegin : List Str := []
  pvEnd : List Str := []

/-- The functions `callbacks.CharacterData` is set to. -/
inductive Handler
  | len
  | src
  | pvBegin
  | pvEnd
  | monitor
  | link
  deriving DecidableEq

/-- The lists so far, and `callbacks.CharacterData`, which is `false` at first. -/
structure St where
  content : Content
  handler : Option Handler

section source

/-- `%s` -/
def isSpace (c : UInt8) : Bool := c = 32 || (9 ≤ c && c ≤ 13)

/-- `util.trim` -/
def trim (str : Str) : Str := ((str.dropWhile isSpace).reverse.dropWhile isSpace).reverse

def slash : UInt8 := 47

def colon : UInt8 := 58

/-- The type of a media file, `nil` where `tp` has one part. -/
def formatType (tp : Option Str) : Lua (Option Str) := do
  match tp with
  | none => throw .badArgument
  | some tp =>
    let tmp := split slash tp
    if tmp[1]? = some (lit "x-shockwave-flash") then return some (lit "swf")
    else if tmp[1]? = some (lit "x-flv") then return some (lit "flv")
    else if tmp[0]? = some (lit "image") then return some (lit "image")
    else return tmp[1]?

/-- `attrs.width .. "_" .. attrs.height` -/
def formatSize (width height : Option Str) : Lua Str :=
  match width, height with
  | some width, some height => .ok (width ++ lit "_" ++ height)
  | _, _ => .error .badConcat

/-- A duration in seconds. -/
def duration (lib : Ngx) (str : Str) : ℚ :=
  let hms := split colon (trim str)
  match hms[0]?.bind lib.tonumber, hms[1]?.bind lib.tonumber, hms[2]?.bind lib.tonumber with
  | some h, some m, some s => h * 3600 + m * 60 + s
  | _, _, _ => 0

/-- The handler `StartElement` sets, if it sets one. -/
def newHandler (tagName : Str) (attrs : Attrs) : Option Handler :=
  if tagName = lit "Duration" then some .len
  else if tagName = lit "MediaFile" then some .src
  else if tagName = lit "Tracking" then
    if attrs.lookup (lit "event") = some (lit "start") then some .pvBegin
    else if attrs.lookup (lit "event") = some (lit "complete") then some .pvEnd
    else none
  else if tagName = lit "ClickTracking" then some .monitor
  else if tagName = lit "ClickThrough" then some .link
  else none

/-- The part of `StartElement` for `MediaFile`. -/
def mediaFile (content : Content) (attrs : Attrs) (media : ℕ) : Lua Content := do
  let type ← formatType (attrs.lookup (lit "type"))
  let size ← formatSize (attrs.lookup (lit "width")) (attrs.lookup (lit "height"))
  return { content with
    type := content.type ++ (type.map fun type => (some media, type)).toList
    size := content.size ++ [(some media, size)] }

/-- What the handlers do with a text. -/
def keep (lib : Ngx) (content : Content) (str : Str) (media : Option ℕ) : Handler → Content
  | .len => { content with len := content.len ++ [duration lib str] }
  | .src => { content with src := content.src ++ [(media, trim str)] }
  | .pvBegin => { content with pvBegin := content.pvBegin ++ [trim str] }
  | .pvEnd => { content with pvEnd := content.pvEnd ++ [trim str] }
  | .monitor => { content with monitor := content.monitor ++ [trim str] }
  | .link => { content with link := content.link ++ [trim str] }

/-- The callbacks. -/
def step (lib : Ngx) (st : St) : Event → Lua St
  | .start tagName attrs media => do
    let content ← if tagName = lit "MediaFile" then mediaFile st.content attrs media
      else .ok st.content
    return ⟨content, (newHandler tagName attrs).or st.handler⟩
  | .text str media =>
    match st.handler with
    | some handler => .ok { st with content := keep lib st.content str media handler }
    | none => .ok st
  | .stop => .ok { st with handler := none }

/-- `nil` for a markup the parser does not accept. -/
def getContent (lib : Ngx) (parsed : Parsed) : Lua (Option Content) := do
  let st ← parsed.events.foldlM (step lib) ⟨{}, none⟩
  return if parsed.succ then some st.content else none

end source

/-! ### Documents -/

/-- What stands in a document, or in an element of it: texts and elements, in their order. -/
inductive Nodes
  | nil
  | text (str : Str) (rest : Nodes)
  | elem (tagName : Str) (attrs : Attrs) (children rest : Nodes)

namespace Nodes

/-- The number of `MediaFile` elements. -/
def media : Nodes → ℕ
  | nil => 0
  | text _ rest => rest.media
  | elem tagName _ children rest =>
    (if tagName = lit "MediaFile" then 1 else 0) + children.media + rest.media

/-- The calls for a document: the `MediaFile` elements are numbered from `n` in the order they
start, and `owner` is the number of the one the nodes stand in. -/
def events (n : ℕ) (owner : Option ℕ) : Nodes → List Event
  | nil => []
  | text str rest => .text str owner :: rest.events n owner
  | elem tagName attrs children rest =>
    if tagName = lit "MediaFile" then
      .start tagName attrs n :: children.events (n + 1) (some n) ++
        .stop :: rest.events (n + 1 + children.media) owner
    else
      .start tagName attrs n :: children.events n none ++
        .stop :: rest.events (n + children.media) owner

end Nodes

/-- The three lists have one entry for each `MediaFile` element, in their order, and each entry was
made for its element. -/
def Aligned (lib : Ngx) (doc : Nodes) : Prop :=
  ∃ content, getContent lib ⟨doc.events 0 none, true⟩ = .ok (some content) ∧
    content.src.map Prod.fst = (List.range doc.media).map some ∧
    content.type.map Prod.fst = (List.range doc.media).map some ∧
    content.size.map Prod.fst = (List.range doc.media).map some

/-! ### What a document leaves behind -/

namespace Nodes

/-- What the `MediaFile` elements leave, one after another. -/
def gather (f : ℕ → Attrs → Nodes → List (Option ℕ)) (n : ℕ) : Nodes → List (Option ℕ)
  | nil => []
  | text _ rest => rest.gather f n
  | elem tagName attrs children rest =>
    if tagName = lit "MediaFile" then
      f n attrs children ++ (children.gather f (n + 1) ++ rest.gather f (n + 1 + children.media))
    else children.gather f n ++ rest.gather f (n + children.media)

/-- The texts that come before an element ends and before an element starts that has a handler of
its own. -/
def window (owner : Option ℕ) : Nodes → List (Option ℕ)
  | nil => []
  | text _ rest => owner :: rest.window owner
  | elem tagName attrs children _ =>
    if newHandler tagName attrs = none then children.window none else []

def srcOf (n : ℕ) (_ : Attrs) (children : Nodes) : List (Option ℕ) := children.window (some n)

def typeOf (n : ℕ) (attrs : Attrs) (_ : Nodes) : List (Option ℕ) :=
  match formatType (attrs.lookup (lit "type")) with
  | .ok (some _) => [some n]
  | _ => []

def sizeOf (n : ℕ) (_ : Attrs) (_ : Nodes) : List (Option ℕ) := [some n]

/-- Every `MediaFile` element meets the condition. -/
def All (p : Attrs → Nodes → Prop) : Nodes → Prop
  | nil => True
  | text _ rest => rest.All p
  | elem tagName attrs children rest =>
    (tagName = lit "MediaFile" → p attrs children) ∧ children.All p ∧ rest.All p

end Nodes

/-- The attributes `StartElement` asks for. -/
def HasAttrs (attrs : Attrs) : Prop :=
  (attrs.lookup (lit "type")).isSome ∧ (attrs.lookup (lit "width")).isSome ∧
    (attrs.lookup (lit "height")).isSome

/-- What the calls for some nodes make of a state. -/
structure Ran (n : ℕ) (owner : Option ℕ) (doc : Nodes) (st st' : St) : Prop where
  src : st'.content.src.map Prod.fst = st.content.src.map Prod.fst ++
    ((if st.handler = some .src then doc.window owner else []) ++ doc.gather Nodes.srcOf n)
  type : st'.content.type.map Prod.fst =
    st.content.type.map Prod.fst ++ doc.gather Nodes.typeOf n
  size : st'.content.size.map Prod.fst =
    st.content.size.map Prod.fst ++ doc.gather Nodes.sizeOf n

section run

variable {lib : Ngx} {st st' : St} {attrs : Attrs} {n : ℕ} {owner : Option ℕ}

lemma mediaFile_ok {content content' : Content} :
    mediaFile content attrs n = .ok content' ↔
      ∃ type size, formatType (attrs.lookup (lit "type")) = .ok type ∧
        formatSize (attrs.lookup (lit "width")) (attrs.lookup (lit "height")) = .ok size ∧
        content' = { content with
          type := content.type ++ (type.map fun type => (some n, type)).toList
          size := content.size ++ [(some n, size)] } := by
  simp only [mediaFile, bind_ok, pure_ok]
  constructor
  · rintro ⟨type, htype, size, hsize, rfl⟩
    exact ⟨type, size, htype, hsize, rfl⟩
  · rintro ⟨type, size, htype, hsize, rfl⟩
    exact ⟨type, htype, size, hsize, rfl⟩

lemma formatType_isOk {tp : Option Str} : (∃ type, formatType tp = .ok type) ↔ tp.isSome := by
  cases tp with
  | none => exact iff_of_false (fun ⟨_, h⟩ => nomatch h) (by simp)
  | some tp =>
    refine iff_of_true ?_ rfl
    unfold formatType
    simp only
    split_ifs <;> exact ⟨_, rfl⟩

lemma formatSize_isOk {width height : Option Str} :
    (∃ size, formatSize width height = .ok size) ↔ width.isSome ∧ height.isSome := by
  cases width <;> cases height <;> simp [formatSize]

lemma mediaFile_isOk {content : Content} :
    (∃ content', mediaFile content attrs n = .ok content') ↔ HasAttrs attrs := by
  rw [HasAttrs, ← formatType_isOk, ← formatSize_isOk]
  simp only [mediaFile_ok]
  constructor
  · rintro ⟨_, type, size, htype, hsize, -⟩
    exact ⟨⟨type, htype⟩, size, hsize⟩
  · rintro ⟨⟨type, htype⟩, size, hsize⟩
    exact ⟨_, type, size, htype, hsize, rfl⟩

/-- The start of a `MediaFile` element. -/
lemma step_media (children : Nodes)
    (h : step lib st (.start (lit "MediaFile") attrs n) = .ok st') :
    st'.handler = some .src ∧ st'.content.src = st.content.src ∧
      st'.content.type.map Prod.fst =
        st.content.type.map Prod.fst ++ Nodes.typeOf n attrs children ∧
      st'.content.size.map Prod.fst =
        st.content.size.map Prod.fst ++ Nodes.sizeOf n attrs children := by
  obtain ⟨content, hcontent, h⟩ := bind_ok.mp h
  cases h
  obtain ⟨type, size, htype, -, rfl⟩ := mediaFile_ok.mp hcontent
  refine ⟨rfl, rfl, ?_, by simp [Nodes.sizeOf]⟩
  rw [Nodes.typeOf, htype]
  cases type <;> simp

/-- The start of another element. -/
lemma step_other {tagName : Str} (hne : tagName ≠ lit "MediaFile") :
    step lib st (.start tagName attrs n) =
      .ok ⟨st.content, (newHandler tagName attrs).or st.handler⟩ := by
  simp [step, hne]

lemma step_text {str : Str} (h : step lib st (.text str owner) = .ok st') :
    st'.handler = st.handler ∧ st'.content.type = st.content.type ∧
      st'.content.size = st.content.size ∧
      st'.content.src.map Prod.fst = st.content.src.map Prod.fst ++
        if st.handler = some .src then [owner] else [] := by
  unfold step at h
  cases hh : st.handler with
  | none => rw [hh] at h; cases h; simp [hh]
  | some handler =>
    rw [hh] at h
    cases h
    cases handler <;> simp [keep]

lemma newHandler_media (attrs : Attrs) : newHandler (lit "MediaFile") attrs = some .src := by
  have hne : lit "MediaFile" ≠ lit "Duration" := by decide
  rw [newHandler, if_neg hne, if_pos rfl]

lemma newHandler_ne_src {tagName : Str} (hne : tagName ≠ lit "MediaFile") (attrs : Attrs) :
    newHandler tagName attrs ≠ some .src := by
  unfold newHandler
  split_ifs <;> simp

/-- Where the handler of an element that is no `MediaFile` keeps sources, it is the one that stood
before. -/
lemma window_other {tagName : Str} (hne : tagName ≠ lit "MediaFile") (handler : Option Handler)
    (owner : Option ℕ) (attrs : Attrs) (children rest : Nodes) :
    (if (newHandler tagName attrs).or handler = some .src then children.window none else []) =
      if handler = some .src then (Nodes.elem tagName attrs children rest).window owner
      else [] := by
  have hsrc := newHandler_ne_src hne attrs
  rw [Nodes.window]
  cases h : newHandler tagName attrs with
  | none => rw [Option.none_or, if_pos rfl]
  | some handler' =>
    rw [h] at hsrc
    simp [hsrc]

/-- The calls for an element: its start, those for what stands in it, its end, and the rest. -/
lemma elem_ok {e : Event} {inner rest : List Event}
    (h : (e :: inner ++ .stop :: rest).foldlM (step lib) st = .ok st') :
    ∃ st₁ st₂, step lib st e = .ok st₁ ∧ inner.foldlM (step lib) st₁ = .ok st₂ ∧
      rest.foldlM (step lib) ⟨st₂.content, none⟩ = .ok st' := by
  rw [List.cons_append, foldlM_cons_ok] at h
  obtain ⟨st₁, hstart, h⟩ := h
  rw [List.foldlM_append] at h
  obtain ⟨st₂, hinner, h⟩ := bind_ok.mp h
  obtain ⟨st₃, hstop, hrest⟩ := foldlM_cons_ok.mp h
  cases hstop
  exact ⟨st₁, st₂, hstart, hinner, hrest⟩

/-- **Step and run**: what the calls for a document do, element by element. -/
theorem run_ran {doc : Nodes} (h : (doc.events n owner).foldlM (step lib) st = .ok st') :
    Ran n owner doc st st' := by
  induction doc generalizing n owner st st' with
  | nil =>
    cases h
    exact ⟨by simp [Nodes.window, Nodes.gather], by simp [Nodes.gather], by simp [Nodes.gather]⟩
  | text str rest ih =>
    obtain ⟨mid, hstep, hrest⟩ := foldlM_cons_ok.mp h
    obtain ⟨hhandler, htype, hsize, hsrc⟩ := step_text hstep
    have ran := ih hrest
    refine ⟨?_, by rw [ran.type, htype]; rfl, by rw [ran.size, hsize]; rfl⟩
    rw [ran.src, hsrc, hhandler]
    split <;> simp [Nodes.window, Nodes.gather]
  | elem tagName attrs children rest ihc ihr =>
    rw [Nodes.events] at h
    split at h
    · next htag =>
      subst htag
      obtain ⟨st₁, st₂, hstart, hchildren, hrest⟩ := elem_ok h
      obtain ⟨hhandler, hsrc, htype, hsize⟩ := step_media children hstart
      have ranc := ihc hchildren
      have ranr := ihr hrest
      refine ⟨?_, ?_, ?_⟩
      · simp [ranr.src, ranc.src, hsrc, hhandler, Nodes.window, Nodes.gather, newHandler_media,
          Nodes.srcOf]
      · simp [ranr.type, ranc.type, htype, Nodes.gather]
      · simp [ranr.size, ranc.size, hsize, Nodes.gather]
    · next hne =>
      obtain ⟨st₁, st₂, hstart, hchildren, hrest⟩ := elem_ok h
      rw [step_other hne] at hstart
      cases hstart
      have ranc := ihc hchildren
      have ranr := ihr hrest
      refine ⟨?_, ?_, ?_⟩
      · have hwindow := window_other hne st.handler owner attrs children rest
        simp only [ranr.src, ranc.src, hwindow, Nodes.gather, if_neg hne]
        simp
      · simp [ranr.type, ranc.type, Nodes.gather, hne]
      · simp [ranr.size, ranc.size, Nodes.gather, hne]

/-- The callback goes through. -/
def Event.Passes : Event → Prop
  | .start tagName attrs _ => tagName = lit "MediaFile" → HasAttrs attrs
  | .text _ _ => True
  | .stop => True

lemma passes_start {tagName : Str} {media : ℕ} : (Event.start tagName attrs media).Passes ↔
    (tagName = lit "MediaFile" → HasAttrs attrs) := Iff.rfl

lemma passes_text {str : Str} : (Event.text str owner).Passes := trivial

lemma passes_stop : Event.stop.Passes := trivial

lemma step_isOk (st : St) (e : Event) : (∃ st', step lib st e = .ok st') ↔ e.Passes := by
  cases e with
  | start tagName attrs media =>
    by_cases htag : tagName = lit "MediaFile"
    · subst htag
      refine bind_isOk.trans ?_
      simp only [pure_ok, exists_eq', and_true, mediaFile_isOk]
      exact ⟨fun h _ => h, fun h => h rfl⟩
    · exact iff_of_true ⟨_, step_other htag⟩ fun h => absurd h htag
  | text str media =>
    refine iff_of_true ?_ trivial
    simp only [step]
    split <;> exact ⟨_, rfl⟩
  | stop => exact iff_of_true ⟨_, rfl⟩ trivial

lemma events_pass (doc : Nodes) (n : ℕ) (owner : Option ℕ) :
    (∀ e ∈ doc.events n owner, e.Passes) ↔ doc.All fun attrs _ => HasAttrs attrs := by
  induction doc generalizing n owner with
  | nil => simp [Nodes.events, Nodes.All]
  | text str rest ih => simp [Nodes.events, Nodes.All, passes_text, ih]
  | elem tagName attrs children rest ihc ihr =>
    rw [Nodes.events, Nodes.All]
    split
    · next htag =>
      simp only [List.cons_append, List.forall_mem_cons, List.forall_mem_append, ihc, ihr,
        passes_start, passes_stop, htag, true_implies, true_and]
    · next hne =>
      simp only [List.cons_append, List.forall_mem_cons, List.forall_mem_append, ihc, ihr,
        passes_start, passes_stop, hne, false_implies, true_and]

/-- **No callback raises** exactly when every `MediaFile` element has its three attributes. -/
lemma run_isOk {doc : Nodes} : (∃ st', (doc.events n owner).foldlM (step lib) st = .ok st') ↔
    doc.All fun attrs _ => HasAttrs attrs := by
  rw [← events_pass doc n owner]
  exact foldlM_ok_iff (P := fun _ => True) (fun st e _ _ => step_isOk st e)
    (fun _ _ _ _ _ _ => trivial) trivial

end run

/-! ### One entry for each element -/

namespace Nodes

/-- The entries of an element are made for it, or for no element. -/
def Own (f : ℕ → Attrs → Nodes → List (Option ℕ)) : Prop :=
  ∀ n attrs children k, k ∈ f n attrs children → k = some n ∨ k = none

section gather

variable {f : ℕ → Attrs → Nodes → List (Option ℕ)} {doc : Nodes} {n k : ℕ}

lemma mem_gather (hf : Own f) (h : some k ∈ doc.gather f n) : n ≤ k ∧ k < n + doc.media := by
  induction doc generalizing n with
  | nil => cases h
  | text _ rest ih => exact ih h
  | elem tagName attrs children rest ihc ihr =>
    rw [gather] at h
    rw [media]
    split at h
    · next htag =>
      rw [if_pos htag]
      rcases List.mem_append.mp h with h | h
      · rcases hf _ _ _ _ h with h | h
        · cases h; omega
        · cases h
      · rcases List.mem_append.mp h with h | h
        · have := ihc h; omega
        · have := ihr h; omega
    · next htag =>
      rw [if_neg htag]
      rcases List.mem_append.mp h with h | h
      · have := ihc h; omega
      · have := ihr h; omega

lemma count_gather (hf : Own f) (doc : Nodes) (h : k < n ∨ n + doc.media ≤ k) :
    (doc.gather f n).count (some k) = 0 :=
  List.count_eq_zero.mpr fun hk => by
    have := mem_gather hf hk
    omega

variable {p : Attrs → Nodes → Prop}

lemma gather_of_all (hp : ∀ n attrs children, f n attrs children = [some n] ↔ p attrs children)
    (h : doc.All p) : doc.gather f n = (List.range' n doc.media).map some := by
  induction doc generalizing n with
  | nil => rfl
  | text _ rest ih => exact ih h
  | elem tagName attrs children rest ihc ihr =>
    obtain ⟨htag, hc, hr⟩ := h
    rw [gather, media]
    split
    · next heq =>
      have hsucc : 1 + children.media + rest.media = children.media + rest.media + 1 := by omega
      rw [(hp n attrs children).mpr (htag heq), ihc hc, ihr hr, hsucc, List.range'_succ,
        ← List.range'_append_1, List.map_cons, List.map_append]
      rfl
    · rw [ihc hc, ihr hr, Nat.zero_add, ← List.range'_append_1, List.map_append]

/-- Where every number has one entry, each element left its own. -/
lemma all_of_gather (hf : Own f)
    (hp : ∀ n attrs children, f n attrs children = [some n] ↔ p attrs children)
    (hnone : none ∉ doc.gather f n)
    (hcount : ∀ k, n ≤ k → k < n + doc.media → (doc.gather f n).count (some k) = 1) :
    doc.All p := by
  induction doc generalizing n with
  | nil => trivial
  | text _ rest ih => exact ih hnone hcount
  | elem tagName attrs children rest ihc ihr =>
    rw [gather] at hnone hcount
    rw [media] at hcount
    by_cases htag : tagName = lit "MediaFile"
    · simp only [if_pos htag, List.mem_append, not_or, List.count_append] at hnone hcount
      obtain ⟨hown, hnc, hnr⟩ := hnone
      have hentries : ∀ e ∈ f n attrs children, e = some n := fun e he =>
        (hf n attrs children e he).resolve_right fun hnil => hown (hnil ▸ he)
      have hother : ∀ k, k ≠ n → (f n attrs children).count (some k) = 0 := fun k hk =>
        List.count_eq_zero.mpr fun hmem => hk (Option.some.inj (hentries _ hmem))
      refine ⟨fun _ => (hp n attrs children).mp ?_, ihc hnc fun k hlo hhi => ?_,
        ihr hnr fun k hlo hhi => ?_⟩
      · have h := hcount n le_rfl (by omega)
        rw [count_gather hf children (by omega), count_gather hf rest (by omega), Nat.add_zero] at h
        rw [List.eq_replicate_of_mem hentries, List.count_replicate_self] at h
        rw [List.eq_replicate_of_mem hentries, h]
        rfl
      · have h := hcount k (by omega) (by omega)
        rwa [hother k (by omega), count_gather hf rest (by omega), Nat.zero_add,
          Nat.add_zero] at h
      · have h := hcount k (by omega) (by omega)
        rwa [hother k (by omega), count_gather hf children (by omega), Nat.zero_add,
          Nat.zero_add] at h
    · simp only [if_neg htag, List.mem_append, not_or, List.count_append, Nat.zero_add]
        at hnone hcount
      obtain ⟨hnc, hnr⟩ := hnone
      refine ⟨fun h => absurd h htag, ihc hnc fun k hlo hhi => ?_, ihr hnr fun k hlo hhi => ?_⟩
      · have h := hcount k (by omega) (by omega)
        rwa [count_gather hf rest (by omega), Nat.add_zero] at h
      · have h := hcount k (by omega) (by omega)
        rwa [count_gather hf children (by omega), Nat.zero_add] at h

/-- **One entry for each element, in order**, exactly when each element leaves its own entry and no
other. -/
theorem gather_eq_range_iff (hf : Own f)
    (hp : ∀ n attrs children, f n attrs children = [some n] ↔ p attrs children) :
    doc.gather f n = (List.range' n doc.media).map some ↔ doc.All p := by
  refine ⟨fun h => ?_, gather_of_all hp⟩
  have hnone : none ∉ doc.gather f n := by
    rw [h]
    simp
  refine all_of_gather hf hp hnone fun k hlo hhi => ?_
  rw [h, List.count_map_of_injective _ _ (Option.some_injective ℕ)]
  exact List.count_eq_one_of_mem List.nodup_range' (List.mem_range'_1.mpr ⟨hlo, hhi⟩)

end gather

/-- No text comes before an element ends or an element starts that has a handler of its own. -/
def Silent : Nodes → Prop
  | nil => True
  | text _ _ => False
  | elem tagName attrs children _ => newHandler tagName attrs ≠ none ∨ children.Silent

/-- A text comes first, and then none as long as its handler stands. -/
def OneText : Nodes → Prop
  | text _ rest => rest.Silent
  | _ => False

lemma window_own (doc : Nodes) (owner k : Option ℕ) (h : k ∈ doc.window owner) :
    k = owner ∨ k = none := by
  induction doc generalizing owner with
  | nil => cases h
  | text _ rest ih => exact (List.mem_cons.mp h).elim .inl (ih owner)
  | elem tagName attrs children rest ihc _ =>
    rw [window] at h
    split at h
    · exact .inr ((ihc none h).elim id id)
    · cases h

lemma window_eq_nil_iff (doc : Nodes) (owner : Option ℕ) : doc.window owner = [] ↔ doc.Silent := by
  induction doc generalizing owner with
  | nil => simp [window, Silent]
  | text _ rest _ => simp [window, Silent]
  | elem tagName attrs children rest ihc _ =>
    rw [window, Silent, ← ihc none]
    split <;> simp [*]

lemma srcOf_iff (n : ℕ) (attrs : Attrs) (children : Nodes) :
    srcOf n attrs children = [some n] ↔ children.OneText := by
  cases children with
  | nil => simp [srcOf, window, OneText]
  | text str rest => simp [srcOf, window, OneText, window_eq_nil_iff]
  | elem tagName attrs' children rest =>
    refine iff_of_false (fun h => ?_) (fun h => h)
    rw [srcOf, window] at h
    split at h
    · have := window_own children none (some n) (by simp [h])
      simp at this
    · cases h

/-- A second part, or the one part `image`. -/
def Typed (attrs : Attrs) : Prop :=
  ∃ tp, attrs.lookup (lit "type") = some tp ∧ (slash ∈ tp ∨ tp = lit "image")

lemma split_of_mem {tp : Str} (h : slash ∈ tp) : ∃ s, (split slash tp)[1]? = some s := by
  obtain ⟨first, rest, rfl, hfirst⟩ := List.eq_append_cons_of_mem h
  obtain ⟨s, rest', hrest⟩ := List.exists_cons_of_ne_nil (List.splitOn_ne_nil slash rest)
  rw [split_append_cons hfirst, split, hrest]
  exact ⟨s, rfl⟩

lemma formatType_some_iff (tp : Str) :
    (∃ type, formatType (some tp) = .ok (some type)) ↔ slash ∈ tp ∨ tp = lit "image" := by
  by_cases hslash : slash ∈ tp
  · obtain ⟨s, hs⟩ := split_of_mem hslash
    refine iff_of_true ?_ (.inl hslash)
    simp only [formatType, hs]
    split_ifs <;> exact ⟨_, rfl⟩
  · simp only [formatType, split_of_notMem hslash]
    by_cases himage : tp = lit "image"
    · simp [himage, pure_ok]
    · simp [himage, hslash, pure_ok]

lemma typeOf_iff (n : ℕ) (attrs : Attrs) (children : Nodes) :
    typeOf n attrs children = [some n] ↔ Typed attrs := by
  unfold typeOf Typed
  cases attrs.lookup (lit "type") with
  | none => simp [formatType]
  | some tp =>
    have hiff := formatType_some_iff tp
    simp only [Option.some.injEq, exists_eq_left', ← hiff]
    split
    · next type htype => simp [htype]
    · next hne => simpa using fun type htype => hne type htype

lemma own_srcOf : Own srcOf := fun n _ children k h => window_own children (some n) k h

lemma own_typeOf : Own typeOf := fun n attrs _ k h => by
  unfold typeOf at h
  split at h
  · exact .inl (List.mem_singleton.mp h)
  · cases h

lemma own_sizeOf : Own sizeOf := fun _ _ _ _ h => .inl (List.mem_singleton.mp h)

lemma all_and {p q : Attrs → Nodes → Prop} {doc : Nodes} :
    (doc.All fun attrs children => p attrs children ∧ q attrs children) ↔
      doc.All p ∧ doc.All q := by
  induction doc with
  | nil => simp [All]
  | text _ rest ih => exact ih
  | elem tagName attrs children rest ihc ihr =>
    simp only [All, ihc, ihr, imp_and]
    tauto

lemma all_true (doc : Nodes) : doc.All fun _ _ => True := by
  induction doc with
  | nil => trivial
  | text _ rest ih => exact ih
  | elem tagName attrs children rest ihc ihr => exact ⟨fun _ => trivial, ihc, ihr⟩

end Nodes

/-- A `MediaFile` element has its three attributes, its type can be told, and one text comes in
while the handler for its source stands. -/
def Fits (attrs : Attrs) (children : Nodes) : Prop :=
  HasAttrs attrs ∧ Nodes.Typed attrs ∧ children.OneText

section aligned

variable {lib : Ngx} {doc : Nodes}

lemma getContent_ok {events : List Event} {content : Content} :
    getContent lib ⟨events, true⟩ = .ok (some content) ↔
      ∃ st, events.foldlM (step lib) ⟨{}, none⟩ = .ok st ∧ st.content = content := by
  unfold getContent
  simp only [bind_ok, if_pos, pure_ok, Option.some.injEq]

/-- What the three lists of a document have to be. -/
lemma ran_iff {st : St} (h : (doc.events 0 none).foldlM (step lib) ⟨{}, none⟩ = .ok st) :
    (st.content.src.map Prod.fst = (List.range doc.media).map some ∧
      st.content.type.map Prod.fst = (List.range doc.media).map some ∧
      st.content.size.map Prod.fst = (List.range doc.media).map some) ↔
    doc.All (fun attrs _ => Nodes.Typed attrs) ∧ doc.All fun _ children => children.OneText := by
  have ran := run_ran h
  have hsrc : st.content.src.map Prod.fst = doc.gather Nodes.srcOf 0 := ran.src
  have htype : st.content.type.map Prod.fst = doc.gather Nodes.typeOf 0 := ran.type
  have hsize : st.content.size.map Prod.fst = doc.gather Nodes.sizeOf 0 := ran.size
  rw [hsrc, htype, hsize, List.range_eq_range',
    Nodes.gather_eq_range_iff Nodes.own_srcOf Nodes.srcOf_iff,
    Nodes.gather_eq_range_iff Nodes.own_typeOf Nodes.typeOf_iff,
    Nodes.gather_eq_range_iff Nodes.own_sizeOf fun _ _ _ => iff_of_true rfl trivial]
  have hall := Nodes.all_true doc
  tauto

/-- **When the lists are aligned**: every `MediaFile` element fits. -/
theorem aligned_iff (lib : Ngx) (doc : Nodes) : Aligned lib doc ↔ doc.All Fits := by
  unfold Fits
  rw [Nodes.all_and, Nodes.all_and]
  constructor
  · rintro ⟨content, hcontent, hlists⟩
    obtain ⟨st, hrun, rfl⟩ := getContent_ok.mp hcontent
    exact ⟨run_isOk.mp ⟨st, hrun⟩, (ran_iff hrun).mp hlists⟩
  · rintro ⟨hattrs, hfits⟩
    obtain ⟨st, hrun⟩ := run_isOk.mpr hattrs
    exact ⟨st.content, getContent_ok.mpr ⟨st, hrun, rfl⟩, (ran_iff hrun).mpr hfits⟩

end aligned

/-- A `MediaFile` element without a text: it has a type and a size and no source. -/
theorem empty_media_breaks : ¬ ∀ lib doc, Aligned lib doc := by
  intro h
  obtain ⟨content, hcontent, hsrc, -⟩ := h (Ngx.ofTexts []) (.elem (lit "MediaFile")
    [(lit "type", lit "video/mp4"), (lit "width", lit "1"), (lit "height", lit "2")] .nil .nil)
  obtain ⟨st, hrun, rfl⟩ := getContent_ok.mp hcontent
  have hnil := (run_ran hrun).src
  rw [hsrc] at hnil
  cases hnil

end Sax.Vast
