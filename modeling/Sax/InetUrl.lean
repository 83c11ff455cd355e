import Sax.Replace
import Sax.Runtime

/-!
Taking the URL of a DSP apart: `parse_inet_url` of `saxmob/common/util.lua`.

It gives `nil` for what is no string, for a port that is none and where there is no host, so the
host of what it does give is never empty.
-/

namespace Sax.InetUrl

open Sax.LuaVal Sax.Runtime
open Sax.Replace (before after before_append_cons after_append_cons before_of_notMem question)

def colon : UInt8 := 58
def slash : UInt8 := 47

structure Inet where
  schema : Str
  host : Str
  port : ℚ
  uri : Str
  deriving DecidableEq

/-- The schema, and what comes after it. -/
def schemaOf (url : Str) : Str × Str :=
  if lit "http://" <+: url then (lit "http", url.drop 7)
  else if lit "https://" <+: url then (lit "https", url.drop 8)
  else (lit "http", url)

/-- `string.find(s, c, 1, true)`, as the number of characters before `c`. -/
def find (c : UInt8) (s : Str) : Option ℕ := s.idxOf? c

/-- A port behind the end of the host belongs to the path. -/
def parse_inet_url (lib : Ngx) (url : Option Str) : Option Inet := do
  let (schema, rest) := schemaOf (← url)
  let args := find question rest
  let uri := (find slash rest).or args
  let last := uri.getD rest.length
  let path := match uri with
    | some u => (if args = some u then lit "/" else []) ++ rest.drop u
    | none => lit "/"
  match (find colon rest).filter (· < last) with
  | some p =>
    let port ← lib.tonumber ((rest.take last).drop (p + 1))
    if port < 1 ∨ 65535 < port then none
    else if p = 0 then none
    else some ⟨schema, rest.take p, port, path⟩
  | none => if last = 0 then none else some ⟨schema, rest.take last, 80, path⟩

section find

variable {c : UInt8} {a b : Str} {i : ℕ}

lemma find_lt (h : find c a = some i) : i < a.length :=
  (List.idxOf?_eq_some_iff.mp h).1

lemma find_getElem? (h : find c a = some i) : a[i]? = some c := by
  obtain ⟨hlt, hget, -⟩ := List.idxOf?_eq_some_iff.mp h
  rw [List.getElem?_eq_getElem hlt, hget]

lemma find_append_cons (h : c ∉ a) : find c (a ++ c :: b) = some a.length := by
  induction a with
  | nil => simp [find, List.idxOf?_cons]
  | cons d a ih =>
    rw [List.mem_cons, not_or] at h
    have hne : ¬ d = c := fun hd => h.1 hd.symm
    have hfind := ih h.2
    unfold find at hfind ⊢
    rw [List.cons_append, List.idxOf?_cons, hfind]
    simp [hne]

lemma find_of_mem (h : c ∈ a) : find c a = some (before c a).length := by
  obtain ⟨l, r, rfl, hl⟩ := List.eq_append_cons_of_mem h
  rw [find_append_cons hl, before_append_cons hl]

lemma find_of_notMem (h : c ∉ a) : find c a = none :=
  List.idxOf?_eq_none_iff.mpr h

end find

/-! ### The parts of a URL -/

/-- What stands before the path: before the first `/`, or where there is none, before the first
`?`. -/
def authority (rest : Str) : Str := if slash ∈ rest then before slash rest else before question rest

def hostText (rest : Str) : Str := before colon (authority rest)

def portText (rest : Str) : Option Str :=
  if colon ∈ authority rest then some (after colon (authority rest)) else none

def uriText (rest : Str) : Str :=
  if slash ∈ rest then slash :: after slash rest
  else if question ∈ rest then slash :: question :: after question rest
  else [slash]

section parts

variable {c : UInt8} {a b rest : Str}

lemma before_append (h : c ∈ a) : before c (a ++ b) = before c a := by
  obtain ⟨l, r, rfl, hl⟩ := List.eq_append_cons_of_mem h
  rw [List.append_assoc, List.cons_append, before_append_cons hl, before_append_cons hl]

lemma drop_before (h : c ∈ a) : a.drop (before c a).length = c :: after c a := by
  obtain ⟨l, r, rfl, hl⟩ := List.eq_append_cons_of_mem h
  rw [before_append_cons hl, after_append_cons hl, List.drop_left]

/-- The position the path begins at, and the path. -/
lemma find_path (rest : Str) :
    ((find slash rest).or (find question rest)).getD rest.length = (authority rest).length ∧
      (match (find slash rest).or (find question rest) with
        | some u => (if find question rest = some u then lit "/" else []) ++ rest.drop u
        | none => lit "/") = uriText rest := by
  have hlit : lit "/" = [slash] := by decide
  unfold authority uriText
  by_cases hslash : slash ∈ rest
  · have hne : find question rest ≠ some (before slash rest).length := by
      intro h
      have hget := find_getElem? (find_of_mem hslash)
      rw [find_getElem? h] at hget
      exact absurd hget (by decide)
    rw [if_pos hslash, if_pos hslash, find_of_mem hslash, Option.some_or]
    exact ⟨rfl, by simp only [if_neg hne, List.nil_append, drop_before hslash]⟩
  · rw [if_neg hslash, if_neg hslash, find_of_notMem hslash, Option.none_or]
    by_cases hquestion : question ∈ rest
    · rw [find_of_mem hquestion, if_pos hquestion]
      exact ⟨rfl, by simp only [if_true, drop_before hquestion, hlit, List.singleton_append]⟩
    · rw [find_of_notMem hquestion, if_neg hquestion, before_of_notMem hquestion]
      exact ⟨rfl, hlit⟩

lemma authority_isPrefix (rest : Str) : authority rest <+: rest := by
  unfold authority
  split
  · exact List.takeWhile_prefix _
  · exact List.takeWhile_prefix _

/-- The position of the port, if it has one. -/
lemma find_port (rest : Str) :
    (find colon rest).filter (· < (authority rest).length) =
      if colon ∈ authority rest then some (hostText rest).length else none := by
  obtain ⟨tail, htail⟩ := authority_isPrefix rest
  unfold hostText
  generalize authority rest = auth at htail
  subst htail
  by_cases hauth : colon ∈ auth
  · have hlt := find_lt (find_of_mem hauth)
    rw [if_pos hauth, find_of_mem (List.mem_append_left _ hauth), before_append hauth,
      Option.filter_some_pos (by simpa using hlt)]
  · rw [if_neg hauth, Option.filter_eq_none_iff]
    intro i hi
    have hget := find_getElem? hi
    rw [decide_eq_true_eq]
    intro hlt
    rw [List.getElem?_append_left hlt] at hget
    exact hauth (List.mem_of_getElem? hget)

end parts

section parse

variable {lib : Ngx} {url : Option Str} {u : Inet}

/-- **The parts of a URL are those that the positions cut out.** -/
theorem parse_eq (lib : Ngx) (url : Str) :
    parse_inet_url lib (some url) =
      match portText (schemaOf url).2 with
      | some text => do
        let port ← lib.tonumber text
        if port < 1 ∨ 65535 < port then none
        else if hostText (schemaOf url).2 = [] then none
        else some ⟨(schemaOf url).1, hostText (schemaOf url).2, port, uriText (schemaOf url).2⟩
      | none =>
        if hostText (schemaOf url).2 = [] then none
        else some ⟨(schemaOf url).1, hostText (schemaOf url).2, 80, uriText (schemaOf url).2⟩ := by
  unfold parse_inet_url
  simp only [Option.bind_eq_bind, Option.bind_some]
  generalize (schemaOf url).1 = schema
  generalize (schemaOf url).2 = rest
  obtain ⟨hlast, hpath⟩ := find_path rest
  have htake := (List.prefix_iff_eq_take.mp (authority_isPrefix rest)).symm
  rw [hlast, hpath, find_port, htake]
  unfold portText
  by_cases hcolon : colon ∈ authority rest
  · have hhost : rest.take (hostText rest).length = hostText rest := by
      have hprefix : hostText rest <+: rest :=
        (List.takeWhile_prefix _).trans (authority_isPrefix rest)
      exact (List.prefix_iff_eq_take.mp hprefix).symm
    have htext : (authority rest).drop ((hostText rest).length + 1) =
        after colon (authority rest) := by
      have hdrop := drop_before hcolon
      unfold hostText
      rw [← List.tail_drop, hdrop]
      rfl
    simp only [if_pos hcolon, htext, hhost, List.length_eq_zero_iff]
  · have hhost : hostText rest = authority rest := before_of_notMem hcolon
    simp only [if_neg hcolon, hhost, List.length_eq_zero_iff]

/-- What a URL that is taken apart gives. -/
lemma parse_some {s : Str} (h : parse_inet_url lib (some s) = some u) :
    u.host = hostText (schemaOf s).2 ∧ u.host ≠ [] ∧ u.uri = uriText (schemaOf s).2 ∧
      match portText (schemaOf s).2 with
      | some text => lib.tonumber text = some u.port
      | none => u.port = 80 := by
  rw [parse_eq] at h
  cases hport : portText (schemaOf s).2 with
  | none =>
    rw [hport] at h
    simp only at h
    split at h
    · cases h
    · next hne =>
      cases h
      exact ⟨rfl, hne, rfl, rfl⟩
  | some text =>
    rw [hport] at h
    obtain ⟨port, hnumber, h⟩ := Option.bind_eq_some_iff.mp h
    split at h
    · cases h
    · split at h
      · cases h
      · next hne =>
        cases h
        exact ⟨rfl, hne, rfl, hnumber⟩

/-- The host is not empty. -/
lemma host_ne_nil (h : parse_inet_url lib url = some u) : u.host ≠ [] := by
  cases url with
  | none => cases h
  | some s => exact (parse_some h).2.1

end parse

/-! ### URLs that are put together -/

/-- What may stand before the host. -/
inductive Scheme
  | absent
  | http
  | https

def Scheme.text : Scheme → Str
  | absent => []
  | http => lit "http://"
  | https => lit "https://"

def Scheme.name : Scheme → Str
  | absent => lit "http"
  | http => lit "http"
  | https => lit "https"

structure Url where
  scheme : Scheme
  host : Str
  port : Option ℕ
  path : Str
  query : Str
  host_ne : host ≠ []
  host_plain : ∀ c ∈ host, c ∉ lit ":/?"
  port_range : ∀ n ∈ port, 1 ≤ n ∧ n ≤ 65535
  path_head : path = [] ∨ ∃ p, path = slash :: p
  query_head : query = [] ∨ ∃ q, query = question :: q

namespace Url

/-- The host with the port. -/
def auth (url : Url) : Str :=
  url.host ++ match url.port with
    | some n => colon :: decimalNat n
    | none => []

def rest (url : Url) : Str := url.auth ++ (url.path ++ url.query)

def render (url : Url) : Str := url.scheme.text ++ url.rest

/-- The path followed by the query, with `/` for an empty path. -/
def uri (url : Url) : Str := (if url.path = [] then [slash] else url.path) ++ url.query

variable (url : Url)

lemma notMem_auth : slash ∉ url.auth ∧ question ∉ url.auth := by
  have hdigits : ∀ n, ∀ c ∈ colon :: decimalNat n, c ≠ slash ∧ c ≠ question := by
    intro n c h
    rcases List.mem_cons.mp h with rfl | h
    · decide
    · have hdigit := decimalNat_isDigit h
      exact ⟨fun h => absurd (h ▸ hdigit) (by decide), fun h => absurd (h ▸ hdigit) (by decide)⟩
  have hhost : ∀ c ∈ url.host, c ≠ slash ∧ c ≠ question := by
    intro c h
    have hplain := url.host_plain c h
    exact ⟨fun h => absurd (h ▸ hplain) (by decide), fun h => absurd (h ▸ hplain) (by decide)⟩
  have hall : ∀ c ∈ url.auth, c ≠ slash ∧ c ≠ question := by
    intro c h
    rcases List.mem_append.mp h with h | h
    · exact hhost c h
    · cases hport : url.port with
      | none => rw [hport] at h; cases h
      | some n => rw [hport] at h; exact hdigits n c h
  exact ⟨fun h => (hall _ h).1 rfl, fun h => (hall _ h).2 rfl⟩

lemma parts_rest (h : url.path ≠ [] ∨ slash ∉ url.query) :
    authority url.rest = url.auth ∧ uriText url.rest = url.uri := by
  obtain ⟨hslash, hquestion⟩ := url.notMem_auth
  unfold rest uri authority uriText
  rcases url.path_head with hpath | ⟨p, hpath⟩
  · have hnone := h.resolve_left (not_not_intro hpath)
    rw [hpath, List.nil_append, if_pos rfl]
    have hmem : slash ∉ url.auth ++ url.query := by
      rw [List.mem_append, not_or]
      exact ⟨hslash, hnone⟩
    rw [if_neg hmem, if_neg hmem]
    rcases url.query_head with hquery | ⟨q, hquery⟩
    · rw [hquery, List.append_nil, List.append_nil, before_of_notMem hquestion, if_neg hquestion]
      exact ⟨rfl, rfl⟩
    · rw [hquery, before_append_cons hquestion, after_append_cons hquestion,
        if_pos (List.mem_append_right _ List.mem_cons_self)]
      exact ⟨rfl, rfl⟩
  · have hne : url.path ≠ [] := hpath ▸ List.cons_ne_nil _ _
    rw [if_neg hne, hpath, List.cons_append, before_append_cons hslash, after_append_cons hslash,
      if_pos (List.mem_append_right _ List.mem_cons_self),
      if_pos (List.mem_append_right _ List.mem_cons_self)]
    exact ⟨rfl, rfl⟩

lemma colon_notMem_host : colon ∉ url.host := fun h => url.host_plain _ h (by decide)

lemma parts_auth (h : authority url.rest = url.auth) :
    hostText url.rest = url.host ∧ portText url.rest = url.port.map decimalNat := by
  have hcolon := url.colon_notMem_host
  unfold hostText portText
  rw [h]
  unfold auth
  cases url.port with
  | none =>
    rw [List.append_nil, before_of_notMem hcolon, if_neg hcolon]
    exact ⟨rfl, rfl⟩
  | some n =>
    rw [before_append_cons hcolon, after_append_cons hcolon,
      if_pos (List.mem_append_right _ List.mem_cons_self)]
    exact ⟨rfl, rfl⟩

/-- No host reads like the schema that would stand before it. -/
lemma not_prefix_rest {pre : Str} (hpre : ∀ c ∈ pre, c ∉ lit ":/?") :
    ¬ pre ++ [colon, slash] <+: url.rest := by
  rintro ⟨t, ht⟩
  have htail : ∀ a b, (match url.port with
      | some n => colon :: decimalNat n
      | none => []) ++ (url.path ++ url.query) = a :: b → a ∈ lit ":/?" ∧
        (a = colon → b.head? ≠ some slash) := by
    intro a b h
    cases hport : url.port with
    | some n =>
      obtain ⟨d, digits, hd⟩ := List.exists_cons_of_ne_nil (decimalNat_ne_nil n)
      have hdigit : isDigit d := decimalNat_isDigit (hd ▸ List.mem_cons_self)
      rw [hport] at h
      simp only [hd, List.cons_append, List.cons.injEq] at h
      obtain ⟨rfl, rfl⟩ := h
      refine ⟨by decide, fun _ hslash => ?_⟩
      cases hslash
      exact absurd hdigit (by decide)
    | none =>
      rw [hport] at h
      rcases url.path_head with hpath | ⟨p, hpath⟩
      · rcases url.query_head with hquery | ⟨q, hquery⟩
        · rw [hpath, hquery] at h
          cases h
        · rw [hpath, hquery] at h
          cases h
          exact ⟨by decide, fun h => absurd h (by decide)⟩
      · rw [hpath] at h
        cases h
        exact ⟨by decide, fun h => absurd h (by decide)⟩
  rw [rest, auth, List.append_assoc, List.append_assoc, List.append_eq_append_iff] at ht
  rcases ht with ⟨a, hhost, htl⟩ | ⟨a, rfl, htl⟩
  · cases a with
    | nil => exact (htail _ _ htl.symm).2 rfl rfl
    | cons c a =>
      have hc : some colon = some c := congrArg List.head? htl
      cases hc
      exact url.colon_notMem_host (hhost ▸ List.mem_append_right _ List.mem_cons_self)
  · cases a with
    | nil => exact (htail _ _ htl).2 rfl rfl
    | cons c a => exact hpre c (List.mem_append_right _ List.mem_cons_self) (htail _ _ htl).1

lemma schemaOf_render : schemaOf url.render = (url.scheme.name, url.rest) := by
  unfold render schemaOf
  cases url.scheme with
  | http =>
    rw [Scheme.text, if_pos (List.prefix_append _ _)]
    rfl
  | https =>
    have hne : ¬ lit "http://" <+: lit "https://" ++ url.rest := by
      intro h
      have htake := List.prefix_iff_eq_take.mp h
      exact absurd htake (by rw [List.take_append_of_le_length (by decide)]; decide)
    rw [Scheme.text, if_neg hne, if_pos (List.prefix_append _ _)]
    rfl
  | absent =>
    have hhttp : ¬ lit "http://" <+: url.rest := fun h =>
      url.not_prefix_rest (by decide +kernel : ∀ c ∈ lit "http", c ∉ lit ":/?")
        ((List.prefix_append (lit "http" ++ [colon, slash]) [slash]).trans h)
    have hhttps : ¬ lit "https://" <+: url.rest := fun h =>
      url.not_prefix_rest (by decide +kernel : ∀ c ∈ lit "https", c ∉ lit ":/?")
        ((List.prefix_append (lit "https" ++ [colon, slash]) [slash]).trans h)
    rw [Scheme.text, List.nil_append, if_neg hhttp, if_neg hhttps]
    rfl

end Url

section render

variable {lib : Ngx} {url : Url}

lemma tonumber_port (lib : Ngx) {n : ℕ} (hn : n ≤ 65535) :
    lib.tonumber (decimalNat n) = some (n : ℚ) := by
  have hdecimal : decimal n = decimalNat n := rfl
  have hparse := parseDecimal_decimal (n : ℤ)
  rw [hdecimal] at hparse
  have := lib.tonumber_int _ _ hparse (by simp; omega)
  simpa using this

/-- **A URL is taken apart into its parts**, unless its query comes right behind the host or the
port and has a `/`. -/
theorem parse_render (lib : Ngx) (url : Url) (h : url.path ≠ [] ∨ slash ∉ url.query) :
    parse_inet_url lib (some url.render) =
      some ⟨url.scheme.name, url.host, (url.port.getD 80 : ℕ), url.uri⟩ := by
  obtain ⟨hauth, huri⟩ := url.parts_rest h
  obtain ⟨hhost, hport⟩ := url.parts_auth hauth
  rw [parse_eq, url.schemaOf_render]
  simp only [hhost, hport, huri, if_neg url.host_ne]
  cases hn : url.port with
  | none => rfl
  | some n =>
    obtain ⟨hlow, hhigh⟩ := url.port_range n hn
    have hrange : ¬ ((n : ℚ) < 1 ∨ (65535 : ℚ) < n) := by
      rw [not_or, not_lt, not_lt]
      exact ⟨by exact_mod_cast hlow, by exact_mod_cast hhigh⟩
    simp only [Option.map_some, tonumber_port lib hhigh, Option.bind_eq_bind, Option.bind_some,
      if_neg hrange, Option.getD_some]

lemma length_after_lt {c : UInt8} {a : Str} (h : c ∈ a) : (after c a).length < a.length := by
  obtain ⟨l, r, rfl, hl⟩ := List.eq_append_cons_of_mem h
  rw [after_append_cons hl, List.length_append, List.length_cons]
  omega

/-- The parser succeeds and gives the parts. -/
def Parses (lib : Ngx) (url : Url) : Prop :=
  ∃ u, parse_inet_url lib (some url.render) = some u ∧ u.host = url.host ∧
    u.port = (url.port.getD 80 : ℕ) ∧ u.uri = url.uri

lemma parses_iff : Parses lib url ↔ url.path ≠ [] ∨ slash ∉ url.query := by
  constructor
  · rintro ⟨u, hu, -, -, huri⟩
    by_contra hbad
    rw [not_or, not_not, not_not] at hbad
    obtain ⟨hpath, hquery⟩ := hbad
    have hrest : slash ∈ url.rest := by
      rw [Url.rest, hpath]
      exact List.mem_append_right _ hquery
    have hafter : after slash url.rest = after slash url.query := by
      obtain ⟨l, r, hlr, hl⟩ := List.eq_append_cons_of_mem hquery
      have hl' : slash ∉ url.auth ++ l := by
        rw [List.mem_append, not_or]
        exact ⟨url.notMem_auth.1, hl⟩
      rw [Url.rest, hpath, List.nil_append, hlr, after_append_cons hl, ← List.append_assoc,
        after_append_cons hl']
    rw [(parse_some hu).2.2.1, url.schemaOf_render, uriText, if_pos hrest, hafter, Url.uri,
      if_pos hpath] at huri
    have hlength := length_after_lt hquery
    rw [List.tail_eq_of_cons_eq huri] at hlength
    exact lt_irrefl _ hlength
  · intro h
    exact ⟨_, parse_render lib url h, rfl, rfl, rfl⟩

/-- **A URL with a host, a port and a path is taken apart into these.** -/
theorem parse_host_port {host path : Str} {n : ℕ} (hhost : ∀ c ∈ host, c ∉ lit ":/?")
    (hne : host ≠ []) (hn : 1 ≤ n ∧ n ≤ 65535) :
    parse_inet_url lib
        (some (lit "http://" ++ (host ++ colon :: (decimalNat n ++ slash :: path)))) =
      some ⟨lit "http", host, n, slash :: path⟩ := by
  let url : Url := ⟨.http, host, some n, slash :: path, [], hne, hhost, fun m hm => by
    cases hm
    exact hn, .inr ⟨path, rfl⟩, .inl rfl⟩
  have hrender : url.render =
      lit "http://" ++ (host ++ colon :: (decimalNat n ++ slash :: path)) := by
    simp [url, Url.render, Url.rest, Url.auth, Scheme.text]
  have huri : url.uri = slash :: path := by simp [url, Url.uri]
  rw [← hrender, parse_render lib url (.inl (List.cons_ne_nil _ _)), huri]
  rfl

end render

/-! ### What is taken apart -/

/-- The host has no separator and the port is a whole number. -/
def Clean (u : Inet) : Prop := (∀ c ∈ u.host, c ∉ lit ":/?") ∧ ∃ n : ℤ, u.port = n

/-- The first separator is the `?`, and a `/` comes after it. -/
def QueryFirst (rest : Str) : Prop :=
  ∃ a b, rest = a ++ question :: b ∧ (∀ c ∈ a, c ∉ lit ":/?") ∧ slash ∈ b

/-- The query does not hide a later `/`, and the text of the port reads as a whole number. -/
def Proper (lib : Ngx) (rest : Str) : Prop :=
  ¬ QueryFirst rest ∧ ∀ text, portText rest = some text → ∃ n : ℤ, lib.tonumber text = some (n : ℚ)

section clean

variable {rest : Str}

lemma notMem_before (c : UInt8) (a : Str) : c ∉ before c a := fun h => by
  have := List.mem_takeWhile_imp h
  simp at this

lemma slash_notMem_authority (rest : Str) : slash ∉ authority rest := by
  unfold authority
  split
  · exact notMem_before slash rest
  · next h => exact fun hmem => h (List.takeWhile_subset _ hmem)

/-- The host has a `?` exactly when the query comes first and hides a `/`. -/
lemma question_mem_hostText_iff : question ∈ hostText rest ↔ QueryFirst rest := by
  have hsub : hostText rest ⊆ authority rest := List.takeWhile_subset _
  constructor
  · intro h
    have hslash : slash ∈ rest := by
      by_contra hslash
      have hauth := hsub h
      rw [authority, if_neg hslash] at hauth
      exact notMem_before question rest hauth
    obtain ⟨tail, htail⟩ := (List.takeWhile_prefix _).trans (authority_isPrefix rest)
    change hostText rest ++ tail = rest at htail
    obtain ⟨a, b, hab, ha⟩ := List.eq_append_cons_of_mem h
    refine ⟨a, b ++ tail, ?_, fun c hc hsep => ?_, ?_⟩
    · rw [← htail, hab, List.append_assoc, List.cons_append]
    · have hhost : c ∈ hostText rest := hab ▸ List.mem_append_left _ hc
      have hseps : c = colon ∨ c = slash ∨ c = question := by
        have hlit : lit ":/?" = [colon, slash, question] := by decide
        simpa [hlit] using hsep
      rcases hseps with rfl | rfl | rfl
      · exact notMem_before colon _ hhost
      · exact slash_notMem_authority rest (hsub hhost)
      · exact ha hc
    · rw [← htail, List.mem_append] at hslash
      rcases hslash with hslash | hslash
      · exact absurd (hsub hslash) (slash_notMem_authority rest)
      · exact List.mem_append_right _ hslash
  · rintro ⟨a, b, rfl, ha, hb⟩
    obtain ⟨l, r, rfl, hl⟩ := List.eq_append_cons_of_mem hb
    have hcolon : colon ∉ a := fun h => ha _ h (by decide)
    have hslash : slash ∉ a ++ question :: l := by
      rw [List.mem_append, List.mem_cons]
      rintro (h | h | h)
      · exact ha _ h (by decide)
      · exact absurd h (by decide)
      · exact hl h
    have happ : a ++ question :: (l ++ slash :: r) = a ++ question :: l ++ slash :: r := by simp
    have hne : ∀ c ∈ a, decide (c ≠ colon) = true :=
      fun c hc => decide_eq_true fun h => hcolon (h ▸ hc)
    rw [hostText, authority, happ, if_pos (List.mem_append_right _ List.mem_cons_self),
      before_append_cons hslash, before, List.takeWhile_append_of_pos hne,
      List.takeWhile_cons_of_pos (by decide)]
    exact List.mem_append_right _ List.mem_cons_self

lemma clean_iff {lib : Ngx} {s : Str} {u : Inet} (h : parse_inet_url lib (some s) = some u) :
    Clean u ↔ Proper lib (schemaOf s).2 := by
  obtain ⟨hhost, -, -, hport⟩ := parse_some h
  generalize (schemaOf s).2 = rest at hhost hport
  have hseps : (∀ c ∈ u.host, c ∉ lit ":/?") ↔ question ∉ hostText rest := by
    rw [hhost]
    have hlit : lit ":/?" = [colon, slash, question] := by decide
    constructor
    · exact fun h hquestion => h _ hquestion (by decide)
    · intro hquestion c hc hsep
      have hsep : c = colon ∨ c = slash ∨ c = question := by simpa [hlit] using hsep
      rcases hsep with rfl | rfl | rfl
      · exact notMem_before colon _ hc
      · exact slash_notMem_authority rest (List.takeWhile_subset _ hc)
      · exact hquestion hc
  have hnumber : (∃ n : ℤ, u.port = n) ↔
      ∀ text, portText rest = some text → ∃ n : ℤ, lib.tonumber text = some (n : ℚ) := by
    cases htext : portText rest with
    | none =>
      rw [htext] at hport
      refine iff_of_true ⟨80, hport⟩ fun _ h => ?_
      cases h
    | some text =>
      rw [htext] at hport
      simp [hport]
  rw [Clean, Proper, hseps, question_mem_hostText_iff, hnumber]

end clean

/-- **What the parser does with URLs**: it gives back the parts of one that is put together, unless
a query comes right behind the host or the port and has a `/`; and what it gives is clean, unless a
query hides a `/` in this way or the port does not read as a whole number. -/
theorem parse_inet_url_iff (lib : Ngx) :
    (∀ url : Url, Parses lib url ↔ url.path ≠ [] ∨ slash ∉ url.query) ∧
      ∀ s u, parse_inet_url lib (some s) = some u → (Clean u ↔ Proper lib (schemaOf s).2) :=
  ⟨fun _ => parses_iff, fun _ _ => clean_iff⟩

section samples

def sampleUrl : Url where
  scheme := .http
  host := lit "h"
  port := none
  path := []
  query := lit "?x=/a"
  host_ne := by decide
  host_plain := by decide +kernel
  port_range := fun _ h => nomatch h
  path_head := .inl rfl
  query_head := .inr ⟨lit "x=/a", rfl⟩

theorem parse_inet_url_iff_sample :
    (Parses (Ngx.ofTexts []) sampleUrl ↔ sampleUrl.path ≠ [] ∨ slash ∉ sampleUrl.query) ∧
      (Clean ⟨lit "http", lit "h", 8080, lit "/b"⟩ ↔
        Proper (Ngx.ofTexts []) (schemaOf (lit "h:8080/b")).2) := by
  have hparse : parse_inet_url (Ngx.ofTexts []) (some (lit "h:8080/b")) =
      some ⟨lit "http", lit "h", 8080, lit "/b"⟩ := by decide +kernel
  exact ⟨(parse_inet_url_iff _).1 _, (parse_inet_url_iff _).2 _ _ hparse⟩

/-- The `/` of the query ends the host. -/
theorem query_slash_breaks :
    sampleUrl.render = lit "http://h?x=/a" ∧
      parse_inet_url (Ngx.ofTexts []) (some sampleUrl.render) =
        some ⟨lit "http", lit "h?x=", 80, lit "/a"⟩ ∧
      ¬ Parses (Ngx.ofTexts []) sampleUrl ∧
      ¬ Clean ⟨lit "http", lit "h?x=", 80, lit "/a"⟩ := by
  refine ⟨by decide, by decide +kernel, fun h => ?_, fun h => ?_⟩
  · exact (parses_iff.mp h).elim (fun h => h rfl) fun h => absurd h (by decide)
  · exact h.1 question (by decide) (by decide)

end samples

end Sax.InetUrl
