import Mathlib.Algebra.Order.BigOperators.Group.Finset
import Sax.LuaVal

/-!
The text of a select statement: words, symbols and string literals, and the statements that
name the values a column may have.

The lexer is a machine that reads one byte at a time. Inside a literal two quotes stand for one
and a backslash escapes the byte after it, as in MySQL. A literal whose content denotes itself is
`Plain`.
-/

namespace Sax.SqlText

open Sax.LuaVal

inductive Token
  | word (w : Str)
  | sym (c : UInt8)
  | str (s : Str)
  deriving DecidableEq

/-- Where the lexer stands. After a quote in a literal it waits for the next byte, since a second
quote goes on with the literal. -/
inductive Phase
  | start
  | word (w : Str)
  | str (s : Str)
  | esc (s : Str)
  | quote (s : Str)
  deriving DecidableEq

def isSpace (c : UInt8) : Bool := c = 32 || (9 ≤ c && c ≤ 13)

def isWord (c : UInt8) : Bool :=
  (48 ≤ c && c ≤ 57) || (65 ≤ c && c ≤ 90) || (97 ≤ c && c ≤ 122) || c = 95 || c = 36 || 128 ≤ c

/-- `(`, `)`, `,` and `=`. -/
def isSym (c : UInt8) : Bool := c = 40 || c = 41 || c = 44 || c = 61

/-- What an escaped byte stands for; `%` and `_` keep their backslash. -/
def escape (c : UInt8) : Str :=
  if c = 48 then [0] else if c = 98 then [8] else if c = 110 then [10] else if c = 114 then [13]
  else if c = 116 then [9] else if c = 90 then [26] else if c = 37 then [92, 37]
  else if c = 95 then [92, 95] else [c]

/-- A byte outside of words and literals. Other symbols, and comments, have no place in these
statements. -/
def begin (c : UInt8) : Option (List Token × Phase) :=
  if isSpace c then some ([], .start)
  else if c = 39 then some ([], .str [])
  else if isWord c then some ([], .word [c])
  else if isSym c then some ([.sym c], .start)
  else none

def step : Phase → UInt8 → Option (List Token × Phase)
  | .start, c => begin c
  | .word w, c =>
    if isWord c then some ([], .word (w ++ [c]))
    else (begin c).map fun r => (.word w :: r.1, r.2)
  | .str s, c =>
    if c = 39 then some ([], .quote s)
    else if c = 92 then some ([], .esc s)
    else some ([], .str (s ++ [c]))
  | .esc s, c => some ([], .str (s ++ escape c))
  | .quote s, c =>
    if c = 39 then some ([], .str (s ++ [39]))
    else (begin c).map fun r => (.str s :: r.1, r.2)

def finish : Phase → Option (List Token)
  | .start => some []
  | .word w => some [.word w]
  | .quote s => some [.str s]
  | .str _ => none
  | .esc _ => none

/-- The tokens of a text. -/
def lex : Phase → Str → Option (List Token)
  | ph, [] => finish ph
  | ph, c :: s => (step ph c).bind fun r => (lex r.2 s).map (r.1 ++ ·)

/-- The tokens complete so far, and where the lexer stands. -/
def run : Phase → Str → Option (List Token × Phase)
  | ph, [] => some ([], ph)
  | ph, c :: s => (step ph c).bind fun r => (run r.2 s).map fun q => (r.1 ++ q.1, q.2)

/-- `select columns from table where column = value`, or `column in (value, ...)`. -/
structure Select where
  columns : List Str
  table : Str
  column : Str
  values : List Str
  deriving DecidableEq

def parseValues : List Token → Option (List Str)
  | [.str s, .sym c] => if c = 41 then some [s] else none
  | .str s :: .sym c :: rest => if c = 44 then (parseValues rest).map (s :: ·) else none
  | _ => none

def parseWhere : List Token → Option (Str × List Str)
  | [.word column, .sym c, .str s] => if c = 61 then some (column, [s]) else none
  | .word column :: .word w :: .sym c :: rest =>
    if w = lit "in" ∧ c = 40 then (parseValues rest).map fun values => (column, values) else none
  | _ => none

def parseColumns : List Token → Option (List Str × List Token)
  | .word column :: .sym c :: rest =>
    if c = 44 then (parseColumns rest).map fun r => (column :: r.1, r.2) else none
  | .word column :: .word w :: rest => if w = lit "from" then some ([column], rest) else none
  | _ => none

def parseTokens (tokens : List Token) : Option Select :=
  match tokens with
  | .word s :: rest =>
    if s = lit "select" then
      match parseColumns rest with
      | some (columns, .word table :: .word w :: rest) =>
        if w = lit "where" then (parseWhere rest).map fun r => ⟨columns, table, r.1, r.2⟩ else none
      | _ => none
    else none
  | _ => none

def parse (text : Str) : Option Select := (lex .start text).bind parseTokens

/-! ### A byte at a time -/

section bytes

variable {acc z : Str} {c : UInt8}

lemma lex_silent {ph ph' : Phase} (h : step ph c = some ([], ph')) :
    lex ph (c :: z) = lex ph' z := by
  rw [lex, h, Option.bind_some]
  cases lex ph' z <;> rfl

lemma lex_open : lex .start (39 :: z) = lex (.str []) z := lex_silent (by decide)

lemma lex_str_quote : lex (.str acc) (39 :: z) = lex (.quote acc) z := lex_silent rfl

lemma lex_str_esc : lex (.str acc) (92 :: z) = lex (.esc acc) z := lex_silent rfl

lemma lex_str (hq : c ≠ 39) (hb : c ≠ 92) : lex (.str acc) (c :: z) = lex (.str (acc ++ [c])) z :=
  lex_silent (by simp [step, hq, hb])

lemma lex_esc : lex (.esc acc) (c :: z) = lex (.str (acc ++ escape c)) z := lex_silent rfl

lemma lex_quote_quote : lex (.quote acc) (39 :: z) = lex (.str (acc ++ [39])) z := lex_silent rfl

/-- After the quote that closes a literal the text is read as after the token. -/
lemma lex_quote (h : c ≠ 39) :
    lex (.quote acc) (c :: z) = (lex .start (c :: z)).map (.str acc :: ·) := by
  have hstep : step (.quote acc) c = (begin c).map fun r => (.str acc :: r.1, r.2) := if_neg h
  rw [lex, lex, hstep, step]
  cases begin c with
  | none => rfl
  | some r => cases hlex : lex r.2 z <;> simp [hlex]

end bytes

/-! ### Texts put together -/

lemma lex_append (ph : Phase) (a b : Str) :
    lex ph (a ++ b) = (run ph a).bind fun r => (lex r.2 b).map (r.1 ++ ·) := by
  induction a generalizing ph with
  | nil => cases h : lex ph b <;> simp [run, h]
  | cons c a ih =>
    rw [List.cons_append, lex, run]
    cases hstep : step ph c with
    | none => rfl
    | some r =>
      simp only [Option.bind_some, ih]
      cases run r.2 a with
      | none => rfl
      | some q => cases h : lex q.2 b <;> simp [h]

/-- From inside a literal the first token is that literal. -/
lemma lex_literal {ph : Phase} {s x : Str} {ts : List Token}
    (hph : ph = .str s ∨ ph = .esc s ∨ ph = .quote s) (h : lex ph x = some ts) :
    ∃ v ts', ts = .str v :: ts' ∧ s <+: v := by
  induction x generalizing ph s with
  | nil => rcases hph with rfl | rfl | rfl <;> cases h; exact ⟨s, [], rfl, List.prefix_rfl⟩
  | cons c x ih =>
    rw [lex] at h
    obtain ⟨⟨ts₁, ph'⟩, hstep, h⟩ := Option.bind_eq_some_iff.mp h
    obtain ⟨ts₂, hlex, rfl⟩ := Option.map_eq_some_iff.mp h
    -- the token of a literal comes when it is left; until then it grows
    have hgrow : ∀ s', s <+: s' → (ph' = .str s' ∨ ph' = .esc s' ∨ ph' = .quote s') → ts₁ = [] →
        ∃ v ts', ts₁ ++ ts₂ = .str v :: ts' ∧ s <+: v := by
      rintro s' hs' hph' rfl
      obtain ⟨v, ts', rfl, hv⟩ := ih hph' hlex
      exact ⟨v, ts', rfl, hs'.trans hv⟩
    rcases hph with rfl | rfl | rfl
    · simp only [step] at hstep
      split_ifs at hstep <;> cases hstep
      · exact hgrow s List.prefix_rfl (by simp) rfl
      · exact hgrow s List.prefix_rfl (by simp) rfl
      · exact hgrow _ (List.prefix_append _ _) (.inl rfl) rfl
    · cases hstep
      exact hgrow _ (List.prefix_append _ _) (.inl rfl) rfl
    · simp only [step] at hstep
      split_ifs at hstep
      · cases hstep
        exact hgrow _ (List.prefix_append _ _) (.inl rfl) rfl
      · obtain ⟨r, -, hr⟩ := Option.map_eq_some_iff.mp hstep
        cases hr
        exact ⟨s, _, rfl, List.prefix_rfl⟩

/-! ### What stands between two quotes -/

/-- What a text denotes when it stands between two quotes and neither of them takes part in an
escape of it. -/
def content : Str → Option Str
  | [] => some []
  | [c] => if c = 39 ∨ c = 92 then none else some [c]
  | c :: d :: s =>
    if c = 39 then if d = 39 then (content s).map (39 :: ·) else none
    else if c = 92 then (content s).map (escape d ++ ·)
    else (content (d :: s)).map (c :: ·)

/-- No quote, and no backslash but before `%` and `_`. -/
def Plain : Str → Prop
  | [] => True
  | [c] => c ≠ 39 ∧ c ≠ 92
  | c :: d :: s => if c = 92 then (d = 37 ∨ d = 95) ∧ Plain s else c ≠ 39 ∧ Plain (d :: s)

lemma escape_length (c : UInt8) : (escape c).length = if c = 37 ∨ c = 95 then 2 else 1 := by
  unfold escape
  split_ifs <;> simp_all

lemma escape_plain {c : UInt8} (h : c = 37 ∨ c = 95) : escape c = [92, c] := by
  rcases h with rfl | rfl <;> rfl

/-- A plain text denotes itself. -/
lemma content_plain {x : Str} (h : Plain x) : content x = some x := by
  fun_induction Plain x with
  | case1 => rfl
  | case2 c => simp [content, h]
  | case3 d s ih =>
    rw [content, if_neg (by decide), if_pos rfl, ih h.2, Option.map_some, escape_plain h.1]
    rfl
  | case4 c d s hc ih =>
    rw [content, if_neg h.1, if_neg hc, ih h.2]
    rfl

/-- A text is at least as long as what it denotes, and longer unless it is plain. -/
lemma content_length {x d : Str} (h : content x = some d) :
    d.length ≤ x.length ∧ (d.length = x.length → Plain x) := by
  fun_induction content x generalizing d with
  | case1 => cases h; simp [Plain]
  | case2 c => cases h
  | case3 c hc =>
    cases h
    rw [not_or] at hc
    exact ⟨le_rfl, fun _ => hc⟩
  | case4 s ih =>
    obtain ⟨d', hd', rfl⟩ := Option.map_eq_some_iff.mp h
    obtain ⟨hle, -⟩ := ih hd'
    simp only [List.length_cons]
    omega
  | case5 => cases h
  | case6 e s _ ih =>
    obtain ⟨d', hd', rfl⟩ := Option.map_eq_some_iff.mp h
    obtain ⟨hle, hplain⟩ := ih hd'
    rw [List.length_append, escape_length]
    simp only [List.length_cons, Plain, if_true]
    split
    · next he => exact ⟨by omega, fun heq => ⟨he, hplain (by omega)⟩⟩
    · omega
  | case7 c e s hc hc' ih =>
    obtain ⟨d', hd', rfl⟩ := Option.map_eq_some_iff.mp h
    obtain ⟨hle, hplain⟩ := ih hd'
    simp only [List.length_cons] at hle hplain ⊢
    refine ⟨by omega, fun heq => ?_⟩
    rw [Plain, if_neg hc']
    exact ⟨hc, hplain (by omega)⟩

/-- A literal is read to its closing quote. -/
lemma lex_content {x d : Str} (h : content x = some d) (acc z : Str) :
    lex (.str acc) (x ++ 39 :: z) = lex (.quote (acc ++ d)) z := by
  fun_induction content x generalizing d acc with
  | case1 => cases h; rw [List.append_nil, List.nil_append, lex_str_quote]
  | case2 c => cases h
  | case3 c hc =>
    cases h
    rw [not_or] at hc
    rw [List.cons_append, lex_str hc.1 hc.2, List.nil_append, lex_str_quote]
  | case4 s ih =>
    obtain ⟨d', hd', rfl⟩ := Option.map_eq_some_iff.mp h
    rw [List.cons_append, List.cons_append, lex_str_quote, lex_quote_quote, ih hd',
      List.append_assoc, List.singleton_append]
  | case5 => cases h
  | case6 e s _ ih =>
    obtain ⟨d', hd', rfl⟩ := Option.map_eq_some_iff.mp h
    rw [List.cons_append, List.cons_append, lex_str_esc, lex_esc, ih hd', List.append_assoc]
  | case7 c e s hc hc' ih =>
    obtain ⟨d', hd', rfl⟩ := Option.map_eq_some_iff.mp h
    rw [List.cons_append, lex_str hc hc', ih hd', List.append_assoc, List.singleton_append]

/-- Tokens that cannot stand after a value. -/
def Stray (ts : List Token) : Prop :=
  ts ≠ [] ∧ ts ≠ [.sym 41] ∧ ∀ rest, ts ≠ .sym 44 :: rest

lemma lex_word {w x : Str} {ts : List Token} (h : lex (.word w) x = some ts) :
    ∃ w' ts', ts = .word w' :: ts' := by
  induction x generalizing w with
  | nil => cases h; exact ⟨w, [], rfl⟩
  | cons c x ih =>
    rw [lex, step] at h
    split_ifs at h
    · rw [Option.bind_some] at h
      obtain ⟨ts', hts', rfl⟩ := Option.map_eq_some_iff.mp h
      exact ih hts'
    · obtain ⟨r, hr, h⟩ := Option.bind_eq_some_iff.mp h
      obtain ⟨ts', -, rfl⟩ := Option.map_eq_some_iff.mp h
      obtain ⟨q, -, rfl⟩ := Option.map_eq_some_iff.mp hr
      exact ⟨w, _, rfl⟩

/-- Outside of a literal, a quote that no comma stands before is stray. -/
lemma lex_stray {y z : Str} (hy : 44 ∉ y) {ts : List Token}
    (h : lex .start (y ++ 39 :: z) = some ts) : Stray ts := by
  have hliteral : ∀ {x ts}, lex (.str []) x = some ts → Stray ts := by
    intro x ts h
    obtain ⟨v, ts', rfl, -⟩ := lex_literal (.inl rfl) h
    simp [Stray]
  induction y generalizing ts with
  | nil =>
    rw [List.nil_append, lex_open] at h
    exact hliteral h
  | cons c y ih =>
    rw [List.mem_cons, not_or] at hy
    rw [List.cons_append, lex, step, begin] at h
    split_ifs at h with hspace hquote hword hsym
    · obtain ⟨ts', hts', rfl⟩ := Option.map_eq_some_iff.mp h
      exact ih hy.2 hts'
    · obtain ⟨ts', hts', rfl⟩ := Option.map_eq_some_iff.mp h
      exact hliteral hts'
    · obtain ⟨ts', hts', rfl⟩ := Option.map_eq_some_iff.mp h
      obtain ⟨w, ts'', rfl⟩ := lex_word hts'
      simp [Stray]
    · obtain ⟨ts', hts', rfl⟩ := Option.map_eq_some_iff.mp h
      have hne := (ih hy.2 hts').1
      refine ⟨by simp, by simp [hne], fun rest heq => hy.1 ?_⟩
      simp only [List.singleton_append, List.cons.injEq, Token.sym.injEq] at heq
      exact heq.1.symm
    · cases h

/-- **A text that is no content** swallows the quote after it, or leaves the literal before it. -/
lemma lex_content_none {x : Str} (h : content x = none) (hx : 44 ∉ x) {acc z : Str}
    {ts : List Token} (hlex : lex (.str acc) (x ++ 39 :: z) = some ts) :
    (∃ acc', lex (.str acc') z = some ts) ∨ ∃ s ts', ts = .str s :: ts' ∧ Stray ts' := by
  fun_induction content x generalizing acc with
  | case1 => cases h
  | case2 c hc =>
    left
    rcases hc with rfl | rfl
    · rw [List.singleton_append, lex_str_quote, lex_quote_quote] at hlex
      exact ⟨_, hlex⟩
    · rw [List.singleton_append, lex_str_esc, lex_esc] at hlex
      exact ⟨_, hlex⟩
  | case3 => cases h
  | case4 s ih =>
    rw [List.cons_append, List.cons_append, lex_str_quote, lex_quote_quote] at hlex
    exact ih (Option.map_eq_none_iff.mp h) (by simp_all) hlex
  | case5 d s hd =>
    right
    rw [List.cons_append, lex_str_quote, List.cons_append, lex_quote hd] at hlex
    obtain ⟨ts', hts', rfl⟩ := Option.map_eq_some_iff.mp hlex
    exact ⟨acc, ts', rfl, lex_stray (y := d :: s) (by simp_all) hts'⟩
  | case6 e s _ ih =>
    rw [List.cons_append, List.cons_append, lex_str_esc, lex_esc] at hlex
    exact ih (Option.map_eq_none_iff.mp h) (by simp_all) hlex
  | case7 c e s hc hc' ih =>
    rw [List.cons_append, lex_str hc hc'] at hlex
    exact ih (Option.map_eq_none_iff.mp h) (by simp_all) hlex

/-! ### A list of literals -/

/-- `x','y','...` -/
def joined : Str → List Str → Str
  | x, [] => x
  | x, y :: l => x ++ 39 :: 44 :: 39 :: joined y l

lemma parseValues_cons (s : Str) (ts : List Token) :
    parseValues (.str s :: .sym 44 :: ts) = (parseValues ts).map (s :: ·) := by
  cases ts <;> rfl

lemma parseValues_stray {s : Str} {ts : List Token} (h : Stray ts) :
    parseValues (.str s :: ts) = none := by
  obtain ⟨hnil, hclose, hcomma⟩ := h
  cases ts with
  | nil => exact absurd rfl hnil
  | cons t ts =>
    cases t with
    | sym c =>
      have hne : c ≠ 44 := fun hc => hcomma ts (by rw [hc])
      cases ts with
      | nil =>
        have hne : c ≠ 41 := fun hc => hclose (by rw [hc])
        simp [parseValues, hne]
      | cons t ts => simp [parseValues, hne]
    | _ => rfl

lemma mem_parseValues {s : Str} {ts : List Token} {values : List Str}
    (h : parseValues (.str s :: ts) = some values) : s ∈ values := by
  by_cases hstray : Stray ts
  · rw [parseValues_stray hstray] at h
    cases h
  · simp only [Stray, not_and, not_forall, not_not] at hstray
    by_cases hnil : ts = []
    · subst hnil
      cases h
    · by_cases hclose : ts = [.sym 41]
      · subst hclose
        cases h
        exact List.mem_singleton_self s
      · obtain ⟨rest, rfl⟩ := hstray hnil hclose
        rw [parseValues_cons] at h
        obtain ⟨values', -, rfl⟩ := Option.map_eq_some_iff.mp h
        exact List.mem_cons_self

lemma lex_separator (d z : Str) : lex (.quote d) (44 :: 39 :: z) =
    (lex (.str []) z).map fun ts => .str d :: .sym 44 :: ts := by
  rw [lex_quote (by decide), lex, step]
  have hcomma : begin 44 = some ([.sym 44], .start) := by decide
  rw [hcomma, Option.bind_some, lex_open]
  cases lex (.str []) z <;> rfl

lemma lex_close (d : Str) : lex (.quote d) [41] = some [.str d, .sym 41] := by
  rw [lex_quote (by decide)]
  rfl

/-- **The literals of a list**: where the tokens parse as values without commas, each text
between the separators is the content of one value. -/
theorem parseValues_joined {x : Str} {l : List Str} (hx : 44 ∉ x) (hl : ∀ y ∈ l, 44 ∉ y)
    {ts : List Token} {values : List Str}
    (hlex : lex (.str []) (joined x l ++ [39, 41]) = some ts)
    (hparse : parseValues ts = some values) (hvalues : ∀ v ∈ values, 44 ∉ v) :
    (x :: l).map content = values.map some := by
  induction l generalizing x ts values with
  | nil =>
    cases hcontent : content x with
    | some d =>
      rw [joined, lex_content hcontent, List.nil_append, lex_close] at hlex
      cases hlex
      cases hparse
      rw [List.map_singleton, hcontent, List.map_singleton]
    | none =>
      rcases lex_content_none hcontent hx hlex with ⟨acc, hopen⟩ | ⟨s, ts', rfl, hstray⟩
      · rw [lex_str (by decide) (by decide)] at hopen
        cases hopen
      · rw [parseValues_stray hstray] at hparse
        cases hparse
  | cons y l ih =>
    have htext : joined x (y :: l) ++ [39, 41] = x ++ 39 :: 44 :: 39 :: (joined y l ++ [39, 41]) := by
      simp [joined]
    rw [htext] at hlex
    cases hcontent : content x with
    | some d =>
      rw [lex_content hcontent, List.nil_append, lex_separator] at hlex
      obtain ⟨ts', hts', rfl⟩ := Option.map_eq_some_iff.mp hlex
      rw [parseValues_cons] at hparse
      obtain ⟨values', hvalues', rfl⟩ := Option.map_eq_some_iff.mp hparse
      obtain ⟨hy, hl⟩ := List.forall_mem_cons.mp hl
      have hrest := ih hy hl hts' hvalues' fun v hv => hvalues v (List.mem_cons_of_mem _ hv)
      rw [List.map_cons, hcontent, hrest, List.map_cons]
    | none =>
      -- the literal goes on over the separator, or ends before it
      rcases lex_content_none hcontent hx hlex with ⟨acc, hopen⟩ | ⟨s, ts', rfl, hstray⟩
      · rw [lex_str (by decide) (by decide), lex_str_quote] at hopen
        obtain ⟨v, ts', rfl, hv⟩ := lex_literal (.inr (.inr rfl)) hopen
        exact absurd (hv.subset (by simp)) (hvalues v (mem_parseValues hparse))
      · rw [parseValues_stray hstray] at hparse
        cases hparse

/-- Plain texts are read as they are. -/
theorem parseValues_plain {x : Str} {l : List Str} (hx : Plain x) (hl : ∀ y ∈ l, Plain y) :
    ∃ ts, lex (.str []) (joined x l ++ [39, 41]) = some ts ∧ parseValues ts = some (x :: l) := by
  induction l generalizing x with
  | nil =>
    refine ⟨[.str x, .sym 41], ?_, rfl⟩
    rw [joined, lex_content (content_plain hx), List.nil_append, lex_close]
  | cons y l ih =>
    obtain ⟨hy, hl⟩ := List.forall_mem_cons.mp hl
    obtain ⟨ts, hts, hparse⟩ := ih hy hl
    have htext : joined x (y :: l) ++ [39, 41] = x ++ 39 :: 44 :: 39 :: (joined y l ++ [39, 41]) := by
      simp [joined]
    refine ⟨.str x :: .sym 44 :: ts, ?_, by rw [parseValues_cons, hparse, Option.map_some]⟩
    rw [htext, lex_content (content_plain hx), List.nil_append, lex_separator, hts, Option.map_some]

/-- A single literal at the end of the text. -/
theorem lex_single {x : Str} (hx : 44 ∉ x) {v : Str} :
    lex (.str []) (x ++ [39]) = some [.str v] ↔ content x = some v := by
  constructor
  · intro hlex
    cases hcontent : content x with
    | some d =>
      rw [lex_content hcontent, List.nil_append] at hlex
      cases hlex
      rfl
    | none =>
      rcases lex_content_none hcontent hx hlex with ⟨acc, hopen⟩ | ⟨s, ts', heq, hstray⟩
      · cases hopen
      · cases heq
        exact absurd rfl hstray.1
  · intro hcontent
    rw [lex_content hcontent]
    rfl

/-! ### Texts that denote each other -/

/-- **Texts that denote all of each other denote themselves**: no text is shorter than what it
denotes. -/
theorem plain_of_contents {l values : List Str} (h : l.map content = values.map some)
    (hset : ∀ x, x ∈ values ↔ x ∈ l) : ∀ x ∈ l, Plain x := by
  let f : Str → Str := fun x => (content x).getD []
  have hcontent : ∀ x ∈ l, content x = some (f x) := by
    intro x hx
    obtain ⟨v, -, hv⟩ := List.mem_map.mp (h ▸ List.mem_map_of_mem hx : content x ∈ values.map some)
    simp [f, ← hv]
  have hvalues : values = l.map f := by
    have := congrArg (List.map fun o : Option Str => o.getD []) h
    simpa [Function.comp_def, f, eq_comm] using this
  -- the denotations are a permutation of the texts, so their lengths add up to the same
  have himage : l.toFinset.image f = l.toFinset := by
    ext x
    rw [Finset.mem_image, List.mem_toFinset, ← hset, hvalues, List.mem_map]
    simp only [List.mem_toFinset]
  have hinj : Set.InjOn f l.toFinset := Finset.card_image_iff.mp (by rw [himage])
  have hsum : ∑ x ∈ l.toFinset, (f x).length = ∑ x ∈ l.toFinset, x.length := by
    rw [← Finset.sum_image (f := List.length) hinj, himage]
  have hle : ∀ x ∈ l.toFinset, (f x).length ≤ x.length := fun x hx =>
    (content_length (hcontent x (List.mem_toFinset.mp hx))).1
  intro x hx
  exact (content_length (hcontent x hx)).2
    ((Finset.sum_eq_sum_iff_of_le hle).mp hsum x (List.mem_toFinset.mpr hx))

end Sax.SqlText
