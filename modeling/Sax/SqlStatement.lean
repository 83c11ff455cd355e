import Sax.Runtime
import Sax.SqlText

/-!
The text of a statement that changes or counts the rows of a table.

The lexer reads one byte at a time, as the one of the select statements does, and knows numerals
too. `Reads x ts` says that a text is read as tokens of which the last waits for what stands after
it, and `Closed x ts` that nothing waits; texts are put together by these two alone. A statement
has one list of tokens, and from that list it is parsed again.
-/

namespace Sax.SqlStatement

open Sax.LuaVal Sax.Runtime
open Sax.SqlText (isSpace isWord escape content)

inductive Token
  | word (w : Str)
  | neg (w : Str)
  | sym (c : UInt8)
  | str (s : Str)
  | num (x : Str)
  deriving DecidableEq

/-- `(`, `)`, `,`, `=` and `*`. -/
def isSym (c : UInt8) : Bool := c = 40 || c = 41 || c = 44 || c = 61 || c = 42

/-- How far a numeral has been read. -/
inductive Stage
  | start
  | sign
  | int
  | point
  | frac
  | exp
  | expSign
  | expInt
  deriving DecidableEq

def Stage.next : Stage → UInt8 → Option Stage
  | .start, c => if isDigit c then some .int else if c = 45 then some .sign else none
  | .sign, c => if isDigit c then some .int else none
  | .int, c =>
    if isDigit c then some .int else if c = 46 then some .point
    else if c = 101 then some .exp else none
  | .point, c => if isDigit c then some .frac else none
  | .frac, c => if isDigit c then some .frac else if c = 101 then some .exp else none
  | .exp, c =>
    if isDigit c then some .expInt else if c = 43 ∨ c = 45 then some .expSign else none
  | .expSign, c => if isDigit c then some .expInt else none
  | .expInt, c => if isDigit c then some .expInt else none

def Stage.done : Stage → Bool
  | .int | .frac | .expInt => true
  | _ => false

/-- `12`, `-0.5` or `1e+20`. -/
def IsNumeral (x : Str) : Prop := ∃ p, x.foldlM Stage.next .start = some p ∧ p.done

/-- A name: not empty, and not begun by a digit. -/
def IsName (w : Str) : Prop := w.head?.any (fun c => !isDigit c) ∧ w.all isWord

instance (w : Str) : Decidable (IsName w) := inferInstanceAs (Decidable (_ ∧ _))

/-! ### The lexer -/

/-- Where the lexer stands; after a quote in a literal a second one goes on with it. -/
inductive Phase
  | start
  | word (w : Str)
  | neg (w : Str)
  | str (s : Str)
  | esc (s : Str)
  | quote (s : Str)
  | num (p : Stage) (x : Str)
  deriving DecidableEq

/-- The token that ends here, if one may. -/
def Phase.token : Phase → Option Token
  | .word w => some (.word w)
  | .neg w => some (.neg w)
  | .quote s => some (.str s)
  | .num p x => if p.done then some (.num x) else none
  | _ => none

/-- A byte outside of tokens; other symbols, and comments, have no place in these statements. -/
def begin (c : UInt8) : Option (List Token × Phase) :=
  if isSpace c then some ([], .start)
  else if c = 39 then some ([], .str [])
  else match Stage.start.next c with
    | some p => some ([], .num p [c])
    | none =>
      if isWord c then some ([], .word [c])
      else if isSym c then some ([.sym c], .start)
      else none

def step : Phase → UInt8 → Option (List Token × Phase)
  | .start, c => begin c
  | .word w, c =>
    if isWord c then some ([], .word (w ++ [c]))
    else (begin c).map fun r => (.word w :: r.1, r.2)
  | .neg w, c =>
    if isWord c then some ([], .neg (w ++ [c]))
    else (begin c).map fun r => (.neg w :: r.1, r.2)
  | .str s, c =>
    if c = 39 then some ([], .quote s)
    else if c = 92 then some ([], .esc s)
    else some ([], .str (s ++ [c]))
  | .esc s, c => some ([], .str (s ++ escape c))
  | .quote s, c =>
    if c = 39 then some ([], .str (s ++ [39]))
    else (begin c).map fun r => (.str s :: r.1, r.2)
  | .num p x, c =>
    match p.next c with
    | some p' => some ([], .num p' (x ++ [c]))
    | none =>
      if p = .sign ∧ isWord c then some ([], .neg [c])
      else if p.done && !isWord c then (begin c).map fun r => (.num x :: r.1, r.2)
      else none

/-- The tokens complete so far, and where the lexer stands. -/
def run : Phase → Str → Option (List Token × Phase)
  | ph, [] => some ([], ph)
  | ph, c :: s => (step ph c).bind fun r => (run r.2 s).map fun q => (r.1 ++ q.1, q.2)

/-- The tokens of a text. -/
def lex (text : Str) : Option (List Token) :=
  (run .start text).bind fun r =>
    if r.2 = .start then some r.1 else r.2.token.map fun t => r.1 ++ [t]

lemma run_append (ph : Phase) (a b : Str) :
    run ph (a ++ b) = (run ph a).bind fun r => (run r.2 b).map fun q => (r.1 ++ q.1, q.2) := by
  induction a generalizing ph with
  | nil => cases h : run ph b <;> simp [run, h]
  | cons c a ih =>
    rw [List.cons_append, run, run]
    cases hstep : step ph c with
    | none => rfl
    | some r =>
      simp only [Option.bind_some, ih]
      cases run r.2 a with
      | none => rfl
      | some q => cases h : run q.2 b <;> simp [h]

lemma run_silent {ph ph' : Phase} {c : UInt8} {s : Str} (h : step ph c = some ([], ph')) :
    run ph (c :: s) = run ph' s := by
  rw [run, h, Option.bind_some]
  cases run ph' s <;> rfl

/-! ### Texts and their tokens -/

/-- The text is read as the tokens, and a new one may begin at once. -/
def Closed (x : Str) (ts : List Token) : Prop := run .start x = some (ts, .start)

/-- The text is read as the tokens, of which the last is complete but may go on. -/
def Reads (x : Str) (ts : List Token) : Prop :=
  ∃ ts' ph t, run .start x = some (ts', ph) ∧ ph.token = some t ∧ ts = ts' ++ [t]

instance (x : Str) (ts : List Token) : Decidable (Closed x ts) :=
  inferInstanceAs (Decidable (_ = _))

/-- A byte that no token goes on with. -/
def isBound (c : UInt8) : Bool := isSpace c || isSym c

/-- A closed text that may stand right after any token. -/
def Link (x : Str) (ts : List Token) : Prop := x.head?.any isBound ∧ Closed x ts

instance (x : Str) (ts : List Token) : Decidable (Link x ts) := inferInstanceAs (Decidable (_ ∧ _))

section texts

variable {x y : Str} {ts us : List Token} {c : UInt8}

lemma bound_facts (h : isBound c) : isWord c = false ∧ c ≠ 39 ∧ ∀ p : Stage, p.next c = none := by
  have hbytes : isWord c = false ∧ c ≠ 39 ∧ isDigit c = false ∧
      c ≠ 43 ∧ c ≠ 45 ∧ c ≠ 46 ∧ c ≠ 101 := by
    simp only [isBound, isSpace, isSym, isWord, isDigit, Bool.or_eq_true, Bool.and_eq_true,
      Bool.or_eq_false_iff, Bool.and_eq_false_iff, decide_eq_true_eq, decide_eq_false_iff_not, ne_eq,
      ← UInt8.toNat_inj, UInt8.le_iff_toNat_le, UInt8.reduceToNat] at h ⊢
    omega
  obtain ⟨hword, hquote, hdigit, hplus, hminus, hpoint, hexp⟩ := hbytes
  refine ⟨hword, hquote, fun p => ?_⟩
  cases p <;> simp [Stage.next, hdigit, hplus, hminus, hpoint, hexp]

/-- A token ends before a byte that it cannot go on with. -/
lemma step_bound {ph : Phase} {t : Token} (ht : ph.token = some t) (hc : isBound c) :
    step ph c = (begin c).map fun r => (t :: r.1, r.2) := by
  obtain ⟨hword, hquote, hnext⟩ := bound_facts hc
  cases ph with
  | start => cases ht
  | word w => cases ht; simp [step, hword]
  | neg w => cases ht; simp [step, hword]
  | str s => cases ht
  | esc s => cases ht
  | quote s => cases ht; simp [step, hquote]
  | num p x =>
    rw [Phase.token] at ht
    split_ifs at ht with hdone
    cases ht
    simp [step, hnext, hdone, hword]

lemma Closed.append_reads (hx : Closed x ts) (hy : Reads y us) : Reads (x ++ y) (ts ++ us) := by
  obtain ⟨us', ph, t, hrun, ht, rfl⟩ := hy
  refine ⟨ts ++ us', ph, t, ?_, ht, (List.append_assoc _ _ _).symm⟩
  rw [run_append, show run .start x = _ from hx, Option.bind_some, hrun]
  rfl

/-- A link ends the token before it. -/
lemma Reads.append (hx : Reads x ts) (hy : Link y us) : Closed (x ++ y) (ts ++ us) := by
  obtain ⟨ts', ph, t, hrun, ht, rfl⟩ := hx
  obtain ⟨hbound, hy⟩ := hy
  cases y with
  | nil => cases hbound
  | cons c y =>
    rw [Closed, run] at hy
    simp only [step] at hy
    obtain ⟨r, hr, hy⟩ := Option.bind_eq_some_iff.mp hy
    obtain ⟨q, hq, heq⟩ := Option.map_eq_some_iff.mp hy
    obtain ⟨rfl, hstart⟩ := Prod.mk.inj heq
    rw [Closed, run_append, hrun, Option.bind_some, run, step_bound ht hbound]
    simp [hr, hq, ← hstart]

lemma Closed.lex_eq (h : Closed x ts) : lex x = some ts := by
  rw [lex, show run .start x = _ from h]
  rfl

lemma Reads.lex_eq (h : Reads x ts) : lex x = some ts := by
  obtain ⟨ts', ph, t, hrun, ht, rfl⟩ := h
  have hph : ph ≠ .start := by
    rintro rfl
    cases ht
  rw [lex, hrun, Option.bind_some, if_neg hph, ht]
  rfl

end texts

/-! ### Names, numerals and literals -/

section tokens

variable {w x d : Str}

/-- A name, or one after a minus, goes on with the bytes of a word. -/
lemma run_grow (grow : Str → Phase)
    (hgrow : ∀ w c, isWord c → step (grow w) c = some ([], grow (w ++ [c])))
    (hw : ∀ c ∈ x, isWord c) : run (grow w) x = some ([], grow (w ++ x)) := by
  induction x generalizing w with
  | nil => rw [run, List.append_nil]
  | cons c x ih =>
    obtain ⟨hc, hx⟩ := List.forall_mem_cons.mp hw
    rw [run_silent (hgrow w c hc), ih hx, List.append_assoc, List.singleton_append]

lemma reads_name (h : IsName w) : Reads w [.word w] := by
  obtain ⟨hdigit, hword⟩ := h
  cases w with
  | nil => cases hdigit
  | cons c w =>
    obtain ⟨hc, hw⟩ := List.forall_mem_cons.mp (List.all_eq_true.mp hword)
    have hdigit : isDigit c = false := by simpa using hdigit
    have hbegin : step .start c = some ([], .word [c]) := by
      have hother : isSpace c = false ∧ c ≠ 39 ∧ c ≠ 45 := by
        simp only [isSpace, isWord] at hc ⊢
        grind
      simp [step, begin, hother, Stage.next, hdigit, hc]
    refine ⟨[], .word (c :: w), .word (c :: w), ?_, rfl, rfl⟩
    rw [run_silent hbegin, run_grow .word (fun _ _ hd => if_pos hd) hw, List.singleton_append]

/-- A minus before a name, as in `-inf`. -/
lemma reads_negated (h : IsName w) : Reads (lit "-" ++ w) [.neg w] := by
  obtain ⟨hdigit, hword⟩ := h
  cases w with
  | nil => cases hdigit
  | cons c w =>
    obtain ⟨hc, hw⟩ := List.forall_mem_cons.mp (List.all_eq_true.mp hword)
    have hdigit : isDigit c = false := by simpa using hdigit
    have hminus : step .start 45 = some ([], .num .sign [45]) := by decide
    have hname : step (.num .sign [45]) c = some ([], .neg [c]) := by
      simp [step, Stage.next, hdigit, hc]
    have hlit : lit "-" = [45] := by decide
    refine ⟨[], .neg (c :: w), .neg (c :: w), ?_, rfl, rfl⟩
    rw [hlit, List.singleton_append, run_silent hminus, run_silent hname,
      run_grow .neg (fun _ _ hd => if_pos hd) hw, List.singleton_append]

lemma run_num {p q : Stage} (h : x.foldlM Stage.next p = some q) :
    run (.num p w) x = some ([], .num q (w ++ x)) := by
  induction x generalizing p w with
  | nil => cases h; rw [run, List.append_nil]
  | cons c x ih =>
    rw [List.foldlM_cons] at h
    obtain ⟨p', hp', h⟩ := Option.bind_eq_some_iff.mp h
    have hstep : step (.num p w) c = some ([], .num p' (w ++ [c])) := by
      rw [step, hp']
    rw [run_silent hstep, ih h, List.append_assoc, List.singleton_append]

lemma reads_numeral (h : IsNumeral x) : Reads x [.num x] := by
  obtain ⟨q, hq, hdone⟩ := h
  cases x with
  | nil => cases hq; cases hdone
  | cons c x =>
    rw [List.foldlM_cons] at hq
    obtain ⟨p, hp, hq⟩ := Option.bind_eq_some_iff.mp hq
    have hfirst : isDigit c ∨ c = 45 := by
      simp only [Stage.next] at hp
      grind
    have hother : isSpace c = false ∧ c ≠ 39 := by
      simp only [isDigit, isSpace, decide_eq_true_eq, Bool.or_eq_false_iff, Bool.and_eq_false_iff,
        decide_eq_false_iff_not, ne_eq, ← UInt8.toNat_inj, UInt8.le_iff_toNat_le,
        UInt8.reduceToNat] at hfirst ⊢
      omega
    have hbegin : step .start c = some ([], .num p [c]) := by
      simp [step, begin, hother, hp]
    refine ⟨[], .num q (c :: x), .num (c :: x), ?_, if_pos hdone, rfl⟩
    rw [run_silent hbegin, run_num hq, List.singleton_append]

lemma foldlM_digits (h : ∀ c ∈ x, isDigit c) : x.foldlM Stage.next .int = some .int := by
  induction x with
  | nil => rfl
  | cons c x ih =>
    obtain ⟨hc, hx⟩ := List.forall_mem_cons.mp h
    rw [List.foldlM_cons, Stage.next, if_pos hc]
    exact ih hx

/-- The numerals of integers. -/
lemma isNumeral_decimal (n : ℤ) : IsNumeral (decimal n) := by
  have hnat : ∀ p : Stage, (∀ c, isDigit c → p.next c = some .int) →
      (decimalNat n.natAbs).foldlM Stage.next p = some .int := by
    intro p hp
    have hdigits : ∀ c ∈ decimalNat n.natAbs, isDigit c := fun c hc => decimalNat_isDigit hc
    cases hx : decimalNat n.natAbs with
    | nil => exact absurd hx (decimalNat_ne_nil _)
    | cons c x =>
      rw [hx] at hdigits
      obtain ⟨hc, hrest⟩ := List.forall_mem_cons.mp hdigits
      rw [List.foldlM_cons, hp c hc]
      exact foldlM_digits hrest
  refine ⟨.int, ?_, rfl⟩
  unfold decimal
  split
  · have hminus : lit "-" = [45] := by decide
    rw [hminus, List.singleton_append, List.foldlM_cons]
    exact hnat .sign fun c hc => if_pos hc
  · exact hnat .start fun c hc => if_pos hc

/-- A literal is read to its closing quote. -/
lemma run_content (h : content x = some d) (acc : Str) :
    run (.str acc) (x ++ [39]) = some ([], .quote (acc ++ d)) := by
  fun_induction content x generalizing d acc with
  | case1 => cases h; rw [List.append_nil]; rfl
  | case2 c => cases h
  | case3 c hc =>
    cases h
    rw [not_or] at hc
    have hstep : step (.str acc) c = some ([], .str (acc ++ [c])) := by simp [step, hc]
    rw [List.singleton_append, run_silent hstep]
    rfl
  | case4 s ih =>
    obtain ⟨d', hd', rfl⟩ := Option.map_eq_some_iff.mp h
    have hquote : step (.str acc) 39 = some ([], .quote acc) := rfl
    have hagain : step (.quote acc) 39 = some ([], .str (acc ++ [39])) := rfl
    rw [List.cons_append, List.cons_append, run_silent hquote, run_silent hagain, ih hd',
      List.append_assoc, List.singleton_append]
  | case5 => cases h
  | case6 e s _ ih =>
    obtain ⟨d', hd', rfl⟩ := Option.map_eq_some_iff.mp h
    have hback : step (.str acc) 92 = some ([], .esc acc) := rfl
    have hesc : step (.esc acc) e = some ([], .str (acc ++ escape e)) := rfl
    rw [List.cons_append, List.cons_append, run_silent hback, run_silent hesc, ih hd',
      List.append_assoc]
  | case7 c e s hc hc' ih =>
    obtain ⟨d', hd', rfl⟩ := Option.map_eq_some_iff.mp h
    have hstep : step (.str acc) c = some ([], .str (acc ++ [c])) := by simp [step, hc, hc']
    rw [List.cons_append, run_silent hstep, ih hd', List.append_assoc, List.singleton_append]

lemma reads_literal (h : content x = some d) : Reads (39 :: (x ++ [39])) [.str d] := by
  have hopen : step .start 39 = some ([], .str []) := rfl
  refine ⟨[], .quote d, .str d, ?_, rfl, rfl⟩
  rw [run_silent hopen, run_content h, List.nil_append]

end tokens

/-! ### Lists -/

/-- The tokens of the members, with commas between them. -/
def commas : List (List Token) → List Token
  | [] => []
  | [ts] => ts
  | ts :: l => ts ++ .sym 44 :: commas l

lemma commas_cons (ts us : List Token) (l : List (List Token)) :
    commas (ts :: us :: l) = ts ++ .sym 44 :: commas (us :: l) := rfl

lemma link_comma : Link [44] [.sym 44] := ⟨rfl, rfl⟩

lemma reads_concat {β : Type} {text : β → Str} {tokens : β → List Token} {l : List β}
    (hl : l ≠ []) (h : ∀ b ∈ l, Reads (text b) (tokens b)) :
    Reads (concat comma (l.map text)) (commas (l.map tokens)) := by
  induction l with
  | nil => exact absurd rfl hl
  | cons b l ih =>
    obtain ⟨hb, hrest⟩ := List.forall_mem_cons.mp h
    cases l with
    | nil => simpa [concat, List.intercalate, commas] using hb
    | cons b' l =>
      have htail := (hb.append link_comma).append_reads (ih (by simp) hrest)
      rw [List.append_assoc, List.append_assoc] at htail
      exact htail

/-! ### Statements -/

/-- What a column is set to or compared with. -/
inductive Value
  | number (text : Str)
  | name (w : Str)
  | negated (w : Str)
  | quoted (s : Str)
  deriving DecidableEq

inductive Statement
  | update (table : Str) (assignments : List (Str × Value)) (column : Str) (value : Value)
  | insert (table : Str) (assignments : List (Str × Value))
  | delete (table : Str) (column : Str) (value : Value)
  | count (table : Str) (column : Str) (value : Value)
  deriving DecidableEq

def Value.token : Value → Token
  | .number x => .num x
  | .name w => .word w
  | .negated w => .neg w
  | .quoted s => .str s

def assignmentTokens (e : Str × Value) : List Token := [.word e.1, .sym 61, e.2.token]

def whereTokens (column : Str) (value : Value) : List Token :=
  [.word (lit "where"), .word column, .sym 61, value.token]

/-- The one list of tokens a statement has. -/
def Statement.tokens : Statement → List Token
  | .update table assignments column value =>
    .word (lit "update") :: .word table :: .word (lit "set") ::
      (commas (assignments.map assignmentTokens) ++ whereTokens column value)
  | .insert table assignments =>
    .word (lit "insert") :: .word (lit "into") :: .word table :: .sym 40 ::
      (commas (assignments.map fun e => [.word e.1]) ++ .sym 41 :: .word (lit "values") ::
        .sym 40 :: (commas (assignments.map fun e => [e.2.token]) ++ [.sym 41]))
  | .delete table column value =>
    .word (lit "delete") :: .word (lit "from") :: .word table :: whereTokens column value
  | .count table column value =>
    .word (lit "select") :: .word (lit "count") :: .sym 40 :: .sym 42 :: .sym 41 ::
      .word (lit "as") :: .word (lit "num") :: .word (lit "from") :: .word table ::
      whereTokens column value

section parser

def parseValue : Token → Option Value
  | .num x => some (.number x)
  | .word w => some (.name w)
  | .neg w => some (.negated w)
  | .str s => some (.quoted s)
  | _ => none

def parseName : Token → Option Str
  | .word w => some w
  | _ => none

/-- Members up to the closing bracket, and what stands after it. -/
def parseList {β : Type} (item : Token → Option β) : List Token → Option (List β × List Token)
  | t :: .sym c :: rest => do
    let x ← item t
    if c = 44 then (parseList item rest).map fun r => (x :: r.1, r.2)
    else if c = 41 then some ([x], rest)
    else none
  | _ => none

def parseAssignments : List Token → Option (List (Str × Value) × List Token)
  | .word k :: .sym c :: t :: rest =>
    if c = 61 then
      match parseValue t, rest with
      | some v, .sym d :: rest =>
        if d = 44 then (parseAssignments rest).map fun r => ((k, v) :: r.1, r.2) else none
      | some v, rest => some ([(k, v)], rest)
      | none, _ => none
    else none
  | _ => none

def parseWhere : List Token → Option (Str × Value)
  | [.word w, .word column, .sym c, t] =>
    if w = lit "where" ∧ c = 61 then (parseValue t).map fun v => (column, v) else none
  | _ => none

/-- After `insert into table (`. As many values as columns are needed. -/
def parseInsert (table : Str) (ts : List Token) : Option Statement := do
  let (columns, ts) ← parseList parseName ts
  match ts with
  | .word w :: .sym c :: rest =>
    if w = lit "values" ∧ c = 40 then
      let (values, ts) ← parseList parseValue rest
      if ts = [] ∧ values.length = columns.length then some (.insert table (columns.zip values))
      else none
    else none
  | _ => none

def parseTokens (ts : List Token) : Option Statement :=
  match ts with
  | .word a :: .word b :: .word c :: rest =>
    if a = lit "update" then
      if c = lit "set" then do
        let (assignments, ts) ← parseAssignments rest
        let (column, value) ← parseWhere ts
        return .update b assignments column value
      else none
    else if a = lit "insert" ∧ b = lit "into" then
      match rest with
      | .sym d :: rest => if d = 40 then parseInsert c rest else none
      | _ => none
    else if a = lit "delete" ∧ b = lit "from" then
      (parseWhere rest).map fun r => .delete c r.1 r.2
    else none
  | .word a :: .word b :: .sym c :: .sym d :: .sym e :: .word f :: .word g :: .word h ::
      .word table :: rest =>
    if [a, b, f, g, h] = [lit "select", lit "count", lit "as", lit "num", lit "from"] ∧
        [c, d, e] = [40, 42, 41] then
      (parseWhere rest).map fun r => .count table r.1 r.2
    else none
  | _ => none

def parse (text : Str) : Option Statement := (lex text).bind parseTokens

end parser

/-! ### A statement from its tokens -/

section roundtrip

@[simp] lemma parseValue_token (v : Value) : parseValue v.token = some v := by cases v <;> rfl

lemma parseWhere_tokens (column : Str) (value : Value) :
    parseWhere (whereTokens column value) = some (column, value) := by
  simp [parseWhere, whereTokens]

lemma parseList_commas {β γ : Type} (item : Token → Option γ) (token : β → Token) (x : β → γ)
    (hitem : ∀ b, item (token b) = some (x b)) {l : List β} (hl : l ≠ []) (rest : List Token) :
    parseList item (commas (l.map fun b => [token b]) ++ .sym 41 :: rest) =
      some (l.map x, rest) := by
  induction l with
  | nil => exact absurd rfl hl
  | cons b l ih =>
    cases l with
    | nil => simp [commas, parseList, hitem]
    | cons b' l =>
      have hrest := ih (by simp)
      rw [List.map_cons, List.map_cons, commas_cons, ← List.map_cons (f := fun b => [token b])]
      simp only [List.cons_append, List.nil_append, parseList, hitem]
      rw [hrest]
      simp

lemma parseAssignments_commas {l : List (Str × Value)} (hl : l ≠ []) (w : Str)
    (rest : List Token) :
    parseAssignments (commas (l.map assignmentTokens) ++ .word w :: rest) =
      some (l, .word w :: rest) := by
  induction l with
  | nil => exact absurd rfl hl
  | cons e l ih =>
    cases l with
    | nil => simp [commas, assignmentTokens, parseAssignments]
    | cons e' l =>
      have hrest := ih (by simp)
      rw [List.map_cons, assignmentTokens] at hrest
      rw [List.map_cons, List.map_cons, commas_cons]
      simp [assignmentTokens, parseAssignments, hrest]

/-- What a statement must have to be written: an assignment. -/
def Statement.Proper : Statement → Prop
  | .update _ assignments _ _ => assignments ≠ []
  | .insert _ assignments => assignments ≠ []
  | _ => True

/-- **A statement is parsed from its tokens.** -/
theorem parseTokens_tokens {st : Statement} (h : st.Proper) : parseTokens st.tokens = some st := by
  have hkeywords : lit "insert" ≠ lit "update" ∧ lit "delete" ≠ lit "update" ∧
      lit "delete" ≠ lit "insert" := by decide
  cases st with
  | update table assignments column value =>
    have hset := parseAssignments_commas h (lit "where") [.word column, .sym 61, value.token]
    have hwhere := parseWhere_tokens column value
    rw [whereTokens] at hwhere
    simp [Statement.tokens, parseTokens, whereTokens, hset, hwhere]
  | insert table assignments =>
    have hcolumns := parseList_commas parseName (fun e : Str × Value => .word e.1) Prod.fst
      (fun _ => rfl) h (.word (lit "values") :: .sym 40 ::
        (commas (assignments.map fun e => [e.2.token]) ++ [.sym 41]))
    have hvalues := parseList_commas parseValue (fun e : Str × Value => e.2.token) Prod.snd
      (fun e => parseValue_token e.2) h []
    have hinsert : parseInsert table (commas (assignments.map fun e => [.word e.1]) ++ .sym 41 ::
        .word (lit "values") :: .sym 40 ::
          (commas (assignments.map fun e => [e.2.token]) ++ [.sym 41])) =
        some (.insert table assignments) := by
      rw [parseInsert, hcolumns]
      simp only [Option.bind_eq_bind, Option.bind_some, and_self, if_true, hvalues,
        List.length_map]
      rw [← List.zip_of_prod rfl rfl]
    simp [Statement.tokens, parseTokens, hkeywords, hinsert]
  | delete table column value =>
    simp [Statement.tokens, parseTokens, hkeywords, parseWhere_tokens]
  | count table column value =>
    simp [Statement.tokens, parseTokens, parseWhere_tokens]

/-- A text that is read as the tokens of a statement is parsed as it. -/
theorem parse_of_reads {x : Str} {st : Statement} (h : st.Proper) (hx : Reads x st.tokens) :
    parse x = some st := by
  rw [parse, hx.lex_eq, Option.bind_some, parseTokens_tokens h]

theorem parse_of_closed {x : Str} {st : Statement} (h : st.Proper) (hx : Closed x st.tokens) :
    parse x = some st := by
  rw [parse, hx.lex_eq, Option.bind_some, parseTokens_tokens h]

end roundtrip

end Sax.SqlStatement
