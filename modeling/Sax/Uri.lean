import Mathlib.Data.Nat.Bitwise
import Sax.LuaVal

/-!
Escaping and arguments as the nginx Lua module has them.

`unescape_uri` is the automaton of the module: a `%` that no two hexadecimal digits follow is
dropped, with a first digit and what follows it. `parse_args` reads a query string or a form body.
-/

namespace Sax.Uri

open Sax.LuaVal

/-- The value of a hexadecimal digit, of either case. -/
def hexDigit (c : UInt8) : Option UInt8 :=
  if 48 ≤ c ∧ c ≤ 57 then some (c - 48)
  else if 97 ≤ c ||| 32 ∧ c ||| 32 ≤ 102 then some ((c ||| 32) - 97 + 10)
  else none

/-- A lower-case hexadecimal digit. -/
def hexChar (d : UInt8) : UInt8 := if d < 10 then 48 + d else 87 + d

/-- The map of the characters to escape, a bit for each. -/
def uriMap : List ℕ :=
  [0xffffffff, 0xfc00886d, 0x78000000, 0xa8000000, 0xffffffff, 0xffffffff, 0xffffffff, 0xffffffff]

def escaped (c : UInt8) : Bool := (uriMap.getD (c.toNat / 32) 0).testBit (c.toNat % 32)

def percent : UInt8 := 37
def plus : UInt8 := 43
def ampersand : UInt8 := 38
def equals : UInt8 := 61

def escape_uri (s : Str) : Str :=
  s.flatMap fun c => if escaped c then [percent, hexChar (c >>> 4), hexChar (c &&& 15)] else [c]

/-- The states of `ngx_http_lua_unescape_uri`. -/
inductive Quoted
  | usual
  | quoted
  | second (decoded : UInt8)

def unescape : Quoted → Str → Str
  | _, [] => []
  | .usual, ch :: s =>
    if ch = percent then unescape .quoted s
    else if ch = plus then 32 :: unescape .usual s
    else ch :: unescape .usual s
  | .quoted, ch :: s =>
    match hexDigit ch with
    | some decoded => unescape (.second decoded) s
    | none => ch :: unescape .usual s
  | .second decoded, ch :: s =>
    match hexDigit ch with
    | some d => ((decoded <<< 4) + d) :: unescape .usual s
    | none => unescape .usual s

def unescape_uri (s : Str) : Str := unescape .usual s

section escape

/-- A fact about every byte. -/
lemma forall_byte {P : UInt8 → Prop} (h : ∀ i : Fin 256, P (UInt8.ofFin i)) (c : UInt8) : P c :=
  h c.toFin

/-- The digits of a byte are read back, and make the byte again. -/
lemma digits_read (c : UInt8) : hexDigit (hexChar (c >>> 4)) = some (c >>> 4) ∧
    hexDigit (hexChar (c &&& 15)) = some (c &&& 15) ∧ ((c >>> 4) <<< 4) + (c &&& 15) = c :=
  forall_byte (P := fun c => hexDigit (hexChar (c >>> 4)) = some (c >>> 4) ∧
    hexDigit (hexChar (c &&& 15)) = some (c &&& 15) ∧ ((c >>> 4) <<< 4) + (c &&& 15) = c)
    (by decide +kernel) c

lemma hexDigit_hexChar_high (c : UInt8) : hexDigit (hexChar (c >>> 4)) = some (c >>> 4) :=
  (digits_read c).1

lemma hexDigit_hexChar_low (c : UInt8) : hexDigit (hexChar (c &&& 15)) = some (c &&& 15) :=
  (digits_read c).2.1

lemma high_add_low (c : UInt8) : ((c >>> 4) <<< 4) + (c &&& 15) = c := (digits_read c).2.2

/-- What is not escaped is none of the characters with a meaning in a query. -/
lemma plain_of_not_escaped {c : UInt8} (h : ¬ escaped c) : c ∉ lit "%+&=?#/: \"" :=
  forall_byte (P := fun c => ¬ escaped c → c ∉ lit "%+&=?#/: \"") (by decide +kernel) c h

lemma hexChar_plain (c : UInt8) : hexChar (c >>> 4) ∉ lit "%+&=?#/: \"" ∧
    hexChar (c &&& 15) ∉ lit "%+&=?#/: \"" :=
  forall_byte (P := fun c => hexChar (c >>> 4) ∉ lit "%+&=?#/: \"" ∧
    hexChar (c &&& 15) ∉ lit "%+&=?#/: \"") (by decide +kernel) c

lemma escape_uri_cons (c : UInt8) (s : Str) : escape_uri (c :: s) =
    (if escaped c then [percent, hexChar (c >>> 4), hexChar (c &&& 15)] else [c]) ++
      escape_uri s := rfl

/-- **Unescaping undoes escaping.** -/
theorem unescape_escape (s : Str) : unescape_uri (escape_uri s) = s := by
  induction s with
  | nil => rfl
  | cons c s ih =>
    rw [escape_uri_cons]
    by_cases hc : escaped c
    · rw [if_pos hc]
      simp only [unescape_uri, List.cons_append, List.nil_append, unescape, if_true,
        hexDigit_hexChar_high, hexDigit_hexChar_low, high_add_low]
      exact congrArg _ ih
    · rw [if_neg hc]
      have hplain := plain_of_not_escaped hc
      have hpercent : c ≠ percent := fun h => hplain (h ▸ by decide)
      have hplus : c ≠ plus := fun h => hplain (h ▸ by decide)
      simp only [unescape_uri, List.cons_append, List.nil_append, unescape, hpercent, hplus,
        if_false]
      exact congrArg _ ih

/-- An escaped text has no separator in it. -/
lemma escape_uri_plain {s : Str} {c : UInt8} (h : c ∈ escape_uri s) : c ∉ lit "+&=?#/: \"" := by
  have hsub : ∀ c : UInt8, c ∈ lit "+&=?#/: \"" → c ∈ lit "%+&=?#/: \"" :=
    fun c hc => List.mem_cons_of_mem _ hc
  obtain ⟨b, -, hb⟩ := List.mem_flatMap.mp h
  split at hb
  · simp only [List.mem_cons, List.not_mem_nil, or_false] at hb
    rcases hb with rfl | rfl | rfl
    · decide
    · exact fun hc => (hexChar_plain b).1 (hsub _ hc)
    · exact fun hc => (hexChar_plain b).2 (hsub _ hc)
  · next hplain =>
    rw [List.mem_singleton] at hb
    subst hb
    exact fun hc => plain_of_not_escaped hplain (hsub _ hc)

lemma percent_mem_escape {s : Str} {c : UInt8} (hc : c ∈ s) (hescaped : escaped c) :
    percent ∈ escape_uri s := by
  refine List.mem_flatMap.mpr ⟨c, hc, ?_⟩
  rw [if_pos hescaped]
  exact List.mem_cons_self

end escape

/-! ### What unescaping leaves as it is -/

section unescape

lemma length_unescape_le (q : Quoted) (s : Str) : (unescape q s).length ≤ s.length := by
  induction s generalizing q with
  | nil => cases q <;> simp [unescape]
  | cons c s ih =>
    cases q with
    | usual =>
      unfold unescape
      split
      · exact (ih _).trans (Nat.le_succ _)
      · split <;> exact Nat.succ_le_succ (ih _)
    | quoted =>
      unfold unescape
      split
      · exact (ih _).trans (Nat.le_succ _)
      · exact Nat.succ_le_succ (ih _)
    | second decoded =>
      unfold unescape
      split
      · exact Nat.succ_le_succ (ih _)
      · exact (ih _).trans (Nat.le_succ _)

/-- **A text is unescaped to itself exactly when it has neither `%` nor `+`.** -/
theorem unescape_uri_eq_self {s : Str} : unescape_uri s = s ↔ percent ∉ s ∧ plus ∉ s := by
  unfold unescape_uri
  induction s with
  | nil => simp [unescape]
  | cons c s ih =>
    unfold unescape
    by_cases hpercent : c = percent
    · -- the text has become shorter
      have hlength := length_unescape_le .quoted s
      rw [if_pos hpercent]
      constructor
      · intro h
        rw [h] at hlength
        simp at hlength
      · intro h
        simp [hpercent] at h
    · rw [if_neg hpercent]
      by_cases hplus : c = plus
      · rw [if_pos hplus]
        constructor
        · intro h
          rw [List.cons.injEq, hplus] at h
          exact absurd h.1 (by decide)
        · intro h
          simp [hplus] at h
      · rw [if_neg hplus, List.cons.injEq, ih]
        simp [Ne.symm hpercent, Ne.symm hplus]

end unescape

/-! ### Arguments -/

/-- The value of an argument: `true` when it has none, a list when it is given again. -/
inductive Arg
  | flag
  | value (s : Str)
  | list (l : List Arg)

/-- A key with its value; what has no `=` is a key alone. -/
def parsePair (s : Str) : Str × Arg :=
  match s.dropWhile (· ≠ equals) with
  | [] => (unescape_uri s, .flag)
  | _ :: value => (unescape_uri (s.takeWhile (· ≠ equals)), .value (unescape_uri value))

/-- The pairs of a text, at most `max` of them, without those that have an empty key. Nothing
follows a trailing separator. -/
def parsePairs (max : ℕ) (buf : Str) : List (Str × Arg) :=
  let parts := buf.splitOn ampersand
  let parts := if parts.getLast? = some [] then parts.dropLast else parts
  ((parts.take max).map parsePair).filter fun e => e.1 ≠ []

/-- `args[key]` of the table that `ngx_http_lua_parse_args` builds. -/
def parse_args (max : ℕ) (buf key : Str) : Option Arg :=
  match ((parsePairs max buf).filter fun e => e.1 = key).map Prod.snd with
  | [] => none
  | [v] => some v
  | l => some (.list l)

section parse

variable {max : ℕ} {key v : Str}

/-- A key that stands for itself. -/
def Plain (key : Str) : Prop := key ≠ [] ∧ ∀ c ∈ key, c ∉ lit "%+&="

lemma Plain.unescape (h : Plain key) : unescape_uri key = key :=
  unescape_uri_eq_self.mpr ⟨fun hc => h.2 _ hc (by decide), fun hc => h.2 _ hc (by decide)⟩

lemma parsePair_plain (h : Plain key) :
    parsePair (key ++ equals :: v) = (key, .value (unescape_uri v)) := by
  have hne : ∀ c ∈ key, decide (c ≠ equals) = true := by
    intro c hc
    rw [decide_eq_true_eq]
    rintro rfl
    exact h.2 _ hc (by decide)
  unfold parsePair
  rw [List.dropWhile_append_of_pos hne, List.takeWhile_append_of_pos hne]
  simp [h.unescape]

/-- The first pair of a text is followed by what comes after its separator. -/
lemma parsePairs_first (hmax : 0 < max) (hkey : Plain key) {a : Str} (ha : ampersand ∉ a) :
    parsePairs max (key ++ equals :: a) = [(key, .value (unescape_uri a))] ∧
      ∀ b, ∃ rest, parsePairs max (key ++ equals :: (a ++ ampersand :: b)) =
        (key, .value (unescape_uri a)) :: rest := by
  have hpair : ampersand ∉ key ++ equals :: a := by
    rw [List.mem_append, List.mem_cons]
    rintro (hc | hc | hc)
    · exact hkey.2 _ hc (by decide)
    · exact absurd hc (by decide)
    · exact ha hc
  obtain ⟨max, rfl⟩ := Nat.exists_eq_succ_of_ne_zero hmax.ne'
  constructor
  · simp [parsePairs, List.splitOn_eq_singleton hpair, parsePair_plain hkey, hkey.1]
  · intro b
    have happ : key ++ equals :: (a ++ ampersand :: b) =
        (key ++ equals :: a) ++ ampersand :: b := by simp
    obtain ⟨first, rest, hb⟩ := List.exists_cons_of_ne_nil (List.splitOn_ne_nil ampersand b)
    unfold parsePairs
    rw [happ, List.splitOn_append_cons_self_of_not_mem hpair, hb]
    have hcut : ∃ rest', (if ((key ++ equals :: a) :: first :: rest).getLast? = some [] then
        ((key ++ equals :: a) :: first :: rest).dropLast
        else (key ++ equals :: a) :: first :: rest) = (key ++ equals :: a) :: rest' := by
      split
      · exact ⟨_, rfl⟩
      · exact ⟨_, rfl⟩
    obtain ⟨rest', hrest'⟩ := hcut
    simp only [hrest']
    refine ⟨((rest'.take max).map parsePair).filter fun e => e.1 ≠ [], ?_⟩
    rw [List.take_succ_cons, List.map_cons, parsePair_plain hkey, List.filter_cons_of_pos]
    simpa using hkey.1

/-- **An argument written unescaped is read back exactly when it has none of `&`, `%` and `+`.** -/
theorem parse_args_eq_value (hmax : 0 < max) (hkey : Plain key) :
    parse_args max (key ++ equals :: v) key = some (.value v) ↔ ∀ c ∈ v, c ∉ lit "&%+" := by
  have hchars : (∀ c ∈ v, c ∉ lit "&%+") ↔ ampersand ∉ v ∧ percent ∉ v ∧ plus ∉ v := by
    have hlit : lit "&%+" = [ampersand, percent, plus] := by decide
    simp only [hlit, List.mem_cons, List.not_mem_nil, or_false, not_or]
    constructor
    · exact fun h => ⟨fun hc => (h _ hc).1 rfl, fun hc => (h _ hc).2.1 rfl, fun hc => (h _ hc).2.2 rfl⟩
    · rintro ⟨ha, hp, hq⟩ c hc
      exact ⟨fun heq => ha (heq ▸ hc), fun heq => hp (heq ▸ hc), fun heq => hq (heq ▸ hc)⟩
  rw [hchars]
  by_cases hv : ampersand ∈ v
  · -- the value ends at the separator
    obtain ⟨a, b, rfl, ha⟩ := List.eq_append_cons_of_mem hv
    obtain ⟨rest, hrest⟩ := (parsePairs_first hmax hkey ha).2 b
    constructor
    · intro h
      unfold parse_args at h
      rw [hrest, List.filter_cons_of_pos (by simp), List.map_cons] at h
      split at h
      · cases h
      · next hone =>
        rw [List.cons.injEq] at hone
        rw [← hone.1, Option.some.injEq, Arg.value.injEq] at h
        have hlength := length_unescape_le .usual a
        rw [← unescape_uri, h] at hlength
        simp at hlength
      · cases h
    · exact fun h => absurd hv h.1
  · unfold parse_args
    rw [(parsePairs_first hmax hkey hv).1]
    simp [hv, unescape_uri_eq_self]

end parse

/-- `ngx.encode_args` of one argument. -/
def encode_arg (key value : Str) : Str := escape_uri key ++ equals :: escape_uri value

end Sax.Uri
