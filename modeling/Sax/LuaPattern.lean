import Sax.Loop
import Sax.LuaVal

/-!
The patterns of Lua, as `lib_string.c` matches them.

A place in the subject is what stands from there to its end. Of the items of a pattern the classes
`%x` and `[set]` and the anchors are left out, and a `Pattern` has none of them; it is also shorter
than what the limit on the depth of the matcher allows.
-/

namespace Sax.LuaPattern

open Sax.LuaVal Sax.Loop

/-- The length of a capture: `CAP_UNFINISHED`, `CAP_POSITION`, or a number. -/
inductive Len
  | unfinished
  | position
  | len (n : ℕ)
  deriving DecidableEq

structure Capture where
  init : Str
  len : Len

/-- Where a match ends, with its captures, the last one first. -/
abbrev Match := Str × List Capture

def maxCaptures : ℕ := 32

/-- `singlematch` -/
def singlematch (p c : UInt8) : Bool := p = 46 || p = c

section expand

variable (m : Str → Lua (Option Match)) (single : UInt8 → Bool)

/-- `max_expand`: as many as there are, and back. -/
def maxExpand : Str → Lua (Option Match)
  | [] => m []
  | c :: s =>
    if single c then do
      match ← maxExpand s with
      | some r => return some r
      | none => m (c :: s)
    else m (c :: s)

/-- `min_expand` -/
def minExpand : Str → Lua (Option Match)
  | [] => m []
  | c :: s => do
    match ← m (c :: s) with
    | some r => return some r
    | none => if single c then minExpand s else return none

end expand

/-- `start_capture` -/
def startCapture (len : Len) (s : Str) (caps : List Capture) : Lua (List Capture) :=
  if maxCaptures ≤ caps.length then .error (.error "too many captures") else .ok (⟨s, len⟩ :: caps)

/-- `end_capture`, for the last capture that is open. -/
def endCapture (s : Str) : List Capture → Lua (List Capture)
  | [] => .error (.error "invalid pattern capture")
  | cap :: caps =>
    if cap.len = .unfinished then .ok (⟨cap.init, .len (cap.init.length - s.length)⟩ :: caps)
    else do return cap :: (← endCapture s caps)

/-- `match` -/
def matchHere : Str → Str → List Capture → Lua (Option Match)
  | [], s, caps => .ok (some (s, caps))
  | 40 :: 41 :: p, s, caps => do matchHere p s (← startCapture .position s caps)
  | 40 :: p, s, caps => do matchHere p s (← startCapture .unfinished s caps)
  | 41 :: p, s, caps => do matchHere p s (← endCapture s caps)
  | item :: 63 :: p, s, caps => do
    match s with
    | [] => matchHere p s caps
    | c :: s' =>
      if singlematch item c then
        match ← matchHere p s' caps with
        | some r => return some r
        | none => matchHere p s caps
      else matchHere p s caps
  | item :: 42 :: p, s, caps => maxExpand (fun s => matchHere p s caps) (singlematch item) s
  | item :: 43 :: p, s, caps =>
    match s with
    | [] => .ok none
    | c :: s' =>
      if singlematch item c then maxExpand (fun s => matchHere p s caps) (singlematch item) s'
      else .ok none
  | item :: 45 :: p, s, caps => minExpand (fun s => matchHere p s caps) (singlematch item) s
  | item :: p, s, caps =>
    match s with
    | [] => .ok none
    | c :: s' => if singlematch item c then matchHere p s' caps else .ok none

/-! ### Searching -/

/-- The first place where `m` succeeds, and what it gives there. -/
def search {α : Type} (m : Str → Lua (Option α)) : Str → Lua (Option (Str × α))
  | [] => do return (← m []).map fun r => ([], r)
  | c :: s => do
    match ← m (c :: s) with
    | some r => return some (c :: s, r)
    | none => search m s

/-- What a capture gives. -/
inductive Cap
  | text (s : Str)
  | pos (n : ℕ)
  deriving DecidableEq

/-- `push_onecapture` -/
def pushCapture (str : Str) (cap : Capture) : Lua Cap :=
  match cap.len with
  | .unfinished => .error (.error "unfinished capture")
  | .position => .ok (.pos (str.length - cap.init.length + 1))
  | .len n => .ok (.text (cap.init.take n))

/-- `push_captures` -/
def pushCaptures (str : Str) (caps : List Capture) : Lua (List Cap) :=
  caps.reverse.mapM (pushCapture str)

/-- A pattern the matcher above covers. -/
structure Pattern where
  text : Str
  covered : ∀ c ∈ text, c ∉ 0 :: lit "%[^$"
  short : text.length < 200

/-- `lj_str_haspattern` -/
def haspattern (p : Str) : Bool := p.any (· ∈ lit "^$*+?.([%-")

/-- A match at a place, for `string.find`: a text without special characters is compared. -/
def findHere (p : Str) (s : Str) : Lua (Option Match) :=
  if haspattern p then matchHere p s []
  else .ok (if p <+: s then some (s.drop p.length, []) else none)

/-- `string.find`: the first and the last place, and the captures. -/
def find (str : Str) (p : Pattern) : Lua (Option (ℕ × ℕ × List Cap)) := do
  match ← search (findHere p.text) str with
  | some (s, e, caps) =>
    return some (str.length - s.length + 1, str.length - e.length, ← pushCaptures str caps)
  | none => return none

/-- `string.sub(str, i)` -/
def sub (str : Str) (i : ℕ) : Str := str.drop (i - 1)

/-! ### A match does not go back -/

section suffix

variable {m : Str → Lua (Option Match)} {single : UInt8 → Bool} {r : Match}

lemma maxExpand_suffix (hm : ∀ s, m s = .ok (some r) → r.1 <:+ s) {s : Str}
    (h : maxExpand m single s = .ok (some r)) : r.1 <:+ s := by
  induction s with
  | nil => exact hm [] h
  | cons c s ih =>
    rw [maxExpand] at h
    split at h
    · obtain ⟨longer, hlonger, h⟩ := bind_ok.mp h
      cases longer with
      | none => exact hm _ h
      | some longer =>
        cases h
        exact (ih hlonger).trans (List.suffix_cons c s)
    · exact hm _ h

lemma minExpand_suffix (hm : ∀ s, m s = .ok (some r) → r.1 <:+ s) {s : Str}
    (h : minExpand m single s = .ok (some r)) : r.1 <:+ s := by
  induction s with
  | nil => exact hm [] h
  | cons c s ih =>
    rw [minExpand] at h
    obtain ⟨first, hfirst, h⟩ := bind_ok.mp h
    cases first with
    | some first =>
      cases h
      exact hm _ hfirst
    | none =>
      simp only at h
      split at h
      · exact (ih h).trans (List.suffix_cons c s)
      · cases h

lemma matchHere_suffix {p s : Str} {caps : List Capture}
    (h : matchHere p s caps = .ok (some r)) : r.1 <:+ s := by
  fun_induction matchHere p s caps with
  | case1 s caps => cases h; exact List.suffix_rfl
  | case2 p s caps ih | case3 p s caps _ ih | case4 p s caps ih =>
    obtain ⟨caps', -, h⟩ := bind_ok.mp h
    exact ih caps' h
  | case5 item p caps _ _ ih => exact ih h
  | case6 item p caps _ _ c s hc ihshort ihlong =>
    obtain ⟨first, hfirst, h⟩ := bind_ok.mp h
    cases first with
    | some first => cases h; exact (ihshort hfirst).trans (List.suffix_cons c s)
    | none => exact ihlong h
  | case7 item p caps _ _ c s hc ih => exact ih h
  | case8 item p s caps _ _ ih => exact maxExpand_suffix ih h
  | case9 item p caps => cases h
  | case10 item p caps _ _ c s hc ih =>
    exact (maxExpand_suffix ih h).trans (List.suffix_cons c s)
  | case11 item p caps _ _ c s hc => cases h
  | case12 item p s caps _ _ ih => exact minExpand_suffix ih h
  | case13 => cases h
  | case14 item p caps _ _ _ _ _ _ _ c s hc ih => exact (ih h).trans (List.suffix_cons c s)
  | case15 => cases h

lemma search_suffix {α : Type} {m : Str → Lua (Option α)} {s s' : Str} {a : α}
    (h : search m s = .ok (some (s', a))) : s' <:+ s ∧ m s' = .ok (some a) := by
  induction s with
  | nil =>
    obtain ⟨first, hfirst, h⟩ := bind_ok.mp h
    cases first with
    | none => cases h
    | some first => cases h; exact ⟨List.suffix_rfl, hfirst⟩
  | cons c s ih =>
    obtain ⟨first, hfirst, h⟩ := bind_ok.mp h
    cases first with
    | some first => cases h; exact ⟨List.suffix_rfl, hfirst⟩
    | none =>
      obtain ⟨hsuffix, hm⟩ := ih h
      exact ⟨hsuffix.trans (List.suffix_cons c s), hm⟩

/-- Where the next match is looked for, after one from `s` to `e`: after an empty match one
character later. -/
def resume (s e : Str) : Option Str :=
  if e = s then
    match e with
    | [] => none
    | _ :: rest => some rest
  else some e

lemma resume_of_ne {s e : Str} (h : e ≠ s) : resume s e = some e := if_neg h

/-- The search does not go back to where it was. -/
lemma length_resume {p src s e next : Str} {caps : List Capture}
    (h : search (fun s => matchHere p s []) src = .ok (some (s, e, caps)))
    (hnext : resume s e = some next) : next.length < src.length := by
  obtain ⟨hsrc, hmatch⟩ := search_suffix h
  have hsuffix : e <:+ s := matchHere_suffix hmatch
  have hle := hsrc.length_le
  unfold resume at hnext
  split at hnext
  · next heq =>
    subst heq
    cases e with
    | nil => cases hnext
    | cons c e =>
      cases hnext
      rw [List.length_cons] at hle
      omega
  · next hne =>
    cases hnext
    have hlt := lt_of_le_of_ne hsuffix.length_le fun hlength => hne (hsuffix.eq_of_length hlength)
    omega

end suffix

/-! ### Going through the matches -/

/-- The captures of a match, or all of it where the pattern has none. -/
def matchCaptures (str s e : Str) (caps : List Capture) : Lua (List Cap) :=
  if caps.isEmpty then .ok [.text (s.take (s.length - e.length))] else pushCaptures str caps

/-- The loop over `string.gfind(str, p)` from the place `src` on: the body gets the captures and
says whether the loop goes on. -/
def gfindFrom {σ : Type} (str : Str) (p : Pattern) (body : List Cap → σ → Lua (ForInStep σ))
    (src : Str) (st : σ) : Lua σ :=
  match _hfound : search (fun s => matchHere p.text s []) src with
  | .error e => .error e
  | .ok none => .ok st
  | .ok (some (s, e, caps)) => do
    match ← body (← matchCaptures str s e caps) st with
    | .done st => return st
    | .yield st =>
      match _hnext : resume s e with
      | none => return st
      | some next => gfindFrom str p body next st
termination_by src.length
decreasing_by exact length_resume _hfound _hnext

def gfind {σ : Type} (str : Str) (p : Pattern) (st : σ)
    (body : List Cap → σ → Lua (ForInStep σ)) : Lua σ :=
  gfindFrom str p body str st

section steps

variable {σ : Type} {str src s e next : Str} {p : Pattern} {caps : List Capture}
  {body : List Cap → σ → Lua (ForInStep σ)} {st : σ}

lemma gfindFrom_none (h : search (fun s => matchHere p.text s []) src = .ok none) :
    gfindFrom str p body src st = .ok st := by
  rw [gfindFrom]
  split
  · next hfound => rw [h] at hfound; cases hfound
  · rfl
  · next hfound => rw [h] at hfound; cases hfound

lemma gfindFrom_some {vals : List Cap}
    (h : search (fun s => matchHere p.text s []) src = .ok (some (s, e, caps)))
    (hvals : matchCaptures str s e caps = .ok vals) (hnext : resume s e = some next) :
    gfindFrom str p body src st =
      (do
        match ← body vals st with
        | .done st => return st
        | .yield st => gfindFrom str p body next st) := by
  rw [gfindFrom]
  split
  · next hfound => rw [h] at hfound; cases hfound
  · next hfound => rw [h] at hfound; cases hfound
  · next hfound =>
    rw [h] at hfound
    cases hfound
    rw [hvals, ok_bind]
    refine bind_congr fun step => ?_
    cases step with
    | done st => rfl
    | yield st =>
      simp only
      split
      · next hnone => rw [hnext] at hnone; cases hnone
      · next hsome => rw [hnext] at hsome; cases hsome; rfl

end steps

/-! ### Characters that stand for themselves -/

section literal

/-- No item of a pattern begins with the character. -/
def Literal (d : UInt8) : Prop := d ∉ 0 :: lit "%[^$()."

variable {d : UInt8} {a s : Str} {caps : List Capture}

lemma Literal.ne (hd : Literal d) : d ≠ 40 ∧ d ≠ 41 ∧ d ≠ 46 := by
  have hmagic : lit "%[^$()." = [37, 91, 94, 36, 40, 41, 46] := by decide +kernel
  unfold Literal at hd
  rw [hmagic] at hd
  simp only [List.mem_cons, not_or] at hd
  tauto

/-- No character follows that says how often an item is matched. -/
def Once (p : Str) : Prop := ∀ q ∈ lit "?*+-", ∀ p', p ≠ q :: p'

lemma Once.ne {p : Str} (hp : Once p) (p' : Str) :
    p ≠ 63 :: p' ∧ p ≠ 42 :: p' ∧ p ≠ 43 :: p' ∧ p ≠ 45 :: p' := by
  have hquantifiers : lit "?*+-" = [63, 42, 43, 45] := by decide +kernel
  unfold Once at hp
  rw [hquantifiers] at hp
  exact ⟨hp 63 (by simp) p', hp 42 (by simp) p', hp 43 (by simp) p', hp 45 (by simp) p'⟩

/-- An item that is one such character matches the character. -/
lemma matchHere_literal (hd : Literal d) {p : Str} (hp : Once p) :
    matchHere (d :: p) s caps =
      match s with
      | [] => .ok none
      | c :: s => if d = c then matchHere p s caps else .ok none := by
  obtain ⟨hopen, hclose, hany⟩ := hd.ne
  have hzero p' := (hp.ne p').1
  have hstar p' := (hp.ne p').2.1
  have hplus p' := (hp.ne p').2.2.1
  have hminus p' := (hp.ne p').2.2.2
  cases s with
  | nil =>
    rw [matchHere]
    exacts [fun _ h _ => hopen h, hopen, hclose, hzero, hstar, hplus, hminus]
  | cons c s =>
    rw [matchHere]
    · simp [singlematch, hany]
    exacts [fun _ h _ => hopen h, hopen, hclose, hzero, hstar, hplus, hminus]

section search

variable {α : Type} {m : Str → Lua (Option α)} {r : α}

lemma search_of_notMem (hm : ∀ s, s.head? ≠ some d → m s = .ok none) (h : d ∉ s) :
    search m s = .ok none := by
  induction s with
  | nil => rw [search, hm [] (by simp)]; rfl
  | cons c s ih =>
    rw [List.mem_cons, not_or] at h
    rw [search, hm (c :: s) (by simpa using Ne.symm h.1), ok_bind]
    exact ih h.2

lemma search_of_mem (hm : ∀ s, s.head? ≠ some d → m s = .ok none) (h : d ∉ a)
    (hr : m (d :: s) = .ok (some r)) : search m (a ++ d :: s) = .ok (some (d :: s, r)) := by
  induction a with
  | nil => rw [List.nil_append, search, hr]; rfl
  | cons c a ih =>
    rw [List.mem_cons, not_or] at h
    rw [List.cons_append, search, hm (c :: (a ++ d :: s)) (by simpa using Ne.symm h.1), ok_bind]
    exact ih h.2

lemma search_here {s : Str} (h : m s = .ok (some r)) : search m s = .ok (some (s, r)) := by
  cases s with
  | nil => rw [search, h]; rfl
  | cons c s => rw [search, h]; rfl

/-- The shortest repetition of an item that matches all is a search. -/
lemma minExpand_any {m : Str → Lua (Option Match)} {single : UInt8 → Bool}
    (hsingle : ∀ c, single c) (s : Str) :
    minExpand m single s = (search m s).map (Option.map Prod.snd) := by
  induction s with
  | nil =>
    rw [minExpand, search]
    cases m [] with
    | error e => rfl
    | ok r => cases r <;> rfl
  | cons c s ih =>
    rw [minExpand, search]
    cases m (c :: s) with
    | error e => rfl
    | ok r =>
      cases r with
      | some r => rfl
      | none => simpa [hsingle] using ih

end search

lemma once_nil : Once [] := nofun

/-- As a pattern and as a plain text. -/
lemma findHere_literal (hd : Literal d) (s : Str) :
    findHere [d] s =
      match s with
      | [] => .ok none
      | c :: s => .ok (if d = c then some (s, []) else none) := by
  unfold findHere
  split
  · rw [matchHere_literal hd once_nil]
    cases s with
    | nil => rfl
    | cons c s =>
      simp only
      split <;> rfl
  · cases s with
    | nil => simp
    | cons c s => simp

section find

variable {p : Pattern} {str : Str}

lemma findHere_ne (hd : Literal d) {s : Str} (h : s.head? ≠ some d) :
    findHere [d] s = .ok none := by
  rw [findHere_literal hd]
  cases s with
  | nil => rfl
  | cons c s => exact congrArg Except.ok (if_neg fun hc => h (by rw [hc]; rfl))

lemma find_of_notMem (hp : p.text = [d]) (hd : Literal d) (h : d ∉ str) :
    find str p = .ok none := by
  unfold find
  rw [hp, search_of_notMem (fun s => findHere_ne hd) h]
  rfl

lemma find_of_mem (hp : p.text = [d]) (hd : Literal d) (h : d ∉ a) :
    ∃ place, find (a ++ d :: s) p = .ok (some place) := by
  have hhere : findHere [d] (d :: s) = .ok (some (s, [])) := by
    rw [findHere_literal hd]
    simp
  unfold find
  rw [hp, search_of_mem (fun s => findHere_ne hd) h hhere]
  exact ⟨_, rfl⟩

end find

/-! ### The pattern `(.-)d()` -/

lemma once_position : Once (lit "()") := by
  have hposition : lit "()" = [40, 41] := by decide +kernel
  have hquantifiers : 40 ∉ lit "?*+-" := by decide +kernel
  intro q hq p' h
  rw [hposition] at h
  cases h
  exact hquantifiers hq

/-- A field up to the character `d`. -/
def upTo (d : UInt8) : Str := lit "(.-)" ++ d :: lit "()"

/-- Behind the field stands the character. -/
lemma matchHere_delim_self (hd : Literal d) (s rest : Str) :
    matchHere (41 :: d :: lit "()") (d :: rest) [⟨s, .unfinished⟩] =
      .ok (some (rest, [⟨rest, .position⟩, ⟨s, .len (s.length - (d :: rest).length)⟩])) := by
  rw [matchHere, endCapture, if_pos rfl, ok_bind, matchHere_literal hd once_position]
  simp only [if_true]
  rfl

lemma matchHere_delim_ne (hd : Literal d) (s : Str) {s' : Str} (h : s'.head? ≠ some d) :
    matchHere (41 :: d :: lit "()") s' [⟨s, .unfinished⟩] = .ok none := by
  rw [matchHere, endCapture, if_pos rfl, ok_bind, matchHere_literal hd once_position]
  cases s' with
  | nil => rfl
  | cons c rest => exact if_neg fun hc => h (by rw [hc]; rfl)

lemma matchHere_upTo (d : UInt8) (s : Str) :
    matchHere (upTo d) s [] =
      (search (fun s' => matchHere (41 :: d :: lit "()") s' [⟨s, .unfinished⟩]) s).map
        (Option.map Prod.snd) := by
  have hupTo : upTo d = 40 :: 46 :: 45 :: 41 :: d :: lit "()" := by
    have hopen : lit "(.-)" = [40, 46, 45, 41] := by decide +kernel
    rw [upTo, hopen]
    rfl
  have hstart : startCapture .unfinished s [] = .ok [⟨s, .unfinished⟩] := rfl
  rw [hupTo, matchHere, hstart, ok_bind, matchHere,
    minExpand_any (fun _ => rfl : ∀ c, singlematch 46 c = true)]
  all_goals simp

lemma matchHere_upTo_none (hd : Literal d) (h : d ∉ s) : matchHere (upTo d) s [] = .ok none := by
  rw [matchHere_upTo, search_of_notMem (fun s' => matchHere_delim_ne hd s) h]
  rfl

/-- The field goes up to the first `d`. -/
lemma matchHere_upTo_some (hd : Literal d) (h : d ∉ a) :
    matchHere (upTo d) (a ++ d :: s) [] =
      .ok (some (s, [⟨s, .position⟩, ⟨a ++ d :: s, .len a.length⟩])) := by
  rw [matchHere_upTo, search_of_mem (fun s' => matchHere_delim_ne hd _) h
    (matchHere_delim_self hd _ s)]
  have hlength : (a ++ d :: s).length - (d :: s).length = a.length := by simp
  rw [hlength]
  rfl

section gfind

variable {σ : Type} {str : Str} {p : Pattern} {body : List Cap → σ → Lua (ForInStep σ)} {st : σ}

/-- Without a `d` there is no field more. -/
lemma gfindFrom_upTo_none (hp : p.text = upTo d) (hd : Literal d) (h : d ∉ s) :
    gfindFrom str p body s st = .ok st := by
  refine gfindFrom_none ?_
  rw [hp]
  induction s with
  | nil => rw [search, matchHere_upTo_none hd h]; rfl
  | cons c s ih =>
    rw [search, matchHere_upTo_none hd h, ok_bind]
    exact ih (List.not_mem_of_not_mem_cons h)

/-- One round of the loop: the field up to the first `d`, and the place behind that. -/
lemma gfindFrom_upTo_some (hp : p.text = upTo d) (hd : Literal d) (h : d ∉ a) :
    gfindFrom str p body (a ++ d :: s) st =
      (do
        match ← body [.text a, .pos (str.length - s.length + 1)] st with
        | .done st => return st
        | .yield st => gfindFrom str p body s st) := by
  have hfound : search (fun s => matchHere p.text s []) (a ++ d :: s) = .ok (some (a ++ d :: s, s,
      [⟨s, .position⟩, ⟨a ++ d :: s, .len a.length⟩])) := by
    rw [hp]
    exact search_here (matchHere_upTo_some hd h)
  have hne : s ≠ a ++ d :: s := by
    intro heq
    have hlength := congrArg List.length heq
    rw [List.length_append, List.length_cons] at hlength
    omega
  refine gfindFrom_some hfound ?_ (resume_of_ne hne)
  simp [matchCaptures, pushCaptures, pushCapture]

end gfind

end literal

end Sax.LuaPattern
