import Sax.LuaPattern
import Sax.Runtime

/-!
`split` of `util.lua`, and its copy in `saxmob/common/util.lua`: the fields before each delimiter are
matched by a pattern, and what stands behind the last one is the last field.
-/

namespace Sax.Split

open Sax.LuaVal Sax.Loop Sax.LuaPattern Sax.Runtime

/-- The delimiters of the program. -/
inductive Delim
  | comma
  | tab
  | bar
  | star
  | colon
  | slash

namespace Delim

def byte : Delim → UInt8
  | comma => 44
  | tab => 9
  | bar => 124
  | star => 42
  | colon => 58
  | slash => 47

/-- The pattern `delim`. -/
def pattern (delim : Delim) : Pattern :=
  ⟨[delim.byte], by cases delim <;> decide +kernel, by simp⟩

/-- The pattern `"(.-)" .. delim .. "()"`. -/
def pat (delim : Delim) : Pattern :=
  ⟨lit "(.-)" ++ [delim.byte] ++ lit "()", by cases delim <;> decide +kernel,
    by cases delim <;> decide +kernel⟩

end Delim

/-- `result`, whose length is `nb`, and `lastPos`. -/
structure Fields where
  result : List Str
  lastPos : Option ℕ

namespace util

/-- The body of the loop; the pattern has these two captures. -/
def takeField (maxNb : ℤ) (caps : List Cap) (fields : Fields) : Lua (ForInStep Fields) :=
  match caps with
  | [.text part, .pos pos] =>
    let fields : Fields := ⟨fields.result ++ [part], some pos⟩
    return if (fields.result.length : ℤ) = maxNb then .done fields else .yield fields
  | _ => .error .badArgument

def split (str : Str) (delim : Option Delim) (maxNb : Option ℤ) : Lua (List Str) := do
  let delim := delim.getD .comma
  match ← find str delim.pattern with
  | none => return [str]
  | some _ =>
    let maxNb := match maxNb with
      | some n => if n < 1 then 0 else n
      | none => 0 -- no limit
    let fields ← gfind str delim.pat ⟨[], none⟩ (takeField maxNb)
    -- the last field
    if (fields.result.length : ℤ) ≠ maxNb then
      match fields.lastPos with
      | some pos => return fields.result ++ [sub str pos]
      | none => .error .badArgument
    else return fields.result

end util

namespace common

/-- The copy. -/
def split (str : Str) (delim : Option Delim) (max_nb : Option ℤ) : Lua (List Str) :=
  util.split str delim max_nb

end common

/-! ### What the loop collects -/

section split

variable {delim : Delim} {str s a : Str} {result : List Str}

lemma Delim.literal (delim : Delim) : Literal delim.byte := by
  cases delim <;> unfold Literal Delim.byte <;> decide +kernel

lemma Delim.pat_text (delim : Delim) : delim.pat.text = upTo delim.byte :=
  List.append_assoc (lit "(.-)") [delim.byte] (lit "()")

/-- Without a limit the loop goes on. -/
lemma takeField_zero (part : Str) (pos : ℕ) (fields : Fields) :
    util.takeField 0 [.text part, .pos pos] fields =
      .ok (.yield ⟨fields.result ++ [part], some pos⟩) := by
  have hne : ((fields.result ++ [part]).length : ℤ) ≠ 0 := by
    rw [List.length_append, List.length_singleton]
    omega
  unfold util.takeField
  simp only [if_neg hne]
  rfl

/-- One field is taken, and the loop goes on behind the delimiter. -/
lemma gfindFrom_cons (h : delim.byte ∉ a) (lastPos : Option ℕ) :
    gfindFrom str delim.pat (util.takeField 0) (a ++ delim.byte :: s) ⟨result, lastPos⟩ =
      gfindFrom str delim.pat (util.takeField 0) s
        ⟨result ++ [a], some (str.length - s.length + 1)⟩ := by
  rw [gfindFrom_upTo_some delim.pat_text delim.literal h, takeField_zero]
  rfl

/-- The position behind a delimiter is where the rest begins. -/
lemma sub_suffix (h : s <:+ str) : sub str (str.length - s.length + 1) = s := by
  rw [sub, Nat.add_sub_cancel]
  exact (List.suffix_iff_eq_drop.mp h).symm

/-- The loop takes all fields but the last one, which begins at `lastPos`. -/
lemma gfindFrom_eq (hs : s <:+ str) (result : List Str) :
    ∃ pos, gfindFrom str delim.pat (util.takeField 0) s
        ⟨result, some (str.length - s.length + 1)⟩ =
          .ok ⟨result ++ (s.splitOn delim.byte).dropLast, some pos⟩ ∧
      s.splitOn delim.byte = (s.splitOn delim.byte).dropLast ++ [sub str pos] := by
  induction hn : s.length using Nat.strong_induction_on generalizing s result with
  | _ n ih =>
    subst hn
    by_cases hmem : delim.byte ∈ s
    · obtain ⟨a, rest, rfl, ha⟩ := List.eq_append_cons_of_mem hmem
      have hrest : rest <:+ str :=
        (List.suffix_cons _ rest).trans ((List.suffix_append a _).trans hs)
      have hlt : rest.length < (a ++ delim.byte :: rest).length := by
        rw [List.length_append, List.length_cons]
        omega
      obtain ⟨pos, hrun, hlast⟩ := ih _ hlt hrest (result ++ [a]) rfl
      have hsplit : (a ++ delim.byte :: rest).splitOn delim.byte =
          a :: rest.splitOn delim.byte := List.splitOn_append_cons_self_of_not_mem ha rest
      have hne : rest.splitOn delim.byte ≠ [] := List.splitOn_ne_nil _ _
      refine ⟨pos, ?_, ?_⟩
      · rw [gfindFrom_cons ha, hrun, hsplit, List.dropLast_cons_of_ne_nil hne, List.append_assoc]
        rfl
      · rw [hsplit, List.dropLast_cons_of_ne_nil hne, List.cons_append, ← hlast]
    · refine ⟨str.length - s.length + 1, ?_, ?_⟩
      · rw [gfindFrom_upTo_none delim.pat_text delim.literal hmem,
          List.splitOn_eq_singleton hmem]
        simp
      · rw [List.splitOn_eq_singleton hmem, sub_suffix hs]
        rfl

/-- **The program's `split` is the splitting at a character.** -/
theorem split_eq (str : Str) (delim : Option Delim) :
    util.split str delim none = .ok (Runtime.split (delim.getD .comma).byte str) := by
  generalize hdelim : delim.getD .comma = d
  unfold util.split Runtime.split
  simp only [hdelim]
  by_cases hmem : d.byte ∈ str
  · obtain ⟨a, s, rfl, ha⟩ := List.eq_append_cons_of_mem hmem
    obtain ⟨place, hfind⟩ := find_of_mem (s := s) (p := d.pattern) rfl d.literal ha
    have hs : s <:+ a ++ d.byte :: s := (List.suffix_cons _ s).trans (List.suffix_append a _)
    obtain ⟨pos, hrun, hlast⟩ := @gfindFrom_eq d _ s hs [a]
    have hlength : ((([a] ++ (s.splitOn d.byte).dropLast).length : ℕ) : ℤ) ≠ 0 := by
      rw [List.length_append, List.length_singleton]
      omega
    rw [hfind, ok_bind]
    simp only
    rw [gfind, gfindFrom_cons ha none, List.nil_append, hrun, ok_bind]
    simp only
    rw [if_pos hlength, List.splitOn_append_cons_self_of_not_mem ha, hlast]
    simp
  · rw [find_of_notMem rfl d.literal hmem, List.splitOn_eq_singleton hmem]
    rfl

end split

/-! ### Splitting and joining -/

/-- The character a call splits at; without a delimiter it is the comma. -/
def byteOf (delim : Option Delim) : UInt8 := (delim.getD .comma).byte

/-- Splitting at `delim` and joining with it are inverse to each other. -/
structure Inverse (split : Str → Option Delim → Option ℤ → Lua (List Str))
    (delim : Option Delim) : Prop where
  concat_split : ∀ s, ∃ parts, split s delim none = .ok parts ∧
    concat (byteOf delim) parts = s ∧ ∀ part ∈ parts, byteOf delim ∉ part
  split_concat : ∀ parts ≠ [], (∀ part ∈ parts, byteOf delim ∉ part) →
    split (concat (byteOf delim) parts) delim none = .ok parts

/-- **Split and concat are inverse**, in both modules. -/
theorem split_inverse (delim : Option Delim) :
    Inverse util.split delim ∧ Inverse common.split delim := by
  have hutil : Inverse util.split delim :=
    { concat_split := fun s => ⟨_, split_eq s delim, Runtime.concat_split _ s,
        fun _ hpart => notMem_of_mem_split hpart⟩
      split_concat := fun parts hne hparts =>
        (split_eq _ delim).trans (congrArg Except.ok (Runtime.split_concat hparts hne)) }
  exact ⟨hutil, ⟨hutil.concat_split, hutil.split_concat⟩⟩

end Sax.Split
