import Mathlib.Data.List.TakeWhile
import Sax.Uri

/-!
Replacing a text wherever it stands, as `ngx.re.gsub` does for a pattern without operators.

A character of neither the text nor its replacement separates: what stands before it and after it
is replaced on its own. So the arguments of a URL are replaced one by one.
-/

namespace Sax.Replace

open Sax.LuaVal Sax.Uri

/-- `skip` bytes belong to an occurrence that was replaced. -/
def replaceFrom (pat r : Str) : (skip : ℕ) → Str → Str
  | _, [] => []
  | skip + 1, _ :: s => replaceFrom pat r skip s
  | 0, c :: s =>
    if pat.isPrefixOf (c :: s) then r ++ replaceFrom pat r (pat.length - 1) s
    else c :: replaceFrom pat r 0 s

def replace (pat r s : Str) : Str := replaceFrom pat r 0 s

section replace

variable {pat r : Str} {c : UInt8}

lemma isPrefixOf_append_cons (hc : c ∉ pat) (a b : Str) :
    pat.isPrefixOf (a ++ c :: b) = pat.isPrefixOf a := by
  induction a generalizing pat with
  | nil =>
    cases pat with
    | nil => rfl
    | cons d pat =>
      rw [List.mem_cons, not_or] at hc
      simp [List.isPrefixOf, Ne.symm hc.1]
  | cons d a ih =>
    cases pat with
    | nil => rfl
    | cons e pat =>
      rw [List.mem_cons, not_or] at hc
      simp only [List.cons_append, List.isPrefixOf, ih hc.2]

/-- A separator stays, and the parts are replaced on their own. -/
lemma replaceFrom_append_cons (hpat : pat ≠ []) (hc : c ∉ pat) {a : Str} {skip : ℕ}
    (hskip : skip ≤ a.length) (b : Str) :
    replaceFrom pat r skip (a ++ c :: b) =
      replaceFrom pat r skip a ++ c :: replaceFrom pat r 0 b := by
  induction a generalizing skip with
  | nil =>
    rw [Nat.le_zero.mp hskip]
    have hprefix : pat.isPrefixOf (c :: b) = false := by
      have h := isPrefixOf_append_cons hc [] b
      rw [List.nil_append] at h
      rw [h]
      cases pat with
      | nil => exact absurd rfl hpat
      | cons => rfl
    simp [replaceFrom, hprefix]
  | cons d a ih =>
    cases skip with
    | succ skip =>
      rw [List.cons_append, replaceFrom, replaceFrom]
      exact ih (Nat.le_of_succ_le_succ hskip)
    | zero =>
      have hprefix := isPrefixOf_append_cons hc (d :: a) b
      rw [List.cons_append] at hprefix
      rw [List.cons_append, replaceFrom, replaceFrom, hprefix]
      split
      · next hmatch =>
        have hle := (List.isPrefixOf_iff_prefix.mp hmatch).length_le
        rw [List.length_cons] at hle
        rw [ih (by omega), List.append_assoc]
      · rw [ih (Nat.zero_le _), List.cons_append]

lemma replace_append_cons (hpat : pat ≠ []) (hc : c ∉ pat) (a b : Str) :
    replace pat r (a ++ c :: b) = replace pat r a ++ c :: replace pat r b :=
  replaceFrom_append_cons hpat hc (Nat.zero_le _) b

lemma replaceFrom_all (s : Str) : replaceFrom pat r s.length s = [] := by
  induction s with
  | nil => rfl
  | cons c s ih => exact ih

lemma replace_self (hpat : pat ≠ []) : replace pat r pat = r := by
  cases pat with
  | nil => exact absurd rfl hpat
  | cons d pat =>
    have hprefix : (d :: pat).isPrefixOf (d :: pat) = true :=
      List.isPrefixOf_iff_prefix.mpr (List.prefix_refl _)
    rw [replace, replaceFrom, if_pos hprefix, List.length_cons, Nat.add_sub_cancel,
      replaceFrom_all, List.append_nil]

/-- Nothing new comes in but the replacement. -/
lemma mem_replaceFrom {skip : ℕ} {s : Str} (h : c ∈ replaceFrom pat r skip s) : c ∈ r ∨ c ∈ s := by
  induction s generalizing skip with
  | nil => simp [replaceFrom] at h
  | cons d s ih =>
    cases skip with
    | succ skip => exact (ih h).imp_right (List.mem_cons_of_mem _)
    | zero =>
      unfold replaceFrom at h
      split at h
      · rcases List.mem_append.mp h with h | h
        · exact .inl h
        · exact (ih h).imp_right (List.mem_cons_of_mem _)
      · rcases List.mem_cons.mp h with rfl | h
        · exact .inr List.mem_cons_self
        · exact (ih h).imp_right (List.mem_cons_of_mem _)

lemma notMem_replace {s : Str} (hr : c ∉ r) (hs : c ∉ s) : c ∉ replace pat r s :=
  fun h => (mem_replaceFrom h).elim hr hs

/-! ### Parts of a text -/

/-- What stands before the first `c`. -/
def before (c : UInt8) (s : Str) : Str := s.takeWhile (· ≠ c)

/-- What stands after the first `c`. -/
def after (c : UInt8) (s : Str) : Str := (s.dropWhile (· ≠ c)).drop 1

lemma before_append_cons {a : Str} (ha : c ∉ a) (b : Str) : before c (a ++ c :: b) = a := by
  have hne : ∀ d ∈ a, decide (d ≠ c) = true := fun d hd => decide_eq_true fun h => ha (h ▸ hd)
  rw [before, List.takeWhile_append_of_pos hne]
  simp

lemma after_append_cons {a : Str} (ha : c ∉ a) (b : Str) : after c (a ++ c :: b) = b := by
  have hne : ∀ d ∈ a, decide (d ≠ c) = true := fun d hd => decide_eq_true fun h => ha (h ▸ hd)
  rw [after, List.dropWhile_append_of_pos hne]
  simp

lemma before_of_notMem {s : Str} (hs : c ∉ s) : before c s = s :=
  List.takeWhile_eq_self_iff.mpr fun _ hd => decide_eq_true fun h => hs (h ▸ hd)

lemma after_of_notMem {s : Str} (hs : c ∉ s) : after c s = [] := by
  have hdrop : s.dropWhile (· ≠ c) = [] :=
    List.dropWhile_eq_nil_iff.mpr fun d hd => decide_eq_true fun h => hs (h ▸ hd)
  rw [after, hdrop]
  rfl

lemma replace_before (hpat : pat ≠ []) (hc : c ∉ pat) (hr : c ∉ r) (s : Str) :
    before c (replace pat r s) = replace pat r (before c s) := by
  by_cases hs : c ∈ s
  · obtain ⟨a, b, rfl, ha⟩ := List.eq_append_cons_of_mem hs
    rw [replace_append_cons hpat hc, before_append_cons (notMem_replace hr ha),
      before_append_cons ha]
  · rw [before_of_notMem hs, before_of_notMem (notMem_replace hr hs)]

lemma replace_after (hpat : pat ≠ []) (hc : c ∉ pat) (hr : c ∉ r) (s : Str) :
    after c (replace pat r s) = replace pat r (after c s) := by
  by_cases hs : c ∈ s
  · obtain ⟨a, b, rfl, ha⟩ := List.eq_append_cons_of_mem hs
    rw [replace_append_cons hpat hc, after_append_cons (notMem_replace hr ha),
      after_append_cons ha]
  · rw [after_of_notMem hs, after_of_notMem (notMem_replace hr hs)]
    rfl

lemma replace_splitOn (hpat : pat ≠ []) (hc : c ∉ pat) (hr : c ∉ r) (s : Str) :
    (replace pat r s).splitOn c = (s.splitOn c).map (replace pat r) := by
  induction hn : s.length using Nat.strong_induction_on generalizing s with
  | _ n ih =>
    by_cases hs : c ∈ s
    · obtain ⟨a, b, rfl, ha⟩ := List.eq_append_cons_of_mem hs
      rw [replace_append_cons hpat hc,
        List.splitOn_append_cons_self_of_not_mem (notMem_replace hr ha),
        List.splitOn_append_cons_self_of_not_mem ha, List.map_cons]
      refine congrArg _ (ih b.length ?_ b rfl)
      rw [← hn, List.length_append, List.length_cons]
      omega
    · rw [List.splitOn_eq_singleton (notMem_replace hr hs), List.splitOn_eq_singleton hs]
      rfl

end replace

/-! ### The arguments of a URL -/

def question : UInt8 := 63
def hash : UInt8 := 35

/-- The values of the arguments of a URL, as they stand there. -/
def argValues (url : Str) : List Str :=
  ((after question (before hash url)).splitOn ampersand).map (after equals)

/-- **A replacement without separators is made in every argument on its own.** -/
theorem argValues_replace {pat r : Str} (hpat : pat ≠ [])
    (hplain : ∀ c ∈ lit "#?&=", c ∉ pat ∧ c ∉ r) (url : Str) :
    argValues (replace pat r url) = (argValues url).map (replace pat r) := by
  have hhash := hplain hash (by decide)
  have hquestion := hplain question (by decide)
  have hampersand := hplain ampersand (by decide)
  have hequals := hplain equals (by decide)
  unfold argValues
  rw [replace_before hpat hhash.1 hhash.2, replace_after hpat hquestion.1 hquestion.2,
    replace_splitOn hpat hampersand.1 hampersand.2, List.map_map, List.map_map]
  exact List.map_congr_left fun s _ => replace_after hpat hequals.1 hequals.2 s

end Sax.Replace
