import Mathlib.Data.List.Basic

/-!
The lines of a text. A line keeps the character that ends it; the last one may lack it.
-/

namespace Sax.TextLines

variable {α : Type}

/-- The lines of a text, each with its end. -/
def lines [DecidableEq α] (nl : α) : List α → List (List α)
  | [] => []
  | c :: s =>
    if c = nl then [c] :: lines nl s
    else
      match lines nl s with
      | [] => [[c]]
      | line :: rest => (c :: line) :: rest

/-- The lists that are the lines of a text. -/
inductive Lines (nl : α) : List (List α) → Prop
  | nil : Lines nl []
  | last {line} (hne : line ≠ []) (h : nl ∉ line) : Lines nl [line]
  | cons {line rest} (h : nl ∉ line) (hrest : Lines nl rest) : Lines nl ((line ++ [nl]) :: rest)

variable {nl : α} {l : List (List α)}

/-- A line before the last one may be replaced. -/
lemma Lines.set (h : Lines nl l) {j : ℕ} (hj : j + 1 < l.length) {line : List α}
    (hline : nl ∉ line) : Lines nl (l.set j (line ++ [nl])) := by
  induction h generalizing j with
  | nil => exact absurd hj (Nat.not_lt_zero _)
  | last => simp at hj
  | cons h hrest ih =>
    cases j with
    | zero => exact .cons hline hrest
    | succ j => exact .cons h (ih (by simpa using hj))

/-- Before its end a line has no end. -/
lemma Lines.notMem (h : Lines nl l) {line : List α} (hline : line ∈ l) : nl ∉ line.dropLast := by
  induction h with
  | nil => cases hline
  | last _ h =>
    rw [List.mem_singleton.mp hline]
    exact fun hmem => h (List.dropLast_subset _ hmem)
  | cons h _ ih =>
    rcases List.mem_cons.mp hline with rfl | hline
    · rwa [List.dropLast_concat]
    · exact ih hline

variable [DecidableEq α]

@[simp] lemma lines_nil : lines nl [] = [] := rfl

lemma lines_cons {line : List α} (h : nl ∉ line) (s : List α) :
    lines nl (line ++ nl :: s) = (line ++ [nl]) :: lines nl s := by
  induction line with
  | nil => simp [lines]
  | cons c line ih =>
    rw [List.mem_cons, not_or] at h
    rw [List.cons_append, lines, if_neg (Ne.symm h.1), ih h.2]
    rfl

lemma lines_last {line : List α} (hne : line ≠ []) (h : nl ∉ line) : lines nl line = [line] := by
  induction line with
  | nil => exact absurd rfl hne
  | cons c line ih =>
    rw [List.mem_cons, not_or] at h
    rw [lines, if_neg (Ne.symm h.1)]
    cases line with
    | nil => rfl
    | cons c' line => rw [ih (by simp) h.2]

lemma Lines.of_lines (nl : α) (s : List α) : Lines nl (lines nl s) := by
  induction s with
  | nil => exact .nil
  | cons c s ih =>
    rw [lines]
    split
    · next hc =>
      subst hc
      exact @Lines.cons _ _ [] _ List.not_mem_nil ih
    · next hc =>
      generalize lines nl s = l at ih
      cases ih with
      | nil => exact .last (by simp) (by simpa using Ne.symm hc)
      | last hne h => exact .last (by simp) (by simp [h, Ne.symm hc])
      | @cons line rest h hrest => exact @Lines.cons _ _ (c :: line) _ (by simp [h, Ne.symm hc]) hrest

/-- Every such list is the lines of its text. -/
lemma Lines.lines_flatten (h : Lines nl l) : lines nl l.flatten = l := by
  induction h with
  | nil => rfl
  | last hne h => simpa using lines_last hne h
  | cons h _ ih =>
    rw [List.flatten_cons, List.append_assoc, List.singleton_append, lines_cons h, ih]

/-- Lines that are written one after the other are read back. -/
lemma lines_flatMap {β : Type} {f : β → List α} {l : List β} (h : ∀ x ∈ l, nl ∉ f x) :
    lines nl (l.flatMap fun x => f x ++ [nl]) = l.map fun x => f x ++ [nl] := by
  induction l with
  | nil => rfl
  | cons x l ih =>
    rw [List.forall_mem_cons] at h
    rw [List.flatMap_cons, List.append_assoc, List.singleton_append, lines_cons h.1, ih h.2,
      List.map_cons]

end Sax.TextLines
