import Mathlib.Data.List.Basic

/-!
Interleavings of lists: each list in its own order, whatever comes between.

What one list alone contains stays in its order, `Interleaved.filter_eq`.
-/

namespace Sax.Interleave

variable {α : Type*}

/-- The last list is made of the other two. -/
inductive Merge : List α → List α → List α → Prop
  | nil : Merge [] [] []
  | left {x l l' es} : Merge l l' es → Merge (x :: l) l' (x :: es)
  | right {x l l' es} : Merge l l' es → Merge l (x :: l') (x :: es)

section merge

variable {p : α → Bool} {l l' es : List α}

lemma Merge.mem_iff (h : Merge l l' es) {x : α} : x ∈ es ↔ x ∈ l ∨ x ∈ l' := by
  induction h with
  | nil => simp
  | left _ ih => simp [ih, or_assoc]
  | right _ ih => simp [ih, or_left_comm]

lemma Merge.filter_left (h : Merge l l' es) (hp : ∀ x ∈ l', p x = false) :
    es.filter p = l.filter p := by
  induction h with
  | nil => rfl
  | left _ ih => simp only [List.filter_cons, ih hp]
  | right _ ih =>
    rw [List.forall_mem_cons] at hp
    rw [List.filter_cons_of_neg (by simp [hp.1]), ih hp.2]

lemma Merge.filter_right (h : Merge l l' es) (hp : ∀ x ∈ l, p x = false) :
    es.filter p = l'.filter p := by
  induction h with
  | nil => rfl
  | left _ ih =>
    rw [List.forall_mem_cons] at hp
    rw [List.filter_cons_of_neg (by simp [hp.1]), ih hp.2]
  | right _ ih => simp only [List.filter_cons, ih hp]

lemma merge_append (l l' : List α) : Merge l l' (l ++ l') := by
  induction l with
  | nil =>
    induction l' with
    | nil => exact .nil
    | cons x l' ih => exact .right ih
  | cons x l ih => exact .left ih

end merge

/-- The second list is made of all those of the first. -/
inductive Interleaved : List (List α) → List α → Prop
  | nil : Interleaved [] []
  | cons {l ls es es'} : Merge l es es' → Interleaved ls es → Interleaved (l :: ls) es'

variable {p : α → Bool} {l es : List α} {pre post ls : List (List α)}

lemma Interleaved.mem_iff (h : Interleaved ls es) {x : α} : x ∈ es ↔ ∃ l ∈ ls, x ∈ l := by
  induction h with
  | nil => simp
  | cons hmerge _ ih => rw [hmerge.mem_iff, ih, List.exists_mem_cons_iff]

/-- **A part that only one of the lists contains is in the order of that list.** -/
theorem Interleaved.filter_eq (h : Interleaved (pre ++ l :: post) es)
    (hpre : ∀ l' ∈ pre, ∀ x ∈ l', p x = false) (hpost : ∀ l' ∈ post, ∀ x ∈ l', p x = false) :
    es.filter p = l.filter p := by
  induction pre generalizing es with
  | nil =>
    obtain _ | ⟨hmerge, hrest⟩ := h
    refine hmerge.filter_left fun x hx => ?_
    obtain ⟨l', hl', hx'⟩ := hrest.mem_iff.mp hx
    exact hpost l' hl' x hx'
  | cons l' pre ih =>
    obtain _ | ⟨hmerge, hrest⟩ := h
    rw [List.forall_mem_cons] at hpre
    rw [hmerge.filter_right hpre.1, ih hrest hpre.2]

/-- One list after the other is an interleaving. -/
lemma interleaved_flatten (ls : List (List α)) : Interleaved ls ls.flatten := by
  induction ls with
  | nil => exact .nil
  | cons l ls ih => exact .cons (merge_append l ls.flatten) ih

end Sax.Interleave
