import Mathlib.Data.List.Basic
import Mathlib.Data.List.Perm.Basic
import Mathlib.Algebra.Order.Ring.Int
import Mathlib.Logic.Function.Basic

/-!
The book kept of places with a capacity: how much each holds, and which are pending.

A fill adds to one place and takes one occurrence of it off the pending list once the place
is full. Fills only ever add, so what a place holds in the end tells whether each fill found
room; and as only one occurrence leaves the list, a place that was entered twice stays pending
after it is full.
-/

namespace Sax.Ledger

variable {ι : Type} [DecidableEq ι]

/-- What the fills add to a place. -/
def added (u : ι) (l : List (ι × ℕ)) : ℕ := ((l.filter (·.1 = u)).map Prod.snd).sum

section added

variable {u : ι} {l : List (ι × ℕ)}

lemma added_cons (e : ι × ℕ) (l : List (ι × ℕ)) :
    added u (e :: l) = (if e.1 = u then e.2 else 0) + added u l := by
  unfold added
  by_cases h : e.1 = u <;> simp [h]

/-- A place no fill names gets nothing. -/
lemma added_of_notMem (h : u ∉ l.map Prod.fst) : added u l = 0 := by
  have hnil : l.filter (·.1 = u) = [] := by
    rw [List.filter_eq_nil_iff]
    intro e he
    have hne : e.1 ≠ u := fun heq => h (List.mem_map.mpr ⟨e, he, heq⟩)
    simpa using hne
  rw [added, hnil]
  rfl

/-- A place only one fill names gets what that fill brings. -/
lemma added_of_mem (h : (l.map Prod.fst).Nodup) {e : ι × ℕ} (he : e ∈ l) : added e.1 l = e.2 := by
  induction l with
  | nil => cases he
  | cons a l ih =>
    rw [List.map_cons, List.nodup_cons] at h
    rw [added_cons]
    rcases List.mem_cons.mp he with rfl | he
    · rw [if_pos rfl, added_of_notMem h.1]
      rfl
    · have hne : a.1 ≠ e.1 := fun heq => h.1 (heq ▸ List.mem_map.mpr ⟨e, he, rfl⟩)
      rw [if_neg hne, ih h.2 he, Nat.zero_add]

end added

structure Book (ι : Type) where
  pending : List ι
  used : ι → ℕ

/-- `n` items go to the place `u`. -/
def Book.fill [BEq ι] (cap : ι → ℤ) (s : Book ι) (e : ι × ℕ) : Book ι :=
  ⟨if cap e.1 ≤ (s.used e.1 + e.2 : ℕ) then s.pending.erase e.1 else s.pending,
    Function.update s.used e.1 (s.used e.1 + e.2)⟩

def Book.fills [BEq ι] (cap : ι → ℤ) (s : Book ι) (l : List (ι × ℕ)) : Book ι :=
  l.foldl (Book.fill cap) s

section fills

variable [BEq ι] {cap : ι → ℤ} {s : Book ι} {u : ι} {l : List (ι × ℕ)}

lemma Book.used_fill (e : ι × ℕ) :
    (s.fill cap e).used u = s.used u + if e.1 = u then e.2 else 0 := by
  by_cases h : e.1 = u
  · subst h
    simp [Book.fill]
  · simp [Book.fill, h, Function.update_of_ne (Ne.symm h)]

lemma Book.fills_snoc (e : ι × ℕ) :
    s.fills cap (l ++ [e]) = (s.fills cap l).fill cap e := by
  simp [Book.fills, List.foldl_append]

/-- **What the fills leave in a place.** -/
lemma Book.used_fills : (s.fills cap l).used u = s.used u + added u l := by
  induction l generalizing s with
  | nil => rfl
  | cons e l ih =>
    rw [Book.fills, List.foldl_cons, ← Book.fills, ih, Book.used_fill, added_cons,
      Nat.add_assoc]

variable [LawfulBEq ι]

lemma Book.count_pending_fill (e : ι × ℕ) :
    (s.fill cap e).pending.count u = s.pending.count u -
      if e.1 = u ∧ cap u ≤ (s.used u + e.2 : ℕ) then 1 else 0 := by
  unfold Book.fill
  by_cases h : e.1 = u
  · subst h
    by_cases hfull : cap e.1 ≤ (s.used e.1 + e.2 : ℕ)
    · simp only [hfull, if_true, and_self, List.count_erase_self]
    · simp only [hfull, if_false, and_false, Nat.sub_zero]
  · simp only [h, false_and, if_false, Nat.sub_zero]
    split
    · exact List.count_erase_of_ne (Ne.symm h)
    · rfl

/-- What holds of a book in which the places `valid` were entered. -/
structure Sound (cap : ι → ℤ) (valid : List ι) (s : Book ι) : Prop where
  sub : ∀ u, s.pending.count u ≤ valid.count u
  /-- no occurrence of a place with room has left the list -/
  stays : ∀ u, s.used u < cap u → s.pending.count u = valid.count u
  /-- a place entered once is pending only while it has room -/
  room : ∀ u ∈ s.pending, valid.count u = 1 → 0 < cap u → s.used u < cap u

variable {valid : List ι}

omit [DecidableEq ι] [LawfulBEq ι] in
lemma sound_start : Sound cap valid ⟨valid, fun _ => 0⟩ :=
  ⟨fun _ => le_rfl, fun _ _ => rfl, fun _ _ _ h => h⟩

/-- Step lemma: a fill keeps the book sound. -/
lemma Sound.fill (h : Sound cap valid s) (e : ι × ℕ) : Sound cap valid (s.fill cap e) := by
  refine ⟨fun u => ?_, fun u hroom => ?_, fun u hu honce hcap => ?_⟩
  · rw [Book.count_pending_fill]
    exact le_trans (Nat.sub_le _ _) (h.sub u)
  · rw [Book.used_fill] at hroom
    have hbefore : (s.used u : ℤ) < cap u := by
      push_cast at hroom
      have hnn : (0 : ℤ) ≤ if e.1 = u then (e.2 : ℤ) else 0 := by split <;> omega
      omega
    rw [Book.count_pending_fill, if_neg, Nat.sub_zero]
    · exact h.stays u hbefore
    · rintro ⟨rfl, hfull⟩
      rw [if_pos rfl] at hroom
      omega
  · have hcount : 0 < (s.fill cap e).pending.count u := List.count_pos_iff.mpr hu
    rw [Book.count_pending_fill] at hcount
    have hsub := h.sub u
    by_cases hfull : e.1 = u ∧ cap u ≤ (s.used u + e.2 : ℕ)
    · rw [if_pos hfull] at hcount
      omega
    · rw [if_neg hfull] at hcount
      have hpend : u ∈ s.pending := List.count_pos_iff.mp (by omega)
      have hbefore := h.room u hpend honce hcap
      rw [Book.used_fill]
      by_cases he : e.1 = u
      · rw [if_pos he]
        have hlt : ¬ cap u ≤ (s.used u + e.2 : ℕ) := fun hle => hfull ⟨he, hle⟩
        omega
      · rw [if_neg he]
        simpa using hbefore

/-- Run lemma. -/
theorem Sound.fills (h : Sound cap valid s) : Sound cap valid (s.fills cap l) := by
  induction l generalizing s with
  | nil => exact h
  | cons e l ih => exact ih (h.fill e)

omit [DecidableEq ι] [LawfulBEq ι] in
/-- **A pending place is open once more exactly when it was entered once and can hold
something at all.** -/
theorem Sound.open_iff (h : Sound cap valid s) (hu : u ∈ s.pending) :
    (s.pending.count u = 1 ∧ (s.used u : ℤ) < cap u) ↔ valid.count u = 1 ∧ 0 < cap u := by
  constructor
  · rintro ⟨honce, hroom⟩
    exact ⟨h.stays u hroom ▸ honce, by omega⟩
  · rintro ⟨honce, hcap⟩
    have hroom := h.room u hu honce hcap
    exact ⟨(h.stays u hroom).trans honce, hroom⟩

end fills

/-! ### Capacity -/

/-- The places `P` hold no more than they can. -/
def Within (cap : ι → ℤ) (P : ι → Prop) (used : ι → ℕ) : Prop := ∀ u, P u → used u ≤ (cap u).toNat

variable [BEq ι] {cap : ι → ℤ} {s : Book ι} {l : List (ι × ℕ)} {P : ι → Prop}

/-- **A book is within its capacity after fills exactly when it was before and each fill
found room**, for fills of different places none of which brings nothing. -/
theorem within_fills_iff (hnodup : (l.map Prod.fst).Nodup) (hpos : ∀ e ∈ l, 0 < e.2) :
    Within cap P (s.fills cap l).used ↔ Within cap P s.used ∧
      ∀ e ∈ l, P e.1 → (e.2 : ℤ) ≤ cap e.1 - s.used e.1 := by
  unfold Within
  simp only [Book.used_fills]
  constructor
  · intro h
    refine ⟨fun u hu => le_trans (Nat.le_add_right _ _) (h u hu), fun e he hu => ?_⟩
    have hle := h e.1 hu
    rw [added_of_mem hnodup he] at hle
    have := hpos e he
    omega
  · rintro ⟨hbefore, hfit⟩ u hu
    by_cases hmem : u ∈ l.map Prod.fst
    · obtain ⟨e, he, rfl⟩ := List.mem_map.mp hmem
      have hle := hfit e he hu
      rw [added_of_mem hnodup he]
      omega
    · rw [added_of_notMem hmem]
      exact hbefore u hu

end Sax.Ledger
