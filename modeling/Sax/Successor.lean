import Mathlib.Data.Set.Function

/-!
The successor of a point: the element of a set whose point is the first at or after it.

Between two sets the successor moves only to an element that is new or from one that is gone.
-/

namespace Sax.Successor

variable {α β : Type*} [LinearOrder β] {point : α → β} {S T : Set α} {t : β} {x y : α}

/-- `x` has the least point at or after `t`. -/
def IsNext (point : α → β) (S : Set α) (t : β) (x : α) : Prop :=
  x ∈ S ∧ t ≤ point x ∧ ∀ y ∈ S, t ≤ point y → point x ≤ point y

lemma IsNext.le_of_mem (hy : IsNext point T t y) (hx : IsNext point S t x) (hxT : x ∈ T) :
    point y ≤ point x :=
  hy.2.2 x hxT hx.2.1

/-- **The successor moves only to a new element or from one that is gone.** -/
theorem IsNext.moves (hinj : Set.InjOn point S) (hx : IsNext point S t x)
    (hy : IsNext point T t y) : y = x ∨ y ∉ S ∨ x ∉ T := by
  by_cases hyS : y ∈ S
  · by_cases hxT : x ∈ T
    · have heq : point y = point x := le_antisymm (hy.le_of_mem hx hxT) (hx.le_of_mem hy hyS)
      exact .inl (hinj hyS hx.1 heq)
    · exact .inr (.inr hxT)
  · exact .inr (.inl hyS)

/-- In a sorted list it is the first element at or after `t`. -/
lemma isNext_of_sorted {l : List α} (hl : l.Pairwise fun a b => point a ≤ point b) {i : ℕ}
    (hi : l[i]? = some x) (hx : t ≤ point x) (hlow : ∀ j < i, ∀ y, l[j]? = some y → point y < t) :
    IsNext point {y | y ∈ l} t x := by
  refine ⟨List.mem_of_getElem? hi, hx, fun y hy hty => ?_⟩
  obtain ⟨j, hj⟩ := List.mem_iff_getElem?.mp hy
  rcases lt_trichotomy j i with hlt | rfl | hgt
  · exact absurd hty (not_le.mpr (hlow j hlt y hj))
  · rw [hi] at hj
    cases hj
    exact le_rfl
  · obtain ⟨hi', rfl⟩ := List.getElem?_eq_some_iff.mp hi
    obtain ⟨hj', rfl⟩ := List.getElem?_eq_some_iff.mp hj
    exact List.pairwise_iff_getElem.mp hl i j hi' hj' hgt

/-! ### On a ring -/

/-- `x` is the successor of `t` on the ring: the next element or, where none is left, one with the
least point of all. -/
def IsRingNext (point : α → β) (S : Set α) (t : β) (x : α) : Prop :=
  IsNext point S t x ∨ x ∈ S ∧ (∀ y ∈ S, point y < t) ∧ ∀ y ∈ S, point x ≤ point y

/-- Past the last point the ring begins anew. -/
lemma isRingNext_iff_least (h : ∀ y ∈ S, point y < t) (hx : x ∈ S) :
    IsRingNext point S t x ↔ ∀ y ∈ S, point x ≤ point y := by
  refine ⟨?_, fun hleast => .inr ⟨hx, h, hleast⟩⟩
  rintro (hnext | ⟨-, -, hleast⟩)
  · exact absurd (h x hx) (not_lt.mpr hnext.2.1)
  · exact hleast

end Sax.Successor
