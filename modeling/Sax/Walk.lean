import Mathlib.Data.Int.CardIntervalMod
import Mathlib.Data.List.OfFn
import Mathlib.Data.Rat.Floor
import Mathlib.Logic.Equiv.Basic

/-!
Walking round a permuted list.

Exchanging two elements composes the places of a list with a swap, so a shuffle by exchanges gives
the list along a permutation of its places. A walk of `n` steps round the list comes by each place
as often as `n` divided by the length says, rounded down or up.
-/

namespace Sax.Walk

variable {α : Type*} {s : ℕ}

/-- Two elements of a list change places. -/
lemma ofFn_exchange (f : Fin s → α) (i j : Fin s) :
    ((List.ofFn f).set i (f j)).set j (f i) = List.ofFn (f ∘ Equiv.swap i j) := by
  apply List.ext_getElem
  · simp
  · intro k _ hk
    rw [List.length_ofFn] at hk
    simp only [List.getElem_set, List.getElem_ofFn, Function.comp_apply]
    by_cases hj : (j : ℕ) = k
    · have hkj : (⟨k, hk⟩ : Fin s) = j := Fin.ext hj.symm
      rw [if_pos hj, hkj, Equiv.swap_apply_right]
    · rw [if_neg hj]
      by_cases hi : (i : ℕ) = k
      · have hki : (⟨k, hk⟩ : Fin s) = i := Fin.ext hi.symm
        rw [if_pos hi, hki, Equiv.swap_apply_left]
      · have hkj : (⟨k, hk⟩ : Fin s) ≠ j := fun h => hj (congrArg Fin.val h).symm
        have hki : (⟨k, hk⟩ : Fin s) ≠ i := fun h => hi (congrArg Fin.val h).symm
        rw [if_neg hi, Equiv.swap_apply_of_ne_of_ne hki hkj]

/-- The place that step `i` comes by. -/
def place (σ : Equiv.Perm (Fin s)) (hs : 0 < s) (i : ℕ) : Fin s := σ ⟨i % s, Nat.mod_lt i hs⟩

/-- How often a walk of `n` steps comes by the place `j`. -/
def visits (σ : Equiv.Perm (Fin s)) (hs : 0 < s) (n : ℕ) (j : Fin s) : ℕ :=
  n.count fun i => place σ hs i = j

variable (σ : Equiv.Perm (Fin s)) (hs : 0 < s) (n : ℕ) (j : Fin s)

lemma visits_eq : visits σ hs n j = n / s + if (σ.symm j : ℕ) % s < n % s then 1 else 0 := by
  rw [← Nat.count_modEq_card n hs, visits]
  congr 1
  funext i
  rw [place, ← Equiv.eq_symm_apply, Fin.ext_iff, Nat.ModEq, Nat.mod_eq_of_lt (σ.symm j).isLt]

/-- **Each place is visited `n / s` times, rounded down or up.** -/
theorem visits_floor_or_ceil : (visits σ hs n j : ℤ) = ⌊(n : ℚ) / s⌋ ∨
    (visits σ hs n j : ℤ) = ⌈(n : ℚ) / s⌉ := by
  rw [visits_eq]
  by_cases hlt : (σ.symm j : ℕ) % s < n % s
  · right
    rw [if_pos hlt, eq_comm, Int.ceil_eq_iff]
    have hs' : (0 : ℚ) < s := by exact_mod_cast hs
    have hmod : (s : ℚ) * (n / s : ℕ) + (n % s : ℕ) = n := by exact_mod_cast Nat.div_add_mod n s
    have hpos : (0 : ℚ) < (n % s : ℕ) := by exact_mod_cast (Nat.zero_le _).trans_lt hlt
    have hle : ((n % s : ℕ) : ℚ) ≤ s := by exact_mod_cast (Nat.mod_lt n hs).le
    generalize n / s = q at hmod ⊢
    rw [lt_div_iff₀ hs', div_le_iff₀ hs']
    push_cast
    constructor <;> linarith
  · left
    rw [if_neg hlt, Rat.floor_natCast_div_natCast, add_zero, Int.natCast_ediv]

end Sax.Walk
