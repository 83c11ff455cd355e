import Mathlib.Algebra.Order.Floor.Semiring
import Mathlib.Algebra.Order.Field.Basic
import Mathlib.Algebra.BigOperators.Group.Finset.Basic
import Mathlib.Algebra.Order.BigOperators.Group.List
import Mathlib.Data.Rat.Floor
import Mathlib.Order.Interval.Finset.Nat
import Mathlib.Data.List.TakeDrop
import Mathlib.Tactic.Linarith
import Sax.Double

/-!
A weighted choice by a number that is compared with the weights one after the other, each being
subtracted from it in turn.

The number falls on the first place whose sum of weights it does not exceed. The choice is in
proportion to whole weights. Where it is made with doubles it is in proportion to the weights only
where these are whole and a double tells the numbers up to their sum apart.
-/

namespace Sax.Weighted

section exact

variable {K : Type} [Field K] {ws : List K} {i : K} {j : ℕ}

lemma sum_take_succ {w : K} (hw : ws[j]? = some w) :
    (ws.take (j + 1)).sum = (ws.take j).sum + w := by
  rw [List.take_add_one, hw, List.sum_append, Option.toList_some, List.sum_singleton]

/-- The sums of whole weights are whole. -/
lemma sum_take_whole (h : ∀ w ∈ ws, ∃ m : ℕ, w = m) (j : ℕ) : ∃ m : ℕ, (ws.take j).sum = m := by
  induction j with
  | zero => exact ⟨0, by simp⟩
  | succ j ih =>
    obtain ⟨m, hm⟩ := ih
    cases hw : ws[j]? with
    | none => exact ⟨m, by rw [List.take_add_one, hw]; simpa using hm⟩
    | some w =>
      obtain ⟨m', hm'⟩ := h w (List.mem_of_getElem? hw)
      exact ⟨m + m', by rw [sum_take_succ hw, hm, hm', Nat.cast_add]⟩

variable [LinearOrder K]

/-- The place the number `i` falls on. -/
def pick (i : K) : List K → Option ℕ
  | [] => none
  | w :: ws => if i ≤ w then some 0 else (pick (i - w) ws).map (· + 1)

lemma take_pos (hpos : ∀ w ∈ ws, 0 < w) (j : ℕ) : ∀ w ∈ ws.take j, 0 < w :=
  fun w hw => hpos w (List.mem_of_mem_take hw)

variable [IsStrictOrderedRing K]

lemma sum_nonneg (hpos : ∀ w ∈ ws, 0 < w) : 0 ≤ ws.sum :=
  List.sum_nonneg fun w hw => (hpos w hw).le

lemma sum_take_le (hpos : ∀ w ∈ ws, 0 < w) (j : ℕ) : (ws.take j).sum ≤ ws.sum := by
  have hsplit := congrArg List.sum (List.take_append_drop j ws)
  rw [List.sum_append] at hsplit
  have hdrop : 0 ≤ (ws.drop j).sum := sum_nonneg fun w hw => hpos w (List.mem_of_mem_drop hw)
  linarith

/-- A number falls on a place when it lies between the sums before and after it. -/
lemma pick_eq_some (hpos : ∀ w ∈ ws, 0 < w) (hi : 0 < i) : pick i ws = some j ↔
    j < ws.length ∧ (ws.take j).sum < i ∧ i ≤ (ws.take (j + 1)).sum := by
  induction ws generalizing i j with
  | nil => simp [pick]
  | cons w ws ih =>
    rw [List.forall_mem_cons] at hpos
    rw [pick]
    split
    · next hle =>
      cases j with
      | zero => simp [hi, hle]
      | succ j =>
        have hsum := sum_nonneg (take_pos hpos.2 j)
        simp only [Option.some.injEq, reduceCtorEq, List.take_succ_cons, List.sum_cons, false_iff]
        rintro ⟨-, hlt, -⟩
        linarith
    · next hlt =>
      rw [not_le] at hlt
      cases j with
      | zero => simp [hlt]
      | succ j =>
        have hstep : pick (i - w) ws = some j ↔ _ := ih hpos.2 (sub_pos.mpr hlt)
        simp only [Option.map_eq_some_iff, Nat.add_right_cancel_iff, exists_eq_right, hstep,
          List.length_cons, Nat.add_lt_add_iff_right, List.take_succ_cons, List.sum_cons,
          sub_le_iff_le_add', lt_sub_iff_add_lt']

/-- **A number falls on some place exactly when it does not exceed the sum.** -/
lemma exists_pick (hpos : ∀ w ∈ ws, 0 < w) (hi : 0 < i) :
    (∃ j, pick i ws = some j) ↔ i ≤ ws.sum := by
  induction ws generalizing i with
  | nil => simpa [pick] using hi
  | cons w ws ih =>
    rw [List.forall_mem_cons] at hpos
    have hsum := sum_nonneg hpos.2
    rw [pick, List.sum_cons]
    split
    · next hle => exact iff_of_true ⟨0, rfl⟩ (by linarith)
    · next hlt =>
      rw [← sub_le_iff_le_add', ← ih hpos.2 (sub_pos.mpr (not_le.mp hlt))]
      simp only [Option.map_eq_some_iff]
      exact ⟨fun ⟨_, j, hj, _⟩ => ⟨j, hj⟩, fun ⟨j, hj⟩ => ⟨_, j, hj, rfl⟩⟩

/-- **As many of the numbers up to the sum fall on a place as its weight says**, where the weights
are whole. -/
lemma card_pick (hpos : ∀ w ∈ ws, 0 < w) (hwhole : ∀ w ∈ ws, ∃ m : ℕ, w = m) {n : ℕ}
    (hn : ws.sum = n) {w : K} (hw : ws[j]? = some w) :
    (((Finset.Icc 1 n).filter fun i : ℕ => pick (i : K) ws = some j).card : K) = w := by
  have hj := (List.getElem?_eq_some_iff.mp hw).1
  obtain ⟨a, ha⟩ := sum_take_whole hwhole j
  obtain ⟨m, rfl⟩ := hwhole w (List.mem_of_getElem? hw)
  have hnext : (ws.take (j + 1)).sum = (a + m : ℕ) := by
    rw [sum_take_succ hw, ha, Nat.cast_add]
  have hle : a + m ≤ n := by
    have hsum := sum_take_le hpos (j + 1)
    rw [hnext, hn] at hsum
    exact Nat.cast_le.mp hsum
  have hinterval : (Finset.Icc 1 n).filter (fun i : ℕ => pick (i : K) ws = some j) =
      Finset.Ioc a (a + m) := by
    ext i
    rw [Finset.mem_filter, Finset.mem_Icc, Finset.mem_Ioc]
    constructor
    · rintro ⟨⟨hi, -⟩, hpick⟩
      obtain ⟨-, hlt, hle'⟩ := (pick_eq_some hpos (Nat.cast_pos.mpr hi)).mp hpick
      rw [ha] at hlt
      rw [hnext] at hle'
      exact ⟨Nat.cast_lt.mp hlt, Nat.cast_le.mp hle'⟩
    · rintro ⟨hlt, hle'⟩
      have hi : 0 < i := Nat.zero_lt_of_lt hlt
      refine ⟨⟨hi, hle'.trans hle⟩, (pick_eq_some hpos (Nat.cast_pos.mpr hi)).mpr ⟨hj, ?_, ?_⟩⟩
      · rw [ha]
        exact Nat.cast_lt.mpr hlt
      · rw [hnext]
        exact Nat.cast_le.mpr hle'
  rw [hinterval, Nat.card_Ioc, Nat.add_sub_cancel_left]

end exact

/-! ### With doubles -/

section double

open Sax.Double (IsDouble)

variable {ws : List ℚ} {j : ℕ}

/-- The sum of the weights, added up as doubles. -/
def total (ws : List ℚ) : ℚ := ws.foldl Double.add 0

/-- The place the number `i` falls on, when the weights are subtracted as doubles. -/
def place (i : ℚ) : List ℚ → Option ℕ
  | [] => none
  | w :: ws => if i ≤ w then some 0 else (place (Double.sub i w) ws).map (· + 1)

/-- How many of the numbers from 1 to `n` fall on the place `j`. -/
def hits (n : ℕ) (ws : List ℚ) (j : ℕ) : ℕ :=
  ((Finset.Icc 1 n).filter fun i : ℕ => place (i : ℚ) ws = some j).card

/-- The numbers from 1 to the total are doubles and fall on a place, and the places are hit in
proportion to their weights. -/
def Fair (ws : List ℚ) : Prop :=
  (∀ i : ℕ, 1 ≤ i → i ≤ ⌈total ws⌉₊ → IsDouble i ∧ ∃ j, place (i : ℚ) ws = some j) ∧
    ∃ c : ℚ, ∀ j w, ws[j]? = some w → (hits ⌈total ws⌉₊ ws j : ℚ) = c * w

/-- Whole weights are added and subtracted exactly while their sum has 53 digits. -/
lemma foldl_add_eq {a : ℕ} (hwhole : ∀ w ∈ ws, ∃ m : ℕ, w = m) (h : a + ws.sum ≤ 2 ^ 53) :
    ws.foldl Double.add a = a + ws.sum := by
  induction ws generalizing a with
  | nil => simp
  | cons w ws ih =>
    rw [List.forall_mem_cons] at hwhole
    obtain ⟨⟨m, rfl⟩, hwhole⟩ := hwhole
    rw [List.sum_cons, ← add_assoc, ← Nat.cast_add] at h ⊢
    have hnonneg : 0 ≤ ws.sum := List.sum_nonneg fun w hw => by
      obtain ⟨m', rfl⟩ := hwhole w hw
      exact Nat.cast_nonneg m'
    have hle : ((a + m : ℕ) : ℚ) ≤ 2 ^ 53 := by linarith
    rw [List.foldl_cons, Double.add_natCast (by exact_mod_cast hle), ih hwhole h]

lemma place_eq_pick {i : ℕ} (hwhole : ∀ w ∈ ws, ∃ m : ℕ, w = m) (hi : i ≤ 2 ^ 53) :
    place (i : ℚ) ws = pick (i : ℚ) ws := by
  induction ws generalizing i with
  | nil => rfl
  | cons w ws ih =>
    rw [List.forall_mem_cons] at hwhole
    obtain ⟨⟨m, rfl⟩, hwhole⟩ := hwhole
    rw [place, pick]
    split
    · rfl
    · next hlt =>
      have hle : m ≤ i := by
        rw [Nat.cast_le] at hlt
        omega
      rw [Double.sub_natCast hi hle, ← Nat.cast_sub hle, ih hwhole (by omega)]

/-- Weights that lie above natural numbers come to more than the sum of these. -/
lemma sum_lt_foldl {cs : List ℕ} {k : ℕ} {a : ℚ} (hd : ∀ w ∈ ws, IsDouble w)
    (hcs : List.Forall₂ (fun (c : ℕ) w => (c : ℚ) < w) cs ws) (ha : IsDouble a) (hk : (k : ℚ) < a)
    (h : k + cs.sum ≤ 2 ^ 53) : ((k + cs.sum : ℕ) : ℚ) < ws.foldl Double.add a := by
  induction hcs generalizing k a with
  | nil => simpa using hk
  | cons hc hrest ih =>
    rw [List.forall_mem_cons] at hd
    rw [List.sum_cons, ← add_assoc] at h ⊢
    exact ih hd.2 (Double.isDouble_add _ _)
      (Double.natCast_lt_add ha hd.1 hk hc (by omega)) h

lemma sum_lt_total {cs : List ℕ} (hne : ws ≠ []) (hd : ∀ w ∈ ws, IsDouble w)
    (hcs : List.Forall₂ (fun (c : ℕ) w => (c : ℚ) < w) cs ws) (h : cs.sum ≤ 2 ^ 53) :
    (cs.sum : ℚ) < total ws := by
  cases hcs with
  | nil => exact absurd rfl hne
  | cons hc hrest =>
    rw [List.forall_mem_cons] at hd
    rw [total, List.foldl_cons, Double.add, zero_add, hd.1]
    exact sum_lt_foldl hd.2 hrest hd.1 hc h

lemma place_lt {i : ℚ} (h : place i ws = some j) : j < ws.length := by
  induction ws generalizing i j with
  | nil => cases h
  | cons w ws ih =>
    rw [place] at h
    split at h
    · cases h
      simp
    · obtain ⟨j', hj', rfl⟩ := Option.map_eq_some_iff.mp h
      simpa using ih hj'

/-- The numbers that fall on the places are all of them. -/
lemma sum_hits {n : ℕ} (h : ∀ i : ℕ, 1 ≤ i → i ≤ n → ∃ j, place (i : ℚ) ws = some j) :
    ((List.range ws.length).map (hits n ws)).sum = n := by
  have hfiber := Finset.card_eq_sum_card_fiberwise (s := Finset.Icc 1 n)
    (t := Finset.range ws.length) (f := fun i : ℕ => (place (i : ℚ) ws).getD 0) fun i hi => by
      obtain ⟨hi1, hin⟩ := Finset.mem_Icc.mp hi
      obtain ⟨j, hj⟩ := h i hi1 hin
      simpa [hj] using place_lt hj
  rw [Nat.card_Icc, Nat.add_sub_cancel] at hfiber
  have hsame : ∀ j, ((Finset.Icc 1 n).filter fun i : ℕ => (place (i : ℚ) ws).getD 0 = j) =
      (Finset.Icc 1 n).filter fun i : ℕ => place (i : ℚ) ws = some j := by
    intro j
    refine Finset.filter_congr fun i hi => ?_
    obtain ⟨hi1, hin⟩ := Finset.mem_Icc.mp hi
    obtain ⟨j', hj'⟩ := h i hi1 hin
    simp [hj']
  have hrange : ((List.range ws.length).map (hits n ws)).sum =
      Finset.sum (Finset.range ws.length) (hits n ws) := rfl
  exact hrange.trans ((Finset.sum_congr rfl fun j _ => by rw [hits, hsame]).trans hfiber.symm)

lemma forall₂_hits {R : ℕ → ℚ → Prop} {n : ℕ}
    (h : ∀ (j : ℕ) w, ws[j]? = some w → R (hits n ws j) w) :
    List.Forall₂ R ((List.range ws.length).map (hits n ws)) ws := by
  rw [List.forall₂_iff_get]
  refine ⟨by simp, fun j hj hjw => ?_⟩
  simpa using h j _ (List.getElem?_eq_getElem hjw)

lemma sum_eq_of_forall₂ {cs : List ℕ} (h : List.Forall₂ (fun (k : ℕ) w => (k : ℚ) = w) cs ws) :
    (cs.sum : ℚ) = ws.sum := by
  induction h with
  | nil => simp
  | cons hc _ ih => rw [List.sum_cons, List.sum_cons, Nat.cast_add, hc, ih]

/-- The numbers on the first place do not exceed its weight. -/
lemma hits_zero_le {w : ℚ} {n : ℕ} (hw : 0 < w) : (hits n (w :: ws) 0 : ℚ) ≤ w := by
  have hsub : ((Finset.Icc 1 n).filter fun i : ℕ => place (i : ℚ) (w :: ws) = some 0) ⊆
      Finset.Icc 1 ⌊w⌋₊ := by
    intro i hi
    obtain ⟨hmem, hplace⟩ := Finset.mem_filter.mp hi
    refine Finset.mem_Icc.mpr ⟨(Finset.mem_Icc.mp hmem).1, Nat.le_floor ?_⟩
    rw [place] at hplace
    split at hplace
    · assumption
    · simp at hplace
  have hcard := Finset.card_le_card hsub
  rw [Nat.card_Icc, Nat.add_sub_cancel] at hcard
  calc (hits n (w :: ws) 0 : ℚ) ≤ (⌊w⌋₊ : ℚ) := by exact_mod_cast hcard
    _ ≤ w := Nat.floor_le hw.le

lemma total_pos (hne : ws ≠ []) (hpos : ∀ w ∈ ws, 0 < w) (hd : ∀ w ∈ ws, IsDouble w) :
    0 < total ws := by
  have hzero : List.Forall₂ (fun (k : ℕ) w => (k : ℚ) < w) (ws.map fun _ => 0) ws := by
    rw [List.forall₂_map_left_iff, List.forall₂_same]
    intro w hw
    simpa using hpos w hw
  have hlow := sum_lt_total hne hd hzero (by simp)
  simpa using hlow

lemma total_eq (hwhole : ∀ w ∈ ws, ∃ m : ℕ, w = m) (hsum : ws.sum ≤ 2 ^ 53) :
    ∃ n : ℕ, ws.sum = n ∧ total ws = n ∧ n ≤ 2 ^ 53 := by
  obtain ⟨n, hn⟩ := sum_take_whole hwhole ws.length
  rw [List.take_length] at hn
  refine ⟨n, hn, ?_, ?_⟩
  · have hadd := foldl_add_eq (a := 0) hwhole (by rwa [Nat.cast_zero, zero_add])
    rw [Nat.cast_zero, zero_add, hn] at hadd
    exact hadd
  · rw [hn] at hsum
    exact_mod_cast hsum

/-- **With doubles the choice is fair exactly when all weights are whole and their sum has 53
digits.** -/
theorem fair_iff (hne : ws ≠ []) (hpos : ∀ w ∈ ws, 0 < w) (hd : ∀ w ∈ ws, IsDouble w) :
    Fair ws ↔ (∀ w ∈ ws, ∃ m : ℕ, w = m) ∧ ws.sum ≤ 2 ^ 53 := by
  constructor
  · rintro ⟨hall, c, hc⟩
    set n := ⌈total ws⌉₊ with hn
    have hsum : ((List.range ws.length).map (hits n ws)).sum = n :=
      sum_hits fun i h1 hle => (hall i h1 hle).2
    -- the first number that no double holds cannot be drawn
    have hn53 : n ≤ 2 ^ 53 := by
      by_contra hlarge
      have hdouble := (hall (2 ^ 53 + 1) (by omega) (by omega)).1
      revert hdouble
      decide +kernel
    have hle : c ≤ 1 := by
      obtain ⟨w, rest, rfl⟩ := List.exists_cons_of_ne_nil hne
      have hw : 0 < w := hpos w List.mem_cons_self
      have hfirst := (hc 0 w rfl).symm.trans_le (hits_zero_le hw)
      exact le_of_mul_le_mul_right (by linarith) hw
    have htotal : total ws ≤ n := Nat.le_ceil _
    rcases hle.lt_or_eq with hlt | rfl
    · -- every place is hit less often than its weight says, but the total is no less than that
      exfalso
      have hbelow : List.Forall₂ (fun (k : ℕ) w => (k : ℚ) < w)
          ((List.range ws.length).map (hits n ws)) ws := by
        refine forall₂_hits fun j w hw => ?_
        rw [hc j w hw]
        have hw0 := hpos w (List.mem_of_getElem? hw)
        nlinarith
      have hover := sum_lt_total hne hd hbelow (hsum.trans_le hn53)
      rw [hsum] at hover
      linarith
    · have hequal : List.Forall₂ (fun (k : ℕ) w => (k : ℚ) = w)
          ((List.range ws.length).map (hits n ws)) ws :=
        forall₂_hits fun j w hw => by rw [hc j w hw, one_mul]
      refine ⟨fun w hw => ?_, ?_⟩
      · obtain ⟨j, hj⟩ := List.mem_iff_getElem?.mp hw
        exact ⟨_, by rw [hc j w hj, one_mul]⟩
      · rw [← sum_eq_of_forall₂ hequal, hsum]
        exact_mod_cast hn53
  · rintro ⟨hwhole, hsum⟩
    obtain ⟨n, hn, htotal, hn53⟩ := total_eq hwhole hsum
    refine ⟨fun i h1 hle => ?_, 1, fun j w hw => ?_⟩
    · rw [htotal, Nat.ceil_natCast] at hle
      refine ⟨Double.isDouble_natCast (hle.trans hn53), ?_⟩
      rw [place_eq_pick hwhole (hle.trans hn53), exists_pick hpos (by exact_mod_cast h1), hn]
      exact_mod_cast hle
    · rw [htotal, Nat.ceil_natCast, one_mul, ← card_pick hpos hwhole hn hw, hits]
      congr 2
      refine Finset.filter_congr fun i hi => ?_
      rw [place_eq_pick hwhole ((Finset.mem_Icc.mp hi).2.trans hn53)]

end double

end Sax.Weighted
