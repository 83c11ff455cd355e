import Sax.CHash

/-!
The search of the consistent hash on its ring.

Past the last node the search should go on at the first. It returns the node at the lower
end of its window instead, and the window has moved to the end of the list by then: what is left of it
are the last one or two nodes. So only a list of one or two nodes wraps around.
-/

namespace Sax.Ring

open Sax.Loop Sax.CHash Sax.Successor

/-- How many nodes are left of `n` when the window is halved from below until it has at most two. -/
def window (n : ℕ) : ℕ := if n < 3 then n else window (n / 2)

/-- The first node of that window. -/
def stop (n : ℕ) : ℕ := n + 1 - window n

lemma window_of_lt {n : ℕ} (h : n < 3) : window n = n := by
  rw [window, if_pos h]

lemma window_half {n : ℕ} (h : ¬ n < 3) : window n = window (n / 2) := by
  rw [window, if_neg h]

lemma window_bounds {n : ℕ} (h : 1 ≤ n) : 1 ≤ window n ∧ window n ≤ 2 ∧ window n ≤ n := by
  induction n using Nat.strong_induction_on with
  | _ n ih =>
    by_cases hn : n < 3
    · rw [window_of_lt hn]
      omega
    · rw [window_half hn]
      have hhalf := ih (n / 2) (by omega) (by omega)
      omega

section find

variable {nodes : List Node} {point : ℕ}

/-- The loop has come to its end: its condition is false. -/
def Ends (nodes : List Node) (point : ℕ) : Prop :=
  ∃ l r, narrow nodes point nodes.length 1 nodes.length = .ok (l, r) ∧ ¬ l + 1 < r

lemma find_ends (hsorted : nodes.Pairwise fun a b => a.point ≤ b.point) (hne : nodes ≠ []) :
    Ends nodes point := by
  have hlen : 1 ≤ nodes.length := List.length_pos_iff.mpr hne
  have hstart : Between nodes point 1 nodes.length :=
    ⟨le_rfl, hlen, le_rfl, fun i hi => absurd hi (by omega), .inl rfl⟩
  obtain ⟨l, r, hnarrow, -, hside⟩ := narrow_spec hsorted (Nat.sub_le nodes.length 1) hstart
  exact ⟨l, r, hnarrow, by omega⟩

/-- Past the last node every round keeps the upper half of the window. -/
lemma narrow_past (hpast : ∀ x ∈ nodes, x.point < point) {rounds l : ℕ} (hpos : 1 ≤ l)
    (hle : l ≤ nodes.length) (hrounds : nodes.length - l ≤ rounds) :
    narrow nodes point rounds l nodes.length =
      .ok (nodes.length + 1 - window (nodes.length + 1 - l), nodes.length) := by
  induction rounds generalizing l with
  | zero =>
    have hl : l = nodes.length := by omega
    subst hl
    rw [narrow, Nat.add_sub_cancel_left, window_of_lt (by decide), Nat.add_sub_cancel]
  | succ rounds ih =>
    rw [narrow]
    by_cases hlt : l + 1 < nodes.length
    · rw [if_pos hlt]
      obtain ⟨x, hx, hnode⟩ : ∃ x, nodes[l + (nodes.length - l) / 2 - 1]? = some x ∧
          nodeAt nodes (l + (nodes.length - l) / 2) = .ok x := nodeAt_ok (by omega) (by omega)
      dsimp only
      rw [hnode, ok_bind, if_pos (hpast x (List.mem_of_getElem? hx)), ih (by omega) (by omega) (by omega),
        window_half (n := nodes.length + 1 - l) (by omega)]
      have hhalf : nodes.length + 1 - (l + (nodes.length - l) / 2 + 1) = (nodes.length + 1 - l) / 2 := by
        omega
      rw [hhalf]
    · rw [if_neg hlt, window_of_lt (by omega)]
      have hl : nodes.length + 1 - (nodes.length + 1 - l) = l := by omega
      rw [hl]

/-- Past the last node the search returns the node it stops at. -/
lemma find_past (hpast : ∀ x ∈ nodes, x.point < point) (hne : nodes ≠ []) :
    ∃ x, nodes[stop nodes.length - 1]? = some x ∧ consistent_hash_find nodes point = .ok x := by
  have hlen : 1 ≤ nodes.length := List.length_pos_iff.mpr hne
  have hwindow := window_bounds hlen
  obtain ⟨first, hfirst, hnode⟩ : ∃ x, nodes[stop nodes.length - 1]? = some x ∧
      nodeAt nodes (stop nodes.length) = .ok x :=
    nodeAt_ok (by unfold stop; omega) (by unfold stop; omega)
  obtain ⟨last, hlast, hnode'⟩ : ∃ x, nodes[nodes.length - 1]? = some x ∧
      nodeAt nodes nodes.length = .ok x := nodeAt_ok hlen le_rfl
  refine ⟨first, hfirst, ?_⟩
  unfold consistent_hash_find
  rw [narrow_past hpast le_rfl hlen (Nat.sub_le _ _), ok_bind, Nat.add_sub_cancel]
  dsimp only
  rw [← stop, hnode, ok_bind, if_neg (not_le.mpr (hpast first (List.mem_of_getElem? hfirst))), hnode',
    ok_bind, if_neg (not_le.mpr (hpast last (List.mem_of_getElem? hlast)))]
  rfl

/-- In a sorted list a node has the least point when those before it have the same. -/
lemma least_iff (hsorted : nodes.Pairwise fun a b => a.point ≤ b.point) {i : ℕ} {x : Node}
    (hx : nodes[i]? = some x) :
    (∀ y ∈ nodes, x.point ≤ y.point) ↔ ∀ y ∈ nodes.take i, x.point = y.point := by
  have hle : ∀ {j k : ℕ} {a b : Node}, j < k → nodes[j]? = some a → nodes[k]? = some b →
      a.point ≤ b.point := by
    intro j k a b hjk ha hb
    obtain ⟨hj, rfl⟩ := List.getElem?_eq_some_iff.mp ha
    obtain ⟨hk, rfl⟩ := List.getElem?_eq_some_iff.mp hb
    exact List.pairwise_iff_getElem.mp hsorted j k hj hk hjk
  constructor
  · intro hleast y hy
    obtain ⟨j, hj⟩ := List.mem_iff_getElem?.mp hy
    rw [List.getElem?_take] at hj
    split at hj
    · next hlt => exact le_antisymm (hleast y (List.mem_of_getElem? hj)) (hle hlt hj hx)
    · cases hj
  · intro hsame y hy
    obtain ⟨j, hj⟩ := List.mem_iff_getElem?.mp hy
    rcases lt_trichotomy j i with hlt | rfl | hgt
    · refine (hsame y (List.mem_of_getElem? (i := j) ?_)).le
      rwa [List.getElem?_take, if_pos hlt]
    · rw [hx] at hj
      cases hj
      exact le_rfl
    · exact hle hgt hx hj

/-- **The search ends and returns a node, and this is the successor on the ring exactly when some
node is at or after the point, or the first nodes, up to the one the search stops at past the
last, have one point**, for every sorted list of nodes. -/
theorem ring_next_iff (hsorted : nodes.Pairwise fun a b => a.point ≤ b.point) (hne : nodes ≠ []) :
    Ends nodes point ∧ ∃ x, consistent_hash_find nodes point = .ok x ∧
      (IsRingNext Node.point {y | y ∈ nodes} point x ↔
        (∃ y ∈ nodes, point ≤ y.point) ∨
          ∀ a ∈ nodes.take (stop nodes.length), ∀ b ∈ nodes.take (stop nodes.length),
            a.point = b.point) := by
  refine ⟨find_ends hsorted hne, ?_⟩
  by_cases hnext : ∃ y ∈ nodes, point ≤ y.point
  · obtain ⟨x, -, hfind, hx⟩ := find_spec hsorted hne
    exact ⟨x, hfind, iff_of_true (.inl (hx hnext)) (.inl hnext)⟩
  · have hpast : ∀ y ∈ nodes, y.point < point := fun y hy =>
      not_le.mp fun hle => hnext ⟨y, hy, hle⟩
    obtain ⟨x, hx, hfind⟩ := find_past hpast hne
    have hmem : x ∈ nodes := List.mem_of_getElem? hx
    have hstop : stop nodes.length - 1 + 1 = stop nodes.length := by
      have hwindow := window_bounds (List.length_pos_iff.mpr hne)
      unfold stop
      omega
    have htake : nodes.take (stop nodes.length) = nodes.take (stop nodes.length - 1) ++ [x] := by
      rw [← hstop, List.take_add_one, hx, hstop]
      rfl
    have hring : IsRingNext Node.point {y | y ∈ nodes} point x ↔ ∀ y ∈ nodes, x.point ≤ y.point :=
      isRingNext_iff_least hpast hmem
    refine ⟨x, hfind, ?_⟩
    rw [hring, or_iff_right hnext]
    refine Iff.trans (least_iff hsorted hx) ⟨fun hsame a ha b hb => ?_, fun hsame y hy => ?_⟩
    · have hall : ∀ c ∈ nodes.take (stop nodes.length), x.point = c.point := by
        intro c hc
        rw [htake, List.mem_append, List.mem_singleton] at hc
        rcases hc with hc | rfl
        · exact hsame c hc
        · rfl
      exact (hall a ha).symm.trans (hall b hb)
    · refine hsame x ?_ y ?_ <;> rw [htake] <;> simp [hy]

end find

section samples

/-- Nodes with these points, all of one peer. -/
def sampleNodes (points : List ℕ) : List Node := points.map fun point => ⟨point, ⟨⟨[], 1⟩, none⟩⟩

theorem ring_next_iff_sample :
    Ends (sampleNodes [10, 20]) 30 ∧ ∃ x, consistent_hash_find (sampleNodes [10, 20]) 30 = .ok x ∧
      (IsRingNext Node.point {y | y ∈ sampleNodes [10, 20]} 30 x ↔
        (∃ y ∈ sampleNodes [10, 20], 30 ≤ y.point) ∨
          ∀ a ∈ (sampleNodes [10, 20]).take (stop 2), ∀ b ∈ (sampleNodes [10, 20]).take (stop 2),
            a.point = b.point) :=
  ring_next_iff (by decide) (by decide)

/-- Past the last of three nodes the search returns the last, not the first. -/
theorem last_node_returned :
    ((sampleNodes [10, 20, 30]).Pairwise fun a b => a.point ≤ b.point) ∧
      consistent_hash_find (sampleNodes [10, 20, 30]) 31 = .ok ⟨30, ⟨⟨[], 1⟩, none⟩⟩ ∧
      ¬ IsRingNext Node.point {y | y ∈ sampleNodes [10, 20, 30]} 31 ⟨30, ⟨⟨[], 1⟩, none⟩⟩ := by
  refine ⟨by decide, by decide, fun hring => ?_⟩
  have hpast : ∀ y ∈ sampleNodes [10, 20, 30], y.point < 31 := by decide
  have hleast : ∀ y ∈ sampleNodes [10, 20, 30], 30 ≤ y.point :=
    (isRingNext_iff_least (S := {y | y ∈ sampleNodes [10, 20, 30]}) hpast (by decide)).mp hring
  exact absurd hleast (by decide)

end samples

end Sax.Ring
