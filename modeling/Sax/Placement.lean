import Mathlib.Data.List.DropRight
import Mathlib.Data.List.Induction
import Mathlib.Tactic.Common

/-!
A place that several parties may fill one after the other.

A place is open as often as it was asked for. A party settles it, which adds contents and closes
it once, or clears it, which drops the contents and leaves it open. Whether a party drops or
keeps the contents it finds is a parameter.
-/

namespace Sax.Placement

variable {γ : Type}

inductive Event (γ : Type)
  | settled (contents : List γ)
  | cleared
  deriving DecidableEq

structure Place (γ : Type) where
  pending : ℕ
  content : Option (List γ)
  deriving DecidableEq

def Event.isSettled : Event γ → Bool
  | .settled _ => true
  | .cleared => false

def Event.contents : Event γ → List γ
  | .settled contents => contents
  | .cleared => []

/-- A party replaces what stands in the place. -/
def drop (_ : Option (List γ)) : List γ := []

/-- A party adds to what stands in the place. -/
def keep (content : Option (List γ)) : List γ := content.getD []

/-- `left` is what a party leaves of the contents it finds. -/
def Place.step (left : Option (List γ) → List γ) (p : Place γ) : Event γ → Place γ
  | .settled contents => ⟨p.pending - 1, some (left p.content ++ contents)⟩
  | .cleared => ⟨p.pending, none⟩

def Place.run (left : Option (List γ) → List γ) (p : Place γ) (es : List (Event γ)) : Place γ :=
  es.foldl (Place.step left) p

section run

variable {left : Option (List γ) → List γ} {p : Place γ} {es fs : List (Event γ)} {e : Event γ}

@[simp] lemma run_nil : p.run left [] = p := rfl

@[simp] lemma run_cons : p.run left (e :: es) = (p.step left e).run left es := rfl

lemma run_append : p.run left (es ++ fs) = (p.run left es).run left fs := List.foldl_append

lemma run_concat : p.run left (es ++ [e]) = (p.run left es).step left e := by
  rw [run_append]
  rfl

/-- Every settlement closes the place once. -/
lemma pending_run : (p.run left es).pending = p.pending - es.countP Event.isSettled := by
  induction es generalizing p with
  | nil => rfl
  | cons e es ih =>
    rw [run_cons, ih, List.countP_cons]
    cases e with
    | settled contents =>
      simp only [Place.step, Event.isSettled, if_true]
      omega
    | cleared => simp [Place.step, Event.isSettled]

/-- **Where parties replace contents, the last one decides.** -/
theorem content_drop : (p.run drop es).content = match es.getLast? with
    | none => p.content
    | some (.settled contents) => some contents
    | some .cleared => none := by
  induction es using List.reverseRecOn with
  | nil => rfl
  | append_singleton es e =>
    rw [run_concat, List.getLast?_concat]
    cases e <;> rfl

/-- **Where parties add contents, they stand one behind the other** since the place was last
cleared. -/
theorem content_keep (hp : p.content = none) : keep (p.run keep es).content =
    (es.rtakeWhile Event.isSettled).flatMap Event.contents := by
  induction es using List.reverseRecOn with
  | nil => rw [run_nil, hp]; rfl
  | append_singleton es e ih =>
    rw [run_concat]
    cases e with
    | settled contents =>
      rw [List.rtakeWhile_concat_pos _ _ _ rfl, List.flatMap_append, ← ih, List.flatMap_singleton]
      rfl
    | cleared =>
      rw [List.rtakeWhile_concat_neg _ _ _ Bool.false_ne_true]
      rfl

/-! ### At most one party a place -/

/-- Every party finds the place open. -/
def Orderly (left : Option (List γ) → List γ) : Place γ → List (Event γ) → Prop
  | _, [] => True
  | p, e :: es => 0 < p.pending ∧ Orderly left (p.step left e) es

lemma orderly_append :
    Orderly left p (es ++ fs) ↔ Orderly left p es ∧ Orderly left (p.run left es) fs := by
  induction es generalizing p with
  | nil => simp [Orderly]
  | cons e es ih => simp only [List.cons_append, Orderly, ih, run_cons, and_assoc]

/-- A stage with one event at most is orderly if it meets the place open. -/
lemma orderly_of_length_le (hlen : es.length ≤ 1) (h : es ≠ [] → 0 < p.pending) :
    Orderly left p es := by
  match es, hlen with
  | [], _ => trivial
  | [e], _ => exact ⟨h (List.cons_ne_nil _ _), trivial⟩

/-- Nobody settled the place, and it is open and empty; or one party did, and the place is closed
and shows what that party brought. -/
inductive Once (es : List (Event γ)) (p : Place γ) : Prop
  | unserved (none_settled : es.filter Event.isSettled = []) (place : p = ⟨1, none⟩)
  | served (contents : List γ) (one_settled : es.filter Event.isSettled = [.settled contents])
    (place : p = ⟨0, some contents⟩)

/-- **An orderly place asked for once is served at most once.** -/
theorem once_of_orderly (hleft : left none = []) (h : Orderly left ⟨1, none⟩ es) :
    Once es (Place.run left ⟨1, none⟩ es) := by
  induction es using List.reverseRecOn with
  | nil => exact .unserved rfl rfl
  | append_singleton es e ih =>
    obtain ⟨hes, hopen, -⟩ := orderly_append.mp h
    rw [run_concat]
    rcases ih hes with ⟨hnone, hplace⟩ | ⟨contents, -, hplace⟩
    · rw [hplace]
      cases e with
      | settled contents =>
        refine .served contents ?_ ?_
        · rw [List.filter_append, hnone]
          rfl
        · simp only [Place.step, hleft, List.nil_append]
      | cleared => exact .unserved (by rw [List.filter_append, hnone]; rfl) rfl
    · rw [hplace] at hopen
      exact absurd hopen (Nat.lt_irrefl 0)

end run

end Sax.Placement
