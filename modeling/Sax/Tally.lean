import Mathlib.Algebra.Order.Ring.Rat
import Mathlib.Data.List.Induction
import Mathlib.Tactic.Linarith
import Mathlib.Tactic.Ring

/-!
A counter that is read in one step and set back to 0 in another, while increments go on.

What a reading should report are the increments since the reading before it. It reports what
the counter holds, and a reset takes every increment made since its reading out of the counter
unreported.
-/

namespace Sax.Tally

inductive Mark
  | inc
  | read (total : ℚ)
  | zero
  deriving DecidableEq

/-- Every element stands in the relation `Q` to the elements before it. -/
def Along {α : Type} (Q : List α → α → Prop) (l : List α) : Prop :=
  ∀ pre a post, l = pre ++ a :: post → Q pre a

section along

variable {α : Type} {Q : List α → α → Prop} {l l' : List α} {a : α}

lemma along_nil : Along Q [] := fun _ _ _ h => by simp at h

lemma along_snoc : Along Q (l ++ [a]) ↔ Along Q l ∧ Q l a := by
  constructor
  · refine fun h => ⟨fun pre b post hl => h pre b (post ++ [a]) ?_, h l a [] rfl⟩
    rw [hl, List.append_assoc, List.cons_append]
  · rintro ⟨h, ha⟩ pre b post hl
    rcases List.eq_nil_or_concat post with rfl | ⟨init, last, rfl⟩
    · obtain ⟨rfl, hb⟩ := List.append_inj' hl rfl
      rw [List.cons.injEq] at hb
      exact hb.1 ▸ ha
    · rw [List.concat_eq_append, ← List.cons_append, ← List.append_assoc] at hl
      exact h pre b init (List.append_inj' hl rfl).1

lemma Along.of_append (h : Along Q (l ++ l')) : Along Q l := by
  intro pre a post hl
  refine h pre a (post ++ l') ?_
  rw [hl, List.append_assoc, List.cons_append]

end along

/-! ### What is held, owed and pending -/

def Mark.hold (q : ℚ) : Mark → ℚ
  | inc => q + 1
  | read _ => q
  | zero => 0

/-- What the counter holds after these marks. -/
def held (l : List Mark) : ℚ := l.foldl Mark.hold 0

def Mark.owe (q : ℚ) : Mark → ℚ
  | inc => q + 1
  | read _ => 0
  | zero => q

/-- The increments since the last reading. -/
def owed (l : List Mark) : ℚ := l.foldl Mark.owe 0

def Mark.pend (p : Bool) : Mark → Bool
  | inc => p
  | read _ => true
  | zero => false

/-- A reading waits for its reset. -/
def pending (l : List Mark) : Bool := l.foldl Mark.pend false

/-- Every reading reports what the counter holds. -/
def Honest : List Mark → Prop := Along fun pre m => ∀ v, m = .read v → v = held pre

/-- **Every reading reports the increments since the reading before it**, so each is in one. -/
def Exact : List Mark → Prop := Along fun pre m => ∀ v, m = .read v → v = owed pre

/-- After a reading comes its reset, and then the next reading. -/
def Alternates : List Mark → Prop :=
  Along fun pre m => (∀ v, m = .read v → pending pre = false) ∧ (m = .zero → pending pre = true)

/-- A reading, `j` increments, its reset, and `k` increments. -/
def period (v : ℚ) (j k : ℕ) : List Mark :=
  .read v :: (List.replicate j .inc ++ .zero :: List.replicate k .inc)

/-- Where another reading follows, no increment falls between a reading and its reset. -/
def Clear (l : List Mark) : Prop :=
  ∀ pre v j k u post, l = pre ++ period v j k ++ .read u :: post → j = 0

section marks

variable {l : List Mark} {m : Mark}

@[simp] lemma held_snoc : held (l ++ [m]) = m.hold (held l) := by
  simp [held]

@[simp] lemma pending_snoc : pending (l ++ [m]) = m.pend (pending l) := by
  simp [pending]

lemma foldl_replicate_inc {f : ℚ → Mark → ℚ} (hf : ∀ q, f q .inc = q + 1) (q : ℚ) (k : ℕ) :
    (List.replicate k .inc).foldl f q = q + k := by
  induction k generalizing q with
  | zero => simp
  | succ k ih =>
    rw [List.replicate_succ, List.foldl_cons, ih, hf]
    push_cast
    ring

lemma foldl_hold (q : ℚ) (k : ℕ) : (List.replicate k .inc).foldl Mark.hold q = q + k :=
  foldl_replicate_inc (fun _ => rfl) q k

lemma foldl_owe (q : ℚ) (k : ℕ) : (List.replicate k .inc).foldl Mark.owe q = q + k :=
  foldl_replicate_inc (fun _ => rfl) q k

/-- Only the increments after the reset are in the counter. -/
lemma held_period (v : ℚ) (j k : ℕ) : held (l ++ period v j k) = k := by
  simp [held, period, foldl_hold, Mark.hold]

lemma owed_period (v : ℚ) (j k : ℕ) : owed (l ++ period v j k) = j + k := by
  simp [owed, period, foldl_owe, Mark.owe]

/-- Where the marks end while a reading waits, or none does. -/
lemma shape (h : Alternates l) :
    if pending l then ∃ pre v j, l = pre ++ .read v :: List.replicate j .inc
    else (∃ k, l = List.replicate k .inc) ∨ ∃ pre v j k, l = pre ++ period v j k := by
  induction l using List.reverseRecOn with
  | nil => exact .inl ⟨0, rfl⟩
  | append_singleton l m ih =>
    obtain ⟨hl, hread, hzero⟩ := along_snoc.mp h
    have ih := ih hl
    cases m with
    | inc =>
      rw [pending_snoc, Mark.pend]
      split at ih
      · next hp =>
        obtain ⟨pre, v, j, rfl⟩ := ih
        rw [if_pos hp]
        exact ⟨pre, v, j + 1, by simp [List.replicate_succ']⟩
      · next hp =>
        rw [if_neg hp]
        rcases ih with ⟨k, rfl⟩ | ⟨pre, v, j, k, rfl⟩
        · exact .inl ⟨k + 1, by rw [List.replicate_succ']⟩
        · exact .inr ⟨pre, v, j, k + 1, by simp [period, List.replicate_succ']⟩
    | read v =>
      rw [pending_snoc, Mark.pend, if_pos rfl]
      exact ⟨l, v, 0, rfl⟩
    | zero =>
      rw [if_pos (hzero rfl)] at ih
      obtain ⟨pre, v, j, rfl⟩ := ih
      rw [pending_snoc, Mark.pend, if_neg (by simp)]
      exact .inr ⟨pre, v, j, 0, by simp [period]⟩

/-- **Readings of such a counter report every increment once exactly when none falls between a
reading and its reset.** -/
theorem exact_iff (hhonest : Honest l) (halt : Alternates l) : Exact l ↔ Clear l := by
  constructor
  · rintro h pre v j k u post hl
    have hheld := hhonest _ _ _ hl u rfl
    have howed := h _ _ _ hl u rfl
    rw [held_period] at hheld
    rw [owed_period, hheld] at howed
    exact_mod_cast (by linarith : (j : ℚ) = 0)
  · rintro h pre _ post hl v rfl
    rw [hhonest _ _ _ hl v rfl]
    have hpre : Alternates pre := Along.of_append (hl ▸ halt)
    have hshape := shape hpre
    rw [(halt _ _ _ hl).1 v rfl, if_neg (by simp)] at hshape
    rcases hshape with ⟨k, rfl⟩ | ⟨pre, u, j, k, rfl⟩
    · rw [held, owed, foldl_hold, foldl_owe]
    · rw [held_period, owed_period, h pre u j k v post hl]
      simp

end marks

end Sax.Tally
