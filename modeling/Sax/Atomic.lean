import Mathlib.Data.List.Basic
import Mathlib.Data.List.Chain
import Mathlib.Logic.Function.Basic

/-!
Programs over atomic operations, and their interleavings.

A program is a tree: it has a result, or it performs an operation and goes on as the reply
says. The threads of a pool perform their operations in any order, and the environment moves
in between. The history of a run holds each operation with its reply; what a thread has done is its
part of the history, and following that part through the program gives what is left of it.
-/

namespace Sax.Atomic

/-- A program that performs operations `Op`, with replies in `Reply`. -/
inductive Prog (Op : Type) (Reply : Op → Type) (α : Type)
  | ret (a : α)
  | op (o : Op) (k : Reply o → Prog Op Reply α)

section prog

variable {Op : Type} {Reply : Op → Type} {α β : Type}

def Prog.bind : Prog Op Reply α → (α → Prog Op Reply β) → Prog Op Reply β
  | .ret a, f => f a
  | .op o k, f => .op o fun r => (k r).bind f

instance : Monad (Prog Op Reply) where
  pure := .ret
  bind := Prog.bind

/-- The program of one operation. -/
def Prog.perform (o : Op) : Prog Op Reply (Reply o) := .op o .ret

/-- Every operation of the program meets `P`. -/
inductive Prog.Only (P : Op → Prop) : Prog Op Reply α → Prop
  | ret (a : α) : Only P (.ret a)
  | op {o : Op} {k : Reply o → Prog Op Reply α} : P o → (∀ r, Only P (k r)) → Only P (.op o k)

lemma Prog.Only.bind {P : Op → Prop} {p : Prog Op Reply α} {f : α → Prog Op Reply β}
    (hp : p.Only P) (hf : ∀ a, (f a).Only P) : (p >>= f).Only P := by
  induction hp with
  | ret a => exact hf a
  | op ho _ ih => exact .op ho ih

lemma Prog.Only.imp {P Q : Op → Prop} {p : Prog Op Reply α} (hp : p.Only P)
    (h : ∀ o, P o → Q o) : p.Only Q := by
  induction hp with
  | ret a => exact .ret a
  | op ho _ ih => exact .op (h _ ho) ih

lemma Prog.only_trivial (p : Prog Op Reply α) : p.Only fun _ => True := by
  induction p with
  | ret a => exact .ret a
  | op o k ih => exact .op trivial ih

lemma Prog.only_perform {P : Op → Prop} {o : Op} (h : P o) :
    (Prog.perform o : Prog Op Reply (Reply o)).Only P :=
  .op h .ret

lemma Prog.only_foldlM {γ : Type} {P : Op → Prop} {f : α → γ → Prog Op Reply α}
    (hf : ∀ a x, (f a x).Only P) (l : List γ) (a : α) : (l.foldlM f a).Only P := by
  induction l generalizing a with
  | nil => exact .ret a
  | cons x l ih => exact (hf a x).bind ih

end prog

/-! ### Alone -/

section alone

variable {Op : Type} {Reply : Op → Type} {α β σ : Type} (exec : (o : Op) → σ → Reply o × σ)

/-- The result and the last state of a program that nothing interrupts. -/
def Prog.run : Prog Op Reply α → σ → α × σ
  | .ret a, s => (a, s)
  | .op o k, s => (k (exec o s).1).run (exec o s).2

variable {exec}

@[simp] lemma Prog.run_pure (a : α) (s : σ) : (pure a : Prog Op Reply α).run exec s = (a, s) := rfl

@[simp] lemma Prog.run_perform (o : Op) (s : σ) :
    (Prog.perform o : Prog Op Reply _).run exec s = exec o s := rfl

@[simp] lemma Prog.run_bind (p : Prog Op Reply α) (f : α → Prog Op Reply β) (s : σ) :
    (p >>= f).run exec s = (f (p.run exec s).1).run exec (p.run exec s).2 := by
  induction p generalizing s with
  | ret a => rfl
  | op o k ih => exact ih _ _

/-- A loop that keeps nothing but the state. -/
lemma Prog.run_foldlM_unit {γ : Type} (f : γ → Prog Op Reply Unit) (l : List γ) (s : σ) :
    ((l.foldlM (fun _ x => f x) ()).run exec s).2 =
      l.foldl (fun s x => ((f x).run exec s).2) s := by
  induction l generalizing s with
  | nil => rfl
  | cons x l ih =>
    rw [List.foldlM_cons, Prog.run_bind]
    exact ih _

end alone

/-- The result of a program that has come to its end. -/
def Prog.result {Op : Type} {Reply : Op → Type} {α : Type} : Prog Op Reply α → Option α
  | .ret a => some a
  | .op _ _ => none

lemma Prog.result_eq_some {Op : Type} {Reply : Op → Type} {α : Type} {p : Prog Op Reply α}
    {a : α} : p.result = some a ↔ p = .ret a := by
  cases p <;> simp [Prog.result]

/-! ### What a program shows -/

section prog

variable {Op : Type} {Reply : Op → Type} {α β : Type}

/-- The operations of the program that `f` shows are these, whatever the replies. -/
inductive Prog.Emits {γ : Type} (f : Op → Option γ) : List γ → Prog Op Reply α → Prop
  | ret (a : α) : Emits f [] (.ret a)
  | skip {l : List γ} {o : Op} {k : Reply o → Prog Op Reply α} :
      f o = none → (∀ r, Emits f l (k r)) → Emits f l (.op o k)
  | emit {x : γ} {l : List γ} {o : Op} {k : Reply o → Prog Op Reply α} :
      f o = some x → (∀ r, Emits f l (k r)) → Emits f (x :: l) (.op o k)

section emits

variable {γ δ : Type} {f : Op → Option γ} {l l' : List γ}

lemma Prog.Emits.bind {p : Prog Op Reply α} {g : α → Prog Op Reply β} (hp : p.Emits f l)
    (hg : ∀ a, (g a).Emits f l') : (p >>= g).Emits f (l ++ l') := by
  induction hp with
  | ret a => exact hg a
  | skip ho _ ih => exact .skip ho ih
  | emit ho _ ih => exact .emit ho ih

/-- What follows shows nothing. -/
lemma Prog.Emits.bind_nil {p : Prog Op Reply α} {g : α → Prog Op Reply β} (hp : p.Emits f l)
    (hg : ∀ a, (g a).Emits f []) : (p >>= g).Emits f l := by
  have h := hp.bind hg
  rwa [List.append_nil] at h

/-- What comes first shows nothing. -/
lemma Prog.Emits.nil_bind {p : Prog Op Reply α} {g : α → Prog Op Reply β} (hp : p.Emits f [])
    (hg : ∀ a, (g a).Emits f l) : (p >>= g).Emits f l :=
  hp.bind hg

lemma Prog.emits_perform (o : Op) :
    (Prog.perform o : Prog Op Reply (Reply o)).Emits f (f o).toList := by
  cases ho : f o with
  | none => exact .skip ho .ret
  | some x => exact .emit ho .ret

/-- A loop shows what its rounds show. -/
lemma Prog.emits_foldlM {g : α → δ → Prog Op Reply α} {h : δ → List γ}
    (hg : ∀ a x, (g a x).Emits f (h x)) (xs : List δ) (a : α) :
    (xs.foldlM g a).Emits f (xs.flatMap h) := by
  induction xs generalizing a with
  | nil => exact .ret a
  | cons x xs ih => exact (hg a x).bind ih

lemma Prog.Emits.of_op {o : Op} {k : Reply o → Prog Op Reply α} (h : (Prog.op o k).Emits f l)
    (r : Reply o) : ∃ l', l = (f o).toList ++ l' ∧ (k r).Emits f l' := by
  cases h with
  | skip ho hk => exact ⟨l, by simp [ho], hk r⟩
  | emit ho hk => exact ⟨_, by simp [ho], hk r⟩

lemma Prog.Emits.of_result {p : Prog Op Reply α} (h : p.Emits f l) (hp : p.result.isSome) :
    l = [] := by
  cases h with
  | ret a => rfl
  | skip _ _ => simp [Prog.result] at hp
  | emit _ _ => simp [Prog.result] at hp

end emits

end prog

/-! ### Together -/

/-- An operation that a thread performed, with its reply and the state it left. -/
structure Event (Tid Op : Type) (Reply : Op → Type) (σ : Type) where
  tid : Tid
  op : Op
  reply : Reply op
  post : σ

/-- The threads and the state they share. -/
structure Pool (Tid Op : Type) (Reply : Op → Type) (σ α : Type) where
  state : σ
  prog : Tid → Prog Op Reply α

section together

variable {Tid Op : Type} {Reply : Op → Type} {σ α β : Type}

/-- `q` is what is left of `p` after the events. -/
inductive Trace : Prog Op Reply α → List (Event Tid Op Reply σ) → Prog Op Reply α → Prop
  | nil (p : Prog Op Reply α) : Trace p [] p
  | cons {o : Op} {k : Reply o → Prog Op Reply α} {es : List (Event Tid Op Reply σ)}
      {q : Prog Op Reply α} (t : Tid) (r : Reply o) (s : σ) :
      Trace (k r) es q → Trace (.op o k) (⟨t, o, r, s⟩ :: es) q

lemma Trace.snoc {p : Prog Op Reply α} {es : List (Event Tid Op Reply σ)} {o : Op}
    {k : Reply o → Prog Op Reply α} (h : Trace p es (.op o k)) (t : Tid) (r : Reply o) (s : σ) :
    Trace p (es ++ [⟨t, o, r, s⟩]) (k r) := by
  generalize hq : Prog.op o k = q at h
  induction h with
  | nil => subst hq; exact .cons t r s (.nil _)
  | cons t' r' s' _ ih => exact .cons t' r' s' (ih hq)

lemma Trace.eq_of_nil {p q : Prog Op Reply α}
    (h : Trace p ([] : List (Event Tid Op Reply σ)) q) : p = q := by
  cases h
  rfl

/-- A finished sequence finished its first part and then its second. -/
lemma Trace.bind_ret {p : Prog Op Reply α} {f : α → Prog Op Reply β}
    {es : List (Event Tid Op Reply σ)} {b : β} (h : Trace (p >>= f) es (.ret b)) :
    ∃ es₁ es₂ a, es = es₁ ++ es₂ ∧ Trace p es₁ (.ret a) ∧ Trace (f a) es₂ (.ret b) := by
  induction p generalizing es with
  | ret a => exact ⟨[], es, a, rfl, .nil _, h⟩
  | op o k ih =>
    cases h with
    | cons t r s h =>
      obtain ⟨es₁, es₂, a, rfl, h₁, h₂⟩ := ih r h
      exact ⟨_ :: es₁, es₂, a, rfl, .cons t r s h₁, h₂⟩

lemma Trace.pure_ret {a b : α} {es : List (Event Tid Op Reply σ)}
    (h : Trace (pure a : Prog Op Reply α) es (.ret b)) : es = [] ∧ a = b := by
  cases h
  exact ⟨rfl, rfl⟩

lemma Trace.perform_ret {o : Op} {a : Reply o} {es : List (Event Tid Op Reply σ)}
    (h : Trace (Prog.perform o : Prog Op Reply _) es (.ret a)) :
    ∃ t s, es = [⟨t, o, a, s⟩] := by
  cases h with
  | cons t r s h =>
    cases h
    exact ⟨t, s, rfl⟩

/-- **Prefix rule** for a finished loop whose events follow one another as `R` says. -/
theorem Trace.foldlM_ret {γ : Type} {f : α → γ → Prog Op Reply α} {P : List γ → α → Prop}
    {R : Event Tid Op Reply σ → Event Tid Op Reply σ → Prop}
    (hstep : ∀ d x a a' es, P d a → Trace (f a x) es (.ret a') → es.IsChain R → P (d ++ [x]) a')
    {l d : List γ} {a a' : α} {es : List (Event Tid Op Reply σ)} (hd : P d a)
    (h : Trace (l.foldlM f a) es (.ret a')) (hes : es.IsChain R) : P (d ++ l) a' := by
  induction l generalizing d a es with
  | nil =>
    obtain ⟨-, rfl⟩ := Trace.pure_ret h
    simpa using hd
  | cons x l ih =>
    obtain ⟨es₁, es₂, b, rfl, h₁, h₂⟩ := Trace.bind_ret h
    have hb : P (d ++ [x]) b := hstep d x a b es₁ hd h₁ hes.left_of_append
    simpa using ih hb h₂ hes.right_of_append

lemma Trace.only {P : Op → Prop} {p q : Prog Op Reply α} {es : List (Event Tid Op Reply σ)}
    (h : Trace p es q) (hp : p.Only P) : q.Only P := by
  induction h with
  | nil => exact hp
  | cons t r s _ ih =>
    cases hp with
    | op _ hk => exact ih (hk r)

lemma Trace.mem_only {P : Op → Prop} {p q : Prog Op Reply α} {es : List (Event Tid Op Reply σ)}
    (h : Trace p es q) (hp : p.Only P) : ∀ e ∈ es, P e.op := by
  induction h with
  | nil => simp
  | cons t r s _ ih =>
    cases hp with
    | op ho hk => exact List.forall_mem_cons.mpr ⟨ho, ih (hk r)⟩

variable [DecidableEq Tid] (exec : (o : Op) → σ → Reply o × σ) (env : σ → σ → Prop)

/-- The runs of a pool, with their histories. -/
inductive Run (c : Pool Tid Op Reply σ α) :
    List (Event Tid Op Reply σ) → Pool Tid Op Reply σ α → Prop
  | start : Run c [] c
  | op {es : List (Event Tid Op Reply σ)} {c' : Pool Tid Op Reply σ α} {o : Op}
      {k : Reply o → Prog Op Reply α} (t : Tid) : Run c es c' → c'.prog t = .op o k →
      Run c (es ++ [⟨t, o, (exec o c'.state).1, (exec o c'.state).2⟩])
        ⟨(exec o c'.state).2, Function.update c'.prog t (k (exec o c'.state).1)⟩
  | env {es : List (Event Tid Op Reply σ)} {c' : Pool Tid Op Reply σ α} {s : σ} :
      Run c es c' → env c'.state s → Run c es ⟨s, c'.prog⟩

variable {exec env} {c c' : Pool Tid Op Reply σ α} {es : List (Event Tid Op Reply σ)}

/-- **A thread is where its own events took it.** -/
theorem Run.trace (h : Run exec env c es c') (t : Tid) :
    Trace (c.prog t) (es.filter fun e => e.tid = t) (c'.prog t) := by
  induction h with
  | start => exact .nil _
  | @op es c' o k t' _ hk ih =>
    rw [List.filter_append]
    by_cases ht : t' = t
    · subst ht
      rw [hk] at ih
      simpa using ih.snoc t' _ _
    · simpa [ht, Function.update_of_ne (Ne.symm ht)] using ih
  | env _ _ ih => exact ih

/-- **What holds at the start and is kept by every operation of the threads and by the
environment holds in every run.** -/
theorem Run.invariant {P : Op → Prop} {I : σ → List (Event Tid Op Reply σ) → Prop}
    (hop : ∀ s es t o, P o → I s es → I (exec o s).2 (es ++ [⟨t, o, (exec o s).1, (exec o s).2⟩]))
    (henv : ∀ s s' es, env s s' → I s es → I s' es) (hstart : I c.state [])
    (hprog : ∀ t, (c.prog t).Only P) (h : Run exec env c es c') : I c'.state es := by
  induction h with
  | start => exact hstart
  | op t hrun hk ih =>
    have honly := (hrun.trace t).only (hprog t)
    rw [hk] at honly
    cases honly with
    | op ho _ => exact hop _ _ t _ ho ih
  | env _ he ih => exact henv _ _ _ he ih

/-- What an event reports is what its operation did to some state. -/
lemma Run.event (h : Run exec env c es c') {e : Event Tid Op Reply σ} (he : e ∈ es) :
    ∃ s, exec e.op s = (e.reply, e.post) := by
  induction h with
  | start => cases he
  | op t _ _ ih =>
    rcases List.mem_append.mp he with he | he
    · exact ih he
    · rw [List.mem_singleton] at he
      subst he
      exact ⟨_, rfl⟩
  | env _ _ ih => exact ih he

/-- A thread without events has not moved. -/
lemma Run.prog_eq (h : Run exec env c es c') {t : Tid} (ht : ∀ e ∈ es, e.tid ≠ t) :
    c'.prog t = c.prog t := by
  have htrace := h.trace t
  rw [List.filter_eq_nil_iff.mpr fun e he => by simpa using ht e he] at htrace
  exact htrace.eq_of_nil.symm

/-- A run stops before each of its events, and goes on after it from the state it left. -/
lemma Run.split {before after : List (Event Tid Op Reply σ)} {e : Event Tid Op Reply σ}
    (h : Run exec env c (before ++ e :: after) c') :
    ∃ s prog prog', Run exec env c before ⟨s, prog⟩ ∧ exec e.op s = (e.reply, e.post) ∧
      (∀ t, t ≠ e.tid → prog' t = prog t) ∧ Run exec env ⟨e.post, prog'⟩ after c' := by
  generalize hes : before ++ e :: after = es at h
  induction h generalizing after with
  | start => simp at hes
  | @op es c' o k t hrun hk ih =>
    rcases List.eq_nil_or_concat after with rfl | ⟨init, last, rfl⟩
    · obtain ⟨rfl, heq⟩ := List.append_inj' hes rfl
      rw [List.cons.injEq] at heq
      obtain ⟨rfl, -⟩ := heq
      exact ⟨c'.state, c'.prog, _, hrun, rfl, fun t' ht' => Function.update_of_ne ht' _ _, .start⟩
    · rw [List.concat_eq_append, ← List.cons_append, ← List.append_assoc] at hes
      obtain ⟨hinit, hlast⟩ := List.append_inj' hes rfl
      rw [List.cons.injEq] at hlast
      obtain ⟨s, prog, prog', hbefore, hexec, hprog, hafter⟩ := ih hinit
      refine ⟨s, prog, prog', hbefore, hexec, hprog, ?_⟩
      rw [List.concat_eq_append, hlast.1]
      exact .op t hafter hk
  | env _ he ih =>
    obtain ⟨s, prog, prog', hbefore, hexec, hprog, hafter⟩ := ih hes
    exact ⟨s, prog, prog', hbefore, hexec, hprog, .env hafter he⟩

/-! ### Runs under a condition -/

/-- The last event of a thread. -/
def lastOf (es : List (Event Tid Op Reply σ)) (t : Tid) : Option (Event Tid Op Reply σ) :=
  (es.filter fun e => e.tid = t).getLast?

lemma lastOf_snoc {e : Event Tid Op Reply σ} : lastOf (es ++ [e]) e.tid = some e := by
  simp [lastOf]

lemma lastOf_snoc_ne {e : Event Tid Op Reply σ} {t : Tid} (h : e.tid ≠ t) :
    lastOf (es ++ [e]) t = lastOf es t := by
  simp [lastOf, h]

variable (exec) in
/-- The runs whose steps meet a condition on the history and the state before them, `G` where a
thread moves and `E` where the environment does. -/
inductive Guarded (G : Tid → List (Event Tid Op Reply σ) → σ → Prop)
    (E : List (Event Tid Op Reply σ) → σ → σ → Prop) (c : Pool Tid Op Reply σ α) :
    List (Event Tid Op Reply σ) → Pool Tid Op Reply σ α → Prop
  | start : Guarded G E c [] c
  | op {es : List (Event Tid Op Reply σ)} {c' : Pool Tid Op Reply σ α} {o : Op}
      {k : Reply o → Prog Op Reply α} (t : Tid) : Guarded G E c es c' → c'.prog t = .op o k →
      G t es c'.state → Guarded G E c (es ++ [⟨t, o, (exec o c'.state).1, (exec o c'.state).2⟩])
        ⟨(exec o c'.state).2, Function.update c'.prog t (k (exec o c'.state).1)⟩
  | env {es : List (Event Tid Op Reply σ)} {c' : Pool Tid Op Reply σ α} {s : σ} :
      Guarded G E c es c' → E es c'.state s → Guarded G E c es ⟨s, c'.prog⟩

section guarded

variable {G G' : Tid → List (Event Tid Op Reply σ) → σ → Prop}
  {E E' : List (Event Tid Op Reply σ) → σ → σ → Prop}

lemma Guarded.run (hE : ∀ es s s', E es s s' → env s s') (h : Guarded exec G E c es c') :
    Run exec env c es c' := by
  induction h with
  | start => exact .start
  | op t _ hk _ ih => exact .op t ih hk
  | env _ he ih => exact .env ih (hE _ _ _ he)

/-- **Two conditions**: an invariant that the first one keeps may help to show the second. -/
theorem Guarded.mono {I : List (Event Tid Op Reply σ) → σ → Prop}
    (hop : ∀ t es s o, G t es s → I es s →
      I (es ++ [⟨t, o, (exec o s).1, (exec o s).2⟩]) (exec o s).2)
    (henv : ∀ es s s', E es s s' → I es s → I es s') (hstart : I [] c.state)
    (hG : ∀ t es s, I es s → G t es s → G' t es s)
    (hE : ∀ es s s', I es s → E es s s' → E' es s s')
    (h : Guarded exec G E c es c') : Guarded exec G' E' c es c' ∧ I es c'.state := by
  induction h with
  | start => exact ⟨.start, hstart⟩
  | op t _ hk hg ih => exact ⟨.op t ih.1 hk (hG _ _ _ ih.2 hg), hop _ _ _ _ hg ih.2⟩
  | env _ he ih => exact ⟨.env ih.1 (hE _ _ _ ih.2 he), henv _ _ _ he ih.2⟩

/-- **The events of a thread follow one another** as the condition makes them. -/
theorem Guarded.isChain {R : Event Tid Op Reply σ → Event Tid Op Reply σ → Prop}
    (hR : ∀ t es s o e, G t es s → lastOf es t = some e →
      R e ⟨t, o, (exec o s).1, (exec o s).2⟩)
    (h : Guarded exec G E c es c') (t : Tid) : (es.filter fun e => e.tid = t).IsChain R := by
  induction h with
  | start => exact .nil
  | @op es c' o k t' _ _ hg ih =>
    rw [List.filter_append]
    by_cases ht : t' = t
    · subst ht
      refine ih.append (by simp) fun e he e' he' => ?_
      have heq : e' = ⟨t', o, (exec o c'.state).1, (exec o c'.state).2⟩ := by simpa using he'.symm
      subst heq
      exact hR t' es c'.state o e hg he
    · simpa [ht] using ih
  | env _ _ ih => exact ih

end guarded

/-! ### Schedules -/

variable (exec) in
/-- The run in which the threads move as scheduled, a finished one not at all. -/
def Pool.play (c : Pool Tid Op Reply σ α) : List Tid →
    List (Event Tid Op Reply σ) × Pool Tid Op Reply σ α
  | [] => ([], c)
  | t :: ts =>
    match c.prog t with
    | .ret _ => c.play ts
    | .op o k =>
      let r := exec o c.state
      let rest := Pool.play ⟨r.2, Function.update c.prog t (k r.1)⟩ ts
      (⟨t, o, r.1, r.2⟩ :: rest.1, rest.2)

lemma Run.trans {c'' : Pool Tid Op Reply σ α} {es' : List (Event Tid Op Reply σ)}
    (h : Run exec env c es c') (h' : Run exec env c' es' c'') : Run exec env c (es ++ es') c'' := by
  induction h' with
  | start => simpa using h
  | op t _ hk ih => simpa using Run.op t ih hk
  | env _ he ih => exact .env ih he

lemma Pool.run_play (c : Pool Tid Op Reply σ α) (ts : List Tid) :
    Run exec env c (c.play exec ts).1 (c.play exec ts).2 := by
  induction ts generalizing c with
  | nil => exact .start
  | cons t ts ih =>
    unfold Pool.play
    split
    · exact ih c
    · next o k hk => exact Run.trans (Run.op t .start hk) (ih _)

/-- A schedule runs under a condition that always holds. -/
lemma Guarded.play {G : Tid → List (Event Tid Op Reply σ) → σ → Prop}
    {E : List (Event Tid Op Reply σ) → σ → σ → Prop} (hG : ∀ t es s, G t es s)
    (h : Guarded exec G E c es c') (ts : List Tid) :
    Guarded exec G E c (es ++ (c'.play exec ts).1) (c'.play exec ts).2 := by
  induction ts generalizing c' es with
  | nil => simpa [Pool.play] using h
  | cons t ts ih =>
    unfold Pool.play
    split
    · exact ih h
    · next o k hk => simpa using ih (h.op t hk (hG _ _ _))

end together

end Sax.Atomic
