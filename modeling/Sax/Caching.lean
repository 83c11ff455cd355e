import Mathlib.Logic.Function.Basic
import Sax.Loop

/-!
Readers of a store that changes while they wait.

One reader keeps what it finds and never asks for it again; others are made for one read. When
the others read nothing that the first did not read before, all reads of a key show one version
exactly if each of the others finds the version the first has kept, `oneVersion_iff`.

The readers are programs that may raise. `Follows` carries an invariant through such a program,
and compares it with the program that has no state.
-/

namespace Sax.Caching

/-! ### The readers -/

/-- What is stored under each key after so many waits. -/
abbrev History (Key Version : Type) := ℕ → Key → Option Version

/-- What a read found, and after how many waits; `fresh` says that its reader was made for it. -/
structure Read (Key Version : Type) where
  key : Key
  waits : ℕ
  fresh : Bool
  found : Option Version

/-- How often was waited, what the first reader has kept, and all that was read. -/
structure St (Key Version : Type) where
  waits : ℕ
  kept : Key → Option Version
  reads : List (Read Key Version)

section readers

variable {Key Version : Type}

def St.start : St Key Version := ⟨0, fun _ => none, []⟩

def St.wait (s : St Key Version) : St Key Version := { s with waits := s.waits + 1 }

variable [DecidableEq Key] (store : History Key Version)

/-- What the first reader finds. -/
def St.look (s : St Key Version) (key : Key) : Option Version := (s.kept key).or (store s.waits key)

/-- After a read of the first reader. -/
def St.read (s : St Key Version) (key : Key) : St Key Version :=
  { s with
    kept := Function.update s.kept key (s.look store key)
    reads := s.reads ++ [⟨key, s.waits, false, s.look store key⟩] }

/-- After a read of another reader. -/
def St.readFresh (s : St Key Version) (key : Key) : St Key Version :=
  { s with reads := s.reads ++ [⟨key, s.waits, true, store s.waits key⟩] }

/-- No two reads of a key show different versions. -/
def OneVersion (reads : List (Read Key Version)) : Prop :=
  ∀ r ∈ reads, ∀ r' ∈ reads, r.key = r'.key → r.found.isSome → r'.found.isSome → r.found = r'.found

/-- The first read that found the key. -/
def firstFound (reads : List (Read Key Version)) (key : Key) : Option (Read Key Version) :=
  reads.find? fun r => r.key = key ∧ r.found.isSome

/-- What a fresh read meets is what was stored when the key was first found, or nothing. -/
def Current (reads : List (Read Key Version)) : Prop :=
  ∀ r ∈ reads, r.fresh → ∀ f, firstFound reads r.key = some f →
    store r.waits r.key = none ∨ store r.waits r.key = store f.waits r.key

instance [DecidableEq Version] (reads : List (Read Key Version)) : Decidable (OneVersion reads) :=
  inferInstanceAs (Decidable (∀ r ∈ reads, ∀ r' ∈ reads, _ → _ → _ → _))

/-! ### How the reads come about -/

/-- What is kept is what was first found, and is all the first reader finds; the other readers find
what is stored, and that is kept in some version. -/
structure Sound (s : St Key Version) : Prop where
  kept : ∀ key v, s.kept key = some v →
    ∃ f, firstFound s.reads key = some f ∧ store f.waits key = some v
  own : ∀ r ∈ s.reads, r.fresh = false → r.found.isSome → s.kept r.key = r.found
  fresh : ∀ r ∈ s.reads, r.fresh → r.found = store r.waits r.key ∧
    (r.found.isSome → (s.kept r.key).isSome)

/-- What is stored under the key is kept, in this version or an older one. -/
def Covered (s : St Key Version) (key : Key) : Prop :=
  (store s.waits key).isSome → (s.kept key).isSome

/-- The invariant of a run in which fresh reads of `keys` may come next. -/
def Safe (keys : List Key) (s : St Key Version) : Prop :=
  Sound store s ∧ ∀ key ∈ keys, Covered store s key

variable {store} {s : St Key Version} {key : Key} {keys : List Key}

lemma sound_start : Sound store (.start : St Key Version) :=
  ⟨nofun, nofun, nofun⟩

lemma firstFound_snoc {reads : List (Read Key Version)} {r f : Read Key Version}
    (h : firstFound reads key = some f) : firstFound (reads ++ [r]) key = some f := by
  rw [firstFound] at h ⊢
  rw [List.find?_append, h, Option.some_or]

lemma mem_of_firstFound {reads : List (Read Key Version)} {f : Read Key Version}
    (h : firstFound reads key = some f) : f ∈ reads ∧ f.key = key ∧ f.found.isSome := by
  have hf := List.find?_some h
  rw [decide_eq_true_eq] at hf
  exact ⟨List.mem_of_find?_eq_some h, hf⟩

/-- A key that nothing is kept of was never found. -/
lemma Sound.firstFound_eq_none (h : Sound store s) (hkey : s.kept key = none) :
    firstFound s.reads key = none := by
  rw [firstFound, List.find?_eq_none]
  intro r hr hfound
  obtain ⟨rfl, hsome⟩ := of_decide_eq_true hfound
  cases hfresh : r.fresh with
  | false =>
    rw [← h.own r hr hfresh hsome, hkey] at hsome
    cases hsome
  | true =>
    have hkept := (h.fresh r hr hfresh).2 hsome
    rw [hkey] at hkept
    cases hkept

lemma read_kept_ne {k : Key} (h : k ≠ key) : (s.read store key).kept k = s.kept k :=
  Function.update_of_ne h _ _

lemma read_kept_self : (s.read store key).kept key = s.look store key :=
  Function.update_self ..

/-- What is kept stays. -/
lemma read_kept {k : Key} {v : Version} (h : s.kept k = some v) :
    (s.read store key).kept k = some v := by
  by_cases hk : k = key
  · subst hk
    rw [read_kept_self, St.look, h, Option.some_or]
  · rw [read_kept_ne hk, h]

lemma read_kept_isSome {k : Key} (h : (s.kept k).isSome) :
    ((s.read store key).kept k).isSome := by
  obtain ⟨v, hv⟩ := Option.isSome_iff_exists.mp h
  rw [read_kept hv]
  rfl

/-- Step lemma: a read of the first reader. -/
lemma Sound.read (h : Sound store s) (key : Key) : Sound store (s.read store key) := by
  refine ⟨fun k v hv => ?_, fun r hr hfresh hsome => ?_, fun r hr hfresh => ?_⟩
  · by_cases hold : s.kept k = some v
    · obtain ⟨f, hf, hstore⟩ := h.kept k v hold
      exact ⟨f, firstFound_snoc hf, hstore⟩
    · by_cases hk : k = key
      · -- found for the first time
        subst hk
        rw [read_kept_self] at hv
        have hnone : s.kept k = none := by
          rw [Option.eq_none_iff_forall_ne_some]
          intro u hu
          rw [St.look, hu, Option.some_or, Option.some.injEq] at hv
          exact hold (hv ▸ hu)
        have hstore : store s.waits k = some v := by rwa [St.look, hnone, Option.none_or] at hv
        refine ⟨⟨k, s.waits, false, s.look store k⟩, ?_, hstore⟩
        have hfirst := h.firstFound_eq_none hnone
        rw [firstFound] at hfirst ⊢
        rw [St.read, List.find?_append, hfirst, Option.none_or]
        exact List.find?_cons_of_pos (decide_eq_true ⟨rfl, by rw [hv]; rfl⟩)
      · rw [read_kept_ne hk] at hv
        exact absurd hv hold
  · rcases List.mem_append.mp hr with hr | hr
    · obtain ⟨v, hv⟩ := Option.isSome_iff_exists.mp hsome
      have hkept := h.own r hr hfresh hsome
      rw [hv] at hkept ⊢
      exact read_kept hkept
    · rw [List.mem_singleton] at hr
      subst hr
      exact read_kept_self
  · rcases List.mem_append.mp hr with hr | hr
    · obtain ⟨hstore, hkept⟩ := h.fresh r hr hfresh
      exact ⟨hstore, fun hsome => read_kept_isSome (hkept hsome)⟩
    · rw [List.mem_singleton] at hr
      subst hr
      cases hfresh

/-- Step lemma: a read of another reader, of a key that is covered. -/
lemma Sound.readFresh (h : Sound store s) (hcovered : Covered store s key) :
    Sound store (s.readFresh store key) := by
  refine ⟨fun k v hv => ?_, fun r hr hfresh hsome => ?_, fun r hr hfresh => ?_⟩
  · obtain ⟨f, hf, hstore⟩ := h.kept k v hv
    exact ⟨f, firstFound_snoc hf, hstore⟩
  · rcases List.mem_append.mp hr with hr | hr
    · exact h.own r hr hfresh hsome
    · rw [List.mem_singleton] at hr
      subst hr
      cases hfresh
  · rcases List.mem_append.mp hr with hr | hr
    · exact h.fresh r hr hfresh
    · rw [List.mem_singleton] at hr
      subst hr
      exact ⟨rfl, hcovered⟩

lemma Safe.read (h : Safe store keys s) (key : Key) :
    Safe store (key :: keys) (s.read store key) := by
  refine ⟨h.1.read key, List.forall_mem_cons.mpr ⟨fun hstore => ?_, fun k hk hstore => ?_⟩⟩
  · rw [read_kept_self, St.look, Option.isSome_or, Bool.or_eq_true]
    exact .inr hstore
  · exact read_kept_isSome (h.2 k hk hstore)

lemma Safe.readFresh (h : Safe store keys s) (hkey : key ∈ keys) :
    Safe store keys (s.readFresh store key) :=
  ⟨h.1.readFresh (h.2 key hkey), h.2⟩

/-- After a wait, nothing is known to be covered. -/
lemma Safe.wait (h : Safe store keys s) : Safe store [] s.wait :=
  ⟨⟨h.1.kept, h.1.own, h.1.fresh⟩, nofun⟩

lemma Safe.tail (h : Safe store (key :: keys) s) : Safe store keys s :=
  ⟨h.1, fun k hk => h.2 k (List.mem_cons_of_mem _ hk)⟩

lemma safe_start : Safe store [] (.start : St Key Version) := ⟨sound_start, nofun⟩

/-- **All reads of a key show one version exactly if the fresh ones are current.** -/
theorem oneVersion_iff (h : Sound store s) : OneVersion s.reads ↔ Current store s.reads := by
  constructor
  · intro hone r hr hfresh f hf
    obtain ⟨hfound, -⟩ := h.fresh r hr hfresh
    obtain ⟨hmem, hkey, hsome⟩ := mem_of_firstFound hf
    cases hstore : store r.waits r.key with
    | none => exact .inl rfl
    | some v =>
      rw [hstore] at hfound
      obtain ⟨v', hv'⟩ := Option.isSome_iff_exists.mp ((h.fresh r hr hfresh).2 (by rw [hfound]; rfl))
      obtain ⟨f', hf', hstore'⟩ := h.kept _ _ hv'
      rw [hf, Option.some.injEq] at hf'
      subst hf'
      have hsame := hone r hr f hmem hkey.symm (by rw [hfound]; rfl) hsome
      have hfv : f.found = some v' := by
        cases hff : f.fresh with
        | false =>
          rw [← h.own f hmem hff hsome, hkey, hv']
        | true =>
          rw [(h.fresh f hmem hff).1, hkey, hstore']
      rw [hfound, hfv] at hsame
      exact .inr (by rw [hstore', hsame])
  · intro hcurrent
    have hkept : ∀ r ∈ s.reads, r.found.isSome → s.kept r.key = r.found := by
      intro r hr hsome
      cases hfresh : r.fresh with
      | false => exact h.own r hr hfresh hsome
      | true =>
        obtain ⟨hfound, hk⟩ := h.fresh r hr hfresh
        obtain ⟨v, hv⟩ := Option.isSome_iff_exists.mp (hk hsome)
        obtain ⟨f, hf, hstore⟩ := h.kept _ _ hv
        rw [hfound] at hsome ⊢
        rcases hcurrent r hr hfresh f hf with hnone | heq
        · rw [hnone] at hsome
          cases hsome
        · rw [hv, heq, hstore]
    intro r hr r' hr' hkey hsome hsome'
    rw [← hkept r hr hsome, ← hkept r' hr' hsome', hkey]

end readers

/-! ### Programs that read -/

/-- A program that changes a state and may raise. -/
abbrev Run (ε σ α : Type) := ExceptT ε (StateM σ) α

section follows

variable {ε σ α β γ : Type}

/-- What comes of the program, and the state it leaves. -/
def Run.play (p : Run ε σ α) (s : σ) : Except ε α × σ := p s

/-- The program keeps the invariant, whatever comes of it, and where `A` holds it returns and
raises what `q` does. -/
def Follows (A : Prop) (I : σ → Prop) (p : Run ε σ α) (q : Except ε α) : Prop :=
  ∀ s, I s → I (p.play s).2 ∧ (A → (p.play s).1 = q)

variable {A : Prop} {I : σ → Prop}

lemma Run.play_bind (p : Run ε σ α) (f : α → Run ε σ β) (s : σ) :
    (p >>= f).play s = match p.play s with
      | (.ok a, t) => (f a).play t
      | (.error e, t) => (.error e, t) := by
  show ((p >>= f : Run ε σ β) s : Except ε β × σ) = _
  have h : (p >>= f : Run ε σ β) s = (match (p s : Except ε α × σ) with
      | (.ok a, t) => (f a t : Except ε β × σ)
      | (.error e, t) => (.error e, t)) := by
    show (match (p s : Except ε α × σ) with | (a, t) => ExceptT.bindCont f a t) = _
    rcases (p s : Except ε α × σ) with ⟨a | a, t⟩ <;> rfl
  rw [h]
  rfl

lemma Run.play_lift (q : Except ε α) (s : σ) : (liftM q : Run ε σ α).play s = (q, s) := by
  cases q <;> rfl

lemma follows_pure (a : α) : Follows A I (pure a : Run ε σ α) (pure a) := fun _ hs => ⟨hs, fun _ => rfl⟩

lemma follows_throw (e : ε) : Follows A I (throw e : Run ε σ α) (throw e) :=
  fun _ hs => ⟨hs, fun _ => rfl⟩

lemma follows_lift (q : Except ε α) : Follows A I (liftM q : Run ε σ α) q := fun s hs => by
  rw [Run.play_lift]
  exact ⟨hs, fun _ => rfl⟩

/-- **One program after the other.** -/
theorem Follows.bind {p : Run ε σ α} {q : Except ε α} {f : α → Run ε σ β} {g : α → Except ε β}
    (hp : Follows A I p q) (hf : ∀ a, Follows A I (f a) (g a)) :
    Follows A I (p >>= f) (q >>= g) := by
  intro s hs
  obtain ⟨hI, hA⟩ := hp s hs
  rw [Run.play_bind]
  rcases h : p.play s with ⟨e | a, t⟩
  · rw [h] at hI hA
    exact ⟨hI, fun ha => by rw [← hA ha]; rfl⟩
  · rw [h] at hI hA
    obtain ⟨hI', hA'⟩ := hf a t hI
    exact ⟨hI', fun ha => by rw [← hA ha]; exact hA' ha⟩

lemma follows_lift_bind {q : Except ε α} {f : α → Run ε σ β} {g : α → Except ε β}
    (hf : ∀ a, Follows A I (f a) (g a)) : Follows A I (liftM q >>= f) (q >>= g) :=
  (follows_lift q).bind hf

lemma follows_ite {c : Prop} [Decidable c] {p p' : Run ε σ α} {q q' : Except ε α}
    (h : c → Follows A I p q) (h' : ¬ c → Follows A I p' q') :
    Follows A I (if c then p else p') (if c then q else q') := by
  by_cases hc : c
  · rw [if_pos hc, if_pos hc]
    exact h hc
  · rw [if_neg hc, if_neg hc]
    exact h' hc

/-- **A loop follows a loop whose rounds its rounds follow.** -/
theorem follows_foldlM {f : β → α → Run ε σ β} {g : β → α → Except ε β}
    (h : ∀ b a, Follows A I (f b a) (g b a)) (l : List α) (b : β) :
    Follows A I (l.foldlM f b) (l.foldlM g b) := by
  induction l generalizing b with
  | nil => exact follows_pure b
  | cons a l ih =>
    rw [List.foldlM_cons, List.foldlM_cons]
    exact (h b a).bind ih

lemma follows_mapM {f : α → Run ε σ β} {g : α → Except ε β} (h : ∀ a, Follows A I (f a) (g a))
    (l : List α) : Follows A I (l.mapM f) (l.mapM g) := by
  induction l with
  | nil =>
    rw [List.mapM_nil, List.mapM_nil]
    exact follows_pure []
  | cons a l ih =>
    rw [List.mapM_cons, List.mapM_cons]
    exact (h a).bind fun b => ih.bind fun bs => follows_pure (b :: bs)

end follows

end Sax.Caching
