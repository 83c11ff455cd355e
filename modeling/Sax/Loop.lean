import Mathlib.Tactic.Common

/-!
Loops whose body may raise: a fold over a list in the error monad.

`foldlM_inv` carries an invariant through the loop, `foldlM_prefix` one that speaks of the
elements already done, and `foldlM_ok_iff` says when the loop comes to its end.
-/

namespace Sax.Loop

variable {ε α β σ : Type}

lemma bind_ok {x : Except ε α} {f : α → Except ε β} {b : β} :
    (x >>= f) = .ok b ↔ ∃ a, x = .ok a ∧ f a = .ok b := by
  cases x with
  | error e => exact ⟨fun h => (nomatch h), fun ⟨_, h, _⟩ => (nomatch h)⟩
  | ok a => exact ⟨fun h => ⟨a, rfl, h⟩, fun ⟨_, h, h'⟩ => by cases h; exact h'⟩

@[simp] lemma toOption_eq_some {x : Except ε α} {a : α} : x.toOption = some a ↔ x = .ok a := by
  cases x with
  | error e => exact ⟨nofun, nofun⟩
  | ok b => simp [Except.toOption]

lemma exists_ok {x : Except ε α} (h : x.isOk) : ∃ a, x = .ok a := by
  cases x with
  | error e => cases h
  | ok a => exact ⟨a, rfl⟩

lemma bind_isOk {x : Except ε α} {f : α → Except ε β} :
    (∃ b, (x >>= f) = .ok b) ↔ ∃ a, x = .ok a ∧ ∃ b, f a = .ok b := by
  constructor
  · rintro ⟨b, h⟩
    obtain ⟨a, ha, hb⟩ := bind_ok.mp h
    exact ⟨a, ha, b, hb⟩
  · rintro ⟨a, ha, b, hb⟩
    exact ⟨b, bind_ok.mpr ⟨a, ha, hb⟩⟩

@[simp] lemma ok_bind {a : α} {f : α → Except ε β} : (Except.ok a >>= f) = f a := rfl

@[simp] lemma error_bind {e : ε} {f : α → Except ε β} : (Except.error e >>= f) = .error e := rfl

@[simp] lemma pure_ok {a b : α} : (pure a : Except ε α) = .ok b ↔ a = b := by
  constructor
  · intro h; cases h; rfl
  · rintro rfl; rfl

variable {f : σ → α → Except ε σ}

lemma foldlM_cons_ok {s s' : σ} {a : α} {l : List α} :
    (a :: l).foldlM f s = .ok s' ↔ ∃ t, f s a = .ok t ∧ l.foldlM f t = .ok s' := by
  rw [List.foldlM_cons, bind_ok]

/-- **Invariant rule**: what every step keeps holds after the loop. -/
theorem foldlM_inv {P : σ → Prop} {l : List α}
    (hstep : ∀ s a s', a ∈ l → P s → f s a = .ok s' → P s') {s s' : σ} (hs : P s)
    (h : l.foldlM f s = .ok s') : P s' := by
  induction l generalizing s with
  | nil => cases h; exact hs
  | cons a l ih =>
    obtain ⟨t, ht, hrest⟩ := foldlM_cons_ok.mp h
    exact ih (fun s b s' hb => hstep s b s' (List.mem_cons_of_mem _ hb))
      (hstep s a t List.mem_cons_self hs ht) hrest

/-- **Prefix rule**: an invariant of the elements done so far holds of all of them at the
end. -/
theorem foldlM_prefix {P : List α → σ → Prop} {l : List α}
    (hstep : ∀ d a s s', a ∈ l → P d s → f s a = .ok s' → P (d ++ [a]) s') {d : List α}
    {s s' : σ} (hs : P d s) (h : l.foldlM f s = .ok s') : P (d ++ l) s' := by
  induction l generalizing d s with
  | nil => cases h; simpa using hs
  | cons a l ih =>
    obtain ⟨t, ht, hrest⟩ := foldlM_cons_ok.mp h
    simpa using ih (fun d b s s' hb => hstep d b s s' (List.mem_cons_of_mem _ hb))
      (hstep d a s t List.mem_cons_self hs ht) hrest

/-- **Progress rule**: where the state does not decide whether a step goes through, the loop
ends exactly when every element lets its step through. -/
theorem foldlM_ok_iff {Ok : α → Prop} {P : σ → Prop} {l : List α}
    (hok : ∀ s a, a ∈ l → P s → ((∃ s', f s a = .ok s') ↔ Ok a))
    (hinv : ∀ s a s', a ∈ l → P s → f s a = .ok s' → P s') {s : σ} (hs : P s) :
    (∃ s', l.foldlM f s = .ok s') ↔ ∀ a ∈ l, Ok a := by
  induction l generalizing s with
  | nil => exact ⟨fun _ _ ha => absurd ha List.not_mem_nil, fun _ => ⟨s, rfl⟩⟩
  | cons a l ih =>
    have ih' : ∀ {t}, P t → ((∃ s', l.foldlM f t = .ok s') ↔ ∀ b ∈ l, Ok b) := fun ht =>
      ih (fun s b hb => hok s b (List.mem_cons_of_mem _ hb))
        (fun s b s' hb => hinv s b s' (List.mem_cons_of_mem _ hb)) ht
    have ha : a ∈ a :: l := List.mem_cons_self
    rw [List.foldlM_cons, bind_isOk, List.forall_mem_cons]
    constructor
    · rintro ⟨t, ht, hrest⟩
      exact ⟨(hok s a ha hs).mp ⟨t, ht⟩, (ih' (hinv s a t ha hs ht)).mp hrest⟩
    · rintro ⟨h1, h2⟩
      obtain ⟨t, ht⟩ := (hok s a ha hs).mpr h1
      exact ⟨t, ht, (ih' (hinv s a t ha hs ht)).mpr h2⟩

/-- A loop whose steps all go through comes to its end. -/
lemma foldlM_isOk {P : σ → Prop} {l : List α} (hok : ∀ s a, a ∈ l → P s → ∃ s', f s a = .ok s')
    (hinv : ∀ s a s', a ∈ l → P s → f s a = .ok s' → P s') {s : σ} (hs : P s) :
    ∃ s', l.foldlM f s = .ok s' :=
  (foldlM_ok_iff (fun s a ha h => iff_true_intro (hok s a ha h)) hinv hs).mpr fun _ _ => trivial

/-- A loop for effect ends exactly when every element goes through. -/
lemma forM_isOk {g : α → Except ε Unit} {l : List α} :
    l.forM g = .ok () ↔ ∀ a ∈ l, g a = .ok () := by
  induction l with
  | nil => exact ⟨fun _ a ha => absurd ha List.not_mem_nil, fun _ => rfl⟩
  | cons a l ih =>
    have hcons : (a :: l).forM g = (g a >>= fun _ => l.forM g) := rfl
    rw [hcons, bind_ok, List.forall_mem_cons, ← ih]
    exact ⟨fun ⟨_, ha, hl⟩ => ⟨ha, hl⟩, fun ⟨ha, hl⟩ => ⟨_, ha, hl⟩⟩

/-! ### Loops that build a list -/

variable {g : α → Except ε β}

lemma mapM_cons_ok {a : α} {l : List α} {r : List β} :
    (a :: l).mapM g = .ok r ↔ ∃ b, g a = .ok b ∧ ∃ t, l.mapM g = .ok t ∧ r = b :: t := by
  simp only [List.mapM_cons, bind_ok, pure_ok]
  exact exists_congr fun b => and_congr_right fun _ =>
    exists_congr fun t => and_congr_right fun _ => eq_comm

/-- The list is built exactly when every element goes through. -/
lemma mapM_isOk {l : List α} : (∃ r, l.mapM g = .ok r) ↔ ∀ a ∈ l, ∃ b, g a = .ok b := by
  induction l with
  | nil => exact ⟨fun _ a ha => absurd ha List.not_mem_nil, fun _ => ⟨[], rfl⟩⟩
  | cons a l ih =>
    rw [List.forall_mem_cons, ← ih]
    constructor
    · rintro ⟨r, h⟩
      obtain ⟨b, hb, t, ht, -⟩ := mapM_cons_ok.mp h
      exact ⟨⟨b, hb⟩, t, ht⟩
    · rintro ⟨⟨b, hb⟩, t, ht⟩
      exact ⟨b :: t, mapM_cons_ok.mpr ⟨b, hb, t, ht, rfl⟩⟩

lemma mapM_forall {P : β → Prop} {l : List α} {r : List β}
    (hstep : ∀ a ∈ l, ∀ b, g a = .ok b → P b) (h : l.mapM g = .ok r) : ∀ b ∈ r, P b := by
  induction l generalizing r with
  | nil => cases h; simp
  | cons a l ih =>
    obtain ⟨b, hb, t, ht, rfl⟩ := mapM_cons_ok.mp h
    rw [List.forall_mem_cons]
    exact ⟨hstep a List.mem_cons_self b hb,
      ih (fun c hc => hstep c (List.mem_cons_of_mem _ hc)) ht⟩

/-- Every element of the list built was built from one of the elements. -/
lemma mapM_mem {l : List α} {r : List β} (h : l.mapM g = .ok r) {b : β} (hb : b ∈ r) :
    ∃ a ∈ l, g a = .ok b := by
  induction l generalizing r with
  | nil => cases h; cases hb
  | cons a l ih =>
    obtain ⟨b', hb', t, ht, rfl⟩ := mapM_cons_ok.mp h
    rcases List.mem_cons.mp hb with rfl | hb
    · exact ⟨a, List.mem_cons_self, hb'⟩
    · obtain ⟨a', ha', h'⟩ := ih ht hb
      exact ⟨a', List.mem_cons_of_mem _ ha', h'⟩

/-- Every element left something in the list built. -/
lemma mem_mapM {l : List α} {r : List β} (h : l.mapM g = .ok r) {a : α} (ha : a ∈ l) :
    ∃ b ∈ r, g a = .ok b := by
  induction l generalizing r with
  | nil => cases ha
  | cons a' l ih =>
    obtain ⟨b', hb', t, ht, rfl⟩ := mapM_cons_ok.mp h
    rcases List.mem_cons.mp ha with rfl | ha
    · exact ⟨b', List.mem_cons_self, hb'⟩
    · obtain ⟨b, hb, h'⟩ := ih ht ha
      exact ⟨b, List.mem_cons_of_mem _ hb, h'⟩

/-- The elements of the list built stand where the ones they were built from do. -/
lemma mapM_getElem? {l : List α} {r : List β} (h : l.mapM g = .ok r) {i : ℕ} {a : α}
    (ha : l[i]? = some a) : ∃ b, r[i]? = some b ∧ g a = .ok b := by
  induction l generalizing r i with
  | nil => simp at ha
  | cons c l ih =>
    obtain ⟨b, hb, t, ht, rfl⟩ := mapM_cons_ok.mp h
    cases i with
    | zero =>
      cases ha
      exact ⟨b, rfl, hb⟩
    | succ i =>
      rw [List.getElem?_cons_succ] at ha ⊢
      exact ih ht ha

lemma forall₂_getElem? {R : α → β → Prop} {l : List α} {r : List β}
    (h : List.Forall₂ R l r) {i : ℕ} {a : α} (ha : l[i]? = some a) : ∃ b, r[i]? = some b ∧ R a b := by
  induction h generalizing i with
  | nil => cases ha
  | cons hab _ ih =>
    cases i with
    | zero =>
      cases ha
      exact ⟨_, rfl, hab⟩
    | succ i => exact ih ha

/-- What each step reads back off its result, the whole list does. -/
lemma mapM_forall₂ {l : List α} {r : List β} (h : l.mapM g = .ok r) :
    List.Forall₂ (fun a b => g a = .ok b) l r := by
  induction l generalizing r with
  | nil => cases h; exact .nil
  | cons a l ih =>
    obtain ⟨b, hb, t, ht, rfl⟩ := mapM_cons_ok.mp h
    exact .cons hb (ih ht)

lemma mapM_map {back : β → α} (hback : ∀ a b, g a = .ok b → back b = a) {l : List α}
    {r : List β} (h : l.mapM g = .ok r) : r.map back = l := by
  induction l generalizing r with
  | nil => cases h; rfl
  | cons a l ih =>
    obtain ⟨b, hb, t, ht, rfl⟩ := mapM_cons_ok.mp h
    rw [List.map_cons, hback a b hb, ih ht]

/-- What each step leaves alone, the whole list leaves alone. -/
lemma mapM_map_eq {γ : Type} {p : α → γ} {q : β → γ} (hpq : ∀ a b, g a = .ok b → q b = p a)
    {l : List α} {r : List β} (h : l.mapM g = .ok r) : r.map q = l.map p := by
  induction l generalizing r with
  | nil => cases h; rfl
  | cons a l ih =>
    obtain ⟨b, hb, t, ht, rfl⟩ := mapM_cons_ok.mp h
    rw [List.map_cons, List.map_cons, hpq a b hb, ih ht]

lemma mapM_length {l : List α} {r : List β} (h : l.mapM g = .ok r) : r.length = l.length := by
  induction l generalizing r with
  | nil => cases h; rfl
  | cons a l ih =>
    obtain ⟨b, -, t, ht, rfl⟩ := mapM_cons_ok.mp h
    simp [ih ht]

/-- A loop that keeps the elements a test passes, where `q` is what the test finds. -/
lemma filterM_ok {ε α : Type} {p : α → Except ε Bool} {q : α → Bool} {l r : List α}
    (hp : ∀ a ∈ l, ∀ b, p a = .ok b → b = q a) (h : l.filterM p = .ok r) : r = l.filter q := by
  have haux : ∀ l acc r : List α, (∀ a ∈ l, ∀ b, p a = .ok b → b = q a) →
      l.filterAuxM p acc = .ok r → r = (l.filter q).reverse ++ acc := by
    intro l
    induction l with
    | nil =>
      intro acc r _ h
      cases h
      rfl
    | cons a l ih =>
      intro acc r hp h
      obtain ⟨ha, hl⟩ := List.forall_mem_cons.mp hp
      obtain ⟨b, hb, h⟩ := bind_ok.mp h
      rw [ih _ r hl h, ha b hb]
      cases hq : q a <;> simp [hq]
  obtain ⟨t, ht, h⟩ := bind_ok.mp h
  cases h
  rw [haux l [] t hp ht, List.append_nil, List.reverse_reverse]

/-! ### Loops that may have no value -/

lemma mapM_some_cons {f : α → Option β} {a : α} {l : List α} {r : List β} :
    (a :: l).mapM f = some r ↔ ∃ b, f a = some b ∧ ∃ t, l.mapM f = some t ∧ r = b :: t := by
  simp only [List.mapM_cons, Option.bind_eq_bind, Option.bind_eq_some_iff, Option.pure_def,
    Option.some.injEq]
  exact exists_congr fun b => and_congr_right fun _ =>
    exists_congr fun t => and_congr_right fun _ => eq_comm

lemma mapM_isSome {f : α → Option β} {l : List α} :
    (∃ r, l.mapM f = some r) ↔ ∀ a ∈ l, ∃ b, f a = some b := by
  induction l with
  | nil => exact ⟨fun _ a ha => absurd ha List.not_mem_nil, fun _ => ⟨[], rfl⟩⟩
  | cons a l ih =>
    rw [List.forall_mem_cons, ← ih]
    constructor
    · rintro ⟨r, h⟩
      obtain ⟨b, hb, t, ht, -⟩ := mapM_some_cons.mp h
      exact ⟨⟨b, hb⟩, t, ht⟩
    · rintro ⟨⟨b, hb⟩, t, ht⟩
      exact ⟨b :: t, mapM_some_cons.mpr ⟨b, hb, t, ht, rfl⟩⟩

lemma mapM_some_length {f : α → Option β} {l : List α} {r : List β} (h : l.mapM f = some r) :
    r.length = l.length := by
  induction l generalizing r with
  | nil => cases h; rfl
  | cons a l ih =>
    obtain ⟨b, -, r', hr', rfl⟩ := mapM_some_cons.mp h
    rw [List.length_cons, List.length_cons, ih hr']

lemma mem_mapM_some {f : α → Option β} {l : List α} {r : List β} (h : l.mapM f = some r) {b : β} :
    b ∈ r ↔ ∃ a ∈ l, f a = some b := by
  induction l generalizing r with
  | nil => cases h; simp
  | cons a l ih =>
    obtain ⟨c, hc, t, ht, rfl⟩ := mapM_some_cons.mp h
    simp only [List.mem_cons, ih ht, or_and_right, exists_or, exists_eq_left, hc, Option.some.injEq,
      @eq_comm _ b c]

/-! ### Loops that keep what they did -/

/-- A loop whose body changes a state and may raise; what was done before it raised stays. -/
def each (body : α → σ → Except ε Unit × σ) : List α → σ → Except ε Unit × σ
  | [], s => (.ok (), s)
  | a :: l, s =>
    match body a s with
    | (.ok (), s') => each body l s'
    | (.error e, s') => (.error e, s')

section each

variable {body : α → σ → Except ε Unit × σ} {s s' : σ} {l l' : List α}

lemma each_append : each body (l ++ l') s =
    match each body l s with
    | (.ok (), s') => each body l' s'
    | (.error e, s') => (.error e, s') := by
  induction l generalizing s with
  | nil => rfl
  | cons a l ih =>
    rw [List.cons_append, each, each]
    rcases body a s with ⟨_ | ⟨⟩, s'⟩
    · rfl
    · exact ih

lemma each_map (f : β → α) (l : List β) : each body (l.map f) s = each (fun b => body (f b)) l s := by
  induction l generalizing s with
  | nil => rfl
  | cons b l ih =>
    rw [List.map_cons, each, each]
    rcases body (f b) s with ⟨_ | ⟨⟩, s'⟩
    · rfl
    · exact ih

/-- A loop whose body is a loop is one loop. -/
lemma each_flatMap (f : β → List α) (l : List β) :
    each body (l.flatMap f) s = each (fun b => each body (f b)) l s := by
  induction l generalizing s with
  | nil => rfl
  | cons b l ih =>
    rw [List.flatMap_cons, each_append, each]
    rcases each body (f b) s with ⟨_ | ⟨⟩, s'⟩
    · rfl
    · exact ih

lemma each_congr {body' : α → σ → Except ε Unit × σ} (h : ∀ a ∈ l, ∀ s, body a s = body' a s) :
    each body l s = each body' l s := by
  induction l generalizing s with
  | nil => rfl
  | cons a l ih =>
    rw [List.forall_mem_cons] at h
    rw [each, each, h.1]
    rcases body' a s with ⟨_ | ⟨⟩, s'⟩
    · rfl
    · exact ih h.2

/-- **A loop comes to its end, or stops at the first element that raises.** -/
theorem each_stop (body : α → σ → Except ε Unit × σ) (l : List α) (s : σ) :
    (each body l s).1 = .ok () ∨ ∃ pre a post t, l = pre ++ a :: post ∧
      each body pre s = (.ok (), t) ∧ (body a t).1 ≠ .ok () ∧ (each body l s).2 = (body a t).2 := by
  induction l generalizing s with
  | nil => exact .inl rfl
  | cons a l ih =>
    cases hbody : body a s with
    | mk r s' =>
      cases r with
      | error e =>
        refine .inr ⟨[], a, l, s, rfl, rfl, by simp [hbody], ?_⟩
        simp only [each, hbody]
      | ok u =>
        have hcons : ∀ l, each body (a :: l) s = each body l s' := fun l => by
          simp only [each, hbody]
        rw [hcons]
        rcases ih s' with h | ⟨pre, b, post, t, rfl, hpre, hb, hlast⟩
        · exact .inl h
        · exact .inr ⟨a :: pre, b, post, t, rfl, by rw [hcons, hpre], hb, hlast⟩

end each

end Sax.Loop
