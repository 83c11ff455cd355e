import Mathlib.Order.Defs.LinearOrder
import Mathlib.Order.Lattice
import Mathlib.Order.Monotone.Basic
import Mathlib.Data.List.Perm.Basic
import Mathlib.Tactic.Common

/-!
Second-price auctions over any linear order of prices.

The bids of an auction either all have one price, or there is a runner-up: the highest
price strictly below the top. Both notions speak of the bids as a set, so no ordering of the
list matters; a list in descending order shows them at its head and at the first place where
the price changes.
-/

namespace Sax.SecondPrice

variable {β κ : Type*} [LinearOrder κ] (price : β → κ)

/-- The bid is one of the highest. -/
def IsTop (bids : List β) (b : β) : Prop :=
  b ∈ bids ∧ ∀ c ∈ bids, price c ≤ price b

/-- All bids have one price. -/
def AllTie (bids : List β) : Prop := ∀ b ∈ bids, ∀ c ∈ bids, price b = price c

/-- The highest price strictly below the top one. -/
structure IsRunnerUp (bids : List β) (s : κ) : Prop where
  offered : ∃ c ∈ bids, price c = s
  beaten : ∃ t ∈ bids, s < price t
  next : ∀ c ∈ bids, s < price c → ∀ d ∈ bids, price d ≤ price c

variable {price} {bids bids' : List β} {b : β} {s : κ}

lemma IsTop.perm (hp : bids.Perm bids') (h : IsTop price bids b) : IsTop price bids' b :=
  ⟨hp.subset h.1, fun c hc => h.2 c (hp.symm.subset hc)⟩

omit [LinearOrder κ] in
lemma AllTie.perm (hp : bids.Perm bids') (h : AllTie price bids) : AllTie price bids' :=
  fun b hb c hc => h b (hp.symm.subset hb) c (hp.symm.subset hc)

lemma IsRunnerUp.perm (hp : bids.Perm bids') (h : IsRunnerUp price bids s) :
    IsRunnerUp price bids' s where
  offered := let ⟨c, hc, e⟩ := h.offered; ⟨c, hp.subset hc, e⟩
  beaten := let ⟨t, ht, l⟩ := h.beaten; ⟨t, hp.subset ht, l⟩
  next c hc l d hd := h.next c (hp.symm.subset hc) l d (hp.symm.subset hd)

/-- The runner-up is below every top bid. -/
lemma IsRunnerUp.lt_top (h : IsRunnerUp price bids s) (hb : IsTop price bids b) :
    s < price b := by
  obtain ⟨t, ht, hlt⟩ := h.beaten
  exact lt_of_lt_of_le hlt (hb.2 t ht)

lemma IsRunnerUp.not_allTie (h : IsRunnerUp price bids s) : ¬ AllTie price bids := by
  intro ht
  obtain ⟨c, hc, rfl⟩ := h.offered
  obtain ⟨t, htm, hlt⟩ := h.beaten
  exact absurd (ht c hc t htm) hlt.ne

/-- A bid that is no top bid is at most the runner-up. -/
lemma IsRunnerUp.le_of_ne (h : IsRunnerUp price bids s) (hb : IsTop price bids b) {c : β}
    (hc : c ∈ bids) (hne : price c ≠ price b) : price c ≤ s := by
  by_contra hs
  push Not at hs
  exact hne (le_antisymm (hb.2 c hc) (h.next c hc hs b hb.1))

/-- Every bid of a tied list is a top bid. -/
lemma AllTie.isTop (h : AllTie price bids) (hb : b ∈ bids) : IsTop price bids b :=
  ⟨hb, fun c hc => (h c hc b hb).le⟩

/-- **At most one unit above the runner-up and still within the top bid**, for every rule
`up` that adds to a price: exactly when no bid below the top comes within that step of it. -/
theorem IsRunnerUp.up_le_iff {up : κ → κ} (hup : Monotone up) (h : IsRunnerUp price bids s)
    (hb : IsTop price bids b) :
    up s ≤ price b ↔ ∀ c ∈ bids, price c = price b ∨ up (price c) ≤ price b := by
  constructor
  · intro hs c hc
    by_cases hne : price c = price b
    · exact Or.inl hne
    · exact Or.inr (le_trans (hup (h.le_of_ne hb hc hne)) hs)
  · intro hall
    obtain ⟨c, hc, rfl⟩ := h.offered
    rcases hall c hc with he | hle
    · exact absurd he (h.lt_top hb).ne
    · exact hle

/-! ### The price a list of bids clears at -/

lemma exists_isTop (price : β → κ) (hne : bids ≠ []) : ∃ b, IsTop price bids b := by
  induction bids with
  | nil => exact absurd rfl hne
  | cons a rest ih =>
    by_cases hrest : rest = []
    · subst hrest
      exact ⟨a, by simp, by simp⟩
    · obtain ⟨b, hb, hmax⟩ := ih hrest
      rcases le_total (price a) (price b) with hle | hle
      · exact ⟨b, List.mem_cons_of_mem _ hb, List.forall_mem_cons.mpr ⟨hle, hmax⟩⟩
      · exact ⟨a, List.mem_cons_self,
          List.forall_mem_cons.mpr ⟨le_rfl, fun c hc => le_trans (hmax c hc) hle⟩⟩

/-- Bids that do not all tie have a runner-up: the top of those below the top. -/
lemma exists_isRunnerUp (h : ¬ AllTie price bids) : ∃ s, IsRunnerUp price bids s := by
  have hne : bids ≠ [] := by
    rintro rfl
    exact h fun b hb => absurd hb List.not_mem_nil
  obtain ⟨t, ht, hmax⟩ := exists_isTop price hne
  have hlow : bids.filter (fun c => decide (price c < price t)) ≠ [] := by
    intro hnil
    rw [List.filter_eq_nil_iff] at hnil
    have htop : ∀ c ∈ bids, price c = price t := fun c hc =>
      le_antisymm (hmax c hc) (not_lt.mp (by simpa using hnil c hc))
    exact h fun b hb c hc => (htop b hb).trans (htop c hc).symm
  obtain ⟨c, hc, hcmax⟩ := exists_isTop price hlow
  rw [List.mem_filter, decide_eq_true_eq] at hc
  refine ⟨price c, ⟨c, hc.1, rfl⟩, ⟨t, ht, hc.2⟩, fun d hd hlt e he => ?_⟩
  have hd' : ¬ price d < price t := fun hd' =>
    absurd (hcmax d (List.mem_filter.mpr ⟨hd, by simpa using hd'⟩)) (not_le.mpr hlt)
  exact le_trans (hmax e he) (not_lt.mp hd')

/-- A bid that another one beats is at most the runner-up. -/
lemma IsRunnerUp.le_of_lt (h : IsRunnerUp price bids s) {c t : β} (hc : c ∈ bids) (ht : t ∈ bids)
    (hlt : price c < price t) : price c ≤ s := by
  by_contra hs
  exact absurd (h.next c hc (not_le.mp hs) t ht) (not_le.mpr hlt)

lemma IsRunnerUp.eq {s' : κ} (h : IsRunnerUp price bids s) (h' : IsRunnerUp price bids s') :
    s = s' := by
  have hle : ∀ {s s'}, IsRunnerUp price bids s → IsRunnerUp price bids s' → s ≤ s' := by
    intro s s' h h'
    obtain ⟨c, hc, rfl⟩ := h.offered
    obtain ⟨t, ht, hlt⟩ := h.beaten
    exact h'.le_of_lt hc ht hlt
  exact le_antisymm (hle h h') (hle h' h)

variable (price) in
/-- The bids clear at the reserve if they all tie and at `up` of the runner-up otherwise. -/
def Clears (up : κ → κ) (reserve : κ) (bids : List β) (p : κ) : Prop :=
  AllTie price bids ∧ p = reserve ∨ ∃ s, IsRunnerUp price bids s ∧ p = up s

section clears

variable {up : κ → κ} {reserve p p' : κ}

lemma exists_clears : ∃ p, Clears price up reserve bids p := by
  by_cases h : AllTie price bids
  · exact ⟨reserve, Or.inl ⟨h, rfl⟩⟩
  · obtain ⟨s, hs⟩ := exists_isRunnerUp h
    exact ⟨up s, Or.inr ⟨s, hs, rfl⟩⟩

lemma Clears.perm (hp : bids.Perm bids') (h : Clears price up reserve bids p) :
    Clears price up reserve bids' p := by
  rcases h with ⟨ht, rfl⟩ | ⟨s, hs, rfl⟩
  · exact Or.inl ⟨ht.perm hp, rfl⟩
  · exact Or.inr ⟨s, hs.perm hp, rfl⟩

lemma Clears.eq_up (h : Clears price up reserve bids p) (hs : IsRunnerUp price bids s) :
    p = up s := by
  rcases h with ⟨ht, -⟩ | ⟨s', hs', rfl⟩
  · exact absurd ht hs.not_allTie
  · rw [hs'.eq hs]

/-- No price is below the reserve. -/
lemma Clears.reserve_le (hle : ∀ c ∈ bids, price c ≤ up (price c))
    (hres : ∀ c ∈ bids, reserve ≤ price c) (h : Clears price up reserve bids p) : reserve ≤ p := by
  rcases h with ⟨-, rfl⟩ | ⟨s, hs, rfl⟩
  · exact le_rfl
  · obtain ⟨c, hc, rfl⟩ := hs.offered
    exact le_trans (hres c hc) (hle c hc)

/-- Where the runner-up of one list is beaten and matched in another, the other clears no
lower. -/
lemma Clears.le_of_matched (hup : Monotone up) (hle : ∀ c ∈ bids', price c ≤ up (price c))
    (hres : ∀ c ∈ bids', reserve ≤ price c)
    (hmatch : ∀ s, IsRunnerUp price bids s →
      ∃ c ∈ bids', s ≤ price c ∧ ∃ t ∈ bids', price c < price t)
    (h : Clears price up reserve bids p) (h' : Clears price up reserve bids' p') : p ≤ p' := by
  rcases h with ⟨-, rfl⟩ | ⟨s, hs, rfl⟩
  · exact h'.reserve_le hle hres
  · obtain ⟨c, hc, hsc, t, ht, hct⟩ := hmatch s hs
    have hntie : ¬ AllTie price bids' := fun htie => absurd (htie c hc t ht) hct.ne
    obtain ⟨s', hs'⟩ := exists_isRunnerUp hntie
    rw [h'.eq_up hs']
    exact hup (le_trans hsc (hs'.le_of_lt hc ht hct))

/-- **One more bid never lowers the price.** -/
theorem Clears.le_cons (hup : Monotone up) (hle : ∀ c ∈ b :: bids, price c ≤ up (price c))
    (hres : ∀ c ∈ b :: bids, reserve ≤ price c) (h : Clears price up reserve bids p)
    (h' : Clears price up reserve (b :: bids) p') : p ≤ p' := by
  refine h.le_of_matched hup hle hres (fun s hs => ?_) h'
  obtain ⟨c, hc, rfl⟩ := hs.offered
  obtain ⟨t, ht, hct⟩ := hs.beaten
  exact ⟨c, List.mem_cons_of_mem _ hc, le_rfl, t, List.mem_cons_of_mem _ ht, hct⟩

/-- A price falls with a raised bid only where the runner-up, alone at its price, catches up with
the top. -/
lemma Clears.catches_up (hup : Monotone up) {b' : β}
    (hle : ∀ c ∈ b' :: bids, price c ≤ up (price c)) (hres : ∀ c ∈ b' :: bids, reserve ≤ price c)
    (hraise : price b ≤ price b') (h : Clears price up reserve (b :: bids) p)
    (h' : Clears price up reserve (b' :: bids) p') (hp : p' < p) :
    IsRunnerUp price (b :: bids) (price b) ∧ (∀ c ∈ bids, price c ≠ price b) ∧
      ∃ t, IsTop price (b :: bids) t ∧ price b' = price t := by
  obtain ⟨s, hs, hmatch⟩ : ∃ s, IsRunnerUp price (b :: bids) s ∧
      ∀ c ∈ b' :: bids, s ≤ price c → ∀ t ∈ b' :: bids, price t ≤ price c := by
    by_contra hno
    push Not at hno
    exact absurd (h.le_of_matched hup hle hres hno h') (not_le.mpr hp)
  obtain ⟨t, ht, hst⟩ := hs.beaten
  -- a bid of the runner-up's price that stays would still be beaten
  have hgone : ∀ c ∈ bids, price c ≠ s := by
    rintro c hc rfl
    have hmax := hmatch c (List.mem_cons_of_mem _ hc) le_rfl
    rcases List.mem_cons.mp ht with rfl | ht
    · exact absurd (le_trans hraise (hmax b' List.mem_cons_self)) (not_le.mpr hst)
    · exact absurd (hmax t (List.mem_cons_of_mem _ ht)) (not_le.mpr hst)
  obtain ⟨c, hc, hcs⟩ := hs.offered
  rcases List.mem_cons.mp hc with rfl | hc
  · subst hcs
    have ht : t ∈ bids := (List.mem_cons.mp ht).resolve_left fun he => absurd hst (he ▸ lt_irrefl _)
    have hbt : price b' = price t :=
      le_antisymm (hmatch t (List.mem_cons_of_mem _ ht) hst.le b' List.mem_cons_self)
        (hmatch b' List.mem_cons_self hraise t (List.mem_cons_of_mem _ ht))
    exact ⟨hs, hgone, t, ⟨List.mem_cons_of_mem _ ht, hs.next t (List.mem_cons_of_mem _ ht) hst⟩,
      hbt⟩
  · exact absurd hcs (hgone c hc)

/-- **Raising a bid lowers the price exactly when the runner-up, alone at its price, catches up
with the top**, and what is added to the price of a bid that stays below, and the reserve, come to
less than what was added to its own. -/
theorem Clears.raise_lt_iff (hup : Monotone up) {b' : β}
    (hle : ∀ c ∈ b' :: bids, price c ≤ up (price c)) (hres : ∀ c ∈ b :: bids, reserve ≤ price c)
    (hraise : price b ≤ price b') (h : Clears price up reserve (b :: bids) p)
    (h' : Clears price up reserve (b' :: bids) p') :
    p' < p ↔ IsRunnerUp price (b :: bids) (price b) ∧ (∀ c ∈ bids, price c ≠ price b) ∧
      (∃ t, IsTop price (b :: bids) t ∧ price b' = price t) ∧
      reserve < up (price b) ∧ ∀ c ∈ bids, price c < price b → up (price c) < up (price b) := by
  have hres' : ∀ c ∈ b' :: bids, reserve ≤ price c := by
    rw [List.forall_mem_cons] at hres ⊢
    exact ⟨le_trans hres.1 hraise, hres.2⟩
  constructor
  · intro hp
    obtain ⟨hs, hgone, t, ht, hbt⟩ := h.catches_up hup hle hres' hraise h' hp
    refine ⟨hs, hgone, ⟨t, ht, hbt⟩, ?_, fun c hc hcb => ?_⟩
    · rw [← h.eq_up hs]
      exact lt_of_le_of_lt (h'.reserve_le hle hres') hp
    · rw [← h.eq_up hs]
      refine lt_of_le_of_lt ?_ hp
      rcases h' with ⟨htie, -⟩ | ⟨s', hs', rfl⟩
      · have heq := htie c (List.mem_cons_of_mem _ hc) b' List.mem_cons_self
        exact absurd (heq ▸ hraise) (not_le.mpr hcb)
      · exact hup (hs'.le_of_lt (List.mem_cons_of_mem _ hc) List.mem_cons_self
          (lt_of_lt_of_le hcb hraise))
  · rintro ⟨hs, hgone, ⟨t, ht, hbt⟩, hreserve, hbelow⟩
    rw [h.eq_up hs]
    rcases h' with ⟨-, rfl⟩ | ⟨s', hs', rfl⟩
    · exact hreserve
    · obtain ⟨c, hc, rfl⟩ := hs'.offered
      obtain ⟨d, hd, hcd⟩ := hs'.beaten
      have hcb : price c < price b' := by
        refine lt_of_lt_of_le hcd ?_
        rcases List.mem_cons.mp hd with rfl | hd
        · exact le_rfl
        · exact hbt ▸ ht.2 d (List.mem_cons_of_mem _ hd)
      have hc : c ∈ bids := (List.mem_cons.mp hc).resolve_left fun he => absurd hcb (he ▸ lt_irrefl _)
      have hne : price c ≠ price t := (hbt ▸ hcb).ne
      exact hbelow c hc
        (lt_of_le_of_ne (hs.le_of_ne ht (List.mem_cons_of_mem _ hc) hne) (hgone c hc))

end clears

/-! ### Reading them off a descending list -/

/-- Position, counted from `i`, of the first bid whose price is not `top`; `0` if there is
none. -/
def secondPos (price : β → κ) (top : κ) : ℕ → List β → ℕ
  | _, [] => 0
  | i, b :: rest => if price b ≠ top then i else secondPos price top (i + 1) rest

lemma secondPos_spec (top : κ) (rest : List β) (i : ℕ) (hi : 0 < i) :
    (secondPos price top i rest = 0 ∧ ∀ b ∈ rest, price b = top) ∨
      ∃ pre c post, rest = pre ++ c :: post ∧ (∀ b ∈ pre, price b = top) ∧ price c ≠ top ∧
        secondPos price top i rest = i + pre.length := by
  induction rest generalizing i with
  | nil => exact Or.inl ⟨rfl, by simp⟩
  | cons b rest ih =>
    by_cases hb : price b = top
    · simp only [secondPos, hb, ne_eq, not_true_eq_false, if_false]
      rcases ih (i + 1) (by omega) with ⟨h0, hall⟩ | ⟨pre, c, post, rfl, hpre, hc, hpos⟩
      · exact Or.inl ⟨h0, by simpa [hb] using hall⟩
      · refine Or.inr ⟨b :: pre, c, post, rfl, by simpa [hb] using hpre, hc, ?_⟩
        rw [hpos, List.length_cons]
        omega
    · refine Or.inr ⟨[], b, rest, rfl, by simp, hb, ?_⟩
      simp [secondPos, hb]

/-- In a descending list the bid before the first change of price are the top bids and the
one after it is the runner-up. -/
lemma descending_split {pre post : List β} {c : β} {top : κ}
    (hd : (pre ++ c :: post).Pairwise fun a b => price b ≤ price a) (hne : pre ≠ [])
    (hpre : ∀ b ∈ pre, price b = top) (hc : price c ≠ top) :
    (∀ b, b ∈ pre ↔ IsTop price (pre ++ c :: post) b) ∧
      IsRunnerUp price (pre ++ c :: post) (price c) := by
  obtain ⟨-, hcp, hcross⟩ := List.pairwise_append.mp hd
  have hpost : ∀ d ∈ post, price d ≤ price c := (List.pairwise_cons.mp hcp).1
  obtain ⟨a, ha⟩ := List.exists_mem_of_ne_nil pre hne
  have hca : price c < top :=
    lt_of_le_of_ne (hpre a ha ▸ hcross a ha c List.mem_cons_self) hc
  have hmax : ∀ d ∈ pre ++ c :: post, price d ≤ top := by
    intro d hd'
    rcases List.mem_append.mp hd' with h | h
    · exact (hpre d h).le
    · exact hpre a ha ▸ hcross a ha d h
  refine ⟨fun b => ⟨fun hb => ⟨by simp [hb], fun d hd' => hpre b hb ▸ hmax d hd'⟩, ?_⟩,
    ?_, ?_, ?_⟩
  · rintro ⟨hb, htop⟩
    have hle : top ≤ price b := hpre a ha ▸ htop a (by simp [ha])
    rcases List.mem_append.mp hb with h | h
    · exact h
    · rcases List.mem_cons.mp h with rfl | h
      · exact absurd hle (not_le.mpr hca)
      · exact absurd (le_trans hle (hpost b h)) (not_le.mpr hca)
  · exact ⟨c, by simp, rfl⟩
  · exact ⟨a, by simp [ha], hpre a ha ▸ hca⟩
  · intro d hd' hlt e he
    rcases List.mem_append.mp hd' with h | h
    · exact hpre d h ▸ hmax e he
    · rcases List.mem_cons.mp h with rfl | h
      · exact absurd hlt (lt_irrefl _)
      · exact absurd hlt (not_lt.mpr (hpost d h))

end Sax.SecondPrice
