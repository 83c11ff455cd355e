import Sax.Double
import Sax.Loop
import Sax.SecondPrice
import Sax.Store
import Mathlib.Tactic.Linarith

/-!
The auction on one ad unit, as the four exchanges run it.

The bids are sorted by falling price, the first place where the price changes is looked for,
and a draw among the bids before it decides. `Outcome` says what that comes to in terms of
the set of bids alone: some top bid wins, at the floor if all bids tie and one unit above the
runner-up otherwise. The unit is added as doubles are.
-/

namespace Sax.Auction

open Sax.LuaVal Sax.Loop Sax.SecondPrice Sax.Const Sax.Runtime Sax.Store
open Sax.Double (IsDouble double_mono le_add)

/-- An entry of `adBidList[adUnitId]`. `γ` is what the exchange keeps of the creatives. -/
structure Bid (γ : Type) where
  dsp_id : Str
  max_cpm_price : ℚ
  creative : γ
  deriving DecidableEq

/-- The table `selectWinner` returns. -/
structure Winner (γ : Type) where
  dsp_id : Str
  win_cpm_price : Option ℚ
  creative : γ
  deriving DecidableEq

variable {γ : Type}

def cmpPrice (a b : Bid γ) : Bool := decide (a.max_cpm_price > b.max_cpm_price)

/-- `second`: the first place from 2 on whose price is not the one at place 1, or 0. -/
def second : List (Bid γ) → ℕ
  | [] => 0
  | b :: rest => secondPos Bid.max_cpm_price b.max_cpm_price 2 rest

/-- `first`: one of the `n` places at the head. -/
def first (draw : Draw) (n : ℕ) : ℕ := if n ≠ 1 then draw.pick 1 n else 1

/-- `bidInfo[i]`, of which a field is read. -/
def entry (bidInfo : List (Bid γ)) (i : ℕ) : Lua (Bid γ) :=
  match bidInfo[i - 1]? with
  | some b => .ok b
  | none => .error .badIndex

/-- `selectWinner` once the bids are sorted; `floor` is its lookup of the lowest price. -/
def award (draw : Draw) (floor : Lua (Option ℚ)) (bidInfo : List (Bid γ)) :
    Lua (Winner γ) := do
  if second bidInfo ≠ 0 then
    let b ← entry bidInfo (first draw (second bidInfo - 1))
    let next ← entry bidInfo (second bidInfo)
    return ⟨b.dsp_id, some (Double.add next.max_cpm_price RTB_EXTRA_PRICE), b.creative⟩
  else
    let b ← entry bidInfo (first draw bidInfo.length)
    return ⟨b.dsp_id, ← floor, b.creative⟩

/-- The common body of the four functions. -/
def auction (o : Order) (draw : Draw) (floor : Lua (Option ℚ)) (bidInfo : List (Bid γ)) :
    Lua (Winner γ) :=
  award draw floor (if bidInfo.length ≠ 1 then o.sort cmpPrice bidInfo else bidInfo)

/-! ### What the auction comes to -/

/-- `r` awards the unit to `b`: at the floor if all bids tie, else one unit above the
runner-up. -/
def Outcome (floor : Lua (Option ℚ)) (bidInfo : List (Bid γ)) (b : Bid γ)
    (r : Lua (Winner γ)) : Prop :=
  AllTie Bid.max_cpm_price bidInfo ∧ r = (do return ⟨b.dsp_id, ← floor, b.creative⟩) ∨
    ∃ s, IsRunnerUp Bid.max_cpm_price bidInfo s ∧
      r = .ok ⟨b.dsp_id, some (Double.add s RTB_EXTRA_PRICE), b.creative⟩

variable {bidInfo l : List (Bid γ)} {floor : Lua (Option ℚ)} {b : Bid γ}

lemma Outcome.perm {r : Lua (Winner γ)} (hp : l.Perm bidInfo) (h : Outcome floor l b r) :
    Outcome floor bidInfo b r := by
  rcases h with ⟨ht, hr⟩ | ⟨s, hs, hr⟩
  · exact Or.inl ⟨ht.perm hp, hr⟩
  · exact Or.inr ⟨s, hs.perm hp, hr⟩

lemma first_le (draw : Draw) {n : ℕ} (hn : 1 ≤ n) : first draw n - 1 < n := by
  unfold first
  split
  · have := draw.pick_le 1 n hn
    omega
  · omega

lemma first_near {n m : ℕ} (hm : m < n) : first (Draw.near (m + 1)) n - 1 = m := by
  unfold first Draw.near
  split
  · simp only
    omega
  · omega

/-- A sorted list is its top bids followed by the lower ones, and the award goes to the one
of the top bids that the draw points at. -/
lemma award_split (hne : l ≠ [])
    (hd : l.Pairwise fun a b => b.max_cpm_price ≤ a.max_cpm_price) :
    ∃ n, 1 ≤ n ∧ n ≤ l.length ∧ (∀ b, b ∈ l.take n ↔ IsTop Bid.max_cpm_price l b) ∧
      ∀ draw floor b, l[first draw n - 1]? = some b → Outcome floor l b (award draw floor l) := by
  obtain ⟨a, rest, rfl⟩ := List.exists_cons_of_ne_nil hne
  rcases secondPos_spec a.max_cpm_price rest 2 (by omega) with
    ⟨h0, hall⟩ | ⟨pre, c, post, rfl, hpre, hc, hpos⟩
  · have htie : AllTie Bid.max_cpm_price (a :: rest) := by
      have h : ∀ b ∈ a :: rest, b.max_cpm_price = a.max_cpm_price := by simpa using hall
      intro b hb c hc
      rw [h b hb, h c hc]
    refine ⟨(a :: rest).length, by simp, le_rfl, fun b => ?_, fun draw floor b hb => ?_⟩
    · rw [List.take_length]
      exact ⟨htie.isTop, And.left⟩
    · refine Or.inl ⟨htie, ?_⟩
      simp only [award, second, h0, ne_eq, not_true_eq_false, if_false, entry, hb]
      rfl
  · have hd' : ((a :: pre) ++ c :: post).Pairwise
        fun a b => b.max_cpm_price ≤ a.max_cpm_price := hd
    obtain ⟨htop, hrun⟩ := descending_split hd' (by simp) (by simpa using hpre) hc
    refine ⟨(a :: pre).length, by simp, by simp, fun b => ?_, fun draw floor b hb => ?_⟩
    · have htake : (a :: (pre ++ c :: post)).take (a :: pre).length = a :: pre := by simp
      rw [htake]
      exact htop b
    · refine Or.inr ⟨c.max_cpm_price, hrun, ?_⟩
      have hsec : second (a :: (pre ++ c :: post)) = pre.length + 2 := by
        rw [second, hpos]
        omega
      have hnext : entry (a :: (pre ++ c :: post)) (pre.length + 2) = .ok c := by
        simp [entry]
      simp only [List.length_cons] at hb
      simp only [award, hsec, hnext]
      simp only [show pre.length + 2 - 1 = pre.length + 1 by omega, entry]
      rw [if_pos (by omega), hb]
      rfl

section sorted

variable (o : Order) (bidInfo)

/-- The list the award is made from. -/
lemma sorted_spec : ∃ l : List (Bid γ), l.Perm bidInfo ∧
    (l.Pairwise fun a b => b.max_cpm_price ≤ a.max_cpm_price) ∧
      ∀ draw floor, auction o draw floor bidInfo = award draw floor l := by
  by_cases h : bidInfo.length = 1
  · obtain ⟨b, rfl⟩ := List.length_eq_one_iff.mp h
    exact ⟨[b], .refl _, by simp, fun _ _ => by simp [auction]⟩
  · exact ⟨o.sort cmpPrice bidInfo, o.sort_perm _ _, o.sort_descending _ _,
      fun _ _ => by simp [auction, h]⟩

end sorted

/-- **The auction awards a top bid.** -/
theorem auction_spec (o : Order) (draw : Draw) (floor : Lua (Option ℚ)) (hne : bidInfo ≠ []) :
    ∃ b, IsTop Bid.max_cpm_price bidInfo b ∧
      Outcome floor bidInfo b (auction o draw floor bidInfo) := by
  obtain ⟨l, hp, hd, heq⟩ := sorted_spec bidInfo o
  have hl : l ≠ [] := fun h => hne (List.nil_perm.mp (h ▸ hp))
  obtain ⟨n, hn, hnl, htop, haward⟩ := award_split hl hd
  have hlt : first draw n - 1 < n := first_le draw hn
  have hlt' : first draw n - 1 < l.length := by omega
  have hget : l[first draw n - 1]? = some l[first draw n - 1] := List.getElem?_eq_getElem hlt'
  have hmem : l[first draw n - 1] ∈ l.take n := List.mem_take_iff_getElem.mpr ⟨_, by omega, rfl⟩
  exact ⟨_, ((htop _).mp hmem).perm hp, heq draw floor ▸ (haward draw floor _ hget).perm hp⟩

/-- **Every top bid can win.** -/
theorem auction_reaches (o : Order) (floor : Lua (Option ℚ))
    (hb : IsTop Bid.max_cpm_price bidInfo b) :
    ∃ draw, Outcome floor bidInfo b (auction o draw floor bidInfo) := by
  obtain ⟨l, hp, hd, heq⟩ := sorted_spec bidInfo o
  have hl : l ≠ [] := fun h => List.ne_nil_of_mem hb.1 (List.nil_perm.mp (h ▸ hp))
  obtain ⟨n, hn, hnl, htop, haward⟩ := award_split hl hd
  obtain ⟨i, hi, hib⟩ := List.mem_take_iff_getElem.mp ((htop b).mpr (hb.perm hp.symm))
  refine ⟨Draw.near (i + 1), heq _ floor ▸ (haward _ floor b ?_).perm hp⟩
  rw [first_near (by omega), List.getElem?_eq_getElem (by omega), hib]

/-! ### The clearing price -/

/-- The unit is awarded at a price from the floor up to the winner's own bid. -/
def Within (r : Lua (Winner γ)) (floor : ℚ) (bidInfo : List (Bid γ)) : Prop :=
  ∃ w price, r = .ok w ∧ w.win_cpm_price = some price ∧
    ∃ b ∈ bidInfo, b.dsp_id = w.dsp_id ∧ b.creative = w.creative ∧
      floor ≤ price ∧ price ≤ b.max_cpm_price

/-- No bid below the top comes above it when the unit is added. -/
def Apart (bidInfo : List (Bid γ)) : Prop :=
  ∀ b ∈ bidInfo, IsTop Bid.max_cpm_price bidInfo b ∨
    ∃ c ∈ bidInfo, Double.add b.max_cpm_price RTB_EXTRA_PRICE ≤ c.max_cpm_price

lemma extra_mono : Monotone fun p : ℚ => Double.add p RTB_EXTRA_PRICE := fun _ _ h =>
  double_mono (by simpa using h)

lemma le_extra {p : ℚ} (h : IsDouble p) : p ≤ Double.add p RTB_EXTRA_PRICE :=
  le_add h (by simp [RTB_EXTRA_PRICE])

lemma apart_of_allTie (h : AllTie Bid.max_cpm_price bidInfo) : Apart bidInfo :=
  fun _ hb => Or.inl (h.isTop hb)

lemma apart_iff_runnerUp {s : ℚ} (hb : IsTop Bid.max_cpm_price bidInfo b)
    (hs : IsRunnerUp Bid.max_cpm_price bidInfo s) :
    Apart bidInfo ↔ Double.add s RTB_EXTRA_PRICE ≤ b.max_cpm_price := by
  rw [hs.up_le_iff extra_mono hb]
  refine forall₂_congr fun c hc => ⟨?_, ?_⟩
  · rintro (htop | ⟨e, he, hle⟩)
    · exact Or.inl (le_antisymm (hb.2 c hc) (htop.2 b hb.1))
    · exact Or.inr (le_trans hle (hb.2 e he))
  · rintro (heq | hle)
    · exact Or.inl ⟨hc, fun e he => heq ▸ hb.2 e he⟩
    · exact Or.inr ⟨b, hb.1, hle⟩

/-- **The clearing price is within its bounds exactly when the bids lie apart**, for bids at
or above a known floor. -/
theorem within_iff (o : Order) (draw : Draw) {floor : ℚ} (hne : bidInfo ≠ [])
    (hfloor : ∀ b ∈ bidInfo, IsDouble b.max_cpm_price ∧ floor ≤ b.max_cpm_price) :
    Within (auction o draw (.ok (some floor)) bidInfo) floor bidInfo ↔ Apart bidInfo := by
  obtain ⟨b, hb, ⟨htie, hr⟩ | ⟨s, hs, hr⟩⟩ := auction_spec o draw (.ok (some floor)) hne
  · refine iff_of_true ?_ (apart_of_allTie htie)
    exact ⟨_, floor, hr, rfl, b, hb.1, rfl, rfl, le_rfl, (hfloor b hb.1).2⟩
  · rw [apart_iff_runnerUp hb hs]
    constructor
    · rintro ⟨w, price, hw, hp, c, hc, -, -, -, hle⟩
      rw [hr] at hw
      cases hw
      cases hp
      exact le_trans hle (hb.2 c hc)
    · intro hle
      obtain ⟨c, hc, rfl⟩ := hs.offered
      have hstep := le_extra (hfloor c hc).1
      exact ⟨_, _, hr, rfl, b, hb.1, rfl, rfl, le_trans (hfloor c hc).2 hstep, hle⟩

/-- **An auction with floor 0 awards at 0 exactly when all bids tie**, for bids that are not
negative. -/
theorem zero_iff_allTie (o : Order) (draw : Draw) (hne : bidInfo ≠ [])
    (hpos : ∀ b ∈ bidInfo, 0 ≤ b.max_cpm_price) :
    (∃ w, auction o draw (.ok (some 0)) bidInfo = .ok w ∧ w.win_cpm_price = some 0) ↔
      AllTie Bid.max_cpm_price bidInfo := by
  obtain ⟨b, hb, ⟨htie, hr⟩ | ⟨s, hs, hr⟩⟩ := auction_spec o draw (.ok (some 0)) hne
  · exact iff_of_true ⟨_, hr, rfl⟩ htie
  · refine iff_of_false ?_ hs.not_allTie
    rintro ⟨w, hw, hp⟩
    rw [hr] at hw
    cases hw
    obtain ⟨c, hc, rfl⟩ := hs.offered
    have hone : (1 : ℚ) ≤ Double.add c.max_cpm_price RTB_EXTRA_PRICE := by
      have hmono := extra_mono (hpos c hc)
      have heq : Double.add 0 RTB_EXTRA_PRICE = 1 := by
        simpa [RTB_EXTRA_PRICE] using Double.add_natCast (m := 0) (n := 1) (by norm_num)
      exact heq ▸ hmono
    have hp' : Double.add c.max_cpm_price RTB_EXTRA_PRICE = 0 := by simpa using hp
    linarith

end Sax.Auction
