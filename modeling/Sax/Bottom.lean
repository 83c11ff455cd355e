import Sax.Capacity
import Sax.Walk

/-!
The bottom ads: `fillBottomAd` of `impress.lua`.

The list of an ad unit is shuffled by exchanges and walked round until no slot is free. A unit that
stands in the pending list twice has no free slot left the second time.
-/

namespace Sax.Bottom

open Sax.LuaVal Sax.Loop Sax.Runtime Sax.Store Sax.WebRtb Sax.SinaQuery Sax.Impress Sax.Walk
open Sax.Room (capacity getLeftAdNum_eq)

/-- The bottom ads of an ad unit. -/
def nadList (d : Dict) (u : Str) : List Val := ((d.adunit u).map AdUnit.nad).getD []

/-- The free slots of an ad unit, fewer than none where it carries too much. -/
def left (d : Dict) (s : Page) (u : Str) : ℤ := capacity d u - used s.adCreativeList u

/-- The creatives of an ad unit. -/
def contents (s : Page) (u : Str) : List Val := (s.adCreativeList.get u).getD []

/-- `content.src[1]` is a text. -/
def HasSrc (content : Val) : Prop :=
  ∃ src rest h, content.get "src" = some (.table (src :: rest) h) ∧ src.isText

/-- The ad unit is in the dictionary, as `getAdData` has checked, and its bottom ads have a first
`src`. -/
structure Ready (d : Dict) (u : Str) : Prop where
  unit : d.HasUnit u
  src : ∀ content ∈ nadList d u, HasSrc content

/-- The bottom ads are permuted and appended in turn, one for each free slot, and each is used as
often as `shared` says, divided by their number and rounded down or up. -/
def Filled (x : Request) (u : Str) (left : ℤ) (shared : ℚ) (before after : List Val) : Prop :=
  ∃ (σ : Equiv.Perm (Fin (nadList x.dict u).length)) (appended : List Val),
    shuffle (x.bottomDraw u) (nadList x.dict u) =
      List.ofFn (fun j => (nadList x.dict u).get (σ j)) ∧
    after = before ++ appended ∧ (appended.length : ℤ) = max left 0 ∧
    ∀ hs : 0 < (nadList x.dict u).length,
      (∀ i v, appended[i]? = some v → bottomContent x.lib x.adReq.publisherType (nadList x.dict u)
        (place σ hs i) = .ok v) ∧
      ∀ j, (visits σ hs appended.length j : ℤ) = ⌊shared / (nadList x.dict u).length⌋ ∨
        (visits σ hs appended.length j : ℤ) = ⌈shared / (nadList x.dict u).length⌉

/-! ### The shuffle -/

section shuffle

variable {s : ℕ}

lemma swap_ofFn (f : Fin s → Val) (i j : Fin s) :
    swap (List.ofFn f) i j = List.ofFn (f ∘ Equiv.swap i j) := by
  have hget : ∀ k : Fin s, (List.ofFn f)[(k : ℕ)]? = some (f k) := by
    intro k
    rw [List.getElem?_ofFn, dif_pos k.isLt]
  rw [swap, hget, hget]
  exact ofFn_exchange f i j

/-- Step lemma, then the run: the exchanges compose to a permutation of the places. -/
lemma foldl_swap (f : Fin s → Val) (j : ℕ → ℕ) {l : List ℕ} (hl : ∀ i ∈ l, i < s ∧ j i < s) :
    ∃ σ : Equiv.Perm (Fin s), l.foldl (fun t i => swap t i (j i)) (List.ofFn f) =
      List.ofFn (f ∘ σ) := by
  induction l generalizing f with
  | nil => exact ⟨Equiv.refl _, rfl⟩
  | cons i l ih =>
    rw [List.forall_mem_cons] at hl
    obtain ⟨⟨hi, hj⟩, hl⟩ := hl
    obtain ⟨σ, hσ⟩ := ih (f ∘ Equiv.swap ⟨i, hi⟩ ⟨j i, hj⟩) hl
    refine ⟨σ.trans (Equiv.swap ⟨i, hi⟩ ⟨j i, hj⟩), ?_⟩
    have hswap : swap (List.ofFn f) i (j i) = _ := swap_ofFn f ⟨i, hi⟩ ⟨j i, hj⟩
    rw [List.foldl_cons, hswap, hσ]
    rfl

/-- **The shuffle permutes the list**, whatever is drawn. -/
theorem shuffle_eq (draw : ℕ → Draw) (l : List Val) :
    ∃ σ : Equiv.Perm (Fin l.length), shuffle draw l = List.ofFn fun k => l.get (σ k) := by
  have hrange : ∀ i ∈ List.range l.length, i < l.length ∧ (draw i).pick (i + 1) l.length - 1 < l.length := by
    intro i hi
    have hlt := List.mem_range.mp hi
    have hle := (draw i).pick_le (i + 1) l.length hlt
    exact ⟨hlt, by omega⟩
  obtain ⟨σ, hσ⟩ := foldl_swap l.get _ hrange
  rw [List.ofFn_get] at hσ
  exact ⟨σ, hσ⟩

end shuffle

/-! ### One ad unit -/

section unit

variable {x : Request} {t : Page} {u : Str}

/-- The contents that `n` free slots are given. -/
def placed (x : Request) (u : Str) (n : ℕ) : Lua (List Val) :=
  (List.range n).mapM (bottomContent x.lib x.adReq.publisherType
    (shuffle (x.bottomDraw u) (nadList x.dict u)))

lemma bottomContent_isOk {l : List Val} (hl : ∀ content ∈ l, HasSrc content) (hne : l ≠ []) (i : ℕ) :
    ∃ v, bottomContent x.lib x.adReq.publisherType l i = .ok v := by
  have hlt : i % l.length < l.length := Nat.mod_lt _ (List.length_pos_iff.mpr hne)
  obtain ⟨src, rest, h, hsrc, htext⟩ := hl _ (List.getElem_mem hlt)
  unfold bottomContent
  rw [List.getElem?_eq_getElem hlt]
  dsimp only
  generalize l[i % l.length] = content at hsrc ⊢
  cases x.adReq.publisherType with
  | pc => exact ⟨content, rfl⟩
  | wap =>
    have htable : content.isTable := by
      cases content with
      | table a g => rfl
      | _ => cases hsrc
    obtain ⟨text, hcheck⟩ := checkString_isOk (t := x.lib.tostring) |>.mpr htext
    obtain ⟨w, hw⟩ := setField_ok (k := "adId") (x := .str (x.lib.md5 text)) htable
    refine ⟨w, ?_⟩
    dsimp only
    rw [field_of_isTable htable, ok_bind, hsrc, item, ok_bind]
    simp only [Nat.sub_self, List.getElem?_cons_zero]
    rw [Option.isNone_some, if_neg Bool.false_ne_true, hcheck, ok_bind, hw]

lemma placed_isOk (hready : Ready x.dict u) (hne : nadList x.dict u ≠ []) (n : ℕ) :
    ∃ appended, placed x u n = .ok appended := by
  obtain ⟨σ, hσ⟩ := shuffle_eq (x.bottomDraw u) (nadList x.dict u)
  refine mapM_isOk.mpr fun i _ => bottomContent_isOk ?_ ?_ i
  · intro content hcontent
    rw [hσ] at hcontent
    obtain ⟨k, rfl⟩ := List.mem_ofFn.mp hcontent
    exact hready.src _ (List.getElem_mem _)
  · intro hnil
    have hlen := congrArg List.length hnil
    rw [hσ, List.length_ofFn] at hlen
    exact hne (List.length_eq_zero_iff.mp hlen)

/-- The bottom ads that are placed are those the walk comes by. -/
lemma placed_filled {k : ℤ} {appended : List Val} (h : placed x u k.toNat = .ok appended)
    (before : List Val) : Filled x u k (max k 0 : ℤ) before (before ++ appended) := by
  obtain ⟨σ, hσ⟩ := shuffle_eq (x.bottomDraw u) (nadList x.dict u)
  have hlen : appended.length = k.toNat := (mapM_length h).trans List.length_range
  have hleft : ((appended.length : ℕ) : ℤ) = max k 0 := by rw [hlen, Int.toNat_eq_max]
  refine ⟨σ, appended, hσ, rfl, hleft, fun hs => ⟨fun i v hv => ?_, fun j => ?_⟩⟩
  · have hi : i < k.toNat := hlen ▸ (List.getElem?_eq_some_iff.mp hv).1
    have hrange : (List.range k.toNat)[i]? = some i := List.getElem?_range hi
    obtain ⟨v', hv', hcontent⟩ := mapM_getElem? h hrange
    rw [hv, Option.some.injEq] at hv'
    subst hv'
    have hplace : (shuffle (x.bottomDraw u) (nadList x.dict u))[i %
        (shuffle (x.bottomDraw u) (nadList x.dict u)).length]? =
          (nadList x.dict u)[(place σ hs i : ℕ) % (nadList x.dict u).length]? := by
      rw [Nat.mod_eq_of_lt (place σ hs i).isLt, List.getElem?_eq_getElem (place σ hs i).isLt, hσ,
        List.length_ofFn, List.getElem?_ofFn, dif_pos (Nat.mod_lt i hs)]
      rfl
    unfold bottomContent at hcontent ⊢
    rwa [hplace] at hcontent
  · have hshared : ((max k 0 : ℤ) : ℚ) = (appended.length : ℕ) := by
      rw [← hleft]
      exact Int.cast_natCast _
    rw [hshared]
    exact visits_floor_or_ceil σ hs appended.length j

/-- **One ad unit**: its free slots are filled, and it leaves the pending list. -/
lemma fillBottom_eq (hunit : x.dict.HasUnit u) :
    fillBottom x t u = if nadList x.dict u = [] then .ok t
      else (placed x u (left x.dict t u).toNat).map fun contents =>
        { t with
          adCreativeList := fill t.adCreativeList u contents
          adPendList := removeAdFromPendList t.adPendList u } := by
  obtain ⟨n, hn⟩ : ∃ n, getLeftAdNum x.dict u t.adCreativeList = .ok n :=
    Isolation.getLeftAdNum_isOk.mpr hunit
  obtain ⟨a, ha⟩ := Option.isSome_iff_exists.mp hunit
  have hnad : nadList x.dict u = a.nad := by simp [nadList, ha]
  have hleft : n = left x.dict t u := (getLeftAdNum_eq hn).2
  unfold fillBottom
  rw [getNadList, getAttribute_eq, ha, Option.map_some, ok_bind, hnad]
  dsimp only
  by_cases hnil : a.nad = []
  · rw [if_neg (by simp [hnil]), if_pos hnil]
    rfl
  · rw [if_pos (by simpa using hnil), if_neg hnil, hn, ok_bind, hleft, placed, hnad]
    cases (List.range (left x.dict t u).toNat).mapM
      (bottomContent x.lib x.adReq.publisherType (shuffle (x.bottomDraw u) a.nad)) <;> rfl

end unit

/-! ### The pending list -/

section run

variable {x : Request} {s t : Page} {u : Str}

/-- What an ad unit is given in its first round. -/
def given (x : Request) (s : Page) (u : Str) : List Val :=
  ((placed x u (left x.dict s u).toNat).toOption).getD []

lemma placed_given (hready : Ready x.dict u) (hne : nadList x.dict u ≠ []) :
    placed x u (left x.dict s u).toNat = .ok (given x s u) := by
  obtain ⟨appended, happended⟩ := placed_isOk hready hne (left x.dict s u).toNat
  rw [given, happended]
  rfl

lemma contents_fill (l : List Val) (pend : List Str) (query : Tbl (List Str)) (v : Str) :
    contents ⟨pend, fill t.adCreativeList u l, query⟩ v =
      if v = u then contents t v ++ l else contents t v := by
  by_cases hv : v = u
  · subst hv
    simp [contents, fill, Tbl.get]
  · rw [if_neg hv]
    simp [contents, fill, Tbl.get, AList.lookup_insert_ne hv]

/-- After the rounds of `done` these units have been given their bottom ads, once each. -/
def Done (x : Request) (s : Page) (done : List Str) (t : Page) : Prop :=
  ∀ v, contents t v = if v ∈ done ∧ nadList x.dict v ≠ [] then contents s v ++ given x s v
    else contents s v

/-- Step lemma: the round of a unit gives it its bottom ads, and nothing if it has had them. -/
lemma Done.step {done : List Str} (h : Done x s done t) (hready : Ready x.dict u) {t' : Page}
    (hstep : fillBottom x t u = .ok t') : Done x s (done ++ [u]) t' := by
  rw [fillBottom_eq hready.unit] at hstep
  have hsame : ∀ {v}, v ≠ u → (v ∈ done ++ [u] ↔ v ∈ done) := fun hv => by simp [hv]
  by_cases hnil : nadList x.dict u = []
  · rw [if_pos hnil, Except.ok.injEq] at hstep
    subst hstep
    intro v
    rw [h v]
    by_cases hv : v = u
    · subst hv
      simp [hnil]
    · simp only [hsame hv]
  · rw [if_neg hnil] at hstep
    have hfirst := placed_given (s := s) hready hnil
    obtain ⟨l, hl⟩ := placed_isOk hready hnil (left x.dict t u).toNat
    rw [hl] at hstep
    cases hstep
    intro v
    dsimp only
    rw [contents_fill, h v]
    by_cases hv : v = u
    · subst hv
      have hlen : (given x s v).length = (left x.dict s v).toNat :=
        (mapM_length hfirst).trans List.length_range
      have hleft : ∀ p : Page, left x.dict p v = capacity x.dict v - (contents p v).length := fun _ => rfl
      by_cases hdone : v ∈ done
      · -- no slot is free the second time
        have hzero : (left x.dict t v).toNat = 0 := by
          have hbefore := hleft s
          rw [hleft t, h v, if_pos ⟨hdone, hnil⟩, List.length_append, hlen]
          omega
        rw [hzero] at hl
        cases hl
        simp [hdone, hnil]
      · have hnew : left x.dict t v = left x.dict s v := by
          rw [hleft t, h v, if_neg fun hc => hdone hc.1, hleft s]
        rw [hnew, hfirst] at hl
        cases hl
        simp [hdone, hnil]
    · simp only [if_neg hv, hsame hv]

/-- **Every pending ad unit with bottom ads has its free slots filled from a permutation of them**,
after the creatives it has, each bottom ad used as often as any other up to one. -/
theorem bottom_ads_balanced (hready : ∀ u ∈ s.adPendList, Ready x.dict u) :
    ∃ s', fillBottomAd x s = .ok s' ∧ ∀ u ∈ s.adPendList, nadList x.dict u ≠ [] →
      Filled x u (left x.dict s u) (max (left x.dict s u) 0 : ℤ) (contents s u) (contents s' u) := by
  have hok : ∀ t u, u ∈ s.adPendList → ∃ t', fillBottom x t u = .ok t' := by
    intro t u hu
    rw [fillBottom_eq (hready u hu).unit]
    split
    · exact ⟨t, rfl⟩
    · next hne =>
      obtain ⟨l, hl⟩ := placed_isOk (hready u hu) hne (left x.dict t u).toNat
      rw [hl]
      exact ⟨_, rfl⟩
  obtain ⟨s', hs'⟩ : ∃ s', fillBottomAd x s = .ok s' :=
    foldlM_isOk (P := fun _ => True) (fun t u hu _ => hok t u hu) (fun _ _ _ _ _ _ => trivial) trivial
  have hdone : Done x s s.adPendList s' := by
    have hrun := foldlM_prefix (P := Done x s) (d := [])
      (fun d u t t' hu hd hstep => hd.step (hready u hu) hstep) (fun v => by simp) hs'
    rwa [List.nil_append] at hrun
  refine ⟨s', hs', fun u hu hne => ?_⟩
  rw [hdone u, if_pos ⟨hu, hne⟩]
  exact placed_filled (placed_given (hready u hu) hne) (contents s u)

end run

section samples

open Sax.Capacity (plainDict plainRequest)

/-- `U` is pending with the creatives `l`; it has one place and one bottom ad. -/
def samplePage (l : List Val) : Page := ⟨[lit "U"], (∅ : Creatives).insert (lit "U") l, ∅⟩

lemma sample_nadList : nadList plainDict (lit "U") =
    [.obj [("src", .strs [lit "s"]), ("type", .strs [lit "image", lit "alt"])]] := by
  decide +kernel

lemma sample_ready (l : List Val) : ∀ u ∈ (samplePage l).adPendList, Ready plainDict u := by
  intro u hu
  rw [List.mem_singleton.mp hu]
  refine ⟨rfl, fun content hcontent => ?_⟩
  rw [sample_nadList, List.mem_singleton] at hcontent
  subst hcontent
  exact ⟨.str (lit "s"), [], [], by decide +kernel, rfl⟩

theorem bottom_ads_balanced_sample : ∃ s', fillBottomAd (plainRequest ⟨500, []⟩) (samplePage []) = .ok s' ∧
    ∀ u ∈ [lit "U"], nadList plainDict u ≠ [] →
      Filled (plainRequest ⟨500, []⟩) u (left plainDict (samplePage []) u)
        (max (left plainDict (samplePage []) u) 0 : ℤ) (contents (samplePage []) u) (contents s' u) :=
  bottom_ads_balanced (x := plainRequest ⟨500, []⟩) (sample_ready [])

/-- With two creatives on its one place `U` has no free slot but -1: its one bottom ad is used 0
times, not -1 times. -/
theorem overfull_unit_unused :
    (∀ u ∈ (samplePage [.null, .null]).adPendList, Ready plainDict u) ∧
    left plainDict (samplePage [.null, .null]) (lit "U") = -1 ∧
    ∃ s', fillBottomAd (plainRequest ⟨500, []⟩) (samplePage [.null, .null]) = .ok s' ∧
      ¬ Filled (plainRequest ⟨500, []⟩) (lit "U") (-1) (-1) (contents (samplePage [.null, .null]) (lit "U"))
        (contents s' (lit "U")) := by
  have hok : (fillBottomAd (plainRequest ⟨500, []⟩) (samplePage [.null, .null])).isOk := by
    decide +kernel
  obtain ⟨s', hs'⟩ := exists_ok hok
  refine ⟨sample_ready _, by decide +kernel, s', hs', ?_⟩
  rintro ⟨σ, appended, -, -, hlen, hwalk⟩
  have hone : (nadList (plainRequest ⟨500, []⟩).dict (lit "U")).length = 1 :=
    congrArg List.length sample_nadList
  have hnil : appended.length = 0 := by
    have hmax : max (-1 : ℤ) 0 = 0 := rfl
    omega
  have hcount := (hwalk (by omega)).2 ⟨0, by omega⟩
  have hzero : visits σ (by omega) appended.length ⟨0, by omega⟩ = 0 := by
    rw [hnil]
    rfl
  rw [hzero, hone] at hcount
  norm_num at hcount

end samples

end Sax.Bottom
