import Sax.Capacity
import Sax.Center
import Sax.Weighted

/-!
The network ads: `fillNetworkAd` of `impress.lua`, on the lists `networkinfo` that
`networkInfoCheck` lets through.

A pending ad unit without creatives is given one of its valid network ads, by a number between 1
and the sum of the weights. What it is given does not depend on what the units before it were given,
but a unit that stands in the pending list twice stays there once.
-/

namespace Sax.Rotation

open Sax.LuaVal Sax.Loop Sax.Const Sax.Runtime Sax.Store Sax.WebRtb Sax.SinaQuery Sax.Impress
open Sax.Weighted
open Sax.ObjectInfo (transformAttr splitNetwork)
open Sax.Center (networkInfoCheck)

/-! ### The stored list -/

/-- An element of the list `splitNetwork` makes, as it is read back from the dictionary: `cjson`
writes finite numbers only, and its digits make the double. -/
def networkAdOf (lib : Ngx) : Val → Option NetworkAd
  | .table [.str id, .str field2, .str pid, .num weight] [] =>
    if Double.Finite weight then
      (lib.tonumber (lib.tostring weight)).map fun w => ⟨id, field2, pid, Double.double w⟩
    else none
  | _ => none

/-- The attribute `networkinfo` of a row with the text `v`. -/
def networkinfo (lib : Ngx) (v : Str) : Option (List NetworkAd) :=
  match transformAttr lib .adunit ("networkinfo", .str v) with
  | .ok (_, some (.table l [])) => l.mapM (networkAdOf lib)
  | _ => none

/-- The unit is in the dictionary, with a list that `networkInfoCheck` has accepted as a text. -/
def Stored (lib : Ngx) (d : Dict) (u : Str) : Prop :=
  ∃ a v, d.adunit u = some a ∧ networkInfoCheck lib v = .ok true ∧
    networkinfo lib v = some a.networkinfo

section stored

variable {lib : Ngx} {d : Dict} {u v : Str}

lemma networkAdOf_split {value : Str} (hlength : (split comma value).length = 4)
    (hreads : ∀ q, (lib.tonumber (lib.tostring q)).isSome)
    (hweight : ∃ w, lib.number ((split comma value).getD 3 []) = some w ∧ w.finite) :
    ∃ ad, networkAdOf lib (.arr (((split comma value).map .str).set 3
      ((lib.number ((split comma value).getD 3 [])).getD .null))) = some ad := by
  obtain ⟨weight, hweight, hfinite⟩ := hweight
  obtain ⟨q, rfl⟩ : ∃ q, weight = .num q := by
    unfold Ngx.number at hweight
    split at hweight
    · cases hweight
      cases hfinite
    · obtain ⟨q, -, hq⟩ := Option.map_eq_some_iff.mp hweight
      exact ⟨q, hq.symm⟩
  rw [hweight]
  generalize split comma value = tmp at hlength
  match tmp, hlength with
  | [id, field2, pid, _], _ =>
    obtain ⟨w, hw⟩ := Option.isSome_iff_exists.mp (hreads q)
    refine ⟨⟨id, field2, pid, Double.double w⟩, ?_⟩
    have hq : Double.Finite q := by simpa [Val.finite] using hfinite
    show (if Double.Finite q then _ else none) = _
    rw [if_pos hq, hw]
    rfl

/-- **Every text with finite weights that the check accepts is stored as a list of network ads.** -/
theorem networkinfo_isSome (h : networkInfoCheck lib v = .ok true)
    (hreads : ∀ q, (lib.tonumber (lib.tostring q)).isSome)
    (hfinite : ∀ value ∈ split 124 v, ∀ w,
      lib.number ((split comma value).getD 3 []) = some w → w.finite) :
    ∃ l, networkinfo lib v = some l := by
  unfold networkInfoCheck at h
  by_cases hv : v = []
  · subst hv
    exact ⟨[], rfl⟩
  · rw [if_neg hv, Except.ok.injEq, List.all_eq_true] at h
    have htransform : transformAttr lib .adunit ("networkinfo", .str v) =
        (splitNetwork lib (.str v)).map fun w => (12, some w) := by
      cases v with
      | nil => exact absurd rfl hv
      | cons c v => rfl
    rw [networkinfo, htransform]
    refine mapM_isSome.mpr fun w hw => ?_
    obtain ⟨value, hvalue, rfl⟩ := List.mem_map.mp hw
    have hcheck := h value hvalue
    simp only [Bool.and_eq_true, decide_eq_true_eq] at hcheck
    have hlong : ¬ (split comma value).length < 4 := by omega
    dsimp only
    rw [if_neg hlong]
    obtain ⟨weight, hweight⟩ := Option.isSome_iff_exists.mp hcheck.2
    exact networkAdOf_split hcheck.1 hreads ⟨weight, hweight, hfinite value hvalue weight hweight⟩

/-- What is read back are doubles. -/
lemma isDouble_networkinfo {l : List NetworkAd} (h : networkinfo lib v = some l) :
    ∀ ad ∈ l, Double.IsDouble ad.weight := by
  intro ad had
  unfold networkinfo at h
  split at h
  · obtain ⟨w, -, hw⟩ := (mem_mapM_some h).mp had
    unfold networkAdOf at hw
    split at hw
    · split at hw
      · obtain ⟨q, -, rfl⟩ := Option.map_eq_some_iff.mp hw
        exact Double.isDouble_double q
      · cases hw
    · cases hw
  · cases h

end stored

/-! ### The candidates -/

section candidates

variable (d : Dict) (u : Str)

def networkAds : List NetworkAd := ((d.adunit u).map AdUnit.networkinfo).getD []

/-- A network ad whose network is valid and whose weight is positive, with the URL. -/
def candidate (ad : NetworkAd) : Option (NetworkAd × Str) :=
  (d.network ad.id).bind fun network =>
    if network.status = OBJECT_STATUS_VALID ∧ ad.weight > 0 then some (ad, network.url) else none

/-- The network ads an ad unit may be given. -/
def candidates : List (NetworkAd × Str) := (networkAds d u).filterMap (candidate d)

def weights : List ℚ := (candidates d u).map fun e => e.1.weight

/-- The number drawn for an ad unit. -/
def drawn (draw : Draw) : ℚ := random draw (total (weights d u))

end candidates

section choice

variable {d : Dict} {u : Str} {draw : Draw}

/-- A loop that appends what it makes of an element builds the list of what it makes. -/
lemma foldlM_filterMap {α β : Type} {f : α → Option β} {step : List β → α → Lua (List β)} {l : List α}
    (hstep : ∀ acc, ∀ a ∈ l, step acc a = .ok (acc ++ (f a).toList)) (acc : List β) :
    l.foldlM step acc = .ok (acc ++ l.filterMap f) := by
  induction l generalizing acc with
  | nil => simp
  | cons a l ih =>
    rw [List.foldlM_cons, hstep acc a List.mem_cons_self, ok_bind,
      ih fun acc b hb => hstep acc b (List.mem_cons_of_mem _ hb), List.filterMap_cons]
    cases f a <;> simp

lemma validNetworkAds_eq (l : List NetworkAd) :
    validNetworkAds d l = .ok (l.filterMap (candidate d)) := by
  refine (foldlM_filterMap (f := candidate d) (fun acc ad _ => ?_) []).trans ?_
  · rw [getInfoSD_eq, ok_bind, candidate]
    cases d.network ad.id with
    | none => simp
    | some network =>
      dsimp only [Option.bind_some]
      split
      · rfl
      · simp
  · rw [List.nil_append]

/-- The ad a number falls on, by its place. -/
lemma choose_eq (i : ℚ) (l : List (NetworkAd × Str)) :
    choose i l = (place i (l.map fun e => e.1.weight)).bind (l[·]?) := by
  induction l generalizing i with
  | nil => rfl
  | cons e l ih =>
    rw [choose, List.map_cons, place]
    split
    · rfl
    · rw [ih]
      cases place (Double.sub i e.1.weight) (l.map fun e => e.1.weight) <;> rfl

lemma weights_pos : ∀ w ∈ weights d u, 0 < w := by
  intro w hw
  obtain ⟨e, he, rfl⟩ := List.mem_map.mp hw
  obtain ⟨ad, -, hcandidate⟩ := List.mem_filterMap.mp he
  obtain ⟨network, -, hcandidate⟩ := Option.bind_eq_some_iff.mp hcandidate
  split at hcandidate
  · next h =>
    cases hcandidate
    exact h.2
  · cases hcandidate

/-- The list of the unit holds doubles. -/
lemma weights_isDouble {lib : Ngx} (hstored : Stored lib d u) :
    ∀ w ∈ weights d u, Double.IsDouble w := by
  intro w hw
  obtain ⟨e, he, rfl⟩ := List.mem_map.mp hw
  obtain ⟨ad, had, hcandidate⟩ := List.mem_filterMap.mp he
  obtain ⟨network, -, hcandidate⟩ := Option.bind_eq_some_iff.mp hcandidate
  obtain ⟨a, v, ha, -, hl⟩ := hstored
  split at hcandidate
  · cases hcandidate
    rw [networkAds, ha] at had
    exact isDouble_networkinfo hl ad had
  · cases hcandidate

lemma weights_ne_nil : weights d u ≠ [] ↔ candidates d u ≠ [] := by
  rw [weights, ne_eq, List.map_eq_nil_iff]

end choice

/-! ### One ad unit -/

/-- What must hold of an ad unit for its network ads to rotate: the weights are whole, a double
tells the numbers up to their sum apart, and the unit is pending once if it has a candidate. -/
structure Fit (d : Dict) (s : Page) (u : Str) : Prop where
  whole : ∀ w ∈ weights d u, ∃ m : ℕ, w = m
  sum : (weights d u).sum ≤ 2 ^ 53
  once : candidates d u ≠ [] → s.adPendList.count u = 1

section unit

variable {x : Request} {s t : Page} {u : Str}

/-- The content of the network ad an ad unit is given, if any. -/
def award (x : Request) (u : Str) : Lua (Option Val) := do
  match ← networkAd x.dict (x.networkDraw u) u with
  | some e => return some (← networkContent x.lib x.dict x.adReq.publisherType u e)
  | none => return none

/-- The page after a unit was given a content. -/
def put (t : Page) (u : Str) : Option Val → Page
  | some temp => { t with
      adCreativeList := t.adCreativeList.insert u [temp]
      adPendList := removeAdFromPendList t.adPendList u }
  | none => t

lemma fillNetwork_eq (x : Request) (t : Page) (u : Str) : fillNetwork x t u =
    if used t.adCreativeList u = 0 then (award x u).map (put t u) else .ok t := by
  unfold fillNetwork award
  split
  · cases networkAd x.dict (x.networkDraw u) u with
    | error e => rfl
    | ok o =>
      cases o with
      | none => rfl
      | some e =>
        simp only [ok_bind]
        cases networkContent x.lib x.dict x.adReq.publisherType u e <;> rfl
  · rfl

lemma networkContent_isOk (hstored : Stored x.lib x.dict u) (e : NetworkAd × Str) :
    ∃ temp, networkContent x.lib x.dict x.adReq.publisherType u e = .ok temp := by
  obtain ⟨a, v, ha, -, -⟩ := hstored
  unfold networkContent
  cases x.adReq.publisherType with
  | wap => exact ⟨_, rfl⟩
  | pc =>
    dsimp only
    rw [getSize, getAttribute_eq, ha]
    exact ⟨_, rfl⟩

lemma networkAd_eq (hstored : Stored x.lib x.dict u) (draw : Draw) :
    networkAd x.dict draw u = .ok (drawNetworkAd draw (candidates x.dict u)) := by
  obtain ⟨a, v, ha, -, -⟩ := hstored
  have hlist : networkAds x.dict u = a.networkinfo := by rw [networkAds, ha]; rfl
  rw [networkAd, getNetworkList, getAttribute_eq, ha]
  simp only [Option.map_some, ok_bind]
  rw [validNetworkAds_eq, candidates, hlist]
  rfl

lemma award_none (hstored : Stored x.lib x.dict u) (hnil : candidates x.dict u = []) :
    award x u = .ok none := by
  rw [award, networkAd_eq hstored, drawNetworkAd, if_pos hnil]
  rfl

/-- The numbers drawn are doubles. -/
lemma isDouble_drawn (d : Dict) (u : Str) (draw : Draw) : Double.IsDouble (drawn d u draw) := by
  unfold drawn random
  split
  · exact Double.isDouble_double _
  · decide +kernel

/-- What the unit is given is the candidate that its number falls on. -/
lemma award_eq (hstored : Stored x.lib x.dict u) {j : ℕ}
    (hj : place (drawn x.dict u (x.networkDraw u)) (weights x.dict u) = some j) :
    ∃ e temp, (candidates x.dict u)[j]? = some e ∧
      networkContent x.lib x.dict x.adReq.publisherType u e = .ok temp ∧
      award x u = .ok (some temp) := by
  have hlt := place_lt hj
  have hne : candidates x.dict u ≠ [] := by
    rintro hnil
    rw [weights, hnil] at hlt
    exact absurd hlt (by simp)
  rw [weights, List.length_map] at hlt
  obtain ⟨temp, htemp⟩ := networkContent_isOk hstored (candidates x.dict u)[j]
  refine ⟨_, temp, List.getElem?_eq_getElem hlt, htemp, ?_⟩
  have hchoose : choose (drawn x.dict u (x.networkDraw u)) (candidates x.dict u) =
      some (candidates x.dict u)[j] := by
    rw [choose_eq, ← weights, hj, Option.bind_some, List.getElem?_eq_getElem hlt]
  rw [award, networkAd_eq hstored, ok_bind, drawNetworkAd, if_neg hne]
  change (match choose (drawn x.dict u (x.networkDraw u)) (candidates x.dict u) with
    | some e => _ | none => _) = _
  rw [hchoose]
  dsimp only
  rw [htemp]
  rfl

lemma ceil_total_pos (hstored : Stored x.lib x.dict u) (hne : candidates x.dict u ≠ []) :
    1 ≤ ⌈total (weights x.dict u)⌉₊ :=
  Nat.ceil_pos.mpr (total_pos (weights_ne_nil.mpr hne) weights_pos (weights_isDouble hstored))

/-- The number drawn for a fit unit is a whole one between 1 and the sum. -/
lemma drawn_fit (hfit : Fit x.dict s u) (hceil : 1 ≤ ⌈total (weights x.dict u)⌉₊) (draw : Draw) :
    drawn x.dict u draw = (draw.pick 1 ⌈total (weights x.dict u)⌉₊ : ℕ) := by
  obtain ⟨n, -, htotal, hn⟩ := total_eq hfit.whole hfit.sum
  have hle := draw.pick_le 1 _ hceil
  rw [htotal, Nat.ceil_natCast] at hle
  have hhuge : (n : ℚ) < Double.huge :=
    calc (n : ℚ) ≤ 2 ^ 53 := by exact_mod_cast hn
      _ < Double.huge := by decide +kernel
  rw [drawn, random, htotal, if_pos hhuge, Nat.ceil_natCast]
  exact Double.isDouble_natCast (hle.trans hn)

/-- **A fit unit is given the candidate that its number falls on.** -/
lemma award_some (hstored : Stored x.lib x.dict u) (hfit : Fit x.dict s u)
    (hne : candidates x.dict u ≠ []) :
    ∃ j e temp, place (drawn x.dict u (x.networkDraw u)) (weights x.dict u) = some j ∧
      (candidates x.dict u)[j]? = some e ∧
      networkContent x.lib x.dict x.adReq.publisherType u e = .ok temp ∧
      award x u = .ok (some temp) := by
  have hceil := ceil_total_pos hstored hne
  obtain ⟨hall, -⟩ := (fair_iff (weights_ne_nil.mpr hne) weights_pos
    (weights_isDouble hstored)).mpr ⟨hfit.whole, hfit.sum⟩
  obtain ⟨-, j, hj⟩ := hall _ ((x.networkDraw u).le_pick 1 _ hceil)
    ((x.networkDraw u).pick_le 1 _ hceil)
  rw [← drawn_fit hfit hceil] at hj
  obtain ⟨e, temp, he, htemp, haward⟩ := award_eq hstored hj
  exact ⟨j, e, temp, hj, he, htemp, haward⟩

end unit

/-! ### The pending list -/

/-- The request with other draws. -/
def redraw (x : Request) (networkDraw : Str → Draw) : Request := { x with networkDraw }

/-- An ad unit without a candidate is left as it was. Another is given the content of the candidate
that its number falls on, and has left the pending list. -/
def Served (x : Request) (s s' : Page) (u : Str) : Prop :=
  if candidates x.dict u = [] then
    s'.adCreativeList.get u = s.adCreativeList.get u ∧ s'.adPendList.count u = s.adPendList.count u
  else
    ∃ j e temp, place (drawn x.dict u (x.networkDraw u)) (weights x.dict u) = some j ∧
      (candidates x.dict u)[j]? = some e ∧
      networkContent x.lib x.dict x.adReq.publisherType u e = .ok temp ∧
      s'.adCreativeList.get u = some [temp] ∧ u ∉ s'.adPendList

/-- **The network ads rotate**: for all draws the pending units without creatives are served, every
number from 1 to the sum of the weights can be drawn, and as many of these fall on each candidate
as is in proportion to its weight. -/
structure Rotated (x : Request) (s : Page) : Prop where
  served : ∀ networkDraw, ∃ s', fillNetworkAd (redraw x networkDraw) s = .ok s' ∧
    ∀ u ∈ s.adPendList, used s.adCreativeList u = 0 → Served (redraw x networkDraw) s s' u
  every : ∀ u ∈ s.adPendList, used s.adCreativeList u = 0 → candidates x.dict u ≠ [] →
    ∀ i : ℕ, 1 ≤ i → i ≤ ⌈total (weights x.dict u)⌉₊ → ∃ draw, drawn x.dict u draw = i
  proportional : ∀ u ∈ s.adPendList, used s.adCreativeList u = 0 → candidates x.dict u ≠ [] →
    ∃ c : ℚ, ∀ j w, (weights x.dict u)[j]? = some w →
      (hits ⌈total (weights x.dict u)⌉₊ (weights x.dict u) j : ℚ) = c * w

section run

variable {x : Request} {s t t' : Page} {u : Str} {done : List Str}

/-- What a unit is given over the whole run. -/
def given (x : Request) (s : Page) (u : Str) : Option Val :=
  if used s.adCreativeList u = 0 then (award x u).toOption.bind id else none

/-- What a unit has been given in the rounds of `done`. -/
def had (x : Request) (s : Page) (done : List Str) (u : Str) : Option Val :=
  if u ∈ done then given x s u else none

@[simp] lemma had_self : had x s (done ++ [u]) u = given x s u := if_pos (by simp)

lemma had_other {v : Str} (hv : v ≠ u) : had x s (done ++ [u]) v = had x s done v := by
  simp [had, hv]

/-- After the rounds of `done` the units have what they were given. -/
def After (x : Request) (s : Page) (done : List Str) (t : Page) : Prop :=
  ∀ v, t.adCreativeList.get v = ((had x s done v).map ([·])).or (s.adCreativeList.get v) ∧
    t.adPendList.count v = s.adPendList.count v - if (had x s done v).isSome then 1 else 0

lemma after_nil : After x s [] s := fun v => by simp [had]

/-- A unit that is free in its round was free from the start, and has been given nothing. -/
lemma After.free (h : After x s done t) (hused : used t.adCreativeList u = 0) :
    used s.adCreativeList u = 0 ∧ had x s done u = none := by
  have hget := (h u).1
  cases hhad : had x s done u with
  | some temp =>
    rw [hhad] at hget
    rw [used, hget] at hused
    cases hused
  | none =>
    rw [hhad, Option.map_none, Option.none_or] at hget
    rw [used, hget] at hused
    exact ⟨hused, rfl⟩

lemma put_other {o : Option Val} {v : Str} (hv : v ≠ u) :
    (put t u o).adCreativeList.get v = t.adCreativeList.get v ∧
      (put t u o).adPendList.count v = t.adPendList.count v := by
  cases o with
  | none => exact ⟨rfl, rfl⟩
  | some temp => exact ⟨AList.lookup_insert_ne hv, List.count_erase_of_ne hv⟩

/-- What a unit that is free is given, is what its round gives it. -/
lemma given_eq {o : Option Val} (hused : used s.adCreativeList u = 0) (haward : award x u = .ok o) :
    given x s u = o := by
  rw [given, if_pos hused, haward]
  rfl

/-- The first round of a unit gives it what it is given. -/
lemma After.put {o : Option Val} (h : After x s done t) (hused : used t.adCreativeList u = 0)
    (haward : award x u = .ok o) : After x s (done ++ [u]) (put t u o) := by
  intro v
  obtain ⟨hstart, hnone⟩ := h.free hused
  by_cases hv : v = u
  · subst hv
    obtain ⟨hget, hcount⟩ := h v
    rw [hnone] at hget hcount
    rw [had_self, given_eq hstart haward]
    cases o with
    | none => exact ⟨hget, hcount⟩
    | some temp =>
      refine ⟨AList.lookup_insert _, ?_⟩
      have herase : (Rotation.put t v (some temp)).adPendList.count v = t.adPendList.count v - 1 :=
        List.count_erase_self
      rw [herase, hcount]
      rfl
  · rw [(put_other hv).1, (put_other hv).2, had_other hv]
    exact h v

/-- A round that finds a creative of its unit is not its first, or the unit has one from the start. -/
lemma After.again (h : After x s done t) (hused : used t.adCreativeList u ≠ 0) :
    After x s (done ++ [u]) t := by
  intro v
  suffices hsame : had x s (done ++ [u]) v = had x s done v by
    rw [hsame]
    exact h v
  by_cases hv : v = u
  · subst hv
    rw [had_self]
    by_cases hdone : v ∈ done
    · exact (if_pos hdone).symm
    · have hnone : had x s done v = none := if_neg hdone
      have hget := (h v).1
      rw [hnone, Option.map_none, Option.none_or] at hget
      rw [used, hget] at hused
      rw [hnone, given]
      exact if_neg hused
  · exact had_other hv

/-- Step lemma, by whether the unit of the round is free. -/
lemma After.step (h : After x s done t) (hstep : fillNetwork x t u = .ok t') :
    After x s (done ++ [u]) t' := by
  rw [fillNetwork_eq] at hstep
  by_cases hused : used t.adCreativeList u = 0
  · rw [if_pos hused] at hstep
    cases haward : award x u with
    | error e =>
      rw [haward] at hstep
      cases hstep
    | ok o =>
      rw [haward] at hstep
      cases hstep
      exact h.put hused haward
  · rw [if_neg hused] at hstep
    cases hstep
    exact h.again hused

lemma foldlM_after {l : List Str} (h : l.foldlM (fillNetwork x) s = .ok t) : After x s l t := by
  have hrun := foldlM_prefix (P := After x s) (d := []) (fun _ _ _ _ _ hd hstep => hd.step hstep)
    after_nil h
  rwa [List.nil_append] at hrun

/-- The run comes to its end when every free unit can be served. -/
lemma fillNetworkAd_isOk
    (haward : ∀ u ∈ s.adPendList, used s.adCreativeList u = 0 → ∃ o, award x u = .ok o) :
    ∃ t, fillNetworkAd x s = .ok t := by
  refine foldlM_isOk (P := fun t => ∃ done, After x s done t)
    (fun t u hu hafter => ?_) (fun t u t' _ hafter hstep => ?_) ⟨[], after_nil⟩
  · obtain ⟨done, hdone⟩ := hafter
    rw [fillNetwork_eq]
    by_cases hused : used t.adCreativeList u = 0
    · obtain ⟨o, ho⟩ := haward u hu (hdone.free hused).1
      rw [if_pos hused, ho]
      exact ⟨_, rfl⟩
    · rw [if_neg hused]
      exact ⟨t, rfl⟩
  · obtain ⟨done, hdone⟩ := hafter
    exact ⟨done ++ [u], hdone.step hstep⟩

lemma Served.chosen (h : Served x s t u) (hne : candidates x.dict u ≠ []) :
    (∃ j, place (drawn x.dict u (x.networkDraw u)) (weights x.dict u) = some j) ∧
      u ∉ t.adPendList := by
  rw [Served, if_neg hne] at h
  obtain ⟨j, e, temp, hj, -, -, -, hgone⟩ := h
  exact ⟨⟨j, hj⟩, hgone⟩

/-- A run takes a unit off the pending list once at most. -/
lemma count_le_one (h : fillNetworkAd x s = .ok t) (hu : u ∈ s.adPendList) (hgone : u ∉ t.adPendList) :
    s.adPendList.count u = 1 := by
  have hcount := (foldlM_after h u).2
  have hpos := List.count_pos_iff.mpr hu
  rw [List.count_eq_zero.mpr hgone] at hcount
  split at hcount <;> omega

/-- What a run leaves of a unit that is fit. -/
lemma served_of_fit (hstored : Stored x.lib x.dict u) (hfit : Fit x.dict s u)
    (hu : u ∈ s.adPendList) (hused : used s.adCreativeList u = 0) (h : fillNetworkAd x s = .ok t) :
    Served x s t u := by
  obtain ⟨hget, hcount⟩ := foldlM_after h u
  have hhad : had x s s.adPendList u = given x s u := if_pos hu
  rw [hhad] at hget hcount
  unfold Served
  split
  · next hnil =>
    rw [given_eq hused (award_none hstored hnil)] at hget hcount
    exact ⟨hget, hcount⟩
  · next hne =>
    obtain ⟨j, e, temp, hj, he, htemp, haward⟩ := award_some hstored hfit hne
    rw [given_eq hused haward] at hget hcount
    refine ⟨j, e, temp, hj, he, htemp, hget, List.count_eq_zero.mp ?_⟩
    rw [hcount, hfit.once hne]
    rfl

end run

section samples

/-- A library that reads and writes one fraction besides the whole numbers. -/
def sampleLib : Ngx :=
  { Ngx.ofTexts [] with
    tostring := fun q => if q = 1 / 2 then lit "0.5" else (Ngx.ofTexts []).tostring q
    tostring_int := fun n h => by
      have hne : (n : ℚ) ≠ 1 / 2 := by
        intro h
        have hint : (2 * n : ℤ) = 1 := by
          have : (2 * n : ℚ) = 1 := by rw [h]; norm_num
          exact_mod_cast this
        omega
      rw [if_neg hne]
      exact (Ngx.ofTexts []).tostring_int n h
    comma_notMem_tostring := fun q => by
      split
      · decide
      · exact (Ngx.ofTexts []).comma_notMem_tostring q
    tonumber := fun s => if s = lit "0.5" then some (1 / 2) else (Ngx.ofTexts []).tonumber s
    tonumber_int := fun s n h hn => by
      have hne : s ≠ lit "0.5" := by
        rintro rfl
        have hnone : parseDecimal (lit "0.5") = none := by decide +kernel
        rw [hnone] at h
        cases h
      rw [if_neg hne]
      exact (Ngx.ofTexts []).tonumber_int s n h hn
    tonumber_nan := fun s h => by cases h
    tonumber_nonneg := fun q r hq h => by
      split at h
      · cases h
        norm_num
      · split at h
        · cases h
          norm_num
        · exact (Ngx.ofTexts []).tonumber_nonneg q r hq h }

/-- The unit `U` with a network ad of a valid network, of the weight `weight`. -/
def sampleDict (weight : String) : Dict :=
  { Dict.ofLists
      [("U", ⟨lit "300*250", [], 1, 1, 1, [], [], [],
        (networkinfo sampleLib (lit ("b,n,p," ++ weight))).getD []⟩)] [] [] [] [] [] with
    network := fun id => if id = lit "b" then some ⟨lit "http://b?pid=", 1⟩ else none }

def sampleRequest (weight : String) : Request :=
  { Capacity.plainRequest ⟨500, []⟩ with lib := sampleLib, dict := sampleDict weight }

def samplePage : Page := ⟨[lit "U"], ∅, ∅⟩

lemma sample_stored {weight : String}
    (h : networkInfoCheck sampleLib (lit ("b,n,p," ++ weight)) = .ok true)
    (hl : (networkinfo sampleLib (lit ("b,n,p," ++ weight))).isSome) :
    ∀ u ∈ samplePage.adPendList, Stored sampleLib (sampleDict weight) u := by
  intro u hu
  rw [List.mem_singleton.mp hu]
  obtain ⟨l, hl⟩ := Option.isSome_iff_exists.mp hl
  refine ⟨_, _, rfl, h, ?_⟩
  rw [hl]
  rfl

end samples

end Sax.Rotation
