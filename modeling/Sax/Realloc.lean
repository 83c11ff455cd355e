import Sax.QpsRound

/-!
The split of an allowance over the workers: `reallocQpsLimit` of `center.lua` and its copy
`realloc_qps_limit` of `saxmob/bdm/qps.lua`.

A worker is given its part of nine tenths of the allowance and an even part of the last tenth, both
rounded down; a drawn worker is given what the rounding leaves. A sum of floors is no more than
the floor of the sum, so what is left is not negative.
-/

namespace Sax.Realloc

open Sax.Runtime
open Sax.QpsRound (shares length_shares length_realloc sum_realloc realloc_nonneg sum_shares_le)

/-- An element of `dspList`. -/
structure Entry where
  qps : ℤ
  total : List ℚ
  limit : List ℤ

section source

/-- The `limit` of a worker in the loop over `dsp.total`. -/
def share (qps : ℤ) (total : List ℚ) (v : ℚ) : ℤ :=
  if total.sum = 0 then ⌊(qps : ℚ) / total.length⌋
  else
    let quota := ⌊(qps : ℚ) * (9 / 10)⌋
    let avg := ⌊(qps : ℚ) * (1 / 10) / total.length⌋
    ⌊(quota : ℚ) * (v / total.sum)⌋ + avg

/-- A round of that loop, on `dsp.limit` and `used`. -/
def insertLimit (qps : ℤ) (total : List ℚ) (s : List ℤ × ℤ) (v : ℚ) : List ℤ × ℤ :=
  let limit := share qps total v
  (s.1 ++ [limit], s.2 + limit)

/-- The round of one DSP. -/
def reallocDsp (draw : Draw) (dsp : Entry) : Entry :=
  let (limit, used) := dsp.total.foldl (insertLimit dsp.qps dsp.total) (dsp.limit, 0)
  let i := draw.pick 1 dsp.total.length
  { dsp with limit := limit.modify (i - 1) (· + (dsp.qps - used)) }

/-- The `i`th DSP is given the `i`th draw. -/
def reallocQpsLimit (draw : ℕ → Draw) (dspList : List Entry) : List Entry :=
  dspList.zipIdx.map fun e => reallocDsp (draw e.2) e.1

def realloc_qps_limit (draw : ℕ → Draw) (dsp_list : List Entry) : List Entry :=
  dsp_list.zipIdx.map fun e => reallocDsp (draw e.2) e.1

end source

/-- What a fair split of an allowance is. -/
structure Fair (qps : ℤ) (total : List ℚ) (limit : List ℤ) : Prop where
  length : limit.length = total.length
  nonneg : ∀ x ∈ limit, 0 ≤ x
  sum : limit.sum = qps
  share : total.sum ≠ 0 → ∀ (i : ℕ) v x, total[i]? = some v → limit[i]? = some x →
    ⌊(⌊9 / 10 * (qps : ℚ)⌋ : ℚ) * v / total.sum⌋ + ⌊1 / 10 * (qps : ℚ) / total.length⌋ ≤ x

/-! ### The loop -/

section loop

variable {draw : Draw} {qps : ℤ} {total : List ℚ}

lemma shares_eq (qps : ℤ) (total : List ℚ) : shares qps total = total.map (share qps total) := by
  unfold shares share
  split <;> rfl

lemma foldl_insertLimit (qps : ℤ) (total l : List ℚ) (limit : List ℤ) (used : ℤ) :
    l.foldl (insertLimit qps total) (limit, used) =
      (limit ++ l.map (share qps total), used + (l.map (share qps total)).sum) := by
  induction l generalizing limit used with
  | nil => simp
  | cons v l ih =>
    rw [List.foldl_cons, insertLimit]
    dsimp only
    rw [ih, List.map_cons, List.sum_cons, List.append_assoc, add_assoc]
    rfl

/-- On the empty list that the callers give it, the loop leaves the limits of the round. -/
lemma reallocDsp_limit {dsp : Entry} (hlimit : dsp.limit = []) :
    (reallocDsp draw dsp).limit = QpsRound.realloc draw dsp.qps dsp.total := by
  rw [reallocDsp, foldl_insertLimit, hlimit, List.nil_append, zero_add, QpsRound.realloc, shares_eq]

/-- A round of the exchange makes the same split. -/
theorem reallocQpsLimit_round (draw : ℤ → Draw) (dspList : List QpsRound.DspQps) :
    (QpsRound.reallocQpsLimit draw dspList).map QpsRound.DspQps.limit =
      dspList.map fun dsp => (reallocDsp (draw dsp.id.1) ⟨dsp.qps.1, dsp.total, []⟩).limit := by
  rw [QpsRound.reallocQpsLimit, List.map_map]
  refine List.map_congr_left fun dsp _ => ?_
  rw [reallocDsp_limit rfl]
  rfl

/-- The draw only ever adds to a share. -/
lemma share_le_realloc (hqps : 0 ≤ qps) {i : ℕ} {v : ℚ} {x : ℤ} (hv : total[i]? = some v)
    (hx : (QpsRound.realloc draw qps total)[i]? = some x) : share qps total v ≤ x := by
  have hne : total ≠ [] := by
    rintro rfl
    cases hv
  have hleft := sum_shares_le hqps hne
  rw [QpsRound.realloc, List.getElem?_modify, shares_eq, List.getElem?_map, hv] at hx
  rw [shares_eq] at hleft
  simp only [Option.map_eq_map, Option.map_some, Option.some.injEq] at hx
  split at hx <;> omega

/-- **The limits of a DSP are a fair split of its allowance**, whatever is drawn. -/
lemma fair_realloc (draw : Draw) (hqps : 0 < qps) (hne : total ≠ []) (htotal : ∀ v ∈ total, 0 ≤ v) :
    Fair qps total (QpsRound.realloc draw qps total) where
  length := length_realloc draw qps total
  nonneg x hx := realloc_nonneg hqps.le htotal draw hne hx
  sum := sum_realloc draw qps hne
  share hsum i v x hv hx := by
    have hle := share_le_realloc hqps.le hv hx
    rw [Realloc.share, if_neg hsum] at hle
    dsimp only at hle
    rwa [mul_comm (qps : ℚ), mul_comm (qps : ℚ), ← mul_div_assoc] at hle

end loop

/-- **Every DSP of the list gets a fair split of its allowance over the workers**: a limit for each,
none negative, that sum up to the allowance, and each at least the share of the worker's total. -/
theorem limits_fair (draw : ℕ → Draw) {dspList : List Entry} {i : ℕ} {dsp : Entry}
    (hdsp : dspList[i]? = some dsp) (hlimit : dsp.limit = []) (hqps : 0 < dsp.qps)
    (hne : dsp.total ≠ []) (htotal : ∀ v ∈ dsp.total, ∃ n : ℕ, v = n) :
    ∃ limit, (reallocQpsLimit draw dspList)[i]? = some { dsp with limit } ∧
      (realloc_qps_limit draw dspList)[i]? = some { dsp with limit } ∧
      Fair dsp.qps dsp.total limit := by
  have hget : (reallocQpsLimit draw dspList)[i]? = some (reallocDsp (draw i) dsp) := by
    rw [reallocQpsLimit, List.getElem?_map, List.getElem?_zipIdx, hdsp]
    simp
  have hnonneg : ∀ v ∈ dsp.total, 0 ≤ v := by
    intro v hv
    obtain ⟨n, rfl⟩ := htotal v hv
    exact Nat.cast_nonneg n
  have hfair := fair_realloc (draw i) hqps hne hnonneg
  rw [← reallocDsp_limit hlimit] at hfair
  exact ⟨(reallocDsp (draw i) dsp).limit, hget, hget, hfair⟩

section samples

/-- An allowance of 10 over workers that counted 1 and 2. -/
def sampleEntry : Entry := ⟨10, [1, 2], []⟩

theorem limits_fair_sample : ∃ limit,
    (reallocQpsLimit (fun _ => .least) [sampleEntry])[0]? = some { sampleEntry with limit } ∧
      (realloc_qps_limit (fun _ => .least) [sampleEntry])[0]? = some { sampleEntry with limit } ∧
      Fair 10 [1, 2] limit :=
  limits_fair (fun _ => .least) (show [sampleEntry][0]? = some sampleEntry from rfl) rfl (by decide)
    (List.cons_ne_nil _ _) (by
      intro v hv
      rcases List.mem_pair.mp hv with rfl | rfl
      · exact ⟨1, rfl⟩
      · exact ⟨2, rfl⟩)

end samples

end Sax.Realloc
