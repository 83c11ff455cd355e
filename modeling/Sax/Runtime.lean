import Mathlib.Data.List.Sort
import Mathlib.Data.List.AList
import Mathlib.Data.Nat.Digits.Defs
import Mathlib.Data.Nat.Digits.Lemmas
import Sax.LuaVal

/-!
What the Lua runtime and the nginx modules give the program.

`Order` holds what the program leaves open: in which order `table.sort` puts equal elements
and in which order `pairs` runs through a table. `Draw` is one outcome of `math.random`.
`Ngx` holds the library functions that only pass strings on.
-/

namespace Sax.Runtime

open Sax.LuaVal

/-- A Lua table with string keys. -/
abbrev Tbl (β : Type) := AList fun _ : Str => β

/-- `t[k]`. -/
abbrev Tbl.get {β : Type} (t : Tbl β) (k : Str) : Option β := t.lookup k

/-- `t[k] = t[k] or {}` followed by `table.insert(t[k], x)`. -/
def Tbl.push {β : Type} (t : Tbl (List β)) (k : Str) (x : β) : Tbl (List β) :=
  t.insert k ((t.get k).getD [] ++ [x])

section push

variable {β : Type} (t : Tbl (List β)) (k : Str) (x : β)

@[simp] lemma Tbl.get_push : (t.push k x).get k = some ((t.get k).getD [] ++ [x]) := by
  simp [Tbl.push]

lemma Tbl.get_push_ne {k' : Str} (h : k' ≠ k) : (t.push k x).get k' = t.get k' := by
  simp [Tbl.push, AList.lookup_insert_ne h]

end push

/-- `t[k] = v` for each pair in turn. -/
def Tbl.putAll {β : Type} (t : Tbl β) (l : List (Str × β)) : Tbl β :=
  l.foldl (fun t e => t.insert e.1 e.2) t

section putAll

variable {β : Type} {t : Tbl β} {l : List (Str × β)} {k : Str}

lemma Tbl.get_putAll_notMem (h : ∀ e ∈ l, e.1 ≠ k) : (t.putAll l).get k = t.get k := by
  induction l generalizing t with
  | nil => rfl
  | cons e l ih =>
    rw [List.forall_mem_cons] at h
    rw [putAll, List.foldl_cons, ← putAll, ih h.2, Tbl.get, AList.lookup_insert_ne h.1.symm]

/-- A key that is put holds one of the values put under it. -/
lemma Tbl.get_putAll_mem (h : ∃ e ∈ l, e.1 = k) :
    ∃ v, (k, v) ∈ l ∧ (t.putAll l).get k = some v := by
  induction l generalizing t with
  | nil => simp at h
  | cons e l ih =>
    rw [putAll, List.foldl_cons, ← putAll]
    by_cases hl : ∃ e ∈ l, e.1 = k
    · obtain ⟨v, hv, hget⟩ := ih hl (t := t.insert e.1 e.2)
      exact ⟨v, List.mem_cons_of_mem _ hv, hget⟩
    · have hk : e.1 = k := by
        obtain ⟨e', he', hk⟩ := h
        rcases List.mem_cons.mp he' with rfl | he'
        · exact hk
        · exact absurd ⟨e', he', hk⟩ hl
      refine ⟨e.2, by simp [← hk], ?_⟩
      rw [get_putAll_notMem fun e' he' hk' => hl ⟨e', he', hk'⟩, ← hk, Tbl.get,
        AList.lookup_insert]

lemma Tbl.mem_of_get_putAll {v : β} (h : ((∅ : Tbl β).putAll l).get k = some v) : (k, v) ∈ l := by
  by_cases hl : ∃ e ∈ l, e.1 = k
  · obtain ⟨v', hv, hget⟩ := get_putAll_mem hl (t := (∅ : Tbl β))
    rw [hget, Option.some.injEq] at h
    exact h ▸ hv
  · rw [get_putAll_notMem fun e he hk => hl ⟨e, he, hk⟩] at h
    simp at h

/-- What is put does not depend on what was there before. -/
lemma Tbl.get_putAll_congr (h : ∃ e ∈ l, e.1 = k) (t t' : Tbl β) :
    (t.putAll l).get k = (t'.putAll l).get k := by
  induction l generalizing t t' with
  | nil => simp at h
  | cons e l ih =>
    change Tbl.get (putAll (t.insert e.1 e.2) l) k = Tbl.get (putAll (t'.insert e.1 e.2) l) k
    by_cases hl : ∃ e ∈ l, e.1 = k
    · exact ih hl _ _
    · have hrest : ∀ e ∈ l, e.1 ≠ k := fun e' he' hk => hl ⟨e', he', hk⟩
      have hk : e.1 = k := by
        obtain ⟨e', he', hk⟩ := h
        rcases List.mem_cons.mp he' with rfl | he'
        · exact hk
        · exact absurd hk (hrest e' he')
      rw [get_putAll_notMem hrest, get_putAll_notMem hrest, Tbl.get, Tbl.get, ← hk,
        AList.lookup_insert, AList.lookup_insert]

lemma Tbl.putAll_append (t : Tbl β) (l l' : List (Str × β)) :
    t.putAll (l ++ l') = (t.putAll l).putAll l' :=
  List.foldl_append

end putAll

/-- `t[k] = nil` for each key in turn. -/
def Tbl.eraseAll {β : Type} (t : Tbl β) (ks : List Str) : Tbl β := ks.foldl (fun t k => t.erase k) t

lemma Tbl.get_eraseAll {β : Type} {t : Tbl β} {ks : List Str} {k : Str} :
    (t.eraseAll ks).get k = if k ∈ ks then none else t.get k := by
  induction ks generalizing t with
  | nil => rfl
  | cons k' ks ih =>
    rw [eraseAll, List.foldl_cons, ← eraseAll, ih]
    by_cases hk : k = k'
    · subst hk
      simp [Tbl.get]
    · simp [Tbl.get, hk, AList.lookup_erase_ne hk]

lemma Tbl.eraseAll_append {β : Type} (t : Tbl β) (ks ks' : List Str) :
    t.eraseAll (ks ++ ks') = (t.eraseAll ks).eraseAll ks' :=
  List.foldl_append

/-! A table whose entries are the pairs of a relation. -/

/-- The entries of the table are the pairs of `E`. -/
def Tbl.Graph {β : Type} (t : Tbl β) (E : Str → β → Prop) : Prop :=
  ∀ k v, t.get k = some v ↔ E k v

section graph

variable {β : Type} {t : Tbl β} {E E' : Str → β → Prop}

/-- Putting pairs of a new relation that hold what is new and cover what is stale. -/
lemma Tbl.Graph.putAll {l : List (Str × β)} (h : t.Graph E)
    (hfun : ∀ k v v', E' k v → E' k v' → v = v') (hput : ∀ e ∈ l, E' e.1 e.2)
    (hnew : ∀ k v, E' k v → (k, v) ∈ l ∨ E k v)
    (hstale : ∀ k v, E k v → (∃ e ∈ l, e.1 = k) ∨ E' k v) : (t.putAll l).Graph E' := by
  intro k v
  by_cases hk : ∃ e ∈ l, e.1 = k
  · obtain ⟨v', hv', hget⟩ := get_putAll_mem hk (t := t)
    have hE' : E' k v' := hput _ hv'
    rw [hget, Option.some.injEq]
    exact ⟨fun heq => heq ▸ hE', fun hv => hfun k v' v hE' hv⟩
  · rw [get_putAll_notMem fun e he hek => hk ⟨e, he, hek⟩, h k v]
    constructor
    · intro hE
      exact (hstale k v hE).resolve_left hk
    · intro hE'
      exact (hnew k v hE').resolve_left fun hmem => hk ⟨_, hmem, rfl⟩

lemma Tbl.Graph.eraseAll {ks : List Str} (h : t.Graph E)
    (h' : ∀ k v, E' k v ↔ E k v ∧ k ∉ ks) : (t.eraseAll ks).Graph E' := by
  intro k v
  rw [get_eraseAll, h' k v, ← h k v]
  by_cases hk : k ∈ ks <;> simp [hk]

end graph

/-- An entry of a table is what its key looks up. -/
lemma Tbl.mem_entries {β : Type} {t : Tbl β} {k : Str} {v : β} :
    (⟨k, v⟩ : Sigma fun _ : Str => β) ∈ t.entries ↔ t.get k = some v := by
  rw [Tbl.get, AList.mem_lookup_iff.symm]
  rfl

/-- The choices of `table.sort` and `pairs`. Both only reorder, and a sorted list has no
element after one it should precede. -/
structure Order where
  sort : {β : Type} → (β → β → Bool) → List β → List β
  sort_perm : ∀ {β : Type} (lt : β → β → Bool) (l : List β), (sort lt l).Perm l
  sort_sorted : ∀ {β : Type} (lt : β → β → Bool), (∀ a b, lt a b → ¬ lt b a) →
    (∀ a b c, ¬ lt a b → ¬ lt b c → ¬ lt a c) →
    ∀ l, (sort lt l).Pairwise fun a b => ¬ lt b a
  visit : {β : Type} → List β → List β
  visit_perm : ∀ {β : Type} (l : List β), (visit l).Perm l

/-- What `pairs(t)` runs through. -/
def Order.pairs (o : Order) {β : Type} (t : Tbl β) : List (Sigma fun _ : Str => β) :=
  o.visit t.entries

lemma Order.mem_pairs (o : Order) {β : Type} {t : Tbl β} {k : Str} {v : β} :
    ⟨k, v⟩ ∈ o.pairs t ↔ t.get k = some v := by
  rw [Order.pairs, (o.visit_perm _).mem_iff, Tbl.mem_entries]

/-- `pairs` visits no key twice. -/
lemma Order.pairs_nodup (o : Order) {β : Type} (t : Tbl β) :
    ((o.pairs t).map Sigma.fst).Nodup :=
  ((o.visit_perm t.entries).map _).nodup_iff.mpr t.nodupKeys

/-- A sort by falling key is descending in that key. -/
lemma Order.sort_descending (o : Order) {β : Type} (key : β → ℚ) (l : List β) :
    (o.sort (fun a b => decide (key a > key b)) l).Pairwise fun a b => key b ≤ key a := by
  refine (o.sort_sorted _ ?_ ?_ l).imp ?_
  · intro a b h
    simp only [gt_iff_lt, decide_eq_true_eq] at h ⊢
    exact not_lt.mpr h.le
  · intro a b c h1 h2
    simp only [gt_iff_lt, decide_eq_true_eq, not_lt] at h1 h2 ⊢
    exact le_trans h1 h2
  · intro a b h
    simpa using h

/-- The order an insertion sort and a walk along the table give. -/
def Order.plain : Order where
  sort lt := List.insertionSort fun a b => !lt b a
  sort_perm lt l := List.perm_insertionSort _ l
  sort_sorted lt hasymm htrans l := by
    have total : Std.Total fun a b => (!lt b a) = true := ⟨fun a b => by
      have := hasymm a b
      cases h : lt a b <;> simp_all⟩
    have trans : IsTrans _ fun a b => (!lt b a) = true := ⟨fun a b c h1 h2 => by
      simpa using htrans c b a (by simpa using h2) (by simpa using h1)⟩
    simpa using List.pairwise_insertionSort (fun a b => (!lt b a) = true) l
  visit l := l
  visit_perm l := .refl l

/-- An outcome of `math.random(lo, hi)`. -/
structure Draw where
  pick : ℕ → ℕ → ℕ
  le_pick : ∀ lo hi, lo ≤ hi → lo ≤ pick lo hi
  pick_le : ∀ lo hi, lo ≤ hi → pick lo hi ≤ hi

/-- The least outcome. -/
def Draw.least : Draw := ⟨fun lo _ => lo, fun _ _ _ => le_rfl, fun _ _ h => h⟩

/-- The outcome nearest to `m`. -/
def Draw.near (m : ℕ) : Draw :=
  ⟨fun lo hi => max lo (min m hi), fun _ _ _ => le_max_left _ _,
    fun _ _ h => max_le h (min_le_right _ _)⟩

/-! ### Strings and numbers -/

/-- `util.split(s, delim)` for a delimiter that is one plain character. -/
def split (delim : UInt8) (s : Str) : List Str := s.splitOn delim

/-- `table.concat(l, delim)` -/
def concat (delim : UInt8) (l : List Str) : Str := [delim].intercalate l

def comma : UInt8 := 44

lemma split_of_notMem {delim : UInt8} {s : Str} (h : delim ∉ s) : split delim s = [s] :=
  List.splitOn_eq_singleton h

lemma split_append_cons {delim : UInt8} {s : Str} (h : delim ∉ s) (t : Str) :
    split delim (s ++ delim :: t) = s :: split delim t :=
  List.splitOn_append_cons_self_of_not_mem h t

lemma split_concat {delim : UInt8} {l : List Str} (h : ∀ s ∈ l, delim ∉ s) (hne : l ≠ []) :
    split delim (concat delim l) = l :=
  List.splitOn_intercalate delim h hne

lemma concat_split (delim : UInt8) (s : Str) : concat delim (split delim s) = s :=
  List.intercalate_splitOn delim

lemma notMem_of_mem_split {delim : UInt8} {s t : Str} (h : t ∈ split delim s) : delim ∉ t := by
  unfold split at h
  induction s generalizing t with
  | nil =>
    rw [List.splitOn_nil, List.mem_singleton] at h
    simp [h]
  | cons c s ih =>
    obtain ⟨first, rest, hs⟩ := List.exists_cons_of_ne_nil (List.splitOn_ne_nil delim s)
    rw [hs] at ih
    rw [List.splitOn_cons_eq_if_modifyHead, hs] at h
    split at h
    · rcases List.mem_cons.mp h with rfl | h
      · exact List.not_mem_nil
      · exact ih h
    · next hc =>
      rw [List.modifyHead_cons] at h
      rcases List.mem_cons.mp h with rfl | h
      · rw [List.mem_cons, not_or]
        exact ⟨fun heq => hc (by simp [heq]), ih List.mem_cons_self⟩
      · exact ih (List.mem_cons_of_mem _ h)

lemma concat_cons (delim : UInt8) (s s' : Str) (l : List Str) :
    concat delim (s :: s' :: l) = s ++ delim :: concat delim (s' :: l) := by
  simp [concat, List.intercalate]

lemma mem_concat {delim c : UInt8} {l : List Str} (h : c ∈ concat delim l) :
    c = delim ∨ ∃ s ∈ l, c ∈ s := by
  induction l with
  | nil => simp [concat, List.intercalate] at h
  | cons s l ih =>
    cases l with
    | nil => exact .inr ⟨s, by simp, by simpa [concat, List.intercalate] using h⟩
    | cons s' l =>
      rw [concat_cons, List.mem_append, List.mem_cons] at h
      rcases h with h | h | h
      · exact .inr ⟨s, by simp, h⟩
      · exact .inl h
      · rcases ih h with h | ⟨x, hx, hc⟩
        · exact .inl h
        · exact .inr ⟨x, List.mem_cons_of_mem _ hx, hc⟩

lemma mem_concat_of_mem {delim c : UInt8} {l : List Str} {s : Str} (hs : s ∈ l) (hc : c ∈ s) :
    c ∈ concat delim l := by
  induction l with
  | nil => cases hs
  | cons t l ih =>
    cases l with
    | nil =>
      rw [List.mem_singleton] at hs
      simpa [concat, List.intercalate, ← hs] using hc
    | cons t' l =>
      rw [concat_cons, List.mem_append, List.mem_cons]
      rcases List.mem_cons.mp hs with rfl | hs
      · exact .inl hc
      · exact .inr (.inr (ih hs))

/-- A part is a piece of the whole. -/
lemma mem_of_mem_split {delim c : UInt8} {s t : Str} (h : t ∈ split delim s) (hc : c ∈ t) :
    c ∈ s := by
  rw [← concat_split delim s]
  exact mem_concat_of_mem h hc

lemma length_le_concat {delim : UInt8} {l : List Str} {s : Str} (h : s ∈ l) :
    s.length ≤ (concat delim l).length := by
  induction l with
  | nil => cases h
  | cons t l ih =>
    cases l with
    | nil =>
      rw [List.mem_singleton.mp h]
      simp [concat, List.intercalate]
    | cons t' l =>
      rw [concat_cons, List.length_append, List.length_cons]
      rcases List.mem_cons.mp h with rfl | h
      · omega
      · have := ih h
        omega

def decimalNat (n : ℕ) : Str :=
  if n = 0 then lit "0" else ((Nat.digits 10 n).map fun d => UInt8.ofNat (48 + d)).reverse

/-- How an integer is printed. -/
def decimal (n : ℤ) : Str :=
  if n < 0 then lit "-" ++ decimalNat n.natAbs else decimalNat n.natAbs

/-- `47 < c < 58` -/
def isDigit (c : UInt8) : Bool := 48 ≤ c.toNat ∧ c.toNat ≤ 57

def parseNat (s : Str) : ℕ := Nat.ofDigits 10 (s.reverse.map fun c => c.toNat - 48)

/-- The integer a string of digits, with or without a sign, denotes. -/
def parseDecimal (s : Str) : Option ℤ :=
  match s with
  | [] => none
  | c :: digits =>
    if c = 45 then
      if digits ≠ [] ∧ digits.all isDigit then some (-(parseNat digits : ℤ)) else none
    else if s.all isDigit then some (parseNat s) else none

section decimal

lemma digit_toNat {d : ℕ} (h : d < 10) : (UInt8.ofNat (48 + d)).toNat = 48 + d := by
  rw [UInt8.toNat_ofNat']
  omega

lemma decimalNat_isDigit {n : ℕ} {c : UInt8} (h : c ∈ decimalNat n) : isDigit c := by
  unfold decimalNat at h
  split at h
  · have h0 : lit "0" = [48] := by decide
    rw [h0, List.mem_singleton] at h
    subst h
    decide
  · simp only [List.mem_reverse, List.mem_map] at h
    obtain ⟨d, hd, rfl⟩ := h
    have hlt := Nat.digits_lt_base (by decide) hd
    simp only [isDigit, digit_toNat hlt, decide_eq_true_eq]
    omega

lemma decimalNat_ne_nil (n : ℕ) : decimalNat n ≠ [] := by
  unfold decimalNat
  split
  · decide
  · next h => simp [Nat.digits_ne_nil_iff_ne_zero, h]

lemma parseNat_decimalNat (n : ℕ) : parseNat (decimalNat n) = n := by
  unfold parseNat decimalNat
  split
  · next h => subst h; decide
  · rw [List.reverse_reverse, List.map_map]
    have hid : (Nat.digits 10 n).map ((fun c : UInt8 => c.toNat - 48) ∘
        fun d => UInt8.ofNat (48 + d)) = Nat.digits 10 n := by
      rw [List.map_congr_left (g := id), List.map_id]
      intro d hd
      have hlt := Nat.digits_lt_base (by decide) hd
      simp only [Function.comp_apply, digit_toNat hlt, id]
      omega
    rw [hid, Nat.ofDigits_digits]

/-- **A printed integer is read back.** -/
theorem parseDecimal_decimal (n : ℤ) : parseDecimal (decimal n) = some n := by
  have hall : ∀ n, (decimalNat n).all isDigit := fun n =>
    List.all_eq_true.mpr fun c hc => decimalNat_isDigit hc
  unfold decimal
  split
  · next h =>
    have hm : lit "-" = [45] := by decide
    simp only [hm, List.singleton_append, parseDecimal, if_true, decimalNat_ne_nil, ne_eq,
      not_false_eq_true, hall, and_self, parseNat_decimalNat]
    congr 1
    omega
  · next h =>
    cases hs : decimalNat n.natAbs with
    | nil => exact absurd hs (decimalNat_ne_nil _)
    | cons c digits =>
      have hc : isDigit c := decimalNat_isDigit (n := n.natAbs) (by simp [hs])
      have hne : c ≠ 45 := by
        rintro rfl
        exact absurd hc (by decide)
      simp only [parseDecimal, hne, if_false]
      rw [← hs, if_pos (hall _), parseNat_decimalNat]
      congr 1
      omega

lemma mem_decimal {n : ℤ} {c : UInt8} (h : c ∈ decimal n) : c ∈ lit "-" ∨ isDigit c := by
  unfold decimal at h
  split at h
  · exact (List.mem_append.mp h).imp_right decimalNat_isDigit
  · exact .inr (decimalNat_isDigit h)

lemma comma_notMem_decimal (n : ℤ) : comma ∉ decimal n := by
  intro h
  rcases mem_decimal h with h | h
  · exact absurd h (by decide)
  · exact absurd h (by decide)

end decimal

/-- The library functions whose results the program passes on: `%.14g` printing of numbers and
its inverse, the JSON codec, and the string functions of the nginx module. A decoded object
has no key twice, and encoding raises where tables nest deeper than the codec's limit or a number
is not finite. -/
structure Ngx where
  tostring : ℚ → Str
  tostring_int : ∀ n : ℤ, n.natAbs < 10 ^ 14 → tostring n = decimal n
  comma_notMem_tostring : ∀ q, comma ∉ tostring q
  tonumber : Str → Option ℚ
  tonumber_int : ∀ s n, parseDecimal s = some n → n.natAbs < 10 ^ 14 → tonumber s = some (n : ℚ)
  tonumber_nonneg : ∀ q r, 0 ≤ q → tonumber (tostring q) = some r → 0 ≤ r
  /-- whether `tonumber` reads the text as NaN -/
  names_nan : Str → Bool
  tonumber_nan : ∀ s, names_nan s → tonumber s = none
  cjson_decode : Str → Except String Val
  decode_keys : ∀ s v, cjson_decode s = .ok v → v.KeysNodup
  cjson_encode : Val → Str
  /-- the value of a form argument as `ngx.req.get_post_args` reads it -/
  form_value : Str → Str
  form_value_plain : ∀ s, (∀ c ∈ s, c ∉ lit "&%+") → form_value s = s
  escape_uri : Str → Str
  encode_args : List (Str × Str) → Str
  encode_base64 : Str → Str
  hmac_sha1 : Str → Str → Str
  md5 : Str → Str
  md5_bin : Str → Str
  to_hex : Str → Str
  /-- `ngx.re.gsub(subject, literal, replacement, "jo")` for a pattern without operators -/
  gsub : Str → Str → Str → Str

/-- `cjson.decode` -/
def Ngx.decode (lib : Ngx) (s : Str) : Lua Val :=
  match lib.cjson_decode s with
  | .ok v => .ok v
  | .error msg => .error (.error msg)

/-- The depth `cjson` encodes, which the program leaves as it is. -/
def encode_max_depth : ℕ := 1000

/-- `cjson.encode` -/
def Ngx.encode (lib : Ngx) (v : Val) : Lua Str :=
  if encode_max_depth < v.depth then .error (.error "Cannot serialise, excessive depth")
  else if v.finite then .ok (lib.cjson_encode v)
  else .error (.error "Cannot serialise number: must not be NaN or Infinity")

/-- The values that `cjson.encode` takes. -/
def Encodes (v : Val) : Prop := v.depth ≤ encode_max_depth ∧ v.finite

lemma Ngx.encode_ok {lib : Ngx} {v : Val} (h : Encodes v) :
    lib.encode v = .ok (lib.cjson_encode v) := by
  rw [Ngx.encode, if_neg (not_lt.mpr h.1), if_pos h.2]

lemma Ngx.encode_isOk {lib : Ngx} {v : Val} : (∃ s, lib.encode v = .ok s) ↔ Encodes v := by
  refine ⟨fun ⟨s, hs⟩ => ?_, fun h => ⟨_, Ngx.encode_ok h⟩⟩
  unfold Ngx.encode at hs
  split at hs
  · cases hs
  · next hdepth =>
    split at hs
    · next hfinite => exact ⟨not_lt.mp hdepth, hfinite⟩
    · cases hs

/-- The number a text denotes, if `tonumber` takes it for one. -/
def Ngx.number (lib : Ngx) (s : Str) : Option Val :=
  if lib.names_nan s then some .nan else (lib.tonumber s).map .num

/-- `struct.pack(">i8", q)`: the number cut to an integer, as eight bytes, high byte first. -/
def packI8 (q : ℚ) : Str :=
  let n := ((q.num.tdiv q.den) % 2 ^ 64).toNat
  (List.range 8).map fun i => UInt8.ofNat (n / 256 ^ (7 - i))

/-- The library with a decoder that knows the listed texts, and string functions that leave
their argument as it is. -/
def Ngx.ofTexts (texts : List (String × Val)) : Ngx where
  tostring q := decimal q.floor
  tostring_int n _ := by simp [Rat.floor_intCast]
  comma_notMem_tostring q := comma_notMem_decimal _
  tonumber s := (parseDecimal s).map Int.cast
  tonumber_int s n h _ := by simp [h]
  tonumber_nonneg q r hq h := by
    rw [parseDecimal_decimal, Option.map_some, Option.some.injEq] at h
    rw [← h, Int.cast_nonneg_iff]
    exact Int.floor_nonneg.mpr hq
  names_nan _ := false
  tonumber_nan _ h := by cases h
  cjson_decode s :=
    match (texts.map fun e => (lit e.1, e.2)).lookup s with
    | some v => if v.KeysNodup then .ok v else .error "repeated key"
    | none => .error "Expected value but found invalid token"
  decode_keys s v h := by
    split at h
    · split at h
      · next hk => cases h; exact hk
      · cases h
    · cases h
  cjson_encode _ := []
  form_value s := s
  form_value_plain s _ := rfl
  escape_uri s := s
  encode_args _ := []
  encode_base64 s := s
  hmac_sha1 _ s := s
  md5 s := s
  md5_bin s := s
  to_hex s := s
  gsub s _ _ := s

/-- How a list of numbers and plain strings is printed. -/
def jsonText : Val → Str
  | .table arr _ => lit "[" ++ concat comma (arr.map fun
    | .num q => decimal q.floor
    | .str s => lit "\"" ++ s ++ lit "\""
    | _ => lit "null") ++ lit "]"
  | _ => lit "null"

end Sax.Runtime
