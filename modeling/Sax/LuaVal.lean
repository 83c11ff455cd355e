import Mathlib.Data.List.Nodup
import Mathlib.Tactic.Linarith
import Sax.Double

/-!
The values the Lua program computes with, and the errors it can raise.

A string is a sequence of bytes. `num q` is the double nearest to `q`, which is infinite from
`2 ^ 1024` on. `nil` is no value of `Val`: a place that may hold it is an `Option Val`, so a table
never has a hole.
-/

namespace Sax.LuaVal

/-- A Lua string. -/
abbrev Str := List UInt8

/-- Strings are equal by their bytes. -/
instance : LawfulBEq Str := inferInstance

/-- The bytes of a literal of the source. -/
def lit (s : String) : Str := s.toUTF8.data.toList

/-- The errors Lua raises, by what the program did. -/
inductive LuaError
  | error (msg : String)
  | badIndex
  | badLength
  | badArgument
  | badConcat
  | badArith
  | badCompare
  deriving DecidableEq

/-- A computation that may raise. -/
abbrev Lua := Except LuaError

/-- A Lua value other than `nil`; `null` is the null of `cjson` and `nan` the number that is none.
A table keeps its list part and its string keys apart. -/
inductive Val
  | null
  | bool (b : Bool)
  | num (q : ℚ)
  | nan
  | str (s : Str)
  | table (arr : List Val) (hash : List (Str × Val))

/-- The table `{}`. -/
def Val.empty : Val := .table [] []

/-- The list of strings `{s, ...}`. -/
def Val.strs (l : List Str) : Val := .table (l.map .str) []

/-- The list `{v, ...}`. -/
def Val.arr (l : List Val) : Val := .table l []

/-- The table `{k = v, ...}`. -/
def Val.obj (l : List (String × Val)) : Val := .table [] (l.map fun e => (lit e.1, e.2))

/-- The table with the fields that are not `nil`. -/
def Val.fields (l : List (String × Option Val)) : Val :=
  .obj (l.filterMap fun e => e.2.map fun v => (e.1, v))

/-! Equality of values, decided by recursion on both. -/

mutual

def Val.decEq : (a b : Val) → Decidable (a = b)
  | .null, .null | .nan, .nan => isTrue rfl
  | .bool a, .bool b => decidable_of_iff (a = b) (by simp)
  | .num a, .num b => decidable_of_iff (a = b) (by simp)
  | .str a, .str b => decidable_of_iff (a = b) (by simp)
  | .table a h, .table b g =>
    have := Val.decEqArr a b
    have := Val.decEqHash h g
    decidable_of_iff (a = b ∧ h = g) (by simp)
  | .null, .bool _ | .null, .num _ | .null, .nan | .null, .str _ | .null, .table _ _
  | .bool _, .null | .bool _, .num _ | .bool _, .nan | .bool _, .str _ | .bool _, .table _ _
  | .num _, .null | .num _, .bool _ | .num _, .nan | .num _, .str _ | .num _, .table _ _
  | .nan, .null | .nan, .bool _ | .nan, .num _ | .nan, .str _ | .nan, .table _ _
  | .str _, .null | .str _, .bool _ | .str _, .num _ | .str _, .nan | .str _, .table _ _
  | .table _ _, .null | .table _ _, .bool _ | .table _ _, .num _ | .table _ _, .nan
  | .table _ _, .str _ => isFalse nofun

def Val.decEqArr : (a b : List Val) → Decidable (a = b)
  | [], [] => isTrue rfl
  | x :: a, y :: b =>
    have := Val.decEq x y
    have := Val.decEqArr a b
    decidable_of_iff (x = y ∧ a = b) (by simp)
  | [], _ :: _ | _ :: _, [] => isFalse nofun

def Val.decEqHash : (a b : List (Str × Val)) → Decidable (a = b)
  | [], [] => isTrue rfl
  | (k, x) :: a, (l, y) :: b =>
    have := Val.decEq x y
    have := Val.decEqHash a b
    decidable_of_iff (k = l ∧ x = y ∧ a = b) (by simp [and_assoc])
  | [], _ :: _ | _ :: _, [] => isFalse nofun

end

instance : DecidableEq Val := Val.decEq


/-- `v.k`. A string has the string library behind it, which holds none of the keys the
program asks for. -/
def field (k : String) : Option Val → Lua (Option Val)
  | some (.table _ h) => .ok (h.lookup (lit k))
  | some (.str _) => .ok none
  | _ => .error .badIndex

/-- `v[i]` for a positive number `i`. -/
def item (i : ℕ) : Option Val → Lua (Option Val)
  | some (.table a _) => .ok a[i - 1]?
  | some (.str _) => .ok none
  | _ => .error .badIndex

/-- `#v`. -/
def len : Option Val → Lua ℕ
  | some (.table a _) => .ok a.length
  | some (.str s) => .ok s.length
  | _ => .error .badLength

/-- What `ipairs(v)` runs through. -/
def ipairs : Option Val → Lua (List Val)
  | some (.table a _) => .ok a
  | _ => .error .badArgument

/-- `next(v) ~= nil`. -/
def next : Option Val → Lua Bool
  | some (.table a h) => .ok (!(a.isEmpty && h.isEmpty))
  | _ => .error .badArgument

/-- `v.k = x`; assigning `nil` removes the key. -/
def setField (k : String) (x : Option Val) : Val → Lua Val
  | .table a h =>
    .ok (.table a ((x.map fun y => (lit k, y)).toList ++ h.filter fun e => e.1 ≠ lit k))
  | _ => .error .badIndex

/-- `table.insert(v, x)`. -/
def insertLast (x : Val) : Option Val → Lua Val
  | some (.table a h) => .ok (.table (a ++ [x]) h)
  | _ => .error .badArgument

/-- `table.insert(v, 1, x)`. -/
def insertFirst (x : Val) : Option Val → Lua Val
  | some (.table a h) => .ok (.table (x :: a) h)
  | _ => .error .badArgument

/-- `v[i] = x` for a position `i` the list part of `v` has. -/
def setItem (i : ℕ) (x : Val) : Val → Lua Val
  | .table a h => .ok (.table (a.set (i - 1) x) h)
  | _ => .error .badIndex

/-- The value with `a` for its list part. -/
def Val.setArr (a : List Val) : Val → Val
  | .table _ h => .table a h
  | v => v

/-- Whether a library function that wants a string takes the value: it takes a number too. -/
def Val.isText : Val → Bool
  | .str _ => true
  | .num _ => true
  | .nan => true
  | _ => false

/-- Whether the value is a table. -/
def Val.isTable : Val → Bool
  | .table _ _ => true
  | _ => false

/-- `luaL_checklstring`: the string a library function reads, with numbers printed by
`tostring`. -/
def checkString (tostring : ℚ → Str) : Option Val → Lua Str
  | some (.str s) => .ok s
  | some (.num q) => .ok (tostring q)
  | some .nan => .ok (lit "nan")
  | _ => .error .badArgument

/-- `v.k` of a value that is a table. -/
def Val.get (k : String) : Val → Option Val
  | .table _ h => h.lookup (lit k)
  | _ => none

/-- A list. -/
def isList : Option Val → Bool
  | some (.table _ _) => true
  | _ => false

/-- A list of strings and numbers. -/
def isTextList : Option Val → Bool
  | some (.table a _) => a.all Val.isText
  | _ => false

/-- No key stands twice in the value. -/
def Val.KeysNodup : Val → Prop
  | .table _ h => (h.map Prod.fst).Nodup
  | _ => True

instance (v : Val) : Decidable v.KeysNodup := by
  cases v <;> unfold Val.KeysNodup <;> infer_instance

/-- The value without its key `k`. -/
def Val.erase (k : String) : Val → Val
  | .table a h => .table a (h.filter fun e => e.1 ≠ lit k)
  | v => v

mutual

/-- How deep tables nest in the value. -/
def Val.depth : Val → ℕ
  | .table a h => 1 + max (Val.depthArr a) (Val.depthHash h)
  | _ => 0

def Val.depthArr : List Val → ℕ
  | [] => 0
  | v :: a => max v.depth (Val.depthArr a)

def Val.depthHash : List (Str × Val) → ℕ
  | [] => 0
  | (_, v) :: h => max v.depth (Val.depthHash h)

end

mutual

/-- Every number in the value is finite. -/
def Val.finite : Val → Bool
  | .num q => Double.Finite q
  | .nan => false
  | .table a h => Val.finiteArr a && Val.finiteHash h
  | _ => true

def Val.finiteArr : List Val → Bool
  | [] => true
  | v :: a => v.finite && Val.finiteArr a

def Val.finiteHash : List (Str × Val) → Bool
  | [] => true
  | (_, v) :: h => v.finite && Val.finiteHash h

end

/-! ### What goes through -/

@[simp] lemma isText_str (s : Str) : (Val.str s).isText = true := rfl

@[simp] lemma depth_str (s : Str) : (Val.str s).depth = 0 := by simp [Val.depth]

@[simp] lemma depth_num (q : ℚ) : (Val.num q).depth = 0 := by simp [Val.depth]

@[simp] lemma finite_str (s : Str) : (Val.str s).finite = true := by simp [Val.finite]

@[simp] lemma finite_num (q : ℚ) : (Val.num q).finite = true ↔ Double.Finite q := by
  simp [Val.finite]

lemma checkString_isOk {t : ℚ → Str} {v : Val} :
    (∃ s, checkString t (some v) = .ok s) ↔ v.isText := by
  cases v <;> simp [checkString, Val.isText]

lemma insertLast_ok {x w : Val} {v : Option Val} :
    insertLast x v = .ok w ↔ ∃ a h, v = some (.table a h) ∧ w = .table (a ++ [x]) h := by
  rcases v with _ | v
  · simp [insertLast]
  · cases v <;> simp [insertLast, eq_comm]

lemma insertFirst_ok {x w : Val} {v : Option Val} :
    insertFirst x v = .ok w ↔ ∃ a h, v = some (.table a h) ∧ w = .table (x :: a) h := by
  rcases v with _ | v
  · simp [insertFirst]
  · cases v <;> simp [insertFirst, eq_comm]

lemma ipairs_ok {v : Option Val} {l : List Val} :
    ipairs v = .ok l ↔ ∃ h, v = some (.table l h) := by
  rcases v with _ | v
  · simp [ipairs]
  · cases v <;> simp [ipairs]

lemma isTable_of_setField {k : String} {x : Option Val} {v w : Val}
    (h : setField k x v = .ok w) : v.isTable := by
  cases v <;> first | rfl | cases h

lemma setField_ok {k : String} {x v : Val} (h : v.isTable) :
    ∃ w, setField k (some x) v = .ok w := by
  cases v <;> first | exact ⟨_, rfl⟩ | cases h

lemma field_of_isTable {k : String} {v : Val} (h : v.isTable) :
    field k (some v) = .ok (v.get k) := by
  cases v <;> first | rfl | cases h

/-! ### Keys set and taken out -/

section setField

variable {k j : String} {x v w : Val}

lemma lookup_filter {h : List (Str × Val)} (hne : lit j ≠ lit k) :
    (h.filter fun e => e.1 ≠ lit k).lookup (lit j) = h.lookup (lit j) := by
  induction h with
  | nil => rfl
  | cons e h ih =>
    obtain ⟨l, v⟩ := e
    by_cases hl : l = lit k
    · subst hl
      have hb : (lit j == lit k) = false := by simpa using hne
      simpa [List.filter_cons, List.lookup_cons, hb] using ih
    · simp only [List.filter_cons, ne_eq, hl, not_false_eq_true, decide_true, if_true,
        List.lookup_cons] at ih ⊢
      rw [ih]

lemma Val.get_setField (h : setField k (some x) v = .ok w) : w.get k = some x := by
  cases v with
  | table a g => cases h; simp [Val.get]
  | _ => cases h

lemma Val.get_setField_ne {y : Option Val} (hne : lit j ≠ lit k) (h : setField k y v = .ok w) :
    w.get j = v.get j := by
  cases v with
  | table a g =>
    cases h
    have hb : (lit j == lit k) = false := by simpa using hne
    cases y with
    | none => exact lookup_filter hne
    | some x =>
      simp only [Val.get, Option.map_some, Option.toList_some, List.singleton_append,
        List.lookup_cons, hb]
      exact lookup_filter hne
  | _ => cases h

lemma isTable_setField (h : setField k (some x) v = .ok w) : w.isTable := by
  cases v <;> cases h
  rfl

lemma Val.erase_setField (h : setField k (some x) v = .ok w) : w.erase k = v.erase k := by
  cases v with
  | table a g => cases h; simp [Val.erase]
  | _ => cases h

lemma Val.erase_setField_ne (hne : lit k ≠ lit j) (h : setField k (some x) v = .ok w) :
    setField k (some x) (v.erase j) = .ok (w.erase j) := by
  cases v with
  | table a g =>
    cases h
    simp only [Val.erase, setField, Option.map_some, Option.toList_some,
      List.singleton_append, List.filter_cons, ne_eq, hne, not_false_eq_true, decide_true, if_true,
      List.filter_filter]
    congr 4
    funext e
    rw [Bool.and_comm]
  | _ => cases h

lemma Val.get_erase_ne (hne : lit j ≠ lit k) : (v.erase k).get j = v.get j := by
  cases v <;> first | rfl | exact lookup_filter hne

lemma Val.KeysNodup.erase (h : v.KeysNodup) : (v.erase k).KeysNodup := by
  cases v with
  | table a g => exact List.Nodup.sublist (List.filter_sublist.map _) h
  | _ => trivial

end setField

/-! ### Depth -/

lemma Val.depthArr_append (a b : List Val) :
    Val.depthArr (a ++ b) = max (Val.depthArr a) (Val.depthArr b) := by
  induction a with
  | nil => simp [Val.depthArr]
  | cons v a ih => simp [Val.depthArr, ih, max_assoc]

lemma Val.depth_of_isText {v : Val} (h : v.isText) : v.depth = 0 := by
  cases v <;> simp_all [Val.isText, Val.depth]

lemma Val.depthArr_texts {a : List Val} (h : ∀ v ∈ a, v.isText) : Val.depthArr a = 0 := by
  induction a with
  | nil => rfl
  | cons v a ih =>
    rw [List.forall_mem_cons] at h
    simp [Val.depthArr, ih h.2, Val.depth_of_isText h.1]

lemma Val.depthArr_le {a : List Val} {n : ℕ} : Val.depthArr a ≤ n ↔ ∀ v ∈ a, v.depth ≤ n := by
  induction a with
  | nil => simp [Val.depthArr]
  | cons v a ih => rw [Val.depthArr, max_le_iff, ih, List.forall_mem_cons]

lemma Val.depthHash_le {h : List (Str × Val)} {n : ℕ} :
    Val.depthHash h ≤ n ↔ ∀ e ∈ h, e.2.depth ≤ n := by
  induction h with
  | nil => simp [Val.depthHash]
  | cons e h ih => rw [Val.depthHash, max_le_iff, ih, List.forall_mem_cons]

@[simp] lemma Val.depth_arr_le {a : List Val} {n : ℕ} :
    (Val.arr a).depth ≤ n + 1 ↔ ∀ v ∈ a, v.depth ≤ n := by
  rw [Val.arr, Val.depth, ← Val.depthArr_le, Val.depthHash]
  omega

@[simp] lemma Val.depth_obj_le {l : List (String × Val)} {n : ℕ} :
    (Val.obj l).depth ≤ n + 1 ↔ ∀ e ∈ l, e.2.depth ≤ n := by
  have hhash : Val.depthHash (l.map fun e => (lit e.1, e.2)) ≤ n ↔ ∀ e ∈ l, e.2.depth ≤ n := by
    rw [Val.depthHash_le, List.forall_mem_map]
  rw [Val.obj, Val.depth, ← hhash, Val.depthArr]
  omega

@[simp] lemma Val.depth_fields_le {l : List (String × Option Val)} {n : ℕ} :
    (Val.fields l).depth ≤ n + 1 ↔ ∀ e ∈ l, ∀ v ∈ e.2, v.depth ≤ n := by
  rw [Val.fields, Val.depth_obj_le]
  constructor
  · intro h e he v hv
    exact h (e.1, v) (List.mem_filterMap.mpr ⟨e, he, by rw [Option.mem_def.mp hv]; rfl⟩)
  · intro h e he
    obtain ⟨e', he', heq⟩ := List.mem_filterMap.mp he
    obtain ⟨v, hv, rfl⟩ := Option.map_eq_some_iff.mp heq
    exact h e' he' v hv

/-- A key that is set counts with its new value alone. -/
lemma Val.depth_setField {k : String} {x v w : Val} (h : setField k (some x) v = .ok w) :
    w.depth = max (1 + x.depth) (v.erase k).depth := by
  cases v with
  | table a g =>
    cases h
    simp only [Option.map_some, Option.toList_some, List.singleton_append, Val.depth,
      Val.depthHash, Val.erase]
    omega
  | _ => cases h

/-- A key of a value whose keys differ counts with the value it has. -/
lemma Val.depth_get {k : String} {v x : Val} (hnodup : v.KeysNodup) (hk : v.get k = some x) :
    v.depth = max (1 + x.depth) (v.erase k).depth := by
  have hdepth : ∀ h : List (Str × Val), (h.map Prod.fst).Nodup → h.lookup (lit k) = some x →
      Val.depthHash h = max x.depth (Val.depthHash (h.filter fun e => e.1 ≠ lit k)) := by
    intro h
    induction h with
    | nil => intro _ hk; cases hk
    | cons e h ih =>
      obtain ⟨l, v⟩ := e
      intro hnodup hk
      obtain ⟨hnot, hnodup⟩ := List.nodup_cons.mp hnodup
      by_cases hl : l = lit k
      · subst hl
        simp only [List.lookup_cons, beq_self_eq_true, Option.some.injEq] at hk
        subst hk
        have hfilter : h.filter (fun e => e.1 ≠ lit k) = h := by
          rw [List.filter_eq_self]
          intro e he
          have hne : e.1 ≠ lit k := fun heq => hnot (List.mem_map.mpr ⟨e, he, heq⟩)
          simpa using hne
        simp only [List.filter_cons, ne_eq, not_true_eq_false, decide_false, Bool.false_eq_true,
          if_false, Val.depthHash]
        simp only [ne_eq] at hfilter
        rw [hfilter]
      · have hj : h.lookup (lit k) = some x := by
          rw [List.lookup_cons] at hk
          simpa [beq_eq_false_iff_ne.mpr (Ne.symm hl)] using hk
        simp only [List.filter_cons, ne_eq, hl, not_false_eq_true, decide_true, if_true,
          Val.depthHash]
        have := ih hnodup hj
        simp only [ne_eq] at this
        omega
  cases v with
  | table a h =>
    simp only [Val.depth, Val.erase, hdepth h hnodup hk]
    omega
  | _ => cases hk

/-! ### Finite numbers -/

lemma Val.finiteArr_iff {a : List Val} : Val.finiteArr a = true ↔ ∀ v ∈ a, v.finite := by
  induction a with
  | nil => simp [Val.finiteArr]
  | cons v a ih => rw [Val.finiteArr, Bool.and_eq_true, ih, List.forall_mem_cons]

lemma Val.finiteHash_iff {h : List (Str × Val)} :
    Val.finiteHash h = true ↔ ∀ e ∈ h, e.2.finite := by
  induction h with
  | nil => simp [Val.finiteHash]
  | cons e h ih => rw [Val.finiteHash, Bool.and_eq_true, ih, List.forall_mem_cons]

@[simp] lemma Val.finite_arr {a : List Val} : (Val.arr a).finite = true ↔ ∀ v ∈ a, v.finite := by
  simp [Val.arr, Val.finite, Val.finiteArr_iff, Val.finiteHash]

@[simp] lemma Val.finite_obj {l : List (String × Val)} :
    (Val.obj l).finite = true ↔ ∀ e ∈ l, e.2.finite := by
  rw [Val.obj, Val.finite, Val.finiteArr, Bool.true_and, Val.finiteHash_iff, List.forall_mem_map]

@[simp] lemma Val.finite_strs (l : List Str) : (Val.strs l).finite = true := by
  simp [Val.strs, Val.finite, Val.finiteArr_iff, Val.finiteHash]

@[simp] lemma Val.finite_fields {l : List (String × Option Val)} :
    (Val.fields l).finite = true ↔ ∀ e ∈ l, ∀ v ∈ e.2, v.finite := by
  rw [Val.fields, Val.finite_obj]
  constructor
  · intro h e he v hv
    exact h (e.1, v) (List.mem_filterMap.mpr ⟨e, he, by rw [Option.mem_def.mp hv]; rfl⟩)
  · intro h e he
    obtain ⟨e', he', heq⟩ := List.mem_filterMap.mp he
    obtain ⟨v, hv, rfl⟩ := Option.map_eq_some_iff.mp heq
    exact h e' he' v hv

lemma Val.finite_setField {k : String} {x v w : Val} (h : setField k (some x) v = .ok w) :
    w.finite = true ↔ x.finite = true ∧ (v.erase k).finite = true := by
  cases v with
  | table a g =>
    cases h
    simp only [Option.map_some, Option.toList_some, List.singleton_append, Val.finite,
      Val.finiteHash, Val.erase, Bool.and_eq_true]
    tauto
  | _ => cases h

/-- A key of a value whose keys differ counts with the value it has. -/
lemma Val.finite_get {k : String} {v x : Val} (hnodup : v.KeysNodup) (hk : v.get k = some x) :
    v.finite = true ↔ x.finite = true ∧ (v.erase k).finite = true := by
  cases v with
  | table a g =>
    have hmem : (lit k, x) ∈ g := by
      obtain ⟨l, r, rfl, -⟩ := List.lookup_eq_some_iff.mp hk
      simp
    have honly : ∀ e ∈ g, e.1 = lit k → e = (lit k, x) := fun e he hek =>
      List.inj_on_of_nodup_map hnodup he hmem hek
    simp only [Val.finite, Val.erase, Bool.and_eq_true, Val.finiteHash_iff, List.mem_filter,
      ne_eq, decide_not, Bool.not_eq_true', decide_eq_false_iff_not, and_imp]
    constructor
    · rintro ⟨ha, hg⟩
      exact ⟨hg _ hmem, ha, fun e he _ => hg e he⟩
    · rintro ⟨hx, ha, hg⟩
      refine ⟨ha, fun e he => ?_⟩
      by_cases hek : e.1 = lit k
      · rw [honly e he hek]
        exact hx
      · exact hg e he hek
  | _ => cases hk

end Sax.LuaVal
