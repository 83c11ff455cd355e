import Sax.Atomic
import Sax.Runtime

/-!
The shared dictionary `ngx.shared.sax` as far as it holds numbers.

Each operation is atomic. The dictionary also counts, for the proofs, how often an entry was created or
overwritten, and stamps an entry with that count: two values with one stamp under one
key belong to one life of the entry.
-/

namespace Sax.Shdict

open Sax.LuaVal Sax.Runtime Sax.Atomic

/-- A number with the `exptime` it was stored with and the stamp of its life. -/
structure Entry where
  value : ℚ
  exptime : ℕ
  life : ℕ

structure Counters where
  entries : Tbl Entry
  births : ℕ
  life_lt : ∀ k e, entries.get k = some e → e.life < births

def Counters.empty : Counters := ⟨∅, 0, by simp⟩

/-- The operations, named after the functions of `util.lua`. -/
inductive Op
  | getDict (key : Str)
  | setDict (key : Str) (value : ℚ) (exptime : ℕ)
  | addDict (key : Str) (value : ℚ) (exptime : ℕ)
  | incrDict (key : Str) (step : ℚ)
  | flushExpiredDict

abbrev Reply : Op → Type
  | .getDict _ | .incrDict _ _ => Option ℚ
  | .addDict _ _ _ => Bool
  | .setDict _ _ _ | .flushExpiredDict => Unit

/-- The number stored under a key. -/
def Counters.value (d : Counters) (key : Str) : Option ℚ := (d.entries.get key).map Entry.value

/-- A new life of the entry. -/
def Counters.put (d : Counters) (key : Str) (value : ℚ) (exptime : ℕ) : Counters where
  entries := d.entries.insert key ⟨value, exptime, d.births⟩
  births := d.births + 1
  life_lt k e h := by
    by_cases hk : k = key
    · subst hk
      rw [Tbl.get, AList.lookup_insert, Option.some.injEq] at h
      subst h
      exact Nat.lt_succ_self _
    · rw [Tbl.get, AList.lookup_insert_ne hk] at h
      exact Nat.lt_succ_of_lt (d.life_lt k e h)

/-- The entry gets another value and lives on. -/
def Counters.renew (d : Counters) (key : Str) (e : Entry) (h : d.entries.get key = some e)
    (value : ℚ) : Counters where
  entries := d.entries.insert key { e with value }
  births := d.births
  life_lt k e' h' := by
    by_cases hk : k = key
    · subst hk
      rw [Tbl.get, AList.lookup_insert, Option.some.injEq] at h'
      subst h'
      exact d.life_lt k e h
    · rw [Tbl.get, AList.lookup_insert_ne hk] at h'
      exact d.life_lt k e' h'

/-- What an operation replies and leaves. An expired entry is gone already, so flushing
changes nothing. -/
def exec : (o : Op) → Counters → Reply o × Counters
  | .getDict key, d => (d.value key, d)
  | .setDict key value exptime, d => ((), d.put key value exptime)
  | .addDict key value exptime, d =>
    if (d.value key).isSome then (false, d) else (true, d.put key value exptime)
  | .incrDict key step, d =>
    match h : d.entries.get key with
    | some e => (some (e.value + step), d.renew key e h (e.value + step))
    | none => (none, d)
  | .flushExpiredDict, d => ((), d)

/-- An entry with an `exptime` can expire at any moment. -/
def Expires (d d' : Counters) : Prop :=
  ∃ key e, d.entries.get key = some e ∧ e.exptime ≠ 0 ∧ d'.entries = d.entries.erase key ∧
    d'.births = d.births

section lemmas

variable (d : Counters) {key k : Str} {value : ℚ} {exptime : ℕ}

@[simp] lemma get_put :
    (d.put key value exptime).entries.get key = some ⟨value, exptime, d.births⟩ := by
  simp [Counters.put]

lemma get_put_ne (h : k ≠ key) : (d.put key value exptime).entries.get k = d.entries.get k := by
  simp [Counters.put, AList.lookup_insert_ne h]

@[simp] lemma value_put : (d.put key value exptime).value key = some value := by
  simp [Counters.value]

lemma value_put_ne (h : k ≠ key) : (d.put key value exptime).value k = d.value k := by
  simp [Counters.value, get_put_ne d h]

variable {e : Entry} (h : d.entries.get key = some e)

@[simp] lemma get_renew : (d.renew key e h value).entries.get key = some { e with value } := by
  simp [Counters.renew]

lemma get_renew_ne (hk : k ≠ key) :
    (d.renew key e h value).entries.get k = d.entries.get k := by
  simp [Counters.renew, AList.lookup_insert_ne hk]

lemma exec_incrDict {step : ℚ} (h : d.entries.get key = some e) :
    exec (.incrDict key step) d =
      (some (e.value + step), d.renew key e h (e.value + step)) := by
  simp only [exec]
  split
  · next e' h' =>
    have heq : e' = e := by
      rw [h, Option.some.injEq] at h'
      exact h'.symm
    subst heq
    rfl
  · next h' => rw [h] at h'; cases h'

lemma exec_incrDict_none {step : ℚ} (h : d.entries.get key = none) :
    exec (.incrDict key step) d = (none, d) := by
  simp only [exec]
  split
  · next h' => rw [h] at h'; cases h'
  · rfl

lemma exec_addDict_taken (h : (d.value key).isSome) :
    exec (.addDict key value exptime) d = (false, d) := by
  simp [exec, h]

lemma exec_addDict_free (h : ¬ (d.value key).isSome) :
    exec (.addDict key value exptime) d = (true, d.put key value exptime) := by
  simp [exec, h]

/-- Expiry keeps what it does not remove. -/
lemma Expires.get {d d' : Counters} (h : Expires d d') {k : Str} {e : Entry}
    (hk : d'.entries.get k = some e) : d.entries.get k = some e := by
  obtain ⟨key, _, -, -, hd, -⟩ := h
  rw [hd] at hk
  by_cases hkey : k = key
  · subst hkey
    simp [Tbl.get] at hk
  · rwa [Tbl.get, AList.lookup_erase_ne hkey] at hk

lemma Expires.births {d d' : Counters} (h : Expires d d') : d'.births = d.births := by
  obtain ⟨_, _, -, -, -, hb⟩ := h
  exact hb

end lemmas

end Sax.Shdict
