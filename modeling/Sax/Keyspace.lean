import Sax.Qps

/-!
The keys of the shared dictionary of an application exchange: `saxmob/bdm/object.lua` and the key
functions of `saxmob/common/util.lua`.

The entry of an object is one letter followed by its id, and ids are free. The letter of a DSP
begins the fixed keys as well, so an id can spell out the rest of one of them.
-/

namespace Sax.Keyspace

open Sax.LuaVal Sax.Const Sax.Runtime

def DSP_ALL_SD : Str := lit "dspall"

inductive Kind
  | adunit
  | dsp
  | ssp
  deriving DecidableEq

def Kind.shared_dict_pre : Kind → Str
  | adunit => lit "a"
  | dsp => lit "d"
  | ssp => lit "s"

/-- The three numbers of a DSP. -/
inductive Qps
  | limit
  | count
  | total
  deriving DecidableEq

def Qps.pre : Qps → Str
  | limit => DSP_QPS_LIMIT_PREFIX
  | count => DSP_QPS_COUNT_PREFIX
  | total => DSP_QPS_TOTAL_PREFIX

/-- What the dictionary holds. -/
inductive Entry
  | object (kind : Kind) (id : Str)
  | qps (number : Qps) (id : Str)
  | dspAll
  deriving DecidableEq

/-- `dict_pre .. id`, `gen_key_for_qps_*` and `DSP_ALL_SD`. -/
def Entry.key : Entry → Str
  | object kind id => kind.shared_dict_pre ++ id
  | qps number id => number.pre ++ id
  | dspAll => DSP_ALL_SD

/-- The ids of the objects of each kind. -/
abbrev Ids := Kind → Set Str

/-- The entries of these objects, of the numbers of the DSPs and of the list of all DSPs. -/
def Ids.entries (ids : Ids) : Set Entry
  | .object kind id => id ∈ ids kind
  | .qps _ id => id ∈ ids .dsp
  | .dspAll => True

section operations

variable {α : Type}

/-- `object:get_dict`, or `util.get_dict` on the key of the entry. -/
def get_dict (e : Entry) (dict : Tbl α) : Option α := dict.get e.key

/-- `object:set_dict` or `util.set_dict`; `nil` deletes the entry, as `delete_info_sd` does. -/
def set_dict (e : Entry) (value : Option α) (dict : Tbl α) : Tbl α :=
  match value with
  | some v => dict.insert e.key v
  | none => dict.erase e.key

lemma get_set_ne {e e' : Entry} (h : e'.key ≠ e.key) (value : Option α) (dict : Tbl α) :
    get_dict e' (set_dict e value dict) = get_dict e' dict := by
  cases value with
  | some v => exact AList.lookup_insert_ne h
  | none => exact AList.lookup_erase_ne h

/-- Setting an entry changes what is read under a key it shares. -/
lemma get_set_eq {e e' : Entry} (h : e'.key = e.key) (v : α) :
    get_dict e' (set_dict e (some v) (∅ : Tbl α)) ≠ get_dict e' (∅ : Tbl α) := by
  rw [get_dict, set_dict, h, Tbl.get, AList.lookup_insert]
  simp [get_dict]

end operations

/-- The keys are pairwise different. -/
def Ids.Apart (ids : Ids) : Prop :=
  ∀ e ∈ ids.entries, ∀ e' ∈ ids.entries, e ≠ e' → e.key ≠ e'.key

/-- Setting or deleting one entry never changes what is read for another. -/
def Ids.Undisturbed (ids : Ids) : Prop :=
  ∀ e ∈ ids.entries, ∀ e' ∈ ids.entries, e ≠ e' → ∀ (value : Option Val) (dict : Tbl Val),
    get_dict e' (set_dict e value dict) = get_dict e' dict

/-- No DSP id spells out the rest of the key of the list, or of a number of a DSP. -/
def Ids.Free (ids : Ids) : Prop :=
  lit "spall" ∉ ids .dsp ∧ ∀ id ∈ ids .dsp, lit "sp:qps:limit:" ++ id ∉ ids .dsp ∧
    lit "sp:qps:count:" ++ id ∉ ids .dsp ∧ lit "sp:qps:total:" ++ id ∉ ids .dsp

/-! ### When two keys are one -/

/-- The rest of the key of a number, after the letter of a DSP. -/
def Qps.rest : Qps → Str
  | limit => lit "sp:qps:limit:"
  | count => lit "sp:qps:count:"
  | total => lit "sp:qps:total:"

lemma pre_eq (number : Qps) : number.pre = 100 :: number.rest := by
  cases number <;> decide

lemma dspAll_eq : DSP_ALL_SD = 100 :: lit "spall" := by decide

lemma object_key (kind : Kind) (id : Str) : ∃ c : UInt8, (Entry.object kind id).key = c :: id ∧
    kind.shared_dict_pre = [c] ∧ (c = 100 ↔ kind = .dsp) := by
  cases kind
  · exact ⟨97, rfl, by decide, by decide⟩
  · exact ⟨100, rfl, by decide, by decide⟩
  · exact ⟨115, rfl, by decide, by decide⟩

lemma pre_inj {k k' : Kind} (h : k.shared_dict_pre = k'.shared_dict_pre) : k = k' := by
  revert h
  cases k <;> cases k' <;> decide

lemma object_key_inj {k k' : Kind} {a b : Str}
    (h : (Entry.object k a).key = (Entry.object k' b).key) : k = k' ∧ a = b := by
  obtain ⟨c, hc, hpre, -⟩ := object_key k a
  obtain ⟨c', hc', hpre', -⟩ := object_key k' b
  rw [hc, hc', List.cons.injEq] at h
  exact ⟨pre_inj (by rw [hpre, hpre', h.1]), h.2⟩

lemma qps_key_inj {n n' : Qps} {a b : Str} (h : (Entry.qps n a).key = (Entry.qps n' b).key) :
    n = n' ∧ a = b := by
  have hlen : n.pre.length = n'.pre.length := by cases n <;> cases n' <;> decide
  obtain ⟨hpre, hid⟩ := List.append_inj h hlen
  refine ⟨?_, hid⟩
  revert hpre
  cases n <;> cases n' <;> decide

lemma object_qps_key {k : Kind} {n : Qps} {a b : Str} :
    (Entry.object k a).key = (Entry.qps n b).key ↔ k = .dsp ∧ a = n.rest ++ b := by
  obtain ⟨c, hc, -, hdsp⟩ := object_key k a
  rw [hc, Entry.key, pre_eq, List.cons_append, List.cons.injEq, hdsp]

lemma object_dspAll_key {k : Kind} {a : Str} :
    (Entry.object k a).key = Entry.dspAll.key ↔ k = .dsp ∧ a = lit "spall" := by
  obtain ⟨c, hc, -, hdsp⟩ := object_key k a
  rw [hc, Entry.key, dspAll_eq, List.cons.injEq, hdsp]

lemma qps_ne_dspAll (n : Qps) (a : Str) : (Entry.qps n a).key ≠ Entry.dspAll.key := by
  intro h
  have htake := congrArg (List.take 4) h
  have hlen : 4 ≤ n.pre.length := by cases n <;> decide
  rw [Entry.key, Entry.key, List.take_append_of_le_length hlen] at htake
  revert htake
  cases n <;> decide

section ids

variable {ids : Ids}

lemma free_iff : ids.Free ↔ lit "spall" ∉ ids .dsp ∧
    ∀ id ∈ ids .dsp, ∀ n : Qps, n.rest ++ id ∉ ids .dsp := by
  refine and_congr_right fun _ => forall₂_congr fun id _ => ?_
  constructor
  · rintro ⟨hl, hc, ht⟩ n
    cases n
    · exact hl
    · exact hc
    · exact ht
  · intro h
    exact ⟨h .limit, h .count, h .total⟩

lemma apart_iff : ids.Apart ↔ ids.Free := by
  rw [free_iff]
  constructor
  · intro h
    refine ⟨fun hall => ?_, fun id hid n hmem => ?_⟩
    · exact h (.object .dsp (lit "spall")) hall .dspAll trivial (by simp)
        (object_dspAll_key.mpr ⟨rfl, rfl⟩)
    · exact h (.object .dsp (n.rest ++ id)) hmem (.qps n id) hid (by simp)
        (object_qps_key.mpr ⟨rfl, rfl⟩)
  · rintro ⟨hall, hrest⟩ e he e' he' hne hkey
    have hobject : ∀ {k a n b}, a ∈ ids k → b ∈ ids .dsp →
        (Entry.object k a).key ≠ (Entry.qps n b).key := by
      intro k a n b ha hb h
      obtain ⟨rfl, rfl⟩ := object_qps_key.mp h
      exact hrest b hb n ha
    have hlist : ∀ {k a}, a ∈ ids k → (Entry.object k a).key ≠ Entry.dspAll.key := by
      intro k a ha h
      obtain ⟨rfl, rfl⟩ := object_dspAll_key.mp h
      exact hall ha
    cases e with
    | object k a =>
      cases e' with
      | object k' b =>
        obtain ⟨rfl, rfl⟩ := object_key_inj hkey
        exact hne rfl
      | qps n b => exact hobject he he' hkey
      | dspAll => exact hlist he hkey
    | qps n a =>
      cases e' with
      | object k b => exact hobject he' he hkey.symm
      | qps n' b =>
        obtain ⟨rfl, rfl⟩ := qps_key_inj hkey
        exact hne rfl
      | dspAll => exact qps_ne_dspAll n a hkey
    | dspAll =>
      cases e' with
      | object k b => exact hlist he' hkey.symm
      | qps n b => exact qps_ne_dspAll n b hkey.symm
      | dspAll => exact hne rfl

lemma undisturbed_iff : ids.Undisturbed ↔ ids.Apart := by
  constructor
  · intro h e he e' he' hne hkey
    exact get_set_eq hkey.symm Val.null (h e he e' he' hne (some .null) ∅)
  · intro h e he e' he' hne value dict
    exact get_set_ne (h e' he' e he hne.symm) value dict

/-- **The keys are pairwise different, and no write to one entry is read for another, exactly
when no DSP id spells out the rest of a fixed key**: `spall`, or `sp:qps:limit:`, `sp:qps:count:`
or `sp:qps:total:` followed by the id of a DSP. -/
theorem keys_apart_iff (ids : Ids) : ids.Apart ∧ ids.Undisturbed ↔ ids.Free := by
  rw [undisturbed_iff, and_self]
  exact apart_iff

end ids

/-- One DSP, called `spall`. -/
def listNamed : Ids := fun kind => if kind = .dsp then {lit "spall"} else ∅

/-- Storing the DSP `spall` changes what is read for the list of all DSPs. -/
theorem dsp_takes_list_key :
    Entry.object .dsp (lit "spall") ∈ listNamed.entries ∧ Entry.dspAll ∈ listNamed.entries ∧
      get_dict .dspAll (set_dict (.object .dsp (lit "spall")) (some (Val.str (lit "x"))) ∅) =
        some (.str (lit "x")) ∧
      ¬ (listNamed.Apart ∧ listNamed.Undisturbed) := by
  refine ⟨rfl, trivial, by decide, fun h => ?_⟩
  exact h.1 (.object .dsp (lit "spall")) rfl .dspAll trivial (by simp) (by decide)

end Sax.Keyspace
