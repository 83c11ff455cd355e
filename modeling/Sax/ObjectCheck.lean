import Sax.Center

/-!
The check of the management input of `saxmob`: `object:attribute_validity_check` and its callers.

The attributes of an object are a table with named fields. `ipairs` runs over the list part of a
table, and `check_funk` is a name that nothing defines, so that of the checks only those of the
names and of the types are made.
-/

namespace Sax.ObjectCheck

open Sax.LuaVal Sax.Loop Sax.Runtime Sax.Center

/-- The marks of the attributes. -/
inductive Mark
  | need
  | none
  | updateInsert
  deriving DecidableEq

/-- A field of an `_attr_manage_end` table. -/
structure Attr where
  mark : Mark
  type : String
  check : Option (Val → Lua Bool)

/-- The tables `{name = {...}, ...}`. -/
abbrev Fields := List (Str × Attr)

structure Object where
  object_name : Str
  attr_manage_end : Option Fields

inductive Kind
  | dsp
  | adunit
  | ssp
  deriving DecidableEq

section source

def Kind.objectName : Kind → Str
  | .dsp => lit "dsp"
  | .adunit => lit "adunit"
  | .ssp => lit "ssp"

def Kind.attr_manage_end : Kind → Fields
  | .dsp => [
      (lit "id", ⟨.need, "string", none⟩),
      (lit "status", ⟨.need, "number", none⟩),
      (lit "name", ⟨.none, "string", none⟩),
      (lit "bid_url", ⟨.need, "string", none⟩),
      (lit "qps", ⟨.none, "number", none⟩),
      (lit "ekey", ⟨.none, "string", none⟩),
      (lit "ikey", ⟨.none, "string", none⟩),
      (lit "timeout", ⟨.none, "number", none⟩)]
  | .adunit => [
      (lit "id", ⟨.need, "string", none⟩),
      (lit "status", ⟨.none, "number", none⟩),
      (lit "type", ⟨.none, "string", none⟩),
      (lit "ad_num", ⟨.none, "number", none⟩),
      (lit "excluded_creative_type", ⟨.none, "string", none⟩),
      (lit "excluded_product_type", ⟨.none, "string", none⟩),
      (lit "excluded_landing_url", ⟨.none, "string", none⟩),
      (lit "min_price", ⟨.none, "number", none⟩),
      (lit "ssp_id", ⟨.none, "string", none⟩)]
  | .ssp => [
      (lit "id", ⟨.updateInsert, "string", none⟩),
      (lit "name", ⟨.none, "string", none⟩),
      (lit "status", ⟨.none, "number", none⟩)]

def new (kind : Kind) : Object := ⟨kind.objectName, some kind.attr_manage_end⟩

/-- The value of a mark: `common/const.lua` defines none of them. -/
def Mark.value : Mark → Option ℚ
  | _ => Option.none

/-- A global variable that is never set. -/
def check_funk : Option (Val → Lua Bool) := none

/-- What `ipairs` runs through: a table with named fields has nothing at the key 1. -/
def ipairsFields (_ : Fields) : List (ℕ × Attr) := []

/-- `attribute_table[i]` of a table with string keys. -/
def itemAt (_ : Tbl Val) (_ : ℕ) : Option Val := none

variable (o : Order) (self : Object)

/-- The first loop of `attribute_validity_check` at an attribute. -/
def attribute_check (object_attributes : Fields) (attr_name : Str) (attr_value : Val) :
    Lua (Except Str Unit) :=
  match object_attributes.lookup attr_name with
  | none => .ok (.error (attr_name ++ lit " is  not a value of " ++ self.object_name))
  | some attr =>
    if typeName attr_value ≠ attr.type then
      .ok (.error (lit "type of attribute " ++ attr_name ++
        lit " is not consitent with sax object: " ++ self.object_name))
    else if check_funk.isSome then
      match attr.check with
      | none => .error (.error "attempt to call a nil value")
      | some check_func => do
        if ← check_func attr_value then return .ok ()
        else return .error (lit "attribute(that is must) missing when udpate sax object: " ++
          self.object_name)
    else .ok (.ok ())

/-- The second loop at an attribute. -/
def missing_check (attribute_table : Tbl Val) (attr_name : ℕ) (attr_value : Attr) :
    Lua (Except Str Unit) :=
  if attr_value.mark.value = Mark.need.value ∧ (itemAt attribute_table attr_name).isNone then
    .ok (.error (lit "attribute(that is must) missing when udpate sax object: " ++
      self.object_name))
  else .ok (.ok ())

def attribute_validity_check (attribute_table : Tbl Val) : Lua (Except Str Unit) := do
  match self.attr_manage_end with
  | none => return .error (lit "no _attr_manage_end table  was found in object " ++ self.object_name)
  | some object_attributes =>
    match ← firstError (fun e => attribute_check self object_attributes e.1 e.2)
        (o.pairs attribute_table) with
    | .error err => return .error err
    | .ok () =>
      firstError (fun e => missing_check self attribute_table e.1 e.2) (ipairsFields object_attributes)

def object_table (name : Str) : Option Kind :=
  [Kind.dsp, .adunit, .ssp].find? fun kind => kind.objectName = name

/-- `worker.object_validity_check`; the method ignores its last argument. -/
def object_validity_check (object_name : Str) (attribute_table : Tbl Val) (_is_update : Bool) :
    Lua (Except Str Unit) :=
  match object_table object_name with
  | none => .ok (.error (object_name ++ lit "is not a object"))
  | some kind => attribute_validity_check o (new kind) attribute_table

/-- `master.content_parse` at a content, which has the flag `is_exist` after it; `exist` is the
answer of the database. -/
def content_check (lib : Ngx) (exist : Val → Except Str Bool) (object_name : Str) (is_delete : Bool)
    (content : Tbl Val) : Lua (Except Str Bool) := do
  match content.get (lit "id") with
  | none | some (.bool false) => return .error (lit "id of object missing")
  | some id =>
    match exist id with
    | .error err_info =>
      return .error (lit "Failed to check info of object(id = " ++
        (← checkString lib.tostring id) ++ lit ") in db, details: " ++ err_info)
    | .ok is_exist =>
      if is_delete then return .ok is_exist
      else match ← object_validity_check o object_name content is_exist with
        | .error err =>
          return .error (lit "object(id = " ++ (← checkString lib.tostring id) ++
            lit ") info is invalid, details: " ++ err)
        | .ok () => return .ok is_exist

end source

/-! ### What an accepted table should be -/

section spec

variable (attrs : Fields) (t : Tbl Val)

/-- Every attribute is known and of its declared type. -/
def WellTyped : Prop :=
  ∀ name v, t.get name = some v → ∃ attr, attrs.lookup name = some attr ∧ typeName v = attr.type

/-- Every declared check accepts the value of its attribute, and what is marked as needed is there. -/
structure Complete : Prop where
  checked : ∀ name v attr, t.get name = some v → attrs.lookup name = some attr →
    ∀ check ∈ attr.check, check v = .ok true
  needed : ∀ name attr, attrs.lookup name = some attr → attr.mark = .need → t.get name ≠ none

end spec

section check

variable {o : Order} {self : Object} {attrs : Fields} {t : Tbl Val}

lemma attribute_check_ok {name : Str} {v : Val} :
    attribute_check self attrs name v = .ok (.ok ()) ↔
      ∃ attr, attrs.lookup name = some attr ∧ typeName v = attr.type := by
  unfold attribute_check
  cases attrs.lookup name with
  | none => simp
  | some attr => by_cases htype : typeName v = attr.type <;> simp [htype, check_funk]

/-- **A table is accepted for its names and its types alone.** -/
theorem accepted_iff (hattrs : self.attr_manage_end = some attrs) :
    attribute_validity_check o self t = .ok (.ok ()) ↔ WellTyped attrs t := by
  have hloop : firstError (fun e => attribute_check self attrs e.1 e.2) (o.pairs t) =
      .ok (.ok ()) ↔ WellTyped attrs t := by
    rw [firstError_ok]
    simp only [attribute_check_ok]
    exact ⟨fun h name v hget => h ⟨name, v⟩ (o.mem_pairs.mpr hget),
      fun h e he => h e.1 e.2 (o.mem_pairs.mp he)⟩
  rw [← hloop, attribute_validity_check, hattrs]
  dsimp only
  rw [bind_ok]
  constructor
  · rintro ⟨r, hr, h⟩
    cases r with
    | error err => cases h
    | ok _ => exact hr
  · exact fun h => ⟨_, h, rfl⟩

/-- **An accepted table is sound exactly when it is complete**: a check that accepts only sound
tables would have refused the other well-typed tables. -/
theorem accepts_only_sound_iff (hattrs : self.attr_manage_end = some attrs) :
    (attribute_validity_check o self t = .ok (.ok ()) → WellTyped attrs t ∧ Complete attrs t) ↔
      ¬ WellTyped attrs t ∨ Complete attrs t := by
  rw [accepted_iff hattrs]
  constructor
  · intro h
    by_cases htyped : WellTyped attrs t
    · exact .inr (h htyped).2
    · exact .inl htyped
  · rintro (htyped | hcomplete) h
    · exact absurd h htyped
    · exact ⟨h, hcomplete⟩

end check

/-! ### The kinds of objects -/

section kinds

variable {o : Order} {t : Tbl Val}

/-- The names that are marked as needed. -/
def Kind.needed (kind : Kind) : List Str :=
  (kind.attr_manage_end.filter fun e => e.2.mark = .need).map Prod.fst

lemma check_none (kind : Kind) {name : Str} {attr : Attr}
    (h : kind.attr_manage_end.lookup name = some attr) : (name, attr) ∈ kind.attr_manage_end ∧
      attr.check = none := by
  have hmem : (name, attr) ∈ kind.attr_manage_end := by
    obtain ⟨l, l', hl, -⟩ := List.lookup_eq_some_iff.mp h
    rw [hl]
    simp
  have hall : ∀ e ∈ kind.attr_manage_end, e.2.check.isNone := by
    cases kind <;> decide
  exact ⟨hmem, Option.isNone_iff_eq_none.mp (hall _ hmem)⟩

/-- No kind declares a check, so a table is complete when the names that are needed are in it. -/
theorem complete_iff (kind : Kind) :
    Complete kind.attr_manage_end t ↔ ∀ name ∈ kind.needed, t.get name ≠ none := by
  constructor
  · intro h name hname
    have hlookup : ∀ name ∈ kind.needed,
        (kind.attr_manage_end.lookup name).map Attr.mark = some .need := by
      cases kind <;> decide
    obtain ⟨attr, hattr, hmark⟩ := Option.map_eq_some_iff.mp (hlookup name hname)
    exact h.needed name attr hattr hmark
  · intro h
    refine ⟨fun name v attr _ hattr check hcheck => ?_, fun name attr hattr hmark => ?_⟩
    · rw [(check_none kind hattr).2] at hcheck
      cases hcheck
    · refine h name (List.mem_map.mpr ⟨(name, attr), ?_, rfl⟩)
      exact List.mem_filter.mpr ⟨(check_none kind hattr).1, by simpa using hmark⟩

example : Kind.ssp.needed = [] := by decide

/-- What a request is known to have when it is carried out. -/
theorem content_check_ok {lib : Ngx} {exist : Val → Except Str Bool} {object_name : Str} {b : Bool}
    (h : content_check o lib exist object_name false t = .ok (.ok b)) :
    ∃ kind, object_table object_name = some kind ∧ WellTyped kind.attr_manage_end t ∧
      t.get (lit "id") ≠ none := by
  unfold content_check at h
  split at h
  · cases h
  · cases h
  · next id _ hid =>
    split at h
    · obtain ⟨text, -, h⟩ := bind_ok.mp h
      cases h
    · next is_exist _ =>
      obtain ⟨r, hr, h⟩ := bind_ok.mp h
      cases r with
      | error err =>
        obtain ⟨text, -, h⟩ := bind_ok.mp h
        cases h
      | ok _ =>
        unfold object_validity_check at hr
        split at hr
        · cases hr
        · next kind hkind =>
          exact ⟨kind, hkind, (accepted_iff rfl).mp hr, by simp [hid]⟩

end kinds

section samples

theorem accepts_only_sound_iff_sample :
    (attribute_validity_check .plain (new .dsp) ∅ = .ok (.ok ()) →
        WellTyped Kind.dsp.attr_manage_end ∅ ∧ Complete Kind.dsp.attr_manage_end ∅) ↔
      ¬ WellTyped Kind.dsp.attr_manage_end ∅ ∨ Complete Kind.dsp.attr_manage_end ∅ :=
  accepts_only_sound_iff rfl

/-- A new DSP with nothing but its id is accepted; its status and its bid URL are needed. -/
theorem bare_id_accepted :
    attribute_validity_check .plain (new .dsp) ((∅ : Tbl Val).insert (lit "id") (.str (lit "d1"))) =
        .ok (.ok ()) ∧
      ¬ Complete Kind.dsp.attr_manage_end ((∅ : Tbl Val).insert (lit "id") (.str (lit "d1"))) := by
  refine ⟨by decide +kernel, fun h => ?_⟩
  exact h.needed (lit "status") ⟨.need, "number", none⟩ rfl rfl (by decide +kernel)

end samples

end Sax.ObjectCheck
