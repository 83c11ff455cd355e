import Sax.ObjectCheck
import Sax.ObjectInfo
import Sax.SaxmobRtb

/-!
The records of the objects of `saxmob`: `object:trans_form_info` and the `_attr_mem` tables of
`saxmob/bdm`.

The loop reads the type of an attribute into `data_type` and asks for `dataType`, a name that
nothing defines, so that a value that is neither null nor empty stays as the database delivers
it.
-/

namespace Sax.Schema

open Sax.LuaVal Sax.Loop Sax.Runtime
open Sax.ObjectCheck (Kind)
open Sax.ObjectInfo (Cell Row)
open Sax.Center (typeName)

/-- A line of an `_attr_mem` table. -/
structure Attr where
  index : ℕ
  data_type : String
  null_ok : Bool
  default_value : Option Val
  trans_form_func : Option (Val → Lua Val)

section source

def attr_mem : Kind → List (String × Attr)
  | .adunit => [
      ("id", ⟨1, "string", false, none, none⟩),
      ("status", ⟨2, "number", true, some (.num 1), none⟩),
      ("type", ⟨3, "string", true, some (.str []), none⟩),
      ("ad_num", ⟨4, "number", true, some (.num 1), none⟩),
      ("excluded_creative_type", ⟨5, "string", true, some (.str []), none⟩),
      ("excluded_product_type", ⟨6, "string", true, some (.str []), none⟩),
      ("excluded_landing_url", ⟨7, "string", true, some (.str []), none⟩),
      ("min_price", ⟨8, "number", true, some (.str []), none⟩),
      ("ssp_id", ⟨9, "number", true, some (.str []), none⟩)]
  | .dsp => [
      ("id", ⟨1, "number", false, none, none⟩),
      ("name", ⟨2, "string", true, some (.str (lit "anonymous")), none⟩),
      ("status", ⟨3, "number", false, none, none⟩),
      ("bid_url", ⟨4, "string", false, none, none⟩),
      ("qps", ⟨5, "number", true, some (.num 0), none⟩),
      ("ekey", ⟨6, "string", true, some (.str []), none⟩),
      ("ikey", ⟨7, "string", true, some (.str []), none⟩),
      ("timeout", ⟨8, "number", false, none, none⟩)]
  | .ssp => [
      ("id", ⟨1, "string", false, none, none⟩),
      ("name", ⟨2, "string", true, some (.str []), none⟩),
      ("status", ⟨3, "number", true, some (.num 1), none⟩)]

/-- What the select statements ask for. -/
def columns : Kind → List String
  | .adunit => ["id", "status", "type", "ad_num", "excluded_creative_type",
      "excluded_product_type", "excluded_landing_url", "min_price", "ssp_id"]
  | .dsp => ["id", "name", "status", "qps", "bid_url", "ekey", "ikey", "timeout"]
  | .ssp => ["id", "name", "status"]

def objectName : Kind → String
  | .adunit => "adunit"
  | .dsp => "dsp"
  | .ssp => "ssp"

/-- A row as the query returns it. -/
def select (kind : Kind) (row : Row) : List (String × Cell) :=
  (columns kind).map fun c => (c, row.col c)

/-- A cell as a value. -/
def value : Cell → Val
  | .null => .null
  | .num q => .num q
  | .str s => .str s

/-- A global variable that is never set. -/
def dataType : Option String := none

/-- The last branches, with `val` another variable that is never set. -/
def convert (v : Cell) : Lua Val :=
  if dataType = some "table" then .error .badIndex
  else if dataType = some "string" then .ok (value v)
  else if dataType = some "number" then .error .badArgument
  else .ok (value v)

def isNull (key : String) (kind : Kind) : LuaError :=
  .error ("attribute: " ++ key ++ " of " ++ objectName kind ++ " is null, that is illegal!")

/-- The loop body of `trans_form_info`: what `info[key]` is after it. An empty value is put back
as it is, whatever the default. `tran_form_func` is no function either. -/
def trans_form_attr (kind : Kind) (e : String × Cell) : Lua (String × Option Val) :=
  match (attr_mem kind).lookup e.1 with
  | none => .error (isNull e.1 kind)
  | some attr =>
    match e.2 with
    | .null =>
      if attr.null_ok then .ok (e.1, attr.default_value) else .error (isNull e.1 kind)
    | .str [] => .ok (e.1, some (.str []))
    | v =>
      match attr.trans_form_func with
      | some _ => .error (.error "attempt to call global 'tran_form_func' (a nil value)")
      | none => do return (e.1, some (← convert v))

/-- `object:trans_form_info`: the attributes in the order `pairs` runs through them. -/
def trans_form_info (o : Order) (kind : Kind) (info : List (String × Cell)) :
    Lua (List (String × Val)) := do
  let result ← (o.visit info).mapM (trans_form_attr kind)
  return result.filterMap fun e => e.2.map fun v => (e.1, v)

end source

/-! ### What a record holds -/

/-- What stands in a record for a cell. -/
def kept (attr : Attr) (v : Cell) : Option Val :=
  if v = .null then attr.default_value else some (value v)

section record

variable {o : Order} {kind : Kind} {row : Row} {name : String} {attr : Attr}
  {record : List (String × Val)}

lemma lookup_of_nodup {β : Type} {l : List (String × β)} {k : String} {b : β}
    (hl : (l.map Prod.fst).Nodup) (h : (k, b) ∈ l) : l.lookup k = some b := by
  rw [List.lookup_eq_some_iff]
  obtain ⟨l₁, l₂, rfl⟩ := List.append_of_mem h
  refine ⟨l₁, l₂, rfl, fun p hp => ?_⟩
  rw [List.map_append, List.map_cons, List.nodup_append] at hl
  have hne := hl.2.2 p.1 (List.mem_map_of_mem hp) k List.mem_cons_self
  simpa using Ne.symm hne

lemma names_nodup (kind : Kind) : ((attr_mem kind).map Prod.fst).Nodup := by
  cases kind <;> decide

/-- The statements ask for the attributes and nothing else. -/
lemma columns_perm (kind : Kind) : (columns kind).Perm ((attr_mem kind).map Prod.fst) := by
  cases kind <;> decide

lemma func_none (h : (name, attr) ∈ attr_mem kind) : attr.trans_form_func = none := by
  have hall : ∀ e ∈ attr_mem kind, e.2.trans_form_func = none := by
    cases kind <;> simp [attr_mem]
  exact hall _ h

/-- **The defaults**: a nullable attribute has one, of the type it declares but for two
attributes of the ad units. -/
lemma default_typed (h : (name, attr) ∈ attr_mem kind) (hnull : attr.null_ok) :
    ∃ v, attr.default_value = some v ∧
      (typeName v = attr.data_type ↔ name ≠ "min_price" ∧ name ≠ "ssp_id") := by
  have hall : ∀ e ∈ attr_mem kind, e.2.null_ok → ∃ v, e.2.default_value = some v ∧
      (typeName v = e.2.data_type ↔ e.1 ≠ "min_price" ∧ e.1 ≠ "ssp_id") := by
    cases kind <;> simp [attr_mem, typeName]
  exact hall _ h hnull

/-- **What the loop does with an attribute.** -/
lemma trans_form_attr_eq (h : (name, attr) ∈ attr_mem kind) (v : Cell) :
    trans_form_attr kind (name, v) =
      if v = .null ∧ ¬ attr.null_ok then .error (isNull name kind)
      else .ok (name, kept attr v) := by
  have hfind := lookup_of_nodup (names_nodup kind) h
  unfold trans_form_attr kept
  simp only [hfind, func_none h]
  cases v with
  | null => cases attr.null_ok <;> simp
  | num q => simp [convert, dataType, value]
  | str s =>
    cases s with
    | nil => simp [value]
    | cons c s => simp [convert, dataType, value]

lemma exists_attr {e : String × Cell} (he : e ∈ select kind row) :
    ∃ attr, (e.1, attr) ∈ attr_mem kind ∧ e.2 = row.col e.1 := by
  obtain ⟨c, hc, rfl⟩ := List.mem_map.mp he
  obtain ⟨⟨name, attr⟩, hattr, rfl⟩ := List.mem_map.mp ((columns_perm kind).mem_iff.mp hc)
  exact ⟨attr, hattr, rfl⟩

lemma mem_select (h : (name, attr) ∈ attr_mem kind) : (name, row.col name) ∈ select kind row :=
  List.mem_map.mpr ⟨name, (columns_perm kind).mem_iff.mpr (List.mem_map_of_mem h), rfl⟩

lemma select_names : (select kind row).map Prod.fst = columns kind := by
  simp [select, Function.comp_def]

lemma mem_visit {e : String × Cell} : e ∈ o.visit (select kind row) ↔ e ∈ select kind row :=
  (o.visit_perm _).mem_iff

/-- Some attribute that may not be null is null. -/
def Refused (kind : Kind) (row : Row) : Prop :=
  ∃ e ∈ attr_mem kind, ¬ e.2.null_ok ∧ row.col e.1 = .null

/-- A row is refused exactly for a null where none may be. -/
lemma trans_form_info_isOk :
    (∃ record, trans_form_info o kind (select kind row) = .ok record) ↔ ¬ Refused kind row := by
  have hstep : ∀ e ∈ o.visit (select kind row), ∀ attr, (e.1, attr) ∈ attr_mem kind →
      ((∃ b, trans_form_attr kind e = .ok b) ↔ ¬ (¬ attr.null_ok ∧ row.col e.1 = .null)) := by
    rintro ⟨name, v⟩ he attr hattr
    obtain ⟨-, -, hv⟩ := exists_attr (mem_visit.mp he)
    rw [trans_form_attr_eq hattr, ← hv]
    split
    · next h => simp [h.1, h.2]
    · next h => simp only [Except.ok.injEq, exists_eq', true_iff]; exact fun hn => h ⟨hn.2, hn.1⟩
  unfold trans_form_info
  simp only [bind_isOk, pure_ok, exists_eq', and_true, mapM_isOk]
  constructor
  · rintro h ⟨⟨name, attr⟩, hattr, hnull⟩
    have hmem : (name, row.col name) ∈ o.visit (select kind row) :=
      mem_visit.mpr (mem_select hattr)
    exact (hstep _ hmem attr hattr).mp (h _ hmem) hnull
  · intro h e he
    obtain ⟨attr, hattr, -⟩ := exists_attr (mem_visit.mp he)
    exact (hstep e he attr hattr).mpr fun hnull => h ⟨_, hattr, hnull⟩

lemma trans_form_attr_name {e : String × Cell} {b : String × Option Val}
    (h : trans_form_attr kind e = .ok b) : b.1 = e.1 := by
  obtain ⟨name, v⟩ := e
  unfold trans_form_attr at h
  split at h
  · cases h
  · next attr _ =>
    cases v with
    | null =>
      simp only at h
      split at h <;> cases h
      rfl
    | num q =>
      cases hf : attr.trans_form_func <;> simp only [hf] at h <;> cases h
      rfl
    | str s =>
      cases s with
      | nil => cases h; rfl
      | cons c s =>
        cases hf : attr.trans_form_func <;> simp only [hf] at h <;> cases h
        rfl

lemma kept_isSome (h : (name, attr) ∈ attr_mem kind) {v : Cell}
    (hv : ¬ (v = .null ∧ ¬ attr.null_ok)) : ∃ x, kept attr v = some x := by
  unfold kept
  split
  · next hnull =>
    obtain ⟨x, hx, -⟩ := default_typed h (by_contra fun hn => hv ⟨hnull, hn⟩)
    exact ⟨x, hx⟩
  · exact ⟨_, rfl⟩

/-- **The record of a row** has each attribute as the loop left it. -/
theorem record_lookup (h : trans_form_info o kind (select kind row) = .ok record)
    (hattr : (name, attr) ∈ attr_mem kind) :
    ∃ x, kept attr (row.col name) = some x ∧ record.lookup name = some x := by
  have hok : ¬ (row.col name = .null ∧ ¬ attr.null_ok) := fun hnull =>
    trans_form_info_isOk.mp ⟨record, h⟩ ⟨_, hattr, hnull.2, hnull.1⟩
  obtain ⟨x, hx⟩ := kept_isSome hattr hok
  obtain ⟨result, hresult, h⟩ := bind_ok.mp h
  cases h
  obtain ⟨b, hb, hstep⟩ := mem_mapM hresult (mem_visit.mpr (mem_select hattr))
  rw [trans_form_attr_eq hattr, if_neg hok] at hstep
  cases hstep
  refine ⟨x, hx, lookup_of_nodup ?_ (List.mem_filterMap.mpr ⟨_, hb, by rw [hx]; rfl⟩)⟩
  -- the loop sets no attribute twice
  have hnames : (result.map Prod.fst).Nodup := by
    rw [mapM_map_eq (fun _ _ => trans_form_attr_name) hresult,
      ((o.visit_perm (select kind row)).map Prod.fst).nodup_iff, select_names]
    exact (columns_perm kind).nodup_iff.mpr (names_nodup kind)
  rw [List.Nodup, List.pairwise_map] at hnames ⊢
  refine hnames.filterMap _ ?_
  rintro ⟨k, v⟩ ⟨k', v'⟩ hne _ hv _ hv'
  obtain ⟨_, -, rfl⟩ := Option.map_eq_some_iff.mp hv
  obtain ⟨_, -, rfl⟩ := Option.map_eq_some_iff.mp hv'
  exact hne

end record

/-! ### Conformity -/

/-- The floor of an ad unit, where its record has a number for it. -/
def floorOf (record : List (String × Val)) : Option ℚ :=
  match record.lookup "min_price" with
  | some (.num q) => some q
  | _ => none

/-- Every attribute has the type its line declares. -/
def HasTypes (kind : Kind) (record : List (String × Val)) : Prop :=
  ∀ e ∈ attr_mem kind, ∃ x, record.lookup e.1 = some x ∧ typeName x = e.2.data_type

/-- No bid on an ad unit with this record makes the extraction compare its price with something
that is no number. -/
def FloorCompares (record : List (String × Val)) : Prop :=
  ∀ (c : SaxmobRtb.Ctx) dsp_id bid_content, c.adunit bid_content.id = some (floorOf record) →
    SaxmobRtb.keep c dsp_id bid_content ≠ .error .badCompare

/-- The row is refused, or its record is as the schema declares it. -/
def Conforms (o : Order) (kind : Kind) (row : Row) : Prop :=
  ∀ record, trans_form_info o kind (select kind row) = .ok record →
    HasTypes kind record ∧ (kind = .adunit → FloorCompares record)

/-- Every value is delivered in the type declared, and neither of the two number columns whose
default is a string is null. -/
def Delivered (kind : Kind) (row : Row) : Prop :=
  ∀ e ∈ attr_mem kind,
    if row.col e.1 = .null then e.1 ≠ "min_price" ∧ e.1 ≠ "ssp_id"
    else typeName (value (row.col e.1)) = e.2.data_type

section conforms

variable {o : Order} {kind : Kind} {row : Row} {record : List (String × Val)}

lemma floorCompares (h : trans_form_info o .adunit (select .adunit row) = .ok record)
    (htypes : HasTypes .adunit record) : FloorCompares record := by
  intro c dsp_id bid_content hunit herr
  have hattr : ("min_price", ⟨8, "number", true, some (.str []), none⟩) ∈ attr_mem .adunit := by
    simp [attr_mem]
  obtain ⟨x, hx, htype⟩ := htypes _ hattr
  obtain ⟨y, hy, hlookup⟩ := record_lookup h hattr
  dsimp only at hx hlookup
  have hfloor : ∃ q, floorOf record = some q := by
    unfold floorOf
    rw [hx, Option.some.injEq] at hlookup
    subst hlookup
    rw [hx]
    cases hcell : row.col "min_price" with
    | null =>
      rw [hcell] at hy
      cases hy
      simp [typeName] at htype
    | num q =>
      rw [hcell] at hy
      cases hy
      exact ⟨q, rfl⟩
    | str s =>
      rw [hcell] at hy
      cases hy
      simp [value, typeName] at htype
  obtain ⟨q, hq⟩ := hfloor
  have hunit' : SaxmobRtb.get_min_price c bid_content.id = .ok (some q) := by
    rw [SaxmobRtb.get_min_price, Store.getInfoSD_eq, hunit, hq]
    rfl
  rw [SaxmobRtb.keep, hunit'] at herr
  cases herr

/-- A record has the types declared exactly when its row was delivered in them. -/
theorem hasTypes_iff (h : trans_form_info o kind (select kind row) = .ok record) :
    HasTypes kind record ↔ Delivered kind row := by
  refine forall₂_congr fun e hattr => ?_
  obtain ⟨x, hx, hlookup⟩ := record_lookup h hattr
  rw [hlookup]
  simp only [Option.some.injEq, exists_eq_left']
  unfold kept at hx
  split
  · next hnull =>
    have hok : e.2.null_ok := by_contra fun hn =>
      trans_form_info_isOk.mp ⟨record, h⟩ ⟨e, hattr, hn, hnull⟩
    obtain ⟨d, hd, hiff⟩ := default_typed hattr hok
    rw [if_pos hnull, hd, Option.some.injEq] at hx
    rw [← hx, hiff]
  · next hne =>
    rw [if_neg hne, Option.some.injEq] at hx
    rw [← hx]

/-- **A row conforms exactly when it is refused or delivered as declared.** -/
theorem conforms_iff (o : Order) (kind : Kind) (row : Row) :
    Conforms o kind row ↔ Refused kind row ∨ Delivered kind row := by
  constructor
  · intro h
    by_cases hnull : Refused kind row
    · exact .inl hnull
    · obtain ⟨record, hrecord⟩ := (trans_form_info_isOk (o := o)).mpr hnull
      exact .inr ((hasTypes_iff hrecord).mp (h record hrecord).1)
  · intro h record hrecord
    have hdelivered := h.resolve_left (trans_form_info_isOk.mp ⟨record, hrecord⟩)
    have htypes := (hasTypes_iff hrecord).mpr hdelivered
    refine ⟨htypes, fun hkind => ?_⟩
    subst hkind
    exact floorCompares hrecord htypes

/-- An ad unit without a minimum price. -/
def unpricedUnit : Row :=
  [("id", .str (lit "u1")), ("status", .num 1), ("type", .str (lit "banner")), ("ad_num", .num 1),
    ("ssp_id", .num 7)]

/-- Its record has the empty string for the price, and a bid on it raises. -/
theorem null_floor_breaks : ¬ Conforms .plain .adunit unpricedUnit ∧
    ∃ record, trans_form_info .plain .adunit (select .adunit unpricedUnit) = .ok record ∧
      ¬ FloorCompares record := by
  have hfloor : ∀ record, floorOf record = none → ¬ FloorCompares record := by
    intro record hnone hfloor
    exact hfloor ⟨.ofTexts [], [], fun _ => some none⟩ [] ⟨[], 1, []⟩ (congrArg some hnone.symm) rfl
  refine ⟨fun h => ?_, _, rfl, hfloor _ rfl⟩
  exact hfloor _ rfl ((h _ rfl).2 rfl)

end conforms

end Sax.Schema
