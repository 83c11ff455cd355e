import Sax.Upsert

/-!
What the check of the attributes says about the statement that is written.

`attributeValidityCheck` looks at a copy of the table with its keys in lower case, where one of two
spellings of a name hides the other. The statement is made of the table itself, with both.
-/

namespace Sax.Columns

open Sax.LuaVal Sax.Loop Sax.Runtime Sax.ObjectInfo Sax.Center Sax.Upsert

/-! ### A statement and its pairs -/

section spec

variable (lib : Ngx)

/-- The type of the value a literal stands for. -/
def typeOf : Literal → String
  | .number _ => "number"
  | .name _ | .negated _ => "number"
  | .quoted _ => "string"

/-- The pairs of a statement; the id of a row that is updated or deleted stands in its condition. -/
def pairs : Statement → List (Str × Literal)
  | .update id setBlock => (lit "id", id) :: setBlock
  | .insert columns => columns
  | .delete id => [(lit "id", id)]

/-- The attributes that an operation cannot do without. -/
def mandatory (attr : ManageAttr) (isUpdate : Bool) : Bool :=
  attr.required = .updateInsert || !isUpdate && attr.required = .insert

/-- A literal of the type of an attribute that passes its check. -/
structure Passes (attr : ManageAttr) (l : Literal) : Prop where
  type : typeOf l = attr.type
  check : ∀ check ∈ attr.check, ∀ v, l = .quoted v → check lib v = .ok true

/-- **A statement is sound**: its pairs are of attributes of the object, whose checks they pass, no
two of one attribute, and what the operation cannot do without is there. -/
structure Sound (attrs : List ManageAttr) (isUpdate : Bool) (l : List (Str × Literal)) : Prop where
  known : ∀ e ∈ l, ∃ attr ∈ attrs, lit attr.name = lower e.1 ∧ Passes lib attr e.2
  single : (l.map fun e => lower e.1).Nodup
  present : ∀ attr ∈ attrs, mandatory attr isUpdate → ∃ e ∈ l, lower e.1 = lit attr.name

/-- No two keys of a table have one lower-case spelling. -/
def OneSpelling (attributeTable : Tbl Val) : Prop :=
  ∀ k v k' v', attributeTable.get k = some v → attributeTable.get k' = some v' →
    lower k = lower k' → k = k'

end spec

/-! ### What the check accepts -/

section check

variable {lib : Ngx} {o : Order} {kind : Kind} {attrs : List ManageAttr} {t : Tbl Val}
  {isUpdate : Bool} {k : Str} {v : Val}

/-- An attribute without an error is known, and a literal of its value passes. -/
lemma attributeCheck_ok (h : attributeCheck lib kind attrs k v = .ok (.ok ())) :
    ∃ attr ∈ attrs, lit attr.name = k ∧ ∀ l, literal lib v = .ok l → Passes lib attr l := by
  unfold attributeCheck at h
  split at h
  · cases h
  · next attr hfind =>
    refine ⟨attr, List.mem_of_find?_eq_some hfind, by simpa using List.find?_some hfind, ?_⟩
    split at h
    · cases h
    · next htype =>
      rw [not_not] at htype
      intro l hl
      cases v with
      | num q =>
        rw [Center.literal] at hl
        split_ifs at hl <;> cases hl <;> exact ⟨htype, fun _ _ _ hquoted => by cases hquoted⟩
      | str s =>
        cases hl
        refine ⟨htype, fun check hcheck v hquoted => ?_⟩
        cases hquoted
        rw [Option.mem_def.mp hcheck] at h
        obtain ⟨b, hb, h⟩ := bind_ok.mp h
        cases b with
        | true => exact hb
        | false => cases h
      | null => cases hl
      | nan =>
        cases hl
        exact ⟨htype, fun _ _ _ hquoted => by cases hquoted⟩
      | bool b => cases hl
      | table a g => cases hl

/-- What is hidden by another spelling is not looked at. -/
lemma attributeValidityCheck_ok (h : attributeValidityCheck lib o kind t isUpdate = .ok (.ok ())) :
    ∃ attrs, attr_manage_end kind = some attrs ∧
      (∀ k v, (lowered o t).get k = some v → attributeCheck lib kind attrs k v = .ok (.ok ())) ∧
      ∀ attr ∈ attrs, mandatory attr isUpdate → ∃ v, (lowered o t).get (lit attr.name) = some v := by
  unfold attributeValidityCheck at h
  split at h
  · cases h
  · next attrs hattrs =>
    obtain ⟨r, hchecks, h⟩ := bind_ok.mp h
    cases r with
    | error errInfo => cases h
    | ok _ =>
      refine ⟨attrs, hattrs, fun k v hget => ?_, fun attr hattr hmandatory => ?_⟩
      · exact firstError_ok.mp hchecks ⟨k, v⟩ (o.mem_pairs.mpr hget)
      · by_contra hnone
        have hmissing : attrs.any (fun attr => (Tbl.get (lowered o t) (lit attr.name)).isNone &&
            (attr.required = .updateInsert || !isUpdate && attr.required = .insert)) = true := by
          rw [List.any_eq_true]
          refine ⟨attr, hattr, Bool.and_eq_true_iff.mpr ⟨?_, hmandatory⟩⟩
          rw [Option.isNone_iff_eq_none, Option.eq_none_iff_forall_ne_some]
          exact fun v hv => hnone ⟨v, hv⟩
        dsimp only at h
        rw [if_pos hmissing] at h
        cases h

lemma mem_lowered (h : (lowered o t).get k = some v) : ∃ k', lower k' = k ∧ t.get k' = some v := by
  obtain ⟨⟨k', v'⟩, hmem, heq⟩ := List.mem_map.mp (Tbl.mem_of_get_putAll h)
  cases heq
  exact ⟨k', rfl, o.mem_pairs.mp hmem⟩

/-- With one spelling for each name nothing is hidden. -/
lemma lowered_get (hone : OneSpelling t) (h : t.get k = some v) :
    (lowered o t).get (lower k) = some v := by
  obtain ⟨v', -, hget⟩ := Tbl.get_putAll_mem (t := (∅ : Tbl Val)) (k := lower k)
    ⟨(lower k, v), List.mem_map_of_mem (f := fun e : Sigma fun _ : Str => Val => (lower e.1, e.2))
      (o.mem_pairs.mpr h), rfl⟩
  obtain ⟨k', hlower, hget'⟩ := mem_lowered hget
  rw [hone k' v' k v hget' h hlower, h, Option.some.injEq] at hget'
  rw [hget']
  exact hget

end check

/-! ### What is written -/

section written

variable {lib : Ngx} {o : Order} {kind : Kind} {content : Parsed} {st : Statement}

/-- The pairs of a statement are those of its content. -/
lemma mem_pairs (hid : content.attrs.get (lit "id") = some content.id)
    (h : statement lib o content = .ok st) {e : Str × Literal} :
    e ∈ pairs st ↔ ∃ v, content.attrs.get e.1 = some v ∧ literal lib v = .ok e.2 := by
  by_cases hexist : content.isExist
  · obtain ⟨l, t, -, hl, ht, rfl⟩ := (statement_update hexist).mp h
    rw [pairs, List.mem_cons, mem_columnListParse hl]
    simp only [listed_iff, Listed]
    constructor
    · rintro (rfl | ⟨v, ⟨hget, -⟩, hv⟩)
      · exact ⟨_, hid, ht⟩
      · exact ⟨v, hget, hv⟩
    · rintro ⟨v, hget, hv⟩
      by_cases hkey : e.1 = lit "id"
      · left
        rw [hkey, hid, Option.some.injEq] at hget
        rw [← hget, ht, Except.ok.injEq] at hv
        exact Prod.ext hkey hv.symm
      · exact .inr ⟨v, ⟨hget, hkey⟩, hv⟩
  · obtain ⟨l, hl, rfl⟩ := (statement_insert hexist).mp h
    exact mem_columnListParse hl

/-- All values of the content can be written. -/
lemma literal_isOk (hid : content.attrs.get (lit "id") = some content.id)
    (h : statement lib o content = .ok st) {k : Str} {v : Val}
    (hget : content.attrs.get k = some v) : ∃ l, literal lib v = .ok l := by
  by_cases hexist : content.isExist
  · obtain ⟨l, t, -, hl, ht, rfl⟩ := (statement_update hexist).mp h
    by_cases hkey : k = lit "id"
    · rw [hkey, hid, Option.some.injEq] at hget
      exact ⟨t, hget ▸ ht⟩
    · exact columnListParse_isOk.mp ⟨l, hl⟩ k v (listed_iff.mpr ⟨hget, hkey⟩)
  · obtain ⟨l, hl, rfl⟩ := (statement_insert hexist).mp h
    exact columnListParse_isOk.mp ⟨l, hl⟩ k v hget

/-- The pairs are of different attributes exactly when the keys have different spellings. -/
lemma pairs_nodup (hid : content.attrs.get (lit "id") = some content.id)
    (h : statement lib o content = .ok st) :
    ((pairs st).map fun e => lower e.1).Nodup ↔ OneSpelling content.attrs := by
  by_cases hexist : content.isExist
  · obtain ⟨l, t, -, hl, -, rfl⟩ := (statement_update hexist).mp h
    rw [pairs, List.map_cons, List.nodup_cons, columnListParse_nodup hl]
    simp only [listed_iff, Listed]
    constructor
    · rintro ⟨hother, hone⟩ k v k' v' hk hk' heq
      have hne : ∀ k v, content.attrs.get k = some v → k ≠ lit "id" → lower k ≠ lower (lit "id") := by
        intro k v hk hkey heq
        obtain ⟨t, ht⟩ := columnListParse_isOk.mp ⟨l, hl⟩ k v (listed_iff.mpr ⟨hk, hkey⟩)
        refine hother (List.mem_map.mpr ⟨(k, t), (mem_columnListParse hl).mpr ⟨v, ?_, ht⟩, heq⟩)
        exact listed_iff.mpr ⟨hk, hkey⟩
      by_cases hkey : k = lit "id"
      · subst hkey
        by_contra hkk
        exact hne k' v' hk' (Ne.symm hkk) heq.symm
      · by_cases hkey' : k' = lit "id"
        · subst hkey'
          exact absurd heq (hne k v hk hkey)
        · exact hone k v k' v' ⟨hk, hkey⟩ ⟨hk', hkey'⟩ heq
    · intro hone
      refine ⟨fun hmem => ?_, fun k v k' v' hk hk' => hone k v k' v' hk.1 hk'.1⟩
      obtain ⟨e, he, heq⟩ := List.mem_map.mp hmem
      obtain ⟨v, hv, -⟩ := (mem_columnListParse hl).mp he
      obtain ⟨hget, hkey⟩ := listed_iff.mp hv
      exact hkey (hone e.1 v (lit "id") _ hget hid heq)
  · obtain ⟨l, hl, rfl⟩ := (statement_insert hexist).mp h
    exact columnListParse_nodup hl

/-- **The statement for an accepted table is sound exactly when no two keys of the table have one
lower-case spelling**, for every object and table, and every order in which `pairs` runs. -/
theorem written_sound_iff
    (haccept : attributeValidityCheck lib o kind content.attrs content.isExist = .ok (.ok ()))
    (hid : content.attrs.get (lit "id") = some content.id)
    (hst : statement lib o content = .ok st) :
    Sound lib ((attr_manage_end kind).getD []) content.isExist (pairs st) ↔
      OneSpelling content.attrs := by
  obtain ⟨attrs, hattrs, hchecked, hpresent⟩ := attributeValidityCheck_ok haccept
  rw [hattrs, Option.getD_some]
  refine ⟨fun h => (pairs_nodup hid hst).mp h.single, fun hone => ⟨fun e he => ?_,
    (pairs_nodup hid hst).mpr hone, fun attr hattr hmandatory => ?_⟩⟩
  · obtain ⟨v, hget, hv⟩ := (mem_pairs hid hst).mp he
    obtain ⟨attr, hattr, hname, hpasses⟩ := attributeCheck_ok (hchecked _ v (lowered_get hone hget))
    exact ⟨attr, hattr, hname, hpasses _ hv⟩
  · obtain ⟨v, hv⟩ := hpresent attr hattr hmandatory
    obtain ⟨k, hlower, hget⟩ := mem_lowered hv
    obtain ⟨l, hl⟩ := literal_isOk hid hst hget
    exact ⟨(k, l), (mem_pairs hid hst).mpr ⟨v, hget, hl⟩, hlower⟩

end written

/-! ### A request -/

section request

variable {lib : Ngx} {o : Order} {kind : Kind} {σ : Type} {engine : Engine σ}
  {fails : Point → Option Str} {db : σ}

/-- What a request makes sure of before it writes. -/
lemma contentParse_accepts {objectName : Str} {contentList : List Content} {contents : List Parsed}
    (h : contentParse lib o engine fails objectName contentList false db =
      .ok (.ok (kind, contents))) :
    ∀ content ∈ contents, content.attrs.get (lit "id") = some content.id ∧
      attributeValidityCheck lib o kind content.attrs content.isExist = .ok (.ok ()) := by
  refine contentParse_forall (fun content i parsed hcheck => ?_) h
  obtain ⟨hid, -, -, hvalid⟩ := contentCheck_passed hcheck
  exact ⟨hid, hvalid rfl⟩

end request

section samples

/-- A network, with a second spelling of its status if there is one. -/
def sampleNetwork (other : List (Str × Val)) : Parsed :=
  ⟨(∅ : Tbl Val).putAll ([(lit "id", .num 1), (lit "url", .str (lit "http://n")),
    (lit "status", .num 1)] ++ other), .num 1, true⟩

theorem written_sound_iff_sample : ∃ st,
    statement (Ngx.ofTexts []) .plain (sampleNetwork []) = .ok st ∧
      (Sound (Ngx.ofTexts []) ((attr_manage_end .network).getD []) true (pairs st) ↔
        OneSpelling (sampleNetwork []).attrs) := by
  obtain ⟨st, hst⟩ := exists_ok
    (show (statement (Ngx.ofTexts []) .plain (sampleNetwork [])).isOk by decide +kernel)
  exact ⟨st, hst, written_sound_iff  (by decide +kernel)
    (by decide +kernel) hst⟩

/-- `status` hides `STATUS` from the check, and the statement sets both. -/
theorem hidden_spelling_written :
    attributeValidityCheck (Ngx.ofTexts []) .plain .network
        (sampleNetwork [(lit "STATUS", .str (lit "x"))]).attrs true = .ok (.ok ()) ∧
      ∃ st, statement (Ngx.ofTexts []) .plain (sampleNetwork [(lit "STATUS", .str (lit "x"))]) = .ok st ∧
        (lit "STATUS", .quoted (lit "x")) ∈ pairs st ∧
        ¬ Sound (Ngx.ofTexts []) ((attr_manage_end .network).getD []) true (pairs st) := by
  obtain ⟨st, hst⟩ := exists_ok (show (statement (Ngx.ofTexts []) .plain
    (sampleNetwork [(lit "STATUS", .str (lit "x"))])).isOk by decide +kernel)
  have hmem : (lit "STATUS", .quoted (lit "x")) ∈ pairs st :=
    (mem_pairs (by decide +kernel) hst).mpr ⟨.str (lit "x"), by decide +kernel, rfl⟩
  refine ⟨by decide +kernel, st, hst, hmem, fun h => ?_⟩
  obtain ⟨attr, hattr, hname, htype, -⟩ := h.known _ hmem
  have hnumber : ∀ attr ∈ (attr_manage_end .network).getD [],
      lit attr.name = lower (lit "STATUS") → attr.type = "number" := by decide +kernel
  rw [hnumber attr hattr hname] at htype
  exact absurd htype (by decide)

end samples

end Sax.Columns
