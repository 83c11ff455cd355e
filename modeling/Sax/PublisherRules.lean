import Sax.BidReq
import Sax.Const

/-!
The rules of the publishers in the application exchange: `get_ad_data` of `saxmob/rtb/impress.lua`
with the request that is built from its lists.

A request may ask for units of several owners. The owner is looked up for the first unit of the
request, and the exclusions are those of the first pending unit.
-/

namespace Sax.PublisherRules

open Sax.LuaVal Sax.Loop Sax.Runtime Sax.BidReq
open Sax.Store (getAttribute getAttribute_eq isValid isValid_eq)
open Sax.Const (OBJECT_STATUS_VALID OBJECT_STATUS_INVALID)

/-! ### `get_ad_data` -/

structure AdData where
  ad_pend_list : List AdUnit
  dsp_white_list : List Str
  ssp_id : Str
  deriving DecidableEq

section source

variable (d : Dict)

def get_ssp_status (id : Str) : Lua (Option ℤ) := getAttribute d.ssp id SspInfo.status
def get_dsp_status (id : Str) : Lua (Option ℤ) := getAttribute d.dsp id DspInfo.status

def get_dsp_id_list : List Str := d.dspall.elim [] (split comma)

/-- The object is in the dictionary and its status is `OBJECT_STATUS_VALID`. -/
def inUse {α : Type} (kind : Str → Option α) (get_status : Str → Lua (Option ℤ)) (id : Str) :
    Lua Bool := do
  if ← isValid kind id then return (← get_status id) = some OBJECT_STATUS_VALID else return false

/-- What a loop with `table.insert` keeps of a list. -/
def select {β : Type} (test : β → Lua Bool) : List β → Lua (List β)
  | [] => .ok []
  | b :: l => do
    let keep ← test b
    let rest ← select test l
    return if keep then b :: rest else rest

/-- The list of units, unless the owner is missing or invalid. -/
def checkSsp (ad_pend_list : List AdUnit) : Option Str → Lua (List AdUnit)
  | none => .ok []
  | some ssp_id => do
    if ← isValid d.ssp ssp_id then
      if (← get_ssp_status d ssp_id) = some OBJECT_STATUS_INVALID then return []
      else return ad_pend_list
    else return []

def get_ad_data (ad_req : AdReq) : Lua AdData := do
  -- get ad unit data
  let ad_pend_list ← select (fun adunit => inUse d.adunit (get_status d) adunit.id) ad_req.adunit_list
  -- get ssp data
  match ad_req.adunit_list with
  | [] => throw .badIndex
  | adunit :: _ =>
    let ssp_id ← get_ssp_id d adunit.id
    let ad_pend_list ← checkSsp d ad_pend_list ssp_id
    -- get dsp data
    let dsp_white_list ← select (inUse d.dsp (get_dsp_status d)) (get_dsp_id_list d)
    return ⟨ad_pend_list, dsp_white_list, ssp_id.getD []⟩

end source

/-! ### The rules -/

section rules

variable (d : Dict)

/-- The parts of a list of exclusions that are not empty. -/
def configured (s : Str) : List Str := (split comma s).filter (· ≠ [])

/-- The owner of the unit is in the dictionary and not invalid. -/
def OwnerFine (info : AdUnitInfo) : Prop :=
  ∃ ssp, d.ssp info.ssp_id = some ssp ∧ ssp.status ≠ OBJECT_STATUS_INVALID

/-- Every unit the body lists has an owner that is in order, and its exclusions are in the body. -/
def RulesKept (body : Body) : Prop :=
  ∀ imp ∈ body.imp, ∃ info, d.adunit imp.id = some info ∧ OwnerFine d info ∧
    (∀ s ∈ configured info.excluded_product_type, s ∈ body.bcat) ∧
    ∀ s ∈ configured info.excluded_landing_url, s ∈ body.badv

/-- The units of a request that are in the dictionary and in use. -/
def usable (adunit_list : List AdUnit) : List AdUnit :=
  adunit_list.filter fun u => (d.adunit u.id).any (·.status = OBJECT_STATUS_VALID)

/-- The owner of every usable unit is in order. -/
def OwnersFine (adunit_list : List AdUnit) : Prop :=
  ∀ u ∈ usable d adunit_list, ∀ info, d.adunit u.id = some info → OwnerFine d info

/-- No usable unit excludes what the first usable one does not. -/
def FirstCovers (adunit_list : List AdUnit) : Prop :=
  ∀ first ∈ (usable d adunit_list).head?, ∀ top, d.adunit first.id = some top →
    ∀ u ∈ usable d adunit_list, ∀ info, d.adunit u.id = some info →
      configured info.excluded_product_type ⊆ configured top.excluded_product_type ∧
        configured info.excluded_landing_url ⊆ configured top.excluded_landing_url

end rules

section spec

variable {d : Dict} {ad_req : AdReq} {data : AdData}

lemma select_ok {β : Type} {test : β → Lua Bool} {p : β → Bool} {l r : List β}
    (htest : ∀ b k, test b = .ok k → k = p b) (h : select test l = .ok r) : r = l.filter p := by
  induction l generalizing r with
  | nil =>
    cases h
    rfl
  | cons b l ih =>
    obtain ⟨keep, hkeep, h⟩ := bind_ok.mp h
    obtain ⟨rest, hrest, h⟩ := bind_ok.mp h
    have hp := htest b keep hkeep
    subst hp
    cases h
    rw [List.filter_cons, ih hrest]

lemma inUse_ok {u : AdUnit} {k : Bool} (h : inUse d.adunit (get_status d) u.id = .ok k) :
    k = (d.adunit u.id).any (·.status = OBJECT_STATUS_VALID) := by
  unfold inUse at h
  rw [isValid_eq, ok_bind, get_status, getAttribute_eq] at h
  cases hinfo : d.adunit u.id with
  | none =>
    rw [hinfo] at h
    cases h
    rfl
  | some info =>
    rw [hinfo] at h
    cases h
    simp

/-- A list that is not empty is the one of the usable units. -/
lemma get_ad_data_pend (h : get_ad_data d ad_req = .ok data) (hne : data.ad_pend_list ≠ []) :
    data.ad_pend_list = usable d ad_req.adunit_list := by
  unfold get_ad_data at h
  obtain ⟨pend, hpend, h⟩ := bind_ok.mp h
  have husable : pend = usable d ad_req.adunit_list := select_ok (fun u k => inUse_ok) hpend
  rw [← husable]
  cases hlist : ad_req.adunit_list with
  | nil =>
    rw [hlist] at h
    cases h
  | cons u us =>
    rw [hlist] at h
    obtain ⟨ssp_id, -, h⟩ := bind_ok.mp h
    obtain ⟨checked, hchecked, h⟩ := bind_ok.mp h
    obtain ⟨white, -, h⟩ := bind_ok.mp h
    cases h
    dsimp only at hne ⊢
    unfold checkSsp at hchecked
    cases ssp_id with
    | none =>
      cases hchecked
      exact absurd rfl hne
    | some s =>
      obtain ⟨valid, -, hchecked⟩ := bind_ok.mp hchecked
      cases valid with
      | false =>
        cases hchecked
        exact absurd rfl hne
      | true =>
        obtain ⟨status, -, hchecked⟩ := bind_ok.mp hchecked
        split at hchecked
        · cases hchecked
          exact absurd rfl hne
        · cases hchecked
          rfl

lemma mem_usable {l : List AdUnit} {u : AdUnit} (h : u ∈ usable d l) :
    ∃ info, d.adunit u.id = some info := by
  have hany := (List.mem_filter.mp h).2
  cases hinfo : d.adunit u.id with
  | none =>
    rw [hinfo] at hany
    cases hany
  | some info => exact ⟨info, rfl⟩

/-- A part that is not empty is in the body exactly when it is excluded. -/
lemma configured_subset_iff {s t : Str} :
    (∀ x ∈ configured s, x ∈ split comma t) ↔ configured s ⊆ configured t := by
  unfold configured
  constructor
  · intro h x hx
    exact List.mem_filter.mpr ⟨h x hx, (List.mem_filter.mp hx).2⟩
  · exact fun h x hx => (List.mem_filter.mp (h hx)).1

end spec

section main

variable {c : Ctx} {data : AdData} {body : Body}

/-- **The rules of the publishers are kept exactly when every usable unit has an owner in order and
the first one excludes what the others do**, for a request that is built from the lists of
`get_ad_data`. -/
theorem rules_kept_iff (h : get_ad_data c.dict c.ad_req = .ok data)
    (hbody : build_body c data.ad_pend_list = .ok body) :
    RulesKept c.dict body ↔
      OwnersFine c.dict c.ad_req.adunit_list ∧ FirstCovers c.dict c.ad_req.adunit_list := by
  obtain ⟨hids, first, top, hhead, htop, hbcat, hbadv⟩ := build_body_ids hbody
  have hne : data.ad_pend_list ≠ [] := by
    intro hnil
    rw [hnil] at hhead
    cases hhead
  rw [get_ad_data_pend h hne] at hids hhead
  -- the body lists the usable units, under their ids
  have hall : ∀ P : Str → Prop, (∀ imp ∈ body.imp, P imp.id) ↔
      ∀ u ∈ usable c.dict c.ad_req.adunit_list, P u.id := by
    intro P
    have himp : (∀ imp ∈ body.imp, P imp.id) ↔ ∀ id ∈ body.imp.map Imp.id, P id :=
      List.forall_mem_map.symm
    rw [himp, hids, List.forall_mem_map]
  unfold RulesKept
  rw [hall fun id => ∃ info, c.dict.adunit id = some info ∧ OwnerFine c.dict info ∧
    (∀ s ∈ configured info.excluded_product_type, s ∈ body.bcat) ∧
      ∀ s ∈ configured info.excluded_landing_url, s ∈ body.badv]
  simp only [hbcat, hbadv, configured_subset_iff]
  constructor
  · intro hkept
    refine ⟨fun u hu info hinfo => ?_, fun first' hfirst' top' htop' u hu info hinfo => ?_⟩
    · obtain ⟨info', hinfo', howner, -⟩ := hkept u hu
      rw [hinfo] at hinfo'
      cases hinfo'
      exact howner
    · obtain ⟨info', hinfo', -, hsubset⟩ := hkept u hu
      rw [hinfo] at hinfo'
      cases hinfo'
      rw [hhead] at hfirst'
      cases hfirst'
      rw [htop] at htop'
      cases htop'
      exact hsubset
  · rintro ⟨howners, hcovers⟩ u hu
    obtain ⟨info, hinfo⟩ := mem_usable hu
    exact ⟨info, hinfo, howners u hu info hinfo, hcovers first hhead top htop u hu info hinfo⟩

end main

section samples

/-- Unit `U` of owner `s`, and unit `V` of the invalid owner `t`, which excludes more. -/
def sampleDict : Dict where
  adunit u := if u = lit "U" then some ⟨1, lit "banner", 1, lit "a", [], some 1, lit "s"⟩
    else if u = lit "V" then
      some ⟨1, lit "banner", 1, lit "a,b", lit "http://x", some 1, lit "t"⟩ else none
  dsp d := if d = lit "2" then some ⟨1, lit "http://b/bid", lit "e", lit "i", 100⟩ else none
  ssp s := if s = lit "s" then some ⟨1⟩ else if s = lit "t" then some ⟨0⟩ else none
  dspall := some (lit "2")
  targeting _ := ⟨none, none, none, none, none⟩

def sampleUnit (id : String) : AdUnit := ⟨lit id, some (lit "320*50")⟩

def sampleCtx (adunit_list : List AdUnit) : Ctx where
  lib := .ofTexts []
  dict := sampleDict
  ad_req := ⟨adunit_list, .num 0, lit "1.1.1.1", [], [], ⟨[], none, none, none⟩, ⟨[], none⟩⟩
  id := lit "b"
  uuid := []
  ssp_id := lit "s"

def sampleData (adunit_list : List AdUnit) : AdData := ⟨adunit_list, [lit "2"], lit "s"⟩

theorem rules_kept_iff_sample :
    ∃ body, build_body (sampleCtx [sampleUnit "U"]) [sampleUnit "U"] = .ok body ∧
      (RulesKept sampleDict body ↔
        OwnersFine sampleDict [sampleUnit "U"] ∧ FirstCovers sampleDict [sampleUnit "U"]) := by
  have hdata : get_ad_data sampleDict (sampleCtx [sampleUnit "U"]).ad_req =
      .ok (sampleData [sampleUnit "U"]) := by decide +kernel
  obtain ⟨body, hbody⟩ : ∃ body, build_body (sampleCtx [sampleUnit "U"]) [sampleUnit "U"] = .ok body :=
    build_body_isOk.mpr ⟨by decide +kernel, by decide +kernel⟩
  exact ⟨body, hbody, rules_kept_iff (c := sampleCtx [sampleUnit "U"]) hdata hbody⟩

/-- With `V` behind `U`, the request lists a unit of an invalid owner. -/
theorem second_owner_unchecked :
    get_ad_data sampleDict (sampleCtx [sampleUnit "U", sampleUnit "V"]).ad_req =
        .ok (sampleData [sampleUnit "U", sampleUnit "V"]) ∧
      ∃ body, build_body (sampleCtx [sampleUnit "U", sampleUnit "V"])
          [sampleUnit "U", sampleUnit "V"] = .ok body ∧
        ¬ RulesKept sampleDict body := by
  obtain ⟨body, hbody⟩ : ∃ body, build_body (sampleCtx [sampleUnit "U", sampleUnit "V"])
      [sampleUnit "U", sampleUnit "V"] = .ok body :=
    build_body_isOk.mpr ⟨by decide +kernel, by decide +kernel⟩
  refine ⟨by decide +kernel, body, hbody, fun h => ?_⟩
  obtain ⟨hids, -⟩ := build_body_ids hbody
  have hmem : lit "V" ∈ body.imp.map Imp.id := by
    rw [hids]
    decide
  obtain ⟨imp, himp, hid⟩ := List.mem_map.mp hmem
  obtain ⟨info, hinfo, ⟨ssp, hssp, hstatus⟩, -⟩ := h imp himp
  rw [hid] at hinfo
  cases hinfo
  cases hssp
  exact hstatus rfl

end samples

end Sax.PublisherRules
