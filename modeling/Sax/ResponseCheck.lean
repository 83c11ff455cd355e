import Sax.SaxmobRtb

/-!
The check of a response in `saxmob/rtb/rtb.lua`, `get_bid_result`, on every JSON value.

A check goes through, finds fault by one of its own texts, or stops at a value that cannot be
indexed. `Judges` says which of the three happens; it composes along the checks one makes after
another and along the loops over the entries.
-/

namespace Sax.ResponseCheck

open Sax.LuaVal Sax.Loop Sax.Runtime Sax.Extract Sax.BidRsp Sax.SaxmobRtb

/-- A JSON value. -/
inductive Json
  | null
  | bool (b : Bool)
  | num (q : ℚ)
  | str (s : Str)
  | arr (l : List Json)
  | obj (fields : List (Str × Json))

namespace Json

/-! What `cjson.decode` makes of a value: of two fields with one key the last one stays. -/

mutual

def val : Json → Val
  | null => .null
  | bool b => .bool b
  | num q => .num q
  | str s => .str s
  | arr l => .table (valArr l) []
  | obj fields => .table [] (valObj fields)

def valArr : List Json → List Val
  | [] => []
  | j :: l => j.val :: valArr l

def valObj : List (Str × Json) → List (Str × Val)
  | [] => []
  | (k, j) :: fields =>
    if k ∈ fields.map Prod.fst then valObj fields else (k, j.val) :: valObj fields

end

/-- The last field with the key. -/
def lastOf (k : Str) : List (Str × Json) → Option Json
  | [] => none
  | (k', j) :: fields =>
    match lastOf k fields with
    | some j' => some j'
    | none => if k' = k then some j else none

/-- The field `k` of an object. -/
def get (k : String) : Json → Option Json
  | obj fields => lastOf (lit k) fields
  | _ => none

/-- The entries of a list. -/
def list : Json → Option (List Json)
  | arr l => some l
  | _ => none

/-- What `ipairs` runs through where `type` says `"table"`: an object has no entries. -/
def entries : Json → Option (List Json)
  | arr l => some l
  | obj _ => some []
  | _ => none

/-- A value that cannot be indexed. -/
def Scalar : Json → Prop
  | null => True
  | bool _ => True
  | num _ => True
  | _ => False

lemma valArr_eq (l : List Json) : valArr l = l.map val := by
  induction l with
  | nil => rfl
  | cons j l ih => rw [valArr, ih, List.map_cons]

lemma lastOf_eq_none {k : Str} {fields : List (Str × Json)} :
    lastOf k fields = none ↔ k ∉ fields.map Prod.fst := by
  induction fields with
  | nil => simp [lastOf]
  | cons e fields ih =>
    obtain ⟨k', j⟩ := e
    rw [lastOf, List.map_cons, List.mem_cons, not_or, ← ih]
    cases lastOf k fields with
    | some j' => simp
    | none => simp [eq_comm]

lemma lookup_valObj (k : Str) (fields : List (Str × Json)) :
    (valObj fields).lookup k = (lastOf k fields).map val := by
  induction fields with
  | nil => rfl
  | cons e fields ih =>
    obtain ⟨k', j⟩ := e
    rw [valObj, lastOf]
    by_cases hk : k = k'
    · subst hk
      split
      · next hmem =>
        rw [ih]
        cases h : lastOf k fields with
        | some j' => rfl
        | none => exact absurd hmem (lastOf_eq_none.mp h)
      · next hmem => simp [lastOf_eq_none.mpr hmem]
    · have hb : (k == k') = false := by simpa using hk
      rw [apply_ite (List.lookup k), List.lookup_cons, hb, ite_self, ih]
      cases lastOf k fields with
      | some j' => rfl
      | none => simp [Ne.symm hk]

lemma field_val {j : Json} (h : ¬ j.Scalar) (k : String) :
    field k (some j.val) = .ok ((j.get k).map val) := by
  cases j with
  | str s => simp [val, field, get]
  | arr l => simp [val, field, get]
  | obj fields => rw [val, field, lookup_valObj, get]
  | _ => exact absurd trivial h

lemma field_scalar {j : Json} (h : j.Scalar) (k : String) :
    field k (some j.val) = .error .badIndex ∧ j.get k = none := by
  cases j <;> first | exact h.elim | exact ⟨by simp [val, field], rfl⟩

end Json

/-! ### How a check ends -/

/-- The check goes through on what is good, stops at what is bad, and has a text for the
rest. -/
structure Judges {α : Type} (r : Lua α) (good bad : Prop) : Prop where
  ok : good → ∃ a, r = .ok a
  index : bad → r = .error .badIndex
  message : ¬ good → ¬ bad → ∃ msg, r = .error (.error msg)

/-- The first entry of a list that is not good is bad. -/
def FirstBad {α : Type} (good bad : α → Prop) : List α → Prop
  | [] => False
  | a :: l => bad a ∨ (good a ∧ FirstBad good bad l)

namespace Judges

variable {α β : Type} {r : Lua α} {good bad good' bad' : Prop}

lemma congr (h : Judges r good bad) (hgood : good ↔ good') (hbad : bad ↔ bad') :
    Judges r good' bad' := by
  rwa [← hgood, ← hbad]

lemma good_of_ok (h : Judges r good bad) {a : α} (ha : r = .ok a) : good := by
  by_contra hgood
  by_cases hbad : bad
  · rw [h.index hbad] at ha; cases ha
  · obtain ⟨msg, hmsg⟩ := h.message hgood hbad
    rw [hmsg] at ha; cases ha

lemma isOk_iff (h : Judges r good bad) : (∃ a, r = .ok a) ↔ good :=
  ⟨fun ⟨_, ha⟩ => h.good_of_ok ha, h.ok⟩

/-- Its errors are its own texts exactly when there is nothing bad. -/
lemma messages_iff (h : Judges r good bad) :
    (∀ e, r = .error e → ∃ msg, e = .error msg) ↔ ¬ bad := by
  constructor
  · intro herr hbad
    obtain ⟨msg, hmsg⟩ := herr _ (h.index hbad)
    cases hmsg
  · intro hbad e he
    by_cases hgood : good
    · obtain ⟨a, ha⟩ := h.ok hgood
      rw [ha] at he; cases he
    · obtain ⟨msg, hmsg⟩ := h.message hgood hbad
      rw [hmsg] at he
      exact ⟨msg, (Except.error.inj he).symm⟩

/-- One check after another. -/
lemma bind {f : α → Lua β} (h : Judges r good bad)
    (h' : ∀ a, r = .ok a → Judges (f a) good' bad') :
    Judges (r >>= f) (good ∧ good') (bad ∨ (good ∧ bad')) := by
  refine ⟨fun ⟨hg, hg'⟩ => ?_, fun hb => ?_, fun hg hb => ?_⟩
  · obtain ⟨a, ha⟩ := h.ok hg
    rw [ha]
    exact (h' a ha).ok hg'
  · rcases hb with hb | ⟨hg, hb⟩
    · rw [h.index hb]; rfl
    · obtain ⟨a, ha⟩ := h.ok hg
      rw [ha]
      exact (h' a ha).index hb
  · rw [not_or, not_and] at hb
    by_cases hgood : good
    · obtain ⟨a, ha⟩ := h.ok hgood
      rw [ha]
      exact (h' a ha).message (fun hg' => hg ⟨hgood, hg'⟩) (hb.2 hgood)
    · obtain ⟨msg, hmsg⟩ := h.message hgood hb.1
      rw [hmsg]
      exact ⟨msg, rfl⟩

lemma pure (a : α) : Judges (Pure.pure a : Lua α) True False :=
  ⟨fun _ => ⟨a, rfl⟩, False.elim, fun h => absurd trivial h⟩

/-- A check of every entry. -/
lemma mapM {γ : Type} {f : α → Lua β} {v : γ → α} {good bad : γ → Prop} (l : List γ)
    (h : ∀ x ∈ l, Judges (f (v x)) (good x) (bad x)) :
    Judges ((l.map v).mapM f) (∀ x ∈ l, good x) (FirstBad good bad l) := by
  induction l with
  | nil => exact (pure []).congr (by simp) Iff.rfl
  | cons x l ih =>
    obtain ⟨hx, hl⟩ := List.forall_mem_cons.mp h
    rw [List.map_cons, List.mapM_cons]
    refine (hx.bind fun b _ => (ih hl).bind fun t _ => pure (b :: t)).congr ?_ ?_
    · rw [and_true, List.forall_mem_cons]
    · rw [and_false, or_false]; rfl

end Judges

/-! ### The checks -/

section checks

variable {j : Json} {k msg : String}

open Json

lemma stringField_judges :
    Judges (stringField k msg (some j.val)) (∃ s, j.get k = some (.str s)) j.Scalar := by
  refine ⟨fun ⟨s, hs⟩ => ?_, fun hj => ?_, fun hgood hj => ?_⟩
  · have hj : ¬ j.Scalar := fun hj => by simp [(field_scalar hj k).2] at hs
    refine ⟨s, ?_⟩
    rw [stringField, field_val hj, hs]
    rfl
  · rw [stringField, (field_scalar hj k).1]
    rfl
  · refine ⟨msg, ?_⟩
    rw [stringField, field_val hj]
    cases h : j.get k with
    | none => rfl
    | some x =>
      cases x with
      | str s => exact absurd ⟨s, h⟩ hgood
      | _ => rfl

lemma numberField_judges :
    Judges (numberField k msg (some j.val)) (∃ q, j.get k = some (.num q)) j.Scalar := by
  refine ⟨fun ⟨q, hq⟩ => ?_, fun hj => ?_, fun hgood hj => ?_⟩
  · have hj : ¬ j.Scalar := fun hj => by simp [(field_scalar hj k).2] at hq
    refine ⟨(Double.double q : ℚ), ?_⟩
    rw [numberField, field_val hj, hq]
    rfl
  · rw [numberField, (field_scalar hj k).1]
    rfl
  · refine ⟨msg, ?_⟩
    rw [numberField, field_val hj]
    cases h : j.get k with
    | none => rfl
    | some x =>
      cases x with
      | num q => exact absurd ⟨q, h⟩ hgood
      | _ => rfl

/-- The entries of the field `k`. -/
def entriesAt (k : String) (j : Json) : Option (List Json) := (j.get k).bind entries

lemma tableField_judges :
    Judges (tableField k msg (some j.val)) (∃ l, entriesAt k j = some l) j.Scalar ∧
      ∀ a, tableField k msg (some j.val) = .ok a → ∃ l, entriesAt k j = some l ∧ a = l.map val := by
  have hstop : j.Scalar → tableField k msg (some j.val) = .error .badIndex ∧
      entriesAt k j = none := by
    intro hj
    obtain ⟨hfield, hget⟩ := field_scalar hj k
    exact ⟨by rw [tableField, hfield]; rfl, by rw [entriesAt, hget]; rfl⟩
  have hgo : ¬ j.Scalar → (∃ l, entriesAt k j = some l ∧
        tableField k msg (some j.val) = .ok (l.map val)) ∨
      entriesAt k j = none ∧ tableField k msg (some j.val) = .error (.error msg) := by
    intro hj
    rw [tableField, field_val hj, entriesAt]
    cases j.get k with
    | none => exact .inr ⟨rfl, rfl⟩
    | some x =>
      cases x with
      | arr l => exact .inl ⟨l, rfl, by rw [← valArr_eq]; simp [val]⟩
      | obj fields => exact .inl ⟨[], rfl, by simp [val]⟩
      | _ => exact .inr ⟨rfl, rfl⟩
  by_cases hj : j.Scalar
  · obtain ⟨herr, hnone⟩ := hstop hj
    refine ⟨⟨fun ⟨l, hl⟩ => ?_, fun _ => herr, fun _ hn => absurd hj hn⟩, fun a ha => ?_⟩
    · rw [hnone] at hl; cases hl
    · rw [herr] at ha; cases ha
  · rcases hgo hj with ⟨l, hl, hok⟩ | ⟨hnone, herr⟩
    · refine ⟨⟨fun _ => ⟨_, hok⟩, fun h => absurd h hj, fun h => absurd ⟨l, hl⟩ h⟩, ?_⟩
      intro a ha
      rw [hok] at ha
      cases ha
      exact ⟨l, hl, rfl⟩
    · refine ⟨⟨fun ⟨l, hl⟩ => ?_, fun h => absurd h hj, fun _ _ => ⟨msg, herr⟩⟩, fun a ha => ?_⟩
      · rw [hnone] at hl; cases hl
      · rw [herr] at ha; cases ha

lemma firstBad_entries {good bad : Json → Prop} :
    (∃ l, entriesAt k j = some l ∧ FirstBad good bad l) ↔
      ∃ l, j.get k = some (.arr l) ∧ FirstBad good bad l := by
  unfold entriesAt
  constructor
  · rintro ⟨l, hl, hbad⟩
    obtain ⟨x, hx, hl⟩ := Option.bind_eq_some_iff.mp hl
    cases x with
    | arr l' => cases hl; exact ⟨_, hx, hbad⟩
    | obj fields => cases hl; exact hbad.elim
    | _ => cases hl
  · rintro ⟨l, hl, hbad⟩
    exact ⟨l, by rw [hl]; rfl, hbad⟩

/-- A list and the check of its entries. -/
lemma entries_judges {β γ : Type} {f : Val → Lua β} {g : List β → Lua γ} {good bad : Json → Prop}
    (h : ∀ x, Judges (f (val x)) (good x) (bad x)) (hg : ∀ r, Judges (g r) True False) :
    Judges (tableField k msg (some j.val) >>= fun a => a.mapM f >>= g)
      (∃ l, entriesAt k j = some l ∧ ∀ x ∈ l, good x)
      (j.Scalar ∨ ∃ l, j.get k = some (.arr l) ∧ FirstBad good bad l) := by
  have hloop : ∀ a, tableField k msg (some j.val) = .ok a → Judges (a.mapM f >>= g)
      (∀ l, entriesAt k j = some l → ∀ x ∈ l, good x)
      (∃ l, entriesAt k j = some l ∧ FirstBad good bad l) := by
    intro a ha
    obtain ⟨l, hl, rfl⟩ := tableField_judges.2 a ha
    refine ((Judges.mapM l fun x _ => h x).bind fun r _ => hg r).congr ?_ ?_
    · simp [hl]
    · simp [hl]
  refine (tableField_judges.1.bind hloop).congr ?_ ?_
  · constructor
    · rintro ⟨⟨l, hl⟩, hall⟩
      exact ⟨l, hl, hall l hl⟩
    · rintro ⟨l, hl, hall⟩
      refine ⟨⟨l, hl⟩, fun l' hl' => ?_⟩
      rw [hl] at hl'
      cases hl'
      exact hall
  · rw [firstBad_entries]
    refine or_congr_right ⟨fun h => h.2, fun h => ⟨?_, h⟩⟩
    obtain ⟨l, hl, -⟩ := h
    exact ⟨l, by rw [entriesAt, hl]; rfl⟩

end checks

/-! ### Responses -/

open Json

/-- String markup and string id. -/
def IsAd (ad : Json) : Prop :=
  (∃ s, ad.get "markup" = some (.str s)) ∧ ∃ s, ad.get "id" = some (.str s)

/-- A string id, a number price and a list `ad` of ads; `list` says what counts as a list. -/
def IsBid (list : Json → Option (List Json)) (bid : Json) : Prop :=
  (∃ s, bid.get "id" = some (.str s)) ∧ (∃ q, bid.get "price" = some (.num q)) ∧
    ∃ l, (bid.get "ad").bind list = some l ∧ ∀ ad ∈ l, IsAd ad

/-- The field `k` is a number that is read as `cm`. -/
def NumberAt (k : String) (cm : ℚ) (j : Json) : Prop :=
  ∃ q, j.get k = some (.num q) ∧ Double.double q = cm

/-- The id of the request, a `cm` among `cms`, and a list `bid` of bids. -/
def IsResponse (list : Json → Option (List Json)) (cms : List ℚ) (id : Str) (j : Json) : Prop :=
  j.get "id" = some (.str id) ∧ (∃ cm ∈ cms, NumberAt "cm" cm j) ∧
    ∃ l, (j.get "bid").bind list = some l ∧ ∀ bid ∈ l, IsBid list bid

/-- The checks of a bid come upon a value that cannot be indexed. -/
def BadBid (bid : Json) : Prop :=
  bid.Scalar ∨ ((∃ s, bid.get "id" = some (.str s)) ∧ (∃ q, bid.get "price" = some (.num q)) ∧
    ∃ l, bid.get "ad" = some (.arr l) ∧ FirstBad IsAd Scalar l)

/-- The checks of a response come upon a value that cannot be indexed. -/
def BadResponse (id : Str) (j : Json) : Prop :=
  j.get "id" = some (.str id) ∧ NumberAt "cm" 0 j ∧
    ∃ l, j.get "bid" = some (.arr l) ∧ FirstBad (IsBid entries) BadBid l

lemma check_ad_judges (ad : Json) : Judges (check_ad ad.val) (IsAd ad) ad.Scalar := by
  unfold check_ad
  refine (stringField_judges.bind fun _ _ => stringField_judges.bind fun _ _ =>
    Judges.pure _).congr ?_ ?_
  · rw [and_true]; rfl
  · tauto

lemma check_ad_content_judges (bid : Json) :
    Judges (check_ad_content bid.val) (IsBid entries bid) (BadBid bid) := by
  unfold check_ad_content
  refine (stringField_judges.bind fun id _ => numberField_judges.bind fun price _ =>
    entries_judges check_ad_judges fun r => Judges.pure _).congr Iff.rfl ?_
  unfold BadBid
  tauto

section result

variable {c : SaxmobRtb.Ctx} {rsp : Rsp} {j : Json}

lemma get_bid_result_eq (hdecode : c.lib.cjson_decode rsp.body = .ok j.val)
    (hid : j.get "id" = some (.str c.id)) (hcm : NumberAt "cm" 0 j) :
    get_bid_result c rsp =
      (tableField "bid" "invalid field bid" (some j.val) >>= fun bid =>
        bid.mapM check_ad_content >>= pure) := by
  have hj : ¬ j.Scalar := fun hj => by simp [(field_scalar hj "id").2] at hid
  have htable : j.val.isTable := by
    cases j with
    | obj fields => simp [val, Val.isTable]
    | _ => cases hid
  obtain ⟨q, hcm, hzero⟩ := hcm
  unfold get_bid_result Ngx.decode
  simp [hdecode, htable, field_val hj, hid, hcm, hzero, val]

lemma get_bid_result_refuses (hdecode : c.lib.cjson_decode rsp.body = .ok j.val)
    (h : ¬ (j.get "id" = some (.str c.id) ∧ NumberAt "cm" 0 j)) :
    ∃ msg, get_bid_result c rsp = .error (.error msg) := by
  unfold get_bid_result Ngx.decode
  by_cases htable : j.val.isTable
  · have hj : ¬ j.Scalar := by
      intro hj
      cases j <;> first | exact hj.elim | simp [val, Val.isTable] at htable
    simp only [hdecode, htable, if_true, field_val hj, ok_bind]
    cases hid : j.get "id" with
    | none => exact ⟨_, rfl⟩
    | some x =>
      cases x with
      | str id =>
        by_cases hne : id = c.id
        · subst hne
          simp only [Option.map_some, val, if_true]
          cases hcm : j.get "cm" with
          | none => exact ⟨_, rfl⟩
          | some y =>
            cases y with
            | num cm =>
              have hne : Double.double cm ≠ 0 := fun h0 => h ⟨hid, cm, hcm, h0⟩
              simp only [Option.map_some, val, hne, if_false]
              exact ⟨_, rfl⟩
            | _ => exact ⟨_, rfl⟩
        · simp only [Option.map_some, val, hne, if_false]
          exact ⟨_, rfl⟩
      | _ => exact ⟨_, rfl⟩
  · simp only [hdecode, ok_bind, htable]
    exact ⟨_, rfl⟩

/-- **How the check of a response ends.** -/
theorem get_bid_result_judges (hdecode : c.lib.cjson_decode rsp.body = .ok j.val) :
    Judges (get_bid_result c rsp) (IsResponse entries [0] c.id j) (BadResponse c.id j) := by
  by_cases h : j.get "id" = some (.str c.id) ∧ NumberAt "cm" 0 j
  · obtain ⟨hid, hcm⟩ := h
    have hj : ¬ j.Scalar := fun hj => by simp [(field_scalar hj "id").2] at hid
    rw [get_bid_result_eq hdecode hid hcm]
    refine (entries_judges check_ad_content_judges Judges.pure).congr ?_ ?_
    · simp [IsResponse, entriesAt, hid, hcm]
    · simp [BadResponse, hid, hcm, hj]
  · obtain ⟨msg, hmsg⟩ := get_bid_result_refuses hdecode h
    refine ⟨fun hgood => ?_, fun hbad => absurd ⟨hbad.1, hbad.2.1⟩ h, fun _ _ => ⟨msg, hmsg⟩⟩
    obtain ⟨hid, ⟨cm, hmem, hcm⟩, -⟩ := hgood
    rw [List.mem_singleton.mp hmem] at hcm
    exact absurd ⟨hid, hcm⟩ h

end result

/-! ### Exactness -/

/-- The response is accepted exactly when it is one, what is raised otherwise is a text of the
check, and a response that raises is rejected. -/
def Checks (c : SaxmobRtb.Ctx) (rsp : Rsp) (j : Json) : Prop :=
  ((∃ bid, get_bid_result c rsp = .ok bid) ↔ IsResponse list [0, 1] c.id j) ∧
    ∀ e, get_bid_result c rsp = .error e →
      (∃ msg, e = .error msg) ∧ ∀ s dsp_id, (rtb c).rsp s (dsp_id, rsp) = .ok s

/-- An object stands where the bids or the ads of a bid must be listed. -/
def ObjectForList (j : Json) : Prop :=
  (∃ fields, j.get "bid" = some (.obj fields)) ∨
    ∃ l, j.get "bid" = some (.arr l) ∧ ∃ bid ∈ l, ∃ fields, bid.get "ad" = some (.obj fields)

section exactness

variable {c : SaxmobRtb.Ctx} {rsp : Rsp} {id : Str} {j : Json} {cms : List ℚ}

lemma bind_list {x : Option Json} {l : List Json} : x.bind list = some l ↔ x = some (.arr l) := by
  rw [Option.bind_eq_some_iff]
  constructor
  · rintro ⟨j, rfl, hl⟩
    cases j <;> cases hl
    rfl
  · rintro rfl
    exact ⟨_, rfl, rfl⟩

lemma IsBid.entries {bid : Json} (h : IsBid list bid) : IsBid entries bid := by
  obtain ⟨hid, hprice, l, hl, hall⟩ := h
  exact ⟨hid, hprice, l, by rw [bind_list.mp hl]; rfl, hall⟩

lemma IsResponse.entries (h : IsResponse list cms id j) : IsResponse entries cms id j := by
  obtain ⟨hid, hcm, l, hl, hall⟩ := h
  exact ⟨hid, hcm, l, by rw [bind_list.mp hl]; rfl, fun bid hbid => (hall bid hbid).entries⟩

lemma IsResponse.not_object (h : IsResponse list cms id j) : ¬ ObjectForList j := by
  obtain ⟨-, -, l, hl, hall⟩ := h
  rw [bind_list] at hl
  rintro (⟨fields, hf⟩ | ⟨l', hl', bid, hbid, fields, hf⟩)
  · rw [hl] at hf; cases hf
  · rw [hl] at hl'
    cases hl'
    obtain ⟨-, -, ads, hads, -⟩ := hall bid hbid
    rw [bind_list, hf] at hads
    cases hads

/-- Without such objects only lists pass for lists. -/
lemma IsResponse.of_entries (h : IsResponse Json.entries cms id j) (hobj : ¬ ObjectForList j) :
    IsResponse list cms id j := by
  obtain ⟨hid, hcm, l, hl, hall⟩ := h
  obtain ⟨x, hx, hl⟩ := Option.bind_eq_some_iff.mp hl
  cases x with
  | arr l' =>
    cases hl
    refine ⟨hid, hcm, l, bind_list.mpr hx, fun bid hbid => ?_⟩
    obtain ⟨hbid', hprice, ads, hads, hads'⟩ := hall bid hbid
    obtain ⟨y, hy, hads⟩ := Option.bind_eq_some_iff.mp hads
    cases y with
    | arr ads' =>
      cases hads
      exact ⟨hbid', hprice, ads, bind_list.mpr hy, hads'⟩
    | obj fields => exact absurd (.inr ⟨l, hx, bid, hbid, fields, hy⟩) hobj
    | _ => cases hads
  | obj fields => exact absurd (.inl ⟨fields, hx⟩) hobj
  | _ => cases hl

lemma isResponse_cms : IsResponse list [0, 1] id j ↔
    IsResponse list [0] id j ∨ IsResponse list [1] id j := by
  simp only [IsResponse, List.mem_cons, List.not_mem_nil, or_false, exists_eq_or_imp,
    exists_eq_left]
  rw [or_and_right, and_or_left]

/-- A `cm` has one value. -/
lemma IsResponse.cm_ne (h0 : IsResponse Json.entries [0] id j) (h1 : IsResponse list [1] id j) :
    False := by
  obtain ⟨-, ⟨cm, hmem, hcm⟩, -⟩ := h0
  obtain ⟨-, ⟨cm', hmem', hcm'⟩, -⟩ := h1
  obtain ⟨q, hq, rfl⟩ := hcm
  obtain ⟨q', hq', rfl⟩ := hcm'
  rw [List.mem_singleton] at hmem hmem'
  rw [hq, Option.some.injEq, Json.num.injEq] at hq'
  rw [hq', hmem'] at hmem
  simp at hmem

lemma rsp_rejects {e : LuaError} (h : get_bid_result c rsp = .error e)
    (s : Extracted Kept) (dsp_id : Str) : (rtb c).rsp s (dsp_id, rsp) = .ok s := by
  unfold Copy.rsp
  split
  · have hnone : (rtb c).getBidResult rsp = .error e := by
      show (get_bid_result c rsp >>= _) = _
      rw [h]
      rfl
    simp only [hnone]
  · rfl

/-- **The check is exact** but where a response has `cm` 1, where an object passes for a list,
and where an entry of a list cannot be indexed. -/
theorem checks_iff (hdecode : c.lib.cjson_decode rsp.body = .ok j.val) :
    Checks c rsp j ↔ ¬ IsResponse list [1] c.id j ∧
      ¬ (IsResponse Json.entries [0] c.id j ∧ ObjectForList j) ∧ ¬ BadResponse c.id j := by
  have hjudges := get_bid_result_judges hdecode
  unfold Checks
  rw [hjudges.isOk_iff, isResponse_cms, ← hjudges.messages_iff]
  constructor
  · rintro ⟨hiff, hmsg⟩
    refine ⟨fun h1 => (hiff.mpr (.inr h1)).cm_ne h1, fun ⟨h0, hobj⟩ => ?_,
      fun e he => (hmsg e he).1⟩
    rcases hiff.mp h0 with h | h
    · exact h.not_object hobj
    · exact h.not_object hobj
  · rintro ⟨hone, hobj, hmsg⟩
    refine ⟨⟨fun h0 => .inl (h0.of_entries fun h => hobj ⟨h0, h⟩), fun h => ?_⟩,
      fun e he => ⟨hmsg e he, rsp_rejects he⟩⟩
    exact (h.resolve_right hone).entries

end exactness

/-- A response that asks for cookie mapping and has no bids. -/
def cmResponse : Json :=
  .obj [(lit "id", .str (lit "r1")), (lit "cm", .num 1), (lit "bid", .arr [])]

def cmText : String := "\x7b\"id\":\"r1\",\"cm\":1,\"bid\":[]\x7d"

def cmCtx : SaxmobRtb.Ctx := ⟨.ofTexts [(cmText, cmResponse.val)], lit "r1", fun _ => none⟩

theorem checks_iff_cm : Checks cmCtx ⟨200, lit cmText⟩ cmResponse ↔
    ¬ IsResponse list [1] cmCtx.id cmResponse ∧
      ¬ (IsResponse Json.entries [0] cmCtx.id cmResponse ∧ ObjectForList cmResponse) ∧
      ¬ BadResponse cmCtx.id cmResponse :=
  checks_iff (by decide +kernel)

/-- It is refused. -/
theorem cm_one_refused : ¬ Checks cmCtx ⟨200, lit cmText⟩ cmResponse := by
  intro h
  have hcm : NumberAt "cm" 1 cmResponse := ⟨1, by rfl, by decide +kernel⟩
  have hgood : IsResponse list [0, 1] cmCtx.id cmResponse :=
    ⟨by rfl, ⟨1, by simp, hcm⟩, [], by rfl, fun bid hbid => absurd hbid List.not_mem_nil⟩
  have hjudges : Judges (get_bid_result cmCtx ⟨200, lit cmText⟩)
      (IsResponse Json.entries [0] cmCtx.id cmResponse) (BadResponse cmCtx.id cmResponse) :=
    get_bid_result_judges (by decide +kernel)
  obtain ⟨-, ⟨cm, hmem, q, hq, hcm'⟩, -⟩ := hjudges.isOk_iff.mp (h.1.mpr hgood)
  obtain ⟨q', hq', hone⟩ := hcm
  rw [hq, Option.some.injEq, Json.num.injEq] at hq'
  rw [hq', hone] at hcm'
  simp [← hcm'] at hmem

end Sax.ResponseCheck
