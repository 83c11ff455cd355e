import Sax.BidRsp

/-!
Which creatives a DSP may use: the rows of the tables `creative` and `advertiser`, loaded
under `dspid .. dspideaid` and `dspid .. advertiserid`, against `isValidCreative`.

A concatenation does not say where the id of the DSP ends, so an entry may come from a row of
another DSP.
-/

namespace Sax.Approval

open Sax.LuaVal Sax.Loop Sax.Const Sax.Runtime Sax.Store Sax.BidRsp

/-- A row of `selectCreativeInfoAll`. -/
structure CreativeRow where
  id : ℤ
  dspid : ℤ
  dspideaid : Str
  advertiserid : Str
  status : ℤ

/-- A row of `selectAdvertiserInfoAll`. -/
structure AdvertiserRow where
  id : ℤ
  dspid : ℤ
  advertiserid : Str
  status : ℤ
  type : Str

/-- `row.id = row.dspid .. row.dspideaid` -/
def CreativeRow.objectId (lib : Ngx) (row : CreativeRow) : Str :=
  lib.tostring row.dspid ++ row.dspideaid

/-- `row.id = row.dspid .. row.advertiserid` -/
def AdvertiserRow.objectId (lib : Ngx) (row : AdvertiserRow) : Str :=
  lib.tostring row.dspid ++ row.advertiserid

/-- The entries `cacheInfoSD` leaves of the rows, a later one in the place of an earlier. -/
def loaded {α : Type} (objectId : α → Str) (rows : List α) : Tbl α :=
  (∅ : Tbl α).putAll (rows.map fun row => (objectId row, row))

/-- What the dictionary answers for an id; it holds nothing under a longer key. -/
def answer {α : Type} (t : Tbl α) (id : Str) : Option α :=
  if id.length ≤ maxKey then t.get id else none

def CreativeRow.info (row : CreativeRow) : CreativeInfo :=
  ⟨row.id, row.dspid, row.dspideaid, row.advertiserid, row.status⟩

def AdvertiserRow.info (row : AdvertiserRow) : AdvertiserInfo :=
  ⟨row.id, row.dspid, row.advertiserid, row.status, row.type⟩

/-- The dictionary with the creatives and advertisers of the rows. -/
def load (lib : Ngx) (d : Dict) (creatives : List CreativeRow) (advertisers : List AdvertiserRow) :
    Dict :=
  { d with
    creative := fun id =>
      (answer (loaded (CreativeRow.objectId lib) creatives) id).map CreativeRow.info
    advertiser := fun id =>
      (answer (loaded (AdvertiserRow.objectId lib) advertisers) id).map AdvertiserRow.info }

/-- A creative row of status not invalid, and an advertiser row of status not invalid whose
type allows the auction type. -/
def Allowed (auction_type : AuctionType) (r : CreativeRow) (v : AdvertiserRow) : Prop :=
  r.status ≠ OBJECT_STATUS_INVALID ∧ v.status ≠ OBJECT_STATUS_INVALID ∧
    checkAdvertiserType auction_type (some v.type) = .ok true

section approval

variable (lib : Ngx) (creatives : List CreativeRow) (advertisers : List AdvertiserRow)
  (auction_type : AuctionType) (dspId creativeId : Str)

/-- The DSP has a row for the creative, and its advertiser one, and these are allowed. -/
def Approved : Prop :=
  ∃ r ∈ creatives, ∃ v ∈ advertisers, Allowed auction_type r v ∧
    lib.tostring r.dspid = dspId ∧ r.dspideaid = creativeId ∧
      v.dspid = r.dspid ∧ v.advertiserid = r.advertiserid

/-- The rows that answer for the DSP and the creative, under keys the dictionary takes. -/
def Answers (r : CreativeRow) (v : AdvertiserRow) : Prop :=
  (dspId ++ creativeId).length ≤ maxKey ∧
    (loaded (CreativeRow.objectId lib) creatives).get (dspId ++ creativeId) = some r ∧
      (dspId ++ r.advertiserid).length ≤ maxKey ∧
        (loaded (AdvertiserRow.objectId lib) advertisers).get (dspId ++ r.advertiserid) = some v

/-- Allowed rows of the DSP for the creative and its advertiser that are not the two that answer. -/
def Hidden (r : CreativeRow) (v : AdvertiserRow) : Prop :=
  ∃ r' ∈ creatives, ∃ v' ∈ advertisers, ¬ (r' = r ∧ v' = v) ∧ Allowed auction_type r' v' ∧
    lib.tostring r'.dspid = dspId ∧ r'.dspideaid = creativeId ∧
      v'.dspid = r'.dspid ∧ v'.advertiserid = r'.advertiserid

variable {lib creatives advertisers auction_type dspId creativeId}

lemma answer_eq_some {α : Type} {t : Tbl α} {id : Str} {row : α} :
    answer t id = some row ↔ id.length ≤ maxKey ∧ t.get id = some row := by
  unfold answer
  split <;> simp_all

lemma mem_of_loaded {α : Type} {objectId : α → Str} {rows : List α} {k : Str} {row : α}
    (h : (loaded objectId rows).get k = some row) : row ∈ rows ∧ objectId row = k := by
  obtain ⟨row', hrow, heq⟩ := List.mem_map.mp (Tbl.mem_of_get_putAll h)
  cases heq
  exact ⟨hrow, rfl⟩

/-- What it takes to be a valid creative of a DSP other than Sina's. -/
lemma isValidCreative_iff {d : Dict} (h : dspId ≠ SINA_DSP_ID) :
    isValidCreative d auction_type dspId creativeId = .ok true ↔
      ∃ ci, d.creative (dspId ++ creativeId) = some ci ∧ ci.status ≠ OBJECT_STATUS_INVALID ∧
        ∃ ai, d.advertiser (dspId ++ ci.advertiserid) = some ai ∧
          ai.status ≠ OBJECT_STATUS_INVALID ∧
            checkAdvertiserType auction_type (some ai.type) = .ok true := by
  simp only [isValidCreative, creativeIsValid, creativeGetStatus, creativeGetAdvertiserId,
    advertiserIsValid, advertiserGetStatus, advertiserGetType, advertiserKey, if_neg h, isValid_eq,
    getAttribute_eq, ok_bind]
  cases d.creative (dspId ++ creativeId) with
  | none => simp
  | some ci =>
    simp only [Option.some.injEq, exists_eq_left', Option.isSome_some, Option.map_some, ok_bind,
      Bool.not_true, Bool.false_eq_true, if_false]
    by_cases hstatus : ci.status = OBJECT_STATUS_INVALID
    · simp [hstatus]
    simp only [hstatus, if_false, true_and, not_false_eq_true, ne_eq]
    cases d.advertiser (dspId ++ ci.advertiserid) with
    | none => simp
    | some ai =>
      simp only [Option.some.injEq, exists_eq_left', Option.isSome_some, Option.map_some,
        Bool.not_true, Bool.false_eq_true, if_false]
      by_cases hai : ai.status = OBJECT_STATUS_INVALID
      · simp [hai]
      simp only [hai, if_false, not_false_eq_true, true_and]
      cases checkAdvertiserType auction_type (some ai.type) with
      | error e => simp
      | ok b => cases b <;> simp

/-- `isValidCreative` holds exactly of the creatives for which allowed rows answer. -/
lemma isValidCreative_load {d : Dict} (h : dspId ≠ SINA_DSP_ID) :
    isValidCreative (load lib d creatives advertisers) auction_type dspId creativeId = .ok true ↔
      ∃ r v, Answers lib creatives advertisers dspId creativeId r v ∧ Allowed auction_type r v := by
  rw [isValidCreative_iff h]
  constructor
  · rintro ⟨ci, hci, hstatus, ai, hai, hastatus, htype⟩
    obtain ⟨r, hr, rfl⟩ := Option.map_eq_some_iff.mp hci
    obtain ⟨v, hv, rfl⟩ := Option.map_eq_some_iff.mp hai
    obtain ⟨hk, hr⟩ := answer_eq_some.mp hr
    obtain ⟨ha, hv⟩ := answer_eq_some.mp hv
    exact ⟨r, v, ⟨hk, hr, ha, hv⟩, hstatus, hastatus, htype⟩
  · rintro ⟨r, v, ⟨hk, hr, ha, hv⟩, hstatus, hastatus, htype⟩
    exact ⟨r.info, Option.map_eq_some_iff.mpr ⟨r, answer_eq_some.mpr ⟨hk, hr⟩, rfl⟩, hstatus,
      v.info, Option.map_eq_some_iff.mpr ⟨v, answer_eq_some.mpr ⟨ha, hv⟩, rfl⟩, hastatus, htype⟩

/-- Rows of the DSP itself that answer approve its creative. -/
lemma approved_of_own {r : CreativeRow} {v : AdvertiserRow}
    (hans : Answers lib creatives advertisers dspId creativeId r v)
    (hallowed : Allowed auction_type r v) (hr : lib.tostring r.dspid = dspId)
    (hv : v.dspid = r.dspid) : Approved lib creatives advertisers auction_type dspId creativeId := by
  obtain ⟨-, hget, -, hget'⟩ := hans
  obtain ⟨hmem, hkey⟩ := mem_of_loaded hget
  obtain ⟨hmem', hkey'⟩ := mem_of_loaded hget'
  rw [CreativeRow.objectId, hr] at hkey
  rw [AdvertiserRow.objectId, hv, hr] at hkey'
  exact ⟨r, hmem, v, hmem', hallowed, hr, List.append_cancel_left hkey, hv,
    List.append_cancel_left hkey'⟩

/-- **A creative is valid for a DSP only if rows of that DSP approve it exactly when every allowed
pair of rows that answers is of that DSP**, or hides rows of its own that are allowed as well. -/
theorem valid_only_if_approved_iff (lib : Ngx) (d : Dict) (creatives : List CreativeRow)
    (advertisers : List AdvertiserRow) (auction_type : AuctionType) (dspId creativeId : Str)
    (h : dspId ≠ SINA_DSP_ID) :
    (isValidCreative (load lib d creatives advertisers) auction_type dspId creativeId = .ok true →
        Approved lib creatives advertisers auction_type dspId creativeId) ↔
      ∀ r v, Answers lib creatives advertisers dspId creativeId r v → Allowed auction_type r v →
        (lib.tostring r.dspid = dspId ∧ v.dspid = r.dspid) ∨
          Hidden lib creatives advertisers auction_type dspId creativeId r v := by
  rw [isValidCreative_load h]
  constructor
  · intro himp r v hans hallowed
    obtain ⟨r', hr', v', hv', hrest⟩ := himp ⟨r, v, hans, hallowed⟩
    by_cases hown : lib.tostring r.dspid = dspId ∧ v.dspid = r.dspid
    · exact .inl hown
    · refine .inr ⟨r', hr', v', hv', ?_, hrest⟩
      rintro ⟨rfl, rfl⟩
      exact hown ⟨hrest.2.1, hrest.2.2.2.1⟩
  · rintro hall ⟨r, v, hans, hallowed⟩
    rcases hall r v hans hallowed with ⟨hr, hv⟩ | ⟨r', hr', v', hv', -, hrest⟩
    · exact approved_of_own hans hallowed hr hv
    · exact ⟨r', hr', v', hv', hrest⟩

end approval

section samples

/-- Creative `3` of DSP 12. -/
def sampleCreatives : List CreativeRow := [⟨1, 12, lit "3", lit "a", 1⟩]

/-- Advertiser `a` of DSP 1. -/
def sampleAdvertisers : List AdvertiserRow := [⟨1, 1, lit "a", 1, lit "111"⟩]

def noObjects : Dict := .ofLists [] [] [] [] [] []

theorem valid_only_if_approved_iff_sample :
    (isValidCreative (load (Ngx.ofTexts []) noObjects sampleCreatives sampleAdvertisers) .openAuction
        (lit "12") (lit "3") = .ok true →
      Approved (Ngx.ofTexts []) sampleCreatives sampleAdvertisers .openAuction (lit "12")
        (lit "3")) ↔
      ∀ r v, Answers (Ngx.ofTexts []) sampleCreatives sampleAdvertisers (lit "12") (lit "3") r v →
        Allowed .openAuction r v →
          ((Ngx.ofTexts []).tostring r.dspid = lit "12" ∧ v.dspid = r.dspid) ∨
            Hidden (Ngx.ofTexts []) sampleCreatives sampleAdvertisers .openAuction (lit "12")
              (lit "3") r v :=
  valid_only_if_approved_iff _ _ _ _ _ _ _ (by decide)

/-- The key `123` of that creative is also the one of creative `23` of DSP 1, which has no
creatives at all. -/
theorem foreign_creative_valid :
    isValidCreative (load (Ngx.ofTexts []) noObjects sampleCreatives sampleAdvertisers) .openAuction
        (lit "1") (lit "23") = .ok true ∧
      ¬ Approved (Ngx.ofTexts []) sampleCreatives sampleAdvertisers .openAuction (lit "1")
        (lit "23") := by
  refine ⟨by decide +kernel, ?_⟩
  rintro ⟨r, hr, v, -, -, hdsp, -⟩
  rw [List.mem_singleton.mp hr] at hdsp
  exact absurd hdsp (by decide +kernel)

end samples

end Sax.Approval
