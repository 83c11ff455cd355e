import Sax.ObjectInfo
import Sax.Store

/-!
What the getters of the object kinds return for a row that was stored: `setDict`, `getDict`,
`getInfoSD` and `getAttribute` of `model/object.lua`, and the getters of `model/*.lua`.

A row is stored as a list, each attribute at the index `_attr_mem` gives it, and a getter
reads an index of its own. An object keeps the lists it has read.
-/

namespace Sax.Getters

open Sax.LuaVal Sax.Loop Sax.Const Sax.Runtime Sax.ObjectInfo
open Sax.Store (maxKey)

section object

variable (lib : Ngx)

/-- The object id, as it is glued to the prefix of a key. -/
def objectId (value : List Val) : Option Str :=
  match value.head? with
  | some (.str id) => some id
  | some (.num id) => some (lib.tostring id)
  | _ => none

/-- `object:setDict`, where the dictionary has room: what it returns, and the dictionary. A key that
is too long is not set. -/
def setDict (kind : Kind) (value : List Val) (dict : Tbl Str) : Lua (ℤ × Tbl Str) := do
  let text ← lib.encode (.arr value)
  match objectId lib value with
  | some id =>
    return if id.length ≤ maxKey then (0, dict.insert (kind.sharedDictPre ++ id) text)
      else (-1, dict)
  | none => throw .badConcat

/-- `object:getDict`; nothing is found under a key that is too long. -/
def getDict (kind : Kind) (id : Str) (dict : Tbl Str) : Lua (Option Str) :=
  .ok (if id.length ≤ maxKey then dict.get (kind.sharedDictPre ++ id) else none)

/-- What a method returns, and the lists the object has kept. -/
abbrev Method := Tbl Val → Lua (Option Val × Tbl Val)

/-- `object:getInfoSD`; a text that decodes to `false` is read again and again. -/
def getInfoSD (kind : Kind) (id : Str) (dict : Tbl Str) : Method := fun object =>
  match (object.get id).filter (· ≠ .bool false) with
  | some info => .ok (some info, object)
  | none => do
    match ← getDict kind id dict with
    | none => return (none, object)
    | some jsonStr =>
      let info ← lib.decode jsonStr
      return (some info, object.insert id info)

/-- `object:getAttribute` -/
def getAttribute (kind : Kind) (id : Str) (index : ℕ) (dict : Tbl Str) : Method := fun object => do
  let (info, object) ← getInfoSD lib kind id dict object
  match info.filter (· ≠ .bool false) with
  | some info => return (← item index (some info), object)
  | none => return (none, object)

/-- An object made by `new`, and what reading made of it since. -/
inductive Seen (kind : Kind) (dict : Tbl Str) : Tbl Val → Prop
  | new : Seen kind dict ∅
  | read {object object' : Tbl Val} {id : Str} {info : Option Val} : Seen kind dict object →
      getInfoSD lib kind id dict object = .ok (info, object') → Seen kind dict object'

end object

/-! ### The getters -/

abbrev Get := Ngx → Tbl Str → Str → Method

namespace dsp

def getRedirectUrl : Get := fun lib dict id => getAttribute lib .dsp id 3 dict
def getRTBUrl : Get := fun lib dict id => getAttribute lib .dsp id 4 dict
def getConfirmUrl : Get := fun lib dict id => getAttribute lib .dsp id 5 dict
def getPriority : Get := fun lib dict id => getAttribute lib .dsp id 6 dict
def getQps : Get := fun lib dict id => getAttribute lib .dsp id 7 dict
def getStatus : Get := fun lib dict id => getAttribute lib .dsp id 10 dict
def getEncryptionKey : Get := fun lib dict id => getAttribute lib .dsp id 8 dict
def getIntegrityKey : Get := fun lib dict id => getAttribute lib .dsp id 9 dict

/-- The index of the status. -/
def getSignKey : Get := fun lib dict id => getAttribute lib .dsp id 10 dict

end dsp

namespace adunit

def getSize : Get := fun lib dict id => getAttribute lib .adunit id 2 dict
def getDisplayType : Get := fun lib dict id => getAttribute lib .adunit id 8 dict
def getLocation : Get := fun lib dict id => getAttribute lib .adunit id 3 dict
def getAdNum : Get := fun lib dict id => getAttribute lib .adunit id 4 dict
def getAdTypeList : Get := fun lib dict id => getAttribute lib .adunit id 7 dict
def getPublisher : Get := fun lib dict id => getAttribute lib .adunit id 5 dict
def getRotateNum : Get := fun lib dict id => getAttribute lib .adunit id 11 dict
def getGina : Get := fun lib dict id => getAttribute lib .adunit id 9 dict
def getNadList : Get := fun lib dict id => getAttribute lib .adunit id 10 dict
def getStatus : Get := fun lib dict id => getAttribute lib .adunit id 6 dict
def getNetworkList : Get := fun lib dict id => getAttribute lib .adunit id 12 dict
def getChannel : Get := fun lib dict id => getAttribute lib .adunit id 13 dict

end adunit

namespace resource

def getFlag : Get := fun lib dict id => getAttribute lib .resource id 2 dict
def getWhiteDspList : Get := fun lib dict id => getAttribute lib .resource id 3 dict
def getStatus : Get := fun lib dict id => getAttribute lib .resource id 4 dict
def getPdWhiteList : Get := fun lib dict id => getAttribute lib .resource id 5 dict

end resource

namespace publisher

def getLowestPrice : Get := fun lib dict id => getAttribute lib .publisher id 3 dict
def getBlackProductTypeList : Get := fun lib dict id => getAttribute lib .publisher id 4 dict
def getBlackTermList : Get := fun lib dict id => getAttribute lib .publisher id 5 dict
def getBlackClickUrlList : Get := fun lib dict id => getAttribute lib .publisher id 6 dict
def getResource : Get := fun lib dict id => getAttribute lib .publisher id 2 dict
def getStatus : Get := fun lib dict id => getAttribute lib .publisher id 7 dict

end publisher

namespace network

def getNetworkName : Get := fun lib dict id => getAttribute lib .network id 2 dict
def getNetworkUrl : Get := fun lib dict id => getAttribute lib .network id 3 dict
def getNetworkStatus : Get := fun lib dict id => getAttribute lib .network id 4 dict

end network

/-- The getters of creatives and advertisers take the two parts of an object id. -/
abbrev GetPair := Ngx → Tbl Str → Str → Str → Method

/-- One of them: for the DSP of Sina it returns a constant. -/
def getPair (kind : Kind) (index : ℕ) (sina : Val) : GetPair := fun lib dict dspId partId object =>
  if dspId = SINA_DSP_ID then .ok (some sina, object)
  else getAttribute lib kind (dspId ++ partId) index dict object

def SINA_DSP_ADVERTISER_UNIQUE_ID : ℤ := 1

namespace creative

def getAdvertiserId : GetPair := getPair .creative 5 (.str SINA_DSP_ADVERTISER_ID)
def getUniqueId : GetPair := getPair .creative 2 (.num SINA_DSP_CREATIVE_UNIQUE_ID)
def getStatus : GetPair := getPair .creative 6 (.num SINA_DSP_CREATIVE_STATUS)

end creative

namespace advertiser

def getStatus : GetPair := getPair .advertiser 5 (.num SINA_DSP_ADVERTISER_STATUS)
def getUniqueId : GetPair := getPair .advertiser 2 (.num SINA_DSP_ADVERTISER_UNIQUE_ID)
def getType : GetPair := getPair .advertiser 6 (.str SINA_DSP_ADVERTISER_TYPE)

end advertiser

/-- The getters of a kind, each with the column it is named after. -/
def getters : Kind → List (String × Get)
  | .dsp => [("redirecturl", dsp.getRedirectUrl), ("bidurl", dsp.getRTBUrl),
      ("notifyurl", dsp.getConfirmUrl), ("priority", dsp.getPriority), ("qps", dsp.getQps),
      ("status", dsp.getStatus), ("encryptionkey", dsp.getEncryptionKey),
      ("integritykey", dsp.getIntegrityKey), ("signkey", dsp.getSignKey)]
  | .adunit => [("wdht", adunit.getSize), ("displaytype", adunit.getDisplayType),
      ("location", adunit.getLocation), ("adnum", adunit.getAdNum),
      ("adtype", adunit.getAdTypeList), ("publisher", adunit.getPublisher),
      ("rotatenum", adunit.getRotateNum), ("gina", adunit.getGina), ("nad", adunit.getNadList),
      ("status", adunit.getStatus), ("networkinfo", adunit.getNetworkList),
      ("channel", adunit.getChannel)]
  | .resource => [("flag", resource.getFlag), ("dspwhitelist", resource.getWhiteDspList),
      ("status", resource.getStatus), ("pdwhitelist", resource.getPdWhiteList)]
  | .publisher => [("dspprice", publisher.getLowestPrice),
      ("blackadtype", publisher.getBlackProductTypeList), ("blackterm", publisher.getBlackTermList),
      ("blackclickurl", publisher.getBlackClickUrlList), ("resource", publisher.getResource),
      ("status", publisher.getStatus)]
  | .network => [("name", network.getNetworkName), ("url", network.getNetworkUrl),
      ("status", network.getNetworkStatus)]
  | .creative | .advertiser => []

/-- The getters that take two parts, each with its column and its constant. -/
def getPairs : Kind → List (String × Val × GetPair)
  | .creative => [
      ("advertiserid", .str SINA_DSP_ADVERTISER_ID, creative.getAdvertiserId),
      ("uniqueid", .num SINA_DSP_CREATIVE_UNIQUE_ID, creative.getUniqueId),
      ("status", .num SINA_DSP_CREATIVE_STATUS, creative.getStatus)]
  | .advertiser => [
      ("status", .num SINA_DSP_ADVERTISER_STATUS, advertiser.getStatus),
      ("uniqueid", .num SINA_DSP_ADVERTISER_UNIQUE_ID, advertiser.getUniqueId),
      ("type", .str SINA_DSP_ADVERTISER_TYPE, advertiser.getType)]
  | _ => []

/-! ### What they should return -/

section spec

variable (lib : Ngx) (kind : Kind) (row : Row)

/-- What `transformInfo` makes of a column, a default where it is null; `none` is `nil`. -/
def transformed (info : List (String × Cell)) (column : String) : Option Val :=
  match info.lookup column with
  | some cell =>
    match transformAttr lib kind (column, cell) with
    | .ok e => e.2
    | .error _ => none
  | none => none

/-- A row that was accepted and stored, and whose text the parser reads back. -/
structure Stored (info : List (String × Cell)) (value : List Val) (dict dict' : Tbl Str) : Prop where
  selected : select lib kind row = .ok info
  accepted : transformInfo lib kind info = .ok value
  set : setDict lib kind value dict = .ok (0, dict')
  json : lib.cjson_decode (lib.cjson_encode (.arr value)) = .ok (.arr value)

/-- The two columns an object id is glued together from. -/
def parts : Lua (Option (Str × Str)) :=
  match kind.glued with
  | some (a, b) => do return some (← (row.col a).text lib, ← (row.col b).text lib)
  | none => .ok none

/-- A getter returns a value. -/
def Returns (r : Lua (Option Val × Tbl Val)) (v : Option Val) : Prop := ∃ object, r = .ok (v, object)

/-- Every getter called for the row returns what became of its column. -/
structure RoundTrips (info : List (String × Cell)) (value : List Val) (dict : Tbl Str)
    (object : Tbl Val) : Prop where
  single : ∀ id, objectId lib value = some id → ∀ g ∈ getters kind,
    Returns (g.2 lib dict id object) (transformed lib kind info g.1)
  pair : ∀ s t, parts lib kind row = .ok (some (s, t)) → ∀ g ∈ getPairs kind,
    Returns (g.2.2 lib dict s t object) (transformed lib kind info g.1)

/-- What is read for a value: a `nil` may have become the null of `cjson`. -/
def Reads (v w : Option Val) : Prop := w = v ∨ v = none ∧ w = some .null

/-- **What the getters return by design.** The column `signkey` is left out. -/
structure ReadsBack (info : List (String × Cell)) (value : List Val) (dict : Tbl Str)
    (object : Tbl Val) : Prop where
  single : ∀ id, objectId lib value = some id → ∀ g ∈ getters kind, g.1 ≠ "signkey" →
    ∃ w, Returns (g.2 lib dict id object) w ∧ Reads (transformed lib kind info g.1) w
  pair : ∀ s t, parts lib kind row = .ok (some (s, t)) → s ≠ SINA_DSP_ID → ∀ g ∈ getPairs kind,
    ∃ w, Returns (g.2.2 lib dict s t object) w ∧ Reads (transformed lib kind info g.1) w
  sina : ∀ t, ∀ g ∈ getPairs kind, Returns (g.2.2 lib dict SINA_DSP_ID t object) (some g.2.1)

end spec

/-! ### Where a column stands in the list -/

section columns

variable {lib : Ngx} {kind : Kind} {row : Row} {info : List (String × Cell)} {value : List Val}

def attrIndex (kind : Kind) (column : String) : Option ℕ :=
  (kind.attr_mem.find? fun attr => attr.name = column).map Attr.index

/-- The keys of the record that the select function returns. -/
def names (kind : Kind) : List String :=
  (if kind.glued.isSome then ["id"] else []) ++ kind.columns.map Prod.fst

lemma select_names (h : select lib kind row = .ok info) : info.map Prod.fst = names kind := by
  unfold select at h
  unfold names
  split at h
  · next a b hglued =>
    obtain ⟨s, -, h⟩ := bind_ok.mp h
    obtain ⟨t, -, h⟩ := bind_ok.mp h
    cases h
    simp [hglued, Function.comp_def]
  · next hglued =>
    cases h
    simp [hglued, Function.comp_def]

lemma names_nodup (kind : Kind) : ((names kind).map (attrIndex kind)).Nodup := by
  cases kind <;> decide

lemma transformAttr_index {e : String × Cell} {r : ℕ × Option Val}
    (h : transformAttr lib kind e = .ok r) : attrIndex kind e.1 = some r.1 := by
  unfold transformAttr at h
  split at h
  · cases h
  · next attr hattr =>
    rw [attrIndex, hattr, Option.map_some, Option.some.injEq]
    split at h
    · split at h <;> cases h
      rfl
    · cases h
      rfl
    · split at h
      · obtain ⟨v, -, h⟩ := bind_ok.mp h
        cases h
        rfl
      · obtain ⟨v, -, h⟩ := bind_ok.mp h
        cases h
        rfl

/-- The values that are there, under the indices they are put at. -/
def filled (result : List (ℕ × Option Val)) : List (ℕ × Val) :=
  result.filterMap fun e => e.2.map fun v => (e.1, v)

lemma lookup_filled {result : List (ℕ × Option Val)} (hd : (result.map Prod.fst).Nodup) {i : ℕ}
    {v : Option Val} (h : (i, v) ∈ result) : (filled result).lookup i = v := by
  have hnone : ∀ {l : List (ℕ × Option Val)}, i ∉ l.map Prod.fst → (filled l).lookup i = none := by
    intro l hl
    rw [List.lookup_eq_none_iff]
    rintro ⟨j, w⟩ hj
    obtain ⟨⟨j', w'⟩, hmem, hw⟩ := List.mem_filterMap.mp hj
    obtain ⟨w'', -, heq⟩ := Option.map_eq_some_iff.mp hw
    cases heq
    have hne : i ≠ j' := fun heq => hl (heq ▸ List.mem_map_of_mem (f := Prod.fst) hmem)
    simpa using hne
  induction result with
  | nil => cases h
  | cons e result ih =>
    rw [List.map_cons, List.nodup_cons] at hd
    rcases List.mem_cons.mp h with rfl | h
    · cases v with
      | none => exact hnone (l := result) hd.1
      | some v => simp [filled]
    · have hne : i ≠ e.1 := fun heq => hd.1 (heq ▸ List.mem_map_of_mem (f := Prod.fst) h)
      have hrest := ih hd.2 h
      obtain ⟨j, w⟩ := e
      cases w with
      | none => exact hrest
      | some w =>
        have hbeq : (i == j) = false := by simpa using hne
        simpa [filled, List.lookup_cons, hbeq] using hrest

lemma le_foldr_max {l : List ℕ} {i : ℕ} (h : i ∈ l) : i ≤ l.foldr max 0 := by
  induction l with
  | nil => cases h
  | cons a l ih =>
    rw [List.foldr_cons]
    rcases List.mem_cons.mp h with rfl | h
    · exact le_max_left _ _
    · exact le_trans (ih h) (le_max_right _ _)

/-- **A column stands at the index of its attribute.** -/
lemma value_at (hsel : select lib kind row = .ok info) (h : transformInfo lib kind info = .ok value)
    {column : String} {i : ℕ} (hcolumn : column ∈ names kind)
    (hindex : attrIndex kind column = some i) (hi : 1 ≤ i) :
    Reads (transformed lib kind info column) value[i - 1]? := by
  obtain ⟨result, hresult, h⟩ := bind_ok.mp h
  cases h
  have hnames := select_names hsel
  obtain ⟨cell, hcell⟩ : ∃ cell, info.lookup column = some cell := by
    rw [← hnames] at hcolumn
    obtain ⟨e, he, rfl⟩ := List.mem_map.mp hcolumn
    rw [← Option.ne_none_iff_exists']
    intro hnone
    simpa using List.lookup_eq_none_iff.mp hnone e he
  have hmem : (column, cell) ∈ info := by
    obtain ⟨l, r, rfl, -⟩ := List.lookup_eq_some_iff.mp hcell
    simp
  obtain ⟨⟨j, v⟩, hv, hattr⟩ := mem_mapM hresult hmem
  have hj := transformAttr_index hattr
  rw [hindex, Option.some.injEq] at hj
  dsimp only at hj
  subst hj
  have htransformed : transformed lib kind info column = v := by
    rw [transformed, hcell]
    simp only [hattr]
  have hd : (result.map Prod.fst).Nodup := by
    have hmap : result.map (fun r => some r.1) = info.map fun e => attrIndex kind e.1 :=
      mapM_map_eq (fun _ _ hr => (transformAttr_index hr).symm) hresult
    have hindices : info.map (fun e => attrIndex kind e.1) = (names kind).map (attrIndex kind) := by
      rw [← hnames, List.map_map]
      rfl
    refine List.Nodup.of_map some ?_
    rw [List.map_map]
    show (result.map fun r => some r.1).Nodup
    rw [hmap, hindices]
    exact names_nodup kind
  have hlookup := lookup_filled hd hv
  rw [htransformed, List.getElem?_map]
  show Reads v (((List.range (((filled result).map Prod.fst).foldr max 0))[i - 1]?).map fun i =>
    ((filled result).lookup (i + 1)).getD .null)
  have hi1 : i - 1 + 1 = i := Nat.sub_add_cancel hi
  cases v with
  | none =>
    by_cases hlen : i - 1 < ((filled result).map Prod.fst).foldr max 0
    · right
      simp [List.getElem?_range hlen, hi1, hlookup]
    · left
      simp [not_lt.mp hlen]
  | some v =>
    left
    have hmem : i ∈ (filled result).map Prod.fst :=
      List.mem_map.mpr ⟨(i, v), List.mem_filterMap.mpr ⟨_, hv, rfl⟩, rfl⟩
    have hlen : i - 1 < ((filled result).map Prod.fst).foldr max 0 := by
      have := le_foldr_max hmem
      omega
    simp [List.getElem?_range hlen, hi1, hlookup]

end columns

/-! ### Reading -/

section reading

variable {lib : Ngx} {kind : Kind} {row : Row} {info : List (String × Cell)} {value : List Val}
  {dict dict' : Tbl Str} {object object' : Tbl Val} {id : Str}

/-- What an object keeps is what the dictionary holds. -/
lemma Seen.current (h : Seen lib kind dict object) {id : Str} {v : Val}
    (hv : object.get id = some v) :
    ∃ text, dict.get (kind.sharedDictPre ++ id) = some text ∧ lib.decode text = .ok v := by
  induction h generalizing id v with
  | new => simp at hv
  | @read object object' id' r _ hread ih =>
    unfold getInfoSD at hread
    split at hread
    · cases hread
      exact ih hv
    · obtain ⟨text, htext, hread⟩ := bind_ok.mp hread
      cases text with
      | none =>
        cases hread
        exact ih hv
      | some text =>
        obtain ⟨v', hdecode, hread⟩ := bind_ok.mp hread
        cases hread
        by_cases hid : id = id'
        · subst hid
          rw [Tbl.get, AList.lookup_insert, Option.some.injEq] at hv
          subst hv
          rw [getDict, Except.ok.injEq] at htext
          split at htext
          · exact ⟨text, htext, hdecode⟩
          · cases htext
        · rw [Tbl.get, AList.lookup_insert_ne hid] at hv
          exact ih hv

/-- What was stored lies under the object id. -/
lemma Stored.get (h : Stored lib kind row info value dict dict') (hid : objectId lib value = some id) :
    id.length ≤ maxKey ∧ ∃ text, dict'.get (kind.sharedDictPre ++ id) = some text ∧
      lib.decode text = .ok (.arr value) := by
  obtain ⟨text, htext, hset⟩ := bind_ok.mp h.set
  rw [hid] at hset
  simp only [pure_ok] at hset
  split at hset
  · next hle =>
    cases hset
    refine ⟨hle, text, by simp [Tbl.get], ?_⟩
    rw [Ngx.encode_ok (Ngx.encode_isOk.mp ⟨text, htext⟩)] at htext
    cases htext
    rw [Ngx.decode, h.json]
  · cases hset

/-- What is stored is the entry that a reload or an update of the dictionary makes of the row. -/
lemma Stored.entry (h : Stored lib kind row info value dict dict') :
    ∃ e, entry lib kind row = .ok e ∧ dict' = dict.insert e.1 e.2 := by
  obtain ⟨text, htext, hset⟩ := bind_ok.mp h.set
  unfold objectId at hset
  split at hset
  · next id hid =>
    rw [pure_ok] at hset
    split at hset
    · cases hset
      refine ⟨(kind.sharedDictPre ++ id, text), ?_, rfl⟩
      unfold ObjectInfo.entry
      rw [h.selected, ok_bind, h.accepted, ok_bind, htext, ok_bind]
      cases hhead : value.head? with
      | none =>
        rw [hhead] at hid
        cases hid
      | some v =>
        rw [hhead] at hid
        cases v <;> cases hid <;> rfl
    · cases hset
  · cases hset

/-- **A getter reads the list that was stored.** -/
lemma getAttribute_stored (h : Stored lib kind row info value dict dict')
    (hobj : Seen lib kind dict' object) (hid : objectId lib value = some id) (i : ℕ) :
    Returns (getAttribute lib kind id i dict' object) value[i - 1]? := by
  obtain ⟨hlen, text, hget, hdecode⟩ := h.get hid
  have hinfo : ∃ object', getInfoSD lib kind id dict' object = .ok (some (.arr value), object') := by
    unfold getInfoSD
    cases hkept : (object.get id).filter (· ≠ .bool false) with
    | some v =>
      have hv : object.get id = some v := Option.eq_some_of_filter_eq_some hkept
      obtain ⟨text', hget', hdecode'⟩ := hobj.current hv
      rw [hget, Option.some.injEq] at hget'
      rw [← hget', hdecode] at hdecode'
      cases hdecode'
      exact ⟨object, rfl⟩
    | none =>
      have hdict : getDict kind id dict' = .ok (some text) := by
        rw [getDict, if_pos hlen, hget]
      exact ⟨_, by simp only [hdict, ok_bind, hdecode]; rfl⟩
  obtain ⟨object', hinfo⟩ := hinfo
  refine ⟨object', ?_⟩
  rw [getAttribute, hinfo, ok_bind]
  rfl

lemma getters_index {g : String × Get} (hg : g ∈ getters kind) (hname : g.1 ≠ "signkey") :
    ∃ i, attrIndex kind g.1 = some i ∧ 1 ≤ i ∧ g.1 ∈ names kind ∧
      g.2 = fun lib dict id => getAttribute lib kind id i dict := by
  cases kind <;> simp only [getters, List.mem_cons, List.not_mem_nil, or_false] at hg
  case dsp =>
    rcases hg with rfl | rfl | rfl | rfl | rfl | rfl | rfl | rfl | rfl
    case inr.inr.inr.inr.inr.inr.inr.inr => exact absurd rfl hname
    all_goals exact ⟨_, rfl, by decide, by decide, rfl⟩
  case adunit =>
    rcases hg with rfl | rfl | rfl | rfl | rfl | rfl | rfl | rfl | rfl | rfl | rfl | rfl
    all_goals exact ⟨_, rfl, by decide, by decide, rfl⟩
  case resource =>
    rcases hg with rfl | rfl | rfl | rfl
    all_goals exact ⟨_, rfl, by decide, by decide, rfl⟩
  case publisher =>
    rcases hg with rfl | rfl | rfl | rfl | rfl | rfl
    all_goals exact ⟨_, rfl, by decide, by decide, rfl⟩
  case network =>
    rcases hg with rfl | rfl | rfl
    all_goals exact ⟨_, rfl, by decide, by decide, rfl⟩

lemma getPairs_index {g : String × Val × GetPair} (hg : g ∈ getPairs kind) :
    ∃ i, attrIndex kind g.1 = some i ∧ 1 ≤ i ∧ g.1 ∈ names kind ∧
      g.2.2 = getPair kind i g.2.1 := by
  cases kind <;> simp only [getPairs, List.mem_cons, List.not_mem_nil, or_false] at hg
  all_goals
    rcases hg with rfl | rfl | rfl
    all_goals exact ⟨_, rfl, by decide, by decide, rfl⟩

lemma transformed_id (hglued : kind.glued.isSome) (x : Str) (rest : List (String × Cell)) :
    transformed lib kind (("id", .str x) :: rest) "id" = some (.str x) := by
  have hattr : transformAttr lib kind ("id", .str x) = .ok (1, some (.str x)) := by
    cases kind <;> first | exact absurd hglued (by decide) | (cases x <;> rfl)
  simp only [transformed, List.lookup_cons_self, hattr]

/-- A glued object id is its two parts. -/
lemma objectId_of_parts (h : Stored lib kind row info value dict dict') {s t : Str}
    (hparts : parts lib kind row = .ok (some (s, t))) : objectId lib value = some (s ++ t) := by
  unfold parts at hparts
  split at hparts
  · next a b hglued =>
    obtain ⟨s', hs, hparts⟩ := bind_ok.mp hparts
    obtain ⟨t', ht, hparts⟩ := bind_ok.mp hparts
    cases hparts
    have hisSome : kind.glued.isSome := by rw [hglued]; rfl
    have hsel := h.selected
    simp only [select, hglued, hs, ht, ok_bind] at hsel
    cases hsel
    have hid : attrIndex kind "id" = some 1 := by cases kind <;> rfl
    have hcolumn : "id" ∈ names kind := by simp [names, hisSome]
    rcases value_at h.selected h.accepted hcolumn hid le_rfl with hv | ⟨hv, -⟩
    · rw [transformed_id hisSome] at hv
      rw [objectId, List.head?_eq_getElem?, hv]
    · rw [transformed_id hisSome] at hv
      cases hv
  · cases hparts

/-- **Every getter but one returns what became of its column**, whatever was called before on
the object, and for the DSP of Sina the constant it stands for. -/
theorem getters_read_back (h : Stored lib kind row info value dict dict')
    (hobj : Seen lib kind dict' object) : ReadsBack lib kind row info value dict' object := by
  refine ⟨fun id hid g hg hname => ?_, fun s t hparts hs g hg => ?_, fun t g hg => ?_⟩
  · obtain ⟨i, hindex, hi, hcolumn, hget⟩ := getters_index hg hname
    refine ⟨_, ?_, value_at h.selected h.accepted hcolumn hindex hi⟩
    rw [hget]
    exact getAttribute_stored h hobj hid i
  · obtain ⟨i, hindex, hi, hcolumn, hget⟩ := getPairs_index hg
    refine ⟨_, ?_, value_at h.selected h.accepted hcolumn hindex hi⟩
    rw [hget, getPair, if_neg hs]
    exact getAttribute_stored h hobj (objectId_of_parts h hparts) i
  · obtain ⟨i, -, -, -, hget⟩ := getPairs_index hg
    refine ⟨object, ?_⟩
    rw [hget, getPair, if_pos rfl]

lemma Returns.unique {r : Lua (Option Val × Tbl Val)} {v w : Option Val} (hv : Returns r v)
    (hw : Returns r w) : v = w := by
  obtain ⟨_, hv⟩ := hv
  obtain ⟨_, hw⟩ := hw
  rw [hv] at hw
  cases hw
  rfl

end reading

section samples

/-- DSP 2 with a priority. -/
def dspRow (priority : Cell) : Row := [("id", .num 2), ("redirecturl", .str (lit "r")),
  ("bidurl", .str (lit "b")), ("notifyurl", .str (lit "n")), ("priority", priority),
  ("qps", .num 5), ("encryptionkey", .str (lit "e")), ("integritykey", .str (lit "i")),
  ("status", .num 1), ("signkey", .str (lit "k"))]

/-- The list it is stored as. -/
def dspValue (priority : Val) : List Val := [.num 2, .null, .str (lit "r"), .str (lit "b"),
  .str (lit "n"), priority, .num 5, .str (lit "e"), .str (lit "i"), .num 1, .str (lit "k")]

/-- Creative `a` of the DSP of Sina. -/
def sinaRow : Row := [("id", .num 1), ("dspid", .num 17), ("dspideaid", .str (lit "a")),
  ("advertiserid", .str (lit "x")), ("status", .num 0)]

def sinaValue : List Val :=
  [.str (lit "17a"), .num 1, .num 17, .str (lit "a"), .str (lit "x"), .num 0]

def sampleLib : Ngx :=
  { Ngx.ofTexts [
      ("[2,null,\"r\",\"b\",\"n\",1,5,\"e\",\"i\",1,\"k\"]", .arr (dspValue (.num 1))),
      ("[2,null,\"r\",\"b\",\"n\",null,5,\"e\",\"i\",1,\"k\"]", .arr (dspValue .null)),
      ("[\"17a\",1,17,\"a\",\"x\",0]", .arr sinaValue)] with
    cjson_encode := jsonText }

/-- What the select function makes of a row. -/
def infoOf (kind : Kind) (row : Row) : List (String × Cell) :=
  (select sampleLib kind row).toOption.getD []

lemma stored_sample {kind : Kind} {row : Row} {value : List Val}
    (hselected : (select sampleLib kind row).isOk)
    (haccepted : transformInfo sampleLib kind (infoOf kind row) = .ok value)
    (hset : (setDict sampleLib kind value ∅).map Prod.fst = .ok 0)
    (hjson : sampleLib.cjson_decode (sampleLib.cjson_encode (.arr value)) = .ok (.arr value)) :
    ∃ dict', Stored sampleLib kind row (infoOf kind row) value ∅ dict' := by
  obtain ⟨dict', hdict'⟩ : ∃ dict', setDict sampleLib kind value ∅ = .ok (0, dict') := by
    cases hdict : setDict sampleLib kind value ∅ with
    | error e =>
      rw [hdict] at hset
      cases hset
    | ok r =>
      rw [hdict] at hset
      exact ⟨r.2, by rw [← Except.ok.inj hset]⟩
  obtain ⟨info, hinfo⟩ := exists_ok hselected
  have hinfoOf : infoOf kind row = info := by rw [infoOf, hinfo]; rfl
  exact ⟨dict', by rw [hinfo, hinfoOf], haccepted, hdict', hjson⟩

lemma dsp_stored : ∃ dict',
    Stored sampleLib .dsp (dspRow (.num 1)) (infoOf .dsp (dspRow (.num 1))) (dspValue (.num 1)) ∅
      dict' :=
  stored_sample (by decide) (by decide +kernel) (by decide +kernel) (by decide +kernel)

lemma high_stored : ∃ dict',
    Stored sampleLib .dsp (dspRow (.str (lit "high"))) (infoOf .dsp (dspRow (.str (lit "high"))))
      (dspValue .null) ∅ dict' :=
  stored_sample (by decide) (by decide +kernel) (by decide +kernel) (by decide +kernel)

lemma sina_stored : ∃ dict',
    Stored sampleLib .creative sinaRow (infoOf .creative sinaRow) sinaValue ∅ dict' :=
  stored_sample (by decide) (by decide +kernel) (by decide +kernel) (by decide +kernel)

theorem getters_read_back_sample : ∃ dict',
    ReadsBack sampleLib .creative sinaRow (infoOf .creative sinaRow) sinaValue dict' ∅ := by
  obtain ⟨dict', h⟩ := sina_stored
  exact ⟨dict', getters_read_back h .new⟩

/-- A creative of the DSP of Sina, a priority that is no number, and the sign key, which is
read where the status stands. -/
theorem getters_differ :
    (∃ dict', Stored sampleLib .creative sinaRow (infoOf .creative sinaRow) sinaValue ∅ dict' ∧
      ¬ RoundTrips sampleLib .creative sinaRow (infoOf .creative sinaRow) sinaValue dict' ∅) ∧
    (∃ dict', Stored sampleLib .dsp (dspRow (.str (lit "high")))
        (infoOf .dsp (dspRow (.str (lit "high")))) (dspValue .null) ∅ dict' ∧
      ¬ RoundTrips sampleLib .dsp (dspRow (.str (lit "high")))
        (infoOf .dsp (dspRow (.str (lit "high")))) (dspValue .null) dict' ∅) ∧
    ∃ dict', Stored sampleLib .dsp (dspRow (.num 1)) (infoOf .dsp (dspRow (.num 1)))
        (dspValue (.num 1)) ∅ dict' ∧
      ¬ RoundTrips sampleLib .dsp (dspRow (.num 1)) (infoOf .dsp (dspRow (.num 1)))
        (dspValue (.num 1)) dict' ∅ := by
  refine ⟨?_, ?_, ?_⟩
  · obtain ⟨dict', h⟩ := sina_stored
    refine ⟨dict', h, fun hround => ?_⟩
    have hparts : parts sampleLib .creative sinaRow = .ok (some (lit "17", lit "a")) := by
      decide +kernel
    have hget := hround.pair _ _ hparts
      ("advertiserid", .str SINA_DSP_ADVERTISER_ID, creative.getAdvertiserId) (by simp [getPairs])
    have hconstant : Returns (creative.getAdvertiserId sampleLib dict' (lit "17") (lit "a") ∅)
        (some (.str (lit "1"))) := ⟨∅, rfl⟩
    exact absurd (hconstant.unique hget) (by decide +kernel)
  · obtain ⟨dict', h⟩ := high_stored
    refine ⟨dict', h, fun hround => ?_⟩
    have hid : objectId sampleLib (dspValue .null) = some (lit "2") := by decide +kernel
    have hget := hround.single (lit "2") hid ("priority", dsp.getPriority) (by simp [getters])
    have hread := getAttribute_stored h .new hid 6
    exact absurd (hread.unique hget) (by decide +kernel)
  · obtain ⟨dict', h⟩ := dsp_stored
    refine ⟨dict', h, fun hround => ?_⟩
    have hid : objectId sampleLib (dspValue (.num 1)) = some (lit "2") := by decide +kernel
    have hget := hround.single (lit "2") hid ("signkey", dsp.getSignKey) (by simp [getters])
    have hread := getAttribute_stored h .new hid 10
    exact absurd (hread.unique hget) (by decide +kernel)

end samples

end Sax.Getters
