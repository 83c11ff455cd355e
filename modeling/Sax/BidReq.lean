import Mathlib.Data.List.ReduceOption
import Sax.InetUrl
import Sax.Loop
import Sax.Store

/-!
The bid request of the application exchange: `build_bid_req` of `saxmob/rtb/rtb.lua`.

One body goes to every DSP: the pending ad units, the application, the device and the user, and
the exclusions of the first ad unit. A DSP whose URL gives no host is to be left out, but
`parse_inet_url` gives `nil` there, and its field is read. The body is encoded and parts of it are
put into a log, which no number that is infinite or none gets through.
-/

namespace Sax.BidReq

open Sax.LuaVal Sax.Loop Sax.Runtime Sax.InetUrl
open Sax.Store (getAttribute getAttribute_eq)

def RTB_OPEN_AUCTION : ℚ := 502
def RTB_KEEPALIVE_TIME : ℚ := 60
def RTB_CONNECTION_SIZE : ℚ := 100
def SINA_DSP_ID : Str := lit "1"
def HASH_STR : Str := lit "Hash-Str"
def RTB_REQ_ARG_COOKIE : Str := lit "cookie"
def RTB_REQ_ARG_SSP_ID : Str := lit "ssp_id"

/-! ### The data -/

/-- A unit of the dictionary; `min_price` is no number where the column is `NULL`. -/
structure AdUnitInfo where
  status : ℤ
  type : Str
  ad_num : ℚ
  excluded_product_type : Str
  excluded_landing_url : Str
  min_price : Option ℚ
  ssp_id : Str

structure DspInfo where
  status : ℤ
  bid_url : Str
  ekey : Str
  ikey : Str
  timeout : ℚ

structure SspInfo where
  status : ℤ

/-- What is known of a user. -/
structure User where
  age : Option Str
  gender : Option Str
  interest : Option Str
  city : Option Str
  degree : Option Str

/-- The dictionary of a worker, with the list of all DSPs, and the targeting records. -/
structure Dict where
  adunit : Str → Option AdUnitInfo
  dsp : Str → Option DspInfo
  ssp : Str → Option SspInfo
  dspall : Option Str
  targeting : Str → User

/-- An ad unit as the publisher asks for it. -/
structure AdUnit where
  id : Str
  size : Option Str
  deriving DecidableEq

structure App where
  name : Str
  category : Option Str

/-- A field that is `nil` or `false` is `none`. -/
structure Device where
  udid : Str
  platform : Option Val
  brand : Option Str
  model : Option Str

structure AdReq where
  adunit_list : List AdUnit
  carrier : Val
  ip : Str
  ua : Str
  lbs : Str
  device : Device
  app : App

/-- What the bidding finds in `ngx.ctx`. -/
structure Ctx where
  lib : Ngx
  dict : Dict
  ad_req : AdReq
  id : Str
  uuid : Str
  ssp_id : Str

section attributes

variable (d : Dict)

def get_status (id : Str) : Lua (Option ℤ) := getAttribute d.adunit id AdUnitInfo.status
def get_type (id : Str) : Lua (Option Str) := getAttribute d.adunit id AdUnitInfo.type
def get_ad_num (id : Str) : Lua (Option ℚ) := getAttribute d.adunit id AdUnitInfo.ad_num
def get_ssp_id (id : Str) : Lua (Option Str) := getAttribute d.adunit id AdUnitInfo.ssp_id
def get_bid_url (id : Str) : Lua (Option Str) := getAttribute d.dsp id DspInfo.bid_url
def get_timeout (id : Str) : Lua (Option ℚ) := getAttribute d.dsp id DspInfo.timeout

/-- The attribute is a text where the column has no number. -/
def get_min_price (id : Str) : Lua (Option Val) :=
  getAttribute d.adunit id fun u => u.min_price.elim (.str []) .num

/-- `util.split(self:get_attribute(id, attr), ",")` -/
def get_excluded (attr : AdUnitInfo → Str) (id : Str) : Lua (List Str) := do
  match ← getAttribute d.adunit id attr with
  | some s => return split comma s
  | none => throw .badArgument

def get_excluded_product_type : Str → Lua (List Str) := get_excluded d AdUnitInfo.excluded_product_type
def get_excluded_landing_url : Str → Lua (List Str) := get_excluded d AdUnitInfo.excluded_landing_url

end attributes

/-! ### The body -/

structure Imp where
  id : Str
  bidfloor : Option Val
  type : Option Str
  w : Option Val
  h : Option Val
  num : Option ℚ

/-- The request as it is encoded. -/
structure Body where
  id : Str
  imp : List Imp
  app : App
  device : List (String × Option Val)
  user : List (String × Val)
  bcat : List Str
  badv : List Str

def Imp.val (imp : Imp) : Val :=
  .fields [("id", some (.str imp.id)), ("bidfloor", imp.bidfloor),
    ("banner", some (.fields [("type", imp.type.map .str), ("w", imp.w), ("h", imp.h),
      ("num", imp.num.map .num)]))]

def Body.val (body : Body) : Val :=
  .fields [("id", some (.str body.id)), ("imp", some (.arr (body.imp.map Imp.val))),
    ("at", some (.num RTB_OPEN_AUCTION)),
    ("app", some (.fields [("name", some (.str body.app.name)),
      ("cat", body.app.category.map .str)])),
    ("device", some (.fields body.device)), ("user", some (.obj body.user)),
    ("bcat", some (.strs body.bcat)), ("badv", some (.strs body.badv))]

section source

variable (c : Ctx)

def star : UInt8 := 42

/-- The two numbers of a text `a*b` or `a,b`, if it has two. -/
def pair (delim : UInt8) (s : Str) : Option Val × Option Val :=
  if s ≠ [] then
    match split delim s with
    | [a, b] => (c.lib.number a, c.lib.number b)
    | _ => (none, none)
  else (none, none)

def build_imp (adunit : AdUnit) : Lua Imp := do
  let bidfloor ← get_min_price c.dict adunit.id
  let type ← get_type c.dict adunit.id
  match adunit.size with
  | none => throw .badArgument
  | some size =>
    let (w, h) := pair c star size
    let num ← get_ad_num c.dict adunit.id
    return ⟨adunit.id, bidfloor, type, w, h, num⟩

/-- A text that is not empty. -/
def nonempty (s : Str) : Option Val := if s ≠ [] then some (.str s) else none

/-- `device.version` is read of the table that is being built, which has none. -/
def build_device : List (String × Option Val) :=
  let ad_req := c.ad_req
  let (lat, lon) := pair c comma ad_req.lbs
  [("ip", nonempty ad_req.ip), ("lat", lat), ("lon", lon),
    ("ua", nonempty ad_req.ua), ("make", ad_req.device.brand.bind nonempty),
    ("model", ad_req.device.model.bind nonempty),
    ("os", some (ad_req.device.platform.getD (.num 0))), ("osv", some (.str [])),
    ("connectiontype", some ad_req.carrier)]

def build_user : List (String × Val) :=
  let udid := c.ad_req.device.udid
  ("id", .str (c.lib.md5 udid)) ::
    if udid ≠ [] then
      let user := c.dict.targeting udid
      [("age", .str (user.age.getD [])), ("gender", .str (user.gender.getD [])),
        ("interest", .strs (split comma (user.interest.getD []))),
        ("zone", .str (user.city.getD [])), ("degree", .str (user.degree.getD []))]
    else
      [("age", .str []), ("gender", .str []), ("interest", .empty), ("zone", .str []),
        ("degree", .str [])]

def build_body (ad_pend_list : List AdUnit) : Lua Body := do
  let imp ← ad_pend_list.mapM (build_imp c)
  match ad_pend_list with
  | [] => throw .badIndex
  | adunit :: _ =>
    let bcat ← get_excluded_product_type c.dict adunit.id
    let badv ← get_excluded_landing_url c.dict adunit.id
    return ⟨c.id, imp, c.ad_req.app, build_device c, build_user c, bcat, badv⟩

/-! ### The requests -/

/-- An entry of `bid_req_list`, sent as a `POST`. -/
structure Req where
  host : Str
  port : ℚ
  path : Str
  args : List (Str × Str)
  headers : List (Str × Str)
  timeout : Option ℚ
  keepalive : ℚ
  size : ℚ
  body : Str
  deriving DecidableEq

/-- The round for one DSP, which may leave it out. -/
def bid_req (json_str dsp_id : Str) : Lua (Option Req) := do
  let dsp_bid_url ← get_bid_url c.dict dsp_id
  let dsp_bid_timeout ← get_timeout c.dict dsp_id
  match parse_inet_url c.lib dsp_bid_url with
  | none => throw .badIndex
  | some dsp_bid_url_split =>
    if dsp_bid_url_split.host = [] then return none
    else
      let hashstr := c.ad_req.device.udid
      let sina := dsp_id = SINA_DSP_ID
      return some {
        host := dsp_bid_url_split.host
        port := dsp_bid_url_split.port
        path := if sina then dsp_bid_url_split.uri ++ lit "?" else dsp_bid_url_split.uri
        args := if sina then [(RTB_REQ_ARG_COOKIE, hashstr), (RTB_REQ_ARG_SSP_ID, c.ssp_id)] else []
        headers := if sina then [(HASH_STR, hashstr)] else []
        timeout := dsp_bid_timeout
        keepalive := RTB_KEEPALIVE_TIME
        size := RTB_CONNECTION_SIZE
        body := json_str }

/-- `.. v` -/
def concatVal (v : Val) : Lua Unit := if v.isText then .ok () else .error .badConcat

/-- Of what is logged, only the carrier and the platform may be no texts. -/
def log_dsp_req : Lua Unit := do
  concatVal c.ad_req.carrier
  concatVal (c.ad_req.device.platform.getD (.str []))

def build_bid_req (ad_pend_list : List AdUnit) (dsp_bid_list : List Str) : Lua (List Req) := do
  let body ← build_body c ad_pend_list
  let json_str ← c.lib.encode body.val
  let bid_req_list ← dsp_bid_list.mapM (bid_req c json_str)
  log_dsp_req c
  return bid_req_list.reduceOption

end source

/-! ### What the functions need -/

section attributes

variable {attr : AdUnitInfo → Str} {d : Dict} {id : Str} {l : List Str}

lemma get_excluded_ok :
    get_excluded d attr id = .ok l ↔ ∃ info, d.adunit id = some info ∧ split comma (attr info) = l := by
  rw [get_excluded, getAttribute_eq]
  cases d.adunit id <;> simp

end attributes

section body

variable {c : Ctx} {u : AdUnit} {imp : Imp} {ad_pend_list : List AdUnit} {body : Body}

lemma build_imp_ok : build_imp c u = .ok imp ↔ ∃ size, u.size = some size ∧
    imp = ⟨u.id, (c.dict.adunit u.id).map fun i => i.min_price.elim (.str []) .num,
      (c.dict.adunit u.id).map AdUnitInfo.type, (pair c star size).1, (pair c star size).2,
      (c.dict.adunit u.id).map AdUnitInfo.ad_num⟩ := by
  unfold build_imp get_min_price get_type get_ad_num
  rw [getAttribute_eq, getAttribute_eq, getAttribute_eq]
  cases u.size with
  | none => simp
  | some size => simp [eq_comm]

/-- Every pending unit brings a size, and the first one is in the dictionary. -/
def Describable (c : Ctx) (ad_pend_list : List AdUnit) : Prop :=
  (∀ u ∈ ad_pend_list, u.size.isSome) ∧ ∃ u ∈ ad_pend_list.head?, (c.dict.adunit u.id).isSome

/-- The body is made of the pending units, and the exclusions of the first. -/
lemma build_body_ok : build_body c ad_pend_list = .ok body ↔
    ∃ imp, ad_pend_list.mapM (build_imp c) = .ok imp ∧
      ∃ u info, ad_pend_list.head? = some u ∧ c.dict.adunit u.id = some info ∧
        body = ⟨c.id, imp, c.ad_req.app, build_device c, build_user c,
          split comma info.excluded_product_type, split comma info.excluded_landing_url⟩ := by
  unfold build_body
  constructor
  · intro h
    obtain ⟨imp, himp, h⟩ := bind_ok.mp h
    refine ⟨imp, himp, ?_⟩
    cases ad_pend_list with
    | nil => cases h
    | cons u us =>
      obtain ⟨bcat, hbcat, h⟩ := bind_ok.mp h
      obtain ⟨badv, hbadv, h⟩ := bind_ok.mp h
      obtain ⟨info, hinfo, rfl⟩ := get_excluded_ok.mp hbcat
      obtain ⟨info', hinfo', rfl⟩ := get_excluded_ok.mp hbadv
      rw [hinfo] at hinfo'
      cases hinfo'
      exact ⟨u, info, rfl, hinfo, (Except.ok.inj h).symm⟩
  · rintro ⟨imp, himp, u, info, hhead, hinfo, rfl⟩
    cases ad_pend_list with
    | nil => cases hhead
    | cons v vs =>
      cases hhead
      exact bind_ok.mpr ⟨imp, himp, bind_ok.mpr ⟨_, get_excluded_ok.mpr ⟨info, hinfo, rfl⟩,
        bind_ok.mpr ⟨_, get_excluded_ok.mpr ⟨info, hinfo, rfl⟩, rfl⟩⟩⟩

/-- The body lists the pending units, and the exclusions of the first. -/
lemma build_body_ids (h : build_body c ad_pend_list = .ok body) :
    body.imp.map Imp.id = ad_pend_list.map AdUnit.id ∧
      ∃ u info, ad_pend_list.head? = some u ∧ c.dict.adunit u.id = some info ∧
        body.bcat = split comma info.excluded_product_type ∧
        body.badv = split comma info.excluded_landing_url := by
  obtain ⟨imp, himp, u, info, hhead, hinfo, rfl⟩ := build_body_ok.mp h
  refine ⟨mapM_map_eq (fun u imp h => ?_) himp, u, info, hhead, hinfo, rfl, rfl⟩
  obtain ⟨size, -, rfl⟩ := build_imp_ok.mp h
  rfl

lemma build_body_isOk :
    (∃ body, build_body c ad_pend_list = .ok body) ↔ Describable c ad_pend_list := by
  simp only [build_body_ok]
  constructor
  · rintro ⟨body, imp, himp, u, info, hhead, hinfo, -⟩
    refine ⟨fun v hv => ?_, u, hhead, Option.isSome_of_eq_some hinfo⟩
    obtain ⟨imp, himp⟩ := mapM_isOk.mp ⟨imp, himp⟩ v hv
    obtain ⟨size, hsize, -⟩ := build_imp_ok.mp himp
    exact Option.isSome_of_eq_some hsize
  · rintro ⟨hall, u, hhead, hinfo⟩
    obtain ⟨info, hinfo⟩ := Option.isSome_iff_exists.mp hinfo
    obtain ⟨imp, himp⟩ : ∃ imp, ad_pend_list.mapM (build_imp c) = .ok imp := by
      refine mapM_isOk.mpr fun v hv => ?_
      obtain ⟨size, hsize⟩ := Option.isSome_iff_exists.mp (hall v hv)
      exact ⟨_, build_imp_ok.mpr ⟨size, hsize, rfl⟩⟩
    exact ⟨_, imp, himp, u, info, hhead, hinfo, rfl⟩

end body

/-! ### What is encoded and logged -/

section printable

variable {c : Ctx} {u : AdUnit} {imp : Imp} {imps : List Imp} {ad_pend_list : List AdUnit}
  {body : Body}

/-- The numbers a text names, if it names two, are finite. -/
def PairFinite (p : Option Val × Option Val) : Prop :=
  (∀ v ∈ p.1, v.finite) ∧ ∀ v ∈ p.2, v.finite

/-- A text or a finite number. -/
def Plain (v : Val) : Prop := v.isText ∧ v.finite

/-- The numbers of the request can be encoded, and what is put into the log is text. -/
structure Printable (c : Ctx) (ad_pend_list : List AdUnit) : Prop where
  size : ∀ u ∈ ad_pend_list, ∀ size ∈ u.size, PairFinite (pair c star size)
  unit : ∀ u ∈ ad_pend_list, ∀ info ∈ c.dict.adunit u.id,
    Double.Finite info.ad_num ∧ ∀ q ∈ info.min_price, Double.Finite q
  lbs : PairFinite (pair c comma c.ad_req.lbs)
  carrier : Plain c.ad_req.carrier
  platform : ∀ v ∈ c.ad_req.device.platform, Plain v

lemma imp_finite {size : Str} (hsize : u.size = some size) (h : build_imp c u = .ok imp) :
    imp.val.finite = true ↔ PairFinite (pair c star size) ∧
      ∀ info ∈ c.dict.adunit u.id,
        Double.Finite info.ad_num ∧ ∀ q ∈ info.min_price, Double.Finite q := by
  obtain ⟨size', hsize', rfl⟩ := build_imp_ok.mp h
  rw [hsize, Option.some.injEq] at hsize'
  subst hsize'
  unfold Imp.val PairFinite
  cases c.dict.adunit u.id with
  | none => simp
  | some info =>
    cases hmin : info.min_price <;> simp [hmin] <;> tauto

lemma mem_imp (h : ad_pend_list.mapM (build_imp c) = .ok imps) :
    (∀ imp ∈ imps, imp.val.finite = true) ↔
      ∀ u ∈ ad_pend_list, (∀ size ∈ u.size, PairFinite (pair c star size)) ∧
        ∀ info ∈ c.dict.adunit u.id,
          Double.Finite info.ad_num ∧ ∀ q ∈ info.min_price, Double.Finite q := by
  induction ad_pend_list generalizing imps with
  | nil =>
    cases h
    simp
  | cons u us ih =>
    obtain ⟨imp, himp, rest, hrest, rfl⟩ := mapM_cons_ok.mp h
    obtain ⟨size, hsize, -⟩ := build_imp_ok.mp himp
    rw [List.forall_mem_cons, List.forall_mem_cons, imp_finite hsize himp, ih hrest, hsize]
    simp only [Option.mem_def, Option.some.injEq, forall_eq']

lemma nonempty_some {s : Str} {v : Val} (h : nonempty s = some v) : v = .str s := by
  unfold nonempty at h
  split at h <;> cases h
  rfl

lemma bind_nonempty_some {s : Option Str} {v : Val} (h : s.bind nonempty = some v) :
    ∃ t, v = .str t := by
  obtain ⟨t, -, ht⟩ := Option.bind_eq_some_iff.mp h
  exact ⟨t, nonempty_some ht⟩

lemma number_depth {s : Str} {v : Val} (h : c.lib.number s = some v) : v.depth = 0 := by
  unfold Ngx.number at h
  split at h
  · cases h
    simp [Val.depth]
  · obtain ⟨q, -, rfl⟩ := Option.map_eq_some_iff.mp h
    simp

variable (c) in
lemma pair_depth (delim : UInt8) (s : Str) :
    (∀ v ∈ (pair c delim s).1, v.depth = 0) ∧ ∀ v ∈ (pair c delim s).2, v.depth = 0 := by
  unfold pair
  split
  · split
    · exact ⟨fun v hv => number_depth hv, fun v hv => number_depth hv⟩
    · simp
  · simp

/-- What the request says of the user is texts and a list of them. -/
lemma user_plain : ∀ e ∈ build_user c, e.2.finite = true ∧ e.2.depth ≤ 1 := by
  have hstr : ∀ s : Str, (Val.str s).finite = true ∧ (Val.str s).depth ≤ 1 := by simp
  have hstrs : ∀ l : List Str, (Val.strs l).finite = true ∧ (Val.strs l).depth ≤ 1 := by
    intro l
    refine ⟨Val.finite_strs l, ?_⟩
    rw [Val.strs, Val.depth, Val.depthArr_texts (by simp)]
    simp [Val.depthHash]
  have hempty : Val.empty.finite = true ∧ Val.empty.depth ≤ 1 := hstrs []
  dsimp only [build_user]
  rw [List.forall_mem_cons]
  refine ⟨hstr _, ?_⟩
  split <;> simp only [List.forall_mem_cons, List.not_mem_nil, false_imp_iff, implies_true,
    hstr, hstrs, hempty, and_self]

/-- The device is described by finite numbers exactly when the ones of the request are. -/
lemma device_finite : (∀ e ∈ build_device c, ∀ v ∈ e.2, v.finite = true) ↔
    PairFinite (pair c comma c.ad_req.lbs) ∧ c.ad_req.carrier.finite = true ∧
      ∀ v ∈ c.ad_req.device.platform, v.finite := by
  have hplatform : (c.ad_req.device.platform.getD (.num 0)).finite = true ↔
      ∀ v ∈ c.ad_req.device.platform, v.finite = true := by
    have hzero : Double.Finite 0 := by decide +kernel
    cases c.ad_req.device.platform <;> simp [hzero]
  have htext : ∀ s v, nonempty s = some v → v.finite = true := fun s v hv => by
    rw [nonempty_some hv, finite_str]
  have hbind : ∀ (s : Option Str) v, s.bind nonempty = some v → v.finite = true := fun s v hv => by
    obtain ⟨t, rfl⟩ := bind_nonempty_some hv
    exact finite_str t
  rw [← hplatform]
  dsimp only [build_device]
  simp only [List.forall_mem_cons, List.not_mem_nil, false_imp_iff, implies_true,
    PairFinite, Option.mem_def, Option.some.injEq, forall_eq', finite_str]
  have hip := htext c.ad_req.ip
  have hua := htext c.ad_req.ua
  have hmake := hbind c.ad_req.device.brand
  have hmodel := hbind c.ad_req.device.model
  tauto

lemma device_depth (hcarrier : c.ad_req.carrier.isText)
    (hplatform : ∀ v ∈ c.ad_req.device.platform, v.isText) :
    ∀ e ∈ build_device c, ∀ v ∈ e.2, v.depth = 0 := by
  have htext : ∀ s v, nonempty s = some v → v.depth = 0 := fun s v hv => by
    rw [nonempty_some hv, depth_str]
  have hbind : ∀ (s : Option Str) v, s.bind nonempty = some v → v.depth = 0 := fun s v hv => by
    obtain ⟨t, rfl⟩ := bind_nonempty_some hv
    exact depth_str t
  have hos : (c.ad_req.device.platform.getD (.num 0)).depth = 0 := by
    cases h : c.ad_req.device.platform with
    | none => simp
    | some v => exact Val.depth_of_isText (hplatform v h)
  obtain ⟨hlat, hlon⟩ := pair_depth c comma c.ad_req.lbs
  dsimp only [build_device]
  simp only [List.forall_mem_cons, List.not_mem_nil, false_imp_iff, implies_true, Option.mem_def,
    Option.some.injEq, forall_eq', hos, depth_str, Val.depth_of_isText hcarrier, and_true]
  exact ⟨htext _, hlat, hlon, htext _, hbind _, hbind _⟩

lemma body_finite (h : build_body c ad_pend_list = .ok body) :
    body.val.finite = true ↔ (∀ imp ∈ body.imp, imp.val.finite = true) ∧
      PairFinite (pair c comma c.ad_req.lbs) ∧ c.ad_req.carrier.finite = true ∧
        ∀ v ∈ c.ad_req.device.platform, v.finite := by
  obtain ⟨imps, -, u, info, -, -, rfl⟩ := build_body_ok.mp h
  have hat : Double.Finite RTB_OPEN_AUCTION := by decide +kernel
  have huser : (Val.obj (build_user c)).finite = true :=
    Val.finite_obj.mpr fun e he => (user_plain e he).1
  have happ : (Val.fields [("name", some (.str c.ad_req.app.name)),
      ("cat", c.ad_req.app.category.map .str)]).finite = true := by
    cases c.ad_req.app.category <;> simp
  rw [← device_finite, Body.val, Val.finite_fields]
  simp only [List.forall_mem_cons, List.not_mem_nil, false_imp_iff, implies_true, Option.mem_def,
    Option.some.injEq, forall_eq', finite_str, finite_num, hat, happ, huser, Val.finite_strs,
    Val.finite_arr, Val.finite_fields, List.forall_mem_map, true_and, and_true]

lemma imp_depth (h : build_imp c u = .ok imp) : imp.val.depth ≤ 2 := by
  obtain ⟨size, -, rfl⟩ := build_imp_ok.mp h
  obtain ⟨hw, hh⟩ := pair_depth c star size
  have hnum : ∀ q, (Val.num q).depth ≤ 0 := by simp
  have hstr : ∀ s, (Val.str s).depth ≤ 0 := by simp
  have hbanner : (Val.fields [("type", ((c.dict.adunit u.id).map AdUnitInfo.type).map .str),
      ("w", (pair c star size).1), ("h", (pair c star size).2),
      ("num", ((c.dict.adunit u.id).map AdUnitInfo.ad_num).map .num)]).depth ≤ 1 := by
    rw [Val.depth_fields_le]
    simp only [List.forall_mem_cons, List.not_mem_nil, false_imp_iff, implies_true, Option.mem_def,
      Option.map_map, Option.map_eq_some_iff, forall_exists_index, and_imp, and_true]
    refine ⟨?_, fun v hv => (hw v hv).le, fun v hv => (hh v hv).le, ?_⟩
    · rintro _ info - rfl
      exact hstr _
    · rintro _ info - rfl
      exact hnum _
  rw [Imp.val, Val.depth_fields_le]
  simp only [List.forall_mem_cons, List.not_mem_nil, false_imp_iff, implies_true, Option.mem_def,
    Option.some.injEq, forall_eq', hbanner, depth_str, Nat.zero_le, true_and, and_true]
  rintro v hv
  obtain ⟨info, -, rfl⟩ := Option.map_eq_some_iff.mp hv
  cases info.min_price <;> simp

/-- The body nests four tables deep. -/
lemma body_depth (hcarrier : c.ad_req.carrier.isText)
    (hplatform : ∀ v ∈ c.ad_req.device.platform, v.isText)
    (h : build_body c ad_pend_list = .ok body) : body.val.depth ≤ encode_max_depth := by
  obtain ⟨imps, himps, u, info, -, -, rfl⟩ := build_body_ok.mp h
  have himp : (Val.arr (imps.map Imp.val)).depth ≤ 3 := by
    rw [Val.depth_arr_le, List.forall_mem_map]
    intro imp himp
    obtain ⟨u, -, hu⟩ := mapM_mem himps himp
    exact imp_depth hu
  have hdevice : (Val.fields (build_device c)).depth ≤ 3 := by
    rw [Val.depth_fields_le]
    intro e he v hv
    rw [device_depth hcarrier hplatform e he v hv]
    omega
  have huser : (Val.obj (build_user c)).depth ≤ 3 := by
    rw [Val.depth_obj_le]
    intro e he
    exact le_trans (user_plain e he).2 (by omega)
  have happ : (Val.fields [("name", some (.str c.ad_req.app.name)),
      ("cat", c.ad_req.app.category.map .str)]).depth ≤ 3 := by
    rw [Val.depth_fields_le]
    cases c.ad_req.app.category <;> simp
  have hstrs : ∀ l : List Str, (Val.strs l).depth ≤ 3 := by
    intro l
    rw [Val.strs, Val.depth, Val.depthArr_texts (by simp)]
    simp [Val.depthHash]
  refine le_trans (b := 3 + 1) (Val.depth_fields_le.mpr ?_) (by decide)
  simp only [List.forall_mem_cons, List.not_mem_nil, false_imp_iff, implies_true, Option.mem_def,
    Option.some.injEq, forall_eq', depth_str, depth_num, himp, hdevice, huser, happ, hstrs,
    Nat.zero_le, and_true]

lemma log_dsp_req_isOk : log_dsp_req c = .ok () ↔
    c.ad_req.carrier.isText ∧ ∀ v ∈ c.ad_req.device.platform, v.isText := by
  unfold log_dsp_req concatVal
  cases c.ad_req.carrier.isText with
  | false => simp
  | true => cases c.ad_req.device.platform <;> simp

/-- The body is encoded and logged exactly when the request is printable. -/
lemma printable_iff (h : build_body c ad_pend_list = .ok body) :
    Encodes body.val ∧ log_dsp_req c = .ok () ↔ Printable c ad_pend_list := by
  obtain ⟨imps, himps, -⟩ := build_body_ok.mp h
  have himp : body.imp = imps := by
    obtain ⟨imps', himps', _, _, -, -, rfl⟩ := build_body_ok.mp h
    exact Except.ok.inj (himps'.symm.trans himps)
  rw [log_dsp_req_isOk, Encodes, body_finite h, himp, mem_imp himps]
  constructor
  · rintro ⟨⟨-, hall, hlbs, hcf, hpf⟩, hct, hpt⟩
    exact ⟨fun u hu => (hall u hu).1, fun u hu => (hall u hu).2, hlbs, ⟨hct, hcf⟩,
      fun v hv => ⟨hpt v hv, hpf v hv⟩⟩
  · intro hp
    have hpt := fun v hv => (hp.platform v hv).1
    exact ⟨⟨body_depth hp.carrier.1 hpt h, fun u hu => ⟨hp.size u hu, hp.unit u hu⟩, hp.lbs,
      hp.carrier.2, fun v hv => (hp.platform v hv).2⟩, hp.carrier.1, hpt⟩

end printable

section requests

variable {c : Ctx} {json_str dsp_id : Str} {ad_pend_list : List AdUnit} {dsp_bid_list : List Str}
  {reqs : List Req} {req : Req}

/-- The DSP is in the dictionary, with this URL. -/
def Parses (c : Ctx) (dsp_id : Str) (url : Inet) : Prop :=
  ∃ info, c.dict.dsp dsp_id = some info ∧ parse_inet_url c.lib (some info.bid_url) = some url

/-- The request goes where the URL of the DSP says. -/
def Addressed (c : Ctx) (dsp_id : Str) (req : Req) : Prop :=
  ∃ url, Parses c dsp_id url ∧ req.host = url.host ∧ req.port = url.port ∧ url.uri <+: req.path

lemma bid_req_some {r : Option Req} (h : bid_req c json_str dsp_id = .ok r) :
    ∃ req, r = some req ∧ Addressed c dsp_id req := by
  unfold bid_req at h
  obtain ⟨url, hurl, h⟩ := bind_ok.mp h
  obtain ⟨timeout, -, h⟩ := bind_ok.mp h
  split at h
  · cases h
  · next split hsplit =>
    rw [if_neg (host_ne_nil hsplit)] at h
    cases h
    cases url with
    | none => cases hsplit
    | some url =>
      rw [get_bid_url, getAttribute_eq, Except.ok.injEq] at hurl
      obtain ⟨info, hinfo, rfl⟩ := Option.map_eq_some_iff.mp hurl
      refine ⟨_, rfl, split, ⟨info, hinfo, hsplit⟩, rfl, rfl, ?_⟩
      dsimp only
      by_cases hsina : dsp_id = SINA_DSP_ID
      · rw [if_pos hsina]
        exact List.prefix_append _ _
      · rw [if_neg hsina]

lemma bid_req_isOk : (∃ r, bid_req c json_str dsp_id = .ok r) ↔ ∃ url, Parses c dsp_id url := by
  constructor
  · rintro ⟨r, h⟩
    obtain ⟨req, -, url, hurl, -⟩ := bid_req_some h
    exact ⟨url, hurl⟩
  · rintro ⟨url, info, hinfo, hurl⟩
    unfold bid_req get_bid_url get_timeout
    rw [getAttribute_eq, ok_bind, getAttribute_eq, ok_bind, hinfo]
    dsimp only [Option.map_some]
    rw [hurl]
    dsimp only
    rw [if_neg (host_ne_nil hurl)]
    exact ⟨_, rfl⟩

lemma bid_reqs_addressed {l : List (Option Req)}
    (h : dsp_bid_list.mapM (bid_req c json_str) = .ok l) :
    List.Forall₂ (Addressed c) dsp_bid_list l.reduceOption := by
  induction dsp_bid_list generalizing l with
  | nil =>
    cases h
    exact .nil
  | cons d ds ih =>
    obtain ⟨r, hr, rs, hrs, rfl⟩ := mapM_cons_ok.mp h
    obtain ⟨req, rfl, hreq⟩ := bid_req_some hr
    rw [List.reduceOption_cons_of_some]
    exact .cons hreq (ih hrs)

lemma build_bid_req_eq_ok : build_bid_req c ad_pend_list dsp_bid_list = .ok reqs ↔
    ∃ body, build_body c ad_pend_list = .ok body ∧ Encodes body.val ∧ log_dsp_req c = .ok () ∧
      ∃ l, dsp_bid_list.mapM (bid_req c (c.lib.cjson_encode body.val)) = .ok l ∧
        reqs = l.reduceOption := by
  unfold build_bid_req
  constructor
  · intro h
    obtain ⟨body, hbody, h⟩ := bind_ok.mp h
    obtain ⟨json_str, hjson, h⟩ := bind_ok.mp h
    have henc := Ngx.encode_isOk.mp ⟨json_str, hjson⟩
    rw [Ngx.encode_ok henc, Except.ok.injEq] at hjson
    subst hjson
    obtain ⟨l, hl, h⟩ := bind_ok.mp h
    obtain ⟨⟨⟩, hlog, hreqs⟩ := bind_ok.mp h
    cases hreqs
    exact ⟨body, hbody, henc, hlog, l, hl, rfl⟩
  · rintro ⟨body, hbody, henc, hlog, l, hl, rfl⟩
    exact bind_ok.mpr ⟨body, hbody, bind_ok.mpr ⟨_, Ngx.encode_ok henc,
      bind_ok.mpr ⟨l, hl, bind_ok.mpr ⟨(), hlog, rfl⟩⟩⟩⟩

/-- No DSP is left out: request `i` goes to DSP `i`. -/
lemma build_bid_req_ok (h : build_bid_req c ad_pend_list dsp_bid_list = .ok reqs) :
    List.Forall₂ (Addressed c) dsp_bid_list reqs := by
  obtain ⟨body, -, -, -, l, hl, rfl⟩ := build_bid_req_eq_ok.mp h
  exact bid_reqs_addressed hl

lemma build_bid_req_isOk : (∃ reqs, build_bid_req c ad_pend_list dsp_bid_list = .ok reqs) ↔
    Describable c ad_pend_list ∧ Printable c ad_pend_list ∧
      ∀ d ∈ dsp_bid_list, ∃ url, Parses c d url := by
  simp only [build_bid_req_eq_ok]
  constructor
  · rintro ⟨reqs, body, hbody, henc, hlog, l, hl, -⟩
    exact ⟨build_body_isOk.mp ⟨body, hbody⟩, (printable_iff hbody).mp ⟨henc, hlog⟩,
      fun d hd => bid_req_isOk.mp (mapM_isOk.mp ⟨l, hl⟩ d hd)⟩
  · rintro ⟨hbody, hprint, hurls⟩
    obtain ⟨body, hbody⟩ := build_body_isOk.mpr hbody
    obtain ⟨henc, hlog⟩ := (printable_iff hbody).mpr hprint
    obtain ⟨l, hl⟩ : ∃ l, dsp_bid_list.mapM (bid_req c (c.lib.cjson_encode body.val)) = .ok l :=
      mapM_isOk.mpr fun d hd => bid_req_isOk.mpr (hurls d hd)
    exact ⟨_, body, hbody, henc, hlog, l, hl, rfl⟩

end requests

end Sax.BidReq
