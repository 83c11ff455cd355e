import Sax.CHash
import Sax.Interleave
import Sax.Targeting

/-!
The records of an import and the reads after it, with the servers of `saxmob/tdm` told apart.

An import groups its rows by the address of their masters, sends each master its group in one
pipeline and all groups at once. A read asks a slave of the peer of its user.
-/

namespace Sax.Records

open Sax.LuaVal Sax.Loop Sax.Runtime Sax.CHash Sax.Interleave
open Sax.Atomic (Prog Prog.run_bind Prog.run_perform)
open Sax.Targeting (attr_mem index transfer_table parse)

/-- `_tdm_c_hash`, with the library it is used with. -/
structure Tdm where
  lib : Ngx
  hash : Hash
  order : Order
  self : Obj

/-- The records each server holds. -/
abbrev Servers := Addr → Tbl Str

/-- `SET id info` on a server. -/
structure Cmd where
  addr : Addr
  id : Str
  info : Str
  deriving DecidableEq

def Servers.set (s : Servers) (c : Cmd) : Servers :=
  Function.update s c.addr ((s c.addr).insert c.id c.info)

/-- A request to `redis.set`: `ids` and `infos` side by side, and the server of `opts`. -/
structure Req where
  records : List (Str × Str)
  opts : Addr

def Req.ids (req : Req) : List Str := req.records.map Prod.fst

/-- The commands of the pipeline. -/
def Req.cmds (req : Req) : List Cmd := req.records.map fun e => ⟨req.opts, e.1, e.2⟩

section source

variable (tdm : Tdm)

def Tdm.peer (key : Str) : Lua Peer := tdm.self.get_consistent_hash_peer tdm.hash tdm.order key

/-! ### Importing -/

/-- `ip .. port` -/
def addrText (addr : Addr) : Str := addr.ip ++ decimal addr.port

/-- The tables of `_format_data`. -/
structure Groups where
  temp : Tbl ℕ
  data : List Req

def Groups.add (s : Groups) (c : Cmd) : Groups :=
  match s.temp.get (addrText c.addr) with
  | some i => { s with data := s.data.modify (i - 1) fun req =>
      { req with records := req.records ++ [(c.id, c.info)] } }
  | none => ⟨s.temp.insert (addrText c.addr) (s.data.length + 1),
      s.data ++ [⟨[(c.id, c.info)], c.addr⟩]⟩

/-- The master of a row, which is chosen before the row is checked. -/
def master (row : Val) : Lua Addr := do
  let key ← checkString tdm.lib.tostring (← field "udid" (some row))
  return (← tdm.peer key).wr_master

/-- A row as a command for its master. -/
def format_row (row : Val) : Lua Cmd := do
  let addr ← master tdm row
  let row_arr ← transfer_table row
  let id ← checkString tdm.lib.tostring row_arr[0]?
  return ⟨addr, id, ← tdm.lib.encode (.arr row_arr)⟩

def format_data (rows : List Val) : Lua (List Req) := do
  let s ← rows.foldlM (fun s row => do return Groups.add s (← format_row tdm row)) ⟨∅, []⟩
  return s.data

/-- `_check_failed`: the results are those of the pipeline, or missing. -/
def check_failed (results : Option (List Bool)) (ids : List Str) : List Str :=
  match results with
  | none => ids
  | some acks => ((ids.zip acks).filter fun e => !e.2).map Prod.fst

/-- What comes of a request: its results, and the commands the server has carried out. Without
results these may be any of the commands. -/
inductive Sent (req : Req) : Option (List Bool) → List Cmd → Prop
  | lost {done} : done.Sublist req.cmds → Sent req none done
  | answered {acks} : acks.length = req.cmds.length →
    Sent req (some acks) (((req.cmds.zip acks).filter Prod.snd).map Prod.fst)

/-- The requests are sent, the servers carry out their commands in any order between them, and the
ids that failed are printed. -/
def Stored (data : List Req) (s s' : Servers) (failed : List Str) : Prop :=
  ∃ outcomes : List (Option (List Bool) × List Cmd),
    List.Forall₂ (fun req x => Sent req x.1 x.2) data outcomes ∧
    failed = (List.zipWith (fun req x => check_failed x.1 req.ids) data outcomes).flatten ∧
    ∃ log, Interleaved (outcomes.map Prod.snd) log ∧ s' = log.foldl Servers.set s

/-- `update_redis` accepts the rows and all of them are acknowledged. -/
def Imported (rows : List Val) (s s' : Servers) : Prop :=
  ∃ data, format_data tdm rows = .ok data ∧ Stored data s s' []

/-! ### Reading -/

/-- `_build_query`, whose request is for one id. -/
def build_query (draw : Draw) (id : Str) : Lua Addr := do
  match (← tdm.peer id).rd_slave with
  | none => throw .badLength
  | some rd_slave =>
    let i := if rd_slave.length > 1 then draw.pick 1 rd_slave.length else 1
    match rd_slave[i - 1]? with
    | some addr => return addr
    | none => throw .badIndex

/-- `_get_attr` up to the index. -/
def get_attr (object : Tbl Val) (dict : Tbl Str) (id : Str) : Option (Val × Tbl Val) :=
  match object.get id with
  | some res => some (res, object)
  | none => (dict.get id).bind fun info =>
    match tdm.lib.cjson_decode info with
    | .error _ => none
    | .ok res => some (res, object.insert id res)

/-- `_get_value` where redis answers, with the table of the object and the dictionary it leaves. -/
def get_value (servers : Servers) (draw : Draw) (object : Tbl Val) (dict : Tbl Str) (id : Str)
    (name : String) : Lua (Option Val × Tbl Val × Tbl Str) :=
  if id = [] then .ok (none, object, dict)
  else match get_attr tdm object dict id with
    | some (res, object) => return (← item (index name) (some res), object, dict)
    | none => do
      let addr ← build_query tdm draw id
      let (res_arr, info) := parse tdm.lib ((servers addr).get id)
      return (← item (index name) (some res_arr), object.insert id res_arr, dict.insert id info)

end source

/-! ### What should come back -/

/-- Each address holds what another does: a master its own records, and a slave those of the
master of its entry on its port. -/
structure Replicates (config : Config) (origin : Addr → Addr) : Prop where
  master : ∀ peer ∈ parse_server config, origin peer.wr_master = peer.wr_master
  slave : ∀ peer ∈ parse_server config, ∀ rd_slave, peer.rd_slave = some rd_slave →
    ∀ addr ∈ rd_slave, origin addr = peer.wr_master

/-- The last row of a user. -/
def IsLast (rows : List Val) (udid : Str) (row : Val) : Prop :=
  ∃ pre post, rows = pre ++ row :: post ∧ row.get "udid" = some (.str udid) ∧
    ∀ r ∈ post, r.get "udid" ≠ some (.str udid)

/-- **The batch is read back**: whatever the servers held before, after an import a fresh object
gets the attributes of the last row of each user, from every slave it may choose. -/
def ReadBack (tdm : Tdm) (origin : Addr → Addr) (rows : List Val) : Prop :=
  ∀ s s', Imported tdm rows s s' → ∀ udid row, udid ≠ [] → IsLast rows udid row →
    ∀ name ∈ attr_mem, ∀ draw dict, dict.get udid = none →
      (get_value tdm (fun addr => s' (origin addr)) draw ∅ dict udid name).map Prod.fst =
        .ok (some ((row.get name).getD (.str [])))

/-- The master that the records of the same address text are sent to. -/
def sentTo (tdm : Tdm) (rows : List Val) (addr : Addr) : Option Addr :=
  (rows.filterMap fun row => (master tdm row).toOption).find? fun a =>
    addrText a = addrText addr

/-- The records of a user go to its own master, it has slaves, and no attribute is `false`. -/
structure Fit (tdm : Tdm) (rows : List Val) (udid : Str) (row : Val) : Prop where
  master : ∀ peer, tdm.peer udid = .ok peer → sentTo tdm rows peer.wr_master = some peer.wr_master
  slaves : ∀ peer, tdm.peer udid = .ok peer → peer.rd_slave ≠ none
  value : ∀ name ∈ attr_mem, row.get name ≠ some (.bool false)

/-! ### The groups of an import -/

section groups

variable {cs : List Cmd} {g : Groups} {c : Cmd} {a : Addr}

/-- The commands whose masters have the address text `k`, in their order. -/
def withText (cs : List Cmd) (k : Str) : List Cmd := cs.filter fun c => addrText c.addr = k

/-- The groups hold the commands, each under its address text, for the first master that has it. -/
structure Grouped (cs : List Cmd) (g : Groups) : Prop where
  fresh : ∀ k, g.temp.get k = none → withText cs k = []
  filed : ∀ k i, g.temp.get k = some i → 1 ≤ i ∧ ∃ req, g.data[i - 1]? = some req ∧
    req.records = (withText cs k).map (fun c => (c.id, c.info)) ∧
    (withText cs k).head?.map Cmd.addr = some req.opts
  known : ∀ j req, g.data[j]? = some req → ∃ k, g.temp.get k = some (j + 1)

lemma grouped_nil : Grouped [] ⟨∅, []⟩ :=
  ⟨fun _ _ => rfl, fun k i h => by simp at h, fun j req h => by simp at h⟩

lemma withText_snoc (cs : List Cmd) (c : Cmd) (k : Str) :
    withText (cs ++ [c]) k = if addrText c.addr = k then withText cs k ++ [c] else withText cs k := by
  unfold withText
  rw [List.filter_append]
  split
  · next h => rw [List.filter_cons_of_pos (by simpa using h), List.filter_nil]
  · next h => rw [List.filter_cons_of_neg (by simpa using h), List.filter_nil, List.append_nil]

lemma addrText_of_head? {k : Str} (h : (withText cs k).head?.map Cmd.addr = some a) :
    addrText a = k := by
  obtain ⟨c, hc, rfl⟩ := Option.map_eq_some_iff.mp h
  have hmem := List.mem_filter.mp (List.mem_of_mem_head? hc)
  exact of_decide_eq_true hmem.2

/-- A request is the only one for its address text. -/
lemma Grouped.text_get (h : Grouped cs g) {j : ℕ} {req : Req} (hreq : g.data[j]? = some req) :
    g.temp.get (addrText req.opts) = some (j + 1) := by
  obtain ⟨k, hk⟩ := h.known j req hreq
  obtain ⟨-, req', hreq', -, hopts⟩ := h.filed k (j + 1) hk
  rw [Nat.add_sub_cancel, hreq, Option.some.injEq] at hreq'
  subst hreq'
  rwa [addrText_of_head? hopts]

/-- A request holds the commands of its address text, and is for the master of the first. -/
lemma Grouped.req (h : Grouped cs g) {j : ℕ} {req : Req} (hreq : g.data[j]? = some req) :
    req.records = (withText cs (addrText req.opts)).map (fun c => (c.id, c.info)) ∧
      (withText cs (addrText req.opts)).head?.map Cmd.addr = some req.opts := by
  obtain ⟨-, req', hreq', hrecords, hopts⟩ := h.filed _ _ (h.text_get hreq)
  rw [Nat.add_sub_cancel, hreq, Option.some.injEq] at hreq'
  subst hreq'
  exact ⟨hrecords, hopts⟩

/-- No two requests are for one address text. -/
lemma Grouped.req_inj (h : Grouped cs g) {i j : ℕ} {req req' : Req} (hi : g.data[i]? = some req)
    (hj : g.data[j]? = some req') (htext : addrText req.opts = addrText req'.opts) : i = j := by
  have hget := h.text_get hi
  rw [htext, h.text_get hj, Option.some.injEq] at hget
  omega

/-- No two requests are for one server. -/
lemma Grouped.opts_nodup (h : Grouped cs g) : (g.data.map Req.opts).Nodup := by
  rw [List.nodup_iff_getElem?_ne_getElem?]
  intro i j hij hj heq
  rw [List.length_map] at hj
  have hi : i < g.data.length := hij.trans hj
  simp only [List.getElem?_map, List.getElem?_eq_getElem hi, List.getElem?_eq_getElem hj,
    Option.map_some, Option.some.injEq] at heq
  exact hij.ne (h.req_inj (List.getElem?_eq_getElem hi) (List.getElem?_eq_getElem hj)
    (congrArg addrText heq))

/-- A request is for the master of a command. -/
lemma Grouped.exists_first (h : Grouped cs g) {j : ℕ} {req : Req} (hreq : g.data[j]? = some req) :
    ∃ first ∈ cs, first.addr = req.opts := by
  obtain ⟨first, hfirst, hopts⟩ := Option.map_eq_some_iff.mp (h.req hreq).2
  exact ⟨first, (List.mem_filter.mp (List.mem_of_mem_head? hfirst)).1, hopts⟩

/-- A command has the request of its address text. -/
lemma Grouped.exists_req (h : Grouped cs g) (hc : c ∈ cs) :
    ∃ (i : ℕ) (req : Req), g.data[i]? = some req ∧ addrText req.opts = addrText c.addr := by
  have hmem : c ∈ withText cs (addrText c.addr) := List.mem_filter.mpr ⟨hc, by simp⟩
  cases hget : g.temp.get (addrText c.addr) with
  | none =>
    rw [h.fresh _ hget] at hmem
    cases hmem
  | some i =>
    obtain ⟨-, req, hreq, -, hopts⟩ := h.filed _ i hget
    exact ⟨i - 1, req, hreq, addrText_of_head? hopts⟩

/-- A command whose address text is new opens a group. -/
lemma Grouped.add_new (h : Grouped cs g) (hget : g.temp.get (addrText c.addr) = none) :
    Grouped (cs ++ [c]) (g.add c) := by
  unfold Groups.add
  rw [hget]
  dsimp only
  have hother : ∀ {k}, addrText c.addr ≠ k →
      Tbl.get (g.temp.insert (addrText c.addr) (g.data.length + 1)) k = g.temp.get k :=
    fun hk => AList.lookup_insert_ne (Ne.symm hk)
  refine ⟨fun k hk => ?_, fun k i hk => ?_, fun j req hreq => ?_⟩
  · by_cases hkc : addrText c.addr = k
    · subst hkc
      simp [Tbl.get] at hk
    · rw [withText_snoc, if_neg hkc]
      exact h.fresh k (hother hkc ▸ hk)
  · by_cases hkc : addrText c.addr = k
    · subst hkc
      rw [Tbl.get, AList.lookup_insert, Option.some.injEq] at hk
      subst hk
      refine ⟨by omega, ⟨[(c.id, c.info)], c.addr⟩, by simp, ?_, ?_⟩ <;>
        simp [withText_snoc, h.fresh _ hget]
    · obtain ⟨hi, req, hreq, hrecords, hopts⟩ := h.filed k i (hother hkc ▸ hk)
      rw [withText_snoc, if_neg hkc]
      refine ⟨hi, req, ?_, hrecords, hopts⟩
      rw [List.getElem?_append_left (List.getElem?_eq_some_iff.mp hreq).1, hreq]
  · rcases Nat.lt_or_ge j g.data.length with hj | hj
    · rw [List.getElem?_append_left hj] at hreq
      obtain ⟨k, hk⟩ := h.known j req hreq
      refine ⟨k, ?_⟩
      rwa [hother]
      rintro rfl
      rw [hget] at hk
      cases hk
    · have hlast : j = g.data.length := by
        have hlt := (List.getElem?_eq_some_iff.mp hreq).1
        rw [List.length_append, List.length_singleton] at hlt
        omega
      exact ⟨addrText c.addr, by simp [Tbl.get, hlast]⟩

/-- A command whose address text is known joins the group of it. -/
lemma Grouped.add_known {i : ℕ} (h : Grouped cs g) (hget : g.temp.get (addrText c.addr) = some i) :
    Grouped (cs ++ [c]) (g.add c) := by
  unfold Groups.add
  rw [hget]
  dsimp only
  obtain ⟨hi, req, hreq, hrecords, hopts⟩ := h.filed _ i hget
  refine ⟨fun k hk => ?_, fun k i' hk => ?_, fun j req' hreq' => ?_⟩
  · rw [withText_snoc, if_neg]
    · exact h.fresh k hk
    · rintro rfl
      rw [hget] at hk
      cases hk
  · by_cases hkc : addrText c.addr = k
    · subst hkc
      rw [hget, Option.some.injEq] at hk
      subst hk
      refine ⟨hi, { req with records := req.records ++ [(c.id, c.info)] }, ?_, ?_, ?_⟩
      · rw [List.getElem?_modify_eq, hreq]
        rfl
      · simp [withText_snoc, hrecords]
      · rw [withText_snoc, if_pos rfl, List.head?_append_of_ne_nil, hopts]
        intro hnil
        rw [hnil] at hopts
        cases hopts
    · obtain ⟨hi', req', hreq', hrecords', hopts'⟩ := h.filed k i' hk
      rw [withText_snoc, if_neg hkc]
      refine ⟨hi', req', ?_, hrecords', hopts'⟩
      have hne : i - 1 ≠ i' - 1 := by
        intro heq
        rw [← heq] at hreq'
        rw [hreq, Option.some.injEq] at hreq'
        subst hreq'
        exact hkc ((addrText_of_head? hopts).symm.trans (addrText_of_head? hopts'))
      rw [List.getElem?_modify_ne _ _ hne, hreq']
  · obtain ⟨req'', hreq''⟩ : ∃ req'', g.data[j]? = some req'' := by
      have hlt := (List.getElem?_eq_some_iff.mp hreq').1
      rw [List.length_modify] at hlt
      exact ⟨_, List.getElem?_eq_getElem hlt⟩
    exact h.known j req'' hreq''

/-- Step lemma: the next command joins its group, or opens one. -/
lemma Grouped.add (h : Grouped cs g) (c : Cmd) : Grouped (cs ++ [c]) (g.add c) := by
  cases hget : g.temp.get (addrText c.addr) with
  | none => exact h.add_new hget
  | some i => exact h.add_known hget

lemma grouped_foldl (cs : List Cmd) : Grouped cs (cs.foldl Groups.add ⟨∅, []⟩) := by
  induction cs using List.reverseRecOn with
  | nil => exact grouped_nil
  | append_singleton cs c ih =>
    rw [List.foldl_append]
    exact ih.add c

end groups

/-! ### What the servers hold after an import -/

section stored

variable {cs log : List Cmd} {g : Groups} {a : Addr} {data : List Req} {s s' : Servers} {udid : Str}

/-- The master that a command is sent to. -/
def sentAddr (cs : List Cmd) (a : Addr) : Option Addr := (withText cs (addrText a)).head?.map Cmd.addr

/-- A server that no request is for carries out nothing. -/
lemma log_filter_nil (hlog : Interleaved (data.map Req.cmds) log)
    (hne : ∀ (j : ℕ) req, data[j]? = some req → req.opts ≠ a) :
    log.filter (fun c => c.addr = a) = [] := by
  rw [List.filter_eq_nil_iff]
  intro c hc
  obtain ⟨l, hl, hcl⟩ := hlog.mem_iff.mp hc
  obtain ⟨req, hreq, rfl⟩ := List.mem_map.mp hl
  obtain ⟨e, -, rfl⟩ := List.mem_map.mp hcl
  obtain ⟨j, hj⟩ := List.mem_iff_getElem?.mp hreq
  simpa using hne j req hj

/-- The other requests are for other servers. -/
lemma Grouped.addr_ne (h : Grouped cs g) {i j : ℕ} {req req' : Req} (hi : g.data[i]? = some req)
    (hj : g.data[j]? = some req') (hne : j ≠ i) :
    ∀ c ∈ req'.cmds, decide (c.addr = req.opts) = false := by
  intro c hc
  obtain ⟨e, -, rfl⟩ := List.mem_map.mp hc
  exact decide_eq_false fun heq => hne (h.req_inj hj hi (congrArg addrText heq))

/-- A server carries out the commands sent to it in their order. -/
lemma Grouped.log_filter (h : Grouped cs g) (hlog : Interleaved (g.data.map Req.cmds) log) (a : Addr) :
    log.filter (fun c => c.addr = a) =
      if sentAddr cs a = some a then (withText cs (addrText a)).map fun c => ⟨a, c.id, c.info⟩
      else [] := by
  split
  · next hsent =>
    obtain ⟨first, hfirst, rfl⟩ := Option.map_eq_some_iff.mp hsent
    have hfirst_mem : first ∈ cs := (List.mem_filter.mp (List.mem_of_mem_head? hfirst)).1
    obtain ⟨i, req, hreq, htext⟩ := h.exists_req hfirst_mem
    obtain ⟨hrecords, hopts⟩ := h.req hreq
    rw [htext] at hrecords hopts
    have haddr : req.opts = first.addr := by
      rw [hfirst, Option.map_some, Option.some.injEq] at hopts
      exact hopts.symm
    obtain ⟨hlt, hreq'⟩ := List.getElem?_eq_some_iff.mp hreq
    have hsplit : g.data = g.data.take i ++ req :: g.data.drop (i + 1) := by
      rw [← hreq', List.getElem_cons_drop, List.take_append_drop]
    have hcmds : req.cmds =
        (withText cs (addrText first.addr)).map fun c => ⟨first.addr, c.id, c.info⟩ := by
      rw [Req.cmds, hrecords, haddr, List.map_map]
      rfl
    rw [hsplit, List.map_append, List.map_cons] at hlog
    rw [hlog.filter_eq, hcmds, List.filter_eq_self]
    · intro c hc
      obtain ⟨c', -, rfl⟩ := List.mem_map.mp hc
      exact decide_eq_true rfl
    · intro l hl c hc
      obtain ⟨req', hmem, rfl⟩ := List.mem_map.mp hl
      obtain ⟨j, hj⟩ := List.mem_iff_getElem?.mp hmem
      rw [List.getElem?_take] at hj
      split at hj
      · exact haddr ▸ h.addr_ne hreq hj (by omega) c hc
      · cases hj
    · intro l hl c hc
      obtain ⟨req', hmem, rfl⟩ := List.mem_map.mp hl
      obtain ⟨j, hj⟩ := List.mem_iff_getElem?.mp hmem
      rw [List.getElem?_drop] at hj
      exact haddr ▸ h.addr_ne hreq hj (by omega) c hc
  · next hsent =>
    refine log_filter_nil hlog fun j req hreq heq => hsent ?_
    subst heq
    exact (h.req hreq).2

/-- The last command for an id on a server is what the server holds. -/
lemma get_foldl_set (log : List Cmd) (s : Servers) (a : Addr) (id : Str) :
    (log.foldl Servers.set s a).get id =
      (((log.filter fun c => c.addr = a).filter fun c => c.id = id).getLast?.map Cmd.info).or
        ((s a).get id) := by
  induction log using List.reverseRecOn with
  | nil => rfl
  | append_singleton log c ih =>
    rw [List.foldl_append, List.foldl_cons, List.foldl_nil]
    rw [List.filter_append, Servers.set]
    by_cases ha : c.addr = a
    · subst ha
      rw [Function.update_self, List.filter_cons_of_pos (by simp), List.filter_nil, List.filter_append]
      by_cases hid : c.id = id
      · subst hid
        simp [Tbl.get]
      · rw [List.filter_cons_of_neg (by simpa using hid), List.filter_nil, List.append_nil, ← ih,
          Tbl.get, AList.lookup_insert_ne (Ne.symm hid)]
    · rw [Function.update_of_ne (Ne.symm ha), List.filter_cons_of_neg (by simpa using ha),
        List.filter_nil, List.append_nil, ih]

lemma filter_zip_true {α : Type} {l : List α} {acks : List Bool} (hlength : acks.length = l.length)
    (h : ∀ ack ∈ acks, ack = true) : ((l.zip acks).filter Prod.snd).map Prod.fst = l := by
  rw [List.filter_eq_self.mpr fun e he => h e.2 (List.of_mem_zip he).2,
    List.map_fst_zip hlength.ge]

lemma Sent.acknowledged {req : Req} {results : Option (List Bool)} {done : List Cmd}
    (h : Sent req results done) (hfailed : check_failed results req.ids = []) : done = req.cmds := by
  cases h with
  | lost hdone =>
    have hnil : req.cmds = [] := by
      rw [check_failed, Req.ids, List.map_eq_nil_iff] at hfailed
      rw [Req.cmds, hfailed, List.map_nil]
    rw [hnil] at hdone ⊢
    exact List.sublist_nil.mp hdone
  | answered hlength =>
    rename_i acks
    refine filter_zip_true hlength fun ack hack => ?_
    have hids : req.ids.length = req.cmds.length := by simp [Req.ids, Req.cmds]
    rw [check_failed, List.map_eq_nil_iff, List.filter_eq_nil_iff] at hfailed
    have hzip : (req.ids.zip acks).map Prod.snd = acks := List.map_snd_zip (by omega)
    rw [← hzip] at hack
    obtain ⟨e, he, rfl⟩ := List.mem_map.mp hack
    simpa using hfailed e he

/-- An acknowledged import has had all its commands carried out. -/
lemma Stored.all_done (h : Stored data s s' []) :
    ∃ log, Interleaved (data.map Req.cmds) log ∧ s' = log.foldl Servers.set s := by
  obtain ⟨outcomes, hsent, hfailed, log, hlog, rfl⟩ := h
  refine ⟨log, ?_, rfl⟩
  suffices houtcomes : outcomes.map Prod.snd = data.map Req.cmds by rwa [← houtcomes]
  have hfailed' := List.flatten_eq_nil_iff.mp hfailed.symm
  clear hlog hfailed
  induction hsent with
  | nil => rfl
  | cons hx _ ih =>
    rw [List.zipWith_cons_cons, List.forall_mem_cons] at hfailed'
    rw [List.map_cons, List.map_cons, hx.acknowledged hfailed'.1, ih hfailed'.2]

/-- A request whose commands are all acknowledged. -/
def allDone (req : Req) : Option (List Bool) × List Cmd :=
  (some (List.replicate req.cmds.length true), req.cmds)

lemma sent_allDone (req : Req) : Sent req (allDone req).1 (allDone req).2 := by
  have hanswered := @Sent.answered req (List.replicate req.cmds.length true) List.length_replicate
  rwa [filter_zip_true (by simp) fun ack hack => List.eq_of_mem_replicate hack] at hanswered

lemma check_allDone (req : Req) : check_failed (allDone req).1 req.ids = [] := by
  rw [allDone, check_failed, List.map_eq_nil_iff, List.filter_eq_nil_iff]
  intro e he
  simp [List.eq_of_mem_replicate (List.of_mem_zip he).2]

/-- Every import can be acknowledged. -/
lemma stored_exists (data : List Req) (s : Servers) : ∃ s', Stored data s s' [] := by
  refine ⟨_, data.map allDone, ?_, ?_, _, interleaved_flatten _, rfl⟩
  · rw [List.forall₂_map_right_iff, List.forall₂_same]
    exact fun req _ => sent_allDone req
  · symm
    rw [List.zipWith_map_right, List.zipWith_self, List.flatten_eq_nil_iff]
    intro l hl
    obtain ⟨req, -, rfl⟩ := List.mem_map.mp hl
    exact check_allDone req

end stored

/-! ### The rows -/

section rows

variable {tdm : Tdm} {rows : List Val} {row : Val} {c : Cmd} {cs : List Cmd} {data : List Req}
  {udid : Str}

/-- The text that is stored for an attribute. -/
def text (row : Val) (name : String) : Str :=
  match row.get name with
  | some (.str s) => s
  | _ => []

def texts (row : Val) : List Str := attr_mem.map (text row)

/-- An attribute of a row, as it is checked and filled in. -/
def attr (row : Val) (name : String) : Lua Val :=
  match row.get name with
  | none | some (.bool false) => .ok (.str [])
  | some (.str s) => .ok (.str s)
  | some _ => .error (.error "Bad Request")

lemma attr_ok {name : String} {v : Val} (h : attr row name = .ok v) : v = .str (text row name) ∧
    (row.get name ≠ some (.bool false) → (row.get name).getD (.str []) = v) := by
  unfold attr at h
  unfold text
  split at h <;> cases h <;> simp_all

lemma transfer_table_attr {l : List Val} (h : transfer_table row = .ok l) :
    attr_mem.mapM (attr row) = .ok l ∧ row.get "udid" ≠ none ∧
      row.get "udid" ≠ some (.bool false) := by
  unfold transfer_table at h
  split at h
  · cases h
  · cases h
  · next hnone hfalse => exact ⟨h, hnone, hfalse⟩

lemma transfer_table_ok {l : List Val} (h : transfer_table row = .ok l) :
    l = (texts row).map .str ∧ row.get "udid" = some (.str (text row "udid")) ∧
      ∀ name ∈ attr_mem, row.get name ≠ some (.bool false) →
        (row.get name).getD (.str []) = .str (text row name) := by
  obtain ⟨hl, hnone, hfalse⟩ := transfer_table_attr h
  have hname : ∀ name ∈ attr_mem, row.get name ≠ some (.bool false) →
      (row.get name).getD (.str []) = .str (text row name) := by
    intro name hmem hne
    obtain ⟨v, -, hv⟩ := mem_mapM hl hmem
    obtain ⟨rfl, hvalue⟩ := attr_ok hv
    exact hvalue hne
  refine ⟨?_, ?_, hname⟩
  · have hall := mapM_map_eq (fun name v hv => (attr_ok hv).1) hl
    rw [List.map_id'] at hall
    rw [hall, texts, List.map_map]
    rfl
  · have hudid := hname "udid" (by decide) hfalse
    obtain ⟨v, hv⟩ := Option.ne_none_iff_exists'.mp hnone
    rw [hv] at hudid ⊢
    rw [← hudid]
    rfl

lemma texts_head (row : Val) : ((texts row).map Val.str)[0]? = some (.str (text row "udid")) := rfl

/-- A row that is accepted becomes a command for the master of its user. -/
lemma format_row_ok (h : format_row tdm row = .ok c) :
    row.get "udid" = some (.str c.id) ∧ master tdm row = .ok c.addr ∧
      (∃ peer, tdm.peer c.id = .ok peer ∧ peer.wr_master = c.addr) ∧
      c.info = tdm.lib.cjson_encode (.strs (texts row)) ∧
      ∀ name ∈ attr_mem, row.get name ≠ some (.bool false) →
        (row.get name).getD (.str []) = .str (text row name) := by
  obtain ⟨addr, haddr, h⟩ := bind_ok.mp h
  obtain ⟨row_arr, harr, h⟩ := bind_ok.mp h
  obtain ⟨rfl, hudid, hname⟩ := transfer_table_ok harr
  rw [texts_head, checkString, ok_bind] at h
  obtain ⟨info, hinfo, h⟩ := bind_ok.mp h
  cases h
  have hpeer : ∃ peer, tdm.peer (text row "udid") = .ok peer ∧ peer.wr_master = addr := by
    have hfield : field "udid" (some row) = .ok (some (.str (text row "udid"))) := by
      cases row with
      | table a g => exact congrArg _ hudid
      | _ => cases hudid
    rw [master, hfield, ok_bind, checkString, ok_bind] at haddr
    obtain ⟨peer, hpeer, haddr⟩ := bind_ok.mp haddr
    cases haddr
    exact ⟨peer, hpeer, rfl⟩
  refine ⟨hudid, haddr, hpeer, ?_, hname⟩
  rw [Ngx.encode_ok (Ngx.encode_isOk.mp ⟨_, hinfo⟩), Except.ok.injEq] at hinfo
  exact hinfo.symm

/-- A batch that is accepted is grouped from the commands of its rows. -/
lemma format_data_ok (h : format_data tdm rows = .ok data) :
    ∃ cs, rows.mapM (format_row tdm) = .ok cs ∧ data = (cs.foldl Groups.add ⟨∅, []⟩).data := by
  have hfold : ∀ {rows : List Val} {g g' : Groups},
      rows.foldlM (fun s row => do return Groups.add s (← format_row tdm row)) g = .ok g' →
        ∃ cs, rows.mapM (format_row tdm) = .ok cs ∧ g' = cs.foldl Groups.add g := by
    intro rows
    induction rows with
    | nil =>
      intro g g' h
      cases h
      exact ⟨[], rfl, rfl⟩
    | cons row rows ih =>
      intro g g' h
      obtain ⟨g₁, hg₁, h⟩ := foldlM_cons_ok.mp h
      obtain ⟨c, hc, hg₁⟩ := bind_ok.mp hg₁
      cases hg₁
      obtain ⟨cs, hcs, rfl⟩ := ih h
      exact ⟨c :: cs, mapM_cons_ok.mpr ⟨c, hc, cs, hcs, rfl⟩, rfl⟩
  obtain ⟨g, hg, h⟩ := bind_ok.mp h
  cases h
  obtain ⟨cs, hcs, rfl⟩ := hfold hg
  exact ⟨cs, hcs, rfl⟩

/-- The master the rows of a text are sent to is that of their commands. -/
lemma sentTo_eq (hcs : rows.mapM (format_row tdm) = .ok cs) (a : Addr) :
    sentTo tdm rows a = sentAddr cs a := by
  have hmasters : rows.filterMap (fun row => (master tdm row).toOption) = cs.map Cmd.addr := by
    have hall : cs.map (fun c => some c.addr) = rows.map fun row => (master tdm row).toOption :=
      mapM_map_eq (fun row c hc => by rw [(format_row_ok hc).2.1]; rfl) hcs
    have hid : rows.filterMap (fun row => (master tdm row).toOption) =
        (rows.map fun row => (master tdm row).toOption).filterMap id := by
      rw [List.filterMap_map]
      rfl
    rw [hid, ← hall, List.filterMap_map]
    exact congrFun (List.filterMap_eq_map (f := Cmd.addr)) cs
  rw [sentTo, hmasters, sentAddr, withText, List.head?_filter, List.find?_map]
  rfl

/-- The command of the last row of a user is the last one for it. -/
lemma isLast_cmd (hcs : rows.mapM (format_row tdm) = .ok cs) (hlast : IsLast rows udid row) :
    ∃ pre c post, cs = pre ++ c :: post ∧ format_row tdm row = .ok c ∧ c.id = udid ∧
      ∀ c' ∈ post, c'.id ≠ udid := by
  obtain ⟨pre, post, rfl, hudid, hpost⟩ := hlast
  rw [List.mapM_append] at hcs
  obtain ⟨cs₁, -, hcs⟩ := bind_ok.mp hcs
  obtain ⟨cs₂, hcs₂, hcs⟩ := bind_ok.mp hcs
  cases hcs
  obtain ⟨c, hc, cs₃, hcs₃, rfl⟩ := mapM_cons_ok.mp hcs₂
  have hid : c.id = udid := by
    have hget := (format_row_ok hc).1
    rw [hudid] at hget
    cases hget
    rfl
  refine ⟨cs₁, c, cs₃, rfl, hc, hid, fun c' hc' => ?_⟩
  obtain ⟨row', hrow', hc'⟩ := mapM_mem hcs₃ hc'
  rintro rfl
  exact hpost row' hrow' (format_row_ok hc').1

/-- **What an import leaves for a user on its master**: its last record if its records are sent
there, and what was there otherwise. -/
lemma Imported.get {s s' : Servers} (hcs : rows.mapM (format_row tdm) = .ok cs)
    (h : Imported tdm rows s s') (hlast : IsLast rows udid row) (hc : format_row tdm row = .ok c) :
    (s' c.addr).get udid =
      if sentTo tdm rows c.addr = some c.addr then some c.info else (s c.addr).get udid := by
  obtain ⟨data, hdata, hstored⟩ := h
  obtain ⟨cs', hcs', rfl⟩ := format_data_ok hdata
  rw [hcs] at hcs'
  cases hcs'
  obtain ⟨log, hlog, rfl⟩ := hstored.all_done
  rw [sentTo_eq hcs, get_foldl_set, (grouped_foldl cs).log_filter hlog]
  obtain ⟨pre, c', post, rfl, hc', hid, hpost⟩ := isLast_cmd hcs hlast
  rw [hc] at hc'
  cases hc'
  split
  · have hsplit : withText (pre ++ c :: post) (addrText c.addr) =
        withText pre (addrText c.addr) ++ c :: withText post (addrText c.addr) := by
      unfold withText
      rw [List.filter_append, List.filter_cons_of_pos (by simp)]
    have hnil : ((withText post (addrText c.addr)).map fun c' => (⟨c.addr, c'.id, c'.info⟩ : Cmd)).filter
        (fun c' => c'.id = udid) = [] := by
      rw [List.filter_eq_nil_iff]
      intro x hx
      obtain ⟨c', hc', rfl⟩ := List.mem_map.mp hx
      simpa using hpost c' (List.mem_filter.mp hc').1
    rw [hsplit, List.map_append, List.map_cons, List.filter_append,
      List.filter_cons_of_pos (by simpa using hid), hnil, List.getLast?_append]
    rfl
  · rfl

/-! ### Reading it back -/

section read

variable {servers : Servers} {draw : Draw} {dict : Tbl Str} {name : String}

/-- A fresh object without an entry in the dictionary asks redis. -/
lemma get_value_fresh (hne : udid ≠ []) (hdict : dict.get udid = none) :
    (get_value tdm servers draw ∅ dict udid name).map Prod.fst =
      (do let addr ← build_query tdm draw udid
          item (index name) (some (parse tdm.lib ((servers addr).get udid)).1)) := by
  have hattr : get_attr tdm ∅ dict udid = none := by
    rw [get_attr, hdict]
    rfl
  rw [get_value, if_neg hne, hattr]
  dsimp only
  cases build_query tdm draw udid with
  | error e => rfl
  | ok addr =>
    simp only [ok_bind]
    cases item (index name) (some (parse tdm.lib ((servers addr).get udid)).1) <;> rfl

lemma get_attr_run {object : Tbl Val} (s : Targeting.Shared) :
    (Targeting.get_attr tdm.lib object udid).run Targeting.exec s =
      (get_attr tdm object s.dict udid, s) := by
  unfold Targeting.get_attr get_attr
  cases object.get udid with
  | some res => rfl
  | none =>
    dsimp only
    rw [Prog.run_bind, Prog.run_perform]
    simp only [Targeting.exec]
    cases s.dict.get udid with
    | none => rfl
    | some info =>
      dsimp only [Option.bind_some]
      cases tdm.lib.cjson_decode info <;> rfl

/-- Against the slave it chooses, a read is the one of `Targeting` with nothing in between. -/
lemma get_value_run {object : Tbl Val} {addr : Addr} (hquery : build_query tdm draw udid = .ok addr) :
    ((Targeting.get_value tdm.lib object udid (index name)).run Targeting.exec
        ⟨servers addr, dict, .up⟩).1 =
      (get_value tdm servers draw object dict udid name).map fun r => (r.1, r.2.1) := by
  unfold Targeting.get_value get_value
  split
  · rfl
  · rw [Prog.run_bind, get_attr_run]
    dsimp only
    cases get_attr tdm object dict udid with
    | some found =>
      dsimp only
      cases item (index name) (some found.1) <;> rfl
    | none =>
      dsimp only
      rw [Prog.run_bind, Prog.run_perform, hquery, ok_bind]
      simp only [Targeting.exec]
      rw [Prog.run_bind, Prog.run_perform]
      cases item (index name) (some (parse tdm.lib ((servers addr).get udid)).1) <;> rfl

/-- A query goes to a slave of the user's peer, if there is one. -/
lemma build_query_ok {peer : Peer} (hpeer : tdm.peer udid = .ok peer) {rd_slave : List Addr}
    (hslave : peer.rd_slave = some rd_slave) (hne : rd_slave ≠ []) :
    ∃ addr ∈ rd_slave, build_query tdm draw udid = .ok addr := by
  have hlen := List.length_pos_iff.mpr hne
  have hlt : (if rd_slave.length > 1 then draw.pick 1 rd_slave.length else 1) - 1 <
      rd_slave.length := by
    split
    · next h =>
      have hlow := draw.le_pick 1 rd_slave.length h.le
      have hhigh := draw.pick_le 1 rd_slave.length h.le
      omega
    · omega
  refine ⟨_, List.getElem_mem hlt, ?_⟩
  rw [build_query, hpeer, ok_bind, hslave]
  simp only [List.getElem?_eq_getElem hlt]
  rfl

/-- Without a slave there is nobody to ask. -/
lemma build_query_none {peer : Peer} (hpeer : tdm.peer udid = .ok peer)
    (hslave : peer.rd_slave = none) (addr : Addr) : build_query tdm draw udid ≠ .ok addr := by
  rw [build_query, hpeer, ok_bind, hslave]
  exact fun h => nomatch h

/-- A record that is read back gives the texts of its row. -/
lemma item_parse (hjson : ∀ l : List Str, tdm.lib.cjson_decode (tdm.lib.cjson_encode (.strs l)) =
      .ok (.strs l)) (hname : name ∈ attr_mem) :
    item (index name) (some (parse tdm.lib (some (tdm.lib.cjson_encode (.strs (texts row))))).1) =
      .ok (some (.str (text row name))) := by
  have hidx : attr_mem[attr_mem.idxOf name]? = some name := by
    rw [List.getElem?_eq_getElem (List.idxOf_lt_length_iff.mpr hname), List.getElem_idxOf]
  have hparse : (parse tdm.lib (some (tdm.lib.cjson_encode (.strs (texts row))))).1 =
      .strs (texts row) := by
    simp only [parse, Option.getD_some, hjson]
  rw [hparse, Val.strs, item, index, Nat.add_sub_cancel, texts, List.getElem?_map,
    List.getElem?_map, hidx]
  rfl

/-- No record gives no attribute. -/
lemma item_parse_none (hempty : tdm.lib.cjson_decode (lit "[]") = .ok .empty) (i : ℕ) :
    item i (some (parse tdm.lib none).1) = .ok none := by
  simp [parse, hempty, Val.empty, item]

end read

lemma peer_mem {p : Peer} (h : tdm.peer udid = .ok p) : p ∈ tdm.self.rds_server := by
  have hbuckets : 1 ≤ tdm.self.buckets := by
    by_contra hzero
    obtain ⟨buckets, hinit, h⟩ := bind_ok.mp h
    unfold Obj.init_consistent_hash at hinit
    rw [Nat.eq_zero_of_not_pos hzero] at hinit
    cases hinit
    cases h
  obtain ⟨x, hx, hpeer, -⟩ : ∃ x ∈ tdm.self.nodes tdm.hash,
      tdm.peer udid = .ok x.rr_peer ∧ _ := get_peer_ok hbuckets (nodes_of_peer hbuckets h)
  rw [h] at hpeer
  cases hpeer
  obtain ⟨server, hserver, j, -, -, rfl⟩ := mem_nodes.mp hx
  exact hserver

/-- The slaves of a peer are none, or at least one. -/
lemma slaves_ne_nil {config : Config} {p : Peer} (h : p ∈ parse_server config) {l : List Addr}
    (hl : p.rd_slave = some l) : l ≠ [] := by
  obtain ⟨entry, -, hp⟩ := List.mem_flatMap.mp h
  obtain ⟨port, -, rfl⟩ := List.mem_map.mp hp
  dsimp only at hl
  split at hl
  · cases hl
  · next hne =>
    cases hl
    simpa using hne

/-- What a read after an import comes to, given the peer of the user. -/
lemma read_after {config : Config} {n : Option ℕ} (hself : tdm.self = new config n)
    {origin : Addr → Addr} (horigin : Replicates config origin) {s' : Servers} {draw : Draw}
    {dict : Tbl Str} {name : String} (hne : udid ≠ []) (hdict : dict.get udid = none) {peer : Peer}
    (hpeer : tdm.peer udid = .ok peer) (hslave : peer.rd_slave ≠ none) :
    (get_value tdm (fun addr => s' (origin addr)) draw ∅ dict udid name).map Prod.fst =
      item (index name) (some (parse tdm.lib ((s' peer.wr_master).get udid)).1) := by
  have hmem : peer ∈ parse_server config := by
    have hpeer_mem := peer_mem hpeer
    rwa [hself] at hpeer_mem
  obtain ⟨rd_slave, hrd⟩ := Option.ne_none_iff_exists'.mp hslave
  obtain ⟨addr, haddr, hquery⟩ : ∃ addr ∈ rd_slave, build_query tdm draw udid = .ok addr :=
    build_query_ok hpeer hrd (slaves_ne_nil hmem hrd)
  rw [get_value_fresh hne hdict, hquery, ok_bind, horigin.slave peer hmem rd_slave hrd addr haddr]

section fit

variable {config : Config} {n : Option ℕ} {origin : Addr → Addr} {s s' : Servers}

/-- A user whose records are sent to another master is not found where nothing was before. -/
lemma read_astray (hself : tdm.self = new config n) (horigin : Replicates config origin)
    (hempty : tdm.lib.cjson_decode (lit "[]") = .ok .empty)
    (hcs : rows.mapM (format_row tdm) = .ok cs) (himported : Imported tdm rows s s')
    (hlast : IsLast rows udid row) (hne : udid ≠ []) (hc : format_row tdm row = .ok c)
    (hsent : sentTo tdm rows c.addr ≠ some c.addr) (hnone : (s c.addr).get udid = none)
    {peer : Peer} (hpeer : tdm.peer udid = .ok peer) (hmaster : peer.wr_master = c.addr)
    (hslave : peer.rd_slave ≠ none) (name : String) (draw : Draw) {dict : Tbl Str}
    (hdict : dict.get udid = none) :
    (get_value tdm (fun addr => s' (origin addr)) draw ∅ dict udid name).map Prod.fst = .ok none := by
  rw [read_after hself horigin hne hdict hpeer hslave, hmaster, himported.get hcs hlast hc,
    if_neg hsent, hnone, item_parse_none hempty]

/-- The last row of a user whose records are sent to its master is read back as it is stored. -/
lemma read_stored (hself : tdm.self = new config n) (horigin : Replicates config origin)
    (hjson : ∀ l : List Str, tdm.lib.cjson_decode (tdm.lib.cjson_encode (.strs l)) = .ok (.strs l))
    (hcs : rows.mapM (format_row tdm) = .ok cs) (himported : Imported tdm rows s s')
    (hlast : IsLast rows udid row) (hne : udid ≠ []) (hc : format_row tdm row = .ok c)
    (hsent : sentTo tdm rows c.addr = some c.addr) {peer : Peer} (hpeer : tdm.peer udid = .ok peer)
    (hmaster : peer.wr_master = c.addr) (hslave : peer.rd_slave ≠ none) {name : String}
    (hname : name ∈ attr_mem) (draw : Draw) {dict : Tbl Str} (hdict : dict.get udid = none) :
    (get_value tdm (fun addr => s' (origin addr)) draw ∅ dict udid name).map Prod.fst =
      .ok (some (.str (text row name))) := by
  obtain ⟨-, -, -, hinfo, -⟩ := format_row_ok hc
  rw [read_after hself horigin hne hdict hpeer hslave, hmaster, himported.get hcs hlast hc,
    if_pos hsent, hinfo, item_parse hjson hname]

end fit

end rows

/-- **A batch is read back exactly when the records of every user go to the master of the user,
that master has a slave, and no attribute is `false`**, for every configuration and every batch
that is accepted. -/
theorem readBack_iff {tdm : Tdm} {config : Config} {n : Option ℕ} {origin : Addr → Addr}
    {rows : List Val} {data : List Req} (hself : tdm.self = new config n)
    (horigin : Replicates config origin)
    (hjson : ∀ l : List Str, tdm.lib.cjson_decode (tdm.lib.cjson_encode (.strs l)) = .ok (.strs l))
    (hempty : tdm.lib.cjson_decode (lit "[]") = .ok .empty)
    (haccept : format_data tdm rows = .ok data) :
    ReadBack tdm origin rows ↔
      ∀ udid row, udid ≠ [] → IsLast rows udid row → Fit tdm rows udid row := by
  obtain ⟨cs, hcs, hdata⟩ := format_data_ok haccept
  constructor
  · intro h udid row hne hlast
    obtain ⟨-, c, -, -, hc, rfl, -⟩ := isLast_cmd hcs hlast
    obtain ⟨-, -, ⟨peer, hpeer, hmaster⟩, -, -⟩ := format_row_ok hc
    obtain ⟨s', hstored⟩ := stored_exists data fun _ => ∅
    have himported : Imported tdm rows (fun _ => ∅) s' := ⟨data, haccept, hstored⟩
    have hread : ∀ name ∈ attr_mem, _ := fun name hname =>
      h _ s' himported c.id row hne hlast name hname .least ∅ rfl
    have hslave : peer.rd_slave ≠ none := by
      intro hnone
      have hudid := hread "udid" (by decide)
      rw [get_value_fresh hne rfl] at hudid
      obtain ⟨addr, haddr, -⟩ := bind_ok.mp hudid
      exact build_query_none hpeer hnone addr haddr
    have hsent : sentTo tdm rows c.addr = some c.addr := by
      by_contra hnot
      have hudid := hread "udid" (by decide)
      rw [read_astray hself horigin hempty hcs himported hlast hne hc hnot rfl hpeer hmaster hslave
        _ _ rfl] at hudid
      cases hudid
    refine ⟨fun p hp => ?_, fun p hp => ?_, fun name hname hfalse => ?_⟩
    · rw [hpeer] at hp
      cases hp
      rwa [hmaster]
    · rw [hpeer] at hp
      cases hp
      exact hslave
    · have hvalue := hread name hname
      rw [read_stored hself horigin hjson hcs himported hlast hne hc hsent hpeer hmaster hslave
        hname _ rfl, hfalse] at hvalue
      cases hvalue
  · intro h s s' himported udid row hne hlast name hname draw dict hdict
    obtain ⟨-, c, -, -, hc, rfl, -⟩ := isLast_cmd hcs hlast
    obtain ⟨-, -, ⟨peer, hpeer, hmaster⟩, -, hvalue⟩ := format_row_ok hc
    obtain ⟨hfit, hslave, hfalse⟩ := h c.id row hne hlast
    rw [read_stored hself horigin hjson hcs himported hlast hne hc (hmaster ▸ hfit peer hpeer) hpeer
      hmaster (hslave peer hpeer) hname draw hdict, hvalue name hname (hfalse name hname)]

/-! ### Address texts -/

section addrText

variable {a b : Addr}

lemma decimal_inj {m n : ℤ} (h : decimal m = decimal n) : m = n := by
  have hparse := congrArg parseDecimal h
  rw [parseDecimal_decimal, parseDecimal_decimal, Option.some.injEq] at hparse
  exact hparse

/-- Ports with as many digits keep the texts of two addresses apart. -/
lemma addrText_inj (hdigits : (decimal a.port).length = (decimal b.port).length)
    (h : addrText a = addrText b) : a = b := by
  obtain ⟨hip, hport⟩ := List.append_inj' h hdigits
  obtain ⟨ip, port⟩ := a
  obtain ⟨ip', port'⟩ := b
  cases hip
  cases Int.ofNat_inj.mp (decimal_inj hport)
  rfl

/-- **Where all ports have as many digits, every record goes to its own master.** -/
theorem sentTo_of_digits {tdm : Tdm} {config : Config} {n : Option ℕ} {rows : List Val} {cs : List Cmd}
    (hself : tdm.self = new config n) (hcs : rows.mapM (format_row tdm) = .ok cs)
    (hdigits : ∀ port port', config.sp ≤ port → port ≤ config.ep → config.sp ≤ port' →
      port' ≤ config.ep → (decimal port).length = (decimal port').length) :
    ∀ c ∈ cs, sentTo tdm rows c.addr = some c.addr := by
  have hport : ∀ c ∈ cs, config.sp ≤ c.addr.port ∧ c.addr.port ≤ config.ep := by
    intro c hc
    obtain ⟨row, -, hrow⟩ := mapM_mem hcs hc
    obtain ⟨-, -, ⟨peer, hpeer, hmaster⟩, -, -⟩ := format_row_ok hrow
    have hmem := peer_mem hpeer
    rw [hself] at hmem
    obtain ⟨entry, -, hentry⟩ := List.mem_flatMap.mp hmem
    obtain ⟨port, hrange, rfl⟩ := List.mem_map.mp hentry
    rw [List.mem_range'_1] at hrange
    rw [← hmaster]
    dsimp only
    omega
  intro c hc
  have hmem : c ∈ withText cs (addrText c.addr) := List.mem_filter.mpr ⟨hc, by simp⟩
  rw [sentTo_eq hcs, sentAddr]
  obtain ⟨first, rest, hfirst⟩ := List.exists_cons_of_ne_nil (List.ne_nil_of_mem hmem)
  have hfirst_mem : first ∈ withText cs (addrText c.addr) := by rw [hfirst]; simp
  obtain ⟨hfc, htext⟩ := List.mem_filter.mp hfirst_mem
  obtain ⟨hlow, hhigh⟩ := hport c hc
  obtain ⟨hlow', hhigh'⟩ := hport first hfc
  rw [hfirst, List.head?_cons, Option.map_some,
    addrText_inj (hdigits _ _ hlow' hhigh' hlow hhigh) (of_decide_eq_true htext)]

end addrText

section samples

/-- `"` and the backslash are written by their numbers. -/
def escape : Str → Str
  | [] => []
  | c :: s =>
    (if c = 34 then lit "\\u0022" else if c = 92 then lit "\\u005c" else [c]) ++ escape s

def unescape : Str → Str
  | 92 :: _ :: _ :: _ :: d :: _ :: s => (if d = 50 then 34 else 92) :: unescape s
  | c :: s => c :: unescape s
  | [] => []

lemma unescape_escape (s : Str) : unescape (escape s) = s := by
  have hquote : lit "\\u0022" = [92, 117, 48, 48, 50, 50] := by decide
  have hslash : lit "\\u005c" = [92, 117, 48, 48, 53, 99] := by decide
  induction s with
  | nil => rfl
  | cons c s ih =>
    rw [escape]
    split
    · next hc => simp [hquote, unescape, ih, hc]
    · next hquoted =>
      split
      · next hc => simp [hslash, unescape, ih, hc]
      · next hc => simp [unescape, ih, hc]

lemma quote_notMem_escape (s : Str) : (34 : UInt8) ∉ escape s := by
  induction s with
  | nil => simp [escape]
  | cons c s ih =>
    rw [escape, List.mem_append, not_or]
    refine ⟨?_, ih⟩
    split
    · decide
    · next hc =>
      split
      · decide
      · simpa using Ne.symm hc

/-- What stands between the quotes of a list of strings. -/
def pieces : List Str → List Str
  | [] => [lit "]"]
  | [s] => [escape s, lit "]"]
  | s :: l => escape s :: lit "," :: pieces l

def encodeStrs (l : List Str) : Str :=
  if l = [] then lit "\x7b\x7d" else concat 34 (lit "[" :: pieces l)

def readPieces : List Str → List Str
  | s :: _ :: l => unescape s :: readPieces l
  | _ => []

lemma readPieces_pieces (l : List Str) (hne : l ≠ []) : readPieces (pieces l) = l := by
  induction l with
  | nil => exact absurd rfl hne
  | cons s l ih =>
    cases l with
    | nil => simp [pieces, readPieces, unescape_escape]
    | cons s' l => rw [pieces, readPieces, unescape_escape, ih (List.cons_ne_nil _ _)]; simp

def decodeStrs (s : Str) : Except String Val :=
  if s = lit "[]" ∨ s = lit "\x7b\x7d" then .ok .empty
  else .ok (.strs (readPieces ((split 34 s).drop 1)))

lemma pieces_ne_nil (l : List Str) : pieces l ≠ [] := by
  cases l with
  | nil => simp [pieces]
  | cons s l => cases l <;> simp [pieces]

lemma quote_notMem_pieces (l : List Str) : ∀ s ∈ pieces l, (34 : UInt8) ∉ s := by
  induction l with
  | nil =>
    rw [pieces, List.forall_mem_singleton]
    decide
  | cons s l ih =>
    cases l with
    | nil =>
      rw [pieces, List.forall_mem_cons, List.forall_mem_singleton]
      exact ⟨quote_notMem_escape s, by decide⟩
    | cons s' l =>
      rw [pieces, List.forall_mem_cons, List.forall_mem_cons]
      · exact ⟨quote_notMem_escape s, by decide, ih⟩
      · exact List.cons_ne_nil _ _

lemma decodeStrs_encodeStrs (l : List Str) : decodeStrs (encodeStrs l) = .ok (.strs l) := by
  by_cases hl : l = []
  · subst hl
    rfl
  · have hpieces : ∀ s ∈ lit "[" :: pieces l, (34 : UInt8) ∉ s := by
      rw [List.forall_mem_cons]
      exact ⟨by decide, quote_notMem_pieces l⟩
    have hquote : (34 : UInt8) ∈ concat 34 (lit "[" :: pieces l) := by
      obtain ⟨s, rest, hs⟩ := List.exists_cons_of_ne_nil (pieces_ne_nil l)
      rw [hs, concat_cons]
      simp
    have hne : ¬(concat 34 (lit "[" :: pieces l) = lit "[]" ∨
        concat 34 (lit "[" :: pieces l) = lit "\x7b\x7d") := by
      rintro (h | h) <;> rw [h] at hquote <;> exact absurd hquote (by decide)
    rw [encodeStrs, if_neg hl, decodeStrs, if_neg hne, split_concat hpieces (List.cons_ne_nil _ _),
      List.drop_one, List.tail_cons, readPieces_pieces l hl]

def strings : Val → List Str
  | .table a _ => a.filterMap fun v => match v with | .str s => some s | _ => none
  | _ => []

/-- A library that writes and reads lists of strings. -/
def sampleLib : Ngx :=
  { Ngx.ofTexts [] with
    cjson_encode := fun v => encodeStrs (strings v)
    cjson_decode := decodeStrs
    decode_keys := fun s v h => by
      unfold decodeStrs at h
      split at h <;> cases h <;> exact List.nodup_nil }

lemma sample_json (l : List Str) :
    sampleLib.cjson_decode (sampleLib.cjson_encode (.strs l)) = .ok (.strs l) := by
  have hstrings : strings (.strs l) = l := by
    show (l.map Val.str).filterMap _ = l
    rw [List.filterMap_map]
    exact List.filterMap_some
  show decodeStrs (encodeStrs (strings (.strs l))) = _
  rw [hstrings, decodeStrs_encodeStrs]

/-- One point for each peer. Bucket 1 is served by port 9 of `10.0.0.11`, bucket 2 by port 19 of
`10.0.0.1`. -/
def sampleHash : Hash where
  md5 s := s
  crc32_long s := (([("10.0.0.11:9-1", 195225786), ("10.0.0.1:19-1", 390451572), ("u", 1),
    ("v", 2)].map fun e => (lit e.1, e.2)).lookup s).getD 0

/-- Two masters and their slaves, on the ports from 9 to 19. -/
def sampleConfig : Config :=
  ⟨9, 19, [⟨lit "10.0.0.1", [lit "10.0.1.1"]⟩, ⟨lit "10.0.0.11", [lit "10.0.1.11"]⟩]⟩

def sampleOrigin (a : Addr) : Addr :=
  if a.ip = lit "10.0.1.1" then ⟨lit "10.0.0.1", a.port⟩
  else if a.ip = lit "10.0.1.11" then ⟨lit "10.0.0.11", a.port⟩ else a

def sampleTdm : Tdm := ⟨sampleLib, sampleHash, .plain, new sampleConfig (some 22)⟩

def sampleRow (udid age : String) : Val :=
  .obj [("udid", .str (lit udid)), ("age", .str (lit age))]

lemma sample_replicates : Replicates sampleConfig sampleOrigin := by
  have hentry : ∀ peer ∈ parse_server sampleConfig, ∃ e ∈ sampleConfig.entries, ∃ port,
      peer = ⟨⟨e.wr_master, port⟩, some (e.rd_slave.map fun ip => ⟨ip, port⟩)⟩ := by
    intro peer hpeer
    obtain ⟨e, he, hpeer⟩ := List.mem_flatMap.mp hpeer
    obtain ⟨port, -, rfl⟩ := List.mem_map.mp hpeer
    refine ⟨e, he, port, ?_⟩
    rw [if_neg]
    simp only [sampleConfig, List.mem_cons, List.not_mem_nil, or_false] at he
    rcases he with rfl | rfl <;> simp
  constructor
  · intro peer hpeer
    obtain ⟨e, he, port, rfl⟩ := hentry peer hpeer
    simp only [sampleConfig, List.mem_cons, List.not_mem_nil, or_false] at he
    rcases he with rfl | rfl <;> rfl
  · intro peer hpeer rd_slave hrd addr haddr
    obtain ⟨e, he, port, rfl⟩ := hentry peer hpeer
    cases hrd
    simp only [sampleConfig, List.mem_cons, List.not_mem_nil, or_false] at he
    rcases he with rfl | rfl <;>
    · rw [List.map_singleton, List.mem_singleton] at haddr
      subst haddr
      rfl

theorem readBack_iff_sample :
    ReadBack sampleTdm sampleOrigin [sampleRow "u" "20"] ↔
      ∀ udid row, udid ≠ [] → IsLast [sampleRow "u" "20"] udid row →
        Fit sampleTdm [sampleRow "u" "20"] udid row := by
  obtain ⟨data, hdata⟩ := exists_ok
    (show (format_data sampleTdm [sampleRow "u" "20"]).isOk by decide +kernel)
  exact readBack_iff rfl sample_replicates sample_json (by decide +kernel) hdata

/-- User `v` is on `10.0.0.1:19`, user `u` on `10.0.0.11:9`. The two addresses make one text, so
`u` goes where `v` goes, and its slave has nothing of it. -/
theorem record_sent_astray :
    (∃ data, format_data sampleTdm [sampleRow "v" "30", sampleRow "u" "20"] = .ok data) ∧
    Replicates sampleConfig sampleOrigin ∧
    (∀ s', Imported sampleTdm [sampleRow "v" "30", sampleRow "u" "20"] (fun _ => ∅) s' →
      (get_value sampleTdm (fun addr => s' (sampleOrigin addr)) .least ∅ ∅ (lit "u") "age").map
        Prod.fst = .ok none) ∧
    ¬ ReadBack sampleTdm sampleOrigin [sampleRow "v" "30", sampleRow "u" "20"] := by
  obtain ⟨data, hdata⟩ := exists_ok
    (show (format_data sampleTdm [sampleRow "v" "30", sampleRow "u" "20"]).isOk by decide +kernel)
  obtain ⟨cs, hcs, -⟩ := format_data_ok hdata
  have hlast : IsLast [sampleRow "v" "30", sampleRow "u" "20"] (lit "u") (sampleRow "u" "20") :=
    ⟨[sampleRow "v" "30"], [], rfl, rfl, by simp⟩
  have hread : ∀ s', Imported sampleTdm [sampleRow "v" "30", sampleRow "u" "20"] (fun _ => ∅) s' →
      (get_value sampleTdm (fun addr => s' (sampleOrigin addr)) .least ∅ ∅ (lit "u") "age").map
        Prod.fst = .ok none := by
    intro s' himported
    obtain ⟨c, hc⟩ := exists_ok
      (show (format_row sampleTdm (sampleRow "u" "20")).isOk by decide +kernel)
    obtain ⟨hudid, -, ⟨peer, hpeer, hmaster⟩, -, -⟩ := format_row_ok hc
    have hid : c.id = lit "u" := by
      have hget : some (Val.str (lit "u")) = some (.str c.id) := hudid
      rw [Option.some.injEq, Val.str.injEq] at hget
      exact hget.symm
    rw [hid] at hpeer
    have hpeer' : sampleTdm.peer (lit "u") = .ok ⟨⟨lit "10.0.0.11", 9⟩, some [⟨lit "10.0.1.11", 9⟩]⟩ := by
      decide +kernel
    rw [hpeer] at hpeer'
    cases hpeer'
    have hsent : sentTo sampleTdm [sampleRow "v" "30", sampleRow "u" "20"] ⟨lit "10.0.0.11", 9⟩ =
        some ⟨lit "10.0.0.1", 19⟩ := by decide +kernel
    refine read_astray rfl sample_replicates (by decide +kernel) hcs himported hlast (by decide) hc ?_
      rfl hpeer hmaster (Option.some_ne_none _) "age" .least rfl
    rw [← hmaster, hsent]
    decide
  refine ⟨⟨data, hdata⟩, sample_replicates, hread, fun h => ?_⟩
  obtain ⟨s', hstored⟩ := stored_exists data fun _ => ∅
  have himported : Imported sampleTdm [sampleRow "v" "30", sampleRow "u" "20"] (fun _ => ∅) s' :=
    ⟨data, hdata, hstored⟩
  have hage := h _ s' himported (lit "u") _ (by decide) hlast "age" (by decide) .least ∅ rfl
  rw [hread s' himported] at hage
  cases hage

end samples

end Sax.Records
