import Sax.Loop
import Sax.Runtime
import Sax.Successor

/-!
The consistent hash of the targeting module: `saxmob/tdm/c_hash.lua`.

Every peer has as many points as there are buckets for each, so with one more entry the peers that
were there have fewer. A key belongs to the peer with the first point at or after its bucket's.
-/

namespace Sax.CHash

open Sax.LuaVal Sax.Loop Sax.Runtime Sax.Successor

/-- The functions of nginx the points are made with. -/
structure Hash where
  md5 : Str → Str
  crc32_long : Str → ℕ

structure Addr where
  ip : Str
  port : ℕ
  deriving DecidableEq

/-- A master with its slaves; without a slave there is no list. -/
structure Peer where
  wr_master : Addr
  rd_slave : Option (List Addr)
  deriving DecidableEq

/-- An entry of the configuration: the address of a master and those of its slaves. -/
structure Entry where
  wr_master : Str
  rd_slave : List Str

/-- The configuration: its entries, each of which listens on the ports from `sp` to `ep`. -/
structure Config where
  sp : ℕ
  ep : ℕ
  entries : List Entry

/-- The object `new` makes. -/
structure Obj where
  buckets : ℕ
  rds_server : List Peer

structure Node where
  point : ℕ
  rr_peer : Peer
  deriving DecidableEq

section source

variable (h : Hash) (o : Order)

def consistent_hash_node_point (str : Str) : ℕ := h.crc32_long (h.md5 str)

/-- `nodes[i].point` is read, or the node is returned. -/
def nodeAt (nodes : List Node) (i : ℕ) : Lua Node :=
  match nodes[i - 1]? with
  | some node => .ok node
  | none => .error .badIndex

/-- The loop of `_consistent_hash_find`. Every round brings `l` and `r` closer. -/
def narrow (nodes : List Node) (point : ℕ) : (rounds l r : ℕ) → Lua (ℕ × ℕ)
  | 0, l, r => .ok (l, r)
  | rounds + 1, l, r =>
    if l + 1 < r then do
      let m := l + (r - l) / 2
      let node ← nodeAt nodes m
      if point > node.point then narrow nodes point rounds (m + 1) r
      else narrow nodes point rounds l m
    else .ok (l, r)

def consistent_hash_find (nodes : List Node) (point : ℕ) : Lua Node := do
  let (l, r) ← narrow nodes point nodes.length 1 nodes.length
  let first ← nodeAt nodes l
  if point ≤ first.point then return first
  else
    let last ← nodeAt nodes r
    if point ≤ last.point then return last else return first

def parse_entry (sp ep : ℕ) (server : Entry) : List Peer :=
  (List.range' sp (ep + 1 - sp)).map fun port =>
    ⟨⟨server.wr_master, port⟩,
      if server.rd_slave = [] then none else some (server.rd_slave.map fun ip => ⟨ip, port⟩)⟩

def parse_server (rds_server : Config) : List Peer :=
  rds_server.entries.flatMap (parse_entry rds_server.sp rds_server.ep)

def new (rds_server : Config) (n : Option ℕ) : Obj := ⟨n.getD 65536, parse_server rds_server⟩

def Obj.point_per_node (self : Obj) : ℕ := self.buckets / self.rds_server.length

/-- The node of the `j`th point of a peer. -/
def node (server : Peer) (j : ℕ) : Node :=
  ⟨consistent_hash_node_point h (server.wr_master.ip ++ lit ":" ++ decimal server.wr_master.port ++
    lit "-" ++ decimal j), server⟩

/-- The nodes before they are sorted. -/
def Obj.nodes (self : Obj) : List Node :=
  self.rds_server.flatMap fun server => (List.range' 1 self.point_per_node).map (node h server)

/-- The point bucket `i` looks for. -/
def Obj.step (self : Obj) (i : ℕ) : ℕ := i * (0xffffffff / self.buckets)

def Obj.init_consistent_hash (self : Obj) : Lua (List Node) :=
  let nodes := o.sort (fun a b => decide (a.point < b.point)) (self.nodes h)
  (List.range self.buckets).mapM fun i => consistent_hash_find nodes (self.step i)

/-- The buckets are made at the first call, and do not change. -/
def Obj.get_consistent_hash_peer (self : Obj) (key : Str) : Lua Peer := do
  let buckets ← self.init_consistent_hash h o
  match buckets[h.crc32_long key % self.buckets]? with
  | some node => return node.rr_peer
  | none => throw .badIndex

end source

/-! ### The search -/

section find

variable {nodes : List Node} {point l r : ℕ}

/-- Before `l` the points are lower, and from `r` on they are not, unless `r` is the end. -/
structure Between (nodes : List Node) (point l r : ℕ) : Prop where
  pos : 1 ≤ l
  le : l ≤ r
  le_length : r ≤ nodes.length
  low : ∀ i, i + 1 < l → ∀ x, nodes[i]? = some x → x.point < point
  high : r = nodes.length ∨ ∃ x, nodes[r - 1]? = some x ∧ point ≤ x.point

lemma nodeAt_ok (hpos : 1 ≤ l) (hle : l ≤ nodes.length) :
    ∃ x, nodes[l - 1]? = some x ∧ nodeAt nodes l = .ok x := by
  have hlt : l - 1 < nodes.length := by omega
  refine ⟨nodes[l - 1], List.getElem?_eq_getElem hlt, ?_⟩
  rw [nodeAt, List.getElem?_eq_getElem hlt]

/-- The loop ends with `l` and `r` side by side. -/
lemma narrow_spec (hsorted : nodes.Pairwise fun a b => a.point ≤ b.point) {rounds : ℕ}
    (hrounds : r - l ≤ rounds) (hb : Between nodes point l r) :
    ∃ l' r', narrow nodes point rounds l r = .ok (l', r') ∧ Between nodes point l' r' ∧
      r' ≤ l' + 1 := by
  induction rounds generalizing l r with
  | zero => exact ⟨l, r, rfl, hb, by have := hb.le; omega⟩
  | succ rounds ih =>
    rw [narrow]
    by_cases hlt : l + 1 < r
    · rw [if_pos hlt]
      have hpos := hb.pos
      have hlen := hb.le_length
      obtain ⟨x, hx, hnode⟩ : ∃ x, nodes[l + (r - l) / 2 - 1]? = some x ∧
          nodeAt nodes (l + (r - l) / 2) = .ok x := nodeAt_ok (by omega) (by omega)
      dsimp only
      rw [hnode, ok_bind]
      by_cases hpoint : point > x.point
      · rw [if_pos hpoint]
        refine ih (by omega) ⟨by omega, by omega, hlen, fun i hi y hy => ?_, hb.high⟩
        refine lt_of_le_of_lt ?_ hpoint
        rcases Nat.lt_or_ge i (l + (r - l) / 2 - 1) with hlow | hge
        · obtain ⟨hi', rfl⟩ := List.getElem?_eq_some_iff.mp hy
          obtain ⟨hm', rfl⟩ := List.getElem?_eq_some_iff.mp hx
          exact List.pairwise_iff_getElem.mp hsorted i _ hi' hm' hlow
        · have heq : i = l + (r - l) / 2 - 1 := by omega
          rw [heq, hx] at hy
          cases hy
          exact le_rfl
      · rw [if_neg hpoint]
        exact ih (by omega) ⟨hpos, by omega, by omega, hb.low, .inr ⟨x, hx, not_lt.mp hpoint⟩⟩
    · rw [if_neg hlt]
      exact ⟨l, r, rfl, hb, by omega⟩

/-- **The search finds the first node at or after the point**, if there is one. -/
theorem find_spec (hsorted : nodes.Pairwise fun a b => a.point ≤ b.point) (hne : nodes ≠ []) :
    ∃ x ∈ nodes, consistent_hash_find nodes point = .ok x ∧
      ((∃ y ∈ nodes, point ≤ y.point) → IsNext Node.point {y | y ∈ nodes} point x) := by
  have hlen : 1 ≤ nodes.length := List.length_pos_iff.mpr hne
  have hstart : Between nodes point 1 nodes.length :=
    ⟨le_rfl, hlen, le_rfl, fun i hi => absurd hi (by omega), .inl rfl⟩
  obtain ⟨l, r, hnarrow, hb, hside⟩ := narrow_spec hsorted (Nat.sub_le nodes.length 1) hstart
  have hle := hb.le
  have hpos := hb.pos
  have hrlen := hb.le_length
  obtain ⟨first, hfirst, hnodel⟩ : ∃ x, nodes[l - 1]? = some x ∧ nodeAt nodes l = .ok x :=
    nodeAt_ok hpos (hle.trans hrlen)
  obtain ⟨last, hlast, hnoder⟩ : ∃ x, nodes[r - 1]? = some x ∧ nodeAt nodes r = .ok x :=
    nodeAt_ok (hpos.trans hle) hrlen
  unfold consistent_hash_find
  rw [hnarrow, ok_bind]
  dsimp only
  rw [hnodel, ok_bind]
  by_cases hf : point ≤ first.point
  · rw [if_pos hf]
    exact ⟨first, List.mem_of_getElem? hfirst, rfl, fun _ => isNext_of_sorted hsorted hfirst hf
      fun j hj y hy => hb.low j (by omega) y hy⟩
  · rw [if_neg hf, hnoder, ok_bind]
    -- up to `l` all points are lower
    have hlow : ∀ j < l, ∀ y, nodes[j]? = some y → y.point < point := by
      intro j hj y hy
      rcases Nat.lt_or_ge (j + 1) l with hlt | hge
      · exact hb.low j hlt y hy
      · have heq : j = l - 1 := by omega
        rw [heq, hfirst] at hy
        cases hy
        exact not_le.mp hf
    by_cases hr : point ≤ last.point
    · rw [if_pos hr]
      exact ⟨last, List.mem_of_getElem? hlast, rfl, fun _ => isNext_of_sorted hsorted hlast hr
        fun j hj y hy => hlow j (by omega) y hy⟩
    · rw [if_neg hr]
      refine ⟨first, List.mem_of_getElem? hfirst, rfl, fun ⟨y, hy, hpoint⟩ => ?_⟩
      obtain ⟨j, hj⟩ := List.mem_iff_getElem?.mp hy
      have hjlen := (List.getElem?_eq_some_iff.mp hj).1
      have hend : r = nodes.length := by
        rcases hb.high with hend | ⟨x, hx, hpx⟩
        · exact hend
        · rw [hlast] at hx
          cases hx
          exact absurd hpx hr
      rcases Nat.lt_or_ge j l with hlt | hge
      · exact absurd hpoint (not_le.mpr (hlow j hlt y hj))
      · have heq : j = r - 1 := by omega
        rw [heq, hlast] at hj
        cases hj
        exact absurd hpoint hr

end find

/-! ### The peer of a key -/

section peer

variable {h : Hash} {o : Order} {self : Obj} {key : Str} {p : Peer}

lemma mem_nodes {x : Node} : x ∈ self.nodes h ↔
    ∃ server ∈ self.rds_server, ∃ j, 1 ≤ j ∧ j ≤ self.point_per_node ∧ node h server j = x := by
  simp only [Obj.nodes, List.mem_flatMap, List.mem_map, List.mem_range'_1]
  refine exists_congr fun server => and_congr_right fun _ => exists_congr fun j => ?_
  rw [and_assoc]
  exact and_congr_right fun _ => and_congr_left fun _ => by omega

/-- There are nodes when there are peers, and no more of them than buckets. -/
lemma nodes_ne_nil (hne : self.rds_server ≠ []) (hle : self.rds_server.length ≤ self.buckets) :
    self.nodes h ≠ [] := by
  obtain ⟨server, hserver⟩ := List.exists_mem_of_ne_nil _ hne
  have hpoints : 1 ≤ self.point_per_node :=
    (Nat.one_le_div_iff (List.length_pos_iff.mpr hne)).mpr hle
  exact List.ne_nil_of_mem (mem_nodes.mpr ⟨server, hserver, 1, le_rfl, hpoints, rfl⟩)

/-- The point the bucket of a key looks for. -/
def Obj.bucketPoint (h : Hash) (self : Obj) (key : Str) : ℕ :=
  self.step (h.crc32_long key % self.buckets)

/-- No two node points coincide. -/
def Obj.Distinct (h : Hash) (self : Obj) : Prop := ((self.nodes h).map Node.point).Nodup

/-- **A key has a peer whenever there are nodes**: that of the first node at or after the point of
its bucket, if there is one. -/
theorem get_peer_ok (hbuckets : 1 ≤ self.buckets) (hnodes : self.nodes h ≠ []) :
    ∃ x ∈ self.nodes h, self.get_consistent_hash_peer h o key = .ok x.rr_peer ∧
      ((∃ y ∈ self.nodes h, self.bucketPoint h key ≤ y.point) →
        IsNext Node.point {y | y ∈ self.nodes h} (self.bucketPoint h key) x) := by
  have hperm := o.sort_perm (fun a b : Node => decide (a.point < b.point)) (self.nodes h)
  have hsorted : (o.sort (fun a b : Node => decide (a.point < b.point)) (self.nodes h)).Pairwise
      fun a b => a.point ≤ b.point := by
    refine (o.sort_sorted _ ?_ ?_ _).imp ?_
    · intro a b hlt
      simp only [decide_eq_true_eq] at hlt ⊢
      exact not_lt.mpr hlt.le
    · intro a b c hab hbc
      simp only [decide_eq_true_eq, not_lt] at hab hbc ⊢
      exact hbc.trans hab
    · intro a b hlt
      simpa using hlt
  have hne : o.sort (fun a b : Node => decide (a.point < b.point)) (self.nodes h) ≠ [] :=
    fun hnil => hnodes (List.nil_perm.mp (hnil ▸ hperm))
  generalize hl : o.sort (fun a b : Node => decide (a.point < b.point)) (self.nodes h) = l
    at hperm hsorted hne
  have hfind : ∀ point, ∃ x ∈ l, consistent_hash_find l point = .ok x ∧
      ((∃ y ∈ l, point ≤ y.point) → IsNext Node.point {y | y ∈ l} point x) :=
    fun _ => find_spec hsorted hne
  obtain ⟨buckets, hinit⟩ : ∃ buckets,
      (List.range self.buckets).mapM (fun i => consistent_hash_find l (self.step i)) = .ok buckets :=
    mapM_isOk.mpr fun i _ => by
      obtain ⟨x, -, hx, -⟩ := hfind (self.step i)
      exact ⟨x, hx⟩
  have hmod : (List.range self.buckets)[h.crc32_long key % self.buckets]? =
      some (h.crc32_long key % self.buckets) := by
    rw [List.getElem?_range (Nat.mod_lt _ hbuckets)]
  obtain ⟨x, hx, hxfind⟩ := mapM_getElem? hinit hmod
  obtain ⟨y, hy, hyfind, hnext⟩ := hfind (self.bucketPoint h key)
  have heq : x = y := by
    rw [Obj.bucketPoint, hxfind] at hyfind
    cases hyfind
    rfl
  subst heq
  refine ⟨x, hperm.mem_iff.mp hy, ?_, ?_⟩
  · unfold Obj.get_consistent_hash_peer Obj.init_consistent_hash
    rw [hl]
    dsimp only
    rw [hinit, ok_bind, hx]
    rfl
  · simpa only [hperm.mem_iff] using hnext

/-- Without nodes there is nothing to find. -/
lemma nodes_of_peer (hbuckets : 1 ≤ self.buckets) (hp : self.get_consistent_hash_peer h o key = .ok p) :
    self.nodes h ≠ [] := by
  intro hnil
  have hperm := o.sort_perm (fun a b : Node => decide (a.point < b.point)) (self.nodes h)
  rw [hnil] at hperm
  obtain ⟨buckets, hinit, -⟩ := bind_ok.mp hp
  unfold Obj.init_consistent_hash at hinit
  rw [hnil, List.perm_nil.mp hperm] at hinit
  obtain ⟨x, hx⟩ := mapM_isOk.mp ⟨buckets, hinit⟩ 0 (List.mem_range.mpr hbuckets)
  cases hx

end peer

/-! ### One more entry -/

section add

variable {h : Hash} {o o' : Order} {key : Str} {config config' : Config} {entry : Entry} {n : Option ℕ}

/-- `config'` has one more entry, anywhere in its list. -/
structure Adds (config config' : Config) (entry : Entry) : Prop where
  sp : config'.sp = config.sp
  ep : config'.ep = config.ep
  entries : ∃ pre post, config.entries = pre ++ post ∧ config'.entries = pre ++ entry :: post

/-- The `j`th point of `p` is the first at or after the point of the key's bucket. -/
def Served (h : Hash) (self : Obj) (key : Str) (p : Peer) (j : ℕ) : Prop :=
  IsNext Node.point {x | x ∈ self.nodes h} (self.bucketPoint h key) (node h p j)

lemma mem_peers_add (hadd : Adds config config' entry) {p : Peer} :
    p ∈ parse_server config' ↔ p ∈ parse_server config ∨ p ∈ parse_entry config.sp config.ep entry := by
  obtain ⟨hsp, hep, pre, post, hold, hnew⟩ := hadd
  unfold parse_server
  rw [hsp, hep, hold, hnew]
  simp only [List.flatMap_append, List.flatMap_cons, List.mem_append]
  tauto

/-- With more peers, each has at most as many points. -/
lemma point_per_node_add (hadd : Adds config config' entry)
    (hne : (new config n).rds_server ≠ []) :
    (new config' n).point_per_node ≤ (new config n).point_per_node := by
  obtain ⟨hsp, hep, pre, post, hold, hnew⟩ := hadd
  have hlength : (parse_server config).length ≤ (parse_server config').length := by
    unfold parse_server
    rw [hsp, hep, hold, hnew]
    simp only [List.flatMap_append, List.flatMap_cons, List.length_append]
    omega
  exact Nat.div_le_div_left hlength (List.length_pos_iff.mpr hne)

/-- Where the node that served the key stays, the key moves to the added entry only. -/
lemma node_moves (hadd : Adds config config' entry) (hbuckets : 1 ≤ (new config n).buckets)
    (hne : (new config n).rds_server ≠ []) (hdistinct : (new config n).Distinct h) {p p' : Peer}
    {j : ℕ} (hserved : Served h (new config n) key p j) (hx : node h p j ∈ (new config' n).nodes h)
    (hp' : (new config' n).get_consistent_hash_peer h o' key = .ok p') :
    p' = p ∨ p' ∈ parse_entry config.sp config.ep entry := by
  have hbuckets' : 1 ≤ (new config' n).buckets := hbuckets
  obtain ⟨y, hy, hpeer, hnext⟩ : ∃ y ∈ (new config' n).nodes h,
      (new config' n).get_consistent_hash_peer h o' key = .ok y.rr_peer ∧
        ((∃ z ∈ (new config' n).nodes h, (new config' n).bucketPoint h key ≤ z.point) →
          IsNext Node.point {z | z ∈ (new config' n).nodes h} ((new config' n).bucketPoint h key) y) :=
    get_peer_ok hbuckets' (nodes_of_peer hbuckets' hp')
  rw [hp'] at hpeer
  cases hpeer
  have hinj : Set.InjOn Node.point {x | x ∈ (new config n).nodes h} :=
    fun a ha b hb hab => List.inj_on_of_nodup_map hdistinct ha hb hab
  rcases hserved.moves hinj (hnext ⟨_, hx, hserved.2.1⟩) with heq | hnew | hgone
  · exact .inl (congrArg Node.rr_peer heq)
  · obtain ⟨q, hq, i, hi, hile, rfl⟩ := mem_nodes.mp hy
    rcases (mem_peers_add hadd).mp hq with hold | hentry
    · have hmem : node h q i ∈ (new config n).nodes h :=
        mem_nodes.mpr ⟨q, hold, i, hi, hile.trans (point_per_node_add hadd hne), rfl⟩
      exact absurd hmem hnew
    · exact .inr hentry
  · exact absurd hx hgone

/-- **A key changes its peer only for the added entry, or when the point that served it is one of
those that the peers no longer have**, for every key whose bucket has a node point at or after its
own. -/
theorem peer_stable (hadd : Adds config config' entry) (hne : (new config n).rds_server ≠ [])
    (hle : (new config n).rds_server.length ≤ (new config n).buckets)
    (hdistinct : (new config n).Distinct h)
    (hnext : ∃ y ∈ (new config n).nodes h, (new config n).bucketPoint h key ≤ y.point) :
    ∃ p, (new config n).get_consistent_hash_peer h o key = .ok p ∧
      ∀ p', (new config' n).get_consistent_hash_peer h o' key = .ok p' →
        p' = p ∨ p' ∈ parse_entry config.sp config.ep entry ∨
          ∃ j, (new config' n).point_per_node < j ∧ j ≤ (new config n).point_per_node ∧
            Served h (new config n) key p j := by
  have hbuckets : 1 ≤ (new config n).buckets := (List.length_pos_iff.mpr hne).trans_le hle
  obtain ⟨x, hx, hpeer, hserved⟩ : ∃ x ∈ (new config n).nodes h,
      (new config n).get_consistent_hash_peer h o key = .ok x.rr_peer ∧
        ((∃ y ∈ (new config n).nodes h, (new config n).bucketPoint h key ≤ y.point) →
          IsNext Node.point {y | y ∈ (new config n).nodes h} ((new config n).bucketPoint h key) x) :=
    get_peer_ok hbuckets (nodes_ne_nil hne hle)
  obtain ⟨p, hp, j, hj, hjle, rfl⟩ := mem_nodes.mp hx
  refine ⟨p, hpeer, fun p' hp' => ?_⟩
  rcases Nat.lt_or_ge (new config' n).point_per_node j with hgone | hstays
  · exact .inr (.inr ⟨j, hgone, hjle, hserved hnext⟩)
  · have hmem : node h p j ∈ (new config' n).nodes h :=
      mem_nodes.mpr ⟨p, (mem_peers_add hadd).mpr (.inl hp), j, hj, hstays, rfl⟩
    rcases node_moves hadd hbuckets hne hdistinct (hserved hnext) hmem hp' with heq | hentry
    · exact .inl heq
    · exact .inr (.inl hentry)

end add

section samples

/-- A hash that puts the points of `a`, `b` and `c` where the list says. -/
def sampleHash : Hash where
  md5 s := s
  crc32_long s := (([("a:1-1", 30), ("a:1-2", 10), ("b:1-1", 20), ("b:1-2", 40),
    ("c:1-1", 4000000000), ("k", 4)].map fun e => (lit e.1, e.2)).lookup s).getD 0

def sampleEntry (ip : String) : Entry := ⟨lit ip, []⟩

def sampleConfig (ips : List String) : Config := ⟨1, 1, ips.map sampleEntry⟩

def samplePeer (ip : String) : Peer := ⟨⟨lit ip, 1⟩, none⟩

lemma sample_adds : Adds (sampleConfig ["a", "b"]) (sampleConfig ["a", "b", "c"]) (sampleEntry "c") :=
  ⟨rfl, rfl, [sampleEntry "a", sampleEntry "b"], [], rfl, rfl⟩

theorem peer_stable_sample :
    ∃ p, (new (sampleConfig ["a", "b"]) (some 4)).get_consistent_hash_peer sampleHash .plain
        (lit "k") = .ok p ∧
      ∀ p', (new (sampleConfig ["a", "b", "c"]) (some 4)).get_consistent_hash_peer sampleHash .plain
          (lit "k") = .ok p' →
        p' = p ∨ p' ∈ parse_entry 1 1 (sampleEntry "c") ∨
          ∃ j, (new (sampleConfig ["a", "b", "c"]) (some 4)).point_per_node < j ∧
            j ≤ (new (sampleConfig ["a", "b"]) (some 4)).point_per_node ∧
            Served sampleHash (new (sampleConfig ["a", "b"]) (some 4)) (lit "k") p j := by
  have hdistinct : (new (sampleConfig ["a", "b"]) (some 4)).Distinct sampleHash := by
    unfold Obj.Distinct
    decide +kernel
  have hnext : ∃ y ∈ (new (sampleConfig ["a", "b"]) (some 4)).nodes sampleHash,
      (new (sampleConfig ["a", "b"]) (some 4)).bucketPoint sampleHash (lit "k") ≤ y.point := by
    decide +kernel
  exact peer_stable sample_adds (by decide +kernel) (by decide +kernel) hdistinct hnext

/-- With `c`, the peers have one point each, and the key `k` goes from `a` to `b`. -/
theorem key_moves_to_old_peer :
    Adds (sampleConfig ["a", "b"]) (sampleConfig ["a", "b", "c"]) (sampleEntry "c") ∧
      (new (sampleConfig ["a", "b"]) (some 4)).Distinct sampleHash ∧
      (new (sampleConfig ["a", "b", "c"]) (some 4)).Distinct sampleHash ∧
      (new (sampleConfig ["a", "b"]) (some 4)).get_consistent_hash_peer sampleHash .plain
        (lit "k") = .ok (samplePeer "a") ∧
      (new (sampleConfig ["a", "b", "c"]) (some 4)).get_consistent_hash_peer sampleHash .plain
        (lit "k") = .ok (samplePeer "b") ∧
      samplePeer "b" ≠ samplePeer "a" ∧ samplePeer "b" ∉ parse_entry 1 1 (sampleEntry "c") := by
  refine ⟨sample_adds, ?_, ?_, by decide +kernel, by decide +kernel, by decide, by decide⟩
  · unfold Obj.Distinct
    decide +kernel
  · unfold Obj.Distinct
    decide +kernel

end samples

end Sax.CHash
