import Sax.Records

/-!
A batch of rows as `saxmob/tdm/master.lua` takes it apart, with the ids and the infos of a group in
the two lists they are kept in.

`_format_data` opens a group for the first row of an address text. The two lists of a group grow by
one with each of its rows, so that the groups are those of `Records`, with their records unzipped.
-/

namespace Sax.Batch

open Sax.LuaVal Sax.Loop Sax.Runtime Sax.CHash Sax.Records
open Sax.Targeting (transfer_table)

/-- An element of `data`. -/
structure Group where
  ids : List Val
  infos : List Str
  opts : Addr

/-- `temp` and `data`. -/
structure Tables where
  temp : Tbl ℕ
  data : List Group

section source

variable (tdm : Tdm)

/-- `temp[key]`, for which a group is opened if there is none. -/
def Tables.find (s : Tables) (addr : Addr) : ℕ × Tables :=
  match s.temp.get (addrText addr) with
  | some i => (i, s)
  | none => (s.data.length + 1,
      ⟨s.temp.insert (addrText addr) (s.data.length + 1), s.data ++ [⟨[], [], addr⟩]⟩)

/-- `ids[#ids + 1] = id` in group `i`. -/
def Tables.addId (s : Tables) (i : ℕ) (id : Option Val) : Tables :=
  { s with data := s.data.modify (i - 1) fun g => { g with ids := g.ids ++ id.toList } }

/-- `infos[#infos + 1] = info` in group `i`. -/
def Tables.addInfo (s : Tables) (i : ℕ) (info : Str) : Tables :=
  { s with data := s.data.modify (i - 1) fun g => { g with infos := g.infos ++ [info] } }

/-- The loop of `_format_data` at a row. -/
def put (s : Tables) (row : Val) : Lua Tables := do
  let addr ← master tdm row
  let (i, s) := s.find addr
  let s := s.addId i (← field "udid" (some row))
  let row_arr ← transfer_table row
  return s.addInfo i (← tdm.lib.encode (.arr row_arr))

def format_data (rows : List Val) : Lua (List Group) := do
  let s ← rows.foldlM (put tdm) ⟨∅, []⟩
  return s.data

/-- The element a row adds to `infos`. -/
def info (row : Val) : Lua Str := do tdm.lib.encode (.arr (← transfer_table row))

/-- The rows whose master is `addr`, in their order. -/
def own (addr : Addr) (rows : List Val) : List Val :=
  rows.filter fun row => (master tdm row).toOption = some addr

/-- **The batch is parted by the masters of its rows**: every master of a row has one group, which
holds the ids and the infos of its own rows in their order. -/
structure Partition (rows : List Val) (data : List Group) : Prop where
  opts : (data.map Group.opts).Nodup
  group : ∀ row ∈ rows, ∀ addr, master tdm row = .ok addr → ∃ g ∈ data, g.opts = addr
  ids : ∀ g ∈ data, g.ids.map some = (own tdm g.opts rows).map (Val.get "udid")
  infos : ∀ g ∈ data, (own tdm g.opts rows).mapM (info tdm) = .ok g.infos

/-- No two masters of rows have one address text. -/
def Apart (rows : List Val) : Prop :=
  ∀ row ∈ rows, ∀ row' ∈ rows, ∀ addr addr', master tdm row = .ok addr →
    master tdm row' = .ok addr' → addrText addr = addrText addr' → addr = addr'

end source

/-! ### The groups of `Records` -/

section refine

variable {tdm : Tdm} {rows : List Val} {row : Val} {g : Groups} {s : Tables} {data : List Group}

/-- A request as a group. -/
def Group.ofReq (req : Req) : Group := ⟨req.ids.map .str, req.records.map Prod.snd, req.opts⟩

def Tables.ofGroups (g : Groups) : Tables := ⟨g.temp, g.data.map Group.ofReq⟩

lemma map_modify_ofReq (data : List Req) (i : ℕ) (id info : Str) :
    (data.modify i fun req => { req with records := req.records ++ [(id, info)] }).map Group.ofReq =
      ((data.map Group.ofReq).modify i fun g => { g with ids := g.ids ++ [.str id] }).modify i
        fun g => { g with infos := g.infos ++ [info] } := by
  rw [List.modify_modify_eq]
  refine List.ext_getElem? fun j => ?_
  simp only [List.getElem?_map, List.getElem?_modify]
  by_cases hj : i = j
  · subst hj
    cases data[i]? <;> simp [Group.ofReq, Req.ids]
  · simp [hj]

lemma modify_last {α : Type} (l : List α) (a : α) (f : α → α) :
    (l ++ [a]).modify l.length f = l ++ [f a] := by
  induction l with
  | nil => rfl
  | cons b l ih => simpa using ih

/-- Opening or finding the group of a command and adding to its lists is adding the command. -/
lemma ofGroups_add (g : Groups) (c : Cmd) :
    let (i, s) := (Tables.ofGroups g).find c.addr
    (s.addId i (some (.str c.id))).addInfo i c.info = Tables.ofGroups (g.add c) := by
  unfold Tables.find Groups.add Tables.ofGroups
  dsimp only
  cases g.temp.get (addrText c.addr) with
  | some i =>
    dsimp only [Tables.addId, Tables.addInfo]
    rw [map_modify_ofReq]
    rfl
  | none =>
    dsimp only [Tables.addId, Tables.addInfo]
    rw [Nat.add_sub_cancel, modify_last, modify_last, List.length_map, List.map_append]
    rfl

/-- Step lemma: a row goes through when it makes a command, which joins its group. -/
lemma put_ok : put tdm (.ofGroups g) row = .ok s ↔
    ∃ c, format_row tdm row = .ok c ∧ s = .ofGroups (g.add c) := by
  have hfield : ∀ {id : Str}, row.get "udid" = some (.str id) →
      field "udid" (some row) = .ok (some (.str id)) := by
    intro id hid
    cases row with
    | table a h => exact congrArg _ hid
    | _ => cases hid
  constructor
  · intro h
    obtain ⟨addr, haddr, h⟩ := bind_ok.mp h
    rcases hfind : (Tables.ofGroups g).find addr with ⟨i, t⟩
    rw [hfind] at h
    dsimp only at h
    obtain ⟨udid, hudid, h⟩ := bind_ok.mp h
    obtain ⟨row_arr, harr, h⟩ := bind_ok.mp h
    obtain ⟨rfl, hid, -⟩ := transfer_table_ok harr
    rw [hfield hid, Except.ok.injEq] at hudid
    subst hudid
    obtain ⟨info, hinfo, h⟩ := bind_ok.mp h
    rw [pure_ok] at h
    subst h
    have hadd := ofGroups_add g ⟨addr, text row "udid", info⟩
    rw [hfind] at hadd
    refine ⟨_, ?_, hadd⟩
    rw [format_row, haddr, ok_bind, harr, ok_bind, texts_head, checkString, ok_bind, hinfo]
    rfl
  · rintro ⟨c, hc, rfl⟩
    obtain ⟨addr, haddr, h⟩ := bind_ok.mp hc
    obtain ⟨row_arr, harr, h⟩ := bind_ok.mp h
    obtain ⟨rfl, hid, -⟩ := transfer_table_ok harr
    rw [texts_head, checkString, ok_bind] at h
    obtain ⟨info, hinfo, h⟩ := bind_ok.mp h
    cases h
    have hadd := ofGroups_add g ⟨addr, text row "udid", info⟩
    rw [put, haddr, ok_bind]
    rcases hfind : (Tables.ofGroups g).find addr with ⟨i, t⟩
    rw [hfind] at hadd
    dsimp only
    rw [hfield hid, ok_bind, harr, ok_bind, hinfo]
    exact congrArg _ hadd

/-- **Each row adds to both lists of its group**: the groups are those of the commands. -/
theorem format_data_iff : format_data tdm rows = .ok data ↔
    ∃ reqs, Records.format_data tdm rows = .ok reqs ∧ data = reqs.map Group.ofReq := by
  have hfold : ∀ {rows : List Val} {g : Groups} {s : Tables},
      rows.foldlM (put tdm) (.ofGroups g) = .ok s ↔
        ∃ g', rows.foldlM (fun s row => do return Groups.add s (← format_row tdm row)) g = .ok g' ∧
          s = .ofGroups g' := by
    intro rows
    induction rows with
    | nil =>
      intro g s
      exact ⟨fun h => ⟨g, rfl, (pure_ok.mp h).symm⟩, fun ⟨g', hg', hs⟩ => by cases hg'; rw [hs]; rfl⟩
    | cons row rows ih =>
      intro g s
      simp only [foldlM_cons_ok, put_ok, bind_ok, pure_ok]
      constructor
      · rintro ⟨t, ⟨c, hc, rfl⟩, h⟩
        obtain ⟨g', hg', rfl⟩ := ih.mp h
        exact ⟨g', ⟨_, ⟨c, hc, rfl⟩, hg'⟩, rfl⟩
      · rintro ⟨g', ⟨_, ⟨c, hc, rfl⟩, hg'⟩, rfl⟩
        exact ⟨_, ⟨c, hc, rfl⟩, ih.mpr ⟨g', hg', rfl⟩⟩
  have hstart : (⟨∅, []⟩ : Tables) = .ofGroups ⟨∅, []⟩ := rfl
  unfold format_data Records.format_data
  simp only [bind_ok, pure_ok, hstart, hfold]
  constructor
  · rintro ⟨_, ⟨g', hg', rfl⟩, rfl⟩
    exact ⟨_, ⟨g', hg', rfl⟩, rfl⟩
  · rintro ⟨_, ⟨g', hg', rfl⟩, rfl⟩
    exact ⟨_, ⟨g', hg', rfl⟩, rfl⟩

end refine

/-! ### The partition -/

section partition

variable {tdm : Tdm} {rows : List Val} {cs : List Cmd} {g : Groups} {data : List Group}

lemma mapM_filter {α β : Type} {f : α → Lua β} {p : α → Bool} {q : β → Bool} {l : List α}
    {r : List β} (hpq : ∀ a b, f a = .ok b → p a = q b) (h : l.mapM f = .ok r) :
    (l.filter p).mapM f = .ok (r.filter q) := by
  induction l generalizing r with
  | nil => cases h; rfl
  | cons a l ih =>
    obtain ⟨b, hb, t, ht, rfl⟩ := mapM_cons_ok.mp h
    rw [List.filter_cons, List.filter_cons, hpq a b hb]
    split
    · exact mapM_cons_ok.mpr ⟨b, hb, _, ih ht, rfl⟩
    · exact ih ht

lemma mapM_then {α β γ : Type} {f : α → Lua β} {f' : α → Lua γ} {k : β → γ} {l : List α} {r : List β}
    (hk : ∀ a b, f a = .ok b → f' a = .ok (k b)) (h : l.mapM f = .ok r) :
    l.mapM f' = .ok (r.map k) := by
  induction l generalizing r with
  | nil => cases h; rfl
  | cons a l ih =>
    obtain ⟨b, hb, t, ht, rfl⟩ := mapM_cons_ok.mp h
    exact mapM_cons_ok.mpr ⟨k b, hk a b hb, _, ih ht, rfl⟩

lemma format_row_info {row : Val} {c : Cmd} (h : format_row tdm row = .ok c) :
    info tdm row = .ok c.info := by
  obtain ⟨addr, -, h⟩ := bind_ok.mp h
  obtain ⟨row_arr, harr, h⟩ := bind_ok.mp h
  obtain ⟨rfl, -, -⟩ := transfer_table_ok harr
  rw [texts_head, checkString, ok_bind] at h
  obtain ⟨text, htext, h⟩ := bind_ok.mp h
  cases h
  rw [info, harr, ok_bind, htext]

lemma apart_iff (hcs : rows.mapM (format_row tdm) = .ok cs) :
    Apart tdm rows ↔ ∀ c ∈ cs, ∀ c' ∈ cs, addrText c.addr = addrText c'.addr → c.addr = c'.addr := by
  constructor
  · intro h c hc c' hc'
    obtain ⟨row, hrow, hc⟩ := mapM_mem hcs hc
    obtain ⟨row', hrow', hc'⟩ := mapM_mem hcs hc'
    exact h row hrow row' hrow' _ _ (format_row_ok hc).2.1 (format_row_ok hc').2.1
  · intro h row hrow row' hrow' addr addr' haddr haddr'
    obtain ⟨c, hc, hrowc⟩ := mem_mapM hcs hrow
    obtain ⟨c', hc', hrowc'⟩ := mem_mapM hcs hrow'
    have hmaster := (format_row_ok hrowc).2.1
    have hmaster' := (format_row_ok hrowc').2.1
    rw [haddr, Except.ok.injEq] at hmaster
    rw [haddr', Except.ok.injEq] at hmaster'
    rw [hmaster, hmaster']
    exact h c hc c' hc'

/-- The commands of a server are those of its own rows. -/
lemma own_mapM (hcs : rows.mapM (format_row tdm) = .ok cs) (addr : Addr) :
    (own tdm addr rows).mapM (format_row tdm) = .ok (cs.filter fun c => c.addr = addr) := by
  refine mapM_filter (fun row c hc => ?_) hcs
  rw [(format_row_ok hc).2.1]
  simp [Except.toOption]

/-- Where the commands of one address text are for one master, a group holds those of its own. -/
lemma records_own (h : Grouped cs g)
    (hapart : ∀ c ∈ cs, ∀ c' ∈ cs, addrText c.addr = addrText c'.addr → c.addr = c'.addr) {req : Req}
    (hreq : req ∈ g.data) :
    req.records = (cs.filter fun c => c.addr = req.opts).map fun c => (c.id, c.info) := by
  obtain ⟨j, hj⟩ := List.mem_iff_getElem?.mp hreq
  obtain ⟨first, hfirst, hopts⟩ := h.exists_first hj
  rw [(h.req hj).1, withText]
  congr 1
  refine List.filter_congr fun c hc => decide_eq_decide.mpr ⟨fun htext => ?_, fun heq => by rw [heq]⟩
  rw [← hopts] at htext ⊢
  exact hapart c hc first hfirst htext

/-- **A batch is parted by the masters of its rows exactly when no two of them have one address
text**, for every configuration and every batch that is accepted. -/
theorem partition_iff (haccept : format_data tdm rows = .ok data) :
    Partition tdm rows data ↔ Apart tdm rows := by
  obtain ⟨reqs, hreqs, rfl⟩ := format_data_iff.mp haccept
  obtain ⟨cs, hcs, rfl⟩ := format_data_ok hreqs
  have hgrouped := grouped_foldl cs
  generalize cs.foldl Groups.add ⟨∅, []⟩ = g at hgrouped
  rw [apart_iff hcs]
  constructor
  · intro h c hc c' hc' htext
    have hgroup : ∀ c ∈ cs, ∃ (j : ℕ) (req : Req), g.data[j]? = some req ∧ req.opts = c.addr := by
      intro c hc
      obtain ⟨row, hrow, hc⟩ := mapM_mem hcs hc
      obtain ⟨_, hmem, hopts⟩ := h.group row hrow _ (format_row_ok hc).2.1
      obtain ⟨req, hreq, rfl⟩ := List.mem_map.mp hmem
      obtain ⟨j, hj⟩ := List.mem_iff_getElem?.mp hreq
      exact ⟨j, req, hj, hopts⟩
    obtain ⟨i, req, hi, hreq⟩ := hgroup c hc
    obtain ⟨j, req', hj, hreq'⟩ := hgroup c' hc'
    rw [← hreq, ← hreq'] at htext ⊢
    have hij := hgrouped.req_inj hi hj htext
    subst hij
    rw [hi, Option.some.injEq] at hj
    rw [hj]
  · intro hapart
    have hopts : (g.data.map Group.ofReq).map Group.opts = g.data.map Req.opts := by
      rw [List.map_map]
      rfl
    refine ⟨hopts ▸ hgrouped.opts_nodup, fun row hrow addr haddr => ?_, fun g' hg' => ?_,
      fun g' hg' => ?_⟩
    · obtain ⟨c, hc, hrowc⟩ := mem_mapM hcs hrow
      have hmaster := (format_row_ok hrowc).2.1
      rw [haddr, Except.ok.injEq] at hmaster
      subst hmaster
      obtain ⟨i, req, hi, htext⟩ := hgrouped.exists_req hc
      obtain ⟨first, hfirst, hfirst_opts⟩ := hgrouped.exists_first hi
      refine ⟨_, List.mem_map_of_mem (List.mem_of_getElem? hi), ?_⟩
      rw [Group.ofReq, ← hfirst_opts]
      exact hapart first hfirst c hc (hfirst_opts ▸ htext)
    · obtain ⟨req, hreq, rfl⟩ := List.mem_map.mp hg'
      have hids := mapM_map_eq (p := Val.get "udid") (q := fun c => some (.str c.id))
        (fun row c hc => (format_row_ok hc).1.symm) (own_mapM hcs req.opts)
      rw [Group.ofReq, ← hids, Req.ids, records_own hgrouped hapart hreq]
      simp
    · obtain ⟨req, hreq, rfl⟩ := List.mem_map.mp hg'
      rw [Group.ofReq, records_own hgrouped hapart hreq, List.map_map]
      exact mapM_then (fun row c hc => format_row_info hc) (own_mapM hcs req.opts)

end partition

section samples

theorem partition_iff_sample : ∃ data, format_data sampleTdm [sampleRow "u" "20"] = .ok data ∧
    (Partition sampleTdm [sampleRow "u" "20"] data ↔ Apart sampleTdm [sampleRow "u" "20"]) := by
  obtain ⟨data, hdata⟩ := exists_ok
    (show (format_data sampleTdm [sampleRow "u" "20"]).isOk by decide +kernel)
  exact ⟨data, hdata, partition_iff hdata⟩

/-- `10.0.0.1` with port 19 and `10.0.0.11` with port 9 make one text: the row of `u` is put into
the group of the master of `v`, and its own master has none. -/
theorem masters_in_one_group :
    ∃ data, format_data sampleTdm [sampleRow "v" "30", sampleRow "u" "20"] = .ok data ∧
      data.map Group.opts = [⟨lit "10.0.0.1", 19⟩] ∧
      master sampleTdm (sampleRow "u" "20") = .ok ⟨lit "10.0.0.11", 9⟩ ∧
      ¬ Partition sampleTdm [sampleRow "v" "30", sampleRow "u" "20"] data := by
  obtain ⟨data, hdata⟩ := exists_ok
    (show (format_data sampleTdm [sampleRow "v" "30", sampleRow "u" "20"]).isOk by decide +kernel)
  have hopts : (format_data sampleTdm [sampleRow "v" "30", sampleRow "u" "20"]).map
      (List.map Group.opts) = .ok [⟨lit "10.0.0.1", 19⟩] := by decide +kernel
  have hmaster : master sampleTdm (sampleRow "u" "20") = .ok ⟨lit "10.0.0.11", 9⟩ := by
    decide +kernel
  rw [hdata, Except.map, Except.ok.injEq] at hopts
  refine ⟨data, hdata, hopts, hmaster, fun h => ?_⟩
  obtain ⟨g, hg, hg_opts⟩ := h.group _ (List.mem_of_mem_tail (List.mem_singleton.mpr rfl)) _ hmaster
  have hmem := List.mem_map_of_mem (f := Group.opts) hg
  rw [hopts, hg_opts] at hmem
  exact absurd hmem (by decide)

end samples

end Sax.Batch
