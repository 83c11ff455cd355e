import Sax.ExpressLog
import Sax.TabText

/-!
The script `dsp.py`: the lines of a bid log, with tabs between parts `key=value`, become rows of 29
columns.

The dictionary `result` is made before the loop, so a column shows the latest value its key had up
to the line. The last part of a line is not looked at, and parts without a value are passed over.
-/

namespace Sax.BidLog

open Sax.LuaVal Sax.Runtime Sax.TextLines
open Sax.Uri (equals)
open Sax.ExpressLog (assign combine pair newline tab)
open Sax.TabText (read text Plain)

section source

def keys : List Str :=
  ["time", "rid", "u", "au", "ip", "chn", "imid", "of", "cls", "aspt", "spt", "ospt", "pr", "c",
    "p", "s", "sc", "bf", "srn", "swh", "sht", "ctb", "mtb", "ct", "tv", "ldp", "vid", "sid",
    "uid"].map lit

/-- The `try` of the loop over the parts. -/
def tryAssign (result : Tbl Str) (part : Str) : Tbl Str :=
  match assign result part with
  | .ok result => result
  | .error .indexError => result

/-- What the loop over the lines makes of the dictionary. -/
def readLine (result : Tbl Str) (line : Str) : Tbl Str :=
  let parts := split tab line
  parts.tail.dropLast.foldl tryAssign (result.insert (lit "time") (parts.headD []))

def columns (result : Tbl Str) : List Str := keys.map (combine result)

/-- The loop over the lines: the rows that are written. -/
def loop : Tbl Str → List Str → List (List Str)
  | _, [] => []
  | result, line :: rest =>
    let result := readLine result line
    columns result :: loop result rest

/-- The script, from the text it reads to the rows it writes. -/
def script (rfile : Str) : List (List Str) := loop ∅ (lines newline rfile)

end source

/-! ### What a row shows -/

/-- What a line puts into the dictionary, in this order. -/
def assignments (line : Str) : List (Str × Str) :=
  (lit "time", (split tab line).headD []) ::
    ((split tab line).tail.dropLast.filter fun part => equals ∈ part).map pair

/-- The value a key was given last, or nothing. -/
def latest (l : List (Str × Str)) (key : Str) : Str := (l.reverse.lookup key).getD []

section rows

variable {l : List (Str × Str)} {parts : List Str} {t : Tbl Str} {line key : Str}

lemma get_putAll (t : Tbl Str) (l : List (Str × Str)) (key : Str) :
    (t.putAll l).get key = (l.reverse.lookup key).or (t.get key) := by
  induction l using List.reverseRecOn with
  | nil => rfl
  | append_singleton l e ih =>
    rw [Tbl.putAll_append, List.reverse_append, List.reverse_singleton, List.singleton_append,
      List.lookup_cons]
    by_cases hkey : key = e.1
    · subst hkey
      rw [beq_self_eq_true]
      exact AList.lookup_insert _
    · rw [beq_false_of_ne hkey]
      exact (AList.lookup_insert_ne hkey).trans ih

lemma foldl_tryAssign :
    parts.foldl tryAssign t = t.putAll ((parts.filter fun part => equals ∈ part).map pair) := by
  induction parts generalizing t with
  | nil => rfl
  | cons part parts ih =>
    rw [List.foldl_cons, ih]
    by_cases hpart : equals ∈ part
    · have hassign : tryAssign t part = t.insert (pair part).1 (pair part).2 := by
        rw [tryAssign, ExpressLog.assigns_assign t part hpart]
      rw [hassign, List.filter_cons_of_pos (by simpa using hpart)]
      rfl
    · have hassign : tryAssign t part = t := by
        rw [tryAssign, assign, List.splitOn_eq_singleton hpart]
        rfl
      rw [hassign, List.filter_cons_of_neg (by simpa using hpart)]

lemma readLine_eq : readLine t line = t.putAll (assignments line) := by
  rw [readLine, foldl_tryAssign]
  rfl

/-- **At each line the columns are the latest values up to it.** -/
lemma loop_eq (l : List Str) (t : Tbl Str) : loop t l = (List.range l.length).map fun i =>
    columns (t.putAll ((l.take (i + 1)).flatMap assignments)) := by
  induction l generalizing t with
  | nil => rfl
  | cons line l ih =>
    rw [loop, ih, readLine_eq, List.length_cons, List.range_succ_eq_map, List.map_cons,
      List.map_map]
    congr 1
    · simp
    · refine List.map_congr_left fun i _ => ?_
      simp [Tbl.putAll_append]

lemma columns_eq : columns ((∅ : Tbl Str).putAll l) = keys.map (latest l) := by
  refine List.map_congr_left fun key _ => ?_
  rw [combine, get_putAll, latest]
  cases l.reverse.lookup key <;> rfl

lemma script_getElem? (rfile : Str) (i : ℕ) : (script rfile)[i]? =
    if i < (lines newline rfile).length then
      some (keys.map (latest (((lines newline rfile).take (i + 1)).flatMap assignments)))
    else none := by
  rw [script, loop_eq, List.getElem?_map]
  by_cases hi : i < (lines newline rfile).length
  · rw [List.getElem?_range hi, if_pos hi, Option.map_some, columns_eq]
  · rw [List.getElem?_eq_none (by simpa using hi), if_neg hi]
    rfl

end rows

/-! ### Whether the rows can be read back -/

section plain

variable {l : List Str} {line part : Str} {c : UInt8}

/-- What stands in a part before the last one stands before the last character. -/
lemma mem_dropLast_concat (hpart : part ∈ l.dropLast) (hc : c ∈ part) :
    c ∈ (concat tab l).dropLast := by
  induction l with
  | nil => cases hpart
  | cons s l ih =>
    cases l with
    | nil => cases hpart
    | cons s' l =>
      rw [List.dropLast_cons_of_ne_nil (by simp), List.mem_cons] at hpart
      rw [concat_cons, List.dropLast_append_of_ne_nil (by simp), List.mem_append]
      rcases hpart with rfl | hpart
      · exact .inl hc
      · have hmem := ih hpart
        have hne : concat tab (s' :: l) ≠ [] := by
          rintro hnil
          rw [hnil] at hmem
          cases hmem
        rw [List.dropLast_cons_of_ne_nil hne]
        exact .inr (List.mem_cons_of_mem _ hmem)

/-- The values of a line have no tab, and no end of a line if it has a tab or no end. -/
lemma plain_assignments (hline : newline ∉ line.dropLast) {e : Str × Str}
    (he : e ∈ assignments line) :
    tab ∉ e.2 ∧ (tab ∈ line ∨ newline ∉ line → newline ∉ e.2) := by
  obtain ⟨first, rest, hsplit⟩ := List.exists_cons_of_ne_nil (List.splitOn_ne_nil tab line)
  have hsplit : split tab line = first :: rest := hsplit
  obtain ⟨part, hpart, hsub, hlast⟩ : ∃ part ∈ split tab line, e.2 ⊆ part ∧
      (rest ≠ [] → part ∈ (split tab line).dropLast) := by
    rw [assignments, hsplit] at he
    rcases List.mem_cons.mp he with rfl | he
    · refine ⟨first, by simp [hsplit], fun _ h => h, fun hne => ?_⟩
      rw [hsplit, List.dropLast_cons_of_ne_nil hne]
      exact List.mem_cons_self
    · obtain ⟨part, hmem, rfl⟩ := List.mem_map.mp he
      have hmem : part ∈ rest.dropLast := (List.mem_filter.mp hmem).1
      have hne : rest ≠ [] := by
        rintro rfl
        cases hmem
      refine ⟨part, ?_, fun c hc => ?_, fun _ => ?_⟩
      · rw [hsplit]
        exact List.mem_cons_of_mem _ (List.dropLast_subset _ hmem)
      · change c ∈ (part.splitOn equals).getD 1 [] at hc
        rw [List.getD_eq_getElem?_getD] at hc
        cases hv : (part.splitOn equals)[1]? with
        | none => simp [hv] at hc
        | some value =>
          rw [hv] at hc
          exact mem_of_mem_split (List.mem_of_getElem? hv) hc
      · rw [hsplit, List.dropLast_cons_of_ne_nil hne]
        exact List.mem_cons_of_mem _ hmem
  refine ⟨fun htab => notMem_of_mem_split hpart (hsub htab), fun hend hmem => ?_⟩
  by_cases hrest : rest = []
  · -- one part: the line itself
    have hnotab : tab ∉ line := by
      have hwhole := concat_split tab line
      rw [hsplit, hrest] at hwhole
      have hfirst : first = line := by simpa [concat, List.intercalate] using hwhole
      rw [← hfirst]
      exact notMem_of_mem_split (by rw [hsplit]; exact List.mem_cons_self)
    exact hend.resolve_left hnotab (mem_of_mem_split hpart (hsub hmem))
  · have hdrop := mem_dropLast_concat (hlast hrest) (hsub hmem)
    rw [concat_split] at hdrop
    exact hline hdrop

/-- A line without a tab is its own time. -/
lemma latest_time (l : List (Str × Str)) (h : tab ∉ line) :
    latest (l ++ assignments line) (lit "time") = line := by
  have hassign : assignments line = [(lit "time", line)] := by
    rw [assignments, split_of_notMem h]
    rfl
  rw [latest, hassign, List.reverse_append, List.reverse_singleton, List.singleton_append,
    List.lookup_cons, beq_self_eq_true]
  rfl

lemma latest_mem {l : List (Str × Str)} {key : Str} (h : c ∈ latest l key) :
    ∃ e ∈ l, c ∈ e.2 := by
  unfold latest at h
  cases hlookup : l.reverse.lookup key with
  | none => simp [hlookup] at h
  | some value =>
    rw [hlookup] at h
    obtain ⟨l₁, l₂, hl, -⟩ := List.lookup_eq_some_iff.mp hlookup
    have hmem : (key, value) ∈ l.reverse := by
      rw [hl]
      simp
    exact ⟨_, List.mem_reverse.mp hmem, h⟩

end plain

end Sax.BidLog
