import Sax.Loop
import Sax.Runtime
import Sax.TextLines
import Sax.Uri

/-!
The scripts `exposure.py` and `click.py`: a log of requests is rewritten, and each line becomes the
values of fifteen keys of its query.

The dictionary `result` is made before the loop over the lines, so that a line without a key gets
the value an earlier line had for it.
-/

namespace Sax.ExpressLog

open Sax.LuaVal Sax.Loop Sax.Runtime Sax.TextLines Sax.Uri

inductive PyError
  | indexError
  deriving DecidableEq

abbrev Py := Except PyError

def newline : UInt8 := 10
def tab : UInt8 := 9
def question : UInt8 := 63

section source

/-- `s.find(c)` -/
def find (s : Str) (c : UInt8) : ℤ :=
  match s.idxOf? c with
  | some i => i
  | none => -1

/-- `l[i]` -/
def index (l : List Str) (i : ℕ) : Py Str :=
  match l[i]? with
  | some s => .ok s
  | none => .error .indexError

/-- `line[line.find('?')+1:-1]` -/
def query (line : Str) : Str := line.dropLast.drop (find line question + 1).toNat

/-- `query.split('&')` -/
def parts (line : Str) : List Str := (query line).splitOn ampersand

/-- `result[part.split('=')[0]]=part.split('=')[1]` -/
def assign (result : Tbl Str) (part : Str) : Py (Tbl Str) := do
  let value ← index (part.splitOn equals) 1
  let key ← index (part.splitOn equals) 0
  return result.insert key value

def combine (dict : Tbl Str) (str : Str) : Str := (dict.get str).getD []

def keys : List Str :=
  ["bb", "l", "ba", "usr", "bf", "be", "s", "bj", "bd", "bq", "aw", "dt", "os", "n", "vid"].map lit

/-- The fields of each line that is written, and how the script ends. -/
structure Output where
  rows : List (List Str)
  ended : Py Unit

/-- One line of the file that is written. -/
def rowText (row : List Str) : Str := concat tab row ++ [newline]

def Output.text (o : Output) : Str := o.rows.flatMap rowText

/-- The loop over the lines; `put` is the body of the loop over the parts. An error ends the
script, and what was written before stays. -/
def loop (put : Tbl Str → Str → Py (Tbl Str)) : Tbl Str → List Str → Output
  | _, [] => ⟨[], .ok ()⟩
  | result, line :: rest =>
    match (parts line).foldlM put result with
    | .error e => ⟨[], .error e⟩
    | .ok result =>
      let o := loop put result rest
      ⟨keys.map (combine result) :: o.rows, o.ended⟩

/-- The `try` of `exposure.py`. -/
def tryAssign (result : Tbl Str) (part : Str) : Py (Tbl Str) :=
  match assign result part with
  | .ok result => .ok result
  | .error _ => .ok result

/-- A script, from the text it reads to what it writes. -/
def script (put : Tbl Str → Str → Py (Tbl Str)) (rfile : Str) : Output :=
  loop put ∅ (lines newline rfile)

/-- `exposure.py` -/
def exposure : Str → Output := script tryAssign

/-- `click.py` -/
def click : Str → Output := script assign

end source

/-! ### What a line may depend on -/

/-- The line has a part `key=value`. -/
def HasKey (line key : Str) : Prop := ∃ part ∈ parts line, ∃ value, part = key ++ equals :: value

/-- A log whose lines carry parts `key=value`. -/
structure LogFile where
  text : Str
  keyValue : ∀ line ∈ lines newline text, ∀ part ∈ parts line, equals ∈ part

abbrev LogFile.lines (file : LogFile) : List Str := TextLines.lines newline file.text

/-- The `i`-th line of the file that is written. -/
def outLine (script : Str → Output) (file : LogFile) (i : ℕ) : Option Str :=
  (lines newline (script file.text).text)[i]?

/-- What the `i`-th line becomes depends on the `i`-th line only, and a key it does not have gives
an empty field. -/
structure Independent (script : Str → Output) (file : LogFile) (i : ℕ) : Prop where
  only : ∀ file' : LogFile, file'.lines.length = file.lines.length →
    file'.lines[i]? = file.lines[i]? → outLine script file' i = outLine script file i
  absent : ∀ line, file.lines[i]? = some line → ∀ (n : ℕ) key, keys[n]? = some key →
    ¬ HasKey line key → ∃ row, (script file.text).rows[i]? = some row ∧ row[n]? = some []

/-! ### What the loop writes -/

/-- The key and the value of a part. -/
def pair (part : Str) : Str × Str :=
  ((part.splitOn equals).getD 0 [], (part.splitOn equals).getD 1 [])

def pairs (line : Str) : List (Str × Str) := (parts line).map pair

def fields (result : Tbl Str) : List Str := keys.map (combine result)

lemma splitOn_append {key : Str} (hkey : equals ∉ key) (value : Str) :
    (key ++ equals :: value).splitOn equals = key :: value.splitOn equals :=
  List.splitOn_append_cons_self_of_not_mem hkey value

lemma pair_append {key : Str} (hkey : equals ∉ key) (value : Str) :
    (pair (key ++ equals :: value)).1 = key := by
  rw [pair, splitOn_append hkey]
  rfl

lemma pair_of_notMem {key value : Str} (hkey : equals ∉ key) (hvalue : equals ∉ value) :
    pair (key ++ equals :: value) = (key, value) := by
  rw [pair, splitOn_append hkey, List.splitOn_eq_singleton hvalue]
  rfl

/-- Before the first `=` of a part stands its key. -/
lemma exists_key {part : Str} (h : equals ∈ part) :
    ∃ key value, equals ∉ key ∧ part = key ++ equals :: value := by
  obtain ⟨key, value, hpart, hkey⟩ := List.eq_append_cons_of_mem h
  exact ⟨key, value, hkey, hpart⟩

lemma hasKey_iff {line key : Str} (hline : ∀ part ∈ parts line, equals ∈ part)
    (hkey : equals ∉ key) : HasKey line key ↔ ∃ e ∈ pairs line, e.1 = key := by
  unfold HasKey pairs
  constructor
  · rintro ⟨part, hpart, value, rfl⟩
    exact ⟨_, List.mem_map_of_mem hpart, pair_append hkey value⟩
  · rintro ⟨e, he, rfl⟩
    obtain ⟨part, hpart, rfl⟩ := List.mem_map.mp he
    obtain ⟨key, value, hkey', rfl⟩ := exists_key (hline part hpart)
    exact ⟨_, hpart, value, by rw [pair_append hkey']⟩

/-- What the two scripts do with a part that has a value. -/
def Assigns (put : Tbl Str → Str → Py (Tbl Str)) : Prop :=
  ∀ result part, equals ∈ part →
    put result part = .ok (result.insert (pair part).1 (pair part).2)

lemma assigns_assign : Assigns assign := by
  intro result part h
  obtain ⟨key, value, hkey, rfl⟩ := exists_key h
  obtain ⟨first, rest, hvalue⟩ := List.exists_cons_of_ne_nil (List.splitOn_ne_nil equals value)
  unfold assign pair
  rw [splitOn_append hkey, hvalue]
  rfl

lemma assigns_tryAssign : Assigns tryAssign := by
  intro result part h
  rw [tryAssign, assigns_assign result part h]

variable {put : Tbl Str → Str → Py (Tbl Str)} {l : List Str}

lemma foldlM_put (hput : Assigns put) (h : ∀ part ∈ l, equals ∈ part) (t : Tbl Str) :
    l.foldlM put t = .ok (t.putAll (l.map pair)) := by
  induction l generalizing t with
  | nil => rfl
  | cons part l ih =>
    rw [List.forall_mem_cons] at h
    rw [List.foldlM_cons, hput t part h.1, ok_bind, ih h.2]
    rfl

/-- At each line the dictionary has what the lines up to it put there. -/
lemma loop_eq (hput : Assigns put) (h : ∀ line ∈ l, ∀ part ∈ parts line, equals ∈ part)
    (t : Tbl Str) :
    loop put t l = ⟨(List.range l.length).map fun i =>
      fields (t.putAll ((l.take (i + 1)).flatMap pairs)), .ok ()⟩ := by
  induction l generalizing t with
  | nil => rfl
  | cons line l ih =>
    rw [List.forall_mem_cons] at h
    rw [loop, foldlM_put hput h.1]
    simp only [ih h.2, Output.mk.injEq, and_true]
    rw [List.length_cons, List.range_succ_eq_map, List.map_cons, List.map_map]
    congr 1
    · simp [fields, pairs]
    · refine List.map_congr_left fun i _ => ?_
      simp [Tbl.putAll_append, pairs]

/-! ### The lines of the file that is written -/

section written

variable {file : LogFile} {i : ℕ} {line : Str}

/-- A value comes from the line before its end. -/
lemma newline_notMem_value {e : Str × Str} (hline : newline ∉ line.dropLast) (he : e ∈ pairs line) :
    newline ∉ e.2 := by
  obtain ⟨part, hpart, rfl⟩ := List.mem_map.mp he
  intro hmem
  have hvalue : newline ∈ part := by
    change newline ∈ (part.splitOn equals).getD 1 [] at hmem
    rw [List.getD_eq_getElem?_getD] at hmem
    cases hv : (part.splitOn equals)[1]? with
    | none => simp [hv] at hmem
    | some value =>
      rw [hv] at hmem
      exact mem_of_mem_split (List.mem_of_getElem? hv) hmem
  exact hline (List.mem_of_mem_drop (mem_of_mem_split hpart hvalue))

lemma newline_notMem_fields {l : List (Str × Str)} (h : ∀ e ∈ l, newline ∉ e.2) {s : Str}
    (hs : s ∈ fields ((∅ : Tbl Str).putAll l)) : newline ∉ s := by
  obtain ⟨key, -, rfl⟩ := List.mem_map.mp hs
  unfold combine
  cases hget : ((∅ : Tbl Str).putAll l).get key with
  | none => exact List.not_mem_nil
  | some value => exact h _ (Tbl.mem_of_get_putAll hget)

/-- The dictionary as the loop comes to the `i`-th line. -/
def before (file : LogFile) (i : ℕ) : Tbl Str :=
  (∅ : Tbl Str).putAll ((file.lines.take i).flatMap pairs)

lemma rows_eq (hput : Assigns put) (hi : file.lines[i]? = some line) :
    (script put file.text).rows[i]? = some (fields ((before file i).putAll (pairs line))) := by
  have hlt : i < file.lines.length := (List.getElem?_eq_some_iff.mp hi).1
  have hrun := loop_eq hput file.keyValue ∅
  unfold script before
  rw [hrun, List.getElem?_map, List.getElem?_range hlt, Option.map_some, ← Tbl.putAll_append]
  change some (fields ((∅ : Tbl Str).putAll ((file.lines.take (i + 1)).flatMap pairs))) = _
  rw [List.take_add_one, hi, List.flatMap_append]
  simp

/-- The rows are read back as lines. -/
lemma lines_text (hput : Assigns put) (file : LogFile) :
    lines newline (script put file.text).text = (script put file.text).rows.map rowText := by
  have hlines := Lines.of_lines newline file.text
  unfold Output.text rowText script
  rw [loop_eq hput file.keyValue]
  refine lines_flatMap fun row hrow hmem => ?_
  obtain ⟨i, -, rfl⟩ := List.mem_map.mp hrow
  rcases mem_concat hmem with htab | ⟨s, hs, hmem⟩
  · exact absurd htab (by decide)
  · refine newline_notMem_fields (fun e he => ?_) hs hmem
    obtain ⟨line, hline, he⟩ := List.mem_flatMap.mp he
    exact newline_notMem_value (hlines.notMem (List.mem_of_mem_take hline)) he

lemma outLine_eq (hput : Assigns put) (file : LogFile) (i : ℕ) :
    outLine (script put) file i = file.lines[i]?.map fun line =>
      rowText (fields ((before file i).putAll (pairs line))) := by
  unfold outLine
  rw [lines_text hput, List.getElem?_map]
  cases hi : file.lines[i]? with
  | none =>
    have hle : file.lines.length ≤ i := List.getElem?_eq_none_iff.mp hi
    unfold script
    rw [loop_eq hput file.keyValue, List.getElem?_eq_none (by simpa using hle)]
    rfl
  | some line => rw [rows_eq hput hi]; rfl

end written

/-! ### What leaks from one line to another -/

section independent

variable {file : LogFile} {i : ℕ} {line key : Str}

lemma keys_plain : ∀ key ∈ keys, equals ∉ key ∧ ampersand ∉ key ∧ newline ∉ key := by
  decide +kernel

lemma hasKey_iff_of_getElem? (hi : file.lines[i]? = some line) (hkey : key ∈ keys) :
    HasKey line key ↔ ∃ e ∈ pairs line, e.1 = key :=
  hasKey_iff (file.keyValue line (List.mem_of_getElem? hi)) (keys_plain key hkey).1

/-- The line has all the keys that are written. -/
def HasKeys (line : Str) : Prop := ∀ key ∈ keys, HasKey line key

/-- A line with all the keys hides what was there before. -/
lemma fields_congr (hi : file.lines[i]? = some line) (hkeys : HasKeys line) (t t' : Tbl Str) :
    fields (t.putAll (pairs line)) = fields (t'.putAll (pairs line)) := by
  refine List.map_congr_left fun key hkey => ?_
  have hhas := (hasKey_iff_of_getElem? hi hkey).mp (hkeys key hkey)
  rw [combine, combine, Tbl.get_putAll_congr hhas]

lemma independent_of (hput : Assigns put)
    (h : i = 0 ∨ ∀ line, file.lines[i]? = some line → HasKeys line) :
    Independent (script put) file i where
  only file' _ hsame := by
    rw [outLine_eq hput, outLine_eq hput, hsame]
    cases hi : file.lines[i]? with
    | none => rfl
    | some line =>
      rcases h with rfl | h
      · rfl
      · exact congrArg (fun row => some (rowText row)) (fields_congr hi (h line hi) _ _)
  absent line hi n key hn habsent := by
    have hkey : key ∈ keys := List.mem_of_getElem? hn
    refine ⟨_, rows_eq hput hi, ?_⟩
    rcases h with rfl | h
    · have hnone : ∀ e ∈ pairs line, e.1 ≠ key := fun e he heq =>
        habsent ((hasKey_iff_of_getElem? hi hkey).mpr ⟨e, he, heq⟩)
      rw [fields, List.getElem?_map, hn, Option.map_some, combine, Tbl.get_putAll_notMem hnone]
      rfl
    · exact absurd (h line hi key hkey) habsent

/-- A line with one key. -/
def probe (key value : Str) : Str := question :: (key ++ equals :: value)

lemma parts_probe {value : Str} (hkey : ampersand ∉ key) (hvalue : ampersand ∉ value) :
    parts (probe key value ++ [newline]) = [key ++ equals :: value] := by
  have hquery : query (probe key value ++ [newline]) = key ++ equals :: value := by
    unfold query
    rw [List.dropLast_concat]
    simp [find, probe, List.idxOf?_cons]
  unfold parts
  rw [hquery]
  refine List.splitOn_eq_singleton ?_
  simp only [List.mem_append, List.mem_cons, not_or]
  exact ⟨hkey, by decide, hvalue⟩

/-- A line before the last one is replaced. -/
lemma exists_set {j : ℕ} (hj : j + 1 < file.lines.length) (hline : newline ∉ line)
    (hparts : ∀ part ∈ parts (line ++ [newline]), equals ∈ part) :
    ∃ file' : LogFile, file'.lines = file.lines.set j (line ++ [newline]) := by
  have hlines := ((Lines.of_lines newline file.text).set hj hline).lines_flatten
  refine ⟨⟨(file.lines.set j (line ++ [newline])).flatten, fun line' hline' => ?_⟩, hlines⟩
  rw [hlines] at hline'
  rcases List.mem_or_eq_of_mem_set hline' with hmem | rfl
  · exact file.keyValue line' hmem
  · exact hparts

lemma before_set {file' : LogFile} {j : ℕ} {new : Str} (h : file'.lines = file.lines.set j new)
    (hj : j < file.lines.length) : before file' (j + 1) = (before file j).putAll (pairs new) := by
  unfold before
  rw [h, List.take_add_one, List.take_set_of_le le_rfl, List.getElem?_set_self hj,
    ← Tbl.putAll_append, List.flatMap_append]
  simp

/-- The value of a key the line does not have is the one of the line before. -/
lemma leak (hput : Assigns put) {j : ℕ} (hi : file.lines[j + 1]? = some line) (hkey : key ∈ keys)
    (habsent : ¬ HasKey line key) {value : Str} (hvalue : ∀ c ∈ value, c = 97) :
    ∃ file' : LogFile, file'.lines.length = file.lines.length ∧
      file'.lines[j + 1]? = file.lines[j + 1]? ∧
      ∃ text, outLine (script put) file' (j + 1) = some text ∧ value.length ≤ text.length := by
  have hj : j + 1 < file.lines.length := (List.getElem?_eq_some_iff.mp hi).1
  obtain ⟨hequals, hampersand, hnewline⟩ := keys_plain key hkey
  have hplain : ∀ c, c ≠ 97 → c ∉ value := fun c hc hmem => hc (hvalue c hmem)
  have hparts := parts_probe hampersand (hplain ampersand (by decide))
  have hprobe : newline ∉ probe key value := by
    simp only [probe, List.mem_cons, List.mem_append, not_or]
    exact ⟨by decide, hnewline, by decide, hplain newline (by decide)⟩
  obtain ⟨file', hfile⟩ := exists_set hj hprobe (by simp [hparts])
  have hsame : file'.lines[j + 1]? = file.lines[j + 1]? := by
    rw [hfile, List.getElem?_set_ne (by omega)]
  refine ⟨file', by rw [hfile, List.length_set], hsame, _,
    by rw [outLine_eq hput, hsame, hi, Option.map_some], ?_⟩
  have hnone : ∀ e ∈ pairs line, e.1 ≠ key := fun e he heq =>
    habsent ((hasKey_iff_of_getElem? hi hkey).mpr ⟨e, he, heq⟩)
  have hpairs : pairs (probe key value ++ [newline]) = [(key, value)] := by
    rw [pairs, hparts, List.map_singleton, pair_of_notMem hequals (hplain equals (by decide))]
  have hfield : value ∈ fields ((before file' (j + 1)).putAll (pairs line)) := by
    refine List.mem_map.mpr ⟨key, hkey, ?_⟩
    rw [combine, Tbl.get_putAll_notMem hnone, before_set hfile (by omega), hpairs]
    simp [Tbl.putAll, Tbl.get]
  rw [rowText, List.length_append]
  exact (length_le_concat hfield).trans (Nat.le_add_right _ _)

lemma hasKeys_of_independent (hput : Assigns put) (h : Independent (script put) file i) :
    i = 0 ∨ ∀ line, file.lines[i]? = some line → HasKeys line := by
  cases i with
  | zero => exact .inl rfl
  | succ j =>
    refine .inr fun line hi key hkey => ?_
    by_contra habsent
    -- a value longer than the whole line that is written now
    obtain ⟨value, hvalue, hlong⟩ : ∃ value : Str, (∀ c ∈ value, c = 97) ∧
        ((outLine (script put) file (j + 1)).getD []).length < value.length :=
      ⟨.replicate (_ + 1) 97, fun c hc => List.eq_of_mem_replicate hc, by
        rw [List.length_replicate]; exact Nat.lt_succ_self _⟩
    obtain ⟨file', hlength, hsame, text, htext, hle⟩ := leak hput hi hkey habsent hvalue
    rw [← h.only file' hlength hsame, htext] at hlong
    exact absurd hle (Nat.not_le_of_lt hlong)

end independent

/-- **A line is independent of the others** where it is the first one or has all the keys. -/
theorem independent_iff (file : LogFile) (i : ℕ) :
    (Independent exposure file i ↔
      i = 0 ∨ ∀ line, file.lines[i]? = some line → HasKeys line) ∧
    (Independent click file i ↔
      i = 0 ∨ ∀ line, file.lines[i]? = some line → HasKeys line) :=
  ⟨⟨hasKeys_of_independent assigns_tryAssign, independent_of assigns_tryAssign⟩,
    hasKeys_of_independent assigns_assign, independent_of assigns_assign⟩

/-- Two lines, of which the second one has no `bb`. -/
def leaky : LogFile := ⟨lit "r.gif?bb=3\nr.gif?l=1\n", by decide +kernel⟩

/-- The same lines, the first one with another value. -/
def leaky' : LogFile := ⟨lit "r.gif?bb=4\nr.gif?l=1\n", by decide +kernel⟩

/-- The `bb` of the first line is written for the second one too. -/
theorem second_line_leaks : ¬ Independent exposure leaky 1 ∧ ¬ Independent click leaky 1 := by
  refine ⟨fun h => ?_, fun h => ?_⟩
  · exact absurd (h.only leaky' (by decide +kernel) (by decide +kernel)) (by decide +kernel)
  · exact absurd (h.only leaky' (by decide +kernel) (by decide +kernel)) (by decide +kernel)

end Sax.ExpressLog
