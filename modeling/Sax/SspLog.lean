import Sax.ExpressLog
import Sax.TabText

/-!
The scripts `ssp_click.py` and `ssp_monitor.py`, which are one: the lines of a log become rows of
38 columns for two other systems, by the parity of the number `slog`.

The dictionary `result` is made anew for every line, so a row is made of its own line alone. A part
without a value and a `slog` that is no number end the script, with the rows so far written.
-/

namespace Sax.SspLog

open Sax.LuaVal Sax.Loop Sax.Runtime Sax.TextLines Sax.Uri
open Sax.ExpressLog (parts assign combine pair pairs newline tab)
open Sax.TabText (read text Plain)

inductive PyError
  | indexError
  | valueError
  deriving DecidableEq

abbrev Py := Except PyError

/-- The files that are written. -/
inductive File
  | youku
  | tudou
  deriving DecidableEq

section source

def version : Str := lit "7"
def blank : Str := lit " "

/-- The loop over the parts of a line. -/
def values (line : Str) : Py (Tbl Str) :=
  match (parts line).foldlM assign ∅ with
  | .ok result => .ok result
  | .error _ => .error .indexError

def columns (result : Tbl Str) : List Str :=
  let value := fun key : String => combine result (lit key)
  [version, value "bj", value "s", value "bf",
    if value "be" = [] then value "ci" else value "be",
    value "sct", value "scs", value "sv", value "su", lit "2", value "sck", blank, value "bl",
    value "ss", value "std", blank, value "sat", blank, value "scr", blank, value "sprd"] ++
    List.replicate 8 blank ++ [value "suri"] ++ List.replicate 6 blank ++
    [value "spc", value "slog"]

-- `int(s)`, which raises for `none`
variable (int : Str → Option ℤ)

/-- Which file a row goes to. Without a `slog` it is not written. -/
def route (slog : Str) : Py (Option File) :=
  if slog = [] then .ok none
  else match int slog with
    | none => .error .valueError
    | some n => .ok (some (if n % 2 = 1 then .youku else .tudou))

/-- The body of the loop over the lines. -/
def lineRow (line : Str) : Py (Option (File × List Str)) := do
  let result ← values line
  let file ← route int (combine result (lit "slog"))
  return file.map fun f => (f, columns result)

/-- The rows of the two files, and how the script ends. -/
structure Output where
  rows : File → List (List Str)
  ended : Py Unit

def Output.write (o : Output) (f : File) (row : List Str) : Output :=
  { o with rows := fun f' => if f' = f then row :: o.rows f else o.rows f' }

/-- The loop over the lines. An error ends the script, and what was written before stays. -/
def loop : List Str → Output
  | [] => ⟨fun _ => [], .ok ()⟩
  | line :: rest =>
    match lineRow int line with
    | .error e => ⟨fun _ => [], .error e⟩
    | .ok none => loop rest
    | .ok (some (f, row)) => (loop rest).write f row

def script (rfile : Str) : Output := loop int (lines newline rfile)

end source

/-! ### What is written of a line -/

/-- The values of the keys of a line, where every part has one. -/
def valuesOf (line : Str) : Tbl Str := (∅ : Tbl Str).putAll (pairs line)

def slogOf (line : Str) : Str := combine (valuesOf line) (lit "slog")

def rowOf (line : Str) : List Str := columns (valuesOf line)

section spec

variable (int : Str → Option ℤ)

/-- Every part has a value, and a `slog` is a number. -/
def good (line : Str) : Bool :=
  (parts line).all (fun part => decide (equals ∈ part)) &&
    (decide (slogOf line = []) || (int (slogOf line)).isSome)

/-- The file of a good line, by the parity of its `slog`. -/
def fileOf (line : Str) : Option File :=
  if slogOf line = [] then none
  else (int (slogOf line)).map fun n => if n % 2 = 1 then .youku else .tudou

/-- The lines that come to a file: those before the first one that is not good, by their `slog`. -/
def linesFor (l : List Str) (f : File) : List Str :=
  (l.takeWhile (good int)).filter fun line => fileOf int line = some f

end spec

variable {int : Str → Option ℤ} {line : Str} {l : List Str}

lemma values_eq (h : ∀ part ∈ parts line, equals ∈ part) : values line = .ok (valuesOf line) := by
  rw [values, ExpressLog.foldlM_put ExpressLog.assigns_assign h]
  rfl

/-- A part without a value is an index error. -/
lemma foldlM_assign_error {l : List Str} (h : ∃ part ∈ l, equals ∉ part) (t : Tbl Str) :
    ∃ e, l.foldlM assign t = .error e := by
  induction l generalizing t with
  | nil => simp at h
  | cons part l ih =>
    rw [List.foldlM_cons]
    by_cases hpart : equals ∈ part
    · rw [ExpressLog.assigns_assign t part hpart]
      refine ih ?_ _
      obtain ⟨part', hmem, hpart'⟩ := h
      rcases List.mem_cons.mp hmem with rfl | hmem
      · exact absurd hpart hpart'
      · exact ⟨part', hmem, hpart'⟩
    · refine ⟨.indexError, ?_⟩
      rw [assign, List.splitOn_eq_singleton hpart]
      rfl

/-- A good line is written to its file. -/
lemma lineRow_good (h : good int line = true) :
    lineRow int line = .ok ((fileOf int line).map fun f => (f, rowOf line)) := by
  obtain ⟨hparts, hslog⟩ := Bool.and_eq_true_iff.mp h
  have hparts : ∀ part ∈ parts line, equals ∈ part := by simpa using hparts
  have hroute : route int (slogOf line) = .ok (fileOf int line) := by
    unfold route fileOf
    by_cases hnil : slogOf line = []
    · rw [if_pos hnil, if_pos hnil]
    · rw [if_neg hnil, if_neg hnil]
      cases hint : int (slogOf line) with
      | none => simp [hnil, hint] at hslog
      | some n => rfl
  rw [lineRow, values_eq hparts]
  change (route int (slogOf line) >>= _) = _
  rw [hroute]
  rfl

/-- Any other line ends the script. -/
lemma lineRow_bad (h : ¬ good int line = true) : ∃ e, lineRow int line = .error e := by
  by_cases hparts : ∀ part ∈ parts line, equals ∈ part
  · have hall : (parts line).all (fun part => decide (equals ∈ part)) = true := by
      simpa using hparts
    rw [good, hall, Bool.true_and, Bool.or_eq_true, decide_eq_true_eq, not_or,
      Option.not_isSome_iff_eq_none] at h
    refine ⟨.valueError, ?_⟩
    have hroute : route int (slogOf line) = .error .valueError := by
      rw [route, if_neg h.1, h.2]
    rw [lineRow, values_eq hparts]
    change (route int (slogOf line) >>= _) = _
    rw [hroute]
    rfl
  · push Not at hparts
    obtain ⟨e, he⟩ := foldlM_assign_error hparts ∅
    refine ⟨.indexError, ?_⟩
    rw [lineRow, values, he]
    rfl

variable (int) in
/-- **What the loop writes**: the rows of the lines before the first one that is not good, each in
the file of its `slog`, in the order of the log. -/
lemma loop_rows (l : List Str) : (∀ f, (loop int l).rows f = (linesFor int l f).map rowOf) ∧
    ((loop int l).ended = .ok () ↔ ∀ line ∈ l, good int line = true) := by
  induction l with
  | nil => exact ⟨fun f => rfl, by simp [loop]⟩
  | cons line l ih =>
    obtain ⟨hrows, hended⟩ := ih
    by_cases hgood : good int line = true
    · rw [loop, lineRow_good hgood]
      cases hfile : fileOf int line with
      | none =>
        refine ⟨fun f => ?_, by simp [hended, hgood]⟩
        simp [hrows, linesFor, hgood, hfile]
      | some f' =>
        refine ⟨fun f => ?_, by simp [Output.write, hended, hgood]⟩
        by_cases hf : f = f'
        · subst hf
          simp [Output.write, hrows, linesFor, hgood, hfile]
        · simp [Output.write, hrows, linesFor, hgood, hfile, hf, Ne.symm hf]
    · obtain ⟨e, he⟩ := lineRow_bad hgood
      rw [loop, he]
      exact ⟨fun f => by simp [linesFor, hgood], by simp [hgood]⟩

/-- A column is a text of the script or the value of a key. -/
lemma forall_columns {result : Tbl Str} {P : Str → Prop}
    (htext : ∀ s ∈ [version, blank, lit "2"], P s) (hvalue : ∀ key, P (combine result key)) :
    ∀ s ∈ columns result, P s := by
  simp only [List.forall_mem_cons] at htext
  obtain ⟨hversion, hblank, htwo, -⟩ := htext
  have hidea : P (if combine result (lit "be") = [] then combine result (lit "ci")
      else combine result (lit "be")) := by
    split <;> exact hvalue _
  simp only [columns, List.forall_mem_append, List.forall_mem_cons, List.mem_replicate, and_imp,
    forall_eq_apply_imp_iff, hversion, hblank, htwo, hvalue, hidea, true_and]
  simp

/-- A row has no end of a line in it. -/
lemma newline_notMem_rowOf (hline : newline ∉ line.dropLast) : ∀ s ∈ rowOf line, newline ∉ s := by
  refine forall_columns (by decide +kernel) fun key => ?_
  unfold combine
  cases hget : (valuesOf line).get key with
  | none => exact List.not_mem_nil
  | some value => exact ExpressLog.newline_notMem_value hline (Tbl.mem_of_get_putAll hget)

lemma mem_of_linesFor {f : File} (h : line ∈ linesFor int l f) : line ∈ l :=
  (List.takeWhile_sublist _).subset (List.mem_filter.mp h).1

/-- **What the script writes.** The rows of the two files are those of the lines before the first
bad one, by the parity of their `slog` and in the order of the log. The script comes to its end
when no line is bad. A file is read back as its rows of 38 columns exactly when no value in it has
a tab. -/
theorem script_written (int : Str → Option ℤ) (rfile : Str) (f : File) :
    (script int rfile).rows f = (linesFor int (lines newline rfile) f).map rowOf ∧
    ((script int rfile).ended = .ok () ↔ ∀ line ∈ lines newline rfile, good int line = true) ∧
    (∀ row ∈ (script int rfile).rows f, row.length = 38) ∧
    (read tab newline (text tab newline ((script int rfile).rows f)) = (script int rfile).rows f ↔
      ∀ line ∈ linesFor int (lines newline rfile) f, ∀ s ∈ rowOf line, tab ∉ s) := by
  obtain ⟨hrows, hended⟩ := loop_rows int (lines newline rfile)
  have hscript : (script int rfile).rows f = (linesFor int (lines newline rfile) f).map rowOf :=
    hrows f
  have hlength : ∀ row ∈ (script int rfile).rows f, row.length = 38 := by
    intro row hrow
    rw [hscript] at hrow
    obtain ⟨line, -, rfl⟩ := List.mem_map.mp hrow
    rfl
  refine ⟨hscript, hended, hlength, ?_⟩
  have hne : ∀ row ∈ (script int rfile).rows f, row ≠ [] := by
    rintro row hrow rfl
    exact absurd (hlength [] hrow) (by decide)
  rw [TabText.read_text_iff (by decide) hne, hscript, List.forall_mem_map]
  refine forall₂_congr fun line hline => forall₂_congr fun s hs => and_iff_left ?_
  exact newline_notMem_rowOf ((Lines.of_lines newline rfile).notMem (mem_of_linesFor hline)) s hs

end Sax.SspLog
