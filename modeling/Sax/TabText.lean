import Sax.Runtime
import Sax.TextLines

/-!
Rows of fields as text: the fields of a row stand between separators, and an end follows each row.
What is written is read back as the same rows exactly when no field has a separator or an end.
-/

namespace Sax.TabText

open Sax.LuaVal Sax.Runtime Sax.TextLines

/-- A row with its end. -/
def rowText (sep nl : UInt8) (row : List Str) : Str := concat sep row ++ [nl]

def text (sep nl : UInt8) (rows : List (List Str)) : Str := rows.flatMap (rowText sep nl)

/-- The rows of a text: its lines without their last characters, split at the separators. -/
def read (sep nl : UInt8) (s : Str) : List (List Str) :=
  (lines nl s).map fun line => split sep line.dropLast

/-- No field has a separator or an end in it. -/
def Plain (sep nl : UInt8) (row : List Str) : Prop := ∀ s ∈ row, sep ∉ s ∧ nl ∉ s

variable {sep nl : UInt8} {row : List Str} {rows : List (List Str)}

lemma read_text (hne : sep ≠ nl) (hrows : ∀ row ∈ rows, row ≠ [])
    (h : ∀ row ∈ rows, Plain sep nl row) : read sep nl (text sep nl rows) = rows := by
  have hend : ∀ row ∈ rows, nl ∉ concat sep row := by
    intro row hrow hmem
    rcases mem_concat hmem with heq | ⟨s, hs, hmem⟩
    · exact hne heq.symm
    · exact (h row hrow s hs).2 hmem
  have hlines : lines nl (text sep nl rows) = rows.map (rowText sep nl) := lines_flatMap hend
  rw [read, hlines, List.map_map]
  refine (List.map_congr_left fun row hrow => ?_).trans (List.map_id rows)
  have hsplit : split sep (concat sep row) = row :=
    split_concat (fun s hs => (h row hrow s hs).1) (hrows row hrow)
  simpa [rowText] using hsplit

/-- What is read is plain, whatever the text. -/
lemma plain_of_read {s : Str} (h : row ∈ read sep nl s) : Plain sep nl row := by
  obtain ⟨line, hline, rfl⟩ := List.mem_map.mp h
  intro field hfield
  refine ⟨notMem_of_mem_split hfield, fun hmem => ?_⟩
  exact (Lines.of_lines nl s).notMem hline (mem_of_mem_split hfield hmem)

/-- **Rows are read back exactly when all their fields are plain.** -/
theorem read_text_iff (hne : sep ≠ nl) (hrows : ∀ row ∈ rows, row ≠ []) :
    read sep nl (text sep nl rows) = rows ↔ ∀ row ∈ rows, Plain sep nl row := by
  constructor
  · intro h row hrow
    rw [← h] at hrow
    exact plain_of_read hrow
  · exact read_text hne hrows

end Sax.TabText
