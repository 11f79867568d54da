import Mathlib.Data.List.DropRight
import RobotConsole.Proofs.Table.Shape

/-!
Reading a box back.  A text in a cell may hold the very characters that the box is drawn with, so
no line of cells tells where its cells end.  The upper border does: between its corners there is
nothing but rules and crossings, which give the widths of the columns, and a line is cut at these.
What is lost are the spaces at the end of a text, which look like those that fill up the column.
-/

namespace RobotConsole.BoxTable

def stripped (text : String) : List Char := text.toList.rdropWhile (· = ' ')

/-- The widths of the columns below an upper border. -/
def columnsOf (border : List Char) : List Nat :=
  (border.tail.dropLast.splitOn '┬').map fun rules => rules.length - 2

/-- The cells of a line, of which the line before the first has been taken off. -/
def cellsOf : List Nat → List Char → List (List Char)
  | [], _ => []
  | w :: ws, cs => ((cs.drop 1).take w).rdropWhile (· = ' ') :: cellsOf ws (cs.drop (w + 3))

/-- The cells of a box, row by row from the headers.  After the rows there are the lower border and
what follows the last line feed, which is nothing. -/
def readBack (text : String) : List (List (List Char)) :=
  match text.toList.splitOn '\n' with
  | top :: headers :: _ :: rest =>
    (headers :: rest.take (rest.length - 2)).map fun l => cellsOf (columnsOf top) l.tail
  | _ => []

section cells

theorem rdropWhile_append_replicate (cs : List Char) (n : Nat) :
    (cs ++ List.replicate n ' ').rdropWhile (· = ' ') = cs.rdropWhile (· = ' ') := by
  induction n with
  | zero => rw [List.replicate_zero, List.append_nil]
  | succ n ih =>
    rw [List.replicate_succ', ← List.append_assoc, List.rdropWhile_concat_pos _ _ _ (by simp), ih]

theorem take_cell {w : Nat} {text : String} (h : text.length ≤ w) (rest : List Char) :
    ((cell w text ++ rest).drop 1).take w =
      text.toList ++ List.replicate (w - text.length) ' ' := by
  have hlength : (text.toList ++ List.replicate (w - text.length) ' ').length = w := by
    rw [List.length_append, List.length_replicate, String.length_toList]
    omega
  simp only [cell, List.cons_append, List.append_assoc, List.drop_succ_cons, List.drop_zero]
  rw [← List.append_assoc, List.take_append_of_le_length hlength.ge,
    List.take_of_length_le hlength.le]

theorem drop_cell {w : Nat} {text : String} (h : text.length ≤ w) (rest : List Char) :
    (cell w text ++ rest).drop (w + 3) = rest := by
  rw [← length_cell h, List.drop_left]

theorem cellsOf_line {ws : List Nat} {cells : List String} (h : Fits ws cells) :
    cellsOf ws (line ws cells).tail = cells.map stripped := by
  rw [line, List.tail_cons]
  induction h with
  | nil => rfl
  | cons hcell _ ih =>
    rw [List.zipWith_cons_cons, List.flatten_cons, cellsOf, take_cell hcell, drop_cell hcell, ih,
      rdropWhile_append_replicate, List.map_cons, stripped]

end cells

theorem columnsOf_border {ws : List Nat} (h : ws ≠ []) :
    columnsOf (border ws '┌' '┬' '┐') = ws := by
  have hrules : ∀ rules ∈ ws.map fun w => List.replicate (w + 2) '─', '┬' ∉ rules := by
    intro rules hmem hcrossing
    obtain ⟨w, -, rfl⟩ := List.mem_map.1 hmem
    exact absurd (List.eq_of_mem_replicate hcrossing) (by decide)
  rw [columnsOf, border, List.cons_append, List.tail_cons, List.dropLast_concat,
    List.splitOn_intercalate _ hrules (by simpa using h), List.map_map]
  simp [Function.comp_def]

theorem splitOn_feeds {lines : List (List Char)} (h : ∀ l ∈ lines, '\n' ∉ l) :
    (lines.flatMap (· ++ ['\n'])).splitOn '\n' = lines ++ [[]] := by
  induction lines with
  | nil => rfl
  | cons l ls ih =>
    obtain ⟨hl, hls⟩ := List.forall_mem_cons.1 h
    rw [List.flatMap_cons, List.append_assoc, List.singleton_append,
      List.splitOn_append_cons_self_of_not_mem hl, ih hls, List.cons_append]

/-- What was put into a box is read from it, up to the spaces at the end of each text. -/
theorem Rectangular.readBack_text {t : BoxTable} (h : Rectangular t) (hfeeds : t.feedsIn = 0) :
    readBack t.text = (t.headers :: t.rows).map fun row => row.map stripped := by
  have hbox := h.isBox_text hfeeds
  have hrows : (t.rows.map (line t.widths)).map (fun l => cellsOf t.widths l.tail) =
      t.rows.map fun row => row.map stripped := by
    rw [List.map_map]
    exact List.map_congr_left fun row hrow => cellsOf_line (h.fits (List.mem_cons_of_mem _ hrow))
  rw [readBack, hbox.ended, splitOn_feeds hbox.unbroken]
  simp [lines, columnsOf_border h.widths_ne_nil, cellsOf_line (h.fits (List.mem_cons_self ..)),
    hrows]

example : readBack (ofRows ["│"] [["a "]]).text = [[['│']], [['a']]] := by decide +kernel

/-- What a table is made of: at least one header, rows of any number of cells, added one by one, and
no line feed in any text. -/
structure Sheet where
  headers : List String
  added : List (List String)
  headed : headers ≠ []
  unbroken : ∀ text ∈ headers ++ added.flatten, '\n' ∉ text.toList

namespace Sheet

def table (s : Sheet) : BoxTable := ofRows s.headers s.added

theorem rectangular (s : Sheet) : Rectangular s.table := rectangular_ofRows s.headed s.added

theorem headers_table (s : Sheet) : s.table.headers = s.headers := by rw [table, ofRows_eq]

theorem rows_table (s : Sheet) : s.table.rows = s.added.map (filled s.headers.length) := by
  rw [table, ofRows_eq]

theorem feedsIn_table (s : Sheet) : s.table.feedsIn = 0 := by
  rw [feedsIn_eq_zero_iff, headers_table, rows_table]
  intro row hrow text htext
  rw [feeds_eq_zero_iff]
  rcases List.mem_cons.1 hrow with rfl | hadded
  · exact s.unbroken text (List.mem_append_left _ htext)
  · obtain ⟨cells, hcells, rfl⟩ := List.mem_map.1 hadded
    rcases mem_or_eq_of_mem_filled htext with hgiven | rfl
    · exact s.unbroken text
        (List.mem_append_right _ (List.mem_flatten.2 ⟨cells, hcells, hgiven⟩))
    · exact List.not_mem_nil

theorem readBack_of_drawn {s : Sheet} {text : String} (h : s.table.text? = some text) :
    readBack text = (s.headers :: s.table.rows).map fun row => row.map stripped := by
  obtain ⟨-, rfl⟩ := text?_eq_some_iff.1 h
  rw [s.rectangular.readBack_text s.feedsIn_table, headers_table]

/-- A sheet fills the rows of its table, and the table is drawn unless a column is beyond the limit:
as a box with four lines besides those of the rows, from which the texts can be told apart but for
the spaces at their end. -/
theorem drawn_table (s : Sheet) :
    s.table.headers = s.headers ∧
    s.table.rows = s.added.map (filled s.headers.length) ∧
    (∀ row ∈ s.table.rows, row.length = s.headers.length) ∧
    (∀ i, ((s.table.textsAt i).map String.length).max? = some (s.table.columnWidth i)) ∧
    (s.table.text?.isSome = true ↔
      ∀ i < s.headers.length, s.table.columnWidth i ≤ widthLimit) ∧
    ∀ text, s.table.text? = some text →
      (∃ lines, lines.length = s.added.length + 4 ∧
        IsBox text (1 + ((List.range s.headers.length).map fun i => s.table.columnWidth i + 3).sum)
          lines) ∧
      ∀ s' : Sheet, s'.table.text? = some text →
        s'.headers.map stripped = s.headers.map stripped ∧
        (s'.table.rows.map fun row => row.map stripped) =
          s.table.rows.map fun row => row.map stripped := by
  refine ⟨s.headers_table, s.rows_table, fun row hrow => ?_, s.table.max?_textsAt, ?_,
    fun text htext => ⟨?_, fun s' htext' => ?_⟩⟩
  · rw [s.rectangular.full row hrow, headers_table]
  · rw [text?, ← s.headers_table, ← isDrawable_iff]
    cases s.table.isDrawable <;> simp
  · obtain ⟨-, rfl⟩ := text?_eq_some_iff.1 htext
    have hwidth : 1 + ((List.range s.headers.length).map fun i => s.table.columnWidth i + 3).sum =
        lineLength s.table.widths := by
      rw [lineLength, widths, List.map_map, headers_table]
      rfl
    refine ⟨s.table.lines, ?_, hwidth ▸ s.rectangular.isBox_text s.feedsIn_table⟩
    rw [length_lines, rows_table, List.length_map]
  · exact List.cons.inj ((readBack_of_drawn htext').symm.trans (readBack_of_drawn htext))

/-- A sheet with one header, which is a character too long for its column to be drawn. -/
def tooWide : Sheet where
  headers := [String.ofList (List.replicate (widthLimit + 1) 'a')]
  added := []
  headed := List.cons_ne_nil _ _
  unbroken text htext hfeed := by
    rw [List.flatten_nil, List.append_nil, List.mem_singleton] at htext
    subst htext
    rw [String.toList_ofList] at hfeed
    exact absurd (List.eq_of_mem_replicate hfeed) (by decide)

theorem tooWide_not_drawn : tooWide.table.text? = none := by
  have hwidth : tooWide.table.columnWidth 0 = widthLimit + 1 := by
    simp [tooWide, table, ofRows_eq, columnWidth]
  rw [text?, if_neg]
  rw [isDrawable_iff, headers_table]
  intro h
  have hle := h 0 (List.length_pos_iff.2 tooWide.headed)
  omega

end Sheet

end RobotConsole.BoxTable
