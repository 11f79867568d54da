import Mathlib.Algebra.Ring.Nat
import Mathlib.Data.List.Forall2
import Mathlib.Data.List.GetD
import Mathlib.Data.List.Induction
import RobotConsole.Table.Box

/-!
The shape of a box.  Each row has one cell for each header, however many cells it was made from, and
no cell is wider than its column.  So the four kinds of lines, the three borders and the lines of
cells, all come out equally long, and there is one line for each row besides the four of the frame.
-/

namespace RobotConsole.BoxTable

def filled (columns : Nat) (cells : List String) : List String :=
  (List.range columns).map fun i => cells.getD i ""

/-- The table with these headers after rows were added one by one. -/
def ofRows (headers : List String) (added : List (List String)) : BoxTable :=
  added.foldl addRow (new headers)

/-- The texts of a column, from its header down. -/
def textsAt (t : BoxTable) (column : Nat) : List String :=
  (t.headers :: t.rows).map fun row => row.getD column ""

/-- Texts and the columns that are wide enough for them. -/
def Fits : List Nat → List String → Prop := List.Forall₂ fun w text => text.length ≤ w

def lineLength (widths : List Nat) : Nat := 1 + (widths.map (· + 3)).sum

/-- There are columns, and each row has a cell for each of them. -/
structure Rectangular (t : BoxTable) : Prop where
  headed : t.headers ≠ []
  full : ∀ row ∈ t.rows, row.length = t.headers.length

section rows

theorem length_filled (columns : Nat) (cells : List String) :
    (filled columns cells).length = columns := by
  rw [filled, List.length_map, List.length_range]

theorem mem_or_eq_of_mem_filled {columns : Nat} {cells : List String} {text : String}
    (h : text ∈ filled columns cells) : text ∈ cells ∨ text = "" := by
  obtain ⟨i, -, rfl⟩ := List.mem_map.1 h
  by_cases hi : i < cells.length
  · exact .inl (by simp [hi])
  · exact .inr (List.getD_eq_default _ _ (Nat.le_of_not_lt hi))

theorem addRow_eq (t : BoxTable) (cells : List String) :
    t.addRow cells = { t with rows := t.rows ++ [filled t.headers.length cells] } := by
  have hrow : cells.take t.headers.length ++
      List.replicate (t.headers.length - (cells.take t.headers.length).length) "" =
        filled t.headers.length cells := by
    refine List.ext_getElem ?_ fun i _ hi => ?_
    · rw [List.length_append, List.length_take, List.length_replicate, length_filled]
      omega
    rw [length_filled] at hi
    by_cases hcells : i < cells.length
    · rw [List.getElem_append_left (by rw [List.length_take]; omega)]
      simp [filled, hcells]
    · rw [List.getElem_append_right (by rw [List.length_take]; omega)]
      simp [filled, hcells]
  rw [addRow, hrow]

theorem ofRows_eq (headers : List String) (added : List (List String)) :
    ofRows headers added = ⟨headers, added.map (filled headers.length)⟩ := by
  induction added using List.reverseRecOn with
  | nil => rfl
  | append_singleton added cells ih =>
    rw [ofRows, List.foldl_append, ← ofRows, ih, List.foldl_cons, List.foldl_nil, addRow_eq,
      List.map_append, List.map_singleton]

theorem rectangular_ofRows {headers : List String} (hne : headers ≠ [])
    (added : List (List String)) : Rectangular (ofRows headers added) := by
  rw [ofRows_eq]
  refine ⟨hne, fun row hrow => ?_⟩
  obtain ⟨cells, -, rfl⟩ := List.mem_map.1 hrow
  exact length_filled _ _

end rows

section widths

variable (t : BoxTable)

/-- A column is as wide as the longest of its texts. -/
theorem max?_textsAt (column : Nat) :
    ((t.textsAt column).map String.length).max? = some (t.columnWidth column) := by
  rw [textsAt, List.map_map, List.map_cons, List.max?_cons', List.foldl_map, columnWidth,
    List.foldl_cons, Nat.zero_max]
  rfl

theorem columnWidth_le_iff {column n : Nat} :
    t.columnWidth column ≤ n ↔ ∀ row ∈ t.headers :: t.rows, (row.getD column "").length ≤ n := by
  rw [List.max?_le_iff (t.max?_textsAt column), textsAt, List.map_map, List.forall_mem_map]
  rfl

theorem length_widths : t.widths.length = t.headers.length := by
  rw [widths, List.length_map, List.length_range]

theorem Rectangular.length_of_mem {t : BoxTable} (h : Rectangular t) {row : List String}
    (hrow : row ∈ t.headers :: t.rows) : row.length = t.headers.length := by
  rcases List.mem_cons.1 hrow with rfl | hmem
  · rfl
  · exact h.full row hmem

theorem Rectangular.fits {t : BoxTable} (h : Rectangular t) {row : List String}
    (hrow : row ∈ t.headers :: t.rows) : Fits t.widths row := by
  refine List.forall₂_iff_get.2 ⟨by rw [length_widths, h.length_of_mem hrow], fun i _ hi => ?_⟩
  have hwidth := (columnWidth_le_iff t).1 (Nat.le_refl (t.columnWidth i)) row hrow
  rw [List.getD_eq_getElem _ _ hi] at hwidth
  simpa [widths] using hwidth

theorem Rectangular.widths_ne_nil {t : BoxTable} (h : Rectangular t) : t.widths ≠ [] := by
  rw [← List.length_pos_iff, length_widths, List.length_pos_iff]
  exact h.headed

theorem isDrawable_iff :
    t.isDrawable = true ↔ ∀ i < t.headers.length, t.columnWidth i ≤ widthLimit := by
  simp [isDrawable, widths]

theorem Rectangular.isDrawable_iff_forall_length {t : BoxTable} (h : Rectangular t) :
    t.isDrawable = true ↔ ∀ row ∈ t.headers :: t.rows, ∀ text ∈ row, text.length ≤ widthLimit := by
  rw [isDrawable_iff]
  simp only [columnWidth_le_iff]
  constructor
  · intro hcolumns row hrow text htext
    obtain ⟨i, hi, rfl⟩ := List.getElem_of_mem htext
    have hlength := hcolumns i (h.length_of_mem hrow ▸ hi) row hrow
    rwa [List.getD_eq_getElem _ _ hi] at hlength
  · intro htexts i hi row hrow
    have hrow' : i < row.length := h.length_of_mem hrow ▸ hi
    rw [List.getD_eq_getElem _ _ hrow']
    exact htexts row hrow _ (List.getElem_mem hrow')

end widths

section lines

variable {left middle right : Char}

theorem length_cell {w : Nat} {text : String} (h : text.length ≤ w) :
    (cell w text).length = w + 3 := by
  simp only [cell, List.length_append, List.length_cons, List.length_replicate, List.length_nil,
    String.length_toList]
  omega

theorem length_line {ws : List Nat} {cells : List String} (h : Fits ws cells) :
    (line ws cells).length = lineLength ws := by
  rw [line, List.length_cons, lineLength, Nat.add_comm]
  congr 1
  induction h with
  | nil => rfl
  | cons hcell _ ih => simp [length_cell hcell, ih]

theorem length_border {ws : List Nat} (h : ws ≠ []) :
    (border ws left middle right).length = lineLength ws := by
  suffices hinner : ([middle].intercalate (ws.map fun w => List.replicate (w + 2) '─')).length + 1 =
      (ws.map (· + 3)).sum by
    simp only [border, List.cons_append, List.length_cons, List.length_append, List.length_nil,
      lineLength]
    omega
  induction ws with
  | nil => exact absurd rfl h
  | cons w ws ih =>
    cases ws with
    | nil => simp
    | cons w' ws =>
      have hrest := ih (List.cons_ne_nil _ _)
      simp only [List.map_cons, List.intercalate_cons_cons, List.length_append,
        List.length_replicate, List.length_singleton, List.sum_cons] at hrest ⊢
      omega

theorem Rectangular.length_of_mem_lines {t : BoxTable} (h : Rectangular t) {l : List Char}
    (hl : l ∈ t.lines) : l.length = lineLength t.widths := by
  simp only [lines, List.mem_append, List.mem_cons, List.mem_map, List.not_mem_nil, or_false] at hl
  rcases hl with ((rfl | rfl | rfl) | ⟨row, hrow, rfl⟩) | rfl
  · exact length_border h.widths_ne_nil
  · exact length_line (h.fits (List.mem_cons_self ..))
  · exact length_border h.widths_ne_nil
  · exact length_line (h.fits (List.mem_cons_of_mem _ hrow))
  · exact length_border h.widths_ne_nil

theorem length_lines (t : BoxTable) : t.lines.length = t.rows.length + 4 := by
  simp [lines]

end lines

section feeds

variable {left middle right : Char}

def feeds (text : String) : Nat := text.toList.count '\n'

def feedsIn (t : BoxTable) : Nat := ((t.headers :: t.rows).map fun row => (row.map feeds).sum).sum

theorem feeds_eq_zero_iff {text : String} : feeds text = 0 ↔ '\n' ∉ text.toList :=
  List.count_eq_zero

theorem feedsIn_eq_zero_iff {t : BoxTable} :
    t.feedsIn = 0 ↔ ∀ row ∈ t.headers :: t.rows, ∀ text ∈ row, feeds text = 0 := by
  simp [feedsIn, List.sum_eq_zero_iff_forall_eq_nat]

theorem count_cell (w : Nat) (text : String) : (cell w text).count '\n' = feeds text := by
  simp [cell, feeds, List.count_replicate]

theorem count_line {ws : List Nat} {cells : List String} (h : Fits ws cells) :
    (line ws cells).count '\n' = (cells.map feeds).sum := by
  rw [line, List.count_cons_of_ne (by decide)]
  induction h with
  | nil => rfl
  | cons _ _ ih => simp [count_cell, ih]

theorem mem_rules {ws : List Nat} {c : Char}
    (h : c ∈ [middle].intercalate (ws.map fun w => List.replicate (w + 2) '─')) :
    c = middle ∨ c = '─' := by
  induction ws with
  | nil => cases h
  | cons w ws ih =>
    cases ws with
    | nil => exact .inr (by simpa using h)
    | cons w' ws =>
      simp only [List.map_cons, List.intercalate_cons_cons, List.mem_append, List.mem_replicate,
        List.mem_singleton] at h
      rcases h with (⟨-, rfl⟩ | rfl) | hrest
      · exact .inr rfl
      · exact .inl rfl
      · exact ih hrest

theorem count_border {c : Char} (hc : c ∉ [left, middle, right, '─']) (ws : List Nat) :
    (border ws left middle right).count c = 0 := by
  simp only [List.mem_cons, List.not_mem_nil, or_false, not_or] at hc
  obtain ⟨hleft, hmiddle, hright, hrule⟩ := hc
  have hrules : c ∉ [middle].intercalate (ws.map fun w => List.replicate (w + 2) '─') := fun h =>
    (mem_rules h).elim hmiddle hrule
  simp [border, List.count_eq_zero, hleft, hright, hrules]

theorem Rectangular.sum_count_lines {t : BoxTable} (h : Rectangular t) :
    (t.lines.map (List.count '\n')).sum = t.feedsIn := by
  have hrows : t.rows.map (List.count '\n' ∘ line t.widths) =
      t.rows.map fun row => (row.map feeds).sum :=
    List.map_congr_left fun row hrow => count_line (h.fits (List.mem_cons_of_mem _ hrow))
  simp [lines, feedsIn, count_border, count_line (h.fits (List.mem_cons_self ..)), hrows]

theorem count_ended (ls : List (List Char)) :
    (ls.flatMap (· ++ ['\n'])).count '\n' = ls.length + (ls.map (List.count '\n')).sum := by
  induction ls with
  | nil => rfl
  | cons l ls ih =>
    simp only [List.flatMap_cons, List.count_append, List.count_singleton_self, ih, List.map_cons,
      List.sum_cons, List.length_cons]
    omega

/-- A box has a line feed for each of its lines and those of its texts. -/
theorem Rectangular.feeds_text {t : BoxTable} (h : Rectangular t) :
    feeds t.text = t.rows.length + 4 + t.feedsIn := by
  rw [← h.sum_count_lines, ← length_lines, feeds, text, String.toList_ofList, count_ended]

/-- A text of lines, all equally long, each ended by a line feed and without another one. -/
structure IsBox (text : String) (width : Nat) (lines : List (List Char)) : Prop where
  ended : text.toList = lines.flatMap (· ++ ['\n'])
  unbroken : ∀ l ∈ lines, '\n' ∉ l
  aligned : ∀ l ∈ lines, l.length = width

theorem IsBox.feeds_eq {text : String} {width : Nat} {ls : List (List Char)}
    (h : IsBox text width ls) : feeds text = ls.length := by
  have hnone : (ls.map (List.count '\n')).sum = 0 := by
    rw [List.sum_eq_zero_iff_forall_eq_nat, List.forall_mem_map]
    exact fun l hl => List.count_eq_zero.2 (h.unbroken l hl)
  rw [feeds, h.ended, count_ended, hnone, Nat.add_zero]

theorem Rectangular.isBox_text {t : BoxTable} (h : Rectangular t) (hfeeds : t.feedsIn = 0) :
    IsBox t.text (lineLength t.widths) t.lines where
  ended := String.toList_ofList
  unbroken l hl := by
    rw [← h.sum_count_lines, List.sum_eq_zero_iff_forall_eq_nat] at hfeeds
    exact List.count_eq_zero.1 (hfeeds _ (List.mem_map_of_mem hl))
  aligned _ := h.length_of_mem_lines

theorem text?_eq_none_iff {t : BoxTable} : t.text? = none ↔ ¬ t.isDrawable = true := by
  simp [text?]

theorem text?_eq_some_iff {t : BoxTable} {text : String} :
    t.text? = some text ↔ t.isDrawable = true ∧ t.text = text := by
  rw [text?, Option.ite_none_right_eq_some, Option.some.injEq]

end feeds

end RobotConsole.BoxTable
