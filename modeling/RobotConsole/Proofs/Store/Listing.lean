import RobotConsole.Proofs.Table.Shape
import RobotConsole.Store.File

/-!
The table of a settings file's store.  Each line shows what stands under one known key and depends
on nothing else of the file, and the box is whole as long as the texts that the file gives fit into
it: a text that is too long keeps it from being drawn, and a line feed in a text tears its line.
-/

namespace RobotConsole

section times

/-- The characters of dates and times lie between these; quotes and controls do not. -/
def IsClock (c : Char) : Prop := '+' ≤ c ∧ c ≤ 'Z'

instance (c : Char) : Decidable (IsClock c) := inferInstanceAs (Decidable (_ ∧ _))

theorem IsClock.ne {c d : Char} (hc : IsClock c) (hd : ¬ IsClock d) : c ≠ d := by
  rintro rfl
  exact hd hc

theorem isClock_of_isDigit {c : Char} (h : c.isDigit = true) : IsClock c := by
  rw [Char.isDigit, Bool.and_eq_true, decide_eq_true_eq, decide_eq_true_eq] at h
  exact ⟨Nat.le_trans (by decide) h.1, Nat.le_trans h.2 (by decide)⟩

theorem isClock_of_all {text : String} (h : (text.toList.all fun c => decide (IsClock c)) = true) :
    ∀ c ∈ text.toList, IsClock c := by
  simpa using h

theorem isClock_padded (width n : Nat) : ∀ c ∈ (padded width n).toList, IsClock c := by
  intro c hc
  rw [padded, String.toList_ofList, List.mem_append] at hc
  rcases hc with hzero | hdigit
  · rw [List.eq_of_mem_replicate hzero]
    decide
  · exact isClock_of_isDigit (Nat.isDigit_of_mem_toDigits (by decide) (by decide) hdigit)

theorem CalendarDate.isClock_text (d : CalendarDate) : ∀ c ∈ d.text.toList, IsClock c := by
  simp only [text, String.toList_append, List.forall_mem_append]
  exact ⟨⟨⟨⟨isClock_padded _ _, isClock_of_all rfl⟩, isClock_padded _ _⟩, isClock_of_all rfl⟩, isClock_padded _ _⟩

theorem ClockTime.isClock_fractionText (n : Nat) : ∀ c ∈ (fractionText n).toList, IsClock c := by
  rw [fractionText]
  split
  · exact List.forall_mem_nil _
  · rw [String.toList_append, List.forall_mem_append]
    refine ⟨isClock_of_all rfl, fun c hc => isClock_padded 9 n c ?_⟩
    generalize (padded 9 n).toList = ds at hc ⊢
    rw [String.toList_ofList, List.mem_reverse] at hc
    exact List.mem_reverse.1 ((List.dropWhile_sublist _).subset hc)

theorem ClockTime.isClock_text (t : ClockTime) : ∀ c ∈ t.text.toList, IsClock c := by
  simp only [text, String.toList_append, List.forall_mem_append]
  exact ⟨⟨⟨⟨⟨isClock_padded _ _, isClock_of_all rfl⟩, isClock_padded _ _⟩, isClock_of_all rfl⟩, isClock_padded _ _⟩,
    isClock_fractionText _⟩

theorem ZoneOffset.isClock_text (o : ZoneOffset) : ∀ c ∈ o.text.toList, IsClock c := by
  cases o with
  | universal => exact isClock_of_all rfl
  | minutes ahead =>
    simp only [text, String.toList_append, List.forall_mem_append]
    refine ⟨⟨⟨?_, isClock_padded _ _⟩, isClock_of_all rfl⟩, isClock_padded _ _⟩
    split <;> exact isClock_of_all rfl

theorem CalendarTime.isClock_text (t : CalendarTime) : ∀ c ∈ t.text.toList, IsClock c := by
  cases t with
  | date d => exact d.isClock_text
  | time t => exact t.isClock_text
  | both d t offset =>
    simp only [text, String.toList_append, List.forall_mem_append]
    refine ⟨⟨⟨d.isClock_text, isClock_of_all rfl⟩, t.isClock_text⟩, ?_⟩
    cases offset with
    | none => exact List.forall_mem_nil _
    | some o => exact o.isClock_text

namespace Toml

theorem isVisible_of_isClock {c : Char} (h : IsClock c) : isVisible c = true := by
  have hblank : ' ' ≤ c := Char.le_trans (by decide) h.1
  simp [isVisible, hblank, h.ne (show ¬ IsClock '\x7f' by decide)]

theorem find?_escapes {c : Char} (h : IsClock c) : escapes.find? (fun (_, x) => x = c) = none := by
  rw [List.find?_eq_none]
  intro e he hmeant
  have hnot : ∀ e ∈ escapes, ¬ IsClock e.2 := by decide
  exact h.ne (hnot e he) (of_decide_eq_true hmeant).symm

theorem escaped_of_isClock {cs : List Char} (h : ∀ c ∈ cs, IsClock c) (quotes : Nat) :
    escaped false quotes cs = cs := by
  induction cs generalizing quotes with
  | nil => rfl
  | cons c cs ih =>
    obtain ⟨hc, hcs⟩ := List.forall_mem_cons.1 h
    simp [escaped, hc.ne (show ¬ IsClock '"' by decide), find?_escapes hc, isVisible_of_isClock hc,
      ih hcs]

theorem quoted_of_isClock {cs : List Char} (h : ∀ c ∈ cs, IsClock c) :
    quoted cs = '"' :: cs ++ ['"'] := by
  have hnot : ∀ d, ¬ IsClock d → d ∉ cs := fun d hd hmem => hd (h d hmem)
  have hvisible : (cs.all fun c => isVisible c || c = '\n') = true := by
    simpa using fun c hc => Or.inl (isVisible_of_isClock (h c hc))
  rw [quoted, if_pos ⟨hvisible, hnot _ (by decide), hnot _ (by decide), hnot _ (by decide)⟩, basic,
    escaped_of_isClock h]

/-- What a value is shown as: a text is shown as it is, a date or time as a table of its text, and a
list or a table as nothing. -/
def shownText? : Toml → Option String
  | .text s => some s
  | .integer n => some (toString n)
  | .float x => some (floatText x)
  | .boolean b => some (toString b)
  | .time t => some ("\x7b \"" ++ timeKey ++ "\" = \"" ++ t.text ++ "\" \x7d")
  | .list _ => none
  | .table _ => none

theorem display_time (t : CalendarTime) :
    (time t).display = "\x7b \"" ++ timeKey ++ "\" = \"" ++ t.text ++ "\" \x7d" := by
  have hkey : keyChars timeKey.toList = '"' :: timeKey.toList ++ ['"'] := by decide
  rw [← String.toList_inj, display, String.toList_ofList]
  simp [chars, entryChars, commaSeparated, hkey, quoted_of_isClock t.isClock_text]

end Toml

end times

namespace Store

open BoxTable

/-- What a table shows for a key of the store: the text of its entry, or a dash where there is no
entry or only a list or a table. -/
def textAt (entries : List (String × Toml)) (key : StoreKey) : String :=
  ((entries.lookup (plainKey key.key)).bind Toml.shownText?).getD "-"

theorem shown_ofEntries (entries : List (String × Toml)) (key : StoreKey) :
    (ofEntries entries).shown key = textAt entries key := by
  rw [shown, ofEntries, textAt]
  cases entries.lookup (plainKey key.key) with
  | none => rfl
  | some v =>
    cases v with
    | time t => exact Toml.display_time t
    | text _ | list _ | table _ => rfl
    | integer _ | float _ | boolean _ =>
      simp [Toml.display, Toml.chars, Toml.shownText?]

theorem table_eq (s : Store) :
    s.table = ⟨["Name", "Key", "Value"],
      StoreKey.all.map fun key => [key.label, key.key, s.shown key]⟩ := by
  have hrows := ofRows_eq ["Name", "Key", "Value"]
    (StoreKey.all.map fun key => [key.label, key.key, s.shown key])
  rw [ofRows, List.foldl_map, List.map_map] at hrows
  exact hrows

theorem rectangular_table (s : Store) : Rectangular s.table := by
  rw [table_eq]
  refine ⟨List.cons_ne_nil _ _, fun row hrow => ?_⟩
  obtain ⟨key, -, rfl⟩ := List.mem_map.1 hrow
  rfl

/-- The names are short and have no line feeds, so it depends on the values alone how a table is
drawn. -/
theorem isDrawable_table_iff (s : Store) :
    s.table.isDrawable = true ↔ ∀ key ∈ StoreKey.all, (s.shown key).length ≤ widthLimit := by
  have hnames : ∀ key : StoreKey,
      key.label.length ≤ widthLimit ∧ key.key.length ≤ widthLimit := by
    intro key
    cases key <;> decide
  have hheaders : ∀ text ∈ ["Name", "Key", "Value"], text.length ≤ widthLimit := by decide
  rw [s.rectangular_table.isDrawable_iff_forall_length, table_eq, List.forall_mem_cons,
    List.forall_mem_map]
  simp [hheaders, hnames]

theorem feedsIn_table (s : Store) :
    s.table.feedsIn = (StoreKey.all.map fun key => feeds (s.shown key)).sum := by
  have hnames : ∀ key : StoreKey, feeds key.label = 0 ∧ feeds key.key = 0 := by
    intro key
    cases key <;> decide
  have hheaders : (["Name", "Key", "Value"].map feeds).sum = 0 := by decide
  rw [feedsIn, table_eq, List.map_cons, List.sum_cons, hheaders, Nat.zero_add, List.map_map]
  congr 1
  exact List.map_congr_left fun key _ => by simp [hnames]

def boxLines (ws : List Nat) (value : StoreKey → String) : List (List Char) :=
  [border ws '┌' '┬' '┐', line ws ["Name", "Key", "Value"], border ws '├' '┼' '┤'] ++
    StoreKey.all.map (fun key => line ws [key.label, key.key, value key]) ++
    [border ws '└' '┴' '┘']

theorem lines_table (s : Store) : s.table.lines = boxLines s.table.widths s.shown := by
  simp [lines, boxLines, table_eq]

theorem max?_labels :
    (("Name" :: StoreKey.all.map StoreKey.label).map String.length).max? = some 17 := by decide

theorem max?_keys :
    (("Key" :: StoreKey.all.map StoreKey.key).map String.length).max? = some 18 := by decide

theorem widths_table (s : Store) : s.table.widths = [17, 18, s.table.columnWidth 2] := by
  have hlabels : s.table.textsAt 0 = "Name" :: StoreKey.all.map StoreKey.label := by
    simp [table_eq, textsAt]
  have hkeys : s.table.textsAt 1 = "Key" :: StoreKey.all.map StoreKey.key := by
    simp [table_eq, textsAt]
  have hlabelWidth := s.table.max?_textsAt 0
  have hkeyWidth := s.table.max?_textsAt 1
  rw [hlabels, max?_labels, Option.some.injEq] at hlabelWidth
  rw [hkeys, max?_keys, Option.some.injEq] at hkeyWidth
  have hcolumns : s.table.headers.length = 3 := by
    rw [table_eq]
    rfl
  rw [widths, hcolumns, hlabelWidth, hkeyWidth]
  rfl

theorem isBox_table (s : Store) (h : s.table.feedsIn = 0) :
    ∃ w, IsBox s.table.text (lineLength [17, 18, w]) (boxLines [17, 18, w] s.shown) := by
  have hbox := s.rectangular_table.isBox_text h
  rw [lines_table, widths_table] at hbox
  exact ⟨_, hbox⟩

/-- The box of the store of a settings file: a line for each known key, drawn unless a value is too
long, and whole unless a value has a line feed.  Only the entries of the known keys count. -/
theorem table_ofEntries (entries : List (String × Toml)) :
    (StoreKey.all.Nodup ∧ ∀ key, key ∈ StoreKey.all) ∧
    (ofEntries entries).table =
      ⟨["Name", "Key", "Value"],
        StoreKey.all.map fun key => [key.label, key.key, textAt entries key]⟩ ∧
    ((ofEntries entries).table.text? = none ↔
      ∃ key, widthLimit < (textAt entries key).length) ∧
    (∀ text, (ofEntries entries).table.text? = some text →
      feeds text = 13 + (StoreKey.all.map fun key => feeds (textAt entries key)).sum ∧
      ((∀ key, '\n' ∉ (textAt entries key).toList) →
        ∃ w, (boxLines [17, 18, w] (textAt entries)).length = 13 ∧
          IsBox text (lineLength [17, 18, w]) (boxLines [17, 18, w] (textAt entries)))) ∧
    ∀ others : List (String × Toml),
      (∀ key : StoreKey, others.lookup (plainKey key.key) = entries.lookup (plainKey key.key)) →
        (ofEntries others).table = (ofEntries entries).table := by
  have hall : ∀ key, key ∈ StoreKey.all := by
    intro key
    cases key <;> decide
  have hshown : ∀ entries, (ofEntries entries).shown = textAt entries := fun entries =>
    funext (shown_ofEntries entries)
  have hfeeds := (ofEntries entries).feedsIn_table
  refine ⟨⟨by decide, hall⟩, ?_, ?_, fun text htext => ⟨?_, fun hunbroken => ?_⟩,
    fun others hothers => ?_⟩
  · rw [table_eq, hshown]
  · rw [text?_eq_none_iff, isDrawable_table_iff, hshown]
    simp [hall]
  · obtain ⟨-, rfl⟩ := text?_eq_some_iff.1 htext
    rw [(rectangular_table _).feeds_text, hfeeds, hshown, table_eq, List.length_map]
    rfl
  · obtain ⟨-, rfl⟩ := text?_eq_some_iff.1 htext
    have hnone : (ofEntries entries).table.feedsIn = 0 := by
      rw [hfeeds, hshown, List.sum_eq_zero_iff_forall_eq_nat, List.forall_mem_map]
      exact fun key _ => feeds_eq_zero_iff.2 (hunbroken key)
    obtain ⟨w, hbox⟩ := isBox_table _ hnone
    exact ⟨w, rfl, hshown entries ▸ hbox⟩
  · have hsame : textAt others = textAt entries := by
      funext key
      rw [textAt, textAt, hothers key]
    rw [table_eq, table_eq, hshown, hshown, hsame]

/-- A store whose one text has a line feed. -/
def torn : List (String × Toml) := [("network_interface", .text "a\nb")]

theorem torn_not_box :
    ∃ text, (ofEntries torn).table.text? = some text ∧
      ¬ ∃ width ls, ls.length = 13 ∧ IsBox text width ls := by
  have hshown : (ofEntries torn).shown = textAt torn := funext (shown_ofEntries torn)
  have hdrawable : (ofEntries torn).table.isDrawable = true := by
    rw [isDrawable_table_iff, hshown]
    decide
  have hfeeds : (ofEntries torn).table.feedsIn = 1 := by
    rw [feedsIn_table, hshown]
    decide
  refine ⟨_, text?_eq_some_iff.2 ⟨hdrawable, rfl⟩, ?_⟩
  rintro ⟨width, ls, hlines, hbox⟩
  have hcount := hbox.feeds_eq
  rw [(rectangular_table _).feeds_text, hfeeds, table_eq, List.length_map, hlines] at hcount
  exact absurd hcount (by decide)

end Store
end RobotConsole
