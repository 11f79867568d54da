import RobotConsole.Proofs.CommandLine.Option
import RobotConsole.Proofs.CommandLine.Request
import RobotConsole.Proofs.Text.Words
import RobotConsole.Shell.Command

/-!
The grammar of the shell's lines.  A line without words is empty, and a line is a command exactly
where its words derive that command: its name, then the words of its places or its frame limit in
one of the layouts of a command line, each of which can be read.
-/

namespace RobotConsole.ShellCommand

open CommandLine

/-- The words after a command's name as words in places and words for a frame limit. -/
abbrev Arranged (due : List ValueKind) (ws placed limits : List Word) : Prop :=
  Laid framesOption.name.toList due ws placed limits

def HasNumber (ws : List Word) (x : Single) : Prop :=
  ∃ w, Arranged [.float] ws [w] [] ∧ Binary.ofChars? w = some x

/-- The words hold one number, or none, which then stands for `absent`. -/
def MayHaveNumber (absent : Single) (ws : List Word) (x : Single) : Prop :=
  HasNumber ws x ∨ Arranged [.float] ws [] [] ∧ x = absent

def HasNothing (ws : List Word) : Prop := Arranged [] ws [] []

/-- The words hold at most a frame limit, a whole number of sixty-four bits. -/
def MayHaveLimit (ws : List Word) (frames : Option Nat) : Prop :=
  Arranged [] ws [] [] ∧ frames = none ∨
    ∃ w n, Arranged [] ws [] [w] ∧ Text.IsNatural (2 ^ 64 - 1) w n ∧ frames = some n

/-- The words of a line derive a command. -/
inductive Derives : List Word → ShellCommand → Prop
  | rotate {ws : List Word} {x : Single} (h : HasNumber ws x) :
      Derives ("rotate".toList :: ws) (.rotate x)
  | move {ws : List Word} {d w : Word} {x : Single} (h : Arranged [.text, .float] ws [d, w] [])
      (hw : Binary.ofChars? w = some x) :
      Derives ("move".toList :: ws) (.move (String.ofList d) x)
  | chip {ws : List Word} {x : Single} (h : MayHaveNumber 1 ws x) :
      Derives ("chip".toList :: ws) (.chip x)
  | kick {ws : List Word} {x : Single} (h : MayHaveNumber 2 ws x) :
      Derives ("kick".toList :: ws) (.kick x)
  | dribble {ws : List Word} {x : Single} (h : HasNumber ws x) :
      Derives ("dribble".toList :: ws) (.dribble x)
  | stop {ws : List Word} (h : HasNothing ws) : Derives ("stop".toList :: ws) .stop
  | stats {ws : List Word} {frames : Option Nat} (h : MayHaveLimit ws frames) :
      Derives ("stats".toList :: ws) (.stats frames)
  | config {name : String} {ws : List Word} {frames : Option Nat}
      (hname : name ∈ ["config", "redis"]) (h : MayHaveLimit ws frames) :
      Derives (name.toList :: ws) (.config frames)
  | restart {ws : List Word} (h : HasNothing ws) : Derives ("restart".toList :: ws) .restart
  | quit {name : String} {ws : List Word} (hname : name ∈ ["quit", "exit"]) (h : HasNothing ws) :
      Derives (name.toList :: ws) .quit

section Arguments

variable {scope : Scope} {ws : List Word} {values : List Value} {options : List (String × Value)}

theorem read_float_eq_ok_iff {w : Word} {v : Value} :
    ValueKind.float.read w = .ok v ↔ ∃ x, Binary.ofChars? w = some x ∧ v = .float x := by
  rw [ValueKind.read]
  cases Binary.ofChars? w with
  | none => simp
  | some x => simp [eq_comm]

theorem read_size_eq_ok_iff {w : Word} {v : Value} :
    ValueKind.size.read w = .ok v ↔
      ∃ n, Text.IsNatural (2 ^ 64 - 1) w n ∧ v = .number n := by
  simp only [ValueKind.read, ← Text.readNatural_eq_ok_iff]
  cases Text.readNatural (2 ^ 64 - 1) w with
  | ok n => simp [eq_comm]
  | error e => simp

theorem takes_frames : Takes framesOption .size where
  value := ⟨_, rfl⟩
  notPath := by decide
  notDashed := by
    rintro n v h ⟨letters, -, rfl⟩
    obtain ⟨_, ⟨ds, hds, hw | hw, -⟩, -⟩ := read_size_eq_ok_iff.1 h
    · exact absurd (hds.2 '-' (by simp [← hw])) (by decide)
    · cases hw
  nonempty := by decide
  noEquals := by decide

/-- Which words a shell command without options takes. -/
theorem reads_arranged_iff (hscope : scope.options = []) :
    Reads false (.start scope) ws values options ↔
      options = [] ∧ ∃ placed, Arranged (scope.positionals.map Positional.kind) ws placed [] ∧
        Fills scope.positionals placed values :=
  reads_start_places_iff takes_frames.nonempty takes_frames.noEquals hscope

theorem reads_number_iff {slot : Positional} (hscope : scope.options = [])
    (hdue : scope.positionals = [slot]) (hkind : slot.kind = .float)
    (hrequired : slot.required = true) :
    Reads false (.start scope) ws values options ↔
      options = [] ∧ ∃ x, values = [.float x] ∧ HasNumber ws x := by
  rw [reads_arranged_iff hscope, hdue, List.map_singleton, hkind]
  refine and_congr_right fun _ => ?_
  simp only [fills_singleton_iff, hkind, hrequired, read_float_eq_ok_iff]
  constructor
  · rintro ⟨_, h, ⟨hoptional, -⟩ | ⟨w, _, rfl, rfl, x, hx, rfl⟩⟩
    · cases hoptional
    · exact ⟨x, rfl, w, h, hx⟩
  · rintro ⟨x, rfl, w, h, hx⟩
    exact ⟨[w], h, Or.inr ⟨w, _, rfl, rfl, x, hx, rfl⟩⟩

theorem reads_optionalNumber_iff {slot : Positional} (hscope : scope.options = [])
    (hdue : scope.positionals = [slot]) (hkind : slot.kind = .float)
    (hrequired : slot.required = false) :
    Reads false (.start scope) ws values options ↔
      options = [] ∧ ((∃ x, values = [.float x] ∧ HasNumber ws x) ∨
        values = [] ∧ Arranged [.float] ws [] []) := by
  rw [reads_arranged_iff hscope, hdue, List.map_singleton, hkind]
  refine and_congr_right fun _ => ?_
  simp only [fills_singleton_iff, hkind, hrequired, read_float_eq_ok_iff]
  constructor
  · rintro ⟨_, h, ⟨-, rfl, rfl⟩ | ⟨w, _, rfl, rfl, x, hx, rfl⟩⟩
    · exact Or.inr ⟨rfl, h⟩
    · exact Or.inl ⟨x, rfl, w, h, hx⟩
  · rintro (⟨x, rfl, w, h, hx⟩ | ⟨rfl, h⟩)
    · exact ⟨[w], h, Or.inr ⟨w, _, rfl, rfl, x, hx, rfl⟩⟩
    · exact ⟨[], h, Or.inl ⟨trivial, rfl, rfl⟩⟩

theorem reads_direction_iff {slot slot' : Positional} (hscope : scope.options = [])
    (hdue : scope.positionals = [slot, slot']) (hkind : slot.kind = .text)
    (hkind' : slot'.kind = .float) (hrequired : slot.required = true)
    (hrequired' : slot'.required = true) :
    Reads false (.start scope) ws values options ↔
      options = [] ∧ ∃ d w x, values = [.text (String.ofList d), .float x] ∧
        Arranged [.text, .float] ws [d, w] [] ∧ Binary.ofChars? w = some x := by
  rw [reads_arranged_iff hscope, hdue, List.map_cons, List.map_singleton, hkind, hkind']
  refine and_congr_right fun _ => ?_
  constructor
  · rintro ⟨placed, h, hfills⟩
    cases hfills with
    | nil hmissing => simp [hrequired] at hmissing
    | cons hd hfills =>
      rw [hkind] at hd
      cases hd
      rw [fills_singleton_iff, hkind', hrequired'] at hfills
      obtain ⟨hoptional, -⟩ | ⟨w, _, rfl, rfl, hw⟩ := hfills
      · cases hoptional
      · obtain ⟨x, hx, rfl⟩ := read_float_eq_ok_iff.1 hw
        exact ⟨_, w, x, rfl, h, hx⟩
  · rintro ⟨d, w, x, rfl, h, hx⟩
    refine ⟨[d, w], h, .cons (by rw [hkind]; rfl) (fills_singleton_iff.2 (Or.inr ?_))⟩
    exact ⟨w, _, rfl, rfl, hkind' ▸ read_float_eq_ok_iff.2 ⟨x, hx, rfl⟩⟩

theorem reads_nothing_iff (hscope : scope.options = []) (hdue : scope.positionals = []) :
    Reads false (.start scope) ws values options ↔
      options = [] ∧ values = [] ∧ HasNothing ws := by
  rw [reads_arranged_iff hscope, hdue]
  refine and_congr_right fun _ => ?_
  simp only [fills_no_place_iff]
  constructor
  · rintro ⟨_, h, rfl, rfl⟩
    exact ⟨rfl, h⟩
  · rintro ⟨rfl, h⟩
    exact ⟨[], h, rfl, rfl⟩

/-- The frame limit of a command that takes one is read from its options. -/
theorem reads_limit_iff (hscope : scope.options = [framesOption]) (hdue : scope.positionals = [])
    {frames : Option Nat} :
    (∃ options, Reads false (.start scope) ws values options ∧
        ShellCommand.frames options = frames) ↔
      values = [] ∧ MayHaveLimit ws frames := by
  simp only [reads_start_option_iff takes_frames hscope hdue]
  constructor
  · rintro ⟨options, ⟨rfl, given, h, hsets⟩, rfl⟩
    cases hsets with
    | none => exact ⟨rfl, Or.inl ⟨h, rfl⟩⟩
    | one _ hv =>
      obtain ⟨n, hn, rfl⟩ := read_size_eq_ok_iff.1 hv
      exact ⟨rfl, Or.inr ⟨_, n, h, hn, rfl⟩⟩
  · rintro ⟨rfl, ⟨h, rfl⟩ | ⟨w, n, h, hn, rfl⟩⟩
    · exact ⟨[], ⟨rfl, [], h, .none⟩, rfl⟩
    · exact ⟨_, ⟨rfl, [w], h, .one (by simp) (read_size_eq_ok_iff.2 ⟨n, hn, rfl⟩)⟩, rfl⟩

end Arguments

theorem ofRequest_eq_command_iff {r : Request} {c : ShellCommand} :
    ShellLine.ofRequest r = .command c ↔
      ∃ named values options, r = .run named values options ∧
        c = .ofValues named.name values options := by
  constructor
  · intro h
    cases r with
    | run named values options =>
      cases h
      exact ⟨named, values, options, rfl, rfl⟩
    | _ => cases h
  · rintro ⟨named, values, options, rfl, rfl⟩
    rfl

/-- A line is a command where its first word names one and the words after it are read. -/
theorem ofWords_eq_command_iff {w : Word} {ws : List Word} {c : ShellCommand} :
    ShellLine.ofWords (w :: ws) = .command c ↔
      ∃ named, grammar.command? w = some named ∧ ∃ values options,
        Reads false (.start (grammar.commandScope named)) ws values options ∧
          c = .ofValues named.name values options := by
  rw [ShellLine.ofWords, if_neg (List.cons_ne_nil w ws), ofRequest_eq_command_iff]
  simp only [Program.read_cons_eq_run_iff (show grammar.options = [] from rfl)]
  constructor
  · rintro ⟨named, values, options, ⟨hnamed, hreads⟩, hc⟩
    exact ⟨named, hnamed, values, options, hreads, hc⟩
  · rintro ⟨named, hnamed, values, options, hreads, hc⟩
    exact ⟨named, values, options, ⟨hnamed, hreads⟩, hc⟩

theorem derives_of_command {w : Word} {ws : List Word} {c : ShellCommand}
    (hline : ShellLine.ofWords (w :: ws) = .command c) : Derives (w :: ws) c := by
  obtain ⟨named, hnamed, values, options, hreads, rfl⟩ := ofWords_eq_command_iff.1 hline
  clear hline
  have hmem := List.mem_of_find?_eq_some hnamed
  obtain ⟨n, hn, rfl⟩ : ∃ n ∈ named.name :: named.aliases, n.toList = w := by
    simpa [Command.answersTo] using List.find?_some hnamed
  simp only [grammar, List.mem_cons, List.not_mem_nil, or_false] at hmem
  rcases hmem with rfl | rfl | rfl | rfl | rfl | rfl | rfl | rfl | rfl | rfl
  · obtain rfl := List.mem_singleton.1 hn
    obtain ⟨rfl, x, rfl, h⟩ := (reads_number_iff rfl rfl rfl rfl).1 hreads
    exact .rotate h
  · obtain rfl := List.mem_singleton.1 hn
    obtain ⟨rfl, d, w, x, rfl, h, hx⟩ := (reads_direction_iff rfl rfl rfl rfl rfl rfl).1 hreads
    exact .move h hx
  · obtain rfl := List.mem_singleton.1 hn
    obtain ⟨rfl, ⟨x, rfl, h⟩ | ⟨rfl, h⟩⟩ := (reads_optionalNumber_iff rfl rfl rfl rfl).1 hreads
    · exact .chip (Or.inl h)
    · exact .chip (Or.inr ⟨h, rfl⟩)
  · obtain rfl := List.mem_singleton.1 hn
    obtain ⟨rfl, ⟨x, rfl, h⟩ | ⟨rfl, h⟩⟩ := (reads_optionalNumber_iff rfl rfl rfl rfl).1 hreads
    · exact .kick (Or.inl h)
    · exact .kick (Or.inr ⟨h, rfl⟩)
  · obtain rfl := List.mem_singleton.1 hn
    obtain ⟨rfl, x, rfl, h⟩ := (reads_number_iff rfl rfl rfl rfl).1 hreads
    exact .dribble h
  · obtain rfl := List.mem_singleton.1 hn
    obtain ⟨rfl, rfl, h⟩ := (reads_nothing_iff rfl rfl).1 hreads
    exact .stop h
  · obtain rfl := List.mem_singleton.1 hn
    obtain ⟨rfl, h⟩ := (reads_limit_iff rfl rfl).1 ⟨options, hreads, rfl⟩
    exact .stats h
  · obtain ⟨rfl, h⟩ := (reads_limit_iff rfl rfl).1 ⟨options, hreads, rfl⟩
    exact .config hn h
  · obtain rfl := List.mem_singleton.1 hn
    obtain ⟨rfl, rfl, h⟩ := (reads_nothing_iff rfl rfl).1 hreads
    exact .restart h
  · obtain ⟨rfl, rfl, h⟩ := (reads_nothing_iff rfl rfl).1 hreads
    exact .quit hn h

theorem exists_reads_limit {named : Command} {ws : List Word} {frames : Option Nat}
    {make : Option Nat → ShellCommand} (hoptions : named.options = [framesOption])
    (hdue : named.positionals = [])
    (hmake : ∀ options, ofValues named.name [] options = make (ShellCommand.frames options))
    (h : MayHaveLimit ws frames) :
    ∃ values options, Reads false (.start (grammar.commandScope named)) ws values options ∧
      make frames = .ofValues named.name values options := by
  have hscope : (grammar.commandScope named).options = [framesOption] := hoptions
  obtain ⟨options, hreads, rfl⟩ := (reads_limit_iff hscope hdue).2 ⟨rfl, h⟩
  exact ⟨[], options, hreads, (hmake options).symm⟩

theorem command_of_derives {words : List Word} {c : ShellCommand} (h : Derives words c) :
    ShellLine.ofWords words = .command c := by
  cases h with
  | rotate h =>
    exact ofWords_eq_command_iff.2
      ⟨_, rfl, _, _, (reads_number_iff rfl rfl rfl rfl).2 ⟨rfl, _, rfl, h⟩, rfl⟩
  | move h hx =>
    exact ofWords_eq_command_iff.2
      ⟨_, rfl, _, _, (reads_direction_iff rfl rfl rfl rfl rfl rfl).2
        ⟨rfl, _, _, _, rfl, h, hx⟩, rfl⟩
  | chip h =>
    refine ofWords_eq_command_iff.2 ⟨_, rfl, ?_⟩
    obtain h | ⟨h, rfl⟩ := h
    · exact ⟨_, _, (reads_optionalNumber_iff rfl rfl rfl rfl).2 ⟨rfl, Or.inl ⟨_, rfl, h⟩⟩, rfl⟩
    · exact ⟨_, _, (reads_optionalNumber_iff rfl rfl rfl rfl).2 ⟨rfl, Or.inr ⟨rfl, h⟩⟩, rfl⟩
  | kick h =>
    refine ofWords_eq_command_iff.2 ⟨_, rfl, ?_⟩
    obtain h | ⟨h, rfl⟩ := h
    · exact ⟨_, _, (reads_optionalNumber_iff rfl rfl rfl rfl).2 ⟨rfl, Or.inl ⟨_, rfl, h⟩⟩, rfl⟩
    · exact ⟨_, _, (reads_optionalNumber_iff rfl rfl rfl rfl).2 ⟨rfl, Or.inr ⟨rfl, h⟩⟩, rfl⟩
  | dribble h =>
    exact ofWords_eq_command_iff.2
      ⟨_, rfl, _, _, (reads_number_iff rfl rfl rfl rfl).2 ⟨rfl, _, rfl, h⟩, rfl⟩
  | stop h =>
    exact ofWords_eq_command_iff.2
      ⟨_, rfl, _, _, (reads_nothing_iff rfl rfl).2 ⟨rfl, rfl, h⟩, rfl⟩
  | stats h =>
    exact ofWords_eq_command_iff.2 ⟨_, rfl, exists_reads_limit rfl rfl (fun _ => rfl) h⟩
  | config hname h =>
    obtain rfl | rfl := List.mem_pair.1 hname
    · exact ofWords_eq_command_iff.2 ⟨_, rfl, exists_reads_limit rfl rfl (fun _ => rfl) h⟩
    · exact ofWords_eq_command_iff.2 ⟨_, rfl, exists_reads_limit rfl rfl (fun _ => rfl) h⟩
  | restart h =>
    exact ofWords_eq_command_iff.2
      ⟨_, rfl, _, _, (reads_nothing_iff rfl rfl).2 ⟨rfl, rfl, h⟩, rfl⟩
  | quit hname h =>
    obtain rfl | rfl := List.mem_pair.1 hname
    · exact ofWords_eq_command_iff.2
        ⟨_, rfl, _, _, (reads_nothing_iff rfl rfl).2 ⟨rfl, rfl, h⟩, rfl⟩
    · exact ofWords_eq_command_iff.2
        ⟨_, rfl, _, _, (reads_nothing_iff rfl rfl).2 ⟨rfl, rfl, h⟩, rfl⟩

theorem ofWords_eq_empty_iff {words : List Word} :
    ShellLine.ofWords words = .empty ↔ words = [] := by
  constructor
  · intro h
    by_contra hne
    rw [ShellLine.ofWords, if_neg hne] at h
    cases hread : grammar.read words <;> rw [hread] at h <;> cases h
  · rintro rfl
    rfl

/-- What stands between the blanks of a line. -/
def wordsOf (line : String) : List Word := (line.toList.splitOnP Text.isBlank).filter (· ≠ [])

/-- A line is empty exactly where it has no words, and a command exactly where its words derive
that command. -/
theorem read_eq_command_iff_derives (line : String) :
    (ShellLine.read line = .empty ↔ wordsOf line = []) ∧
      ∀ c, ShellLine.read line = .command c ↔ Derives (wordsOf line) c := by
  have hwords : ShellLine.read line = ShellLine.ofWords (wordsOf line) := by
    rw [ShellLine.read, Text.words_eq, wordsOf]
  rw [hwords]
  refine ⟨ofWords_eq_empty_iff, fun c => ⟨fun h => ?_, command_of_derives⟩⟩
  cases hline : wordsOf line with
  | nil =>
    rw [hline] at h
    cases h
  | cons w ws =>
    rw [hline] at h
    exact derives_of_command h

end RobotConsole.ShellCommand
