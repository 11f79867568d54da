import RobotConsole.Proofs.CommandLine.Places

/-!
What whole command lines ask for.  A program that has no options of its own runs a command exactly
where the command's name is the first word and the words after it are read without fault.
-/

namespace RobotConsole.CommandLine

namespace Program

variable {p : Program} {c : Command} {w : Word} {ws : List Word} {values : List Value}
  {options : List (String × Value)}

theorem stopped_ne_run {scope : Scope} {help : String} (s : Stop) :
    p.stopped scope help s ≠ .run c values options := by
  cases s <;> intro h <;> cases h

theorem endRequest_ne_run {before : Progress} :
    p.endRequest before ≠ .run c values options := by
  rw [endRequest]
  cases before.settle with
  | error f =>
    intro h
    cases h
  | ok before =>
    simp only
    split <;> intro h <;> cases h

theorem helpRequest_ne_run : p.helpRequest ws ≠ .run c values options := by
  rw [helpRequest.eq_def]
  intro h
  repeat' split at h
  all_goals cases h

theorem readFrom_escaped_ne_run {before : Progress} :
    p.readFrom true before ws ≠ .run c values options := by
  cases ws with
  | nil => exact endRequest_ne_run
  | cons w ws =>
    rw [readFrom, if_pos rfl]
    split <;> intro h <;> cases h

theorem commandRequest_eq_run_iff {c' : Command} :
    p.commandRequest (.start p.scope) c ws = .run c' values options ↔
      c' = c ∧ Reads false (.start (p.commandScope c)) ws values options := by
  rw [commandRequest, Progress.settle_of_none rfl, Reads]
  cases readCommand false (.start (p.commandScope c)) ws with
  | error s =>
    constructor
    · intro h
      exact absurd h (stopped_ne_run s)
    · rintro ⟨-, r, h, -⟩
      cases h
  | ok r =>
    constructor
    · intro h
      cases h
      exact ⟨rfl, r, rfl, rfl, (List.append_nil _).symm⟩
    · rintro ⟨rfl, _, hr, rfl, rfl⟩
      cases hr
      exact congrArg (Request.run c' _) (List.append_nil _)

/-- Words before the name of a command lead to no command where there are no options. -/
theorem readFrom_ne_run (hoptions : p.options = []) (hcommand : p.command? w = none) :
    p.readFrom false (.start p.scope) (w :: ws) ≠ .run c values options := by
  have hfits := fits_shape w
  have hpending : (Progress.start p.scope).pending = .none := rfl
  rw [readFrom]
  simp only [Bool.false_eq_true, if_false, hpending, hcommand]
  split
  · exact helpRequest_ne_run
  · cases hshape : shape w with
    | escape => exact readFrom_escaped_ne_run
    | long name value =>
      cases hlong : (Progress.start p.scope).long name value with
      | ok r => exact absurd hlong (Progress.long_ne_ok (by simp [Progress.start, scope, hoptions]))
      | error s =>
        simp only [hlong]
        exact stopped_ne_run s
    | short letters =>
      rw [hshape] at hfits
      cases hshort : (Progress.start p.scope).short letters with
      | ok r => exact absurd hshort (Progress.short_ne_ok hfits.1)
      | error s =>
        simp only [hshort]
        exact stopped_ne_run s
    | plain =>
      intro h
      cases h

/-- Of a program without options a command is run whose name comes first and whose words are read
after it. -/
theorem read_cons_eq_run_iff (hoptions : p.options = []) :
    p.read (w :: ws) = .run c values options ↔
      p.command? w = some c ∧ Reads false (.start (p.commandScope c)) ws values options := by
  rw [read]
  cases hcommand : p.command? w with
  | some c' =>
    have hread : p.readFrom false (.start p.scope) (w :: ws) =
        p.commandRequest (.start p.scope) c' ws := by
      rw [readFrom, hcommand]
      rfl
    rw [hread, commandRequest_eq_run_iff, Option.some.injEq]
    constructor
    · rintro ⟨rfl, h⟩
      exact ⟨rfl, h⟩
    · rintro ⟨rfl, h⟩
      exact ⟨rfl, h⟩
  | none =>
    constructor
    · intro h
      exact absurd h (readFrom_ne_run hoptions hcommand)
    · rintro ⟨h, -⟩
      cases h

end Program

end RobotConsole.CommandLine
