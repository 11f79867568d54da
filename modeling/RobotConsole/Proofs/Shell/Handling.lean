import RobotConsole.Proofs.Binary.Order
import RobotConsole.Proofs.Robot.Direction
import RobotConsole.Shell.Outcome

/-!
What a command leads to, whatever the limits are.  `Handled` has one rule for each way in which a
command can end: a direction that there is none of goes before a number that is not finite, that goes
before limits that are not in order, and what is sent in the end is the nearest number within the
limits.  Commands without a number are carried out under all limits.
-/

namespace RobotConsole

open Binary

/-- The message that confirms a primitive tells the numbers that it carries. -/
def Primitive.confirmation : Primitive → String
  | .rotate v => s!"Rotating at {v.text} rad/s"
  | .move d heading s => s!"Going {d.name} and mapping to {heading} at the current speed {s.text}"
  | .chip d => s!"Chipping {d.text} meters"
  | .kick s => s!"Kicking at {s.text} meters per second"
  | .dribble v => s!"Spinning dribbler at {v.text} rad per second"
  | .stop => "Stopping robot"

/-- A number to move by: its name, its limits, and the primitive that it makes. -/
structure Motion where
  argument : String
  value : Single
  least : Single
  greatest : Single
  primitive : Single → Primitive

namespace ShellCommand

/-- A command asks for a motion. -/
inductive Moves (limits : Limits) : ShellCommand → Motion → Prop
  | rotate (v : Single) :
    Moves limits (.rotate v) ⟨"velocity", v, -limits.rotation, limits.rotation, .rotate⟩
  | move {text : String} {d : Direction} (h : Direction.ofText text = .ok d) (s : Single) :
    Moves limits (.move text s) ⟨"speed", s, 0, limits.move, .move d d.heading⟩
  | chip (d : Single) : Moves limits (.chip d) ⟨"distance", d, 0, limits.chip, .chip⟩
  | kick (s : Single) : Moves limits (.kick s) ⟨"speed", s, 0, limits.kick, .kick⟩
  | dribble (v : Single) : Moves limits (.dribble v) ⟨"velocity", v, 0, limits.dribble, .dribble⟩

/-- A command without a number asks for an action. -/
inductive Asks : ShellCommand → Outcome → Prop
  | stop : Asks .stop (.send .stop Primitive.stop.confirmation)
  | stats (frames : Option Nat) : Asks (.stats frames) (.showStats frames)
  | config (frames : Option Nat) : Asks (.config frames) (.showConfig frames)
  | restart : Asks .restart .restart
  | quit : Asks .quit .quit

inductive Handled (limits : Limits) : ShellCommand → Except CommandError Outcome → Prop
  | noDirection {text : String} (h : ∀ d, Direction.ofText text ≠ .ok d) (s : Single) :
    Handled limits (.move text s) (.error (.invalidDirection ⟨text⟩))
  | notFinite {c : ShellCommand} {m : Motion} (h : Moves limits c m)
      (hvalue : m.value.isFinite = false) : Handled limits c (.error (.notFinite m.argument))
  | brokenLimit {c : ShellCommand} {m : Motion} (h : Moves limits c m)
      (hvalue : m.value.isFinite = true) (hlimits : ¬ m.least ≤ m.greatest) :
    Handled limits c (.error (.brokenLimit m.argument))
  | sent {c : ShellCommand} {m : Motion} {y : Single} (h : Moves limits c m)
      (hvalue : m.value.isFinite = true) (hlimits : m.least ≤ m.greatest)
      (hy : Nearest m.least m.greatest m.value y) :
    Handled limits c (.ok (.send (m.primitive y) (m.primitive y).confirmation))
  | done {c : ShellCommand} {o : Outcome} (h : Asks c o) : Handled limits c (.ok o)

section limited

variable (argument : String) {x lo hi : Single}

theorem limited_of_not_isFinite (h : x.isFinite = false) :
    limited argument x lo hi = .error (.notFinite argument) := by
  rw [limited, h]
  rfl

theorem limited_of_not_le (hx : x.isFinite = true) (h : ¬ lo ≤ hi) :
    limited argument x lo hi = .error (.brokenLimit argument) := by
  rw [limited, if_pos hx, clamp?_of_not_le x h]

theorem limited_of_nearest {y : Single} (hx : x.isFinite = true) (h : lo ≤ hi)
    (hy : Nearest lo hi x y) : limited argument x lo hi = .ok y := by
  rw [limited, if_pos hx, clamp?_of_nearest h hy]

end limited

theorem outcome_of_noDirection (limits : Limits) {text : String}
    (h : ∀ d, Direction.ofText text ≠ .ok d) (s : Single) :
    (ShellCommand.move text s).outcome limits = .error (.invalidDirection ⟨text⟩) := by
  rw [outcome, Direction.ofText_eq_error h]
  rfl

/-- What a motion leads to is told from its number and its limits alone. -/
theorem outcome_of_moves {limits : Limits} {c : ShellCommand} {m : Motion}
    (h : Moves limits c m) :
    c.outcome limits = (limited m.argument m.value m.least m.greatest).map fun y =>
      .send (m.primitive y) (m.primitive y).confirmation := by
  cases h with
  | move hd s =>
    rw [outcome, hd]
    cases limited "speed" s 0 limits.move <;> rfl
  | rotate v => rw [outcome]; cases limited "velocity" v (-limits.rotation) limits.rotation <;> rfl
  | chip d => rw [outcome]; cases limited "distance" d 0 limits.chip <;> rfl
  | kick s => rw [outcome]; cases limited "speed" s 0 limits.kick <;> rfl
  | dribble v => rw [outcome]; cases limited "velocity" v 0 limits.dribble <;> rfl

theorem outcome_of_asks (limits : Limits) {c : ShellCommand} {o : Outcome} (h : Asks c o) :
    c.outcome limits = .ok o := by
  cases h <;> rfl

theorem outcome_of_handled {limits : Limits} {c : ShellCommand} {r : Except CommandError Outcome}
    (h : Handled limits c r) : c.outcome limits = r := by
  cases h with
  | noDirection h s => exact outcome_of_noDirection limits h s
  | notFinite h hvalue =>
    rw [outcome_of_moves h, limited_of_not_isFinite _ hvalue]
    rfl
  | brokenLimit h hvalue hlimits =>
    rw [outcome_of_moves h, limited_of_not_le _ hvalue hlimits]
    rfl
  | sent h hvalue hlimits hy =>
    rw [outcome_of_moves h, limited_of_nearest _ hvalue hlimits hy]
    rfl
  | done h => exact outcome_of_asks limits h

theorem exists_handled_of_moves {limits : Limits} {c : ShellCommand} {m : Motion}
    (h : Moves limits c m) : ∃ r, Handled limits c r := by
  cases hvalue : m.value.isFinite with
  | false => exact ⟨_, .notFinite h hvalue⟩
  | true =>
    by_cases hlimits : m.least ≤ m.greatest
    · obtain ⟨y, hy⟩ := exists_nearest hvalue hlimits
      exact ⟨_, .sent h hvalue hlimits hy⟩
    · exact ⟨_, .brokenLimit h hvalue hlimits⟩

/-- Every command ends in one of the ways. -/
theorem exists_handled (limits : Limits) (c : ShellCommand) : ∃ r, Handled limits c r := by
  cases c with
  | rotate v => exact exists_handled_of_moves (.rotate v)
  | move text s =>
    by_cases h : ∃ d, Direction.ofText text = .ok d
    · obtain ⟨d, hd⟩ := h
      exact exists_handled_of_moves (.move hd s)
    · exact ⟨_, .noDirection (not_exists.1 h) s⟩
  | chip d => exact exists_handled_of_moves (.chip d)
  | kick s => exact exists_handled_of_moves (.kick s)
  | dribble v => exact exists_handled_of_moves (.dribble v)
  | stop => exact ⟨_, .done .stop⟩
  | stats frames => exact ⟨_, .done (.stats frames)⟩
  | config frames => exact ⟨_, .done (.config frames)⟩
  | restart => exact ⟨_, .done .restart⟩
  | quit => exact ⟨_, .done .quit⟩

/-- The least number of a motion is zero or the opposite of the greatest. -/
theorem least_le_greatest_iff {limits : Limits} {c : ShellCommand} {m : Motion}
    (h : Moves limits c m) : m.least ≤ m.greatest ↔ 0 ≤ m.greatest := by
  cases h with
  | rotate v => exact neg_le_self_iff limits.rotation
  | _ => rfl

/-- A command ends in the one way that the rules give it; the limits of a motion are not in order
where the greatest number is negative or none. -/
theorem outcome_eq_iff_handled (limits : Limits) (c : ShellCommand) :
    (∀ r, c.outcome limits = r ↔ Handled limits c r) ∧
    ∀ m, Moves limits c m →
      (¬ m.least ≤ m.greatest ↔ m.greatest.isNaN = true ∨ m.greatest < 0) := by
  refine ⟨fun r => ⟨?_, outcome_of_handled⟩, fun m hm => ?_⟩
  · rintro rfl
    obtain ⟨r, hr⟩ := exists_handled limits c
    rwa [outcome_of_handled hr]
  · rw [least_le_greatest_iff hm]
    exact not_zero_le_iff m.greatest

end ShellCommand
end RobotConsole
