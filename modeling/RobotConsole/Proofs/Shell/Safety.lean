import RobotConsole.Proofs.Binary.Order
import RobotConsole.Proofs.Robot.Primitive
import RobotConsole.Shell.Outcome

/-!
What is typed into the shell is safe to be sent.  Every number goes through `limited` before it
becomes a part of a primitive, whatever its text said, and the datagram of such a primitive is one
that robots can read.
-/

namespace RobotConsole

open Binary

deriving instance DecidableEq for ShellLine

/-- The primitives that a robot may be sent. -/
def Primitive.IsSafe : Primitive → Prop
  | .rotate v => Within (-4) 4 v
  | .move d heading speed => heading = d.heading ∧ Within 0 100 speed
  | .chip d => Within 0 2 d
  | .kick s => Within 0 6 s
  | .dribble v => Within 0 5 v
  | .stop => True

theorem Primitive.IsSafe.isFinite {p : Primitive} (h : p.IsSafe) : ∀ x ∈ p.floats, x.isFinite := by
  cases p with
  | rotate v => exact List.forall_mem_singleton.2 h.finite
  | move d heading speed => exact List.forall_mem_singleton.2 h.2.finite
  | chip d => exact List.forall_mem_singleton.2 h.finite
  | kick s => exact List.forall_mem_singleton.2 h.finite
  | dribble v => exact List.forall_mem_singleton.2 h.finite
  | stop => simp [floats]

namespace ShellCommand

theorem within_of_limited {argument : String} {x lo hi y : Single} (hlo : lo.isFinite = true)
    (hhi : hi.isFinite = true) (h : limited argument x lo hi = .ok y) : Within lo hi y := by
  unfold limited at h
  split at h
  · next hx =>
    split at h
    · next hclamp =>
      cases h
      exact within_of_clamp? hlo hhi hx hclamp
    · cases h
  · cases h

theorem ok_of_bind {ε α β : Type} {x : Except ε α} {g : α → Except ε β} {b : β}
    (h : x >>= g = .ok b) : ∃ a, x = .ok a ∧ g a = .ok b := by
  cases x with
  | error e => cases h
  | ok a => exact ⟨a, rfl, h⟩

/-- What is sent for a limited number is made of one within the limits. -/
theorem within_of_sent {argument : String} {x lo hi : Single} {make : Single → Primitive}
    {text : Single → String} {p : Primitive} {message : String} (hlo : lo.isFinite = true)
    (hhi : hi.isFinite = true)
    (h : (limited argument x lo hi >>= fun y => pure (Outcome.send (make y) (text y))) =
      .ok (.send p message)) : ∃ y, Within lo hi y ∧ p = make y := by
  obtain ⟨y, hy, hp⟩ := ok_of_bind h
  cases hp
  exact ⟨y, within_of_limited hlo hhi hy, rfl⟩

theorem isSafe_of_outcome {c : ShellCommand} {p : Primitive} {message : String}
    (h : c.outcome .standard = .ok (.send p message)) : p.IsSafe := by
  cases c with
  | rotate v =>
    obtain ⟨y, hy, rfl⟩ := within_of_sent (by decide) (by decide) h
    exact hy
  | move direction speed =>
    obtain ⟨d, -, h⟩ := ok_of_bind h
    obtain ⟨y, hy, rfl⟩ := within_of_sent (by decide) (by decide) h
    exact ⟨rfl, hy⟩
  | chip d =>
    obtain ⟨y, hy, rfl⟩ := within_of_sent (by decide) (by decide) h
    exact hy
  | kick s =>
    obtain ⟨y, hy, rfl⟩ := within_of_sent (by decide) (by decide) h
    exact hy
  | dribble v =>
    obtain ⟨y, hy, rfl⟩ := within_of_sent (by decide) (by decide) h
    exact hy
  | stop =>
    cases h
    trivial
  | _ => cases h

end ShellCommand

/-- A primitive that some line asks to be sent is finite and within the limits, and a robot decodes
exactly that primitive if its numbers are read as they are written. -/
theorem sent_isSafe {line : String} {p : Primitive}
    (h : ∃ c message, ShellLine.read line = .command c ∧
      c.outcome .standard = .ok (.send p message)) :
    p.IsSafe ∧ (∀ x ∈ p.floats, x.isFinite) ∧
      ((∀ x ∈ p.floats, Json.ReadsBack x) → Primitive.decode? p.encode = some p) := by
  obtain ⟨c, message, -, houtcome⟩ := h
  have hsafe := ShellCommand.isSafe_of_outcome houtcome
  exact ⟨hsafe, hsafe.isFinite, Primitive.decode?_encode⟩

/-- A decimal number that lies between two floats, a word in capitals and a wide blank. -/
theorem sent_isSafe_of_move :
    (Primitive.move .left 180 33.3).IsSafe ∧
      Primitive.decode? (Primitive.move .left 180 33.3).encode =
        some (.move .left 180 33.3) := by
  have hline : ShellLine.read "move\u2003LEFT 33.3" = .command (.move "LEFT" 33.3) := by
    decide +kernel
  have hsend : (ShellCommand.move "LEFT" 33.3).outcome .standard =
      .ok (.send (.move .left 180 33.3)
        "Going left and mapping to 180 at the current speed 33.3") := by
    decide +kernel
  obtain ⟨hsafe, -, hdecode⟩ := sent_isSafe ⟨_, _, hline, hsend⟩
  exact ⟨hsafe, hdecode (by decide +kernel)⟩

end RobotConsole
