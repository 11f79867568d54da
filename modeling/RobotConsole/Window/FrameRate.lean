import RobotConsole.Binary.Arithmetic
import RobotConsole.Time

/-!
Frame rates.  Frames are gathered into a window until their times add up to a second; then the
window is reported and the next one begins.
-/

namespace RobotConsole

/-- The nearest single float to the seconds of a duration, whole seconds and the rest apart. -/
def Duration.toSeconds (d : Duration) : Single :=
  .ofNat (d / 10 ^ 9) + .ofNat (d % 10 ^ 9) / .ofNat (10 ^ 9)

/-- The duration nearest to a number of seconds, a half going to the even nanosecond; `none` for
what is negative, infinite or at least two to the sixty-fourth. -/
def Duration.ofSingle? : Single → Option Duration
  | .nan => none
  | .signed negative rank _ =>
    let f := Format.single
    if negative ∧ rank ≠ 0 then none
    else if f.units rank < 2 ^ 64 * f.one then some (roundHalfEven (f.units rank * 10 ^ 9) f.one)
    else none

structure RateReport where
  perSecond : Single
  update : Duration
  render : Duration
  deriving DecidableEq

/-- The sums over the frames since the last report. -/
structure RateCounter where
  elapsed : Duration
  frames : Nat
  update : Duration
  render : Duration
  deriving DecidableEq

namespace RateCounter

def new : RateCounter := ⟨0, 0, 0, 0⟩

def maxFrames : Nat := 2 ^ 32 - 1

/-- Counts a frame, and reports once the frames have taken a second. -/
def record (c : RateCounter) (frame update render : Duration) : Option RateReport × RateCounter :=
  let c : RateCounter :=
    ⟨c.elapsed + frame, min (c.frames + 1) maxFrames, c.update + update, c.render + render⟩
  if c.elapsed < Duration.ofSeconds 1 then (none, c)
  else
    (some ⟨.ofNat c.frames / Duration.toSeconds c.elapsed, c.update / c.frames,
      c.render / c.frames⟩, new)

end RateCounter
end RobotConsole
