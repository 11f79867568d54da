import Mathlib.Data.List.Basic
import Mathlib.Logic.Function.Iterate
import RobotConsole.Proofs.Live.Call

/-!
A stream while frames are asked for, tokens are cancelled and it is restarted.  The clock never goes
back and a cancelled token stays cancelled.  The log of the calls alone says what the stream does
next: how many frames it has given and when it gave the last one, both since it was restarted, and
which token it was given then.
-/

namespace RobotConsole

/-- What happens up to a look: tokens are cancelled, and time passes. -/
structure Look where
  cancels : List CancelToken
  elapsed : Duration

structure LiveWorld where
  cancelled : List CancelToken
  now : Instant

namespace LiveWorld

def moment (w : LiveWorld) : Moment := ⟨fun token => w.cancelled.contains token, w.now⟩

def after (w : LiveWorld) (l : Look) : LiveWorld := ⟨l.cancels ++ w.cancelled, w.now + l.elapsed⟩

def moments : LiveWorld → List Look → List Moment
  | _, [] => []
  | w, l :: looks => (w.after l).moment :: moments (w.after l) looks

end LiveWorld

inductive LiveAct where
  | next (looks : List Look)
  | cancel (token : CancelToken)
  | restart (token : CancelToken)

/-- What is known of a stream: when a call looked and what it led to, and with which token the
stream was restarted. -/
inductive LiveEvent (φ : Type) where
  | asked (looked : List Instant) (result : FrameResult φ)
  | restarted (token : CancelToken)

/-- A stream in its world, and the log, the latest event first. -/
structure Showing (σ φ : Type) where
  stream : LiveFrames σ φ
  world : LiveWorld
  log : List (LiveEvent φ)

namespace Showing

variable {σ φ : Type}

def call (p : Showing σ φ) (looks : List Look) : FrameResult φ :=
  (p.stream.next (p.world.moments looks)).1

def act (p : Showing σ φ) : LiveAct → Showing σ φ
  | .next looks =>
    let moments := p.world.moments looks
    let (result, stream, rest) := p.stream.next moments
    let looked := (moments.take (moments.length - rest.length)).map Moment.now
    ⟨stream, looks.foldl LiveWorld.after p.world, .asked looked result :: p.log⟩
  | .cancel token => { p with world := p.world.after ⟨[token], 0⟩ }
  | .restart token => { p with stream := p.stream.restart token, log := .restarted token :: p.log }

def run (p : Showing σ φ) (acts : List LiveAct) : Showing σ φ := acts.foldl act p

end Showing

namespace LiveFrames

variable {σ φ : Type}

def framesSince : List (LiveEvent φ) → Nat
  | [] => 0
  | .restarted _ :: _ => 0
  | .asked _ (.frame _) :: log => framesSince log + 1
  | .asked _ .ended :: log => framesSince log
  | .asked _ .waiting :: log => framesSince log
  | .asked _ .brokenOff :: log => framesSince log

/-- When the last frame since the last restart was drawn, which is when its call looked last. -/
def lastDrawn : List (LiveEvent φ) → Option Instant
  | [] => none
  | .restarted _ :: _ => none
  | .asked looked (.frame _) :: _ => looked.getLast?
  | .asked _ .ended :: log => lastDrawn log
  | .asked _ .waiting :: log => lastDrawn log
  | .asked _ .brokenOff :: log => lastDrawn log

/-- The token in use, which was `first` until the first restart. -/
def tokenInUse (first : CancelToken) : List (LiveEvent φ) → CancelToken
  | [] => first
  | .restarted token :: _ => token
  | .asked _ _ :: log => tokenInUse first log

def shown : List (LiveEvent φ) → List φ
  | [] => []
  | .restarted _ :: log => shown log
  | .asked _ (.frame content) :: log => shown log ++ [content]
  | .asked _ .ended :: log => shown log
  | .asked _ .waiting :: log => shown log
  | .asked _ .brokenOff :: log => shown log

def stateAfter (start : LiveFrames σ φ) (renderings : Nat) : σ :=
  (fun state => (start.render state).2)^[renderings] start.state

/-- What the log says of a stream. -/
def following (start : LiveFrames σ φ) (log : List (LiveEvent φ)) : LiveFrames σ φ :=
  { start with
    state := start.stateAfter (shown log).length
    remaining := start.limit.map (· - framesSince log)
    token := tokenInUse start.token log
    lastFrame := lastDrawn log }

/-- A stream that is as its log says, and has kept to its limit and rendered each frame once. -/
structure Follows (start : LiveFrames σ φ) (p : Showing σ φ) : Prop where
  stream : p.stream = start.following p.log
  within : ∀ n, start.limit = some n → framesSince p.log ≤ n
  rendered : shown p.log =
    (List.range (shown p.log).length).map fun k => (start.render (start.stateAfter k)).1
  dated : lastDrawn p.log = none ↔ framesSince p.log = 0

variable {start : LiveFrames σ φ} {p : Showing σ φ}

theorem follows_start (render : σ → φ × σ) (state : σ) (interval : Duration)
    (limit : Option Nat) (token : CancelToken) (world : LiveWorld) :
    Follows (.new render state interval limit token)
      ⟨.new render state interval limit token, world, []⟩ where
  stream := by cases limit <;> rfl
  within _ _ := Nat.zero_le _
  rendered := rfl
  dated := ⟨fun _ => rfl, fun _ => rfl⟩

theorem follows_restart (h : Follows start p) (token : CancelToken) :
    Follows start (p.act (.restart token)) where
  stream := by
    rw [Showing.act, h.stream]
    cases hlimit : start.limit <;> simp [restart, following, shown, framesSince, tokenInUse,
      lastDrawn, hlimit]
  within _ _ := Nat.zero_le _
  rendered := h.rendered
  dated := ⟨fun _ => rfl, fun _ => rfl⟩

theorem remaining_eq_zero_iff (h : Follows start p) :
    p.stream.remaining = some 0 ↔ start.limit = some (framesSince p.log) := by
  rw [h.stream, following]
  cases hlimit : start.limit with
  | none => simp
  | some n =>
    have := h.within n hlimit
    simp only [Option.map_some, Option.some.injEq]
    omega

theorem looked_of_drawn (pre rest : List Moment) (m stamp : Moment) :
    ((pre ++ m :: stamp :: rest).take
      ((pre ++ m :: stamp :: rest).length - rest.length)).map Moment.now =
        pre.map Moment.now ++ [m.now, stamp.now] := by
  have hsplit : pre ++ m :: stamp :: rest = (pre ++ [m, stamp]) ++ rest := by simp
  rw [hsplit, List.length_append, Nat.add_sub_cancel, List.take_left, List.map_append]
  rfl

/-- A frame adds one rendering to the log. -/
theorem follows_drawn (h : Follows start p) (hlimit : p.stream.remaining ≠ some 0)
    (world : LiveWorld) (looked : List Instant) (now : Instant) :
    Follows start ⟨p.stream.afterFrame now, world,
      .asked (looked ++ [now]) (.frame (p.stream.render p.stream.state).1) :: p.log⟩ := by
  rw [ne_eq, remaining_eq_zero_iff h] at hlimit
  have hrender : p.stream.render = start.render := by rw [h.stream]; rfl
  have hstate : p.stream.state = start.stateAfter (shown p.log).length := by rw [h.stream]; rfl
  refine ⟨?_, fun n hn => ?_, ?_, ?_⟩
  · rw [afterFrame, hrender, hstate, h.stream]
    simp [following, shown, framesSince, tokenInUse, lastDrawn, stateAfter,
      Function.iterate_succ_apply', Function.comp_def, Nat.sub_sub]
  · have hle := h.within n hn
    have hne : n ≠ framesSince p.log := fun heq => hlimit (heq ▸ hn)
    simp only [framesSince]
    omega
  · rw [shown, hrender, hstate, List.length_append, List.length_singleton, List.range_succ,
      List.map_append, ← h.rendered]
    rfl
  · simp [lastDrawn, framesSince]

theorem follows_next (h : Follows start p) (looks : List Look) :
    Follows start (p.act (.next looks)) := by
  simp only [Showing.act]
  generalize p.world.moments looks = ms
  generalize hcall : p.stream.next ms = call
  have hcalled := called_next p.stream ms
  rw [hcall] at hcalled
  cases hcalled with
  | usedUp => exact ⟨h.stream, h.within, h.rendered, h.dated⟩
  | brokenOff => exact ⟨h.stream, h.within, h.rendered, h.dated⟩
  | stopped => exact ⟨h.stream, h.within, h.rendered, h.dated⟩
  | unfinished => exact ⟨h.stream, h.within, h.rendered, h.dated⟩
  | drawn pre rest m stamp hlimit =>
    have hlooked := looked_of_drawn pre rest m stamp
    simp only [hlooked]
    rw [show [m.now, stamp.now] = [m.now] ++ [stamp.now] from rfl, ← List.append_assoc]
    exact follows_drawn h hlimit _ _ _

theorem follows_run (h : Follows start p) (acts : List LiveAct) : Follows start (p.run acts) := by
  induction acts generalizing p with
  | nil => exact h
  | cons act acts ih =>
    cases act with
    | next looks => exact ih (follows_next h looks)
    | cancel token => exact ih ⟨h.stream, h.within, h.rendered, h.dated⟩
    | restart token => exact ih (follows_restart h token)

example : shown (Showing.run ⟨.new (fun k => (toString k, k + 1)) 0 250 (some 1) 0, ⟨[], 0⟩, []⟩
    [.next [⟨[], 0⟩, ⟨[], 9⟩], .next [⟨[], 0⟩, ⟨[], 0⟩], .cancel 0, .restart 1,
      .next [⟨[], 0⟩, ⟨[0], 9⟩]]).log = ["0", "1"] := by
  decide

end LiveFrames
end RobotConsole
