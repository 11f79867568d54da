import Mathlib.Logic.Function.Basic
import Mathlib.Logic.Relation
import RobotConsole.Proofs.Session.Failing

/-!
The threads of a session.  The lines come through a channel from which the main thread takes
commands; while it draws an endless display a watcher waits on the same channel, and the first line
that it gets, or the end of the lines, cancels the display.  Whatever the order of their steps, a
session that has finished or broken off has done what `run` does for some number of frames of each
display, so it accounts for its lines, and from every state on the way it can come to such an end.
-/

namespace RobotConsole.Session

inductive Phase where
  | prompting
  /-- Draw the endless display of a line, where so many frames are drawn. -/
  | drawing (line : Nat) (display : Display) (drawn : Nat)
  /-- Wait for the watcher to end. -/
  | joining
  | finished
  /-- The program has ended at a display. -/
  | brokenOff

inductive Watcher where
  | absent
  | watching
  | ended
  deriving DecidableEq

structure Threads where
  main : Phase
  watcher : Watcher
  /-- The display is to end. -/
  cancelled : Bool
  /-- The watcher is to end. -/
  stopped : Bool
  /-- The lines in the channel. -/
  channel : List String
  /-- The lines that are not in the channel yet; it is closed after them. -/
  coming : List String
  taken : Nat
  notices : List Notice
  attempts : List Primitive

namespace Threads

def lines (x : Threads) : List String := x.channel ++ x.coming

def ending (x : Threads) : Ending :=
  match x.main with
  | .brokenOff => .brokenOff
  | _ => .completed x.lines

def transcript (x : Threads) : Transcript := ⟨x.notices, x.attempts, x.ending⟩

def IsOver (x : Threads) : Prop := x.main = .finished ∨ x.main = .brokenOff

def start (lines : List String) : Threads :=
  ⟨.prompting, .absent, false, false, [], lines, 0, [.greeting], []⟩

def answered (x : Threads) (r : Response) (rest : List String) : Threads :=
  { x with
    channel := rest
    taken := x.taken + 1
    notices := x.notices ++ .prompt :: r.notices
    attempts := x.attempts ++ r.attempt.toList }

inductive Step (s : Surroundings) : Threads → Threads → Prop
  /-- The input hands over a line. -/
  | handOver {x : Threads} {text : String} {rest : List String} (h : x.coming = text :: rest) :
    Step s x { x with channel := x.channel ++ [text], coming := rest }
  | answer {x : Threads} {text : String} {rest : List String} (hmain : x.main = .prompting)
    (h : x.channel = text :: rest) (hnext : (respond s x.taken text).next = some .nextLine) :
    Step s x (x.answered (respond s x.taken text) rest)
  | quit {x : Threads} {text : String} {rest : List String} (hmain : x.main = .prompting)
    (h : x.channel = text :: rest) (hnext : (respond s x.taken text).next = some .leave) :
    Step s x
      { x.answered (respond s x.taken text) rest with
        main := .finished
        notices := x.notices ++ .prompt :: (respond s x.taken text).notices ++ [.farewell] }
  /-- The main thread takes a line that asks for a display with a limit, which breaks off. -/
  | fail {x : Threads} {text : String} {rest : List String} (hmain : x.main = .prompting)
    (h : x.channel = text :: rest) (hlimit : (Deed.ofLine text).next = .nextLine)
    (hnext : (respond s x.taken text).next = none) :
    Step s x { x.answered (respond s x.taken text) rest with main := .brokenOff }
  /-- The main thread takes a line that asks for an endless display and starts the watcher. -/
  | watch {x : Threads} {text : String} {rest : List String} {d : Display}
    (hmain : x.main = .prompting) (h : x.channel = text :: rest)
    (hdeed : Deed.ofLine text = .watch d) :
    Step s x
      { x with
        main := .drawing x.taken d 0
        watcher := .watching
        cancelled := false
        stopped := false
        channel := rest
        taken := x.taken + 1
        notices := x.notices ++ [.prompt, .displayHint] }
  | endOfInput {x : Threads} (hmain : x.main = .prompting) (h : x.channel = [])
    (hcoming : x.coming = []) :
    Step s x
      { x with main := .finished, notices := x.notices ++ [.prompt, .endOfInput, .farewell] }
  | draw {x : Threads} {line drawn : Nat} {d : Display} {text : String}
    (hmain : x.main = .drawing line d drawn) (h : x.cancelled = false)
    (hframe : s.frame? line (d.table s) drawn = some text) :
    Step s x
      { x with main := .drawing line d (drawn + 1), notices := x.notices ++ [.frame true text] }
  /-- The display cannot go on, and the watcher ends with the program.  When the next frame is due is
  found out before the main thread looks whether the display is cancelled. -/
  | breakOff {x : Threads} {line drawn : Nat} {d : Display}
    (hmain : x.main = .drawing line d drawn)
    (h : s.isLate line drawn = true ∨
      x.cancelled = false ∧ s.frame? line (d.table s) drawn = none) :
    Step s x { x with main := .brokenOff, watcher := .absent }
  /-- The main thread sees that its display is cancelled and tells the watcher to end. -/
  | stop {x : Threads} {line drawn : Nat} {d : Display}
    (hmain : x.main = .drawing line d drawn) (hdue : s.isLate line drawn = false)
    (h : x.cancelled = true) :
    Step s x { x with main := .joining, stopped := true }
  | join {x : Threads} (hmain : x.main = .joining) (h : x.watcher = .ended) :
    Step s x { x with main := .prompting, watcher := .absent }
  /-- The watcher gets a line, which nobody reads. -/
  | swallow {x : Threads} {text : String} {rest : List String} (hwatcher : x.watcher = .watching)
    (h : x.channel = text :: rest) :
    Step s x
      { x with watcher := .ended, cancelled := true, channel := rest, taken := x.taken + 1 }
  /-- The watcher finds the channel closed. -/
  | swallowEnd {x : Threads} (hwatcher : x.watcher = .watching) (h : x.channel = [])
    (hcoming : x.coming = []) :
    Step s x { x with watcher := .ended, cancelled := true }
  | dismiss {x : Threads} (hwatcher : x.watcher = .watching) (h : x.stopped = true) :
    Step s x { x with watcher := .ended }

abbrev Reaches (s : Surroundings) : Threads → Threads → Prop := Relation.ReflTransGen (Step s)

/-- The watcher lives only while a display is drawn, and it has ended exactly if it cancelled that. -/
def Sane (x : Threads) : Prop :=
  match x.main with
  | .prompting => x.watcher = .absent
  | .drawing line _ _ =>
    x.stopped = false ∧
      (x.watcher = .watching ∧ x.cancelled = false ∧ x.taken = line + 1 ∨
        x.watcher = .ended ∧ x.cancelled = true)
  | .joining => x.watcher = .ended
  | .finished => x.watcher = .absent
  | .brokenOff => x.watcher = .absent

theorem sane_start (lines : List String) : (start lines).Sane := rfl

theorem sane_step {s : Surroundings} {x y : Threads} (h : x.Sane) (hstep : Step s x y) : y.Sane := by
  cases hstep with
  | handOver hcoming => exact h
  | answer hmain | quit hmain | fail hmain | endOfInput hmain | draw hmain =>
    simp only [Sane, hmain, answered] at h ⊢
    exact h
  | watch hmain hchannel hdeed => exact ⟨rfl, Or.inl ⟨rfl, rfl, rfl⟩⟩
  | breakOff hmain hfails => rfl
  | stop hmain hdue hcancelled =>
    simp only [Sane, hmain, hcancelled] at h ⊢
    simpa using h.2
  | join hmain hwatcher => rfl
  | swallow hwatcher | swallowEnd hwatcher | dismiss hwatcher =>
    -- no phase but that of drawing has a watcher that still waits
    cases hmain : x.main <;> simp_all [Sane]

end Threads

section Watched

variable {s : Surroundings} (p : Nat → Nat)

/-- The same surroundings where each endless display is watched for so many frames. -/
def watched (s : Surroundings) (p : Nat → Nat) : Surroundings := { s with patience := p }

theorem table_watched (d : Display) : d.table (watched s p) = d.table s := by cases d <;> rfl

theorem framesFrom_watched (line : Nat) (limit : Option Nat) (table : Instant → BoxTable)
    (frame count : Nat) :
    (watched s p).framesFrom line limit table frame count =
      s.framesFrom line limit table frame count := by
  induction count generalizing frame with
  | zero => rfl
  | succ count ih =>
    rw [Surroundings.framesFrom, Surroundings.framesFrom, ih]
    rfl

theorem frames_watched (line : Nat) (limit : Option Nat) (table : Instant → BoxTable) :
    (watched s p).frames line limit table =
      s.framesFrom line limit table 0 (limit.getD (p line)) := by
  rw [Surroundings.frames_eq, framesFrom_watched]
  rfl

/-- How long a display is watched matters only if it has no limit. -/
theorem response_watched {line : Nat} {d : Deed}
    (h : p line = s.patience line ∨ d.next ≠ .skipLine) :
    d.response (watched s p) line = d.response s line := by
  cases d with
  | tables d n => simp only [Deed.response, display, table_watched, frames_watched, s.frames_eq]; rfl
  | watch d =>
    have hline : p line = s.patience line := h.resolve_right (by simp [Deed.next])
    simp only [Deed.response, display, table_watched, frames_watched, s.frames_eq,
      Surroundings.frameCount, hline]
  | _ => rfl

theorem respond_watched {taken : Nat} (text : String)
    (h : p taken = s.patience taken ∨ (Deed.ofLine text).next ≠ .skipLine) :
    respond (watched s p) taken text = respond s taken text := by
  rw [respond_eq, respond_eq, response_watched p h]

/-- How long displays before are watched does not matter. -/
theorem runFrom_watched (taken : Nat) (lines : List String)
    (h : ∀ line, taken ≤ line → p line = s.patience line) :
    runFrom (watched s p) taken lines = runFrom s taken lines := by
  fun_induction runFrom s taken lines with
  | case1 => rfl
  | case2 taken text rest r hnext =>
    have hr := respond_watched p text (Or.inl (h taken le_rfl))
    rw [runFrom_breaksOff rest (hr ▸ hnext), hr]
  | case3 taken text r rest hnext =>
    have hr := respond_watched p text (Or.inl (h taken le_rfl))
    rw [runFrom_leave rest (hr ▸ hnext), hr]
  | case4 taken text r rest hnext ih =>
    have hr := respond_watched p text (Or.inl (h taken le_rfl))
    rw [runFrom_nextLine rest (hr ▸ hnext), hr, ih fun line hline => h line (by omega)]
  | case5 taken text r hnext =>
    have hr := respond_watched p text (Or.inl (h taken le_rfl))
    rw [runFrom_skipLine_nil (hr ▸ hnext), hr]
  | case6 taken text r swallowed rest hnext ih =>
    have hr := respond_watched p text (Or.inl (h taken le_rfl))
    rw [runFrom_skipLine_cons swallowed rest (hr ▸ hnext), hr,
      ih fun line hline => h line (by omega)]

end Watched

def following (shown : List String × Bool) (t : Transcript) : Transcript :=
  if shown.2 then ⟨shown.1.map (Notice.frame true), [], .brokenOff⟩
  else { t with notices := shown.1.map (Notice.frame true) ++ t.notices }

theorem following_cons (text : String) (shown : List String × Bool) (t : Transcript) :
    following (text :: shown.1, shown.2) t =
      { following shown t with notices := .frame true text :: (following shown t).notices } := by
  obtain ⟨texts, brokenOff⟩ := shown
  cases brokenOff <;> rfl

theorem following_nothing (t : Transcript) : following ([], false) t = t := rfl

/-- A run from a line that asks for an endless display. -/
theorem runFrom_watch {s : Surroundings} {taken : Nat} {text : String} {d : Display}
    (hdeed : Deed.ofLine text = .watch d) (lines : List String) :
    runFrom s taken (text :: lines) =
      let t := following (s.frames taken none (d.table s)) (runFrom s (taken + 2) lines.tail)
      { t with notices := .prompt :: .displayHint :: t.notices } := by
  have hrespond : respond s taken text = (Deed.watch d).response s taken := by
    rw [respond_eq, hdeed]
  cases hgoes : (Deed.watch d).breaksOff s taken with
  | true =>
    rw [runFrom_breaksOff lines (respond_next_eq_none (hdeed ▸ hgoes)), hrespond]
    simp only [Transcript.after, Deed.response, display, following,
      show (s.frames taken none (d.table s)).2 = true from hgoes]
    simp
  | false =>
    have hnext : (respond s taken text).next = some .skipLine :=
      respond_next_eq_some (hdeed ▸ hgoes) (hdeed ▸ rfl)
    have hrun : runFrom s taken (text :: lines) =
        (runFrom s (taken + 2) lines.tail).after (respond s taken text) := by
      cases lines with
      | nil => rw [runFrom_skipLine_nil hnext]; rfl
      | cons swallowed rest => rw [runFrom_skipLine_cons swallowed rest hnext]; rfl
    rw [hrun, hrespond]
    simp only [Transcript.after, Deed.response, display, following,
      show (s.frames taken none (d.table s)).2 = false from hgoes]
    rfl

namespace Threads

variable {s : Surroundings}

/-- What a session has still to do, if the threads take turns so that each display is watched for
`p` of its line many frames. -/
def rest (s : Surroundings) (p : Nat → Nat) (x : Threads) : Transcript :=
  match x.main with
  | .prompting => runFrom (watched s p) x.taken x.lines
  | .drawing line d drawn =>
    if x.cancelled then
      following (s.framesFrom line none (d.table s) drawn 0) (runFrom (watched s p) x.taken x.lines)
    else
      -- the watcher is still to take a line, if there is one
      following (s.framesFrom line none (d.table s) drawn (p line - drawn))
        (runFrom (watched s p) (x.taken + 1) x.lines.tail)
  | .joining => runFrom (watched s p) x.taken x.lines
  | .finished => ⟨[], [], .completed x.lines⟩
  | .brokenOff => ⟨[], [], .brokenOff⟩

/-- The transcript of a session that has done what the state says and goes on with `t`. -/
def done (x : Threads) (t : Transcript) : Transcript :=
  ⟨x.notices ++ t.notices, x.attempts ++ t.attempts, t.ending⟩

/-- A display that is drawn is watched for at least the frames that it has drawn. -/
def Drawable (p : Nat → Nat) (x : Threads) : Prop :=
  ∀ line d drawn, x.main = .drawing line d drawn → x.cancelled = false → drawn ≤ p line

/-- Some way in which the threads may take turns leads to a transcript. -/
def LeadsTo (s : Surroundings) (x : Threads) (t : Transcript) : Prop :=
  ∃ p, x.Drawable p ∧ x.done (rest s p x) = t

theorem drawable_of_main {p : Nat → Nat} {x : Threads}
    (h : ∀ line d drawn, x.main ≠ .drawing line d drawn) : x.Drawable p :=
  fun line d drawn hmain _ => absurd hmain (h line d drawn)

theorem drawable_of_drawing {p : Nat → Nat} {x : Threads} {line drawn : Nat} {d : Display}
    (hmain : x.main = .drawing line d drawn) (h : drawn ≤ p line) : x.Drawable p := by
  intro line' d' drawn' hmain' _
  cases hmain.symm.trans hmain'
  exact h

/-- A state without a display leads where it does as much, however long displays are watched. -/
theorem LeadsTo.of_done {x y : Threads} {t : Transcript} (ht : LeadsTo s y t)
    (hmain : ∀ line d drawn, x.main ≠ .drawing line d drawn)
    (h : ∀ p, x.done (rest s p x) = y.done (rest s p y)) : LeadsTo s x t := by
  obtain ⟨p, -, rfl⟩ := ht
  exact ⟨p, drawable_of_main hmain, h p⟩

theorem lines_of_channel {x : Threads} {text : String} {left : List String}
    (h : x.channel = text :: left) : x.lines = text :: (left ++ x.coming) := by
  rw [lines, h, List.cons_append]

theorem lines_of_closed {x : Threads} (h : x.channel = []) (hcoming : x.coming = []) :
    x.lines = [] := by
  rw [lines, h, hcoming, List.append_nil]

section Cases

variable {p : Nat → Nat} {x : Threads} {text : String} {left : List String} {t : Transcript}

theorem done_after (x : Threads) (r : Response) (left : List String) (t : Transcript) :
    x.done (t.after r) = (x.answered r left).done t := by
  simp only [done, answered, Transcript.after, List.append_assoc, List.cons_append]

theorem rest_prompting (h : x.main = .prompting) :
    rest s p x = runFrom (watched s p) x.taken x.lines := by
  rw [rest, h]

theorem rest_joining (h : x.main = .joining) :
    rest s p x = runFrom (watched s p) x.taken x.lines := by
  rw [rest, h]

theorem rest_brokenOff (h : x.main = .brokenOff) : rest s p x = ⟨[], [], .brokenOff⟩ := by
  rw [rest, h]

theorem rest_cancelled {line drawn : Nat} {d : Display} (h : x.main = .drawing line d drawn)
    (hcancelled : x.cancelled = true) :
    rest s p x = following (s.framesFrom line none (d.table s) drawn 0)
      (runFrom (watched s p) x.taken x.lines) := by
  rw [rest, h]
  exact if_pos hcancelled

theorem rest_drawing {line drawn : Nat} {d : Display} (h : x.main = .drawing line d drawn)
    (hcancelled : x.cancelled = false) :
    rest s p x = following (s.framesFrom line none (d.table s) drawn (p line - drawn))
      (runFrom (watched s p) (x.taken + 1) x.lines.tail) := by
  rw [rest, h]
  exact if_neg (by simp [hcancelled])

/-- A line that is not for an endless display has the same response however long those are watched. -/
theorem respond_watched_of_next {c : Continuation}
    (hnext : (respond s x.taken text).next = some c) (hc : c ≠ .skipLine) :
    respond (watched s p) x.taken text = respond s x.taken text := by
  rw [respond_eq] at hnext
  exact respond_watched p text (Or.inr ((Deed.next_eq_some_iff.1 hnext).2 ▸ hc))

theorem leadsTo_answer (hmain : x.main = .prompting) (h : x.channel = text :: left)
    (hnext : (respond s x.taken text).next = some .nextLine)
    (ht : LeadsTo s (x.answered (respond s x.taken text) left) t) : LeadsTo s x t := by
  refine ht.of_done (by simp [hmain]) fun p => ?_
  have hr := respond_watched_of_next (p := p) hnext (by decide)
  rw [rest_prompting hmain, lines_of_channel h, runFrom_nextLine _ (hr ▸ hnext), hr,
    done_after x _ left, rest_prompting (by exact hmain)]
  rfl

theorem leadsTo_quit (hmain : x.main = .prompting) (h : x.channel = text :: left)
    (hnext : (respond s x.taken text).next = some .leave)
    (ht : LeadsTo s
      { x.answered (respond s x.taken text) left with
        main := .finished
        notices := x.notices ++ .prompt :: (respond s x.taken text).notices ++ [.farewell] } t) :
    LeadsTo s x t := by
  refine ht.of_done (by simp [hmain]) fun p => ?_
  have hr := respond_watched_of_next (p := p) hnext (by decide)
  rw [rest_prompting hmain, lines_of_channel h, runFrom_leave _ (hr ▸ hnext), hr,
    done_after x _ left]
  simp only [done, rest, answered, lines, List.append_nil]

theorem leadsTo_fail (hmain : x.main = .prompting) (h : x.channel = text :: left)
    (hlimit : (Deed.ofLine text).next = .nextLine)
    (hnext : (respond s x.taken text).next = none)
    (ht : LeadsTo s { x.answered (respond s x.taken text) left with main := .brokenOff } t) :
    LeadsTo s x t := by
  refine ht.of_done (by simp [hmain]) fun p => ?_
  have hr : respond (watched s p) x.taken text = respond s x.taken text :=
    respond_watched p text (Or.inr (by simp [hlimit]))
  rw [rest_prompting hmain, lines_of_channel h, runFrom_breaksOff _ (hr ▸ hnext), hr,
    done_after x _ left, rest_brokenOff rfl]
  rfl

/-- All the frames of the display are still to be drawn. -/
theorem leadsTo_watch {d : Display} (hmain : x.main = .prompting) (h : x.channel = text :: left)
    (hdeed : Deed.ofLine text = .watch d)
    (ht : LeadsTo s
      { x with
        main := .drawing x.taken d 0
        watcher := .watching
        cancelled := false
        stopped := false
        channel := left
        taken := x.taken + 1
        notices := x.notices ++ [.prompt, .displayHint] } t) : LeadsTo s x t := by
  refine ht.of_done (by simp [hmain]) fun p => ?_
  rw [rest_prompting hmain, lines_of_channel h, runFrom_watch hdeed, rest_drawing rfl rfl,
    frames_watched, table_watched]
  simp only [done, lines, List.append_assoc, List.cons_append, List.nil_append]
  rfl

theorem leadsTo_endOfInput (hmain : x.main = .prompting) (h : x.channel = [])
    (hcoming : x.coming = [])
    (ht : LeadsTo s
      { x with main := .finished, notices := x.notices ++ [.prompt, .endOfInput, .farewell] } t) :
    LeadsTo s x t := by
  refine ht.of_done (by simp [hmain]) fun p => ?_
  rw [rest_prompting hmain, lines_of_closed h hcoming]
  simp only [done, rest, runFrom, ended, lines, h, hcoming, List.append_nil]

theorem leadsTo_draw {line drawn : Nat} {d : Display} (hmain : x.main = .drawing line d drawn)
    (h : x.cancelled = false) (hframe : s.frame? line (d.table s) drawn = some text)
    (ht : LeadsTo s
      { x with
        main := .drawing line d (drawn + 1), notices := x.notices ++ [.frame true text] } t) :
    LeadsTo s x t := by
  obtain ⟨p, hdrawable, rfl⟩ := ht
  have hlt : drawn < p line := hdrawable line d (drawn + 1) rfl h
  refine ⟨p, drawable_of_drawing hmain hlt.le, ?_⟩
  obtain ⟨count, hcount⟩ : ∃ count, p line - drawn = count + 1 := ⟨p line - drawn - 1, by omega⟩
  rw [rest_drawing hmain h, rest_drawing rfl (by exact h), hcount,
    show p line - (drawn + 1) = count by omega, Surroundings.framesFrom_of_some hframe,
    following_cons]
  simp only [done, lines, List.append_assoc, List.cons_append, List.nil_append]

/-- The display is watched for one frame more than it has drawn, unless it is cancelled already. -/
theorem leadsTo_breakOff {line drawn : Nat} {d : Display} (hmain : x.main = .drawing line d drawn)
    (h : s.isLate line drawn = true ∨
      x.cancelled = false ∧ s.frame? line (d.table s) drawn = none)
    (ht : LeadsTo s { x with main := .brokenOff, watcher := .absent } t) : LeadsTo s x t := by
  obtain ⟨p, -, rfl⟩ := ht
  rw [rest_brokenOff rfl]
  cases hcancelled : x.cancelled with
  | true =>
    have hlate : s.isLate line drawn = true := h.resolve_right (by simp [hcancelled])
    refine ⟨p, fun _ _ _ _ hfalse => absurd hfalse (by simp [hcancelled]), ?_⟩
    have hframes : s.framesFrom line none (d.table s) drawn 0 = ([], true) := by
      rw [Surroundings.framesFrom, hlate]
      rfl
    rw [rest_cancelled hmain hcancelled, hframes]
    rfl
  | false =>
    have hnone : s.frame? line (d.table s) drawn = none :=
      h.elim Surroundings.frame?_of_isLate And.right
    have hself : Function.update p line (drawn + 1) line = drawn + 1 := Function.update_self ..
    refine ⟨Function.update p line (drawn + 1),
      drawable_of_drawing hmain ((Nat.le_succ drawn).trans hself.ge), ?_⟩
    rw [rest_drawing hmain hcancelled, hself, Nat.add_sub_cancel_left,
      Surroundings.framesFrom_of_none hnone]
    rfl

/-- The display is watched for as many frames as it has drawn when a line comes. -/
theorem leadsTo_swallow {y : Threads} {line drawn : Nat} {d : Display}
    (ht : LeadsTo s y t) (hmain : x.main = .drawing line d drawn) (h : x.cancelled = false)
    (htaken : x.taken = line + 1) (hy : y.main = x.main) (hcancelled : y.cancelled = true)
    (hnotices : y.notices = x.notices) (hattempts : y.attempts = x.attempts)
    (hrest : ∀ p, runFrom (watched s p) y.taken y.lines =
      runFrom (watched s p) (x.taken + 1) x.lines.tail) : LeadsTo s x t := by
  obtain ⟨p, -, rfl⟩ := ht
  have hself : Function.update p line drawn line = drawn := Function.update_self ..
  have hlater := runFrom_watched (s := watched s p) (Function.update p line drawn) (x.taken + 1)
    x.lines.tail fun k hk => Function.update_of_ne (by omega) drawn p
  refine ⟨Function.update p line drawn, drawable_of_drawing hmain hself.ge, ?_⟩
  rw [rest_drawing hmain h, rest_cancelled (hy.trans hmain) hcancelled, hself, Nat.sub_self, hrest]
  simp only [done, hnotices, hattempts]
  rw [← hlater]
  rfl

end Cases

/-- Only a display has a watcher that still waits. -/
theorem drawing_of_watching {x : Threads} (hx : x.Sane) (h : x.watcher = .watching) :
    ∃ line d drawn, x.main = .drawing line d drawn ∧ x.stopped = false ∧ x.cancelled = false ∧
      x.taken = line + 1 := by
  cases hmain : x.main with
  | drawing line d drawn =>
    simp only [Sane, hmain, h, true_and, reduceCtorEq, false_and, or_false] at hx
    exact ⟨line, d, drawn, rfl, hx.1, hx.2.1, hx.2.2⟩
  | _ => simp [Sane, hmain, h] at hx

/-- What a state leads to, the state before it leads to. -/
theorem leadsTo_step {x y : Threads} {t : Transcript} (hx : x.Sane) (hstep : Step s x y)
    (ht : LeadsTo s y t) : LeadsTo s x t := by
  cases hstep with
  | @handOver text left hcoming =>
    obtain ⟨p, hdrawable, rfl⟩ := ht
    refine ⟨p, hdrawable, ?_⟩
    have hlines : x.lines = lines { x with channel := x.channel ++ [text], coming := left } := by
      simp only [lines, hcoming, List.append_assoc, List.singleton_append]
    simp only [done, rest, hlines]
  | answer hmain hchannel hnext => exact leadsTo_answer hmain hchannel hnext ht
  | quit hmain hchannel hnext => exact leadsTo_quit hmain hchannel hnext ht
  | fail hmain hchannel hlimit hnext => exact leadsTo_fail hmain hchannel hlimit hnext ht
  | watch hmain hchannel hdeed => exact leadsTo_watch hmain hchannel hdeed ht
  | endOfInput hmain hchannel hcoming => exact leadsTo_endOfInput hmain hchannel hcoming ht
  | draw hmain hcancelled hframe => exact leadsTo_draw hmain hcancelled hframe ht
  | breakOff hmain hfails => exact leadsTo_breakOff hmain hfails ht
  | @stop line drawn d hmain hdue hcancelled =>
    obtain ⟨p, -, rfl⟩ := ht
    refine ⟨p, fun _ _ _ _ hfalse => absurd hfalse (by simp [hcancelled]), ?_⟩
    have hframes : s.framesFrom line none (d.table s) drawn 0 = ([], false) := by
      rw [Surroundings.framesFrom, hdue]
      rfl
    rw [rest_cancelled hmain hcancelled, hframes, following_nothing, rest_joining rfl]
    rfl
  | join hmain hwatcher =>
    refine ht.of_done (by simp [hmain]) fun p => ?_
    rw [rest_joining hmain, rest_prompting rfl]
    rfl
  | @swallow text left hwatcher hchannel =>
    obtain ⟨line, d, drawn, hmain, -, hcancelled, htaken⟩ := drawing_of_watching hx hwatcher
    refine leadsTo_swallow ht hmain hcancelled htaken rfl rfl rfl rfl fun p => ?_
    rw [lines_of_channel hchannel]
    rfl
  | swallowEnd hwatcher hchannel hcoming =>
    obtain ⟨line, d, drawn, hmain, -, hcancelled, htaken⟩ := drawing_of_watching hx hwatcher
    refine leadsTo_swallow ht hmain hcancelled htaken rfl rfl rfl rfl fun p => ?_
    have hlines : lines { x with watcher := .ended, cancelled := true } = [] :=
      lines_of_closed hchannel hcoming
    rw [lines_of_closed hchannel hcoming, hlines]
    rfl
  | dismiss hwatcher hstopped =>
    obtain ⟨line, d, drawn, -, hrunning, -⟩ := drawing_of_watching hx hwatcher
    rw [hstopped] at hrunning
    cases hrunning

theorem leadsTo_reaches {x y : Threads} {t : Transcript} (hreaches : Reaches s x y) (hx : x.Sane)
    (ht : LeadsTo s y t) : LeadsTo s x t := by
  induction hreaches using Relation.ReflTransGen.head_induction_on with
  | refl => exact ht
  | head hstep _ ih => exact leadsTo_step hx hstep (ih (sane_step hx hstep))

/-- A session that is over has done what `run` does where each endless display is watched for some
number of frames. -/
theorem transcript_eq_run {x : Threads} {inputs : List String}
    (hreaches : Reaches s (start inputs) x) (hover : x.IsOver) :
    ∃ p, x.transcript = run (watched s p) inputs := by
  have hleads : LeadsTo s x x.transcript := by
    refine ⟨s.patience, drawable_of_main fun _ _ _ hmain => ?_, ?_⟩
    · rcases hover with h | h <;> cases hmain.symm.trans h
    · rcases hover with h | h <;>
        simp only [done, rest, h, transcript, ending, List.append_nil]
  obtain ⟨p, -, ht⟩ := leadsTo_reaches hreaches (sane_start inputs) hleads
  refine ⟨p, ?_⟩
  rw [← ht, rest_prompting rfl]
  rfl

end Threads
end RobotConsole.Session
