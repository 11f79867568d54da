import Mathlib.Data.List.Forall2
import RobotConsole.Proofs.Session.Display
import RobotConsole.Proofs.Status.Board
import RobotConsole.Session.Basic

/-!
How the lines of a session are to be read.  A deed is what a line alone leads to, and `reading` says
which lines count: an endless display swallows the line after it, and quitting leaves the rest
unread.  Neither knows of the surroundings.  A session accounts for its lines where it attempts
exactly the sends of the reading and prints, line by line, what each deed prints; if a display breaks
off, it does so for the deeds before that one.
-/

namespace RobotConsole

inductive Display where
  | stats
  | config
  deriving DecidableEq

def Display.table (s : Surroundings) : Display → Instant → BoxTable
  | .stats => fun now => statsTable (s.latestStatus now) now
  | .config => fun _ => s.store.table

inductive Deed where
  /-- The line is answered at most, and nothing is sent. -/
  | answer (remark : Option String)
  /-- A primitive is attempted to be sent, and then confirmed. -/
  | attempt (primitive : Primitive) (message : String)
  /-- So many tables are shown. -/
  | tables (display : Display) (count : Nat)
  /-- Tables are shown until the next line comes. -/
  | watch (display : Display)
  | restart
  | leave
  deriving DecidableEq

namespace Deed

def primitive? : Deed → Option Primitive
  | .attempt p _ => some p
  | _ => none

def next : Deed → Continuation
  | .leave => .leave
  | .watch _ => .skipLine
  | _ => .nextLine

def ofOutcome : Outcome → Deed
  | .send p message => .attempt p message
  | .showStats (some n) => .tables .stats n
  | .showStats none => .watch .stats
  | .showConfig (some n) => .tables .config n
  | .showConfig none => .watch .config
  | .restart => .restart
  | .quit => .leave

def ofLine (text : String) : Deed :=
  match ShellLine.read text with
  | .empty => .answer none
  | .help text => .answer (some text)
  | .invalid text => .answer (some text)
  | .command c =>
    match c.outcome .standard with
    | .error e => .answer (some e.message)
    | .ok o => ofOutcome o

/-- What a session does for a deed when so many lines were taken before. -/
def response (s : Surroundings) (line : Nat) : Deed → Response
  | .answer remark => ⟨(remark.map Notice.remark).toList, none, some .nextLine⟩
  | .attempt p message => Session.send s line p message
  | .tables d n => Session.display s line (some n) (d.table s)
  | .watch d => Session.display s line none (d.table s)
  | .restart => Session.restart s
  | .leave => ⟨[], none, some .leave⟩

/-- Whether a session breaks off at a deed. -/
def breaksOff (s : Surroundings) (line : Nat) : Deed → Bool
  | .tables d n => (s.frames line (some n) (d.table s)).2
  | .watch d => (s.frames line none (d.table s)).2
  | _ => false

theorem response_next (s : Surroundings) (line : Nat) (d : Deed) :
    (d.response s line).next = if d.breaksOff s line then none else some d.next := by
  cases d with
  | restart =>
    simp only [response, Session.restart]
    split <;> rfl
  | _ => rfl

theorem next_eq_some_iff {s : Surroundings} {line : Nat} {d : Deed} {c : Continuation} :
    (d.response s line).next = some c ↔ d.breaksOff s line = false ∧ d.next = c := by
  rw [response_next]
  cases d.breaksOff s line <;> simp

theorem next_eq_none_iff {s : Surroundings} {line : Nat} {d : Deed} :
    (d.response s line).next = none ↔ d.breaksOff s line = true := by
  rw [response_next]
  cases d.breaksOff s line <;> simp

theorem response_attempt (s : Surroundings) (line : Nat) (d : Deed) :
    (d.response s line).attempt = d.primitive? := by
  cases d with
  | restart =>
    simp only [response, Session.restart]
    split <;> rfl
  | _ => rfl

theorem primitive?_of_breaksOff {s : Surroundings} {line : Nat} {d : Deed}
    (h : d.breaksOff s line = true) : d.primitive? = none := by
  cases d with
  | attempt => cases h
  | _ => rfl

end Deed

namespace Session

/-- A session answers a line by its deed. -/
theorem respond_eq (s : Surroundings) (line : Nat) (text : String) :
    respond s line text = (Deed.ofLine text).response s line := by
  unfold respond Deed.ofLine
  cases ShellLine.read text with
  | empty => rfl
  | help text => rfl
  | invalid text => rfl
  | command c =>
    simp only [carryOut]
    cases c.outcome .standard with
    | error e => rfl
    | ok o =>
      cases o with
      | showStats limit => cases limit <;> rfl
      | showConfig limit => cases limit <;> rfl
      | _ => rfl

/-- The deeds of lines, each with the number of lines taken before, and the lines left unread. -/
def reading (taken : Nat) : List String → List (Nat × Deed) × List String
  | [] => ([], [])
  | text :: rest =>
    let d := Deed.ofLine text
    match d.next, rest with
    | .leave, rest => ([(taken, d)], rest)
    | .nextLine, rest =>
      let (deeds, unread) := reading (taken + 1) rest
      ((taken, d) :: deeds, unread)
    | .skipLine, [] => ([(taken, d)], [])
    | .skipLine, _ :: rest =>
      let (deeds, unread) := reading (taken + 2) rest
      ((taken, d) :: deeds, unread)

def sends (deeds : List (Nat × Deed)) : List Primitive := deeds.filterMap fun e => e.2.primitive?

/-- What a deed prints, the prompt before its line included. -/
inductive Prints (s : Surroundings) : Nat × Deed → String → Prop
  | nothing {line : Nat} : Prints s (line, .answer none) "⚡ "
  | remark {line : Nat} (text : String) :
    Prints s (line, .answer (some text)) ("⚡ " ++ (String.ofList (Text.trimEnd text.toList) ++ "\n"))
  | sent {line : Nat} {p : Primitive} (message : String) (h : s.sendFailure line p = none) :
    Prints s (line, .attempt p message) ("⚡ " ++ (message ++ "\n"))
  | notSent {line : Nat} {p : Primitive} {f : SendFailure} (message : String)
    (h : s.sendFailure line p = some f) :
    Prints s (line, .attempt p message) ("⚡ " ++ s!"Failed to send primitive: {f.text}\n")
  | tables {line : Nat} (d : Display) (texts : List String)
    (h : s.FirstFrames line (d.table s) texts) :
    Prints s (line, .tables d texts.length) ("⚡ " ++ String.join texts)
  | watch {line : Nat} (d : Display) (texts : List String)
    (h : s.FirstFrames line (d.table s) texts) :
    Prints s (line, .watch d) ("⚡ " ++ ("Press Enter to return to the shell.\n" ++
      String.join (texts.map ("\x1b[2J\x1b[H" ++ ·))))
  | noRestart {line : Nat} (h : s.restartCommand = none) :
    Prints s (line, .restart) ("⚡ " ++
      "No restart command configured; set robot.restart_command in the configuration file.\n")
  | restart {line : Nat} {command : String} (h : s.restartCommand = some command) :
    Prints s (line, .restart) ("⚡ " ++ (Notice.restartText (s.runCommand command) ++ "\n"))
  | leave {line : Nat} : Prints s (line, .leave) "⚡ "

/-- What a deed prints whose display breaks off, at a frame that it was still to draw. -/
inductive Fails (s : Surroundings) : Nat × Deed → String → Prop
  | tables {line n : Nat} (d : Display) (texts : List String)
    (h : s.FirstFrames line (d.table s) texts) (hlt : texts.length < n)
    (hnone : s.frame? line (d.table s) texts.length = none) :
    Fails s (line, .tables d n) ("⚡ " ++ String.join texts)
  | watch {line : Nat} (d : Display) (texts : List String)
    (h : s.FirstFrames line (d.table s) texts)
    (hnone : s.frame? line (d.table s) texts.length = none) :
    Fails s (line, .watch d) ("⚡ " ++ ("Press Enter to return to the shell.\n" ++
      String.join (texts.map ("\x1b[2J\x1b[H" ++ ·))))

variable {s : Surroundings}

/-- A display breaks off only at the table of a store that cannot be drawn, or where no instant is late
enough. -/
theorem Fails.cause {line : Nat} {d : Deed} {last : String} (h : Fails s (line, d) last) :
    s.store.table.isDrawable = false ∨ ∃ frame, s.isLate line frame = true := by
  have hcause : ∀ (d : Display) (frame : Nat), s.frame? line (d.table s) frame = none →
      s.store.table.isDrawable = false ∨ ∃ frame, s.isLate line frame = true := by
    intro d frame hnone
    rw [Surroundings.frame?, ite_eq_left_iff, Bool.not_eq_true] at hnone
    by_cases hlate : s.isLate line frame = true
    · exact Or.inr ⟨frame, hlate⟩
    · have hdrawable := BoxTable.text?_eq_none_iff.1 (hnone (Bool.not_eq_true _ ▸ hlate))
      cases d with
      | stats => exact absurd (isDrawable_statsTable _ _) hdrawable
      | config => exact Or.inl (Bool.not_eq_true _ ▸ hdrawable)
  cases h with
  | tables d texts _ _ hnone => exact hcause d _ hnone
  | watch d texts _ hnone => exact hcause d _ hnone

section Steps

variable {taken : Nat} {text : String}

theorem runFrom_breaksOff (rest : List String) (h : (respond s taken text).next = none) :
    runFrom s taken (text :: rest) =
      Transcript.after ⟨[], [], .brokenOff⟩ (respond s taken text) := by
  rw [runFrom.eq_def]
  simp only [h]

theorem runFrom_leave (rest : List String) (h : (respond s taken text).next = some .leave) :
    runFrom s taken (text :: rest) =
      Transcript.after ⟨[.farewell], [], .completed rest⟩ (respond s taken text) := by
  rw [runFrom.eq_def]
  simp only [h]

theorem runFrom_nextLine (rest : List String) (h : (respond s taken text).next = some .nextLine) :
    runFrom s taken (text :: rest) =
      (runFrom s (taken + 1) rest).after (respond s taken text) := by
  rw [runFrom.eq_def]
  simp only [h]

theorem runFrom_skipLine_nil (h : (respond s taken text).next = some .skipLine) :
    runFrom s taken [text] = ended.after (respond s taken text) := by
  rw [runFrom.eq_def]
  simp only [h]

theorem runFrom_skipLine_cons (swallowed : String) (rest : List String)
    (h : (respond s taken text).next = some .skipLine) :
    runFrom s taken (text :: swallowed :: rest) =
      (runFrom s (taken + 2) rest).after (respond s taken text) := by
  rw [runFrom.eq_def]
  simp only [h]

theorem respond_next_eq_none (h : (Deed.ofLine text).breaksOff s taken = true) :
    (respond s taken text).next = none := by
  rw [respond_eq]
  exact Deed.next_eq_none_iff.2 h

theorem respond_next_eq_some {c : Continuation}
    (hgoes : (Deed.ofLine text).breaksOff s taken = false) (h : (Deed.ofLine text).next = c) :
    (respond s taken text).next = some c := by
  rw [respond_eq]
  exact Deed.next_eq_some_iff.2 ⟨hgoes, h⟩

end Steps

section Printing

def printed (notices : List Notice) : String := String.join (notices.map Notice.text)

theorem printed_cons (n : Notice) (notices : List Notice) :
    printed (n :: notices) = n.text ++ printed notices := String.join_cons

theorem printed_append (first later : List Notice) :
    printed (first ++ later) = printed first ++ printed later := by
  rw [printed, List.map_append, String.join_append]
  rfl

/-- What an answer of one notice prints. -/
theorem printed_pair (n : Notice) : printed [.prompt, n] = "⚡ " ++ n.text := by
  rw [printed_cons, printed_cons, show printed [] = "" from rfl, String.append_empty]
  rfl

theorem printed_frames (texts : List String) :
    printed (texts.map (Notice.frame false)) = String.join texts := by
  rw [printed, List.map_map]
  congr 1
  exact List.map_id texts

theorem printed_screens (texts : List String) :
    printed (texts.map (Notice.frame true)) =
      String.join (texts.map ("\x1b[2J\x1b[H" ++ ·)) := by
  rw [printed, List.map_map]
  rfl

theorem printed_tables (line n : Nat) (d : Display) :
    printed (.prompt :: ((Deed.tables d n).response s line).notices) =
      "⚡ " ++ String.join (s.frames line (some n) (d.table s)).1 := by
  rw [printed_cons, ← printed_frames]
  rfl

theorem printed_watch (line : Nat) (d : Display) :
    printed (.prompt :: ((Deed.watch d).response s line).notices) =
      "⚡ " ++ ("Press Enter to return to the shell.\n" ++
        String.join ((s.frames line none (d.table s)).1.map ("\x1b[2J\x1b[H" ++ ·))) := by
  rw [← printed_screens]
  simp only [Deed.response, display, Option.isNone_none, printed_cons]
  rfl

theorem prints_response {line : Nat} {d : Deed} (h : d.breaksOff s line = false) :
    Prints s (line, d) (printed (.prompt :: (d.response s line).notices)) := by
  cases d with
  | answer remark =>
    cases remark with
    | none => exact .nothing
    | some text =>
      rw [Deed.response, Option.map_some, Option.toList_some, printed_pair]
      exact .remark text
  | attempt p message =>
    simp only [Deed.response, send, printed_pair]
    cases hsend : s.sendFailure line p with
    | none => exact .sent message hsend
    | some f => exact .notSent message hsend
  | tables d n =>
    have hlength : (s.frames line (some n) (d.table s)).1.length = n := Surroundings.length_frames h
    have hprints : Prints s (line, .tables d (s.frames line (some n) (d.table s)).1.length)
        ("⚡ " ++ String.join (s.frames line (some n) (d.table s)).1) :=
      .tables d _ Surroundings.firstFrames_frames
    rwa [hlength, ← printed_tables] at hprints
  | watch d =>
    rw [printed_watch]
    exact .watch d _ Surroundings.firstFrames_frames
  | restart =>
    simp only [Deed.response, restart]
    cases hcommand : s.restartCommand with
    | none => exact printed_pair _ ▸ .noRestart hcommand
    | some command => exact printed_pair _ ▸ .restart hcommand
  | leave => exact .leave

theorem fails_response {line : Nat} {d : Deed} (h : d.breaksOff s line = true) :
    Fails s (line, d) (printed (.prompt :: (d.response s line).notices)) := by
  cases d with
  | tables d n =>
    obtain ⟨hnone, hlt⟩ := Surroundings.frame?_of_frames h
    rw [printed_tables]
    exact .tables d _ Surroundings.firstFrames_frames (hlt (Option.some_ne_none n)) hnone
  | watch d =>
    obtain ⟨hnone, -⟩ := Surroundings.frame?_of_frames h
    rw [printed_watch]
    exact .watch d _ Surroundings.firstFrames_frames hnone
  | _ => cases h

end Printing

section Accounting

/-- What is printed after the last deed: the end of the lines comes at one more prompt. -/
def closing (deeds : List (Nat × Deed)) : String :=
  if deeds.getLast?.map Prod.snd = some .leave then "Goodbye!\n" else "⚡ \nGoodbye!\n"

theorem closing_cons {e : Nat × Deed} (deeds : List (Nat × Deed)) (h : e.2 ≠ .leave) :
    closing (e :: deeds) = closing deeds := by
  cases deeds with
  | nil => simp [closing, h]
  | cons e' deeds => rw [closing, closing, List.getLast?_cons_cons]

theorem closing_eq (deeds : List (Nat × Deed)) :
    ∃ before, closing deeds = before ++ "Goodbye!\n" := by
  unfold closing
  split
  · exact ⟨"", rfl⟩
  · exact ⟨"⚡ \n", rfl⟩

/-- A transcript that accounts for deeds after its opening. -/
inductive Accounts (s : Surroundings) (opening : String) (deeds : List (Nat × Deed))
    (unread : List String) (t : Transcript) : Prop
  /-- It attempts the sends of the deeds, and no others, leaves the lines that are to be left, and
  prints what each deed prints in order. -/
  | completed (segments : List String) (hending : t.ending = .completed unread)
    (hattempts : t.attempts = sends deeds) (hprints : List.Forall₂ (Prints s) deeds segments)
    (houtput : t.output = opening ++ String.join segments ++ closing deeds)
  /-- It does so for the deeds before the one at which it breaks off. -/
  | brokenOff (before : List (Nat × Deed)) (e : Nat × Deed) (after : List (Nat × Deed))
    (segments : List String) (last : String) (hdeeds : deeds = before ++ e :: after)
    (hending : t.ending = .brokenOff) (hattempts : t.attempts = sends before)
    (hprints : List.Forall₂ (Prints s) before segments) (hfails : Fails s e last)
    (houtput : t.output = opening ++ String.join segments ++ last)

variable {deeds : List (Nat × Deed)} {unread : List String} {t : Transcript} {line : Nat} {d : Deed}

theorem output_after (t : Transcript) (r : Response) :
    (t.after r).output = printed (.prompt :: r.notices) ++ t.output :=
  printed_append _ _

theorem attempts_after (t : Transcript) (line : Nat) (d : Deed) :
    (t.after (d.response s line)).attempts = d.primitive?.toList ++ t.attempts := by
  rw [Transcript.after, Deed.response_attempt]

theorem sends_cons (e : Nat × Deed) (deeds : List (Nat × Deed)) :
    sends (e :: deeds) = e.2.primitive?.toList ++ sends deeds := by
  rw [sends, sends, List.filterMap_cons]
  cases e.2.primitive? <;> rfl

theorem accounts_ended : Accounts s "" [] [] ended := .completed [] rfl rfl .nil rfl

/-- One more line before. -/
theorem Accounts.after (h : Accounts s "" deeds unread t) (hgoes : d.breaksOff s line = false)
    (hd : d ≠ .leave) :
    Accounts s "" ((line, d) :: deeds) unread (t.after (d.response s line)) := by
  cases h with
  | completed segments hending hattempts hprints houtput =>
    refine .completed _ hending ?_ (.cons (prints_response hgoes) hprints) ?_
    · rw [attempts_after, hattempts, sends_cons]
    · rw [output_after, houtput, closing_cons deeds hd, String.join_cons, String.empty_append,
        String.empty_append, String.append_assoc]
  | brokenOff before e after segments last hdeeds hending hattempts hprints hfails houtput =>
    refine .brokenOff _ e after _ last (congrArg ((line, d) :: ·) hdeeds) hending ?_
      (.cons (prints_response hgoes) hprints) hfails ?_
    · rw [attempts_after, hattempts, sends_cons]
    · rw [output_after, houtput, String.join_cons, String.empty_append, String.empty_append,
        String.append_assoc]

/-- The last line, which ends the session. -/
theorem accounts_leave (hd : d.next = .leave) (rest : List String) :
    Accounts s "" [(line, d)] rest
      (Transcript.after ⟨[.farewell], [], .completed rest⟩ (d.response s line)) := by
  cases d with
  | leave => exact .completed ["⚡ "] rfl rfl (.cons .leave .nil) rfl
  | _ => cases hd

theorem accounts_breaksOff (h : d.breaksOff s line = true) (deeds : List (Nat × Deed))
    (unread : List String) :
    Accounts s "" ((line, d) :: deeds) unread
      (Transcript.after ⟨[], [], .brokenOff⟩ (d.response s line)) := by
  refine .brokenOff [] (line, d) deeds [] _ rfl rfl ?_ .nil (fails_response h) ?_
  · rw [attempts_after, Deed.primitive?_of_breaksOff h]
    rfl
  · rw [output_after, String.empty_append]
    exact String.append_empty.trans String.empty_append.symm

theorem ne_leave_of_next {c : Continuation} (h : d.next = c) (hc : c ≠ .leave) : d ≠ .leave := by
  rintro rfl
  exact hc h.symm

/-- It remains to look at a session that goes on after a line. -/
theorem accounts_line (taken : Nat) {text : String} {rest : List String}
    (h : (Deed.ofLine text).breaksOff s taken = false →
      Accounts s "" ((taken, Deed.ofLine text) :: deeds) unread (runFrom s taken (text :: rest))) :
    Accounts s "" ((taken, Deed.ofLine text) :: deeds) unread (runFrom s taken (text :: rest)) := by
  cases hgoes : (Deed.ofLine text).breaksOff s taken with
  | true =>
    rw [runFrom_breaksOff rest (respond_next_eq_none hgoes), respond_eq]
    exact accounts_breaksOff hgoes deeds unread
  | false => exact h hgoes

theorem accounts_runFrom (taken : Nat) (lines : List String) :
    Accounts s "" (reading taken lines).1 (reading taken lines).2 (runFrom s taken lines) := by
  fun_induction reading taken lines with
  | case1 => exact accounts_ended
  | case2 taken text d rest hnext =>
    refine accounts_line taken fun hgoes => ?_
    rw [runFrom_leave rest (respond_next_eq_some hgoes hnext), respond_eq]
    exact accounts_leave hnext rest
  | case3 taken text d rest hnext deeds unread hrest ih =>
    refine accounts_line taken fun hgoes => ?_
    rw [runFrom_nextLine rest (respond_next_eq_some hgoes hnext), respond_eq]
    rw [hrest] at ih
    exact ih.after hgoes (ne_leave_of_next hnext (by decide))
  | case4 taken text d hnext =>
    refine accounts_line taken fun hgoes => ?_
    rw [runFrom_skipLine_nil (respond_next_eq_some hgoes hnext), respond_eq]
    exact accounts_ended.after hgoes (ne_leave_of_next hnext (by decide))
  | case5 taken text d swallowed rest hnext deeds unread hrest ih =>
    refine accounts_line taken fun hgoes => ?_
    rw [runFrom_skipLine_cons swallowed rest (respond_next_eq_some hgoes hnext), respond_eq]
    rw [hrest] at ih
    exact ih.after hgoes (ne_leave_of_next hnext (by decide))

theorem accounts_run (s : Surroundings) (lines : List String) :
    Accounts s Notice.greeting.text (reading 0 lines).1 (reading 0 lines).2 (run s lines) := by
  have houtput : (run s lines).output = Notice.greeting.text ++ (runFrom s 0 lines).output :=
    printed_cons _ _
  cases accounts_runFrom (s := s) 0 lines with
  | completed segments hending hattempts hprints hrest =>
    refine .completed segments hending hattempts hprints ?_
    rw [houtput, hrest, String.empty_append, String.append_assoc]
  | brokenOff before e after segments last hdeeds hending hattempts hprints hfails hrest =>
    refine .brokenOff before e after segments last hdeeds hending hattempts hprints hfails ?_
    rw [houtput, hrest, String.empty_append, String.append_assoc]

end Accounting

end Session
end RobotConsole
