import RobotConsole.Proofs.Session.Threads
import RobotConsole.Proofs.Store.Listing

/-!
Sessions come to an end.  The input hands over all its lines, a display ends with the next line or
with the input, unless it breaks off, and each line that the main thread takes leaves fewer; so from
every state the threads can come to an end, and what they have done then accounts for the lines.  A
session says goodbye unless the store cannot be drawn or the clock comes to its end.
-/

namespace RobotConsole.Session

namespace Threads

variable {s : Surroundings}

/-- A sane state whose lines have all been handed over. -/
def Supplied (x : Threads) : Prop := x.Sane ∧ x.coming = []

/-- A state from which the main thread goes on to prompt, with at most these lines, or breaks off. -/
def ComesBack (s : Surroundings) (x : Threads) (left : List String) : Prop :=
  ∃ y, Reaches s x y ∧ y.Supplied ∧
    (y.main = .brokenOff ∨ y.main = .prompting ∧ y.channel = left)

theorem ComesBack.head {x y : Threads} {left : List String} (h : ComesBack s y left)
    (hstep : Step s x y) : ComesBack s x left := by
  obtain ⟨z, hreaches, hz⟩ := h
  exact ⟨z, .head hstep hreaches, hz⟩

theorem reaches_supplied (x : Threads) (hx : x.Sane) : ∃ y, Reaches s x y ∧ y.Supplied := by
  generalize hcoming : x.coming = coming
  induction coming generalizing x with
  | nil => exact ⟨x, .refl, hx, hcoming⟩
  | cons text left ih =>
    obtain ⟨y, hreaches, hy⟩ :=
      ih { x with channel := x.channel ++ [text], coming := left } hx rfl
    exact ⟨y, .head (.handOver hcoming) hreaches, hy⟩

theorem comesBack_of_joining {x : Threads} (hcoming : x.coming = []) (hmain : x.main = .joining)
    (hwatcher : x.watcher = .ended) : ComesBack s x x.channel :=
  ⟨_, .single (.join hmain hwatcher), ⟨rfl, hcoming⟩, .inr ⟨rfl, rfl⟩⟩

theorem comesBack_of_cancelled {x : Threads} {line drawn : Nat} {d : Display}
    (hcoming : x.coming = []) (hmain : x.main = .drawing line d drawn)
    (hwatcher : x.watcher = .ended) (hcancelled : x.cancelled = true) :
    ComesBack s x x.channel := by
  cases hdue : s.isLate line drawn with
  | true => exact ⟨_, .single (.breakOff hmain (.inl hdue)), ⟨rfl, hcoming⟩, .inl rfl⟩
  | false =>
    exact (comesBack_of_joining (x := { x with main := .joining, stopped := true }) hcoming rfl
      hwatcher).head (.stop hmain hdue hcancelled)

/-- A display ends with the next line, or with the input if there is none. -/
theorem comesBack_of_watching {x : Threads} {line drawn : Nat} {d : Display}
    (hcoming : x.coming = []) (hmain : x.main = .drawing line d drawn)
    (hwatcher : x.watcher = .watching) : ComesBack s x x.channel.tail := by
  cases hchannel : x.channel with
  | nil =>
    have hback := comesBack_of_cancelled (s := s)
      (x := { x with watcher := .ended, cancelled := true }) hcoming hmain rfl rfl
    have hleft := hback.head (.swallowEnd hwatcher hchannel hcoming)
    rw [hchannel] at hleft
    exact hleft
  | cons text left =>
    have hback := comesBack_of_cancelled (s := s)
      (x := { x with
        watcher := .ended, cancelled := true, channel := left, taken := x.taken + 1 })
      hcoming hmain rfl rfl
    exact hback.head (.swallow hwatcher hchannel)

/-- After its display the main thread prompts again, and no line has come back. -/
theorem exists_comesBack {x : Threads} (hx : x.Supplied) (hmain : x.main ≠ .finished) :
    ∃ left, ComesBack s x left ∧ left.length ≤ x.channel.length := by
  obtain ⟨hsane, hcoming⟩ := hx
  cases hphase : x.main with
  | prompting => exact ⟨x.channel, ⟨x, .refl, ⟨hsane, hcoming⟩, .inr ⟨hphase, rfl⟩⟩, le_rfl⟩
  | joining =>
    have hwatcher : x.watcher = .ended := by simpa only [Sane, hphase] using hsane
    exact ⟨x.channel, comesBack_of_joining hcoming hphase hwatcher, le_rfl⟩
  | finished => exact absurd hphase hmain
  | brokenOff => exact ⟨x.channel, ⟨x, .refl, ⟨hsane, hcoming⟩, .inl hphase⟩, le_rfl⟩
  | drawing line d drawn =>
    simp only [Sane, hphase] at hsane
    obtain ⟨-, ⟨hwatcher, -⟩ | ⟨hwatcher, hcancelled⟩⟩ := hsane
    · refine ⟨x.channel.tail, comesBack_of_watching hcoming hphase hwatcher, ?_⟩
      rw [List.length_tail]
      exact Nat.sub_le _ _
    · exact ⟨x.channel, comesBack_of_cancelled hcoming hphase hwatcher hcancelled, le_rfl⟩

/-- The main thread takes a line, and the lines that are left are fewer. -/
theorem step_prompting {x : Threads} {text : String} {left : List String} (hx : x.Supplied)
    (hmain : x.main = .prompting) (h : x.channel = text :: left) :
    ∃ y, Step s x y ∧ y.Supplied ∧ y.channel = left := by
  suffices h : ∃ y, Step s x y ∧ y.coming = x.coming ∧ y.channel = left by
    obtain ⟨y, hstep, hcoming, hleft⟩ := h
    exact ⟨y, hstep, ⟨sane_step hx.1 hstep, hcoming.trans hx.2⟩, hleft⟩
  cases hnext : (Deed.ofLine text).next with
  | nextLine =>
    cases hgoes : (Deed.ofLine text).breaksOff s x.taken with
    | true => exact ⟨_, .fail hmain h hnext (respond_next_eq_none hgoes), rfl, rfl⟩
    | false => exact ⟨_, .answer hmain h (respond_next_eq_some hgoes hnext), rfl, rfl⟩
  | leave =>
    have hgoes : (Deed.ofLine text).breaksOff s x.taken = false := by
      cases hdeed : Deed.ofLine text with
      | leave => rfl
      | _ => simp [hdeed, Deed.next] at hnext
    exact ⟨_, .quit hmain h (respond_next_eq_some hgoes hnext), rfl, rfl⟩
  | skipLine =>
    obtain ⟨d, hdeed⟩ : ∃ d, Deed.ofLine text = .watch d := by
      cases hdeed : Deed.ofLine text with
      | watch d => exact ⟨d, rfl⟩
      | _ => simp [hdeed, Deed.next] at hnext
    exact ⟨_, .watch hmain h hdeed, rfl, rfl⟩

theorem reaches_over {x : Threads} (hx : x.Supplied) : ∃ y, Reaches s x y ∧ y.IsOver := by
  generalize hn : x.channel.length = n
  induction n using Nat.strong_induction_on generalizing x with
  | _ n ih =>
    by_cases hmain : x.main = .finished
    · exact ⟨x, .refl, .inl hmain⟩
    obtain ⟨left, ⟨y, hxy, hy, hbroken | ⟨hprompting, rfl⟩⟩, hlength⟩ :=
      exists_comesBack (s := s) hx hmain
    · exact ⟨y, hxy, .inr hbroken⟩
    cases hchannel : y.channel with
    | nil => exact ⟨_, hxy.tail (.endOfInput hprompting hchannel hy.2), .inl rfl⟩
    | cons text left =>
      obtain ⟨z, hyz, hz, hleft⟩ := step_prompting (s := s) hy hprompting hchannel
      rw [hchannel, List.length_cons] at hlength
      obtain ⟨w, hzw, hw⟩ := ih z.channel.length (by rw [hleft]; omega) hz rfl
      exact ⟨w, (hxy.tail hyz).trans hzw, hw⟩

theorem sane_reaches {x y : Threads} (h : Reaches s x y) (hx : x.Sane) : y.Sane := by
  induction h with
  | refl => exact hx
  | tail _ hstep ih => exact sane_step ih hstep

end Threads

section Accounts

variable {s : Surroundings} {p : Nat → Nat}

theorem firstFrames_watched {line : Nat} {d : Display} {texts : List String}
    (h : (watched s p).FirstFrames line (d.table (watched s p)) texts) :
    s.FirstFrames line (d.table s) texts := by
  cases d <;> exact h

theorem frame?_watched {line frame : Nat} {d : Display}
    (h : (watched s p).frame? line (d.table (watched s p)) frame = none) :
    s.frame? line (d.table s) frame = none := by
  cases d <;> exact h

/-- What a deed prints does not depend on how long displays are watched. -/
theorem prints_watched {e : Nat × Deed} {text : String} (h : Prints (watched s p) e text) :
    Prints s e text := by
  cases h with
  | nothing => exact .nothing
  | remark text => exact .remark text
  | sent message h => exact .sent message h
  | notSent message h => exact .notSent message h
  | tables d texts h => exact .tables d texts (firstFrames_watched h)
  | watch d texts h => exact .watch d texts (firstFrames_watched h)
  | noRestart h => exact .noRestart h
  | restart h => exact .restart h
  | leave => exact .leave

theorem fails_watched {e : Nat × Deed} {last : String} (h : Fails (watched s p) e last) :
    Fails s e last := by
  cases h with
  | tables d texts h hlt hnone =>
    exact .tables d texts (firstFrames_watched h) hlt (frame?_watched hnone)
  | watch d texts h hnone => exact .watch d texts (firstFrames_watched h) (frame?_watched hnone)

theorem accounts_watched {opening : String} {deeds : List (Nat × Deed)} {unread : List String}
    {t : Transcript} (h : Accounts (watched s p) opening deeds unread t) :
    Accounts s opening deeds unread t := by
  cases h with
  | completed segments hending hattempts hprints houtput =>
    exact .completed segments hending hattempts (hprints.imp fun _ _ => prints_watched) houtput
  | brokenOff before e after segments last hdeeds hending hattempts hprints hfails houtput =>
    exact .brokenOff before e after segments last hdeeds hending hattempts
      (hprints.imp fun _ _ => prints_watched) (fails_watched hfails) houtput

/-- A session whose displays cannot fail says goodbye. -/
theorem Accounts.completes {opening : String} {deeds : List (Nat × Deed)} {unread : List String}
    {t : Transcript} (h : Accounts s opening deeds unread t)
    (hstore : s.store.table.isDrawable = true) (hclock : ∀ line frame, s.isLate line frame = false) :
    t.ending = .completed unread ∧ t.attempts = sends deeds ∧
      ∃ before, t.output = before ++ "Goodbye!\n" := by
  cases h with
  | completed segments hending hattempts hprints houtput =>
    obtain ⟨before, hclosing⟩ := closing_eq deeds
    refine ⟨hending, hattempts, opening ++ String.join segments ++ before, ?_⟩
    rw [houtput, hclosing, ← String.append_assoc]
  | brokenOff before e after segments last hdeeds hending hattempts hprints hfails houtput =>
    rcases hfails.cause with hstore' | ⟨frame, hlate⟩
    · rw [hstore] at hstore'
      cases hstore'
    · rw [hclock] at hlate
      cases hlate

end Accounts

/-- A transcript accounts for the reading of the lines of its session. -/
abbrev AccountsFor (s : Surroundings) (lines : List String) (t : Transcript) : Prop :=
  Accounts s Notice.greeting.text (reading 0 lines).1 (reading 0 lines).2 t

/-- Every session accounts for the reading of its lines: up to a display that breaks off, if there is
one, it attempts exactly the sends and prints exactly what the deeds print.  A run does so, whichever
sends fail, and so do threads that compete for the lines, which can always come to an end.  Where the
store can be drawn and the clock does not come to its end, the session does all of its reading and says
goodbye. -/
theorem session_accounts (s : Surroundings) (lines : List String) :
    AccountsFor s lines (run s lines) ∧
      (∀ f, Alike (run s lines) (run (s.failing f) lines)) ∧
      (∀ x, Threads.Reaches s (.start lines) x →
        (∃ y, Threads.Reaches s x y ∧ y.IsOver) ∧ (x.IsOver → AccountsFor s lines x.transcript)) ∧
      (s.store.table.isDrawable = true → (∀ line frame, s.isLate line frame = false) →
        ∀ t, AccountsFor s lines t →
          t.ending = .completed (reading 0 lines).2 ∧ t.attempts = sends (reading 0 lines).1 ∧
            ∃ before, t.output = before ++ "Goodbye!\n") := by
  refine ⟨accounts_run s lines, fun f => alike_run s f lines, fun x hx => ⟨?_, fun hover => ?_⟩,
    fun hstore hclock t ht => ht.completes hstore hclock⟩
  · have hsane := Threads.sane_reaches hx (Threads.sane_start lines)
    obtain ⟨y, hxy, hy⟩ := Threads.reaches_supplied (s := s) x hsane
    obtain ⟨z, hyz, hz⟩ := Threads.reaches_over (s := s) hy
    exact ⟨z, hxy.trans hyz, hz⟩
  · obtain ⟨p, ht⟩ := Threads.transcript_eq_run hx hover
    rw [ht]
    exact accounts_watched (accounts_run (watched s p) lines)

/-- A display swallows the line that asks to quit, the next one does quit, and its successor is left,
both in a run and where the threads have come to their end. -/
theorem session_accounts_of_swallowed_quit :
    ∃ (s : Surroundings) (x : Threads),
      Threads.Reaches s (.start ["stats", "quit", "stop", "exit", "kick 1"]) x ∧
      x.transcript.attempts = [.stop] ∧ x.transcript.ending = .completed ["kick 1"] ∧
      (run s ["stats", "quit", "stop", "exit", "kick 1"]).attempts = [.stop] := by
  have hreading : reading 0 ["stats", "quit", "stop", "exit", "kick 1"] =
      ([(0, .watch .stats), (2, .attempt .stop "Stopping robot"), (3, .leave)], ["kick 1"]) := by
    decide +kernel
  let s : Surroundings :=
    ⟨fun _ _ => none, fun _ => 0, fun _ => 3, 0, fun _ => none, fun _ => .ok none, none,
      fun _ => .error ""⟩
  have hstore : s.store.table.isDrawable = true := by decide
  have hclock : ∀ line frame, s.isLate line frame = false := by
    intro line frame
    have htime : s.frameTime line frame = 0 := by simp [s, Surroundings.frameTime]
    simp [Surroundings.isLate, htime, Instant.limit, Duration.ofSeconds]
  obtain ⟨hrun, -, hthreads, hcompletes⟩ :=
    session_accounts s ["stats", "quit", "stop", "exit", "kick 1"]
  obtain ⟨x, hx, hover⟩ := (hthreads _ .refl).1
  obtain ⟨hending, hattempts, -⟩ := hcompletes hstore hclock _ ((hthreads x hx).2 hover)
  obtain ⟨-, hsent, -⟩ := hcompletes hstore hclock _ hrun
  rw [hreading] at hending hattempts hsent
  exact ⟨s, x, hx, hattempts, hending, hsent⟩

/-- Surroundings in which a value of the store is too long for a column of a table. -/
def withLongValue : Surroundings where
  sendFailure _ _ := none
  displayStart _ := 0
  patience _ := 0
  refreshInterval := LiveFrames.defaultInterval
  latestStatus _ := none
  store := (MemoryStore.empty.insert "/robot_id" (String.ofList (List.replicate 65536 'a'))).store
  restartCommand := none
  runCommand _ := .error ""

theorem isDrawable_withLongValue : withLongValue.store.table.isDrawable = false := by
  rw [Bool.eq_false_iff, ne_eq, Store.isDrawable_table_iff]
  intro h
  have hlength := h .robotId (by decide)
  have hshown : withLongValue.store.shown .robotId = String.ofList (List.replicate 65536 'a') := by
    rfl
  rw [hshown, String.length_ofList, List.length_replicate] at hlength
  exact absurd hlength (by decide)

/-- At such a value a session breaks off: it shows no table, does not carry out the line after it and
does not say goodbye. -/
theorem breaks_off_at_long_value :
    sends (reading 0 ["config --frames 1", "stop"]).1 = [.stop] ∧
      (run withLongValue ["config --frames 1", "stop"]).attempts = [] ∧
      (run withLongValue ["config --frames 1", "stop"]).ending = .brokenOff ∧
      (run withLongValue ["config --frames 1", "stop"]).output = Notice.greeting.text ++ "⚡ " := by
  have hreading : reading 0 ["config --frames 1", "stop"] =
      ([(0, .tables .config 1), (1, .attempt .stop "Stopping robot")], []) := by
    decide +kernel
  have hdeed : Deed.ofLine "config --frames 1" = .tables .config 1 := by decide +kernel
  have hnone : withLongValue.frame? 0 (Display.config.table withLongValue) 0 = none := by
    have htable : withLongValue.store.table.text? = none :=
      BoxTable.text?_eq_none_iff.2 (by rw [isDrawable_withLongValue]; decide)
    simpa [Surroundings.frame?, Surroundings.isLate, Display.table] using htable
  have hrespond : respond withLongValue 0 "config --frames 1" = ⟨[], none, none⟩ := by
    have hframes : withLongValue.frames 0 (some 1) (Display.config.table withLongValue) =
        ([], true) := by
      rw [Surroundings.frames_eq]
      exact Surroundings.framesFrom_of_none hnone
    rw [respond_eq, hdeed, Deed.response, display, hframes]
    rfl
  have hrun : run withLongValue ["config --frames 1", "stop"] =
      ⟨[.greeting, .prompt], [], .brokenOff⟩ := by
    rw [run, runFrom_breaksOff ["stop"] (by rw [hrespond]), hrespond]
    rfl
  rw [hreading, hrun]
  refine ⟨rfl, rfl, rfl, ?_⟩
  change printed [.greeting, .prompt] = _
  rw [printed_cons]
  rfl

end RobotConsole.Session
