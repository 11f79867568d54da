import RobotConsole.Proofs.Live.Run

/-!
What a stream does along every run.  Once it has ended it gives no frame until it is restarted,
since its limit stays used up and its token stays cancelled; and of the tokens only the one in use
counts, so a run without the cancellations of another one is the same.
-/

namespace RobotConsole

open LiveFrames

variable {σ φ : Type}

namespace LiveWorld

variable {w : LiveWorld} {token t : CancelToken} {looks : List Look} {m : Moment}

theorem contains_after (l : Look) (h : w.cancelled.contains token = true) :
    (w.after l).cancelled.contains token = true := by
  rw [List.contains_iff_mem] at h ⊢
  exact List.mem_append_right _ h

theorem contains_foldl (looks : List Look) (h : w.cancelled.contains token = true) :
    (looks.foldl after w).cancelled.contains token = true := by
  induction looks generalizing w with
  | nil => exact h
  | cons l looks ih => exact ih (contains_after l h)

/-- What was cancelled before a call is cancelled at each of its looks. -/
theorem cancelled_of_contains (h : w.cancelled.contains token = true)
    (hm : m ∈ w.moments looks) : m.cancelled token = true := by
  induction looks generalizing w with
  | nil => cases hm
  | cons l looks ih =>
    rcases List.mem_cons.1 hm with rfl | hm
    · exact contains_after l h
    · exact ih (contains_after l h) hm

/-- What is cancelled at a look of a call is cancelled after it. -/
theorem contains_of_cancelled (hm : m ∈ w.moments looks) (h : m.cancelled token = true) :
    (looks.foldl after w).cancelled.contains token = true := by
  induction looks generalizing w with
  | nil => cases hm
  | cons l looks ih =>
    rcases List.mem_cons.1 hm with rfl | hm
    · exact contains_foldl looks h
    · exact ih hm

end LiveWorld

namespace Showing

variable {p : Showing σ φ} {looks : List Look} {token : CancelToken}

/-- Whether a stream has ended: its limit is used up, or its token is cancelled and will be looked
at. -/
def Over (p : Showing σ φ) : Prop :=
  p.stream.remaining = some 0 ∨
    isBeyondClock p.stream.interval p.stream.lastFrame = false ∧
      p.world.cancelled.contains p.stream.token = true

theorem stream_act_next (h : ∀ content, p.call looks ≠ .frame content) :
    (p.act (.next looks)).stream = p.stream := by
  have hcalled := called_next p.stream (p.world.moments looks)
  simp only [call, act] at h ⊢
  generalize p.world.moments looks = ms at hcalled h ⊢
  generalize p.stream.next ms = result at hcalled h ⊢
  cases hcalled with
  | usedUp => rfl
  | brokenOff => rfl
  | stopped => rfl
  | drawn => exact absurd rfl (h _)
  | unfinished => rfl

theorem over_of_ended (h : p.call looks = .ended) : (p.act (.next looks)).Over := by
  have hstream : (p.act (.next looks)).stream = p.stream :=
    stream_act_next fun content hframe => by cases h.symm.trans hframe
  rw [Over, hstream]
  rcases next_eq_ended_iff.1 h with hlimit | ⟨hbeyond, pre, m, rest, hms, -, hcancelled⟩
  · exact Or.inl hlimit
  · have hm : m ∈ p.world.moments looks := by
      rw [hms]
      exact List.mem_append_right _ List.mem_cons_self
    exact Or.inr ⟨hbeyond, LiveWorld.contains_of_cancelled hm hcancelled⟩

theorem Over.ne_frame (h : p.Over) (looks : List Look) (content : φ) :
    p.call looks ≠ .frame content := by
  intro hframe
  obtain ⟨hlimit, -, -, pre, m, stamp, rest, hms, -, hactive, -⟩ := next_eq_frame_iff.1 hframe
  rcases h with hzero | ⟨-, hcancelled⟩
  · exact hlimit hzero
  · have hm : m ∈ p.world.moments looks := by
      rw [hms]
      exact List.mem_append_right _ List.mem_cons_self
    rw [LiveWorld.cancelled_of_contains hcancelled hm] at hactive
    cases hactive

theorem Over.call_cons (h : p.Over) (l : Look) (looks : List Look) :
    p.call (l :: looks) = .ended := by
  refine next_eq_ended_iff.2 (h.imp_right fun ⟨hbeyond, hcancelled⟩ => ?_)
  exact ⟨hbeyond, [], _, _, rfl, by simp, LiveWorld.contains_after l hcancelled⟩

theorem Over.run (h : p.Over) {acts : List LiveAct} (hacts : ∀ token, .restart token ∉ acts) :
    (p.run acts).Over := by
  induction acts generalizing p with
  | nil => exact h
  | cons act acts ih =>
    have hrest : ∀ token, .restart token ∉ acts :=
      fun token hmem => hacts token (List.mem_cons_of_mem _ hmem)
    refine ih ?_ hrest
    cases act with
    | next looks =>
      rw [Over, stream_act_next (h.ne_frame looks)]
      exact h.imp_right (And.imp_right (LiveWorld.contains_foldl looks))
    | cancel token => exact h.imp_right (And.imp_right (LiveWorld.contains_after _))
    | restart token => exact absurd List.mem_cons_self (hacts token)

end Showing

/-! A world in which a token is never cancelled. -/

def Look.without (token : CancelToken) (l : Look) : Look :=
  { l with cancels := l.cancels.filter (· != token) }

def LiveWorld.without (token : CancelToken) (w : LiveWorld) : LiveWorld :=
  { w with cancelled := w.cancelled.filter (· != token) }

def LiveAct.without (token : CancelToken) : LiveAct → Option LiveAct
  | .next looks => some (.next (looks.map (Look.without token)))
  | .cancel t => if t = token then none else some (.cancel t)
  | .restart t => some (.restart t)

def Showing.without (token : CancelToken) (p : Showing σ φ) : Showing σ φ :=
  { p with world := p.world.without token }

namespace LiveWorld

variable {token t : CancelToken}

theorem without_after (w : LiveWorld) (l : Look) :
    (w.after l).without token = (w.without token).after (l.without token) := by
  simp only [after, without, Look.without, List.filter_append]

theorem without_foldl (w : LiveWorld) (looks : List Look) :
    (looks.foldl after w).without token =
      (looks.map (Look.without token)).foldl after (w.without token) := by
  induction looks generalizing w with
  | nil => rfl
  | cons l looks ih => rw [List.foldl_cons, ih, without_after, List.map_cons, List.foldl_cons]

/-- Another token does not see the difference. -/
theorem ofToken_moments_without (h : t ≠ token) (w : LiveWorld) (looks : List Look) :
    ((w.without token).moments (looks.map (Look.without token))).map (ofToken t) =
      (w.moments looks).map (ofToken t) := by
  induction looks generalizing w with
  | nil => rfl
  | cons l looks ih =>
    rw [List.map_cons, moments, moments, ← without_after, List.map_cons, List.map_cons, ih]
    have hcontains : (((w.after l).without token).cancelled).contains t =
        (w.after l).cancelled.contains t := by
      rw [Bool.eq_iff_iff, List.contains_iff_mem, List.contains_iff_mem, without, List.mem_filter]
      simp [h]
    simp only [ofToken, moment, hcontains]
    rfl

end LiveWorld

namespace Showing

variable {p : Showing σ φ} {token : CancelToken}

theorem act_next_without (h : p.stream.token ≠ token) (looks : List Look) :
    (p.without token).act (.next (looks.map (Look.without token))) =
      (p.act (.next looks)).without token := by
  have hms := LiveWorld.ofToken_moments_without h p.world looks
  have hnext := congrArg p.stream.next hms
  rw [next_ofToken, next_ofToken, Prod.mk.injEq, Prod.mk.injEq] at hnext
  obtain ⟨hresult, hstream, hrest⟩ := hnext
  have hlength := congrArg List.length hms
  have hunused := congrArg List.length hrest
  simp only [List.length_map] at hlength hunused
  have hnow := congrArg (List.map Moment.now) hms
  simp only [List.map_map, Function.comp_def, ofToken] at hnow
  simp only [act, without, List.map_take, hnow, hlength, hunused, hresult, hstream,
    LiveWorld.without_foldl]

theorem token_act_next (p : Showing σ φ) (looks : List Look) :
    (p.act (.next looks)).stream.token = p.stream.token := by
  have hcalled := called_next p.stream (p.world.moments looks)
  simp only [act]
  generalize p.world.moments looks = ms at hcalled ⊢
  generalize p.stream.next ms = result at hcalled ⊢
  cases hcalled <;> rfl

/-- A run without the cancellations of a token that it does not use is the same. -/
theorem run_without (h : p.stream.token ≠ token) {acts : List LiveAct}
    (hacts : .restart token ∉ acts) :
    (p.without token).run (acts.filterMap (LiveAct.without token)) =
      (p.run acts).without token := by
  induction acts generalizing p with
  | nil => rfl
  | cons act acts ih =>
    rw [List.mem_cons, not_or] at hacts
    cases act with
    | next looks =>
      have hrest := ih (p := p.act (.next looks)) (by rwa [token_act_next]) hacts.2
      rwa [← act_next_without h] at hrest
    | cancel t =>
      have hrest := ih (p := p.act (.cancel t)) h hacts.2
      by_cases ht : t = token
      · have hsame : (p.act (.cancel t)).without token = p.without token := by
          simp [act, without, LiveWorld.after, LiveWorld.without, ht]
        rw [hsame] at hrest
        rw [List.filterMap_cons_none (by rw [LiveAct.without, if_pos ht])]
        exact hrest
      · have hcancel : (p.act (.cancel t)).without token = (p.without token).act (.cancel t) := by
          simp [act, without, LiveWorld.after, LiveWorld.without, ht]
        rw [hcancel] at hrest
        rw [List.filterMap_cons_some (by rw [LiveAct.without, if_neg ht])]
        exact hrest
    | restart t =>
      have hne : t ≠ token := fun heq => hacts.1 (heq ▸ rfl)
      exact ih (p := p.act (.restart t)) hne hacts.2

theorem filterMap_without (token : CancelToken) (acts : List LiveAct) :
    (acts.filterMap (LiveAct.without token)).filterMap (LiveAct.without token) =
      acts.filterMap (LiveAct.without token) := by
  rw [List.filterMap_filterMap]
  congr 1
  funext act
  cases act with
  | next looks =>
    simp [LiveAct.without, Function.comp_def, Look.without]
  | cancel t => by_cases ht : t = token <;> simp [LiveAct.without, ht]
  | restart t => rfl

/-- Cancelling a token that a run does not use changes nothing. -/
theorem log_run_without (h : p.stream.token ≠ token) {acts : List LiveAct}
    (hacts : .restart token ∉ acts) :
    (p.run (acts.filterMap (LiveAct.without token))).log = (p.run acts).log := by
  have hrun := run_without h hacts
  have hacts' : LiveAct.restart token ∉ acts.filterMap (LiveAct.without token) := by
    intro hmem
    obtain ⟨act, hact, hwithout⟩ := List.mem_filterMap.1 hmem
    cases act with
    | next looks => cases hwithout
    | cancel t =>
      rw [LiveAct.without] at hwithout
      split at hwithout <;> cases hwithout
    | restart t =>
      cases hwithout
      exact hacts hact
  have hrun' := run_without h hacts'
  rw [filterMap_without, hrun] at hrun'
  exact (congrArg Showing.log hrun').symm

end Showing

namespace LiveFrames

/-- What a stream that was made as `start` does after a run, of which the log is known. -/
structure Behaves (start : LiveFrames σ φ) (p : Showing σ φ) : Prop where
  /-- There were no more frames since the last restart than the limit, and the rest is left. -/
  within : ∀ n, start.limit = some n → framesSince p.log ≤ n
  remaining : p.stream.remaining = start.limit.map (· - framesSince p.log)
  /-- Each frame was rendered once, and nothing else was. -/
  rendered : shown p.log =
    (List.range (shown p.log).length).map fun k => (start.render (start.stateAfter k)).1
  state : p.stream.state = start.stateAfter (shown p.log).length
  /-- A call ends the program exactly if a frame is left that would be due after the last instant that
  there is.  Nothing is then rendered or looked at. -/
  brokenOff : ∀ looks, p.call looks = .brokenOff ↔
    start.limit ≠ some (framesSince p.log) ∧ isBeyondClock start.interval (lastDrawn p.log) = true
  /-- The stream ends exactly if the limit is used up, or the token in use is found cancelled at a
  look before the frame is released. -/
  ended : ∀ looks, p.call looks = .ended ↔
    start.limit = some (framesSince p.log) ∨
      isBeyondClock start.interval (lastDrawn p.log) = false ∧ ∃ pre m rest,
        p.world.moments looks = pre ++ m :: rest ∧
        (∀ x ∈ pre, Idle (tokenInUse start.token p.log) start.interval (lastDrawn p.log) x) ∧
        m.cancelled (tokenInUse start.token p.log) = true
  /-- It gives its next frame exactly if the limit is not used up, and the first look at which the
  interval has passed since the last frame does not find the token cancelled. -/
  frame : ∀ looks content, p.call looks = .frame content ↔
    start.limit ≠ some (framesSince p.log) ∧
      isBeyondClock start.interval (lastDrawn p.log) = false ∧
      content = (start.render (start.stateAfter (shown p.log).length)).1 ∧
      ∃ pre m stamp rest, p.world.moments looks = pre ++ m :: stamp :: rest ∧
        (∀ x ∈ pre, Idle (tokenInUse start.token p.log) start.interval (lastDrawn p.log) x) ∧
        m.cancelled (tokenInUse start.token p.log) = false ∧
        due start.interval (lastDrawn p.log) m.now = true
  /-- The first frame after the start or a restart is due at once. -/
  first : framesSince p.log = 0 → isBeyondClock start.interval (lastDrawn p.log) = false ∧
    ∀ now, due start.interval (lastDrawn p.log) now = true
  /-- Any other one is due when the interval has passed since the last one was drawn, if there is such
  an instant. -/
  later : framesSince p.log ≠ 0 → ∃ last, lastDrawn p.log = some last ∧
    (isBeyondClock start.interval (lastDrawn p.log) = true ↔
      Instant.limit ≤ last + start.interval) ∧
    ∀ now, due start.interval (lastDrawn p.log) now = true ↔ last + start.interval ≤ now
  /-- An ended stream gives no frame, and ends at once, until it is restarted. -/
  stays : ∀ looks, p.call looks = .ended → ∀ acts, (∀ token, .restart token ∉ acts) →
    (∀ looks' content, ((p.act (.next looks)).run acts).call looks' ≠ .frame content) ∧
      ∀ look looks', ((p.act (.next looks)).run acts).call (look :: looks') = .ended
  /-- A restart gives the full limit again, and a token. -/
  rearmed : ∀ token, (p.act (.restart token)).stream.remaining = start.limit ∧
    (p.act (.restart token)).stream.token = token ∧ framesSince (p.act (.restart token)).log = 0
  /-- A token that is not in use, and is not given to the stream later, has no effect. -/
  replaced : ∀ token, token ≠ tokenInUse start.token p.log → ∀ acts, .restart token ∉ acts →
    (p.run (acts.filterMap (LiveAct.without token))).log = (p.run acts).log

/-- So it does whenever frames are asked for, tokens are cancelled and it is restarted. -/
theorem behaves_of_run (render : σ → φ × σ) (state : σ) (interval : Duration)
    (limit : Option Nat) (token : CancelToken) (world : LiveWorld) (acts : List LiveAct) :
    Behaves (.new render state interval limit token)
      (Showing.run ⟨.new render state interval limit token, world, []⟩ acts) := by
  have h := follows_run (follows_start render state interval limit token world) acts
  generalize hp : Showing.run ⟨_, world, []⟩ acts = p at h ⊢
  generalize LiveFrames.new render state interval limit token = start at h ⊢
  have hzero := remaining_eq_zero_iff h
  have hremaining : p.stream.remaining = start.limit.map (· - framesSince p.log) := by
    rw [h.stream]
    rfl
  have htoken : p.stream.token = tokenInUse start.token p.log := by rw [h.stream]; rfl
  have hstate : p.stream.state = start.stateAfter (shown p.log).length := by rw [h.stream]; rfl
  have hrender : p.stream.render = start.render := by rw [h.stream]; rfl
  have hinterval : p.stream.interval = start.interval := by rw [h.stream]; rfl
  have hlast : p.stream.lastFrame = lastDrawn p.log := by rw [h.stream]; rfl
  exact {
    within := h.within
    remaining := hremaining
    rendered := h.rendered
    state := hstate
    brokenOff := fun looks => by
      rw [ne_eq, ← hzero, ← hinterval, ← hlast]
      exact next_eq_brokenOff_iff
    ended := fun looks => by
      rw [← hzero, ← htoken, ← hinterval, ← hlast]
      exact next_eq_ended_iff
    frame := fun looks content => by
      rw [ne_eq, ← hzero, ← htoken, ← hinterval, ← hlast, ← hstate, ← hrender]
      exact next_eq_frame_iff
    first := fun hnone => by
      rw [h.dated.2 hnone]
      exact ⟨rfl, fun _ => rfl⟩
    later := fun hsome => by
      obtain ⟨last, hdrawn⟩ := Option.ne_none_iff_exists'.1 (h.dated.not.2 hsome)
      refine ⟨last, hdrawn, ?_, fun now => ?_⟩
      · rw [hdrawn, isBeyondClock, Option.any_some, decide_eq_true_eq]
      · rw [hdrawn, due, Option.all_some, decide_eq_true_eq]
    stays := fun looks hended acts hacts =>
      have hover := (Showing.over_of_ended hended).run hacts
      ⟨hover.ne_frame, hover.call_cons⟩
    rearmed := fun token => by
      have hrestart := follows_restart h token
      rw [hrestart.stream]
      refine ⟨?_, rfl, rfl⟩
      cases hstart : start.limit <;> simp [following, Showing.act, framesSince, hstart]
    replaced := fun token hne acts hacts => Showing.log_run_without (htoken ▸ hne.symm) hacts }

/-- With the longest interval there is no second frame, and no look at the token either. -/
example : Showing.call (Showing.run
    ⟨.new (fun k => (k, k + 1)) 0 (Duration.limit - 1) none 0, ⟨[], 0⟩, []⟩
    [.next [⟨[], 0⟩, ⟨[], 0⟩], .cancel 0]) [⟨[], 0⟩] = .brokenOff := by
  decide

end LiveFrames
end RobotConsole
