import RobotConsole.Proofs.Binary.Order
import RobotConsole.Proofs.Window.Drawing
import RobotConsole.Window.Loop

/-!
Runs of the render loop.  It draws exactly the frames before the first one in which a key ends it.
Each of them begins with a clear window; then the scene is brought forward once, and what is drawn
after that depicts the scene that has been brought forward once for every frame so far.
-/

namespace RobotConsole.RenderLoop

variable {σ : Type}

/-- The frames before the first one in which Escape or Q is pressed. -/
def shown (frames : List WindowFrame) : List WindowFrame :=
  frames.takeWhile fun f => ¬ ("Escape" ∈ f.pressed ∨ "Q" ∈ f.pressed)

/-- So long a frame lasts for the scene: no time where the seconds are negative or no number. -/
inductive Lasts (seconds : Single) : Duration → Prop where
  | fits {d : Duration} (h : Duration.ofSingle? seconds = some d) : Lasts seconds d
  | negative (h : seconds < 0) : Lasts seconds 0
  | noNumber (h : seconds.isNaN = true) : Lasts seconds 0

def brought (update : Duration → σ → Scene → Option (σ × Scene)) (x : σ × Scene)
    (times : List Duration) : Option (σ × Scene) :=
  times.foldlM (fun x d => update d x.1 x.2) x

theorem quits_iff (f : WindowFrame) :
    quits f = true ↔ "Escape" ∈ f.pressed ∨ "Q" ∈ f.pressed := by
  simp [quits, quitKeys]

theorem shown_of_quits {f : WindowFrame} (h : quits f = true) (rest : List WindowFrame) :
    shown (f :: rest) = [] := by
  have hpressed := (quits_iff f).1 h
  exact List.takeWhile_cons_of_neg (by simpa [or_iff_not_imp_left] using hpressed)

theorem shown_of_not_quits {f : WindowFrame} (h : ¬ quits f = true) (rest : List WindowFrame) :
    shown (f :: rest) = f :: shown rest := by
  rw [quits_iff] at h
  exact List.takeWhile_cons_of_pos (by simpa using h)

theorem ofSingle?_zero : Duration.ofSingle? 0 = some 0 := by decide

theorem ofSingle?_of_negative {x : Single} (h : x < 0) : Duration.ofSingle? x = none := by
  have hzero : (0 : Single).key = 0 := by decide
  obtain ⟨hnumber, -, hkey⟩ := Binary.lt_iff_key.1 h
  rw [hzero] at hkey
  cases x with
  | nan => cases hnumber
  | signed negative rank bounded =>
    simp only [Binary.key] at hkey
    split_ifs at hkey with hnegative
    · have hrank : negative = true ∧ rank ≠ 0 := ⟨hnegative, by omega⟩
      simp only [Duration.ofSingle?, if_pos hrank]
    · omega

/-- The loop passes on how long a frame lasts. -/
theorem delta?_eq_some_iff (f : WindowFrame) (d : Duration) :
    delta? f = some d ↔ Lasts f.seconds d := by
  unfold delta?
  rcases Binary.isNaN_or_lt_or_le f.seconds (b := 0) (by decide) with hnan | hneg | hle
  · rw [Binary.max_of_isNaN hnan, ofSingle?_zero]
    constructor
    · intro h
      cases h
      exact Lasts.noNumber hnan
    · intro h
      cases h with
      | fits h =>
        cases hseconds : f.seconds with
        | nan =>
          rw [hseconds] at h
          cases h
        | signed =>
          rw [hseconds] at hnan
          cases hnan
      | negative | noNumber => rfl
  · rw [Binary.max_of_lt hneg, ofSingle?_zero]
    constructor
    · intro h
      cases h
      exact Lasts.negative hneg
    · intro h
      cases h with
      | fits h =>
        rw [ofSingle?_of_negative hneg] at h
        cases h
      | negative | noNumber => rfl
  · rw [Binary.max_of_le hle]
    constructor
    · exact Lasts.fits
    · intro h
      cases h with
      | fits h => exact h
      | negative h => exact absurd hle (Binary.not_le_of_lt h)
      | noNumber h =>
        rw [(Binary.le_iff_key.1 hle).2.1] at h
        cases h

theorem brought_cons (update : Duration → σ → Scene → Option (σ × Scene)) (x : σ × Scene)
    (d : Duration) (times : List Duration) :
    brought update x (d :: times) =
      (update d x.1 x.2).bind fun x => brought update x times := by
  simp [brought, Option.bind_eq_bind]

section Steps

variable {clearColor : Color} {update : Duration → σ → Scene → Option (σ × Scene)} {state : σ}
  {scene : Scene} {f : WindowFrame} {rest : List WindowFrame}

theorem run_of_quits (h : quits f = true) :
    run clearColor update state scene (f :: rest) = some [] := by
  rw [run, if_pos h]

/-- What the loop does in one frame. -/
theorem run_cons_eq_some_iff (h : ¬ quits f = true) (drawn : List DrawnFrame) :
    run clearColor update state scene (f :: rest) = some drawn ↔
      ∃ d x later, Lasts f.seconds d ∧ update d state scene = some x ∧
        run clearColor update x.1 x.2 rest = some later ∧
        drawn = ⟨[.clear clearColor], d, x.2.draw f.width f.height⟩ :: later := by
  rw [run, if_neg h]
  constructor
  · intro hrun
    split at hrun
    · cases hrun
    · next d hd =>
      split at hrun
      · cases hrun
      · next state' scene' hupdate =>
        obtain ⟨later, hlater, rfl⟩ := Option.map_eq_some_iff.1 hrun
        exact ⟨d, (state', scene'), later, (delta?_eq_some_iff f d).1 hd, hupdate, hlater, rfl⟩
  · rintro ⟨d, x, later, hd, hupdate, hlater, rfl⟩
    simp only [(delta?_eq_some_iff f d).2 hd, hupdate, hlater, Option.map_some]

end Steps

section Runs

variable {clearColor : Color} {update : Duration → σ → Scene → Option (σ × Scene)}

/-- A run comes to its end unless a frame is too long or an update breaks off. -/
theorem run_isSome_iff (state : σ) (scene : Scene) (frames : List WindowFrame) :
    (run clearColor update state scene frames).isSome ↔
      ∃ times, List.Forall₂ (fun f d => Lasts f.seconds d) (shown frames) times ∧
        (brought update (state, scene) times).isSome := by
  induction frames generalizing state scene with
  | nil => simp [run, shown, brought]
  | cons f rest ih =>
    by_cases hquits : quits f = true
    · rw [run_of_quits hquits, shown_of_quits hquits]
      simp [brought]
    · rw [shown_of_not_quits hquits, Option.isSome_iff_exists]
      constructor
      · rintro ⟨drawn, hrun⟩
        obtain ⟨d, x, later, hd, hx, hlater, -⟩ := (run_cons_eq_some_iff hquits drawn).1 hrun
        obtain ⟨times, htimes, hbrought⟩ := (ih x.1 x.2).1 (Option.isSome_iff_exists.2 ⟨_, hlater⟩)
        refine ⟨d :: times, List.Forall₂.cons hd htimes, ?_⟩
        rw [brought_cons, hx]
        exact hbrought
      · rintro ⟨times, htimes, hbrought⟩
        cases htimes with
        | @cons _ d _ times hd htimes =>
          rw [brought_cons] at hbrought
          cases hx : update d state scene with
          | none => simp [hx] at hbrought
          | some x =>
            rw [hx] at hbrought
            have hrest := (ih x.1 x.2).2 ⟨times, htimes, hbrought⟩
            obtain ⟨later, hlater⟩ := Option.isSome_iff_exists.1 hrest
            exact ⟨_, (run_cons_eq_some_iff hquits _).2 ⟨d, x, later, hd, hx, hlater, rfl⟩⟩

/-- The frames drawn are those shown, and the scene of each has been brought forward by its time and
those of all before it. -/
theorem drawn_of_run {state : σ} {scene : Scene} {frames : List WindowFrame}
    {drawn : List DrawnFrame} (hrun : run clearColor update state scene frames = some drawn) :
    List.Forall₂ (fun f d => Lasts f.seconds d.delta) (shown frames) drawn ∧
    ∀ i f d, (shown frames)[i]? = some f → drawn[i]? = some d →
      d.ground = [.clear clearColor] ∧
      ∃ x, brought update (state, scene) ((drawn.take (i + 1)).map DrawnFrame.delta) = some x ∧
        d.picture = x.2.draw f.width f.height := by
  induction frames generalizing state scene drawn with
  | nil =>
    cases hrun
    exact ⟨List.Forall₂.nil, by simp [shown]⟩
  | cons f rest ih =>
    by_cases hquits : quits f = true
    · rw [run_of_quits hquits] at hrun
      cases hrun
      rw [shown_of_quits hquits]
      exact ⟨List.Forall₂.nil, by simp⟩
    · obtain ⟨d, x, later, hd, hx, hlater, rfl⟩ := (run_cons_eq_some_iff hquits drawn).1 hrun
      obtain ⟨htimes, hframes⟩ := ih hlater
      rw [shown_of_not_quits hquits]
      refine ⟨List.Forall₂.cons hd htimes, ?_⟩
      intro i g e hg he
      cases i with
      | zero =>
        cases hg
        cases he
        refine ⟨rfl, x, ?_, rfl⟩
        simp [brought, hx]
      | succ i =>
        obtain ⟨hground, y, hy, hpicture⟩ := hframes i g e hg he
        refine ⟨hground, y, ?_, hpicture⟩
        rw [List.take_succ_cons, List.map_cons, brought_cons, hx]
        exact hy

/-- A run draws exactly the frames before the first one that a key ends, unless a frame is too long
for a duration or an update breaks off.  In each of them the window is cleared, the scene is brought
forward once, by the time of the frame, and what is drawn then depicts that scene in a window of the
frame's size. -/
theorem run_depicts (state : σ) (scene : Scene) (frames : List WindowFrame) :
    ((run clearColor update state scene frames).isSome ↔
      ∃ times, List.Forall₂ (fun f d => Lasts f.seconds d) (shown frames) times ∧
        (brought update (state, scene) times).isSome) ∧
    ∀ drawn, run clearColor update state scene frames = some drawn →
      List.Forall₂ (fun f d => Lasts f.seconds d.delta) (shown frames) drawn ∧
      ∀ i f d, (shown frames)[i]? = some f → drawn[i]? = some d →
        d.ground = [.clear clearColor] ∧
        ∃ x, brought update (state, scene) ((drawn.take (i + 1)).map DrawnFrame.delta) = some x ∧
          ∃ behind front, Scene.Depicts x.2 (x.2.field.metrics f.width f.height) behind front
            d.picture := by
  refine ⟨run_isSome_iff state scene frames, ?_⟩
  intro drawn hrun
  obtain ⟨htimes, hframes⟩ := drawn_of_run hrun
  refine ⟨htimes, ?_⟩
  intro i f d hf hd
  obtain ⟨hground, x, hx, hpicture⟩ := hframes i f d hf hd
  refine ⟨hground, x, hx, ?_⟩
  rw [hpicture]
  exact Scene.depicts_draw x.2 f.width f.height

end Runs

end RobotConsole.RenderLoop
