import RobotConsole.Proofs.Text.Spelling
import RobotConsole.Robot.Direction

/-!
The texts that name a direction.  Between blanks at both ends such a text spells the name letter by
letter, in either case; the one character beyond the letters A to Z that is ever taken is the Kelvin
sign in the place of the k of back.  Any other text is given back as it came, its blanks included.
-/

namespace RobotConsole.Direction

open Text

/-- What stands between the blanks at the ends of a text spells the name of a direction. -/
def IsNamed (d : Direction) (text : String) : Prop :=
  ∃ word, Trims text.toList word ∧ List.Forall₂ Spells d.name.toList word

theorem isLower_name (d : Direction) : ∀ letter ∈ d.name.toList, letter.isLower = true :=
  List.all_eq_true.1 (by cases d <;> rfl)

theorem ofName?_eq_some_iff {name : List Char} {d : Direction} :
    ofName? name = some d ↔ name = d.name.toList := by
  constructor
  · intro h
    have hname := List.find?_some h
    exact (of_decide_eq_true hname).symm
  · rintro rfl
    cases d <;> rfl

theorem ofText_eq_ok_iff {text : String} {d : Direction} :
    ofText text = .ok d ↔ d.IsNamed text := by
  have hok : ofText text = .ok d ↔ ofName? (lowerCase (trim text.toList)) = some d := by
    unfold ofText
    split
    · next e he => rw [he, Except.ok.injEq, Option.some.injEq]
    · next hnone => simp [hnone]
  rw [hok, ofName?_eq_some_iff, lowerCase_eq_iff d.isLower_name]
  constructor
  · exact fun h => ⟨_, trims_iff.2 rfl, h⟩
  · rintro ⟨word, hword, h⟩
    rwa [trims_iff.1 hword]

/-- A text that names no direction is told as a whole. -/
theorem ofText_eq_error {text : String} (h : ∀ d, ofText text ≠ .ok d) :
    ofText text = .error ⟨text⟩ := by
  unfold ofText at h ⊢
  split
  · next d hd =>
    rw [hd] at h
    exact absurd rfl (h d)
  · rfl

theorem eq_back_of_mem {d : Direction} (h : 'k' ∈ d.name.toList) : d = .back := by
  cases d with
  | back => rfl
  | forward | left | right => exact absurd h (by decide)

/-- A text is read as the direction that it names, of which there is one at most, and told as it is if
it names none.  Letter for letter it spells the name: no other character is taken, be it a blank, a
mark or a letter of another script. -/
theorem reads_named (text : String) :
    (∀ d, ofText text = .ok d ↔ d.IsNamed text) ∧
    (∀ e, ofText text = .error e ↔ e.input = text ∧ ∀ d : Direction, ¬ d.IsNamed text) ∧
    (∀ d d' : Direction, d.IsNamed text → d'.IsNamed text → d = d') ∧
    ∀ (d : Direction) word, Trims text.toList word → List.Forall₂ Spells d.name.toList word →
      word.length = d.name.length ∧
      ∀ c ∈ word, c.isAlpha = true ∨ (d = .back ∧ c = '\u212A') := by
  refine ⟨fun d => ofText_eq_ok_iff, fun e => ?_, fun d d' hd hd' => ?_, fun d word _ hspells => ?_⟩
  · simp only [← ofText_eq_ok_iff]
    constructor
    · intro he
      have hnone : ∀ d, ofText text ≠ .ok d := fun d hd => by rw [he] at hd; cases hd
      rw [ofText_eq_error hnone] at he
      exact ⟨by rw [← Except.error.inj he], hnone⟩
    · rintro ⟨rfl, hnone⟩
      exact ofText_eq_error hnone
  · rw [← ofText_eq_ok_iff] at hd hd'
    exact Except.ok.inj (hd.symm.trans hd')
  · refine ⟨hspells.length_eq.symm.trans String.length_toList, fun c hc => ?_⟩
    obtain ⟨letter, hletter, hc⟩ := exists_letter hspells c hc
    rcases isAlpha_of_spells (d.isLower_name letter hletter) hc with halpha | ⟨rfl, hkelvin⟩
    · exact Or.inl halpha
    · exact Or.inr ⟨eq_back_of_mem hletter, hkelvin⟩

/-- A Kelvin sign is taken, a dotless i is not. -/
example : ofText " bAc\u212A\n" = .ok .back ∧ ofText "r\u0131ght" = .error ⟨"r\u0131ght"⟩ := by
  constructor <;> rfl

end RobotConsole.Direction
