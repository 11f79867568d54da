import Mathlib.Data.List.Basic
import RobotConsole.CommandLine.Reading

/-!
How the words after a command's name are laid out.  A word that begins with a dash is an option,
unless it can only be a negative number and a number is due; after a word `--` there are no options
any more.  A command line is read without fault exactly where its words have such a layout, in which
every place and the option of the command take words that they can be read from.
-/

namespace RobotConsole.CommandLine

section NegativeNumbers

variable {started : Bool} {points : Nat} {c : Char} {cs letters : Word}

def IsExponentMark (c : Char) : Prop := c = 'e' ∨ c = 'E'

instance (c : Char) : Decidable (IsExponentMark c) := inferInstanceAs (Decidable (_ ∨ _))

/-- Letters that a number goes on with: digits, with points before any exponent, and at most one
exponent, which is not last.  The arguments say whether the number has begun, since its first letter
is a digit, and how many points may still come. -/
structure Continues (started : Bool) (points : Nat) (letters : Word) : Prop where
  chars : ∀ c ∈ letters, c.isDigit ∨ c = '.' ∨ IsExponentMark c
  first : started = false → ∀ c ∈ letters.head?, c.isDigit
  last : ∀ c ∈ letters.getLast?, ¬ IsExponentMark c
  points : letters.count '.' ≤ points
  exponents : letters.countP (IsExponentMark ·) ≤ 1
  pointsBefore : letters.Pairwise fun a b => IsExponentMark a → b ≠ '.'

def IsNegativeNumber (letters : Word) : Prop := Continues false 1 letters

theorem continues_iff : Continues started points letters ↔
    (∀ c ∈ letters, c.isDigit ∨ c = '.' ∨ IsExponentMark c) ∧
      (started = false → ∀ c ∈ letters.head?, c.isDigit) ∧
      (∀ c ∈ letters.getLast?, ¬ IsExponentMark c) ∧ letters.count '.' ≤ points ∧
      letters.countP (IsExponentMark ·) ≤ 1 ∧
      letters.Pairwise fun a b => IsExponentMark a → b ≠ '.' := by
  constructor
  · rintro ⟨hchars, hfirst, hlast, hpoints, hexponents, hbefore⟩
    exact ⟨hchars, hfirst, hlast, hpoints, hexponents, hbefore⟩
  · rintro ⟨hchars, hfirst, hlast, hpoints, hexponents, hbefore⟩
    exact ⟨hchars, hfirst, hlast, hpoints, hexponents, hbefore⟩

theorem forall_getLast?_cons {p : Char → Prop} :
    (∀ x, (c :: cs).getLast? = some x → p x) ↔
      (cs = [] → p c) ∧ ∀ x, cs.getLast? = some x → p x := by
  cases cs with
  | nil => simp
  | cons d ds => simp [List.getLast?_cons_cons]

theorem not_mark_of_isDigit (h : c.isDigit = true) : ¬ IsExponentMark c := by
  rintro (rfl | rfl) <;> exact absurd h (by decide)

theorem ne_point_of_isDigit (h : c.isDigit = true) : c ≠ '.' := by
  rintro rfl
  exact absurd h (by decide)

theorem continues_nil : Continues started points [] := by
  constructor <;> simp

theorem continues_digit (h : c.isDigit = true) :
    Continues started points (c :: cs) ↔ Continues true points cs := by
  have hmark := not_mark_of_isDigit h
  have hpoint := ne_point_of_isDigit h
  simp [continues_iff, forall_getLast?_cons, h, hmark, hpoint]

theorem continues_point :
    Continues started points ('.' :: cs) ↔
      started = true ∧ 0 < points ∧ Continues true (points - 1) cs := by
  have hmark : ¬ IsExponentMark '.' := by decide
  have hdigit : '.'.isDigit = false := by decide
  have hcount : cs.count '.' + 1 ≤ points ↔ 0 < points ∧ cs.count '.' ≤ points - 1 := by omega
  simp [continues_iff, forall_getLast?_cons, hmark, hdigit, hcount]
  tauto

theorem continues_mark (h : IsExponentMark c) :
    Continues started points (c :: cs) ↔
      started = true ∧ cs ≠ [] ∧ ∀ d ∈ cs, d.isDigit = true := by
  have hdigit : c.isDigit = false := by rcases h with rfl | rfl <;> rfl
  constructor
  · intro hc
    have hexponents := hc.exponents
    simp only [List.countP_cons, h, decide_true, if_true] at hexponents
    refine ⟨?_, ?_, fun d hd => ?_⟩
    · by_contra hstarted
      exact absurd (hc.first (by simpa using hstarted) c rfl) (by simp [hdigit])
    · rintro rfl
      exact hc.last c rfl h
    · have hpoints := (List.pairwise_cons.1 hc.pointsBefore).1 d hd h
      have hmark : ¬ IsExponentMark d := by
        have hnone : cs.countP (IsExponentMark ·) = 0 := by omega
        simpa using List.countP_eq_zero.1 hnone d hd
      rcases hc.chars d (List.mem_cons_of_mem c hd) with hd' | hd' | hd'
      · exact hd'
      · exact absurd hd' hpoints
      · exact absurd hd' hmark
  · rintro ⟨hstarted, hne, hdigits⟩
    have hpoint : '.' ∉ c :: cs := by
      rintro hmem
      rcases List.mem_cons.1 hmem with rfl | hmem
      · exact absurd h (by decide)
      · exact ne_point_of_isDigit (hdigits _ hmem) rfl
    have hnone : cs.countP (IsExponentMark ·) = 0 :=
      List.countP_eq_zero.2 fun d hd => by simpa using not_mark_of_isDigit (hdigits d hd)
    refine ⟨?_, ?_, ?_, ?_, ?_, ?_⟩
    · exact List.forall_mem_cons.2 ⟨Or.inr (Or.inr h), fun d hd => Or.inl (hdigits d hd)⟩
    · simp [hstarted]
    · exact forall_getLast?_cons.2 ⟨fun hnil => absurd hnil hne, fun d hd =>
        not_mark_of_isDigit (hdigits d (List.mem_of_getLast? hd))⟩
    · rw [List.count_eq_zero.2 hpoint]
      exact Nat.zero_le _
    · rw [List.countP_cons, hnone]
      split <;> omega
    · exact List.pairwise_cons.2 ⟨fun d hd _ => ne_point_of_isDigit (hdigits d hd),
        List.pairwise_of_forall_mem_list fun _ _ d hd _ => ne_point_of_isDigit (hdigits d hd)⟩

/-- The reader takes a word for a negative number by these rules. -/
theorem isNegativeNumber_iff_continues {pointAllowed : Bool} :
    isNegativeNumber started pointAllowed letters = true ↔
      Continues started pointAllowed.toNat letters := by
  induction letters generalizing started pointAllowed with
  | nil => simp [isNegativeNumber, continues_nil]
  | cons c cs ih =>
    rw [isNegativeNumber]
    by_cases hdigit : c.isDigit = true
    · rw [if_pos hdigit, continues_digit hdigit, ih]
    · rw [if_neg hdigit]
      by_cases hpoint : c = '.'
      · subst hpoint
        rw [if_pos rfl, continues_point, Bool.and_eq_true, Bool.and_eq_true, ih]
        cases pointAllowed <;> simp
      · rw [if_neg hpoint]
        by_cases hmark : IsExponentMark c
        · rw [continues_mark hmark]
          have hmark' : (c = 'e' || c = 'E') = true := by simpa [IsExponentMark] using hmark
          simp [hmark', and_assoc]
        · constructor
          · intro h
            simp only [Bool.and_eq_true, Bool.or_eq_true, decide_eq_true_eq] at h
            exact absurd h.1.1.1 hmark
          · intro h
            rcases h.chars c (by simp) with h | h | h
            · exact absurd h hdigit
            · exact absurd h hpoint
            · exact absurd h hmark

end NegativeNumbers

/-- A word that begins with a dash and goes on. -/
def IsDashed (w : Word) : Prop := ∃ letters, letters ≠ [] ∧ w = '-' :: letters

def optionWord (name : Word) : Option Word → Word
  | none => '-' :: '-' :: name
  | some value => '-' :: '-' :: name ++ '=' :: value

/-- The words of a command, where places of these kinds are due: which words come into places, and
which are given for the option. -/
inductive Laid (option : Word) : List ValueKind → List Word → List Word → List Word → Prop
  | done {due : List ValueKind} : Laid option due [] [] []
  /-- All later words come into places. -/
  | escaped {due : List ValueKind} {ws : List Word} : Laid option due (['-', '-'] :: ws) ws []
  | plain {due : List ValueKind} {w : Word} {ws placed given : List Word} (hw : ¬ IsDashed w)
      (h : Laid option due.tail ws placed given) : Laid option due (w :: ws) (w :: placed) given
  | negative {due : List ValueKind} {letters : Word} {ws placed given : List Word}
      (hne : letters ≠ []) (hletters : IsNegativeNumber letters)
      (h : Laid option due ws placed given) :
      Laid option (.float :: due) (('-' :: letters) :: ws) (('-' :: letters) :: placed) given
  | option {due : List ValueKind} {value : Word} {ws placed given : List Word}
      (h : Laid option due ws placed given) :
      Laid option due (optionWord option none :: value :: ws) placed (value :: given)
  | attached {due : List ValueKind} {value : Word} {ws placed given : List Word}
      (h : Laid option due ws placed given) :
      Laid option due (optionWord option (some value) :: ws) placed (value :: given)

section Shapes

variable {w letters name : Word}

def Shape.Fits (w : Word) : Shape → Prop
  | .escape => w = ['-', '-']
  | .long name value => w = optionWord name value
  | .short letters => letters ≠ [] ∧ w = '-' :: letters
  | .plain => ¬ IsDashed w

theorem fits_shape (w : Word) : (shape w).Fits w := by
  rw [shape.eq_def]
  split
  · rfl
  · next rest _ =>
    have hsplit := List.takeWhile_append_dropWhile (p := (· ≠ '=')) (l := rest)
    split
    · next hdrop =>
      rfl
    · next c value hdrop =>
      have hc : c = '=' := by
        have := List.head?_dropWhile_not (p := (· ≠ '=')) rest
        rw [hdrop] at this
        simpa using this
      rw [hdrop, hc] at hsplit
      rw [Shape.Fits, optionWord, List.cons_append, List.cons_append, hsplit]
  · rintro ⟨letters, hne, hw⟩
    exact hne (List.cons.inj hw).2.symm
  · next letters _ _ hne =>
    exact ⟨fun hnil => hne (hnil ▸ rfl), rfl⟩
  · next hw =>
    rintro ⟨letters, -, rfl⟩
    exact hw letters rfl

theorem shape_of_not_dashed (h : ¬ IsDashed w) : shape w = .plain := by
  have hfits := fits_shape w
  cases hshape : shape w with
  | escape =>
    rw [hshape] at hfits
    exact absurd ⟨['-'], by simp, hfits⟩ h
  | long name value =>
    rw [hshape] at hfits
    refine absurd ?_ h
    cases value with
    | none => exact ⟨'-' :: name, by simp, hfits⟩
    | some value => exact ⟨'-' :: name ++ '=' :: value, by simp, hfits⟩
  | short letters =>
    rw [hshape] at hfits
    exact absurd ⟨letters, hfits⟩ h
  | plain => rfl

theorem shape_negative (hne : letters ≠ []) (h : IsNegativeNumber letters) :
    shape ('-' :: letters) = .short letters := by
  obtain ⟨c, cs, rfl⟩ := List.exists_cons_of_ne_nil hne
  have hdash : c ≠ '-' := by
    rintro rfl
    exact absurd (h.first rfl '-' rfl) (by decide)
  rw [shape.eq_def]
  split <;> simp_all

theorem shape_dashes (hne : name ≠ []) :
    shape ('-' :: '-' :: name) =
      match name.dropWhile (· ≠ '=') with
      | [] => .long name none
      | _ :: value => .long (name.takeWhile (· ≠ '=')) (some value) := by
  obtain ⟨c, cs, rfl⟩ := List.exists_cons_of_ne_nil hne
  rfl

theorem shape_optionWord {value : Option Word} (hne : name ≠ []) (hname : '=' ∉ name) :
    shape (optionWord name value) = .long name value := by
  have hall : ∀ c ∈ name, (decide (c ≠ '=')) = true := by
    intro c hc
    have : c ≠ '=' := fun heq => hname (heq ▸ hc)
    simpa using this
  cases value with
  | none =>
    have hdrop : (name ++ []).dropWhile (· ≠ '=') = [] := List.dropWhile_append_of_pos hall
    rw [List.append_nil] at hdrop
    rw [optionWord, shape_dashes hne, hdrop]
  | some value =>
    have hdrop : (name ++ '=' :: value).dropWhile (· ≠ '=') = '=' :: value := by
      rw [List.dropWhile_append_of_pos hall, List.dropWhile_cons_of_neg (by simp)]
    have htake : (name ++ '=' :: value).takeWhile (· ≠ '=') = name := by
      rw [List.takeWhile_append_of_pos hall, List.takeWhile_cons_of_neg (by simp), List.append_nil]
    rw [optionWord, List.cons_append, List.cons_append,
      shape_dashes (List.append_ne_nil_of_left_ne_nil hne _), hdrop, htake]

end Shapes

section Layouts

variable {option : Word} {due : List ValueKind} {w : Word} {ws placed given : List Word}

/-- How a layout begins is told by the shape of its first word. -/
theorem laid_cons_iff (hne : option ≠ []) (hoption : '=' ∉ option) :
    Laid option due (w :: ws) placed given ↔
      match shape w with
      | .escape => placed = ws ∧ given = []
      | .long name none =>
        name = option ∧ ∃ value rest more,
          ws = value :: rest ∧ given = value :: more ∧ Laid option due rest placed more
      | .long name (some value) =>
        name = option ∧ ∃ more, given = value :: more ∧ Laid option due ws placed more
      | .short letters =>
        ∃ kinds more, due = .float :: kinds ∧ IsNegativeNumber letters ∧ placed = w :: more ∧
          Laid option kinds ws more given
      | .plain => ∃ more, placed = w :: more ∧ Laid option due.tail ws more given := by
  constructor
  · intro h
    cases h with
    | escaped => exact ⟨rfl, rfl⟩
    | plain hw h =>
      rw [shape_of_not_dashed hw]
      exact ⟨_, rfl, h⟩
    | negative hletters hnumber h =>
      rw [shape_negative hletters hnumber]
      exact ⟨_, _, rfl, hnumber, rfl, h⟩
    | option h =>
      rw [shape_optionWord hne hoption]
      exact ⟨rfl, _, _, _, rfl, rfl, h⟩
    | attached h =>
      rw [shape_optionWord hne hoption]
      exact ⟨rfl, _, rfl, h⟩
  · intro h
    have hfits := fits_shape w
    cases hshape : shape w with
    | escape =>
      rw [hshape] at h hfits
      obtain ⟨rfl, rfl⟩ := h
      rw [show w = ['-', '-'] from hfits]
      exact .escaped
    | long name value =>
      rw [hshape] at h hfits
      rw [show w = optionWord name value from hfits]
      cases value with
      | none =>
        obtain ⟨rfl, value, rest, more, rfl, rfl, h⟩ := h
        exact .option h
      | some value =>
        obtain ⟨rfl, more, rfl, h⟩ := h
        exact .attached h
    | short letters =>
      rw [hshape] at h hfits
      obtain ⟨kinds, more, rfl, hnumber, rfl, h⟩ := h
      obtain ⟨hletters, rfl⟩ := hfits
      exact .negative hletters hnumber h
    | plain =>
      rw [hshape] at h hfits
      obtain ⟨more, rfl, h⟩ := h
      exact .plain hfits h

theorem laid_nil_iff : Laid option due [] placed given ↔ placed = [] ∧ given = [] := by
  constructor
  · intro h
    cases h
    exact ⟨rfl, rfl⟩
  · rintro ⟨rfl, rfl⟩
    exact .done

end Layouts

end RobotConsole.CommandLine
