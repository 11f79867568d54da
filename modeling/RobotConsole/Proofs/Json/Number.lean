import RobotConsole.Json.Reader

/-!
Numbers in JSON documents.  A numeral is written as JSON where it has digits on both sides of its
point and no zero before its first digit; what is written so is read as the same numeral, if what
follows it cannot belong to a number.
-/

namespace RobotConsole

def IsDigits (ds : List Char) : Prop := ds ≠ [] ∧ ∀ c ∈ ds, c.isDigit = true

structure Numeral.IsJson (n : Numeral) : Prop where
  whole : IsDigits n.whole
  leading : n.whole.head? = some '0' → n.whole = ['0']
  fraction : ∀ ds ∈ n.fraction, IsDigits ds
  exponent : ∀ e ∈ n.exponent, IsDigits e.2

namespace Json

/-- No number goes on with this text. -/
def EndsNumber (rest : List Char) : Prop :=
  ∀ c ∈ rest.head?, c.isDigit = false ∧ c ≠ '.' ∧ c ≠ 'e' ∧ c ≠ 'E'

def EndsDigits (rest : List Char) : Prop := ∀ c ∈ rest.head?, c.isDigit = false

theorem endsNumber_nil : EndsNumber [] := by simp [EndsNumber]

theorem EndsNumber.endsDigits {rest : List Char} (h : EndsNumber rest) : EndsDigits rest :=
  fun c hc => (h c hc).1

theorem endsDigits_cons {c : Char} (rest : List Char) (h : c.isDigit = false) :
    EndsDigits (c :: rest) := by
  intro c' hc'
  rw [List.head?_cons, Option.mem_some_iff] at hc'
  rw [← hc', h]

theorem ne_of_isDigit {c d : Char} (hc : c.isDigit = true) (hd : d.isDigit = false) : c ≠ d := by
  rintro rfl
  rw [hc] at hd
  cases hd

theorem takeWhile_digits {ds rest : List Char} (h : ∀ c ∈ ds, c.isDigit = true)
    (hrest : EndsDigits rest) :
    (ds ++ rest).takeWhile Char.isDigit = ds ∧ (ds ++ rest).dropWhile Char.isDigit = rest := by
  rw [List.takeWhile_append_of_pos h, List.dropWhile_append_of_pos h]
  cases rest with
  | nil => simp
  | cons c rest =>
    have hc : c.isDigit = false := hrest c (by simp)
    simp [hc]

theorem readDigits_append {ds rest : List Char} (h : IsDigits ds) (hrest : EndsDigits rest) :
    readDigits (ds ++ rest) = some (ds, rest) := by
  obtain ⟨htake, hdrop⟩ := takeWhile_digits h.2 hrest
  rw [readDigits, htake, hdrop]
  exact if_neg h.1

theorem readExponent_append {e : Option (Bool × List Char)} {rest : List Char}
    (h : ∀ x ∈ e, IsDigits x.2) (hrest : EndsNumber rest) :
    readExponent (Numeral.exponentChars e ++ rest) = some (e, rest) := by
  cases e with
  | none =>
    cases rest with
    | nil => rfl
    | cons c rest =>
      obtain ⟨-, -, hlower, hupper⟩ := hrest c (by simp)
      simp [Numeral.exponentChars, readExponent, hlower, hupper]
  | some e =>
    obtain ⟨negative, ds⟩ := e
    have hds := readDigits_append (h _ rfl) hrest.endsDigits
    cases negative <;>
      simp [Numeral.exponentChars, readExponent, Numeral.splitSign, hds]

/-- What the exponent writes ends the digits before it. -/
theorem endsDigits_exponent {e : Option (Bool × List Char)} {rest : List Char}
    (hrest : EndsNumber rest) : EndsDigits (Numeral.exponentChars e ++ rest) := by
  cases e with
  | none => exact hrest.endsDigits
  | some e => exact endsDigits_cons _ (by decide)

theorem readFraction_append {f : Option (List Char)} {e : Option (Bool × List Char)}
    {rest : List Char} (h : ∀ ds ∈ f, IsDigits ds) (hrest : EndsNumber rest) :
    readFraction (Numeral.fractionChars f ++ (Numeral.exponentChars e ++ rest)) =
      some (f, Numeral.exponentChars e ++ rest) := by
  cases f with
  | some ds =>
    simp [Numeral.fractionChars, readFraction, readDigits_append (h ds rfl) (endsDigits_exponent hrest)]
  | none =>
    cases e with
    | some e => rfl
    | none =>
      cases rest with
      | nil => rfl
      | cons c rest =>
        obtain ⟨-, hpoint, -⟩ := hrest c (by simp)
        rw [readFraction.eq_def]
        split
        · next heq =>
          simp only [Numeral.fractionChars, Numeral.exponentChars, List.nil_append,
            List.cons.injEq] at heq
          exact absurd heq.1 hpoint
        · rfl

theorem endsDigits_fraction {f : Option (List Char)} {e : Option (Bool × List Char)}
    {rest : List Char} (hrest : EndsNumber rest) :
    EndsDigits (Numeral.fractionChars f ++ (Numeral.exponentChars e ++ rest)) := by
  cases f with
  | none => exact endsDigits_exponent hrest
  | some ds => exact endsDigits_cons _ (by decide)

theorem readNumber_append {n : Numeral} {rest : List Char} (h : n.IsJson)
    (hrest : EndsNumber rest) : readNumber (n.chars ++ rest) = some (n, rest) := by
  obtain ⟨negative, whole, fraction, exponent⟩ := n
  have hdigits := readDigits_append h.whole
    (endsDigits_fraction (f := fraction) (e := exponent) hrest)
  have hleading : ¬ (whole.head? = some '0' ∧ whole ≠ ['0']) := fun hzero =>
    hzero.2 (h.leading hzero.1)
  have hfraction := readFraction_append (e := exponent) h.fraction hrest
  have hexponent := readExponent_append h.exponent hrest
  simp only [Numeral.chars, List.append_assoc]
  cases negative with
  | true =>
    simp only [Numeral.signChars, if_true, List.cons_append, List.nil_append]
    rw [readNumber]
    simp only [hdigits, if_neg hleading, hfraction, hexponent, Option.map_some]
  | false =>
    simp only [Numeral.signChars, Bool.false_eq_true, if_false, List.nil_append]
    rw [readNumber]
    · simp only [hdigits, if_neg hleading, hfraction, hexponent, Option.map_some]
    · -- the text begins with a digit and not with a sign
      intro cs heq
      obtain ⟨c, ds, rfl⟩ := List.exists_cons_of_ne_nil h.whole.1
      rw [List.cons_append, List.cons.injEq] at heq
      exact ne_of_isDigit (h.whole.2 c (by simp)) (by decide) heq.1

end Json
end RobotConsole
