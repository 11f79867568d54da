import Mathlib.Data.List.DropRight
import Mathlib.Data.List.Forall2
import RobotConsole.Text.Blank
import RobotConsole.Text.LowerCase

/-!
Which texts become a word of small letters once the blanks at both ends are off and the rest is in
lower case.  Of all characters that have a lower case, only the capital letters from A to Z and the
Kelvin sign have one among the letters from a to z, so each character of such a text is the letter in
its place, or its capital, or a Kelvin sign for a k.
-/

namespace RobotConsole.Text

/-- A word is what a text has between the blanks at its ends. -/
structure Trims (cs word : List Char) : Prop where
  split : ∃ before after, cs = before ++ word ++ after ∧
    (∀ c ∈ before, isBlank c = true) ∧ ∀ c ∈ after, isBlank c = true
  head : ∀ c ∈ word.head?, isBlank c = false
  last : ∀ c ∈ word.getLast?, isBlank c = false

theorem trimStart_of_head {cs : List Char} (h : ∀ c ∈ cs.head?, isBlank c = false) :
    trimStart cs = cs := by
  cases cs with
  | nil => rfl
  | cons c cs => exact List.dropWhile_cons_of_neg (by rw [h c rfl]; exact Bool.false_ne_true)

theorem trimEnd_of_last {cs : List Char} (h : ∀ c ∈ cs.getLast?, isBlank c = false) :
    trimEnd cs = cs := by
  have hreverse : trimStart cs.reverse = cs.reverse :=
    trimStart_of_head fun c hc => h c (by rwa [List.head?_reverse] at hc)
  rw [trimEnd, ← trimStart, hreverse, List.reverse_reverse]

theorem trimEnd_append {word after : List Char} (h : ∀ c ∈ after, isBlank c = true) :
    trimEnd (word ++ after) = trimEnd word := by
  rw [trimEnd, List.reverse_append,
    List.dropWhile_append_of_pos fun c hc => h c (List.mem_reverse.1 hc), ← trimEnd]

theorem head_trimStart (cs : List Char) : ∀ c ∈ (trimStart cs).head?, isBlank c = false := by
  intro c hc
  have h := List.head?_dropWhile_not isBlank cs
  rwa [← trimStart, Option.mem_def.1 hc] at h

theorem exists_trimStart (cs : List Char) :
    ∃ before, cs = before ++ trimStart cs ∧ ∀ c ∈ before, isBlank c = true :=
  ⟨cs.takeWhile isBlank, List.takeWhile_append_dropWhile.symm, fun _ => List.mem_takeWhile_imp⟩

theorem exists_trimEnd (cs : List Char) :
    ∃ after, cs = trimEnd cs ++ after ∧ ∀ c ∈ after, isBlank c = true :=
  ⟨cs.rtakeWhile isBlank, List.rdropWhile_append_rtakeWhile.symm,
    fun _ => List.mem_rtakeWhile_imp⟩

theorem trims_iff {cs word : List Char} : Trims cs word ↔ trim cs = word := by
  constructor
  · rintro ⟨⟨before, after, rfl, hbefore, hafter⟩, hhead, hlast⟩
    rw [trim, trimStart, List.append_assoc, List.dropWhile_append_of_pos hbefore, ← trimStart]
    cases word with
    | nil =>
      rw [List.nil_append, trimStart, List.dropWhile_eq_nil_iff.2 hafter]
      rfl
    | cons c word =>
      have hstart : trimStart (c :: word ++ after) = c :: word ++ after := trimStart_of_head hhead
      rw [hstart, trimEnd_append hafter, trimEnd_of_last hlast]
  · rintro rfl
    obtain ⟨before, hstart, hbefore⟩ := exists_trimStart cs
    obtain ⟨after, hend, hafter⟩ := exists_trimEnd (trimStart cs)
    refine ⟨⟨before, after, ?_, hbefore, hafter⟩, fun c hc => ?_, fun c hc => ?_⟩
    · rw [trim, List.append_assoc, ← hend, ← hstart]
    · apply head_trimStart cs c
      rw [hend, List.head?_append, ← trim, Option.mem_def.1 hc]
      rfl
    · rw [trim, trimEnd, List.getLast?_reverse] at hc
      exact head_trimStart _ c hc

/-- A character stands for a small letter: the letter, its capital, or the Kelvin sign for k. -/
def Spells (letter c : Char) : Prop :=
  c = letter ∨ c = letter.toUpper ∨ (letter = 'k' ∧ c = '\u212A')

/-- The runs of the capital letters A to Z and of the Kelvin sign; all others lie beyond the first
hundred and twenty-eight characters, and so do their lower cases. -/
theorem caseRuns_cases : ∀ r ∈ caseRuns,
    (r.first = 0x41 ∧ r.last = 0x5A ∧ r.shift = 32) ∨
      (r.first = 0x212A ∧ r.last = 0x212A ∧ r.shift = -8383) ∨
      (0x7F < r.first ∧ 0x7F < r.first + r.shift) := by
  decide +kernel

theorem toNat_of_isLower {c : Char} (h : c.isLower = true) : 97 ≤ c.toNat ∧ c.toNat ≤ 122 := by
  have h : (decide ('a'.val ≤ c.val) && decide (c.val ≤ 'z'.val)) = true := h
  rw [Bool.and_eq_true, decide_eq_true_eq, decide_eq_true_eq] at h
  exact ⟨UInt32.le_iff_toNat_le.1 h.1, UInt32.le_iff_toNat_le.1 h.2⟩

theorem ofNat_ne_of_isLower {letter : Char} (h : letter.isLower = true) {n : Nat} (hn : 0x7F < n) :
    Char.ofNat n ≠ letter := by
  rintro rfl
  have hletter := toNat_of_isLower h
  by_cases hvalid : n.isValidChar
  · have hnat : (Char.ofNat n).toNat = n := by
      rw [Char.ofNat, dif_pos hvalid]
      rfl
    omega
  · have hnat : (Char.ofNat n).toNat = 0 := by
      rw [Char.ofNat, dif_neg hvalid]
      rfl
    omega

theorem exists_of_isLower {letter : Char} (h : letter.isLower = true) :
    ∃ n ∈ List.range' 97 26, letter = Char.ofNat n := by
  have hletter := toNat_of_isLower h
  exact ⟨letter.toNat, List.mem_range'_1.2 (by omega), (Char.ofNat_toNat letter).symm⟩

/-- A capital letter is so much before the small one. -/
theorem toUpper_of_capital : ∀ n ∈ List.range' 0x41 26,
    (Char.ofNat (n + 32)).toUpper = Char.ofNat n := by
  decide

theorem lowerChar_letters : ∀ n ∈ List.range' 97 26,
    lowerChar (Char.ofNat n) = [Char.ofNat n] ∧
      lowerChar (Char.ofNat n).toUpper = [Char.ofNat n] := by
  decide +kernel

theorem lowerChar_kelvin : lowerChar '\u212A' = ['k'] := by decide +kernel

theorem spells_of_run {letter c : Char} {r : CaseRun} (hr : r ∈ caseRuns)
    (hc : r.holds c.toNat = true) (hletter : letter.isLower = true)
    (h : Char.ofNat (r.lower c.toNat) = letter) : Spells letter c := by
  have hbounds : r.first ≤ c.toNat ∧ c.toNat ≤ r.last := by
    simp only [CaseRun.holds, Bool.and_eq_true, decide_eq_true_eq] at hc
    exact hc.1
  have hlower : r.lower c.toNat = (c.toNat + r.shift).toNat := rfl
  rcases caseRuns_cases r hr with ⟨hfirst, hlast, hshift⟩ | ⟨hfirst, hlast, hshift⟩ | ⟨-, hbeyond⟩
  · have hcapital := toUpper_of_capital c.toNat (List.mem_range'_1.2 (by omega))
    rw [show r.lower c.toNat = c.toNat + 32 by omega] at h
    rw [h, Char.ofNat_toNat] at hcapital
    exact Or.inr (Or.inl hcapital.symm)
  · have hkelvin : c.toNat = 0x212A := by omega
    rw [show r.lower c.toNat = 0x6B by omega] at h
    exact Or.inr (Or.inr ⟨h.symm, Char.toNat_inj.1 hkelvin⟩)
  · exact absurd h (ofNat_ne_of_isLower hletter (by omega))

theorem lowerChar_eq_iff {letter c : Char} (h : letter.isLower = true) :
    lowerChar c = [letter] ↔ Spells letter c := by
  constructor
  · intro hc
    unfold lowerChar at hc
    split at hc
    · cases hc
    · split at hc
      · next r hr =>
        have hholds := List.find?_some hr
        exact spells_of_run (List.mem_of_find?_eq_some hr) hholds h (List.cons.inj hc).1
      · exact Or.inl (List.cons.inj hc).1
  · obtain ⟨n, hn, rfl⟩ := exists_of_isLower h
    rintro (rfl | rfl | ⟨hk, rfl⟩)
    · exact (lowerChar_letters n hn).1
    · exact (lowerChar_letters n hn).2
    · rw [hk]
      exact lowerChar_kelvin

/-- The lower case of a capital I with a dot ends in a mark that is no letter. -/
theorem lowerChar_length (c : Char) : (∃ d, lowerChar c = [d]) ∨ '\u0307' ∈ lowerChar c := by
  unfold lowerChar
  split
  · exact Or.inr (by decide)
  · split
    · exact Or.inl ⟨_, rfl⟩
    · exact Or.inl ⟨_, rfl⟩

/-- A text is in lower case a word of small letters exactly if it spells the word. -/
theorem lowerCase_eq_iff {word cs : List Char} (h : ∀ letter ∈ word, letter.isLower = true) :
    lowerCase cs = word ↔ List.Forall₂ Spells word cs := by
  induction cs generalizing word with
  | nil => rw [List.forall₂_nil_right_iff, eq_comm]; rfl
  | cons c cs ih =>
    have hcons : lowerCase (c :: cs) = lowerChar c ++ lowerCase cs := rfl
    rw [hcons]
    rcases lowerChar_length c with ⟨d, hd⟩ | hmark
    · cases word with
      | nil => simp [hd]
      | cons letter word =>
        obtain ⟨hletter, hword⟩ := List.forall_mem_cons.1 h
        rw [List.forall₂_cons, ← lowerChar_eq_iff hletter, ← ih hword, hd, List.singleton_append,
          List.cons.injEq, List.cons.injEq]
        simp
    · have hno : '\u0307' ∉ word := fun hmem => absurd (h _ hmem) (by decide)
      constructor
      · rintro rfl
        exact absurd (List.mem_append_left _ hmark) hno
      · intro hspells
        obtain ⟨letter, rest, hfirst, -, rfl⟩ := List.forall₂_cons_right_iff.1 hspells
        rw [(lowerChar_eq_iff (h letter List.mem_cons_self)).2 hfirst] at hmark
        exact absurd (List.mem_singleton.1 hmark ▸ List.mem_cons_self) hno

theorem exists_letter {word cs : List Char} (h : List.Forall₂ Spells word cs) :
    ∀ c ∈ cs, ∃ letter ∈ word, Spells letter c := by
  induction h with
  | nil => exact fun c hc => absurd hc List.not_mem_nil
  | cons hfirst _ ih =>
    refine List.forall_mem_cons.2 ⟨⟨_, List.mem_cons_self, hfirst⟩, fun c hc => ?_⟩
    obtain ⟨letter, hletter, hc⟩ := ih c hc
    exact ⟨letter, List.mem_cons_of_mem _ hletter, hc⟩

/-- Nothing but letters from A to Z in either case and the Kelvin sign ever stands for a letter. -/
theorem isAlpha_of_spells {letter c : Char} (h : letter.isLower = true) (hc : Spells letter c) :
    c.isAlpha = true ∨ (letter = 'k' ∧ c = '\u212A') := by
  have hletters : ∀ n ∈ List.range' 97 26,
      (Char.ofNat n).isAlpha = true ∧ (Char.ofNat n).toUpper.isAlpha = true := by decide
  obtain ⟨n, hn, rfl⟩ := exists_of_isLower h
  rcases hc with rfl | rfl | hkelvin
  · exact Or.inl (hletters n hn).1
  · exact Or.inl (hletters n hn).2
  · exact Or.inr hkelvin

end RobotConsole.Text
