import Mathlib.Data.List.TakeWhile
import Mathlib.Tactic.SplitIfs
import RobotConsole.Proofs.Json.RoundTrip

/-!
What is read from any octets is legible: its strings end where they were read to end, and its numbers
have their digits.  So every document that octets are read as has octets of its own, without blanks,
that are read as the same document.
-/

namespace RobotConsole.Json

variable {cs rest : List Char}

/-- The first part of a string, and what follows it. -/
theorem readString_eq {raw : List Char} (h : readString cs = some (raw, rest)) :
    cs = raw ++ '"' :: rest ∧ ∀ rest', readString (raw ++ '"' :: rest') = some (raw, rest') := by
  fun_induction readString cs generalizing raw with
  | case1 => cases h
  | case2 =>
    cases h
    exact ⟨rfl, fun _ => rfl⟩
  | case3 a b c d cs hhex ih =>
    obtain ⟨⟨raw, _⟩, hread, heq⟩ := Option.map_eq_some_iff.1 h
    cases heq
    obtain ⟨rfl, hcloses⟩ := ih hread
    refine ⟨rfl, fun rest' => ?_⟩
    simp only [List.cons_append, readString, if_pos hhex, hcloses, Option.map_some]
  | case4 => cases h
  | case5 e cs hnot hescape ih =>
    obtain ⟨⟨raw, _⟩, hread, heq⟩ := Option.map_eq_some_iff.1 h
    cases heq
    obtain ⟨rfl, hcloses⟩ := ih hread
    refine ⟨rfl, fun rest' => ?_⟩
    -- four digits are read only after a `u`, which alone stands for nothing
    have hu : e ≠ 'u' := by
      rintro rfl
      revert hescape
      decide
    rw [List.cons_append, List.cons_append, readString, if_pos hescape, hcloses]
    · rfl
    · exact fun _ _ _ _ _ he _ => hu he
  | case6 => cases h
  | case7 => cases h
  | case8 c cs hquote hu hescape hcontrol ih =>
    obtain ⟨⟨raw, _⟩, hread, heq⟩ := Option.map_eq_some_iff.1 h
    cases heq
    obtain ⟨rfl, hcloses⟩ := ih hread
    refine ⟨rfl, fun rest' => ?_⟩
    have hslash : c ≠ '\\' := by
      rintro rfl
      cases raw with
      | nil => exact hescape '"' rest rfl rfl
      | cons e raw => exact hescape e (raw ++ '"' :: rest) rfl rfl
    rw [List.cons_append, readString, if_neg hcontrol, hcloses]
    · rfl
    · exact hquote
    · exact fun _ _ _ _ _ hc _ => hslash hc
    · exact fun _ _ hc _ => hslash hc

theorem readDigits_eq {ds : List Char} (h : readDigits cs = some (ds, rest)) :
    IsDigits ds ∧ rest <:+ cs := by
  simp only [readDigits] at h
  split_ifs at h with hnil
  cases h
  exact ⟨⟨hnil, fun c hc => List.mem_takeWhile_imp hc⟩, List.dropWhile_suffix _⟩

theorem readFraction_eq {fraction : Option (List Char)}
    (h : readFraction cs = some (fraction, rest)) :
    (∀ ds ∈ fraction, IsDigits ds) ∧ rest <:+ cs := by
  rw [readFraction.eq_def] at h
  split at h
  · obtain ⟨⟨ds, _⟩, hread, heq⟩ := Option.map_eq_some_iff.1 h
    cases heq
    obtain ⟨hdigits, hsuffix⟩ := readDigits_eq hread
    exact ⟨fun _ hds => Option.mem_some_iff.1 hds ▸ hdigits, hsuffix.trans (List.suffix_cons _ _)⟩
  · cases h
    exact ⟨by simp, List.suffix_refl _⟩

theorem splitSign_suffix (cs : List Char) : (Numeral.splitSign cs).2 <:+ cs := by
  rw [Numeral.splitSign.eq_def]
  split
  · exact List.suffix_cons _ _
  · exact List.suffix_cons _ _
  · exact List.suffix_refl _

theorem readExponent_eq {exponent : Option (Bool × List Char)}
    (h : readExponent cs = some (exponent, rest)) :
    (∀ e ∈ exponent, IsDigits e.2) ∧ rest <:+ cs := by
  rw [readExponent.eq_def] at h
  split at h
  · cases h
    exact ⟨by simp, List.suffix_refl _⟩
  · next c cs =>
    split_ifs at h
    · obtain ⟨⟨ds, _⟩, hread, heq⟩ := Option.map_eq_some_iff.1 h
      cases heq
      obtain ⟨hdigits, hsuffix⟩ := readDigits_eq hread
      exact ⟨fun _ he => Option.mem_some_iff.1 he ▸ hdigits,
        (hsuffix.trans (splitSign_suffix cs)).trans (List.suffix_cons _ _)⟩
    · cases h
      exact ⟨by simp, List.suffix_refl _⟩

theorem readNumber_eq {n : Numeral} (h : readNumber cs = some (n, rest)) :
    n.IsJson ∧ rest <:+ cs := by
  rw [readNumber.eq_def] at h
  split at h
  next negative unsigned hsign =>
  have hunsigned : unsigned <:+ cs := by
    split at hsign
    · cases hsign
      exact List.suffix_cons _ _
    · cases hsign
      exact List.suffix_refl _
  split at h
  · cases h
  · next whole _ hwhole =>
    split_ifs at h with hzero
    split at h
    · cases h
    · next fraction _ hfraction =>
      obtain ⟨⟨exponent, _⟩, hexponent, heq⟩ := Option.map_eq_some_iff.1 h
      cases heq
      obtain ⟨hdigits, hafterWhole⟩ := readDigits_eq hwhole
      obtain ⟨hpart, hafterPart⟩ := readFraction_eq hfraction
      obtain ⟨hpower, hafterPower⟩ := readExponent_eq hexponent
      refine ⟨⟨hdigits, fun hhead => ?_, hpart, hpower⟩,
        ((hafterPower.trans hafterPart).trans hafterWhole).trans hunsigned⟩
      by_contra hne
      exact hzero ⟨hhead, hne⟩

theorem IsOctets.suffix (h : IsOctets cs) (hsuffix : rest <:+ cs) : IsOctets rest :=
  fun c hc => h c (hsuffix.subset hc)

theorem quotable_of_readString {raw : List Char} (hcs : IsOctets cs)
    (h : readString cs = some (raw, rest)) : Quotable raw ∧ rest <:+ cs := by
  obtain ⟨rfl, hcloses⟩ := readString_eq h
  refine ⟨⟨hcloses, fun c hc => hcs c (List.mem_append_left _ hc)⟩, ?_⟩
  exact (List.suffix_cons _ _).trans (List.suffix_append _ _)

theorem suffix_of_word (word : List Char) (h : skipSpace cs = word ++ rest) : rest <:+ cs :=
  (List.suffix_append word rest).trans (h ▸ List.dropWhile_suffix _)

theorem suffix_of_skipSpace {c : Char} (h : skipSpace cs = c :: rest) : rest <:+ cs :=
  suffix_of_word [c] h

mutual

theorem legible_readValue {cs rest : List Char} {j : Json} (fuel : Nat) (hcs : IsOctets cs)
    (h : readValue fuel cs = some (j, rest)) : j.Legible ∧ rest <:+ cs := by
  match fuel with
  | 0 => cases h
  | fuel + 1 =>
    rw [readValue.eq_def] at h
    dsimp only at h
    split at h
    · next hskip =>
      have hinside := suffix_of_skipSpace hskip
      split at h
      · next hend =>
        cases h
        exact ⟨.object (by simp) (by simp), (suffix_of_skipSpace hend).trans hinside⟩
      · obtain ⟨⟨members, _⟩, hmembers, heq⟩ := Option.map_eq_some_iff.1 h
        cases heq
        have hsuffix := (List.dropWhile_suffix isSpace).trans hinside
        obtain ⟨hnames, hvalues, hrest⟩ := legible_readMembers fuel (hcs.suffix hsuffix) hmembers
        exact ⟨.object hnames hvalues, hrest.trans hsuffix⟩
    · next hskip =>
      have hinside := suffix_of_skipSpace hskip
      split at h
      · next hend =>
        cases h
        exact ⟨.list (by simp), (suffix_of_skipSpace hend).trans hinside⟩
      · obtain ⟨⟨items, _⟩, hitems, heq⟩ := Option.map_eq_some_iff.1 h
        cases heq
        have hsuffix := (List.dropWhile_suffix isSpace).trans hinside
        obtain ⟨hall, hrest⟩ := legible_readItems fuel (hcs.suffix hsuffix) hitems
        exact ⟨.list hall, hrest.trans hsuffix⟩
    · next hskip =>
      have hinside := suffix_of_skipSpace hskip
      obtain ⟨⟨raw, _⟩, hraw, heq⟩ := Option.map_eq_some_iff.1 h
      cases heq
      obtain ⟨hquotable, hrest⟩ := quotable_of_readString (hcs.suffix hinside) hraw
      exact ⟨.string hquotable, hrest.trans hinside⟩
    · next hskip =>
      cases h
      exact ⟨.null, suffix_of_word "null".toList hskip⟩
    · next hskip =>
      cases h
      exact ⟨.bool true, suffix_of_word "true".toList hskip⟩
    · next hskip =>
      cases h
      exact ⟨.bool false, suffix_of_word "false".toList hskip⟩
    · obtain ⟨⟨n, _⟩, hnumber, heq⟩ := Option.map_eq_some_iff.1 h
      cases heq
      obtain ⟨hjson, hrest⟩ := readNumber_eq hnumber
      exact ⟨.number hjson, hrest.trans (List.dropWhile_suffix isSpace)⟩

theorem legible_readItems {cs rest : List Char} {items : List Json} (fuel : Nat)
    (hcs : IsOctets cs) (h : readItems fuel cs = some (items, rest)) :
    (∀ j ∈ items, j.Legible) ∧ rest <:+ cs := by
  match fuel with
  | 0 => cases h
  | fuel + 1 =>
    rw [readItems.eq_def] at h
    dsimp only at h
    split at h
    · cases h
    · next j after hvalue =>
      obtain ⟨hj, hafter⟩ := legible_readValue fuel hcs hvalue
      split at h
      · next hskip =>
        obtain ⟨⟨items, _⟩, hitems, heq⟩ := Option.map_eq_some_iff.1 h
        cases heq
        have hsuffix := (suffix_of_skipSpace hskip).trans hafter
        obtain ⟨hall, hrest⟩ := legible_readItems fuel (hcs.suffix hsuffix) hitems
        exact ⟨List.forall_mem_cons.2 ⟨hj, hall⟩, hrest.trans hsuffix⟩
      · next hskip =>
        cases h
        exact ⟨List.forall_mem_singleton.2 hj, (suffix_of_skipSpace hskip).trans hafter⟩
      · cases h

theorem legible_readMembers {cs rest : List Char} {members : List (List Char × Json)} (fuel : Nat)
    (hcs : IsOctets cs) (h : readMembers fuel cs = some (members, rest)) :
    (∀ m ∈ members, Quotable m.1) ∧ (∀ m ∈ members, m.2.Legible) ∧ rest <:+ cs := by
  match fuel with
  | 0 => cases h
  | fuel + 1 =>
    rw [readMembers.eq_def] at h
    dsimp only at h
    split at h
    · next hskip =>
      have hinside := suffix_of_skipSpace hskip
      split at h
      · cases h
      · next name _ hread =>
        obtain ⟨hname, hafterName⟩ := quotable_of_readString (hcs.suffix hinside) hread
        split at h
        · next hcolon =>
          have hsuffix := ((suffix_of_skipSpace hcolon).trans hafterName).trans hinside
          split at h
          · cases h
          · next j _ hvalue =>
            obtain ⟨hj, hafter⟩ := legible_readValue fuel (hcs.suffix hsuffix) hvalue
            split at h
            · next hmore =>
              obtain ⟨⟨members, _⟩, hmembers, heq⟩ := Option.map_eq_some_iff.1 h
              cases heq
              have hbehind := ((suffix_of_skipSpace hmore).trans hafter).trans hsuffix
              obtain ⟨hnames, hvalues, hrest⟩ :=
                legible_readMembers fuel (hcs.suffix hbehind) hmembers
              exact ⟨List.forall_mem_cons.2 ⟨hname, hnames⟩,
                List.forall_mem_cons.2 ⟨hj, hvalues⟩, hrest.trans hbehind⟩
            · next hend =>
              cases h
              exact ⟨List.forall_mem_singleton.2 hname, List.forall_mem_singleton.2 hj,
                ((suffix_of_skipSpace hend).trans hafter).trans hsuffix⟩
            · cases h
        · cases h
    · cases h

end

theorem isOctets_ofOctets (bytes : List UInt8) : IsOctets (ofOctets bytes) := by
  intro c hc
  obtain ⟨b, -, rfl⟩ := List.mem_map.1 hc
  have hb : b.toNat < 0x100 := b.toNat_lt
  rw [Char.ofNat, dif_pos (Or.inl (Nat.lt_trans hb (by decide)))]
  exact hb

/-- Whatever octets a document is read from, it can be written and read again. -/
theorem legible_of_ofOctets? {bytes : List UInt8} {j : Json} (h : ofOctets? bytes = some j) :
    j.Legible := by
  rw [ofOctets?, ofChars?] at h
  split at h
  · next hread =>
    split_ifs at h
    cases h
    exact (legible_readValue _ (isOctets_ofOctets bytes) hread).1
  · cases h

end RobotConsole.Json
