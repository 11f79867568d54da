import RobotConsole.Proofs.Json.Number

/-!
Reading back the documents that are written.  A legible document holds numbers as JSON allows them and
strings that end at the quote after them; the reader takes its text for the document itself, whatever
follows, and so do its octets.  A plain document, whose strings are visible seven-bit characters that
need no escape, is legible.
-/

namespace RobotConsole.Json

/-- The characters that a string can hold as they are. -/
def IsPlainChar (c : Char) : Prop := 0x20 ≤ c.toNat ∧ c.toNat < 0x80 ∧ c ≠ '"' ∧ c ≠ '\\'

instance (c : Char) : Decidable (IsPlainChar c) := inferInstanceAs (Decidable (_ ∧ _))

def IsPlainText (raw : List Char) : Prop := ∀ c ∈ raw, IsPlainChar c

instance (raw : List Char) : Decidable (IsPlainText raw) := List.decidableBAll IsPlainChar raw

mutual

def IsPlain : Json → Prop
  | .number n => n.IsJson
  | .string raw => IsPlainText raw
  | .list items => ItemsPlain items
  | .object members => MembersPlain members
  | _ => True

def ItemsPlain : List Json → Prop
  | [] => True
  | j :: rest => IsPlain j ∧ ItemsPlain rest

def MembersPlain : List (List Char × Json) → Prop
  | [] => True
  | (name, j) :: rest => IsPlainText name ∧ IsPlain j ∧ MembersPlain rest

end

def IsOctets (cs : List Char) : Prop := ∀ c ∈ cs, c.toNat < 0x100

instance (cs : List Char) : Decidable (IsOctets cs) :=
  List.decidableBAll (fun c : Char => c.toNat < 0x100) cs

/-- What can stand between quotes: the string ends at the quote after it, whatever follows. -/
structure Quotable (raw : List Char) : Prop where
  closes : ∀ rest, readString (raw ++ '"' :: rest) = some (raw, rest)
  octets : IsOctets raw

/-- The documents that can be read back. -/
inductive Legible : Json → Prop where
  | null : Legible .null
  | bool (value : Bool) : Legible (.bool value)
  | number {n : Numeral} : n.IsJson → Legible (.number n)
  | string {raw : List Char} : Quotable raw → Legible (.string raw)
  | list {items : List Json} : (∀ j ∈ items, Legible j) → Legible (.list items)
  | object {members : List (List Char × Json)} : (∀ m ∈ members, Quotable m.1) →
      (∀ m ∈ members, Legible m.2) → Legible (.object members)

theorem readString_append {raw : List Char} (h : IsPlainText raw) (rest : List Char) :
    readString (raw ++ '"' :: rest) = some (raw, rest) := by
  induction raw with
  | nil => rfl
  | cons c raw ih =>
    obtain ⟨hvisible, -, hquote, hescape⟩ := h c (by simp)
    rw [List.cons_append, readString.eq_def]
    split
    · next heq => cases heq
    · next heq => exact absurd (List.cons.inj heq).1 hquote
    · next heq => exact absurd (List.cons.inj heq).1 hescape
    · next heq => exact absurd (List.cons.inj heq).1 hescape
    · next heq =>
      obtain ⟨rfl, rfl⟩ := List.cons.inj heq
      rw [if_neg (by omega), ih fun c hc => h c (by simp [hc])]
      rfl

theorem quotable_plain {raw : List Char} (h : IsPlainText raw) : Quotable raw where
  closes := readString_append h
  octets c hc := Nat.lt_trans (h c hc).2.1 (by decide)

mutual

theorem legible_of_isPlain (j : Json) (h : j.IsPlain) : j.Legible := by
  match j, h with
  | .null, _ => exact .null
  | .bool value, _ => exact .bool value
  | .number n, h => exact .number h
  | .string raw, h => exact .string (quotable_plain h)
  | .list items, h => exact .list (legible_items items h)
  | .object members, h =>
    obtain ⟨hnames, hvalues⟩ := legible_members members h
    exact .object hnames hvalues

theorem legible_items (items : List Json) (h : ItemsPlain items) : ∀ j ∈ items, Legible j := by
  match items, h with
  | [], _ => simp
  | j :: items, h =>
    exact List.forall_mem_cons.2 ⟨legible_of_isPlain j h.1, legible_items items h.2⟩

theorem legible_members (members : List (List Char × Json)) (h : MembersPlain members) :
    (∀ m ∈ members, Quotable m.1) ∧ ∀ m ∈ members, Legible m.2 := by
  match members, h with
  | [], _ => simp
  | (name, j) :: members, h =>
    obtain ⟨hnames, hvalues⟩ := legible_members members h.2.2
    exact ⟨List.forall_mem_cons.2 ⟨quotable_plain h.1, hnames⟩,
      List.forall_mem_cons.2 ⟨legible_of_isPlain j h.2.1, hvalues⟩⟩

end

theorem skipSpace_cons {c : Char} (cs : List Char) (h : isSpace c = false) :
    skipSpace (c :: cs) = c :: cs := by
  rw [skipSpace, List.dropWhile_cons_of_neg (by simp [h])]

theorem numberHead {n : Numeral} (h : n.IsJson) :
    ∃ c cs, n.chars = c :: cs ∧ (c = '-' ∨ c.isDigit = true) := by
  obtain ⟨negative, whole, fraction, exponent⟩ := n
  cases negative with
  | true => exact ⟨'-', _, rfl, Or.inl rfl⟩
  | false =>
    obtain ⟨c, ds, rfl⟩ := List.exists_cons_of_ne_nil h.whole.1
    exact ⟨c, _, rfl, Or.inr (h.whole.2 c (by simp))⟩

theorem readValue_number (fuel : Nat) {n : Numeral} {rest : List Char} (h : n.IsJson)
    (hrest : EndsNumber rest) :
    readValue (fuel + 1) (n.chars ++ rest) = some (.number n, rest) := by
  obtain ⟨c, cs, hchars, hc⟩ := numberHead h
  have hne : ∀ d : Char, d ≠ '-' → d.isDigit = false → c ≠ d := by
    rintro d hsign hdigit rfl
    rcases hc with hc | hc
    · exact hsign hc
    · rw [hc] at hdigit
      cases hdigit
  have hspace : isSpace c = false := by
    simp [isSpace, hne ' ' (by decide) (by decide), hne '\n' (by decide) (by decide),
      hne '\t' (by decide) (by decide), hne '\r' (by decide) (by decide)]
  have hnumber := readNumber_append h hrest
  rw [hchars, List.cons_append] at hnumber ⊢
  rw [readValue.eq_def]
  simp only [skipSpace_cons _ hspace]
  split
  · next heq => exact absurd (List.cons.inj heq).1 (hne _ (by decide) (by decide))
  · next heq => exact absurd (List.cons.inj heq).1 (hne _ (by decide) (by decide))
  · next heq => exact absurd (List.cons.inj heq).1 (hne _ (by decide) (by decide))
  · next heq => exact absurd (List.cons.inj heq).1 (hne _ (by decide) (by decide))
  · next heq => exact absurd (List.cons.inj heq).1 (hne _ (by decide) (by decide))
  · next heq => exact absurd (List.cons.inj heq).1 (hne _ (by decide) (by decide))
  · rw [hnumber]
    rfl

/-- A document begins with no space and with no bracket that ends a list. -/
theorem valueHead {j : Json} (h : j.Legible) :
    ∃ c cs, j.chars = c :: cs ∧ isSpace c = false ∧ c ≠ ']' := by
  cases h with
  | null => exact ⟨'n', _, rfl, rfl, by decide⟩
  | bool value => cases value <;> exact ⟨_, _, rfl, rfl, by decide⟩
  | number h =>
    obtain ⟨c, cs, hchars, hc⟩ := numberHead h
    refine ⟨c, cs, hchars, ?_, ?_⟩
    · rcases hc with rfl | hc
      · rfl
      · simp only [isSpace, ne_of_isDigit hc (show ' '.isDigit = false by decide),
          ne_of_isDigit hc (show '\n'.isDigit = false by decide),
          ne_of_isDigit hc (show '\t'.isDigit = false by decide),
          ne_of_isDigit hc (show '\r'.isDigit = false by decide), decide_false, Bool.or_self]
    · rcases hc with rfl | hc
      · decide
      · exact ne_of_isDigit hc (by decide)
  | string => exact ⟨'"', _, rfl, rfl, by decide⟩
  | list => exact ⟨'[', _, rfl, rfl, by decide⟩
  | object => exact ⟨'\x7b', _, rfl, rfl, by decide⟩

theorem listChars_cons (j : Json) (rest : List Json) :
    listChars (j :: rest) = chars j ++ if rest = [] then [] else ',' :: listChars rest := by
  cases rest <;> simp [listChars]

theorem membersChars_cons (name : List Char) (j : Json) (rest : List (List Char × Json)) :
    membersChars ((name, j) :: rest) =
      '"' :: name ++ '"' :: ':' :: chars j ++ if rest = [] then [] else ',' :: membersChars rest := by
  cases rest <;> simp [membersChars]

theorem endsNumber_cons {c : Char} (rest : List Char)
    (h : c.isDigit = false ∧ c ≠ '.' ∧ c ≠ 'e' ∧ c ≠ 'E') : EndsNumber (c :: rest) := by
  intro c' hc'
  rw [List.head?_cons, Option.mem_some_iff] at hc'
  exact hc' ▸ h

section Steps

variable {fuel : Nat} {cs cs' rest : List Char} {j : Json}

theorem readValue_list {c : Char} {items : List Json} (hspace : isSpace c = false) (hc : c ≠ ']')
    (h : readItems fuel (c :: cs) = some (items, rest)) :
    readValue (fuel + 1) ('[' :: c :: cs) = some (.list items, rest) := by
  rw [readValue.eq_def]
  simp only [skipSpace_cons _ (show isSpace '[' = false by decide), skipSpace_cons _ hspace]
  split
  · next heq => exact absurd (List.cons.inj heq).1 hc
  · rw [h]
    rfl

theorem readItems_last (h : readValue fuel cs = some (j, ']' :: rest)) :
    readItems (fuel + 1) cs = some ([j], rest) := by
  rw [readItems.eq_def]
  simp only [h, skipSpace_cons _ (show isSpace ']' = false by decide)]

theorem readItems_more {items : List Json} (h : readValue fuel cs = some (j, ',' :: cs'))
    (hitems : readItems fuel cs' = some (items, rest)) :
    readItems (fuel + 1) cs = some (j :: items, rest) := by
  rw [readItems.eq_def]
  simp only [h, skipSpace_cons _ (show isSpace ',' = false by decide), hitems, Option.map_some]

theorem readValue_object {members : List (List Char × Json)}
    (h : readMembers fuel ('"' :: cs) = some (members, rest)) :
    readValue (fuel + 1) ('\x7b' :: '"' :: cs) = some (.object members, rest) := by
  rw [readValue.eq_def]
  simp only [skipSpace_cons _ (show isSpace '\x7b' = false by decide),
    skipSpace_cons _ (show isSpace '"' = false by decide)]
  split
  · next heq => exact absurd (List.cons.inj heq).1 (by decide)
  · rw [h]
    rfl

variable {name : List Char} (hname : Quotable name)
include hname

theorem readMembers_last (h : readValue fuel cs = some (j, '\x7d' :: rest)) :
    readMembers (fuel + 1) ('"' :: name ++ '"' :: ':' :: cs) = some ([(name, j)], rest) := by
  rw [List.cons_append, readMembers.eq_def]
  simp only [skipSpace_cons _ (show isSpace '"' = false by decide), hname.closes,
    skipSpace_cons _ (show isSpace ':' = false by decide), h,
    skipSpace_cons _ (show isSpace '\x7d' = false by decide)]

theorem readMembers_more {members : List (List Char × Json)}
    (h : readValue fuel cs = some (j, ',' :: cs'))
    (hmembers : readMembers fuel cs' = some (members, rest)) :
    readMembers (fuel + 1) ('"' :: name ++ '"' :: ':' :: cs) =
      some ((name, j) :: members, rest) := by
  rw [List.cons_append, readMembers.eq_def]
  simp only [skipSpace_cons _ (show isSpace '"' = false by decide), hname.closes,
    skipSpace_cons _ (show isSpace ':' = false by decide), h,
    skipSpace_cons _ (show isSpace ',' = false by decide), hmembers, Option.map_some]

end Steps

mutual

/-- A legible document is read back with any fuel beyond twice its length. -/
theorem readValue_chars (j : Json) (h : j.Legible) (fuel : Nat) (rest : List Char)
    (hfuel : 2 * j.chars.length + 1 ≤ fuel) (hrest : EndsNumber rest) :
    readValue fuel (j.chars ++ rest) = some (j, rest) := by
  obtain ⟨fuel, rfl⟩ : ∃ n, fuel = n + 1 := ⟨fuel - 1, by omega⟩
  match j, h with
  | .null, _ => rfl
  | .bool true, _ => rfl
  | .bool false, _ => rfl
  | .number n, .number h => exact readValue_number fuel h hrest
  | .string raw, .string h =>
    simp only [chars, List.cons_append, List.append_assoc, List.nil_append]
    rw [readValue.eq_def]
    simp only [skipSpace_cons _ (show isSpace '"' = false by decide), h.closes rest,
      Option.map_some]
  | .list [], _ => rfl
  | .list (j :: items), .list h =>
    simp only [chars, List.cons_append, List.append_assoc, List.nil_append, List.length_cons,
      List.length_append, List.length_nil] at hfuel ⊢
    have hitems := readItems_listChars (j :: items) (by simp) h fuel rest (by omega)
    obtain ⟨c, cs, hchars, hspace, hbracket⟩ := valueHead (h j List.mem_cons_self)
    rw [listChars_cons, hchars, List.cons_append, List.cons_append] at hitems ⊢
    exact readValue_list hspace hbracket hitems
  | .object [], _ => rfl
  | .object ((name, j) :: members), .object hnames hvalues =>
    simp only [chars, List.cons_append, List.append_assoc, List.nil_append, List.length_cons,
      List.length_append, List.length_nil] at hfuel ⊢
    have hmembers := readMembers_membersChars ((name, j) :: members) (by simp) hnames hvalues fuel
      rest (by omega)
    rw [membersChars_cons, List.cons_append, List.cons_append, List.cons_append] at hmembers ⊢
    exact readValue_object hmembers

theorem readItems_listChars (items : List Json) (hne : items ≠ []) (h : ∀ j ∈ items, Legible j)
    (fuel : Nat) (rest : List Char) (hfuel : 2 * (listChars items).length + 2 ≤ fuel) :
    readItems fuel (listChars items ++ ']' :: rest) = some (items, rest) := by
  obtain ⟨fuel, rfl⟩ : ∃ n, fuel = n + 1 := ⟨fuel - 1, by omega⟩
  match items, h with
  | [], _ => exact absurd rfl hne
  | [j], h =>
    have hj := h j List.mem_cons_self
    simp only [listChars] at hfuel ⊢
    exact readItems_last (readValue_chars j hj fuel _ (by omega) (endsNumber_cons _ (by decide)))
  | j :: j' :: items, h =>
    obtain ⟨hj, hitems⟩ := List.forall_mem_cons.1 h
    simp only [listChars, List.append_assoc, List.cons_append, List.length_append,
      List.length_cons] at hfuel ⊢
    exact readItems_more
      (readValue_chars j hj fuel _ (by omega) (endsNumber_cons _ (by decide)))
      (readItems_listChars (j' :: items) (by simp) hitems fuel rest (by omega))

theorem readMembers_membersChars (members : List (List Char × Json)) (hne : members ≠ [])
    (hnames : ∀ m ∈ members, Quotable m.1) (hvalues : ∀ m ∈ members, Legible m.2) (fuel : Nat)
    (rest : List Char) (hfuel : 2 * (membersChars members).length + 2 ≤ fuel) :
    readMembers fuel (membersChars members ++ '\x7d' :: rest) = some (members, rest) := by
  obtain ⟨fuel, rfl⟩ : ∃ n, fuel = n + 1 := ⟨fuel - 1, by omega⟩
  match members, hnames, hvalues with
  | [], _, _ => exact absurd rfl hne
  | [(name, j)], hnames, hvalues =>
    have hj := hvalues (name, j) List.mem_cons_self
    simp only [membersChars, List.append_assoc, List.cons_append, List.length_append,
      List.length_cons] at hfuel ⊢
    exact readMembers_last (hnames (name, j) List.mem_cons_self)
      (readValue_chars j hj fuel _ (by omega) (endsNumber_cons _ (by decide)))
  | (name, j) :: member :: members, hnames, hvalues =>
    obtain ⟨hname, hnames⟩ := List.forall_mem_cons.1 hnames
    obtain ⟨hj, hvalues⟩ := List.forall_mem_cons.1 hvalues
    simp only [membersChars, List.append_assoc, List.cons_append, List.length_append,
      List.length_cons] at hfuel ⊢
    exact readMembers_more hname
      (readValue_chars j hj fuel _ (by omega) (endsNumber_cons _ (by decide)))
      (readMembers_membersChars (member :: members) (by simp) hnames hvalues fuel rest (by omega))

end

theorem ofChars?_chars {j : Json} (h : j.Legible) : ofChars? j.chars = some j := by
  have hread := readValue_chars j h _ [] (Nat.le_refl _) endsNumber_nil
  rw [List.append_nil] at hread
  rw [ofChars?, hread]
  rfl

def IsAscii (cs : List Char) : Prop := ∀ c ∈ cs, c.toNat < 0x80

instance (cs : List Char) : Decidable (IsAscii cs) :=
  List.decidableBAll (fun c : Char => c.toNat < 0x80) cs

theorem isAscii_plain {raw : List Char} (h : IsPlainText raw) : IsAscii raw := fun c hc =>
  (h c hc).2.1

theorem isOctets_nil : IsOctets [] := by simp [IsOctets]

theorem isOctets_cons {c : Char} {cs : List Char} (hc : c.toNat < 0x100) (h : IsOctets cs) :
    IsOctets (c :: cs) :=
  List.forall_mem_cons.2 ⟨hc, h⟩

theorem isOctets_append {cs ds : List Char} (h : IsOctets cs) (h' : IsOctets ds) :
    IsOctets (cs ++ ds) :=
  List.forall_mem_append.2 ⟨h, h'⟩

theorem isOctets_of_digits {ds : List Char} (h : IsDigits ds) : IsOctets ds := by
  intro c hc
  have hdigit := h.2 c hc
  rw [Char.isDigit, Bool.and_eq_true, decide_eq_true_eq, decide_eq_true_eq] at hdigit
  have hle : c.toNat ≤ '9'.toNat := UInt32.le_iff_toNat_le.1 hdigit.2
  exact Nat.lt_of_le_of_lt hle (by decide)

theorem isOctets_number {n : Numeral} (h : n.IsJson) : IsOctets n.chars := by
  obtain ⟨negative, whole, fraction, exponent⟩ := n
  have hsign : IsOctets (Numeral.signChars negative) := by cases negative <;> decide
  have hfraction : IsOctets (Numeral.fractionChars fraction) := by
    cases fraction with
    | none => exact isOctets_nil
    | some ds => exact isOctets_cons (by decide) (isOctets_of_digits (h.fraction ds rfl))
  have hexponent : IsOctets (Numeral.exponentChars exponent) := by
    cases exponent with
    | none => exact isOctets_nil
    | some e =>
      refine isOctets_cons (by decide) (isOctets_cons ?_ (isOctets_of_digits (h.exponent e rfl)))
      cases e.1 <;> decide
  exact isOctets_append
    (isOctets_append (isOctets_append hsign (isOctets_of_digits h.whole)) hfraction) hexponent

mutual

theorem isOctets_chars (j : Json) (h : j.Legible) : IsOctets j.chars := by
  match j, h with
  | .null, _ => decide
  | .bool true, _ => decide
  | .bool false, _ => decide
  | .number n, .number h => exact isOctets_number h
  | .string raw, .string h =>
    exact isOctets_cons (by decide) (isOctets_append h.octets (by decide))
  | .list items, .list h =>
    exact isOctets_cons (by decide) (isOctets_append (isOctets_listChars items h) (by decide))
  | .object members, .object hnames hvalues =>
    exact isOctets_cons (by decide)
      (isOctets_append (isOctets_membersChars members hnames hvalues) (by decide))

theorem isOctets_listChars (items : List Json) (h : ∀ j ∈ items, Legible j) :
    IsOctets (listChars items) := by
  match items, h with
  | [], _ => exact isOctets_nil
  | j :: items, h =>
    obtain ⟨hj, hitems⟩ := List.forall_mem_cons.1 h
    rw [listChars_cons]
    refine isOctets_append (isOctets_chars j hj) ?_
    split
    · exact isOctets_nil
    · exact isOctets_cons (by decide) (isOctets_listChars items hitems)

theorem isOctets_membersChars (members : List (List Char × Json))
    (hnames : ∀ m ∈ members, Quotable m.1) (hvalues : ∀ m ∈ members, Legible m.2) :
    IsOctets (membersChars members) := by
  match members, hnames, hvalues with
  | [], _, _ => exact isOctets_nil
  | (name, j) :: members, hnames, hvalues =>
    obtain ⟨hname, hnames⟩ := List.forall_mem_cons.1 hnames
    obtain ⟨hj, hvalues⟩ := List.forall_mem_cons.1 hvalues
    rw [membersChars_cons]
    refine isOctets_append ?_ ?_
    · exact isOctets_cons (by decide) (isOctets_append hname.octets
        (isOctets_cons (by decide) (isOctets_cons (by decide) (isOctets_chars j hj))))
    · split
      · exact isOctets_nil
      · exact isOctets_cons (by decide) (isOctets_membersChars members hnames hvalues)

end

theorem toNat_toUInt8 {c : Char} (h : c.toNat < 0x100) : c.toUInt8.toNat = c.toNat := by
  rw [Char.toUInt8, UInt32.toNat_toUInt8]
  exact Nat.mod_eq_of_lt h

theorem ofOctets_toOctets {cs : List Char} (h : IsOctets cs) : ofOctets (toOctets cs) = cs := by
  rw [ofOctets, toOctets, List.map_map]
  refine (List.map_congr_left fun c hc => ?_).trans (List.map_id cs)
  rw [Function.comp_apply, toNat_toUInt8 (h c hc), Char.ofNat_toNat, id]

/-- Whoever receives a legible document reads it as it was. -/
theorem ofOctets?_of_legible {j : Json} (h : j.Legible) : ofOctets? j.octets = some j := by
  rw [ofOctets?, octets, ofOctets_toOctets (isOctets_chars j h), ofChars?_chars h]

theorem ofOctets?_octets {j : Json} (h : j.IsPlain) : ofOctets? j.octets = some j :=
  ofOctets?_of_legible (legible_of_isPlain j h)

end RobotConsole.Json
