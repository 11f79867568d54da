import RobotConsole.Json.Value
import RobotConsole.Proofs.Json.RoundTrip

/-!
The parts of the records that messages are written as.  A record with plain names of which none
comes twice has each of its fields under its name, and nothing else.
-/

namespace RobotConsole

theorem Text.Utf8.decode?_ascii {cs : List Char} (h : Json.IsAscii cs) :
    decode? (cs.map Char.toUInt8) = some cs := by
  induction cs with
  | nil => rfl
  | cons c cs ih =>
    have hlt := h c (by simp)
    rw [List.map_cons, decode?.eq_def]
    have hoctet : c.toNat < 0x100 := Nat.lt_trans hlt (by decide)
    simp only [Json.toNat_toUInt8 hoctet, if_pos hlt, ih fun c hc => h c (by simp [hc]), Option.map_some,
      Char.ofNat_toNat]

namespace Json

theorem unescape?_plain {raw : List Char} (h : IsPlainText raw) :
    unescape? raw = some (raw.map Char.toUInt8) := by
  induction raw with
  | nil => rfl
  | cons c raw ih =>
    have hescape : c ≠ '\\' := (h c (by simp)).2.2.2
    rw [unescape?.eq_def]
    split
    · next heq => cases heq
    · next heq => exact absurd (List.cons.inj heq).1 hescape
    · next heq => exact absurd (List.cons.inj heq).1 hescape
    · next heq =>
      obtain ⟨rfl, rfl⟩ := List.cons.inj heq
      rw [ih fun c hc => h c (by simp [hc])]
      rfl

theorem text?_plain {raw : List Char} (h : IsPlainText raw) :
    text? raw = some (String.ofList raw) := by
  rw [text?, unescape?_plain h]
  simp only [Text.Utf8.decode?_ascii (isAscii_plain h), Option.map_some]

theorem text?_toList {name : String} (h : IsPlainText name.toList) :
    text? name.toList = some name := by
  rw [text?_plain h, String.ofList_toList]

section Records

variable {fields : List (String × Json)}

def members (fields : List (String × Json)) : List (List Char × Json) :=
  fields.map fun (name, j) => (name.toList, j)

/-- Every name can stand between quotes as it is. -/
def NamesPlain (fields : List (String × Json)) : Prop := ∀ f ∈ fields, IsPlainText f.1.toList

theorem namesPlain_nil : NamesPlain [] := by simp [NamesPlain]

theorem namesPlain_cons {name : String} (j : Json) (hname : IsPlainText name.toList)
    (h : NamesPlain fields) : NamesPlain ((name, j) :: fields) :=
  List.forall_mem_cons.2 ⟨hname, h⟩

theorem texts?_members (h : NamesPlain fields) : texts? (members fields) = some fields := by
  induction fields with
  | nil => rfl
  | cons f fields ih =>
    obtain ⟨hname, hnames⟩ := List.forall_mem_cons.1 h
    rw [members, List.map_cons, texts?, text?_toList hname, ← members, ih hnames]

theorem named_eq_nil {name : String} (h : name ∉ fields.map Prod.fst) : named name fields = [] := by
  induction fields with
  | nil => rfl
  | cons f fields ih =>
    rw [List.map_cons, List.mem_cons, not_or] at h
    rw [named, if_neg (Ne.symm h.1), ih h.2]

theorem named_of_mem {name : String} {j : Json} (hnodup : (fields.map Prod.fst).Nodup)
    (h : (name, j) ∈ fields) : named name fields = [j] := by
  induction fields with
  | nil => cases h
  | cons f fields ih =>
    rw [List.map_cons, List.nodup_cons] at hnodup
    rw [named]
    rcases List.mem_cons.1 h with rfl | h
    · rw [if_pos rfl, named_eq_nil hnodup.1]
    · have hne : f.1 ≠ name := by
        rintro rfl
        exact hnodup.1 (List.mem_map.2 ⟨_, h, rfl⟩)
      rw [if_neg hne, ih hnodup.2 h]

theorem pick?_of_subset (hnodup : (fields.map Prod.fst).Nodup) {some' : List (String × Json)}
    (h : some' ⊆ fields) : pick? fields (some'.map Prod.fst) = some (some'.map Prod.snd) := by
  induction some' with
  | nil => rfl
  | cons f some' ih =>
    obtain ⟨hf, hsome⟩ := List.cons_subset.1 h
    rw [List.map_cons, pick?, named_of_mem hnodup hf, ih hsome]
    rfl

/-- A record has exactly the fields that it was made of. -/
theorem fields?_record (fields : List (String × Json)) (hplain : NamesPlain fields)
    (hnodup : (fields.map Prod.fst).Nodup) :
    (record fields).fields? (fields.map Prod.fst) = some (fields.map Prod.snd) := by
  rw [record, fields?, ← members, texts?_members hplain]
  exact pick?_of_subset hnodup (List.Subset.refl _)

theorem membersSound_members (hplain : NamesPlain fields) (h : ∀ f ∈ fields, f.2.sound = true) :
    membersSound (members fields) = true := by
  induction fields with
  | nil => rfl
  | cons f fields ih =>
    obtain ⟨hname, hnames⟩ := List.forall_mem_cons.1 hplain
    obtain ⟨hf, hfields⟩ := List.forall_mem_cons.1 h
    rw [members, List.map_cons, membersSound, text?_toList hname, hf, ← members,
      ih hnames hfields]
    rfl

theorem membersDepth_members {n : Nat} (h : ∀ f ∈ fields, f.2.depth ≤ n) :
    membersDepth (members fields) ≤ n := by
  induction fields with
  | nil => exact Nat.zero_le n
  | cons f fields ih =>
    obtain ⟨hf, hfields⟩ := List.forall_mem_cons.1 h
    rw [members, List.map_cons, membersDepth, ← members]
    exact Nat.max_le.2 ⟨hf, ih hfields⟩

theorem membersPlain_members (hplain : NamesPlain fields) (h : ∀ f ∈ fields, f.2.IsPlain) :
    MembersPlain (members fields) := by
  induction fields with
  | nil => trivial
  | cons f fields ih =>
    obtain ⟨hname, hnames⟩ := List.forall_mem_cons.1 hplain
    obtain ⟨hf, hfields⟩ := List.forall_mem_cons.1 h
    exact ⟨hname, hf, ih hnames hfields⟩

end Records

end Json
end RobotConsole
