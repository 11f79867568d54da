import Mathlib.Data.List.Forall2
import RobotConsole.Json.Value

/-!
The fields of a record.  An object has these fields if each of their names comes once among the names
of its members, whatever other names come there; a list has them if it is as long.
-/

namespace RobotConsole.Json

def valuesOf (name : String) (members : List (List Char × Json)) : List Json :=
  (members.filter fun m => text? m.1 = some name).map Prod.snd

section Values

variable {name : String} {members members' : List (List Char × Json)}

@[simp]
theorem valuesOf_append : valuesOf name (members ++ members') =
    valuesOf name members ++ valuesOf name members' := by
  rw [valuesOf, List.filter_append, List.map_append, valuesOf, valuesOf]

theorem valuesOf_cons_of_eq {raw : List Char} (j : Json) (h : text? raw = some name) :
    valuesOf name ((raw, j) :: members) = j :: valuesOf name members := by
  rw [valuesOf, List.filter_cons_of_pos (by simp [h]), List.map_cons, valuesOf]

theorem valuesOf_cons_of_ne {raw : List Char} (j : Json) (h : text? raw ≠ some name) :
    valuesOf name ((raw, j) :: members) = valuesOf name members := by
  rw [valuesOf, List.filter_cons_of_neg (by simp [h]), valuesOf]

theorem length_valuesOf_insert {raw : List Char} (j : Json) (h : text? raw = some name) :
    (valuesOf name (members ++ (raw, j) :: members')).length =
      (valuesOf name (members ++ members')).length + 1 := by
  rw [valuesOf_append, valuesOf_append, valuesOf_cons_of_eq j h, List.length_append,
    List.length_append, List.length_cons, Nat.add_assoc]

theorem valuesOf_insert_of_ne {raw : List Char} (j : Json) (h : text? raw ≠ some name) :
    valuesOf name (members ++ (raw, j) :: members') = valuesOf name (members ++ members') := by
  rw [valuesOf_append, valuesOf_append, valuesOf_cons_of_ne j h]

theorem valuesOf_perm (h : members.Perm members') :
    (valuesOf name members).Perm (valuesOf name members') :=
  (h.filter _).map _

theorem named_of_texts? {ms : List (String × Json)} (h : texts? members = some ms) :
    named name ms = valuesOf name members := by
  induction members generalizing ms with
  | nil =>
    cases h
    rfl
  | cons m members ih =>
    rw [texts?] at h
    split at h
    · next n rest hname hrest =>
      cases h
      rw [named, ih hrest]
      split
      · next heq => rw [valuesOf_cons_of_eq m.2 (heq ▸ hname)]
      · next hne =>
        have hother : text? m.1 ≠ some name := fun heq =>
          hne (Option.some.inj (hname.symm.trans heq))
        rw [valuesOf_cons_of_ne m.2 hother]
    · cases h

theorem isSome_texts?_iff : (texts? members).isSome ↔ ∀ m ∈ members, (text? m.1).isSome := by
  induction members with
  | nil => simp [texts?]
  | cons m members ih =>
    rw [List.forall_mem_cons, ← ih, texts?]
    cases text? m.1 <;> cases texts? members <;> simp

theorem pick?_eq_some_iff {ms : List (String × Json)} {names : List String} {js : List Json} :
    pick? ms names = some js ↔ List.Forall₂ (fun name j => named name ms = [j]) names js := by
  induction names generalizing js with
  | nil => simp [pick?, eq_comm]
  | cons name names ih =>
    rw [pick?, List.forall₂_cons_left_iff]
    constructor
    · intro h
      split at h
      · next j js hnamed hpick =>
        cases h
        exact ⟨j, js, hnamed, ih.1 hpick, rfl⟩
      · cases h
    · rintro ⟨j, js, hnamed, hrest, rfl⟩
      simp only [hnamed, ih.2 hrest]

/-- An object has these fields if all its names are texts, and it has a member of each name once. -/
theorem fields?_object_iff {names : List String} {js : List Json} :
    (object members).fields? names = some js ↔ (∀ m ∈ members, (text? m.1).isSome) ∧
      List.Forall₂ (fun name j => valuesOf name members = [j]) names js := by
  rw [fields?, ← isSome_texts?_iff]
  cases h : texts? members with
  | none => simp
  | some ms => simp only [pick?_eq_some_iff, named_of_texts? h, Option.isSome_some, true_and]

theorem fields?_list_iff {names : List String} {items js : List Json} :
    (list items).fields? names = some js ↔ items.length = names.length ∧ items = js := by
  rw [fields?, Option.ite_none_right_eq_some, Option.some.injEq]

theorem exists_member_of_fields? {names : List String} {js : List Json} {field : Json}
    (h : (object members).fields? names = some js) (hfield : field ∈ js) :
    ∃ raw, (raw, field) ∈ members := by
  have hvalues := (fields?_object_iff.1 h).2
  clear h
  induction hvalues with
  | nil => cases hfield
  | @cons name j _ _ hname _ ih =>
    rcases List.mem_cons.1 hfield with rfl | hfield
    · have hj : field ∈ valuesOf name members := hname ▸ List.mem_singleton.2 rfl
      obtain ⟨m, hm, rfl⟩ := List.mem_map.1 hj
      exact ⟨m.1, List.mem_of_mem_filter hm⟩
    · exact ih hfield

end Values

end RobotConsole.Json
