import RobotConsole.Proofs.Json.Order

/-!
What is read of a document, and how a document is spoilt.  A shape says which members are read, at any
depth.  A document is spoilt where one of these is given once more, at any place and with any value, or
is left out: then either the record itself has lost its fields, or one of the fields is spoilt.
-/

namespace RobotConsole.Json

/-- Which members of a document are read. -/
inductive Shape where
  /-- None: the document is a value by itself. -/
  | scalar
  /-- The only member of an object, which has any name. -/
  | choice
  /-- The members with these names; a list has their values in this order. -/
  | record (fields : List (String × Shape))
  /-- Those of each item of a list. -/
  | items (item : Shape)

/-- One member that is read is given once more, or left out. -/
inductive Edited (reads : String → Prop) :
    List (List Char × Json) → List (List Char × Json) → Prop where
  | repeated {before after : List (List Char × Json)} {raw : List Char} {name : String} (j : Json) :
      text? raw = some name → reads name →
      Edited reads (before ++ after) (before ++ (raw, j) :: after)
  | removed {before after : List (List Char × Json)} {raw : List Char} {name : String} {j : Json} :
      text? raw = some name → reads name →
      Edited reads (before ++ (raw, j) :: after) (before ++ after)

/-- One member that is read is given once more, or left out, in one of the objects of a document. -/
inductive Spoilt : Shape → Json → Json → Prop where
  | choice {members members' : List (List Char × Json)} : Edited (fun _ => True) members members' →
      Spoilt .choice (.object members) (.object members')
  | record {fields : List (String × Shape)} {members members' : List (List Char × Json)} :
      Edited (· ∈ fields.map Prod.fst) members members' →
      Spoilt (.record fields) (.object members) (.object members')
  | field {fields : List (String × Shape)} {name : String} {shape : Shape} {raw : List Char}
      {before after : List (List Char × Json)} {j j' : Json} :
      (name, shape) ∈ fields → text? raw = some name → Spoilt shape j j' →
      Spoilt (.record fields) (.object (before ++ (raw, j) :: after))
        (.object (before ++ (raw, j') :: after))
  | place {fields : List (String × Shape)} {name : String} {shape : Shape}
      {before after : List Json} {j j' : Json} :
      fields[before.length]? = some (name, shape) → Spoilt shape j j' →
      Spoilt (.record fields) (.list (before ++ j :: after)) (.list (before ++ j' :: after))
  | item {shape : Shape} {before after : List Json} {j j' : Json} : Spoilt shape j j' →
      Spoilt (.items shape) (.list (before ++ j :: after)) (.list (before ++ j' :: after))

inductive SomeSpoilt : List (String × Shape) → List Json → List Json → Prop where
  | head {name : String} {shape : Shape} {fields : List (String × Shape)} {j j' : Json}
      {js js' : List Json} : Spoilt shape j j' →
      SomeSpoilt ((name, shape) :: fields) (j :: js) (j' :: js')
  | tail {field : String × Shape} {fields : List (String × Shape)} {j j' : Json}
      {js js' : List Json} : SomeSpoilt fields js js' →
      SomeSpoilt (field :: fields) (j :: js) (j' :: js')

variable {members members' : List (List Char × Json)} {reads : String → Prop}

theorem Edited.length_ne (h : Edited reads members members') : members'.length ≠ members.length := by
  cases h <;> simp

theorem length_valuesOf {names : List String} {js : List Json} {name : String}
    (h : (object members).fields? names = some js) (hname : name ∈ names) :
    (valuesOf name members).length = 1 := by
  have hvalues := (fields?_object_iff.1 h).2
  clear h
  induction hvalues with
  | nil => cases hname
  | cons hvalue _ ih =>
    rcases List.mem_cons.1 hname with rfl | hname
    · rw [hvalue, List.length_singleton]
    · exact ih hname

/-- An edit changes how often one name comes that is read, and nothing about the others. -/
theorem Edited.exists_name (h : Edited reads members members') :
    ∃ name, reads name ∧ (valuesOf name members').length ≠ (valuesOf name members).length ∧
      ∀ other, other ≠ name → valuesOf other members' = valuesOf other members := by
  have hother : ∀ {raw : List Char} {name other : String}, text? raw = some name → other ≠ name →
      text? raw ≠ some other := fun hraw hne heq =>
    hne (Option.some.inj (heq.symm.trans hraw))
  cases h with
  | repeated j hraw hreads =>
    refine ⟨_, hreads, ?_, fun other hne => valuesOf_insert_of_ne j (hother hraw hne)⟩
    rw [length_valuesOf_insert j hraw]
    exact Nat.succ_ne_self _
  | @removed _ _ _ _ j hraw hreads =>
    refine ⟨_, hreads, ?_, fun other hne => (valuesOf_insert_of_ne j (hother hraw hne)).symm⟩
    rw [length_valuesOf_insert j hraw]
    exact (Nat.succ_ne_self _).symm

/-- A record that has its fields has lost them after an edit. -/
theorem Edited.fields?_eq_none {names : List String} {js : List Json}
    (h : Edited (· ∈ names) members members') (hfields : (object members).fields? names = some js) :
    (object members').fields? names = none := by
  obtain ⟨name, hname, hcount, -⟩ := h.exists_name
  rw [Option.eq_none_iff_forall_ne_some]
  intro js' hfields'
  have hone := length_valuesOf hfields hname
  have hone' := length_valuesOf hfields' hname
  exact hcount (hone'.trans hone.symm)

section Fields

variable {fields : List (String × Shape)} {j j' : Json} {js js' : List Json}

/-- A record whose fields are values by themselves has lost them when it is spoilt. -/
theorem not_someSpoilt (h : ∀ f ∈ fields, f.2 = .scalar) : ¬ SomeSpoilt fields js js' := by
  intro hspoilt
  induction hspoilt with
  | head hfield =>
    obtain rfl := h _ List.mem_cons_self
    cases hfield
  | tail _ ih => exact ih (List.forall_mem_cons.1 h).2

theorem someSpoilt_of_mem {name : String} {shape : Shape} {raw : List Char}
    {before after : List (List Char × Json)} (hraw : text? raw = some name)
    (hspoilt : Spoilt shape j j') (hmem : (name, shape) ∈ fields)
    (hjs : List.Forall₂ (fun name y => valuesOf name (before ++ (raw, j) :: after) = [y])
      (fields.map Prod.fst) js)
    (hjs' : List.Forall₂ (fun name y => valuesOf name (before ++ (raw, j') :: after) = [y])
      (fields.map Prod.fst) js') :
    SomeSpoilt fields js js' := by
  have hone : ∀ {x y : Json}, valuesOf name (before ++ (raw, x) :: after) = [y] → x = y := by
    intro x y hvalues
    rw [valuesOf_append, valuesOf_cons_of_eq x hraw] at hvalues
    have hx : x ∈ [y] := hvalues ▸ List.mem_append_right _ List.mem_cons_self
    exact List.mem_singleton.1 hx
  induction fields generalizing js js' with
  | nil => cases hmem
  | cons f fields ih =>
    obtain ⟨y, ys, hy, hys, rfl⟩ := List.forall₂_cons_left_iff.1 hjs
    obtain ⟨y', ys', hy', hys', rfl⟩ := List.forall₂_cons_left_iff.1 hjs'
    rcases List.mem_cons.1 hmem with rfl | hmem
    · obtain rfl := hone hy
      obtain rfl := hone hy'
      exact .head hspoilt
    · exact .tail (ih hmem hys hys')

theorem someSpoilt_of_place {name : String} {shape : Shape} {before after : List Json}
    (hspoilt : Spoilt shape j j') (hplace : fields[before.length]? = some (name, shape)) :
    SomeSpoilt fields (before ++ j :: after) (before ++ j' :: after) := by
  induction before generalizing fields with
  | nil =>
    cases fields with
    | nil => cases hplace
    | cons f fields =>
      obtain rfl : f = (name, shape) := Option.some.inj hplace
      exact .head hspoilt
  | cons b before ih =>
    cases fields with
    | nil => cases hplace
    | cons f fields => exact .tail (ih hplace)

/-- A record that still has its fields when it is spoilt has a spoilt field. -/
theorem Spoilt.someSpoilt (h : Spoilt (.record fields) j j')
    (hj : j.fields? (fields.map Prod.fst) = some js)
    (hj' : j'.fields? (fields.map Prod.fst) = some js') : SomeSpoilt fields js js' := by
  cases h with
  | record hedit =>
    rw [hedit.fields?_eq_none hj] at hj'
    cases hj'
  | field hmem hraw hspoilt =>
    exact someSpoilt_of_mem hraw hspoilt hmem (fields?_object_iff.1 hj).2 (fields?_object_iff.1 hj').2
  | place hplace hspoilt =>
    obtain ⟨-, rfl⟩ := fields?_list_iff.1 hj
    obtain ⟨-, rfl⟩ := fields?_list_iff.1 hj'
    exact someSpoilt_of_place hspoilt hplace

/-- A first field that is a value by itself stays as it is where it is still found. -/
theorem Spoilt.head_eq {name : String} {names : List String} {x x' : Json}
    (h : Spoilt (.record ((name, .scalar) :: fields)) j j') (hname : name ∉ fields.map Prod.fst)
    (hj : j.fields? (name :: fields.map Prod.fst) = some (x :: js))
    (hj' : j'.fields? (name :: names) = some (x' :: js')) : x' = x := by
  have hmem : ∀ {shape : Shape}, (name, shape) ∈ (name, Shape.scalar) :: fields → shape = .scalar := by
    intro shape hmem
    rcases List.mem_cons.1 hmem with heq | hmem
    · exact (Prod.mk.inj heq).2
    · exact absurd (List.mem_map_of_mem hmem) hname
  cases h with
  | record hedit =>
    obtain ⟨edited, -, hcount, hsame⟩ := hedit.exists_name
    have hx := (List.forall₂_cons.1 (fields?_object_iff.1 hj).2).1
    have hx' := (List.forall₂_cons.1 (fields?_object_iff.1 hj').2).1
    have hne : name ≠ edited := by
      rintro rfl
      rw [hx, hx'] at hcount
      exact hcount rfl
    rw [hsame name hne, hx, List.cons.injEq] at hx'
    exact hx'.1.symm
  | @field _ other shape raw before after y y' hfield hraw hspoilt =>
    have hx := (List.forall₂_cons.1 (fields?_object_iff.1 hj).2).1
    have hx' := (List.forall₂_cons.1 (fields?_object_iff.1 hj').2).1
    have hne : text? raw ≠ some name := by
      intro heq
      obtain rfl : other = name := Option.some.inj (hraw.symm.trans heq)
      obtain rfl := hmem hfield
      cases hspoilt
    rw [valuesOf_insert_of_ne _ hne] at hx hx'
    rw [hx, List.cons.injEq] at hx'
    exact hx'.1.symm
  | @place _ other shape before after y y' hplace hspoilt =>
    have hx := (fields?_list_iff.1 hj).2
    have hx' := (fields?_list_iff.1 hj').2
    cases before with
    | nil =>
      obtain heq : (name, Shape.scalar) = (other, shape) := Option.some.inj hplace
      obtain ⟨rfl, rfl⟩ := Prod.mk.inj heq
      cases hspoilt
    | cons b before => rw [← (List.cons.inj hx).1, ← (List.cons.inj hx').1]

end Fields

end RobotConsole.Json
