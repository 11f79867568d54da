import RobotConsole.Proofs.Robot.Members

/-!
Primitives by the names of their members.  The tag says which of the other members are read, and may
stand behind them: a primitive is read as a record that has its tag among its members.  With it, all
messages are read by name, so of a message's document only the members themselves matter.
-/

namespace RobotConsole

open Json

namespace Primitive

theorem bare_of_direction? {members : List (List Char × Json)} {d : Direction}
    (h : direction? (.object members) = some d) : ∃ raw j, members = [(raw, j)] ∧ j.IsBare := by
  unfold direction? at h
  split at h
  · next heq => cases heq
  · next raw heq =>
    cases heq
    exact ⟨raw, .null, rfl, trivial⟩
  · next raw heq =>
    cases heq
    exact ⟨raw, .object [], rfl, rfl⟩
  · cases h

theorem readByName_direction? : ReadByName direction? fun _ => .choice where
  reordered {j j' d} hd h := by
    induction h with
    | refl => exact hd
    | trans _ _ ih ih' => exact ih' (ih hd)
    | members hperm =>
      obtain ⟨raw, j, rfl, -⟩ := bare_of_direction? hd
      rwa [List.perm_singleton.1 hperm.symm]
    | @member before after _ j j' hj _ =>
      obtain ⟨raw, y, heq, hbare⟩ := bare_of_direction? hd
      cases before with
      | nil =>
        cases heq
        rwa [hj.eq_of_isBare hbare]
      | cons m before => simp at heq
    | item => cases hd
  spoilt {j j' d} hd h := by
    cases h with
    | choice hedit =>
      obtain ⟨raw, y, rfl, -⟩ := bare_of_direction? hd
      rw [Option.eq_none_iff_forall_ne_some]
      intro d' hd'
      obtain ⟨raw', y', rfl, -⟩ := bare_of_direction? hd'
      exact hedit.length_ne rfl

def tag : Primitive → String
  | .rotate _ => "rotate"
  | .move _ _ _ => "move"
  | .chip _ => "chip"
  | .kick _ => "kick"
  | .dribble _ => "dribble"
  | .stop => "stop"

/-- The members that are read beside the tag. -/
def parts : Primitive → List (String × Shape)
  | .rotate _ | .dribble _ => [("velocity_rad_per_s", .scalar)]
  | .move _ _ _ => [("direction", .choice), ("heading_degrees", .scalar), ("speed", .scalar)]
  | .chip _ => [("distance_m", .scalar)]
  | .kick _ => [("speed_m_per_s", .scalar)]
  | .stop => []

def shape (p : Primitive) : Shape := .record ((tagName, .scalar) :: p.parts)

def ReadFrom (fields : List Json) : Primitive → Prop
  | .rotate x | .chip x | .kick x | .dribble x => ∃ y, fields = [y] ∧ y.single? = some x
  | .move d h s => ∃ x y z n, fields = [x, y, z] ∧ direction? x = some d ∧
      y.nat? (2 ^ 16) = some n ∧ z.single? = some s ∧ n.toUInt16 = h
  | .stop => fields = []

theorem single?_eq_some_iff {name : String} {body : Json} {x : Single} :
    single? name body = some x ↔
      ∃ fields, body.fields? [name] = some fields ∧ ∃ y, fields = [y] ∧ y.single? = some x := by
  rw [single?.eq_def]
  constructor
  · intro h
    split at h
    · next y hfields => exact ⟨_, hfields, y, rfl, h⟩
    · cases h
  · rintro ⟨_, hfields, y, rfl, hy⟩
    simp only [hfields, hy]

/-- A body is read by its tag and by the names of its members. -/
theorem ofBody?_eq_some_iff {tag : String} {body : Json} {p : Primitive}
    (hbody : ∀ members, body = .object members → ∀ m ∈ members, (text? m.1).isSome) :
    ofBody? tag body = some p ↔ tag = p.tag ∧
      ∃ fields, body.fields? (p.parts.map Prod.fst) = some fields ∧ p.ReadFrom fields := by
  constructor
  · intro h
    unfold ofBody? at h
    split at h
    · obtain ⟨x, hx, rfl⟩ := Option.map_eq_some_iff.1 h
      exact ⟨rfl, single?_eq_some_iff.1 hx⟩
    · split at h
      · next x y z hfields =>
        split at h
        · next d n s hdirection hheading hspeed =>
          cases h
          exact ⟨rfl, _, hfields, x, y, z, n, rfl, hdirection, hheading, hspeed, rfl⟩
        · cases h
      · cases h
    · obtain ⟨x, hx, rfl⟩ := Option.map_eq_some_iff.1 h
      exact ⟨rfl, single?_eq_some_iff.1 hx⟩
    · obtain ⟨x, hx, rfl⟩ := Option.map_eq_some_iff.1 h
      exact ⟨rfl, single?_eq_some_iff.1 hx⟩
    · obtain ⟨x, hx, rfl⟩ := Option.map_eq_some_iff.1 h
      exact ⟨rfl, single?_eq_some_iff.1 hx⟩
    · split at h
      · next members =>
        cases h
        exact ⟨rfl, [], fields?_object_iff.2 ⟨hbody members rfl, .nil⟩, rfl⟩
      · cases h
        exact ⟨rfl, [], rfl, rfl⟩
      · cases h
    · cases h
  · rintro ⟨rfl, hfields⟩
    cases p with
    | rotate x => exact Option.map_eq_some_iff.2 ⟨x, single?_eq_some_iff.2 hfields, rfl⟩
    | chip x => exact Option.map_eq_some_iff.2 ⟨x, single?_eq_some_iff.2 hfields, rfl⟩
    | kick x => exact Option.map_eq_some_iff.2 ⟨x, single?_eq_some_iff.2 hfields, rfl⟩
    | dribble x => exact Option.map_eq_some_iff.2 ⟨x, single?_eq_some_iff.2 hfields, rfl⟩
    | move d h s =>
      obtain ⟨_, hfields, x, y, z, n, rfl, hdirection, hheading, hspeed, rfl⟩ := hfields
      change body.fields? ["direction", "heading_degrees", "speed"] = _ at hfields
      simp only [ofBody?, tag, hfields, hdirection, hheading, hspeed]
    | stop =>
      obtain ⟨_, hfields, rfl⟩ := hfields
      cases body with
      | object members => rfl
      | list items =>
        obtain ⟨-, rfl⟩ := fields?_list_iff.1 hfields
        rfl
      | _ => cases hfields

theorem untagged_parts (p : Primitive) : tagName ∉ p.parts.map Prod.fst := by
  cases p <;> simp [parts, tagName]

theorem parts_eq_of_tag {p p' : Primitive} (h : p'.tag = p.tag) : p'.parts = p.parts := by
  cases p <;> cases p' <;> first | rfl | simp [tag] at h

section Untagged

variable {members : List (List Char × Json)}

/-- Leaving out the tag leaves the members of other names. -/
theorem valuesOf_untagged {name : String} (h : name ≠ tagName) :
    valuesOf name (members.filter fun (raw, _) => text? raw ≠ some tagName) =
      valuesOf name members := by
  rw [valuesOf, List.filter_filter, valuesOf]
  congr 1
  refine List.filter_congr fun m _ => ?_
  by_cases hname : text? m.1 = some name
  · simp [hname, h]
  · simp [hname]

theorem forall₂_untagged {names : List String} {fields : List Json} (h : tagName ∉ names) :
    List.Forall₂ (fun name j =>
        valuesOf name (members.filter fun (raw, _) => text? raw ≠ some tagName) = [j]) names fields ↔
      List.Forall₂ (fun name j => valuesOf name members = [j]) names fields := by
  induction names generalizing fields with
  | nil => rw [List.forall₂_nil_left_iff, List.forall₂_nil_left_iff]
  | cons name names ih =>
    rw [List.mem_cons, not_or] at h
    obtain ⟨hname, hnames⟩ := h
    simp only [List.forall₂_cons_left_iff, valuesOf_untagged (Ne.symm hname), ih hnames]

/-- The members of an object are a primitive's if they are so with the tag among them. -/
theorem ofBody?_untagged_iff {raw : List Char} {tag : String} {p : Primitive}
    (htexts : ∀ m ∈ members, (text? m.1).isSome) (htag : valuesOf tagName members = [.string raw]) :
    ofBody? tag (.object (members.filter fun (raw, _) => text? raw ≠ some tagName)) = some p ↔
      tag = p.tag ∧ ∃ fields,
        (object members).fields? (tagName :: p.parts.map Prod.fst) = some (.string raw :: fields) ∧
        p.ReadFrom fields := by
  have hrest : ∀ m ∈ members.filter fun (raw, _) => text? raw ≠ some tagName,
      (text? m.1).isSome := fun m hm => htexts m (List.mem_of_mem_filter hm)
  have hbody : ∀ fields,
      (object (members.filter fun (raw, _) => text? raw ≠ some tagName)).fields?
          (p.parts.map Prod.fst) = some fields ↔
        (object members).fields? (tagName :: p.parts.map Prod.fst) = some (.string raw :: fields) := by
    intro fields
    rw [fields?_object_iff, fields?_object_iff, forall₂_untagged p.untagged_parts,
      List.forall₂_cons]
    exact ⟨fun h => ⟨htexts, htag, h.2⟩, fun h => ⟨hrest, h.2.2⟩⟩
  rw [ofBody?_eq_some_iff fun _ heq => by cases heq; exact hrest]
  simp only [hbody]

end Untagged

/-- A primitive is read as a record that has its tag among its members. -/
theorem ofJson?_eq_some_iff {j : Json} {p : Primitive} : ofJson? j = some p ↔
    j.sound = true ∧ j.depth ≤ 127 ∧ ∃ raw fields,
      j.fields? (tagName :: p.parts.map Prod.fst) = some (.string raw :: fields) ∧
      text? raw = some p.tag ∧ p.ReadFrom fields := by
  rw [ofJson?.eq_def]
  constructor
  · intro h
    split_ifs at h with hsound
    refine ⟨hsound.1, hsound.2, ?_⟩
    split at h
    · next members =>
      split at h
      · cases h
      · next ms htexts =>
        have hisSome := isSome_texts?_iff.1 (Option.isSome_of_eq_some htexts)
        rw [named_of_texts? htexts] at h
        split at h
        · next raw hvalues =>
          obtain ⟨tag, htag, h⟩ := Option.bind_eq_some_iff.1 h
          obtain ⟨rfl, fields, hfields, hread⟩ := (ofBody?_untagged_iff hisSome hvalues).1 h
          exact ⟨raw, fields, hfields, htag, hread⟩
        · cases h
    · next raw rest =>
      obtain ⟨tag, htag, h⟩ := Option.bind_eq_some_iff.1 h
      obtain ⟨rfl, fields, hfields, hread⟩ := (ofBody?_eq_some_iff (by simp)).1 h
      obtain ⟨hlength, rfl⟩ := fields?_list_iff.1 hfields
      exact ⟨raw, rest, fields?_list_iff.2 ⟨congrArg (· + 1) hlength, rfl⟩, htag, hread⟩
    · cases h
  · rintro ⟨hsound, hdepth, raw, fields, hfields, htag, hread⟩
    rw [if_pos ⟨hsound, hdepth⟩]
    cases j with
    | object members =>
      obtain ⟨hisSome, hvalues⟩ := fields?_object_iff.1 hfields
      obtain ⟨ms, htexts⟩ := Option.isSome_iff_exists.1 (isSome_texts?_iff.2 hisSome)
      have htags := (List.forall₂_cons.1 hvalues).1
      simp only [htexts, named_of_texts? htexts, htags, htag, Option.bind_some]
      exact (ofBody?_untagged_iff hisSome htags).2 ⟨rfl, fields, hfields, hread⟩
    | list items =>
      obtain ⟨hlength, rfl⟩ := fields?_list_iff.1 hfields
      simp only [htag, Option.bind_some]
      refine (ofBody?_eq_some_iff (by simp)).2 ⟨rfl, fields, fields?_list_iff.2 ⟨?_, rfl⟩, hread⟩
      exact Nat.succ.inj hlength
    | _ => cases hfields

theorem readFrom_reordered {p : Primitive} {fields fields' : List Json}
    (h : List.Forall₂ Reordered fields fields') (hp : p.ReadFrom fields) : p.ReadFrom fields' := by
  have hone : ∀ {x : Single}, (∃ y, fields = [y] ∧ y.single? = some x) →
      ∃ y, fields' = [y] ∧ y.single? = some x := by
    rintro x ⟨y, rfl, hy⟩
    obtain _ | ⟨hys, _ | _⟩ := h
    obtain rfl := hys.eq_of_isBare (isBare_of_single? hy)
    exact ⟨_, rfl, hy⟩
  cases p with
  | move d n s =>
    obtain ⟨x, y, z, n, rfl, hdirection, hheading, hspeed, rfl⟩ := hp
    obtain _ | ⟨hxs, _ | ⟨hys, _ | ⟨hzs, _ | _⟩⟩⟩ := h
    obtain rfl := hys.eq_of_isBare (isBare_of_nat? hheading)
    obtain rfl := hzs.eq_of_isBare (isBare_of_single? hspeed)
    exact ⟨_, _, _, n, rfl, readByName_direction?.reordered hdirection hxs, hheading, hspeed, rfl⟩
  | stop =>
    obtain rfl := hp
    cases h
    rfl
  | _ => exact hone hp

theorem not_readFrom_spoilt {p p' : Primitive} {fields fields' : List Json}
    (h : SomeSpoilt p.parts fields fields') (htag : p'.tag = p.tag) (hp : p.ReadFrom fields) :
    ¬ p'.ReadFrom fields' := by
  cases p with
  | move d n s =>
    cases p' with
    | move d' n' s' =>
      obtain ⟨x, _, _, _, rfl, hdirection, -⟩ := hp
      rintro ⟨x', _, _, _, rfl, hdirection', -⟩
      -- the other two members are values by themselves
      obtain ⟨hspoilt⟩ | ⟨hspoilt⟩ := h
      · rw [readByName_direction?.spoilt hdirection hspoilt] at hdirection'
        cases hdirection'
      · exact absurd hspoilt (not_someSpoilt (by simp))
    | _ => simp [tag] at htag
  | _ => exact absurd h (not_someSpoilt (by simp [parts]))

theorem readByName : ReadByName ofJson? shape where
  reordered {j j' p} hp h := by
    obtain ⟨hsound, hdepth, raw, fields, hfields, htag, hread⟩ := ofJson?_eq_some_iff.1 hp
    obtain ⟨js', hfields', hforall⟩ := h.fields? hfields
    obtain _ | ⟨htags, hrest⟩ := hforall
    obtain rfl := htags.eq_of_isBare trivial
    exact ofJson?_eq_some_iff.2 ⟨h.sound hsound, h.depth_le.trans hdepth, raw, _, hfields', htag,
      readFrom_reordered hrest hread⟩
  spoilt {j j' p} hp h := by
    obtain ⟨-, -, raw, fields, hfields, htag, hread⟩ := ofJson?_eq_some_iff.1 hp
    rw [Option.eq_none_iff_forall_ne_some]
    intro p' hp'
    obtain ⟨-, -, raw', fields', hfields', htag', hread'⟩ := ofJson?_eq_some_iff.1 hp'
    have hhead := h.head_eq p.untagged_parts hfields hfields'
    cases hhead
    have htags : p'.tag = p.tag := Option.some.inj (htag'.symm.trans htag)
    rw [parts_eq_of_tag htags] at hfields'
    obtain ⟨⟨⟩⟩ | ⟨hspoilt⟩ := h.someSpoilt hfields hfields'
    exact not_readFrom_spoilt hspoilt htags hread hread'

end Primitive

/-- What the members of a message's document decide about the documents like it. -/
structure NamesDecide {α : Type} (decode? : List UInt8 → Option α) (shape : Shape) (j : Json) (v : α) :
    Prop where
  /-- With the members of its objects in any other orders it is the same message, however it is
  written. -/
  reordered : ∀ j', Reordered j j' → decode? j'.octets = some v ∧
    ∀ bytes, Json.ofOctets? bytes = some j' → decode? bytes = some v
  /-- With one member that is read too many or too few it is none. -/
  spoilt : ∀ j', Spoilt shape j j' → ∀ bytes, Json.ofOctets? bytes = some j' → decode? bytes = none

section Messages

variable {α : Type} {ofJson? : Json → Option α} {shape : α → Shape}

/-- A kind of message that is read by name depends on the names of its members alone. -/
theorem exists_namesDecide (h : ReadByName ofJson? shape) {bytes : List UInt8} {v : α}
    (hv : (Json.ofOctets? bytes).bind ofJson? = some v) :
    ∃ j, Json.ofOctets? bytes = some j ∧
      NamesDecide (fun bytes => (Json.ofOctets? bytes).bind ofJson?) (shape v) j v := by
  obtain ⟨j, hj, hv⟩ := Option.bind_eq_some_iff.1 hv
  have hdecode : ∀ {bytes j'}, Json.ofOctets? bytes = some j' →
      (Json.ofOctets? bytes).bind ofJson? = ofJson? j' := by
    intro bytes j' hj'
    rw [hj', Option.bind_some]
  refine ⟨j, hj, fun j' hreordered => ?_, fun j' hspoilt bytes' hj' => ?_⟩
  · have hv' := h.reordered hv hreordered
    have hlegible := hreordered.legible (legible_of_ofOctets? hj)
    exact ⟨(hdecode (ofOctets?_of_legible hlegible)).trans hv',
      fun bytes' hj' => (hdecode hj').trans hv'⟩
  · exact (hdecode hj').trans (h.spoilt hv hspoilt)

end Messages

/-- Whatever octets a message is read from: in any order its document's members are the same message,
and with one of those that are read repeated or left out they are none. -/
theorem namesDecide_of_decode? (bytes : List UInt8) :
    (∀ s, RobotStatus.decode? bytes = some s → ∃ j, Json.ofOctets? bytes = some j ∧
      NamesDecide RobotStatus.decode? RobotStatus.shape j s) ∧
    (∀ t, TeamSnapshot.decode? bytes = some t → ∃ j, Json.ofOctets? bytes = some j ∧
      NamesDecide TeamSnapshot.decode? TeamSnapshot.shape j t) ∧
    ∀ p, Primitive.decode? bytes = some p → ∃ j, Json.ofOctets? bytes = some j ∧
      NamesDecide Primitive.decode? p.shape j p :=
  ⟨fun _ => exists_namesDecide RobotStatus.readByName,
    fun _ => exists_namesDecide TeamSnapshot.readByName,
    fun _ => exists_namesDecide Primitive.readByName⟩

/-- Stopping reads its tag alone, but that once. -/
example : Primitive.decode? (toOctets
    "\x7b\"speed\":1,\"speed\":2,\"primitive\":\"stop\"\x7d".toList) = some .stop := by decide +kernel

example : Primitive.decode? (toOctets
    "\x7b\"primitive\":\"stop\",\"primitive\":\"stop\"\x7d".toList) = none := by decide +kernel

/-- Members that mean nothing, and a tag behind them. -/
theorem namesDecide_of_unknown :
    (∃ j, Json.ofOctets? (toOctets
          ("\x7b\"running_primitive\":true,\"robot_id\":7,\"\":\x7b\x7d,\"battery_voltage\":24,".toList ++
            "\"sequence_number\":1,\"primitive_packet_loss_percentage\":3,".toList ++
            "\"epoch_timestamp_seconds\":2,\"capacitor_voltage\":0.5\x7d".toList)) = some j ∧
      NamesDecide RobotStatus.decode? RobotStatus.shape j ⟨7, 1, 2, 24, 0.5, 3, true⟩) ∧
    (∃ j, Json.ofOctets? (toOctets
          ("\x7b\"team\":1,\"robots\":[\x7b\"position\":".toList ++
            "\x7b\"y\":1,\"x\":-0.5\x7d,\"id\":3\x7d]\x7d".toList)) = some j ∧
      NamesDecide TeamSnapshot.decode? TeamSnapshot.shape j ⟨[⟨3, ⟨-0.5, 1⟩⟩]⟩) ∧
    ∃ j, Json.ofOctets? (toOctets
          ("\x7b\"speed\":1,\"direction\":\x7b\"Left\":null\x7d,\"why\":[],".toList ++
            "\"primitive\":\"move\",\"heading_degrees\":90\x7d".toList)) = some j ∧
      NamesDecide Primitive.decode? (Primitive.move .left 90 1).shape j (.move .left 90 1) :=
  ⟨(namesDecide_of_decode? _).1 _ (by decide +kernel),
    (namesDecide_of_decode? _).2.1 _ (by decide +kernel),
    (namesDecide_of_decode? _).2.2 _ (by decide +kernel)⟩

end RobotConsole
