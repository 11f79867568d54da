import RobotConsole.Proofs.Robot.Primitive

/-!
The datagrams of all messages.  A message of finite floats is read as it was sent, as far as its
floats are read as they are written.  A message with any other float is refused.
-/

namespace RobotConsole

open Json

namespace Json

theorem namesPlain_iff {fields : List (String × Json)} :
    NamesPlain fields ↔ ∀ name ∈ fields.map Prod.fst, IsPlainText name.toList := by
  simp [NamesPlain]

theorem itemsPlain_map {α : Type} {f : α → Json} (h : ∀ a, (f a).IsPlain) (items : List α) :
    ItemsPlain (items.map f) := by
  induction items with
  | nil => trivial
  | cons a items ih => exact ⟨h a, ih⟩

/-- A record of these names has exactly the values that it was made of. -/
theorem fields?_zip {names : List String} {values : List Json}
    (hplain : ∀ name ∈ names, IsPlainText name.toList) (hnodup : names.Nodup)
    (hlength : names.length = values.length) :
    (record (names.zip values)).fields? names = some values := by
  have hnames : (names.zip values).map Prod.fst = names := List.map_fst_zip hlength.le
  have hvalues : (names.zip values).map Prod.snd = values := List.map_snd_zip hlength.ge
  have h := fields?_record (names.zip values) (namesPlain_iff.2 (by rwa [hnames])) (by rwa [hnames])
  rwa [hnames, hvalues] at h

theorem isPlain_zip {names : List String} {values : List Json}
    (hplain : ∀ name ∈ names, IsPlainText name.toList) (hvalues : ∀ j ∈ values, j.IsPlain) :
    (record (names.zip values)).IsPlain := by
  refine membersPlain_members (fun f hf => hplain f.1 ?_) fun f hf => hvalues f.2 ?_
  · exact (List.of_mem_zip hf).1
  · exact (List.of_mem_zip hf).2

end Json

namespace RobotStatus

def floats (s : RobotStatus) : List Single := [s.batteryVoltage, s.capacitorVoltage]

theorem plain_fieldNames : ∀ name ∈ fieldNames, IsPlainText name.toList := by decide

theorem isPlain_toJson (s : RobotStatus) : s.toJson.IsPlain := by
  refine isPlain_zip plain_fieldNames ?_
  simp [isPlain_ofNat, isPlain_ofSingle, IsPlain]

theorem ofJson?_toJson {s : RobotStatus} (h : ∀ x ∈ s.floats, x.isFinite = true → ReadsBack x) :
    ofJson? s.toJson = if s.floats.all Binary.isFinite then some s else none := by
  have hbattery := single?_ofSingle (h s.batteryVoltage (by simp [floats]))
  have hcapacitor := single?_ofSingle (h s.capacitorVoltage (by simp [floats]))
  have hid := nat?_ofNat s.robotId.toNat_lt (by decide)
  have hsequence := nat?_ofNat s.sequenceNumber.toNat_lt (by decide)
  have htimestamp := nat?_ofNat s.timestamp.toNat_lt (by decide)
  have hloss := nat?_ofNat s.primitiveLoss.toNat_lt (by decide)
  rw [ofJson?, toJson, fields?_zip plain_fieldNames (by decide) rfl]
  simp only [Option.bind_eq_bind, Option.bind_some, Option.pure_def, hid, hsequence, htimestamp,
    hbattery, hcapacitor, hloss, bool?]
  cases hb : s.batteryVoltage.isFinite with
  | false => simp [floats, hb]
  | true =>
    cases hc : s.capacitorVoltage.isFinite with
    | false => simp [floats, hb, hc]
    | true => simp [floats, hb, hc]

/-- A status is read as it was sent, if it is finite. -/
theorem decode?_encode {s : RobotStatus} (h : ∀ x ∈ s.floats, x.isFinite = true → ReadsBack x) :
    decode? s.encode = if s.floats.all Binary.isFinite then some s else none := by
  rw [decode?, encode, ofOctets?_octets (isPlain_toJson s), Option.bind_some, ofJson?_toJson h]

end RobotStatus

namespace Position

def floats (p : Position) : List Single := [p.x, p.y]

theorem toJson_eq_zip (p : Position) :
    toJson p = record (["x", "y"].zip [.ofSingle p.x, .ofSingle p.y]) := rfl

theorem isPlain_toJson (p : Position) : (toJson p).IsPlain := by
  rw [toJson_eq_zip]
  exact isPlain_zip (by decide) (by simp [isPlain_ofSingle])

theorem ofJson?_toJson {p : Position}
    (h : ∀ x ∈ floats p, x.isFinite = true → ReadsBack x) :
    ofJson? (toJson p) = if (floats p).all Binary.isFinite then some p else none := by
  have hx := single?_ofSingle (h p.x (by simp [floats]))
  have hy := single?_ofSingle (h p.y (by simp [floats]))
  rw [ofJson?, toJson_eq_zip, fields?_zip (by decide) (by decide) rfl]
  simp only [hx, hy, floats, List.all_cons, List.all_nil, Bool.and_true]
  cases p.x.isFinite <;> cases p.y.isFinite <;> rfl

end Position

namespace RobotState

def floats (r : RobotState) : List Single := Position.floats r.position

theorem toJson_eq_zip (r : RobotState) :
    r.toJson = record (["id", "position"].zip [.ofNat r.id.toNat, Position.toJson r.position]) :=
  rfl

theorem isPlain_toJson (r : RobotState) : r.toJson.IsPlain := by
  rw [toJson_eq_zip]
  exact isPlain_zip (by decide) (by simp [isPlain_ofNat, Position.isPlain_toJson])

theorem ofJson?_toJson {r : RobotState} (h : ∀ x ∈ r.floats, x.isFinite = true → ReadsBack x) :
    ofJson? r.toJson = if r.floats.all Binary.isFinite then some r else none := by
  have hid := nat?_ofNat r.id.toNat_lt (by decide)
  have hposition : Position.ofJson? (Position.toJson r.position) =
      if r.floats.all Binary.isFinite then some r.position else none := Position.ofJson?_toJson h
  rw [ofJson?, toJson_eq_zip, fields?_zip (by decide) (by decide) rfl]
  simp only [hid, hposition]
  by_cases hall : r.floats.all Binary.isFinite = true
  · simp [hall]
  · simp only [if_neg hall]

end RobotState

namespace TeamSnapshot

def floats (s : TeamSnapshot) : List Single := s.robots.flatMap RobotState.floats

theorem toJson_eq_zip (s : TeamSnapshot) :
    s.toJson = record (["robots"].zip [.list (s.robots.map RobotState.toJson)]) := rfl

theorem isPlain_toJson (s : TeamSnapshot) : s.toJson.IsPlain := by
  rw [toJson_eq_zip]
  exact isPlain_zip (by decide)
    (List.forall_mem_singleton.2 (itemsPlain_map RobotState.isPlain_toJson s.robots))

/-- One robot that is not finite spoils the list. -/
theorem mapM_toJson {robots : List RobotState}
    (h : ∀ x ∈ robots.flatMap RobotState.floats, x.isFinite = true → ReadsBack x) :
    (robots.map RobotState.toJson).mapM RobotState.ofJson? =
      if (robots.flatMap RobotState.floats).all Binary.isFinite then some robots else none := by
  induction robots with
  | nil => rfl
  | cons r robots ih =>
    simp only [List.flatMap_cons, List.forall_mem_append] at h
    rw [List.map_cons, List.mapM_cons, RobotState.ofJson?_toJson h.1, ih h.2, List.flatMap_cons,
      List.all_append]
    cases r.floats.all Binary.isFinite with
    | false => rfl
    | true => cases (robots.flatMap RobotState.floats).all Binary.isFinite <;> rfl

theorem ofJson?_toJson {s : TeamSnapshot} (h : ∀ x ∈ s.floats, x.isFinite = true → ReadsBack x) :
    ofJson? s.toJson = if s.floats.all Binary.isFinite then some s else none := by
  rw [ofJson?, toJson_eq_zip, fields?_zip (by decide) (by decide) rfl]
  have hrobots : (s.robots.map RobotState.toJson).mapM RobotState.ofJson? =
      if s.floats.all Binary.isFinite then some s.robots else none := mapM_toJson h
  simp only [hrobots]
  by_cases hall : s.floats.all Binary.isFinite = true
  · simp only [if_pos hall, Option.map_some]
  · simp only [if_neg hall, Option.map_none]

/-- A snapshot is read as it was sent, if all of it is finite. -/
theorem decode?_encode {s : TeamSnapshot} (h : ∀ x ∈ s.floats, x.isFinite = true → ReadsBack x) :
    decode? s.encode = if s.floats.all Binary.isFinite then some s else none := by
  rw [decode?, encode, ofOctets?_octets (isPlain_toJson s), Option.bind_some, ofJson?_toJson h]

end TeamSnapshot

section Messages

variable {p : Primitive} {s : RobotStatus} {t : TeamSnapshot}

/-- Where finite floats are read as they are written, a message of finite floats is read as it was
sent, and any other message is refused. -/
theorem decode?_encode_messages
    (h : ∀ x ∈ p.floats ++ s.floats ++ t.floats, x.isFinite = true → ReadsBack x) :
    Primitive.decode? p.encode = (if ∀ x ∈ p.floats, x.isFinite then some p else none) ∧
    RobotStatus.decode? s.encode = (if ∀ x ∈ s.floats, x.isFinite then some s else none) ∧
    TeamSnapshot.decode? t.encode = if ∀ x ∈ t.floats, x.isFinite then some t else none := by
  simp only [List.forall_mem_append] at h
  obtain ⟨⟨hprimitive, hstatus⟩, hsnapshot⟩ := h
  rw [Primitive.decode?_encode_eq hprimitive, RobotStatus.decode?_encode hstatus,
    TeamSnapshot.decode?_encode hsnapshot]
  simp only [List.all_eq_true, and_self]

/-- The smallest float and a negative zero come through, but not a place that is no number. -/
theorem decode?_encode_messages_of_corner :
    Primitive.decode? (Primitive.move .left 180 33.3).encode = some (.move .left 180 33.3) ∧
    RobotStatus.decode? (RobotStatus.encode ⟨7, 18446744073709551615, 1, .zero true, 1e-45, 3, true⟩) =
      some ⟨7, 18446744073709551615, 1, .zero true, 1e-45, 3, true⟩ ∧
    TeamSnapshot.decode? (TeamSnapshot.encode ⟨[⟨1, 0.1, -2.5⟩, ⟨1, .nan, 3⟩]⟩) = none := by
  have h := @decode?_encode_messages (.move .left 180 33.3)
    ⟨7, 18446744073709551615, 1, .zero true, 1e-45, 3, true⟩ ⟨[⟨1, 0.1, -2.5⟩, ⟨1, .nan, 3⟩]⟩
    (by decide +kernel)
  rwa [if_pos (by decide +kernel), if_pos (by decide +kernel), if_neg (by decide +kernel)] at h

end Messages
end RobotConsole
