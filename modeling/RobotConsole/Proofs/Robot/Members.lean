import RobotConsole.Proofs.Json.Shape
import RobotConsole.Robot.Datagram

/-!
The members of the documents that messages are read from.  A message is read by the names of the
members: in whatever order its objects list them, and whatever else they list, it is the same message.
But each member that is read has to be there, and to be there once; with one too many or one too few,
at any depth, the document is no message.
-/

namespace RobotConsole

namespace Json

/-- How a kind of document is read: the order of members makes no difference, and to spoil a document,
given which members of it are read, makes it unreadable. -/
structure ReadByName {α : Type} (ofJson? : Json → Option α) (shape : α → Shape) : Prop where
  reordered : ∀ {j j' v}, ofJson? j = some v → Reordered j j' → ofJson? j' = some v
  spoilt : ∀ {j j' v}, ofJson? j = some v → Spoilt (shape v) j j' → ofJson? j' = none

section Bare

variable {j : Json}

theorem isBare_of_single? {x : Single} (h : j.single? = some x) : j.IsBare := by
  cases j with
  | number => trivial
  | _ => cases h

theorem isBare_of_nat? {bound n : Nat} (h : j.nat? bound = some n) : j.IsBare := by
  cases j with
  | number => trivial
  | _ => cases h

theorem isBare_of_bool? {b : Bool} (h : j.bool? = some b) : j.IsBare := by
  cases j with
  | bool => trivial
  | _ => cases h

end Bare

theorem Reordered.fields?_of_isBare {names : List String} {j j' : Json} {js : List Json}
    (h : Reordered j j') (hj : j.fields? names = some js) (hbare : ∀ y ∈ js, y.IsBare) :
    j'.fields? names = some js := by
  obtain ⟨js', hj', hforall⟩ := h.fields? hj
  rw [hj']
  clear hj hj'
  induction hforall with
  | nil => rfl
  | cons hy _ ih =>
    obtain ⟨hbare, hbares⟩ := List.forall_mem_cons.1 hbare
    rw [hy.eq_of_isBare hbare, Option.some.inj (ih hbares)]

/-- A record of values that are read by themselves is read by name. -/
theorem readByName_of_bare {α : Type} {ofJson? : Json → Option α} {fields : List (String × Shape)}
    (hscalar : ∀ f ∈ fields, f.2 = .scalar)
    (hsome : ∀ {j v}, ofJson? j = some v →
      ∃ js, j.fields? (fields.map Prod.fst) = some js ∧ ∀ y ∈ js, y.IsBare)
    (hcongr : ∀ {j j'}, j'.fields? (fields.map Prod.fst) = j.fields? (fields.map Prod.fst) →
      ofJson? j' = ofJson? j) :
    ReadByName ofJson? fun _ => .record fields where
  reordered {j j' v} hv h := by
    obtain ⟨js, hj, hbare⟩ := hsome hv
    rw [hcongr ((h.fields?_of_isBare hj hbare).trans hj.symm), hv]
  spoilt {j j' v} hv h := by
    obtain ⟨js, hj, -⟩ := hsome hv
    rw [Option.eq_none_iff_forall_ne_some]
    intro v' hv'
    obtain ⟨js', hj', -⟩ := hsome hv'
    exact not_someSpoilt hscalar (h.someSpoilt hj hj')

end Json

open Json

namespace Position

def shape : Shape := .record [("x", .scalar), ("y", .scalar)]

theorem readByName : ReadByName ofJson? fun _ => shape := by
  refine readByName_of_bare (by simp) ?_ ?_
  · intro j p h
    rw [ofJson?.eq_def] at h
    split at h
    · next x y hfields =>
      split at h
      · next hx hy =>
        refine ⟨[x, y], hfields, ?_⟩
        simp [isBare_of_single? hx, isBare_of_single? hy]
      · cases h
    · cases h
  · intro j j' (h : j'.fields? ["x", "y"] = j.fields? ["x", "y"])
    rw [ofJson?, ofJson?, h]

end Position

namespace RobotState

def shape : Shape := .record [("id", .scalar), ("position", Position.shape)]

theorem ofJson?_eq_some_iff {j : Json} {r : RobotState} : ofJson? j = some r ↔
    ∃ id position n, j.fields? ["id", "position"] = some [id, position] ∧
      id.nat? (2 ^ 32) = some n ∧ Position.ofJson? position = some r.position ∧
      n.toUInt32 = r.id := by
  rw [ofJson?.eq_def]
  constructor
  · intro h
    split at h
    · next id position hfields =>
      split at h
      · next n p hid hposition =>
        cases h
        exact ⟨id, position, n, hfields, hid, hposition, rfl⟩
      · cases h
    · cases h
  · rintro ⟨id, position, n, hfields, hid, hposition, hn⟩
    simp only [hfields, hid, hposition, hn]

theorem readByName : ReadByName ofJson? fun _ => shape where
  reordered {j j' r} hr h := by
    obtain ⟨id, position, n, hfields, hid, hposition, hn⟩ := ofJson?_eq_some_iff.1 hr
    obtain ⟨js', hfields', hforall⟩ := h.fields? hfields
    obtain _ | ⟨hids, _ | ⟨hpositions, _ | _⟩⟩ := hforall
    obtain rfl := hids.eq_of_isBare (isBare_of_nat? hid)
    have hposition' := Position.readByName.reordered hposition hpositions
    exact ofJson?_eq_some_iff.2 ⟨_, _, n, hfields', hid, hposition', hn⟩
  spoilt {j j' r} hr h := by
    obtain ⟨id, position, n, hfields, hid, hposition, hn⟩ := ofJson?_eq_some_iff.1 hr
    rw [Option.eq_none_iff_forall_ne_some]
    intro r' hr'
    obtain ⟨id', position', n', hfields', hid', hposition', hn'⟩ := ofJson?_eq_some_iff.1 hr'
    -- the id is a value by itself, so it is the position that is spoilt
    obtain ⟨⟨⟩⟩ | ⟨hspoilt | ⟨⟨⟩⟩⟩ := h.someSpoilt hfields hfields'
    rw [Position.readByName.spoilt hposition hspoilt] at hposition'
    cases hposition'

end RobotState

namespace TeamSnapshot

def shape : Shape := .record [("robots", .items RobotState.shape)]

theorem mapM_eq_some_iff {items : List Json} {robots : List RobotState} :
    items.mapM RobotState.ofJson? = some robots ↔
      List.Forall₂ (fun j r => RobotState.ofJson? j = some r) items robots := by
  induction items generalizing robots with
  | nil => simp [eq_comm]
  | cons j items ih =>
    rw [List.mapM_cons, List.forall₂_cons_left_iff]
    constructor
    · intro h
      obtain ⟨r, hr, h⟩ := Option.bind_eq_some_iff.1 h
      obtain ⟨rest, hrest, h⟩ := Option.bind_eq_some_iff.1 h
      cases h
      exact ⟨r, rest, hr, ih.1 hrest, rfl⟩
    · rintro ⟨r, rest, hr, hrest, rfl⟩
      rw [hr, ih.2 hrest]
      rfl

theorem ofJson?_eq_some_iff {j : Json} {s : TeamSnapshot} : ofJson? j = some s ↔
    ∃ items, j.fields? ["robots"] = some [.list items] ∧
      List.Forall₂ (fun j r => RobotState.ofJson? j = some r) items s.robots := by
  rw [ofJson?.eq_def]
  constructor
  · intro h
    split at h
    · next items hfields =>
      obtain ⟨robots, hrobots, rfl⟩ := Option.map_eq_some_iff.1 h
      exact ⟨items, hfields, mapM_eq_some_iff.1 hrobots⟩
    · cases h
  · rintro ⟨items, hfields, hrobots⟩
    simp only [hfields, mapM_eq_some_iff.2 hrobots, Option.map_some]

theorem items_reordered {items items' : List Json} {robots : List RobotState}
    (h : List.Forall₂ Reordered items items')
    (hrobots : List.Forall₂ (fun j r => RobotState.ofJson? j = some r) items robots) :
    List.Forall₂ (fun j r => RobotState.ofJson? j = some r) items' robots := by
  induction h generalizing robots with
  | nil => exact hrobots
  | cons hj _ ih =>
    cases hrobots with
    | cons hr hrest => exact .cons (RobotState.readByName.reordered hr hj) (ih hrest)

theorem exists_robot {items : List Json} {robots : List RobotState} {j : Json}
    (h : List.Forall₂ (fun j r => RobotState.ofJson? j = some r) items robots) (hj : j ∈ items) :
    ∃ r, RobotState.ofJson? j = some r := by
  induction h with
  | nil => cases hj
  | cons hr _ ih =>
    rcases List.mem_cons.1 hj with rfl | hj
    · exact ⟨_, hr⟩
    · exact ih hj

theorem readByName : ReadByName ofJson? fun _ => shape where
  reordered {j j' s} hs h := by
    obtain ⟨items, hfields, hrobots⟩ := ofJson?_eq_some_iff.1 hs
    obtain ⟨js', hfields', hforall⟩ := h.fields? hfields
    obtain _ | ⟨hlists, _ | _⟩ := hforall
    obtain ⟨items', rfl, hitems⟩ := hlists.exists_items
    exact ofJson?_eq_some_iff.2 ⟨items', hfields', items_reordered hitems hrobots⟩
  spoilt {j j' s} hs h := by
    obtain ⟨items, hfields, hrobots⟩ := ofJson?_eq_some_iff.1 hs
    rw [Option.eq_none_iff_forall_ne_some]
    intro s' hs'
    obtain ⟨items', hfields', hrobots'⟩ := ofJson?_eq_some_iff.1 hs'
    obtain hspoilt | ⟨⟨⟩⟩ := h.someSpoilt hfields hfields'
    cases hspoilt with
    | item hspoilt =>
      obtain ⟨r, hr⟩ := exists_robot hrobots (List.mem_append_right _ List.mem_cons_self)
      obtain ⟨r', hr'⟩ := exists_robot hrobots' (List.mem_append_right _ List.mem_cons_self)
      rw [RobotState.readByName.spoilt hr hspoilt] at hr'
      cases hr'

end TeamSnapshot

namespace RobotStatus

def shape : Shape := .record (fieldNames.map fun name => (name, .scalar))

theorem readByName : ReadByName ofJson? fun _ => shape := by
  refine readByName_of_bare (by simp) ?_ ?_
  · intro j s h
    obtain ⟨fields, hfields, h⟩ := Option.bind_eq_some_iff.1 h
    refine ⟨fields, hfields, ?_⟩
    split at h
    · next id sequence timestamp battery capacitor loss running =>
      obtain ⟨_, hid, h⟩ := Option.bind_eq_some_iff.1 h
      obtain ⟨_, hsequence, h⟩ := Option.bind_eq_some_iff.1 h
      obtain ⟨_, htimestamp, h⟩ := Option.bind_eq_some_iff.1 h
      obtain ⟨_, hbattery, h⟩ := Option.bind_eq_some_iff.1 h
      obtain ⟨_, hcapacitor, h⟩ := Option.bind_eq_some_iff.1 h
      obtain ⟨_, hloss, h⟩ := Option.bind_eq_some_iff.1 h
      obtain ⟨_, hrunning, -⟩ := Option.bind_eq_some_iff.1 h
      simp [isBare_of_nat? hid, isBare_of_nat? hsequence, isBare_of_nat? htimestamp,
        isBare_of_single? hbattery, isBare_of_single? hcapacitor, isBare_of_nat? hloss,
        isBare_of_bool? hrunning]
    · cases h
  · intro j j' (h : j'.fields? fieldNames = j.fields? fieldNames)
    rw [ofJson?, ofJson?, h]

end RobotStatus

end RobotConsole
