import RobotConsole.Proofs.Json.Values
import RobotConsole.Proofs.Robot.Datagram

/-!
Messages that are read from any octets and then written.  The octets may be quite different from what
is written: lists for objects, members in another order or without meaning, other spellings of
numbers.  But every float that is read stands in them as a number, so it is never what is not a
number; only a number beyond the singles, which is read as an infinity, does not come back.
-/

namespace RobotConsole

open Json

theorem Position.holds_floats {j : Json} {p : Position} (h : ofJson? j = some p) :
    ∀ x ∈ floats p, j.Holds x := by
  rw [ofJson?.eq_def] at h
  split at h
  · next jx jy hfields =>
    split at h
    · next x y hx hy =>
      cases h
      intro z hz
      rcases List.mem_pair.1 hz with rfl | rfl
      · exact holds_of_fields? hfields List.mem_cons_self (holds_of_single? hx)
      · exact holds_of_fields? hfields (by simp) (holds_of_single? hy)
    · cases h
  · cases h

theorem RobotState.holds_floats {j : Json} {r : RobotState} (h : ofJson? j = some r) :
    ∀ x ∈ r.floats, j.Holds x := by
  rw [ofJson?.eq_def] at h
  split at h
  · next jid jposition hfields =>
    split at h
    · next id p _ hposition =>
      cases h
      intro x hx
      exact holds_of_fields? hfields (by simp) (Position.holds_floats hposition x hx)
    · cases h
  · cases h

theorem TeamSnapshot.holds_items {items : List Json} {robots : List RobotState}
    (h : items.mapM RobotState.ofJson? = some robots) :
    ∀ x ∈ robots.flatMap RobotState.floats, (Json.list items).Holds x := by
  induction items generalizing robots with
  | nil =>
    cases h
    simp
  | cons j items ih =>
    rw [List.mapM_cons] at h
    obtain ⟨r, hr, h⟩ := Option.bind_eq_some_iff.1 h
    obtain ⟨rest, hrest, h⟩ := Option.bind_eq_some_iff.1 h
    cases h
    intro x hx
    rw [List.flatMap_cons, List.mem_append] at hx
    rcases hx with hx | hx
    · exact holds_list List.mem_cons_self (RobotState.holds_floats hr x hx)
    · exact holds_cons j (ih hrest x hx)

theorem TeamSnapshot.holds_floats {j : Json} {s : TeamSnapshot} (h : ofJson? j = some s) :
    ∀ x ∈ s.floats, j.Holds x := by
  rw [ofJson?.eq_def] at h
  split at h
  · next robots hfields =>
    obtain ⟨states, hstates, rfl⟩ := Option.map_eq_some_iff.1 h
    intro x hx
    exact holds_of_fields? hfields List.mem_cons_self (holds_items hstates x hx)
  · cases h

theorem RobotStatus.holds_floats {j : Json} {s : RobotStatus} (h : ofJson? j = some s) :
    ∀ x ∈ s.floats, j.Holds x := by
  obtain ⟨fields, hfields, h⟩ := Option.bind_eq_some_iff.1 h
  split at h
  · next id sequence timestamp battery capacitor loss running =>
    obtain ⟨_, -, h⟩ := Option.bind_eq_some_iff.1 h
    obtain ⟨_, -, h⟩ := Option.bind_eq_some_iff.1 h
    obtain ⟨_, -, h⟩ := Option.bind_eq_some_iff.1 h
    obtain ⟨volts, hbattery, h⟩ := Option.bind_eq_some_iff.1 h
    obtain ⟨charge, hcapacitor, h⟩ := Option.bind_eq_some_iff.1 h
    obtain ⟨_, -, h⟩ := Option.bind_eq_some_iff.1 h
    obtain ⟨_, -, h⟩ := Option.bind_eq_some_iff.1 h
    cases h
    intro x hx
    rcases List.mem_pair.1 hx with rfl | rfl
    · exact holds_of_fields? hfields (by simp) (holds_of_single? hbattery)
    · exact holds_of_fields? hfields (by simp) (holds_of_single? hcapacitor)
  · cases h

namespace Primitive

theorem holds_of_single? {name : String} {body : Json} {x : Single}
    (h : single? name body = some x) : body.Holds x := by
  rw [single?.eq_def] at h
  split at h
  · next j hfields => exact holds_of_fields? hfields List.mem_cons_self (Json.holds_of_single? h)
  · cases h

theorem holds_body {tag : String} {body : Json} {p : Primitive} (h : ofBody? tag body = some p) :
    ∀ x ∈ p.floats, body.Holds x := by
  have hone : ∀ {name : String} {make : Single → Primitive}, (∀ x, (make x).floats = [x]) →
      (single? name body).map make = some p → ∀ x ∈ p.floats, body.Holds x := by
    intro name make hmake hmap x hx
    obtain ⟨y, hy, rfl⟩ := Option.map_eq_some_iff.1 hmap
    rw [hmake, List.mem_singleton] at hx
    exact hx ▸ holds_of_single? hy
  unfold ofBody? at h
  split at h
  · exact hone (fun _ => rfl) h
  · split at h
    · next jd jh js hfields =>
      split at h
      · next d heading speed _ _ hspeed =>
        cases h
        intro x hx
        obtain rfl := List.mem_singleton.1 hx
        exact holds_of_fields? hfields (by simp) (Json.holds_of_single? hspeed)
      · cases h
    · cases h
  · exact hone (fun _ => rfl) h
  · exact hone (fun _ => rfl) h
  · exact hone (fun _ => rfl) h
  · split at h
    · cases h
      simp [floats]
    · cases h
      simp [floats]
    · cases h
  · cases h

theorem holds_floats {j : Json} {p : Primitive} (h : ofJson? j = some p) :
    ∀ x ∈ p.floats, j.Holds x := by
  rw [ofJson?.eq_def] at h
  split_ifs at h
  split at h
  · next members =>
    split at h
    · cases h
    · split at h
      · next raw _ =>
        obtain ⟨tag, -, h⟩ := Option.bind_eq_some_iff.1 h
        intro x hx
        exact holds_of_subset (fun _ => List.mem_of_mem_filter) (holds_body h x hx)
      · cases h
  · next raw rest =>
    obtain ⟨tag, -, h⟩ := Option.bind_eq_some_iff.1 h
    intro x hx
    exact holds_cons _ (holds_body h x hx)
  · cases h

end Primitive

/-- What becomes of a message that octets are read as when it is written and read again. -/
structure ReadAgain {α : Type} (decode? : List UInt8 → Option α) (encode : α → List UInt8)
    (floats : α → List Single) (bytes : List UInt8) (v : α) : Prop where
  /-- A float is what a number of the document is read as, and so a number or an infinity. -/
  document : ∃ j, Json.ofOctets? bytes = some j ∧ ∀ x ∈ floats v, j.Holds x ∧ x.isNaN = false
  inRange : ∀ j, Json.ofOctets? bytes = some j → (∀ x, j.Holds x → x.isFinite = true) →
    decode? (encode v) = some v
  again : decode? (encode v) = if ∀ x ∈ floats v, x.isFinite = true then some v else none

section Messages

variable {α : Type} {encode : α → List UInt8} {ofJson? : Json → Option α} {floats : α → List Single}

/-- A kind of message is read again if its floats come from its document. -/
theorem readAgain_of_holds {bytes : List UInt8} {v : α}
    (hv : (Json.ofOctets? bytes).bind ofJson? = some v)
    (hholds : ∀ j, ofJson? j = some v → ∀ x ∈ floats v, j.Holds x)
    (hagain : (Json.ofOctets? (encode v)).bind ofJson? =
      if (floats v).all Binary.isFinite then some v else none) :
    ReadAgain (fun bytes => (Json.ofOctets? bytes).bind ofJson?) encode floats bytes v := by
  obtain ⟨j, hj, hv⟩ := Option.bind_eq_some_iff.1 hv
  simp only [List.all_eq_true] at hagain
  refine ⟨⟨j, hj, ?_⟩, ?_, hagain⟩
  · intro x hx
    obtain ⟨n, hn, hsingle⟩ := hholds j hv x hx
    exact ⟨⟨n, hn, hsingle⟩, isNaN_single? hsingle⟩
  · intro j' hj' hrange
    obtain rfl : j = j' := Option.some.inj (hj.symm.trans hj')
    exact hagain.trans (if_pos fun x hx => hrange x (hholds j hv x hx))

/-- Whatever octets a message is read from, it is read again as it was if it is finite, and refused
if a number in it was beyond the singles. -/
theorem readAgain_of_decode? (bytes : List UInt8) :
    (∀ p, Primitive.decode? bytes = some p → (∀ x ∈ p.floats, x.isFinite = true → ReadsBack x) →
      ReadAgain Primitive.decode? Primitive.encode Primitive.floats bytes p) ∧
    (∀ s, RobotStatus.decode? bytes = some s → (∀ x ∈ s.floats, x.isFinite = true → ReadsBack x) →
      ReadAgain RobotStatus.decode? RobotStatus.encode RobotStatus.floats bytes s) ∧
    ∀ t, TeamSnapshot.decode? bytes = some t → (∀ x ∈ t.floats, x.isFinite = true → ReadsBack x) →
      ReadAgain TeamSnapshot.decode? TeamSnapshot.encode TeamSnapshot.floats bytes t := by
  refine ⟨?_, ?_, ?_⟩
  · intro p hp hback
    exact readAgain_of_holds hp (fun j => Primitive.holds_floats) (Primitive.decode?_encode_eq hback)
  · intro s hs hback
    exact readAgain_of_holds hs (fun j => RobotStatus.holds_floats) (RobotStatus.decode?_encode hback)
  · intro t ht hback
    exact readAgain_of_holds ht (fun j => TeamSnapshot.holds_floats)
      (TeamSnapshot.decode?_encode hback)

/-- Lists for objects, and members that mean nothing. -/
theorem readAgain_of_lists :
    ReadAgain Primitive.decode? Primitive.encode Primitive.floats
      (toOctets "[\"kick\", 25E-1]".toList) (.kick 2.5) ∧
    ReadAgain RobotStatus.decode? RobotStatus.encode RobotStatus.floats
      (toOctets "[7, 1, 2, 24, 0.5e-400, 3, true]".toList) ⟨7, 1, 2, 24, .zero false, 3, true⟩ ∧
    ReadAgain TeamSnapshot.decode? TeamSnapshot.encode TeamSnapshot.floats
      (toOctets "\x7b\"team\": 1, \"robots\": [[3, [-0.0, 1e39]]]\x7d".toList)
      ⟨[⟨3, ⟨.zero true, .infinite false⟩⟩]⟩ :=
  ⟨(readAgain_of_decode? _).1 _ (by decide +kernel) (by decide +kernel),
    (readAgain_of_decode? _).2.1 _ (by decide +kernel) (by decide +kernel),
    (readAgain_of_decode? _).2.2 _ (by decide +kernel) (by decide +kernel)⟩

/-- A number beyond the singles is read as an infinity, which is written as something that is no
number. -/
theorem infinity_not_read_again :
    ¬ ∀ (bytes : List UInt8) (p : Primitive),
      Primitive.decode? bytes = some p → Primitive.decode? p.encode = some p := by
  intro h
  have hagain := h (toOctets
    "\x7b\"primitive\":\"rotate\",\"velocity_rad_per_s\":1e39\x7d".toList)
    (.rotate (.infinite false)) (by decide +kernel)
  revert hagain
  decide +kernel

end Messages

end RobotConsole
