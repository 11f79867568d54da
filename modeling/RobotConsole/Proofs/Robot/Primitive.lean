import RobotConsole.Proofs.Json.Written
import RobotConsole.Robot.Datagram

/-!
The datagrams of primitives.  A primitive whose floats are read as they are written is read as it was
sent; one with a float that is not finite is written all the same, but no robot takes it.
-/

namespace RobotConsole.Primitive

open Json

def floats : Primitive → List Single
  | .rotate v => [v]
  | .move _ _ s => [s]
  | .chip d => [d]
  | .kick s => [s]
  | .dribble v => [v]
  | .stop => []

section Tagged

variable {tag : String} {fields : List (String × Json)}

/-- The fields that can stand beside a tag. -/
structure Fits (fields : List (String × Json)) : Prop where
  plain : NamesPlain fields
  nodup : (fields.map Prod.fst).Nodup
  untagged : tagName ∉ fields.map Prod.fst
  sound : ∀ f ∈ fields, f.2.sound = true
  flat : ∀ f ∈ fields, f.2.depth ≤ 0

theorem plain_tagName : IsPlainText tagName.toList := by decide

theorem filter_tag (h : Fits fields) (tag : Json) :
    (members ((tagName, tag) :: fields)).filter (fun (raw, _) => text? raw ≠ some tagName) =
      members fields := by
  rw [members, List.map_cons, ← members, List.filter_cons_of_neg]
  · refine List.filter_eq_self.2 fun m hm => ?_
    obtain ⟨f, hf, rfl⟩ := List.mem_map.1 hm
    have hname : f.1 ≠ tagName := by
      rintro heq
      exact h.untagged (heq ▸ List.mem_map.2 ⟨f, hf, rfl⟩)
    simp [text?_toList (h.plain f hf), hname]
  · simp [text?_toList plain_tagName]

/-- A tagged record is read as the body of its tag. -/
theorem ofJson?_tagged (htag : IsPlainText tag.toList) (h : Fits fields) :
    ofJson? (tagged tag fields) = ofBody? tag (record fields) := by
  have hplain : NamesPlain ((tagName, ofString tag) :: fields) :=
    List.forall_mem_cons.2 ⟨plain_tagName, h.plain⟩
  have hstring : (ofString tag).sound = true := by
    rw [ofString, Json.sound, text?_toList htag]
    rfl
  have hsound : (tagged tag fields).sound = true :=
    membersSound_members hplain (List.forall_mem_cons.2 ⟨hstring, h.sound⟩)
  have hdepth : (tagged tag fields).depth ≤ 127 := by
    have hflat : membersDepth (members ((tagName, ofString tag) :: fields)) ≤ 0 :=
      membersDepth_members (List.forall_mem_cons.2 ⟨le_rfl, h.flat⟩)
    change membersDepth (members ((tagName, ofString tag) :: fields)) + 1 ≤ 127
    omega
  have hnamed : named tagName ((tagName, ofString tag) :: fields) = [.string tag.toList] := by
    rw [named, if_pos rfl, named_eq_nil h.untagged]
    rfl
  have hobject : tagged tag fields = .object (members ((tagName, ofString tag) :: fields)) := rfl
  rw [ofJson?.eq_def, if_pos ⟨hsound, hdepth⟩, hobject]
  simp only [texts?_members hplain, hnamed, text?_toList htag, Option.bind_some, filter_tag h]
  rfl

end Tagged

theorem fits_nil : Fits [] := by
  refine ⟨namesPlain_nil, ?_, ?_, ?_, ?_⟩ <;> simp

theorem Fits.cons {fields : List (String × Json)} (h : Fits fields) {name : String} {j : Json}
    (hplain : IsPlainText name.toList) (hname : name ∉ fields.map Prod.fst) (htag : tagName ≠ name)
    (hsound : j.sound = true) (hflat : j.depth = 0) : Fits ((name, j) :: fields) where
  plain := namesPlain_cons j hplain h.plain
  nodup := List.nodup_cons.2 ⟨hname, h.nodup⟩
  untagged := List.not_mem_cons_of_ne_of_not_mem htag h.untagged
  sound := List.forall_mem_cons.2 ⟨hsound, h.sound⟩
  flat := List.forall_mem_cons.2 ⟨hflat.le, h.flat⟩

/-- A single float beside a tag. -/
theorem fits_single {name : String} {x : Single} (hplain : IsPlainText name.toList)
    (htag : tagName ≠ name) (hx : (ofSingle x).sound = true) : Fits [(name, ofSingle x)] :=
  fits_nil.cons hplain (by simp) htag hx (depth_ofSingle x)

theorem single?_record {name : String} (hplain : IsPlainText name.toList) (x : Single) :
    single? name (record [(name, ofSingle x)]) = (ofSingle x).single? := by
  have hfields : (record [(name, ofSingle x)]).fields? [name] = some [ofSingle x] :=
    fields?_record [(name, ofSingle x)] (namesPlain_cons _ hplain namesPlain_nil) (by simp)
  rw [single?, hfields]

theorem plain_tag (d : Direction) : IsPlainText d.tag.toList := by
  cases d <;> decide

theorem direction?_tag (d : Direction) : direction? (ofString d.tag) = some d := by
  rw [ofString, direction?, text?_toList (plain_tag d)]
  cases d <;> decide

def moveFields (d : Direction) (heading : UInt16) (speed : Single) : List (String × Json) :=
  [("direction", .ofString d.tag), ("heading_degrees", .ofNat heading.toNat),
    ("speed", .ofSingle speed)]

theorem fits_move (d : Direction) (heading : UInt16) {speed : Single}
    (h : (ofSingle speed).sound = true) : Fits (moveFields d heading speed) := by
  have hheading : heading.toNat < 2 ^ 64 := lt_of_lt_of_le heading.toNat_lt (by decide)
  have hdirection : (ofString d.tag).sound = true := by
    rw [ofString, Json.sound, text?_toList (plain_tag d)]
    rfl
  refine Fits.cons (Fits.cons (fits_single ?_ ?_ h) ?_ ?_ ?_ (sound_ofNat hheading) rfl)
    ?_ ?_ ?_ hdirection rfl <;> first | decide | simp

theorem ofBody?_move (d : Direction) (heading : UInt16) {speed : Single}
    (h : (ofSingle speed).sound = true) :
    ofBody? "move" (record (moveFields d heading speed)) =
      (ofSingle speed).single?.map (.move d heading) := by
  have hfields : (record (moveFields d heading speed)).fields?
      ["direction", "heading_degrees", "speed"] =
      some [.ofString d.tag, .ofNat heading.toNat, .ofSingle speed] :=
    fields?_record (moveFields d heading speed) (fits_move d heading h).plain
      (fits_move d heading h).nodup
  have hheading : (Json.ofNat heading.toNat).nat? (2 ^ 16) = some heading.toNat :=
    nat?_ofNat heading.toNat_lt (by decide)
  simp only [ofBody?, hfields, direction?_tag, hheading]
  cases (ofSingle speed).single? with
  | none => rfl
  | some speed => simp only [Nat.toUInt16, UInt16.ofNat_toNat, Option.map_some]

/-- A primitive of one float. -/
theorem ofJson?_single {tag name : String} {make : Single → Primitive} {x : Single}
    (htag : IsPlainText tag.toList) (hname : IsPlainText name.toList) (hne : tagName ≠ name)
    (hbody : ∀ body, ofBody? tag body = (single? name body).map make)
    (hx : x.isFinite = true → ReadsBack x) :
    ofJson? (tagged tag [(name, ofSingle x)]) =
      if [x].all Binary.isFinite then some (make x) else none := by
  rw [ofJson?_tagged htag (fits_single hname hne (sound_ofSingle hx)), hbody,
    single?_record hname x, single?_ofSingle hx, List.all_cons, List.all_nil, Bool.and_true]
  split <;> rfl

/-- A primitive's document stands for that primitive, or for none if the float is not finite. -/
theorem ofJson?_toJson {p : Primitive} (h : ∀ x ∈ p.floats, x.isFinite = true → ReadsBack x) :
    ofJson? p.toJson = if p.floats.all Binary.isFinite then some p else none := by
  cases p with
  | rotate v =>
    exact ofJson?_single (by decide) (by decide) (by decide) (fun _ => rfl) (h v (by simp [floats]))
  | move d heading speed =>
    have hspeed := h speed (by simp [floats])
    have hsound := sound_ofSingle hspeed
    rw [toJson, ← moveFields, ofJson?_tagged (by decide) (fits_move d heading hsound),
      ofBody?_move d heading hsound, single?_ofSingle hspeed]
    simp only [floats, List.all_cons, List.all_nil, Bool.and_true]
    split <;> rfl
  | chip d =>
    exact ofJson?_single (by decide) (by decide) (by decide) (fun _ => rfl) (h d (by simp [floats]))
  | kick s =>
    exact ofJson?_single (by decide) (by decide) (by decide) (fun _ => rfl) (h s (by simp [floats]))
  | dribble v =>
    exact ofJson?_single (by decide) (by decide) (by decide) (fun _ => rfl) (h v (by simp [floats]))
  | stop =>
    rw [toJson, ofJson?_tagged (by decide) fits_nil]
    rfl

theorem isPlain_tagged {tag : String} {fields : List (String × Json)}
    (htag : IsPlainText tag.toList) (hplain : NamesPlain fields) (h : ∀ f ∈ fields, f.2.IsPlain) :
    (tagged tag fields).IsPlain :=
  membersPlain_members (namesPlain_cons _ plain_tagName hplain) (List.forall_mem_cons.2 ⟨htag, h⟩)

theorem isPlain_single {tag name : String} (htag : IsPlainText tag.toList)
    (hname : IsPlainText name.toList) (x : Single) : (tagged tag [(name, ofSingle x)]).IsPlain :=
  isPlain_tagged htag (namesPlain_cons _ hname namesPlain_nil)
    (List.forall_mem_singleton.2 (isPlain_ofSingle x))

/-- Every primitive is written as a plain document, whatever its floats are. -/
theorem isPlain_toJson (p : Primitive) : p.toJson.IsPlain := by
  cases p with
  | rotate v => exact isPlain_single (by decide) (by decide) v
  | move d heading speed =>
    refine isPlain_tagged (by decide) ?_ ?_
    · exact namesPlain_cons _ (by decide)
        (namesPlain_cons _ (by decide) (namesPlain_cons _ (by decide) namesPlain_nil))
    · exact List.forall_mem_cons.2 ⟨plain_tag d,
        List.forall_mem_cons.2 ⟨isPlain_ofNat heading.toNat,
          List.forall_mem_singleton.2 (isPlain_ofSingle speed)⟩⟩
  | chip d => exact isPlain_single (by decide) (by decide) d
  | kick s => exact isPlain_single (by decide) (by decide) s
  | dribble v => exact isPlain_single (by decide) (by decide) v
  | stop => exact isPlain_tagged (by decide) namesPlain_nil (by simp)

/-- What a robot receives is what was sent, if it is finite. -/
theorem decode?_encode_eq {p : Primitive} (h : ∀ x ∈ p.floats, x.isFinite = true → ReadsBack x) :
    decode? p.encode = if p.floats.all Binary.isFinite then some p else none := by
  rw [decode?, encode, ofOctets?_octets (isPlain_toJson p), Option.bind_some, ofJson?_toJson h]

theorem decode?_encode {p : Primitive} (h : ∀ x ∈ p.floats, ReadsBack x) :
    decode? p.encode = some p := by
  rw [decode?_encode_eq fun x hx _ => h x hx,
    if_pos (List.all_eq_true.2 fun x hx => (h x hx).isFinite)]

end RobotConsole.Primitive
