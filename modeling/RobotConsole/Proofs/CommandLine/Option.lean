import RobotConsole.Proofs.CommandLine.Places

/-!
Command lines that give an option.  The value of an option stands in the same word or in the one
after it, so two words may be read at once; an option whose value has not come is a fault whatever
comes instead.
-/

namespace RobotConsole.CommandLine

variable {p q : Progress} {w n : Word} {ws : List Word} {values : List Value}
  {options : List (String × Value)} {o : Named} {kind : ValueKind}

/-- What the words given for an option set, which is set at most once. -/
inductive Sets (o : Named) (kind : ValueKind) (before : List (String × Value)) :
    List Word → List (String × Value) → Prop
  | none : Sets o kind before [] []
  | one {n : Word} {v : Value} (hfresh : ∀ x ∈ before, x.1 ≠ o.name) (hv : kind.read n = .ok v) :
      Sets o kind before [n] [(o.name, v)]

/-- What words that give an option add to what was read before. -/
def ReadsOption (o : Named) (kind : ValueKind) (q : Progress) (ws : List Word)
    (values : List Value) (options : List (String × Value)) : Prop :=
  ∃ given more, Laid o.name.toList [] ws [] given ∧ Sets o kind q.options given more ∧
    values = q.values ∧ options = q.options ++ more

def SetsFirst (o : Named) (kind : ValueKind) (q : Progress) (n : Word) (ws : List Word)
    (values : List Value) (options : List (String × Value)) : Prop :=
  ∃ q', q.setOption o kind n = .ok q' ∧ ReadsOption o kind q' ws values options

/-- An option whose values do not begin with a dash, so that none is taken for an option. -/
structure Takes (o : Named) (kind : ValueKind) : Prop where
  value : ∃ label, o.value = some (label, kind)
  notPath : kind ≠ .path
  notDashed : ∀ n v, kind.read n = .ok v → ¬ IsDashed n
  nonempty : o.name.toList ≠ []
  noEquals : '=' ∉ o.name.toList

theorem setsFirst_iff (hkind : kind ≠ .path) :
    SetsFirst o kind q n ws values options ↔
      ∃ given more, Laid o.name.toList [] ws [] given ∧ Sets o kind q.options (n :: given) more ∧
        values = q.values ∧ options = q.options ++ more := by
  simp only [SetsFirst, Progress.setOption_eq_ok_iff hkind]
  constructor
  · rintro ⟨_, ⟨hfresh, v, hv, rfl⟩, given, more, hlaid, hsets, rfl, rfl⟩
    cases hsets with
    | none => exact ⟨[], [(o.name, v)], hlaid, .one hfresh hv, rfl, by simp⟩
    | one hagain _ => exact absurd rfl (hagain (o.name, v) (by simp))
  · rintro ⟨given, more, hlaid, hsets, rfl, rfl⟩
    cases hsets with
    | one hfresh hv => exact ⟨_, ⟨hfresh, _, hv, rfl⟩, [], [], hlaid, .none, rfl, by simp⟩

theorem readsOption_nil_iff :
    ReadsOption o kind q [] values options ↔ values = q.values ∧ options = q.options := by
  simp only [ReadsOption, laid_nil_iff]
  constructor
  · rintro ⟨_, more, ⟨-, rfl⟩, hsets, rfl, rfl⟩
    cases hsets
    exact ⟨rfl, by simp⟩
  · rintro ⟨rfl, rfl⟩
    exact ⟨[], [], ⟨trivial, rfl⟩, .none, rfl, by simp⟩

theorem readsOption_cons_iff (ho : Takes o kind) :
    ReadsOption o kind q (w :: ws) values options ↔
      match shape w with
      | .escape => ws = [] ∧ values = q.values ∧ options = q.options
      | .long name none =>
        name = o.name.toList ∧ ∃ n rest, ws = n :: rest ∧
          SetsFirst o kind q n rest values options
      | .long name (some n) => name = o.name.toList ∧ SetsFirst o kind q n ws values options
      | .short _ => False
      | .plain => False := by
  simp only [setsFirst_iff ho.notPath]
  simp only [ReadsOption, laid_cons_iff ho.nonempty ho.noEquals]
  cases shape w with
  | escape =>
    constructor
    · rintro ⟨_, more, ⟨rfl, rfl⟩, hsets, rfl, rfl⟩
      cases hsets
      exact ⟨rfl, rfl, by simp⟩
    · rintro ⟨rfl, rfl, rfl⟩
      exact ⟨[], [], ⟨rfl, rfl⟩, .none, rfl, by simp⟩
  | long name value =>
    cases value with
    | none =>
      constructor
      · rintro ⟨_, more, ⟨hname, n, rest, given, rfl, rfl, hlaid⟩, hsets⟩
        exact ⟨hname, n, rest, rfl, given, more, hlaid, hsets⟩
      · rintro ⟨hname, n, rest, rfl, given, more, hlaid, hsets⟩
        exact ⟨n :: given, more, ⟨hname, n, rest, given, rfl, rfl, hlaid⟩, hsets⟩
    | some n =>
      constructor
      · rintro ⟨_, more, ⟨hname, given, rfl, hlaid⟩, hsets⟩
        exact ⟨hname, given, more, hlaid, hsets⟩
      · rintro ⟨hname, given, more, hlaid, hsets⟩
        exact ⟨n :: given, more, ⟨hname, given, rfl, hlaid⟩, hsets⟩
  | short letters => simp
  | plain => simp

theorem find?_option (hscope : p.scope.options = [o]) :
    p.scope.options.find? (fun x => x.name.toList = o.name.toList) = some o := by
  rw [hscope, List.find?_cons_of_pos (by simp)]

theorem long_given_iff {p' : Progress} (ho : Takes o kind) (hscope : p.scope.options = [o]) :
    p.long o.name.toList (some n) = .ok p' ↔
      ∃ q, p.settle = .ok q ∧ q.setOption o kind n = .ok p' := by
  obtain ⟨label, hvalue⟩ := ho.value
  simp only [Progress.long, find?_option hscope, hvalue, bind_eq_ok_iff, mapError_eq_ok_iff,
    Progress.settleOrStop_eq_ok_iff]

theorem long_bare_iff {p' : Progress} (ho : Takes o kind) (hscope : p.scope.options = [o]) :
    p.long o.name.toList none = .ok p' ↔
      ∃ q, p.settle = .ok q ∧ p' = { q with pending := .awaiting o } := by
  obtain ⟨label, hvalue⟩ := ho.value
  simp only [Progress.long, find?_option hscope, hvalue, bind_eq_ok_iff,
    Progress.settleOrStop_eq_ok_iff]
  refine exists_congr fun q => and_congr_right fun _ => ?_
  exact ⟨fun h => (Except.ok.inj h).symm, fun h => congrArg Except.ok h.symm⟩

theorem long_other_ne_ok {name : Word} {value : Option Word} {p' : Progress}
    (hscope : p.scope.options = [o]) (hname : name ≠ o.name.toList) :
    p.long name value ≠ .ok p' :=
  Progress.long_ne_ok (by simpa [hscope] using hname.symm)

theorem not_takesNegative (hdue : p.due = []) (letters : Word) :
    ¬ p.takesNegative letters = true := by
  rw [Progress.takesNegative, hdue]
  exact Bool.false_ne_true

section Awaiting

variable {p' : Progress} (hp : p.pending = .awaiting o)
include hp

theorem settle_awaiting_ne_ok : p.settle ≠ .ok q := by
  intro h
  rw [Progress.settle, hp] at h
  cases h

theorem long_awaiting_ne_ok {name : Word} {value : Option Word} (ho : Takes o kind)
    (hscope : p.scope.options = [o]) : p.long name value ≠ .ok p' := by
  intro h
  by_cases hname : name = o.name.toList
  · subst hname
    cases value with
    | none =>
      obtain ⟨q, hq, -⟩ := (long_bare_iff ho hscope).1 h
      exact settle_awaiting_ne_ok hp hq
    | some n =>
      obtain ⟨q, hq, -⟩ := (long_given_iff ho hscope).1 h
      exact settle_awaiting_ne_ok hp hq
  · exact long_other_ne_ok hscope hname h

theorem plain_awaiting (ho : Takes o kind) (n : Word) :
    p.plain n = .ok { p with pending := .option o kind n } := by
  obtain ⟨label, hvalue⟩ := ho.value
  simp [Progress.plain, hp, hvalue]

/-- An option that waits takes the next word, which no dash begins. -/
theorem reads_awaiting_iff (ho : Takes o kind) (hscope : p.scope.options = [o])
    (hdue : p.due = []) :
    Reads false p ws values options ↔
      ∃ n rest, ws = n :: rest ∧ ¬ IsDashed n ∧
        Reads false { p with pending := .option o kind n } rest values options := by
  cases ws with
  | nil => simp [reads_nil_iff, settle_awaiting_ne_ok hp]
  | cons n rest =>
    have hfits := fits_shape n
    rw [reads_cons_iff]
    constructor
    · intro h
      cases hshape : shape n with
      | escape =>
        rw [hshape] at h
        obtain ⟨q, hq, -⟩ := reads_escaped_iff.1 h
        exact absurd hq (settle_awaiting_ne_ok hp)
      | long name value =>
        rw [hshape] at h
        obtain ⟨p', hp', -⟩ := h
        exact absurd hp' (long_awaiting_ne_ok hp ho hscope)
      | short letters =>
        rw [hshape] at h hfits
        simp only [if_neg (not_takesNegative hdue letters)] at h
        obtain ⟨p', hp', -⟩ := h
        exact absurd hp' (Progress.short_ne_ok hfits.1)
      | plain =>
        rw [hshape] at h hfits
        obtain ⟨p', hp', h⟩ := h
        rw [plain_awaiting hp ho n] at hp'
        cases hp'
        exact ⟨n, rest, rfl, hfits, h⟩
    · rintro ⟨_, _, heq, hdash, h⟩
      cases heq
      rw [shape_of_not_dashed hdash]
      exact ⟨_, plain_awaiting hp ho n, h⟩

end Awaiting

theorem settle_option_iff {q' : Progress} (hkind : kind ≠ .path) :
    ({ q with pending := .option o kind n } : Progress).settle = .ok q' ↔
      q.setOption o kind n = .ok q' := by
  rw [Progress.settle, Progress.setOption_eq_ok_iff hkind, Progress.setOption_eq_ok_iff hkind]

theorem setOption_keeps {q' : Progress} (hkind : kind ≠ .path)
    (h : q.setOption o kind n = .ok q') :
    q'.scope = q.scope ∧ q'.due = q.due ∧ q'.pending = .none := by
  obtain ⟨-, v, -, rfl⟩ := (Progress.setOption_eq_ok_iff hkind).1 h
  exact ⟨rfl, rfl, rfl⟩

theorem settle_keeps_option (hscope : p.scope.options = [o]) (hdue : p.due = [])
    (hq : p.settle = .ok q) : q.scope.options = [o] ∧ q.due = [] := by
  obtain ⟨hsame, hplaces, -⟩ := Progress.settle_keeps hq
  rw [hsame, hplaces]
  exact ⟨hscope, hdue⟩

/-- The value is the word after the option, so two words are read at once. -/
theorem reads_bare_iff (ho : Takes o kind) (hscope : p.scope.options = [o]) (hdue : p.due = [])
    (hrest : ∀ q n rest, p.settle = .ok q → ws = n :: rest →
      (Reads false { q with pending := .option o kind n } rest values options ↔
        SetsFirst o kind q n rest values options)) :
    (∃ p', p.long o.name.toList none = .ok p' ∧ Reads false p' ws values options) ↔
      ∃ q, p.settle = .ok q ∧ ∃ n rest, ws = n :: rest ∧
        SetsFirst o kind q n rest values options := by
  have hawaiting : ∀ q, p.settle = .ok q →
      (Reads false { q with pending := .awaiting o } ws values options ↔
        ∃ n rest, ws = n :: rest ∧ ¬ IsDashed n ∧
          Reads false { q with pending := .option o kind n } rest values options) := by
    intro q hq
    obtain ⟨hq₁, hq₂⟩ := settle_keeps_option hscope hdue hq
    exact reads_awaiting_iff rfl ho hq₁ hq₂
  simp only [long_bare_iff ho hscope]
  constructor
  · rintro ⟨_, ⟨q, hq, rfl⟩, h⟩
    obtain ⟨n, rest, hws, -, h⟩ := (hawaiting q hq).1 h
    exact ⟨q, hq, n, rest, hws, (hrest q n rest hq hws).1 h⟩
  · rintro ⟨q, hq, n, rest, hws, h⟩
    have hdash : ¬ IsDashed n := by
      obtain ⟨q', hset, -⟩ := h
      obtain ⟨-, v, hv, -⟩ := (Progress.setOption_eq_ok_iff ho.notPath).1 hset
      exact ho.notDashed n v hv
    exact ⟨_, ⟨q, hq, rfl⟩,
      (hawaiting q hq).2 ⟨n, rest, hws, hdash, (hrest q n rest hq hws).2 h⟩⟩

theorem reads_given_iff (ho : Takes o kind) (hscope : p.scope.options = [o])
    (hrest : ∀ q q', p.settle = .ok q → q.setOption o kind n = .ok q' →
      (Reads false q' ws values options ↔ ReadsOption o kind q' ws values options)) :
    (∃ p', p.long o.name.toList (some n) = .ok p' ∧ Reads false p' ws values options) ↔
      ∃ q, p.settle = .ok q ∧ SetsFirst o kind q n ws values options := by
  simp only [long_given_iff ho hscope]
  constructor
  · rintro ⟨q', ⟨q, hq, hset⟩, h⟩
    exact ⟨q, hq, q', hset, (hrest q q' hq hset).1 h⟩
  · rintro ⟨q, hq, q', hset, h⟩
    exact ⟨q', ⟨q, hq, hset⟩, (hrest q q' hq hset).2 h⟩

/-- The words of a command without places are those that give its option. -/
theorem reads_option_iff (ho : Takes o kind) (hscope : p.scope.options = [o]) (hdue : p.due = [])
    (hp : p.AwaitsNothing) :
    Reads false p ws values options ↔
      ∃ q, p.settle = .ok q ∧ ReadsOption o kind q ws values options := by
  induction hlength : ws.length using Nat.strongRecOn generalizing p ws with
  | ind length ih =>
    subst hlength
    cases ws with
    | nil =>
      simp only [reads_nil_iff, readsOption_nil_iff]
      refine exists_congr fun q => and_congr_right fun hq => ?_
      rw [(Progress.settle_keeps hq).2.1, hdue]
      simp [eq_comm]
    | cons w ws =>
      have hfits := fits_shape w
      simp only [reads_cons_iff, readsOption_cons_iff ho]
      cases hshape : shape w with
      | escape =>
        simp only [reads_escaped_iff]
        refine exists_congr fun q => and_congr_right fun hq => ?_
        rw [(settle_keeps_option hscope hdue hq).2]
        simp [fills_no_place_iff, and_assoc]
      | long name value =>
        by_cases hname : name = o.name.toList
        · subst hname
          cases value with
          | none =>
            simp only [true_and]
            refine reads_bare_iff ho hscope hdue fun q n rest hq hws => ?_
            obtain ⟨hq₁, hq₂⟩ := settle_keeps_option hscope hdue hq
            have hshorter : rest.length < (w :: ws).length := by
              rw [hws, List.length_cons, List.length_cons]
              omega
            rw [ih rest.length hshorter (p := { q with pending := .option o kind n }) hq₁ hq₂
              (fun _ h => by cases h) rfl]
            exact exists_congr fun q' => and_congr_left' (settle_option_iff ho.notPath)
          | some n =>
            simp only [true_and]
            refine reads_given_iff ho hscope fun q q' hq hset => ?_
            obtain ⟨hq₁, hq₂⟩ := settle_keeps_option hscope hdue hq
            obtain ⟨hsame, hplaces, hnone⟩ := setOption_keeps ho.notPath hset
            rw [ih ws.length (by simp) (hsame ▸ hq₁) (hplaces ▸ hq₂)
              (Progress.awaitsNothing_of_none hnone) rfl, Progress.settle_of_none hnone]
            simp
        · have hlong : ∀ p', p.long name value ≠ .ok p' := fun p' => long_other_ne_ok hscope hname
          cases value <;> simp [hname, hlong]
      | short letters =>
        rw [hshape] at hfits
        have hshort : ∀ p', p.short letters ≠ .ok p' := fun p' => Progress.short_ne_ok hfits.1
        simp [not_takesNegative hdue, hshort]
      | plain =>
        have hplace : ∀ p', p.plain w ≠ .ok p' := by
          intro p' h
          rw [Progress.plain_of_awaitsNothing hp, Progress.place, hdue] at h
          cases h
        simp [hplace]

theorem reads_start_option_iff {scope : Scope} (ho : Takes o kind)
    (hscope : scope.options = [o]) (hdue : scope.positionals = []) :
    Reads false (.start scope) ws values options ↔
      values = [] ∧ ∃ given, Laid o.name.toList [] ws [] given ∧ Sets o kind [] given options := by
  rw [reads_option_iff ho hscope hdue (Progress.awaitsNothing_of_none rfl),
    Progress.settle_of_none rfl]
  constructor
  · rintro ⟨_, heq, given, more, hlaid, hmore, rfl, rfl⟩
    cases heq
    exact ⟨rfl, given, hlaid, hmore⟩
  · rintro ⟨rfl, given, hlaid, hoptions⟩
    exact ⟨_, rfl, given, options, hlaid, hoptions, rfl, rfl⟩

end RobotConsole.CommandLine
