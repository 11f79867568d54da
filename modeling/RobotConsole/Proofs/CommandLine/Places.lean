import RobotConsole.Proofs.CommandLine.Layout

/-!
Command lines that are read without fault.  A value is checked when the next argument begins, but
what has been read in the end is told by the progress with its pending argument settled.  So the
words of a command are read exactly where they have a layout whose values can all be read.
-/

namespace RobotConsole.CommandLine

theorem bind_eq_ok_iff {ε α β : Type} {x : Except ε α} {f : α → Except ε β} {b : β} :
    x >>= f = .ok b ↔ ∃ a, x = .ok a ∧ f a = .ok b := by
  cases x with
  | error e =>
    constructor
    · intro h
      cases h
    · rintro ⟨a, h, -⟩
      cases h
  | ok a =>
    constructor
    · intro h
      exact ⟨a, rfl, h⟩
    · rintro ⟨a', h, hb⟩
      cases h
      exact hb

theorem exists_bind_iff {ε α β : Type} {x : Except ε α} {f : α → Except ε β} {P : β → Prop} :
    (∃ b, x >>= f = .ok b ∧ P b) ↔ ∃ a, x = .ok a ∧ ∃ b, f a = .ok b ∧ P b := by
  simp only [bind_eq_ok_iff]
  constructor
  · rintro ⟨b, ⟨a, ha, hb⟩, h⟩
    exact ⟨a, ha, b, hb, h⟩
  · rintro ⟨a, ha, b, hb, h⟩
    exact ⟨b, ⟨a, ha, hb⟩, h⟩

theorem mapError_eq_ok_iff {ε δ α : Type} {x : Except ε α} {f : ε → δ} {a : α} :
    x.mapError f = .ok a ↔ x = .ok a := by
  cases x <;> simp [Except.mapError]

/-- The values of the words that come into places; those left over may be empty. -/
inductive Fills : List Positional → List Word → List Value → Prop
  | nil {due : List Positional} (h : due.filter Positional.required = []) : Fills due [] []
  | cons {slot : Positional} {due : List Positional} {w : Word} {ws : List Word} {v : Value}
      {vs : List Value} (hv : slot.kind.read w = .ok v) (h : Fills due ws vs) :
      Fills (slot :: due) (w :: ws) (v :: vs)

theorem fills_nil_iff {due : List Positional} {values : List Value} :
    Fills due [] values ↔ due.filter Positional.required = [] ∧ values = [] := by
  constructor
  · rintro ⟨h⟩
    exact ⟨h, rfl⟩
  · rintro ⟨h, rfl⟩
    exact .nil h

theorem fills_no_place_iff {ws : List Word} {values : List Value} :
    Fills [] ws values ↔ ws = [] ∧ values = [] := by
  constructor
  · intro h
    cases h
    exact ⟨rfl, rfl⟩
  · rintro ⟨rfl, rfl⟩
    exact .nil rfl

theorem fills_cons_iff {due : List Positional} {w : Word} {ws : List Word} {values : List Value} :
    Fills due (w :: ws) values ↔
      ∃ slot rest v vs, due = slot :: rest ∧ slot.kind.read w = .ok v ∧ Fills rest ws vs ∧
        values = v :: vs := by
  constructor
  · intro h
    cases h with
    | cons hv h => exact ⟨_, _, _, _, rfl, hv, h, rfl⟩
  · rintro ⟨slot, rest, v, vs, rfl, hv, h, rfl⟩
    exact .cons hv h

theorem fills_singleton_iff {slot : Positional} {ws : List Word} {values : List Value} :
    Fills [slot] ws values ↔
      slot.required = false ∧ ws = [] ∧ values = [] ∨
        ∃ w v, ws = [w] ∧ values = [v] ∧ slot.kind.read w = .ok v := by
  cases ws with
  | nil => simp [fills_nil_iff]
  | cons w ws =>
    simp only [fills_cons_iff, List.cons.injEq]
    constructor
    · rintro ⟨_, _, v, vs, ⟨rfl, rfl⟩, hv, h, rfl⟩
      obtain ⟨rfl, rfl⟩ := fills_no_place_iff.1 h
      exact Or.inr ⟨w, v, ⟨rfl, rfl⟩, rfl, hv⟩
    · rintro (⟨-, h, -⟩ | ⟨_, v, ⟨rfl, rfl⟩, rfl, hv⟩)
      · cases h
      · exact ⟨slot, [], v, [], ⟨rfl, rfl⟩, hv, .nil rfl, rfl⟩

namespace Progress

variable {p q r : Progress} {w letters name : Word}

def AwaitsNothing (p : Progress) : Prop := ∀ o, p.pending ≠ .awaiting o

theorem awaitsNothing_of_none (h : p.pending = .none) : p.AwaitsNothing := by
  intro o ho
  rw [h] at ho
  cases ho

theorem settleOrStop_eq_ok_iff : p.settleOrStop = .ok q ↔ p.settle = .ok q := mapError_eq_ok_iff

theorem settle_of_none (h : p.pending = .none) : p.settle = .ok p := by
  rw [settle, h]

theorem setOption_eq_ok_iff {o : Named} {kind : ValueKind} {value : Word} (hkind : kind ≠ .path) :
    p.setOption o kind value = .ok q ↔
      (∀ x ∈ p.options, x.1 ≠ o.name) ∧
        ∃ v, kind.read value = .ok v ∧
          q = { p with options := p.options ++ [(o.name, v)], pending := .none } := by
  rw [setOption]
  split
  · next hrepeated =>
    obtain ⟨x, hx, heq⟩ := List.any_eq_true.1 hrepeated
    constructor
    · intro h
      cases h
    · rintro ⟨hfresh, -⟩
      exact absurd (by simpa using heq) (hfresh x hx)
  · next hrepeated =>
    rw [if_neg fun h => hkind h.1]
    have hfresh : ∀ x ∈ p.options, x.1 ≠ o.name := fun x hx heq =>
      hrepeated (List.any_eq_true.2 ⟨x, hx, by simpa using heq⟩)
    cases hread : kind.read value with
    | ok v =>
      constructor
      · intro h
        cases h
        exact ⟨hfresh, v, rfl, rfl⟩
      · rintro ⟨-, v', hv, rfl⟩
        cases hv
        rfl
    | error reason => simp

/-- Settling ends what has begun and changes nothing but the values and options. -/
theorem settle_keeps (h : p.settle = .ok q) :
    q.scope = p.scope ∧ q.due = p.due ∧ q.pending = .none := by
  rw [settle.eq_def] at h
  split at h
  · next hp =>
    cases h
    exact ⟨rfl, rfl, hp⟩
  · cases h
  · next o kind value hp =>
    rw [setOption.eq_def] at h
    split_ifs at h
    split at h
    · cases h
      exact ⟨rfl, rfl, rfl⟩
    · cases h
  · next slot value hp =>
    split at h
    · cases h
      exact ⟨rfl, rfl, rfl⟩
    · cases h

theorem place_eq_ok_iff :
    p.place w = .ok r ↔
      ∃ slot due q, p.due = slot :: due ∧ p.settle = .ok q ∧
        r = { q with pending := .positional slot w, due := due } := by
  rw [place]
  cases hdue : p.due with
  | nil => simp
  | cons slot due =>
    simp only [bind_eq_ok_iff, settleOrStop_eq_ok_iff]
    constructor
    · rintro ⟨q, hq, hr⟩
      cases hr
      exact ⟨slot, due, q, rfl, hq, rfl⟩
    · rintro ⟨_, _, q, heq, hq, rfl⟩
      cases heq
      exact ⟨q, hq, rfl⟩

theorem settle_positional_eq_ok_iff {slot : Positional} {due : List Positional} :
    ({ q with pending := .positional slot w, due := due } : Progress).settle = .ok r ↔
      ∃ v, slot.kind.read w = .ok v ∧
        r = { q with values := q.values ++ [v], pending := .none, due := due } := by
  cases hread : slot.kind.read w with
  | ok v => simp [settle, hread, eq_comm]
  | error reason => simp [settle, hread]

theorem plain_of_awaitsNothing (h : p.AwaitsNothing) : p.plain w = p.place w := by
  rw [plain]
  split
  · next o ho => exact absurd ho (h o)
  · rfl

theorem takesNegative_iff :
    p.takesNegative letters = true ↔
      ∃ slot due, p.due = slot :: due ∧ slot.kind = .float ∧ IsNegativeNumber letters := by
  rw [takesNegative]
  cases hdue : p.due with
  | nil => simp
  | cons slot due =>
    simp only [Bool.and_eq_true, decide_eq_true_eq, isNegativeNumber_iff_continues]
    constructor
    · rintro ⟨hkind, hnumber⟩
      exact ⟨slot, due, rfl, hkind, hnumber⟩
    · rintro ⟨_, _, heq, hkind, hnumber⟩
      cases heq
      exact ⟨hkind, hnumber⟩

theorem short_ne_ok (h : letters ≠ []) : p.short letters ≠ .ok r := by
  rw [short.eq_def]
  split
  · simp only [ne_eq, bind_eq_ok_iff, not_exists, not_and]
    intro q _ h
    cases h
  · split
    · simp only [ne_eq, bind_eq_ok_iff, not_exists, not_and]
      intro q _ h
      cases h
    · intro h
      cases h
  · intro h
    cases h
  · exact absurd rfl h

theorem long_ne_ok {value : Option Word} (h : ∀ o ∈ p.scope.options, o.name.toList ≠ name) :
    p.long name value ≠ .ok r := by
  have hnone : p.scope.options.find? (fun o => o.name.toList = name) = none := by
    simpa using h
  have hswitch : ∀ {o : Named} {s : Stop}, p.switch o value (fun _ => .error s) ≠ .ok r := by
    intro o s
    cases value with
    | some value =>
      intro h
      cases h
    | none =>
      simp only [switch, ne_eq, bind_eq_ok_iff, not_exists, not_and]
      intro q _ h
      cases h
  simp only [long, hnone]
  split_ifs
  · exact hswitch
  · exact hswitch
  · intro h
    cases h

end Progress

/-- The words are read without fault, and then these are the values and options of the command. -/
def Reads (trailing : Bool) (p : Progress) (ws : List Word) (values : List Value)
    (options : List (String × Value)) : Prop :=
  ∃ r, readCommand trailing p ws = .ok r ∧ r.values = values ∧ r.options = options

section Reads

variable {trailing : Bool} {p q : Progress} {w : Word} {ws : List Word} {values : List Value}
  {options : List (String × Value)}

theorem reads_nil_iff :
    Reads trailing p [] values options ↔
      ∃ q, p.settle = .ok q ∧ q.due.filter Positional.required = [] ∧ q.values = values ∧
        q.options = options := by
  simp only [Reads, readCommand, exists_bind_iff, Progress.settleOrStop_eq_ok_iff,
    List.map_eq_nil_iff]
  constructor
  · rintro ⟨q, hq, r, hr, hvalues, hoptions⟩
    split at hr
    · next hmissing =>
      cases hr
      exact ⟨q, hq, hmissing, hvalues, hoptions⟩
    · cases hr
  · rintro ⟨q, hq, hmissing, hvalues, hoptions⟩
    refine ⟨q, hq, q, ?_, hvalues, hoptions⟩
    rw [if_pos hmissing]
    rfl

theorem reads_escaped_cons_iff :
    Reads true p (w :: ws) values options ↔
      ∃ p', p.place w = .ok p' ∧ Reads true p' ws values options := by
  simp only [Reads, readCommand, if_true, exists_bind_iff]

/-- A word comes into the next place: what has begun is settled, and the word can be read. -/
theorem exists_place_iff {P : Progress → Prop} :
    (∃ p', p.place w = .ok p' ∧ ∃ q, p'.settle = .ok q ∧ P q) ↔
      ∃ q, p.settle = .ok q ∧ ∃ slot due v, q.due = slot :: due ∧ slot.kind.read w = .ok v ∧
        P { q with values := q.values ++ [v], pending := .none, due := due } := by
  constructor
  · rintro ⟨p', hp', r, hr, h⟩
    obtain ⟨slot, due, q, hdue, hq, rfl⟩ := Progress.place_eq_ok_iff.1 hp'
    obtain ⟨v, hv, rfl⟩ := Progress.settle_positional_eq_ok_iff.1 hr
    rw [← (Progress.settle_keeps hq).2.1] at hdue
    exact ⟨q, hq, slot, due, v, hdue, hv, h⟩
  · rintro ⟨q, hq, slot, due, v, hdue, hv, h⟩
    rw [(Progress.settle_keeps hq).2.1] at hdue
    exact ⟨_, Progress.place_eq_ok_iff.2 ⟨slot, due, q, hdue, hq, rfl⟩, _,
      Progress.settle_positional_eq_ok_iff.2 ⟨v, hv, rfl⟩, h⟩

theorem awaitsNothing_of_place {p' : Progress} (h : p.place w = .ok p') : p'.AwaitsNothing := by
  obtain ⟨slot, due, q, -, -, rfl⟩ := Progress.place_eq_ok_iff.1 h
  intro o ho
  cases ho

theorem reads_escaped_iff :
    Reads true p ws values options ↔
      ∃ q, p.settle = .ok q ∧ ∃ more, Fills q.due ws more ∧ values = q.values ++ more ∧
        options = q.options := by
  induction ws generalizing p with
  | nil =>
    simp only [reads_nil_iff, fills_nil_iff]
    constructor
    · rintro ⟨q, hq, hmissing, rfl, rfl⟩
      exact ⟨q, hq, [], ⟨hmissing, rfl⟩, by simp, rfl⟩
    · rintro ⟨q, hq, _, ⟨hmissing, rfl⟩, rfl, rfl⟩
      exact ⟨q, hq, hmissing, by simp, rfl⟩
  | cons w ws ih =>
    simp only [reads_escaped_cons_iff, ih, exists_place_iff, fills_cons_iff]
    constructor
    · rintro ⟨q, hq, slot, due, v, hdue, hv, more, hmore, rfl, rfl⟩
      exact ⟨q, hq, v :: more, ⟨slot, due, v, more, hdue, hv, hmore, rfl⟩, by simp, rfl⟩
    · rintro ⟨q, hq, _, ⟨slot, due, v, more, hdue, hv, hmore, rfl⟩, rfl, rfl⟩
      exact ⟨q, hq, slot, due, v, hdue, hv, more, hmore, by simp, rfl⟩

/-- How a command line goes on is told by the shape of its next word. -/
theorem reads_cons_iff :
    Reads false p (w :: ws) values options ↔
      match shape w with
      | .escape => Reads true p ws values options
      | .long name value =>
        ∃ p', p.long name value = .ok p' ∧ Reads false p' ws values options
      | .short letters =>
        if p.takesNegative letters then
          ∃ p', p.plain w = .ok p' ∧ Reads false p' ws values options
        else ∃ p', p.short letters = .ok p' ∧ Reads false p' ws values options
      | .plain => ∃ p', p.plain w = .ok p' ∧ Reads false p' ws values options := by
  simp only [Reads, readCommand, Bool.false_eq_true, if_false]
  cases shape w with
  | escape => rfl
  | long name value => simp only [exists_bind_iff]
  | short letters =>
    simp only
    split <;> simp only [exists_bind_iff]
  | plain => simp only [exists_bind_iff]

/-- What words that come into places add to what was read before. -/
def ReadsPlaces (option : Word) (q : Progress) (ws : List Word) (values : List Value)
    (options : List (String × Value)) : Prop :=
  ∃ placed more, Laid option (q.due.map Positional.kind) ws placed [] ∧ Fills q.due placed more ∧
    values = q.values ++ more ∧ options = q.options

def PlacesFirst (option : Word) (q : Progress) (w : Word) (ws : List Word) (values : List Value)
    (options : List (String × Value)) : Prop :=
  ∃ slot due v, q.due = slot :: due ∧ slot.kind.read w = .ok v ∧
    ReadsPlaces option { q with values := q.values ++ [v], pending := .none, due := due } ws values
      options

section Places

variable {option : Word} {letters : Word}

theorem placesFirst_iff :
    PlacesFirst option q w ws values options ↔
      ∃ placed more, Laid option (q.due.map Positional.kind).tail ws placed [] ∧
        Fills q.due (w :: placed) more ∧ values = q.values ++ more ∧ options = q.options := by
  constructor
  · rintro ⟨slot, due, v, hdue, hv, placed, more, hlaid, hmore, rfl, rfl⟩
    refine ⟨placed, v :: more, ?_, hdue ▸ .cons hv hmore, by simp, rfl⟩
    rw [hdue]
    exact hlaid
  · rintro ⟨placed, more, hlaid, hmore, rfl, rfl⟩
    obtain ⟨slot, due, v, vs, hdue, hv, hvs, rfl⟩ := fills_cons_iff.1 hmore
    rw [hdue] at hlaid
    exact ⟨slot, due, v, hdue, hv, placed, vs, hlaid, hvs, by simp, rfl⟩

theorem takesNegative_iff_kinds :
    q.takesNegative letters = true ↔
      ∃ kinds, q.due.map Positional.kind = .float :: kinds ∧ IsNegativeNumber letters := by
  rw [Progress.takesNegative_iff]
  constructor
  · rintro ⟨slot, due, hdue, hkind, hnumber⟩
    exact ⟨due.map Positional.kind, by rw [hdue, List.map_cons, hkind], hnumber⟩
  · rintro ⟨kinds, hkinds, hnumber⟩
    obtain ⟨slot, due, hdue, hkind, -⟩ := List.map_eq_cons_iff.1 hkinds
    exact ⟨slot, due, hdue, hkind, hnumber⟩

theorem readsPlaces_cons_iff (hne : option ≠ []) (hoption : '=' ∉ option) :
    ReadsPlaces option q (w :: ws) values options ↔
      match shape w with
      | .escape =>
        ∃ more, Fills q.due ws more ∧ values = q.values ++ more ∧ options = q.options
      | .long _ _ => False
      | .short letters =>
        q.takesNegative letters = true ∧ PlacesFirst option q w ws values options
      | .plain => PlacesFirst option q w ws values options := by
  simp only [placesFirst_iff, takesNegative_iff_kinds]
  simp only [ReadsPlaces, laid_cons_iff hne hoption]
  cases shape w with
  | escape =>
    constructor
    · rintro ⟨_, more, ⟨rfl, -⟩, hmore⟩
      exact ⟨more, hmore⟩
    · rintro ⟨more, hmore⟩
      exact ⟨ws, more, ⟨rfl, trivial⟩, hmore⟩
  | long name value => cases value <;> simp
  | short letters =>
    constructor
    · rintro ⟨_, more, ⟨kinds, placed, hkinds, hnumber, rfl, hlaid⟩, hmore⟩
      exact ⟨⟨kinds, hkinds, hnumber⟩, placed, more, by rwa [hkinds], hmore⟩
    · rintro ⟨⟨kinds, hkinds, hnumber⟩, placed, more, hlaid, hmore⟩
      rw [hkinds] at hlaid
      exact ⟨w :: placed, more, ⟨kinds, placed, hkinds, hnumber, rfl, hlaid⟩, hmore⟩
  | plain =>
    constructor
    · rintro ⟨_, more, ⟨placed, rfl, hlaid⟩, hmore⟩
      exact ⟨placed, more, hlaid, hmore⟩
    · rintro ⟨placed, more, hlaid, hmore⟩
      exact ⟨w :: placed, more, ⟨placed, rfl, hlaid⟩, hmore⟩

/-- The words of a command without options are those of its places. -/
theorem reads_places_iff (hne : option ≠ []) (hoption : '=' ∉ option)
    (hscope : p.scope.options = []) (hp : p.AwaitsNothing) :
    Reads false p ws values options ↔
      ∃ q, p.settle = .ok q ∧ ReadsPlaces option q ws values options := by
  induction ws generalizing p with
  | nil =>
    simp only [reads_nil_iff, ReadsPlaces, laid_nil_iff]
    constructor
    · rintro ⟨q, hq, hmissing, rfl, rfl⟩
      exact ⟨q, hq, [], [], ⟨rfl, trivial⟩, .nil hmissing, by simp, rfl⟩
    · rintro ⟨q, hq, _, more, ⟨rfl, -⟩, hmore, rfl, rfl⟩
      obtain ⟨hmissing, rfl⟩ := fills_nil_iff.1 hmore
      exact ⟨q, hq, hmissing, by simp, rfl⟩
  | cons w ws ih =>
    have hplace : (∃ p', p.plain w = .ok p' ∧ Reads false p' ws values options) ↔
        ∃ q, p.settle = .ok q ∧ PlacesFirst option q w ws values options := by
      rw [Progress.plain_of_awaitsNothing hp]
      refine Iff.trans ?_ (exists_place_iff (P := fun q => ReadsPlaces option q ws values options))
      refine exists_congr fun p' => and_congr_right fun hp' => ?_
      obtain ⟨slot, due, q, -, hq, rfl⟩ := Progress.place_eq_ok_iff.1 hp'
      exact ih ((Progress.settle_keeps hq).1 ▸ hscope) (awaitsNothing_of_place hp')
    have hfits := fits_shape w
    simp only [reads_cons_iff, readsPlaces_cons_iff hne hoption]
    cases hshape : shape w with
    | escape => exact reads_escaped_iff
    | long name value =>
      have hlong : ∀ p', p.long name value ≠ .ok p' := fun p' =>
        Progress.long_ne_ok (by simp [hscope])
      simp [hlong]
    | short letters =>
      rw [hshape] at hfits
      have hshort : ∀ p', p.short letters ≠ .ok p' := fun p' => Progress.short_ne_ok hfits.1
      have hsame : ∀ {q}, p.settle = .ok q → q.takesNegative letters = p.takesNegative letters := by
        intro q hq
        rw [Progress.takesNegative, Progress.takesNegative, (Progress.settle_keeps hq).2.1]
      simp only
      by_cases hnegative : p.takesNegative letters = true
      · rw [if_pos hnegative, hplace]
        refine exists_congr fun q => and_congr_right fun hq => ?_
        rw [hsame hq]
        exact (and_iff_right hnegative).symm
      · rw [if_neg hnegative]
        constructor
        · rintro ⟨p', hp', -⟩
          exact absurd hp' (hshort p')
        · rintro ⟨q, hq, h, -⟩
          exact absurd (hsame hq ▸ h) hnegative
    | plain => exact hplace

theorem reads_start_places_iff {scope : Scope} (hne : option ≠ []) (hoption : '=' ∉ option)
    (hscope : scope.options = []) :
    Reads false (.start scope) ws values options ↔
      options = [] ∧ ∃ placed, Laid option (scope.positionals.map Positional.kind) ws placed [] ∧
        Fills scope.positionals placed values := by
  rw [reads_places_iff hne hoption hscope (Progress.awaitsNothing_of_none rfl),
    Progress.settle_of_none rfl]
  constructor
  · rintro ⟨_, heq, placed, more, hlaid, hmore, rfl, rfl⟩
    cases heq
    exact ⟨rfl, placed, hlaid, hmore⟩
  · rintro ⟨rfl, placed, hlaid, hvalues⟩
    exact ⟨_, rfl, placed, values, hlaid, hvalues, rfl, rfl⟩

end Places

end Reads

end RobotConsole.CommandLine
