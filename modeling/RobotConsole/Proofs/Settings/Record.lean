import RobotConsole.Proofs.Toml.Place
import RobotConsole.Proofs.Toml.Times
import RobotConsole.Settings.Layout

/-!
Reading a record entry by entry.  Whether an entry is taken does not depend on what was read before
it, so a table is read when each of its entries is taken; and as a table has each key once, what a
field shows at the end was put there by its own entry or was there at the start.
-/

namespace RobotConsole

/-- What a field takes: a text, or a whole number from zero up to below a bound. -/
inductive FieldKind where
  | text
  | whole (bound : Nat)

def FieldKind.Takes : FieldKind → Toml → Prop
  | .text, v => ∃ s, v = .text s
  | .whole bound, v => ∃ n : Nat, n < bound ∧ v = .integer n

/-- A field as it is declared: its name, what it takes, the value that it has without being given,
and the value that it shows in a record. -/
structure Declared (α : Type) where
  name : String
  kind : FieldKind
  standard : Option Toml
  shown : α → Option Toml

namespace Toml

theorem asText_eq_ok_iff {v : Toml} {s : String} : asText v = .ok s ↔ v = .text s := by
  cases v <;> simp [asText]

theorem asNat_eq_ok_iff {bound n : Nat} {expected : String} {v : Toml} :
    asNat bound expected v = .ok n ↔ n < bound ∧ v = .integer n := by
  cases v with
  | integer k =>
    rw [asNat, Toml.integer.injEq]
    split
    · next h =>
      rw [Except.ok.injEq]
      omega
    · next h =>
      simp only [reduceCtorEq, false_iff]
      omega
  | _ => simp [asNat]

end Toml

namespace Declared

variable {α : Type}

/-- The entry gives a declared field a value that the field takes. -/
def Admits (ds : List (Declared α)) (e : String × Toml) : Prop :=
  ∃ d ∈ ds, d.name = e.1 ∧ d.kind.Takes e.2

/-- Each field shows the value that it is given, or its standard one. -/
def Shows (ds : List (Declared α)) (given : List (String × Toml)) (a : α) : Prop :=
  ∀ d ∈ ds, d.shown a = (given.lookup d.name).or d.standard

end Declared

namespace Layout

variable {α β : Type} {l : Layout α} {es : List (String × Toml)} {a b : α}

theorem field_put_eq_ok_iff {name : String} {read : α → Toml → Except Misfit β} {set : β → α → α}
    {v : Toml} : (field name read set).put v a = .ok b ↔ ∃ x, read a v = .ok x ∧ b = set x a :=
  Toml.map_eq_ok_iff

/-- A field takes a value as it is read. -/
theorem exists_field_put_iff {name : String} {read : α → Toml → Except Misfit β} {set : β → α → α}
    {v : Toml} : (∃ b, (field name read set).put v a = .ok b) ↔ ∃ x, read a v = .ok x := by
  simp only [field_put_eq_ok_iff]
  constructor
  · rintro ⟨_, x, hx, -⟩
    exact ⟨x, hx⟩
  · rintro ⟨x, hx⟩
    exact ⟨_, x, hx, rfl⟩

/-- One entry more is read by the field of its key. -/
theorem readEntries_cons_eq_ok_iff {key : String} {v : Toml} :
    l.readEntries ((key, v) :: es) a = .ok b ↔
      ∃ f, l.fields.find? (fun f => f.name = key) = some f ∧
        ∃ a', f.put v a = .ok a' ∧ l.readEntries es a' = .ok b := by
  rw [readEntries]
  cases l.fields.find? fun f => f.name = key with
  | none => simp
  | some f =>
    dsimp only
    cases hput : f.put v a <;> simp [hput]

/-- A table is read when each of its entries is taken. -/
theorem exists_readEntries_iff {fits : String × Toml → Prop}
    (hnames : ∀ e, fits e → e.1 ∈ l.fields.map Field.name)
    (hput : ∀ f ∈ l.fields, ∀ v, (f.name, v) ∈ es → ∀ a,
      (∃ b, f.put v a = .ok b) ↔ fits (f.name, v)) (a : α) :
    (∃ b, l.readEntries es a = .ok b) ↔ ∀ e ∈ es, fits e := by
  induction es generalizing a with
  | nil => exact iff_of_true ⟨a, rfl⟩ nofun
  | cons e es ih =>
    obtain ⟨key, v⟩ := e
    have hrest := ih fun f hf v hv => hput f hf v (List.mem_cons_of_mem _ hv)
    rw [List.forall_mem_cons]
    simp only [readEntries_cons_eq_ok_iff]
    constructor
    · rintro ⟨b, f, hf, a', hput', hread⟩
      have hmem := List.mem_of_find?_eq_some hf
      obtain rfl : f.name = key := by simpa using List.find?_some hf
      exact ⟨(hput f hmem v List.mem_cons_self a).1 ⟨a', hput'⟩, (hrest a').1 ⟨b, hread⟩⟩
    · rintro ⟨he, hes⟩
      obtain ⟨f, hf⟩ : ∃ f, l.fields.find? (fun f => f.name = key) = some f := by
        obtain ⟨f, hmem, hname⟩ := List.mem_map.1 (hnames _ he)
        rw [← Option.isSome_iff_exists, List.find?_isSome]
        exact ⟨f, hmem, decide_eq_true hname⟩
      have hmem := List.mem_of_find?_eq_some hf
      obtain rfl : f.name = key := by simpa using List.find?_some hf
      obtain ⟨a', ha'⟩ := (hput f hmem v List.mem_cons_self a).2 he
      obtain ⟨b, hb⟩ := (hrest a').2 hes
      exact ⟨b, f, hf, a', ha', hb⟩

/-- What one field puts and no other touches is put by the entry of the field, or stays. -/
theorem get_readEntries {γ : Type} (name : String) (get : α → γ) (puts : Toml → γ → γ → Prop)
    (hown : ∀ f ∈ l.fields, f.name = name → ∀ v a b, f.put v a = .ok b → puts v (get a) (get b))
    (hothers : ∀ f ∈ l.fields, f.name ≠ name → ∀ v a b, f.put v a = .ok b → get b = get a)
    (hkeys : (es.map Prod.fst).Nodup) (h : l.readEntries es a = .ok b) :
    (∃ v, es.lookup name = some v ∧ puts v (get a) (get b)) ∨
      es.lookup name = none ∧ get b = get a := by
  induction es generalizing a with
  | nil =>
    cases h
    exact .inr ⟨rfl, rfl⟩
  | cons e es ih =>
    obtain ⟨key, v⟩ := e
    obtain ⟨hkey, hrest⟩ := List.nodup_cons.1 hkeys
    obtain ⟨f, hf, a', hput, hread⟩ := readEntries_cons_eq_ok_iff.1 h
    have hmem := List.mem_of_find?_eq_some hf
    obtain rfl : f.name = key := by simpa using List.find?_some hf
    by_cases hname : f.name = name
    · subst hname
      have hown := hown f hmem rfl v a a' hput
      -- the key does not come again, so nothing changes what its entry put
      obtain ⟨w, hw, -⟩ | ⟨-, hsame⟩ := ih hrest hread
      · rw [Toml.lookup_eq_none_iff_keys.2 hkey] at hw
        cases hw
      · exact .inl ⟨v, by rw [List.lookup_cons, beq_self_eq_true], hsame ▸ hown⟩
    · have hlookup : ((f.name, v) :: es).lookup name = es.lookup name := by
        rw [List.lookup_cons, beq_false_of_ne (Ne.symm hname)]
      rw [hlookup, ← hothers f hmem hname v a a' hput]
      exact ih hrest hread

/-- A field takes what is declared of it, puts what it shows and leaves the others alone. -/
structure Field.Meets (f : Field α) (ds : List (Declared α)) : Prop where
  takes : ∀ v a, (∃ b, f.put v a = .ok b) ↔ Declared.Admits ds (f.name, v)
  shows : ∀ v a b, f.put v a = .ok b →
    ∀ d ∈ ds, d.shown b = if d.name = f.name then some v else d.shown a

theorem meets_text {ds : List (Declared α)} {name : String} {set : String → α → α}
    (hkind : ∀ v, Declared.Admits ds (name, v) ↔ FieldKind.text.Takes v)
    (hset : ∀ s a, ∀ d ∈ ds,
      d.shown (set s a) = if d.name = name then some (.text s) else d.shown a) :
    (field name (fun _ => Toml.asText) set).Meets ds where
  takes v a := by
    rw [exists_field_put_iff]
    simp only [Toml.asText_eq_ok_iff]
    exact (hkind v).symm
  shows v a b hput := by
    obtain ⟨s, hs, rfl⟩ := field_put_eq_ok_iff.1 hput
    rw [Toml.asText_eq_ok_iff.1 hs]
    exact hset s a

theorem meets_whole {ds : List (Declared α)} {name : String} {bound : Nat} {expected : String}
    {set : Nat → α → α}
    (hkind : ∀ v, Declared.Admits ds (name, v) ↔ (FieldKind.whole bound).Takes v)
    (hset : ∀ n < bound, ∀ a, ∀ d ∈ ds,
      d.shown (set n a) = if d.name = name then some (.integer n) else d.shown a) :
    (field name (fun _ => Toml.asNat bound expected) set).Meets ds where
  takes v a := by
    rw [exists_field_put_iff]
    simp only [Toml.asNat_eq_ok_iff]
    exact (hkind v).symm
  shows v a b hput := by
    obtain ⟨n, hread, rfl⟩ := field_put_eq_ok_iff.1 hput
    obtain ⟨hn, rfl⟩ := Toml.asNat_eq_ok_iff.1 hread
    exact hset n hn a

/-- The fields are those declared, and the standard record shows the standard values. -/
structure Declares (l : Layout α) (ds : List (Declared α)) (standard : α) : Prop where
  names : ds.map Declared.name = l.fields.map Field.name
  meets : ∀ f ∈ l.fields, f.Meets ds
  standard : ∀ d ∈ ds, d.shown standard = d.standard

namespace Declares

variable {ds : List (Declared α)} {standard : α}

theorem exists_readEntries_iff (h : l.Declares ds standard) (es : List (String × Toml)) (a : α) :
    (∃ b, l.readEntries es a = .ok b) ↔ ∀ e ∈ es, Declared.Admits ds e := by
  refine Layout.exists_readEntries_iff ?_ (fun f hf v _ a => (h.meets f hf).takes v a) a
  rintro e ⟨d, hd, hname, -⟩
  rw [← h.names, ← hname]
  exact List.mem_map_of_mem hd

/-- Reading the entries of a table into the standard record gives each field its value. -/
theorem shows_readEntries (h : l.Declares ds standard) (hkeys : (es.map Prod.fst).Nodup)
    (hread : l.readEntries es standard = .ok b) : Declared.Shows ds es b := by
  intro d hd
  have hshows : ∀ f ∈ l.fields, ∀ v a b, f.put v a = .ok b →
      d.shown b = if d.name = f.name then some v else d.shown a :=
    fun f hf v a b hput => (h.meets f hf).shows v a b hput d hd
  have hfound := get_readEntries d.name d.shown (fun v _ shown => shown = some v)
    (fun f hf hname v a b hput => (hshows f hf v a b hput).trans (if_pos hname.symm))
    (fun f hf hname v a b hput => (hshows f hf v a b hput).trans (if_neg (Ne.symm hname)))
    hkeys hread
  obtain ⟨v, hlookup, hv⟩ | ⟨hlookup, hsame⟩ := hfound
  · rw [hlookup, hv, Option.some_or]
  · rw [hlookup, hsame, Option.none_or, h.standard d hd]

/-- Without entries each field has its standard value. -/
theorem shows_standard (h : l.Declares ds standard) : Declared.Shows ds [] standard := by
  intro d hd
  rw [List.lookup_nil, Option.none_or, h.standard d hd]

end Declares
end Layout
end RobotConsole
