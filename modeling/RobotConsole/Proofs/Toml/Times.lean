import Mathlib.Data.List.Forall2
import RobotConsole.Proofs.Toml.Place
import RobotConsole.Settings.Layout

/-!
What of a value is kept where values of any kind are read.  A table whose first key is that of times
is kept as the date or time that it names, and where it names none nothing is read; all else is kept
as it stands.
-/

namespace RobotConsole.Toml

/-- The first key is that of times. -/
def NamesTime : List (String × Toml) → Prop
  | [] => False
  | (key, _) :: _ => key = timeKey

/-- Two entries with one key, whose values are in a relation. -/
inductive Entrywise (r : Toml → Toml → Prop) : String × Toml → String × Toml → Prop
  | intro {key : String} {v w : Toml} (h : r v w) : Entrywise r (key, v) (key, w)

theorem entrywise_iff {r : Toml → Toml → Prop} {key : String} {v : Toml} {e : String × Toml} :
    Entrywise r (key, v) e ↔ ∃ w, r v w ∧ e = (key, w) := by
  constructor
  · rintro ⟨h⟩
    exact ⟨_, h, rfl⟩
  · rintro ⟨w, h, rfl⟩
    exact .intro h

/-- The first value is read as the second one. -/
inductive Kept : Toml → Toml → Prop
  | single {v : Toml} (h : v.Single) : Kept v v
  | list {items kept : List Toml} (h : List.Forall₂ Kept items kept) :
    Kept (.list items) (.list kept)
  | date {text : String} {t : CalendarTime} {rest : List (String × Toml)}
    (h : CalendarTime.ofText? text = some t) :
    Kept (.table ((timeKey, .text text) :: rest)) (.time t)
  | table {entries kept : List (String × Toml)} (hfirst : ¬ NamesTime entries)
    (h : List.Forall₂ (Entrywise Kept) entries kept) : Kept (.table entries) (.table kept)

def KeptEntries : List (String × Toml) → List (String × Toml) → Prop :=
  List.Forall₂ (Entrywise Kept)

theorem kept_single_iff {v w : Toml} (hv : v.Single) : Kept v w ↔ w = v := by
  refine ⟨fun h => ?_, ?_⟩
  · cases h with
    | single => rfl
    | list | date | table => exact hv.elim
  · rintro rfl
    exact .single hv

theorem kept_list_iff {items : List Toml} {w : Toml} :
    Kept (.list items) w ↔ ∃ kept, List.Forall₂ Kept items kept ∧ w = .list kept := by
  refine ⟨fun h => ?_, ?_⟩
  · cases h with
    | single h => exact h.elim
    | list h => exact ⟨_, h, rfl⟩
  · rintro ⟨kept, h, rfl⟩
    exact .list h

theorem kept_table_iff {entries : List (String × Toml)} {w : Toml} (hfirst : ¬ NamesTime entries) :
    Kept (.table entries) w ↔ ∃ kept, KeptEntries entries kept ∧ w = .table kept := by
  refine ⟨fun h => ?_, ?_⟩
  · cases h with
    | single h => exact h.elim
    | date h => exact absurd rfl hfirst
    | table _ h => exact ⟨_, h, rfl⟩
  · rintro ⟨kept, h, rfl⟩
    exact .table hfirst h

theorem kept_date_iff {v w : Toml} {rest : List (String × Toml)} :
    Kept (.table ((timeKey, v) :: rest)) w ↔
      ∃ text t, v = .text text ∧ CalendarTime.ofText? text = some t ∧ w = .time t := by
  refine ⟨fun h => ?_, ?_⟩
  · cases h with
    | single h => exact h.elim
    | date h => exact ⟨_, _, rfl, h, rfl⟩
    | table hfirst _ => exact absurd rfl hfirst
  · rintro ⟨text, t, rfl, h, rfl⟩
    exact .date h

theorem asTime_eq_ok_iff {v w : Toml} :
    asTime v = .ok w ↔
      ∃ text t, v = .text text ∧ CalendarTime.ofText? text = some t ∧ w = .time t := by
  cases v with
  | text text =>
    rw [asTime]
    cases h : CalendarTime.ofText? text <;> simp [h, eq_comm]
  | _ => simp [asTime]

theorem map_eq_ok_iff {ε α β : Type} {x : Except ε α} {f : α → β} {b : β} :
    x.map f = .ok b ↔ ∃ a, x = .ok a ∧ b = f a := by
  cases x <;> simp [Except.map, eq_comm]

theorem withTimes_eq_ok_iff_of_single {v w : Toml} (hv : v.Single) :
    v.withTimes = .ok w ↔ Kept v w := by
  have hread : v.withTimes = .ok v := by
    cases v with
    | list | table => exact hv.elim
    | _ => rfl
  rw [hread, Except.ok.injEq, kept_single_iff hv, eq_comm]

mutual

/-- Values of any kind are read as what is kept of them. -/
theorem withTimes_eq_ok_iff (v w : Toml) : v.withTimes = .ok w ↔ Kept v w := by
  match v with
  | .text _ | .integer _ | .float _ | .boolean _ | .time _ =>
    exact withTimes_eq_ok_iff_of_single trivial
  | .list items =>
    rw [withTimes, map_eq_ok_iff, kept_list_iff]
    simp only [itemsWithTimes_eq_ok_iff items]
  | .table [] =>
    rw [withTimes, Except.ok.injEq, kept_table_iff id]
    simp only [KeptEntries, List.forall₂_nil_left_iff, exists_eq_left, eq_comm]
  | .table ((key, v) :: rest) =>
    rw [withTimes]
    split
    · next h =>
      subst h
      rw [asTime_eq_ok_iff, kept_date_iff]
    · next h =>
      have hfirst : ¬ NamesTime ((key, v) :: rest) := h
      rw [map_eq_ok_iff, kept_table_iff hfirst]
      simp only [entriesWithTimes_eq_ok_iff ((key, v) :: rest)]

theorem itemsWithTimes_eq_ok_iff (items kept : List Toml) :
    itemsWithTimes items = .ok kept ↔ List.Forall₂ Kept items kept := by
  match items with
  | [] => rw [itemsWithTimes, Except.ok.injEq, List.forall₂_nil_left_iff, eq_comm]
  | v :: rest =>
    rw [List.forall₂_cons_left_iff, itemsWithTimes]
    simp only [← withTimes_eq_ok_iff v, ← itemsWithTimes_eq_ok_iff rest]
    cases v.withTimes <;> simp [map_eq_ok_iff]

theorem entriesWithTimes_eq_ok_iff (entries kept : List (String × Toml)) :
    entriesWithTimes entries = .ok kept ↔ KeptEntries entries kept := by
  match entries with
  | [] => rw [entriesWithTimes, Except.ok.injEq, KeptEntries, List.forall₂_nil_left_iff, eq_comm]
  | (key, v) :: rest =>
    have ihv := withTimes_eq_ok_iff v
    have ihrest := entriesWithTimes_eq_ok_iff rest
    rw [KeptEntries] at ihrest ⊢
    rw [List.forall₂_cons_left_iff, entriesWithTimes]
    simp only [entrywise_iff, ← ihv, ← ihrest]
    cases v.withTimes <;> simp [map_eq_ok_iff]

end

/-- No table within has the key of times as its first. -/
inductive Plain : Toml → Prop
  | single {v : Toml} (h : v.Single) : Plain v
  | list {items : List Toml} (h : ∀ v ∈ items, Plain v) : Plain (.list items)
  | table {entries : List (String × Toml)} (hfirst : ¬ NamesTime entries)
    (h : ∀ e ∈ entries, Plain e.2) : Plain (.table entries)

theorem forall₂_iff_eq {α : Type} {r : α → α → Prop} {as bs : List α}
    (h : ∀ a ∈ as, ∀ b, r a b ↔ b = a) : List.Forall₂ r as bs ↔ bs = as := by
  induction as generalizing bs with
  | nil => exact List.forall₂_nil_left_iff
  | cons a as ih =>
    obtain ⟨ha, has⟩ := List.forall_mem_cons.1 h
    rw [List.forall₂_cons_left_iff]
    constructor
    · rintro ⟨b, rest, hb, hrest, rfl⟩
      rw [(ha b).1 hb, (ih has).1 hrest]
    · rintro rfl
      exact ⟨a, as, (ha a).2 rfl, (ih has).2 rfl, rfl⟩

theorem entrywise_iff_eq {r : Toml → Toml → Prop} {e k : String × Toml}
    (h : ∀ w, r e.2 w ↔ w = e.2) : Entrywise r e k ↔ k = e := by
  obtain ⟨key, v⟩ := e
  simp only [entrywise_iff, h, exists_eq_left]

theorem kept_iff_of_plain {v : Toml} (hv : v.Plain) : ∀ {w : Toml}, Kept v w ↔ w = v := by
  induction hv with
  | single h => exact kept_single_iff h
  | list _ ih =>
    intro w
    rw [kept_list_iff]
    simp only [forall₂_iff_eq fun v hv w => ih v hv (w := w), exists_eq_left]
  | table hfirst _ ih =>
    intro w
    rw [kept_table_iff hfirst]
    have hentry : ∀ e ∈ _, ∀ k, Entrywise Kept e k ↔ k = e :=
      fun e he k => entrywise_iff_eq fun w => ih e he (w := w)
    simp only [KeptEntries, forall₂_iff_eq hentry, exists_eq_left]

/-- Where no table names a time, all is kept as it stands. -/
theorem keptEntries_iff_of_plain {entries kept : List (String × Toml)}
    (h : ∀ e ∈ entries, e.2.Plain) : KeptEntries entries kept ↔ kept = entries :=
  forall₂_iff_eq fun e he _ => entrywise_iff_eq fun _ => kept_iff_of_plain (h e he)

end RobotConsole.Toml
