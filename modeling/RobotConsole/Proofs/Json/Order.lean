import RobotConsole.Proofs.Json.Fields
import RobotConsole.Proofs.Json.Legible

/-!
The order of members.  Documents that differ only in the order in which their objects list their
members, at any depth, are read alike: a record finds each of its fields by its name, whatever stands
around it, and what it finds there differs in nothing but order again.
-/

namespace RobotConsole.Json

/-- The second document is the first with the members of its objects in other orders. -/
inductive Reordered : Json → Json → Prop where
  | refl (j : Json) : Reordered j j
  | trans {j₁ j₂ j₃ : Json} : Reordered j₁ j₂ → Reordered j₂ j₃ → Reordered j₁ j₃
  | members {members members' : List (List Char × Json)} : members.Perm members' →
      Reordered (.object members) (.object members')
  | member {before after : List (List Char × Json)} {name : List Char} {j j' : Json} :
      Reordered j j' →
      Reordered (.object (before ++ (name, j) :: after)) (.object (before ++ (name, j') :: after))
  | item {before after : List Json} {j j' : Json} : Reordered j j' →
      Reordered (.list (before ++ j :: after)) (.list (before ++ j' :: after))

section Values

variable {members : List (List Char × Json)}

theorem membersSound_iff : membersSound members = true ↔
    ∀ m ∈ members, (text? m.1).isSome ∧ m.2.sound = true := by
  induction members with
  | nil => simp [membersSound]
  | cons m members ih =>
    rw [membersSound, Bool.and_eq_true, Bool.and_eq_true, ih, List.forall_mem_cons]

theorem listSound_iff {items : List Json} :
    listSound items = true ↔ ∀ j ∈ items, j.sound = true := by
  induction items with
  | nil => simp [listSound]
  | cons j items ih => rw [listSound, Bool.and_eq_true, ih, List.forall_mem_cons]

theorem membersDepth_le_iff {n : Nat} :
    membersDepth members ≤ n ↔ ∀ m ∈ members, m.2.depth ≤ n := by
  induction members with
  | nil => simp [membersDepth]
  | cons m members ih => rw [membersDepth, Nat.max_le, ih, List.forall_mem_cons]

theorem listDepth_le_iff {items : List Json} {n : Nat} :
    listDepth items ≤ n ↔ ∀ j ∈ items, j.depth ≤ n := by
  induction items with
  | nil => simp [listDepth]
  | cons j items ih => rw [listDepth, Nat.max_le, ih, List.forall_mem_cons]

end Values

/-- What holds of all elements still does when one of them is replaced. -/
theorem forall_mem_replace {α : Type} {P : α → Prop} {before after : List α} {a a' : α}
    (hall : ∀ x ∈ before ++ a :: after, P x) (h : P a → P a') :
    ∀ x ∈ before ++ a' :: after, P x := by
  rw [List.forall_mem_append, List.forall_mem_cons] at hall ⊢
  obtain ⟨hbefore, ha, hafter⟩ := hall
  exact ⟨hbefore, h ha, hafter⟩

/-- Where each element of a list has a match, the list has one. -/
theorem exists_forall₂ {α β γ : Type} {R : α → β → Prop} {S : α → γ → Prop} {T : β → γ → Prop}
    {as : List α} {bs : List β} (h : List.Forall₂ R as bs)
    (hmatch : ∀ a b, R a b → ∃ c, S a c ∧ T b c) :
    ∃ cs, List.Forall₂ S as cs ∧ List.Forall₂ T bs cs := by
  induction h with
  | nil => exact ⟨[], .nil, .nil⟩
  | cons hab _ ih =>
    obtain ⟨c, hS, hT⟩ := hmatch _ _ hab
    obtain ⟨cs, hSs, hTs⟩ := ih
    exact ⟨c :: cs, .cons hS hSs, .cons hT hTs⟩

/-- There is nothing in it that could be reordered. -/
def IsBare : Json → Prop
  | .list items => items = []
  | .object members => members = []
  | _ => True

namespace Reordered

variable {j j' : Json}

theorem forall₂_self (js : List Json) : List.Forall₂ Reordered js js :=
  List.forall₂_same.2 fun j _ => refl j

theorem forall₂_trans {js₁ js₂ js₃ : List Json} (h : List.Forall₂ Reordered js₁ js₂)
    (h' : List.Forall₂ Reordered js₂ js₃) : List.Forall₂ Reordered js₁ js₃ := by
  induction h generalizing js₃ with
  | nil => exact h'
  | cons hj _ ih =>
    cases h' with
    | cons hj' hrest => exact .cons (hj.trans hj') (ih hrest)

theorem forall₂_replace (h : Reordered j j') (before after : List Json) :
    List.Forall₂ Reordered (before ++ j :: after) (before ++ j' :: after) :=
  List.rel_append (forall₂_self before) (.cons h (forall₂_self after))

theorem eq_of_isBare (h : Reordered j j') (hj : j.IsBare) : j' = j := by
  induction h with
  | refl => rfl
  | trans _ _ ih ih' =>
    obtain rfl := ih hj
    exact ih' hj
  | members hperm =>
    obtain rfl : _ = [] := hj
    rw [hperm.nil_eq]
  | member => exact absurd hj (List.append_ne_nil_of_right_ne_nil _ (List.cons_ne_nil _ _))
  | item => exact absurd hj (List.append_ne_nil_of_right_ne_nil _ (List.cons_ne_nil _ _))

theorem exists_items {items : List Json} (h : Reordered (.list items) j') :
    ∃ items', j' = .list items' ∧ List.Forall₂ Reordered items items' := by
  generalize hj : Json.list items = j at h
  induction h generalizing items with
  | refl =>
    obtain rfl := hj
    exact ⟨items, rfl, forall₂_self items⟩
  | trans _ _ ih ih' =>
    obtain ⟨items', rfl, hitems⟩ := ih hj
    obtain ⟨items'', rfl, hitems'⟩ := ih' rfl
    exact ⟨items'', rfl, forall₂_trans hitems hitems'⟩
  | members => cases hj
  | member => cases hj
  | @item before after _ j' h =>
    cases hj
    exact ⟨_, rfl, h.forall₂_replace before after⟩

theorem legible (h : Reordered j j') (hj : j.Legible) : j'.Legible := by
  induction h with
  | refl => exact hj
  | trans _ _ ih ih' => exact ih' (ih hj)
  | members hperm =>
    cases hj with
    | object hnames hvalues =>
      exact .object (fun m hm => hnames m (hperm.mem_iff.2 hm))
        fun m hm => hvalues m (hperm.mem_iff.2 hm)
  | member _ ih =>
    cases hj with
    | object hnames hvalues =>
      exact .object (forall_mem_replace hnames id) (forall_mem_replace hvalues ih)
  | item _ ih =>
    cases hj with
    | list hitems => exact .list (forall_mem_replace hitems ih)

theorem sound (h : Reordered j j') (hj : j.sound = true) : j'.sound = true := by
  induction h with
  | refl => exact hj
  | trans _ _ ih ih' => exact ih' (ih hj)
  | members hperm =>
    exact membersSound_iff.2 fun m hm => membersSound_iff.1 hj m (hperm.mem_iff.2 hm)
  | member _ ih =>
    exact membersSound_iff.2 (forall_mem_replace (membersSound_iff.1 hj) (And.imp_right ih))
  | item _ ih => exact listSound_iff.2 (forall_mem_replace (listSound_iff.1 hj) ih)

theorem depth_le (h : Reordered j j') : j'.depth ≤ j.depth := by
  induction h with
  | refl => exact Nat.le_refl _
  | trans _ _ ih ih' => exact ih'.trans ih
  | members hperm =>
    refine Nat.succ_le_succ (membersDepth_le_iff.2 fun m hm => ?_)
    exact membersDepth_le_iff.1 (Nat.le_refl _) m (hperm.mem_iff.2 hm)
  | member _ ih =>
    refine Nat.succ_le_succ (membersDepth_le_iff.2 ?_)
    exact forall_mem_replace (membersDepth_le_iff.1 (Nat.le_refl _)) ih.trans
  | item _ ih =>
    refine Nat.succ_le_succ (listDepth_le_iff.2 ?_)
    exact forall_mem_replace (listDepth_le_iff.1 (Nat.le_refl _)) ih.trans

theorem forall₂_valuesOf (h : Reordered j j') (name : String) (raw : List Char)
    (before after : List (List Char × Json)) :
    List.Forall₂ Reordered (valuesOf name (before ++ (raw, j) :: after))
      (valuesOf name (before ++ (raw, j') :: after)) := by
  rw [valuesOf_append, valuesOf_append]
  by_cases hname : text? raw = some name
  · rw [valuesOf_cons_of_eq j hname, valuesOf_cons_of_eq j' hname]
    exact h.forall₂_replace _ _
  · rw [valuesOf_cons_of_ne j hname, valuesOf_cons_of_ne j' hname]
    exact forall₂_self _

/-- A record has its fields in any order. -/
theorem fields? {names : List String} {js : List Json} (h : Reordered j j')
    (hj : j.fields? names = some js) :
    ∃ js', j'.fields? names = some js' ∧ List.Forall₂ Reordered js js' := by
  induction h generalizing js with
  | refl => exact ⟨js, hj, forall₂_self js⟩
  | trans _ _ ih ih' =>
    obtain ⟨js', hj', hforall⟩ := ih hj
    obtain ⟨js'', hj'', hforall'⟩ := ih' hj'
    exact ⟨js'', hj'', forall₂_trans hforall hforall'⟩
  | members hperm =>
    obtain ⟨htexts, hvalues⟩ := fields?_object_iff.1 hj
    refine ⟨js, fields?_object_iff.2 ⟨fun m hm => htexts m (hperm.mem_iff.2 hm), ?_⟩,
      forall₂_self js⟩
    exact hvalues.imp fun name j hname =>
      List.perm_singleton.1 (hname ▸ (valuesOf_perm hperm).symm)
  | @member before after raw j j' hj' ih =>
    obtain ⟨htexts, hvalues⟩ := fields?_object_iff.1 hj
    obtain ⟨js', hvalues', hforall⟩ := exists_forall₂ hvalues fun name y hname => by
      have hname' := hj'.forall₂_valuesOf name raw before after
      rw [hname, List.forall₂_cons_left_iff] at hname'
      obtain ⟨y', _, hy', hnil, hname'⟩ := hname'
      cases hnil
      exact ⟨y', hname', hy'⟩
    exact ⟨js', fields?_object_iff.2 ⟨forall_mem_replace htexts id, hvalues'⟩, hforall⟩
  | @item before after j j' hj' ih =>
    obtain ⟨hlength, rfl⟩ := fields?_list_iff.1 hj
    refine ⟨_, fields?_list_iff.2 ⟨?_, rfl⟩, hj'.forall₂_replace before after⟩
    rw [← hlength, List.length_append, List.length_append, List.length_cons, List.length_cons]

end Reordered

end RobotConsole.Json
