import RobotConsole.Proofs.Toml.Place

/-!
In a document that was read each table has each key once, however deep it lies: values are read with
distinct keys, and what is put together of them keeps this.
-/

namespace RobotConsole.Toml

theorem valuesOf_eq_map (es : Entries) : valuesOf es = es.map fun e => (e.1, e.2.toToml) := by
  induction es with
  | nil => rfl
  | cons e es ih => rw [valuesOf, ih, List.map_cons]

theorem tablesOf_eq_map (items : List Entries) :
    tablesOf items = items.map fun es => .table (valuesOf es) := by
  induction items with
  | nil => rfl
  | cons es items ih => rw [tablesOf, ih, List.map_cons]

theorem distinct_valuesOf {es : Entries} (hkeys : (es.map Prod.fst).Nodup)
    (h : ∀ e ∈ es, e.2.toToml.Distinct) : (Toml.table (valuesOf es)).Distinct := by
  rw [valuesOf_eq_map]
  refine .table ?_ fun e he => ?_
  · rw [List.map_map]
    exact hkeys
  · obtain ⟨e, hmem, rfl⟩ := List.mem_map.1 he
    exact h e hmem

theorem Node.Distinct.toToml {n : Node} (h : n.Distinct) : n.toToml.Distinct := by
  induction h with
  | value h => exact h
  | table hkeys _ ih => exact distinct_valuesOf hkeys ih
  | tables hkeys _ ih =>
    rw [Node.toToml, tablesOf_eq_map]
    refine .list fun v hv => ?_
    obtain ⟨es, hmem, rfl⟩ := List.mem_map.1 hv
    exact distinct_valuesOf (hkeys es hmem) (ih es hmem)

theorem Entries.Distinct.table {es : Entries} (h : Entries.Distinct es) :
    (Toml.table (valuesOf es)).Distinct :=
  distinct_valuesOf h.keys fun e he => (h.nodes e he).toToml

section Number

variable {cs rest : List Char} {v : Toml}

theorem ofInteger?_eq_some {n : Int} (h : ofInteger? n = some v) : v = .integer n := by
  rw [ofInteger?] at h
  split at h
  · exact (Option.some.inj h).symm
  · cases h

theorem readInteger_integer (h : readInteger cs = some (v, rest)) : ∃ n, v = .integer n := by
  have based : ∀ base isDigit cs, readBased base isDigit cs = some (v, rest) →
      ∃ n, v = .integer n := by
    intro base isDigit cs h
    simp only [readBased, Option.bind_eq_bind, Option.bind_eq_some_iff, Option.pure_def] at h
    obtain ⟨_, -, w, hw, heq⟩ := h
    cases heq
    exact ⟨_, ofInteger?_eq_some hw⟩
  unfold readInteger at h
  split at h
  · exact based _ _ _ h
  · exact based _ _ _ h
  · exact based _ _ _ h
  · simp only [readDecimal, Option.bind_eq_bind, Option.bind_eq_some_iff, Option.pure_def] at h
    obtain ⟨_, -, w, hw, heq⟩ := h
    cases heq
    exact ⟨_, ofInteger?_eq_some hw⟩

theorem readDecimalFloat_float (h : readDecimalFloat cs = some (v, rest)) : ∃ x, v = .float x := by
  simp only [readDecimalFloat, Option.bind_eq_bind, Option.bind_eq_some_iff] at h
  obtain ⟨_, -, _, -, _, -, h⟩ := h
  split at h
  · cases h
  · cases h
    exact ⟨_, rfl⟩

theorem readSpecial_float (h : readSpecial cs = some (v, rest)) : ∃ x, v = .float x := by
  unfold readSpecial at h
  dsimp only at h
  split at h <;> cases h <;> exact ⟨_, rfl⟩

theorem distinct_readNumber (h : readNumber cs = some (v, rest)) : v.Distinct := by
  unfold readNumber at h
  split at h
  · cases h
    exact .single trivial
  · split at h
    · next hfloat =>
      cases h
      obtain ⟨x, rfl⟩ := readDecimalFloat_float hfloat
      exact .single trivial
    · split at h
      · next hspecial =>
        cases h
        obtain ⟨x, rfl⟩ := readSpecial_float hspecial
        exact .single trivial
      · obtain ⟨n, rfl⟩ := readInteger_integer h
        exact .single trivial

end Number

/-- Values are read with distinct keys, and so are entries beside those that stand already. -/
structure ReadsDistinct (fuel : Nat) : Prop where
  value : ∀ {depth cs v rest}, readValue depth fuel cs = some (v, rest) → v.Distinct
  items : ∀ {depth cs items rest}, readItems depth fuel cs = some (items, rest) →
    ∀ v ∈ items, v.Distinct
  pairs : ∀ {depth es cs es' rest}, Entries.Distinct es →
    readPairs depth fuel es cs = some (es', rest) → Entries.Distinct es'

section Step

variable {fuel depth : Nat} {cs rest : List Char}

theorem distinct_readValue {v : Toml} (ih : ReadsDistinct fuel)
    (h : readValue depth (fuel + 1) cs = some (v, rest)) : v.Distinct := by
  unfold readValue at h
  split at h
  · obtain ⟨_, -, heq⟩ := Option.map_eq_some_iff.1 h
    cases heq
    exact .single trivial
  · obtain ⟨_, -, heq⟩ := Option.map_eq_some_iff.1 h
    cases heq
    exact .single trivial
  · cases h
    exact .single trivial
  · cases h
    exact .single trivial
  · split at h
    · cases h
    · obtain ⟨_, hread, heq⟩ := Option.map_eq_some_iff.1 h
      cases heq
      exact .list (ih.items hread)
  · split at h
    · cases h
    · split at h
      · cases h
        exact .table List.nodup_nil nofun
      · obtain ⟨_, hread, heq⟩ := Option.map_eq_some_iff.1 h
        cases heq
        exact (ih.pairs .nil hread).table
  · exact distinct_readNumber h

theorem distinct_readItems {items : List Toml} (ih : ReadsDistinct fuel)
    (h : readItems depth (fuel + 1) cs = some (items, rest)) : ∀ v ∈ items, v.Distinct := by
  unfold readItems at h
  split at h
  · cases h
    exact nofun
  · split at h
    · cases h
    · next item rest' hitem =>
      split at h
      · obtain ⟨_, hread, heq⟩ := Option.map_eq_some_iff.1 h
        cases heq
        exact List.forall_mem_cons.2 ⟨ih.value hitem, ih.items hread⟩
      · cases h
        exact List.forall_mem_singleton.2 (ih.value hitem)
      · cases h

theorem distinct_readPairs {es es' : Entries} (ih : ReadsDistinct fuel) (hes : Entries.Distinct es)
    (h : readPairs depth (fuel + 1) es cs = some (es', rest)) : Entries.Distinct es' := by
  unfold readPairs at h
  split at h
  · cases h
  · split at h
    · cases h
    · next v rest' hread =>
      split at h
      · cases h
      · next es'' hassign =>
        have hes'' := Entries.distinct_assign hes (ih.value hread) hassign
        split at h
        · exact ih.pairs hes'' h
        · cases h
          exact hes''
        · cases h

end Step

theorem readsDistinct (fuel : Nat) : ReadsDistinct fuel := by
  induction fuel with
  | zero => constructor <;> intros <;> simp_all only [readValue, readItems, readPairs, reduceCtorEq]
  | succ fuel ih =>
    exact ⟨distinct_readValue ih, distinct_readItems ih, distinct_readPairs ih⟩

theorem distinct_readStatement {fuel : Nat} {cs rest : List Char} {s : Statement}
    (h : readStatement fuel cs = some (s, rest)) : s.Distinct := by
  unfold readStatement at h
  split at h
  · split at h <;> cases h
    trivial
  · split at h <;> cases h
    trivial
  · split at h
    · cases h
    · obtain ⟨_, hread, heq⟩ := Option.map_eq_some_iff.1 h
      cases heq
      exact (readsDistinct fuel).value hread

theorem distinct_readStatements {fuel : Nat} {cs : List Char} {statements : List Statement}
    (h : readStatements fuel cs = some statements) : ∀ s ∈ statements, s.Distinct := by
  induction fuel generalizing cs statements with
  | zero => cases h
  | succ fuel ih =>
    unfold readStatements at h
    split at h
    · cases h
      exact nofun
    · split at h
      · cases h
      · next s rest hs =>
        split at h
        · cases h
        · obtain ⟨_, hrest, rfl⟩ := Option.map_eq_some_iff.1 h
          exact List.forall_mem_cons.2 ⟨distinct_readStatement hs, ih hrest⟩

/-- In a document that was read each table has each key once. -/
theorem distinct_of_ofText? {cs : List Char} {entries : List (String × Toml)}
    (h : ofText? cs = some entries) : (Toml.table entries).Distinct := by
  unfold ofText? at h
  dsimp only at h
  split at h
  · cases h
  · next statements hread =>
    obtain ⟨root, hbuild, rfl⟩ := Option.map_eq_some_iff.1 h
    exact (distinct_build .nil (distinct_readStatements hread) hbuild).table

end RobotConsole.Toml
