import Mathlib.Data.List.Basic
import Mathlib.Data.List.Nodup
import RobotConsole.Toml.Document

/-!
Places in a document that is being put together.  A path leads down to a table, and what the
document becomes is told by what that table becomes.  A second walk along the path of a header finds
the table as the first one left it, so a header that found its key free puts its table under a free
key.  Hence every table has each of its keys once, at every moment.
-/

namespace RobotConsole.Toml

section Lookup

variable {α : Type} {es : List (String × α)} {key : String} {a : α}

theorem mem_of_lookup (h : es.lookup key = some a) : (key, a) ∈ es := by
  obtain ⟨front, back, rfl, -⟩ := List.lookup_eq_some_iff.1 h
  exact List.mem_append_right _ List.mem_cons_self

theorem lookup_eq_none_iff_keys : es.lookup key = none ↔ key ∉ es.map Prod.fst := by
  rw [List.lookup_eq_none_iff, List.mem_map, not_exists]
  refine forall_congr' fun e => ?_
  rw [not_and, bne_iff_ne]
  exact imp_congr_right fun _ => ne_comm

end Lookup

/-- No other value lies within it. -/
def Single : Toml → Prop
  | .list _ => False
  | .table _ => False
  | _ => True

def IsTable : Toml → Prop
  | .table _ => True
  | _ => False

theorem IsTable.exists_eq {v : Toml} (h : v.IsTable) : ∃ entries, v = .table entries := by
  cases v with
  | table entries => exact ⟨entries, rfl⟩
  | _ => exact h.elim

instance : DecidablePred IsTable
  | .table _ => .isTrue trivial
  | .text _ | .integer _ | .float _ | .boolean _ | .time _ | .list _ => .isFalse id

inductive Distinct : Toml → Prop
  | single {v : Toml} (h : v.Single) : Distinct v
  | list {items : List Toml} (h : ∀ v ∈ items, Distinct v) : Distinct (.list items)
  | table {entries : List (String × Toml)} (hkeys : (entries.map Prod.fst).Nodup)
    (h : ∀ e ∈ entries, Distinct e.2) : Distinct (.table entries)

theorem Distinct.keys {entries : List (String × Toml)} (h : (Toml.table entries).Distinct) :
    (entries.map Prod.fst).Nodup := by
  cases h with
  | single h => exact h.elim
  | table hkeys _ => exact hkeys

theorem Distinct.nodes {entries : List (String × Toml)} (h : (Toml.table entries).Distinct) :
    ∀ e ∈ entries, e.2.Distinct := by
  cases h with
  | single h => exact h.elim
  | table _ h => exact h

inductive Node.Distinct : Node → Prop
  | value {v : Toml} (h : v.Distinct) : Distinct (.value v)
  | table {origin : Origin} {entries : Entries} (hkeys : (entries.map Prod.fst).Nodup)
    (h : ∀ e ∈ entries, Distinct e.2) : Distinct (.table origin entries)
  | tables {items : List Entries} (hkeys : ∀ es ∈ items, (es.map Prod.fst).Nodup)
    (h : ∀ es ∈ items, ∀ e ∈ es, Distinct e.2) : Distinct (.tables items)

namespace Entries

structure Distinct (es : Entries) : Prop where
  keys : (es.map Prod.fst).Nodup
  nodes : ∀ e ∈ es, e.2.Distinct

theorem Distinct.nil : Distinct [] := ⟨List.nodup_nil, fun _ he => absurd he List.not_mem_nil⟩

/-- A key that is missing may be added. -/
theorem Distinct.add {es : Entries} {key : String} {node : Node} (h : Distinct es)
    (hkey : es.lookup key = none) (hnode : node.Distinct) : Distinct (es ++ [(key, node)]) where
  keys := by
    rw [List.map_append, List.map_singleton, ← List.concat_eq_append, List.nodup_concat]
    exact ⟨lookup_eq_none_iff_keys.1 hkey, h.keys⟩
  nodes e he := by
    rcases List.mem_append.1 he with he | he
    · exact h.nodes e he
    · rw [List.mem_singleton.1 he]
      exact hnode

theorem map_fst_replace (es : Entries) (key : String) (node : Node) :
    (es.replace key node).map Prod.fst = es.map Prod.fst := by
  rw [replace, List.map_map]
  refine List.map_congr_left fun e _ => ?_
  change (if e.1 = key then (e.1, node) else (e.1, e.2)).1 = e.1
  rw [apply_ite Prod.fst, ite_self]

theorem Distinct.replace {es : Entries} {key : String} {node : Node} (h : Distinct es)
    (hnode : node.Distinct) : Distinct (es.replace key node) where
  keys := by
    rw [map_fst_replace]
    exact h.keys
  nodes e he := by
    obtain ⟨e, hmem, rfl⟩ := List.mem_map.1 he
    dsimp only
    split
    · exact hnode
    · exact h.nodes e hmem

theorem lookup_add {es : Entries} {key : String} (h : es.lookup key = none) (node : Node) :
    (es ++ [(key, node)]).lookup key = some node := by
  rw [List.lookup_append, h, List.lookup_cons, beq_self_eq_true]
  rfl

theorem lookup_replace {es : Entries} {key : String} {old : Node} (h : es.lookup key = some old)
    (node : Node) : (es.replace key node).lookup key = some node := by
  obtain ⟨front, back, rfl, hfront⟩ := List.lookup_eq_some_iff.1 h
  have hnone : (replace front key node).lookup key = none := by
    rw [lookup_eq_none_iff_keys, map_fst_replace, ← lookup_eq_none_iff_keys]
    exact List.lookup_eq_none_iff.2 hfront
  have hsplit : Entries.replace (front ++ (key, old) :: back) key node =
      replace front key node ++ (key, node) :: replace back key node := by
    simp only [Entries.replace, List.map_append, List.map_cons, if_true]
  rw [hsplit, List.lookup_append, hnone, List.lookup_cons, beq_self_eq_true]
  rfl

theorem lookup_erase (es : Entries) (key : String) : (es.erase key).lookup key = none := by
  rw [lookup_eq_none_iff_keys, erase]
  simp

theorem Distinct.erase {es : Entries} (h : Distinct es) (key : String) :
    Distinct (es.erase key) where
  keys := h.keys.sublist (List.filter_sublist.map _)
  nodes e he := h.nodes e (List.mem_of_mem_filter he)

/-- How a path leads from the entries of a table to those of another one, its origin with them, and
what the first become when the second are changed. -/
inductive Place (dotted : Bool) :
    List String → Origin → Entries → Origin → Entries → (Entries → Entries) → Prop
  | here (origin : Origin) (es : Entries) : Place dotted [] origin es origin es id
  | made {key : String} {path : List String} {es sub : Entries} {put : Entries → Entries}
    {origin origin' : Origin} (h : es.lookup key = none)
    (hplace : Place dotted path (if dotted then .dotted else .implied) [] origin' sub put) :
    Place dotted (key :: path) origin es origin' sub fun sub =>
      es ++ [(key, .table (if dotted then .dotted else .implied) (put sub))]
  | table {key : String} {path : List String} {es entries sub : Entries} {put : Entries → Entries}
    {origin inner origin' : Origin} (h : es.lookup key = some (.table inner entries))
    (hplace : Place dotted path inner entries origin' sub put) :
    Place dotted (key :: path) origin es origin' sub fun sub =>
      es.replace key (.table inner (put sub))
  | tables {key : String} {path : List String} {es last sub : Entries} {put : Entries → Entries}
    {items : List Entries} {origin origin' : Origin} (h : es.lookup key = some (.tables items))
    (hlast : items.getLast? = some last)
    (hplace : Place dotted path .stated last origin' sub put) :
    Place dotted (key :: path) origin es origin' sub fun sub =>
      es.replace key (.tables (items.dropLast ++ [put sub]))

/-- A change along a path is a change at its place. -/
theorem exists_place {α : Type} {dotted : Bool} {change : Origin → Entries → Option (α × Entries)}
    {path : List String} {origin : Origin} {es es' : Entries} {a : α}
    (h : at? dotted change path origin es = some (a, es')) :
    ∃ origin' sub put sub', Place dotted path origin es origin' sub put ∧
      change origin' sub = some (a, sub') ∧ put sub' = es' := by
  induction path generalizing origin es es' with
  | nil => exact ⟨origin, es, id, es', .here origin es, h, rfl⟩
  | cons key path ih =>
    rw [at?] at h
    split at h
    · next hkey =>
      obtain ⟨⟨b, sub'⟩, hat, heq⟩ := Option.map_eq_some_iff.1 h
      obtain ⟨rfl, rfl⟩ := Prod.mk.inj heq
      obtain ⟨origin', sub, put, r, hplace, hchange, rfl⟩ := ih hat
      exact ⟨origin', sub, _, r, .made hkey hplace, hchange, rfl⟩
    · cases h
    · next inner entries hkey =>
      split at h
      · cases h
      · obtain ⟨⟨b, sub'⟩, hat, heq⟩ := Option.map_eq_some_iff.1 h
        obtain ⟨rfl, rfl⟩ := Prod.mk.inj heq
        obtain ⟨origin', sub, put, r, hplace, hchange, rfl⟩ := ih hat
        exact ⟨origin', sub, _, r, .table hkey hplace, hchange, rfl⟩
    · next items hkey =>
      split at h
      · cases h
      · next last hlast =>
        obtain ⟨⟨b, sub'⟩, hat, heq⟩ := Option.map_eq_some_iff.1 h
        obtain ⟨rfl, rfl⟩ := Prod.mk.inj heq
        obtain ⟨origin', sub, put, r, hplace, hchange, rfl⟩ := ih hat
        exact ⟨origin', sub, _, r, .tables hkey hlast hplace, hchange, rfl⟩

/-- What stands at a place has distinct keys, and so does the document if what is put there does. -/
theorem Place.distinct {dotted : Bool} {path : List String} {origin origin' : Origin}
    {es sub : Entries} {put : Entries → Entries} (h : Place dotted path origin es origin' sub put)
    (hes : Distinct es) : Distinct sub ∧ ∀ sub', Distinct sub' → Distinct (put sub') := by
  induction h with
  | here => exact ⟨hes, fun _ => id⟩
  | made hkey _ ih =>
    obtain ⟨hsub, hput⟩ := ih .nil
    refine ⟨hsub, fun sub' hsub' => hes.add hkey ?_⟩
    exact .table (hput sub' hsub').keys (hput sub' hsub').nodes
  | table hkey _ ih =>
    cases hes.nodes _ (mem_of_lookup hkey) with
    | table hkeys hnodes =>
      obtain ⟨hsub, hput⟩ := ih ⟨hkeys, hnodes⟩
      refine ⟨hsub, fun sub' hsub' => hes.replace ?_⟩
      exact .table (hput sub' hsub').keys (hput sub' hsub').nodes
  | tables hkey hlast _ ih =>
    cases hes.nodes _ (mem_of_lookup hkey) with
    | tables hkeys hnodes =>
      have hmem := List.mem_of_getLast? hlast
      obtain ⟨hsub, hput⟩ := ih ⟨hkeys _ hmem, hnodes _ hmem⟩
      refine ⟨hsub, fun sub' hsub' => hes.replace (.tables (fun s hs => ?_) fun s hs => ?_)⟩
      · rcases List.mem_append.1 hs with hs | hs
        · exact hkeys s (List.dropLast_subset _ hs)
        · rw [List.mem_singleton.1 hs]
          exact (hput sub' hsub').keys
      · rcases List.mem_append.1 hs with hs | hs
        · exact hnodes s (List.dropLast_subset _ hs)
        · rw [List.mem_singleton.1 hs]
          exact (hput sub' hsub').nodes

/-- A second walk along the path of a header comes to what the first has put there. -/
theorem Place.again {path : List String} {origin origin' second second' : Origin}
    {es sub sub' new : Entries} {put put' : Entries → Entries}
    (h : Place false path origin es origin' sub put)
    (h' : Place false path second (put new) second' sub' put') : sub' = new := by
  induction h generalizing second second' sub' put' with
  | here =>
    cases h'
    rfl
  | made hkey _ ih =>
    have hfound := lookup_add hkey
    cases h' with
    | made h' => rw [hfound] at h'; cases h'
    | table h' hplace =>
      rw [hfound] at h'
      cases h'
      exact ih hplace
    | tables h' => rw [hfound] at h'; cases h'
  | table hkey _ ih =>
    have hfound := lookup_replace hkey
    cases h' with
    | made h' => rw [hfound] at h'; cases h'
    | table h' hplace =>
      rw [hfound] at h'
      cases h'
      exact ih hplace
    | tables h' => rw [hfound] at h'; cases h'
  | tables hkey hlast _ ih =>
    have hfound := lookup_replace hkey
    cases h' with
    | made h' => rw [hfound] at h'; cases h'
    | table h' => rw [hfound] at h'; cases h'
    | tables h' hlast' hplace =>
      rw [hfound] at h'
      cases h'
      rw [List.getLast?_concat] at hlast'
      cases hlast'
      exact ih hplace

theorem distinct_assign {es es' : Entries} {path : List String} {key : String} {v : Toml}
    (hes : Distinct es) (hv : v.Distinct) (h : es.assign path key v = some es') :
    Distinct es' := by
  obtain ⟨⟨_, _⟩, hat, rfl⟩ := Option.map_eq_some_iff.1 h
  obtain ⟨origin, sub, put, sub', hplace, hchange, rfl⟩ := exists_place hat
  obtain ⟨hsub, hput⟩ := hplace.distinct hes
  refine hput sub' ?_
  split at hchange
  · cases hchange
  · next hfree =>
    obtain ⟨-, rfl⟩ := Prod.mk.inj (Option.some.inj hchange)
    exact hsub.add (Option.not_isSome_iff_eq_none.1 (not_or.1 hfree).2) (.value hv)

end Entries

/-- Where the table of a header will stand its key is free, or has a list that takes it. -/
def OpenTable.Ready (t : OpenTable) (root : Entries) : Prop :=
  ∀ origin sub put, Entries.Place false t.path .stated root origin sub put →
    if t.listed then ∃ items, sub.lookup t.key = some (.tables items)
    else sub.lookup t.key = none

/-- A table that takes assignments, beside the document that it will be put into. -/
structure OpenTable.Sound (t : OpenTable) (root : Entries) : Prop where
  document : Entries.Distinct root
  entries : Entries.Distinct t.entries
  ready : t.Ready root

theorem takeImplied_spec {key : String} {origin : Origin} {es taken es' : Entries}
    (hes : Entries.Distinct es) (h : Entries.takeImplied key origin es = some (taken, es')) :
    Entries.Distinct taken ∧ Entries.Distinct es' ∧ es'.lookup key = none := by
  unfold Entries.takeImplied at h
  split at h
  · next hkey =>
    obtain ⟨rfl, rfl⟩ := Prod.mk.inj (Option.some.inj h)
    exact ⟨.nil, hes, hkey⟩
  · next hkey =>
    obtain ⟨rfl, rfl⟩ := Prod.mk.inj (Option.some.inj h)
    cases hes.nodes _ (mem_of_lookup hkey) with
    | table hkeys hnodes => exact ⟨⟨hkeys, hnodes⟩, hes.erase key, es.lookup_erase key⟩
  · cases h

theorem beginTables_spec {key : String} {origin : Origin} {es taken es' : Entries}
    (hes : Entries.Distinct es) (h : Entries.beginTables key origin es = some (taken, es')) :
    Entries.Distinct taken ∧ Entries.Distinct es' ∧
      ∃ items, es'.lookup key = some (.tables items) := by
  unfold Entries.beginTables at h
  split at h
  · next hkey =>
    obtain ⟨rfl, rfl⟩ := Prod.mk.inj (Option.some.inj h)
    refine ⟨.nil, hes.add hkey (.tables ?_ ?_), [], Entries.lookup_add hkey _⟩ <;> simp
  · next items hkey =>
    obtain ⟨rfl, rfl⟩ := Prod.mk.inj (Option.some.inj h)
    exact ⟨.nil, hes, items, hkey⟩
  · cases h

theorem sound_openTable {root root' : Entries} {path : List String} {key : String} {listed : Bool}
    {t : OpenTable} (hroot : Entries.Distinct root)
    (h : openTable root path key listed = some (t, root')) : t.Sound root' := by
  obtain ⟨⟨taken, root'⟩, hat, heq⟩ := Option.map_eq_some_iff.1 h
  obtain ⟨rfl, rfl⟩ := Prod.mk.inj heq
  obtain ⟨origin, sub, put, sub', hplace, hchange, rfl⟩ := Entries.exists_place hat
  obtain ⟨hsub, hput⟩ := hplace.distinct hroot
  cases listed with
  | true =>
    rw [if_pos rfl] at hchange
    obtain ⟨htaken, hsub', hready⟩ := beginTables_spec hsub hchange
    refine ⟨hput sub' hsub', htaken, fun origin' s put' hagain => ?_⟩
    obtain rfl : s = sub' := hplace.again hagain
    exact hready
  | false =>
    rw [if_neg Bool.false_ne_true] at hchange
    obtain ⟨htaken, hsub', hready⟩ := takeImplied_spec hsub hchange
    refine ⟨hput sub' hsub', htaken, fun origin' s put' hagain => ?_⟩
    obtain rfl : s = sub' := hplace.again hagain
    exact hready

theorem distinct_closeTable {root root' : Entries} {t : OpenTable} (ht : t.Sound root)
    (h : closeTable root t = some root') : Entries.Distinct root' := by
  obtain ⟨⟨_, _⟩, hat, rfl⟩ := Option.map_eq_some_iff.1 h
  obtain ⟨origin, sub, put, sub', hplace, hchange, rfl⟩ := Entries.exists_place hat
  obtain ⟨hsub, hput⟩ := hplace.distinct ht.document
  have hready := ht.ready origin sub put hplace
  refine hput sub' ?_
  unfold Entries.addTable at hchange
  split at hchange
  · next items hkey =>
    split at hchange
    · obtain ⟨-, rfl⟩ := Prod.mk.inj (Option.some.inj hchange)
      cases hsub.nodes _ (mem_of_lookup hkey) with
      | tables hkeys hnodes =>
        refine hsub.replace (.tables (fun s hs => ?_) fun s hs => ?_)
        · rcases List.mem_append.1 hs with hs | hs
          · exact hkeys s hs
          · rw [List.mem_singleton.1 hs]
            exact ht.entries.keys
        · rcases List.mem_append.1 hs with hs | hs
          · exact hnodes s hs
          · rw [List.mem_singleton.1 hs]
            exact ht.entries.nodes
    · cases hchange
  · next hother =>
    obtain ⟨-, rfl⟩ := Prod.mk.inj (Option.some.inj hchange)
    split at hready
    · obtain ⟨items, hkey⟩ := hready
      exact absurd hkey (hother items)
    · exact hsub.add hready (.table ht.entries.keys ht.entries.nodes)

def Statement.Distinct : Statement → Prop
  | .header .. => True
  | .assignment _ _ v => v.Distinct

theorem distinct_buildTables {root root' : Entries} {t : OpenTable} {statements : List Statement}
    (ht : t.Sound root) (hs : ∀ s ∈ statements, s.Distinct)
    (h : buildTables root t statements = some root') : Entries.Distinct root' := by
  induction statements generalizing root t with
  | nil => exact distinct_closeTable ht h
  | cons s rest ih =>
    obtain ⟨hs, hrest⟩ := List.forall_mem_cons.1 hs
    cases s with
    | assignment path key v =>
      rw [buildTables] at h
      split at h
      · cases h
      · next es hassign =>
        exact ih (t := { t with entries := es })
          ⟨ht.document, Entries.distinct_assign ht.entries hs hassign, ht.ready⟩ hrest h
    | header path key listed =>
      rw [buildTables] at h
      split at h
      · cases h
      · next root hclose =>
        split at h
        · cases h
        · next t' root hopen =>
          exact ih (sound_openTable (distinct_closeTable ht hclose) hopen) hrest h

theorem distinct_build {root root' : Entries} {statements : List Statement}
    (hroot : Entries.Distinct root) (hs : ∀ s ∈ statements, s.Distinct)
    (h : build root statements = some root') : Entries.Distinct root' := by
  induction statements generalizing root with
  | nil => exact Option.some.inj h ▸ hroot
  | cons s rest ih =>
    obtain ⟨hs, hrest⟩ := List.forall_mem_cons.1 hs
    cases s with
    | assignment path key v =>
      rw [build] at h
      split at h
      · cases h
      · next es hassign => exact ih (Entries.distinct_assign hroot hs hassign) hrest h
    | header path key listed =>
      rw [build] at h
      split at h
      · cases h
      · next t root hopen => exact distinct_buildTables (sound_openTable hroot hopen) hrest h

end RobotConsole.Toml
