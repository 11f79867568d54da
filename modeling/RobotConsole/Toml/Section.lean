import RobotConsole.Toml.Basic

/-!
Tables in the making.  A table that a document states is closed to dotted keys from elsewhere, one
that only a longer header implies may still be stated, and one that dotted keys made takes more of
those.
-/

namespace RobotConsole.Toml

inductive Origin where
  | stated
  | implied
  | dotted
  deriving DecidableEq, Repr

/-- What stands under a key: a value, a table, or a list of tables. -/
inductive Node where
  | value (v : Toml)
  | table (origin : Origin) (entries : List (String × Node))
  | tables (items : List (List (String × Node)))

abbrev Entries := List (String × Node)

mutual

def Node.toToml : Node → Toml
  | .value v => v
  | .table _ entries => .table (valuesOf entries)
  | .tables items => .list (tablesOf items)

def valuesOf : List (String × Node) → List (String × Toml)
  | [] => []
  | (key, node) :: rest => (key, node.toToml) :: valuesOf rest

def tablesOf : List (List (String × Node)) → List Toml
  | [] => []
  | entries :: rest => .table (valuesOf entries) :: tablesOf rest

end

namespace Entries

def replace (es : Entries) (key : String) (node : Node) : Entries :=
  es.map fun (k, n) => if k = key then (k, node) else (k, n)

def erase (es : Entries) (key : String) : Entries := es.filter fun (k, _) => k ≠ key

/-- Changes the table at a path, given whether that is the path of a dotted key.  The tables on the
way are made where they are missing; of a list of tables the last one counts. -/
def at? {α : Type} (dotted : Bool) (change : Origin → Entries → Option (α × Entries)) :
    List String → Origin → Entries → Option (α × Entries)
  | [], origin, es => change origin es
  | key :: path, _, es =>
    match es.lookup key with
    | none =>
      let origin := if dotted then .dotted else .implied
      (at? dotted change path origin []).map fun (a, sub) => (a, es ++ [(key, .table origin sub)])
    | some (.value _) => none
    | some (.table origin sub) =>
      if dotted ∧ origin = .stated then none
      else
        (at? dotted change path origin sub).map fun (a, sub) =>
          (a, es.replace key (.table origin sub))
    | some (.tables items) =>
      match items.getLast? with
      | none => none
      | some last =>
        (at? dotted change path .stated last).map fun (a, last) =>
          (a, es.replace key (.tables (items.dropLast ++ [last])))

/-- Gives a dotted key its value.  A table that was not made by dotted keys takes none from
elsewhere, and no key is given twice. -/
def assign (es : Entries) (path : List String) (key : String) (v : Toml) : Option Entries :=
  let put (origin : Origin) (es : Entries) : Option (Unit × Entries) :=
    if (path ≠ [] ∧ origin ≠ .dotted) ∨ (es.lookup key).isSome then none
    else some ((), es ++ [(key, .value v)])
  (at? true put path .stated es).map fun (_, es) => es

/-- Takes out what a table that is to be stated holds already. -/
def takeImplied (key : String) (_ : Origin) (es : Entries) : Option (Entries × Entries) :=
  match es.lookup key with
  | none => some ([], es)
  | some (.table .implied sub) => some (sub, es.erase key)
  | _ => none

def beginTables (key : String) (_ : Origin) (es : Entries) : Option (Entries × Entries) :=
  match es.lookup key with
  | none => some ([], es ++ [(key, .tables [])])
  | some (.tables _) => some ([], es)
  | _ => none

def addTable (key : String) (listed : Bool) (sub : Entries) (_ : Origin) (es : Entries) :
    Option (Unit × Entries) :=
  match es.lookup key with
  | some (.tables items) =>
    if listed then some ((), es.replace key (.tables (items ++ [sub]))) else none
  | _ => some ((), es ++ [(key, .table .stated sub)])

end Entries
end RobotConsole.Toml
