import RobotConsole.Toml.Reader

/-!
A TOML document.  Its statements are put together from the first to the last: each header opens a
table, which takes the assignments up to the next header.
-/

namespace RobotConsole.Toml

structure OpenTable where
  path : List String
  key : String
  listed : Bool
  entries : Entries

/-- Opens the table of a header, with what it holds already. -/
def openTable (root : Entries) (path : List String) (key : String) (listed : Bool) :
    Option (OpenTable × Entries) :=
  let take := if listed then Entries.beginTables key else Entries.takeImplied key
  (Entries.at? false take path .stated root).map fun (es, root) => (⟨path, key, listed, es⟩, root)

def closeTable (root : Entries) (t : OpenTable) : Option Entries :=
  (Entries.at? false (Entries.addTable t.key t.listed t.entries) t.path .stated root).map Prod.snd

def buildTables (root : Entries) (t : OpenTable) : List Statement → Option Entries
  | [] => closeTable root t
  | .assignment path key v :: rest =>
    match t.entries.assign path key v with
    | none => none
    | some es => buildTables root { t with entries := es } rest
  | .header path key listed :: rest =>
    match closeTable root t with
    | none => none
    | some root =>
      match openTable root path key listed with
      | none => none
      | some (t, root) => buildTables root t rest

/-- The statements of a document, where `root` holds what was assigned before its first header. -/
def build (root : Entries) : List Statement → Option Entries
  | [] => some root
  | .assignment path key v :: rest =>
    match root.assign path key v with
    | none => none
    | some root => build root rest
  | .header path key listed :: rest =>
    match openTable root path key listed with
    | none => none
    | some (t, root) => buildTables root t rest

/-- The entries of the document that a text consists of.  A byte order mark may stand before it. -/
def ofText? (cs : List Char) : Option (List (String × Toml)) :=
  let cs := match cs with
    | '\uFEFF' :: rest => rest
    | cs => cs
  match readStatements (cs.length + 1) cs with
  | none => none
  | some statements => (build [] statements).map valuesOf

end RobotConsole.Toml
