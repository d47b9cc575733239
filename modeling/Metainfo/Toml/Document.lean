import Metainfo.Entries

/-!
# TOML documents

A document is a sequence of statements: headers, which open a table or a further element
of an array of tables, and assignments to keys of what the last header opened.
Assembling the statements gives one table.  No key may be given twice; a table that a
header opened or that stands in braces is not extended by dotted keys, and one that
dotted keys made is not opened by a header.
-/

namespace Metainfo.Toml

/-- How a table came about: a header names it, a header names a table inside it, or a
dotted key does. -/
inductive TableForm where
  | explicit
  | implied
  | dotted
  deriving DecidableEq, Repr

/-- A value of a document.  Integers are signed words of 64 bits; of floating-point
numbers and dates it is only known that they are well formed. -/
inductive Node where
  | string (text : String)
  | integer (value : Int64)
  | boolean (value : Bool)
  | float
  | dateTime
  | array (items : List Node)
  /-- A table in braces, to which nothing can be added. -/
  | inlineTable (entries : List (String × Node))
  | table (form : TableForm) (entries : List (String × Node))
  | tableArray (elements : List (List (String × Node)))

/-- The entries of a table. -/
abbrev Table := List (String × Node)

/-- The header of a section: one that opens a table, or one that adds an element to an
array of tables; `parents` lead to the table that holds it under `name`. -/
structure Header where
  parents : List String
  name : String
  isElement : Bool
  deriving DecidableEq, Repr

/-- A statement of a document. -/
inductive Statement where
  | assign (parents : List String) (name : String) (value : Node)
  | header (header : Header)

namespace Table

/-- Adds an entry whose key is new. -/
def add? (name : String) (value : Node) (table : Table) : Option Table :=
  match Entries.get? name table with
  | some _ => none
  | none => some (Entries.insert name value table)

/-- Replaces the last element of a list by what a function makes of it. -/
def updateLast? {Element : Type} (update : Element → Option Element) :
    List Element → Option (List Element)
  | [] => none
  | [last] => (update last).map fun updated => [updated]
  | element :: rest => (updateLast? update rest).map (element :: ·)

/-- Assigns a value to a dotted key.  The tables on the way are made where they are
absent; one that is present must not have been opened by a header, and the innermost
must have been made by dotted keys. -/
def assign? (name : String) (value : Node) :
    (parents : List String) → Table → Option Table
  | [], table => add? name value table
  | parent :: parents, table =>
      match Entries.get? parent table with
      | none => do
          let inner ← assign? name value parents []
          return Entries.insert parent (.table .dotted inner) table
      | some (.table form inner) =>
          if form = .explicit ∨ (parents = [] ∧ form ≠ .dotted) then none
          else do
            let inner ← assign? name value parents inner
            return Entries.insert parent (.table form inner) table
      | some (.tableArray elements) =>
          if parents = [] then none
          else do
            let elements ← updateLast? (assign? name value parents) elements
            return Entries.insert parent (.tableArray elements) table
      | some _ => none

/-- Changes the table at the end of a path.  The tables on the way are made where they
are absent; in an array of tables the path goes on in the last element. -/
def update? (change : Table → Option Table) :
    (path : List String) → Table → Option Table
  | [], table => change table
  | name :: path, table =>
      match Entries.get? name table with
      | none => do
          let inner ← update? change path []
          return Entries.insert name (.table .implied inner) table
      | some (.table form inner) => do
          let inner ← update? change path inner
          return Entries.insert name (.table form inner) table
      | some (.tableArray elements) => do
          let elements ← updateLast? (update? change path) elements
          return Entries.insert name (.tableArray elements) table
      | some _ => none

/-- Puts the content of a section in its place, `content` being given what a table
opened by the header already holds. -/
def putSection? (header : Header) (content : Table → Option Table) (table : Table) :
    Option Table :=
  if header.isElement then
    match Entries.get? header.name table with
    | none => do
        return Entries.insert header.name (.tableArray [← content []]) table
    | some (.tableArray elements) => do
        return Entries.insert header.name
          (.tableArray (elements ++ [← content []])) table
    | some _ => none
  else
    match Entries.get? header.name table with
    | none => do
        return Entries.insert header.name (.table .explicit (← content [])) table
    | some (.table .implied inner) => do
        return Entries.insert header.name (.table .explicit (← content inner)) table
    | some _ => none

end Table

/-- The assignments up to the next header, and the statements from there on. -/
def takeAssignments :
    List Statement → List (List String × String × Node) × List Statement
  | .assign parents name value :: statements =>
      let (assignments, rest) := takeAssignments statements
      ((parents, name, value) :: assignments, rest)
  | statements => ([], statements)

/-- Makes assignments one after the other. -/
def assignAll? (assignments : List (List String × String × Node)) (table : Table) :
    Option Table :=
  assignments.foldlM (fun table (parents, name, value) =>
    table.assign? name value parents) table

theorem length_takeAssignments (statements : List Statement) :
    (takeAssignments statements).2.length ≤ statements.length := by
  fun_induction takeAssignments statements with
  | case1 parents name value statements assignments rest taken ih =>
      simp only [taken] at ih
      simp only [List.length_cons]
      omega
  | case2 => simp

/-- Adds the sections that begin with the headers among the statements. -/
def addSections? (statements : List Statement) (root : Table) : Option Table :=
  match statements with
  | [] => some root
  | .assign _ _ _ :: _ => none
  | .header header :: statements => do
      let root ← root.update?
        (Table.putSection? header (assignAll? (takeAssignments statements).1))
        header.parents
      addSections? (takeAssignments statements).2 root
termination_by statements.length
decreasing_by
  have := length_takeAssignments statements
  simp
  omega

/-- The table that a document describes, if its statements agree with each other. -/
def assemble? (statements : List Statement) : Option Table := do
  let root ← assignAll? (takeAssignments statements).1 []
  addSections? (takeAssignments statements).2 root

end Metainfo.Toml
