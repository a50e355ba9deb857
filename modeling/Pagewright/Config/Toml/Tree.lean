import Pagewright.Config.Toml.Scalar

/-!
# Tables of TOML

A document is a list of statements: headers that open a table or add one to a list of tables, and
assignments of a value to a key of the table opened last. `build?` carries them out. No value is
given twice, and a table is opened at most once; one that a header or a dotted key only passes
through is there without being opened. A dotted key gives its value to a table of dotted keys alone,
and through a list of tables the way goes on in the last one. `Entry.toValue?` is the value of what
a key holds; a table that starts with `momentKey` stands for a moment.
-/

namespace Pagewright.Config.Toml

/-- How a table has come to be. -/
inductive Origin where
  /-- Opened by a header. -/
  | opened
  /-- Passed through by a header. -/
  | passed
  /-- Passed through by a dotted key. -/
  | dotted
  deriving DecidableEq, Repr

inductive Entry where
  | string (s : String)
  | scalar (v : Value)
  | list (items : List Entry)
  /-- A table between braces; nothing is added to it. -/
  | inline (entries : List (String × Entry))
  | table (origin : Origin) (entries : List (String × Entry))
  /-- The tables of a list, the last one first. -/
  | tables (items : List (List (String × Entry)))

inductive Statement where
  | openTable (key : List String)
  | addTable (key : List String)
  | assign (key : List String) (value : Entry)

abbrev Entries := List (String × Entry)

namespace Entries

def find? (name : String) (es : Entries) : Option Entry :=
  (List.find? (fun e => e.1 == name) es).map Prod.snd

def insert (name : String) (e : Entry) : Entries → Entries
  | [] => [(name, e)]
  | f :: es => if f.1 = name then (name, e) :: es else f :: insert name e es

def erase (name : String) (es : Entries) : Entries :=
  es.filter fun e => e.1 != name

/-- Gives a dotted key a value. The table that takes the value has to be one of dotted keys; on the
way there the key may go through what headers have passed. -/
def assign? (es : Entries) : List String → Entry → Option Entries
  | [], _ => none
  | [name], v =>
    match find? name es with
    | none => some (insert name v es)
    | some _ => none
  | name :: rest, v =>
    let last := rest.length = 1
    match find? name es with
    | none => do return insert name (.table .dotted (← assign? [] rest v)) es
    | some (.table .dotted inner) => do
      return insert name (.table .dotted (← assign? inner rest v)) es
    | some (.table .passed inner) =>
      if last then none
      else do return insert name (.table .passed (← assign? inner rest v)) es
    | some (.tables (newest :: before)) =>
      if last then none
      else do return insert name (.tables ((← assign? newest rest v) :: before)) es
    | some _ => none

/-- Changes the table that a header's key leads to, the last one of a list of tables. -/
def atHeader? (f : Entries → Option Entries) (es : Entries) : List String → Option Entries
  | [] => f es
  | name :: rest =>
    match find? name es with
    | none => do return insert name (.table .passed (← atHeader? f [] rest)) es
    | some (.table origin inner) => do
      return insert name (.table origin (← atHeader? f inner rest)) es
    | some (.tables (last :: before)) => do
      return insert name (.tables ((← atHeader? f last rest) :: before)) es
    | some _ => none

/-- Opens a table that is not opened yet. One that a header has passed moves behind the others. -/
def openTable? (es : Entries) (key : List String) : Option Entries :=
  match key.getLast? with
  | none => none
  | some name =>
    es.atHeader? (fun es =>
      match find? name es with
      | none => some (insert name (.table .opened []) es)
      | some (.table .passed inner) => some (erase name es ++ [(name, .table .opened inner)])
      | some _ => none) key.dropLast

def addTable? (es : Entries) (key : List String) : Option Entries :=
  match key.getLast? with
  | none => none
  | some name =>
    es.atHeader? (fun es =>
      match find? name es with
      | none => some (insert name (.tables [[]]) es)
      | some (.tables items) => some (insert name (.tables ([] :: items)) es)
      | some _ => none) key.dropLast

end Entries

/-- The key that makes a table stand for a moment, the string that it holds. -/
def momentKey : String := "$__toml_private_datetime"

/-- The moment that a table stands for: none when its first key is another one, and no value when
the string is not there or does not write a moment. -/
def Entries.moment? : Entries → Option (Option Value)
  | (name, e) :: _ =>
    if name = momentKey then
      match e with
      | .string s => some (quotedMoment? s.toList)
      | _ => some none
    else none
  | [] => none

mutual

def Entry.toValue? : Entry → Option Value
  | .string s => some (.text s)
  | .scalar v => some v
  | .list items => (valuesOf? items).map .list
  | .inline es => (Entries.moment? es).getD ((membersOf? es).map .table)
  | .table _ es => (Entries.moment? es).getD ((membersOf? es).map .table)
  | .tables items => (tablesOf? items).map fun vs => .list vs.reverse

def valuesOf? : List Entry → Option (List Value)
  | [] => some []
  | e :: es => do return (← e.toValue?) :: (← valuesOf? es)

def membersOf? : List (String × Entry) → Option (List (String × Value))
  | [] => some []
  | (name, e) :: es => do return (name, ← e.toValue?) :: (← membersOf? es)

def tablesOf? : List (List (String × Entry)) → Option (List Value)
  | [] => some []
  | es :: rest => do
    let v ← (Entries.moment? es).getD ((membersOf? es).map .table)
    return v :: (← tablesOf? rest)

end

/-- Carries out statements; `here` is the key of the table opened last. -/
def runStatements? (es : Entries) (here : List String) : List Statement → Option Entries
  | [] => some es
  | .openTable key :: rest => do runStatements? (← es.openTable? key) key rest
  | .addTable key :: rest => do runStatements? (← es.addTable? key) key rest
  | .assign key v :: rest => do
    runStatements? (← es.atHeader? (fun es => es.assign? key v) here) here rest

/-- The members of the root of a document, which cannot stand for a moment. -/
def build? (statements : List Statement) : Option (List (String × Value)) := do
  let es ← runStatements? [] [] statements
  if es.moment?.isSome then none else membersOf? es

/-- The table that assignments between braces make. -/
def inlineTable? (assignments : List (List String × Entry)) : Option Entry := do
  let es ← assignments.foldlM (fun (es : Entries) (key, v) => es.assign? key v) []
  return .inline es

end Pagewright.Config.Toml
