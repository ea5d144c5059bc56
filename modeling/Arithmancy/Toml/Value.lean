import Arithmancy.Number.Decimal

/-!
# Documents of nested tables

A settings file is a table whose entries are texts, numbers, flags, moments, arrays
and further tables. A table remembers how it came about, because that decides who may
still add to it: a table with a header of its own is closed to dotted keys and to a
second header, a table that a longer header merely passed through is still open to its
own header, and a table in braces is closed to everyone.
-/

namespace Arithmancy

namespace Toml

/-- How a table came about. -/
inductive Origin where
  /-- A longer header passed through it. -/
  | implied
  /-- A dotted key passed through it. -/
  | dotted
  /-- It has a header of its own. -/
  | header
  /-- It was written in braces. -/
  | braces
deriving DecidableEq, Repr

/-- **A value of a document.** -/
inductive Value where
  /-- A text. -/
  | text (s : String)
  /-- An integer. -/
  | integer (n : Int)
  /-- A number with a point, an exponent, or no finite value. -/
  | float (d : Decimal)
  /-- A flag. -/
  | boolean (b : Bool)
  /-- A date, a time of day, or both. -/
  | moment (s : String)
  /-- An array written in brackets. -/
  | array (items : List Value)
  /-- An array of tables, each with a header of its own; the latest comes first. -/
  | tables (items : List (List (String × Value)))
  /-- A table. -/
  | table (origin : Origin) (entries : List (String × Value))

/-- The entries of a table, in the order in which they were written. -/
abbrev Entries := List (String × Value)

namespace Entries

/-- The value of a key. -/
def get? (es : Entries) (key : String) : Option Value := (es.find? fun e => e.1 == key).map (·.2)

/-- The entries with the value of a key replaced, or added if there is none. -/
def put (es : Entries) (key : String) (v : Value) : Entries :=
  if es.any fun e => e.1 == key then es.map fun e => if e.1 == key then (key, v) else e
  else es ++ [(key, v)]

/-- Changes the table at the end of a path, making the tables on the way if there are
none. The path leads through the latest member of an array of tables. A path of dotted
keys stops at a table that has a header. -/
def descend (dotted : Bool) (change : Origin → Entries → Option Entries) :
    List String → Origin → Entries → Option Entries
  | [], origin, es => change origin es
  | key :: path, _, es =>
    match es.get? key with
    | none =>
      let origin := if dotted then Origin.dotted else Origin.implied
      (descend dotted change path origin []).map fun inner => es.put key (.table origin inner)
    | some (.table origin inner) =>
      if origin = .braces || (dotted && origin = .header) then none
      else (descend dotted change path origin inner).map fun inner =>
        es.put key (.table origin inner)
    | some (.tables (latest :: earlier)) =>
      (descend dotted change path .header latest).map fun latest =>
        es.put key (.tables (latest :: earlier))
    | some _ => none

/-- Adds a new key with its value. -/
def addNew (key : String) (v : Value) (es : Entries) : Option Entries :=
  match es.get? key with
  | none => some (es ++ [(key, v)])
  | some _ => none

/-- **Assigns a value to a key**, which may be dotted. The tables that dotted keys pass
through must be tables of dotted keys. -/
def assign (path : List String) (key : String) (v : Value) (es : Entries) : Option Entries :=
  if path = [] then es.addNew key v
  else
    descend true (fun origin inner => if origin = .dotted then inner.addNew key v else none)
      path .header es

/-- **Opens the table of a header.** -/
def openTable (path : List String) (key : String) (es : Entries) : Option Entries :=
  descend false (fun _ inner =>
    match inner.get? key with
    | none => some (inner ++ [(key, .table .header [])])
    | some (.table .implied entries) => some (inner.put key (.table .header entries))
    | some _ => none) path .header es

/-- **Opens one more table of an array of tables.** -/
def openMember (path : List String) (key : String) (es : Entries) : Option Entries :=
  descend false (fun _ inner =>
    match inner.get? key with
    | none => some (inner ++ [(key, .tables [[]])])
    | some (.tables items) => some (inner.put key (.tables ([] :: items)))
    | some _ => none) path .header es

/-- Assigns a value in the table that the latest header opened. -/
def assignUnder (header : List String) (path : List String) (key : String) (v : Value)
    (es : Entries) : Option Entries :=
  descend false (fun _ inner => inner.assign path key v) header .header es

end Entries

end Toml

end Arithmancy
