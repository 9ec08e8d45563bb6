/-!
# Values of a TOML document

A document is a table: entries with different keys, in the order in which they were added.
A table remembers how it was stated, since that decides whether more may be put into it.

`changeAt` goes down a path of keys to a table and changes it there; `put`, `openTable` and
`openElement` are the three things that a document can say about the table at the end.
-/

namespace Playout.Toml

/-- How a table was stated. -/
inductive TableForm where
  /-- In braces; it is complete. -/
  | braces
  /-- By a header of its own -/
  | header
  /-- By the header of a table inside it -/
  | implied
  /-- By a key with points in it -/
  | dotted
deriving DecidableEq, Inhabited, Repr

inductive Value where
  | string (s : String)
  | integer (n : Int)
  /-- A number with a fraction or an exponent, or a special number, as written -/
  | float (text : String)
  | boolean (b : Bool)
  /-- A date, a time of day, or both, as written -/
  | moment (text : String)
  | array (items : List Value)
  | table (form : TableForm) (entries : List (String × Value))
  /-- The tables under one header in double brackets -/
  | tables (elements : List (List (String × Value)))
deriving Inhabited, Repr

abbrev Entries := List (String × Value)

namespace Entries

/-- The entry `key` has the value `v`; it is added at the end if it is new. -/
def set (es : Entries) (key : String) (v : Value) : Entries :=
  match es with
  | [] => [(key, v)]
  | (k, w) :: rest => if k = key then (key, v) :: rest else (k, w) :: set rest key v

/-- Change the table at the end of a path. A missing table on the way is made in the form
`make`. A key with points does not lead into a table that was stated otherwise, and no path
leads into a value; into tables under one header it leads to the last. -/
def changeAt (make : TableForm) (change : TableForm → Entries → Option Entries) :
    List String → TableForm → Entries → Option Entries
  | [], form, es => change form es
  | key :: path, _, es =>
    match es.lookup key with
    | none => do
      let inner ← changeAt make change path make []
      return es.set key (.table make inner)
    | some (.table form inner) => do
      if form = .braces ∨ (make = .dotted ∧ form = .header) then failure
      let inner ← changeAt make change path form inner
      return es.set key (.table form inner)
    | some (.tables elements) => do
      let inner ← changeAt make change path .header (← elements.getLast?)
      return es.set key (.tables (elements.dropLast ++ [inner]))
    | some _ => none

/-- Put a new entry into the table at the end of a key's path. A key with points may only
end in a table that such keys have made. -/
def put (path : List String) (key : String) (v : Value) (form : TableForm) (es : Entries) :
    Option Entries :=
  changeAt .dotted
    (fun form es => do
      if path ≠ [] ∧ form ≠ .dotted then failure
      if (es.lookup key).isSome then failure
      return es.set key v)
    path form es

/-- Open the table with the given header: a new one, or one that was only implied. -/
def openTable (path : List String) (key : String) (es : Entries) : Option Entries :=
  changeAt .implied
    (fun _ es =>
      match es.lookup key with
      | none => some (es.set key (.table .header []))
      | some (.table .implied inner) => some (es.set key (.table .header inner))
      | some _ => none)
    path .header es

/-- Open one more table under a header in double brackets. -/
def openElement (path : List String) (key : String) (es : Entries) : Option Entries :=
  changeAt .implied
    (fun _ es =>
      match es.lookup key with
      | none => some (es.set key (.tables [[]]))
      | some (.tables elements) => some (es.set key (.tables (elements ++ [[]])))
      | some _ => none)
    path .header es

end Entries

end Playout.Toml
