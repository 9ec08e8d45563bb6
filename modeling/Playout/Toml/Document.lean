import Playout.Toml.Literal
import Playout.Toml.Quoted
import Playout.Toml.Value

/-!
# TOML documents

A document is a row of statements, one a line: an assignment, the header of a table, or the
header of one more table of a row. `statements` reads them from text, and `assemble` makes
the table of the document from them. An assignment belongs to the table of the last header
in front of it.
-/

namespace Playout.Toml

open TextReader

/-- A key and the path to its table. -/
structure Key where
  path : List String
  last : String
deriving DecidableEq, Inhabited, Repr

/-- What one line says. -/
inductive Statement where
  | assign (key : Key) (v : Value)
  | table (key : Key)
  | element (key : Key)
deriving Inhabited, Repr

/-! ### Blanks and comments -/

def blanks : TextReader Unit := do
  let _ ← span Quoted.isBlank

/-- A comment up to the end of its line. -/
def comment : TextReader Unit := do
  char '#'
  let _ ← span Quoted.isPlain

/-- Blanks, comments and line breaks. -/
def gap : TextReader Unit := do
  let _ ← many ((do let _ ← span1 Quoted.isBlank) <|> Quoted.lineBreak <|> comment)

/-- Nothing more on this line but a comment. -/
def lineEnd : TextReader Unit := do
  blanks
  let _ ← attempt comment
  Quoted.lineBreak <|> ended

/-! ### Keys and values -/

/-- Keys have fewer parts, and values are nested less deep, than this. -/
def depthLimit : Nat := 80

def isBare (c : Char) : Bool := c.isAlphanum || c == '-' || c == '_'

def keyPart : TextReader String :=
  (do return String.ofList (← span1 isBare)) <|> Quoted.basic <|> Quoted.literal

/-- The parts of a key between points. -/
def key : TextReader Key := do
  let part : TextReader String := do
    blanks
    let k ← keyPart
    blanks
    return k
  let parts ← separated part (char '.')
  if depthLimit ≤ parts.length then failure
  return ⟨parts.dropLast, parts.getLastD ""⟩

def assignment (value : TextReader Value) : TextReader (Key × Value) := do
  let k ← key
  char '='
  blanks
  return (k, ← value)

/-- Values in brackets. A comma may follow the last. -/
def array (value : TextReader Value) : TextReader Value := do
  let item : TextReader Value := do
    gap
    let v ← value
    gap
    return v
  char '['
  let items ← attempt do
    let items ← separated item (char ',')
    let _ ← attempt (char ',')
    return items
  gap
  char ']'
  return .array (items.getD [])

/-- Assignments in braces, on one line. -/
def inlineTable (value : TextReader Value) : TextReader Value := do
  let item : TextReader (Key × Value) := do
    let a ← assignment value
    blanks
    return a
  char '\x7b'
  let items ← attempt (separated item (char ','))
  blanks
  char '\x7d'
  -- a key that is given twice refuses the table
  let put (es : Entries) (a : Key × Value) := Entries.put a.1.path a.1.last a.2 .header es
  match (items.getD []).foldlM put [] with
  | some es => return .table .braces es
  | none => failure

/-- A value with at most `room` brackets and braces around its parts. -/
def value : (room : Nat) → TextReader Value
  | 0 => scalar
  | room + 1 => scalar <|> array (value room) <|> inlineTable (value room)
where
  scalar := Literal.read <|> .string <$> Quoted.read

/-! ### Statements -/

/-- One line that says something. -/
def statement : TextReader Statement := do
  -- two brackets are tried before one
  let said ← element <|> table <|> do
    let (k, v) ← assignment (value (depthLimit - 1))
    return .assign k v
  lineEnd
  return said
where
  element := do
    literal "[["
    let k ← key
    literal "]]"
    return .element k
  table := do
    char '['
    let k ← key
    char ']'
    return .table k

/-- One line, which may say nothing. -/
def line : TextReader (Option Statement) := do
  blanks
  (do comment; Quoted.lineBreak <|> ended; return none)
    <|> (do Quoted.lineBreak; return none)
    <|> some <$> statement

/-- All statements. A byte order mark may stand in front. -/
def statements : TextReader (List Statement) := do
  let _ ← attempt (char '\ufeff')
  let lines ← many line
  blanks
  return lines.filterMap id

/-! ### The table of a document -/

/-- The table so far, and the header in force. -/
structure Draft where
  root : Entries := []
  header : Option Key := none
deriving Inhabited, Repr

/-- Add what one statement says. -/
def Draft.add (d : Draft) : Statement → Option Draft
  | .table k => return ⟨← d.root.openTable k.path k.last, some k⟩
  | .element k => return ⟨← d.root.openElement k.path k.last, some k⟩
  -- an assignment goes below the header in force
  | .assign k v => do
    let change := fun form es => Entries.put k.path k.last v form es
    let path := match d.header with
      | none => []
      | some h => h.path ++ [h.last]
    return { d with root := ← d.root.changeAt .implied change path .header }

/-- The table that the statements describe. -/
def assemble (ss : List Statement) : Option Entries :=
  (ss.foldlM Draft.add {}).map Draft.root

/-- The table of a document, if the text is one. -/
def read? (text : String) : Option Entries := do assemble (← all? statements text)

end Playout.Toml
