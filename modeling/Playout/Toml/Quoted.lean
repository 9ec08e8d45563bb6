import Playout.Text.Reader

/-!
# Quoted texts

A text stands in quotation marks, where a backslash starts an escape, or in apostrophes,
where it does not. Tripled, either may hold line breaks, and then a break right behind the
opening marks does not count; every break counts as a line feed.

`write` chooses the plainest form that can hold a text: quotation marks if nothing needs an
escape, then apostrophes, then the tripled forms, and escapes where nothing else will do.
-/

namespace Playout.Toml.Quoted

open TextReader

def quote : Char := '\x22'

def apostrophe : Char := '\x27'

/-- A character that may stand for itself: a tab, or anything but a control character. -/
def isPlain (c : Char) : Bool := c == '\t' || (' ' ≤ c && c != '\x7f')

def isBlank (c : Char) : Bool := c == ' ' || c == '\t'

/-! ### Reading -/

def lineBreak : TextReader Unit := do
  let _ ← attempt (char '\r')
  char '\n'

/-- A character given by its number. -/
def codePoint (count : Nat) : TextReader Char := do
  let n ← fixedDigits 16 count
  if n.isValidChar then return Char.ofNat n else failure

/-- A backslash and what it stands for. -/
def escaped : TextReader Char := do
  char '\\'
  match ← satisfy fun _ => true with
  | 'b' => return '\x08'
  | 't' => return '\t'
  | 'n' => return '\n'
  | 'f' => return '\x0c'
  | 'r' => return '\r'
  | 'u' => codePoint 4
  | 'U' => codePoint 8
  | c => if c = quote ∨ c = '\\' then return c else failure

/-- A character that stands for itself between quotation marks. -/
def unescaped : TextReader Char := satisfy fun c => isPlain c && c != quote && c != '\\'

/-- A text between quotation marks. -/
def basic : TextReader String := do
  char quote
  let cs ← many (unescaped <|> escaped)
  char quote
  return String.ofList cs

/-- A text between apostrophes. -/
def literal : TextReader String := do
  char apostrophe
  let cs ← span fun c => isPlain c && c != apostrophe
  char apostrophe
  return String.ofList cs

/-- One or two marks that do not end a tripled text. -/
def innerMarks (mark : Char) : TextReader (List Char) := do
  let marks ← span1 (· == mark)
  if marks.length < 3 then return marks else failure

/-- The three marks at the end. One or two more in front of them belong to the text. -/
def closingMarks (mark : Char) : TextReader (List Char) := do
  let marks ← span1 (· == mark)
  if 3 ≤ marks.length ∧ marks.length ≤ 5 then return marks.drop 3 else failure

/-- A text between tripled marks. -/
def tripled (mark : Char) (piece : TextReader (List Char)) : TextReader String := do
  TextReader.literal (String.ofList [mark, mark, mark])
  let _ ← attempt lineBreak
  let pieces ← many (piece <|> innerMarks mark <|> do lineBreak; return ['\n'])
  let last ← closingMarks mark
  return String.ofList (pieces.flatten ++ last)

/-- A backslash at the end of a line: the break and the blanks behind it do not count. -/
def foldedBreak : TextReader Unit := do
  char '\\'
  let _ ← span isBlank
  lineBreak
  let _ ← many ((do let _ ← span1 isBlank) <|> lineBreak)

/-- A text between tripled quotation marks. -/
def longBasic : TextReader String :=
  tripled quote ((do return [← unescaped]) <|> (do foldedBreak; return [])
    <|> do return [← escaped])

/-- A text between tripled apostrophes. -/
def longLiteral : TextReader String :=
  tripled apostrophe (span1 fun c => isPlain c && c != apostrophe)

/-- A text in any form. -/
def read : TextReader String := longBasic <|> basic <|> longLiteral <|> literal

/-! ### Writing -/

inductive Form where
  | basic
  | literal
  | longBasic
  | longLiteral
deriving DecidableEq, Inhabited, Repr

/-- The most copies of `mark` in a row. -/
def longestRun (mark : Char) : (seen : Nat) → List Char → Nat
  | seen, [] => seen
  | seen, c :: rest =>
    if c = mark then longestRun mark (seen + 1) rest else max seen (longestRun mark 0 rest)

/-- A character that only an escape can show. -/
def needsEscape (c : Char) : Bool := !isPlain c && c != '\n'

/-- The plainest form that can hold a text. -/
def formFor (cs : List Char) : Form :=
  let escapes := cs.any needsEscape
  let backslash := cs.contains '\\'
  let breaks := cs.contains '\n'
  if !escapes && !backslash && !breaks && longestRun quote 0 cs == 0 then .basic
  else if !escapes && !breaks && longestRun apostrophe 0 cs == 0 then .literal
  else if !escapes && !backslash && longestRun quote 0 cs ≤ 2 then .longBasic
  else if !escapes && longestRun apostrophe 0 cs ≤ 2 then .longLiteral
  else if breaks then .longBasic
  else .basic

/-- Four upper-case hexadecimal digits. -/
def fourDigits (n : Nat) : List Char :=
  let ds := (Nat.toDigits 16 n).map Char.toUpper
  List.replicate (4 - ds.length) '0' ++ ds

/-- A character between quotation marks. -/
def escape (c : Char) : List Char :=
  match c with
  | '\x08' => ['\\', 'b']
  | '\t' => ['\\', 't']
  | '\n' => ['\\', 'n']
  | '\x0c' => ['\\', 'f']
  | '\r' => ['\\', 'r']
  | '\\' => ['\\', '\\']
  | c => if needsEscape c then '\\' :: 'u' :: fourDigits c.toNat else [c]

/-- A text between quotation marks. Up to `marks` of them in a row stand for themselves, and
so do line breaks if `breaks` allows it. -/
def escapeAll (marks : Nat) (breaks : Bool) : (seen : Nat) → List Char → List Char
  | _, [] => []
  | seen, c :: rest =>
    if c = quote then
      if seen < marks then c :: escapeAll marks breaks (seen + 1) rest
      else '\\' :: c :: escapeAll marks breaks 0 rest
    else
      (if breaks && c == '\n' then [c] else escape c) ++ escapeAll marks breaks 0 rest

def write (s : String) : String :=
  let cs := s.toList
  let tripled (mark : Char) (body : List Char) :=
    let marks := [mark, mark, mark]
    marks ++ (if cs.contains '\n' then ['\n'] else []) ++ body ++ marks
  String.ofList <|
    match formFor cs with
    | .basic => quote :: escapeAll 0 false 0 cs ++ [quote]
    | .literal => apostrophe :: cs ++ [apostrophe]
    | .longBasic => tripled quote (escapeAll 2 true 0 cs)
    | .longLiteral => tripled apostrophe cs

end Playout.Toml.Quoted
