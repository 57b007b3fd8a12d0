/-
RrdCache/CommandLine/Output.lean

What the program prints.  An `Output` is a text, a number, a missing value, a list, or a
record of named fields.  It is printed in one of two notations: as a *literal*, all on one
line, or as indented JSON in ASCII.
-/
import RrdCache.Number.Shortest
import RrdCache.Text.Quoted

namespace RrdCache

/-- A value to be printed. -/
inductive Output
  | text (value : String)
  | whole (value : Int)
  | number (value : Binary64)
  | missing
  | list (items : List Output)
  | record (fields : List (String × Output))

namespace Output

/-! ### Literals -/

mutual

/-- A value as a literal. -/
def literal : Output → String
  | text s => quoted s
  | whole i => Numeral.spelling i
  | number x => x.text
  | missing => "None"
  | list items => "[" ++ String.intercalate ", " (literals items) ++ "]"
  | record fields => "\x7b" ++ String.intercalate ", " (literalFields fields) ++ "\x7d"

/-- Values as literals. -/
def literals : List Output → List String
  | [] => []
  | o :: rest => literal o :: literals rest

/-- Fields as literals. -/
def literalFields : List (String × Output) → List String
  | [] => []
  | (key, o) :: rest => (quoted key ++ ": " ++ literal o) :: literalFields rest

end

/-! ### JSON -/

/-- A code unit of UTF-16 as an escape. -/
def unitEscape (n : Nat) : List Char :=
  '\\' :: 'u' :: Quoted.hex 4 n

/-- A character in a JSON text.  Outside the printable ASCII characters it is escaped, by
name if it has one, and by two code units if it is beyond the basic plane. -/
def jsonChar (c : Char) : List Char :=
  if c = '"' ∨ c = '\\' then ['\\', c]
  else if c = '\n' then ['\\', 'n']
  else if c = '\r' then ['\\', 'r']
  else if c = '\t' then ['\\', 't']
  else if c = '\x0c' then ['\\', 'f']
  else if c = '\x08' then ['\\', 'b']
  else if 0x20 ≤ c.toNat ∧ c.toNat < 0x7F then [c]
  else if c.toNat < 0x10000 then unitEscape c.toNat
  else unitEscape (0xD800 + (c.toNat - 0x10000) / 0x400)
    ++ unitEscape (0xDC00 + (c.toNat - 0x10000) % 0x400)

/-- A JSON text. -/
def jsonText (s : String) : String :=
  String.ofList ('"' :: (s.toList.flatMap jsonChar ++ ['"']))

/-- A JSON number; infinities and the value that is no number have words of their own. -/
def jsonNumber : Binary64 → String
  | .nan => "NaN"
  | .infinite false => "Infinity"
  | .infinite true => "-Infinity"
  | x => x.text

/-- The start of a line at a depth of nesting. -/
def newLine (depth : Nat) : String :=
  "\n" ++ String.ofList (List.replicate (2 * depth) ' ')

/-- Items between brackets, each on a line of its own; no items need no lines. -/
def jsonBlock (opening closing : String) (depth : Nat) (items : List String) : String :=
  if items.isEmpty then opening ++ closing
  else opening ++ newLine (depth + 1)
    ++ String.intercalate ("," ++ newLine (depth + 1)) items ++ newLine depth ++ closing

mutual

/-- A value as JSON at a depth of nesting. -/
def json (depth : Nat) : Output → String
  | text s => jsonText s
  | whole i => Numeral.spelling i
  | number x => jsonNumber x
  | missing => "null"
  | list items => jsonBlock "[" "]" depth (jsonItems (depth + 1) items)
  | record fields => jsonBlock "\x7b" "\x7d" depth (jsonFields (depth + 1) fields)

/-- Values as JSON. -/
def jsonItems (depth : Nat) : List Output → List String
  | [] => []
  | o :: rest => json depth o :: jsonItems depth rest

/-- Fields as JSON. -/
def jsonFields (depth : Nat) : List (String × Output) → List String
  | [] => []
  | (key, o) :: rest => (jsonText key ++ ": " ++ json depth o) :: jsonFields depth rest

end

/-- What is printed for a value: JSON, or a literal; there a text alone has no quotes. -/
def render (asJson : Bool) (o : Output) : String :=
  if asJson then o.json 0
  else match o with
    | text s => s
    | o => o.literal

end Output

end RrdCache
