/-
RrdCache/Identifier/Basic.lean

Identifiers: the names of databases, data sources, columns and commands.  They have 1
to 64 characters, each an ASCII letter or digit, an underscore or a dash, so that an
identifier on a request line can neither end the line nor split a field.
-/

namespace RrdCache

/-- A character of an identifier. -/
def isIdentifierChar (c : Char) : Bool :=
  c.isAlphanum || c == '_' || c == '-'

/-- Why a text is no identifier. -/
inductive IdentifierProblem
  | length
  | alphabet
deriving DecidableEq, Repr

/-- The greatest length of an identifier. -/
def identifierLimit : Nat := 64

/-- What keeps a text from being an identifier.  The length is looked at first. -/
def identifierProblem? (s : String) : Option IdentifierProblem :=
  if s.toList.isEmpty ∨ identifierLimit < s.toList.length then some .length
  else if s.toList.all isIdentifierChar then none
  else some .alphabet

/-- A text that is an identifier. -/
structure Identifier where
  text : String
  sound : identifierProblem? text = none
deriving DecidableEq

/-- How a message describes the problem. -/
def IdentifierProblem.message : IdentifierProblem → String
  | length => "must be between 1 and 64 characters"
  | alphabet => "must only contain letters, digits, underscores and dashes"

end RrdCache
