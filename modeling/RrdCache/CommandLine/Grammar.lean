/-
RrdCache/CommandLine/Grammar.lean

Command lines of options and operands.  A `Grammar` lists the options, which may stand
anywhere, and the operands in their order; the options for help belong to every grammar.

Each argument is first classified on its own.  It is an option if it starts with a dash
and is not a lone dash, a negative number or a text with a space in it; a long option may
be cut short where that is not ambiguous, and may bring its value after "=".  After "--"
nothing is an option; as a value brought by an option, "--" leaves the place blank.  Then
the arguments are taken from left to right: an option takes the values after it, and before
each option as many operands as possible are filled.  Arguments that nothing takes are left
over.

Reading ends early in one of two ways: a request for help is met, or the line is wrong.
Whichever comes first counts, except that ambiguity is found before anything is taken.
-/
import RrdCache.Text.Digit

namespace RrdCache

/-- Why a command line is not carried out: it asks for help, or it is wrong. -/
inductive Stop
  | help
  | usage
deriving DecidableEq, Repr

/-- What an option takes. -/
inductive OptionKind
  /-- Nothing: it asks for help. -/
  | help
  /-- Nothing. -/
  | flag
  /-- One value. -/
  | one
  /-- Any number of values. -/
  | many
deriving DecidableEq, Repr

/-- An option: its long name with the dashes, what it takes, and which values are right. -/
structure OptionSpec where
  name : String
  kind : OptionKind
  accepts : String → Bool := fun _ => true

/-- What an operand takes.  Operands take as much as they can, so that only the last one may
take several arguments. -/
inductive OperandKind
  /-- One argument. -/
  | one
  /-- One argument, or none. -/
  | optional
  /-- One argument or more. -/
  | several
  /-- One argument and all that follow, options included. -/
  | rest
deriving DecidableEq, Repr

/-- An operand: its name, what it takes, and which values are right.  Where it takes the
rest of the line, only the first argument is looked at. -/
structure OperandSpec where
  name : String
  kind : OperandKind := .one
  accepts : String → Bool := fun _ => true

/-- The options of a command line, and its operands in order. -/
structure Grammar where
  options : List OptionSpec := []
  operands : List OperandSpec := []

/-! ### Classification -/

/-- What an argument is, looked at on its own. -/
inductive TokenSort
  | operand
  /-- The first "--". -/
  | separator
  | option (spec : OptionSpec) (attached : Option String)
  /-- An option that ends the reading when it is reached. -/
  | halt (stop : Stop)
  /-- What looks like an option and is none. -/
  | unknown

/-- An argument, classified. -/
structure Token where
  text : String
  sort : TokenSort

namespace Token

/-- Whether a token is an operand. -/
def isOperand (t : Token) : Bool :=
  match t.sort with
  | .operand => true
  | _ => false

/-- Whether a token is the separator. -/
def isSeparator (t : Token) : Bool :=
  match t.sort with
  | .separator => true
  | _ => false

/-- Whether a token stands among the operands. -/
def isArgument (t : Token) : Bool := t.isOperand || t.isSeparator

end Token

/-- The sort of an option with a value attached to it, or none. -/
def OptionSpec.sort (spec : OptionSpec) (attached : Option String) : TokenSort :=
  match spec.kind, attached with
  | .help, none => .halt .help
  | .help, some _ => .halt .usage
  | .flag, some _ => .halt .usage
  | _, _ => .option spec attached

/-- Whether a text has the form of a negative number: digits, with at most one point that
has digits after it.  A line feed may end it. -/
def looksNegative (s : List Char) : Bool :=
  match s with
  | '-' :: number =>
    let body := if number.getLast? = some '\n' then number.dropLast else number
    let whole := body.takeWhile isDecimalDigit
    match body.dropWhile isDecimalDigit with
    | [] => !whole.isEmpty
    | '.' :: fraction => !fraction.isEmpty && fraction.all isDecimalDigit
    | _ => false
  | _ => false

/-- What `-h` means with further characters behind it.  It asks for help if they are letters
`h` alone, each of which asks again; a "=" may stand before the letters, but not without any. -/
def lettersStop (behind : List Char) : Stop :=
  let letters := match behind with
    | '=' :: letters => letters
    | letters => letters
  if letters.all (· == 'h') && behind != ['='] then .help else .usage

namespace Grammar

/-- The long option for help. -/
def helpOption : OptionSpec := { name := "--help", kind := .help }

/-- All long options of a grammar. -/
def allOptions (g : Grammar) : List OptionSpec := helpOption :: g.options

/-- The name and the value of an argument with "=" in it; without one there is no value. -/
def attachment (s : List Char) : List Char × Option String :=
  match s.dropWhile (· != '=') with
  | [] => (s, none)
  | _ :: value => (s.takeWhile (· != '='), some (String.ofList value))

/-- The options that an argument may mean, with its attached value: the one of its exact
name, or else all whose names begin with it. -/
def meanings (g : Grammar) (s : List Char) : List (OptionSpec × Option String) :=
  let (name, value) := attachment s
  let exact := g.allOptions.filter fun o => o.name.toList = name
  let longer := g.allOptions.filter fun o => name.isPrefixOf o.name.toList
  (if exact.isEmpty then longer else exact).map fun o => (o, value)

/-- The sort of an argument with a dash that means no option. -/
def unmatched (s : List Char) : TokenSort :=
  if looksNegative s || s.contains ' ' then .operand else .unknown

/-- The sort of an argument before any "--". -/
def classify (g : Grammar) (s : List Char) : Except Stop TokenSort :=
  match s with
  | '-' :: '-' :: _ =>
    match g.meanings s with
    | [] => .ok (unmatched s)
    | [(o, value)] => .ok (o.sort value)
    | _ => .error .usage
  | '-' :: 'h' :: rest => .ok (.halt (lettersStop rest))
  | '-' :: _ :: _ => .ok (unmatched s)
  | _ => .ok .operand

/-- The tokens of the arguments of a line. -/
def tokens (g : Grammar) : List String → Except Stop (List Token)
  | [] => .ok []
  | text :: rest =>
    if text = "--" then .ok (⟨text, .separator⟩ :: rest.map fun t => ⟨t, .operand⟩)
    else do
      let sort ← g.classify text.toList
      let later ← g.tokens rest
      .ok (⟨text, sort⟩ :: later)

end Grammar

/-! ### Filling operands -/

namespace OperandKind

/-- The tokens that an operand takes after its first one. -/
def takeMore (kind : OperandKind) (tokens : List Token) : List Token × List Token :=
  match kind with
  | .rest => (tokens, [])
  | .several => tokens.span Token.isArgument
  | _ => tokens.span Token.isSeparator

/-- The tokens that an operand takes from the front, as many as it can, and the others.  The
separator goes with the arguments beside it. -/
def take? (kind : OperandKind) (tokens : List Token) : Option (List Token × List Token) :=
  let (before, later) := tokens.span Token.isSeparator
  match later with
  | t :: later =>
    if t.isOperand then
      let (more, others) := kind.takeMore later
      some (before ++ t :: more, others)
    else if kind = .optional then some (before, t :: later)
    else none
  | [] => if kind = .optional then some (before, []) else none

end OperandKind

/-- The values that texts are: the first "--" among them is dropped. -/
def dropSeparator (texts : List String) : List String := texts.erase "--"

/-- The values of an operand.  Nothing is dropped if it takes the rest of the line. -/
def operandValues (spec : OperandSpec) (tokens : List Token) : List String :=
  let texts := tokens.map Token.text
  if spec.kind = .rest then texts else dropSeparator texts

/-- What was taken so far: the options and operands with their values in the order of
taking, the operands still to come, and the arguments that are left over. -/
structure Matches where
  taken : List (String × List String) := []
  pending : List OperandSpec
  leftOver : List String := []

namespace Matches

/-- The values of an option or operand, of several takings the last. -/
def values? (m : Matches) (name : String) : Option (List String) :=
  (m.taken.reverse.find? fun t => t.1 = name).map (·.2)

/-- The value of an option or operand. -/
def value? (m : Matches) (name : String) : Option String :=
  (m.values? name).bind List.head?

/-- Takes an option or operand with its values, if those looked at are right. -/
def take (m : Matches) (name : String) (accepts : String → Bool) (looked values : List String) :
    Except Stop Matches :=
  if looked.all accepts then .ok { m with taken := m.taken ++ [(name, values)] }
  else .error .usage

/-- Takes an operand with its tokens.  An operand without arguments leaves no trace. -/
def takeOperand (m : Matches) (spec : OperandSpec) (tokens : List Token) :
    Except Stop Matches :=
  let values := operandValues spec tokens
  if tokens.isEmpty then .ok m
  else m.take spec.name spec.accepts (if spec.kind = .rest then values.take 1 else values) values

/-- Takes an option with the values after it, and gives the tokens after those. -/
def takeOption (m : Matches) (spec : OptionSpec) (attached : Option String)
    (later : List Token) : Except Stop (Matches × List Token) :=
  let take := fun texts =>
    let values := dropSeparator texts
    m.take spec.name spec.accepts values values
  match spec.kind, attached with
  | .one, some v => (take [v]).map (·, later)
  | .many, some v => (take [v]).map (·, later)
  | .one, none =>
    match later with
    | t :: later => if t.isOperand then (take [t.text]).map (·, later) else .error .usage
    | [] => .error .usage
  | .many, none =>
    let (values, later) := later.span Token.isOperand
    (take (values.map Token.text)).map (·, later)
  | _, _ => (take []).map (·, later)

/-- Fills as many pending operands as possible, each with as many tokens as it can take;
`pending` are the operands to fill. -/
def fill (m : Matches) : List OperandSpec → List Token → Except Stop (Matches × List Token)
  | [], tokens => .ok ({ m with pending := [] }, tokens)
  | spec :: pending, tokens =>
    match spec.kind.take? tokens with
    | some (mine, later) => do
      let m ← m.takeOperand spec mine
      m.fill pending later
    | none => .ok ({ m with pending := spec :: pending }, tokens)

/-- Leaves arguments over. -/
def leave (m : Matches) (tokens : List Token) : Matches :=
  { m with leftOver := m.leftOver ++ tokens.map Token.text }

/-- Fills operands from the front of a line that still has an option in it.  Arguments for
which there is no operand are left over. -/
def stepOperands (m : Matches) (tokens : List Token) : Except Stop (Matches × List Token) := do
  let (m, later) ← m.fill m.pending tokens
  if later.length < tokens.length then .ok (m, later)
  else
    let (extra, later) := tokens.span Token.isArgument
    .ok (m.leave extra, later)

/-- One step from a line that still has an option in it. -/
def step (m : Matches) (t : Token) (later : List Token) : Except Stop (Matches × List Token) :=
  match t.sort with
  | .option spec attached => m.takeOption spec attached later
  | .halt stop => .error stop
  | .unknown => .ok (m.leave [t], later)
  | _ => m.stepOperands (t :: later)

/-- Takes all tokens.  Every step takes one at least, so that a `budget` greater than their
number is never used up. -/
def takeAll (m : Matches) (tokens : List Token) : Nat → Except Stop Matches
  | 0 => .ok (m.leave tokens)
  | budget + 1 =>
    if tokens.all Token.isArgument then do
      let (m, extra) ← m.fill m.pending tokens
      .ok (m.leave extra)
    else match tokens with
      | t :: later => do
        let (m, later) ← m.step t later
        m.takeAll later budget
      | [] => .ok m

end Matches

/-- Whether a command line may do without an operand. -/
def OperandSpec.isOptional (spec : OperandSpec) : Bool :=
  spec.kind = .optional

/-- What the arguments of a line mean.  An operand that is not there and is not optional
makes the line wrong. -/
def Grammar.read (g : Grammar) (line : List String) : Except Stop Matches := do
  let tokens ← g.tokens line
  let m ← Matches.takeAll { pending := g.operands } tokens (tokens.length + 1)
  if m.pending.all OperandSpec.isOptional then .ok m else .error .usage

end RrdCache
