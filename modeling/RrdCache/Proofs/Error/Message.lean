/-
RrdCache/Proofs/Error/Message.lean

What errors say.  A message shows most of what it speaks of between quotation marks, and a
few texts as they are: what a daemon says in its status line, what a failure of the
surroundings says of itself, and words of the library.  `Error.bare` lists those texts.

Main result (`oneLine_message`): a message stays on one line if its bare texts do, whatever
else it shows.
-/
import RrdCache.CommandLine.Program
import RrdCache.Proofs.Text.OneLine

namespace RrdCache

namespace Error

/-- The texts that a message shows as they are. -/
def bare : Error → List String
  | identifier role _ _ => [role]
  | clock (.unavailable t) | clock (.unreadable t) => [t]
  | transport (.read t) | transport (.write t) | transport (.close t) => [t]
  | transport (.connect a t) => [a, t]
  | line (.unsigned what _) => [what]
  | refused _ message | rejected message _ => [message]
  | fault f => [f.text]
  | _ => []

end Error

/-! ### Messages of one line -/

theorem IdentifierProblem.oneLine_message (p : IdentifierProblem) : OneLine p.message := by
  cases p <;> exact .ofList (by decide)

theorem NumeralError.oneLine_message (cause : NumeralError) : OneLine cause.message := by
  cases cause with
  | tooManyDigits n =>
    exact (oneLine_spelling n).between (by decide) (by decide)
  | notWhole t =>
    -- the quoted text is cut off, and may have lost its last mark
    have hshown : OneLine (String.ofList ((quoted t).toList.take shownLength)) :=
      .ofList (Shape.IsText.subset (oneLine_quoted t) (List.take_subset _ _))
    exact hshown.after (by decide)
  | notNumber t => exact (oneLine_quoted t).after (by decide)
  | tooLarge => exact OneLine.append (.ofList (by decide)) (.ofList (by decide))
  | wholeOfNaN | wholeOfInfinity | beyondDoubles => exact .ofList (by decide)

theorem UpdateError.oneLine_message (cause : UpdateError) : OneLine cause.message := by
  cases cause with
  | noValues => exact .ofList (by decide)
  | timestamp v => exact v.oneLine_shown.after (by decide)
  | shape line => exact (oneLine_quoted line).after (by decide)
  | value token line =>
    exact ((oneLine_quoted token).after (by decide)).joined (by decide) (oneLine_quoted line)

theorem SeriesError.oneLine_message (cause : SeriesError) : OneLine cause.message := by
  cases cause with
  | kind v | consolidation v => exact v.oneLine_shown.after (by decide)
  | _ => exact .ofList (by decide)

theorem QueryError.oneLine_message (cause : QueryError) : OneLine cause.message := by
  cases cause with
  | consolidation v => exact v.oneLine_shown.after (by decide)
  | noStart | noEnd => exact .ofList (by decide)

theorem AddressError.oneLine_message (cause : AddressError) : OneLine cause.message := by
  cases cause with
  | empty => exact .ofList (by decide)
  | noPath t | unterminated t | trailing t | noHost t => exact (oneLine_quoted t).after (by decide)
  | port p t => exact ((oneLine_quoted p).after (by decide)).joined (by decide) (oneLine_quoted t)

theorem StatusError.oneLine_message (cause : StatusError) : OneLine cause.message := by
  cases cause with
  | shape line => exact (oneLine_quoted line).after (by decide)
  | notUtf8 bytes => exact ((oneLine_quotedBytes bytes).after (by decide)).after (by decide)

namespace Error

variable {e : Error}

theorem oneLine_clock {cause : ClockError} (h : ∀ t ∈ (clock cause).bare, OneLine t) :
    OneLine cause.message := by
  cases cause with
  | unavailable t => exact h t List.mem_cons_self
  | unreadable t => exact (h t List.mem_cons_self).after (by decide)
  | beforeEpoch => exact .ofList (by decide)
  | reading v => exact v.oneLine_shown.between (by decide) (by decide)

theorem oneLine_transport {cause : TransportError}
    (h : ∀ t ∈ (transport cause).bare, OneLine t) : OneLine cause.message := by
  cases cause with
  | read t | write t | close t => exact (h t List.mem_cons_self).after (by decide)
  | connect a t =>
    exact ((h a List.mem_cons_self).after (by decide)).joined (by decide)
      (h t (List.mem_cons_of_mem _ List.mem_cons_self))

theorem oneLine_line {cause : LineError} (h : ∀ t ∈ (line cause).bare, OneLine t) :
    OneLine cause.message := by
  cases cause with
  | notUtf8 bytes => exact (oneLine_quotedBytes bytes).after (by decide)
  | queue s | stats s | timestamp s | header s | row s => exact (oneLine_quoted s).after (by decide)
  | unsigned what value =>
    exact ((h what List.mem_cons_self).after (by decide)).joined (by decide)
      (oneLine_quoted value)

/-- A message stays on one line if the texts do which it shows as they are. -/
theorem oneLine_message (h : ∀ t ∈ e.bare, OneLine t) : OneLine e.message := by
  cases e with
  | identifier role value problem =>
    exact ((h role List.mem_cons_self).joined (by decide) (oneLine_quoted value)).joined (by decide)
      problem.oneLine_message
  | directory value => exact (oneLine_quoted value).between (by decide) (by decide)
  | notANumber v => exact v.oneLine_shown.after (by decide)
  | archiveIndex i => exact (oneLine_spelling i).after (by decide)
  | update cause => exact cause.oneLine_message
  | series cause => exact cause.oneLine_message
  | query cause => exact cause.oneLine_message
  | clock cause => exact oneLine_clock h
  | transport cause => exact oneLine_transport h
  | truncated n => exact (oneLine_spelling n).between (by decide) (by decide)
  | status cause => exact cause.oneLine_message
  | line cause => exact oneLine_line h
  | refused code message =>
    exact ((oneLine_spelling code).after (by decide)).joined (by decide)
      (h message List.mem_cons_self)
  | unexpected message expected =>
    exact ((oneLine_quoted expected).after (by decide)).joined (by decide)
      (oneLine_quoted message)
  | rejected message errors =>
    refine OneLine.before ?_ (by decide)
    exact (h message List.mem_cons_self).joined (by decide) (oneLine_spelling errors.length)
  | numeral cause => exact cause.oneLine_message
  | address cause => exact cause.oneLine_message
  | blank cause => cases cause <;> exact .ofList (by decide)
  | fault f => exact h f.text List.mem_cons_self

end Error

end RrdCache
