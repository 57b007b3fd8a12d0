/-
RrdCache/Proofs/Reply/Errors.lean

How reading fails.  Whatever a daemon sends, a line that is not understood ends in an error
of the exchange: the program expects it, it shows the line between quotation marks only, and
it blames no request.  There is one lemma for each reader of lines.
-/
import RrdCache.Proofs.Client.Phases
import RrdCache.Proofs.Error.Tame

namespace RrdCache

open Error (OfExchange Tame)
open NumeralError (isExpected_value isExpected_signedValue isExpected_double)

variable {T : String → Prop}

theorem Status.exchange_ofLine (line : String) : FailsWith (OfExchange T) (ofLine line) := by
  rw [ofLine]
  split
  · exact failsWith_error ⟨.of_bare_nil rfl rfl, rfl⟩
  · exact (exchange_liftNumeral (isExpected_signedValue _)).bind fun _ => failsWith_ok _

theorem QueueEntry.exchange_ofLine (line : String) : FailsWith (OfExchange T) (ofLine line) := by
  rw [ofLine]
  split
  · exact failsWith_error ⟨.of_bare_nil rfl rfl, rfl⟩
  · exact (exchange_liftNumeral (isExpected_value _)).bind fun _ => failsWith_ok _

theorem Statistic.exchange_ofLine (line : String) : FailsWith (OfExchange T) (ofLine line) := by
  rw [ofLine]
  split
  · exact failsWith_error ⟨.of_bare_nil rfl rfl, rfl⟩
  · exact (exchange_liftNumeral (isExpected_signedValue _)).bind fun _ => failsWith_ok _

theorem exchange_readUnsigned {e : Error} (he : e.OfExchange T) (value : String) :
    FailsWith (OfExchange T) (readUnsigned e value) :=
  failsWith_ite (exchange_liftNumeral (isExpected_value _)) (failsWith_error he)

theorem Row.exchange_ofLine (line : String) : FailsWith (OfExchange T) (ofLine line) := by
  rw [ofLine]
  split
  · exact failsWith_error ⟨.of_bare_nil rfl rfl, rfl⟩
  · refine (exchange_liftNumeral (isExpected_value _)).bind fun _ => ?_
    have htokens (t : List Char) : FailsWith (OfExchange T) (liftNumeral (Binary64.ofText t)) :=
      exchange_liftNumeral (isExpected_double t)
    exact (failsWith_mapM htokens).bind fun _ => failsWith_ok _

namespace Table

/-- The error of a header's value names the header. -/
theorem exchange_put (t : Table) (key : HeaderKey) (value : String) :
    FailsWith (OfExchange T) (t.put key value) := by
  have hcount : FailsWith (OfExchange T) (readCount key.word value) := by
    refine exchange_readUnsigned ⟨⟨rfl, ?_⟩, rfl⟩ value
    intro s hs
    obtain rfl := List.mem_singleton.1 hs
    cases key <;> exact OneLine.staysIn (by decide)
  cases key with
  | sourceNames => exact failsWith_ok _
  | flushVersion | start | finish | step | sourceCount =>
    exact hcount.bind fun _ => failsWith_ok _

theorem exchange_readHeaders (t : Table) (lines : List String) :
    FailsWith (OfExchange T) (t.readHeaders lines) := by
  induction lines generalizing t with
  | nil => exact failsWith_ok _
  | cons line lines ih =>
    rw [readHeaders]
    split
    · exact (exchange_put _ _ _).bind fun t' => ih t'
    · exact failsWith_ok _

theorem exchange_ofLines (lines : List String) : FailsWith (OfExchange T) (ofLines lines) := by
  refine (exchange_readHeaders {} lines).bind fun _ => ?_
  exact (failsWith_mapM Row.exchange_ofLine).bind fun _ => failsWith_ok _

end Table

theorem Reply.exchange_expected (message : String) (r : Reply) :
    FailsWith (OfExchange T) (r.expected message) :=
  failsWith_ite (failsWith_ok _) (failsWith_error ⟨.of_bare_nil rfl rfl, rfl⟩)

end RrdCache
