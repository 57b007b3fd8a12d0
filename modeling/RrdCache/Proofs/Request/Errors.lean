/-
RrdCache/Proofs/Request/Errors.lean

How writing down fails.  A command, an update or a query that breaks a rule ends in a tame
error: the program expects it, and it shows every argument between quotation marks.  Creating
a database is left out here; the program does not do that.
-/
import RrdCache.Proofs.Error.Tame
import RrdCache.Request

namespace RrdCache

open Error (Tame)

variable {T : String → Prop}

/-! ### Fields -/

theorem tame_intField (i : Int) : FailsWith (Tame T) (intField i) :=
  tame_liftNumeral (NumeralError.isExpected_text i)

theorem Scalar.tame_field (v : Scalar) : FailsWith (Tame T) v.field := by
  cases v with
  | int i => exact tame_intField i
  | float x => exact failsWith_ok _
  | text s =>
    rw [field]
    split
    · exact failsWith_ok _
    · exact failsWith_error (.of_bare_nil rfl rfl)
  | null | bool _ | blank => exact failsWith_error (.of_bare_nil rfl rfl)

theorem tame_limitField (limit : Slot Int) : FailsWith (Tame T) (limitField limit) := by
  cases limit with
  | given i => exact tame_intField i
  | blank => exact failsWith_ok _

theorem Identifier.tame_ofString {role : String} (hrole : OneLine role) (value : String) :
    FailsWith (Tame T) (ofString role value) := by
  rw [ofString]
  split
  · exact failsWith_ok _
  · exact failsWith_error ⟨rfl, List.forall_mem_singleton.2 hrole.staysIn⟩

theorem Identifier.tame_ofPath (value : String) : FailsWith (Tame T) (ofPath value) :=
  tame_ofString (.ofList (by decide)) value

theorem tame_checkIdentifier {role : String} (hrole : OneLine role) (value : String) :
    FailsWith (Tame T) (checkIdentifier role value) :=
  (Identifier.tame_ofString hrole value).map _

theorem tame_checkDirectory (value : String) : FailsWith (Tame T) (checkDirectory value) :=
  failsWith_ite (failsWith_ok ()) (failsWith_ite (failsWith_error (.of_bare_nil rfl rfl))
    (failsWith_forM (tame_checkIdentifier (.ofList (by decide))) _))

/-! ### Requests -/

namespace Command

theorem tame_onFile (word path : String) : FailsWith (Tame T) (onFile word path) :=
  (Identifier.tame_ofPath path).bind fun _ => failsWith_ok _

/-- A command that breaks a rule has a tame error. -/
theorem tame_line (c : Command) : FailsWith (Tame T) c.line := by
  cases c with
  | flush path | pending path | forget path | last path | info path | suspend path
  | resume path => exact tame_onFile _ path
  | help topic =>
    cases topic with
    | none => exact failsWith_ok _
    | some topic =>
      exact (Identifier.tame_ofString (.ofList (by decide)) topic).bind fun _ => failsWith_ok _
  | first path archive =>
    refine failsWith_ite (failsWith_error (.showing (.of_bare_nil rfl rfl) _)) ?_
    refine (Identifier.tame_ofPath path).bind fun _ => ?_
    exact (tame_intField archive).bind fun _ => failsWith_ok _
  | list path recursive => exact (tame_checkDirectory path).bind fun _ => failsWith_ok _
  | ping | stats | queue | flushAll | suspendAll | resumeAll | quit | batch | batchEnd =>
    exact failsWith_ok _

end Command

namespace Point

theorem tame_checkTimestamp (v : Scalar) : FailsWith (Tame T) (checkTimestamp v) := by
  rw [checkTimestamp.eq_def]
  split
  · exact failsWith_ok _
  · exact failsWith_ok _
  · exact failsWith_error (.showing (.of_bare_nil rfl rfl) _)

/-- Parts that make no point have a tame error. -/
theorem tame_ofParts (path : String) (timestamp : Scalar) (values : List Scalar) :
    FailsWith (Tame T) (ofParts path timestamp values) := by
  rw [ofParts]
  split
  · exact failsWith_error (.of_bare_nil rfl rfl)
  · refine (tame_checkTimestamp timestamp).bind fun _ => ?_
    exact (Identifier.tame_ofPath path).bind fun _ => failsWith_ok _

/-- A point whose values cannot be written has a tame error. -/
theorem tame_line (p : Point) (time : Nat) : FailsWith (Tame T) (p.line time) := by
  have hvalues : FailsWith (Tame T) (valuesField p.values) :=
    (failsWith_mapM Scalar.tame_field).bind fun _ => failsWith_ok _
  exact hvalues.bind fun _ => (tame_intField _).bind fun _ => failsWith_ok _

end Point

namespace Query

theorem tame_function (q : Query) : FailsWith (Tame T) q.function := by
  rw [function]
  split
  · exact failsWith_ok _
  · exact failsWith_error (.showing (.of_bare_nil rfl rfl) _)

theorem tame_checkRange (q : Query) : FailsWith (Tame T) q.checkRange :=
  failsWith_ite (failsWith_error (.of_bare_nil rfl rfl))
    (failsWith_ite (failsWith_error (.of_bare_nil rfl rfl)) (failsWith_ok ()))

theorem tame_rangeFields (q : Query) : FailsWith (Tame T) q.rangeFields := by
  rw [rangeFields]
  split
  · exact failsWith_ok _
  · refine (tame_limitField _).bind fun _ => ?_
    split
    · exact failsWith_ok _
    · exact (tame_limitField _).bind fun _ => failsWith_ok _

/-- A query that breaks a rule has a tame error. -/
theorem tame_line (q : Query) : FailsWith (Tame T) q.line := by
  refine (Identifier.tame_ofPath _).bind fun _ => q.tame_function.bind fun _ => ?_
  refine q.tame_checkRange.bind fun _ => ?_
  refine (failsWith_forM (tame_checkIdentifier (.ofList (by decide))) _).bind fun _ => ?_
  exact q.tame_rangeFields.bind fun _ => failsWith_ok _

end Query

theorem Request.tame_command (c : Command) : FailsWith (Tame T) (Request.command c).line :=
  c.tame_line

theorem Request.tame_fetch (q : Query) : FailsWith (Tame T) (Request.fetch q).line :=
  q.tame_line

end RrdCache
