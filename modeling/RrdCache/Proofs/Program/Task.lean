/-
RrdCache/Proofs/Program/Task.lean

How the tasks of the program behave.  A task is one call, and each of these writes one line
down, sends it, and looks at the reply.  In surroundings of the system all that a task does is
tame, and so are the errors that it ends with, but for those of the clock; there is one
exception, an archive that was left blank.

Main result (`Task.behaves_dialogue`), and from it the same for all that the program does
with a daemon (`Invocation.behaves_dialogue`).
-/
import RrdCache.Proofs.Address.Parts
import RrdCache.Proofs.Client.Errors
import RrdCache.Proofs.Program.Surroundings
import RrdCache.Proofs.Request.Errors

namespace RrdCache

open Dialogue
open Error (OfExchange Tame)

/-! ### Addresses and blanks -/

/-- The error of a task that the program does not expect: an archive was left blank. -/
def Task.IsBlankArchive (t : Task) (e : Error) : Prop :=
  e = .blank .archive ∧ ∃ path, t = .first path .blank

namespace Invocation

/-- The errors that the program does not expect: a level or an archive was left blank. -/
def IsBlank (i : Invocation) (e : Error) : Prop :=
  (i.level = .blank ∧ e = .blank .level) ∨ i.task.IsBlankArchive e

/-- The text that spells the address of the daemon. -/
def addressText (i : Invocation) (setting : Option String) : String :=
  match i.address with
  | none => Address.defaultText setting
  | some text => if text = "" then Address.defaultText setting else text

theorem daemon_eq (i : Invocation) (setting : Option String) :
    i.daemon setting = Address.ofText (i.addressText setting) := by
  rcases h : i.address with - | text
  · simp only [daemon, addressText, h]
    rfl
  · simp only [daemon, addressText, h]
    split <;> rfl

/-- The address of the daemon always has a text, which breaks the line only if its spelling
does. -/
theorem text_daemon {i : Invocation} {setting : Option String} {a : Address}
    (h : i.daemon setting = .ok a) :
    ∃ t, a.text = .ok t ∧ (OneLine (i.addressText setting) → OneLine t) := by
  rw [daemon_eq] at h
  exact (Address.ofText_parts h).text

end Invocation

section Behaviour

-- `T` holds the texts that the surroundings tell, and `R` the tame errors and the clock's
variable {T : String → Prop} {R : Error → Prop} {α : Type}

/-- An exchange does not look at the clock. -/
theorem Dialogue.Exchanges.behaves {raises : Error → Prop} {gives : α → Prop} {d : Dialogue α}
    (hd : d.Exchanges T gives) (hraises : ∀ e, e.Tame T → raises e) :
    d.Behaves T R raises gives :=
  hd.mono (fun _ he => he.tellsFault) (fun e he => hraises e he.toTame) fun _ ha => ha

variable (hR : ∀ e, e.Tame T → R e)

include hR

/-! ### Writing down -/

theorem Reading.IsWhole.failsWith_seconds {r : Reading} (h : r.IsWhole R) :
    FailsWith R r.seconds := by
  cases r with
  | error e => exact failsWith_error h
  | ok v =>
    rw [seconds]
    split
    · exact failsWith_ok _
    · exact failsWith_error (hR _ (.showing (.of_bare_nil rfl rfl) v))

theorem Client.behaves_updateLine (p : Point) :
    (updateLine p).Behaves T R R fun _ => True := by
  have htime : (timeOf p).Behaves T R R fun _ => True := by
    rw [timeOf]
    split
    · exact Ensures.pure trivial
    · apply Ensures.bind (.perform trivial)
      intro reading (hreading : reading.IsWhole R)
      exact .ofExcept (endsIn_of_failsWith (hreading.failsWith_seconds hR))
  exact htime.bind fun time _ =>
    .ofExcept (endsIn_of_failsWith fun e he => hR e (p.tame_line time e he))

/-! ### Tasks -/

namespace Task

/-- A call that writes its lines down in a tame way ends in a tame way. -/
theorem behaves_call {c : Call} (h : c.course.encode.Behaves T R R fun _ => True) :
    c.dialogue.Behaves T R R fun _ => True := by
  rw [Call.dialogue_phases]
  apply h.bind
  intro lines _
  exact (c.course.exchanges_sending lines fun _ hr => c.exchange_decode hr).behaves hR

/-- A request that is written down in a tame way. -/
theorem behaves_request {r : Request} (h : FailsWith (Tame T) r.line)
    (decode : Reply → Except Error Outcome) :
    (Course.order r decode).encode.Behaves T R R fun _ => True :=
  Ensures.map (.ofExcept (endsIn_of_failsWith fun e he => hR e (h e he))) fun _ _ => trivial

/-- What a task asks of the client is written down in a tame way. -/
theorem behaves_encode {t : Task} {c : Call} (h : t.call = .ok c) :
    c.course.encode.Behaves T R R fun _ => True := by
  cases t with
  | ping | stats | queue | flushAll | last _ | info _ | pending _ | flush _ | list _ _ =>
    obtain rfl := Except.ok.inj h
    exact behaves_request hR (Request.tame_command _) _
  | first path archive =>
    cases archive with
    | given i =>
      obtain rfl := Except.ok.inj h
      exact behaves_request hR (Request.tame_command _) _
    | blank => cases h
  | update path timestamp values =>
    obtain rfl := Except.ok.inj h
    have hpoint := (endsIn_of_failsWith (Point.tame_ofParts (T := T) path
      ((timestamp.map Slot.toScalar).getD .null) (values.map .float))).mono hR
    exact (Ensures.bind (.ofExcept hpoint) fun p _ => Client.behaves_updateLine hR p).map
      fun _ _ => trivial
  | fetch path consolidation start finish columns =>
    cases consolidation with
    | given f =>
      obtain rfl := Except.ok.inj h
      exact behaves_request hR (Request.tame_fetch _) _
    | blank => cases h

/-- A task that is no call has a blank value. -/
theorem endsIn_call (t : Task) :
    EndsIn (fun e => R e ∨ t.IsBlankArchive e) (fun c => t.call = .ok c) t.call := by
  rcases h : t.call with e | c
  · cases t with
    | first path archive =>
      cases archive with
      | given i => cases h
      | blank =>
        obtain rfl := Except.error.inj h
        exact .inr ⟨rfl, path, rfl⟩
    | fetch path consolidation start finish columns =>
      cases consolidation with
      | given f => cases h
      | blank =>
        obtain rfl := Except.error.inj h
        exact .inl (hR _ (.of_bare_nil rfl rfl))
    | ping | stats | queue | flushAll | last _ | info _ | pending _ | flush _ | list _ _
    | update _ _ _ => cases h
  · rfl

/-- Whatever comes of a task, it ends in a tame way, unless its archive was left blank. -/
theorem behaves_dialogue (t : Task) :
    t.dialogue.Behaves T R (fun e => R e ∨ t.IsBlankArchive e)
      fun o => ∃ outcome, o = Outcome.output t.doneText outcome := by
  apply Ensures.bind (.ofExcept (t.endsIn_call hR))
  intro c hc
  have hcall : c.dialogue.Behaves T R (fun e => R e ∨ t.IsBlankArchive e) fun _ => True :=
    (behaves_call hR (behaves_encode hR hc)).mono (fun _ h => h) (fun _ h => .inl h) fun _ h => h
  exact hcall.map fun outcome _ => ⟨outcome, rfl⟩

end Task

/-! ### The program -/

namespace Invocation

/-- Whatever comes of the program, it ends in a tame way, unless a value was left blank. -/
theorem behaves_dialogue {i : Invocation} {setting : Option String}
    (hshown : StaysIn T (i.addressText setting)) :
    (i.dialogue setting).Behaves T R (fun e => R e ∨ i.IsBlank e)
      fun o => ∃ outcome, o = Outcome.output i.task.doneText outcome := by
  have hlevel : EndsIn (fun e => R e ∨ i.IsBlank e) (fun _ => True) (i.level.value .level) := by
    rcases hblank : i.level with l | -
    · trivial
    · exact .inr (.inl ⟨hblank, rfl⟩)
  have hdaemon : EndsIn (fun e => R e ∨ i.IsBlank e) (fun a => i.daemon setting = .ok a)
      (i.daemon setting) := by
    rcases h : i.daemon setting with e | a
    · rw [daemon_eq] at h
      exact .inl (hR e (Client.exchange_ofText _ e h).toTame)
    · rfl
  have htask : i.task.dialogue.Behaves T R (fun e => R e ∨ i.IsBlank e)
      fun o => ∃ outcome, o = Outcome.output i.task.doneText outcome :=
    (i.task.behaves_dialogue hR).mono (fun _ h => h) (fun _ h => h.imp id .inr) fun _ h => h
  apply Ensures.bind (.ofExcept hlevel)
  intro _ _
  apply Ensures.bind (.ofExcept hdaemon)
  intro a ha
  have hconnect : (Client.connect a).Exchanges T fun _ => True := by
    apply Client.exchanges_connect
    intro t ht hT
    obtain ⟨t', ht', hline⟩ := text_daemon ha
    obtain rfl := Except.ok.inj (ht.symm.trans ht')
    exact hline (hshown hT)
  have hclose : Client.close.Exchanges T fun _ => True := Client.exchanges_close
  have hraises (e : Error) (he : e.Tame T) : R e ∨ i.IsBlank e := .inl (hR e he)
  apply (hconnect.behaves hraises).bind
  intro _ _
  apply htask.andThen
  intro r hr
  exact (hclose.behaves hraises).bind fun _ _ => .ofExcept hr

end Invocation

end Behaviour

end RrdCache
