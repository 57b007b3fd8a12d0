/-
RrdCache/Proofs/Reply/Wire.lean

Replies on the wire.  A `WireReply` is a well-formed reply with all the freedom that the
format leaves: a sign, up to 4300 digits, a gap of any length, a message, and as many
further lines of text as the number says.  `WireReply.bytes` is what the daemon sends.

Main result (`run_readReply`): where no fault strikes, the client reads a well-formed reply
to its last byte and no further, whether the reply accepts the request or refuses it.
-/
import RrdCache.Client.Exchange
import RrdCache.Proofs.Dialogue.Alike
import RrdCache.Proofs.Number.Reading
import RrdCache.Proofs.Result
import RrdCache.Proofs.Text.Scan
import RrdCache.Proofs.Text.Utf8

namespace RrdCache

/-- The number that a sign and digits stand for. -/
def statusCode (sign digits : List Char) : Int :=
  Numeral.signed (sign = ['-']) (Numeral.natOfDigits digits)

/-- A sign in front of digits is split off. -/
theorem Numeral.sign_append_digits {sign digits : List Char}
    (hsign : sign = [] ∨ sign = ['+'] ∨ sign = ['-'])
    (hne : digits ≠ []) (hdigits : ∀ c ∈ digits, c.isDigit) :
    Numeral.sign (sign ++ digits) = (decide (sign = ['-']), digits) := by
  obtain ⟨c, digits, rfl⟩ := List.exists_cons_of_ne_nil hne
  have hc := hdigits c List.mem_cons_self
  exact sign_signed hsign (sign_of_isDecimalStart (by simp [isDecimalStart, hc]) digits)

/-- Digits after a sign are converted if they are not too many. -/
theorem Numeral.signedValue_eq_ok_iff {sign digits : List Char} {n : Int}
    (hsign : sign = [] ∨ sign = ['+'] ∨ sign = ['-'])
    (hdigits : digits ≠ [] ∧ ∀ c ∈ digits, c.isDigit) :
    signedValue (sign ++ digits) = .ok n ↔
      digits.length ≤ digitLimit ∧ statusCode sign digits = n := by
  rw [signedValue, sign_append_digits hsign hdigits.1 hdigits.2, statusCode]
  change (signed (sign = ['-']) <$> value digits) = .ok n ↔ _
  simp only [Result.map_eq_ok, value_eq_ok_iff]
  constructor
  · rintro ⟨m, ⟨hlength, rfl⟩, h⟩
    exact ⟨hlength, h⟩
  · rintro ⟨hlength, h⟩
    exact ⟨_, ⟨hlength, rfl⟩, h⟩

/-- A well-formed reply. -/
structure WireReply where
  sign : List Char
  digits : List Char
  gap : List Char
  message : List Char
  /-- The lines after the status line, without their line feeds. -/
  body : List (List Char)
  sign_cases : sign = [] ∨ sign = ['+'] ∨ sign = ['-']
  digits_ne_nil : digits ≠ []
  digits_isDigit : ∀ c ∈ digits, c.isDigit
  digits_length : digits.length ≤ Numeral.digitLimit
  gap_ne_nil : gap ≠ []
  gap_isGap : ∀ c ∈ gap, isGap c
  message_isText : Shape.IsText message
  body_lines : ∀ line ∈ body, '\n' ∉ line
  /-- A refusal has no further lines, and an acceptance has as many as it says. -/
  body_length : body.length = (statusCode sign digits).toNat

/-- The bytes of a line: its characters and a line feed. -/
def lineBytes (line : List Char) : List UInt8 :=
  utf8 line ++ [10]

namespace WireReply

/-- The number in front of a reply. -/
def code (r : WireReply) : Int := statusCode r.sign r.digits

/-- The characters of the status line before its line feed. -/
def status (r : WireReply) : List Char := r.sign ++ r.digits ++ r.gap ++ r.message

/-- The bytes of a reply. -/
def bytes (r : WireReply) : List UInt8 :=
  lineBytes r.status ++ r.body.flatMap lineBytes

/-- The bytes of replies, one after the other. -/
def stream (replies : List WireReply) : List UInt8 :=
  replies.flatMap bytes

@[simp] theorem stream_nil : stream [] = [] := rfl

@[simp] theorem stream_cons (r : WireReply) (replies : List WireReply) :
    stream (r :: replies) = r.bytes ++ stream replies := rfl

@[simp] theorem stream_append (rs replies : List WireReply) :
    stream (rs ++ replies) = stream rs ++ stream replies :=
  List.flatMap_append

/-- The message of a reply as it is read: the gap takes the blanks at its front along. -/
def text (r : WireReply) : String := String.ofList (r.message.dropWhile isGap)

/-- The lines of a reply as they are read, line feeds included. -/
def lines (r : WireReply) : List String :=
  r.body.map fun line => String.ofList (line ++ ['\n'])

/-- What a client makes of a reply. -/
def answer (r : WireReply) : Except Error Reply :=
  if r.code < 0 then .error (.refused r.code r.text) else .ok ⟨r.text, r.lines⟩

end WireReply

/-- A status line is taken apart into its number and its message; the gap takes the blanks at
the front of the message along. -/
theorem Status.split?_append {sign digits gap message : List Char}
    (hsign : sign = [] ∨ sign = ['+'] ∨ sign = ['-'])
    (hdigits : digits ≠ [] ∧ ∀ c ∈ digits, c.isDigit) (hgap : gap ≠ [] ∧ ∀ c ∈ gap, isGap c)
    (hmessage : Shape.IsText message) :
    split? (sign ++ digits ++ gap ++ message ++ ['\n'])
      = some (sign ++ digits, message.dropWhile isGap) := by
  -- the number ends at the gap; the gap ends where the message begins, without the blanks that
  -- the message may begin with
  have hends : Scan.Ends Char.isDigit (gap ++ message ++ ['\n']) := by
    rw [List.append_assoc]
    exact Shape.ends_isDigit_append hgap.1 hgap.2
  have hnumber := Shape.signedDigits?_append hsign hdigits.1 hdigits.2 hends
  have hrest := Shape.gap?_append hgap.1 hgap.2 (message ++ ['\n'])
  have hdrop : (message ++ ['\n']).dropWhile isGap = message.dropWhile isGap ++ ['\n'] := by
    rw [List.dropWhile_append]
    split
    · rename_i hempty
      simp [List.isEmpty_iff.1 hempty, isGap]
    · rfl
  have htext : Shape.text? (message.dropWhile isGap ++ ['\n'])
      = some (message.dropWhile isGap) :=
    Shape.text?_eq_some_iff.2
      ⟨rfl, fun c hc => hmessage c (List.dropWhile_sublist _ |>.subset hc)⟩
  simp only [List.append_assoc] at hnumber hrest ⊢
  simp only [split?, hnumber, hrest, hdrop, htext, Option.bind_eq_bind, Option.bind_some]

/-! ### Lines without faults -/

theorem lineBytes_eq (line : List Char) : lineBytes line = utf8 (line ++ ['\n']) := by
  rw [lineBytes, utf8_append, utf8_lf]

theorem lineOfBytes_lineBytes (line : List Char) :
    lineOfBytes (lineBytes line) = .ok (String.ofList (line ++ ['\n'])) := by
  have hend : (lineBytes line).getLast? = some 10 := by simp [lineBytes]
  rw [lineOfBytes, if_neg (not_not.2 hend), lineBytes_eq, decodeUtf8?_utf8]

namespace Client

open Dialogue

variable {w : World} {rest : List UInt8}

theorem run_readLine (hw : w.faults = []) {line : List Char} (hline : '\n' ∉ line)
    (hin : w.incoming = lineBytes line ++ rest) :
    readLine.run w =
      (.ok (String.ofList (line ++ ['\n'])), (w.counted .read).withIncoming rest) := by
  have hcut : cutLine w.incoming = (lineBytes line, rest) := by
    rw [hin, lineBytes, List.append_assoc]
    exact cutLine_line (mt lf_mem_utf8.1 hline) rest
  have hanswer := World.answer_readLine_of_none (World.planned?_of_calm hw .read _)
  rw [readLine, run_bind, run_perform, hanswer, hcut]
  simp only [run_bind, run_attempt, Except.mapError, run_ofExcept, lineOfBytes_lineBytes]

/-- Lines are read one by one. -/
theorem run_readLines (hw : w.faults = []) {lines : List (List Char)}
    (hlines : ∀ line ∈ lines, '\n' ∉ line)
    (hin : w.incoming = lines.flatMap lineBytes ++ rest) :
    ((readLines lines.length).run w).1 = .ok (lines.map fun l => String.ofList (l ++ ['\n'])) ∧
      ((readLines lines.length).run w).2.incoming = rest := by
  induction lines generalizing w with
  | nil => exact ⟨rfl, hin⟩
  | cons line lines ih =>
    obtain ⟨hline, hlater⟩ := List.forall_mem_cons.1 hlines
    rw [List.flatMap_cons, List.append_assoc] at hin
    have hread := run_readLine hw hline hin
    obtain ⟨hresult, hrest⟩ :=
      ih (w := (w.counted .read).withIncoming (lines.flatMap lineBytes ++ rest)) hw hlater rfl
    rw [List.length_cons, readLines, run_bind, hread]
    simp only [run_bind, hresult]
    exact ⟨rfl, hrest⟩

/-! ### Status lines -/

theorem split?_status (r : WireReply) :
    Status.split? (r.status ++ ['\n'])
      = some (r.sign ++ r.digits, r.message.dropWhile isGap) :=
  Status.split?_append r.sign_cases ⟨r.digits_ne_nil, r.digits_isDigit⟩
    ⟨r.gap_ne_nil, r.gap_isGap⟩ r.message_isText

theorem signedValue_status (r : WireReply) :
    Numeral.signedValue (r.sign ++ r.digits) = .ok r.code := by
  have hvalue : Numeral.value r.digits = .ok (Numeral.natOfDigits r.digits) := by
    rw [Numeral.value, if_neg (Nat.not_lt.2 r.digits_length)]
  rw [Numeral.signedValue, Numeral.sign_append_digits r.sign_cases r.digits_ne_nil r.digits_isDigit]
  simp only [hvalue]
  rfl

/-- A well-formed status line states the number and the message that it was made of. -/
theorem ofLine_status (r : WireReply) :
    Status.ofLine (String.ofList (r.status ++ ['\n'])) = .ok (Status.ofCode r.code r.text) := by
  rw [Status.ofLine, String.toList_ofList, split?_status]
  simp only [signedValue_status]
  rfl

theorem status_no_lf (r : WireReply) : '\n' ∉ r.status := by
  intro h
  simp only [WireReply.status, List.mem_append] at h
  rcases h with ((h | h) | h) | h
  · rcases r.sign_cases with hs | hs | hs <;> rw [hs] at h <;> exact absurd h (by decide)
  · exact absurd (r.digits_isDigit _ h) (by decide)
  · exact absurd (r.gap_isGap _ h) (by decide)
  · exact (r.message_isText _ h).2 rfl

/-! ### Whole replies -/

/-- A refusal has no further lines. -/
theorem WireReply.body_of_refusal {r : WireReply} (h : r.code < 0) : r.body = [] := by
  have hlength := r.body_length
  rw [← WireReply.code, Int.toNat_of_nonpos (Int.le_of_lt h)] at hlength
  exact List.length_eq_zero_iff.1 hlength

/-- The status line of a well-formed reply is read, and the lines after it are still to come. -/
theorem run_readStatus (r : WireReply) (hw : w.faults = []) (hin : w.incoming = r.bytes ++ rest) :
    (readStatus.run w).1
        = (if r.code < 0 then .error (.refused r.code r.text) else .ok (r.text, r.body.length)) ∧
      (readStatus.run w).2.faults = [] ∧
      (readStatus.run w).2.incoming = r.body.flatMap lineBytes ++ rest := by
  rw [WireReply.bytes, List.append_assoc] at hin
  have hread := run_readLine hw (status_no_lf r) hin
  by_cases hcode : r.code < 0
  · have hstatus : Status.ofCode r.code r.text = .refused r.code r.text := by
      rw [Status.ofCode, if_pos hcode]
    simp only [readStatus, run_bind, run_andThen, hread, run_ofExcept, ofLine_status, hstatus,
      run_record, run_fail, if_pos hcode]
    exact ⟨trivial, hw, rfl⟩
  · have hstatus : Status.ofCode r.code r.text = .accepted r.text r.body.length := by
      rw [Status.ofCode, if_neg hcode, r.body_length, WireReply.code]
    simp only [readStatus, run_bind, run_andThen, hread, run_ofExcept, ofLine_status, hstatus,
      run_record, pure_eq, run_done, if_neg hcode]
    exact ⟨trivial, hw, rfl⟩

/-- A well-formed reply is read to its last byte, and no further. -/
theorem run_readReply (r : WireReply) (hw : w.faults = []) (hin : w.incoming = r.bytes ++ rest) :
    (readReply.run w).1 = r.answer ∧ (readReply.run w).2.incoming = rest := by
  obtain ⟨hstatus, hcalm, hbody⟩ := run_readStatus r hw hin
  rw [readReply, WireReply.answer]
  by_cases hcode : r.code < 0
  · rw [if_pos hcode] at hstatus ⊢
    rw [run_bind_error hstatus, hbody, WireReply.body_of_refusal hcode]
    exact ⟨rfl, rfl⟩
  · rw [if_neg hcode] at hstatus ⊢
    rw [run_bind_ok hstatus]
    obtain ⟨hlines, hrest⟩ := run_readLines hcalm r.body_lines hbody
    dsimp only
    rw [run_bind_ok hlines]
    exact ⟨rfl, hrest⟩

end Client

end RrdCache
