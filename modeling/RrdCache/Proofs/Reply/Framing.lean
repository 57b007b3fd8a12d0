/-
RrdCache/Proofs/Reply/Framing.lean

Reading a reply is exact on all bytes.  What a daemon sends is cut into pieces, each of which
ends with a line feed, but for the last one, which may lack it.  A client that reads gets one
piece after the other, and an empty one when none are left.

`World.afterReads` is the world after a number of pieces were asked for, and one lemma says
what reading a line gives there.  From this follows what reading many lines gives: all of
them, if the pieces are lines of text, and otherwise the error of the first piece that is
none, which is the last one that is asked for.

Main result (`readReply_exact`): whatever bytes are coming, `ReadsExactly` says how a reply is
read from them, case by case, with the number of pieces that are asked for and the bytes that
are left.
-/
import RrdCache.Proofs.Dialogue.Frame
import RrdCache.Proofs.Reply.Grammar

namespace RrdCache

open Dialogue

/-! ### Pieces -/

/-- Bytes in pieces, cut after each line feed. -/
def pieces : List UInt8 → List (List UInt8)
  | [] => []
  | b :: rest =>
    if b = 10 then [b] :: pieces rest
    else match pieces rest with
      | [] => [[b]]
      | piece :: later => (b :: piece) :: later

/-- Nothing is lost between the pieces. -/
@[simp] theorem flatten_pieces (bytes : List UInt8) : (pieces bytes).flatten = bytes := by
  induction bytes with
  | nil => rfl
  | cons b rest ih =>
    rw [pieces]
    split
    · exact congrArg (b :: ·) ih
    · rcases hrest : pieces rest with - | ⟨piece, later⟩
      · rw [hrest] at ih
        rw [← ih]
        rfl
      · rw [hrest] at ih
        exact congrArg (b :: ·) ih

/-- The first piece is the first line that can be cut off. -/
theorem pieces_eq_cons {bytes : List UInt8} (h : bytes ≠ []) :
    pieces bytes = (cutLine bytes).1 :: pieces (cutLine bytes).2 := by
  induction bytes with
  | nil => exact absurd rfl h
  | cons b rest ih =>
    rw [pieces, cutLine]
    split
    · rfl
    · rcases hrest : rest with - | ⟨c, rest'⟩
      · rfl
      · rw [← hrest, ih (by simp [hrest])]

theorem getD_zero_pieces (bytes : List UInt8) :
    (pieces bytes).getD 0 [] = (cutLine bytes).1 := by
  rcases hbytes : bytes with - | ⟨b, rest⟩
  · rfl
  · rw [pieces_eq_cons (List.cons_ne_nil _ _), List.getD_cons_zero]

theorem pieces_cutLine (bytes : List UInt8) :
    pieces (cutLine bytes).2 = (pieces bytes).tail := by
  rcases hbytes : bytes with - | ⟨b, rest⟩
  · rfl
  · rw [pieces_eq_cons (List.cons_ne_nil _ _), List.tail_cons]

/-- Pieces that are left are the pieces of what they hold. -/
theorem pieces_flatten_drop (bytes : List UInt8) (n : Nat) :
    pieces ((pieces bytes).drop n).flatten = (pieces bytes).drop n := by
  induction n with
  | zero => rw [List.drop_zero, flatten_pieces]
  | succ n ih =>
    rw [← List.tail_drop, ← ih, ← pieces_cutLine, flatten_pieces]

/-- The piece in a place among those that are left. -/
theorem getD_pieces_drop (bytes : List UInt8) (m n : Nat) :
    (pieces ((pieces bytes).drop m).flatten).getD n [] = (pieces bytes).getD (m + n) [] := by
  simp only [pieces_flatten_drop, List.getD_eq_getElem?_getD, List.getElem?_drop]

/-- The first pieces are these lines, each with its line feed. -/
def BeginsWith (bytes : List UInt8) (lines : List (List Char)) : Prop :=
  (pieces bytes).take lines.length = lines.map lineBytes

theorem beginsWith_cons {bytes : List UInt8} {line : List Char} {lines : List (List Char)} :
    BeginsWith bytes (line :: lines) ↔
      (pieces bytes).getD 0 [] = lineBytes line ∧
        BeginsWith ((pieces bytes).drop 1).flatten lines := by
  rw [BeginsWith, BeginsWith, pieces_flatten_drop]
  rcases pieces bytes with - | ⟨piece, later⟩
  · simp [lineBytes]
  · simp

/-- Lines at the front are bytes at the front. -/
theorem BeginsWith.eq_append {bytes : List UInt8} {lines : List (List Char)}
    (h : BeginsWith bytes lines) :
    bytes = lines.flatMap lineBytes ++ ((pieces bytes).drop lines.length).flatten := by
  rw [List.flatMap_def, ← h, ← List.flatten_append, List.take_append_drop, flatten_pieces]

theorem flatMap_lineBytes (lines : List (List Char)) :
    lines.flatMap lineBytes = utf8 (lines.flatMap fun line => line ++ ['\n']) := by
  rw [utf8, List.flatMap_assoc]
  exact List.flatMap_congr fun line _ => lineBytes_eq line

/-- Each line has a line feed. -/
theorem length_le_count_lf (lines : List (List Char)) :
    lines.length ≤ (lines.flatMap lineBytes).count 10 := by
  induction lines with
  | nil => exact Nat.zero_le _
  | cons line lines ih =>
    have hline : 1 ≤ (lineBytes line).count 10 := by simp [lineBytes]
    rw [List.flatMap_cons, List.count_append, List.length_cons]
    omega

theorem BeginsWith.length_le {bytes : List UInt8} {lines : List (List Char)}
    (h : BeginsWith bytes lines) : lines.length ≤ bytes.count 10 :=
  calc lines.length ≤ (lines.flatMap lineBytes).count 10 := length_le_count_lf lines
    _ ≤ bytes.count 10 := by
      rw [h.eq_append, List.count_append]
      exact Nat.le_add_right _ _

/-! ### Bytes that are no line -/

/-- Why a piece is no line of text: it is missing or broken off, or it is not UTF-8, which is
an error of its own.  A missing piece is an empty one. -/
inductive NoLine (notUtf8 : List UInt8 → Error) (piece : List UInt8) : Error → Prop
  | truncated (open_end : piece.getLast? ≠ some 10) :
    NoLine notUtf8 piece (.truncated piece.length)
  | noText (ended : piece.getLast? = some 10) (undecodable : ∀ text, utf8 text ≠ piece) :
    NoLine notUtf8 piece (notUtf8 piece)

/-- Where no line of a reply is to be found. -/
abbrev NoReplyLine : List UInt8 → Error → Prop :=
  NoLine fun bytes => .line (.notUtf8 bytes)

/-- Where no status line is to be found, for the bytes are no line. -/
abbrev NoFirstLine : List UInt8 → Error → Prop :=
  NoLine fun bytes => .status (.notUtf8 bytes)

theorem decodeUtf8?_eq_none {bytes : List UInt8} (h : ∀ text, utf8 text ≠ bytes) :
    decodeUtf8? bytes = none := by
  rcases e : decodeUtf8? bytes with - | s
  · rfl
  · exact absurd (eq_utf8_of_decodeUtf8? e).symm (h _)

theorem lineOfBytes_of_noLine {piece : List UInt8} {e : Error} (h : NoReplyLine piece e) :
    lineOfBytes piece = .error e := by
  cases h with
  | truncated hopen => rw [lineOfBytes, if_pos hopen]
  | noText hend htext =>
    rw [lineOfBytes, if_neg (not_not.2 hend), decodeUtf8?_eq_none htext]

/-- A piece is a line of text, or it is none. -/
theorem line_or_noLine (notUtf8 : List UInt8 → Error) (piece : List UInt8) :
    (∃ line, piece = lineBytes line) ∨ ∃ e, NoLine notUtf8 piece e := by
  by_cases hend : piece.getLast? = some 10
  · by_cases htext : ∃ text, utf8 text = piece
    · obtain ⟨text, rfl⟩ := htext
      obtain ⟨bytes, hbytes⟩ := List.getLast?_eq_some_iff.1 hend
      obtain ⟨line, rfl, -⟩ := utf8_eq_append_lf hbytes
      exact .inl ⟨line, (lineBytes_eq line).symm⟩
    · exact .inr ⟨_, .noText hend (not_exists.1 htext)⟩
  · exact .inr ⟨_, .truncated hend⟩

/-- The pieces at the front are as many lines as are wanted, or one of them is none. -/
theorem lines_or_noLine (bytes : List UInt8) (count : Nat) :
    ∃ lines, BeginsWith bytes lines ∧
      (lines.length = count ∨ lines.length < count ∧
        ∃ e, NoReplyLine ((pieces bytes).getD lines.length []) e) := by
  induction count generalizing bytes with
  | zero => exact ⟨[], rfl, .inl rfl⟩
  | succ count ih =>
    rcases line_or_noLine _ ((pieces bytes).getD 0 []) with ⟨line, hline⟩ | hbad
    · obtain ⟨lines, hlines, hrest⟩ := ih ((pieces bytes).drop 1).flatten
      refine ⟨line :: lines, beginsWith_cons.2 ⟨hline, hlines⟩, ?_⟩
      rcases hrest with hlength | ⟨hlength, hbad⟩
      · exact .inl (congrArg Nat.succ hlength)
      · refine .inr ⟨Nat.succ_lt_succ hlength, ?_⟩
        rwa [getD_pieces_drop, Nat.add_comm] at hbad
    · exact ⟨[], rfl, .inr ⟨Nat.succ_pos _, hbad⟩⟩

/-! ### Reading line by line -/

namespace World

/-- No fault of reading is planned. -/
def ReadsFreely (w : World) : Prop :=
  ∀ p ∈ w.faults, p.operation ≠ .read

/-- The world after a number of pieces were asked for. -/
def afterReads (w : World) (n : Nat) : World :=
  { w with
    uses := fun op => if op = .read then w.uses .read + n else w.uses op
    incoming := ((pieces w.incoming).drop n).flatten }

theorem planned?_of_readsFreely {w : World} (hw : w.ReadsFreely) (n : Nat) :
    w.planned? .read n = none := by
  rw [planned?, Option.map_eq_none_iff, List.find?_eq_none]
  intro p hp
  simp [hw p hp]

/-- Reading on is reading more. -/
theorem afterReads_afterReads (w : World) (m n : Nat) :
    (w.afterReads m).afterReads n = w.afterReads (m + n) := by
  have huses : ((w.afterReads m).afterReads n).uses = (w.afterReads (m + n)).uses := by
    funext op
    by_cases hop : op = .read
    · simp only [afterReads, if_pos hop, if_true, Nat.add_assoc]
    · simp only [afterReads, if_neg hop]
  have hin : ((w.afterReads m).afterReads n).incoming = (w.afterReads (m + n)).incoming := by
    simp only [afterReads, pieces_flatten_drop, List.drop_drop]
  exact World.ext hin rfl rfl rfl huses rfl rfl rfl rfl

theorem afterReads_zero (w : World) : w.afterReads 0 = w := by
  have huses : (w.afterReads 0).uses = w.uses := by
    funext op
    by_cases hop : op = .read
    · simp only [afterReads, hop, if_true, Nat.add_zero]
    · simp only [afterReads, if_neg hop]
  have hin : (w.afterReads 0).incoming = w.incoming := by
    simp only [afterReads, List.drop_zero, flatten_pieces]
  exact World.ext hin rfl rfl rfl huses rfl rfl rfl rfl

end World

namespace Client

variable {w : World}

/-- A read takes the first piece, whatever it is. -/
theorem readLine_run (hw : w.ReadsFreely) :
    readLine.run w = (lineOfBytes ((pieces w.incoming).getD 0 []), w.afterReads 1) := by
  have hanswer := World.answer_readLine_of_none (World.planned?_of_readsFreely hw _)
  have hafter : (w.counted .read).withIncoming (cutLine w.incoming).2 = w.afterReads 1 := by
    have hin : (cutLine w.incoming).2 = ((pieces w.incoming).drop 1).flatten := by
      rw [List.drop_one, ← pieces_cutLine, flatten_pieces]
    simp only [World.counted, World.withIncoming, World.afterReads, hin]
  rw [readLine, run_bind, run_perform, hanswer, hafter, getD_zero_pieces]
  simp only [run_bind, run_attempt, Except.mapError, run_ofExcept]

/-- Lines at the front are read one by one. -/
theorem readLines_run_of_lines (hw : w.ReadsFreely) {body : List (List Char)}
    (hbody : BeginsWith w.incoming body) :
    (readLines body.length).run w =
      (.ok (body.map fun line => String.ofList (line ++ ['\n'])), w.afterReads body.length) := by
  induction body generalizing w with
  | nil => exact Prod.ext rfl w.afterReads_zero.symm
  | cons line body ih =>
    obtain ⟨hline, hlater⟩ := beginsWith_cons.1 hbody
    have hread := readLine_run hw
    rw [hline, lineOfBytes_lineBytes] at hread
    rw [List.length_cons, readLines, run_bind, hread]
    simp only [run_bind, ih (w := w.afterReads 1) hw hlater, pure_eq, run_done,
      w.afterReads_afterReads, Nat.add_comm 1]
    rfl

/-- Reading stops at the first piece that is no line. -/
theorem readLines_run_of_noLine (hw : w.ReadsFreely) {body : List (List Char)} {count : Nat}
    {e : Error} (hcount : body.length < count) (hbody : BeginsWith w.incoming body)
    (hbad : NoReplyLine ((pieces w.incoming).getD body.length []) e) :
    (readLines count).run w = (.error e, w.afterReads (body.length + 1)) := by
  induction body generalizing w count with
  | nil =>
    rcases count with - | count
    · cases hcount
    have hfirst : lineOfBytes ((pieces w.incoming).getD 0 []) = .error e :=
      lineOfBytes_of_noLine hbad
    rw [readLines, run_bind, readLine_run hw, hfirst]
    rfl
  | cons line body ih =>
    rcases count with - | count
    · cases hcount
    obtain ⟨hline, hlater⟩ := beginsWith_cons.1 hbody
    have hread := readLine_run hw
    rw [hline, lineOfBytes_lineBytes] at hread
    rw [List.length_cons, Nat.add_comm, ← getD_pieces_drop] at hbad
    have hrest := ih (w := w.afterReads 1) hw (Nat.lt_of_succ_lt_succ hcount) hlater hbad
    rw [w.afterReads_afterReads, Nat.add_comm] at hrest
    rw [readLines, run_bind, hread]
    simp only [run_bind, hrest]
    rfl

/-! ### Reading replies -/

/-- What a client makes of the first piece: a message and the number of lines that follow. -/
def statusOfPiece (piece : List UInt8) : Except Error (String × Nat) :=
  match lineOfBytes piece with
  | .error e => .error (asStatusError e)
  | .ok line => do
    match ← Status.ofLine line with
    | .refused code message => .error (.refused code message)
    | .accepted message pending => .ok (message, pending)

theorem statusOfPiece_of_noLine {piece : List UInt8} {e : Error} (h : NoFirstLine piece e) :
    statusOfPiece piece = .error e := by
  cases h with
  | truncated hopen => rw [statusOfPiece, lineOfBytes_of_noLine (.truncated hopen)]; rfl
  | noText hend htext => rw [statusOfPiece, lineOfBytes_of_noLine (.noText hend htext)]; rfl

theorem statusOfPiece_of_noStatusLine {line : List Char} (h : ∀ s : StatusLine, s.chars ≠ line) :
    statusOfPiece (lineBytes line)
      = .error (.status (.shape (String.ofList (line ++ ['\n'])))) := by
  simp only [statusOfPiece, lineOfBytes_lineBytes, Status.ofLine_of_no_statusLine h]
  rfl

/-- What is made of a status line depends on its number alone. -/
theorem statusOfPiece_chars (s : StatusLine) :
    statusOfPiece (lineBytes s.chars) =
      if Numeral.digitLimit < s.digits.length then
        .error (.numeral (.tooManyDigits s.digits.length))
      else if s.code < 0 then .error (.refused s.code s.text)
      else .ok (s.text, s.code.toNat) := by
  simp only [statusOfPiece, lineOfBytes_lineBytes, s.ofLine_chars]
  split
  · rfl
  · rw [Status.ofCode]
    split <;> rfl

theorem statusOfPiece_of_overlong {s : StatusLine} (h : Numeral.digitLimit < s.digits.length) :
    statusOfPiece (lineBytes s.chars) = .error (.numeral (.tooManyDigits s.digits.length)) := by
  rw [statusOfPiece_chars, if_pos h]

theorem statusOfPiece_of_refusal {s : StatusLine} (h : s.digits.length ≤ Numeral.digitLimit)
    (hcode : s.code < 0) :
    statusOfPiece (lineBytes s.chars) = .error (.refused s.code s.text) := by
  rw [statusOfPiece_chars, if_neg (Nat.not_lt.2 h), if_pos hcode]

theorem statusOfPiece_of_acceptance {s : StatusLine} (h : s.digits.length ≤ Numeral.digitLimit)
    (hcode : 0 ≤ s.code) :
    statusOfPiece (lineBytes s.chars) = .ok (s.text, s.code.toNat) := by
  rw [statusOfPiece_chars, if_neg (Nat.not_lt.2 h), if_neg (Int.not_lt.2 hcode)]

/-- Reading a status line asks for one piece and keeps a record. -/
theorem readStatus_run (hw : w.ReadsFreely) :
    ∃ log, readStatus.run w =
      (statusOfPiece ((pieces w.incoming).getD 0 []), { w.afterReads 1 with log := log }) := by
  rw [readStatus, run_andThen, readLine_run hw, statusOfPiece]
  rcases lineOfBytes ((pieces w.incoming).getD 0 []) with e | line
  · exact ⟨w.log, rfl⟩
  · dsimp only
    rcases hstatus : Status.ofLine line with e | ⟨message, pending⟩ | ⟨code, message⟩
    · exact ⟨w.log, rfl⟩
    · exact ⟨_, rfl⟩
    · exact ⟨_, rfl⟩

/-- A reply is read with this result: so many pieces were asked for, and but for the log
nothing else has changed. -/
def EndsReading (w : World) (result : Except Error Reply) (count : Nat) : Prop :=
  (readReply.run w).1 = result ∧
    ∃ log, (readReply.run w).2 = { w.afterReads count with log := log }

/-- Without a status line that accepts the request, nothing else is read. -/
theorem endsReading_of_status_error (hw : w.ReadsFreely) {e : Error}
    (h : statusOfPiece ((pieces w.incoming).getD 0 []) = .error e) :
    EndsReading w (.error e) 1 := by
  obtain ⟨log, hstatus⟩ := readStatus_run hw
  rw [h] at hstatus
  rw [EndsReading, readReply, run_bind, hstatus]
  exact ⟨rfl, log, rfl⟩

/-- After a status line that accepts the request, its lines are read. -/
theorem endsReading_of_lines (hw : w.ReadsFreely) {message : String} {pending count : Nat}
    {lines : Except Error (List String)}
    (h : statusOfPiece ((pieces w.incoming).getD 0 []) = .ok (message, pending))
    (hlines : ∀ v : World, v.ReadsFreely → v.incoming = (w.afterReads 1).incoming →
      (readLines pending).run v = (lines, v.afterReads count)) :
    EndsReading w (lines.map (Reply.mk message)) (1 + count) := by
  obtain ⟨log, hstatus⟩ := readStatus_run hw
  rw [h] at hstatus
  have hread := hlines { w.afterReads 1 with log := log } hw rfl
  rw [EndsReading, readReply, run_bind, hstatus]
  dsimp only
  rw [run_bind, hread, ← w.afterReads_afterReads]
  rcases lines with e | lines
  · exact ⟨rfl, log, rfl⟩
  · exact ⟨rfl, log, rfl⟩

/-- A refusal, a number that is too long, or a line that is no status line: one piece is asked
for. -/
theorem endsReading_of_first_line (hw : w.ReadsFreely) {line : List Char} {e : Error}
    (hfirst : BeginsWith w.incoming [line]) (h : statusOfPiece (lineBytes line) = .error e) :
    EndsReading w (.error e) 1 := by
  rw [← (beginsWith_cons.1 hfirst).1] at h
  exact endsReading_of_status_error hw h

variable {s : StatusLine} {body : List (List Char)}

theorem endsReading_complete (hw : w.ReadsFreely) (hlines : BeginsWith w.incoming (s.chars :: body))
    (hdigits : s.digits.length ≤ Numeral.digitLimit) (hcode : s.code = body.length) :
    EndsReading w (.ok ⟨s.text, body.map fun line => String.ofList (line ++ ['\n'])⟩)
      (1 + body.length) := by
  obtain ⟨hfirst, hbody⟩ := beginsWith_cons.1 hlines
  have hstatus := statusOfPiece_of_acceptance hdigits (hcode ▸ Int.natCast_nonneg _)
  rw [← hfirst, hcode, Int.toNat_natCast] at hstatus
  have hread : ∀ v : World, v.ReadsFreely → v.incoming = (w.afterReads 1).incoming →
      (readLines body.length).run v = (.ok (body.map fun line => String.ofList (line ++ ['\n'])),
        v.afterReads body.length) :=
    fun v hv hin => readLines_run_of_lines hv (hin ▸ hbody)
  exact endsReading_of_lines hw hstatus hread

theorem endsReading_cut_short (hw : w.ReadsFreely) {e : Error}
    (hlines : BeginsWith w.incoming (s.chars :: body))
    (hdigits : s.digits.length ≤ Numeral.digitLimit) (hcode : body.length < s.code)
    (hbad : NoReplyLine ((pieces w.incoming).getD (1 + body.length) []) e) :
    EndsReading w (.error e) (1 + (body.length + 1)) := by
  obtain ⟨hfirst, hbody⟩ := beginsWith_cons.1 hlines
  have hpos : 0 < s.code := Int.lt_of_le_of_lt (Int.natCast_nonneg _) hcode
  have hstatus := statusOfPiece_of_acceptance hdigits (Int.le_of_lt hpos)
  rw [← hfirst] at hstatus
  rw [← getD_pieces_drop] at hbad
  have hread : ∀ v : World, v.ReadsFreely → v.incoming = (w.afterReads 1).incoming →
      (readLines s.code.toNat).run v = (.error e, v.afterReads (body.length + 1)) :=
    fun v hv hin => readLines_run_of_noLine hv (by omega) (hin ▸ hbody) (hin ▸ hbad)
  exact endsReading_of_lines hw hstatus hread

/-- No more pieces are asked for than there are line feeds, and one. -/
theorem endsReading_bounded (hw : w.ReadsFreely) :
    ∃ result count, EndsReading w result count ∧ count ≤ w.incoming.count 10 + 1 := by
  have hone : 1 ≤ w.incoming.count 10 + 1 := Nat.le_add_left _ _
  rcases line_or_noLine _ ((pieces w.incoming).getD 0 []) with ⟨line, hline⟩ | ⟨e, hbad⟩
  · have hfirst : BeginsWith w.incoming [line] := beginsWith_cons.2 ⟨hline, rfl⟩
    rcases hstatus : statusOfPiece (lineBytes line) with e | ⟨message, pending⟩
    · exact ⟨_, 1, endsReading_of_first_line hw hfirst hstatus, hone⟩
    · -- the lines that follow: all of them are there, or one of them is none
      rw [← hline] at hstatus
      obtain ⟨body, hbody, hall | ⟨hshort, e, hbad⟩⟩ :=
        lines_or_noLine (w.afterReads 1).incoming pending
      · subst hall
        have hcount := (beginsWith_cons.2 ⟨hline, hbody⟩).length_le
        refine ⟨_, _, endsReading_of_lines hw hstatus
          fun v hv hin => readLines_run_of_lines hv (hin ▸ hbody), ?_⟩
        rw [List.length_cons] at hcount
        omega
      · have hcount := (beginsWith_cons.2 ⟨hline, hbody⟩).length_le
        refine ⟨_, _, endsReading_of_lines hw hstatus
          fun v hv hin => readLines_run_of_noLine hv hshort (hin ▸ hbody) (hin ▸ hbad), ?_⟩
        rw [List.length_cons] at hcount
        omega
  · exact ⟨_, 1, endsReading_of_status_error hw (statusOfPiece_of_noLine hbad), hone⟩

end Client

/-- How a reply is read from the bytes that are coming. -/
structure ReadsExactly (w : World) : Prop where
  /-- There is no first line of text. -/
  no_line : ∀ e, NoFirstLine ((pieces w.incoming).getD 0 []) e →
    Client.EndsReading w (.error e) 1
  /-- The first line is no status line. -/
  no_status : ∀ line, BeginsWith w.incoming [line] → (∀ s : StatusLine, s.chars ≠ line) →
    Client.EndsReading w (.error (.status (.shape (String.ofList (line ++ ['\n']))))) 1
  /-- The number has too many digits to be converted. -/
  overlong : ∀ s : StatusLine, BeginsWith w.incoming [s.chars] →
    Numeral.digitLimit < s.digits.length →
    Client.EndsReading w (.error (.numeral (.tooManyDigits s.digits.length))) 1
  /-- A number below zero refuses the request. -/
  refused : ∀ s : StatusLine, BeginsWith w.incoming [s.chars] →
    s.digits.length ≤ Numeral.digitLimit → s.code < 0 →
    Client.EndsReading w (.error (.refused s.code s.text)) 1
  /-- As many lines follow as the number says: they are given, and they are what was taken. -/
  complete : ∀ (s : StatusLine) (body : List (List Char)),
    BeginsWith w.incoming (s.chars :: body) → s.digits.length ≤ Numeral.digitLimit →
    s.code = body.length →
    Client.EndsReading w
        (.ok ⟨s.text, body.map fun line => String.ofList (line ++ ['\n'])⟩) (1 + body.length) ∧
      w.incoming
        = utf8 ((s.chars :: body).flatMap fun line => line ++ ['\n'])
          ++ (w.afterReads (1 + body.length)).incoming
  /-- One of the lines that should follow is none, and those before it are lines. -/
  cut_short : ∀ (s : StatusLine) (body : List (List Char)) (e : Error),
    BeginsWith w.incoming (s.chars :: body) → s.digits.length ≤ Numeral.digitLimit →
    body.length < s.code →
    NoReplyLine ((pieces w.incoming).getD (1 + body.length) []) e →
    Client.EndsReading w (.error e) (1 + (body.length + 1))
  /-- However many lines are said to follow, no more pieces are asked for than there are line
  feeds, and one. -/
  bounded : ∃ result count, Client.EndsReading w result count ∧ count ≤ w.incoming.count 10 + 1

/-- Reading a reply is exact, whatever bytes are coming and however many lines they declare,
if no read fails. -/
theorem readReply_exact (w : World) (hw : w.ReadsFreely) : ReadsExactly w where
  no_line _ hbad := Client.endsReading_of_status_error hw (Client.statusOfPiece_of_noLine hbad)
  no_status _ hfirst hno :=
    Client.endsReading_of_first_line hw hfirst (Client.statusOfPiece_of_noStatusLine hno)
  overlong _ hfirst hdigits :=
    Client.endsReading_of_first_line hw hfirst (Client.statusOfPiece_of_overlong hdigits)
  refused _ hfirst hdigits hcode :=
    Client.endsReading_of_first_line hw hfirst (Client.statusOfPiece_of_refusal hdigits hcode)
  complete s body hlines hdigits hcode := by
    refine ⟨Client.endsReading_complete hw hlines hdigits hcode, ?_⟩
    have hbytes := hlines.eq_append
    rw [List.length_cons, Nat.add_comm, flatMap_lineBytes] at hbytes
    exact hbytes
  cut_short _ _ _ hlines hdigits hcode hbad :=
    Client.endsReading_cut_short hw hlines hdigits hcode hbad
  bounded := Client.endsReading_bounded hw

/-- Three lines are said to follow, and the second of them is no text. -/
def World.frayed : World where
  incoming := "+3 ok\nab\n".toUTF8.data.toList ++ [0xFF, 10] ++ "0 PONG\n".toUTF8.data.toList
  clock := .fixed (.int 0)
  faults := [⟨.write, 1, .system "down"⟩]

/-- The status line in front of them. -/
def StatusLine.three : StatusLine where
  sign := ['+']
  digits := ['3']
  gap := [' ']
  message := ['o', 'k']
  sign_cases := .inr (.inl rfl)
  digits_isDigits := ⟨List.cons_ne_nil _ _, List.forall_mem_singleton.2 rfl⟩
  gap_isGap := ⟨List.cons_ne_nil _ _, List.forall_mem_singleton.2 rfl⟩
  message_isText := by decide
  message_ends := Scan.ends_cons.2 rfl

/-- Three pieces are asked for, and the reply behind them is still to come. -/
theorem readReply_exact_frayed :
    World.frayed.ReadsFreely ∧
      Client.EndsReading .frayed (.error (.line (.notUtf8 [0xFF, 10]))) 3 ∧
      (World.frayed.afterReads 3).incoming = "0 PONG\n".toUTF8.data.toList := by
  have hfree : World.frayed.ReadsFreely := by
    simp [World.ReadsFreely, World.frayed]
  have hlines : BeginsWith World.frayed.incoming [StatusLine.three.chars, ['a', 'b']] := by
    rw [BeginsWith]
    decide +kernel
  have hpiece : (pieces World.frayed.incoming).getD 2 [] = [0xFF, 10] := by
    decide +kernel
  have hbad : NoReplyLine [0xFF, 10] (.line (.notUtf8 [0xFF, 10])) := by
    refine .noText rfl fun text htext => ?_
    have hnone : decodeUtf8? [0xFF, 10] = none := by decide +kernel
    rw [← htext, decodeUtf8?_utf8] at hnone
    cases hnone
  exact ⟨hfree, (readReply_exact .frayed hfree).cut_short .three [['a', 'b']] _ hlines
    (by decide) (by decide) (hpiece ▸ hbad), by decide +kernel⟩

end RrdCache
