/-
RrdCache/Proofs/Json/Output.lean

Outputs in JSON.  An output without infinite numbers, and without the one that is no number, is
printed as a JSON text.  Any other output is printed as none: such a number is printed as a
word, the word stands outside the strings, and no JSON text has its letters there.

Main result (`Output.isText_json_iff`).
-/
import RrdCache.CommandLine.Output
import RrdCache.Proofs.Json.Number
import RrdCache.Proofs.Json.Outside
import RrdCache.Proofs.Text.OneLine

namespace RrdCache

open Json

/-! ### Finite outputs -/

/-- Whether a double is finite. -/
def Binary64.isFinite : Binary64 → Bool
  | finite _ _ => true
  | nan | infinite _ => false

namespace Output

mutual

/-- Whether all doubles of an output are finite. -/
def isFinite : Output → Bool
  | text _ | whole _ | missing => true
  | number x => x.isFinite
  | list items => allFinite items
  | record fields => fieldsFinite fields

/-- Whether all doubles of outputs are finite. -/
def allFinite : List Output → Bool
  | [] => true
  | o :: rest => isFinite o && allFinite rest

/-- Whether all doubles of fields are finite. -/
def fieldsFinite : List (String × Output) → Bool
  | [] => true
  | (_, o) :: rest => isFinite o && fieldsFinite rest

end

end Output

/-! ### Strings -/

namespace Json

theorem IsChars.append {s t : List Char} (hs : IsChars s) (ht : IsChars t) : IsChars (s ++ t) := by
  induction hs with
  | nil => exact ht
  | cons hc _ ih =>
    rw [List.append_assoc]
    exact .cons hc ih

theorem IsChar.isChars {s : List Char} (h : IsChar s) : IsChars s := by
  simpa using IsChars.cons h .nil

end Json

namespace Output

theorem isChar_unitEscape {n : Nat} (h : n < 0x10000) : IsChar (unitEscape n) := by
  have hlength : (Nat.toDigits 16 n).length ≤ 4 :=
    (Nat.length_toDigits_le_iff (by decide) (by decide)).2 h
  have hhex : Quoted.hexDigits ⊆ hexDigits := by decide
  refine .code ?_ fun d hd => hhex (Quoted.mem_hex hd)
  rw [Quoted.hex, List.length_append, List.length_replicate]
  omega

theorem isChars_jsonChar (c : Char) : IsChars (jsonChar c) := by
  have hcode : c.toNat < 0x110000 := by
    have hvalid : c.toNat < 0xD800 ∨ 0xDFFF < c.toNat ∧ c.toNat < 0x110000 := c.valid
    omega
  have hnamed (d : Char) (hd : d ∈ "\"\\/bfnrt".toList) : IsChars ['\\', d] :=
    (IsChar.named hd).isChars
  rw [jsonChar]
  split
  · rename_i h
    exact hnamed c (by rcases h with rfl | rfl <;> decide)
  rename_i hplain
  obtain ⟨hquote, hslash⟩ := not_or.1 hplain
  -- five characters have names
  iterate 5
    split
    · exact hnamed _ (by decide)
  split
  · exact (IsChar.itself (And.left ‹_›) hquote hslash).isChars
  split
  · exact (isChar_unitEscape ‹_›).isChars
  · exact (isChar_unitEscape (by omega)).isChars.append (isChar_unitEscape (by omega)).isChars

theorem isString_jsonText (s : String) : IsString (jsonText s).toList := by
  have hchars (l : List Char) : IsChars (l.flatMap jsonChar) := by
    induction l with
    | nil => exact .nil
    | cons c l ih => exact (isChars_jsonChar c).append ih
  rw [jsonText, String.toList_ofList]
  exact .quoted (hchars s.toList)

/-! ### Blocks -/

theorem isSpace_newLine (depth : Nat) : IsSpace (newLine depth).toList := by
  intro c hc
  simp only [newLine, String.toList_append, String.toList_ofList, List.mem_append] at hc
  rcases hc with hc | hc
  · exact .inr (.inr (.inl (List.mem_singleton.1 hc)))
  · exact .inl (List.eq_of_mem_replicate hc)

theorem isMark_newLine (mark : Char) (depth : Nat) :
    IsMark mark (mark :: (newLine depth).toList) :=
  @IsMark.around mark [] _ (List.forall_mem_nil _) (isSpace_newLine depth)

theorem newLine_isMark (mark : Char) (depth : Nat) :
    IsMark mark ((newLine depth).toList ++ [mark]) :=
  .around (isSpace_newLine depth) (List.forall_mem_nil _)

theorem isMark_alone (mark : Char) : IsMark mark [mark] :=
  @IsMark.around mark [] [] (List.forall_mem_nil _) (List.forall_mem_nil _)

/-- A comma, and the start of the next line. -/
def comma (depth : Nat) : List Char :=
  ',' :: (newLine depth).toList

/-- What stands between the brackets of a block. -/
def blockBody (depth : Nat) (items : List String) : List Char :=
  (comma depth).intercalate (items.map String.toList)

/-- A block is its two brackets, or stands between them. -/
theorem toList_jsonBlock {opening closing : String} {a b : Char} (ha : opening.toList = [a])
    (hb : closing.toList = [b]) (depth : Nat) (items : List String) :
    (jsonBlock opening closing depth items).toList =
      if items = [] then [a] ++ [b]
      else a :: (newLine (depth + 1)).toList ++ blockBody (depth + 1) items ++
        ((newLine depth).toList ++ [b]) := by
  cases items with
  | nil => simp [jsonBlock, ha, hb]
  | cons s rest => simp [jsonBlock, blockBody, comma, ha, hb, String.toList_intercalate]

/-- Items with commas between them. -/
theorem blockBody_induction {P Q : List Char → Prop} {depth : Nat} (hlast : ∀ s, P s → Q s)
    (hcons : ∀ s rest, P s → Q rest → Q (s ++ comma depth ++ rest)) :
    ∀ {items : List String}, items ≠ [] → (∀ s ∈ items, P s.toList) → Q (blockBody depth items)
  | [], hne, _ => absurd rfl hne
  | [s], _, h => by
    simpa [blockBody] using hlast _ (h s List.mem_cons_self)
  | s :: s' :: rest, _, h => by
    obtain ⟨hs, hrest⟩ := List.forall_mem_cons.1 h
    have ih := blockBody_induction hlast hcons (List.cons_ne_nil s' rest) hrest
    rw [blockBody, List.map_cons, List.map_cons, List.intercalate_cons_cons]
    exact hcons _ _ hs ih

theorem isValue_array {depth : Nat} {items : List String} (h : ∀ s ∈ items, IsValue s.toList) :
    IsValue (jsonBlock "[" "]" depth items).toList := by
  rw [toList_jsonBlock (a := '[') (b := ']') rfl rfl]
  split
  · exact .emptyArray (isMark_alone _) (isMark_alone _)
  · have hitems : IsItems (blockBody (depth + 1) items) :=
      blockBody_induction (P := IsValue) (fun _ hs => .last hs)
        (fun _ _ hs hrest => .cons hs (isMark_newLine _ _) hrest) ‹_› h
    exact .array (isMark_newLine _ _) hitems (newLine_isMark _ _)

theorem isValue_object {depth : Nat} {fields : List String}
    (h : ∀ s ∈ fields, IsMember s.toList) :
    IsValue (jsonBlock "\x7b" "\x7d" depth fields).toList := by
  rw [toList_jsonBlock (a := '\x7b') (b := '\x7d') rfl rfl]
  split
  · exact .emptyObject (isMark_alone _) (isMark_alone _)
  · have hmembers : IsMembers (blockBody (depth + 1) fields) :=
      blockBody_induction (P := IsMember) (fun _ hs => .last hs)
        (fun _ _ hs hrest => .cons hs (isMark_newLine _ _) hrest) ‹_› h
    exact .object (isMark_newLine _ _) hmembers (newLine_isMark _ _)

/-! ### Values -/

/-- A colon as it is printed. -/
theorem isMark_colon : IsMark ':' ": ".toList :=
  @IsMark.around ':' [] [' '] (List.forall_mem_nil _) (by simp [IsSpace])

theorem isValue_jsonNumber {x : Binary64} (hx : x.isFinite) : IsValue (jsonNumber x).toList := by
  cases x with
  | finite negative m =>
    show IsValue (String.ofList (Binary64.finite negative m).chars).toList
    rw [String.toList_ofList]
    exact .number (isNumber_chars negative m)
  | nan | infinite _ => cases hx

mutual

/-- A finite output is printed as a value. -/
theorem isValue_json (depth : Nat) :
    (o : Output) → o.isFinite → IsValue (json depth o).toList
  | text s, _ => .string (isString_jsonText s)
  | whole i, _ => by
    rw [json, Numeral.spelling, String.toList_ofList]
    exact .number (isNumber_digits i)
  | number _, hx => isValue_jsonNumber hx
  | missing, _ => .word (.inl rfl)
  | list items, h => isValue_array (isValue_jsonItems (depth + 1) items h)
  | record fields, h => isValue_object (isMember_jsonFields (depth + 1) fields h)

theorem isValue_jsonItems (depth : Nat) :
    (items : List Output) → allFinite items → ∀ s ∈ jsonItems depth items, IsValue s.toList
  | [], _ => List.forall_mem_nil _
  | o :: rest, h => by
    obtain ⟨ho, hrest⟩ := Bool.and_eq_true_iff.1 h
    exact List.forall_mem_cons.2 ⟨isValue_json depth o ho, isValue_jsonItems depth rest hrest⟩

theorem isMember_jsonFields (depth : Nat) :
    (fields : List (String × Output)) → fieldsFinite fields →
      ∀ s ∈ jsonFields depth fields, IsMember s.toList
  | [], _ => List.forall_mem_nil _
  | (key, o) :: rest, h => by
    obtain ⟨ho, hrest⟩ := Bool.and_eq_true_iff.1 h
    refine List.forall_mem_cons.2 ⟨?_, isMember_jsonFields depth rest hrest⟩
    rw [String.toList_append, String.toList_append]
    exact .named (isString_jsonText key) isMark_colon (isValue_json depth o ho)

end

/-! ### What is no value -/

/-- A word for a number that is not finite has a letter that no text shows outside strings. -/
theorem shows_jsonNumber (x : Binary64) : Shows x.isFinite (jsonNumber x).toList := by
  have hword {s : List Char} (hquote : '"' ∉ s) (hother : ¬ s ⊆ outsideChars) : Shows false s :=
    ⟨s, bare_of_no_quote hquote, by simpa using hother⟩
  cases x with
  | finite negative m => exact (isValue_jsonNumber (x := .finite negative m) rfl).shows
  | nan => exact hword (by decide) (by decide)
  | infinite negative => cases negative <;> exact hword (by decide) (by decide)

/-- Texts, and whether each of them shows no other characters. -/
inductive ShowEach : Bool → List String → Prop
  | nil : ShowEach true []
  | cons {few few' : Bool} {s : String} {rest : List String} (hs : Shows few s.toList)
    (hrest : ShowEach few' rest) : ShowEach (few && few') (s :: rest)

theorem ShowEach.blockBody {few : Bool} {items : List String} (depth : Nat)
    (h : ShowEach few items) : Shows few (blockBody depth items) := by
  have hcomma : Shows true (comma depth) :=
    (isMark_newLine ',' depth).shows (by decide)
  induction h with
  | nil => exact shows_of_subset (List.nil_subset _)
  | @cons few few' s rest hs hrest ih =>
    cases rest with
    | nil =>
      cases hrest
      simpa [Output.blockBody] using hs
    | cons s' rest =>
      rw [Output.blockBody, List.map_cons, List.map_cons, List.intercalate_cons_cons]
      have hboth := (hs.append hcomma).append ih
      rwa [Bool.and_true] at hboth

theorem shows_jsonBlock {few : Bool} {opening closing : String} {a b : Char}
    (ha : opening.toList = [a]) (hb : closing.toList = [b]) (haf : a ∈ outsideChars)
    (hbf : b ∈ outsideChars) {depth : Nat} {items : List String} (h : ShowEach few items) :
    Shows few (jsonBlock opening closing depth items).toList := by
  rw [toList_jsonBlock ha hb]
  split
  · rename_i hnil
    subst hnil
    cases h
    exact ((isMark_alone a).shows haf).append ((isMark_alone b).shows hbf)
  · have hopening := (isMark_newLine a (depth + 1)).shows haf
    have hclosing := (newLine_isMark b depth).shows hbf
    have hblock := (hopening.append (h.blockBody (depth + 1))).append hclosing
    rwa [Bool.true_and, Bool.and_true] at hblock

mutual

/-- An output shows other characters outside its strings if it is not finite. -/
theorem shows_json (depth : Nat) : (o : Output) → Shows o.isFinite (json depth o).toList
  | text s => (isString_jsonText s).shows
  | whole i => by
    rw [json, Numeral.spelling, String.toList_ofList]
    exact shows_of_subset (isNumber_digits i).subset
  | number x => shows_jsonNumber x
  | missing => (shows_of_subset (by decide) : Shows true "null".toList)
  | list items =>
    shows_jsonBlock (a := '[') (b := ']') rfl rfl (by decide) (by decide)
      (showEach_jsonItems (depth + 1) items)
  | record fields =>
    shows_jsonBlock (a := '\x7b') (b := '\x7d') rfl rfl (by decide) (by decide)
      (showEach_jsonFields (depth + 1) fields)

theorem showEach_jsonItems (depth : Nat) :
    (items : List Output) → ShowEach (allFinite items) (jsonItems depth items)
  | [] => .nil
  | o :: rest => .cons (shows_json depth o) (showEach_jsonItems depth rest)

theorem showEach_jsonFields (depth : Nat) :
    (fields : List (String × Output)) →
      ShowEach (fieldsFinite fields) (jsonFields depth fields)
  | [] => .nil
  | (key, o) :: rest => by
    refine .cons ?_ (showEach_jsonFields depth rest)
    rw [String.toList_append, String.toList_append]
    have hfield := ((isString_jsonText key).shows.append (isMark_colon.shows (by decide))).append
      (shows_json depth o)
    rwa [Bool.and_true, Bool.true_and] at hfield

end

/-- An output is printed as a JSON text if it is finite, and only then. -/
theorem isText_json_iff (o : Output) : IsText (o.json 0).toList ↔ o.isFinite := by
  constructor
  · intro h
    obtain ⟨t, hbare, hfew⟩ := shows_json 0 o
    rw [← hfew, hbare.eq_outside]
    exact h.outside_subset
  · intro h
    simpa using IsText.around (List.forall_mem_nil _) (isValue_json 0 o h) (List.forall_mem_nil _)

end Output

end RrdCache
