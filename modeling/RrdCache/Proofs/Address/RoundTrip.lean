/-
RrdCache/Proofs/Address/RoundTrip.lean

Which addresses come back from their text.  The text of an address picks its spelling by the
host alone, so that it may be a spelling of something else: a host that begins with a blank, a
slash or a bracket, the word before the path of a local socket, and a host with both a colon
and a closing bracket do not come back.

Main result (`text_of_spelled`).
-/
import RrdCache.Proofs.Address.Parts
import RrdCache.Proofs.Number.RoundTrip

namespace RrdCache

/-! ### Cutting blanks off -/

section Trim

variable {p : Char → Bool} {s t : List Char} {c : Char}

/-- What is left does not end in a member of the class. -/
theorem ends_reverse_trim (p : Char → Bool) (s : List Char) :
    Scan.Ends p (trim p s).reverse := by
  rw [trim, trimEnd, List.reverse_reverse]
  exact Scan.ends_dropWhile

/-- A member of no class keeps what follows it, if nothing can be taken off at the end. -/
theorem trim_append_cons (hc : p c = false) (ht : Scan.Ends p (c :: t).reverse) :
    trim p (s ++ c :: t) = s.dropWhile p ++ c :: t := by
  have hdrop : (s ++ c :: t).dropWhile p = s.dropWhile p ++ c :: t := by
    rw [List.dropWhile_append]
    split
    · rename_i hnone
      rw [List.isEmpty_iff.1 hnone, List.dropWhile_cons_of_neg (by simp [hc]), List.nil_append]
    · rfl
  have hends : Scan.Ends p (s.dropWhile p ++ c :: t).reverse := by
    rw [List.reverse_append]
    exact (Scan.ends_append (by simp)).2 ht
  have hlast : (s.dropWhile p ++ c :: t).reverse.dropWhile p = (s.dropWhile p ++ c :: t).reverse :=
    Scan.dropWhile_append_of_ends (List.forall_mem_nil _) hends
  rw [trim, trimEnd, hdrop, hlast, List.reverse_reverse]

end Trim

namespace Address

/-! ### What is written -/

/-- The hosts that come back from the text of their address. -/
def ReadsBack (host : String) : Prop :=
  (':' ∈ host.toList ∧ ']' ∉ host.toList) ∨
    (':' ∉ host.toList ∧ host ≠ "unix" ∧
      ∀ c ∈ host.toList.head?, isBlank c = false ∧ c ≠ '/' ∧ c ≠ '[')

variable {host : List Char} {n : Int}

theorem isDigit_of_mem_digits (hn : 0 < n) {c : Char} (hc : c ∈ Numeral.digits n) :
    c.isDigit := by
  rcases Numeral.mem_digits hc with h | ⟨-, h⟩
  · exact h
  · omega

theorem portAfter_digits (hn : 0 < n ∧ n ≤ portLimit) :
    PortAfter (':' :: Numeral.digits n) n := by
  refine .given (Numeral.digits_ne_nil n) (List.all_eq_true.2 fun c hc => ?_)
    (Numeral.ofText_digits (not_overlong_port hn)) hn
  rw [hasDigitValue, isDecimalDigit_of_isDigit (isDigit_of_mem_digits hn.1 hc), Bool.true_or]

theorem text_chars (host : List Char) (n : Int) :
    (hostText (some (String.ofList host)) (Numeral.spelling n)).toList =
      if ':' ∈ host then '[' :: (host ++ [']']) ++ ':' :: Numeral.digits n
      else host ++ ':' :: Numeral.digits n := by
  rw [hostText, String.toList_ofList]
  split <;> simp [Numeral.spelling]

/-- The text of an address can only lose the blanks before its host. -/
theorem trim_text (hn : 0 < n) :
    trim isBlank (host ++ ':' :: Numeral.digits n) =
      host.dropWhile isBlank ++ ':' :: Numeral.digits n := by
  apply trim_append_cons (by decide +kernel)
  obtain ⟨c, s, hs⟩ := List.exists_cons_of_ne_nil
    (List.reverse_ne_nil_iff.2 (Numeral.digits_ne_nil n))
  have hc : c ∈ Numeral.digits n := by
    rw [← List.mem_reverse, hs]
    exact List.mem_cons_self
  rw [List.reverse_cons, hs, List.cons_append, Scan.ends_cons]
  exact isBlank_of_isDigit (isDigit_of_mem_digits hn hc)

theorem colon_not_mem_digits (hn : 0 < n) : ':' ∉ Numeral.digits n := fun h =>
  absurd (isDigit_of_mem_digits hn h) (by decide)

theorem eq_of_append_digits (hn : 0 < n) {s t after : List Char} (hs : ':' ∉ s)
    (h : s ++ ':' :: Numeral.digits n = t ++ ':' :: after) : s = t :=
  ((List.append_cons_inj_of_notMem hs (colon_not_mem_digits hn)).1 h).1

theorem isPlain_append (hn : 0 < n) (hne : host ≠ []) (hfree : ':' ∉ host) :
    IsPlain (host ++ ':' :: Numeral.digits n) ↔
      host ≠ "unix".toList ∧ host.head? ≠ some '/' ∧ host.head? ≠ some '[' := by
  have hmark : unixMark = "unix".toList ++ [':'] := rfl
  have hmarked : unixMark <+: host ++ ':' :: Numeral.digits n ↔ host = "unix".toList := by
    constructor
    · rintro ⟨rest, hrest⟩
      rw [hmark, List.append_assoc] at hrest
      exact eq_of_append_digits hn hfree hrest.symm
    · rintro rfl
      exact ⟨Numeral.digits n, rfl⟩
  have hhead : (host ++ ':' :: Numeral.digits n).head? = host.head? :=
    List.head?_append_of_ne_nil _ hne
  constructor
  · rintro ⟨hnot, hrooted, hbracketed⟩
    rw [hhead] at hrooted hbracketed
    exact ⟨fun h => hnot (hmarked.2 h), hrooted, hbracketed⟩
  · rintro ⟨hunix, hrooted, hbracketed⟩
    exact ⟨fun h => hunix (hmarked.1 h), hhead.symm ▸ hrooted, hhead.symm ▸ hbracketed⟩

theorem readsBack_iff : ReadsBack (String.ofList host) ↔
    (':' ∈ host ∧ ']' ∉ host) ∨ (':' ∉ host ∧ Scan.Ends isBlank host ∧
      host ≠ "unix".toList ∧ host.head? ≠ some '/' ∧ host.head? ≠ some '[') := by
  have hword : String.ofList host = "unix" ↔ host = "unix".toList := by
    rw [← String.toList_inj, String.toList_ofList]
  rw [ReadsBack, String.toList_ofList, ne_eq, hword]
  cases host with
  | nil => simp [Scan.ends_nil]
  | cons c host =>
    simp only [List.head?_cons, Option.mem_def, Option.some.injEq, Scan.ends_cons, forall_eq',
      ne_eq]
    tauto

/-- Whatever the text of an address gives, a host that it gives back is one that comes back. -/
theorem readsBack_of_spells (hn : 0 < n) {b : Address}
    (h : Spells (trim isBlank (hostText (some (String.ofList host)) (Numeral.spelling n)).toList) b)
    (hhost : b.host = some (String.ofList host)) : ReadsBack (String.ofList host) := by
  have hsame {s : List Char} (hs : some (String.ofList s) = some (String.ofList host)) :
      s = host := String.ofList_injective (Option.some.inj hs)
  rw [text_chars] at h
  rw [readsBack_iff]
  split at h
  · rename_i hcolon
    have hbracket : ('[' :: (host ++ [']'])).dropWhile isBlank = '[' :: (host ++ [']']) :=
      List.dropWhile_cons_of_neg (by decide +kernel)
    rw [trim_text hn, hbracket] at h
    generalize htext : '[' :: (host ++ [']']) ++ ':' :: Numeral.digits n = text at h
    cases h with
    | marked | rooted => cases hhost
    | bracketed closed remote =>
      obtain ⟨-, _, -, rfl⟩ := remote
      obtain rfl := hsame hhost
      exact .inl ⟨hcolon, closed⟩
    | plain _ _ isPlain | crowded _ isPlain => exact absurd (htext ▸ rfl) isPlain.not_bracketed
  · rename_i hcolon
    -- the first colon of the text stands behind what is left of the host
    have hleft : ':' ∉ host.dropWhile isBlank := fun hmem =>
      hcolon ((List.dropWhile_sublist _).subset hmem)
    rw [trim_text hn] at h
    generalize htext : host.dropWhile isBlank ++ ':' :: Numeral.digits n = text at h
    have hmem : ':' ∈ text := by simp [← htext]
    cases h with
    | marked | rooted => cases hhost
    | @bracketed host' after _ closed remote =>
      obtain ⟨-, m, hm, rfl⟩ := remote
      obtain rfl := hsame hhost
      obtain rfl | ⟨port, rfl, -⟩ := hm.colons
      · simp [hcolon] at hmem
      · have hlong : host'.dropWhile isBlank = '[' :: (host' ++ [']']) := by
          apply eq_of_append_digits hn hleft
          simpa using htext
        have hshort := (List.dropWhile_sublist isBlank (l := host')).length_le
        rw [hlong, List.length_cons, List.length_append] at hshort
        omega
    | @plain host' after _ free remote isPlain =>
      obtain ⟨hne, m, hm, rfl⟩ := remote
      obtain rfl := hsame hhost
      obtain rfl | ⟨port, rfl, -⟩ := hm.colons
      · simp [hcolon] at hmem
      · have hwhole := eq_of_append_digits hn hleft htext
        have hends : Scan.Ends isBlank host' := hwhole ▸ Scan.ends_dropWhile
        rw [← htext, hwhole] at isPlain
        exact .inr ⟨hcolon, hends, (isPlain_append hn hne hcolon).1 isPlain⟩
    | crowded =>
      obtain rfl := hsame hhost
      exact absurd hmem hcolon

/-- A host that comes back does so from the text of its address. -/
theorem spells_of_readsBack (hn : 0 < n ∧ n ≤ portLimit) (hne : host ≠ [])
    (h : ReadsBack (String.ofList host)) :
    Spells (trim isBlank (hostText (some (String.ofList host)) (Numeral.spelling n)).toList)
      { host := some (String.ofList host), port := n } := by
  have hremote : IsRemote host (':' :: Numeral.digits n)
      { host := some (String.ofList host), port := n } := ⟨hne, n, portAfter_digits hn, rfl⟩
  rw [text_chars]
  obtain ⟨hcolon, hclosed⟩ | ⟨hcolon, hends, hplain⟩ := readsBack_iff.1 h
  · have hbracket : ('[' :: (host ++ [']'])).dropWhile isBlank = '[' :: (host ++ [']']) :=
      List.dropWhile_cons_of_neg (by decide +kernel)
    rw [if_pos hcolon, trim_text hn.1, hbracket]
    have hspells := Spells.bracketed hclosed hremote
    simpa using hspells
  · have hwhole : host.dropWhile isBlank = host :=
      Scan.dropWhile_append_of_ends (List.forall_mem_nil _) hends
    rw [if_neg hcolon, trim_text hn.1, hwhole]
    exact .plain hcolon hremote ((isPlain_append hn.1 hne hcolon).2 hplain)

/-- The path of a local socket ends where its spelling did, so that none of it is cut off. -/
theorem spells_of_path {s : List Char} {a : Address} (hs : Spells s a)
    (hends : Scan.Ends isBlank s.reverse) {path : String} (hpath : a.unixPath = some path) :
    Spells (trim isBlank ("unix:" ++ path).toList) a := by
  have hread {path : List Char} (hne : path ≠ []) (hends : Scan.Ends isBlank path.reverse) :
      Spells (trim isBlank ("unix:" ++ String.ofList path).toList)
        { unixPath := some (String.ofList path) } := by
    have hlast : Scan.Ends isBlank (unixMark ++ path).reverse := by
      rw [List.reverse_append]
      exact (Scan.ends_append (List.reverse_ne_nil_iff.2 hne)).2 hends
    have hmark : unixMark ++ path = [] ++ 'u' :: ("nix:".toList ++ path) := rfl
    have htrim : trim isBlank (unixMark ++ path) = unixMark ++ path := by
      rw [hmark] at hlast ⊢
      exact trim_append_cons (by decide +kernel) hlast
    have hchars : ("unix:" ++ String.ofList path).toList = unixMark ++ path := by
      simp [unixMark]
    rw [hchars, htrim]
    exact .marked hne
  cases hs with
  | @marked path hne =>
    obtain rfl := Option.some.inj hpath
    rw [List.reverse_append] at hends
    exact hread hne ((Scan.ends_append (List.reverse_ne_nil_iff.2 hne)).1 hends)
  | rooted path =>
    obtain rfl := Option.some.inj hpath
    exact hread (List.cons_ne_nil _ _) hends
  | bracketed _ remote | plain _ remote =>
    obtain ⟨-, _, -, rfl⟩ := remote
    cases hpath
  | crowded => cases hpath

/-! ### The round trip -/

/-- An address that can be connected to: a local socket, or a host and a port. -/
inductive IsEndpoint : Address → Prop
  | socket (path : String) (ne_empty : path ≠ "") : IsEndpoint { unixPath := some path }
  | remote (host : String) (port : Int) (ne_empty : host ≠ "") (range : 0 < port ∧ port ≤ portLimit) :
    IsEndpoint { host := some host, port := port }

/-- A text is that of an address, and this is how it reads. -/
structure HasText (a : Address) (t : String) : Prop where
  written : a.text = .ok t
  /-- A local socket comes back, -/
  socket : a.isUnix → ofText t = .ok a
  /-- and of the hosts exactly these. -/
  remote : ∀ host, a.host = some host → (ofText t = .ok a ↔ ReadsBack host)
  /-- For any other host the text is refused or names something else. -/
  other : ∀ host, a.host = some host → ¬ ReadsBack host →
    (∃ e, ofText t = .error e) ∨ ∃ b, ofText t = .ok b ∧ b.host ≠ a.host

theorem IsRemote.isEndpoint {host after : List Char} {a : Address} (h : IsRemote host after a) :
    a.IsEndpoint := by
  obtain ⟨hne, n, hn, rfl⟩ := h
  exact .remote _ n (by simpa using hne) hn.range

theorem Spells.isEndpoint {s : List Char} {a : Address} (h : Spells s a) : a.IsEndpoint := by
  cases h with
  | marked ne_nil => exact .socket _ (by simpa using ne_nil)
  | rooted path => exact .socket _ (by simp)
  | bracketed _ remote | plain _ remote => exact remote.isEndpoint
  | crowded colons =>
    have hne : s ≠ [] := by
      rintro rfl
      cases colons
    exact .remote _ defaultPort (by simpa using hne) (by decide)

theorem hasText_remote {host : String} {port : Int} (hne : host ≠ "")
    (hport : 0 < port ∧ port ≤ portLimit) :
    HasText { host := some host, port := port } (hostText (some host) (Numeral.spelling port)) := by
  have hhost : String.ofList host.toList = host := String.ofList_toList
  have hback {b : Address} (h : ofText (hostText (some host) (Numeral.spelling port)) = .ok b)
      (hb : b.host = some host) : ReadsBack host := by
    rw [← hhost] at h hb ⊢
    exact readsBack_of_spells hport.1 (ofText_eq_ok_iff.1 h) hb
  refine ⟨?written, by simp [isUnix], ?remote, ?other⟩
  case written =>
    rw [text, Numeral.text_of_not_overlong (not_overlong_port hport)]
    rfl
  case remote =>
    intro h hh
    obtain rfl := Option.some.inj hh
    refine ⟨fun h => hback h rfl, fun h => ofText_eq_ok_iff.2 ?_⟩
    rw [← hhost] at h ⊢
    exact spells_of_readsBack hport (by simpa using hne) h
  case other =>
    intro h hh hnot
    obtain rfl := Option.some.inj hh
    rcases hread : ofText (hostText (some host) (Numeral.spelling port)) with e | b
    · exact .inl ⟨e, rfl⟩
    · exact .inr ⟨b, rfl, fun hb => hnot (hback hread hb)⟩

/-- What a text spells is an endpoint, and it comes back from its own text if it is a local
socket, and else exactly if its host allows that. -/
theorem text_of_spelled (s : String) (a : Address) (h : ofText s = .ok a) :
    a.IsEndpoint ∧ ∃ t, a.HasText t := by
  have hspells := ofText_eq_ok_iff.1 h
  refine ⟨hspells.isEndpoint, ?_⟩
  cases hspells.isEndpoint with
  | socket path =>
    refine ⟨"unix:" ++ path, rfl, fun _ => ?_, by simp, by simp⟩
    exact ofText_eq_ok_iff.2 (spells_of_path hspells (ends_reverse_trim _ _) rfl)
  | remote host port hne hport => exact ⟨_, hasText_remote hne hport⟩

/-- A host with colons, and a port in other digits. -/
theorem text_of_bracketed :
    ofText " [fe80::1]:٤٢\n" = .ok ⟨some "fe80::1", 42, none⟩ ∧
      IsEndpoint ⟨some "fe80::1", 42, none⟩ ∧ ∃ t, HasText ⟨some "fe80::1", 42, none⟩ t := by
  have hread : ofText " [fe80::1]:٤٢\n" = .ok ⟨some "fe80::1", 42, none⟩ := by decide +kernel
  exact ⟨hread, text_of_spelled _ _ hread⟩

/-- In brackets a host may be the word before the path of a socket; its text names the socket. -/
example : ofText "[unix]:1" = .ok ⟨some "unix", 1, none⟩ ∧
    ofText "unix:1" = .ok { unixPath := some "1" } := by
  decide +kernel

end Address

end RrdCache
