/-
RrdCache/Proofs/Address/Spelling.lean

What spells an address.  Six spellings overlap: a mark or a slash before the path of a local
socket, a host in brackets or without them, a port after it or none, and a host with several
colons.  `Spells` gives each of them the condition under which it is taken.

Main result: a text is read exactly if it is one of these between white space, and as the
address that it then spells (`ofText_eq_ok_iff`).
-/
import RrdCache.Address
import RrdCache.Proofs.Result
import RrdCache.Proofs.Text.Scan

namespace RrdCache

namespace Address

/-- What may follow a host, and the port that it gives. -/
inductive PortAfter : List Char → Int → Prop
  | missing : PortAfter [] defaultPort
  | empty : PortAfter [':'] defaultPort
  | given {port : List Char} {n : Int} (ne_nil : port ≠ []) (digits : port.all hasDigitValue)
    (reads : Numeral.ofText port = .ok n) (range : 0 < n ∧ n ≤ portLimit) :
    PortAfter (':' :: port) n

/-- A host and what follows it make up an address. -/
def IsRemote (host after : List Char) (a : Address) : Prop :=
  host ≠ [] ∧ ∃ n, PortAfter after n ∧ a = { host := some (String.ofList host), port := n }

/-- The characters neither name a local socket nor begin with a bracket. -/
structure IsPlain (s : List Char) : Prop where
  not_marked : ¬ unixMark <+: s
  not_rooted : s.head? ≠ some '/'
  not_bracketed : s.head? ≠ some '['

/-- The spellings of addresses, without the white space around them. -/
inductive Spells : List Char → Address → Prop
  | marked {path : List Char} (ne_nil : path ≠ []) :
    Spells (unixMark ++ path) { unixPath := some (String.ofList path) }
  | rooted (path : List Char) :
    Spells ('/' :: path) { unixPath := some (String.ofList ('/' :: path)) }
  | bracketed {host after : List Char} {a : Address} (closed : ']' ∉ host)
    (remote : IsRemote host after a) : Spells ('[' :: (host ++ ']' :: after)) a
  | plain {host after : List Char} {a : Address} (free : ':' ∉ host)
    (remote : IsRemote host after a) (isPlain : IsPlain (host ++ after)) : Spells (host ++ after) a
  | crowded {host : List Char} (colons : 2 ≤ host.count ':') (isPlain : IsPlain host) :
    Spells host { host := some (String.ofList host) }

theorem isRemote_nil {host : List Char} {a : Address} :
    IsRemote host [] a ↔ host ≠ [] ∧ a = { host := some (String.ofList host) } := by
  constructor
  · rintro ⟨hne, n, hn, rfl⟩
    cases hn
    exact ⟨hne, rfl⟩
  · rintro ⟨hne, rfl⟩
    exact ⟨hne, defaultPort, .missing, rfl⟩

theorem ne_nil_of_ofHost {all : String} {host port : List Char} {a : Address}
    (h : ofHost all host port = .ok a) : host ≠ [] := by
  rintro rfl
  cases h

theorem ofHost_nil_eq_ok_iff {all : String} {host : List Char} {a : Address} :
    ofHost all host [] = .ok a ↔ IsRemote host [] a := by
  rw [isRemote_nil]
  constructor
  · intro h
    have hne := ne_nil_of_ofHost h
    rw [ofHost, if_neg (by simpa using hne)] at h
    exact ⟨hne, (Except.ok.inj h).symm⟩
  · rintro ⟨hne, rfl⟩
    rw [ofHost, if_neg (by simpa using hne)]
    rfl

theorem ofHost_eq_ok_iff {all : String} {host port : List Char} {a : Address} :
    ofHost all host port = .ok a ↔ IsRemote host (':' :: port) a := by
  by_cases hport : port = []
  · subst hport
    rw [ofHost_nil_eq_ok_iff, isRemote_nil]
    constructor
    · rintro ⟨hne, rfl⟩
      exact ⟨hne, defaultPort, .empty, rfl⟩
    · rintro ⟨hne, n, hn, rfl⟩
      cases hn with
      | empty => exact ⟨hne, rfl⟩
      | given ne_nil => exact absurd rfl ne_nil
  · constructor
    · intro h
      have hne := ne_nil_of_ofHost h
      rw [ofHost, if_neg (by simpa using hne), if_neg (by simpa using hport)] at h
      split at h
      · cases h
      · rename_i hdigits
        obtain ⟨n, hn, h⟩ := Result.bind_eq_ok.1 h
        split at h
        · rename_i hrange
          exact ⟨hne, n, .given hport (by simpa using hdigits) (Result.liftNumeral_eq_ok.1 hn)
            hrange, (Except.ok.inj h).symm⟩
        · cases h
    · rintro ⟨hne, n, hn, rfl⟩
      cases hn with
      | empty => exact absurd rfl hport
      | given _ digits reads range =>
        rw [ofHost, if_neg (by simpa using hne), if_neg (by simpa using hport),
          if_neg (by simp [digits])]
        exact Result.bind_eq_ok.2 ⟨n, Result.liftNumeral_eq_ok.2 reads, if_pos range⟩

theorem PortAfter.colons {after : List Char} {n : Int} (h : PortAfter after n) :
    after = [] ∨ ∃ port, after = ':' :: port ∧ ':' ∉ port := by
  cases h with
  | missing => exact .inl rfl
  | empty => exact .inr ⟨[], rfl, List.not_mem_nil⟩
  | @given port _ _ digits =>
    refine .inr ⟨port, rfl, fun hmem => ?_⟩
    have hdigit := List.all_eq_true.1 digits _ hmem
    revert hdigit
    decide +kernel

theorem PortAfter.range {after : List Char} {n : Int} (h : PortAfter after n) :
    0 < n ∧ n ≤ portLimit := by
  cases h with
  | missing | empty => decide
  | given _ _ _ range => exact range

theorem ofBracketed_eq_ok_iff {all : String} {s : List Char} {a : Address} :
    ofBracketed all s = .ok a ↔
      ∃ host after, s = host ++ ']' :: after ∧ ']' ∉ host ∧ IsRemote host after a := by
  constructor
  · intro h
    have hclosed : ']' ∉ s.takeWhile (· != ']') := fun hmem => by
      simpa using List.mem_takeWhile_imp hmem
    have hsplit : s = s.takeWhile (· != ']') ++ s.dropWhile (· != ']') :=
      List.takeWhile_append_dropWhile.symm
    have hends : Scan.Ends (· != ']') (s.dropWhile (· != ']')) := Scan.ends_dropWhile
    rw [ofBracketed] at h
    split at h
    · cases h
    · rename_i hrest
      rw [hrest] at hsplit hends
      obtain rfl : _ = ']' := by simpa using hends
      exact ⟨_, [], hsplit, hclosed, ofHost_nil_eq_ok_iff.1 h⟩
    · rename_i port hrest
      rw [hrest] at hsplit hends
      obtain rfl : _ = ']' := by simpa using hends
      exact ⟨_, ':' :: port, hsplit, hclosed, ofHost_eq_ok_iff.1 h⟩
    · cases h
  · rintro ⟨host, after, rfl, hclosed, hremote⟩
    have hhost : ∀ c ∈ host, (c != ']') = true := fun c hc => by
      simpa using fun h : c = ']' => hclosed (h ▸ hc)
    have hends : Scan.Ends (· != ']') (']' :: after) := by simp
    rw [ofBracketed, Scan.takeWhile_append_of_ends hhost hends,
      Scan.dropWhile_append_of_ends hhost hends]
    obtain ⟨-, n, hn, -⟩ := id hremote
    obtain rfl | ⟨port, rfl, -⟩ := hn.colons
    · exact ofHost_nil_eq_ok_iff.2 hremote
    · exact ofHost_eq_ok_iff.2 hremote

theorem ofPlain_eq_ok_iff {all : String} {s : List Char} {a : Address} :
    ofPlain all s = .ok a ↔
      (∃ host after, s = host ++ after ∧ ':' ∉ host ∧ IsRemote host after a) ∨
      (2 ≤ s.count ':' ∧ a = { host := some (String.ofList s) }) := by
  constructor
  · intro h
    rw [ofPlain] at h
    split at h
    · rename_i hone
      have hsplit : s = s.takeWhile (· != ':') ++ s.dropWhile (· != ':') :=
        List.takeWhile_append_dropWhile.symm
      have hfree : ':' ∉ s.takeWhile (· != ':') := fun hmem => by
        simpa using List.mem_takeWhile_imp hmem
      have hends : Scan.Ends (· != ':') (s.dropWhile (· != ':')) := Scan.ends_dropWhile
      generalize s.takeWhile (· != ':') = host at h hsplit hfree
      generalize s.dropWhile (· != ':') = after at h hsplit hends
      subst hsplit
      rcases after with - | ⟨c, port⟩
      · rw [List.append_nil, List.count_eq_zero.2 hfree] at hone
        cases hone
      · obtain rfl : c = ':' := by simpa using hends
        exact .inl ⟨host, ':' :: port, rfl, hfree, ofHost_eq_ok_iff.1 h⟩
    · rename_i hcount
      obtain ⟨hne, rfl⟩ := isRemote_nil.1 (ofHost_nil_eq_ok_iff.1 h)
      rcases Nat.eq_zero_or_pos (s.count ':') with hzero | hpos
      · have hfree : ':' ∉ s := List.count_eq_zero.1 hzero
        exact .inl ⟨s, [], (List.append_nil s).symm, hfree, isRemote_nil.2 ⟨hne, rfl⟩⟩
      · exact .inr ⟨by omega, rfl⟩
  · rintro (⟨host, after, rfl, hfree, hremote⟩ | ⟨hcount, rfl⟩)
    · have hhost : ∀ c ∈ host, (c != ':') = true := fun c hc => by
        simpa using fun h : c = ':' => hfree (h ▸ hc)
      have hzero : host.count ':' = 0 := List.count_eq_zero.2 hfree
      obtain ⟨-, n, hn, -⟩ := id hremote
      obtain rfl | ⟨port, rfl, hport⟩ := hn.colons
      · rw [ofPlain, List.append_nil, if_neg (by omega)]
        exact ofHost_nil_eq_ok_iff.2 hremote
      · have hone : (host ++ ':' :: port).count ':' = 1 := by
          rw [List.count_append, hzero, List.count_cons_self, List.count_eq_zero.2 hport]
        have hends : Scan.Ends (· != ':') (':' :: port) := by simp
        rw [ofPlain, if_pos hone, Scan.takeWhile_append_of_ends hhost hends,
          Scan.dropWhile_append_of_ends hhost hends]
        exact ofHost_eq_ok_iff.2 hremote
    · have hne : s ≠ [] := by
        rintro rfl
        cases hcount
      rw [ofPlain, if_neg (by omega)]
      exact ofHost_nil_eq_ok_iff.2 (isRemote_nil.2 ⟨hne, rfl⟩)

theorem ofTrimmed_of_isPlain {s : List Char} (hs : IsPlain s) (hne : s ≠ []) :
    ofTrimmed s = ofPlain (String.ofList s) s := by
  have hmarked : ¬ unixMark.isPrefixOf s := fun h =>
    hs.not_marked (List.isPrefixOf_iff_prefix.1 h)
  unfold ofTrimmed
  rw [if_neg (by simpa using hne), if_neg hmarked]
  split
  · exact absurd rfl hs.not_rooted
  · exact absurd rfl hs.not_bracketed
  · rfl

/-- A text is read exactly if it spells an address, and as that address. -/
theorem ofTrimmed_eq_ok_iff {s : List Char} {a : Address} :
    ofTrimmed s = .ok a ↔ Spells s a := by
  constructor
  · intro h
    unfold ofTrimmed at h
    dsimp only at h
    split at h
    · cases h
    · split at h
      · rename_i hmarked
        obtain ⟨path, rfl⟩ := List.isPrefixOf_iff_prefix.1 hmarked
        rw [List.drop_left] at h
        split at h
        · cases h
        · rename_i hpath
          obtain rfl := Except.ok.inj h
          exact .marked (by simpa using hpath)
      · rename_i hmarked
        rw [List.isPrefixOf_iff_prefix] at hmarked
        split at h
        · obtain rfl := Except.ok.inj h
          exact .rooted _
        · obtain ⟨host, after, rfl, hclosed, hremote⟩ := ofBracketed_eq_ok_iff.1 h
          exact .bracketed hclosed hremote
        · rename_i hrooted hbracketed
          have hplain : IsPlain s := by
            refine ⟨hmarked, fun hhead => ?_, fun hhead => ?_⟩
            · obtain ⟨rest, rfl⟩ := List.head?_eq_some_iff.1 hhead
              exact hrooted rest rfl
            · obtain ⟨rest, rfl⟩ := List.head?_eq_some_iff.1 hhead
              exact hbracketed rest rfl
          obtain ⟨host, after, rfl, hfree, hremote⟩ | ⟨hcount, rfl⟩ := ofPlain_eq_ok_iff.1 h
          · exact .plain hfree hremote hplain
          · exact .crowded hcount hplain
  · intro h
    cases h with
    | @marked path ne_nil =>
      have hmarked : unixMark.isPrefixOf (unixMark ++ path) :=
        List.isPrefixOf_iff_prefix.2 (List.prefix_append _ _)
      unfold ofTrimmed
      rw [if_neg (by simp [unixMark]), if_pos hmarked, List.drop_left,
        if_neg (by simpa using ne_nil)]
    | rooted path => rfl
    | bracketed closed remote => exact ofBracketed_eq_ok_iff.2 ⟨_, _, rfl, closed, remote⟩
    | plain free remote isPlain =>
      rw [ofTrimmed_of_isPlain isPlain (List.append_ne_nil_of_left_ne_nil remote.1 _)]
      exact ofPlain_eq_ok_iff.2 (.inl ⟨_, _, rfl, free, remote⟩)
    | crowded colons isPlain =>
      have hne : s ≠ [] := by
        rintro rfl
        cases colons
      rw [ofTrimmed_of_isPlain isPlain hne]
      exact ofPlain_eq_ok_iff.2 (.inr ⟨colons, rfl⟩)

theorem ofText_eq_ok_iff {s : String} {a : Address} :
    ofText s = .ok a ↔ Spells (trim isBlank s.toList) a :=
  ofTrimmed_eq_ok_iff

end Address

end RrdCache
