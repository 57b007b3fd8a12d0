/-
RrdCache/Proofs/Address/Parts.lean

What an address is made of.  A text that spells an address gives the path of a local socket,
or a host and a port in range, and both path and host are pieces of the text.  Such an address
always has a text of its own, and that text has no line breaks if the first one had none.

Main result (`Address.ofText_parts`).
-/
import RrdCache.Proofs.Address.Spelling
import RrdCache.Proofs.Text.OneLine

namespace RrdCache

namespace Address

/-- What an address is made of: the path of a local socket, or a host and a port, and they
come from these characters. -/
inductive IsMadeOf (s : List Char) : Address → Prop
  | path (path : List Char) (subset : path ⊆ s) :
    IsMadeOf s { unixPath := some (String.ofList path) }
  | host (host : List Char) (port : Int) (subset : host ⊆ s) (range : 0 < port ∧ port ≤ portLimit) :
    IsMadeOf s { host := some (String.ofList host), port := port }

theorem IsMadeOf.mono {s t : List Char} {a : Address} (h : a.IsMadeOf s) (hst : s ⊆ t) :
    a.IsMadeOf t := by
  cases h with
  | path path subset => exact .path path (List.Subset.trans subset hst)
  | host host port subset range => exact .host host port (List.Subset.trans subset hst) range

/-- The host that stands in a spelling is a part of it. -/
theorem IsRemote.parts {host after s : List Char} {a : Address} (h : IsRemote host after a)
    (hsubset : host ⊆ s) : a.IsMadeOf s := by
  obtain ⟨-, n, hn, rfl⟩ := h
  exact .host host n hsubset hn.range

theorem Spells.parts {s : List Char} {a : Address} (h : Spells s a) : a.IsMadeOf s := by
  cases h with
  | marked => exact .path _ (List.subset_append_right _ _)
  | rooted path => exact .path _ (List.Subset.refl _)
  | bracketed _ remote =>
    exact remote.parts fun c hc => List.mem_cons_of_mem _ (List.mem_append_left _ hc)
  | plain _ remote => exact remote.parts (List.subset_append_left _ _)
  | crowded => exact .host s defaultPort (List.Subset.refl _) (by decide)

/-- The parts of an address are pieces of the text that spells it. -/
theorem ofText_parts {s : String} {a : Address} (h : ofText s = .ok a) :
    a.IsMadeOf s.toList := by
  have htrim : trim isBlank s.toList ⊆ s.toList := fun c hc =>
    (List.dropWhile_sublist _).subset (mem_of_mem_trimEnd hc)
  exact (ofText_eq_ok_iff.1 h).parts.mono htrim

/-- A port has so few digits that it can be written. -/
theorem not_overlong_port {port : Int} (h : 0 < port ∧ port ≤ portLimit) :
    ¬ Numeral.Overlong port := by
  have hpow (n : Nat) (hn : 5 ≤ n) : Nat.pow 10 5 ≤ Nat.pow 10 n :=
    Nat.pow_le_pow_right (by decide) hn
  have hport : port.natAbs < Nat.pow 10 5 := by
    have hlimit : portLimit = 65535 := rfl
    show port.natAbs < 100000
    omega
  exact Nat.not_le.2 (hport.trans_le (hpow Numeral.digitLimit (by decide)))

/-- An address that was spelled has a text, with no line break that was not in the spelling. -/
theorem IsMadeOf.text {s : List Char} {a : Address} (h : a.IsMadeOf s) :
    ∃ t, a.text = .ok t ∧ (Shape.IsText s → OneLine t) := by
  cases h with
  | path path subset =>
    exact ⟨_, rfl, fun hs => (OneLine.ofList (hs.subset subset)).after (by decide)⟩
  | host host port subset range =>
    have hport : Numeral.text port = .ok (Numeral.spelling port) :=
      Numeral.text_of_not_overlong (not_overlong_port range)
    refine ⟨hostText (some (String.ofList host)) (Numeral.spelling port), ?_, fun hs => ?_⟩
    · rw [Address.text, hport]
      rfl
    · have hhost := OneLine.ofList (hs.subset subset)
      rw [hostText]
      split
      · exact (hhost.after (by decide)).joined (by decide) (oneLine_spelling port)
      · exact hhost.joined (by decide) (oneLine_spelling port)

end Address

end RrdCache
