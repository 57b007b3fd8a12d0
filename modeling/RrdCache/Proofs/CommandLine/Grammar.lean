/-
RrdCache/Proofs/CommandLine/Grammar.lean

How a command line is used up.  Filling an operand and taking an option cut tokens off the front
of the line and leave the others as they are, so that what is left after any number of them is an
end of the line.  One step from a line with an option in it takes its first token at least.

Main result (`Grammar.read_budget`): as the line gets shorter with each step, the budget for the
steps is never used up, and any greater one reads the line in the same way.
-/
import Mathlib.Data.List.TakeDrop
import RrdCache.CommandLine.Grammar
import RrdCache.Proofs.Result

namespace RrdCache

/-! ### Operands -/

namespace OperandKind

variable {kind : OperandKind} {tokens mine others : List Token}

theorem takeMore_append (kind : OperandKind) (tokens : List Token) :
    (kind.takeMore tokens).1 ++ (kind.takeMore tokens).2 = tokens := by
  cases kind <;> simp [takeMore, List.span_eq_takeWhile_dropWhile]

/-- The tokens of an operand stand in front of the others. -/
theorem take?_append (h : kind.take? tokens = some (mine, others)) : mine ++ others = tokens := by
  have hsplit : tokens = tokens.takeWhile Token.isSeparator ++ tokens.dropWhile Token.isSeparator :=
    List.takeWhile_append_dropWhile.symm
  rw [take?, List.span_eq_takeWhile_dropWhile] at h
  generalize tokens.takeWhile Token.isSeparator = before at h hsplit
  generalize tokens.dropWhile Token.isSeparator = later at h hsplit
  subst hsplit
  rcases later with - | ⟨t, later⟩
  · dsimp only at h
    split at h
    · obtain ⟨rfl, rfl⟩ := Prod.mk.inj (Option.some.inj h)
      rfl
    · cases h
  · dsimp only at h
    split at h
    · obtain ⟨rfl, rfl⟩ := Prod.mk.inj (Option.some.inj h)
      rw [List.append_assoc, List.cons_append, takeMore_append]
    · split at h
      · obtain ⟨rfl, rfl⟩ := Prod.mk.inj (Option.some.inj h)
        rfl
      · cases h

end OperandKind

/-! ### Steps -/

namespace Matches

variable {m m' : Matches} {t : Token} {tokens later rest : List Token}

theorem fill_suffix {pending : List OperandSpec}
    (h : m.fill pending tokens = .ok (m', rest)) : rest <:+ tokens := by
  induction pending generalizing m tokens with
  | nil =>
    obtain ⟨-, rfl⟩ := Prod.mk.inj (Except.ok.inj h)
    exact List.suffix_rfl
  | cons spec pending ih =>
    rw [fill] at h
    rcases htake : spec.kind.take? tokens with - | ⟨mine, others⟩
    · rw [htake] at h
      obtain ⟨-, rfl⟩ := Prod.mk.inj (Except.ok.inj h)
      exact List.suffix_rfl
    · rw [htake] at h
      obtain ⟨filled, -, h⟩ := Result.bind_eq_ok.1 h
      rw [← OperandKind.take?_append htake]
      exact (ih h).trans (List.suffix_append _ _)

theorem takeOption_suffix {spec : OptionSpec} {attached : Option String}
    (h : m.takeOption spec attached later = .ok (m', rest)) : rest <:+ later := by
  -- whatever is taken, these are the tokens that go with it
  have hrest {x : Except Stop Matches} {others : List Token}
      (hx : x.map (·, others) = .ok (m', rest)) : rest = others := by
    obtain ⟨_, -, hpair⟩ := Result.map_eq_ok.1 hx
    exact (Prod.mk.inj hpair).2.symm
  rw [takeOption.eq_def] at h
  cases hkind : spec.kind <;> rw [hkind] at h
  case help | flag => exact hrest h ▸ List.suffix_rfl
  case one =>
    rcases attached with - | value
    · -- the value is the token after the option
      rcases later with - | ⟨t, later⟩
      · cases h
      · dsimp only at h
        split at h
        · exact hrest h ▸ List.suffix_cons _ _
        · cases h
    · exact hrest h ▸ List.suffix_rfl
  case many =>
    rcases attached with - | value
    · -- the values are the operands after the option
      rw [List.span_eq_takeWhile_dropWhile] at h
      exact hrest h ▸ List.dropWhile_suffix _
    · exact hrest h ▸ List.suffix_rfl

/-- Where an argument stands in front, it is taken or left over. -/
theorem stepOperands_suffix (ht : t.isArgument)
    (h : m.stepOperands (t :: later) = .ok (m', rest)) : rest <:+ later := by
  obtain ⟨⟨filled, others⟩, hfill, h⟩ := Result.bind_eq_ok.1 h
  dsimp only at h
  split at h
  · rename_i hshorter
    obtain ⟨-, rfl⟩ := Prod.mk.inj (Except.ok.inj h)
    rcases List.suffix_cons_iff.1 (fill_suffix hfill) with rfl | hothers
    · exact absurd hshorter (Nat.lt_irrefl _)
    · exact hothers
  · obtain ⟨-, rfl⟩ := Prod.mk.inj (Except.ok.inj h)
    rw [List.span_eq_takeWhile_dropWhile, List.dropWhile_cons_of_pos ht]
    exact List.dropWhile_suffix _

/-- One step takes the first token at least. -/
theorem step_suffix (h : m.step t later = .ok (m', rest)) : rest <:+ later := by
  rw [step] at h
  rcases hsort : t.sort with - | - | ⟨spec, attached⟩ | stop | - <;> rw [hsort] at h
  · exact stepOperands_suffix (by simp [Token.isArgument, Token.isOperand, hsort]) h
  · exact stepOperands_suffix (by simp [Token.isArgument, Token.isSeparator, hsort]) h
  · exact takeOption_suffix h
  · cases h
  · obtain ⟨-, rfl⟩ := Prod.mk.inj (Except.ok.inj h)
    exact List.suffix_rfl

/-- All budgets greater than the number of tokens take them in the same way. -/
theorem takeAll_budget {n k : Nat} (hn : tokens.length < n) (hk : tokens.length < k) :
    m.takeAll tokens n = m.takeAll tokens k := by
  induction n generalizing m tokens k with
  | zero => exact absurd hn (Nat.not_lt_zero _)
  | succ n ih =>
    obtain - | k := k
    · exact absurd hk (Nat.not_lt_zero _)
    rw [takeAll.eq_def, takeAll.eq_def m tokens (k + 1)]
    dsimp only
    split
    · rfl
    rcases tokens with - | ⟨t, later⟩
    · rfl
    · dsimp only
      rcases hstep : m.step t later with stop | ⟨m', rest⟩
      · rfl
      · have hrest : rest.length ≤ later.length := (step_suffix hstep).length_le
        have hn : rest.length < n := Nat.lt_of_le_of_lt hrest (Nat.lt_of_succ_lt_succ hn)
        have hk : rest.length < k := Nat.lt_of_le_of_lt hrest (Nat.lt_of_succ_lt_succ hk)
        exact ih hn hk

end Matches

/-! ### Lines -/

namespace Grammar

/-- Each argument is one token. -/
theorem tokens_length {g : Grammar} {line : List String} {tokens : List Token}
    (h : g.tokens line = .ok tokens) : tokens.length = line.length := by
  induction line generalizing tokens with
  | nil =>
    obtain rfl := Except.ok.inj h
    rfl
  | cons text line ih =>
    rw [Grammar.tokens] at h
    split at h
    · obtain rfl := Except.ok.inj h
      rw [List.length_cons, List.length_map, List.length_cons]
    · obtain ⟨sort, -, h⟩ := Result.bind_eq_ok.1 h
      obtain ⟨later, hlater, h⟩ := Result.bind_eq_ok.1 h
      obtain rfl := Except.ok.inj h
      rw [List.length_cons, List.length_cons, ih hlater]

/-- A line is read with any budget that is greater than the number of its arguments. -/
theorem read_budget (g : Grammar) {line : List String} {budget : Nat} (h : line.length < budget) :
    g.read line = (do
      let tokens ← g.tokens line
      let m ← Matches.takeAll { pending := g.operands } tokens budget
      if m.pending.all OperandSpec.isOptional then .ok m else .error .usage) := by
  rw [read]
  rcases htokens : g.tokens line with stop | tokens
  · rfl
  · have hbudget : tokens.length < budget := tokens_length htokens ▸ h
    show (Matches.takeAll _ tokens (tokens.length + 1) >>= _) = _
    rw [Matches.takeAll_budget (Nat.lt_succ_self _) hbudget]
    rfl

end Grammar

end RrdCache
