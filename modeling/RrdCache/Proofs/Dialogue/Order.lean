/-
RrdCache/Proofs/Dialogue/Order.lean

What was done before a line is handed over.  `InOrder after past d` says of a dialogue with a
past that each line which it hands over comes after things that it may come after, wherever
the dialogue runs and however far it gets.  A dialogue that goes on with a value has as its
past what was done to get the value (`InOrder.bind`), so that the past of every line is known
although the rest of a run is not.
-/
import RrdCache.Proofs.Dialogue.Traffic

namespace RrdCache

namespace Dialogue

variable {α β : Type} {after : List Event → String → Prop} {past : List Event}

/-- With this past, every line that is handed over comes after what it may come after. -/
def InOrder (after : List Event → String → Prop) (past : List Event) (d : Dialogue α) : Prop :=
  ∀ w before line answer rest, d.traffic w = before ++ ⟨.write line, answer⟩ :: rest →
    after (past ++ before) line

namespace InOrder

/-- A dialogue that hands nothing over is in order. -/
theorem of_asks {d : Dialogue α} (hd : d.Asks fun a => ∀ line, a ≠ .write line) :
    d.InOrder after past := by
  intro w before line answer rest h
  have hmem : (⟨.write line, answer⟩ : Event) ∈ d.traffic w := by simp [h]
  exact absurd rfl (hd.mem_trace (mem_traffic.1 hmem).1 line)

theorem bind {d : Dialogue α} {f : α → Dialogue β} (hd : d.InOrder after past)
    (hf : ∀ w a, (d.run w).1 = .ok a → (f a).InOrder after (past ++ d.traffic w)) :
    (d >>= f).InOrder after past := by
  intro w before line answer rest h
  rcases hresult : (d.run w).1 with e | a
  · rw [traffic_bind_error hresult] at h
    exact hd w before line answer rest h
  · rw [traffic_bind_ok hresult] at h
    -- the line was handed over either by the first part or by the second
    rcases List.append_eq_append_iff.1 h with ⟨before', rfl, h'⟩ | ⟨rest', hfirst, hrest⟩
    · rw [← List.append_assoc]
      exact hf w a hresult _ before' line answer rest h'
    · rcases rest' with - | ⟨e, rest'⟩
      · rw [List.append_nil] at hfirst
        have hlater := hf w a hresult (d.run w).2 [] line answer rest hrest.symm
        rwa [List.append_nil, hfirst] at hlater
      · obtain ⟨rfl, rfl⟩ := List.cons.inj hrest
        exact hd w before line answer rest' hfirst

/-- One line is in order if it may come after the past. -/
theorem perform {line : String} (h : after past line) :
    (Dialogue.perform (.write line)).InOrder after past := by
  intro w before line' answer rest htraffic
  rw [traffic_perform rfl] at htraffic
  rcases before with - | ⟨e, before⟩
  · obtain ⟨heq, -⟩ := List.cons.inj htraffic
    obtain rfl : line = line' := Action.write.inj (congrArg Event.action heq)
    rwa [List.append_nil]
  · exact absurd (List.cons.inj htraffic).2 (by simp)

end InOrder

end Dialogue

end RrdCache
