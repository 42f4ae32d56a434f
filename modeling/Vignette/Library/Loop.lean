/-! Loops that run until a turn of them stops, with the rule that proves their total
correctness from an invariant and a measure. -/

universe u v

namespace Vignette.Library

inductive Turn (σ : Type u) (ρ : Type v)
  | again (s : σ)
  | stop (r : ρ)

variable {σ : Type u} {ρ : Type v}

def loop (turn : σ → Turn σ ρ) : Nat → σ → Option ρ
  | 0, _ => none
  | fuel + 1, s =>
    match turn s with
    | .again s => loop turn fuel s
    | .stop r => some r

variable {turn : σ → Turn σ ρ}

theorem loop_again {s s' : σ} (h : turn s = .again s') (fuel : Nat) :
    loop turn (fuel + 1) s = loop turn fuel s' := by rw [loop, h]

theorem loop_stop {s : σ} {r : ρ} (h : turn s = .stop r) (fuel : Nat) :
    loop turn (fuel + 1) s = some r := by rw [loop, h]

/-- A loop each of whose turns keeps `I` and lowers the measure, or stops with a result
that `Q` allows, comes to such a result with any fuel above the measure. -/
theorem loop_rule {I : σ → Prop} {Q : ρ → Prop} (measure : σ → Nat)
    (next : ∀ {s}, I s → (∃ s', turn s = .again s' ∧ I s' ∧ measure s' < measure s) ∨
      ∃ r, turn s = .stop r ∧ Q r) {s : σ} (hs : I s) :
    ∃ r, Q r ∧ ∀ fuel, measure s < fuel → loop turn fuel s = some r := by
  generalize hn : measure s = n
  induction n using Nat.strongRecOn generalizing s with
  | ind n ih =>
    cases next hs with
    | inl h =>
      obtain ⟨s', ht, hs', hlt⟩ := h
      obtain ⟨r, hr, hloop⟩ := ih (measure s') (hn ▸ hlt) hs' rfl
      refine ⟨r, hr, fun fuel hfuel => ?_⟩
      cases fuel with
      | zero => exact absurd hfuel (Nat.not_lt_zero n)
      | succ fuel =>
        rw [loop_again ht]
        exact hloop fuel (by omega)
    | inr h =>
      obtain ⟨r, ht, hr⟩ := h
      refine ⟨r, hr, fun fuel hfuel => ?_⟩
      cases fuel with
      | zero => exact absurd hfuel (Nat.not_lt_zero n)
      | succ fuel => exact loop_stop ht fuel

end Vignette.Library
