import Vignette.Library.Progress

/-! Programs on top of a transition system, and what a run with its program is without it. -/

universe u v w

namespace Vignette.Library

/-- A program takes steps of its own, and goes along with the steps of the system, of
which it may rule some out. -/
structure Program (σ : Type u) (ℓ : Type v) (κ : Type w) where
  init : κ → Prop
  own : σ → κ → κ → Prop
  along : κ → ℓ → κ → Prop

namespace Program

variable {σ : Type u} {ℓ : Type v} {κ : Type w}

/-- A step of the program is its own (`none`), or one of the system's with it. -/
inductive Step (p : Program σ ℓ κ) (M : System σ ℓ) : σ × κ → Option ℓ → σ × κ → Prop
  | own {s k k'} : p.own s k k' → Step p M (s, k) none (s, k')
  | along {s l t k k'} : M.step s l t → p.along k l k' → Step p M (s, k) (some l) (t, k')

def drive (p : Program σ ℓ κ) (M : System σ ℓ) : System (σ × κ) (Option ℓ) where
  init s := M.init s.1 ∧ p.init s.2
  step := Step p M

def systemSteps (steps : List ((σ × κ) × Option ℓ)) : List (σ × ℓ) :=
  steps.filterMap fun x => x.2.map fun l => (x.1.1, l)

def OnSystem (P : σ → ℓ → Prop) (s : σ × κ) (l : Option ℓ) : Prop := ∀ l' ∈ l, P s.1 l'

variable {p : Program σ ℓ κ} {M : System σ ℓ} {P : σ → ℓ → Prop}
  {steps : List ((σ × κ) × Option ℓ)} {s t : σ × κ}

theorem systemSteps_own (steps : List ((σ × κ) × Option ℓ)) (s : σ × κ) :
    systemSteps (steps ++ [(s, none)]) = systemSteps steps := by
  simp [systemSteps]

theorem systemSteps_along (steps : List ((σ × κ) × Option ℓ)) (s : σ × κ) (l : ℓ) :
    systemSteps (steps ++ [(s, some l)]) = systemSteps steps ++ [(s.1, l)] := by
  simp [systemSteps]

theorem ownPath {s₀ : σ × κ} {s : σ} {k k' : κ}
    (h : (p.drive M).Path (OnSystem P) s₀ steps (s, k)) (hown : p.own s k k') :
    (p.drive M).Path (OnSystem P) s₀ (steps ++ [((s, k), none)]) (s, k') :=
  h.snoc (fun _ hl => by cases hl) (.own hown)

theorem exists_path {s₀ : σ × κ} {steps₀ : List ((σ × κ) × Option ℓ)} {s t : σ}
    {steps : List (σ × ℓ)} {k : Nat → κ}
    (h₀ : (p.drive M).Path (OnSystem P) s₀ steps₀ (s, k 0)) (h : M.Path P s steps t)
    (halong : ∀ i l, (steps.map Prod.snd)[i]? = some l → p.along (k i) l (k (i + 1))) :
    ∃ steps', (p.drive M).Path (OnSystem P) s₀ steps' (t, k steps.length) ∧
      systemSteps steps' = systemSteps steps₀ ++ steps := by
  induction h with
  | nil => exact ⟨steps₀, h₀, by simp⟩
  | @snoc steps t l u _ hP hstep ih =>
    have hbefore i l' (hl : (steps.map Prod.snd)[i]? = some l') :
        p.along (k i) l' (k (i + 1)) := by
      refine halong i l' ?_
      rw [List.map_append, List.getElem?_append_left (List.getElem?_eq_some_iff.mp hl).1, hl]
    obtain ⟨steps', hpath, hsteps⟩ := ih hbefore
    refine ⟨steps' ++ [((t, k steps.length), some l)], ?_, ?_⟩
    · rw [List.length_append, List.length_singleton]
      have hlast := halong steps.length l (by simp)
      exact hpath.snoc (by rintro l' ⟨⟩; exact hP) (.along hstep hlast)
    · rw [systemSteps_along, hsteps, List.append_assoc]

end Program

end Vignette.Library
