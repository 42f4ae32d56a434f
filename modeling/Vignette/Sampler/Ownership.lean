import Mathlib.Data.List.Basic
import Vignette.Library.System

namespace Vignette

open Library

inductive SigHandler
  | sigDfl
  | sigIgn
  | handler (f : UInt64)
  | sigAction (f : UInt64)
  deriving DecidableEq

structure SigAction where
  handler : SigHandler
  flags : UInt32
  mask : UInt64
  deriving DecidableEq

def SA_SIGINFO : UInt32 := 0x00000004

def SA_RESTART : UInt32 := 0x10000000

namespace Ownership

structure Sampler where
  oldHandler : SigAction
  deriving DecidableEq

/-- The SIGPROF action of the process, and the samplers alive in it from the oldest to
the newest. -/
structure Process where
  action : SigAction
  samplers : List Sampler
  deriving DecidableEq

variable (sigprofHandler : UInt64)

def sigprofAction : SigAction where
  handler := .sigAction sigprofHandler
  flags := SA_RESTART ||| SA_SIGINFO
  mask := 0

def new (p : Process) : Process where
  action := sigprofAction sigprofHandler
  samplers := p.samplers ++ [{ oldHandler := p.action }]

def drop (p : Process) (i : Nat) : Option Process := do
  let sampler ← p.samplers[i]?
  return { action := sampler.oldHandler, samplers := p.samplers.eraseIdx i }

inductive Event
  | new
  | drop (i : Nat)
  deriving DecidableEq

def step (p : Process) : Event → Option Process
  | .new => some (new sigprofHandler p)
  | .drop i => drop p i

def lifetimes (initial : SigAction) : System Process Event where
  init p := p = { action := initial, samplers := [] }
  step p e p' := step sigprofHandler p e = some p'

def Owned (initial : SigAction) (p : Process) : Prop :=
  (p.samplers ≠ [] → p.action = sigprofAction sigprofHandler) ∧
    (p.samplers = [] → p.action = initial)

inductive Nested (initial : SigAction) : Process → Prop
  | idle : Nested initial { action := initial, samplers := [] }
  | alive (others) : (∀ s ∈ others, s.oldHandler = sigprofAction sigprofHandler) →
      Nested initial { action := sigprofAction sigprofHandler, samplers := ⟨initial⟩ :: others }

variable {sigprofHandler} {initial : SigAction}

theorem Nested.owned {p : Process} (h : Nested sigprofHandler initial p) :
    Owned sigprofHandler initial p := by
  cases h with
  | idle => exact ⟨fun h => absurd rfl h, fun _ => rfl⟩
  | alive => exact ⟨fun _ => rfl, fun h => by simp at h⟩

theorem Nested.drop_oldest {p p' : Process} (h : Nested sigprofHandler initial p)
    (hstep : step sigprofHandler p (.drop 0) = some p') :
    p'.action = initial ∧ p'.samplers.length + 1 = p.samplers.length := by
  cases h with
  | idle => simp [step, drop] at hstep
  | alive =>
    simp only [step, drop, List.getElem?_cons_zero, Bind.bind, Option.bind_some, Pure.pure,
      List.eraseIdx_cons_zero, Option.some.injEq] at hstep
    rw [← hstep]
    exact ⟨rfl, rfl⟩

theorem Nested.step {p p' : Process} {e : Event} (h : Nested sigprofHandler initial p)
    (he : e = .drop 0 → p.samplers.length ≤ 1) (hstep : step sigprofHandler p e = some p') :
    Nested sigprofHandler initial p' := by
  cases e with
  | new =>
    obtain rfl := Option.some.inj hstep
    cases h with
    | idle => exact .alive [] (by simp)
    | alive others ho =>
      refine .alive (others ++ [⟨sigprofAction sigprofHandler⟩]) fun s hs => ?_
      cases List.mem_append.mp hs with
      | inl hs => exact ho s hs
      | inr hs => rw [List.mem_singleton.mp hs]
  | drop i =>
    cases i with
    | zero =>
      obtain ⟨ha, hlen⟩ := h.drop_oldest hstep
      have hnil : p'.samplers = [] := List.length_eq_zero_iff.mp (by have := he rfl; omega)
      cases p'
      simp only at ha hnil
      rw [ha, hnil]
      exact .idle
    | succ i =>
      cases h with
      | idle => simp [Ownership.step, drop] at hstep
      | alive others ho =>
        cases hi : others[i]? with
        | none => simp [Ownership.step, drop, hi] at hstep
        | some s =>
          simp only [Ownership.step, drop, List.getElem?_cons_succ, hi, Bind.bind,
            Option.bind_some, Pure.pure, List.eraseIdx_cons_succ, Option.some.injEq] at hstep
          rw [← hstep, ho s (List.mem_of_getElem? hi)]
          exact .alive _ fun s hs => ho s (List.mem_of_mem_eraseIdx hs)

theorem Nested.oldest_last {p p' : Process} (h : Nested sigprofHandler initial p)
    (hne : initial ≠ sigprofAction sigprofHandler)
    (hstep : Ownership.step sigprofHandler p (.drop 0) = some p')
    (howned : Owned sigprofHandler initial p') : p.samplers.length ≤ 1 := by
  obtain ⟨ha, hlen⟩ := h.drop_oldest hstep
  by_cases hnil : p'.samplers = []
  · rw [← hlen, hnil]
    exact Nat.le_refl 1
  · exact absurd (ha.symm.trans (howned.1 hnil)) hne

def OldestLast (sigprofHandler : UInt64) (initial : SigAction) (events : List Event) : Prop :=
  ∀ before p, before ++ [.drop 0] <+: events →
    (lifetimes sigprofHandler initial).Trace before p → p.samplers.length ≤ 1

theorem OldestLast.nested {events : List Event} (h : OldestLast sigprofHandler initial events)
    {p : Process} (ht : (lifetimes sigprofHandler initial).Trace events p) :
    Nested sigprofHandler initial p :=
  ht.invariant (P := fun _ p e => e = .drop 0 → p.samplers.length ≤ 1)
    (fun hp => by rw [hp]; exact .idle) (fun hn he hstep => hn.step he hstep)
    (fun before p e hb hbt he => h before p (he ▸ hb) hbt)

theorem nested_of_owned (hne : initial ≠ sigprofAction sigprofHandler) {events : List Event}
    (h : ∀ before p, before <+: events → (lifetimes sigprofHandler initial).Trace before p →
      Owned sigprofHandler initial p)
    {p : Process} (ht : (lifetimes sigprofHandler initial).Trace events p) :
    Nested sigprofHandler initial p := by
  induction ht with
  | nil hp =>
    rw [hp]
    exact .idle
  | @snoc before p e p' hbt hstep ih =>
    have hn := ih fun b p hb => h b p (hb.trans (List.prefix_append _ _))
    refine hn.step (fun he => ?_) hstep
    subst he
    exact hn.oldest_last hne hstep (h _ p' List.prefix_rfl (hbt.snoc hstep))

theorem owned_of_same {events : List Event} {p : Process}
    (ht : (lifetimes sigprofHandler (sigprofAction sigprofHandler)).Trace events p) :
    Owned sigprofHandler (sigprofAction sigprofHandler) p := by
  have hinv : p.action = sigprofAction sigprofHandler ∧
      ∀ s ∈ p.samplers, s.oldHandler = sigprofAction sigprofHandler := by
    refine ht.invariant (I := fun p => p.action = sigprofAction sigprofHandler ∧
      ∀ s ∈ p.samplers, s.oldHandler = sigprofAction sigprofHandler) (P := fun _ _ _ => True)
      (fun hp => by rw [hp]; simp) ?_ fun _ _ _ _ _ => trivial
    intro _ p e p' ⟨ha, hs⟩ _ hstep
    cases e with
    | new =>
      obtain rfl := Option.some.inj hstep
      refine ⟨rfl, fun s hmem => ?_⟩
      cases List.mem_append.mp hmem with
      | inl hmem => exact hs s hmem
      | inr hmem => rw [List.mem_singleton.mp hmem, ha]
    | drop i =>
      cases hi : p.samplers[i]? with
      | none => simp [lifetimes, step, drop, hi] at hstep
      | some s =>
        simp only [lifetimes, step, drop, hi, Bind.bind, Option.bind_some, Pure.pure,
          Option.some.injEq] at hstep
        rw [← hstep]
        exact ⟨hs s (List.mem_of_getElem? hi), fun s hmem => hs s (List.mem_of_mem_eraseIdx hmem)⟩
  exact ⟨fun _ => hinv.1, fun _ => hinv.1⟩

/-- The handler is owned all along a sequence of creations and drops exactly when the
oldest sampler is always dropped last, or the action found was the samplers' own. -/
theorem owned_iff_oldest_dropped_last (sigprofHandler : UInt64) (initial : SigAction)
    (events : List Event) :
    (∀ before p, before <+: events → (lifetimes sigprofHandler initial).Trace before p →
      Owned sigprofHandler initial p) ↔
      initial = sigprofAction sigprofHandler ∨ OldestLast sigprofHandler initial events := by
  constructor
  · intro h
    by_cases hne : initial = sigprofAction sigprofHandler
    · exact .inl hne
    · refine .inr fun before p hb hbt => ?_
      have hbefore := (List.prefix_append before [Event.drop 0]).trans hb
      have hn := nested_of_owned hne (fun b p hbb => h b p (hbb.trans hbefore)) hbt
      cases hstep : step sigprofHandler p (.drop 0) with
      | none =>
        cases hs : p.samplers with
        | nil => exact Nat.zero_le 1
        | cons s others => simp [step, drop, hs] at hstep
      | some p' => exact hn.oldest_last hne hstep (h _ p' hb (hbt.snoc hstep))
  · intro h before p hb hbt
    cases h with
    | inl hsame =>
      rw [hsame] at hbt ⊢
      exact owned_of_same hbt
    | inr hlast =>
      exact OldestLast.nested (fun b p hbb => hlast b p (hbb.trans hb)) hbt |>.owned

def defaultAction : SigAction where
  handler := .sigDfl
  flags := 0
  mask := 0

/-- Of two samplers the first is dropped first: the second one is alive without the
handler, and after its drop the handler stays installed for good. -/
theorem first_dropped_first_not_owned :
    ¬(∀ (initial : SigAction) (events : List Event) p,
      (lifetimes 0x5000 initial).Trace events p → Owned 0x5000 initial p) ∧
    (∃ p, (lifetimes 0x5000 defaultAction).Trace [.new, .new, .drop 0] p ∧
      p.samplers.length = 1 ∧ p.action = defaultAction) ∧
    (∃ p, (lifetimes 0x5000 defaultAction).Trace [.new, .new, .drop 0, .drop 0] p ∧
      p.samplers = [] ∧ p.action = sigprofAction 0x5000) := by
  let M := lifetimes 0x5000 defaultAction
  have snoc {before p e p'} (ht : M.Trace before p) (h : step 0x5000 p e = some p') :
      M.Trace (before ++ [e]) p' := ht.snoc h
  have h₁ : M.Trace [.new, .new, .drop 0]
      { action := defaultAction, samplers := [⟨sigprofAction 0x5000⟩] } :=
    snoc (e := .drop 0) (snoc (e := .new) (snoc (e := .new) (.nil rfl) rfl) rfl) rfl
  have h₂ : M.Trace [.new, .new, .drop 0, .drop 0]
      { action := sigprofAction 0x5000, samplers := [] } := snoc (e := .drop 0) h₁ rfl
  refine ⟨fun h => ?_, ⟨_, h₁, rfl, rfl⟩, ⟨_, h₂, rfl, rfl⟩⟩
  have howned := (h defaultAction _ _ h₂).2 rfl
  exact absurd howned (by decide)

end Ownership

end Vignette
