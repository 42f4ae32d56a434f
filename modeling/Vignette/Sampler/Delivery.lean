import Vignette.Library.Beside
import Vignette.Sampler.Blocking
import Vignette.Sampler.Ownership

/-! What a SIGPROF finds when it is delivered: the calls beside the creations and drops of
the samplers that they are made on. -/

namespace Vignette

open Library

namespace Delivery

open Handshake Ownership

variable {C T : Type}

/-- A call is made on a sampler, which is not dropped before the call is over. -/
def Borrowed (s : Handshake.State C T × Ownership.Process)
    (l : Handshake.Label C T ⊕ Ownership.Event) (s' : Handshake.State C T × Ownership.Process) :
    Prop :=
  (∀ t f, l = .inl (.call t f) → s.2.samplers ≠ []) ∧
  ∀ e, l = .inr e → ∀ t f pc, s.1.sampler = .inside t f pc → s'.2.samplers ≠ []

def delivery (C T : Type) (own : ThreadId) (debugAssertions : Bool) (sigprofHandler : UInt64)
    (initial : SigAction) :
    System (Handshake.State C T × Ownership.Process) (Handshake.Label C T ⊕ Ownership.Event) :=
  (handshake C T own debugAssertions).beside (lifetimes sigprofHandler initial) Borrowed

def OldestLast (s : Handshake.State C T × Ownership.Process)
    (l : Handshake.Label C T ⊕ Ownership.Event) : Prop :=
  l = .inr (.drop 0) → s.2.samplers.length ≤ 1

variable {own : ThreadId} {debugAssertions : Bool} {sigprofHandler : UInt64} {initial : SigAction}
  {s : Handshake.State C T × Ownership.Process}

theorem exists_sampler
    (h : (delivery C T own debugAssertions sigprofHandler initial).Reachable OldestLast s)
    {t : ThreadId} {f : C → Except Panic T} {pc : CallPc C T} (hs : s.1.sampler = .inside t f pc) :
    s.2.samplers ≠ [] := by
  induction h generalizing t f pc with
  | init hinit => simp [hinit.1.sampler] at hs
  | @step s l s' _ _ hstep ih =>
    obtain ⟨⟨hcall, hdrop⟩, hstep⟩ := hstep
    obtain ⟨p, q⟩ := s'
    cases l with
    | inr e =>
      obtain ⟨_, rfl⟩ := hstep
      exact hdrop e rfl t f pc hs
    | inl l =>
      obtain ⟨hstep, rfl⟩ := hstep
      cases hstep with
      | call => exact hcall _ _ rfl
      | goto hs' => exact ih hs'
      | refuse | leave => cases hs
      | _ => exact ih hs

/-- Whatever the callbacks do and whichever threads exit: while a SIGPROF is pending, its
action is the samplers' own, and once the last sampler is dropped, there is none to come. -/
theorem sigprof_finds_handler
    (h : (delivery C T own debugAssertions sigprofHandler initial).Reachable OldestLast s) :
    (∀ u, (s.1.threads u).pending ≠ none → s.2.action = sigprofAction sigprofHandler) ∧
    (s.2.samplers = [] → s.2.action = initial ∧ ∀ u, Settled (s.1.threads u)) := by
  have hanswering := (answered_of_reachable (h.left fun _ => trivial)).answering
  have hnested : Nested sigprofHandler initial s.2 := by
    have hreachable := h.right (Q := fun p e => e = .drop 0 → p.samplers.length ≤ 1)
      fun hlast he => hlast (congrArg Sum.inr he)
    exact hreachable.invariant (fun hp => by rw [hp]; exact .idle) fun hn he hstep => hn.step he hstep
  have howned := hnested.owned
  refine ⟨fun u hu => howned.1 ?_, fun hnone => ⟨howned.2 hnone, ?_⟩⟩
  · cases hs : s.1.sampler with
    | outside last => exact absurd (hanswering.settled (by simp [hs]) u).pending hu
    | inside t f pc => exact exists_sampler h hs
  · cases hs : s.1.sampler with
    | outside last => exact hanswering.settled (by simp [hs])
    | inside t f pc => exact absurd hnone (exists_sampler h hs)

theorem pending_finds_handler : ∃ s : Handshake.State UInt64 UInt64 × Ownership.Process,
    (s.1.threads ⟨2⟩).pending = some 1 ∧ s.2.action = sigprofAction 0x5000 := by
  have h := System.Reachable.init (M := delivery UInt64 UInt64 ⟨1⟩ true 0x5000 defaultAction)
    (P := OldestLast) (s := (calm UInt64 UInt64, ⟨defaultAction, []⟩)) ⟨calm_initial ⟨1⟩, rfl⟩
  have h := h.step (l := .inr .new) (t := (_, _)) nofun ⟨⟨nofun, nofun⟩, rfl, rfl⟩
  have handshake {s p l} (h : (delivery UInt64 UInt64 ⟨1⟩ true 0x5000 defaultAction).Reachable
      OldestLast s) (hs : s.2.samplers ≠ []) (hstep : Handshake.Step ⟨1⟩ true s.1 l p) :
      (delivery UInt64 UInt64 ⟨1⟩ true 0x5000 defaultAction).Reachable OldestLast (p, s.2) :=
    h.step (l := .inl l) nofun ⟨⟨fun _ _ _ => hs, nofun⟩, hstep, rfl⟩
  have h := handshake h (by simp) (.list (u := ⟨2⟩) rfl)
  have h := handshake h (by simp) (.call (f := .ok) rfl rfl List.mem_cons_self (by simp))
  have h := handshake h (by simp) (.goto rfl rfl rfl)
  have h := handshake h (by simp) (.goto rfl rfl rfl)
  have h := handshake h (by simp) (.goto rfl rfl rfl)
  have h := handshake h (by simp) (.goto rfl rfl rfl)
  have h := handshake h (by simp) (.goto rfl rfl rfl)
  exact ⟨_, rfl, (sigprof_finds_handler h).1 ⟨2⟩ nofun⟩

end Delivery

end Vignette
