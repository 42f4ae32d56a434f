import Vignette.Sampler.Mac
import Vignette.Sampler.Safety
import Vignette.Sampler.Unwind

namespace Vignette.Handshake

open Library

variable {C T : Type}

def Released (th : Thread C) : Prop := ∀ h, th.handler = some h → h.pc = .tail

structure LeftClean (s : State C T) (t : ThreadId) : Prop where
  released : Released (s.threads t)
  shared : s.shared = .cleared

theorem Aligned.leftClean {s : State C T} (h : Aligned s) {last : Option (ThreadId × Except Panic T)}
    (hs : s.sampler = .outside last) (t : ThreadId) : LeftClean s t :=
  ⟨((h.between hs).2 t).tail, (h.between hs).1⟩

theorem Phase.not_leftClean {f : C → Except Panic T} {round : Nat} {th : Thread C}
    {shared shared' : SharedState C} {pc : CallPc C T} {outcome : Except Panic T}
    (h : Phase f round th shared pc) (hr : ¬pc.Returns f)
    (hstep : callStep f shared pc = some (shared', .leave outcome)) :
    shared' ≠ .cleared ∧ ¬Released th := by
  cases h with
  | @callback c _ hh =>
    cases hf : f c with
    | ok v => exact absurd ⟨v, hf⟩ hr
    | error p =>
      simp only [callStep, hf, Option.some.injEq, Prod.mk.injEq] at hstep
      rw [← hstep.1]
      exact ⟨by simp [SharedState.cleared], fun hreleased => absurd (hreleased _ hh) (by simp)⟩
  | _ => exact absurd trivial hr

theorem leftClean_iff_returns {own : ThreadId} {debugAssertions : Bool} {s s' : State C T}
    {t : ThreadId} {f : C → Except Panic T} {pc : CallPc C T}
    {last : Option (ThreadId × Except Panic T)} (h : Inv s) (hs : s.sampler = .inside t f pc)
    (hstep : Step own debugAssertions s .sampler s') (hs' : s'.sampler = .outside last) :
    LeftClean s' t ↔ pc.Returns f := by
  constructor
  · intro hclean
    by_contra hr
    cases hstep with
    | goto => cases hs'
    | leave hs₁ _ hcall =>
      rw [hs] at hs₁
      cases hs₁
      cases h.aligned with
      | outside hs₂ => simp [hs] at hs₂
      | inside hs₂ hp _ =>
        rw [hs] at hs₂
        cases hs₂
        exact (hp.not_leftClean hr hcall).1 hclean.shared
  · intro hr
    have hclean := h.aligned.step h.dead (callbackReturns_of_inside hs hr) hstep
    exact hclean.leftClean hs' t

/-- A suspended thread is released, and the shared state cleared, by every call that is
left exactly when its callback returns, which for `sample_once` is when the unwinder
does; on macOS the target's state must have been read as well. -/
theorem released_iff_callback_returns (own : ThreadId) (debugAssertions : Bool) :
    (∀ s : State C T, (handshake C T own debugAssertions).Reachable CallbackReturns s →
      ∀ t outcome, s.sampler = .outside (some (t, outcome)) → LeftClean s t) ∧
    (∀ (s s' : State C T) t f pc last,
      (handshake C T own debugAssertions).Reachable CallbackReturns s →
      s.sampler = .inside t f pc → Step own debugAssertions s .sampler s' →
      s'.sampler = .outside last → (LeftClean s' t ↔ pc.Returns f)) ∧
    (∀ {Cursor : Type} (lib : Libunwind C Cursor) (c : C),
      (CallPc.callback c).Returns (Session.sampleCallback lib) ↔
        ∃ sample, (LibunwindUnwinder.new 150).unwind lib c = .ok sample) ∧
    (∀ (thread : Mac.Target C) (callback : C → Except Panic T),
      Mac.Suspends debugAssertions thread →
      (.resume ∈ (Mac.suspendAndResumeThread debugAssertions thread callback).2 ↔
        Mac.ReachesResume thread callback)) := by
  refine ⟨?_, ?_, ?_, ?_⟩
  · intro s h t outcome hs
    exact (reachable_inv h).aligned.leftClean hs t
  · intro s s' t f pc last h hs hstep hs'
    exact leftClean_iff_returns (reachable_inv h) hs hstep hs'
  · intro Cursor lib c
    exact Session.sampleCallback_ok_iff lib
  · intro thread callback h
    exact Mac.resume_called_iff h

def brokenStack : Libunwind Unit Unit where
  initLocal _ := (0, ())
  step _ := (-1, ())
  getRegIp _ := (0, 0)

/-- Sampling thread 2 over a broken stack leaves it in its handler for good. -/
theorem unwind_error_not_released : ∃ s : State Unit Types.Sample,
    (handshake Unit Types.Sample ⟨1⟩ true).Reachable (fun _ _ => True) s ∧
    s.sampler = .outside (some (⟨2⟩, .error (.expect "sample succeeded"))) ∧
    s.shared = ⟨some 0, some 0, some 0, some ()⟩ ∧ ¬Released (s.threads ⟨2⟩) ∧ ¬LeftClean s ⟨2⟩ := by
  obtain ⟨s, h, hs, hown, hh, hshared⟩ := exists_callback (Session.sampleCallback brokenStack) ()
  have hcall : callStep (Session.sampleCallback brokenStack) s.shared (.callback ()) =
      some (s.shared, .leave (.error (.expect "sample succeeded"))) := by
    have herr : Session.sampleCallback brokenStack () = .error (.expect "sample succeeded") := by
      decide
    rw [callStep, herr]
  have hheld : ¬Released (s.threads ⟨2⟩) := fun hreleased => absurd (hreleased _ hh) (by simp)
  exact ⟨_, (h.mono fun _ => trivial).step trivial (.leave hs hown hcall), rfl, hshared, hheld,
    fun hclean => hheld hclean.released⟩

end Vignette.Handshake
