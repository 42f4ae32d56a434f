import Vignette.Sampler.Phases

namespace Vignette.Handshake

open Library
open Function (update update_self update_of_ne)

variable {C T : Type}

def SharedState.Ready (shared : SharedState C) : HandlerPc → Prop
  | .copyContext => True
  | .postMsg2 => shared.msg2 ≠ none
  | .waitMsg3 => shared.msg3 ≠ none
  | .postMsg4 => shared.msg4 ≠ none
  | .tail => True
  | .aborted => False

def CallPc.Clears : CallPc C T → Prop
  | .clearMsg2 _ | .clearMsg3 _ | .clearMsg4 _ | .clearContext _ => True
  | _ => False

structure Safe (s : State C T) : Prop where
  /-- During the callback the target waits for `msg3`, and the callback has the context
  that it copied in this round. -/
  callback : ∀ t f c, s.sampler = .inside t f (.callback c) →
    (s.threads t).handler = some ⟨.waitMsg3, c, s.round⟩ ∧ s.shared.msg3 = some 0
  /-- A handler that is not done with the shared state is that of the current call, which
  does not clear it yet, and finds its semaphore. -/
  handler : ∀ u h, (s.threads u).handler = some h → h.pc ≠ .tail →
    ∃ f pc, s.sampler = .inside u f pc ∧ ¬pc.Clears ∧ h.round = s.round ∧ s.shared.Ready h.pc
  /-- Between two calls the shared state is clear and no thread is held. -/
  returned : ∀ last, s.sampler = .outside last → s.shared = .cleared ∧ ∀ u, Quiet (s.threads u)

theorem Phase.safe_handler {f : C → Except Panic T} {round : Nat} {th : Thread C}
    {shared : SharedState C} {pc : CallPc C T} (hp : Phase f round th shared pc) {h : Handler C}
    (hh : th.handler = some h) (ht : h.pc ≠ .tail) :
    ¬pc.Clears ∧ h.round = round ∧ shared.Ready h.pc := by
  cases hp with
  | resetMsg2 hq | resetMsg3 hq | resetMsg4 hq | resetContext hq | sendSignal hq | lost hq
  | done hq | clearMsg2 hq | clearMsg3 hq | clearMsg4 hq | clearContext hq =>
    exact absurd (hq.tail h hh) ht
  | pending _ htail => exact absurd (htail h hh) ht
  | _ _ hh' =>
    obtain rfl := Option.some.inj (hh.symm.trans hh')
    simp [CallPc.Clears, SharedState.Ready]

theorem Inv.safe {s : State C T} (h : Inv s) : Safe s where
  callback t f c hs := by
    cases h.aligned with
    | outside hs' => simp [hs] at hs'
    | inside hs' hp _ =>
      rw [hs] at hs'
      cases hs'
      generalize hshared : s.shared = shared at hp
      cases hp with
      | callback _ hh => exact ⟨hh, rfl⟩
  handler u hd hh ht := by
    cases h.aligned with
    | outside _ _ hq => exact absurd ((hq u).tail hd hh) ht
    | @inside t f pc hs hp hq =>
      by_cases hut : u = t
      · subst hut
        exact ⟨f, pc, hs, hp.safe_handler hh ht⟩
      · exact absurd ((hq u hut).tail hd hh) ht
  returned _ hs := h.aligned.between hs

/-- In every run whose callbacks return, on whatever threads and in whatever order. -/
theorem handshake_safe {own : ThreadId} {debugAssertions : Bool} {s : State C T}
    (h : (handshake C T own debugAssertions).Reachable CallbackReturns s) : Safe s :=
  (reachable_inv h).safe

theorem callbackReturns_of_ne {s : State C T} {l : Label C T} (h : l ≠ .sampler) :
    CallbackReturns s l := fun _ _ _ _ hl => absurd hl h

theorem callbackReturns_of_inside {s : State C T} {l : Label C T} {t : ThreadId}
    {f : C → Except Panic T} {pc : CallPc C T} (h : s.sampler = .inside t f pc)
    (hr : pc.Returns f) : CallbackReturns s l := by
  intro _ _ _ hs _
  rw [h] at hs
  cases hs
  exact hr

theorem exists_callback (f : C → Except Panic T) (c : C) :
    ∃ s, (handshake C T ⟨1⟩ true).Reachable CallbackReturns s ∧
      s.sampler = .inside ⟨2⟩ f (.callback c) ∧
      (s.threads ⟨1⟩).handler = none ∧
      (s.threads ⟨2⟩).handler = some ⟨.waitMsg3, c, 1⟩ ∧
      s.shared = ⟨some 0, some 0, some 0, some c⟩ := by
  have h := System.Reachable.init (M := handshake C T ⟨1⟩ true) (P := CallbackReturns)
    (calm_initial ⟨1⟩)
  have h := h.step (callbackReturns_of_ne (by simp)) (.list (u := ⟨2⟩) rfl)
  have h := h.step (callbackReturns_of_ne (by simp))
    (.call (f := f) rfl rfl List.mem_cons_self (by simp))
  -- the shared state is reset and the signal sent
  have h := h.step (callbackReturns_of_inside rfl trivial) (.goto rfl rfl rfl)
  have h := h.step (callbackReturns_of_inside rfl trivial) (.goto rfl rfl rfl)
  have h := h.step (callbackReturns_of_inside rfl trivial) (.goto rfl rfl rfl)
  have h := h.step (callbackReturns_of_inside rfl trivial) (.goto rfl rfl rfl)
  have h := h.step (callbackReturns_of_inside rfl trivial) (.goto rfl rfl rfl)
  -- the handler copies the context and posts `msg2`
  have h := h.step (callbackReturns_of_ne (by simp)) (.deliver (u := ⟨2⟩) c rfl rfl rfl)
  have h := h.step (callbackReturns_of_ne (by simp)) (.handler (u := ⟨2⟩) rfl rfl)
  have h := h.step (callbackReturns_of_ne (by simp)) (.handler (u := ⟨2⟩) rfl rfl)
  have h := h.step (callbackReturns_of_inside rfl trivial) (.goto rfl rfl rfl)
  have h := h.step (callbackReturns_of_inside rfl trivial) (.goto rfl rfl rfl)
  exact ⟨_, h, rfl, rfl, rfl, rfl⟩

theorem callback_safe : ∃ s : State UInt64 UInt64,
    s.sampler = .inside ⟨2⟩ (fun c => .ok (c + 1)) (.callback 7) ∧ Safe s := by
  obtain ⟨s, h, hs, _⟩ := exists_callback (fun c : UInt64 => .ok (c + 1)) 7
  exact ⟨s, hs, handshake_safe h⟩

end Vignette.Handshake
