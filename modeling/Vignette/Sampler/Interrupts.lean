import Vignette.Library.Progress
import Vignette.Sampler.Handshake

/-! The waits of the handshake as runs of `wait_through_intr`. -/

namespace Vignette.Handshake

open Library

variable {C T : Type} {own : ThreadId} {debugAssertions : Bool}

namespace PosixSemaphore

theorem waitThroughIntr_eq {waits : Nat → Except Errno PosixSemaphore} {n : Nat}
    (hintr : ∀ i < n, waits i = .error EINTR) (hlast : waits n ≠ .error EINTR) {fuel : Nat}
    (hfuel : n < fuel) : waitThroughIntr waits fuel = some (waits n) := by
  have hnext : ∀ {i}, i ≤ n → (∃ j, waitTurn waits i = .again j ∧ j ≤ n ∧ n - j < n - i) ∨
      ∃ r, waitTurn waits i = .stop r ∧ r = waits n := by
    intro i hi
    cases Nat.lt_or_eq_of_le hi with
    | inl hlt => exact .inl ⟨i + 1, by simp [waitTurn, hintr i hlt], hlt, by omega⟩
    | inr heq =>
      subst heq
      refine .inr ⟨waits i, ?_, rfl⟩
      rw [waitTurn]
      cases hw : waits i with
      | ok sem => rfl
      | error err => simp [show err ≠ EINTR from fun he => hlast (he ▸ hw)]
  obtain ⟨r, hr, hloop⟩ := loop_rule (I := (· ≤ n)) (Q := (· = waits n)) (fun i => n - i) hnext
    (Nat.zero_le n)
  exact hr ▸ hloop fuel (by simpa using hfuel)

end PosixSemaphore

def CallPc.awaited : CallPc C T → Option (SharedState C → Option PosixSemaphore)
  | .waitMsg2 => some SharedState.msg2
  | .waitMsg4 _ => some SharedState.msg4
  | _ => none

theorem callStep_awaited {f : C → Except Panic T} {shared shared' : SharedState C}
    {pc : CallPc C T} {move : Move C T} {get : SharedState C → Option PosixSemaphore}
    {sem : PosixSemaphore} (hpc : pc.awaited = some get) (hm : get shared = some sem)
    (hstep : callStep f shared pc = some (shared', move)) :
    ∃ sem', sem.wait false = some (.ok sem') ∧ get shared' = some sem' := by
  cases pc with
  | waitMsg2 | waitMsg4 =>
    cases hpc
    cases sem with
    | zero => simp [callStep, hm] at hstep
    | succ n =>
      simp only [callStep, hm, Option.some.injEq, Prod.mk.injEq] at hstep
      obtain ⟨rfl, _⟩ := hstep
      exact ⟨n, rfl, rfl⟩
  | _ => cases hpc

theorem handlerStep_waitMsg3 {shared shared' : SharedState C} {h : Handler C}
    {h' : Option (Handler C)} {sem : PosixSemaphore} (hpc : h.pc = .waitMsg3)
    (hm : shared.msg3 = some sem) (hstep : handlerStep shared h = some (shared', h')) :
    ∃ sem', sem.wait false = some (.ok sem') ∧ shared'.msg3 = some sem' := by
  cases sem with
  | zero => simp [handlerStep, hpc, hm] at hstep
  | succ n =>
    simp only [handlerStep, hpc, hm, Option.some.injEq, Prod.mk.injEq] at hstep
    obtain ⟨rfl, _⟩ := hstep
    exact ⟨n, rfl, rfl⟩

theorem sampler_kept {s s' : State C T} {l : Label C T} {t : ThreadId} {f : C → Except Panic T}
    {pc : CallPc C T} (hs : s.sampler = .inside t f pc) (hl : l ≠ .sampler)
    (hstep : Step own debugAssertions s l s') : s'.sampler = .inside t f pc := by
  cases hstep with
  | refuse hs' | call hs' => simp [hs] at hs'
  | goto | leave => exact absurd rfl hl
  | _ => exact hs

def interrupts (steps : List (State C T × Label C T)) : Nat :=
  steps.countP fun x => match x.2 with
    | .interrupt => true
    | _ => false

/-- Whatever else goes on during a wait of a call, and however often it is interrupted, what
ends it is the step of the call that takes from the count, as `wait_through_intr` does. -/
theorem waitThroughIntr_of_path {s s' s'' : State C T} {steps : List (State C T × Label C T)}
    {P : State C T → Label C T → Prop} {t : ThreadId} {f : C → Except Panic T} {pc : CallPc C T}
    {get : SharedState C → Option PosixSemaphore} {sem : PosixSemaphore}
    (hpc : pc.awaited = some get) (hs : s.sampler = .inside t f pc)
    (hpath : (handshake C T own debugAssertions).Path P s steps s')
    (hwait : ∀ x ∈ steps, x.2 ≠ .sampler) (hm : get s'.shared = some sem)
    (hstep : Step own debugAssertions s' .sampler s'') :
    ∃ sem', get s''.shared = some sem' ∧ ∀ waits : Nat → Except Errno PosixSemaphore,
      (∀ i < interrupts steps, (sem.wait true) = some (waits i)) →
      sem.wait false = some (waits (interrupts steps)) →
      ∀ fuel, interrupts steps < fuel →
        PosixSemaphore.waitThroughIntr waits fuel = some (.ok sem') := by
  have hs' : s'.sampler = .inside t f pc := by
    clear hm hstep
    induction hpath with
    | nil => exact hs
    | snoc _ _ hstep ih =>
      have hkept := ih fun x hx => hwait x (List.mem_append_left _ hx)
      exact sampler_kept hkept (hwait _ (List.mem_append_right _ List.mem_cons_self)) hstep
  have hcall : ∃ shared' move, callStep f s'.shared pc = some (shared', move) ∧
      s''.shared = shared' := by
    cases hstep with
    | goto hs'' _ hcall | leave hs'' _ hcall =>
      cases hs'.symm.trans hs''
      exact ⟨_, _, hcall, rfl⟩
  obtain ⟨_, move, hcall, rfl⟩ := hcall
  obtain ⟨sem', htaken, hget⟩ := callStep_awaited hpc hm hcall
  refine ⟨sem', hget, fun waits hintr hlast fuel hfuel => ?_⟩
  have hok : waits (interrupts steps) = .ok sem' := Option.some.inj (hlast.symm.trans htaken)
  rw [PosixSemaphore.waitThroughIntr_eq (fun i hi => (Option.some.inj (hintr i hi)).symm)
    (by simp [hok]) hfuel, hok]

end Vignette.Handshake
