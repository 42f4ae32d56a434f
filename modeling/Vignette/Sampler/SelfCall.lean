import Vignette.Sampler.Blocking

/-! A call of `suspend_and_resume_thread` that is made on the sampler's own thread. -/

namespace Vignette.Handshake

open Library
open Function (update update_of_ne)

variable {C T : Type} {own : ThreadId} {debugAssertions : Bool} {s s' : State C T} {l : Label C T}

/-- A call on the sampler's own thread, which can go on only while no handler runs there. -/
inductive Held (shared : SharedState C) (th : Thread C) : CallPc C T → Prop
  | resetMsg2 : Held shared th .resetMsg2
  | resetMsg3 : Held shared th .resetMsg3
  | resetMsg4 : shared.msg3 = some 0 → Held shared th .resetMsg4
  | resetContext : shared.msg3 = some 0 → Held shared th .resetContext
  | sendSignal : shared.msg3 = some 0 → Held shared th .sendSignal
  | waiting : shared.msg3 = some 0 → shared.msg2 = some 0 → Held shared th .waitMsg2
  /-- The handler has posted `msg2`, and waits for the call to post `msg3`. -/
  | stopped {c r} : shared.msg3 = some 0 → th.handler = some ⟨.waitMsg3, c, r⟩ →
      Held shared th .waitMsg2

theorem Held.unanswered {shared : SharedState C} {th : Thread C} {pc : CallPc C T}
    (h : Held shared th pc) : pc.Unanswered := by
  cases h with
  | resetMsg2 => exact .inl rfl
  | waiting | stopped => exact .inr (.inr rfl)
  | _ => exact .inr (.inl trivial)

theorem handlerStep_msg3 {shared shared' : SharedState C} {h : Handler C} {h' : Option (Handler C)}
    (hm : shared.msg3 = some 0) (hstep : handlerStep shared h = some (shared', h')) :
    shared'.msg3 = some 0 := by
  cases h with
  | mk pc context round =>
    cases pc with
    | copyContext | tail =>
      cases hstep
      exact hm
    | waitMsg3 | aborted => simp [handlerStep, hm] at hstep
    | postMsg2 | postMsg4 =>
      simp only [handlerStep] at hstep
      split at hstep <;> cases hstep <;> exact hm

theorem Held.setThread {shared : SharedState C} {th th' : Thread C} {pc : CallPc C T}
    (h : Held shared th pc) (hth : th.handler = none ∨ th'.handler = th.handler) :
    Held shared th' pc := by
  cases h with
  | resetMsg2 => exact .resetMsg2
  | resetMsg3 => exact .resetMsg3
  | resetMsg4 hm => exact .resetMsg4 hm
  | resetContext hm => exact .resetContext hm
  | sendSignal hm => exact .sendSignal hm
  | waiting hm hm' => exact .waiting hm hm'
  | stopped hm hh =>
    rcases hth with hnone | hsame
    · simp [hnone] at hh
    · exact .stopped hm (hsame.trans hh)

theorem Held.call {f : C → Except Panic T} {shared shared' : SharedState C} {th : Thread C}
    {pc : CallPc C T} {move : Move C T} (h : Held shared th pc) (hn : th.handler = none)
    (hreset : pc.Reset → shared.msg2 = some 0)
    (hstep : callStep f shared pc = some (shared', move)) :
    ∃ pc', move = .goto pc' ∧ ∀ th', Held shared' th' pc' := by
  cases h with
  | resetMsg2 =>
    cases hstep
    exact ⟨_, rfl, fun _ => .resetMsg3⟩
  | resetMsg3 =>
    cases hstep
    exact ⟨_, rfl, fun _ => .resetMsg4 rfl⟩
  | resetMsg4 hm =>
    cases hstep
    exact ⟨_, rfl, fun _ => .resetContext hm⟩
  | resetContext hm =>
    cases hstep
    exact ⟨_, rfl, fun _ => .sendSignal hm⟩
  | sendSignal hm =>
    cases hstep
    exact ⟨_, rfl, fun _ => .waiting hm (hreset trivial)⟩
  | waiting _ hm => simp [callStep, hm] at hstep
  | stopped _ hh => simp [hn] at hh

theorem Held.handler {f : C → Except Panic T} {pc : CallPc C T} (hs : s.sampler = .inside own f pc)
    (h : Held s.shared (s.threads own) pc) (ha : Answering s) {u : ThreadId} {k : Handler C}
    {k' : Option (Handler C)} {shared : SharedState C} (hk : (s.threads u).handler = some k)
    (hstep : handlerStep s.shared k = some (shared, k')) :
    Held shared (update s.threads u { s.threads u with handler := k' } own) pc := by
  have hm3 := fun hm => handlerStep_msg3 hm hstep
  cases h with
  | resetMsg2 => exact .resetMsg2
  | resetMsg3 => exact .resetMsg3
  | resetMsg4 hm => exact .resetMsg4 (hm3 hm)
  | resetContext hm => exact .resetContext (hm3 hm)
  | sendSignal hm => exact .sendSignal (hm3 hm)
  | stopped hm hh =>
    by_cases hu : u = own
    · subst hu
      cases hh.symm.trans hk
      simp [handlerStep, hm] at hstep
    · exact .stopped (hm3 hm) (by rw [update_of_ne (Ne.symm hu)]; exact hh)
  | waiting hm hm2 =>
    by_cases hearly : k.pc.Early
    · -- only the target can be about to post
      obtain ⟨⟨_, hs'⟩, _, _⟩ := ha.due (u := u) fun hsettled => hsettled.late k hk hearly
      cases hs.symm.trans hs'
      cases k with
      | mk pc c r =>
        cases pc with
        | copyContext =>
          cases hstep
          exact .waiting hm hm2
        | postMsg2 =>
          simp only [handlerStep, hm2, Option.some.injEq, Prod.mk.injEq] at hstep
          obtain ⟨rfl, rfl⟩ := hstep
          exact .stopped (c := c) (r := r) hm (by simp)
        | waitMsg3 | postMsg4 | tail | aborted => exact hearly.elim
    · exact .waiting (hm3 hm) ((handlerStep_late hearly hstep).1.trans hm2)

theorem Held.step {f : C → Except Panic T} {pc : CallPc C T} (hs : s.sampler = .inside own f pc)
    (h : Held s.shared (s.threads own) pc) (ha : Answered s)
    (hstep : Step own debugAssertions s l s') :
    ∃ pc', s'.sampler = .inside own f pc' ∧ Held s'.shared (s'.threads own) pc' := by
  have hset {u : ThreadId} {th : Thread C} (hn : (s.threads u).handler = none) :
      Held s.shared (update s.threads u th own) pc := by
    refine h.setThread ?_
    by_cases hu : own = u
    · exact .inl (hu ▸ hn)
    · exact .inr (by rw [update_of_ne hu])
  cases hstep with
  | @spawn u hl => exact ⟨pc, hs, hset (ha.dead u hl)⟩
  | exit _ _ hn => exact ⟨pc, hs, hset hn⟩
  | list => exact ⟨pc, hs, h⟩
  | refuse hs' => simp [hs] at hs'
  | call hs' => simp [hs] at hs'
  | goto hs' hn hcall =>
    cases hs.symm.trans hs'
    obtain ⟨_, hmove, hheld⟩ := h.call hn (ha.answering.msg2 hs) hcall
    cases hmove
    exact ⟨_, rfl, hheld _⟩
  | leave hs' hn hcall =>
    cases hs.symm.trans hs'
    obtain ⟨_, hmove, _⟩ := h.call hn (ha.answering.msg2 hs) hcall
    cases hmove
  | deliver _ _ _ hn => exact ⟨pc, hs, hset hn⟩
  | handler hk hstep => exact ⟨pc, hs, h.handler hs ha.answering hk hstep⟩
  | interrupt => exact ⟨pc, hs, h⟩

theorem self_call_held (h : (handshake C T own debugAssertions).Reachable (fun _ _ => True) s)
    {f : C → Except Panic T} {pc : CallPc C T} (hs : s.sampler = .inside own f pc) :
    debugAssertions = false ∧ Held s.shared (s.threads own) pc := by
  have hinv : ∀ f pc, s.sampler = .inside own f pc →
      debugAssertions = false ∧ Held s.shared (s.threads own) pc := by
    clear hs f pc
    induction h with
    | init hs =>
      intro f pc hin
      simp [hs.sampler] at hin
    | @step s l s' hreachable _ hstep ih =>
      intro f pc hin
      have ha := answered_of_reachable hreachable
      have hheld {pc₀} (hs : s.sampler = .inside own f pc₀) :
          debugAssertions = false ∧ Held s'.shared (s'.threads own) pc := by
        obtain ⟨hrelease, hheld⟩ := ih f pc₀ hs
        obtain ⟨_, hs', hheld'⟩ := hheld.step hs ha hstep
        cases hin.symm.trans hs'
        exact ⟨hrelease, hheld'⟩
      cases hstep with
      | call _ _ _ hrefuse =>
        cases hin
        exact ⟨by simpa using hrefuse, .resetMsg2⟩
      | goto hs =>
        cases hin
        exact hheld hs
      | leave | refuse => cases hin
      | _ => exact hheld hin
  exact hinv f pc hs

/-- A call on the sampler's own thread is refused before it touches anything, and where the
refusal is compiled out it never comes to an end. -/
theorem sampling_itself (h : (handshake C T own debugAssertions).Reachable (fun _ _ => True) s) :
    (debugAssertions = true → ∀ f s', Step own debugAssertions s (.call own f) s' →
      s' = { s with
        sampler := .outside (some (own, .error (.assertion "Can't suspend sampler itself!"))) }) ∧
    ∀ f pc, s.sampler = .inside own f pc → debugAssertions = false ∧
      ∀ steps s', (handshake C T own debugAssertions).Path (fun _ _ => True) s steps s' →
        ∃ pc', s'.sampler = .inside own f pc' ∧ pc'.Unanswered := by
  refine ⟨fun hdebug f s' hstep => ?_, fun f pc hs => ?_⟩
  · cases hstep with
    | refuse => rfl
    | call _ _ _ hrefuse => exact absurd ⟨rfl, hdebug⟩ hrefuse
  · obtain ⟨hrelease, hheld⟩ := self_call_held h hs
    refine ⟨hrelease, fun steps s' hpath => ?_⟩
    have hend : ∃ pc', s'.sampler = .inside own f pc' ∧ Held s'.shared (s'.threads own) pc' := by
      induction hpath with
      | nil => exact ⟨pc, hs, hheld⟩
      | snoc hpath _ hstep ih =>
        obtain ⟨_, hs', hheld'⟩ := ih
        exact hheld'.step hs' (answered_of_reachable (h.path id hpath)) hstep
    obtain ⟨pc', hs', hheld'⟩ := hend
    exact ⟨pc', hs', hheld'.unanswered⟩

theorem self_call_never_ends : ∃ s : State UInt64 UInt64,
    s.sampler = .inside ⟨1⟩ .ok .resetMsg2 ∧
    ∀ steps s', (handshake UInt64 UInt64 ⟨1⟩ false).Path (fun _ _ => True) s steps s' →
      ∃ pc', s'.sampler = .inside ⟨1⟩ .ok pc' ∧ pc'.Unanswered := by
  have h := System.Reachable.init (M := handshake UInt64 UInt64 ⟨1⟩ false) (P := fun _ _ => True)
    (calm_initial ⟨1⟩)
  have h := h.step trivial (.list (u := ⟨1⟩) rfl)
  have h := h.step trivial (.call (f := Except.ok) rfl rfl List.mem_cons_self (by simp))
  exact ⟨_, rfl, ((sampling_itself h).2 Except.ok .resetMsg2 rfl).2⟩

end Vignette.Handshake
