import Vignette.Sampler.Handshake

namespace Vignette.Handshake

open Library
open Function (update update_self update_of_ne)

variable {C T : Type}

/-- A thread that no call is waiting for: its handler, if any, has nothing left to do
with the shared state. -/
structure Quiet (th : Thread C) : Prop where
  pending : th.pending = none
  tail : ∀ h, th.handler = some h → h.pc = .tail

theorem handlerStep_tail {shared shared' : SharedState C} {h : Handler C} {h' : Option (Handler C)}
    (ht : h.pc = .tail) (hstep : handlerStep shared h = some (shared', h')) :
    shared' = shared ∧ h' = none := by
  simp only [handlerStep, ht, Option.some.injEq, Prod.mk.injEq] at hstep
  exact ⟨hstep.1.symm, hstep.2.symm⟩

namespace Quiet

theorem spawned : Quiet (Thread.spawned : Thread C) := ⟨rfl, fun _ h => by cases h⟩

theorem exited : Quiet (Thread.exited : Thread C) := ⟨rfl, fun _ h => by cases h⟩

theorem handler {th : Thread C} {shared shared' : SharedState C} {h : Handler C}
    {h' : Option (Handler C)} (hq : Quiet th) (hh : th.handler = some h)
    (hstep : handlerStep shared h = some (shared', h')) :
    shared' = shared ∧ Quiet { th with handler := h' } := by
  obtain ⟨hs, rfl⟩ := handlerStep_tail (hq.tail h hh) hstep
  exact ⟨hs, hq.pending, fun _ h => by cases h⟩

end Quiet

/-- How far a call and its target have come together, whose handler holds the context
`c` once it has been entered. -/
inductive Phase (f : C → Except Panic T) (round : Nat) (th : Thread C) :
    SharedState C → CallPc C T → Prop
  | resetMsg2 : Quiet th → Phase f round th ⟨none, none, none, none⟩ .resetMsg2
  | resetMsg3 : Quiet th → Phase f round th ⟨some 0, none, none, none⟩ .resetMsg3
  | resetMsg4 : Quiet th → Phase f round th ⟨some 0, some 0, none, none⟩ .resetMsg4
  | resetContext : Quiet th → Phase f round th ⟨some 0, some 0, some 0, none⟩ .resetContext
  | sendSignal : Quiet th → Phase f round th ⟨some 0, some 0, some 0, none⟩ .sendSignal
  /-- The signal found no thread, or the thread exited with it. -/
  | lost : Quiet th → Phase f round th ⟨some 0, some 0, some 0, none⟩ .waitMsg2
  | pending : th.pending = some round → (∀ h, th.handler = some h → h.pc = .tail) →
      Phase f round th ⟨some 0, some 0, some 0, none⟩ .waitMsg2
  | copyContext {c} : th.pending = none → th.handler = some ⟨.copyContext, c, round⟩ →
      Phase f round th ⟨some 0, some 0, some 0, none⟩ .waitMsg2
  | postMsg2 {c} : th.pending = none → th.handler = some ⟨.postMsg2, c, round⟩ →
      Phase f round th ⟨some 0, some 0, some 0, some c⟩ .waitMsg2
  | posted {c} : th.pending = none → th.handler = some ⟨.waitMsg3, c, round⟩ →
      Phase f round th ⟨some 1, some 0, some 0, some c⟩ .waitMsg2
  | readContext {c} : th.pending = none → th.handler = some ⟨.waitMsg3, c, round⟩ →
      Phase f round th ⟨some 0, some 0, some 0, some c⟩ .readContext
  | callback {c} : th.pending = none → th.handler = some ⟨.waitMsg3, c, round⟩ →
      Phase f round th ⟨some 0, some 0, some 0, some c⟩ (.callback c)
  | postMsg3 {c v} : th.pending = none → th.handler = some ⟨.waitMsg3, c, round⟩ → f c = .ok v →
      Phase f round th ⟨some 0, some 0, some 0, some c⟩ (.postMsg3 v)
  | released {c v} : th.pending = none → th.handler = some ⟨.waitMsg3, c, round⟩ → f c = .ok v →
      Phase f round th ⟨some 0, some 1, some 0, some c⟩ (.waitMsg4 v)
  | postMsg4 {c v} : th.pending = none → th.handler = some ⟨.postMsg4, c, round⟩ → f c = .ok v →
      Phase f round th ⟨some 0, some 0, some 0, some c⟩ (.waitMsg4 v)
  | done {c v} : Quiet th → f c = .ok v →
      Phase f round th ⟨some 0, some 0, some 1, some c⟩ (.waitMsg4 v)
  | clearMsg2 {c v} : Quiet th → f c = .ok v →
      Phase f round th ⟨some 0, some 0, some 0, some c⟩ (.clearMsg2 v)
  | clearMsg3 {c v} : Quiet th → f c = .ok v →
      Phase f round th ⟨none, some 0, some 0, some c⟩ (.clearMsg3 v)
  | clearMsg4 {c v} : Quiet th → f c = .ok v →
      Phase f round th ⟨none, none, some 0, some c⟩ (.clearMsg4 v)
  | clearContext {c v} : Quiet th → f c = .ok v →
      Phase f round th ⟨none, none, none, some c⟩ (.clearContext v)

def CallPc.Returns (f : C → Except Panic T) : CallPc C T → Prop
  | .callback c => ∃ v, f c = .ok v
  | _ => True

namespace Phase

variable {f : C → Except Panic T} {round : Nat} {th : Thread C} {shared shared' : SharedState C}
  {pc pc' : CallPc C T}

theorem goto (h : Phase f round th shared pc)
    (hstep : callStep f shared pc = some (shared', .goto pc')) :
    Phase f round (pc.effect round th) shared' pc' := by
  cases h with
  | resetMsg2 hq => cases hstep; exact .resetMsg3 hq
  | resetMsg3 hq => cases hstep; exact .resetMsg4 hq
  | resetMsg4 hq => cases hstep; exact .resetContext hq
  | resetContext hq => cases hstep; exact .sendSignal hq
  | sendSignal hq =>
    cases hstep
    cases hl : th.live with
    | true =>
      rw [CallPc.effect, Thread.sendSignal_of_live hl, hq.pending]
      exact .pending rfl hq.tail
    | false =>
      rw [CallPc.effect, Thread.sendSignal_of_gone hl]
      exact .lost hq
  | lost => cases hstep
  | pending => cases hstep
  | copyContext => cases hstep
  | postMsg2 => cases hstep
  | posted hp hh => cases hstep; exact .readContext hp hh
  | readContext hp hh => cases hstep; exact .callback hp hh
  | @callback c hp hh =>
    cases hf : f c with
    | error p => simp [callStep, hf] at hstep
    | ok v =>
      simp only [callStep, hf, Option.some.injEq, Prod.mk.injEq, Move.goto.injEq] at hstep
      rw [← hstep.1, ← hstep.2]
      exact .postMsg3 hp hh hf
  | postMsg3 hp hh hf => cases hstep; exact .released hp hh hf
  | released => cases hstep
  | postMsg4 => cases hstep
  | done hq hf => cases hstep; exact .clearMsg2 hq hf
  | clearMsg2 hq hf => cases hstep; exact .clearMsg3 hq hf
  | clearMsg3 hq hf => cases hstep; exact .clearMsg4 hq hf
  | clearMsg4 hq hf => cases hstep; exact .clearContext hq hf
  | clearContext => cases hstep

theorem leave {outcome : Except Panic T} (h : Phase f round th shared pc) (hr : pc.Returns f)
    (hstep : callStep f shared pc = some (shared', .leave outcome)) :
    shared' = .cleared ∧ Quiet th ∧ ∃ c v, shared.context = some c ∧ f c = .ok v ∧ outcome = .ok v := by
  cases h with
  | @callback c =>
    obtain ⟨v, hf⟩ := hr
    simp [callStep, hf] at hstep
  | @clearContext c v hq hf =>
    cases hstep
    exact ⟨rfl, hq, c, v, rfl, hf, rfl⟩
  | _ => cases hstep

theorem of_quiet {th' : Thread C} (h : Phase f round th shared pc) (hold : Quiet th)
    (hq : Quiet th') : Phase f round th' shared pc := by
  cases h with
  | resetMsg2 => exact .resetMsg2 hq
  | resetMsg3 => exact .resetMsg3 hq
  | resetMsg4 => exact .resetMsg4 hq
  | resetContext => exact .resetContext hq
  | sendSignal => exact .sendSignal hq
  | lost => exact .lost hq
  | pending hp => simp [hold.pending] at hp
  | done _ hf => exact .done hq hf
  | clearMsg2 _ hf => exact .clearMsg2 hq hf
  | clearMsg3 _ hf => exact .clearMsg3 hq hf
  | clearMsg4 _ hf => exact .clearMsg4 hq hf
  | clearContext _ hf => exact .clearContext hq hf
  | _ _ hh => cases hold.tail _ hh

theorem handler {h : Handler C} {h' : Option (Handler C)} (hp : Phase f round th shared pc)
    (hh : th.handler = some h) (hstep : handlerStep shared h = some (shared', h')) :
    Phase f round { th with handler := h' } shared' pc := by
  have hphase := hp
  cases hp with
  | resetMsg2 hq | resetMsg3 hq | resetMsg4 hq | resetContext hq | sendSignal hq | lost hq
  | done hq | clearMsg2 hq | clearMsg3 hq | clearMsg4 hq | clearContext hq =>
    obtain ⟨rfl, hq'⟩ := hq.handler hh hstep
    exact hphase.of_quiet hq hq'
  | pending hp ht =>
    obtain ⟨rfl, rfl⟩ := handlerStep_tail (ht h hh) hstep
    exact .pending hp fun _ h => by cases h
  | copyContext hp hh' =>
    obtain rfl := Option.some.inj (hh.symm.trans hh')
    cases hstep
    exact .postMsg2 hp rfl
  | postMsg2 hp hh' =>
    obtain rfl := Option.some.inj (hh.symm.trans hh')
    cases hstep
    exact .posted hp rfl
  | posted _ hh' | readContext _ hh' | callback _ hh' | postMsg3 _ hh' =>
    -- the handler waits for `msg3`
    obtain rfl := Option.some.inj (hh.symm.trans hh')
    cases hstep
  | released hp hh' hf =>
    obtain rfl := Option.some.inj (hh.symm.trans hh')
    cases hstep
    exact .postMsg4 hp rfl hf
  | postMsg4 hp hh' hf =>
    obtain rfl := Option.some.inj (hh.symm.trans hh')
    cases hstep
    exact .done ⟨hp, fun _ h => by cases h; rfl⟩ hf

theorem renew {th' : Thread C} (h : Phase f round th shared pc) (hn : th.handler = none)
    (hq : Quiet th') : Phase f round th' shared pc := by
  have hphase := h
  cases h with
  | resetMsg2 hold | resetMsg3 hold | resetMsg4 hold | resetContext hold | sendSignal hold
  | lost hold | done hold | clearMsg2 hold | clearMsg3 hold | clearMsg4 hold
  | clearContext hold => exact hphase.of_quiet hold hq
  | pending => exact .lost hq
  | _ _ hh => simp [hn] at hh

theorem deliver {r : Nat} (context : C) (h : Phase f round th shared pc)
    (hp : th.pending = some r) : Phase f round (.entered context r) shared pc := by
  cases h with
  | pending hp' =>
    obtain rfl := Option.some.inj (hp.symm.trans hp')
    exact .copyContext rfl rfl
  | resetMsg2 hq | resetMsg3 hq | resetMsg4 hq | resetContext hq | sendSignal hq | lost hq
  | done hq | clearMsg2 hq | clearMsg3 hq | clearMsg4 hq | clearContext hq =>
    simp [hq.pending] at hp
  | _ hp' => simp [hp'] at hp

end Phase

inductive Aligned (s : State C T) : Prop
  | outside {last} : s.sampler = .outside last → s.shared = .cleared →
      (∀ u, Quiet (s.threads u)) → Aligned s
  | inside {t f pc} : s.sampler = .inside t f pc → Phase f s.round (s.threads t) s.shared pc →
      (∀ u, u ≠ t → Quiet (s.threads u)) → Aligned s

theorem Aligned.between {s : State C T} (h : Aligned s) {last : Option (ThreadId × Except Panic T)}
    (hs : s.sampler = .outside last) : s.shared = .cleared ∧ ∀ u, Quiet (s.threads u) := by
  cases h with
  | outside _ hc hq => exact ⟨hc, hq⟩
  | inside hs' => simp [hs] at hs'

theorem Initial.aligned {own : ThreadId} {s : State C T} (h : Initial own s) : Aligned s :=
  .outside h.sampler h.shared fun u => ⟨(h.idle u).1, fun _ hh => by simp [(h.idle u).2] at hh⟩

theorem Aligned.setThread {s : State C T} {u : ThreadId} {th : Thread C} {shared : SharedState C}
    (h : Aligned s) (hquiet : Quiet (s.threads u) → shared = s.shared ∧ Quiet th)
    (hphase : ∀ (f : C → Except Panic T) pc, Phase f s.round (s.threads u) s.shared pc →
      Phase f s.round th shared pc) :
    Aligned { s with shared, threads := update s.threads u th } := by
  cases h with
  | outside hs hc hq =>
    obtain ⟨rfl, hth⟩ := hquiet (hq u)
    exact .outside hs hc fun v => forall_update hth fun _ => hq v
  | @inside t f pc hs hp hq =>
    by_cases ht : t = u
    · subst ht
      refine .inside hs (by simpa using hphase f pc hp) fun v hv => ?_
      simpa [update_of_ne hv] using hq v hv
    · obtain ⟨rfl, hth⟩ := hquiet (hq u (Ne.symm ht))
      refine .inside hs (by simpa [update_of_ne ht] using hp) fun v hv => ?_
      exact forall_update hth fun _ => hq v hv

/-- No step of this kind is the panic of a callback. -/
def CallbackReturns (s : State C T) (l : Label C T) : Prop :=
  ∀ t f pc, s.sampler = .inside t f pc → l = .sampler → pc.Returns f

theorem Aligned.step {own : ThreadId} {debugAssertions : Bool} {s s' : State C T} {l : Label C T}
    (h : Aligned s) (hd : DeadIdle s) (hr : CallbackReturns s l)
    (hstep : Step own debugAssertions s l s') : Aligned s' := by
  cases hstep with
  | @spawn u hlive =>
    exact h.setThread (fun _ => ⟨rfl, .spawned⟩) fun _ _ hp => hp.renew (hd u hlive) .spawned
  | exit _ _ hn => exact h.setThread (fun _ => ⟨rfl, .exited⟩) fun _ _ hp => hp.renew hn .exited
  | list =>
    cases h with
    | outside hs hc hq => exact .outside hs hc hq
    | inside hs hp hq => exact .inside hs hp hq
  | refuse hs =>
    cases h with
    | outside _ hc hq => exact .outside rfl hc hq
    | inside hs' => simp [hs] at hs'
  | call hs =>
    cases h with
    | outside _ hc hq =>
      refine .inside rfl ?_ fun u _ => hq u
      simp only [hc]
      exact .resetMsg2 (hq _)
    | inside hs' => simp [hs] at hs'
  | goto hs _ hcall =>
    cases h with
    | outside hs' => simp [hs] at hs'
    | inside hs' hp hq =>
      rw [hs] at hs'
      cases hs'
      refine .inside rfl (by simpa using hp.goto hcall) fun u hu => ?_
      simpa [update_of_ne hu] using hq u hu
  | @leave t f pc shared outcome hs _ hcall =>
    cases h with
    | outside hs' => simp [hs] at hs'
    | inside hs' hp hq =>
      rw [hs] at hs'
      cases hs'
      obtain ⟨hc, hth, _⟩ := hp.leave (hr t f pc hs rfl) hcall
      refine .outside rfl hc fun u => ?_
      by_cases hut : u = t
      · rw [hut]
        exact hth
      · exact hq u hut
  | deliver context _ hp =>
    exact h.setThread (fun hq => by simp [hq.pending] at hp)
      fun _ _ hphase => hphase.deliver context hp
  | handler hh hstep =>
    exact h.setThread (fun hq => hq.handler hh hstep) fun _ _ hphase => hphase.handler hh hstep
  | interrupt => exact h

structure Inv (s : State C T) : Prop where
  aligned : Aligned s
  dead : DeadIdle s

theorem Inv.phase {s : State C T} (h : Inv s) {t : ThreadId} {f : C → Except Panic T}
    {pc : CallPc C T} (hs : s.sampler = .inside t f pc) :
    Phase f s.round (s.threads t) s.shared pc := by
  cases h.aligned with
  | outside hs' => simp [hs] at hs'
  | inside hs' hp =>
    cases hs.symm.trans hs'
    exact hp

theorem reachable_inv {own : ThreadId} {debugAssertions : Bool} {s : State C T}
    (h : (handshake C T own debugAssertions).Reachable CallbackReturns s) : Inv s :=
  h.invariant (I := Inv) (fun hs => ⟨Initial.aligned hs, Initial.deadIdle hs⟩)
    fun hi hr hstep => ⟨hi.aligned.step hi.dead hr hstep, hi.dead.step hstep⟩

end Vignette.Handshake
