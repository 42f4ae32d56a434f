import Vignette.Sampler.Handshake

/-! Whether the wait for `msg2` can end, in runs whose callbacks may panic. -/

namespace Vignette.Handshake

open Library
open Function (update update_self update_of_ne)

variable {C T : Type}

/-- The sampler waits for a handler that is not running and will not be entered. -/
def Blocked (s : State C T) : Prop :=
  ∃ t f, s.sampler = .inside t f .waitMsg2 ∧ s.shared.msg2 = some 0 ∧
    ¬((s.threads t).live = true ∧ (s.threads t).pending = some s.round) ∧
    ∀ u h, (s.threads u).handler = some h → h.round ≠ s.round

/-- The target is there when it is signalled, and no thread exits with its signal. -/
structure TargetStays (s : State C T) (l : Label C T) : Prop where
  send : ∀ t f, s.sampler = .inside t f .sendSignal → l = .sampler → (s.threads t).live = true
  exit : ∀ u, l = .exit u → (s.threads u).pending = none

def HandlerPc.Early : HandlerPc → Prop
  | .copyContext | .postMsg2 => True
  | _ => False

structure Settled (th : Thread C) : Prop where
  pending : th.pending = none
  late : ∀ h, th.handler = some h → ¬h.pc.Early

inductive Due (round : Nat) (th : Thread C) : Prop
  | pending : th.live = true → th.pending = some round →
      (∀ h, th.handler = some h → ¬h.pc.Early) → Due round th
  | early {h} : th.pending = none → th.handler = some h → h.pc.Early → h.round = round → Due round th

def CallPc.Reset : CallPc C T → Prop
  | .resetMsg3 | .resetMsg4 | .resetContext | .sendSignal => True
  | _ => False

def CallPc.Unanswered (pc : CallPc C T) : Prop := pc = .resetMsg2 ∨ pc.Reset ∨ pc = .waitMsg2

/-- Either the one `msg2` of a round is to come, or it has come or not been asked for. -/
inductive Arrival (s : State C T) : Prop
  | settled : (∀ u, Settled (s.threads u)) →
      (∀ t f pc, s.sampler = .inside t f pc → pc.Reset → s.shared.msg2 = some 0) →
      (∀ t f, s.sampler = .inside t f .waitMsg2 → s.shared.msg2 ≠ some 0) → Arrival s
  | due {t f} : s.sampler = .inside t f .waitMsg2 → s.shared.msg2 = some 0 →
      Due s.round (s.threads t) → (∀ u, u ≠ t → Settled (s.threads u)) → Arrival s

theorem Arrival.not_blocked {s : State C T} (h : Arrival s) : ¬Blocked s := by
  intro ⟨t, f, hs, hm, hpending, hhandler⟩
  cases h with
  | settled _ _ hw => exact hw t f hs hm
  | due hs' _ hd _ =>
    rw [hs] at hs'
    cases hs'
    cases hd with
    | pending hl hp _ => exact hpending ⟨hl, hp⟩
    | early _ hh _ hround => exact hhandler t _ hh hround

theorem Settled.spawned : Settled (Thread.spawned : Thread C) := ⟨rfl, fun _ h => by cases h⟩

theorem Settled.exited : Settled (Thread.exited : Thread C) := ⟨rfl, fun _ h => by cases h⟩

theorem handlerStep_late {shared shared' : SharedState C} {h : Handler C} {h' : Option (Handler C)}
    (hl : ¬h.pc.Early) (hstep : handlerStep shared h = some (shared', h')) :
    shared'.msg2 = shared.msg2 ∧ ∀ k, h' = some k → ¬k.pc.Early := by
  cases h with
  | mk pc context round =>
    cases pc with
    | copyContext | postMsg2 => exact absurd trivial hl
    | waitMsg3 =>
      cases hm : shared.msg3 with
      | none => simp_all [handlerStep, HandlerPc.Early, eq_comm]
      | some n => cases n <;> simp_all [handlerStep, HandlerPc.Early, eq_comm]
    | postMsg4 =>
      cases hm : shared.msg4 <;> simp_all [handlerStep, HandlerPc.Early, eq_comm]
    | tail => simp_all [handlerStep, eq_comm]
    | aborted => simp [handlerStep] at hstep

theorem Arrival.setThread {s : State C T} {u : ThreadId} {th : Thread C} {shared : SharedState C}
    (h : Arrival s) (hm : shared.msg2 = s.shared.msg2) (hs : Settled (s.threads u) → Settled th)
    (hd : Due s.round (s.threads u) → Due s.round th) :
    Arrival { s with shared, threads := update s.threads u th } := by
  cases h with
  | settled ht hr hw =>
    refine .settled (fun v => forall_update (hs (ht u)) fun _ => ht v) ?_ ?_
    · exact fun t f pc hin hreset => hm.trans (hr t f pc hin hreset)
    · exact fun t f hin => hm ▸ hw t f hin
  | @due t f hin hzero hdue ht =>
    by_cases hu : t = u
    · subst hu
      refine .due hin (hm.trans hzero) (by simpa using hd hdue) fun v hv => ?_
      simpa [update_of_ne hv] using ht v hv
    · refine .due hin (hm.trans hzero) (by simpa [update_of_ne hu] using hdue) fun v hv => ?_
      exact forall_update (hs (ht u (Ne.symm hu))) fun _ => ht v hv

theorem Due.not_idle {round : Nat} {th : Thread C} (h : Due round th) (hn : th.handler = none) :
    th.live = true ∧ th.pending = some round := by
  cases h with
  | pending hl hp _ => exact ⟨hl, hp⟩
  | early _ hh => simp [hn] at hh

theorem Settled.handler {th : Thread C} {h : Handler C} {h' : Option (Handler C)}
    {shared shared' : SharedState C} (hs : Settled th) (hh : th.handler = some h)
    (hstep : handlerStep shared h = some (shared', h')) : Settled { th with handler := h' } :=
  ⟨hs.pending, (handlerStep_late (hs.late h hh) hstep).2⟩

theorem Arrival.post {s : State C T} {u : ThreadId} {c : C} {r : Nat} (ha : Arrival s)
    (hh : (s.threads u).handler = some ⟨.postMsg2, c, r⟩) {shared : SharedState C}
    {h' : Option (Handler C)}
    (hstep : handlerStep s.shared ⟨.postMsg2, c, r⟩ = some (shared, h')) :
    Arrival { s with shared, threads := update s.threads u { s.threads u with handler := h' } } := by
  cases ha with
  | settled ht => exact absurd trivial ((ht u).late _ hh)
  | @due t f hin hzero hdue ht =>
    by_cases hu : u = t
    · subst hu
      simp only [handlerStep, hzero, Option.some.injEq, Prod.mk.injEq] at hstep
      obtain ⟨rfl, rfl⟩ := hstep
      cases hdue with
      | pending _ _ hl => exact absurd trivial (hl _ hh)
      | early hp =>
        have hsettled : Settled { s.threads u with handler := some ⟨.waitMsg3, c, r⟩ } :=
          ⟨hp, fun h hh => by cases hh; exact id⟩
        refine .settled (fun v => forall_update hsettled (ht v)) (fun t f pc hs hreset => ?_)
          fun _ _ _ => nofun
        cases hin.symm.trans hs
        exact hreset.elim
    · exact absurd trivial ((ht u hu).late _ hh)

theorem Arrival.handler {s : State C T} {u : ThreadId} {h : Handler C} {h' : Option (Handler C)}
    {shared : SharedState C} (ha : Arrival s) (hh : (s.threads u).handler = some h)
    (hstep : handlerStep s.shared h = some (shared, h')) :
    Arrival { s with shared, threads := update s.threads u { s.threads u with handler := h' } } := by
  by_cases hlate : h.pc.Early
  · cases h with
    | mk pc c r =>
      cases pc with
      | copyContext =>
        cases hstep
        refine ha.setThread rfl (fun hs => absurd trivial (hs.late _ hh)) fun hd => ?_
        cases hd with
        | pending _ _ hl => exact absurd trivial (hl _ hh)
        | early hp hh' _ hround =>
          cases hh.symm.trans hh'
          exact .early hp rfl trivial hround
      | postMsg2 => exact ha.post hh hstep
      | waitMsg3 | postMsg4 | tail | aborted => exact hlate.elim
  · have hkeep := handlerStep_late hlate hstep
    refine ha.setThread hkeep.1 (fun hs => hs.handler hh hstep) fun hd => ?_
    cases hd with
    | pending hl hp _ => exact .pending hl hp hkeep.2
    | early _ hh' hearly =>
      cases hh.symm.trans hh'
      exact absurd hearly hlate

theorem callStep_past {f : C → Except Panic T} {shared shared' : SharedState C}
    {pc pc' : CallPc C T} (hpc : pc ≠ .resetMsg2) (hreset : ¬pc.Reset)
    (hstep : callStep f shared pc = some (shared', .goto pc')) : ¬pc'.Reset ∧ pc' ≠ .waitMsg2 := by
  cases pc with
  | resetMsg2 => exact absurd rfl hpc
  | resetMsg3 | resetMsg4 | resetContext | sendSignal => exact absurd trivial hreset
  | clearMsg2 | clearMsg3 | clearMsg4 =>
    cases hstep
    exact ⟨id, nofun⟩
  | clearContext => cases hstep
  | _ =>
    simp only [callStep] at hstep
    split at hstep <;> cases hstep
    exact ⟨id, nofun⟩

theorem effect_of_not_reset {pc : CallPc C T} {round : Nat} {th : Thread C} (h : ¬pc.Reset) :
    pc.effect round th = th := by
  cases pc with
  | sendSignal => exact absurd trivial h
  | _ => rfl

theorem Arrival.goto {s : State C T} {t : ThreadId} {f : C → Except Panic T} {pc pc' : CallPc C T}
    {shared : SharedState C} (h : Arrival s) (hstay : TargetStays s .sampler)
    (hs : s.sampler = .inside t f pc) (hcall : callStep f s.shared pc = some (shared, .goto pc')) :
    Arrival { s with
      shared, sampler := .inside t f pc',
      threads := update s.threads t (pc.effect s.round (s.threads t)) } := by
  cases h with
  | due hs' hzero =>
    cases hs.symm.trans hs'
    simp [callStep, hzero] at hcall
  | settled ht hr hw =>
    by_cases hreset : pc.Reset
    · have hzero := hr t f pc hs hreset
      cases pc with
      | resetMsg3 | resetMsg4 | resetContext =>
        cases hcall
        refine .settled (fun v => forall_update (ht t) fun _ => ht v) (fun _ _ _ _ _ => hzero) ?_
        exact fun _ _ hin => by cases hin
      | sendSignal =>
        cases hcall
        have hl := hstay.send t f hs rfl
        have hdue : Due s.round ((s.threads t).sendSignal s.round) := by
          rw [Thread.sendSignal_of_live hl, (ht t).pending]
          exact .pending hl rfl (ht t).late
        refine .due rfl hzero (by simpa [CallPc.effect] using hdue) fun v hv => ?_
        simpa [update_of_ne hv] using ht v
      | _ => exact hreset.elim
    · have ht : ∀ v, Settled (update s.threads t (pc.effect s.round (s.threads t)) v) := fun v =>
        forall_update (effect_of_not_reset hreset ▸ ht t) fun _ => ht v
      by_cases hpc : pc = .resetMsg2
      · subst hpc
        cases hcall
        exact .settled ht (fun _ _ _ _ _ => rfl) fun _ _ hin => by cases hin
      · obtain ⟨hreset', hwait⟩ := callStep_past hpc hreset hcall
        refine .settled ht (fun _ _ _ hin hreset => ?_) fun _ _ hin => ?_
        · cases hin
          exact absurd hreset hreset'
        · cases hin
          exact absurd rfl hwait

theorem Arrival.step {own : ThreadId} {debugAssertions : Bool} {s s' : State C T} {l : Label C T}
    (h : Arrival s) (hd : DeadIdle s) (hstay : TargetStays s l)
    (hstep : Step own debugAssertions s l s') : Arrival s' := by
  cases hstep with
  | @spawn u hlive =>
    refine h.setThread rfl (fun _ => .spawned) fun hdue => ?_
    have hl := (hdue.not_idle (hd u hlive)).1
    simp [hlive] at hl
  | @exit u _ _ hn =>
    refine h.setThread rfl (fun _ => .exited) fun hdue => ?_
    have hp := (hdue.not_idle hn).2
    simp [hstay.exit u rfl] at hp
  | list =>
    cases h with
    | settled ht hr hw => exact .settled ht hr hw
    | due hs hzero hdue ht => exact .due hs hzero hdue ht
  | refuse hs =>
    cases h with
    | settled ht => exact .settled ht nofun nofun
    | due hs' => simp [hs] at hs'
  | call hs =>
    cases h with
    | settled ht => exact .settled ht (fun _ _ _ hs hreset => by cases hs; exact hreset.elim) nofun
    | due hs' => simp [hs] at hs'
  | goto hs _ hcall => exact h.goto hstay hs hcall
  | leave hs _ hcall =>
    cases h with
    | settled ht => exact .settled ht nofun nofun
    | due hs' hzero =>
      cases hs.symm.trans hs'
      simp [callStep, hzero] at hcall
  | deliver context _ hp =>
    refine h.setThread rfl (fun hs => by simp [hs.pending] at hp) fun hdue => ?_
    cases hdue with
    | pending _ hp' =>
      cases hp.symm.trans hp'
      exact .early rfl rfl trivial rfl
    | early hp' => simp [hp'] at hp
  | handler hh hstep => exact h.handler hh hstep
  | interrupt => exact h

theorem Initial.arrival {own : ThreadId} {s : State C T} (h : Initial own s) : Arrival s := by
  refine .settled (fun u => ⟨(h.idle u).1, fun _ hh => by simp [(h.idle u).2] at hh⟩) ?_ ?_
  · intro _ _ _ hs
    simp [h.sampler] at hs
  · intro _ _ hs
    simp [h.sampler] at hs

end Vignette.Handshake
