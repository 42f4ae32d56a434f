import Vignette.Sampler.Execution
import Vignette.Sampler.Session

/-! A session as its calls run side by side with their targets: what the profile holds, in
terms of the contexts at which the threads were stopped. -/

namespace Vignette

open Library

namespace Handshake

open Function (update update_self update_of_ne)

variable {C T : Type}

def takenBy (th : Thread C) (shared : SharedState C) : Option C :=
  match shared.context with
  | some c => some c
  | none =>
    match th.handler with
    | some ⟨.copyContext, c, _⟩ => some c
    | _ => none

theorem Quiet.takenBy {th : Thread C} (h : Quiet th) : takenBy th .cleared = none := by
  cases hh : th.handler with
  | none => simp [Handshake.takenBy, SharedState.cleared, hh]
  | some hd =>
    obtain ⟨pc, c, round⟩ := hd
    have ht : pc = .tail := h.tail _ hh
    subst ht
    simp [Handshake.takenBy, SharedState.cleared, hh]

namespace Phase

variable {f : C → Except Panic T} {round : Nat} {th : Thread C} {shared shared' : SharedState C}
  {pc pc' : CallPc C T}

theorem takenBy_goto (h : Phase f round th shared pc)
    (hstep : callStep f shared pc = some (shared', .goto pc')) :
    takenBy (pc.effect round th) shared' = takenBy th shared := by
  have hhandler := (pc.effect_handler round th).1
  have hcontext : shared'.context = shared.context := by
    cases h with
    | @callback c hp hh =>
      cases hf : f c with
      | error p => simp [callStep, hf] at hstep
      | ok v =>
        simp only [callStep, hf, Option.some.injEq, Prod.mk.injEq] at hstep
        rw [← hstep.1]
    | lost | pending | copyContext | postMsg2 | released | postMsg4 | clearContext => cases hstep
    | _ =>
      cases hstep
      rfl
  rw [takenBy, takenBy, hhandler, hcontext]

theorem takenBy_handler {h : Handler C} {h' : Option (Handler C)} (hp : Phase f round th shared pc)
    (hh : th.handler = some h) (hstep : handlerStep shared h = some (shared', h')) :
    takenBy { th with handler := h' } shared' = takenBy th shared := by
  have htail : h.pc = .tail → takenBy { th with handler := h' } shared' = takenBy th shared := by
    intro ht
    obtain ⟨rfl, rfl⟩ := handlerStep_tail ht hstep
    obtain ⟨pc, c, round⟩ := h
    cases ht
    simp [takenBy, hh]
  cases hp with
  | resetMsg2 hq | resetMsg3 hq | resetMsg4 hq | resetContext hq | sendSignal hq | lost hq
  | done hq | clearMsg2 hq | clearMsg3 hq | clearMsg4 hq | clearContext hq =>
    exact htail (hq.tail h hh)
  | pending _ ht => exact htail (ht h hh)
  | copyContext _ hh' | postMsg2 _ hh' | released _ hh' | postMsg4 _ hh' =>
    cases hh.symm.trans hh'
    cases hstep
    simp [takenBy, hh]
  | posted _ hh' | readContext _ hh' | callback _ hh' | postMsg3 _ hh' =>
    cases hh.symm.trans hh'
    cases hstep

theorem context_of_pending {r : Nat} (h : Phase f round th shared pc) (hp : th.pending = some r) :
    shared.context = none := by
  cases h with
  | pending => rfl
  | resetMsg2 hq | resetMsg3 hq | resetMsg4 hq | resetContext hq | sendSignal hq | lost hq
  | done hq | clearMsg2 hq | clearMsg3 hq | clearMsg4 hq | clearContext hq =>
    simp [hq.pending] at hp
  | _ hp' => simp [hp'] at hp

end Phase

def current (s : State C T) (u : ThreadId) : Option C :=
  match s.sampler with
  | .outside _ => none
  | .inside t _ _ => if u = t then takenBy (s.threads t) s.shared else none

theorem current_outside {s : State C T} {last : Option (ThreadId × Except Panic T)}
    (hs : s.sampler = .outside last) (u : ThreadId) : current s u = none := by
  rw [current, hs]

theorem Aligned.current_setThread {s : State C T} {u : ThreadId} {th : Thread C}
    {shared : SharedState C} (h : Aligned s) (hquiet : Quiet (s.threads u) → shared = s.shared)
    (hphase : ∀ (f : C → Except Panic T) pc, Phase f s.round (s.threads u) s.shared pc →
      takenBy th shared = takenBy (s.threads u) s.shared) :
    current { s with shared, threads := update s.threads u th } = current s := by
  funext v
  cases h with
  | outside hs => simp only [current, hs]
  | @inside t f pc hs hp hq =>
    by_cases hu : u = t
    · subst hu
      simp only [current, hs, update_self, hphase f pc hp]
    · simp only [current, hs, update_of_ne (Ne.symm hu), hquiet (hq u hu)]

def returned (s s' : State C T) : Option (ThreadId × T) :=
  match s.sampler, s'.sampler with
  | .inside t _ _, .outside (some (_, .ok results)) => some (t, results)
  | _, _ => none

inductive Movement (s s' : State C T) : Label C T → Prop
  | stopped {u c} : (∀ v, current s v = none) → (∀ v, current s' v = if v = u then some c else none) →
      returned s s' = none → Movement s s' (.deliver u c)
  | returned {l t f pc c results} : (∀ u c, l ≠ .deliver u c) → s.sampler = .inside t f pc →
      f c = .ok results → (∀ v, current s v = if v = t then some c else none) →
      (∀ v, current s' v = none) → returned s s' = some (t, results) → Movement s s' l
  | other {l} : (∀ u c, l ≠ .deliver u c) → current s' = current s → returned s s' = none →
      Movement s s' l

theorem returned_of_sampler_eq {s s' : State C T} (h : s'.sampler = s.sampler) :
    Handshake.returned s s' = none := by
  rw [Handshake.returned, h]
  cases s.sampler <;> rfl

theorem Inv.movement {own : ThreadId} {debugAssertions : Bool} {s s' : State C T} {l : Label C T}
    (h : Inv s) (hr : CallbackReturns s l) (hstep : Step own debugAssertions s l s') :
    Movement s s' l := by
  cases hstep with
  | @spawn u hlive =>
    refine .other (by simp) (h.aligned.current_setThread (fun _ => rfl) fun f pc _ => ?_)
      (returned_of_sampler_eq rfl)
    simp [takenBy, h.dead u hlive, Thread.spawned]
  | @exit u _ _ hn =>
    refine .other (by simp) (h.aligned.current_setThread (fun _ => rfl) fun f pc _ => ?_)
      (returned_of_sampler_eq rfl)
    simp [takenBy, hn, Thread.exited]
  | list => exact .other (by simp) rfl (returned_of_sampler_eq rfl)
  | refuse hs => exact .other (by simp) (by funext; simp [current, hs]) (by simp [Handshake.returned, hs])
  | @call last t f hs =>
    have hbetween := h.aligned.between hs
    refine .other (by simp) (funext fun v => ?_) (by simp [Handshake.returned, hs])
    simp [current, hs, hbetween.1, (hbetween.2 t).takenBy]
  | @goto t f pc shared pc' hs _ hcall =>
    refine .other (by simp) (funext fun v => ?_) (by simp [Handshake.returned, hs])
    simp [current, hs, (h.phase hs).takenBy_goto hcall]
  | @leave t f pc shared outcome hs _ hcall =>
    obtain ⟨_, _, c, v, hc, hf, rfl⟩ := (h.phase hs).leave (hr t f pc hs rfl) hcall
    refine .returned (by simp) hs hf (fun u => ?_) (fun u => rfl) (by simp [Handshake.returned, hs])
    simp [current, hs, takenBy, hc]
  | @deliver u r c hl hp hn =>
    cases h.aligned with
    | outside _ _ hq => simp [(hq u).pending] at hp
    | @inside t f pc hs hphase hq =>
      have hut : u = t := by
        by_contra hut
        simp [(hq u hut).pending] at hp
      subst hut
      have hcontext := hphase.context_of_pending hp
      refine .stopped (fun v => ?_) (fun v => ?_) (returned_of_sampler_eq rfl)
      · simp [current, hs, takenBy, hcontext, hn]
      · simp [current, hs, takenBy, hcontext, Thread.entered]
  | handler hh hstep =>
    refine .other (by simp) (h.aligned.current_setThread (fun hq => (hq.handler hh hstep).1) ?_)
      (returned_of_sampler_eq rfl)
    exact fun f pc hp => hp.takenBy_handler hh hstep
  | interrupt => exact .other (by simp) rfl (returned_of_sampler_eq rfl)

end Handshake

namespace Profiling

open Handshake

variable {C Cursor : Type}

structure State (C : Type) where
  process : Handshake.State C Types.Sample
  session : Session

def record (session : Session) : Option (ThreadId × Types.Sample) → Session
  | some (thread, sample) => session.sampleThread thread sample
  | none => session

/-- A step of the process whose calls are those of `sample_thread`. -/
structure Step (lib : Libunwind C Cursor) (own : ThreadId) (debugAssertions : Bool) (s : State C)
    (l : Label C Types.Sample) (s' : State C) : Prop where
  process : Handshake.Step own debugAssertions s.process l s'.process
  callback : ∀ t f, l = .call t f → f = Session.sampleCallback lib
  session : s'.session = record s.session (returned s.process s'.process)

def profiling (lib : Libunwind C Cursor) (own : ThreadId) (debugAssertions : Bool) :
    System (State C) (Label C Types.Sample) where
  init s := Initial own s.process ∧ s.session = Profiler.session
  step := Step lib own debugAssertions

def contextsOf (u : ThreadId) (labels : List (Label C Types.Sample)) : List C :=
  labels.filterMap fun
    | .deliver v c => if v = u then some c else none
    | _ => none

def SampleOf (lib : Libunwind C Cursor) (c : C) (sample : Types.Sample) : Prop :=
  Session.sampleCallback lib c = .ok sample

structure Recorded (lib : Libunwind C Cursor) (labels : List (Label C Types.Sample))
    (s : State C) : Prop where
  inv : Inv s.process
  callback : ∀ t f pc, s.process.sampler = .inside t f pc → f = Session.sampleCallback lib
  samples : ∀ u, ∃ contexts, contextsOf u labels = contexts ++ (current s.process u).toList ∧
    List.Forall₂ (SampleOf lib) contexts (s.session.samplesOf u)

variable {lib : Libunwind C Cursor} {own : ThreadId} {debugAssertions : Bool} {s s' : State C}
  {l : Label C Types.Sample} {labels : List (Label C Types.Sample)}
  {steps : List (State C × Label C Types.Sample)}

theorem contextsOf_snoc_of_ne (hl : ∀ u c, l ≠ .deliver u c) (u : ThreadId) :
    contextsOf u (labels ++ [l]) = contextsOf u labels := by
  rw [contextsOf, List.filterMap_append, ← contextsOf]
  cases l with
  | deliver v c => exact absurd rfl (hl v c)
  | _ => simp

theorem recorded_init (h : (profiling lib own debugAssertions).init s) : Recorded lib [] s where
  inv := ⟨Initial.aligned h.1, Initial.deadIdle h.1⟩
  callback t f pc hs := by simp [h.1.sampler] at hs
  samples u := by
    refine ⟨[], ?_, ?_⟩
    · simp [contextsOf, current, h.1.sampler]
    · rw [h.2, Session.samplesOf_session]
      exact .nil

theorem Recorded.step (h : Recorded lib labels s) (hr : CallbackReturns s.process l)
    (hstep : Step lib own debugAssertions s l s') : Recorded lib (labels ++ [l]) s' where
  inv := ⟨h.inv.aligned.step h.inv.dead hr hstep.process, h.inv.dead.step hstep.process⟩
  callback := callback_kept h.callback hstep.callback hstep.process
  samples u := by
    obtain ⟨contexts, hcontexts, hsamples⟩ := h.samples u
    have hsession := hstep.session
    cases h.inv.movement hr hstep.process with
    | @stopped v c hbefore hafter hreturned =>
      refine ⟨contexts, ?_, ?_⟩
      · rw [contextsOf, List.filterMap_append, ← contextsOf, hcontexts, hbefore, hafter]
        by_cases hv : v = u
        · simp [hv]
        · simp [hv, Ne.symm hv]
      · rw [hsession, hreturned]
        exact hsamples
    | @returned _ t f pc c sample hl hs hf hbefore hafter hreturned =>
      rw [hbefore] at hcontexts
      have hsampleOf : SampleOf lib c sample := by
        rw [SampleOf, ← h.callback t f pc hs]
        exact hf
      rw [contextsOf_snoc_of_ne hl, hafter, hsession, hreturned, record, hcontexts]
      by_cases hu : u = t
      · subst hu
        refine ⟨contexts ++ [c], by simp, ?_⟩
        rw [Session.samplesOf_sampleThread]
        exact List.rel_append hsamples (.cons hsampleOf .nil)
      · refine ⟨contexts, by simp [hu], ?_⟩
        rw [Session.samplesOf_sampleThread_of_ne sample hu]
        exact hsamples
    | other hl hcurrent hreturned =>
      refine ⟨contexts, ?_, ?_⟩
      · rw [contextsOf_snoc_of_ne hl, hcurrent, hcontexts]
      · rw [hsession, hreturned]
        exact hsamples

def SamplesReturn (s : State C) (l : Label C Types.Sample) : Prop := CallbackReturns s.process l

theorem recorded_of_path {s₀ : State C} (hinit : (profiling lib own debugAssertions).init s₀)
    (h : (profiling lib own debugAssertions).Path SamplesReturn s₀ steps s) :
    Recorded lib (steps.map Prod.snd) s := by
  induction h with
  | nil => exact recorded_init hinit
  | snoc _ hr hstep ih =>
    rw [List.map_append]
    exact ih.step hr hstep

theorem length_le_of_forall₂ {contexts : List C} {samples : List Types.Sample}
    (h : List.Forall₂ (SampleOf lib) contexts samples) : ∀ sample ∈ samples, sample.length ≤ 150 := by
  induction h with
  | nil => simp
  | cons hsample _ ih =>
    intro sample hmem
    cases hmem with
    | head => exact Session.length_sampleCallback_le hsample
    | tail _ hmem => exact ih sample hmem

theorem Recorded.between (h : Recorded lib labels s)
    {last : Option (ThreadId × Except Panic Types.Sample)} (hs : s.process.sampler = .outside last)
    (u : ThreadId) : List.Forall₂ (SampleOf lib) (contextsOf u labels) (s.session.samplesOf u) := by
  obtain ⟨contexts, hcontexts, hsamples⟩ := h.samples u
  rw [current_outside hs, Option.toList_none, List.append_nil] at hcontexts
  rw [hcontexts]
  exact hsamples

/-- Between two calls, of a session in whose run all callbacks return, each thread has one
sample for each context at which it was stopped, in their order, and no other thread is in
the profile. -/
theorem session_holds_snapshots {s₀ : State C}
    (hinit : (profiling lib own debugAssertions).init s₀)
    (h : (profiling lib own debugAssertions).Path SamplesReturn s₀ steps s)
    {last : Option (ThreadId × Except Panic Types.Sample)} (hs : s.process.sampler = .outside last) :
    (∀ u, List.Forall₂ (SampleOf lib) (contextsOf u (steps.map Prod.snd)) (s.session.samplesOf u)) ∧
    (∀ u, u ∈ s.session.finish.threads ↔ contextsOf u (steps.map Prod.snd) ≠ []) ∧
    ∀ u, ∀ sample ∈ s.session.samplesOf u, sample.length ≤ 150 := by
  have hsamples := (recorded_of_path hinit h).between hs
  refine ⟨hsamples, fun u => ?_, fun u => length_le_of_forall₂ (hsamples u)⟩
  rw [Session.mem_finish_iff, ← List.length_pos_iff, ← List.length_pos_iff, (hsamples u).length_eq]

theorem exists_profiling {p₀ p : Handshake.State C Types.Sample}
    {steps : List (Handshake.State C Types.Sample × Label C Types.Sample)}
    (h : (handshake C Types.Sample own debugAssertions).Path
      (CallsReturn (Session.sampleCallback lib)) p₀ steps p)
    (session : Session) : ∃ (psteps : List (State C × Label C Types.Sample)) (session' : Session),
      (profiling lib own debugAssertions).Path SamplesReturn ⟨p₀, session⟩ psteps ⟨p, session'⟩ ∧
      psteps.map Prod.snd = steps.map Prod.snd := by
  induction h with
  | nil => exact ⟨[], session, .nil, rfl⟩
  | @snoc steps q l q' _ hq hstep ih =>
    obtain ⟨psteps, session', hpath, hlabels⟩ := ih
    refine ⟨psteps ++ [(⟨q, session'⟩, l)], record session' (returned q q'), ?_, by simp [hlabels]⟩
    exact hpath.snoc hq.1 ⟨hstep, hq.2, rfl⟩

def twoFrames : Libunwind UInt64 Nat where
  initLocal _ := (0, 2)
  step
    | 0 => (0, 0)
    | n + 1 => (1, n)
  getRegIp n := (0, 0x400 + n.toUInt64)

theorem oneSample_holds_snapshot : ∃ s : State UInt64,
    List.Forall₂ (SampleOf twoFrames) [7] (s.session.samplesOf ⟨2⟩) ∧
    ⟨2⟩ ∈ s.session.finish.threads := by
  have htotal (c : UInt64) : ∃ sample, Session.sampleCallback twoFrames c = .ok sample :=
    ⟨[⟨0x401⟩, ⟨0x400⟩], rfl⟩
  have hrun : (run ⟨1⟩ true (calm UInt64 Types.Sample)
      (oneCall (Session.sampleCallback twoFrames) 7)).bind lastResult =
        some (⟨2⟩, [⟨0x401⟩, ⟨0x400⟩]) := by decide +kernel
  obtain ⟨p, steps, hpath, hs, hlabels⟩ := exists_oneCall htotal hrun
  obtain ⟨psteps, session, h, hplabels⟩ := exists_profiling hpath Profiler.session
  obtain ⟨hsamples, hthreads, _⟩ := session_holds_snapshots ⟨calm_initial ⟨1⟩, rfl⟩ h hs
  have hcontexts : contextsOf ⟨2⟩ (psteps.map Prod.snd) = [7] := by
    rw [hplabels, hlabels]
    rfl
  have hsample := hsamples ⟨2⟩
  rw [hcontexts] at hsample
  exact ⟨_, hsample, (hthreads ⟨2⟩).mpr (by simp [hcontexts])⟩

end Profiling

end Vignette
