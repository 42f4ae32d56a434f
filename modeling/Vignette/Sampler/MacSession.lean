import Vignette.Sampler.Profiling
import Vignette.Sampler.SuspendCounts

/-! A session of macOS: what it holds, in terms of the registers with which its calls let the
threads go on, whatever other threads sample at the same time. -/

namespace Vignette.Suspension

open Library Mac
open Library.System (observed observed_nil observed_snoc)
open Profiling (SampleOf record)

variable {C Cursor : Type}

structure Sampled (C : Type) where
  process : Process C Types.Sample
  session : Session

def Call.results {T : Type} : Call C T → Option T
  | .outside (some (_, .ok results)) => some results
  | _ => none

def returned {T : Type} (own : ThreadId) (s s' : Process C T) : Option (ThreadId × T) :=
  match (s.thread own).call with
  | .inside t _ _ _ => (s'.thread own).call.results.map fun results => (t, results)
  | .outside _ => none

/-- A step of the process, in which the thread `own` only calls `sample_thread`. -/
structure Sampled.Step (contextFits debugAssertions : Bool) (lib : Libunwind C Cursor)
    (own : ThreadId) (s : Sampled C) (l : Label C Types.Sample) (s' : Sampled C) : Prop where
  process : Suspension.Step contextFits debugAssertions s.process l s'.process
  callback : ∀ t f, l = .call own t f → f = Session.sampleCallback lib
  session : s'.session = record s.session (returned own s.process s'.process)

def sampling (contextFits debugAssertions : Bool) (lib : Libunwind C Cursor) (own : ThreadId) :
    System (Sampled C) (Label C Types.Sample) where
  init s := Initial s.process ∧ s.session = Profiler.session
  step := Sampled.Step contextFits debugAssertions lib own

def resumption {T : Type} (own t : ThreadId) (s : Process C T) : Label C T → Option C
  | .sampler u answer =>
    if u = own ∧ answer = KERN_SUCCESS then
      match (s.thread own).call with
      | .inside target _ (.resume _ _) _ =>
        if target = t then some (s.thread t).registers else none
      | _ => none
    else none
  | _ => none

def resumptions (own t : ThreadId) (steps : List (Sampled C × Label C Types.Sample)) : List C :=
  observed (fun s => resumption own t s.process) steps

section Steps

variable {T : Type} {contextFits debugAssertions : Bool} {own t : ThreadId} {s s' : Process C T}
  {l : Label C T}

theorem returned_of_call_eq (h : (s'.thread own).call = (s.thread own).call) :
    returned own s s' = none := by
  rw [returned, h]
  cases (s.thread own).call <;> rfl

theorem returned_of_outside {last : Option (ThreadId × Except Panic T)}
    (h : (s.thread own).call = .outside last) : returned own s s' = none := by
  rw [returned, h]

theorem callStep_results {f : C → Except Panic T} {r : Int32} {registers : C} {pc : CallPc C T} (h : ∀ c results, pc ≠ .resume c results) :
    (callStep contextFits t f r registers pc).results = none := by
  cases pc with
  | suspend =>
    rw [callStep]
    split <;> rfl
  | getState =>
    rw [callStep]
    split
    · rfl
    · split <;> rfl
  | callback c =>
    rw [callStep]
    split <;> rfl
  | resume c results => exact absurd rfl (h c results)

inductive Resumes (own : ThreadId) (s s' : Process C T) (l : Label C T) : Prop
  | resumed {t f c results} : (s.thread own).call = .inside t f (.resume c results) true →
      returned own s s' = some (t, results) →
      (∀ v, resumption own v s l = if t = v then some (s.thread v).registers else none) →
      Resumes own s s' l
  | other : returned own s s' = none → (∀ v, resumption own v s l = none) → Resumes own s s' l

theorem Step.resumes (own : ThreadId) (hstep : Step contextFits debugAssertions s l s')
    (hgone : Gone s) :
    Resumes own s s' l := by
  by_cases hown : own = l.thread
  · subst hown
    cases hstep with
    | @spawn u _ hu =>
      obtain ⟨_, last, hlast⟩ := hgone u hu
      exact .other (returned_of_outside hlast) fun v => rfl
    | exit _ hcall | refuse _ hcall | call _ hcall =>
      exact .other (returned_of_outside hcall) fun v => rfl
    | run => exact .other (returned_of_call_eq (by simp [Label.thread])) fun v => rfl
    | enter _ hcall =>
      exact .other (by simp [returned, Label.thread, hcall, Call.results]) fun v => rfl
    | @sampler u t f pc r n hcall _ heffect =>
      cases pc with
      | resume c results =>
        by_cases hr : r = KERN_SUCCESS
        · subst hr
          refine .resumed hcall ?_ fun v => ?_
          · simp [returned, Label.thread, hcall, callStep, Call.results]
          · simp [resumption, Label.thread, hcall]
        · refine .other ?_ fun v => if_neg fun h => hr h.2
          simp [returned, Label.thread, hcall, callStep, hr, Call.results]
      | _ =>
        refine .other ?_ fun v => by simp [resumption, Label.thread, hcall]
        simp [returned, Label.thread, hcall, callStep_results]
  · refine .other (returned_of_call_eq (hstep.call_of_ne hown)) fun v => ?_
    cases l with
    | sampler u r => exact if_neg fun h => hown h.1.symm
    | _ => rfl

end Steps

section Runs

variable {contextFits debugAssertions : Bool} {lib : Libunwind C Cursor} {own : ThreadId}
  {s₀ s s' : Sampled C} {l : Label C Types.Sample} {steps : List (Sampled C × Label C Types.Sample)}

theorem sampled_process
    (h : (sampling contextFits debugAssertions lib own).Path (fun _ _ => True) s₀ steps s) :
    (suspension C Types.Sample contextFits debugAssertions).Path (fun _ _ => True) s₀.process
      (steps.map fun x => (x.1.process, x.2)) s.process := by
  induction h with
  | nil => exact .nil
  | snoc _ _ hstep ih =>
    rw [List.map_append]
    exact ih.snoc trivial hstep.process

structure Kept (lib : Libunwind C Cursor) (own : ThreadId)
    (steps : List (Sampled C × Label C Types.Sample)) (s : Sampled C) : Prop where
  callback : ∀ t f pc entered, (s.process.thread own).call = .inside t f pc entered →
    f = Session.sampleCallback lib
  samples : ∀ t, List.Forall₂ (SampleOf lib) (resumptions own t steps) (s.session.samplesOf t)

theorem kept_init (h : (sampling contextFits debugAssertions lib own).init s) :
    Kept lib own [] s where
  callback t f pc entered hcall := by simp [(h.1 own).2] at hcall
  samples t := by
    rw [h.2, Session.samplesOf_session]
    exact .nil

theorem Kept.step {psteps : List (Process C Types.Sample × Label C Types.Sample)}
    (h : Kept lib own steps s) (hinv : Inv contextFits psteps s.process)
    (hstep : Sampled.Step contextFits debugAssertions lib own s l s') :
    Kept lib own (steps ++ [(s, l)]) s' where
  callback t f pc entered hcall := by
    cases hstep.process.came hcall with
    | stayed hcall => exact h.callback t f pc _ hcall
    | begun hl => exact hstep.callback t f hl
    | advanced hcall => exact h.callback t f _ true hcall
  samples t := by
    have hsamples := h.samples t
    rw [resumptions, observed_snoc, ← resumptions, hstep.session]
    cases hstep.process.resumes own hinv.gone with
    | @resumed t' f c results hcall hreturned hresumption =>
      rw [hreturned, hresumption, record]
      by_cases ht : t' = t
      · subst ht
        obtain ⟨hregisters, hf⟩ := hinv.reads own t' f _ _ hcall
        rw [if_pos rfl, Session.samplesOf_sampleThread]
        refine List.rel_append hsamples (.cons ?_ .nil)
        rw [SampleOf, hregisters, ← h.callback t' f _ _ hcall]
        exact hf
      · rw [if_neg ht, Session.samplesOf_sampleThread_of_ne results (Ne.symm ht)]
        simpa using hsamples
    | other hreturned hresumption =>
      rw [hreturned, hresumption, Option.toList_none, List.append_nil]
      exact hsamples

theorem kept_of_path (hinit : (sampling contextFits debugAssertions lib own).init s₀)
    (h : (sampling contextFits debugAssertions lib own).Path (fun _ _ => True) s₀ steps s) :
    Kept lib own steps s := by
  induction h with
  | nil => exact kept_init hinit
  | snoc h _ hstep ih =>
    have hinv : Inv contextFits _ _ := hinit.1.inv.of_path (sampled_process h)
    exact ih.step hinv hstep

/-- However many threads sample at the same time, a session has for each thread one sample
for each time that it has resumed the thread, in their order, which is what the unwinder makes
of the registers with which the thread goes on. -/
theorem session_holds_resumptions (hinit : (sampling contextFits debugAssertions lib own).init s₀)
    (h : (sampling contextFits debugAssertions lib own).Path (fun _ _ => True) s₀ steps s) :
    (∀ t, List.Forall₂ (SampleOf lib) (resumptions own t steps) (s.session.samplesOf t)) ∧
    (∀ t, t ∈ s.session.finish.threads ↔ resumptions own t steps ≠ []) ∧
    ∀ t, ∀ sample ∈ s.session.samplesOf t, sample.length ≤ 150 := by
  have hsamples := (kept_of_path hinit h).samples
  refine ⟨hsamples, fun t => ?_, fun t => Profiling.length_le_of_forall₂ (hsamples t)⟩
  rw [Session.mem_finish_iff, ← List.length_pos_iff, ← List.length_pos_iff, (hsamples t).length_eq]

theorem resumptions_eq (own t : ThreadId) (steps : List (Sampled C × Label C Types.Sample)) :
    resumptions own t steps =
      observed (resumption own t) (steps.map fun x => (x.1.process, x.2)) := by
  rw [resumptions, observed, observed, List.filterMap_map]
  rfl

theorem exists_sampling {p₀ p : Process C Types.Sample}
    {psteps : List (Process C Types.Sample × Label C Types.Sample)}
    (h : (suspension C Types.Sample contextFits debugAssertions).Path
      (fun _ l => ∀ t f, l = .call own t f → f = Session.sampleCallback lib) p₀ psteps p)
    (session : Session) : ∃ (steps : List (Sampled C × Label C Types.Sample)) (session' : Session),
      (sampling contextFits debugAssertions lib own).Path (fun _ _ => True) ⟨p₀, session⟩ steps
        ⟨p, session'⟩ ∧
      steps.map (fun x => (x.1.process, x.2)) = psteps := by
  induction h with
  | nil => exact ⟨[], session, .nil, rfl⟩
  | @snoc psteps q l q' _ hcallback hstep ih =>
    obtain ⟨steps, session', hpath, hsteps⟩ := ih
    refine ⟨steps ++ [(⟨q, session'⟩, l)], record session' (returned own q q'), ?_, by simp [hsteps]⟩
    exact hpath.snoc trivial ⟨hstep, hcallback, rfl⟩

end Runs

theorem shared_target : ∃ psteps p, (suspension UInt64 Types.Sample true true).Path
    (fun _ l => ∀ t f, l = .call ⟨1⟩ t f → f = Session.sampleCallback Profiling.twoFrames)
    (calm Types.Sample) psteps p ∧ observed (resumption ⟨1⟩ ⟨3⟩) psteps = [7] := by
  have h : (suspension UInt64 Types.Sample true true).Path
      (fun _ l => ∀ t f, l = .call ⟨1⟩ t f → f = Session.sampleCallback Profiling.twoFrames)
      (calm Types.Sample) _ _ :=
    .snoc (.snoc (.snoc (.snoc (.snoc (.snoc (.snoc (.snoc (.snoc (.snoc (.snoc (.snoc .nil
      (by simp) (Step.call (u := ⟨2⟩) (t := ⟨3⟩) (f := fun _ => .ok []) ⟨by rfl, by rfl⟩ (by rfl)
        (by decide)))
      (by simp) (Step.enter (u := ⟨2⟩) ⟨by rfl, by rfl⟩ (by rfl)))
      (by simp) (Step.sampler (u := ⟨2⟩) (by rfl) (.inl (by rfl)) (.suspend (by rfl))))
      (by simp) (Step.call (u := ⟨1⟩) (t := ⟨3⟩) (f := Session.sampleCallback Profiling.twoFrames)
        ⟨by rfl, by rfl⟩ (by rfl) (by decide)))
      (by simp) (Step.enter (u := ⟨1⟩) ⟨by rfl, by rfl⟩ (by rfl)))
      (by simp) (Step.sampler (u := ⟨1⟩) (by rfl) (.inl (by rfl)) (.suspend (by rfl))))
      (by simp) (Step.enter (u := ⟨1⟩) ⟨by rfl, by rfl⟩ (by rfl)))
      (by simp) (Step.sampler (u := ⟨1⟩) (by rfl) (.inl (by rfl)) (.getState (by rfl))))
      (by simp) (Step.enter (u := ⟨1⟩) ⟨by rfl, by rfl⟩ (by rfl)))
      (by simp) (Step.sampler (u := ⟨1⟩) (by rfl) (.inr ⟨by rfl, by rfl⟩) .callback))
      (by simp) (Step.enter (u := ⟨1⟩) ⟨by rfl, by rfl⟩ (by rfl)))
      (by simp) (Step.sampler (u := ⟨1⟩) (by rfl) (.inl (by rfl)) (.resume (by rfl) (by rfl)))
  exact ⟨_, _, h, rfl⟩

theorem shared_target_sampled : ∃ s : Sampled UInt64,
    List.Forall₂ (SampleOf Profiling.twoFrames) [7] (s.session.samplesOf ⟨3⟩) ∧
    ⟨3⟩ ∈ s.session.finish.threads := by
  obtain ⟨psteps, p, hpath, hresumed⟩ := shared_target
  obtain ⟨steps, session, h, hsteps⟩ := exists_sampling hpath Profiler.session
  obtain ⟨hsamples, hthreads, _⟩ :=
    session_holds_resumptions ⟨calm_initial Types.Sample, rfl⟩ h
  have hresumptions : resumptions ⟨1⟩ ⟨3⟩ steps = [7] := by
    rw [resumptions_eq, hsteps, hresumed]
  exact ⟨_, hresumptions ▸ hsamples ⟨3⟩, (hthreads ⟨3⟩).mpr (by simp [hresumptions])⟩

end Vignette.Suspension
