import Vignette.Library.Progress
import Vignette.Sampler.Safety

/-! The steps of the handshake, computed from their labels. -/

namespace Vignette.Handshake

open Library
open Function (update)

variable {C T : Type}

def exec (own : ThreadId) (debugAssertions : Bool) (s : State C T) :
    Label C T → Option (State C T)
  | .spawn u =>
    if (s.threads u).live then none else some { s with threads := update s.threads u .spawned }
  | .exit u =>
    if u ≠ own ∧ (s.threads u).live ∧ (s.threads u).handler.isNone then
      some { s with threads := update s.threads u .exited }
    else none
  | .list u => if (s.threads u).live then some { s with handles := u :: s.handles } else none
  | .call t f =>
    match s.sampler with
    | .inside .. => none
    | .outside _ =>
      if (s.threads own).handler.isNone ∧ t ∈ s.handles then
        if t = own ∧ debugAssertions then
          some { s with
            sampler := .outside (some (t, .error (.assertion "Can't suspend sampler itself!"))) }
        else some { s with sampler := .inside t f .resetMsg2, round := s.round + 1 }
      else none
  | .sampler =>
    match s.sampler with
    | .outside _ => none
    | .inside t f pc =>
      if (s.threads own).handler.isNone then
        match callStep f s.shared pc with
        | none => none
        | some (shared, .goto pc') => some { s with
            shared, sampler := .inside t f pc',
            threads := update s.threads t (pc.effect s.round (s.threads t)) }
        | some (shared, .leave outcome) =>
          some { s with shared, sampler := .outside (some (t, outcome)) }
      else none
  | .deliver u context =>
    match (s.threads u).pending with
    | none => none
    | some round =>
      if (s.threads u).live ∧ (s.threads u).handler.isNone then
        some { s with threads := update s.threads u (.entered context round) }
      else none
  | .handler u =>
    match (s.threads u).handler with
    | none => none
    | some h =>
      match handlerStep s.shared h with
      | none => none
      | some (shared, h') =>
        some { s with shared, threads := update s.threads u { s.threads u with handler := h' } }
  | .interrupt => some s

variable {own : ThreadId} {debugAssertions : Bool} {s s' : State C T} {l : Label C T}

theorem exec_of_step (h : Step own debugAssertions s l s') : exec own debugAssertions s l = some s' := by
  cases h with
  | spawn hl => simp [exec, hl]
  | exit hu hl hn => simp [exec, hu, hl, hn]
  | list hl => simp [exec, hl]
  | refuse hs hown ht hself =>
    simp only [exec, hs, hown, ht, Option.isNone_none, and_self, if_true, if_pos hself]
  | call hs hown ht hself =>
    simp only [exec, hs, hown, ht, Option.isNone_none, and_self, if_true, if_neg hself]
  | goto hs hown hcall => simp [exec, hs, hown, hcall]
  | leave hs hown hcall => simp [exec, hs, hown, hcall]
  | deliver _ hl hp hn => simp [exec, hl, hp, hn]
  | handler hh hstep => simp [exec, hh, hstep]
  | interrupt => rfl

theorem step_of_exec (h : exec own debugAssertions s l = some s') : Step own debugAssertions s l s' := by
  cases l with
  | spawn u =>
    simp only [exec, Option.ite_none_left_eq_some, Option.some.injEq] at h
    obtain ⟨hl, rfl⟩ := h
    exact .spawn (by simpa using hl)
  | exit u =>
    simp only [exec, Option.ite_none_right_eq_some, Option.some.injEq, Option.isNone_iff_eq_none] at h
    obtain ⟨⟨hu, hl, hn⟩, rfl⟩ := h
    exact .exit hu hl hn
  | list u =>
    simp only [exec, Option.ite_none_right_eq_some, Option.some.injEq] at h
    obtain ⟨hl, rfl⟩ := h
    exact .list hl
  | call t f =>
    cases hs : s.sampler with
    | inside => simp [exec, hs] at h
    | outside last =>
      simp only [exec, hs, Option.ite_none_right_eq_some, Option.isNone_iff_eq_none] at h
      obtain ⟨⟨hown, ht⟩, h⟩ := h
      split at h <;> rename_i hself <;> cases h
      · exact .refuse hs hown ht hself
      · exact .call hs hown ht hself
  | sampler =>
    cases hs : s.sampler with
    | outside => simp [exec, hs] at h
    | inside t f pc =>
      simp only [exec, hs, Option.ite_none_right_eq_some, Option.isNone_iff_eq_none] at h
      obtain ⟨hown, h⟩ := h
      split at h <;> rename_i hcall <;> cases h
      · exact .goto hs hown hcall
      · exact .leave hs hown hcall
  | deliver u context =>
    cases hp : (s.threads u).pending with
    | none => simp [exec, hp] at h
    | some round =>
      simp only [exec, hp, Option.ite_none_right_eq_some, Option.some.injEq,
        Option.isNone_iff_eq_none] at h
      obtain ⟨⟨hl, hn⟩, rfl⟩ := h
      exact .deliver context hl hp hn
  | handler u =>
    cases hh : (s.threads u).handler with
    | none => simp [exec, hh] at h
    | some hd =>
      simp only [exec, hh] at h
      split at h <;> rename_i hstep <;> cases h
      exact .handler hh hstep
  | interrupt =>
    cases h
    exact .interrupt

theorem exec_eq_some_iff : exec own debugAssertions s l = some s' ↔ Step own debugAssertions s l s' :=
  ⟨step_of_exec, exec_of_step⟩

def run (own : ThreadId) (debugAssertions : Bool) (s : State C T) (labels : List (Label C T)) :
    Option (State C T) := labels.foldlM (exec own debugAssertions) s

theorem path_of_run {P : State C T → Label C T → Prop} {I : State C T → Prop} {s₀ : State C T}
    {steps : List (State C T × Label C T)} {labels : List (Label C T)}
    (keep : ∀ {s s'}, ∀ l ∈ labels, I s → Step own debugAssertions s l s' → P s l ∧ I s')
    (hpath : (handshake C T own debugAssertions).Path P s₀ steps s) (hs : I s)
    (h : run own debugAssertions s labels = some s') :
    ∃ steps', (handshake C T own debugAssertions).Path P s₀ steps' s' ∧
      steps'.map Prod.snd = steps.map Prod.snd ++ labels := by
  induction labels generalizing s steps with
  | nil =>
    cases h
    exact ⟨steps, hpath, by simp⟩
  | cons l labels ih =>
    rw [run, List.foldlM_cons, Option.bind_eq_bind, Option.bind_eq_some_iff] at h
    obtain ⟨t, hexec, h⟩ := h
    have hstep := step_of_exec hexec
    obtain ⟨hP, ht⟩ := keep l List.mem_cons_self hs hstep
    obtain ⟨steps', hpath', hlabels⟩ :=
      ih (fun l hl => keep l (List.mem_cons_of_mem _ hl)) (hpath.snoc hP hstep) ht h
    exact ⟨steps', hpath', by simp [hlabels]⟩

theorem callback_kept {P : (C → Except Panic T) → Prop} {own : ThreadId} {debugAssertions : Bool}
    {s s' : State C T} {l : Label C T} (h : ∀ t f pc, s.sampler = .inside t f pc → P f)
    (hcall : ∀ t f, l = .call t f → P f) (hstep : Step own debugAssertions s l s') (t : ThreadId)
    (f : C → Except Panic T) (pc : CallPc C T) (hs : s'.sampler = .inside t f pc) : P f := by
  cases hstep with
  | call =>
    cases hs
    exact hcall t f rfl
  | goto hs' =>
    cases hs
    exact h t f _ hs'
  | refuse | leave => cases hs
  | _ => exact h t f pc hs

theorem callbackReturns_of_total {f : C → Except Panic T} (htotal : ∀ c, ∃ v, f c = .ok v)
    (h : ∀ t g pc, s.sampler = .inside t g pc → g = f) : CallbackReturns s l := by
  intro t g pc hs _
  cases h t g pc hs
  cases pc with
  | callback c => exact htotal c
  | _ => trivial

def lastResult (s : State C T) : Option (ThreadId × T) :=
  match s.sampler with
  | .outside (some (t, .ok results)) => some (t, results)
  | _ => none

theorem outside_of_lastResult {t : ThreadId} {results : T} (h : lastResult s = some (t, results)) :
    s.sampler = .outside (some (t, .ok results)) := by
  unfold lastResult at h
  split at h
  · rename_i hs
    cases h
    exact hs
  · cases h

def oneCall (f : C → Except Panic T) (c : C) : List (Label C T) :=
  [.list ⟨2⟩, .call ⟨2⟩ f,
    .sampler, .sampler, .sampler, .sampler, .sampler,
    .deliver ⟨2⟩ c, .handler ⟨2⟩, .handler ⟨2⟩,
    .sampler, .sampler, .sampler, .sampler,
    .handler ⟨2⟩, .handler ⟨2⟩,
    .sampler, .sampler, .sampler, .sampler, .sampler]

def CallsReturn (f : C → Except Panic T) (s : State C T) (l : Label C T) : Prop :=
  CallbackReturns s l ∧ ∀ t g, l = .call t g → g = f

theorem exists_oneCall {f : C → Except Panic T} {c : C} {t : ThreadId} {results : T}
    (htotal : ∀ c, ∃ v, f c = .ok v)
    (h : (run ⟨1⟩ true (calm C T) (oneCall f c)).bind lastResult = some (t, results)) :
    ∃ s steps, (handshake C T ⟨1⟩ true).Path (CallsReturn f) (calm C T) steps s ∧
      s.sampler = .outside (some (t, .ok results)) ∧ steps.map Prod.snd = oneCall f c := by
  obtain ⟨s, hs, hlast⟩ := Option.bind_eq_some_iff.mp h
  have hcalls : ∀ l ∈ oneCall f c, ∀ t g, l = .call t g → g = f := by simp [oneCall]
  obtain ⟨steps, hpath, hlabels⟩ := path_of_run (P := CallsReturn f)
    (I := fun s => ∀ t g pc, s.sampler = .inside t g pc → g = f)
    (fun l hl hI hstep => ⟨⟨callbackReturns_of_total htotal hI, hcalls l hl⟩,
      callback_kept hI (hcalls l hl) hstep⟩)
    .nil (fun _ _ _ hs => by cases hs) hs
  exact ⟨s, steps, hpath, outside_of_lastResult hlast, hlabels⟩

end Vignette.Handshake
