import Vignette.Library.Driver
import Vignette.Sampler.Profiling
import Vignette.Sampler.ThreadInfo

/-! The program `sample_once`: round after round it lists the threads of the process, and
samples each of them but its own. -/

namespace Vignette.SampleOnce

open Library Handshake Profiling ThreadInfo

variable {C Cursor : Type}

inductive Place
  | between
  | listing
  | listed (thread : ThreadId)
  | sampling
  | panicked (p : Panic)

structure Main where
  /-- The rounds that are still to begin. -/
  rounds : Nat
  place : Place

inductive OwnStep (own : ThreadId) (s : Profiling.State C) : Main → Main → Prop
  | opened {rounds} : OwnStep own s ⟨rounds + 1, .between⟩ ⟨rounds, .listing⟩
  | notOpened {rounds} :
      OwnStep own s ⟨rounds + 1, .between⟩ ⟨rounds, .panicked (.expect "threads")⟩
  /-- Reading an entry of the directory fails. -/
  | failed {rounds p} : threadOf none = .error p →
      OwnStep own s ⟨rounds, .listing⟩ ⟨rounds, .panicked p⟩
  | done {rounds} : OwnStep own s ⟨rounds, .listing⟩ ⟨rounds, .between⟩
  /-- The thread is the current one. -/
  | skip {rounds} : OwnStep own s ⟨rounds, .listed own⟩ ⟨rounds, .listing⟩
  | sampled {rounds thread sample} : s.process.sampler = .outside (some (thread, .ok sample)) →
      OwnStep own s ⟨rounds, .sampling⟩ ⟨rounds, .listing⟩
  | panic {rounds thread p} : s.process.sampler = .outside (some (thread, .error p)) →
      OwnStep own s ⟨rounds, .sampling⟩ ⟨rounds, .panicked p⟩

/-- What the steps of the process mean for `main`: only it lists threads and samples them. -/
inductive Along (own : ThreadId) : Main → Label C Types.Sample → Main → Prop
  | next {rounds u thread} : threadOf (taskEntry u) = .ok thread →
      Along own ⟨rounds, .listing⟩ (.list u) ⟨rounds, .listed thread⟩
  | badName {rounds u p} : threadOf (taskEntry u) = .error p →
      Along own ⟨rounds, .listing⟩ (.list u) ⟨rounds, .panicked p⟩
  | sample {rounds thread f} : thread ≠ own →
      Along own ⟨rounds, .listed thread⟩ (.call thread f) ⟨rounds, .sampling⟩
  | other {main l} : (∀ u, l ≠ .list u) → (∀ t f, l ≠ .call t f) → Along own main l main

def sampleOnce (own : ThreadId) : Program (Profiling.State C) (Label C Types.Sample) Main where
  init main := main = ⟨20, .between⟩
  own := OwnStep own
  along := Along own

inductive ListingFails : Main → Main → Prop
  | notOpened {rounds} :
      ListingFails ⟨rounds + 1, .between⟩ ⟨rounds, .panicked (.expect "threads")⟩
  | failed {rounds p} : threadOf none = .error p →
      ListingFails ⟨rounds, .listing⟩ ⟨rounds, .panicked p⟩

def listed : Label C Types.Sample → Option ThreadId
  | .list u => some u
  | _ => none

def called : Label C Types.Sample → Option ThreadId
  | .call t _ => some t
  | _ => none

def inProgress (s : Handshake.State C Types.Sample) (u : ThreadId) : Nat :=
  match s.sampler with
  | .inside t _ _ => if u = t then 1 else 0
  | .outside _ => 0

def Place.next (own : ThreadId) : Place → List ThreadId
  | .listed thread => if thread = own then [] else [thread]
  | _ => []

def Place.Idle : Place → Prop
  | .sampling | .panicked _ => False
  | _ => True

inductive Change (s s' : Handshake.State C Types.Sample) : Label C Types.Sample → Prop
  | begun {last t f} : s.sampler = .outside last → s'.sampler = .inside t f .resetMsg2 →
      Change s s' (.call t f)
  | advanced {l t f pc pc'} : called l = none → s.sampler = .inside t f pc →
      s'.sampler = .inside t f pc' → Change s s' l
  | returned {l t f pc sample} : called l = none → s.sampler = .inside t f pc →
      s'.sampler = .outside (some (t, .ok sample)) → Change s s' l
  | kept {l} : called l = none → s'.sampler = s.sampler → Change s s' l

variable {lib : Libunwind C Cursor} {own : ThreadId} {debugAssertions : Bool}

theorem change {s s' : Handshake.State C Types.Sample} {l : Label C Types.Sample}
    (h : Handshake.Inv s) (hr : CallbackReturns s l) (hown : own ∉ called l)
    (hstep : Handshake.Step own debugAssertions s l s') : Change s s' l := by
  cases hstep with
  | refuse _ _ _ hself => exact absurd (congrArg some hself.1) hown
  | call hs => exact .begun hs rfl
  | goto hs => exact .advanced rfl hs rfl
  | @leave t f pc shared outcome hs _ hcall =>
    obtain ⟨_, _, _, _, _, _, rfl⟩ := (h.phase hs).leave (hr t f pc hs rfl) hcall
    exact .returned rfl hs rfl
  | _ => exact .kept rfl rfl

theorem length_record {session : Session} {u : ThreadId} {r : Option (ThreadId × Types.Sample)} :
    ((record session r).samplesOf u).length =
      (session.samplesOf u).length + (r.toList.map Prod.fst).count u := by
  cases r with
  | none => simp [record]
  | some r =>
    by_cases hu : u = r.1
    · subst hu
      simp [record]
    · rw [record, Session.samplesOf_sampleThread_of_ne _ hu]
      simp [Ne.symm hu]

theorem Change.length_samples {s s' : Handshake.State C Types.Sample} {l : Label C Types.Sample}
    (h : Change s s' l) (session : Session) (u : ThreadId) :
    ((record session (Handshake.returned s s')).samplesOf u).length + inProgress s' u =
      (session.samplesOf u).length + inProgress s u + (called l).toList.count u := by
  rw [length_record]
  cases h with
  | @begun last t f hs hs' =>
    by_cases hu : u = t <;> simp [Handshake.returned, inProgress, hs, hs', called, hu, Ne.symm]
  | advanced hl hs hs' => simp [Handshake.returned, inProgress, hs, hs', hl]
  | @returned _ t f pc sample hl hs hs' =>
    by_cases hu : u = t <;> simp [Handshake.returned, inProgress, hs, hs', hl, hu, Ne.symm]
  | kept hl hs => simp [returned_of_sampler_eq hs, inProgress, hs, hl]

structure Kept (lib : Libunwind C Cursor) (own : ThreadId) (labels : List (Label C Types.Sample))
    (s : Profiling.State C) (main : Main) : Prop where
  recorded : Recorded lib labels s
  /-- Every thread that was listed has been called for, but the sampler's own. -/
  called : (labels.filterMap listed).filter (· ≠ own) =
    labels.filterMap called ++ main.place.next own
  sampled : ∀ u, (s.session.samplesOf u).length + inProgress s.process u =
    (labels.filterMap SampleOnce.called).count u
  returned : ∀ t p, s.process.sampler ≠ .outside (some (t, .error p))
  idle : main.place.Idle → ∃ last, s.process.sampler = .outside last

theorem kept_init {s : Profiling.State C} {main : Main}
    (hs : (profiling lib own debugAssertions).init s)
    (hmain : (sampleOnce (C := C) own).init main) : Kept lib own [] s main := by
  obtain rfl : main = ⟨20, .between⟩ := hmain
  have hsampler : s.process.sampler = .outside none := hs.1.sampler
  refine ⟨recorded_init hs, rfl, fun u => ?_, ?_, fun _ => ⟨none, hsampler⟩⟩
  · rw [hs.2]
    simp [inProgress, hsampler]
  · simp [hsampler]

theorem Kept.ownStep {labels : List (Label C Types.Sample)} {s : Profiling.State C} {main main' : Main}
    (h : Kept lib own labels s main) (hown : OwnStep own s main main') :
    Kept lib own labels s main' := by
  obtain ⟨hrecorded, hcalled, hsampled, hreturned, hidle⟩ := h
  cases hown with
  | opened | done => exact ⟨hrecorded, hcalled, hsampled, hreturned, fun _ => hidle trivial⟩
  | notOpened | failed => exact ⟨hrecorded, hcalled, hsampled, hreturned, nofun⟩
  | skip =>
    have hnext : (Place.listed own).next own = [] := if_pos rfl
    rw [hnext] at hcalled
    exact ⟨hrecorded, hcalled, hsampled, hreturned, fun _ => hidle trivial⟩
  | sampled hs => exact ⟨hrecorded, hcalled, hsampled, hreturned, fun _ => ⟨_, hs⟩⟩
  | panic hs => exact absurd hs (hreturned _ _)

theorem Along.called {main main' : Main} {l : Label C Types.Sample} (h : Along own main l main') :
    own ∉ SampleOnce.called l ∧
      main.place.next own ++ (listed l).toList.filter (· ≠ own) =
        (SampleOnce.called l).toList ++ main'.place.next own := by
  cases h with
  | @next rounds u thread hu =>
    rw [threadOf_taskEntry] at hu
    cases hu
    by_cases hself : u = own <;> simp [SampleOnce.called, listed, Place.next, hself]
  | badName hu =>
    rw [threadOf_taskEntry] at hu
    cases hu
  | sample hself => simp [SampleOnce.called, listed, Place.next, hself]
  | other hlist hcall =>
    cases l with
    | list u => exact absurd rfl (hlist u)
    | call t f => exact absurd rfl (hcall t f)
    | _ => simp [SampleOnce.called, listed]

theorem Change.outside {s s' : Handshake.State C Types.Sample} {l : Label C Types.Sample}
    {last : Option (ThreadId × Except Panic Types.Sample)} (h : Change s s' l)
    (hl : SampleOnce.called l = none) (hs : s.sampler = .outside last) : s'.sampler = .outside last := by
  cases h with
  | begun => cases hl
  | advanced _ hs' | returned _ hs' => cases hs.symm.trans hs'
  | kept _ hs' => exact hs'.trans hs

theorem Change.not_error {s s' : Handshake.State C Types.Sample} {l : Label C Types.Sample}
    (h : Change s s' l) (hs : ∀ t p, s.sampler ≠ .outside (some (t, .error p))) (t : ThreadId)
    (p : Panic) : s'.sampler ≠ .outside (some (t, .error p)) := by
  cases h with
  | begun _ hs' | advanced _ _ hs' | returned _ _ hs' => simp [hs']
  | kept _ hs' => exact hs' ▸ hs t p

theorem filterMap_snoc {α : Type} (f : Label C Types.Sample → Option α)
    (labels : List (Label C Types.Sample)) (l : Label C Types.Sample) :
    (labels ++ [l]).filterMap f = labels.filterMap f ++ (f l).toList := by
  cases h : f l <;> simp [h]

theorem Along.idle {main main' : Main} {l : Label C Types.Sample} (h : Along own main l main')
    (hidle : main'.place.Idle) : main.place.Idle ∧ SampleOnce.called l = none := by
  cases h with
  | next => exact ⟨trivial, rfl⟩
  | badName => exact hidle.elim
  | sample => exact hidle.elim
  | other _ hcall =>
    refine ⟨hidle, ?_⟩
    cases l with
    | call t f => exact absurd rfl (hcall t f)
    | _ => rfl

theorem Along.panicked {main main' : Main} {l : Label C Types.Sample} {p : Panic}
    (h : Along own main l main') (hp : main'.place = .panicked p) : main = main' := by
  cases h with
  | next | sample => cases hp
  | badName hu =>
    rw [threadOf_taskEntry] at hu
    cases hu
  | other => rfl

theorem Kept.along {labels : List (Label C Types.Sample)} {s s' : Profiling.State C}
    {main main' : Main} {l : Label C Types.Sample} (h : Kept lib own labels s main)
    (hr : SamplesReturn s l) (hstep : (profiling lib own debugAssertions).step s l s')
    (halong : Along own main l main') : Kept lib own (labels ++ [l]) s' main' := by
  obtain ⟨hown, hnext⟩ := halong.called
  have hchange := change h.recorded.inv hr hown hstep.process
  refine ⟨h.recorded.step hr hstep, ?_, fun u => ?_, hchange.not_error h.returned, fun hidle => ?_⟩
  · rw [filterMap_snoc, filterMap_snoc, List.filter_append, h.called, List.append_assoc, hnext,
      List.append_assoc]
  · rw [filterMap_snoc, List.count_append, hstep.session, hchange.length_samples, h.sampled]
  · obtain ⟨hidle, hcalled⟩ := halong.idle hidle
    obtain ⟨last, hs⟩ := h.idle hidle
    exact ⟨last, hchange.outside hcalled hs⟩

variable {s₀ s : Profiling.State C} {main₀ main : Main}
  {steps : List ((Profiling.State C × Main) × Option (Label C Types.Sample))}

def labelsOf (steps : List ((Profiling.State C × Main) × Option (Label C Types.Sample))) :
    List (Label C Types.Sample) := (Program.systemSteps steps).map Prod.snd

theorem labelsOf_own
    (steps : List ((Profiling.State C × Main) × Option (Label C Types.Sample)))
    (s : Profiling.State C × Main) : labelsOf (steps ++ [(s, none)]) = labelsOf steps := by
  rw [labelsOf, Program.systemSteps_own, labelsOf]

theorem kept_of_path
    (hinit : ((sampleOnce own).drive (profiling lib own debugAssertions)).init (s₀, main₀))
    (h : ((sampleOnce own).drive (profiling lib own debugAssertions)).Path
      (Program.OnSystem SamplesReturn) (s₀, main₀) steps (s, main)) :
    Kept lib own (labelsOf steps) s main := by
  generalize hend : (s, main) = e at h
  induction h generalizing s main with
  | nil =>
    cases hend
    exact kept_init hinit.1 hinit.2
  | snoc _ hP hstep ih =>
    subst hend
    cases hstep with
    | own hown =>
      rw [labelsOf_own]
      exact (ih rfl).ownStep hown
    | along hsys halong =>
      rw [labelsOf, Program.systemSteps_along, List.map_append]
      exact (ih rfl).along (hP _ rfl) hsys halong

theorem Kept.between {labels : List (Label C Types.Sample)} (h : Kept lib own labels s main)
    (hplace : main.place = .between) (u : ThreadId) :
    List.Forall₂ (SampleOf lib) (contextsOf u labels) (s.session.samplesOf u) ∧
      (s.session.samplesOf u).length = if u = own then 0 else (labels.filterMap listed).count u := by
  obtain ⟨last, hs⟩ := h.idle (hplace ▸ trivial)
  have hnext : main.place.next own = [] := by rw [hplace]; rfl
  have hcalled := h.called
  rw [hnext, List.append_nil] at hcalled
  have hcount : ((labels.filterMap listed).filter (· ≠ own)).count u =
      if u = own then 0 else (labels.filterMap listed).count u := by
    by_cases hu : u = own
    · rw [if_pos hu, List.count_eq_zero]
      simp [hu]
    · rw [if_neg hu, List.count_filter (by simpa using hu)]
  have hsampled := h.sampled u
  rw [inProgress, hs, ← hcalled, hcount] at hsampled
  exact ⟨h.recorded.between hs u, hsampled⟩

theorem Kept.listingFails {labels : List (Label C Types.Sample)} (h : Kept lib own labels s main)
    {main' : Main} {p : Panic} (hown : OwnStep own s main main') (hp : main'.place = .panicked p) :
    ListingFails main main' := by
  cases hown with
  | notOpened => exact .notOpened
  | failed hfailed => exact .failed hfailed
  | panic hs => exact absurd hs (h.returned _ _)
  | opened | done | skip | sampled => cases hp

theorem listingFails_of_path
    (hinit : ((sampleOnce own).drive (profiling lib own debugAssertions)).init (s₀, main₀))
    (h : ((sampleOnce own).drive (profiling lib own debugAssertions)).Path
      (Program.OnSystem SamplesReturn) (s₀, main₀) steps (s, main)) {p : Panic}
    (hp : main.place = .panicked p) : ∃ before s₁ main₁ after,
      steps = before ++ ((s₁, main₁), none) :: after ∧ ListingFails main₁ main := by
  generalize hend : (s, main) = e at h
  induction h generalizing s main with
  | nil =>
    cases hend
    exact absurd (hp.symm.trans (congrArg Main.place hinit.2)) nofun
  | snoc hpath hP hstep ih =>
    subst hend
    cases hstep with
    | own hown => exact ⟨_, _, _, [], rfl, (kept_of_path hinit hpath).listingFails hown hp⟩
    | along hsys halong =>
      obtain rfl := halong.panicked hp
      obtain ⟨before, s₁, main₁, after, hsteps, hfails⟩ := ih hp rfl
      exact ⟨before, s₁, main₁, after ++ [_],
        by rw [hsteps, List.append_assoc, List.cons_append], hfails⟩

/-- In every run whose callbacks return, however the threads come and go, `main` panics
only by a step of its own that cannot list the threads, the name of every thread reads as that
thread, and at the end of each round `main` has, for each thread but its own, one sample for
each time that the thread was listed: in order, what the unwinder makes of the contexts at
which the thread was stopped. -/
theorem sample_once_complete
    (hinit : ((sampleOnce own).drive (profiling lib own debugAssertions)).init (s₀, main₀))
    (h : ((sampleOnce own).drive (profiling lib own debugAssertions)).Path
      (Program.OnSystem SamplesReturn) (s₀, main₀) steps (s, main)) :
    (∀ p, main.place = .panicked p → ∃ before s₁ main₁ after,
      steps = before ++ ((s₁, main₁), none) :: after ∧ ListingFails main₁ main) ∧
    (∀ u ∈ (labelsOf steps).filterMap listed, threadOf (taskEntry u) = .ok u) ∧
    (main.place = .between → ∀ u,
      List.Forall₂ (SampleOf lib) (contextsOf u (labelsOf steps)) (s.session.samplesOf u) ∧
      (s.session.samplesOf u).length =
        if u = own then 0 else ((labelsOf steps).filterMap listed).count u) :=
  ⟨fun _ => listingFails_of_path hinit h, fun u _ => threadOf_taskEntry u,
    (kept_of_path hinit h).between⟩

def oneRound : Nat → Main
  | 0 => ⟨19, .listing⟩
  | 1 => ⟨19, .listed ⟨2⟩⟩
  | _ => ⟨19, .sampling⟩

theorem oneRound_along {f : C → Except Panic Types.Sample} {c : C} (i : Nat)
    (l : Label C Types.Sample) (hl : (oneCall f c)[i]? = some l) :
    (sampleOnce ⟨1⟩).along (oneRound i) l (oneRound (i + 1)) := by
  match i with
  | 0 =>
    cases hl
    exact .next (threadOf_taskEntry ⟨2⟩)
  | 1 =>
    cases hl
    exact .sample (by decide)
  | i + 2 =>
    have hother : ∀ l ∈ (oneCall f c).drop 2, (∀ u, l ≠ .list u) ∧ ∀ t g, l ≠ .call t g := by
      simp [oneCall]
    have hmem : l ∈ (oneCall f c).drop 2 := List.mem_of_getElem? (by rwa [List.getElem?_drop, Nat.add_comm])
    exact .other (hother l hmem).1 (hother l hmem).2

theorem exists_oneRound {lib : Libunwind C Cursor} {c : C} {sample : Types.Sample}
    (htotal : ∀ c, ∃ sample, Session.sampleCallback lib c = .ok sample)
    (hrun : (run ⟨1⟩ true (calm C Types.Sample) (oneCall (Session.sampleCallback lib) c)).bind
      lastResult = some (⟨2⟩, sample)) :
    ∃ (s : Profiling.State C)
      (steps : List ((Profiling.State C × Main) × Option (Label C Types.Sample))),
      ((sampleOnce ⟨1⟩).drive (profiling lib ⟨1⟩ true)).Path (Program.OnSystem SamplesReturn)
        (⟨calm C Types.Sample, Profiler.session⟩, ⟨20, .between⟩) steps (s, ⟨19, .between⟩) ∧
      labelsOf steps = oneCall (Session.sampleCallback lib) c := by
  obtain ⟨p, steps, hpath, hs, hlabels⟩ := exists_oneCall htotal hrun
  obtain ⟨psteps, session, h, hplabels⟩ := exists_profiling hpath Profiler.session
  have hopened := Program.ownPath (p := sampleOnce ⟨1⟩) (M := profiling lib ⟨1⟩ true)
    (P := SamplesReturn) (s := ⟨calm C Types.Sample, Profiler.session⟩) .nil
    (OwnStep.opened : OwnStep ⟨1⟩ _ ⟨19 + 1, .between⟩ ⟨19, .listing⟩)
  obtain ⟨osteps, hround, hosteps⟩ := Program.exists_path (k := oneRound) hopened h
    (by rw [hplabels, hlabels]; exact oneRound_along)
  have hlength : psteps.length = 21 := by
    rw [← List.length_map (f := Prod.snd), hplabels, hlabels]
    rfl
  rw [hlength] at hround
  refine ⟨_, _, Program.ownPath (Program.ownPath hround (OwnStep.sampled hs)) OwnStep.done, ?_⟩
  rw [labelsOf_own, labelsOf_own, labelsOf, hosteps, Program.systemSteps_own]
  exact hplabels.trans hlabels

theorem one_round_complete : ∃ s : Profiling.State UInt64,
    List.Forall₂ (SampleOf twoFrames) [7] (s.session.samplesOf ⟨2⟩) ∧
    (s.session.samplesOf ⟨2⟩).length = 1 ∧ (s.session.samplesOf ⟨1⟩).length = 0 := by
  obtain ⟨s, steps, h, hlabels⟩ := exists_oneRound (C := UInt64) (c := 7)
    (fun _ => ⟨[⟨0x401⟩, ⟨0x400⟩], rfl⟩)
    (show (run ⟨1⟩ true (calm UInt64 Types.Sample) (oneCall (Session.sampleCallback twoFrames) 7)).bind
      lastResult = some (⟨2⟩, [⟨0x401⟩, ⟨0x400⟩]) by decide +kernel)
  have hcomplete := (sample_once_complete ⟨⟨calm_initial ⟨1⟩, rfl⟩, rfl⟩ h).2.2 rfl
  rw [hlabels] at hcomplete
  exact ⟨s, (hcomplete ⟨2⟩).1, (hcomplete ⟨2⟩).2, (hcomplete ⟨1⟩).2⟩

end Vignette.SampleOnce
