import Vignette.Output.Renumbering

/-! Profiles whose addresses an outputter has seen before. -/

namespace Vignette.Outputter

open Library Output ModuleCache Running

def capturedIn (history : List InputProfile) : List Types.Frame :=
  history.flatMap InputProfile.captured

theorem Indexes.unique {o : Running} {answer : Option ModuleAndAddr} {pos pos' : Option Nat}
    (h : Indexes o answer pos) (h' : Indexes o answer pos') : pos = pos' := by
  cases h with
  | unresolved =>
    cases h'
    rfl
  | resolved _ hi =>
    cases h' with
    | resolved _ hj => rw [getElem?_inj_of_nodup o.framesIndex.vec_nodup hi hj]

section Unique

variable {S : Blocks UInt64 ModuleInfo} {o : Running}

theorem SampleOf.unique {sample : Types.Sample} {out out' : Sample}
    (h : SampleOf (fun ip answer => answer = uncached S ip) o sample out)
    (h' : SampleOf (fun ip answer => answer = uncached S ip) o sample out') : out = out' := by
  obtain ⟨positions, hout, hpositions⟩ := h
  obtain ⟨positions', hout', hpositions'⟩ := h'
  have heq : List.Forall₂ Eq positions positions' :=
    forall₂_of_left (fun ⟨_, ha, hi⟩ ⟨_, ha', hi'⟩ => (ha ▸ hi).unique (ha' ▸ hi'))
      hpositions hpositions'
  rw [List.forall₂_eq_eq_eq] at heq
  cases out
  cases out'
  simp_all

theorem ThreadOf.unique {thread : (_ : ThreadId) × List Types.Sample} {out out' : Thread}
    (h : ThreadOf (fun ip answer => answer = uncached S ip) o thread out)
    (h' : ThreadOf (fun ip answer => answer = uncached S ip) o thread out') : out = out' := by
  have heq : List.Forall₂ Eq out.samples out'.samples :=
    forall₂_of_left (fun hs hs' => hs.unique hs') h.2 h'.2
  rw [List.forall₂_eq_eq_eq] at heq
  have hid := h.1.trans h'.1.symm
  cases out
  cases out'
  simp_all

end Unique

variable {locate : Locate} {S : Blocks UInt64 ModuleInfo} (hb : locate.blocks = S)
  (hS : Contiguous S)

include hb hS

theorem outputs_stand {history : List InputProfile} {qs : List Profile} {o : Running}
    (h : traverse (output fun _ => locate) start history = .ok (qs, o)) :
    List.Forall₂ (fun p q => List.Forall₂
      (ThreadOf (fun ip answer => answer = uncached S ip) o) p.threads.entries q.threads)
      history qs := by
  refine (traverse_rule (I := Agrees S) (G := Grows) (R := fun o p q => List.Forall₂
    (ThreadOf (fun ip answer => answer = uncached S ip) o) p.threads.entries q.threads)
    Grows.refl Grows.trans (fun hg hthreads => hthreads.imp fun _ _ ht => ht.mono hg)
    (fun _ ho hq => ?_) agrees_start h).2.2
  exact output_rule (fun ho hL hI => ho.lookup hb hS hL hI) ho hq

theorem outputs_recorded {history : List InputProfile} {qs : List Profile} {o : Running}
    (h : traverse (output fun _ => locate) start history = .ok (qs, o)) :
    Agrees S o ∧ Recorded (answersTo S (capturedIn history)) o := by
  refine traverse_induction (I := fun history _ o =>
    Agrees S o ∧ Recorded (answersTo S (capturedIn history)) o) (l := []) (m := []) ?_
    ⟨agrees_start, recorded_start⟩ h
  rintro history _ o p q o' _ ⟨ho, hr⟩ hq
  have hstep := output_recorded hb hS ho hr hq
  simpa [answersTo, capturedIn] using hstep

omit hb hS in
theorem Recorded.of_subset {answers more : List ModuleAndAddr} {o o' : Running}
    (h : Recorded answers o) (h' : Recorded (answers ++ more) o') (hmore : more ⊆ answers) :
    o'.modules = o.modules ∧ o'.frames = o.frames := by
  have hmodules : o'.modules = o.modules := by
    rw [h'.modules, List.map_append, internAll_append, ← h.modules]
    refine internAll_of_subset fun info hinfo => ?_
    obtain ⟨answer, hanswer, rfl⟩ := List.mem_map.mp hinfo
    exact h.mem_modules.mpr ⟨answer, hmore hanswer, rfl⟩
  refine ⟨hmodules, ?_⟩
  rw [h'.frames, hmodules, List.map_append, internAll_append, ← h.frames]
  refine internAll_of_subset fun frame hframe => ?_
  obtain ⟨answer, hanswer, rfl⟩ := List.mem_map.mp hframe
  exact h.mem_frames.mpr ⟨answer, hmore hanswer, rfl⟩

/-- A profile whose addresses have all been captured before leaves both tables as they are,
and one that was output before gets the indices that it got then. -/
theorem output_repeated {history : List InputProfile} {qs : List Profile} {o : Running}
    (h : traverse (output fun _ => locate) start history = .ok (qs, o)) {p : InputProfile}
    {q : Profile} {o' : Running} (hq : output (fun _ => locate) o p = .ok (q, o')) :
    (p.captured ⊆ capturedIn history → o'.modules = o.modules ∧ o'.frames = o.frames) ∧
    ∀ (i : Nat) (before : Profile), history[i]? = some p → qs[i]? = some before →
      q.threads = before.threads ∧ o'.modules = o.modules ∧ o'.frames = o.frames := by
  obtain ⟨ho, hr⟩ := outputs_recorded hb hS h
  have htables (hcaptured : p.captured ⊆ capturedIn history) :
      o'.modules = o.modules ∧ o'.frames = o.frames :=
    hr.of_subset (output_recorded hb hS ho hr hq).2 (List.filterMap_subset _ hcaptured)
  refine ⟨htables, fun i before hp hbefore => ⟨?_, htables fun frame hframe => ?_⟩⟩
  · have hrule := output_rule (fun ho hL hI => ho.lookup hb hS hL hI) ho hq
    obtain ⟨before', hbefore', hstood⟩ := exists_getElem?_right (outputs_stand hb hS h) hp
    obtain rfl := Option.some.inj (hbefore.symm.trans hbefore')
    have heq : List.Forall₂ Eq q.threads before.threads :=
      forall₂_of_left (fun ht ht' => ht.unique ht') hrule.2.2
        (hstood.imp fun _ _ ht => ht.mono hrule.2.1)
    rwa [List.forall₂_eq_eq_eq] at heq
  · exact List.mem_flatMap.mpr ⟨p, List.mem_of_getElem? hp, hframe⟩

omit hb hS in
theorem appProfile_repeated : ∃ qs o q o',
    traverse (output fun _ => appLoader.locate) start [appProfile] = .ok (qs, o) ∧
    output (fun _ => appLoader.locate) o appProfile = .ok (q, o') ∧
    (∀ before, qs[0]? = some before → q.threads = before.threads) ∧ o'.frames = o.frames := by
  obtain ⟨qs, o, h, ho⟩ :=
    outputs_agree appLoader_locate appBlocks_placed appBlocks_contiguous [appProfile]
  obtain ⟨q, o', hq, _⟩ :=
    ho.total appLoader_locate appBlocks_placed appBlocks_contiguous appProfile
  obtain ⟨htables, hthreads⟩ :=
    output_repeated (Locate.blocks_eq appLoader_locate) appBlocks_contiguous h hq
  refine ⟨qs, o, q, o', h, hq, fun before hbefore => (hthreads 0 before rfl hbefore).1, ?_⟩
  exact (htables (by simp [capturedIn])).2

end Vignette.Outputter
