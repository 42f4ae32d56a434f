import Vignette.ModuleCache.Transparency
import Vignette.Output.Outputter

/-! What a run of the outputter does to its tables, for any loader. -/

namespace Vignette

open Library Output ModuleCache

def InputProfile.captured (profile : InputProfile) : List Types.Frame :=
  profile.threads.entries.flatMap fun thread => thread.2.flatten

theorem InputProfile.mem_captured {profile : InputProfile} {frame : Types.Frame} :
    frame ∈ profile.captured ↔
      ∃ thread ∈ profile.threads.entries, ∃ sample ∈ thread.2, frame ∈ sample := by
  simp [InputProfile.captured]

namespace Outputter

namespace Running

abbrev modules (o : Running) : List ModuleInfo := o.moduleIndex.vec

abbrev frames (o : Running) : List Frame := o.framesIndex.vec

def Grows (o o' : Running) : Prop := o.modules <+: o'.modules ∧ o.frames <+: o'.frames

theorem Grows.refl (o : Running) : Grows o o := ⟨List.prefix_rfl, List.prefix_rfl⟩

theorem Grows.trans {o o' o'' : Running} (h : Grows o o') (h' : Grows o' o'') : Grows o o'' :=
  ⟨h.1.trans h'.1, h.2.trans h'.2⟩

end Running

open Running

def frameOf (modules : List ModuleInfo) (answer : ModuleAndAddr) : Frame :=
  { moduleIndex := (modules.idxOf answer.1).toUInt32, relativeIp := answer.2 }

theorem frameOf_mono {modules modules' : List ModuleInfo} (h : modules <+: modules')
    {answer : ModuleAndAddr} (ha : answer.1 ∈ modules) :
    frameOf modules' answer = frameOf modules answer := by
  rw [frameOf, frameOf, idxOf_mono h ha]

/-- What one turn of the inner loop does to the tables with the cache's answer. -/
inductive Interned (o o' : Running) : Option ModuleAndAddr → Option Nat → Prop
  | unresolved : o'.modules = o.modules → o'.frames = o.frames → Interned o o' none none
  | resolved {answer} : o'.modules = intern o.modules answer.1 →
      o'.frames = intern o.frames (frameOf o'.modules answer) →
      Interned o o' (some answer) (some (o'.frames.idxOf (frameOf o'.modules answer)))

section Position

variable {loader : Nat → Locate} {o o' : Running} {frame : Types.Frame}

theorem outputPosition_of_lookup {answer : Option ModuleAndAddr} {cache : ModuleCache}
    (h : Lookup (loader o.lookups) o.moduleCache frame.ip answer cache) :
    ∃ pos o', outputPosition loader o frame = .ok (pos, o') ∧ o'.moduleCache = cache ∧
      Interned o o' answer pos := by
  cases answer with
  | none =>
    refine ⟨none, { o with moduleCache := cache, lookups := o.lookups + 1 }, ?_, rfl, .unresolved rfl rfl⟩
    rw [outputPosition, outputFrame, h.ok]
    rfl
  | some answer =>
    let modules := o.moduleIndex.getOrInsert answer.1
    let frames := o.framesIndex.getOrInsert ⟨modules.1.toUInt32, answer.2⟩
    let o' : Running := { o with
      moduleCache := cache, moduleIndex := modules.2, framesIndex := frames.2,
      lookups := o.lookups + 1 }
    have hmodules : o'.modules = intern o.modules answer.1 := VecHashMap.getOrInsert_vec _ _
    have hframe : frameOf o'.modules answer = ⟨modules.1.toUInt32, answer.2⟩ := by
      rw [hmodules, frameOf, ← VecHashMap.getOrInsert_index]
    have hframes : o'.frames = intern o.frames (frameOf o'.modules answer) := by
      rw [hframe]
      exact VecHashMap.getOrInsert_vec _ _
    refine ⟨some frames.1, o', ?_, rfl, ?_⟩
    · rw [outputPosition, outputFrame, h.ok]
      rfl
    · have hpos : frames.1 = o'.frames.idxOf (frameOf o'.modules answer) := by
        rw [hframes, hframe]
        exact VecHashMap.getOrInsert_index _ _
      rw [hpos]
      exact .resolved hmodules hframes

theorem outputPosition_error {p : Panic}
    (h : o.moduleCache.getOrInsertVia (loader o.lookups) frame.ip = .error p) :
    outputPosition loader o frame = .error p := by
  rw [outputPosition, outputFrame, h]
  rfl

theorem outputPosition_ok {pos : Option Nat} (h : outputPosition loader o frame = .ok (pos, o')) :
    ∃ answer, Lookup (loader o.lookups) o.moduleCache frame.ip answer o'.moduleCache ∧
      Interned o o' answer pos := by
  cases hc : o.moduleCache.getOrInsertVia (loader o.lookups) frame.ip with
  | error p => simp [outputPosition_error hc] at h
  | ok r =>
    have hL := getOrInsertVia_ok_iff.mp hc
    obtain ⟨pos', o₁, hok, hcache, hI⟩ := outputPosition_of_lookup hL
    rw [hok] at h
    simp only [Except.ok.injEq, Prod.mk.injEq] at h
    rw [← h.1, ← h.2, hcache]
    exact ⟨r.1, hL, hI⟩

end Position

theorem outputSample_ok {loader : Nat → Locate} {o o' : Running} {sample : Types.Sample}
    {out : Sample} : outputSample loader o sample = .ok (out, o') ↔
      ∃ positions, traverse (outputPosition loader) o sample = .ok (positions, o') ∧
        out = { frames := positions.reduceOption } := by
  constructor
  · intro h
    obtain ⟨r, ht, hr⟩ := bind_ok.mp h
    simp only [Pure.pure, Except.pure, Except.ok.injEq, Prod.mk.injEq] at hr
    exact ⟨r.1, by rw [ht, ← hr.2], hr.1.symm⟩
  · rintro ⟨positions, ht, rfl⟩
    exact bind_ok.mpr ⟨_, ht, rfl⟩

theorem outputThread_ok {loader : Nat → Locate} {o o' : Running}
    {thread : (_ : ThreadId) × List Types.Sample} {out : Thread} :
    outputThread loader o thread = .ok (out, o') ↔
      ∃ samples, traverse (outputSample loader) o thread.2 = .ok (samples, o') ∧
        out = { threadId := thread.1, samples } := by
  constructor
  · intro h
    obtain ⟨r, ht, hr⟩ := bind_ok.mp h
    simp only [Pure.pure, Except.pure, Except.ok.injEq, Prod.mk.injEq] at hr
    exact ⟨r.1, by rw [ht, ← hr.2], hr.1.symm⟩
  · rintro ⟨samples, ht, rfl⟩
    exact bind_ok.mpr ⟨_, ht, rfl⟩

theorem output_ok {loader : Nat → Locate} {o o' : Running} {profile : InputProfile}
    {q : Profile} : output loader o profile = .ok (q, o') ↔
      traverse (outputThread loader) o profile.threads.entries = .ok (q.threads, o') ∧
        q.modules = o'.modules.map Module.ofModuleInfo ∧ q.frames = o'.frames := by
  constructor
  · intro h
    obtain ⟨r, ht, hr⟩ := bind_ok.mp h
    simp only [Pure.pure, Except.pure, Except.ok.injEq, Prod.mk.injEq] at hr
    rw [← hr.1, ← hr.2]
    exact ⟨ht, rfl, rfl⟩
  · intro ⟨ht, hm, hf⟩
    refine bind_ok.mpr ⟨_, ht, ?_⟩
    change Except.ok (Profile.mk (o'.modules.map Module.ofModuleInfo) q.threads o'.frames, o') = _
    rw [← hm, ← hf]

theorem Interned.grows {o o' : Running} {answer : Option ModuleAndAddr} {pos : Option Nat}
    (h : Interned o o' answer pos) : Grows o o' := by
  cases h with
  | unresolved hm hf => exact ⟨hm ▸ List.prefix_rfl, hf ▸ List.prefix_rfl⟩
  | resolved hm hf => exact ⟨hm ▸ prefix_intern _ _, hf ▸ prefix_intern _ _⟩

inductive Indexes (o : Running) : Option ModuleAndAddr → Option Nat → Prop
  | unresolved : Indexes o none none
  | resolved {answer index} : answer.1 ∈ o.modules →
      o.frames[index]? = some (frameOf o.modules answer) → Indexes o (some answer) (some index)

theorem Interned.indexes {o o' : Running} {answer : Option ModuleAndAddr} {pos : Option Nat}
    (h : Interned o o' answer pos) : Indexes o' answer pos := by
  cases h with
  | unresolved => exact .unresolved
  | resolved hm hf =>
    refine .resolved (hm ▸ mem_intern.mpr (.inr rfl)) ?_
    rw [hf]
    exact getElem?_idxOf_intern _ _

theorem Indexes.mono {o o' : Running} (hg : Grows o o') {answer : Option ModuleAndAddr}
    {pos : Option Nat} (h : Indexes o answer pos) : Indexes o' answer pos := by
  cases h with
  | unresolved => exact .unresolved
  | resolved hm hf =>
    refine .resolved (hg.1.subset hm) ?_
    rw [frameOf_mono hg.1 hm]
    exact getElem?_mono hg.2 hf

section Runs

/- `J` is an invariant of the running outputter, and `A` what it says of each answer. -/
variable (A : UInt64 → Option ModuleAndAddr → Prop)

def SampleOf (o : Running) (sample : Types.Sample) (out : Sample) : Prop :=
  ∃ positions, out.frames = positions.reduceOption ∧
    List.Forall₂ (fun frame pos => ∃ answer, A frame.ip answer ∧ Indexes o answer pos)
      sample positions

def ThreadOf (o : Running) (thread : (_ : ThreadId) × List Types.Sample) (out : Thread) : Prop :=
  out.threadId = thread.1 ∧ List.Forall₂ (SampleOf A o) thread.2 out.samples

variable {A}

theorem SampleOf.mono {o o' : Running} (hg : Grows o o') {sample : Types.Sample} {out : Sample}
    (h : SampleOf A o sample out) : SampleOf A o' sample out := by
  obtain ⟨positions, hp, hf⟩ := h
  refine ⟨positions, hp, hf.imp ?_⟩
  intro frame pos ⟨answer, ha, hi⟩
  exact ⟨answer, ha, hi.mono hg⟩

theorem ThreadOf.mono {o o' : Running} (hg : Grows o o')
    {thread : (_ : ThreadId) × List Types.Sample} {out : Thread} (h : ThreadOf A o thread out) :
    ThreadOf A o' thread out :=
  ⟨h.1, h.2.imp fun _ _ hs => hs.mono hg⟩

variable {L : Nat → Locate} {J : Running → Prop}
  (keeps : ∀ {o o' addr answer pos}, J o →
    Lookup (L o.lookups) o.moduleCache addr answer o'.moduleCache →
    Interned o o' answer pos → J o' ∧ A addr answer)

include keeps

theorem outputSample_rule {o o' : Running} {sample : Types.Sample} {out : Sample}
    (hJ : J o) (h : outputSample L o sample = .ok (out, o')) :
    J o' ∧ Grows o o' ∧ SampleOf A o' sample out := by
  obtain ⟨positions, ht, rfl⟩ := outputSample_ok.mp h
  have hrule := traverse_rule (I := J) (G := Grows)
    (R := fun o frame pos => ∃ answer, A frame.ip answer ∧ Indexes o answer pos)
    Grows.refl Grows.trans (fun hg ⟨a, ha, hi⟩ => ⟨a, ha, hi.mono hg⟩)
    (fun _ hJ hpos => by
      obtain ⟨answer, hL, hI⟩ := outputPosition_ok hpos
      have hk := keeps hJ hL hI
      exact ⟨hk.1, hI.grows, answer, hk.2, hI.indexes⟩) hJ ht
  exact ⟨hrule.1, hrule.2.1, positions, rfl, hrule.2.2⟩

theorem outputThread_rule {o o' : Running} {thread : (_ : ThreadId) × List Types.Sample}
    {out : Thread} (hJ : J o) (h : outputThread L o thread = .ok (out, o')) :
    J o' ∧ Grows o o' ∧ ThreadOf A o' thread out := by
  obtain ⟨samples, ht, rfl⟩ := outputThread_ok.mp h
  have hrule := traverse_rule (I := J) (R := SampleOf A) Grows.refl
    Grows.trans (fun hg => SampleOf.mono hg) (fun _ hJ hs => outputSample_rule keeps hJ hs) hJ ht
  exact ⟨hrule.1, hrule.2.1, rfl, hrule.2.2⟩

theorem output_rule {o o' : Running} {profile : InputProfile} {q : Profile}
    (hJ : J o) (h : output L o profile = .ok (q, o')) :
    J o' ∧ Grows o o' ∧ List.Forall₂ (ThreadOf A o') profile.threads.entries q.threads :=
  traverse_rule (I := J) (R := ThreadOf A) Grows.refl Grows.trans
    (fun hg => ThreadOf.mono hg) (fun _ hJ hs => outputThread_rule keeps hJ hs) hJ
    (output_ok.mp h).1

theorem outputs_rule {o o' : Running} {history : List InputProfile} {qs : List Profile}
    (hJ : J o) (h : traverse (output L) o history = .ok (qs, o')) : J o' :=
  traverse_results (I := fun _ => J) (fun hJ hq => (output_rule keeps hJ hq).1) hJ h

section Total

variable {C : Types.Frame → Prop}
  (answers : ∀ {o frame}, C frame → J o →
    ∃ answer cache, Lookup (L o.lookups) o.moduleCache frame.ip answer cache)

include answers

theorem outputSample_total {o : Running} {sample : Types.Sample}
    (hs : ∀ frame ∈ sample, C frame) (hJ : J o) :
    ∃ out o', outputSample L o sample = .ok (out, o') ∧ J o' := by
  obtain ⟨positions, o', ht, hJ⟩ := traverse_total (I := J) (f := outputPosition L)
    (fun {o frame} hframe hJ => by
      obtain ⟨answer, cache, hL⟩ := answers (hs frame hframe) hJ
      obtain ⟨pos, o', hok, rfl, hI⟩ := outputPosition_of_lookup hL
      exact ⟨pos, o', hok, (keeps hJ hL hI).1⟩) hJ
  exact ⟨_, o', outputSample_ok.mpr ⟨positions, ht, rfl⟩, hJ⟩

theorem outputThread_total {o : Running} {thread : (_ : ThreadId) × List Types.Sample}
    (hs : ∀ sample ∈ thread.2, ∀ frame ∈ sample, C frame) (hJ : J o) :
    ∃ out o', outputThread L o thread = .ok (out, o') ∧ J o' := by
  obtain ⟨samples, o', ht, hJ⟩ := traverse_total (I := J) (f := outputSample L)
    (fun hsample hJ => outputSample_total keeps answers (hs _ hsample) hJ) hJ
  exact ⟨_, o', outputThread_ok.mpr ⟨samples, ht, rfl⟩, hJ⟩

theorem output_total {o : Running} {profile : InputProfile}
    (hs : ∀ frame ∈ profile.captured, C frame) (hJ : J o) :
    ∃ q o', output L o profile = .ok (q, o') ∧ J o' := by
  obtain ⟨threads, o', ht, hJ⟩ := traverse_total (I := J) (f := outputThread L)
    (fun {_ thread} hthread hJ => outputThread_total keeps answers (fun sample hsample frame hframe =>
      hs frame (InputProfile.mem_captured.mpr ⟨thread, hthread, sample, hsample, hframe⟩)) hJ) hJ
  exact ⟨⟨_, threads, _⟩, o', output_ok.mpr ⟨ht, rfl, rfl⟩, hJ⟩

end Total

end Runs

theorem output_grows {loader : Nat → Locate} {o o' : Running} {profile : InputProfile}
    {q : Profile} (h : output loader o profile = .ok (q, o')) : Grows o o' :=
  (output_rule (A := fun _ _ => True) (J := fun _ => True) (fun _ _ _ => ⟨trivial, trivial⟩)
    trivial h).2.1

section Missing

variable (unknown : UInt64 → Prop) (found : UInt64 → ModuleInfo × UInt64 → Prop)

/-- What becomes of a captured address: where it is unknown it may be missing, and else the
index pushed for it holds its place in an object that was found. -/
inductive FrameOf (q : Profile) (ip : UInt64) : Option Nat → Prop
  | missing : unknown ip → FrameOf q ip none
  | kept {index position : Nat} {info base top} : found top (info, base) → base ≤ ip → ip ≤ top →
      q.modules[position]? = some (Module.ofModuleInfo info) →
      q.frames[index]? = some { moduleIndex := position.toUInt32, relativeIp := ip - base } →
      FrameOf q ip (some index)

def KeepsSample (q : Profile) (sample : Types.Sample) (out : Sample) : Prop :=
  ∃ positions, out.frames = positions.reduceOption ∧
    List.Forall₂ (fun frame pos => FrameOf unknown found q frame.ip pos) sample positions

def OnlyUnknownMissing (p : InputProfile) (q : Profile) : Prop :=
  List.Forall₂ (fun thread out => out.threadId = thread.1 ∧
    List.Forall₂ (KeepsSample unknown found q) thread.2 out.samples) p.threads.entries q.threads

variable {unknown found}

theorem Indexes.frameOf {o : Running} {q : Profile}
    (hm : q.modules = o.modules.map Module.ofModuleInfo) (hf : q.frames = o.frames) {ip : UInt64}
    {answer : Option ModuleAndAddr} {pos : Option Nat} (h : Indexes o answer pos)
    (ha : Answers unknown found ip answer) : FrameOf unknown found q ip pos := by
  cases ha with
  | unknown hunknown =>
    cases h with
    | unresolved => exact .missing hunknown
  | @found info base top hfound hbase htop =>
    cases h with
    | resolved hmem hi =>
      refine .kept hfound hbase htop ?_ (hf ▸ hi)
      rw [hm, List.getElem?_map, List.getElem?_idxOf hmem]
      rfl

theorem SampleOf.keepsSample {o : Running} {q : Profile}
    (hm : q.modules = o.modules.map Module.ofModuleInfo) (hf : q.frames = o.frames)
    {sample : Types.Sample} {out : Sample} (h : SampleOf (Answers unknown found) o sample out) :
    KeepsSample unknown found q sample out := by
  obtain ⟨positions, hout, hpositions⟩ := h
  exact ⟨positions, hout, hpositions.imp fun _ _ ⟨_, ha, hi⟩ => hi.frameOf hm hf ha⟩

section Outputs

variable {loader : Nat → Locate} (hunknown : ∀ n addr, loader n addr = .ok none → unknown addr)
  (hfound : ∀ n addr x, loader n addr = .ok (some x) → found addr x)

include hunknown hfound

theorem output_onlyUnknownMissing {o o' : Running} (ho : o.moduleCache.Founded found)
    {profile : InputProfile} {q : Profile} (h : output loader o profile = .ok (q, o')) :
    o'.moduleCache.Founded found ∧ OnlyUnknownMissing unknown found profile q := by
  obtain ⟨_, hm, hf⟩ := output_ok.mp h
  have hrule := output_rule (L := loader) (A := Answers unknown found)
    (J := fun o => o.moduleCache.Founded found)
    (fun ho hL _ => ⟨hL.founded (hfound _ _) ho, hL.answers (hunknown _ _) (hfound _ _) ho⟩) ho h
  refine ⟨hrule.1, hrule.2.2.imp fun thread out hthread => ⟨hthread.1, ?_⟩⟩
  exact hthread.2.imp fun _ _ hs => hs.keepsSample hm hf

theorem outputs_onlyUnknownMissing {o : Running} {history : List InputProfile} {qs : List Profile}
    (h : traverse (output loader) start history = .ok (qs, o)) :
    o.moduleCache.Founded found ∧ List.Forall₂ (OnlyUnknownMissing unknown found) history qs := by
  have hrule := traverse_rule (I := fun o : Running => o.moduleCache.Founded found)
    (G := Grows) (R := fun _ => OnlyUnknownMissing unknown found) Grows.refl Grows.trans
    (fun _ hr => hr) (fun _ ho hq => by
      have hkeeps := output_onlyUnknownMissing hunknown hfound ho hq
      exact ⟨hkeeps.1, output_grows hq, hkeeps.2⟩) founded_new h
  exact ⟨hrule.1, hrule.2.2⟩

end Outputs

end Missing

end Outputter

end Vignette
