import Vignette.ModuleCache.Failures
import Vignette.Output.Laws

namespace Vignette

open Library Output ModuleCache

namespace Outputter

open Running

variable {File Elf : Type} {loader : Linux.Loader File Elf}

def OnlyUnidentifiedMissing (loader : Linux.Loader File Elf) : InputProfile → Profile → Prop :=
  OnlyUnknownMissing (fun ip => loader.buildId ip = none)
    fun addr x => loader.locate addr = .ok (some x)

theorem exists_answer {A : UInt64 → Option ModuleAndAddr → Prop} {o : Running}
    {p : InputProfile} {threads : List Thread}
    (h : List.Forall₂ (ThreadOf A o) p.threads.entries threads) {frame : Types.Frame}
    (hframe : frame ∈ p.captured) : ∃ answer, A frame.ip answer := by
  obtain ⟨thread, hthread, sample, hsample, hframe⟩ := InputProfile.mem_captured.mp hframe
  have hthreads : List.Forall₂ (flip _) threads p.threads.entries := h.flip
  obtain ⟨_, _, _, hs⟩ := exists_of_mem_right hthreads hthread
  have hsamples : List.Forall₂ (flip _) _ thread.2 := hs.flip
  obtain ⟨_, _, positions, _, hp⟩ := exists_of_mem_right hsamples hsample
  have hframes : List.Forall₂ (flip _) positions sample := hp.flip
  obtain ⟨_, _, answer, ha, _⟩ := exists_of_mem_right hframes hframe
  exact ⟨answer, ha⟩

theorem output_of_readable (hlaw : loader.Lawful) {o : Running}
    (ho : o.moduleCache.Founded fun addr x => loader.locate addr = .ok (some x)) (p : InputProfile)
    (hp : ∀ frame ∈ p.captured, loader.buildId frame.ip = none → loader.Readable frame.ip) :
    ∃ q o', output (fun _ => loader.locate) o p = .ok (q, o') ∧
      OnlyUnidentifiedMissing loader p q := by
  obtain ⟨q, o', hq, _⟩ := output_total (L := fun _ => loader.locate) (J := fun _ => True)
    (A := fun _ _ => True) (fun _ _ _ => ⟨trivial, trivial⟩)
    (fun {o frame} hframe _ => by
      obtain ⟨answer, hl⟩ := hlaw.locate_ok_iff.mpr hframe
      have hS : loader.locate.blocks frame.ip = answer := by rw [Locate.blocks, hl]
      exact exists_lookup (hS ▸ hl) hlaw.wellPlaced) hp trivial
  have hunknown : ∀ (_ : Nat) addr, loader.locate addr = .ok none → loader.buildId addr = none :=
    fun _ _ hl => (Linux.Loader.locate_none_iff.mp hl).1
  have hfound : ∀ (_ : Nat) addr x, loader.locate addr = .ok (some x) →
      loader.locate addr = .ok (some x) := fun _ _ _ hl => hl
  exact ⟨q, o', hq, (output_onlyUnknownMissing hunknown hfound ho hq).2⟩

theorem readable_of_output (hlaw : loader.Lawful) (hS : Contiguous loader.locate.blocks)
    {o o' : Running} (ho : Justified loader.locate.blocks o.moduleCache) {p : InputProfile}
    {q : Profile} (hq : output (fun _ => loader.locate) o p = .ok (q, o')) :
    ∀ frame ∈ p.captured, loader.buildId frame.ip = none → loader.Readable frame.ip := by
  have hrun := (output_rule (L := fun _ => loader.locate)
    (J := fun o => Justified loader.locate.blocks o.moduleCache)
    (A := fun ip _ => ∃ answer, loader.locate ip = .ok answer)
    (fun ho hL _ => ⟨hL.justified ho, hL.located ho hS⟩) ho hq).2.2
  intro frame hframe
  obtain ⟨_, hl⟩ := exists_answer hrun hframe
  exact hlaw.locate_ok_iff.mp hl

theorem outputs_founded {locate : Locate} {history : List InputProfile} {qs : List Profile}
    {o : Running} (h : traverse (output fun _ => locate) start history = .ok (qs, o)) :
    o.moduleCache.Founded fun addr x => locate addr = .ok (some x) :=
  outputs_rule (L := fun _ => locate) (A := fun _ _ => True)
    (J := fun o => o.moduleCache.Founded fun addr x => locate addr = .ok (some x))
    (fun ho hL _ => ⟨hL.founded (fun _ hl => hl) ho, trivial⟩) founded_new h

/-- What fails to have a build id costs only its own frames exactly when it is readable:
for one lookup on either platform, and for a whole output. -/
theorem unidentified_cost_own_frames_iff_readable {File Elf : Type}
    (loader : Linux.Loader File Elf) :
    (∀ cache addr, cache.findExisting addr = none → loader.buildId addr = none →
      (Linux.getOrInsert loader cache addr = .ok (none, cache) ↔ loader.Readable addr)) ∧
    (∀ (loader : Mac.Loader File) cache addr, cache.findExisting addr = none →
      loader.buildId addr = none →
      (Mac.getOrInsert loader cache addr = .ok (none, cache) ↔ loader.Readable addr)) ∧
    (loader.Lawful → ∀ history qs o,
      traverse (output fun _ => loader.locate) start history = .ok (qs, o) → ∀ p,
      ((∀ frame ∈ p.captured, loader.buildId frame.ip = none → loader.Readable frame.ip) →
        ∃ q o', output (fun _ => loader.locate) o p = .ok (q, o') ∧
          OnlyUnidentifiedMissing loader p q) ∧
      (Contiguous loader.locate.blocks →
        (∃ q o', output (fun _ => loader.locate) o p = .ok (q, o')) →
        ∀ frame ∈ p.captured, loader.buildId frame.ip = none → loader.Readable frame.ip)) := by
  refine ⟨fun _ _ h hb => Linux.getOrInsert_none_iff_readable h hb,
    fun _ _ _ h hb => Mac.getOrInsert_none_iff_readable h hb, fun hlaw history qs o h p => ?_⟩
  have hfounded := outputs_founded h
  refine ⟨output_of_readable hlaw hfounded p, fun hS ⟨q, o', hq⟩ => ?_⟩
  exact readable_of_output hlaw hS hfounded.justified hq

def strippedLoader : Linux.Loader Unit Unit :=
  { appLoader with iterNoteHeaders := fun _ _ => some [] }

theorem strippedLoader_readable (addr : UInt64) : strippedLoader.Readable addr := by
  intro modInfo h
  refine ⟨"/bin/app", [], ⟨?_, (), rfl, [], rfl, (), rfl, rfl⟩, List.not_mem_nil⟩
  simp only [strippedLoader, appLoader, Linux.Loader.identified, appObjects, Option.map_eq_some_iff] at h
  obtain ⟨_, hobject, rfl⟩ := h
  split at hobject
  · obtain rfl := Option.some.inj hobject
    exact Linux.fromUTF8_toByteArray "/bin/app"
  · simp at hobject

theorem strippedLoader_passed_over :
    Linux.getOrInsert strippedLoader ModuleCache.new 0x4010 = .ok (none, ModuleCache.new) :=
  ((unidentified_cost_own_frames_iff_readable strippedLoader).1 ModuleCache.new 0x4010 rfl
    (by decide)).mpr (strippedLoader_readable 0x4010)

def vdsoLoader : Linux.Loader Unit Unit :=
  { Linux.Loader.identified (fun addr =>
      if 0x7000 ≤ addr ∧ addr < 0x8000 then some ("linux-vdso.so.1", 0x7000) else none) [] with
    openFile := fun _ => none }

def vdsoProfile : InputProfile where
  threads := ⟨[⟨⟨7⟩, [[⟨0x7010⟩]]⟩], by simp [List.NodupKeys, List.keys]⟩

theorem vdso_not_passed_over :
    ¬(∀ {File Elf : Type} (loader : Linux.Loader File Elf) cache addr,
      cache.findExisting addr = none → loader.buildId addr = none →
      Linux.getOrInsert loader cache addr = .ok (none, cache)) ∧
    vdsoLoader.buildId 0x7010 = none ∧
    Linux.getOrInsert vdsoLoader ModuleCache.new 0x7010 = .error (.expect "valid file") ∧
    ¬∃ q o', output (fun _ => vdsoLoader.locate) start vdsoProfile = .ok (q, o') := by
  have hb : vdsoLoader.buildId 0x7010 = none := by decide
  have herr : Linux.getOrInsert vdsoLoader ModuleCache.new 0x7010 =
      .error (.expect "valid file") := by decide
  refine ⟨fun hclaim => ?_, hb, herr, fun ⟨q, o', hq⟩ => ?_⟩
  · have hok := hclaim vdsoLoader ModuleCache.new 0x7010 rfl hb
    rw [herr] at hok
    simp at hok
  · have hrun : (output (fun _ => vdsoLoader.locate) start vdsoProfile).map Prod.fst =
        .error (.expect "valid file") := by decide
    rw [hq] at hrun
    simp [Except.map] at hrun

end Outputter

end Vignette
