import Vignette.Export.Plain
import Vignette.Output.Repetition
import Vignette.Sampler.UnwindLaws

/-! The function that a captured frame is attributed to, from the unwinder through the
outputter to the resolver. -/

namespace Vignette

open Library Output Resolve

structure FunctionRange where
  name : String
  start : UInt64
  stop : UInt64
  deriving DecidableEq

namespace FunctionRange

def Contains (function : FunctionRange) (x : UInt64) : Prop :=
  function.start ≤ x ∧ x < function.stop

/-- A call instruction that lies wholly inside the function ends at the address. -/
def CallEndsAt (function : FunctionRange) (x : UInt64) : Prop :=
  function.start < x ∧ x ≤ function.stop

theorem CallEndsAt.contains {function : FunctionRange} {x : UInt64} (h : function.CallEndsAt x)
    (hlast : x ≠ function.stop) : function.Contains x :=
  ⟨UInt64.le_of_lt h.1, UInt64.lt_of_le_of_ne h.2 hlast⟩

end FunctionRange

namespace Resolve

variable {FatObject Object SymCache : Type}

def LooksUp (symbolic : Symbolic FatObject Object SymCache) (symcache : SymCache)
    (functions : List FunctionRange) : Prop :=
  ∀ function ∈ functions, ∀ x, function.Contains x →
    (firstResult symbolic (some symcache) x).map LineInfo.functionName = some function.name

/-- The name given to the address `x` of a module: that of the function that contains
it, which for a return address is the caller unless the call is its last instruction. -/
structure Attributed (functions : List FunctionRange) (x : UInt64) (name : String) : Prop where
  inside : ∀ function ∈ functions, function.Contains x → name = function.name
  caller : ∀ function ∈ functions, function.CallEndsAt x → x ≠ function.stop →
    name = function.name

def names (resolved : ResolvedProfile) (sample : Sample) : List (Option String) :=
  sample.frames.map fun index => resolved.frames[index]?.map ResolvedFrame.name

variable {symbolic : Symbolic FatObject Object SymCache}

theorem LooksUp.attributed {symcache : SymCache} {functions : List FunctionRange}
    (h : LooksUp symbolic symcache functions) (x : UInt64) :
    Attributed functions x
      (ResolvedFrame.ofResult (firstResult symbolic (some symcache) x)).name := by
  have hinside : ∀ function ∈ functions, function.Contains x →
      (ResolvedFrame.ofResult (firstResult symbolic (some symcache) x)).name = function.name := by
    intro function hmem hx
    obtain ⟨info, hinfo, hname⟩ := Option.map_eq_some_iff.mp (h function hmem x hx)
    rw [hinfo, ← hname]
    rfl
  exact ⟨hinside, fun function hmem hcall hlast => hinside function hmem (hcall.contains hlast)⟩

end Resolve

namespace Outputter

variable {FatObject Object SymCache : Type}

section Statement

variable (symbolic : Symbolic FatObject Object SymCache) (store : SymbolStore)
  (symbolRoot : String) (S : Blocks UInt64 ModuleInfo)

def CapturedReadable (frames : List Types.Frame) : Prop :=
  ∀ answer ∈ answersTo S frames, ∃ symcache,
    SymbolFile symbolic store (symPath symbolRoot (.ofModuleInfo answer.1)) symcache

/-- Each captured frame that the loader can name has a name, which is the one in the
symbol file of its own module where there is such a file. -/
def NamedAfter (frames : List Types.Frame) (names : List (Option String)) : Prop :=
  List.Forall₂ (fun answer named => ∃ name, named = some name ∧ ∀ symcache functions,
    SymbolFile symbolic store (symPath symbolRoot (.ofModuleInfo answer.1)) (some symcache) →
    LooksUp symbolic symcache functions → Attributed functions answer.2 name)
    (answersTo S frames) names

end Statement

variable {symbolic : Symbolic FatObject Object SymCache} {store : SymbolStore}
  {symbolRoot : String} {S : Blocks UInt64 ModuleInfo}

theorem attributed_of_decode {q : Profile} {resolved : ResolvedProfile}
    (hframes : List.Forall₂ (ResolvesTo symbolic store symbolRoot q.modules) q.frames
      resolved.frames) {index : Nat} {info : ModuleInfo} {x : UInt64}
    (h : q.decode index = some (.ofModuleInfo info, x)) :
    ∃ name, resolved.frames[index]?.map ResolvedFrame.name = some name ∧
      ∀ symcache functions,
        SymbolFile symbolic store (symPath symbolRoot (.ofModuleInfo info)) (some symcache) →
        LooksUp symbolic symcache functions → Attributed functions x name := by
  simp only [Profile.decode, Bind.bind, Pure.pure, Option.bind_eq_some_iff, Option.some.injEq,
    Prod.mk.injEq] at h
  obtain ⟨frame, hframe, module, hmodule, rfl, rfl⟩ := h
  obtain ⟨out, hout, _, symcache, hmodule', hfile, rfl⟩ := exists_getElem?_right hframes hframe
  obtain rfl := Option.some.inj (hmodule'.symm.trans hmodule)
  rw [hout]
  refine ⟨_, rfl, fun symcache' functions hfile' hlooks => ?_⟩
  obtain rfl := hfile.unique hfile'
  exact hlooks.attributed frame.relativeIp

theorem resolve_named {p : InputProfile} {q : Profile} (hq : FaithfulTo S p q)
    {resolved : ResolvedProfile} (h : resolve symbolic store symbolRoot q = .ok resolved) :
    List.Forall₂ (fun thread out => out.threadId = thread.1 ∧
      List.Forall₂ (fun sample out =>
        NamedAfter symbolic store symbolRoot S sample (names resolved out))
        thread.2 out.samples) p.threads.entries resolved.threads := by
  obtain ⟨_, hthreads, hframes⟩ := resolve_ok_iff.mp h
  rw [hthreads]
  refine hq.threads.imp fun thread out hthread => ⟨hthread.1, ?_⟩
  refine hthread.2.imp fun sample out hdecodes => ?_
  rw [NamedAfter, names, List.forall₂_map_right_iff]
  exact hdecodes.forall₂.imp fun _ _ hdecode => attributed_of_decode hframes hdecode

theorem resolve_of_captured {p : InputProfile} {q : Profile} (hq : FaithfulTo S p q) {o : Running}
    (hmodules : q.modules = o.modules.map Module.ofModuleInfo) {frames : List Types.Frame}
    (hrecorded : Recorded (answersTo S frames) o)
    (hsymbols : CapturedReadable symbolic store symbolRoot S frames) :
    ∃ resolved, resolve symbolic store symbolRoot q = .ok resolved := by
  have hreadable : SymbolsReadable symbolic store symbolRoot q.modules := by
    intro module hmem
    rw [hmodules] at hmem
    obtain ⟨info, hinfo, rfl⟩ := List.mem_map.mp hmem
    obtain ⟨answer, hanswer, rfl⟩ := hrecorded.mem_modules.mp hinfo
    exact hsymbols answer hanswer
  obtain ⟨frames, hresolve, _⟩ := resolve_ok hreadable hq.module_indices
  exact ⟨_, hresolve⟩

section Loader

variable {locate : Locate} (hl : ∀ addr, locate addr = .ok (S addr)) (hp : WellPlaced S)
  (hS : Contiguous S) (hn : (Named S).encard < (2 ^ 32 : Nat))

include hl hp hS hn

/-- The callers on every captured stack are named by their return addresses. -/
theorem callers_named_by_return_address (symbolic : Symbolic FatObject Object SymCache)
    (store : SymbolStore) (symbolRoot : String) (history : List InputProfile) (p : InputProfile) :
    ∃ qs o q o', traverse (output fun _ => locate) start history = .ok (qs, o) ∧
      output (fun _ => locate) o p = .ok (q, o') ∧
      (CapturedReadable symbolic store symbolRoot S (capturedIn history ++ p.captured) →
        ∃ resolved, resolve symbolic store symbolRoot q = .ok resolved) ∧
      ∀ resolved, resolve symbolic store symbolRoot q = .ok resolved →
        List.Forall₂ (fun thread out => out.threadId = thread.1 ∧
          List.Forall₂ (fun sample out =>
            ∀ {Context Cursor : Type} (lib : Libunwind Context Cursor) (context : Context)
              (stack : List UInt64), lib.Walks context stack →
              Session.sampleCallback lib context = .ok sample →
              NamedAfter symbolic store symbolRoot S ((stack.tail.take 150).map Types.Frame.mk)
                (names resolved out))
            thread.2 out.samples) p.threads.entries resolved.threads := by
  have hb := Locate.blocks_eq hl
  obtain ⟨qs, o, hqs, _⟩ := outputs_agree hl hp hS history
  obtain ⟨ho, hr⟩ := outputs_recorded hb hS hqs
  obtain ⟨q, o', hq, ho'⟩ := ho.total hl hp hS p
  have hfaithful := ho.faithful hb hS (outputs_counted hqs) hq (ho'.fits hn).le
  have hrecorded : Recorded (answersTo S (capturedIn history ++ p.captured)) o' := by
    rw [answersTo, List.filterMap_append]
    exact (output_recorded hb hS ho hr hq).2
  refine ⟨qs, o, q, o', hqs, hq,
    resolve_of_captured hfaithful (output_ok.mp hq).2.1 hrecorded, fun resolved hresolve => ?_⟩
  refine (resolve_named hfaithful hresolve).imp fun thread out hthread => ⟨hthread.1, ?_⟩
  refine hthread.2.imp fun sample out hsample => ?_
  intro Context Cursor lib context stack hwalks hcallback
  rw [Session.sampleCallback, LibunwindUnwinder.unwind_of_walks hwalks] at hcallback
  rw [Except.ok.inj hcallback]
  exact hsample

end Loader

open LibunwindUnwinder ModuleCache

def adjacent : List FunctionRange := [⟨"f", 0, 0x10⟩, ⟨"g", 0x10, 0x20⟩]

def adjacentSymbols : Symbolic Unit Unit Unit where
  parse _ := some ()
  kind _ := .breakpad
  objectCount _ := 1
  getObject _ _ := some (some ())
  fromObject _ := some ()
  lookup _ x :=
    if x < 0x10 then some [⟨"f", "lib.c", 1⟩]
    else if x < 0x20 then some [⟨"g", "lib.c", 9⟩]
    else none

def lastCall : InputProfile where
  threads := (∅ : AList fun _ : ThreadId => List Types.Sample).insert ⟨1⟩ [[⟨0x4010⟩]]

theorem adjacentSymbols_looksUp : LooksUp adjacentSymbols () adjacent := by
  intro function hfunction x hx
  simp only [adjacent, List.mem_cons, List.not_mem_nil, or_false] at hfunction
  rcases hfunction with rfl | rfl
  · simp [firstResult, adjacentSymbols, hx.2]
  · simp [firstResult, adjacentSymbols, hx.2, UInt64.not_lt.mpr hx.1]

def fullStore : SymbolStore := fun _ => some (some [])

theorem adjacent_symbolFile (path : String) :
    SymbolFile adjacentSymbols fullStore path (some ()) :=
  .breakpad rfl rfl rfl rfl rfl rfl

/-- A call that is the last instruction of `f` is attributed to `g`. -/
theorem last_call_attributed_to_next :
    walking.Walks [0x4018, 0x4010] [0x4018, 0x4010] ∧
    Session.sampleCallback walking [0x4018, 0x4010] = .ok [⟨0x4010⟩] ∧
    SymbolFile adjacentSymbols fullStore (symPath "symbols" (.ofModuleInfo appInfo)) (some ()) ∧
    LooksUp adjacentSymbols () adjacent ∧
    FunctionRange.CallEndsAt ⟨"f", 0, 0x10⟩ (0x4010 - 0x4000) ∧
    ∃ q o resolved, output (fun _ => appLoader.locate) start lastCall = .ok (q, o) ∧
      resolve adjacentSymbols fullStore "symbols" q = .ok resolved ∧
      resolved.threads.map (fun thread => thread.samples.map (names resolved)) = [[[some "g"]]] :=
  ⟨walking_walks _ _, by decide, adjacent_symbolFile _, adjacentSymbols_looksUp,
    ⟨by decide, by decide⟩, _, _, _, rfl, rfl, rfl⟩

theorem lastCall_named_by_return_address :
    ∃ qs o q o' resolved,
      traverse (output fun _ => appLoader.locate) start [lastCall] = .ok (qs, o) ∧
      output (fun _ => appLoader.locate) o lastCall = .ok (q, o') ∧
      resolve adjacentSymbols fullStore "symbols" q = .ok resolved ∧
      List.Forall₂ (fun thread out => out.threadId = thread.1 ∧
        List.Forall₂ (fun sample out =>
          ∀ {Context Cursor : Type} (lib : Libunwind Context Cursor) (context : Context)
            (stack : List UInt64), lib.Walks context stack →
            Session.sampleCallback lib context = .ok sample →
            NamedAfter adjacentSymbols fullStore "symbols" appBlocks
              ((stack.tail.take 150).map Types.Frame.mk) (names resolved out))
          thread.2 out.samples) lastCall.threads.entries resolved.threads := by
  obtain ⟨qs, o, q, o', hqs, hq, hresolves, hnamed⟩ :=
    callers_named_by_return_address appLoader_locate appBlocks_placed appBlocks_contiguous
      named_appBlocks adjacentSymbols fullStore "symbols" [lastCall] lastCall
  obtain ⟨resolved, hresolve⟩ := hresolves fun _ _ => ⟨_, adjacent_symbolFile _⟩
  exact ⟨qs, o, q, o', resolved, hqs, hq, hresolve, hnamed resolved hresolve⟩

end Outputter

end Vignette
