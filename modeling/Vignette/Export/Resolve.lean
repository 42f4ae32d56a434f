import Vignette.Export.Symbols

/-! The program `resolve`, between its reading and its writing of JSON. -/

namespace Vignette

namespace Output

structure ResolvedFrame where
  name : String
  file : String
  line : UInt32
  deriving DecidableEq

structure ResolvedProfile where
  modules : List Module
  threads : List Thread
  frames : List ResolvedFrame
  deriving DecidableEq

end Output

namespace Resolve

open Library Output

variable {FatObject Object SymCache : Type}

section Program

variable (symbolic : Symbolic FatObject Object SymCache) (store : SymbolStore)

def resolveFrame (modules : List Module) (symcache : SymCacheCache SymCache)
    (unresolvedFrame : Frame) : Except Panic (ResolvedFrame × SymCacheCache SymCache) :=
  match modules[unresolvedFrame.moduleIndex.toNat]? with
  | none => .error .indexOutOfBounds
  | some module => do
    let (symbol, symcache) ←
      lookupSymbol symbolic store symcache module unresolvedFrame.relativeIp
    let (function, file, line) := symbol.getD ("unknown", "unknown", 0)
    return ({ name := function, file, line }, symcache)

def resolve (symbolRoot : String) (unresolvedProfile : Profile) :
    Except Panic ResolvedProfile := do
  let (frames, _) ← traverse (resolveFrame symbolic store unresolvedProfile.modules)
    (.new symbolRoot) unresolvedProfile.frames
  return { modules := unresolvedProfile.modules, threads := unresolvedProfile.threads, frames }

end Program

def ResolvedFrame.ofResult (result : Option LineInfo) : ResolvedFrame :=
  match result with
  | some x => { name := x.functionName, file := x.filename, line := x.line }
  | none => { name := "unknown", file := "unknown", line := 0 }

variable (symbolic : Symbolic FatObject Object SymCache) (store : SymbolStore)
  (symbolRoot : String)

def ResolvesTo (modules : List Module) (frame : Frame) (out : ResolvedFrame) : Prop :=
  ∃ module symcache, modules[frame.moduleIndex.toNat]? = some module ∧
    SymbolFile symbolic store (symPath symbolRoot module) symcache ∧
    out = ResolvedFrame.ofResult (firstResult symbolic symcache frame.relativeIp)

/-- Each module's symbol file is absent or parses. -/
def SymbolsReadable (modules : List Module) : Prop :=
  ∀ module ∈ modules, ∃ symcache, SymbolFile symbolic store (symPath symbolRoot module) symcache

variable {symbolic : Symbolic FatObject Object SymCache} {store : SymbolStore}
  {symbolRoot : String}

theorem resolveFrame_ok {modules : List Module} {cache : SymCacheCache SymCache} {frame : Frame}
    (hstore : SymbolsReadable symbolic store symbolRoot modules)
    (hindex : frame.moduleIndex.toNat < modules.length)
    (h : Coherent symbolic store symbolRoot cache) :
    ∃ out cache', resolveFrame symbolic store modules cache frame = .ok (out, cache') ∧
      ResolvesTo symbolic store symbolRoot modules frame out ∧
      Coherent symbolic store symbolRoot cache' := by
  have hmodule := List.getElem?_eq_getElem hindex
  obtain ⟨symcache, hfile⟩ := hstore _ (List.getElem_mem hindex)
  obtain ⟨cache', hlookup, h'⟩ := lookupSymbol_ok h hfile frame.relativeIp
  refine ⟨_, cache', ?_, ⟨_, symcache, hmodule, hfile, rfl⟩, h'⟩
  simp only [resolveFrame, hmodule, hlookup, Bind.bind, Except.bind, Pure.pure, Except.pure,
    ResolvedFrame.ofResult]
  cases firstResult symbolic symcache frame.relativeIp <;> rfl

theorem resolve_ok {p : Profile} (hstore : SymbolsReadable symbolic store symbolRoot p.modules)
    (hindex : ∀ frame ∈ p.frames, frame.moduleIndex.toNat < p.modules.length) :
    ∃ frames, resolve symbolic store symbolRoot p = .ok ⟨p.modules, p.threads, frames⟩ ∧
      List.Forall₂ (ResolvesTo symbolic store symbolRoot p.modules) p.frames frames := by
  obtain ⟨frames, cache, ht, hframes, _⟩ :=
    traverse_forall₂ (f := resolveFrame symbolic store p.modules)
      (I := Coherent symbolic store symbolRoot)
      (R := ResolvesTo symbolic store symbolRoot p.modules)
      (fun hframe h => resolveFrame_ok hstore (hindex _ hframe) h) (coherent_new symbolRoot)
  refine ⟨frames, ?_, hframes⟩
  rw [resolve, ht]
  rfl

end Resolve

end Vignette
