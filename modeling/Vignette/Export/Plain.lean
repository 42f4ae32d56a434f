import Vignette.Export.Loading

/-! `resolve` without its cache of caches, and that the cache makes no difference. -/

namespace Vignette.Resolve

open Library Output

variable {FatObject Object SymCache : Type}

section Program

variable (symbolic : Symbolic FatObject Object SymCache) (store : SymbolStore)
  (symbolRoot : String)

def plainCache (module : Module) : Except Panic (Option SymCache) :=
  match store (symPath symbolRoot module) with
  | none => .ok none
  | some file => do return some (← createCache symbolic file)

def plainLookup (module : Module) (relativeIp : UInt64) :
    Except Panic (Option (String × String × UInt32)) := do
  let symcache ← plainCache symbolic store symbolRoot module
  return symbolOf symbolic symcache relativeIp

def plainFrame (modules : List Module) (frame : Frame) : Except Panic ResolvedFrame :=
  match modules[frame.moduleIndex.toNat]? with
  | none => .error .indexOutOfBounds
  | some module => do
    let symbol ← plainLookup symbolic store symbolRoot module frame.relativeIp
    let (function, file, line) := symbol.getD ("unknown", "unknown", 0)
    return { name := function, file, line }

/-- Reads the symbol file of its module again for each frame. -/
def plainResolve (p : Profile) : Except Panic ResolvedProfile := do
  let frames ← p.frames.mapM (plainFrame symbolic store symbolRoot p.modules)
  return { modules := p.modules, threads := p.threads, frames }

end Program

variable {symbolic : Symbolic FatObject Object SymCache} {store : SymbolStore}
  {symbolRoot : String}

structure Remembered (symbolic : Symbolic FatObject Object SymCache) (store : SymbolStore)
    (symbolRoot : String) (cache : SymCacheCache SymCache) : Prop where
  remembers : Remembers (fun module symcache =>
    plainCache symbolic store symbolRoot module = .ok symcache) cache.moduleToCache
  symbolRoot : cache.symbolRoot = symbolRoot

theorem remembered_new : Remembered symbolic store symbolRoot (.new symbolRoot) :=
  ⟨remembers_empty, rfl⟩

theorem getOrCreateCache_goesAs {cache : SymCacheCache SymCache}
    (h : Remembered symbolic store symbolRoot cache) (module : Module) :
    GoesAs (Remembered symbolic store symbolRoot) (plainCache symbolic store symbolRoot module)
      (getOrCreateCache symbolic store cache module) := by
  obtain ⟨moduleToCache, root⟩ := cache
  obtain rfl : root = symbolRoot := h.symbolRoot
  rw [getOrCreateCache]
  cases hlookup : moduleToCache.lookup module with
  | some symcache =>
    rw [h.remembers module symcache hlookup]
    exact .ok h
  | none =>
    cases hstore : store (symPath root module) with
    | none =>
      rw [plainCache]
      simp only [hstore]
      exact .ok h
    | some file =>
      cases hcreate : createCache symbolic file with
      | error p =>
        rw [plainCache]
        simp only [hstore, hcreate]
        exact .error
      | ok symcache =>
        have hplain : plainCache symbolic store root module = .ok (some symcache) := by
          rw [plainCache]
          simp only [hstore, hcreate]
          rfl
        rw [hplain]
        simp only [hcreate]
        exact .ok ⟨h.remembers.insert hplain, rfl⟩

theorem lookupSymbol_goesAs {cache : SymCacheCache SymCache}
    (h : Remembered symbolic store symbolRoot cache) (module : Module) (relativeIp : UInt64) :
    GoesAs (Remembered symbolic store symbolRoot)
      (plainLookup symbolic store symbolRoot module relativeIp)
      (lookupSymbol symbolic store cache module relativeIp) := by
  rw [lookupSymbol_eq]
  exact (getOrCreateCache_goesAs h module).bind fun _ _ h => .ok h

theorem resolveFrame_goesAs {cache : SymCacheCache SymCache}
    (h : Remembered symbolic store symbolRoot cache) (modules : List Module) (frame : Frame) :
    GoesAs (Remembered symbolic store symbolRoot)
      (plainFrame symbolic store symbolRoot modules frame)
      (resolveFrame symbolic store modules cache frame) := by
  rw [plainFrame, resolveFrame]
  cases modules[frame.moduleIndex.toNat]? with
  | none => exact .error
  | some module => exact (lookupSymbol_goesAs h module _).bind fun _ _ h => .ok h

theorem plainCache_ok_iff {module : Module} {symcache : Option SymCache} :
    plainCache symbolic store symbolRoot module = .ok symcache ↔
      SymbolFile symbolic store (symPath symbolRoot module) symcache := by
  constructor
  · intro h
    rw [plainCache] at h
    cases hstore : store (symPath symbolRoot module) with
    | none =>
      simp only [hstore, Except.ok.injEq] at h
      rw [← h]
      exact .absent hstore
    | some file =>
      simp only [hstore, bind_ok] at h
      obtain ⟨symcache, hcreate, h⟩ := h
      cases h
      exact createCache_ok hstore hcreate
  · intro h
    rw [plainCache]
    cases h with
    | absent hstore => rw [hstore]
    | breakpad hstore hparse hkind hcount hobject hcache =>
      simp [hstore, createCache, check, hparse, hkind, hcount, hobject, hcache, Bind.bind,
        Except.bind, Pure.pure, Except.pure]

theorem plainFrame_ok_iff {modules : List Module} {frame : Frame} {out : ResolvedFrame} :
    plainFrame symbolic store symbolRoot modules frame = .ok out ↔
      ResolvesTo symbolic store symbolRoot modules frame out := by
  have hframe (symcache : Option SymCache) : ResolvedFrame.ofResult
      (firstResult symbolic symcache frame.relativeIp) =
      let symbol := (symbolOf symbolic symcache frame.relativeIp).getD ("unknown", "unknown", 0)
      { name := symbol.1, file := symbol.2.1, line := symbol.2.2 } := by
    rw [symbolOf]
    cases firstResult symbolic symcache frame.relativeIp <;> rfl
  rw [plainFrame, ResolvesTo]
  cases hmodule : modules[frame.moduleIndex.toNat]? with
  | none => simp
  | some module =>
    simp only [Option.some.injEq, plainLookup, bind_ok, plainCache_ok_iff, Pure.pure, Except.pure,
      Except.ok.injEq, hframe]
    constructor
    · rintro ⟨_, ⟨symcache, hfile, rfl⟩, rfl⟩
      exact ⟨module, symcache, rfl, hfile, rfl⟩
    · rintro ⟨_, symcache, rfl, hfile, rfl⟩
      exact ⟨_, ⟨symcache, hfile, rfl⟩, rfl⟩

theorem resolve_eq_plainResolve (p : Profile) :
    resolve symbolic store symbolRoot p = plainResolve symbolic store symbolRoot p := by
  have h : GoesAs (Remembered symbolic store symbolRoot)
      (p.frames.mapM (plainFrame symbolic store symbolRoot p.modules))
      (traverse (resolveFrame symbolic store p.modules) (.new symbolRoot) p.frames) :=
    .traverse (fun _ h => resolveFrame_goesAs h p.modules _) remembered_new
  rw [resolve, plainResolve]
  generalize p.frames.mapM (plainFrame symbolic store symbolRoot p.modules) = frames,
    traverse (resolveFrame symbolic store p.modules) (.new symbolRoot) p.frames = out at h
  cases h <;> rfl

theorem resolve_ok_iff {p : Profile} {resolved : ResolvedProfile} :
    resolve symbolic store symbolRoot p = .ok resolved ↔
      resolved.modules = p.modules ∧ resolved.threads = p.threads ∧
        List.Forall₂ (ResolvesTo symbolic store symbolRoot p.modules) p.frames resolved.frames := by
  have hframes (frames : List ResolvedFrame) :
      p.frames.mapM (plainFrame symbolic store symbolRoot p.modules) = .ok frames ↔
        List.Forall₂ (ResolvesTo symbolic store symbolRoot p.modules) p.frames frames := by
    simp only [mapM_eq_ok_iff, plainFrame_ok_iff]
  rw [resolve_eq_plainResolve, plainResolve]
  simp only [bind_ok, hframes, Pure.pure, Except.pure, Except.ok.injEq]
  constructor
  · rintro ⟨frames, h, rfl⟩
    exact ⟨rfl, rfl, h⟩
  · rintro ⟨hmodules, hthreads, h⟩
    exact ⟨resolved.frames, h, by rw [← hmodules, ← hthreads]⟩

/-- The cache of caches makes no difference, to the panics either; and a profile is resolved
exactly to what the symbol files of the frames' own modules say, which is nothing where one
of these is no good or a frame's module is out of bounds. -/
theorem resolve_as_plain (symbolic : Symbolic FatObject Object SymCache) (store : SymbolStore)
    (symbolRoot : String) (p : Profile) :
    resolve symbolic store symbolRoot p = plainResolve symbolic store symbolRoot p ∧
    ∀ resolved, resolve symbolic store symbolRoot p = .ok resolved ↔
      resolved.modules = p.modules ∧ resolved.threads = p.threads ∧
        List.Forall₂ (ResolvesTo symbolic store symbolRoot p.modules) p.frames resolved.frames :=
  ⟨resolve_eq_plainResolve p, fun _ => resolve_ok_iff⟩

end Vignette.Resolve
