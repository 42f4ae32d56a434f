import Vignette.Library.HashMap
import Vignette.Library.Traverse
import Vignette.Output.Outputter

/-! The symbol files of a profile's modules, and the caches read from them. -/

namespace Vignette.Resolve

open Library Output

inductive ObjectKind
  | breakpad
  | elf
  | machO
  deriving DecidableEq

structure LineInfo where
  functionName : String
  filename : String
  line : UInt32
  deriving DecidableEq

structure Symbolic (FatObject Object SymCache : Type) where
  parse : List UInt8 → Option FatObject
  kind : FatObject → ObjectKind
  objectCount : FatObject → Nat
  getObject : FatObject → Nat → Option (Option Object)
  fromObject : Object → Option SymCache
  lookup : SymCache → UInt64 → Option (List LineInfo)

/-- What opening a path for reading gives, and reading it to its end after that. -/
abbrev SymbolStore := String → Option (Option (List UInt8))

/-- `PathBuf::push`, which starts again from an absolute path. -/
def pushPath (path component : String) : String :=
  if component.startsWith "/" then component
  else if path.isEmpty || path.endsWith "/" then path ++ component
  else path ++ "/" ++ component

def symPath (symbolRoot : String) (module : Module) : String :=
  pushPath (pushPath (pushPath symbolRoot module.name) module.buildId) (module.name ++ ".sym")

/-- No entry is ever `none`: a file that cannot be opened is tried again at the next
lookup. -/
structure SymCacheCache (SymCache : Type) where
  moduleToCache : AList fun _ : Module => Option SymCache
  symbolRoot : String

variable {FatObject Object SymCache : Type}

def SymCacheCache.new (symRoot : String) : SymCacheCache SymCache where
  moduleToCache := ∅
  symbolRoot := symRoot

section Program

variable (symbolic : Symbolic FatObject Object SymCache) (store : SymbolStore)

/-- `get_or_create_cache` from the file that it has opened. -/
def createCache (file : Option (List UInt8)) : Except Panic SymCache := do
  let contents ← expect "read file" file
  let fatObject ← expect "valid fatobject" (symbolic.parse contents)
  check "fat_object.kind() == ObjectKind::Breakpad" (symbolic.kind fatObject = .breakpad)
  check "fat_object.object_count() == 1" (symbolic.objectCount fatObject = 1)
  let object ← unwrap (symbolic.getObject fatObject 0)
  let object ← unwrap object
  expect "valid cache" (symbolic.fromObject object)

def getOrCreateCache (cache : SymCacheCache SymCache) (module : Module) :
    Except Panic (Option SymCache × SymCacheCache SymCache) :=
  match cache.moduleToCache.lookup module with
  | some symcache => .ok (symcache, cache)
  | none =>
    match store (symPath cache.symbolRoot module) with
    | none => .ok (none, cache)
    | some file => do
      let symcache := some (← createCache symbolic file)
      let moduleToCache := cache.moduleToCache.insert module symcache
      return (symcache, { cache with moduleToCache })

def lookupSymbol (cache : SymCacheCache SymCache) (module : Module) (relativeIp : UInt64) :
    Except Panic (Option (String × String × UInt32) × SymCacheCache SymCache) := do
  let (symcache, cache) ← getOrCreateCache symbolic store cache module
  match symcache with
  | none => return (none, cache)
  | some symcache =>
    match symbolic.lookup symcache relativeIp with
    | none => return (none, cache)
    | some lookupResult =>
      return (lookupResult.head?.map fun x => (x.functionName, x.filename, x.line), cache)

end Program

/-- The symbol file at a path is absent, or holds one Breakpad object with a cache. -/
inductive SymbolFile (symbolic : Symbolic FatObject Object SymCache) (store : SymbolStore)
    (path : String) : Option SymCache → Prop
  | absent : store path = none → SymbolFile symbolic store path none
  | breakpad {contents fatObject object cache} : store path = some (some contents) →
      symbolic.parse contents = some fatObject → symbolic.kind fatObject = .breakpad →
      symbolic.objectCount fatObject = 1 → symbolic.getObject fatObject 0 = some (some object) →
      symbolic.fromObject object = some cache → SymbolFile symbolic store path (some cache)

def firstResult (symbolic : Symbolic FatObject Object SymCache) (symcache : Option SymCache)
    (relativeIp : UInt64) : Option LineInfo := do
  let lookupResult ← symbolic.lookup (← symcache) relativeIp
  lookupResult.head?

variable {symbolic : Symbolic FatObject Object SymCache} {store : SymbolStore}

theorem SymbolFile.unique {path : String} {symcache symcache' : Option SymCache}
    (h : SymbolFile symbolic store path symcache) (h' : SymbolFile symbolic store path symcache') :
    symcache = symcache' := by
  cases h <;> cases h' <;> simp_all

structure Coherent (symbolic : Symbolic FatObject Object SymCache) (store : SymbolStore)
    (symbolRoot : String) (cache : SymCacheCache SymCache) : Prop where
  remembers : Remembers (fun module => SymbolFile symbolic store (symPath symbolRoot module))
    cache.moduleToCache
  symbolRoot : cache.symbolRoot = symbolRoot

theorem coherent_new (symRoot : String) : Coherent symbolic store symRoot (.new symRoot) :=
  ⟨remembers_empty, rfl⟩

theorem getOrCreateCache_ok {cache : SymCacheCache SymCache} {symbolRoot : String}
    {module : Module} {symcache : Option SymCache} (h : Coherent symbolic store symbolRoot cache)
    (hfile : SymbolFile symbolic store (symPath symbolRoot module) symcache) :
    ∃ cache', getOrCreateCache symbolic store cache module = .ok (symcache, cache') ∧
      Coherent symbolic store symbolRoot cache' := by
  cases hlookup : cache.moduleToCache.lookup module with
  | some known =>
    refine ⟨cache, ?_, h⟩
    rw [getOrCreateCache, hlookup, hfile.unique (h.remembers module known hlookup)]
  | none =>
    have hremembers := h.remembers.insert hfile
    cases hfile with
    | absent hstore =>
      refine ⟨cache, ?_, h⟩
      rw [getOrCreateCache, hlookup, h.symbolRoot, hstore]
    | @breakpad contents _ _ symcache hstore hparse hkind hcount hobject hcache =>
      have hcreate : createCache symbolic (some contents) = .ok symcache := by
        simp [createCache, check, hparse, hkind, hcount, hobject, hcache, Bind.bind, Except.bind]
      refine ⟨{ cache with moduleToCache := cache.moduleToCache.insert module (some symcache) },
        ?_, ⟨hremembers, h.symbolRoot⟩⟩
      rw [getOrCreateCache, hlookup, h.symbolRoot, hstore]
      simp [hcreate, Bind.bind, Except.bind, Pure.pure, Except.pure]

theorem lookupSymbol_ok {cache : SymCacheCache SymCache} {symbolRoot : String} {module : Module}
    {symcache : Option SymCache} (h : Coherent symbolic store symbolRoot cache)
    (hfile : SymbolFile symbolic store (symPath symbolRoot module) symcache) (relativeIp : UInt64) :
    ∃ cache', lookupSymbol symbolic store cache module relativeIp =
        .ok ((firstResult symbolic symcache relativeIp).map
          fun x => (x.functionName, x.filename, x.line), cache') ∧
      Coherent symbolic store symbolRoot cache' := by
  obtain ⟨cache', hcache, h'⟩ := getOrCreateCache_ok h hfile
  refine ⟨cache', ?_, h'⟩
  rw [lookupSymbol, hcache]
  cases symcache with
  | none => rfl
  | some symcache =>
    cases hlookup : symbolic.lookup symcache relativeIp <;>
      simp [firstResult, hlookup, Bind.bind, Except.bind, Pure.pure, Except.pure]

end Vignette.Resolve
