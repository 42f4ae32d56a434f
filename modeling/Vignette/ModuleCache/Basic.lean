import Mathlib.Data.List.Basic
import Vignette.Types

namespace Vignette

structure ModuleInfo where
  name : String
  buildId : String
  deriving DecidableEq

abbrev ModuleAndAddr := ModuleInfo × UInt64

/-- What the dynamic loader and the files it names say of an address when nothing is
cached: the module and its base address, or nothing, or a panic on the way. -/
abbrev Locate := UInt64 → Except Panic (Option (ModuleInfo × UInt64))

structure Range where
  start : UInt64
  stop : UInt64
  deriving DecidableEq

def Range.contains (range : Range) (addr : UInt64) : Bool :=
  range.start ≤ addr && addr < range.stop

structure ExtraModuleInfo where
  range : Range
  info : ModuleInfo
  deriving DecidableEq

structure ModuleCache where
  moduleRanges : List ExtraModuleInfo
  deriving DecidableEq

namespace ModuleCache

def new : ModuleCache := { moduleRanges := [] }

def findExisting (cache : ModuleCache) (addr : UInt64) : Option ExtraModuleInfo :=
  cache.moduleRanges.find? fun module => module.range.contains addr

def relativeAddr (info : ExtraModuleInfo) (addr : UInt64) : Except Panic UInt64 := do
  check "info.range.contains(&(addr as usize))" (info.range.contains addr)
  return addr - info.range.start

def matching (info : ModuleInfo) (base : UInt64) (module : ExtraModuleInfo) : Bool :=
  module.info.name = info.name && module.info.buildId = info.buildId &&
    module.range.start = base

/-- `get_or_insert` around the platform's own way to locate an address. -/
def getOrInsertVia (locate : Locate) (cache : ModuleCache) (addr : UInt64) :
    Except Panic (Option ModuleAndAddr × ModuleCache) :=
  match cache.findExisting addr with
  | some module => do
    let rva ← relativeAddr module addr
    return (some (module.info, rva), cache)
  | none => do
    match ← locate addr with
    | none => return (none, cache)
    | some (info, base) =>
      match cache.moduleRanges.find? (matching info base) with
      | some module => do
        check "addr as usize >= module.range.start" (module.range.start ≤ addr)
        -- the sum wraps in a release build; a debug build panics on it at once
        let range := { module.range with stop := max (addr + 1) module.range.stop }
        let module := { module with range }
        let rva ← relativeAddr module addr
        let replace := fun m => if matching info base m then some module else none
        return (some (module.info, rva), { moduleRanges := cache.moduleRanges.replaceF replace })
      | none => do
        let new : ExtraModuleInfo := { range := { start := base, stop := addr + 1 }, info }
        let rva ← relativeAddr new addr
        return (some (new.info, rva), { moduleRanges := cache.moduleRanges ++ [new] })

end ModuleCache

end Vignette
