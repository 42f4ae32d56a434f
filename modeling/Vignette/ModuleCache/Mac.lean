import Vignette.ModuleCache.Linux

namespace Vignette.Mac

open Linux (Bytes DlInfo encodeUpper fileName)

inductive LoadCommand
  | uuid (uuid : Bytes)
  | other

structure MachO where
  cputype : UInt32
  loadCommands : List LoadCommand

/-- `goblin::mach::Mach`.  An architecture of a fat binary is its header's `cputype`
with what `get` answers for it, and `none` where the header cannot be read. -/
inductive Mach
  | fat (arches : List (Option (UInt32 × Option MachO)))
  | binary (macho : MachO)

def CPU_TYPE_X86_64 : UInt32 := 0x01000007

structure Loader (File : Type) where
  dladdr : UInt64 → Option DlInfo
  openFile : String → Option File
  mmap : File → Option Bytes
  parse : Bytes → Option Mach

def findArch : List (Option (UInt32 × Option MachO)) → Option (Option MachO)
  | [] => none
  | some (cputype, macho) :: arches =>
    if cputype = CPU_TYPE_X86_64 then some macho else findArch arches
  | none :: arches => findArch arches

def selectMachO : Mach → Option (Option MachO)
  | .fat arches => findArch arches
  | .binary macho => if macho.cputype = CPU_TYPE_X86_64 then some (some macho) else none

def findUuid : List LoadCommand → Option String
  | [] => none
  | .uuid uuid :: _ => some (encodeUpper uuid)
  | .other :: commands => findUuid commands

variable {File : Type}

def Loader.locate (loader : Loader File) : Locate := fun addr => do
  match loader.dladdr addr with
  | none => return none
  | some modInfo =>
    let path ← expect "valid path" (String.fromUTF8? modInfo.dliFname)
    let file ← expect "valid file" (loader.openFile path)
    let mapped ← expect "mmap" (loader.mmap file)
    let parsed ← expect "mach-o" (loader.parse mapped)
    let selected ← expect "non-none" (selectMachO parsed)
    let macho ← expect "valid mach-o" selected
    match findUuid macho.loadCommands with
    | none => return none
    | some buildId =>
      let name ← expect "file name" (fileName path)
      return some ({ name, buildId }, modInfo.dliFbase)

def getOrInsert (loader : Loader File) (cache : ModuleCache) (addr : UInt64) :
    Except Panic (Option ModuleAndAddr × ModuleCache) :=
  cache.getOrInsertVia loader.locate addr

end Vignette.Mac
