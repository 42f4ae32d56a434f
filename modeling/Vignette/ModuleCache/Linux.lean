import Vignette.ModuleCache.Basic

namespace Vignette.Linux

abbrev Bytes := List UInt8

structure DlInfo where
  dliFname : ByteArray
  dliFbase : UInt64

structure Note where
  name : String
  nType : UInt32
  desc : Bytes

def NT_GNU_BUILD_ID : UInt32 := 3

/-- What `get_or_insert` calls: the dynamic loader, the file system, and the ELF
parser.  An item of the note iterator is `none` where the parser reports an error. -/
structure Loader (File Elf : Type) where
  dladdr : UInt64 → Option DlInfo
  openFile : String → Option File
  mmap : File → Option Bytes
  parse : Bytes → Option Elf
  iterNoteHeaders : Elf → Bytes → Option (List (Option Note))

def hexDigit (n : UInt8) : Char := (Nat.digitChar n.toNat).toUpper

def encodeUpper (bytes : Bytes) : String :=
  String.ofList (bytes.flatMap fun b => [hexDigit (b / 16), hexDigit (b % 16)])

/-- `Path::file_name`: the last component, unless it is the root or `..`. -/
def fileName (path : String) : Option String :=
  let components := (path.toList.splitOn '/').filter fun c => c ≠ [] ∧ c ≠ ['.']
  match components.getLast? with
  | none => none
  | some c => if c = ['.', '.'] then none else some (String.ofList c)

def findBuildId : List (Option Note) → Except Panic (Option String)
  | [] => .ok none
  | noteR :: notes => do
    let note ← unwrap noteR
    if note.name ≠ "GNU" then findBuildId notes
    else if note.nType ≠ NT_GNU_BUILD_ID then findBuildId notes
    else return some (encodeUpper note.desc)

variable {File Elf : Type}

def Loader.locate (loader : Loader File Elf) : Locate := fun addr => do
  match loader.dladdr addr with
  | none => return none
  | some modInfo =>
    let path ← expect "valid path" (String.fromUTF8? modInfo.dliFname)
    let file ← expect "valid file" (loader.openFile path)
    let mapped ← expect "mmap" (loader.mmap file)
    let elf ← expect "valid elf" (loader.parse mapped)
    let notes ← unwrap (loader.iterNoteHeaders elf mapped)
    match ← findBuildId notes with
    | none => return none
    | some buildId =>
      let name ← expect "file name" (fileName path)
      return some ({ name, buildId }, modInfo.dliFbase)

def getOrInsert (loader : Loader File Elf) (cache : ModuleCache) (addr : UInt64) :
    Except Panic (Option ModuleAndAddr × ModuleCache) :=
  cache.getOrInsertVia loader.locate addr

def Loader.identified (objects : UInt64 → Option (String × UInt64)) (desc : Bytes) :
    Loader Unit Unit where
  dladdr addr := (objects addr).map fun (path, base) => ⟨path.toByteArray, base⟩
  openFile _ := some ()
  mmap _ := some []
  parse _ := some ()
  iterNoteHeaders _ _ := some [some { name := "GNU", nType := NT_GNU_BUILD_ID, desc }]

theorem fromUTF8_toByteArray (s : String) : String.fromUTF8? s.toByteArray = some s := by
  rw [String.fromUTF8?, dif_pos s.isValidUTF8]
  rfl

theorem Loader.locate_identified {objects : UInt64 → Option (String × UInt64)} {desc : Bytes}
    {addr base : UInt64} {path name : String} (h : objects addr = some (path, base))
    (hn : fileName path = some name) :
    (Loader.identified objects desc).locate addr =
      .ok (some ({ name, buildId := encodeUpper desc }, base)) := by
  simp [Loader.locate, Loader.identified, h, fromUTF8_toByteArray, findBuildId, hn, Bind.bind,
    Except.bind, Pure.pure, Except.pure]

theorem Loader.locate_identified_none {objects : UInt64 → Option (String × UInt64)} {desc : Bytes}
    {addr : UInt64} (h : objects addr = none) :
    (Loader.identified objects desc).locate addr = .ok none := by
  simp [Loader.locate, Loader.identified, h, Pure.pure, Except.pure]

example : encodeUpper [0xBF, 0xAA, 0x0] = "BFAA00" := by decide

example : fileName "/lib/x86_64-linux-gnu/libpthread.so.0" = some "libpthread.so.0" := by decide

end Vignette.Linux
