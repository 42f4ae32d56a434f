import Vignette.Export.Symbols
import Vignette.Library.Text

/-! The program `generate_symbols`, from the output of `dump_syms` to the symbol file. -/

namespace Vignette.GenerateSymbols

open Library Resolve

structure CommandOutput where
  success : Bool
  stdout : List UInt8

inductive WriteAnswer
  | stored (count : Nat)
  | interrupted
  | failed
  deriving DecidableEq

/-- The operating system under one run: the command, the file system, and the answer to
each write. -/
structure Os where
  dumpSyms : String → Option CommandOutput
  createDirAll : String → Option Unit
  openTruncated : String → Option Unit
  write : Nat → List UInt8 → WriteAnswer

structure File where
  path : String
  contents : List UInt8
  writes : Nat
  deriving DecidableEq

/-- `File::write`, which is one call of the operating system. -/
def File.write (os : Os) (file : File) (buf : List UInt8) : WriteAnswer × File :=
  let answer := os.write file.writes buf
  let stored := match answer with
    | .stored count => buf.take count
    | .interrupted => []
    | .failed => []
  (answer, { file with contents := file.contents ++ stored, writes := file.writes + 1 })

def header (stdout : List UInt8) : Except Panic (List String) :=
  (takeLines 2 stdout).mapM fun res => expect "valid line" (decode res)

def index (lines : List String) (i : Nat) : Except Panic String :=
  match lines[i]? with
  | some line => .ok line
  | none => .error .indexOutOfBounds

def symPaths (stdout : List UInt8) (symbolRoot : String) : Except Panic (String × String) := do
  let header ← header stdout
  let line ← index header 0
  check "header[0].starts_with(\"MODULE\")" (line.startsWith "MODULE" = true)
  let binaryName ← expect "binary name" (pieces line)[4]?
  let line ← index header 1
  check "header[1].starts_with(\"INFO CODE_ID\")" (line.startsWith "INFO CODE_ID" = true)
  let buildId ← expect "build id" (pieces line)[2]?
  let dir := pushPath (pushPath symbolRoot binaryName) buildId
  return (dir, pushPath dir (binaryName ++ ".sym"))

/-- The file as it is left when the program ends without a panic. -/
def main (os : Os) (binary symbolRoot : String) : Except Panic File := do
  let output ← expect "command executed" (os.dumpSyms binary)
  -- `panic!`, under its message
  check "dump_syms failed" (output.success = true)
  let (dir, symPath) ← symPaths output.stdout symbolRoot
  expect "created dirs" (os.createDirAll dir)
  expect "opened file" (os.openTruncated symPath)
  let file : File := { path := symPath, contents := [], writes := 0 }
  -- what the write answers is thrown away
  let (_, file) := file.write os output.stdout
  return file

example : pieces "INFO CODE_ID BFAA2814" = ["INFO", "CODE_ID", "BFAA2814"] := by decide

end Vignette.GenerateSymbols
