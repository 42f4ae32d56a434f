import Vignette.Library.Traverse
import Vignette.ModuleCache.Basic
import Vignette.Output.VecHashMap

namespace Vignette

open Library

/-- `vignette::Profile`: the captured stacks of each thread.  The order of the entries
is the order in which the hash map is iterated. -/
structure InputProfile where
  threads : AList fun _ : ThreadId => List Types.Sample

namespace Output

structure Frame where
  moduleIndex : UInt32
  relativeIp : UInt64
  deriving DecidableEq

structure Sample where
  frames : List Nat
  deriving DecidableEq

structure Thread where
  threadId : ThreadId
  samples : List Sample
  deriving DecidableEq

structure Module where
  name : String
  buildId : String
  deriving DecidableEq

def Module.ofModuleInfo (mi : ModuleInfo) : Module :=
  { name := mi.name, buildId := mi.buildId }

structure Profile where
  modules : List Module
  threads : List Thread
  frames : List Frame
  deriving DecidableEq

end Output

open Output

structure Outputter where
  moduleCache : ModuleCache
  moduleIndex : VecHashMap ModuleInfo
  framesIndex : VecHashMap Frame

namespace Outputter

def new : Outputter where
  moduleCache := .new
  moduleIndex := .new
  framesIndex := .new

/-- An outputter in its process.  `lookups` counts the lookups made so far: the loader
may answer differently from one to the next. -/
structure Running extends Outputter where
  lookups : Nat

def start : Running := { new with lookups := 0 }

variable (loader : Nat → Locate)

def outputFrame (o : Running) (frame : Types.Frame) :
    Except Panic (Option Frame × Running) := do
  let (answer, moduleCache) ← o.moduleCache.getOrInsertVia (loader o.lookups) frame.ip
  let o := { o with moduleCache, lookups := o.lookups + 1 }
  match answer with
  | some (module, rva) =>
    let (modulePos, moduleIndex) := o.moduleIndex.getOrInsert module
    -- `module_pos as u32` keeps the low 32 bits
    return (some { moduleIndex := modulePos.toUInt32, relativeIp := rva }, { o with moduleIndex })
  | none => return (none, o)

/-- One turn of the loop of `output_sample`: the index that it pushes, if any. -/
def outputPosition (o : Running) (frame : Types.Frame) :
    Except Panic (Option Nat × Running) := do
  let (outputFrame, o) ← outputFrame loader o frame
  match outputFrame with
  | some outputFrame =>
    let (framePos, framesIndex) := o.framesIndex.getOrInsert outputFrame
    return (some framePos, { o with framesIndex })
  | none => return (none, o)

def outputSample (o : Running) (sample : Types.Sample) : Except Panic (Sample × Running) := do
  let (positions, o) ← traverse (outputPosition loader) o sample
  return ({ frames := positions.reduceOption }, o)

def outputThread (o : Running) (thread : (_ : ThreadId) × List Types.Sample) :
    Except Panic (Thread × Running) := do
  let (samples, o) ← traverse (outputSample loader) o thread.2
  return ({ threadId := thread.1, samples }, o)

def output (o : Running) (profile : InputProfile) : Except Panic (Profile × Running) := do
  let (threads, o) ← traverse (outputThread loader) o profile.threads.entries
  return ({
    threads
    modules := o.moduleIndex.vec.map Module.ofModuleInfo
    frames := o.framesIndex.vec }, o)

end Outputter

end Vignette
