import Vignette.Export.Attribution
import Vignette.Export.Fidelity
import Vignette.Sampler.SampleOnce

/-! From the contexts at which threads are stopped to the file for speedscope. -/

namespace Vignette.Pipeline

open Library ModuleCache Output Outputter Resolve Speedscope

variable {FatObject Object SymCache : Type}

section Program

variable (symbolic : Symbolic FatObject Object SymCache) (store : SymbolStore)
  (symbolRoot : String) (iteration : Iteration (Option ThreadId) (List (List Nat)))
  (locate : Locate)

end Program

variable (symbolic : Symbolic FatObject Object SymCache) (store : SymbolStore)
  (symbolRoot : String) (S : Blocks UInt64 ModuleInfo)

variable {symbolic : Symbolic FatObject Object SymCache} {store : SymbolStore}
  {symbolRoot : String} {S : Blocks UInt64 ModuleInfo} {locate : Locate}

section Run

open Handshake Profiling SampleOnce

variable {C Cursor : Type} {lib : Libunwind C Cursor} {own : ThreadId} {debugAssertions : Bool}
  {s₀ s : Profiling.State C} {main₀ main : Main}
  {steps : List ((Profiling.State C × Main) × Option (Label C Types.Sample))}

end Run

end Vignette.Pipeline
