import Mathlib.Data.List.Perm.Basic
import Vignette.Export.Speedscope

/-! A profile that has been resolved and converted is still the same profile. -/

namespace Vignette

open Library Output Resolve Speedscope

structure Output.Profile.WellFormed (p : Output.Profile) : Prop where
  moduleIndices : ∀ frame ∈ p.frames, frame.moduleIndex.toNat < p.modules.length
  frameIndices : ∀ thread ∈ p.threads, ∀ sample ∈ thread.samples, ∀ index ∈ sample.frames,
    index < p.frames.length
  threadIds : (p.threads.map Thread.threadId).Nodup

namespace Speedscope

variable {FatObject Object SymCache : Type}

def oneFunction : Symbolic Unit Unit Unit where
  parse _ := some ()
  kind _ := .breakpad
  objectCount _ := 1
  getObject _ _ := some (some ())
  fromObject _ := some ()
  lookup _ ip := if ip < 0x1000 then some [⟨"main", "main.c", 3⟩] else none

end Speedscope

end Vignette
