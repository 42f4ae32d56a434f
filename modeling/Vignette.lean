import Vignette.Library.Traverse
import Vignette.Library.Index
import Vignette.Library.Blocks
import Vignette.Library.System
import Vignette.ModuleCache.Mac
import Vignette.ModuleCache.Transparency
import Vignette.ModuleCache.Invariant
import Vignette.ModuleCache.Contents
import Vignette.Output.Repetition
import Vignette.Output.Failures
import Vignette.Sampler.Ownership
import Vignette.Sampler.Release
import Vignette.Sampler.Blocking
import Vignette.Sampler.Interrupts
import Vignette.Sampler.Progress
import Vignette.Sampler.SelfCall
import Vignette.Sampler.Messages
import Vignette.Sampler.Profiling
import Vignette.Sampler.SampleOnce
import Vignette.Sampler.UnwindBounds
import Vignette.Sampler.MacSession
import Vignette.Sampler.Delivery
import Vignette.Export.Plain
import Vignette.Export.Fidelity
import Vignette.Export.Conversion
import Vignette.Export.Loading
import Vignette.Export.Attribution
import Vignette.Export.SymbolWriting
import Vignette.Export.Pipeline
import Vignette.Export.SymbolStore
