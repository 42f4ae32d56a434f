import Vignette.Library.HashMap
import Vignette.Output.Outputter
import Vignette.Sampler.UnwindLaws

/-! A profiling session: the samples of each thread, from the first to the last. -/

namespace Vignette

open Library

/-- `vignette::Session`.  A thread is only in the map with its first sample. -/
structure Session where
  threads : AList fun _ : ThreadId => List Types.Sample
  nonempty : ∀ thread samples, threads.lookup thread = some samples → samples ≠ []

def Profiler.session : Session where
  threads := ∅
  nonempty := by simp

namespace Session

def sampleThread (session : Session) (thread : ThreadId) (sample : Types.Sample) : Session where
  threads := pushAt session.threads thread sample
  nonempty other _ := lookup_pushAt_ne_nil (session.nonempty other)

def finish (session : Session) : InputProfile where
  threads := session.threads

def samplesOf (session : Session) (thread : ThreadId) : List Types.Sample :=
  valuesAt session.threads thread

@[simp] theorem samplesOf_session (thread : ThreadId) : Profiler.session.samplesOf thread = [] :=
  valuesAt_empty thread

@[simp] theorem samplesOf_sampleThread (session : Session) (thread : ThreadId)
    (sample : Types.Sample) :
    (session.sampleThread thread sample).samplesOf thread = session.samplesOf thread ++ [sample] :=
  valuesAt_pushAt session.threads thread sample

theorem samplesOf_sampleThread_of_ne {session : Session} {thread other : ThreadId}
    (sample : Types.Sample) (h : other ≠ thread) :
    (session.sampleThread thread sample).samplesOf other = session.samplesOf other :=
  valuesAt_pushAt_of_ne sample h

theorem mem_finish_iff {session : Session} {thread : ThreadId} :
    thread ∈ session.finish.threads ↔ session.samplesOf thread ≠ [] := by
  rw [finish, ← AList.lookup_isSome, samplesOf, valuesAt]
  cases h : session.threads.lookup thread with
  | none => simp
  | some samples => simpa using session.nonempty thread samples h

variable {Context Cursor : Type} {lib : Libunwind Context Cursor}

theorem length_sampleCallback_le {context : Context} {sample : Types.Sample}
    (h : sampleCallback lib context = .ok sample) : sample.length ≤ 150 := by
  rw [sampleCallback] at h
  split at h
  · rename_i hunwind
    cases h
    exact LibunwindUnwinder.length_unwind_le hunwind
  · cases h

end Session

end Vignette
