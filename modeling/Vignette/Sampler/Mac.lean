import Mathlib.Tactic.Common
import Vignette.Types

namespace Vignette.Mac

def KERN_SUCCESS : Int32 := 0

/-- How the Mach calls on a target answer one call of the sampler, and whether the
sizes of the context types are right. -/
structure Target (Context : Type) where
  isCurrentThread : Bool
  suspend : Int32
  getState : Int32 × Context
  contextFits : Bool
  resume : Int32

inductive MachCall
  | suspend
  | getState
  | resume
  deriving DecidableEq

variable {Context T : Type}

/-- The outcome of `suspend_and_resume_thread`, and the Mach calls that it made. -/
def suspendAndResumeThread (debugAssertions : Bool) (thread : Target Context)
    (callback : Context → Except Panic T) : Except Panic T × List MachCall :=
  if debugAssertions = true ∧ thread.isCurrentThread = true then
    (.error (.assertion "Can't suspend sampler itself!"), [])
  else if thread.suspend ≠ KERN_SUCCESS then (.error .unwrap, [.suspend])
  else if thread.getState.1 ≠ KERN_SUCCESS then
    (.error (.assertion (toString thread.getState.1)), [.suspend, .getState])
  else if thread.contextFits = false then
    (.error (.assertion "size_of::<unw_context_t>() >= size_of::<x86_thread_state64_t>()"),
      [.suspend, .getState])
  else
    match callback thread.getState.2 with
    | .error p => (.error p, [.suspend, .getState])
    | .ok results =>
      if thread.resume ≠ KERN_SUCCESS then (.error .unwrap, [.suspend, .getState, .resume])
      else (.ok results, [.suspend, .getState, .resume])

def Suspends (debugAssertions : Bool) (thread : Target Context) : Prop :=
  ¬(debugAssertions = true ∧ thread.isCurrentThread = true) ∧ thread.suspend = KERN_SUCCESS

structure ReachesResume (thread : Target Context) (callback : Context → Except Panic T) : Prop where
  getState : thread.getState.1 = KERN_SUCCESS
  contextFits : thread.contextFits = true
  callback : ∃ results, callback thread.getState.2 = .ok results

theorem resume_called_iff {debugAssertions : Bool} {thread : Target Context}
    {callback : Context → Except Panic T} (h : Suspends debugAssertions thread) :
    MachCall.resume ∈ (suspendAndResumeThread debugAssertions thread callback).2 ↔
      ReachesResume thread callback := by
  rw [suspendAndResumeThread, if_neg h.1, if_neg (not_not_intro h.2)]
  constructor
  · intro hmem
    split at hmem
    · simp at hmem
    · rename_i hstate
      split at hmem
      · simp at hmem
      · rename_i hfits
        refine ⟨not_not.mp hstate, by simpa using hfits, ?_⟩
        cases hcb : callback thread.getState.2 with
        | error p => simp [hcb] at hmem
        | ok results => exact ⟨results, rfl⟩
  · intro ⟨hstate, hfits, results, hcb⟩
    rw [if_neg (not_not_intro hstate), if_neg (by simp [hfits]), hcb]
    by_cases hresume : thread.resume ≠ KERN_SUCCESS <;> simp [hresume]

end Vignette.Mac
