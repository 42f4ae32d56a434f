import Mathlib.Logic.Function.Basic
import Vignette.Library.Progress
import Vignette.Sampler.Mac

/-! `suspend_and_resume_thread` of macOS in a process in which any thread may call it at any
time, of any other.  There is no state that the calls share but the threads themselves. -/

namespace Vignette.Suspension

open Library Mac
open Function (update update_self update_of_ne)

inductive CallPc (C T : Type)
  | suspend
  | getState
  | callback (context : C)
  | resume (context : C) (results : T)

inductive Call (C T : Type)
  /-- Nothing; with the target and the outcome of its last call. -/
  | outside (last : Option (ThreadId × Except Panic T))
  /-- At a step that it may have `entered`. -/
  | inside (target : ThreadId) (callback : C → Except Panic T) (pc : CallPc C T) (entered : Bool)

structure Thread (C T : Type) where
  live : Bool
  suspendCount : Nat
  registers : C
  call : Call C T

structure Process (C T : Type) where
  thread : ThreadId → Thread C T

variable {C T : Type}

def Thread.Runs (th : Thread C T) : Prop := th.live = true ∧ th.suspendCount = 0

namespace CallPc

def suspended : CallPc C T → Bool
  | .suspend => false
  | _ => true

def inKernel : CallPc C T → Bool
  | .callback _ => false
  | _ => true

def made : CallPc C T → List MachCall
  | .suspend => [.suspend]
  | .getState | .callback _ => [.suspend, .getState]
  | .resume _ _ => [.suspend, .getState, .resume]

def Reads (callback : C → Except Panic T) (registers : C) : CallPc C T → Prop
  | .suspend | .getState => True
  | .callback context => registers = context
  | .resume context results => registers = context ∧ callback context = .ok results

end CallPc

/-- What the kernel makes of one step of a call: its answer, and how often the target is
then suspended.  A Mach call that fails does nothing. -/
inductive Effect : CallPc C T → Thread C T → Int32 → Nat → Prop
  | suspend {th} : th.live = true → Effect .suspend th KERN_SUCCESS (th.suspendCount + 1)
  | getState {th} : th.live = true → Effect .getState th KERN_SUCCESS th.suspendCount
  | callback {th context} : Effect (.callback context) th KERN_SUCCESS th.suspendCount
  | resume {th context results n} : th.live = true → th.suspendCount = n + 1 →
      Effect (.resume context results) th KERN_SUCCESS n
  | fail {pc th r} : pc.inKernel = true → r ≠ KERN_SUCCESS → Effect pc th r th.suspendCount

/-- One step of a call, by the answer of the kernel and the registers of its target. -/
def callStep (contextFits : Bool) (target : ThreadId) (callback : C → Except Panic T)
    (answer : Int32) (registers : C) : CallPc C T → Call C T
  | .suspend =>
    if answer ≠ KERN_SUCCESS then .outside (some (target, .error .unwrap))
    else .inside target callback .getState false
  | .getState =>
    if answer ≠ KERN_SUCCESS then
      .outside (some (target, .error (.assertion (toString answer))))
    else if contextFits = false then
      .outside (some (target, .error (.assertion
        "size_of::<unw_context_t>() >= size_of::<x86_thread_state64_t>()")))
    else .inside target callback (.callback registers) false
  | .callback context =>
    match callback context with
    | .error p => .outside (some (target, .error p))
    | .ok results => .inside target callback (.resume context results) false
  | .resume _ results =>
    if answer ≠ KERN_SUCCESS then .outside (some (target, .error .unwrap))
    else .outside (some (target, .ok results))

namespace Process

def setThread (s : Process C T) (u : ThreadId) (th : Thread C T) : Process C T where
  thread := update s.thread u th

def setCall (s : Process C T) (u : ThreadId) (call : Call C T) : Process C T :=
  s.setThread u { s.thread u with call }

def setCount (s : Process C T) (t : ThreadId) (n : Nat) : Process C T :=
  s.setThread t { s.thread t with suspendCount := n }

variable (s : Process C T) (u v : ThreadId)

@[simp] theorem setThread_self (th : Thread C T) : (s.setThread u th).thread u = th :=
  update_self _ _ _

theorem setThread_of_ne {u v : ThreadId} (th : Thread C T) (h : v ≠ u) :
    (s.setThread u th).thread v = s.thread v := update_of_ne h _ _

theorem setThread_same {α : Type} (field : Thread C T → α) {th : Thread C T}
    (h : field th = field (s.thread u)) :
    field ((s.setThread u th).thread v) = field (s.thread v) := by
  by_cases hv : v = u
  · rw [hv, setThread_self, h]
  · rw [setThread_of_ne s th hv]

@[simp] theorem setCall_call (call : Call C T) :
    ((s.setCall u call).thread v).call = if v = u then call else (s.thread v).call := by
  by_cases h : v = u
  · simp [h, setCall]
  · rw [setCall, setThread_of_ne s _ h, if_neg h]

@[simp] theorem setCall_suspendCount (call : Call C T) :
    ((s.setCall u call).thread v).suspendCount = (s.thread v).suspendCount :=
  setThread_same s u v Thread.suspendCount rfl

@[simp] theorem setCall_live (call : Call C T) :
    ((s.setCall u call).thread v).live = (s.thread v).live :=
  setThread_same s u v Thread.live rfl

@[simp] theorem setCall_registers (call : Call C T) :
    ((s.setCall u call).thread v).registers = (s.thread v).registers :=
  setThread_same s u v Thread.registers rfl

@[simp] theorem setCount_suspendCount (n : Nat) :
    ((s.setCount u n).thread v).suspendCount = if v = u then n else (s.thread v).suspendCount := by
  by_cases h : v = u
  · simp [h, setCount]
  · rw [setCount, setThread_of_ne s _ h, if_neg h]

@[simp] theorem setCount_call (n : Nat) : ((s.setCount u n).thread v).call = (s.thread v).call :=
  setThread_same s u v Thread.call rfl

@[simp] theorem setCount_live (n : Nat) : ((s.setCount u n).thread v).live = (s.thread v).live :=
  setThread_same s u v Thread.live rfl

@[simp] theorem setCount_registers (n : Nat) :
    ((s.setCount u n).thread v).registers = (s.thread v).registers :=
  setThread_same s u v Thread.registers rfl

end Process

inductive Label (C T : Type)
  | spawn (u : ThreadId) (registers : C)
  | exit (u : ThreadId)
  /-- A thread runs code of its own. -/
  | run (u : ThreadId) (registers : C)
  | call (u target : ThreadId) (callback : C → Except Panic T)
  /-- The call of a thread enters its next step. -/
  | enter (u : ThreadId)
  /-- The step is over, with the answer of the kernel. -/
  | sampler (u : ThreadId) (answer : Int32)

def Label.thread : Label C T → ThreadId
  | .spawn u _ | .exit u | .run u _ | .call u _ _ | .enter u | .sampler u _ => u

/-- A thread that is suspended runs no code; but a Mach call that it has entered before goes on
in the kernel. -/
inductive Step (contextFits debugAssertions : Bool) : Process C T → Label C T → Process C T → Prop
  | spawn {s u registers} : (s.thread u).live = false →
      Step contextFits debugAssertions s (.spawn u registers)
        (s.setThread u { live := true, suspendCount := 0, registers, call := .outside none })
  | exit {s u last} : (s.thread u).Runs → (s.thread u).call = .outside last →
      Step contextFits debugAssertions s (.exit u)
        (s.setThread u { s.thread u with live := false })
  | run {s u} (registers : C) : (s.thread u).Runs →
      Step contextFits debugAssertions s (.run u registers)
        (s.setThread u { s.thread u with registers })
  | refuse {s u last t f} : (s.thread u).Runs → (s.thread u).call = .outside last →
      t = u ∧ debugAssertions = true →
      Step contextFits debugAssertions s (.call u t f)
        (s.setCall u (.outside (some (t, .error (.assertion "Can't suspend sampler itself!")))))
  | call {s u last t f} : (s.thread u).Runs → (s.thread u).call = .outside last →
      ¬(t = u ∧ debugAssertions = true) →
      Step contextFits debugAssertions s (.call u t f) (s.setCall u (.inside t f .suspend false))
  | enter {s u t f pc} : (s.thread u).Runs → (s.thread u).call = .inside t f pc false →
      Step contextFits debugAssertions s (.enter u) (s.setCall u (.inside t f pc true))
  | sampler {s u t f pc r n} : (s.thread u).call = .inside t f pc true →
      pc.inKernel = true ∨ (s.thread u).Runs → Effect pc (s.thread t) r n →
      Step contextFits debugAssertions s (.sampler u r)
        ((s.setCount t n).setCall u (callStep contextFits t f r (s.thread t).registers pc))

def Initial (s : Process C T) : Prop :=
  ∀ u, (s.thread u).suspendCount = 0 ∧ (s.thread u).call = .outside none

def suspension (C T : Type) (contextFits debugAssertions : Bool) :
    System (Process C T) (Label C T) where
  init := Initial
  step := Step contextFits debugAssertions

end Vignette.Suspension
