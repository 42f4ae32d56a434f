import Mathlib.Logic.Function.Basic
import Vignette.Library.Loop
import Vignette.Library.System
import Vignette.Types

/-! `suspend_and_resume_thread` and `sigprof_handler` as they run side by side, one
access to the shared state at a time.  `C` is the type of contexts, and `T` that of the
callback's results. -/

namespace Vignette.Handshake

open Library
open Function (update update_of_ne)

abbrev PosixSemaphore := Nat

abbrev Errno := Int32

def EINTR : Errno := 4

namespace PosixSemaphore

/-- `sem_wait`, which may be interrupted before it takes from the count; `none` while it
waits. -/
def wait (sem : PosixSemaphore) (interrupted : Bool) : Option (Except Errno PosixSemaphore) :=
  if interrupted then some (.error EINTR)
  else
    match sem with
    | 0 => none
    | n + 1 => some (.ok n)

def waitTurn (waits : Nat → Except Errno PosixSemaphore) (i : Nat) :
    Turn Nat (Except Errno PosixSemaphore) :=
  match waits i with
  | .error err => if err = EINTR then .again (i + 1) else .stop (.error err)
  | .ok sem => .stop (.ok sem)

def waitThroughIntr (waits : Nat → Except Errno PosixSemaphore) (fuel : Nat) :
    Option (Except Errno PosixSemaphore) := loop (waitTurn waits) fuel 0

end PosixSemaphore

structure SharedState (C : Type) where
  msg2 : Option PosixSemaphore
  msg3 : Option PosixSemaphore
  msg4 : Option PosixSemaphore
  context : Option C

def SharedState.cleared {C : Type} : SharedState C := ⟨none, none, none, none⟩

inductive HandlerPc
  | copyContext
  | postMsg2
  | waitMsg3
  | postMsg4
  | tail
  | aborted
  deriving DecidableEq

/-- A run of `sigprof_handler`, with the context that the kernel passed to it and the
round of the call whose signal it answers. -/
structure Handler (C : Type) where
  pc : HandlerPc
  context : C
  round : Nat

structure Thread (C : Type) where
  live : Bool
  pending : Option Nat
  handler : Option (Handler C)

namespace Thread

variable {C : Type}

def spawned : Thread C := { live := true, pending := none, handler := none }

def exited : Thread C := { live := false, pending := none, handler := none }

def entered (context : C) (round : Nat) : Thread C :=
  { live := true, pending := none, handler := some { pc := .copyContext, context, round } }

/-- `tgkill`, which does nothing to a thread that no longer exists; a signal that is
already pending is not queued again. -/
def sendSignal (th : Thread C) (round : Nat) : Thread C :=
  if th.live then { th with pending := th.pending <|> some round } else th

theorem sendSignal_of_live {th : Thread C} {round : Nat} (h : th.live = true) :
    th.sendSignal round = { th with pending := th.pending <|> some round } := if_pos h

theorem sendSignal_of_gone {th : Thread C} {round : Nat} (h : th.live = false) :
    th.sendSignal round = th := if_neg (by simp [h])

end Thread

inductive CallPc (C T : Type)
  | resetMsg2
  | resetMsg3
  | resetMsg4
  | resetContext
  | sendSignal
  | waitMsg2
  | readContext
  | callback (context : C)
  | postMsg3 (results : T)
  | waitMsg4 (results : T)
  | clearMsg2 (results : T)
  | clearMsg3 (results : T)
  | clearMsg4 (results : T)
  | clearContext (results : T)

inductive Sampler (C T : Type)
  /-- Outside every call, with the target and the outcome of the last one. -/
  | outside (last : Option (ThreadId × Except Panic T))
  | inside (target : ThreadId) (callback : C → Except Panic T) (pc : CallPc C T)

structure State (C T : Type) where
  shared : SharedState C
  threads : ThreadId → Thread C
  sampler : Sampler C T
  /-- The threads that `thread_iterator` has returned so far. -/
  handles : List ThreadId
  /-- The number of calls begun. -/
  round : Nat

variable {C T : Type}

/-- One access of the handler; `none` while it waits. -/
def handlerStep (shared : SharedState C) (h : Handler C) :
    Option (SharedState C × Option (Handler C)) :=
  match h.pc with
  | .copyContext => some ({ shared with context := some h.context }, some { h with pc := .postMsg2 })
  | .postMsg2 =>
    match shared.msg2 with
    | none => some (shared, some { h with pc := .aborted })
    | some n => some ({ shared with msg2 := some (n + 1) }, some { h with pc := .waitMsg3 })
  | .waitMsg3 =>
    match shared.msg3 with
    | none => some (shared, some { h with pc := .aborted })
    | some 0 => none
    | some (n + 1) => some ({ shared with msg3 := some n }, some { h with pc := .postMsg4 })
  | .postMsg4 =>
    match shared.msg4 with
    | none => some (shared, some { h with pc := .aborted })
    | some n => some ({ shared with msg4 := some (n + 1) }, some { h with pc := .tail })
  | .tail => some (shared, none)
  | .aborted => none

inductive Move (C T : Type)
  | goto (pc : CallPc C T)
  | leave (outcome : Except Panic T)

/-- One access of the call; `none` while it waits. -/
def callStep (callback : C → Except Panic T) (shared : SharedState C) :
    CallPc C T → Option (SharedState C × Move C T)
  | .resetMsg2 => some ({ shared with msg2 := some 0 }, .goto .resetMsg3)
  | .resetMsg3 => some ({ shared with msg3 := some 0 }, .goto .resetMsg4)
  | .resetMsg4 => some ({ shared with msg4 := some 0 }, .goto .resetContext)
  | .resetContext => some ({ shared with context := none }, .goto .sendSignal)
  | .sendSignal => some (shared, .goto .waitMsg2)
  | .waitMsg2 =>
    match shared.msg2 with
    | none => some (shared, .leave (.error .unwrap))
    | some 0 => none
    | some (n + 1) => some ({ shared with msg2 := some n }, .goto .readContext)
  | .readContext =>
    match shared.context with
    | none => some (shared, .leave (.error (.expect "valid context")))
    | some context => some (shared, .goto (.callback context))
  | .callback context =>
    match callback context with
    | .error p => some (shared, .leave (.error p))
    | .ok results => some (shared, .goto (.postMsg3 results))
  | .postMsg3 results =>
    match shared.msg3 with
    | none => some (shared, .leave (.error .unwrap))
    | some n => some ({ shared with msg3 := some (n + 1) }, .goto (.waitMsg4 results))
  | .waitMsg4 results =>
    match shared.msg4 with
    | none => some (shared, .leave (.error .unwrap))
    | some 0 => none
    | some (n + 1) => some ({ shared with msg4 := some n }, .goto (.clearMsg2 results))
  | .clearMsg2 results => some ({ shared with msg2 := none }, .goto (.clearMsg3 results))
  | .clearMsg3 results => some ({ shared with msg3 := none }, .goto (.clearMsg4 results))
  | .clearMsg4 results => some ({ shared with msg4 := none }, .goto (.clearContext results))
  | .clearContext results => some ({ shared with context := none }, .leave (.ok results))

/-- `send_signal` is the one step of a call that reaches into its target. -/
def CallPc.effect : CallPc C T → Nat → Thread C → Thread C
  | .sendSignal, round, th => th.sendSignal round
  | _, _, th => th

inductive Label (C T : Type)
  | spawn (u : ThreadId)
  | exit (u : ThreadId)
  /-- `thread_iterator` returns a thread. -/
  | list (u : ThreadId)
  | call (target : ThreadId) (callback : C → Except Panic T)
  | sampler
  | deliver (u : ThreadId) (context : C)
  | handler (u : ThreadId)
  /-- A turn of `wait_through_intr`, in the sampler or in a handler, that goes on to the next. -/
  | interrupt

/-- The process with the sampler on the thread `own`, whose code cannot go on while a
handler runs on that thread. -/
inductive Step (own : ThreadId) (debugAssertions : Bool) :
    State C T → Label C T → State C T → Prop
  | spawn {s u} : (s.threads u).live = false →
      Step own debugAssertions s (.spawn u)
        { s with threads := update s.threads u .spawned }
  | exit {s u} : u ≠ own → (s.threads u).live = true → (s.threads u).handler = none →
      Step own debugAssertions s (.exit u)
        { s with threads := update s.threads u .exited }
  | list {s u} : (s.threads u).live = true →
      Step own debugAssertions s (.list u) { s with handles := u :: s.handles }
  | refuse {s last t f} : s.sampler = .outside last → (s.threads own).handler = none →
      t ∈ s.handles → t = own ∧ debugAssertions = true →
      Step own debugAssertions s (.call t f)
        { s with sampler := .outside (some (t, .error (.assertion "Can't suspend sampler itself!"))) }
  | call {s last t f} : s.sampler = .outside last → (s.threads own).handler = none →
      t ∈ s.handles → ¬(t = own ∧ debugAssertions = true) →
      Step own debugAssertions s (.call t f)
        { s with sampler := .inside t f .resetMsg2, round := s.round + 1 }
  | goto {s t f pc shared pc'} : s.sampler = .inside t f pc → (s.threads own).handler = none →
      callStep f s.shared pc = some (shared, .goto pc') →
      Step own debugAssertions s .sampler { s with
        shared, sampler := .inside t f pc',
        threads := update s.threads t (pc.effect s.round (s.threads t)) }
  | leave {s t f pc shared outcome} : s.sampler = .inside t f pc →
      (s.threads own).handler = none →
      callStep f s.shared pc = some (shared, .leave outcome) →
      Step own debugAssertions s .sampler
        { s with shared, sampler := .outside (some (t, outcome)) }
  | deliver {s u round} (context : C) : (s.threads u).live = true →
      (s.threads u).pending = some round → (s.threads u).handler = none →
      Step own debugAssertions s (.deliver u context)
        { s with threads := update s.threads u (.entered context round) }
  | handler {s u h shared h'} : (s.threads u).handler = some h →
      handlerStep s.shared h = some (shared, h') →
      Step own debugAssertions s (.handler u)
        { s with shared, threads := update s.threads u { s.threads u with handler := h' } }
  | interrupt {s} : Step own debugAssertions s .interrupt s

structure Initial (own : ThreadId) (s : State C T) : Prop where
  shared : s.shared = .cleared
  sampler : s.sampler = .outside none
  handles : s.handles = []
  live : (s.threads own).live = true
  idle : ∀ u, (s.threads u).pending = none ∧ (s.threads u).handler = none

def calm (C T : Type) : State C T where
  shared := .cleared
  threads _ := .spawned
  sampler := .outside none
  handles := []
  round := 0

theorem calm_initial (own : ThreadId) : Initial own (calm C T) :=
  ⟨rfl, rfl, rfl, rfl, fun _ => ⟨rfl, rfl⟩⟩

def handshake (C T : Type) (own : ThreadId) (debugAssertions : Bool) :
    System (State C T) (Label C T) where
  init := Initial own
  step := Step own debugAssertions

theorem forall_update {P : Thread C → Prop} {threads : ThreadId → Thread C} {u v : ThreadId}
    {th : Thread C} (hth : P th) (hv : v ≠ u → P (threads v)) : P (update threads u th v) := by
  by_cases hvu : v = u
  · subst hvu
    simpa using hth
  · simpa [update_of_ne hvu] using hv hvu

def DeadIdle (s : State C T) : Prop :=
  ∀ u, (s.threads u).live = false → (s.threads u).handler = none

theorem Initial.deadIdle {own : ThreadId} {s : State C T} (h : Initial own s) : DeadIdle s :=
  fun u _ => (h.idle u).2

theorem CallPc.effect_handler (pc : CallPc C T) (round : Nat) (th : Thread C) :
    (pc.effect round th).handler = th.handler ∧ (pc.effect round th).live = th.live := by
  cases pc with
  | sendSignal => cases hl : th.live <;> simp [CallPc.effect, Thread.sendSignal, hl]
  | _ => exact ⟨rfl, rfl⟩

theorem DeadIdle.step {own : ThreadId} {debugAssertions : Bool} {s s' : State C T}
    {l : Label C T} (h : DeadIdle s) (hstep : Step own debugAssertions s l s') : DeadIdle s' := by
  intro v
  let P : Thread C → Prop := fun th => th.live = false → th.handler = none
  cases hstep with
  | spawn => exact forall_update (P := P) (fun _ => rfl) fun _ => h v
  | exit => exact forall_update (P := P) (fun _ => rfl) fun _ => h v
  | @goto t f pc =>
    have he := pc.effect_handler s.round (s.threads t)
    exact forall_update (P := P) (fun hl => he.1.trans (h t (he.2.symm.trans hl))) fun _ => h v
  | deliver => exact forall_update (P := P) (fun hl => by cases hl) fun _ => h v
  | @handler u _ _ _ hh =>
    exact forall_update (P := P) (fun hl => by simp [h u hl] at hh) fun _ => h v
  | _ => exact h v

end Vignette.Handshake
