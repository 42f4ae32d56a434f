import Mathlib.Data.Set.Card
import Vignette.Sampler.Suspension

/-! How often the threads of a process are suspended while its other threads sample them. -/

namespace Vignette.Suspension

open Library Mac
open Library.System (advanced)

variable {C T : Type}

def Call.Holds (t : ThreadId) : Call C T → Prop
  | .inside target _ pc _ => target = t ∧ pc.suspended = true
  | .outside _ => False

def holders (s : Process C T) (t : ThreadId) : Set ThreadId := {u | (s.thread u).call.Holds t}

def Call.panicked : Call C T → Bool
  | .outside (some (_, .error _)) => true
  | _ => false

def abandons (contextFits : Bool) (t : ThreadId) (s : Process C T) : Label C T → Bool
  | .sampler u answer =>
    match (s.thread u).call with
    | .inside target f pc _ => decide (target = t) && pc.suspended &&
        (callStep contextFits target f answer (s.thread target).registers pc).panicked
    | .outside _ => false
  | _ => false

def abandoned (contextFits : Bool) (t : ThreadId) (steps : List (Process C T × Label C T)) : Nat :=
  advanced (abandons contextFits t) steps

inductive Advance (contextFits : Bool) (t : ThreadId) (f : C → Except Panic T) (th : Thread C T) :
    CallPc C T → Int32 → Nat → Call C T → Prop
  | suspended {r} : th.live = true →
      Advance contextFits t f th .suspend r (th.suspendCount + 1) (.inside t f .getState false)
  | refused {r} : Advance contextFits t f th .suspend r th.suspendCount (.outside (some (t, .error .unwrap)))
  | read {r} : contextFits = true →
      Advance contextFits t f th .getState r th.suspendCount
        (.inside t f (.callback th.registers) false)
  | called {r c results} : f c = .ok results →
      Advance contextFits t f th (.callback c) r th.suspendCount (.inside t f (.resume c results) false)
  | abandoned {pc r p} : pc.suspended = true →
      Advance contextFits t f th pc r th.suspendCount (.outside (some (t, .error p)))
  | resumed {c results n} : th.suspendCount = n + 1 →
      Advance contextFits t f th (.resume c results) KERN_SUCCESS n (.outside (some (t, .ok results)))

theorem Effect.advance (contextFits : Bool) (t : ThreadId) (f : C → Except Panic T) {th : Thread C T}
    {pc : CallPc C T} {r : Int32} {n : Nat} (h : Effect pc th r n) :
    Advance contextFits t f th pc r n (callStep contextFits t f r th.registers pc) := by
  cases h with
  | suspend hlive => exact .suspended hlive
  | getState =>
    cases contextFits with
    | false => exact .abandoned rfl
    | true => exact .read rfl
  | @callback _ c =>
    cases hf : f c with
    | error p =>
      simp only [callStep, hf]
      exact .abandoned rfl
    | ok results =>
      simp only [callStep, hf]
      exact .called hf
  | resume _ hn => exact .resumed hn
  | fail hkernel hr =>
    cases pc with
    | suspend =>
      simp only [callStep, if_pos hr]
      exact .refused
    | callback => cases hkernel
    | _ =>
      simp only [callStep, if_pos hr]
      exact .abandoned rfl

section Steps

variable {contextFits debugAssertions : Bool} {s s' : Process C T} {l : Label C T} {t u : ThreadId}
  {call : Call C T}

theorem mem_holders : u ∈ holders s t ↔ (s.thread u).call.Holds t := Iff.rfl

theorem holders_congr (h : ∀ v, (s'.thread v).call.Holds t ↔ (s.thread v).call.Holds t) :
    holders s' t = holders s t := Set.ext h

theorem holders_setCall_of_holds (h : call.Holds t) :
    holders (s.setCall u call) t = insert u (holders s t) := by
  ext v
  by_cases hv : v = u <;> simp [mem_holders, hv, h]

theorem holders_setCall_of_not_holds (h : ¬call.Holds t) :
    holders (s.setCall u call) t = holders s t \ {u} := by
  ext v
  by_cases hv : v = u <;> simp [mem_holders, hv, h]

theorem holders_setThread_same {th : Thread C T}
    (h : th.call.Holds t ↔ (s.thread u).call.Holds t) :
    holders (s.setThread u th) t = holders s t := by
  refine holders_congr fun v => ?_
  by_cases hv : v = u
  · rw [hv, Process.setThread_self, h]
  · rw [Process.setThread_of_ne s th hv]

theorem holders_setCall_same (h : call.Holds t ↔ (s.thread u).call.Holds t) :
    holders (s.setCall u call) t = holders s t := holders_setThread_same h

@[simp] theorem holders_setCount (n : Nat) : holders (s.setCount u n) t = holders s t :=
  holders_congr fun v => by simp

theorem abandons_sampler {f : C → Except Panic T} {pc : CallPc C T} {entered : Bool}
    (hcall : (s.thread u).call = .inside t f pc entered) (v : ThreadId) (r : Int32) :
    abandons contextFits v s (.sampler u r) = (decide (t = v) && pc.suspended &&
      (callStep contextFits t f r (s.thread t).registers pc).panicked) := by
  simp only [abandons, hcall]

theorem abandoned_snoc (t : ThreadId) (steps : List (Process C T × Label C T)) (s : Process C T)
    (l : Label C T) : abandoned contextFits t (steps ++ [(s, l)]) =
      abandoned contextFits t steps + (abandons contextFits t s l).toNat :=
  System.advanced_snoc _ _ _ _

/-- The thread's count counts the calls that hold it, and those that never resumed it. -/
def Counted (s : Process C T) (t : ThreadId) (abandoned : Nat) : Prop :=
  ((s.thread t).suspendCount : ℕ∞) = (holders s t).encard + abandoned

theorem Counted.setThread {k : Nat} {th : Thread C T} (h : Counted s t k)
    (hcount : th.suspendCount = (s.thread u).suspendCount)
    (hholds : th.call.Holds t ↔ (s.thread u).call.Holds t) : Counted (s.setThread u th) t k := by
  rw [Counted, Process.setThread_same s u t Thread.suspendCount hcount,
    holders_setThread_same hholds]
  exact h

theorem Counted.setCount_of_ne {k n : Nat} (h : Counted s t k) (hu : t ≠ u) :
    Counted (s.setCount u n) t k := by
  rw [Counted, Process.setCount_suspendCount, if_neg hu, holders_setCount]
  exact h

theorem Counted.suspended {k : Nat} (h : Counted s t k) (hu : (s.thread u).call.Holds t ∨ 0 < k) :
    (s.thread t).suspendCount ≠ 0 := by
  intro hcount
  rw [Counted, hcount, Nat.cast_zero, eq_comm, add_eq_zero, Set.encard_eq_zero] at h
  rcases hu with hu | hk
  · exact (h.1 ▸ mem_holders.mpr hu : u ∈ (∅ : Set ThreadId))
  · exact hk.ne' (by simpa using h.2)

theorem Advance.counted {f : C → Except Panic T} {pc : CallPc C T} {entered : Bool} {r : Int32}
    {n k : Nat} (h : Advance contextFits t f (s.thread t) pc r n call)
    (hcall : (s.thread u).call = .inside t f pc entered) (hk : Counted s t k) :
    Counted ((s.setCount t n).setCall u call) t (k + (pc.suspended && call.panicked).toNat) := by
  have hholds : (s.thread u).call.Holds t ↔ pc.suspended = true := by simp [hcall, Call.Holds]
  have hsame {c : Call C T} (hc : c.Holds t ↔ pc.suspended = true) :
      holders ((s.setCount t n).setCall u c) t = holders s t := by
    rw [holders_setCall_same, holders_setCount]
    rw [Process.setCount_call]
    exact hc.trans hholds.symm
  have hleft (hu : u ∈ holders s t) : (holders s t \ {u}).encard + 1 = (holders s t).encard :=
    Set.encard_sdiff_singleton_add_one hu
  rw [Counted] at hk
  rw [Counted, Process.setCall_suspendCount, Process.setCount_suspendCount, if_pos rfl]
  cases h with
  | suspended =>
    have hu : u ∉ holders s t := by simp [mem_holders, hholds, CallPc.suspended]
    rw [holders_setCall_of_holds (by simp [Call.Holds, CallPc.suspended]), holders_setCount, Set.encard_insert_of_notMem hu]
    simp [hk, CallPc.suspended, add_right_comm]
  | refused =>
    rw [hsame (by simp [Call.Holds, CallPc.suspended])]
    simp [hk, CallPc.suspended]
  | read =>
    rw [hsame (by simp [Call.Holds, CallPc.suspended])]
    simp [hk, Call.panicked]
  | called =>
    rw [hsame (by simp [Call.Holds, CallPc.suspended])]
    simp [hk, Call.panicked]
  | abandoned hpc =>
    rw [holders_setCall_of_not_holds (by simp [Call.Holds]), holders_setCount, hk,
      ← hleft (hholds.mpr hpc)]
    simp [hpc, Call.panicked, add_assoc, add_comm]
  | resumed hn =>
    rw [hn, ← hleft (hholds.mpr rfl), Nat.cast_succ, add_right_comm] at hk
    rw [holders_setCall_of_not_holds (by simp [Call.Holds]), holders_setCount]
    simpa [Call.panicked] using hk

theorem Step.call_of_ne {v : ThreadId} (hstep : Step contextFits debugAssertions s l s')
    (hv : v ≠ l.thread) : (s'.thread v).call = (s.thread v).call := by
  cases hstep with
  | spawn | exit | run => exact congrArg Thread.call (Process.setThread_of_ne s _ hv)
  | refuse | call | enter => exact (Process.setCall_call s _ v _).trans (if_neg hv)
  | @sampler u t _ _ _ n =>
    rw [Process.setCall_call, Process.setCount_call]
    exact if_neg hv

theorem Advance.holds {f : C → Except Panic T} {th : Thread C T} {pc : CallPc C T} {r : Int32} {n : Nat}
    (h : Advance contextFits t f th pc r n call) {v : ThreadId} (hv : v ≠ t) : ¬call.Holds v := by
  cases h <;> simp [Call.Holds, hv.symm]

theorem Advance.inside {f f' : C → Except Panic T} {th : Thread C T} {pc pc' : CallPc C T}
    {r : Int32} {n : Nat} {entered : Bool} {t' : ThreadId}
    (h : Advance contextFits t f th pc r n (.inside t' f' pc' entered)) : t' = t ∧ f' = f := by
  cases h <;> exact ⟨rfl, rfl⟩

theorem Advance.reads {f : C → Except Panic T} {th : Thread C T} {pc pc' : CallPc C T} {r : Int32}
    {n : Nat} {entered : Bool} (h : Advance contextFits t f th pc r n (.inside t f pc' entered))
    (hpc : pc.Reads f th.registers) : pc'.Reads f th.registers := by
  cases h with
  | suspended => trivial
  | read => rfl
  | called hf => exact ⟨hpc, hf⟩

inductive Came (contextFits debugAssertions : Bool) (s s' : Process C T) (l : Label C T)
    (u t : ThreadId) (f : C → Except Panic T) (pc : CallPc C T) : Prop
  | stayed {entered} : (s.thread u).call = .inside t f pc entered →
      Came contextFits debugAssertions s s' l u t f pc
  | begun : l = .call u t f → ¬(t = u ∧ debugAssertions = true) → pc = .suspend →
      Came contextFits debugAssertions s s' l u t f pc
  | advanced {pc₀ r n entered} : (s.thread u).call = .inside t f pc₀ true →
      (s'.thread t).registers = (s.thread t).registers →
      Advance contextFits t f (s.thread t) pc₀ r n (.inside t f pc entered) →
      Came contextFits debugAssertions s s' l u t f pc

theorem Step.came {f : C → Except Panic T} {pc : CallPc C T} {entered : Bool}
    (hstep : Step contextFits debugAssertions s l s')
    (hcall : (s'.thread u).call = .inside t f pc entered) :
    Came contextFits debugAssertions s s' l u t f pc := by
  by_cases hu : u = l.thread
  · subst hu
    cases hstep with
    | spawn | exit | refuse => simp_all [Label.thread]
    | run => exact .stayed (by simpa [Label.thread] using hcall)
    | call _ _ ht =>
      rw [Label.thread, Process.setCall_call, if_pos rfl] at hcall
      cases hcall
      exact .begun rfl ht rfl
    | enter _ hcall' =>
      rw [Label.thread, Process.setCall_call, if_pos rfl] at hcall
      cases hcall
      exact .stayed hcall'
    | @sampler v t' f' _ _ _ hcall' _ heffect =>
      rw [Label.thread, Process.setCall_call, if_pos rfl] at hcall
      have hadvance := heffect.advance contextFits t' f'
      rw [hcall] at hadvance
      obtain ⟨rfl, rfl⟩ := hadvance.inside
      exact .advanced hcall' (by simp) hadvance
  · rw [hstep.call_of_ne hu] at hcall
    exact .stayed hcall

theorem Advance.gone {f : C → Except Panic T} {th : Thread C T} {pc : CallPc C T} {r : Int32} {n : Nat}
    (h : Advance contextFits t f th pc r n call) (hlive : th.live = false) (hcount : th.suspendCount = 0) :
    n = 0 := by
  cases h with
  | suspended hlive' => simp [hlive'] at hlive
  | resumed hn => simp [hcount] at hn
  | _ => exact hcount

def Gone (s : Process C T) : Prop :=
  ∀ u, (s.thread u).live = false →
    (s.thread u).suspendCount = 0 ∧ ∃ last, (s.thread u).call = .outside last

theorem Gone.setThread {th : Thread C T} (h : Gone s)
    (hth : th.live = false → th.suspendCount = 0 ∧ ∃ last, th.call = .outside last) :
    Gone (s.setThread u th) := by
  intro v hv
  by_cases hvu : v = u
  · rw [hvu, Process.setThread_self] at hv ⊢
    exact hth hv
  · rw [Process.setThread_of_ne s th hvu] at hv ⊢
    exact h v hv

theorem Gone.setCall (h : Gone s) (hu : (s.thread u).live = true) (call : Call C T) :
    Gone (s.setCall u call) := h.setThread fun hlive => by simp [hu] at hlive

theorem Gone.step (h : Gone s) (hstep : Step contextFits debugAssertions s l s') : Gone s' := by
  cases hstep with
  | spawn => exact h.setThread fun hlive => by cases hlive
  | exit hu hcall => exact h.setThread fun _ => ⟨hu.2, _, hcall⟩
  | run _ hu => exact h.setThread fun hlive => by simp [hu.1] at hlive
  | refuse hu | call hu | enter hu => exact h.setCall hu.1 _
  | @sampler u t f pc r n hcall _ heffect =>
    have hadvance := heffect.advance contextFits t f
    have hu : (s.thread u).live = true := by
      by_contra hu
      obtain ⟨_, last, hlast⟩ := h u (by simpa using hu)
      simp [hcall] at hlast
    refine Gone.setCall (s := s.setCount t n) (h.setThread fun hlive => ?_) (by simpa using hu) _
    exact ⟨hadvance.gone hlive (h t hlive).1, (h t hlive).2⟩

structure Inv (contextFits : Bool) (steps : List (Process C T × Label C T)) (s : Process C T) :
    Prop where
  counted : ∀ t, Counted s t (abandoned contextFits t steps)
  gone : Gone s
  reads : ∀ u t f pc entered, (s.thread u).call = .inside t f pc entered →
    pc.Reads f (s.thread t).registers

variable {steps : List (Process C T × Label C T)}

theorem Initial.inv (h : Initial s) : Inv contextFits [] s where
  counted t := by
    have hnone : holders s t = ∅ :=
      Set.eq_empty_of_forall_notMem fun u => by simp [mem_holders, (h u).2, Call.Holds]
    simp [Counted, abandoned, System.advanced, hnone, (h t).1]
  gone u _ := ⟨(h u).1, none, (h u).2⟩
  reads u t f pc entered hcall := by simp [(h u).2] at hcall

theorem Step.frozen (hstep : Step contextFits debugAssertions s l s')
    (hlive : (s.thread t).live = true) (ht : (s.thread t).suspendCount ≠ 0) :
    (s'.thread t).live = true ∧ (s'.thread t).registers = (s.thread t).registers := by
  cases hstep with
  | @spawn u _ hu =>
    have htu : t ≠ u := by
      rintro rfl
      simp [hlive] at hu
    rw [Process.setThread_of_ne s _ htu]
    exact ⟨hlive, rfl⟩
  | @exit u _ hu | @run u _ hu =>
    have htu : t ≠ u := fun htu => ht (htu ▸ hu.2)
    rw [Process.setThread_of_ne s _ htu]
    exact ⟨hlive, rfl⟩
  | _ => simp [hlive]

namespace Inv

theorem live_of_suspended (h : Inv contextFits steps s) (ht : (s.thread t).suspendCount ≠ 0) :
    (s.thread t).live = true := by
  by_contra hlive
  exact ht (h.gone t (by simpa using hlive)).1

theorem counted_step (h : Inv contextFits steps s) (hstep : Step contextFits debugAssertions s l s')
    (t : ThreadId) : Counted s' t (abandoned contextFits t (steps ++ [(s, l)])) := by
  have ht := h.counted t
  rw [abandoned_snoc]
  cases hstep with
  | @spawn u _ hu =>
    obtain ⟨hcount, last, hcall⟩ := h.gone u hu
    exact ht.setThread hcount.symm (by simp [hcall, Call.Holds])
  | exit => exact ht.setThread rfl Iff.rfl
  | run => exact ht.setThread rfl Iff.rfl
  | refuse _ hcall => exact ht.setThread rfl (by simp [hcall, Call.Holds])
  | call _ hcall => exact ht.setThread rfl (by simp [hcall, Call.Holds, CallPc.suspended])
  | enter _ hcall => exact ht.setThread rfl (by simp [hcall, Call.Holds])
  | @sampler u target f pc r n hcall _ heffect =>
    have hadvance := heffect.advance contextFits target f
    rw [abandons_sampler hcall]
    by_cases htarget : t = target
    · subst htarget
      simpa using hadvance.counted hcall ht
    · refine (Counted.setCount_of_ne ?_ htarget).setThread rfl ?_
      · simpa [Ne.symm htarget] using ht
      · exact iff_of_false (hadvance.holds htarget) (by simp [hcall, Call.Holds, Ne.symm htarget])

theorem reads_kept (h : Inv contextFits steps s) (hstep : Step contextFits debugAssertions s l s')
    {f : C → Except Panic T} {pc : CallPc C T} {entered : Bool}
    (hcall : (s.thread u).call = .inside t f pc entered) : pc.Reads f (s'.thread t).registers := by
  have hreads := h.reads u t f pc entered hcall
  have hregisters (hpc : pc.suspended = true) :
      (s'.thread t).registers = (s.thread t).registers := by
    have ht := (h.counted t).suspended (u := u) (.inl (by simp [hcall, Call.Holds, hpc]))
    exact (hstep.frozen (h.live_of_suspended ht) ht).2
  cases pc with
  | suspend => trivial
  | getState => trivial
  | callback c => exact (hregisters rfl).trans hreads
  | resume c results => exact ⟨(hregisters rfl).trans hreads.1, hreads.2⟩

theorem step (h : Inv contextFits steps s) (hstep : Step contextFits debugAssertions s l s') :
    Inv contextFits (steps ++ [(s, l)]) s' where
  counted := h.counted_step hstep
  gone := h.gone.step hstep
  reads u t f pc entered hcall := by
    cases hstep.came hcall with
    | stayed hcall => exact h.reads_kept hstep hcall
    | begun _ _ hpc =>
      subst hpc
      trivial
    | advanced hcall hregisters hadvance =>
      rw [hregisters]
      exact hadvance.reads (h.reads u t f _ _ hcall)

theorem of_path {more : List (Process C T × Label C T)} (h : Inv contextFits steps s)
    (hmore : (suspension C T contextFits debugAssertions).Path (fun _ _ => True) s more s') :
    Inv contextFits (steps ++ more) s' := by
  induction hmore with
  | nil => simpa using h
  | snoc _ _ hstep ih =>
    rw [← List.append_assoc]
    exact ih.step hstep

theorem stays {more : List (Process C T × Label C T)} (h : Inv contextFits steps s)
    (ht : 0 < abandoned contextFits t steps)
    (hmore : (suspension C T contextFits debugAssertions).Path (fun _ _ => True) s more s') :
    (s'.thread t).live = true ∧ (s'.thread t).registers = (s.thread t).registers := by
  have hsuspended {k : Nat} {s : Process C T} (hk : Counted s t (abandoned contextFits t steps + k)) :
      (s.thread t).suspendCount ≠ 0 := hk.suspended (u := t) (.inr (by omega))
  induction hmore with
  | nil => exact ⟨h.live_of_suspended (hsuspended (k := 0) (h.counted t)), rfl⟩
  | @snoc more s' l s'' hmore _ hstep ih =>
    have hcounted := (h.of_path hmore).counted t
    rw [abandoned, System.advanced, List.countP_append] at hcounted
    have hlast := hstep.frozen ih.1 (hsuspended hcounted)
    exact ⟨hlast.1, hlast.2.trans ih.2⟩

end Inv

end Steps

section Runs

variable {contextFits debugAssertions : Bool} {s₀ s : Process C T}
  {steps : List (Process C T × Label C T)}

/-- However many threads sample at once, each other also: a thread is suspended once for each
call that is between its suspension and its resumption, and once for each that has panicked
there.  Until it is resumed it keeps the registers that the callback is given, and one that a
panic has left suspended keeps them for good. -/
theorem suspended_by_calls (hinit : Initial s₀)
    (h : (suspension C T contextFits debugAssertions).Path (fun _ _ => True) s₀ steps s)
    (t : ThreadId) :
    Counted s t (abandoned contextFits t steps) ∧
    (∀ u f pc entered, (s.thread u).call = .inside t f pc entered → pc.suspended = true →
      pc.Reads f (s.thread t).registers ∧
      ∀ l s', Step contextFits debugAssertions s l s' →
        (s'.thread t).live = true ∧ (s'.thread t).registers = (s.thread t).registers) ∧
    (0 < abandoned contextFits t steps → ∀ more s',
      (suspension C T contextFits debugAssertions).Path (fun _ _ => True) s more s' →
        (s'.thread t).live = true ∧ (s'.thread t).registers = (s.thread t).registers) := by
  have hinv : Inv contextFits steps s := by simpa using hinit.inv.of_path h
  refine ⟨hinv.counted t, fun u f pc entered hcall hpc => ?_, fun ht more s' => hinv.stays ht⟩
  have ht := (hinv.counted t).suspended (u := u) (.inl (by simp [hcall, Call.Holds, hpc]))
  exact ⟨hinv.reads u t f pc entered hcall, fun l s' hstep =>
    hstep.frozen (hinv.live_of_suspended ht) ht⟩

theorem passed (hinit : Initial s₀)
    (h : (suspension C T contextFits debugAssertions).Path (fun _ _ => True) s₀ steps s)
    (u t : ThreadId) (f : C → Except Panic T) (pc : CallPc C T) (entered : Bool)
    (hcall : (s.thread u).call = .inside t f pc entered) :
    ¬(t = u ∧ debugAssertions = true) ∧ (pc = .suspend ∨ pc = .getState ∨ contextFits = true) := by
  induction h generalizing pc entered with
  | nil => simp [(hinit u).2] at hcall
  | snoc _ _ hstep ih =>
    cases hstep.came hcall with
    | stayed hcall => exact ih pc _ hcall
    | begun _ ht hpc => exact ⟨ht, .inl hpc⟩
    | advanced hcall _ hadvance =>
      obtain ⟨ht, hpc⟩ := ih _ _ hcall
      refine ⟨ht, ?_⟩
      cases hadvance with
      | suspended => exact .inr (.inl rfl)
      | read hfits => exact .inr (.inr hfits)
      | called => exact .inr (.inr (by simpa using hpc))

theorem suspendAndResumeThread_called {thread : Target C} {f : C → Except Panic T}
    (hself : ¬(debugAssertions = true ∧ thread.isCurrentThread = true))
    (hsuspend : thread.suspend = KERN_SUCCESS) (hgetState : thread.getState.1 = KERN_SUCCESS)
    (hfits : thread.contextFits = true) :
    (∀ p, f thread.getState.2 = .error p →
      suspendAndResumeThread debugAssertions thread f = (.error p, [.suspend, .getState])) ∧
    ∀ results, f thread.getState.2 = .ok results →
      suspendAndResumeThread debugAssertions thread f =
        if thread.resume ≠ KERN_SUCCESS then (.error .unwrap, [.suspend, .getState, .resume])
        else (.ok results, [.suspend, .getState, .resume]) := by
  refine ⟨fun p hf => ?_, fun results hf => ?_⟩ <;>
    rw [suspendAndResumeThread, if_neg hself, if_neg (not_not_intro hsuspend),
      if_neg (not_not_intro hgetState), if_neg (by simp [hfits]), hf]

/-- A call that ends has made the Mach calls, and ends with the outcome, of
`suspendAndResumeThread` for the answers that it got. -/
theorem outcome_of_call (hinit : Initial s₀)
    (h : (suspension C T contextFits debugAssertions).Path (fun _ _ => True) s₀ steps s)
    {u t t' : ThreadId} {f : C → Except Panic T} {pc : CallPc C T} {entered : Bool} {r : Int32}
    {s' : Process C T} {outcome : Except Panic T}
    (hcall : (s.thread u).call = .inside t f pc entered)
    (hstep : Step contextFits debugAssertions s (.sampler u r) s')
    (hend : (s'.thread u).call = .outside (some (t', outcome))) :
    t' = t ∧ ∃ target : Target C, target.isCurrentThread = decide (t = u) ∧
      target.contextFits = contextFits ∧
      suspendAndResumeThread debugAssertions target f = (outcome, pc.made) := by
  have hinv : Inv contextFits steps s := by simpa using hinit.inv.of_path h
  have hreads := hinv.reads u t f pc entered hcall
  obtain ⟨hself, hpc⟩ := passed hinit h u t f pc entered hcall
  have ht : ¬(debugAssertions = true ∧ decide (t = u) = true) :=
    fun h => hself ⟨of_decide_eq_true h.2, h.1⟩
  replace hend : callStep contextFits t f r (s.thread t).registers pc =
      .outside (some (t', outcome)) := by
    cases hstep with
    | sampler hcall' =>
      cases hcall.symm.trans hcall'
      simpa using hend
  let target (suspend getState resume : Int32) (context : C) : Target C :=
    { isCurrentThread := decide (t = u), suspend, getState := (getState, context), contextFits, resume }
  cases pc with
  | suspend =>
    rw [callStep] at hend
    split at hend <;> rename_i hr <;> cases hend
    refine ⟨rfl, target r r r (s.thread t).registers, rfl, rfl, ?_⟩
    rewrite [suspendAndResumeThread, if_neg ht, if_pos hr]
    rfl
  | getState =>
    rw [callStep] at hend
    split at hend <;> rename_i hr
    · cases hend
      refine ⟨rfl, target KERN_SUCCESS r r (s.thread t).registers, rfl, rfl, ?_⟩
      rewrite [suspendAndResumeThread, if_neg ht, if_neg (not_not_intro rfl), if_pos hr]
      rfl
    · split at hend <;> rename_i hfits <;> cases hend
      refine ⟨rfl, target KERN_SUCCESS r r (s.thread t).registers, rfl, rfl, ?_⟩
      rewrite [suspendAndResumeThread, if_neg ht, if_neg (not_not_intro rfl), if_neg hr, if_pos hfits]
      rfl
  | callback c =>
    have hfits : contextFits = true := by simpa using hpc
    rw [callStep] at hend
    split at hend <;> rename_i hf <;> cases hend
    refine ⟨rfl, target KERN_SUCCESS KERN_SUCCESS r c, rfl, rfl, ?_⟩
    exact (suspendAndResumeThread_called ht rfl rfl hfits).1 _ hf
  | resume c results =>
    have hfits : contextFits = true := by simpa using hpc
    rw [callStep] at hend
    refine ⟨?_, target KERN_SUCCESS KERN_SUCCESS r c, rfl, rfl, ?_⟩
    · split at hend <;> cases hend <;> rfl
    · refine ((suspendAndResumeThread_called ht rfl rfl hfits).2 _ hreads.2).trans ?_
      split at hend <;> rename_i hr <;> cases hend
      · exact if_pos hr
      · exact if_neg hr

end Runs

def calm (T : Type) : Process UInt64 T where
  thread _ := { live := true, suspendCount := 0, registers := 7, call := .outside none }

theorem calm_initial (T : Type) : Initial (calm T) := fun _ => ⟨rfl, rfl⟩

theorem two_samplers : ∃ steps s,
    (suspension UInt64 UInt64 true true).Path (fun _ _ => True) (calm UInt64) steps s ∧
    abandoned true ⟨3⟩ steps = 1 ∧ (s.thread ⟨3⟩).registers = 7 := by
  have h : (suspension UInt64 UInt64 true true).Path (fun _ _ => True) (calm UInt64) _ _ :=
    .snoc (.snoc (.snoc (.snoc (.snoc (.snoc (.snoc (.snoc (.snoc (.snoc .nil
      trivial (Step.call (u := ⟨1⟩) (t := ⟨3⟩) (f := .ok) ⟨by rfl, by rfl⟩ (by rfl) (by decide)))
      trivial (Step.enter (u := ⟨1⟩) ⟨by rfl, by rfl⟩ (by rfl)))
      trivial (Step.sampler (u := ⟨1⟩) (by rfl) (.inl (by rfl)) (.suspend (by rfl))))
      trivial (Step.call (u := ⟨2⟩) (t := ⟨3⟩) (f := fun _ => .error .unwrap) ⟨by rfl, by rfl⟩
        (by rfl) (by decide)))
      trivial (Step.enter (u := ⟨2⟩) ⟨by rfl, by rfl⟩ (by rfl)))
      trivial (Step.sampler (u := ⟨2⟩) (by rfl) (.inl (by rfl)) (.suspend (by rfl))))
      trivial (Step.enter (u := ⟨2⟩) ⟨by rfl, by rfl⟩ (by rfl)))
      trivial (Step.sampler (u := ⟨2⟩) (by rfl) (.inl (by rfl)) (.getState (by rfl))))
      trivial (Step.enter (u := ⟨2⟩) ⟨by rfl, by rfl⟩ (by rfl)))
      trivial (Step.sampler (u := ⟨2⟩) (by rfl) (.inr ⟨by rfl, by rfl⟩) .callback)
  exact ⟨_, _, h, rfl, rfl⟩

theorem twice_suspended : ∃ steps s,
    (suspension UInt64 UInt64 true true).Path (fun _ _ => True) (calm UInt64) steps s ∧
    Counted s ⟨3⟩ 1 ∧ ∀ more s',
      (suspension UInt64 UInt64 true true).Path (fun _ _ => True) s more s' →
        (s'.thread ⟨3⟩).registers = 7 := by
  obtain ⟨steps, s, h, habandoned, hregisters⟩ := two_samplers
  obtain ⟨hcounted, _, hstays⟩ := suspended_by_calls (calm_initial UInt64) h ⟨3⟩
  rw [habandoned] at hcounted hstays
  exact ⟨steps, s, h, hcounted, fun more s' hmore =>
    (hstays Nat.one_pos more s' hmore).2.trans hregisters⟩

end Vignette.Suspension
