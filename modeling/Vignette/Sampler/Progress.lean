import Vignette.Sampler.Blocking
import Vignette.Sampler.Safety

/-! How many steps a call of `suspend_and_resume_thread` takes. -/

namespace Vignette.Handshake

open Library
open Function (update update_self update_of_ne)

variable {C T : Type}

def CallPc.rank : CallPc C T → Nat
  | .resetMsg2 => 20
  | .resetMsg3 => 19
  | .resetMsg4 => 18
  | .resetContext => 17
  | .sendSignal => 16
  | .waitMsg2 => 9
  | .readContext => 8
  | .callback _ => 7
  | .postMsg3 _ => 6
  | .waitMsg4 _ => 5
  | .clearMsg2 _ => 4
  | .clearMsg3 _ => 3
  | .clearMsg4 _ => 2
  | .clearContext _ => 1

def HandlerPc.rank : HandlerPc → Nat
  | .copyContext => 5
  | .postMsg2 => 4
  | .waitMsg3 => 3
  | .postMsg4 => 2
  | .tail => 1
  | .aborted => 0

def pendingRank : Option Nat → Nat
  | some _ => 6
  | none => 0

def handlerRank : Option (Handler C) → Nat
  | some h => h.pc.rank
  | none => 0

def Thread.rank (th : Thread C) : Nat := pendingRank th.pending + handlerRank th.handler

def State.rank (s : State C T) : Nat :=
  match s.sampler with
  | .outside _ => 0
  | .inside t _ pc => pc.rank + (s.threads t).rank

def advances (s : State C T) : Label C T → Bool
  | .sampler => true
  | .deliver u _ | .handler u =>
    match s.sampler with
    | .outside _ => false
    | .inside t _ _ => decide (u = t)
  | _ => false

theorem CallPc.rank_pos (pc : CallPc C T) : 0 < pc.rank := by
  cases pc <;> simp [CallPc.rank]

theorem CallPc.rank_goto {f : C → Except Panic T} {shared shared' : SharedState C}
    {pc pc' : CallPc C T} (round : Nat) (th : Thread C)
    (h : callStep f shared pc = some (shared', .goto pc')) :
    pc'.rank + (pc.effect round th).rank + 1 ≤ pc.rank + th.rank := by
  cases pc with
  | sendSignal =>
    cases h
    cases hl : th.live with
    | false =>
      simp only [CallPc.effect, Thread.sendSignal_of_gone hl, CallPc.rank]
      omega
    | true =>
      cases hp : th.pending
      all_goals
        simp only [CallPc.effect, Thread.sendSignal_of_live hl, hp, CallPc.rank, Thread.rank,
          pendingRank, Option.orElse_eq_orElse, Option.orElse_eq_or, Option.none_or, Option.some_or]
        omega
  | waitMsg2 | readContext | callback | postMsg3 | waitMsg4 =>
    simp only [callStep] at h
    split at h <;> cases h
    simp only [CallPc.effect, CallPc.rank]
    omega
  | clearContext => cases h
  | _ =>
    cases h
    simp only [CallPc.effect, CallPc.rank]
    omega

theorem handlerRank_lt {shared shared' : SharedState C} {h : Handler C} {h' : Option (Handler C)}
    (hstep : handlerStep shared h = some (shared', h')) : handlerRank h' + 1 ≤ h.pc.rank := by
  cases h with
  | mk pc context round =>
    cases pc with
    | copyContext | tail =>
      cases hstep
      simp [handlerRank, HandlerPc.rank]
    | aborted => cases hstep
    | postMsg2 | waitMsg3 | postMsg4 =>
      simp only [handlerStep] at hstep
      split at hstep <;> cases hstep <;> simp [handlerRank, HandlerPc.rank]

theorem State.rank_setThread {u : ThreadId} {th : Thread C} (s : State C T)
    (shared : SharedState C) {advance : Bool} (h : th.rank + advance.toNat ≤ (s.threads u).rank) :
    ({ s with shared, threads := update s.threads u th } : State C T).rank +
      (match s.sampler with
        | .outside _ => false
        | .inside t _ _ => decide (u = t) && advance).toNat ≤ s.rank := by
  cases hs : s.sampler with
  | outside => simp [State.rank, hs]
  | inside t f pc =>
    by_cases hu : u = t
    · subst hu
      simp [State.rank, hs]
      omega
    · simp [State.rank, hs, hu, update_of_ne (Ne.symm hu)]

def Label.NoCall (l : Label C T) : Prop := ∀ t f, l ≠ .call t f

theorem rank_step {own : ThreadId} {debugAssertions : Bool} {s s' : State C T} {l : Label C T}
    (hl : l.NoCall) (hstep : Step own debugAssertions s l s') :
    s'.rank + (advances s l).toNat ≤ s.rank := by
  cases hstep with
  | @spawn u =>
    have hr : (Thread.spawned : Thread C).rank + false.toNat ≤ (s.threads u).rank := Nat.zero_le _
    have h := s.rank_setThread s.shared hr
    cases hs : s.sampler <;> simpa [advances, hs] using h
  | @exit u =>
    have hr : (Thread.exited : Thread C).rank + false.toNat ≤ (s.threads u).rank := Nat.zero_le _
    have h := s.rank_setThread s.shared hr
    cases hs : s.sampler <;> simpa [advances, hs] using h
  | list => exact Nat.le_refl _
  | refuse => exact absurd rfl (hl _ _)
  | call => exact absurd rfl (hl _ _)
  | @goto t f pc shared pc' hs _ hcall =>
    have h := CallPc.rank_goto s.round (s.threads t) hcall
    simp [State.rank, hs, advances]
    omega
  | @leave t f pc shared outcome hs =>
    have h := pc.rank_pos
    simp [State.rank, hs, advances]
    omega
  | @deliver u r context _ hp hn =>
    have hr : (Thread.entered context r).rank + true.toNat ≤ (s.threads u).rank := by
      simp [Thread.rank, Thread.entered, hp, hn, pendingRank, handlerRank, HandlerPc.rank]
    have h := s.rank_setThread s.shared hr
    cases hs : s.sampler <;> simpa [advances, hs] using h
  | @handler u h shared h' hh hhandler =>
    have hlt := handlerRank_lt hhandler
    have hr : ({ s.threads u with handler := h' } : Thread C).rank + true.toNat ≤
        (s.threads u).rank := by
      simp [Thread.rank, hh, handlerRank] at hlt ⊢
      omega
    have h := s.rank_setThread shared hr
    cases hs : s.sampler <;> simpa [advances, hs] using h
  | interrupt => exact Nat.le_refl _

/-- Calls return or are on threads that stay, and only a build that refuses them makes them
on the sampler's own thread. -/
structure Orderly (own : ThreadId) (debugAssertions : Bool) (s : State C T) (l : Label C T) :
    Prop where
  returns : CallbackReturns s l
  stays : TargetStays s l
  other : debugAssertions = true ∨ ∀ f, l ≠ .call own f

structure OwnFree (own : ThreadId) (s : State C T) : Prop where
  pending : (s.threads own).pending = none
  handler : (s.threads own).handler = none
  target : ∀ t f pc, s.sampler = .inside t f pc → t ≠ own

theorem Initial.ownFree {own : ThreadId} {s : State C T} (h : Initial own s) : OwnFree own s :=
  ⟨(h.idle own).1, (h.idle own).2, fun t f pc hs => by simp [h.sampler] at hs⟩

theorem OwnFree.setThread {own : ThreadId} {s : State C T} {u : ThreadId} {th : Thread C}
    {shared : SharedState C} (h : OwnFree own s)
    (hu : u = own → th.pending = none ∧ th.handler = none) :
    OwnFree own { s with shared, threads := update s.threads u th } := by
  by_cases huo : u = own
  · subst huo
    exact ⟨by simpa using (hu rfl).1, by simpa using (hu rfl).2, h.target⟩
  · have hkeep : update s.threads u th own = s.threads own := update_of_ne (Ne.symm huo) _ _
    exact ⟨by simpa [hkeep] using h.pending, by simpa [hkeep] using h.handler, h.target⟩

theorem OwnFree.step {own : ThreadId} {debugAssertions : Bool} {s s' : State C T} {l : Label C T}
    (h : OwnFree own s) (ho : debugAssertions = true ∨ ∀ f, l ≠ .call own f)
    (hstep : Step own debugAssertions s l s') : OwnFree own s' := by
  cases hstep with
  | spawn => exact h.setThread fun _ => ⟨rfl, rfl⟩
  | exit => exact h.setThread fun _ => ⟨rfl, rfl⟩
  | list => exact ⟨h.pending, h.handler, h.target⟩
  | refuse => exact ⟨h.pending, h.handler, fun _ _ _ hs => by cases hs⟩
  | @call last t f _ _ _ hself =>
    refine ⟨h.pending, h.handler, fun _ _ _ hs hown => ?_⟩
    cases hs
    rcases ho with hdebug | hother
    · exact hself ⟨hown, hdebug⟩
    · exact hother f (by rw [hown])
  | @goto t f pc shared pc' hs =>
    have hne := h.target t f pc hs
    have hkeep : OwnFree own { s with
        shared, threads := update s.threads t (pc.effect s.round (s.threads t)) } :=
      h.setThread fun heq => absurd heq hne
    exact ⟨hkeep.pending, hkeep.handler, fun _ _ _ hs' => by cases hs'; exact hne⟩
  | leave => exact ⟨h.pending, h.handler, fun _ _ _ hs => by cases hs⟩
  | deliver _ _ hp =>
    refine h.setThread fun hu => ?_
    rw [hu, h.pending] at hp
    cases hp
  | handler hh =>
    refine h.setThread fun hu => ?_
    rw [hu, h.handler] at hh
    cases hh
  | interrupt => exact h

structure OrderlyInv (own : ThreadId) (s : State C T) : Prop where
  inv : Inv s
  arrival : Arrival s
  free : OwnFree own s

theorem orderly_inv {own : ThreadId} {debugAssertions : Bool} {s : State C T}
    (h : (handshake C T own debugAssertions).Reachable (Orderly own debugAssertions) s) :
    OrderlyInv own s :=
  h.invariant (I := OrderlyInv own)
    (fun hs => ⟨⟨Initial.aligned hs, Initial.deadIdle hs⟩, Initial.arrival hs, Initial.ownFree hs⟩)
    fun hi ho hstep => ⟨⟨hi.inv.aligned.step hi.inv.dead ho.returns hstep, hi.inv.dead.step hstep⟩,
      hi.arrival.step hi.inv.dead ho.stays hstep, hi.free.step ho.other hstep⟩

theorem Quiet.rank_le {th : Thread C} (h : Quiet th) : th.rank ≤ 1 := by
  cases hh : th.handler with
  | none => simp [Thread.rank, h.pending, hh, pendingRank, handlerRank]
  | some hd => simp [Thread.rank, h.pending, hh, pendingRank, handlerRank, h.tail hd hh, HandlerPc.rank]

inductive Phase.Next (f : C → Except Panic T) (th : Thread C) (shared : SharedState C)
    (pc : CallPc C T) : Prop
  | call {shared' move} : callStep f shared pc = some (shared', move) → Next f th shared pc
  | handler {h shared' h'} : th.handler = some h →
      handlerStep shared h = some (shared', h') → Next f th shared pc
  | deliver {round} : th.live = true → th.pending = some round → th.handler = none →
      Next f th shared pc

theorem Phase.next {f : C → Except Panic T} {round : Nat} {th : Thread C} {shared : SharedState C}
    {pc : CallPc C T} (h : Phase f round th shared pc)
    (hdue : pc = .waitMsg2 → shared.msg2 = some 0 → Due round th) :
    pc.rank + th.rank ≤ 21 ∧ Phase.Next f th shared pc := by
  cases h with
  | resetMsg2 hq | resetMsg3 hq | resetMsg4 hq | resetContext hq | sendSignal hq | clearMsg2 hq
  | clearMsg3 hq | clearMsg4 hq | clearContext hq | done hq =>
    have hr := hq.rank_le
    refine ⟨?_, .call rfl⟩
    simp only [CallPc.rank]
    omega
  | lost hq =>
    exfalso
    cases hdue rfl rfl with
    | pending _ hp => simp [hq.pending] at hp
    | @early hd _ hh hearly => simp [hq.tail hd hh, HandlerPc.Early] at hearly
  | pending hp htail =>
    cases hh : th.handler with
    | none =>
      cases hdue rfl rfl with
      | pending hl => exact ⟨by simp [CallPc.rank, Thread.rank, hp, hh, pendingRank, handlerRank],
          .deliver hl hp hh⟩
      | early hp' => simp [hp] at hp'
    | some hd =>
      have ht := htail hd hh
      have hstep : handlerStep ⟨some 0, some 0, some 0, none⟩ hd =
          some (⟨some 0, some 0, some 0, none⟩, none) := by simp [handlerStep, ht]
      exact ⟨by simp [CallPc.rank, Thread.rank, hp, hh, pendingRank, handlerRank, ht, HandlerPc.rank],
        .handler hh hstep⟩
  | copyContext hp hh | postMsg2 hp hh | released hp hh | postMsg4 hp hh =>
    refine ⟨by simp [CallPc.rank, Thread.rank, hp, hh, pendingRank, handlerRank, HandlerPc.rank],
      .handler hh rfl⟩
  | @callback c hp hh =>
    refine ⟨by simp [CallPc.rank, Thread.rank, hp, hh, pendingRank, handlerRank, HandlerPc.rank], ?_⟩
    cases hf : f c with
    | error p =>
      have hcall : callStep f ⟨some 0, some 0, some 0, some c⟩ (.callback c) =
          some (⟨some 0, some 0, some 0, some c⟩, .leave (.error p)) := by simp [callStep, hf]
      exact .call hcall
    | ok v =>
      have hcall : callStep f ⟨some 0, some 0, some 0, some c⟩ (.callback c) =
          some (⟨some 0, some 0, some 0, some c⟩, .goto (.postMsg3 v)) := by simp [callStep, hf]
      exact .call hcall
  | posted hp hh | readContext hp hh | postMsg3 hp hh =>
    exact ⟨by simp [CallPc.rank, Thread.rank, hp, hh, pendingRank, handlerRank, HandlerPc.rank],
      .call rfl⟩

theorem OrderlyInv.goes_on {own : ThreadId} (debugAssertions : Bool) {s : State C T}
    (h : OrderlyInv own s) (context : C) {t : ThreadId} {f : C → Except Panic T} {pc : CallPc C T}
    (hs : s.sampler = .inside t f pc) :
    s.rank ≤ 21 ∧ ∃ l s', advances s l = true ∧ Step own debugAssertions s l s' := by
  have hdue : pc = .waitMsg2 → s.shared.msg2 = some 0 → Due s.round (s.threads t) := by
    intro hpc hzero
    cases h.arrival with
    | settled _ _ hwait => exact absurd hzero (hwait t f (hpc ▸ hs))
    | due hs' _ hdue =>
      cases hs.symm.trans hs'
      exact hdue
  obtain ⟨hrank, hnext⟩ := (h.inv.phase hs).next hdue
  refine ⟨by simpa [State.rank, hs] using hrank, ?_⟩
  cases hnext with
  | @call shared' move hcall =>
    cases move with
    | goto pc' => exact ⟨.sampler, _, rfl, .goto hs h.free.handler hcall⟩
    | leave outcome => exact ⟨.sampler, _, rfl, .leave hs h.free.handler hcall⟩
  | handler hh hstep => exact ⟨.handler t, _, by simp [advances, hs], .handler hh hstep⟩
  | deliver hl hp hh =>
    exact ⟨.deliver t context, _, by simp [advances, hs], .deliver context hl hp hh⟩

/-- However sampler, target and all other threads are scheduled, a call is over once it and
its target have taken 21 steps, and until then one of them can take the next. -/
theorem call_ends_within_21_steps {own : ThreadId} {debugAssertions : Bool} {s s' : State C T}
    (h : (handshake C T own debugAssertions).Reachable (Orderly own debugAssertions) s)
    (context : C) {steps : List (State C T × Label C T)}
    (hpath : (handshake C T own debugAssertions).Path
      (fun s l => Orderly own debugAssertions s l ∧ l.NoCall) s steps s') :
    System.advanced advances steps ≤ 21 ∧
    ∀ t f pc, s'.sampler = .inside t f pc → System.advanced advances steps < 21 ∧
      ∃ l s'', advances s' l = true ∧ Step own debugAssertions s' l s'' := by
  have hle : System.advanced advances steps + s'.rank ≤ s.rank :=
    hpath.advanced_le fun hP hstep => rank_step hP.2 hstep
  have hrank : s.rank ≤ 21 := by
    cases hs : s.sampler with
    | outside => simp [State.rank, hs]
    | inside => exact ((orderly_inv h).goes_on debugAssertions context hs).1
  refine ⟨by omega, fun t f pc hs' => ?_⟩
  have hpos : 0 < s'.rank := by
    have := pc.rank_pos
    simp only [State.rank, hs']
    omega
  have hinv := orderly_inv (h.path (fun hP => hP.1) hpath)
  exact ⟨by omega, (hinv.goes_on debugAssertions context hs').2⟩

theorem orderly_of_ne {own : ThreadId} {s : State C T} {l : Label C T} (hs : l ≠ .sampler)
    (he : ∀ u, l ≠ .exit u) : Orderly own true s l :=
  ⟨callbackReturns_of_ne hs, targetStays_of_ne hs he, .inl rfl⟩

theorem exists_call (f : C → Except Panic T) : ∃ s : State C T,
    (handshake C T ⟨1⟩ true).Reachable (Orderly ⟨1⟩ true) s ∧ s.sampler = .inside ⟨2⟩ f .resetMsg2 ∧
      ∀ u, s.threads u = .spawned := by
  have h := System.Reachable.init (M := handshake C T ⟨1⟩ true) (P := Orderly ⟨1⟩ true)
    (calm_initial ⟨1⟩)
  have h := h.step (orderly_of_ne (by simp) (by simp)) (.list (u := ⟨2⟩) rfl)
  have h := h.step (orderly_of_ne (by simp) (by simp))
    (.call (f := f) rfl rfl List.mem_cons_self (by simp))
  exact ⟨_, h, rfl, fun _ => rfl⟩

theorem call_among_others_ends : ∃ (s s' : State UInt64 UInt64)
      (steps : List (State UInt64 UInt64 × Label UInt64 UInt64)),
    s.sampler = .inside ⟨2⟩ .ok .resetMsg2 ∧
    steps.map Prod.snd = [.exit ⟨3⟩, .interrupt, .sampler] ∧
    System.advanced advances steps ≤ 21 ∧
    ∀ t f pc, s'.sampler = .inside t f pc → System.advanced advances steps < 21 ∧
      ∃ l s'', advances s' l = true ∧ Step ⟨1⟩ true s' l s'' := by
  obtain ⟨s, h, hs, hthreads⟩ := exists_call (C := UInt64) (T := UInt64) .ok
  have hexit : Orderly ⟨1⟩ true s (.exit ⟨3⟩) := by
    refine ⟨callbackReturns_of_ne (by simp), ⟨fun _ _ _ hl => ?_, fun u _ => ?_⟩, .inl rfl⟩
    · cases hl
    · rw [hthreads]
      rfl
  have hpath : (handshake UInt64 UInt64 ⟨1⟩ true).Path
      (fun s l => Orderly ⟨1⟩ true s l ∧ l.NoCall) s [] s := .nil
  have hpath := hpath.snoc ⟨hexit, fun _ _ hl => by cases hl⟩
    (.exit (by decide) (by rw [hthreads]; rfl) (by rw [hthreads]; rfl))
  have hpath := hpath.snoc ⟨orderly_of_ne (by simp) (by simp), fun _ _ hl => by cases hl⟩ .interrupt
  have hlive : (update s.threads ⟨3⟩ .exited ⟨2⟩).live = true := by
    rw [update_of_ne (by decide), hthreads]
    rfl
  have hown : (update s.threads ⟨3⟩ .exited ⟨1⟩).handler = none := by
    rw [update_of_ne (by decide), hthreads]
    rfl
  have hgoto : Orderly ⟨1⟩ true { s with threads := update s.threads ⟨3⟩ .exited } .sampler :=
    ⟨callbackReturns_of_inside hs trivial, targetStays_of_live hs hlive, .inl rfl⟩
  have hpath := hpath.snoc ⟨hgoto, fun _ _ hl => by cases hl⟩ (.goto hs hown rfl)
  exact ⟨s, _, _, hs, rfl, call_ends_within_21_steps h 7 hpath⟩

end Vignette.Handshake
