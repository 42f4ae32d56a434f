import Vignette.Library.Progress
import Vignette.Sampler.Waiting

/-! When the wait for `msg2` is in vain: exactly from the first step on that loses a signal. -/

namespace Vignette.Handshake

open Library
open Function (update update_of_ne)

variable {C T : Type} {own : ThreadId} {debugAssertions : Bool} {s s' : State C T} {l : Label C T}

structure Lost (s : State C T) : Prop where
  waits : ∃ t f, s.sampler = .inside t f .waitMsg2
  msg2 : s.shared.msg2 = some 0
  settled : ∀ u, Settled (s.threads u)

/-- At most one handler has yet to post `msg2`, and none has outside the wait for it. -/
inductive Answering (s : State C T) : Prop
  | arrival : Arrival s → Answering s
  | lost : Lost s → Answering s

theorem Answering.settled (h : Answering s) (hs : ∀ t f, s.sampler ≠ .inside t f .waitMsg2)
    (u : ThreadId) : Settled (s.threads u) := by
  cases h with
  | arrival ha =>
    cases ha with
    | settled ht => exact ht u
    | due hs' => exact absurd hs' (hs _ _)
  | lost hl => exact hl.settled u

theorem Answering.due (h : Answering s) {u : ThreadId} (hu : ¬Settled (s.threads u)) :
    (∃ f, s.sampler = .inside u f .waitMsg2) ∧ s.shared.msg2 = some 0 ∧ Due s.round (s.threads u) := by
  cases h with
  | arrival ha =>
    cases ha with
    | settled ht => exact absurd (ht u) hu
    | @due t f hs hm hd ht =>
      have hut : u = t := by
        by_contra hut
        exact hu (ht u hut)
      subst hut
      exact ⟨⟨f, hs⟩, hm, hd⟩
  | lost hl => exact absurd (hl.settled u) hu

theorem Answering.msg2 (h : Answering s) {t : ThreadId} {f : C → Except Panic T} {pc : CallPc C T}
    (hs : s.sampler = .inside t f pc) (hreset : pc.Reset) : s.shared.msg2 = some 0 := by
  cases h with
  | arrival ha =>
    cases ha with
    | settled _ hr => exact hr t f pc hs hreset
    | due _ hm => exact hm
  | lost hl => exact hl.msg2

theorem not_targetStays (h : ¬TargetStays s l) :
    (∃ t f, s.sampler = .inside t f .sendSignal ∧ l = .sampler ∧ (s.threads t).live = false) ∨
    ∃ u, l = .exit u ∧ (s.threads u).pending ≠ none := by
  by_contra hn
  push Not at hn
  exact h ⟨fun t f hs hl => by simpa using hn.1 t f hs hl, hn.2⟩

theorem Arrival.lose (h : Arrival s) (hstay : ¬TargetStays s l)
    (hstep : Step own debugAssertions s l s') : Lost s' := by
  rcases not_targetStays hstay with ⟨t, f, hs, rfl, hgone⟩ | ⟨u, rfl, hpending⟩
  · cases h with
    | due hs' => simp [hs] at hs'
    | settled ht hr =>
      cases hstep with
      | goto hs' _ hcall =>
        cases hs.symm.trans hs'
        cases hcall
        refine ⟨⟨t, f, rfl⟩, hr t f _ hs trivial, fun v => ?_⟩
        simpa [CallPc.effect, Thread.sendSignal_of_gone hgone] using ht v
      | leave hs' _ hcall =>
        cases hs.symm.trans hs'
        cases hcall
  · cases hstep with
    | exit =>
      cases h with
      | settled ht => exact absurd (ht u).pending hpending
      | @due t f hs hm _ ht =>
        have hut : t = u := by
          by_contra hut
          exact hpending (ht u (Ne.symm hut)).pending
        subst hut
        exact ⟨⟨t, f, hs⟩, hm, fun v => forall_update .exited (ht v)⟩

theorem Lost.step (h : Lost s) (hstep : Step own debugAssertions s l s') : Lost s' := by
  obtain ⟨⟨t, f, hs⟩, hm, ht⟩ := h
  cases hstep with
  | @spawn u => exact ⟨⟨t, f, hs⟩, hm, fun v => forall_update .spawned fun _ => ht v⟩
  | @exit u => exact ⟨⟨t, f, hs⟩, hm, fun v => forall_update .exited fun _ => ht v⟩
  | list => exact ⟨⟨t, f, hs⟩, hm, ht⟩
  | refuse hs' => simp [hs] at hs'
  | call hs' => simp [hs] at hs'
  | goto hs' _ hcall =>
    cases hs.symm.trans hs'
    simp [callStep, hm] at hcall
  | leave hs' _ hcall =>
    cases hs.symm.trans hs'
    simp [callStep, hm] at hcall
  | @deliver u _ _ _ hp => simp [(ht u).pending] at hp
  | @handler u h _ _ hh hstep =>
    refine ⟨⟨t, f, hs⟩, ?_, fun v => forall_update ((ht u).handler hh hstep) fun _ => ht v⟩
    exact (handlerStep_late ((ht u).late h hh) hstep).1.trans hm
  | interrupt => exact ⟨⟨t, f, hs⟩, hm, ht⟩

theorem Answering.step (h : Answering s) (hd : DeadIdle s)
    (hstep : Step own debugAssertions s l s') : Answering s' := by
  cases h with
  | arrival ha =>
    by_cases hstay : TargetStays s l
    · exact .arrival (ha.step hd hstay hstep)
    · exact .lost (ha.lose hstay hstep)
  | lost hl => exact .lost (hl.step hstep)

def Unposted (s : State C T) : Prop :=
  ∃ t f pc, s.sampler = .inside t f pc ∧ pc.Unanswered ∧
    (pc = .waitMsg2 → s.shared.msg2 = some 0 ∧
      ∀ u h, (s.threads u).handler = some h → ¬h.pc.Early)

/-- A handler is of the current round only once that round's signal has been delivered. -/
structure Rounds (s : State C T) : Prop where
  past : ∀ u h, (s.threads u).handler = some h → h.round ≤ s.round
  unposted : Unposted s → ∀ u h, (s.threads u).handler = some h → h.round ≠ s.round

theorem Initial.rounds (h : Initial own s) : Rounds s where
  past u _ hh := by simp [(h.idle u).2] at hh
  unposted _ u _ hh := by simp [(h.idle u).2] at hh

theorem handlerStep_round {shared shared' : SharedState C} {h h' : Handler C}
    (hstep : handlerStep shared h = some (shared', some h')) : h'.round = h.round := by
  cases h with
  | mk pc context round =>
    cases pc with
    | copyContext => cases hstep; rfl
    | tail | aborted => cases hstep
    | postMsg2 | waitMsg3 | postMsg4 =>
      simp only [handlerStep] at hstep
      split at hstep <;> cases hstep <;> rfl

theorem callStep_unanswered {f : C → Except Panic T} {shared shared' : SharedState C}
    {pc pc' : CallPc C T} (hstep : callStep f shared pc = some (shared', .goto pc'))
    (hpc' : pc'.Unanswered) : pc.Unanswered ∧ pc ≠ .waitMsg2 := by
  by_cases hpc : pc = .resetMsg2
  · exact ⟨.inl hpc, by simp [hpc]⟩
  · by_cases hreset : pc.Reset
    · exact ⟨.inr (.inl hreset), fun hwait => by simp [hwait, CallPc.Reset] at hreset⟩
    · obtain ⟨hreset', hwait⟩ := callStep_past hpc hreset hstep
      rcases hpc' with rfl | hr | hw
      · cases pc <;> simp [callStep] at hstep <;> split at hstep <;> cases hstep
      · exact absurd hr hreset'
      · exact absurd hw hwait

theorem Rounds.setThread {u : ThreadId} {th : Thread C} (h : Rounds s) {shared : SharedState C}
    (hth : ∀ k, th.handler = some k → ∃ k', (s.threads u).handler = some k' ∧ k.round = k'.round)
    (hun : Unposted { s with shared, threads := update s.threads u th } → Unposted s) :
    Rounds { s with shared, threads := update s.threads u th } := by
  have hold : ∀ v k, (update s.threads u th v).handler = some k →
      ∃ k', (s.threads v).handler = some k' ∧ k.round = k'.round := by
    intro v k hk
    by_cases hv : v = u
    · subst hv
      exact hth k (by simpa using hk)
    · exact ⟨k, by simpa [update_of_ne hv] using hk, rfl⟩
  constructor
  · intro v k hk
    obtain ⟨k', hk', hround⟩ := hold v k hk
    exact hround ▸ h.past v k' hk'
  · intro hu v k hk
    obtain ⟨k', hk', hround⟩ := hold v k hk
    exact hround ▸ h.unposted (hun hu) v k' hk'

theorem Unposted.of_idle {u : ThreadId} {th : Thread C} (hn : (s.threads u).handler = none)
    (h : Unposted { s with threads := update s.threads u th }) : Unposted s := by
  obtain ⟨t, f, pc, hs, hpc, hw⟩ := h
  refine ⟨t, f, pc, hs, hpc, fun hwait => ⟨(hw hwait).1, fun v k hk => ?_⟩⟩
  have hv : v ≠ u := by
    rintro rfl
    simp [hn] at hk
  exact (hw hwait).2 v k (by simpa [update_of_ne hv] using hk)

theorem Rounds.handler {u : ThreadId} {h : Handler C} {h' : Option (Handler C)}
    {shared : SharedState C} (hr : Rounds s)
    (hh : (s.threads u).handler = some h) (hstep : handlerStep s.shared h = some (shared, h')) :
    Rounds { s with shared, threads := update s.threads u { s.threads u with handler := h' } } := by
  refine hr.setThread (fun k hk => ⟨h, hh, ?_⟩) fun hun => ?_
  · cases hk
    exact handlerStep_round hstep
  · obtain ⟨t, f, pc, hs, hpc, hw⟩ := hun
    refine ⟨t, f, pc, hs, hpc, fun hwait => ?_⟩
    have hnone := (hw hwait).2
    have hlate : ¬h.pc.Early := by
      intro hearly
      cases h with
      | mk pc c r =>
        cases pc with
        | copyContext =>
          cases hstep
          exact hnone u ⟨.postMsg2, c, r⟩ (by simp) trivial
        | postMsg2 =>
          have hzero := (hw hwait).1
          simp only [handlerStep] at hstep
          split at hstep <;> cases hstep <;> simp_all
        | waitMsg3 | postMsg4 | tail | aborted => exact hearly.elim
    refine ⟨(handlerStep_late hlate hstep).1 ▸ (hw hwait).1, fun v k hk => ?_⟩
    by_cases hv : v = u
    · subst hv
      cases hh.symm.trans hk
      exact hlate
    · exact hnone v k (by simpa [update_of_ne hv] using hk)

theorem Rounds.step (hr : Rounds s) (ha : Answering s) (hd : DeadIdle s)
    (hstep : Step own debugAssertions s l s') : Rounds s' := by
  cases hstep with
  | @spawn u hl => exact hr.setThread nofun (.of_idle (hd u hl))
  | exit _ _ hn => exact hr.setThread nofun (.of_idle hn)
  | list => exact ⟨hr.past, hr.unposted⟩
  | refuse => exact ⟨hr.past, fun ⟨_, _, _, hs, _⟩ => by cases hs⟩
  | call =>
    exact ⟨fun u h hh => Nat.le_succ_of_le (hr.past u h hh), fun _ u h hh =>
      Nat.ne_of_lt (Nat.lt_succ_of_le (hr.past u h hh))⟩
  | @goto t f pc shared pc' hs _ hcall =>
    have hsame : ∀ v, (update s.threads t (pc.effect s.round (s.threads t)) v).handler =
        (s.threads v).handler := by
      intro v
      by_cases hv : v = t
      · subst hv
        simpa using (pc.effect_handler s.round (s.threads v)).1
      · rw [update_of_ne hv]
    refine ⟨fun u h hh => hr.past u h (hsame u ▸ hh), fun ⟨_, _, _, hs', hpc', _⟩ u h hh => ?_⟩
    cases hs'
    obtain ⟨hpc, hwait⟩ := callStep_unanswered hcall hpc'
    exact hr.unposted ⟨t, f, pc, hs, hpc, fun hw => absurd hw hwait⟩ u h (hsame u ▸ hh)
  | leave => exact ⟨hr.past, fun ⟨_, _, _, hs, _⟩ => by cases hs⟩
  | @deliver u round context hl hp hn =>
    have hdue := ha.due (u := u) fun hs => by simp [hs.pending] at hp
    have hround : round = s.round := by
      cases hdue.2.2 with
      | pending _ hp' => exact Option.some.inj (hp.symm.trans hp')
      | early _ hh => simp [hn] at hh
    refine ⟨fun v h hh => ?_, fun ⟨t, f, pc, hs, _, hw⟩ => ?_⟩
    · by_cases hv : v = u
      · subst hv
        obtain rfl : Handler.mk .copyContext context round = h := by simpa [Thread.entered] using hh
        exact Nat.le_of_eq hround
      · exact hr.past v h (by simpa [update_of_ne hv] using hh)
    · obtain ⟨g, hs'⟩ := hdue.1
      cases hs.symm.trans hs'
      exact absurd trivial ((hw rfl).2 u ⟨.copyContext, context, round⟩ (by simp [Thread.entered]))
  | handler hh hstep => exact hr.handler hh hstep
  | interrupt => exact hr

structure Answered (s : State C T) : Prop where
  answering : Answering s
  dead : DeadIdle s
  rounds : Rounds s

theorem answered_of_reachable
    (h : (handshake C T own debugAssertions).Reachable (fun _ _ => True) s) : Answered s :=
  h.invariant (I := Answered)
    (fun hs => ⟨.arrival (Initial.arrival hs), Initial.deadIdle hs, Initial.rounds hs⟩)
    fun hi _ hstep => ⟨hi.answering.step hi.dead hstep, hi.dead.step hstep,
      hi.rounds.step hi.answering hi.dead hstep⟩

theorem Lost.blocked (h : Lost s) (hr : Rounds s) : Blocked s := by
  obtain ⟨⟨t, f, hs⟩, hm, ht⟩ := h
  have hun : Unposted s :=
    ⟨t, f, .waitMsg2, hs, .inr (.inr rfl), fun _ => ⟨hm, fun u => (ht u).late⟩⟩
  exact ⟨t, f, hs, hm, fun hp => by simp [(ht t).pending] at hp, hr.unposted hun⟩

theorem arrival_of_reachable (h : (handshake C T own debugAssertions).Reachable TargetStays s) :
    Arrival s :=
  (h.invariant (I := fun s => Arrival s ∧ DeadIdle s)
    (fun hs => ⟨Initial.arrival hs, Initial.deadIdle hs⟩)
    fun hi hstay hstep => ⟨hi.1.step hi.2 hstay hstep, hi.2.step hstep⟩).1

theorem Lost.path {steps : List (State C T × Label C T)} (h : Lost s)
    (hpath : (handshake C T own debugAssertions).Path (fun _ _ => True) s steps s') : Lost s' := by
  induction hpath with
  | nil => exact h
  | snoc _ _ hstep ih => exact ih.step hstep

/-- In every run, whatever the callbacks do, whose targets stay until their signal is
delivered, the sampler never waits for a handler that cannot run; and the first step after
which a target has not stayed leaves it to wait so for ever. -/
theorem never_blocked_while_targets_stay
    (h : (handshake C T own debugAssertions).Reachable TargetStays s) :
    ¬Blocked s ∧ ∀ l s' steps s'', ¬TargetStays s l → Step own debugAssertions s l s' →
      (handshake C T own debugAssertions).Path (fun _ _ => True) s' steps s'' → Blocked s'' := by
  have harrival := arrival_of_reachable h
  refine ⟨harrival.not_blocked, fun l s' steps s'' hstay hstep hpath => ?_⟩
  have hreachable : (handshake C T own debugAssertions).Reachable (fun _ _ => True) s'' :=
    .path (fun _ => trivial) (.step (h.mono fun _ => trivial) trivial hstep) hpath
  exact ((harrival.lose hstay hstep).path hpath).blocked (answered_of_reachable hreachable).rounds

theorem targetStays_of_ne {s : State C T} {l : Label C T} (hs : l ≠ .sampler)
    (he : ∀ u, l ≠ .exit u) : TargetStays s l :=
  ⟨fun _ _ _ hl => absurd hl hs, fun u hl => absurd hl (he u)⟩

theorem targetStays_of_live {s : State C T} {t : ThreadId} {f : C → Except Panic T}
    {pc : CallPc C T} (hs : s.sampler = .inside t f pc) (hl : (s.threads t).live = true) :
    TargetStays s .sampler where
  send _ _ hs' _ := by
    cases hs.symm.trans hs'
    exact hl
  exit _ hl := by cases hl

theorem waiting_not_blocked : ∃ s s' : State UInt64 UInt64,
    s.sampler = .inside ⟨2⟩ .ok .waitMsg2 ∧ s.shared.msg2 = some 0 ∧ ¬Blocked s ∧
      Step ⟨1⟩ true s (.exit ⟨2⟩) s' ∧ Blocked s' := by
  have h := System.Reachable.init (M := handshake UInt64 UInt64 ⟨1⟩ true) (P := TargetStays)
    (calm_initial ⟨1⟩)
  have h := h.step (targetStays_of_ne (by simp) (by simp)) (.list (u := ⟨2⟩) rfl)
  have h := h.step (targetStays_of_ne (by simp) (by simp))
    (.call (f := .ok) rfl rfl List.mem_cons_self (by simp))
  have h := h.step (targetStays_of_live rfl rfl) (.goto rfl rfl rfl)
  have h := h.step (targetStays_of_live rfl rfl) (.goto rfl rfl rfl)
  have h := h.step (targetStays_of_live rfl rfl) (.goto rfl rfl rfl)
  have h := h.step (targetStays_of_live rfl rfl) (.goto rfl rfl rfl)
  have h := h.step (targetStays_of_live rfl rfl) (.goto rfl rfl rfl)
  obtain ⟨hwaits, hexits⟩ := never_blocked_while_targets_stay h
  refine ⟨_, _, rfl, rfl, hwaits, .exit (by decide) rfl rfl, ?_⟩
  exact hexits _ _ [] _ (fun hstay => by cases hstay.exit ⟨2⟩ rfl)
    (.exit (by decide) rfl rfl) .nil

def Undelivered (_ : State C T) (l : Label C T) : Prop := ∀ u c, l ≠ .deliver u c

theorem Undelivered.no_handler {own : ThreadId} {debugAssertions : Bool} {s : State C T}
    (h : (handshake C T own debugAssertions).Reachable Undelivered s) (u : ThreadId) :
    (s.threads u).handler = none := by
  let P : Thread C → Prop := fun th => th.handler = none
  refine h.invariant (I := fun s => ∀ u, P (s.threads u)) (fun hs u => (hs.idle u).2)
    (fun {s l s'} hi hu hstep v => ?_) u
  cases hstep with
  | spawn | exit => exact forall_update (P := P) rfl fun _ => hi v
  | @goto t f pc =>
    exact forall_update (P := P) ((pc.effect_handler s.round _).1.trans (hi t)) fun _ => hi v
  | deliver => exact absurd rfl (hu _ _)
  | @handler w _ _ _ hh => exact absurd ((hi w).symm.trans hh) nofun
  | _ => exact hi v

/-- A thread that `thread_iterator` has returned exits, and is then sampled. -/
theorem gone_target_blocks : ∃ s : State UInt64 UInt64,
    (handshake UInt64 UInt64 ⟨1⟩ true).Reachable (fun _ _ => True) s ∧ Blocked s := by
  have h := System.Reachable.init (M := handshake UInt64 UInt64 ⟨1⟩ true)
    (P := Undelivered) (calm_initial ⟨1⟩)
  have h := h.step (by simp [Undelivered]) (.list (u := ⟨2⟩) rfl)
  have h := h.step (by simp [Undelivered]) (.exit (u := ⟨2⟩) (by decide) rfl rfl)
  have h := h.step (by simp [Undelivered])
    (.call (t := ⟨2⟩) (f := .ok) rfl rfl List.mem_cons_self (by simp))
  have h := h.step (by simp [Undelivered]) (.goto rfl rfl rfl)
  have h := h.step (by simp [Undelivered]) (.goto rfl rfl rfl)
  have h := h.step (by simp [Undelivered]) (.goto rfl rfl rfl)
  have h := h.step (by simp [Undelivered]) (.goto rfl rfl rfl)
  -- `tgkill` finds no thread
  have h := h.step (by simp [Undelivered]) (.goto rfl rfl rfl)
  have hn := Undelivered.no_handler h
  refine ⟨_, h.mono fun _ => trivial, ⟨2⟩, .ok, rfl, rfl, fun hp => ?_, fun u _ hh => ?_⟩
  · cases hp.1
  · exact absurd ((hn u).symm.trans hh) nofun

end Vignette.Handshake
