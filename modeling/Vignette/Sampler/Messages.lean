import Vignette.Sampler.Execution

/-! The messages that a call and its target send each other through the semaphores. -/

namespace Vignette.Handshake

open Library
open Function (update update_self update_of_ne)

variable {C T : Type}

inductive Semaphore
  | msg2
  | msg3
  | msg4
  deriving DecidableEq

inductive Message
  | post (semaphore : Semaphore)
  | wait (semaphore : Semaphore)
  deriving DecidableEq

def conversation : List Message :=
  [.post .msg2, .wait .msg2, .post .msg3, .wait .msg3, .post .msg4, .wait .msg4]

def exchange (t : ThreadId) : List (ThreadId × Message) := conversation.map (t, ·)

def CallPc.message : CallPc C T → Option Message
  | .waitMsg2 => some (.wait .msg2)
  | .postMsg3 _ => some (.post .msg3)
  | .waitMsg4 _ => some (.wait .msg4)
  | _ => none

def HandlerPc.message : HandlerPc → Option Message
  | .postMsg2 => some (.post .msg2)
  | .waitMsg3 => some (.wait .msg3)
  | .postMsg4 => some (.post .msg4)
  | _ => none

def messageOf (s : State C T) : Label C T → Option (ThreadId × Message)
  | .sampler =>
    match s.sampler with
    | .outside _ => none
    | .inside t _ pc => pc.message.map (t, ·)
  | .handler u =>
    match (s.threads u).handler with
    | none => none
    | some h => h.pc.message.map (u, ·)
  | _ => none

def begun (own : ThreadId) (debugAssertions : Bool) : Label C T → Option ThreadId
  | .call t _ => if t = own ∧ debugAssertions = true then none else some t
  | _ => none

def said (th : Thread C) : CallPc C T → Nat
  | .resetMsg2 | .resetMsg3 | .resetMsg4 | .resetContext | .sendSignal => 0
  | .waitMsg2 =>
    match th.handler with
    | some ⟨.waitMsg3, _, _⟩ => 1
    | _ => 0
  | .readContext | .callback _ | .postMsg3 _ => 2
  | .waitMsg4 _ =>
    match th.handler with
    | some ⟨.waitMsg3, _, _⟩ => 3
    | some ⟨.postMsg4, _, _⟩ => 4
    | _ => 5
  | .clearMsg2 _ | .clearMsg3 _ | .clearMsg4 _ | .clearContext _ => 6

theorem said_of_tail {th : Thread C} (h : ∀ hd, th.handler = some hd → hd.pc = .tail)
    (pc : CallPc C T) : said th pc = said { th with handler := none } pc := by
  cases hh : th.handler with
  | none => cases pc <;> simp [said, hh]
  | some hd =>
    obtain ⟨hpc, c, round⟩ := hd
    have ht : hpc = .tail := h _ hh
    cases pc <;> simp [said, hh, ht]

theorem said_congr {th th' : Thread C} (h : th'.handler = th.handler) (pc : CallPc C T) :
    said th' pc = said th pc := by
  cases pc <;> simp [said, h]

namespace Phase

variable {f : C → Except Panic T} {round : Nat} {th : Thread C} {shared shared' : SharedState C}
  {pc pc' : CallPc C T}

theorem said_goto (h : Phase f round th shared pc)
    (hstep : callStep f shared pc = some (shared', .goto pc')) :
    pc.message.toList ++ conversation.drop (said (pc.effect round th) pc') =
      conversation.drop (said th pc) := by
  rw [said_congr (pc.effect_handler round th).1]
  cases h with
  | sendSignal hq =>
    cases hstep
    rw [said_of_tail hq.tail]
    rfl
  | posted _ hh =>
    cases hstep
    simp [said, hh, CallPc.message, conversation]
  | readContext _ hh =>
    cases hstep
    rfl
  | @callback c =>
    cases hf : f c with
    | error p => simp [callStep, hf] at hstep
    | ok v =>
      simp only [callStep, hf, Option.some.injEq, Prod.mk.injEq, Move.goto.injEq] at hstep
      rw [← hstep.2]
      rfl
  | postMsg3 _ hh =>
    cases hstep
    simp [said, hh, CallPc.message, conversation]
  | @done c v hq =>
    cases hstep
    rw [said_of_tail hq.tail, said_of_tail hq.tail]
    rfl
  | lost | pending | copyContext | postMsg2 | released | postMsg4 | clearContext => cases hstep
  | _ =>
    cases hstep
    rfl

theorem said_leave {outcome : Except Panic T} (h : Phase f round th shared pc) (hr : pc.Returns f)
    (hstep : callStep f shared pc = some (shared', .leave outcome)) :
    pc.message = none ∧ said th pc = 6 := by
  cases h with
  | @callback c =>
    obtain ⟨v, hf⟩ := hr
    simp [callStep, hf] at hstep
  | clearContext => exact ⟨rfl, rfl⟩
  | _ => cases hstep

theorem said_handler {h : Handler C} {h' : Option (Handler C)} (hp : Phase f round th shared pc)
    (hh : th.handler = some h) (hstep : handlerStep shared h = some (shared', h')) :
    h.pc.message.toList ++ conversation.drop (said { th with handler := h' } pc) =
      conversation.drop (said th pc) := by
  have htail : h.pc = .tail → h.pc.message.toList ++
      conversation.drop (said { th with handler := h' } pc) = conversation.drop (said th pc) := by
    intro ht
    obtain ⟨rfl, rfl⟩ := handlerStep_tail ht hstep
    have hquiet hd (hh' : th.handler = some hd) : hd.pc = .tail := by
      cases hh.symm.trans hh'
      exact ht
    rw [ht, said_of_tail hquiet]
    rfl
  cases hp with
  | resetMsg2 hq | resetMsg3 hq | resetMsg4 hq | resetContext hq | sendSignal hq | lost hq
  | done hq | clearMsg2 hq | clearMsg3 hq | clearMsg4 hq | clearContext hq =>
    exact htail (hq.tail h hh)
  | pending _ ht => exact htail (ht h hh)
  | copyContext _ hh' | postMsg2 _ hh' | released _ hh' | postMsg4 _ hh' =>
    cases hh.symm.trans hh'
    cases hstep
    simp [said, hh, HandlerPc.message, conversation]
  | posted _ hh' | readContext _ hh' | callback _ hh' | postMsg3 _ hh' =>
    cases hh.symm.trans hh'
    cases hstep

theorem said_deliver {r : Nat} (context : C) (h : Phase f round th shared pc)
    (hp : th.pending = some r) (hn : th.handler = none) :
    said (.entered context r) pc = said th pc := by
  cases h with
  | pending => simp [said, hn, Thread.entered]
  | resetMsg2 hq | resetMsg3 hq | resetMsg4 hq | resetContext hq | sendSignal hq | lost hq
  | done hq | clearMsg2 hq | clearMsg3 hq | clearMsg4 hq | clearContext hq =>
    simp [hq.pending] at hp
  | _ hp' => simp [hp'] at hp

theorem posted_le (h : Phase f round th shared pc) :
    shared.msg2.getD 0 + shared.msg3.getD 0 + shared.msg4.getD 0 ≤ 1 := by
  cases h <;> simp

end Phase

def toCome (s : State C T) : List (ThreadId × Message) :=
  match s.sampler with
  | .outside _ => []
  | .inside t _ pc => (conversation.drop (said (s.threads t) pc)).map (t, ·)

theorem toCome_outside {s : State C T} {last : Option (ThreadId × Except Panic T)}
    (hs : s.sampler = .outside last) : toCome s = [] := by
  rw [toCome, hs]

theorem toCome_inside {s : State C T} {t : ThreadId} {f : C → Except Panic T} {pc : CallPc C T}
    (hs : s.sampler = .inside t f pc) :
    toCome s = (conversation.drop (said (s.threads t) pc)).map (t, ·) := by
  rw [toCome, hs]

theorem toCome_setThread {s : State C T} {u : ThreadId} {th : Thread C} (shared : SharedState C)
    (h : ∀ t f pc, s.sampler = .inside t f pc → u = t → said th pc = said (s.threads u) pc) :
    toCome { s with shared, threads := update s.threads u th } = toCome s := by
  cases hs : s.sampler with
  | outside => simp only [toCome, hs]
  | inside t f pc =>
    by_cases hu : u = t
    · have hsaid := h t f pc hs hu
      subst hu
      simp only [toCome, hs, update_self, hsaid]
    · simp only [toCome, hs, update_of_ne (Ne.symm hu)]

theorem Inv.messageOf_step {own : ThreadId} {debugAssertions : Bool} {s s' : State C T}
    {l : Label C T} (h : Inv s) (hr : CallbackReturns s l) (hstep : Step own debugAssertions s l s') :
    (messageOf s l).toList ++ toCome s' =
      toCome s ++ (begun own debugAssertions l).toList.flatMap exchange := by
  cases hstep with
  | @spawn u hlive =>
    have hsaid (pc : CallPc C T) : said .spawned pc = said (s.threads u) pc :=
      said_congr (by rw [h.dead u hlive]; rfl) pc
    simpa [messageOf, begun] using toCome_setThread s.shared fun _ _ pc _ _ => hsaid pc
  | @exit u _ _ hn =>
    have hsaid (pc : CallPc C T) : said .exited pc = said (s.threads u) pc :=
      said_congr (by rw [hn]; rfl) pc
    simpa [messageOf, begun] using toCome_setThread s.shared fun _ _ pc _ _ => hsaid pc
  | list => simp [messageOf, begun, toCome]
  | refuse hs _ _ hself => simp [messageOf, begun, toCome, hs, hself]
  | call hs _ _ hself => simp [messageOf, begun, toCome, hs, hself, said, exchange]
  | @goto t f pc shared pc' hs _ hcall =>
    have hsaid := (h.phase hs).said_goto hcall
    simp only [messageOf, hs, begun, toCome, update_self, ← hsaid]
    cases pc.message <;> simp
  | @leave t f pc shared outcome hs _ hcall =>
    obtain ⟨hnone, hsaid⟩ := (h.phase hs).said_leave (hr t f pc hs rfl) hcall
    simp [messageOf, hs, begun, toCome, hnone, hsaid, conversation]
  | @deliver u r c hl hp hn =>
    have hsaid t f pc (hs : s.sampler = .inside t f pc) (hu : u = t) :
        said (.entered c r) pc = said (s.threads u) pc := by
      subst hu
      exact (h.phase hs).said_deliver c hp hn
    simpa [messageOf, begun] using toCome_setThread s.shared hsaid
  | @handler u hd shared h' hh hstep =>
    cases h.aligned with
    | outside hs hc hq =>
      have ht := (hq u).tail hd hh
      simp [messageOf, begun, toCome, hs, hh, ht, HandlerPc.message]
    | @inside t f pc hs hp hq =>
      by_cases hu : u = t
      · subst hu
        have hsaid := hp.said_handler hh hstep
        simp only [messageOf, hh, begun, toCome, hs, update_self, ← hsaid]
        cases hd.pc.message <;> simp
      · have ht := (hq u hu).tail hd hh
        simp [messageOf, begun, toCome, hs, hh, ht, HandlerPc.message, update_of_ne (Ne.symm hu)]
  | interrupt => simp [messageOf, begun]

def messages (steps : List (State C T × Label C T)) : List (ThreadId × Message) :=
  System.observed messageOf steps

def targets (own : ThreadId) (debugAssertions : Bool) (steps : List (State C T × Label C T)) :
    List ThreadId :=
  System.observed (fun _ => begun own debugAssertions) steps

theorem messages_toCome {own : ThreadId} {debugAssertions : Bool} {s₀ s : State C T}
    {steps : List (State C T × Label C T)} (hinit : Initial own s₀)
    (h : (handshake C T own debugAssertions).Path CallbackReturns s₀ steps s) :
    messages steps ++ toCome s = (targets own debugAssertions steps).flatMap exchange := by
  have hreachable {steps s}
      (hpath : (handshake C T own debugAssertions).Path CallbackReturns s₀ steps s) : Inv s :=
    reachable_inv ((System.Reachable.init hinit).path id hpath)
  induction h with
  | nil => simp [messages, targets, toCome, hinit.sampler]
  | @snoc steps t l u hpath hr hstep ih =>
    have hmessage := (hreachable hpath).messageOf_step hr hstep
    calc messages (steps ++ [(t, l)]) ++ toCome u
        = messages steps ++ ((messageOf t l).toList ++ toCome u) := by
          rw [messages, System.observed_snoc, List.append_assoc, messages]
      _ = (messages steps ++ toCome t) ++ (begun own debugAssertions l).toList.flatMap exchange := by
          rw [hmessage, List.append_assoc]
      _ = (targets own debugAssertions (steps ++ [(t, l)])).flatMap exchange := by
          rw [ih, targets, targets, System.observed_snoc, List.flatMap_append]

theorem Inv.posted_le {s : State C T} (h : Inv s) :
    s.shared.msg2.getD 0 + s.shared.msg3.getD 0 + s.shared.msg4.getD 0 ≤ 1 := by
  cases h.aligned with
  | outside _ hc => simp [hc, SharedState.cleared]
  | inside _ hp => exact hp.posted_le

/-- In every run whose callbacks return, each call has the same six messages with its own
target, in their order: between two calls they are all over, within one those that are left
come next, and no two are ever under way at once. -/
theorem messages_in_turn {own : ThreadId} {debugAssertions : Bool} {s₀ s : State C T}
    {steps : List (State C T × Label C T)} (hinit : Initial own s₀)
    (h : (handshake C T own debugAssertions).Path CallbackReturns s₀ steps s) :
    (∀ last, s.sampler = .outside last →
      messages steps = (targets own debugAssertions steps).flatMap exchange) ∧
    (∀ t f pc, s.sampler = .inside t f pc → ∃ left, left <:+ exchange t ∧
      messages steps ++ left = (targets own debugAssertions steps).flatMap exchange) ∧
    s.shared.msg2.getD 0 + s.shared.msg3.getD 0 + s.shared.msg4.getD 0 ≤ 1 := by
  have hmessages := messages_toCome hinit h
  refine ⟨fun last hs => ?_, fun t f pc hs => ?_, ?_⟩
  · simpa [toCome_outside hs] using hmessages
  · refine ⟨toCome s, ?_, hmessages⟩
    rw [toCome_inside hs, exchange, List.map_drop]
    exact List.drop_suffix _ _
  · exact (reachable_inv ((System.Reachable.init hinit).path id h)).posted_le

theorem oneCall_messages_in_turn : ∃ (s : State UInt64 UInt64)
      (steps : List (State UInt64 UInt64 × Label UInt64 UInt64)),
    s.sampler = .outside (some (⟨2⟩, .ok 7)) ∧ steps.map Prod.snd = oneCall .ok 7 ∧
    messages steps = (targets ⟨1⟩ true steps).flatMap exchange := by
  have hrun : (run ⟨1⟩ true (calm UInt64 UInt64) (oneCall .ok 7)).bind lastResult =
      some (⟨2⟩, 7) := by decide +kernel
  obtain ⟨s, steps, hpath, hs, hlabels⟩ := exists_oneCall (fun c => ⟨c, rfl⟩) hrun
  have hturn := messages_in_turn (calm_initial ⟨1⟩) (hpath.mono And.left)
  exact ⟨s, steps, hs, hlabels, hturn.1 _ hs⟩

end Vignette.Handshake
