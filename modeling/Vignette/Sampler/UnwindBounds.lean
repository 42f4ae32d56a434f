import Mathlib.Data.ENat.Lattice
import Mathlib.Data.Set.Card
import Vignette.Library.Loop
import Vignette.Sampler.UnwindLaws

/-! The unwinder call by call, over whatever libunwind answers: how often it steps, when
its vector would have to reallocate, and which failure it reports. -/

namespace Vignette

open Library

structure Vec (α : Type) where
  items : List α
  capacity : Nat
  reallocations : Nat

namespace Vec

variable {α : Type}

def withCapacity (capacity : Nat) : Vec α := { items := [], capacity, reallocations := 0 }

def push (vec : Vec α) (item : α) : Vec α :=
  if vec.items.length = vec.capacity then {
    items := vec.items ++ [item]
    capacity := max (2 * vec.capacity) (vec.items.length + 1)
    reallocations := vec.reallocations + 1 }
  else { vec with items := vec.items ++ [item] }

theorem push_of_room {vec : Vec α} (h : vec.items.length < vec.capacity) (item : α) :
    vec.push item = { vec with items := vec.items ++ [item] } := if_neg (Nat.ne_of_lt h)

end Vec

namespace Libunwind

variable {Context Cursor : Type} (lib : Libunwind Context Cursor) (context : Context)

def cursorAt : Nat → Cursor
  | 0 => (lib.initLocal context).2
  | k + 1 => (lib.step (cursorAt k)).2

def initResult : Int32 := (lib.initLocal context).1

def stepResult (k : Nat) : Int32 := (lib.step (lib.cursorAt context k)).1

def regResult (k : Nat) : Int32 × UInt64 := lib.getRegIp (lib.cursorAt context (k + 1))

structure Collects (k : Nat) : Prop where
  step : 0 < lib.stepResult context k
  reg : 0 ≤ (lib.regResult context k).1

inductive FailsAt (k : Nat) : Int32 → Prop
  | step : lib.stepResult context k < 0 → FailsAt k (lib.stepResult context k)
  | reg : 0 < lib.stepResult context k → (lib.regResult context k).1 < 0 →
      FailsAt k (lib.regResult context k).1

/-- The first negative result, if it comes before the first step that is zero and before
the frame of number `c`. -/
inductive FirstFailure (c : Nat) : Int32 → Prop
  | init : lib.initResult context < 0 → FirstFailure c (lib.initResult context)
  | frame {k e} : 0 ≤ lib.initResult context → k < c → (∀ j < k, lib.Collects context j) →
      lib.FailsAt context k e → FirstFailure c e

def stepsBeforeZero : Set Nat :=
  {k | 0 < lib.stepResult context k ∧ ∀ j < k, lib.stepResult context j ≠ 0}

variable {lib context}

theorem Collects.step_ne_zero {k : Nat} (h : lib.Collects context k) :
    lib.stepResult context k ≠ 0 := (Int32.ne_of_lt h.step).symm

theorem FailsAt.step_ne_zero {k : Nat} {e : Int32} (h : lib.FailsAt context k e) :
    lib.stepResult context k ≠ 0 := by
  cases h with
  | step hstep => exact Int32.ne_of_lt hstep
  | reg hstep => exact (Int32.ne_of_lt hstep).symm

theorem FailsAt.not_collects {k : Nat} {e : Int32} (h : lib.FailsAt context k e) :
    ¬lib.Collects context k := by
  intro hk
  cases h with
  | step hstep => exact Int32.lt_asymm hstep hk.step
  | reg _ hreg => exact Int32.not_lt.mpr hk.reg hreg

theorem FailsAt.unique {k : Nat} {e e' : Int32} (h : lib.FailsAt context k e)
    (h' : lib.FailsAt context k e') : e = e' := by
  cases h with
  | step hneg =>
    cases h' with
    | step => rfl
    | reg hpos => exact absurd hpos (Int32.lt_asymm hneg)
  | reg hpos =>
    cases h' with
    | step hneg => exact absurd hpos (Int32.lt_asymm hneg)
    | reg => rfl

theorem FirstFailure.unique {c : Nat} {e e' : Int32} (h : lib.FirstFailure context c e)
    (h' : lib.FirstFailure context c e') : e = e' := by
  cases h with
  | init hinit =>
    cases h' with
    | init => rfl
    | frame hinit' => exact absurd hinit (Int32.not_lt.mpr hinit')
  | @frame k _ hinit _ hbefore hfails =>
    cases h' with
    | init hinit' => exact absurd hinit' (Int32.not_lt.mpr hinit)
    | @frame k' _ _ _ hbefore' hfails' =>
      rcases Nat.lt_trichotomy k k' with hlt | rfl | hgt
      · exact absurd (hbefore' k hlt) hfails.not_collects
      · exact hfails.unique hfails'
      · exact absurd (hbefore k' hgt) hfails'.not_collects

theorem not_firstFailure {c n : Nat} (hinit : 0 ≤ lib.initResult context)
    (hcollects : ∀ j < n, lib.Collects context j) (hn : n < c → lib.stepResult context n = 0)
    (e : Int32) : ¬lib.FirstFailure context c e := by
  intro h
  cases h with
  | init hneg => exact Int32.not_lt.mpr hinit hneg
  | @frame k _ _ hk hbefore hfails =>
    rcases Nat.lt_trichotomy k n with hlt | rfl | hgt
    · exact hfails.not_collects (hcollects k hlt)
    · exact hfails.step_ne_zero (hn hk)
    · exact (hbefore n hgt).step_ne_zero (hn (hgt.trans hk))

theorem encard_Iio (n : Nat) : (Set.Iio n).encard = n := by
  rw [← Finset.coe_range, Set.encard_coe_eq_coe_finsetCard, Finset.card_range]

theorem Iio_subset_stepsBeforeZero {n : Nat} (hcollects : ∀ j < n, lib.Collects context j) :
    Set.Iio n ⊆ lib.stepsBeforeZero context := fun k hk =>
  ⟨(hcollects k hk).step, fun j hj => (hcollects j (hj.trans hk)).step_ne_zero⟩

theorem min_stepsBeforeZero {c n : Nat} (hn : n ≤ c)
    (hcollects : ∀ j < n, lib.Collects context j) (hzero : n < c → lib.stepResult context n = 0) :
    (n : ℕ∞) = min (c : ℕ∞) (lib.stepsBeforeZero context).encard := by
  have hsub := Iio_subset_stepsBeforeZero hcollects
  rcases Nat.lt_or_eq_of_le hn with hlt | rfl
  · have heq : lib.stepsBeforeZero context = Set.Iio n := by
      refine Set.Subset.antisymm (fun k hk => ?_) hsub
      rcases Nat.lt_trichotomy k n with hkn | rfl | hkn
      · exact hkn
      · exact absurd (hzero hlt) (Int32.ne_of_lt hk.1).symm
      · exact absurd (hzero hlt) (hk.2 n hkn)
    rw [heq, encard_Iio]
    exact (min_eq_right (Nat.cast_le.mpr hn)).symm
  · refine (min_eq_left ?_).symm
    calc (n : ℕ∞) = (Set.Iio n).encard := (encard_Iio n).symm
      _ ≤ (lib.stepsBeforeZero context).encard := Set.encard_le_encard hsub

def playback {Context : Type} (init : Context → Int32) (steps : Context → Nat → Int32)
    (regs : Context → Nat → Int32 × UInt64) : Libunwind Context (Context × Nat) where
  initLocal context := (init context, (context, 0))
  step cursor := (steps cursor.1 cursor.2, (cursor.1, cursor.2 + 1))
  getRegIp cursor := regs cursor.1 (cursor.2 - 1)

section Playback

variable {Context : Type} (init : Context → Int32) (steps : Context → Nat → Int32)
  (regs : Context → Nat → Int32 × UInt64) (context : Context)

theorem playback_cursorAt (k : Nat) :
    (playback init steps regs).cursorAt context k = (context, k) := by
  induction k with
  | zero => rfl
  | succ k ih => rw [cursorAt, ih, playback]

theorem playback_results (k : Nat) :
    (playback init steps regs).initResult context = init context ∧
    (playback init steps regs).stepResult context k = steps context k ∧
    (playback init steps regs).regResult context k = regs context k := by
  rw [stepResult, regResult, playback_cursorAt, playback_cursorAt]
  exact ⟨rfl, rfl, rfl⟩

end Playback

end Libunwind

namespace LibunwindUnwinder

variable {Context Cursor : Type} (lib : Libunwind Context Cursor) (context : Context)

/-- The loop of `unwind` between two turns, with the number of calls of `unw_step`. -/
structure Unwinding (Cursor : Type) where
  frames : Vec Types.Frame
  cursor : Cursor
  steps : Nat

abbrev Outcome (Cursor : Type) := Except Int32 Types.Sample × Unwinding Cursor

def unwindTurn (s : Unwinding Cursor) : Turn (Unwinding Cursor) (Outcome Cursor) :=
  if s.frames.items.length = s.frames.capacity then .stop (.ok s.frames.items, s)
  else
    let (step, cursor) := lib.step s.cursor
    let s := { s with cursor, steps := s.steps + 1 }
    if step = 0 then .stop (.ok s.frames.items, s)
    else if step < 0 then .stop (.error step, s)
    else
      let (rr, ip) := lib.getRegIp cursor
      if rr < 0 then .stop (.error rr, s)
      else .again { s with frames := s.frames.push { ip } }

def unwindCalls (maxFrames fuel : Nat) : Option (Outcome Cursor) :=
  let (init, cursor) := lib.initLocal context
  let s : Unwinding Cursor := { frames := .withCapacity maxFrames, cursor, steps := 0 }
  if init < 0 then some (.error init, s) else loop (unwindTurn lib) fuel s

def collected (k : Nat) : Types.Sample :=
  (List.range k).map fun j => { ip := (lib.regResult context j).2 }

structure Collecting (maxFrames : Nat) (s : Unwinding Cursor) : Prop where
  init : 0 ≤ lib.initResult context
  cursor : s.cursor = lib.cursorAt context s.steps
  frames : s.frames = ⟨collected lib context s.steps, maxFrames, 0⟩
  steps : s.steps ≤ maxFrames
  collects : ∀ j < s.steps, lib.Collects context j
  rest : (new maxFrames).unwind lib context =
    unwindLoop lib (s.frames.capacity - s.frames.items.length) s.frames.items s.cursor

structure Bounded (maxFrames : Nat) (outcome : Outcome Cursor) : Prop where
  result : outcome.1 = (new maxFrames).unwind lib context
  steps : outcome.2.steps ≤ maxFrames
  reallocations : outcome.2.frames.reallocations = 0
  error_iff : ∀ e, outcome.1 = .error e ↔ lib.FirstFailure context maxFrames e
  ok : (∀ e, ¬lib.FirstFailure context maxFrames e) → ∃ n : Nat,
    outcome.1 = .ok (collected lib context n) ∧
      (n : ℕ∞) = min (maxFrames : ℕ∞) (lib.stepsBeforeZero context).encard

variable {lib context} {maxFrames : Nat}

theorem collected_succ (k : Nat) :
    collected lib context (k + 1) = collected lib context k ++ [⟨(lib.regResult context k).2⟩] := by
  simp [collected, List.range_succ]

theorem unwindLoop_turn {s : Unwinding Cursor}
    (h : s.frames.items.length ≤ s.frames.capacity) :
    unwindLoop lib (s.frames.capacity - s.frames.items.length) s.frames.items s.cursor =
      match unwindTurn lib s with
      | .again s' =>
        unwindLoop lib (s'.frames.capacity - s'.frames.items.length) s'.frames.items s'.cursor
      | .stop outcome => outcome.1 := by
  rcases Nat.lt_or_eq_of_le h with hlt | hfull
  · obtain ⟨room, hroom⟩ := Nat.exists_eq_succ_of_ne_zero (Nat.sub_ne_zero_of_lt hlt)
    rw [hroom, Nat.succ_eq_add_one, unwindLoop, unwindTurn, if_neg hlt.ne]
    by_cases hzero : (lib.step s.cursor).1 = 0
    · simp [hzero]
    · by_cases hneg : (lib.step s.cursor).1 < 0
      · simp [hzero, hneg]
      · by_cases hreg : (lib.getRegIp (lib.step s.cursor).2).1 < 0
        · simp [hzero, hneg, hreg]
        · have hleft : s.frames.capacity - (s.frames.items.length + 1) = room := by omega
          simp [hzero, hneg, hreg, Vec.push_of_room hlt, hleft]
  · simp [unwindTurn, unwindLoop, hfull]

theorem Bounded.of_error {outcome : Outcome Cursor} {e : Int32}
    (hresult : outcome.1 = (new maxFrames).unwind lib context) (hsteps : outcome.2.steps ≤ maxFrames)
    (hreallocations : outcome.2.frames.reallocations = 0) (herror : outcome.1 = .error e)
    (hfailure : lib.FirstFailure context maxFrames e) : Bounded lib context maxFrames outcome where
  result := hresult
  steps := hsteps
  reallocations := hreallocations
  error_iff e' := by
    rw [herror, Except.error.injEq]
    constructor
    · intro h
      exact h ▸ hfailure
    · exact hfailure.unique
  ok hnone := absurd hfailure (hnone e)

namespace Collecting

variable {s : Unwinding Cursor}

theorem length (h : Collecting lib context maxFrames s) :
    s.frames.items.length = s.steps := by
  rw [h.frames]
  simp [collected]

theorem capacity (h : Collecting lib context maxFrames s) : s.frames.capacity = maxFrames := by
  rw [h.frames]

theorem room (h : Collecting lib context maxFrames s) (hlt : s.steps < maxFrames) :
    s.frames.items.length < s.frames.capacity := by
  rw [h.length, h.capacity]
  exact hlt

theorem step (h : Collecting lib context maxFrames s) :
    lib.step s.cursor = (lib.stepResult context s.steps, lib.cursorAt context (s.steps + 1)) := by
  rw [h.cursor]
  rfl

theorem unwind_turn (h : Collecting lib context maxFrames s) :
    (new maxFrames).unwind lib context =
      match unwindTurn lib s with
      | .again s' =>
        unwindLoop lib (s'.frames.capacity - s'.frames.items.length) s'.frames.items s'.cursor
      | .stop outcome => outcome.1 := by
  rw [h.rest]
  refine unwindLoop_turn ?_
  rw [h.length, h.capacity]
  exact h.steps

theorem stops (h : Collecting lib context maxFrames s)
    (hzero : s.steps < maxFrames → lib.stepResult context s.steps = 0) :
    ∃ outcome, unwindTurn lib s = .stop outcome ∧ Bounded lib context maxFrames outcome := by
  have hnone := Libunwind.not_firstFailure h.init h.collects hzero
  have hbounded : ∀ t : Unwinding Cursor, unwindTurn lib s = .stop (.ok s.frames.items, t) →
      t.frames = s.frames → t.steps ≤ maxFrames →
        Bounded lib context maxFrames (.ok s.frames.items, t) := by
    intro t ht hframes hsteps
    refine ⟨?_, hsteps, ?_, fun e => ?_, fun _ => ⟨s.steps, ?_, ?_⟩⟩
    · rw [h.unwind_turn, ht]
    · rw [hframes, h.frames]
    · simp [hnone e]
    · rw [h.frames]
    · exact Libunwind.min_stepsBeforeZero h.steps h.collects hzero
  rcases Nat.lt_or_eq_of_le h.steps with hlt | hfull
  · have ht : unwindTurn lib s = .stop (.ok s.frames.items,
        ⟨s.frames, lib.cursorAt context (s.steps + 1), s.steps + 1⟩) := by
      simp [unwindTurn, (h.room hlt).ne, h.step, hzero hlt]
    exact ⟨_, ht, hbounded _ ht rfl hlt⟩
  · have ht : unwindTurn lib s = .stop (.ok s.frames.items, s) := by
      simp [unwindTurn, h.length, h.capacity, hfull]
    exact ⟨_, ht, hbounded _ ht rfl h.steps⟩

theorem fails (h : Collecting lib context maxFrames s) (hlt : s.steps < maxFrames) {e : Int32}
    (hfails : lib.FailsAt context s.steps e) :
    ∃ outcome, unwindTurn lib s = .stop outcome ∧ Bounded lib context maxFrames outcome := by
  have ht : unwindTurn lib s =
      .stop (.error e, ⟨s.frames, lib.cursorAt context (s.steps + 1), s.steps + 1⟩) := by
    have hne := hfails.step_ne_zero
    cases hfails with
    | step hneg => simp [unwindTurn, (h.room hlt).ne, h.step, hne, hneg]
    | reg hpos hneg =>
      rw [Libunwind.regResult] at hneg
      simp [unwindTurn, (h.room hlt).ne, h.step, hne, Int32.lt_asymm hpos, hneg, Libunwind.regResult]
  refine ⟨_, ht, .of_error ?_ hlt ?_ rfl (.frame h.init hlt h.collects hfails)⟩
  · rw [h.unwind_turn, ht]
  · rw [h.frames]

theorem goesOn (h : Collecting lib context maxFrames s) (hlt : s.steps < maxFrames)
    (hcollects : lib.Collects context s.steps) :
    ∃ s', unwindTurn lib s = .again s' ∧ Collecting lib context maxFrames s' ∧
      s'.steps = s.steps + 1 := by
  have ht : unwindTurn lib s = .again ⟨s.frames.push ⟨(lib.regResult context s.steps).2⟩,
      lib.cursorAt context (s.steps + 1), s.steps + 1⟩ := by
    have hneg := Int32.not_lt.mpr hcollects.reg
    rw [Libunwind.regResult] at hneg
    simp [unwindTurn, (h.room hlt).ne, h.step, hcollects.step_ne_zero,
      Int32.lt_asymm hcollects.step, hneg, Libunwind.regResult]
  refine ⟨_, ht, ⟨h.init, rfl, ?_, hlt, fun j hj => ?_, ?_⟩, rfl⟩
  · rw [Vec.push_of_room (h.room hlt), h.frames, collected_succ]
  · rcases Nat.lt_succ_iff_lt_or_eq.mp hj with hj | rfl
    · exact h.collects j hj
    · exact hcollects
  · rw [h.unwind_turn, ht]

theorem next (h : Collecting lib context maxFrames s) :
    (∃ s', unwindTurn lib s = .again s' ∧ Collecting lib context maxFrames s' ∧
      maxFrames - s'.steps < maxFrames - s.steps) ∨
    ∃ outcome, unwindTurn lib s = .stop outcome ∧ Bounded lib context maxFrames outcome := by
  by_cases hlt : s.steps < maxFrames
  · by_cases hzero : lib.stepResult context s.steps = 0
    · exact .inr (h.stops fun _ => hzero)
    by_cases hneg : lib.stepResult context s.steps < 0
    · exact .inr (h.fails hlt (.step hneg))
    have hpos := Int32.lt_of_le_of_ne (Int32.not_lt.mp hneg) (Ne.symm hzero)
    by_cases hreg : (lib.regResult context s.steps).1 < 0
    · exact .inr (h.fails hlt (.reg hpos hreg))
    obtain ⟨s', ht, h', hsteps⟩ := h.goesOn hlt ⟨hpos, Int32.not_lt.mp hreg⟩
    refine .inl ⟨s', ht, h', ?_⟩
    omega
  · exact .inr (h.stops fun h' => absurd h' hlt)

end Collecting

theorem collecting_init (h : 0 ≤ lib.initResult context) :
    Collecting lib context maxFrames
      ⟨.withCapacity maxFrames, (lib.initLocal context).2, 0⟩ where
  init := h
  cursor := rfl
  frames := rfl
  steps := Nat.zero_le maxFrames
  collects j hj := absurd hj (Nat.not_lt_zero j)
  rest := if_neg (Int32.not_lt.mpr h)

variable (lib context maxFrames)

/-- Whatever libunwind answers, `unwind` ends within its limit, without reallocating, and
with the frames that the limit allows or the first failure before it. -/
theorem unwind_bounded :
    ∃ outcome, (∀ fuel, maxFrames < fuel → unwindCalls lib context maxFrames fuel = some outcome) ∧
      Bounded lib context maxFrames outcome := by
  by_cases hinit : lib.initResult context < 0
  · refine ⟨(.error (lib.initResult context), ⟨.withCapacity maxFrames, (lib.initLocal context).2, 0⟩),
      fun fuel _ => if_pos hinit, .of_error ?_ (Nat.zero_le maxFrames) rfl rfl (.init hinit)⟩
    exact (if_pos hinit).symm
  · have hstart : Collecting lib context maxFrames _ := collecting_init (Int32.not_lt.mp hinit)
    obtain ⟨outcome, hbounded, hloop⟩ :=
      loop_rule (fun s => maxFrames - s.steps) Collecting.next hstart
    refine ⟨outcome, fun fuel hfuel => ?_, hbounded⟩
    exact (if_neg hinit).trans (hloop fuel (Nat.lt_of_le_of_lt (Nat.sub_le _ _) hfuel))

end LibunwindUnwinder

end Vignette
