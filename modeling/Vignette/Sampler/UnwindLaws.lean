import Mathlib.Data.List.Basic
import Vignette.Sampler.Unwind

/-! What the unwinder collects from a stack that libunwind can walk. -/

namespace Vignette

variable {Context Cursor : Type}

namespace Libunwind

inductive Stands (lib : Libunwind Context Cursor) : List UInt64 → Cursor → Prop
  | outermost {rr ip cursor} : lib.getRegIp cursor = (rr, ip) → 0 ≤ rr →
      (lib.step cursor).1 = 0 → Stands lib [ip] cursor
  | called {rr ip ips cursor} : lib.getRegIp cursor = (rr, ip) → 0 ≤ rr →
      0 < (lib.step cursor).1 → Stands lib ips (lib.step cursor).2 → Stands lib (ip :: ips) cursor

/-- From the context libunwind walks the stack, beginning at the interrupted frame. -/
structure Walks (lib : Libunwind Context Cursor) (context : Context) (stack : List UInt64) :
    Prop where
  init : 0 ≤ (lib.initLocal context).1
  stands : lib.Stands stack (lib.initLocal context).2

theorem Stands.getRegIp {lib : Libunwind Context Cursor} {stack : List UInt64} {cursor : Cursor}
    (h : lib.Stands stack cursor) :
    ∃ rr ip ips, lib.getRegIp cursor = (rr, ip) ∧ 0 ≤ rr ∧ stack = ip :: ips := by
  cases h with
  | outermost hreg hrr => exact ⟨_, _, [], hreg, hrr, rfl⟩
  | called hreg hrr => exact ⟨_, _, _, hreg, hrr, rfl⟩

end Libunwind

namespace LibunwindUnwinder

open Libunwind

variable {lib : Libunwind Context Cursor}

theorem unwindLoop_last {room : Nat} {frames : Types.Sample} {cursor : Cursor}
    (h : (lib.step cursor).1 = 0) : unwindLoop lib (room + 1) frames cursor = .ok frames := by
  simp [unwindLoop, h]

theorem unwindLoop_step {room : Nat} {frames : Types.Sample} {cursor : Cursor} {rr : Int32}
    {ip : UInt64} (hstep : 0 < (lib.step cursor).1)
    (hreg : lib.getRegIp (lib.step cursor).2 = (rr, ip)) (hrr : 0 ≤ rr) :
    unwindLoop lib (room + 1) frames cursor =
      unwindLoop lib room (frames ++ [⟨ip⟩]) (lib.step cursor).2 := by
  have hne : (lib.step cursor).1 ≠ 0 := fun h => by simp [h] at hstep
  have hlt : ¬(lib.step cursor).1 < 0 := Int32.lt_asymm hstep
  simp [unwindLoop, hne, hlt, hreg, Int32.not_lt.mpr hrr]

theorem length_unwindLoop_le {room : Nat} {frames out : Types.Sample} {cursor : Cursor}
    (h : unwindLoop lib room frames cursor = .ok out) : out.length ≤ frames.length + room := by
  induction room generalizing frames cursor with
  | zero =>
    cases h
    exact Nat.le_refl _
  | succ room ih =>
    simp only [unwindLoop] at h
    by_cases hzero : (lib.step cursor).1 = 0
    · rw [if_pos hzero] at h
      cases h
      exact Nat.le_add_right _ _
    · rw [if_neg hzero] at h
      split at h
      · cases h
      · split at h
        · cases h
        · have hle := ih h
          rw [List.length_append, List.length_singleton] at hle
          omega

theorem length_unwind_le {maxFrames : Nat} {context : Context} {out : Types.Sample}
    (h : (new maxFrames).unwind lib context = .ok out) : out.length ≤ maxFrames := by
  simp only [unwind] at h
  split at h
  · cases h
  · simpa [new] using length_unwindLoop_le h

theorem unwindLoop_of_stands {stack : List UInt64} {cursor : Cursor} (h : lib.Stands stack cursor)
    (room : Nat) (frames : Types.Sample) :
    unwindLoop lib room frames cursor =
      .ok (frames ++ (stack.tail.take room).map Types.Frame.mk) := by
  induction h generalizing room frames with
  | outermost _ _ hstep =>
    cases room with
    | zero => simp [unwindLoop]
    | succ room => simp [unwindLoop_last hstep]
  | called _ _ hstep hstands ih =>
    cases room with
    | zero => simp [unwindLoop]
    | succ room =>
      obtain ⟨rr, ip, ips, hreg, hrr, rfl⟩ := hstands.getRegIp
      rw [unwindLoop_step hstep hreg hrr, ih]
      simp

theorem unwind_of_walks {context : Context} {stack : List UInt64} (h : lib.Walks context stack)
    (maxFrames : Nat) :
    (new maxFrames).unwind lib context =
      .ok ((stack.tail.take maxFrames).map Types.Frame.mk) := by
  simp [unwind, new, Int32.not_lt.mpr h.init, unwindLoop_of_stands h.stands]

end LibunwindUnwinder

theorem take_tail_eq_iff {ip : UInt64} {ips : List UInt64} {m : Nat} :
    ips.take m = (ip :: ips).take m ↔ m < (ip :: ips).length ∧ ∀ x ∈ (ip :: ips).take (m + 1), x = ip := by
  induction m generalizing ip ips with
  | zero => simp
  | succ m ih =>
    cases ips with
    | nil => simp
    | cons ip' ips =>
      rw [List.take_succ_cons, List.take_succ_cons (a := ip), List.cons.injEq, ih]
      constructor
      · rintro ⟨rfl, hlt, hall⟩
        refine ⟨Nat.succ_lt_succ hlt, fun x hx => ?_⟩
        rw [List.take_succ_cons, List.mem_cons] at hx
        exact hx.elim id (hall x)
      · intro ⟨hlt, hall⟩
        have hip : ip' = ip := hall ip' (by simp)
        subst hip
        refine ⟨rfl, Nat.lt_of_succ_lt_succ hlt, fun x hx => hall x ?_⟩
        rw [List.take_succ_cons]
        exact .tail _ hx

namespace LibunwindUnwinder

open Libunwind

/-- The unwinder returns the stack from its interrupted frame exactly where this makes
no difference. -/
theorem unwind_from_interrupted_iff {lib : Libunwind Context Cursor} {context : Context}
    {ip : UInt64} {ips : List UInt64} (h : lib.Walks context (ip :: ips)) (maxFrames : Nat) :
    (new maxFrames).unwind lib context =
        .ok (((ip :: ips).take (min (ip :: ips).length maxFrames)).map Types.Frame.mk) ↔
      maxFrames < (ip :: ips).length ∧ ∀ x ∈ (ip :: ips).take (maxFrames + 1), x = ip := by
  have hinj : Function.Injective Types.Frame.mk := fun _ _ hframe => Types.Frame.mk.inj hframe
  rw [unwind_of_walks h, Except.ok.injEq, (List.map_injective_iff.mpr hinj).eq_iff,
    Nat.min_comm, ← List.take_eq_take_min, List.tail_cons]
  exact take_tail_eq_iff

def walking : Libunwind (List UInt64) (List UInt64) where
  initLocal stack := (0, stack)
  step
    | _ :: ip :: ips => (1, ip :: ips)
    | _ => (0, [])
  getRegIp cursor := (0, cursor.headD 0)

theorem walking_stands (ip : UInt64) (ips : List UInt64) :
    walking.Stands (ip :: ips) (ip :: ips) := by
  induction ips generalizing ip with
  | nil => exact .outermost rfl (Int32.le_refl 0) rfl
  | cons ip' ips ih => exact .called rfl (Int32.le_refl 0) (by decide : (0 : Int32) < 1) (ih ip')

theorem walking_walks (ip : UInt64) (ips : List UInt64) :
    walking.Walks (ip :: ips) (ip :: ips) := ⟨Int32.le_refl 0, walking_stands ip ips⟩

/-- The interrupted function is missing from a stack of two frames. -/
theorem interrupted_frame_dropped :
    walking.Walks [0x10, 0x20] [0x10, 0x20] ∧
    (new 150).unwind walking [0x10, 0x20] = .ok [⟨0x20⟩] ∧
    (new 150).unwind walking [0x10, 0x20] ≠ .ok [⟨0x10⟩, ⟨0x20⟩] :=
  ⟨walking_walks _ _, by decide, by decide⟩

theorem recursion_from_interrupted_iff :
    (new 2).unwind walking [0x10, 0x10, 0x10] = .ok [⟨0x10⟩, ⟨0x10⟩] ↔
      2 < 3 ∧ ∀ x ∈ [(0x10 : UInt64), 0x10, 0x10], x = 0x10 :=
  unwind_from_interrupted_iff (walking_walks 0x10 [0x10, 0x10]) 2

end LibunwindUnwinder

end Vignette
