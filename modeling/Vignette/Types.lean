/-! The types shared by the whole profiler, and the ways in which it panics. -/

universe u

namespace Vignette

/-- A panic, by the call that raised it. -/
inductive Panic
  | expect (message : String)
  | unwrap
  | assertion (condition : String)
  | indexOutOfBounds
  deriving DecidableEq

def expect {α : Type u} (message : String) : Option α → Except Panic α
  | some a => .ok a
  | none => .error (.expect message)

def unwrap {α : Type u} : Option α → Except Panic α
  | some a => .ok a
  | none => .error .unwrap

def check (condition : String) (p : Prop) [Decidable p] : Except Panic Unit :=
  if p then .ok () else .error (.assertion condition)

@[simp] theorem expect_some {α : Type u} (message : String) (a : α) :
    expect message (some a) = .ok a := rfl

@[simp] theorem expect_none {α : Type u} (message : String) :
    expect message (none : Option α) = .error (.expect message) := rfl

@[simp] theorem unwrap_some {α : Type u} (a : α) : unwrap (some a) = .ok a := rfl

@[simp] theorem unwrap_none {α : Type u} : unwrap (none : Option α) = .error .unwrap := rfl

theorem expect_ok {α : Type u} {message : String} {o : Option α} {a : α} :
    expect message o = .ok a ↔ o = some a := by
  cases o <;> simp

theorem unwrap_ok {α : Type u} {o : Option α} {a : α} : unwrap o = .ok a ↔ o = some a := by
  cases o <;> simp

theorem check_ok {condition : String} {p : Prop} [Decidable p] (h : p) :
    check condition p = .ok () := if_pos h

theorem check_error {condition : String} {p : Prop} [Decidable p] (h : ¬p) :
    check condition p = .error (.assertion condition) := if_neg h

theorem check_ok_iff {condition : String} {p : Prop} [Decidable p] :
    check condition p = .ok () ↔ p := by
  by_cases h : p <;> simp [check, h]

namespace Types

structure Frame where
  ip : UInt64
  deriving DecidableEq

abbrev Sample := List Frame

end Types

/-- `threadinfo::Thread`, an operating system thread by its id. -/
structure ThreadId where
  tid : Int32
  deriving DecidableEq

end Vignette
