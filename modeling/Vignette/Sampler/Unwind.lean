import Vignette.Types

namespace Vignette

/-- The calls into libunwind, with the results they give and the cursors they leave. -/
structure Libunwind (Context Cursor : Type) where
  initLocal : Context → Int32 × Cursor
  step : Cursor → Int32 × Cursor
  getRegIp : Cursor → Int32 × UInt64

structure LibunwindUnwinder where
  frames : Types.Sample
  capacity : Nat

namespace LibunwindUnwinder

variable {Context Cursor : Type} (lib : Libunwind Context Cursor)

def new (maxFrames : Nat) : LibunwindUnwinder where
  frames := []
  capacity := maxFrames

/-- The loop of `unwind`, with room for so many more frames. -/
def unwindLoop : Nat → Types.Sample → Cursor → Except Int32 Types.Sample
  | 0, frames, _ => .ok frames
  | room + 1, frames, cursor =>
    let (step, cursor) := lib.step cursor
    if step = 0 then .ok frames
    else if step < 0 then .error step
    else
      let (rr, ip) := lib.getRegIp cursor
      if rr < 0 then .error rr
      else unwindLoop room (frames ++ [{ ip }]) cursor

def unwind (unwinder : LibunwindUnwinder) (context : Context) : Except Int32 Types.Sample :=
  let (init, cursor) := lib.initLocal context
  if init < 0 then .error init
  else unwindLoop lib (unwinder.capacity - unwinder.frames.length) unwinder.frames cursor

end LibunwindUnwinder

namespace Session

variable {Context Cursor : Type} (lib : Libunwind Context Cursor)

/-- The callback of `sample_once`. -/
def sampleCallback (context : Context) : Except Panic Types.Sample :=
  match (LibunwindUnwinder.new 150).unwind lib context with
  | .ok sample => .ok sample
  | .error _ => .error (.expect "sample succeeded")

theorem sampleCallback_ok_iff {context : Context} :
    (∃ sample, sampleCallback lib context = .ok sample) ↔
      ∃ sample, (LibunwindUnwinder.new 150).unwind lib context = .ok sample := by
  rw [sampleCallback]
  cases (LibunwindUnwinder.new 150).unwind lib context <;> simp

end Session

end Vignette
