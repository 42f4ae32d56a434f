import Vignette.Library.Decimal
import Vignette.Library.Text
import Vignette.Library.Traverse
import Vignette.Types

/-! `threadinfo` on Linux, from the entries of `/proc/self/task` to the threads. -/

namespace Vignette.ThreadInfo

open Library

/-- `str::parse::<i32>`. -/
def parseI32 (s : String) : Option Int32 := do
  let i ← readInt s
  if -0x80000000 ≤ i ∧ i < 0x80000000 then some (Int32.ofInt i) else none

/-- What reading an entry of a directory gives: its name, unless it fails. -/
abbrev DirEntry := Option (List UInt8)

/-- What `thread_iterator` makes of one entry. -/
def threadOf (entry : DirEntry) : Except Panic ThreadId := do
  let file ← unwrap entry
  let name ← unwrap (decode file)
  let tid ← unwrap (parseI32 name)
  return ⟨tid⟩

/-- The entry under which the kernel lists a thread. -/
def taskEntry (thread : ThreadId) : DirEntry := some (utf8 (toString thread.tid.toInt))

theorem parseI32_eq_some_iff {s : String} {n : Int32} :
    parseI32 s = some n ↔ readInt s = some n.toInt := by
  simp only [parseI32, Option.bind_eq_bind, Option.bind_eq_some_iff, Option.ite_none_right_eq_some,
    Option.some.injEq]
  constructor
  · rintro ⟨i, hread, ⟨hmin, hmax⟩, rfl⟩
    rw [hread, Int32.toInt_ofInt_of_le hmin hmax]
  · intro hread
    exact ⟨n.toInt, hread, ⟨n.le_toInt, n.toInt_lt⟩, Int32.ofInt_toInt n⟩

theorem threadOf_ok_iff {entry : DirEntry} {thread : ThreadId} :
    threadOf entry = .ok thread ↔
      ∃ file name, entry = some file ∧ decode file = some name ∧
        readInt name = some thread.tid.toInt := by
  simp only [threadOf, bind_ok, unwrap_ok]
  constructor
  · rintro ⟨file, hentry, name, hname, tid, htid, hthread⟩
    cases hthread
    exact ⟨file, name, hentry, hname, parseI32_eq_some_iff.mp htid⟩
  · rintro ⟨file, name, hentry, hname, hread⟩
    exact ⟨file, hentry, name, hname, thread.tid, parseI32_eq_some_iff.mpr hread, rfl⟩

theorem threadOf_taskEntry (thread : ThreadId) : threadOf (taskEntry thread) = .ok thread :=
  threadOf_ok_iff.mpr ⟨_, _, rfl, decode_utf8 _, readInt_toString _⟩

end Vignette.ThreadInfo
