import Mathlib.Tactic.Common

/-! Integers in decimal, as they are printed and as they are read back. -/

namespace Vignette.Library

def readDigits (cs : List Char) : Option Nat :=
  if !cs.isEmpty && cs.all Char.isDigit then some (Nat.ofDigitChars 10 cs 0) else none

def readInt (s : String) : Option Int :=
  match s.toList with
  | '+' :: cs => (readDigits cs).map fun n => (n : Int)
  | '-' :: cs => (readDigits cs).map fun n => -(n : Int)
  | cs => (readDigits cs).map fun n => (n : Int)

theorem readDigits_toDigits (n : Nat) : readDigits (Nat.toDigits 10 n) = some n := by
  have hdigits : ∀ c ∈ Nat.toDigits 10 n, c.isDigit = true := fun _ hc =>
    Nat.isDigit_of_mem_toDigits (by decide) (by decide) hc
  have hall : (!(Nat.toDigits 10 n).isEmpty && (Nat.toDigits 10 n).all Char.isDigit) = true := by
    simpa [Nat.toDigits_ne_nil] using hdigits
  rw [readDigits, if_pos hall, Nat.ofDigitChars_ten_toDigits]

theorem readInt_repr (n : Nat) : readInt n.repr = some (n : Int) := by
  have hdigits : ∀ c ∈ Nat.toDigits 10 n, c.isDigit = true := fun _ hc =>
    Nat.isDigit_of_mem_toDigits (by decide) (by decide) hc
  rw [readInt, Nat.toList_repr]
  split
  · rename_i cs hcs
    exact absurd (hdigits '+' (hcs ▸ List.mem_cons_self)) (by decide)
  · rename_i cs hcs
    exact absurd (hdigits '-' (hcs ▸ List.mem_cons_self)) (by decide)
  · rw [readDigits_toDigits]
    rfl

theorem readInt_toString (i : Int) : readInt (toString i) = some i := by
  cases i with
  | ofNat n => exact readInt_repr n
  | negSucc n =>
    have hlist : (toString (Int.negSucc n)).toList = '-' :: Nat.toDigits 10 (n + 1) := by
      rw [← Nat.toList_repr]
      exact String.toList_append
    rw [readInt, hlist]
    simp only [readDigits_toDigits]
    rfl

end Vignette.Library
