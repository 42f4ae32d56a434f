import Mathlib.Data.List.Basic
import Mathlib.Data.List.TakeWhile

/-! Text as bytes: UTF-8, the lines of a byte stream, and the pieces of a line. -/

namespace Vignette.Library

def utf8 (s : String) : List UInt8 := s.toList.flatMap String.utf8EncodeChar

def decode (bytes : List UInt8) : Option String := String.fromUTF8? bytes.toByteArray

theorem decode_utf8 (s : String) : decode (utf8 s) = some s := by
  have hbytes : (utf8 s).toByteArray = s.toByteArray := by
    rw [← String.utf8Encode_toList]
    rfl
  rw [decode, hbytes, String.fromUTF8?, dif_pos s.isValidUTF8]
  rfl

theorem of_mem_utf8EncodeChar {c : Char} {b : UInt8} (hb : b.toNat < 0x80)
    (h : b ∈ String.utf8EncodeChar c) : c.val.toNat = b.toNat := by
  have hc := c.val.toNat_lt
  rw [String.utf8EncodeChar] at h
  simp only [apply_ite (b ∈ ·), List.mem_cons, List.not_mem_nil, or_false, ← UInt8.toNat_inj,
    UInt8.toNat_ofNat'] at h
  split at h
  · omega
  · split at h
    · omega
    · split at h <;> omega

theorem char_eq_of_mem_utf8EncodeChar {c d : Char} (hd : d.val.toNat < 0x80)
    (h : UInt8.ofNat d.val.toNat ∈ String.utf8EncodeChar c) : c = d := by
  have hb : (UInt8.ofNat d.val.toNat).toNat = d.val.toNat :=
    UInt8.toNat_ofNat_of_lt' (Nat.lt_trans hd (by decide))
  have hc := of_mem_utf8EncodeChar (hb.symm ▸ hd) h
  exact Char.ext (UInt32.toNat_inj.mp (hc.trans hb))

theorem mem_of_mem_utf8 {s : String} {d : Char} (hd : d.val.toNat < 0x80)
    (h : UInt8.ofNat d.val.toNat ∈ utf8 s) : d ∈ s.toList := by
  obtain ⟨c, hc, hb⟩ := List.mem_flatMap.mp h
  exact char_eq_of_mem_utf8EncodeChar hd hb ▸ hc

def stripCr (line : List UInt8) : List UInt8 :=
  if line.getLast? = some 13 then line.dropLast else line

def withoutCr (s : String) : String :=
  if s.toList.getLast? = some '\r' then String.ofList s.toList.dropLast else s

theorem stripCr_utf8 (s : String) : stripCr (utf8 s) = utf8 (withoutCr s) := by
  rcases List.eq_nil_or_concat s.toList with hnil | ⟨l, c, hs⟩
  · simp [stripCr, withoutCr, utf8, hnil]
  · have hutf8 : utf8 s = l.flatMap String.utf8EncodeChar ++ String.utf8EncodeChar c := by
      rw [utf8, hs]
      simp
    rw [stripCr, withoutCr, hutf8, hs]
    by_cases hc : c = '\r'
    · subst hc
      have henc : String.utf8EncodeChar '\r' = [13] := rfl
      simp [henc, utf8]
    · obtain ⟨b, hb⟩ := Option.isSome_iff_exists.mp
        (List.getLast?_isSome.mpr (String.utf8EncodeChar_ne_nil (c := c)))
      have hne : b ≠ 13 := by
        rintro rfl
        exact hc (char_eq_of_mem_utf8EncodeChar (d := '\r') (by decide) (List.mem_of_getLast? hb))
      simp [hb, hne, hc, hutf8]

def takeLines : Nat → List UInt8 → List (List UInt8)
  | 0, _ => []
  | n + 1, bytes =>
    match bytes.dropWhile (· ≠ 10) with
    | [] => if bytes = [] then [] else [bytes]
    | _ :: rest => stripCr (bytes.takeWhile (· ≠ 10)) :: takeLines n rest

theorem takeLines_cons {n : Nat} {line rest : List UInt8} (h : 10 ∉ line) :
    takeLines (n + 1) (line ++ 10 :: rest) = stripCr line :: takeLines n rest := by
  have hall : ∀ b ∈ line, decide (b ≠ 10) = true := fun b hb =>
    decide_eq_true fun heq => h (heq ▸ hb)
  rw [takeLines, List.dropWhile_append_of_pos hall, List.takeWhile_append_of_pos hall]
  simp

def pieces (s : String) : List String := (s.toList.splitOn ' ').map String.ofList

theorem pieces_cons {s t : String} (h : ' ' ∉ s.toList) :
    pieces (s ++ " " ++ t) = s :: pieces t := by
  have hs : (s ++ " " ++ t).toList = s.toList ++ ' ' :: t.toList := by simp
  rw [pieces, hs, List.splitOn_append_cons_self_of_not_mem h, List.map_cons, String.ofList_toList]
  rfl

def firstPiece (s : String) : String := String.ofList (s.toList.takeWhile (· ≠ ' '))

theorem splitOn_head {α : Type} [DecidableEq α] (a : α) (l : List α) :
    (l.splitOn a)[0]? = some (l.takeWhile (· ≠ a)) := by
  induction l with
  | nil => rfl
  | cons x l ih =>
    rw [List.splitOn_cons_eq_if_modifyHead]
    by_cases hx : x = a
    · simp [hx]
    · simp only [beq_iff_eq, hx, if_false]
      cases hl : l.splitOn a with
      | nil => exact absurd hl (List.splitOn_ne_nil a l)
      | cons p ps =>
        rw [hl, List.getElem?_cons_zero, Option.some.injEq] at ih
        simp [ih, hx]

theorem not_mem_of_mem_splitOn {α : Type} [DecidableEq α] {a : α} {l w : List α}
    (h : w ∈ l.splitOn a) : a ∉ w := by
  induction l generalizing w with
  | nil =>
    rw [List.mem_singleton.mp h]
    exact List.not_mem_nil
  | cons x l ih =>
    rw [List.splitOn_cons_eq_if_modifyHead] at h
    by_cases hx : x = a
    · simp only [beq_iff_eq, hx, if_true, List.mem_cons] at h
      rcases h with rfl | h
      · exact List.not_mem_nil
      · exact ih h
    · cases hl : l.splitOn a with
      | nil => exact absurd hl (List.splitOn_ne_nil a l)
      | cons p ps =>
        simp only [beq_iff_eq, hx, if_false, hl, List.modifyHead_cons, List.mem_cons] at h
        rcases h with rfl | h
        · have hp : a ∉ p := ih (hl ▸ List.mem_cons_self)
          exact fun hmem => (List.mem_cons.mp hmem).elim (fun heq => hx heq.symm) hp
        · exact ih (hl ▸ List.mem_cons_of_mem p h)

theorem pieces_head (s : String) : (pieces s)[0]? = some (firstPiece s) := by
  rw [pieces, firstPiece, List.getElem?_map, splitOn_head]
  rfl

theorem prefix_firstPiece (s : String) : (firstPiece s).toList <+: s.toList := by
  rw [firstPiece, String.toList_ofList]
  exact List.takeWhile_prefix _

theorem prefix_withoutCr (s : String) : (withoutCr s).toList <+: s.toList := by
  rw [withoutCr]
  split
  · rw [String.toList_ofList]
    exact List.dropLast_prefix _
  · exact List.prefix_rfl

theorem firstPiece_eq_iff {s : String} : firstPiece s = s ↔ ' ' ∉ s.toList := by
  rw [← String.toList_inj, firstPiece, String.toList_ofList, List.takeWhile_eq_self_iff]
  constructor
  · intro h hmem
    simpa using h ' ' hmem
  · intro h c hc
    exact decide_eq_true fun heq => h (heq ▸ hc)

theorem withoutCr_eq_iff {s : String} : withoutCr s = s ↔ s.toList.getLast? ≠ some '\r' := by
  rw [withoutCr]
  split
  · rename_i h
    refine iff_of_false (fun heq => ?_) (not_not_intro h)
    have hlen := congrArg (fun t => t.toList.length) heq
    rw [String.toList_ofList, List.length_dropLast] at hlen
    have hpos : s.toList ≠ [] := fun hnil => by simp [hnil] at h
    have := List.length_pos_iff.mpr hpos
    omega
  · rename_i h
    exact iff_of_true rfl h

theorem withoutCr_append {s t : String} (ht : t ≠ "") : withoutCr (s ++ t) = s ++ withoutCr t := by
  have hne : t.toList ≠ [] := fun h => ht (String.toList_eq_nil_iff.mp h)
  rw [withoutCr, withoutCr, String.toList_append, List.getLast?_append_of_ne_nil _ hne]
  split
  · rw [List.dropLast_append_of_ne_nil hne, String.ofList_append, String.ofList_toList]
  · rfl

end Vignette.Library
