import Mathlib.Data.List.Infix
import Mathlib.Data.List.Nodup
import Mathlib.Logic.Equiv.Set

/-! Append-only tables of distinct items, in which an item is known by its position:
interning, the sequences of positions that interning produces, and renumberings. -/

universe u

namespace Vignette.Library

variable {α : Type u}

theorem getElem?_mono {l l' : List α} (h : l <+: l') {i : Nat} {a : α}
    (hi : l[i]? = some a) : l'[i]? = some a := by
  have hlt := (List.getElem?_eq_some_iff.mp hi).1
  rw [List.prefix_iff_getElem?.mp h i hlt, ← hi, List.getElem?_eq_getElem hlt]

theorem getElem?_inj_of_nodup {l : List α} (hl : l.Nodup) {i j : Nat} {a : α}
    (hi : l[i]? = some a) (hj : l[j]? = some a) : i = j :=
  (List.getElem?_inj (List.getElem?_eq_some_iff.mp hi).1 hl).mp (hi.trans hj.symm)

theorem idxOf_mono [DecidableEq α] {l l' : List α} (h : l <+: l') {a : α} (ha : a ∈ l) :
    l'.idxOf a = l.idxOf a := by
  obtain ⟨r, rfl⟩ := h
  exact List.idxOf_append_of_mem ha

section Intern

variable [DecidableEq α]

def intern (l : List α) (a : α) : List α := if a ∈ l then l else l ++ [a]

theorem intern_of_mem {l : List α} {a : α} (h : a ∈ l) : intern l a = l := if_pos h

theorem intern_of_not_mem {l : List α} {a : α} (h : a ∉ l) : intern l a = l ++ [a] := if_neg h

theorem prefix_intern (l : List α) (a : α) : l <+: intern l a := by
  by_cases h : a ∈ l
  · rw [intern_of_mem h]
  · rw [intern_of_not_mem h]
    exact List.prefix_append l [a]

@[simp] theorem mem_intern {l : List α} {a b : α} : b ∈ intern l a ↔ b ∈ l ∨ b = a := by
  by_cases h : a ∈ l
  · rw [intern_of_mem h]
    constructor
    · exact Or.inl
    · intro hb
      cases hb with
      | inl hb => exact hb
      | inr hb => rw [hb]; exact h
  · simp [intern_of_not_mem h]

theorem getElem?_idxOf_intern (l : List α) (a : α) :
    (intern l a)[(intern l a).idxOf a]? = some a :=
  List.getElem?_idxOf (mem_intern.mpr (.inr rfl))

def internAll (l as : List α) : List α := as.foldl intern l

theorem internAll_append (l as bs : List α) :
    internAll l (as ++ bs) = internAll (internAll l as) bs := List.foldl_append

@[simp] theorem mem_internAll {l as : List α} {b : α} : b ∈ internAll l as ↔ b ∈ l ∨ b ∈ as := by
  induction as generalizing l with
  | nil => simp [internAll]
  | cons a as ih => rw [internAll, List.foldl_cons, ← internAll, ih, mem_intern, List.mem_cons, or_assoc]

theorem internAll_of_subset {l as : List α} (h : as ⊆ l) : internAll l as = l := by
  induction as with
  | nil => rfl
  | cons a as ih =>
    rw [List.cons_subset] at h
    rw [internAll, List.foldl_cons, intern_of_mem h.1]
    exact ih h.2

theorem internAll_of_nodup {l as : List α} (h : (l ++ as).Nodup) : internAll l as = l ++ as := by
  induction as generalizing l with
  | nil => simp [internAll]
  | cons a as ih =>
    have ha : a ∉ l := fun hl => (List.nodup_append.mp h).2.2 a hl a List.mem_cons_self rfl
    rw [internAll, List.foldl_cons, ← internAll, intern_of_not_mem ha, ih]
    · rw [List.append_assoc, List.singleton_append]
    · rw [List.append_assoc, List.singleton_append]
      exact h

theorem internAll_eq_eraseDups (l as : List α) :
    internAll l as = l ++ (as.filter fun a => a ∉ l).eraseDups := by
  induction as generalizing l with
  | nil => simp [internAll]
  | cons a as ih =>
    rw [internAll, List.foldl_cons, ← internAll]
    by_cases ha : a ∈ l
    · simp [intern_of_mem ha, ih, ha]
    · simp [intern_of_not_mem ha, ih, ha, List.eraseDups_cons, List.filter_filter, and_comm,
        beq_eq_decide]

end Intern

/-- Sequences of positions in which every position first occurs after all smaller
ones: what a table of `n` entries hands out while it grows from nothing. -/
inductive RestrictedGrowth : List Nat → Nat → Prop
  | nil : RestrictedGrowth [] 0
  | old {l n i} : RestrictedGrowth l n → i < n → RestrictedGrowth (l ++ [i]) n
  | new {l n} : RestrictedGrowth l n → RestrictedGrowth (l ++ [n]) (n + 1)

namespace RestrictedGrowth

theorem mem_iff {l : List Nat} {n : Nat} (h : RestrictedGrowth l n) {i : Nat} :
    i ∈ l ↔ i < n := by
  induction h with
  | nil => simp
  | old _ hi ih =>
    simp only [List.mem_append, ih, List.mem_singleton]
    omega
  | new _ ih =>
    simp only [List.mem_append, ih, List.mem_singleton]
    omega

theorem idxOf_lt {l : List Nat} {n : Nat} (h : RestrictedGrowth l n) {i j : Nat}
    (hij : i < j) (hj : j < n) : l.idxOf i < l.idxOf j := by
  induction h with
  | nil => exact absurd hj (Nat.not_lt_zero j)
  | old hl _ ih =>
    rw [List.idxOf_append_of_mem (hl.mem_iff.mpr (hij.trans hj)),
      List.idxOf_append_of_mem (hl.mem_iff.mpr hj)]
    exact ih hj
  | new hl ih =>
    rename_i l n
    have hi : i ∈ l := hl.mem_iff.mpr (by omega)
    rw [List.idxOf_append_of_mem hi]
    by_cases hjn : j < n
    · rw [List.idxOf_append_of_mem (hl.mem_iff.mpr hjn)]
      exact ih hjn
    · -- the largest position occurs only at the end
      rw [List.idxOf_append_of_notMem (fun hm => hjn (hl.mem_iff.mp hm))]
      exact Nat.lt_of_lt_of_le (List.idxOf_lt_length_iff.mpr hi) (Nat.le_add_right _ _)

theorem intern [DecidableEq α] {l : List Nat} {vec : List α}
    (h : RestrictedGrowth l vec.length) (a : α) :
    RestrictedGrowth (l ++ [(Library.intern vec a).idxOf a]) (Library.intern vec a).length := by
  by_cases ha : a ∈ vec
  · rw [intern_of_mem ha]
    exact .old h (List.idxOf_lt_length_iff.mpr ha)
  · rw [intern_of_not_mem ha, List.idxOf_append_of_notMem ha]
    simpa using RestrictedGrowth.new h

end RestrictedGrowth

section Renumber

universe v w

variable {ι : Type u} {ι' : Type v} {κ : Type w} {k : ι → κ} {k' : ι' → κ}

noncomputable def renumber (hk : Function.Injective k) (hk' : Function.Injective k')
    (h : Set.range k = Set.range k') : ι ≃ ι' :=
  (Equiv.ofInjective k hk).trans ((Equiv.setCongr h).trans (Equiv.ofInjective k' hk').symm)

theorem apply_renumber (hk : Function.Injective k) (hk' : Function.Injective k')
    (h : Set.range k = Set.range k') (i : ι) : k' (renumber hk hk' h i) = k i :=
  Equiv.apply_ofInjective_symm hk' (Equiv.setCongr h (Equiv.ofInjective k hk i))

theorem renumber_eq (hk : Function.Injective k) (hk' : Function.Injective k')
    (h : Set.range k = Set.range k') {i : ι} {j : ι'} (hij : k i = k' j) :
    renumber hk hk' h i = j :=
  hk' ((apply_renumber hk hk' h i).trans hij)

end Renumber

end Vignette.Library
