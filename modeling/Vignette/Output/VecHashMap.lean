import Mathlib.Data.List.AList
import Vignette.Library.Index

namespace Vignette

open Library

universe u

variable {V : Type u} [DecidableEq V]

/-- A list of distinct items and the map back from each item to its index. -/
structure VecHashMap (V : Type u) [DecidableEq V] where
  vec : List V
  map : AList fun _ : V => Nat
  inverse : ∀ {item index}, map.lookup item = some index ↔ vec[index]? = some item

namespace VecHashMap

def new : VecHashMap V where
  vec := []
  map := ∅
  inverse := by simp

theorem lookup_eq_none {table : VecHashMap V} {item : V} :
    table.map.lookup item = none ↔ item ∉ table.vec := by
  rw [Option.eq_none_iff_forall_ne_some, List.mem_iff_getElem?]
  simp [table.inverse]

theorem inverse_push (table : VecHashMap V) {item : V} (h : table.map.lookup item = none)
    {v : V} {index : Nat} :
    (table.map.insert item table.vec.length).lookup v = some index ↔
      (table.vec ++ [item])[index]? = some v := by
  have hnew := lookup_eq_none.mp h
  by_cases hv : v = item
  · rw [hv, AList.lookup_insert, Option.some.injEq]
    constructor
    · intro hi
      rw [← hi, List.getElem?_concat_length]
    · intro hi
      by_cases hlt : index < table.vec.length
      · rw [List.getElem?_append_left hlt] at hi
        exact absurd (List.mem_of_getElem? hi) hnew
      · have := (List.getElem?_eq_some_iff.mp hi).1
        rw [List.length_append, List.length_singleton] at this
        omega
  · rw [AList.lookup_insert_ne hv, table.inverse]
    constructor
    · exact getElem?_mono (List.prefix_append _ _)
    · intro hi
      by_cases hlt : index < table.vec.length
      · rw [List.getElem?_append_left hlt] at hi
        exact hi
      · rw [List.getElem?_append_right (Nat.le_of_not_lt hlt)] at hi
        have hmem := List.mem_of_getElem? hi
        exact absurd (List.mem_singleton.mp hmem) hv

def getOrInsert (table : VecHashMap V) (item : V) : Nat × VecHashMap V :=
  match h : table.map.lookup item with
  | some index => (index, table)
  | none =>
    let vec := table.vec ++ [item]
    let index := vec.length - 1
    (index, {
      vec
      map := table.map.insert item index
      inverse := by
        simp only [index, vec, List.length_append, List.length_singleton, Nat.add_sub_cancel]
        exact table.inverse_push h })

theorem getOrInsert_vec (table : VecHashMap V) (item : V) :
    (table.getOrInsert item).2.vec = intern table.vec item := by
  rw [getOrInsert]
  split
  · rename_i index h
    exact (intern_of_mem (List.mem_of_getElem? (table.inverse.mp h))).symm
  · rename_i h
    exact (intern_of_not_mem (lookup_eq_none.mp h)).symm

theorem vec_nodup (table : VecHashMap V) : table.vec.Nodup := by
  rw [List.nodup_iff_getElem?_ne_getElem?]
  intro i j hij hj heq
  have hi := List.getElem?_eq_getElem hj
  have hij' := (table.inverse.mpr hi).symm.trans (table.inverse.mpr (heq.trans hi))
  simp only [Option.some.injEq] at hij'
  omega

theorem getOrInsert_index (table : VecHashMap V) (item : V) :
    (table.getOrInsert item).1 = (intern table.vec item).idxOf item := by
  rw [← getOrInsert_vec]
  apply getElem?_inj_of_nodup (table.getOrInsert item).2.vec_nodup (a := item)
  · rw [getOrInsert]
    split
    · rename_i index h
      exact table.inverse.mp h
    · simp
  · rw [getOrInsert_vec]
    exact getElem?_idxOf_intern table.vec item

theorem getElem?_getOrInsert (table : VecHashMap V) (item : V) :
    (table.getOrInsert item).2.vec[(table.getOrInsert item).1]? = some item := by
  rw [getOrInsert_index, getOrInsert_vec]
  exact getElem?_idxOf_intern table.vec item

def getOrInsertAll (table : VecHashMap V) : List V → List Nat × VecHashMap V
  | [] => ([], table)
  | item :: items =>
    let (index, table) := table.getOrInsert item
    let (indices, table) := getOrInsertAll table items
    (index :: indices, table)

theorem getOrInsertAll_vec (table : VecHashMap V) (items : List V) :
    (table.getOrInsertAll items).2.vec = internAll table.vec items := by
  induction items generalizing table with
  | nil => rfl
  | cons item items ih => rw [getOrInsertAll, ih, getOrInsert_vec, internAll, internAll, List.foldl_cons]

theorem getOrInsertAll_append (table : VecHashMap V) (items more : List V) :
    table.getOrInsertAll (items ++ more) =
      ((table.getOrInsertAll items).1 ++ ((table.getOrInsertAll items).2.getOrInsertAll more).1,
        ((table.getOrInsertAll items).2.getOrInsertAll more).2) := by
  induction items generalizing table with
  | nil => rfl
  | cons item items ih => simp [getOrInsertAll, ih]

theorem prefix_getOrInsertAll (table : VecHashMap V) (items : List V) :
    table.vec <+: (table.getOrInsertAll items).2.vec := by
  rw [getOrInsertAll_vec, internAll_eq_eraseDups]
  exact List.prefix_append _ _

theorem getOrInsertAll_stored (table : VecHashMap V) (items : List V) :
    List.Forall₂ (fun item index => (table.getOrInsertAll items).2.vec[index]? = some item)
      items (table.getOrInsertAll items).1 := by
  induction items generalizing table with
  | nil => exact .nil
  | cons item items ih =>
    refine .cons ?_ (ih (table.getOrInsert item).2)
    exact getElem?_mono (prefix_getOrInsertAll _ items) (table.getElem?_getOrInsert item)

structure Indexes (items : List V) (indices : List Nat) (table : VecHashMap V) : Prop where
  inverse : ∀ item index, table.map.lookup item = some index ↔ table.vec[index]? = some item
  vec : table.vec = items.eraseDups
  length : indices.length = items.length
  stored : ∀ call ∈ items.zip indices, table.vec[call.2]? = some call.1
  same : ∀ call ∈ items.zip indices, ∀ call' ∈ items.zip indices,
    call.2 = call'.2 ↔ call.1 = call'.1

theorem indexes_getOrInsertAll (items : List V) :
    Indexes items (new.getOrInsertAll items).1 (new.getOrInsertAll items).2 := by
  have hforall := getOrInsertAll_stored new items
  have hstored : ∀ call ∈ items.zip (new.getOrInsertAll items).1,
      (new.getOrInsertAll items).2.vec[call.2]? = some call.1 :=
    fun _ hcall => (List.forall₂_iff_zip.mp hforall).2 hcall
  refine ⟨fun _ _ => (new.getOrInsertAll items).2.inverse, ?_, hforall.length_eq.symm, hstored, ?_⟩
  · rw [getOrInsertAll_vec, internAll_eq_eraseDups]
    simp [new]
  · intro call hcall call' hcall'
    constructor
    · intro heq
      have hitem := hstored call hcall
      rw [heq, hstored call' hcall', Option.some.injEq] at hitem
      exact hitem.symm
    · intro heq
      have hitem := hstored call hcall
      rw [heq] at hitem
      exact getElem?_inj_of_nodup (new.getOrInsertAll items).2.vec_nodup hitem
        (hstored call' hcall')

/-- The table is an index of the items in the order in which they first came, and what a
call returned stays true through any further calls. -/
theorem unique_append_only_index (items more : List V) :
    ∃ indices table indices' table', new.getOrInsertAll items = (indices, table) ∧
      table.getOrInsertAll more = (indices', table') ∧
      Indexes items indices table ∧ Indexes (items ++ more) (indices ++ indices') table' ∧
      table.vec <+: table'.vec ∧ ∀ call ∈ items.zip indices, table'.vec[call.2]? = some call.1 := by
  have hitems := indexes_getOrInsertAll items
  have hmore := indexes_getOrInsertAll (items ++ more)
  have hprefix := prefix_getOrInsertAll (new.getOrInsertAll items).2 more
  rw [getOrInsertAll_append] at hmore
  exact ⟨_, _, _, _, rfl, rfl, hitems, hmore, hprefix,
    fun call hcall => getElem?_mono hprefix (hitems.stored call hcall)⟩

end VecHashMap

end Vignette
