import Mathlib.Data.List.AList

/-! Hash maps as association lists: tables that remember justified answers, maps
collected from lists of entries, and the order in which a map is iterated. -/

universe u v w

namespace Vignette.Library

variable {α : Type u} {β : Type v} {γ : Type w}

def LastOf (key : γ → α) (items : List γ) (item : γ) : Prop :=
  ∃ before after, items = before ++ item :: after ∧ ∀ other ∈ after, key other ≠ key item

theorem lastOf_cons {key : γ → α} {item x : γ} {items : List γ} :
    LastOf key (x :: items) item ↔
      LastOf key items item ∨ item = x ∧ ∀ other ∈ items, key other ≠ key item := by
  constructor
  · rintro ⟨before, after, heq, hlast⟩
    cases before with
    | nil =>
      cases heq
      exact .inr ⟨rfl, hlast⟩
    | cons y before =>
      cases heq
      exact .inl ⟨before, after, rfl, hlast⟩
  · rintro (⟨before, after, rfl, hlast⟩ | ⟨rfl, hlast⟩)
    · exact ⟨x :: before, after, rfl, hlast⟩
    · exact ⟨[], items, rfl, hlast⟩

section Update

variable [DecidableEq α] {key : γ → α} {value : γ → β}

theorem foldl_update_of_ne {items : List γ} {a : α} (h : ∀ item ∈ items, key item ≠ a) (f : α → β) :
    items.foldl (fun f item => Function.update f (key item) (value item)) f a = f a := by
  induction items generalizing f with
  | nil => rfl
  | cons item items ih =>
    rw [List.forall_mem_cons] at h
    rw [List.foldl_cons, ih h.2, Function.update_of_ne (Ne.symm h.1)]

theorem foldl_update_of_lastOf {items : List γ} {item : γ} (h : LastOf key items item)
    (f : α → β) : items.foldl (fun f item => Function.update f (key item) (value item)) f (key item) =
      value item := by
  obtain ⟨before, after, rfl, hlast⟩ := h
  rw [List.foldl_append, List.foldl_cons, foldl_update_of_ne hlast, Function.update_self]

end Update

theorem exists_lastOf {key : γ → α} {items : List γ} {a : α} (h : ∃ item ∈ items, key item = a) :
    ∃ item, LastOf key items item ∧ key item = a := by
  induction items with
  | nil => simp at h
  | cons x items ih =>
    by_cases hlater : ∃ item ∈ items, key item = a
    · obtain ⟨item, hitem, ha⟩ := ih hlater
      exact ⟨item, lastOf_cons.mpr (.inl hitem), ha⟩
    · simp only [List.mem_cons, exists_eq_or_imp, hlater, or_false] at h
      refine ⟨x, lastOf_cons.mpr (.inr ⟨rfl, fun item hitem ha => ?_⟩), h⟩
      exact hlater ⟨item, hitem, ha.trans h⟩

/-- A hash map is iterated in some order of its entries. -/
structure Iteration (α : Type u) (β : Type v) where
  entries : (AList fun _ : α => β) → List ((_ : α) × β)
  perm : ∀ map, (entries map).Perm map.entries

variable [DecidableEq α]

def Remembers (R : α → β → Prop) (table : AList fun _ : α => β) : Prop :=
  ∀ a b, table.lookup a = some b → R a b

theorem remembers_empty {R : α → β → Prop} : Remembers R ∅ := by simp [Remembers]

theorem Remembers.insert {R : α → β → Prop} {table : AList fun _ : α => β}
    (h : Remembers R table) {a : α} {b : β} (hR : R a b) : Remembers R (table.insert a b) := by
  intro a' b' hlookup
  by_cases ha : a' = a
  · rw [ha, AList.lookup_insert, Option.some.injEq] at hlookup
    rw [ha, ← hlookup]
    exact hR
  · rw [AList.lookup_insert_ne ha] at hlookup
    exact h a' b' hlookup

def valuesAt (map : AList fun _ : α => List β) (a : α) : List β := (map.lookup a).getD []

def pushAt (map : AList fun _ : α => List β) (a : α) (b : β) : AList fun _ : α => List β :=
  map.insert a (valuesAt map a ++ [b])

@[simp] theorem valuesAt_empty (a : α) : valuesAt (∅ : AList fun _ : α => List β) a = [] := by
  simp [valuesAt]

@[simp] theorem valuesAt_pushAt (map : AList fun _ : α => List β) (a : α) (b : β) :
    valuesAt (pushAt map a b) a = valuesAt map a ++ [b] := by
  simp [valuesAt, pushAt]

theorem valuesAt_pushAt_of_ne {map : AList fun _ : α => List β} {a a' : α} (b : β) (h : a' ≠ a) :
    valuesAt (pushAt map a b) a' = valuesAt map a' := by
  simp [valuesAt, pushAt, AList.lookup_insert_ne h]

theorem lookup_pushAt_ne_nil {map : AList fun _ : α => List β} {a a' : α} {b : β} {bs : List β}
    (hmap : ∀ bs, map.lookup a' = some bs → bs ≠ [])
    (h : (pushAt map a b).lookup a' = some bs) : bs ≠ [] := by
  by_cases ha : a' = a
  · rw [ha, pushAt, AList.lookup_insert, Option.some.injEq] at h
    simp [← h]
  · rw [pushAt, AList.lookup_insert_ne ha] at h
    exact hmap bs h

/-- The map collected from a list of entries, in which later entries replace earlier ones. -/
def collect (entries : List ((_ : α) × β)) : AList fun _ : α => β :=
  entries.foldl (fun map entry => map.insert entry.1 entry.2) ∅

end Vignette.Library
