import Mathlib.Order.Bounds.Defs
import Vignette.Library.Blocks
import Vignette.Library.Index

/-! The skyline of a sequence of addresses: one span for each block of which an address was
seen, in the order of their first ones, up to the highest one. -/

universe u v

namespace Vignette.Library

variable {α : Type u} {κ : Type v} {S : Blocks α κ} {seen : List α} {a : α} {b : κ × α}

def Span.block (s : Span α κ) : κ × α := (s.label, s.base)

section Seen

variable [DecidableEq α] [DecidableEq κ]

def blocksSeen (S : Blocks α κ) (seen : List α) : List (κ × α) := internAll [] (seen.filterMap S)

theorem blocksSeen_snoc_none (h : S a = none) : blocksSeen S (seen ++ [a]) = blocksSeen S seen := by
  rw [blocksSeen, List.filterMap_append, List.filterMap_cons_none h, List.filterMap_nil,
    List.append_nil, blocksSeen]

theorem blocksSeen_snoc (h : S a = some b) :
    blocksSeen S (seen ++ [a]) = intern (blocksSeen S seen) b := by
  rw [blocksSeen, List.filterMap_append, List.filterMap_cons_some h, List.filterMap_nil,
    internAll_append, ← blocksSeen]
  rfl

theorem mem_blocksSeen : b ∈ blocksSeen S seen ↔ ∃ a ∈ seen, S a = some b := by
  simp [blocksSeen]

end Seen

def HighestOf [LE α] (S : Blocks α κ) (seen : List α) (b : κ × α) (top : α) : Prop :=
  IsGreatest {a | a ∈ seen ∧ S a = some b} top

namespace HighestOf

variable [LE α] {top : α}

theorem snoc (h : HighestOf S seen b top) (ha : S a = some b → a ≤ top) :
    HighestOf S (seen ++ [a]) b top := by
  refine ⟨⟨List.mem_append_left _ h.1.1, h.1.2⟩, fun x ⟨hx, hS⟩ => ?_⟩
  cases List.mem_append.mp hx with
  | inl hx => exact h.2 ⟨hx, hS⟩
  | inr hx =>
    obtain rfl := List.mem_singleton.mp hx
    exact ha hS

theorem snoc_raise [Std.IsPreorder α] (h : ∀ x ∈ seen, S x = some b → x ≤ a) (ha : S a = some b) :
    HighestOf S (seen ++ [a]) b a := by
  refine ⟨⟨List.mem_append_right _ List.mem_cons_self, ha⟩, fun x ⟨hx, hS⟩ => ?_⟩
  cases List.mem_append.mp hx with
  | inl hx => exact h x hx hS
  | inr hx =>
    rw [List.mem_singleton.mp hx]
    exact Std.le_refl a

end HighestOf

variable [DecidableEq α] [DecidableEq κ] [LE α]

structure Skyline (S : Blocks α κ) (seen : List α) (spans : List (Span α κ)) : Prop where
  blocks : spans.map Span.block = blocksSeen S seen
  distinct : (spans.map Span.block).Nodup
  top : ∀ s ∈ spans, HighestOf S seen s.block s.top

namespace Skyline

variable {spans pre post : List (Span α κ)} {s : Span α κ}

theorem empty : Skyline S [] [] := ⟨rfl, List.nodup_nil, by simp⟩

theorem skip (h : Skyline S seen spans) (ha : S a = none) : Skyline S (seen ++ [a]) spans where
  blocks := h.blocks.trans (blocksSeen_snoc_none ha).symm
  distinct := h.distinct
  top s hs := (h.top s hs).snoc fun hS => by simp [ha] at hS

theorem below (h : Skyline S seen spans) (hs : s ∈ spans) (ha : S a = some s.block)
    (hle : a ≤ s.top) : Skyline S (seen ++ [a]) spans where
  blocks := by
    have hmem : s.block ∈ blocksSeen S seen := h.blocks ▸ List.mem_map_of_mem hs
    rw [blocksSeen_snoc ha, intern_of_mem hmem, h.blocks]
  distinct := h.distinct
  top t ht := (h.top t ht).snoc fun hS => by
    have hblock : s.block = t.block := Option.some.inj (ha.symm.trans hS)
    rwa [← List.inj_on_of_nodup_map h.distinct hs ht hblock]

theorem raise [Std.IsPreorder α] (h : Skyline S seen (pre ++ s :: post)) (ha : S a = some s.block) (hle : s.top ≤ a) :
    Skyline S (seen ++ [a]) (pre ++ { s with top := a } :: post) where
  blocks := by
    have hmem : s.block ∈ blocksSeen S seen := h.blocks ▸ List.mem_map_of_mem (by simp)
    rw [blocksSeen_snoc ha, intern_of_mem hmem, ← h.blocks]
    simp [Span.block]
  distinct := by simpa [Span.block] using h.distinct
  top t ht := by
    have hother : t ∈ pre ++ post → HighestOf S (seen ++ [a]) t.block t.top := by
      intro ht
      refine (h.top t (by simp at ht ⊢; tauto)).snoc fun hS => ?_
      have hdistinct := h.distinct
      rw [List.map_append, List.map_cons, List.nodup_middle, ← List.map_append] at hdistinct
      have hblock : s.block = t.block := Option.some.inj (ha.symm.trans hS)
      exact absurd (hblock ▸ List.mem_map_of_mem ht) (List.nodup_cons.mp hdistinct).1
    rw [List.mem_append, List.mem_cons] at ht
    obtain ht | rfl | ht := ht
    · exact hother (List.mem_append_left _ ht)
    · refine .snoc_raise (fun x hx hS => ?_) ha
      exact Std.le_trans ((h.top s (by simp)).2 ⟨hx, hS⟩) hle
    · exact hother (List.mem_append_right _ ht)

theorem append [Std.IsPreorder α] (h : Skyline S seen spans) (ha : S a = some b) (hnew : ∀ s ∈ spans, s.block ≠ b) :
    Skyline S (seen ++ [a]) (spans ++ [⟨b.1, b.2, a⟩]) where
  blocks := by
    have hmem : b ∉ blocksSeen S seen := by simpa [← h.blocks] using hnew
    rw [blocksSeen_snoc ha, intern_of_not_mem hmem, ← h.blocks, List.map_append]
    rfl
  distinct := by
    rw [List.map_append, List.map_singleton]
    refine h.distinct.append (List.nodup_singleton _) ?_
    rw [List.disjoint_singleton, List.mem_map]
    rintro ⟨s, hs, hblock⟩
    exact hnew s hs hblock
  top t ht := by
    rw [List.mem_append, List.mem_singleton] at ht
    obtain ht | rfl := ht
    · exact (h.top t ht).snoc fun hS => absurd (Option.some.inj (hS.symm.trans ha)) (hnew t ht)
    · refine .snoc_raise (fun x hx hS => ?_) ha
      have hmem : b ∈ spans.map Span.block := h.blocks ▸ mem_blocksSeen.mpr ⟨x, hx, hS⟩
      obtain ⟨s, hs, hblock⟩ := List.mem_map.mp hmem
      exact absurd hblock (hnew s hs)

theorem covers_iff [Std.IsPreorder α] (h : Skyline S seen spans) (hS : Contiguous S)
    (hbase : ∀ a b, S a = some b → b.2 ≤ a) {c : α} :
    (∃ s ∈ spans, s.Covers c) ↔ S c ≠ none ∧ ∃ a ∈ seen, S a = S c ∧ c ≤ a := by
  constructor
  · intro ⟨s, hs, hc⟩
    have htop := (h.top s hs).1
    have hSc : S c = some s.block := Span.Sound.answer htop.2 hS hc
    exact ⟨by simp [hSc], s.top, htop.1, htop.2.trans hSc.symm, hc.2⟩
  · intro ⟨hne, a, ha, heq, hle⟩
    obtain ⟨b, hb⟩ := Option.ne_none_iff_exists'.mp hne
    have hmem : b ∈ spans.map Span.block := h.blocks ▸ mem_blocksSeen.mpr ⟨a, ha, heq.trans hb⟩
    obtain ⟨s, hs, rfl⟩ := List.mem_map.mp hmem
    exact ⟨s, hs, hbase c _ hb, Std.le_trans hle ((h.top s hs).2 ⟨ha, heq.trans hb⟩)⟩

end Skyline

end Vignette.Library
