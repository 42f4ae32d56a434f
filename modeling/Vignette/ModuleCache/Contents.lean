import Vignette.Library.Skyline
import Vignette.ModuleCache.Transparency

/-! What exactly the cache holds after a sequence of lookups, and so which lookups go to the
loader. -/

namespace Vignette

open Library

namespace ModuleCache

/-- After any lookups the cache holds every object of which an address was looked up, in the
order of the first ones and up to the highest one, and a lookup is answered from it exactly
when it is not above that. -/
def HoldsHighest (S : Blocks UInt64 ModuleInfo)
    (getOrInsert : ModuleCache → UInt64 → Except Panic (Option ModuleAndAddr × ModuleCache)) :
    Prop :=
  ∀ addrs, ∃ cache, traverse getOrInsert new addrs = .ok (addrs.map (uncached S), cache) ∧
    cache.moduleRanges.map (fun e => (e.info, e.range.start)) = blocksSeen S addrs ∧
    (∀ e ∈ cache.moduleRanges, ∃ top, e.range.stop = top + 1 ∧
      HighestOf S addrs (e.info, e.range.start) top) ∧
    ∀ addr, cache.findExisting addr ≠ none ↔ S addr ≠ none ∧ ∃ a ∈ addrs, S a = S addr ∧ addr ≤ a

local instance : Std.IsPreorder UInt64 where
  le_refl := UInt64.le_refl
  le_trans _ _ _ := UInt64.le_trans

def Skyline (S : Blocks UInt64 ModuleInfo) (addrs : List UInt64) (cache : ModuleCache) : Prop :=
  Library.Skyline S addrs (cache.moduleRanges.map ExtraModuleInfo.span)

variable {locate : Locate} {cache cache' : ModuleCache} {addr : UInt64} {addrs : List UInt64}
  {r : Option ModuleAndAddr} {S : Blocks UInt64 ModuleInfo}

theorem toNat_top {e : ExtraModuleInfo} (h : e.range.start < e.range.stop) :
    e.span.top.toNat + 1 = e.range.stop.toNat := by
  have hpos : 1 ≤ e.range.stop.toNat := Nat.one_le_of_lt (UInt64.lt_iff_toNat_lt.mp h)
  have htop : e.span.top.toNat = e.range.stop.toNat - 1 :=
    UInt64.toNat_sub_of_le _ _ (UInt64.le_iff_toNat_le.mpr hpos)
  omega

theorem span_raised {info : ModuleInfo} {base : UInt64} (hw : addr < addr + 1) :
    (ExtraModuleInfo.mk ⟨base, addr + 1⟩ info).span = ⟨info, base, addr⟩ := by
  rw [ExtraModuleInfo.span, pred_succ hw]

theorem Lookup.skyline (h : Lookup locate cache addr r cache')
    (hc : cache.Justified locate.blocks) (hS : Contiguous locate.blocks)
    (hk : cache.Skyline locate.blocks addrs) : cache'.Skyline locate.blocks (addrs ++ [addr]) := by
  cases h with
  | @hit e h =>
    have he := List.mem_of_find?_eq_some h
    have hcovers := (ExtraModuleInfo.covers_iff (hc e he).1).mpr (findExisting_contains h)
    exact hk.below (List.mem_map_of_mem he) (hc.answer hS h) hcovers.2
  | unknown _ hl => exact hk.skip (by simp [Locate.blocks, hl])
  | @extend e pre post _ hl hr _ _ hm hw =>
    have he : e ∈ cache.moduleRanges := by simp [hr]
    have htop : e.span.top ≤ addr := by
      have hstop := toNat_top (hc e he).1
      rw [UInt64.le_iff_toNat_le] at hm ⊢
      omega
    rw [Skyline, hr, List.map_append, List.map_cons] at hk
    rw [Skyline, List.map_append, List.map_cons, span_raised hw]
    exact hk.raise (Locate.blocks_eq_some.mpr hl) htop
  | append _ hl hnew _ hw =>
    rw [Skyline, List.map_append, List.map_singleton, span_raised hw]
    refine hk.append (Locate.blocks_eq_some.mpr hl) fun s hs hblock => ?_
    obtain ⟨e, he, rfl⟩ := List.mem_map.mp hs
    simp only [Span.block, ExtraModuleInfo.span, Prod.mk.injEq] at hblock
    simpa [hnew e he] using matching_iff.mpr hblock

theorem findExisting_iff_covers (hc : cache.Justified S) :
    cache.findExisting addr ≠ none ↔
      ∃ s ∈ cache.moduleRanges.map ExtraModuleInfo.span, s.Covers addr := by
  rw [findExisting, ne_eq, List.find?_eq_none]
  constructor
  · intro h
    push Not at h
    obtain ⟨e, he, hcontains⟩ := h
    exact ⟨e.span, List.mem_map_of_mem he, (ExtraModuleInfo.covers_iff (hc e he).1).mpr hcontains⟩
  · rintro ⟨s, hs, hcovers⟩ hnone
    obtain ⟨e, he, rfl⟩ := List.mem_map.mp hs
    exact hnone e he ((ExtraModuleInfo.covers_iff (hc e he).1).mp hcovers)

theorem getOrInsertVia_holdsHighest (hl : ∀ addr, locate addr = .ok (S addr)) (hp : WellPlaced S)
    (hS : Contiguous S) : HoldsHighest S (getOrInsertVia locate) := by
  intro addrs
  obtain ⟨cache, h⟩ := lookups_of_contiguous hl hp hS addrs
  have hb := Locate.blocks_eq hl
  have hinv : cache.Justified S ∧ cache.Skyline S addrs := by
    refine traverse_induction (I := fun seen _ cache => cache.Justified S ∧ cache.Skyline S seen)
      (l := []) (m := []) (fun {seen _ s a b s'} _ hi hf => ?_) ⟨justified_new, .empty⟩ h
    have hL := getOrInsertVia_ok_iff.mp hf
    rw [← hb] at hi hS ⊢
    exact ⟨hL.justified hi.1, hL.skyline hi.1 hS hi.2⟩
  obtain ⟨hc, hk⟩ := hinv
  refine ⟨cache, h, ?_, fun e he => ?_, fun addr => ?_⟩
  · rw [← hk.blocks, List.map_map]
    rfl
  · refine ⟨e.span.top, ?_, hk.top e.span (List.mem_map_of_mem he)⟩
    have htop := toNat_top (hc e he).1
    have hlt : e.span.top < e.range.stop := UInt64.lt_iff_toNat_lt.mpr (by omega)
    exact UInt64.toNat_inj.mp (by rw [toNat_succ hlt, htop])
  · rw [findExisting_iff_covers hc]
    exact hk.covers_iff hS fun a b hb => (hp a b.1 b.2 hb).1

/-- On both platforms the cache holds the highest address looked up of each object. -/
theorem getOrInsert_holdsHighest {S : Blocks UInt64 ModuleInfo} (hp : WellPlaced S)
    (hS : Contiguous S) :
    (∀ {File Elf : Type} (loader : Linux.Loader File Elf),
      (∀ addr, loader.locate addr = .ok (S addr)) → HoldsHighest S (Linux.getOrInsert loader)) ∧
    (∀ {File : Type} (loader : Mac.Loader File),
      (∀ addr, loader.locate addr = .ok (S addr)) → HoldsHighest S (Mac.getOrInsert loader)) :=
  ⟨fun _ hl => getOrInsertVia_holdsHighest hl hp hS, fun _ hl => getOrInsertVia_holdsHighest hl hp hS⟩

theorem appLoader_holdsHighest : HoldsHighest appBlocks (Linux.getOrInsert appLoader) :=
  (getOrInsert_holdsHighest appBlocks_placed appBlocks_contiguous).1 appLoader appLoader_locate

end ModuleCache

end Vignette
