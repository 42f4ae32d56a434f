import Mathlib.Data.List.Nodup
import Vignette.ModuleCache.Transparency

/-! The representation invariant of the module cache, and what one call can do to the
cached ranges. -/

namespace Vignette

open Library

/-- What the extend test of `get_or_insert` compares. -/
def ExtraModuleInfo.key (e : ExtraModuleInfo) : String × String × UInt64 :=
  (e.info.name, e.info.buildId, e.range.start)

namespace ModuleCache

structure WellFormed (cache : ModuleCache) : Prop where
  nonempty : ∀ e ∈ cache.moduleRanges, e.range.start < e.range.stop
  unique : (cache.moduleRanges.map ExtraModuleInfo.key).Nodup

structure Separate (cache : ModuleCache) : Prop where
  disjoint : cache.moduleRanges.Pairwise fun e e' =>
    ∀ addr, ¬(e.range.contains addr = true ∧ e'.range.contains addr = true)
  only : ∀ addr, ∀ e ∈ cache.moduleRanges, e.range.contains addr = true →
    cache.findExisting addr = some e

/-- A cache that has taken in an address: one more range, or the range of its object raised
to it. -/
inductive Grown (S : Blocks UInt64 ModuleInfo) (addr : UInt64) (cache : ModuleCache) :
    ModuleCache → Prop
  | append {info base} : S addr = some (info, base) →
      Grown S addr cache
        { moduleRanges := cache.moduleRanges ++ [{ range := ⟨base, addr + 1⟩, info }] }
  | raise {e pre post} : S addr = some (e.info, e.range.start) →
      cache.moduleRanges = pre ++ e :: post → e.range.stop < addr + 1 →
      Grown S addr cache
        { moduleRanges := pre ++ { e with range := { e.range with stop := addr + 1 } } :: post }

structure Called (S : Blocks UInt64 ModuleInfo) (addr : UInt64) (cache : ModuleCache)
    (answer : Option ModuleAndAddr) (cache' : ModuleCache) : Prop where
  unchanged : cache.findExisting addr ≠ none ∨ answer = none → cache' = cache
  missed : cache.findExisting addr = none → answer = uncached S addr
  grown : cache.findExisting addr = none → answer ≠ none →
    Grown S addr cache cache' ∧ cache'.findExisting addr ≠ none

variable {locate : Locate} {cache cache' : ModuleCache} {addr : UInt64}
  {r : Option ModuleAndAddr} {S : Blocks UInt64 ModuleInfo}

theorem findExisting_ne_none {e : ExtraModuleInfo} (he : e ∈ cache.moduleRanges)
    (h : e.range.contains addr = true) : cache.findExisting addr ≠ none :=
  fun hnone => findExisting_none hnone he h

theorem key_ne_of_not_matching {info : ModuleInfo} {base stop : UInt64} {e : ExtraModuleInfo}
    (h : matching info base e = false) : e.key ≠ ExtraModuleInfo.key ⟨⟨base, stop⟩, info⟩ := by
  intro heq
  simp only [ExtraModuleInfo.key, Prod.mk.injEq] at heq
  simp [matching, heq] at h

theorem Lookup.called (h : Lookup locate cache addr r cache') :
    Called locate.blocks addr cache r cache' := by
  cases h with
  | hit hfind =>
    have hknown : cache.findExisting addr ≠ none := by simp [hfind]
    exact ⟨fun _ => rfl, fun hnone => absurd hnone hknown, fun hnone => absurd hnone hknown⟩
  | unknown _ hl =>
    have hnone : locate.blocks addr = none := by simp [Locate.blocks, hl]
    exact ⟨fun _ => rfl, fun _ => by simp [uncached, hnone], fun _ hanswer => absurd rfl hanswer⟩
  | extend hfind hl hr _ hs hm hw =>
    have hS := Locate.blocks_eq_some.mpr hl
    refine ⟨fun h => by simp [hfind] at h, fun _ => by simp [uncached, hS], fun _ _ =>
      ⟨.raise hS hr ?_, ?_⟩⟩
    · exact (lt_succ_iff hw).mpr hm
    · refine findExisting_ne_none (List.mem_append_right _ List.mem_cons_self) ?_
      exact Range.contains_iff.mpr ⟨hs, hw⟩
  | append hfind hl _ hs hw =>
    have hS := Locate.blocks_eq_some.mpr hl
    refine ⟨fun h => by simp [hfind] at h, fun _ => by simp [uncached, hS], fun _ _ =>
      ⟨.append hS, ?_⟩⟩
    refine findExisting_ne_none (List.mem_append_right _ List.mem_cons_self) ?_
    exact Range.contains_iff.mpr ⟨hs, hw⟩

theorem Lookup.unique (h : Lookup locate cache addr r cache')
    (hc : (cache.moduleRanges.map ExtraModuleInfo.key).Nodup) :
    (cache'.moduleRanges.map ExtraModuleInfo.key).Nodup := by
  cases h with
  | hit => exact hc
  | unknown => exact hc
  | extend _ _ hr =>
    -- the raised range keeps its key
    rw [hr, List.map_append, List.map_cons] at hc
    rw [List.map_append, List.map_cons]
    exact hc
  | append _ _ hnew =>
    rw [List.map_append]
    refine hc.append (List.nodup_singleton _) ?_
    rw [List.map_singleton, List.disjoint_singleton, List.mem_map]
    rintro ⟨e, he, hkey⟩
    exact key_ne_of_not_matching (hnew e he) hkey

theorem Justified.wellFormed (hc : cache.Justified S)
    (hu : (cache.moduleRanges.map ExtraModuleInfo.key).Nodup) : cache.WellFormed :=
  ⟨fun e he => (hc e he).1, hu⟩

theorem Justified.key_eq (hc : cache.Justified S) (hS : Contiguous S) {e e' : ExtraModuleInfo}
    (he : e ∈ cache.moduleRanges) (he' : e' ∈ cache.moduleRanges)
    (h : e.range.contains addr = true) (h' : e'.range.contains addr = true) : e.key = e'.key := by
  have hsame := (hc e he).2.answer hS ((ExtraModuleInfo.covers_iff (hc e he).1).mpr h)
  rw [(hc e' he').2.answer hS ((ExtraModuleInfo.covers_iff (hc e' he').1).mpr h')] at hsame
  simp only [ExtraModuleInfo.span, Option.some.injEq, Prod.mk.injEq] at hsame
  rw [ExtraModuleInfo.key, ExtraModuleInfo.key, hsame.1, hsame.2]

theorem Justified.separate (hc : cache.Justified S) (hS : Contiguous S)
    (hu : (cache.moduleRanges.map ExtraModuleInfo.key).Nodup) : cache.Separate where
  disjoint := by
    refine (List.pairwise_map.mp hu).imp_of_mem fun he he' hkey addr => ?_
    rintro ⟨h, h'⟩
    exact hkey (hc.key_eq hS he he' h h')
  only addr e he h := by
    cases hfind : cache.findExisting addr with
    | none => exact absurd hfind (findExisting_ne_none he h)
    | some e' =>
      have he' := List.mem_of_find?_eq_some hfind
      have hkey := hc.key_eq hS he he' h (findExisting_contains hfind)
      rw [List.inj_on_of_nodup_map hu he he' hkey]

def KeepsInvariant (S : Blocks UInt64 ModuleInfo)
    (getOrInsert : ModuleCache → UInt64 → Except Panic (Option ModuleAndAddr × ModuleCache)) :
    Prop :=
  ∀ addrs, ∃ answers cache, traverse getOrInsert new addrs = .ok (answers, cache) ∧
    cache.WellFormed ∧ (Contiguous S → cache.Separate) ∧
    ∀ addr, ∃ answer cache', getOrInsert cache addr = .ok (answer, cache') ∧
      Called S addr cache answer cache'

theorem getOrInsertVia_keepsInvariant (hl : ∀ addr, locate addr = .ok (S addr))
    (hp : WellPlaced S) : KeepsInvariant S (getOrInsertVia locate) := by
  intro addrs
  have hb := Locate.blocks_eq hl
  have hcall : ∀ (cache : ModuleCache) addr, ∃ answer cache', Lookup locate cache addr answer cache' :=
    fun _ addr => exists_lookup (hl addr) hp
  have hstep : ∀ {cache addr}, addr ∈ addrs →
      cache.Justified S ∧ (cache.moduleRanges.map ExtraModuleInfo.key).Nodup →
      ∃ answer cache', getOrInsertVia locate cache addr = .ok (answer, cache') ∧
        cache'.Justified S ∧ (cache'.moduleRanges.map ExtraModuleInfo.key).Nodup := by
    rintro cache addr - ⟨hc, hu⟩
    obtain ⟨answer, cache', hL⟩ := hcall cache addr
    exact ⟨answer, cache', hL.ok, hb ▸ hL.justified (hb ▸ hc), hL.unique hu⟩
  obtain ⟨answers, cache, h, hc, hu⟩ := traverse_total hstep ⟨justified_new, List.nodup_nil⟩
  refine ⟨answers, cache, h, hc.wellFormed hu, fun hS => hc.separate hS hu, fun addr => ?_⟩
  obtain ⟨answer, cache', hL⟩ := hcall cache addr
  exact ⟨answer, cache', hL.ok, hb ▸ hL.called⟩

/-- On both platforms the cache keeps its invariant over every sequence of calls. -/
theorem getOrInsert_keeps_invariant {S : Blocks UInt64 ModuleInfo} (hp : WellPlaced S) :
    (∀ {File Elf : Type} (loader : Linux.Loader File Elf),
      (∀ addr, loader.locate addr = .ok (S addr)) →
      KeepsInvariant S (Linux.getOrInsert loader)) ∧
    (∀ {File : Type} (loader : Mac.Loader File),
      (∀ addr, loader.locate addr = .ok (S addr)) → KeepsInvariant S (Mac.getOrInsert loader)) :=
  ⟨fun _ hl => getOrInsertVia_keepsInvariant hl hp, fun _ hl => getOrInsertVia_keepsInvariant hl hp⟩

theorem appLoader_keeps_invariant : KeepsInvariant appBlocks (Linux.getOrInsert appLoader) :=
  (getOrInsert_keeps_invariant appBlocks_placed).1 appLoader appLoader_locate

end ModuleCache

end Vignette
