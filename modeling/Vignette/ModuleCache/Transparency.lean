import Vignette.ModuleCache.Laws
import Vignette.ModuleCache.Mac

namespace Vignette

open Library

def usizeMax : UInt64 := 0xFFFFFFFFFFFFFFFF

/-- The answers of a way to locate addresses, a panic counting as none. -/
def Locate.blocks (locate : Locate) : Blocks UInt64 ModuleInfo := fun addr =>
  match locate addr with
  | .ok answer => answer
  | .error _ => none

theorem Locate.blocks_eq {locate : Locate} {S : Blocks UInt64 ModuleInfo}
    (h : ∀ addr, locate addr = .ok (S addr)) : locate.blocks = S := by
  funext addr
  simp [Locate.blocks, h addr]

theorem Locate.blocks_eq_some {locate : Locate} {addr : UInt64} {answer : ModuleInfo × UInt64} :
    locate.blocks addr = some answer ↔ locate addr = .ok (some answer) := by
  rw [Locate.blocks]
  cases h : locate addr <;> simp

def WellPlaced (S : Blocks UInt64 ModuleInfo) : Prop :=
  ∀ addr info base, S addr = some (info, base) → base ≤ addr ∧ addr < usizeMax

theorem lt_succ_of_lt_usizeMax {addr : UInt64} (h : addr < usizeMax) : addr < addr + 1 := by
  rw [UInt64.lt_iff_toNat_lt, toNat_succ h]
  exact Nat.lt_succ_self _

def uncached (S : Blocks UInt64 ModuleInfo) (addr : UInt64) : Option ModuleAndAddr :=
  (S addr).map fun (info, base) => (info, addr - base)

theorem uncached_inj {S : Blocks UInt64 ModuleInfo} (hp : WellPlaced S) {addr base : UInt64}
    {info : ModuleInfo} (hb : base ≤ addr) (h : uncached S addr = some (info, addr - base)) :
    S addr = some (info, base) := by
  cases hS : S addr with
  | none => simp [uncached, hS] at h
  | some p =>
    have hb' := (hp addr p.1 p.2 hS).1
    simp only [uncached, hS, Option.map_some, Option.some.injEq, Prod.mk.injEq] at h
    have hsub := congrArg UInt64.toNat h.2
    rw [UInt64.toNat_sub_of_le _ _ hb', UInt64.toNat_sub_of_le _ _ hb] at hsub
    rw [UInt64.le_iff_toNat_le] at hb hb'
    have hbase : p.2 = base := UInt64.toNat_inj.mp (by omega)
    rw [← h.1, ← hbase]

def ExtraModuleInfo.span (e : ExtraModuleInfo) : Span UInt64 ModuleInfo :=
  { label := e.info, base := e.range.start, top := e.range.stop - 1 }

theorem pred_succ {a b : UInt64} (h : a < b) : (a + 1) - 1 = a := by
  apply UInt64.toNat_inj.mp
  rw [UInt64.toNat_sub_of_le, toNat_succ h, UInt64.toNat_one]
  · omega
  · rw [UInt64.le_iff_toNat_le, toNat_succ h, UInt64.toNat_one]
    omega

theorem ExtraModuleInfo.covers_iff {e : ExtraModuleInfo} {addr : UInt64}
    (h : e.range.start < e.range.stop) : e.span.Covers addr ↔ e.range.contains addr = true := by
  have hpos : 1 ≤ e.range.stop.toNat := Nat.one_le_of_lt (UInt64.lt_iff_toNat_lt.mp h)
  have htop : e.span.top.toNat = e.range.stop.toNat - 1 :=
    UInt64.toNat_sub_of_le _ _ (UInt64.le_iff_toNat_le.mpr hpos)
  rw [Range.contains_iff, Span.Covers, UInt64.le_iff_toNat_le (b := e.span.top), htop,
    UInt64.lt_iff_toNat_lt, Nat.lt_iff_le_pred hpos]
  rfl

namespace ModuleCache

def Founded (found : UInt64 → ModuleInfo × UInt64 → Prop) (cache : ModuleCache) : Prop :=
  ∀ e ∈ cache.moduleRanges, e.range.start < e.range.stop ∧ found e.span.top (e.info, e.range.start)

def Justified (S : Blocks UInt64 ModuleInfo) (cache : ModuleCache) : Prop :=
  ∀ e ∈ cache.moduleRanges, e.range.start < e.range.stop ∧ e.span.Sound S

/-- An address is answered as unknown, or by its place in an object that was found for an
address at or above it. -/
inductive Answers (unknown : UInt64 → Prop) (found : UInt64 → ModuleInfo × UInt64 → Prop)
    (addr : UInt64) : Option ModuleAndAddr → Prop
  | unknown : unknown addr → Answers unknown found addr none
  | found {info base top} : found top (info, base) → base ≤ addr → addr ≤ top →
      Answers unknown found addr (some (info, addr - base))

variable {locate : Locate} {cache cache' : ModuleCache} {addr : UInt64}
  {r : Option ModuleAndAddr} {S : Blocks UInt64 ModuleInfo}

section Founded

variable {unknown : UInt64 → Prop} {found : UInt64 → ModuleInfo × UInt64 → Prop}

theorem founded_new : Founded found new := by
  intro e he
  exact absurd he List.not_mem_nil

theorem found_top {info : ModuleInfo} {base : UInt64} (hf : found addr (info, base))
    (hw : addr < addr + 1) :
    found (ExtraModuleInfo.mk ⟨base, addr + 1⟩ info).span.top (info, base) := by
  simp only [ExtraModuleInfo.span, pred_succ hw]
  exact hf

theorem Lookup.founded (h : Lookup locate cache addr r cache')
    (hfound : ∀ x, locate addr = .ok (some x) → found addr x) (hc : cache.Founded found) :
    cache'.Founded found := by
  cases h with
  | hit => exact hc
  | unknown => exact hc
  | @extend e pre post _ hl hr _ hs _ hw =>
    intro m hm
    have hold : m ∈ pre ++ e :: post → _ := fun hm => hc m (hr ▸ hm)
    simp only [List.mem_append, List.mem_cons] at hm hold
    obtain hm | rfl | hm := hm
    · exact hold (.inl hm)
    · exact ⟨(lt_succ_iff hw).mpr hs, found_top (hfound _ hl) hw⟩
    · exact hold (.inr (.inr hm))
  | append _ hl _ hs hw =>
    intro m hm
    simp only [List.mem_append, List.mem_singleton] at hm
    cases hm with
    | inl hm => exact hc m hm
    | inr hm =>
      rw [hm]
      exact ⟨(lt_succ_iff hw).mpr hs, found_top (hfound _ hl) hw⟩

theorem Lookup.answers (h : Lookup locate cache addr r cache')
    (hunknown : locate addr = .ok none → unknown addr)
    (hfound : ∀ x, locate addr = .ok (some x) → found addr x) (hc : cache.Founded found) :
    Answers unknown found addr r := by
  cases h with
  | @hit e h =>
    have he := hc e (List.mem_of_find?_eq_some h)
    have hcovers := (ExtraModuleInfo.covers_iff he.1).mpr (findExisting_contains h)
    exact .found he.2 hcovers.1 hcovers.2
  | unknown _ hl => exact .unknown (hunknown hl)
  | extend _ hl _ _ hs => exact .found (hfound _ hl) hs UInt64.le_rfl
  | append _ hl _ hs => exact .found (hfound _ hl) hs UInt64.le_rfl

end Founded

theorem justified_iff : cache.Justified S ↔ cache.Founded fun a x => S a = some x := Iff.rfl

theorem justified_new : Justified S new := justified_iff.mpr founded_new

theorem Founded.justified (h : cache.Founded fun addr x => locate addr = .ok (some x)) :
    cache.Justified locate.blocks :=
  justified_iff.mpr fun e he => ⟨(h e he).1, Locate.blocks_eq_some.mpr (h e he).2⟩

theorem Lookup.justified (h : Lookup locate cache addr r cache')
    (hc : cache.Justified locate.blocks) : cache'.Justified locate.blocks :=
  justified_iff.mpr (h.founded (fun _ hl => Locate.blocks_eq_some.mpr hl) (justified_iff.mp hc))

theorem Justified.answer (hc : cache.Justified S) (hS : Contiguous S) {e : ExtraModuleInfo}
    (h : cache.findExisting addr = some e) : S addr = some (e.info, e.range.start) := by
  have he := hc e (List.mem_of_find?_eq_some h)
  exact he.2.answer hS ((ExtraModuleInfo.covers_iff he.1).mpr (findExisting_contains h))

theorem Lookup.answer (h : Lookup locate cache addr r cache')
    (hc : cache.Justified locate.blocks) (hS : Contiguous locate.blocks) :
    r = uncached locate.blocks addr := by
  cases h with
  | hit h => simp [uncached, hc.answer hS h]
  | unknown _ hl => simp [uncached, Locate.blocks, hl]
  | extend _ hl => simp [uncached, Locate.blocks_eq_some.mpr hl]
  | append _ hl => simp [uncached, Locate.blocks_eq_some.mpr hl]

theorem exists_lookup (hl : locate addr = .ok (S addr)) (hp : WellPlaced S) :
    ∃ r cache', Lookup locate cache addr r cache' := by
  cases h : cache.findExisting addr with
  | some e => exact ⟨_, _, .hit h⟩
  | none =>
    cases hS : S addr with
    | none => exact ⟨_, _, .unknown h (hl.trans (congrArg _ hS))⟩
    | some p =>
      have hb := hp addr p.1 p.2 hS
      obtain ⟨_, hL⟩ :=
        Lookup.of_located h (hl.trans (congrArg _ hS)) hb.1 (lt_succ_of_lt_usizeMax hb.2)
      exact ⟨_, _, hL⟩

section Transparency

variable (hl : ∀ addr, locate addr = .ok (S addr)) (hp : WellPlaced S)

include hl hp

theorem lookups_of_contiguous (hS : Contiguous S) (addrs : List UInt64) :
    ∃ cache, traverse (getOrInsertVia locate) new addrs = .ok (addrs.map (uncached S), cache) := by
  have hb := Locate.blocks_eq hl
  obtain ⟨cache, h, _⟩ := traverse_map (I := Justified S) (g := uncached S)
    (f := getOrInsertVia locate) (fun {cache addr} _ hc => by
      obtain ⟨r, cache', hL⟩ : ∃ r cache', Lookup locate cache addr r cache' :=
        exists_lookup (hl addr) hp
      rw [← hb] at hc hS ⊢
      refine ⟨cache', ?_, hL.justified hc⟩
      rw [← hL.answer hc hS]
      exact hL.ok) justified_new
  exact ⟨cache, h⟩

/-- Two lookups, of an address and then of one between its base and it, tell whether
the blocks are contiguous there. -/
theorem contiguous_of_lookups (h : ∀ addrs, ∃ cache,
    traverse (getOrInsertVia locate) new addrs = .ok (addrs.map (uncached S), cache)) :
    Contiguous S := by
  apply contiguous_iff_answer.mpr
  intro ⟨info, base, a⟩ ha c ⟨hbc, hca⟩
  have hb := hp a info base ha
  have hw : a < a + 1 := lt_succ_of_lt_usizeMax hb.2
  obtain ⟨cache, h⟩ := h [a, c]
  obtain ⟨_, cache₁, _, hfirst, hrest, hr⟩ := traverse_cons_ok.mp h
  obtain ⟨_, _, _, hsecond, _, hr'⟩ := traverse_cons_ok.mp hrest
  have hcache : cache₁ = { moduleRanges := [{ range := ⟨base, a + 1⟩, info }] } := by
    have hmiss : new.findExisting a = none := rfl
    have ha := (hl a).trans (congrArg Except.ok ha)
    rw [getOrInsertVia_append hmiss ha (by simp [new]) hb.1 hw] at hfirst
    simp only [Except.ok.injEq, Prod.mk.injEq] at hfirst
    exact hfirst.2.symm
  have hhit : cache₁.findExisting c = some { range := ⟨base, a + 1⟩, info } := by
    rw [hcache]
    simp [findExisting, Range.contains, hbc, (lt_succ_iff hw).mpr hca]
  have hanswer : uncached S c = some (info, c - base) := by
    rw [getOrInsertVia_hit hhit] at hsecond
    simp only [Except.ok.injEq, Prod.mk.injEq] at hsecond
    simp only [List.map_cons, List.cons.injEq] at hr
    rw [← hr.2, List.cons.injEq] at hr'
    rw [hr'.1, hsecond.1]
  exact uncached_inj hp hbc hanswer

theorem lookups_iff_contiguous :
    (∀ addrs, ∃ cache,
      traverse (getOrInsertVia locate) new addrs = .ok (addrs.map (uncached S), cache)) ↔
      Contiguous S :=
  ⟨contiguous_of_lookups hl hp, lookups_of_contiguous hl hp⟩

end Transparency

/-- On both platforms the cache agrees with the uncached answers on every sequence of
lookups exactly when every object is contiguous from its base. -/
theorem getOrInsert_transparent_iff_contiguous {S : Blocks UInt64 ModuleInfo}
    (hp : WellPlaced S) :
    (∀ {File Elf : Type} (loader : Linux.Loader File Elf),
      (∀ addr, loader.locate addr = .ok (S addr)) →
      ((∀ addrs, ∃ cache, traverse (Linux.getOrInsert loader) new addrs =
        .ok (addrs.map (uncached S), cache)) ↔ Contiguous S)) ∧
    (∀ {File : Type} (loader : Mac.Loader File),
      (∀ addr, loader.locate addr = .ok (S addr)) →
      ((∀ addrs, ∃ cache, traverse (Mac.getOrInsert loader) new addrs =
        .ok (addrs.map (uncached S), cache)) ↔ Contiguous S)) :=
  ⟨fun _ hl => lookups_iff_contiguous hl hp, fun _ hl => lookups_iff_contiguous hl hp⟩

def appObjects (addr : UInt64) : Option (String × UInt64) :=
  if 0x4000 ≤ addr ∧ addr < 0x8000 then some ("/bin/app", 0x4000) else none

def appLoader : Linux.Loader Unit Unit := .identified appObjects [0xAB]

def appInfo : ModuleInfo := { name := "app", buildId := "AB" }

def appBlocks : Blocks UInt64 ModuleInfo := fun addr =>
  if 0x4000 ≤ addr ∧ addr < 0x8000 then some (appInfo, 0x4000) else none

theorem appLoader_locate (addr : UInt64) : appLoader.locate addr = .ok (appBlocks addr) := by
  by_cases h : 0x4000 ≤ addr ∧ addr < 0x8000
  · have hn : Linux.fileName "/bin/app" = some "app" := by decide
    rw [appLoader, Linux.Loader.locate_identified (if_pos h) hn, appBlocks, if_pos h]
    rfl
  · rw [appLoader, Linux.Loader.locate_identified_none (if_neg h), appBlocks, if_neg h]

theorem appBlocks_placed : WellPlaced appBlocks := by
  intro addr info base h
  rw [appBlocks] at h
  split at h
  · rename_i ha
    simp only [Option.some.injEq, Prod.mk.injEq] at h
    rw [← h.2]
    exact ⟨ha.1, UInt64.lt_trans ha.2 (by decide)⟩
  · simp at h

theorem appBlocks_contiguous : Contiguous appBlocks := by
  intro a info base h b hb hba
  rw [appBlocks] at h
  split at h
  · rename_i ha
    simp only [Option.some.injEq, Prod.mk.injEq] at h
    have hlow : 0x4000 ≤ b := h.2 ▸ hb
    have hhigh : b < 0x8000 := UInt64.lt_of_le_of_lt hba ha.2
    rw [appBlocks, if_pos ⟨hlow, hhigh⟩, appBlocks, if_pos ha]
  · simp at h

theorem appLoader_transparent_iff :
    (∀ addrs, ∃ cache, traverse (Linux.getOrInsert appLoader) new addrs =
      .ok (addrs.map (uncached appBlocks), cache)) ↔ Contiguous appBlocks :=
  (getOrInsert_transparent_iff_contiguous appBlocks_placed).1 appLoader appLoader_locate

end ModuleCache

end Vignette
