import Vignette.Library.Blocks
import Vignette.Library.Traverse
import Vignette.ModuleCache.Basic

namespace Vignette

theorem Range.contains_iff {range : Range} {addr : UInt64} :
    range.contains addr = true ↔ range.start ≤ addr ∧ addr < range.stop := by
  simp [Range.contains]

theorem toNat_succ {a b : UInt64} (h : a < b) : (a + 1).toNat = a.toNat + 1 := by
  have hb := b.toNat_lt
  rw [UInt64.lt_iff_toNat_lt] at h
  rw [UInt64.toNat_add, UInt64.toNat_one]
  omega

theorem lt_succ_iff {a b c : UInt64} (h : a < b) : c < a + 1 ↔ c ≤ a := by
  rw [UInt64.lt_iff_toNat_lt, UInt64.le_iff_toNat_le, toNat_succ h]
  omega

namespace ModuleCache

theorem relativeAddr_ok {e : ExtraModuleInfo} {addr : UInt64}
    (h : e.range.contains addr = true) :
    relativeAddr e addr = .ok (addr - e.range.start) := by
  rw [relativeAddr, check_ok h]
  rfl

theorem relativeAddr_error {e : ExtraModuleInfo} {addr : UInt64}
    (h : ¬e.range.contains addr = true) :
    relativeAddr e addr = .error (.assertion "info.range.contains(&(addr as usize))") := by
  rw [relativeAddr, check_error h]
  rfl

theorem findExisting_contains {cache : ModuleCache} {addr : UInt64} {e : ExtraModuleInfo}
    (h : cache.findExisting addr = some e) : e.range.contains addr = true := by
  simpa using List.find?_some h

theorem findExisting_none {cache : ModuleCache} {addr : UInt64} {e : ExtraModuleInfo}
    (h : cache.findExisting addr = none) (he : e ∈ cache.moduleRanges) :
    ¬e.range.contains addr = true := by
  simpa using List.find?_eq_none.mp h e he

theorem stop_le_of_miss {cache : ModuleCache} {addr : UInt64} {e : ExtraModuleInfo}
    (h : cache.findExisting addr = none) (he : e ∈ cache.moduleRanges)
    (hs : e.range.start ≤ addr) : e.range.stop ≤ addr := by
  have hmiss := findExisting_none h he
  rw [Range.contains_iff, not_and, UInt64.not_lt] at hmiss
  exact hmiss hs

theorem matching_iff {info : ModuleInfo} {base : UInt64} {e : ExtraModuleInfo} :
    matching info base e = true ↔ e.info = info ∧ e.range.start = base := by
  cases e with
  | mk range i => cases i; cases info; simp [matching, and_assoc]

/-- Everything a call that returns can have done. -/
inductive Lookup (locate : Locate) (cache : ModuleCache) (addr : UInt64) :
    Option ModuleAndAddr → ModuleCache → Prop
  | hit {e} : cache.findExisting addr = some e →
      Lookup locate cache addr (some (e.info, addr - e.range.start)) cache
  | unknown : cache.findExisting addr = none → locate addr = .ok none →
      Lookup locate cache addr none cache
  | extend {e pre post} : cache.findExisting addr = none →
      locate addr = .ok (some (e.info, e.range.start)) →
      cache.moduleRanges = pre ++ e :: post →
      (∀ m ∈ pre, matching e.info e.range.start m = false) →
      e.range.start ≤ addr → e.range.stop ≤ addr → addr < addr + 1 →
      Lookup locate cache addr (some (e.info, addr - e.range.start))
        { moduleRanges := pre ++ { e with range := ⟨e.range.start, addr + 1⟩ } :: post }
  | append {info base} : cache.findExisting addr = none →
      locate addr = .ok (some (info, base)) →
      (∀ m ∈ cache.moduleRanges, matching info base m = false) →
      base ≤ addr → addr < addr + 1 →
      Lookup locate cache addr (some (info, addr - base))
        { moduleRanges := cache.moduleRanges ++ [{ range := ⟨base, addr + 1⟩, info }] }

section Calls

variable {locate : Locate} {cache : ModuleCache} {addr : UInt64}

theorem getOrInsertVia_hit {e : ExtraModuleInfo} (h : cache.findExisting addr = some e) :
    cache.getOrInsertVia locate addr = .ok (some (e.info, addr - e.range.start), cache) := by
  rw [getOrInsertVia, h]
  simp only [relativeAddr_ok (findExisting_contains h)]
  rfl

theorem getOrInsertVia_error {p : Panic} (h : cache.findExisting addr = none)
    (hl : locate addr = .error p) : cache.getOrInsertVia locate addr = .error p := by
  rw [getOrInsertVia, h]
  simp only [hl]
  rfl

theorem getOrInsertVia_unknown (h : cache.findExisting addr = none)
    (hl : locate addr = .ok none) : cache.getOrInsertVia locate addr = .ok (none, cache) := by
  rw [getOrInsertVia, h]
  simp only [hl]
  rfl

theorem contains_raised {start stop : UInt64} (hs : start ≤ addr) (hm : stop ≤ addr) :
    (Range.mk start (max (addr + 1) stop)).contains addr = true ↔ addr < addr + 1 := by
  rw [Range.contains_iff]
  have hmax : max (addr + 1) stop = if addr + 1 ≤ stop then stop else addr + 1 := rfl
  simp only [hmax, hs, true_and]
  split
  · rename_i hle
    simp only [UInt64.lt_iff_toNat_lt, UInt64.le_iff_toNat_le] at *
    omega
  · rfl

theorem max_raised {stop : UInt64} (hm : stop ≤ addr) (hw : addr < addr + 1) :
    max (addr + 1) stop = addr + 1 := by
  have hmax : max (addr + 1) stop = if addr + 1 ≤ stop then stop else addr + 1 := rfl
  rw [hmax, if_neg]
  simp only [UInt64.lt_iff_toNat_lt, UInt64.le_iff_toNat_le] at *
  omega

theorem replaceF_split {p : ExtraModuleInfo → Bool} {pre post : List ExtraModuleInfo}
    {e e' : ExtraModuleInfo} (hpre : ∀ m ∈ pre, p m = false) (he : p e = true) :
    (pre ++ e :: post).replaceF (fun m => if p m then some e' else none) = pre ++ e' :: post := by
  induction pre with
  | nil => simp [he]
  | cons m pre ih =>
    rw [List.cons_append, List.replaceF_cons_of_none, ih fun n hn => hpre n (.tail m hn)]
    · rfl
    · simp [hpre m List.mem_cons_self]

theorem getOrInsertVia_extend {e : ExtraModuleInfo} {pre post : List ExtraModuleInfo}
    (h : cache.findExisting addr = none)
    (hl : locate addr = .ok (some (e.info, e.range.start)))
    (hc : cache.moduleRanges = pre ++ e :: post)
    (hpre : ∀ m ∈ pre, matching e.info e.range.start m = false)
    (hs : e.range.start ≤ addr) (hw : addr < addr + 1) :
    cache.getOrInsertVia locate addr = .ok (some (e.info, addr - e.range.start),
      { moduleRanges := pre ++ { e with range := ⟨e.range.start, addr + 1⟩ } :: post }) := by
  have he : matching e.info e.range.start e = true := matching_iff.mpr ⟨rfl, rfl⟩
  have hfind : cache.moduleRanges.find? (matching e.info e.range.start) = some e :=
    List.find?_eq_some_iff_append.mpr ⟨he, pre, post, hc, fun m hm => by simp [hpre m hm]⟩
  have hm : e.range.stop ≤ addr := stop_le_of_miss h (by simp [hc]) hs
  rw [getOrInsertVia, h]
  simp only [hl, Bind.bind, Except.bind, hfind, check_ok hs]
  rw [relativeAddr_ok ((contains_raised hs hm).mpr hw), hc, replaceF_split hpre he, max_raised hm hw]
  rfl

theorem getOrInsertVia_append {info : ModuleInfo} {base : UInt64}
    (h : cache.findExisting addr = none) (hl : locate addr = .ok (some (info, base)))
    (hc : ∀ m ∈ cache.moduleRanges, matching info base m = false)
    (hs : base ≤ addr) (hw : addr < addr + 1) :
    cache.getOrInsertVia locate addr = .ok (some (info, addr - base),
      { moduleRanges := cache.moduleRanges ++ [{ range := ⟨base, addr + 1⟩, info }] }) := by
  have hfind : cache.moduleRanges.find? (matching info base) = none :=
    List.find?_eq_none.mpr fun m hm => by simp [hc m hm]
  rw [getOrInsertVia, h]
  simp only [hl, Bind.bind, Except.bind, hfind]
  rw [relativeAddr_ok (Range.contains_iff.mpr ⟨hs, hw⟩)]
  rfl

theorem getOrInsertVia_misplaced {info : ModuleInfo} {base : UInt64}
    (h : cache.findExisting addr = none) (hl : locate addr = .ok (some (info, base)))
    (hb : ¬(base ≤ addr ∧ addr < addr + 1)) :
    ∃ p, cache.getOrInsertVia locate addr = .error p := by
  rw [getOrInsertVia, h]
  simp only [hl, Bind.bind, Except.bind]
  cases hfind : cache.moduleRanges.find? (matching info base) with
  | none =>
    rw [relativeAddr_error (fun hc => hb (Range.contains_iff.mp hc))]
    exact ⟨_, rfl⟩
  | some e =>
    have he := matching_iff.mp (List.find?_some hfind)
    by_cases hs : e.range.start ≤ addr
    · have hm : e.range.stop ≤ addr := stop_le_of_miss h (List.mem_of_find?_eq_some hfind) hs
      simp only [check_ok hs]
      rw [relativeAddr_error fun hc => hb ⟨he.2 ▸ hs, (contains_raised hs hm).mp hc⟩]
      exact ⟨_, rfl⟩
    · simp only [check_error hs]
      exact ⟨_, rfl⟩

theorem Lookup.ok {r : Option ModuleAndAddr} {cache' : ModuleCache}
    (h : Lookup locate cache addr r cache') :
    cache.getOrInsertVia locate addr = .ok (r, cache') := by
  cases h with
  | hit h => exact getOrInsertVia_hit h
  | unknown h hl => exact getOrInsertVia_unknown h hl
  | extend h hl hc hpre hs _ hw => exact getOrInsertVia_extend h hl hc hpre hs hw
  | append h hl hc hs hw => exact getOrInsertVia_append h hl hc hs hw

theorem Lookup.of_located {info : ModuleInfo} {base : UInt64}
    (h : cache.findExisting addr = none) (hl : locate addr = .ok (some (info, base)))
    (hs : base ≤ addr) (hw : addr < addr + 1) :
    ∃ cache', Lookup locate cache addr (some (info, addr - base)) cache' := by
  cases hfind : cache.moduleRanges.find? (matching info base) with
  | none =>
    have hc : ∀ m ∈ cache.moduleRanges, matching info base m = false := by
      simpa using List.find?_eq_none.mp hfind
    exact ⟨_, .append h hl hc hs hw⟩
  | some e =>
    obtain ⟨he, pre, post, hc, hpre⟩ := List.find?_eq_some_iff_append.mp hfind
    obtain ⟨rfl, rfl⟩ := matching_iff.mp he
    have hm : e.range.stop ≤ addr := stop_le_of_miss h (by simp [hc]) hs
    exact ⟨_, .extend h hl hc (fun m hm => by simpa using hpre m hm) hs hm hw⟩

theorem getOrInsertVia_ok_iff {r : Option ModuleAndAddr} {cache' : ModuleCache} :
    cache.getOrInsertVia locate addr = .ok (r, cache') ↔ Lookup locate cache addr r cache' := by
  constructor
  · intro hok
    have of_lookup {r' c'} (hL : Lookup locate cache addr r' c') :
        Lookup locate cache addr r cache' := by
      have heq := hL.ok.symm.trans hok
      simp only [Except.ok.injEq, Prod.mk.injEq] at heq
      rw [← heq.1, ← heq.2]
      exact hL
    cases h : cache.findExisting addr with
    | some e => exact of_lookup (.hit h)
    | none =>
      cases hl : locate addr with
      | error p => simp [getOrInsertVia_error h hl] at hok
      | ok located =>
        cases located with
        | none => exact of_lookup (.unknown h hl)
        | some p =>
          by_cases hb : p.2 ≤ addr ∧ addr < addr + 1
          · obtain ⟨_, hL⟩ := Lookup.of_located h hl hb.1 hb.2
            exact of_lookup hL
          · obtain ⟨_, herr⟩ := getOrInsertVia_misplaced h hl hb
            simp [herr] at hok
  · exact Lookup.ok

end Calls

end ModuleCache

end Vignette
