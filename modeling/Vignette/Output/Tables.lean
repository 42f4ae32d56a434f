import Mathlib.Algebra.Group.Nat.Defs
import Mathlib.Data.List.ReduceOption
import Vignette.ModuleCache.Transparency
import Vignette.Output.Laws

namespace Vignette

open Library Output ModuleCache

namespace Output

def Thread.used (t : Thread) : List Nat := t.samples.flatMap Sample.frames

def Profile.used (q : Profile) : List Nat := q.threads.flatMap Thread.used

def Profile.decode (q : Profile) (index : Nat) : Option (Module × UInt64) := do
  let frame ← q.frames[index]?
  let module ← q.modules[frame.moduleIndex.toNat]?
  return (module, frame.relativeIp)

theorem Module.ofModuleInfo_injective : Function.Injective Module.ofModuleInfo := by
  intro a b h
  cases a
  cases b
  simpa [Module.ofModuleInfo] using h

/-- `used` names exactly the positions below `n`, each first after all smaller ones. -/
def InFirstUseOrder (used : List Nat) (n : Nat) : Prop :=
  (∀ i, i ∈ used ↔ i < n) ∧ ∀ i j, i < j → j < n → used.idxOf i < used.idxOf j

theorem InFirstUseOrder.of_growth {used : List Nat} {n : Nat} (h : RestrictedGrowth used n) :
    InFirstUseOrder used n :=
  ⟨fun _ => h.mem_iff, fun _ _ hij hj => h.idxOf_lt hij hj⟩

end Output

namespace Outputter

open Running

theorem frameOf_toNat {modules : List ModuleInfo} {answer : ModuleAndAddr}
    (ha : answer.1 ∈ modules) (hm : modules.length ≤ 2 ^ 32) :
    (frameOf modules answer).moduleIndex.toNat = modules.idxOf answer.1 := by
  have hlt := List.idxOf_lt_length_iff.mpr ha
  simp only [frameOf, Nat.toUInt32, UInt32.toNat_ofNat']
  exact Nat.mod_eq_of_lt (hlt.trans_le hm)

structure Counted (used : List Nat) (o : Running) : Prop where
  frames : RestrictedGrowth used o.frames.length
  modules : RestrictedGrowth (o.frames.map fun f => f.moduleIndex.toNat) o.modules.length

theorem counted_start : Counted [] start := ⟨.nil, .nil⟩

def CountedIfFits (used : List Nat) (o : Running) : Prop :=
  o.modules.length ≤ 2 ^ 32 → Counted used o

theorem Interned.counted {o o' : Running} {answer : Option ModuleAndAddr} {pos : Option Nat}
    {used : List Nat} (h : Interned o o' answer pos) (hc : CountedIfFits used o) :
    CountedIfFits (used ++ pos.toList) o' := by
  intro hfits
  have hc := hc (h.grows.1.length_le.trans hfits)
  cases h with
  | unresolved hm hf =>
    constructor
    · rw [Option.toList_none, List.append_nil, hf]
      exact hc.frames
    · rw [hm, hf]
      exact hc.modules
  | @resolved answer hm hf =>
    constructor
    · rw [hf]
      exact hc.frames.intern _
    · have hmem : answer.1 ∈ o'.modules := hm ▸ mem_intern.mpr (.inr rfl)
      have hidx := frameOf_toNat hmem hfits
      by_cases hold : frameOf o'.modules answer ∈ o.frames
      · -- a frame seen before can only name a module seen before
        have hlt : o'.modules.idxOf answer.1 < o.modules.length := by
          rw [← hidx]
          exact hc.modules.mem_iff.mp (List.mem_map.mpr ⟨_, hold, rfl⟩)
        have hmodule : answer.1 ∈ o.modules := by
          by_contra hnew
          rw [hm, intern_of_not_mem hnew, List.idxOf_append_of_notMem hnew] at hlt
          omega
        rw [hf, intern_of_mem hold, hm, intern_of_mem hmodule]
        exact hc.modules
      · rw [hf, intern_of_not_mem hold, List.map_append, List.map_singleton, hidx, hm]
        exact hc.modules.intern _

theorem outputSample_counted {loader : Nat → Locate} {o o' : Running} {sample : Types.Sample}
    {out : Sample} {used : List Nat} (h : outputSample loader o sample = .ok (out, o'))
    (hc : CountedIfFits used o) : CountedIfFits (used ++ out.frames) o' := by
  obtain ⟨positions, ht, rfl⟩ := outputSample_ok.mp h
  refine traverse_results (I := fun positions o =>
    CountedIfFits (used ++ positions.reduceOption) o) ?_ (by simpa using hc) ht
  intro positions o frame pos o' hc hpos
  obtain ⟨_, _, hI⟩ := outputPosition_ok hpos
  have hstep := hI.counted hc
  rw [List.append_assoc] at hstep
  rw [List.reduceOption_append, List.reduceOption_singleton]
  exact hstep

theorem outputThread_counted {loader : Nat → Locate} {o o' : Running}
    {thread : (_ : ThreadId) × List Types.Sample} {out : Thread} {used : List Nat}
    (h : outputThread loader o thread = .ok (out, o')) (hc : CountedIfFits used o) :
    CountedIfFits (used ++ out.used) o' := by
  obtain ⟨samples, ht, rfl⟩ := outputThread_ok.mp h
  refine traverse_results (I := fun samples o =>
    CountedIfFits (used ++ samples.flatMap Sample.frames) o) ?_ (by simpa using hc) ht
  intro samples o sample out o' hc hs
  rw [List.flatMap_append, List.flatMap_singleton, ← List.append_assoc]
  exact outputSample_counted hs hc

theorem output_counted {loader : Nat → Locate} {o o' : Running} {profile : InputProfile}
    {q : Profile} {used : List Nat} (h : output loader o profile = .ok (q, o'))
    (hc : CountedIfFits used o) : CountedIfFits (used ++ q.used) o' := by
  obtain ⟨ht, _⟩ := output_ok.mp h
  refine traverse_results (I := fun threads o =>
    CountedIfFits (used ++ threads.flatMap Thread.used) o) ?_ (by simpa using hc) ht
  intro threads o thread out o' hc hs
  rw [List.flatMap_append, List.flatMap_singleton, ← List.append_assoc]
  exact outputThread_counted hs hc

theorem outputs_counted {loader : Nat → Locate} {o : Running} {history : List InputProfile}
    {qs : List Profile} (h : traverse (output loader) start history = .ok (qs, o)) :
    CountedIfFits (qs.flatMap Profile.used) o := by
  refine traverse_results (I := fun qs o => CountedIfFits (qs.flatMap Profile.used) o) ?_
    (fun _ => counted_start) h
  intro qs o profile q o' hc hq
  rw [List.flatMap_append, List.flatMap_singleton]
  exact output_counted hq hc

/-- The tables of the profile `q`, which was output after the profiles `sofar`. -/
structure ExactTables (sofar : List Profile) (q : Profile) : Prop where
  modules_nodup : q.modules.Nodup
  frames_nodup : q.frames.Nodup
  frames_used : InFirstUseOrder ((sofar ++ [q]).flatMap Profile.used) q.frames.length
  modules_used : InFirstUseOrder (q.frames.map fun f => f.moduleIndex.toNat) q.modules.length

theorem ExactTables.of_counted {sofar : List Profile} {q : Profile} {o : Running}
    (hm : q.modules = o.modules.map Module.ofModuleInfo) (hf : q.frames = o.frames)
    (hc : Counted ((sofar ++ [q]).flatMap Profile.used) o) : ExactTables sofar q where
  modules_nodup := hm ▸ o.moduleIndex.vec_nodup.map Module.ofModuleInfo_injective
  frames_nodup := hf ▸ o.framesIndex.vec_nodup
  frames_used := hf ▸ .of_growth hc.frames
  modules_used := by
    rw [hf, hm, List.length_map]
    exact .of_growth hc.modules

def TablesBegin (q q' : Profile) : Prop := q.modules <+: q'.modules ∧ q.frames <+: q'.frames

structure History (qs : List Profile) (o : Running) : Prop where
  counted : CountedIfFits (qs.flatMap Profile.used) o
  begin_state : ∀ q ∈ qs, q.modules <+: o.modules.map Module.ofModuleInfo ∧ q.frames <+: o.frames
  begin_later : qs.Pairwise TablesBegin
  exact_tables : ∀ sofar q, sofar ++ [q] <+: qs → q.modules.length ≤ 2 ^ 32 → ExactTables sofar q

theorem History.output {loader : Nat → Locate} {qs : List Profile} {o o' : Running}
    {profile : InputProfile} {q : Profile} (hh : History qs o)
    (h : output loader o profile = .ok (q, o')) : History (qs ++ [q]) o' := by
  obtain ⟨_, hm, hf⟩ := output_ok.mp h
  have hg := output_grows h
  have hc : CountedIfFits ((qs ++ [q]).flatMap Profile.used) o' := by
    rw [List.flatMap_append, List.flatMap_singleton]
    exact output_counted h hh.counted
  have hbegin : ∀ p ∈ qs, TablesBegin p q := fun p hp =>
    ⟨hm ▸ (hh.begin_state p hp).1.trans (hg.1.map _), hf ▸ (hh.begin_state p hp).2.trans hg.2⟩
  constructor
  · exact hc
  · intro p hp
    rw [← hm, ← hf]
    cases List.mem_append.mp hp with
    | inl hp => exact hbegin p hp
    | inr hp => rw [List.mem_singleton.mp hp]; exact ⟨List.prefix_rfl, List.prefix_rfl⟩
  · refine List.pairwise_append.mpr ⟨hh.begin_later, List.pairwise_singleton _ _, ?_⟩
    intro p hp q' hq'
    rw [List.mem_singleton.mp hq']
    exact hbegin p hp
  · intro sofar p hp hsmall
    cases List.prefix_concat_iff.mp hp with
    | inl heq =>
      obtain ⟨rfl, hpq⟩ := List.append_inj' heq rfl
      obtain rfl : p = q := by simpa using hpq
      rw [hm, List.length_map] at hsmall
      exact .of_counted hm hf (hc hsmall)
    | inr hp => exact hh.exact_tables sofar p hp hsmall

theorem outputs_history {loader : Nat → Locate} {o : Running} {history : List InputProfile}
    {qs : List Profile} (h : traverse (output loader) start history = .ok (qs, o)) :
    History qs o :=
  traverse_results (I := History) (fun hh hq => hh.output hq)
    ⟨fun _ => counted_start, by simp, .nil, by simp⟩ h

theorem TablesBegin.decode {q q' : Profile} (h : TablesBegin q q') {index : Nat}
    {x : Module × UInt64} (hx : q.decode index = some x) : q'.decode index = some x := by
  simp only [Profile.decode, Bind.bind, Pure.pure, Option.bind_eq_some_iff] at hx ⊢
  obtain ⟨frame, hf, module, hm, hx⟩ := hx
  exact ⟨frame, getElem?_mono h.2 hf, module, getElem?_mono h.1 hm, hx⟩

theorem ExactTables.decode_isSome {sofar : List Profile} {q : Profile} (h : ExactTables sofar q)
    {index : Nat} (hi : index < q.frames.length) : (q.decode index).isSome := by
  have hm : q.frames[index].moduleIndex.toNat < q.modules.length :=
    (h.modules_used.1 _).mp (List.mem_map.mpr ⟨_, List.getElem_mem hi, rfl⟩)
  simp [Profile.decode, List.getElem?_eq_getElem hi, List.getElem?_eq_getElem hm]

/-- Over any history of outputs and any loader, the tables are exact and only grow, and what
some lookup finds of a captured sample is in them. -/
theorem outputs_tables_exact_and_stable {loader : Nat → Locate} {history : List InputProfile}
    {qs : List Profile} {o : Running}
    (h : traverse (output loader) start history = .ok (qs, o))
    (hsmall : ∀ q ∈ qs, q.modules.length < 2 ^ 32) :
    (∀ sofar q, sofar ++ [q] <+: qs → ExactTables sofar q) ∧
    qs.Pairwise (fun q q' => TablesBegin q q' ∧
      ∀ index ∈ q.used, ∃ x, q.decode index = some x ∧ q'.decode index = some x) ∧
    List.Forall₂ (OnlyUnknownMissing (fun ip => ∃ n, loader n ip = .ok none)
      fun addr x => ∃ n, loader n addr = .ok (some x)) history qs := by
  have hh := outputs_history h
  have hexact : ∀ sofar q, sofar ++ [q] <+: qs → ExactTables sofar q := fun sofar q hq =>
    hh.exact_tables sofar q hq (hsmall q (hq.subset (by simp))).le
  refine ⟨hexact, hh.begin_later.imp_of_mem ?_,
    (outputs_onlyUnknownMissing (fun _ _ hl => ⟨_, hl⟩) (fun _ _ _ hl => ⟨_, hl⟩) h).2⟩
  intro q q' hq _ hbegin
  refine ⟨hbegin, fun index hindex => ?_⟩
  obtain ⟨sofar, rest, hqs⟩ := List.append_of_mem hq
  have hq : ExactTables sofar q := hexact sofar q ⟨rest, by simp [hqs]⟩
  have hlt : index < q.frames.length := (hq.frames_used.1 index).mp (by simp [hindex])
  obtain ⟨x, hx⟩ := Option.isSome_iff_exists.mp (hq.decode_isSome hlt)
  exact ⟨x, hx, hbegin.decode hx⟩

def appProfile : InputProfile where
  threads := ⟨[⟨⟨7⟩, [[⟨0x4010⟩, ⟨0x10⟩]]⟩], by simp [List.NodupKeys, List.keys]⟩

def appOutput : Profile where
  modules := [⟨"app", "AB"⟩]
  threads := [⟨⟨7⟩, [⟨[0]⟩]⟩]
  frames := [⟨0, 0x10⟩]

def asked (_ : Nat) : Locate := fun addr => .ok (appBlocks addr)

theorem appProfile_tables_exact_and_stable :
    ∃ qs o, traverse (output asked) start [appProfile, appProfile] = .ok (qs, o) ∧
      (∀ sofar q, sofar ++ [q] <+: qs → ExactTables sofar q) ∧
      qs.Pairwise (fun q q' => TablesBegin q q' ∧
        ∀ index ∈ q.used, ∃ x, q.decode index = some x ∧ q'.decode index = some x) ∧
      List.Forall₂ (OnlyUnknownMissing (fun ip => ∃ n, asked n ip = .ok none)
        fun addr x => ∃ n, asked n addr = .ok (some x)) [appProfile, appProfile] qs := by
  have hqs : (traverse (output asked) start [appProfile, appProfile]).map Prod.fst =
      .ok [appOutput, appOutput] := by decide
  cases h : traverse (output asked) start [appProfile, appProfile] with
  | error p => simp [h, Except.map] at hqs
  | ok r =>
    have hr : r.1 = [appOutput, appOutput] := by simpa [h, Except.map] using hqs
    exact ⟨r.1, r.2, rfl, outputs_tables_exact_and_stable h (by rw [hr]; decide)⟩

end Outputter

end Vignette
