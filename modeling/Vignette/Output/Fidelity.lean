import Mathlib.Data.Set.Card
import Vignette.Output.Tables

namespace Vignette

open Library Output ModuleCache

def Named (S : Blocks UInt64 ModuleInfo) : Set ModuleInfo :=
  {info | ∃ addr base, S addr = some (info, base)}

theorem length_lt_of_named {S : Blocks UInt64 ModuleInfo} {modules : List ModuleInfo} {n : Nat}
    (hd : modules.Nodup) (hm : ∀ info ∈ modules, info ∈ Named S) (hn : (Named S).encard < n) :
    modules.length < n := by
  have hle : (modules.toFinset : Set ModuleInfo).encard ≤ (Named S).encard :=
    Set.encard_le_encard fun info hinfo => hm info (by simpa using hinfo)
  rw [Set.encard_coe_eq_coe_finsetCard, List.toFinset_card_of_nodup hd] at hle
  exact_mod_cast hle.trans_lt hn

theorem mem_named {S : Blocks UInt64 ModuleInfo} {addr : UInt64}
    {answer : ModuleAndAddr} (h : uncached S addr = some answer) : answer.1 ∈ Named S := by
  simp only [uncached, Option.map_eq_some_iff] at h
  obtain ⟨p, hp, rfl⟩ := h
  exact ⟨addr, p.2, hp⟩

def answersTo (S : Blocks UInt64 ModuleInfo) (frames : List Types.Frame) : List ModuleAndAddr :=
  frames.filterMap fun frame => uncached S frame.ip

namespace Output

/-- An output sample decodes to the loader's answers for the captured addresses that
it can name, in captured order and with multiplicity. -/
def Decodes (S : Blocks UInt64 ModuleInfo) (q : Profile) (sample : Types.Sample) (out : Sample) :
    Prop :=
  out.frames.map q.decode =
    (answersTo S sample).map fun answer => some (Module.ofModuleInfo answer.1, answer.2)

structure FaithfulTo (S : Blocks UInt64 ModuleInfo) (p : InputProfile) (q : Profile) : Prop where
  threads : List.Forall₂ (fun thread out => out.threadId = thread.1 ∧
    List.Forall₂ (Decodes S q) thread.2 out.samples) p.threads.entries q.threads
  threads_nodup : (q.threads.map Thread.threadId).Nodup
  indices : ∀ index ∈ q.used, index < q.frames.length
  module_indices : ∀ frame ∈ q.frames, frame.moduleIndex.toNat < q.modules.length

end Output

namespace Outputter

open Running

theorem ThreadOf.threadIds {A : UInt64 → Option ModuleAndAddr → Prop} {o : Running}
    {entries : List ((_ : ThreadId) × List Types.Sample)} {out : List Thread}
    (h : List.Forall₂ (ThreadOf A o) entries out) :
    out.map Thread.threadId = entries.map Sigma.fst := by
  induction h with
  | nil => rfl
  | cons hthread _ ih => rw [List.map_cons, List.map_cons, hthread.1, ih]

theorem Indexes.decode {o : Running} {q : Profile}
    (hm : q.modules = o.modules.map Module.ofModuleInfo) (hf : q.frames = o.frames)
    (hfits : o.modules.length ≤ 2 ^ 32) {answer : ModuleAndAddr} {index : Nat}
    (h : Indexes o (some answer) (some index)) :
    q.decode index = some (Module.ofModuleInfo answer.1, answer.2) := by
  cases h with
  | resolved hmem hi =>
    have hmodule : q.modules[o.modules.idxOf answer.1]? = some (Module.ofModuleInfo answer.1) := by
      rw [hm, List.getElem?_map, List.getElem?_idxOf hmem]
      rfl
    simp only [Profile.decode, hf, hi, Bind.bind, Pure.pure, Option.bind_some,
      frameOf_toNat hmem hfits, hmodule]
    rfl

theorem SampleOf.decodes {S : Blocks UInt64 ModuleInfo} {o : Running} {q : Profile}
    (hm : q.modules = o.modules.map Module.ofModuleInfo) (hf : q.frames = o.frames)
    (hfits : o.modules.length ≤ 2 ^ 32) {sample : Types.Sample} {out : Sample}
    (h : SampleOf (fun ip answer => answer = uncached S ip) o sample out) :
    Decodes S q sample out := by
  obtain ⟨positions, hout, h⟩ := h
  rw [Decodes, answersTo, hout]
  clear hout
  induction h with
  | nil => rfl
  | @cons frame pos sample positions hframe _ ih =>
    obtain ⟨answer, ha, hi⟩ := hframe
    cases hi with
    | unresolved =>
      simp only [List.reduceOption_cons_of_none, List.filterMap_cons, ← ha]
      exact ih
    | resolved hmem hget =>
      simp only [List.reduceOption_cons_of_some, List.filterMap_cons, ← ha, List.map_cons]
      rw [ih, Indexes.decode hm hf hfits (.resolved hmem hget)]

section Loader

variable {locate : Locate} {S : Blocks UInt64 ModuleInfo}

structure Agrees (S : Blocks UInt64 ModuleInfo) (o : Running) : Prop where
  cache : Justified S o.moduleCache
  modules : ∀ info ∈ o.modules, info ∈ Named S

theorem agrees_start : Agrees S start where
  cache := justified_new
  modules := by simp [start, Outputter.new, Running.modules, VecHashMap.new]

theorem Agrees.lookup (hb : locate.blocks = S) (hS : Contiguous S) {o o' : Running}
    {addr : UInt64} {answer : Option ModuleAndAddr} {pos : Option Nat} (ho : Agrees S o)
    (hL : Lookup locate o.moduleCache addr answer o'.moduleCache) (hI : Interned o o' answer pos) :
    Agrees S o' ∧ answer = uncached S addr := by
  subst hb
  have ha := hL.answer ho.cache hS
  refine ⟨⟨hL.justified ho.cache, ?_⟩, ha⟩
  cases hI with
  | unresolved hm => exact hm ▸ ho.modules
  | resolved hm =>
    intro info hinfo
    rw [hm, mem_intern] at hinfo
    cases hinfo with
    | inl hold => exact ho.modules info hold
    | inr hnew => exact hnew ▸ mem_named ha.symm

theorem Agrees.fits {o : Running} (ho : Agrees S o) (hn : (Named S).encard < (2 ^ 32 : Nat)) :
    o.modules.length < 2 ^ 32 :=
  length_lt_of_named o.moduleIndex.vec_nodup ho.modules hn

theorem Agrees.faithful (hb : locate.blocks = S) (hS : Contiguous S) {o o' : Running}
    {p : InputProfile} {q : Profile} {used : List Nat} (ho : Agrees S o)
    (hc : CountedIfFits used o) (hq : output (fun _ => locate) o p = .ok (q, o'))
    (hfits : o'.modules.length ≤ 2 ^ 32) : FaithfulTo S p q := by
  obtain ⟨_, hm, hf⟩ := output_ok.mp hq
  have hrun := (output_rule (fun ho hL hI => ho.lookup hb hS hL hI) ho hq).2.2
  have hcounted := output_counted hq hc hfits
  constructor
  · refine hrun.imp fun thread out hthread => ⟨hthread.1, ?_⟩
    exact hthread.2.imp fun _ _ hs => hs.decodes hm hf hfits
  · rw [ThreadOf.threadIds hrun]
    exact p.threads.nodupKeys
  · intro index hindex
    rw [hf]
    exact hcounted.frames.mem_iff.mp (List.mem_append_right used hindex)
  · intro frame hframe
    rw [hm, List.length_map]
    exact hcounted.modules.mem_iff.mp (List.mem_map.mpr ⟨frame, hf ▸ hframe, rfl⟩)

theorem Agrees.total (hl : ∀ addr, locate addr = .ok (S addr)) (hp : WellPlaced S)
    (hS : Contiguous S) {o : Running} (ho : Agrees S o) (p : InputProfile) :
    ∃ q o', output (fun _ => locate) o p = .ok (q, o') ∧ Agrees S o' :=
  output_total (L := fun _ => locate) (C := fun _ => True)
    (fun ho hL hI => ho.lookup (Locate.blocks_eq hl) hS hL hI)
    (fun _ _ => exists_lookup (hl _) hp) (fun _ _ => trivial) ho

theorem outputs_agree (hl : ∀ addr, locate addr = .ok (S addr)) (hp : WellPlaced S)
    (hS : Contiguous S) (history : List InputProfile) :
    ∃ qs o, traverse (output fun _ => locate) start history = .ok (qs, o) ∧ Agrees S o :=
  traverse_total (I := Agrees S) (fun _ ho => ho.total hl hp hS _) agrees_start

end Loader

theorem named_appBlocks : (Named appBlocks).encard < (2 ^ 32 : Nat) := by
  have hsub : Named appBlocks ⊆ {appInfo} := by
    intro info ⟨addr, base, h⟩
    rw [appBlocks] at h
    split at h
    · simp only [Option.some.injEq, Prod.mk.injEq] at h
      exact h.1.symm
    · simp at h
  have hle := Set.encard_le_encard hsub
  rw [Set.encard_singleton] at hle
  exact hle.trans_lt (Nat.one_lt_cast.mpr (by decide))

end Outputter

end Vignette
