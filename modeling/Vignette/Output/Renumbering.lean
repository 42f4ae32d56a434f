import Vignette.Output.Fidelity

namespace Vignette

open Library Output ModuleCache

namespace Output

/-- Bijections between the tables of two profiles that carry the one to the other. -/
structure Renumbering (q q' : Profile) where
  module : Fin q.modules.length ≃ Fin q'.modules.length
  frame : Fin q.frames.length ≃ Fin q'.frames.length
  module_eq : ∀ i, q'.modules[module i] = q.modules[i]
  relativeIp_eq : ∀ i, q'.frames[frame i].relativeIp = q.frames[i].relativeIp
  moduleIndex_eq : ∀ i, ∃ m, m.val = q.frames[i].moduleIndex.toNat ∧
    (module m).val = q'.frames[frame i].moduleIndex.toNat
  threadIds : (q.threads.map Thread.threadId).Perm (q'.threads.map Thread.threadId)
  samples : ∀ t ∈ q.threads, ∀ t' ∈ q'.threads, t.threadId = t'.threadId →
    List.Forall₂ (fun s s' => List.Forall₂ (fun i j => ∃ h, (frame ⟨i, h⟩).val = j)
      s.frames s'.frames) t.samples t'.samples

structure Numbers (answers : List ModuleAndAddr) (q : Profile) : Prop where
  modules_nodup : q.modules.Nodup
  mem_modules : ∀ m, m ∈ q.modules ↔ ∃ answer ∈ answers, Module.ofModuleInfo answer.1 = m
  decode_injective : Function.Injective fun i : Fin q.frames.length => q.decode i
  range_decode : Set.range (fun i : Fin q.frames.length => q.decode i) =
    {x | ∃ answer ∈ answers, some (Module.ofModuleInfo answer.1, answer.2) = x}

theorem Profile.decode_eq_some {q : Profile} {i : Fin q.frames.length} {m : Module} {rip : UInt64} :
    q.decode i = some (m, rip) ↔
      q.modules[q.frames[i].moduleIndex.toNat]? = some m ∧ q.frames[i].relativeIp = rip := by
  simp [Profile.decode, Bind.bind, Pure.pure, Option.bind_eq_some_iff]

theorem Profile.lt_of_decode {q : Profile} {index : Nat} {x : Module × UInt64}
    (h : q.decode index = some x) : index < q.frames.length := by
  simp only [Profile.decode, Bind.bind, Option.bind_eq_some_iff] at h
  obtain ⟨frame, hf, _⟩ := h
  exact (List.getElem?_eq_some_iff.mp hf).1

theorem Decodes.forall₂ {S : Blocks UInt64 ModuleInfo} {q : Profile} {sample : Types.Sample}
    {out : Sample} (h : Decodes S q sample out) :
    List.Forall₂ (fun answer i => q.decode i = some (Module.ofModuleInfo answer.1, answer.2))
      (answersTo S sample) out.frames := by
  have heq := List.forall₂_eq_eq_eq ▸ h.symm
  rw [List.forall₂_map_left_iff, List.forall₂_map_right_iff] at heq
  exact heq.imp fun _ _ hi => hi.symm

theorem Decodes.same {S : Blocks UInt64 ModuleInfo} {q q' : Profile} {sample : Types.Sample}
    {out out' : Sample} (h : Decodes S q sample out) (h' : Decodes S q' sample out') :
    List.Forall₂ (fun i j => ∃ x, q.decode i = some x ∧ q'.decode j = some x)
      out.frames out'.frames :=
  forall₂_of_left (fun hi hj => ⟨_, hi, hj⟩) h.forall₂ h'.forall₂

theorem FaithfulTo.same_samples {S : Blocks UInt64 ModuleInfo} {p p' : InputProfile}
    {q q' : Profile} (h : FaithfulTo S p q) (h' : FaithfulTo S p' q')
    (hp : p.threads.entries.Perm p'.threads.entries) {t t' : Thread} (ht : t ∈ q.threads)
    (ht' : t' ∈ q'.threads) (hid : t.threadId = t'.threadId) :
    List.Forall₂ (fun s s' => List.Forall₂ (fun i j => ∃ x, q.decode i = some x ∧
      q'.decode j = some x) s.frames s'.frames) t.samples t'.samples := by
  obtain ⟨thread, hthread, hi, hs⟩ := exists_of_mem_right h.threads ht
  obtain ⟨thread', hthread', hi', hs'⟩ := exists_of_mem_right h'.threads ht'
  have heq : thread = thread' := p.threads.nodupKeys.eq_of_fst_eq hthread
    (hp.mem_iff.mpr hthread') (by rw [← hi, ← hi', hid])
  subst heq
  exact forall₂_of_left (fun hd hd' => hd.same hd') hs hs'

theorem FaithfulTo.threadIds {S : Blocks UInt64 ModuleInfo} {p : InputProfile} {q : Profile}
    (h : FaithfulTo S p q) : q.threads.map Thread.threadId = p.threads.entries.map Sigma.fst := by
  have hmap : List.Forall₂ Eq (q.threads.map Thread.threadId) (p.threads.entries.map Sigma.fst) := by
    rw [List.forall₂_map_left_iff, List.forall₂_map_right_iff]
    exact (h.threads.imp fun _ _ ht => ht.1).flip
  rwa [List.forall₂_eq_eq_eq] at hmap

namespace Numbers

variable {answers answers' : List ModuleAndAddr} {q q' : Profile}

theorem modules_injective (h : Numbers answers q) :
    Function.Injective fun i : Fin q.modules.length => q.modules[i] := by
  intro i j hij
  exact Fin.ext ((List.getElem_inj h.modules_nodup).mp hij)

section Same

variable (h : Numbers answers q) (h' : Numbers answers' q')
  (hsame : ∀ answer, answer ∈ answers ↔ answer ∈ answers')

include h h' hsame

theorem range_modules : (Set.range fun i : Fin q.modules.length => q.modules[i]) =
    Set.range fun i : Fin q'.modules.length => q'.modules[i] := by
  have hrange : ∀ l : List Module, (Set.range fun i : Fin l.length => l[i]) = {m | m ∈ l} := by
    intro l
    ext m
    simp [List.mem_iff_getElem, Fin.exists_iff]
  rw [hrange, hrange]
  ext m
  simp [h.mem_modules, h'.mem_modules, hsame]

theorem range_decodes : (Set.range fun i : Fin q.frames.length => q.decode i) =
    Set.range fun i : Fin q'.frames.length => q'.decode i := by
  simp [h.range_decode, h'.range_decode, hsame]

variable (hids : (q.threads.map Thread.threadId).Perm (q'.threads.map Thread.threadId))
  (hsamples : ∀ t ∈ q.threads, ∀ t' ∈ q'.threads, t.threadId = t'.threadId →
    List.Forall₂ (fun s s' => List.Forall₂ (fun i j => ∃ x, q.decode i = some x ∧
      q'.decode j = some x) s.frames s'.frames) t.samples t'.samples)

include hids hsamples

noncomputable def renumbering : Renumbering q q' where
  module := renumber h.modules_injective h'.modules_injective (range_modules h h' hsame)
  frame := renumber h.decode_injective h'.decode_injective (range_decodes h h' hsame)
  module_eq := apply_renumber _ _ _
  relativeIp_eq := by
    intro i
    obtain ⟨a, _, ha⟩ := h.range_decode ▸ Set.mem_range_self i
    have hj := apply_renumber h.decode_injective h'.decode_injective (range_decodes h h' hsame) i
    rw [(Profile.decode_eq_some.mp ha.symm).2]
    exact (Profile.decode_eq_some.mp (hj.trans ha.symm)).2
  moduleIndex_eq := by
    intro i
    obtain ⟨a, _, ha⟩ := h.range_decode ▸ Set.mem_range_self i
    have hj := apply_renumber h.decode_injective h'.decode_injective (range_decodes h h' hsame) i
    obtain ⟨hm, hmi⟩ := List.getElem?_eq_some_iff.mp (Profile.decode_eq_some.mp ha.symm).1
    obtain ⟨hm', hmj⟩ := List.getElem?_eq_some_iff.mp
      (Profile.decode_eq_some.mp (hj.trans ha.symm)).1
    refine ⟨⟨_, hm⟩, rfl, ?_⟩
    exact congrArg Fin.val (renumber_eq h.modules_injective h'.modules_injective
      (range_modules h h' hsame) (j := ⟨_, hm'⟩) (hmi.trans hmj.symm))
  threadIds := hids
  samples := by
    intro t ht t' ht' hid
    refine (hsamples t ht t' ht' hid).imp fun s s' hs => hs.imp fun i j ⟨x, hi, hj⟩ => ?_
    refine ⟨Profile.lt_of_decode hi, ?_⟩
    exact congrArg Fin.val (renumber_eq h.decode_injective h'.decode_injective
      (range_decodes h h' hsame) (j := ⟨j, Profile.lt_of_decode hj⟩) (hi.trans hj.symm))

end Same

end Numbers

end Output

namespace Outputter

open Running

structure Recorded (answers : List ModuleAndAddr) (o : Running) : Prop where
  modules : o.modules = internAll [] (answers.map Prod.fst)
  frames : o.frames = internAll [] (answers.map (frameOf o.modules))

theorem recorded_start : Recorded [] start := ⟨rfl, rfl⟩

variable {answers : List ModuleAndAddr}

theorem Recorded.mem_modules {o : Running} (h : Recorded answers o) {info : ModuleInfo} :
    info ∈ o.modules ↔ ∃ answer ∈ answers, answer.1 = info := by
  rw [h.modules, mem_internAll, List.mem_map]
  simp

theorem Recorded.mem_frames {o : Running} (h : Recorded answers o) {frame : Frame} :
    frame ∈ o.frames ↔ ∃ answer ∈ answers, frameOf o.modules answer = frame := by
  rw [h.frames, mem_internAll, List.mem_map]
  simp

theorem Interned.recorded {o o' : Running} {answer : Option ModuleAndAddr} {pos : Option Nat}
    (h : Interned o o' answer pos) (hr : Recorded answers o) :
    Recorded (answers ++ answer.toList) o' := by
  have hold : answers.map (frameOf o'.modules) = answers.map (frameOf o.modules) :=
    List.map_congr_left fun a ha => frameOf_mono h.grows.1 (hr.mem_modules.mpr ⟨a, ha, rfl⟩)
  cases h with
  | unresolved hm hf =>
    rw [Option.toList_none, List.append_nil]
    exact ⟨hm.trans hr.modules, by rw [hf, hold, hr.frames]⟩
  | resolved hm hf =>
    constructor
    · rw [hm, hr.modules, Option.toList_some, List.map_append, internAll_append]
      rfl
    · rw [hf, hr.frames, Option.toList_some, List.map_append, internAll_append, hold]
      rfl

section Runs

variable {locate : Locate} {S : Blocks UInt64 ModuleInfo} (hb : locate.blocks = S)
  (hS : Contiguous S)

include hb hS

theorem outputSample_recorded {o o' : Running} {sample : Types.Sample} {out : Sample}
    (ho : Agrees S o) (hr : Recorded answers o)
    (h : outputSample (fun _ => locate) o sample = .ok (out, o')) :
    Agrees S o' ∧ Recorded (answers ++ answersTo S sample) o' := by
  obtain ⟨positions, ht, _⟩ := outputSample_ok.mp h
  refine traverse_induction (I := fun sample _ o =>
    Agrees S o ∧ Recorded (answers ++ answersTo S sample) o) (l := []) (m := []) ?_
    ⟨ho, by simpa [answersTo] using hr⟩ ht
  rintro sample _ o frame pos o' _ ⟨ho, hr⟩ hpos
  obtain ⟨answer, hL, hI⟩ := outputPosition_ok hpos
  obtain ⟨ho', ha⟩ := ho.lookup hb hS hL hI
  have hstep := hI.recorded hr
  refine ⟨ho', ?_⟩
  rw [ha, List.append_assoc] at hstep
  rw [answersTo, List.filterMap_append]
  cases hu : uncached S frame.ip with
  | none => simpa [hu, answersTo] using hstep
  | some a => simpa [hu, answersTo] using hstep

theorem outputThread_recorded {o o' : Running} {thread : (_ : ThreadId) × List Types.Sample}
    {out : Thread} (ho : Agrees S o) (hr : Recorded answers o)
    (h : outputThread (fun _ => locate) o thread = .ok (out, o')) :
    Agrees S o' ∧ Recorded (answers ++ answersTo S thread.2.flatten) o' := by
  obtain ⟨samples, ht, _⟩ := outputThread_ok.mp h
  refine traverse_induction (I := fun samples _ o =>
    Agrees S o ∧ Recorded (answers ++ answersTo S samples.flatten) o) (l := []) (m := []) ?_
    ⟨ho, by simpa [answersTo] using hr⟩ ht
  rintro samples _ o sample out o' _ ⟨ho, hr⟩ hs
  have hstep := outputSample_recorded hb hS ho hr hs
  simpa [answersTo] using hstep

theorem output_recorded {o o' : Running} {p : InputProfile} {q : Profile}
    (ho : Agrees S o) (hr : Recorded answers o)
    (h : output (fun _ => locate) o p = .ok (q, o')) :
    Agrees S o' ∧ Recorded (answers ++ answersTo S p.captured) o' := by
  refine traverse_induction (I := fun threads _ o =>
    Agrees S o ∧ Recorded (answers ++ answersTo S (threads.flatMap fun t => t.2.flatten)) o)
    (l := []) (m := []) ?_ ⟨ho, by simpa [answersTo] using hr⟩ (output_ok.mp h).1
  rintro threads _ o thread out o' _ ⟨ho, hr⟩ ht
  have hstep := outputThread_recorded hb hS ho hr ht
  simpa [answersTo] using hstep

end Runs

theorem Recorded.numbers {o : Running} {q : Profile} (h : Recorded answers o)
    (hm : q.modules = o.modules.map Module.ofModuleInfo) (hf : q.frames = o.frames)
    (hfits : o.modules.length ≤ 2 ^ 32) : Numbers answers q := by
  have hframe : ∀ i : Fin q.frames.length, ∃ answer ∈ answers,
      frameOf o.modules answer = q.frames[i] ∧
        q.decode i = some (Module.ofModuleInfo answer.1, answer.2) := by
    intro i
    have hi : o.frames[i.val]? = some q.frames[i] := by
      rw [← hf]
      exact List.getElem?_eq_getElem i.isLt
    obtain ⟨a, ha, hai⟩ := h.mem_frames.mp (List.mem_of_getElem? hi)
    exact ⟨a, ha, hai, Indexes.decode hm hf hfits
      (.resolved (h.mem_modules.mpr ⟨a, ha, rfl⟩) (hai ▸ hi))⟩
  constructor
  · exact hm ▸ o.moduleIndex.vec_nodup.map Module.ofModuleInfo_injective
  · intro m
    rw [hm, List.mem_map]
    simp only [h.mem_modules]
    grind
  · intro i j hij
    obtain ⟨a, _, hai, hi⟩ := hframe i
    obtain ⟨b, _, hbj, hj⟩ := hframe j
    have hab : a = b := by
      simp only [hi, hj, Option.some.injEq, Prod.mk.injEq] at hij
      exact Prod.ext (Module.ofModuleInfo_injective hij.1) hij.2
    have hnodup : q.frames.Nodup := hf ▸ o.framesIndex.vec_nodup
    have heq : q.frames[i] = q.frames[j] := by rw [← hai, ← hbj, hab]
    exact Fin.ext ((List.getElem_inj hnodup).mp heq)
  · ext x
    constructor
    · intro ⟨i, hi⟩
      obtain ⟨a, ha, _, hd⟩ := hframe i
      exact ⟨a, ha, hd.symm.trans hi⟩
    · intro ⟨a, ha, hx⟩
      obtain ⟨i, hi, hai⟩ := List.mem_iff_getElem.mp (h.mem_frames.mpr ⟨a, ha, rfl⟩)
      refine ⟨⟨i, by rw [hf]; exact hi⟩, ?_⟩
      rw [← hx]
      refine Indexes.decode hm hf hfits (.resolved (h.mem_modules.mpr ⟨a, ha, rfl⟩) ?_)
      rw [List.getElem?_eq_getElem hi, hai]

theorem recorded_fresh {locate : Locate} (hS : Contiguous locate.blocks) {p : InputProfile}
    {q : Profile} {o : Running} (h : output (fun _ => locate) start p = .ok (q, o)) :
    Recorded (answersTo locate.blocks p.captured) o := by
  have hr := (output_recorded rfl hS agrees_start recorded_start h).2
  rwa [List.nil_append] at hr

theorem mem_answersTo {S : Blocks UInt64 ModuleInfo} {p p' : InputProfile}
    (hp : p.threads.entries.Perm p'.threads.entries) (answer : ModuleAndAddr) :
    answer ∈ answersTo S p.captured ↔ answer ∈ answersTo S p'.captured :=
  ((hp.flatMap_right _).filterMap _).mem_iff

/-- Two iteration orders of one profile give outputs that differ by a renumbering,
while the module positions fit the `u32` of a frame. -/
theorem outputs_equal_up_to_renumbering {File Elf : Type} {loader : Linux.Loader File Elf}
    (hS : Contiguous loader.locate.blocks) {p p' : InputProfile}
    (hp : p.threads.entries.Perm p'.threads.entries) {q q' : Profile} {o o' : Running}
    (h : output (fun _ => loader.locate) start p = .ok (q, o))
    (h' : output (fun _ => loader.locate) start p' = .ok (q', o'))
    (hfits : q.modules.length ≤ 2 ^ 32) : Nonempty (Renumbering q q') := by
  obtain ⟨_, hm, hf⟩ := output_ok.mp h
  obtain ⟨_, hm', hf'⟩ := output_ok.mp h'
  have hr := recorded_fresh hS h
  have hr' := recorded_fresh hS h'
  have hsame : ∀ info, info ∈ o.modules ↔ info ∈ o'.modules := fun info => by
    simp only [hr.mem_modules, hr'.mem_modules, mem_answersTo hp]
  have hlen := ((List.perm_ext_iff_of_nodup o.moduleIndex.vec_nodup
    o'.moduleIndex.vec_nodup).mpr hsame).length_eq
  rw [hm, List.length_map] at hfits
  have hfaithful := agrees_start.faithful rfl hS (fun _ => counted_start) h hfits
  have hfaithful' := agrees_start.faithful rfl hS (fun _ => counted_start) h' (hlen ▸ hfits)
  have hids : (q.threads.map Thread.threadId).Perm (q'.threads.map Thread.threadId) := by
    rw [hfaithful.threadIds, hfaithful'.threadIds]
    exact hp.map _
  exact ⟨(hr.numbers hm hf hfits).renumbering (hr'.numbers hm' hf' (hlen ▸ hfits))
    (mem_answersTo hp) hids fun _ ht _ ht' hid => hfaithful.same_samples hfaithful' hp ht ht' hid⟩

def pairThreads : List ((_ : ThreadId) × List Types.Sample) :=
  [⟨⟨7⟩, [[⟨0x4010⟩, ⟨0x10⟩]]⟩, ⟨⟨8⟩, [[⟨0x4020⟩], [⟨0x4010⟩]]⟩]

def pairProfile : InputProfile where
  threads := ⟨pairThreads, by simp [List.NodupKeys, List.keys, pairThreads]⟩

def pairProfileReversed : InputProfile where
  threads := ⟨pairThreads.reverse, by simp [List.NodupKeys, List.keys, pairThreads]⟩

theorem pairProfile_equal_up_to_renumbering :
    ∃ q o q' o', output (fun _ => appLoader.locate) start pairProfile = .ok (q, o) ∧
      output (fun _ => appLoader.locate) start pairProfileReversed = .ok (q', o') ∧
      Nonempty (Renumbering q q') := by
  have total := agrees_start.total appLoader_locate appBlocks_placed appBlocks_contiguous
  obtain ⟨q, o, h, ho⟩ := total pairProfile
  obtain ⟨q', o', h', _⟩ := total pairProfileReversed
  refine ⟨q, o, q', o', h, h', outputs_equal_up_to_renumbering ?_ ?_ h h' ?_⟩
  · rw [Locate.blocks_eq appLoader_locate]
    exact appBlocks_contiguous
  · exact (List.reverse_perm pairThreads).symm
  · rw [(output_ok.mp h).2.1, List.length_map]
    exact (ho.fits named_appBlocks).le

section Wrap

def byteName (addr : UInt64) : String := String.ofList (List.replicate (addr.toNat + 1) 'x')

def byteObjects (addr : UInt64) : Option (String × UInt64) :=
  if addr < usizeMax then some (byteName addr, addr) else none

def byteLoader : Linux.Loader Unit Unit := .identified byteObjects [0xAB]

def byteInfo (addr : UInt64) : ModuleInfo := { name := byteName addr, buildId := "AB" }

def byteBlocks : Blocks UInt64 ModuleInfo := fun addr =>
  if addr < usizeMax then some (byteInfo addr, addr) else none

theorem fileName_byteName (addr : UInt64) :
    Linux.fileName (byteName addr) = some (byteName addr) := by
  have hsplit : (List.replicate (addr.toNat + 1) 'x').splitOn '/' =
      [List.replicate (addr.toNat + 1) 'x'] :=
    List.splitOn_eq_singleton fun h => absurd (List.eq_of_mem_replicate h) (by decide)
  have hdot : ∀ n c l, List.replicate (n + 1) 'x' = c :: l → c = 'x' := by
    intro n c l h
    rw [List.replicate_succ, List.cons.injEq] at h
    exact h.1.symm
  have h₁ : List.replicate (addr.toNat + 1) 'x' ≠ ['.'] := fun h =>
    absurd (hdot _ _ _ h) (by decide)
  have h₂ : List.replicate (addr.toNat + 1) 'x' ≠ ['.', '.'] := fun h =>
    absurd (hdot _ _ _ h) (by decide)
  simp [Linux.fileName, byteName, hsplit, h₁, h₂]

theorem byteInfo_injective : Function.Injective byteInfo := by
  intro a b h
  simp only [byteInfo, byteName, ModuleInfo.mk.injEq, String.ofList_inj, and_true] at h
  have hlen := congrArg List.length h
  simp only [List.length_replicate] at hlen
  exact UInt64.toNat_inj.mp (by omega)

theorem byteLoader_locate (addr : UInt64) : byteLoader.locate addr = .ok (byteBlocks addr) := by
  by_cases h : addr < usizeMax
  · rw [byteLoader, Linux.Loader.locate_identified (if_pos h) (fileName_byteName addr), byteBlocks,
      if_pos h]
    rfl
  · rw [byteLoader, Linux.Loader.locate_identified_none (if_neg h), byteBlocks, if_neg h]

theorem byteBlocks_some {addr base : UInt64} {info : ModuleInfo}
    (h : byteBlocks addr = some (info, base)) : base = addr ∧ addr < usizeMax := by
  rw [byteBlocks] at h
  split at h
  · rename_i ha
    simp only [Option.some.injEq, Prod.mk.injEq] at h
    exact ⟨h.2.symm, ha⟩
  · simp at h

theorem byteBlocks_placed : WellPlaced byteBlocks := by
  intro addr info base h
  obtain ⟨rfl, ha⟩ := byteBlocks_some h
  exact ⟨UInt64.le_refl _, ha⟩

theorem byteBlocks_contiguous : Contiguous byteBlocks := by
  intro a info base h c hc hca
  obtain ⟨rfl, _⟩ := byteBlocks_some h
  rw [UInt64.le_antisymm hca hc]

theorem uncached_byteBlocks {addr : UInt64} (h : addr < usizeMax) :
    uncached byteBlocks addr = some (byteInfo addr, 0) := by
  simp [uncached, byteBlocks, h]

def row (n : Nat) : List UInt64 := (List.range n).map fun k => UInt64.ofNat (k + 1)

theorem toNat_ofNat_of_lt {n : Nat} (h : n < 2 ^ 64) : (UInt64.ofNat n).toNat = n := by
  rw [UInt64.toNat_ofNat']
  exact Nat.mod_eq_of_lt h

theorem mem_row {n : Nat} (hn : n < 2 ^ 64 - 1) {addr : UInt64} :
    addr ∈ row n ↔ 0 < addr.toNat ∧ addr.toNat ≤ n := by
  simp only [row, List.mem_map, List.mem_range]
  constructor
  · rintro ⟨k, hk, rfl⟩
    rw [toNat_ofNat_of_lt (by omega)]
    omega
  · intro ⟨h, h'⟩
    refine ⟨addr.toNat - 1, by omega, UInt64.toNat_inj.mp ?_⟩
    rw [toNat_ofNat_of_lt (by omega)]
    omega

theorem nodup_row {n : Nat} (hn : n < 2 ^ 64 - 1) : (row n).Nodup := by
  refine List.Nodup.map_on ?_ List.nodup_range
  intro i hi j hj hij
  rw [List.mem_range] at hi hj
  have h := congrArg UInt64.toNat hij
  rw [toNat_ofNat_of_lt (by omega), toNat_ofNat_of_lt (by omega)] at h
  omega

theorem row_succ (n : Nat) : row (n + 1) = row n ++ [UInt64.ofNat (n + 1)] := by
  rw [row, List.range_succ, List.map_append]
  rfl

theorem length_row (n : Nat) : (row n).length = n := by simp [row]

theorem answersTo_byteBlocks {ips : List UInt64} (h : ∀ ip ∈ ips, ip < usizeMax) :
    answersTo byteBlocks (ips.map Types.Frame.mk) = ips.map fun ip => (byteInfo ip, 0) := by
  rw [answersTo, List.filterMap_map, ← List.filterMap_eq_map]
  exact List.filterMap_congr fun ip hip => uncached_byteBlocks (h ip hip)

theorem Recorded.modules_byteBlocks {ips : List UInt64} {o : Running}
    (h : ∀ ip ∈ ips, ip < usizeMax) (hd : ips.Nodup)
    (hr : Recorded (answersTo byteBlocks (ips.map Types.Frame.mk)) o) :
    o.modules = ips.map byteInfo := by
  rw [hr.modules, answersTo_byteBlocks h, List.map_map, internAll_of_nodup]
  · rfl
  · exact hd.map byteInfo_injective

/-- Thread 1 is sampled at zero, thread 2 at the next `n` addresses, and thread 3 at
the one after them. -/
def wrapThreads (n : Nat) : List ((_ : ThreadId) × List Types.Sample) :=
  [⟨⟨1⟩, [[⟨0⟩]]⟩, ⟨⟨2⟩, [(row n).map Types.Frame.mk]⟩, ⟨⟨3⟩, [[⟨UInt64.ofNat (n + 1)⟩]]⟩]

def wrapProfile (n : Nat) : InputProfile where
  threads := ⟨wrapThreads n, by simp [List.NodupKeys, List.keys, wrapThreads]⟩

def wrapProfileRotated (n : Nat) : InputProfile where
  threads := ⟨(wrapThreads n).rotate 1, by simp [List.NodupKeys, List.keys, wrapThreads]⟩

theorem captured_wrapProfile (n : Nat) :
    (wrapProfile n).captured = (0 :: row (n + 1)).map Types.Frame.mk := by
  simp [InputProfile.captured, wrapProfile, wrapThreads, row_succ]

theorem captured_wrapProfileRotated (n : Nat) :
    (wrapProfileRotated n).captured = (row (n + 1) ++ [0]).map Types.Frame.mk := by
  simp [InputProfile.captured, wrapProfileRotated, wrapThreads, row_succ]

theorem exists_single {S : Blocks UInt64 ModuleInfo} {o : Running}
    {entries : List ((_ : ThreadId) × List Types.Sample)} {threads : List Thread}
    (h : List.Forall₂ (ThreadOf (fun ip answer => answer = uncached S ip) o) entries threads)
    (id : ThreadId) (ip : UInt64) {answer : ModuleAndAddr} (hmem : ⟨id, [[⟨ip⟩]]⟩ ∈ entries)
    (ha : uncached S ip = some answer) :
    ∃ out i, ⟨id, [out]⟩ ∈ threads ∧ out.frames = [i] ∧
      o.frames[i]? = some (frameOf o.modules answer) := by
  have hflip : List.Forall₂ (flip _) threads entries := h.flip
  obtain ⟨⟨_, samples⟩, ht, rfl, hs⟩ := exists_of_mem_right hflip hmem
  cases hs with
  | cons hs hnil =>
    cases hnil
    obtain ⟨positions, hp, hf⟩ := hs
    cases hf with
    | cons hpos hnil =>
      cases hnil
      obtain ⟨_, rfl, hi⟩ := hpos
      rw [ha] at hi
      cases hi with
      | resolved _ hi => exact ⟨_, _, ht, hp, hi⟩

section Positions

variable {n : Nat} (hn : n + 1 < 2 ^ 64 - 1)

include hn

theorem zero_not_mem_row : (0 : UInt64) ∉ row (n + 1) := by
  rw [mem_row hn, UInt64.toNat_zero]
  omega

theorem last_not_mem_row : UInt64.ofNat (n + 1) ∉ row n := by
  rw [mem_row (by omega), toNat_ofNat_of_lt (by omega)]
  omega

theorem lt_usizeMax_of_mem {ip : UInt64} (h : ip ∈ row (n + 1)) : ip < usizeMax := by
  rw [mem_row hn] at h
  rw [UInt64.lt_iff_toNat_lt]
  have hmax : usizeMax.toNat = 2 ^ 64 - 1 := rfl
  omega

variable {o : Running}

theorem modules_wrapProfile (hr : Recorded (answersTo byteBlocks (wrapProfile n).captured) o) :
    o.modules = (0 :: row (n + 1)).map byteInfo := by
  rw [captured_wrapProfile] at hr
  refine hr.modules_byteBlocks ?_ (List.nodup_cons.mpr ⟨zero_not_mem_row hn, nodup_row hn⟩)
  intro ip hip
  cases List.mem_cons.mp hip with
  | inl h => exact h ▸ by decide
  | inr h => exact lt_usizeMax_of_mem hn h

theorem modules_wrapProfileRotated
    (hr : Recorded (answersTo byteBlocks (wrapProfileRotated n).captured) o) :
    o.modules = (row (n + 1) ++ [0]).map byteInfo := by
  rw [captured_wrapProfileRotated] at hr
  refine hr.modules_byteBlocks ?_ ?_
  · intro ip hip
    cases List.mem_append.mp hip with
    | inl h => exact lt_usizeMax_of_mem hn h
    | inr h => exact List.mem_singleton.mp h ▸ by decide
  · rw [← List.concat_eq_append]
    exact (nodup_row hn).concat (zero_not_mem_row hn)

theorem frameOf_wrapProfile (hr : Recorded (answersTo byteBlocks (wrapProfile n).captured) o)
    (hwrap : (n + 1).toUInt32 = 0) : frameOf o.modules (byteInfo 0, 0) =
      frameOf o.modules (byteInfo (UInt64.ofNat (n + 1)), 0) := by
  have hlast : byteInfo (UInt64.ofNat (n + 1)) ∉ (0 :: row n).map byteInfo := by
    rw [List.mem_map_of_injective byteInfo_injective, List.mem_cons]
    intro h
    cases h with
    | inl h => exact zero_not_mem_row hn (h ▸ row_succ n ▸ by simp)
    | inr h => exact last_not_mem_row hn h
  rw [frameOf, frameOf, modules_wrapProfile hn hr, row_succ, ← List.cons_append, List.map_append,
    List.idxOf_append_of_notMem hlast, List.map_cons, List.idxOf_append_of_mem List.mem_cons_self]
  simp [length_row, hwrap]

theorem frameOf_wrapProfileRotated
    (hr : Recorded (answersTo byteBlocks (wrapProfileRotated n).captured) o)
    (hwrap : (n + 1).toUInt32 = 0) (hne : n.toUInt32 ≠ 0) : frameOf o.modules (byteInfo 0, 0) ≠
      frameOf o.modules (byteInfo (UInt64.ofNat (n + 1)), 0) := by
  have hzero : byteInfo 0 ∉ (row (n + 1)).map byteInfo := by
    rw [List.mem_map_of_injective byteInfo_injective]
    exact zero_not_mem_row hn
  have hlast : byteInfo (UInt64.ofNat (n + 1)) ∉ (row n).map byteInfo := by
    rw [List.mem_map_of_injective byteInfo_injective]
    exact last_not_mem_row hn
  rw [frameOf, frameOf, modules_wrapProfileRotated hn hr, List.map_append,
    List.idxOf_append_of_notMem hzero, row_succ, List.map_append, List.append_assoc,
    List.idxOf_append_of_notMem hlast]
  simpa [length_row, hwrap] using hne.symm

theorem not_renumbering_of_wrap (hwrap : (n + 1).toUInt32 = 0) (hne : n.toUInt32 ≠ 0)
    {q q' : Profile} {o' : Running}
    (h : output (fun _ => byteLoader.locate) start (wrapProfile n) = .ok (q, o))
    (h' : output (fun _ => byteLoader.locate) start (wrapProfileRotated n) = .ok (q', o')) :
    ¬Nonempty (Renumbering q q') := by
  intro ⟨r⟩
  have hb := Locate.blocks_eq byteLoader_locate
  have hS := byteBlocks_contiguous
  have hlast : UInt64.ofNat (n + 1) < usizeMax :=
    lt_usizeMax_of_mem hn (row_succ n ▸ List.mem_append_right _ List.mem_cons_self)
  have hrun := (output_rule (fun ho hL hI => ho.lookup hb hS hL hI) agrees_start h).2.2
  have hrun' := (output_rule (fun ho hL hI => ho.lookup hb hS hL hI) agrees_start h').2.2
  obtain ⟨s₁, i, ht₁, hs₁, hi⟩ := exists_single hrun ⟨1⟩ 0
    (by simp [wrapProfile, wrapThreads]) (uncached_byteBlocks (by decide))
  obtain ⟨s₃, j, ht₃, hs₃, hj⟩ := exists_single hrun ⟨3⟩ (UInt64.ofNat (n + 1))
    (by simp [wrapProfile, wrapThreads]) (uncached_byteBlocks hlast)
  obtain ⟨s₁', i', ht₁', hs₁', hi'⟩ := exists_single hrun' ⟨1⟩ 0
    (by simp [wrapProfileRotated, wrapThreads]) (uncached_byteBlocks (by decide))
  obtain ⟨s₃', j', ht₃', hs₃', hj'⟩ := exists_single hrun' ⟨3⟩ (UInt64.ofNat (n + 1))
    (by simp [wrapProfileRotated, wrapThreads]) (uncached_byteBlocks hlast)
  have hr := recorded_fresh (hb ▸ hS) h
  have hr' := recorded_fresh (hb ▸ hS) h'
  rw [hb] at hr hr'
  have hij : i = j := getElem?_inj_of_nodup o.framesIndex.vec_nodup hi
    (frameOf_wrapProfile hn hr hwrap ▸ hj)
  have hs := r.samples _ ht₁ _ ht₁' rfl
  have hs' := r.samples _ ht₃ _ ht₃' rfl
  simp only [List.forall₂_cons, hs₁, hs₁', hs₃, hs₃', List.Forall₂.nil, and_true] at hs hs'
  obtain ⟨_, hs⟩ := hs
  obtain ⟨_, hs'⟩ := hs'
  subst hij
  rw [← hs] at hi'
  rw [← hs', hi', Option.some.injEq] at hj'
  exact frameOf_wrapProfileRotated hn hr' hwrap hne hj'

end Positions

/-- Without the bound a profile of more modules than a `u32` counts depends on the
order of its threads. -/
theorem not_equal_up_to_renumbering : ¬∀ {File Elf : Type} (loader : Linux.Loader File Elf),
    Contiguous loader.locate.blocks → ∀ p p' : InputProfile,
    p.threads.entries.Perm p'.threads.entries → ∀ q q' o o',
    output (fun _ => loader.locate) start p = .ok (q, o) →
    output (fun _ => loader.locate) start p' = .ok (q', o') → Nonempty (Renumbering q q') := by
  intro hclaim
  have total := agrees_start.total byteLoader_locate byteBlocks_placed byteBlocks_contiguous
  obtain ⟨q, o, h, _⟩ := total (wrapProfile 0xFFFFFFFF)
  obtain ⟨q', o', h', _⟩ := total (wrapProfileRotated 0xFFFFFFFF)
  refine not_renumbering_of_wrap (by decide) (by decide) (by decide) h h' ?_
  refine hclaim byteLoader ?_ _ _ ?_ q q' o o' h h'
  · rw [Locate.blocks_eq byteLoader_locate]
    exact byteBlocks_contiguous
  · exact (List.rotate_perm _ 1).symm

end Wrap

end Outputter

end Vignette
