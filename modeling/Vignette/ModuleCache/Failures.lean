import Vignette.ModuleCache.Transparency

/-! When an object without a build id is passed over, and when it brings the lookup
down. -/

namespace Vignette

open Library ModuleCache

theorem getOrInsertVia_none_iff {locate : Locate} {cache : ModuleCache} {addr : UInt64}
    (h : cache.findExisting addr = none) :
    cache.getOrInsertVia locate addr = .ok (none, cache) ↔ locate addr = .ok none := by
  constructor
  · intro hok
    cases getOrInsertVia_ok_iff.mp hok with
    | unknown _ hl => exact hl
  · exact getOrInsertVia_unknown h

namespace Linux

variable {File Elf : Type}

def firstBuildId : List (Option Note) → Option String
  | [] => none
  | none :: _ => none
  | some note :: notes =>
    if note.name = "GNU" ∧ note.nType = NT_GNU_BUILD_ID then some (encodeUpper note.desc)
    else firstBuildId notes

theorem findBuildId_some_iff {notes : List (Option Note)} {id : String} :
    findBuildId notes = .ok (some id) ↔ firstBuildId notes = some id := by
  induction notes with
  | nil => simp [findBuildId, firstBuildId]
  | cons noteR notes ih =>
    cases noteR with
    | none => simp [findBuildId, firstBuildId, Bind.bind, Except.bind]
    | some note =>
      by_cases hn : note.name = "GNU" <;> by_cases ht : note.nType = NT_GNU_BUILD_ID <;>
        simp [findBuildId, firstBuildId, Bind.bind, Except.bind, Pure.pure, Except.pure, hn, ht, ih]

theorem findBuildId_none_iff {notes : List (Option Note)} :
    findBuildId notes = .ok none ↔ firstBuildId notes = none ∧ none ∉ notes := by
  induction notes with
  | nil => simp [findBuildId, firstBuildId]
  | cons noteR notes ih =>
    cases noteR with
    | none => simp [findBuildId, firstBuildId, Bind.bind, Except.bind]
    | some note =>
      by_cases hn : note.name = "GNU" <;> by_cases ht : note.nType = NT_GNU_BUILD_ID <;>
        simp [findBuildId, firstBuildId, Bind.bind, Except.bind, Pure.pure, Except.pure, hn, ht, ih]

namespace Loader

variable (loader : Loader File Elf)

def Reads (modInfo : DlInfo) (path : String) (notes : List (Option Note)) : Prop :=
  String.fromUTF8? modInfo.dliFname = some path ∧ ∃ file, loader.openFile path = some file ∧
    ∃ mapped, loader.mmap file = some mapped ∧ ∃ elf, loader.parse mapped = some elf ∧
      loader.iterNoteHeaders elf mapped = some notes

def buildId (addr : UInt64) : Option String := do
  let modInfo ← loader.dladdr addr
  let path ← String.fromUTF8? modInfo.dliFname
  let file ← loader.openFile path
  let mapped ← loader.mmap file
  let elf ← loader.parse mapped
  let notes ← loader.iterNoteHeaders elf mapped
  firstBuildId notes

/-- There is no object at the address, or one whose notes can all be read. -/
def Readable (addr : UInt64) : Prop :=
  ∀ modInfo, loader.dladdr addr = some modInfo →
    ∃ path notes, loader.Reads modInfo path notes ∧ none ∉ notes

variable {loader}

theorem Reads.buildId {addr : UInt64} {modInfo : DlInfo} {path : String}
    {notes : List (Option Note)} (hd : loader.dladdr addr = some modInfo)
    (h : loader.Reads modInfo path notes) : loader.buildId addr = firstBuildId notes := by
  obtain ⟨hpath, file, hfile, mapped, hmapped, elf, helf, hnotes⟩ := h
  simp [Loader.buildId, hd, hpath, hfile, hmapped, helf, hnotes]

theorem locate_some {addr : UInt64} {modInfo : DlInfo} (h : loader.dladdr addr = some modInfo)
    {answer : Option (ModuleInfo × UInt64)} :
    loader.locate addr = .ok answer ↔ ∃ path notes, loader.Reads modInfo path notes ∧
      ∃ id, findBuildId notes = .ok id ∧ match id with
        | none => none = answer
        | some buildId => ∃ name, fileName path = some name ∧
            some ({ name, buildId }, modInfo.dliFbase) = answer := by
  constructor
  · intro hok
    simp only [Loader.locate, h, bind_ok, expect_ok, unwrap_ok] at hok
    obtain ⟨path, hpath, file, hfile, mapped, hmapped, elf, helf, notes, hnotes, id, hid, hr⟩ := hok
    refine ⟨path, notes, ⟨hpath, file, hfile, mapped, hmapped, elf, helf, hnotes⟩, id, hid, ?_⟩
    cases id with
    | none => simpa [Pure.pure, Except.pure] using hr
    | some buildId => simpa [bind_ok, expect_ok, Pure.pure, Except.pure] using hr
  · rintro ⟨path, notes, ⟨hpath, file, hfile, mapped, hmapped, elf, helf, hnotes⟩, id, hid, hr⟩
    simp only [Loader.locate, h, bind_ok, expect_ok, unwrap_ok]
    refine ⟨path, hpath, file, hfile, mapped, hmapped, elf, helf, notes, hnotes, id, hid, ?_⟩
    cases id with
    | none => simpa [Pure.pure, Except.pure] using hr
    | some buildId => simpa [bind_ok, expect_ok, Pure.pure, Except.pure] using hr

theorem locate_none_iff {addr : UInt64} :
    loader.locate addr = .ok none ↔ loader.buildId addr = none ∧ loader.Readable addr := by
  cases hd : loader.dladdr addr with
  | none => simp [Loader.locate, Loader.buildId, Readable, hd, Pure.pure, Except.pure]
  | some modInfo =>
    rw [locate_some hd]
    constructor
    · rintro ⟨path, notes, hr, id, hid, hanswer⟩
      cases id with
      | none =>
        have hnotes := findBuildId_none_iff.mp hid
        refine ⟨(hr.buildId hd).trans hnotes.1, fun modInfo' hd' => ⟨path, notes, ?_, hnotes.2⟩⟩
        rwa [Option.some.inj (hd'.symm.trans hd)]
      | some buildId =>
        obtain ⟨_, _, h⟩ := hanswer
        simp at h
    · rintro ⟨hb, hreadable⟩
      obtain ⟨path, notes, hr, hnone⟩ := hreadable modInfo hd
      rw [hr.buildId hd] at hb
      exact ⟨path, notes, hr, none, findBuildId_none_iff.mpr ⟨hb, hnone⟩, rfl⟩

theorem locate_some_iff {addr base : UInt64} {info : ModuleInfo} :
    loader.locate addr = .ok (some (info, base)) ↔ ∃ modInfo path notes,
      loader.dladdr addr = some modInfo ∧ loader.Reads modInfo path notes ∧
        firstBuildId notes = some info.buildId ∧ fileName path = some info.name ∧
        modInfo.dliFbase = base := by
  cases hd : loader.dladdr addr with
  | none => simp [Loader.locate, hd, Pure.pure, Except.pure]
  | some modInfo =>
    rw [locate_some hd]
    constructor
    · rintro ⟨path, notes, hr, id, hid, hanswer⟩
      cases id with
      | none => simp at hanswer
      | some buildId =>
        obtain ⟨name, hn, h⟩ := hanswer
        simp only [Option.some.injEq, Prod.mk.injEq] at h
        obtain ⟨rfl, rfl⟩ := h
        exact ⟨modInfo, path, notes, rfl, hr, findBuildId_some_iff.mp hid, hn, rfl⟩
    · rintro ⟨_, path, notes, hd', hr, hid, hn, rfl⟩
      obtain rfl := Option.some.inj hd'
      exact ⟨path, notes, hr, _, findBuildId_some_iff.mpr hid, info.name, hn, rfl⟩

theorem buildId_some_iff {addr : UInt64} {id : String} :
    loader.buildId addr = some id ↔ ∃ modInfo path notes, loader.dladdr addr = some modInfo ∧
      loader.Reads modInfo path notes ∧ firstBuildId notes = some id := by
  constructor
  · intro h
    simp only [Loader.buildId, Bind.bind, Option.bind_eq_some_iff] at h
    obtain ⟨modInfo, hd, path, hpath, file, hfile, mapped, hmapped, elf, helf, notes, hnotes, hid⟩ := h
    exact ⟨modInfo, path, notes, hd, ⟨hpath, file, hfile, mapped, hmapped, elf, helf, hnotes⟩, hid⟩
  · intro ⟨modInfo, path, notes, hd, hr, hid⟩
    rw [hr.buildId hd, hid]

/-- What `dladdr` and the file system promise: an address lies in the object found for
it, and what can be opened, mapped and parsed is a file with a name. -/
structure Lawful (loader : Loader File Elf) : Prop where
  placed : ∀ addr modInfo, loader.dladdr addr = some modInfo →
    modInfo.dliFbase ≤ addr ∧ addr < usizeMax
  named : ∀ path file mapped elf, loader.openFile path = some file →
    loader.mmap file = some mapped → loader.parse mapped = some elf → ∃ name, fileName path = some name

theorem Lawful.wellPlaced (h : loader.Lawful) : WellPlaced loader.locate.blocks := by
  intro addr info base hS
  obtain ⟨modInfo, _, _, hd, _, _, _, rfl⟩ := locate_some_iff.mp (Locate.blocks_eq_some.mp hS)
  exact h.placed addr modInfo hd

theorem Lawful.locate_ok_iff (h : loader.Lawful) {addr : UInt64} :
    (∃ answer, loader.locate addr = .ok answer) ↔
      (loader.buildId addr = none → loader.Readable addr) := by
  constructor
  · intro ⟨answer, hl⟩ hb
    cases answer with
    | none => exact (locate_none_iff.mp hl).2
    | some answer =>
      obtain ⟨modInfo, path, notes, hd, hr, hid, _⟩ := locate_some_iff.mp hl
      rw [buildId_some_iff.mpr ⟨modInfo, path, notes, hd, hr, hid⟩] at hb
      simp at hb
  · intro hreadable
    cases hb : loader.buildId addr with
    | none => exact ⟨none, locate_none_iff.mpr ⟨hb, hreadable hb⟩⟩
    | some id =>
      obtain ⟨modInfo, path, notes, hd, hr, hid⟩ := buildId_some_iff.mp hb
      have ⟨_, file, hfile, mapped, hmapped, elf, helf, _⟩ := hr
      obtain ⟨name, hn⟩ := h.named path file mapped elf hfile hmapped helf
      exact ⟨some ({ name, buildId := id }, modInfo.dliFbase),
        locate_some_iff.mpr ⟨modInfo, path, notes, hd, hr, hid, hn, rfl⟩⟩

end Loader

theorem getOrInsert_none_iff_readable {loader : Loader File Elf} {cache : ModuleCache}
    {addr : UInt64} (h : cache.findExisting addr = none) (hb : loader.buildId addr = none) :
    getOrInsert loader cache addr = .ok (none, cache) ↔ loader.Readable addr := by
  rw [getOrInsert, getOrInsertVia_none_iff h, Loader.locate_none_iff]
  simp [hb]

end Linux

namespace ModuleCache

theorem Lookup.located {locate : Locate} {cache cache' : ModuleCache} {addr : UInt64}
    {r : Option ModuleAndAddr} (h : Lookup locate cache addr r cache')
    (hc : cache.Justified locate.blocks) (hS : Contiguous locate.blocks) :
    ∃ answer, locate addr = .ok answer := by
  cases h with
  | hit h => exact ⟨_, Locate.blocks_eq_some.mp (hc.answer hS h)⟩
  | unknown _ hl => exact ⟨_, hl⟩
  | extend _ hl => exact ⟨_, hl⟩
  | append _ hl => exact ⟨_, hl⟩

end ModuleCache

namespace Mac

variable {File : Type}

namespace Loader

variable (loader : Loader File)

def Reads (modInfo : Linux.DlInfo) (path : String) (macho : MachO) : Prop :=
  String.fromUTF8? modInfo.dliFname = some path ∧ ∃ file, loader.openFile path = some file ∧
    ∃ mapped, loader.mmap file = some mapped ∧ ∃ parsed, loader.parse mapped = some parsed ∧
      selectMachO parsed = some (some macho)

def buildId (addr : UInt64) : Option String := do
  let modInfo ← loader.dladdr addr
  let path ← String.fromUTF8? modInfo.dliFname
  let file ← loader.openFile path
  let mapped ← loader.mmap file
  let parsed ← loader.parse mapped
  let macho ← ← selectMachO parsed
  findUuid macho.loadCommands

def Readable (addr : UInt64) : Prop :=
  ∀ modInfo, loader.dladdr addr = some modInfo → ∃ path macho, loader.Reads modInfo path macho

variable {loader}

theorem Reads.buildId {addr : UInt64} {modInfo : Linux.DlInfo} {path : String} {macho : MachO}
    (hd : loader.dladdr addr = some modInfo) (h : loader.Reads modInfo path macho) :
    loader.buildId addr = findUuid macho.loadCommands := by
  obtain ⟨hpath, file, hfile, mapped, hmapped, parsed, hparsed, hselected⟩ := h
  simp [Loader.buildId, hd, hpath, hfile, hmapped, hparsed, hselected]

theorem locate_none_iff {addr : UInt64} :
    loader.locate addr = .ok none ↔ loader.buildId addr = none ∧ loader.Readable addr := by
  cases hd : loader.dladdr addr with
  | none => simp [Loader.locate, Loader.buildId, Readable, hd, Pure.pure, Except.pure]
  | some modInfo =>
    constructor
    · intro hok
      simp only [Loader.locate, hd, bind_ok, expect_ok] at hok
      obtain ⟨path, hpath, file, hfile, mapped, hmapped, parsed, hparsed, _, hs, macho, rfl, h⟩ := hok
      have hr : loader.Reads modInfo path macho :=
        ⟨hpath, file, hfile, mapped, hmapped, parsed, hparsed, hs⟩
      refine ⟨(hr.buildId hd).trans ?_, fun modInfo' hd' => ⟨path, macho, ?_⟩⟩
      · cases hu : findUuid macho.loadCommands with
        | none => rfl
        | some buildId => simp [hu, bind_ok, Pure.pure, Except.pure] at h
      · rwa [Option.some.inj (hd'.symm.trans hd)]
    · rintro ⟨hb, hreadable⟩
      obtain ⟨path, macho, hr⟩ := hreadable modInfo hd
      rw [hr.buildId hd] at hb
      obtain ⟨hpath, file, hfile, mapped, hmapped, parsed, hparsed, hs⟩ := hr
      simp only [Loader.locate, hd, bind_ok, expect_ok]
      refine ⟨path, hpath, file, hfile, mapped, hmapped, parsed, hparsed, _, hs, macho, rfl, ?_⟩
      rw [hb]
      rfl

end Loader

theorem getOrInsert_none_iff_readable {loader : Loader File} {cache : ModuleCache}
    {addr : UInt64} (h : cache.findExisting addr = none) (hb : loader.buildId addr = none) :
    getOrInsert loader cache addr = .ok (none, cache) ↔ loader.Readable addr := by
  rw [getOrInsert, getOrInsertVia_none_iff h, Loader.locate_none_iff]
  simp [hb]

end Mac

end Vignette
