import Vignette.Export.GenerateSymbols
import Vignette.Library.Path
import Vignette.ModuleCache.Failures

/-! The path that `generate_symbols` writes a module's symbols to, beside the path that
`resolve` reads them from. -/

namespace Vignette.GenerateSymbols

open Library Output Resolve

/-- What else stands in the header that `dump_syms` prints, and what it prints after it. -/
structure Header where
  os : String
  arch : String
  debugId : String
  rest : List UInt8

namespace Header

structure Plain (h : Header) : Prop where
  os : ' ' ∉ h.os.toList ∧ '\n' ∉ h.os.toList
  arch : ' ' ∉ h.arch.toList ∧ '\n' ∉ h.arch.toList
  debugId : ' ' ∉ h.debugId.toList ∧ '\n' ∉ h.debugId.toList

def moduleLine (h : Header) (name : String) : String :=
  "MODULE" ++ " " ++ (h.os ++ " " ++ (h.arch ++ " " ++ (h.debugId ++ " " ++ name)))

def infoLine (buildId : String) : String := "INFO" ++ " " ++ ("CODE_ID" ++ " " ++ buildId)

def printed (h : Header) (module : Module) : List UInt8 :=
  utf8 (h.moduleLine module.name) ++ 10 :: (utf8 (infoLine module.buildId) ++ 10 :: h.rest)

end Header

def UpperHex (s : String) : Prop :=
  ∀ c ∈ s.toList, '0' ≤ c ∧ c ≤ '9' ∨ 'A' ≤ c ∧ c ≤ 'F'

/-- A module that the module cache can report. -/
structure Reported (module : Module) : Prop where
  name : Normal module.name.toList
  noNewline : '\n' ∉ module.name.toList
  buildId : UpperHex module.buildId

theorem normal_fileName {path name : String} (h : Linux.fileName path = some name) :
    Normal name.toList := by
  rw [Linux.fileName] at h
  split at h
  · simp at h
  · rename_i c hlast
    split at h
    · simp at h
    · rename_i hparent
      obtain rfl := Option.some.inj h
      obtain ⟨hmem, hc⟩ := List.mem_filter.mp (List.mem_of_getLast? hlast)
      have hc := of_decide_eq_true hc
      rw [String.toList_ofList]
      exact ⟨hc.1, not_mem_of_mem_splitOn hmem, hc.2, hparent⟩

theorem upperHex_hexDigit {n : UInt8} (h : n.toNat < 16) :
    '0' ≤ Linux.hexDigit n ∧ Linux.hexDigit n ≤ '9' ∨
      'A' ≤ Linux.hexDigit n ∧ Linux.hexDigit n ≤ 'F' := by
  have hdigits : ∀ k < 16, '0' ≤ (Nat.digitChar k).toUpper ∧ (Nat.digitChar k).toUpper ≤ '9' ∨
      'A' ≤ (Nat.digitChar k).toUpper ∧ (Nat.digitChar k).toUpper ≤ 'F' := by decide
  exact hdigits n.toNat h

theorem upperHex_encodeUpper (bytes : Linux.Bytes) : UpperHex (Linux.encodeUpper bytes) := by
  intro c hc
  rw [Linux.encodeUpper, String.toList_ofList] at hc
  obtain ⟨b, _, hc⟩ := List.mem_flatMap.mp hc
  have hb := b.toNat_lt
  simp only [List.mem_cons, List.not_mem_nil, or_false] at hc
  rcases hc with rfl | rfl
  · refine upperHex_hexDigit ?_
    rw [UInt8.toNat_div]
    exact Nat.div_lt_of_lt_mul hb
  · refine upperHex_hexDigit ?_
    rw [UInt8.toNat_mod]
    exact Nat.mod_lt _ (by decide)

theorem upperHex_firstBuildId {notes : List (Option Linux.Note)} {id : String}
    (h : Linux.firstBuildId notes = some id) : UpperHex id := by
  induction notes with
  | nil => simp [Linux.firstBuildId] at h
  | cons noteR notes ih =>
    cases noteR with
    | none => simp [Linux.firstBuildId] at h
    | some note =>
      rw [Linux.firstBuildId] at h
      split at h
      · exact Option.some.inj h ▸ upperHex_encodeUpper note.desc
      · exact ih h

/-- What the loader names is such a module, but for newlines in file names. -/
theorem reported_of_locate {FileT Elf : Type} {loader : Linux.Loader FileT Elf} {addr base : UInt64}
    {info : ModuleInfo} (h : loader.locate addr = .ok (some (info, base)))
    (hnewline : '\n' ∉ info.name.toList) : Reported (.ofModuleInfo info) := by
  obtain ⟨_, _, _, _, _, hid, hname, _⟩ := Linux.Loader.locate_some_iff.mp h
  exact ⟨normal_fileName hname, hnewline, upperHex_firstBuildId hid⟩

def parsedName (name : String) : String := firstPiece (withoutCr name)

def SurvivesHeader (name : String) : Prop :=
  ' ' ∉ name.toList ∧ name.toList.getLast? ≠ some '\r'

theorem UpperHex.not_mem {s : String} (h : UpperHex s) {c : Char}
    (hc : ¬('0' ≤ c ∧ c ≤ '9' ∨ 'A' ≤ c ∧ c ≤ 'F')) : c ∉ s.toList := fun hmem => hc (h c hmem)

theorem prefix_parsedName (name : String) : (parsedName name).toList <+: name.toList :=
  (prefix_firstPiece _).trans (prefix_withoutCr name)

theorem parsedName_eq_iff {name : String} : parsedName name = name ↔ SurvivesHeader name := by
  constructor
  · intro h
    have hcr : withoutCr name = name := by
      refine String.toList_injective ((prefix_withoutCr name).eq_of_length_le ?_)
      calc name.toList.length = (parsedName name).toList.length := by rw [h]
        _ ≤ (withoutCr name).toList.length := (prefix_firstPiece _).length_le
    rw [parsedName, hcr] at h
    exact ⟨firstPiece_eq_iff.mp h, withoutCr_eq_iff.mp hcr⟩
  · intro ⟨hspace, hcr⟩
    rw [parsedName, withoutCr_eq_iff.mpr hcr, firstPiece_eq_iff.mpr hspace]

theorem length_parsedName_lt {name : String} (h : ¬SurvivesHeader name) :
    (parsedName name).toList.length < name.toList.length := by
  refine Nat.lt_of_le_of_ne (prefix_parsedName name).length_le fun heq => h ?_
  refine parsedName_eq_iff.mp (String.toList_injective ?_)
  exact (prefix_parsedName name).eq_of_length heq

theorem newline_not_mem_utf8 {s : String} (h : '\n' ∉ s.toList) : 10 ∉ utf8 s :=
  fun hmem => h (mem_of_mem_utf8 (d := '\n') (by decide) hmem)

theorem newline_not_mem_moduleLine {h : Header} (hplain : h.Plain) {name : String}
    (hname : '\n' ∉ name.toList) : '\n' ∉ (h.moduleLine name).toList := by
  simp [Header.moduleLine, hplain.os.2, hplain.arch.2, hplain.debugId.2, hname]

theorem not_mem_infoLine {buildId : String} (h : UpperHex buildId) {c : Char}
    (hc : ¬('0' ≤ c ∧ c ≤ '9' ∨ 'A' ≤ c ∧ c ≤ 'F')) (hwords : c ∉ "INFO CODE_ID ".toList) :
    c ∉ (Header.infoLine buildId).toList := by
  have hline : (Header.infoLine buildId).toList = "INFO CODE_ID ".toList ++ buildId.toList := by
    simp [Header.infoLine]
  rw [hline, List.mem_append]
  exact fun hor => hor.elim hwords (h.not_mem hc)

theorem header_printed {h : Header} (hplain : h.Plain) {module : Module}
    (hmodule : Reported module) : header (h.printed module) =
      .ok [withoutCr (h.moduleLine module.name), Header.infoLine module.buildId] := by
  have hmoduleLine := newline_not_mem_utf8 (newline_not_mem_moduleLine hplain hmodule.noNewline)
  have hinfoLine := newline_not_mem_utf8
    (not_mem_infoLine hmodule.buildId (c := '\n') (by decide) (by decide))
  have hcr : withoutCr (Header.infoLine module.buildId) = Header.infoLine module.buildId :=
    withoutCr_eq_iff.mpr fun hlast =>
      not_mem_infoLine hmodule.buildId (by decide) (by decide) (List.mem_of_getLast? hlast)
  rw [header, Header.printed, takeLines_cons hmoduleLine, takeLines_cons hinfoLine, stripCr_utf8,
    stripCr_utf8, hcr]
  simp [takeLines, decode_utf8, Bind.bind, Except.bind, Pure.pure, Except.pure]

theorem withoutCr_word {word line : String} (h : line ≠ "") :
    withoutCr (word ++ " " ++ line) = word ++ " " ++ withoutCr line := withoutCr_append h

theorem withoutCr_moduleLine (h : Header) {name : String} (hname : name ≠ "") :
    withoutCr (h.moduleLine name) = h.moduleLine (withoutCr name) := by
  have hne {s t : String} : s ++ " " ++ t ≠ "" := fun heq => by
    have := congrArg String.toList heq
    simp at this
  rw [Header.moduleLine, withoutCr_word hne, withoutCr_word hne, withoutCr_word hne,
    withoutCr_word hname]
  rfl

theorem pieces_moduleLine {h : Header} (hplain : h.Plain) (name : String) :
    (pieces (h.moduleLine name))[4]? = some (firstPiece name) := by
  rw [Header.moduleLine, pieces_cons (by decide), pieces_cons hplain.os.1, pieces_cons hplain.arch.1,
    pieces_cons hplain.debugId.1]
  exact pieces_head name

theorem pieces_infoLine {buildId : String} (h : UpperHex buildId) :
    (pieces (Header.infoLine buildId))[2]? = some buildId := by
  rw [Header.infoLine, pieces_cons (by decide), pieces_cons (by decide)]
  exact (pieces_head buildId).trans
    (congrArg some (firstPiece_eq_iff.mpr (h.not_mem (by decide))))

theorem symPaths_printed {h : Header} (hplain : h.Plain) {module : Module}
    (hmodule : Reported module) (symbolRoot : String) :
    ∃ dir, symPaths (h.printed module) symbolRoot =
      .ok (dir, symPath symbolRoot ⟨parsedName module.name, module.buildId⟩) := by
  have hname : module.name ≠ "" := fun heq => hmodule.name.nonempty (by rw [heq]; rfl)
  have hmoduleLine : (h.moduleLine (withoutCr module.name)).startsWith "MODULE" = true := by
    rw [String.startsWith_string_iff, Header.moduleLine]
    simp
  have hinfoLine : (Header.infoLine module.buildId).startsWith "INFO CODE_ID" = true := by
    rw [String.startsWith_string_iff, Header.infoLine]
    simp
  refine ⟨pushPath (pushPath symbolRoot (parsedName module.name)) module.buildId, ?_⟩
  rw [symPaths, header_printed hplain hmodule, withoutCr_moduleLine h hname]
  simp [index, Bind.bind, Except.bind, Pure.pure, Except.pure, check_ok hmoduleLine,
    check_ok hinfoLine, pieces_moduleLine hplain, pieces_infoLine hmodule.buildId, parsedName, symPath,
    -String.startsWith_string_iff]

theorem symPath_unique {stdout : List UInt8} {symbolRoot dir dir' path path' : String}
    (h : symPaths stdout symbolRoot = .ok (dir, path))
    (h' : symPaths stdout symbolRoot = .ok (dir', path')) : path = path' := by
  have heq := h.symm.trans h'
  simp only [Except.ok.injEq, Prod.mk.injEq] at heq
  exact heq.2

theorem needs_no_slash_iff {path : String} : (path.isEmpty || path.endsWith "/") = true ↔
    path.toList = [] ∨ path.toList.getLast? = some '/' := by
  have hends : path.endsWith "/" = true ↔ ['/'] <:+ path.toList := by
    simp [← String.endsWith_toSlice]
  rw [Bool.or_eq_true, String.isEmpty_iff, String.toList_eq_nil_iff, hends,
    List.getLast?_eq_some_iff]
  exact or_congr_right (exists_congr fun _ => eq_comm)

theorem pushPath_toList {component : String} (h : '/' ∉ component.toList) (path : String) :
    (pushPath path component).toList = slashed path.toList ++ component.toList := by
  have hrelative : component.startsWith "/" ≠ true := by
    rw [Ne, String.startsWith_string_iff]
    rintro ⟨rest, hrest⟩
    exact h (hrest ▸ by simp)
  rw [pushPath, if_neg hrelative, slashed]
  by_cases hslash : path.toList = [] ∨ path.toList.getLast? = some '/'
  · rw [if_pos (needs_no_slash_iff.mpr hslash), if_pos hslash, String.toList_append]
  · rw [if_neg (fun hor => hslash (needs_no_slash_iff.mp hor)), if_neg hslash]
    simp

theorem sym_not_slash {name : String} (h : '/' ∉ name.toList) : '/' ∉ (name ++ ".sym").toList := by
  simp [h]

def components (module : Module) : List (List Char) :=
  if module.buildId.toList = [] then [module.name.toList, (module.name ++ ".sym").toList]
  else [module.name.toList, module.buildId.toList, (module.name ++ ".sym").toList]

theorem symPath_toList (module : Module) (hname : '/' ∉ module.name.toList)
    (hbuildId : '/' ∉ module.buildId.toList) (symbolRoot : String) :
    (symPath symbolRoot module).toList =
      slashed (slashed (slashed symbolRoot.toList ++ module.name.toList) ++ module.buildId.toList) ++
        (module.name ++ ".sym").toList := by
  rw [symPath, pushPath_toList (sym_not_slash hname), pushPath_toList hbuildId, pushPath_toList hname]

theorem Reported.symPath_eq {module : Module} (h : Reported module) (symbolRoot : String) :
    (symPath symbolRoot module).toList = below symbolRoot.toList (components module) := by
  have hbuildId : '/' ∉ module.buildId.toList := h.buildId.not_mem (by decide)
  rw [symPath_toList module h.name.noSlash hbuildId,
    slashed_append h.name.nonempty h.name.noSlash, below,
    components]
  by_cases hempty : module.buildId.toList = []
  · rw [if_pos hempty, hempty, List.append_nil, slashed_concat]
    simp [List.intercalate]
  · rw [if_neg hempty, slashed_append hempty hbuildId]
    simp [List.intercalate]

theorem Reported.normal {module : Module} (h : Reported module) :
    ∀ c ∈ components module, Normal c := by
  have hsym : Normal (module.name ++ ".sym").toList := by
    have hlen : (module.name ++ ".sym").toList.length = module.name.toList.length + 4 := by simp
    refine ⟨fun heq => ?_, sym_not_slash h.name.noSlash, fun heq => ?_, fun heq => ?_⟩ <;>
      simp only [heq, List.length_nil, List.length_cons] at hlen <;> omega
  have hbuildId (hne : module.buildId.toList ≠ []) : Normal module.buildId.toList := by
    have hdot : '.' ∉ module.buildId.toList := h.buildId.not_mem (by decide)
    refine ⟨hne, h.buildId.not_mem (by decide), fun heq => ?_, fun heq => ?_⟩ <;>
      simp [heq] at hdot
  rw [components]
  split
  · simp only [List.forall_mem_cons]
    exact ⟨h.name, hsym, by simp⟩
  · rename_i hne
    simp only [List.forall_mem_cons]
    exact ⟨h.name, hbuildId hne, hsym, by simp⟩

theorem components_ne_nil (module : Module) : components module ≠ [] := by
  rw [components]
  split <;> simp

theorem components_injective {module module' : Module}
    (h : components module = components module') : module = module' := by
  have hparts : module.name.toList = module'.name.toList ∧
      module.buildId.toList = module'.buildId.toList := by
    rw [components, components] at h
    by_cases hempty : module.buildId.toList = [] <;>
      by_cases hempty' : module'.buildId.toList = [] <;>
        simp_all
  cases module
  cases module'
  simpa [String.toList_inj] using hparts

theorem length_symPath_lt {module : Module} (h : Reported module) {name : String}
    (hname : name.toList <+: module.name.toList)
    (hlt : name.toList.length < module.name.toList.length) (symbolRoot : String) :
    (symPath symbolRoot ⟨name, module.buildId⟩).toList.length <
      (symPath symbolRoot module).toList.length := by
  have hbuildId : '/' ∉ module.buildId.toList := h.buildId.not_mem (by decide)
  have hslash : '/' ∉ name.toList := fun hmem => h.name.noSlash (hname.subset hmem)
  have hle := length_slashed_le (slashed symbolRoot.toList ++ name.toList)
  rw [symPath_toList ⟨name, module.buildId⟩ hslash hbuildId,
    symPath_toList module h.name.noSlash hbuildId, slashed_append h.name.nonempty h.name.noSlash]
  by_cases hempty : module.buildId.toList = []
  · rw [hempty, List.append_nil, List.append_nil, slashed_slashed, slashed_concat]
    simp only [List.length_append, String.toList_append, List.length_cons] at hle ⊢
    omega
  · rw [slashed_append hempty hbuildId, slashed_append hempty hbuildId]
    simp only [List.length_append, String.toList_append, List.length_cons] at hle ⊢
    omega

/-- The symbols of some modules are written where they are looked for: below the root,
and those of different modules at different paths. -/
structure AddressesAgree (printed : Module → List UInt8) (symbolRoot : String)
    (modules : Set Module) : Prop where
  found : ∀ module ∈ modules, ∃ dir, symPaths (printed module) symbolRoot =
    .ok (dir, symPath symbolRoot module)
  under : ∀ module ∈ modules, ∀ dir path, symPaths (printed module) symbolRoot = .ok (dir, path) →
    Under symbolRoot.toList path.toList
  distinct : ∀ module ∈ modules, ∀ module' ∈ modules, ∀ dir dir' path,
    symPaths (printed module) symbolRoot = .ok (dir, path) →
    symPaths (printed module') symbolRoot = .ok (dir', path) → module = module'

theorem found_iff {h : Header} (hplain : h.Plain) {module : Module} (hmodule : Reported module)
    (symbolRoot : String) :
    (∃ dir, symPaths (h.printed module) symbolRoot = .ok (dir, symPath symbolRoot module)) ↔
      SurvivesHeader module.name := by
  obtain ⟨dir, hpaths⟩ := symPaths_printed hplain hmodule symbolRoot
  constructor
  · intro ⟨dir', hfound⟩
    by_contra hcut
    have hlt := length_symPath_lt hmodule (prefix_parsedName _) (length_parsedName_lt hcut) symbolRoot
    rw [symPath_unique hpaths hfound] at hlt
    exact Nat.lt_irrefl _ hlt
  · intro hname
    rw [parsedName_eq_iff.mpr hname] at hpaths
    exact ⟨dir, hpaths⟩

/-- The two programs agree on the symbol files of modules exactly when every module's
name survives the header. -/
theorem addresses_agree_iff (headers : Module → Header) {modules : Set Module}
    (hplain : ∀ module ∈ modules, (headers module).Plain)
    (hmodules : ∀ module ∈ modules, Reported module) (symbolRoot : String) :
    AddressesAgree (fun module => (headers module).printed module) symbolRoot modules ↔
      ∀ module ∈ modules, SurvivesHeader module.name := by
  constructor
  · intro h module hmem
    exact (found_iff (hplain module hmem) (hmodules module hmem) symbolRoot).mp (h.found module hmem)
  · intro h
    have hfound : ∀ module ∈ modules, ∃ dir, symPaths ((headers module).printed module) symbolRoot =
        .ok (dir, symPath symbolRoot module) := fun module hmem =>
      (found_iff (hplain module hmem) (hmodules module hmem) symbolRoot).mpr (h module hmem)
    have hpath : ∀ module ∈ modules, ∀ dir path,
        symPaths ((headers module).printed module) symbolRoot = .ok (dir, path) →
        path.toList = below symbolRoot.toList (components module) := by
      intro module hmem dir path hpaths
      obtain ⟨dir', hfound⟩ := hfound module hmem
      rw [symPath_unique hpaths hfound]
      exact (hmodules module hmem).symPath_eq symbolRoot
    refine ⟨hfound, fun module hmem dir path hpaths => ?_, ?_⟩
    · exact ⟨components module, components_ne_nil module, (hmodules module hmem).normal,
        hpath module hmem dir path hpaths⟩
    · intro module hmem module' hmem' dir dir' path hpaths hpaths'
      have heq := (hpath module hmem dir path hpaths).symm.trans (hpath module' hmem' dir' path hpaths')
      exact components_injective (below_injective (hmodules module hmem).normal
        (hmodules module' hmem').normal (components_ne_nil module) (components_ne_nil module') heq)

def linuxHeader : Header where
  os := "Linux"
  arch := "x86_64"
  debugId := "1428AABFDBD2A52E08B6D967319FB6FE0"
  rest := []

theorem linuxHeader_plain : linuxHeader.Plain := ⟨by decide, by decide, by decide⟩

theorem reported_app : Reported ⟨"app", "01AB"⟩ where
  name := ⟨by decide, by decide, by decide, by decide⟩
  noNewline := by decide
  buildId := by simp [UpperHex]

theorem reported_spaced : Reported ⟨"my lib", "01AB"⟩ where
  name := ⟨by decide, by decide, by decide, by decide⟩
  noNewline := by decide
  buildId := reported_app.buildId

theorem reported_cut : Reported ⟨"my", "01AB"⟩ where
  name := ⟨by decide, by decide, by decide, by decide⟩
  noNewline := by decide
  buildId := reported_app.buildId

/-- The symbols of a library with a space in its name are not found. -/
theorem spaced_name_misfiled :
    (∃ dir, symPaths (linuxHeader.printed ⟨"my lib", "01AB"⟩) "symbols" =
      .ok (dir, "symbols/my/01AB/my.sym")) ∧
    symPath "symbols" ⟨"my lib", "01AB"⟩ = "symbols/my lib/01AB/my lib.sym" ∧
    ¬AddressesAgree linuxHeader.printed "symbols" {⟨"my lib", "01AB"⟩} := by
  obtain ⟨dir, hpaths⟩ := symPaths_printed linuxHeader_plain reported_spaced "symbols"
  have hname : parsedName "my lib" = "my" := by decide
  have hcut : symPath "symbols" ⟨"my", "01AB"⟩ = "symbols/my/01AB/my.sym" :=
    String.toList_injective ((reported_cut.symPath_eq "symbols").trans (by decide))
  have hfull : symPath "symbols" ⟨"my lib", "01AB"⟩ = "symbols/my lib/01AB/my lib.sym" :=
    String.toList_injective ((reported_spaced.symPath_eq "symbols").trans (by decide))
  rw [hname, hcut] at hpaths
  refine ⟨⟨dir, hpaths⟩, hfull, fun h => ?_⟩
  obtain ⟨dir', hfound⟩ := h.found _ rfl
  have hsame := (symPath_unique hpaths hfound).trans hfull
  exact absurd hsame (by decide)

theorem app_addresses_agree_iff :
    AddressesAgree linuxHeader.printed "symbols" {⟨"app", "01AB"⟩} ↔
      ∀ module ∈ ({⟨"app", "01AB"⟩} : Set Module), SurvivesHeader module.name := by
  refine addresses_agree_iff (fun _ => linuxHeader) (fun _ _ => linuxHeader_plain) ?_ "symbols"
  intro module hmem
  rw [Set.mem_singleton_iff.mp hmem]
  exact reported_app

end Vignette.GenerateSymbols
