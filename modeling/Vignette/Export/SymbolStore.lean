import Vignette.Export.Plain
import Vignette.Export.SymbolWriting

/-! The symbol files that runs of `generate_symbols` leave behind, one run after the other,
and what `resolve` makes of them. -/

namespace Vignette.GenerateSymbols

open Library Output Resolve
open Function (update)

abbrev Disk := String → Option (List UInt8)

def Disk.store (disk : Disk) : SymbolStore := fun path => (disk path).map some

/-- A run of the program on the binary of a module that `ModuleCache` can report, whose name
has no space in it and does not end in a carriage return; where `dump_syms` succeeds, what it
prints begins with that module's header.  All else about the run is left open. -/
structure Run where
  os : Os
  binary : String
  module : Module
  header : Header
  plain : header.Plain
  reported : Reported module
  survives : SurvivesHeader module.name
  dumped : ∀ stdout, os.dumpSyms binary = some ⟨true, stdout⟩ → stdout = header.printed module

namespace Run

variable (symbolRoot : String) (run : Run)

/-- The disk after the run.  A run that panics has not opened its file. -/
def leaves (disk : Disk) : Disk :=
  match main run.os run.binary symbolRoot with
  | .error _ => disk
  | .ok file => update disk file.path (some file.contents)

def ends : Bool := (main run.os run.binary symbolRoot).isOk

def stored : List UInt8 :=
  (File.write run.os ⟨"", [], 0⟩ (run.header.printed run.module)).2.contents

end Run

def leave (symbolRoot : String) (disk : Disk) (runs : List Run) : Disk :=
  runs.foldl (fun disk run => run.leaves symbolRoot disk) disk

variable {symbolRoot : String}

theorem Run.file_of_main {run : Run} {file : File} (h : main run.os run.binary symbolRoot = .ok file) :
    file.path = symPath symbolRoot run.module ∧ file.contents = run.stored := by
  obtain ⟨dir, hpaths⟩ := (found_iff run.plain run.reported symbolRoot).mpr run.survives
  cases hdump : run.os.dumpSyms run.binary with
  | none => simp [main, hdump, Bind.bind, Except.bind] at h
  | some out =>
    obtain ⟨success, stdout⟩ := out
    cases success with
    | false => simp [main, hdump, check, Bind.bind, Except.bind] at h
    | true =>
      rw [run.dumped stdout hdump] at hdump
      obtain ⟨_, _, rfl⟩ := (main_ok_iff hdump hpaths).mp h
      exact ⟨rfl, rfl⟩

theorem Run.leaves_eq (run : Run) (disk : Disk) : run.leaves symbolRoot disk =
    if run.ends symbolRoot then update disk (symPath symbolRoot run.module) (some run.stored)
    else disk := by
  rw [Run.leaves, Run.ends]
  cases h : main run.os run.binary symbolRoot with
  | error => rfl
  | ok file =>
    obtain ⟨hpath, hcontents⟩ := run.file_of_main h
    rw [← hpath, ← hcontents]
    rfl

def ended (symbolRoot : String) (runs : List Run) : List Run := runs.filter (Run.ends symbolRoot)

theorem leave_eq (disk : Disk) (runs : List Run) : leave symbolRoot disk runs =
    (ended symbolRoot runs).foldl
      (fun disk run => update disk (symPath symbolRoot run.module) (some run.stored)) disk := by
  rw [ended, List.foldl_filter, leave]
  simp only [Run.leaves_eq]

theorem symPath_injective {module module' : Module} (h : Reported module) (h' : Reported module')
    (heq : symPath symbolRoot module = symPath symbolRoot module') : module = module' := by
  have hbelow := congrArg String.toList heq
  rw [h.symPath_eq, h'.symPath_eq] at hbelow
  exact components_injective (below_injective h.normal h'.normal (components_ne_nil module)
    (components_ne_nil module') hbelow)

theorem leave_of_lastOf {runs : List Run} {run : Run}
    (h : LastOf Run.module (ended symbolRoot runs) run) (disk : Disk) :
    leave symbolRoot disk runs (symPath symbolRoot run.module) = some run.stored := by
  have hpaths : LastOf (fun run : Run => symPath symbolRoot run.module) (ended symbolRoot runs) run := by
    obtain ⟨before, after, hruns, hlast⟩ := h
    exact ⟨before, after, hruns, fun other hother heq =>
      hlast other hother (symPath_injective other.reported run.reported heq)⟩
  rw [leave_eq]
  exact foldl_update_of_lastOf hpaths disk

theorem leave_of_ne {runs : List Run} {module : Module} (hmodule : Reported module)
    (h : ∀ run ∈ ended symbolRoot runs, run.module ≠ module) (disk : Disk) :
    leave symbolRoot disk runs (symPath symbolRoot module) = disk (symPath symbolRoot module) := by
  rw [leave_eq]
  exact foldl_update_of_ne
    (fun run hrun heq => h run hrun (symPath_injective run.reported hmodule heq)) disk

section Resolving

variable {FatObject Object SymCache : Type} (symbolic : Symbolic FatObject Object SymCache)
  (symbolRoot : String) (disk : Disk)

/-- The symbols that a module has after the runs: those of its last run, or those that
were there before. -/
inductive Left (runs : List Run) (module : Module) : Option SymCache → Prop
  | before {symcache} : (∀ run ∈ ended symbolRoot runs, run.module ≠ module) →
      SymbolFile symbolic disk.store (symPath symbolRoot module) symcache →
      Left runs module symcache
  | last {run symcache} : LastOf Run.module (ended symbolRoot runs) run → run.module = module →
      createCache symbolic (some run.stored) = .ok symcache → Left runs module (some symcache)

def ResolvedFrom (runs : List Run) (modules : List Module) (frame : Output.Frame)
    (out : ResolvedFrame) : Prop :=
  ∃ module symcache, modules[frame.moduleIndex.toNat]? = some module ∧
    Left symbolic symbolRoot disk runs module symcache ∧
    out = ResolvedFrame.ofResult (firstResult symbolic symcache frame.relativeIp)

variable {symbolic symbolRoot disk}

theorem plainCache_congr {store store' : SymbolStore} {module : Module}
    (h : store (symPath symbolRoot module) = store' (symPath symbolRoot module)) :
    plainCache symbolic store symbolRoot module = plainCache symbolic store' symbolRoot module := by
  rw [plainCache, plainCache, h]

theorem plainCache_some {store : SymbolStore} {module : Module} {contents : List UInt8}
    (h : store (symPath symbolRoot module) = some (some contents)) {symcache : Option SymCache} :
    plainCache symbolic store symbolRoot module = .ok symcache ↔
      ∃ made, createCache symbolic (some contents) = .ok made ∧ some made = symcache := by
  rw [plainCache]
  simp only [h, bind_ok, Pure.pure, Except.pure, Except.ok.injEq]

theorem symbolFile_iff_left {runs : List Run} {module : Module} (hmodule : Reported module)
    {symcache : Option SymCache} :
    SymbolFile symbolic (leave symbolRoot disk runs).store (symPath symbolRoot module) symcache ↔
      Left symbolic symbolRoot disk runs module symcache := by
  have hlast {run : Run} (h : LastOf Run.module (ended symbolRoot runs) run) :
      (leave symbolRoot disk runs).store (symPath symbolRoot run.module) = some (some run.stored) := by
    rw [Disk.store, leave_of_lastOf h, Option.map_some]
  have hbefore (h : ∀ run ∈ ended symbolRoot runs, run.module ≠ module) :
      (leave symbolRoot disk runs).store (symPath symbolRoot module) =
        disk.store (symPath symbolRoot module) := by
    rw [Disk.store, leave_of_ne hmodule h, Disk.store]
  rw [← plainCache_ok_iff]
  constructor
  · intro h
    by_cases hrun : ∃ run ∈ ended symbolRoot runs, run.module = module
    · obtain ⟨run, hmade, rfl⟩ := exists_lastOf hrun
      obtain ⟨made, hcreate, rfl⟩ := (plainCache_some (hlast hmade)).mp h
      exact .last hmade rfl hcreate
    · simp only [not_exists, not_and] at hrun
      rw [plainCache_congr (hbefore hrun), plainCache_ok_iff] at h
      exact .before hrun h
  · intro h
    cases h with
    | before hrun h =>
      rw [plainCache_congr (hbefore hrun), plainCache_ok_iff]
      exact h
    | last hrun hmodule hcreate =>
      subst hmodule
      exact (plainCache_some (hlast hrun)).mpr ⟨_, hcreate, rfl⟩

/-- After any runs of `generate_symbols`, in any order and with any failures and short
writes, a profile is resolved exactly by what the last run of each frame's own module has
stored, or by what was there before it. -/
theorem resolve_from_runs (disk : Disk) (runs : List Run) {p : Output.Profile}
    (hmodules : ∀ module ∈ p.modules, Reported module) {resolved : ResolvedProfile} :
    resolve symbolic (leave symbolRoot disk runs).store symbolRoot p = .ok resolved ↔
      resolved.modules = p.modules ∧ resolved.threads = p.threads ∧
        List.Forall₂ (ResolvedFrom symbolic symbolRoot disk runs p.modules) p.frames
          resolved.frames := by
  have hframe : ResolvesTo symbolic (leave symbolRoot disk runs).store symbolRoot p.modules =
      ResolvedFrom symbolic symbolRoot disk runs p.modules := by
    funext frame out
    refine propext (exists_congr fun module => exists_congr fun symcache => ?_)
    refine and_congr_right fun hmodule => and_congr_left' ?_
    exact symbolFile_iff_left (hmodules module (List.mem_of_getElem? hmodule))
  rw [resolve_ok_iff, hframe]

end Resolving

def appRun (write : Nat → List UInt8 → WriteAnswer) : Run where
  os := { tenBytes appSymbols with write }
  binary := "app"
  module := ⟨"app", "01AB"⟩
  header := linuxHeader
  plain := linuxHeader_plain
  reported := reported_app
  survives := ⟨by decide, by decide⟩
  dumped := by simp [tenBytes, appSymbols, eq_comm]

def cutRun : Run := appRun (tenBytes appSymbols).write

def wholeRun : Run := appRun fun _ buf => .stored buf.length

theorem ends_appRun (write : Nat → List UInt8 → WriteAnswer) : (appRun write).ends "symbols" = true := by
  obtain ⟨dir, path, hpaths⟩ := symPaths_appSymbols
  have hdump : (appRun write).os.dumpSyms (appRun write).binary = some ⟨true, appSymbols⟩ := rfl
  exact congrArg Except.isOk ((main_ok_iff hdump hpaths).mpr ⟨rfl, rfl, rfl⟩)

theorem stored_wholeRun : wholeRun.stored = appSymbols := List.take_length

def wholeOnly : Symbolic Unit Unit Unit :=
  { Speedscope.oneFunction with parse := fun contents => if contents = appSymbols then some () else none }

def oneFrame : Output.Profile where
  modules := [⟨"app", "01AB"⟩]
  threads := [⟨⟨1⟩, [⟨[0]⟩]⟩]
  frames := [⟨0, 0x10⟩]

theorem repeated_run_resolves : ∃ resolved,
    resolve wholeOnly (leave "symbols" (fun _ => none) [cutRun, wholeRun]).store "symbols" oneFrame =
      .ok resolved ∧ resolved.frames = [⟨"main", "main.c", 3⟩] := by
  have hended : ended "symbols" [cutRun, wholeRun] = [cutRun] ++ wholeRun :: [] :=
    List.filter_eq_self.mpr (by simp [cutRun, wholeRun, ends_appRun])
  have hcreate : createCache wholeOnly (some wholeRun.stored) = .ok () := by
    rw [stored_wholeRun]
    rfl
  refine ⟨⟨oneFrame.modules, oneFrame.threads, [⟨"main", "main.c", 3⟩]⟩, ?_, rfl⟩
  refine (resolve_from_runs (fun _ => none) [cutRun, wholeRun] (p := oneFrame) ?_).mpr
    ⟨rfl, rfl, .cons ?_ .nil⟩
  · simpa [oneFrame] using reported_app
  · exact ⟨_, some (), rfl, .last ⟨[cutRun], [], hended, by simp⟩ rfl hcreate, rfl⟩

end Vignette.GenerateSymbols
