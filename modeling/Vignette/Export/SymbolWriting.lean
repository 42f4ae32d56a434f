import Vignette.Export.SymbolAddress

/-! What `generate_symbols` leaves in a symbol file when it ends successfully. -/

namespace Vignette.GenerateSymbols

open Library Resolve

/-- A write stores a prefix of its buffer, which is not empty unless the buffer is. -/
structure Os.Lawful (os : Os) : Prop where
  stored : ∀ k buf count, os.write k buf = .stored count →
    count ≤ buf.length ∧ (buf ≠ [] → 0 < count)

variable {os : Os} {binary symbolRoot dir path : String} {stdout : List UInt8}

theorem ne_nil_of_symPaths (h : symPaths stdout symbolRoot = .ok (dir, path)) : stdout ≠ [] := by
  rintro rfl
  simp [symPaths, header, takeLines, index, Bind.bind, Except.bind, Pure.pure, Except.pure] at h

theorem main_ok_iff (hdump : os.dumpSyms binary = some ⟨true, stdout⟩)
    (hpaths : symPaths stdout symbolRoot = .ok (dir, path)) {file : File} :
    main os binary symbolRoot = .ok file ↔ os.createDirAll dir = some () ∧
      os.openTruncated path = some () ∧ file = (File.write os ⟨path, [], 0⟩ stdout).2 := by
  cases hcreate : os.createDirAll dir <;> cases hopen : os.openTruncated path <;>
    simp [main, hdump, hpaths, hcreate, hopen, check, Bind.bind, Except.bind, Pure.pure,
      Except.pure, eq_comm]

theorem contents_write_iff (path : String) (hos : os.Lawful) (hstdout : stdout ≠ []) :
    (File.write os ⟨path, [], 0⟩ stdout).2.contents = stdout ↔
      os.write 0 stdout = .stored stdout.length := by
  cases hanswer : os.write 0 stdout with
  | stored count =>
    have hcount := (hos.stored 0 stdout count hanswer).1
    simp only [File.write, hanswer, List.nil_append, WriteAnswer.stored.injEq]
    rw [List.take_eq_self_iff]
    omega
  | interrupted => simp [File.write, hanswer, Ne.symm hstdout]
  | failed => simp [File.write, hanswer, Ne.symm hstdout]

/-- Success means a whole file exactly when the file is not opened at all or the one
write stores the whole output. -/
theorem written_whole_iff (hos : os.Lawful) (hdump : os.dumpSyms binary = some ⟨true, stdout⟩)
    (hpaths : symPaths stdout symbolRoot = .ok (dir, path)) :
    (∀ file, main os binary symbolRoot = .ok file → file.contents = stdout) ↔
      os.createDirAll dir = none ∨ os.openTruncated path = none ∨
        os.write 0 stdout = .stored stdout.length := by
  have hwhole := contents_write_iff path hos (ne_nil_of_symPaths hpaths)
  simp only [main_ok_iff hdump hpaths, ← hwhole]
  cases hcreate : os.createDirAll dir <;> cases hopen : os.openTruncated path <;> simp

def tenBytes (stdout : List UInt8) : Os where
  dumpSyms _ := some ⟨true, stdout⟩
  createDirAll _ := some ()
  openTruncated _ := some ()
  write _ buf := .stored (min 10 buf.length)

theorem tenBytes_lawful (stdout : List UInt8) : (tenBytes stdout).Lawful where
  stored := by
    intro k buf count h
    obtain rfl : min 10 buf.length = count := by simpa [tenBytes] using h
    refine ⟨Nat.min_le_right _ _, fun hne => ?_⟩
    have := List.length_pos_iff.mpr hne
    omega

def appSymbols : List UInt8 := linuxHeader.printed ⟨"app", "01AB"⟩

theorem symPaths_appSymbols : ∃ dir path, symPaths appSymbols "symbols" = .ok (dir, path) := by
  obtain ⟨dir, hpaths⟩ := symPaths_printed linuxHeader_plain reported_app "symbols"
  exact ⟨dir, _, hpaths⟩

/-- A short write leaves a truncated file behind a successful run. -/
theorem short_write_truncates :
    (tenBytes appSymbols).Lawful ∧ ∃ file, main (tenBytes appSymbols) "app" "symbols" = .ok file ∧
      file.contents = appSymbols.take 10 ∧ file.contents ≠ appSymbols := by
  obtain ⟨dir, path, hpaths⟩ := symPaths_appSymbols
  have hcut : appSymbols.take (min 10 appSymbols.length) = appSymbols.take 10 := by decide
  have hne : appSymbols.take 10 ≠ appSymbols := by decide
  exact ⟨tenBytes_lawful _, _, (main_ok_iff rfl hpaths).mpr ⟨rfl, rfl, rfl⟩, hcut,
    fun hwhole => hne (hcut.symm.trans hwhole)⟩

theorem tenBytes_written_whole_iff : ∃ dir path, symPaths appSymbols "symbols" = .ok (dir, path) ∧
    ((∀ file, main (tenBytes appSymbols) "app" "symbols" = .ok file → file.contents = appSymbols) ↔
      (tenBytes appSymbols).createDirAll dir = none ∨ (tenBytes appSymbols).openTruncated path = none ∨
        (tenBytes appSymbols).write 0 appSymbols = .stored appSymbols.length) := by
  obtain ⟨dir, path, hpaths⟩ := symPaths_appSymbols
  exact ⟨dir, path, hpaths, written_whole_iff (tenBytes_lawful _) rfl hpaths⟩

end Vignette.GenerateSymbols
