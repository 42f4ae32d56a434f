import Mathlib.Algebra.Ring.Nat
import Vignette.Export.Resolve

/-! The program `speedscope`, between its reading and its writing of JSON. -/

namespace Vignette.Speedscope

open Library Output

structure Frame where
  name : String
  file : Option String
  line : Option UInt32
  col : Option UInt32
  deriving DecidableEq

inductive ProfileType
  | evented
  | sampled
  deriving DecidableEq

inductive ValueUnit
  | bytes
  | microseconds
  | milliseconds
  | nanoseconds
  | none
  | seconds
  deriving DecidableEq

/-- The `f64` fields hold whole numbers. -/
structure Profile where
  profileType : ProfileType
  name : String
  unit : ValueUnit
  startValue : Nat
  endValue : Nat
  samples : List (List Nat)
  weights : List Nat
  deriving DecidableEq

structure Shared where
  frames : List Frame
  deriving DecidableEq

structure SpeedscopeFile where
  schema : String
  profiles : List Profile
  shared : Shared
  activeProfileIndex : Option Nat
  exporter : Option String
  name : Option String
  deriving DecidableEq

def profileName : Option ThreadId → String
  | none => "vignette profile"
  | some pid => "vignette profile Thread(" ++ toString pid.tid ++ ")"

/-- One turn of the iteration in `SpeedscopeFile::new`. -/
def Profile.new (endValue : Nat) (entry : (_ : Option ThreadId) × List (List Nat)) : Profile where
  profileType := .sampled
  name := profileName entry.1
  unit := .none
  startValue := 0
  endValue := endValue
  samples := entry.2
  weights := entry.2.map fun _ => 1

variable (iteration : Iteration (Option ThreadId) (List (List Nat)))

def SpeedscopeFile.new (samples : AList fun _ : Option ThreadId => List (List Nat))
    (frames : List Frame) : SpeedscopeFile where
  schema := "https://www.speedscope.app/file-format-schema.json"
  activeProfileIndex := none
  name := some "vignette profile"
  exporter := some "vignette@0.1.0"
  profiles := (iteration.entries samples).map (Profile.new samples.entries.length)
  shared := { frames }

variable {iteration}

structure Profile.WeighsItsSamples (profile : Profile) : Prop where
  length : profile.weights.length = profile.samples.length
  extent : (profile.endValue : Int) - profile.startValue = profile.weights.sum
  total : profile.weights.sum = profile.samples.length

theorem sum_weights (endValue : Nat) (entry : (_ : Option ThreadId) × List (List Nat)) :
    (Profile.new endValue entry).weights.sum = entry.2.length := by
  simp [Profile.new]

theorem Profile.new_weighs_iff {endValue : Nat} {entry : (_ : Option ThreadId) × List (List Nat)} :
    (Profile.new endValue entry).WeighsItsSamples ↔ endValue = entry.2.length := by
  have hsum := sum_weights endValue entry
  constructor
  · intro h
    have hextent := h.extent
    rw [hsum] at hextent
    simp only [Profile.new] at hextent
    omega
  · intro hend
    refine ⟨by simp [Profile.new], ?_, hsum⟩
    rw [hsum]
    simp [Profile.new, hend]

/-- The end of each profile is the number of threads, which is the number of its samples
only where every thread has as many samples as there are threads. -/
theorem weights_consistent_iff (iteration : Iteration (Option ThreadId) (List (List Nat)))
    (samples : AList fun _ : Option ThreadId => List (List Nat)) (frames : List Frame) :
    (∀ profile ∈ (SpeedscopeFile.new iteration samples frames).profiles,
      profile.WeighsItsSamples) ↔
      ∀ entry ∈ samples.entries, entry.2.length = samples.entries.length := by
  simp only [SpeedscopeFile.new, List.forall_mem_map, Profile.new_weighs_iff]
  constructor
  · intro h entry hentry
    exact (h entry ((iteration.perm samples).mem_iff.mpr hentry)).symm
  · intro h entry hentry
    exact (h entry ((iteration.perm samples).mem_iff.mp hentry)).symm

/-- Two samples of one thread end at 1. -/
theorem two_samples_one_thread :
    let samples := collect [⟨some ⟨7⟩, [[0], [0]]⟩]
    let file := SpeedscopeFile.new ⟨AList.entries, fun _ => .refl _⟩ samples []
    file.profiles.map (fun profile => (profile.startValue, profile.endValue, profile.weights)) =
        [(0, 1, [1, 1])] ∧
      ¬∀ profile ∈ file.profiles, profile.WeighsItsSamples := by
  refine ⟨rfl, fun h => ?_⟩
  have hprofile := h _ List.mem_cons_self
  exact absurd hprofile.extent (by decide)

end Vignette.Speedscope
