import Mathlib.Data.List.Basic

/-! Paths as text: components put below a root, with a slash between two of them. -/

namespace Vignette.Library

def slashed (path : List Char) : List Char :=
  if path = [] ∨ path.getLast? = some '/' then path else path ++ ['/']

structure Normal (component : List Char) : Prop where
  nonempty : component ≠ []
  noSlash : '/' ∉ component
  notSelf : component ≠ ['.']
  notParent : component ≠ ['.', '.']

def below (root : List Char) (components : List (List Char)) : List Char :=
  slashed root ++ ['/'].intercalate components

def Under (root path : List Char) : Prop :=
  ∃ components, components ≠ [] ∧ (∀ c ∈ components, Normal c) ∧ path = below root components

theorem slashed_append {path component : List Char} (h : component ≠ []) (hslash : '/' ∉ component) :
    slashed (path ++ component) = path ++ component ++ ['/'] := by
  refine if_neg fun hor => ?_
  rcases hor with hnil | hlast
  · exact h (List.append_eq_nil_iff.mp hnil).2
  · rw [List.getLast?_append_of_ne_nil _ h] at hlast
    exact hslash (List.mem_of_getLast? hlast)

theorem slashed_slashed (path : List Char) : slashed (slashed path) = slashed path := by
  by_cases h : path = [] ∨ path.getLast? = some '/'
  · rw [slashed, slashed, if_pos h, if_pos h]
  · rw [slashed, slashed, if_neg h]
    exact if_pos (.inr (by simp))

theorem slashed_concat (path : List Char) : slashed (path ++ ['/']) = path ++ ['/'] :=
  if_pos (.inr (by simp))

theorem length_slashed_le (path : List Char) : (slashed path).length ≤ path.length + 1 := by
  rw [slashed]
  split <;> simp

theorem below_injective {root : List Char} {components components' : List (List Char)}
    (h : ∀ c ∈ components, Normal c) (h' : ∀ c ∈ components', Normal c) (hne : components ≠ [])
    (hne' : components' ≠ []) (heq : below root components = below root components') :
    components = components' := by
  have hrest := List.append_cancel_left heq
  rw [← List.splitOn_intercalate '/' (fun c hc => (h c hc).noSlash) hne, hrest,
    List.splitOn_intercalate '/' (fun c hc => (h' c hc).noSlash) hne']

end Vignette.Library
