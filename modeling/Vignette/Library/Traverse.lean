import Mathlib.Data.List.Forall2

/-! Loops over a list whose body threads a state and may fail, with the rules
that carry a fact about one turn of the body to the whole loop. -/

universe u w x

namespace Vignette.Library

variable {σ : Type u} {α : Type w} {β : Type w} {ε : Type x}

theorem bind_ok {γ : Type w} {x : Except ε α} {k : α → Except ε γ} {c : γ} :
    x >>= k = .ok c ↔ ∃ a, x = .ok a ∧ k a = .ok c := by
  cases x with
  | error e => simp [Bind.bind, Except.bind]
  | ok a => simp [Bind.bind, Except.bind]

def traverse (f : σ → α → Except ε (β × σ)) : σ → List α → Except ε (List β × σ)
  | s, [] => .ok ([], s)
  | s, a :: as =>
    match f s a with
    | .error e => .error e
    | .ok (b, s) =>
      match traverse f s as with
      | .error e => .error e
      | .ok (bs, s) => .ok (b :: bs, s)

variable {f : σ → α → Except ε (β × σ)}

@[simp] theorem traverse_nil (s : σ) : traverse f s [] = .ok ([], s) := rfl

theorem traverse_cons_ok {s t : σ} {a : α} {as : List α} {cs : List β} :
    traverse f s (a :: as) = .ok (cs, t) ↔
      ∃ b s' bs, f s a = .ok (b, s') ∧ traverse f s' as = .ok (bs, t) ∧ cs = b :: bs := by
  constructor
  · intro h
    simp only [traverse] at h
    cases hf : f s a with
    | error e => simp [hf] at h
    | ok p =>
      cases hr : traverse f p.2 as with
      | error e => simp [hf, hr] at h
      | ok q =>
        simp only [hf, hr, Except.ok.injEq, Prod.mk.injEq] at h
        exact ⟨p.1, p.2, q.1, rfl, by rw [hr, ← h.2], h.1.symm⟩
  · intro ⟨b, s', bs, hf, hr, hc⟩
    simp [traverse, hf, hr, hc]

/-- The rule every other one is read off: `I` speaks of the items taken so far, their
results and the state, and one more turn keeps it. -/
theorem traverse_induction {I : List α → List β → σ → Prop} {as : List α}
    (step : ∀ {l m s a b s'}, a ∈ as → I l m s → f s a = .ok (b, s') →
      I (l ++ [a]) (m ++ [b]) s')
    {l : List α} {m bs : List β} {s t : σ} (hs : I l m s)
    (h : traverse f s as = .ok (bs, t)) : I (l ++ as) (m ++ bs) t := by
  induction as generalizing l m bs s with
  | nil =>
    simp only [traverse_nil, Except.ok.injEq, Prod.mk.injEq] at h
    rw [← h.1, ← h.2, List.append_nil, List.append_nil]
    exact hs
  | cons a as ih =>
    obtain ⟨b, s₁, bs₁, hf, hr, hc⟩ := traverse_cons_ok.mp h
    rw [hc, List.append_cons, List.append_cons m]
    exact ih (fun ha => step (List.mem_cons_of_mem _ ha)) (step List.mem_cons_self hs hf) hr

theorem traverse_results {I : List β → σ → Prop} {as : List α}
    (step : ∀ {bs₀ s a b s'}, I bs₀ s → f s a = .ok (b, s') → I (bs₀ ++ [b]) s')
    {bs : List β} {s t : σ} (hs : I [] s) (h : traverse f s as = .ok (bs, t)) : I bs t :=
  traverse_induction (I := fun _ => I) (l := []) (fun _ hi hf => step hi hf) hs h

/-- Loops over a growing state: `I` is kept by every turn, `G` relates the states
before and after it, and what a turn says about its own result (`R`) stays true as the
state grows. -/
theorem traverse_rule {I : σ → Prop} {G : σ → σ → Prop} {R : σ → α → β → Prop}
    (refl : ∀ s, G s s) (trans : ∀ {s t u}, G s t → G t u → G s u)
    (mono : ∀ {s t a b}, G s t → R s a b → R t a b) {as : List α}
    (step : ∀ {s a b s'}, a ∈ as → I s → f s a = .ok (b, s') → I s' ∧ G s s' ∧ R s' a b)
    {s t : σ} {bs : List β} (hs : I s) (h : traverse f s as = .ok (bs, t)) :
    I t ∧ G s t ∧ List.Forall₂ (R t) as bs :=
  traverse_induction (I := fun as bs t => I t ∧ G s t ∧ List.Forall₂ (R t) as bs) (l := [])
    (fun ha hi hf => by
      have hstep := step ha hi.1 hf
      refine ⟨hstep.1, trans hi.2.1 hstep.2.1, List.rel_append ?_ (.cons hstep.2.2 .nil)⟩
      exact hi.2.2.imp fun _ _ => mono hstep.2.1) ⟨hs, refl s, .nil⟩ h

theorem traverse_forall₂ {I : σ → Prop} {R : α → β → Prop} {as : List α}
    (step : ∀ {s a}, a ∈ as → I s → ∃ b s', f s a = .ok (b, s') ∧ R a b ∧ I s') {s : σ}
    (hs : I s) : ∃ bs t, traverse f s as = .ok (bs, t) ∧ List.Forall₂ R as bs ∧ I t := by
  induction as generalizing s with
  | nil => exact ⟨[], s, rfl, .nil, hs⟩
  | cons a as ih =>
    obtain ⟨b, s₁, hf, hR, h₁⟩ := step List.mem_cons_self hs
    obtain ⟨bs, t, hr, hRs, ht⟩ := ih (fun ha => step (List.mem_cons_of_mem a ha)) h₁
    exact ⟨b :: bs, t, traverse_cons_ok.mpr ⟨b, s₁, bs, hf, hr, rfl⟩, .cons hR hRs, ht⟩

theorem traverse_total {I : σ → Prop} {as : List α}
    (step : ∀ {s a}, a ∈ as → I s → ∃ b s', f s a = .ok (b, s') ∧ I s') {s : σ} (hs : I s) :
    ∃ bs t, traverse f s as = .ok (bs, t) ∧ I t := by
  have h : ∃ bs t, traverse f s as = .ok (bs, t) ∧ List.Forall₂ (fun _ _ => True) as bs ∧ I t :=
    traverse_forall₂ (fun ha hi => by simpa using step ha hi) hs
  obtain ⟨bs, t, hr, _, ht⟩ := h
  exact ⟨bs, t, hr, ht⟩

theorem traverse_map {I : σ → Prop} {g : α → β} {as : List α}
    (step : ∀ {s a}, a ∈ as → I s → ∃ s', f s a = .ok (g a, s') ∧ I s') {s : σ} (hs : I s) :
    ∃ t, traverse f s as = .ok (as.map g, t) ∧ I t := by
  have h : ∃ bs t, traverse f s as = .ok (bs, t) ∧ List.Forall₂ (fun a b => g a = b) as bs ∧ I t :=
    traverse_forall₂ (fun ha hi => by
      obtain ⟨s', hf, hs'⟩ := step ha hi
      exact ⟨_, s', hf, rfl, hs'⟩) hs
  obtain ⟨bs, t, hr, hg, ht⟩ := h
  rw [← List.forall₂_map_left_iff, List.forall₂_eq_eq_eq] at hg
  exact ⟨t, hg ▸ hr, ht⟩

theorem mapM_eq_ok_iff {g : α → Except ε β} {as : List α} {bs : List β} :
    as.mapM g = .ok bs ↔ List.Forall₂ (fun a b => g a = .ok b) as bs := by
  induction as generalizing bs with
  | nil => simp [Pure.pure, Except.pure, eq_comm]
  | cons a as ih =>
    rw [List.mapM_cons, List.forall₂_cons_left_iff]
    simp only [bind_ok, ih, Pure.pure, Except.pure, Except.ok.injEq]
    constructor
    · rintro ⟨b, hb, bs', hbs', rfl⟩
      exact ⟨b, bs', hb, hbs', rfl⟩
    · rintro ⟨b, bs', hb, hbs', rfl⟩
      exact ⟨b, hb, bs', hbs', rfl⟩

/-- A computation that threads a state goes as a pure one does, and keeps `I`. -/
inductive GoesAs (I : σ → Prop) : Except ε β → Except ε (β × σ) → Prop
  | error {e} : GoesAs I (.error e) (.error e)
  | ok {b s} : I s → GoesAs I (.ok b) (.ok (b, s))

namespace GoesAs

variable {I : σ → Prop}

theorem bind {x : Except ε α} {y : Except ε (α × σ)} {k : α → Except ε β}
    {k' : α × σ → Except ε (β × σ)} (h : GoesAs I x y) (hk : ∀ a s, I s → GoesAs I (k a) (k' (a, s))) :
    GoesAs I (x >>= k) (y >>= k') := by
  cases h with
  | error => exact .error
  | ok hs => exact hk _ _ hs

theorem traverse {g : α → Except ε β} {as : List α}
    (step : ∀ {s a}, a ∈ as → I s → GoesAs I (g a) (f s a)) {s : σ} (hs : I s) :
    GoesAs I (as.mapM g) (traverse f s as) := by
  induction as generalizing s with
  | nil => exact .ok hs
  | cons a as ih =>
    have ha := step List.mem_cons_self hs
    rw [List.mapM_cons]
    simp only [Library.traverse]
    generalize g a = x, f s a = y at ha
    cases ha with
    | error => exact .error
    | @ok b s' hs' =>
      have has := ih (fun ha => step (List.mem_cons_of_mem a ha)) hs'
      simp only [Bind.bind, Except.bind]
      generalize as.mapM g = xs, Library.traverse f s' as = ys at has
      cases has with
      | error => exact .error
      | ok ht => exact .ok ht

end GoesAs

section Pointwise

variable {γ : Type w} {R : α → β → Prop}

theorem exists_of_mem_right {as : List α} {bs : List β} (h : List.Forall₂ R as bs) {b : β}
    (hb : b ∈ bs) : ∃ a ∈ as, R a b := by
  induction h with
  | nil => exact absurd hb List.not_mem_nil
  | @cons a b' as bs hR _ ih =>
    cases List.mem_cons.mp hb with
    | inl heq => exact ⟨a, List.mem_cons_self, heq ▸ hR⟩
    | inr hb =>
      obtain ⟨a', ha', hR'⟩ := ih hb
      exact ⟨a', List.mem_cons_of_mem a ha', hR'⟩

theorem exists_getElem?_right {as : List α} {bs : List β} (h : List.Forall₂ R as bs) {i : Nat}
    {a : α} (ha : as[i]? = some a) : ∃ b, bs[i]? = some b ∧ R a b := by
  induction h generalizing i with
  | nil => simp at ha
  | @cons a' b as bs hR _ ih =>
    cases i with
    | zero => exact ⟨b, rfl, Option.some.inj ha ▸ hR⟩
    | succ i => exact ih ha

theorem forall₂_of_left {S : α → γ → Prop} {T : β → γ → Prop}
    (H : ∀ {a b c}, R a b → S a c → T b c) {as : List α} {bs : List β} {cs : List γ}
    (h : List.Forall₂ R as bs) (h' : List.Forall₂ S as cs) : List.Forall₂ T bs cs := by
  induction h generalizing cs with
  | nil =>
    cases h'
    exact .nil
  | cons hR _ ih =>
    cases h' with
    | cons hS h' => exact .cons (H hR hS) (ih h')

end Pointwise

end Vignette.Library
