import Vignette.Export.Fidelity

/-! How often the file of a module is opened, and what its lookups are answered from,
while the file system changes from one lookup to the next. -/

namespace Vignette.Resolve

open Library Output

variable {FatObject Object SymCache : Type}

structure Call where
  module : Module
  relativeIp : UInt64
  store : SymbolStore

/-- A call that was made: the path that it opened, if any, and how it ended. -/
structure Event where
  call : Call
  opened : Option String
  result : Except Panic (Option (String × String × UInt32))

section Program

variable (symbolic : Symbolic FatObject Object SymCache)

/-- `get_or_create_cache` with the path that it opens. -/
def getOrCreateCacheOpening (store : SymbolStore) (cache : SymCacheCache SymCache)
    (module : Module) : Option String × Except Panic (Option SymCache × SymCacheCache SymCache) :=
  match cache.moduleToCache.lookup module with
  | some symcache => (none, .ok (symcache, cache))
  | none =>
    let symPath := symPath cache.symbolRoot module
    (some symPath,
      match store symPath with
      | none => .ok (none, cache)
      | some file => do
        let symcache := some (← createCache symbolic file)
        let moduleToCache := cache.moduleToCache.insert module symcache
        return (symcache, { cache with moduleToCache }))

theorem getOrCreateCacheOpening_snd (store : SymbolStore) (cache : SymCacheCache SymCache)
    (module : Module) : (getOrCreateCacheOpening symbolic store cache module).2 =
      getOrCreateCache symbolic store cache module := by
  rw [getOrCreateCacheOpening, getOrCreateCache]
  cases cache.moduleToCache.lookup module <;> rfl

def lookups (cache : SymCacheCache SymCache) : List Call → List Event
  | [] => []
  | call :: calls =>
    let opened := (getOrCreateCacheOpening symbolic call.store cache call.module).1
    match lookupSymbol symbolic call.store cache call.module call.relativeIp with
    | .error p => [{ call, opened, result := .error p }]
    | .ok (symbol, cache) => { call, opened, result := .ok symbol } :: lookups cache calls

def Made (cache : SymCacheCache SymCache) (calls : List Call) : Prop :=
  (lookups symbolic cache calls).length = calls.length

def symbolOf (symcache : Option SymCache) (relativeIp : UInt64) :
    Option (String × String × UInt32) :=
  (firstResult symbolic symcache relativeIp).map fun x => (x.functionName, x.filename, x.line)

def AnsweredFrom (module : Module) (symcache : Option SymCache) (events : List Event) : Prop :=
  ∀ e ∈ events, e.call.module = module → ∀ symbol, e.result = .ok symbol →
    symbol = symbolOf symbolic symcache e.call.relativeIp

def opensOf (module : Module) (events : List Event) : Nat :=
  events.countP fun e => decide (e.call.module = module) && e.opened.isSome

def callsOf (module : Module) (calls : List Call) : Nat :=
  calls.countP fun call => decide (call.module = module)

def firstCall (module : Module) (calls : List Call) : Option Call :=
  calls.find? fun call => decide (call.module = module)

/-- The lookups of a module are answered from one file that was there at one of them, or
from none. -/
def OneSnapshot (symbolRoot : String) (module : Module) (calls : List Call)
    (events : List Event) : Prop :=
  AnsweredFrom symbolic module none events ∨
    ∃ call ∈ calls, ∃ symcache, call.module = module ∧
      SymbolFile symbolic call.store (symPath symbolRoot module) (some symcache) ∧
      AnsweredFrom symbolic module (some symcache) events

structure LoadedOnce (symbolRoot : String) (calls : List Call) (events : List Event) : Prop where
  opened : ∀ module, opensOf module events ≤ 1
  snapshot : ∀ module, OneSnapshot symbolic symbolRoot module calls events

def FoundFirst (symbolRoot : String) (calls : List Call) : Prop :=
  ∀ module call, firstCall module calls = some call → 1 < callsOf module calls →
    call.store (symPath symbolRoot module) ≠ none

end Program

variable {symbolic : Symbolic FatObject Object SymCache}

theorem lookupSymbol_eq (store : SymbolStore) (cache : SymCacheCache SymCache) (module : Module)
    (relativeIp : UInt64) : lookupSymbol symbolic store cache module relativeIp =
      (getOrCreateCache symbolic store cache module).map fun r =>
        (symbolOf symbolic r.1 relativeIp, r.2) := by
  rw [lookupSymbol]
  rcases getOrCreateCache symbolic store cache module with p | ⟨symcache, cache⟩
  · rfl
  · cases symcache with
    | none => rfl
    | some symcache =>
      cases h : symbolic.lookup symcache relativeIp <;>
        simp [symbolOf, firstResult, h, Bind.bind, Except.bind, Except.map, Pure.pure, Except.pure]

theorem createCache_ok {store : SymbolStore} {path : String} {file : Option (List UInt8)}
    {symcache : SymCache} (hstore : store path = some file)
    (h : createCache symbolic file = .ok symcache) :
    SymbolFile symbolic store path (some symcache) := by
  simp only [createCache, bind_ok, expect_ok, unwrap_ok] at h
  obtain ⟨contents, rfl, fatObject, hparse, _, hkind, _, hcount, _, hobject, object, rfl, hcache⟩ := h
  exact .breakpad hstore hparse (check_ok_iff.mp hkind) (check_ok_iff.mp hcount) hobject hcache

inductive Loaded (symbolic : Symbolic FatObject Object SymCache) (store : SymbolStore)
    (cache : SymCacheCache SymCache) (module : Module) :
    Option SymCache → SymCacheCache SymCache → Prop
  | known {symcache} : cache.moduleToCache.lookup module = some symcache →
      Loaded symbolic store cache module symcache cache
  | missing : cache.moduleToCache.lookup module = none →
      store (symPath cache.symbolRoot module) = none → Loaded symbolic store cache module none cache
  | opened {symcache} : cache.moduleToCache.lookup module = none →
      SymbolFile symbolic store (symPath cache.symbolRoot module) (some symcache) →
      Loaded symbolic store cache module (some symcache)
        { cache with moduleToCache := cache.moduleToCache.insert module (some symcache) }

theorem getOrCreateCache_loaded {store : SymbolStore} {cache cache' : SymCacheCache SymCache}
    {module : Module} {symcache : Option SymCache}
    (h : getOrCreateCache symbolic store cache module = .ok (symcache, cache')) :
    Loaded symbolic store cache module symcache cache' := by
  rw [getOrCreateCache] at h
  split at h
  · rename_i hknown
    simp only [Except.ok.injEq, Prod.mk.injEq] at h
    obtain ⟨rfl, rfl⟩ := h
    exact .known hknown
  · rename_i hnone
    split at h
    · rename_i hstore
      simp only [Except.ok.injEq, Prod.mk.injEq] at h
      obtain ⟨rfl, rfl⟩ := h
      exact .missing hnone hstore
    · rename_i hstore
      obtain ⟨symcache, hcreate, hr⟩ := bind_ok.mp h
      simp only [Pure.pure, Except.pure, Except.ok.injEq, Prod.mk.injEq] at hr
      obtain ⟨rfl, rfl⟩ := hr
      exact .opened hnone (createCache_ok hstore hcreate)

theorem lookupSymbol_loaded {call : Call} {cache cache' : SymCacheCache SymCache}
    {symbol : Option (String × String × UInt32)}
    (h : lookupSymbol symbolic call.store cache call.module call.relativeIp = .ok (symbol, cache')) :
    ∃ symcache, Loaded symbolic call.store cache call.module symcache cache' ∧
      symbol = symbolOf symbolic symcache call.relativeIp := by
  rw [lookupSymbol_eq] at h
  cases hcache : getOrCreateCache symbolic call.store cache call.module with
  | error p => simp [hcache, Except.map] at h
  | ok r =>
    simp only [hcache, Except.map, Except.ok.injEq, Prod.mk.injEq] at h
    obtain ⟨rfl, rfl⟩ := h
    exact ⟨r.1, getOrCreateCache_loaded hcache, rfl⟩

theorem Loaded.symbolRoot {store : SymbolStore} {cache cache' : SymCacheCache SymCache}
    {module : Module} {symcache : Option SymCache}
    (h : Loaded symbolic store cache module symcache cache') :
    cache'.symbolRoot = cache.symbolRoot := by
  cases h <;> rfl

theorem Loaded.lookup_ne {store : SymbolStore} {cache cache' : SymCacheCache SymCache}
    {module other : Module} {symcache : Option SymCache}
    (h : Loaded symbolic store cache module symcache cache') (hne : other ≠ module) :
    cache'.moduleToCache.lookup other = cache.moduleToCache.lookup other := by
  cases h with
  | known => rfl
  | missing => rfl
  | opened => exact AList.lookup_insert_ne hne

theorem Loaded.of_known {store : SymbolStore} {cache cache' : SymCacheCache SymCache}
    {module : Module} {symcache symcache' : Option SymCache}
    (h : Loaded symbolic store cache module symcache' cache')
    (hknown : cache.moduleToCache.lookup module = some symcache) :
    symcache' = symcache ∧ cache' = cache := by
  cases h with
  | known h => exact ⟨Option.some.inj (h.symm.trans hknown), rfl⟩
  | missing h => simp [hknown] at h
  | opened h => simp [hknown] at h

theorem Loaded.remembered {store : SymbolStore} {cache cache' : SymCacheCache SymCache}
    {module : Module} {symcache : SymCache}
    (h : Loaded symbolic store cache module (some symcache) cache') :
    cache'.moduleToCache.lookup module = some (some symcache) := by
  cases h with
  | known h => exact h
  | opened => exact AList.lookup_insert _

section Events

variable {cache cache' : SymCacheCache SymCache} {module : Module} {call : Call}
  {calls : List Call} {events : List Event}

theorem opening_of_known {symcache : Option SymCache} (store : SymbolStore)
    (h : cache.moduleToCache.lookup module = some symcache) :
    (getOrCreateCacheOpening symbolic store cache module).1 = none := by
  rw [getOrCreateCacheOpening, h]

theorem opening_of_unknown (store : SymbolStore) (h : cache.moduleToCache.lookup module = none) :
    (getOrCreateCacheOpening symbolic store cache module).1 =
      some (symPath cache.symbolRoot module) := by
  rw [getOrCreateCacheOpening, h]

theorem lookups_ok {symbol : Option (String × String × UInt32)}
    (h : lookupSymbol symbolic call.store cache call.module call.relativeIp = .ok (symbol, cache')) :
    lookups symbolic cache (call :: calls) =
      ⟨call, (getOrCreateCacheOpening symbolic call.store cache call.module).1, .ok symbol⟩ ::
        lookups symbolic cache' calls := by
  rw [lookups, h]

theorem lookups_error {p : Panic}
    (h : lookupSymbol symbolic call.store cache call.module call.relativeIp = .error p) :
    lookups symbolic cache (call :: calls) =
      [⟨call, (getOrCreateCacheOpening symbolic call.store cache call.module).1, .error p⟩] := by
  rw [lookups, h]

theorem mem_of_mem_lookups {e : Event} (he : e ∈ lookups symbolic cache calls) :
    e.call ∈ calls := by
  induction calls generalizing cache with
  | nil => exact absurd he List.not_mem_nil
  | cons call calls ih =>
    cases hr : lookupSymbol symbolic call.store cache call.module call.relativeIp with
    | error p =>
      rw [lookups_error hr, List.mem_singleton] at he
      rw [he]
      exact List.mem_cons_self
    | ok r =>
      rw [lookups_ok hr, List.mem_cons] at he
      rcases he with rfl | he
      · exact List.mem_cons_self
      · exact List.mem_cons_of_mem call (ih he)

theorem Made.tail (h : Made symbolic cache (call :: calls)) (hcalls : calls ≠ []) :
    ∃ symbol cache', lookupSymbol symbolic call.store cache call.module call.relativeIp =
      .ok (symbol, cache') ∧ Made symbolic cache' calls := by
  rw [Made] at h
  cases hr : lookupSymbol symbolic call.store cache call.module call.relativeIp with
  | error p =>
    rw [lookups_error hr, List.length_singleton, List.length_cons] at h
    exact absurd (List.length_eq_zero_iff.mp (by omega)) hcalls
  | ok r =>
    rw [lookups_ok hr, List.length_cons, List.length_cons, Nat.succ_inj] at h
    exact ⟨r.1, r.2, rfl, h⟩

theorem opensOf_eq_zero (h : ∀ e ∈ events, e.call.module ≠ module) : opensOf module events = 0 :=
  List.countP_eq_zero.mpr fun e he => by simp [h e he]

theorem opensOf_append {events' : List Event} (h : ∀ e ∈ events, e.call.module ≠ module) :
    opensOf module (events ++ events') = opensOf module events' := by
  rw [opensOf, List.countP_append, ← opensOf, ← opensOf, opensOf_eq_zero h, Nat.zero_add]

theorem callsOf_eq_zero (h : ∀ c ∈ calls, c.module ≠ module) : callsOf module calls = 0 :=
  List.countP_eq_zero.mpr fun c hc => by simp [h c hc]

theorem opensOf_cons_unopened {e : Event} (h : e.call.module = module → e.opened = none) :
    opensOf module (e :: events) = opensOf module events := by
  refine List.countP_cons_of_neg fun hopens => ?_
  rw [Bool.and_eq_true, decide_eq_true_eq] at hopens
  simp [h hopens.1] at hopens

theorem answeredFrom_of_ne (h : ∀ e ∈ events, e.call.module ≠ module)
    (symcache : Option SymCache) : AnsweredFrom symbolic module symcache events :=
  fun e he hmodule => absurd hmodule (h e he)

theorem answeredFrom_error (symcache : Option SymCache) (opened : Option String) (p : Panic) :
    AnsweredFrom symbolic module symcache [⟨call, opened, .error p⟩] := by
  intro e he _ symbol hresult
  rw [List.mem_singleton.mp he] at hresult
  simp at hresult

theorem AnsweredFrom.append {symcache : Option SymCache} {events' : List Event}
    (h : AnsweredFrom symbolic module symcache events)
    (h' : AnsweredFrom symbolic module symcache events') :
    AnsweredFrom symbolic module symcache (events ++ events') := by
  intro e he
  rcases List.mem_append.mp he with he | he
  · exact h e he
  · exact h' e he

theorem AnsweredFrom.cons {symcache : Option SymCache} {opened : Option String}
    (h : AnsweredFrom symbolic module symcache events) :
    AnsweredFrom symbolic module symcache
      (⟨call, opened, .ok (symbolOf symbolic symcache call.relativeIp)⟩ :: events) := by
  intro e he hmodule symbol hresult
  rcases List.mem_cons.mp he with rfl | he
  · exact (Except.ok.inj hresult).symm
  · exact h e he hmodule symbol hresult

theorem lookups_of_known {symcache : Option SymCache}
    (h : cache.moduleToCache.lookup module = some symcache) :
    opensOf module (lookups symbolic cache calls) = 0 ∧
      AnsweredFrom symbolic module symcache (lookups symbolic cache calls) := by
  induction calls generalizing cache with
  | nil => exact ⟨rfl, answeredFrom_of_ne (by simp [lookups]) symcache⟩
  | cons call calls ih =>
    have hunopened : call.module = module →
        (getOrCreateCacheOpening symbolic call.store cache call.module).1 = none := by
      rintro rfl
      exact opening_of_known call.store h
    cases hr : lookupSymbol symbolic call.store cache call.module call.relativeIp with
    | error p =>
      rw [lookups_error hr]
      exact ⟨opensOf_cons_unopened hunopened, answeredFrom_error symcache _ p⟩
    | ok r =>
      obtain ⟨symcache', hloaded, hsymbol⟩ := lookupSymbol_loaded hr
      rw [lookups_ok hr, hsymbol, opensOf_cons_unopened hunopened]
      by_cases hmodule : call.module = module
      · subst hmodule
        obtain ⟨rfl, hcache⟩ := hloaded.of_known h
        obtain ⟨hopens, hanswered⟩ := ih (hcache ▸ h)
        exact ⟨hopens, hanswered.cons⟩
      · obtain ⟨hopens, hanswered⟩ := ih ((hloaded.lookup_ne (Ne.symm hmodule)).trans h)
        refine ⟨hopens, AnsweredFrom.append (answeredFrom_of_ne ?_ symcache : AnsweredFrom _ _ _ [_])
          hanswered⟩
        simp [hmodule]

theorem lookups_skip {pre : List Call} (hpre : ∀ call ∈ pre, call.module ≠ module)
    (hcalls : calls ≠ []) (hmade : Made symbolic cache (pre ++ calls)) :
    ∃ events mid, lookups symbolic cache (pre ++ calls) = events ++ lookups symbolic mid calls ∧
      (∀ e ∈ events, e.call.module ≠ module) ∧
      mid.moduleToCache.lookup module = cache.moduleToCache.lookup module ∧
      mid.symbolRoot = cache.symbolRoot ∧ Made symbolic mid calls := by
  induction pre generalizing cache with
  | nil => exact ⟨[], cache, rfl, by simp, rfl, rfl, hmade⟩
  | cons call pre ih =>
    obtain ⟨symbol, cache', hr, hmade'⟩ := hmade.tail (by simp [hcalls])
    obtain ⟨symcache, hloaded, -⟩ := lookupSymbol_loaded hr
    obtain ⟨events, mid, hevents, hne, hknown, hroot, hmid⟩ :=
      ih (fun call hcall => hpre call (.tail _ hcall)) hmade'
    have hcall := hpre call List.mem_cons_self
    refine ⟨⟨call, (getOrCreateCacheOpening symbolic call.store cache call.module).1, .ok symbol⟩ ::
      events, mid, ?_, ?_, ?_, hroot.trans hloaded.symbolRoot, hmid⟩
    · rw [List.cons_append, lookups_ok hr, hevents, List.cons_append]
    · intro e he
      rcases List.mem_cons.mp he with rfl | he
      · exact hcall
      · exact hne e he
    · rw [hknown, hloaded.lookup_ne hcall.symm]

theorem opensOf_first (symbolic : Symbolic FatObject Object SymCache) (calls : List Call)
    (h : cache.moduleToCache.lookup call.module = none) :
    opensOf call.module (lookups symbolic cache (call :: calls)) =
      opensOf call.module (lookups symbolic cache (call :: calls)).tail + 1 := by
  cases hr : lookupSymbol symbolic call.store cache call.module call.relativeIp with
  | error p => simp [lookups_error hr, opensOf, opening_of_unknown _ h]
  | ok r => simp [lookups_ok hr, opensOf, opening_of_unknown _ h]

theorem loadedOnce_first (symbolic : Symbolic FatObject Object SymCache)
    (h : cache.moduleToCache.lookup call.module = none)
    (hfound : call.store (symPath cache.symbolRoot call.module) ≠ none ∨
      ∀ c ∈ calls, c.module ≠ call.module) :
    opensOf call.module (lookups symbolic cache (call :: calls)) ≤ 1 ∧
      OneSnapshot symbolic cache.symbolRoot call.module (call :: calls)
        (lookups symbolic cache (call :: calls)) := by
  rw [opensOf_first symbolic calls h]
  rcases hr : lookupSymbol symbolic call.store cache call.module call.relativeIp with
    p | ⟨symbol, cache'⟩
  · rw [lookups_error hr]
    exact ⟨by simp [opensOf], .inl (answeredFrom_error none _ p)⟩
  · obtain ⟨symcache, hloaded, rfl⟩ := lookupSymbol_loaded hr
    rw [lookups_ok hr, List.tail_cons]
    cases hloaded with
    | known hknown => simp [h] at hknown
    | missing _ hstore =>
      have hother := hfound.resolve_left (not_not_intro hstore)
      have hne : ∀ e ∈ lookups symbolic cache calls, e.call.module ≠ call.module :=
        fun e he => hother e.call (mem_of_mem_lookups he)
      rw [opensOf_eq_zero hne]
      exact ⟨Nat.le_refl 1, .inl (answeredFrom_of_ne hne none).cons⟩
    | @opened symcache _ hfile =>
      have hknown := (Loaded.opened h hfile).remembered
      obtain ⟨hopens, hanswered⟩ : opensOf call.module (lookups symbolic _ calls) = 0 ∧
          AnsweredFrom symbolic call.module (some symcache) (lookups symbolic _ calls) :=
        lookups_of_known hknown
      rw [hopens]
      exact ⟨Nat.le_refl 1,
        .inr ⟨call, List.mem_cons_self, symcache, rfl, hfile, hanswered.cons⟩⟩

theorem opened_again {again : Call} {pre post : List Call}
    (h : cache.moduleToCache.lookup call.module = none)
    (hmissing : call.store (symPath cache.symbolRoot call.module) = none)
    (hpre : ∀ c ∈ pre, c.module ≠ call.module) (hagain : again.module = call.module)
    (hmade : Made symbolic cache (call :: (pre ++ again :: post))) :
    1 < opensOf call.module (lookups symbolic cache (call :: (pre ++ again :: post))) := by
  obtain ⟨symbol, cache', hr, hmade'⟩ := hmade.tail (by simp)
  obtain ⟨symcache, hloaded, -⟩ := lookupSymbol_loaded hr
  cases hloaded with
  | known hknown => simp [h] at hknown
  | opened _ hfile => cases hfile with
    | breakpad hstore => simp [hmissing] at hstore
  | missing =>
    obtain ⟨events, mid, hevents, hne, hknown, -, -⟩ := lookups_skip hpre (by simp) hmade'
    have hopens := opensOf_first symbolic post (hagain ▸ hknown.trans h)
    rw [hagain] at hopens
    rw [opensOf_first symbolic _ h, lookups_ok hr, List.tail_cons, hevents, opensOf_append hne, hopens]
    omega

theorem firstCall_some (h : firstCall module calls = some call) :
    call.module = module ∧ ∃ pre post, calls = pre ++ call :: post ∧
      (∀ c ∈ pre, c.module ≠ module) ∧ callsOf module calls = callsOf module post + 1 := by
  obtain ⟨hmodule, pre, post, hcalls, hpre⟩ := List.find?_eq_some_iff_append.mp h
  have hmodule := of_decide_eq_true hmodule
  have hpre : ∀ c ∈ pre, c.module ≠ module := fun c hc => by simpa using hpre c hc
  refine ⟨hmodule, pre, post, hcalls, hpre, ?_⟩
  rw [hcalls, callsOf, List.countP_append, ← callsOf, callsOf_eq_zero hpre,
    List.countP_cons_of_pos (by simpa), Nat.zero_add, ← callsOf]

theorem firstCall_none (h : firstCall module calls = none) : ∀ c ∈ calls, c.module ≠ module :=
  fun c hc => by simpa using List.find?_eq_none.mp h c hc

theorem OneSnapshot.append {symbolRoot : String} {pre : List Call} {events' : List Event}
    (hne : ∀ e ∈ events, e.call.module ≠ module)
    (h : OneSnapshot symbolic symbolRoot module calls events') :
    OneSnapshot symbolic symbolRoot module (pre ++ calls) (events ++ events') := by
  rcases h with hnone | ⟨call, hcall, symcache, hmodule, hfile, hsome⟩
  · exact .inl ((answeredFrom_of_ne hne none).append hnone)
  · exact .inr ⟨call, List.mem_append_right pre hcall, symcache, hmodule, hfile,
      (answeredFrom_of_ne hne _).append hsome⟩

end Events

section Runs

variable {symbolRoot : String} {calls : List Call}

theorem foundFirst_of_loadedOnce (hmade : Made symbolic (.new symbolRoot) calls)
    (h : LoadedOnce symbolic symbolRoot calls (lookups symbolic (.new symbolRoot) calls)) :
    FoundFirst symbolRoot calls := by
  intro module call hfirst hmore hmissing
  obtain ⟨rfl, pre, post, rfl, hpre, hcount⟩ := firstCall_some hfirst
  obtain ⟨events, mid, hevents, hne, hknown, hroot, hmid⟩ := lookups_skip hpre (by simp) hmade
  cases hagain : firstCall call.module post with
  | none =>
    have hzero := callsOf_eq_zero (firstCall_none hagain)
    omega
  | some again =>
    obtain ⟨hmodule, between, post, rfl, hbetween, -⟩ := firstCall_some hagain
    have htwice := opened_again hknown (hroot ▸ hmissing) hbetween hmodule hmid
    rw [← opensOf_append hne, ← hevents] at htwice
    exact absurd (h.opened call.module) (Nat.not_le.mpr htwice)

theorem loadedOnce_of_foundFirst (hmade : Made symbolic (.new symbolRoot) calls)
    (h : FoundFirst symbolRoot calls) (module : Module) :
    opensOf module (lookups symbolic (.new symbolRoot) calls) ≤ 1 ∧
      OneSnapshot symbolic symbolRoot module calls (lookups symbolic (.new symbolRoot) calls) := by
  cases hfirst : firstCall module calls with
  | none =>
    have hne : ∀ e ∈ lookups symbolic (.new symbolRoot) calls, e.call.module ≠ module :=
      fun e he => firstCall_none hfirst e.call (mem_of_mem_lookups he)
    rw [opensOf_eq_zero hne]
    exact ⟨Nat.zero_le 1, .inl (answeredFrom_of_ne hne none)⟩
  | some call =>
    have hfound := h module call hfirst
    obtain ⟨rfl, pre, post, rfl, hpre, hcount⟩ := firstCall_some hfirst
    obtain ⟨events, mid, hevents, hne, hknown, hroot, -⟩ := lookups_skip hpre (by simp) hmade
    have hroot : mid.symbolRoot = symbolRoot := hroot
    have hpost : call.store (symPath mid.symbolRoot call.module) ≠ none ∨
        ∀ c ∈ post, c.module ≠ call.module := by
      by_cases hmore : 1 < callsOf call.module (pre ++ call :: post)
      · exact .inl (hroot ▸ hfound hmore)
      · refine .inr fun c hc hmodule => ?_
        have hpos : 0 < callsOf call.module post :=
          List.countP_pos_iff.mpr ⟨c, hc, by simp [hmodule]⟩
        omega
    obtain ⟨hopens, hsnapshot⟩ := loadedOnce_first symbolic hknown hpost
    rw [hevents, opensOf_append hne]
    exact ⟨hopens, .append hne (hroot ▸ hsnapshot)⟩

/-- Symbol files are loaded once exactly when no module that is looked up again had its
file missing at its first lookup. -/
theorem loaded_once_iff_found_first (hmade : Made symbolic (.new symbolRoot) calls) :
    LoadedOnce symbolic symbolRoot calls (lookups symbolic (.new symbolRoot) calls) ↔
      FoundFirst symbolRoot calls := by
  constructor
  · exact foundFirst_of_loadedOnce hmade
  · intro h
    exact ⟨fun module => (loadedOnce_of_foundFirst hmade h module).1,
      fun module => (loadedOnce_of_foundFirst hmade h module).2⟩

end Runs

open Speedscope

def twoLookups (store store' : SymbolStore) : List Call :=
  [⟨⟨"app", "01AB"⟩, 0x10, store⟩, ⟨⟨"app", "01AB"⟩, 0x10, store'⟩]

/-- A file that appears after the first lookup is opened again, and read. -/
theorem late_file_opened_again :
    let calls := twoLookups (fun _ => none) fun _ => some (some [0x4D])
    let events := lookups oneFunction (.new "symbols") calls
    Made oneFunction (.new "symbols") calls ∧ opensOf ⟨"app", "01AB"⟩ events = 2 ∧
      events.map Event.result = [.ok none, .ok (some ("main", "main.c", 3))] ∧
      ¬LoadedOnce oneFunction "symbols" calls events :=
  ⟨rfl, rfl, rfl, fun h => absurd (h.opened ⟨"app", "01AB"⟩) (by decide)⟩

theorem steady_file_loaded_once :
    LoadedOnce oneFunction "symbols" (twoLookups (fun _ => some (some [])) fun _ => none)
        (lookups oneFunction (.new "symbols") (twoLookups (fun _ => some (some [])) fun _ => none)) ↔
      FoundFirst "symbols" (twoLookups (fun _ => some (some [])) fun _ => none) :=
  loaded_once_iff_found_first rfl

end Vignette.Resolve
