import NexusNet.DhtValues
/-!
# DhtSingleFlight — one refresh per key, and whom a cold read waits for

`inflight` and the refresh tasks change in separate critical sections.  A task is registered under its key from
`ensure_refresh` until the guard of `run_refresh` takes it out again, and the table says exactly which tasks those are
(`Flight`).  A call that waits was given a registered task by `ensure_refresh`, and only that one (`Waits`).
-/
set_option linter.unusedSectionVars false

namespace NexusNet
namespace Dht

variable {K V : Type} [DecidableEq K] [DecidableEq V]

/-- Between registration and deregistration. -/
def Phase.running : Phase V → Bool
  | .deregistered _ _ => false
  | _ => true

/-- Registered, and not yet spawned by the call that registered it. -/
def Phase.launching : Phase V → Bool
  | .registered | .globalRead _ => true
  | _ => false

/-- The call waits for the outcome of the refresh. -/
def Call.waitsFor (k : K) (r : Nat) : Call K V → Prop
  | .launching k' .wait r' => k' = k ∧ r' = r
  | .waiting k' r' => k' = k ∧ r' = r
  | _ => False

/-- A registered task for the key. -/
def Running (s : Cache K V) (r : Nat) (k : K) : Prop :=
  ∃ f, s.refreshes.lookup r = some f ∧ f.key = k ∧ f.phase.running = true

/-- **The table and the tasks**: `inflight` holds the registered tasks, and a task that is not spawned yet has the one
call that registered it. -/
structure Flight (s : Cache K V) : Prop where
  inflight : ∀ k r, s.inflight.lookup k = some r ↔ Running s r k
  launched : ∀ r k phase, s.refreshes.lookup r = some ⟨k, phase⟩ → phase.launching = true →
    ∃ c want, s.calls.lookup c = some (.launching k want r)
  launching : ∀ c k want r, s.calls.lookup c = some (.launching k want r) →
    ∃ phase, s.refreshes.lookup r = some ⟨k, phase⟩ ∧ phase.launching = true
  sole : ∀ c c' k k' want want' r, s.calls.lookup c = some (.launching k want r) →
    s.calls.lookup c' = some (.launching k' want' r) → c = c'

theorem Flight.new (maxEntries maxBytes : Nat) : Flight (Cache.new maxEntries maxBytes : Cache K V) := by
  refine ⟨fun k r => ?_, fun r k phase hf => ?_, fun c k want r hc => ?_, fun c c' k k' want want' r hc => ?_⟩
  · simp [Cache.new, Running]
  · simp [Cache.new] at hf
  · simp [Cache.new] at hc
  · simp [Cache.new] at hc

section Steps

variable {s s' : Cache K V}

/-- A step of calls that are not launching. -/
theorem Flight.calls (h : Flight s) (hrefreshes : s'.refreshes = s.refreshes) (hinflight : s'.inflight = s.inflight)
    (hcalls : ∀ c k want r, s'.calls.lookup c = some (.launching k want r) ↔
      s.calls.lookup c = some (.launching k want r)) : Flight s' := by
  refine ⟨fun k r => ?_, fun r k phase hf hl => ?_, fun c k want r hc => ?_, fun c c' k k' want want' r hc hc' => ?_⟩
  · rw [hinflight, h.inflight, Running, Running, hrefreshes]
  · rw [hrefreshes] at hf
    obtain ⟨c, want, hc⟩ := h.launched r k phase hf hl
    exact ⟨c, want, (hcalls c k want r).2 hc⟩
  · rw [hrefreshes]
    exact h.launching c k want r ((hcalls c k want r).1 hc)
  · exact h.sole c c' k k' want want' r ((hcalls ..).1 hc) ((hcalls ..).1 hc')

theorem launching_setCall {c₀ : Nat} {call : Call K V} (hnew : ∀ k want r, call ≠ .launching k want r)
    (hold : ∀ k want r, s.calls.lookup c₀ ≠ some (.launching k want r)) (c : Nat) (k : K) (want : Want V) (r : Nat) :
    (s.setCall c₀ call).calls.lookup c = some (.launching k want r) ↔
      s.calls.lookup c = some (.launching k want r) := by
  rw [lookup_setCall]
  split
  · rename_i hc
    subst hc
    constructor
    · intro heq
      exact absurd (Option.some.inj heq) (hnew k want r)
    · intro heq
      exact absurd heq (hold k want r)
  · exact Iff.rfl

theorem not_launching_of_fresh {c : Nat} (fresh : c ∉ s.calls) (k : K) (want : Want V) (r : Nat) :
    s.calls.lookup c ≠ some (.launching k want r) := fun hc => fresh (Finmap.mem_of_lookup_eq_some hc)

theorem running_setPhase {r : Nat} {k : K} {p phase : Phase V} (task : s.refreshes.lookup r = some ⟨k, p⟩)
    (hp : p.running = true) (hphase : phase.running = true) (r' : Nat) (k' : K) :
    Running (s.setPhase r k phase) r' k' ↔ Running s r' k' := by
  unfold Running
  rw [lookup_setPhase]
  split
  · rename_i hr
    subst hr
    simp [task, hp, hphase]
  · exact Iff.rfl

/-- A task goes on to a phase in which it is still registered, and not in the hands of another. -/
theorem Flight.phase (h : Flight s) {r : Nat} {k : K} {p phase : Phase V} (task : s.refreshes.lookup r = some ⟨k, p⟩)
    (hset : s'.refreshes = (s.setPhase r k phase).refreshes) (hinflight : s'.inflight = s.inflight)
    (hcalls : s'.calls = s.calls) (hp : p.running = true) (hphase : phase.running = true)
    (hl : phase.launching = p.launching) : Flight s' := by
  have hlookup : ∀ r', s'.refreshes.lookup r' = if r' = r then some ⟨k, phase⟩ else s.refreshes.lookup r' := fun r' => by
    rw [hset, lookup_setPhase]
  refine ⟨fun k' r' => ?_, fun r' k' phase' hf hl' => ?_, fun c k' want r' hc => ?_, ?_⟩
  · rw [hinflight, h.inflight, ← running_setPhase task hp hphase, Running, Running, hset]
  · rw [hcalls]
    rw [hlookup] at hf
    split at hf
    · rename_i hr
      subst hr
      cases hf
      exact h.launched r' k p task (hl ▸ hl')
    · exact h.launched r' k' phase' hf hl'
  · rw [hcalls] at hc
    obtain ⟨phase', hf, hl'⟩ := h.launching c k' want r' hc
    rw [hlookup]
    split
    · rename_i hr
      subst hr
      cases task.symm.trans hf
      exact ⟨phase, rfl, hl.trans hl'⟩
    · exact ⟨phase', hf, hl'⟩
  · rw [hcalls]
    exact h.sole

theorem Flight.register (h : Flight s) {c r : Nat} {k : K} {want : Want V}
    (call : s.calls.lookup c = some (.starting k want)) (idle : s.inflight.lookup k = none) (fresh : r ∉ s.refreshes) :
    Flight ({ s.setPhase r k .registered with inflight := s.inflight.insert k r }.setCall c (.launching k want r)) := by
  have hrefreshes : ∀ r', ({ s.setPhase r k .registered with inflight := s.inflight.insert k r }.setCall c
      (.launching k want r)).refreshes.lookup r' = if r' = r then some ⟨k, .registered⟩ else s.refreshes.lookup r' :=
    fun r' => lookup_setPhase s r r' k .registered
  have hnone : s.refreshes.lookup r = none := Finmap.lookup_eq_none.2 fresh
  -- no call is launching the new name
  have hother : ∀ c' k' want', s.calls.lookup c' ≠ some (.launching k' want' r) := fun c' k' want' hc' => by
    obtain ⟨phase, hf, -⟩ := h.launching c' k' want' r hc'
    cases hnone.symm.trans hf
  refine ⟨fun k' r' => ?_, fun r' k' phase hf hl => ?_, fun c' k' want' r' hc => ?_,
    fun c₁ c₂ k₁ k₂ want₁ want₂ r' h₁ h₂ => ?_⟩
  · rw [Running, hrefreshes]
    change (s.inflight.insert k r).lookup k' = some r' ↔ _
    rw [Dict.lookup_insert_ite]
    by_cases hk : k' = k
    · -- the key was free, so no other task of it is registered
      subst hk
      rw [if_pos rfl]
      constructor
      · rintro ⟨⟩
        exact ⟨_, by rw [if_pos rfl], rfl, rfl⟩
      · rintro ⟨f, hf, hkey, hrun⟩
        split at hf
        · rename_i hr
          rw [hr]
        · cases idle.symm.trans ((h.inflight k' r').2 ⟨f, hf, hkey, hrun⟩)
    · rw [if_neg hk, h.inflight, Running]
      by_cases hr : r' = r
      · subst hr
        rw [if_pos rfl, hnone]
        constructor
        · rintro ⟨f, hf, -⟩
          cases hf
        · rintro ⟨f, hf, hkey, -⟩
          cases hf
          exact absurd hkey.symm hk
      · rw [if_neg hr]
  · rw [hrefreshes] at hf
    split at hf
    · rename_i hr
      subst hr
      cases hf
      exact ⟨c, want, by rw [lookup_setCall, if_pos rfl]⟩
    · obtain ⟨c', want', hc'⟩ := h.launched r' k' phase hf hl
      refine ⟨c', want', ?_⟩
      have hcc : c' ≠ c := by
        rintro rfl
        cases call.symm.trans hc'
      rw [lookup_setCall, if_neg hcc]
      exact hc'
  · rw [lookup_setCall] at hc
    rw [hrefreshes]
    split at hc
    · cases hc
      exact ⟨_, by rw [if_pos rfl], rfl⟩
    · obtain ⟨phase, hf, hl⟩ := h.launching c' k' want' r' hc
      refine ⟨phase, ?_, hl⟩
      rw [if_neg (fun hr => by rw [hr, hnone] at hf; cases hf)]
      exact hf
  · rw [lookup_setCall] at h₁ h₂
    split at h₁ <;> split at h₂
    · simp_all
    · cases h₁
      exact absurd h₂ (hother c₂ k₂ want₂)
    · cases h₂
      exact absurd h₁ (hother c₁ k₁ want₁)
    · exact h.sole c₁ c₂ k₁ k₂ want₁ want₂ r' h₁ h₂

theorem joined_not_launching (k : K) (r : Nat) (want : Want V) (k' : K) (want' : Want V) (r' : Nat) :
    Cache.joined k r want ≠ .launching k' want' r' := by
  cases want <;> simp [Cache.joined]

theorem woken_not_launching (k : K) (outcome : Outcome) (k' : K) (want : Want V) (r : Nat) :
    Cache.woken k outcome ≠ .launching k' want r := by
  cases outcome <;> simp [Cache.woken, Outcome.value]

theorem Flight.loadKey (h : Flight s) {c r : Nat} {k k' : K} {want : Want V} {g : UInt64}
    (call : s.calls.lookup c = some (.launching k want r)) (task : s.refreshes.lookup r = some ⟨k', .globalRead g⟩) :
    Flight ((s.setPhase r k' (.spawned (g, s.keyGen k'))).setCall c (Cache.joined k r want)) := by
  have hcalls : ∀ c' k₁ want₁ r₁, ((s.setPhase r k' (.spawned (g, s.keyGen k'))).setCall c
      (Cache.joined k r want)).calls.lookup c' = some (.launching k₁ want₁ r₁) →
      s.calls.lookup c' = some (.launching k₁ want₁ r₁) ∧ r₁ ≠ r := fun c' k₁ want₁ r₁ hc' => by
    change (s.setCall c (Cache.joined k r want)).calls.lookup c' = _ at hc'
    rw [lookup_setCall] at hc'
    split at hc'
    · exact absurd (Option.some.inj hc') (joined_not_launching k r want k₁ want₁ r₁)
    · rename_i hcc
      refine ⟨hc', ?_⟩
      rintro rfl
      exact hcc (h.sole c' c k₁ k want₁ want r₁ hc' call)
  refine ⟨fun k₁ r₁ => ?_, fun r₁ k₁ phase hf hl => ?_, fun c' k₁ want₁ r₁ hc' => ?_,
    fun c₁ c₂ k₁ k₂ want₁ want₂ r₁ h₁ h₂ => ?_⟩
  · exact (h.inflight k₁ r₁).trans (running_setPhase task rfl rfl r₁ k₁).symm
  · change (s.setPhase r k' (.spawned (g, s.keyGen k'))).refreshes.lookup r₁ = _ at hf
    rw [lookup_setPhase] at hf
    split at hf
    · cases hf
      cases hl
    · rename_i hr
      obtain ⟨c', want', hc'⟩ := h.launched r₁ k₁ phase hf hl
      refine ⟨c', want', ?_⟩
      have hcc : c' ≠ c := by
        rintro rfl
        cases call.symm.trans hc'
        exact hr rfl
      change (s.setCall c (Cache.joined k r want)).calls.lookup c' = _
      rw [lookup_setCall, if_neg hcc]
      exact hc'
  · obtain ⟨hc, hr⟩ := hcalls c' k₁ want₁ r₁ hc'
    obtain ⟨phase, hf, hl⟩ := h.launching c' k₁ want₁ r₁ hc
    refine ⟨phase, ?_, hl⟩
    change (s.setPhase r k' (.spawned (g, s.keyGen k'))).refreshes.lookup r₁ = _
    rw [lookup_setPhase, if_neg hr]
    exact hf
  · exact h.sole c₁ c₂ k₁ k₂ want₁ want₂ r₁ (hcalls c₁ k₁ want₁ r₁ h₁).1 (hcalls c₂ k₂ want₂ r₁ h₂).1

theorem Flight.deregister (h : Flight s) {r : Nat} {k : K} {gen : Gen} {outcome : Outcome}
    (task : s.refreshes.lookup r = some ⟨k, .sent gen outcome⟩) :
    Flight { s.setPhase r k (.deregistered gen outcome) with inflight := s.inflight.erase k } := by
  have hmine : s.inflight.lookup k = some r := (h.inflight k r).2 ⟨_, task, rfl, rfl⟩
  refine ⟨fun k' r' => ?_, fun r' k' phase hf hl => ?_, fun c k' want r' hc => ?_, h.sole⟩
  · change (s.inflight.erase k).lookup k' = some r' ↔ ∃ f, (s.setPhase r k (.deregistered gen outcome)).refreshes.lookup r' =
      some f ∧ f.key = k' ∧ f.phase.running = true
    rw [Dict.lookup_erase_ite, lookup_setPhase]
    by_cases hr : r' = r
    · subst hr
      rw [if_pos rfl]
      constructor
      · intro hk
        split at hk
        · cases hk
        · rename_i hne
          obtain ⟨f, hf, hkey, -⟩ := (h.inflight k' r').1 hk
          cases task.symm.trans hf
          exact absurd hkey.symm hne
      · rintro ⟨f, hf, -, hrun⟩
        cases hf
        cases hrun
    · rw [if_neg hr]
      by_cases hk : k' = k
      · subst hk
        rw [if_pos rfl]
        constructor
        · intro hnone
          cases hnone
        · intro hrun
          cases hmine.symm.trans ((h.inflight k' r').2 hrun)
          exact absurd rfl hr
      · rw [if_neg hk]
        exact h.inflight k' r'
  · change (s.setPhase r k (.deregistered gen outcome)).refreshes.lookup r' = _ at hf
    rw [lookup_setPhase] at hf
    split at hf
    · cases hf
      cases hl
    · exact h.launched r' k' phase hf hl
  · obtain ⟨phase, hf, hl⟩ := h.launching c k' want r' hc
    refine ⟨phase, ?_, hl⟩
    change (s.setPhase r k (.deregistered gen outcome)).refreshes.lookup r' = _
    rw [lookup_setPhase]
    split
    · rename_i hr
      subst hr
      cases task.symm.trans hf
      cases hl
    · exact hf

/-- **A step keeps the table and the tasks together.** -/
theorem Flight.step (h : Flight s) {e : Event K V} (hstep : Cache.Step s e s') : Flight s' := by
  cases hstep with
  | get c k now fresh =>
    exact h.calls rfl rfl (launching_setCall (s := s) (by simp) (not_launching_of_fresh fresh))
  | refresh c k fresh => exact h.calls rfl rfl (launching_setCall (by simp) (not_launching_of_fresh fresh))
  | peek k now => exact h.calls rfl rfl (fun _ _ _ _ => Iff.rfl)
  | join c r k want call running =>
    exact h.calls rfl rfl (launching_setCall (joined_not_launching k r want) (by simp [call]))
  | register c r k want call idle fresh => exact h.register call idle fresh
  | loadKey c r k k' want g call task => exact h.loadKey call task
  | loadGlobal _ _ _ _ _ _ task | fetchStart _ _ _ task | fetchDone _ _ _ _ task | recheckGlobal _ _ _ _ task
  | pass _ _ _ _ _ task | reject _ _ _ _ _ task | write _ _ _ _ _ _ task | send _ _ _ _ task =>
    exact h.phase task rfl rfl rfl rfl rfl rfl
  | deregister r k gen outcome task => exact h.deregister task
  | wake c r k outcome call sent =>
    exact h.calls rfl rfl (launching_setCall (woken_not_launching k outcome) (by simp [call]))
  | lookup _ _ _ call | remove _ _ call | clearEntries _ call =>
    exact h.calls rfl rfl (launching_setCall (s := s) (by simp) (by simp [call]))
  | invalidate c k fresh => exact h.calls rfl rfl (launching_setCall (s := s.bumpKey k) (by simp) (not_launching_of_fresh fresh))
  | invalidateAll c fresh =>
    exact h.calls rfl rfl (launching_setCall (s := s.bumpGlobal) (by simp) (not_launching_of_fresh fresh))
  | clearKeys c call => exact h.calls rfl rfl (launching_setCall (s := s.dropKeys) (by simp) (by simp [Cache.dropKeys, call]))

end Steps

/-! ## Who waits for what -/

/-- The call was given the refresh by `ensure_refresh`, when it was registered for the key. -/
def Joined (maxEntries maxBytes : Nat) (es : List (Event K V)) (c : Nat) (k : K) (r : Nat) : Prop :=
  ∃ pre post m, es = pre ++ .ensure c r :: post ∧
    (cache K V maxEntries maxBytes).run (pre ++ [.ensure c r]) = some m ∧ m.inflight.lookup k = some r

/-- **What a call waits for**: the one refresh it was given. -/
structure Waits (maxEntries maxBytes : Nat) (es : List (Event K V)) (s : Cache K V) : Prop where
  run : (cache K V maxEntries maxBytes).run es = some s
  flight : Flight s
  before : ∀ c, (∀ call, s.calls.lookup c = some call → ∃ k want, call = .starting k want) → ∀ r, .ensure c r ∉ es
  joined : ∀ c call k r, s.calls.lookup c = some call → call.waitsFor k r →
    Joined maxEntries maxBytes es c k r ∧ ∀ r', .ensure c r' ∈ es → r' = r

section Waits

variable {maxEntries maxBytes : Nat} {es : List (Event K V)} {s s' : Cache K V}

theorem Joined.more {c r : Nat} {k : K} (h : Joined maxEntries maxBytes es c k r) (e : Event K V) :
    Joined maxEntries maxBytes (es ++ [e]) c k r := by
  obtain ⟨pre, post, m, rfl, hrun, hk⟩ := h
  exact ⟨pre, post ++ [e], m, by simp, hrun, hk⟩

/-- Only a call that is starting is given a refresh, and it is not starting afterwards. -/
theorem ensure_starting {c r : Nat} (h : Cache.Step s (.ensure c r) s') :
    (∃ k want, s.calls.lookup c = some (.starting k want)) ∧
      ∃ call, s'.calls.lookup c = some call ∧ ∀ k want, call ≠ .starting k want := by
  cases h with
  | join _ _ k want call running =>
    refine ⟨⟨k, want, call⟩, _, by rw [lookup_setCall, if_pos rfl], fun k' want' => ?_⟩
    cases want <;> simp [Cache.joined]
  | register _ _ k want call idle fresh =>
    exact ⟨⟨k, want, call⟩, _, by rw [lookup_setCall, if_pos rfl], fun k' want' => by simp⟩

/-- A call that goes on is not starting any more. -/
theorem CallStep.started {c : Nat} {e : Event K V} {call call' : Call K V} (h : CallStep s c e call call') (k : K)
    (want : Want V) : call' ≠ .starting k want := by
  cases h with
  | join _ _ want' | loadKey _ _ _ want' => cases want' <;> simp [Cache.joined]
  | wake r k' outcome sent => cases outcome <;> simp [Cache.woken, Outcome.value]
  | _ => simp

/-- A call comes to wait by `ensure_refresh`, and is spawning the refresh in between if it registered it. -/
theorem CallStep.waitsFor {c : Nat} {e : Event K V} {call call' : Call K V} (h : CallStep s c e call call') {k : K}
    {r : Nat} (hw : call'.waitsFor k r) : call.waitsFor k r ∨ e = .ensure c r ∧ call = .starting k .wait := by
  cases h with
  | join _ _ want | register _ _ want =>
    cases want with
    | wait =>
      obtain ⟨rfl, rfl⟩ := hw
      exact .inr ⟨rfl, rfl⟩
    | read | nothing => exact absurd hw id
  | loadKey r' k' k'' want g task =>
    cases want with
    | wait => exact .inl hw
    | read | nothing => exact absurd hw id
  | wake r' k' outcome sent => cases outcome <;> exact absurd hw id
  | lookup now k' => exact absurd hw id
  | remove k' => exact absurd hw id
  | clearEntries => exact absurd hw id
  | clearKeys => exact absurd hw id

/-- What `ensure_refresh` gives is registered. -/
theorem ensure_registered {c r : Nat} {k : K} {want : Want V} (h : Cache.Step s (.ensure c r) s')
    (hc : s.calls.lookup c = some (.starting k want)) : s'.inflight.lookup k = some r := by
  cases h with
  | join _ _ k' want' call running =>
    cases hc.symm.trans call
    exact running
  | register _ _ k' want' call idle fresh =>
    cases hc.symm.trans call
    change (s.inflight.insert k r).lookup k = some r
    rw [Dict.lookup_insert_ite, if_pos rfl]

theorem Waits.step (h : Waits maxEntries maxBytes es s) {e : Event K V}
    (hs : (cache K V maxEntries maxBytes).step s e = some s') : Waits maxEntries maxBytes (es ++ [e]) s' := by
  have hstep := cache_step hs
  have hrun := ((cache K V maxEntries maxBytes).runFrom_concat).2 ⟨s, h.run, hs⟩
  refine ⟨hrun, h.flight.step hstep, fun c hstart r hmem => ?_, fun c call' k r hc' hw => ?_⟩
  · rcases List.mem_append.1 hmem with hmem | hmem
    · -- the call was starting before, too
      refine h.before c (fun call hc => ?_) r hmem
      rcases hstep.calls hc with hsame | ⟨call', hnew, hmove⟩
      · exact hstart call hsame
      · obtain ⟨k, want, heq⟩ := hstart call' hnew
        exact absurd heq (hmove.started k want)
    · cases List.mem_singleton.1 hmem
      obtain ⟨-, call, hcall, hnot⟩ := ensure_starting hstep
      obtain ⟨k, want, heq⟩ := hstart call hcall
      exact hnot k want heq
  · cases hc : s.calls.lookup c with
    | none =>
      cases hstep.begins hc hc' <;> exact absurd hw id
    | some call =>
      have hold : call.waitsFor k r → Joined maxEntries maxBytes (es ++ [e]) c k r ∧
          ∀ r', .ensure c r' ∈ es ++ [e] → r' = r := fun hwold => by
        obtain ⟨hjoined, honly⟩ := h.joined c call k r hc hwold
        refine ⟨hjoined.more e, fun r' hmem => ?_⟩
        rcases List.mem_append.1 hmem with hmem | hmem
        · exact honly r' hmem
        · cases List.mem_singleton.1 hmem
          obtain ⟨⟨k', want, hstart⟩, -⟩ := ensure_starting hstep
          cases hc.symm.trans hstart
          exact absurd hwold id
      rcases hstep.calls hc with hsame | ⟨call'', hnew, hmove⟩
      · cases hsame.symm.trans hc'
        exact hold hw
      · cases hnew.symm.trans hc'
        rcases hmove.waitsFor hw with hwold | ⟨rfl, rfl⟩
        · exact hold hwold
        · have hno := h.before c (fun call hcall => ⟨k, .wait, Option.some.inj (hcall.symm.trans hc)⟩)
          refine ⟨⟨es, [], s', rfl, hrun, ensure_registered hstep hc⟩, fun r' hmem => ?_⟩
          rcases List.mem_append.1 hmem with hmem | hmem
          · exact absurd hmem (hno r')
          · cases List.mem_singleton.1 hmem
            rfl

theorem waits_run (hrun : (cache K V maxEntries maxBytes).run es = some s) : Waits maxEntries maxBytes es s := by
  refine (cache K V maxEntries maxBytes).history_invariant ?_ (fun _ _ _ _ h _ hs => h.step hs) es s hrun
    (Machine.meets_true _ es _)
  refine ⟨rfl, Flight.new maxEntries maxBytes, fun c _ r hmem => ?_, fun c call k r hc => ?_⟩
  · cases hmem
  · simp [cache, Cache.new] at hc

/-! ## Outcomes -/

/-- An outcome that is sent stays. -/
theorem Cache.Step.sentOutcome {e : Event K V} (h : Cache.Step s e s') {r : Nat} {outcome : Outcome}
    (ho : s.sentOutcome r = some outcome) : s'.sentOutcome r = some outcome := by
  unfold Cache.sentOutcome at ho
  split at ho
  · rename_i k gen o hf
    cases ho
    rcases h.refreshes hf with hsame | ⟨phase, hnew, hadv, -⟩
    · simp [Cache.sentOutcome, hsame]
    · cases hadv
      simp [Cache.sentOutcome, hnew]
  · rename_i k gen o hf
    cases ho
    rcases h.refreshes hf with hsame | ⟨phase, hnew, hadv, -⟩
    · simp [Cache.sentOutcome, hsame]
    · cases hadv
  · cases ho

/-- How many steps a task has before it sends its outcome. -/
def Phase.left : Phase V → Nat
  | .registered => 8
  | .globalRead _ => 7
  | .spawned _ => 6
  | .fetching _ => 5
  | .fetched _ _ => 4
  | .rechecking _ _ _ => 3
  | .passed _ _ => 2
  | .finished _ _ => 1
  | .sent _ _ | .deregistered _ _ => 0

/-- **A task that has not sent its outcome has a next step.** -/
theorem Flight.advances (h : Flight s) (order : Iteration K) {r : Nat} {k : K} {phase : Phase V}
    (hf : s.refreshes.lookup r = some ⟨k, phase⟩) (hleft : 0 < phase.left) :
    ∃ e s' phase', s.step e = some s' ∧ s'.refreshes.lookup r = some ⟨k, phase'⟩ ∧ phase'.left < phase.left ∧
      ∀ c, e ≠ .wake c := by
  -- each step puts the task in its next phase
  have go : ∀ (e : Event K V) (s' : Cache K V) (phase' : Phase V), s.step e = some s' →
      s'.refreshes = (s.setPhase r k phase').refreshes → phase'.left < phase.left → (∀ c, e ≠ .wake c) →
      ∃ e s' phase', s.step e = some s' ∧ s'.refreshes.lookup r = some ⟨k, phase'⟩ ∧ phase'.left < phase.left ∧
        ∀ c, e ≠ .wake c := fun e s' phase' hs hset hlt hwake =>
    ⟨e, s', phase', hs, by rw [hset, lookup_setPhase, if_pos rfl], hlt, hwake⟩
  cases phase with
  | registered =>
    obtain ⟨c, want, hc⟩ := h.launched r k _ hf rfl
    exact go (.loadGlobal c) (s.setPhase r k (.globalRead s.globalGeneration)) _ (by simp only [Cache.step, hc, hf]) rfl
      (by simp [Phase.left]) (by simp)
  | globalRead g =>
    obtain ⟨c, want, hc⟩ := h.launched r k _ hf rfl
    exact go (.loadKey c) ((s.setPhase r k (.spawned (g, s.keyGen k))).setCall c (Cache.joined k r want))
      (.spawned (g, s.keyGen k)) (by simp only [Cache.step, hc, hf]) rfl (by simp [Phase.left]) (by simp)
  | spawned gen =>
    exact go (.fetchStart r) (s.setPhase r k (.fetching gen)) _ (by simp only [Cache.step, hf]) rfl (by simp [Phase.left])
      (by simp)
  | fetching gen =>
    exact go (.fetchDone r (.ok none)) (s.setPhase r k (.fetched gen (.ok none))) _ (by simp only [Cache.step, hf]) rfl
      (by simp [Phase.left]) (by simp)
  | fetched gen result =>
    exact go (.recheckGlobal r) (s.setPhase r k (.rechecking gen result s.globalGeneration)) _
      (by simp only [Cache.step, hf]) rfl (by simp [Phase.left]) (by simp)
  | rechecking gen result g =>
    refine go (.recheckKey r) (s.setPhase r k (if gen = (g, s.keyGen k) then .passed gen result else .finished gen .invalidated)) _
      (by simp only [Cache.step, hf]) rfl ?_ (by simp)
    split <;> simp [Phase.left]
  | passed gen result =>
    exact go (.write r 0 order) ({ s with entries := (s.written k 0 order result).1 }.setPhase r k
      (.finished gen (s.written k 0 order result).2)) _ (by simp only [Cache.step, hf]) rfl (by simp [Phase.left]) (by simp)
  | finished gen outcome =>
    exact go (.send r) (s.setPhase r k (.sent gen outcome)) _ (by simp only [Cache.step, hf]) rfl (by simp [Phase.left])
      (by simp)
  | sent | deregistered => cases hleft

/-- A waiting call waits on until it is woken. -/
theorem Cache.Step.waitsFor {e : Event K V} (h : Cache.Step s e s') {c r : Nat} {k : K}
    (hc : ∃ call, s.calls.lookup c = some call ∧ call.waitsFor k r) (hwake : e ≠ .wake c) :
    ∃ call, s'.calls.lookup c = some call ∧ call.waitsFor k r := by
  obtain ⟨call, hcall, hw⟩ := hc
  rcases h.calls hcall with hsame | ⟨call', hnew, hmove⟩
  · exact ⟨call, hsame, hw⟩
  · refine ⟨call', hnew, ?_⟩
    cases hmove with
    | loadKey r' k' k'' want g task => cases want <;> exact hw
    | wake r' k' outcome sent => exact absurd rfl hwake
    | _ => exact absurd hw id

/-- **From any state the task of a waiting call can come to its outcome, and the call to see it.** -/
theorem served_of_left (order : Iteration K) : ∀ (n : Nat) {s : Cache K V} {c r : Nat} {k : K} {phase : Phase V},
    Flight s → s.refreshes.lookup r = some ⟨k, phase⟩ → phase.left ≤ n →
    (∃ call, s.calls.lookup c = some call ∧ call.waitsFor k r) →
    ∃ fs t outcome, (cache K V maxEntries maxBytes).runFrom s (fs ++ [.wake c]) = some t ∧
      t.sentOutcome r = some outcome ∧ t.calls.lookup c = some (Cache.woken k outcome)
  | n, s, c, r, k, phase, h, hf, hn, ⟨call, hc, hw⟩ => by
    by_cases hleft : phase.left = 0
    · -- the outcome is sent, so the call is not spawning the task any more
      obtain ⟨outcome, hsent⟩ : ∃ outcome, s.sentOutcome r = some outcome := by
        cases phase <;> simp_all [Phase.left, Cache.sentOutcome]
      have hwait : call = .waiting k r := by
        cases call with
        | launching k' want r' =>
          obtain ⟨phase', hf', hl⟩ := h.launching c k' want r' hc
          cases want with
          | wait =>
            obtain ⟨rfl, rfl⟩ := hw
            cases hf.symm.trans hf'
            cases phase <;> simp_all [Phase.left, Phase.launching]
          | read | nothing => exact absurd hw id
        | waiting k' r' =>
          obtain ⟨rfl, rfl⟩ := hw
          rfl
        | _ => exact absurd hw id
      subst hwait
      refine ⟨[], s.setCall c (Cache.woken k outcome), outcome, ?_, hsent, by rw [lookup_setCall, if_pos rfl]⟩
      rw [List.nil_append, Machine.runFrom_cons]
      exact ⟨_, by simp only [cache, Cache.step, hc, hsent, Option.map_some], rfl⟩
    · obtain ⟨e, s', phase', hs, hf', hlt, hwake⟩ := h.advances order hf (Nat.pos_of_ne_zero hleft)
      have hstep := Cache.step_cases hs
      obtain ⟨m, rfl⟩ : ∃ m, n = m + 1 := ⟨n - 1, by omega⟩
      obtain ⟨fs, t, outcome, hrun, ht⟩ := served_of_left order m (h.step hstep) hf' (by omega)
        (hstep.waitsFor ⟨call, hc, hw⟩ (hwake c))
      exact ⟨e :: fs, t, outcome, (Machine.runFrom_cons _).2 ⟨s', hs, hrun⟩, ht⟩

end Waits

/-! ## One refresh per key -/

/-- What a call that waits for the key becomes when it sees an outcome: it goes on to look the entry up, or returns the
error that the refresh reports. -/
inductive Observes (k : K) : Outcome → Call K V → Prop where
  | stored : Observes k .stored (.found k)
  | failed (error : String) : Observes k (.failed error) (.returned k (.error (.unavailable error)))
  | invalidated : Observes k .invalidated (.returned k (.error (.unavailable "cache invalidated")))

theorem observes_woken (k : K) (outcome : Outcome) : Observes k outcome (Cache.woken (V := V) k outcome) := by
  cases outcome with
  | stored => exact .stored
  | failed error => exact .failed error
  | invalidated => exact .invalidated

/-- **One refresh per key**: `es` has led to `s`. -/
structure SingleFlight (maxEntries maxBytes : Nat) (es : List (Event K V)) (s : Cache K V) : Prop where
  unique : ∀ k r r', Running s r k → Running s r' k → r = r'
  inflight : ∀ k, k ∈ s.inflight ↔ ∃ r, Running s r k
  -- a call waits for the one refresh it was given, which was registered for its key at that moment
  waits : ∀ c call k r, s.calls.lookup c = some call → call.waitsFor k r →
    Joined maxEntries maxBytes es c k r ∧ ∀ r', .ensure c r' ∈ es → r' = r
  -- what it then sees is the outcome of that refresh, which is always the same
  observes : ∀ c t, (cache K V maxEntries maxBytes).step s (.wake c) = some t → ∃ k r outcome call,
    s.calls.lookup c = some (.waiting k r) ∧ s.sentOutcome r = some outcome ∧
    t.calls.lookup c = some call ∧ Observes k outcome call
  settled : ∀ r outcome fs t, s.sentOutcome r = some outcome → (cache K V maxEntries maxBytes).runFrom s fs = some t →
    t.sentOutcome r = some outcome
  -- and it can always come to see it
  served : ∀ c call k r, s.calls.lookup c = some call → call.waitsFor k r → ∃ fs t outcome call',
    (cache K V maxEntries maxBytes).runFrom s (fs ++ [.wake c]) = some t ∧ t.sentOutcome r = some outcome ∧
    t.calls.lookup c = some call' ∧ Observes k outcome call'

/-- **At most one fetch per key.**  In every run of the cache, at every moment: at most one task is registered for a key,
`inflight` holds the key exactly when there is one, and a call that waits sees the outcome of the one task that it was
given, which was registered then. -/
theorem single_flight {K V : Type} [DecidableEq K] [DecidableEq V] (maxEntries maxBytes : Nat) (es : List (Event K V))
    (s : Cache K V) (hrun : (cache K V maxEntries maxBytes).run es = some s) :
    SingleFlight maxEntries maxBytes es s := by
  have hw := waits_run hrun
  have hf := hw.flight
  refine ⟨fun k r r' hr hr' => ?_, fun k => ?_, hw.joined, fun c t ht => ?_, fun r outcome fs t ho ht => ?_,
    fun c call k r hc hwait => ?_⟩
  · exact Option.some.inj (((hf.inflight k r).2 hr).symm.trans ((hf.inflight k r').2 hr'))
  · rw [Finmap.mem_iff]
    exact exists_congr (fun r => hf.inflight k r)
  · cases cache_step ht with
    | wake _ r k outcome call sent =>
      exact ⟨k, r, outcome, _, call, sent, by rw [lookup_setCall, if_pos rfl], observes_woken k outcome⟩
  · exact (cache K V maxEntries maxBytes).invariant_from (P := fun s => s.sentOutcome r = some outcome)
      (fun _ _ _ hP _ hs => (cache_step hs).sentOutcome hP) fs s t ho (Machine.meets_true _ fs s) ht
  · -- the task of a waiting call has a name in every later state
    obtain ⟨⟨pre, post, m, heq, hm, hk⟩, -⟩ := hw.joined c call k r hc hwait
    have hpost : (cache K V maxEntries maxBytes).runFrom m post = some s := by
      rw [heq, List.append_cons] at hrun
      obtain ⟨m', hm', hrest⟩ := (Machine.runFrom_append _ _ _ _).1 hrun
      cases hm.symm.trans hm'
      exact hrest
    obtain ⟨f, hlookup, hkey, -⟩ := ((waits_run hm).flight.inflight k r).1 hk
    obtain ⟨⟨k', phase⟩, hs, rfl⟩ := runFrom_key hpost ⟨f, hlookup, hkey⟩
    obtain ⟨fs, t, outcome, hfs, hsent, hcall⟩ :=
      served_of_left ⟨Finset.toList, Finset.coe_toList⟩ phase.left hf hs (Nat.le_refl _) ⟨call, hc, hwait⟩
    exact ⟨fs, t, outcome, _, hfs, hsent, hcall, observes_woken _ outcome⟩

/-- Two cold reads of one key, whose refresh stores the number 7. -/
def twoReads : List (Event Unit Nat) :=
  [.get 0 () 0, .get 1 () 0, .ensure 0 0, .ensure 1 0, .loadGlobal 0, .loadKey 0, .fetchStart 0,
    .fetchDone 0 (.ok (some ⟨7, none, 1⟩)), .recheckGlobal 0, .recheckKey 0, .write 0 0 (Iteration.ascending Unit), .send 0]

/-- Both wait for the one refresh, and the second, when it is woken, has its entry to look up. -/
theorem two_reads_share : ∃ s t : Cache Unit Nat, (cache Unit Nat 16 1024).run twoReads = some s ∧
    (s.calls.lookup 0 = some (.waiting () 0) ∧ s.calls.lookup 1 = some (.waiting () 0) ∧
      s.sentOutcome 0 = some .stored) ∧
    (cache Unit Nat 16 1024).step s (.wake 1) = some t ∧ t.calls.lookup 1 = some (.found ()) ∧
    SingleFlight 16 1024 twoReads s := by
  obtain ⟨s, hrun, hs⟩ := (cache Unit Nat 16 1024).exists_of_check (fun s => decide
    (s.calls.lookup 0 = some (.waiting () 0) ∧ s.calls.lookup 1 = some (.waiting () 0) ∧
      s.sentOutcome 0 = some .stored)) twoReads (by decide +kernel)
  have hs' := of_decide_eq_true hs
  refine ⟨s, s.setCall 1 (.found ()), hrun, hs', ?_, ?_, single_flight 16 1024 twoReads s hrun⟩
  · simp only [cache, Cache.step, hs'.2.1, hs'.2.2]
    rfl
  · rw [lookup_setCall, if_pos rfl]

end Dht
end NexusNet
