import NexusNet.RegistryGrace
/-!
# RegistryRetry — no ready service stays unannounced

A service that is ready and not announced comes up in two passes of `plan`: with its retry time when that has passed, and
in the list of the configured services when it has none.  With a slot for every configured service the slots do not run
out before it, because every job takes one service that is configured and has no job (`Open`).  Its retry time is at most
a minute ahead, and after failures it is the time of the last one and the delay for their number (`retry_failed`).
-/
namespace NexusNet
namespace Registry

open RegistryState

/-! ## Slots -/

/-- The services with a job, as the state records it. -/
def RegistryState.occupied (st : RegistryState) : Finset String := st.withdrawInflight ∪ st.announceInflight

theorem inFlight_iff_occupied {st : RegistryState} {y : String} : st.inFlight y = true ↔ y ∈ st.occupied := by
  rw [inFlight_eq_true, RegistryState.occupied, Finset.mem_union]

theorem notMem_occupied {st : RegistryState} {y : String} (h : st.inFlight y = false) : y ∉ st.occupied := fun hmem => by
  rw [inFlight_iff_occupied.2 hmem] at h
  cases h

/-- What starting a job for a service does: it occupies the service and leaves the retry times of all others. -/
structure Occupies (start : RegistryState → String → RegistryState) : Prop where
  kept : ∀ st y, Kept st (start st y)
  occupied : ∀ st y, (start st y).occupied = insert y st.occupied
  retry : ∀ st y z, z ≠ y → (start st y).announceRetryAt.lookup z = st.announceRetryAt.lookup z

theorem occupies_startWithdraw : Occupies startWithdraw where
  kept := fun _ _ => ⟨rfl, rfl, rfl, rfl, rfl, rfl, rfl, rfl, rfl⟩
  occupied := fun _ _ => Finset.insert_union ..
  retry := fun _ _ _ _ => rfl

theorem occupies_startAnnounce : Occupies startAnnounce where
  kept := fun _ _ => ⟨rfl, rfl, rfl, rfl, rfl, rfl, rfl, rfl, rfl⟩
  occupied := fun _ _ => Finset.union_insert ..
  retry := fun st y z hz => by rw [startAnnounce, Dict.lookup_erase_ite, if_neg hz]

/-- **The service is still open in a planning call**: it has no job, and there are slots for all services of `all` that
have none. -/
structure Open (all : Finset String) (st : RegistryState) (x : String) (p : Planner) : Prop where
  kept : Kept st p.st
  free : x ∉ p.st.occupied
  slots : all.card ≤ p.slots + p.st.occupied.card
  inside : p.st.occupied ⊆ all
  retry : p.st.announceRetryAt.lookup x = st.announceRetryAt.lookup x

section Pass

variable {all : Finset String} {st : RegistryState} {x : String}

theorem Open.slots_pos {p : Planner} (h : Open all st x p) (hx : x ∈ all) : p.slots ≠ 0 := by
  have hlt : p.st.occupied.card < all.card :=
    Finset.card_lt_card ⟨h.inside, fun hsub => h.free (hsub hx)⟩
  have := h.slots
  omega

theorem Open.start {p : Planner} (h : Open all st x p) {start : RegistryState → String → RegistryState}
    (hstart : Occupies start) {y : String} (hy : y ∈ all) (hfree : p.st.inFlight y = false) (hne : y ≠ x)
    (jobs : List JobSpec) : Open all st x ⟨start p.st y, p.slots - 1, jobs⟩ where
  kept := h.kept.trans (hstart.kept p.st y)
  free := by
    rw [hstart.occupied, Finset.mem_insert, not_or]
    exact ⟨Ne.symm hne, h.free⟩
  slots := by
    have := h.slots
    simp only [hstart.occupied, Finset.card_insert_of_notMem (notMem_occupied hfree)]
    omega
  inside := by
    rw [hstart.occupied]
    exact Finset.insert_subset hy h.inside
  retry := (hstart.retry p.st y x (Ne.symm hne)).trans h.retry

variable {skip : RegistryState → String → Bool} {start : RegistryState → String → RegistryState}
  (job : UInt64 → String → JobSpec)

/-- **A pass starts the job of an open service or leaves it open**, and it does start it if the service is listed and not
passed over. -/
theorem pass_open (hstart : Occupies start) (hfree : ∀ st' y, skip st' y = false → st'.inFlight y = false)
    (hx : x ∈ all) : ∀ (l : List String) (p : Planner), (∀ y ∈ l, y ∈ all) → Open all st x p →
      (x ∈ l ∧ job st.generation x ∈ (RegistryState.pass skip start job l p).jobs) ∨
      (Open all st x (RegistryState.pass skip start job l p) ∧ (x ∈ l → ∃ p', Open all st x p' ∧ skip p'.st x = true))
  | [], p, _, hopen => .inr ⟨hopen, fun hmem => by cases hmem⟩
  | y :: rest, p, hall, hopen => by
    have hslots := hopen.slots_pos hx
    have hrest := fun z hz => hall z (List.mem_cons_of_mem y hz)
    unfold RegistryState.pass
    rw [if_neg hslots]
    by_cases hskip : skip p.st y = true
    · rw [if_pos hskip]
      rcases pass_open hstart hfree hx rest p hrest hopen with ⟨hmem, hjob⟩ | ⟨hleft, hpassed⟩
      · exact .inl ⟨List.mem_cons_of_mem y hmem, hjob⟩
      · refine .inr ⟨hleft, fun hmem => ?_⟩
        rcases List.mem_cons.1 hmem with rfl | hmem
        · exact ⟨p, hopen, hskip⟩
        · exact hpassed hmem
    · rw [if_neg hskip]
      by_cases hyx : y = x
      · subst hyx
        refine .inl ⟨List.mem_cons_self, jobs_subset_pass rest _ ?_⟩
        rw [hopen.kept.generation]
        exact List.mem_append_right _ (List.mem_singleton.2 rfl)
      · have hnext := hopen.start hstart (hall y List.mem_cons_self)
          (hfree _ _ (Bool.eq_false_iff.2 hskip)) hyx (p.jobs ++ [job p.st.generation y])
        rcases pass_open hstart hfree hx rest _ hrest hnext with ⟨hmem, hjob⟩ | ⟨hleft, hpassed⟩
        · exact .inl ⟨List.mem_cons_of_mem y hmem, hjob⟩
        · exact .inr ⟨hleft, fun hmem => hpassed ((List.mem_cons.1 hmem).resolve_left (Ne.symm hyx))⟩

end Pass

/-! ## The planning call -/

/-- The service is up, may be announced, and has no job. -/
structure Announceable (names : List String) (st : RegistryState) (x : String) : Prop where
  bootstrapped : st.bootstrapped = true
  relayReady : st.relayReady = true
  configured : x ∈ names
  backendReady : x ∈ st.backendReady
  notAnnounced : x ∉ st.announced
  free : st.inFlight x = false

section Plan

variable {names : List String} {st : RegistryState} {x : String}

/-- An open service with no retry time ahead is not passed over. -/
theorem Open.not_skipped {all : Finset String} {p : Planner} {now : Instant} (h : Open all st x p)
    (hready : x ∈ st.backendReady) (hnot : x ∉ st.announced) (hdue : ∀ t ∈ st.announceRetryAt.lookup x, t ≤ now) :
    skipAnnounce now p.st x = false := by
  rw [skipAnnounce_iff, h.kept.backendReady, h.kept.announced, h.retry]
  exact ⟨Bool.eq_false_iff.2 (fun hin => h.free (inFlight_iff_occupied.1 hin)), hready, hnot, hdue⟩

theorem skipAnnounce_free {now : Instant} (st' : RegistryState) (y : String) (h : skipAnnounce now st' y = false) :
    st'.inFlight y = false := (skipAnnounce_iff.1 h).1

/-- **With a slot for every service an announcement that is due is planned.** -/
theorem announce_planned {env : Env} {now : Instant} {slots : Nat} {J : Multiset JobSpec} (hgated : Gated names st J)
    (hempty : st.relayWithdraw = ∅) (h : Announceable names st x) (hnames : localNames env.config = names)
    (hslots : names.length ≤ slots) (hdue : ∀ t ∈ st.announceRetryAt.lookup x, t ≤ now) :
    announceJob st.generation x ∈ (st.plan env now slots).1 := by
  have hx : x ∈ names.toFinset := List.mem_toFinset.2 h.configured
  have htouched : ∀ y, Touched st y → y ∈ names.toFinset := fun y hy => List.mem_toFinset.2 (hgated.touched y hy).1
  have hinside : st.occupied ⊆ names.toFinset := fun y hy => htouched y (by
    rcases Finset.mem_union.1 hy with hy | hy <;> simp [Touched, hy])
  have hopen : Open names.toFinset st x ⟨st, slots, []⟩ :=
    ⟨Kept.refl st, notMem_occupied h.free, (names.toFinset_card_le.trans hslots).trans (Nat.le_add_right _ _), hinside, rfl⟩
  unfold RegistryState.plan
  simp only
  -- a ready service is not withdrawn
  have hup : x ∉ sorted (st.dueWithdrawals now) := fun hmem => by
    rw [mem_sorted, dueWithdrawals, hempty, Finset.filter_empty, Finset.union_empty, Finset.mem_filter] at hmem
    exact hmem.2 h.backendReady
  obtain ⟨hlisted, -⟩ | ⟨hopen₁, -⟩ := pass_open withdrawJob occupies_startWithdraw (fun _ _ => id) hx
    (sorted (st.dueWithdrawals now)) _ (fun y hy => htouched y (touched_of_dueWithdrawals (mem_sorted.1 hy))) hopen
  · exact absurd hlisted hup
  change Open _ _ _ (withdrawPass _ _) at hopen₁
  have hretries := withdrawPass_announceRetryAt (sorted (st.dueWithdrawals now)) ⟨st, slots, []⟩
  generalize withdrawPass (sorted (st.dueWithdrawals now)) ⟨st, slots, []⟩ = p₁ at hopen₁ hretries ⊢
  -- the job is in the plan once a pass has started it
  have hstays : ∀ p : Planner, announceJob st.generation x ∈ p.jobs →
      announceJob st.generation x ∈ (reconcilePass now (firstAnnounces env now p)).jobs := fun p hjob => by
    obtain ⟨js, hjs, -, -⟩ := reconcilePass_steps env now st (firstAnnounces env now p)
    rw [hjs]
    refine List.mem_append_left _ ?_
    unfold firstAnnounces
    split
    · exact jobs_subset_pass _ _ hjob
    · exact hjob
  obtain ⟨-, hjob⟩ | ⟨hopen₂, -⟩ := pass_open announceJob occupies_startAnnounce (fun _ _ => id) hx
    (sorted (p₁.st.dueRetries now)) p₁
    (fun y hy => htouched y (touched_of_dueRetries (dueRetries_kept hopen₁.kept hretries ▸ mem_sorted.1 hy))) hopen₁
  · exact hstays _ hjob
  change Open _ _ _ (retryPass _ _) at hopen₂
  generalize retryPass (sorted (p₁.st.dueRetries now)) p₁ = p₂ at hopen₂ ⊢
  obtain ⟨js, hjs, -, -⟩ := reconcilePass_steps env now st (firstAnnounces env now p₂)
  rw [hjs]
  refine List.mem_append_left _ ?_
  have hgo : p₂.st.bootstrapped = true ∧ p₂.st.relayReady = true ∧ 0 < p₂.slots :=
    ⟨hopen₂.kept.bootstrapped.trans h.bootstrapped, hopen₂.kept.relayReady.trans h.relayReady,
      Nat.pos_of_ne_zero (hopen₂.slots_pos hx)⟩
  rw [firstAnnounces, if_pos hgo, hnames]
  obtain ⟨-, hjob⟩ | ⟨-, hpassed⟩ := pass_open announceJob occupies_startAnnounce skipAnnounce_free hx names p₂
    (fun y hy => List.mem_toFinset.2 hy) hopen₂
  · exact hjob
  · obtain ⟨p', hopen', hskip⟩ := hpassed h.configured
    rw [hopen'.not_skipped h.backendReady h.notAnnounced hdue] at hskip
    cases hskip

/-- What a planning step leaves of the services that have no job. -/
theorem PlanStep.free_retry {env : Env} {now : Instant} {st₀ a b : RegistryState} {o : Option JobSpec}
    (hs : PlanStep env now st₀ a o b) {y : String} (hy : b.inFlight y = false) :
    b.announceRetryAt.lookup y = a.announceRetryAt.lookup y := by
  have hne : ∀ z, b.occupied = insert z a.occupied → y ≠ z := fun z hocc heq =>
    notMem_occupied hy (by rw [hocc, heq]; exact Finset.mem_insert_self _ _)
  cases hs with
  | retry z due free => exact occupies_startAnnounce.retry a z y (hne z (occupies_startAnnounce.occupied a z))
  | announce z boot relay mine go =>
    exact occupies_startAnnounce.retry a z y (hne z (occupies_startAnnounce.occupied a z))
  | _ => rfl

/-- **An announcement that is planned is due.** -/
theorem planned_due {env : Env} {now : Instant} {slots : Nat} {j : JobSpec} (hj : j ∈ (st.plan env now slots).1)
    (hkind : j.kind = .announce x) : ∀ t ∈ st.announceRetryAt.lookup x, t ≤ now := by
  -- a service without a job has the retry time it had at the call
  have key := (plan_steps env st now slots).1.invariant (J := 0)
    (P := fun a J => (∀ y, a.inFlight y = false → a.announceRetryAt.lookup y = st.announceRetryAt.lookup y) ∧
      ∀ j ∈ J, j.kind = .announce x → ∀ t ∈ st.announceRetryAt.lookup x, t ≤ now)
    (fun a o b J _ hs hP => ?_) ⟨fun _ _ => rfl, by simp⟩
  · exact key.2 j (by simpa using hj) hkind
  refine ⟨fun y hy => ?_, fun i hi hkind => ?_⟩
  · exact (PlanStep.free_retry hs hy).trans (hP.1 y (PlanStep.inFlight_before hs hy))
  rcases Multiset.mem_add.1 hi with hi | hi
  · exact hP.2 i hi hkind
  have hi := Option.mem_toList.1 (Multiset.mem_coe.1 hi)
  cases hs with
  | withdraw | readTypes | writeTypes => cases hi; cases hkind
  | retry y due free =>
    cases hi
    obtain rfl : y = x := by simpa [announceJob, JobSpec.kind] using hkind
    obtain ⟨t, ht, hle⟩ := Dict.mem_due.1 (Finset.mem_filter.1 due).1
    intro t' ht'
    cases ht.symm.trans ht'
    exact hle
  | announce y boot relay mine go =>
    cases hi
    obtain rfl : y = x := by simpa [announceJob, JobSpec.kind] using hkind
    obtain ⟨hfree, -, -, hdue⟩ := skipAnnounce_iff.1 go
    rwa [hP.1 y hfree] at hdue
  | dropWrite ready pending => cases hi

end Plan

/-! ## Retry times -/

section Retry

variable {s s' : System} {e : Event} {x : String} {t : Instant}

theorem retryDelay_le (failures : Nat) : retryDelay failures ≤ announceRetryMax := Nat.min_le_right _ _

theorem Applied.retry {st st' : RegistryState} {now : Instant} {r : JobResult} (happlied : Applied st now r st')
    (h : st'.announceRetryAt.lookup x = some t) :
    st.announceRetryAt.lookup x = some t ∨ t ≤ now + announceRetryMax := by
  have erased : ∀ y, (st.announceRetryAt.erase y).lookup x = some t → st.announceRetryAt.lookup x = some t :=
    fun y hy => by
      rw [Dict.lookup_erase_ite] at hy
      split at hy
      · cases hy
      · exact hy
  have inserted : ∀ y t', (st.announceRetryAt.insert y t').lookup x = some t → t' ≤ now + announceRetryMax →
      st.announceRetryAt.lookup x = some t ∨ t ≤ now + announceRetryMax := fun y t' hy hle => by
    rw [Dict.lookup_insert_ite] at hy
    split at hy
    · cases hy
      exact .inr hle
    · exact .inl hy
  cases happlied with
  | announcedNoRelay y | announcedUp y | announcedDown y => exact .inl (erased y h)
  | announceFailedUp y error failures up boot =>
    exact inserted y _ h (Nat.add_le_add_left (retryDelay_le failures) now)
  | withdrawnUp y up relay => exact inserted y _ h (Nat.le_add_right _ _)
  | withdrawFailedUp y error free up => exact inserted y _ h (Nat.le_add_right _ _)
  | _ => exact .inl h

theorem handle_retry (st : RegistryState) (c : ServiceCommand) (now : Instant) :
    (st.handle c now).announceRetryAt = st.announceRetryAt ∨ (st.handle c now).announceRetryAt = ∅ := by
  cases c with
  | bootstrapCompleted | reannounce | reset => exact .inr rfl
  | relayStateChanged needRelay active =>
    rw [handle]
    rcases relayStateChanged_cases st needRelay active with ⟨-, hst⟩ | ⟨-, -, hst⟩ | ⟨-, -, hst⟩ <;> rw [hst]
    · exact .inl rfl
    · exact .inr rfl
    · exact .inr rfl
  | _ => exact .inl rfl

theorem PlanStep.retry {env : Env} {now : Instant} {st₀ a b : RegistryState} {o : Option JobSpec}
    (hs : PlanStep env now st₀ a o b) (hx : ∀ j ∈ o, ¬ j.serves x) :
    b.announceRetryAt.lookup x = a.announceRetryAt.lookup x := by
  have hne : ∀ y, (o = some (announceJob a.generation y)) → x ≠ y := fun y ho heq =>
    hx _ ho (heq ▸ .inl rfl)
  cases hs with
  | retry y | announce y => exact occupies_startAnnounce.retry a y x (hne y rfl)
  | _ => rfl

theorem PlanStep.retry_old {env : Env} {now : Instant} {st₀ a b : RegistryState} {o : Option JobSpec}
    (hs : PlanStep env now st₀ a o b) (h : b.announceRetryAt.lookup x = some t) :
    a.announceRetryAt.lookup x = some t := by
  have erased : ∀ y, (a.startAnnounce y).announceRetryAt.lookup x = some t → a.announceRetryAt.lookup x = some t :=
    fun y hy => by
      simp only [startAnnounce, Dict.lookup_erase_ite] at hy
      split at hy
      · cases hy
      · exact hy
  cases hs with
  | retry y | announce y => exact erased y h
  | _ => exact h

/-- Where a retry time comes from: it was there before, or it is at most a minute ahead. -/
theorem retry_step (hs : registry.step s e = some s') (h : s'.reg.announceRetryAt.lookup x = some t) :
    s.reg.announceRetryAt.lookup x = some t ∨ t ≤ s'.clock + announceRetryMax := by
  obtain ⟨-, -, rfl⟩ := step_eq_some.1 hs
  cases e with
  | command c now =>
    simp only [next] at h
    rcases handle_retry s.reg c now with heq | heq <;> rw [heq] at h
    · exact .inl h
    · cases h
  | readiness ready now =>
    simp only [next, replaceBackendReady, Dict.lookup_eraseAll] at h
    split at h
    · cases h
    · split at h
      · cases h
      · exact .inl h
  | plan env now slots =>
    refine .inl ((plan_steps env s.reg now slots).1.invariant (J := 0)
      (P := fun a _ => a.announceRetryAt.lookup x = some t → s.reg.announceRetryAt.lookup x = some t)
      (fun _ _ _ _ _ hs hP h' => hP (PlanStep.retry_old hs h')) id h)
  | complete env _ result now | stale env result now => exact (apply_applied env s.reg now result).retry h

/-- **A retry time is at most a minute ahead.** -/
theorem retry_bounded {es : List Event} (hr : registry.run es = some s) :
    ∀ x t, s.reg.announceRetryAt.lookup x = some t → t ≤ s.clock + announceRetryMax :=
  registry.invariant_from (P := fun s => ∀ x t, s.reg.announceRetryAt.lookup x = some t → t ≤ s.clock + announceRetryMax)
    (fun s e s' h _ hs x t ht => by
      rcases retry_step hs ht with hold | hnew
      · exact (h x t hold).trans (Nat.add_le_add_right (clock_step hs) _)
      · exact hnew)
    es registry.init s (fun x t h => by cases h) (registry.meets_true es _) hr

end Retry

/-! ## Failures in a row -/

/-- What an event says of a service's failures: they count anew, or there is one more. -/
inductive Mark where
  | restarted
  | failed
deriving DecidableEq

/-- The end of an announcement of the service, or of everything. -/
def Event.ended (x : String) (s : System) : Event → Option Mark
  | .command .reset _ => some .restarted
  | .complete _ _ (.announced _ y (.ok ())) _ => if y = x then some .restarted else none
  | .complete _ _ (.announced _ y (.error _)) _ => if y = x ∧ x ∈ s.reg.backendReady then some .failed else none
  | _ => none

/-- The failures count anew with a successful announcement, a `Reset`, when the service becomes ready and when a relay
does; a failure counts while the service is ready. -/
def Event.mark (x : String) (s : System) (e : Event) : Option Mark :=
  if (x ∉ s.reg.backendReady ∧ x ∈ (next s e).reg.backendReady) ∨
      (s.reg.relayReady = false ∧ (next s e).reg.relayReady = true) then some .restarted
  else e.ended x s

def marks (x : String) (es : List Event) : List Mark :=
  registry.outputs (fun s e => (e.mark x s).toList) registry.init es

/-- **The number of failures since they last counted anew.** -/
def failures (x : String) (es : List Event) : Nat := ((marks x es).reverse.takeWhile (· = .failed)).length

section Failures

variable {es : List Event} {s s' : System} {e : Event} {x : String}

theorem failures_concat (hr : registry.run es = some s) : failures x (es ++ [e]) =
    match e.mark x s with
    | some .restarted => 0
    | some .failed => failures x es + 1
    | none => failures x es := by
  have hmarks : marks x (es ++ [e]) = marks x es ++ (e.mark x s).toList := by
    rw [marks, registry.outputs_append hr, registry.outputs_singleton, marks]
  rw [failures, hmarks]
  cases hmark : e.mark x s with
  | none => simp [failures]
  | some mark => cases mark <;> simp [failures]

theorem mark_eq_ended (hready : (next s e).reg.backendReady = s.reg.backendReady)
    (hrelay : (next s e).reg.relayReady = s.reg.relayReady) : e.mark x s = e.ended x s := by
  rw [Event.mark, hready, hrelay, if_neg]
  rintro (⟨hdown, hup⟩ | ⟨hlost, hback⟩)
  · exact hdown hup
  · cases hlost.symm.trans hback

theorem mark_complete (env : Env) (job : JobSpec) (result : JobResult) (now : Instant) :
    (Event.complete env job result now).mark x s = (Event.complete env job result now).ended x s :=
  mark_eq_ended (apply_standing env s.reg now result).backendReady (apply_standing env s.reg now result).relayReady

/-- **What an event does to the failures the state counts.** -/
def Recounts (x : String) (st st' : RegistryState) : Option Mark → Prop
  | some .restarted => st'.announceFailures.lookup x = none
  | some .failed => st'.announceFailures.lookup x = some (min ((st.announceFailures.lookup x).getD 0 + 1) (2 ^ 32 - 1))
  | none => st'.announceFailures.lookup x = st.announceFailures.lookup x

theorem recounts_handle (c : ServiceCommand) (now : Instant) :
    Recounts x s.reg (s.reg.handle c now) ((Event.command c now).mark x s) := by
  have hready : (next s (.command c now)).reg.backendReady = s.reg.backendReady := handle_backendReady s.reg c now
  cases c with
  | relayStateChanged needRelay active =>
    rcases relayStateChanged_cases s.reg needRelay active with ⟨hsame, hst⟩ | ⟨hlost, hback, hst⟩ | ⟨hon, hoff, hst⟩
    · rw [mark_eq_ended hready (by rw [next, handle, hst, hsame]), handle, hst]
      exact rfl
    · have hrelay : (next s (.command (.relayStateChanged needRelay active) now)).reg.relayReady = true := by
        rw [next, handle, hst]
        exact relayReady_eq_true.2 hback
      rw [Event.mark, if_pos (.inr ⟨hlost, hrelay⟩), handle, hst]
      exact Finmap.lookup_empty x
    · rw [Event.mark, if_neg, handle, hst]
      · exact rfl
      · rintro (⟨hdown, hup⟩ | ⟨hlost, -⟩)
        · exact hdown (hready ▸ hup)
        · cases hlost.symm.trans hon
  | reset =>
    have hmark : (Event.command .reset now).mark x s = some .restarted := by
      rw [Event.mark]
      split <;> rfl
    rw [hmark]
    exact Finmap.lookup_empty x
  | _ => rw [mark_eq_ended hready rfl]; exact rfl

theorem recounts_readiness (ready : Finset String) (now : Instant) :
    Recounts x s.reg (s.reg.replaceBackendReady ready now) ((Event.readiness ready now).mark x s) := by
  by_cases hup : x ∉ s.reg.backendReady ∧ x ∈ ready
  · rw [Event.mark, if_pos (.inl hup)]
    simp only [Recounts, replaceBackendReady, Dict.lookup_eraseAll]
    rw [if_pos (mem_sorted.2 (Finset.mem_sdiff.2 hup.symm))]
  · rw [Event.mark, if_neg]
    · simp only [Event.ended, Recounts, replaceBackendReady, Dict.lookup_eraseAll]
      rw [if_neg (fun hmem => hup (Finset.mem_sdiff.1 (mem_sorted.1 hmem)).symm)]
    · rintro (h | ⟨hlost, hback⟩)
      · exact hup h
      · cases hlost.symm.trans hback

theorem recounts_announced {now : Instant} {y : String} {result : Except String Unit} {env : Env} {job : JobSpec}
    (hboot : y = x → s.reg.bootstrapped = true) :
    Recounts x s.reg (s.reg.applyAnnounced now s.reg.generation y result)
      ((Event.complete env job (.announced s.reg.generation y result) now).ended x s) := by
  unfold applyAnnounced
  simp only [ne_eq, not_true_eq_false, if_false]
  cases result with
  | ok u =>
    have herased : (s.reg.announceFailures.erase y).lookup x = if x = y then none else s.reg.announceFailures.lookup x :=
      Dict.lookup_erase_ite ..
    by_cases hxy : y = x
    · subst hxy
      simp only [Event.ended, if_true, Recounts]
      rw [if_pos rfl] at herased
      split
      · exact herased
      · split <;> exact herased
    · rw [if_neg (Ne.symm hxy)] at herased
      simp only [Event.ended, if_neg hxy, Recounts]
      split
      · exact herased
      · split <;> exact herased
  | error error =>
    simp only [Event.ended]
    by_cases hxy : y = x
    · subst hxy
      by_cases hup : y ∈ s.reg.backendReady
      · rw [if_pos ⟨hup, hboot rfl⟩, if_pos ⟨rfl, hup⟩]
        simp only [Recounts, Dict.lookup_insert_ite, if_true]
      · rw [if_neg (fun h => hup h.1), if_neg (fun h => hup h.2)]
        exact rfl
    · rw [if_neg (fun h : y = x ∧ _ => hxy h.1)]
      split
      · simp only [Recounts, Dict.lookup_insert_ite, if_neg (Ne.symm hxy)]
      · exact rfl

/-- The other results leave the failures as they are. -/
theorem Applied.failures {st st' : RegistryState} {now : Instant} {r : JobResult} (happlied : Applied st now r st')
    (hr : ∀ y result, r ≠ .announced st.generation y result) : st'.announceFailures = st.announceFailures := by
  cases happlied with
  | announcedNoRelay y | announcedUp y | announcedDown y | announceFailedUp y | announceFailedDown y =>
    exact absurd rfl (hr y _)
  | _ => rfl

/-- **The running jobs are of the current generation.** -/
theorem current_step (h : ∀ j ∈ s.jobs, j.generation = s.reg.generation) (hs : registry.step s e = some s') :
    ∀ j ∈ s'.jobs, j.generation = s'.reg.generation := by
  obtain ⟨-, -, rfl⟩ := step_eq_some.1 hs
  cases e with
  | command c now =>
    cases c with
    | reset => exact fun j hj => by cases hj
    | relayStateChanged needRelay active =>
      exact fun j hj => (h j hj).trans (relayStateChanged_frame s.reg needRelay active).generation.symm
    | _ => exact h
  | readiness ready now => exact h
  | plan env now slots =>
    refine (plan_steps env s.reg now slots).1.invariant (P := fun st J => ∀ j ∈ J, j.generation = st.generation)
      (fun a o b J _ hs hP j hj => ?_) h
    rw [(PlanStep.kept hs).generation]
    rcases Multiset.mem_add.1 hj with hj | hj
    · exact hP j hj
    · have hj := Option.mem_toList.1 (Multiset.mem_coe.1 hj)
      cases hs <;> cases hj <;> rfl
  | complete env job result now =>
    intro j hj
    rw [next, (apply_standing env s.reg now result).generation]
    exact h j (Multiset.mem_of_mem_erase hj)
  | stale env result now =>
    intro j hj
    rw [next, (apply_standing env s.reg now result).generation]
    exact h j hj

theorem current_run (hr : registry.run es = some s) : ∀ j ∈ s.jobs, j.generation = s.reg.generation :=
  registry.invariant_from (P := fun s => ∀ j ∈ s.jobs, j.generation = s.reg.generation)
    (fun _ _ _ h _ hs => current_step h hs) es registry.init s (fun j hj => by cases hj) (registry.meets_true es _) hr

theorem recounts_step (hr : registry.run es = some s) (hs : registry.step s e = some s') :
    Recounts x s.reg s'.reg (e.mark x s) := by
  obtain ⟨-, hen, rfl⟩ := step_eq_some.1 hs
  cases e with
  | command c now => exact recounts_handle c now
  | readiness ready now => exact recounts_readiness ready now
  | plan env now slots =>
    have hkept := plan_kept env s.reg now slots
    have hmark : (Event.plan env now slots).mark x s = none := mark_eq_ended hkept.backendReady hkept.relayReady
    rw [hmark]
    exact congrArg (Finmap.lookup x) hkept.announceFailures
  | complete env job result now =>
    rw [mark_complete]
    simp only [enabled, Bool.and_eq_true, decide_eq_true_eq] at hen
    have hgen := current_run hr job hen.1
    rcases answers_cases hen.2 with ⟨g, y, key, r, rfl, rfl⟩ | ⟨g, y, key, r, rfl, rfl⟩ | ⟨g, r, rfl, rfl⟩ |
      ⟨g, value, r, rfl, rfl⟩
    · obtain rfl : g = s.reg.generation := hgen
      exact recounts_announced (fun hy => ((gated_run hr).jobs _ hen.1 x (.inl (by rw [← hy]; rfl))).2)
    all_goals
      refine congrArg (Finmap.lookup x) ((apply_applied env s.reg now _).failures ?_)
      exact fun y r heq => by cases heq
  | stale env result now =>
    have hmark : (Event.stale env result now).mark x s = none :=
      mark_eq_ended (apply_standing env s.reg now result).backendReady (apply_standing env s.reg now result).relayReady
    rw [hmark]
    refine congrArg (Finmap.lookup x) ((apply_applied env s.reg now result).failures ?_)
    rintro y r rfl
    simp [enabled, JobResult.generation] at hen

/-- **The state counts the failures in a row**, as far as its counter goes. -/
theorem counted_run (x : String) (hr : registry.run es = some s) :
    (s.reg.announceFailures.lookup x).getD 0 = min (failures x es) (2 ^ 32 - 1) := by
  refine (registry.history_invariant (P := fun es s => registry.run es = some s ∧
    (s.reg.announceFailures.lookup x).getD 0 = min (failures x es) (2 ^ 32 - 1)) ⟨rfl, rfl⟩ ?_ es s hr
    (registry.meets_true es _)).2
  rintro es s e s' ⟨hr, hcount⟩ - hs
  refine ⟨registry.runFrom_concat.2 ⟨s, hr, hs⟩, ?_⟩
  have hrecounts := recounts_step (x := x) hr hs
  rw [failures_concat hr]
  cases hmark : e.mark x s with
  | none =>
    rw [hmark] at hrecounts
    rw [show s'.reg.announceFailures.lookup x = _ from hrecounts, hcount]
  | some mark =>
    rw [hmark] at hrecounts
    cases mark with
    | restarted => rw [show s'.reg.announceFailures.lookup x = none from hrecounts]; rfl
    | failed =>
      rw [show s'.reg.announceFailures.lookup x = _ from hrecounts, hcount, Option.getD_some]
      change _ = min (failures x es + 1) (2 ^ 32 - 1)
      omega

end Failures

/-! ## The retry time after failures -/

/-- **Nothing happens to the service** at the event: its readiness and that of the relays stay, it is not announced anew
for all, and no job of it starts or ends. -/
def Undisturbed (x : String) (s : System) (e : Event) : Prop :=
  (x ∈ (next s e).reg.backendReady ↔ x ∈ s.reg.backendReady) ∧ (next s e).reg.relayReady = s.reg.relayReady ∧
  match e with
  | .command c _ => c ≠ .bootstrapCompleted ∧ c ≠ .reannounce ∧ c ≠ .reset
  | .plan env now slots => ∀ j ∈ (s.reg.plan env now slots).1, ¬ j.serves x
  | .complete _ _ result _ => ¬ result.about x
  | _ => True

section Undisturbed

variable {s s' : System} {e : Event} {x : String}

theorem Undisturbed.mark (h : Undisturbed x s e) : e.mark x s = none := by
  rw [Event.mark, if_neg]
  · cases e with
    | command c now =>
      cases c with
      | reset => exact absurd rfl h.2.2.2.2
      | _ => rfl
    | complete env job result now =>
      cases result with
      | announced g y r =>
        have hyx : y ≠ x := fun heq => h.2.2 heq.symm
        cases r <;> simp [Event.ended, hyx]
      | _ => rfl
    | _ => rfl
  · rintro (⟨hdown, hup⟩ | ⟨hlost, hback⟩)
    · exact hdown (h.1.1 hup)
    · cases (hback.symm.trans h.2.1).trans hlost

theorem Applied.retry_other {st st' : RegistryState} {now : Instant} {r : JobResult} (happlied : Applied st now r st')
    (hx : r.generation = st.generation → ¬ r.about x) :
    st'.announceRetryAt.lookup x = st.announceRetryAt.lookup x := by
  cases happlied with
  | announcedNoRelay | announcedUp | announcedDown => exact (Dict.lookup_erase_ite ..).trans (if_neg (hx rfl))
  | announceFailedUp | withdrawnUp | withdrawFailedUp => exact (Dict.lookup_insert_ite ..).trans (if_neg (hx rfl))
  | _ => rfl

/-- **An undisturbed service keeps its retry time.** -/
theorem Undisturbed.retry (h : Undisturbed x s e) (hs : registry.step s e = some s') :
    s'.reg.announceRetryAt.lookup x = s.reg.announceRetryAt.lookup x := by
  obtain ⟨-, hen, rfl⟩ := step_eq_some.1 hs
  obtain ⟨hready, hrelay, hevent⟩ := h
  cases e with
  | command c now =>
    cases c with
    | bootstrapCompleted => exact absurd rfl hevent.1
    | reannounce => exact absurd rfl hevent.2.1
    | reset => exact absurd rfl hevent.2.2
    | tick => rfl
    | refreshTypes => rfl
    | relayStateChanged needRelay active =>
      simp only [next, handle] at hrelay ⊢
      rcases relayStateChanged_cases s.reg needRelay active with ⟨-, hst⟩ | ⟨hlost, hback, hst⟩ | ⟨hon, hoff, hst⟩ <;>
        rw [hst] at hrelay ⊢
      · cases (relayReady_eq_true.2 hback).symm.trans (hrelay.trans hlost)
      · exact absurd (relayReady_eq_true.1 (hrelay.trans hon)) hoff
  | readiness ready now =>
    simp only [next, replaceBackendReady, Dict.lookup_eraseAll] at hready ⊢
    rw [if_neg, if_neg]
    · exact fun hmem => (Finset.mem_sdiff.1 (mem_sorted.1 hmem)).2 (hready.1 (Finset.mem_sdiff.1 (mem_sorted.1 hmem)).1)
    · exact fun hmem => (Finset.mem_sdiff.1 (mem_sorted.1 hmem)).2 (hready.2 (Finset.mem_sdiff.1 (mem_sorted.1 hmem)).1)
  | plan env now slots =>
    -- none of the jobs of the call is one of the service
    have key := (plan_steps env s.reg now slots).1.invariant (J := 0)
      (P := fun a J => (∀ j ∈ J, ¬ j.serves x) → a.announceRetryAt.lookup x = s.reg.announceRetryAt.lookup x)
      (fun a o b J _ hs hP hJ => ?_) (fun _ => rfl)
    · exact key (fun j hj => hevent j (by simpa using hj))
    · rw [PlanStep.retry hs (fun j hj => hJ j (Multiset.mem_add.2 (.inr (Multiset.mem_coe.2 (Option.mem_toList.2 hj)))))]
      exact hP (fun j hj => hJ j (Multiset.mem_add.2 (.inl hj)))
  | complete env job result now => exact (apply_applied env s.reg now result).retry_other (fun _ => hevent)
  | stale env result now =>
    refine (apply_applied env s.reg now result).retry_other (fun hgen => ?_)
    simp [enabled, hgen] at hen

end Undisturbed

/-- Five seconds, doubled with every further failure, and at most a minute. -/
theorem retryDelay_failures {k : Nat} (hk : 0 < k) : retryDelay (min k (2 ^ 32 - 1)) = secs (min (5 * 2 ^ (k - 1)) 60) := by
  have hsecs : ∀ a b, secs (min a b) = min (secs a) (secs b) := fun a b => (Nat.mul_min_mul_right ..).symm
  rw [retryDelay, announceRetryInitial, announceRetryMax, hsecs]
  have hmul : ∀ n, secs 5 * 2 ^ n = secs (5 * 2 ^ n) := fun n => by
    rw [secs, secs, Nat.mul_right_comm]
  rw [hmul]
  by_cases hsmall : k ≤ 5
  · have hexp : min (min k (2 ^ 32 - 1) - 1) 4 = k - 1 := by omega
    rw [hexp]
  · -- from the fifth on the delay is the longest
    have hexp : min (min k (2 ^ 32 - 1) - 1) 4 = 4 := by omega
    have hpow : 2 ^ 4 ≤ 2 ^ (k - 1) := Nat.pow_le_pow_right (by decide) (by omega)
    have hlarge : secs 60 ≤ secs (5 * 2 ^ (k - 1)) := Nat.mul_le_mul_right _ (by omega)
    rw [hexp, Nat.min_eq_right hlarge]
    rfl

/-- **A failed announcement of a ready service sets the retry time** by the number of failures in a row. -/
theorem retry_failed {pre : List Event} {env : Env} {job : JobSpec} {g : UInt64} {x error : String} {t₀ : Instant}
    {m m' : System} (hm : registry.run pre = some m)
    (hs : registry.step m (.complete env job (.announced g x (.error error)) t₀) = some m')
    (hup : x ∈ m.reg.backendReady) :
    m'.reg.announceRetryAt.lookup x = some (t₀ + secs (min (5 * 2 ^
      (failures x (pre ++ [.complete env job (.announced g x (.error error)) t₀]) - 1)) 60)) := by
  obtain ⟨-, hen, rfl⟩ := step_eq_some.1 hs
  simp only [enabled, Bool.and_eq_true, decide_eq_true_eq] at hen
  have hgen := current_run hm job hen.1
  have hboot := ((gated_run hm).jobs job hen.1 x (serves_of_answers hen.2 rfl)).2
  obtain ⟨key, rfl⟩ : ∃ key, job = .announce g x key := by
    rcases answers_cases hen.2 with ⟨g', y, key, r, heq, hjob⟩ | ⟨g', y, key, r, heq, hjob⟩ | ⟨g', r, heq, hjob⟩ |
      ⟨g', value, r, heq, hjob⟩ <;> cases heq
    exact ⟨key, hjob⟩
  obtain rfl : g = m.reg.generation := hgen
  have hmark : (Event.complete env (.announce m.reg.generation x key)
      (.announced m.reg.generation x (.error error)) t₀).mark x m = some .failed := by
    rw [mark_complete]
    exact if_pos ⟨rfl, hup⟩
  rw [failures_concat hm, hmark]
  simp only [next, RegistryState.apply, applyAnnounced, ne_eq, not_true_eq_false, if_false, if_pos (And.intro hup hboot),
    Dict.lookup_insert_ite, if_true, counted_run x hm]
  have hcount : min (min (failures x pre) (2 ^ 32 - 1) + 1) (2 ^ 32 - 1) = min (failures x pre + 1) (2 ^ 32 - 1) := by
    omega
  rw [hcount, retryDelay_failures (Nat.succ_pos _)]

/-- **What is undisturbed keeps its readiness, its retry time and the number of its failures.** -/
theorem undisturbed_run {pre post : List Event} {m s : System} {x : String} (hm : registry.run pre = some m)
    (hr : registry.runFrom m post = some s) (h : registry.Meets (Undisturbed x) m post) :
    (x ∈ s.reg.backendReady ↔ x ∈ m.reg.backendReady) ∧
      s.reg.announceRetryAt.lookup x = m.reg.announceRetryAt.lookup x ∧ failures x (pre ++ post) = failures x pre := by
  refine (registry.history_from (P := fun es s => registry.run es = some s ∧
    (x ∈ s.reg.backendReady ↔ x ∈ m.reg.backendReady) ∧
    s.reg.announceRetryAt.lookup x = m.reg.announceRetryAt.lookup x ∧ failures x es = failures x pre)
    ?_ post pre m s ⟨hm, Iff.rfl, rfl, rfl⟩ h hr).2
  rintro es s e s' ⟨hrun, hready, hretry, hfailures⟩ hquiet hs
  refine ⟨registry.runFrom_concat.2 ⟨s, hrun, hs⟩, ?_, (hquiet.retry hs).trans hretry, ?_⟩
  · obtain ⟨-, -, rfl⟩ := step_eq_some.1 hs
    exact hquiet.1.trans hready
  · rw [failures_concat hrun, hquiet.mark]
    exact hfailures

/-! ## Every ready service is announced -/

/-- **When a service will be announced**: a planning call with a slot for each configured service announces it exactly
from its retry time on; that is at most a minute ahead, and after failures with nothing since it is given by their
number. -/
structure Announced (services : List LocalServiceEntry) (es : List Event) (s : System) (x : String) : Prop where
  planned : ∀ env now slots, env.config.dispatcher.localServices = services → services.length ≤ slots →
    (announceJob s.reg.generation x ∈ (s.reg.plan env now slots).1 ↔ ∀ t ∈ s.reg.announceRetryAt.lookup x, t ≤ now)
  bounded : ∀ t, s.reg.announceRetryAt.lookup x = some t → t ≤ s.clock + secs 60
  backoff : ∀ pre env job g error t₀ post m,
    es = pre ++ .complete env job (.announced g x (.error error)) t₀ :: post →
    registry.run (pre ++ [.complete env job (.announced g x (.error error)) t₀]) = some m →
    registry.Meets (Undisturbed x) m post →
    s.reg.announceRetryAt.lookup x = some (t₀ + secs (min (5 * 2 ^ (failures x es - 1)) 60))

/-- **No ready service is left unannounced.**  In every reachable state after the bootstrap with a relay ready, for every
configured service with a valid name that is ready, not announced and has no job. -/
theorem ready_announced (services : List LocalServiceEntry) (es : List Event) (s : System)
    (hr : registry.run es = some s) (hok : registry.Meets (FixedServices services) registry.init es) (x : String)
    (h : Announceable (validNames services) s.reg x) : Announced services es s x where
  planned := by
    intro env now slots henv hslots
    have hgated := registry.invariant_from (gated_step services) es registry.init s (Gated.new _) hok hr
    have hnames : localNames env.config = validNames services := by rw [localNames, henv, validNames]
    have hlength : (validNames services).length ≤ services.length := by
      rw [validNames]
      exact (List.length_filter_le _ _).trans (List.length_map _).le
    refine ⟨fun hjob => planned_due hjob rfl, fun hdue => ?_⟩
    exact announce_planned hgated ((reachable_relayInv ⟨es, hr⟩).ready h.relayReady) h hnames (hlength.trans hslots) hdue
  bounded := fun t ht => retry_bounded hr x t ht
  backoff := by
    rintro pre env job g error t₀ post m rfl hm hquiet
    rw [List.append_cons, Machine.run, Machine.runFrom_append] at hr
    obtain ⟨m', hm', hpost⟩ := hr
    cases hm.symm.trans hm'
    obtain ⟨hready, hretry, hfailures⟩ := undisturbed_run hm hpost hquiet
    obtain ⟨before, hbefore, hstep⟩ := registry.runFrom_concat.1 hm
    -- the failure was seen with the service ready, as it is now
    have hup : x ∈ before.reg.backendReady := by
      have hafter := hready.1 h.backendReady
      obtain ⟨-, -, rfl⟩ := step_eq_some.1 hstep
      rwa [next, (apply_standing env before.reg t₀ _).backendReady] at hafter
    rw [List.append_assoc, List.singleton_append] at hfailures
    rw [hfailures, hretry, retry_failed hbefore hstep hup]

/-- `cmd` cannot be announced, twice. -/
def failedTwiceRun : List Event :=
  [.readiness {"cmd"} 0, .command .bootstrapCompleted 0, .plan cmdEnv 0 4,
    .complete cmdEnv (announceJob 0 "cmd") (.announced 0 "cmd" (.error "timeout")) (secs 1), .plan cmdEnv (secs 6) 4,
    .complete cmdEnv (announceJob 0 "cmd") (.announced 0 "cmd" (.error "timeout")) (secs 7), .command .tick (secs 8)]

theorem failed_twice_announced : ∃ s, registry.run failedTwiceRun = some s ∧
    s.reg.announceRetryAt.lookup "cmd" = some (secs 17) ∧ failures "cmd" failedTwiceRun = 2 ∧
    Announced [⟨"cmd", 6000, false⟩] failedTwiceRun s "cmd" := by
  obtain ⟨s, hr, hs⟩ := registry.exists_of_check
    (fun s => decide (s.reg.announceRetryAt.lookup "cmd" = some (secs 17) ∧ s.reg.bootstrapped = true ∧
      s.reg.relayReady = true ∧ "cmd" ∈ s.reg.backendReady ∧ "cmd" ∉ s.reg.announced ∧ s.reg.inFlight "cmd" = false))
    failedTwiceRun (by decide +kernel)
  obtain ⟨hretry, hboot, hrelay, hup, hnot, hfree⟩ := of_decide_eq_true hs
  exact ⟨s, hr, hretry, by decide +kernel, ready_announced [⟨"cmd", 6000, false⟩] failedTwiceRun s hr (by decide +kernel)
    "cmd" ⟨hboot, hrelay, by decide +kernel, hup, hnot, hfree⟩⟩

end Registry
end NexusNet
