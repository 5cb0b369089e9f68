import NexusNet.BackendReplies
import NexusNet.DispatcherReplies
import NexusNet.RegistryActor
/-!
# Readiness — which backends are up, from their tasks to the registry

A backend task says so when its connection comes up or goes down, and waits until the router's queue takes the event; the
router keeps the set of the backends that are up and publishes it; the registry takes over the last published set when it
gets to it.  Here the three run together, with everything else they do: the tasks take their commands from the router's
queues, and the router's events are those of the tasks.

At every moment the set that the registry would have after all that is still on its way is the set of the backends whose
connection is up (`Agrees`).  `readiness_settles` adds that what is on its way always arrives.
-/
namespace NexusNet
namespace Readiness

open Backend (BackendTask BackendEvent)
open Dispatcher (Router Host eventService isRelayed eventQueueCapacity controllerQueueCapacity)
open Registry (RegistryActor)

/-- The tasks of the backends, the events each waits to hand over, the router, and the registry. -/
structure Local where
  tasks : String → BackendTask
  outbox : String → List BackendEvent
  router : Router
  registry : RegistryActor

inductive Event where
  | task (service : String) (env : Backend.Env) (input : Backend.Input)
  | command (service : String) (env : Backend.Env)
  | post (service : String)
  | route (event : Dispatcher.Event)
  | closes (service : String)
  | registry (input : Registry.Input)

/-- The events among the effects of a task. -/
def posted (effects : List Backend.Effect) : List BackendEvent :=
  effects.filterMap (fun effect => match effect with
    | .event event => some event
    | _ => none)

/-- What a task waits for beside its commands. -/
def isOutside : Backend.Input → Bool
  | .command _ => false
  | _ => true

/-- The steps of the router that no task is part of. -/
def isRouter : Dispatcher.Event → Bool
  | .post _ | .drain _ | .closes _ => false
  | _ => true

def isRegistry : Registry.Input → Bool
  | .publish _ => false
  | _ => true

namespace Local

/-- A task has made a step; it goes on when the router has its events. -/
def advance (s : Local) (service : String) (r : BackendTask × List Backend.Effect) : Local :=
  { s with
    tasks := Function.update s.tasks service r.1
    outbox := Function.update s.outbox service (posted r.2) }

/-- The router publishes the readiness after a status. -/
def publish (s : Local) (event : Dispatcher.Event) (D : Router) : RegistryActor :=
  match event, s.router.events with
  | .take, .status _ _ :: _ => (s.registry.step (.publish D.ready)).getD s.registry
  | _, _ => s.registry

def step (H : Host) (s : Local) : Event → Option Local
  | .task service env input =>
    if service ∈ s.router.backends ∧ s.outbox service = [] ∧ isOutside input = true then
      ((s.tasks service).step env input).map (s.advance service)
    else none
  | .command service env =>
    if service ∈ s.router.backends ∧ s.outbox service = [] then
      (s.router.queue service).head?.bind (fun cmd =>
        ((s.tasks service).step env (.command (some cmd))).bind (fun r =>
          (s.router.step H (.drain service)).map (fun D => { s.advance service r with router := D })))
    else none
  | .post service =>
    match s.outbox service with
    | event :: rest =>
      (s.router.step H (.post event)).map
        (fun D => { s with router := D, outbox := Function.update s.outbox service rest })
    | [] => none
  | .route event =>
    if isRouter event then
      (s.router.step H event).map (fun D => { s with router := D, registry := s.publish event D })
    else none
  | .closes service =>
    if (s.tasks service).phase = .ended then
      (s.router.step H (.closes service)).map (fun D => { s with router := D })
    else none
  | .registry input =>
    if isRegistry input then (s.registry.step input).map (fun A => { s with registry := A }) else none

def new (backends : Finset String) (env : Registry.Env) (now later : Registry.Instant) : Local :=
  ⟨BackendTask.new, fun _ => [], .new backends, .new ∅ env now later⟩

end Local

/-- The dispatcher of a node with the given backends, and its registry. -/
def sidecars (H : Host) (backends : Finset String) (env : Registry.Env) (now later : Registry.Instant) :
    Machine Local Event := ⟨.new backends env now later, Local.step H⟩

/-! ## What a step does -/

/-- **The steps.** -/
inductive Moved (H : Host) (s : Local) : Event → Local → Prop where
  | task (service : String) (env : Backend.Env) (input : Backend.Input) (r : BackendTask × List Backend.Effect)
      (known : service ∈ s.router.backends) (free : s.outbox service = []) (outside : isOutside input = true)
      (worked : Backend.Worked (s.tasks service) env input r.1 r.2) :
      Moved H s (.task service env input) (s.advance service r)
  | command (service : String) (env : Backend.Env) (cmd : Backend.BackendCmd) (r : BackendTask × List Backend.Effect)
      (D : Router) (known : service ∈ s.router.backends) (free : s.outbox service = [])
      (worked : Backend.Worked (s.tasks service) env (.command (some cmd)) r.1 r.2)
      (drained : Dispatcher.Acts H s.router (.drain service) D) :
      Moved H s (.command service env) { s.advance service r with router := D }
  | post (service : String) (event : BackendEvent) (rest : List BackendEvent) (D : Router)
      (next : s.outbox service = event :: rest) (taken : Dispatcher.Acts H s.router (.post event) D) :
      Moved H s (.post service) { s with router := D, outbox := Function.update s.outbox service rest }
  | route (event : Dispatcher.Event) (D : Router) (own : isRouter event = true)
      (acts : Dispatcher.Acts H s.router event D) :
      Moved H s (.route event) { s with router := D, registry := s.publish event D }
  | closes (service : String) (D : Router) (ended : (s.tasks service).phase = .ended)
      (acts : Dispatcher.Acts H s.router (.closes service) D) : Moved H s (.closes service) { s with router := D }
  | registry (input : Registry.Input) (A : RegistryActor) (own : isRegistry input = true)
      (turned : Registry.Turned s.registry input A) : Moved H s (.registry input) { s with registry := A }

theorem moved_of_step {H : Host} {s t : Local} {e : Event} (h : s.step H e = some t) : Moved H s e t := by
  cases e with
  | task service env input =>
    obtain ⟨hguard, h⟩ := Option.ite_none_right_eq_some.1 h
    obtain ⟨r, hr, rfl⟩ := Option.map_eq_some_iff.1 h
    exact .task service env input r hguard.1 hguard.2.1 hguard.2.2 (Backend.worked_of_step hr)
  | command service env =>
    obtain ⟨hguard, h⟩ := Option.ite_none_right_eq_some.1 h
    obtain ⟨cmd, -, h⟩ := Option.bind_eq_some_iff.1 h
    obtain ⟨r, hr, h⟩ := Option.bind_eq_some_iff.1 h
    obtain ⟨D, hD, rfl⟩ := Option.map_eq_some_iff.1 h
    exact .command service env cmd r D hguard.1 hguard.2 (Backend.worked_of_step hr) (Dispatcher.acts_of_step hD)
  | post service =>
    simp only [Local.step] at h
    split at h
    · rename_i event rest hnext
      obtain ⟨D, hD, rfl⟩ := Option.map_eq_some_iff.1 h
      exact .post service event rest D hnext (Dispatcher.acts_of_step hD)
    · cases h
  | route event =>
    obtain ⟨hown, h⟩ := Option.ite_none_right_eq_some.1 h
    obtain ⟨D, hD, rfl⟩ := Option.map_eq_some_iff.1 h
    exact .route event D hown (Dispatcher.acts_of_step hD)
  | closes service =>
    obtain ⟨hended, h⟩ := Option.ite_none_right_eq_some.1 h
    obtain ⟨D, hD, rfl⟩ := Option.map_eq_some_iff.1 h
    exact .closes service D hended (Dispatcher.acts_of_step hD)
  | registry input =>
    obtain ⟨hown, h⟩ := Option.ite_none_right_eq_some.1 h
    obtain ⟨A, hA, rfl⟩ := Option.map_eq_some_iff.1 h
    exact .registry input A hown (Registry.turned_of_step hA)

/-! ## The statuses on their way -/

/-- What the events say about a service, in order. -/
def statuses (service : String) (events : List BackendEvent) : List Bool :=
  events.filterMap (fun event => match event with
    | .status other ready => if other = service then some ready else none
    | .control _ _ => none)

/-- What is known after the reports. -/
def latest (known : Bool) (reports : List Bool) : Bool := reports.foldl (fun _ report => report) known

theorem statuses_append (service : String) (events more : List BackendEvent) :
    statuses service (events ++ more) = statuses service events ++ statuses service more := List.filterMap_append

theorem latest_append (known : Bool) (reports more : List Bool) :
    latest known (reports ++ more) = latest (latest known reports) more := List.foldl_append

theorem latest_cons (known report : Bool) (reports : List Bool) : latest known (report :: reports) = latest report reports := rfl

/-- A status of the head of the queue is taken over. -/
def ready (D : Router) (event : BackendEvent) : Finset String :=
  match event with
  | .status service up => if up then insert service D.ready else D.ready.erase service
  | .control _ _ => D.ready

theorem latest_ready (D : Router) (event : BackendEvent) (rest : List BackendEvent) (service : String) :
    latest (decide (service ∈ ready D event)) (statuses service rest) =
      latest (decide (service ∈ D.ready)) (statuses service (event :: rest)) := by
  cases event with
  | control other msg => rfl
  | status other up =>
    by_cases hother : other = service
    · subst hother
      have hreports : statuses other (.status other up :: rest) = up :: statuses other rest := by
        simp [statuses]
      rw [hreports, latest_cons]
      cases up <;> simp [ready]
    · have hreports : statuses service (.status other up :: rest) = statuses service rest := by
        simp [statuses, hother]
      rw [hreports]
      have hiff : (service ∈ ready D (.status other up)) ↔ service ∈ D.ready := by
        cases up <;> simp [ready, Ne.symm hother]
      rw [decide_eq_decide.2 hiff]

/-- **What a step of a task reports**: the change of its phase, about itself. -/
structure Reports (B B' : BackendTask) (effects : List Backend.Effect) : Prop where
  service : B'.service = B.service
  alive : B.phase ≠ .ended
  own : ∀ event ∈ posted effects, eventService event = B.service ∧ isRelayed event = true
  ended : B'.phase = .ended → posted effects = []
  status : B'.phase ≠ .ended →
    latest (decide (B.phase = .connected)) (statuses B.service (posted effects)) = decide (B'.phase = .connected)

theorem posted_drain (B : BackendTask) (env : Backend.Env) (reason : String) : posted (B.drain env reason) = [] := by
  refine List.filterMap_eq_nil_iff.2 (fun effect hmem => ?_)
  obtain ⟨tx, -, rfl⟩ := List.mem_map.1 hmem
  rfl

theorem posted_disconnect (B : BackendTask) (env : Backend.Env) :
    posted (B.disconnect env).2 = [.status B.service false] := by
  rw [BackendTask.disconnect, posted, List.filterMap_append]
  exact congrArg (· ++ _) (posted_drain B env _)

theorem reports_of_worked {B B' : BackendTask} {env : Backend.Env} {input : Backend.Input} {effects : List Backend.Effect}
    (h : Backend.Worked B env input B' effects) : Reports B B' effects := by
  -- a step that keeps the phase and reports nothing
  have hquiet : ∀ {B' : BackendTask} {effects}, B'.service = B.service → B.phase ≠ .ended →
      (B'.phase = .connected ↔ B.phase = .connected) → posted effects = [] → Reports B B' effects := by
    intro B' effects hservice halive hphase hnone
    refine ⟨hservice, halive, by simp [hnone], fun _ => hnone, fun _ => ?_⟩
    rw [hnone]
    exact decide_eq_decide.2 hphase.symm
  have hdown : ∀ {effects}, B.phase = .connected → posted effects = [.status B.service false] →
      Reports B (B.disconnect env).1 effects := by
    intro effects hphase hposted
    refine ⟨rfl, by rw [hphase]; decide, ?_, fun h => (by cases h), fun _ => ?_⟩
    · rw [hposted]
      simp [eventService, isRelayed]
    · rw [hposted]
      simp [statuses, latest, BackendTask.disconnect]
  cases h with
  | connected phase =>
    refine ⟨rfl, by rw [phase]; decide, ?_, fun h => (by cases h), fun _ => ?_⟩
    · simp [posted, eventService, isRelayed]
    · simp [posted, statuses, latest]
  | refused _ phase | elapsed phase | stopped _ phase => exact hquiet rfl (by rw [phase]; decide) (by simp [phase]) rfl
  | rejected _ phase | discarded _ phase | answered _ _ _ _ _ phase | unknown _ _ _ _ phase | written _ _ phase
  | replied _ _ phase => exact hquiet rfl (by rw [phase]; decide) Iff.rfl rfl
  | control msg phase other =>
    refine ⟨rfl, by rw [phase]; decide, ?_, fun h => (by rw [phase] at h; cases h), fun _ => ?_⟩
    · simp only [posted, List.filterMap_cons, List.filterMap_nil, List.mem_singleton, forall_eq, eventService, true_and]
      cases msg <;> first | rfl | cases other
    · simp [posted, statuses, latest]
  | failed _ _ phase | broken _ phase => exact hdown phase (posted_disconnect B env)
  | closed input reason phase last =>
    exact ⟨rfl, by rw [phase]; decide, by simp [posted_drain], fun _ => posted_drain B env reason, fun h => absurd rfl h⟩

/-! ## The agreement -/

/-- **What the router will know of a service is what is so**, unless its task has ended; what is on its way comes from a task
that runs. -/
structure AgreesAt (D : Router) (service : String) (B : BackendTask) (outbox : List BackendEvent) : Prop where
  own : B.service = service
  handed : ∀ event ∈ outbox, eventService event = service ∧ isRelayed event = true ∧ service ∈ D.backends
  ended : B.phase = .ended → outbox = []
  closed : service ∈ D.closed → B.phase = .ended
  status : B.phase ≠ .ended →
    latest (decide (service ∈ D.ready)) (statuses service (D.events ++ outbox)) = decide (B.phase = .connected)

/-- **What the registry will know is what is so.** -/
structure Agrees (s : Local) : Prop where
  services : ∀ service, AgreesAt s.router service (s.tasks service) (s.outbox service)
  published : s.registry.ended = false → s.registry.readiness = s.router.ready ∧
    (s.registry.changed = false → s.registry.state.backendReady = s.router.ready)

section Steps

variable {H : Host} {s t : Local} {e : Event}

/-- What a step of the router does to the readiness: a status that it takes is taken over. -/
theorem router_frame {D D' : Router} {event : Dispatcher.Event} (h : Dispatcher.Acts H D event D')
    (hown : isRouter event = true) : D'.backends = D.backends ∧ D'.closed = D.closed ∧
      (event ≠ .take ∧ D'.ready = D.ready ∧ D'.events = D.events ∨
        ∃ head rest, event = .take ∧ D.events = head :: rest ∧ D'.events = rest ∧ D'.ready = ready D head) := by
  cases h with
  | inbound req =>
    obtain ⟨-, queue, enqueued, heq⟩ := Dispatcher.forwardInbound_frame D req
    rw [heq]
    exact ⟨rfl, rfl, .inl ⟨by simp, rfl, rfl⟩⟩
  | take head rest free next =>
    cases head with
    | status service up => exact ⟨rfl, rfl, .inr ⟨_, rest, rfl, next, rfl, rfl⟩⟩
    | control service msg =>
      have hframe := Dispatcher.forwardControl_frame H { D with events := rest } service msg
      exact ⟨hframe.backends, hframe.closed, .inr ⟨_, rest, rfl, next, hframe.events, hframe.ready⟩⟩
  | resume service id msg waits room =>
    have hframe := Dispatcher.forwardCommand_frame { D with blocked := none } service id msg
    exact ⟨hframe.backends, hframe.closed, .inl ⟨by simp, hframe.ready, hframe.events⟩⟩
  | start i tx task target payload there stage =>
    obtain ⟨-, -, hframe⟩ := Dispatcher.startLocal_frame there target payload tx
    exact ⟨hframe.backends, hframe.closed, .inl ⟨by simp, hframe.ready, hframe.events⟩⟩
  | responded | commanded | sent | dropped | serve | controllerEnds => exact ⟨rfl, rfl, .inl ⟨by simp, rfl, rfl⟩⟩
  | post | drain | closes => cases hown

theorem AgreesAt.advance {D : Router} {service : String} {B : BackendTask} (h : AgreesAt D service B [])
    (hknown : service ∈ D.backends) {B' : BackendTask} {effects : List Backend.Effect} (hreports : Reports B B' effects) :
    AgreesAt D service B' (posted effects) := by
  refine ⟨hreports.service.trans h.own, fun event hmem => ?_, hreports.ended,
    fun hclosed => absurd (h.closed hclosed) hreports.alive, fun halive => ?_⟩
  · have hown := hreports.own event hmem
    rw [h.own] at hown
    exact ⟨hown.1, hown.2, hknown⟩
  · have hbefore := h.status hreports.alive
    have hstatus := hreports.status halive
    rw [List.append_nil] at hbefore
    rw [h.own] at hstatus
    rw [statuses_append, latest_append, hbefore, hstatus]

/-- A step of the task of a service. -/
theorem Agrees.advance (h : Agrees s) {service : String} (hknown : service ∈ s.router.backends)
    (hfree : s.outbox service = []) {r : BackendTask × List Backend.Effect}
    (hreports : Reports (s.tasks service) r.1 r.2) : Agrees (s.advance service r) := by
  refine ⟨fun other => ?_, h.published⟩
  have hbefore := h.services other
  by_cases hother : other = service
  · subst hother
    simp only [Local.advance, Function.update_self]
    rw [hfree] at hbefore
    exact hbefore.advance hknown hreports
  · simp only [Local.advance, Function.update_of_ne hother]
    exact hbefore

/-- The router's part, where nothing about readiness changes. -/
theorem Agrees.router (h : Agrees s) {D : Router} (hbackends : D.backends = s.router.backends)
    (hclosed : ∀ service ∈ D.closed, (s.tasks service).phase = .ended) (hready : D.ready = s.router.ready)
    (hevents : D.events = s.router.events) : Agrees { s with router := D } := by
  refine ⟨fun service => ?_, ?_⟩
  · obtain ⟨hown, houtbox, hended, -, hstatus⟩ := h.services service
    refine ⟨hown, ?_, hended, hclosed service, ?_⟩
    · simpa only [hbackends] using houtbox
    · simpa only [hready, hevents] using hstatus
  · simpa only [hready] using h.published

/-- A step of the router by which nothing is lost of what is on its way. -/
theorem AgreesAt.router {D D' : Router} {service : String} {B : BackendTask} {outbox rest : List BackendEvent}
    (h : AgreesAt D service B outbox) (hbackends : D'.backends = D.backends) (hclosed : D'.closed = D.closed)
    (hrest : rest ⊆ outbox) (hstatus : latest (decide (service ∈ D'.ready)) (statuses service (D'.events ++ rest)) =
      latest (decide (service ∈ D.ready)) (statuses service (D.events ++ outbox))) : AgreesAt D' service B rest where
  own := h.own
  handed event hmem := hbackends.symm ▸ h.handed event (hrest hmem)
  ended hended := List.subset_nil.1 (h.ended hended ▸ hrest)
  closed hmem := h.closed (hclosed ▸ hmem)
  status halive := hstatus.trans (h.status halive)

theorem statuses_other {service : String} {event : BackendEvent} (h : eventService event ≠ service) :
    statuses service [event] = [] := by
  cases event with
  | control => rfl
  | status about up => simpa [statuses, eventService] using h

theorem publish_of_ne {event : Dispatcher.Event} (h : event ≠ .take) (D : Router) : s.publish event D = s.registry := by
  unfold Local.publish
  split
  · exact absurd rfl h
  · rfl

theorem publish_status {service : String} {up : Bool} {rest : List BackendEvent} {D : Router}
    (h : s.router.events = .status service up :: rest) :
    s.publish .take D = if s.registry.ended then s.registry else { s.registry with readiness := D.ready, changed := true } := by
  simp only [Local.publish, h, RegistryActor.step]
  split <;> rfl

theorem publish_control {service : String} {msg : Sidecar.Message} {rest : List BackendEvent} {D : Router}
    (h : s.router.events = .control service msg :: rest) : s.publish .take D = s.registry := by
  simp only [Local.publish, h]

/-- **What the router publishes is what it knows.** -/
theorem Agrees.publish (h : Agrees s) {D : Router} {head : BackendEvent} {rest : List BackendEvent}
    (hnext : s.router.events = head :: rest) (hready : D.ready = ready s.router head) :
    (s.publish .take D).ended = false → (s.publish .take D).readiness = D.ready ∧
      ((s.publish .take D).changed = false → (s.publish .take D).state.backendReady = D.ready) := by
  cases head with
  | status service up =>
    rw [publish_status hnext]
    cases hended : s.registry.ended with
    | true => simp [hended]
    | false => simp
  | control service msg =>
    rw [publish_control hnext, hready]
    exact h.published

/-- The registry's part. -/
theorem Agrees.registry (h : Agrees s) {input : Registry.Input} {A : RegistryActor} (hown : isRegistry input = true)
    (hturned : Registry.Turned s.registry input A) : Agrees { s with registry := A } := by
  -- a pass of the planner changes none of this
  have hpump : ∀ (B : RegistryActor) env now, (B.ended = false → B.readiness = s.router.ready ∧
      (B.changed = false → B.state.backendReady = s.router.ready)) → ((B.pump env now).ended = false →
        (B.pump env now).readiness = s.router.ready ∧
          ((B.pump env now).changed = false → (B.pump env now).state.backendReady = s.router.ready)) := by
    intro B env now hB
    have hkept : (B.pump env now).state.backendReady = _ := (Registry.RegistryState.plan_kept env B.state now _).backendReady
    rw [hkept]
    exact hB
  refine { h with published := ?_ }
  cases hturned with
  | command c env now later =>
    have hkept : (s.registry.state.handle c now).backendReady = s.registry.state.backendReady := by
      cases c with
      | relayStateChanged needRelay active => exact (Registry.relayStateChanged_frame _ needRelay active).backendReady
      | _ => rfl
    refine hpump (s.registry.update _) _ _ fun hrunning => ⟨(h.published hrunning).1, fun hseen => ?_⟩
    exact hkept.trans ((h.published hrunning).2 hseen)
  | readinessChanged env now later =>
    exact hpump (RegistryActor.update { s.registry with changed := false } _) _ _ fun hrunning =>
      ⟨(h.published hrunning).1, fun _ => (h.published hrunning).1⟩
  | joined i env now later task result =>
    have hkept := (Registry.apply_standing env s.registry.state now result).backendReady
    refine hpump (RegistryActor.update { s.registry with jobs := s.registry.jobs.eraseIdx i } _) _ _ fun hrunning =>
      ⟨(h.published hrunning).1, fun hseen => ?_⟩
    exact hkept.trans ((h.published hrunning).2 hseen)
  | reset | dropped => exact hpump _ _ _ h.published
  | stop => exact fun hrunning => by cases hrunning
  | publish => cases hown
  | finish | panic => exact h.published

/-- **Every step keeps the agreement.** -/
theorem Agrees.step (h : Agrees s) (hmoved : Moved H s e t) : Agrees t := by
  cases hmoved with
  | task service env input r known free outside worked => exact h.advance known free (reports_of_worked worked)
  | command service env cmd r D known free worked drained =>
    have hadvanced := h.advance known free (reports_of_worked worked)
    cases drained with
    | drain service known more =>
      exact hadvanced.router rfl (fun other => (hadvanced.services other).closed) rfl rfl
  | post service event rest D next taken =>
    have hevent := ((h.services service).handed event (next ▸ List.mem_cons_self)).1
    cases taken with
    | post event known =>
      refine ⟨fun other => ?_, h.published⟩
      have hbefore := h.services other
      by_cases hother : other = service
      · subst hother
        simp only [Function.update_self]
        rw [next] at hbefore
        exact hbefore.router rfl rfl (List.subset_cons_self _ _) (by rw [← List.append_cons])
      · simp only [Function.update_of_ne hother]
        refine hbefore.router rfl rfl (List.Subset.refl _) ?_
        rw [statuses_append, statuses_append, statuses_append, statuses_other (by rw [hevent]; exact Ne.symm hother),
          List.append_nil]
  | route event D own acts =>
    obtain ⟨hbackends, hclosed, ⟨hne, hready, hevents⟩ | ⟨head, rest, rfl, hnext, hevents, hready⟩⟩ := router_frame acts own
    · rw [publish_of_ne hne]
      exact h.router hbackends (fun service hmem => (h.services service).closed (hclosed ▸ hmem)) hready hevents
    · refine ⟨fun service => (h.services service).router hbackends hclosed (List.Subset.refl _) ?_, h.publish hnext hready⟩
      rw [hready, hevents, latest_ready, hnext, List.cons_append]
  | closes service D ended acts =>
    cases acts with
    | closes service =>
      refine h.router rfl (fun other hmem => ?_) rfl rfl
      rcases Finset.mem_insert.1 hmem with rfl | hmem
      · exact ended
      · exact (h.services other).closed hmem
  | registry input A own turned => exact h.registry own turned

end Steps

/-! ## What is on its way arrives -/

/-- The steps that bring a status on: a task hands an event over, the router goes on, the controller takes a command, the
registry looks at the readiness. -/
def Event.internal : Event → Bool
  | .post _ | .route .take | .route .resume | .route .serve | .registry (.readinessChanged _ _ _) => true
  | _ => false

/-- What is left to do. -/
def Local.weight (s : Local) : Nat :=
  9 * ∑ service ∈ s.router.backends, (s.outbox service).length + s.router.weight + s.registry.changed.toNat

/-- **The registry knows which backends are up.** -/
def Settled (s : Local) : Prop := ∀ service, (s.tasks service).phase ≠ .ended →
  (service ∈ s.registry.state.backendReady ↔ (s.tasks service).phase = .connected)

section Settle

variable {H : Host} {s t : Local} {e : Event}

theorem outboxes_post {service : String} {event : BackendEvent} {rest : List BackendEvent} {backends : Finset String}
    (hknown : service ∈ backends) (hnext : s.outbox service = event :: rest) :
    ∑ other ∈ backends, (s.outbox other).length =
      ∑ other ∈ backends, (Function.update s.outbox service rest other).length + 1 := by
  rw [← Finset.add_sum_erase _ _ hknown, ← Finset.add_sum_erase _
    (fun other => (Function.update s.outbox service rest other).length) hknown, Function.update_self, hnext, List.length_cons]
  have hothers : ∑ other ∈ backends.erase service, (Function.update s.outbox service rest other).length =
      ∑ other ∈ backends.erase service, (s.outbox other).length :=
    Finset.sum_congr rfl (fun other hmem => by rw [Function.update_of_ne (Finset.ne_of_mem_erase hmem)])
  omega

theorem weight_take_status {service : String} {up : Bool} {rest : List BackendEvent} {D : Router}
    (hacts : Dispatcher.Acts H s.router .take D) (hnext : s.router.events = .status service up :: rest) :
    D.weight + 8 = s.router.weight := by
  cases hacts with
  | take event rest' free next =>
    cases next.symm.trans hnext
    have hqueued : ({ s.router with events := rest }.onEvent H (.status service up)).queued = s.router.queued := rfl
    simp only [Router.weight, hnext, List.length_cons, hqueued]
    simp only [Router.onEvent]
    omega

/-- **Every internal step lowers the weight** and leaves the tasks alone. -/
theorem Moved.weight_lt (hmoved : Moved H s e t) (h : Agrees s) (hinternal : e.internal = true) :
    t.weight < s.weight ∧ t.tasks = s.tasks ∧ (s.registry.ended = false → t.registry.ended = false) := by
  cases hmoved with
  | task | command | closes => cases hinternal
  | post service event rest D next taken =>
    refine ⟨?_, rfl, id⟩
    have hknown := ((h.services service).handed event (next ▸ List.mem_cons_self)).2.2
    cases taken with
    | post event known =>
      have hsum := outboxes_post hknown next
      have hqueued : ({ s.router with
        events := s.router.events ++ [event]
        received := (Dispatcher.eventKey event).toList ++ s.router.received } : Router).queued = s.router.queued := rfl
      simp only [Local.weight, Router.weight, List.length_append, List.length_singleton, hqueued]
      omega
  | route event D own acts =>
    obtain ⟨hbackends, -, ⟨hne, -, -⟩ | ⟨head, rest, rfl, hnext, -, -⟩⟩ := router_frame acts own
    · have hlower : D.weight < s.router.weight := by
        refine acts.weight_lt ?_
        cases event <;> first | rfl | cases hinternal
      simp only [Local.weight, publish_of_ne hne, hbackends]
      exact ⟨by omega, trivial, id⟩
    · cases head with
      | control service msg =>
        have hlower := acts.weight_lt rfl
        simp only [Local.weight, publish_control hnext, hbackends]
        exact ⟨by omega, trivial, id⟩
      | status service up =>
        have hlower := weight_take_status acts hnext
        have hchanged : ∀ flag : Bool, flag.toNat ≤ 1 := Bool.toNat_le
        refine ⟨?_, rfl, ?_⟩
        · have := hchanged (s.publish .take D).changed
          simp only [Local.weight, hbackends]
          omega
        · simp only [publish_status hnext]
          intro hrunning
          simp [hrunning]
  | registry input A own turned =>
    cases turned with
    | readinessChanged env now later changed clock order =>
      refine ⟨?_, rfl, id⟩
      simp only [Local.weight, RegistryActor.pump, RegistryActor.update, changed, Bool.toNat_true, Bool.toNat_false]
      omega
    | _ => cases hinternal

/-- **While the registry is behind an internal step is enabled.** -/
theorem Agrees.progress (h : Agrees s) (H : Host) (env : Registry.Env) (hrunning : s.registry.ended = false)
    (hbehind : ¬ Settled s) : ∃ e, e.internal = true ∧ (s.step H e).isSome = true := by
  cases hblocked : s.router.blocked with
  | some b =>
    obtain ⟨service, id, msg⟩ := b
    by_cases hroom : s.router.controllerGone = true ∨ s.router.controller.length < controllerQueueCapacity
    · exact ⟨.route .resume, rfl, by simp [Local.step, isRouter, Router.step, hblocked, hroom]⟩
    · have hmore : s.router.controller ≠ [] := fun hnil => hroom (.inr (by rw [hnil]; decide))
      exact ⟨.route .serve, rfl, by simp [Local.step, isRouter, Router.step, hmore]⟩
  | none =>
    cases hevents : s.router.events with
    | cons event rest => exact ⟨.route .take, rfl, by simp [Local.step, isRouter, Router.step, hblocked, hevents]⟩
    | nil =>
      by_cases hwaits : ∃ service, s.outbox service ≠ []
      · obtain ⟨service, hservice⟩ := hwaits
        obtain ⟨event, rest, hnext⟩ := List.exists_cons_of_ne_nil hservice
        obtain ⟨hown, hrelayed, hknown⟩ := (h.services service).handed event (hnext ▸ List.mem_cons_self)
        have hopen : service ∉ s.router.closed := fun hclosed =>
          hservice ((h.services service).ended ((h.services service).closed hclosed))
        refine ⟨.post service, rfl, ?_⟩
        simp [Local.step, hnext, Router.step, hrelayed, hown, hknown, hopen, hevents, eventQueueCapacity]
      · have hempty : ∀ service, s.outbox service = [] := fun service => by
          by_contra hservice
          exact hwaits ⟨service, hservice⟩
        cases hchanged : s.registry.changed with
        | true =>
          refine ⟨.registry (.readinessChanged env s.registry.clock s.registry.clock), rfl, ?_⟩
          simp [Local.step, isRegistry, RegistryActor.step, hrunning, hchanged]
        | false =>
          refine absurd (fun service halive => ?_) hbehind
          have hstatus := (h.services service).status halive
          rw [hevents, hempty service] at hstatus
          rw [(h.published hrunning).2 hchanged]
          exact decide_eq_decide.1 hstatus

end Settle

theorem agrees_new (backends : Finset String) (env : Registry.Env) (now later : Registry.Instant) :
    Agrees (.new backends env now later) := by
  refine ⟨fun service => ⟨rfl, fun _ hmem => (by cases hmem), fun _ => rfl, fun hmem => (by cases hmem), fun _ => rfl⟩,
    fun _ => ⟨rfl, fun _ => ?_⟩⟩
  exact (Registry.RegistryState.plan_kept env _ later _).backendReady

/-- **The registry catches up with the backends**: from every reachable state, while the registry runs and whatever order
the deliveries take, after finitely many of them no more is possible, and then the registry holds, of the backends whose
tasks have not ended, exactly those whose connection is up. -/
theorem readiness_settles (H : Host) (backends : Finset String) (env : Registry.Env) (now later : Registry.Instant)
    (events more : List Event) (s t : Local) (hrun : (sidecars H backends env now later).run events = some s)
    (hrunning : s.registry.ended = false) (hinternal : ∀ e ∈ more, e.internal = true)
    (hmore : (sidecars H backends env now later).runFrom s more = some t) :
    t.tasks = s.tasks ∧ more.length ≤ s.weight ∧ (Settled t ∨ ∃ e, e.internal = true ∧ (t.step H e).isSome = true) := by
  have hagrees := (sidecars H backends env now later).invariant_from (fun _ _ _ h _ hs => h.step (moved_of_step hs)) events
    _ s (agrees_new backends env now later) ((sidecars H backends env now later).meets_true events _) hrun
  have hmeets := (sidecars H backends env now later).meets_of_forall hinternal s
  obtain ⟨hafter, htasks, hended⟩ := (sidecars H backends env now later).invariant_from
    (P := fun r : Local => Agrees r ∧ r.tasks = s.tasks ∧ r.registry.ended = false)
    (fun r e r' h hin hs => by
      obtain ⟨-, htasks, hended⟩ := (moved_of_step hs).weight_lt h.1 hin
      exact ⟨h.1.step (moved_of_step hs), htasks.trans h.2.1, hended h.2.2⟩) more s t ⟨hagrees, rfl, hrunning⟩ hmeets hmore
  refine ⟨htasks, ?_, or_iff_not_imp_left.2 (hafter.progress H env hended)⟩
  have hok : (sidecars H backends env now later).Meets (fun r e => Agrees r ∧ e.internal = true) s more :=
    (sidecars H backends env now later).meets_of_invariant (fun r e r' h _ hs => h.step (moved_of_step hs))
      (fun r e h hin => ⟨h, hin⟩) hagrees hmeets
  have hlength := (sidecars H backends env now later).length_le_weight Local.weight
    (fun r e r' hok hs => ((moved_of_step hs).weight_lt hok.1 hok.2).1) hok hmore
  omega

/-- The connection of `chat` comes up; `mail` is refused. -/
def connectedRun : List Event :=
  [.task "mail" Backend.quietEnv (.connect (some "refused")), .task "chat" Backend.quietEnv (.connect none)]

/-- The status of `chat` reaches the registry. -/
def deliveredRun : List Event := [.post "chat", .route .take, .registry (.readinessChanged Registry.cmdEnv 1 1)]

theorem chat_settles : ∃ s t,
    (sidecars Dispatcher.selfHost {"chat", "mail"} Registry.cmdEnv 0 0).run connectedRun = some s ∧
    (sidecars Dispatcher.selfHost {"chat", "mail"} Registry.cmdEnv 0 0).runFrom s deliveredRun = some t ∧
    t.registry.state.backendReady = {"chat"} ∧ t.tasks = s.tasks ∧ deliveredRun.length ≤ s.weight ∧
    (Settled t ∨ ∃ e, e.internal = true ∧ (t.step Dispatcher.selfHost e).isSome = true) := by
  obtain ⟨s, hrun, hs⟩ := (sidecars Dispatcher.selfHost {"chat", "mail"} Registry.cmdEnv 0 0).exists_of_check
    (fun s => !s.registry.ended) connectedRun (by decide +kernel)
  obtain ⟨t, hmore, -, ht⟩ := Machine.exists_next _ hrun (fun t => decide (t.registry.state.backendReady = {"chat"})) deliveredRun
    (by decide +kernel)
  exact ⟨s, t, hrun, hmore, by simpa using ht, readiness_settles Dispatcher.selfHost {"chat", "mail"} Registry.cmdEnv 0 0
    connectedRun deliveredRun s t hrun (by simpa using hs) (by decide) hmore⟩

end Readiness
end NexusNet
