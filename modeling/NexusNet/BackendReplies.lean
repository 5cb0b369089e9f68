import NexusNet.Backend
import NexusNet.Machine
/-!
# BackendReplies — which reply answers which request

Runs of `backend_task`: requests wait in a table under the id they were written with, and a reply from the backend answers
the request of its id.  Every request that is taken from the queue is answered once or still waits (`account`); one that
waits was written on the connection that is open now (`Written`); and a connection does not end without an answer to all
that wait.
-/
namespace NexusNet
namespace Backend

open Sidecar (Message Uuid FrameError encodeFrame)

/-! ## Runs -/

/-- The task of a service. -/
def task (service : String) : Machine BackendTask (Env × Input) :=
  ⟨BackendTask.new service, fun B x => (B.step x.1 x.2).map (·.1)⟩

def BackendTask.effects (B : BackendTask) (x : Env × Input) : List Effect := ((B.step x.1 x.2).map (·.2)).getD []

def Effect.answered : Effect → Option Nat
  | .answer tx _ => some tx
  | _ => none

def Effect.told : Effect → Option (Nat × Except String Response)
  | .answer tx outcome => some (tx, outcome)
  | _ => none

/-- The channel of the request that an input takes from the queue. -/
def Input.request : Input → Option Nat
  | .command (some (.request req)) => some req.responseTx
  | _ => none

/-- The id drawn for the request that is written at an input. -/
def BackendTask.draws (B : BackendTask) (x : Env × Input) : Option Uuid :=
  if B.phase = .connected then x.2.request.map (fun _ => x.1.id) else none

/-- The channels answered in a run. -/
def answers (service : String) (es : List (Env × Input)) : List Nat :=
  (task service).outputs (fun B x => (B.effects x).filterMap Effect.answered) (task service).init es

/-- The channels of the requests taken from the queue. -/
def dequeued (service : String) (es : List (Env × Input)) : List Nat :=
  (task service).outputs (fun _ x => x.2.request.toList) (task service).init es

/-- The ids drawn. -/
def drawn (service : String) (es : List (Env × Input)) : List Uuid :=
  (task service).outputs (fun B x => (B.draws x).toList) (task service).init es

/-- How many requests wait with the channel. -/
def BackendTask.waiting (B : BackendTask) (tx : Nat) : Nat := B.pending.countOf tx

/-- A reply of the backend. -/
def Input.isReply : Input → Bool
  | .frame (some (.ok (.reply _ _ _ _))) => true
  | _ => false

/-- **The request of the channel was written under the id, on the connection that is open since.** -/
def Written (service : String) (es : List (Env × Input)) (id : Uuid) (tx : Nat) : Prop :=
  ∃ pre env req mid m frame, es = pre ++ (env, .command (some (.request req))) :: mid ∧
    (task service).run pre = some m ∧ env.id = id ∧ req.responseTx = tx ∧
    encodeFrame env.intoWriter (.request id service req.payload) = .ok frame ∧
    m.effects (env, .command (some (.request req))) = [.write frame] ∧
    (task service).Throughout (fun B => B.phase = .connected) m ((env, .command (some (.request req))) :: mid)

/-! ## What a step does -/

/-- **The steps of the task**, with the state after them and their effects. -/
inductive Worked (B : BackendTask) (env : Env) : Input → BackendTask → List Effect → Prop where
  | connected (phase : B.phase = .connecting) :
      Worked B env (.connect none) { B with phase := .connected, backoff := initialBackoff }
        [.event (.status B.service true)]
  | refused (error : String) (phase : B.phase = .connecting) :
      Worked B env (.connect (some error)) { B with phase := .waiting } []
  | elapsed (phase : B.phase = .waiting) :
      Worked B env .elapsed { B with phase := .connecting, backoff := min (B.backoff * 2) maxBackoff } []
  | rejected (req : InboundRequest) (phase : B.phase = .waiting) :
      Worked B env (.command (some (.request req))) B
        [.answer req.responseTx (.error ("backend not connected: " ++ B.service))]
  | discarded (msg : Message) (phase : B.phase = .waiting) : Worked B env (.command (some (.writeReply msg))) B []
  | stopped (input : Input) (phase : B.phase = .waiting) (last : input = .command none ∨ input = .shutdown) :
      Worked B env input { B with phase := .ended } []
  | answered (id : Uuid) (ok : Bool) (result : Option Bytes) (error : Option Sidecar.SidecarError) (tx : Nat)
      (phase : B.phase = .connected) (waits : B.pending.lookup id = some tx) :
      Worked B env (.frame (some (.ok (.reply id ok result error)))) { B with pending := B.pending.erase id }
        [.answer tx (BackendTask.replyOutcome ok result error)]
  | unknown (id : Uuid) (ok : Bool) (result : Option Bytes) (error : Option Sidecar.SidecarError)
      (phase : B.phase = .connected) (none : B.pending.lookup id = none) :
      Worked B env (.frame (some (.ok (.reply id ok result error)))) B []
  | control (msg : Message) (phase : B.phase = .connected)
      (other : (Input.frame (some (.ok msg))).isReply = false) :
      Worked B env (.frame (some (.ok msg))) B [.event (.control B.service msg)]
  | written (req : InboundRequest) (frame : Bytes) (phase : B.phase = .connected)
      (encoded : encodeFrame env.intoWriter (.request env.id B.service req.payload) = .ok frame) :
      Worked B env (.command (some (.request req))) { B with pending := B.pending.insert env.id req.responseTx }
        [.write frame]
  | replied (msg : Message) (frame : Bytes) (phase : B.phase = .connected) :
      Worked B env (.command (some (.writeReply msg))) B [.write frame]
  | failed (req : InboundRequest) (reason : String) (phase : B.phase = .connected) :
      Worked B env (.command (some (.request req))) (B.disconnect env).1
        (.answer req.responseTx (.error reason) :: (B.disconnect env).2)
  | broken (input : Input) (phase : B.phase = .connected) (noRequest : input.request = none)
      (noReply : input.isReply = false) : Worked B env input (B.disconnect env).1 (B.disconnect env).2
  | closed (input : Input) (reason : String) (phase : B.phase = .connected)
      (last : input = .command none ∨ input = .shutdown) :
      Worked B env input { B with phase := .ended, pending := ∅ } (B.drain env reason)

theorem send_eq_ok {env : Env} {msg : Message} {frame : Bytes} (h : BackendTask.send env msg = .ok frame) :
    encodeFrame env.intoWriter msg = .ok frame := by
  unfold BackendTask.send at h
  split at h
  · cases h
  · rename_i frame' hframe
    split at h
    · cases h
    · cases h
      exact hframe

theorem worked_onFrame {B : BackendTask} (env : Env) (phase : B.phase = .connected)
    (frame : Option (Except FrameError Message)) :
    Worked B env (.frame frame) (B.onFrame env frame).1 (B.onFrame env frame).2 := by
  rcases frame with _ | error | msg
  · exact .broken _ phase rfl rfl
  · exact .broken _ phase rfl rfl
  · cases msg with
    | reply id ok result error =>
      simp only [BackendTask.onFrame]
      split
      · rename_i tx hwaits
        exact .answered id ok result error tx phase hwaits
      · rename_i hnone
        exact .unknown id ok result error phase hnone
    | _ => exact .control _ phase rfl

theorem worked_request {B : BackendTask} (env : Env) (phase : B.phase = .connected) (req : InboundRequest) :
    Worked B env (.command (some (.request req))) (B.request env req).1 (B.request env req).2 := by
  unfold BackendTask.request
  split
  · exact .failed req _ phase
  · rename_i frame hsend
    exact .written req frame phase (send_eq_ok hsend)

theorem worked_writeReply {B : BackendTask} (env : Env) (phase : B.phase = .connected) (msg : Message) :
    Worked B env (.command (some (.writeReply msg))) (B.writeReply env msg).1 (B.writeReply env msg).2 := by
  unfold BackendTask.writeReply
  split
  · exact .broken _ phase rfl rfl
  · rename_i frame hsend
    exact .replied msg frame phase

/-- **Every step is one of the listed ones.** -/
theorem worked_of_step {B B' : BackendTask} {env : Env} {input : Input} {effects : List Effect}
    (h : B.step env input = some (B', effects)) : Worked B env input B' effects := by
  -- a step given by one of the handlers
  have of_eq : ∀ {r : BackendTask × List Effect}, Worked B env input r.1 r.2 → some r = some (B', effects) →
      Worked B env input B' effects := fun hw heq => by
    cases heq
    exact hw
  unfold BackendTask.step at h
  split at h <;> rename_i phase
  · cases h; exact .connected phase
  · cases h; exact .refused _ phase
  · cases h; exact .elapsed phase
  · cases h; exact .rejected _ phase
  · cases h; exact .discarded _ phase
  · cases h; exact .stopped _ phase (.inl rfl)
  · cases h; exact .stopped _ phase (.inr rfl)
  · exact of_eq (worked_onFrame env phase _) h
  · exact of_eq (worked_request env phase _) h
  · exact of_eq (worked_writeReply env phase _) h
  · cases h; exact .closed _ _ phase (.inl rfl)
  · cases h; exact .closed _ _ phase (.inr rfl)
  · cases h

theorem effects_of_step {B B' : BackendTask} {x : Env × Input} {effects : List Effect}
    (h : B.step x.1 x.2 = some (B', effects)) : B.effects x = effects := by
  rw [BackendTask.effects, h]
  rfl

theorem task_step_iff {service : String} {B B' : BackendTask} {x : Env × Input} :
    (task service).step B x = some B' ↔ ∃ effects, B.step x.1 x.2 = some (B', effects) := by
  simp only [task, Option.map_eq_some_iff, Prod.exists, exists_and_right, exists_eq_right]

/-! ## What the table keeps -/

theorem answered_drain (B : BackendTask) (env : Env) (reason : String) :
    (B.drain env reason).filterMap Effect.answered = (env.ids.list B.pending.keys).filterMap B.pending.lookup := by
  rw [BackendTask.drain, List.filterMap_map]
  exact List.filterMap_some

theorem count_drain (B : BackendTask) (env : Env) (reason : String) (tx : Nat) :
    ((B.drain env reason).filterMap Effect.answered).count tx = B.waiting tx := by
  rw [answered_drain, Dict.count_filterMap_lookup, BackendTask.waiting]

theorem count_disconnect (B : BackendTask) (env : Env) (tx : Nat) :
    ((B.disconnect env).2.filterMap Effect.answered).count tx = B.waiting tx := by
  have h : (B.disconnect env).2.filterMap Effect.answered =
      (B.drain env "backend disconnected").filterMap Effect.answered := by
    rw [BackendTask.disconnect, List.filterMap_append]
    exact List.append_nil _
  rw [h, count_drain]

theorem mem_drain {B : BackendTask} {id : Uuid} {tx : Nat} (h : B.pending.lookup id = some tx) (env : Env)
    (reason : String) : .answer tx (.error reason) ∈ B.drain env reason := by
  refine List.mem_map_of_mem (List.mem_filterMap.2 ⟨id, ?_, h⟩)
  exact env.ids.mem_list.2 (Finmap.mem_keys.2 (Finmap.mem_of_lookup_eq_some h))

theorem drain_errors {B : BackendTask} {env : Env} {reason : String} {effect : Effect} (h : effect ∈ B.drain env reason) :
    ∃ tx, effect = .answer tx (.error reason) := by
  obtain ⟨tx, -, rfl⟩ := List.mem_map.1 h
  exact ⟨tx, rfl⟩

namespace Worked

variable {B B' : BackendTask} {env : Env} {input : Input} {effects : List Effect}

theorem service (w : Worked B env input B' effects) : B'.service = B.service := by
  cases w <;> rfl

/-- Outside a connection nothing waits. -/
theorem idle (w : Worked B env input B' effects) (h : B.phase ≠ .connected → B.pending = ∅) :
    B'.phase ≠ .connected → B'.pending = ∅ := by
  cases w with
  | connected phase => exact fun hnot => absurd rfl hnot
  | written _ _ phase | answered _ _ _ _ _ phase => exact fun hnot => absurd phase hnot
  | failed | broken | closed => exact fun _ => rfl
  | refused _ phase | elapsed phase | stopped _ phase => exact fun _ => h (by simp [phase])
  | _ => exact h

/-- What waits after a step waited before on the same connection, or is the request that was just written. -/
theorem waits (w : Worked B env input B' effects) (h : B.phase ≠ .connected → B.pending = ∅) {id : Uuid} {tx : Nat}
    (hwaits : B'.pending.lookup id = some tx) : B.phase = .connected ∧ B'.phase = .connected ∧
      (B.pending.lookup id = some tx ∨ ∃ req frame, input = .command (some (.request req)) ∧ env.id = id ∧
        req.responseTx = tx ∧ encodeFrame env.intoWriter (.request id B.service req.payload) = .ok frame ∧
        effects = [.write frame]) := by
  -- a table that stays as it is belongs to an open connection
  have kept : B'.pending = B.pending → B.phase = .connected := fun hpending => by
    by_contra hnot
    rw [hpending, h hnot, Finmap.lookup_empty] at hwaits
    cases hwaits
  cases w with
  | connected phase | refused _ phase | elapsed phase | stopped _ phase => exact absurd (kept rfl) (by simp [phase])
  | failed | broken | closed => cases hwaits
  | answered id' _ _ _ _ phase =>
    refine ⟨phase, phase, .inl ?_⟩
    simp only [Dict.lookup_erase_ite] at hwaits
    split at hwaits
    · cases hwaits
    · exact hwaits
  | written req frame phase encoded =>
    refine ⟨phase, phase, ?_⟩
    simp only [Dict.lookup_insert_ite] at hwaits
    split at hwaits
    · rename_i hid
      cases hwaits
      subst hid
      exact .inr ⟨req, frame, rfl, rfl, rfl, encoded, rfl⟩
    · exact .inl hwaits
  | _ => exact ⟨kept rfl, kept rfl, .inl hwaits⟩

/-- **A step loses no request**: one that is taken is answered or waits, and one that waited is answered or still waits. -/
theorem balance (w : Worked B env input B' effects)
    (hfresh : ∀ id ∈ B.draws (env, input), B.pending.lookup id = none) (tx : Nat) :
    (effects.filterMap Effect.answered).count tx + B'.waiting tx = B.waiting tx + input.request.toList.count tx := by
  have hempty : ∀ B : BackendTask, B.pending = ∅ → B.waiting tx = 0 := fun B hB => by
    rw [BackendTask.waiting, hB, Dict.countOf_empty]
  cases w with
  | answered id ok result error tx' phase waits =>
    have h := Dict.countOf_erase waits tx
    simp only [BackendTask.waiting, Input.request, List.filterMap_cons, List.filterMap_nil, Effect.answered,
      Option.toList_none, List.count_nil]
    omega
  | written req frame phase encoded =>
    have hnone : B.pending.lookup env.id = none := hfresh _ (by rw [BackendTask.draws, if_pos phase]; rfl)
    have h := Dict.countOf_insert hnone req.responseTx tx
    simp only [BackendTask.waiting, Input.request, List.filterMap_cons, List.filterMap_nil, Effect.answered,
      Option.toList_some, List.count_nil]
    omega
  | failed req reason phase =>
    rw [hempty _ rfl, List.filterMap_cons]
    simp only [Effect.answered, Input.request, Option.toList_some]
    rw [List.count_cons, count_disconnect, List.count_singleton]
    omega
  | broken input phase noRequest =>
    rw [hempty _ rfl, count_disconnect, noRequest]
    rfl
  | closed input reason phase last =>
    rw [hempty _ rfl, count_drain]
    rcases last with rfl | rfl <;> rfl
  | stopped input phase last => rcases last with rfl | rfl <;> exact Nat.zero_add _
  | rejected req => exact Nat.add_comm _ _
  | _ => exact Nat.zero_add _

end Worked

/-! ## Runs of the task -/

/-- **What a run has established**: the table holds what was written on the open connection, and with fresh ids no request
is lost or answered twice. -/
structure Tracked (service : String) (es : List (Env × Input)) (B : BackendTask) : Prop where
  run : (task service).run es = some B
  named : B.service = service
  idle : B.phase ≠ .connected → B.pending = ∅
  written : ∀ id tx, B.pending.lookup id = some tx → Written service es id tx
  account : (drawn service es).Nodup →
    ∀ tx, (answers service es).count tx + B.waiting tx = (dequeued service es).count tx

theorem tracked_new (service : String) : Tracked service [] (task service).init :=
  ⟨rfl, rfl, fun _ => rfl, fun _ _ h => (by cases h), fun _ _ => rfl⟩

section Step

variable {service : String} {es : List (Env × Input)} {B B' : BackendTask} {x : Env × Input}

/-- A request that waits stays written as long as the connection is open. -/
theorem Written.more {id : Uuid} {tx : Nat} (h : Written service es id tx) (hrun : (task service).run (es ++ [x]) = some B')
    (hphase : B'.phase = .connected) : Written service (es ++ [x]) id tx := by
  obtain ⟨pre, env, req, mid, m, frame, rfl, hpre, hid, htx, hframe, heffects, hopen⟩ := h
  exact ⟨pre, env, req, mid ++ [x], m, frame, by simp, hpre, hid, htx, hframe, heffects,
    Machine.Throughout.extend _ hopen hpre hrun hphase⟩

/-- The id of a request that waits was drawn. -/
theorem Written.drawn {id : Uuid} {tx : Nat} (h : Written service es id tx) : id ∈ drawn service es := by
  obtain ⟨pre, env, req, mid, m, frame, rfl, hpre, rfl, -, -, -, hopen⟩ := h
  have hphase : m.phase = .connected := hopen [] _ m rfl rfl
  refine (task service).mem_outputs_of_mem hpre ?_
  rw [BackendTask.draws, if_pos hphase]
  exact List.mem_singleton.2 rfl

theorem Tracked.step (h : Tracked service es B) (hstep : (task service).step B x = some B') :
    Tracked service (es ++ [x]) B' := by
  obtain ⟨effects, heffects⟩ := task_step_iff.1 hstep
  have w := worked_of_step heffects
  have hrun := ((task service).runFrom_concat).2 ⟨B, h.run, hstep⟩
  refine ⟨hrun, w.service.trans h.named, w.idle h.idle, fun id tx hwaits => ?_, fun hfresh tx => ?_⟩
  · obtain ⟨hphase, hphase', hbefore | ⟨req, frame, hinput, hid, htx, hframe, hwrite⟩⟩ := w.waits h.idle hwaits
    · exact (h.written id tx hbefore).more hrun hphase'
    · obtain ⟨env, input⟩ := x
      cases hinput
      refine ⟨es, env, req, [], B, frame, rfl, h.run, hid, htx, h.named ▸ hframe,
        (effects_of_step heffects).trans hwrite, ?_⟩
      have hnow : (task service).Throughout (fun B => B.phase = .connected) B [] := (task service).throughout_nil.2 hphase
      exact Machine.Throughout.concat _ hnow ((task service).runFrom_cons.2 ⟨B', hstep, rfl⟩) hphase'
  · -- the id of the step is not one of those that wait, as these were drawn before
    rw [drawn, (task service).outputs_append h.run, (task service).outputs_singleton, List.nodup_append] at hfresh
    have hnew : ∀ id ∈ B.draws x, B.pending.lookup id = none := fun id hid => by
      cases hwaits : B.pending.lookup id with
      | none => rfl
      | some tx' =>
        exact absurd rfl (hfresh.2.2 id (h.written id tx' hwaits).drawn id (Option.mem_toList.2 hid))
    have hbalance := w.balance hnew tx
    have hbefore := h.account hfresh.1 tx
    rw [answers, dequeued, (task service).outputs_append h.run, (task service).outputs_append h.run,
      (task service).outputs_singleton, (task service).outputs_singleton, List.count_append, List.count_append,
      effects_of_step heffects, ← answers, ← dequeued]
    omega

/-- **The invariant holds along every run.** -/
theorem tracked_run (hrun : (task service).run es = some B) : Tracked service es B :=
  (task service).history_invariant (P := Tracked service) (tracked_new service)
    (fun _ _ _ _ h _ hs => h.step hs) es B hrun ((task service).meets_true es _)

end Step

/-! ## Answers -/

/-- **What holds of the requests in a state of a run.** -/
structure Correlated (service : String) (es : List (Env × Input)) (B : BackendTask) : Prop where
  /-- A request that was taken from the queue has been answered or waits, and not both. -/
  account : ∀ tx, (answers service es).count tx + B.waiting tx = (dequeued service es).count tx
  /-- Where each request has a channel of its own, no channel is answered twice. -/
  once : (dequeued service es).Nodup → (answers service es).Nodup
  /-- Outside a connection nothing waits. -/
  idle : B.phase ≠ .connected → B.pending = ∅
  /-- The next answer is an error, or the content of a reply that has the id under which the channel's request was written
  on the connection that is open. -/
  reply : ∀ env input B' effects tx outcome, B.step env input = some (B', effects) → .answer tx outcome ∈ effects →
    (input.isReply = false ∧ ∃ reason, outcome = .error reason) ∨
    ∃ id ok result error, input = .frame (some (.ok (.reply id ok result error))) ∧
      outcome = (if ok then .ok ⟨true, result.getD []⟩ else .error ((error.map (·.message)).getD "backend error")) ∧
      effects = [.answer tx outcome] ∧ B.phase = .connected ∧ Written service es id tx
  /-- A step that ends the connection answers all that wait with an error, leaves none waiting, and only then reports that
  the service is not ready, if it does. -/
  ends : ∀ env input B' effects, B.step env input = some (B', effects) → B.phase = .connected → B'.phase ≠ .connected →
    B'.pending = ∅ ∧ ∃ answers status, effects = answers ++ status ∧
      (∀ id tx, B.pending.lookup id = some tx → ∃ reason, .answer tx (.error reason) ∈ answers) ∧
      (∀ effect ∈ answers, ∃ tx reason, effect = .answer tx (.error reason)) ∧
      (status = [] ∨ status = [.event (.status service false)])
  /-- And the service is reported as not ready at no other step. -/
  reported : ∀ env input B' effects name, B.step env input = some (B', effects) →
    .event (.status name false) ∈ effects → B.phase = .connected ∧ B'.phase ≠ .connected

namespace Worked

variable {B B' : BackendTask} {env : Env} {input : Input} {effects : List Effect}

theorem mem_disconnect {effect : Effect} (h : effect ∈ (B.disconnect env).2) :
    (∃ tx, effect = .answer tx (.error "backend disconnected")) ∨ effect = .event (.status B.service false) := by
  rcases List.mem_append.1 h with h | h
  · exact .inl (drain_errors h)
  · exact .inr (List.mem_singleton.1 h)

theorem reply (w : Worked B env input B' effects) {tx : Nat} {outcome : Except String Response}
    (h : .answer tx outcome ∈ effects) : (input.isReply = false ∧ ∃ reason, outcome = .error reason) ∨
      ∃ id ok result error, input = .frame (some (.ok (.reply id ok result error))) ∧
        outcome = BackendTask.replyOutcome ok result error ∧ effects = [.answer tx outcome] ∧ B.phase = .connected ∧
        B.pending.lookup id = some tx := by
  have disconnected : .answer tx outcome ∈ (B.disconnect env).2 → ∃ reason, outcome = .error reason := fun h => by
    rcases mem_disconnect h with ⟨tx', heq⟩ | heq
    · cases heq
      exact ⟨_, rfl⟩
    · cases heq
  cases w with
  | answered id ok result error tx' phase waits =>
    cases List.mem_singleton.1 h
    exact .inr ⟨id, ok, result, error, rfl, rfl, rfl, phase, waits⟩
  | rejected req =>
    cases List.mem_singleton.1 h
    exact .inl ⟨rfl, _, rfl⟩
  | failed req reason phase =>
    rcases List.mem_cons.1 h with heq | h
    · cases heq
      exact .inl ⟨rfl, _, rfl⟩
    · exact .inl ⟨rfl, disconnected h⟩
  | broken input phase noRequest noReply => exact .inl ⟨noReply, disconnected h⟩
  | closed input reason phase last =>
    obtain ⟨tx', heq⟩ := drain_errors h
    cases heq
    exact .inl ⟨by rcases last with rfl | rfl <;> rfl, _, rfl⟩
  | _ => simp at h

theorem ends (w : Worked B env input B' effects) (hphase : B.phase = .connected) (hphase' : B'.phase ≠ .connected) :
    B'.pending = ∅ ∧ ∃ answers status, effects = answers ++ status ∧
      (∀ id tx, B.pending.lookup id = some tx → ∃ reason, .answer tx (.error reason) ∈ answers) ∧
      (∀ effect ∈ answers, ∃ tx reason, effect = .answer tx (.error reason)) ∧
      (status = [] ∨ status = [.event (.status B.service false)]) := by
  have drained : ∀ reason, (∀ id tx, B.pending.lookup id = some tx → ∃ r, .answer tx (.error r) ∈ B.drain env reason) ∧
      ∀ effect ∈ B.drain env reason, ∃ tx r, effect = .answer tx (.error r) := fun reason =>
    ⟨fun id tx hwaits => ⟨reason, mem_drain hwaits env reason⟩, fun effect h => by
      obtain ⟨tx, rfl⟩ := drain_errors h
      exact ⟨tx, reason, rfl⟩⟩
  cases w with
  | failed req reason phase =>
    refine ⟨rfl, _ :: B.drain env "backend disconnected", _, rfl, fun id tx hwaits => ?_, ?_, .inr rfl⟩
    · obtain ⟨r, hr⟩ := (drained "backend disconnected").1 id tx hwaits
      exact ⟨r, List.mem_cons_of_mem _ hr⟩
    · rintro effect (_ | ⟨_, h⟩)
      · exact ⟨_, _, rfl⟩
      · exact (drained "backend disconnected").2 effect h
  | broken => exact ⟨rfl, _, _, rfl, (drained _).1, (drained _).2, .inr rfl⟩
  | closed input reason => exact ⟨rfl, _, [], (List.append_nil _).symm, (drained reason).1, (drained reason).2, .inl rfl⟩
  | _ => simp_all

theorem reported (w : Worked B env input B' effects) {name : String} (h : .event (.status name false) ∈ effects) :
    B.phase = .connected ∧ B'.phase ≠ .connected := by
  cases w with
  | failed _ _ phase | broken _ phase => exact ⟨phase, by simp [BackendTask.disconnect]⟩
  | closed input reason phase =>
    obtain ⟨tx, heq⟩ := drain_errors h
    cases heq
  | control msg phase other => simp at h
  | _ => simp at h

end Worked

/-- **Replies answer the requests they were sent for.**  Along every run of the task in which the ids drawn are fresh:
every request that was taken is answered once or waits; a reply answers only the request written under its id on the same
connection, with its result if it is one of success and with its error otherwise; and a connection ends with an error for all that wait and an empty table, before the service is reported as not
ready. -/
theorem replies_correlated (service : String) (es : List (Env × Input)) (B : BackendTask)
    (hrun : (task service).run es = some B) (hfresh : (drawn service es).Nodup) : Correlated service es B := by
  have h := tracked_run hrun
  refine ⟨h.account hfresh, fun hown => ?_, h.idle, fun env input B' effects tx outcome hstep hmem => ?_,
    fun env input B' effects hstep hphase hphase' => ?_, fun env input B' effects name hstep hmem =>
      (worked_of_step hstep).reported hmem⟩
  · refine List.nodup_iff_count_le_one.2 (fun tx => ?_)
    have hone := List.nodup_iff_count_le_one.1 hown tx
    have haccount := h.account hfresh tx
    omega
  · rcases (worked_of_step hstep).reply hmem with herror |
      ⟨id, ok, result, error, hinput, houtcome, heffects, hphase, hwaits⟩
    · exact .inl herror
    · exact .inr ⟨id, ok, result, error, hinput, houtcome, heffects, hphase, h.written id tx hwaits⟩
  · exact h.named ▸ (worked_of_step hstep).ends hphase hphase'

/-- Two requests on one connection, of which one is answered; the connection fails and the other one's reply comes on the
next. -/
def twoConnections : List (Env × Input) :=
  [(quietEnv, .connect none),
   (quietEnv, .command (some (.request ⟨"cmd", [1], 7⟩))),
   ({ quietEnv with id := Vector.replicate 16 0 }, .command (some (.request ⟨"cmd", [2], 8⟩))),
   (quietEnv, .frame (some (.ok (.reply (Vector.replicate 16 0) true (some [3]) none)))),
   (quietEnv, .frame none),
   (quietEnv, .elapsed),
   (quietEnv, .connect none),
   (quietEnv, .frame (some (.ok (.reply Sidecar.someId true (some [4]) none))))]

theorem two_connections_correlated : (drawn "cmd" twoConnections).Nodup ∧
    (task "cmd").outputs (fun B x => (B.effects x).filterMap Effect.told) (task "cmd").init twoConnections =
      [(8, .ok ⟨true, [3]⟩), (7, .error "backend disconnected")] ∧ answers "cmd" twoConnections = [8, 7] ∧
    ∃ B, (task "cmd").run twoConnections = some B ∧ Correlated "cmd" twoConnections B :=
  ⟨by decide +kernel, by decide +kernel, by decide +kernel, _, rfl, replies_correlated "cmd" twoConnections _ rfl (by decide +kernel)⟩

end Backend
end NexusNet
