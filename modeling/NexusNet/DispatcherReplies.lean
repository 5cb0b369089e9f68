import Mathlib.Algebra.BigOperators.Group.Finset.Basic
import Mathlib.Algebra.Ring.Nat
import NexusNet.Dispatcher
/-!
# DispatcherReplies — what becomes of the reply to a control message

A reply is owed from the moment a backend sends its message: while the message waits for the router, while a task waits
for the outcome or for room.  `step_balance` is the account of one step: what is owed is put on the queue of the backend
that asked, or stays owed, or is lost where the router itself replies to a full queue (`Router.lost`).  So a run answers
every message exactly once if and only if no step loses a reply.  Every internal step lowers `Router.weight` and one is
enabled while something is owed, so nothing stays owed for ever (`replied_throughout_iff`).
-/
namespace NexusNet
namespace Dispatcher

open Sidecar (Message Uuid)
open Backend (BackendCmd BackendEvent InboundRequest)

/-- The id of the message that a reply answers. -/
def answers : Message → Option Uuid
  | .reply id _ _ _ => some id
  | _ => none

/-- The backend that a reply goes to, and the id that the reply itself carries. -/
def replyKey : String × BackendCmd → Option (String × Uuid)
  | (service, .writeReply msg) => (answers msg).map (fun id => (service, id))
  | _ => none

namespace Router

/-- The replies that were put on the queues. -/
def replies (D : Router) : List (String × Uuid) := D.enqueued.filterMap replyKey

/-- The replies that are still to be put on a queue. -/
def owed (D : Router) : List (String × Uuid) :=
  D.events.filterMap eventKey ++ (D.blocked.map (fun b => (b.1, b.2.1))).toList ++ D.tasks.map (fun t => (t.origin, t.id))

/-- The router itself replies to a message, without a task. -/
def repliesAtOnce (H : Host) (D : Router) (msg : Message) : Bool :=
  match routeLocal H D.ready msg with
  | .toLocal target => decide (target ∉ D.backends)
  | .reject _ => true
  | .remote => D.controllerGone

def lostReply (D : Router) (service : String) (id : Uuid) : Option (String × Uuid) :=
  if D.isFull service ∧ service ∉ D.closed then some (service, id) else none

/-- **The reply a step loses**: the router replies itself, and the queue of the backend that asked is full. -/
def lost (H : Host) (D : Router) : Event → Option (String × Uuid)
  | .take =>
    match D.blocked, D.events with
    | none, .control service msg :: _ =>
      msg.id.bind (fun id => if D.repliesAtOnce H msg then D.lostReply service id else none)
    | _, _ => none
  | .resume => D.blocked.bind (fun b => if D.controllerGone then D.lostReply b.1 b.2.1 else none)
  | _ => none

/-- **Every message of a backend whose connection is up has one reply**, on the queue or still owed. -/
def Replied (D : Router) : Prop :=
  ∀ k : String × Uuid, k.1 ∉ D.closed → D.received.count k = D.replies.count k + D.owed.count k

/-- The task owes its reply to a backend, and the reply it sends carries the id of the message. -/
def Owes (D : Router) (task : ReplyTask) : Prop :=
  task.origin ∈ D.backends ∧ ∀ reply, task.stage = .sending reply → answers reply = some task.id

/-- **Everything the router works on comes from a backend.** -/
structure Known (D : Router) : Prop where
  events : ∀ event ∈ D.events, eventService event ∈ D.backends
  blocked : ∀ b, D.blocked = some b → b.1 ∈ D.backends
  tasks : ∀ task ∈ D.tasks, D.Owes task

/-- What the handling of a message leaves. -/
structure Frame (D D' : Router) : Prop where
  backends : D'.backends = D.backends
  closed : D'.closed = D.closed
  ready : D'.ready = D.ready
  events : D'.events = D.events
  received : D'.received = D.received

end Router

theorem answers_failure (id : Uuid) (code message : String) : answers (failure id code message) = some id := rfl

theorem answers_commandReply (id : Uuid) (outcome : Awaited Bytes) : answers (commandReply id outcome) = some id := by
  unfold commandReply
  split <;> rfl

theorem answers_localReply (H : Host) (id : Uuid) (outcome : Awaited Response) :
    answers (localReply H id outcome) = some id := by
  unfold localReply
  split
  · split <;> rfl
  all_goals rfl

section Account

variable {H : Host} {D D' : Router} {service : String} {id : Uuid} {msg reply : Message} {k : String × Uuid}

theorem replies_push_reply (service : String) (hreply : answers reply = some id) :
    (D.push service (.writeReply reply)).replies = (service, id) :: D.replies := by
  simp [Router.replies, Router.push, replyKey, hreply]

theorem count_tryReply (hk : k.1 ∉ D.closed) (service : String) (hreply : answers reply = some id) :
    (D.tryReply service reply).replies.count k + (D.lostReply service id).toList.count k =
      D.replies.count k + [(service, id)].count k := by
  unfold Router.tryReply Router.lostReply
  by_cases hclosed : service ∈ D.closed
  · have hne : (service, id) ≠ k := fun heq => hk (by rw [← heq]; exact hclosed)
    simp [hclosed, hne]
  · by_cases hfull : D.isFull service = true
    · simp [hclosed, hfull]
    · simp [hclosed, hfull, replies_push_reply service hreply, List.count_cons]

theorem tryReply_frame (D : Router) (service : String) (reply : Message) : D.Frame (D.tryReply service reply) := by
  unfold Router.tryReply
  split <;> exact ⟨rfl, rfl, rfl, rfl, rfl⟩

theorem owed_tryReply (reply : Message) : (D.tryReply service reply).owed = D.owed := by
  unfold Router.tryReply
  split <;> rfl

theorem count_spawn (stage : Stage) :
    (D.spawn ⟨service, id, stage⟩).owed.count k = D.owed.count k + [(service, id)].count k := by
  simp only [Router.owed, Router.spawn, List.map_append, List.map_cons, List.map_nil, List.count_append]
  omega

/-- **A message for the controller**: it is passed on, or waits, or is replied to at once. -/
theorem count_forwardCommand (hk : k.1 ∉ D.closed) (hblocked : D.blocked = none) :
    (D.forwardCommand service id msg).replies.count k + (D.forwardCommand service id msg).owed.count k +
      (if D.controllerGone then D.lostReply service id else none).toList.count k =
      D.replies.count k + D.owed.count k + [(service, id)].count k := by
  unfold Router.forwardCommand
  split
  · have := count_tryReply hk service (answers_failure id "node_gone" "node unavailable")
    rw [owed_tryReply]
    omega
  · split
    · rw [count_spawn]
      have howed : { D with controller := D.controller ++ [msg] }.owed = D.owed := rfl
      rw [howed]
      exact (Nat.add_assoc _ _ _).symm
    · simp only [Router.replies, Router.owed, hblocked, Option.map_some, Option.map_none, Option.toList_some, Option.toList_none,
        List.count_append, List.count_nil]
      omega

/-- **A control message**: its reply is owed, put on the queue, or lost. -/
theorem count_forwardControl (hk : k.1 ∉ D.closed) (hblocked : D.blocked = none) (hid : msg.id = some id)
    (hknown : service ∈ D.backends) :
    (D.forwardControl H service msg).replies.count k + (D.forwardControl H service msg).owed.count k +
      (if D.repliesAtOnce H msg then D.lostReply service id else none).toList.count k =
      D.replies.count k + D.owed.count k + [(service, id)].count k := by
  cases hroute : routeLocal H D.ready msg with
  | toLocal target =>
    simp only [Router.forwardControl, Router.repliesAtOnce, Router.forwardLocal, hid, hroute, hknown, not_true_eq_false,
      if_false]
    by_cases htarget : target ∈ D.backends
    · simp only [htarget, not_true_eq_false, if_false, decide_false, Bool.false_eq_true, Option.toList_none,
        List.count_nil]
      rw [count_spawn]
      exact (Nat.add_assoc _ _ _).symm
    · have := count_tryReply hk service (answers_failure id "no_backend" ("no backend for service " ++ target))
      simp only [htarget, not_false_eq_true, if_true, decide_true]
      rw [owed_tryReply]
      omega
  | reject reason =>
    have := count_tryReply hk service (answers_failure id "backend_not_ready" reason)
    simp only [Router.forwardControl, Router.repliesAtOnce, hid, hroute, hknown, not_true_eq_false, if_false, if_true]
    rw [owed_tryReply]
    omega
  | remote =>
    simp only [Router.forwardControl, Router.repliesAtOnce, hid, hroute, hknown, not_true_eq_false, if_false]
    exact count_forwardCommand hk hblocked

theorem forwardCommand_frame (D : Router) (service : String) (id : Uuid) (msg : Message) :
    D.Frame (D.forwardCommand service id msg) := by
  unfold Router.forwardCommand
  split
  · exact tryReply_frame D service _
  · split <;> exact ⟨rfl, rfl, rfl, rfl, rfl⟩

theorem forwardControl_frame (H : Host) (D : Router) (service : String) (msg : Message) :
    D.Frame (D.forwardControl H service msg) := by
  unfold Router.forwardControl
  split
  · exact ⟨rfl, rfl, rfl, rfl, rfl⟩
  split
  · exact ⟨rfl, rfl, rfl, rfl, rfl⟩
  split
  · unfold Router.forwardLocal
    split
    · exact ⟨rfl, rfl, rfl, rfl, rfl⟩
    split
    · exact tryReply_frame D service _
    · exact ⟨rfl, rfl, rfl, rfl, rfl⟩
  · exact tryReply_frame D service _
  · exact forwardCommand_frame D service _ msg

theorem forwardInbound_frame (D : Router) (req : InboundRequest) : (D.forwardInbound req).1.replies = D.replies ∧
    ∃ queue enqueued, (D.forwardInbound req).1 = { D with queue := queue, enqueued := enqueued } := by
  unfold Router.forwardInbound
  split
  · exact ⟨rfl, _, _, rfl⟩
  split
  · exact ⟨rfl, _, _, rfl⟩
  split <;> exact ⟨rfl, _, _, rfl⟩

theorem map_set_same {α β : Type} {f : α → β} {l : List α} {i : Nat} {a b : α} (h : l[i]? = some a) (hf : f b = f a) :
    (l.set i b).map f = l.map f := by
  obtain ⟨hi, rfl⟩ := List.getElem?_eq_some_iff.1 h
  have hi' : i < (l.map f).length := by rwa [List.length_map]
  rw [List.map_set, hf, ← List.getElem_map f (h := hi'), List.set_getElem_self]

theorem count_map_eraseIdx {α β : Type} [BEq β] [LawfulBEq β] {f : α → β} {l : List α} {i : Nat} {a : α}
    (h : l[i]? = some a) (b : β) : (l.map f).count b = ((l.eraseIdx i).map f).count b + [f a].count b := by
  obtain ⟨hi, rfl⟩ := List.getElem?_eq_some_iff.1 h
  have hperm := ((List.getElem_cons_eraseIdx_perm hi).map f).count_eq b
  rw [← hperm, List.map_cons, List.count_cons, List.count_singleton]

/-- A stage of a task leaves what is owed. -/
theorem owed_setStage {i : Nat} {task : ReplyTask} (h : D.tasks[i]? = some task) (stage : Stage) :
    (D.setStage i task stage).owed = D.owed := by
  simp only [Router.owed, Router.setStage]
  exact congrArg _ (map_set_same h rfl)

theorem startLocal_frame {i : Nat} {task : ReplyTask} (h : D.tasks[i]? = some task) (target : String) (payload : Bytes)
    (tx : Nat) : (D.startLocal i task target payload tx).owed = D.owed ∧
      (D.startLocal i task target payload tx).replies = D.replies ∧ D.Frame (D.startLocal i task target payload tx) := by
  unfold Router.startLocal
  split
  · exact ⟨owed_setStage h _, rfl, rfl, rfl, rfl, rfl, rfl⟩
  split
  · exact ⟨owed_setStage h _, rfl, rfl, rfl, rfl, rfl, rfl⟩
  · exact ⟨@owed_setStage (D.push target (.request ⟨target, payload, tx⟩)) i task h .response, rfl, rfl, rfl, rfl, rfl, rfl⟩

end Account

/-! ## Steps -/

/-- **What a step does**, by what it found. -/
inductive Acts (H : Host) (D : Router) : Event → Router → Prop where
  | inbound (req : InboundRequest) : Acts H D (.inbound req) (D.forwardInbound req).1
  | post (event : BackendEvent) (known : eventService event ∈ D.backends) :
      Acts H D (.post event)
        { D with events := D.events ++ [event], received := (eventKey event).toList ++ D.received }
  | take (event : BackendEvent) (rest : List BackendEvent) (free : D.blocked = none) (next : D.events = event :: rest) :
      Acts H D .take ({ D with events := rest }.onEvent H event)
  | resume (service : String) (id : Uuid) (msg : Message) (waits : D.blocked = some (service, id, msg))
      (room : D.controllerGone ∨ D.controller.length < controllerQueueCapacity) :
      Acts H D .resume ({ D with blocked := none }.forwardCommand service id msg)
  | start (i tx : Nat) (task : ReplyTask) (target : String) (payload : Bytes) (there : D.tasks[i]? = some task)
      (stage : task.stage = .start target payload) : Acts H D (.start i tx) (D.startLocal i task target payload tx)
  | responded (i : Nat) (outcome : Awaited Response) (task : ReplyTask) (there : D.tasks[i]? = some task)
      (stage : task.stage = .response) :
      Acts H D (.responded i outcome) (D.setStage i task (.sending (localReply H task.id outcome)))
  | commanded (i : Nat) (outcome : Awaited Bytes) (task : ReplyTask) (there : D.tasks[i]? = some task)
      (stage : task.stage = .command) :
      Acts H D (.commanded i outcome) (D.setStage i task (.sending (commandReply task.id outcome)))
  | sent (i : Nat) (task : ReplyTask) (msg : Message) (there : D.tasks[i]? = some task) (stage : task.stage = .sending msg) :
      Acts H D (.send i) ({ D with tasks := D.tasks.eraseIdx i }.push task.origin (.writeReply msg))
  | dropped (i : Nat) (task : ReplyTask) (msg : Message) (there : D.tasks[i]? = some task)
      (stage : task.stage = .sending msg) (gone : task.origin ∈ D.closed) :
      Acts H D (.send i) { D with tasks := D.tasks.eraseIdx i }
  | drain (service : String) (known : service ∈ D.backends) (more : D.queue service ≠ []) :
      Acts H D (.drain service) { D with queue := Function.update D.queue service (D.queue service).tail }
  | serve (more : D.controller ≠ []) : Acts H D .serve { D with controller := D.controller.tail }
  | controllerEnds : Acts H D .controllerEnds { D with controllerGone := true, controller := [] }
  | closes (service : String) : Acts H D (.closes service) { D with closed := insert service D.closed }

section Steps

variable {H : Host} {D D' : Router} {e : Event}

theorem acts_of_step (h : D.step H e = some D') : Acts H D e D' := by
  cases e with
  | inbound req =>
    obtain ⟨-, h⟩ := Option.ite_none_right_eq_some.1 h
    cases h
    exact .inbound req
  | post event =>
    obtain ⟨hguard, h⟩ := Option.ite_none_right_eq_some.1 h
    cases h
    exact .post event hguard.2.1
  | take =>
    simp only [Router.step] at h
    split at h
    · cases h
      exact .take _ _ ‹_› ‹_›
    · cases h
  | resume =>
    simp only [Router.step] at h
    split at h
    · obtain ⟨hroom, h⟩ := Option.ite_none_right_eq_some.1 h
      cases h
      exact .resume _ _ _ ‹_› hroom
    · cases h
  | start i tx =>
    obtain ⟨task, htask, h⟩ := Option.bind_eq_some_iff.1 h
    split at h <;> cases h
    exact .start i tx task _ _ htask ‹_›
  | responded i outcome =>
    obtain ⟨task, htask, h⟩ := Option.bind_eq_some_iff.1 h
    split at h <;> cases h
    exact .responded i outcome task htask ‹_›
  | commanded i outcome =>
    obtain ⟨task, htask, h⟩ := Option.bind_eq_some_iff.1 h
    split at h <;> cases h
    exact .commanded i outcome task htask ‹_›
  | send i =>
    obtain ⟨task, htask, h⟩ := Option.bind_eq_some_iff.1 h
    split at h
    · split at h
      · cases h
        exact .dropped i task _ htask ‹_› ‹_›
      · obtain ⟨-, h⟩ := Option.ite_none_left_eq_some.1 h
        cases h
        exact .sent i task _ htask ‹_›
    · cases h
  | drain service =>
    obtain ⟨hguard, h⟩ := Option.ite_none_right_eq_some.1 h
    cases h
    exact .drain service hguard.1 hguard.2.2
  | serve =>
    obtain ⟨hmore, h⟩ := Option.ite_none_left_eq_some.1 h
    cases h
    exact .serve hmore
  | controllerEnds =>
    cases h
    exact .controllerEnds
  | closes service =>
    cases h
    exact .closes service

theorem Router.Known.spawn (h : D.Known) {task : ReplyTask} (htask : D.Owes task) : (D.spawn task).Known := by
  refine ⟨h.events, h.blocked, fun task' hmem => ?_⟩
  rcases List.mem_append.1 hmem with hmem | hmem
  · exact h.tasks task' hmem
  · rw [List.mem_singleton.1 hmem]
    exact htask

theorem Router.Known.tryReply (h : D.Known) (service : String) (reply : Message) : (D.tryReply service reply).Known := by
  unfold Router.tryReply
  split
  · exact h
  · exact ⟨h.events, h.blocked, h.tasks⟩

theorem Router.Known.forwardCommand (h : D.Known) {service : String} (hservice : service ∈ D.backends) (id : Uuid)
    (msg : Message) : (D.forwardCommand service id msg).Known := by
  unfold Router.forwardCommand
  split
  · exact h.tryReply service _
  · split
    · have hsame : { D with controller := D.controller ++ [msg] }.Known := ⟨h.events, h.blocked, h.tasks⟩
      exact hsame.spawn ⟨hservice, fun reply hstage => by cases hstage⟩
    · refine ⟨h.events, fun b hb => ?_, h.tasks⟩
      cases hb
      exact hservice

theorem Router.Known.forwardControl (h : D.Known) {service : String} (hservice : service ∈ D.backends) (msg : Message) :
    (D.forwardControl H service msg).Known := by
  unfold Router.forwardControl
  split
  · exact h
  split
  · exact h
  split
  · unfold Router.forwardLocal
    split
    · exact h
    split
    · exact h.tryReply service _
    · exact h.spawn ⟨hservice, fun reply hstage => by cases hstage⟩
  · exact h.tryReply service _
  · exact h.forwardCommand hservice _ msg

theorem Router.Known.setStage (h : D.Known) {i : Nat} {task : ReplyTask} (hthere : D.tasks[i]? = some task) {stage : Stage}
    (hstage : ∀ reply, stage = .sending reply → answers reply = some task.id) : (D.setStage i task stage).Known := by
  refine ⟨h.events, h.blocked, fun task' hmem => ?_⟩
  rcases List.mem_or_eq_of_mem_set hmem with hmem | rfl
  · exact h.tasks task' hmem
  · exact ⟨(h.tasks task (List.mem_of_getElem? hthere)).1, hstage⟩

/-- A task goes on to send a reply that it has built. -/
theorem Router.Known.sending (h : D.Known) {i : Nat} {task : ReplyTask} (hthere : D.tasks[i]? = some task) {reply : Message}
    (hreply : answers reply = some task.id) : (D.setStage i task (.sending reply)).Known :=
  h.setStage hthere (fun reply' heq => by cases heq; exact hreply)

/-- **Every step keeps to the backends.** -/
theorem Acts.known (h : D.Known) (hacts : Acts H D e D') : D'.Known := by
  have herase : ∀ {i : Nat}, { D with tasks := D.tasks.eraseIdx i }.Known := fun {i} =>
    ⟨h.events, h.blocked, fun task hmem => h.tasks task (List.mem_of_mem_eraseIdx hmem)⟩
  cases hacts with
  | inbound req =>
    obtain ⟨-, queue, enqueued, heq⟩ := forwardInbound_frame D req
    rw [heq]
    exact ⟨h.events, h.blocked, h.tasks⟩
  | post event hknown =>
    refine ⟨fun event' hmem => ?_, h.blocked, h.tasks⟩
    rcases List.mem_append.1 hmem with hmem | hmem
    · exact h.events event' hmem
    · rw [List.mem_singleton.1 hmem]
      exact hknown
  | take event rest hfree hnext =>
    have hrest : { D with events := rest }.Known :=
      ⟨fun event' hmem => h.events event' (by rw [hnext]; exact List.mem_cons_of_mem _ hmem), h.blocked, h.tasks⟩
    cases event with
    | status service ready => exact ⟨hrest.events, h.blocked, h.tasks⟩
    | control service msg =>
      exact hrest.forwardControl (h.events (.control service msg) (by rw [hnext]; exact List.mem_cons_self)) msg
  | resume service id msg hwaits hroom =>
    have hfree : { D with blocked := none }.Known := ⟨h.events, fun b hb => (by cases hb), h.tasks⟩
    exact hfree.forwardCommand (h.blocked _ hwaits) id msg
  | start i tx task target payload htask hstage =>
    unfold Router.startLocal
    split
    · exact h.sending htask (answers_failure _ _ _)
    split
    · exact h.sending htask (answers_failure _ _ _)
    · have hpush : (D.push target (.request ⟨target, payload, tx⟩)).Known := ⟨h.events, h.blocked, h.tasks⟩
      exact hpush.setStage htask (fun reply heq => by cases heq)
  | responded i outcome task htask hstage => exact h.sending htask (answers_localReply H task.id outcome)
  | commanded i outcome task htask hstage => exact h.sending htask (answers_commandReply task.id outcome)
  | sent i task msg htask hstage => exact ⟨h.events, h.blocked, herase.tasks⟩
  | dropped i task msg htask hstage hgone => exact herase
  | _ => exact ⟨h.events, h.blocked, h.tasks⟩

/-- The account of a message the router takes. -/
theorem balance_take {event : BackendEvent} {rest : List BackendEvent} (hknown : D.Known) (hfree : D.blocked = none)
    (hnext : D.events = event :: rest) (k : String × Uuid)
    (hk : k.1 ∉ ({ D with events := rest }.onEvent H event).closed) :
    ({ D with events := rest }.onEvent H event).received.count k + (D.replies.count k + D.owed.count k) =
      D.received.count k + (({ D with events := rest }.onEvent H event).replies.count k +
        ({ D with events := rest }.onEvent H event).owed.count k + (D.lost H .take).toList.count k) := by
  cases event with
  | status service ready =>
    have hlost : D.lost H .take = none := by simp only [Router.lost, hfree, hnext]
    have hkeys : D.events.filterMap eventKey = rest.filterMap eventKey := by rw [hnext, List.filterMap_cons_none rfl]
    rw [hlost]
    simp [Router.onEvent, Router.replies, Router.owed, hkeys]
  | control service msg =>
    have hservice : service ∈ D.backends := hknown.events (.control service msg) (by rw [hnext]; exact List.mem_cons_self)
    have hframe := forwardControl_frame H { D with events := rest } service msg
    rw [Router.onEvent] at hk ⊢
    rw [hframe.closed] at hk
    rw [hframe.received]
    cases hid : msg.id with
    | none =>
      have hlost : D.lost H .take = none := by simp only [Router.lost, hfree, hnext, hid, Option.bind_none]
      have hkeys : D.events.filterMap eventKey = rest.filterMap eventKey := by
        rw [hnext, List.filterMap_cons_none (by simp [eventKey, hid])]
      rw [hlost]
      simp [Router.forwardControl, hid, Router.replies, Router.owed, hkeys]
    | some id =>
      have hlost : D.lost H .take = if { D with events := rest }.repliesAtOnce H msg then
          { D with events := rest }.lostReply service id else none := by
        simp only [Router.lost, hfree, hnext, hid, Option.bind_some]
        rfl
      have howed : D.owed.count k = { D with events := rest }.owed.count k + [(service, id)].count k := by
        simp only [Router.owed, hnext, List.filterMap_cons, eventKey, hid, Option.map_some, List.count_append,
          List.count_cons, List.count_nil]
        omega
      have hcount := @count_forwardControl H { D with events := rest } service id msg k hk hfree hid hservice
      have hreplies : { D with events := rest }.replies = D.replies := rfl
      rw [hlost, howed]
      rw [hreplies] at hcount
      simp only at hcount ⊢
      omega

/-- The account of a message that waited for the controller. -/
theorem balance_resume {service : String} {id : Uuid} {msg : Message} (hwaits : D.blocked = some (service, id, msg))
    (k : String × Uuid) (hk : k.1 ∉ ({ D with blocked := none }.forwardCommand service id msg).closed) :
    ({ D with blocked := none }.forwardCommand service id msg).received.count k + (D.replies.count k + D.owed.count k) =
      D.received.count k + (({ D with blocked := none }.forwardCommand service id msg).replies.count k +
        ({ D with blocked := none }.forwardCommand service id msg).owed.count k + (D.lost H .resume).toList.count k) := by
  have hframe := forwardCommand_frame { D with blocked := none } service id msg
  rw [hframe.closed] at hk
  rw [hframe.received]
  have hlost : D.lost H .resume = if { D with blocked := none }.controllerGone then
      { D with blocked := none }.lostReply service id else none := by
    simp only [Router.lost, hwaits, Option.bind_some]
    rfl
  have howed : D.owed.count k = { D with blocked := none }.owed.count k + [(service, id)].count k := by
    simp only [Router.owed, hwaits, Option.map_some, Option.map_none, Option.toList_some, Option.toList_none,
      List.count_append, List.count_nil]
    omega
  have hcount := @count_forwardCommand { D with blocked := none } service id msg k hk rfl
  have hreplies : { D with blocked := none }.replies = D.replies := rfl
  rw [hlost, howed]
  rw [hreplies] at hcount
  simp only at hcount ⊢
  omega

/-- **The account of one step**, for a backend whose queue is open after it: what was received is put on the queue, stays
owed, or is lost. -/
theorem step_balance (hknown : D.Known) (hacts : Acts H D e D') (k : String × Uuid) (hk : k.1 ∉ D'.closed) :
    D'.received.count k + (D.replies.count k + D.owed.count k) =
      D.received.count k + (D'.replies.count k + D'.owed.count k + (D.lost H e).toList.count k) := by
  cases hacts with
  | inbound req =>
    obtain ⟨hreplies, queue, enqueued, heq⟩ := forwardInbound_frame D req
    rw [hreplies, heq]
    simp [Router.lost, Router.owed]
  | post event _ =>
    have hkey : ([event].filterMap eventKey).count k = (eventKey event).toList.count k := by
      cases h : eventKey event <;> simp [h]
    simp only [Router.replies, Router.owed, Router.lost, List.count_append, List.filterMap_append, Option.toList_none,
      List.count_nil]
    omega
  | take event rest hfree hnext => exact balance_take hknown hfree hnext k hk
  | resume service id msg hwaits hroom => exact balance_resume hwaits k hk
  | start i tx task target payload htask hstage =>
    obtain ⟨howed, hreplies, hframe⟩ := startLocal_frame htask target payload tx
    rw [howed, hreplies, hframe.received]
    simp [Router.lost]
  | responded _ _ _ htask | commanded _ _ _ htask =>
    rw [owed_setStage htask]
    simp [Router.lost, Router.replies, Router.setStage]
  | sent i task msg htask hstage =>
    have herase := count_map_eraseIdx (f := fun t : ReplyTask => (t.origin, t.id)) htask k
    rw [replies_push_reply task.origin ((hknown.tasks task (List.mem_of_getElem? htask)).2 msg hstage)]
    simp only [Router.replies, Router.owed, Router.lost, Router.push, List.count_append, List.count_cons,
      Option.toList_none, List.count_nil] at herase ⊢
    omega
  | dropped i task msg htask hstage hgone =>
    have herase := count_map_eraseIdx (f := fun t : ReplyTask => (t.origin, t.id)) htask k
    have hne : [(task.origin, task.id)].count k = 0 := by
      rw [List.count_eq_zero, List.mem_singleton]
      rintro rfl
      exact hk hgone
    simp only [Router.replies, Router.owed, Router.lost, List.count_append, Option.toList_none, List.count_nil]
    omega
  | _ => simp [Router.lost, Router.replies, Router.owed]

theorem Acts.closed_mono (hacts : Acts H D e D') : D.closed ⊆ D'.closed := by
  cases hacts with
  | inbound req =>
    obtain ⟨-, queue, enqueued, heq⟩ := forwardInbound_frame D req
    rw [heq]
  | take event rest hfree hnext =>
    cases event with
    | status service ready => exact Finset.Subset.refl _
    | control service msg => exact (forwardControl_frame H { D with events := rest } service msg).closed.ge
  | resume service id msg hwaits hroom =>
    exact (forwardCommand_frame { D with blocked := none } service id msg).closed.ge
  | start i tx task target payload htask hstage => exact (startLocal_frame htask target payload tx).2.2.closed.ge
  | closes service => exact Finset.subset_insert _ _
  | _ => exact Finset.Subset.refl _

/-- A reply is lost only by a step that closes no queue, and to an open one. -/
theorem Acts.lost_open (hacts : Acts H D e D') {k : String × Uuid} (hlost : D.lost H e = some k) : k.1 ∉ D'.closed := by
  have hreply : ∀ {service id}, D.lostReply service id = some k → k.1 ∉ D.closed := by
    intro service id h
    obtain ⟨hopen, h⟩ := Option.ite_none_right_eq_some.1 h
    cases h
    exact hopen.2
  cases hacts with
  | take event rest hfree hnext =>
    cases event with
    | status service ready => simp only [Router.lost, hfree, hnext, reduceCtorEq] at hlost
    | control service msg =>
      simp only [Router.lost, hfree, hnext] at hlost
      obtain ⟨id, -, hlost⟩ := Option.bind_eq_some_iff.1 hlost
      rw [Router.onEvent, (forwardControl_frame H { D with events := rest } service msg).closed]
      exact hreply (Option.ite_none_right_eq_some.1 hlost).2
  | resume service id msg hwaits hroom =>
    simp only [Router.lost, hwaits, Option.bind_some] at hlost
    rw [(forwardCommand_frame { D with blocked := none } service id msg).closed]
    exact hreply (Option.ite_none_right_eq_some.1 hlost).2
  | _ => cases hlost

/-- **Exactly the steps that lose no reply keep the account.** -/
theorem replied_step_iff (hknown : D.Known) (h : D.Replied) (hacts : Acts H D e D') :
    D'.Replied ↔ D.lost H e = none := by
  constructor
  · intro h'
    refine Option.eq_none_iff_forall_ne_some.2 (fun k hlost => ?_)
    have hk := hacts.lost_open hlost
    have hbalance := step_balance hknown hacts k hk
    have hbefore := h k (fun hin => hk (hacts.closed_mono hin))
    have hafter := h' k hk
    rw [hlost, Option.toList_some, List.count_singleton_self] at hbalance
    omega
  · intro hlost k hk
    have hbalance := step_balance hknown hacts k hk
    have hbefore := h k (fun hin => hk (hacts.closed_mono hin))
    rw [hlost, Option.toList_none, List.count_nil] at hbalance
    omega

end Steps

/-! ## Nothing stays owed for ever -/

def Stage.weight : Stage → Nat
  | .start _ _ => 5
  | .response | .command => 3
  | .sending _ => 2

namespace Router

/-- The commands on the queues of the backends. -/
def queued (D : Router) : Nat := ∑ service ∈ D.backends, (D.queue service).length

/-- **The work that is left.**  A message weighs more than what becomes of it: a message that waits for the controller, a
task, a command on a queue. -/
def weight (D : Router) : Nat :=
  8 * D.events.length + 7 * D.blocked.toList.length + (D.tasks.map (fun task => task.stage.weight)).sum +
    D.controller.length + D.queued

/-- Nothing is owed. -/
def Quiet (D : Router) : Prop := D.events = [] ∧ D.blocked = none ∧ D.tasks = []

end Router

/-- A step of the router, of its tasks, of a backend that reads its commands or of the controller that takes its own. -/
def Event.internal : Event → Bool
  | .take | .resume | .start _ _ | .responded _ _ | .commanded _ _ | .send _ | .drain _ | .serve => true
  | .inbound _ | .post _ | .controllerEnds | .closes _ => false

section Weight

variable {H : Host} {D D' : Router} {e : Event}

theorem queued_push (D : Router) (service : String) (cmd : BackendCmd) : (D.push service cmd).queued ≤ D.queued + 1 := by
  simp only [Router.queued, Router.push]
  by_cases hin : service ∈ D.backends
  · rw [← Finset.add_sum_erase _ _ hin, ← Finset.add_sum_erase D.backends _ hin]
    have hrest : ∑ s ∈ D.backends.erase service, (Function.update D.queue service (D.queue service ++ [cmd]) s).length =
        ∑ s ∈ D.backends.erase service, (D.queue s).length :=
      Finset.sum_congr rfl (fun s hs => by rw [Function.update_of_ne (Finset.ne_of_mem_erase hs)])
    rw [hrest, Function.update_self, List.length_append, List.length_singleton]
    omega
  · refine Nat.le_succ_of_le (le_of_eq (Finset.sum_congr rfl (fun s hs => ?_)))
    rw [Function.update_of_ne (ne_of_mem_of_not_mem hs hin)]

theorem queued_drain {service : String} (hin : service ∈ D.backends) (hmore : D.queue service ≠ []) :
    { D with queue := Function.update D.queue service (D.queue service).tail }.queued < D.queued := by
  simp only [Router.queued]
  rw [← Finset.add_sum_erase _ _ hin, ← Finset.add_sum_erase D.backends _ hin]
  have hrest : ∑ s ∈ D.backends.erase service, (Function.update D.queue service (D.queue service).tail s).length =
      ∑ s ∈ D.backends.erase service, (D.queue s).length :=
    Finset.sum_congr rfl (fun s hs => by rw [Function.update_of_ne (Finset.ne_of_mem_erase hs)])
  have hpos := List.length_pos_iff.2 hmore
  rw [hrest, Function.update_self, List.length_tail]
  omega

theorem weight_push (D : Router) (service : String) (cmd : BackendCmd) : (D.push service cmd).weight ≤ D.weight + 1 := by
  have hpush := queued_push D service cmd
  have hrest : (D.push service cmd).weight - (D.push service cmd).queued = D.weight - D.queued := by
    simp only [Router.weight, Nat.add_sub_cancel]
    rfl
  have h₁ : (D.push service cmd).queued ≤ (D.push service cmd).weight := Nat.le_add_left _ _
  have h₂ : D.queued ≤ D.weight := Nat.le_add_left _ _
  omega

theorem weight_tryReply (D : Router) (service : String) (reply : Message) :
    (D.tryReply service reply).weight ≤ D.weight + 1 := by
  unfold Router.tryReply
  split
  · omega
  · exact weight_push D service (.writeReply reply)

theorem weight_spawn (D : Router) (task : ReplyTask) : (D.spawn task).weight = D.weight + task.stage.weight := by
  simp only [Router.weight, Router.spawn, List.map_append, List.map_cons, List.map_nil, List.sum_append, List.sum_cons,
    List.sum_nil]
  have : { D with tasks := D.tasks ++ [task] }.queued = D.queued := rfl
  omega

theorem weight_forwardCommand (hfree : D.blocked = none) (service : String) (id : Uuid) (msg : Message) :
    (D.forwardCommand service id msg).weight ≤ D.weight + 7 ∧
      (D.controllerGone ∨ D.controller.length < controllerQueueCapacity →
        (D.forwardCommand service id msg).weight ≤ D.weight + 4) := by
  unfold Router.forwardCommand
  split
  · have := weight_tryReply D service (failure id "node_gone" "node unavailable")
    exact ⟨by omega, fun _ => by omega⟩
  · rename_i hgone
    split
    · rw [weight_spawn]
      have : { D with controller := D.controller ++ [msg] }.weight = D.weight + 1 := by
        simp only [Router.weight, List.length_append, List.length_singleton]
        have : { D with controller := D.controller ++ [msg] }.queued = D.queued := rfl
        omega
      simp only [Stage.weight]
      exact ⟨by omega, fun _ => by omega⟩
    · rename_i hroom
      refine ⟨?_, fun h => absurd h (by simp [hgone, hroom])⟩
      have : { D with blocked := some (service, id, msg) }.queued = D.queued := rfl
      simp only [Router.weight, hfree, Option.toList_some, Option.toList_none, List.length_singleton, List.length_nil]
      omega

theorem weight_forwardControl (hfree : D.blocked = none) (service : String) (msg : Message) :
    (D.forwardControl H service msg).weight ≤ D.weight + 7 := by
  unfold Router.forwardControl
  split
  · omega
  split
  · omega
  split
  · unfold Router.forwardLocal
    split
    · omega
    split
    · exact (weight_tryReply D service _).trans (by omega)
    · rw [weight_spawn]
      simp only [Stage.weight]
      omega
  · exact (weight_tryReply D service _).trans (by omega)
  · exact (weight_forwardCommand hfree service _ msg).1

theorem weight_setStage {i : Nat} {task : ReplyTask} (hthere : D.tasks[i]? = some task) (stage : Stage) :
    (D.setStage i task stage).weight + task.stage.weight = D.weight + stage.weight := by
  have hsum : ((D.tasks.set i ⟨task.origin, task.id, stage⟩).map (fun t => t.stage.weight)).sum + task.stage.weight =
      (D.tasks.map (fun t => t.stage.weight)).sum + stage.weight := by
    obtain ⟨hi, rfl⟩ := List.getElem?_eq_some_iff.1 hthere
    have hold := ((List.getElem_cons_eraseIdx_perm hi).map (fun t => t.stage.weight)).sum_eq
    have hnew := ((List.set_perm_cons_eraseIdx hi (⟨D.tasks[i].origin, D.tasks[i].id, stage⟩ : ReplyTask)).map
      (fun t => t.stage.weight)).sum_eq
    simp only [List.map_cons, List.sum_cons] at hold hnew
    omega
  simp only [Router.weight, Router.setStage]
  have : { D with tasks := D.tasks.set i ⟨task.origin, task.id, stage⟩ }.queued = D.queued := rfl
  omega

theorem weight_setStage_lt {i : Nat} {task : ReplyTask} (hthere : D.tasks[i]? = some task) {stage : Stage}
    (hless : stage.weight < task.stage.weight) : (D.setStage i task stage).weight < D.weight := by
  have := weight_setStage hthere stage
  omega

theorem weight_startLocal_lt {i tx : Nat} {task : ReplyTask} {target : String} {payload : Bytes}
    (hthere : D.tasks[i]? = some task) (hstage : task.stage.weight = 5) :
    (D.startLocal i task target payload tx).weight < D.weight := by
  unfold Router.startLocal
  split
  · exact weight_setStage_lt hthere (by rw [hstage, Stage.weight]; decide)
  split
  · exact weight_setStage_lt hthere (by rw [hstage, Stage.weight]; decide)
  · -- the entry it queues weighs less than what its task has left behind
    have hpush := weight_push D target (.request ⟨target, payload, tx⟩)
    have := @weight_setStage (D.push target (.request ⟨target, payload, tx⟩)) i task hthere .response
    rw [hstage, Stage.weight] at this
    omega

theorem weight_eraseIdx {i : Nat} {task : ReplyTask} (hthere : D.tasks[i]? = some task) :
    { D with tasks := D.tasks.eraseIdx i }.weight + task.stage.weight = D.weight := by
  have hsum : ((D.tasks.eraseIdx i).map (fun t => t.stage.weight)).sum + task.stage.weight =
      (D.tasks.map (fun t => t.stage.weight)).sum := by
    obtain ⟨hi, rfl⟩ := List.getElem?_eq_some_iff.1 hthere
    have hold := ((List.getElem_cons_eraseIdx_perm hi).map (fun t => t.stage.weight)).sum_eq
    rw [List.map_cons, List.sum_cons] at hold
    omega
  simp only [Router.weight]
  have : { D with tasks := D.tasks.eraseIdx i }.queued = D.queued := rfl
  omega

/-- **Every internal step lowers the weight.** -/
theorem Acts.weight_lt (hacts : Acts H D e D') (hinternal : e.internal = true) : D'.weight < D.weight := by
  cases hacts with
  | take event rest hfree hnext =>
    have hrest : { D with events := rest }.weight + 8 = D.weight := by
      simp only [Router.weight, hnext, List.length_cons]
      have : { D with events := rest }.queued = D.queued := rfl
      omega
    cases event with
    | status service ready =>
      have : ({ D with events := rest }.onEvent H (.status service ready)).weight = { D with events := rest }.weight := rfl
      omega
    | control service msg =>
      have := @weight_forwardControl H { D with events := rest } hfree service msg
      rw [Router.onEvent]
      omega
  | resume service id msg hwaits hroom =>
    have hrest : { D with blocked := none }.weight + 7 = D.weight := by
      have : { D with blocked := none }.queued = D.queued := rfl
      simp only [Router.weight, hwaits, Option.toList_some, Option.toList_none, List.length_singleton, List.length_nil]
      omega
    have := (@weight_forwardCommand { D with blocked := none } rfl service id msg).2 hroom
    omega
  | start i tx task target payload htask hstage =>
    exact weight_startLocal_lt htask (by rw [hstage, Stage.weight])
  | responded _ _ _ htask hstage | commanded _ _ _ htask hstage =>
    exact weight_setStage_lt htask (by rw [hstage, Stage.weight, Stage.weight]; decide)
  | sent i task msg htask hstage =>
    have hweight : task.stage.weight = 2 := by rw [hstage, Stage.weight]
    have herase := weight_eraseIdx htask
    have hpush := weight_push { D with tasks := D.tasks.eraseIdx i } task.origin (.writeReply msg)
    omega
  | dropped i task msg htask hstage hgone =>
    have hweight : task.stage.weight = 2 := by rw [hstage, Stage.weight]
    have := weight_eraseIdx htask
    omega
  | drain service hin hmore =>
    have := queued_drain hin hmore
    simp only [Router.weight] at this ⊢
    omega
  | serve hmore =>
    have hpos := List.length_pos_iff.2 hmore
    simp only [Router.weight, List.length_tail]
    have : { D with controller := D.controller.tail }.queued = D.queued := rfl
    omega
  | _ => cases hinternal

/-- **While something is owed an internal step is enabled.** -/
theorem Router.Known.progress (H : Host) (hknown : D.Known) (howed : ¬ D.Quiet) :
    ∃ e, e.internal = true ∧ (D.step H e).isSome = true := by
  cases hblocked : D.blocked with
  | some b =>
    obtain ⟨service, id, msg⟩ := b
    by_cases hroom : D.controllerGone = true ∨ D.controller.length < controllerQueueCapacity
    · exact ⟨.resume, rfl, by simp only [Router.step, hblocked, hroom, if_true, Option.isSome_some]⟩
    · have hmore : D.controller ≠ [] := fun hnil => hroom (.inr (by rw [hnil]; decide))
      exact ⟨.serve, rfl, by simp only [Router.step, hmore, if_false, Option.isSome_some]⟩
  | none =>
    cases hevents : D.events with
    | cons event rest => exact ⟨.take, rfl, by simp only [Router.step, hblocked, hevents, Option.isSome_some]⟩
    | nil =>
      cases htasks : D.tasks with
      | nil => exact absurd ⟨hevents, hblocked, htasks⟩ howed
      | cons task rest =>
        have hthere : D.tasks[0]? = some task := by rw [htasks, List.getElem?_cons_zero]
        cases hstage : task.stage with
        | start target payload =>
          exact ⟨.start 0 0, rfl, by simp only [Router.step, hthere, Option.bind_some, hstage, Option.isSome_some]⟩
        | response =>
          exact ⟨.responded 0 .timeout, rfl, by simp only [Router.step, hthere, Option.bind_some, hstage, Option.isSome_some]⟩
        | command =>
          exact ⟨.commanded 0 .timeout, rfl, by simp only [Router.step, hthere, Option.bind_some, hstage, Option.isSome_some]⟩
        | sending msg =>
          by_cases hclosed : task.origin ∈ D.closed
          · exact ⟨.send 0, rfl, by
              simp only [Router.step, hthere, Option.bind_some, hstage, hclosed, if_true, Option.isSome_some]⟩
          by_cases hfull : D.isFull task.origin = true
          · -- the task waits for room, which the backend makes by reading a command
            have hmore : D.queue task.origin ≠ [] := fun hnil => by
              rw [Router.isFull, hnil] at hfull
              cases hfull
            have hin := (hknown.tasks task (List.mem_of_getElem? hthere)).1
            exact ⟨.drain task.origin, rfl, by rw [Router.step, if_pos ⟨hin, hclosed, hmore⟩, Option.isSome_some]⟩
          · exact ⟨.send 0, rfl, by
              simp only [Router.step, hthere, Option.bind_some, hstage, hclosed, hfull, if_false, Bool.false_eq_true,
                Option.isSome_some]⟩

end Weight

/-! ## Runs -/

section Runs

variable {H : Host} {backends : Finset String} {es : List Event} {D : Router}

theorem known_new (backends : Finset String) : (Router.new backends).Known :=
  ⟨fun _ hmem => (by cases hmem), fun _ hb => (by cases hb), fun _ hmem => (by cases hmem)⟩

theorem known_run {more : List Event} {D' : Router} (hknown : D.Known)
    (hrun : (dispatcher H backends).runFrom D more = some D') : D'.Known :=
  (dispatcher H backends).invariant_from (fun _ _ _ h _ hs => (acts_of_step hs).known h) more D D' hknown
    ((dispatcher H backends).meets_true more D) hrun

/-- No backend whose connection is up is sent more replies than it has sent messages. -/
theorem replies_le (hrun : (dispatcher H backends).run es = some D) (k : String × Uuid) (hk : k.1 ∉ D.closed) :
    D.replies.count k + D.owed.count k ≤ D.received.count k := by
  have hinv := (dispatcher H backends).invariant_from
    (P := fun D : Router => D.Known ∧ ∀ k, k.1 ∉ D.closed → D.replies.count k + D.owed.count k ≤ D.received.count k)
    (fun D e D' h _ hs => ?_) es _ D ⟨known_new backends, fun k _ => Nat.zero_le _⟩
    ((dispatcher H backends).meets_true es _) hrun
  · exact hinv.2 k hk
  · have hacts := acts_of_step hs
    refine ⟨hacts.known h.1, fun k hk => ?_⟩
    have hbefore := h.2 k (fun hin => hk (hacts.closed_mono hin))
    have hstep := step_balance h.1 hacts k hk
    omega

/-- **Exactly the runs that lose no reply answer every message once.** -/
theorem throughout_replied_iff (hrun : (dispatcher H backends).run es = some D) :
    (dispatcher H backends).Throughout Router.Replied (.new backends) es ↔
      (dispatcher H backends).Meets (fun D e => D.lost H e = none) (.new backends) es := by
  have hexact : ∀ D e D', D.Known ∧ D.Replied → (dispatcher H backends).step D e = some D' →
      (D'.Known ∧ D'.Replied ↔ D.lost H e = none) := by
    intro D e D' h hs
    have hstep := replied_step_iff h.1 h.2 (acts_of_step hs)
    exact ⟨fun h' => hstep.1 h'.2, fun hlost => ⟨(acts_of_step hs).known h.1, hstep.2 hlost⟩⟩
  rw [← (dispatcher H backends).throughout_iff_meets hexact es (.new backends) D
    ⟨known_new backends, fun k _ => rfl⟩ hrun]
  constructor
  · intro h pre post m hsplit hm
    exact ⟨known_run (known_new backends) hm, h pre post m hsplit hm⟩
  · intro h pre post m hsplit hm
    exact (h pre post m hsplit hm).2

end Runs

/-- **Every control message of a backend whose connection is up is answered exactly once, in exactly the runs in which the
router never replies itself to a full queue.**  In every run no backend is sent two replies to a message; whatever the
order of the internal steps, they end after at most `weight` many, and then nothing is owed; and where nothing is owed
and none was lost, every message has its reply. -/
theorem replied_throughout_iff (H : Host) (backends : Finset String) (es : List Event) (D : Router)
    (hrun : (dispatcher H backends).run es = some D) :
    ((dispatcher H backends).Throughout Router.Replied (.new backends) es ↔
      (dispatcher H backends).Meets (fun D e => D.lost H e = none) (.new backends) es) ∧
    (∀ k : String × Uuid, k.1 ∉ D.closed → D.replies.count k ≤ D.received.count k) ∧
    (∀ more D', (∀ e ∈ more, e.internal = true) → (dispatcher H backends).runFrom D more = some D' →
      more.length ≤ D.weight ∧ (D'.Quiet ∨ ∃ e, e.internal = true ∧ (D'.step H e).isSome = true)) ∧
    (D.Replied → D.Quiet → ∀ k : String × Uuid, k.1 ∉ D.closed → D.replies.count k = D.received.count k) := by
  refine ⟨throughout_replied_iff hrun, fun k hk => ?_, fun more D' hinternal hmore => ⟨?_, ?_⟩, fun h hquiet k hk => ?_⟩
  · have := replies_le hrun k hk
    omega
  · have hlength := (dispatcher H backends).length_le_weight Router.weight
      (fun D e D' hin hs => (acts_of_step hs).weight_lt hin)
      ((dispatcher H backends).meets_of_forall hinternal D) hmore
    omega
  · refine or_iff_not_imp_left.2 (fun howed => ?_)
    exact (known_run (known_run (known_new backends) hrun) hmore).progress H howed
  · obtain ⟨hevents, hblocked, htasks⟩ := hquiet
    have hcount := h k hk
    simp only [Router.owed, hevents, hblocked, htasks, List.filterMap_nil, Option.map_none, Option.toList_none,
      List.map_nil, List.append_nil, List.count_nil] at hcount
    omega

/-- A node whose own peer id is `self`. -/
def selfHost : Host := ⟨[0], fun text => if text = "self" then some [0] else none, fun _ => ""⟩

def firstId : Uuid := Vector.replicate 16 0

/-- A backend asks who the node is, and the controller answers. -/
def whoamiRun : List Event :=
  [.post (.control "chat" (.whoami firstId)), .take, .serve, .commanded 0 (.result (.ok [1])), .send 0]

theorem whoami_replied_once : ∃ D, (dispatcher selfHost {"chat"}).run whoamiRun = some D ∧
    (dispatcher selfHost {"chat"}).Throughout Router.Replied (.new {"chat"}) whoamiRun ∧
    D.replies.count ("chat", firstId) = 1 := by
  obtain ⟨D, hrun, hD⟩ := (dispatcher selfHost {"chat"}).exists_of_check
    (fun D => decide (D.replies.count ("chat", firstId) = 1)) whoamiRun (by decide +kernel)
  exact ⟨D, hrun, (replied_throughout_iff selfHost {"chat"} whoamiRun D hrun).1.2 (by decide +kernel),
    of_decide_eq_true hD⟩

/-- `chat` asks this node for a service that is not ready, and before the router takes the message requests of other
nodes fill the queue of `chat`. -/
def fullQueueRun : List Event :=
  .post (.control "chat" (.serviceRequestTo firstId "mail" "self" [])) ::
    (List.replicate 64 (.inbound ⟨"chat", [], 0⟩) ++ [.take])

/-- **A rejection that finds the queue full is lost**: the connection is up, nothing is left to do, and the message has no
reply. -/
theorem full_queue_loses_reply : ∃ D, (dispatcher selfHost {"chat", "mail"}).run fullQueueRun = some D ∧
    "chat" ∉ D.closed ∧ D.owed = [] ∧ D.received.count ("chat", firstId) = 1 ∧ D.replies.count ("chat", firstId) = 0 ∧
    ¬ D.Replied := by
  obtain ⟨D, hrun, hD⟩ := (dispatcher selfHost {"chat", "mail"}).exists_of_check
    (fun D => decide ("chat" ∉ D.closed ∧ D.owed = [] ∧ D.received.count ("chat", firstId) = 1 ∧
      D.replies.count ("chat", firstId) = 0)) fullQueueRun (by decide +kernel)
  obtain ⟨hopen, howed, hreceived, henqueued⟩ := of_decide_eq_true hD
  refine ⟨D, hrun, hopen, howed, hreceived, henqueued, fun h => ?_⟩
  have hcount := h ("chat", firstId) hopen
  rw [howed, hreceived, henqueued] at hcount
  cases hcount

end Dispatcher
end NexusNet
