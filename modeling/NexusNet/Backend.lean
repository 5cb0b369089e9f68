import NexusNet.Collections
import NexusNet.PqDelivery
import NexusNet.Sidecar
/-!
# Backend — the task of one local backend

`backend_task` connects to its backend, waits out a backoff where that fails, and while connected writes requests and
replies, matches the backend's replies with the requests that wait, and hands control messages on.  The error of a frame
that cannot be encoded takes the path of a broken socket: `request_isolated_iff` says exactly which requests stay alone.
-/
namespace NexusNet
namespace Backend

open Sidecar (Message Uuid FrameError encodeFrame maxFrame)

/-- Backoffs in seconds. -/
def initialBackoff : Nat := 1
def maxBackoff : Nat := 60

/-- A request for the backend, with the sender of its reply channel. -/
structure InboundRequest where
  service : String
  payload : Bytes
  responseTx : Nat
deriving DecidableEq

inductive BackendCmd where
  | request (req : InboundRequest)
  | writeReply (msg : Message)
deriving DecidableEq

inductive BackendEvent where
  | status (service : String) (ready : Bool)
  | control (service : String) (msg : Message)
deriving DecidableEq

inductive Phase where
  | connecting
  | waiting
  | connected
  | ended
deriving DecidableEq

structure BackendTask where
  service : String
  phase : Phase
  backoff : Nat
  pending : Dict Uuid Nat

inductive Effect where
  | answer (responseTx : Nat) (outcome : Except String Response)
  | write (frame : Bytes)
  | event (event : BackendEvent)

/-- What a step meets: the id drawn for a request, the writer of messages, the error of the socket, and the order in which
the table is drained. -/
structure Env where
  id : Uuid
  intoWriter : Sidecar.Writer
  socketError : Option String
  ids : Iteration Uuid

/-- What the task waits for: the outcome of a connection and its handshake, the end of a backoff, the next frame, the next
command (`none` when the router is gone), or the shutdown. -/
inductive Input where
  | connect (error : Option String)
  | elapsed
  | frame (frame : Option (Except FrameError Message))
  | command (command : Option BackendCmd)
  | shutdown

namespace BackendTask

def new (service : String) : BackendTask := ⟨service, .connecting, initialBackoff, ∅⟩

/-- `framed.send`: the frame is encoded, then written. -/
def send (env : Env) (msg : Message) : Except FrameError Bytes :=
  match encodeFrame env.intoWriter msg with
  | .error e => .error e
  | .ok frame =>
    match env.socketError with
    | some e => .error (.io e)
    | none => .ok frame

/-- Everything in flight fails. -/
def drain (B : BackendTask) (env : Env) (reason : String) : List Effect :=
  ((env.ids.list B.pending.keys).filterMap B.pending.lookup).map (fun tx => .answer tx (.error reason))

/-- The loop of a connection has ended. -/
def disconnect (B : BackendTask) (env : Env) : BackendTask × List Effect :=
  ({ B with phase := .waiting, pending := ∅ },
    B.drain env "backend disconnected" ++ [.event (.status B.service false)])

def request (B : BackendTask) (env : Env) (req : InboundRequest) : BackendTask × List Effect :=
  match send env (.request env.id B.service req.payload) with
  | .error e =>
    let (B', effects) := B.disconnect env
    (B', .answer req.responseTx (.error ("write to backend failed: " ++ e.text)) :: effects)
  | .ok frame => ({ B with pending := B.pending.insert env.id req.responseTx }, [.write frame])

def writeReply (B : BackendTask) (env : Env) (msg : Message) : BackendTask × List Effect :=
  match send env msg with
  | .error _ => B.disconnect env
  | .ok frame => (B, [.write frame])

/-- What a waiting request is told by a reply. -/
def replyOutcome (ok : Bool) (result : Option Bytes) (error : Option Sidecar.SidecarError) : Except String Response :=
  if ok then .ok ⟨true, result.getD []⟩ else .error ((error.map (·.message)).getD "backend error")

def onFrame (B : BackendTask) (env : Env) : Option (Except FrameError Message) → BackendTask × List Effect
  | some (.ok (.reply id ok result error)) =>
    match B.pending.lookup id with
    | some tx => ({ B with pending := B.pending.erase id }, [.answer tx (replyOutcome ok result error)])
    | none => (B, [])
  | some (.ok control) => (B, [.event (.control B.service control)])
  | some (.error _) | none => B.disconnect env

/-- **One step of `backend_task`**; `none` where it does not wait for the input. -/
def step (B : BackendTask) (env : Env) (input : Input) : Option (BackendTask × List Effect) :=
  match B.phase, input with
  | .connecting, .connect none =>
    some ({ B with phase := .connected, backoff := initialBackoff }, [.event (.status B.service true)])
  | .connecting, .connect (some _) => some ({ B with phase := .waiting }, [])
  | .waiting, .elapsed => some ({ B with phase := .connecting, backoff := min (B.backoff * 2) maxBackoff }, [])
  | .waiting, .command (some (.request req)) =>
    some (B, [.answer req.responseTx (.error ("backend not connected: " ++ B.service))])
  | .waiting, .command (some (.writeReply _)) => some (B, [])
  | .waiting, .command none => some ({ B with phase := .ended }, [])
  | .waiting, .shutdown => some ({ B with phase := .ended }, [])
  | .connected, .frame frame => some (B.onFrame env frame)
  | .connected, .command (some (.request req)) => some (B.request env req)
  | .connected, .command (some (.writeReply msg)) => some (B.writeReply env msg)
  | .connected, .command none => some ({ B with phase := .ended, pending := ∅ }, B.drain env "dispatcher gone")
  | .connected, .shutdown => some ({ B with phase := .ended, pending := ∅ }, B.drain env "backend disconnected")
  | _, _ => none

end BackendTask

/-! ## The size of a request on both sides -/

theorem length_beBytes (width n : Nat) : (Cbor.beBytes width n).length = width := by
  induction width with
  | zero => rfl
  | succ width ih => rw [Cbor.beBytes, List.length_cons, ih]

theorem length_head (major : UInt8) (n : Nat) : (Cbor.head major n).length = Pq.cborHead n := by
  unfold Cbor.head Pq.cborHead
  split
  · rfl
  split
  · rw [List.length_cons, length_beBytes]
  split
  · rw [List.length_cons, length_beBytes]
  split
  · rw [List.length_cons, length_beBytes]
  · rw [List.length_cons, length_beBytes]

theorem length_cborText (s : String) : (Sidecar.cborText s).length = Pq.cborText s := by
  rw [Sidecar.cborText, Cbor.text, List.length_append, length_head, Pq.cborText]

theorem length_unsigned (b : UInt8) : (Cbor.unsigned b.toNat).length = if b < 24 then 1 else 2 := by
  have hb : b.toNat < 256 := b.toNat_lt
  rw [Cbor.unsigned, length_head, Pq.cborHead]
  have hiff : b < 24 ↔ b.toNat < 24 := UInt8.lt_iff_toNat_lt
  by_cases h : b.toNat < 24
  · rw [if_pos h, if_pos (hiff.2 h)]
  · rw [if_neg h, if_pos hb, if_neg (fun hlt => h (hiff.1 hlt))]

theorem length_cborVec (v : Bytes) : (Sidecar.cborVec v).length = Pq.cborSeq v := by
  rw [Sidecar.cborVec, Cbor.array, List.length_append, length_head, List.length_map, List.length_flatten, List.map_map,
    Pq.cborSeq]
  refine congrArg _ (congrArg List.sum (List.map_congr_left (fun b _ => ?_)))
  exact length_unsigned b

/-- **A request is thirty bytes longer for the backend than on the network**, as the two writers write it. -/
def ThirtyLonger (intoWriter : Sidecar.Writer) (W : Pq.Wire) : Prop :=
  ∀ id service payload, (intoWriter (.request id service payload)).length = W.request ⟨service, payload⟩ + 30

theorem cbor_thirtyLonger : ThirtyLonger Message.cbor Pq.cborWire := by
  intro id service payload
  have hid : (Sidecar.cborUuid id).length = 17 := by
    rw [Sidecar.cborUuid, Cbor.bytes, List.length_append, length_head, Vector.length_toList]
    rfl
  have hnames : Pq.cborText "t" + Pq.cborText "request" + Pq.cborText "id" = 13 := by decide +kernel
  simp only [Message.cbor, Sidecar.cborVariant, Sidecar.cborStruct, Cbor.map, List.map_cons, List.map_nil,
    List.length_append, length_head, List.length_cons, List.length_nil, List.flatten_cons, List.flatten_nil,
    length_cborText, length_cborVec, hid, Pq.cborWire]
  have hhead : Pq.cborHead (0 + 1 + 1 + 1 + 1) = 1 := rfl
  omega

/-! ## One request -/

/-- **The request stays alone**: its frame is written and it waits for the reply, or it is answered with an error; the
connection, the other requests and the readiness of the service are as before. -/
def Isolated (B : BackendTask) (env : Env) (req : InboundRequest) (r : BackendTask × List Effect) : Prop :=
  (∃ frame, encodeFrame env.intoWriter (.request env.id B.service req.payload) = .ok frame ∧
    r = ({ B with pending := B.pending.insert env.id req.responseTx }, [.write frame])) ∨
  ∃ error, r = (B, [.answer req.responseTx (.error error)])

section Request

variable {B : BackendTask} {env : Env} {W : Pq.Wire}

theorem request_fits (hlonger : ThirtyLonger env.intoWriter W) (req : InboundRequest) (hsocket : env.socketError = none)
    (hfits : W.request ⟨B.service, req.payload⟩ + 30 ≤ maxFrame) : Isolated B env req (B.request env req) := by
  have hlen : ¬ (env.intoWriter (.request env.id B.service req.payload)).length > maxFrame := by
    rw [hlonger]
    exact Nat.not_lt.2 hfits
  refine .inl ⟨_, if_neg hlen, ?_⟩
  rw [BackendTask.request, BackendTask.send, encodeFrame, if_neg hlen, hsocket]

theorem request_oversize (hlonger : ThirtyLonger env.intoWriter W) (req : InboundRequest)
    (h : ¬ W.request ⟨B.service, req.payload⟩ + 30 ≤ maxFrame) :
    B.request env req = ((B.disconnect env).1, .answer req.responseTx (.error ("write to backend failed: " ++
      (FrameError.tooLarge (W.request ⟨B.service, req.payload⟩ + 30)).text)) :: (B.disconnect env).2) := by
  have hlen : (env.intoWriter (.request env.id B.service req.payload)).length > maxFrame := by
    rw [hlonger]
    exact Nat.not_le.1 h
  rw [BackendTask.request, BackendTask.send, encodeFrame, if_pos hlen, hlonger]

end Request

/-- **Exactly the requests that fit a frame stay alone.**  In every state of a connected task, with a socket that does not
fail and writers by which a request is thirty bytes longer for the backend: handling a request leaves all else alone if and
only if what it measures on the network, and thirty bytes more, is within the limit of the sidecar's frames. -/
theorem request_isolated_iff (W : Pq.Wire) (B : BackendTask) (env : Env) (req : InboundRequest)
    (hconnected : B.phase = .connected) (hsocket : env.socketError = none) (hlonger : ThirtyLonger env.intoWriter W) :
    (∃ r, B.step env (.command (some (.request req))) = some r ∧ Isolated B env req r) ↔
      W.request ⟨B.service, req.payload⟩ + 30 ≤ maxFrame := by
  have hstep : B.step env (.command (some (.request req))) = some (B.request env req) := by
    simp only [BackendTask.step, hconnected]
  rw [hstep]
  constructor
  · rintro ⟨r, hr, hisolated⟩
    cases hr
    by_contra hlarge
    rw [request_oversize hlonger req hlarge] at hisolated
    -- the task has left its connection
    have hphase : (B.disconnect env).1.phase = .waiting := rfl
    rcases hisolated with ⟨frame, -, heq⟩ | ⟨error, heq⟩
    · have := congrArg (fun r => r.1.phase) heq
      simp only [hphase, hconnected, reduceCtorEq] at this
    · have := congrArg (fun r => r.1.phase) heq
      simp only [hphase, hconnected, reduceCtorEq] at this
  · intro hfits
    exact ⟨_, rfl, request_fits hlonger req hsocket hfits⟩

def byBytes : Iteration Uuid :=
  Iteration.along (fun id => id.toList.map UInt8.toNat) (fun _ _ h => Vector.toList_inj.1 (map_toNat_injective h))

/-- A socket that does not fail. -/
def quietEnv : Env := ⟨Sidecar.someId, Message.cbor, none, byBytes⟩

/-- A connected task with a request under way. -/
def busyTask : BackendTask := ⟨"cmd", .connected, initialBackoff, (∅ : Dict Uuid Nat).insert (Vector.replicate 16 0) 7⟩

theorem small_request_isolated : busyTask.phase = .connected ∧ ThirtyLonger quietEnv.intoWriter Pq.cborWire ∧
    ∃ r, busyTask.step quietEnv (.command (some (.request ⟨"cmd", [1, 2], 8⟩))) = some r ∧
      Isolated busyTask quietEnv ⟨"cmd", [1, 2], 8⟩ r :=
  ⟨rfl, cbor_thirtyLonger,
    (request_isolated_iff Pq.cborWire busyTask quietEnv ⟨"cmd", [1, 2], 8⟩ rfl rfl cbor_thirtyLonger).2 (by decide +kernel)⟩

theorem cborSeq_zeros (n : Nat) : Pq.cborSeq (Pq.zeros n) = Pq.cborHead n + n := by
  rw [Pq.cborSeq, Pq.length_zeros, Pq.zeros, List.map_replicate, List.sum_replicate_nat]
  simp

theorem length_zeros_request {n : Nat} (h : Pq.cborHead n = 5) : Pq.cborWire.request ⟨"cmd", Pq.zeros n⟩ = n + 26 := by
  have hnames : Pq.cborText "service" + Pq.cborText "cmd" + Pq.cborText "payload" = 20 := by decide +kernel
  simp only [Pq.cborWire, cborSeq_zeros, h]
  omega

/-- What an oversize request does to the busy task. -/
theorem busyTask_oversize (payload : Bytes) (h : ¬ Pq.cborWire.request ⟨"cmd", payload⟩ + 30 ≤ maxFrame) : ∃ B effects,
    busyTask.step quietEnv (.command (some (.request ⟨"cmd", payload, 8⟩))) = some (B, effects) ∧ B.phase = .waiting ∧
    .answer 7 (.error "backend disconnected") ∈ effects ∧ .event (.status "cmd" false) ∈ effects ∧
    ¬ Isolated busyTask quietEnv ⟨"cmd", payload, 8⟩ (B, effects) := by
  refine ⟨_, _, congrArg some (request_oversize cbor_thirtyLonger ⟨"cmd", payload, 8⟩ h), rfl, ?_, ?_, ?_⟩
  · refine List.mem_cons_of_mem _ (List.mem_append_left _ (List.mem_map.2 ⟨7, ?_, rfl⟩))
    decide +kernel
  · exact List.mem_cons_of_mem _ (List.mem_append_right _ (List.mem_singleton.2 rfl))
  · rintro (⟨frame, -, heq⟩ | ⟨error, heq⟩)
    · exact absurd (congrArg (fun r => r.1.phase) heq) (by simp [BackendTask.disconnect, busyTask])
    · exact absurd (congrArg (fun r => r.1.phase) heq) (by simp [BackendTask.disconnect, busyTask])

/-- **A request within the limits of the network takes the connection down**: with the default limits a request of 16 MiB
on the network does not fit a frame; the other request fails, and the service is reported not ready. -/
theorem oversize_request_disconnects :
    (NodeConfig.withServices []).validate = .ok () ∧
    Pq.cborWire.request ⟨"cmd", Pq.zeros 16777190⟩ ≤ (NodeConfig.withServices []).dispatcher.maxRequestBytes ∧
    ∃ B effects,
      busyTask.step quietEnv (.command (some (.request ⟨"cmd", Pq.zeros 16777190, 8⟩))) = some (B, effects) ∧
      B.phase = .waiting ∧ .answer 7 (.error "backend disconnected") ∈ effects ∧
      .event (.status "cmd" false) ∈ effects ∧
      ¬ Isolated busyTask quietEnv ⟨"cmd", Pq.zeros 16777190, 8⟩ (B, effects) := by
  have hsize : Pq.cborWire.request ⟨"cmd", Pq.zeros 16777190⟩ = 16777190 + 26 := length_zeros_request (by decide +kernel)
  have hlimit : (NodeConfig.withServices []).dispatcher.maxRequestBytes = 16777190 + 26 := rfl
  have hlarge : ¬ 16777190 + 26 + 30 ≤ maxFrame := by
    rw [maxFrame]
    omega
  exact ⟨by decide +kernel, (hsize.trans hlimit.symm).le, busyTask_oversize (Pq.zeros 16777190) (by rwa [hsize])⟩

end Backend
end NexusNet
