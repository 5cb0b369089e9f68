import NexusNet.ActorResponses
/-!
# Exchange — service requests between two nodes

A caller and a callee, each the swarm actor of a node with all its other inputs, and libp2p between them: a service
request that the caller sends to the callee is delivered there at most once, on a channel of its own, and the response on
that channel is delivered at most once, to the swarm that sent the request and under the id of the request.  Messages may be
lost, overtake each other and be late: a request may arrive when the caller has a new swarm, whose ids start anew.  Peers are
authenticated: what comes from the caller was sent by the caller, and its answer to who asks for a PQ identity is that of the
callee.

`responses_faithful` says what a response told to a caller is: what the callee's actor sent back on the channel of this very
request, which its node answered or the actor refused in one of three ways.  `requests_at_most_once` says that the callee's node is handed no request twice
and none that was not made.  `Tracked` follows one request through the tables of both actors and the messages between them.
-/
namespace NexusNet
namespace Exchange

open Actor
open Pq (Crypto Wire Correct PqKeys PqIdentity PqResponse sendPqRequest openRequest decodeRequest encodeRequest
  encodeResponse)

/-- A node: its configuration, its bootstrap nodes, its libp2p keypair, and what its PQ keys were generated from. -/
structure Node where
  config : NodeConfig
  bootstrapNodes : List Multiaddr
  keypair : Bytes
  seeds : Option (Nat × Bytes × Nat)

def Node.keys (C : Crypto) (node : Node) : Option PqKeys :=
  node.seeds.map (fun seeds => PqKeys.generate C seeds.1 seeds.2.1 seeds.2.2)

def Node.peerId (C : Crypto) (node : Node) : PeerId := C.idPeerId node.keypair

/-- What the node answers to who asks for its identity. -/
def Node.identity (C : Crypto) (node : Node) : Option PqIdentity :=
  (node.keys C).bind (fun keys => (keys.identity C node.keypair).toOption)

def Node.world (C : Crypto) (node : Node) : World :=
  .new node.config node.bootstrapNodes node.keypair (node.keys C)

/-- A request of the caller: which of its swarms sent it, on which protocol and under which id. -/
abbrev Tag := Nat × Behaviour × Nat

/-- A response on its way. -/
inductive Answer where
  | plain (response : Response)
  | pq (response : PqResponse)
deriving DecidableEq

def Answer.of (response : Response) : Option PqResponse → Answer
  | none => .plain response
  | some sealedResponse => .pq sealedResponse

def Answer.event (id : Nat) : Answer → SwarmEvent
  | .plain response => .serviceReq (.response id response)
  | .pq response => .serviceReqPq (.response id response)

def requestEvent (peer : PeerId) (connection channel : Nat) : Envelope → SwarmEvent
  | .plain request => .serviceReq (.request peer connection request channel)
  | .pq request => .serviceReqPq (.request peer connection request channel)

/-- The two actors, how many swarms the caller has had before, the requests it has sent to the callee, those that have not
been delivered, the callee's channels of those that have, and the responses on their way. -/
structure Pair where
  caller : World
  callee : World
  generation : Nat
  called : Finset Tag
  sent : Dict Tag Envelope
  channels : Dict Nat Tag
  answers : Dict Tag Answer

/-- An input of one of the nodes, the delivery of a request, or the delivery of a response. -/
inductive Event where
  | caller (input : Input)
  | callee (input : Input)
  | request (tag : Tag) (env : Env) (connection channel : Nat)
  | response (tag : Tag) (env : Env)

/-- The request a response is for. -/
def answeredId : SwarmEvent → Option (Behaviour × Nat)
  | .serviceReq (.response id _) => some (.serviceReq, id)
  | .serviceReqPq (.response id _) => some (.serviceReqPq, id)
  | _ => none

/-- The peer whose service request comes. -/
def requester : SwarmEvent → Option PeerId
  | .serviceReq (.request peer _ _ _) => some peer
  | .serviceReqPq (.request peer _ _ _) => some peer
  | _ => none

section Machine

variable (C : Crypto) (W : Wire) (a b : Node)

/-- **What the caller meets besides**: responses to its other requests, and for the identity of the callee the one the
callee gives. -/
def Pair.accepts (s : Pair) : Input → Bool
  | .event _ (.pqIdentity (.response id identity)) =>
    (s.caller.actor.pendingPqIdentity.lookup id).all
      (fun peer => decide (peer = b.peerId C → b.identity C = some identity))
  | .event _ event => (answeredId event).all (fun id => decide ((s.generation, id) ∉ s.called))
  | _ => true

/-- **What the callee meets besides**: requests of other peers. -/
def foreign : Input → Bool
  | .event _ event => decide (requester event ≠ some (a.peerId C))
  | _ => true

/-- After an input of the caller: its requests to the callee are on their way, or it has a new swarm. -/
def Pair.afterCaller (s : Pair) (input : Input) (w : World) (effects : List Effect) : Pair :=
  let calls := callsTo (b.peerId C) effects
  { s with
    caller := w
    generation := if input.isReloadEnd then s.generation + 1 else s.generation
    called := s.called ∪ (calls.map (fun call => (s.generation, call.1))).toFinset
    sent := calls.foldl (fun sent call => sent.insert (s.generation, call.1) call.2) s.sent }

/-- A response of the callee on the channel of one of the requests. -/
def record (channels : Dict Nat Tag) (answers : Dict Tag Answer) : Effect → Dict Tag Answer
  | .respond channel response sealedAs =>
    (channels.lookup channel).elim answers (fun tag => answers.insert tag (.of response sealedAs))
  | _ => answers

def Pair.afterCallee (s : Pair) (w : World) (effects : List Effect) : Pair :=
  { s with callee := w, answers := effects.foldl (record s.channels) s.answers }

/-- The input an event is for the caller. -/
def Pair.callerInput (s : Pair) : Event → Option Input
  | .caller input => if s.accepts C b input then some input else none
  | .response tag env =>
    if tag.1 = s.generation then (s.answers.lookup tag).map (fun answer => .event env (answer.event tag.2.2)) else none
  | _ => none

/-- The input an event is for the callee. -/
def Pair.calleeInput (s : Pair) : Event → Option Input
  | .callee input => if foreign C a input then some input else none
  | .request tag env connection channel =>
    (s.sent.lookup tag).map (fun envelope => .event env (requestEvent (a.peerId C) connection channel envelope))
  | _ => none

/-- What the delivery of a message takes off the way. -/
def Pair.deliver (s : Pair) : Event → Pair
  | .request tag _ _ channel => { s with sent := s.sent.erase tag, channels := s.channels.insert channel tag }
  | .response tag _ => { s with answers := s.answers.erase tag }
  | _ => s

/-- **One event**: an input for one of the two actors. -/
def Pair.step (s : Pair) (e : Event) : Option Pair :=
  match s.callerInput C b e, s.calleeInput C a e with
  | some input, _ => (s.caller.next C W input).map (fun r => (s.deliver e).afterCaller C b input r.1 r.2)
  | none, some input => (s.callee.next C W input).map (fun r => (s.deliver e).afterCallee r.1 r.2)
  | none, none => none

/-- What the actors do at an event. -/
def Pair.callerEffects (s : Pair) (e : Event) : List Effect := (s.callerInput C b e).elim [] (s.caller.effects C W)

def Pair.calleeEffects (s : Pair) (e : Event) : List Effect := (s.calleeInput C a e).elim [] (s.callee.effects C W)

/-- The requests the caller sends to the callee: the reply channel of the command, and the tag of the request. -/
def Pair.calls (s : Pair) (e : Event) : List (Nat × Tag) :=
  match e with
  | .caller (.command _ (.serviceSendRequest _ _ _ n)) =>
    (callsTo (b.peerId C) (s.callerEffects C W b e)).map (fun call => (n, s.generation, call.1))
  | _ => []

/-- What the callee's actor sends back on the channels of these requests. -/
def Pair.responses (s : Pair) (e : Event) : List (Tag × Response) :=
  (s.calleeEffects C W a e).filterMap (fun
    | .respond channel response _ => ((s.deliver e).channels.lookup channel).map (·, response)
    | _ => none)

/-- **The two nodes.** -/
def exchange : Machine Pair Event := ⟨⟨a.world C, b.world C, 0, ∅, ∅, ∅, ∅⟩, Pair.step C W a b⟩

end Machine

/-! ## What a step does -/

/-- **One event of a run**: the caller takes an input, or the callee does. -/
inductive Moved (C : Crypto) (W : Wire) (a b : Node) (s : Pair) (e : Event) : Pair → Prop where
  | caller (input : Input) (w : World) (given : s.callerInput C b e = some input) (other : s.calleeInput C a e = none)
      (stepped : Stepped C W s.caller input w (s.caller.effects C W input)) :
      Moved C W a b s e ((s.deliver e).afterCaller C b input w (s.caller.effects C W input))
  | callee (input : Input) (w : World) (given : s.calleeInput C a e = some input) (other : s.callerInput C b e = none)
      (stepped : Stepped C W s.callee input w (s.callee.effects C W input)) :
      Moved C W a b s e ((s.deliver e).afterCallee w (s.callee.effects C W input))

variable {C : Crypto} {W : Wire} {a b : Node} {s t : Pair} {e : Event} {events : List Event} {told : List Effect}
  {input : Input} {w w' : World} {effects : List Effect} {tag : Tag} {request : Request} {entry : OutboundEntry}

theorem stepped_of_map {f : World × List Effect → Pair} (h : (w.next C W input).map f = some t) :
    ∃ w', Stepped C W w input w' (w.effects C W input) ∧ t = f (w', w.effects C W input) := by
  obtain ⟨⟨w', effects⟩, hnext, rfl⟩ := Option.map_eq_some_iff.1 h
  have heffects : w.effects C W input = effects := by rw [World.effects, hnext, Option.map_some, Option.getD_some]
  exact ⟨w', heffects ▸ stepped_of_next hnext, heffects ▸ rfl⟩

/-- **What the caller takes**: one of its other inputs, or a response. -/
theorem callerInput_cases (h : s.callerInput C b e = some input) : e = .caller input ∧ s.accepts C b input = true ∨
      ∃ tag env answer, e = .response tag env ∧ tag.1 = s.generation ∧ s.answers.lookup tag = some answer ∧
        input = .event env (answer.event tag.2.2) := by
  unfold Pair.callerInput at h
  split at h
  · split at h
    · rename_i haccepts
      cases h
      exact .inl ⟨rfl, haccepts⟩
    · cases h
  · rename_i tag env
    split at h
    · rename_i htag
      obtain ⟨answer, hanswer, rfl⟩ := Option.map_eq_some_iff.1 h
      exact .inr ⟨tag, env, answer, rfl, htag, hanswer, rfl⟩
    · cases h
  · cases h

/-- **What the callee takes**: one of its other inputs, or a request. -/
theorem calleeInput_cases (h : s.calleeInput C a e = some input) : e = .callee input ∧ foreign C a input = true ∨
      ∃ tag env connection channel envelope, e = .request tag env connection channel ∧
        s.sent.lookup tag = some envelope ∧
        input = .event env (requestEvent (a.peerId C) connection channel envelope) := by
  unfold Pair.calleeInput at h
  split at h
  · split at h
    · rename_i hforeign
      cases h
      exact .inl ⟨rfl, hforeign⟩
    · cases h
  · rename_i tag env connection channel
    obtain ⟨envelope, hsent, rfl⟩ := Option.map_eq_some_iff.1 h
    exact .inr ⟨tag, env, connection, channel, envelope, rfl, hsent, rfl⟩
  · cases h

theorem callerInput_ne_calleeInput (h : s.callerInput C b e = some input) : s.calleeInput C a e = none := by
  rcases callerInput_cases h with ⟨rfl, -⟩ | ⟨tag, env, answer, rfl, -⟩ <;> rfl

theorem moved_of_step (h : (exchange C W a b).step s e = some t) : Moved C W a b s e t := by
  change s.step C W a b e = some t at h
  unfold Pair.step at h
  split at h
  · rename_i input hinput
    obtain ⟨w, hstepped, rfl⟩ := stepped_of_map h
    exact .caller input w hinput (callerInput_ne_calleeInput hinput) hstepped
  · rename_i input hother hinput
    obtain ⟨w, hstepped, rfl⟩ := stepped_of_map h
    exact .callee input w hinput hother hstepped
  · cases h

theorem lookup_record {channels : Dict Nat Tag} {answer : Answer} : ∀ {effects : List Effect}
    {answers : Dict Tag Answer}, (effects.foldl (record channels) answers).lookup tag = some answer →
    answers.lookup tag = some answer ∨ ∃ channel response sealedAs, .respond channel response sealedAs ∈ effects ∧
      channels.lookup channel = some tag ∧ answer = .of response sealedAs
  | [], _, h => .inl h
  | effect :: effects, answers, h => by
    rw [List.foldl_cons] at h
    rcases lookup_record h with hold | ⟨channel, response, sealedAs, hmem, hchannel, hanswer⟩
    · -- the first effect may have put it there
      unfold record at hold
      split at hold
      · rename_i channel response sealedAs
        cases hchannel : channels.lookup channel with
        | none =>
          rw [hchannel] at hold
          exact .inl hold
        | some tag' =>
          rw [hchannel] at hold
          rcases Dict.of_lookup_insert hold with ⟨rfl, rfl⟩ | ⟨-, hold⟩
          · exact .inr ⟨channel, response, sealedAs, List.mem_cons_self, hchannel, rfl⟩
          · exact .inl hold
      · exact .inl hold
    · exact .inr ⟨channel, response, sealedAs, List.mem_cons_of_mem _ hmem, hchannel, hanswer⟩

/-! ## One request followed through both nodes -/

/-- The request waits at the callee on the protocol it was sent by, with the caller's key for the response. -/
def Fits : OutboundEntry → PendingInbound → Prop
  | .plain _, .plain _ => True
  | .pq pending, .pq _ inbound => inbound.resKey = pending.out.resKey
  | _, _ => False

/-- The message is the response, sealed with the caller's key if the request was sealed. -/
def Conveys (C : Crypto) (response : Response) : OutboundEntry → Answer → Prop
  | .plain _, .plain sent => sent = response
  | .pq pending, .pq sealedResponse => ∃ (inbound : Pq.PqInbound) (nonce : Pq.DrawnNonce),
      inbound.resKey = pending.out.resKey ∧ inbound.sealResponse C (encodeResponse response) nonce = .ok sealedResponse
  | _, _ => False

theorem conveys_of_carries {pending : PendingInbound} {response : Response}
    {sealedAs : Option PqResponse} (hfits : Fits entry pending) (hcarries : Carries C response sealedAs pending) :
    Conveys C response entry (.of response sealedAs) := by
  cases entry with
  | plain waiting =>
    cases pending with
    | plain channel =>
      obtain rfl : sealedAs = none := hcarries
      exact rfl
    | pq channel inbound => cases hfits
  | pq waiting =>
    cases pending with
    | plain channel => cases hfits
    | pq channel inbound =>
      obtain ⟨nonce, sealedResponse, hseal, rfl⟩ := hcarries
      exact ⟨inbound, nonce, hfits, hseal⟩

/-- **The caller reads the response that was sealed for it.** -/
theorem result_of_conveys (hC : Correct C) {answer : Answer} {id : Nat} {env : Env}
    {response told : Response} (hconveys : Conveys C response entry answer)
    (hresult : entry.result C env (answer.event id) = some (.ok told)) : told = response := by
  cases entry with
  | plain waiting =>
    cases answer with
    | plain sent =>
      obtain rfl : sent = response := hconveys
      cases hresult
      rfl
    | pq sealedResponse => cases hconveys
  | pq waiting =>
    cases answer with
    | plain sent => cases hconveys
    | pq sealedResponse =>
      obtain ⟨inbound, nonce, hkey, hseal⟩ := hconveys
      simp only [OutboundEntry.result, Answer.event, SwarmActor.openPqResponse,
        Pq.openResponse_sealResponse hC hkey hseal] at hresult
      by_cases hfits : (encodeResponse response).length + Pq.tagLen ≤ Pq.maxCiphertext
      · rw [if_pos hfits] at hresult
        simp only [Pq.decode_encodeResponse, Option.some.injEq, Except.ok.injEq] at hresult
        exact hresult.symm
      · rw [if_neg hfits] at hresult
        cases hresult

/-- The requests that have been handed to the callee's node. -/
def jobs (C : Crypto) (W : Wire) (a b : Node) (events : List Event) : List Job :=
  admitted ((exchange C W a b).outputs (Pair.calleeEffects C W a) (exchange C W a b).init events)

/-- The requests sent to the callee, and the responses on their channels. -/
def calls (C : Crypto) (W : Wire) (a b : Node) (events : List Event) : List (Nat × Tag) :=
  (exchange C W a b).outputs (Pair.calls C W b) (exchange C W a b).init events

def responses (C : Crypto) (W : Wire) (a b : Node) (events : List Event) : List (Tag × Response) :=
  (exchange C W a b).outputs (Pair.responses C W a) (exchange C W a b).init events

/-- The caller was commanded to send the request to the callee and to answer on the reply channel. -/
def Commanded (C : Crypto) (b : Node) (events : List Event) (n : Nat) (request : Request) : Prop :=
  ∃ env addresses, .caller (.command env (.serviceSendRequest (b.peerId C) request addresses n)) ∈ events

/-- **The response is the callee's**: its actor sent it back on the channel of the request, and either refused the request or
its node was handed the request and then answered it. -/
def Justified (C : Crypto) (W : Wire) (a b : Node) (events : List Event) (n : Nat) (request : Request)
    (response : Response) : Prop :=
  (∃ tag, (n, tag) ∈ calls C W a b events ∧ (tag, response) ∈ responses C W a b events) ∧
  (response ∈ refusals ∨ ∃ before after requestId env,
    events = before ++ .callee (.command env (.serviceSendResponse requestId response)) :: after ∧
      ⟨a.peerId C, requestId, request.service, request.payload⟩ ∈ jobs C W a b before)

/-- A request that was sealed was sealed for the callee, with the caller's keys. -/
def SealedFor (C : Crypto) (W : Wire) (a b : Node) (request : Request) (entry : OutboundEntry) : Prop :=
  ∀ pending, entry = .pq pending → ∃ config keys recipient draw, b.identity C = some recipient ∧
    a.keys C = some keys ∧ sendPqRequest C W config keys recipient a.keypair draw request = .ok pending.out

/-- **One request followed**: the entry it was sent with, the command that sent it, what stands in the caller's table, and
what is on its way or waits at the callee. -/
structure Tracked (C : Crypto) (W : Wire) (a b : Node) (events : List Event) (s : Pair) (tag : Tag) (request : Request)
    (entry : OutboundEntry) : Prop where
  protocol : entry.behaviour = tag.2.1
  used : entry.resp ∈ s.caller.resps
  called : (entry.resp, tag) ∈ calls C W a b events
  commanded : ∀ other, Commanded C b events entry.resp other → other = request
  sealedFor : SealedFor C W a b request entry
  held : tag.1 = s.generation → ∀ other : OutboundEntry, other.behaviour = tag.2.1 →
    s.caller.actor.holds tag.2.2 other → other = entry
  sent : ∀ envelope, s.sent.lookup tag = some envelope → envelope = entry.envelope request
  received : ∀ channel, s.channels.lookup channel = some tag → channel ∈ s.callee.channels ∧
    ∀ requestId waiting, s.callee.actor.pendingInbound.lookup requestId = some waiting →
      waiting.pending.channel = channel → Fits entry waiting.pending ∧
        ⟨a.peerId C, requestId, request.service, request.payload⟩ ∈ jobs C W a b events
  answered : ∀ answer, s.answers.lookup tag = some answer → ∃ response, Conveys C response entry answer ∧
    Justified C W a b events entry.resp request response

/-- **What every run keeps.**  `told` is what the caller's actor has done. -/
structure Sound (C : Crypto) (W : Wire) (a b : Node) (events : List Event) (told : List Effect) (s : Pair) : Prop where
  callerUsed : Used s.caller
  callerKeys : s.caller.actor.pqKeys = a.keys C ∧ s.caller.actor.keypair = a.keypair
  calleeKeys : s.callee.actor.pqKeys = b.keys C
  identity : ∀ identity, s.caller.actor.pqIdentities.lookup (b.peerId C) = some identity → b.identity C = some identity
  waiting : ∀ requestId entry, s.callee.actor.pendingInbound.lookup requestId = some entry →
    entry.pending.channel ∈ s.callee.channels
  generations : ∀ tag ∈ s.called, tag.1 ≤ s.generation
  issued : ∀ id, (s.generation, id) ∈ s.called → id ∈ s.caller.issued
  tracked : ∀ tag ∈ s.called, ∃ request entry, Tracked C W a b events s tag request entry
  sentCalled : ∀ tag envelope, s.sent.lookup tag = some envelope → tag ∈ s.called
  channelsCalled : ∀ channel tag, s.channels.lookup channel = some tag → tag ∈ s.called
  answersCalled : ∀ tag answer, s.answers.lookup tag = some answer → tag ∈ s.called
  commands : ∀ n request, Commanded C b events n request → n ∈ s.caller.resps
  tables : ∀ (id : Nat) (entry : OutboundEntry), s.caller.actor.holds id entry →
    (s.generation, entry.behaviour, id) ∈ s.called ∨ ∀ request, ¬ Commanded C b events entry.resp request
  toldUsed : ∀ n reply, .answer n reply ∈ told → n ∈ s.caller.resps
  justified : ∀ n response, .answer n (.response (.ok response)) ∈ told → ∀ request, Commanded C b events n request →
    Justified C W a b events n request response

/-! ### The parts -/

theorem commanded_concat {n : Nat} : Commanded C b (events ++ [e]) n request ↔ Commanded C b events n request ∨
    ∃ env addresses, e = .caller (.command env (.serviceSendRequest (b.peerId C) request addresses n)) := by
  simp only [Commanded, List.mem_append, List.mem_singleton]
  constructor
  · rintro ⟨env, addresses, h | h⟩
    · exact .inl ⟨env, addresses, h⟩
    · exact .inr ⟨env, addresses, h.symm⟩
  · rintro (⟨env, addresses, h⟩ | ⟨env, addresses, h⟩)
    · exact ⟨env, addresses, .inl h⟩
    · exact ⟨env, addresses, .inr h.symm⟩

theorem jobs_concat (hrun : (exchange C W a b).run events = some s) :
    jobs C W a b (events ++ [e]) = jobs C W a b events ++ admitted (s.calleeEffects C W a e) := by
  rw [jobs, jobs, Machine.outputs_append _ hrun, Machine.outputs_singleton, admitted, List.filterMap_append]
  rfl

theorem mem_outputs_concat {α : Type} {f : Pair → Event → List α} {x : α} (hrun : (exchange C W a b).run events = some s)
    (h : x ∈ f s e) : x ∈ (exchange C W a b).outputs f (exchange C W a b).init (events ++ [e]) := by
  rw [Machine.outputs_append _ hrun, Machine.outputs_singleton]
  exact List.mem_append_right _ h

theorem jobs_mono : jobs C W a b events ⊆ jobs C W a b (events ++ [e]) :=
  List.filterMap_subset _ (Machine.outputs_subset_append _ _ _ _ _)

theorem calls_mono : calls C W a b events ⊆ calls C W a b (events ++ [e]) := Machine.outputs_subset_append _ _ _ _ _

theorem Justified.concat {n : Nat} {response : Response} (h : Justified C W a b events n request response) (e : Event) :
    Justified C W a b (events ++ [e]) n request response := by
  obtain ⟨⟨tag, hcalled, hresponse⟩, hwhy⟩ := h
  refine ⟨⟨tag, calls_mono hcalled, Machine.outputs_subset_append _ _ _ _ _ hresponse⟩, hwhy.imp id ?_⟩
  rintro ⟨before, after, requestId, env, rfl, hjob⟩
  exact ⟨before, after ++ [e], requestId, env, by simp, hjob⟩

/-- A table holds one entry under an id. -/
theorem holds_unique {A : SwarmActor} {id : Nat} {other : OutboundEntry} (h : A.holds id entry) (h' : A.holds id other)
    (hbehaviour : other.behaviour = entry.behaviour) : other = entry := by
  cases entry <;> cases other <;> cases hbehaviour
  all_goals
    have heq := h'.symm.trans h
    cases heq
    rfl

theorem slot_injective {id id' : Nat} {other : OutboundEntry} (h : OutboundEntry.slot id entry = OutboundEntry.slot id' other) :
    (entry.behaviour, id) = (other.behaviour, id') := by
  cases entry <;> cases other <;> cases h <;> rfl

/-- The request under the slot of an entry, by who waits there. -/
theorem holds_of_waiter {A : SwarmActor} {id : Nat} (h : A.waiter (entry.slot id) = some entry.resp) :
    ∃ other : OutboundEntry, A.holds id other ∧ other.behaviour = entry.behaviour ∧ other.resp = entry.resp := by
  cases entry with
  | plain pending =>
    obtain ⟨other, hother, hresp⟩ := Option.map_eq_some_iff.1 h
    exact ⟨.plain other, hother, rfl, hresp⟩
  | pq pending =>
    obtain ⟨other, hother, hresp⟩ := Option.map_eq_some_iff.1 h
    exact ⟨.pq other, hother, rfl, hresp⟩

/-- Only a response tells a response. -/
theorem answeredId_of_result {env : Env} {event : SwarmEvent} {id : Nat} {response : Response}
    (hslot : event.slot = some (entry.slot id)) (hresult : entry.result C env event = some (.ok response)) :
    answeredId event = some (entry.behaviour, id) := by
  unfold OutboundEntry.result at hresult
  split at hresult <;> first | cases hresult | skip
  all_goals
    cases hslot
    rfl

theorem not_holds_of_reloadEnd {env : Env} (h : Stepped C W w (.reloadEnd env) w' effects) (id : Nat) :
    ¬ w'.actor.holds id entry := by
  have hhandled := h.handledAs
  generalize w'.actor = actor at hhandled
  generalize w'.phase = phase at hhandled
  cases hhandled with
  | reloadEnds env resp swarm hreloading =>
    cases entry <;> exact fun hheld => by cases hheld

/-! ### The caller's steps -/

theorem Sound.erase_answer (h : Sound C W a b events told s) (tag : Tag) :
    Sound C W a b events told { s with answers := s.answers.erase tag } := by
  refine { h with tracked := fun tag' hmem => ?_, answersCalled := fun tag' answer hlookup => ?_ }
  · obtain ⟨request, entry, htracked⟩ := h.tracked tag' hmem
    exact ⟨request, entry, { htracked with
      answered := fun answer hlookup => htracked.answered answer (Dict.of_lookup_erase hlookup).2 }⟩
  · exact h.answersCalled tag' answer (Dict.of_lookup_erase hlookup).2

/-- A command that is not new was given before. -/
theorem Commanded.old {n : Nat} (h : Commanded C b (events ++ [e]) n request)
    (hown : ∀ input', e = .caller input' → input' = input) (hstep : Stepped C W s.caller input w effects)
    (hused : n ∈ s.caller.resps) : Commanded C b events n request := by
  rcases commanded_concat.1 h with hold | ⟨env, addresses, rfl⟩
  · exact hold
  · obtain rfl := hown _ rfl
    exact absurd hused (hstep.resp_new rfl).1

/-- **A request followed through a step of the caller.** -/
theorem Tracked.caller (h : Tracked C W a b events s tag request entry) (hown : ∀ input', e = .caller input' → input' = input)
    (hstep : Stepped C W s.caller input w effects)
    (hissued : tag.1 = t.generation → tag.1 = s.generation ∧ tag.2 ∈ s.caller.issued) (hcaller : t.caller = w)
    (hcallee : t.callee = s.callee) (hsent : t.sent.lookup tag = s.sent.lookup tag) (hchannels : t.channels = s.channels)
    (hanswers : t.answers = s.answers) : Tracked C W a b (events ++ [e]) t tag request entry where
  protocol := h.protocol
  used := hcaller ▸ hstep.used_mono h.used
  called := calls_mono h.called
  commanded other hcommanded := h.commanded other (hcommanded.old hown hstep h.used)
  sealedFor := h.sealedFor
  held hgeneration other hbehaviour hheld := by
    obtain ⟨hgeneration, hissued⟩ := hissued hgeneration
    refine h.held hgeneration other hbehaviour (hstep.held_before ?_ (hcaller ▸ hheld))
    rw [hbehaviour]
    exact hissued
  sent envelope hlookup := h.sent envelope (hsent ▸ hlookup)
  received channel hlookup := by
    rw [hcallee]
    obtain ⟨hused, hwaiting⟩ := h.received channel (hchannels ▸ hlookup)
    refine ⟨hused, fun requestId waiting hentry hchannel => ?_⟩
    obtain ⟨hfits, hjob⟩ := hwaiting requestId waiting hentry hchannel
    exact ⟨hfits, jobs_mono hjob⟩
  answered answer hlookup := by
    obtain ⟨response, hconveys, hjustified⟩ := h.answered answer (hanswers ▸ hlookup)
    exact ⟨response, hconveys, hjustified.concat e⟩

/-- libp2p has not used the id of a new request. -/
theorem Sound.fresh_call (h : Sound C W a b events told s) (hstep : Stepped C W s.caller input w effects) {env : Env}
    {addresses : List Multiaddr}
    (heffects : effects = [entry.send env.fresh (b.peerId C) request addresses]) :
    (s.generation, entry.behaviour, env.fresh) ∉ s.called := by
  refine fun hmem => (hstep.fresh (entry.send env.fresh (b.peerId C) request addresses) ?_).1 _ ?_ (h.issued _ hmem)
  · rw [heffects]
    exact List.mem_singleton_self _
  · cases entry <;> rfl

theorem Sound.sealedFor (h : Sound C W a b events told s) {env : Env}
    (hsealed : ∀ pending, entry = .pq pending → ∃ recipient keys,
      s.caller.actor.pqIdentities.lookup (b.peerId C) = some recipient ∧ s.caller.actor.pqKeys = some keys ∧
        sendPqRequest C W env.config keys recipient s.caller.actor.keypair env.draw request = .ok pending.out) :
    SealedFor C W a b request entry := by
  intro pending hpending
  obtain ⟨recipient, keys, hidentity, hkeys, hsend⟩ := hsealed pending hpending
  rw [h.callerKeys.1] at hkeys
  rw [h.callerKeys.2] at hsend
  exact ⟨env.config, keys, recipient, env.draw, h.identity recipient hidentity, hkeys, hsend⟩

/-- **A new request.** -/
theorem Sound.track (h : Sound C W a b events told s) {env : Env} {addresses : List Multiaddr}
    (hown : ∀ input', e = .caller input' → input' = input)
    (hinput : input = .command env (.serviceSendRequest (b.peerId C) request addresses entry.resp))
    (hstep : Stepped C W s.caller input w effects)
    (heffects : effects = [entry.send env.fresh (b.peerId C) request addresses]) (hcalling : Calling env.fresh entry w)
    (hcalled : (entry.resp, s.generation, entry.behaviour, env.fresh) ∈ calls C W a b (events ++ [e]))
    (hsealed : SealedFor C W a b request entry) (hcaller : t.caller = w)
    (hsent : t.sent = s.sent.insert (s.generation, entry.behaviour, env.fresh) (entry.envelope request))
    (hchannels : t.channels = s.channels) (hanswers : t.answers = s.answers) :
    Tracked C W a b (events ++ [e]) t (s.generation, entry.behaviour, env.fresh) request entry := by
  have hfresh := h.fresh_call hstep heffects
  refine ⟨rfl, hcaller ▸ hcalling.used, hcalled, fun other hother => ?_, hsealed, fun _ other hbehaviour hheld => ?_,
    fun envelope hlookup => ?_, fun channel hlookup => ?_, fun answer hlookup => ?_⟩
  · rcases commanded_concat.1 hother with hold | ⟨env', addresses', rfl⟩
    · subst hinput
      exact absurd (h.commands _ _ hold) (hstep.resp_new rfl).1
    · have heq := (hown _ rfl).trans hinput
      cases heq
      rfl
  · exact holds_unique hcalling.held (hcaller ▸ hheld) hbehaviour
  · rw [hsent, Dict.lookup_insert_ite, if_pos rfl] at hlookup
    exact (Option.some.inj hlookup).symm
  · exact absurd (h.channelsCalled channel _ (hchannels ▸ hlookup)) hfresh
  · exact absurd (h.answersCalled _ answer (hanswers ▸ hlookup)) hfresh

/-- **The messages after a step of the caller**: the same, or one request more. -/
theorem Sound.afterCaller (h : Sound C W a b events told s) (hstep : Stepped C W s.caller input w effects) :
    s.afterCaller C b input w effects =
      { s with caller := w, generation := if input.isReloadEnd then s.generation + 1 else s.generation } ∨
    ∃ env request addresses, ∃ entry : OutboundEntry,
      input = .command env (.serviceSendRequest (b.peerId C) request addresses entry.resp) ∧
      effects = [entry.send env.fresh (b.peerId C) request addresses] ∧ Calling env.fresh entry w ∧
      SealedFor C W a b request entry ∧ s.afterCaller C b input w effects = { s with
        caller := w
        called := insert (s.generation, entry.behaviour, env.fresh) s.called
        sent := s.sent.insert (s.generation, entry.behaviour, env.fresh) (entry.envelope request) } := by
  have hquiet : callsTo (b.peerId C) effects = [] → s.afterCaller C b input w effects =
      { s with caller := w, generation := if input.isReloadEnd then s.generation + 1 else s.generation } := by
    intro hcalls
    simp [Pair.afterCaller, hcalls]
  rcases hstep.calls h.callerUsed with hcallless | ⟨env, peer, request, addresses, resp, entry, rfl, rfl, rfl, hcalling, hsealed⟩
  · exact .inl (hquiet (hcallless.callsTo (b.peerId C)))
  have hsend := callsTo_send (b.peerId C) peer env.fresh request addresses entry
  by_cases hpeer : peer = b.peerId C
  · subst hpeer
    rw [if_pos rfl] at hsend
    refine .inr ⟨env, request, addresses, entry, rfl, rfl, hcalling, h.sealedFor hsealed, ?_⟩
    simp [Pair.afterCaller, Input.isReloadEnd, hsend, Finset.union_singleton]
  · rw [if_neg hpeer] at hsend
    exact .inl (hquiet hsend)

/-- **What is in the caller's tables was sent to the callee, or not commanded for it.** -/
theorem Sound.tables_caller (h : Sound C W a b events told s) (hown : ∀ input', e = .caller input' → input' = input)
    (hstep : Stepped C W s.caller input w effects) {id : Nat} (hheld : w.actor.holds id entry) :
    ((s.afterCaller C b input w effects).generation, entry.behaviour, id) ∈ (s.afterCaller C b input w effects).called ∨
      ∀ request, ¬ Commanded C b (events ++ [e]) entry.resp request := by
  by_cases hcommanded : ∃ request, Commanded C b (events ++ [e]) entry.resp request
  swap
  · exact .inr (fun request hrequest => hcommanded ⟨request, hrequest⟩)
  refine .inl ?_
  obtain ⟨request, hcommanded⟩ := hcommanded
  rcases commanded_concat.1 hcommanded with hold | ⟨env, addresses, rfl⟩
  · -- an old command: the entry stood in the table before
    rcases hstep.waiter hheld.waiter with hwaiter | hnew
    · obtain ⟨other, hother, hbehaviour, hresp⟩ := holds_of_waiter hwaiter
      rcases h.tables id other hother with hcalled | hnone
      · rw [hbehaviour] at hcalled
        have hend : input.isReloadEnd = false := by
          cases input with
          | reloadEnd env => exact absurd hheld (not_holds_of_reloadEnd hstep id)
          | _ => rfl
        simp only [Pair.afterCaller, hend]
        exact Finset.mem_union_left _ hcalled
      · exact absurd (hresp.symm ▸ hold) (hnone request)
    · exact absurd (h.commands _ _ hold) hnew.1
  · obtain rfl := hown _ rfl
    cases hstep.dispatched h.callerUsed with
    | refused error quiet told settled => exact absurd hheld.waiter (settled.absent _)
    | sent entry' own out sealedFor calling running =>
      have hslot := calling.alone _ (own ▸ hheld.waiter)
      rw [slot_injective hslot, Pair.afterCaller, out, callsTo_send, if_pos rfl]
      simp [Input.isReloadEnd]

/-- **A step of the caller** keeps what is known. -/
theorem Sound.caller (h : Sound C W a b events told s) (hown : ∀ input', e = .caller input' → input' = input)
    (hstep : Stepped C W s.caller input w effects)
    (hcalls : ∀ env peer request addresses n, input = .command env (.serviceSendRequest peer request addresses n) →
      ∀ call ∈ callsTo (b.peerId C) effects, (n, s.generation, call.1) ∈ calls C W a b (events ++ [e]))
    (hgenuine : ∀ env id identity, input = .event env (.pqIdentity (.response id identity)) →
      s.caller.actor.pendingPqIdentity.lookup id = some (b.peerId C) → b.identity C = some identity)
    (htold : ∀ n response, .answer n (.response (.ok response)) ∈ effects → ∀ request, Commanded C b events n request →
      Justified C W a b events n request response) :
    Sound C W a b (events ++ [e]) (told ++ effects) (s.afterCaller C b input w effects) := by
  obtain ⟨hused, htoldUsed⟩ := h.callerUsed.step hstep
  have hmessages := h.afterCaller hstep
  have hcaller : (s.afterCaller C b input w effects).caller = w := rfl
  have hcallee : (s.afterCaller C b input w effects).callee = s.callee := rfl
  have hgeneration : (s.afterCaller C b input w effects).generation =
      if input.isReloadEnd then s.generation + 1 else s.generation := rfl
  have hchannels : (s.afterCaller C b input w effects).channels = s.channels := rfl
  have hanswers : (s.afterCaller C b input w effects).answers = s.answers := rfl
  have htables := fun id entry (hheld : w.actor.holds id entry) => h.tables_caller hown hstep hheld
  generalize s.afterCaller C b input w effects = t at hmessages hcaller hcallee hgeneration hchannels hanswers htables
  -- a request of the swarm that is there after the step, made before it
  have hpresent : ∀ tag ∈ s.called, tag.1 = t.generation → tag.1 = s.generation ∧ tag.2 ∈ s.caller.issued ∧
      input.isReloadEnd = false := by
    intro tag hmem htag
    have hle := h.generations tag hmem
    rw [hgeneration] at htag
    cases hend : input.isReloadEnd with
    | true =>
      rw [hend, if_pos rfl] at htag
      omega
    | false =>
      simp only [hend, Bool.false_eq_true, if_false] at htag
      exact ⟨htag, h.issued tag.2 (by rwa [← htag]), rfl⟩
  have hkept : ∀ tag ∈ s.called, t.sent.lookup tag = s.sent.lookup tag →
      ∃ request entry, Tracked C W a b (events ++ [e]) t tag request entry := by
    intro tag hmem hsent
    obtain ⟨request, entry, htracked⟩ := h.tracked tag hmem
    have hissued : tag.1 = t.generation → tag.1 = s.generation ∧ tag.2 ∈ s.caller.issued :=
      fun htag => ⟨(hpresent tag hmem htag).1, (hpresent tag hmem htag).2.1⟩
    exact ⟨request, entry, htracked.caller hown hstep hissued hcaller hcallee hsent hchannels hanswers⟩
  constructor
  case callerUsed => rwa [hcaller]
  case callerKeys =>
    rw [hcaller, hstep.keys_kept.1, hstep.keys_kept.2]
    exact h.callerKeys
  case calleeKeys => rw [hcallee]; exact h.calleeKeys
  case identity =>
    intro identity hcached
    rw [hcaller] at hcached
    rcases hstep.identity hcached with hold | ⟨env, id, hinput, hpending⟩
    · exact h.identity identity hold
    · exact hgenuine env id identity hinput hpending
  case waiting => rw [hcallee]; exact h.waiting
  case commands =>
    intro n request hcommanded
    rw [hcaller]
    rcases commanded_concat.1 hcommanded with hold | ⟨env, addresses, rfl⟩
    · exact hstep.used_mono (h.commands n request hold)
    · obtain rfl := hown _ rfl
      exact (hstep.resp_new rfl).2
  case tables =>
    intro id entry hheld
    exact htables id entry (hcaller ▸ hheld)
  case toldUsed =>
    intro n reply hmem
    rw [hcaller]
    rcases List.mem_append.1 hmem with hmem | hmem
    · exact hstep.used_mono (h.toldUsed n reply hmem)
    · exact htoldUsed n reply hmem
  case justified =>
    intro n response hmem request hcommanded
    rcases List.mem_append.1 hmem with hmem | hmem
    · have hold := hcommanded.old hown hstep (h.toldUsed n _ hmem)
      exact (h.justified n response hmem request hold).concat e
    · obtain ⟨env, event, id, entry, rfl, -⟩ := hstep.told_ok hmem
      rcases commanded_concat.1 hcommanded with hold | ⟨env', addresses, rfl⟩
      · exact (htold n response hmem request hold).concat e
      · cases hown _ rfl
  -- what is on its way
  all_goals
    rcases hmessages with rfl | ⟨env, request, addresses, entry, rfl, heffects, hcalling, hsealed, rfl⟩
  case generations.inl =>
    intro tag hmem
    have hle := h.generations tag hmem
    simp only
    split <;> omega
  case generations.inr =>
    intro tag hmem
    rcases Finset.mem_insert.1 hmem with rfl | hmem
    · exact le_refl _
    · exact h.generations tag hmem
  case issued.inl =>
    intro id hmem
    obtain ⟨-, hissued, hend⟩ := hpresent _ hmem rfl
    exact hstep.issued_mono hend hissued
  case issued.inr =>
    intro id hmem
    rcases Finset.mem_insert.1 hmem with heq | hmem
    · cases heq
      exact hcalling.issued
    · exact hstep.issued_mono rfl (h.issued id hmem)
  case tracked.inl => exact fun tag hmem => hkept tag hmem rfl
  case tracked.inr =>
    intro tag hmem
    by_cases htag : tag = (s.generation, entry.behaviour, env.fresh)
    · subst htag
      have hcalled := hcalls _ _ _ _ _ rfl ((entry.behaviour, env.fresh), entry.envelope request) (by
        rw [heffects, callsTo_send, if_pos rfl]
        exact List.mem_singleton_self _)
      exact ⟨request, entry, h.track hown rfl hstep heffects hcalling hcalled hsealed rfl rfl rfl rfl⟩
    · have hmem := (Finset.mem_insert.1 hmem).resolve_left htag
      exact hkept tag hmem (by rw [Dict.lookup_insert_ite, if_neg htag])
  case sentCalled.inl => exact h.sentCalled
  case sentCalled.inr =>
    intro tag envelope hlookup
    rcases Dict.of_lookup_insert hlookup with ⟨rfl, -⟩ | ⟨-, hlookup⟩
    · exact Finset.mem_insert_self _ _
    · exact Finset.mem_insert_of_mem (h.sentCalled tag envelope hlookup)
  case channelsCalled.inl => exact h.channelsCalled
  case channelsCalled.inr =>
    exact fun channel tag hlookup => Finset.mem_insert_of_mem (h.channelsCalled channel tag hlookup)
  case answersCalled.inl => exact h.answersCalled
  case answersCalled.inr =>
    exact fun tag answer hlookup => Finset.mem_insert_of_mem (h.answersCalled tag answer hlookup)

/-! ### The callee's steps -/

/-- **The callee opens what was sealed for it.** -/
theorem SealedFor.opened (hC : Correct C) {pending : PqOutboundPending} (h : SealedFor C W a b request (.pq pending))
    {keys : PqKeys} (hkeys : b.keys C = some keys) {inbound : Pq.PqInbound}
    (hopen : openRequest C keys (a.peerId C) pending.out.request = .ok inbound) :
    inbound.resKey = pending.out.resKey ∧ decodeRequest inbound.plaintext = some request := by
  obtain ⟨config, callerKeys, recipient, draw, hidentity, hcaller, hsend⟩ := h pending rfl
  obtain ⟨seeds, -, rfl⟩ := Option.map_eq_some_iff.1 hkeys
  obtain ⟨callerSeeds, -, rfl⟩ := Option.map_eq_some_iff.1 hcaller
  rw [Node.identity, hkeys, Option.bind_some] at hidentity
  have hidentity : (PqKeys.generate C seeds.1 seeds.2.1 seeds.2.2).identity C b.keypair = .ok recipient := by
    cases hresult : (PqKeys.generate C seeds.1 seeds.2.1 seeds.2.2).identity C b.keypair with
    | error error =>
      rw [hresult] at hidentity
      cases hidentity
    | ok identity =>
      rw [hresult] at hidentity
      rw [Option.some.inj hidentity]
  have hround := Pq.openRequest_sealRequest hC hidentity (Pq.sealed_of_send hsend)
  rw [Node.peerId, hround] at hopen
  split at hopen
  · rename_i hlength
    cases hopen
    refine ⟨rfl, Pq.decode_encodeRequest ?_⟩
    have : (strBytes request.service).length ≤ (encodeRequest request).length := by
      simp [encodeRequest]
      omega
    have : Pq.maxCiphertext < 4294967296 := by decide
    omega
  · cases hopen

/-- **The request, delivered, is handed over as it was made.** -/
theorem SealedFor.fits (hC : Correct C) (h : SealedFor C W a b request entry)
    {A : SwarmActor} (hkeys : A.pqKeys = b.keys C) {connection channel : Nat} {requestId : String}
    {waiting : PendingInboundEntry} {job : Job}
    (hadmits : Admits C A requestId (requestEvent (a.peerId C) connection channel (entry.envelope request)) waiting job) :
    Fits entry waiting.pending ∧ job = ⟨a.peerId C, requestId, request.service, request.payload⟩ := by
  cases entry with
  | plain pending =>
    cases hadmits
    exact ⟨trivial, rfl⟩
  | pq pending =>
    cases hadmits with
    | pq peer connection sealedRequest channel keys inbound req keysLoaded opened decoded =>
      obtain ⟨hkey, hdecoded⟩ := h.opened hC (hkeys ▸ keysLoaded) opened
      obtain rfl := Option.some.inj (decoded.symm.trans hdecoded)
      exact ⟨hkey, rfl⟩

/-- **A refusal reaches the caller as a refusal.** -/
theorem SealedFor.refused (hC : Correct C) (h : SealedFor C W a b request entry)
    {A : SwarmActor} (hkeys : A.pqKeys = b.keys C) {connection channel : Nat} {response : Response}
    {sealedAs : Option PqResponse}
    (hrefused : Refused C A channel response sealedAs
      (requestEvent (a.peerId C) connection channel (entry.envelope request))) :
    Conveys C response entry (.of response sealedAs) ∧ response ∈ refusals := by
  cases entry with
  | plain pending =>
    cases hrefused with
    | plain peer connection request refusal => exact ⟨rfl, refusal⟩
  | pq pending =>
    cases hrefused with
    | pq peer connection sealedRequest keys inbound sealedAs keysLoaded opened carries refusal =>
      obtain ⟨hkey, hdecoded⟩ := h.opened hC (hkeys ▸ keysLoaded) opened
      have hfits : Fits (.pq pending) (.pq channel inbound) := hkey
      refine ⟨conveys_of_carries hfits carries, refusal.resolve_right (fun hnone => ?_)⟩
      cases hnone.symm.trans hdecoded

/-- **The channels after a delivery**: the channel is that of the request that comes, or one of before. -/
theorem deliver_channels (hgiven : s.calleeInput C a e = some input) {channel : Nat}
    (hlookup : (s.deliver e).channels.lookup channel = some tag) :
    s.channels.lookup channel = some tag ∨ ∃ env connection envelope, s.sent.lookup tag = some envelope ∧
      input = .event env (requestEvent (a.peerId C) connection channel envelope) := by
  rcases calleeInput_cases hgiven with ⟨rfl, -⟩ | ⟨tag', env, connection, channel', envelope, rfl, hsent, rfl⟩
  · exact .inl hlookup
  · rcases Dict.of_lookup_insert hlookup with ⟨rfl, rfl⟩ | ⟨-, hlookup⟩
    · exact .inr ⟨env, connection, envelope, hsent, rfl⟩
    · exact .inl hlookup

theorem deliver_sent {envelope : Envelope} (hlookup : (s.deliver e).sent.lookup tag = some envelope) :
    s.sent.lookup tag = some envelope := by
  cases e with
  | request tag' env connection channel => exact (Dict.of_lookup_erase hlookup).2
  | _ => exact hlookup

theorem inbound_requestEvent (peer : PeerId) (connection channel : Nat) (envelope : Envelope) :
    (requestEvent peer connection channel envelope).inbound = some (connection, channel) := by
  cases envelope <;> rfl

/-- **What waits on the channel of a request is the request.** -/
theorem Tracked.received_callee (hC : Correct C) (h : Tracked C W a b events s tag request entry)
    (hkeys : s.callee.actor.pqKeys = b.keys C)
    (hwaiting : ∀ requestId waiting, s.callee.actor.pendingInbound.lookup requestId = some waiting →
      waiting.pending.channel ∈ s.callee.channels)
    (hgiven : s.calleeInput C a e = some input) (hstep : Stepped C W s.callee input w effects)
    (hjobs : jobs C W a b (events ++ [e]) = jobs C W a b events ++ admitted effects) {channel : Nat}
    (hlookup : (s.deliver e).channels.lookup channel = some tag) : channel ∈ w.channels ∧
      ∀ requestId waiting, w.actor.pendingInbound.lookup requestId = some waiting → waiting.pending.channel = channel →
        Fits entry waiting.pending ∧
          ⟨a.peerId C, requestId, request.service, request.payload⟩ ∈ jobs C W a b (events ++ [e]) := by
  rw [hjobs]
  rcases deliver_channels hgiven hlookup with hold | ⟨env, connection, envelope, hsent, rfl⟩
  · obtain ⟨hused, hold⟩ := h.received channel hold
    refine ⟨hstep.channels_mono hused, fun requestId waiting hentry hchannel => ?_⟩
    rcases hstep.admits hentry with hentry | ⟨env, event, job, rfl, hadmits, -⟩
    · obtain ⟨hfits, hjob⟩ := hold requestId waiting hentry hchannel
      exact ⟨hfits, List.mem_append_left _ hjob⟩
    · exact absurd (hchannel ▸ hused) (hstep.inbound hadmits.inbound).2.1
  · obtain ⟨-, hfresh, hused, -⟩ := hstep.inbound (inbound_requestEvent _ _ _ _)
    obtain rfl := h.sent envelope hsent
    refine ⟨hused, fun requestId waiting hentry hchannel => ?_⟩
    rcases hstep.admits hentry with hentry | ⟨env', event, job, heq, hadmits, hjob⟩
    · exact absurd (hchannel ▸ hwaiting requestId waiting hentry) hfresh
    · cases heq
      obtain ⟨hfits, rfl⟩ := h.sealedFor.fits hC hkeys hadmits
      exact ⟨hfits, List.mem_append_right _ hjob⟩

/-- **What goes back on the channel of a request is the callee's answer to it.** -/
theorem Tracked.answered_callee (hC : Correct C) (h : Tracked C W a b events s tag request entry)
    (hkeys : s.callee.actor.pqKeys = b.keys C) (hgiven : s.calleeInput C a e = some input)
    (hstep : Stepped C W s.callee input w effects) {channel : Nat} {response : Response} {sealedAs : Option PqResponse}
    (hlookup : (s.deliver e).channels.lookup channel = some tag) (hmem : .respond channel response sealedAs ∈ effects)
    (hresponse : (tag, response) ∈ responses C W a b (events ++ [e])) :
    Conveys C response entry (.of response sealedAs) ∧ Justified C W a b (events ++ [e]) entry.resp request response := by
  have hchannel := deliver_channels hgiven hlookup
  -- a request that waited before this step
  have hwaited : ∀ requestId waiting, s.callee.actor.pendingInbound.lookup requestId = some waiting →
      waiting.pending.channel = channel → (∀ env event, input ≠ .event env event) →
      Carries C response sealedAs waiting.pending → Conveys C response entry (.of response sealedAs) ∧
        ⟨a.peerId C, requestId, request.service, request.payload⟩ ∈ jobs C W a b events := by
    intro requestId waiting hentry hon hother hcarries
    rcases hchannel with hold | ⟨env, connection, envelope, -, heq⟩
    · obtain ⟨hfits, hjob⟩ := (h.received channel hold).2 requestId waiting hentry hon
      exact ⟨conveys_of_carries hfits hcarries, hjob⟩
    · exact absurd heq (hother _ _)
  have hsent : ∃ tag, (entry.resp, tag) ∈ calls C W a b (events ++ [e]) ∧
      (tag, response) ∈ responses C W a b (events ++ [e]) := ⟨tag, calls_mono h.called, hresponse⟩
  have hresponded := hstep.responded hmem
  cases hresponded with
  | refused env event why =>
    obtain ⟨connection, hinbound⟩ := why.inbound
    rcases hchannel with hold | ⟨env', connection', envelope, honWay, heq⟩
    · exact absurd (h.received channel hold).1 (hstep.inbound hinbound).2.1
    · cases heq
      obtain rfl := h.sent envelope honWay
      obtain ⟨hconveys, hrefusal⟩ := h.sealedFor.refused hC hkeys why
      exact ⟨hconveys, hsent, .inl hrefusal⟩
  | replied env requestId waiting waits onChannel carries =>
    obtain ⟨hconveys, hjob⟩ := hwaited requestId waiting waits onChannel (fun _ _ => by simp) carries
    refine ⟨hconveys, hsent, .inr ⟨events, [], requestId, env, ?_, hjob⟩⟩
    rcases calleeInput_cases hgiven with ⟨rfl, -⟩ | ⟨tag', env', connection, channel', envelope, -, -, heq⟩
    · rfl
    · cases heq
  | rejected env resp requestId waiting waits onChannel carries rejection =>
    obtain ⟨hconveys, -⟩ := hwaited requestId waiting waits onChannel (fun _ _ => by simp) carries
    exact ⟨hconveys, hsent, .inl (by rw [rejection]; simp [refusals])⟩

/-- **A step of the callee** keeps what is known. -/
theorem Sound.callee (hC : Correct C) (h : Sound C W a b events told s) (hgiven : s.calleeInput C a e = some input)
    (hstep : Stepped C W s.callee input w effects)
    (hjobs : jobs C W a b (events ++ [e]) = jobs C W a b events ++ admitted effects)
    (hresponses : ∀ channel response sealedAs tag, .respond channel response sealedAs ∈ effects →
      (s.deliver e).channels.lookup channel = some tag → (tag, response) ∈ responses C W a b (events ++ [e])) :
    Sound C W a b (events ++ [e]) told ((s.deliver e).afterCallee w effects) := by
  have hcommanded : ∀ {n request}, Commanded C b (events ++ [e]) n request → Commanded C b events n request := by
    intro n request hcommanded
    rcases commanded_concat.1 hcommanded with hold | ⟨env, addresses, rfl⟩
    · exact hold
    · cases hgiven
  have hanswers : (s.deliver e).answers = s.answers := by
    rcases calleeInput_cases hgiven with ⟨rfl, -⟩ | ⟨tag, env, connection, channel, envelope, rfl, -⟩ <;> rfl
  have hcaller : ((s.deliver e).afterCallee w effects).caller = s.caller := by cases e <;> rfl
  have hcalled : ((s.deliver e).afterCallee w effects).called = s.called := by cases e <;> rfl
  have hgeneration : ((s.deliver e).afterCallee w effects).generation = s.generation := by cases e <;> rfl
  constructor
  case callerUsed => exact hcaller ▸ h.callerUsed
  case callerKeys => exact hcaller ▸ h.callerKeys
  case calleeKeys => exact hstep.keys_kept.1.trans h.calleeKeys
  case identity => exact hcaller ▸ h.identity
  case waiting =>
    intro requestId waiting hentry
    rcases hstep.admits hentry with hentry | ⟨env, event, job, rfl, hadmits, -⟩
    · exact hstep.channels_mono (h.waiting requestId waiting hentry)
    · exact (hstep.inbound hadmits.inbound).2.2.1
  case generations =>
    rw [hcalled, hgeneration]
    exact h.generations
  case issued =>
    rw [hcalled, hgeneration, hcaller]
    exact h.issued
  case tracked =>
    intro tag hmem
    obtain ⟨request, entry, htracked⟩ := h.tracked tag (hcalled ▸ hmem)
    refine ⟨request, entry, htracked.protocol, hcaller ▸ htracked.used, calls_mono htracked.called,
      fun other hother => htracked.commanded other (hcommanded hother), htracked.sealedFor, ?_,
      fun envelope hlookup => htracked.sent envelope (deliver_sent hlookup), fun channel hlookup =>
        htracked.received_callee hC h.calleeKeys h.waiting hgiven hstep hjobs hlookup, fun answer hlookup => ?_⟩
    · rw [hgeneration, hcaller]
      exact htracked.held
    · rcases lookup_record hlookup with hold | ⟨channel, response, sealedAs, heffect, hchannel, rfl⟩
      · rw [hanswers] at hold
        obtain ⟨response, hconveys, hjustified⟩ := htracked.answered answer hold
        exact ⟨response, hconveys, hjustified.concat e⟩
      · exact ⟨response, htracked.answered_callee hC h.calleeKeys hgiven hstep hchannel heffect
          (hresponses _ _ _ _ heffect hchannel)⟩
  case sentCalled => exact fun tag envelope hlookup => hcalled ▸ h.sentCalled tag envelope (deliver_sent hlookup)
  case channelsCalled =>
    intro channel tag hlookup
    rw [hcalled]
    rcases deliver_channels hgiven hlookup with hold | ⟨env, connection, envelope, hsent, -⟩
    · exact h.channelsCalled channel tag hold
    · exact h.sentCalled tag envelope hsent
  case answersCalled =>
    intro tag answer hlookup
    rw [hcalled]
    rcases lookup_record hlookup with hold | ⟨channel, response, sealedAs, -, hchannel, -⟩
    · exact h.answersCalled tag answer (hanswers ▸ hold)
    · rcases deliver_channels hgiven hchannel with hold | ⟨env, connection, envelope, hsent, -⟩
      · exact h.channelsCalled channel tag hold
      · exact h.sentCalled tag envelope hsent
  case commands => exact fun n request hrequest => hcaller ▸ h.commands n request (hcommanded hrequest)
  case tables =>
    rw [hcaller, hcalled, hgeneration]
    exact fun id entry hheld =>
      (h.tables id entry hheld).imp_right (fun hnone request hrequest => hnone request (hcommanded hrequest))
  case toldUsed => exact hcaller ▸ h.toldUsed
  case justified =>
    exact fun n response hmem request hrequest =>
      (h.justified n response hmem request (hcommanded hrequest)).concat e

/-! ### Runs -/

theorem sound_init : Sound C W a b [] [] (exchange C W a b).init := by
  have hnone : ∀ n request, ¬ Commanded C b [] n request := fun n request ⟨_, _, hmem⟩ => by cases hmem
  refine ⟨used_new _ _ _ _, ⟨rfl, rfl⟩, rfl, fun _ h => ?_, fun _ _ h => ?_, fun _ h => ?_, fun _ h => ?_, fun _ h => ?_,
    fun _ _ h => ?_, fun _ _ h => ?_, fun _ _ h => ?_, fun n request h => absurd h (hnone n request),
    fun id entry h => .inr (hnone entry.resp), fun _ _ h => ?_, fun _ _ h => ?_⟩
  all_goals cases h

/-- **A response delivered to the caller is the callee's answer** to the request that the caller was commanded to send. -/
theorem Sound.delivered (hC : Correct C) (h : Sound C W a b events told s) {env : Env} {answer : Answer}
    (hgeneration : tag.1 = s.generation) (hanswer : s.answers.lookup tag = some answer)
    (hstep : Stepped C W s.caller (.event env (answer.event tag.2.2)) w effects) {n : Nat} {response : Response}
    (hmem : .answer n (.response (.ok response)) ∈ effects) (hcommanded : Commanded C b events n request) :
    Justified C W a b events n request response := by
  obtain ⟨env', event, id, entry, heq, hslot, hheld, rfl, hresult⟩ := hstep.told_ok hmem
  cases heq
  obtain ⟨request', entry', htracked⟩ := h.tracked tag (h.answersCalled tag answer hanswer)
  obtain ⟨response', hconveys, hjustified⟩ := htracked.answered answer hanswer
  -- the entry that the response is for is the one that is followed
  have htag : tag.2 = (entry.behaviour, id) := by
    have hown : answeredId (answer.event tag.2.2) = some (entry'.behaviour, tag.2.2) := by
      cases answer <;> cases entry' <;> first | rfl | cases hconveys
    rw [answeredId_of_result hslot hresult, htracked.protocol] at hown
    exact (Option.some.inj hown).symm
  obtain rfl := htracked.held hgeneration entry (by rw [htag]) (by rwa [htag])
  obtain rfl := result_of_conveys hC hconveys hresult
  obtain rfl := htracked.commanded request hcommanded
  exact hjustified

theorem not_called_of_accepts {env : Env} {event : SwarmEvent} {id : Behaviour × Nat}
    (haccepts : s.accepts C b (.event env event) = true) (hid : answeredId event = some id) :
    (s.generation, id) ∉ s.called := by
  unfold answeredId at hid
  split at hid <;> cases hid <;> exact of_decide_eq_true haccepts

/-- **An event of the exchange** keeps what is known. -/
theorem Sound.step (hC : Correct C) (h : Sound C W a b events told s) (hrun : (exchange C W a b).run events = some s)
    (hstep : (exchange C W a b).step s e = some t) :
    Sound C W a b (events ++ [e]) (told ++ s.callerEffects C W b e) t := by
  cases moved_of_step hstep with
  | callee input w given other stepped =>
    have hjobs := jobs_concat (e := e) hrun
    have heffects : s.calleeEffects C W a e = s.callee.effects C W input := by rw [Pair.calleeEffects, given, Option.elim_some]
    rw [Pair.callerEffects, other, Option.elim_none, List.append_nil]
    refine h.callee hC given stepped (heffects ▸ hjobs) (fun channel response sealedAs tag hmem hlookup => ?_)
    refine mem_outputs_concat hrun (List.mem_filterMap.2 ⟨_, heffects.symm ▸ hmem, ?_⟩)
    simp only [hlookup, Option.map_some]
  | caller input w given other stepped =>
    have heffects : s.callerEffects C W b e = s.caller.effects C W input := by rw [Pair.callerEffects, given, Option.elim_some]
    rw [heffects]
    rcases callerInput_cases given with ⟨rfl, haccepts⟩ | ⟨tag, env, answer, rfl, htag, hanswer, rfl⟩
    · refine h.caller (fun _ heq => ?_) stepped (fun env peer request addresses n heq call hcall => ?_)
        (fun env id identity heq hpending => ?_) (fun n response hmem request hcommanded => ?_)
      · cases heq
        rfl
      · subst heq
        exact mem_outputs_concat hrun (List.mem_map.2 ⟨call, heffects.symm ▸ hcall, rfl⟩)
      · subst heq
        rw [Pair.accepts, hpending, Option.all_some, decide_eq_true_eq] at haccepts
        exact haccepts rfl
      · -- a response to a request to the callee does not come this way
        obtain ⟨env, event, id, entry, rfl, hslot, hheld, rfl, hresult⟩ := stepped.told_ok hmem
        have hnot := not_called_of_accepts haccepts (answeredId_of_result hslot hresult)
        rcases h.tables id entry hheld with hcalled | hnone
        · exact absurd hcalled hnot
        · exact absurd hcommanded (hnone request)
    · refine (h.erase_answer tag).caller (fun _ heq => by cases heq) stepped (fun _ _ _ _ _ heq => by cases heq)
        (fun env' id identity heq _ => ?_) (fun n response hmem request hcommanded => h.delivered hC htag hanswer stepped hmem hcommanded)
      cases answer <;> cases heq

/-- **What is known of every run.** -/
theorem sound_run (hC : Correct C) (hrun : (exchange C W a b).run events = some s) :
    Sound C W a b events
      ((exchange C W a b).outputs (Pair.callerEffects C W b) (exchange C W a b).init events) s := by
  refine ((exchange C W a b).history_invariant
    (P := fun events s => (exchange C W a b).run events = some s ∧ Sound C W a b events
      ((exchange C W a b).outputs (Pair.callerEffects C W b) (exchange C W a b).init events) s)
    ⟨rfl, sound_init⟩ ?_ events s hrun (Machine.meets_true _ _ _)).2
  rintro events s e t ⟨hbefore, hsound⟩ - hstep
  refine ⟨(Machine.runFrom_concat _).2 ⟨s, hbefore, hstep⟩, ?_⟩
  rw [Machine.outputs_append _ hbefore, Machine.outputs_singleton]
  exact hsound.step hC hbefore hstep

/-! ### No request twice -/

/-- The requests of the caller that have been handed to the callee's node. -/
def handed (C : Crypto) (W : Wire) (a b : Node) (events : List Event) : List Job :=
  (jobs C W a b events).filter (fun job => decide (job.peer = a.peerId C))

/-- The job is the request of the command. -/
def Makes (C : Crypto) (b : Node) (events : List Event) (n : Nat) (job : Job) : Prop :=
  ∃ request, Commanded C b events n request ∧ job.service = request.service ∧ job.payload = request.payload

theorem Commanded.concat {n : Nat} (h : Commanded C b events n request) (e : Event) :
    Commanded C b (events ++ [e]) n request := commanded_concat.2 (.inl h)

theorem Makes.concat {n : Nat} {job : Job} (h : Makes C b events n job) (e : Event) : Makes C b (events ++ [e]) n job := by
  obtain ⟨request, hcommanded, hjob⟩ := h
  exact ⟨request, hcommanded.concat e, hjob⟩

/-- **No request twice**: every request that has been handed over is the request of a command of its own, and every request
on its way that of another. -/
structure Once (C : Crypto) (W : Wire) (a b : Node) (events : List Event) (s : Pair) (ns : List Nat) (owner : Tag → Nat) :
    Prop where
  distinct : ns.Nodup
  made : List.Forall₂ (Makes C b events) ns (handed C W a b events)
  onWay : ∀ tag envelope, s.sent.lookup tag = some envelope → owner tag ∉ ns ∧ ∃ request, ∃ entry : OutboundEntry,
    Commanded C b events (owner tag) request ∧ envelope = entry.envelope request ∧ SealedFor C W a b request entry
  apart : ∀ tag tag' envelope envelope', s.sent.lookup tag = some envelope → s.sent.lookup tag' = some envelope' →
    owner tag = owner tag' → tag = tag'

/-- **What a step of the callee hands over**: nothing, or the request that comes. -/
theorem admitted_callee (hstep : Stepped C W s.callee input w effects)
    (hwaiting : ∀ requestId waiting, s.callee.actor.pendingInbound.lookup requestId = some waiting →
      waiting.pending.channel ∈ s.callee.channels) :
    admitted effects = [] ∨ ∃ env event waiting job, input = .event env event ∧ admitted effects = [job] ∧
      Admits C s.callee.actor job.requestId event waiting job := by
  rcases hstep.admission with ⟨hnone, -⟩ | ⟨env, event, waiting, job, rfl, hinbound, hadmitted, -, -, -, htable⟩
  · exact .inl hnone
  · refine .inr ⟨env, event, waiting, job, rfl, hadmitted, ?_⟩
    have hentry : w.actor.pendingInbound.lookup job.requestId = some waiting := by
      rw [htable, Dict.lookup_insert_ite, if_pos rfl]
    rcases hstep.admits hentry with hold | ⟨env', event', job', heq, hadmits, hjob⟩
    · exact absurd (hwaiting _ _ hold) (hstep.inbound hinbound).2.1
    · cases heq
      rw [hadmitted, List.mem_singleton] at hjob
      exact hjob ▸ hadmits

theorem requester_of_admits {A : SwarmActor} {requestId : String} {event : SwarmEvent} {waiting : PendingInboundEntry}
    {job : Job} (h : Admits C A requestId event waiting job) : requester event = some job.peer := by
  cases h <;> rfl

variable {ns : List Nat} {owner : Tag → Nat}

theorem Once.caller (h : Once C W a b events s ns owner) (hsound : Sound C W a b events told s)
    (hstep : Stepped C W s.caller input w effects)
    (hcommand : ∀ env command, input = .command env command → e = .caller input)
    (hhanded : handed C W a b (events ++ [e]) = handed C W a b events) :
    ∃ owner, Once C W a b (events ++ [e]) (s.afterCaller C b input w effects) ns owner := by
  have hmade : List.Forall₂ (Makes C b (events ++ [e])) ns (handed C W a b (events ++ [e])) := by
    rw [hhanded]
    exact h.made.imp (fun n job hmakes => hmakes.concat e)
  rcases hsound.afterCaller hstep with heq | ⟨env, request, addresses, entry, rfl, heffects, hcalling, hsealed, heq⟩
  · rw [heq]
    refine ⟨owner, h.distinct, hmade, fun tag envelope hlookup => ?_, h.apart⟩
    obtain ⟨hnot, request, entry, hcommanded, hrest⟩ := h.onWay tag envelope hlookup
    exact ⟨hnot, request, entry, hcommanded.concat e, hrest⟩
  · -- the new request has a reply channel that no command has had
    obtain rfl := hcommand _ _ rfl
    have hnew := (hstep.resp_new rfl).1
    have hns : ∀ n ∈ ns, n ∈ s.caller.resps := by
      intro n hn
      obtain ⟨i, hi, rfl⟩ := List.getElem_of_mem hn
      obtain ⟨request', hcommanded, -⟩ := h.made.get hi (h.made.length_eq ▸ hi)
      exact hsound.commands _ _ hcommanded
    have howner : ∀ tag envelope, s.sent.lookup tag = some envelope → owner tag ∈ s.caller.resps := by
      intro tag envelope hlookup
      obtain ⟨-, request', entry', hcommanded, -⟩ := h.onWay tag envelope hlookup
      exact hsound.commands _ _ hcommanded
    rw [heq]
    refine ⟨Function.update owner (s.generation, entry.behaviour, env.fresh) entry.resp, h.distinct, hmade,
      fun tag envelope hlookup => ?_, fun tag tag' envelope envelope' hlookup hlookup' hsame => ?_⟩
    · rcases Dict.of_lookup_insert hlookup with ⟨rfl, rfl⟩ | ⟨hne, hold⟩
      · rw [Function.update_self]
        refine ⟨fun hmem => hnew (hns _ hmem), request, entry, commanded_concat.2 (.inr ⟨env, addresses, rfl⟩), rfl, hsealed⟩
      · rw [Function.update_of_ne hne]
        obtain ⟨hnot, request', entry', hcommanded, hrest⟩ := h.onWay tag envelope hold
        exact ⟨hnot, request', entry', hcommanded.concat _, hrest⟩
    · rcases Dict.of_lookup_insert hlookup with ⟨rfl, -⟩ | ⟨hne, hold⟩ <;>
        rcases Dict.of_lookup_insert hlookup' with ⟨rfl, -⟩ | ⟨hne', hold'⟩
      · rfl
      · rw [Function.update_self, Function.update_of_ne hne'] at hsame
        exact absurd (hsame ▸ howner tag' envelope' hold') hnew
      · rw [Function.update_self, Function.update_of_ne hne] at hsame
        exact absurd (hsame ▸ howner tag envelope hold) hnew
      · rw [Function.update_of_ne hne, Function.update_of_ne hne'] at hsame
        exact h.apart tag tag' envelope envelope' hold hold' hsame

/-- A request on its way is handed over, or lost. -/
theorem Once.deliver (h : Once C W a b events s ns owner) {envelope : Envelope}
    (hsent : s.sent.lookup tag = some envelope) {ns' : List Nat} (hns : ns' = ns ∨ ns' = ns ++ [owner tag])
    (hmade : List.Forall₂ (Makes C b (events ++ [e])) ns' (handed C W a b (events ++ [e])))
    (ht : t.sent = s.sent.erase tag) : Once C W a b (events ++ [e]) t ns' owner := by
  have hdistinct : ns'.Nodup := by
    rcases hns with rfl | rfl
    · exact h.distinct
    · exact List.nodup_append.2 ⟨h.distinct, List.nodup_singleton _, fun n hn m hm => by
        rw [List.mem_singleton.1 hm]
        exact fun heq => (h.onWay tag envelope hsent).1 (heq ▸ hn)⟩
  have hlookup : ∀ tag' envelope', t.sent.lookup tag' = some envelope' → tag' ≠ tag ∧ s.sent.lookup tag' = some envelope' :=
    fun _ _ hlookup => Dict.of_lookup_erase (ht ▸ hlookup)
  refine ⟨hdistinct, hmade, fun tag' envelope' hold => ?_, fun tag' tag'' envelope' envelope'' hold hold' hsame => ?_⟩
  · obtain ⟨hne, hold⟩ := hlookup tag' envelope' hold
    obtain ⟨hnot, request, entry, hcommanded, hrest⟩ := h.onWay tag' envelope' hold
    refine ⟨fun hmem => ?_, request, entry, hcommanded.concat e, hrest⟩
    rcases hns with rfl | rfl
    · exact hnot hmem
    · rcases List.mem_append.1 hmem with hmem | hmem
      · exact hnot hmem
      · exact hne (h.apart tag' tag envelope' envelope hold hsent (List.mem_singleton.1 hmem))
  · exact h.apart tag' tag'' envelope' envelope'' (hlookup _ _ hold).2 (hlookup _ _ hold').2 hsame

theorem handed_concat (hrun : (exchange C W a b).run events = some s) :
    handed C W a b (events ++ [e]) = handed C W a b events ++
      (admitted (s.calleeEffects C W a e)).filter (fun job => decide (job.peer = a.peerId C)) := by
  rw [handed, jobs_concat hrun, List.filter_append]
  rfl

theorem Once.callee (hC : Correct C) (h : Once C W a b events s ns owner) (hsound : Sound C W a b events told s)
    (hgiven : s.calleeInput C a e = some input)
    (hstep : Stepped C W s.callee input w effects) (hhanded : handed C W a b (events ++ [e]) = handed C W a b events ++
      (admitted effects).filter (fun job => decide (job.peer = a.peerId C))) :
    ∃ ns, Once C W a b (events ++ [e]) ((s.deliver e).afterCallee w effects) ns owner := by
  have hmade : List.Forall₂ (Makes C b (events ++ [e])) ns (handed C W a b events) :=
    h.made.imp (fun n job hmakes => hmakes.concat e)
  have hadmitted := admitted_callee hstep hsound.waiting
  rcases calleeInput_cases hgiven with ⟨rfl, hforeign⟩ | ⟨tag, env, connection, channel, envelope, rfl, hsent, rfl⟩
  · -- nothing of the caller comes this way
    have hnone : (admitted effects).filter (fun job => decide (job.peer = a.peerId C)) = [] := by
      rcases hadmitted with hnone | ⟨env, event, waiting, job, rfl, hjob, hadmits⟩
      · rw [hnone]
        rfl
      · have hpeer : job.peer ≠ a.peerId C := by
          have := of_decide_eq_true hforeign
          rw [requester_of_admits hadmits] at this
          exact fun heq => this (congrArg some heq)
        rw [hjob, List.filter_singleton, decide_eq_false hpeer]
        rfl
    rw [hnone, List.append_nil] at hhanded
    refine ⟨ns, h.distinct, hhanded ▸ hmade, fun tag envelope hlookup => ?_, h.apart⟩
    obtain ⟨hnot, request, entry, hcommanded, hrest⟩ := h.onWay tag envelope hlookup
    exact ⟨hnot, request, entry, hcommanded.concat _, hrest⟩
  · obtain ⟨-, request, entry, hcommanded, rfl, hsealed⟩ := h.onWay tag envelope hsent
    rcases hadmitted with hnone | ⟨env', event, waiting, job, heq, hjob, hadmits⟩
    · rw [hnone, List.filter_nil, List.append_nil] at hhanded
      exact ⟨ns, h.deliver hsent (.inl rfl) (hhanded ▸ hmade) rfl⟩
    · cases heq
      obtain ⟨-, heq⟩ := hsealed.fits hC hsound.calleeKeys hadmits
      have hown : Makes C b (events ++ [.request tag env connection channel]) (owner tag) job :=
        ⟨request, hcommanded.concat _, by rw [heq], by rw [heq]⟩
      have hpeer : job.peer = a.peerId C := by rw [heq]
      rw [hjob, List.filter_singleton, decide_eq_true hpeer] at hhanded
      refine ⟨ns ++ [owner tag], h.deliver hsent (.inr rfl) ?_ rfl⟩
      rw [hhanded]
      exact List.rel_append hmade (.cons hown .nil)

theorem once_init : Once C W a b [] (exchange C W a b).init [] (fun _ => 0) :=
  ⟨List.nodup_nil, .nil, fun _ _ h => (by cases h), fun _ _ _ _ h => (by cases h)⟩

theorem Once.step (hC : Correct C) (h : Once C W a b events s ns owner) (hsound : Sound C W a b events told s)
    (hrun : (exchange C W a b).run events = some s) (hstep : (exchange C W a b).step s e = some t) :
    ∃ ns owner, Once C W a b (events ++ [e]) t ns owner := by
  have hhanded := handed_concat (e := e) hrun
  cases moved_of_step hstep with
  | callee input w given other stepped =>
    rw [Pair.calleeEffects, given, Option.elim_some] at hhanded
    obtain ⟨ns, honce⟩ := h.callee hC hsound given stepped hhanded
    exact ⟨ns, owner, honce⟩
  | caller input w given other stepped =>
    rw [Pair.calleeEffects, other, Option.elim_none] at hhanded
    have hhanded : handed C W a b (events ++ [e]) = handed C W a b events := hhanded.trans (List.append_nil _)
    rcases callerInput_cases given with ⟨rfl, -⟩ | ⟨tag, env, answer, rfl, -, -, rfl⟩
    · obtain ⟨owner, honce⟩ := h.caller hsound stepped (fun _ _ _ => rfl) hhanded
      exact ⟨ns, owner, honce⟩
    · have herased : Once C W a b events { s with answers := s.answers.erase tag } ns owner :=
        ⟨h.distinct, h.made, h.onWay, h.apart⟩
      obtain ⟨owner, honce⟩ := herased.caller (hsound.erase_answer tag) stepped (fun _ _ heq => by cases heq) hhanded
      exact ⟨ns, owner, honce⟩

theorem once_run (hC : Correct C) (hrun : (exchange C W a b).run events = some s) :
    ∃ ns owner, Once C W a b events s ns owner := by
  refine ((exchange C W a b).history_invariant
    (P := fun events s => (exchange C W a b).run events = some s ∧ ∃ ns owner, Once C W a b events s ns owner)
    ⟨rfl, [], _, once_init⟩ ?_ events s hrun (Machine.meets_true _ _ _)).2
  rintro events s e t ⟨hbefore, ns, owner, honce⟩ - hstep
  exact ⟨(Machine.runFrom_concat _).2 ⟨s, hbefore, hstep⟩, honce.step hC (sound_run hC hbefore) hbefore hstep⟩

/-! ## Main results -/

/-- **A response is what the callee answered to the request**: in every run of the two nodes, whatever else they do, if the
caller of a `ServiceSendRequest` is told a response, then the callee's actor sent it back on the channel of the request that
this command made; and it is a refusal, or the callee's node was handed the service and payload of this request in the name
of the caller and answered that with this response. -/
theorem responses_faithful (C : Crypto) (W : Wire) (a b : Node) (hC : Correct C) (events : List Event) (s : Pair)
    (hrun : (exchange C W a b).run events = some s) (n : Nat) (request : Request) (response : Response)
    (hcommanded : Commanded C b events n request)
    (htold : .answer n (.response (.ok response)) ∈
      (exchange C W a b).outputs (Pair.callerEffects C W b) (exchange C W a b).init events) :
    (∃ tag, (n, tag) ∈ calls C W a b events ∧ (tag, response) ∈ responses C W a b events) ∧
    (response ∈ refusals ∨ ∃ before after requestId env,
      events = before ++ .callee (.command env (.serviceSendResponse requestId response)) :: after ∧
        ⟨a.peerId C, requestId, request.service, request.payload⟩ ∈ jobs C W a b before) :=
  (sound_run hC hrun).justified n response htold request hcommanded

/-- `plainCrypto` with peer ids that tell the nodes apart. -/
def namedCrypto : Crypto := { Pq.plainCrypto with
  edPublic := fun keypair => some ((keypair ++ Pq.zeros 32).take 32)
  idPeerId := fun keypair => (keypair ++ Pq.zeros 32).take 32 }

theorem namedCrypto_correct : Correct namedCrypto := { Pq.plainCrypto_correct with
  edKey := by
    rintro keypair pub ⟨⟩
    simp [namedCrypto, Pq.plainCrypto]
  edPeer := by
    rintro keypair pub ⟨⟩
    rfl
  ed25519 := by
    rintro keypair pub message proof - ⟨⟩
    simp [namedCrypto, Pq.plainCrypto] }

/-- A node with PQ keys that requires them of others. -/
def pqNode (keypair : Bytes) : Node := ⟨Pq.pqConfig, [], keypair, some (0, Pq.zeros 32, 0)⟩

/-- The caller learns the callee's identity, sends a sealed request, and gets the sealed response of the callee's node. -/
def sealedExchange : List Event :=
  let env := quietEnv Pq.pqConfig
  let caller := (pqNode [1]).peerId namedCrypto
  let callee := (pqNode [2]).peerId namedCrypto
  [.caller (.event env (.connectionEstablished callee 0)),
    .caller (.event env (.identifyReceived callee ⟨[serviceReqPqProtocol], "/nexusnet", []⟩)),
    .caller (.event env (.pqIdentity (.response 0 (((pqNode [2]).identity namedCrypto).getD Pq.plainIdentity)))),
    .caller (.command { env with fresh := 1 } (.serviceSendRequest callee ⟨"cmd", [1]⟩ [] 0)),
    .callee (.event env (.connectionEstablished caller 0)),
    .request (0, .serviceReqPq, 1) env 0 0,
    .callee (.command env (.serviceSendResponse "request" ⟨true, [9]⟩)),
    .response (0, .serviceReqPq, 1) env]

theorem sealed_exchange : ∃ s,
    (exchange namedCrypto Pq.cborWire (pqNode [1]) (pqNode [2])).run sealedExchange = some s ∧
    (∃ tag, (0, tag) ∈ calls namedCrypto Pq.cborWire (pqNode [1]) (pqNode [2]) sealedExchange ∧
      (tag, ⟨true, [9]⟩) ∈ responses namedCrypto Pq.cborWire (pqNode [1]) (pqNode [2]) sealedExchange) ∧
    ∃ before after requestId env,
      sealedExchange = before ++ .callee (.command env (.serviceSendResponse requestId ⟨true, [9]⟩)) :: after ∧
        ⟨(pqNode [1]).peerId namedCrypto, requestId, "cmd", [1]⟩ ∈
          jobs namedCrypto Pq.cborWire (pqNode [1]) (pqNode [2]) before := by
  obtain ⟨s, hrun⟩ := Option.isSome_iff_exists.1 (by decide +kernel :
    ((exchange namedCrypto Pq.cborWire (pqNode [1]) (pqNode [2])).run sealedExchange).isSome = true)
  have hcommanded : Commanded namedCrypto (pqNode [2]) sealedExchange 0 ⟨"cmd", [1]⟩ :=
    ⟨{ quietEnv Pq.pqConfig with fresh := 1 }, [], .tail _ (.tail _ (.tail _ (.head _)))⟩
  have hanswered := responses_faithful namedCrypto Pq.cborWire (pqNode [1]) (pqNode [2]) namedCrypto_correct
    sealedExchange s hrun 0 ⟨"cmd", [1]⟩ ⟨true, [9]⟩ hcommanded (by decide +kernel)
  exact ⟨s, hrun, hanswered.1, hanswered.2.resolve_left (by decide +kernel)⟩

/-- **The callee's node is handed no request twice, and none that was not made**: the requests it gets in the name of the
caller are those of different commands of the caller. -/
theorem requests_at_most_once (C : Crypto) (W : Wire) (a b : Node) (hC : Correct C) (events : List Event) (s : Pair)
    (hrun : (exchange C W a b).run events = some s) :
    ∃ ns : List Nat, ns.Nodup ∧ List.Forall₂ (Makes C b events) ns (handed C W a b events) := by
  obtain ⟨ns, owner, honce⟩ := once_run hC hrun
  exact ⟨ns, honce.distinct, honce.made⟩

theorem sealed_exchange_once : ∃ s,
    (exchange namedCrypto Pq.cborWire (pqNode [1]) (pqNode [2])).run sealedExchange = some s ∧
    handed namedCrypto Pq.cborWire (pqNode [1]) (pqNode [2]) sealedExchange =
      [⟨(pqNode [1]).peerId namedCrypto, "request", "cmd", [1]⟩] ∧
    ∃ ns : List Nat, ns.Nodup ∧ List.Forall₂ (Makes namedCrypto (pqNode [2]) sealedExchange) ns
      (handed namedCrypto Pq.cborWire (pqNode [1]) (pqNode [2]) sealedExchange) := by
  obtain ⟨s, hrun⟩ := Option.isSome_iff_exists.1 (by decide +kernel :
    ((exchange namedCrypto Pq.cborWire (pqNode [1]) (pqNode [2])).run sealedExchange).isSome = true)
  exact ⟨s, hrun, by decide +kernel, requests_at_most_once namedCrypto Pq.cborWire (pqNode [1]) (pqNode [2])
    namedCrypto_correct sealedExchange s hrun⟩

end Exchange
end NexusNet
