import NexusNet.Actor
/-!
# ActorPolicy — which inbound requests reach the controller

Two protocols bring service requests, each with its own handler.  What the PQ settings ask of a request that is handed to
the controller is `PolicyMet`; a plaintext request meets it only where the settings ask for nothing.
-/
namespace NexusNet
namespace Actor

open Pq (Crypto PqKeys PqRequest PqInbound openRequest checkSender signedMessage bind_eq_ok)

/-- An inbound service request, by its protocol. -/
inductive InboundMessage where
  | plain (request : Request)
  | pq (request : PqRequest)

def InboundMessage.event (peer : PeerId) (connection channel : Nat) : InboundMessage → SwarmEvent
  | .plain request => .serviceReq (.request peer connection request channel)
  | .pq request => .serviceReqPq (.request peer connection request channel)

def InboundMessage.isPlain : InboundMessage → Bool
  | .plain _ => true
  | .pq _ => false

/-- The effect hands a service request to the controller. -/
def Effect.admits : Effect → Bool
  | .emit (.inboundServiceRequest _ _ _ _) => true
  | _ => false

def Admitted (effects : List Effect) : Prop := ∃ effect ∈ effects, effect.admits = true

/-- **The request is signed by its sender**: it carries an identity that verifies for the peer, and a signature over its
KEM part, nonce and ciphertext that verifies under the identity's key. -/
def SignedBy (C : Crypto) (peer : PeerId) (request : PqRequest) : Prop :=
  ∃ id signature key, request.identity = some id ∧ request.signature = some signature ∧ id.verify C peer = .ok () ∧
    id.sigVk C = .ok key ∧ C.dsaSignature signature = true ∧
    C.dsaVerify key (signedMessage request.kem request.nonce request.ciphertext) signature = true

/-- **What the PQ settings ask of an inbound request.** -/
structure PolicyMet (C : Crypto) (A : SwarmActor) (config : NodeConfig) (peer : PeerId) (message : InboundMessage) :
    Prop where
  required : config.crypto.pqRequired = true → ∃ request keys inbound, message = .pq request ∧ A.pqKeys = some keys ∧
    openRequest C keys peer request = .ok inbound
  identity : config.crypto.pqIdentityEnabled = true → ∃ request, message = .pq request ∧ SignedBy C peer request

section Handlers

variable {C : Crypto} {A : SwarmActor} {env : Env} {peer : PeerId}

theorem openRequest_sender {keys : PqKeys} {request : PqRequest} {inbound : PqInbound}
    (h : openRequest C keys peer request = .ok inbound) : checkSender C peer request = .ok () := by
  unfold openRequest at h
  split at h
  · cases h
  · obtain ⟨⟨⟩, hsender, -⟩ := bind_eq_ok.1 h
    exact hsender

/-- A request that carries an identity and passes the check of its sender is signed by it. -/
theorem signedBy_of_checkSender {request : PqRequest} (h : checkSender C peer request = .ok ())
    (hid : request.identity.isSome = true) : SignedBy C peer request := by
  obtain ⟨id, hid⟩ := Option.isSome_iff_exists.1 hid
  unfold checkSender at h
  rw [hid] at h
  cases hsig : request.signature with
  | none =>
    rw [hsig] at h
    cases h
  | some signature =>
    rw [hsig] at h
    obtain ⟨⟨⟩, hverify, h⟩ := bind_eq_ok.1 h
    obtain ⟨key, hkey, h⟩ := bind_eq_ok.1 h
    refine ⟨id, signature, key, hid, hsig, hverify, hkey, ?_⟩
    split at h
    · cases h
    · rename_i hform
      split at h
      · cases h
      · rename_i hok
        exact ⟨by simpa using hform, by simpa using hok⟩

theorem not_admitted_respondPq {channel : Nat} {inbound : PqInbound} {response : Response} :
    ¬ Admitted (A.respondPq C env channel inbound response) := by
  rintro ⟨effect, hmem, hadmits⟩
  unfold SwarmActor.respondPq at hmem
  split at hmem
  · split at hmem
    · rw [List.mem_singleton.1 hmem] at hadmits
      cases hadmits
    · cases hmem
  · cases hmem

theorem admitted_admit {connection : Nat} {pending : PendingInbound} {request : Request} :
    Admitted (A.admitRequest env peer connection pending request).2 :=
  ⟨_, List.mem_cons_self, rfl⟩

/-- **A plaintext request is admitted exactly if PQ is not required.** -/
theorem admitted_plain_iff {connection channel : Nat} {request : Request} :
    Admitted (A.handleEvent C env (.serviceReq (.request peer connection request channel))).2 ↔
      env.config.crypto.pqRequired = false := by
  simp only [SwarmActor.handleEvent, SwarmActor.handleServiceReq]
  cases hreq : env.config.crypto.pqRequired with
  | true =>
    refine ⟨?_, fun h => (by cases h)⟩
    rintro ⟨effect, hmem, hadmits⟩
    rw [List.mem_singleton.1 hmem] at hadmits
    cases hadmits
  | false => exact ⟨fun _ => rfl, fun _ => admitted_admit⟩

/-- **An admitted PQ request was opened**, and carries an identity if the settings ask for one. -/
theorem admitted_pq {connection channel : Nat} {request : PqRequest}
    (h : Admitted (A.handleEvent C env (.serviceReqPq (.request peer connection request channel))).2) :
    ∃ keys inbound, A.pqKeys = some keys ∧ openRequest C keys peer request = .ok inbound ∧
      (env.config.crypto.pqIdentityEnabled = true → request.identity.isSome = true) := by
  have hnil : ¬ Admitted ([] : List Effect) := by
    rintro ⟨effect, hmem, -⟩
    cases hmem
  simp only [SwarmActor.handleEvent, SwarmActor.handleServiceReqPq, SwarmActor.handlePqRequest] at h
  split at h
  · exact absurd h hnil
  · rename_i keys hkeys
    split at h
    · exact absurd h hnil
    · rename_i inbound hopen
      split at h
      · exact absurd h not_admitted_respondPq
      · rename_i hsigned
        refine ⟨keys, inbound, hkeys, hopen, fun hid => ?_⟩
        rw [Option.isSome_iff_ne_none]
        simpa [hid] using hsigned

end Handlers

/-- **The inbound policy.**  Whatever the configuration, the tables and the local keys: a request is handed to the
controller only if it meets the policy, exactly when it is not a plaintext request on a node that asks for identities
without requiring PQ. -/
theorem inbound_policy_iff (C : Crypto) (A : SwarmActor) (env : Env) (peer : PeerId) (connection channel : Nat)
    (message : InboundMessage) :
    (Admitted (A.handleEvent C env (message.event peer connection channel)).2 →
      PolicyMet C A env.config peer message) ↔
    ¬ (message.isPlain = true ∧ env.config.crypto.pqIdentityEnabled = true ∧ env.config.crypto.pqRequired = false) := by
  cases message with
  | plain request =>
    rw [InboundMessage.event, admitted_plain_iff]
    constructor
    · rintro h ⟨-, hid, hreq⟩
      obtain ⟨request', heq, -⟩ := (h hreq).identity hid
      cases heq
    · intro h hreq
      refine ⟨fun hreq' => ?_, fun hid => absurd ⟨rfl, hid, hreq⟩ h⟩
      rw [hreq] at hreq'
      cases hreq'
  | pq request =>
    refine ⟨fun _ h => (by cases h.1), fun _ hadmitted => ?_⟩
    obtain ⟨keys, inbound, hkeys, hopen, hid⟩ := admitted_pq hadmitted
    exact ⟨fun _ => ⟨request, keys, inbound, rfl, hkeys, hopen⟩,
      fun hidentity => ⟨request, rfl, signedBy_of_checkSender (openRequest_sender hopen) (hid hidentity)⟩⟩

/-- Peers in the order of their bytes. -/
def byBytes : Iteration PeerId :=
  Iteration.along (List.map UInt8.toNat) map_toNat_injective

/-- What a step on a quiet node meets. -/
def quietEnv (config : NodeConfig) : Env where
  config := config
  bootstrapNodes := []
  now := 0
  fresh := 0
  storeError := none
  listenError := none
  dialError := none
  removedRecords := 0
  requestId := "request"
  draw := Pq.zeroDraw
  nonce := fun _ => Pq.zeroNonce
  display := fun _ => "peer"
  peers := byBytes
  ids := Iteration.ascending Nat
  requestIds := Iteration.ascending String

/-- PQ with identities, but not required. -/
def identityConfig : NodeConfig := { NodeConfig.withServices [] with crypto := ⟨true, true, false⟩ }

/-- **A plaintext request passes where identities are asked for**: with `pq_identity_enabled` and without `pq_required`
the actor hands an unsigned plaintext request to the controller. -/
theorem plaintext_admitted :
    identityConfig.validate = .ok () ∧ identityConfig.crypto.pqIdentityEnabled = true ∧
    Admitted ((SwarmActor.new identityConfig [] [] (some Pq.plainKeys)).handleEvent Pq.plainCrypto
      (quietEnv identityConfig) ((InboundMessage.plain ⟨"cmd", [1]⟩).event [7] 0 0)).2 ∧
    ¬ PolicyMet Pq.plainCrypto (SwarmActor.new identityConfig [] [] (some Pq.plainKeys)) identityConfig [7]
      (.plain ⟨"cmd", [1]⟩) := by
  refine ⟨by decide +kernel, rfl, admitted_plain_iff.2 rfl, fun h => ?_⟩
  obtain ⟨request, heq, -⟩ := h.identity rfl
  cases heq

end Actor
end NexusNet
