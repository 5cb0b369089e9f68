import Mathlib.Algebra.Ring.Nat
import NexusNet.Config
import NexusNet.Pq
/-!
# PqDelivery — which messages the PQ path delivers

The sender checks a request against `max_request_bytes`, plain and sealed; the recipient caps the ciphertext at
`MAX_CIPHERTEXT` whatever the configuration, and so does the requester when it opens the response.
-/
namespace NexusNet
namespace Pq

def PqIdentity.size (id : PqIdentity) : Nat :=
  id.ed25519Pub.length + id.kemPub.length + id.x25519Pub.length + id.sigPub.length + id.proof.length

def PqRequest.size (request : PqRequest) : Nat :=
  request.kem.length + request.nonce.length + request.ciphertext.length +
    (request.identity.elim 0 PqIdentity.size) + (request.signature.elim 0 List.length)

/-- **`encoded_len`**: the length of a message on the wire.  CBOR takes one or two bytes for each byte of a message, and
less than 512 for the names and heads of its fields. -/
structure Wire where
  request : Request → Nat
  pqRequest : PqRequest → Nat
  pqResponse : PqResponse → Nat
  request_le : ∀ r, request r ≤ 2 * ((strBytes r.service).length + r.payload.length) + 512
  pqRequest_le : ∀ r, pqRequest r ≤ 2 * r.size + 512
  pqResponse_le : ∀ r, pqResponse r ≤ 2 * (r.nonce.length + r.ciphertext.length) + 512

/-- The PQ branch of `SwarmCommand::ServiceSendRequest`, up to the message it hands to the swarm. -/
def sendPqRequest (C : Crypto) (W : Wire) (config : NodeConfig) (keys : PqKeys) (recipient : PqIdentity)
    (keypair : Bytes) (draw : Draw) (request : Request) : Except NetworkError PqOutbound :=
  let maxRequestBytes := config.dispatcher.maxRequestBytes
  let plainWireLen := W.request request
  if plainWireLen > maxRequestBytes then .error (requestTooLargeError plainWireLen maxRequestBytes false)
  else
    match sealRequest C keys recipient (encodeRequest request) config.crypto.pqIdentityEnabled keypair draw with
    | .error e => .error (.request e.text)
    | .ok out =>
      let wireLen := W.pqRequest out.request
      if wireLen > maxRequestBytes then .error (requestTooLargeError wireLen maxRequestBytes true) else .ok out

/-- What the recipient makes of a sealed request. -/
def receiveRequest (C : Crypto) (keys : PqKeys) (sender : Bytes) (request : PqRequest) : Option Request :=
  match openRequest C keys sender request with
  | .error _ => none
  | .ok inbound => decodeRequest inbound.plaintext

/-- What the requester makes of a sealed response. -/
def receiveResponse (C : Crypto) (out : PqOutbound) (response : PqResponse) : Option Response :=
  match out.openResponse C response with
  | .error _ => none
  | .ok bytes => decodeResponse bytes

theorem sealed_of_send {C : Crypto} {W : Wire} {config : NodeConfig} {keys : PqKeys} {recipient : PqIdentity}
    {keypair : Bytes} {draw : Draw} {request : Request} {out : PqOutbound}
    (h : sendPqRequest C W config keys recipient keypair draw request = .ok out) :
    sealRequest C keys recipient (encodeRequest request) config.crypto.pqIdentityEnabled keypair draw = .ok out := by
  unfold sendPqRequest at h
  simp only at h
  split at h
  · cases h
  · split at h
    · cases h
    · rename_i out' hseal
      split at h
      · cases h
      · cases h
        exact hseal

/-- **The recipient gets back a request that was sealed for it exactly if the ciphertext is within the cap.** -/
theorem receiveRequest_iff {C : Crypto} (hC : Correct C) {kemSeed dsaSeed : Nat} {xSecret recipientKeypair : Bytes}
    {recipient : PqIdentity} (hid : (PqKeys.generate C kemSeed xSecret dsaSeed).identity C recipientKeypair = .ok recipient)
    {kemSeed' dsaSeed' : Nat} {xSecret' keypair : Bytes} {sign : Bool} {draw : Draw} {request : Request} {out : PqOutbound}
    (h : sealRequest C (PqKeys.generate C kemSeed' xSecret' dsaSeed') recipient (encodeRequest request) sign keypair draw =
      .ok out) :
    receiveRequest C (PqKeys.generate C kemSeed xSecret dsaSeed) (C.idPeerId keypair) out.request = some request ↔
      4 + (strBytes request.service).length + request.payload.length + tagLen ≤ maxCiphertext := by
  unfold receiveRequest
  rw [openRequest_sealRequest hC hid h, length_encodeRequest]
  by_cases hfits : 4 + (strBytes request.service).length + request.payload.length + tagLen ≤ maxCiphertext
  · have hservice : (strBytes request.service).length < 4294967296 := by
      unfold tagLen maxCiphertext at hfits
      omega
    simp only [hfits, iff_true]
    exact decode_encodeRequest hservice
  · simp [hfits]

/-- **The requester gets back the response exactly if its ciphertext is within the cap.** -/
theorem receiveResponse_iff {C : Crypto} (hC : Correct C) {inbound : PqInbound} {out : PqOutbound}
    (hkey : inbound.resKey = out.resKey) {response : Response} {nonce : DrawnNonce} {sealedResponse : PqResponse}
    (h : inbound.sealResponse C (encodeResponse response) nonce = .ok sealedResponse) :
    receiveResponse C out sealedResponse = some response ↔ 1 + response.data.length + tagLen ≤ maxCiphertext := by
  unfold receiveResponse
  rw [openResponse_sealResponse hC hkey h, length_encodeResponse]
  by_cases hfits : 1 + response.data.length + tagLen ≤ maxCiphertext
  · simp only [hfits, iff_true]
    exact decode_encodeResponse response
  · simp [hfits]

/-- **What the PQ path delivers.**  Whatever the configuration and the key sets, for every request that passes the
sender's checks, signed or not: the recipient has the original request exactly if its ciphertext is at most
`MAX_CIPHERTEXT`, and a response that it seals reaches the requester exactly if its ciphertext is. -/
theorem pq_delivers_iff (C : Crypto) (hC : Correct C) (W : Wire) (config : NodeConfig)
    (kemSeed dsaSeed kemSeed' dsaSeed' : Nat) (xSecret xSecret' recipientKeypair keypair : Bytes) (recipient : PqIdentity)
    (hid : (PqKeys.generate C kemSeed xSecret dsaSeed).identity C recipientKeypair = .ok recipient)
    (draw : Draw) (request : Request) (out : PqOutbound)
    (hsend : sendPqRequest C W config (PqKeys.generate C kemSeed' xSecret' dsaSeed') recipient keypair draw request =
      .ok out) :
    (receiveRequest C (PqKeys.generate C kemSeed xSecret dsaSeed) (C.idPeerId keypair) out.request = some request ↔
      4 + (strBytes request.service).length + request.payload.length + tagLen ≤ maxCiphertext) ∧
    ∀ (inbound : PqInbound) (response : Response) (nonce : DrawnNonce) (sealedResponse : PqResponse),
      openRequest C (PqKeys.generate C kemSeed xSecret dsaSeed) (C.idPeerId keypair) out.request = .ok inbound →
      inbound.sealResponse C (encodeResponse response) nonce = .ok sealedResponse →
      (receiveResponse C out sealedResponse = some response ↔ 1 + response.data.length + tagLen ≤ maxCiphertext) := by
  have hseal := sealed_of_send hsend
  refine ⟨receiveRequest_iff hC hid hseal, fun inbound response nonce sealedResponse hopen hres => ?_⟩
  have hkey : inbound.resKey = out.resKey := by
    rw [openRequest_sealRequest hC hid hseal] at hopen
    split at hopen
    · cases hopen
      rfl
    · cases hopen
  exact receiveResponse_iff hC hkey hres

/-! ## A concrete instance

Algorithms with the real lengths that meet the equations, the lengths of CBOR, and messages of one mebibyte under the
default limits of 16 MiB. -/

def zeros (n : Nat) : Bytes := List.replicate n 0

@[simp] theorem length_zeros (n : Nat) : (zeros n).length = n := List.length_replicate

/-- Every key, secret and signature is constant, and the AEAD appends a constant tag. -/
def plainCrypto : Crypto where
  kemKeygen := fun _ => (zeros 2400, zeros 1184)
  kemKey := fun ek => ek.length == 1184
  encapsulate := fun _ _ => (zeros mlkemCtLen, zeros 32)
  decapsulate := fun _ _ => zeros 32
  xPublic := fun _ => zeros x25519Len
  diffieHellman := fun _ _ => zeros 32
  hkdf := fun _ _ => zeros 32
  encrypt := fun _ _ m => some (m ++ zeros tagLen)
  decrypt := fun _ _ c => some (c.take (c.length - tagLen))
  idSign := fun _ _ => some (zeros 64)
  edPublic := fun _ => some (zeros 32)
  edKey := fun key => key.length == 32
  edVerify := fun _ _ proof => proof.length == 64
  edPeerId := fun key => key
  idPeerId := fun _ => zeros 32
  dsaKeygen := fun _ => (zeros 4032, zeros 1952)
  dsaKey := fun vk => vk.length == 1952
  dsaSign := fun _ _ => zeros 3309
  dsaSignature := fun sig => sig.length == 3309
  dsaVerify := fun _ _ sig => sig.length == 3309

theorem plainCrypto_correct : Correct plainCrypto where
  kemKey := fun _ => by simp [plainCrypto]
  kemLength := fun _ _ => length_zeros _
  kem := fun _ _ => rfl
  xLength := fun _ => length_zeros _
  x25519 := fun _ _ => rfl
  aeadLength := fun _ _ m c h => by
    cases h
    simp
  aead := fun _ _ m c h => by
    cases h
    simp [plainCrypto]
  edKey := fun _ pub h => by
    cases h
    simp [plainCrypto]
  edPeer := fun _ pub h => by
    cases h
    rfl
  ed25519 := fun _ pub m proof hpub hproof => by
    cases hpub
    cases hproof
    simp [plainCrypto]
  dsaKey := fun _ => by simp [plainCrypto]
  dsaSignature := fun _ _ => by simp [plainCrypto]
  dsa := fun _ _ => by simp [plainCrypto]

/-- The head of a CBOR item of the given length. -/
def cborHead (n : Nat) : Nat :=
  if n < 24 then 1 else if n < 256 then 2 else if n < 65536 then 3 else if n < 4294967296 then 5 else 9

def cborText (s : String) : Nat := cborHead (strBytes s).length + (strBytes s).length

/-- A `Vec<u8>`: an array of integers, each in one byte below 24 and else in two. -/
def cborSeq (bytes : Bytes) : Nat := cborHead bytes.length + (bytes.map (fun b => if b < 24 then 1 else 2)).sum

def cborIdentity (id : PqIdentity) : Nat :=
  1 + cborText "ed25519_pub" + cborSeq id.ed25519Pub + cborText "kem_pub" + cborSeq id.kemPub +
    cborText "x25519_pub" + cborSeq id.x25519Pub + cborText "sig_pub" + cborSeq id.sigPub +
    cborText "proof" + cborSeq id.proof

theorem cborHead_le (n : Nat) : cborHead n ≤ 9 := by
  unfold cborHead
  split
  · omega
  split
  · omega
  split
  · omega
  split
  · omega
  · omega

theorem cborSeq_le (bytes : Bytes) : cborSeq bytes ≤ 2 * bytes.length + 9 := by
  have hhead := cborHead_le bytes.length
  have hsum : (bytes.map (fun b => if b < 24 then 1 else 2)).sum ≤ 2 * bytes.length := by
    induction bytes with
    | nil => simp
    | cons b rest ih =>
      have := ih (cborHead_le rest.length)
      simp only [List.map_cons, List.sum_cons, List.length_cons]
      split <;> omega
  unfold cborSeq
  omega

theorem cborText_le (s : String) : cborText s ≤ (strBytes s).length + 9 := by
  have := cborHead_le (strBytes s).length
  unfold cborText
  omega

theorem cborIdentity_le (id : PqIdentity) : cborIdentity id ≤ 2 * id.size + 91 := by
  have hnames : cborText "ed25519_pub" + cborText "kem_pub" + cborText "x25519_pub" + cborText "sig_pub" +
      cborText "proof" = 45 := by decide +kernel
  have h₁ := cborSeq_le id.ed25519Pub
  have h₂ := cborSeq_le id.kemPub
  have h₃ := cborSeq_le id.x25519Pub
  have h₄ := cborSeq_le id.sigPub
  have h₅ := cborSeq_le id.proof
  unfold cborIdentity PqIdentity.size
  omega

/-- The lengths of the messages as CBOR maps of their fields. -/
def cborWire : Wire where
  request := fun r => 1 + cborText "service" + cborText r.service + cborText "payload" + cborSeq r.payload
  pqRequest := fun r =>
    1 + cborText "version" + cborHead r.version.toNat + cborText "kem" + cborSeq r.kem + cborText "nonce" + cborSeq r.nonce +
      cborText "ciphertext" + cborSeq r.ciphertext + cborText "identity" + r.identity.elim 1 cborIdentity +
      cborText "signature" + r.signature.elim 1 cborSeq
  pqResponse := fun r => 1 + cborText "nonce" + cborSeq r.nonce + cborText "ciphertext" + cborSeq r.ciphertext
  request_le := fun r => by
    have hnames : cborText "service" + cborText "payload" = 16 := by decide +kernel
    have hservice := cborText_le r.service
    have hpayload := cborSeq_le r.payload
    omega
  pqRequest_le := fun r => by
    have hnames : cborText "version" + cborText "kem" + cborText "nonce" + cborText "ciphertext" + cborText "identity" +
        cborText "signature" = 48 := by decide +kernel
    have hversion := cborHead_le r.version.toNat
    have hkem := cborSeq_le r.kem
    have hnonce := cborSeq_le r.nonce
    have hciphertext := cborSeq_le r.ciphertext
    have hid : r.identity.elim 1 cborIdentity ≤ 2 * r.identity.elim 0 PqIdentity.size + 91 := by
      cases r.identity with
      | none => simp
      | some id => exact cborIdentity_le id
    have hsig : r.signature.elim 1 cborSeq ≤ 2 * r.signature.elim 0 List.length + 9 := by
      cases r.signature with
      | none => simp
      | some sig => exact cborSeq_le sig
    unfold PqRequest.size
    omega
  pqResponse_le := fun r => by
    have hnames : cborText "nonce" + cborText "ciphertext" = 17 := by decide +kernel
    have hnonce := cborSeq_le r.nonce
    have hciphertext := cborSeq_le r.ciphertext
    omega

/-- The default configuration with PQ required and signed. -/
def pqConfig : NodeConfig := { NodeConfig.withServices [] with crypto := ⟨true, true, true⟩ }

def plainKeys : PqKeys := PqKeys.generate plainCrypto 0 (zeros 32) 0

def plainIdentity : PqIdentity := ⟨zeros 32, zeros 1184, zeros x25519Len, zeros 1952, zeros 64⟩

def zeroNonce : DrawnNonce := ⟨zeros nonceLen, length_zeros _⟩

def zeroDraw : Draw := ⟨0, zeros 32, zeroNonce⟩

def plainOutbound (request : Request) : PqOutbound :=
  ⟨⟨envelopeVersion, zeros mlkemCtLen ++ zeros x25519Len, zeroNonce.bytes, encodeRequest request ++ zeros tagLen,
    some plainIdentity, some (zeros 3309)⟩, zeros 32⟩

theorem plain_identity : plainKeys.identity plainCrypto [] = .ok plainIdentity := rfl

theorem plain_seal (request : Request) :
    sealRequest plainCrypto plainKeys plainIdentity (encodeRequest request) true [] zeroDraw =
      .ok (plainOutbound request) := by
  have hkem : plainIdentity.kemEk plainCrypto = .ok (zeros 1184) := by
    simp [PqIdentity.kemEk, plainIdentity, plainCrypto]
  have hx : plainIdentity.xPub = .ok (zeros x25519Len) := by simp [PqIdentity.xPub, plainIdentity]
  simp only [sealRequest, hkem, hx, signEnvelope, plain_identity, bind, Except.bind]
  rfl

/-- A request of up to 4 MiB passes the sender's checks. -/
theorem plain_send {request : Request} (hs : (strBytes request.service).length ≤ 64)
    (hp : request.payload.length ≤ 4194304) (W : Wire) :
    sendPqRequest plainCrypto W pqConfig plainKeys plainIdentity [] zeroDraw request = .ok (plainOutbound request) := by
  have hplain := W.request_le request
  have hsealed := W.pqRequest_le (plainOutbound request).request
  have hsize : (plainOutbound request).request.size = 7725 + (strBytes request.service).length + request.payload.length := by
    simp only [plainOutbound, PqRequest.size, PqIdentity.size, plainIdentity, zeroNonce, List.length_append, length_zeros,
      Option.elim, length_encodeRequest, mlkemCtLen, x25519Len, nonceLen, tagLen]
    omega
  rw [hsize] at hsealed
  have hlimit : pqConfig.dispatcher.maxRequestBytes = 16777216 := rfl
  have hsign : pqConfig.crypto.pqIdentityEnabled = true := rfl
  simp only [sendPqRequest, hsign, plain_seal]
  rw [if_neg (by omega), if_neg (by omega)]

theorem plain_open (request : Request) :
    openRequest plainCrypto plainKeys (zeros 32) (plainOutbound request).request =
      if (encodeRequest request).length + tagLen ≤ maxCiphertext then .ok ⟨encodeRequest request, zeros 32⟩
      else .error .invalidEnvelope :=
  openRequest_sealRequest plainCrypto_correct plain_identity (plain_seal request)

theorem plain_rejects {request : Request} (hp : request.payload.length = maxCiphertext) :
    openRequest plainCrypto plainKeys (zeros 32) (plainOutbound request).request = .error .invalidEnvelope := by
  rw [plain_open, if_neg]
  rw [length_encodeRequest]
  omega

/-- A response of up to 4 MiB is sealed and within the limit. -/
theorem plain_sealResponse (inbound : PqInbound) (response : Response) (h : response.data.length ≤ 4194304) (W : Wire) :
    ∃ sealedResponse, inbound.sealResponse plainCrypto (encodeResponse response) zeroNonce = .ok sealedResponse ∧
      W.pqResponse sealedResponse ≤ pqConfig.dispatcher.maxResponseBytes := by
  refine ⟨⟨zeroNonce.bytes, encodeResponse response ++ zeros tagLen⟩, rfl, (W.pqResponse_le _).trans ?_⟩
  simp only [zeroNonce, pqConfig, NodeConfig.withServices, List.length_append, length_zeros, length_encodeResponse,
    nonceLen, tagLen]
  omega

theorem plain_rejects_response {inbound : PqInbound} {out : PqOutbound} (hkey : inbound.resKey = out.resKey)
    {response : Response} (hd : response.data.length = maxCiphertext) {sealedResponse : PqResponse}
    (h : inbound.sealResponse plainCrypto (encodeResponse response) zeroNonce = .ok sealedResponse) :
    out.openResponse plainCrypto sealedResponse = .error .invalidEnvelope := by
  rw [openResponse_sealResponse plainCrypto_correct hkey h, if_neg]
  rw [length_encodeResponse]
  omega

/-- A short request arrives. -/
theorem short_request_arrives :
    receiveRequest plainCrypto plainKeys (zeros 32) (plainOutbound ⟨"cmd", [1, 2, 3]⟩).request =
      some ⟨"cmd", [1, 2, 3]⟩ :=
  (pq_delivers_iff plainCrypto plainCrypto_correct cborWire pqConfig 0 0 0 0 (zeros 32) (zeros 32) [] [] plainIdentity
    plain_identity zeroDraw ⟨"cmd", [1, 2, 3]⟩ (plainOutbound ⟨"cmd", [1, 2, 3]⟩)
    (plain_send (by decide +kernel) (by decide +kernel) cborWire)).1.2 (by decide +kernel)

/-- **Messages of one mebibyte are admitted and not delivered**: under the default limits of 16 MiB the sender seals a
request with a payload of 2²⁰ bytes, and its recipient rejects the envelope; and a response of that size is within the
response limit, and the requester rejects it. -/
theorem mebibyte_rejected :
    pqConfig.validate = .ok () ∧
    (∃ out, sendPqRequest plainCrypto cborWire pqConfig plainKeys plainIdentity [] zeroDraw
        ⟨"cmd", zeros maxCiphertext⟩ = .ok out ∧
      openRequest plainCrypto plainKeys (zeros 32) out.request = .error .invalidEnvelope) ∧
    (∃ out inbound sealedResponse, sendPqRequest plainCrypto cborWire pqConfig plainKeys plainIdentity [] zeroDraw
        ⟨"cmd", []⟩ = .ok out ∧
      openRequest plainCrypto plainKeys (zeros 32) out.request = .ok inbound ∧
      inbound.sealResponse plainCrypto (encodeResponse ⟨true, zeros maxCiphertext⟩) zeroNonce = .ok sealedResponse ∧
      cborWire.pqResponse sealedResponse ≤ pqConfig.dispatcher.maxResponseBytes ∧
      out.openResponse plainCrypto sealedResponse = .error .invalidEnvelope) := by
  have hcmd : (strBytes "cmd").length ≤ 64 := by decide +kernel
  have hlong : (zeros maxCiphertext).length = maxCiphertext := length_zeros _
  have hmax : (zeros maxCiphertext).length ≤ 4194304 := hlong.trans_le (by decide)
  refine ⟨by decide +kernel, ⟨_, plain_send hcmd hmax cborWire, plain_rejects hlong⟩, ?_⟩
  have hopen : openRequest plainCrypto plainKeys (zeros 32) (plainOutbound ⟨"cmd", []⟩).request =
      .ok ⟨encodeRequest ⟨"cmd", []⟩, zeros 32⟩ :=
    (plain_open ⟨"cmd", []⟩).trans (if_pos (by decide +kernel))
  obtain ⟨sealedResponse, hseal, hlimit⟩ := plain_sealResponse ⟨encodeRequest ⟨"cmd", []⟩, zeros 32⟩
    ⟨true, zeros maxCiphertext⟩ hmax cborWire
  exact ⟨_, _, sealedResponse, plain_send hcmd (by decide) cborWire, hopen, hseal, hlimit,
    plain_rejects_response rfl hlong hseal⟩

end Pq
end NexusNet
