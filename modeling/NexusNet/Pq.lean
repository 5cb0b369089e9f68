import NexusNet.PqEncoding
/-!
# Pq — sealing and opening service messages

The envelopes of `pq.rs`: an ML-KEM-768 and X25519 hybrid establishes a key for the request and one for the response,
ChaCha20-Poly1305 encrypts, and a signed request carries the sender's identity and an ML-DSA-65 signature.  The
algorithms are given functions on bytes (`Crypto`) with their correctness equations (`Correct`); what the source draws at
random is a parameter (`Draw`).
-/
namespace NexusNet
namespace Pq

/-- The given algorithms.  Keys, signatures and ciphertexts are their bytes; the `Nat` of a key generation or an
encapsulation is its randomness; `kemKey`, `edKey`, `dsaKey` and `dsaSignature` say which bytes the constructors
accept. -/
structure Crypto where
  kemKeygen : Nat → Bytes × Bytes
  kemKey : Bytes → Bool
  encapsulate : Bytes → Nat → Bytes × Bytes
  decapsulate : Bytes → Bytes → Bytes
  xPublic : Bytes → Bytes
  diffieHellman : Bytes → Bytes → Bytes
  hkdf : Bytes → Bytes → Bytes
  encrypt : Bytes → Bytes → Bytes → Option Bytes
  decrypt : Bytes → Bytes → Bytes → Option Bytes
  idSign : Bytes → Bytes → Option Bytes
  edPublic : Bytes → Option Bytes
  edKey : Bytes → Bool
  edVerify : Bytes → Bytes → Bytes → Bool
  edPeerId : Bytes → Bytes
  idPeerId : Bytes → Bytes
  dsaKeygen : Nat → Bytes × Bytes
  dsaKey : Bytes → Bool
  dsaSign : Bytes → Bytes → Bytes
  dsaSignature : Bytes → Bool
  dsaVerify : Bytes → Bytes → Bytes → Bool

def nonceLen : Nat := 12
def maxCiphertext : Nat := 1048576
def mlkemCtLen : Nat := 1088
def x25519Len : Nat := 32
def envelopeVersion : UInt8 := 1
def reqInfo : Bytes := strBytes "oahd/pq/req/v1"
def resInfo : Bytes := strBytes "oahd/pq/res/v1"

/-- The length of a tag of ChaCha20-Poly1305. -/
def tagLen : Nat := 16

/-- **The correctness equations of the algorithms.** -/
structure Correct (C : Crypto) : Prop where
  kemKey : ∀ seed, C.kemKey (C.kemKeygen seed).2 = true
  kemLength : ∀ ek r, (C.encapsulate ek r).1.length = mlkemCtLen
  kem : ∀ seed r, C.decapsulate (C.kemKeygen seed).1 (C.encapsulate (C.kemKeygen seed).2 r).1 =
    (C.encapsulate (C.kemKeygen seed).2 r).2
  xLength : ∀ secret, (C.xPublic secret).length = x25519Len
  x25519 : ∀ a b, C.diffieHellman a (C.xPublic b) = C.diffieHellman b (C.xPublic a)
  aeadLength : ∀ key nonce m c, C.encrypt key nonce m = some c → c.length = m.length + tagLen
  aead : ∀ key nonce m c, C.encrypt key nonce m = some c → C.decrypt key nonce c = some m
  edKey : ∀ kp pub, C.edPublic kp = some pub → C.edKey pub = true
  edPeer : ∀ kp pub, C.edPublic kp = some pub → C.edPeerId pub = C.idPeerId kp
  ed25519 : ∀ kp pub m proof, C.edPublic kp = some pub → C.idSign kp m = some proof → C.edVerify pub m proof = true
  dsaKey : ∀ seed, C.dsaKey (C.dsaKeygen seed).2 = true
  dsaSignature : ∀ sk m, C.dsaSignature (C.dsaSign sk m) = true
  dsa : ∀ seed m, C.dsaVerify (C.dsaKeygen seed).2 m (C.dsaSign (C.dsaKeygen seed).1 m) = true

inductive PqError where
  | invalidIdentity
  | invalidKey
  | invalidEnvelope
  | crypto
deriving DecidableEq

def PqError.text : PqError → String
  | .invalidIdentity => "pq identity proof invalid"
  | .invalidKey      => "pq key material invalid"
  | .invalidEnvelope => "pq envelope malformed"
  | .crypto          => "pq crypto failure"

/-! ## Keys and identities -/

structure PqKeys where
  kemDk : Bytes
  kemEk : Bytes
  xSecret : Bytes
  sigSk : Bytes
  sigVk : Bytes
deriving DecidableEq

/-- `PqKeys::generate`, given its randomness. -/
def PqKeys.generate (C : Crypto) (kemSeed : Nat) (xSecret : Bytes) (dsaSeed : Nat) : PqKeys :=
  ⟨(C.kemKeygen kemSeed).1, (C.kemKeygen kemSeed).2, xSecret, (C.dsaKeygen dsaSeed).1, (C.dsaKeygen dsaSeed).2⟩

structure PqIdentity where
  ed25519Pub : Bytes
  kemPub : Bytes
  x25519Pub : Bytes
  sigPub : Bytes
  proof : Bytes
deriving DecidableEq

def identityMessage (kemPub x25519Pub sigPub : Bytes) : Bytes :=
  strBytes "oahd/pq/identity/v1" ++ kemPub ++ x25519Pub ++ sigPub

def PqKeys.identity (C : Crypto) (keys : PqKeys) (idKeypair : Bytes) : Except PqError PqIdentity :=
  match C.idSign idKeypair (identityMessage keys.kemEk (C.xPublic keys.xSecret) keys.sigVk) with
  | none => .error .crypto
  | some proof =>
    match C.edPublic idKeypair with
    | none => .error .invalidIdentity
    | some edPub => .ok ⟨edPub, keys.kemEk, C.xPublic keys.xSecret, keys.sigVk, proof⟩

def PqIdentity.verify (C : Crypto) (id : PqIdentity) (expected : Bytes) : Except PqError Unit :=
  if !C.edKey id.ed25519Pub then .error .invalidIdentity
  else if C.edPeerId id.ed25519Pub ≠ expected then .error .invalidIdentity
  else if !C.edVerify id.ed25519Pub (identityMessage id.kemPub id.x25519Pub id.sigPub) id.proof then
    .error .invalidIdentity
  else .ok ()

def PqIdentity.kemEk (C : Crypto) (id : PqIdentity) : Except PqError Bytes :=
  if C.kemKey id.kemPub then .ok id.kemPub else .error .invalidKey

def PqIdentity.xPub (id : PqIdentity) : Except PqError Bytes :=
  if id.x25519Pub.length = x25519Len then .ok id.x25519Pub else .error .invalidKey

def PqIdentity.sigVk (C : Crypto) (id : PqIdentity) : Except PqError Bytes :=
  if C.dsaKey id.sigPub then .ok id.sigPub else .error .invalidKey

/-! ## Envelopes -/

structure PqRequest where
  version : UInt8
  kem : Bytes
  nonce : Bytes
  ciphertext : Bytes
  identity : Option PqIdentity
  signature : Option Bytes
deriving DecidableEq

structure PqResponse where
  nonce : Bytes
  ciphertext : Bytes
deriving DecidableEq

structure PqOutbound where
  request : PqRequest
  resKey : Bytes
deriving DecidableEq

structure PqInbound where
  plaintext : Bytes
  resKey : Bytes
deriving DecidableEq

/-- A nonce as `aead_seal` draws it. -/
structure DrawnNonce where
  bytes : Bytes
  length : bytes.length = nonceLen

/-- What `seal_request` draws: the randomness of the encapsulation, the ephemeral secret and the nonce. -/
structure Draw where
  encapsulation : Nat
  ephemeral : Bytes
  nonce : DrawnNonce

def signedMessage (kem nonce ciphertext : Bytes) : Bytes := strBytes "oahd/pq/request/v1" ++ kem ++ nonce ++ ciphertext

def combine (C : Crypto) (kemSs xSs : Bytes) : Bytes := C.hkdf (kemSs ++ xSs) (strBytes "oahd/pq/combine/v1")

def derive (C : Crypto) (shared info : Bytes) : Bytes := C.hkdf shared info

def aeadSeal (C : Crypto) (key plaintext : Bytes) (nonce : DrawnNonce) : Except PqError (Bytes × Bytes) :=
  match C.encrypt key nonce.bytes plaintext with
  | none => .error .crypto
  | some ciphertext => .ok (nonce.bytes, ciphertext)

def aeadOpen (C : Crypto) (key nonce ciphertext : Bytes) : Except PqError Bytes :=
  if nonce.length ≠ nonceLen ∨ ciphertext.length > maxCiphertext then .error .invalidEnvelope
  else match C.decrypt key nonce ciphertext with
  | none => .error .crypto
  | some plaintext => .ok plaintext

def PqOutbound.openResponse (C : Crypto) (out : PqOutbound) (response : PqResponse) : Except PqError Bytes :=
  aeadOpen C out.resKey response.nonce response.ciphertext

def PqInbound.sealResponse (C : Crypto) (inbound : PqInbound) (plaintext : Bytes) (nonce : DrawnNonce) :
    Except PqError PqResponse := do
  let (nonce, ciphertext) ← aeadSeal C inbound.resKey plaintext nonce
  .ok ⟨nonce, ciphertext⟩

/-- The identity and the signature of a signed request. -/
def signEnvelope (C : Crypto) (keys : PqKeys) (idKeypair kem nonce ciphertext : Bytes) :
    Bool → Except PqError (Option PqIdentity × Option Bytes)
  | false => .ok (none, none)
  | true => do
    let id ← keys.identity C idKeypair
    .ok (some id, some (C.dsaSign keys.sigSk (signedMessage kem nonce ciphertext)))

def sealRequest (C : Crypto) (keys : PqKeys) (recipient : PqIdentity) (plaintext : Bytes) (sign : Bool)
    (idKeypair : Bytes) (draw : Draw) : Except PqError PqOutbound := do
  let ek ← recipient.kemEk C
  let (kemCt, kemSs) := C.encapsulate ek draw.encapsulation
  let xPub ← recipient.xPub
  let shared := combine C kemSs (C.diffieHellman draw.ephemeral xPub)
  let (nonce, ciphertext) ← aeadSeal C (derive C shared reqInfo) plaintext draw.nonce
  let kem := kemCt ++ C.xPublic draw.ephemeral
  let (identity, signature) ← signEnvelope C keys idKeypair kem nonce ciphertext sign
  .ok ⟨⟨envelopeVersion, kem, nonce, ciphertext, identity, signature⟩, derive C shared resInfo⟩

/-- The check of the sender in `open_request`: an identity and a signature, or neither. -/
def checkSender (C : Crypto) (expectedSender : Bytes) (request : PqRequest) : Except PqError Unit :=
  match request.identity, request.signature with
  | some id, some sig => do
    id.verify C expectedSender
    let vk ← id.sigVk C
    if !C.dsaSignature sig then .error .invalidIdentity
    else if !C.dsaVerify vk (signedMessage request.kem request.nonce request.ciphertext) sig then .error .invalidIdentity
    else .ok ()
  | none, none => .ok ()
  | _, _ => .error .invalidIdentity

def openRequest (C : Crypto) (keys : PqKeys) (expectedSender : Bytes) (request : PqRequest) :
    Except PqError PqInbound :=
  if request.version ≠ envelopeVersion ∨ request.kem.length ≠ mlkemCtLen + x25519Len ∨
      request.nonce.length ≠ nonceLen ∨ request.ciphertext.length > maxCiphertext then .error .invalidEnvelope
  else do
    checkSender C expectedSender request
    let (kemBytes, xBytes) := request.kem.splitAt mlkemCtLen
    let shared := combine C (C.decapsulate keys.kemDk kemBytes) (C.diffieHellman keys.xSecret xBytes)
    let plaintext ← aeadOpen C (derive C shared reqInfo) request.nonce request.ciphertext
    .ok ⟨plaintext, derive C shared resInfo⟩

/-! ## What sealing and opening do -/

theorem aeadSeal_eq_ok {C : Crypto} {key plaintext nonce' ciphertext : Bytes} {nonce : DrawnNonce}
    (h : aeadSeal C key plaintext nonce = .ok (nonce', ciphertext)) :
    nonce' = nonce.bytes ∧ C.encrypt key nonce.bytes plaintext = some ciphertext := by
  unfold aeadSeal at h
  split at h
  · cases h
  · rename_i hc
    cases h
    exact ⟨rfl, hc⟩

section Laws

variable {C : Crypto} (hC : Correct C)

include hC

/-- **A ciphertext opens exactly if it is short enough.** -/
theorem aeadOpen_aeadSeal {key plaintext nonce' ciphertext : Bytes} {nonce : DrawnNonce}
    (h : aeadSeal C key plaintext nonce = .ok (nonce', ciphertext)) :
    aeadOpen C key nonce' ciphertext =
      if plaintext.length + tagLen ≤ maxCiphertext then .ok plaintext else .error .invalidEnvelope := by
  obtain ⟨rfl, hc⟩ := aeadSeal_eq_ok h
  have hlen := hC.aeadLength _ _ _ _ hc
  unfold aeadOpen
  rw [hC.aead _ _ _ _ hc, hlen, nonce.length]
  by_cases hfits : plaintext.length + tagLen ≤ maxCiphertext
  · rw [if_pos hfits, if_neg (by omega)]
  · rw [if_neg hfits, if_pos (by omega)]

/-- **What an identity of generated keys proves.** -/
theorem identity_verify {keys : PqKeys} {idKeypair : Bytes} {id : PqIdentity} (h : keys.identity C idKeypair = .ok id) :
    id.verify C (C.idPeerId idKeypair) = .ok () := by
  unfold PqKeys.identity at h
  split at h
  · cases h
  rename_i proof hproof
  split at h
  · cases h
  rename_i pub hpub
  cases h
  simp [PqIdentity.verify, hC.edKey _ _ hpub, hC.edPeer _ _ hpub, hC.ed25519 _ _ _ _ hpub hproof]

end Laws

theorem identity_keys {C : Crypto} {keys : PqKeys} {idKeypair : Bytes} {id : PqIdentity}
    (h : keys.identity C idKeypair = .ok id) :
    id.kemPub = keys.kemEk ∧ id.x25519Pub = C.xPublic keys.xSecret ∧ id.sigPub = keys.sigVk := by
  unfold PqKeys.identity at h
  split at h
  · cases h
  split at h
  · cases h
  cases h
  exact ⟨rfl, rfl, rfl⟩

/-- The secret that a sealed request establishes with the recipient. -/
def sharedSecret (C : Crypto) (kemPub x25519Pub : Bytes) (draw : Draw) : Bytes :=
  combine C (C.encapsulate kemPub draw.encapsulation).2 (C.diffieHellman draw.ephemeral x25519Pub)

/-- **What a sealed request is made of.** -/
structure Sealed (C : Crypto) (keys : PqKeys) (recipient : PqIdentity) (plaintext : Bytes) (sign : Bool)
    (idKeypair : Bytes) (draw : Draw) (out : PqOutbound) : Prop where
  version : out.request.version = envelopeVersion
  kem : out.request.kem = (C.encapsulate recipient.kemPub draw.encapsulation).1 ++ C.xPublic draw.ephemeral
  body : aeadSeal C (derive C (sharedSecret C recipient.kemPub recipient.x25519Pub draw) reqInfo) plaintext draw.nonce =
    .ok (out.request.nonce, out.request.ciphertext)
  sender : signEnvelope C keys idKeypair out.request.kem out.request.nonce out.request.ciphertext sign =
    .ok (out.request.identity, out.request.signature)
  resKey : out.resKey = derive C (sharedSecret C recipient.kemPub recipient.x25519Pub draw) resInfo

theorem bind_eq_ok {ε α β : Type} {x : Except ε α} {f : α → Except ε β} {b : β} :
    (x >>= f) = .ok b ↔ ∃ a, x = .ok a ∧ f a = .ok b := by
  cases x with
  | error e => simp [bind, Except.bind]
  | ok a => simp [bind, Except.bind]

theorem sealed_of_sealRequest {C : Crypto} {keys : PqKeys} {recipient : PqIdentity} {plaintext : Bytes} {sign : Bool}
    {idKeypair : Bytes} {draw : Draw} {out : PqOutbound}
    (h : sealRequest C keys recipient plaintext sign idKeypair draw = .ok out) :
    Sealed C keys recipient plaintext sign idKeypair draw out := by
  unfold sealRequest at h
  obtain ⟨ek, hek, h⟩ := bind_eq_ok.1 h
  obtain ⟨xPub, hx, h⟩ := bind_eq_ok.1 h
  obtain ⟨⟨nonce, ciphertext⟩, hbody, h⟩ := bind_eq_ok.1 h
  obtain ⟨⟨identity, signature⟩, hsender, h⟩ := bind_eq_ok.1 h
  cases h
  unfold PqIdentity.kemEk at hek
  unfold PqIdentity.xPub at hx
  split at hek
  · cases hek
    split at hx
    · cases hx
      exact ⟨rfl, rfl, hbody, hsender, rfl⟩
    · cases hx
  · cases hek

section Roundtrip

variable {C : Crypto} (hC : Correct C)

include hC

theorem checkSender_sealed {kemSeed dsaSeed : Nat} {xSecret : Bytes} {recipient : PqIdentity} {plaintext : Bytes}
    {sign : Bool} {idKeypair : Bytes} {draw : Draw} {out : PqOutbound}
    (h : Sealed C (PqKeys.generate C kemSeed xSecret dsaSeed) recipient plaintext sign idKeypair draw out) :
    checkSender C (C.idPeerId idKeypair) out.request = .ok () := by
  have hsender := h.sender
  cases sign with
  | false =>
    obtain ⟨hid, hsig⟩ := Prod.mk.inj (Except.ok.inj hsender)
    simp only [checkSender, ← hid, ← hsig]
  | true =>
    obtain ⟨id, hidentity, heq⟩ := bind_eq_ok.1 hsender
    obtain ⟨hid, hsig⟩ := Prod.mk.inj (Except.ok.inj heq)
    obtain ⟨-, -, hsigPub⟩ := identity_keys hidentity
    have hvk : id.sigVk C = .ok (C.dsaKeygen dsaSeed).2 := by
      simp only [PqIdentity.sigVk, hsigPub, PqKeys.generate, hC.dsaKey, if_true]
    simp [checkSender, ← hid, ← hsig, identity_verify hC hidentity, hvk, bind, Except.bind, PqKeys.generate,
      hC.dsaSignature, hC.dsa]

theorem shared_agrees (kemSeed : Nat) (xSecret : Bytes) (draw : Draw) :
    combine C (C.decapsulate (C.kemKeygen kemSeed).1 (C.encapsulate (C.kemKeygen kemSeed).2 draw.encapsulation).1)
        (C.diffieHellman xSecret (C.xPublic draw.ephemeral)) =
      sharedSecret C (C.kemKeygen kemSeed).2 (C.xPublic xSecret) draw := by
  rw [sharedSecret, hC.kem, hC.x25519]

/-- **The recipient opens a sealed request exactly if its ciphertext is within the cap**, and then has the plaintext and
the requester's response key. -/
theorem openRequest_sealRequest {kemSeed dsaSeed : Nat} {xSecret : Bytes} {recipientKeypair : Bytes}
    {recipient : PqIdentity} (hid : (PqKeys.generate C kemSeed xSecret dsaSeed).identity C recipientKeypair = .ok recipient)
    {kemSeed' dsaSeed' : Nat} {xSecret' plaintext idKeypair : Bytes} {sign : Bool} {draw : Draw} {out : PqOutbound}
    (h : sealRequest C (PqKeys.generate C kemSeed' xSecret' dsaSeed') recipient plaintext sign idKeypair draw = .ok out) :
    openRequest C (PqKeys.generate C kemSeed xSecret dsaSeed) (C.idPeerId idKeypair) out.request =
      if plaintext.length + tagLen ≤ maxCiphertext then .ok ⟨plaintext, out.resKey⟩ else .error .invalidEnvelope := by
  have hs := sealed_of_sealRequest h
  obtain ⟨hkem, hx, -⟩ := identity_keys hid
  have hopen := aeadOpen_aeadSeal hC hs.body
  have hsender := checkSender_sealed hC hs
  have hsplit : out.request.kem.splitAt mlkemCtLen =
      ((C.encapsulate recipient.kemPub draw.encapsulation).1, C.xPublic draw.ephemeral) := by
    rw [hs.kem, List.splitAt_eq, List.take_left' (hC.kemLength _ _), List.drop_left' (hC.kemLength _ _)]
  have hshared : combine C (C.decapsulate (PqKeys.generate C kemSeed xSecret dsaSeed).kemDk
      (C.encapsulate recipient.kemPub draw.encapsulation).1) (C.diffieHellman xSecret (C.xPublic draw.ephemeral)) =
      sharedSecret C recipient.kemPub recipient.x25519Pub draw := by
    rw [hkem, hx]
    exact shared_agrees hC kemSeed xSecret draw
  have hkemLen : out.request.kem.length = mlkemCtLen + x25519Len := by
    rw [hs.kem, List.length_append, hC.kemLength, hC.xLength]
  obtain ⟨hnonce, hc⟩ := aeadSeal_eq_ok hs.body
  have hctLen : out.request.ciphertext.length = plaintext.length + tagLen := hC.aeadLength _ _ _ _ hc
  have hnonceLen : out.request.nonce.length = nonceLen := by rw [hnonce, draw.nonce.length]
  unfold openRequest
  by_cases hfits : plaintext.length + tagLen ≤ maxCiphertext
  · rw [if_pos hfits] at hopen ⊢
    rw [if_neg (by simpa [hs.version, hkemLen, hnonceLen, hctLen] using hfits)]
    simp only [hsender, hsplit, bind, Except.bind]
    rw [show (PqKeys.generate C kemSeed xSecret dsaSeed).xSecret = xSecret from rfl, hshared, hopen, hs.resKey]
  · rw [if_neg hfits, if_pos (by simp only [hctLen]; omega)]

/-- **The requester opens a sealed response exactly if its ciphertext is within the cap.** -/
theorem openResponse_sealResponse {inbound : PqInbound} {out : PqOutbound} (hkey : inbound.resKey = out.resKey)
    {plaintext : Bytes} {nonce : DrawnNonce} {response : PqResponse}
    (h : inbound.sealResponse C plaintext nonce = .ok response) :
    out.openResponse C response =
      if plaintext.length + tagLen ≤ maxCiphertext then .ok plaintext else .error .invalidEnvelope := by
  unfold PqInbound.sealResponse at h
  obtain ⟨⟨nonce', ciphertext⟩, hbody, heq⟩ := bind_eq_ok.1 h
  cases heq
  rw [hkey] at hbody
  exact aeadOpen_aeadSeal hC hbody

end Roundtrip

end Pq
end NexusNet
