import NexusNet.PqDelivery
/-!
# PqMessages — the signed messages are read in one way

`identity_message` and `signed_message` are concatenations without length prefixes, so bytes could move over the border
between two parts and leave the message, and with it the proof or the signature, as it was.  The lengths that the key
constructors and `open_request` demand rule this out: a message determines the parts of those who pass
(`messages_unambiguous`).
-/
namespace NexusNet
namespace Pq

def mlkemEkLen : Nat := 1184
def mldsaVkLen : Nat := 1952

/-- **The key constructors accept only their fixed lengths**, and a public X25519 key has its length. -/
structure KeyLengths (C : Crypto) : Prop where
  kem : ∀ key, C.kemKey key = true → key.length = mlkemEkLen
  x25519 : ∀ secret, (C.xPublic secret).length = x25519Len
  dsa : ∀ key, C.dsaKey key = true → key.length = mldsaVkLen

/-- The public keys are such that the constructors have made. -/
structure PqKeys.Constructed (C : Crypto) (keys : PqKeys) : Prop where
  kemEk : C.kemKey keys.kemEk = true
  sigVk : C.dsaKey keys.sigVk = true

theorem generate_constructed {C : Crypto} (hC : Correct C) (kemSeed dsaSeed : Nat) (xSecret : Bytes) :
    (PqKeys.generate C kemSeed xSecret dsaSeed).Constructed C :=
  ⟨hC.kemKey kemSeed, hC.dsaKey dsaSeed⟩

def PqIdentity.message (id : PqIdentity) : Bytes := identityMessage id.kemPub id.x25519Pub id.sigPub

def PqRequest.message (request : PqRequest) : Bytes := signedMessage request.kem request.nonce request.ciphertext

/-- The lengths that `open_request` checks. -/
def PqRequest.LengthsChecked (request : PqRequest) : Prop :=
  request.kem.length = mlkemCtLen + x25519Len ∧ request.nonce.length = nonceLen ∧ request.ciphertext.length ≤ maxCiphertext

theorem openRequest_lengths {C : Crypto} {keys : PqKeys} {sender : Bytes} {request : PqRequest} {inbound : PqInbound}
    (h : openRequest C keys sender request = .ok inbound) : request.LengthsChecked := by
  unfold openRequest at h
  split at h
  · cases h
  · rename_i hchecked
    simp only [not_or, not_not, not_lt] at hchecked
    exact hchecked.2

section Parts

variable {C : Crypto} {id id' : PqIdentity}

theorem kemEk_length (hlengths : KeyLengths C) {key : Bytes} (h : id.kemEk C = .ok key) : id.kemPub.length = mlkemEkLen := by
  unfold PqIdentity.kemEk at h
  split at h
  · rename_i hkey
    exact hlengths.kem _ hkey
  · cases h

theorem xPub_length {key : Bytes} (h : id.xPub = .ok key) : id.x25519Pub.length = x25519Len := by
  unfold PqIdentity.xPub at h
  split at h
  · assumption
  · cases h

theorem sigVk_length (hlengths : KeyLengths C) {key : Bytes} (h : id.sigVk C = .ok key) :
    id.sigPub.length = mldsaVkLen := by
  unfold PqIdentity.sigVk at h
  split at h
  · rename_i hkey
    exact hlengths.dsa _ hkey
  · cases h

/-- The first two parts are told apart by their lengths, from the left. -/
theorem message_left (h : id.message = id'.message) (hkem : id.kemPub.length = id'.kemPub.length)
    (hx : id.x25519Pub.length = id'.x25519Pub.length) : id.kemPub = id'.kemPub ∧ id.x25519Pub = id'.x25519Pub := by
  simp only [PqIdentity.message, identityMessage, List.append_assoc] at h
  obtain ⟨hkemEq, hrest⟩ := List.append_inj (List.append_cancel_left h) hkem
  exact ⟨hkemEq, (List.append_inj hrest hx).1⟩

/-- The last part is told apart by its length, from the right. -/
theorem message_right (h : id.message = id'.message) (hsig : id.sigPub.length = id'.sigPub.length) :
    id.sigPub = id'.sigPub :=
  (List.append_inj' h hsig).2

theorem signedMessage_inj {request request' : PqRequest} (hchecked : request.LengthsChecked)
    (hchecked' : request'.LengthsChecked) (h : request.message = request'.message) :
    request.kem = request'.kem ∧ request.nonce = request'.nonce ∧ request.ciphertext = request'.ciphertext := by
  simp only [PqRequest.message, signedMessage, List.append_assoc] at h
  obtain ⟨hkem, hrest⟩ := List.append_inj (List.append_cancel_left h) (hchecked.1.trans hchecked'.1.symm)
  obtain ⟨hnonce, hciphertext⟩ := List.append_inj hrest (hchecked.2.1.trans hchecked'.2.1.symm)
  exact ⟨hkem, hnonce, hciphertext⟩

end Parts

/-- **Identities and signed envelopes are read in one way.**  An identity with the message of one that was built from keys
has its KEM and X25519 keys if these two can be used, and its signature key if that can be used; requests of checked
lengths with one signed message have the same parts, and whatever `open_request` opens has these lengths. -/
theorem messages_unambiguous (C : Crypto) (hlengths : KeyLengths C) :
    (∀ (keys : PqKeys) (idKeypair : Bytes) (built id : PqIdentity), keys.Constructed C →
      keys.identity C idKeypair = .ok built → id.message = built.message →
      (∀ ek x, id.kemEk C = .ok ek → id.xPub = .ok x → id.kemPub = built.kemPub ∧ id.x25519Pub = built.x25519Pub) ∧
      (∀ vk, id.sigVk C = .ok vk → id.sigPub = built.sigPub)) ∧
    (∀ request request' : PqRequest, request.LengthsChecked → request'.LengthsChecked →
      request.message = request'.message →
      request.kem = request'.kem ∧ request.nonce = request'.nonce ∧ request.ciphertext = request'.ciphertext) ∧
    ∀ keys sender request inbound, openRequest C keys sender request = .ok inbound → request.LengthsChecked := by
  refine ⟨fun keys idKeypair built id hkeys hbuilt hmessage => ?_, fun request request' => signedMessage_inj,
    fun keys sender request inbound => openRequest_lengths⟩
  obtain ⟨hkem, hx, hsig⟩ := identity_keys hbuilt
  refine ⟨fun ek x hek hxPub => message_left hmessage ?_ ?_, fun vk hvk => message_right hmessage ?_⟩
  · rw [kemEk_length hlengths hek, hkem, hlengths.kem _ hkeys.kemEk]
  · rw [xPub_length hxPub, hx, hlengths.x25519]
  · rw [sigVk_length hlengths hvk, hsig, hlengths.dsa _ hkeys.sigVk]

/-- An identity whose borders are moved by a byte has the message of the built one, and its keys cannot be used. -/
theorem moved_borders :
    let moved : PqIdentity := ⟨zeros 32, zeros 1185, zeros 31, zeros 1952, zeros 64⟩
    moved.message = plainIdentity.message ∧ moved.verify plainCrypto (zeros 32) = .ok () ∧
    moved.kemPub ≠ plainIdentity.kemPub ∧ ∀ ek x, ¬ (moved.kemEk plainCrypto = .ok ek ∧ moved.xPub = .ok x) := by
  have hlengths : KeyLengths plainCrypto := ⟨fun _ => beq_iff_eq.1, fun _ => length_zeros _, fun _ => beq_iff_eq.1⟩
  have hmessage : PqIdentity.message ⟨zeros 32, zeros 1185, zeros 31, zeros 1952, zeros 64⟩ = plainIdentity.message := by
    simp only [PqIdentity.message, identityMessage, plainIdentity, zeros, x25519Len, List.append_assoc,
      List.replicate_append_replicate]
  have hne : zeros 1185 ≠ plainIdentity.kemPub := fun h => by
    have := congrArg List.length h
    simp [plainIdentity] at this
  refine ⟨hmessage, by simp [PqIdentity.verify, plainCrypto], hne, fun ek x h => ?_⟩
  exact hne (((messages_unambiguous plainCrypto hlengths).1 plainKeys [] plainIdentity _
    (generate_constructed plainCrypto_correct 0 0 (zeros 32)) plain_identity hmessage).1 ek x h.1 h.2).1

end Pq
end NexusNet
