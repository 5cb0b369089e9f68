import NexusNet.AuthSound
/-!
# AuthSign — signing, and where a signed record is accepted

The signing side of `auth.rs` and `cose.rs`.  A record is signed with the key path it is stored under as the external data,
and the verifying side rebuilds the path from the network and the service it reads for.  The paths tell networks, roles
and services apart (`AuthNetwork.key_inj`), so a record is accepted only where it was signed for.
-/
namespace NexusNet
namespace Auth

/-! ## Key paths -/

/-- What a record is for: the index of the network or the whitelist of a service. -/
inductive Role where
  | index
  | whitelist (service : String)
deriving DecidableEq

/-- The key of the record of a role. -/
def AuthNetwork.key (net : AuthNetwork) : Role → Except AuthError String
  | .index => .ok net.indexKey
  | .whitelist service => net.serviceKey service

/-- The last segment of the key. -/
def Role.segment : Role → String
  | .index => reservedService
  | .whitelist service => service

theorem serviceKey_ok {net : AuthNetwork} {service key : String} (h : net.serviceKey service = .ok key) :
    isValidServiceName service = true ∧ key = authPrefix ++ "/" ++ net.netHash ++ "/" ++ service := by
  unfold AuthNetwork.serviceKey at h
  cases hvalid : isValidServiceName service with
  | false =>
    rw [hvalid] at h
    cases h
  | true =>
    rw [hvalid] at h
    cases h
    exact ⟨rfl, rfl⟩

theorem AuthNetwork.key_eq {net : AuthNetwork} {role : Role} {key : String} (h : net.key role = .ok key) :
    key = authPrefix ++ "/" ++ net.netHash ++ "/" ++ role.segment := by
  cases role with
  | index =>
    cases h
    rfl
  | whitelist service => exact (serviceKey_ok h).2

/-- Roles that have keys have different segments: a service is not called like the index. -/
theorem segment_inj {net net' : AuthNetwork} {role role' : Role} {key key' : String} (h : net.key role = .ok key)
    (h' : net'.key role' = .ok key') (heq : role.segment = role'.segment) : role = role' := by
  have hreserved : ∀ {net : AuthNetwork} {service key : String}, net.serviceKey service = .ok key →
      service ≠ reservedService := fun h => by
    have hvalid := (serviceKey_ok h).1
    rw [isValidServiceName, Bool.and_eq_true, bne_iff_ne] at hvalid
    exact hvalid.2
  cases role with
  | index =>
    cases role' with
    | index => rfl
    | whitelist service' => exact absurd heq.symm (hreserved h')
  | whitelist service =>
    cases role' with
    | index => exact absurd heq (hreserved h)
    | whitelist service' => exact congrArg Role.whitelist heq

/-- A list is split at the first separator in one way. -/
theorem split_at_separator {α : Type} {c : α} {h h' s s' : List α} (hh : c ∉ h) (hh' : c ∉ h')
    (heq : h ++ c :: s = h' ++ c :: s') : h = h' ∧ s = s' := by
  rcases List.append_eq_append_iff.1 heq with ⟨between, hleft, hright⟩ | ⟨between, hleft, hright⟩
  · cases between with
    | nil =>
      rw [List.nil_append, List.cons.injEq] at hright
      exact ⟨by rw [hleft, List.append_nil], hright.2⟩
    | cons b between =>
      rw [List.cons_append, List.cons.injEq] at hright
      exact absurd (by rw [hleft, hright.1]; simp) hh'
  · cases between with
    | nil =>
      rw [List.nil_append, List.cons.injEq] at hright
      exact ⟨by rw [hleft, List.append_nil], hright.2.symm⟩
    | cons b between =>
      rw [List.cons_append, List.cons.injEq] at hright
      exact absurd (by rw [hleft, hright.1]; simp) hh

/-- **A key belongs to one network hash and one role.** -/
theorem AuthNetwork.key_inj {net net' : AuthNetwork} (hnet : '/' ∉ net.netHash.toList) (hnet' : '/' ∉ net'.netHash.toList)
    {role role' : Role} {key : String} (h : net.key role = .ok key) (h' : net'.key role' = .ok key) :
    net.netHash = net'.netHash ∧ role = role' := by
  have heq := congrArg String.toList ((key_eq h).symm.trans (key_eq h'))
  simp only [String.toList_append, List.append_assoc, List.append_cancel_left_eq] at heq
  obtain ⟨hhash, hsegment⟩ := split_at_separator hnet hnet' heq
  exact ⟨String.toList_inj.1 hhash, segment_inj h h' (String.toList_inj.1 hsegment)⟩

/-! ## Signing -/

/-- What signing uses beside the `Primitives`: key pairs, the writers of the documents and of the COSE envelope, and the
bytes of the protected header.  What the envelope's writer wrote is read back. -/
structure Signing (P : Primitives) (K : Type) where
  sign : K → Bytes → Option Bytes
  encodeIndex : IndexDoc → Option Bytes
  encodeWhitelist : WhitelistDoc → Option Bytes
  eddsaHeader : Bytes
  encodeCose : CoseSign1 → Option Bytes
  decode_encode : ∀ sign1 value, encodeCose sign1 = some value → P.decodeCose value = some sign1

section Sign

variable {P : Primitives} {K : Type} (S : Signing P K)

def signEd25519 (keypair : K) (aad payload : Bytes) : Except CoseError Bytes :=
  let unsigned : CoseSign1 := ⟨some eddsa, S.eddsaHeader, some payload, []⟩
  match S.sign keypair (P.tbs unsigned aad) with
  | none => .error .cose
  | some signature =>
    match S.encodeCose { unsigned with signature := signature } with
    | none => .error .cose
    | some value => .ok value

def signPayload (keypair : K) (aad payload : Bytes) : Except AuthError Bytes :=
  (signEd25519 S keypair aad payload).mapError mapCoseError

def signIndex (keypair : K) (net : AuthNetwork) (doc : IndexDoc) : Except AuthError Bytes :=
  match S.encodeIndex doc with
  | none => .error .malformed
  | some payload => signPayload S keypair (strBytes net.indexKey) payload

def signWhitelist (keypair : K) (net : AuthNetwork) (service : String) (doc : WhitelistDoc) : Except AuthError Bytes :=
  match net.serviceKey service with
  | .error e => .error e
  | .ok key =>
    match S.encodeWhitelist doc with
    | none => .error .malformed
    | some payload => signPayload S keypair (strBytes key) payload

/-- The value was signed for the record of a role. -/
def SignedFor (keypair : K) (net : AuthNetwork) (role : Role) (value : Bytes) : Prop :=
  match role with
  | .index => ∃ doc, signIndex S keypair net doc = .ok value
  | .whitelist service => ∃ doc, signWhitelist S keypair net service doc = .ok value

/-- **A signature of the key pair verifies only for what it was made over**: the protected header, the external data and
the payload. -/
def Binds (keypair : K) (authority : Bytes) : Prop :=
  ∀ sign1 aad signature sign1' aad', S.sign keypair (P.tbs sign1 aad) = some signature →
    P.verify authority (P.tbs sign1' aad') signature = true →
    sign1'.header = sign1.header ∧ aad' = aad ∧ sign1'.payload.getD [] = sign1.payload.getD []

variable {S} {keypair : K} {net net' : AuthNetwork} {role : Role} {value : Bytes}

/-- What a signed value is: the envelope of a signature over the external data. -/
theorem signPayload_ok {aad payload : Bytes} (h : signPayload S keypair aad payload = .ok value) :
    ∃ unsigned signature, S.sign keypair (P.tbs unsigned aad) = some signature ∧
      P.decodeCose value = some { unsigned with signature := signature } := by
  unfold signPayload signEd25519 at h
  simp only at h
  cases hsign : S.sign keypair (P.tbs ⟨some eddsa, S.eddsaHeader, some payload, []⟩ aad) with
  | none =>
    rw [hsign] at h
    cases h
  | some signature =>
    rw [hsign] at h
    simp only at h
    cases hcose : S.encodeCose ⟨some eddsa, S.eddsaHeader, some payload, signature⟩ with
    | none =>
      rw [hcose] at h
      cases h
    | some value' =>
      rw [hcose] at h
      cases h
      exact ⟨⟨some eddsa, S.eddsaHeader, some payload, []⟩, signature, hsign, S.decode_encode _ _ hcose⟩

theorem SignedFor.signed (h : SignedFor S keypair net role value) :
    ∃ key payload, net.key role = .ok key ∧ signPayload S keypair (strBytes key) payload = .ok value := by
  cases role with
  | index =>
    obtain ⟨doc, h⟩ := h
    unfold signIndex at h
    cases hdoc : S.encodeIndex doc with
    | none =>
      rw [hdoc] at h
      cases h
    | some payload =>
      rw [hdoc] at h
      exact ⟨_, payload, rfl, h⟩
  | whitelist service =>
    obtain ⟨doc, h⟩ := h
    unfold signWhitelist at h
    cases hkey : net.serviceKey service with
    | error e =>
      rw [hkey] at h
      cases h
    | ok key =>
      rw [hkey] at h
      cases hdoc : S.encodeWhitelist doc with
      | none =>
        rw [hdoc] at h
        cases h
      | some payload =>
        rw [hdoc] at h
        exact ⟨key, payload, hkey, h⟩

end Sign

/-! ## Verifying -/

/-- The value is accepted as the record of a role, at some time or for some entry of the index. -/
def AcceptedAs (P : Primitives) (net : AuthNetwork) (role : Role) (value : Bytes) : Prop :=
  match role with
  | .index => ∃ now doc, verifyIndex P net value now = .ok doc
  | .whitelist service => ∃ entry doc, verifyWhitelist P net service value entry = .ok doc

/-- An accepted payload's signature verifies for the external data. -/
theorem verifyPayload_ok {P : Primitives} {authority aad value payload : Bytes}
    (h : verifyPayload P authority aad value = .ok payload) :
    ∃ sign1, P.decodeCose value = some sign1 ∧ P.verify authority (P.tbs sign1 aad) sign1.signature = true := by
  unfold verifyPayload verifyEd25519 at h
  split at h
  · cases h
  cases hcose : P.decodeCose value with
  | none =>
    rw [hcose] at h
    cases h
  | some sign1 =>
    rw [hcose] at h
    simp only at h
    split at h
    · cases h
    cases hverify : P.verify authority (P.tbs sign1 aad) sign1.signature with
    | false =>
      rw [hverify] at h
      cases h
    | true => exact ⟨sign1, rfl, hverify⟩

theorem AcceptedAs.verified {P : Primitives} {net : AuthNetwork} {role : Role} {value : Bytes}
    (h : AcceptedAs P net role value) :
    ∃ key payload, net.key role = .ok key ∧ verifyPayload P net.authority (strBytes key) value = .ok payload := by
  cases role with
  | index =>
    obtain ⟨now, doc, h⟩ := h
    unfold verifyIndex at h
    cases hpayload : verifyPayload P net.authority (strBytes net.indexKey) value with
    | error e =>
      rw [hpayload] at h
      cases h
    | ok payload => exact ⟨_, payload, rfl, hpayload⟩
  | whitelist service =>
    obtain ⟨entry, doc, h⟩ := h
    unfold verifyWhitelist at h
    split at h
    · cases h
    cases hkey : net.serviceKey service with
    | error e =>
      rw [hkey] at h
      cases h
    | ok key =>
      rw [hkey] at h
      simp only at h
      cases hpayload : verifyPayload P net.authority (strBytes key) value with
      | error e =>
        rw [hpayload] at h
        cases h
      | ok payload => exact ⟨key, payload, hkey, hpayload⟩

/-- **Records stay where they were signed for.**  Keys are the same only for the same network hash and role; and where the
signatures bind, a signed value is accepted only as the record of the role and the network hash it was signed for. -/
theorem records_stay {P : Primitives} {K : Type} (S : Signing P K) (keypair : K) (net net' : AuthNetwork)
    (hnet : '/' ∉ net.netHash.toList) (hnet' : '/' ∉ net'.netHash.toList) :
    (∀ role role' key, net.key role = .ok key → net'.key role' = .ok key → net.netHash = net'.netHash ∧ role = role') ∧
    (Binds S keypair net'.authority → ∀ role role' value, SignedFor S keypair net role value →
      AcceptedAs P net' role' value → net.netHash = net'.netHash ∧ role = role') := by
  refine ⟨fun role role' key => AuthNetwork.key_inj hnet hnet', fun hbinds role role' value hsigned haccepted => ?_⟩
  obtain ⟨key, payload, hkey, hsigned⟩ := hsigned.signed
  obtain ⟨key', payload', hkey', haccepted⟩ := haccepted.verified
  obtain ⟨unsigned, signature, hsign, hcose⟩ := signPayload_ok hsigned
  obtain ⟨sign1, hcose', hverify⟩ := verifyPayload_ok haccepted
  cases hcose.symm.trans hcose'
  -- the signature was made over one path and verifies over the other
  have hpath : strBytes key' = strBytes key := (hbinds _ _ _ _ _ hsign hverify).2.1
  rw [strBytes_injective hpath] at hkey'
  exact AuthNetwork.key_inj hnet hnet' hkey hkey'

/-! The network of `AuthSound`, with signatures over its three parts. -/

/-- The bytes, marked one by one, and an end mark. -/
def marked (part : Bytes) : Bytes := part.flatMap (fun b => [1, b]) ++ [0]

theorem marked_inj : ∀ {a b r r' : Bytes}, marked a ++ r = marked b ++ r' → a = b ∧ r = r'
  | [], [], r, r', h => ⟨rfl, List.cons.inj h |>.2⟩
  | [], _ :: _, r, r', h => absurd (List.cons.inj h).1 (by decide)
  | _ :: _, [], r, r', h => absurd (List.cons.inj h).1 (by decide)
  | x :: a, y :: b, r, r', h => by
    obtain ⟨-, htail⟩ := List.cons.inj h
    obtain ⟨hxy, htail⟩ := List.cons.inj htail
    obtain ⟨hab, hrest⟩ := marked_inj (a := a) (b := b) htail
    exact ⟨by rw [hxy, hab], hrest⟩

def markedPrimitives : Primitives :=
  { labPrimitives with tbs := fun sign1 aad => marked sign1.header ++ marked aad ++ marked (sign1.payload.getD []) }

/-- A key pair is the bytes of the public key, and a signature the key followed by the data. -/
def labSigning : Signing markedPrimitives Bytes where
  sign keypair data := some (keypair ++ data)
  encodeIndex _ := some [1]
  encodeWhitelist _ := some [2]
  eddsaHeader := []
  encodeCose sign1 :=
    match sign1 with
    | ⟨some (-8), [], some [payload], signature⟩ => some (payload :: signature)
    | _ => none
  decode_encode := by
    intro sign1 value h
    split at h
    · cases h
      rfl
    · cases h

theorem labSigning_binds (key : Bytes) : Binds labSigning key key := by
  intro sign1 aad signature sign1' aad' hsign hverify
  cases hsign
  have hdata := List.append_cancel_left (beq_iff_eq.1 hverify)
  simp only [markedPrimitives, List.append_assoc] at hdata
  obtain ⟨hheader, hdata⟩ := marked_inj hdata
  obtain ⟨haad, hdata⟩ := marked_inj hdata
  rw [← List.append_nil (marked (sign1.payload.getD [])), ← List.append_nil (marked (sign1'.payload.getD []))] at hdata
  exact ⟨hheader.symm, haad.symm, (marked_inj hdata).1.symm⟩

/-- The signed index of `lab` is accepted as its index and not as that of another network with the same authority. -/
theorem lab_index_stays : ∃ value, signIndex labSigning (strBytes "key") labNetwork ⟨1, 100, []⟩ = .ok value ∧
    AcceptedAs markedPrimitives labNetwork .index value ∧
    ¬ AcceptedAs markedPrimitives ⟨"other", strBytes "key"⟩ .index value := by
  refine ⟨_, rfl, ⟨50, _, rfl⟩, fun haccepted => ?_⟩
  have hstays := (records_stay labSigning (strBytes "key") labNetwork ⟨"other", strBytes "key"⟩ (by decide +kernel)
    (by decide +kernel)).2 (labSigning_binds _) .index .index _ ⟨⟨1, 100, []⟩, rfl⟩ haccepted
  exact absurd hstays.1 (by decide)

end Auth
end NexusNet
