import NexusNet.Config
/-!
# AuthRecords — signed index and whitelist records

The record layer of `auth.rs` and `cose.rs`: the checks on the bytes fetched for an index or a whitelist, and the version
history that guards against rollback.  Ed25519, the COSE envelope, the CBOR documents, SHA-256 and base64 are given
functions (`Primitives`); a public key is its bytes.
-/
namespace NexusNet
namespace Auth

/-- `ServiceEntry`: a service of the index, with the digest of its whitelist record. -/
structure ServiceEntry where
  name : String
  hash : Bytes
  length : UInt64
deriving DecidableEq

structure IndexDoc where
  version : UInt64
  expiresAt : UInt64
  services : List ServiceEntry
deriving DecidableEq

structure WhitelistDoc where
  version : UInt64
  members : List String
deriving DecidableEq

/-- A decoded COSE_Sign1 envelope; `alg` is the protected algorithm label. -/
structure CoseSign1 where
  alg : Option Int
  header : Bytes
  payload : Option Bytes
  signature : Bytes
deriving DecidableEq

/-- The given functions: `tbs` is the data a COSE signature is made over, with the external data bound to it. -/
structure Primitives where
  sha256 : Bytes → Bytes
  encodeUrl : Bytes → String
  decodeBase64 : String → Option Bytes
  isPublicKey : Bytes → Bool
  verify : Bytes → Bytes → Bytes → Bool
  decodeCose : Bytes → Option CoseSign1
  tbs : CoseSign1 → Bytes → Bytes
  decodeIndex : Bytes → Option IndexDoc
  decodeWhitelist : Bytes → Option WhitelistDoc
  peerString : Bytes → String

inductive CoseError where
  | cose
  | malformed
  | invalidSignature
  | tooLarge
deriving DecidableEq

inductive AuthError where
  | cose
  | malformed
  | invalidAuthority
  | invalidSignature
  | expired
  | rollback
  | hashMismatch
  | notInIndex
  | tooLarge
  | invalidName
deriving DecidableEq

def AuthError.text : AuthError → String
  | .cose             => "cose envelope error"
  | .malformed        => "malformed auth document"
  | .invalidAuthority => "invalid authority public key"
  | .invalidSignature => "signature verification failed"
  | .expired          => "auth document expired"
  | .rollback         => "auth document version rollback"
  | .hashMismatch     => "whitelist hash/length mismatch"
  | .notInIndex       => "service not listed in auth index"
  | .tooLarge         => "auth document too large"
  | .invalidName      => "invalid network or service name"

def mapCoseError : CoseError → AuthError
  | .cose             => .cose
  | .malformed        => .malformed
  | .invalidSignature => .invalidSignature
  | .tooLarge         => .tooLarge

def maxDocBytes : Nat := dhtMaxRecordBytes
def maxMembers : Nat := 100000
def maxServices : Nat := 10000

def eddsa : Int := -8

/-! ## Networks -/

/-- An authentication network: the hash in its DHT keys and its authority's public key. -/
structure AuthNetwork where
  netHash : String
  authority : Bytes
deriving DecidableEq

def parseAuthority (P : Primitives) (b64 : String) : Except AuthError Bytes :=
  match P.decodeBase64 b64 with
  | none => .error .invalidAuthority
  | some bytes => if P.isPublicKey bytes then .ok bytes else .error .invalidAuthority

def AuthNetwork.new (P : Primitives) (name authorityB64 : String) : Except AuthError AuthNetwork :=
  if !isValidNetworkName name then .error .invalidName
  else match parseAuthority P authorityB64 with
  | .error e => .error e
  | .ok authority => .ok ⟨P.encodeUrl (P.sha256 (strBytes name)), authority⟩

def AuthNetwork.indexKey (net : AuthNetwork) : String :=
  authPrefix ++ "/" ++ net.netHash ++ "/" ++ reservedService

def AuthNetwork.serviceKey (net : AuthNetwork) (service : String) : Except AuthError String :=
  if !isValidServiceName service then .error .invalidName
  else .ok (authPrefix ++ "/" ++ net.netHash ++ "/" ++ service)

/-! ## Records -/

def verifyEd25519 (P : Primitives) (authority aad value : Bytes) (maxLen : Nat) : Except CoseError Bytes :=
  if value.length > maxLen then .error .tooLarge
  else match P.decodeCose value with
  | none => .error .cose
  | some sign1 =>
    if sign1.alg ≠ some eddsa then .error .invalidSignature
    else if !P.verify authority (P.tbs sign1 aad) sign1.signature then .error .invalidSignature
    else match sign1.payload with
    | none => .error .malformed
    | some payload => .ok payload

def verifyPayload (P : Primitives) (authority aad value : Bytes) : Except AuthError Bytes :=
  (verifyEd25519 P authority aad value maxDocBytes).mapError mapCoseError

/-- The loop of `verify_index` over the listed services. -/
def checkEntries : List ServiceEntry → Except AuthError Unit
  | [] => .ok ()
  | entry :: rest =>
    if !isValidServiceName entry.name then .error .invalidName
    else if entry.hash.length ≠ 32 then .error .malformed
    else checkEntries rest

/-- `verify_index`: the signature, the structure, the service names and the expiry. -/
def verifyIndex (P : Primitives) (net : AuthNetwork) (value : Bytes) (now : UInt64) : Except AuthError IndexDoc :=
  match verifyPayload P net.authority (strBytes net.indexKey) value with
  | .error e => .error e
  | .ok payload =>
    match P.decodeIndex payload with
    | none => .error .malformed
    | some doc =>
      if doc.services.length > maxServices then .error .tooLarge
      else match checkEntries doc.services with
      | .error e => .error e
      | .ok () => if now > doc.expiresAt then .error .expired else .ok doc

/-- `verify_whitelist`: the digest binding first, then the signature and the structure. -/
def verifyWhitelist (P : Primitives) (net : AuthNetwork) (service : String) (value : Bytes) (entry : ServiceEntry) :
    Except AuthError WhitelistDoc :=
  if UInt64.ofNat value.length ≠ entry.length ∨ P.sha256 value ≠ entry.hash then .error .hashMismatch
  else match net.serviceKey service with
  | .error e => .error e
  | .ok key =>
    match verifyPayload P net.authority (strBytes key) value with
    | .error e => .error e
    | .ok payload =>
      match P.decodeWhitelist payload with
      | none => .error .malformed
      | some doc => if doc.members.length > maxMembers then .error .tooLarge else .ok doc

theorem verifyPayload_length {P : Primitives} {authority aad value payload : Bytes}
    (h : verifyPayload P authority aad value = .ok payload) : value.length ≤ maxDocBytes := by
  unfold verifyPayload verifyEd25519 at h
  split at h
  · cases h
  · omega

/-- **A verified whitelist has the digest and the length that the index lists.** -/
theorem verifyWhitelist_binding {P : Primitives} {net : AuthNetwork} {service : String} {value : Bytes}
    {entry : ServiceEntry} {doc : WhitelistDoc} (h : verifyWhitelist P net service value entry = .ok doc) :
    entry.hash = P.sha256 value ∧ entry.length.toNat = value.length := by
  unfold verifyWhitelist at h
  split at h
  · cases h
  rename_i hbind
  rw [not_or, not_not, not_not] at hbind
  obtain ⟨hlen, hhash⟩ := hbind
  split at h
  · cases h
  split at h
  · cases h
  rename_i hpayload
  have hmax := verifyPayload_length hpayload
  refine ⟨hhash.symm, ?_⟩
  rw [← hlen, UInt64.toNat_ofNat']
  unfold maxDocBytes dhtMaxRecordBytes at hmax
  exact Nat.mod_eq_of_lt (by omega)

/-! ## Versions -/

/-- `AuthVersions`: the highest version seen of the index and of each whitelist. -/
structure AuthVersions where
  index : Option UInt64
  whitelists : Dict String UInt64

def AuthVersions.default : AuthVersions := ⟨none, ∅⟩

/-- `check_index`; a rejected version leaves the history as it is. -/
def AuthVersions.checkIndex (v : AuthVersions) (version : UInt64) : Except AuthError AuthVersions :=
  match v.index with
  | some cur => if version < cur then .error .rollback else .ok { v with index := some version }
  | none => .ok { v with index := some version }

def AuthVersions.checkWhitelist (v : AuthVersions) (service : String) (version : UInt64) :
    Except AuthError AuthVersions :=
  match v.whitelists.lookup service with
  | some cur =>
    if version < cur then .error .rollback else .ok { v with whitelists := v.whitelists.insert service version }
  | none => .ok { v with whitelists := v.whitelists.insert service version }

def AuthVersions.clear (_ : AuthVersions) : AuthVersions := AuthVersions.default

end Auth
end NexusNet
