import Mathlib.Data.List.Forall2
import NexusNet.Framing
import NexusNet.Cbor
import NexusNet.PqEncoding
/-!
# Sidecar — the frames between the node and its backends

`sidecar_protocol.rs`: the messages, the frame `u32_be(len) || cbor(message)`, and `SidecarCodec`, which takes frames
off the buffer of a connection.  Writing and reading CBOR are parameters; `Message.cbor` is how the serializer writes.
-/
namespace NexusNet
namespace Sidecar

open Pq (getRange toBeBytes fromBeBytes fromBeBytes_toBeBytes)
open Framing (Decoder Decoded)

/-! ## Messages -/

/-- `MAX_FRAME`. -/
def maxFrame : Nat := 16777216

abbrev Uuid := Vector UInt8 16

structure SidecarError where
  code : String
  message : String
deriving DecidableEq

inductive Message where
  | hello (version : UInt32)
  | request (id : Uuid) (service : String) (payload : Bytes)
  | reply (id : Uuid) (ok : Bool) (result : Option Bytes) (error : Option SidecarError)
  | listServices (id : Uuid)
  | discoverProviders (id : Uuid) (service : String)
  | queryPublicIp (id : Uuid)
  | whoami (id : Uuid)
  | reconnectBootstrap (id : Uuid)
  | reannounceServices (id : Uuid)
  | reloadConfig (id : Uuid)
  | refreshCache (id : Uuid)
  | relayStatus (id : Uuid)
  | pqStatus (id : Uuid)
  | authStatus (id : Uuid)
  | queryKey (id : Uuid) (key : String)
  | addKey (id : Uuid) (key : String) (value : Option Bytes) (providing : Bool)
  | removeKey (id : Uuid) (key : String) (providing record : Bool)
  | serviceRequest (id : Uuid) (service : String) (payload : Bytes)
  | serviceRequestTo (id : Uuid) (service peer : String) (payload : Bytes)
deriving DecidableEq

/-- `Message::id`; `hello` has none. -/
def Message.id : Message → Option Uuid
  | .hello _ => none
  | .request id _ _ | .reply id _ _ _ | .listServices id | .discoverProviders id _ | .queryPublicIp id | .whoami id
  | .reconnectBootstrap id | .reannounceServices id | .reloadConfig id | .refreshCache id | .relayStatus id
  | .pqStatus id | .authStatus id | .queryKey id _ | .addKey id _ _ _ | .removeKey id _ _ _ | .serviceRequest id _ _
  | .serviceRequestTo id _ _ _ => some id

/-! ## CBOR -/

def cborText (s : String) : Bytes := Cbor.text (strBytes s)

/-- A `Vec<u8>` is a sequence of numbers to the serializer. -/
def cborVec (v : Bytes) : Bytes := Cbor.array (v.map (fun b => Cbor.unsigned b.toNat))

def cborUuid (id : Uuid) : Bytes := Cbor.bytes id.toList

/-- A struct, its fields under their names. -/
def cborStruct (fields : List (String × Bytes)) : Bytes := Cbor.map (fields.map (fun (name, v) => (cborText name, v)))

/-- A variant of `Message`: the text field `t` and the variant's own. -/
def cborVariant (t : String) (fields : List (String × Bytes)) : Bytes := cborStruct (("t", cborText t) :: fields)

/-- `skip_serializing_if = "Option::is_none"`. -/
def cborField (name : String) (v : Option Bytes) : List (String × Bytes) := (v.map (fun b => (name, b))).toList

def SidecarError.cbor (e : SidecarError) : Bytes := cborStruct [("code", cborText e.code), ("message", cborText e.message)]

/-- What `ciborium::ser::into_writer` puts into an empty vector. -/
abbrev Writer := Message → Bytes

/-- The writer of `ciborium`. -/
def Message.cbor : Writer
  | .hello version => cborVariant "hello" [("version", Cbor.unsigned version.toNat)]
  | .request id service payload =>
    cborVariant "request" [("id", cborUuid id), ("service", cborText service), ("payload", cborVec payload)]
  | .reply id ok result error =>
    cborVariant "reply" ([("id", cborUuid id), ("ok", Cbor.bool ok)] ++ cborField "result" (result.map cborVec) ++
      cborField "error" (error.map SidecarError.cbor))
  | .listServices id => cborVariant "list_services" [("id", cborUuid id)]
  | .discoverProviders id service => cborVariant "discover_providers" [("id", cborUuid id), ("service", cborText service)]
  | .queryPublicIp id => cborVariant "query_public_ip" [("id", cborUuid id)]
  | .whoami id => cborVariant "whoami" [("id", cborUuid id)]
  | .reconnectBootstrap id => cborVariant "reconnect_bootstrap" [("id", cborUuid id)]
  | .reannounceServices id => cborVariant "reannounce_services" [("id", cborUuid id)]
  | .reloadConfig id => cborVariant "reload_config" [("id", cborUuid id)]
  | .refreshCache id => cborVariant "refresh_cache" [("id", cborUuid id)]
  | .relayStatus id => cborVariant "relay_status" [("id", cborUuid id)]
  | .pqStatus id => cborVariant "pq_status" [("id", cborUuid id)]
  | .authStatus id => cborVariant "auth_status" [("id", cborUuid id)]
  | .queryKey id key => cborVariant "query_key" [("id", cborUuid id), ("key", cborText key)]
  | .addKey id key value providing =>
    cborVariant "add_key" ([("id", cborUuid id), ("key", cborText key)] ++ cborField "value" (value.map cborVec) ++
      [("providing", Cbor.bool providing)])
  | .removeKey id key providing record =>
    cborVariant "remove_key" [("id", cborUuid id), ("key", cborText key), ("providing", Cbor.bool providing),
      ("record", Cbor.bool record)]
  | .serviceRequest id service payload =>
    cborVariant "service_request" [("id", cborUuid id), ("service", cborText service), ("payload", cborVec payload)]
  | .serviceRequestTo id service peer payload =>
    cborVariant "service_request_to" [("id", cborUuid id), ("service", cborText service), ("peer", cborText peer),
      ("payload", cborVec payload)]

/-! ## Frames -/

inductive FrameError where
  | io (e : String)
  | tooLarge (n : Nat)
  | encode (e : String)
  | decode (e : String)
deriving DecidableEq

def FrameError.text : FrameError → String
  | .io e       => "io error: " ++ e
  | .tooLarge n => "frame too large: " ++ toString n ++ " bytes"
  | .encode e   => "cbor encode error: " ++ e
  | .decode e   => "cbor decode error: " ++ e

/-- `encode_frame`; writing into a vector does not fail. -/
def encodeFrame (intoWriter : Writer) (msg : Message) : Except FrameError Bytes :=
  if (intoWriter msg).length > maxFrame then .error (.tooLarge (intoWriter msg).length)
  else .ok (toBeBytes (intoWriter msg).length ++ intoWriter msg)

/-- `ciborium::de::from_reader` on a body; an error is its text. -/
abbrev Reader := Bytes → Except String Message

def decodeFrame (fromReader : Reader) (body : Bytes) : Except FrameError Message :=
  if body.length > maxFrame then .error (.tooLarge body.length)
  else (fromReader body).mapError .decode

/-- The length field at the front of the buffer. -/
def frameLen (src : Bytes) : Option Nat := (getRange src 0 4).map fromBeBytes

/-- `SidecarCodec::decode`: its result, and the buffer after the call. -/
def codecDecode (fromReader : Reader) (src : Bytes) : Except FrameError (Option Message) × Bytes :=
  match frameLen src with
  | none => (.ok none, src)
  | some len =>
    if len > maxFrame then (.error (.tooLarge len), src)
    else if src.length < 4 + len then (.ok none, src)
    else ((decodeFrame fromReader ((src.drop 4).take len)).map some, (src.drop 4).drop len)

/-- `SidecarCodec::encode`: its result, and the buffer after the call. -/
def codecEncode (intoWriter : Writer) (msg : Message) (dst : Bytes) : Except FrameError Unit × Bytes :=
  match encodeFrame intoWriter msg with
  | .error e => (.error e, dst)
  | .ok frame => (.ok (), dst ++ frame)

/-! ## One call -/

/-- A call that returns such a result has taken a frame. -/
def takesFrame : Except FrameError (Option Message) → Bool
  | .ok (some _) | .error (.decode _) => true
  | _ => false

/-- What a call on a complete frame returns. -/
def frameResult (fromReader : Reader) (body : Bytes) : Except FrameError (Option Message) :=
  match fromReader body with
  | .ok msg => .ok (some msg)
  | .error e => .error (.decode e)

theorem takesFrame_frameResult (fromReader : Reader) (body : Bytes) :
    takesFrame (frameResult fromReader body) = true := by
  unfold frameResult
  cases fromReader body <;> rfl

section Calls

variable {fromReader : Reader} {src rest : Bytes} {result : Except FrameError (Option Message)}

theorem frameLen_eq_some {len : Nat} : frameLen src = some len ↔ 4 ≤ src.length ∧ fromBeBytes (src.take 4) = len := by
  unfold frameLen getRange
  by_cases h : 4 ≤ src.length
  · simp [h]
  · simp [h]

theorem frameLen_append {len : Nat} (h : frameLen src = some len) (more : Bytes) : frameLen (src ++ more) = some len := by
  obtain ⟨hlong, hlen⟩ := frameLen_eq_some.1 h
  refine frameLen_eq_some.2 ⟨by rw [List.length_append]; omega, ?_⟩
  rw [List.take_append_of_le_length hlong, hlen]

/-- **The four ways a call goes**: no length field yet, a length beyond the limit, an incomplete frame, a frame. -/
inductive Decodes (fromReader : Reader) (src : Bytes) : Except FrameError (Option Message) → Bytes → Prop where
  | noLength (short : frameLen src = none) : Decodes fromReader src (.ok none) src
  | tooLarge (len : Nat) (field : frameLen src = some len) (large : maxFrame < len) :
      Decodes fromReader src (.error (.tooLarge len)) src
  | incomplete (len : Nat) (field : frameLen src = some len) (fits : len ≤ maxFrame) (short : src.length < 4 + len) :
      Decodes fromReader src (.ok none) src
  | frame (len : Nat) (field : frameLen src = some len) (fits : len ≤ maxFrame) (complete : 4 + len ≤ src.length) :
      Decodes fromReader src (frameResult fromReader ((src.drop 4).take len)) (src.drop (4 + len))

theorem decodes (fromReader : Reader) (src : Bytes) :
    Decodes fromReader src (codecDecode fromReader src).1 (codecDecode fromReader src).2 := by
  unfold codecDecode
  cases hlen : frameLen src with
  | none => exact .noLength hlen
  | some len =>
    simp only
    split
    · rename_i hlarge
      exact .tooLarge len hlen hlarge
    · rename_i hfits
      split
      · rename_i hshort
        exact .incomplete len hlen (by omega) hshort
      · -- the body has the announced length, so the second size check of `decode_frame` passes
        have hbody : ¬((src.drop 4).take len).length > maxFrame := by
          have := List.length_take_le len (src.drop 4)
          omega
        have hframe : (decodeFrame fromReader ((src.drop 4).take len)).map some =
            frameResult fromReader ((src.drop 4).take len) := by
          rw [decodeFrame, if_neg hbody, frameResult]
          cases fromReader ((src.drop 4).take len) <;> rfl
        rw [hframe, List.drop_drop]
        exact .frame len hlen (by omega) (by omega)

theorem decodes_of_eq (h : codecDecode fromReader src = (result, rest)) : Decodes fromReader src result rest := by
  have hdecodes := decodes fromReader src
  rw [h] at hdecodes
  exact hdecodes

/-- A call on a buffer that starts with a complete frame. -/
theorem codecDecode_frame {len : Nat} (hlen : frameLen src = some len) (hfits : len ≤ maxFrame)
    (hlong : 4 + len ≤ src.length) :
    codecDecode fromReader src = (frameResult fromReader ((src.drop 4).take len), src.drop (4 + len)) := by
  obtain ⟨⟨result, rest⟩, hcall⟩ : ∃ call, codecDecode fromReader src = call := ⟨_, rfl⟩
  rw [hcall]
  cases decodes_of_eq hcall with
  | noLength hnone => cases hlen.symm.trans hnone
  | tooLarge _ hlen' | incomplete _ hlen' =>
    cases hlen.symm.trans hlen'
    omega
  | frame len' hlen' _ _ =>
    cases hlen.symm.trans hlen'
    rfl

/-- **What a call consumes**: the frame it has taken, or nothing. -/
theorem codecDecode_consumes (h : codecDecode fromReader src = (result, rest)) :
    (takesFrame result = true → ∃ len, frameLen src = some len ∧ 4 + len ≤ src.length ∧ rest = src.drop (4 + len)) ∧
      (takesFrame result = false → rest = src) := by
  cases decodes_of_eq h with
  | noLength | tooLarge | incomplete => exact ⟨fun ht => (by cases ht), fun _ => rfl⟩
  | frame len hlen hfits hlong =>
    refine ⟨fun _ => ⟨len, hlen, hlong, rfl⟩, fun ht => ?_⟩
    rw [takesFrame_frameResult] at ht
    cases ht

/-- **A verdict stands when more bytes follow.** -/
theorem codecDecode_append (h : codecDecode fromReader src = (result, rest)) (hdone : result ≠ .ok none) (more : Bytes) :
    codecDecode fromReader (src ++ more) = (result, rest ++ more) := by
  cases decodes_of_eq h with
  | noLength | incomplete => exact absurd rfl hdone
  | tooLarge len hlen hlarge =>
    rw [codecDecode, frameLen_append hlen]
    exact if_pos hlarge
  | frame len hlen hfits hlong =>
    have hlong' : 4 + len ≤ (src ++ more).length := by
      rw [List.length_append]
      omega
    rw [codecDecode_frame (frameLen_append hlen more) hfits hlong', List.drop_append_of_le_length hlong,
      List.drop_append_of_le_length (by omega), List.take_append_of_le_length (by rw [List.length_drop]; omega)]

/-- **A frame is read back**, whatever follows it. -/
theorem codecDecode_encodeFrame {intoWriter : Writer} {msg : Message} {frame : Bytes}
    (h : encodeFrame intoWriter msg = .ok frame) (hread : fromReader (intoWriter msg) = .ok msg) (more : Bytes) :
    codecDecode fromReader (frame ++ more) = (.ok (some msg), more) := by
  unfold encodeFrame at h
  split at h
  · cases h
  · rename_i hfits
    cases h
    have hmax : maxFrame = 16777216 := rfl
    have hfield : (toBeBytes (intoWriter msg).length).length = 4 := rfl
    have hlen : frameLen (toBeBytes (intoWriter msg).length ++ intoWriter msg ++ more) = some (intoWriter msg).length := by
      rw [List.append_assoc, frameLen_eq_some]
      refine ⟨by rw [List.length_append]; omega, ?_⟩
      rw [List.take_left' hfield, fromBeBytes_toBeBytes (by omega)]
    rw [codecDecode_frame hlen (by omega) (by simp only [List.length_append]; omega)]
    rw [List.append_assoc, List.drop_left' hfield, List.take_left, frameResult, hread, ← List.append_assoc,
      List.drop_left' (by rw [List.length_append, hfield])]

end Calls

/-! ## Streams -/

/-- **The codec as a decoder.** -/
def codec (fromReader : Reader) : Decoder UInt8 Message FrameError where
  decode := codecDecode fromReader
  empty := rfl
  waits h := (codecDecode_consumes h).2 rfl
  shrinks h := by
    obtain ⟨len, -, hlong, rfl⟩ := (codecDecode_consumes h).1 rfl
    rw [List.length_drop]
    omega
  stable h hdone more := codecDecode_append h hdone more

/-- A write buffer after one message after another; a message that is too large leaves it as it was. -/
def encodeAll (intoWriter : Writer) (messages : List Message) (dst : Bytes) : Bytes :=
  messages.foldl (fun dst msg => (codecEncode intoWriter msg dst).2) dst

theorem encodeAll_eq (intoWriter : Writer) (messages : List Message) (dst : Bytes) :
    encodeAll intoWriter messages dst =
      dst ++ (messages.filterMap (fun msg => (encodeFrame intoWriter msg).toOption)).flatten := by
  induction messages generalizing dst with
  | nil => simp [encodeAll]
  | cons msg messages ih =>
    have hstep : encodeAll intoWriter (msg :: messages) dst = encodeAll intoWriter messages (codecEncode intoWriter msg dst).2 := rfl
    rw [hstep, ih, codecEncode]
    cases hframe : encodeFrame intoWriter msg with
    | error | ok => simp [hframe, Except.toOption]

/-- **What one side writes the other reads**: every message that was encoded, in order and in whatever chunks it comes. -/
theorem feed_encodeAll {fromReader : Reader} {intoWriter : Writer} {messages : List Message}
    {chunks : List Bytes} (hread : ∀ msg ∈ messages, fromReader (intoWriter msg) = .ok msg)
    (hchunks : chunks.flatten = encodeAll intoWriter messages []) :
    (codec fromReader).feed chunks = ⟨messages.filter (fun msg => (encodeFrame intoWriter msg).isOk), none, []⟩ := by
  rw [Decoder.feed_eq_drain, hchunks, encodeAll_eq, List.nil_append]
  refine Decoder.drain_frames ?_
  clear hchunks
  induction messages with
  | nil => exact .nil
  | cons msg messages ih =>
    have hrest := ih (fun m hm => hread m (List.mem_cons_of_mem _ hm))
    cases hframe : encodeFrame intoWriter msg with
    | error e => simpa [hframe, Except.toOption, Except.isOk, Except.toBool] using hrest
    | ok frame =>
      have hmsg : ∀ more, codecDecode fromReader (frame ++ more) = (.ok (some msg), more) :=
        codecDecode_encodeFrame hframe (hread msg List.mem_cons_self)
      simpa [hframe, Except.toOption, Except.isOk, Except.toBool] using List.Forall₂.cons hmsg hrest

/-- **Sidecar framing does not depend on chunks and loses nothing.**  However a stream is cut into chunks, the same
messages come out, with the same error and the same rest; a call consumes a frame exactly when it returns its message or
a decode error, and nothing otherwise; and for every writer whose messages are read back, the frames of any messages, one
after another in any chunks, give back the messages with nothing left, and so does a buffer that `encode` has filled, without
those that were too large. -/
theorem sidecar_framing (fromReader : Reader) :
    (∀ chunks chunks' : List Bytes, chunks.flatten = chunks'.flatten →
      (codec fromReader).feed chunks = (codec fromReader).feed chunks') ∧
    (∀ src result rest, codecDecode fromReader src = (result, rest) →
      (takesFrame result = true → ∃ len, frameLen src = some len ∧ 4 + len ≤ src.length ∧ rest = src.drop (4 + len)) ∧
      (takesFrame result = false → rest = src)) ∧
    ∀ (intoWriter : Writer) messages chunks, (∀ msg ∈ messages, fromReader (intoWriter msg) = .ok msg) →
      (∀ frames, List.Forall₂ (fun msg frame => encodeFrame intoWriter msg = .ok frame) messages frames →
        chunks.flatten = frames.flatten → (codec fromReader).feed chunks = ⟨messages, none, []⟩) ∧
      (chunks.flatten = encodeAll intoWriter messages [] →
        (codec fromReader).feed chunks = ⟨messages.filter (fun msg => (encodeFrame intoWriter msg).isOk), none, []⟩) := by
  refine ⟨fun chunks chunks' h => ?_, fun src result rest h => codecDecode_consumes h,
    fun intoWriter messages chunks hread => ⟨fun frames hframes h => ?_, feed_encodeAll hread⟩⟩
  · rw [Decoder.feed_eq_drain, Decoder.feed_eq_drain, h]
  · rw [Decoder.feed_eq_drain, h]
    refine Decoder.drain_frames ?_
    have hboth := (List.forall₂_and_left messages frames).2 ⟨hread, hframes⟩
    exact hboth.imp (fun msg frame hmsg more => codecDecode_encodeFrame hmsg.2 hmsg.1 more)

/-- A reader of `whoami` messages. -/
def whoamiReader : Reader := fun body =>
  if h : (body.drop 14).length = 16 then
    if body.take 14 = (Message.whoami (Vector.replicate 16 0)).cbor.take 14 then
      .ok (.whoami ⟨(body.drop 14).toArray, by rw [List.size_toArray, h]⟩)
    else .error "unknown variant"
  else .error "invalid length"

def someId : Uuid := ⟨#[1, 2, 3, 4, 5, 6, 7, 8, 9, 10, 11, 12, 13, 14, 15, 16], rfl⟩

/-- A `whoami` frame whose length field is cut in two, and the frame of a second one. -/
theorem whoami_twice : ∃ frame, encodeFrame Message.cbor (.whoami someId) = .ok frame ∧
    (codec whoamiReader).feed [frame.take 3, frame.drop 3 ++ frame.take 20, frame.drop 20] =
      ⟨[.whoami someId, .whoami someId], none, []⟩ := by
  refine ⟨toBeBytes 30 ++ (Message.whoami someId).cbor, by decide +kernel, ?_⟩
  refine ((sidecar_framing whoamiReader).2.2 Message.cbor [.whoami someId, .whoami someId] _ ?_).1
    [toBeBytes 30 ++ (Message.whoami someId).cbor, toBeBytes 30 ++ (Message.whoami someId).cbor] ?_ ?_
  · intro msg hmsg
    have hmsg : msg = .whoami someId := by simpa using hmsg
    rw [hmsg]
    decide +kernel
  · have hframe : encodeFrame Message.cbor (.whoami someId) = .ok (toBeBytes 30 ++ (Message.whoami someId).cbor) := by
      decide +kernel
    exact .cons hframe (.cons hframe .nil)
  · decide +kernel

end Sidecar
end NexusNet
