import Mathlib.Data.Set.Function
import NexusNet.Network
import NexusNet.SliceReads
/-!
# PqEncoding — the plaintext inside a PQ envelope

`encode_request`, `decode_request`, `encode_response` and `decode_response` of `actor.rs`: a request is
`[u32 service_len][service][payload]`, a response `[u8 success][data]`.

The decoder accepts the encodings of the requests whose service name fits the length field and nothing else
(`decodeRequest_eq_some_iff`), and takes its parts from inside the bytes it is given.
-/
namespace NexusNet

namespace Pq

open SliceReads

/-! ## Bytes -/

/-- `bytes.get(start..stop)`. -/
def getRange (bytes : Bytes) (start stop : Nat) : Option Bytes :=
  if start ≤ stop ∧ stop ≤ bytes.length then some ((bytes.drop start).take (stop - start)) else none

/-- `checked_add` of a 64-bit `usize`. -/
def checkedAdd (a b : Nat) : Option Nat := if a + b < 18446744073709551616 then some (a + b) else none

/-- `(len as u32).to_be_bytes()`. -/
def toBeBytes (len : Nat) : Bytes :=
  [UInt8.ofNat (len / 16777216), UInt8.ofNat (len / 65536), UInt8.ofNat (len / 256), UInt8.ofNat len]

def fromBeBytes (bytes : Bytes) : Nat := bytes.foldl (fun n b => 256 * n + b.toNat) 0

def fromUtf8 (bytes : Bytes) : Option String := String.fromUTF8? ⟨bytes.toArray⟩

theorem getRange_append (a b c : Bytes) : getRange (a ++ b ++ c) a.length (a.length + b.length) = some b := by
  have hrange : a.length ≤ a.length + b.length ∧ a.length + b.length ≤ (a ++ b ++ c).length := by
    simp only [List.length_append]
    omega
  rw [getRange, if_pos hrange, List.append_assoc, List.drop_left, Nat.add_sub_cancel_left, List.take_left]

@[simp] theorem length_toBeBytes (len : Nat) : (toBeBytes len).length = 4 := rfl

/-- **Lengths below 2³² survive the length field.** -/
theorem fromBeBytes_toBeBytes {len : Nat} (h : len < 4294967296) : fromBeBytes (toBeBytes len) = len := by
  simp only [fromBeBytes, toBeBytes, List.foldl_cons, List.foldl_nil, UInt8.toNat_ofNat']
  omega

theorem fromUtf8_strBytes (s : String) : fromUtf8 (strBytes s) = some s := by
  have hbytes : (⟨(strBytes s).toArray⟩ : ByteArray) = s.toByteArray := by simp [strBytes]
  rw [fromUtf8, hbytes, String.fromUTF8?, dif_pos s.isValidUTF8]
  rfl

theorem getRange_eq_some {bytes part : Bytes} {start stop : Nat} : getRange bytes start stop = some part ↔
    (start ≤ stop ∧ stop ≤ bytes.length) ∧ part = (bytes.drop start).take (stop - start) := by
  rw [getRange]
  split
  · rename_i hrange
    rw [Option.some.injEq, eq_comm]
    exact ⟨fun h => ⟨hrange, h⟩, fun h => h.2⟩
  · rename_i hrange
    exact ⟨fun h => (nomatch h), fun h => absurd h.1 hrange⟩

theorem exists_four {bytes : Bytes} (h : bytes.length = 4) : ∃ a b c d, bytes = [a, b, c, d] := by
  match bytes, h with
  | [a, b, c, d], _ => exact ⟨a, b, c, d, rfl⟩

theorem fromBeBytes_four (a b c d : UInt8) :
    fromBeBytes [a, b, c, d] = a.toNat * 16777216 + b.toNat * 65536 + c.toNat * 256 + d.toNat := by
  simp only [fromBeBytes, List.foldl_cons, List.foldl_nil]
  omega

theorem fromBeBytes_lt {bytes : Bytes} (h : bytes.length = 4) : fromBeBytes bytes < 4294967296 := by
  obtain ⟨a, b, c, d, rfl⟩ := exists_four h
  have ha := a.toNat_lt
  have hb := b.toNat_lt
  have hc := c.toNat_lt
  have hd := d.toNat_lt
  rw [fromBeBytes_four]
  omega

/-- **Every length field is that of the length it holds.** -/
theorem toBeBytes_fromBeBytes {bytes : Bytes} (h : bytes.length = 4) : toBeBytes (fromBeBytes bytes) = bytes := by
  obtain ⟨a, b, c, d, rfl⟩ := exists_four h
  have hb := b.toNat_lt
  have hc := c.toNat_lt
  have hd := d.toNat_lt
  have hbyte : ∀ {n : Nat} {x : UInt8}, n % 256 = x.toNat → UInt8.ofNat n = x := fun hn =>
    UInt8.toNat_inj.1 (by rw [UInt8.toNat_ofNat']; exact hn)
  have ha := a.toNat_lt
  rw [fromBeBytes_four, toBeBytes, hbyte (x := a) (by omega), hbyte (x := b) (by omega), hbyte (x := c) (by omega),
    hbyte (x := d) (by omega)]

/-- **The bytes that are UTF-8 are those of strings.** -/
theorem fromUtf8_eq_some {bytes : Bytes} {s : String} : fromUtf8 bytes = some s ↔ strBytes s = bytes := by
  constructor
  · intro h
    rw [fromUtf8, String.fromUTF8?] at h
    split at h
    · cases h
      simp [strBytes, String.fromUTF8]
    · cases h
  · rintro rfl
    exact fromUtf8_strBytes s

/-! ## Requests and responses -/

def encodeRequest (req : Request) : Bytes :=
  toBeBytes (strBytes req.service).length ++ strBytes req.service ++ req.payload

def decodeRequest (bytes : Bytes) : Option Request := do
  let lenBytes ← getRange bytes 0 4
  let stop ← checkedAdd 4 (fromBeBytes lenBytes)
  let service ← fromUtf8 (← getRange bytes 4 stop)
  let payload ← getRange bytes stop bytes.length
  some ⟨service, payload⟩

def encodeResponse (resp : Response) : Bytes := resp.success.toUInt8 :: resp.data

def decodeResponse : Bytes → Option Response
  | [] => none
  | success :: data => some ⟨success != 0, data⟩

theorem length_encodeRequest (req : Request) :
    (encodeRequest req).length = 4 + (strBytes req.service).length + req.payload.length := by
  simp only [encodeRequest, List.length_append, length_toBeBytes]

theorem length_encodeResponse (resp : Response) : (encodeResponse resp).length = 1 + resp.data.length := by
  simp only [encodeResponse, List.length_cons]
  omega

/-- **A request survives its encoding**, if the length of its service name fits the length field. -/
theorem decode_encodeRequest {req : Request} (h : (strBytes req.service).length < 4294967296) :
    decodeRequest (encodeRequest req) = some req := by
  have hlen : getRange (encodeRequest req) 0 4 = some (toBeBytes (strBytes req.service).length) := by
    have := getRange_append [] (toBeBytes (strBytes req.service).length) (strBytes req.service ++ req.payload)
    simpa [encodeRequest] using this
  have hadd : checkedAdd 4 (strBytes req.service).length = some (4 + (strBytes req.service).length) :=
    if_pos (by omega)
  have hservice : getRange (encodeRequest req) 4 (4 + (strBytes req.service).length) = some (strBytes req.service) :=
    getRange_append (toBeBytes (strBytes req.service).length) (strBytes req.service) req.payload
  have hpayload : getRange (encodeRequest req) (4 + (strBytes req.service).length) (encodeRequest req).length =
      some req.payload := by
    have := getRange_append (toBeBytes (strBytes req.service).length ++ strBytes req.service) req.payload []
    simpa [encodeRequest, Nat.add_assoc] using this
  simp only [decodeRequest, hlen, fromBeBytes_toBeBytes h, hadd, hservice, hpayload, fromUtf8_strBytes,
    Option.bind_eq_bind, Option.bind_some]

/-- **A response survives its encoding.** -/
theorem decode_encodeResponse (resp : Response) : decodeResponse (encodeResponse resp) = some resp := by
  obtain ⟨success, data⟩ := resp
  cases success <;> rfl

/-! ## What the decoder accepts -/

/-- The length that the first four bytes give. -/
def serviceLen (bytes : Bytes) : Nat := fromBeBytes (bytes.take 4)

theorem serviceLen_lt {bytes : Bytes} (h : 4 ≤ bytes.length) : serviceLen bytes < 4294967296 :=
  fromBeBytes_lt (by rw [List.length_take]; omega)

/-- **The decoder makes two tests**: that the service name is there, and that it is UTF-8. -/
theorem decodeRequest_eq (bytes : Bytes) : decodeRequest bytes =
    if 4 + serviceLen bytes ≤ bytes.length then
      (fromUtf8 ((bytes.drop 4).take (serviceLen bytes))).map (fun service => ⟨service, bytes.drop (4 + serviceLen bytes)⟩)
    else none := by
  by_cases hheader : 4 ≤ bytes.length
  · have hlen : getRange bytes 0 4 = some (bytes.take 4) := if_pos ⟨Nat.zero_le 4, hheader⟩
    have hlt := serviceLen_lt hheader
    have hadd : checkedAdd 4 (fromBeBytes (bytes.take 4)) = some (4 + serviceLen bytes) := if_pos (by
      rw [serviceLen] at hlt
      omega)
    by_cases hname : 4 + serviceLen bytes ≤ bytes.length
    · have hservice : getRange bytes 4 (4 + serviceLen bytes) = some ((bytes.drop 4).take (serviceLen bytes)) := by
        rw [getRange, if_pos ⟨Nat.le_add_right 4 _, hname⟩, Nat.add_sub_cancel_left]
      have hpayload : getRange bytes (4 + serviceLen bytes) bytes.length = some (bytes.drop (4 + serviceLen bytes)) := by
        rw [getRange, if_pos ⟨hname, Nat.le_refl _⟩, ← List.length_drop, List.take_length]
      rw [if_pos hname]
      simp only [decodeRequest, hlen, hadd, hservice, hpayload, Option.bind_eq_bind, Option.bind_some]
      cases fromUtf8 ((bytes.drop 4).take (serviceLen bytes)) <;> rfl
    · have hservice : getRange bytes 4 (4 + serviceLen bytes) = none := if_neg (fun h => hname h.2)
      rw [if_neg hname]
      simp only [decodeRequest, hlen, hadd, hservice, Option.bind_eq_bind, Option.bind_some, Option.bind_none]
  · have hlen : getRange bytes 0 4 = none := if_neg (fun h => hheader h.2)
    rw [if_neg (by omega)]
    simp only [decodeRequest, hlen, Option.bind_eq_bind, Option.bind_none]

/-- Bytes around a service name of the length they give. -/
theorem encodeRequest_of_parts {bytes : Bytes} {service : String} (hlen : 4 + serviceLen bytes ≤ bytes.length)
    (hservice : strBytes service = (bytes.drop 4).take (serviceLen bytes)) :
    encodeRequest ⟨service, bytes.drop (4 + serviceLen bytes)⟩ = bytes := by
  have hlength : (strBytes service).length = serviceLen bytes := by
    rw [hservice, List.length_take, List.length_drop]
    omega
  have hheader : toBeBytes (serviceLen bytes) = bytes.take 4 :=
    toBeBytes_fromBeBytes (by rw [List.length_take]; omega)
  calc encodeRequest ⟨service, bytes.drop (4 + serviceLen bytes)⟩
      = bytes.take 4 ++ (bytes.drop 4).take (serviceLen bytes) ++ (bytes.drop 4).drop (serviceLen bytes) := by
        rw [encodeRequest, hlength, hheader, hservice, List.drop_drop]
    _ = bytes.take 4 ++ bytes.drop 4 := by rw [List.append_assoc, List.take_append_drop]
    _ = bytes := List.take_append_drop 4 bytes

/-- **The decoder accepts the encodings and nothing else.** -/
theorem decodeRequest_eq_some_iff {bytes : Bytes} {req : Request} : decodeRequest bytes = some req ↔
    (strBytes req.service).length < 4294967296 ∧ encodeRequest req = bytes := by
  constructor
  · intro h
    rw [decodeRequest_eq] at h
    split at h
    · rename_i hlen
      obtain ⟨service, hservice, rfl⟩ := Option.map_eq_some_iff.1 h
      have hbytes := fromUtf8_eq_some.1 hservice
      refine ⟨?_, encodeRequest_of_parts hlen hbytes⟩
      have hlt : serviceLen bytes < 4294967296 := serviceLen_lt (by omega)
      rw [hbytes, List.length_take]
      omega
    · cases h
  · rintro ⟨hservice, rfl⟩
    exact decode_encodeRequest hservice

theorem decodeRequest_eq_none_iff {bytes : Bytes} : decodeRequest bytes = none ↔
    bytes.length < 4 + serviceLen bytes ∨ ∀ service, strBytes service ≠ (bytes.drop 4).take (serviceLen bytes) := by
  rw [decodeRequest_eq]
  split
  · rename_i hlen
    rw [Option.map_eq_none_iff, Option.eq_none_iff_forall_ne_some]
    simp only [ne_eq, fromUtf8_eq_some]
    exact ⟨Or.inr, fun h => h.resolve_left (Nat.not_lt.2 hlen)⟩
  · rename_i hlen
    exact iff_of_true rfl (.inl (Nat.not_le.1 hlen))

/-! ## What is read -/

/-- `u32::from_be_bytes(bytes.try_into().unwrap())`: the conversion takes four bytes only. -/
def fromFourBytes {σ ε : Type} (bytes : Bytes) : Reading UInt8 σ ε Nat :=
  if bytes.length = 4 then pure (fromBeBytes bytes) else .stop .panic

/-- `decode_request` with the ranges it takes. -/
def decodeRequestReading : Reading UInt8 Unit Unit Request := do
  let lenBytes ← .range 0 4 ()
  let len ← fromFourBytes lenBytes
  let stop ← .okOr (checkedAdd 4 len) ()
  let name ← .range 4 stop ()
  let service ← .okOr (fromUtf8 name) ()
  let payload ← .rangeFrom stop ()
  return ⟨service, payload⟩

theorem result_fromFourBytes {ε : Type} {lenBytes : Bytes} (h : lenBytes.length = 4) (bytes : Bytes) :
    (fromFourBytes lenBytes : Reading UInt8 Unit ε Nat).result bytes = some (fromBeBytes lenBytes) := by
  rw [fromFourBytes, if_pos h, Reading.result_pure]

@[simp] theorem wp_fromFourBytes {σ ε : Type} {Q : Nat → σ → Prop} {E : Stop ε → σ → Prop} {lenBytes buf : Bytes} {s : σ} :
    (fromFourBytes lenBytes).Wp Q E buf s ↔
      (lenBytes.length = 4 → Q (fromBeBytes lenBytes) s) ∧ (lenBytes.length ≠ 4 → E .panic s) := by
  rw [fromFourBytes, Reading.wp_ite, Reading.wp_pure, Reading.wp_stop]

/-- **The reading is the decoder.** -/
theorem result_decodeRequestReading (bytes : Bytes) : decodeRequestReading.result bytes = decodeRequest bytes := by
  have hrange : ∀ start stop, (Reading.range start stop () : Reading UInt8 Unit Unit Bytes).result bytes =
      getRange bytes start stop := fun start stop => Reading.result_range start stop () bytes
  simp only [decodeRequestReading, Reading.result_bind, Reading.result_okOr, Reading.result_rangeFrom, Reading.result_pure,
    hrange, decodeRequest, Option.bind_eq_bind]
  cases hlen : getRange bytes 0 4 with
  | none => rfl
  | some lenBytes =>
    obtain ⟨⟨-, hheader⟩, rfl⟩ := getRange_eq_some.1 hlen
    have hfour : ((bytes.drop 0).take (4 - 0)).length = 4 := by
      rw [List.length_take, List.drop_zero]
      omega
    simp only [Option.bind_some, result_fromFourBytes hfour]

/-- **The decoder reads inside the bytes only, and never panics**: it ends with a request or with `None`. -/
theorem decodeRequestReading_safe (bytes : Bytes) :
    decodeRequestReading.Wp (fun _ _ => True) (fun reason _ => reason = .error ()) bytes () := by
  simp only [decodeRequestReading, Reading.wp_bind, Reading.wp_range, Reading.wp_okOr, Reading.wp_rangeFrom,
    Reading.wp_pure, wp_fromFourBytes, implies_true, and_true, true_and, List.length_take, List.length_drop]
  -- What is left is the panic of a length field that has not four bytes.
  intro hheader hfour
  omega

/-- The requests whose service name fits the length field are one to one with the bytes that the decoder accepts. -/
theorem encodeRequest_bijOn : Set.BijOn encodeRequest {req | (strBytes req.service).length < 4294967296}
    {bytes | (decodeRequest bytes).isSome} := by
  refine ⟨fun req hreq => ?_, fun req hreq other hother hsame => ?_, fun bytes hbytes => ?_⟩
  · show (decodeRequest (encodeRequest req)).isSome
    rw [decode_encodeRequest hreq]
    rfl
  · exact Option.some.inj (by rw [← decode_encodeRequest hreq, hsame, decode_encodeRequest hother])
  · obtain ⟨req, hreq⟩ := Option.isSome_iff_exists.1 hbytes
    exact ⟨req, decodeRequest_eq_some_iff.1 hreq⟩

/-- **The encoding of requests is a bijection onto what the decoder accepts.**

What it refuses is a name that goes past the end or is not UTF-8; it reads inside the bytes only.  Responses survive their
encoding too. -/
theorem request_encoding_exact :
    Set.BijOn encodeRequest {req | (strBytes req.service).length < 4294967296} {bytes | (decodeRequest bytes).isSome} ∧
    (∀ req : Request, (strBytes req.service).length < 4294967296 → decodeRequest (encodeRequest req) = some req) ∧
    (∀ bytes req, decodeRequest bytes = some req → encodeRequest req = bytes) ∧
    (∀ bytes, decodeRequest bytes = none ↔
      bytes.length < 4 + serviceLen bytes ∨ ∀ service, strBytes service ≠ (bytes.drop 4).take (serviceLen bytes)) ∧
    (∀ bytes, decodeRequestReading.result bytes = decodeRequest bytes ∧
      (∀ span ∈ (decodeRequestReading bytes ()).spans, span.Within bytes) ∧
      (decodeRequestReading bytes ()).ended ≠ .error .panic) ∧
    (∀ resp, decodeResponse (encodeResponse resp) = some resp) := by
  refine ⟨encodeRequest_bijOn, fun _ => decode_encodeRequest, fun _ _ h => (decodeRequest_eq_some_iff.1 h).2,
    fun _ => decodeRequest_eq_none_iff, fun bytes => ?_, decode_encodeResponse⟩
  obtain ⟨hspans, hended⟩ := decodeRequestReading_safe bytes
  refine ⟨result_decodeRequestReading bytes, hspans, fun hpanic => ?_⟩
  rw [hpanic] at hended
  cases hended

end Pq
end NexusNet
