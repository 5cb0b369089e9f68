import NexusNet.Pq
/-!
# PqKeyFile — the file of the PQ keys

`push_field`, `Reader`, `PqKeys::to_bytes` and `PqKeys::from_bytes` of `pq.rs`: a version byte and five fields, each behind
its length as four bytes.

`Reader` goes by the position in its state.  Its reads are readings of the formats of a byte and of a field
(`u8_decodes`, `field_decodes`), and the reading of the whole file is put together from them as the file is
(`fromBytes_decodes`).
-/
namespace NexusNet
namespace Pq

open SliceReads

/-! ## Writing -/

def pushField (out field : Bytes) : Bytes := out ++ toBeBytes field.length ++ field

def PqKeys.toBytes (keys : PqKeys) : Bytes :=
  let out := [envelopeVersion]
  let out := pushField out keys.kemDk
  let out := pushField out keys.kemEk
  let out := pushField out keys.xSecret
  let out := pushField out keys.sigSk
  pushField out keys.sigVk

/-! ## Reading -/

/-- The readings of a `Reader`: the state is `pos`. -/
abbrev Reader : Type → Type := Reading UInt8 Nat PqError

/-- `a + b` of a 64-bit `usize`: past the range it panics in a build with overflow checks and wraps in one without. -/
def usizeAdd (overflowChecks : Bool) (a b : Nat) : Reader Nat :=
  if a + b < 18446744073709551616 then pure (a + b)
  else if overflowChecks then .stop .panic
  else pure ((a + b) % 18446744073709551616)

namespace Reader

variable (overflowChecks : Bool)

def u8 : Reader UInt8 := do
  let b ← .item (← .getState) .invalidKey
  .setState (← usizeAdd overflowChecks (← .getState) 1)
  return b

def field : Reader Bytes := do
  let stop ← usizeAdd overflowChecks (← .getState) 4
  let lenBytes ← .range (← .getState) stop .invalidKey
  let len ← fromFourBytes lenBytes
  .setState stop
  let field ← .range (← .getState) (← usizeAdd overflowChecks (← .getState) len) .invalidKey
  .setState (← usizeAdd overflowChecks (← .getState) len)
  return field

/-- The five fields of `from_bytes`. -/
def keyFields : Reader PqKeys := do
  let kemDk ← field overflowChecks
  let kemEk ← field overflowChecks
  let xSecret ← field overflowChecks
  let sigSk ← field overflowChecks
  let sigVk ← field overflowChecks
  return ⟨kemDk, kemEk, xSecret, sigSk, sigVk⟩

/-- The version byte and the fields. -/
def keyFile : Reader (UInt8 × PqKeys) := do
  let version ← u8 overflowChecks
  let keys ← keyFields overflowChecks
  return (version, keys)

end Reader

/-- Which bytes the constructors of the secret keys accept. -/
structure SecretKeys where
  kemDk : Bytes → Bool
  sigSk : Bytes → Bool

def PqKeys.fromBytes (C : Crypto) (S : SecretKeys) (overflowChecks : Bool) : Reader PqKeys := do
  let version ← Reader.u8 overflowChecks
  .require (version = envelopeVersion) .invalidKey
  let keys ← Reader.keyFields overflowChecks
  .require (S.kemDk keys.kemDk) .invalidKey
  .require (C.kemKey keys.kemEk) .invalidKey
  .require (keys.xSecret.length = x25519Len) .invalidKey
  .require (S.sigSk keys.sigSk) .invalidKey
  .require (C.dsaKey keys.sigVk) .invalidKey
  return keys

/-! ## The formats -/

/-- A slice is not longer than `isize::MAX`. -/
def IsSlice (bytes : Bytes) : Prop := bytes.length < 9223372036854775808

/-- A field behind its length. -/
def fieldFormat : Format UInt8 Bytes where
  encode field := toBeBytes field.length ++ field
  Ok field := field.length < 4294967296
  determined := by
    intro a b rest rest' ha hb h
    rw [List.append_assoc, List.append_assoc] at h
    obtain ⟨hlen, hrest⟩ := List.append_inj h rfl
    have hsame : a.length = b.length := by rw [← fromBeBytes_toBeBytes ha, hlen, fromBeBytes_toBeBytes hb]
    exact (List.append_inj hrest hsame).1

/-- The keys as the tuple of their fields. -/
def PqKeys.ofFields : Bytes × Bytes × Bytes × Bytes × Bytes ≃ PqKeys where
  toFun p := ⟨p.1, p.2.1, p.2.2.1, p.2.2.2.1, p.2.2.2.2⟩
  invFun keys := (keys.kemDk, keys.kemEk, keys.xSecret, keys.sigSk, keys.sigVk)
  left_inv _ := rfl
  right_inv _ := rfl

def fieldsFormat : Format UInt8 PqKeys :=
  (fieldFormat.seq (fieldFormat.seq (fieldFormat.seq (fieldFormat.seq fieldFormat)))).map PqKeys.ofFields

/-- The lengths fit their length fields. -/
def PqKeys.Short (keys : PqKeys) : Prop :=
  keys.kemDk.length < 4294967296 ∧ keys.kemEk.length < 4294967296 ∧ keys.xSecret.length < 4294967296 ∧
    keys.sigSk.length < 4294967296 ∧ keys.sigVk.length < 4294967296

theorem toBytes_eq (keys : PqKeys) :
    keys.toBytes = (Format.item.seq fieldsFormat).encode (envelopeVersion, keys) := by
  simp only [PqKeys.toBytes, pushField, List.append_assoc]
  rfl

theorem isSlice_toBytes {keys : PqKeys} (h : keys.Short) : IsSlice keys.toBytes := by
  obtain ⟨h1, h2, h3, h4, h5⟩ := h
  simp only [IsSlice, PqKeys.toBytes, pushField, List.length_append, length_toBeBytes, List.length_singleton]
  omega

/-! ## The reads -/

theorem wp_usizeAdd_of_lt {overflowChecks : Bool} {a b : Nat} {Q : Nat → Nat → Prop} {E : Stop PqError → Nat → Prop}
    {buf : Bytes} {pos : Nat} (h : a + b < 18446744073709551616) :
    (usizeAdd overflowChecks a b).Wp Q E buf pos ↔ Q (a + b) pos := by
  rw [usizeAdd, if_pos h, Reading.wp_pure]

/-- An addition, whatever the build does. -/
theorem wp_usizeAdd_of {overflowChecks : Bool} {a b : Nat} {Q : Nat → Nat → Prop} {E : Stop PqError → Nat → Prop}
    {buf : Bytes} {pos : Nat} (hpanic : E .panic pos) (hQ : Q ((a + b) % 18446744073709551616) pos) :
    (usizeAdd overflowChecks a b).Wp Q E buf pos := by
  rw [usizeAdd, Reading.wp_ite, Reading.wp_ite, Reading.wp_pure, Reading.wp_stop, Reading.wp_pure]
  refine ⟨fun hlt => ?_, fun _ => ⟨fun _ => hpanic, fun _ => hQ⟩⟩
  rw [Nat.mod_eq_of_lt hlt] at hQ
  exact hQ

theorem u8_decodes (overflowChecks : Bool) : Decodes IsSlice .invalidKey .item (Reader.u8 overflowChecks) where
  safe buf pos hpos := by
    simp only [Reader.u8, Reading.wp_bind, Reading.wp_getState, Reading.wp_item, Reading.wp_setState, Reading.wp_pure]
    refine ⟨fun b hget => wp_usizeAdd_of hpos ?_, fun _ => hpos⟩
    have hlt : pos < buf.length := (List.getElem?_eq_some_iff.1 hget).1
    exact (Nat.mod_le _ _).trans hlt
  exact read ahead hfits := by
    simp only [Reader.u8, Reading.wp_bind, Reading.wp_getState, Reading.wp_item, Reading.wp_setState, Reading.wp_pure]
    rw [List.getElem?_append_right (Nat.le_refl _), Nat.sub_self]
    have hlt : read.length + 1 < 18446744073709551616 := by
      rw [IsSlice, List.length_append] at hfits
      omega
    cases ahead with
    | nil =>
      refine ⟨fun b hget => absurd hget (Option.some_ne_none b).symm, fun _ => ⟨trivial, fun b rest _ hahead => ?_⟩⟩
      cases hahead
    | cons b rest =>
      refine ⟨fun b' hget => (wp_usizeAdd_of_lt hlt).2 ?_, fun hget => absurd hget (Option.some_ne_none b)⟩
      cases hget
      exact ⟨trivial, rest, rfl, by rw [List.length_append]; rfl⟩

/-- The bytes ahead that are a field begin with its length. -/
theorem eq_of_fieldFormat {lenBytes rest field rest' : Bytes} (hlen : lenBytes.length = 4) (hfield : fieldFormat.Ok field)
    (h : lenBytes ++ rest = fieldFormat.encode field ++ rest') : fromBeBytes lenBytes = field.length ∧ rest = field ++ rest' := by
  have hsame : lenBytes ++ rest = toBeBytes field.length ++ (field ++ rest') := h.trans (List.append_assoc _ _ _)
  obtain ⟨rfl, hrest⟩ := List.append_inj hsame hlen
  exact ⟨fromBeBytes_toBeBytes hfield, hrest⟩

theorem exists_append {bytes : Bytes} {n : Nat} (h : n ≤ bytes.length) : ∃ part rest, bytes = part ++ rest ∧ part.length = n :=
  ⟨bytes.take n, bytes.drop n, (List.take_append_drop n bytes).symm, by rw [List.length_take, Nat.min_eq_left h]⟩

theorem field_decodes (overflowChecks : Bool) : Decodes IsSlice .invalidKey fieldFormat (Reader.field overflowChecks) where
  safe buf pos hpos := by
    simp only [Reader.field, Reading.wp_bind, Reading.wp_getState, Reading.wp_range, Reading.wp_setState, Reading.wp_pure,
      wp_fromFourBytes]
    refine wp_usizeAdd_of hpos ⟨fun hheader => ⟨fun _ => ?_, fun _ => hpos⟩, fun _ => hpos⟩
    exact wp_usizeAdd_of hheader.2 ⟨fun hbody => wp_usizeAdd_of hheader.2 hbody.2, fun _ => hheader.2⟩
  exact read ahead hfits := by
    simp only [Reader.field, Reading.wp_bind, Reading.wp_getState, Reading.wp_setState, Reading.wp_pure, wp_fromFourBytes]
    rw [IsSlice, List.length_append] at hfits
    rw [wp_usizeAdd_of_lt (by omega)]
    by_cases hheader : ahead.length < 4
    · rw [Reading.wp_range_beyond (by rw [List.length_append]; omega)]
      refine ⟨rfl, fun field rest _ hahead => ?_⟩
      have hlength : 4 ≤ ahead.length := by
        rw [hahead, fieldFormat]
        simp only [List.length_append, length_toBeBytes]
        omega
      omega
    · obtain ⟨lenBytes, rest, rfl, hfour⟩ := exists_append (Nat.not_lt.1 hheader)
      have hlen := fromBeBytes_lt hfour
      rw [Reading.wp_range_part rfl rfl (by rw [hfour])]
      refine ⟨fun _ => ?_, fun hnot => absurd hfour hnot⟩
      rw [wp_usizeAdd_of_lt (by omega)]
      by_cases hbody : rest.length < fromBeBytes lenBytes
      · rw [Reading.wp_range_beyond (by simp only [List.length_append]; omega)]
        refine ⟨rfl, fun field rest' hfield hahead => ?_⟩
        obtain ⟨hsame, rfl⟩ := eq_of_fieldFormat hfour hfield hahead
        rw [List.length_append] at hbody
        omega
      · obtain ⟨field, rest', rfl, hfield⟩ := exists_append (Nat.not_lt.1 hbody)
        have hencode : fieldFormat.encode field = lenBytes ++ field := by
          rw [fieldFormat]
          simp only [hfield, toBeBytes_fromBeBytes hfour]
        rw [Reading.wp_range_part (List.append_assoc read lenBytes _).symm (by rw [List.length_append, hfour])
          (by rw [List.length_append, hfour, hfield]), wp_usizeAdd_of_lt (by omega), hencode]
        have hok : field.length < 4294967296 := hfield ▸ hlen
        refine ⟨hok, rest', (List.append_assoc _ _ _).symm, ?_⟩
        simp only [List.length_append]
        omega

theorem keyFields_decodes (overflowChecks : Bool) :
    Decodes IsSlice .invalidKey fieldsFormat (Reader.keyFields overflowChecks) := by
  have hfield := field_decodes overflowChecks
  have hfields := (hfield.seq (hfield.seq (hfield.seq (hfield.seq hfield)))).map PqKeys.ofFields
  simp only [Reading.bind_assoc, Reading.pure_bind] at hfields
  exact hfields

theorem keyFile_decodes (overflowChecks : Bool) :
    Decodes IsSlice .invalidKey (Format.item.seq fieldsFormat) (Reader.keyFile overflowChecks) :=
  (u8_decodes overflowChecks).seq (keyFields_decodes overflowChecks)

/-! ## The keys of a file -/

section FromBytes

variable (C : Crypto) (S : SecretKeys) (overflowChecks : Bool)

/-- The constructors accept the keys. -/
structure PqKeys.Accepted (keys : PqKeys) : Prop where
  kemDk : S.kemDk keys.kemDk
  kemEk : C.kemKey keys.kemEk
  xSecret : keys.xSecret.length = x25519Len
  sigSk : S.sigSk keys.sigSk
  sigVk : C.dsaKey keys.sigVk

def fileFormat : Format UInt8 PqKeys :=
  ((Format.item.literal envelopeVersion).seq
    (((((fieldsFormat.only (S.kemDk ·.kemDk)).only (C.kemKey ·.kemEk)).only (·.xSecret.length = x25519Len)).only
      (S.sigSk ·.sigSk)).only (C.dsaKey ·.sigVk))).map (Equiv.punitProd PqKeys)

theorem fromBytes_decodes : Decodes IsSlice .invalidKey (fileFormat C S) (PqKeys.fromBytes C S overflowChecks) := by
  have hfile := (((u8_decodes overflowChecks).literal envelopeVersion).seq
    ((((((keyFields_decodes overflowChecks).only (S.kemDk ·.kemDk)).only (C.kemKey ·.kemEk)).only
      (·.xSecret.length = x25519Len)).only (S.sigSk ·.sigSk)).only (C.dsaKey ·.sigVk))).map (Equiv.punitProd PqKeys)
  simp only [Reading.bind_assoc, Reading.pure_bind] at hfile
  exact hfile

theorem fileFormat_encode (keys : PqKeys) : (fileFormat C S).encode keys = keys.toBytes := (toBytes_eq keys).symm

theorem fileFormat_ok {keys : PqKeys} : (fileFormat C S).Ok keys ↔ keys.Short ∧ keys.Accepted C S := by
  constructor
  · rintro ⟨-, ⟨⟨⟨⟨hshort, hkemDk⟩, hkemEk⟩, hxSecret⟩, hsigSk⟩, hsigVk⟩
    exact ⟨hshort, hkemDk, hkemEk, hxSecret, hsigSk, hsigVk⟩
  · rintro ⟨hshort, hkemDk, hkemEk, hxSecret, hsigSk, hsigVk⟩
    exact ⟨trivial, ⟨⟨⟨⟨hshort, hkemDk⟩, hkemEk⟩, hxSecret⟩, hsigSk⟩, hsigVk⟩

variable {C S overflowChecks}

/-- **`from_bytes` accepts the files that begin with accepted keys**: what stands behind them is not looked at. -/
theorem fromBytes_eq_ok_iff {bytes : Bytes} (hbytes : IsSlice bytes) {keys : PqKeys} :
    (PqKeys.fromBytes C S overflowChecks bytes 0).ended = .ok keys ↔
      (keys.Short ∧ keys.Accepted C S) ∧ ∃ rest, bytes = keys.toBytes ++ rest := by
  rw [(fromBytes_decodes C S overflowChecks).run_eq_ok_iff hbytes, fileFormat_ok, fileFormat_encode]

/-- **Written keys are read back.** -/
theorem fromBytes_toBytes {keys : PqKeys} (hshort : keys.Short) (haccepted : keys.Accepted C S) :
    (PqKeys.fromBytes C S overflowChecks keys.toBytes 0).ended = .ok keys :=
  (fromBytes_eq_ok_iff (isSlice_toBytes hshort)).2 ⟨⟨hshort, haccepted⟩, [], (List.append_nil _).symm⟩

end FromBytes

/-- The given key generation makes secret keys that their constructors accept, and keys that fit their length fields. -/
structure SecretKeys.Correct (C : Crypto) (S : SecretKeys) : Prop where
  kemDk : ∀ seed, S.kemDk (C.kemKeygen seed).1
  sigSk : ∀ seed, S.sigSk (C.dsaKeygen seed).1
  kemShort : ∀ seed, (C.kemKeygen seed).1.length < 4294967296 ∧ (C.kemKeygen seed).2.length < 4294967296
  dsaShort : ∀ seed, (C.dsaKeygen seed).1.length < 4294967296 ∧ (C.dsaKeygen seed).2.length < 4294967296

/-- **Generated keys survive the file.** -/
theorem fromBytes_generate {C : Crypto} {S : SecretKeys} (hC : Correct C) (hS : S.Correct C) (overflowChecks : Bool)
    (kemSeed dsaSeed : Nat) {xSecret : Bytes} (hx : xSecret.length = x25519Len) :
    (PqKeys.fromBytes C S overflowChecks (PqKeys.generate C kemSeed xSecret dsaSeed).toBytes 0).ended =
      .ok (.generate C kemSeed xSecret dsaSeed) := by
  have hxShort : xSecret.length < 4294967296 := by
    rw [hx]
    decide
  refine fromBytes_toBytes ?_ ⟨hS.kemDk kemSeed, hC.kemKey kemSeed, hx, hS.sigSk dsaSeed, hC.dsaKey dsaSeed⟩
  exact ⟨(hS.kemShort kemSeed).1, (hS.kemShort kemSeed).2, hxShort, (hS.dsaShort dsaSeed).1, (hS.dsaShort dsaSeed).2⟩

/-! ## Calls in any order -/

inductive Call where
  | u8
  | field
deriving DecidableEq

namespace Reader

variable (overflowChecks : Bool)

def call : Call → Reader Unit
  | .u8 => do
    let _ ← u8 overflowChecks
    return ()
  | .field => do
    let _ ← field overflowChecks
    return ()

/-- The calls one after another, also behind one that failed. -/
def calls (buf : Bytes) : Nat → List Call → List (Run Nat PqError Unit)
  | _, [] => []
  | pos, c :: cs => call overflowChecks c buf pos :: calls buf (call overflowChecks c buf pos).state cs

end Reader

/-- What holds of every call: it reads inside the bytes, leaves the position inside, and ends with a result or with
`InvalidKey`. -/
def Inside (buf : Bytes) (run : Run Nat PqError Unit) : Prop :=
  (∀ span ∈ run.spans, span.Within buf) ∧ run.state ≤ buf.length ∧
    (IsSlice buf → run.ended = .ok () ∨ run.ended = .error (.error .invalidKey))

theorem call_inside {overflowChecks : Bool} (c : Call) {buf : Bytes} {pos : Nat} (hpos : pos ≤ buf.length) :
    Inside buf (Reader.call overflowChecks c buf pos) := by
  have hwp : (Reader.call overflowChecks c).Wp (fun _ t => t ≤ buf.length)
      (fun reason t => t ≤ buf.length ∧ (IsSlice buf → reason = .error .invalidKey)) buf pos := by
    cases c with
    | u8 =>
      simp only [Reader.call, Reading.wp_bind, Reading.wp_pure]
      exact (u8_decodes overflowChecks).inside hpos
    | field =>
      simp only [Reader.call, Reading.wp_bind, Reading.wp_pure]
      exact (field_decodes overflowChecks).inside hpos
  refine ⟨hwp.1, ?_⟩
  cases hrun : (Reader.call overflowChecks c buf pos).ended with
  | ok a => exact ⟨hwp.of_ok hrun, fun _ => .inl rfl⟩
  | error reason =>
    obtain ⟨hstate, hreason⟩ := hwp.of_error hrun
    exact ⟨hstate, fun hslice => .inr (by rw [hreason hslice])⟩

/-- **The position is inside the bytes after every call.** -/
theorem calls_inside {overflowChecks : Bool} {buf : Bytes} : ∀ (cs : List Call) {pos : Nat}, pos ≤ buf.length →
    ∀ run ∈ Reader.calls overflowChecks buf pos cs, Inside buf run
  | [], _, _ => nofun
  | c :: cs, pos, hpos => by
    have hcall : Inside buf (Reader.call overflowChecks c buf pos) := call_inside c hpos
    rintro run (_ | ⟨_, hrun⟩)
    · exact hcall
    · exact calls_inside cs hcall.2.1 run hrun

/-- **The framing of the key file is read back and nothing less than it is accepted**, in builds with overflow checks and
in builds without; the reads stay inside on all bytes. -/
theorem keyFile_framing_exact (overflowChecks : Bool) :
    (∀ keys : PqKeys, keys.Short →
      (Reader.keyFile overflowChecks keys.toBytes 0).ended = .ok (envelopeVersion, keys) ∧
      (Reader.keyFile overflowChecks keys.toBytes 0).state = keys.toBytes.length) ∧
    (∀ keys : PqKeys, keys.Short → ∀ part, part <+: keys.toBytes → part ≠ keys.toBytes →
      (Reader.keyFile overflowChecks part 0).ended = .error (.error .invalidKey)) ∧
    (∀ bytes cs, ∀ run ∈ Reader.calls overflowChecks bytes 0 cs, (∀ span ∈ run.spans, span.Within bytes) ∧
      run.state ≤ bytes.length ∧ (IsSlice bytes → run.ended = .ok () ∨ run.ended = .error (.error .invalidKey))) := by
  have hdecodes := keyFile_decodes overflowChecks
  refine ⟨fun keys hshort => ?_, fun keys hshort part hpart hne => ?_, fun bytes cs => calls_inside cs (Nat.zero_le _)⟩
  · have hrun := hdecodes.run_encode (a := (envelopeVersion, keys)) ⟨trivial, hshort⟩ []
    rw [← toBytes_eq, List.append_nil] at hrun
    exact hrun (isSlice_toBytes hshort)
  · obtain ⟨more, hmore⟩ := hpart
    have hmissing : more ≠ [] := by
      rintro rfl
      exact hne ((List.append_nil part).symm.trans hmore)
    have hslice : IsSlice part := by
      have hwhole := isSlice_toBytes hshort
      rw [IsSlice, ← hmore, List.length_append] at hwhole
      exact Nat.lt_of_le_of_lt (Nat.le_add_right _ _) hwhole
    exact hdecodes.run_shorter (a := (envelopeVersion, keys)) ⟨trivial, hshort⟩ (hmore.trans (toBytes_eq keys)) hmissing hslice

end Pq
end NexusNet
