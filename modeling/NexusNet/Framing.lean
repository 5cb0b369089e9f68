import Mathlib.Data.List.Basic
/-!
# Framing — decoders that are fed in chunks

A decoder is called on a buffer: it takes an item off the front, or fails, or leaves the buffer and waits for more.  The
bytes come in chunks, and after each chunk the decoder is called until it waits.  A decoder whose verdicts do not change
when more bytes follow (`Decoder.stable`) sees the stream, not the chunks (`feed_eq_drain`).
-/
namespace Framing

/-- **A decoder whose verdicts stand.**  One call returns its result and what it leaves of the buffer. -/
structure Decoder (β α ε : Type*) where
  decode : List β → Except ε (Option α) × List β
  empty : decode [] = (.ok none, [])
  waits : ∀ {buf rest}, decode buf = (.ok none, rest) → rest = buf
  shrinks : ∀ {buf rest a}, decode buf = (.ok (some a), rest) → rest.length < buf.length
  stable : ∀ {buf rest result}, decode buf = (result, rest) → result ≠ .ok none →
    ∀ more, decode (buf ++ more) = (result, rest ++ more)

/-- What has come out of a stream: the items, the error the decoder stopped at, and what is not consumed. -/
structure Decoded (β α ε : Type*) where
  items : List α
  failure : Option ε
  rest : List β
deriving DecidableEq

def Decoded.prepend {β α ε : Type*} (items : List α) (d : Decoded β α ε) : Decoded β α ε :=
  { d with items := items ++ d.items }

namespace Decoder

variable {β α ε : Type*} (D : Decoder β α ε)

/-- The decoder called on the buffer until it waits or fails. -/
def drain (buf : List β) : Decoded β α ε :=
  match _h : D.decode buf with
  | (.ok (some a), rest) => (drain rest).prepend [a]
  | (.ok none, rest) => ⟨[], none, rest⟩
  | (.error e, rest) => ⟨[], some e, rest⟩
termination_by buf.length
decreasing_by exact D.shrinks _h

/-- A chunk goes to the buffer and the decoder is called again; after an error nothing is fed to it, and the chunk is not
consumed. -/
def receive (d : Decoded β α ε) (chunk : List β) : Decoded β α ε :=
  match d.failure with
  | none => (D.drain (d.rest ++ chunk)).prepend d.items
  | some _ => { d with rest := d.rest ++ chunk }

def feed (chunks : List (List β)) : Decoded β α ε := chunks.foldl D.receive ⟨[], none, []⟩

variable {D}

theorem drain_item {buf rest : List β} {a : α} (h : D.decode buf = (.ok (some a), rest)) :
    D.drain buf = (D.drain rest).prepend [a] := by
  rw [drain]
  split <;> rename_i h' <;> cases h.symm.trans h'
  rfl

theorem drain_wait {buf rest : List β} (h : D.decode buf = (.ok none, rest)) : D.drain buf = ⟨[], none, buf⟩ := by
  rw [drain]
  split <;> rename_i h' <;> cases h.symm.trans h'
  rw [D.waits h]

theorem drain_fail {buf rest : List β} {e : ε} (h : D.decode buf = (.error e, rest)) :
    D.drain buf = ⟨[], some e, rest⟩ := by
  rw [drain]
  split <;> rename_i h' <;> cases h.symm.trans h'
  rfl

theorem receive_prepend (items : List α) (d : Decoded β α ε) (chunk : List β) :
    D.receive (d.prepend items) chunk = (D.receive d chunk).prepend items := by
  unfold receive Decoded.prepend
  cases d.failure with
  | none => simp only [List.append_assoc]
  | some e => rfl

/-- **Bytes that come later change nothing that has come out**: decoding a longer buffer is decoding its front and then
receiving the rest. -/
theorem drain_append (buf more : List β) : D.drain (buf ++ more) = D.receive (D.drain buf) more := by
  induction buf using drain.induct D with
  | case1 buf a rest h ih =>
    have happ := drain_item (D.stable h (by simp) more)
    rw [happ, ih, drain_item h, receive_prepend]
  | case2 buf rest h =>
    rw [drain_wait h]
    rfl
  | case3 buf e rest h =>
    rw [drain_fail h, drain_fail (D.stable h (by simp) more)]
    rfl

theorem foldl_receive : ∀ (chunks : List (List β)) (buf : List β),
    chunks.foldl D.receive (D.drain buf) = D.drain (buf ++ chunks.flatten)
  | [], buf => by rw [List.foldl_nil, List.flatten_nil, List.append_nil]
  | chunk :: chunks, buf => by
    rw [List.foldl_cons, ← drain_append, foldl_receive chunks, List.flatten_cons, List.append_assoc]

/-- **What comes out of a stream does not depend on how it is cut into chunks.** -/
theorem feed_eq_drain (chunks : List (List β)) : D.feed chunks = D.drain chunks.flatten := by
  have hnil : D.drain [] = ⟨[], none, []⟩ := drain_wait D.empty
  rw [feed, ← hnil, foldl_receive, List.nil_append]

/-- **Frames are taken off one by one**, where each is decoded whatever follows it. -/
theorem drain_frames {items : List α} {frames : List (List β)}
    (h : List.Forall₂ (fun a frame => ∀ more, D.decode (frame ++ more) = (.ok (some a), more)) items frames) :
    D.drain frames.flatten = ⟨items, none, []⟩ := by
  induction h with
  | nil => exact drain_wait D.empty
  | cons ha _ ih =>
    rw [List.flatten_cons, drain_item (ha _), ih]
    rfl

end Decoder
end Framing
