import Mathlib.Data.List.Basic
import Mathlib.Logic.Equiv.Defs
/-!
# SliceReads — reading a slice by checked ranges

A reading takes ranges of a slice one after another, with a state of its own (a position, say), and ends with a result, an
error or a panic.  It records the spans it has taken.  `Wp` is its weakest precondition, with an equation for every
construct.

A `Format` writes values as elements, so that a written value is found again whatever stands behind it.  `Decodes` is for the
readings of a format: they stay inside the slice, return the value that is written at the position, and fail where none is
(`Decodes.run_encode`, `Decodes.run_shorter`).
-/
namespace SliceReads

/-- The elements from `start` up to `stop`. -/
structure Span where
  start : Nat
  stop : Nat
deriving DecidableEq

def Span.Within {β : Type} (span : Span) (buf : List β) : Prop := span.start ≤ span.stop ∧ span.stop ≤ buf.length

/-- How a reading stops without a result. -/
inductive Stop (ε : Type) where
  | error (e : ε)
  | panic
deriving DecidableEq

/-- A run: how it ended, the state it left, and the spans it took. -/
structure Run (σ ε α : Type) where
  ended : Except (Stop ε) α
  state : σ
  spans : List Span

def Reading (β σ ε α : Type) : Type := List β → σ → Run σ ε α

namespace Reading

variable {β σ ε α γ δ : Type}

/-! ## Constructs -/

protected def pure (a : α) : Reading β σ ε α := fun _ s => ⟨.ok a, s, []⟩

protected def bind (m : Reading β σ ε α) (f : α → Reading β σ ε γ) : Reading β σ ε γ := fun buf s =>
  match (m buf s).ended with
  | .ok a => { f a buf (m buf s).state with spans := (m buf s).spans ++ (f a buf (m buf s).state).spans }
  | .error stop => { m buf s with ended := .error stop }

instance : Monad (Reading β σ ε) where
  pure := Reading.pure
  bind := Reading.bind

def stop (reason : Stop ε) : Reading β σ ε α := fun _ s => ⟨.error reason, s, []⟩

/-- The value, or the error where there is none. -/
def okOr (o : Option α) (e : ε) : Reading β σ ε α :=
  match o with
  | some a => pure a
  | none => stop (.error e)

/-- Goes on if `p` holds. -/
def require (p : Prop) [Decidable p] (e : ε) : Reading β σ ε Unit := if p then pure () else stop (.error e)

def getState : Reading β σ ε σ := fun _ s => ⟨.ok s, s, []⟩

def setState (s : σ) : Reading β σ ε Unit := fun _ _ => ⟨.ok (), s, []⟩

/-- `buf.get(start..stop)`, with the error where the range is not in the slice. -/
def range (start stop : Nat) (e : ε) : Reading β σ ε (List β) := fun buf s =>
  if start ≤ stop ∧ stop ≤ buf.length then ⟨.ok ((buf.drop start).take (stop - start)), s, [⟨start, stop⟩]⟩
  else ⟨.error (.error e), s, []⟩

/-- `buf.get(start..)`. -/
def rangeFrom (start : Nat) (e : ε) : Reading β σ ε (List β) := fun buf s => range start buf.length e buf s

/-- `buf.get(i)`. -/
def item (i : Nat) (e : ε) : Reading β σ ε β := fun buf s =>
  match buf[i]? with
  | some b => ⟨.ok b, s, [⟨i, i + 1⟩]⟩
  | none => ⟨.error (.error e), s, []⟩

theorem bind_of_ok {m : Reading β σ ε α} {f : α → Reading β σ ε γ} {buf : List β} {s : σ} {a : α}
    (h : (m buf s).ended = .ok a) :
    (m >>= f) buf s = { f a buf (m buf s).state with spans := (m buf s).spans ++ (f a buf (m buf s).state).spans } := by
  show Reading.bind m f buf s = _
  rw [Reading.bind, h]

theorem bind_of_error {m : Reading β σ ε α} {f : α → Reading β σ ε γ} {buf : List β} {s : σ} {reason : Stop ε}
    (h : (m buf s).ended = .error reason) : (m >>= f) buf s = { m buf s with ended := .error reason } := by
  show Reading.bind m f buf s = _
  rw [Reading.bind, h]

theorem pure_bind (a : α) (f : α → Reading β σ ε γ) : (Pure.pure a : Reading β σ ε α) >>= f = f a := rfl

theorem bind_assoc (m : Reading β σ ε α) (f : α → Reading β σ ε γ) (g : γ → Reading β σ ε δ) :
    m >>= f >>= g = m >>= fun a => f a >>= g := by
  funext buf s
  cases hm : (m buf s).ended with
  | error reason =>
    have hmf : ((m >>= f) buf s).ended = .error reason := by rw [bind_of_error hm]
    rw [bind_of_error hmf, bind_of_error hm, bind_of_error hm]
  | ok a =>
    cases hf : (f a buf (m buf s).state).ended with
    | error reason =>
      have hmf : ((m >>= f) buf s).ended = .error reason := by rw [bind_of_ok hm, hf]
      rw [bind_of_error hmf, bind_of_ok hm, bind_of_ok hm, bind_of_error hf]
    | ok c =>
      have hmf : ((m >>= f) buf s).ended = .ok c := by rw [bind_of_ok hm, hf]
      rw [bind_of_ok hmf, bind_of_ok hm, bind_of_ok hm, bind_of_ok hf]
      simp only [List.append_assoc]

/-! ## Readings without a state -/

/-- The result, if there is one. -/
def result (m : Reading β Unit ε α) (buf : List β) : Option α := (m buf ()).ended.toOption

theorem result_pure (a : α) (buf : List β) : (Pure.pure a : Reading β Unit ε α).result buf = some a := rfl

theorem result_bind (m : Reading β Unit ε α) (f : α → Reading β Unit ε γ) (buf : List β) :
    (m >>= f).result buf = (m.result buf).bind (fun a => (f a).result buf) := by
  rw [result, result]
  cases hrun : (m buf ()).ended with
  | ok a =>
    rw [bind_of_ok hrun]
    rfl
  | error reason =>
    rw [bind_of_error hrun]
    rfl

theorem result_okOr (o : Option α) (e : ε) (buf : List β) : (Reading.okOr o e : Reading β Unit ε α).result buf = o := by
  cases o <;> rfl

theorem result_range (start stop : Nat) (e : ε) (buf : List β) : (Reading.range start stop e).result buf =
    if start ≤ stop ∧ stop ≤ buf.length then some ((buf.drop start).take (stop - start)) else none := by
  rw [result, Reading.range]
  split <;> rfl

theorem result_rangeFrom (start : Nat) (e : ε) (buf : List β) :
    (Reading.rangeFrom start e).result buf = (Reading.range start buf.length e).result buf := rfl

/-! ## Weakest preconditions -/

/-- The reading takes spans of the slice only, and ends with a result in `Q` or stops in `E`. -/
def Wp (m : Reading β σ ε α) (Q : α → σ → Prop) (E : Stop ε → σ → Prop) (buf : List β) (s : σ) : Prop :=
  (∀ span ∈ (m buf s).spans, span.Within buf) ∧
    match (m buf s).ended with
    | .ok a => Q a (m buf s).state
    | .error reason => E reason (m buf s).state

section Wp

variable {m : Reading β σ ε α} {Q : α → σ → Prop} {E : Stop ε → σ → Prop} {buf : List β} {s : σ}

theorem Wp.mono {Q' : α → σ → Prop} {E' : Stop ε → σ → Prop} (h : m.Wp Q E buf s) (hQ : ∀ a t, Q a t → Q' a t)
    (hE : ∀ reason t, E reason t → E' reason t) : m.Wp Q' E' buf s := by
  obtain ⟨hspans, hended⟩ := h
  refine ⟨hspans, ?_⟩
  cases hrun : (m buf s).ended with
  | ok a =>
    rw [hrun] at hended
    exact hQ a _ hended
  | error reason =>
    rw [hrun] at hended
    exact hE reason _ hended

theorem Wp.of_ok {a : α} (h : m.Wp Q E buf s) (hrun : (m buf s).ended = .ok a) : Q a (m buf s).state := by
  have hended := h.2
  rw [hrun] at hended
  exact hended

theorem Wp.of_error {reason : Stop ε} (h : m.Wp Q E buf s) (hrun : (m buf s).ended = .error reason) :
    E reason (m buf s).state := by
  have hended := h.2
  rw [hrun] at hended
  exact hended

@[simp] theorem wp_pure {a : α} : (Pure.pure a : Reading β σ ε α).Wp Q E buf s ↔ Q a s :=
  ⟨fun h => h.2, fun h => ⟨fun _ hspan => absurd hspan List.not_mem_nil, h⟩⟩

@[simp] theorem wp_stop {reason : Stop ε} : (Reading.stop reason : Reading β σ ε α).Wp Q E buf s ↔ E reason s :=
  ⟨fun h => h.2, fun h => ⟨fun _ hspan => absurd hspan List.not_mem_nil, h⟩⟩

@[simp] theorem wp_bind {f : α → Reading β σ ε γ} {Q : γ → σ → Prop} :
    (m >>= f).Wp Q E buf s ↔ m.Wp (fun a t => (f a).Wp Q E buf t) E buf s := by
  cases hrun : (m buf s).ended with
  | error reason =>
    simp only [Wp, bind_of_error hrun, hrun]
  | ok a =>
    simp only [Wp, bind_of_ok hrun, hrun, List.mem_append, or_imp, forall_and, and_assoc]

theorem wp_ite {p : Prop} [Decidable p] {k : Reading β σ ε α} :
    (if p then m else k).Wp Q E buf s ↔ (p → m.Wp Q E buf s) ∧ (¬ p → k.Wp Q E buf s) := by
  by_cases hp : p
  · rw [if_pos hp]
    exact ⟨fun h => ⟨fun _ => h, fun hnot => absurd hp hnot⟩, fun h => h.1 hp⟩
  · rw [if_neg hp]
    exact ⟨fun h => ⟨fun hin => absurd hin hp, fun _ => h⟩, fun h => h.2 hp⟩

@[simp] theorem wp_require {p : Prop} [Decidable p] {e : ε} {Q : Unit → σ → Prop} :
    (Reading.require p e : Reading β σ ε Unit).Wp Q E buf s ↔ (p → Q () s) ∧ (¬ p → E (.error e) s) := by
  rw [Reading.require, wp_ite, wp_pure, wp_stop]

@[simp] theorem wp_getState {Q : σ → σ → Prop} : (Reading.getState : Reading β σ ε σ).Wp Q E buf s ↔ Q s s :=
  ⟨fun h => h.2, fun h => ⟨fun _ hspan => absurd hspan List.not_mem_nil, h⟩⟩

@[simp] theorem wp_setState {t : σ} {Q : Unit → σ → Prop} :
    (Reading.setState t : Reading β σ ε Unit).Wp Q E buf s ↔ Q () t :=
  ⟨fun h => h.2, fun h => ⟨fun _ hspan => absurd hspan List.not_mem_nil, h⟩⟩

@[simp] theorem wp_okOr {o : Option α} {e : ε} :
    (Reading.okOr o e).Wp Q E buf s ↔ (∀ a, o = some a → Q a s) ∧ (o = none → E (.error e) s) := by
  cases o with
  | some a => exact wp_pure.trans ⟨fun h => ⟨fun _ ha => Option.some.inj ha ▸ h, nofun⟩, fun h => h.1 a rfl⟩
  | none => exact wp_stop.trans ⟨fun h => ⟨nofun, fun _ => h⟩, fun h => h.2 rfl⟩

@[simp] theorem wp_range {start stop : Nat} {e : ε} {Q : List β → σ → Prop} : (Reading.range start stop e).Wp Q E buf s ↔
    (start ≤ stop ∧ stop ≤ buf.length → Q ((buf.drop start).take (stop - start)) s) ∧
    (¬ (start ≤ stop ∧ stop ≤ buf.length) → E (.error e) s) := by
  rw [Wp, Reading.range]
  split
  · rename_i hrange
    refine ⟨fun h => ⟨fun _ => h.2, fun hnot => absurd hrange hnot⟩, fun h => ⟨fun span hspan => ?_, h.1 hrange⟩⟩
    cases List.mem_singleton.1 hspan
    exact hrange
  · rename_i hrange
    exact ⟨fun h => ⟨fun hin => absurd hin hrange, fun _ => h.2⟩,
      fun h => ⟨fun _ hspan => absurd hspan List.not_mem_nil, h.2 hrange⟩⟩

/-- A range that is a part of the slice. -/
theorem wp_range_part {start stop : Nat} {e : ε} {Q : List β → σ → Prop} {pre part post : List β}
    (hbuf : buf = pre ++ (part ++ post)) (hstart : start = pre.length) (hstop : stop = pre.length + part.length) :
    (Reading.range start stop e).Wp Q E buf s ↔ Q part s := by
  subst hbuf hstart hstop
  have hin : pre.length ≤ pre.length + part.length ∧ pre.length + part.length ≤ (pre ++ (part ++ post)).length := by
    simp only [List.length_append]
    omega
  rw [wp_range, List.drop_left, Nat.add_sub_cancel_left, List.take_left]
  exact ⟨fun h => h.1 hin, fun h => ⟨fun _ => h, fun hnot => absurd hin hnot⟩⟩

/-- A range that goes past the end. -/
theorem wp_range_beyond {start stop : Nat} {e : ε} {Q : List β → σ → Prop} (hstop : buf.length < stop) :
    (Reading.range start stop e).Wp Q E buf s ↔ E (.error e) s := by
  have hout : ¬ (start ≤ stop ∧ stop ≤ buf.length) := fun h => Nat.not_le.2 hstop h.2
  exact wp_range.trans ⟨fun h => h.2 hout, fun h => ⟨fun hin => absurd hin hout, fun _ => h⟩⟩

@[simp] theorem wp_rangeFrom {start : Nat} {e : ε} {Q : List β → σ → Prop} :
    (Reading.rangeFrom start e).Wp Q E buf s ↔ (Reading.range start buf.length e).Wp Q E buf s := Iff.rfl

@[simp] theorem wp_item {i : Nat} {e : ε} {Q : β → σ → Prop} : (Reading.item i e).Wp Q E buf s ↔
    (∀ b, buf[i]? = some b → Q b s) ∧ (buf[i]? = none → E (.error e) s) := by
  rw [Wp, Reading.item]
  cases hget : buf[i]? with
  | some b =>
    refine ⟨fun h => ⟨fun _ hb => Option.some.inj hb ▸ h.2, nofun⟩, fun h => ⟨fun span hspan => ?_, h.1 b rfl⟩⟩
    cases List.mem_singleton.1 hspan
    exact ⟨Nat.le_succ i, (List.getElem?_eq_some_iff.1 hget).1⟩
  | none =>
    exact ⟨fun h => ⟨nofun, fun _ => h.2⟩, fun h => ⟨fun _ hspan => absurd hspan List.not_mem_nil, h.2 rfl⟩⟩

end Wp
end Reading

/-! ## Formats -/

/-- A way to write the values in `Ok`, such that what is written determines the value whatever stands behind it. -/
structure Format (β α : Type) where
  encode : α → List β
  Ok : α → Prop
  determined : ∀ {a b rest rest'}, Ok a → Ok b → encode a ++ rest = encode b ++ rest' → a = b

namespace Format

variable {β α γ : Type}

/-- An element. -/
def item : Format β β where
  encode b := [b]
  Ok _ := True
  determined _ _ h := (List.cons.inj h).1

/-- One format after the other. -/
def seq (F : Format β α) (G : Format β γ) : Format β (α × γ) where
  encode p := F.encode p.1 ++ G.encode p.2
  Ok p := F.Ok p.1 ∧ G.Ok p.2
  determined := by
    rintro ⟨a, c⟩ ⟨b, d⟩ rest rest' ⟨ha, hc⟩ ⟨hb, hd⟩ h
    simp only [List.append_assoc] at h
    obtain rfl : a = b := F.determined ha hb h
    obtain rfl : c = d := G.determined hc hd (List.append_cancel_left h)
    rfl

/-- One value, which says nothing. -/
def literal (F : Format β α) (a : α) : Format β Unit where
  encode _ := F.encode a
  Ok _ := F.Ok a
  determined _ _ _ := rfl

/-- The values that pass a test. -/
def only (F : Format β α) (p : α → Prop) : Format β α where
  encode := F.encode
  Ok a := F.Ok a ∧ p a
  determined ha hb := F.determined ha.1 hb.1

/-- The values under another name. -/
def map (F : Format β α) (f : α ≃ γ) : Format β γ where
  encode c := F.encode (f.symm c)
  Ok c := F.Ok (f.symm c)
  determined ha hb h := f.symm.injective (F.determined ha hb h)

end Format

/-! ## Readings of a format -/

section Decodes

variable {β ε α γ : Type}

/-- **A reading of a format.**  It keeps its position inside the slice.  On a slice that `fits` it returns the value written
at its position and stands behind it then; where no value is written it fails with `e`. -/
structure Decodes (fits : List β → Prop) (e : ε) (F : Format β α) (m : Reading β Nat ε α) : Prop where
  safe : ∀ buf pos, pos ≤ buf.length → m.Wp (fun _ t => t ≤ buf.length) (fun _ t => t ≤ buf.length) buf pos
  exact : ∀ read ahead, fits (read ++ ahead) → m.Wp
    (fun a t => F.Ok a ∧ ∃ rest, ahead = F.encode a ++ rest ∧ t = (read ++ F.encode a).length)
    (fun reason _ => reason = .error e ∧ ∀ a rest, F.Ok a → ahead ≠ F.encode a ++ rest) (read ++ ahead) read.length

namespace Decodes

variable {fits : List β → Prop} {e : ε} {F : Format β α} {G : Format β γ} {m : Reading β Nat ε α} {k : Reading β Nat ε γ}

theorem seq (hm : Decodes fits e F m) (hk : Decodes fits e G k) :
    Decodes fits e (F.seq G) (do let a ← m; let c ← k; return (a, c)) where
  safe buf pos hpos := by
    simp only [Reading.wp_bind, Reading.wp_pure]
    exact (hm.safe buf pos hpos).mono (fun _ t ht => hk.safe buf t ht) (fun _ _ ht => ht)
  exact read ahead hfits := by
    simp only [Reading.wp_bind, Reading.wp_pure]
    refine (hm.exact read ahead hfits).mono ?_ ?_
    · rintro a t ⟨ha, rest, rfl, rfl⟩
      rw [← List.append_assoc] at hfits ⊢
      refine (hk.exact (read ++ F.encode a) rest hfits).mono ?_ ?_
      · rintro c t ⟨hc, rest', rfl, rfl⟩
        exact ⟨⟨ha, hc⟩, rest', (List.append_assoc _ _ _).symm, by rw [List.append_assoc]; rfl⟩
      · rintro reason t ⟨hreason, hnone⟩
        refine ⟨hreason, fun p rest' hp hsame => ?_⟩
        -- The first part is determined, so the second was written behind it.
        rw [Format.seq, List.append_assoc] at hsame
        rw [← F.determined ha hp.1 hsame] at hsame
        exact hnone p.2 rest' hp.2 (List.append_cancel_left hsame)
    · rintro reason t ⟨hreason, hnone⟩
      refine ⟨hreason, fun p rest hp hsame => hnone p.1 (G.encode p.2 ++ rest) hp.1 ?_⟩
      rw [hsame, Format.seq, List.append_assoc]

theorem literal (hm : Decodes fits e F m) [DecidableEq α] (a : α) :
    Decodes fits e (F.literal a) (do let b ← m; Reading.require (b = a) e) where
  safe buf pos hpos := by
    simp only [Reading.wp_bind, Reading.wp_require]
    exact (hm.safe buf pos hpos).mono (fun _ _ ht => ⟨fun _ => ht, fun _ => ht⟩) (fun _ _ ht => ht)
  exact read ahead hfits := by
    simp only [Reading.wp_bind, Reading.wp_require]
    refine (hm.exact read ahead hfits).mono ?_ (fun reason _ h => ⟨h.1, fun _ rest ha => h.2 a rest ha⟩)
    rintro b t ⟨hb, rest, hahead, ht⟩
    refine ⟨?_, fun hne => ⟨trivial, fun _ rest' ha hsame => hne (F.determined hb ha (hahead.symm.trans hsame))⟩⟩
    rintro rfl
    exact ⟨hb, rest, hahead, ht⟩

theorem only (hm : Decodes fits e F m) (p : α → Prop) [DecidablePred p] :
    Decodes fits e (F.only p) (do let a ← m; Reading.require (p a) e; return a) where
  safe buf pos hpos := by
    simp only [Reading.wp_bind, Reading.wp_require, Reading.wp_pure]
    exact (hm.safe buf pos hpos).mono (fun _ _ ht => ⟨fun _ => ht, fun _ => ht⟩) (fun _ _ ht => ht)
  exact read ahead hfits := by
    simp only [Reading.wp_bind, Reading.wp_require, Reading.wp_pure]
    refine (hm.exact read ahead hfits).mono ?_ (fun reason _ h => ⟨h.1, fun b rest hb => h.2 b rest hb.1⟩)
    rintro a t ⟨ha, rest, hahead, ht⟩
    refine ⟨fun hp => ⟨⟨ha, hp⟩, rest, hahead, ht⟩, fun hp => ⟨trivial, fun b rest' hb hsame => hp ?_⟩⟩
    rw [F.determined ha hb.1 (hahead.symm.trans hsame)]
    exact hb.2

theorem map (hm : Decodes fits e F m) (f : α ≃ γ) : Decodes fits e (F.map f) (do let a ← m; return f a) where
  safe buf pos hpos := by
    simp only [Reading.wp_bind, Reading.wp_pure]
    exact hm.safe buf pos hpos
  exact read ahead hfits := by
    simp only [Reading.wp_bind, Reading.wp_pure, Format.map, Equiv.symm_apply_apply]
    refine (hm.exact read ahead hfits).mono (fun _ _ h => h) ?_
    rintro reason t ⟨hreason, hnone⟩
    exact ⟨hreason, fun c rest hc => hnone (f.symm c) rest hc⟩

/-- From everywhere in the slice: the position stays inside, and on a slice that fits there is no panic. -/
theorem inside (h : Decodes fits e F m) {buf : List β} {pos : Nat} (hpos : pos ≤ buf.length) :
    m.Wp (fun _ t => t ≤ buf.length) (fun reason t => t ≤ buf.length ∧ (fits buf → reason = .error e)) buf pos := by
  obtain ⟨hspans, hended⟩ := h.safe buf pos hpos
  refine ⟨hspans, ?_⟩
  cases hrun : (m buf pos).ended with
  | ok a =>
    rw [hrun] at hended
    exact hended
  | error reason =>
    rw [hrun] at hended
    refine ⟨hended, fun hfits => ?_⟩
    have hexact := h.exact (buf.take pos) (buf.drop pos)
    rw [List.take_append_drop, List.length_take, Nat.min_eq_left hpos] at hexact
    exact ((hexact hfits).of_error hrun).1

/-- **What was returned is what is written at the front.** -/
theorem run_eq_ok_iff (h : Decodes fits e F m) {buf : List β} (hfits : fits buf) {a : α} :
    (m buf 0).ended = .ok a ↔ F.Ok a ∧ ∃ rest, buf = F.encode a ++ rest := by
  have hexact := h.exact [] buf hfits
  constructor
  · intro hrun
    obtain ⟨ha, rest, hbuf, -⟩ := hexact.of_ok hrun
    exact ⟨ha, rest, hbuf⟩
  · rintro ⟨ha, rest, hbuf⟩
    cases hrun : (m buf 0).ended with
    | error reason => exact absurd hbuf ((hexact.of_error hrun).2 a rest ha)
    | ok b =>
      obtain ⟨hb, rest', hbuf', -⟩ := hexact.of_ok hrun
      rw [F.determined ha hb (hbuf.symm.trans hbuf')]

/-- **A written value is read back, and the position is its end.** -/
theorem run_encode (h : Decodes fits e F m) {a : α} (ha : F.Ok a) (rest : List β) (hfits : fits (F.encode a ++ rest)) :
    (m (F.encode a ++ rest) 0).ended = .ok a ∧ (m (F.encode a ++ rest) 0).state = (F.encode a).length := by
  have hrun := (h.run_eq_ok_iff hfits).2 ⟨ha, rest, rfl⟩
  obtain ⟨-, -, -, hstate⟩ := (h.exact [] _ hfits).of_ok hrun
  exact ⟨hrun, hstate⟩

/-- **A value of which the end is missing is refused.** -/
theorem run_shorter (h : Decodes fits e F m) {a : α} (ha : F.Ok a) {part more : List β} (hwhole : part ++ more = F.encode a)
    (hmore : more ≠ []) (hfits : fits part) : (m part 0).ended = .error (.error e) := by
  cases hrun : (m part 0).ended with
  | error reason => rw [((h.exact [] part hfits).of_error hrun).1]
  | ok b =>
    obtain ⟨hb, rest, rfl⟩ := (h.run_eq_ok_iff hfits).1 hrun
    rw [List.append_assoc] at hwhole
    obtain rfl : a = b := F.determined ha hb ((List.append_nil _).trans hwhole.symm)
    have hnil : rest ++ more = [] := List.append_cancel_left (hwhole.trans (List.append_nil _).symm)
    exact absurd (List.append_eq_nil_iff.1 hnil).2 hmore

end Decodes
end Decodes
end SliceReads
