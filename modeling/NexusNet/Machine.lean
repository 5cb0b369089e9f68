import Mathlib.Order.Basic
import Mathlib.Data.List.Basic
/-!
# Machine — partial step functions, their runs and their invariants

A machine is an initial state and a step function that answers `none` where an event is not enabled.  Everything a
development says about whole runs is said here once: runs split at any event (`runFrom_append`), a run may be limited
to the steps that meet a condition read in the state before them (`Meets`), and a predicate that every such step keeps
holds wherever the run ends (`invariant_from`), also when it speaks of the events so far (`history_invariant`).  What
the events of a run put out is a list beside it (`outputs`).  A part of the state that follows a machine of its own has
that machine's runs (`Follows`).
-/

/-- An initial state, and what one event does to a state; `none` is an event that is not enabled there. -/
structure Machine (σ ε : Type*) where
  init : σ
  step : σ → ε → Option σ

/-- Below a bound of the last element of an ascending list are all its elements. -/
theorem le_of_mem_ascending {α : Type*} [LE α] [Std.IsPreorder α] {l : List α} (hasc : l.Pairwise (· ≤ ·)) {a v : α} (ha : a ∈ l)
    (hlast : ∀ w, l.getLast? = some w → w ≤ v) : a ≤ v := by
  rcases List.eq_nil_or_concat l with rfl | ⟨init, w, rfl⟩
  · cases ha
  · rw [List.concat_eq_append] at hasc ha hlast
    have hw : w ≤ v := hlast w (by simp)
    rcases List.mem_append.1 ha with hin | hin
    · exact Std.le_trans ((List.pairwise_append.1 hasc).2.2 a hin w (by simp)) hw
    · rw [List.mem_singleton.1 hin]
      exact hw

namespace Machine

variable {σ ε : Type*} (M : Machine σ ε)

def runFrom : σ → List ε → Option σ
  | s, []      => some s
  | s, e :: es => (M.step s e).bind (fun s' => runFrom s' es)

def run (es : List ε) : Option σ := M.runFrom M.init es

/-- **Every event of the run meets `ok`**, read in the state before it. -/
def Meets (ok : σ → ε → Prop) : σ → List ε → Prop
  | _, []      => True
  | s, e :: es => ok s e ∧ ∀ s', M.step s e = some s' → Meets ok s' es

/-- A state some run of enabled events leads to. -/
def Reachable (s : σ) : Prop := ∃ es, M.run es = some s

theorem runFrom_cons {s t : σ} {e : ε} {es : List ε} :
    M.runFrom s (e :: es) = some t ↔ ∃ s', M.step s e = some s' ∧ M.runFrom s' es = some t := by
  simp only [runFrom, Option.bind_eq_some_iff]

theorem runFrom_append {t : σ} : ∀ (es fs : List ε) (s : σ),
    M.runFrom s (es ++ fs) = some t ↔ ∃ m, M.runFrom s es = some m ∧ M.runFrom m fs = some t
  | [], fs, s => by simp [runFrom]
  | e :: es, fs, s => by
    rw [List.cons_append, runFrom_cons]
    constructor
    · rintro ⟨s', hs, h⟩
      obtain ⟨m, hm, ht⟩ := (runFrom_append es fs s').1 h
      exact ⟨m, (M.runFrom_cons).2 ⟨s', hs, hm⟩, ht⟩
    · rintro ⟨m, hm, ht⟩
      obtain ⟨s', hs, hm'⟩ := (M.runFrom_cons).1 hm
      exact ⟨s', hs, (runFrom_append es fs s').2 ⟨m, hm', ht⟩⟩

theorem runFrom_concat {s t : σ} {es : List ε} {e : ε} :
    M.runFrom s (es ++ [e]) = some t ↔ ∃ m, M.runFrom s es = some m ∧ M.step m e = some t := by
  rw [runFrom_append]
  simp [runFrom]

/-- On a concrete run the guard of every step can be checked. -/
instance decMeets {ok : σ → ε → Prop} [∀ s e, Decidable (ok s e)] : ∀ (s : σ) (es : List ε), Decidable (M.Meets ok s es)
  | _, [] => .isTrue trivial
  | s, e :: es =>
    match h : M.step s e with
    | none => decidable_of_iff (ok s e) ⟨fun h1 => ⟨h1, fun s' hs => by rw [h] at hs; cases hs⟩, And.left⟩
    | some s' =>
      have := @decMeets ok _ s' es
      decidable_of_iff (ok s e ∧ M.Meets ok s' es)
        ⟨fun h1 => ⟨h1.1, fun s'' hs => by rw [h] at hs; cases hs; exact h1.2⟩, fun h1 => ⟨h1.1, h1.2 s' h⟩⟩

theorem meets_append {ok : σ → ε → Prop} : ∀ (es fs : List ε) (s : σ), M.Meets ok s (es ++ fs) →
    M.Meets ok s es ∧ ∀ m, M.runFrom s es = some m → M.Meets ok m fs
  | [], fs, s, h => ⟨trivial, fun m hm => by cases hm; exact h⟩
  | e :: es, fs, s, h => by
    obtain ⟨h1, h2⟩ := h
    refine ⟨⟨h1, fun s' hs => (meets_append es fs s' (h2 s' hs)).1⟩, fun m hm => ?_⟩
    obtain ⟨s', hs, hm'⟩ := (M.runFrom_cons).1 hm
    exact (meets_append es fs s' (h2 s' hs)).2 m hm'

theorem Meets.mono {ok ok' : σ → ε → Prop} (hok : ∀ s e, ok s e → ok' s e) :
    ∀ {es : List ε} {s : σ}, M.Meets ok s es → M.Meets ok' s es
  | [], _, _ => trivial
  | _ :: _, _, h => ⟨hok _ _ h.1, fun s' hs => Meets.mono hok (h.2 s' hs)⟩

theorem meets_and {ok ok' : σ → ε → Prop} : ∀ {es : List ε} {s : σ}, M.Meets ok s es → M.Meets ok' s es →
    M.Meets (fun s e => ok s e ∧ ok' s e) s es
  | [], _, _, _ => trivial
  | _ :: _, _, h, h' => ⟨⟨h.1, h'.1⟩, fun s' hs => meets_and (h.2 s' hs) (h'.2 s' hs)⟩

theorem meets_true : ∀ (es : List ε) (s : σ), M.Meets (fun _ _ => True) s es
  | [], _ => trivial
  | _ :: es, _ => ⟨trivial, fun s' _ => meets_true es s'⟩

theorem meets_of_forall {p : ε → Prop} : ∀ {es : List ε}, (∀ e ∈ es, p e) → ∀ s, M.Meets (fun _ e => p e) s es
  | [], _, _ => trivial
  | e :: _, h, _ => ⟨h e List.mem_cons_self, fun s' _ => meets_of_forall (fun e he => h e (List.mem_cons_of_mem _ he)) s'⟩

/-- **What every allowed step keeps, an allowed run keeps.** -/
theorem invariant_from {ok : σ → ε → Prop} {P : σ → Prop}
    (hstep : ∀ s e s', P s → ok s e → M.step s e = some s' → P s') :
    ∀ (es : List ε) (s t : σ), P s → M.Meets ok s es → M.runFrom s es = some t → P t
  | [], s, t, hP, _, hr => by cases hr; exact hP
  | e :: es, s, t, hP, hok, hr => by
    obtain ⟨s', hs, hr'⟩ := (M.runFrom_cons).1 hr
    exact invariant_from hstep es s' t (hstep s e s' hP hok.1 hs) (hok.2 s' hs) hr'

/-- What an invariant of the allowed steps says of the next event is true of every event of the run. -/
theorem meets_of_invariant {ok ok' : σ → ε → Prop} {P : σ → Prop}
    (hstep : ∀ s e s', P s → ok s e → M.step s e = some s' → P s') (hnext : ∀ s e, P s → ok s e → ok' s e) :
    ∀ {es : List ε} {s : σ}, P s → M.Meets ok s es → M.Meets ok' s es
  | [], _, _, _ => trivial
  | e :: _, s, hP, hok =>
    ⟨hnext s e hP hok.1, fun s' hs => meets_of_invariant hstep hnext (hstep s e s' hP hok.1 hs) (hok.2 s' hs)⟩

/-- **An invariant of every step holds in every reachable state.** -/
theorem reachable_invariant {P : σ → Prop} (hinit : P M.init)
    (hstep : ∀ s e s', P s → M.step s e = some s' → P s') {s : σ} (h : M.Reachable s) : P s := by
  obtain ⟨es, hr⟩ := h
  refine M.invariant_from (fun s e s' hP _ => hstep s e s' hP) es M.init s hinit (M.meets_true es M.init) hr

/-- **An invariant that speaks of the events so far**: it holds of the history at hand and every allowed step extends
it. -/
theorem history_from {ok : σ → ε → Prop} {P : List ε → σ → Prop}
    (hstep : ∀ es s e s', P es s → ok s e → M.step s e = some s' → P (es ++ [e]) s') :
    ∀ (es hist : List ε) (s t : σ), P hist s → M.Meets ok s es → M.runFrom s es = some t → P (hist ++ es) t
  | [], hist, s, t, hP, _, hr => by cases hr; rw [List.append_nil]; exact hP
  | e :: es, hist, s, t, hP, hok, hr => by
    obtain ⟨s', hs, hr'⟩ := (M.runFrom_cons).1 hr
    have := history_from hstep es (hist ++ [e]) s' t (hstep hist s e s' hP hok.1 hs) (hok.2 s' hs) hr'
    rwa [List.append_assoc, List.singleton_append] at this

theorem history_invariant {ok : σ → ε → Prop} {P : List ε → σ → Prop} (hinit : P [] M.init)
    (hstep : ∀ es s e s', P es s → ok s e → M.step s e = some s' → P (es ++ [e]) s') (es : List ε) (s : σ)
    (hr : M.run es = some s) (hok : M.Meets ok M.init es) : P es s :=
  M.history_from hstep es [] M.init s hinit hok hr

/-! ## Exact guards -/

/-- **Every state of the run has `P`**, the first and the last included. -/
def Throughout (P : σ → Prop) (s : σ) (es : List ε) : Prop :=
  ∀ pre post m, es = pre ++ post → M.runFrom s pre = some m → P m

theorem throughout_nil {P : σ → Prop} {s : σ} : M.Throughout P s [] ↔ P s := by
  constructor
  · intro h
    exact h [] [] s rfl rfl
  · rintro h pre post m hs hr
    obtain ⟨rfl, -⟩ := List.append_eq_nil_iff.1 hs.symm
    cases hr
    exact h

theorem throughout_cons {P : σ → Prop} {s : σ} {e : ε} {es : List ε} :
    M.Throughout P s (e :: es) ↔ P s ∧ ∀ s', M.step s e = some s' → M.Throughout P s' es := by
  constructor
  · intro h
    refine ⟨h [] (e :: es) s rfl rfl, fun s' hs pre post m he hr => ?_⟩
    exact h (e :: pre) post m (by rw [he]; rfl) ((M.runFrom_cons).2 ⟨s', hs, hr⟩)
  · rintro ⟨hP, h⟩ pre post m he hr
    cases pre with
    | nil => cases hr; exact hP
    | cons x pre =>
      simp only [List.cons_append, List.cons.injEq] at he
      obtain ⟨rfl, he⟩ := he
      obtain ⟨s', hs, hr'⟩ := (M.runFrom_cons).1 hr
      exact h s' hs pre post m he hr'

theorem Throughout.concat {P : σ → Prop} {s t : σ} {es : List ε} {e : ε} (h : M.Throughout P s es)
    (hr : M.runFrom s (es ++ [e]) = some t) (hP : P t) : M.Throughout P s (es ++ [e]) := by
  intro pre post m heq hm
  rcases List.eq_nil_or_concat post with rfl | ⟨post, x, rfl⟩
  · rw [List.append_nil] at heq
    cases hm.symm.trans (heq ▸ hr)
    exact hP
  · rw [List.concat_eq_append, ← List.append_assoc] at heq
    exact h pre post m (List.append_inj' heq rfl).1 hm

/-- What holds since a state of the run still holds after one more event. -/
theorem Throughout.extend {P : σ → Prop} {pre post : List ε} {e : ε} {m t : σ} (h : M.Throughout P m post)
    (hm : M.run pre = some m) (hr : M.run (pre ++ post ++ [e]) = some t) (hP : P t) :
    M.Throughout P m (post ++ [e]) := by
  rw [run, List.append_assoc, runFrom_append] at hr
  obtain ⟨m', hm', hrest⟩ := hr
  cases hm.symm.trans hm'
  exact Throughout.concat M h hrest hP

/-- **A guard that is exact at every step is exact for runs**: where each step from a state with `P` leads to `P`
exactly when it meets `ok`, a run has `P` throughout exactly when all its steps meet `ok`. -/
theorem throughout_iff_meets {ok : σ → ε → Prop} {P : σ → Prop}
    (hexact : ∀ s e s', P s → M.step s e = some s' → (P s' ↔ ok s e)) :
    ∀ (es : List ε) (s t : σ), P s → M.runFrom s es = some t → (M.Throughout P s es ↔ M.Meets ok s es)
  | [], s, t, hP, _ => by rw [throughout_nil]; exact ⟨fun _ => trivial, fun _ => hP⟩
  | e :: es, s, t, hP, hr => by
    obtain ⟨s', hs, hr'⟩ := (M.runFrom_cons).1 hr
    rw [throughout_cons]
    constructor
    · rintro ⟨-, h⟩
      have hP' : P s' := h s' hs [] es s' rfl rfl
      refine ⟨(hexact s e s' hP hs).1 hP', fun s'' hs'' => ?_⟩
      obtain rfl := Option.some.inj (hs.symm.trans hs'')
      exact (throughout_iff_meets hexact es s' t hP' hr').1 (h s' hs)
    · rintro ⟨hok, h⟩
      refine ⟨hP, fun s'' hs'' => ?_⟩
      obtain rfl := Option.some.inj (hs.symm.trans hs'')
      exact (throughout_iff_meets hexact es s' t ((hexact s e s' hP hs).2 hok) hr').2 (h s' hs)

/-! ## What a run puts out -/

/-- What the events of a run put out, one after another; `f` reads the state before the event. -/
def outputs {α : Type*} (f : σ → ε → List α) : σ → List ε → List α
  | _, []      => []
  | s, e :: es => f s e ++ ((M.step s e).map (fun s' => outputs f s' es)).getD []

theorem outputs_cons {α : Type*} {f : σ → ε → List α} {s s' : σ} {e : ε} (es : List ε) (h : M.step s e = some s') :
    M.outputs f s (e :: es) = f s e ++ M.outputs f s' es := by
  rw [outputs, h, Option.map_some, Option.getD_some]

theorem outputs_append {α : Type*} {f : σ → ε → List α} {fs : List ε} : ∀ {es : List ε} {s t : σ},
    M.runFrom s es = some t → M.outputs f s (es ++ fs) = M.outputs f s es ++ M.outputs f t fs
  | [], s, t, hr => by
    cases hr
    rfl
  | x :: es, s, t, hr => by
    obtain ⟨s', hs, hr'⟩ := (M.runFrom_cons).1 hr
    rw [List.cons_append, M.outputs_cons _ hs, M.outputs_cons _ hs, outputs_append hr', List.append_assoc]

theorem outputs_subset_append {α : Type*} (f : σ → ε → List α) (fs : List ε) : ∀ (es : List ε) (s : σ),
    M.outputs f s es ⊆ M.outputs f s (es ++ fs)
  | [], _ => List.nil_subset _
  | e :: es, s => by
    rw [List.cons_append, outputs, outputs]
    cases M.step s e with
    | none => exact List.Subset.refl _
    | some s' => exact List.append_subset.2 ⟨List.subset_append_left _ _,
        List.subset_append_of_subset_right _ (outputs_subset_append f fs es s')⟩

theorem outputs_singleton {α : Type*} (f : σ → ε → List α) (s : σ) (e : ε) : M.outputs f s [e] = f s e := by
  rw [outputs]
  cases M.step s e <;> simp [outputs]

theorem mem_outputs_cons {α : Type*} {f : σ → ε → List α} {a : α} {s : σ} {e : ε} {es : List ε} :
    a ∈ M.outputs f s (e :: es) ↔ a ∈ f s e ∨ ∃ s', M.step s e = some s' ∧ a ∈ M.outputs f s' es := by
  rw [outputs, List.mem_append]
  cases M.step s e <;> simp

theorem mem_outputs {α : Type*} {f : σ → ε → List α} {a : α} : ∀ {es : List ε} {s : σ}, a ∈ M.outputs f s es →
    ∃ pre e post m, es = pre ++ e :: post ∧ M.runFrom s pre = some m ∧ a ∈ f m e
  | [], _, h => by cases h
  | e :: es, s, h => by
    rcases M.mem_outputs_cons.1 h with h | ⟨s', hs, h⟩
    · exact ⟨[], e, es, s, rfl, rfl, h⟩
    · obtain ⟨pre, e', post, m, rfl, hm, ha⟩ := mem_outputs h
      exact ⟨e :: pre, e', post, m, rfl, (M.runFrom_cons).2 ⟨s', hs, hm⟩, ha⟩

theorem mem_outputs_of_mem {α : Type*} {f : σ → ε → List α} {a : α} {pre post : List ε} {e : ε} {s m : σ}
    (hm : M.runFrom s pre = some m) (ha : a ∈ f m e) : a ∈ M.outputs f s (pre ++ e :: post) := by
  rw [M.outputs_append hm, outputs]
  exact List.mem_append_right _ (List.mem_append_left _ ha)

theorem outputs_filterMap {α β : Type*} (f : σ → ε → List α) (g : α → Option β) : ∀ (es : List ε) (s : σ),
    (M.outputs f s es).filterMap g = M.outputs (fun s e => (f s e).filterMap g) s es
  | [], _ => rfl
  | e :: es, s => by
    rw [outputs, outputs, List.filterMap_append]
    cases M.step s e with
    | none => rfl
    | some s' => exact congrArg _ (outputs_filterMap f g es s')

/-- **A recorded maximum keeps the outputs in order.**  Where each step either puts out nothing and leaves the record, or
puts out a value not below the record and records it, the outputs ascend and the record is the last of them. -/
theorem outputs_ascend {α : Type*} [LE α] [Std.IsPreorder α] {ok : σ → ε → Prop} {f : σ → ε → Option α}
    (record : σ → Option α) (hinit : record M.init = none)
    (hstep : ∀ s e s', ok s e → M.step s e = some s' → (f s e = none ∧ record s' = record s) ∨
      ∃ v, f s e = some v ∧ (∀ w, record s = some w → w ≤ v) ∧ record s' = some v)
    (es : List ε) (s : σ) (hr : M.run es = some s) (hok : M.Meets ok M.init es) :
    (M.outputs (fun s e => (f s e).toList) M.init es).Pairwise (· ≤ ·) ∧
      record s = (M.outputs (fun s e => (f s e).toList) M.init es).getLast? := by
  refine (M.history_invariant (P := fun es s => M.run es = some s ∧
    (M.outputs (fun s e => (f s e).toList) M.init es).Pairwise (· ≤ ·) ∧
    record s = (M.outputs (fun s e => (f s e).toList) M.init es).getLast?) ⟨rfl, .nil, hinit⟩ ?_ es s hr hok).2
  rintro es s e s' ⟨hrun, hasc, hrec⟩ he hs
  refine ⟨M.runFrom_concat.2 ⟨s, hrun, hs⟩, ?_⟩
  rw [M.outputs_append hrun, M.outputs_singleton]
  obtain ⟨hf, hrec'⟩ | ⟨v, hf, hle, hrec'⟩ := hstep s e s' he hs
  · rw [hf, hrec', Option.toList_none, List.append_nil]
    exact ⟨hasc, hrec⟩
  · rw [hf, hrec', Option.toList_some]
    refine ⟨List.pairwise_append.2 ⟨hasc, List.pairwise_singleton _ _, fun a ha b hb => ?_⟩, by simp⟩
    rw [List.mem_singleton.1 hb]
    exact le_of_mem_ascending hasc ha (fun w hw => hle w (hrec.trans hw))

section Recorded

variable {α : Type*} {ok : σ → ε → Prop} {f : σ → ε → Option α} (holds : σ → α → Prop)

/-- Where each step keeps the record and puts out what it says, all outputs are the recorded value. -/
theorem outputs_eq_of_holds (hkeep : ∀ s e s' a, ok s e → M.step s e = some s' → holds s a → holds s' a)
    (hsame : ∀ s e a b, ok s e → holds s a → f s e = some b → b = a) : ∀ {es : List ε} {s : σ} {a b : α},
    M.Meets ok s es → holds s a → b ∈ M.outputs (fun s e => (f s e).toList) s es → b = a
  | [], _, _, _, _, _, hb => by cases hb
  | e :: es, s, a, b, hok, ha, hb => by
    rcases M.mem_outputs_cons.1 hb with hb | ⟨s', hs, hb⟩
    · exact hsame s e a b hok.1 ha (Option.mem_toList.1 hb)
    · exact outputs_eq_of_holds hkeep hsame (hok.2 s' hs) (hkeep s e s' a hok.1 hs ha) hb

/-- **A value that is recorded when it is put out stays the only output.** -/
theorem outputs_agree (hkeep : ∀ s e s' a, ok s e → M.step s e = some s' → holds s a → holds s' a)
    (hsame : ∀ s e a b, ok s e → holds s a → f s e = some b → b = a)
    (hrecord : ∀ s e s' a, ok s e → M.step s e = some s' → f s e = some a → holds s' a) :
    ∀ {es : List ε} {s : σ} {a b : α}, M.Meets ok s es → a ∈ M.outputs (fun s e => (f s e).toList) s es →
      b ∈ M.outputs (fun s e => (f s e).toList) s es → a = b
  | [], _, _, _, _, ha, _ => by cases ha
  | e :: es, s, a, b, hok, ha, hb => by
    have hlater : ∀ {s' a b}, M.step s e = some s' → f s e = some a →
        b ∈ M.outputs (fun s e => (f s e).toList) s' es → b = a := fun hs ha hb =>
      M.outputs_eq_of_holds holds hkeep hsame (hok.2 _ hs) (hrecord s e _ _ hok.1 hs ha) hb
    rcases M.mem_outputs_cons.1 ha with ha | ⟨s', hs, ha⟩ <;> rcases M.mem_outputs_cons.1 hb with hb | ⟨s'', hs', hb⟩
    · exact Option.some.inj ((Option.mem_toList.1 ha).symm.trans (Option.mem_toList.1 hb))
    · exact (hlater hs' (Option.mem_toList.1 ha) hb).symm
    · exact hlater hs (Option.mem_toList.1 hb) ha
    · obtain rfl := Option.some.inj (hs.symm.trans hs')
      exact outputs_agree hkeep hsame hrecord (hok.2 s' hs) ha hb

end Recorded

/-! ## Runs beside each other -/

/-- **A simulation that passes over some events**: where the second machine follows each kept event and the others leave
the relation, it follows the run of the kept events. -/
theorem runFrom_filter {τ : Type*} (N : Machine τ ε) {ok : σ → ε → Prop} {R : σ → τ → Prop} (keep : ε → Bool)
    (hkept : ∀ s e s' t, R s t → ok s e → keep e = true → M.step s e = some s' → ∃ t', N.step t e = some t' ∧ R s' t')
    (hpassed : ∀ s e s' t, R s t → ok s e → keep e = false → M.step s e = some s' → R s' t) :
    ∀ {es : List ε} {s s' : σ} {t : τ}, R s t → M.Meets ok s es → M.runFrom s es = some s' →
      ∃ t', N.runFrom t (es.filter keep) = some t' ∧ R s' t'
  | [], s, s', t, hR, _, hr => by
    cases hr
    exact ⟨t, rfl, hR⟩
  | e :: es, s, s', t, hR, hok, hr => by
    obtain ⟨m, hm, hr'⟩ := (M.runFrom_cons).1 hr
    cases hkeep : keep e with
    | true =>
      obtain ⟨t', ht, hR'⟩ := hkept s e m t hR hok.1 hkeep hm
      obtain ⟨t'', hrest, hR''⟩ := runFrom_filter N keep hkept hpassed hR' (hok.2 m hm) hr'
      rw [List.filter_cons_of_pos hkeep]
      exact ⟨t'', (N.runFrom_cons).2 ⟨t', ht, hrest⟩, hR''⟩
    | false =>
      rw [List.filter_cons_of_neg (by simp [hkeep])]
      exact runFrom_filter N keep hkept hpassed (hpassed s e m t hR hok.1 hkeep hm) (hok.2 m hm) hr'

/-! ## Termination -/

/-- **A run of steps that lower a weight is no longer than the weight.** -/
theorem length_le_weight {ok : σ → ε → Prop} (weight : σ → Nat)
    (hstep : ∀ s e s', ok s e → M.step s e = some s' → weight s' < weight s) :
    ∀ {es : List ε} {s t : σ}, M.Meets ok s es → M.runFrom s es = some t → es.length + weight t ≤ weight s
  | [], s, t, _, hr => by
    cases hr
    simp
  | e :: es, s, t, hok, hr => by
    obtain ⟨s', hs, hr'⟩ := (M.runFrom_cons).1 hr
    have hlt := hstep s e s' hok.1 hs
    have hrest := length_le_weight weight hstep (hok.2 s' hs) hr'
    rw [List.length_cons]
    omega

/-! ## A machine inside another -/

section Part

variable {τ δ : Type*} (N : Machine τ δ)

/-- **A part of the state follows a machine of its own**: each step leaves it alone or is a step of that machine. -/
def Follows (part : σ → τ) (label : σ → ε → Option δ) : Prop :=
  ∀ s e s', M.step s e = some s' → ((label s e).elim (some (part s)) (N.step (part s))) = some (part s')

/-- The events the part has seen. -/
def seen (label : σ → ε → Option δ) : σ → List ε → List δ := M.outputs (fun s e => (label s e).toList)

variable {M N} {part : σ → τ} {label : σ → ε → Option δ}

theorem Follows.runFrom (h : M.Follows N part label) : ∀ {es : List ε} {s t : σ}, M.runFrom s es = some t →
    N.runFrom (part s) (M.seen label s es) = some (part t)
  | [], s, t, hr => by
    cases hr
    rfl
  | e :: es, s, t, hr => by
    obtain ⟨s', hs, hr'⟩ := (M.runFrom_cons).1 hr
    have hstep := h s e s' hs
    rw [seen, M.outputs_cons _ hs]
    cases hlabel : label s e with
    | none =>
      rw [hlabel] at hstep
      rw [Option.toList_none, List.nil_append, Option.some.inj hstep]
      exact h.runFrom hr'
    | some d =>
      rw [hlabel] at hstep
      exact (N.runFrom_cons).2 ⟨part s', hstep, h.runFrom hr'⟩

/-- What the part puts out in its own run is what it puts out in the run of the whole. -/
theorem Follows.outputs (h : M.Follows N part label) {α : Type*} (f : τ → δ → List α) : ∀ {es : List ε} {s t : σ},
    M.runFrom s es = some t →
    M.outputs (fun s e => (label s e).elim [] (f (part s))) s es = N.outputs f (part s) (M.seen label s es)
  | [], _, _, _ => rfl
  | e :: es, s, t, hr => by
    obtain ⟨s', hs, hr'⟩ := (M.runFrom_cons).1 hr
    have hstep := h s e s' hs
    rw [seen, M.outputs_cons _ hs, M.outputs_cons _ hs, h.outputs f hr']
    cases hlabel : label s e with
    | none =>
      rw [hlabel] at hstep
      rw [Option.elim_none, Option.toList_none, List.nil_append, List.nil_append, Option.some.inj hstep]
      rfl
    | some d =>
      rw [hlabel] at hstep
      exact (N.outputs_cons _ hstep).symm

end Part

/-- A check on the end of a run, as a statement about the state it ends in. -/
theorem exists_of_check (p : σ → Bool) (es : List ε) (h : (M.run es).any p = true) :
    ∃ s, M.run es = some s ∧ p s = true := (Option.any_eq_true p (M.run es)).1 h

/-- A checked run, gone on with. -/
theorem exists_next {es : List ε} {s : σ} (hr : M.run es = some s) (p : σ → Bool) (fs : List ε)
    (h : (M.run (es ++ fs)).any p = true) : ∃ t, M.runFrom s fs = some t ∧ M.run (es ++ fs) = some t ∧ p t = true := by
  obtain ⟨t, ht, hp⟩ := M.exists_of_check p (es ++ fs) h
  obtain ⟨m, hm, hrest⟩ := (M.runFrom_append es fs M.init).1 ht
  obtain rfl := Option.some.inj (hr.symm.trans hm)
  exact ⟨t, hrest, ht, hp⟩

end Machine
