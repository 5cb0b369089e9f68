import Mathlib.Algebra.GroupWithZero.Nat
import NexusNet.Machine
/-!
# AsyncPrograms — programs that await calls

A program awaits one call after another and ends with a result; what a call is answered is up to whoever runs the program.
What a program does is said with the calls it has made, each with its answer (`Obeys`): before each call and at the end a
condition on the calls so far, which is put together along the program (`Obeys.bind`) and holds wherever a program is
interrupted (`Obeys.of_reaches`).  What its calls cost is bounded in the same way (`Within`).
-/
namespace AsyncPrograms

variable {O : Type} {A : O → Type} {α β : Type}

inductive Program (O : Type) (A : O → Type) (α : Type) where
  | done (a : α)
  | call (op : O) (next : A op → Program O A α)

namespace Program

protected def bind (f : α → Program O A β) : Program O A α → Program O A β
  | done a => f a
  | call op next => call op (fun answer => (next answer).bind f)

instance : Monad (Program O A) where
  pure := done
  bind m f := m.bind f

def await (op : O) : Program O A (A op) := call op done

/-- What is awaited next, with the answer it gets, and the program after it. -/
def turn (answers : (op : O) → A op) : Program O A α → Option (Sigma A × Program O A α)
  | done _ => none
  | call op next => some (⟨op, answers op⟩, next (answers op))

def result : Program O A α → Option α
  | done a => some a
  | call _ _ => none

theorem turn_eq_some {answers : (op : O) → A op} {p q : Program O A α} {c : Sigma A} :
    p.turn answers = some (c, q) ↔ ∃ op next, p = call op next ∧ c = ⟨op, answers op⟩ ∧ q = next (answers op) := by
  cases p with
  | done a => simp [turn]
  | call op next =>
    simp only [turn, Option.some.injEq, Prod.mk.injEq, call.injEq]
    constructor
    · rintro ⟨rfl, rfl⟩
      exact ⟨op, next, ⟨rfl, HEq.rfl⟩, rfl, rfl⟩
    · rintro ⟨op', next', ⟨rfl, hnext⟩, rfl, rfl⟩
      cases hnext
      exact ⟨rfl, rfl⟩

theorem result_eq_some {p : Program O A α} {a : α} : p.result = some a ↔ p = done a := by
  cases p <;> simp [result]

/-- After these calls the program has become the other one. -/
inductive Reaches : Program O A α → List (Sigma A) → Program O A α → Prop where
  | start (p : Program O A α) : Reaches p [] p
  | step {p : Program O A α} {trace : List (Sigma A)} {op : O} {next : A op → Program O A α} (answer : A op) :
      Reaches p trace (call op next) → Reaches p (trace ++ [⟨op, answer⟩]) (next answer)

theorem Reaches.turn {p q r : Program O A α} {trace : List (Sigma A)} {answers : (op : O) → A op} {c : Sigma A}
    (h : p.Reaches trace q) (hturn : q.turn answers = some (c, r)) : p.Reaches (trace ++ [c]) r := by
  obtain ⟨op, next, rfl, rfl, rfl⟩ := turn_eq_some.1 hturn
  exact .step _ h

/-- The program makes no other calls. -/
def Only (P : O → Prop) : Program O A α → Prop
  | done _ => True
  | call op next => P op ∧ ∀ answer, (next answer).Only P

section Only

variable {P : O → Prop}

@[simp] theorem only_pure {a : α} : (pure a : Program O A α).Only P := trivial

@[simp] theorem only_await {op : O} : (await op : Program O A (A op)).Only P ↔ P op := and_iff_left fun _ => trivial

theorem Only.bind {f : α → Program O A β} (hf : ∀ a, (f a).Only P) : ∀ {m : Program O A α}, m.Only P → (m >>= f).Only P
  | done a, _ => hf a
  | call _ _, h => ⟨h.1, fun answer => Only.bind hf (h.2 answer)⟩

end Only

/-- Whatever they are answered, the calls of the program cost no more than this together. -/
def Within (cost : O → Nat) : Program O A α → Nat → Prop
  | done _, _ => True
  | call op next, budget => cost op ≤ budget ∧ ∀ answer, (next answer).Within cost (budget - cost op)

section Within

variable {cost : O → Nat}

theorem Within.mono : ∀ {p : Program O A α} {m n : Nat}, p.Within cost m → m ≤ n → p.Within cost n
  | done _, _, _, _, _ => trivial
  | call _ _, _, _, h, hle => ⟨Nat.le_trans h.1 hle, fun answer => (h.2 answer).mono (Nat.sub_le_sub_right hle _)⟩

theorem Within.bind {f : α → Program O A β} {n : Nat} (hf : ∀ a, (f a).Within cost n) : ∀ {p : Program O A α} {m budget : Nat},
    p.Within cost m → m + n ≤ budget → (p >>= f).Within cost budget
  | done a, _, _, _, hle => (hf a).mono (by omega)
  | call op _, m, budget, ⟨hop, hnext⟩, hle =>
    ⟨by omega, fun answer => Within.bind hf (hnext answer) (by omega)⟩

/-- **Wherever it is interrupted, the program has kept to its budget**, and the rest keeps to what is left. -/
theorem Within.of_reaches {p q : Program O A α} {trace : List (Sigma A)} {budget : Nat} (h : p.Within cost budget)
    (hreach : p.Reaches trace q) :
    (trace.map (fun c => cost c.1)).sum ≤ budget ∧ q.Within cost (budget - (trace.map (fun c => cost c.1)).sum) := by
  induction hreach with
  | start => exact ⟨Nat.zero_le _, h⟩
  | step answer _ ih =>
    obtain ⟨hsum, hop, hnext⟩ := ih
    rw [List.map_append, List.sum_append, List.map_singleton, List.sum_singleton, ← Nat.sub_sub]
    exact ⟨Nat.add_le_of_le_sub' hsum hop, hnext answer⟩

end Within

/-- **Before each call `G`, and at the end `Q`**, both of the calls so far. -/
def Obeys (G : List (Sigma A) → O → Prop) (Q : List (Sigma A) → α → Prop) : Program O A α → List (Sigma A) → Prop
  | done a, trace => Q trace a
  | call op next, trace => G trace op ∧ ∀ answer, (next answer).Obeys G Q (trace ++ [⟨op, answer⟩])

variable {G G' : List (Sigma A) → O → Prop} {Q Q' : List (Sigma A) → α → Prop}

theorem obeys_bind {f : α → Program O A β} {R : List (Sigma A) → β → Prop} : ∀ {m : Program O A α} {trace : List (Sigma A)},
    (m >>= f).Obeys G R trace ↔ m.Obeys G (fun trace a => (f a).Obeys G R trace) trace
  | done _, _ => Iff.rfl
  | call _ next, _ => and_congr_right fun _ => forall_congr' fun answer => obeys_bind (m := next answer)

theorem Obeys.mono (hG : ∀ trace op, G trace op → G' trace op) (hQ : ∀ trace a, Q trace a → Q' trace a) :
    ∀ {m : Program O A α} {trace : List (Sigma A)}, m.Obeys G Q trace → m.Obeys G' Q' trace
  | done _, _, h => hQ _ _ h
  | call _ _, _, h => ⟨hG _ _ h.1, fun answer => (h.2 answer).mono hG hQ⟩

theorem Only.obeys {P : O → Prop} : ∀ {m : Program O A α} {trace : List (Sigma A)}, m.Only P → (∀ c ∈ trace, P c.1) →
    m.Obeys (fun _ op => P op) (fun trace _ => ∀ c ∈ trace, P c.1) trace
  | done _, _, _, htrace => htrace
  | call op next, trace, h, htrace => by
    refine ⟨h.1, fun answer => (h.2 answer).obeys fun c hc => ?_⟩
    rcases List.mem_append.1 hc with hc | hc
    · exact htrace c hc
    · rw [List.mem_singleton.1 hc]
      exact h.1

/-- **What a program obeys holds wherever it is interrupted**: the rest obeys it, and so did every call before. -/
theorem Obeys.of_reaches {p q : Program O A α} {trace : List (Sigma A)} (h : p.Obeys G Q []) (hreach : p.Reaches trace q) :
    q.Obeys G Q trace ∧ ∀ before op answer after, trace = before ++ ⟨op, answer⟩ :: after → G before op := by
  induction hreach with
  | start =>
    refine ⟨h, fun before op answer after heq => ?_⟩
    exact absurd heq.symm (by simp)
  | step answer _ ih =>
    obtain ⟨hnow, hcalls⟩ := ih
    refine ⟨hnow.2 answer, fun before op' answer' after heq => ?_⟩
    rcases List.eq_nil_or_concat after with rfl | ⟨init, last, rfl⟩
    · obtain ⟨rfl, hlast⟩ := List.append_inj' heq rfl
      cases hlast
      exact hnow.1
    · rw [List.concat_eq_append, ← List.cons_append, ← List.append_assoc] at heq
      exact hcalls before op' answer' init (List.append_inj' heq rfl).1

end Program
end AsyncPrograms
