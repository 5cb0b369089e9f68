import Mathlib.Data.List.Basic
import Mathlib.Logic.Function.Basic
/-!
# FilePrograms — programs over files that may fail or be cut off

A program looks for, reads, writes, renames and removes files.  Every operation may work, fail, or be the last one of the
process; a write that does not work leaves anything in its file, a rename takes place or does not.

`Keeps` is for the programs that keep an invariant of the disk at every moment, so that it holds wherever the process ends,
and a postcondition if they come to their end (`exec_keeps`).
-/
namespace FilePrograms

variable {P C α γ : Type}

/-- The contents of the files; `none` is a file that is not there. -/
abbrev Disk (P C : Type) : Type := P → Option C

/-- The file holds `a`, as `decode` reads it. -/
def Holds (decode : C → Option α) (path : P) (disk : Disk P C) (a : α) : Prop :=
  ∃ content, disk path = some content ∧ decode content = some a

section Holds

variable {decode : C → Option α} {path : P} {disk later : Disk P C} {a b : α}

theorem Holds.unique (ha : Holds decode path disk a) (hb : Holds decode path disk b) : a = b := by
  obtain ⟨content, hcontent, ha⟩ := ha
  obtain ⟨content', hcontent', hb⟩ := hb
  cases hcontent.symm.trans hcontent'
  exact Option.some.inj (ha.symm.trans hb)

theorem Holds.congr (h : Holds decode path disk a) (hsame : later path = disk path) : Holds decode path later a := by
  obtain ⟨content, hcontent, ha⟩ := h
  exact ⟨content, hsame.trans hcontent, ha⟩

end Holds

inductive ReadError where
  | notFound
  | other
deriving DecidableEq

inductive Op (P : Type) where
  | probe (path : P)
  | read (path : P)
  | write (path : P)
  | rename (source target : P)
  | remove (path : P)
deriving DecidableEq

/-- What becomes of an operation; `left` is what a write leaves. -/
inductive Fate (C : Type) where
  | works
  | fails (left : Option C)
  | dies (left : Option C)
deriving DecidableEq

inductive Program (P C α : Type) where
  | done (a : α)
  | probe (path : P) (next : Bool → Program P C α)
  | read (path : P) (next : Except ReadError C → Program P C α)
  | write (path : P) (content : C) (next : Bool → Program P C α)
  | rename (source target : P) (next : Bool → Program P C α)
  | remove (path : P) (next : Bool → Program P C α)

namespace Program

protected def bind (f : α → Program P C γ) : Program P C α → Program P C γ
  | done a => f a
  | probe path next => probe path (fun answer => (next answer).bind f)
  | read path next => read path (fun answer => (next answer).bind f)
  | write path content next => write path content (fun answer => (next answer).bind f)
  | rename source target next => rename source target (fun answer => (next answer).bind f)
  | remove path next => remove path (fun answer => (next answer).bind f)

instance : Monad (Program P C) where
  pure := done
  bind m f := m.bind f

/-- Whether the file is there; a failure counts as no. -/
def probeFile (path : P) : Program P C Bool := probe path done

def readFile (path : P) : Program P C (Except ReadError C) := read path done

def writeFile (path : P) (content : C) : Program P C Bool := write path content done

def renameFile (source target : P) : Program P C Bool := rename source target done

def removeFile (path : P) : Program P C Bool := remove path done

/-- A read of a file as it is. -/
def found (disk : Disk P C) (path : P) : Except ReadError C := (disk path).elim (.error .notFound) .ok

theorem found_some {disk : Disk P C} {path : P} {content : C} (h : disk path = some content) :
    found disk path = .ok content := by
  rw [found, h, Option.elim_some]

theorem found_none {disk : Disk P C} {path : P} (h : disk path = none) : found disk path = .error .notFound := by
  rw [found, h, Option.elim_none]

variable [DecidableEq P]

/-- Runs the program; `fates n op` is the fate of `op` as the `n`-th operation.  There is no result if the process dies. -/
def exec (fates : Nat → Op P → Fate C) : Nat → Program P C α → Disk P C → Option α × Disk P C
  | _, done a, disk => (some a, disk)
  | n, probe path next, disk =>
    match fates n (.probe path) with
    | .works => exec fates (n + 1) (next (disk path).isSome) disk
    | .fails _ => exec fates (n + 1) (next false) disk
    | .dies _ => (none, disk)
  | n, read path next, disk =>
    match fates n (.read path) with
    | .works => exec fates (n + 1) (next (found disk path)) disk
    | .fails _ => exec fates (n + 1) (next (.error .other)) disk
    | .dies _ => (none, disk)
  | n, write path content next, disk =>
    match fates n (.write path) with
    | .works => exec fates (n + 1) (next true) (Function.update disk path (some content))
    | .fails left => exec fates (n + 1) (next false) (Function.update disk path left)
    | .dies left => (none, Function.update disk path left)
  | n, rename source target next, disk =>
    match fates n (.rename source target), disk source with
    | .works, some content =>
      exec fates (n + 1) (next true) (Function.update (Function.update disk source none) target (some content))
    | .works, none => exec fates (n + 1) (next false) disk
    | .fails _, _ => exec fates (n + 1) (next false) disk
    | .dies _, _ => (none, disk)
  | n, remove path next, disk =>
    match fates n (.remove path) with
    | .works => exec fates (n + 1) (next true) (Function.update disk path none)
    | .fails _ => exec fates (n + 1) (next false) disk
    | .dies _ => (none, disk)

/-- **The program keeps `I` at every moment, and ends in `Q`**, where only operations in `mayFail` fail. -/
def Keeps (mayFail : Op P → Prop) (I : Disk P C → Prop) (Q : α → Disk P C → Prop) : Program P C α → Disk P C → Prop
  | done a, disk => I disk ∧ Q a disk
  | probe path next, disk => I disk ∧ (next (disk path).isSome).Keeps mayFail I Q disk ∧
      (mayFail (.probe path) → (next false).Keeps mayFail I Q disk)
  | read path next, disk => I disk ∧ (next (found disk path)).Keeps mayFail I Q disk ∧
      (mayFail (.read path) → (next (.error .other)).Keeps mayFail I Q disk)
  | write path content next, disk => I disk ∧ (∀ left, I (Function.update disk path left)) ∧
      (next true).Keeps mayFail I Q (Function.update disk path (some content)) ∧
      (mayFail (.write path) → ∀ left, (next false).Keeps mayFail I Q (Function.update disk path left))
  | rename source target next, disk => I disk ∧
      (∀ content, disk source = some content →
        (next true).Keeps mayFail I Q (Function.update (Function.update disk source none) target (some content))) ∧
      (mayFail (.rename source target) ∨ disk source = none → (next false).Keeps mayFail I Q disk)
  | remove path next, disk => I disk ∧ (next true).Keeps mayFail I Q (Function.update disk path none) ∧
      (mayFail (.remove path) → (next false).Keeps mayFail I Q disk)

variable {mayFail : Op P → Prop} {I : Disk P C → Prop} {Q : α → Disk P C → Prop}

/-- **A program that keeps `I` leaves it however it ends.** -/
theorem exec_keeps {fates : Nat → Op P → Fate C} (hfates : ∀ n op left, fates n op = .fails left → mayFail op)
    (m : Program P C α) : ∀ (n : Nat) (disk : Disk P C), m.Keeps mayFail I Q disk →
      I (exec fates n m disk).2 ∧ ∀ a, (exec fates n m disk).1 = some a → Q a (exec fates n m disk).2 := by
  induction m with
  | done a => exact fun n disk h => ⟨h.1, fun b hb => Option.some.inj hb ▸ h.2⟩
  | probe _ _ ih | read _ _ ih | remove _ _ ih =>
    rintro n disk ⟨hnow, hworks, hfails⟩
    rw [exec]
    split
    · exact ih _ _ _ hworks
    · rename_i left hfate
      exact ih _ _ _ (hfails (hfates n _ left hfate))
    · exact ⟨hnow, nofun⟩
  | write path content next ih =>
    rintro n disk ⟨hnow, htorn, hworks, hfails⟩
    rw [exec]
    split
    · exact ih _ _ _ hworks
    · rename_i left hfate
      exact ih _ _ _ (hfails (hfates n _ left hfate) left)
    · exact ⟨htorn _, nofun⟩
  | rename source target next ih =>
    rintro n disk ⟨hnow, hworks, hfails⟩
    rw [exec]
    split
    · rename_i hsource
      exact ih _ _ _ (hworks _ hsource)
    · rename_i hsource
      exact ih _ _ _ (hfails (.inr hsource))
    · rename_i left hfate
      exact ih _ _ _ (hfails (.inl (hfates n _ left hfate)))
    · exact ⟨hnow, nofun⟩

/-- A program has a result unless the process dies. -/
theorem exec_isSome {fates : Nat → Op P → Fate C} (hlives : ∀ n op left, fates n op ≠ .dies left) (m : Program P C α) :
    ∀ (n : Nat) (disk : Disk P C), (exec fates n m disk).1.isSome = true := by
  induction m with
  | done a => exact fun _ _ => rfl
  | probe _ _ ih | read _ _ ih | remove _ _ ih | write _ _ _ ih =>
    intro n disk
    rw [exec]
    split
    · exact ih _ _ _
    · exact ih _ _ _
    · exact absurd ‹_› (hlives n _ _)
  | rename source target next ih =>
    intro n disk
    rw [exec]
    split
    · exact ih _ _ _
    · exact ih _ _ _
    · exact ih _ _ _
    · exact absurd ‹_› (hlives n _ _)

theorem Keeps.bind {f : α → Program P C γ} {R : γ → Disk P C → Prop} : ∀ {m : Program P C α} {disk : Disk P C},
    m.Keeps mayFail I (fun a disk' => (f a).Keeps mayFail I R disk') disk → (m >>= f).Keeps mayFail I R disk
  | done _, _, h => h.2
  | probe _ _, _, ⟨hnow, hworks, hfails⟩ => ⟨hnow, Keeps.bind hworks, fun hmay => Keeps.bind (hfails hmay)⟩
  | read _ _, _, ⟨hnow, hworks, hfails⟩ => ⟨hnow, Keeps.bind hworks, fun hmay => Keeps.bind (hfails hmay)⟩
  | write _ _ _, _, ⟨hnow, htorn, hworks, hfails⟩ =>
    ⟨hnow, htorn, Keeps.bind hworks, fun hmay left => Keeps.bind (hfails hmay left)⟩
  | rename _ _ _, _, ⟨hnow, hworks, hfails⟩ =>
    ⟨hnow, fun content hsource => Keeps.bind (hworks content hsource), fun hmay => Keeps.bind (hfails hmay)⟩
  | remove _ _, _, ⟨hnow, hworks, hfails⟩ => ⟨hnow, Keeps.bind hworks, fun hmay => Keeps.bind (hfails hmay)⟩

theorem Keeps.mono {I' : Disk P C → Prop} {Q' : α → Disk P C → Prop} (hI : ∀ disk, I disk → I' disk)
    (hQ : ∀ a disk, I disk → Q a disk → Q' a disk) :
    ∀ {m : Program P C α} {disk : Disk P C}, m.Keeps mayFail I Q disk → m.Keeps mayFail I' Q' disk
  | done _, _, ⟨hnow, hend⟩ => ⟨hI _ hnow, hQ _ _ hnow hend⟩
  | probe _ _, _, ⟨hnow, hworks, hfails⟩ =>
    ⟨hI _ hnow, Keeps.mono hI hQ hworks, fun hmay => Keeps.mono hI hQ (hfails hmay)⟩
  | read _ _, _, ⟨hnow, hworks, hfails⟩ =>
    ⟨hI _ hnow, Keeps.mono hI hQ hworks, fun hmay => Keeps.mono hI hQ (hfails hmay)⟩
  | write _ _ _, _, ⟨hnow, htorn, hworks, hfails⟩ =>
    ⟨hI _ hnow, fun left => hI _ (htorn left), Keeps.mono hI hQ hworks,
      fun hmay left => Keeps.mono hI hQ (hfails hmay left)⟩
  | rename _ _ _, _, ⟨hnow, hworks, hfails⟩ =>
    ⟨hI _ hnow, fun content hsource => Keeps.mono hI hQ (hworks content hsource),
      fun hmay => Keeps.mono hI hQ (hfails hmay)⟩
  | remove _ _, _, ⟨hnow, hworks, hfails⟩ =>
    ⟨hI _ hnow, Keeps.mono hI hQ hworks, fun hmay => Keeps.mono hI hQ (hfails hmay)⟩

end Program

/-! ## Replacing a file -/

inductive SaveError where
  | write
  | rename
deriving DecidableEq

/-- Writes a temporary file and renames it. -/
def replaceFile (temp path : P) (content : C) : Program P C (Except SaveError Unit) := do
  match ← .writeFile temp content with
  | false => return .error .write
  | true =>
    match ← .renameFile temp path with
    | true => return .ok ()
    | false =>
      let _ ← .removeFile temp
      return .error .rename

/-- A file may fail to be replaced. -/
def SaveMayFail (mayFail : Op P → Prop) (temp path : P) : Prop := mayFail (.write temp) ∨ mayFail (.rename temp path)

open Program in
/-- **The file is replaced whole or not at all**: what does not depend on the temporary file and is kept by the new content
is kept at every moment. -/
theorem replaceFile_keeps [DecidableEq P] {mayFail : Op P → Prop} {I : Disk P C → Prop} {temp path : P} {content : C}
    {disk : Disk P C} (htemp : ∀ d left, I d → I (Function.update d temp left))
    (hnew : ∀ d, I d → I (Function.update d path (some content))) (h : I disk) :
    (replaceFile temp path content).Keeps mayFail I (fun r d => (∀ u, r = .ok u → d path = some content) ∧
      ∀ e, r = .error e → SaveMayFail mayFail temp path) disk := by
  refine Keeps.bind ⟨h, fun left => htemp _ left h, ⟨htemp _ _ h, ?_⟩,
    fun hmay left => ⟨htemp _ _ h, htemp _ _ h, nofun, fun _ _ => .inl hmay⟩⟩
  have hwritten := htemp _ (some content) h
  refine Keeps.bind ⟨hwritten, fun found hfound => ?_, fun hmay => ⟨hwritten, ?_⟩⟩
  · rw [Function.update_self] at hfound
    obtain rfl := Option.some.inj hfound
    have hrenamed := hnew _ (htemp _ none hwritten)
    exact ⟨hrenamed, hrenamed, fun _ _ => Function.update_self _ _ _, nofun⟩
  · have hremoved := htemp _ none hwritten
    have hmay : SaveMayFail mayFail temp path := by
      rcases hmay with hmay | habsent
      · exact .inr hmay
      · rw [Function.update_self] at habsent
        cases habsent
    exact Keeps.bind ⟨hwritten, ⟨hremoved, hremoved, nofun, fun _ _ => hmay⟩,
      fun _ => ⟨hwritten, hwritten, nofun, fun _ _ => hmay⟩⟩

end FilePrograms
