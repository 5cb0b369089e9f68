import NexusNet.FilePrograms
import NexusNet.Machine
import NexusNet.PqDelivery
import NexusNet.PqKeyFile
/-!
# Identity — the keys of a node over its starts

`KeyManager` of `identity.rs` and its use in `main.rs`: a start reads the keypair, or makes one and saves it if the file is
not there; reads the PQ keys; and makes and saves PQ keys if they are wanted and it has none.  Any file operation may fail,
and the process may end at any of them.

What a start can do to the two files is said once (`start_does`).  Over the starts of a node the keypair stays the same
(`keypair_stays`), the files are never half written (`whole_run`), and the PQ keys stay the same as long as no read of
their file fails (`pqKeys_stay`); a read that fails replaces them (`failed_read_replaces`).
-/
namespace NexusNet
namespace Identity

open FilePrograms Pq

/-- The files: `keypair.bin`, `keypair.pq.bin`, and beside each its `tmp`. -/
inductive KeyPath where
  | keypair
  | keypairTmp
  | pq
  | pqTmp
deriving DecidableEq

/-- `path.with_extension("tmp")`. -/
def KeyPath.temp : KeyPath → KeyPath
  | .keypair | .keypairTmp => .keypairTmp
  | .pq | .pqTmp => .pqTmp

abbrev Files : Type := Disk KeyPath Bytes

abbrev FileProgram : Type → Type := Program KeyPath Bytes

inductive KeyError where
  | read
  | parse
  | encode
  | save (e : SaveError)
deriving DecidableEq

/-- What is given: the protobuf encoding of keypairs, the algorithms, and how the node was built. -/
structure Setting where
  toProtobuf : Bytes → Option Bytes
  fromProtobuf : Bytes → Option Bytes
  protobuf : ∀ {keypair bytes}, toProtobuf keypair = some bytes → fromProtobuf bytes = some keypair
  crypto : Crypto
  correct : Correct crypto
  secretKeys : SecretKeys
  secretCorrect : secretKeys.Correct crypto
  overflowChecks : Bool

/-- What `PqKeys::generate` draws. -/
structure KeyDraw where
  kemSeed : Nat
  xSecret : Bytes
  xLength : xSecret.length = x25519Len
  dsaSeed : Nat

structure KeyManager where
  keypair : Bytes
  pqKeys : Option PqKeys
deriving DecidableEq

def atomicWrite (path : KeyPath) (data : Bytes) : FileProgram (Except SaveError Unit) := replaceFile path.temp path data

section Start

variable (N : Setting)

def KeyDraw.keys (draw : KeyDraw) : PqKeys := .generate N.crypto draw.kemSeed draw.xSecret draw.dsaSeed

def fromBytes (bytes : Bytes) : Option PqKeys :=
  (PqKeys.fromBytes N.crypto N.secretKeys N.overflowChecks bytes 0).ended.toOption

def loadPqKeys : FileProgram (Option PqKeys) := do
  match ← .readFile .pq with
  | .error _ => return none
  | .ok bytes => return fromBytes N bytes

def loadOrCreate (fresh : Bytes) : FileProgram (Except KeyError KeyManager) := do
  match ← .readFile .keypair with
  | .ok bytes =>
    match N.fromProtobuf bytes with
    | some keypair => return .ok ⟨keypair, ← loadPqKeys N⟩
    | none => return .error .parse
  | .error .notFound =>
    match N.toProtobuf fresh with
    | none => return .error .encode
    | some encoded =>
      match ← atomicWrite .keypair encoded with
      | .error e => return .error (.save e)
      | .ok _ => return .ok ⟨fresh, ← loadPqKeys N⟩
  | .error .other => return .error .read

def KeyManager.ensurePqKeys (manager : KeyManager) (draw : KeyDraw) : FileProgram (KeyManager × Except SaveError Unit) :=
  match manager.pqKeys with
  | some _ => return (manager, .ok ())
  | none => do
    match ← atomicWrite .pq (draw.keys N).toBytes with
    | .error e => return (manager, .error e)
    | .ok _ => return ({ manager with pqKeys := some (draw.keys N) }, .ok ())

/-- The start of `main`, as far as the keys go: that the PQ keys could not be saved is only logged. -/
def start (pqEnabled : Bool) (fresh : Bytes) (draw : KeyDraw) : FileProgram (Except KeyError KeyManager) := do
  match ← loadOrCreate N fresh with
  | .error e => return .error e
  | .ok manager =>
    match pqEnabled with
    | false => return .ok manager
    | true =>
      let (manager, _) ← manager.ensurePqKeys N draw
      return .ok manager

end Start

theorem fromBytes_keys (N : Setting) (draw : KeyDraw) : fromBytes N (draw.keys N).toBytes = some (draw.keys N) := by
  rw [fromBytes, KeyDraw.keys,
    fromBytes_generate N.correct N.secretCorrect N.overflowChecks draw.kemSeed draw.dsaSeed draw.xLength]
  rfl

/-! ## What the files hold -/

section Holds

variable {N : Setting} {files later : Files}

abbrev KeypairHolds (N : Setting) : Files → Bytes → Prop := Holds N.fromProtobuf .keypair

abbrev PqHolds (N : Setting) : Files → PqKeys → Prop := Holds (fromBytes N) .pq

/-- The PQ keys may not be found: their read may fail, or the file holds none. -/
def Unread (N : Setting) (mayFail : Op KeyPath → Prop) (files : Files) : Prop :=
  mayFail (.read .pq) ∨ ∀ keys, ¬ PqHolds N files keys

theorem Unread.congr {mayFail : Op KeyPath → Prop} (h : Unread N mayFail files) (hsame : later .pq = files .pq) :
    Unread N mayFail later :=
  h.imp_right (fun hnone keys hkeys => hnone keys (hkeys.congr hsame.symm))

end Holds

/-! ## What a start does to the files -/

section Keeps

open Program

variable {mayFail : Op KeyPath → Prop} {I : Files → Prop} {files before later : Files}

variable {N : Setting} {fresh : Bytes} {draw : KeyDraw}

theorem loadPqKeys_keeps (h : I files) : (loadPqKeys N).Keeps mayFail I (fun r d => d = files ∧
    (∀ keys, r = some keys → PqHolds N files keys) ∧ (r = none → Unread N mayFail files)) files := by
  refine Keeps.bind ⟨h, ⟨h, ?_⟩, fun hmay => ⟨h, h, rfl, nofun, fun _ => .inl hmay⟩⟩
  cases hfile : files .pq with
  | none =>
    rw [found_none hfile]
    refine ⟨h, rfl, nofun, fun _ => .inr ?_⟩
    rintro keys ⟨bytes, hbytes, -⟩
    cases hfile.symm.trans hbytes
  | some bytes =>
    rw [found_some hfile]
    refine ⟨h, rfl, fun keys hkeys => ⟨bytes, hfile, hkeys⟩, fun hnone => .inr ?_⟩
    rintro keys ⟨bytes', hbytes, hkeys⟩
    cases hfile.symm.trans hbytes
    cases hnone.symm.trans hkeys

/-- **What a start may have done to the files**: a keypair is written only where there was no file, PQ keys only where the
old ones may not have been found. -/
structure Did (N : Setting) (mayFail : Op KeyPath → Prop) (fresh : Bytes) (draw : KeyDraw) (before later : Files) : Prop where
  keypair : later .keypair = before .keypair ∨
    before .keypair = none ∧ ∃ encoded, N.toProtobuf fresh = some encoded ∧ later .keypair = some encoded
  pq : later .pq = before .pq ∨ Unread N mayFail before ∧ later .pq = some (draw.keys N).toBytes

theorem Did.congr (h : Did N mayFail fresh draw before files) (hkeypair : later .keypair = files .keypair)
    (hpq : later .pq = files .pq) : Did N mayFail fresh draw before later where
  keypair := hkeypair ▸ h.keypair
  pq := hpq ▸ h.pq

theorem Did.keypairHolds {keypair : Bytes} (h : Did N mayFail fresh draw before later)
    (hkeypair : KeypairHolds N before keypair) : KeypairHolds N later keypair := by
  obtain ⟨bytes, hbytes, hparse⟩ := hkeypair
  rcases h.keypair with hsame | ⟨habsent, -⟩
  · exact ⟨bytes, hsame.trans hbytes, hparse⟩
  · cases habsent.symm.trans hbytes

theorem Did.pqHolds {keys : PqKeys} (h : Did N mayFail fresh draw before later) (hread : ¬ mayFail (.read .pq))
    (hkeys : PqHolds N before keys) : PqHolds N later keys := by
  rcases h.pq with hsame | ⟨hunread, -⟩
  · exact hkeys.congr hsame
  · exact absurd hkeys (hunread.resolve_left hread keys)

/-- What a manager has found. -/
structure Loaded (N : Setting) (mayFail : Op KeyPath → Prop) (before : Files) (manager : KeyManager) (later : Files) :
    Prop where
  keypair : KeypairHolds N later manager.keypair
  pqKeys : ∀ keys, manager.pqKeys = some keys → PqHolds N later keys
  missing : manager.pqKeys = none → Unread N mayFail before

/-- What a start that ends with an error has met. -/
inductive Excused (N : Setting) (mayFail : Op KeyPath → Prop) (fresh : Bytes) (before : Files) : KeyError → Prop where
  | read (may : mayFail (.read .keypair)) : Excused N mayFail fresh before .read
  | parse (bytes : Bytes) (file : before .keypair = some bytes) (none : N.fromProtobuf bytes = none) :
      Excused N mayFail fresh before .parse
  | encode (none : N.toProtobuf fresh = none) : Excused N mayFail fresh before .encode
  | save (e : SaveError) (may : SaveMayFail mayFail .keypairTmp .keypair) : Excused N mayFail fresh before (.save e)

theorem loadOrCreate_keeps : (loadOrCreate N fresh).Keeps mayFail (Did N mayFail fresh draw before)
    (fun r d => (∀ manager, r = .ok manager → Loaded N mayFail before manager d) ∧
      ∀ e, r = .error e → Excused N mayFail fresh before e) before := by
  have hstart : Did N mayFail fresh draw before before := ⟨.inl rfl, .inl rfl⟩
  refine Keeps.bind ⟨hstart, ⟨hstart, ?_⟩, fun hmay => ⟨hstart, hstart, nofun, ?_⟩⟩
  swap
  · rintro e he
    cases he
    exact .read hmay
  cases hfile : before .keypair with
  | some bytes =>
    rw [found_some hfile]
    dsimp only
    cases hparse : N.fromProtobuf bytes with
    | none =>
      refine ⟨hstart, nofun, ?_⟩
      rintro e he
      cases he
      exact .parse bytes hfile hparse
    | some keypair =>
      refine Keeps.bind ((loadPqKeys_keeps hstart).mono (fun _ h => h) ?_)
      rintro pqKeys d hdid ⟨rfl, hfound, hmissing⟩
      refine ⟨hdid, fun manager hmanager => ?_, nofun⟩
      cases hmanager
      exact ⟨⟨bytes, hfile, hparse⟩, hfound, hmissing⟩
  | none =>
    rw [found_none hfile]
    dsimp only
    cases hencode : N.toProtobuf fresh with
    | none =>
      refine ⟨hstart, nofun, ?_⟩
      rintro e he
      cases he
      exact .encode hencode
    | some encoded =>
      -- The PQ file is not touched while the keypair is written.
      have hwrite : (atomicWrite .keypair encoded).Keeps mayFail
          (fun d => Did N mayFail fresh draw before d ∧ d .pq = before .pq)
          (fun r d => (∀ u, r = .ok u → d .keypair = some encoded) ∧ ∀ e, r = .error e → SaveMayFail mayFail .keypairTmp .keypair)
          before :=
        replaceFile_keeps (fun d left h => ⟨h.1.congr rfl rfl, h.2⟩)
          (fun d h => ⟨⟨.inr ⟨hfile, encoded, hencode, rfl⟩, h.1.pq⟩, h.2⟩) ⟨hstart, rfl⟩
      refine Keeps.bind (hwrite.mono (fun _ h => h.1) ?_)
      rintro (e | u) d ⟨hdid, hsame⟩ ⟨hwritten, hfailed⟩
      · refine ⟨hdid, nofun, ?_⟩
        rintro e' he
        cases he
        exact .save e (hfailed e rfl)
      · refine Keeps.bind ((loadPqKeys_keeps hdid).mono (fun _ h => h) ?_)
        rintro pqKeys d hdid ⟨rfl, hfound, hmissing⟩
        refine ⟨hdid, fun manager hmanager => ?_, nofun⟩
        cases hmanager
        exact ⟨⟨encoded, hwritten u rfl, N.protobuf hencode⟩, hfound, fun hnone => (hmissing hnone).congr hsame.symm⟩

theorem ensurePqKeys_keeps {manager : KeyManager} (htemp : ∀ d left, I d → I (Function.update d .pqTmp left))
    (hnew : manager.pqKeys = none → ∀ d, I d → I (Function.update d .pq (some (draw.keys N).toBytes))) (h : I files) :
    (manager.ensurePqKeys N draw).Keeps mayFail I (fun r d =>
      r.1 = manager ∧ (manager.pqKeys = none → SaveMayFail mayFail .pqTmp .pq) ∨
        r.1 = { manager with pqKeys := some (draw.keys N) } ∧ d .pq = some (draw.keys N).toBytes) files := by
  rw [KeyManager.ensurePqKeys]
  cases hkeys : manager.pqKeys with
  | some keys => exact ⟨h, .inl ⟨rfl, nofun⟩⟩
  | none =>
    refine Keeps.bind ((replaceFile_keeps htemp (hnew hkeys) h).mono (fun _ h => h) ?_)
    rintro (e | u) d hd ⟨hwritten, hfailed⟩
    · exact ⟨hd, .inl ⟨rfl, fun _ => hfailed e rfl⟩⟩
    · exact ⟨hd, .inr ⟨rfl, hwritten u rfl⟩⟩

/-- **What a start does to the files and finds in them.** -/
theorem start_does (pqEnabled : Bool) :
    (start N pqEnabled fresh draw).Keeps mayFail (Did N mayFail fresh draw before)
      (fun r d => (∀ manager, r = .ok manager → Loaded N mayFail before manager d ∧
          (pqEnabled = true → manager.pqKeys = none → SaveMayFail mayFail .pqTmp .pq)) ∧
        ∀ e, r = .error e → Excused N mayFail fresh before e) before := by
  refine Keeps.bind (loadOrCreate_keeps.mono (fun _ h => h) ?_)
  rintro (e | manager) d hdid ⟨hloaded, hexcused⟩
  · exact ⟨hdid, nofun, fun e' he => Except.error.inj he ▸ hexcused e rfl⟩
  · cases pqEnabled with
    | false => exact ⟨hdid, fun _ hm => Except.ok.inj hm ▸ ⟨hloaded manager rfl, nofun⟩, nofun⟩
    | true =>
      have hensure : (manager.ensurePqKeys N draw).Keeps mayFail
          (fun d => Did N mayFail fresh draw before d ∧ Loaded N mayFail before manager d)
          (fun r d => r.1 = manager ∧ (manager.pqKeys = none → SaveMayFail mayFail .pqTmp .pq) ∨
            r.1 = { manager with pqKeys := some (draw.keys N) } ∧ d .pq = some (draw.keys N).toBytes) d := by
        refine ensurePqKeys_keeps (fun d left h => ⟨h.1.congr rfl rfl, ?_⟩) (fun hnone d h => ⟨⟨h.1.keypair, ?_⟩, ?_⟩)
          ⟨hdid, hloaded manager rfl⟩
        · exact ⟨h.2.keypair, fun keys hkeys => (h.2.pqKeys keys hkeys).congr rfl, h.2.missing⟩
        · exact .inr ⟨h.2.missing hnone, rfl⟩
        · refine ⟨h.2.keypair, fun keys hkeys => ?_, h.2.missing⟩
          cases hnone.symm.trans hkeys
      refine Keeps.bind (hensure.mono (fun _ h => h.1) ?_)
      rintro ⟨manager', r⟩ d ⟨hdid, hloaded⟩ (⟨rfl, hfailed⟩ | ⟨rfl, hwritten⟩)
      · exact ⟨hdid, fun _ hm => Except.ok.inj hm ▸ ⟨hloaded, fun _ => hfailed⟩, nofun⟩
      · refine ⟨hdid, fun _ hm => Except.ok.inj hm ▸ ⟨⟨hloaded.keypair, fun keys hkeys => ?_, nofun⟩, nofun⟩, nofun⟩
        obtain rfl := Option.some.inj hkeys
        exact ⟨_, hwritten, fromBytes_keys N draw⟩

end Keeps

/-! ## The starts of a node -/

/-- A start: what becomes of its file operations, what is configured, and what it would draw. -/
structure Start where
  fates : Nat → Op KeyPath → Fate Bytes
  pqEnabled : Bool
  fresh : Bytes
  draw : KeyDraw

/-- No read of the PQ file fails. -/
def Start.ReadsPq (e : Start) : Prop := ∀ n left, e.fates n (.read .pq) ≠ .fails left

variable (N : Setting)

def boot (files : Files) (e : Start) : Option (Except KeyError KeyManager) × Files :=
  Program.exec e.fates 0 (start N e.pqEnabled e.fresh e.draw) files

def life (files : Files) : Machine Files Start where
  init := files
  step d e := some (boot N d e).2

/-- The manager of a start that came up. -/
def cameUp (files : Files) (e : Start) : Option KeyManager := (boot N files e).1.bind Except.toOption

/-- The keypairs of the starts that came up. -/
def keypairs (files : Files) (es : List Start) : List Bytes :=
  (life N files).outputs (fun d e => ((cameUp N d e).map KeyManager.keypair).toList) files es

/-- The PQ keys of the starts that came up with some. -/
def pqKeys (files : Files) (es : List Start) : List PqKeys :=
  (life N files).outputs (fun d e => ((cameUp N d e).bind KeyManager.pqKeys).toList) files es

variable {N}

theorem boot_does (mayFail : Op KeyPath → Prop) {e : Start} (hfates : ∀ n op left, e.fates n op = .fails left → mayFail op)
    (files : Files) : Did N mayFail e.fresh e.draw files (boot N files e).2 ∧
    (∀ manager, cameUp N files e = some manager → Loaded N mayFail files manager (boot N files e).2 ∧
      (e.pqEnabled = true → manager.pqKeys = none → SaveMayFail mayFail .pqTmp .pq)) ∧
    ∀ error, (boot N files e).1 = some (.error error) → Excused N mayFail e.fresh files error := by
  obtain ⟨hdid, hend⟩ := Program.exec_keeps hfates _ 0 files (start_does e.pqEnabled)
  refine ⟨hdid, fun manager hmanager => ?_, fun error herror => (hend _ herror).2 error rfl⟩
  obtain ⟨r, hr, hok⟩ := Option.bind_eq_some_iff.1 hmanager
  cases r with
  | error e => cases hok
  | ok m =>
    obtain rfl := Option.some.inj hok
    exact (hend _ hr).1 m rfl

/-- **What a file holds stays**: where each start keeps it and leaves what it comes up with, all come up with the same. -/
theorem stays {K : Type} (decode : Bytes → Option K) (path : KeyPath) {value : Files → Start → Option K} {ok : Start → Prop}
    (hkept : ∀ e d, ok e → (∀ a, Holds decode path d a → Holds decode path (boot N d e).2 a) ∧
      ∀ a, value d e = some a → Holds decode path (boot N d e).2 a)
    {files : Files} {es : List Start} (hok : ∀ e ∈ es, ok e) {a b : K}
    (ha : a ∈ (life N files).outputs (fun d e => (value d e).toList) files es)
    (hb : b ∈ (life N files).outputs (fun d e => (value d e).toList) files es) : a = b := by
  refine (life N files).outputs_agree (Holds decode path) ?_ ?_ ?_ ((life N files).meets_of_forall hok files) ha hb
  · rintro d e d' a he hstep ha
    obtain rfl := Option.some.inj hstep
    exact (hkept e d he).1 a ha
  · exact fun d e a b he ha hb => ((hkept e d he).2 b hb).unique ((hkept e d he).1 a ha)
  · rintro d e d' a he hstep ha
    obtain rfl := Option.some.inj hstep
    exact (hkept e d he).2 a ha

/-- The keypair of a node stays the same, whatever fails. -/
theorem keypair_stays {files : Files} {es : List Start} {a b : Bytes} (ha : a ∈ keypairs N files es)
    (hb : b ∈ keypairs N files es) : a = b := by
  refine stays N.fromProtobuf .keypair (fun e d _ => ?_) (fun _ _ => trivial) ha hb
  obtain ⟨hdid, hloaded, -⟩ := boot_does (N := N) (fun _ => True) (e := e) (fun _ _ _ _ => trivial) d
  refine ⟨fun a ha => hdid.keypairHolds ha, fun a ha => ?_⟩
  obtain ⟨manager, hmanager, rfl⟩ := Option.map_eq_some_iff.1 ha
  exact (hloaded manager hmanager).1.keypair

/-- The PQ keys stay the same as long as no read of their file fails. -/
theorem pqKeys_stay {files : Files} {es : List Start} (hreads : ∀ e ∈ es, e.ReadsPq) {a b : PqKeys}
    (ha : a ∈ pqKeys N files es) (hb : b ∈ pqKeys N files es) : a = b := by
  refine stays (fromBytes N) .pq (fun e d he => ?_) hreads ha hb
  obtain ⟨hdid, hloaded, -⟩ := boot_does (N := N) (· ≠ .read .pq) (e := e) (fun n op left hfails hop => by
    subst hop
    exact he n left hfails) d
  refine ⟨fun a ha => hdid.pqHolds (not_not_intro rfl) ha, fun a ha => ?_⟩
  obtain ⟨manager, hmanager, hkeys⟩ := Option.bind_eq_some_iff.1 ha
  exact (hloaded manager hmanager).1.pqKeys a hkeys

/-- What was written was written whole. -/
structure Whole (N : Setting) (files : Files) : Prop where
  keypair : ∀ bytes, files .keypair = some bytes → ∃ keypair, N.fromProtobuf bytes = some keypair
  pq : ∀ bytes, files .pq = some bytes → ∃ keys, fromBytes N bytes = some keys

theorem Whole.booted {files : Files} (h : Whole N files) (e : Start) : Whole N (boot N files e).2 := by
  obtain ⟨⟨hkeypair, hpq⟩, -⟩ := boot_does (N := N) (fun _ => True) (e := e) (fun _ _ _ _ => trivial) files
  refine ⟨fun bytes hbytes => ?_, fun bytes hbytes => ?_⟩
  · rcases hkeypair with hsame | ⟨-, encoded, hencoded, hwritten⟩
    · exact h.keypair bytes (hsame.symm.trans hbytes)
    · cases hwritten.symm.trans hbytes
      exact ⟨_, N.protobuf hencoded⟩
  · rcases hpq with hsame | ⟨-, hwritten⟩
    · exact h.pq bytes (hsame.symm.trans hbytes)
    · cases hwritten.symm.trans hbytes
      exact ⟨_, fromBytes_keys N e.draw⟩

theorem whole_run {files later : Files} (h : Whole N files) {es : List Start}
    (hrun : (life N files).runFrom files es = some later) : Whole N later := by
  refine (life N files).invariant_from ?_ es files later h ((life N files).meets_true es files) hrun
  rintro d e d' hd - hstep
  obtain rfl := Option.some.inj hstep
  exact hd.booted e

/-- A start of which nothing fails comes up, with PQ keys if they are wanted. -/
theorem Whole.comes_up {files : Files} (h : Whole N files) {e : Start} (hworks : ∀ n op, e.fates n op = .works)
    (hencodes : N.toProtobuf e.fresh ≠ none) :
    ∃ manager, cameUp N files e = some manager ∧ (e.pqEnabled = true → manager.pqKeys ≠ none) := by
  have hfails : ∀ n op left, e.fates n op = .fails left → False := fun n op left h => by
    cases (hworks n op).symm.trans h
  have hlives : ∀ n op left, e.fates n op ≠ .dies left := fun n op left h => by
    cases (hworks n op).symm.trans h
  obtain ⟨-, hloaded, hexcused⟩ := boot_does (N := N) (fun _ => False) hfails files
  obtain ⟨r, hr⟩ := Option.isSome_iff_exists.1
    (Program.exec_isSome hlives (start N e.pqEnabled e.fresh e.draw) 0 files)
  cases r with
  | error error =>
    cases hexcused error hr with
    | read may => exact may.elim
    | parse bytes file none =>
      obtain ⟨keypair, hkeypair⟩ := h.keypair bytes file
      cases none.symm.trans hkeypair
    | encode none => exact absurd none hencodes
    | save e may => exact (or_self_iff.1 may).elim
  | ok manager =>
    have hup : cameUp N files e = some manager := by
      rw [cameUp, boot, hr]
      rfl
    exact ⟨manager, hup, fun hpq hnone => or_self_iff.1 ((hloaded manager hup).2 hpq hnone)⟩

/-- **A node keeps its identity.**  Over any starts of a node, whatever fails in them and wherever their processes end: all
starts that come up have the same keypair; they have the same PQ keys, as long as no read of their file fails; and files that
can be read at first are never half written, and a start of which nothing fails comes up. -/
theorem identity_stays (N : Setting) (files : Files) (es : List Start) :
    (∀ a ∈ keypairs N files es, ∀ b ∈ keypairs N files es, a = b) ∧
    ((∀ e ∈ es, e.ReadsPq) → ∀ a ∈ pqKeys N files es, ∀ b ∈ pqKeys N files es, a = b) ∧
    (Whole N files → ∀ later, (life N files).runFrom files es = some later → Whole N later ∧
      ∀ e : Start, (∀ n op, e.fates n op = .works) → N.toProtobuf e.fresh ≠ none →
        ∃ manager, cameUp N later e = some manager ∧ (e.pqEnabled = true → manager.pqKeys ≠ none)) :=
  ⟨fun _ ha _ hb => keypair_stays ha hb, fun hreads _ ha _ hb => pqKeys_stay hreads ha hb,
    fun hwhole _ hrun => ⟨whole_run hwhole hrun, fun _ hworks hencodes => (whole_run hwhole hrun).comes_up hworks hencodes⟩⟩

/-- Keypairs are their own encoding, and the algorithms are the constant ones. -/
def plainSetting : Setting where
  toProtobuf := some
  fromProtobuf := some
  protobuf h := h.symm
  crypto := plainCrypto
  correct := plainCrypto_correct
  secretKeys := ⟨fun _ => true, fun _ => true⟩
  secretCorrect := {
    kemDk := fun _ => rfl
    sigSk := fun _ => rfl
    kemShort := fun _ => by simp [plainCrypto]
    dsaShort := fun _ => by simp [plainCrypto] }
  overflowChecks := true

/-- A start without PQ keys. -/
def plainStart (fates : Nat → Op KeyPath → Fate Bytes) (fresh : Bytes) : Start :=
  ⟨fates, false, fresh, ⟨0, zeros x25519Len, length_zeros _, 0⟩⟩

/-- A process that dies before its new keypair has its name, one that lives, and one that would draw another keypair. -/
def threeStarts : List Start :=
  [plainStart (fun _ op => if op = .rename .keypairTmp .keypair then .dies none else .works) [1],
    plainStart (fun _ _ => .works) [2], plainStart (fun _ _ => .works) [3]]

theorem second_keypair_stays : keypairs plainSetting (fun _ => none) threeStarts = [[2], [2]] ∧
    (∀ a ∈ keypairs plainSetting (fun _ => none) threeStarts, ∀ b ∈ keypairs plainSetting (fun _ => none) threeStarts,
      a = b) ∧ ∃ later, (life plainSetting (fun _ => none)).runFrom (fun _ => none) threeStarts = some later ∧
        Whole plainSetting later := by
  obtain ⟨hsame, -, hlater⟩ := identity_stays plainSetting (fun _ => none) threeStarts
  exact ⟨by decide +kernel, hsame, _, rfl, (hlater ⟨nofun, nofun⟩ _ rfl).1⟩

/-- The fates of a start of which only the reads of the PQ file fail. -/
def failingPqReads (_ : Nat) (op : Op KeyPath) : Fate Bytes := if op = .read .pq then .fails none else .works

/-- **A read of the PQ file that fails loses the PQ keys**, also if the file is in order: the start makes new ones and
writes them over the old. -/
theorem failed_read_replaces {files : Files} {keypair : Bytes} (h : KeypairHolds N files keypair) (fresh : Bytes)
    (draw : KeyDraw) : (boot N files ⟨failingPqReads, true, fresh, draw⟩).1 = some (.ok ⟨keypair, some (draw.keys N)⟩) ∧
      PqHolds N (boot N files ⟨failingPqReads, true, fresh, draw⟩).2 (draw.keys N) := by
  obtain ⟨bytes, hbytes, hparse⟩ := h
  have hrun : boot N files ⟨failingPqReads, true, fresh, draw⟩ = (some (.ok ⟨keypair, some (draw.keys N)⟩),
      Function.update (Function.update (Function.update files .pqTmp (some (draw.keys N).toBytes)) .pqTmp none) .pq
        (some (draw.keys N).toBytes)) := by
    simp only [boot, start, loadOrCreate, Bind.bind, Program.readFile, Program.bind, Program.exec, failingPqReads,
      Program.found_some hbytes, hparse, reduceCtorEq, Op.read.injEq, if_false]
    rfl
  rw [hrun]
  exact ⟨rfl, _, rfl, fromBytes_keys N draw⟩

end Identity
end NexusNet
