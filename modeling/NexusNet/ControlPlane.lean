import NexusNet.Control
import NexusNet.Peers
/-!
# ControlPlane — the controller and its commands

The part of `NodeController` that takes control commands: `dispatch_command` hands a command to a worker task if it gets one
of the permits, or runs it itself, and then takes no other event until it is done.  The commands are programs (`Control`);
they move one call at a time, in any order, with any answers.

The account of a command (`Account`) says where it is: it runs, or has been answered once, and the calls it has made are
those of its program.  What every command obeys then holds in every run, however the commands are interleaved.
-/
namespace NexusNet
namespace Control

open AsyncPrograms (Program)
open Command (Node SendOutcome)
open Command.DhtWorker (isWritableKey startsWith)
open Sidecar (Message)

/-! ## The controller -/

/-- What stays the same for a node. -/
structure Site where
  myPeerId : Command.PeerId
  parsePeer : String → Except String Command.PeerId
  lossy : Bytes → String
  forms : ConfigFile.TextForms
  maxInflightDht : Nat

def Site.node (site : Site) (peers : Peers.PeerTracker) : Node :=
  ⟨site.myPeerId, peers.forCommands, site.parsePeer, site.lossy⟩

/-- The permits of the semaphore. -/
def Site.permits (site : Site) : Nat := min (max site.maxInflightDht 1) 16

/-- The commands that run are known by their reply channels.  A worker that has replied gives its permit back a moment
later (`releasing`). -/
structure Controller where
  running : Dict Nat (Cmd (Except String Bytes))
  inline : Option Nat
  releasing : Finset Nat
  permits : Nat
  received : Finset Nat
  peers : Peers.PeerTracker
  ended : Bool

inductive Event where
  | command (n : Nat) (msg : Message) (maxRecordBytes : UInt64)
  | turn (n : Nat) (answers : (op : Op) → op.Answer)
  | reply (n : Nat)
  | release (n : Nat)
  | ping (ping : Peers.Ping) (maxFailures : UInt32)
  | shutdown

inductive Effect where
  | called (n : Nat) (call : Sigma Op.Answer)
  | replied (n : Nat) (result : Except String Bytes)
  | disconnect (peer : Command.PeerId)

def busy : Except String Bytes := .error "node busy: too many DHT commands"

namespace Controller

def new (site : Site) : Controller := ⟨∅, none, ∅, site.permits, ∅, .new site.myPeerId, false⟩

/-- The loop of the controller is at its `select!`. -/
def idle (s : Controller) : Bool := !s.ended && s.inline.isNone

def dispatchCommand (site : Site) (s : Controller) (n : Nat) (msg : Message) (maxRecordBytes : UInt64) :
    Controller × List Effect :=
  let started := s.running.insert n (program (site.node s.peers) site.forms maxRecordBytes msg)
  if canRunInDhtWorker msg then
    if s.permits = 0 then ({ s with received := insert n s.received }, [.replied n busy])
    else ({ s with received := insert n s.received, running := started, permits := s.permits - 1 }, [])
  else ({ s with received := insert n s.received, running := started, inline := some n }, [])

def handle (site : Site) (s : Controller) : Event → Option (Controller × List Effect)
  | .command n msg maxRecordBytes =>
    if s.idle && decide (n ∉ s.received) then some (s.dispatchCommand site n msg maxRecordBytes) else none
  | .turn n answers =>
    (s.running.lookup n).bind (fun p => (p.turn answers).map
      (fun (call, q) => ({ s with running := s.running.insert n q }, [.called n call])))
  | .reply n =>
    (s.running.lookup n).bind (fun p => p.result.map (fun result =>
      (if s.inline = some n then { s with running := s.running.erase n, inline := none }
        else { s with running := s.running.erase n, releasing := insert n s.releasing }, [.replied n result])))
  | .release n =>
    if n ∈ s.releasing then some ({ s with releasing := s.releasing.erase n, permits := s.permits + 1 }, []) else none
  | .ping ping maxFailures =>
    if s.idle then some ({ s with peers := (s.peers.onPing maxFailures ping).1 },
      ((s.peers.onPing maxFailures ping).2.map .disconnect).toList)
    else none
  | .shutdown => if s.idle then some ({ s with ended := true }, []) else none

def effects (site : Site) (s : Controller) (e : Event) : List Effect := ((s.handle site e).map Prod.snd).getD []

end Controller

def controller (site : Site) : Machine Controller Event where
  init := .new site
  step s e := (s.handle site e).map Prod.fst

/-! ## Steps -/

/-- **One step of the controller**, with what it needs and what it does. -/
inductive Moved (site : Site) (s : Controller) : Event → Controller → List Effect → Prop where
  | refuse (n : Nat) (msg : Message) (maxRecordBytes : UInt64) (fresh : n ∉ s.received)
      (worker : canRunInDhtWorker msg = true) (none : s.permits = 0) :
      Moved site s (.command n msg maxRecordBytes) { s with received := insert n s.received } [.replied n busy]
  | spawn (n : Nat) (msg : Message) (maxRecordBytes : UInt64) (fresh : n ∉ s.received)
      (worker : canRunInDhtWorker msg = true) (free : 0 < s.permits) :
      Moved site s (.command n msg maxRecordBytes)
        { s with
          received := insert n s.received
          running := s.running.insert n (program (site.node s.peers) site.forms maxRecordBytes msg)
          permits := s.permits - 1 } []
  | run (n : Nat) (msg : Message) (maxRecordBytes : UInt64) (fresh : n ∉ s.received)
      (own : canRunInDhtWorker msg = false) (idle : s.inline = none) :
      Moved site s (.command n msg maxRecordBytes)
        { s with
          received := insert n s.received
          running := s.running.insert n (program (site.node s.peers) site.forms maxRecordBytes msg)
          inline := some n } []
  | turn (n : Nat) (answers : (op : Op) → op.Answer) (p q : Cmd (Except String Bytes)) (call : Sigma Op.Answer)
      (found : s.running.lookup n = some p) (turned : p.turn answers = some (call, q)) :
      Moved site s (.turn n answers) { s with running := s.running.insert n q } [.called n call]
  | answer (n : Nat) (result : Except String Bytes) (found : s.running.lookup n = some (.done result))
      (own : s.inline = some n) :
      Moved site s (.reply n) { s with running := s.running.erase n, inline := Option.none } [.replied n result]
  | finish (n : Nat) (result : Except String Bytes) (found : s.running.lookup n = some (.done result))
      (worker : s.inline ≠ some n) :
      Moved site s (.reply n) { s with running := s.running.erase n, releasing := insert n s.releasing } [.replied n result]
  | release (n : Nat) (holds : n ∈ s.releasing) :
      Moved site s (.release n) { s with releasing := s.releasing.erase n, permits := s.permits + 1 } []
  | ping (ping : Peers.Ping) (maxFailures : UInt32) :
      Moved site s (.ping ping maxFailures) { s with peers := (s.peers.onPing maxFailures ping).1 }
        (((s.peers.onPing maxFailures ping).2.map .disconnect).toList)
  | shutdown : Moved site s .shutdown { s with ended := true } []

section Steps

variable {site : Site} {events : List Event} {s s' : Controller} {e : Event} {effects : List Effect} {n : Nat}
  {trace : List (Sigma Op.Answer)} {sent : List (Except String Bytes)} {p : Cmd (Except String Bytes)}

theorem moved_of_step (h : (controller site).step s e = some s') : Moved site s e s' (s.effects site e) := by
  obtain ⟨⟨t, effects⟩, hhandle, rfl⟩ := Option.map_eq_some_iff.1 h
  rw [Controller.effects, hhandle, Option.map_some, Option.getD_some]
  cases e with
  | command n msg maxRecordBytes =>
    obtain ⟨hidle, hhandle⟩ := Option.ite_none_right_eq_some.1 hhandle
    simp only [Controller.idle, Bool.and_eq_true, decide_eq_true_eq, Bool.not_eq_true', Option.isNone_iff_eq_none] at hidle
    obtain ⟨⟨-, hidle⟩, hfresh⟩ := hidle
    simp only [Option.some.injEq, Controller.dispatchCommand] at hhandle
    split at hhandle
    · rename_i hworker
      split at hhandle
      · rename_i hnone
        cases hhandle
        exact .refuse n msg maxRecordBytes hfresh hworker hnone
      · rename_i hfree
        cases hhandle
        exact .spawn n msg maxRecordBytes hfresh hworker (Nat.pos_of_ne_zero hfree)
    · rename_i hown
      cases hhandle
      exact .run n msg maxRecordBytes hfresh (by simpa using hown) hidle
  | turn n answers =>
    obtain ⟨p, hp, hturn⟩ := Option.bind_eq_some_iff.1 hhandle
    obtain ⟨⟨call, q⟩, hturned, heq⟩ := Option.map_eq_some_iff.1 hturn
    cases heq
    exact .turn n answers p q call hp hturned
  | reply n =>
    obtain ⟨p, hp, hresult⟩ := Option.bind_eq_some_iff.1 hhandle
    obtain ⟨result, hdone, heq⟩ := Option.map_eq_some_iff.1 hresult
    rw [Program.result_eq_some.1 hdone] at hp
    split at heq
    · rename_i hown
      cases heq
      exact .answer n result hp hown
    · rename_i hworker
      cases heq
      exact .finish n result hp hworker
  | release n =>
    obtain ⟨hholds, hhandle⟩ := Option.ite_none_right_eq_some.1 hhandle
    cases hhandle
    exact .release n hholds
  | ping ping maxFailures =>
    obtain ⟨-, hhandle⟩ := Option.ite_none_right_eq_some.1 hhandle
    cases hhandle
    exact .ping ping maxFailures
  | shutdown =>
    obtain ⟨-, hhandle⟩ := Option.ite_none_right_eq_some.1 hhandle
    cases hhandle
    exact .shutdown

/-! ## Permits -/

/-- The workers that have not replied yet. -/
def Controller.workers (s : Controller) : Finset Nat := s.running.keys.filter (fun n => s.inline ≠ some n)

/-- **Every permit is free or held by one worker.** -/
structure Balanced (site : Site) (s : Controller) : Prop where
  running : ∀ n ∈ s.running, n ∈ s.received
  releasing : ∀ n ∈ s.releasing, n ∈ s.received ∧ n ∉ s.running
  inline : ∀ n, s.inline = some n → n ∈ s.running
  permits : s.permits + s.workers.card + s.releasing.card = site.permits

theorem mem_workers : n ∈ s.workers ↔ n ∈ s.running ∧ s.inline ≠ some n := by
  rw [Controller.workers, Finset.mem_filter, Finmap.mem_keys]

theorem balanced_new (site : Site) : Balanced site (.new site) where
  running n h := absurd h Finmap.notMem_empty
  releasing n h := absurd h (Finset.notMem_empty n)
  inline n h := by cases h
  permits := by simp [Controller.new, Controller.workers]

/-- A new command runs. -/
theorem Balanced.start (h : Balanced site s) (fresh : n ∉ s.received) (hreceived : s'.received = insert n s.received)
    (hrunning : s'.running = s.running.insert n p) (hreleasing : s'.releasing = s.releasing)
    (hinline : ∀ m, s'.inline = some m → m = n ∨ s.inline = some m)
    (hpermits : s'.permits + s'.workers.card + s'.releasing.card = site.permits) : Balanced site s' where
  running m hm := by
    rw [hrunning, Finmap.mem_insert] at hm
    rw [hreceived, Finset.mem_insert]
    exact hm.imp_right (h.running m)
  releasing m hm := by
    obtain ⟨hm, hnot⟩ := h.releasing m (hreleasing ▸ hm)
    rw [hreceived, hrunning, Finset.mem_insert, Finmap.mem_insert]
    exact ⟨.inr hm, not_or.2 ⟨fun heq => fresh (heq ▸ hm), hnot⟩⟩
  inline m hm := by
    rw [hrunning, Finmap.mem_insert]
    exact (hinline m hm).imp_right (h.inline m)
  permits := hpermits

/-- A command has replied. -/
theorem Balanced.stop (h : Balanced site s) (hin : n ∈ s.running) (hreceived : s'.received = s.received)
    (hrunning : s'.running = s.running.erase n) (hreleasing : s'.releasing ⊆ insert n s.releasing)
    (hinline : ∀ m, s'.inline = some m → m ≠ n ∧ s.inline = some m)
    (hpermits : s'.permits + s'.workers.card + s'.releasing.card = site.permits) : Balanced site s' where
  running m hm := by
    rw [hrunning, Finmap.mem_erase] at hm
    exact hreceived ▸ h.running m hm.2
  releasing m hm := by
    rw [hreceived, hrunning, Finmap.mem_erase]
    rcases Finset.mem_insert.1 (hreleasing hm) with rfl | hm
    · exact ⟨h.running m hin, fun herased => herased.1 rfl⟩
    · exact ⟨(h.releasing m hm).1, fun herased => (h.releasing m hm).2 herased.2⟩
  inline m hm := by
    rw [hrunning, Finmap.mem_erase]
    exact (hinline m hm).imp_right (h.inline m)
  permits := hpermits

theorem Balanced.step (h : Balanced site s) (hmoved : Moved site s e s' effects) : Balanced site s' := by
  have hpermits := h.permits
  cases hmoved with
  | refuse n msg maxRecordBytes fresh worker none =>
    exact ⟨fun m hm => Finset.mem_insert_of_mem (h.running m hm),
      fun m hm => (h.releasing m hm).imp_left Finset.mem_insert_of_mem, h.inline, h.permits⟩
  | spawn n msg maxRecordBytes fresh worker free =>
    have hnot : n ∉ s.running := fun hn => fresh (h.running n hn)
    have hinline : s.inline ≠ some n := fun heq => hnot (h.inline n heq)
    refine h.start fresh rfl rfl rfl (fun m hm => .inr hm) ?_
    have hworkers : ({ s with
        received := insert n s.received
        running := s.running.insert n (program (site.node s.peers) site.forms maxRecordBytes msg)
        permits := s.permits - 1 } : Controller).workers = insert n s.workers := by
      ext m
      simp only [mem_workers, Finset.mem_insert, Finmap.mem_insert]
      grind
    rw [hworkers, Finset.card_insert_of_notMem (fun hn => hnot (mem_workers.1 hn).1)]
    simp only
    omega
  | run n msg maxRecordBytes fresh own idle =>
    have hnot : n ∉ s.running := fun hn => fresh (h.running n hn)
    refine h.start fresh rfl rfl rfl (fun m hm => .inl (Option.some.inj hm).symm) ?_
    convert hpermits using 4
    ext m
    simp only [mem_workers, Finmap.mem_insert, idle]
    grind
  | turn n answers p q call found turned =>
    have hsame : ∀ m, m ∈ s.running.insert n q ↔ m ∈ s.running := by
      intro m
      rw [Finmap.mem_insert]
      exact or_iff_right_of_imp fun heq => heq ▸ Finmap.mem_iff.2 ⟨p, found⟩
    refine ⟨fun m hm => h.running m ((hsame m).1 hm), fun m hm => (h.releasing m hm).imp_right (mt (hsame m).1),
      fun m hm => (hsame m).2 (h.inline m hm), ?_⟩
    convert hpermits using 4
    ext m
    rw [mem_workers, mem_workers, hsame]
  | answer n result found own =>
    refine h.stop (Finmap.mem_iff.2 ⟨_, found⟩) rfl rfl (Finset.subset_insert n _) (fun m hm => (by cases hm)) ?_
    convert hpermits using 4
    ext m
    simp only [mem_workers, Finmap.mem_erase, own]
    grind
  | finish n result found worker =>
    have hin : n ∈ s.running := Finmap.mem_iff.2 ⟨_, found⟩
    refine h.stop hin rfl rfl subset_rfl (fun m hm => ⟨fun heq => worker (heq ▸ hm), hm⟩) ?_
    have hworkers : ({ s with running := s.running.erase n, releasing := insert n s.releasing } : Controller).workers =
        s.workers.erase n := by
      ext m
      simp only [mem_workers, Finset.mem_erase, Finmap.mem_erase]
      tauto
    have hcard := Finset.card_erase_add_one (mem_workers.2 ⟨hin, worker⟩)
    rw [hworkers, Finset.card_insert_of_notMem (fun hn => (h.releasing n hn).2 hin)]
    simp only
    omega
  | release n holds =>
    have hcard := Finset.card_erase_add_one holds
    refine ⟨h.running, fun m hm => h.releasing m (Finset.mem_of_mem_erase hm), h.inline, ?_⟩
    change s.permits + 1 + s.workers.card + (s.releasing.erase n).card = site.permits
    omega
  | ping | shutdown => exact ⟨h.running, h.releasing, h.inline, h.permits⟩

theorem balanced_run (hrun : (controller site).run events = some s) : Balanced site s :=
  (controller site).invariant_from (fun _ _ _ h _ hstep => h.step (moved_of_step hstep)) events _ s (balanced_new site)
    ((controller site).meets_true _ _) hrun

/-! ## The account of a command -/

def Effect.callOf (n : Nat) : Effect → Option (Sigma Op.Answer)
  | .called m call => if m = n then some call else none
  | _ => none

def Effect.replyTo (n : Nat) : Effect → Option (Except String Bytes)
  | .replied m result => if m = n then some result else none
  | _ => none

/-- The calls of a command in a run. -/
def calls (site : Site) (events : List Event) (n : Nat) : List (Sigma Op.Answer) :=
  ((controller site).outputs (Controller.effects site) (.new site) events).filterMap (Effect.callOf n)

/-- What has been sent over a reply channel in a run. -/
def replies (site : Site) (events : List Event) (n : Nat) : List (Except String Bytes) :=
  ((controller site).outputs (Controller.effects site) (.new site) events).filterMap (Effect.replyTo n)

/-- The program that a command of the run was started with. -/
def Started (site : Site) (events : List Event) (n : Nat) (p : Cmd (Except String Bytes)) : Prop :=
  ∃ msg maxRecordBytes peers, .command n msg maxRecordBytes ∈ events ∧
    p = program (site.node peers) site.forms maxRecordBytes msg

/-- **Where a command is**, by the calls it has made and the replies it has got. -/
inductive Account (site : Site) (events : List Event) (s : Controller) (n : Nat) :
    List (Sigma Op.Answer) → List (Except String Bytes) → Prop where
  | absent (new : n ∉ s.received) (idle : s.running.lookup n = none) : Account site events s n [] []
  | refused (msg : Message) (maxRecordBytes : UInt64) (given : .command n msg maxRecordBytes ∈ events)
      (received : n ∈ s.received) (idle : s.running.lookup n = none) : Account site events s n [] [busy]
  | running (p q : Cmd (Except String Bytes)) (trace : List (Sigma Op.Answer)) (started : Started site events n p)
      (received : n ∈ s.received) (reaches : p.Reaches trace q) (found : s.running.lookup n = some q) :
      Account site events s n trace []
  | replied (p : Cmd (Except String Bytes)) (trace : List (Sigma Op.Answer)) (result : Except String Bytes)
      (started : Started site events n p) (received : n ∈ s.received) (reaches : p.Reaches trace (.done result))
      (idle : s.running.lookup n = none) : Account site events s n trace [result]

theorem Started.mono (h : Started site events n p) : Started site (events ++ [e]) n p := by
  obtain ⟨msg, maxRecordBytes, peers, hmem, rfl⟩ := h
  exact ⟨msg, maxRecordBytes, peers, List.mem_append_left _ hmem, rfl⟩

/-- A step that is not about the command. -/
theorem Account.same (h : Account site events s n trace sent) (hreceived : n ∈ s'.received ↔ n ∈ s.received)
    (hrunning : s'.running.lookup n = s.running.lookup n) : Account site (events ++ [e]) s' n trace sent := by
  cases h with
  | absent new idle => exact .absent (fun hn => new (hreceived.1 hn)) (hrunning.trans idle)
  | refused msg maxRecordBytes given received idle =>
    exact .refused msg maxRecordBytes (List.mem_append_left _ given) (hreceived.2 received) (hrunning.trans idle)
  | running p q trace started received reaches found =>
    exact .running p q trace started.mono (hreceived.2 received) reaches (hrunning.trans found)
  | replied p trace result started received reaches idle =>
    exact .replied p trace result started.mono (hreceived.2 received) reaches (hrunning.trans idle)

/-- The account of a channel that has not been received. -/
theorem Account.fresh (h : Account site events s n trace sent) (hfresh : n ∉ s.received) :
    trace = [] ∧ sent = [] ∧ s.running.lookup n = none := by
  cases h with
  | absent new idle => exact ⟨rfl, rfl, idle⟩
  | refused _ _ _ received | running _ _ _ _ received | replied _ _ _ _ received => exact absurd received hfresh

/-- The account of a command that runs. -/
theorem Account.of_lookup {q : Cmd (Except String Bytes)} (h : Account site events s n trace sent)
    (hfound : s.running.lookup n = some q) :
    ∃ p, Started site events n p ∧ p.Reaches trace q ∧ n ∈ s.received ∧ sent = [] := by
  cases h with
  | running p q' trace started received reaches found =>
    obtain rfl := Option.some.inj (found.symm.trans hfound)
    exact ⟨p, started, reaches, received, rfl⟩
  | absent _ idle | refused _ _ _ _ idle | replied _ _ _ _ _ _ idle => cases idle.symm.trans hfound

/-- The command an event is about. -/
def Event.about : Event → Option Nat
  | .command n _ _ | .turn n _ | .reply n => some n
  | _ => none

/-- **Other commands** are where they were. -/
theorem Moved.frame (h : Moved site s e s' effects) (hother : e.about ≠ some n) :
    (n ∈ s'.received ↔ n ∈ s.received) ∧ s'.running.lookup n = s.running.lookup n ∧
      effects.filterMap (Effect.callOf n) = [] ∧ effects.filterMap (Effect.replyTo n) = [] := by
  cases h with
  | ping ping maxFailures =>
    refine ⟨Iff.rfl, rfl, ?_⟩
    cases (s.peers.onPing maxFailures ping).2 <;> exact ⟨rfl, rfl⟩
  | release | shutdown => exact ⟨Iff.rfl, rfl, rfl, rfl⟩
  | refuse m | spawn m | run m | turn m | answer m | finish m =>
    have hne : ¬ m = n := fun heq => hother (congrArg some heq)
    simp [Effect.callOf, Effect.replyTo, hne, Ne.symm hne]

/-- **A step keeps the account.** -/
theorem Account.step (h : Account site events s n trace sent) (hmoved : Moved site s e s' effects) :
    Account site (events ++ [e]) s' n (trace ++ effects.filterMap (Effect.callOf n))
      (sent ++ effects.filterMap (Effect.replyTo n)) := by
  by_cases hother : e.about ≠ some n
  · obtain ⟨hreceived, hrunning, hcalls, hreplies⟩ := hmoved.frame hother
    rw [hcalls, hreplies, List.append_nil, List.append_nil]
    exact h.same hreceived hrunning
  have habout := not_not.1 hother
  have hgiven : e ∈ events ++ [e] := by simp
  cases hmoved with
  | release | ping | shutdown => cases habout
  | refuse m msg maxRecordBytes fresh =>
    obtain rfl : m = n := Option.some.inj habout
    obtain ⟨rfl, rfl, hidle⟩ := h.fresh fresh
    simp only [Effect.callOf, Effect.replyTo, List.filterMap_cons, List.filterMap_nil, if_true, List.nil_append]
    exact .refused msg maxRecordBytes hgiven (Finset.mem_insert_self _ _) hidle
  | spawn m msg maxRecordBytes fresh | run m msg maxRecordBytes fresh =>
    obtain rfl : m = n := Option.some.inj habout
    obtain ⟨rfl, rfl, -⟩ := h.fresh fresh
    exact .running _ _ _ ⟨msg, maxRecordBytes, s.peers, hgiven, rfl⟩ (Finset.mem_insert_self _ _) (.start _) (by simp)
  | turn m answers q q' call found turned =>
    obtain rfl : m = n := Option.some.inj habout
    obtain ⟨p, hstarted, hreaches, hreceived, rfl⟩ := h.of_lookup found
    simp only [Effect.callOf, Effect.replyTo, List.filterMap_cons, List.filterMap_nil, if_true, List.append_nil]
    exact .running p q' _ hstarted.mono hreceived (hreaches.turn turned) (by simp)
  | answer m result found | finish m result found =>
    obtain rfl : m = n := Option.some.inj habout
    obtain ⟨p, hstarted, hreaches, hreceived, rfl⟩ := h.of_lookup found
    simp only [Effect.callOf, Effect.replyTo, List.filterMap_cons, List.filterMap_nil, if_true, List.append_nil]
    exact .replied p _ result hstarted.mono hreceived hreaches (by simp)

theorem account_run (hrun : (controller site).run events = some s) (n : Nat) :
    Account site events s n (calls site events n) (replies site events n) := by
  refine ((controller site).history_invariant (P := fun events s => (controller site).run events = some s ∧
    Account site events s n (calls site events n) (replies site events n)) ⟨rfl, .absent (Finset.notMem_empty n) rfl⟩ ?_
    events s hrun ((controller site).meets_true _ _)).2
  rintro events s e s' ⟨hbefore, haccount⟩ - hstep
  refine ⟨(Machine.runFrom_concat _).2 ⟨s, hbefore, hstep⟩, ?_⟩
  have hnext := haccount.step (moved_of_step hstep)
  have houtputs : (controller site).outputs (Controller.effects site) (.new site) (events ++ [e]) =
      (controller site).outputs (Controller.effects site) (.new site) events ++ s.effects site e := by
    rw [← (controller site).outputs_singleton (Controller.effects site) s e]
    exact (controller site).outputs_append hbefore
  rw [calls, replies, houtputs, List.filterMap_append, List.filterMap_append]
  exact hnext

theorem Moved.received (h : Moved site s e s' effects) (n : Nat) :
    n ∈ s'.received ↔ n ∈ s.received ∨ ∃ msg maxRecordBytes, e = .command n msg maxRecordBytes := by
  cases h with
  | refuse _ msg maxRecordBytes | spawn _ msg maxRecordBytes | run _ msg maxRecordBytes =>
    simp only [Finset.mem_insert, Event.command.injEq]
    constructor
    · rintro (rfl | hn)
      · exact .inr ⟨msg, maxRecordBytes, rfl, rfl, rfl⟩
      · exact .inl hn
    · rintro (hn | ⟨_, _, rfl, _, _⟩)
      · exact .inr hn
      · exact .inl rfl
  | turn | answer | finish | release | ping | shutdown => simp

/-- The channels that have been received are those of the commands of the run. -/
theorem received_iff (hrun : (controller site).run events = some s) (n : Nat) :
    n ∈ s.received ↔ ∃ msg maxRecordBytes, .command n msg maxRecordBytes ∈ events := by
  refine (controller site).history_invariant (P := fun events s => n ∈ s.received ↔
    ∃ msg maxRecordBytes, .command n msg maxRecordBytes ∈ events) ?_ ?_ events s hrun ((controller site).meets_true _ _)
  · exact iff_of_false (Finset.notMem_empty n) (by simp)
  · rintro events s e s' ih - hstep
    rw [(moved_of_step hstep).received n, ih]
    simp only [List.mem_append, List.mem_singleton]
    constructor
    · rintro (⟨msg, maxRecordBytes, hmem⟩ | ⟨msg, maxRecordBytes, rfl⟩)
      · exact ⟨msg, maxRecordBytes, .inl hmem⟩
      · exact ⟨msg, maxRecordBytes, .inr rfl⟩
    · rintro ⟨msg, maxRecordBytes, hmem | heq⟩
      · exact .inl ⟨msg, maxRecordBytes, hmem⟩
      · exact .inr ⟨msg, maxRecordBytes, heq.symm⟩

/-- A command is given once. -/
theorem command_unique (hrun : (controller site).run events = some s) {msg msg' : Message}
    {maxRecordBytes maxRecordBytes' : UInt64} (h : .command n msg maxRecordBytes ∈ events)
    (h' : .command n msg' maxRecordBytes' ∈ events) :
    msg = msg' ∧ maxRecordBytes = maxRecordBytes' := by
  refine ((controller site).history_invariant (P := fun events s => (controller site).run events = some s ∧
    ∀ msg maxRecordBytes msg' maxRecordBytes', .command n msg maxRecordBytes ∈ events →
      .command n msg' maxRecordBytes' ∈ events → msg = msg' ∧ maxRecordBytes = maxRecordBytes')
    ⟨rfl, fun _ _ _ _ h _ => absurd h List.not_mem_nil⟩ ?_ events s hrun ((controller site).meets_true _ _)).2
    msg maxRecordBytes msg' maxRecordBytes' h h'
  rintro events s e s' ⟨hbefore, ih⟩ - hstep
  refine ⟨(Machine.runFrom_concat _).2 ⟨s, hbefore, hstep⟩, fun msg maxRecordBytes msg' maxRecordBytes' h h' => ?_⟩
  -- the last event is the first with its channel
  have hfresh : ∀ {msg maxRecordBytes}, e = .command n msg maxRecordBytes →
      ∀ msg' maxRecordBytes', .command n msg' maxRecordBytes' ∉ events := by
    rintro msg maxRecordBytes rfl msg' maxRecordBytes' hmem
    have hreceived := (received_iff hbefore n).2 ⟨msg', maxRecordBytes', hmem⟩
    have hmoved := moved_of_step hstep
    generalize s.effects site (.command n msg maxRecordBytes) = effects at hmoved
    cases hmoved with
    | refuse _ _ _ fresh | spawn _ _ _ fresh | run _ _ _ fresh => exact fresh hreceived
  rcases List.mem_append.1 h with h | h
  · rcases List.mem_append.1 h' with h' | h'
    · exact ih _ _ _ _ h h'
    · exact absurd h (hfresh (List.mem_singleton.1 h').symm _ _)
  · rcases List.mem_append.1 h' with h' | h'
    · exact absurd h' (hfresh (List.mem_singleton.1 h).symm _ _)
    · rw [List.mem_singleton] at h h'
      cases h.trans h'.symm
      exact ⟨rfl, rfl⟩

/-- A command that was answered with success has ended so. -/
theorem Account.ok {bytes : Bytes} (h : Account site events s n trace sent) (hok : .ok bytes ∈ sent) :
    ∃ p, Started site events n p ∧ p.Reaches trace (.done (.ok bytes)) := by
  cases h with
  | absent | running => cases hok
  | refused =>
    rw [List.mem_singleton, busy] at hok
    cases hok
  | replied p trace result started received reaches idle =>
    rw [← List.mem_singleton.1 hok] at reaches
    exact ⟨p, started, reaches⟩

/-- The calls of a command are those of its program. -/
theorem Account.reaches (h : Account site events s n trace sent) (hcalls : trace ≠ []) :
    ∃ p q, Started site events n p ∧ p.Reaches trace q := by
  cases h with
  | absent | refused => exact absurd rfl hcalls
  | running p q trace started received reaches found => exact ⟨p, q, started, reaches⟩
  | replied p trace result started received reaches idle => exact ⟨p, _, started, reaches⟩

end Steps

/-! ## Commands come to an end -/

/-- **A command that runs comes to its reply**: turns of it alone, whatever they are answered, lead there. -/
theorem exists_reply (site : Site) (answers : (op : Op) → op.Answer) (n : Nat) : ∀ (p : Cmd (Except String Bytes))
    (s : Controller), s.running.lookup n = some p →
    ∃ turns t, (controller site).runFrom s (List.replicate turns (.turn n answers) ++ [.reply n]) = some t
  | .done result, s, h => by
    have hstep : ((controller site).step s (.reply n)).isSome = true := by
      simp [controller, Controller.handle, h, Program.result]
    obtain ⟨t, ht⟩ := Option.isSome_iff_exists.1 hstep
    exact ⟨0, t, (Machine.runFrom_cons _).2 ⟨t, ht, rfl⟩⟩
  | .call op next, s, h => by
    have hstep : (controller site).step s (.turn n answers) =
        some { s with running := s.running.insert n (next (answers op)) } := by
      simp [controller, Controller.handle, h, Program.turn]
    obtain ⟨turns, t, hrun⟩ := exists_reply site answers n (next (answers op))
      { s with running := s.running.insert n (next (answers op)) } (by simp)
    exact ⟨turns + 1, t, (Machine.runFrom_cons _).2 ⟨_, hstep, hrun⟩⟩

/-! ## Main results -/

/-- **Every command is answered once, by at most as many workers as there are permits.**  In every run of the controller: a
channel that no command has brought is sent nothing; a command that has come either runs and has been sent nothing, or has
been sent one reply and does not run; one that runs can always be brought to its reply; the permits that are free and the
workers make up all of them; and a command that needs a worker is refused exactly when none is free. -/
theorem commands_replied_once (site : Site) (events : List Event) (s : Controller)
    (hrun : (controller site).run events = some s) :
    (∀ n, (∀ msg maxRecordBytes, .command n msg maxRecordBytes ∉ events) → replies site events n = []) ∧
    (∀ n msg maxRecordBytes, .command n msg maxRecordBytes ∈ events →
      n ∈ s.running ∧ replies site events n = [] ∨ n ∉ s.running ∧ ∃ result, replies site events n = [result]) ∧
    (∀ n ∈ s.running, ∀ answers, ∃ turns t,
      (controller site).runFrom s (List.replicate turns (.turn n answers) ++ [.reply n]) = some t) ∧
    s.permits + s.workers.card + s.releasing.card = site.permits ∧
    ∀ n msg maxRecordBytes t, canRunInDhtWorker msg = true →
      (controller site).step s (.command n msg maxRecordBytes) = some t →
      (s.effects site (.command n msg maxRecordBytes) = [.replied n busy] ↔
        s.workers.card + s.releasing.card = site.permits) := by
  have hbalanced := balanced_run hrun
  refine ⟨fun n hnone => ?_, fun n msg maxRecordBytes hgiven => ?_, fun n hn answers => ?_, hbalanced.permits,
    fun n msg maxRecordBytes t hworker hstep => ?_⟩
  · have hfresh : n ∉ s.received := fun hn => by
      obtain ⟨msg, maxRecordBytes, hmem⟩ := (received_iff hrun n).1 hn
      exact hnone msg maxRecordBytes hmem
    exact ((account_run hrun n).fresh hfresh).2.1
  · have haccount := account_run hrun n
    generalize calls site events n = trace at haccount
    generalize replies site events n = sent at haccount ⊢
    cases haccount with
    | absent new idle => exact absurd ((received_iff hrun n).2 ⟨msg, maxRecordBytes, hgiven⟩) new
    | refused _ _ _ _ idle => exact .inr ⟨Finmap.lookup_eq_none.1 idle, busy, rfl⟩
    | running p q _ _ _ _ found => exact .inl ⟨Finmap.mem_iff.2 ⟨q, found⟩, rfl⟩
    | replied p _ result _ _ _ idle => exact .inr ⟨Finmap.lookup_eq_none.1 idle, result, rfl⟩
  · obtain ⟨p, hp⟩ := Finmap.mem_iff.1 hn
    exact exists_reply site answers n p s hp
  · have hpermits := hbalanced.permits
    have hmoved := moved_of_step hstep
    generalize s.effects site (.command n msg maxRecordBytes) = effects at hmoved ⊢
    cases hmoved with
    | refuse _ _ _ fresh worker none => exact iff_of_true rfl (by omega)
    | spawn _ _ _ fresh worker free => exact iff_of_false (by simp) (by omega)
    | run _ _ _ fresh own idle =>
      rw [hworker] at own
      cases own

/-- A node with one permit. -/
def smallSite : Site := ⟨"me", fun peer => .ok peer, fun _ => "", ⟨fun _ => none, fun _ => "", fun _ => none, fun _ => ""⟩, 0⟩

/-- Every call succeeds. -/
def willing : (op : Op) → op.Answer
  | .sendRequest .. => SendOutcome.response ⟨true, []⟩
  | .getClosestPeers _ => Except.ok []
  | .putRecord .. | .startProviding _ | .stopProviding _ | .removeRecord _ | .dial _ | .reload => Except.ok ()
  | .refreshRecordCache => Except.ok (0 : Nat)
  | .getRecord _ => Except.ok (none : Option Bytes)
  | .getProviders _ => Except.ok (none : Option (List Command.PeerId))
  | .invalidateRecord _ | .invalidateProviders _ | .invalidateAuth | .invalidateAllRecords | .invalidateAllProviders => ()
  | .reloadAuth | .resetRelay | .resetBootstrap => ()
  | .authStateLabel => ("disabled", (none : Option String))
  | .indexVersion | .whitelistVersion _ => (none : Option UInt64)
  | .relays => (⟨[], []⟩ : Relays)
  | .sendService _ | .trySendService _ => true
  | .serviceTypes => ([] : List String)
  | .config => ConfigFile.NodeConfig.default

def anyId : Sidecar.Uuid := Vector.replicate 16 0

/-- A record is put by the only worker while two other commands come: one that needs a worker, and one that does not. -/
def crowdedRun : List Event :=
  [.command 0 (.addKey anyId "/oahd/auth/net" (some [1]) false) 4, .turn 0 willing, .command 1 (.queryKey anyId "k") 4,
    .command 2 (.whoami anyId) 4, .turn 0 willing, .turn 2 willing, .turn 0 willing, .reply 0, .reply 2]

theorem crowded_replied : ∃ s, (controller smallSite).run crowdedRun = some s ∧
    (∃ result, replies smallSite crowdedRun 1 = [result]) ∧ s.permits + s.workers.card + s.releasing.card = 1 := by
  obtain ⟨s, hrun⟩ := Option.isSome_iff_exists.1 (by decide +kernel : ((controller smallSite).run crowdedRun).isSome = true)
  obtain ⟨-, hreplied, -, hpermits, -⟩ := commands_replied_once smallSite crowdedRun s hrun
  refine ⟨s, hrun, ?_, hpermits⟩
  have hnot : ((controller smallSite).run crowdedRun).all (fun s => decide (1 ∉ s.running)) = true := by decide +kernel
  rw [hrun, Option.all_some, decide_eq_true_eq] at hnot
  rcases hreplied 1 (.queryKey anyId "k") 4 (by simp [crowdedRun]) with ⟨hin, -⟩ | ⟨-, hreply⟩
  · exact absurd hin hnot
  · exact hreply

theorem writable_ne {key : String} (h : isWritableKey key = true) :
    key ≠ "/oahd/service/types" ∧ key ≠ "/oahd/bootstrap" ∧
      (startsWith key "/oahd/auth/" = true ∨ startsWith key "/oahd/service/" = true) := by
  rw [isWritableKey] at h
  split at h
  · cases h
  · rename_i hreserved
    simp only [Bool.or_eq_true, beq_iff_eq, not_or] at hreserved h
    exact ⟨hreserved.1, hreserved.2, h⟩

/-- **Commands change in the DHT only what they are asked to.**  In every run of the controller, every record that a command
puts or removes and every key it provides or no longer provides is that of its message, and the message asks for it; the key
is in the namespaces that may be written and is neither the index of types nor the bootstrap key; and a record is no larger
than the configured limit. -/
theorem writes_confined (site : Site) (events : List Event) (s : Controller) (hrun : (controller site).run events = some s)
    (n : Nat) (before after : List (Sigma Op.Answer)) (op : Op) (answer : op.Answer) (key : String)
    (hcall : calls site events n = before ++ ⟨op, answer⟩ :: after) (hkey : op.changes = some key) :
    ∃ msg maxRecordBytes, .command n msg maxRecordBytes ∈ events ∧ Asks msg op ∧
      key ≠ "/oahd/service/types" ∧ key ≠ "/oahd/bootstrap" ∧
      (startsWith key "/oahd/auth/" = true ∨ startsWith key "/oahd/service/" = true) ∧
      ∀ value, op = .putRecord key value → ∃ limit, Limit msg maxRecordBytes before limit ∧ value.length ≤ limit := by
  obtain ⟨p, q, ⟨msg, maxRecordBytes, peers, hgiven, rfl⟩, hreaches⟩ := (account_run hrun n).reaches (by rw [hcall]; simp)
  have hobeys := obeys_program (site.node peers) site.forms maxRecordBytes msg
  obtain ⟨hasked, hwritable, hsized⟩ := (hobeys.of_reaches hreaches).2 before op answer after hcall key hkey
  obtain ⟨htypes, hbootstrap, hnamespace⟩ := writable_ne hwritable
  exact ⟨msg, maxRecordBytes, hgiven, hasked, htypes, hbootstrap, hnamespace, hsized⟩

theorem crowded_confined : ∃ s, (controller smallSite).run crowdedRun = some s ∧ ∃ msg maxRecordBytes,
    .command 0 msg maxRecordBytes ∈ crowdedRun ∧ Asks msg (.putRecord "/oahd/auth/net" [1]) := by
  obtain ⟨s, hrun⟩ := Option.isSome_iff_exists.1 (by decide +kernel : ((controller smallSite).run crowdedRun).isSome = true)
  obtain ⟨msg, maxRecordBytes, hgiven, hasked, -⟩ := writes_confined smallSite crowdedRun s hrun 0 []
    [⟨.invalidateRecord "/oahd/auth/net", ()⟩, ⟨.invalidateAuth, ()⟩] (.putRecord "/oahd/auth/net" [1]) (.ok ())
    "/oahd/auth/net" rfl rfl
  exact ⟨s, hrun, msg, maxRecordBytes, hgiven, hasked⟩

/-- **A command is answered with success only when the caches have let go of what it changed.**  In every run of the
controller, after each change in the DHT such a command has made exactly these invalidations: of a record it put or removed
and a provision it ended, in the controller, the key in the record cache, all authorizations under `/oahd/auth/` and the key
in the provider cache under `/oahd/service/`; in a worker all but the last; and once it has announced this node as a provider
it does nothing more, so a cached list of providers stays as it is. -/
theorem acknowledged_invalidated (site : Site) (events : List Event) (s : Controller)
    (hrun : (controller site).run events = some s) (n : Nat) (bytes : Bytes) (hok : .ok bytes ∈ replies site events n)
    (before after : List (Sigma Op.Answer)) (op : Op) (answer : op.Answer) (key : String)
    (hcall : calls site events n = before ++ ⟨op, answer⟩ :: after) (hkey : op.changes = some key) :
    ∃ msg maxRecordBytes, .command n msg maxRecordBytes ∈ events ∧
      (after.map Sigma.fst).filter Op.invalidates = op.owes (canRunInDhtWorker msg) ∧
      (op = .startProviding key → after = []) := by
  obtain ⟨p, ⟨msg, maxRecordBytes, peers, hgiven, rfl⟩, hreaches⟩ := (account_run hrun n).ok hok
  have hobeys := obeys_program (site.node peers) site.forms maxRecordBytes msg
  have hsettled := (hobeys.of_reaches hreaches).1 rfl
  rw [hcall, List.map_append, List.map_cons] at hsettled
  refine ⟨msg, maxRecordBytes, hgiven, hsettled.invalidated _ op _ rfl (by simp [hkey]), fun hop => ?_⟩
  subst hop
  exact List.map_eq_nil_iff.1 (hsettled.last _ key _ rfl)

theorem crowded_acknowledged : ∃ s, (controller smallSite).run crowdedRun = some s ∧
    .ok (success "/oahd/auth/net") ∈ replies smallSite crowdedRun 0 ∧ ∃ msg maxRecordBytes,
      .command 0 msg maxRecordBytes ∈ crowdedRun ∧ [Op.invalidateRecord "/oahd/auth/net", Op.invalidateAuth] =
        (Op.putRecord "/oahd/auth/net" [1]).owes (canRunInDhtWorker msg) := by
  obtain ⟨s, hrun⟩ := Option.isSome_iff_exists.1 (by decide +kernel : ((controller smallSite).run crowdedRun).isSome = true)
  have hok : .ok (success "/oahd/auth/net") ∈ replies smallSite crowdedRun 0 := List.mem_singleton.2 rfl
  obtain ⟨msg, maxRecordBytes, hgiven, hmade, -⟩ := acknowledged_invalidated smallSite crowdedRun s hrun 0 _ hok []
    [⟨.invalidateRecord "/oahd/auth/net", ()⟩, ⟨.invalidateAuth, ()⟩] (.putRecord "/oahd/auth/net" [1]) (.ok ()) _ rfl rfl
  exact ⟨s, hrun, hok, msg, maxRecordBytes, hgiven, hmade⟩

end Control
end NexusNet
