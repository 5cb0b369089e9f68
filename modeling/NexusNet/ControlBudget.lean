import NexusNet.ControlPlane
/-!
# ControlBudget — the time of the commands that run

`CommandBudget` finds the longest that `run_dht_command` can take (`worst`), as a function of everything it will meet.  The
programs of `Control` keep to it at every call (`within_runDhtCommand`), so the workers of the controller do, however their
calls are interleaved.
-/
namespace NexusNet
namespace Control

open AsyncPrograms (Program)
open Command (Node)
open Command.DhtWorker (sendWorst worst)
open Sidecar (Message)

/-- The longest a call may take. -/
def Op.limit (kad send : Nat) : Op → Nat
  | .getRecord _ | .getProviders _ | .getClosestPeers _ => kad
  | .putRecord .. => 2 * kad
  | .sendRequest .. => send
  | _ => 0

section Within

variable {kad send : Nat}

theorem within_ask {op : Op} {α : Type} {f : op.Answer → Cmd α} {n budget : Nat} (hle : op.limit kad send + n ≤ budget)
    (hf : ∀ answer, (f answer).Within (Op.limit kad send) n) : (ask op >>= f).Within (Op.limit kad send) budget :=
  ⟨by omega, fun answer => (hf answer).mono (by omega)⟩

theorem within_perform {op : Op} {α : Type} {f : Unit → Cmd α} {budget : Nat} (hfree : op.limit kad send = 0)
    (hf : (f ()).Within (Op.limit kad send) budget) : (perform op >>= f).Within (Op.limit kad send) budget :=
  within_ask (by omega) fun _ => hf

theorem within_fetchProviders (key : String) : (fetchProviders key).Within (Op.limit kad send) kad :=
  within_ask (n := 0) le_rfl fun _ => trivial

theorem within_sendRequestResolved (peer : Command.PeerId) (request : Request) :
    (sendRequestResolved peer request).Within (Op.limit kad send) (sendWorst kad send) := by
  unfold sendRequestResolved
  refine within_ask (n := kad + send) (by simp only [Op.limit, sendWorst]; omega) fun direct => ?_
  split
  · trivial
  · refine within_ask (n := send) le_rfl fun closest => ?_
    simp only
    split
    · trivial
    · exact within_ask (n := 0) le_rfl fun _ => trivial

theorem within_requestLoop (node : Node) (key : String) (request : Request) : ∀ (attempts : List Nat) (lastError : Option String),
    (requestLoop node key request attempts lastError).Within (Op.limit kad send) (attempts.length * (kad + sendWorst kad send))
  | [], _ => trivial
  | attempt :: rest, _ => by
    rw [requestLoop, List.length_cons, Nat.succ_mul]
    have hrest := fun e => within_requestLoop node key request rest (some e)
    refine Program.Within.bind (n := rest.length * (kad + sendWorst kad send) + sendWorst kad send) (fun read => ?_)
      (within_fetchProviders key) (by omega)
    split
    · refine within_perform rfl ?_
      split
      · exact (hrest _).mono (Nat.le_add_right _ _)
      · trivial
    · split
      · trivial
      · refine Program.Within.bind (fun sent => ?_) (within_sendRequestResolved _ _) (Nat.add_comm _ _).le
        split
        · trivial
        · split
          · exact within_perform rfl (hrest _)
          · exact hrest _

theorem within_queryKey (key : String) :
    (queryKey key).Within (Op.limit kad send) (if key.isEmpty then 0 else 2 * kad) := by
  unfold queryKey fetchRecord
  split
  · trivial
  · refine within_ask (n := kad) (by simp only [Op.limit]; omega) fun record => ?_
    split
    · trivial
    · refine Program.Within.bind (n := 0) (fun read => ?_) (within_fetchProviders key) le_rfl
      simp only
      split <;> trivial

/-- Only a record that is accepted is put. -/
theorem within_addKeyAsync (maxRecordBytes : UInt64) (key : String) (value : Option Bytes) (providing : Bool) :
    (addKeyAsync maxRecordBytes key value providing).Within (Op.limit kad send)
      (if Command.DhtWorker.putAccepted maxRecordBytes key value providing then 2 * kad else 0) := by
  unfold addKeyAsync
  split
  · trivial
  rename_i hproviding
  split
  · trivial
  rename_i hkey
  split
  · trivial
  rename_i hwritable
  cases value with
  | none => trivial
  | some bytes =>
    cases hsize : Command.DhtWorker.checkCompatRecordSize bytes.length maxRecordBytes with
    | error e =>
      simp only [hsize]
      trivial
    | ok _ =>
      have haccepted : Command.DhtWorker.putAccepted maxRecordBytes key (some bytes) providing = true := by
        simp_all [Command.DhtWorker.putAccepted, length_le_of_check hsize]
      rw [if_pos haccepted]
      simp only [hsize]
      refine within_ask (n := 0) le_rfl fun put => ?_
      split
      · trivial
      · refine within_perform rfl ?_
        split
        · exact within_perform rfl trivial
        · trivial

/-- **The calls of a worker's command take no longer than its longest run**, wherever it is interrupted. -/
theorem within_runDhtCommand (node : Node) (maxRecordBytes : UInt64) (msg : Message) :
    (runDhtCommand node maxRecordBytes msg).Within (Op.limit kad send) (worst node maxRecordBytes kad send msg) := by
  cases msg with
  | discoverProviders id service =>
    refine Program.Within.bind (n := 0) (fun read => ?_) (within_fetchProviders _) le_rfl
    split <;> trivial
  | queryKey id key => exact within_queryKey key
  | serviceRequest id service payload => exact within_requestLoop node _ _ [0, 1] none
  | serviceRequestTo id service peer payload =>
    simp only [runDhtCommand, worst]
    cases node.parsePeer peer with
    | error e => trivial
    | ok peerId =>
      refine Program.Within.bind (n := 0) (fun sent => ?_) (within_sendRequestResolved _ _) le_rfl
      split <;> trivial
  | addKey id key value providing => exact within_addKeyAsync maxRecordBytes key value providing
  | _ => trivial

end Within

/-- The calls, each within its limit, take this long together. -/
def Takes (kad send : Nat) (calls : List (Sigma Op.Answer)) (total : Nat) : Prop :=
  ∃ durations, List.Forall₂ (fun call duration => duration ≤ call.1.limit kad send) calls durations ∧ durations.sum = total

theorem Takes.le_sum {kad send total : Nat} {calls : List (Sigma Op.Answer)} (h : Takes kad send calls total) :
    total ≤ (calls.map (fun c => c.1.limit kad send)).sum := by
  obtain ⟨durations, hlimits, rfl⟩ := h
  induction hlimits with
  | nil => exact Nat.le_refl 0
  | cons hle _ ih =>
    rw [List.sum_cons, List.map_cons, List.sum_cons]
    exact Nat.add_le_add hle ih

/-- **The workers keep to their time.**  In every run of the controller, however its commands are interleaved, the calls that
a worker's command has made so far, each within its limit, take together no longer than the longest run of the command; and
unless the command is a service request, no longer than the dispatcher waits for its reply. -/
theorem workers_within_budget (site : Site) (events : List Event) (s : Controller)
    (hrun : (controller site).run events = some s) (n : Nat) (msg : Message) (maxRecordBytes : UInt64)
    (hgiven : .command n msg maxRecordBytes ∈ events) (hworker : canRunInDhtWorker msg = true) (base : Duration)
    (kad : UInt32) (total : Nat)
    (htakes : Takes (Duration.fromSecs kad.toUInt64).nanos Command.DhtWorker.requestTimeout.nanos
      (calls site events n) total) :
    total ≤ Command.DhtWorker.worst (site.node s.peers) maxRecordBytes (Duration.fromSecs kad.toUInt64).nanos
        Command.DhtWorker.requestTimeout.nanos msg ∧
      ((∀ id service payload, msg ≠ .serviceRequest id service payload) →
        total ≤ (Command.DhtWorker.commandTimeout msg base (.fromSecs kad.toUInt64)).nanos) := by
  suffices hworst : total ≤ Command.DhtWorker.worst (site.node s.peers) maxRecordBytes
      (Duration.fromSecs kad.toUInt64).nanos Command.DhtWorker.requestTimeout.nanos msg by
    refine ⟨hworst, fun hnot => hworst.trans ?_⟩
    exact Command.DhtWorker.covers_iff_worst.1 (Command.DhtWorker.covers_configured _ maxRecordBytes msg base kad hnot)
  refine htakes.le_sum.trans ?_
  by_cases hnone : calls site events n = []
  · rw [hnone]
    exact Nat.zero_le _
  obtain ⟨p, q, ⟨msg', maxRecordBytes', peers, hmem, rfl⟩, hreaches⟩ := (account_run hrun n).reaches hnone
  obtain ⟨rfl, rfl⟩ := command_unique hrun hgiven hmem
  rw [program, if_pos hworker] at hreaches
  -- the peers that the worker sees are of no matter
  have hsame : worst (site.node s.peers) maxRecordBytes = worst (site.node peers) maxRecordBytes := by
    funext kad send msg
    cases msg <;> rfl
  rw [hsame]
  exact ((within_runDhtCommand (site.node peers) maxRecordBytes msg).of_reaches hreaches).1

/-- The record of the crowded run is put in the two queries' time, and its worker is waited for longer. -/
theorem crowded_in_time : (calls smallSite crowdedRun 0).length = 3 ∧
    Takes (Duration.fromSecs 60).nanos Command.DhtWorker.requestTimeout.nanos (calls smallSite crowdedRun 0) 120000000000 ∧
    120000000000 ≤ (Command.DhtWorker.commandTimeout (.addKey anyId "/oahd/auth/net" (some [1]) false) .zero
      (.fromSecs 60)).nanos := by
  obtain ⟨s, hrun⟩ := Option.isSome_iff_exists.1 (by decide +kernel : ((controller smallSite).run crowdedRun).isSome = true)
  have htakes : Takes (Duration.fromSecs 60).nanos Command.DhtWorker.requestTimeout.nanos (calls smallSite crowdedRun 0)
      120000000000 := by
    refine ⟨(calls smallSite crowdedRun 0).map (·.1.limit (Duration.fromSecs 60).nanos
      Command.DhtWorker.requestTimeout.nanos), ?_, by decide +kernel⟩
    rw [List.forall₂_map_right_iff]
    exact List.forall₂_same.2 fun _ _ => le_rfl
  refine ⟨by decide +kernel, htakes, ?_⟩
  exact (workers_within_budget smallSite crowdedRun s hrun 0 _ 4 List.mem_cons_self rfl .zero 60 _ htakes).2 nofun

end Control
end NexusNet
