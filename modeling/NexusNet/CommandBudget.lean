import NexusNet.Command
import NexusNet.Sidecar
/-!
# CommandBudget — the time of control commands

`run_dht_command` of `command.rs` on every control message, and `command_timeout` of `service_dispatcher.rs`, which bounds
how long the dispatcher waits for it.  A command spends its time in DHT queries and sends, one after another; the longest
it can take is found by following its control flow (`worst`), and is compared with the formula of the budget.

`request_service` makes two attempts, and each may look up providers, send, look up addresses and send again: twice what
the budget foresees and more.  All other messages are covered, up to the range of `Duration` (`command_budget_iff`).
-/
namespace NexusNet

/-! ## Durations -/

/-- `std::time::Duration`, in nanoseconds: 64 bits of seconds and the rest. -/
structure Duration where
  nanos : Nat
  lt : nanos < 2 ^ 64 * 1000000000
deriving DecidableEq

namespace Duration

def maxNanos : Nat := 2 ^ 64 * 1000000000 - 1

theorem le_maxNanos (d : Duration) : d.nanos ≤ maxNanos := Nat.le_pred_of_lt d.lt

/-- The number of nanoseconds, or `Duration::MAX`. -/
def saturate (n : Nat) : Duration := ⟨min n maxNanos, Nat.lt_of_le_of_lt (Nat.min_le_right _ _) (by decide)⟩

def saturatingAdd (a b : Duration) : Duration := saturate (a.nanos + b.nanos)

def saturatingMul (a : Duration) (n : Nat) : Duration := saturate (a.nanos * n)

def max (a b : Duration) : Duration := if a.nanos ≤ b.nanos then b else a

def zero : Duration := ⟨0, by decide⟩

/-- Irreducible, so that numbers of nanoseconds are not unfolded. -/
@[irreducible] def fromSecs (n : UInt64) : Duration := ⟨n.toNat * 1000000000, Nat.mul_lt_mul_of_pos_right n.toNat_lt (by decide)⟩

theorem nanos_fromSecs (n : UInt64) : (fromSecs n).nanos = n.toNat * 1000000000 := by
  rw [fromSecs]

@[simp] theorem nanos_saturatingAdd (a b : Duration) :
    (a.saturatingAdd b).nanos = min (a.nanos + b.nanos) maxNanos := rfl

@[simp] theorem nanos_saturatingMul (a : Duration) (n : Nat) : (a.saturatingMul n).nanos = min (a.nanos * n) maxNanos := rfl

@[simp] theorem nanos_max (a b : Duration) : (a.max b).nanos = Max.max a.nanos b.nanos := by
  rw [Duration.max]
  split
  · rename_i h
    exact (Nat.max_eq_right h).symm
  · rename_i h
    exact (Nat.max_eq_left (Nat.le_of_not_le h)).symm

end Duration

namespace Command
namespace DhtWorker

open Sidecar (cborText cborVec cborStruct cborField)

/-! ## Commands -/

/-- What a command meets: the reads of the two caches, the result of `put_record`, and what its service requests meet. -/
structure WorkerAnswers where
  record : Except String (Option Bytes)
  providers : Except String (Option (List PeerId))
  put : Except NetworkError Unit
  requests : Answers

/-- What a command does, in order. -/
inductive WorkerAction where
  | fetchRecord (key : String)
  | fetchProviders (key : String)
  | putRecord (key : String)
  | invalidateRecord (key : String)
  | invalidateAuth
  | request (action : Action)

def startsWith (s start : String) : Bool := (strBytes start).isPrefixOf (strBytes s)

def isWritableKey (key : String) : Bool :=
  if key == "/oahd/service/types" || key == "/oahd/bootstrap" then false
  else startsWith key "/oahd/auth/" || startsWith key "/oahd/service/"

def checkCompatRecordSize (len : Nat) (maxBytes : UInt64) : Except String Unit :=
  if len > maxBytes.toNat then
    .error ("record exceeds compat.max_record_bytes (" ++ toString maxBytes ++
      " bytes); raise it after all nodes support larger packets")
  else .ok ()

/-- `provider_strings` as CBOR. -/
def cborProviders (providers : List PeerId) : Bytes := Cbor.array (providers.map cborText)

/-- The arm of `QueryKey`. -/
def queryKey (a : WorkerAnswers) (key : String) : List WorkerAction × Except String Bytes :=
  if key.isEmpty then ([], .error "missing key")
  else match a.record with
  | .error e => ([.fetchRecord key], .error e)
  | .ok value =>
    let providers := match a.providers with
      | .ok providers => providers.getD []
      | .error _ => []
    ([.fetchRecord key, .fetchProviders key],
      if value.isNone && providers.isEmpty then .error "key not found"
      else .ok (cborStruct ([("key", cborText key)] ++ cborField "value" (value.map cborVec) ++
        if providers.isEmpty then [] else [("providers", cborProviders providers)])))

/-- The arm of `AddKey`. -/
def addKey (maxRecordBytes : UInt64) (a : WorkerAnswers) (key : String) (value : Option Bytes) (providing : Bool) :
    List WorkerAction × Except String Bytes :=
  if providing then ([], .error "async add_key does not support providing")
  else if key.isEmpty then ([], .error "missing 'key' field")
  else if !isWritableKey key then ([], .error "key namespace not allowed")
  else match value with
  | none => ([], .error "at least one of 'value' or 'providing' is required")
  | some bytes =>
    match checkCompatRecordSize bytes.length maxRecordBytes with
    | .error e => ([], .error e)
    | .ok () =>
      match a.put with
      | .error e => ([.putRecord key], .error ("put_record failed: " ++ e.text))
      | .ok () =>
        ([.putRecord key, .invalidateRecord key] ++ (if startsWith key "/oahd/auth/" then [.invalidateAuth] else []),
          .ok (cborStruct [("key", cborText key), ("success", Cbor.bool true)]))

def runDhtCommand (node : Node) (maxRecordBytes : UInt64) (a : WorkerAnswers) :
    Sidecar.Message → List WorkerAction × Except String Bytes
  | .discoverProviders _ service =>
    let key := "/oahd/service/" ++ service
    ([.fetchProviders key], a.providers.map (fun providers => cborProviders (providers.getD [])))
  | .queryKey _ key => queryKey a key
  | .serviceRequest _ service payload =>
    let (trace, result) := Command.runDhtCommand node a.requests (.serviceRequest service payload)
    (trace.map .request, result)
  | .serviceRequestTo _ service peer payload =>
    let (trace, result) := Command.runDhtCommand node a.requests (.serviceRequestTo service peer payload)
    (trace.map .request, result)
  | .addKey _ key value providing => addKey maxRecordBytes a key value providing
  | _ => ([], .error "command not supported by DHT worker")

/-! ## Budgets -/

/-- `REQUEST_TIMEOUT`. -/
def requestTimeout : Duration := .fromSecs 30

def commandTimeout (msg : Sidecar.Message) (base kad : Duration) : Duration :=
  let required := match msg with
    | .serviceRequest .. | .serviceRequestTo .. => kad.saturatingAdd (requestTimeout.saturatingMul 2)
    | .queryKey .. => kad.saturatingAdd kad
    | .listServices _ | .discoverProviders .. | .reannounceServices _ => kad
    | .addKey .. => kad.saturatingAdd kad
    | _ => .zero
  (required.max base).saturatingAdd (.fromSecs 5)

/-- The longest a request's action may take. -/
def actionLimit (kad send : Nat) : Action → Nat
  | .providers .. | .closest .. => kad
  | .send .. => send
  | .invalidate _ => 0

/-- The longest an action may take.  A record is put by two queries: the closest peers are looked up, then they are asked
to store it. -/
def limit (kad send : Nat) : WorkerAction → Nat
  | .fetchRecord _ | .fetchProviders _ => kad
  | .putRecord _ => 2 * kad
  | .invalidateRecord _ | .invalidateAuth => 0
  | .request action => actionLimit kad send action

/-- The actions, each within its limit, take this long together. -/
def Takes (kad send : Nat) (trace : List WorkerAction) (total : Nat) : Prop :=
  ∃ durations, List.Forall₂ (fun action duration => duration ≤ limit kad send action) trace durations ∧ durations.sum = total

/-- **The budget covers the work**: whatever the command meets, and however long its queries and sends take within their
limits, it is done in time. -/
def Covers (node : Node) (maxRecordBytes : UInt64) (msg : Sidecar.Message) (base kad : Duration) : Prop :=
  ∀ answers total, Takes kad.nanos requestTimeout.nanos (runDhtCommand node maxRecordBytes answers msg).1 total →
    total ≤ (commandTimeout msg base kad).nanos

/-! ## The longest run -/

def actionCost (kad send : Nat) (trace : List Action) : Nat := (trace.map (actionLimit kad send)).sum

def cost (kad send : Nat) (trace : List WorkerAction) : Nat := (trace.map (limit kad send)).sum

@[simp] theorem actionCost_nil (kad send : Nat) : actionCost kad send [] = 0 := rfl

@[simp] theorem actionCost_cons (kad send : Nat) (action : Action) (trace : List Action) :
    actionCost kad send (action :: trace) = actionLimit kad send action + actionCost kad send trace := by
  rw [actionCost, List.map_cons, List.sum_cons, actionCost]

@[simp] theorem actionCost_append (kad send : Nat) (a b : List Action) :
    actionCost kad send (a ++ b) = actionCost kad send a + actionCost kad send b := by
  rw [actionCost, List.map_append, List.sum_append, actionCost, actionCost]

theorem cost_request (kad send : Nat) (trace : List Action) : cost kad send (trace.map .request) = actionCost kad send trace := by
  rw [cost, actionCost, List.map_map]
  rfl

theorem takes_cost (kad send : Nat) (trace : List WorkerAction) : Takes kad send trace (cost kad send trace) := by
  refine ⟨trace.map (limit kad send), ?_, rfl⟩
  rw [List.forall₂_map_right_iff]
  exact List.forall₂_same.2 fun _ _ => le_rfl

theorem Takes.le_cost {kad send total : Nat} : ∀ {trace : List WorkerAction}, Takes kad send trace total → total ≤ cost kad send trace := by
  rintro trace ⟨durations, hlimits, rfl⟩
  induction hlimits with
  | nil => exact Nat.le_refl 0
  | cons hle _ ih =>
    rw [List.sum_cons, cost, List.map_cons, List.sum_cons]
    exact Nat.add_le_add hle ih

/-- What one `send_request_resolved` may take. -/
def sendWorst (kad send : Nat) : Nat := kad + 2 * send

theorem actionCost_sends (kad send : Nat) (a : SendAnswers) (peer : PeerId) (request : Request) :
    actionCost kad send (Command.sendRequestResolved a peer request).1 ≤ sendWorst kad send := by
  unfold Command.sendRequestResolved
  simp only
  rw [sendWorst]
  -- one send, a send and a lookup, or two sends with the lookup between them
  split
  · simp only [actionCost_cons, actionCost_nil, actionLimit]
    omega
  split
  · simp only [actionCost_cons, actionCost_nil, actionLimit]
    omega
  · simp only [actionCost_cons, actionCost_nil, actionLimit]
    omega

/-- **Each attempt of `request_service`** looks up providers and sends. -/
theorem actionCost_requestLoop (kad send : Nat) (node : Node) (key : String) (request : Request) :
    ∀ (attempts : List AttemptAnswers) (attempt : Nat) (lastError : Option String),
      actionCost kad send (Command.requestLoop node key request attempt attempts lastError).1 ≤
        attempts.length * (kad + sendWorst kad send)
  | [], _, _ => Nat.zero_le _
  | a :: rest, attempt, _ => by
    have hrest := fun error => actionCost_requestLoop kad send node key request rest (attempt + 1) (some error)
    rw [List.length_cons, Nat.succ_mul]
    unfold Command.requestLoop
    split
    · rename_i error _
      have hrest := hrest error
      split
      · simp only [actionCost_cons, actionLimit]
        omega
      · simp only [actionCost_cons, actionCost_nil, actionLimit]
        omega
    · split
      · simp only [actionCost_cons, actionCost_nil, actionLimit]
        omega
      · rename_i c cs _
        simp only
        have hsends := actionCost_sends kad send a.sends ((node.peers.bestPeer (c :: cs)).getD c) request
        split
        · rename_i sends response heq
          rw [heq] at hsends
          simp only [actionCost_cons, actionLimit] at hsends ⊢
          omega
        · rename_i sends error heq
          rw [heq] at hsends
          have hrest := hrest error
          have hinvalidate : actionCost kad send (if attempt = 0 then [.invalidate key] else []) = 0 := by split <;> rfl
          simp only [actionCost_cons, actionCost_append, actionLimit, hinvalidate] at hsends ⊢
          omega

/-- The value is put under the key. -/
def putAccepted (maxRecordBytes : UInt64) (key : String) (value : Option Bytes) (providing : Bool) : Bool :=
  !providing && !key.isEmpty && isWritableKey key && value.any (fun bytes => decide (bytes.length ≤ maxRecordBytes.toNat))

/-- **The longest a command can take.** -/
def worst (node : Node) (maxRecordBytes : UInt64) (kad send : Nat) : Sidecar.Message → Nat
  | .discoverProviders .. => kad
  | .queryKey _ key => if key.isEmpty then 0 else 2 * kad
  | .serviceRequest .. => 2 * (kad + sendWorst kad send)
  | .serviceRequestTo _ _ peer _ => if (node.parsePeer peer).isOk then sendWorst kad send else 0
  | .addKey _ key value providing => if putAccepted maxRecordBytes key value providing then 2 * kad else 0
  | _ => 0

/-- An accepted `add_key` puts the record, and others do nothing. -/
theorem cost_addKey (maxRecordBytes : UInt64) (a : WorkerAnswers) (key : String) (value : Option Bytes) (providing : Bool)
    (kad send : Nat) : cost kad send (addKey maxRecordBytes a key value providing).1 =
      if putAccepted maxRecordBytes key value providing then 2 * kad else 0 := by
  unfold addKey putAccepted
  cases providing with
  | true => rfl
  | false =>
    cases hkey : key.isEmpty with
    | true => rfl
    | false =>
      cases hwritable : isWritableKey key with
      | false => rfl
      | true =>
        cases value with
        | none => rfl
        | some bytes =>
          have hauth : cost kad send (if startsWith key "/oahd/auth/" then [.invalidateAuth] else []) = 0 := by
            split <;> rfl
          by_cases hsize : bytes.length ≤ maxRecordBytes.toNat
          · have hcheck : checkCompatRecordSize bytes.length maxRecordBytes = .ok () := by
              rw [checkCompatRecordSize, if_neg (by omega)]
            cases a.put with
            | error e => simp [hcheck, hsize, cost, limit]
            | ok _ =>
              simp only [cost] at hauth
              simp [hcheck, hsize, cost, limit, hauth]
          · have hcheck : ∃ e, checkCompatRecordSize bytes.length maxRecordBytes = .error e := by
              rw [checkCompatRecordSize, if_pos (by omega)]
              exact ⟨_, rfl⟩
            obtain ⟨e, hcheck⟩ := hcheck
            simp [hcheck, hsize, cost]

/-- `query_key` reads the record and, unless that fails, the providers. -/
theorem cost_queryKey (a : WorkerAnswers) (key : String) (kad send : Nat) :
    cost kad send (queryKey a key).1 = if key.isEmpty then 0 else if a.record.isOk then 2 * kad else kad := by
  unfold queryKey
  split
  · rfl
  · cases a.record with
    | error e => simp [cost, limit, Except.isOk, Except.toBool]
    | ok value =>
      simp only [cost, limit, Except.isOk, Except.toBool, List.map_cons, List.map_nil, List.sum_cons, List.sum_nil, if_true]
      omega

theorem cost_le_worst (node : Node) (maxRecordBytes : UInt64) (a : WorkerAnswers) (kad send : Nat) (msg : Sidecar.Message) :
    cost kad send (runDhtCommand node maxRecordBytes a msg).1 ≤ worst node maxRecordBytes kad send msg := by
  cases msg with
  | discoverProviders id service => simp [runDhtCommand, cost, limit, worst]
  | queryKey id key =>
    rw [runDhtCommand, cost_queryKey, worst]
    split
    · exact Nat.le_refl 0
    · split <;> omega
  | serviceRequest id service payload =>
    simp only [runDhtCommand, Command.runDhtCommand, Command.requestService, cost_request]
    exact actionCost_requestLoop kad send node _ _ [a.requests.first, a.requests.second] 0 none
  | serviceRequestTo id service peer payload =>
    simp only [runDhtCommand, Command.runDhtCommand, cost_request, worst]
    cases node.parsePeer peer with
    | error e => exact Nat.zero_le _
    | ok peerId =>
      have hsends := actionCost_sends kad send a.requests.first.sends peerId ⟨service, payload⟩
      simp only
      split
      · rename_i heq
        rw [heq] at hsends
        exact hsends
      · rename_i heq
        rw [heq] at hsends
        exact hsends
  | addKey id key value providing => exact le_of_eq (cost_addKey maxRecordBytes a key value providing kad send)
  | _ => exact Nat.zero_le _

/-! ## It is reached -/

/-- Every send times out, and the closest peers have an address of the peer. -/
def timingOut (peer : PeerId) : SendAnswers :=
  ⟨.failed false 0 .timeout false, .ok [⟨peer, ["/dns/peer"]⟩], .failed false 0 .timeout false⟩

theorem timingOut_sends (peer : PeerId) (request : Request) :
    ∃ error, Command.sendRequestResolved (timingOut peer) peer request =
      ([.send peer [] request (.failed false 0 .timeout false), .closest peer ["/dns/peer"],
        .send peer ["/dns/peer"] request (.failed false 0 .timeout false)], .error error) := by
  have haddrs : (timingOut peer).addresses peer = ["/dns/peer"] := by
    simp [timingOut, SendAnswers.addresses, Command.providerAddresses]
  simp only [Command.sendRequestResolved, haddrs]
  exact ⟨_, rfl⟩

/-- A peer other than this node. -/
def remotePeer (node : Node) : PeerId := if node.myPeerId = "a" then "b" else "a"

theorem remotePeer_ne (node : Node) : (remotePeer node != node.myPeerId) = true := by
  rw [bne_iff_ne, remotePeer]
  split
  · rename_i h
    rw [h]
    decide
  · rename_i h
    exact fun he => h he.symm

/-- One provider is found, which does not answer. -/
def silentProvider (node : Node) : AttemptAnswers :=
  ⟨.ok (some [remotePeer node]), timingOut ((node.peers.bestPeer [remotePeer node]).getD (remotePeer node))⟩

theorem actionCost_silent (node : Node) (key : String) (request : Request) (kad send : Nat) :
    actionCost kad send (Command.requestLoop node key request 0 [silentProvider node, silentProvider node] none).1 =
      2 * (kad + sendWorst kad send) := by
  obtain ⟨error, hsends⟩ := timingOut_sends ((node.peers.bestPeer [remotePeer node]).getD (remotePeer node)) request
  have hcandidates : ((some [remotePeer node]).getD []).filter (fun peer => peer != node.myPeerId) = [remotePeer node] := by
    rw [Option.getD_some, List.filter_cons_of_pos (p := fun peer => peer != node.myPeerId) (remotePeer_ne node),
      List.filter_nil]
  simp only [Command.requestLoop, silentProvider, hcandidates, hsends]
  simp only [actionCost_cons, actionCost_append, actionCost_nil, actionLimit, sendWorst, if_true, Nat.zero_add,
    Nat.one_ne_zero, if_false]
  omega

theorem worst_reached (node : Node) (maxRecordBytes : UInt64) (kad send : Nat) (msg : Sidecar.Message) :
    ∃ a, cost kad send (runDhtCommand node maxRecordBytes a msg).1 = worst node maxRecordBytes kad send msg := by
  have hsilent : ∀ sends : SendAnswers, ∃ a : WorkerAnswers, a.requests.first.sends = sends ∧ a.record = .ok none :=
    fun sends => ⟨⟨.ok none, .ok none, .ok (), ⟨⟨.ok none, sends⟩, ⟨.ok none, sends⟩⟩⟩, rfl, rfl⟩
  cases msg with
  | discoverProviders id service =>
    obtain ⟨a, -⟩ := hsilent (timingOut "")
    exact ⟨a, by simp [runDhtCommand, cost, limit, worst]⟩
  | queryKey id key =>
    obtain ⟨a, -, hrecord⟩ := hsilent (timingOut "")
    exact ⟨a, by rw [runDhtCommand, cost_queryKey, hrecord]; rfl⟩
  | serviceRequest id service payload =>
    refine ⟨⟨.ok none, .ok none, .ok (), ⟨silentProvider node, silentProvider node⟩⟩, ?_⟩
    simp only [runDhtCommand, Command.runDhtCommand, Command.requestService, cost_request]
    exact actionCost_silent node _ _ kad send
  | serviceRequestTo id service peer payload =>
    cases hpeer : node.parsePeer peer with
    | error e =>
      obtain ⟨a, -⟩ := hsilent (timingOut "")
      exact ⟨a, by simp [runDhtCommand, Command.runDhtCommand, hpeer, worst, cost, Except.isOk, Except.toBool]⟩
    | ok peerId =>
      obtain ⟨a, hsends, -⟩ := hsilent (timingOut peerId)
      obtain ⟨error, hsent⟩ := timingOut_sends peerId ⟨service, payload⟩
      refine ⟨a, ?_⟩
      simp only [runDhtCommand, Command.runDhtCommand, hpeer, hsends, hsent, worst, cost_request, Except.isOk,
        Except.toBool, if_true]
      simp only [actionCost_cons, actionCost_nil, actionLimit, sendWorst]
      omega
  | addKey id key value providing =>
    obtain ⟨a, -⟩ := hsilent (timingOut "")
    exact ⟨a, cost_addKey maxRecordBytes a key value providing kad send⟩
  | _ =>
    obtain ⟨a, -⟩ := hsilent (timingOut "")
    exact ⟨a, rfl⟩

theorem covers_iff_worst {node : Node} {maxRecordBytes : UInt64} {msg : Sidecar.Message} {base kad : Duration} :
    Covers node maxRecordBytes msg base kad ↔
      worst node maxRecordBytes kad.nanos requestTimeout.nanos msg ≤ (commandTimeout msg base kad).nanos := by
  constructor
  · intro hcovers
    obtain ⟨a, ha⟩ := worst_reached node maxRecordBytes kad.nanos requestTimeout.nanos msg
    rw [← ha]
    exact hcovers a _ (takes_cost _ _ _)
  · intro hworst a total htakes
    exact htakes.le_cost.trans ((cost_le_worst node maxRecordBytes a kad.nanos requestTimeout.nanos msg).trans hworst)

/-! ## The comparison -/

/-- **When the budget suffices.**  For a service request the configured timeout has to do it alone; for the others the
time they need has to be a `Duration` at all. -/
def Budgeted (node : Node) (maxRecordBytes : UInt64) (base kad : Duration) : Sidecar.Message → Prop
  | .serviceRequest .. =>
    4 * kad.nanos + 4 * requestTimeout.nanos ≤ min (base.nanos + (Duration.fromSecs 5).nanos) Duration.maxNanos
  | .serviceRequestTo _ _ peer _ =>
    (node.parsePeer peer).isOk = true → kad.nanos + 2 * requestTimeout.nanos ≤ Duration.maxNanos
  | .queryKey _ key => key.isEmpty = false → 2 * kad.nanos ≤ Duration.maxNanos
  | .addKey _ key value providing =>
    putAccepted maxRecordBytes key value providing = true → 2 * kad.nanos ≤ Duration.maxNanos
  | _ => True

/-- A budget for what is needed suffices up to the greatest duration. -/
theorem le_budget_iff {needed base margin top : Nat} :
    needed ≤ min (max (min needed top) base + margin) top ↔ needed ≤ top := by
  omega

/-- A budget for half of the sends and a quarter of the queries does not suffice: the base timeout has to. -/
theorem le_half_budget_iff {kad send base margin top : Nat} (hmargin : margin < 2 * send) :
    2 * (kad + (kad + 2 * send)) ≤ min (max (min (kad + 2 * send) top) base + margin) top ↔
      4 * kad + 4 * send ≤ min (base + margin) top := by
  omega

theorem worst_le_iff_budgeted (node : Node) (maxRecordBytes : UInt64) (msg : Sidecar.Message) (base kad : Duration) :
    worst node maxRecordBytes kad.nanos requestTimeout.nanos msg ≤ (commandTimeout msg base kad).nanos ↔
      Budgeted node maxRecordBytes base kad msg := by
  have hkad := kad.le_maxNanos
  have hmargin : (Duration.fromSecs 5).nanos < 2 * requestTimeout.nanos := by decide +kernel
  have htwo : 2 * requestTimeout.nanos ≤ Duration.maxNanos := by decide +kernel
  have hsend : ((kad.saturatingAdd (requestTimeout.saturatingMul 2)).max base |>.saturatingAdd (.fromSecs 5)).nanos =
      min (max (min (kad.nanos + 2 * requestTimeout.nanos) Duration.maxNanos) base.nanos + (Duration.fromSecs 5).nanos)
        Duration.maxNanos := by
    simp only [Duration.nanos_saturatingAdd, Duration.nanos_saturatingMul, Duration.nanos_max, Nat.mul_comm _ 2,
      Nat.min_eq_left htwo]
  cases msg with
  | serviceRequest id service payload =>
    rw [commandTimeout, hsend]
    exact le_half_budget_iff hmargin
  | serviceRequestTo id service peer payload =>
    rw [commandTimeout, hsend, worst, Budgeted, sendWorst]
    cases (node.parsePeer peer).isOk with
    | false => simp
    | true => simpa using le_budget_iff
  | queryKey id key =>
    simp only [worst, Budgeted, commandTimeout, Duration.nanos_saturatingAdd, Duration.nanos_max, ← Nat.two_mul]
    cases key.isEmpty with
    | false => simpa using le_budget_iff
    | true => simp
  | addKey id key value providing =>
    simp only [worst, Budgeted, commandTimeout, Duration.nanos_saturatingAdd, Duration.nanos_max, ← Nat.two_mul]
    cases putAccepted maxRecordBytes key value providing with
    | false => simp
    | true => simpa using le_budget_iff
  | discoverProviders id service =>
    simp only [worst, Budgeted, commandTimeout, Duration.nanos_saturatingAdd, Duration.nanos_max, iff_true]
    omega
  | _ => exact iff_of_true (Nat.zero_le _) trivial

/-- Configured timeouts are 32 bits of seconds: every message but a service request is covered. -/
theorem covers_configured (node : Node) (maxRecordBytes : UInt64) (msg : Sidecar.Message) (base : Duration) (kad : UInt32)
    (h : ∀ id service payload, msg ≠ .serviceRequest id service payload) :
    Covers node maxRecordBytes msg base (.fromSecs kad.toUInt64) := by
  rw [covers_iff_worst, worst_le_iff_budgeted]
  have hkad : (Duration.fromSecs kad.toUInt64).nanos = kad.toNat * 1000000000 := by
    rw [Duration.nanos_fromSecs, UInt32.toNat_toUInt64]
  have hlt := kad.toNat_lt
  have hsend : requestTimeout.nanos = 30000000000 := by decide +kernel
  have htop : Duration.maxNanos = 18446744073709551615999999999 := by decide +kernel
  have hqueries : 2 * (Duration.fromSecs kad.toUInt64).nanos ≤ Duration.maxNanos := by omega
  have hsends : (Duration.fromSecs kad.toUInt64).nanos + 2 * requestTimeout.nanos ≤ Duration.maxNanos := by omega
  cases msg with
  | serviceRequest id service payload => exact absurd rfl (h id service payload)
  | serviceRequestTo id service peer payload => exact fun _ => hsends
  | queryKey | addKey => exact fun _ => hqueries
  | _ => trivial

/-- **The budget of a command covers its work exactly if it suffices for the longest run**: for a service request, four
queries and four sends within the base timeout. -/
theorem command_budget_iff (node : Node) (maxRecordBytes : UInt64) (msg : Sidecar.Message) (base kad : Duration) :
    Covers node maxRecordBytes msg base kad ↔ Budgeted node maxRecordBytes base kad msg :=
  covers_iff_worst.trans (worst_le_iff_budgeted node maxRecordBytes msg base kad)

/-! The defaults: 60 s for a query and 60 s for a command. -/

/-- A node that knows no round-trip times. -/
def quietNode : Node := ⟨"me", ⟨∅⟩, fun peer => .ok peer, fun _ => ""⟩

def cmdRequest : Sidecar.Message := .serviceRequest (Vector.replicate 16 0) "cmd" []

/-- **A service request outlasts its budget**: with the default timeouts two attempts at a provider that does not answer
take six minutes, and the dispatcher waits for little more than two. -/
theorem service_request_overruns :
    (commandTimeout cmdRequest (.fromSecs 60) (.fromSecs 60)).nanos = 125000000000 ∧
    (∃ answers, Takes (Duration.fromSecs 60).nanos requestTimeout.nanos
      (runDhtCommand quietNode 14336 answers cmdRequest).1 360000000000) ∧
    ¬ Covers quietNode 14336 cmdRequest (.fromSecs 60) (.fromSecs 60) := by
  have hbudget : (commandTimeout cmdRequest (.fromSecs 60) (.fromSecs 60)).nanos = 125000000000 := by decide +kernel
  have hworst : worst quietNode 14336 (Duration.fromSecs 60).nanos requestTimeout.nanos cmdRequest = 360000000000 := by
    decide +kernel
  obtain ⟨a, ha⟩ := worst_reached quietNode 14336 (Duration.fromSecs 60).nanos requestTimeout.nanos cmdRequest
  have htakes := takes_cost (Duration.fromSecs 60).nanos requestTimeout.nanos (runDhtCommand quietNode 14336 a cmdRequest).1
  rw [ha, hworst] at htakes
  refine ⟨hbudget, ⟨a, htakes⟩, fun hcovers => ?_⟩
  have hle := hcovers a _ htakes
  rw [hbudget] at hle
  exact absurd hle (by decide)

end DhtWorker
end Command
end NexusNet
