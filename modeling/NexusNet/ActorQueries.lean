import NexusNet.ActorPolicy
import NexusNet.ActorRuns
/-!
# ActorQueries — every DHT query answers its own waiter

The results of all queries come in one stream, and one table says who waits for which query.  What a waiter is told is
told by the part of the stream that belongs to its query: the results up to the first that ends the query, or up to the
end of a reload (`window`).  `Told` relates the two, and `queries_demultiplexed` says that nothing else is ever sent to
the waiter.
-/
namespace NexusNet
namespace Actor

open Pq (Crypto Wire PqKeys)

/-! ## What a waiter is told -/

/-- The replies sent to a reply channel. -/
def answersTo (n : Nat) (effects : List Effect) : List Reply :=
  effects.filterMap (fun
    | .answer resp reply => if resp = n then some reply else none
    | _ => none)

inductive Ending where
  | running
  | terminated (result : QueryResult)
  | reloaded
deriving DecidableEq

/-- **The part of a run that belongs to query `q`**: its results up to the one that ends it, and how it ended.  What
arrives during a reload is drained with the old swarm, and the end of the reload ends the query. -/
def window (q : Nat) : Bool → List Input → List QueryResult × Ending
  | _, [] => ([], .running)
  | reloading, input :: rest =>
    match input with
    | .event _ (.kademlia (.outboundQueryProgressed id result)) =>
      if id = q ∧ reloading = false then
        if result.isTerminal then ([], .terminated result)
        else (result :: (window q reloading rest).1, (window q reloading rest).2)
      else window q reloading rest
    | .reload _ _ none => window q true rest
    | .reloadEnd _ => ([], .reloaded)
    | _ => window q reloading rest

/-- **What the results of a query amount to**, for an entry that has collected some already: the records in the order of
their arrival, the union of the batches of providers, or the error. -/
inductive Delivers : KadPending → List QueryResult → QueryResult → Reply → Prop where
  | records (resp : Nat) (records new : List PeerRecord) (last : GetRecordResult)
      (ended : last = .finished ∨ last = .notFound ∨ (∃ e, last = .failed e) ∧ records ++ new ≠ []) :
      Delivers (.getRecord resp records) (new.map (fun r => .getRecord (.foundRecord r))) (.getRecord last)
        (.records (.ok (records ++ new)))
  | noRecords (resp : Nat) (e : String) :
      Delivers (.getRecord resp []) [] (.getRecord (.failed e)) (.records (.error (.kad e)))
  | providers (resp : Nat) (providers : Finset PeerId) (batches : List (Finset PeerId)) (list : List PeerId)
      (nodup : list.Nodup) (union : ∀ p, p ∈ list ↔ p ∈ providers ∨ ∃ batch ∈ batches, p ∈ batch) :
      Delivers (.getProviders resp providers) (batches.map (fun b => .getProviders (.foundProviders b)))
        (.getProviders .finished) (.providers (.ok list))
  | providersFailed (resp : Nat) (providers : Finset PeerId) (batches : List (Finset PeerId)) (e : String) :
      Delivers (.getProviders resp providers) (batches.map (fun b => .getProviders (.foundProviders b)))
        (.getProviders (.failed e)) (.providers (.error (.kad e)))
  | closestPeers (resp : Nat) (result : Except String (List PeerInfo)) :
      Delivers (.getClosestPeers resp) [] (.getClosestPeers result) (.closestPeers (result.mapError .kad))
  | putRecord (key : Bytes) (resp : Nat) (result : Except String Unit) :
      Delivers (.putRecord key resp) [] (.putRecord result) (.done (result.mapError .kad))
  | startProviding (resp : Nat) (result : Except String Unit) :
      Delivers (.startProviding resp) [] (.startProviding result) (.done (result.mapError .kad))

/-- What the waiter of an entry is told, by the window of its query: nothing while the query runs. -/
def Told (pending : KadPending) (answers : List Reply) : List QueryResult × Ending → Prop
  | (_, .running) => answers = []
  | (_, .reloaded) => answers = [pending.failure .reloaded]
  | (partials, .terminated last) => ∃ reply, answers = [reply] ∧ Delivers pending partials last reply

/-- The query a command starts: what the local store says of it, and the entry that waits for it. -/
def Command.kadQuery (env : Env) : Command → Option (Option String × KadPending)
  | .kadGetRecordAll _ resp => some (none, .getRecord resp [])
  | .kadGetProviders _ resp => some (none, .getProviders resp ∅)
  | .kadGetClosestPeers _ resp => some (none, .getClosestPeers resp)
  | .kadPutRecord key _ resp => some (env.storeError, .putRecord key resp)
  | .kadStartProviding _ resp => some (env.storeError, .startProviding resp)
  | _ => none

/-- Why a query is refused at once. -/
def refusal (A : SwarmActor) (storeError : Option String) : Option NetworkError :=
  if !A.swarm.kademlia then some .disabled else storeError.map .kad

def KadPending.kind : KadPending → Kind
  | .getRecord _ _ => .getRecord
  | .getProviders _ _ => .getProviders
  | .getClosestPeers _ => .getClosestPeers
  | .putRecord _ _ => .putRecord
  | .startProviding _ => .startProviding

theorem answersTo_append (n : Nat) (fx gx : List Effect) : answersTo n (fx ++ gx) = answersTo n fx ++ answersTo n gx :=
  List.filterMap_append

theorem answersTo_eq_nil {n : Nat} {effects : List Effect} (h : ∀ reply, .answer n reply ∉ effects) :
    answersTo n effects = [] := by
  refine List.filterMap_eq_nil_iff.2 (fun effect hmem => ?_)
  cases effect with
  | answer resp reply =>
    simp only [ite_eq_right_iff, reduceCtorEq, imp_false]
    rintro rfl
    exact h reply hmem
  | _ => rfl

/-! ## Results of a query -/

section Progress

variable {C : Crypto} {A : SwarmActor} {env : Env} {q : Nat} {pending : KadPending} {result : QueryResult}

/-- An entry after a result that does not end its query. -/
def KadPending.extend : KadPending → QueryResult → KadPending
  | .getRecord resp records, .getRecord (.foundRecord r) => .getRecord resp (records ++ [r])
  | .getProviders resp providers, .getProviders (.foundProviders batch) => .getProviders resp (providers ∪ batch)
  | pending, _ => pending

@[simp] theorem extend_resp (pending : KadPending) (result : QueryResult) : (pending.extend result).resp = pending.resp := by
  unfold KadPending.extend
  split <;> rfl

@[simp] theorem extend_kind (pending : KadPending) (result : QueryResult) : (pending.extend result).kind = pending.kind := by
  unfold KadPending.extend
  split <;> rfl

/-- **A result that does not end its query is collected.** -/
theorem progress_collects (hentry : A.pendingKad.lookup q = some pending) (hkind : result.kind = some pending.kind)
    (hmore : result.isTerminal = false) :
    A.handleKadEvent C env (.outboundQueryProgressed q result) =
      ({ A with pendingKad := (A.pendingKad.erase q).insert q (pending.extend result) }, []) := by
  cases result with
  | getRecord result =>
    cases result with
    | foundRecord record =>
      cases pending with
      | getRecord resp records =>
        simp only [SwarmActor.handleKadEvent, SwarmActor.progressGetRecord, hentry, KadPending.extend]
      | _ => cases hkind
    | _ => cases hmore
  | getProviders result =>
    cases result with
    | foundProviders batch =>
      cases pending with
      | getProviders resp providers =>
        simp only [SwarmActor.handleKadEvent, SwarmActor.progressGetProviders, hentry, applyGetProviders, KadPending.extend]
      | _ => cases hkind
    | _ => cases hmore
  | _ => cases hmore

/-- The end of a record query: what was collected, or the error when nothing was. -/
theorem terminal_getRecord {resp : Nat} {records : List PeerRecord} {result : GetRecordResult}
    (hentry : A.pendingKad.lookup q = some (.getRecord resp records))
    (hterminal : (QueryResult.getRecord result).isTerminal = true) :
    (A.progressGetRecord q result).1 = { A with pendingKad := A.pendingKad.erase q } ∧
    ∃ reply, answersTo resp (A.progressGetRecord q result).2 = [reply] ∧
      Delivers (.getRecord resp records) [] (.getRecord result) reply := by
  cases result with
  | foundRecord record => cases hterminal
  | finished =>
    simp only [SwarmActor.progressGetRecord, hentry]
    refine ⟨trivial, .records (.ok records), by simp [answersTo], ?_⟩
    simpa using Delivers.records resp records [] .finished (.inl rfl)
  | notFound =>
    simp only [SwarmActor.progressGetRecord, hentry]
    refine ⟨trivial, .records (.ok records), by simp [answersTo], ?_⟩
    simpa using Delivers.records resp records [] .notFound (.inr (.inl rfl))
  | failed e =>
    simp only [SwarmActor.progressGetRecord, hentry]
    refine ⟨trivial, .records (if records.isEmpty then .error (.kad e) else .ok records), by simp [answersTo], ?_⟩
    cases records with
    | nil => exact .noRecords resp e
    | cons r rs => simpa using Delivers.records resp (r :: rs) [] (.failed e) (.inr (.inr ⟨⟨e, rfl⟩, by simp⟩))

/-- The end of a provider query: what was collected, or the error. -/
theorem terminal_getProviders {resp : Nat} {providers : Finset PeerId} {result : GetProvidersResult}
    (hentry : A.pendingKad.lookup q = some (.getProviders resp providers))
    (hterminal : (QueryResult.getProviders result).isTerminal = true) :
    (A.progressGetProviders env q result).1 = { A with pendingKad := A.pendingKad.erase q } ∧
    ∃ reply, answersTo resp (A.progressGetProviders env q result).2 = [reply] ∧
      Delivers (.getProviders resp providers) [] (.getProviders result) reply := by
  cases result with
  | foundProviders batch => cases hterminal
  | finished =>
    simp only [SwarmActor.progressGetProviders, hentry, applyGetProviders]
    refine ⟨trivial, .providers (.ok (env.peers.list providers)), by simp [answersTo], ?_⟩
    exact .providers resp providers [] _ (env.peers.nodup_list providers) (fun p => by simp)
  | failed e =>
    simp only [SwarmActor.progressGetProviders, hentry, applyGetProviders]
    exact ⟨trivial, _, by simp [answersTo], .providersFailed resp providers [] e⟩

/-- **A result that ends its query is answered with what was collected.** -/
theorem progress_terminal (hentry : A.pendingKad.lookup q = some pending) (hkind : result.kind = some pending.kind)
    (hterminal : result.isTerminal = true) :
    (A.handleKadEvent C env (.outboundQueryProgressed q result)).1 = { A with pendingKad := A.pendingKad.erase q } ∧
    ∃ reply, answersTo pending.resp (A.handleKadEvent C env (.outboundQueryProgressed q result)).2 = [reply] ∧
      Delivers pending [] result reply := by
  cases result with
  | getRecord result =>
    cases pending with
    | getRecord resp records => exact terminal_getRecord hentry hterminal
    | _ => cases hkind
  | getProviders result =>
    cases pending with
    | getProviders resp providers => exact terminal_getProviders hentry hterminal
    | _ => cases hkind
  | getClosestPeers result =>
    cases pending with
    | getClosestPeers resp =>
      refine ⟨rfl, _, ?_, .closestPeers resp result⟩
      simp [SwarmActor.handleKadEvent, SwarmActor.progressGetClosestPeers, SwarmActor.progressOnce, hentry, answersTo,
        KadPending.resp]
    | _ => cases hkind
  | putRecord result =>
    cases pending with
    | putRecord key resp =>
      refine ⟨rfl, _, ?_, .putRecord key resp result⟩
      simp only [SwarmActor.handleKadEvent, SwarmActor.progressPutRecord, SwarmActor.progressOnce, hentry,
        Option.map_some, Option.getD_some, answersTo_append]
      split <;> simp [answersTo, KadPending.resp]
    | _ => cases hkind
  | startProviding result =>
    cases pending with
    | startProviding resp =>
      refine ⟨rfl, _, ?_, .startProviding resp result⟩
      simp [SwarmActor.handleKadEvent, SwarmActor.progressStartProviding, SwarmActor.progressOnce, hentry, answersTo,
        KadPending.resp]
    | _ => cases hkind
  | bootstrap | other => cases hkind

/-- What an extended entry delivers, the entry delivers with the result before. -/
theorem Delivers.cons {partials : List QueryResult} {last : QueryResult} {reply : Reply}
    (h : Delivers (pending.extend result) partials last reply) (hkind : result.kind = some pending.kind)
    (hmore : result.isTerminal = false) : Delivers pending (result :: partials) last reply := by
  cases result with
  | getRecord result =>
    cases result with
    | foundRecord record =>
      cases pending with
      | getRecord resp records =>
        simp only [KadPending.extend] at h
        generalize hp : KadPending.getRecord resp (records ++ [record]) = p at h
        cases h with
        | records resp' records' new last hended =>
          cases hp
          have := Delivers.records resp records (record :: new) last (by simpa using hended)
          simpa using this
        | noRecords resp' e => simp at hp
        | _ => cases hp
      | _ => cases hkind
    | _ => cases hmore
  | getProviders result =>
    cases result with
    | foundProviders batch =>
      cases pending with
      | getProviders resp providers =>
        simp only [KadPending.extend] at h
        generalize hp : KadPending.getProviders resp (providers ∪ batch) = p at h
        cases h with
        | providers resp' providers' batches list hnodup hunion =>
          cases hp
          refine .providers resp providers (batch :: batches) list hnodup (fun p => ?_)
          rw [hunion]
          simp [or_assoc]
        | providersFailed resp' providers' batches e =>
          cases hp
          exact .providersFailed resp providers (batch :: batches) e
        | _ => cases hp
      | _ => cases hkind
    | _ => cases hmore
  | _ => cases hmore

end Progress

/-! ## Who waits where -/

/-- The places where a reply channel waits in the tables. -/
inductive Slot where
  | kad (id : Nat)
  | outbound (id : Nat)
  | outboundPq (id : Nat)
deriving DecidableEq

/-- The place an event reports on. -/
def SwarmEvent.slot : SwarmEvent → Option Slot
  | .kademlia (.outboundQueryProgressed q _) => some (.kad q)
  | .serviceReq (.response id _) | .serviceReq (.outboundFailure _ id _) => some (.outbound id)
  | .serviceReqPq (.response id _) | .serviceReqPq (.outboundFailure _ id _) => some (.outboundPq id)
  | _ => none

def SwarmActor.waiter (A : SwarmActor) : Slot → Option Nat
  | .kad id => (A.pendingKad.lookup id).map KadPending.resp
  | .outbound id => (A.pendingOutbound.lookup id).map PendingOutbound.resp
  | .outboundPq id => (A.pendingOutboundPq.lookup id).map PqOutboundPending.resp

section Slots

variable {C : Crypto} {W : Wire} {A : SwarmActor} {env : Env} {n : Nat} {slot : Slot}

theorem waiter_erase {α : Type} {table : Dict Nat α} {resp : α → Nat} {id id' : Nat}
    (h : ((table.erase id).lookup id').map resp = some n) : (table.lookup id').map resp = some n := by
  rw [Dict.lookup_erase_ite] at h
  split at h
  · cases h
  · exact h

/-- Putting an entry back for the same reply channel. -/
theorem waiter_insert {table : Dict Nat KadPending} {id id' : Nat} {pending pending' : KadPending}
    (hentry : table.lookup id = some pending) (hresp : pending'.resp = pending.resp)
    (h : (((table.erase id).insert id pending').lookup id').map KadPending.resp = some n) :
    (table.lookup id').map KadPending.resp = some n := by
  rw [Dict.lookup_insert_ite] at h
  split at h
  · rename_i heq
    rw [heq, hentry]
    simpa [hresp] using h
  · exact waiter_erase h

theorem applyGetProviders_resp {order : Iteration PeerId} {pending pending' : KadPending} {result : GetProvidersResult}
    {effects : List Effect} (h : applyGetProviders order pending result = (some pending', effects)) :
    pending'.resp = pending.resp := by
  unfold applyGetProviders at h
  split at h <;> cases h <;> rfl

theorem waiter_kad {event : KadEvent} (h : (A.handleKadEvent C env event).1.waiter slot = some n) :
    A.waiter slot = some n := by
  cases slot with
  | kad id' =>
    simp only [SwarmActor.waiter] at h ⊢
    cases event with
    | routingUpdated | other => exact h
    | outboundQueryProgressed id result =>
      cases result with
      | bootstrap result =>
        simp only [SwarmActor.handleKadEvent, SwarmActor.progressBootstrap] at h
        split at h <;> exact h
      | getRecord result =>
        simp only [SwarmActor.handleKadEvent, SwarmActor.progressGetRecord] at h
        split at h
        · rename_i resp records hentry
          split at h
          · rename_i record
            have hresp : (KadPending.getRecord resp (records ++ [record])).resp = (KadPending.getRecord resp records).resp := rfl
            exact waiter_insert hentry hresp h
          all_goals exact waiter_erase h
        · exact waiter_erase h
      | getProviders result =>
        simp only [SwarmActor.handleKadEvent, SwarmActor.progressGetProviders] at h
        split at h
        · exact h
        · rename_i pending hentry
          split at h
          · rename_i pending' effects happly
            exact waiter_insert hentry (applyGetProviders_resp happly) h
          · exact waiter_erase h
      | getClosestPeers | putRecord | startProviding => exact waiter_erase h
      | other => exact h
  | outbound | outboundPq =>
    obtain ⟨kad, notice, heq⟩ := handleKadEvent_frame C A env event
    rw [heq] at h
    exact h

/-- **No event makes anyone wait.** -/
theorem waiter_event {event : SwarmEvent} (h : (A.handleEvent C env event).1.waiter slot = some n) :
    A.waiter slot = some n := by
  cases event with
  | kademlia event => exact waiter_kad h
  | serviceReq event =>
    simp only [SwarmActor.handleEvent, SwarmActor.handleServiceReq] at h
    split at h
    · split at h <;> exact h
    · split at h
      · exact h
      · cases slot with
        | outbound id => exact waiter_erase h
        | _ => exact h
    · split at h
      · exact h
      · cases slot with
        | outbound id => exact waiter_erase h
        | _ => exact h
    all_goals exact h
  | serviceReqPq event =>
    simp only [SwarmActor.handleEvent, SwarmActor.handleServiceReqPq] at h
    split at h
    · obtain ⟨inbound, heq⟩ := handlePqRequest_frame C A env _ _ _ _
      rw [heq] at h
      exact h
    · split at h
      · exact h
      · cases slot with
        | outboundPq id => exact waiter_erase h
        | _ => exact h
    · split at h
      · exact h
      · cases slot with
        | outboundPq id => exact waiter_erase h
        | _ => exact h
    all_goals exact h
  | pqIdentity event =>
    obtain ⟨identities, pending, heq⟩ := handlePqIdentity_frame C A event
    simp only [SwarmActor.handleEvent, heq] at h
    exact h
  | identifyReceived peer info =>
    obtain ⟨peers, pending, heq⟩ := onIdentifyPeer_frame A env peer info
    simp only [SwarmActor.handleEvent, heq] at h
    exact h
  | connectionClosed peer connection numEstablished =>
    simp only [SwarmActor.handleEvent, SwarmActor.connectionClosed] at h
    split at h <;> exact h
  | _ => exact h

theorem waiter_startQuery {storeError : Option String} {query : Query} {pending : KadPending}
    (h : (A.startQuery env storeError query pending).1.waiter slot = some n) :
    A.waiter slot = some n ∨ pending.resp = n := by
  unfold SwarmActor.startQuery at h
  split at h
  · exact .inl h
  · split at h
    · exact .inl h
    · cases slot with
      | kad id =>
        simp only [SwarmActor.waiter, Dict.lookup_insert_ite] at h
        split at h
        · exact .inr (Option.some.inj h)
        · exact .inl h
      | _ => exact .inl h

theorem waiter_serviceSendRequest {peer : PeerId} {request : Request} {addresses : List Multiaddr} {resp : Nat}
    (h : (A.serviceSendRequest C W env peer request addresses resp).1.waiter slot = some n) :
    A.waiter slot = some n ∨ resp = n := by
  unfold SwarmActor.serviceSendRequest at h
  split at h
  · split at h
    · unfold SwarmActor.sendSealed at h
      split at h
      · exact .inl h
      · split at h
        · cases slot with
          | outboundPq id =>
            simp only [SwarmActor.waiter, Dict.lookup_insert_ite] at h
            split at h
            · exact .inr (Option.some.inj h)
            · exact .inl h
          | _ => exact .inl h
        · exact .inl h
    · exact .inl h
  · unfold SwarmActor.sendPlaintext at h
    simp only at h
    split at h
    · exact .inl h
    · cases slot with
      | outbound id =>
        simp only [SwarmActor.waiter, Dict.lookup_insert_ite] at h
        split at h
        · exact .inr (Option.some.inj h)
        · exact .inl h
      | _ => exact .inl h
  · obtain ⟨pending, heq⟩ := maybeFetchPqIdentity_frame A env peer
    simp only [heq] at h
    exact .inl h
  all_goals exact .inl h

/-- **A command makes only its own reply channel wait.** -/
theorem waiter_command {command : Command} (h : (A.handleCommand C W env command).1.waiter slot = some n) :
    A.waiter slot = some n ∨ command.resp = some n := by
  have hquery : ∀ {storeError query pending}, (A.startQuery env storeError query pending).1.waiter slot = some n →
      command.resp = some pending.resp → A.waiter slot = some n ∨ command.resp = some n := by
    intro storeError query pending h hresp
    rcases waiter_startQuery h with hold | hnew
    · exact .inl hold
    · exact .inr (by rw [hresp, hnew])
  cases command with
  | kadGetRecordAll | kadGetProviders | kadGetClosestPeers | kadPutRecord | kadStartProviding => exact hquery h rfl
  | kadStopProviding key resp => exact .inl (kadLocal_frame A _ _ ▸ h)
  | kadRemoveRecord key resp => exact .inl (kadLocal_frame A _ _ ▸ h)
  | kadCacheRefresh resp => exact .inl (kadCacheRefresh_frame A env resp ▸ h)
  | serviceSendRequest peer request addresses resp =>
    rcases waiter_serviceSendRequest h with hold | hnew
    · exact .inl hold
    · exact .inr (congrArg some hnew)
  | serviceSendResponse requestId response =>
    obtain ⟨inbound, heq⟩ := serviceSendResponse_frame C A env requestId response
    simp only [SwarmActor.handleCommand, heq] at h
    exact .inl h
  | _ => exact .inl h

/-! ## Who is answered -/

theorem not_answer_of_only (kinds : List EffectKind) {effects : List Effect} (h : Only kinds effects)
    (hkinds : EffectKind.answer ∉ kinds) {reply : Reply} : .answer n reply ∉ effects :=
  fun hmem => hkinds (h _ hmem)

theorem resp_of_answer {resp : Nat} {reply reply' : Reply} (h : .answer n reply ∈ [Effect.answer resp reply']) : resp = n :=
  (Effect.answer.inj (List.mem_singleton.1 h)).1.symm

theorem answer_progressOnce {q : Nat} {reply : Reply} {finish : KadPending → List Effect}
    (hfinish : ∀ pending, .answer n reply ∈ finish pending → pending.resp = n)
    (h : .answer n reply ∈ (A.progressOnce q finish).2) : A.waiter (.kad q) = some n := by
  unfold SwarmActor.progressOnce at h
  cases hentry : A.pendingKad.lookup q with
  | none => simp [hentry] at h
  | some pending =>
    have hresp : pending.resp = n := hfinish pending (by simpa [hentry] using h)
    simp only [SwarmActor.waiter, hentry, Option.map_some, hresp]

theorem answer_progressGetRecord {q : Nat} {reply : Reply} {result : GetRecordResult}
    (h : .answer n reply ∈ (A.progressGetRecord q result).2) : A.waiter (.kad q) = some n := by
  unfold SwarmActor.progressGetRecord at h
  split at h
  · rename_i resp records hentry
    have hresp : resp = n := by
      split at h
      · cases h
      all_goals exact resp_of_answer h
    simp only [SwarmActor.waiter, hentry, Option.map_some, KadPending.resp, hresp]
  · cases h

theorem answer_applyGetProviders {order : Iteration PeerId} {pending : KadPending} {result : GetProvidersResult}
    {reply : Reply} (h : .answer n reply ∈ (applyGetProviders order pending result).2) : pending.resp = n := by
  unfold applyGetProviders at h
  split at h
  · cases h
  · exact resp_of_answer h
  · exact resp_of_answer h
  · cases h

theorem answer_progressGetProviders {q : Nat} {reply : Reply} {result : GetProvidersResult}
    (h : .answer n reply ∈ (A.progressGetProviders env q result).2) : A.waiter (.kad q) = some n := by
  unfold SwarmActor.progressGetProviders at h
  split at h
  · cases h
  · rename_i pending hentry
    have happly : .answer n reply ∈ (applyGetProviders env.peers pending result).2 := by
      split at h <;> rename_i heq <;> rw [heq] <;> exact h
    simp only [SwarmActor.waiter, hentry, Option.map_some, answer_applyGetProviders happly]

/-- **A result answers only who waits at its query.** -/
theorem answer_kad {event : KadEvent} {reply : Reply} (h : .answer n reply ∈ (A.handleKadEvent C env event).2) :
    ∃ q result, event = .outboundQueryProgressed q result ∧ A.waiter (.kad q) = some n := by
  cases event with
  | routingUpdated peer =>
    simp only [SwarmActor.handleKadEvent] at h
    split at h <;> simp at h
  | other => cases h
  | outboundQueryProgressed q result =>
    refine ⟨q, result, rfl, ?_⟩
    cases result with
    | bootstrap result =>
      simp only [SwarmActor.handleKadEvent, SwarmActor.progressBootstrap] at h
      split at h <;> simp at h
    | getRecord result => exact answer_progressGetRecord h
    | getProviders result => exact answer_progressGetProviders h
    | getClosestPeers | startProviding =>
      refine answer_progressOnce (fun pending hmem => ?_) h
      split at hmem
      · exact resp_of_answer hmem
      · cases hmem
    | putRecord result =>
      refine answer_progressOnce (fun pending hmem => ?_) h
      split at hmem
      · rcases List.mem_append.1 hmem with hmem | hmem
        · split at hmem <;> simp at hmem
        · exact resp_of_answer hmem
      · cases hmem
    | other => cases h

/-- **An event answers only who waits at the place it reports on.** -/
theorem answer_slot {event : SwarmEvent} {reply : Reply} (h : .answer n reply ∈ (A.handleEvent C env event).2) :
    ∃ slot, event.slot = some slot ∧ A.waiter slot = some n := by
  cases event with
  | kademlia event =>
    obtain ⟨q, result, rfl, hwaiter⟩ := answer_kad h
    exact ⟨_, rfl, hwaiter⟩
  | serviceReq event =>
    cases event with
    | request peer connection request channel =>
      simp only [SwarmActor.handleEvent, SwarmActor.handleServiceReq, SwarmActor.admitRequest] at h
      split at h <;> simp at h
    | response | outboundFailure =>
      simp only [SwarmActor.handleEvent, SwarmActor.handleServiceReq] at h
      split at h
      · cases h
      · rename_i hentry
        exact ⟨_, rfl, by simp only [SwarmActor.waiter, hentry, Option.map_some, resp_of_answer h]⟩
    | inboundFailure | responseSent => cases h
  | serviceReqPq event =>
    cases event with
    | request peer connection request channel =>
      -- what answers no query and stands in no table is a response to the peer
      refine absurd h (not_answer_of_only [.admission, .respond] ?_ (by simp))
      simp only [SwarmActor.handleEvent, SwarmActor.handleServiceReqPq, SwarmActor.handlePqRequest, SwarmActor.admitRequest]
      split
      · exact only_nil
      split
      · exact only_nil
      split
      · exact (respondPq_only C A env _ _ _).mono (by simp)
      split
      · exact (respondPq_only C A env _ _ _).mono (by simp)
      · simp [Effect.kind]
    | response | outboundFailure =>
      simp only [SwarmActor.handleEvent, SwarmActor.handleServiceReqPq] at h
      split at h
      · cases h
      · rename_i hentry
        exact ⟨_, rfl, by simp only [SwarmActor.waiter, hentry, Option.map_some, resp_of_answer h]⟩
    | inboundFailure | responseSent => cases h
  | pqIdentity event => exact absurd h (not_answer_of_only _ (handlePqIdentity_only C A event) (by simp))
  | identifyReceived peer info =>
    refine absurd h (not_answer_of_only [.other] (only_append.2 ⟨onIdentifyPeer_only A env peer info, ?_⟩) (by simp))
    simp [Effect.kind]
  | newListenAddr addr =>
    simp only [SwarmActor.handleEvent] at h
    split at h <;> simp at h
  | _ => simp [SwarmActor.handleEvent] at h

/-- **An event answers only who waits**: at the query it reports on, or in another table. -/
theorem answer_event {event : SwarmEvent} {reply : Reply} (h : .answer n reply ∈ (A.handleEvent C env event).2) :
    (∃ q result, event = .kademlia (.outboundQueryProgressed q result) ∧ A.waiter (.kad q) = some n) ∨
      ∃ slot, (∀ q, slot ≠ .kad q) ∧ A.waiter slot = some n := by
  obtain ⟨slot, hslot, hwaiter⟩ := answer_slot h
  cases slot with
  | kad q =>
    unfold SwarmEvent.slot at hslot
    split at hslot <;> cases hslot
    exact .inl ⟨q, _, rfl, hwaiter⟩
  | outbound | outboundPq => exact .inr ⟨_, fun q hq => (by cases hq), hwaiter⟩

theorem answer_startQuery {storeError : Option String} {query : Query} {pending : KadPending} {reply : Reply}
    (h : .answer n reply ∈ (A.startQuery env storeError query pending).2) : pending.resp = n := by
  unfold SwarmActor.startQuery at h
  split at h
  · exact resp_of_answer h
  · split at h
    · exact resp_of_answer h
    · simp at h

theorem answer_kadLocal {effect : Effect} {resp : Nat} {reply : Reply} (hkind : effect.kind = .other)
    (h : .answer n reply ∈ (A.kadLocal effect resp).2) : resp = n := by
  unfold SwarmActor.kadLocal at h
  split at h
  · rcases List.mem_cons.1 h with heq | h
    · rw [← heq] at hkind
      cases hkind
    · exact resp_of_answer h
  · exact resp_of_answer h

theorem answer_serviceSendRequest {peer : PeerId} {request : Request} {addresses : List Multiaddr} {resp : Nat}
    {reply : Reply} (h : .answer n reply ∈ (A.serviceSendRequest C W env peer request addresses resp).2) : resp = n := by
  unfold SwarmActor.serviceSendRequest at h
  split at h
  · split at h
    · unfold SwarmActor.sendSealed at h
      split at h
      · exact resp_of_answer h
      · split at h
        · simp at h
        · exact resp_of_answer h
    · cases h
  · unfold SwarmActor.sendPlaintext at h
    simp only at h
    split at h
    · exact resp_of_answer h
    · simp at h
  · rcases List.mem_append.1 h with h | h
    · exact absurd h (not_answer_of_only _ (maybeFetchPqIdentity_only A env peer) (by simp))
    · exact resp_of_answer h
  all_goals exact resp_of_answer h

/-- **A command answers only itself.** -/
theorem answer_command {command : Command} {reply : Reply} (h : .answer n reply ∈ (A.handleCommand C W env command).2) :
    command.resp = some n := by
  cases command with
  | kadStopProviding | kadRemoveRecord => exact congrArg some (answer_kadLocal rfl h)
  | kadCacheRefresh resp =>
    simp only [SwarmActor.handleCommand, SwarmActor.kadCacheRefresh] at h
    split at h
    · rcases List.mem_cons.1 h with heq | h
      · cases heq
      · exact congrArg some (resp_of_answer h)
    · exact congrArg some (resp_of_answer h)
  | serviceSendRequest peer request addresses resp => exact congrArg some (answer_serviceSendRequest h)
  | serviceSendResponse requestId response =>
    exact absurd h (not_answer_of_only _ (serviceSendResponse_only C A env requestId response) (by simp))
  | listenOn | dial =>
    simp only [SwarmActor.handleCommand, List.mem_cons, reduceCtorEq, false_or, List.not_mem_nil, or_false] at h
    exact congrArg some (Effect.answer.inj h).1.symm
  | disconnectPeer peer => simp [SwarmActor.handleCommand] at h
  | reload resp => cases h
  | _ => exact congrArg some (answer_startQuery h)

/-! ## The entry of a query -/

theorem entry_kad {q : Nat} {event : KadEvent} (h : ∀ result, event ≠ .outboundQueryProgressed q result) :
    (A.handleKadEvent C env event).1.pendingKad.lookup q = A.pendingKad.lookup q := by
  cases event with
  | routingUpdated peer => rfl
  | other => rfl
  | outboundQueryProgressed id result =>
    have hne : q ≠ id := fun heq => h result (by rw [heq])
    have herase : (A.pendingKad.erase id).lookup q = A.pendingKad.lookup q := by
      rw [Dict.lookup_erase_ite, if_neg hne]
    have hinsert : ∀ pending, ((A.pendingKad.erase id).insert id pending).lookup q = A.pendingKad.lookup q :=
      fun pending => by rw [Dict.lookup_insert_ite, if_neg hne, herase]
    cases result with
    | bootstrap result =>
      simp only [SwarmActor.handleKadEvent, SwarmActor.progressBootstrap]
      split <;> rfl
    | getRecord result =>
      simp only [SwarmActor.handleKadEvent, SwarmActor.progressGetRecord]
      split
      · split
        · exact hinsert _
        all_goals exact herase
      · exact herase
    | getProviders result =>
      simp only [SwarmActor.handleKadEvent, SwarmActor.progressGetProviders]
      split
      · rfl
      · split
        · exact hinsert _
        · exact herase
    | getClosestPeers | putRecord | startProviding => exact herase
    | other => rfl

/-- **Only a result of the query changes its entry.** -/
theorem entry_event {q : Nat} {event : SwarmEvent} (h : ∀ result, event ≠ .kademlia (.outboundQueryProgressed q result)) :
    (A.handleEvent C env event).1.pendingKad.lookup q = A.pendingKad.lookup q := by
  cases event with
  | kademlia event => exact entry_kad (fun result heq => h result (by rw [heq]))
  | serviceReq event =>
    obtain ⟨inbound, outbound, heq⟩ := handleServiceReq_frame A env event
    simp only [SwarmActor.handleEvent, heq]
  | serviceReqPq event =>
    obtain ⟨inbound, outbound, heq⟩ := handleServiceReqPq_frame C A env event
    simp only [SwarmActor.handleEvent, heq]
  | pqIdentity event =>
    obtain ⟨identities, pending, heq⟩ := handlePqIdentity_frame C A event
    simp only [SwarmActor.handleEvent, heq]
  | identifyReceived peer info =>
    obtain ⟨peers, pending, heq⟩ := onIdentifyPeer_frame A env peer info
    simp only [SwarmActor.handleEvent, heq]
  | connectionClosed peer connection numEstablished =>
    simp only [SwarmActor.handleEvent, SwarmActor.connectionClosed]
    split <;> rfl
  | _ => rfl

/-- **Only the start of a query under its id changes its entry.** -/
theorem entry_command {q : Nat} {command : Command}
    (h : ∀ query, .query q query ∉ (A.handleCommand C W env command).2) :
    (A.handleCommand C W env command).1.pendingKad.lookup q = A.pendingKad.lookup q := by
  have hquery : ∀ storeError query pending, (∀ query', .query q query' ∉ (A.startQuery env storeError query pending).2) →
      (A.startQuery env storeError query pending).1.pendingKad.lookup q = A.pendingKad.lookup q := by
    intro storeError query pending h
    unfold SwarmActor.startQuery at h ⊢
    split
    · rfl
    · rename_i henabled
      cases storeError with
      | some e => rfl
      | none =>
        simp only [henabled, Bool.false_eq_true, if_false] at h
        have hne : q ≠ env.fresh := fun heq => h query (by simp [heq])
        exact (Dict.lookup_insert_ite _ _ _ _).trans (if_neg hne)
  cases command with
  | kadGetRecordAll | kadGetProviders | kadGetClosestPeers | kadPutRecord | kadStartProviding => exact hquery _ _ _ h
  | kadStopProviding key resp => simp only [SwarmActor.handleCommand, kadLocal_frame]
  | kadRemoveRecord key resp => simp only [SwarmActor.handleCommand, kadLocal_frame]
  | kadCacheRefresh resp => simp only [SwarmActor.handleCommand, kadCacheRefresh_frame]
  | serviceSendRequest peer request addresses resp =>
    obtain ⟨outbound, outboundPq, pending, heq⟩ := serviceSendRequest_frame C W A env peer request addresses resp
    simp only [SwarmActor.handleCommand, heq]
  | serviceSendResponse requestId response =>
    obtain ⟨inbound, heq⟩ := serviceSendResponse_frame C A env requestId response
    simp only [SwarmActor.handleCommand, heq]
  | _ => rfl

end Slots

/-! ## The end of a reload -/

section Drain

variable {α : Type} {table : Dict Nat α} {resp : α → Nat} {reply : α → Reply} {n : Nat}

/-- A table in which nobody waits at `n` is drained without an answer to it. -/
theorem answersTo_drain_none (h : ∀ id a, table.lookup id = some a → resp a ≠ n) (ids : List Nat) :
    answersTo n ((ids.filterMap table.lookup).map (fun a => Effect.answer (resp a) (reply a))) = [] := by
  refine answersTo_eq_nil (fun r hmem => ?_)
  obtain ⟨a, ha, heq⟩ := List.mem_map.1 hmem
  obtain ⟨id, -, hid⟩ := List.mem_filterMap.1 ha
  exact h id a hid (Effect.answer.inj heq).1

/-- One that holds `n` in one entry is drained with the answer of that entry. -/
theorem answersTo_drain_one {q : Nat} {a : α} (hentry : table.lookup q = some a) (hresp : resp a = n)
    (halone : ∀ id b, table.lookup id = some b → resp b = n → id = q) : ∀ {ids : List Nat}, ids.Nodup → q ∈ ids →
    answersTo n ((ids.filterMap table.lookup).map (fun a => Effect.answer (resp a) (reply a))) = [reply a]
  | id :: ids, hnodup, hmem => by
    rw [List.nodup_cons] at hnodup
    rw [List.filterMap_cons]
    by_cases hid : id = q
    · -- the entries after it are others
      have hrest : answersTo n ((ids.filterMap table.lookup).map (fun a => Effect.answer (resp a) (reply a))) = [] := by
        refine answersTo_eq_nil (fun r hr => ?_)
        obtain ⟨b, hb, heq⟩ := List.mem_map.1 hr
        obtain ⟨id', hid', hb⟩ := List.mem_filterMap.1 hb
        have := halone id' b hb (Effect.answer.inj heq).1
        exact hnodup.1 (by rwa [hid, ← this])
      rw [hid, hentry]
      simp only [List.map_cons]
      rw [answersTo, List.filterMap_cons]
      simp only [hresp, if_true]
      exact congrArg _ hrest
    · have hin : q ∈ ids := by
        rcases List.mem_cons.1 hmem with heq | hin
        · exact absurd heq.symm hid
        · exact hin
      have hrest := answersTo_drain_one hentry hresp halone hnodup.2 hin
      cases hb : table.lookup id with
      | none => exact hrest
      | some b =>
        have hne : resp b ≠ n := fun heq => hid (halone id b hb heq)
        simp only [List.map_cons]
        rw [answersTo, List.filterMap_cons]
        simp only [hne, if_false]
        exact hrest

theorem answersTo_map_dial (n : Nat) (nodes : List Multiaddr) : answersTo n (nodes.map Effect.dial) = [] :=
  answersTo_eq_nil (fun _ hmem => by
    obtain ⟨node, -, heq⟩ := List.mem_map.1 hmem
    cases heq)

end Drain

section Reload

variable {A : SwarmActor} {env : Env} {n : Nat}

theorem not_waiting_outbound (h : ∀ slot, A.waiter slot = some n → ∃ q, slot = .kad q) {id : Nat} {p : PendingOutbound}
    (hp : A.pendingOutbound.lookup id = some p) : p.resp ≠ n := by
  rintro rfl
  obtain ⟨q, hq⟩ := h (.outbound id) (by simp only [SwarmActor.waiter, hp, Option.map_some])
  cases hq

theorem not_waiting_outboundPq (h : ∀ slot, A.waiter slot = some n → ∃ q, slot = .kad q) {id : Nat}
    {p : PqOutboundPending} (hp : A.pendingOutboundPq.lookup id = some p) : p.resp ≠ n := by
  rintro rfl
  obtain ⟨q, hq⟩ := h (.outboundPq id) (by simp only [SwarmActor.waiter, hp, Option.map_some])
  cases hq

/-- **Who waits nowhere is not failed by a reload.** -/
theorem failPending_absent (env : Env) (h : ∀ slot, A.waiter slot ≠ some n) : answersTo n (A.failPending env) = [] := by
  have hkad : ∀ slot, A.waiter slot = some n → ∃ q, slot = .kad q := fun slot hslot => absurd hslot (h slot)
  rw [SwarmActor.failPending, answersTo_append, answersTo_append,
    answersTo_drain_none (fun id p hp => not_waiting_outbound hkad hp),
    answersTo_drain_none (fun id p hp => not_waiting_outboundPq hkad hp), answersTo_drain_none]
  · rfl
  · rintro id p hp rfl
    exact h (.kad id) (by simp only [SwarmActor.waiter, hp, Option.map_some])

/-- **Who waits at one query is failed once.** -/
theorem failPending_alone {q : Nat} {pending : KadPending} (hentry : A.pendingKad.lookup q = some pending)
    (halone : ∀ slot, A.waiter slot = some pending.resp → slot = .kad q) :
    answersTo pending.resp (A.failPending env) = [pending.failure .reloaded] := by
  have hkad : ∀ slot, A.waiter slot = some pending.resp → ∃ q, slot = .kad q := fun slot hslot => ⟨q, halone slot hslot⟩
  rw [SwarmActor.failPending, answersTo_append, answersTo_append,
    answersTo_drain_none (fun id p hp => not_waiting_outbound hkad hp),
    answersTo_drain_none (fun id p hp => not_waiting_outboundPq hkad hp), List.append_nil, List.append_nil]
  refine answersTo_drain_one hentry rfl (fun id p hp heq => ?_) (env.ids.nodup_list _)
    ((env.ids.mem_list).2 (Finmap.mem_keys.2 (Finmap.mem_of_lookup_eq_some hentry)))
  have := halone (.kad id) (by simp only [SwarmActor.waiter, hp, Option.map_some, heq])
  exact Slot.kad.inj this

end Reload

/-! ## Runs -/

def Phase.isReloading : Phase → Bool
  | .running => false
  | .reloading _ _ => true

/-- **The reply channel is used up**: it has been given, and nobody waits with it. -/
structure Settled (n : Nat) (w : World) : Prop where
  used : n ∈ w.resps
  absent : ∀ slot, w.actor.waiter slot ≠ some n
  phase : ∀ swarm, w.phase ≠ .reloading n swarm

/-- **A query under way**: its entry holds its reply channel, and nothing else does. -/
structure Waiting (q : Nat) (pending : KadPending) (w : World) : Prop where
  entry : w.actor.pendingKad.lookup q = some pending
  running : w.phase = .running → w.queries.lookup q = some pending.kind
  issued : (.kademlia, q) ∈ w.issued
  used : pending.resp ∈ w.resps
  alone : ∀ slot, w.actor.waiter slot = some pending.resp → slot = .kad q
  phase : ∀ swarm, w.phase ≠ .reloading pending.resp swarm

section Steps

variable {C : Crypto} {W : Wire} {w w' : World} {input : Input} {effects : List Effect} {n q : Nat}
  {pending : KadPending}

theorem Stepped.used_mono (h : Stepped C W w input w' effects) (hn : n ∈ w.resps) : n ∈ w'.resps := by
  rw [h.resps]
  cases input with
  | command env command =>
    simp only [World.respsAfter]
    cases command.resp with
    | none => exact hn
    | some resp => exact Finset.mem_insert_of_mem hn
  | reload env resp buildError => exact Finset.mem_insert_of_mem hn
  | _ => exact hn

/-- The reply channel of a command is new. -/
theorem Stepped.resp_new {env : Env} {command : Command} (h : Stepped C W w (.command env command) w' effects)
    (hresp : command.resp = some n) : n ∉ w.resps ∧ n ∈ w'.resps := by
  have haccepts := h.accepts
  simp only [World.accepts, hresp, Option.all_some, decide_eq_true_eq] at haccepts
  refine ⟨haccepts, ?_⟩
  rw [h.resps]
  simp only [World.respsAfter, hresp, Option.elim_some]
  exact Finset.mem_insert_self _ _

theorem Stepped.reload_new {env : Env} {buildError : Option NetworkError}
    (h : Stepped C W w (.reload env n buildError) w' effects) : n ∉ w.resps ∧ n ∈ w'.resps := by
  refine ⟨of_decide_eq_true h.accepts, ?_⟩
  rw [h.resps]
  exact Finset.mem_insert_self _ _

/-- **Who waits after a step waited before it, or came with it.** -/
theorem Stepped.waiter (h : Stepped C W w input w' effects) {slot : Slot} (hslot : w'.actor.waiter slot = some n) :
    w.actor.waiter slot = some n ∨ n ∉ w.resps ∧ n ∈ w'.resps := by
  have hhandled := h.handledAs
  generalize w'.actor = actor at hhandled hslot
  generalize w'.phase = phase at hhandled
  cases hhandled with
  | event env event hrunning => exact .inl (waiter_event hslot)
  | oldEvent | buildFailed => exact .inl hslot
  | command env command hrunning hother =>
    rcases waiter_command hslot with hold | hresp
    · exact .inl hold
    · exact .inr (h.resp_new hresp)
  | reloadBegins env resp hrunning => exact .inl (by cases slot <;> exact hslot)
  | reloadEnds env resp swarm hreloading => cases slot <;> simp [SwarmActor.waiter, SwarmActor.finishReload] at hslot

theorem Stepped.reloading (h : Stepped C W w input w' effects) {swarm : Behaviours}
    (hphase : w'.phase = .reloading n swarm) : w.phase = .reloading n swarm ∨ n ∉ w.resps ∧ n ∈ w'.resps := by
  have hhandled := h.handledAs
  rw [hphase] at hhandled
  generalize w'.actor = actor at hhandled
  cases hhandled with
  | oldEvent env event resp swarm hreloading => exact .inl hreloading
  | reloadBegins env resp hrunning => exact .inr h.reload_new

/-- **Who is answered was waiting, or came with the step.** -/
theorem Stepped.answer (h : Stepped C W w input w' effects) {reply : Reply} (hmem : .answer n reply ∈ effects) :
    (∃ slot, w.actor.waiter slot = some n) ∨ (∃ swarm, w.phase = .reloading n swarm) ∨ n ∉ w.resps ∧ n ∈ w'.resps := by
  have hhandled := h.handledAs
  generalize w'.actor = actor at hhandled
  generalize w'.phase = phase at hhandled
  cases hhandled with
  | event env event hrunning =>
    rcases answer_event hmem with ⟨q, result, -, hq⟩ | ⟨slot, -, hslot⟩
    · exact .inl ⟨_, hq⟩
    · exact .inl ⟨slot, hslot⟩
  | oldEvent env event resp swarm hreloading =>
    exact absurd hmem (not_answer_of_only _ (rejectOldSwarmEvent_only C w.actor env event) (by simp))
  | command env command hrunning hother => exact .inr (.inr (h.resp_new (answer_command hmem)))
  | buildFailed env resp error hrunning =>
    obtain ⟨rfl, -⟩ := Effect.answer.inj (List.mem_singleton.1 hmem)
    exact .inr (.inr h.reload_new)
  | reloadBegins env resp hrunning =>
    exact absurd hmem (not_answer_of_only _ (beginReload_only C w.actor env) (by simp))
  | reloadEnds env resp swarm hreloading =>
    rcases List.mem_append.1 hmem with hmem | hmem
    · by_contra hcon
      simp only [not_or, not_exists] at hcon
      have hnone := failPending_absent env hcon.1
      rw [SwarmActor.finishReload] at hmem
      rcases List.mem_append.1 hmem with hmem | hmem
      · have : reply ∈ answersTo n (w.actor.failPending env) := List.mem_filterMap.2 ⟨_, hmem, by simp⟩
        rw [hnone] at this
        cases this
      · simp at hmem
    · obtain ⟨rfl, -⟩ := Effect.answer.inj (List.mem_singleton.1 hmem)
      exact .inr (.inl ⟨swarm, hreloading⟩)

/-- **A reply channel that is used up stays so, and nothing is sent to it.** -/
theorem Settled.step (h : Settled n w) (hstep : Stepped C W w input w' effects) :
    Settled n w' ∧ answersTo n effects = [] := by
  refine ⟨⟨hstep.used_mono h.used, fun slot hslot => ?_, fun swarm hphase => ?_⟩, answersTo_eq_nil (fun reply hmem => ?_)⟩
  · rcases hstep.waiter hslot with hold | hnew
    · exact h.absent slot hold
    · exact hnew.1 h.used
  · rcases hstep.reloading hphase with hold | hnew
    · exact h.phase swarm hold
    · exact hnew.1 h.used
  · rcases hstep.answer hmem with ⟨slot, hslot⟩ | ⟨swarm, hphase⟩ | hnew
    · exact h.absent slot hslot
    · exact h.phase swarm hphase
    · exact hnew.1 h.used

theorem Stepped.event {env : Env} {event : SwarmEvent} (h : Stepped C W w (.event env event) w' effects)
    (hrunning : w.phase = .running) :
    w'.actor = (w.actor.handleEvent C env event).1 ∧ effects = (w.actor.handleEvent C env event).2 ∧
      w'.phase = .running := by
  have hhandled := h.handled
  simp only [World.handle, hrunning, Option.some.injEq, Prod.mk.injEq] at hhandled
  exact ⟨hhandled.1.symm, hhandled.2.1.symm, hhandled.2.2.symm⟩

theorem lookup_foldl {α : Type} {f : Dict Nat Kind → α → Dict Nat Kind} : ∀ {l : List α},
    (∀ a ∈ l, ∀ d, (f d a).lookup q = d.lookup q) → ∀ d, (l.foldl f d).lookup q = d.lookup q
  | [], _, _ => rfl
  | a :: l, h, d => by
    rw [List.foldl_cons, lookup_foldl (fun b hb => h b (List.mem_cons_of_mem _ hb)), h a List.mem_cons_self]

/-- **A query runs on through the inputs that are not its own.** -/
theorem queriesAfter_other (hend : input.isReloadEnd = false)
    (hother : ∀ env result, input ≠ .event env (.kademlia (.outboundQueryProgressed q result)))
    (hfresh : ∀ query, .query q query ∉ effects) : (w.queriesAfter effects input).lookup q = w.queries.lookup q := by
  unfold World.queriesAfter
  split
  · rename_i env id result
    have hne : q ≠ id := fun heq => hother env result (by rw [heq])
    split
    · rw [Dict.lookup_erase_ite, if_neg hne]
    · rfl
  · cases hend
  · refine lookup_foldl (fun effect hmem d => ?_) _
    split
    · rename_i id query
      have hne : q ≠ id := fun heq => hfresh query (by rwa [heq])
      rw [Dict.lookup_insert_ite, if_neg hne]
    · rfl

/-- **A query waits on through the inputs that are not its own**, and nothing is sent to its waiter. -/
theorem Waiting.other (h : Waiting q pending w) (hstep : Stepped C W w input w' effects)
    (hend : input.isReloadEnd = false)
    (hother : w.phase = .running → ∀ env result, input ≠ .event env (.kademlia (.outboundQueryProgressed q result))) :
    Waiting q pending w' ∧ answersTo pending.resp effects = [] := by
  have hfresh : ∀ query, .query q query ∉ effects := fun query hmem => (hstep.fresh _ hmem).1 _ rfl h.issued
  have hentry : w'.actor.pendingKad.lookup q = w.actor.pendingKad.lookup q ∧ answersTo pending.resp effects = [] := by
    have hhandled := hstep.handledAs
    generalize w'.actor = actor at hhandled ⊢
    generalize w'.phase = phase at hhandled
    cases hhandled with
    | event env event hrunning =>
      refine ⟨entry_event (fun result heq => hother hrunning env result (by rw [heq])),
        answersTo_eq_nil (fun reply hmem => ?_)⟩
      rcases answer_event hmem with ⟨q', result, heq, hq⟩ | ⟨slot, hne, hslot⟩
      · obtain rfl := Slot.kad.inj (h.alone _ hq)
        exact hother hrunning env result (by rw [heq])
      · exact hne q (h.alone slot hslot)
    | oldEvent env event resp swarm hreloading =>
      exact ⟨rfl, answersTo_eq_nil (fun reply =>
        not_answer_of_only _ (rejectOldSwarmEvent_only C w.actor env event) (by simp))⟩
    | command env command hrunning _ =>
      exact ⟨entry_command hfresh, answersTo_eq_nil (fun reply hmem => (hstep.resp_new (answer_command hmem)).1 h.used)⟩
    | buildFailed env resp error hrunning =>
      refine ⟨rfl, answersTo_eq_nil (fun reply hmem => ?_)⟩
      obtain ⟨rfl, -⟩ := Effect.answer.inj (List.mem_singleton.1 hmem)
      exact hstep.reload_new.1 h.used
    | reloadBegins env resp hrunning =>
      exact ⟨rfl, answersTo_eq_nil (fun reply => not_answer_of_only _ (beginReload_only C w.actor env) (by simp))⟩
    | reloadEnds env resp swarm hreloading => cases hend
  refine ⟨⟨hentry.1.trans h.entry, fun hrunning => ?_, hstep.issued_mono hend h.issued, hstep.used_mono h.used,
    fun slot hslot => ?_, fun swarm hphase => ?_⟩, hentry.2⟩
  · have hbefore := hstep.running_before hend hrunning
    rw [hstep.queries, queriesAfter_other hend (hother hbefore) hfresh, h.running hbefore]
  · rcases hstep.waiter hslot with hold | hnew
    · exact h.alone slot hold
    · exact absurd h.used hnew.1
  · rcases hstep.reloading hphase with hold | hnew
    · exact h.phase swarm hold
    · exact hnew.1 h.used

section Own

variable {env : Env} {result : QueryResult}

theorem Waiting.kind (h : Waiting q pending w) (hrunning : w.phase = .running)
    (hstep : Stepped C W w (.event env (.kademlia (.outboundQueryProgressed q result))) w' effects) :
    result.kind = some pending.kind := by
  have haccepts := hstep.accepts
  simp only [World.accepts, h.running hrunning, Option.all_some, decide_eq_true_eq] at haccepts
  exact haccepts

/-- **A result that does not end the query** is collected, and nothing is sent. -/
theorem Waiting.collects (h : Waiting q pending w) (hrunning : w.phase = .running)
    (hstep : Stepped C W w (.event env (.kademlia (.outboundQueryProgressed q result))) w' effects)
    (hmore : result.isTerminal = false) : Waiting q (pending.extend result) w' ∧ effects = [] ∧ w'.phase = .running := by
  have hkind := h.kind hrunning hstep
  obtain ⟨hactor, heffects, hphase⟩ := hstep.event hrunning
  simp only [SwarmActor.handleEvent, progress_collects h.entry hkind hmore] at hactor heffects
  refine ⟨⟨?_, fun _ => ?_, hstep.issued_mono rfl h.issued, ?_, fun slot hslot => ?_, ?_⟩, heffects, hphase⟩
  · rw [hactor]
    exact (Dict.lookup_insert_ite _ _ _ _).trans (if_pos rfl)
  · rw [hstep.queries, extend_kind]
    simpa only [World.queriesAfter, hmore, Bool.false_eq_true, if_false] using h.running hrunning
  · rw [extend_resp]
    exact hstep.used_mono h.used
  · rw [extend_resp] at hslot
    rcases hstep.waiter hslot with hold | hnew
    · exact h.alone slot hold
    · exact absurd h.used hnew.1
  · intro swarm hreloading
    rw [hphase] at hreloading
    cases hreloading

/-- **A result that ends the query** is answered with what was collected. -/
theorem Waiting.terminates (h : Waiting q pending w) (hrunning : w.phase = .running)
    (hstep : Stepped C W w (.event env (.kademlia (.outboundQueryProgressed q result))) w' effects)
    (hterminal : result.isTerminal = true) :
    Settled pending.resp w' ∧ ∃ reply, answersTo pending.resp effects = [reply] ∧ Delivers pending [] result reply := by
  have hkind := h.kind hrunning hstep
  obtain ⟨hactor, heffects, hphase⟩ := hstep.event hrunning
  obtain ⟨hkad, hreply⟩ := @progress_terminal C w.actor env q pending result h.entry hkind hterminal
  refine ⟨⟨hstep.used_mono h.used, fun slot hslot => ?_, fun swarm hreloading => ?_⟩, ?_⟩
  · -- the slot it had is the one that is erased
    have hold : w.actor.waiter slot = some pending.resp := by
      rcases hstep.waiter hslot with hold | hnew
      · exact hold
      · exact absurd h.used hnew.1
    obtain rfl := h.alone slot hold
    rw [hactor] at hslot
    simp only [SwarmActor.handleEvent, hkad, SwarmActor.waiter, Dict.lookup_erase_ite, if_true, Option.map_none,
      reduceCtorEq] at hslot
  · rw [hphase] at hreloading
    cases hreloading
  · rw [heffects]
    exact hreply

end Own

/-- **The end of a reload** fails the query. -/
theorem Waiting.reloaded {env : Env} (h : Waiting q pending w) (hstep : Stepped C W w (.reloadEnd env) w' effects) :
    Settled pending.resp w' ∧ answersTo pending.resp effects = [pending.failure .reloaded] := by
  have hused := hstep.used_mono h.used
  have hwaiter : ∀ slot, w'.actor.waiter slot ≠ some pending.resp ∧ w'.phase = .running ∧
      answersTo pending.resp effects = [pending.failure .reloaded] := by
    intro slot
    have hhandled := hstep.handledAs
    generalize w'.actor = actor at hhandled ⊢
    generalize w'.phase = phase at hhandled ⊢
    cases hhandled with
    | reloadEnds env resp swarm hreloading =>
      have hne : resp ≠ pending.resp := fun heq => h.phase swarm (by rw [hreloading, heq])
      refine ⟨?_, rfl, ?_⟩
      · cases slot <;> simp [SwarmActor.waiter, SwarmActor.finishReload]
      · rw [SwarmActor.finishReload, answersTo_append, answersTo_append, failPending_alone h.entry h.alone,
          answersTo_map_dial, List.append_nil]
        simp [answersTo, hne]
  refine ⟨⟨hused, fun slot => (hwaiter slot).1, fun swarm hreloading => ?_⟩, (hwaiter (.kad q)).2.2⟩
  rw [(hwaiter (.kad q)).2.1] at hreloading
  cases hreloading

/-- The inputs that are not the query's own are not in its window. -/
theorem window_other (hstep : Stepped C W w input w' effects) (hend : input.isReloadEnd = false)
    (hother : w.phase = .running → ∀ env result, input ≠ .event env (.kademlia (.outboundQueryProgressed q result)))
    (rest : List Input) :
    window q w.phase.isReloading (input :: rest) = window q w'.phase.isReloading rest := by
  have hevent : ∀ env event, (∀ result, event ≠ .kademlia (.outboundQueryProgressed q result)) →
      ∀ reloading, window q reloading (.event env event :: rest) = window q reloading rest := by
    intro env event h reloading
    cases event with
    | kademlia event =>
      cases event with
      | outboundQueryProgressed id result =>
        have hne : id ≠ q := fun heq => h result (by rw [heq])
        simp [window, hne]
      | _ => rfl
    | _ => rfl
  have hhandled := hstep.handledAs
  generalize w'.actor = actor at hhandled
  generalize w'.phase = phase at hhandled ⊢
  cases hhandled with
  | event env event hrunning =>
    rw [hrunning]
    exact hevent env event (fun result heq => hother hrunning env result (by rw [heq])) _
  | oldEvent env event resp swarm hreloading =>
    rw [hreloading]
    cases event with
    | kademlia event =>
      cases event with
      | outboundQueryProgressed id result => simp [window, Phase.isReloading]
      | _ => rfl
    | _ => rfl
  | command _ _ hrunning | buildFailed _ _ _ hrunning | reloadBegins _ _ hrunning =>
    rw [hrunning]
    rfl
  | reloadEnds env resp swarm hreloading => cases hend

end Steps

@[simp] theorem extend_failure (pending : KadPending) (result : QueryResult) (error : NetworkError) :
    (pending.extend result).failure error = pending.failure error := by
  unfold KadPending.extend
  split <;> rfl

/-- What is told for an extended entry is told for the entry, with the result before. -/
theorem Told.cons {pending : KadPending} {result : QueryResult} {answers : List Reply} {win : List QueryResult × Ending}
    (h : Told (pending.extend result) answers win) (hkind : result.kind = some pending.kind)
    (hmore : result.isTerminal = false) : Told pending answers (result :: win.1, win.2) := by
  obtain ⟨partials, ending⟩ := win
  cases ending with
  | running => exact h
  | reloaded => exact h.trans (by rw [extend_failure])
  | terminated last =>
    obtain ⟨reply, hanswers, hdelivers⟩ := h
    exact ⟨reply, hanswers, hdelivers.cons hkind hmore⟩

section Runs

variable {C : Crypto} {W : Wire} {config : NodeConfig} {nodes : List Multiaddr} {keypair : Bytes} {keys : Option PqKeys}

/-- **Nothing is sent to a reply channel that is used up**, in any run. -/
theorem follow_settled {n : Nat} : ∀ {post : List Input} {w t : World}, Settled n w →
    (swarmActor C W config nodes keypair keys).runFrom w post = some t →
    answersTo n ((swarmActor C W config nodes keypair keys).outputs (World.effects C W) w post) = []
  | [], _, _, _, _ => rfl
  | input :: post, w, t, h, hrun => by
    obtain ⟨w', hstep, hrun'⟩ := (Machine.runFrom_cons _).1 hrun
    obtain ⟨hsettled, hnone⟩ := h.step (stepped_of_step hstep)
    rw [Machine.outputs_cons _ _ hstep, answersTo_append, hnone, follow_settled hsettled hrun', List.append_nil]

/-- **What is sent to the waiter of a query in a run** is what its window tells.  The induction is on the run; the entry
grows with the window. -/
theorem follow_waiting {q : Nat} : ∀ {post : List Input} {w t : World} {pending : KadPending}, Waiting q pending w →
    (swarmActor C W config nodes keypair keys).runFrom w post = some t →
    Told pending
      (answersTo pending.resp ((swarmActor C W config nodes keypair keys).outputs (World.effects C W) w post))
      (window q w.phase.isReloading post)
  | [], _, _, _, _, _ => rfl
  | input :: post, w, t, pending, h, hrun => by
    obtain ⟨w', hmachine, hrun'⟩ := (Machine.runFrom_cons _).1 hrun
    have hstep := stepped_of_step hmachine
    rw [Machine.outputs_cons _ _ hmachine, answersTo_append]
    by_cases hown : w.phase = .running ∧ ∃ env result, input = .event env (.kademlia (.outboundQueryProgressed q result))
    · obtain ⟨hrunning, env, result, rfl⟩ := hown
      have hkind := h.kind hrunning hstep
      cases hterminal : result.isTerminal with
      | true =>
        obtain ⟨hsettled, reply, hreply, hdelivers⟩ := h.terminates hrunning hstep hterminal
        rw [hreply, follow_settled hsettled hrun', List.append_nil]
        simp only [window, hrunning, Phase.isReloading, and_self, if_true, hterminal]
        exact ⟨reply, rfl, hdelivers⟩
      | false =>
        obtain ⟨hwaiting, hnone, hphase⟩ := h.collects hrunning hstep hterminal
        have htold := follow_waiting hwaiting hrun'
        rw [extend_resp, hphase] at htold
        rw [hnone]
        simp only [window, hrunning, Phase.isReloading, and_self, if_true, hterminal, Bool.false_eq_true, if_false]
        exact htold.cons hkind hterminal
    · have hother : w.phase = .running →
          ∀ env result, input ≠ .event env (.kademlia (.outboundQueryProgressed q result)) :=
        fun hrunning env result heq => hown ⟨hrunning, env, result, heq⟩
      cases hend : input.isReloadEnd with
      | true =>
        cases input with
        | reloadEnd env =>
          obtain ⟨hsettled, hfailed⟩ := h.reloaded hstep
          rw [hfailed, follow_settled hsettled hrun', List.append_nil]
          exact rfl
        | _ => cases hend
      | false =>
        obtain ⟨hwaiting, hnone⟩ := h.other hstep hend hother
        rw [hnone, window_other hstep hend hother]
        exact follow_waiting hwaiting hrun'

/-- **Every reply channel at hand has been given.** -/
structure Used (w : World) : Prop where
  slots : ∀ slot n, w.actor.waiter slot = some n → n ∈ w.resps
  phase : ∀ n swarm, w.phase = .reloading n swarm → n ∈ w.resps

theorem Used.step {w w' : World} {input : Input} {effects : List Effect} (h : Used w)
    (hstep : Stepped C W w input w' effects) : Used w' ∧ ∀ n reply, .answer n reply ∈ effects → n ∈ w'.resps := by
  refine ⟨⟨fun slot n hslot => ?_, fun n swarm hphase => ?_⟩, fun n reply hmem => ?_⟩
  · rcases hstep.waiter hslot with hold | hnew
    · exact hstep.used_mono (h.slots slot n hold)
    · exact hnew.2
  · rcases hstep.reloading hphase with hold | hnew
    · exact hstep.used_mono (h.phase n swarm hold)
    · exact hnew.2
  · rcases hstep.answer hmem with ⟨slot, hslot⟩ | ⟨swarm, hphase⟩ | hnew
    · exact hstep.used_mono (h.slots slot n hslot)
    · exact hstep.used_mono (h.phase n swarm hphase)
    · exact hnew.2

theorem used_new (config : NodeConfig) (nodes : List Multiaddr) (keypair : Bytes) (keys : Option PqKeys) :
    Used (.new config nodes keypair keys) := by
  refine ⟨fun slot n hslot => ?_, fun n swarm hphase => (by cases hphase)⟩
  cases slot <;> simp [SwarmActor.waiter, World.new, SwarmActor.new] at hslot

/-- **No reply is sent before its command comes.** -/
theorem answers_used (inputs : List Input) (w : World)
    (hrun : (swarmActor C W config nodes keypair keys).run inputs = some w) :
    Used w ∧ ∀ n, n ∉ w.resps →
      answersTo n ((swarmActor C W config nodes keypair keys).outputs (World.effects C W)
        (swarmActor C W config nodes keypair keys).init inputs) = [] := by
  refine ((swarmActor C W config nodes keypair keys).history_invariant
    (P := fun inputs w => (swarmActor C W config nodes keypair keys).run inputs = some w ∧ Used w ∧ ∀ n, n ∉ w.resps →
      answersTo n ((swarmActor C W config nodes keypair keys).outputs (World.effects C W)
        (swarmActor C W config nodes keypair keys).init inputs) = [])
    ⟨rfl, used_new config nodes keypair keys, fun _ _ => rfl⟩ ?_ inputs w hrun (Machine.meets_true _ _ _)).2
  rintro inputs w input w' ⟨hbefore, hused, hnone⟩ - hmachine
  have hstep := stepped_of_step hmachine
  obtain ⟨hused', hanswer⟩ := hused.step hstep
  refine ⟨(Machine.runFrom_concat _).2 ⟨w, hbefore, hmachine⟩, hused', fun n hn => ?_⟩
  rw [Machine.outputs_append _ hbefore, Machine.outputs_singleton, answersTo_append,
    hnone n (fun hin => hn (hstep.used_mono hin)), answersTo_eq_nil (fun reply hmem => hn (hanswer n reply hmem)),
    List.append_nil]

end Runs

/-! ## The start of a query -/

section Start

variable {C : Crypto} {W : Wire} {A : SwarmActor} {env : Env} {command : Command} {storeError : Option String}
  {pending : KadPending} {query : Query}

theorem handleCommand_kadQuery (C : Crypto) (W : Wire) (A : SwarmActor)
    (h : command.kadQuery env = some (storeError, pending)) :
    command.resp = some pending.resp ∧ ∃ query, query.kind = pending.kind ∧
      A.handleCommand C W env command = A.startQuery env storeError query pending := by
  cases command with
  | kadGetRecordAll key resp =>
    cases h
    exact ⟨rfl, .getRecord key, rfl, rfl⟩
  | kadGetProviders key resp =>
    cases h
    exact ⟨rfl, .getProviders key, rfl, rfl⟩
  | kadGetClosestPeers peer resp =>
    cases h
    exact ⟨rfl, .getClosestPeers peer, rfl, rfl⟩
  | kadPutRecord key value resp =>
    cases h
    exact ⟨rfl, .putRecord key value, rfl, rfl⟩
  | kadStartProviding key resp =>
    cases h
    exact ⟨rfl, .startProviding key, rfl, rfl⟩
  | _ => cases h

theorem startQuery_refused {error : NetworkError} (h : refusal A storeError = some error) :
    A.startQuery env storeError query pending = (A, [.answer pending.resp (pending.failure error)]) := by
  unfold refusal at h
  unfold SwarmActor.startQuery
  split at h
  · rename_i hdisabled
    cases h
    rw [if_pos hdisabled]
  · rename_i henabled
    rw [if_neg henabled]
    obtain ⟨e, rfl, rfl⟩ := Option.map_eq_some_iff.1 h
    rfl

theorem startQuery_started (h : refusal A storeError = none) :
    A.startQuery env storeError query pending =
      ({ A with pendingKad := A.pendingKad.insert env.fresh pending }, [.query env.fresh query]) := by
  unfold refusal at h
  unfold SwarmActor.startQuery
  split at h
  · cases h
  · rename_i henabled
    rw [if_neg henabled, Option.map_eq_none_iff.1 h]

variable {w w' : World} {effects : List Effect}

theorem Stepped.commanded (h : Stepped C W w (.command env command) w' effects) :
    w.phase = .running ∧ w'.actor = (w.actor.handleCommand C W env command).1 ∧
      effects = (w.actor.handleCommand C W env command).2 ∧ w'.phase = .running := by
  have hhandled := h.handledAs
  generalize w'.actor = actor at hhandled ⊢
  generalize w'.phase = phase at hhandled ⊢
  cases hhandled with
  | command env command hrunning hother => exact ⟨hrunning, rfl, rfl, rfl⟩

/-- **A refused query** is answered at once, and its reply channel is used up. -/
theorem Stepped.refused (h : Stepped C W w (.command env command) w' effects) (hused : Used w)
    (hquery : command.kadQuery env = some (storeError, pending)) {error : NetworkError}
    (hrefusal : refusal w.actor storeError = some error) :
    answersTo pending.resp effects = [pending.failure error] ∧ Settled pending.resp w' := by
  obtain ⟨hresp, query, -, hhandle⟩ := handleCommand_kadQuery C W w.actor hquery
  obtain ⟨hrunning, hactor, heffects, hphase⟩ := h.commanded
  rw [hhandle, startQuery_refused hrefusal] at hactor heffects
  obtain ⟨hnew, hused'⟩ := h.resp_new hresp
  refine ⟨by simp [heffects, answersTo], hused', fun slot hslot => ?_, fun swarm hreloading => ?_⟩
  · rw [hactor] at hslot
    exact hnew (hused.slots slot _ hslot)
  · rw [hphase] at hreloading
    cases hreloading

/-- **A query that starts** waits under its new id. -/
theorem Stepped.started (h : Stepped C W w (.command env command) w' effects) (hused : Used w)
    (hquery : command.kadQuery env = some (storeError, pending)) (hrefusal : refusal w.actor storeError = none) :
    answersTo pending.resp effects = [] ∧ Waiting env.fresh pending w' ∧ w'.phase = .running := by
  obtain ⟨hresp, query, hkind, hhandle⟩ := handleCommand_kadQuery C W w.actor hquery
  obtain ⟨hrunning, hactor, heffects, hphase⟩ := h.commanded
  rw [hhandle, startQuery_started hrefusal] at hactor heffects
  obtain ⟨hnew, hused'⟩ := h.resp_new hresp
  refine ⟨by simp [heffects, answersTo], ⟨?_, fun _ => ?_, ?_, hused', fun slot hslot => ?_, fun swarm hreloading => ?_⟩,
    hphase⟩
  · rw [hactor]
    exact (Dict.lookup_insert_ite _ _ _ _).trans (if_pos rfl)
  · rw [h.queries, heffects]
    simp only [World.queriesAfter, List.foldl_cons, List.foldl_nil, hkind]
    exact (Dict.lookup_insert_ite _ _ _ _).trans (if_pos rfl)
  · rw [h.issued, heffects]
    simp [World.issuedAfter, Effect.started]
  · rw [hactor] at hslot
    cases slot with
    | kad id =>
      simp only [SwarmActor.waiter, Dict.lookup_insert_ite] at hslot
      split at hslot
      · rename_i heq
        rw [heq]
      · exact absurd (hused.slots (.kad id) _ hslot) hnew
    | outbound id => exact absurd (hused.slots (.outbound id) _ hslot) hnew
    | outboundPq id => exact absurd (hused.slots (.outboundPq id) _ hslot) hnew
  · rw [hphase] at hreloading
    cases hreloading

end Start

/-- **DHT queries are demultiplexed without loss or duplication.**  In every run of the actor, whatever other commands,
results and reloads come between: the waiter of a query command is sent nothing before the command; if the query is
refused, the refusal at the command and nothing after; if it starts, nothing at the command, and after it exactly what
the window of its query tells. -/
theorem queries_demultiplexed (C : Crypto) (W : Wire) (config : NodeConfig) (nodes : List Multiaddr) (keypair : Bytes)
    (keys : Option PqKeys) (before after : List Input) (env : Env) (command : Command) (storeError : Option String)
    (pending : KadPending) (w w' t : World)
    (hbefore : (swarmActor C W config nodes keypair keys).run before = some w)
    (hstep : (swarmActor C W config nodes keypair keys).step w (.command env command) = some w')
    (hafter : (swarmActor C W config nodes keypair keys).runFrom w' after = some t)
    (hquery : command.kadQuery env = some (storeError, pending)) :
    let told := fun w inputs =>
      answersTo pending.resp ((swarmActor C W config nodes keypair keys).outputs (World.effects C W) w inputs)
    told (.new config nodes keypair keys) before = [] ∧
      match refusal w.actor storeError with
      | some error => told w [.command env command] = [pending.failure error] ∧ told w' after = []
      | none => told w [.command env command] = [] ∧ Told pending (told w' after) (window env.fresh false after) := by
  simp only [Machine.outputs_singleton]
  have hstepped := stepped_of_step hstep
  obtain ⟨hused, hnone⟩ := answers_used before w hbefore
  obtain ⟨hresp, -⟩ := handleCommand_kadQuery C W w.actor hquery
  refine ⟨hnone _ (hstepped.resp_new hresp).1, ?_⟩
  cases hrefusal : refusal w.actor storeError with
  | some error =>
    obtain ⟨hfailed, hsettled⟩ := hstepped.refused hused hquery hrefusal
    exact ⟨hfailed, follow_settled hsettled hafter⟩
  | none =>
    obtain ⟨hquiet, hwaiting, hphase⟩ := hstepped.started hused hquery hrefusal
    have htold := follow_waiting hwaiting hafter
    rw [hphase] at htold
    exact ⟨hquiet, htold⟩

/-- The results of two queries in turn: the providers of one come in two batches with a peer in common, between them a
record of the other, which a reload then ends. -/
def interleavedRun : List Input :=
  let env := quietEnv identityConfig
  [.event env (.kademlia (.outboundQueryProgressed 1 (.getProviders (.foundProviders {[7]})))),
    .event env (.kademlia (.outboundQueryProgressed 0 (.getRecord (.foundRecord ⟨none, [1], [2]⟩)))),
    .event env (.kademlia (.outboundQueryProgressed 1 (.getProviders (.foundProviders {[7], [8]})))),
    .event env (.kademlia (.outboundQueryProgressed 1 (.getProviders .finished))),
    .reload env 2 none,
    .event env (.kademlia (.outboundQueryProgressed 0 (.getRecord .finished))),
    .reloadEnd env]

theorem providers_of_two_batches : ∃ w w' t reply,
    let M := swarmActor Pq.plainCrypto Pq.cborWire identityConfig [] [] none
    M.run [.command (quietEnv identityConfig) (.kadGetRecordAll [1] 0)] = some w ∧
    M.step w (.command { quietEnv identityConfig with fresh := 1 } (.kadGetProviders [2] 1)) = some w' ∧
    M.runFrom w' interleavedRun = some t ∧
    answersTo 1 (M.outputs (World.effects Pq.plainCrypto Pq.cborWire) w' interleavedRun) = [reply] ∧
    Delivers (.getProviders 1 ∅) [.getProviders (.foundProviders {[7]}), .getProviders (.foundProviders {[7], [8]})]
      (.getProviders .finished) reply := by
  obtain ⟨t, hrun⟩ := Option.isSome_iff_exists.1 (by decide +kernel :
    ((swarmActor Pq.plainCrypto Pq.cborWire identityConfig [] [] none).run
      ([.command (quietEnv identityConfig) (.kadGetRecordAll [1] 0)] ++
        .command { quietEnv identityConfig with fresh := 1 } (.kadGetProviders [2] 1) :: interleavedRun)).isSome = true)
  obtain ⟨w, hbefore, hrun⟩ := (Machine.runFrom_append _ _ _ _).1 hrun
  obtain ⟨w', hstep, hafter⟩ := (Machine.runFrom_cons _).1 hrun
  have henabled : refusal w.actor none = none := by
    cases hbefore
    decide +kernel
  have htold := (queries_demultiplexed Pq.plainCrypto Pq.cborWire identityConfig [] [] none _ interleavedRun _ _ none
    (.getProviders 1 ∅) w w' t hbefore hstep hafter rfl).2
  rw [henabled] at htold
  obtain ⟨reply, hreply, hdelivers⟩ := htold.2
  exact ⟨w, w', t, reply, hbefore, hstep, hafter, hreply, hdelivers⟩

end Actor
end NexusNet
