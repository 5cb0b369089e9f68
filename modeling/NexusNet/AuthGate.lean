import NexusNet.AuthRecords
import NexusNet.DhtCache
/-!
# AuthGate — authorization against the published trust records

`AuthGate` of `auth_gate.rs`: the auth state, the two record caches, the version history, and any number of `authorize`
calls, each going from one access of shared data to the next.  The DHT answers a fetch with any list of records.  A
`reload` holds the lock of the state for its whole body and is one step.  Caches that a reload has replaced stay, with
the calls that still use them.
-/
namespace NexusNet
namespace Auth

open Dht (Cache CacheError CacheRead Fetched FetchResult)

inductive AuthState where
  | disabled
  | active (net : AuthNetwork)
  | misconfigured (reason : String)
deriving DecidableEq

inductive Decision where
  | allow
  | allowUnprotected
  | deny (reason : String)
deriving DecidableEq

def resolveState (P : Primitives) (config : NodeConfig) : AuthState :=
  if config.auth.network = "none" then .disabled
  else match config.auth.networks.lookup config.auth.network with
  | some authority =>
    match AuthNetwork.new P config.auth.network authority with
    | .ok net => .active net
    | .error e => .misconfigured ("鉴权网络 '" ++ config.auth.network ++ "' 权威公钥无效: " ++ e.text)
  | none => .misconfigured ("鉴权网络 '" ++ config.auth.network ++ "' 未配置权威公钥")

def sameTrustDomain : AuthState → AuthState → Bool
  | .active a, .active b   => a.netHash == b.netHash && a.authority == b.authority
  | .disabled, .disabled   => true
  | _, _                   => false

structure WhitelistKey where
  service : String
  hash : Bytes
  length : UInt64
  indexExpiresAt : UInt64
deriving DecidableEq

/-! ## The fetchers -/

/-- The loop of `select_index` and `select_whitelist`: the newest document that verifies, with its size; two different
documents of one version are a conflict. -/
def selectNewest {D : Type} [DecidableEq D] (verify : Bytes → Except AuthError D) (version : D → UInt64)
    (conflict : String) : Option (D × Nat) → List Bytes → Except String (Option (D × Nat))
  | best, [] => .ok best
  | best, value :: rest =>
    match verify value with
    | .error _ => selectNewest verify version conflict best rest
    | .ok doc =>
      match best with
      | none => selectNewest verify version conflict (some (doc, value.length)) rest
      | some (current, size) =>
        if version doc > version current then selectNewest verify version conflict (some (doc, value.length)) rest
        else if version doc = version current ∧ doc ≠ current then .error conflict
        else selectNewest verify version conflict (some (current, size)) rest

def selectIndex (P : Primitives) (records : List Bytes) (net : AuthNetwork) (now : UInt64) :
    Except String (Option (IndexDoc × Nat)) :=
  selectNewest (fun value => verifyIndex P net value now) (·.version)
    "conflicting auth index content for the same version" none records

def selectWhitelist (P : Primitives) (records : List Bytes) (net : AuthNetwork) (key : WhitelistKey)
    (entry : ServiceEntry) : Except String (Option (WhitelistDoc × Nat)) :=
  selectNewest (fun value => verifyWhitelist P net key.service value entry) (·.version)
    "conflicting whitelist content for the same version" none records

/-- A selected document as the cache takes it. -/
def asFetched {D : Type} (version : D → UInt64) (selected : Except String (Option (D × Nat))) : FetchResult D :=
  selected.map (fun o => o.map (fun (doc, size) => ⟨doc, some (version doc), size⟩))

/-- `AuthIndexFetcher::fetch`, given what `get_record_all` answers. -/
def fetchIndex (P : Primitives) (net : AuthNetwork) (reply : Except String (List Bytes)) (now : UInt64) :
    FetchResult IndexDoc :=
  match reply with
  | .error e => .error e
  | .ok records => asFetched (·.version) (selectIndex P records net now)

/-- The entry the whitelist fetcher verifies against. -/
def WhitelistKey.entry (key : WhitelistKey) : ServiceEntry := ⟨key.service, key.hash, key.length⟩

/-- `AuthWhitelistFetcher::fetch`. -/
def fetchWhitelist (P : Primitives) (net : AuthNetwork) (key : WhitelistKey) (reply : Except String (List Bytes)) :
    FetchResult WhitelistDoc :=
  match net.serviceKey key.service with
  | .error e => .error e.text
  | .ok _ =>
    match reply with
    | .error e => .error e
    | .ok records => asFetched (·.version) (selectWhitelist P records net key key.entry)

/-! ## The gate -/

/-- `AuthCaches`, with the network of its fetchers. -/
structure AuthCaches where
  net : AuthNetwork
  index : Cache String IndexDoc
  whitelist : Cache WhitelistKey WhitelistDoc

def buildCaches (net : AuthNetwork) : AuthCaches := ⟨net, Cache.new 1024 67108864, Cache.new 1024 67108864⟩

/-- Where an `authorize` call is, with what it holds: the network it read, the caches, the call into one of them, the
documents. -/
inductive Pc where
  | active (net : AuthNetwork)
  | required (net : AuthNetwork)
  | ready (net : AuthNetwork) (caches : Nat)
  | awaitIndex (net : AuthNetwork) (caches call : Nat)
  | gotIndex (net : AuthNetwork) (caches : Nat) (doc : IndexDoc)
  | unexpired (net : AuthNetwork) (caches : Nat) (doc : IndexDoc)
  | dropIndex (net : AuthNetwork) (caches : Nat)
  | droppingIndex (caches call : Nat)
  | listed (caches : Nat) (doc : IndexDoc) (entry : ServiceEntry)
  | awaitWhitelist (caches : Nat) (doc : IndexDoc) (entry : ServiceEntry) (call : Nat)
  | gotWhitelist (caches : Nat) (doc : IndexDoc) (entry : ServiceEntry) (list : WhitelistDoc)
  | dropWhitelist (caches : Nat) (key : WhitelistKey)
  | droppingWhitelist (caches call : Nat)
  | decided (decision : Decision)
deriving DecidableEq

structure Request where
  peer : Bytes
  service : String
  pc : Pc
deriving DecidableEq

structure Gate where
  state : AuthState
  caches : Option Nat
  versions : AuthVersions
  built : Dict Nat AuthCaches
  requests : Dict Nat Request

/-- The accesses of shared data an `authorize` call goes through, in the order of the source. -/
inductive Move where
  | checkConfig (config : NodeConfig)
  | readCaches
  | getIndex (call now : Nat)
  | indexRead
  | checkExpiry (now : UInt64)
  | checkIndex
  | dropIndex (call : Nat)
  | indexDropped
  | getWhitelist (call now : Nat)
  | whitelistRead
  | checkWhitelist
  | dropWhitelist (call : Nat)
  | whitelistDropped

/-- What can happen.  `index` and `whitelist` are the other steps of the caches: the reads and refreshes that `authorize`
has started, invalidations, and whatever else uses them. -/
inductive Event where
  | authorize (request : Nat) (peer : Bytes) (service : String)
  | move (request : Nat) (move : Move)
  | index (caches : Nat) (e : Dht.Event String IndexDoc)
  | whitelist (caches : Nat) (e : Dht.Event WhitelistKey WhitelistDoc)
  | indexReply (caches refresh : Nat) (reply : Except String (List Bytes)) (now : UInt64)
  | whitelistReply (caches refresh : Nat) (reply : Except String (List Bytes))
  | reload (config : NodeConfig) (fresh : Nat)

def isFetchDone {K V : Type} : Dht.Event K V → Bool
  | .fetchDone _ _ => true
  | _              => false

def cacheErrorText : CacheError → String
  | .unavailable reason => "DHT value unavailable: " ++ reason

/-- `WhitelistKey { .. }` of `authorize`. -/
def whitelistKey (service : String) (doc : IndexDoc) (entry : ServiceEntry) : WhitelistKey :=
  ⟨service, entry.hash, entry.length, doc.expiresAt⟩

def IndexDoc.find (doc : IndexDoc) (service : String) : Option ServiceEntry :=
  doc.services.find? (fun e => e.name == service)

/-- What `authorize` does with the index read. -/
def afterIndex (net : AuthNetwork) (i : Nat) : Except CacheError (CacheRead IndexDoc) → Pc
  | .error e => .decided (.deny ("auth index query failed: " ++ cacheErrorText e))
  | .ok ⟨none, _⟩ => .decided (.deny "auth index unavailable")
  | .ok ⟨some doc, _⟩ => .gotIndex net i doc

/-- What `authorize` does with the whitelist read. -/
def afterWhitelist (i : Nat) (doc : IndexDoc) (entry : ServiceEntry) :
    Except CacheError (CacheRead WhitelistDoc) → Pc
  | .error e => .decided (.deny ("whitelist query failed: " ++ cacheErrorText e))
  | .ok ⟨none, _⟩ => .decided (.deny "whitelist unavailable")
  | .ok ⟨some list, _⟩ => .gotWhitelist i doc entry list

/-- What `authorize` does when the index version has passed: without an entry the service is not protected. -/
def afterCheck (i : Nat) (doc : IndexDoc) : Option ServiceEntry → Pc
  | none => .decided .allowUnprotected
  | some entry => .listed i doc entry

def decideMember (P : Primitives) (peer : Bytes) (list : WhitelistDoc) : Decision :=
  if list.members.any (fun m => m == P.peerString peer) then .allow else .deny "peer not authorized"

def returnedOf {K V : Type} (s : Cache K V) (call : Nat) : Option (Except CacheError (CacheRead V)) :=
  match s.calls.lookup call with
  | some (.returned _ result) => some result
  | _ => none

namespace Gate

def new (P : Primitives) (config : NodeConfig) : Gate :=
  match resolveState P config with
  | .active net => ⟨.active net, some 0, .default, (∅ : Dict Nat AuthCaches).insert 0 (buildCaches net), ∅⟩
  | state => ⟨state, none, .default, ∅, ∅⟩

def stepIndex (g : Gate) (i : Nat) (e : Dht.Event String IndexDoc) : Option Gate :=
  (g.built.lookup i).bind (fun caches => (caches.index.step e).map (fun index =>
    { g with built := g.built.insert i { caches with index := index } }))

def stepWhitelist (g : Gate) (i : Nat) (e : Dht.Event WhitelistKey WhitelistDoc) : Option Gate :=
  (g.built.lookup i).bind (fun caches => (caches.whitelist.step e).map (fun whitelist =>
    { g with built := g.built.insert i { caches with whitelist := whitelist } }))

def indexReturned (g : Gate) (i c : Nat) : Option (Except CacheError (CacheRead IndexDoc)) :=
  (g.built.lookup i).bind (fun caches => returnedOf caches.index c)

def whitelistReturned (g : Gate) (i c : Nat) : Option (Except CacheError (CacheRead WhitelistDoc)) :=
  (g.built.lookup i).bind (fun caches => returnedOf caches.whitelist c)

/-- `reload`: the versions go with the trust domain, the caches are kept within it. -/
def reload (P : Primitives) (g : Gate) (config : NodeConfig) (fresh : Nat) : Gate :=
  let next := resolveState P config
  let same := sameTrustDomain g.state next
  let versions := if same then g.versions else g.versions.clear
  match next with
  | .active net =>
    if same && g.caches.isSome then { g with state := next, versions := versions }
    else
      { g with
        state := next, versions := versions, caches := some fresh, built := g.built.insert fresh (buildCaches net) }
  | _ => { g with state := next, versions := versions, caches := none }

/-- The call's first access: the state. -/
def begin (g : Gate) (peer : Bytes) (service : String) : Request :=
  match g.state with
  | .disabled => ⟨peer, service, .decided .allow⟩
  | .misconfigured reason => ⟨peer, service, .decided (.deny reason)⟩
  | .active net => ⟨peer, service, .active net⟩

/-- **One access of a request**: the gate after it and where the request is then. -/
def move (P : Primitives) (g : Gate) (q : Request) : Move → Option (Gate × Pc)
  | .checkConfig config =>
    match q.pc with
    | .active net => some (g, if config.serviceRequiresAuth q.service then .required net else .decided .allow)
    | _ => none
  | .readCaches =>
    match q.pc with
    | .required net =>
      match g.caches with
      | none => some (g, .decided (.deny "auth caches unavailable"))
      | some i => some (g, .ready net i)
    | _ => none
  | .getIndex c now =>
    match q.pc with
    | .ready net i => (g.stepIndex i (.get c net.indexKey now)).map (fun g' => (g', .awaitIndex net i c))
    | _ => none
  | .indexRead =>
    match q.pc with
    | .awaitIndex net i c => (g.indexReturned i c).map (fun result => (g, afterIndex net i result))
    | _ => none
  | .checkExpiry now =>
    match q.pc with
    | .gotIndex net i doc =>
      some (g, if now > doc.expiresAt then .decided (.deny "auth index expired") else .unexpired net i doc)
    | _ => none
  | .checkIndex =>
    match q.pc with
    | .unexpired net i doc =>
      match g.versions.checkIndex doc.version with
      | .error _ => some (g, .dropIndex net i)
      | .ok versions => some ({ g with versions := versions }, afterCheck i doc (doc.find q.service))
    | _ => none
  | .dropIndex c =>
    match q.pc with
    | .dropIndex net i => (g.stepIndex i (.invalidate c net.indexKey)).map (fun g' => (g', .droppingIndex i c))
    | _ => none
  | .indexDropped =>
    match q.pc with
    | .droppingIndex i c => (g.stepIndex i (.remove c)).map (fun g' => (g', .decided (.deny "auth index rollback")))
    | _ => none
  | .getWhitelist c now =>
    match q.pc with
    | .listed i doc entry =>
      (g.stepWhitelist i (.get c (whitelistKey q.service doc entry) now)).map (fun g' =>
        (g', .awaitWhitelist i doc entry c))
    | _ => none
  | .whitelistRead =>
    match q.pc with
    | .awaitWhitelist i doc entry c =>
      (g.whitelistReturned i c).map (fun result => (g, afterWhitelist i doc entry result))
    | _ => none
  | .checkWhitelist =>
    match q.pc with
    | .gotWhitelist i doc entry list =>
      match g.versions.checkWhitelist q.service list.version with
      | .error _ => some (g, .dropWhitelist i (whitelistKey q.service doc entry))
      | .ok versions => some ({ g with versions := versions }, .decided (decideMember P q.peer list))
    | _ => none
  | .dropWhitelist c =>
    match q.pc with
    | .dropWhitelist i key => (g.stepWhitelist i (.invalidate c key)).map (fun g' => (g', .droppingWhitelist i c))
    | _ => none
  | .whitelistDropped =>
    match q.pc with
    | .droppingWhitelist i c =>
      (g.stepWhitelist i (.remove c)).map (fun g' => (g', .decided (.deny "whitelist rollback")))
    | _ => none

def step (P : Primitives) (g : Gate) : Event → Option Gate
  | .authorize a peer service =>
    if a ∈ g.requests then none else some { g with requests := g.requests.insert a (g.begin peer service) }
  | .move a m =>
    (g.requests.lookup a).bind (fun q => (g.move P q m).map (fun r =>
      { r.1 with requests := r.1.requests.insert a { q with pc := r.2 } }))
  | .index i e => if isFetchDone e then none else g.stepIndex i e
  | .whitelist i e => if isFetchDone e then none else g.stepWhitelist i e
  | .indexReply i r reply now =>
    (g.built.lookup i).bind (fun caches => g.stepIndex i (.fetchDone r (fetchIndex P caches.net reply now)))
  | .whitelistReply i r reply =>
    (g.built.lookup i).bind (fun caches => (caches.whitelist.refreshes.lookup r).bind (fun f =>
      g.stepWhitelist i (.fetchDone r (fetchWhitelist P caches.net f.key reply))))
  | .reload config fresh => if fresh ∈ g.built then none else some (g.reload P config fresh)

end Gate

/-! ## What a step does -/

/-- **The accesses of a request**, each with where it is taken, the gate after it and where the request is then. -/
inductive Moved (P : Primitives) (g : Gate) (q : Request) : Move → Gate → Pc → Prop where
  | required (net : AuthNetwork) (config : NodeConfig) (pc : q.pc = .active net)
      (needed : config.serviceRequiresAuth q.service = true) : Moved P g q (.checkConfig config) g (.required net)
  | notRequired (net : AuthNetwork) (config : NodeConfig) (pc : q.pc = .active net)
      (free : config.serviceRequiresAuth q.service = false) : Moved P g q (.checkConfig config) g (.decided .allow)
  | noCaches (net : AuthNetwork) (pc : q.pc = .required net) (none : g.caches = none) :
      Moved P g q .readCaches g (.decided (.deny "auth caches unavailable"))
  | caches (net : AuthNetwork) (i : Nat) (pc : q.pc = .required net) (current : g.caches = some i) :
      Moved P g q .readCaches g (.ready net i)
  | getIndex (net : AuthNetwork) (i c now : Nat) (g' : Gate) (pc : q.pc = .ready net i)
      (enter : g.stepIndex i (.get c net.indexKey now) = some g') :
      Moved P g q (.getIndex c now) g' (.awaitIndex net i c)
  | indexRead (net : AuthNetwork) (i c : Nat) (result : Except CacheError (CacheRead IndexDoc))
      (pc : q.pc = .awaitIndex net i c) (returned : g.indexReturned i c = some result) :
      Moved P g q .indexRead g (afterIndex net i result)
  | expired (net : AuthNetwork) (i : Nat) (doc : IndexDoc) (now : UInt64) (pc : q.pc = .gotIndex net i doc)
      (late : now > doc.expiresAt) : Moved P g q (.checkExpiry now) g (.decided (.deny "auth index expired"))
  | unexpired (net : AuthNetwork) (i : Nat) (doc : IndexDoc) (now : UInt64) (pc : q.pc = .gotIndex net i doc)
      (early : now ≤ doc.expiresAt) : Moved P g q (.checkExpiry now) g (.unexpired net i doc)
  | indexRollback (net : AuthNetwork) (i : Nat) (doc : IndexDoc) (error : AuthError)
      (pc : q.pc = .unexpired net i doc) (old : g.versions.checkIndex doc.version = .error error) :
      Moved P g q .checkIndex g (.dropIndex net i)
  | indexPassed (net : AuthNetwork) (i : Nat) (doc : IndexDoc) (versions : AuthVersions)
      (pc : q.pc = .unexpired net i doc) (passed : g.versions.checkIndex doc.version = .ok versions) :
      Moved P g q .checkIndex { g with versions := versions } (afterCheck i doc (doc.find q.service))
  | dropIndex (net : AuthNetwork) (i c : Nat) (g' : Gate) (pc : q.pc = .dropIndex net i)
      (enter : g.stepIndex i (.invalidate c net.indexKey) = some g') : Moved P g q (.dropIndex c) g' (.droppingIndex i c)
  | indexDropped (i c : Nat) (g' : Gate) (pc : q.pc = .droppingIndex i c)
      (enter : g.stepIndex i (.remove c) = some g') :
      Moved P g q .indexDropped g' (.decided (.deny "auth index rollback"))
  | getWhitelist (i : Nat) (doc : IndexDoc) (entry : ServiceEntry) (c now : Nat) (g' : Gate)
      (pc : q.pc = .listed i doc entry)
      (enter : g.stepWhitelist i (.get c (whitelistKey q.service doc entry) now) = some g') :
      Moved P g q (.getWhitelist c now) g' (.awaitWhitelist i doc entry c)
  | whitelistRead (i : Nat) (doc : IndexDoc) (entry : ServiceEntry) (c : Nat)
      (result : Except CacheError (CacheRead WhitelistDoc)) (pc : q.pc = .awaitWhitelist i doc entry c)
      (returned : g.whitelistReturned i c = some result) :
      Moved P g q .whitelistRead g (afterWhitelist i doc entry result)
  | whitelistRollback (i : Nat) (doc : IndexDoc) (entry : ServiceEntry) (list : WhitelistDoc) (error : AuthError)
      (pc : q.pc = .gotWhitelist i doc entry list)
      (old : g.versions.checkWhitelist q.service list.version = .error error) :
      Moved P g q .checkWhitelist g (.dropWhitelist i (whitelistKey q.service doc entry))
  | whitelistPassed (i : Nat) (doc : IndexDoc) (entry : ServiceEntry) (list : WhitelistDoc) (versions : AuthVersions)
      (pc : q.pc = .gotWhitelist i doc entry list)
      (passed : g.versions.checkWhitelist q.service list.version = .ok versions) :
      Moved P g q .checkWhitelist { g with versions := versions } (.decided (decideMember P q.peer list))
  | dropWhitelist (i c : Nat) (key : WhitelistKey) (g' : Gate) (pc : q.pc = .dropWhitelist i key)
      (enter : g.stepWhitelist i (.invalidate c key) = some g') :
      Moved P g q (.dropWhitelist c) g' (.droppingWhitelist i c)
  | whitelistDropped (i c : Nat) (g' : Gate) (pc : q.pc = .droppingWhitelist i c)
      (enter : g.stepWhitelist i (.remove c) = some g') :
      Moved P g q .whitelistDropped g' (.decided (.deny "whitelist rollback"))

/-- **Every access is one of the listed ones.** -/
theorem moved_of_move {P : Primitives} {g g' : Gate} {q : Request} {m : Move} {pc : Pc}
    (h : g.move P q m = some (g', pc)) : Moved P g q m g' pc := by
  cases m with
  | checkConfig config =>
    simp only [Gate.move] at h
    split at h
    · rename_i net hpc
      cases h
      split
      · rename_i hneeded
        exact .required net config hpc hneeded
      · rename_i hfree
        exact .notRequired net config hpc (by simpa using hfree)
    · cases h
  | readCaches =>
    simp only [Gate.move] at h
    split at h
    · rename_i net hpc
      split at h
      · rename_i hnone
        cases h
        exact .noCaches net hpc hnone
      · rename_i i hcur
        cases h
        exact .caches net i hpc hcur
    · cases h
  | getIndex c now =>
    simp only [Gate.move] at h
    split at h
    · rename_i net i hpc
      obtain ⟨g₁, henter, ⟨⟩⟩ := Option.map_eq_some_iff.1 h
      exact .getIndex net i c now g' hpc henter
    · cases h
  | indexRead =>
    simp only [Gate.move] at h
    split at h
    · rename_i net i c hpc
      obtain ⟨result, hret, ⟨⟩⟩ := Option.map_eq_some_iff.1 h
      exact .indexRead net i c result hpc hret
    · cases h
  | checkExpiry now =>
    simp only [Gate.move] at h
    split at h
    · rename_i net i doc hpc
      cases h
      split
      · rename_i hlate
        exact .expired net i doc now hpc hlate
      · rename_i hearly
        exact .unexpired net i doc now hpc (UInt64.not_lt.1 hearly)
    · cases h
  | checkIndex =>
    simp only [Gate.move] at h
    split at h
    · rename_i net i doc hpc
      split at h
      · rename_i error hold
        cases h
        exact .indexRollback net i doc error hpc hold
      · rename_i versions hpassed
        cases h
        exact .indexPassed net i doc versions hpc hpassed
    · cases h
  | dropIndex c =>
    simp only [Gate.move] at h
    split at h
    · rename_i net i hpc
      obtain ⟨g₁, henter, ⟨⟩⟩ := Option.map_eq_some_iff.1 h
      exact .dropIndex net i c g' hpc henter
    · cases h
  | indexDropped =>
    simp only [Gate.move] at h
    split at h
    · rename_i i c hpc
      obtain ⟨g₁, henter, ⟨⟩⟩ := Option.map_eq_some_iff.1 h
      exact .indexDropped i c g' hpc henter
    · cases h
  | getWhitelist c now =>
    simp only [Gate.move] at h
    split at h
    · rename_i i doc entry hpc
      obtain ⟨g₁, henter, ⟨⟩⟩ := Option.map_eq_some_iff.1 h
      exact .getWhitelist i doc entry c now g' hpc henter
    · cases h
  | whitelistRead =>
    simp only [Gate.move] at h
    split at h
    · rename_i i doc entry c hpc
      obtain ⟨result, hret, ⟨⟩⟩ := Option.map_eq_some_iff.1 h
      exact .whitelistRead i doc entry c result hpc hret
    · cases h
  | checkWhitelist =>
    simp only [Gate.move] at h
    split at h
    · rename_i i doc entry list hpc
      split at h
      · rename_i error hold
        cases h
        exact .whitelistRollback i doc entry list error hpc hold
      · rename_i versions hpassed
        cases h
        exact .whitelistPassed i doc entry list versions hpc hpassed
    · cases h
  | dropWhitelist c =>
    simp only [Gate.move] at h
    split at h
    · rename_i i key hpc
      obtain ⟨g₁, henter, ⟨⟩⟩ := Option.map_eq_some_iff.1 h
      exact .dropWhitelist i c key g' hpc henter
    · cases h
  | whitelistDropped =>
    simp only [Gate.move] at h
    split at h
    · rename_i i c hpc
      obtain ⟨g₁, henter, ⟨⟩⟩ := Option.map_eq_some_iff.1 h
      exact .whitelistDropped i c g' hpc henter
    · cases h

theorem stepIndex_eq_some {g g' : Gate} {i : Nat} {e : Dht.Event String IndexDoc} (h : g.stepIndex i e = some g') :
    ∃ caches index, g.built.lookup i = some caches ∧ Cache.Step caches.index e index ∧
      g' = { g with built := g.built.insert i { caches with index := index } } := by
  unfold Gate.stepIndex at h
  obtain ⟨caches, hcaches, h⟩ := Option.bind_eq_some_iff.1 h
  obtain ⟨index, hstep, rfl⟩ := Option.map_eq_some_iff.1 h
  exact ⟨caches, index, hcaches, Cache.step_cases hstep, rfl⟩

theorem stepWhitelist_eq_some {g g' : Gate} {i : Nat} {e : Dht.Event WhitelistKey WhitelistDoc}
    (h : g.stepWhitelist i e = some g') :
    ∃ caches whitelist, g.built.lookup i = some caches ∧ Cache.Step caches.whitelist e whitelist ∧
      g' = { g with built := g.built.insert i { caches with whitelist := whitelist } } := by
  unfold Gate.stepWhitelist at h
  obtain ⟨caches, hcaches, h⟩ := Option.bind_eq_some_iff.1 h
  obtain ⟨whitelist, hstep, rfl⟩ := Option.map_eq_some_iff.1 h
  exact ⟨caches, whitelist, hcaches, Cache.step_cases hstep, rfl⟩

/-- The network of the fetchers of caches. -/
def Gate.netOf (g : Gate) (i : Nat) : Option AuthNetwork := (g.built.lookup i).map (·.net)

theorem netOf_insert {g : Gate} {i : Nat} {old new : AuthCaches} (hold : g.built.lookup i = some old)
    (hnet : new.net = old.net) (j : Nat) : { g with built := g.built.insert i new }.netOf j = g.netOf j := by
  unfold Gate.netOf
  rw [Dict.lookup_insert_ite]
  split
  · rename_i hji
    subst hji
    rw [hold, Option.map_some, Option.map_some, hnet]
  · rfl

/-- What an access of a request leaves as it is. -/
structure Kept (g g' : Gate) : Prop where
  state : g'.state = g.state
  caches : g'.caches = g.caches
  requests : g'.requests = g.requests
  netOf : ∀ i, g'.netOf i = g.netOf i

theorem kept_stepIndex {g g' : Gate} {i : Nat} {e : Dht.Event String IndexDoc} (h : g.stepIndex i e = some g') :
    Kept g g' := by
  obtain ⟨caches, index, hcaches, -, rfl⟩ := stepIndex_eq_some h
  exact ⟨rfl, rfl, rfl, netOf_insert hcaches rfl⟩

theorem kept_stepWhitelist {g g' : Gate} {i : Nat} {e : Dht.Event WhitelistKey WhitelistDoc}
    (h : g.stepWhitelist i e = some g') : Kept g g' := by
  obtain ⟨caches, whitelist, hcaches, -, rfl⟩ := stepWhitelist_eq_some h
  exact ⟨rfl, rfl, rfl, netOf_insert hcaches rfl⟩

theorem Moved.kept {P : Primitives} {g g' : Gate} {q : Request} {m : Move} {pc : Pc} (h : Moved P g q m g' pc) :
    Kept g g' := by
  cases h with
  | getIndex _ _ _ _ _ _ enter | dropIndex _ _ _ _ _ enter | indexDropped _ _ _ _ enter => exact kept_stepIndex enter
  | getWhitelist i doc entry c now _ hpc enter => exact kept_stepWhitelist enter
  | dropWhitelist i c key _ hpc enter => exact kept_stepWhitelist enter
  | whitelistDropped i c _ hpc enter => exact kept_stepWhitelist enter
  | _ => exact ⟨rfl, rfl, rfl, fun _ => rfl⟩

/-- The caches that an event of their own is about. -/
def Event.onCaches : Event → Option Nat
  | .index i _ | .whitelist i _ | .indexReply i _ _ _ | .whitelistReply i _ _ => some i
  | _ => none

/-- **The steps of caches on their own**: one of the two caches takes a step; a fetch ends with what the fetcher makes of
the reply. -/
inductive CachesStep (P : Primitives) (old : AuthCaches) : Event → AuthCaches → Prop where
  | index (i : Nat) (d : Dht.Event String IndexDoc) (index : Cache String IndexDoc) (plain : isFetchDone d = false)
      (step : Cache.Step old.index d index) : CachesStep P old (.index i d) { old with index := index }
  | whitelist (i : Nat) (d : Dht.Event WhitelistKey WhitelistDoc) (whitelist : Cache WhitelistKey WhitelistDoc)
      (plain : isFetchDone d = false) (step : Cache.Step old.whitelist d whitelist) :
      CachesStep P old (.whitelist i d) { old with whitelist := whitelist }
  | indexReply (i r : Nat) (reply : Except String (List Bytes)) (now : UInt64) (index : Cache String IndexDoc)
      (step : Cache.Step old.index (.fetchDone r (fetchIndex P old.net reply now)) index) :
      CachesStep P old (.indexReply i r reply now) { old with index := index }
  | whitelistReply (i r : Nat) (reply : Except String (List Bytes)) (f : Dht.Refresh WhitelistKey WhitelistDoc)
      (whitelist : Cache WhitelistKey WhitelistDoc) (task : old.whitelist.refreshes.lookup r = some f)
      (step : Cache.Step old.whitelist (.fetchDone r (fetchWhitelist P old.net f.key reply)) whitelist) :
      CachesStep P old (.whitelistReply i r reply) { old with whitelist := whitelist }

theorem CachesStep.net {P : Primitives} {old new : AuthCaches} {e : Event} (h : CachesStep P old e new) :
    new.net = old.net := by
  cases h <;> rfl

/-- **The steps of the gate**: a request begins, a request makes an access, caches change on their own, a reload. -/
inductive Stepped (P : Primitives) (g : Gate) : Event → Gate → Prop where
  | authorize (a : Nat) (peer : Bytes) (service : String) (fresh : a ∉ g.requests) :
      Stepped P g (.authorize a peer service) { g with requests := g.requests.insert a (g.begin peer service) }
  | move (a : Nat) (m : Move) (q : Request) (g' : Gate) (pc : Pc) (lookup : g.requests.lookup a = some q)
      (moved : Moved P g q m g' pc) :
      Stepped P g (.move a m) { g' with requests := g.requests.insert a { q with pc := pc } }
  | caches (e : Event) (i : Nat) (old new : AuthCaches) (about : e.onCaches = some i)
      (built : g.built.lookup i = some old) (cause : CachesStep P old e new) :
      Stepped P g e { g with built := g.built.insert i new }
  | reload (config : NodeConfig) (fresh : Nat) (unused : fresh ∉ g.built) :
      Stepped P g (.reload config fresh) (g.reload P config fresh)

/-- **Every step is one of the listed ones.** -/
theorem stepped_of_step {P : Primitives} {g g' : Gate} {e : Event} (h : g.step P e = some g') : Stepped P g e g' := by
  cases e with
  | authorize a peer service =>
    simp only [Gate.step] at h
    split at h
    · cases h
    · rename_i hfresh
      cases h
      exact .authorize a peer service hfresh
  | move a m =>
    obtain ⟨q, hq, h⟩ := Option.bind_eq_some_iff.1 h
    obtain ⟨⟨g₁, pc⟩, hmove, rfl⟩ := Option.map_eq_some_iff.1 h
    have hmoved := moved_of_move hmove
    simp only [hmoved.kept.requests]
    exact .move a m q g₁ pc hq hmoved
  | index i e =>
    simp only [Gate.step] at h
    split at h
    · cases h
    · rename_i hplain
      obtain ⟨caches, index, hcaches, hstep, rfl⟩ := stepIndex_eq_some h
      exact .caches _ i caches _ rfl hcaches (.index i e index (by simpa using hplain) hstep)
  | whitelist i e =>
    simp only [Gate.step] at h
    split at h
    · cases h
    · rename_i hplain
      obtain ⟨caches, whitelist, hcaches, hstep, rfl⟩ := stepWhitelist_eq_some h
      exact .caches _ i caches _ rfl hcaches (.whitelist i e whitelist (by simpa using hplain) hstep)
  | indexReply i r reply now =>
    obtain ⟨caches, hcaches, h⟩ := Option.bind_eq_some_iff.1 h
    obtain ⟨caches', index, hcaches', hstep, rfl⟩ := stepIndex_eq_some h
    cases hcaches.symm.trans hcaches'
    exact .caches _ i caches _ rfl hcaches (.indexReply i r reply now index hstep)
  | whitelistReply i r reply =>
    obtain ⟨caches, hcaches, h⟩ := Option.bind_eq_some_iff.1 h
    obtain ⟨f, hf, h⟩ := Option.bind_eq_some_iff.1 h
    obtain ⟨caches', whitelist, hcaches', hstep, rfl⟩ := stepWhitelist_eq_some h
    cases hcaches.symm.trans hcaches'
    exact .caches _ i caches _ rfl hcaches (.whitelistReply i r reply f whitelist hf hstep)
  | reload config fresh =>
    simp only [Gate.step] at h
    split at h
    · cases h
    · rename_i hunused
      cases h
      exact .reload config fresh hunused

/-- The gate of a node that starts with the given configuration. -/
def gate (P : Primitives) (config : NodeConfig) : Machine Gate Event := ⟨Gate.new P config, Gate.step P⟩

end Auth
end NexusNet
