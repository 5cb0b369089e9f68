import NexusNet.AuthSound
/-!
# AuthDecision — the verdict of one call

`authorize` reads shared data up to eight times, and what it reads decides its verdict.  Here the call is one function of
what it reads (`authorize`), with the accesses it makes in order; `authorize_of_run` says that this is what a call in the
gate returns, however it is interleaved.  `documented` is the algorithm of `docs/auth.md`, section 6, with the rule of
section 7 for a node without a usable authority.  The two differ for one kind of call (`authorize_documented_iff`).
-/
namespace NexusNet
namespace Auth

open Dht (Cache CacheError CacheRead)

/-- What a call meets: the state, the configuration, the caches, the index, the clock, the versions when the index is
checked, the whitelist, the versions when the whitelist is checked. -/
structure Reads where
  state : AuthState
  config : NodeConfig
  caches : Option Nat
  index : Except CacheError (CacheRead IndexDoc)
  now : UInt64
  versions : AuthVersions
  whitelist : Except CacheError (CacheRead WhitelistDoc)
  later : AuthVersions

/-- One access, with what it brought. -/
inductive Access where
  | state (state : AuthState)
  | config (config : NodeConfig)
  | caches (caches : Option Nat)
  | index (read : Except CacheError (CacheRead IndexDoc))
  | now (now : UInt64)
  | versions (versions : AuthVersions)
  | whitelist (read : Except CacheError (CacheRead WhitelistDoc))
  | later (versions : AuthVersions)

def Access.andThen (x : Access) (rest : List Access × Decision) : List Access × Decision := (x :: rest.1, rest.2)

/-- The end of `authorize`, for a service that the index lists. -/
def authorizeListed (P : Primitives) (peer : Bytes) (service : String) (r : Reads) : List Access × Decision :=
  Access.andThen (.whitelist r.whitelist) <|
  match r.whitelist with
  | .error e => ([], .deny ("whitelist query failed: " ++ cacheErrorText e))
  | .ok ⟨none, _⟩ => ([], .deny "whitelist unavailable")
  | .ok ⟨some whitelist, _⟩ =>
    Access.andThen (.later r.later) <|
    match r.later.checkWhitelist service whitelist.version with
    | .error _ => ([], .deny "whitelist rollback")
    | .ok _ => ([], decideMember P peer whitelist)

/-- `authorize` in one piece: the accesses it makes and its decision. -/
def authorize (P : Primitives) (peer : Bytes) (service : String) (r : Reads) : List Access × Decision :=
  Access.andThen (.state r.state) <|
  match r.state with
  | .disabled => ([], .allow)
  | .misconfigured reason => ([], .deny reason)
  | .active _ =>
    Access.andThen (.config r.config) <|
    if r.config.serviceRequiresAuth service = false then ([], .allow)
    else
      Access.andThen (.caches r.caches) <|
      match r.caches with
      | none => ([], .deny "auth caches unavailable")
      | some _ =>
        Access.andThen (.index r.index) <|
        match r.index with
        | .error e => ([], .deny ("auth index query failed: " ++ cacheErrorText e))
        | .ok ⟨none, _⟩ => ([], .deny "auth index unavailable")
        | .ok ⟨some index, _⟩ =>
          Access.andThen (.now r.now) <|
          if r.now > index.expiresAt then ([], .deny "auth index expired")
          else
            Access.andThen (.versions r.versions) <|
            match r.versions.checkIndex index.version with
            | .error _ => ([], .deny "auth index rollback")
            | .ok _ =>
              match index.find service with
              | none => ([], .allowUnprotected)
              | some _ => authorizeListed P peer service r

/-! ## The documented algorithm -/

/-- What the documents tell apart: `allowWithWarning` is a request of a service that the index does not list. -/
inductive Verdict where
  | allow
  | allowWithWarning
  | deny
deriving DecidableEq

def Decision.verdict : Decision → Verdict
  | .allow            => .allow
  | .allowUnprotected => .allowWithWarning
  | .deny _           => .deny

/-- The document that a read brought. -/
def readable {D : Type} : Except CacheError (CacheRead D) → Option D
  | .ok read => read.value
  | .error _ => none

/-- The index, if the node has an authority and the index is there, not expired and not rolled back. -/
def usableIndex (r : Reads) : Option IndexDoc :=
  match r.state with
  | .active _ =>
    if r.caches = none then none
    else (readable r.index).filter (fun doc =>
      decide (r.now ≤ doc.expiresAt) && r.versions.index.all (fun seen => decide (seen ≤ doc.version)))
  | _ => none

/-- The whitelist, if it is there and not rolled back. -/
def usableWhitelist (service : String) (r : Reads) : Option WhitelistDoc :=
  (readable r.whitelist).filter (fun doc =>
    (r.later.whitelists.lookup service).all (fun seen => decide (seen ≤ doc.version)))

/-- **The verdict of `docs/auth.md`.** -/
def documented (P : Primitives) (peer : Bytes) (service : String) (r : Reads) : Verdict :=
  -- 1. `auth.network == "none"`
  if r.state = .disabled then .allow
  -- 2. the service does not require auth here
  else if r.config.serviceRequiresAuth service = false then .allow
  else match usableIndex r with
  -- 3. the index; section 7: without an authority the node rejects what requires auth
  | none => .deny
  | some index =>
    if service ∉ index.services.map (·.name) then .allowWithWarning
    -- 4. the whitelist
    else match usableWhitelist service r with
    | none => .deny
    | some whitelist => if P.peerString peer ∈ whitelist.members then .allow else .deny

theorem checkIndex_isOk (v : AuthVersions) (version : UInt64) :
    (∃ v', v.checkIndex version = .ok v') ↔ v.index.all (fun seen => decide (seen ≤ version)) = true := by
  unfold AuthVersions.checkIndex
  cases v.index with
  | none => simp
  | some seen =>
    simp only [Option.all_some, decide_eq_true_eq]
    split
    · rename_i hold
      exact ⟨fun ⟨_, h⟩ => (by cases h), fun h => absurd hold (UInt64.not_lt.2 h)⟩
    · rename_i hnew
      exact ⟨fun _ => UInt64.not_lt.1 hnew, fun _ => ⟨_, rfl⟩⟩

theorem checkWhitelist_isOk (v : AuthVersions) (service : String) (version : UInt64) :
    (∃ v', v.checkWhitelist service version = .ok v') ↔
      (v.whitelists.lookup service).all (fun seen => decide (seen ≤ version)) = true := by
  unfold AuthVersions.checkWhitelist
  cases v.whitelists.lookup service with
  | none => simp
  | some seen =>
    simp only [Option.all_some, decide_eq_true_eq]
    split
    · rename_i hold
      exact ⟨fun ⟨_, h⟩ => (by cases h), fun h => absurd hold (UInt64.not_lt.2 h)⟩
    · rename_i hnew
      exact ⟨fun _ => UInt64.not_lt.1 hnew, fun _ => ⟨_, rfl⟩⟩

theorem find_eq_none_iff (doc : IndexDoc) (service : String) :
    doc.find service = none ↔ service ∉ doc.services.map (·.name) := by
  simp [IndexDoc.find, List.find?_eq_none]

theorem authorizeListed_documented (P : Primitives) (peer : Bytes) (service : String) (r : Reads) :
    (authorizeListed P peer service r).2.verdict =
      match usableWhitelist service r with
      | none => .deny
      | some whitelist => if P.peerString peer ∈ whitelist.members then .allow else .deny := by
  unfold authorizeListed
  unfold usableWhitelist
  rcases r.whitelist with e | ⟨_ | whitelist, stale⟩
  · rfl
  · rfl
  · have hok := checkWhitelist_isOk r.later service whitelist.version
    simp only [readable]
    cases hcheck : r.later.checkWhitelist service whitelist.version with
    | error e =>
      have hold : (r.later.whitelists.lookup service).all (fun seen => decide (seen ≤ whitelist.version)) = false := by
        rw [← Bool.not_eq_true, ← hok, hcheck]
        rintro ⟨_, h⟩
        cases h
      rw [Option.filter_some, hold]
      rfl
    | ok v =>
      have hnew := hok.1 ⟨v, hcheck⟩
      rw [Option.filter_some, hnew]
      simp only [Access.andThen, decideMember_eq, if_true]
      split <;> rfl

/-- **Where a node has an authority, the call follows the documented algorithm.** -/
theorem active_documented (P : Primitives) (peer : Bytes) (service : String) (r : Reads) {net : AuthNetwork}
    (hstate : r.state = .active net) : (authorize P peer service r).2.verdict = documented P peer service r := by
  unfold authorize documented usableIndex
  rw [hstate]
  simp only [Access.andThen, reduceCtorEq, if_false]
  cases hneeds : r.config.serviceRequiresAuth service with
  | false => rfl
  | true =>
    simp only [Bool.true_eq_false, if_false]
    cases r.caches with
    | none => rfl
    | some i =>
      simp only [reduceCtorEq, if_false]
      rcases r.index with e | ⟨_ | index, stale⟩
      · rfl
      · rfl
      · simp only [readable, Option.filter_some]
        by_cases hexpired : r.now > index.expiresAt
        · rw [if_pos hexpired, decide_eq_false (UInt64.not_le.2 hexpired), Bool.false_and]
          rfl
        · rw [if_neg hexpired, decide_eq_true (UInt64.not_lt.1 hexpired), Bool.true_and]
          have hok := checkIndex_isOk r.versions index.version
          cases hcheck : r.versions.checkIndex index.version with
          | error e =>
            have hold : r.versions.index.all (fun seen => decide (seen ≤ index.version)) = false := by
              rw [← Bool.not_eq_true, ← hok, hcheck]
              rintro ⟨_, h⟩
              cases h
            rw [hold]
            rfl
          | ok v =>
            rw [hok.1 ⟨v, hcheck⟩, if_pos rfl]
            have hfind := find_eq_none_iff index service
            cases hentry : index.find service with
            | none =>
              simp only [if_pos (hfind.1 hentry)]
              rfl
            | some entry =>
              have hlisted : ¬ service ∉ index.services.map (·.name) := fun h => by
                rw [hfind.2 h] at hentry
                cases hentry
              simp only [if_neg hlisted]
              exact authorizeListed_documented P peer service r

/-- **The call follows the documented algorithm except at one place**: a node without a usable authority also denies the
services that do not require auth. -/
theorem authorize_documented_iff (P : Primitives) (peer : Bytes) (service : String) (r : Reads) :
    (authorize P peer service r).2.verdict = documented P peer service r ↔
      ¬ ((∃ reason, r.state = .misconfigured reason) ∧ r.config.serviceRequiresAuth service = false) := by
  cases hstate : r.state with
  | disabled => simp [authorize, documented, hstate, Access.andThen, Decision.verdict]
  | active net => simp [active_documented P peer service r hstate]
  | misconfigured reason =>
    cases hneeds : r.config.serviceRequiresAuth service <;>
      simp [authorize, documented, usableIndex, hstate, hneeds, Access.andThen, Decision.verdict]

/-- A node whose network has no authority, with a service that does not require auth. -/
def openConfig : NodeConfig :=
  { NodeConfig.withServices [⟨"cmd", 6000, false⟩] with auth := ⟨"lab", ∅⟩ }

/-- What a call on that node meets. -/
def openReads : Reads :=
  ⟨resolveState labPrimitives openConfig, openConfig, none, .ok ⟨none, none⟩, 0, .default, .ok ⟨none, none⟩, .default⟩

/-- **A service that does not require auth is denied on a node without an authority.** -/
theorem misconfigured_denies_all : openConfig.validate = .ok () ∧ openConfig.serviceRequiresAuth "cmd" = false ∧
    (authorize labPrimitives [] "cmd" openReads).2 = .deny "鉴权网络 'lab' 未配置权威公钥" ∧
    documented labPrimitives [] "cmd" openReads = .allow := by
  refine ⟨by decide +kernel, by decide +kernel, by decide +kernel, by decide +kernel⟩

/-! ## Calls in the gate -/

/-- What a move of a request reads. -/
def Gate.reads (g : Gate) (q : Request) : Move → Option Access
  | .checkConfig config => some (.config config)
  | .readCaches => some (.caches g.caches)
  | .indexRead =>
    match q.pc with
    | .awaitIndex _ i c => (g.indexReturned i c).map .index
    | _ => none
  | .checkExpiry now => some (.now now)
  | .checkIndex => some (.versions g.versions)
  | .whitelistRead =>
    match q.pc with
    | .awaitWhitelist i _ _ c => (g.whitelistReturned i c).map .whitelist
    | _ => none
  | .checkWhitelist => some (.later g.versions)
  | _ => none

/-- The access of request `a` in an event. -/
def Gate.accessOf (a : Nat) (g : Gate) : Event → List Access
  | .authorize b _ _ => if b = a then [.state g.state] else []
  | .move b m => if b = a then ((g.requests.lookup a).bind (fun q => g.reads q m)).toList else []
  | _ => []

/-- The accesses of request `a` in a run, in order. -/
def accesses (P : Primitives) (config : NodeConfig) (a : Nat) (es : List Event) : List Access :=
  (gate P config).outputs (Gate.accessOf a) (gate P config).init es

def Answered (P : Primitives) (q : Request) (log : List Access) (decision : Decision) : Prop :=
  ∃ r, authorize P q.peer q.service r = (log, decision)

/-- The accesses of a call up to the caches. -/
def toCaches (net : AuthNetwork) (config : NodeConfig) (i : Nat) : List Access :=
  [.state (.active net), .config config, .caches (some i)]

/-- **Where a request is, by its accesses so far.** -/
def Trail (P : Primitives) (log : List Access) (q : Request) : Prop :=
  match q.pc with
  | .active net => log = [.state (.active net)]
  | .required net =>
    ∃ config, config.serviceRequiresAuth q.service = true ∧ log = [.state (.active net), .config config]
  | .ready net i | .awaitIndex net i _ =>
    ∃ config, config.serviceRequiresAuth q.service = true ∧ log = toCaches net config i
  | .gotIndex net i doc => ∃ config stale, config.serviceRequiresAuth q.service = true ∧
      log = toCaches net config i ++ [.index (.ok ⟨some doc, stale⟩)]
  | .unexpired net i doc => ∃ config stale now, config.serviceRequiresAuth q.service = true ∧ now ≤ doc.expiresAt ∧
      log = toCaches net config i ++ [.index (.ok ⟨some doc, stale⟩), .now now]
  | .listed i doc entry | .awaitWhitelist i doc entry _ => ∃ net config stale now versions versions',
      config.serviceRequiresAuth q.service = true ∧ now ≤ doc.expiresAt ∧
      versions.checkIndex doc.version = .ok versions' ∧ doc.find q.service = some entry ∧
      log = toCaches net config i ++ [.index (.ok ⟨some doc, stale⟩), .now now, .versions versions]
  | .gotWhitelist i doc entry list => ∃ net config stale now versions versions' stale',
      config.serviceRequiresAuth q.service = true ∧ now ≤ doc.expiresAt ∧
      versions.checkIndex doc.version = .ok versions' ∧ doc.find q.service = some entry ∧
      log = toCaches net config i ++ [.index (.ok ⟨some doc, stale⟩), .now now, .versions versions,
        .whitelist (.ok ⟨some list, stale'⟩)]
  | .dropIndex _ _ | .droppingIndex _ _ => Answered P q log (.deny "auth index rollback")
  | .dropWhitelist _ _ | .droppingWhitelist _ _ => Answered P q log (.deny "whitelist rollback")
  | .decided decision => Answered P q log decision

section Trails

variable {P : Primitives} {g g' : Gate} {q : Request} {log : List Access}

/-- Values for what a call does not read. -/
def Reads.unread (state : AuthState) (config : NodeConfig) : Reads :=
  ⟨state, config, none, .ok ⟨none, none⟩, 0, .default, .ok ⟨none, none⟩, .default⟩

theorem trail_begin (g : Gate) (peer : Bytes) (service : String) (config : NodeConfig) :
    Trail P [.state g.state] (g.begin peer service) := by
  unfold Gate.begin
  cases hstate : g.state with
  | disabled => exact ⟨.unread .disabled config, rfl⟩
  | misconfigured reason => exact ⟨.unread (.misconfigured reason) config, rfl⟩
  | active net => exact (rfl : [Access.state (.active net)] = _)

/-- **A move takes the call along its accesses.** -/
theorem Moved.trail {m : Move} {pc : Pc} (h : Moved P g q m g' pc) (ht : Trail P log q) :
    Trail P (log ++ (g.reads q m).toList) { q with pc := pc } := by
  unfold Trail at ht
  cases h with
  | required net config hpc needed =>
    rw [hpc] at ht
    exact ⟨config, needed, by rw [ht]; rfl⟩
  | notRequired net config hpc free =>
    rw [hpc] at ht
    refine ⟨.unread (.active net) config, ?_⟩
    simp only [authorize, Reads.unread, Access.andThen, free, if_true, ht, Gate.reads, Option.toList_some]
    rfl
  | noCaches net hpc hnone =>
    rw [hpc] at ht
    obtain ⟨config, needed, rfl⟩ := ht
    refine ⟨.unread (.active net) config, ?_⟩
    simp [authorize, Reads.unread, Access.andThen, needed, Gate.reads, hnone]
  | caches net i hpc current =>
    rw [hpc] at ht
    obtain ⟨config, needed, rfl⟩ := ht
    exact ⟨config, needed, by simp [Gate.reads, current, toCaches]⟩
  | getIndex _ _ _ _ _ hpc | getWhitelist _ _ _ _ _ _ hpc =>
    rw [hpc] at ht
    simpa [Gate.reads, Trail] using ht
  | indexRead net i c result hpc returned =>
    rw [hpc] at ht
    obtain ⟨config, needed, rfl⟩ := ht
    have hread : g.reads q .indexRead = some (.index result) := by simp [Gate.reads, hpc, returned]
    rw [hread, Option.toList_some]
    rcases result with e | ⟨_ | doc, stale⟩
    · refine ⟨{ Reads.unread (.active net) config with caches := some i, index := .error e }, ?_⟩
      simp [authorize, Reads.unread, Access.andThen, needed, toCaches]
    · refine ⟨{ Reads.unread (.active net) config with caches := some i, index := .ok ⟨none, stale⟩ }, ?_⟩
      simp [authorize, Reads.unread, Access.andThen, needed, toCaches]
    · exact ⟨config, stale, needed, rfl⟩
  | expired net i doc now hpc late =>
    rw [hpc] at ht
    obtain ⟨config, stale, needed, rfl⟩ := ht
    refine ⟨{ Reads.unread (.active net) config with
      caches := some i, index := .ok ⟨some doc, stale⟩, now := now }, ?_⟩
    simp [authorize, Reads.unread, Access.andThen, needed, toCaches, Gate.reads, late]
  | unexpired net i doc now hpc early =>
    rw [hpc] at ht
    obtain ⟨config, stale, needed, rfl⟩ := ht
    exact ⟨config, stale, now, needed, early, by simp [Gate.reads]⟩
  | indexRollback net i doc error hpc old =>
    rw [hpc] at ht
    obtain ⟨config, stale, now, needed, early, rfl⟩ := ht
    refine ⟨{ Reads.unread (.active net) config with
      caches := some i, index := .ok ⟨some doc, stale⟩, now := now, versions := g.versions }, ?_⟩
    simp [authorize, Reads.unread, Access.andThen, needed, toCaches, Gate.reads, UInt64.not_lt.2 early, old]
  | indexPassed net i doc versions hpc passed =>
    rw [hpc] at ht
    obtain ⟨config, stale, now, needed, early, rfl⟩ := ht
    cases hfind : doc.find q.service with
    | none =>
      refine ⟨{ Reads.unread (.active net) config with
        caches := some i, index := .ok ⟨some doc, stale⟩, now := now, versions := g.versions }, ?_⟩
      simp [authorize, Reads.unread, Access.andThen, needed, toCaches, Gate.reads, UInt64.not_lt.2 early, passed, hfind]
    | some entry => exact ⟨net, config, stale, now, _, _, needed, early, passed, hfind, by simp [Gate.reads]⟩
  | dropIndex _ _ _ _ hpc | indexDropped _ _ _ hpc | dropWhitelist _ _ _ _ hpc | whitelistDropped _ _ _ hpc =>
    rw [hpc] at ht
    simpa [Gate.reads, Trail, Answered] using ht
  | whitelistRead i doc entry c result hpc returned =>
    rw [hpc] at ht
    obtain ⟨net, config, stale, now, versions, versions', needed, early, passed, hfind, rfl⟩ := ht
    have hread : g.reads q .whitelistRead = some (.whitelist result) := by simp [Gate.reads, hpc, returned]
    rw [hread, Option.toList_some]
    rcases result with e | ⟨_ | list, stale'⟩
    · refine ⟨{ Reads.unread (.active net) config with
        caches := some i, index := .ok ⟨some doc, stale⟩, now := now, versions := versions, whitelist := .error e }, ?_⟩
      simp [authorize, authorizeListed, Reads.unread, Access.andThen, needed, toCaches, UInt64.not_lt.2 early, passed,
        hfind]
    · refine ⟨{ Reads.unread (.active net) config with
        caches := some i, index := .ok ⟨some doc, stale⟩, now := now, versions := versions,
        whitelist := .ok ⟨none, stale'⟩ }, ?_⟩
      simp [authorize, authorizeListed, Reads.unread, Access.andThen, needed, toCaches, UInt64.not_lt.2 early, passed,
        hfind]
    · exact ⟨net, config, stale, now, _, _, stale', needed, early, passed, hfind, by simp⟩
  | whitelistRollback i doc _ list _ hpc checked | whitelistPassed i doc _ list _ hpc checked =>
    rw [hpc] at ht
    obtain ⟨net, config, stale, now, versions, versions', stale', needed, early, passed, hfind, rfl⟩ := ht
    refine ⟨⟨.active net, config, some i, .ok ⟨some doc, stale⟩, now, versions, .ok ⟨some list, stale'⟩, g.versions⟩, ?_⟩
    simp [authorize, authorizeListed, Access.andThen, needed, toCaches, UInt64.not_lt.2 early, passed, hfind, Gate.reads,
      checked]

end Trails

section Runs

variable {P : Primitives} {config : NodeConfig} {es : List Event} {g g' : Gate}

theorem reload_requests (P : Primitives) (g : Gate) (config : NodeConfig) (fresh : Nat) :
    (g.reload P config fresh).requests = g.requests := by
  unfold Gate.reload
  simp only
  split
  · split <;> rfl
  · rfl

/-- **What a step does to the requests**: a new one begins, one makes a move, or they stay. -/
theorem requests_step {e : Event} (h : g.step P e = some g') :
    (∃ a peer service, e = .authorize a peer service ∧ a ∉ g.requests ∧
      g'.requests = g.requests.insert a (g.begin peer service)) ∨
    (∃ a m q pc g₁, e = .move a m ∧ g.requests.lookup a = some q ∧ Moved P g q m g₁ pc ∧
      g'.requests = g.requests.insert a { q with pc := pc }) ∨
    (g'.requests = g.requests ∧ ∀ a, Gate.accessOf a g e = []) := by
  cases stepped_of_step h with
  | authorize a peer service fresh => exact .inl ⟨a, peer, service, rfl, fresh, rfl⟩
  | move a m q g₁ pc hq hmoved => exact .inr (.inl ⟨a, m, q, pc, g₁, rfl, hq, hmoved, rfl⟩)
  | caches _ i old new about built cause =>
    refine .inr (.inr ⟨rfl, fun a => ?_⟩)
    cases cause <;> rfl
  | reload config fresh unused => exact .inr (.inr ⟨reload_requests P g config fresh, fun _ => rfl⟩)

/-- Every request stands where its accesses have brought it; one that has not begun has made none. -/
structure Logged (P : Primitives) (config : NodeConfig) (es : List Event) (g : Gate) : Prop where
  run : (gate P config).run es = some g
  trail : ∀ a q, g.requests.lookup a = some q → Trail P (accesses P config a es) q
  fresh : ∀ a, a ∉ g.requests → accesses P config a es = []

theorem Logged.step (h : Logged P config es g) {e : Event} (hstep : (gate P config).step g e = some g') :
    Logged P config (es ++ [e]) g' := by
  have hlog : ∀ a, accesses P config a (es ++ [e]) = accesses P config a es ++ Gate.accessOf a g e := fun a => by
    rw [accesses, (gate P config).outputs_append h.run, (gate P config).outputs_singleton]
    rfl
  have hrun : (gate P config).run (es ++ [e]) = some g' := ((gate P config).runFrom_concat).2 ⟨g, h.run, hstep⟩
  have hmem : ∀ {m : Dict Nat Request} {a : Nat}, a ∉ m ↔ m.lookup a = none := fun {m a} => by
    rw [← Finmap.lookup_eq_none]
  rcases requests_step hstep with ⟨b, peer, service, rfl, hfresh, hreq⟩ | ⟨b, m, q, pc, g₁, rfl, hq, hmoved, hreq⟩ |
    ⟨hreq, hquiet⟩
  · refine ⟨hrun, fun a q hq => ?_, fun a ha => ?_⟩
    · rw [hreq, Dict.lookup_insert_ite] at hq
      rw [hlog]
      split at hq
      · rename_i heq
        subst heq
        cases hq
        rw [h.fresh a hfresh, List.nil_append, Gate.accessOf, if_pos rfl]
        exact trail_begin g peer service config
      · rename_i hne
        rw [Gate.accessOf, if_neg (Ne.symm hne), List.append_nil]
        exact h.trail a q hq
    · rw [hmem, hreq, Dict.lookup_insert_ite] at ha
      split at ha
      · cases ha
      · rename_i hne
        rw [hlog, h.fresh a (hmem.2 ha), Gate.accessOf, if_neg (Ne.symm hne)]
        rfl
  · refine ⟨hrun, fun a q' hq' => ?_, fun a ha => ?_⟩
    · rw [hreq, Dict.lookup_insert_ite] at hq'
      rw [hlog]
      split at hq'
      · rename_i heq
        subst heq
        cases hq'
        rw [Gate.accessOf, if_pos rfl, hq, Option.bind_some]
        exact hmoved.trail (h.trail a q hq)
      · rename_i hne
        rw [Gate.accessOf, if_neg (Ne.symm hne), List.append_nil]
        exact h.trail a q' hq'
    · rw [hmem, hreq, Dict.lookup_insert_ite] at ha
      split at ha
      · cases ha
      · rename_i hne
        rw [hlog, h.fresh a (hmem.2 ha), Gate.accessOf, if_neg (Ne.symm hne)]
        rfl
  · refine ⟨hrun, fun a q hq => ?_, fun a ha => ?_⟩
    · rw [hlog, hquiet, List.append_nil]
      exact h.trail a q (hreq ▸ hq)
    · rw [hlog, hquiet, List.append_nil]
      exact h.fresh a (hreq ▸ ha)

/-- **What a call in the gate returns is what `authorize` makes of its accesses**, whatever runs beside it. -/
theorem authorize_of_run (hrun : (gate P config).run es = some g) {a : Nat} {q : Request} {decision : Decision}
    (hq : g.requests.lookup a = some q) (hpc : q.pc = .decided decision) :
    ∃ r, authorize P q.peer q.service r = (accesses P config a es, decision) := by
  have hinit : Logged P config [] (gate P config).init := by
    refine ⟨rfl, fun a q hq => ?_, fun a _ => rfl⟩
    have hnone : (gate P config).init.requests = ∅ := by
      change (Gate.new P config).requests = ∅
      unfold Gate.new
      split <;> rfl
    rw [hnone, Finmap.lookup_empty] at hq
    cases hq
  have hlogged : Logged P config es g :=
    (gate P config).history_invariant hinit (fun _ _ _ _ h _ hstep => h.step hstep) es g hrun
      ((gate P config).meets_true es _)
  have htrail := hlogged.trail a q hq
  unfold Trail at htrail
  rw [hpc] at htrail
  exact htrail

end Runs

end Auth
end NexusNet
