import NexusNet.AuthGate
import NexusNet.DhtValues
/-!
# AuthSound — what an `Allow` rests on

Whatever the DHT answers and however the calls and refreshes interleave, an `authorize` that allows a peer has an index
and a whitelist that were verified from records the DHT returned.  The documents come out of the caches, so the caches
carry their provenance (`CachesSound`), and each request what it has checked so far (`Justified`).
-/
namespace NexusNet
namespace Auth

open Dht (Cache CacheError CacheRead Fetched FetchResult Holds)

/-! ## Records -/

theorem selectNewest_mem {D : Type} [DecidableEq D] {verify : Bytes → Except AuthError D} {version : D → UInt64}
    {conflict : String} {doc : D} {size : Nat} : ∀ (records : List Bytes) (best : Option (D × Nat)),
    selectNewest verify version conflict best records = .ok (some (doc, size)) →
      best = some (doc, size) ∨ ∃ record ∈ records, verify record = .ok doc
  | [], best, h => by
    cases h
    exact .inl rfl
  | value :: rest, best, h => by
    -- the document of the first record is taken or passed over
    have later : ∀ best', selectNewest verify version conflict best' rest = .ok (some (doc, size)) →
        best' = some (doc, size) ∨ ∃ record ∈ value :: rest, verify record = .ok doc := fun best' h' => by
      rcases selectNewest_mem rest best' h' with hbest | ⟨record, hmem, hv⟩
      · exact .inl hbest
      · exact .inr ⟨record, List.mem_cons_of_mem _ hmem, hv⟩
    have taken : ∀ doc₁, verify value = .ok doc₁ →
        selectNewest verify version conflict (some (doc₁, value.length)) rest = .ok (some (doc, size)) →
        ∃ record ∈ value :: rest, verify record = .ok doc := fun doc₁ hv h' => by
      rcases later _ h' with hbest | hrest
      · cases hbest
        exact ⟨value, List.mem_cons_self, hv⟩
      · exact hrest
    unfold selectNewest at h
    split at h
    · exact later best h
    · rename_i doc₁ hv
      split at h
      · exact .inr (taken doc₁ hv h)
      · split at h
        · exact .inr (taken doc₁ hv h)
        · split at h
          · cases h
          · exact later _ h

theorem asFetched_eq_some {D : Type} {version : D → UInt64} {selected : Except String (Option (D × Nat))}
    {fetched : Fetched D} (h : asFetched version selected = .ok (some fetched)) :
    ∃ size, selected = .ok (some (fetched.value, size)) := by
  rcases selected with e | _ | ⟨doc, size⟩
  · cases h
  · cases h
  · cases h
    exact ⟨size, rfl⟩

theorem selected_verified {D : Type} [DecidableEq D] {verify : Bytes → Except AuthError D} {version : D → UInt64}
    {conflict : String} {records : List Bytes} {fetched : Fetched D}
    (h : asFetched version (selectNewest verify version conflict none records) = .ok (some fetched)) :
    ∃ record ∈ records, verify record = .ok fetched.value := by
  obtain ⟨size, hsel⟩ := asFetched_eq_some h
  rcases selectNewest_mem records none hsel with hnone | hmem
  · cases hnone
  · exact hmem

/-- **A fetched index was verified** from a record of the reply. -/
theorem fetchIndex_verified {P : Primitives} {net : AuthNetwork} {reply : Except String (List Bytes)} {now : UInt64}
    {fetched : Fetched IndexDoc} (h : fetchIndex P net reply now = .ok (some fetched)) :
    ∃ records, reply = .ok records ∧ ∃ record ∈ records, verifyIndex P net record now = .ok fetched.value := by
  cases reply with
  | error e => cases h
  | ok records => exact ⟨records, rfl, selected_verified h⟩

/-- **A fetched whitelist was verified** from a record of the reply, against the entry of its key. -/
theorem fetchWhitelist_verified {P : Primitives} {net : AuthNetwork} {key : WhitelistKey}
    {reply : Except String (List Bytes)} {fetched : Fetched WhitelistDoc}
    (h : fetchWhitelist P net key reply = .ok (some fetched)) :
    ∃ records, reply = .ok records ∧ ∃ record ∈ records,
      verifyWhitelist P net key.service record key.entry = .ok fetched.value := by
  unfold fetchWhitelist at h
  split at h
  · cases h
  · cases reply with
    | error e => cases h
    | ok records => exact ⟨records, rfl, selected_verified h⟩

theorem find_name {doc : IndexDoc} {service : String} {entry : ServiceEntry} (h : doc.find service = some entry) :
    entry.name = service := by
  have := List.find?_some h
  simpa using this

theorem whitelistKey_entry {doc : IndexDoc} {service : String} {entry : ServiceEntry}
    (h : doc.find service = some entry) : (whitelistKey service doc entry).entry = entry := by
  have hname := find_name h
  obtain ⟨name, hash, length⟩ := entry
  simp only at hname
  subst hname
  rfl

theorem decideMember_eq (P : Primitives) (peer : Bytes) (list : WhitelistDoc) : decideMember P peer list =
    if P.peerString peer ∈ list.members then .allow else .deny "peer not authorized" := by
  simp [decideMember]

/-! ## Grounds -/

/-- The document was verified as the index of the network from a record that the DHT returned. -/
def IndexSeen (P : Primitives) (es : List Event) (net : AuthNetwork) (doc : IndexDoc) : Prop :=
  ∃ i r records now record, .indexReply i r (.ok records) now ∈ es ∧ record ∈ records ∧
    verifyIndex P net record now = .ok doc

/-- The document was verified as the whitelist of the key from a record that the DHT returned. -/
def WhitelistSeen (P : Primitives) (es : List Event) (net : AuthNetwork) (key : WhitelistKey) (doc : WhitelistDoc) :
    Prop :=
  ∃ i r records record, .whitelistReply i r (.ok records) ∈ es ∧ record ∈ records ∧
    verifyWhitelist P net key.service record key.entry = .ok doc

/-- The request made the access, in a gate and from a place with `φ`. -/
def Took (P : Primitives) (config : NodeConfig) (es : List Event) (a : Nat) (m : Move) (φ : Gate → Pc → Prop) : Prop :=
  ∃ pre post g q, es = pre ++ .move a m :: post ∧ (gate P config).run pre = some g ∧
    g.requests.lookup a = some q ∧ φ g q.pc

/-- **The index the request used**: verified from a record of the DHT, not expired when the request checked it, and of a
version that passed. -/
structure IndexPassed (P : Primitives) (config : NodeConfig) (es : List Event) (net : AuthNetwork) (a : Nat)
    (doc : IndexDoc) : Prop where
  seen : IndexSeen P es net doc
  unexpired : ∃ now, now ≤ doc.expiresAt ∧
    Took P config es a (.checkExpiry now) (fun _ pc => ∃ i, pc = .gotIndex net i doc)
  version : Took P config es a .checkIndex (fun g pc => (∃ i, pc = .unexpired net i doc) ∧
    ∃ versions, g.versions.checkIndex doc.version = .ok versions)

/-- **What an `Allow` rests on**: the index, its first entry for the service, and a record `value` of the DHT with the
digest and the length of that entry which is a whitelist with the peer in it. -/
structure Grounds (P : Primitives) (config : NodeConfig) (es : List Event) (net : AuthNetwork) (a : Nat) (peer : Bytes)
    (service : String) (doc : IndexDoc) (entry : ServiceEntry) (value : Bytes) (list : WhitelistDoc) : Prop where
  index : IndexPassed P config es net a doc
  listed : doc.find service = some entry
  returned : ∃ i r records, .whitelistReply i r (.ok records) ∈ es ∧ value ∈ records
  hash : entry.hash = P.sha256 value
  length : entry.length.toNat = value.length
  verified : verifyWhitelist P net service value entry = .ok list
  member : P.peerString peer ∈ list.members

section More

variable {P : Primitives} {config : NodeConfig} {es : List Event} {net : AuthNetwork}

theorem IndexSeen.more {doc : IndexDoc} (h : IndexSeen P es net doc) (e : Event) : IndexSeen P (es ++ [e]) net doc := by
  obtain ⟨i, r, records, now, record, hmem, hrest⟩ := h
  exact ⟨i, r, records, now, record, List.mem_append_left _ hmem, hrest⟩

theorem WhitelistSeen.more {key : WhitelistKey} {doc : WhitelistDoc} (h : WhitelistSeen P es net key doc) (e : Event) :
    WhitelistSeen P (es ++ [e]) net key doc := by
  obtain ⟨i, r, records, record, hmem, hrest⟩ := h
  exact ⟨i, r, records, record, List.mem_append_left _ hmem, hrest⟩

theorem Took.more {a : Nat} {m : Move} {φ : Gate → Pc → Prop} (h : Took P config es a m φ) (e : Event) :
    Took P config (es ++ [e]) a m φ := by
  obtain ⟨pre, post, g, q, rfl, hrest⟩ := h
  exact ⟨pre, post ++ [e], g, q, by simp, hrest⟩

theorem IndexPassed.more {a : Nat} {doc : IndexDoc} (h : IndexPassed P config es net a doc) (e : Event) :
    IndexPassed P config (es ++ [e]) net a doc where
  seen := h.seen.more e
  unexpired := by
    obtain ⟨now, hnow, htook⟩ := h.unexpired
    exact ⟨now, hnow, htook.more e⟩
  version := h.version.more e

theorem Grounds.more {a : Nat} {peer : Bytes} {service : String} {doc : IndexDoc} {entry : ServiceEntry} {value : Bytes}
    {list : WhitelistDoc} (h : Grounds P config es net a peer service doc entry value list) (e : Event) :
    Grounds P config (es ++ [e]) net a peer service doc entry value list where
  index := h.index.more e
  listed := h.listed
  returned := by
    obtain ⟨i, r, records, hmem, hvalue⟩ := h.returned
    exact ⟨i, r, records, List.mem_append_left _ hmem, hvalue⟩
  hash := h.hash
  length := h.length
  verified := h.verified
  member := h.member

theorem took_last {a : Nat} {m : Move} {φ : Gate → Pc → Prop} {g : Gate} {q : Request}
    (hrun : (gate P config).run es = some g) (hq : g.requests.lookup a = some q) (hφ : φ g q.pc) :
    Took P config (es ++ [.move a m]) a m φ := ⟨es, [], g, q, rfl, hrun, hq, hφ⟩

/-- A member of a whitelist that was verified against the index has all the grounds. -/
theorem grounds_of_seen {a : Nat} {peer : Bytes} {service : String} {doc : IndexDoc} {entry : ServiceEntry}
    {list : WhitelistDoc} (hindex : IndexPassed P config es net a doc) (hfind : doc.find service = some entry)
    (hseen : WhitelistSeen P es net (whitelistKey service doc entry) list)
    (hmember : P.peerString peer ∈ list.members) :
    ∃ value, Grounds P config es net a peer service doc entry value list := by
  obtain ⟨i, r, records, value, hmem, hvalue, hverify⟩ := hseen
  rw [whitelistKey_entry hfind] at hverify
  obtain ⟨hhash, hlength⟩ := verifyWhitelist_binding hverify
  exact ⟨value, hindex, hfind, ⟨i, r, records, hmem, hvalue⟩, hhash, hlength, hverify, hmember⟩

end More

/-! ## The caches -/

/-- **Everything in the caches was verified** for the network. -/
structure CachesSound (P : Primitives) (es : List Event) (net : AuthNetwork) (caches : AuthCaches) : Prop where
  domain : caches.net = net
  index : Holds (fun _ => IndexSeen P es net) caches.index
  whitelist : Holds (WhitelistSeen P es net) caches.whitelist

/-- All caches of the gate, replaced ones too. -/
def BuiltSound (P : Primitives) (es : List Event) (net : AuthNetwork) (g : Gate) : Prop :=
  ∀ i caches, g.built.lookup i = some caches → CachesSound P es net caches

/-- The call reads the key from the whitelist cache. -/
def ReadsWhitelist (g : Gate) (i c : Nat) (key : WhitelistKey) : Prop :=
  ∃ caches, g.built.lookup i = some caches ∧
    ∃ call, caches.whitelist.calls.lookup c = some call ∧ call.reads key

/-- What an access or a step of a cache leaves as it is. -/
structure Frame (P : Primitives) (es : List Event) (net : AuthNetwork) (g g' : Gate) : Prop where
  state : g'.state = g.state
  caches : g'.caches = g.caches
  requests : g'.requests = g.requests
  built : BuiltSound P es net g → BuiltSound P es net g'
  reads : ∀ i c key, ReadsWhitelist g i c key → ReadsWhitelist g' i c key

section Caches

variable {P : Primitives} {es : List Event} {net : AuthNetwork} {g g' : Gate}

theorem CachesSound.more {caches : AuthCaches} (h : CachesSound P es net caches) (e : Event) :
    CachesSound P (es ++ [e]) net caches where
  domain := h.domain
  index := h.index.mono (fun _ _ hseen => hseen.more e)
  whitelist := h.whitelist.mono (fun _ _ hseen => hseen.more e)

theorem CachesSound.plain_index {caches : AuthCaches} {index : Cache String IndexDoc} {e : Dht.Event String IndexDoc}
    (h : CachesSound P es net caches) (hstep : Cache.Step caches.index e index) (plain : isFetchDone e = false) :
    CachesSound P es net { caches with index := index } :=
  ⟨h.domain, h.index.step hstep (fun r k gen fetched he _ => by rw [he] at plain; cases plain), h.whitelist⟩

theorem CachesSound.plain_whitelist {caches : AuthCaches} {whitelist : Cache WhitelistKey WhitelistDoc}
    {e : Dht.Event WhitelistKey WhitelistDoc} (h : CachesSound P es net caches)
    (hstep : Cache.Step caches.whitelist e whitelist) (plain : isFetchDone e = false) :
    CachesSound P es net { caches with whitelist := whitelist } :=
  ⟨h.domain, h.index, h.whitelist.step hstep (fun r k gen fetched he _ => by rw [he] at plain; cases plain)⟩

theorem BuiltSound.more (h : BuiltSound P es net g) (e : Event) : BuiltSound P (es ++ [e]) net g :=
  fun i caches hi => (h i caches hi).more e

theorem cachesSound_build (P : Primitives) (es : List Event) (net : AuthNetwork) : CachesSound P es net (buildCaches net) :=
  ⟨rfl, Holds.new _ _ _, Holds.new _ _ _⟩

theorem BuiltSound.insert (h : BuiltSound P es net g) {i : Nat} {caches : AuthCaches}
    (hnew : CachesSound P es net caches) : BuiltSound P es net { g with built := g.built.insert i caches } := by
  intro j caches' hj
  rw [Dict.lookup_insert_ite] at hj
  split at hj
  · cases hj
    exact hnew
  · exact h j caches' hj

theorem ReadsWhitelist.insert {i j c : Nat} {key : WhitelistKey} {caches : AuthCaches}
    (h : ReadsWhitelist g j c key)
    (hsame : ∀ old, g.built.lookup i = some old → (∃ call, old.whitelist.calls.lookup c = some call ∧ call.reads key) →
      ∃ call, caches.whitelist.calls.lookup c = some call ∧ call.reads key) :
    ReadsWhitelist { g with built := g.built.insert i caches } j c key := by
  obtain ⟨old, hold, hcall⟩ := h
  by_cases hji : j = i
  · subst hji
    exact ⟨caches, by rw [Dict.lookup_insert_ite, if_pos rfl], hsame old hold hcall⟩
  · exact ⟨old, by rw [Dict.lookup_insert_ite, if_neg hji]; exact hold, hcall⟩

theorem Frame.versions (versions : AuthVersions) : Frame P es net g { g with versions := versions } :=
  ⟨rfl, rfl, rfl, fun h => h, fun _ _ _ h => h⟩

theorem reads_stepIndex {i : Nat} {e : Dht.Event String IndexDoc} (h : g.stepIndex i e = some g') {j c : Nat}
    {key : WhitelistKey} (hreads : ReadsWhitelist g j c key) : ReadsWhitelist g' j c key := by
  obtain ⟨caches, index, hcaches, -, rfl⟩ := stepIndex_eq_some h
  refine hreads.insert (fun old hold hcall => ?_)
  cases hcaches.symm.trans hold
  exact hcall

theorem reads_stepWhitelist {i : Nat} {e : Dht.Event WhitelistKey WhitelistDoc} (h : g.stepWhitelist i e = some g')
    {j c : Nat} {key : WhitelistKey} (hreads : ReadsWhitelist g j c key) : ReadsWhitelist g' j c key := by
  obtain ⟨caches, whitelist, hcaches, hstep, rfl⟩ := stepWhitelist_eq_some h
  refine hreads.insert (fun old hold hcall => ?_)
  cases hcaches.symm.trans hold
  exact hstep.reads hcall

/-- A step of an index cache that fetches nothing. -/
theorem frame_stepIndex {i : Nat} {e : Dht.Event String IndexDoc} (h : g.stepIndex i e = some g')
    (plain : isFetchDone e = false) : Frame P es net g g' := by
  obtain ⟨hstate, hcur, hreq, -⟩ := kept_stepIndex h
  refine ⟨hstate, hcur, hreq, fun hb => ?_, fun _ _ _ hr => reads_stepIndex h hr⟩
  obtain ⟨caches, index, hcaches, hstep, rfl⟩ := stepIndex_eq_some h
  exact hb.insert ((hb i caches hcaches).plain_index hstep plain)

/-- A step of a whitelist cache that fetches nothing. -/
theorem frame_stepWhitelist {i : Nat} {e : Dht.Event WhitelistKey WhitelistDoc} (h : g.stepWhitelist i e = some g')
    (plain : isFetchDone e = false) : Frame P es net g g' := by
  obtain ⟨hstate, hcur, hreq, -⟩ := kept_stepWhitelist h
  refine ⟨hstate, hcur, hreq, fun hb => ?_, fun _ _ _ hr => reads_stepWhitelist h hr⟩
  obtain ⟨caches, whitelist, hcaches, hstep, rfl⟩ := stepWhitelist_eq_some h
  exact hb.insert ((hb i caches hcaches).plain_whitelist hstep plain)

/-- **An access leaves the rest of the gate as it is.** -/
theorem Moved.frame {q : Request} {m : Move} {pc : Pc} (h : Moved P g q m g' pc) : Frame P es net g g' := by
  cases h with
  | getIndex _ _ _ _ _ _ enter | dropIndex _ _ _ _ _ enter | indexDropped _ _ _ _ enter =>
    exact frame_stepIndex enter rfl
  | getWhitelist _ _ _ _ _ _ _ enter | dropWhitelist _ _ _ _ _ enter | whitelistDropped _ _ _ _ enter =>
    exact frame_stepWhitelist enter rfl
  | _ => exact .versions _

/-- **Caches that step on their own hold what was verified**: a fetch brings only a verified document. -/
theorem CachesStep.sound {old new : AuthCaches} {e : Event} (h : CachesStep P old e new)
    (hold : CachesSound P es net old) : CachesSound P (es ++ [e]) net new := by
  have hmore := hold.more e
  cases h with
  | index i d index plain step => exact hmore.plain_index step plain
  | whitelist i d whitelist plain step => exact hmore.plain_whitelist step plain
  | indexReply i r reply now index step =>
    refine ⟨hold.domain, hmore.index.step step (fun r' k gen fetched he _ => ?_), hmore.whitelist⟩
    obtain ⟨-, hresult⟩ := Dht.Event.fetchDone.inj he
    rw [hold.domain] at hresult
    obtain ⟨records, rfl, record, hmem, hverify⟩ := fetchIndex_verified hresult
    exact ⟨i, r, records, now, record, by simp, hmem, hverify⟩
  | whitelistReply i r reply f whitelist task step =>
    refine ⟨hold.domain, hmore.index, hmore.whitelist.step step (fun r' k gen fetched he htask => ?_)⟩
    obtain ⟨rfl, hresult⟩ := Dht.Event.fetchDone.inj he
    cases task.symm.trans htask
    rw [hold.domain] at hresult
    obtain ⟨records, rfl, record, hmem, hverify⟩ := fetchWhitelist_verified hresult
    exact ⟨i, r, records, record, by simp, hmem, hverify⟩

theorem CachesStep.reads {old new : AuthCaches} {e : Event} (h : CachesStep P old e new) {c : Nat} {key : WhitelistKey}
    (hold : ∃ call, old.whitelist.calls.lookup c = some call ∧ call.reads key) :
    ∃ call, new.whitelist.calls.lookup c = some call ∧ call.reads key := by
  cases h with
  | index | indexReply => exact hold
  | whitelist i d whitelist plain step => exact step.reads hold
  | whitelistReply i r reply f whitelist task step => exact step.reads hold

theorem CachesStep.frame {old new : AuthCaches} {e : Event} (h : CachesStep P old e new) {i : Nat}
    (hbuilt : g.built.lookup i = some old) (hold : CachesSound P es net old) :
    Frame P (es ++ [e]) net g { g with built := g.built.insert i new } := by
  refine ⟨rfl, rfl, rfl, fun hb => hb.insert (h.sound hold), fun j c key hreads => ?_⟩
  refine hreads.insert (fun old' hold' hcall => ?_)
  cases hbuilt.symm.trans hold'
  exact h.reads hcall

/-- An index that a call has returned was verified. -/
theorem indexReturned_seen {i c : Nat} {doc : IndexDoc} {stale : Option String}
    (hb : ∀ caches, g.built.lookup i = some caches → CachesSound P es net caches)
    (h : g.indexReturned i c = some (.ok ⟨some doc, stale⟩)) : IndexSeen P es net doc := by
  unfold Gate.indexReturned returnedOf at h
  obtain ⟨caches, hcaches, h⟩ := Option.bind_eq_some_iff.1 h
  split at h
  · rename_i k result hcall
    cases h
    exact (hb caches hcaches).index.calls c _ k doc hcall ⟨rfl, rfl⟩
  · cases h

/-- A whitelist that a call has returned was verified for the key it reads. -/
theorem whitelistReturned_seen {i c : Nat} {key : WhitelistKey} {list : WhitelistDoc} {stale : Option String}
    (hb : ∀ caches, g.built.lookup i = some caches → CachesSound P es net caches) (hreads : ReadsWhitelist g i c key)
    (h : g.whitelistReturned i c = some (.ok ⟨some list, stale⟩)) : WhitelistSeen P es net key list := by
  unfold Gate.whitelistReturned returnedOf at h
  obtain ⟨caches, hcaches, h⟩ := Option.bind_eq_some_iff.1 h
  obtain ⟨caches', hcaches', call, hcall', hkey⟩ := hreads
  cases hcaches.symm.trans hcaches'
  split at h
  · rename_i k result hcall
    cases h
    cases hcall.symm.trans hcall'
    exact (hb caches hcaches).whitelist.calls c _ key list hcall ⟨hkey, rfl⟩
  · cases h

theorem reads_get {i c now : Nat} {key : WhitelistKey} (h : g.stepWhitelist i (.get c key now) = some g') :
    ReadsWhitelist g' i c key := by
  obtain ⟨caches, whitelist, hcaches, hstep, rfl⟩ := stepWhitelist_eq_some h
  refine ⟨_, by rw [Dict.lookup_insert_ite, if_pos rfl], ?_⟩
  cases hstep with
  | get _ _ _ fresh =>
    refine ⟨_, by rw [Dht.lookup_setCall, if_pos rfl], ?_⟩
    exact (rfl : key = key)

end Caches

/-! ## The requests -/

/-- **What a request has made sure of** where it is. -/
def Justified (P : Primitives) (config : NodeConfig) (es : List Event) (g : Gate) (net : AuthNetwork) (a : Nat)
    (q : Request) : Prop :=
  match q.pc with
  | .active net' | .required net' | .ready net' _ | .awaitIndex net' _ _ => net' = net
  | .gotIndex net' _ doc => net' = net ∧ IndexSeen P es net doc
  | .unexpired net' _ doc => net' = net ∧ IndexSeen P es net doc ∧ ∃ now, now ≤ doc.expiresAt ∧
      Took P config es a (.checkExpiry now) (fun _ pc => ∃ i, pc = .gotIndex net i doc)
  | .listed _ doc entry => IndexPassed P config es net a doc ∧ doc.find q.service = some entry
  | .awaitWhitelist i doc entry c => IndexPassed P config es net a doc ∧ doc.find q.service = some entry ∧
      ReadsWhitelist g i c (whitelistKey q.service doc entry)
  | .gotWhitelist _ doc entry list => IndexPassed P config es net a doc ∧ doc.find q.service = some entry ∧
      WhitelistSeen P es net (whitelistKey q.service doc entry) list
  | .decided .allow => ∃ doc entry value list, Grounds P config es net a q.peer q.service doc entry value list
  | .decided .allowUnprotected => ∃ doc, IndexPassed P config es net a doc ∧ doc.find q.service = none
  | _ => True

section Requests

variable {P : Primitives} {config : NodeConfig} {es : List Event} {net : AuthNetwork} {g g' : Gate} {a : Nat} {q : Request}

theorem Justified.more (h : Justified P config es g net a q)
    (hreads : ∀ i c key, ReadsWhitelist g i c key → ReadsWhitelist g' i c key) (e : Event) :
    Justified P config (es ++ [e]) g' net a q := by
  unfold Justified at h ⊢
  split at h
  · exact h
  · exact h
  · exact h
  · exact h
  · exact ⟨h.1, h.2.more e⟩
  · obtain ⟨hnet, hseen, now, hnow, htook⟩ := h
    exact ⟨hnet, hseen.more e, now, hnow, htook.more e⟩
  · exact ⟨h.1.more e, h.2⟩
  · exact ⟨h.1.more e, h.2.1, hreads _ _ _ h.2.2⟩
  · exact ⟨h.1.more e, h.2.1, h.2.2.more e⟩
  · obtain ⟨doc, entry, value, list, hg⟩ := h
    exact ⟨doc, entry, value, list, hg.more e⟩
  · obtain ⟨doc, hpassed, hnone⟩ := h
    exact ⟨doc, hpassed.more e, hnone⟩
  · trivial

/-- **An access justifies where it leads**, for a request whose service requires authorization. -/
theorem Moved.justified {m : Move} {pc : Pc} (h : Moved P g q m g' pc) (hrun : (gate P config).run es = some g)
    (hq : g.requests.lookup a = some q) (hb : BuiltSound P es net g) (hj : Justified P config es g net a q)
    (hneeds : ∀ now, m = .checkConfig now → now.serviceRequiresAuth q.service = true) :
    Justified P config (es ++ [.move a m]) g' net a { q with pc := pc } := by
  unfold Justified at hj
  cases h with
  | required _ _ hpc | caches _ _ hpc | getIndex _ _ _ _ _ hpc =>
    rw [hpc] at hj
    exact hj
  | notRequired net' now hpc free =>
    rw [hneeds now rfl] at free
    cases free
  | indexRead net' i c result hpc returned =>
    rw [hpc] at hj
    rcases result with e | ⟨_ | doc, stale⟩
    · trivial
    · trivial
    · exact ⟨hj, (indexReturned_seen (hb i) returned).more _⟩
  | unexpired net' i doc now hpc early =>
    rw [hpc] at hj
    obtain ⟨rfl, hseen⟩ := hj
    exact ⟨rfl, hseen.more _, now, early, took_last hrun hq ⟨i, hpc⟩⟩
  | indexPassed net' i doc versions hpc passed =>
    rw [hpc] at hj
    obtain ⟨rfl, hseen, now, hnow, htook⟩ := hj
    have hpassed : IndexPassed P config (es ++ [.move a .checkIndex]) net' a doc :=
      ⟨hseen.more _, ⟨now, hnow, htook.more _⟩, took_last hrun hq ⟨⟨i, hpc⟩, versions, passed⟩⟩
    unfold Justified
    cases hfind : doc.find q.service with
    | none => exact ⟨doc, hpassed, hfind⟩
    | some entry => exact ⟨hpassed, hfind⟩
  | getWhitelist i doc entry c now _ hpc enter =>
    rw [hpc] at hj
    exact ⟨hj.1.more _, hj.2, reads_get enter⟩
  | whitelistRead i doc entry c result hpc returned =>
    rw [hpc] at hj
    obtain ⟨hpassed, hfind, hreads⟩ := hj
    rcases result with e | ⟨_ | list, stale⟩
    · trivial
    · trivial
    · exact ⟨hpassed.more _, hfind, (whitelistReturned_seen (hb i) hreads returned).more _⟩
  | whitelistPassed i doc entry list versions hpc passed =>
    rw [hpc] at hj
    obtain ⟨hpassed, hfind, hseen⟩ := hj
    rw [decideMember_eq]
    by_cases hmember : P.peerString q.peer ∈ list.members
    · rw [if_pos hmember]
      obtain ⟨value, hg⟩ := grounds_of_seen hpassed hfind hseen hmember
      exact ⟨doc, entry, value, list, hg.more _⟩
    · rw [if_neg hmember]
      trivial
  | _ => trivial

end Requests

/-! ## Runs -/

/-- The gate stays in the `Active` state of the network, and the configuration that a request for the service reads
requires authorization. -/
def active (P : Primitives) (net : AuthNetwork) (service : String) (g : Gate) : Event → Bool
  | .reload config _ => decide (resolveState P config = .active net)
  | .move a (.checkConfig config) =>
    (g.requests.lookup a).all (fun q => q.service != service || config.serviceRequiresAuth service)
  | _ => true

/-- **The invariant of the runs in the `Active` state.** -/
structure Sound (P : Primitives) (config : NodeConfig) (net : AuthNetwork) (service : String) (es : List Event) (g : Gate) :
    Prop where
  run : (gate P config).run es = some g
  state : g.state = .active net
  caches : g.caches.isSome = true
  built : BuiltSound P es net g
  requests : ∀ a q, g.requests.lookup a = some q → q.service = service → Justified P config es g net a q

section Runs

variable {P : Primitives} {config : NodeConfig} {net : AuthNetwork} {service : String} {es : List Event} {g g' : Gate}

theorem sound_init (hactive : resolveState P config = .active net) : Sound P config net service [] (gate P config).init := by
  have hinit : (gate P config).init =
      ⟨.active net, some 0, .default, (∅ : Dict Nat AuthCaches).insert 0 (buildCaches net), ∅⟩ := by
    simp only [gate, Gate.new, hactive]
  refine ⟨rfl, by rw [hinit], by rw [hinit]; rfl, ?_, fun a q hq => ?_⟩
  · intro i caches hi
    rw [hinit, Dict.lookup_insert_ite] at hi
    split at hi
    · cases hi
      exact cachesSound_build P [] net
    · simp at hi
  · rw [hinit] at hq
    simp at hq

theorem Sound.frame (h : Sound P config net service es g) {e : Event} (hstep : (gate P config).step g e = some g')
    (hf : Frame P (es ++ [e]) net g g') : Sound P config net service (es ++ [e]) g' where
  run := ((gate P config).runFrom_concat).2 ⟨g, h.run, hstep⟩
  state := hf.state.trans h.state
  caches := by rw [hf.caches]; exact h.caches
  built := hf.built (h.built.more e)
  requests := fun a q hq hs => (h.requests a q (hf.requests ▸ hq) hs).more hf.reads e

theorem Sound.reload (h : Sound P config net service es g) {config' : NodeConfig} {fresh : Nat}
    (hnext : resolveState P config' = .active net)
    (hstep : (gate P config).step g (.reload config' fresh) = some (g.reload P config' fresh)) :
    Sound P config net service (es ++ [.reload config' fresh]) (g.reload P config' fresh) := by
  have hsame : sameTrustDomain g.state (.active net) = true := by simp [h.state, sameTrustDomain]
  have hkept : g.reload P config' fresh = { g with state := .active net } := by
    simp only [Gate.reload, hnext, hsame, h.caches, Bool.and_self, if_true]
  rw [hkept] at hstep ⊢
  exact h.frame hstep ⟨h.state.symm, rfl, rfl, fun hb => hb, fun _ _ _ hr => hr⟩

/-- **A step keeps the invariant.** -/
theorem Sound.step (h : Sound P config net service es g) {e : Event} (hactive : active P net service g e = true)
    (hstep : (gate P config).step g e = some g') : Sound P config net service (es ++ [e]) g' := by
  have hrun := ((gate P config).runFrom_concat).2 ⟨g, h.run, hstep⟩
  cases stepped_of_step hstep with
  | authorize a peer s fresh =>
    refine ⟨hrun, h.state, h.caches, h.built.more _, fun b q hq hs => ?_⟩
    rw [Dict.lookup_insert_ite] at hq
    split at hq
    · cases hq
      simp only [Gate.begin, h.state, Justified]
    · exact (h.requests b q hq hs).more (fun _ _ _ hr => hr) _
  | move a m q g₁ pc hq hmoved =>
    have hf : Frame P (es ++ [.move a m]) net g g₁ := hmoved.frame
    refine ⟨hrun, hf.state.trans h.state, by simpa only [hf.caches] using h.caches, hf.built (h.built.more _),
      fun b q' hq' hs => ?_⟩
    simp only [Dict.lookup_insert_ite] at hq'
    split at hq'
    · rename_i hba
      subst hba
      cases hq'
      refine hmoved.justified h.run hq h.built (h.requests b q hq hs) (fun now hm => ?_)
      subst hm
      simp only at hs
      subst hs
      simpa [active, hq] using hactive
    · exact (h.requests b q' hq' hs).more hf.reads _
  | caches _ i old new about built cause => exact h.frame hstep (cause.frame built (h.built i old built))
  | reload config' fresh unused => exact h.reload (by simpa [active] using hactive) hstep

end Runs

/-- **An authorization is sound.**  In every run of an active gate, whatever the DHT answers and however calls,
refreshes and invalidations interleave: a request for a service that requires authorization is allowed only on the
grounds above, and is let through as unprotected only by a verified, unexpired index that does not list the service. -/
theorem authorize_sound (P : Primitives) (config : NodeConfig) (net : AuthNetwork) (service : String)
    (hactive : resolveState P config = .active net) (es : List Event) (g : Gate)
    (hrun : (gate P config).run es = some g)
    (hmeets : (gate P config).Meets (fun g e => active P net service g e = true) (gate P config).init es)
    (a : Nat) (q : Request) (hq : g.requests.lookup a = some q) (hs : q.service = service) :
    (q.pc = .decided .allow →
      ∃ doc entry value list, Grounds P config es net a q.peer service doc entry value list) ∧
    (q.pc = .decided .allowUnprotected → ∃ doc, IndexPassed P config es net a doc ∧ doc.find service = none) := by
  have hsound : Sound P config net service es g :=
    (gate P config).history_invariant (sound_init hactive) (fun es g e g' h hok hstep => h.step hok hstep) es g hrun hmeets
  have hj := hsound.requests a q hq hs
  subst hs
  unfold Justified at hj
  constructor
  · intro hpc
    rw [hpc] at hj
    exact hj
  · intro hpc
    rw [hpc] at hj
    exact hj

/-! A network with one index record and one whitelist record, and a request that goes all the way. -/

/-- A record with a one-byte payload, signed for the key it is stored under: here a signature is the authority's key
followed by the data. -/
def labRecord (payload : UInt8) (key : String) : Bytes := payload :: (strBytes "key" ++ strBytes key ++ [payload])

def labIndex : Bytes := labRecord 1 "/oahd/auth/lab/service"

def labWhitelist : Bytes := labRecord 2 "/oahd/auth/lab/cmd"

def labSha256 (value : Bytes) : Bytes := (value ++ List.replicate 32 0).take 32

/-- Payload 1 is an index that lists `cmd`, payload 2 its whitelist. -/
def labPrimitives : Primitives where
  sha256 := labSha256
  encodeUrl := fun _ => "lab"
  decodeBase64 := fun b64 => some (strBytes b64)
  isPublicKey := fun key => !key.isEmpty
  verify := fun key data signature => signature == key ++ data
  decodeCose := fun value =>
    match value with
    | [] => none
    | payload :: signature => some ⟨some eddsa, [], some [payload], signature⟩
  tbs := fun sign1 aad => aad ++ sign1.payload.getD []
  decodeIndex := fun payload =>
    if payload = [1] then some ⟨1, 100, [⟨"cmd", labSha256 labWhitelist, UInt64.ofNat labWhitelist.length⟩]⟩ else none
  decodeWhitelist := fun payload => if payload = [2] then some ⟨1, ["peer"]⟩ else none
  peerString := fun _ => "peer"

def labConfig : NodeConfig :=
  { NodeConfig.withServices [⟨"cmd", 6000, true⟩] with auth := ⟨"lab", (∅ : Dict String String).insert "lab" "key"⟩ }

def labNetwork : AuthNetwork := ⟨"lab", strBytes "key"⟩

/-- Call 0 into the index cache finds nothing and reads what its refresh stores. -/
def labIndexRead : List Event :=
  [.index 0 (.ensure 0 0), .index 0 (.loadGlobal 0), .index 0 (.loadKey 0), .index 0 (.fetchStart 0),
    .indexReply 0 0 (.ok [labRecord 1 "/oahd/auth/lab/cmd", labIndex]) 50, .index 0 (.recheckGlobal 0), .index 0 (.recheckKey 0),
    .index 0 (.write 0 1 (Iteration.ascending String)), .index 0 (.send 0), .index 0 (.wake 0), .index 0 (.lookup 0 1)]

/-- The same in the whitelist cache. -/
def labWhitelistRead (order : Iteration WhitelistKey) : List Event :=
  [.whitelist 0 (.ensure 0 0), .whitelist 0 (.loadGlobal 0), .whitelist 0 (.loadKey 0), .whitelist 0 (.fetchStart 0),
    .whitelistReply 0 0 (.ok [labWhitelist]), .whitelist 0 (.recheckGlobal 0), .whitelist 0 (.recheckKey 0),
    .whitelist 0 (.write 0 1 order), .whitelist 0 (.send 0), .whitelist 0 (.wake 0), .whitelist 0 (.lookup 0 1)]

def labRun (order : Iteration WhitelistKey) : List Event :=
  .authorize 0 [] "cmd" :: .move 0 (.checkConfig labConfig) :: .move 0 .readCaches :: .move 0 (.getIndex 0 0) ::
    labIndexRead ++ .move 0 .indexRead :: .move 0 (.checkExpiry 60) :: .move 0 .checkIndex :: .move 0 (.getWhitelist 0 0) ::
    labWhitelistRead order ++ [.move 0 .whitelistRead, .move 0 .checkWhitelist]

/-- The request is allowed, on the grounds of the two records. -/
theorem lab_allowed : ∃ g doc entry value list,
    (gate labPrimitives labConfig).run (labRun ⟨Finset.toList, Finset.coe_toList⟩) = some g ∧
    g.requests.lookup 0 = some ⟨[], "cmd", .decided .allow⟩ ∧
    Grounds labPrimitives labConfig (labRun ⟨Finset.toList, Finset.coe_toList⟩) labNetwork 0 [] "cmd" doc entry value
      list := by
  obtain ⟨g, hrun, hg⟩ := (gate labPrimitives labConfig).exists_of_check
    (fun g => decide (g.requests.lookup 0 = some ⟨[], "cmd", .decided .allow⟩))
    (labRun ⟨Finset.toList, Finset.coe_toList⟩) (by decide +kernel)
  have hq : g.requests.lookup 0 = some ⟨[], "cmd", .decided .allow⟩ := of_decide_eq_true hg
  obtain ⟨doc, entry, value, list, hgrounds⟩ := (authorize_sound labPrimitives labConfig labNetwork "cmd"
    (by decide +kernel) _ g hrun (by decide +kernel) 0 _ hq rfl).1 rfl
  exact ⟨g, doc, entry, value, list, hrun, hq, hgrounds⟩

end Auth
end NexusNet
