import NexusNet.Actor
/-!
# Bootstrap — bootstrap nodes adopted from Identify

`bootstrap.rs`: a dual-stack peer that provides the bootstrap key is added to the bootstrap nodes with one of the listen
addresses it announced per IP family.  `/p2p/<peer>` is appended only to an address that has no such component, so an
address that comes with the id of another peer (a relay's, or one of the sender's choice) is adopted under that id:
`bootstrap_addrs_iff` says when all adopted addresses name the identified peer.
-/
namespace NexusNet
namespace Bootstrap

def isIp4 : Protocol → Bool
  | .ip4 _ => true
  | _ => false

def isIp6 : Protocol → Bool
  | .ip6 _ => true
  | _ => false

def isP2p : Protocol → Bool
  | .p2p _ => true
  | _ => false

def isV4 (addr : Multiaddr) : Bool := addr.any isIp4

def isV6 (addr : Multiaddr) : Bool := addr.any isIp6

def isDualStackAddrs (addrs : List Multiaddr) : Bool :=
  addrs.any isV4 && addrs.any isV6

/-- The address that is kept for an announced one. -/
def full (peer : PeerId) (addr : Multiaddr) : Multiaddr := if addr.any isP2p then addr else addr ++ [.p2p peer]

/-- The loop of `bootstrap_addrs_from`, with the addresses taken for IPv4 and for IPv6. -/
def takeAddrs (peer : PeerId) : Option Multiaddr → Option Multiaddr → List Multiaddr → Option Multiaddr × Option Multiaddr
  | v4, v6, [] => (v4, v6)
  | v4, v6, addr :: rest =>
    if isV4 addr && v4.isNone then takeAddrs peer (some (full peer addr)) v6 rest
    else if isV6 addr && v6.isNone then takeAddrs peer v4 (some (full peer addr)) rest
    else takeAddrs peer v4 v6 rest

def bootstrapAddrsFrom (addrs : List Multiaddr) (peer : PeerId) : List Multiaddr :=
  (takeAddrs peer none none addrs).1.toList ++ (takeAddrs peer none none addrs).2.toList

/-- The loop of `on_identify` over the candidates. -/
def addNodes : List Multiaddr → List Multiaddr → List Multiaddr
  | nodes, [] => nodes
  | nodes, addr :: rest => addNodes (if nodes.contains addr then nodes else nodes ++ [addr]) rest

/-- `on_identify`: the bootstrap nodes after it.  `peeked` is what the provider cache holds for the bootstrap key. -/
def onIdentify (acceptBootstrapProviders : Bool) (peeked : Option (Option (List PeerId))) (nodes : List Multiaddr)
    (listenAddrs : List Multiaddr) (peer : PeerId) : List Multiaddr :=
  if !acceptBootstrapProviders then nodes
  else if !isDualStackAddrs listenAddrs then nodes
  else match peeked with
  | none => nodes
  | some providers =>
    if !(providers.getD []).contains peer then nodes
    else addNodes nodes (bootstrapAddrsFrom listenAddrs peer)

theorem mem_addNodes {a : Multiaddr} : ∀ {candidates nodes : List Multiaddr},
    a ∈ addNodes nodes candidates ↔ a ∈ nodes ∨ a ∈ candidates
  | [], nodes => by simp [addNodes]
  | addr :: rest, nodes => by
    rw [addNodes, mem_addNodes, List.mem_cons]
    by_cases hmem : addr ∈ nodes
    · rw [if_pos (List.contains_iff_mem.2 hmem)]
      constructor
      · exact fun h => h.imp_right .inr
      · rintro (h | rfl | h)
        · exact .inl h
        · exact .inl hmem
        · exact .inr h
    · rw [if_neg (fun h => hmem (List.contains_iff_mem.1 h)), List.mem_append, List.mem_singleton, or_assoc]

/-! ## Which addresses are taken -/

/-- The announced address taken for IPv4: the first with an IPv4 component. -/
def announcedV4 (addrs : List Multiaddr) : Option Multiaddr := addrs.find? isV4

/-- The announced address taken for IPv6: the first with an IPv6 component beside the one taken for IPv4. -/
def announcedV6 (addrs : List Multiaddr) : Option Multiaddr :=
  (addrs.eraseP isV4).find? isV6

/-- **A family's address is the first of the family**; once one is taken for IPv4, all further ones count for IPv6. -/
theorem takeAddrs_eq (peer : PeerId) : ∀ (addrs : List Multiaddr) (v4 v6 : Option Multiaddr),
    takeAddrs peer v4 v6 addrs =
      (v4.or ((announcedV4 addrs).map (full peer)),
        v6.or ((if v4.isSome then addrs.find? isV6 else announcedV6 addrs).map (full peer)))
  | [], v4, v6 => by simp [takeAddrs, announcedV4, announcedV6]
  | addr :: rest, v4, v6 => by
    have hrest := takeAddrs_eq peer rest
    unfold announcedV4 announcedV6 at hrest ⊢
    rw [takeAddrs]
    cases h4 : isV4 addr with
    | true =>
      cases v4 with
      | none => simp [hrest, h4]
      | some taken =>
        cases h6 : isV6 addr with
        | true => cases v6 <;> simp [hrest, h6]
        | false => simp [hrest, h6]
    | false =>
      cases h6 : isV6 addr with
      | true =>
        cases v6 with
        | none => cases v4 <;> simp [hrest, h4, h6]
        | some taken => cases v4 <;> simp [hrest, h4]
      | false => cases v4 <;> simp [hrest, h4, h6]

theorem bootstrapAddrsFrom_eq (addrs : List Multiaddr) (peer : PeerId) :
    bootstrapAddrsFrom addrs peer =
      ((announcedV4 addrs).map (full peer)).toList ++ ((announcedV6 addrs).map (full peer)).toList := by
  simp [bootstrapAddrsFrom, takeAddrs_eq]

/-! ## Whom they name -/

theorem extractPeerId_append_p2p {peer : PeerId} : ∀ {addr : Multiaddr}, addr.any isP2p = false →
    extractPeerIdFromMultiaddr (addr ++ [.p2p peer]) = some peer
  | [], _ => rfl
  | proto :: rest, h => by
    rw [List.any_cons, Bool.or_eq_false_iff] at h
    have hrest : extractPeerIdFromMultiaddr (rest ++ [.p2p peer]) = some peer := extractPeerId_append_p2p h.2
    cases proto with
    | p2p _ => cases h.1
    | _ => exact hrest

theorem extractPeerId_eq_none : ∀ {addr : Multiaddr}, extractPeerIdFromMultiaddr addr = none ↔ addr.any isP2p = false
  | [] => by simp [extractPeerIdFromMultiaddr]
  | proto :: rest => by
    have hrest : extractPeerIdFromMultiaddr rest = none ↔ rest.any isP2p = false := extractPeerId_eq_none
    cases proto with
    | p2p peer => simp [extractPeerIdFromMultiaddr, isP2p]
    | _ => simpa [extractPeerIdFromMultiaddr, isP2p] using hrest

theorem p2p_mem_of_extract {peer : PeerId} : ∀ {addr : Multiaddr}, extractPeerIdFromMultiaddr addr = some peer →
    .p2p peer ∈ addr
  | proto :: rest, h => by
    cases proto with
    | p2p peer' =>
      cases h
      exact List.mem_cons_self
    | _ => exact List.mem_cons_of_mem _ (p2p_mem_of_extract h)

/-- The admission list reads addresses as the relay manager does. -/
theorem peerIdFromMultiaddr_eq : ∀ addr : Multiaddr, Actor.peerIdFromMultiaddr addr = extractPeerIdFromMultiaddr addr
  | [] => rfl
  | proto :: rest => by
    have hrest := peerIdFromMultiaddr_eq rest
    cases proto with
    | p2p peer => rfl
    | _ => exact hrest

/-- The address names the peer: it is the first of its `/p2p` components. -/
def Names (peer : PeerId) (addr : Multiaddr) : Prop :=
  .p2p peer ∈ addr ∧ extractPeerIdFromMultiaddr addr = some peer ∧ Actor.peerIdFromMultiaddr addr = some peer

theorem names_iff {peer : PeerId} {addr : Multiaddr} : Names peer addr ↔ extractPeerIdFromMultiaddr addr = some peer :=
  ⟨fun h => h.2.1, fun h => ⟨p2p_mem_of_extract h, h, (peerIdFromMultiaddr_eq addr).trans h⟩⟩

/-- **A kept address names the peer exactly if the announced one names no other first.** -/
theorem names_full {peer : PeerId} {addr : Multiaddr} :
    Names peer (full peer addr) ↔ ∀ other, extractPeerIdFromMultiaddr addr = some other → other = peer := by
  rw [names_iff]
  unfold full
  cases hp2p : addr.any isP2p with
  | false =>
    have hnone : extractPeerIdFromMultiaddr addr = none := extractPeerId_eq_none.2 hp2p
    rw [if_neg Bool.false_ne_true, extractPeerId_append_p2p hp2p, hnone]
    simp
  | true =>
    rw [if_pos rfl]
    cases hextract : extractPeerIdFromMultiaddr addr with
    | none => rw [extractPeerId_eq_none.1 hextract] at hp2p; cases hp2p
    | some other => simp

/-- **What is adopted**: at most one address for each IP family, each kept for an announced one of the family. -/
structure Adopts (addrs : List Multiaddr) (peer : PeerId) (adopted : List Multiaddr) : Prop where
  length : adopted.length ≤ 2
  families : ∃ v4 v6 : Option Multiaddr, adopted = v4.toList ++ v6.toList ∧
    (∀ a ∈ v4, ∃ addr ∈ addrs, isV4 addr = true ∧ a = full peer addr) ∧
    (∀ a ∈ v6, ∃ addr ∈ addrs, isV6 addr = true ∧ a = full peer addr)

theorem bootstrapAddrsFrom_adopts (addrs : List Multiaddr) (peer : PeerId) :
    Adopts addrs peer (bootstrapAddrsFrom addrs peer) := by
  rw [bootstrapAddrsFrom_eq]
  refine ⟨?_, _, _, rfl, fun a ha => ?_, fun a ha => ?_⟩
  · cases announcedV4 addrs <;> cases announcedV6 addrs <;> simp
  · obtain ⟨addr, haddr, rfl⟩ := Option.map_eq_some_iff.1 ha
    exact ⟨addr, List.mem_of_find?_eq_some haddr, List.find?_some haddr, rfl⟩
  · obtain ⟨addr, haddr, rfl⟩ := Option.map_eq_some_iff.1 ha
    exact ⟨addr, List.mem_of_mem_eraseP (List.mem_of_find?_eq_some haddr),
      List.find?_some haddr, rfl⟩

/-- No address that is taken names another peer first. -/
def Untainted (addrs : List Multiaddr) (peer : PeerId) : Prop :=
  ∀ addr, announcedV4 addrs = some addr ∨ announcedV6 addrs = some addr →
    ∀ other, extractPeerIdFromMultiaddr addr = some other → other = peer

theorem names_bootstrapAddrsFrom {addrs : List Multiaddr} {peer : PeerId} :
    (∀ a ∈ bootstrapAddrsFrom addrs peer, Names peer a) ↔ Untainted addrs peer := by
  have hmem : ∀ a, a ∈ bootstrapAddrsFrom addrs peer ↔
      ∃ addr, (announcedV4 addrs = some addr ∨ announcedV6 addrs = some addr) ∧ full peer addr = a := fun a => by
    rw [bootstrapAddrsFrom_eq]
    simp only [List.mem_append, Option.mem_toList, Option.map_eq_some_iff, or_and_right, exists_or]
  constructor
  · exact fun h addr haddr => names_full.1 (h _ ((hmem _).2 ⟨addr, haddr, rfl⟩))
  · intro h a ha
    obtain ⟨addr, haddr, rfl⟩ := (hmem a).1 ha
    exact names_full.2 (h addr haddr)

theorem mem_onIdentify {accept : Bool} {peeked : Option (Option (List PeerId))} {nodes addrs : List Multiaddr}
    {peer : PeerId} {a : Multiaddr} (h : a ∈ onIdentify accept peeked nodes addrs peer) :
    a ∈ nodes ∨ a ∈ bootstrapAddrsFrom addrs peer := by
  unfold onIdentify at h
  repeat' split at h
  all_goals first | exact .inl h | exact mem_addNodes.1 h

/-- **Then only the identified peer joins the bootstrap peers**, which count as identified from the next start on. -/
theorem bootstrapPeers_onIdentify {accept : Bool} {peeked : Option (Option (List PeerId))} {nodes addrs : List Multiaddr}
    {peer : PeerId} (h : Untainted addrs peer) :
    Actor.bootstrapPeers (onIdentify accept peeked nodes addrs peer) ⊆ insert peer (Actor.bootstrapPeers nodes) := by
  intro p hp
  simp only [Actor.bootstrapPeers, List.mem_toFinset, List.mem_filterMap, Finset.mem_insert] at hp ⊢
  obtain ⟨a, ha, hp⟩ := hp
  rcases mem_onIdentify ha with ha | ha
  · exact .inr ⟨a, ha, hp⟩
  · have hnames := names_bootstrapAddrsFrom.2 h a ha
    exact .inl (Option.some.inj (hp.symm.trans hnames.2.2))

/-- **When the adopted addresses belong to the identified peer**: at most one per family is adopted from the announced
ones, and all name the peer if and only if neither of the two announced addresses they are kept for names another peer
first. -/
theorem bootstrap_addrs_iff (addrs : List Multiaddr) (peer : PeerId) :
    Adopts addrs peer (bootstrapAddrsFrom addrs peer) ∧
    ((∀ a ∈ bootstrapAddrsFrom addrs peer, Names peer a) ↔ Untainted addrs peer) :=
  ⟨bootstrapAddrsFrom_adopts addrs peer, names_bootstrapAddrsFrom⟩

/-! A peer behind a relay. -/

def relayed : List Multiaddr :=
  [[.ip4 0x01020304, .other "tcp/4001", .p2p [9], .p2pCircuit, .p2p [7]], [.ip6 1, .other "tcp/4001"]]

/-- **The relay's id is adopted for the peer's**: peer 7 announces a circuit address over peer 9, which is kept as it is,
and both the relay manager and the admission list then take peer 9 for a bootstrap node. -/
theorem relay_adopted :
    onIdentify true (some (some [[7]])) [] relayed [7] =
      [[.ip4 0x01020304, .other "tcp/4001", .p2p [9], .p2pCircuit, .p2p [7]], [.ip6 1, .other "tcp/4001", .p2p [7]]] ∧
    (∃ a ∈ bootstrapAddrsFrom relayed [7], extractPeerIdFromMultiaddr a = some [9]) ∧
    [9] ∈ Actor.bootstrapPeers (onIdentify true (some (some [[7]])) [] relayed [7]) ∧
    ¬ ∀ a ∈ bootstrapAddrsFrom relayed [7], Names [7] a := by
  have hkept : [.ip4 0x01020304, .other "tcp/4001", .p2p [9], .p2pCircuit, .p2p [7]] ∈ bootstrapAddrsFrom relayed [7] := by
    decide
  refine ⟨by decide, ⟨_, hkept, rfl⟩, by decide, fun h => ?_⟩
  exact absurd (names_iff.1 (h _ hkept)) (by decide)

end Bootstrap
end NexusNet
