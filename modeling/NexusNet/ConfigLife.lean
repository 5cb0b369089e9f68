import NexusNet.Bootstrap
import NexusNet.ConfigSaved
import NexusNet.FilePrograms
import NexusNet.Machine
/-!
# ConfigLife — the configuration of a node over its starts

The file `config.toml` over the life of a node: a start reads it, checks and completes it (`from_toml_file`), and writes the
addresses it finds on its interfaces into it (`update_config_with_public_ip`); while it runs, the node adds bootstrap nodes
to it (`on_identify`).  Any file operation may fail, and the process may end at any of them.

What each of these programs does to the file is said by one `Keeps` lemma.  Over any life the settings stay what they were,
the bootstrap nodes grow, and the file is always what the running node would save (`config_survives`), as long as the
addresses it is given are read back from their text.
-/
namespace NexusNet
namespace ConfigFile
namespace Life

open FilePrograms (Program Op Fate Holds replaceFile)

/-! ## Files -/

/-- `config.toml`, `config.tmp`, and `config.bak`, `config.bak.1`, … -/
inductive ConfigPath where
  | config
  | temp
  | backup (n : Nat)
deriving DecidableEq

abbrev Files (T : Type) : Type := FilePrograms.Disk ConfigPath T

abbrev ConfigProgram (T : Type) : Type → Type := Program ConfigPath T

section Programs

variable {T D : Type}

/-- The loop of `rename_bad_config` for the first free name; `none` while it has not come to an end. -/
def freeBackup : Nat → Nat → ConfigProgram T (Option Nat)
  | 0, _ => return none
  | fuel + 1, n => do
    match ← .probeFile (.backup n) with
    | true => freeBackup fuel (n + 1)
    | false => return some n

def renameBadConfig (fuel : Nat) : ConfigProgram T Bool := do
  match ← freeBackup fuel 0 with
  | none => return false
  | some n => .renameFile .config (.backup n)

/-- `write_atomic_or_exit`; `false` is the exit. -/
def writeAtomicOrExit (content : T) : ConfigProgram T Bool := do
  match ← replaceFile .temp .config content with
  | .ok _ => return true
  | .error _ => return false

variable (forms : TextForms) (order : Iteration String) (toml : TomlText T D)

def saveToDefault (config : NodeConfig) : ConfigProgram T Bool :=
  match (nodeConfig forms order).write config with
  | none => return false
  | some entries => writeAtomicOrExit (toml.toStringPretty entries)

/-- The last part of `from_toml_file`: the default configuration is written. -/
def createDefault : ConfigProgram T (Option NodeConfig) :=
  match (nodeConfig forms order).write .default with
  | none => return none
  | some entries => do
    match ← .writeFile .config (toml.toStringPretty entries) with
    | true => return some .default
    | false => return none

/-- The part of `from_toml_file` after the read; `none` is `exit(1)`. -/
def readConfigFile [DecidableEq T] (fuel : Nat) (content : T) : ConfigProgram T (Option NodeConfig) :=
  match fromStr forms order toml content with
  | some config =>
    match config.validate with
    | .error _ => return none
    | .ok () =>
      match completeMissingFields forms order toml content config with
      | none => return some config
      | some completed => do
        match ← writeAtomicOrExit completed with
        | true => return some config
        | false => return none
  | none => do
    match ← renameBadConfig fuel with
    | true => createDefault forms order toml
    | false => return none

/-- `!create_if_missing && !path.exists()` is false: the path is looked for only if the file is not to be created. -/
def wanted (createIfMissing : Bool) : ConfigProgram T Bool := if createIfMissing then pure true else .probeFile .config

def fromTomlFile [DecidableEq T] (fuel : Nat) (createIfMissing : Bool) : ConfigProgram T (Option NodeConfig) := do
  if !(← wanted createIfMissing) then return some .default
  else match ← .readFile .config with
  | .ok content => readConfigFile forms order toml fuel content
  | .error .notFound => createDefault forms order toml
  | .error .other => return none

/-! ## Public addresses -/

deriving instance DecidableEq for IpAddr

def octet4 (addr : UInt32) (i : Nat) : UInt8 := (addr >>> (24 - 8 * i.toUInt32)).toUInt8

def octet6 (addr : BitVec 128) (i : Nat) : BitVec 8 := addr.extractLsb' (120 - 8 * i) 8

/-- The test of `get_public_ips` for an address of an interface. -/
def isPublic : IpAddr → Bool
  | .v4 addr =>
    let isLoopback := octet4 addr 0 == 127
    let isPrivate := octet4 addr 0 == 10 || (octet4 addr 0 == 172 && 16 ≤ octet4 addr 1 && octet4 addr 1 ≤ 31) ||
      (octet4 addr 0 == 192 && octet4 addr 1 == 168)
    let isLinkLocal := octet4 addr 0 == 169 && octet4 addr 1 == 254
    !isLoopback && !isPrivate && !isLinkLocal
  | .v6 addr =>
    if addr == 1 || addr == 0 || octet6 addr 0 == 0xff then false
    else if octet6 addr 0 == 0xfe && octet6 addr 1 &&& 0xc0 == 0x80 then false
    else if octet6 addr 0 == 0xfc || octet6 addr 0 == 0xfd then false
    else true

/-- `get_public_ips`; the interfaces are `none` if they cannot be listed. -/
def getPublicIps (ifaces : Option (List IpAddr)) : List IpAddr := (ifaces.getD []).filter isPublic

def isIpv4 : IpAddr → Bool
  | .v4 _ => true
  | .v6 _ => false

def ipv4Addrs (ifaces : Option (List IpAddr)) : List IpAddr := (getPublicIps ifaces).filter isIpv4

def ipv6Addrs (ifaces : Option (List IpAddr)) : List IpAddr := (getPublicIps ifaces).filter (fun ip => !isIpv4 ip)

def clearStalePublicAddresses (network : NetworkConfig) : NetworkConfig × Bool :=
  if network.ipv4Address.isNone && network.ipv6Address.isNone then (network, false)
  else ({ network with ipv4Address := none, ipv6Address := none }, true)

/-- The addresses found, with the flags of their families. -/
def setAddresses (ipv4 ipv6 : List IpAddr) (network : NetworkConfig) : NetworkConfig :=
  let network := if !ipv4.isEmpty then { network with ipv4Enabled := true, ipv4Address := ipv4.head? }
    else { network with ipv4Enabled := false, ipv4Address := none }
  if !ipv6.isEmpty then { network with ipv6Enabled := true, ipv6Address := ipv6.head? }
  else { network with ipv6Enabled := false, ipv6Address := none }

/-- The configuration in memory after the probe, and whether it is saved. -/
def probed (ifaces : Option (List IpAddr)) (config : NodeConfig) : NodeConfig × Bool :=
  let ipv4 := ipv4Addrs ifaces
  let ipv6 := ipv6Addrs ifaces
  let network := { config.network with hasPublicAddress := !(getPublicIps ifaces).isEmpty }
  if ipv4.isEmpty && ipv6.isEmpty then
    ({ config with network := (clearStalePublicAddresses network).1 }, (clearStalePublicAddresses network).2)
  else if network.ipv4Address = ipv4.head? ∧ network.ipv6Address = ipv6.head? then ({ config with network := network }, false)
  else ({ config with network := setAddresses ipv4 ipv6 network }, true)

/-- Saves the configuration if it has to be; `none` is the exit. -/
def saveIf (changed : Bool) (config : NodeConfig) : ConfigProgram T (Option NodeConfig) := do
  if changed then
    match ← saveToDefault forms order toml config with
    | true => return some config
    | false => return none
  else return some config

def updateConfigWithPublicIp (ifaces : Option (List IpAddr)) (config : NodeConfig) : ConfigProgram T (Option NodeConfig) :=
  saveIf forms order toml (probed ifaces config).2 (probed ifaces config).1

/-- The start of `main`, as far as the configuration goes: the keys are loaded in between. -/
def start [DecidableEq T] (fuel : Nat) (keys : Bool) (ifaces : Option (List IpAddr)) : ConfigProgram T (Option NodeConfig) := do
  match ← fromTomlFile forms order toml fuel true with
  | none => return none
  | some config => if keys then updateConfigWithPublicIp forms order toml ifaces config else return none

/-! ## Bootstrap nodes -/

def setBootstrapNodes (config : NodeConfig) (nodes : List Multiaddr) : NodeConfig :=
  { config with services := { config.services with kademlia := { config.services.kademlia with bootstrapNodes := nodes } } }

/-- The bootstrap nodes after `on_identify`. -/
def identified (config : NodeConfig) (peeked : Option (Option (List PeerId))) (listenAddrs : List Multiaddr) (peer : PeerId) :
    List Multiaddr :=
  Bootstrap.onIdentify config.node.acceptBootstrapProviders peeked config.services.kademlia.bootstrapNodes listenAddrs peer

/-- `on_identify` adds nodes and saves them, or leaves the configuration alone. -/
def onIdentify (config : NodeConfig) (peeked : Option (Option (List PeerId))) (listenAddrs : List Multiaddr) (peer : PeerId) :
    ConfigProgram T (Option NodeConfig) :=
  let nodes := identified config peeked listenAddrs peer
  saveIf forms order toml (nodes != config.services.kademlia.bootstrapNodes) (setBootstrapNodes config nodes)

end Programs

/-! ## What stays -/

/-- The configuration without the addresses and the bootstrap nodes. -/
def settings (c : NodeConfig) : NodeConfig :=
  { c with
    network := { c.network with
      ipv4Enabled := false, ipv4Address := none, ipv6Enabled := false, ipv6Address := none, hasPublicAddress := false }
    services := { c.services with kademlia := { c.services.kademlia with bootstrapNodes := [] } } }

/-- **The settings are the same, and no bootstrap node is lost.** -/
structure Kept (c later : NodeConfig) : Prop where
  settings : settings later = settings c
  nodes : c.services.kademlia.bootstrapNodes <+: later.services.kademlia.bootstrapNodes

theorem Kept.refl (c : NodeConfig) : Kept c c := ⟨rfl, List.prefix_refl _⟩

theorem Kept.trans {a b c : NodeConfig} (h : Kept a b) (h' : Kept b c) : Kept a c :=
  ⟨h'.settings.trans h.settings, h.nodes.trans h'.nodes⟩

theorem Kept.validate {c later : NodeConfig} (h : Kept c later) : later.validate = c.validate := by
  have hchecked : ∀ c : NodeConfig, c.checked = (Life.settings c).checked := fun _ => rfl
  rw [NodeConfig.validate, NodeConfig.validate, hchecked, hchecked c, h.settings]

/-- Addresses and bootstrap nodes can always be written. -/
theorem writes_of_settings {forms : TextForms} {order order' : Iteration String} {c later : NodeConfig}
    (h : settings later = settings c) (hwrites : (nodeConfig forms order).Writes c) : (nodeConfig forms order').Writes later := by
  obtain ⟨⟨⟨⟨⟨hnode, -⟩, hservices⟩, hcrypto⟩, -⟩, hcompat⟩ := nodeConfig_writes.1 hwrites
  obtain ⟨⟨⟨⟨hping, -⟩, hdispatcher⟩, hregistry⟩, hrelay⟩ := servicesConfig_writes.1 hservices
  have hsame : later.node = c.node ∧ later.crypto = c.crypto ∧ later.compat = c.compat ∧
      later.services.ping = c.services.ping ∧ later.services.dispatcher = c.services.dispatcher ∧
      later.services.registry = c.services.registry ∧ later.services.relay = c.services.relay := by
    simp only [settings, NodeConfig.mk.injEq, ServicesConfig.mk.injEq] at h
    tauto
  obtain ⟨hn, hcr, hco, hp, hd, hre, hrl⟩ := hsame
  refine nodeConfig_writes.2 ⟨⟨⟨⟨⟨hn ▸ hnode, networkConfig_writes _ _⟩, servicesConfig_writes.2 ?_⟩, hcr ▸ hcrypto⟩,
    authConfig_writes _ _⟩, hco ▸ hcompat⟩
  exact ⟨⟨⟨⟨hp ▸ hping, kademliaService_writes _ _⟩, hd ▸ hdispatcher⟩, hre ▸ hregistry⟩, hrl ▸ hrelay⟩

section Probed

variable (ifaces : Option (List IpAddr)) (c : NodeConfig)

/-- What the probe finds changes nothing but addresses, and **the node runs with the first public address of each family**. -/
theorem probed_spec : Kept c (probed ifaces c).1.saved ∧
    ((probed ifaces c).2 = false → (probed ifaces c).1.saved = c.saved) ∧
    ((probed ifaces c).1.network.ipv4Address = (ipv4Addrs ifaces).head? ∧
      (probed ifaces c).1.network.ipv6Address = (ipv6Addrs ifaces).head?) ∧
    (probed ifaces c).1.services = c.services := by
  rw [probed]
  split
  · rename_i hnone
    rw [Bool.and_eq_true, List.isEmpty_iff, List.isEmpty_iff] at hnone
    rw [hnone.1, hnone.2, clearStalePublicAddresses]
    split
    · rename_i hcleared
      rw [Bool.and_eq_true, Option.isNone_iff_eq_none, Option.isNone_iff_eq_none] at hcleared
      exact ⟨⟨rfl, List.prefix_refl _⟩, fun _ => rfl, hcleared, rfl⟩
    · exact ⟨⟨rfl, List.prefix_refl _⟩, nofun, ⟨rfl, rfl⟩, rfl⟩
  split
  · rename_i hsame
    exact ⟨⟨rfl, List.prefix_refl _⟩, fun _ => rfl, hsame, rfl⟩
  · rw [setAddresses]
    cases ipv4Addrs ifaces <;> cases ipv6Addrs ifaces <;> exact ⟨⟨rfl, List.prefix_refl _⟩, nofun, ⟨rfl, rfl⟩, rfl⟩

variable {ifaces c}

theorem probed_reads {forms : TextForms} (h : forms.Reads c) (hips : ∀ ip ∈ getPublicIps ifaces, forms.ReadsIp ip) :
    forms.Reads (probed ifaces c).1.saved := by
  obtain ⟨-, -, ⟨hipv4, hipv6⟩, hservices⟩ := probed_spec ifaces c
  refine ⟨fun ip hip => ?_, fun ip hip => ?_, fun addr haddr => h.nodes addr (hservices ▸ haddr)⟩
  · exact hips ip (List.mem_of_mem_filter (List.mem_of_mem_head? (hipv4 ▸ hip)))
  · exact hips ip (List.mem_of_mem_filter (List.mem_of_mem_head? (hipv6 ▸ hip)))

end Probed

theorem prefix_addNodes : ∀ (candidates nodes : List Multiaddr), nodes <+: Bootstrap.addNodes nodes candidates
  | [], nodes => List.prefix_refl nodes
  | addr :: rest, nodes => by
    rw [Bootstrap.addNodes]
    refine List.IsPrefix.trans ?_ (prefix_addNodes rest _)
    split
    · exact List.prefix_refl nodes
    · exact List.prefix_append nodes [addr]

/-- Nodes are only added. -/
theorem identified_kept (c : NodeConfig) (peeked : Option (Option (List PeerId))) (listenAddrs : List Multiaddr)
    (peer : PeerId) : Kept c (setBootstrapNodes c (identified c peeked listenAddrs peer)).saved := by
  refine ⟨rfl, ?_⟩
  change _ <+: identified c peeked listenAddrs peer
  unfold identified Bootstrap.onIdentify
  repeat' split
  all_goals first | exact List.prefix_refl _ | exact prefix_addNodes _ _

/-! ## What the programs do to the file -/

section Keeps

open FilePrograms (replaceFile_keeps)
open FilePrograms.Program

variable {T D : Type} {forms : TextForms} {toml : TomlText T D} {mayFail : Op ConfigPath → Prop} {I : Files T → Prop}
  {files : Files T} {c c₀ config : NodeConfig}

/-- The file reads as the configuration. -/
abbrev HoldsConfig (forms : TextForms) (toml : TomlText T D) : Files T → NodeConfig → Prop :=
  Holds (fromStr forms (Iteration.ascending String) toml) .config

theorem HoldsConfig.saved (h : HoldsConfig forms toml files c) : c.saved = c := by
  obtain ⟨content, -, hread⟩ := h
  obtain ⟨doc, -, hread⟩ := Option.bind_eq_some_iff.1 hread
  exact saved_of_readConfig hread

theorem HoldsConfig.writes (h : HoldsConfig forms toml files c) (order : Iteration String) : (nodeConfig forms order).Writes c := by
  obtain ⟨content, -, hread⟩ := h
  obtain ⟨doc, -, hread⟩ := Option.bind_eq_some_iff.1 hread
  exact writes_of_settings rfl ((nodeConfig forms (Iteration.ascending String)).exists_write_of_table hread)

theorem HoldsConfig.temp (h : HoldsConfig forms toml files c) (left : Option T) :
    HoldsConfig forms toml (Function.update files .temp left) c := h.congr rfl

theorem writeAtomicOrExit_keeps {content : T} (htemp : ∀ d left, I d → I (Function.update d .temp left))
    (hnew : ∀ d, I d → I (Function.update d .config (some content))) (h : I files) :
    (writeAtomicOrExit content).Keeps mayFail I
      (fun r d => (r = true → d .config = some content) ∧ (r = false → ∃ op, mayFail op)) files := by
  refine Keeps.bind ((replaceFile_keeps htemp hnew h).mono (fun _ h => h) ?_)
  rintro (e | u) d hd ⟨hwritten, hfailed⟩
  · exact ⟨hd, nofun, fun _ => (hfailed e rfl).elim (⟨_, ·⟩) (⟨_, ·⟩)⟩
  · exact ⟨hd, fun _ => hwritten u rfl, nofun⟩

/-- **A start reads the file, and leaves it reading as before.** -/
theorem fromTomlFile_keeps [DecidableEq T] (h : HoldsConfig forms toml files c) (hvalid : c.validate = .ok ())
    (order : Iteration String) (fuel : Nat) : (fromTomlFile forms order toml fuel true).Keeps mayFail
      (fun d => HoldsConfig forms toml d c) (fun r _ => r = some c ∨ r = none ∧ ∃ op, mayFail op) files := by
  obtain ⟨content, hfile, hread⟩ := id h
  refine Keeps.bind ⟨h, Keeps.bind ⟨h, ⟨h, ?_⟩, fun hmay => ⟨h, h, .inr ⟨rfl, _, hmay⟩⟩⟩⟩
  rw [found_some hfile]
  -- the order a map is iterated in does not matter for reading
  have hread : fromStr forms order toml content = some c := hread
  obtain ⟨hagain, -⟩ := completed_text forms order toml hread
  simp only [readConfigFile, hread, hvalid]
  cases hcompleted : completeMissingFields forms order toml content c with
  | none => exact ⟨h, .inl rfl⟩
  | some completed =>
    rw [hcompleted, Option.getD_some] at hagain
    refine Keeps.bind ((writeAtomicOrExit_keeps (fun d left hd => hd.temp left)
      (fun d _ => ⟨completed, Function.update_self _ _ _, hagain⟩) h).mono (fun _ h => h) ?_)
    rintro (_ | _) d hd ⟨-, hfailed⟩
    · exact ⟨hd, .inr ⟨rfl, hfailed rfl⟩⟩
    · exact ⟨hd, .inl rfl⟩

/-- What stays, in a configuration whose addresses are read back. -/
structure Lasts (forms : TextForms) (c later : NodeConfig) : Prop where
  kept : Kept c later
  reads : forms.Reads later

/-- The file holds the settings and the bootstrap nodes. -/
def FileKept (forms : TextForms) (toml : TomlText T D) (c₀ : NodeConfig) (d : Files T) : Prop :=
  ∃ c, HoldsConfig forms toml d c ∧ Lasts forms c₀ c

/-- **What is saved is what the file then holds**: it keeps the settings, or the file is left alone. -/
theorem saveIf_keeps {order : Iteration String} {changed : Bool}
    (h : HoldsConfig forms toml files c) (hkept : Lasts forms c₀ c) (hnew : Lasts forms c₀ config.saved)
    (hsame : changed = false → config.saved = c) : (saveIf forms order toml changed config).Keeps mayFail
      (FileKept forms toml c₀) (fun r d => (∀ m, r = some m → m = config ∧ HoldsConfig forms toml d config.saved) ∧
        (r = none → ∃ op, mayFail op)) files := by
  have hbefore : FileKept forms toml c₀ files := ⟨c, h, hkept⟩
  cases changed with
  | false =>
    refine ⟨hbefore, fun m hm => ⟨(Option.some.inj hm).symm, ?_⟩, nofun⟩
    rw [hsame rfl]
    exact h
  | true =>
    -- what can be read can be written, and addresses and nodes always can
    have hsettings : settings config = settings c := hnew.kept.settings.trans hkept.kept.settings.symm
    obtain ⟨entries, hentries⟩ := writes_of_settings hsettings (h.writes order)
    have hforms : forms.Reads config := ⟨hnew.reads.ipv4, hnew.reads.ipv6, hnew.reads.nodes⟩
    have hsaved := fromStr_saved hforms toml order (Iteration.ascending String) hentries
    have hwrite : (writeAtomicOrExit (toml.toStringPretty entries)).Keeps mayFail (FileKept forms toml c₀)
        (fun r d => (r = true → d .config = some (toml.toStringPretty entries)) ∧ (r = false → ∃ op, mayFail op)) files :=
      writeAtomicOrExit_keeps (fun d left ⟨c, hc, hkept⟩ => ⟨c, hc.temp left, hkept⟩)
        (fun d _ => ⟨_, ⟨_, Function.update_self _ _ _, hsaved⟩, hnew⟩) hbefore
    have hsave : saveToDefault forms order toml config = writeAtomicOrExit (toml.toStringPretty entries) := by
      unfold saveToDefault
      rw [hentries]
    rw [saveIf, if_pos rfl, hsave]
    refine Keeps.bind (hwrite.mono (fun _ h => h) ?_)
    rintro (_ | _) d hd ⟨hwritten, hfailed⟩
    · exact ⟨hd, fun m hm => (by cases hm), fun _ => hfailed rfl⟩
    · exact ⟨hd, fun m hm => ⟨(Option.some.inj hm).symm, _, hwritten rfl, hsaved⟩, nofun⟩

/-- **What a start does to the file and comes up with.** -/
theorem start_keeps [DecidableEq T] (mayFail : Op ConfigPath → Prop) (h : HoldsConfig forms toml files c)
    (hkept : Lasts forms c₀ c) (hvalid : c.validate = .ok ()) (order : Iteration String) (fuel : Nat) (keys : Bool)
    {ifaces : Option (List IpAddr)} (hips : ∀ ip ∈ getPublicIps ifaces, forms.ReadsIp ip) :
    (start forms order toml fuel keys ifaces).Keeps mayFail (FileKept forms toml c₀)
      (fun r d => (∀ m, r = some m → m = (probed ifaces c).1 ∧ HoldsConfig forms toml d m.saved) ∧
        (r = none → keys = false ∨ ∃ op, mayFail op)) files := by
  refine Keeps.bind ((fromTomlFile_keeps h hvalid order fuel).mono (fun d hd => ⟨c, hd, hkept⟩) ?_)
  rintro r d hd (rfl | ⟨rfl, hfailed⟩)
  · cases keys with
    | false => exact ⟨⟨c, hd, hkept⟩, fun m hm => (by cases hm), fun _ => .inl rfl⟩
    | true =>
      refine (saveIf_keeps hd hkept ⟨hkept.kept.trans (probed_spec ifaces c).1, probed_reads hkept.reads hips⟩
        (fun hsame => ((probed_spec ifaces c).2.1 hsame).trans h.saved)).mono (fun _ h => h) ?_
      rintro r d hd ⟨hsome, hnone⟩
      refine ⟨fun m hm => ?_, fun hr => .inr (hnone hr)⟩
      obtain ⟨rfl, hsaved⟩ := hsome m hm
      exact ⟨rfl, hsaved⟩
  · exact ⟨⟨c, hd, hkept⟩, fun m hm => (by cases hm), fun _ => .inr hfailed⟩

theorem onIdentify_keeps (mayFail : Op ConfigPath → Prop) (h : HoldsConfig forms toml files config.saved)
    (hkept : Lasts forms c₀ config.saved) (order : Iteration String) (peeked : Option (Option (List PeerId)))
    {listenAddrs : List Multiaddr} {peer : PeerId}
    (haddrs : ∀ addr ∈ Bootstrap.bootstrapAddrsFrom listenAddrs peer, forms.ReadsAddr addr) :
    (onIdentify forms order toml config peeked listenAddrs peer).Keeps mayFail (FileKept forms toml c₀)
      (fun r d => ∀ m, r = some m → HoldsConfig forms toml d m.saved) files := by
  have hadded : Kept config.saved (setBootstrapNodes config (identified config peeked listenAddrs peer)).saved :=
    identified_kept config.saved peeked listenAddrs peer
  have hreads : forms.Reads (setBootstrapNodes config (identified config peeked listenAddrs peer)).saved :=
    ⟨hkept.reads.ipv4, hkept.reads.ipv6, fun addr haddr =>
      (Bootstrap.mem_onIdentify haddr).elim (hkept.reads.nodes addr) (haddrs addr)⟩
  refine (saveIf_keeps h hkept ⟨hkept.kept.trans hadded, hreads⟩ (fun hsame => ?_)).mono (fun _ h => h) ?_
  · have hnodes : identified config peeked listenAddrs peer = config.services.kademlia.bootstrapNodes := by
      simpa using hsame
    rw [hnodes]
    rfl
  · rintro r d hd ⟨hsome, -⟩ m hm
    obtain ⟨rfl, hsaved⟩ := hsome m hm
    exact hsaved

end Keeps

/-! ## The life of a node -/

section Life

variable {T D : Type}

/-- What a start meets. -/
structure Start (T : Type) where
  fates : Nat → Op ConfigPath → Fate T
  order : Iteration String
  fuel : Nat
  keys : Bool
  ifaces : Option (List IpAddr)

/-- Nothing fails in the start. -/
def Start.Works (e : Start T) : Prop := (∀ n op, e.fates n op = .works) ∧ e.keys = true

/-- What an Identify message meets. -/
structure Identified (T : Type) where
  fates : Nat → Op ConfigPath → Fate T
  order : Iteration String
  peeked : Option (Option (List PeerId))
  listenAddrs : List Multiaddr
  peer : PeerId

inductive Event (T : Type) where
  | start (e : Start T)
  | identify (e : Identified T)
  | stop

/-- The addresses that an event brings are read back from their text: the public ones of the interfaces, and those that an
Identify message offers. -/
def Event.Reads (forms : TextForms) : Event T → Prop
  | .start e => ∀ ip ∈ getPublicIps e.ifaces, forms.ReadsIp ip
  | .identify e => ∀ addr ∈ Bootstrap.bootstrapAddrsFrom e.listenAddrs e.peer, forms.ReadsAddr addr
  | .stop => True

/-- The files, and the configuration of the process if there is one. -/
structure World (T : Type) where
  files : Files T
  config : Option NodeConfig

variable [DecidableEq T] (forms : TextForms) (toml : TomlText T D)

/-- The process ends if it dies in the program or exits. -/
def World.after (r : Option (Option NodeConfig) × Files T) : World T := ⟨r.2, r.1.join⟩

def World.step (w : World T) : Event T → Option (World T)
  | .start e =>
    if w.config.isSome then none
    else some (.after (Program.exec e.fates 0 (start forms e.order toml e.fuel e.keys e.ifaces) w.files))
  | .identify e => w.config.map (fun config => .after (Program.exec e.fates 0
      (onIdentify forms e.order toml config e.peeked e.listenAddrs e.peer) w.files))
  | .stop => some { w with config := none }

def life (files : Files T) : Machine (World T) (Event T) where
  init := ⟨files, none⟩
  step := World.step forms toml

variable {forms toml}

/-- **The file holds the configuration of the process**, and that keeps what it began with. -/
def Steady (forms : TextForms) (toml : TomlText T D) (c₀ : NodeConfig) (w : World T) : Prop :=
  ∃ c, HoldsConfig forms toml w.files c ∧ Lasts forms c₀ c ∧ ∀ m, w.config = some m → m.saved = c

omit [DecidableEq T] in
theorem after_config {r : Option (Option NodeConfig) × Files T} {m : NodeConfig} :
    (World.after r).config = some m ↔ r.1 = some (some m) := by
  rw [World.after, Option.join_eq_some_iff]

variable {c₀ : NodeConfig} {w w' : World T}

theorem Steady.step (hvalid : c₀.validate = .ok ()) (h : Steady forms toml c₀ w) {e : Event T} (hreads : e.Reads forms)
    (hstep : w.step forms toml e = some w') : Steady forms toml c₀ w' := by
  obtain ⟨c, hfile, hkept, hconfig⟩ := h
  cases e with
  | start e =>
    obtain ⟨-, hstep⟩ := Option.ite_none_left_eq_some.1 hstep
    cases hstep
    obtain ⟨⟨c', hfile', hkept'⟩, hend⟩ := Program.exec_keeps (fun _ _ _ _ => trivial) _ 0 w.files
      (start_keeps (fun _ => True) hfile hkept (hkept.kept.validate.trans hvalid) e.order e.fuel e.keys hreads)
    refine ⟨c', hfile', hkept', fun m hm => ?_⟩
    exact (((hend _ (after_config.1 hm)).1 m rfl).2).unique hfile'
  | identify e =>
    obtain ⟨config, hrunning, rfl⟩ := Option.map_eq_some_iff.1 hstep
    obtain rfl := hconfig config hrunning
    obtain ⟨⟨c', hfile', hkept'⟩, hend⟩ := Program.exec_keeps (fun _ _ _ _ => trivial) _ 0 w.files
      (onIdentify_keeps (fun _ => True) hfile hkept e.order e.peeked hreads)
    refine ⟨c', hfile', hkept', fun m hm => ?_⟩
    exact (hend _ (after_config.1 hm) m rfl).unique hfile'
  | stop =>
    cases hstep
    exact ⟨c, hfile, hkept, fun m hm => (by cases hm)⟩

/-- A start that comes up has the configuration of the file, with the addresses it has found; one of which nothing fails comes
up. -/
theorem Steady.started (hvalid : c₀.validate = .ok ()) (h : Steady forms toml c₀ w) (hstopped : w.config = none)
    (e : Start T) (hreads : (Event.start e).Reads forms) : ∃ w', w.step forms toml (.start e) = some w' ∧
      (∀ m, w'.config = some m → m.network.ipv4Address = (ipv4Addrs e.ifaces).head? ∧
        m.network.ipv6Address = (ipv6Addrs e.ifaces).head?) ∧ (e.Works → w'.config ≠ none) := by
  obtain ⟨c, hfile, hkept, -⟩ := h
  have hkeeps := fun mayFail => start_keeps mayFail hfile hkept (hkept.kept.validate.trans hvalid) e.order e.fuel e.keys hreads
  refine ⟨_, by rw [World.step, hstopped]; rfl, fun m hm => ?_, fun hworks => ?_⟩
  · obtain ⟨-, hend⟩ := Program.exec_keeps (fun _ _ _ _ => trivial) _ 0 w.files (hkeeps (fun _ => True))
    rw [((hend _ (after_config.1 hm)).1 m rfl).1]
    exact (probed_spec e.ifaces c).2.2.1
  · have hfails : ∀ n op left, e.fates n op = .fails left → False := fun n op left h => by
      cases (hworks.1 n op).symm.trans h
    have hlives : ∀ n op left, e.fates n op ≠ .dies left := fun n op left h => by
      cases (hworks.1 n op).symm.trans h
    obtain ⟨-, hend⟩ := Program.exec_keeps hfails _ 0 w.files (hkeeps (fun _ => False))
    obtain ⟨r, hr⟩ := Option.isSome_iff_exists.1
      (Program.exec_isSome hlives (start forms e.order toml e.fuel e.keys e.ifaces) 0 w.files)
    cases r with
    | none =>
      rcases (hend _ hr).2 rfl with hkeys | ⟨-, hmay⟩
      · rw [hworks.2] at hkeys
        cases hkeys
      · exact hmay.elim
    | some m => exact fun hnone => Option.some_ne_none m ((after_config.2 hr).symm.trans hnone)

end Life

/-! Text forms: numbers with dots between them, and components with slashes. -/

/-- The words between the marks. -/
def wordsBetween (mark : Char) : List Char → List (List Char)
  | [] => [[]]
  | c :: rest =>
    match wordsBetween mark rest with
    | [] => []
    | word :: words => if c = mark then [] :: word :: words else (c :: word) :: words

def dotted (numbers : List Nat) : String := ".".intercalate (numbers.map toString)

def undotted (text : String) : List Nat :=
  (wordsBetween '.' text.toList).map (fun digits => digits.foldl (fun n c => 10 * n + (c.toNat - 48)) 0)

def displayIp : IpAddr → String
  | .v4 addr => dotted ((List.range 4).map (fun i => (octet4 addr i).toNat))
  | .v6 addr => dotted ((List.range 16).map (fun i => (octet6 addr i).toNat))

def parseIp (text : String) : Option IpAddr :=
  let number := (undotted text).foldl (fun n byte => 256 * n + byte) 0
  match (undotted text).length with
  | 4 => some (.v4 (.ofNat number))
  | 16 => some (.v6 (.ofNat 128 number))
  | _ => none

instance (forms : TextForms) (ip : IpAddr) : Decidable (forms.ReadsIp ip) := inferInstanceAs (Decidable (_ = _))

instance (forms : TextForms) (addr : Multiaddr) : Decidable (forms.ReadsAddr addr) := inferInstanceAs (Decidable (_ = _))

end Life
end ConfigFile
end NexusNet
