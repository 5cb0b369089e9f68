import NexusNet.ConfigFile
/-!
# ConfigSaved — a saved configuration is read back

`save_to_file` writes the whole configuration.  What is written for a value is read back as that value, except for what is
not written at all: `ReadsBack` says so for one value and for the fields of a structure, and is put together as the schemas
are.  For the configuration only `has_public_address` is lost (`fromStr_saved`).
-/
namespace NexusNet
namespace ConfigFile

open TomlTree

/-! ## Schemas -/

section Schemas

variable {α σ τ : Type}

/-- What is written for `x` is read back as `y`. -/
def Schema.ReadsBack (S : Schema α) (x y : α) : Prop := ∀ item, S.write x = .item item → S.read item.data = some y

def Fields.ReadsBack (F : Fields σ) (x y : σ) : Prop := ∀ src, F.write x = some src → F.read (entriesData src) = some y

theorem Fields.ReadsBack.congr {F : Fields σ} {x y z : σ} (h : F.ReadsBack x y) (heq : y = z) : F.ReadsBack x z := heq ▸ h

theorem Scalar.readsBack {S : Scalar α} {x : α} (h : ∀ v, S.write x = some v → S.read v = some x) :
    S.schema.ReadsBack x x := by
  intro item hitem
  obtain ⟨v, hv, rfl⟩ := Option.map_eq_some_iff.1 (Written.ofOption_eq_item.1 hitem)
  exact h v hv

theorem boolean_readsBack (b : Bool) : boolean.schema.ReadsBack b b := Scalar.readsBack fun v h => by
  cases h
  rfl

theorem string_readsBack (text : String) : string.schema.ReadsBack text text := Scalar.readsBack fun v h => by
  cases h
  rfl

theorem text_read_write {parse : String → Option α} {display : α → String} {x : α} (h : parse (display x) = some x)
    (v : Data) (hv : (text parse display).write x = some v) : (text parse display).read v = some x := by
  cases hv
  exact h

theorem unsigned_readsBack {w : Nat} (x : BitVec w) : (unsigned w).schema.ReadsBack x x := by
  intro item hitem
  obtain ⟨v, hv, -⟩ := Option.map_eq_some_iff.1 (Written.ofOption_eq_item.1 hitem)
  have hlt : x.toNat < 2 ^ 63 := by
    by_contra hlarge
    have hnone : writeUnsigned x = none := if_neg hlarge
    cases hnone.symm.trans hv
  rcases unsigned_restores hlt with hnone | ⟨item', hitem', hread⟩
  · cases hnone.symm.trans hitem
  · cases hitem'.symm.trans hitem
    exact hread

theorem mapM_read_write {β γ : Type} {f : β → Option γ} {g : γ → Option β} {l : List β} {ys : List γ}
    (h : ∀ x ∈ l, ∀ y, f x = some y → g y = some x) (hys : l.mapM f = some ys) : ys.mapM g = some l := by
  have hall := forall₂_of_mapM hys
  clear hys
  induction hall with
  | nil => rfl
  | cons hx _ ih =>
    rw [List.mapM_cons, h _ List.mem_cons_self _ hx, ih (fun x hmem => h x (List.mem_cons_of_mem _ hmem))]
    rfl

theorem Scalar.vec_readsBack {S : Scalar α} {xs : List α} (h : ∀ x ∈ xs, ∀ v, S.write x = some v → S.read v = some x) :
    S.vec.schema.ReadsBack xs xs := by
  refine Scalar.readsBack fun v hv => ?_
  obtain ⟨vs, hvs, rfl⟩ := Option.map_eq_some_iff.1 hv
  exact mapM_read_write h hvs

theorem Schema.optional_readsBack {S : Schema α} {x : Option α} (h : ∀ v ∈ x, S.ReadsBack v v) :
    S.optional.ReadsBack x x := by
  intro item hitem
  cases x with
  | none => cases hitem
  | some v => exact congrArg (Option.map some) (h v rfl item hitem)

/-- A field is read back if its value is, and if it is missing only where it has its default. -/
theorem Fields.field_readsBack {F : Fields α} {name : String} {S : Schema α} {default : Option α} {x y : α}
    (hread : F.read = readField name S default) (hwrite : F.write = writeField name S) (h : S.ReadsBack x y)
    (hnone : S.write x = .unsupportedNone → default = some y) : F.ReadsBack x y := by
  intro src hsrc
  rw [hwrite] at hsrc
  rw [hread]
  rcases writeField_eq_some hsrc with ⟨rfl, hw⟩ | ⟨item, rfl, hw⟩
  · exact hnone hw
  · have hlookup : (entriesData [(name, item)]).lookup name = some item.data := by
      rw [lookup_entriesData, lookup_cons_ite, if_pos rfl, Option.map_some]
    rw [readField, hlookup]
    exact h item hw

theorem Fields.skipped_readsBack (default x : α) : (Fields.skipped default).ReadsBack x default := fun _ _ => rfl

theorem Fields.ReadsBack.and {F : Fields σ} {G : Fields τ} {hnames : F.disjointNames G = true} {x : σ × τ} {y : σ} {z : τ}
    (hF : F.ReadsBack x.1 y) (hG : G.ReadsBack x.2 z) : (F.and G hnames).ReadsBack x (y, z) := by
  intro src hsrc
  obtain ⟨a, ha, hrest⟩ := Option.bind_eq_some_iff.1 hsrc
  obtain ⟨b, hb, rfl⟩ := Option.map_eq_some_iff.1 hrest
  refine pair_eq_some.2 ⟨?_, ?_⟩
  · rw [F.read_congr (fun name hname =>
      lookup_append_left (fun hmem => not_mem_of_disjointNames hnames hname (G.write_names hb name hmem)))]
    exact hF a ha
  · rw [G.read_congr (fun name hname =>
      lookup_append_right (fun hmem => not_mem_of_disjointNames hnames (F.write_names ha name hmem) hname))]
    exact hG b hb

theorem Fields.ReadsBack.pack {F : Fields σ} {mk : σ → τ} {fields : τ → σ} {hmk : ∀ x, fields (mk x) = x} {x : τ} {y : σ}
    (h : F.ReadsBack (fields x) y) : (F.pack mk fields hmk).ReadsBack x (mk y) := fun src hsrc =>
  congrArg (Option.map mk) (h src hsrc)

theorem Fields.table_readsBack {F : Fields σ} {x y : σ} (h : F.ReadsBack x y) : F.table.ReadsBack x y := by
  intro item hitem
  obtain ⟨src, hsrc, rfl⟩ := Option.map_eq_some_iff.1 (Written.ofOption_eq_item.1 hitem)
  exact h src hsrc

theorem tablesItem_data (tables : List Entries) : (tablesItem tables).data = .seq (tables.map (fun t => .map (entriesData t))) := by
  cases tables with
  | nil => rfl
  | cons t rest =>
    change (Item.arrayOfTables ((t :: rest).map (((), ·)))).data = _
    rw [Item.data, tablesData_eq, List.map_map]
    rfl

theorem Fields.tables_readsBack {F : Fields σ} (h : ∀ x, F.ReadsBack x x) (xs : List σ) : F.tables.ReadsBack xs xs := by
  intro item hitem
  obtain ⟨tables, htables, rfl⟩ := Option.map_eq_some_iff.1 (Written.ofOption_eq_item.1 hitem)
  rw [tablesItem_data]
  have hread : (tables.map (fun t => Data.map (entriesData t))).mapM F.table.read = some xs := by
    rw [List.mapM_map]
    exact mapM_read_write (fun x _ src hsrc => h x src hsrc) htables
  exact hread

/-- A map is read back key by key. -/
theorem Fields.mapOf_readsBack {F : Fields σ} (h : ∀ x, F.ReadsBack x x) (order : Iteration String) (m : Dict String σ) :
    (F.mapOf order).ReadsBack m m := by
  intro item hitem
  obtain ⟨src, hsrc, rfl⟩ := Option.map_eq_some_iff.1 (Written.ofOption_eq_item.1 hitem)
  have hread : readMap F ∅ (entriesData src) = some m := by
    rw [readMap_eq_some_iff (by rw [keys_entriesData]; exact (keyed_writeMap hsrc).nodup)]
    intro key
    rw [lookup_entriesData]
    cases hs : src.lookup key with
    | none =>
      have hnot : key ∉ order.list m.keys := by
        rw [← keys_writeMap hsrc]
        exact lookup_eq_none_iff_keys.1 hs
      have hm : m.lookup key = none := by
        rw [Finmap.lookup_eq_none, ← Finmap.mem_keys]
        exact fun hmem => hnot (order.mem_list.2 hmem)
      rw [hm]
      rfl
    | some item =>
      obtain ⟨v, hv, hitem⟩ := mem_writeMap hsrc (mem_of_lookup hs)
      rw [hv, Option.map_some, Option.map_some, Option.map_some, Option.some_or, Fields.table_readsBack (h v) item hitem]
  exact hread

end Schemas

/-! ## The configuration -/

/-- The text form of an address is read back. -/
def TextForms.ReadsIp (forms : TextForms) (ip : IpAddr) : Prop := forms.parseIp (forms.displayIp ip) = some ip

def TextForms.ReadsAddr (forms : TextForms) (addr : Multiaddr) : Prop :=
  forms.parseMultiaddr (forms.displayMultiaddr addr) = some addr

/-- The text forms of the addresses of a configuration are read back. -/
structure TextForms.Reads (forms : TextForms) (c : NodeConfig) : Prop where
  ipv4 : ∀ ip ∈ c.network.ipv4Address, forms.ReadsIp ip
  ipv6 : ∀ ip ∈ c.network.ipv6Address, forms.ReadsIp ip
  nodes : ∀ addr ∈ c.services.kademlia.bootstrapNodes, forms.ReadsAddr addr

section Sections

variable {forms : TextForms}

theorem Scalar.schema_item {α : Type} {S : Scalar α} (x : α) : S.schema.write x ≠ .unsupportedNone := by
  change Written.ofOption _ ≠ _
  cases (S.write x).map (Item.value ()) <;> simp [Written.ofOption]

theorem flag_readsBack (name : String) (b x : Bool) : (flag name b).ReadsBack x x :=
  Fields.field_readsBack rfl rfl (boolean_readsBack x) fun h => absurd h (Scalar.schema_item x)

theorem line_readsBack (name text x : String) : (line name text).ReadsBack x x :=
  Fields.field_readsBack rfl rfl (string_readsBack x) fun h => absurd h (Scalar.schema_item x)

theorem number_readsBack {w : Nat} (name : String) (n : BitVec w) (h : n.toNat < 2 ^ 63) (x : BitVec w) :
    (number name n h).ReadsBack x x :=
  Fields.field_readsBack rfl rfl (unsigned_readsBack x) fun h => absurd h (Scalar.schema_item x)

theorem addressField_readsBack (name : String) {x : Option IpAddr} (h : ∀ ip ∈ x, forms.ReadsIp ip) :
    (addressField forms name).ReadsBack x x := by
  refine Fields.field_readsBack rfl rfl
    (Schema.optional_readsBack (fun ip hip => Scalar.readsBack (text_read_write (h ip hip)))) ?_
  cases x with
  | none => exact fun _ => rfl
  | some ip =>
    intro hnone
    have hip : (text forms.parseIp forms.displayIp).schema.write ip = .unsupportedNone := hnone
    exact absurd hip (Scalar.schema_item ip)

theorem Fields.table_item {σ : Type} {F : Fields σ} (x : σ) : F.table.write x ≠ .unsupportedNone := by
  change Written.ofOption _ ≠ _
  cases (F.write x).map (Item.table ()) <;> simp [Written.ofOption]

theorem part_readsBack {σ : Type} {name : String} {F : Fields σ} {d x y : σ} {h : F.read [] = some d}
    (hF : F.ReadsBack x y) : (part name F d h).ReadsBack x y :=
  Fields.field_readsBack rfl rfl (Fields.table_readsBack hF) fun h => absurd h (Fields.table_item x)

theorem nodeInfo_readsBack (c : NodeInfo) : nodeInfo.ReadsBack c c :=
  (Fields.ReadsBack.pack <| .and (.and (.and (line_readsBack _ _ _)
    (line_readsBack _ _ _)) (flag_readsBack _ _ _)) (flag_readsBack _ _ _)).congr rfl

/-- `has_public_address` is not written. -/
def NetworkConfig.saved (c : NetworkConfig) : NetworkConfig := { c with hasPublicAddress := false }

theorem networkConfig_readsBack {c : NetworkConfig} (hipv4 : ∀ ip ∈ c.ipv4Address, forms.ReadsIp ip)
    (hipv6 : ∀ ip ∈ c.ipv6Address, forms.ReadsIp ip) : (networkConfig forms).ReadsBack c c.saved :=
  (Fields.ReadsBack.pack <| .and (.and (.and (.and
    (.and (flag_readsBack _ _ _) (addressField_readsBack _ hipv4)) (flag_readsBack _ _ _))
    (addressField_readsBack _ hipv6)) (number_readsBack _ _ _ _)) (Fields.skipped_readsBack false _)).congr rfl

theorem pingService_readsBack (c : PingService) : pingService.ReadsBack c c :=
  (Fields.ReadsBack.pack <| .and (.and (.and (flag_readsBack _ _ _)
    (number_readsBack _ _ _ _)) (number_readsBack _ _ _ _)) (number_readsBack _ _ _ _)).congr rfl

theorem kademliaService_readsBack {c : KademliaService} (hnodes : ∀ addr ∈ c.bootstrapNodes, forms.ReadsAddr addr) :
    (kademliaService forms).ReadsBack c c := by
  have hfield : (Fields.field "bootstrap_nodes" (text forms.parseMultiaddr forms.displayMultiaddr).vec.schema (some [])
      (fun hx => by cases hx; exact Scalar.vec_restores_nil _)).ReadsBack c.bootstrapNodes c.bootstrapNodes :=
    Fields.field_readsBack rfl rfl (Scalar.vec_readsBack (fun addr haddr => text_read_write (hnodes addr haddr)))
      fun h => absurd h (Scalar.schema_item _)
  exact (Fields.ReadsBack.pack <| .and (.and (.and (.and
    (flag_readsBack _ _ _) (number_readsBack _ _ _ _)) (number_readsBack _ _ _ _)) (number_readsBack _ _ _ _)) hfield).congr
      rfl

theorem localServiceEntry_readsBack (c : LocalServiceEntry) : localServiceEntry.ReadsBack c c := by
  have hname : (required "name" string.schema).ReadsBack c.name c.name :=
    Fields.field_readsBack rfl rfl (string_readsBack _) fun h => absurd h (Scalar.schema_item _)
  have hport : (required "port" (unsigned 16).schema).ReadsBack c.port c.port :=
    Fields.field_readsBack rfl rfl (unsigned_readsBack _) fun h => absurd h (Scalar.schema_item _)
  exact (Fields.ReadsBack.pack <| .and (.and hname hport) (flag_readsBack _ _ _)).congr rfl

theorem dispatcherConfig_readsBack (c : DispatcherConfig) : dispatcherConfig.ReadsBack c c := by
  have hservices : (Fields.field "local_services" localServiceEntry.tables (some [])
      (fun hx => by cases hx; exact Fields.tables_restores_nil _)).ReadsBack c.localServices c.localServices := by
    refine Fields.field_readsBack rfl rfl (Fields.tables_readsBack localServiceEntry_readsBack _) fun h => ?_
    change Written.ofOption _ = _ at h
    cases hxs : (c.localServices.mapM localServiceEntry.write).map tablesItem <;> simp [hxs, Written.ofOption] at h
  exact (Fields.ReadsBack.pack <| .and (.and (.and (.and
    (.and (.and (flag_readsBack _ _ _) (number_readsBack _ _ _ _)) (number_readsBack _ _ _ _))
    (number_readsBack _ _ _ _)) (number_readsBack _ _ _ _)) (number_readsBack _ _ _ _)) hservices).congr rfl

theorem servicesConfig_readsBack {c : ServicesConfig} (hnodes : ∀ addr ∈ c.kademlia.bootstrapNodes, forms.ReadsAddr addr) :
    (servicesConfig forms).ReadsBack c c := by
  have hregistry : registryService.ReadsBack c.registry c.registry :=
    (Fields.ReadsBack.pack (number_readsBack _ _ _ _)).congr rfl
  have hrelay : relayService.ReadsBack c.relay c.relay :=
    (Fields.ReadsBack.pack <| .and (number_readsBack _ _ _ _) (number_readsBack _ _ _ _)).congr rfl
  exact (Fields.ReadsBack.pack <| .and (.and (.and (.and
    (part_readsBack (pingService_readsBack c.ping)) (part_readsBack (kademliaService_readsBack hnodes)))
    (part_readsBack (dispatcherConfig_readsBack c.dispatcher))) (part_readsBack hregistry)) (part_readsBack hrelay)).congr rfl

theorem authConfig_readsBack (order : Iteration String) (c : AuthConfig) : (authConfig order).ReadsBack c c := by
  have hnetwork : ∀ n, authNetworkConfig.ReadsBack n n := fun n =>
    (Fields.ReadsBack.pack (line_readsBack _ _ _)).congr rfl
  have hnetworks : (Fields.field "networks" (authNetworkConfig.mapOf order) (some ∅)
      (fun hx => by cases hx; exact Fields.mapOf_restores_empty _ order)).ReadsBack c.networks c.networks := by
    refine Fields.field_readsBack rfl rfl (Fields.mapOf_readsBack hnetwork order _) fun h => ?_
    change Written.ofOption _ = _ at h
    cases hm : (writeMap authNetworkConfig order c.networks).map (Item.table ()) <;> simp [hm, Written.ofOption] at h
  exact (Fields.ReadsBack.pack <| .and (line_readsBack _ _ _) hnetworks).congr rfl

def NodeConfig.saved (c : NodeConfig) : NodeConfig := { c with network := c.network.saved }

theorem nodeConfig_readsBack {c : NodeConfig} (hforms : forms.Reads c) (order : Iteration String) :
    (nodeConfig forms order).ReadsBack c c.saved := by
  have hcrypto : cryptoConfig.ReadsBack c.crypto c.crypto :=
    (Fields.ReadsBack.pack <| .and (.and (flag_readsBack _ _ _) (flag_readsBack _ _ _)) (flag_readsBack _ _ _)).congr rfl
  have hcompat : compatConfig.ReadsBack c.compat c.compat := (Fields.ReadsBack.pack (number_readsBack _ _ _ _)).congr rfl
  exact (Fields.ReadsBack.pack <| .and (.and (.and (.and
    (.and (part_readsBack (nodeInfo_readsBack c.node)) (part_readsBack (networkConfig_readsBack hforms.ipv4 hforms.ipv6)))
    (part_readsBack (servicesConfig_readsBack hforms.nodes))) (part_readsBack hcrypto))
    (part_readsBack (authConfig_readsBack order c.auth))) (part_readsBack hcompat)).congr rfl

end Sections

/-! ## What is not in the file -/

section Unsaved

variable {forms : TextForms}

theorem networkConfig_table_saved {d : TomlTree.Data} {n : NetworkConfig} (h : (networkConfig forms).table.read d = some n) :
    n.saved = n := by
  -- the last field is skipped, however the others are read
  have hfields : ∀ es, (networkConfig forms).read es = some n → n.saved = n := by
    intro es hread
    obtain ⟨x, hx, rfl⟩ := Option.map_eq_some_iff.1 hread
    obtain ⟨-, hskipped⟩ := Fields.pair_eq_some.1 hx
    have hflag : x.2 = false := (Option.some.inj hskipped).symm
    rw [NetworkConfig.saved, ← hflag]
  cases d with
  | seq items =>
    obtain ⟨r, hr, rfl⟩ := Option.map_eq_some_iff.1 h
    obtain ⟨r', hr', rfl⟩ := Option.map_eq_some_iff.1 hr
    obtain ⟨a, -, ha⟩ := Option.bind_eq_some_iff.1 hr'
    obtain ⟨b, hb, rfl⟩ := Option.map_eq_some_iff.1 ha
    cases hb
    rfl
  | map entries => exact hfields entries h
  | datetime text => exact hfields [("$__toml_private_datetime", .str text)] h
  | _ => cases h

theorem saved_of_readConfig {D : Type} {order : Iteration String} {doc : TomlTree.Document D} {c : NodeConfig}
    (h : readConfig forms order doc = some c) : c.saved = c := by
  have hread : (nodeConfig forms order).read (TomlTree.entriesData doc.entries) = some c := h
  obtain ⟨x, hx, rfl⟩ := Option.map_eq_some_iff.1 hread
  have hnetwork := (Fields.pair_eq_some.1 (Fields.pair_eq_some.1 (Fields.pair_eq_some.1 (Fields.pair_eq_some.1
    (Fields.pair_eq_some.1 hx).1).1).1).1).2
  have hsaved : x.1.1.1.1.2.saved = x.1.1.1.1.2 := by
    change Fields.readField "network" (networkConfig forms).table (some .default) _ = _ at hnetwork
    rw [Fields.readField] at hnetwork
    split at hnetwork
    · exact networkConfig_table_saved hnetwork
    · rw [← Option.some.inj hnetwork]
      rfl
  change ({ node := _, network := x.1.1.1.1.2.saved, services := _, crypto := _, auth := _, compat := _ } : NodeConfig) = _
  rw [hsaved]

end Unsaved

/-- **A saved configuration is read back**, whatever the order its maps were written in. -/
theorem fromStr_saved {T D : Type} {forms : TextForms} {c : NodeConfig} (hforms : forms.Reads c) (toml : TomlText T D)
    (order order' : Iteration String) {entries : Entries}
    (h : (nodeConfig forms order).write c = some entries) :
    fromStr forms order' toml (toml.toStringPretty entries) = some c.saved := by
  obtain ⟨doc, hdoc, hbare⟩ := toml.parse_pretty ((nodeConfig forms order).keyed h)
  rw [fromStr, hdoc, Option.bind_some, readConfig, ← Item.data_bare, hbare]
  exact nodeConfig_readsBack hforms order entries h

/-! ## What can be written -/

section Writes

variable {α σ τ : Type}

/-- The value can be written: no integer is too large. -/
def Fields.Writes (F : Fields σ) (x : σ) : Prop := ∃ src, F.write x = some src

theorem Fields.and_writes {F : Fields σ} {G : Fields τ} {hnames : F.disjointNames G = true} {x : σ × τ} :
    (F.and G hnames).Writes x ↔ F.Writes x.1 ∧ G.Writes x.2 := by
  constructor
  · rintro ⟨src, hsrc⟩
    obtain ⟨a, ha, hrest⟩ := Option.bind_eq_some_iff.1 hsrc
    obtain ⟨b, hb, -⟩ := Option.map_eq_some_iff.1 hrest
    exact ⟨⟨a, ha⟩, b, hb⟩
  · rintro ⟨⟨a, ha⟩, b, hb⟩
    refine ⟨a ++ b, Option.bind_eq_some_iff.2 ⟨a, ha, ?_⟩⟩
    rw [hb]
    rfl

theorem Fields.pack_writes {F : Fields σ} {mk : σ → τ} {fields : τ → σ} {hmk : ∀ x, fields (mk x) = x} {x : τ} :
    (F.pack mk fields hmk).Writes x ↔ F.Writes (fields x) := Iff.rfl

theorem Fields.field_writes {F : Fields α} {name : String} {S : Schema α} {x : α} (hwrite : F.write = writeField name S) :
    F.Writes x ↔ S.write x ≠ .outOfRange := by
  constructor
  · rintro ⟨src, hsrc⟩ hout
    rw [hwrite, writeField, hout] at hsrc
    cases hsrc
  · intro h
    obtain ⟨src, hsrc⟩ := exists_writeField name h
    exact ⟨src, by rw [hwrite, hsrc]⟩

theorem part_writes {name : String} {F : Fields σ} {d x : σ} {h : F.read [] = some d} :
    (part name F d h).Writes x ↔ F.Writes x := by
  refine (Fields.field_writes rfl).trans ?_
  change Written.ofOption _ ≠ _ ↔ _
  rw [Written.ofOption_ne_outOfRange]
  constructor
  · rintro ⟨item, hitem⟩
    obtain ⟨src, hsrc, -⟩ := Option.map_eq_some_iff.1 hitem
    exact ⟨src, hsrc⟩
  · rintro ⟨src, hsrc⟩
    exact ⟨.table () src, by rw [hsrc]; rfl⟩

theorem Scalar.not_outOfRange {S : Scalar α} {x : α} {v : TomlTree.Data} (h : S.write x = some v) :
    S.schema.write x ≠ .outOfRange :=
  Written.ofOption_ne_outOfRange.2 ⟨.value () v, by rw [h]; rfl⟩

theorem flag_writes (name : String) (b x : Bool) : (flag name b).Writes x :=
  (Fields.field_writes rfl).2 (Scalar.not_outOfRange (S := boolean) rfl)

theorem number_writes {w : Nat} (hw : w < 64) (name : String) (n : BitVec w) (h : n.toNat < 2 ^ 63) (x : BitVec w) :
    (number name n h).Writes x := by
  have hlt : x.toNat < 2 ^ 63 := lt_of_lt_of_le x.isLt (Nat.pow_le_pow_right (by decide) (by omega))
  exact (Fields.field_writes rfl).2 (Scalar.not_outOfRange (if_pos hlt))

theorem addressField_writes (forms : TextForms) (name : String) (x : Option IpAddr) : (addressField forms name).Writes x := by
  refine (Fields.field_writes rfl).2 ?_
  cases x with
  | none => exact Written.noConfusion
  | some ip => exact Scalar.not_outOfRange (S := text forms.parseIp forms.displayIp) rfl

theorem networkConfig_writes (forms : TextForms) (c : NetworkConfig) : (networkConfig forms).Writes c :=
  Fields.pack_writes.2 <| Fields.and_writes.2 ⟨Fields.and_writes.2 ⟨Fields.and_writes.2 ⟨Fields.and_writes.2
    ⟨Fields.and_writes.2 ⟨flag_writes _ _ _, addressField_writes _ _ _⟩, flag_writes _ _ _⟩, addressField_writes _ _ _⟩,
    number_writes (by decide) _ _ _ _⟩, [], rfl⟩

theorem kademliaService_writes (forms : TextForms) (c : KademliaService) : (kademliaService forms).Writes c := by
  have hnodes : ∃ vs, c.bootstrapNodes.mapM (text forms.parseMultiaddr forms.displayMultiaddr).write = some vs :=
    exists_mapM fun addr _ => ⟨_, rfl⟩
  obtain ⟨vs, hvs⟩ := hnodes
  refine Fields.pack_writes.2 <| Fields.and_writes.2 ⟨Fields.and_writes.2 ⟨Fields.and_writes.2 ⟨Fields.and_writes.2
    ⟨flag_writes _ _ _, number_writes (by decide) _ _ _ _⟩, number_writes (by decide) _ _ _ _⟩, number_writes (by decide) _ _ _ _⟩,
    (Fields.field_writes rfl).2 (Scalar.not_outOfRange (v := .seq vs) ?_)⟩
  exact Option.map_eq_some_iff.2 ⟨vs, hvs, rfl⟩

theorem line_writes (name text x : String) : (line name text).Writes x :=
  (Fields.field_writes rfl).2 (Scalar.not_outOfRange (S := string) rfl)

theorem authConfig_writes (order : Iteration String) (c : AuthConfig) : (authConfig order).Writes c := by
  obtain ⟨src, hsrc⟩ := exists_writeMap (F := authNetworkConfig) (m := c.networks) order
    fun key v _ => Fields.pack_writes.2 (line_writes _ _ _)
  refine Fields.pack_writes.2 <| Fields.and_writes.2 ⟨line_writes _ _ _, (Fields.field_writes rfl).2 ?_⟩
  exact Written.ofOption_ne_outOfRange.2 ⟨.table () src, Option.map_eq_some_iff.2 ⟨src, hsrc, rfl⟩⟩

theorem servicesConfig_writes {forms : TextForms} {c : ServicesConfig} : (servicesConfig forms).Writes c ↔
    (((pingService.Writes c.ping ∧ (kademliaService forms).Writes c.kademlia) ∧ dispatcherConfig.Writes c.dispatcher) ∧
      registryService.Writes c.registry) ∧ relayService.Writes c.relay :=
  Fields.pack_writes.trans <| Fields.and_writes.trans (and_congr (Fields.and_writes.trans (and_congr (Fields.and_writes.trans
    (and_congr (Fields.and_writes.trans (and_congr part_writes part_writes)) part_writes)) part_writes)) part_writes)

theorem nodeConfig_writes {forms : TextForms} {order : Iteration String} {c : NodeConfig} : (nodeConfig forms order).Writes c ↔
    ((((nodeInfo.Writes c.node ∧ (networkConfig forms).Writes c.network) ∧ (servicesConfig forms).Writes c.services) ∧
      cryptoConfig.Writes c.crypto) ∧ (authConfig order).Writes c.auth) ∧ compatConfig.Writes c.compat :=
  Fields.pack_writes.trans <| Fields.and_writes.trans (and_congr (Fields.and_writes.trans (and_congr (Fields.and_writes.trans
    (and_congr (Fields.and_writes.trans (and_congr (Fields.and_writes.trans (and_congr part_writes part_writes)) part_writes))
    part_writes)) part_writes)) part_writes)

end Writes

end ConfigFile
end NexusNet
