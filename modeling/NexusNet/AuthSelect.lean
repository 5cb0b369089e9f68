import NexusNet.AuthSound
import NexusNet.Newest
/-!
# AuthSelect — which record a fetch selects

`select_index` and `select_whitelist` go once over the records and keep the newest document that verifies.  A record is
compared with the document kept so far and with no other, so two documents of one version that disagree are noticed only
while nothing newer has come.  The documents a selection depends on are those of `verified`; `index_order_iff` says for
which records their order does not matter, and `newest_selected` what is selected.
-/
namespace NexusNet
namespace Auth

/-- The document a selection ends with, without its size. -/
def selectedDoc {D : Type} (selected : Except String (Option (D × Nat))) : Except String (Option D) :=
  selected.map (Option.map Prod.fst)

/-- The documents of the records that verify. -/
def verified {D : Type} (verify : Bytes → Except AuthError D) (records : List Bytes) : List D :=
  records.filterMap (fun record => (verify record).toOption)

/-- **The loop is the one-pass choice of the newest verified document.** -/
theorem selectNewest_eq_scan {D : Type} [DecidableEq D] (verify : Bytes → Except AuthError D) (version : D → UInt64)
    (conflict : String) : ∀ (records : List Bytes) (best : Option (D × Nat)),
    selectedDoc (selectNewest verify version conflict best records) =
      ((Newest.scan (fun doc => (version doc).toNat) (best.map Prod.fst) (verified verify records)).elim
        (.error conflict) .ok)
  | [], best => by cases best <;> rfl
  | record :: rest, best => by
    have ih := selectNewest_eq_scan verify version conflict rest
    unfold verified at ih ⊢
    unfold selectNewest
    cases hv : verify record with
    | error e => rw [List.filterMap_cons_none (by rw [hv]; rfl)]; exact ih best
    | ok doc =>
      rw [List.filterMap_cons_some (b := doc) (by rw [hv]; rfl)]
      cases best with
      | none => exact ih (some (doc, record.length))
      | some best =>
        obtain ⟨current, size⟩ := best
        have heq : version doc = version current ↔ (version doc).toNat = (version current).toNat :=
          UInt64.toNat_inj.symm
        simp only [Option.map_some, Newest.scan, GT.gt, UInt64.lt_iff_toNat_lt, heq]
        split
        · exact ih (some (doc, record.length))
        split
        · rfl
        · exact ih (some (current, size))

/-- Two different documents of one version are among the records. -/
def Conflicting (P : Primitives) (net : AuthNetwork) (now : UInt64) (records : List Bytes) : Prop :=
  ∃ a ∈ verified (fun r => verifyIndex P net r now) records, ∃ b ∈ verified (fun r => verifyIndex P net r now) records,
    a ≠ b ∧ a.version = b.version

/-- Two different documents of the highest version are among the records. -/
def NewestConflicting (P : Primitives) (net : AuthNetwork) (now : UInt64) (records : List Bytes) : Prop :=
  ∃ a ∈ verified (fun r => verifyIndex P net r now) records, ∃ b ∈ verified (fun r => verifyIndex P net r now) records,
    a ≠ b ∧ a.version = b.version ∧ ∀ c ∈ verified (fun r => verifyIndex P net r now) records, c.version ≤ a.version

/-- **The order of the replies does not matter exactly when a conflict comes with one of the highest version.** -/
theorem index_order_iff (P : Primitives) (net : AuthNetwork) (now : UInt64) (records : List Bytes) :
    (∀ records', records.Perm records' →
      selectedDoc (selectIndex P records' net now) = selectedDoc (selectIndex P records net now)) ↔
    (Conflicting P net now records → NewestConflicting P net now records) := by
  have hscan : ∀ l, selectedDoc (selectIndex P l net now) =
      (Newest.scan (fun doc : IndexDoc => doc.version.toNat) none
        (verified (fun r => verifyIndex P net r now) l)).elim
          (.error "conflicting auth index content for the same version") .ok :=
    fun l => selectNewest_eq_scan _ _ _ l none
  -- the two outcomes of a pass stay apart in the result
  have hinj : ∀ (e : String) (x y : Option (Option IndexDoc)), (x.elim (.error e) .ok : Except String (Option IndexDoc)) =
      y.elim (.error e) .ok ↔ x = y := by
    rintro e (_ | x) (_ | y) <;> simp
  have hclash : ∀ l, Newest.Clash (fun doc : IndexDoc => doc.version.toNat) l ↔
      ∃ a ∈ l, ∃ b ∈ l, a ≠ b ∧ a.version = b.version := fun l => by simp only [Newest.Clash, UInt64.toNat_inj]
  have htop : ∀ l, Newest.TopClash (fun doc : IndexDoc => doc.version.toNat) l ↔
      ∃ a ∈ l, ∃ b ∈ l, a ≠ b ∧ a.version = b.version ∧ ∀ c ∈ l, c.version ≤ a.version := fun l => by
    simp only [Newest.TopClash, UInt64.toNat_inj, UInt64.le_iff_toNat_le]
  simp only [hscan, hinj, Conflicting, NewestConflicting, ← hclash, ← htop]
  exact Newest.scan_perm_iff _ _ records

/-- Index documents whose first payload byte gives the version, in tens. -/
def versionedPrimitives : Primitives :=
  { labPrimitives with decodeIndex := fun payload => payload.head?.map (fun n => ⟨(n / 10).toUInt64, 100 + n.toUInt64, []⟩) }

def versionedIndex (payload : UInt8) : Bytes := labRecord payload "/oahd/auth/lab/service"

/-- **The same three records, in two orders**: a conflict of version 1 before the document of version 2 is an error, after
it version 2 is selected. -/
theorem order_decides :
    [versionedIndex 10, versionedIndex 11, versionedIndex 20].Perm
      [versionedIndex 20, versionedIndex 10, versionedIndex 11] ∧
    selectedDoc (selectIndex versionedPrimitives [versionedIndex 10, versionedIndex 11, versionedIndex 20] labNetwork 50) =
      .error "conflicting auth index content for the same version" ∧
    selectedDoc (selectIndex versionedPrimitives [versionedIndex 20, versionedIndex 10, versionedIndex 11] labNetwork 50) =
      .ok (some ⟨2, 120, []⟩) := by
  refine ⟨@List.perm_append_comm _ [versionedIndex 10, versionedIndex 11] [versionedIndex 20], ?_, ?_⟩
  · decide +kernel
  · decide +kernel

/-! ## What is selected -/

/-- **The selection is the newest of the verified documents**: it is empty where no record verifies, otherwise a verified
document with the size of its record that no other is newer than and all others of its version agree with; and it fails
only where two of one version disagree. -/
structure SelectsNewest {D : Type} (verify : Bytes → Except AuthError D) (version : D → UInt64) (records : List Bytes)
    (result : Except String (Option (D × Nat))) : Prop where
  nothing : result = .ok none ↔ ∀ record ∈ records, ∀ doc, verify record ≠ .ok doc
  selected : ∀ doc size, result = .ok (some (doc, size)) → ∃ record ∈ records, verify record = .ok doc ∧ record.length = size
  newest : ∀ doc size, result = .ok (some (doc, size)) → ∀ record ∈ records, ∀ other, verify record = .ok other →
    version other ≤ version doc ∧ (version other = version doc → other = doc)
  conflict : ∀ e, result = .error e → ∃ record ∈ records, ∃ record' ∈ records, ∃ doc doc',
    verify record = .ok doc ∧ verify record' = .ok doc' ∧ version doc = version doc' ∧ doc ≠ doc'

section Selects

variable {D : Type} {verify : Bytes → Except AuthError D}

theorem mem_verified {records : List Bytes} {doc : D} :
    doc ∈ verified verify records ↔ ∃ record ∈ records, verify record = .ok doc := by
  rw [verified, List.mem_filterMap]
  refine exists_congr fun record => and_congr_right fun _ => ?_
  cases verify record with
  | error e => simp [Except.toOption]
  | ok other => simp [Except.toOption]

variable [DecidableEq D] {version : D → UInt64} {conflict : String}

/-- What a selection keeps it started with, or it is a record's document with the record's size. -/
theorem selectNewest_kept : ∀ {records : List Bytes} {best : Option (D × Nat)} {doc : D} {size : Nat},
    selectNewest verify version conflict best records = .ok (some (doc, size)) →
    best = some (doc, size) ∨ ∃ record ∈ records, verify record = .ok doc ∧ record.length = size
  | [], best, doc, size, h => by
    cases h
    exact .inl rfl
  | record :: rest, best, doc, size, h => by
    have hlater : ∀ {best'}, selectNewest verify version conflict best' rest = .ok (some (doc, size)) →
        best' = some (doc, size) ∨ ∃ r ∈ record :: rest, verify r = .ok doc ∧ r.length = size := fun h' =>
      (selectNewest_kept h').imp_right (fun ⟨r, hr, hdoc⟩ => ⟨r, List.mem_cons_of_mem _ hr, hdoc⟩)
    -- the record's own document is the one kept
    have htaken : ∀ {other}, verify record = .ok other →
        selectNewest verify version conflict (some (other, record.length)) rest = .ok (some (doc, size)) →
        ∃ r ∈ record :: rest, verify r = .ok doc ∧ r.length = size := fun hv h' => by
      rcases hlater h' with heq | hrest
      · cases heq
        exact ⟨record, List.mem_cons_self, hv, rfl⟩
      · exact hrest
    unfold selectNewest at h
    cases hv : verify record with
    | error e =>
      rw [hv] at h
      exact hlater h
    | ok other =>
      rw [hv] at h
      simp only at h
      cases best with
      | none => exact .inr (htaken hv h)
      | some current =>
        simp only at h
        split at h
        · exact .inr (htaken hv h)
        split at h
        · cases h
        · exact hlater h

/-- A selection that does not fail is the result of the pass. -/
theorem scan_of_selectNewest {records : List Bytes} {selected : Option (D × Nat)}
    (h : selectNewest verify version conflict none records = .ok selected) :
    Newest.scan (fun doc => (version doc).toNat) none (verified verify records) = some (selected.map Prod.fst) := by
  have hscan := selectNewest_eq_scan verify version conflict records none
  rw [h, Option.map_none] at hscan
  cases hs : Newest.scan (fun doc => (version doc).toNat) none (verified verify records) with
  | none =>
    rw [hs] at hscan
    cases hscan
  | some result =>
    rw [hs] at hscan
    cases hscan
    rfl

/-- A selection fails only where the pass gives up. -/
theorem clash_of_selectNewest {records : List Bytes} {e : String}
    (h : selectNewest verify version conflict none records = .error e) :
    Newest.Clash (fun doc => (version doc).toNat) (verified verify records) := by
  have hscan := selectNewest_eq_scan verify version conflict records none
  by_contra hclash
  obtain ⟨result, hs⟩ : ∃ result, Newest.scan (fun doc => (version doc).toNat) none (verified verify records) = some result :=
    Newest.scan_of_not_clash hclash
  rw [h, Option.map_none, hs] at hscan
  cases hscan

theorem selectNewest_selects (records : List Bytes) :
    SelectsNewest verify version records (selectNewest verify version conflict none records) := by
  have hversion : ∀ a b : D, (version a).toNat = (version b).toNat ↔ version a = version b := fun a b => UInt64.toNat_inj
  refine ⟨⟨fun h record hr doc hv => ?_, fun h => ?_⟩, fun doc size h => ?_, fun doc size h record hr other hv => ?_,
    fun e h => ?_⟩
  · rcases Newest.top_of_scan (scan_of_selectNewest h) with ⟨-, -, hnil⟩ | ⟨c, hc, -⟩
    · have hmem := mem_verified.2 ⟨record, hr, hv⟩
      rw [hnil] at hmem
      cases hmem
    · cases hc
  · have hnil : verified verify records = [] :=
      List.eq_nil_iff_forall_not_mem.2 (fun doc hdoc => by
        obtain ⟨record, hr, hv⟩ := mem_verified.1 hdoc
        exact h record hr doc hv)
    cases hresult : selectNewest verify version conflict none records with
    | error e =>
      obtain ⟨a, ha, -⟩ := clash_of_selectNewest hresult
      rw [hnil] at ha
      cases ha
    | ok selected =>
      have hscan := scan_of_selectNewest hresult
      rw [hnil, Newest.scan, Option.some.injEq, eq_comm, Option.map_eq_none_iff] at hscan
      rw [hscan]
  · exact (selectNewest_kept h).resolve_left (fun heq => by cases heq)
  · rcases Newest.top_of_scan (scan_of_selectNewest h) with ⟨hnone, -, -⟩ | ⟨c, hc, htop⟩
    · cases hnone
    · cases hc
      rcases htop.2 other (mem_verified.2 ⟨record, hr, hv⟩) with hlt | rfl
      · refine ⟨UInt64.le_iff_toNat_le.2 hlt.le, fun heq => absurd ((hversion _ _).2 heq) hlt.ne⟩
      · exact ⟨UInt64.le_refl _, fun _ => rfl⟩
  · obtain ⟨a, ha, b, hb, hne, heq⟩ := clash_of_selectNewest h
    obtain ⟨record, hr, hv⟩ := mem_verified.1 ha
    obtain ⟨record', hr', hv'⟩ := mem_verified.1 hb
    exact ⟨record, hr, record', hr', a, b, hv, hv', (hversion a b).1 heq, hne⟩

end Selects

/-- With one record per digest, the records that verify for an entry are the same. -/
theorem verified_whitelist_unique {P : Primitives} {net : AuthNetwork} {service : String} {entry : ServiceEntry}
    {records : List Bytes} (hinj : Set.InjOn P.sha256 {record | record ∈ records}) {record record' : Bytes}
    {doc doc' : WhitelistDoc} (hr : record ∈ records) (hr' : record' ∈ records)
    (hv : verifyWhitelist P net service record entry = .ok doc)
    (hv' : verifyWhitelist P net service record' entry = .ok doc') : record = record' ∧ doc = doc' := by
  have hsame : record = record' :=
    hinj hr hr' ((verifyWhitelist_binding hv).1.symm.trans (verifyWhitelist_binding hv').1)
  subst hsame
  exact ⟨rfl, Except.ok.inj (hv.symm.trans hv')⟩

/-- **Both selections pick the newest verified document**, whatever the records are; and where no two of them have one
digest, a whitelist is selected without conflict and in every order the same. -/
theorem newest_selected (P : Primitives) (net : AuthNetwork) (now : UInt64) (key : WhitelistKey) (entry : ServiceEntry)
    (records : List Bytes) :
    SelectsNewest (fun record => verifyIndex P net record now) (·.version) records (selectIndex P records net now) ∧
    SelectsNewest (fun record => verifyWhitelist P net key.service record entry) (·.version) records
      (selectWhitelist P records net key entry) ∧
    (Set.InjOn P.sha256 {record | record ∈ records} →
      (∃ selected, selectWhitelist P records net key entry = .ok selected) ∧
      ∀ records', records.Perm records' →
        selectWhitelist P records' net key entry = selectWhitelist P records net key entry) := by
  have hselects : ∀ l, SelectsNewest (fun record => verifyWhitelist P net key.service record entry) (·.version) l
      (selectWhitelist P l net key entry) := fun l => selectNewest_selects l
  refine ⟨selectNewest_selects records, hselects records, fun hinj => ?_⟩
  have hok : ∀ l, l.Perm records → ∃ selected, selectWhitelist P l net key entry = .ok selected := fun l hperm => by
    cases hresult : selectWhitelist P l net key entry with
    | ok selected => exact ⟨selected, rfl⟩
    | error e =>
      obtain ⟨record, hr, record', hr', doc, doc', hv, hv', -, hne⟩ := (hselects l).conflict e hresult
      exact absurd (verified_whitelist_unique hinj (hperm.mem_iff.1 hr) (hperm.mem_iff.1 hr') hv hv').2 hne
  refine ⟨hok records (.refl _), fun records' hperm => ?_⟩
  obtain ⟨selected, hs⟩ := hok records (.refl _)
  obtain ⟨selected', hs'⟩ := hok records' hperm.symm
  rw [hs, hs']
  have hnone : selected = none ↔ selected' = none := by
    have h := (hselects records).nothing
    have h' := (hselects records').nothing
    rw [hs, Except.ok.injEq] at h
    rw [hs', Except.ok.injEq] at h'
    rw [h, h']
    exact ⟨fun hno record hr => hno record (hperm.mem_iff.2 hr), fun hno record hr => hno record (hperm.mem_iff.1 hr)⟩
  cases selected with
  | none => rw [hnone.1 rfl]
  | some pair =>
    cases selected' with
    | none => cases hnone.2 rfl
    | some pair' =>
      obtain ⟨record, hr, hv, hsize⟩ := (hselects records).selected pair.1 pair.2 hs
      obtain ⟨record', hr', hv', hsize'⟩ := (hselects records').selected pair'.1 pair'.2 hs'
      obtain ⟨hrecord, hdoc⟩ := verified_whitelist_unique hinj (hperm.mem_iff.2 hr') hr hv' hv
      rw [Prod.ext hdoc (hsize'.symm.trans ((congrArg List.length hrecord).trans hsize))]

/-- The key and the entry of the whitelist of `cmd`. -/
def labKey : WhitelistKey := ⟨"cmd", labSha256 labWhitelist, UInt64.ofNat labWhitelist.length, 100⟩

/-- The whitelist is selected before and after an index record. -/
theorem whitelist_selected_both_orders :
    Set.InjOn labPrimitives.sha256 {record | record ∈ [labIndex, labWhitelist]} ∧
    selectWhitelist labPrimitives [labIndex, labWhitelist] labNetwork labKey labKey.entry =
      .ok (some (⟨1, ["peer"]⟩, labWhitelist.length)) ∧
    selectWhitelist labPrimitives [labWhitelist, labIndex] labNetwork labKey labKey.entry =
      .ok (some (⟨1, ["peer"]⟩, labWhitelist.length)) := by
  have hinj : Set.InjOn labPrimitives.sha256 {record | record ∈ [labIndex, labWhitelist]} := by
    intro a ha b hb heq
    simp only [Set.mem_ofPred_eq, List.mem_cons, List.not_mem_nil, or_false] at ha hb
    rcases ha with rfl | rfl <;> rcases hb with rfl | rfl
    · rfl
    · exact absurd heq (by decide +kernel)
    · exact absurd heq (by decide +kernel)
    · rfl
  have hfirst : selectWhitelist labPrimitives [labIndex, labWhitelist] labNetwork labKey labKey.entry =
      .ok (some (⟨1, ["peer"]⟩, labWhitelist.length)) := by decide +kernel
  obtain ⟨-, -, horder⟩ := newest_selected labPrimitives labNetwork 50 labKey labKey.entry [labIndex, labWhitelist]
  exact ⟨hinj, hfirst, ((horder hinj).2 _ (List.Perm.swap _ _ _)).trans hfirst⟩

end Auth
end NexusNet
