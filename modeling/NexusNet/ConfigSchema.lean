import NexusNet.Collections
import NexusNet.ConfigTree
/-!
# ConfigSchema — reading and writing a configuration

What `serde` derives for the structures of the configuration, with `toml` on the other side: how a value is read from a
document's data and what it is written as.  A `Schema` is for one value, `Fields` is for the fields of a structure; each
carries what the completion needs, that merging what is written for a value into what it was read from does not change what
is read.
-/
namespace NexusNet
namespace ConfigFile

open TomlTree

/-- A value written: an item, nothing (`None` is not written), or `OutOfRange`, an integer over `i64::MAX`. -/
inductive Written where
  | item (item : Item Unit)
  | unsupportedNone
  | outOfRange

def Written.ofOption : Option (Item Unit) → Written
  | some i => .item i
  | none => .outOfRange

theorem Written.ofOption_eq_item {o : Option (Item Unit)} {i : Item Unit} : ofOption o = .item i ↔ o = some i := by
  cases o <;> simp [ofOption]

theorem Written.ofOption_ne_outOfRange {o : Option (Item Unit)} : ofOption o ≠ .outOfRange ↔ ∃ i, o = some i := by
  cases o <;> simp [ofOption]

abbrev Entries := List (String × Item Unit)

/-- How a value is read and written. -/
structure Schema (α : Type) where
  read : Data → Option α
  write : α → Written
  keyed : ∀ {x item}, write x = .item item → Keyed item
  writes : ∀ {d x}, read d = some x → write x ≠ .outOfRange
  read_merge : ∀ {x dst src}, Keyed dst → read dst.data = some x → write x = .item src →
    read (mergeItem dst src).data = some x

/-- Where a value is missing, writing it or not makes no difference. -/
def Schema.Restores {α : Type} (S : Schema α) (x : α) : Prop :=
  S.write x = .unsupportedNone ∨ ∃ item, S.write x = .item item ∧ S.read item.data = some x

/-! ## Scalars -/

/-- Values that are not tables. -/
structure Scalar (α : Type) where
  read : Data → Option α
  write : α → Option Data
  writes : ∀ {d x}, read d = some x → ∃ v, write x = some v

section Scalars

variable {α : Type}

def Scalar.schema (S : Scalar α) : Schema α where
  read := S.read
  write x := .ofOption ((S.write x).map (.value ()))
  keyed h := by
    obtain ⟨v, -, rfl⟩ := Option.map_eq_some_iff.1 (Written.ofOption_eq_item.1 h)
    exact .value () v
  writes h := by
    obtain ⟨v, hv⟩ := S.writes h
    exact Written.ofOption_ne_outOfRange.2 ⟨.value () v, by rw [hv]; rfl⟩
  read_merge {x dst src} _ hread h := by
    obtain ⟨v, -, rfl⟩ := Option.map_eq_some_iff.1 (Written.ofOption_eq_item.1 h)
    rwa [mergeItem_not_table dst rfl]

theorem Scalar.restores {S : Scalar α} {x : α} {v : Data} (hwrite : S.write x = some v) (hread : S.read v = some x) :
    S.schema.Restores x := by
  have hitem : (S.write x).map (.value ()) = some (Item.value () v) := by
    rw [hwrite]
    rfl
  exact .inr ⟨.value () v, Written.ofOption_eq_item.2 hitem, hread⟩

def boolean : Scalar Bool where
  read
    | .bool b => some b
    | _ => none
  write b := some (.bool b)
  writes _ := ⟨_, rfl⟩

def string : Scalar String where
  read
    | .str text => some text
    | _ => none
  write text := some (.str text)
  writes _ := ⟨_, rfl⟩

/-- A value with a text form, `FromStr` and `Display`. -/
def text (parse : String → Option α) (display : α → String) : Scalar α where
  read
    | .str text => parse text
    | _ => none
  write x := some (.str (display x))
  writes _ := ⟨_, rfl⟩

def readUnsigned (w : Nat) : Data → Option (BitVec w)
  | .int n => if 0 ≤ n.toInt ∧ n.toInt < 2 ^ w then some (BitVec.ofInt w n.toInt) else none
  | _ => none

/-- Integers in documents are those of `i64`. -/
def writeUnsigned {w : Nat} (x : BitVec w) : Option Data :=
  if x.toNat < 2 ^ 63 then some (.int (Int64.ofInt x.toNat)) else none

theorem toNat_of_readUnsigned {w : Nat} {n : Int64} {x : BitVec w} (h : readUnsigned w (.int n) = some x) :
    (x.toNat : Int) = n.toInt := by
  rw [readUnsigned] at h
  split at h
  · rename_i hrange
    cases h
    rw [BitVec.toNat_ofInt]
    have hpow : ((2 ^ w : Nat) : Int) = 2 ^ w := by norm_cast
    rw [hpow, Int.emod_eq_of_lt hrange.1 hrange.2, Int.toNat_of_nonneg hrange.1]
  · cases h

/-- `u16`, `u32` and `u64`. -/
def unsigned (w : Nat) : Scalar (BitVec w) where
  read := readUnsigned w
  write := writeUnsigned
  writes {d x} h := by
    cases d with
    | int n =>
      have hx := toNat_of_readUnsigned h
      have hlt := n.toInt_lt
      exact ⟨_, if_pos (by omega)⟩
    | _ => cases h

theorem unsigned_restores {w : Nat} {x : BitVec w} (h : x.toNat < 2 ^ 63) : (unsigned w).schema.Restores x := by
  have hint : (Int64.ofInt (x.toNat : Int)).toInt = x.toNat := Int64.toInt_ofInt_of_le (by omega) (by omega)
  have hlt : (x.toNat : Int) < 2 ^ w := by exact_mod_cast x.isLt
  have hread : readUnsigned w (.int (Int64.ofInt x.toNat)) = some x := by
    rw [readUnsigned, hint, if_pos ⟨Int.natCast_nonneg _, hlt⟩, BitVec.ofInt_natCast, BitVec.ofNat_toNat, BitVec.setWidth_eq]
  exact Scalar.restores (if_pos h) hread

theorem exists_mapM {β γ : Type} {f : β → Option γ} : ∀ {l : List β}, (∀ x ∈ l, ∃ y, f x = some y) →
    ∃ ys, l.mapM f = some ys
  | [], _ => ⟨[], rfl⟩
  | x :: l, h => by
    obtain ⟨y, hy⟩ := h x List.mem_cons_self
    obtain ⟨ys, hys⟩ := exists_mapM (fun x' hx' => h x' (List.mem_cons_of_mem _ hx'))
    exact ⟨y :: ys, by rw [List.mapM_cons, hy, hys]; rfl⟩

theorem forall₂_of_mapM {β γ : Type} {f : β → Option γ} : ∀ {l : List β} {ys : List γ}, l.mapM f = some ys →
    List.Forall₂ (fun x y => f x = some y) l ys
  | [], ys, h => by
    cases h
    exact .nil
  | x :: l, ys, h => by
    rw [List.mapM_cons] at h
    obtain ⟨y, hy, hrest⟩ := Option.bind_eq_some_iff.1 h
    obtain ⟨ys', hys, heq⟩ := Option.bind_eq_some_iff.1 hrest
    cases heq
    exact .cons hy (forall₂_of_mapM hys)

theorem exists_of_mem_mapM {β γ : Type} {f : β → Option γ} {l : List β} {ys : List γ} {y : γ} (h : l.mapM f = some ys)
    (hy : y ∈ ys) : ∃ x ∈ l, f x = some y := by
  have hall := forall₂_of_mapM h
  clear h
  induction hall with
  | nil => cases hy
  | cons hx _ ih =>
    rcases List.mem_cons.1 hy with rfl | hmem
    · exact ⟨_, List.mem_cons_self, hx⟩
    · obtain ⟨x, hmem', hx'⟩ := ih hmem
      exact ⟨x, List.mem_cons_of_mem _ hmem', hx'⟩

theorem map_of_mapM {β γ : Type} {f : β → Option γ} {g : γ → β} (hg : ∀ {x y}, f x = some y → g y = x) {l : List β}
    {ys : List γ} (h : l.mapM f = some ys) : ys.map g = l := by
  have hall := forall₂_of_mapM h
  clear h
  induction hall with
  | nil => rfl
  | cons hx _ ih => rw [List.map_cons, hg hx, ih]

/-- A vector of scalars is an array. -/
def Scalar.vec (S : Scalar α) : Scalar (List α) where
  read
    | .seq items => items.mapM S.read
    | _ => none
  write xs := (xs.mapM S.write).map .seq
  writes {d xs} h := by
    cases d with
    | seq items =>
      have hall : ∀ x ∈ xs, ∃ v, S.write x = some v := by
        intro x hx
        obtain ⟨d, -, hd⟩ := exists_of_mem_mapM h hx
        exact S.writes hd
      obtain ⟨vs, hvs⟩ := exists_mapM hall
      exact ⟨.seq vs, by rw [hvs]; rfl⟩
    | _ => cases h

theorem Scalar.vec_restores_nil (S : Scalar α) : S.vec.schema.Restores [] := Scalar.restores rfl rfl

/-- An `Option`: `None` is not written. -/
def Schema.optional (S : Schema α) : Schema (Option α) where
  read d := (S.read d).map some
  write
    | some x => S.write x
    | none => .unsupportedNone
  keyed {x item} h := by
    cases x with
    | none => cases h
    | some x => exact S.keyed h
  writes {d x} h := by
    cases x with
    | none => exact Written.noConfusion
    | some x =>
      obtain ⟨x', hread, heq⟩ := Option.map_eq_some_iff.1 h
      cases heq
      exact S.writes hread
  read_merge {x dst src} hdst hread hwrite := by
    cases x with
    | none => cases hwrite
    | some x =>
      obtain ⟨x', hread', heq⟩ := Option.map_eq_some_iff.1 hread
      cases heq
      rw [S.read_merge hdst hread' hwrite]
      rfl

theorem Schema.optional_restores_none (S : Schema α) : S.optional.Restores none := .inl rfl

end Scalars

/-! ## Fields -/

/-- How the fields of a structure are read and written.  From an array they are read one after the other, `readSeq`. -/
structure Fields (σ : Type) where
  names : List String
  read : List (String × Data) → Option σ
  readSeq : List Data → Option (σ × List Data)
  write : σ → Option Entries
  /-- Other keys are ignored. -/
  read_congr : ∀ {es es'}, (∀ name ∈ names, es.lookup name = es'.lookup name) → read es = read es'
  write_names : ∀ {x src}, write x = some src → ∀ key ∈ src.map Prod.fst, key ∈ names
  keyed : ∀ {x src}, write x = some src → Keyed (.table () src)
  writes : ∀ {es x}, read es = some x → ∃ src, write x = some src
  writes_seq : ∀ {items x rest}, readSeq items = some (x, rest) → ∃ src, write x = some src
  /-- The defaults of a missing structure, written, read as themselves. -/
  restores : ∀ {x src}, read [] = some x → write x = some src → read (entriesData src) = some x
  read_merge : ∀ {x dst src}, Keyed (.table () dst) → read (entriesData dst) = some x → write x = some src →
    read (entriesData (mergeMissing dst src)) = some x

namespace Fields

variable {α σ τ : Type}

def readField (name : String) (S : Schema α) (default : Option α) (es : List (String × Data)) : Option α :=
  match es.lookup name with
  | some d => S.read d
  | none => default

def writeField (name : String) (S : Schema α) (x : α) : Option Entries :=
  match S.write x with
  | .item item => some [(name, item)]
  | .unsupportedNone => some []
  | .outOfRange => none

theorem writeField_eq_some {name : String} {S : Schema α} {x : α} {src : Entries} (h : writeField name S x = some src) :
    src = [] ∧ S.write x = .unsupportedNone ∨ ∃ item, src = [(name, item)] ∧ S.write x = .item item := by
  rw [writeField] at h
  cases hw : S.write x with
  | item item =>
    simp only [hw, Option.some.injEq] at h
    exact .inr ⟨item, h.symm, rfl⟩
  | unsupportedNone =>
    simp only [hw, Option.some.injEq] at h
    exact .inl ⟨h.symm, rfl⟩
  | outOfRange => simp [hw] at h

theorem exists_writeField {S : Schema α} {x : α} (name : String) (h : S.write x ≠ .outOfRange) :
    ∃ src, writeField name S x = some src := by
  rw [writeField]
  cases hw : S.write x with
  | item item => exact ⟨_, rfl⟩
  | unsupportedNone => exact ⟨_, rfl⟩
  | outOfRange => exact absurd hw h

theorem not_outOfRange_of_restores {S : Schema α} {x : α} (h : S.Restores x) : S.write x ≠ .outOfRange := by
  rcases h with h | ⟨item, h, -⟩ <;> simp [h]

theorem keyed_writeField {name : String} {S : Schema α} {x : α} {src : Entries} (h : writeField name S x = some src) :
    Keyed (.table () src) := by
  rcases writeField_eq_some h with ⟨rfl, -⟩ | ⟨item, rfl, hitem⟩
  · exact Keyed.empty ()
  · refine .table (List.nodup_singleton _) (fun key item' hmem => ?_)
    cases List.mem_singleton.1 hmem
    exact S.keyed hitem

theorem readField_merge {name : String} {S : Schema α} {default : Option α} {x : α} {dst src : Entries}
    (hdefault : default = some x → S.Restores x) (hdst : Keyed (.table () dst))
    (hread : readField name S default (entriesData dst) = some x) (hwrite : writeField name S x = some src) :
    readField name S default (entriesData (mergeMissing dst src)) = some x := by
  rcases writeField_eq_some hwrite with ⟨rfl, -⟩ | ⟨item, rfl, hitem⟩
  · rwa [mergeMissing]
  · have hnodup : ([(name, item)].map Prod.fst).Nodup := List.nodup_singleton name
    rw [readField, lookup_entriesData] at hread
    rw [readField, lookup_entriesData, lookup_mergeMissing name hnodup, lookup_cons_ite, if_pos rfl]
    -- the field was there and is merged with itself, or its default is written in its place
    cases hd : dst.lookup name with
    | some d =>
      rw [hd] at hread
      exact S.read_merge (hdst.items (mem_of_lookup hd)) hread hitem
    | none =>
      rw [hd] at hread
      rcases hdefault hread with hnone | ⟨item', hitem', hread'⟩
      · rw [hnone] at hitem
        cases hitem
      · rw [hitem'] at hitem
        cases hitem
        exact hread'

/-- A field; without a default it is required. -/
def field (name : String) (S : Schema α) (default : Option α) (hdefault : ∀ {x}, default = some x → S.Restores x) :
    Fields α where
  names := [name]
  read := readField name S default
  readSeq
    | d :: rest => (S.read d).map (·, rest)
    | [] => default.map (·, [])
  write := writeField name S
  read_congr {es es'} h := by
    rw [readField, readField, h name List.mem_cons_self]
  write_names {x src} h := by
    rcases writeField_eq_some h with ⟨rfl, -⟩ | ⟨item, rfl, -⟩
    · exact fun key hmem => nomatch hmem
    · exact fun key hmem => hmem
  keyed := keyed_writeField
  writes {es x} h := by
    rw [readField] at h
    cases hd : es.lookup name with
    | some d =>
      rw [hd] at h
      exact exists_writeField name (S.writes h)
    | none =>
      rw [hd] at h
      exact exists_writeField name (not_outOfRange_of_restores (hdefault h))
  writes_seq {items x rest} h := by
    cases items with
    | cons d items =>
      obtain ⟨x', hread, heq⟩ := Option.map_eq_some_iff.1 h
      cases heq
      exact exists_writeField name (S.writes hread)
    | nil =>
      obtain ⟨x', hread, heq⟩ := Option.map_eq_some_iff.1 h
      cases heq
      exact exists_writeField name (not_outOfRange_of_restores (hdefault hread))
  restores {x src} hread hwrite := by
    have h := readField_merge hdefault (Keyed.empty ()) hread hwrite
    rcases writeField_eq_some hwrite with ⟨rfl, -⟩ | ⟨item, rfl, -⟩ <;> exact h
  read_merge := readField_merge hdefault

/-- `#[serde(skip)]`: neither read nor written. -/
def skipped (default : α) : Fields α where
  names := []
  read _ := some default
  readSeq items := some (default, items)
  write _ := some []
  read_congr _ := rfl
  write_names h := by
    cases h
    exact fun key hmem => nomatch hmem
  keyed h := by
    cases h
    exact Keyed.empty ()
  writes _ := ⟨[], rfl⟩
  writes_seq _ := ⟨[], rfl⟩
  restores h _ := h
  read_merge _ h _ := h

theorem pair_eq_some {a : Option σ} {b : Option τ} {p : σ × τ} :
    (a.bind (fun x => b.map (x, ·))) = some p ↔ a = some p.1 ∧ b = some p.2 := by
  cases a <;> cases b <;> simp [Prod.ext_iff]

theorem lookup_append_left {a b : Entries} {name : String} (h : name ∉ b.map Prod.fst) :
    (entriesData (a ++ b)).lookup name = (entriesData a).lookup name := by
  rw [lookup_entriesData, lookup_entriesData, List.lookup_append, lookup_eq_none_iff_keys.2 h, Option.or_none]

theorem lookup_append_right {a b : Entries} {name : String} (h : name ∉ a.map Prod.fst) :
    (entriesData (a ++ b)).lookup name = (entriesData b).lookup name := by
  rw [lookup_entriesData, lookup_entriesData, List.lookup_append, lookup_eq_none_iff_keys.2 h, Option.none_or]

theorem lookup_merge_of_not_mem {src : Entries} {name : String} (h : name ∉ src.map Prod.fst) (dst : Entries) :
    (entriesData (mergeMissing dst src)).lookup name = (entriesData dst).lookup name := by
  rw [lookup_entriesData, lookup_entriesData, lookup_mergeMissing_of_not_mem h]

def disjointNames (F : Fields σ) (G : Fields τ) : Bool := F.names.all (fun name => !G.names.contains name)

theorem not_mem_of_disjointNames {F : Fields σ} {G : Fields τ} (h : F.disjointNames G = true) {name : String}
    (hF : name ∈ F.names) : name ∉ G.names := by
  have hname := List.all_eq_true.1 h name hF
  rwa [Bool.not_eq_true', List.contains_eq_mem, decide_eq_false_iff_not] at hname

/-- Fields after one another. -/
def and (F : Fields σ) (G : Fields τ) (hnames : F.disjointNames G = true) : Fields (σ × τ) where
  names := F.names ++ G.names
  read es := (F.read es).bind (fun x => (G.read es).map (x, ·))
  readSeq items := (F.readSeq items).bind (fun r => (G.readSeq r.2).map (fun r' => ((r.1, r'.1), r'.2)))
  write x := (F.write x.1).bind (fun a => (G.write x.2).map (a ++ ·))
  read_congr h := by
    rw [F.read_congr (fun name hname => h name (List.mem_append_left _ hname)),
      G.read_congr (fun name hname => h name (List.mem_append_right _ hname))]
  write_names h key hkey := by
    obtain ⟨a, ha, hrest⟩ := Option.bind_eq_some_iff.1 h
    obtain ⟨b, hb, rfl⟩ := Option.map_eq_some_iff.1 hrest
    rw [List.map_append, List.mem_append] at hkey
    exact List.mem_append.2 (hkey.imp (F.write_names ha key) (G.write_names hb key))
  keyed h := by
    obtain ⟨a, ha, hrest⟩ := Option.bind_eq_some_iff.1 h
    obtain ⟨b, hb, rfl⟩ := Option.map_eq_some_iff.1 hrest
    refine .table ?_ (fun key item hmem => ?_)
    · rw [List.map_append]
      refine List.Nodup.append (F.keyed ha).nodup (G.keyed hb).nodup (fun key hkey hkey' => ?_)
      exact not_mem_of_disjointNames hnames (F.write_names ha key hkey) (G.write_names hb key hkey')
    · rcases List.mem_append.1 hmem with hmem | hmem
      · exact (F.keyed ha).items hmem
      · exact (G.keyed hb).items hmem
  writes h := by
    obtain ⟨hx, hy⟩ := pair_eq_some.1 h
    obtain ⟨a, ha⟩ := F.writes hx
    obtain ⟨b, hb⟩ := G.writes hy
    exact ⟨a ++ b, by rw [ha, Option.bind_some, hb]; rfl⟩
  writes_seq h := by
    obtain ⟨r, hr, hrest⟩ := Option.bind_eq_some_iff.1 h
    obtain ⟨r', hr', heq⟩ := Option.map_eq_some_iff.1 hrest
    cases heq
    obtain ⟨a, ha⟩ := F.writes_seq hr
    obtain ⟨b, hb⟩ := G.writes_seq hr'
    exact ⟨a ++ b, by rw [ha, Option.bind_some, hb]; rfl⟩
  restores hread hwrite := by
    obtain ⟨hx, hy⟩ := pair_eq_some.1 hread
    obtain ⟨a, ha, hrest⟩ := Option.bind_eq_some_iff.1 hwrite
    obtain ⟨b, hb, rfl⟩ := Option.map_eq_some_iff.1 hrest
    refine pair_eq_some.2 ⟨?_, ?_⟩
    · rw [F.read_congr (fun name hname =>
        lookup_append_left (fun hmem => not_mem_of_disjointNames hnames hname (G.write_names hb name hmem)))]
      exact F.restores hx ha
    · rw [G.read_congr (fun name hname =>
        lookup_append_right (fun hmem => not_mem_of_disjointNames hnames (F.write_names ha name hmem) hname))]
      exact G.restores hy hb
  read_merge hdst hread hwrite := by
    obtain ⟨hx, hy⟩ := pair_eq_some.1 hread
    obtain ⟨a, ha, hrest⟩ := Option.bind_eq_some_iff.1 hwrite
    obtain ⟨b, hb, rfl⟩ := Option.map_eq_some_iff.1 hrest
    rw [mergeMissing_append]
    have hmerged : Keyed (.table () (mergeMissing _ a)) := keyed_mergeItem (F.keyed ha) hdst
    refine pair_eq_some.2 ⟨?_, ?_⟩
    · rw [F.read_congr (fun name hname =>
        lookup_merge_of_not_mem (fun hmem => not_mem_of_disjointNames hnames hname (G.write_names hb name hmem)) _)]
      exact F.read_merge hdst hx ha
    · refine G.read_merge hmerged ?_ hb
      rw [G.read_congr (fun name hname =>
        lookup_merge_of_not_mem (fun hmem => not_mem_of_disjointNames hnames (F.write_names ha name hmem) hname) _)]
      exact hy

/-- The fields as a structure. -/
def pack (F : Fields σ) (mk : σ → τ) (fields : τ → σ) (h : ∀ x, fields (mk x) = x) : Fields τ where
  names := F.names
  read es := (F.read es).map mk
  readSeq items := (F.readSeq items).map (fun r => (mk r.1, r.2))
  write x := F.write (fields x)
  read_congr hes := by rw [F.read_congr hes]
  write_names := F.write_names
  keyed := F.keyed
  writes hread := by
    obtain ⟨x, hx, rfl⟩ := Option.map_eq_some_iff.1 hread
    rw [h]
    exact F.writes hx
  writes_seq hread := by
    obtain ⟨r, hr, heq⟩ := Option.map_eq_some_iff.1 hread
    cases heq
    rw [h]
    exact F.writes_seq hr
  restores hread hwrite := by
    obtain ⟨x, hx, rfl⟩ := Option.map_eq_some_iff.1 hread
    rw [h] at hwrite
    rw [F.restores hx hwrite]
    rfl
  read_merge hdst hread hwrite := by
    obtain ⟨x, hx, rfl⟩ := Option.map_eq_some_iff.1 hread
    rw [h] at hwrite
    rw [F.read_merge hdst hx hwrite]
    rfl

end Fields

/-! ## Structures -/

section Structures

variable {σ : Type}

/-- The entries a map access sees: a date is a map of one entry. -/
def mapEntries : Data → Option (List (String × Data))
  | .map entries => some entries
  | .datetime text => some [("$__toml_private_datetime", .str text)]
  | _ => none

/-- A structure is a table; it is read from a map or, field by field, from an array. -/
def Fields.table (F : Fields σ) : Schema σ where
  read
    | .seq items => (F.readSeq items).map Prod.fst
    | d => (mapEntries d).bind F.read
  write x := .ofOption ((F.write x).map (.table ()))
  keyed h := by
    obtain ⟨entries, hentries, rfl⟩ := Option.map_eq_some_iff.1 (Written.ofOption_eq_item.1 h)
    exact F.keyed hentries
  writes {d x} h := by
    have hwrites : ∃ src, F.write x = some src := by
      cases d with
      | seq items =>
        obtain ⟨r, hr, rfl⟩ := Option.map_eq_some_iff.1 h
        exact F.writes_seq hr
      | _ =>
        obtain ⟨es, -, hread⟩ := Option.bind_eq_some_iff.1 h
        exact F.writes hread
    obtain ⟨src, hsrc⟩ := hwrites
    exact Written.ofOption_ne_outOfRange.2 ⟨.table () src, by rw [hsrc]; rfl⟩
  read_merge {x dst src} hdst hread h := by
    obtain ⟨entries, hentries, rfl⟩ := Option.map_eq_some_iff.1 (Written.ofOption_eq_item.1 h)
    cases dst with
    | value decor v => exact hread
    | arrayOfTables tables => exact hread
    | table decor dst => exact F.read_merge hdst hread hentries

theorem Fields.exists_write_of_table (F : Fields σ) {d : Data} {x : σ} (h : F.table.read d = some x) :
    ∃ src, F.write x = some src := by
  have hne : Written.ofOption ((F.write x).map (.table ())) ≠ .outOfRange := F.table.writes h
  obtain ⟨item, hitem⟩ := Written.ofOption_ne_outOfRange.1 hne
  obtain ⟨src, hsrc, -⟩ := Option.map_eq_some_iff.1 hitem
  exact ⟨src, hsrc⟩

theorem Fields.table_restores (F : Fields σ) {x : σ} (h : F.read [] = some x) : F.table.Restores x := by
  obtain ⟨src, hsrc⟩ := F.writes h
  have hitem : (F.write x).map (.table ()) = some (Item.table () src) := by
    rw [hsrc]
    rfl
  exact .inr ⟨.table () src, Written.ofOption_eq_item.2 hitem, F.restores h hsrc⟩

/-- A vector of structures is an array of tables, an empty one an empty array. -/
def tablesItem : List Entries → Item Unit
  | [] => .value () (.seq [])
  | tables => .arrayOfTables (tables.map (((), ·)))

theorem tablesItem_isTable (tables : List Entries) : (tablesItem tables).isTable = false := by
  cases tables <;> rfl

theorem keyed_tablesItem {tables : List Entries} (h : ∀ entries ∈ tables, Keyed (.table () entries)) :
    Keyed (tablesItem tables) := by
  cases tables with
  | nil => exact .value _ _
  | cons entries rest =>
    refine .tables (fun t ht => ?_)
    obtain ⟨es, hmem, rfl⟩ := List.mem_map.1 ht
    exact h es hmem

def Fields.tables (F : Fields σ) : Schema (List σ) where
  read
    | .seq items => items.mapM F.table.read
    | _ => none
  write xs := .ofOption ((xs.mapM F.write).map tablesItem)
  keyed h := by
    obtain ⟨tables, htables, rfl⟩ := Option.map_eq_some_iff.1 (Written.ofOption_eq_item.1 h)
    refine keyed_tablesItem (fun entries hmem => ?_)
    obtain ⟨x, -, hx⟩ := exists_of_mem_mapM htables hmem
    exact F.keyed hx
  writes {d xs} h := by
    cases d with
    | seq items =>
      have hall : ∀ x ∈ xs, ∃ src, F.write x = some src := by
        intro x hx
        obtain ⟨d, -, hd⟩ := exists_of_mem_mapM h hx
        exact F.exists_write_of_table hd
      obtain ⟨tables, htables⟩ := exists_mapM hall
      exact Written.ofOption_ne_outOfRange.2 ⟨tablesItem tables, by rw [htables]; rfl⟩
    | _ => cases h
  read_merge {xs dst src} _ hread h := by
    obtain ⟨tables, -, rfl⟩ := Option.map_eq_some_iff.1 (Written.ofOption_eq_item.1 h)
    rwa [mergeItem_not_table dst (tablesItem_isTable tables)]

theorem Fields.tables_restores_nil (F : Fields σ) : F.tables.Restores [] := .inr ⟨.value () (.seq []), rfl, rfl⟩

/-- A map is read entry by entry; a later entry of the same key is in the place of the earlier one. -/
def readMap (F : Fields σ) (m : Dict String σ) : List (String × Data) → Option (Dict String σ)
  | [] => some m
  | (key, d) :: rest => (F.table.read d).bind (fun v => readMap F (m.insert key v) rest)

/-- The entries of a map in the order it is iterated. -/
def writeMap (F : Fields σ) (order : Iteration String) (m : Dict String σ) : Option Entries :=
  (order.list m.keys).mapM (fun key =>
    (m.lookup key).bind (fun v => (F.write v).map (fun entries => (key, .table () entries))))

theorem readMap_values {F : Fields σ} {P : σ → Prop} (hP : ∀ {d v}, F.table.read d = some v → P v) :
    ∀ {es : List (String × Data)} {m m' : Dict String σ}, (∀ key v, m.lookup key = some v → P v) →
      readMap F m es = some m' → ∀ key v, m'.lookup key = some v → P v
  | [], m, m', hm, h => by
    cases h
    exact hm
  | (key, d) :: rest, m, m', hm, h => by
    obtain ⟨v, hv, hrest⟩ := Option.bind_eq_some_iff.1 h
    refine readMap_values hP (fun key' v' hlookup => ?_) hrest
    rw [Dict.lookup_insert_ite] at hlookup
    split at hlookup
    · cases hlookup
      exact hP hv
    · exact hm key' v' hlookup

/-- **A map with unique keys is read key by key.** -/
theorem readMap_eq_some_iff {F : Fields σ} : ∀ {es : List (String × Data)}, (es.map Prod.fst).Nodup →
    ∀ {m m' : Dict String σ}, readMap F m es = some m' ↔
      ∀ key, (m'.lookup key).map some = ((es.lookup key).map F.table.read).or ((m.lookup key).map some)
  | [], _, m, m' => by
    rw [readMap, Option.some.injEq]
    constructor
    · rintro rfl key
      rfl
    · intro h
      refine (Finmap.ext_lookup (fun key => ?_)).symm
      exact Option.map_injective (Option.some_injective σ) (h key)
  | (key, d) :: rest, hnodup, m, m' => by
    rw [List.map_cons, List.nodup_cons] at hnodup
    have hrest : rest.lookup key = none := lookup_eq_none_iff_keys.2 hnodup.1
    rw [readMap]
    cases hd : F.table.read d with
    | none =>
      refine iff_of_false (by simp) (fun h => ?_)
      have hkey := h key
      rw [lookup_cons_ite, if_pos rfl, Option.map_some, hd, Option.some_or] at hkey
      cases hlookup : m'.lookup key <;> simp [hlookup] at hkey
    | some v =>
      rw [Option.bind_some, readMap_eq_some_iff hnodup.2]
      refine forall_congr' (fun k => ?_)
      rw [lookup_cons_ite, Dict.lookup_insert_ite]
      by_cases hk : k = key
      · rw [if_pos hk, if_pos hk, hk, hrest, Option.map_some, Option.map_some, hd, Option.map_none, Option.none_or,
          Option.some_or]
      · rw [if_neg hk, if_neg hk]

theorem keys_writeMap {F : Fields σ} {order : Iteration String} {m : Dict String σ} {src : Entries}
    (h : writeMap F order m = some src) : src.map Prod.fst = order.list m.keys := by
  refine map_of_mapM (fun {key e} hkey => ?_) h
  obtain ⟨v, -, hwrite⟩ := Option.bind_eq_some_iff.1 hkey
  obtain ⟨entries, -, rfl⟩ := Option.map_eq_some_iff.1 hwrite
  rfl

theorem mem_writeMap {F : Fields σ} {order : Iteration String} {m : Dict String σ} {src : Entries} {key : String}
    {item : Item Unit} (h : writeMap F order m = some src) (hmem : (key, item) ∈ src) :
    ∃ v, m.lookup key = some v ∧ F.table.write v = .item item := by
  obtain ⟨key', -, hkey'⟩ := exists_of_mem_mapM h hmem
  obtain ⟨v, hv, hwrite⟩ := Option.bind_eq_some_iff.1 hkey'
  obtain ⟨entries, hentries, heq⟩ := Option.map_eq_some_iff.1 hwrite
  cases heq
  exact ⟨v, hv, Written.ofOption_eq_item.2 (by rw [hentries]; rfl)⟩

theorem keyed_writeMap {F : Fields σ} {order : Iteration String} {m : Dict String σ} {src : Entries}
    (h : writeMap F order m = some src) : Keyed (.table () src) := by
  refine .table ?_ (fun key item hmem => ?_)
  · rw [keys_writeMap h]
    exact order.nodup_list _
  · obtain ⟨v, -, hwrite⟩ := mem_writeMap h hmem
    exact F.table.keyed hwrite

theorem exists_writeMap {F : Fields σ} {m : Dict String σ} (order : Iteration String)
    (h : ∀ key v, m.lookup key = some v → ∃ entries, F.write v = some entries) : ∃ src, writeMap F order m = some src := by
  refine exists_mapM (fun key hkey => ?_)
  obtain ⟨v, hv⟩ := Finmap.mem_iff.1 (Finmap.mem_keys.1 (order.mem_list.1 hkey))
  obtain ⟨entries, hentries⟩ := h key v hv
  exact ⟨_, by rw [hv, Option.bind_some, hentries]; rfl⟩

/-- **Merging a map with what it is written as, it reads as before**: it has all of these keys, and each value is merged with
itself. -/
theorem readMap_merge {F : Fields σ} {order : Iteration String} {m : Dict String σ} {dst src : Entries}
    (hdst : Keyed (.table () dst)) (hread : readMap F ∅ (entriesData dst) = some m)
    (hwrite : writeMap F order m = some src) : readMap F ∅ (entriesData (mergeMissing dst src)) = some m := by
  have hkeys : (src.map Prod.fst).Nodup := (keyed_writeMap hwrite).nodup
  have hmerged : (mergeMissing dst src |>.map Prod.fst).Nodup := nodup_mergeMissing src hdst.nodup
  rw [readMap_eq_some_iff (by rw [keys_entriesData]; exact hdst.nodup)] at hread
  rw [readMap_eq_some_iff (by rw [keys_entriesData]; exact hmerged)]
  intro key
  have hkey := hread key
  rw [lookup_entriesData] at hkey ⊢
  rw [lookup_mergeMissing key hkeys]
  cases hd : dst.lookup key with
  | none =>
    rw [hd] at hkey
    have hm : m.lookup key = none := by
      cases hm : m.lookup key <;> simp [hm] at hkey ⊢
    have hs : src.lookup key = none := by
      cases hs : src.lookup key with
      | none => rfl
      | some item =>
        obtain ⟨v, hv, -⟩ := mem_writeMap hwrite (mem_of_lookup hs)
        rw [hm] at hv
        cases hv
    rw [hs]
    exact hkey
  | some d =>
    cases hs : src.lookup key with
    | none =>
      rw [hd] at hkey
      exact hkey
    | some item =>
      obtain ⟨v, hv, hitem⟩ := mem_writeMap hwrite (mem_of_lookup hs)
      rw [hd, hv, Option.map_some, Option.map_some, Option.map_some, Option.some_or, Option.some.injEq] at hkey
      rw [hv, mergeFound, Option.map_some, Option.map_some, Option.map_some, Option.some_or,
        F.table.read_merge (hdst.items (mem_of_lookup hd)) hkey.symm hitem]

/-- A `HashMap` from names to structures is a table of tables. -/
def Fields.mapOf (F : Fields σ) (order : Iteration String) : Schema (Dict String σ) where
  read d := (mapEntries d).bind (readMap F ∅)
  write m := .ofOption ((writeMap F order m).map (.table ()))
  keyed h := by
    obtain ⟨src, hsrc, rfl⟩ := Option.map_eq_some_iff.1 (Written.ofOption_eq_item.1 h)
    exact keyed_writeMap hsrc
  writes h := by
    obtain ⟨es, -, hread⟩ := Option.bind_eq_some_iff.1 h
    have hvalues := readMap_values F.exists_write_of_table (fun key v hv => by simp at hv) hread
    obtain ⟨src, hsrc⟩ := exists_writeMap order hvalues
    exact Written.ofOption_ne_outOfRange.2 ⟨.table () src, by rw [hsrc]; rfl⟩
  read_merge {m dst src} hdst hread h := by
    obtain ⟨entries, hentries, rfl⟩ := Option.map_eq_some_iff.1 (Written.ofOption_eq_item.1 h)
    cases dst with
    | value decor v => exact hread
    | arrayOfTables tables => exact hread
    | table decor dst => exact readMap_merge hdst hread hentries

theorem Fields.mapOf_restores_empty (F : Fields σ) (order : Iteration String) : (F.mapOf order).Restores ∅ := by
  have hlist : order.list (∅ : Dict String σ).keys = [] := by
    rw [List.eq_nil_iff_forall_not_mem]
    intro key hkey
    simp at hkey
  have hwrite : (writeMap F order ∅).map (.table ()) = some (Item.table () []) := by
    rw [writeMap, hlist]
    rfl
  exact .inr ⟨.table () [], Written.ofOption_eq_item.2 hwrite, rfl⟩

end Structures

end ConfigFile
end NexusNet
