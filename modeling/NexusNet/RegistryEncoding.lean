import NexusNet.JsonText
import NexusNet.RegistryPublish
/-!
# RegistryEncoding — how many types the record holds

Whatever the list and the limit, the bytes of `encode_types_limited` are the encoding of the longest prefix that fits
(`encode_longest_prefix`); the search for it rests on the lengths of the prefixes being in order.  `serdeJson` is
`serde_json` as it writes and reads lists of strings, for which this is `JsonText.length_array_sublist`.
-/
namespace NexusNet
namespace Registry

/-- `serde_json::to_vec` and `serde_json::from_slice` on lists of strings; `describe` is the text of the error. -/
def serdeJson (describe : Bytes → String) : Json where
  toVec types := .ok (JsonText.array (types.map strBytes))
  fromSlice value :=
    match (JsonText.readArray value).bind (List.mapM Pq.fromUtf8) with
    | none => .error (describe value)
    | some types => .ok types

theorem mapM_fromUtf8 : ∀ types : List String, (types.map strBytes).mapM Pq.fromUtf8 = some types
  | [] => rfl
  | name :: types => by
    rw [List.map_cons, List.mapM_cons, Pq.fromUtf8_strBytes, mapM_fromUtf8 types]
    rfl

theorem serdeJson_reads (describe : Bytes → String) (types : List String) :
    (serdeJson describe).fromSlice (JsonText.array (types.map strBytes)) = .ok types := by
  simp only [serdeJson, JsonText.readArray_array, Option.bind_some, mapM_fromUtf8]

theorem serdeJson_lawful (describe : Bytes → String) : (serdeJson describe).Lawful where
  encodes types _ := ⟨_, rfl, serdeJson_reads describe types⟩
  length_le := by
    rintro types types' _ _ hsub - ⟨⟩ ⟨⟩
    exact JsonText.length_array_sublist (hsub.map strBytes)

/-- **What the search uses of the writer**: every list of strings is encoded, and a prefix in no more bytes. -/
structure Json.Ordered (J : Json) : Prop where
  encodes : ∀ types, ∃ value, J.toVec types = .ok value
  length_le : ∀ types types' value value', types <+: types' → J.toVec types = .ok value → J.toVec types' = .ok value' →
    value.length ≤ value'.length

theorem serdeJson_ordered (describe : Bytes → String) : (serdeJson describe).Ordered where
  encodes types := ⟨_, rfl⟩
  length_le := by
    rintro types types' _ _ hpre ⟨⟩ ⟨⟩
    exact JsonText.length_array_sublist (hpre.sublist.map strBytes)

/-- **The longest prefix that fits**, or none. -/
structure LongestPrefix (toVec : List String → Except String Bytes) (list : List String) (maxBytes : Nat) (value : Bytes)
    (k : Nat) : Prop where
  le : k ≤ list.length
  encoded : toVec (list.take k) = .ok value
  longest : (FitsTake toVec list maxBytes k ∧ ∀ j ≤ list.length, FitsTake toVec list maxBytes j → j ≤ k) ∨
    (k = 0 ∧ ∀ j ≤ list.length, ¬ FitsTake toVec list maxBytes j)

theorem Json.Ordered.encodeTypesLimited {J : Json} (h : J.Ordered) (list : List String) (maxBytes : Nat) :
    ∃ value k, encodeTypesLimited J.toVec list maxBytes = .ok (value, k) ∧
      LongestPrefix J.toVec list maxBytes value k := by
  have hmono : ∀ j k, j ≤ k → FitsTake J.toVec list maxBytes k → FitsTake J.toVec list maxBytes j := by
    rintro j k hjk ⟨value, hvalue, hfits⟩
    obtain ⟨shorter, hshorter⟩ := h.encodes (list.take j)
    exact ⟨shorter, hshorter, (h.length_le _ _ _ _ (List.take_prefix_take_left hjk) hshorter hvalue).trans hfits⟩
  obtain ⟨value, k, hencoded, hle, hcut⟩ := encodeTypesLimited_spec (fun k => h.encodes (list.take k)) hmono
  refine ⟨value, k, hencoded, hle, encodeTypesLimited_take hencoded, ?_⟩
  have hlongest : ∀ j ≤ list.length, FitsTake J.toVec list maxBytes j → j ≤ k := fun j hj hfits => by
    rcases Nat.eq_zero_or_pos j with hzero | hpos
    · exact hzero ▸ Nat.zero_le k
    · exact (hcut j hpos hj).2 hfits
  rcases Nat.eq_zero_or_pos k with hzero | hpos
  · subst hzero
    by_cases hnone : FitsTake J.toVec list maxBytes 0
    · exact .inl ⟨hnone, hlongest⟩
    · exact .inr ⟨rfl, fun j _ hfits => hnone (hmono 0 j (Nat.zero_le j) hfits)⟩
  · exact .inl ⟨(hcut k hpos hle).1 le_rfl, hlongest⟩

/-- **The type index is encoded as the longest prefix that fits**: with any such writer, for every list of names and every
limit, with how many names it holds; and where lists of valid names are read back, their record is read as that prefix. -/
theorem encode_longest_prefix (J : Json) (hordered : J.Ordered) (list : List String) (maxBytes : Nat) :
    ∃ value k, encodeTypesLimited J.toVec list maxBytes = .ok (value, k) ∧
      LongestPrefix J.toVec list maxBytes value k ∧
      (J.Lawful → list.length ≤ maxTypes → (∀ name ∈ list, Auth.isValidServiceName name = true) →
        parseTypes J value = .ok (list.take k)) := by
  obtain ⟨value, k, hencoded, hlongest⟩ := hordered.encodeTypesLimited list maxBytes
  refine ⟨value, k, hencoded, hlongest, fun hJ hlength hvalid => ?_⟩
  refine hJ.parseTypes (fun name hname => hvalid name (List.mem_of_mem_take hname)) ?_ hlongest.encoded
  exact (List.length_take_le' k list).trans hlength

/-- With `serde_json` and room for one name of two, the first is kept. -/
theorem first_name_kept : ∃ value, encodeTypesLimited (serdeJson (fun _ => "expected a list")).toVec ["chat", "mail"] 14 =
    .ok (value, 1) ∧ LongestPrefix (serdeJson (fun _ => "expected a list")).toVec ["chat", "mail"] 14 value 1 ∧
    value = strBytes "[\"chat\"]" ∧ parseTypes (serdeJson (fun _ => "expected a list")) value = .ok ["chat"] := by
  have hencoded : encodeTypesLimited (serdeJson (fun _ => "expected a list")).toVec ["chat", "mail"] 14 =
      .ok (strBytes "[\"chat\"]", 1) := by decide +kernel
  obtain ⟨value, k, hvalue, hlongest, hparsed⟩ :=
    encode_longest_prefix _ (serdeJson_ordered (fun _ => "expected a list")) ["chat", "mail"] 14
  cases hencoded.symm.trans hvalue
  exact ⟨_, hencoded, hlongest, rfl, hparsed (serdeJson_lawful _) (by decide) (by decide +kernel)⟩

end Registry
end NexusNet
