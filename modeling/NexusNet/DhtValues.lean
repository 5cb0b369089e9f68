import NexusNet.DhtSteps
/-!
# DhtValues — what a cache holds came from its fetches

A property of keys and values that every fetch result has is a property of everything the cache holds: the entries, the
results on their way into them, and what the calls have read (`Holds`).
-/
set_option linter.unusedSectionVars false

namespace NexusNet
namespace Dht

variable {K V : Type} [DecidableEq K] [DecidableEq V]

/-- The call has read the value of the key. -/
def Call.brings (k : K) (v : V) : Call K V → Prop
  | .starting k' (.read read)    => k' = k ∧ read.value = some v
  | .launching k' (.read read) _ => k' = k ∧ read.value = some v
  | .returned k' (.ok read)      => k' = k ∧ read.value = some v
  | _                            => False

/-- **Every value the cache holds has the property `Q`.** -/
structure Holds (Q : K → V → Prop) (s : Cache K V) : Prop where
  entries : ∀ k v, HasValue s.entries k (some v) → Q k v
  carried : ∀ r f fetched, s.refreshes.lookup r = some f → f.phase.result = some (.ok (some fetched)) →
    Q f.key fetched.value
  calls : ∀ c call k v, s.calls.lookup c = some call → call.brings k v → Q k v

theorem Holds.new (Q : K → V → Prop) (maxEntries maxBytes : Nat) : Holds Q (Cache.new maxEntries maxBytes) where
  entries := fun k v hv => by
    obtain ⟨entry, hentry, -⟩ := hv
    simp [Cache.new] at hentry
  carried := fun r f fetched hf => by simp [Cache.new] at hf
  calls := fun c call k v hc => by simp [Cache.new] at hc

theorem Holds.mono {Q Q' : K → V → Prop} {s : Cache K V} (h : Holds Q s) (hQ : ∀ k v, Q k v → Q' k v) : Holds Q' s where
  entries := fun k v hv => hQ k v (h.entries k v hv)
  carried := fun r f fetched hf hres => hQ _ _ (h.carried r f fetched hf hres)
  calls := fun c call k v hc hb => hQ k v (h.calls c call k v hc hb)

/-! ## Calls -/

/-- A call that begins has read at most the entry. -/
theorem CallStart.brings {s : Cache K V} {call : Call K V} (h : CallStart s call) {k : K} {v : V} (hb : call.brings k v) :
    HasValue s.entries k (some v) := by
  cases h with
  | get k' =>
    unfold Cache.wanted at hb
    split at hb
    · rename_i entry hentry
      obtain ⟨rfl, hread⟩ := hb
      exact ⟨entry, hentry, hread⟩
    · exact absurd hb id
  | _ => exact absurd hb id

/-- A call that moves on brings what it had read, or the entry. -/
theorem CallStep.brings {s : Cache K V} {c : Nat} {e : Event K V} {call call' : Call K V} (h : CallStep s c e call call')
    {k : K} {v : V} (hb : call'.brings k v) : call.brings k v ∨ HasValue s.entries k (some v) := by
  cases h with
  | join _ _ want | register _ _ want | loadKey _ _ _ want => cases want <;> exact Or.inl hb
  | wake r k' outcome sent => cases outcome <;> exact absurd hb id
  | lookup now k' =>
    unfold Cache.reread at hb
    split at hb
    · rename_i entry hentry
      obtain ⟨rfl, hread⟩ := hb
      exact Or.inr ⟨entry, hentry, hread⟩
    · exact absurd hb id
  | _ => exact absurd hb id

/-! ## Steps -/

/-- **A step keeps the property**, if the value it fetches has it. -/
theorem Holds.step {Q : K → V → Prop} {s s' : Cache K V} {e : Event K V} (hq : Holds Q s) (h : Cache.Step s e s')
    (hfetch : ∀ r k gen fetched, e = .fetchDone r (.ok (some fetched)) → s.refreshes.lookup r = some ⟨k, .fetching gen⟩ →
      Q k fetched.value) : Holds Q s' where
  entries := fun k v hv => by
    rcases h.hasValue hv with hold | ⟨r, now, order, gen, o, rfl, task, hval⟩
    · exact hq.entries k v hold
    · cases o with
      | none => cases hval
      | some fetched =>
        cases hval
        exact hq.carried r _ fetched task rfl
  carried := fun r f' fetched hf' hres => by
    cases hf : s.refreshes.lookup r with
    | none =>
      rw [h.new_refresh hf hf'] at hres
      cases hres
    | some f =>
      rcases h.refreshes hf with hsame | ⟨phase, hnew, hadv, -⟩
      · obtain rfl : f' = f := Option.some.inj (hf'.symm.trans hsame)
        exact hq.carried r f' fetched hf hres
      · obtain rfl : f' = ⟨f.key, phase⟩ := Option.some.inj (hf'.symm.trans hnew)
        rcases result_advance hadv hres with hold | rfl
        · exact hq.carried r f fetched hf hold
        · obtain ⟨k, p⟩ := f
          cases hadv with
          | fetchDone gen => exact hfetch r k gen fetched rfl hf
  calls := fun c call' k v hc' hb => by
    cases hc : s.calls.lookup c with
    | none => exact hq.entries k v ((h.begins hc hc').brings hb)
    | some call =>
      rcases h.calls hc with hsame | ⟨call'', hnew, hmove⟩
      · obtain rfl : call' = call := Option.some.inj (hc'.symm.trans hsame)
        exact hq.calls c call' k v hc hb
      · obtain rfl : call' = call'' := Option.some.inj (hc'.symm.trans hnew)
        rcases hmove.brings hb with hold | hentry
        · exact hq.calls c call k v hc hold
        · exact hq.entries k v hentry

/-- The call reads the key, and what it returns is a read of it. -/
def Call.reads (k : K) : Call K V → Prop
  | .starting k' _     => k' = k
  | .launching k' _ _  => k' = k
  | .waiting k' _      => k' = k
  | .found k'          => k' = k
  | .returned k' _     => k' = k
  | .refreshed k'      => k' = k
  | _                  => False

theorem Cache.Step.reads {s s' : Cache K V} {e : Event K V} (h : Cache.Step s e s') {c : Nat} {k : K}
    (hc : ∃ call, s.calls.lookup c = some call ∧ call.reads k) :
    ∃ call, s'.calls.lookup c = some call ∧ call.reads k := by
  obtain ⟨call, hcall, hk⟩ := hc
  rcases h.calls hcall with hsame | ⟨call', hnew, hmove⟩
  · exact ⟨call, hsame, hk⟩
  · refine ⟨call', hnew, ?_⟩
    cases hmove with
    | join _ _ want | loadKey _ _ _ want => cases want <;> exact hk
    | register r k' want idle fresh => exact hk
    | wake r k' outcome sent => cases outcome <;> exact hk
    | lookup now k' => exact hk
    | remove | clearEntries | clearKeys => exact absurd hk id

end Dht
end NexusNet
