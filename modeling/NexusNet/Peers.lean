import NexusNet.Command
import NexusNet.Machine
/-!
# Peers — round-trip times and failed pings

`PeerTracker` of `peer_tracker.rs` over all pings of a node.  What it holds is a matter of each peer's own pings
(`Tracks`): the round-trip time of the last one unless it failed, and how many have failed in a row since the last success,
counted from anew after each disconnection.
-/
namespace NexusNet
namespace Peers

open Command (minByRtt)

structure PeerTracker where
  rtts : Dict Command.PeerId Nat
  failures : Dict Command.PeerId UInt32

/-- `ping::Event`: the round-trip time, or none if the ping failed. -/
structure Ping where
  peer : Command.PeerId
  rtt : Option Nat

namespace PeerTracker

def new (myPeerId : Command.PeerId) : PeerTracker := ⟨(∅ : Dict Command.PeerId Nat).insert myPeerId 0, ∅⟩

/-- The tracker after a ping, and the peer to disconnect. -/
def onPing (t : PeerTracker) (maxFailures : UInt32) (ping : Ping) : PeerTracker × Option Command.PeerId :=
  match ping.rtt with
  | some rtt => (⟨t.rtts.insert ping.peer rtt, t.failures.erase ping.peer⟩, none)
  | none =>
    if maxFailures = 0 then (⟨t.rtts.erase ping.peer, t.failures⟩, none)
    else
      let count := (t.failures.lookup ping.peer).getD 0 + 1
      if maxFailures ≤ count then (⟨t.rtts.erase ping.peer, t.failures.erase ping.peer⟩, some ping.peer)
      else (⟨t.rtts.erase ping.peer, t.failures.insert ping.peer count⟩, none)

/-- As commands see it. -/
def forCommands (t : PeerTracker) : Command.PeerTracker := ⟨t.rtts⟩

def bestPeer (t : PeerTracker) (providers : List Command.PeerId) : Option Command.PeerId := t.forCommands.bestPeer providers

end PeerTracker

def tracker (myPeerId : Command.PeerId) (maxFailures : UInt32) : Machine PeerTracker Ping where
  init := .new myPeerId
  step t ping := some (t.onPing maxFailures ping).1

/-! ## The pings of a peer -/

def results (p : Command.PeerId) (pings : List Ping) : List (Option Nat) :=
  (pings.filter (fun ping => ping.peer == p)).map (·.rtt)

/-- The round-trip time of the last ping, unless it failed; the node itself is at distance zero. -/
def latest (myPeerId : Command.PeerId) (pings : List Ping) (p : Command.PeerId) : Option Nat :=
  match (results p pings).getLast? with
  | some rtt => rtt
  | none => if p = myPeerId then some 0 else none

/-- How many of the last pings in a row have failed. -/
def streak (p : Command.PeerId) (pings : List Ping) : Nat := ((results p pings).reverse.takeWhile (·.isNone)).length

theorem results_concat (p : Command.PeerId) (pings : List Ping) (ping : Ping) :
    results p (pings ++ [ping]) = results p pings ++ if p = ping.peer then [ping.rtt] else [] := by
  rw [results, List.filter_append, List.map_append, results]
  by_cases h : p = ping.peer
  · simp [h]
  · simp [h, Ne.symm h]

theorem latest_concat (myPeerId p : Command.PeerId) (pings : List Ping) (ping : Ping) :
    latest myPeerId (pings ++ [ping]) p = if p = ping.peer then ping.rtt else latest myPeerId pings p := by
  rw [latest, results_concat]
  by_cases h : p = ping.peer
  · simp [h]
  · rw [if_neg h, if_neg h, List.append_nil, latest]

theorem streak_concat (p : Command.PeerId) (pings : List Ping) (ping : Ping) :
    streak p (pings ++ [ping]) =
      if p = ping.peer then (if ping.rtt.isNone then streak p pings + 1 else 0) else streak p pings := by
  rw [streak, results_concat]
  by_cases h : p = ping.peer
  · rw [if_pos h, if_pos h, List.reverse_append, List.reverse_singleton, List.singleton_append]
    cases ping.rtt with
    | none => simp [streak]
    | some rtt => simp
  · rw [if_neg h, if_neg h, List.append_nil, streak]

/-! ## What the tracker holds -/

/-- The failures that are counted for a streak of them. -/
def counted (maxFailures : UInt32) (streak : Nat) : Option UInt32 :=
  if streak % maxFailures.toNat = 0 ∨ maxFailures = 0 then none else some (.ofNat (streak % maxFailures.toNat))

/-- **The tracker is as the pings of each peer say.** -/
structure Tracks (myPeerId : Command.PeerId) (maxFailures : UInt32) (pings : List Ping) (t : PeerTracker) : Prop where
  rtts : ∀ p, t.rtts.lookup p = latest myPeerId pings p
  failures : ∀ p, t.failures.lookup p = counted maxFailures (streak p pings)

theorem mod_succ {s n : Nat} (hn : 0 < n) : (s + 1) % n = if n ≤ s % n + 1 then 0 else s % n + 1 := by
  have hlt := Nat.mod_lt s hn
  have hdiv := Nat.div_add_mod s n
  split
  · have heq : s + 1 = n * (s / n + 1) := by
      rw [Nat.mul_add, Nat.mul_one]
      omega
    rw [heq, Nat.mul_mod_right]
  · rw [Nat.add_mod, Nat.mod_eq_of_lt (show 1 < n by omega), Nat.mod_eq_of_lt (by omega)]

theorem toNat_pos {n : UInt32} (h : n ≠ 0) : 0 < n.toNat := Nat.pos_of_ne_zero fun hzero => h (UInt32.toNat_inj.1 hzero)

theorem toNat_counted {maxFailures : UInt32} (hmax : maxFailures ≠ 0) (s : Nat) :
    ((counted maxFailures s).getD 0).toNat = s % maxFailures.toNat := by
  have hlt := Nat.mod_lt s (toNat_pos hmax)
  have htop := maxFailures.toNat_lt
  rw [counted]
  by_cases h : s % maxFailures.toNat = 0
  · rw [if_pos (.inl h), h]
    rfl
  · rw [if_neg (not_or.2 ⟨h, hmax⟩), Option.getD_some, UInt32.toNat_ofNat']
    exact Nat.mod_eq_of_lt (by omega)

/-- The count of `on_ping`, which does not overflow. -/
theorem toNat_count {maxFailures : UInt32} (hmax : maxFailures ≠ 0) (s : Nat) :
    ((counted maxFailures s).getD 0 + 1).toNat = s % maxFailures.toNat + 1 := by
  have hlt := Nat.mod_lt s (toNat_pos hmax)
  have htop := maxFailures.toNat_lt
  rw [UInt32.toNat_add, toNat_counted hmax]
  exact Nat.mod_eq_of_lt (by simp; omega)

theorem counted_succ {maxFailures : UInt32} (hmax : maxFailures ≠ 0) (s : Nat) :
    counted maxFailures (s + 1) = if maxFailures ≤ (counted maxFailures s).getD 0 + 1 then none
      else some ((counted maxFailures s).getD 0 + 1) := by
  have hcount := toNat_count hmax s
  have hmod := mod_succ (s := s) (toNat_pos hmax)
  by_cases h : maxFailures.toNat ≤ s % maxFailures.toNat + 1
  · rw [if_pos (UInt32.le_iff_toNat_le.2 (by rw [hcount]; exact h)), counted, if_pos (.inl (by rw [hmod, if_pos h]))]
  · rw [if_neg (fun hle => h (by rw [← hcount]; exact UInt32.le_iff_toNat_le.1 hle)), counted, hmod, if_neg h,
      if_neg (by simp [hmax])]
    have htop := maxFailures.toNat_lt
    exact congrArg some (UInt32.toNat_inj.1 (by rw [hcount, UInt32.toNat_ofNat', Nat.mod_eq_of_lt (by omega)]))

@[simp] theorem counted_zero (maxFailures : UInt32) : counted maxFailures 0 = none := by simp [counted]

section Step

variable {myPeerId : Command.PeerId} {maxFailures : UInt32} {pings : List Ping} {t : PeerTracker}

/-- The round-trip times after a ping. -/
theorem Tracks.latest_onPing (h : Tracks myPeerId maxFailures pings t) (ping : Ping) (p : Command.PeerId) :
    (t.onPing maxFailures ping).1.rtts.lookup p = latest myPeerId (pings ++ [ping]) p := by
  rw [latest_concat, ← h.rtts]
  unfold PeerTracker.onPing
  cases ping.rtt with
  | some rtt => exact Dict.lookup_insert_ite t.rtts ping.peer p rtt
  | none =>
    simp only
    split
    · exact Dict.lookup_erase_ite t.rtts ping.peer p
    · split <;> exact Dict.lookup_erase_ite t.rtts ping.peer p

/-- The counts after a ping, and whether its peer is disconnected. -/
theorem Tracks.counted_onPing (h : Tracks myPeerId maxFailures pings t) (ping : Ping) :
    (∀ p, (t.onPing maxFailures ping).1.failures.lookup p = counted maxFailures (streak p (pings ++ [ping]))) ∧
      ∀ p, (t.onPing maxFailures ping).2 = some p ↔ p = ping.peer ∧ ping.rtt = none ∧ maxFailures ≠ 0 ∧
        maxFailures.toNat ∣ streak p (pings ++ [ping]) := by
  unfold PeerTracker.onPing
  cases hrtt : ping.rtt with
  | some rtt =>
    refine ⟨fun p => ?_, fun p => by simp⟩
    rw [streak_concat, hrtt, Dict.lookup_erase_ite, h.failures]
    by_cases hp : p = ping.peer <;> simp [hp]
  | none =>
    by_cases hmax : maxFailures = 0
    · refine ⟨fun p => ?_, fun p => by simp [hmax]⟩
      simp only [hmax, if_true, h.failures]
      simp [counted]
    · have hstreak : ∀ p, streak p (pings ++ [ping]) = if p = ping.peer then streak p pings + 1 else streak p pings := by
        intro p
        rw [streak_concat, hrtt]
        rfl
      have hdvd : maxFailures ≤ (counted maxFailures (streak ping.peer pings)).getD 0 + 1 ↔
          maxFailures.toNat ∣ streak ping.peer pings + 1 := by
        rw [UInt32.le_iff_toNat_le, toNat_count hmax, Nat.dvd_iff_mod_eq_zero, mod_succ (toNat_pos hmax)]
        split <;> simp_all
      have hcounted : ∀ p, counted maxFailures (streak p (pings ++ [ping])) =
          if p = ping.peer then counted maxFailures (streak ping.peer pings + 1) else t.failures.lookup p := by
        intro p
        rw [hstreak, h.failures]
        by_cases hp : p = ping.peer <;> simp [hp]
      simp only [if_neg hmax, h.failures ping.peer, hcounted, counted_succ hmax]
      split
      · rename_i hreached
        refine ⟨fun p => Dict.lookup_erase_ite _ _ p, fun p => ?_⟩
        rw [hstreak]
        constructor
        · intro hp
          obtain rfl := Option.some.inj hp
          exact ⟨rfl, trivial, hmax, by rw [if_pos rfl]; exact hdvd.1 hreached⟩
        · rintro ⟨rfl, -⟩
          rfl
      · rename_i hbelow
        refine ⟨fun p => Dict.lookup_insert_ite _ _ _ _, fun p => ⟨fun hp => (by cases hp), ?_⟩⟩
        rintro ⟨rfl, -, -, hmultiple⟩
        rw [hstreak, if_pos rfl] at hmultiple
        exact absurd (hdvd.2 hmultiple) hbelow

end Step

theorem tracks_new (myPeerId : Command.PeerId) (maxFailures : UInt32) : Tracks myPeerId maxFailures [] (.new myPeerId) where
  rtts p := (Dict.lookup_insert_ite ∅ myPeerId p 0).trans (by simp [latest, results])
  failures p := by simp [PeerTracker.new, streak, results]

theorem tracks_run {myPeerId : Command.PeerId} {maxFailures : UInt32} {pings : List Ping} {t : PeerTracker}
    (hrun : (tracker myPeerId maxFailures).run pings = some t) : Tracks myPeerId maxFailures pings t := by
  refine (tracker myPeerId maxFailures).history_invariant (tracks_new myPeerId maxFailures) ?_ pings t hrun
    ((tracker myPeerId maxFailures).meets_true _ _)
  rintro pings t ping t' h - hstep
  obtain rfl := Option.some.inj hstep
  exact ⟨h.latest_onPing ping, (h.counted_onPing ping).1⟩

/-! ## The best peer -/

theorem minByRtt_spec : ∀ (l : List (Command.PeerId × Nat)),
    (minByRtt l = none ↔ l = []) ∧ ∀ x, minByRtt l = some x → x ∈ l ∧ ∀ y ∈ l, x.2 ≤ y.2
  | [] => ⟨by simp [minByRtt], fun x hx => by cases hx⟩
  | x :: rest => by
    obtain ⟨hnone, hsome⟩ := minByRtt_spec rest
    rw [minByRtt]
    cases hrest : minByRtt rest with
    | none =>
      obtain rfl := hnone.1 hrest
      refine ⟨by simp, fun y hy => ?_⟩
      obtain rfl := Option.some.inj hy
      simp
    | some y =>
      obtain ⟨hmem, hle⟩ := hsome y hrest
      simp only
      split
      · rename_i hxy
        refine ⟨by simp, fun z hz => ?_⟩
        obtain rfl := Option.some.inj hz
        refine ⟨List.mem_cons_self, fun w hw => ?_⟩
        rcases List.mem_cons.1 hw with rfl | hw
        · exact Nat.le_refl _
        · exact hxy.trans (hle w hw)
      · rename_i hxy
        refine ⟨by simp, fun z hz => ?_⟩
        obtain rfl := Option.some.inj hz
        refine ⟨List.mem_cons_of_mem _ hmem, fun w hw => ?_⟩
        rcases List.mem_cons.1 hw with rfl | hw
        · omega
        · exact hle w hw

theorem bestPeer_spec (t : PeerTracker) (providers : List Command.PeerId) :
    (t.bestPeer providers = none ↔ ∀ p ∈ providers, t.rtts.lookup p = none) ∧
      ∀ p, t.bestPeer providers = some p → p ∈ providers ∧ ∃ rtt, t.rtts.lookup p = some rtt ∧
        ∀ q ∈ providers, ∀ rtt', t.rtts.lookup q = some rtt' → rtt ≤ rtt' := by
  obtain ⟨hnone, hsome⟩ := minByRtt_spec (providers.filterMap (fun p => (t.rtts.lookup p).map (fun rtt => (p, rtt))))
  have hmem : ∀ x, x ∈ providers.filterMap (fun p => (t.rtts.lookup p).map (fun rtt => (p, rtt))) ↔
      x.1 ∈ providers ∧ t.rtts.lookup x.1 = some x.2 := by
    rintro ⟨p, rtt⟩
    simp only [List.mem_filterMap, Option.map_eq_some_iff, Prod.mk.injEq]
    constructor
    · rintro ⟨_, hp, _, hrtt, rfl, rfl⟩
      exact ⟨hp, hrtt⟩
    · rintro ⟨hp, hrtt⟩
      exact ⟨p, hp, rtt, hrtt, rfl, rfl⟩
  rw [PeerTracker.bestPeer, Command.PeerTracker.bestPeer, PeerTracker.forCommands]
  constructor
  · rw [Option.map_eq_none_iff, hnone, List.eq_nil_iff_forall_not_mem]
    constructor
    · intro h p hp
      rw [Option.eq_none_iff_forall_ne_some]
      intro rtt hrtt
      exact h (p, rtt) ((hmem _).2 ⟨hp, hrtt⟩)
    · intro h x hx
      obtain ⟨hp, hrtt⟩ := (hmem x).1 hx
      rw [h x.1 hp] at hrtt
      cases hrtt
  · intro p hp
    obtain ⟨x, hx, rfl⟩ := Option.map_eq_some_iff.1 hp
    obtain ⟨hin, hle⟩ := hsome x hx
    obtain ⟨hprovider, hrtt⟩ := (hmem x).1 hin
    exact ⟨hprovider, x.2, hrtt, fun q hq rtt' hrtt' => hle (q, rtt') ((hmem _).2 ⟨hq, hrtt'⟩)⟩

/-- **The tracker over all pings.**  A ping disconnects its peer exactly when it fails and the failures in a row, this one
included, are a multiple of the limit; and the best of some providers is one whose last ping went through, in no more time
than any other's, if there is one. -/
theorem tracker_exact (myPeerId : Command.PeerId) (maxFailures : UInt32) (pings : List Ping) (t : PeerTracker)
    (hrun : (tracker myPeerId maxFailures).run pings = some t) :
    (∀ ping p, (t.onPing maxFailures ping).2 = some p ↔ p = ping.peer ∧ ping.rtt = none ∧ maxFailures ≠ 0 ∧
      maxFailures.toNat ∣ streak p (pings ++ [ping])) ∧
    ∀ providers, (t.bestPeer providers = none ↔ ∀ p ∈ providers, latest myPeerId pings p = none) ∧
      ∀ p, t.bestPeer providers = some p → p ∈ providers ∧ ∃ rtt, latest myPeerId pings p = some rtt ∧
        ∀ q ∈ providers, ∀ rtt', latest myPeerId pings q = some rtt' → rtt ≤ rtt' := by
  have htracks := tracks_run hrun
  refine ⟨fun ping => (htracks.counted_onPing ping).2, fun providers => ?_⟩
  simp only [← htracks.rtts]
  exact bestPeer_spec t providers

/-- Two failures, a success, and three failures, with a limit of three. -/
def flakyPings : List Ping := [⟨"a", none⟩, ⟨"a", none⟩, ⟨"a", some 5⟩, ⟨"b", some 9⟩, ⟨"a", none⟩, ⟨"a", none⟩]

theorem flaky_disconnected : ∃ t, (tracker "me" 3).run flakyPings = some t ∧ (t.onPing 3 ⟨"a", none⟩).2 = some "a" ∧
    (3 : UInt32).toNat ∣ streak "a" (flakyPings ++ [⟨"a", none⟩]) ∧ t.bestPeer ["a", "b"] = some "b" := by
  obtain ⟨t, hrun⟩ := Option.isSome_iff_exists.1 (by decide +kernel : ((tracker "me" 3).run flakyPings).isSome = true)
  obtain ⟨hdisconnects, hbest⟩ := tracker_exact "me" 3 flakyPings t hrun
  have hdvd : (3 : UInt32).toNat ∣ streak "a" (flakyPings ++ [⟨"a", none⟩]) := by decide +kernel
  refine ⟨t, hrun, (hdisconnects ⟨"a", none⟩ "a").2 ⟨rfl, rfl, by decide, hdvd⟩, hdvd, ?_⟩
  cases hpeer : t.bestPeer ["a", "b"] with
  | none => exact absurd ((hbest ["a", "b"]).1.1 hpeer "b" (by simp)) (by decide +kernel)
  | some p =>
    obtain ⟨hmem, rtt, hrtt, -⟩ := (hbest ["a", "b"]).2 p hpeer
    have ha : latest "me" flakyPings "a" = none := by decide +kernel
    rcases List.mem_cons.1 hmem with rfl | hmem
    · rw [ha] at hrtt
      cases hrtt
    · rw [List.mem_singleton.1 hmem]

end Peers
end NexusNet
