import NexusNet.ActorOutbound
/-!
# ActorReplies — no caller is forgotten and none is told twice

Every command but two carries a reply channel.  A channel that has been given is held in one place (an entry of one of the
three tables, or the reload that is under way) and has been sent nothing, or it is held nowhere and has been sent one
reply.  This is one invariant of the actor's steps (`Stepped.reply_kept`, `Stepped.reply_new`), and `commands_answered_once`
reads it off for whole runs.  The end of a reload leaves no channel held.
-/
namespace NexusNet
namespace Actor

open Pq (Crypto Wire PqKeys)

/-- Where a reply channel is held. -/
inductive Holder where
  | slot (slot : Slot)
  | reload
deriving DecidableEq

def World.holder (w : World) : Holder → Option Nat
  | .slot slot => w.actor.waiter slot
  | .reload =>
    match w.phase with
    | .running => none
    | .reloading resp _ => some resp

/-- The reply channel that comes with an input. -/
def Input.resp : Input → Option Nat
  | .command _ cmd => cmd.resp
  | .reload _ resp _ => some resp
  | .event _ _ | .reloadEnd _ => none

/-- **The channel waits**: for a query, for a service request, or for the end of a reload. -/
inductive Open (n : Nat) (w : World) : Prop where
  | query (q : Nat) (pending : KadPending) (waiting : Waiting q pending w) (own : pending.resp = n)
  | request (id : Nat) (entry : OutboundEntry) (calling : Calling id entry w) (own : entry.resp = n)
  | reload (swarm : Behaviours) (phase : w.phase = .reloading n swarm) (used : n ∈ w.resps)
      (absent : ∀ slot, w.actor.waiter slot ≠ some n)

/-- **The channel waits and nothing is sent, or one reply is sent and nobody waits.** -/
inductive Accounted (n : Nat) (w : World) : List Reply → Prop where
  | waits (waiting : Open n w) : Accounted n w []
  | told (reply : Reply) (settled : Settled n w) : Accounted n w [reply]

theorem Open.holder {n : Nat} {w : World} (h : Open n w) : ∃! holder, w.holder holder = some n := by
  have hphase : (∀ swarm, w.phase ≠ .reloading n swarm) → w.holder .reload ≠ some n := by
    intro h
    simp only [World.holder]
    cases hw : w.phase with
    | running => exact fun heq => (by cases heq)
    | reloading resp swarm => exact fun heq => h swarm (by rw [hw, Option.some.inj heq])
  cases h with
  | query q pending waiting own =>
    subst own
    refine ⟨.slot (.kad q), congrArg (Option.map KadPending.resp) waiting.entry, fun holder hholder => ?_⟩
    cases holder with
    | slot slot => rw [waiting.alone slot hholder]
    | reload => exact absurd hholder (hphase waiting.phase)
  | request id entry calling own =>
    subst own
    refine ⟨.slot (entry.slot id), calling.held.waiter, fun holder hholder => ?_⟩
    cases holder with
    | slot slot => rw [calling.alone slot hholder]
    | reload => exact absurd hholder (hphase calling.phase)
  | reload swarm phase used absent =>
    refine ⟨.reload, by simp only [World.holder, phase], fun holder hholder => ?_⟩
    cases holder with
    | slot slot => exact absurd hholder (absent slot)
    | reload => rfl

theorem Settled.holder {n : Nat} {w : World} (h : Settled n w) (holder : Holder) : w.holder holder ≠ some n := by
  cases holder with
  | slot slot => exact h.absent slot
  | reload =>
    simp only [World.holder]
    cases hw : w.phase with
    | running => exact fun heq => (by cases heq)
    | reloading resp swarm => exact fun heq => h.phase swarm (by rw [hw, Option.some.inj heq])

section Steps

variable {C : Crypto} {W : Wire} {w w' : World} {input : Input} {effects : List Effect} {n : Nat}

/-! ## A channel that waits -/

theorem Waiting.accounted {q : Nat} {pending : KadPending} (h : Waiting q pending w)
    (hstep : Stepped C W w input w' effects) : Accounted pending.resp w' (answersTo pending.resp effects) := by
  by_cases hown : w.phase = .running ∧ ∃ env result, input = .event env (.kademlia (.outboundQueryProgressed q result))
  · obtain ⟨hrunning, env, result, rfl⟩ := hown
    cases hterminal : result.isTerminal with
    | true =>
      obtain ⟨hsettled, reply, hreply, -⟩ := h.terminates hrunning hstep hterminal
      rw [hreply]
      exact .told reply hsettled
    | false =>
      obtain ⟨hwaiting, hnone, -⟩ := h.collects hrunning hstep hterminal
      rw [hnone]
      exact .waits (.query q _ hwaiting (extend_resp pending result))
  · cases hend : input.isReloadEnd with
    | true =>
      cases input with
      | reloadEnd env =>
        obtain ⟨hsettled, hfailed⟩ := h.reloaded hstep
        rw [hfailed]
        exact .told _ hsettled
      | _ => cases hend
    | false =>
      obtain ⟨hwaiting, hnone⟩ := h.other hstep hend (fun hrunning env result heq => hown ⟨hrunning, env, result, heq⟩)
      rw [hnone]
      exact .waits (.query q pending hwaiting rfl)

theorem Calling.accounted {id : Nat} {entry : OutboundEntry} (h : Calling id entry w)
    (hstep : Stepped C W w input w' effects) : Accounted entry.resp w' (answersTo entry.resp effects) := by
  by_cases hown : w.isAbout (entry.slot id) input
  · cases input with
    | event env event =>
      obtain ⟨hslot, hrunning⟩ := hown
      obtain ⟨result, hresult, -⟩ := event_own C env h.held hslot
      obtain ⟨hsettled, htold⟩ := h.told hstep hslot hrunning
      rw [htold, hresult]
      exact .told _ hsettled
    | _ => cases hown
  · cases hend : input.isReloadEnd with
    | true =>
      cases input with
      | reloadEnd env =>
        obtain ⟨hsettled, hfailed⟩ := h.reloaded hstep
        rw [hfailed]
        exact .told _ hsettled
      | _ => cases hend
    | false =>
      obtain ⟨hcalling, hnone⟩ := h.other hstep hend hown
      rw [hnone]
      exact .waits (.request id entry hcalling rfl)

/-- The channel of a reload waits until its end, where it is the only one that is not failed. -/
theorem reload_accounted {swarm : Behaviours} (hphase : w.phase = .reloading n swarm) (hused : n ∈ w.resps)
    (habsent : ∀ slot, w.actor.waiter slot ≠ some n) (hstep : Stepped C W w input w' effects) :
    Accounted n w' (answersTo n effects) := by
  have hused' := hstep.used_mono hused
  have habsent' : ∀ slot, w'.actor.waiter slot ≠ some n := fun slot hslot => by
    rcases hstep.waiter hslot with hold | hnew
    · exact habsent slot hold
    · exact hnew.1 hused
  have hhandled := hstep.handledAs
  generalize w'.actor = actor at hhandled
  generalize hphase' : w'.phase = phase at hhandled
  cases hhandled with
  | oldEvent env event resp swarm' hreloading =>
    rw [answersTo_eq_nil (fun reply =>
      not_answer_of_only _ (rejectOldSwarmEvent_only C w.actor env event) (by simp))]
    obtain ⟨rfl, rfl⟩ := Phase.reloading.inj (hphase.symm.trans hreloading)
    exact .waits (.reload swarm hphase' hused' habsent')
  | reloadEnds env resp swarm' hreloading =>
    obtain ⟨rfl, rfl⟩ := Phase.reloading.inj (hphase.symm.trans hreloading)
    have htold : answersTo n ((w.actor.finishReload env swarm).2 ++ [.answer n (.done (.ok ()))]) = [.done (.ok ())] := by
      rw [SwarmActor.finishReload, answersTo_append, answersTo_append, failPending_absent env habsent, answersTo_map_dial]
      simp [answersTo]
    rw [htold]
    refine .told _ ⟨hused', habsent', fun swarm' hrel => ?_⟩
    rw [hphase'] at hrel
    cases hrel
  | event _ _ hrunning | command _ _ hrunning | buildFailed _ _ _ hrunning | reloadBegins _ _ hrunning =>
    cases hphase.symm.trans hrunning

/-- **A step accounts for every channel that waits.** -/
theorem Stepped.reply_kept (hstep : Stepped C W w input w' effects) (h : Open n w) :
    Accounted n w' (answersTo n effects) := by
  cases h with
  | query q pending waiting own => exact own ▸ waiting.accounted hstep
  | request id entry calling own => exact own ▸ calling.accounted hstep
  | reload swarm phase used absent => exact reload_accounted phase used absent hstep

/-! ## A new channel -/

/-- A command that makes nobody wait and sends its reply at once. -/
theorem answered_at_once {env : Env} {command : Command} (other : List Effect) {reply : Reply}
    (hstep : Stepped C W w (.command env command) w' effects) (hused : Used w) (hresp : command.resp = some n)
    (hhandle : w.actor.handleCommand C W env command = (w.actor, other ++ [.answer n reply]))
    (hother : ∀ r, .answer n r ∉ other) : Accounted n w' (answersTo n effects) := by
  obtain ⟨hnew, hused'⟩ := hstep.resp_new hresp
  obtain ⟨-, hactor, heffects, hphase⟩ := hstep.commanded
  rw [hhandle] at hactor heffects
  have htold : answersTo n effects = [reply] := by
    rw [heffects, answersTo_append, answersTo_eq_nil hother]
    simp [answersTo]
  rw [htold]
  refine .told reply ⟨hused', fun slot hslot => ?_, fun swarm hreloading => ?_⟩
  · rw [hactor] at hslot
    exact hnew (hused.slots slot _ hslot)
  · rw [hphase] at hreloading
    cases hreloading

theorem query_accounted {env : Env} {command : Command} (hstep : Stepped C W w (.command env command) w' effects)
    (hused : Used w) {storeError : Option String} {pending : KadPending}
    (hquery : command.kadQuery env = some (storeError, pending)) :
    Accounted pending.resp w' (answersTo pending.resp effects) := by
  cases hrefusal : refusal w.actor storeError with
  | some error =>
    obtain ⟨hfailed, hsettled⟩ := hstep.refused hused hquery hrefusal
    rw [hfailed]
    exact .told _ hsettled
  | none =>
    obtain ⟨hquiet, hwaiting, -⟩ := hstep.started hused hquery hrefusal
    rw [hquiet]
    exact .waits (.query _ pending hwaiting rfl)

/-- The local operations on Kademlia. -/
theorem kadLocal_accounted {env : Env} {command : Command} (hstep : Stepped C W w (.command env command) w' effects)
    (hused : Used w) (hresp : command.resp = some n) {effect : Effect} (hkind : effect.kind = .other)
    (hhandle : w.actor.handleCommand C W env command = w.actor.kadLocal effect n) :
    Accounted n w' (answersTo n effects) := by
  unfold SwarmActor.kadLocal at hhandle
  split at hhandle
  · refine answered_at_once [effect] hstep hused hresp hhandle (fun r hmem => ?_)
    rw [← List.mem_singleton.1 hmem] at hkind
    cases hkind
  · exact answered_at_once [] hstep hused hresp hhandle (fun r hmem => (by cases hmem))

theorem command_accounted {env : Env} {command : Command} (hstep : Stepped C W w (.command env command) w' effects)
    (hused : Used w) (hresp : command.resp = some n) : Accounted n w' (answersTo n effects) := by
  cases command with
  | kadGetRecordAll | kadGetProviders | kadGetClosestPeers | kadPutRecord | kadStartProviding =>
    obtain rfl := Option.some.inj hresp
    exact query_accounted hstep hused rfl
  | kadStopProviding | kadRemoveRecord =>
    obtain rfl := Option.some.inj hresp
    exact kadLocal_accounted hstep hused rfl rfl rfl
  | kadCacheRefresh resp =>
    obtain rfl := Option.some.inj hresp
    have hhandle : w.actor.handleCommand C W env (.kadCacheRefresh resp) = w.actor.kadCacheRefresh env resp := rfl
    unfold SwarmActor.kadCacheRefresh at hhandle
    split at hhandle
    · exact answered_at_once [.retainOwnRecords] hstep hused rfl hhandle (by simp)
    · exact answered_at_once [] hstep hused rfl hhandle (by simp)
  | serviceSendRequest peer request addresses resp =>
    obtain rfl := Option.some.inj hresp
    cases hstep.dispatched hused with
    | refused error quiet told settled =>
      rw [told]
      exact .told _ settled
    | sent entry own out sealedFor calling running =>
      have hquiet : answersTo resp effects = [] := by
        rw [out]
        cases entry <;> rfl
      rw [hquiet]
      exact .waits (.request _ entry calling own)
  | listenOn addr resp =>
    obtain rfl := Option.some.inj hresp
    exact answered_at_once [.listenOn addr] hstep hused rfl rfl (by simp)
  | dial addr resp =>
    obtain rfl := Option.some.inj hresp
    exact answered_at_once [.dial addr] hstep hused rfl rfl (by simp)
  | reload resp =>
    -- a reload comes as an input of its own
    have hhandled := hstep.handled
    simp only [World.handle] at hhandled
    split at hhandled <;> cases hhandled
  | serviceSendResponse requestId response => cases hresp
  | disconnectPeer peer => cases hresp

/-- **A step accounts for the channel that comes with it.** -/
theorem Stepped.reply_new (hstep : Stepped C W w input w' effects) (hused : Used w) (hresp : input.resp = some n) :
    Accounted n w' (answersTo n effects) := by
  cases input with
  | event | reloadEnd => cases hresp
  | command env command => exact command_accounted hstep hused hresp
  | reload env resp buildError =>
    obtain rfl := Option.some.inj hresp
    obtain ⟨hnew, hused'⟩ := hstep.reload_new
    have hhandled := hstep.handledAs
    generalize hactor : w'.actor = actor at hhandled
    generalize hphase : w'.phase = phase at hhandled
    have habsent : ∀ slot, w'.actor.waiter slot = w.actor.waiter slot → w'.actor.waiter slot ≠ some resp :=
      fun slot heq hslot => hnew (hused.slots slot resp (heq.symm.trans hslot))
    cases hhandled with
    | buildFailed env resp error hrunning =>
      have htold : answersTo resp [.answer resp (.done (.error error))] = [.done (.error error)] := by simp [answersTo]
      rw [htold]
      refine .told _ ⟨hused', fun slot => habsent slot (by rw [hactor]), fun swarm hrel => ?_⟩
      rw [hphase] at hrel
      cases hrel
    | reloadBegins env resp hrunning =>
      rw [answersTo_eq_nil (fun reply => not_answer_of_only _ (beginReload_only C w.actor env) (by simp))]
      refine .waits (.reload _ hphase hused' (fun slot => habsent slot ?_))
      rw [hactor]
      cases slot <;> rfl

theorem Stepped.given (hstep : Stepped C W w input w' effects) :
    n ∈ w'.resps ↔ n ∈ w.resps ∨ input.resp = some n := by
  rw [hstep.resps]
  cases input with
  | event | reloadEnd => simp [World.respsAfter, Input.resp]
  | reload env resp buildError => simp [World.respsAfter, Input.resp, or_comm, eq_comm]
  | command env command =>
    simp only [World.respsAfter, Input.resp]
    cases command.resp with
    | none => simp
    | some resp => simp [or_comm, eq_comm]

end Steps

/-! ## Runs -/

section Runs

variable {C : Crypto} {W : Wire} {config : NodeConfig} {nodes : List Multiaddr} {keypair : Bytes} {keys : Option PqKeys}

/-- **Every channel that has been given is accounted for**, after every run. -/
theorem accounted_run (inputs : List Input) (w : World)
    (hrun : (swarmActor C W config nodes keypair keys).run inputs = some w) (n : Nat) :
    (n ∈ w.resps ↔ ∃ input ∈ inputs, input.resp = some n) ∧
      (n ∈ w.resps → Accounted n w (answersTo n ((swarmActor C W config nodes keypair keys).outputs (World.effects C W)
        (swarmActor C W config nodes keypair keys).init inputs))) := by
  refine ((swarmActor C W config nodes keypair keys).history_invariant
    (P := fun inputs w => (swarmActor C W config nodes keypair keys).run inputs = some w ∧
      (n ∈ w.resps ↔ ∃ input ∈ inputs, input.resp = some n) ∧
      (n ∈ w.resps → Accounted n w (answersTo n ((swarmActor C W config nodes keypair keys).outputs (World.effects C W)
        (swarmActor C W config nodes keypair keys).init inputs))))
    ⟨rfl, ⟨fun h => absurd h (Finset.notMem_empty n), fun ⟨_, h, _⟩ => (by cases h)⟩,
      fun h => absurd h (Finset.notMem_empty n)⟩ ?_ inputs w hrun (Machine.meets_true _ _ _)).2
  rintro inputs w input w' ⟨hbefore, hgiven, haccounted⟩ - hmachine
  have hstep := stepped_of_step hmachine
  obtain ⟨hused, hnone⟩ := answers_used inputs w hbefore
  refine ⟨(Machine.runFrom_concat _).2 ⟨w, hbefore, hmachine⟩, ?_, fun hn => ?_⟩
  · rw [hstep.given, hgiven]
    simp only [List.mem_append, List.mem_singleton, or_and_right, exists_or, exists_eq_left]
  · rw [Machine.outputs_append _ hbefore, Machine.outputs_singleton, answersTo_append]
    by_cases hold : n ∈ w.resps
    · have hsofar := haccounted hold
      generalize answersTo n ((swarmActor C W config nodes keypair keys).outputs (World.effects C W)
        (swarmActor C W config nodes keypair keys).init inputs) = told at hsofar ⊢
      cases hsofar with
      | waits waiting => exact hstep.reply_kept waiting
      | told reply settled =>
        obtain ⟨hsettled, hquiet⟩ := settled.step hstep
        rw [hquiet, List.append_nil]
        exact .told reply hsettled
    · rw [hnone n hold, List.nil_append]
      exact hstep.reply_new hused ((hstep.given.1 hn).resolve_left hold)

end Runs

/-- At the end of a reload nobody waits. -/
theorem not_open_of_reloadEnd {C : Crypto} {W : Wire} {w w' : World} {env : Env} {effects : List Effect} {n : Nat}
    (hstep : Stepped C W w (.reloadEnd env) w' effects) : ¬ Open n w' := by
  intro h
  obtain ⟨holder, hholder, -⟩ := h.holder
  have hhandled := hstep.handledAs
  generalize hactor : w'.actor = actor at hhandled
  generalize hphase : w'.phase = phase at hhandled
  cases hhandled with
  | reloadEnds env resp swarm hreloading =>
    cases holder with
    | slot slot =>
      rw [World.holder, hactor] at hholder
      cases slot <;> simp [SwarmActor.waiter, SwarmActor.finishReload] at hholder
    | reload => simp [World.holder, hphase] at hholder

/-- **Every command is answered once.**  In every run of the actor and for every reply channel: one that no command has
brought has been sent nothing and is held nowhere; one that has been brought has either been sent nothing and is held in
exactly one place, or has been sent exactly one reply and is held nowhere; and when a reload ends, every channel that has
been brought has been sent its reply. -/
theorem commands_answered_once (C : Crypto) (W : Wire) (config : NodeConfig) (nodes : List Multiaddr) (keypair : Bytes)
    (keys : Option PqKeys) (inputs : List Input) (w : World)
    (hrun : (swarmActor C W config nodes keypair keys).run inputs = some w) (n : Nat) :
    let told := answersTo n ((swarmActor C W config nodes keypair keys).outputs (World.effects C W)
      (.new config nodes keypair keys) inputs)
    ((∀ input ∈ inputs, input.resp ≠ some n) → told = [] ∧ ∀ holder, w.holder holder ≠ some n) ∧
    ((∃ input ∈ inputs, input.resp = some n) →
      told = [] ∧ (∃! holder, w.holder holder = some n) ∨
        (∃ reply, told = [reply]) ∧ ∀ holder, w.holder holder ≠ some n) ∧
    (∀ before env, inputs = before ++ [.reloadEnd env] → (∃ input ∈ inputs, input.resp = some n) →
      ∃ reply, told = [reply]) := by
  obtain ⟨hused, hnone⟩ := answers_used inputs w hrun
  obtain ⟨hgiven, haccounted⟩ := accounted_run inputs w hrun n
  refine ⟨fun hnot => ?_, fun hin => ?_, fun before env hend hin => ?_⟩
  · have habsent : n ∉ w.resps := fun hn => by
      obtain ⟨input, hmem, hresp⟩ := hgiven.1 hn
      exact hnot input hmem hresp
    refine ⟨hnone n habsent, fun holder hholder => habsent ?_⟩
    cases holder with
    | slot slot => exact hused.slots slot n hholder
    | reload =>
      simp only [World.holder] at hholder
      split at hholder
      · cases hholder
      · rename_i resp swarm hphase
        exact Option.some.inj hholder ▸ hused.phase resp swarm hphase
  · have hsofar := haccounted (hgiven.2 hin)
    generalize htold : answersTo n _ = told at hsofar
    cases hsofar with
    | waits waiting => exact .inl ⟨htold, waiting.holder⟩
    | told reply settled => exact .inr ⟨⟨reply, htold⟩, settled.holder⟩
  · have hsofar := haccounted (hgiven.2 hin)
    generalize htold : answersTo n _ = told at hsofar
    cases hsofar with
    | waits waiting =>
      subst hend
      obtain ⟨m, -, hlast⟩ := (Machine.runFrom_concat _).1 hrun
      exact absurd waiting (not_open_of_reloadEnd (stepped_of_step hlast))
    | told reply settled => exact ⟨reply, htold⟩

/-- A query and a service request are under way when a reload comes. -/
def reloadedRun : List Input :=
  [.command (quietEnv plainConfig) (.kadGetProviders [1] 0),
    .command (quietEnv plainConfig) (.serviceSendRequest [7] ⟨"cmd", [1]⟩ [] 1),
    .reload (quietEnv plainConfig) 2 none, .reloadEnd (quietEnv plainConfig)]

theorem reload_tells_all : ∃ w,
    let M := swarmActor Pq.plainCrypto Pq.cborWire plainConfig [] [] none
    M.run reloadedRun = some w ∧ ∀ n ∈ [0, 1, 2], ∃ reply,
      answersTo n (M.outputs (World.effects Pq.plainCrypto Pq.cborWire) (.new plainConfig [] [] none) reloadedRun) =
        [reply] := by
  obtain ⟨w, hrun⟩ := Option.isSome_iff_exists.1 (by decide +kernel :
    ((swarmActor Pq.plainCrypto Pq.cborWire plainConfig [] [] none).run reloadedRun).isSome = true)
  refine ⟨w, hrun, fun n hn => ?_⟩
  obtain ⟨-, -, hreload⟩ := commands_answered_once Pq.plainCrypto Pq.cborWire plainConfig [] [] none reloadedRun w hrun n
  refine hreload (reloadedRun.take 3) (quietEnv plainConfig) rfl ?_
  simp only [List.mem_cons, List.not_mem_nil, or_false] at hn
  rcases hn with rfl | rfl | rfl <;> simp [reloadedRun, Input.resp, Command.resp]

end Actor
end NexusNet
