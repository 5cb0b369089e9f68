import NexusNet.ActorPolicy
import NexusNet.Inbound
/-!
# InboundAnswers — one answer to every request, and a refused request hears its refusal

Two response commands race for every refused request: the one of the task that refuses it, and the one of the waiting
task, whose sender is dropped.  The first is in the queue before the sender is dropped, so the actor meets it first
(`Sound.first`).  `inbound_safe` puts this together with the channels of the actor (`ActorInbound`).
-/
namespace NexusNet
namespace Inbound

open Actor (World Input Command Effect Job Env SwarmEvent Stepped reloadRejectionResponse)
open Pq (Crypto Wire PqKeys)

/-- The response of the first command that names a request. -/
def firstResponse (id : String) (commands : List Command) : Option Response :=
  commands.findSome? (fun
    | .serviceSendResponse requestId response => if requestId = id then some response else none
    | _ => none)

theorem firstResponse_append (id : String) (commands : List Command) (command : Command) :
    firstResponse id (commands ++ [command]) = (firstResponse id commands).or (firstResponse id [command]) :=
  List.findSome?_append

theorem firstResponse_self (id : String) (response : Response) (commands : List Command) :
    firstResponse id (.serviceSendResponse id response :: commands) = some response := by
  simp [firstResponse]

theorem firstResponse_ne {id id' : String} (h : id' ≠ id) (response : Response) (commands : List Command) :
    firstResponse id (.serviceSendResponse id' response :: commands) = firstResponse id commands := by
  simp [firstResponse, h]

/-- Something of the system names the request. -/
def System.Knows (s : System) (id : String) : Prop :=
  (s.replies.lookup id).isSome ∨ (firstResponse id s.commands).isSome ∨ (s.refused.lookup id).isSome ∨
    id ∈ s.forwarded ∨ (s.channels.lookup id).isSome

/-- **What every step keeps.**  `sent` is what has been answered on inbound channels. -/
structure Sound (sent : List (Nat × Option Response)) (s : System) : Prop where
  apart : s.jobs.Apart Job.requestId
  waiting : ∀ p job, job ∈ s.jobs p → s.replies.lookup job.requestId = some .waiting
  /-- A request on its way has not been refused, and no response command names it. -/
  quiet : ∀ p job, job ∈ s.jobs p → p ≠ .dropping →
    s.refused.lookup job.requestId = none ∧ firstResponse job.requestId s.commands = none
  known : ∀ id, s.Knows id → id ∈ s.world.requestIds
  /-- While a refused request waits to be answered, its refusal is the first command that names it. -/
  first : ∀ id refusal, s.refused.lookup id = some refusal → s.world.actor.pendingInbound.lookup id ≠ none →
    firstResponse id s.commands = some refusal.response
  onward : ∀ id ∈ s.forwarded, s.refused.lookup id = none ∧
    ∀ p job, job ∈ s.jobs p → job.requestId = id → p = .dispatcher ∨ p = .held ∨ p = .dropping
  queued : ∀ job, job ∈ s.jobs .dispatcher → job.requestId ∈ s.forwarded
  entry : ∀ id entry, s.world.actor.pendingInbound.lookup id = some entry →
    s.channels.lookup id = some entry.pending.channel
  channel : ∀ id c, s.channels.lookup id = some c → c ∈ s.world.channels
  injective : ∀ id id' c, s.channels.lookup id = some c → s.channels.lookup id' = some c → id = id'
  answered : ∀ a ∈ sent, a.1 ∈ s.world.channels
  told : ∀ id c response, s.channels.lookup id = some c → (c, response) ∈ sent →
    (∀ refusal, s.refused.lookup id = some refusal →
      response = some refusal.response ∨ response = some reloadRejectionResponse) ∧
    ∀ p job, job ∈ s.jobs p → job.requestId = id → p ≠ .dropping → response = some reloadRejectionResponse

section Operations

variable {sent : List (Nat × Option Response)} {s : System} {job : Job} {p q : Place}

/-- A command that is not a response names no request. -/
theorem Sound.post (h : Sound sent s) {command : Command} (hother : ∀ id, firstResponse id [command] = none) :
    Sound sent { s with commands := s.commands ++ [command] } := by
  have hsame : ∀ id, firstResponse id (s.commands ++ [command]) = firstResponse id s.commands := fun id => by
    rw [firstResponse_append, hother, Option.or_none]
  refine { h with quiet := fun p job hjob hp => ?_, known := fun id hid => ?_, first := fun id refusal hrefused hentry => ?_ }
  · simp only [hsame]
    exact h.quiet p job hjob hp
  · simp only [System.Knows, hsame] at hid
    exact h.known id hid
  · simp only [hsame]
    exact h.first id refusal hrefused hentry

/-- **A request moves on**; `forwarded` are those that have reached the dispatcher's queue by then. -/
theorem Sound.shift (h : Sound sent s) (hjob : job ∈ s.jobs p) (hp : p ≠ .dropping ∨ q = .dropping)
    {forwarded : Finset String} (hsub : s.forwarded ⊆ forwarded)
    (hnew : ∀ id ∈ forwarded, id ∈ s.forwarded ∨ id = job.requestId ∧ p ≠ .dropping)
    (hq : job.requestId ∈ forwarded → q = .dispatcher ∨ q = .held ∨ q = .dropping)
    (hd : q = .dispatcher → job.requestId ∈ forwarded) : Sound sent { s.shift job p q with forwarded := forwarded } := by
  have hquiet : q ≠ .dropping → p ≠ .dropping := fun hne => hp.resolve_right hne
  refine { h with
    apart := h.apart.shift hjob q, waiting := fun r j hj => ?_, quiet := fun r j hj hr => ?_
    known := fun id hid => ?_, onward := fun id hid => ⟨?_, fun r j hj heq => ?_⟩, queued := fun j hj => ?_
    told := fun id c response hc hsent => ⟨(h.told id c response hc hsent).1, fun r j hj heq hr => ?_⟩ }
  · rcases h.apart.mem_shift hjob hj with ⟨-, rfl⟩ | ⟨hold, -⟩
    · exact h.waiting p j hjob
    · exact h.waiting r j hold
  · rcases h.apart.mem_shift hjob hj with ⟨rfl, rfl⟩ | ⟨hold, -⟩
    · exact h.quiet p j hjob (hquiet hr)
    · exact h.quiet r j hold hr
  · rcases hid with hid | hid | hid | hid | hid
    · exact h.known id (.inl hid)
    · exact h.known id (.inr (.inl hid))
    · exact h.known id (.inr (.inr (.inl hid)))
    · rcases hnew id hid with hold | ⟨rfl, -⟩
      · exact h.known id (.inr (.inr (.inr (.inl hold))))
      · exact h.known _ (.inl (by rw [h.waiting p job hjob]; rfl))
    · exact h.known id (.inr (.inr (.inr (.inr hid))))
  · rcases hnew id hid with hold | ⟨rfl, hdrop⟩
    · exact (h.onward id hold).1
    · exact (h.quiet p job hjob hdrop).1
  · rcases h.apart.mem_shift hjob hj with ⟨rfl, rfl⟩ | ⟨hplace, hne⟩
    · exact hq (heq ▸ hid)
    · rcases hnew id hid with hold | ⟨rfl, -⟩
      · exact (h.onward id hold).2 r j hplace heq
      · exact absurd heq hne
  · rcases h.apart.mem_shift hjob hj with ⟨heq, rfl⟩ | ⟨hold, -⟩
    · exact hd heq.symm
    · exact hsub (h.queued j hold)
  · rcases h.apart.mem_shift hjob hj with ⟨rfl, rfl⟩ | ⟨hold, -⟩
    · exact (h.told id c response hc hsent).2 p j hjob heq (hquiet hr)
    · exact (h.told id c response hc hsent).2 r j hold heq hr

/-- **A request is refused**: the refusal is queued before anything else that names it. -/
theorem Sound.refuse (h : Sound sent s) (hjob : job ∈ s.jobs p) (hp : p ≠ .dropping)
    (hnew : job.requestId ∉ s.forwarded) (refusal : Refusal) : Sound sent (s.refuse job p refusal) := by
  obtain ⟨hnone, hfirst⟩ := h.quiet p job hjob hp
  have hother : ∀ id, id ≠ job.requestId →
      firstResponse id (s.commands ++ [.serviceSendResponse job.requestId refusal.response]) =
        firstResponse id s.commands := fun id hne => by
    rw [firstResponse_append, firstResponse_ne (Ne.symm hne)]
    exact Option.or_none
  have hself : firstResponse job.requestId (s.commands ++ [.serviceSendResponse job.requestId refusal.response]) =
      some refusal.response := by
    rw [firstResponse_append, hfirst, firstResponse_self]
    rfl
  have hrefused : ∀ id, id ≠ job.requestId → (s.refused.insert job.requestId refusal).lookup id = s.refused.lookup id :=
    fun id hne => by rw [Dict.lookup_insert_ite, if_neg hne]
  have hknown : job.requestId ∈ s.world.requestIds := h.known _ (.inl (by rw [h.waiting p job hjob]; rfl))
  refine { h with
    apart := h.apart.shift hjob .dropping, waiting := fun r j hj => ?_, quiet := fun r j hj hr => ?_
    known := fun id hid => ?_, first := fun id refusal' hid hentry => ?_, onward := fun id hid => ?_
    queued := fun j hj => ?_
    told := fun id c response hc hsent => ⟨fun refusal' hid => ?_, fun r j hj heq hr => ?_⟩ }
  · rcases h.apart.mem_shift hjob hj with ⟨-, rfl⟩ | ⟨hold, -⟩
    · exact h.waiting p j hjob
    · exact h.waiting r j hold
  · rcases h.apart.mem_shift hjob hj with ⟨rfl, -⟩ | ⟨hold, hne⟩
    · exact absurd rfl hr
    · exact ⟨(hrefused _ hne).trans (h.quiet r j hold hr).1, (hother _ hne).trans (h.quiet r j hold hr).2⟩
  · by_cases hne : id = job.requestId
    · rw [hne]
      exact hknown
    · simp only [System.Knows, System.refuse, hother id hne, hrefused id hne] at hid
      exact h.known id hid
  · by_cases hne : id = job.requestId
    · subst hne
      simp only [System.refuse, Dict.lookup_insert_ite, if_true, Option.some.injEq] at hid
      rw [← hid]
      exact hself
    · simp only [System.refuse, hrefused id hne] at hid
      exact (hother id hne).trans (h.first id refusal' hid hentry)
  · have hne : id ≠ job.requestId := fun heq => hnew (heq ▸ hid)
    refine ⟨(hrefused id hne).trans (h.onward id hid).1, fun r j hj heq => ?_⟩
    rcases h.apart.mem_shift hjob hj with ⟨rfl, -⟩ | ⟨hold, -⟩
    · exact .inr (.inr rfl)
    · exact (h.onward id hid).2 r j hold heq
  · have hj : j ∈ s.jobs.shift job p .dropping .dispatcher := hj
    rcases h.apart.mem_shift hjob hj with ⟨heq, -⟩ | ⟨hold, -⟩
    · cases heq
    · exact h.queued j hold
  · by_cases hne : id = job.requestId
    · -- what it has been told while on its way is a rejection
      exact .inr ((h.told id c response hc hsent).2 p job hjob hne.symm hp)
    · simp only [System.refuse, hrefused id hne] at hid
      exact (h.told id c response hc hsent).1 refusal' hid
  · rcases h.apart.mem_shift hjob hj with ⟨rfl, -⟩ | ⟨hold, -⟩
    · exact absurd rfl hr
    · exact (h.told id c response hc hsent).2 r j hold heq hr

/-- **A reply channel hears something.** -/
theorem Sound.finish (h : Sound sent s) (hjob : job ∈ s.jobs p) (reply : Oneshot) : Sound sent (s.finish job p reply) := by
  refine { h with
    apart := h.apart.remove job p, waiting := fun r j hj => ?_
    quiet := fun r j hj hr => h.quiet r j (Places.mem_of_mem_remove hj) hr, known := fun id hid => ?_
    onward := fun id hid => ⟨(h.onward id hid).1, fun r j hj => (h.onward id hid).2 r j (Places.mem_of_mem_remove hj)⟩
    queued := fun j hj => h.queued j (Places.mem_of_mem_remove hj)
    told := fun id c response hc hsent => ⟨(h.told id c response hc hsent).1,
      fun r j hj => (h.told id c response hc hsent).2 r j (Places.mem_of_mem_remove hj)⟩ }
  · rw [System.finish, Dict.lookup_insert_ite, if_neg (h.apart.key_ne hjob hj)]
    exact h.waiting r j (Places.mem_of_mem_remove hj)
  · rcases hid with hid | hid
    · simp only [System.finish, Dict.lookup_insert_ite] at hid
      split at hid
      · rename_i heq
        rw [heq]
        exact h.known _ (.inl (by rw [h.waiting p job hjob]; rfl))
      · exact h.known id (.inl hid)
    · exact h.known id (.inr hid)

/-- **A waiting task sends what it has heard**; no request on its way has its name. -/
theorem Sound.wake (h : Sound sent s) {id : String} {reply : Oneshot} {response : Response}
    (hreply : s.replies.lookup id = some reply) (hresponse : reply.response = some response) :
    Sound sent { s with
      commands := s.commands ++ [.serviceSendResponse id response], replies := s.replies.insert id .done } := by
  have hne : ∀ r j, j ∈ s.jobs r → j.requestId ≠ id := by
    rintro r j hj rfl
    rw [h.waiting r j hj] at hreply
    cases hreply
    cases hresponse
  have hother : ∀ id', id' ≠ id →
      firstResponse id' (s.commands ++ [.serviceSendResponse id response]) = firstResponse id' s.commands :=
    fun id' hne => by
    rw [firstResponse_append, firstResponse_ne (Ne.symm hne)]
    exact Option.or_none
  have hknown : id ∈ s.world.requestIds := h.known id (.inl (by rw [hreply]; rfl))
  refine { h with
    waiting := fun r j hj => ?_, quiet := fun r j hj hr => ?_, known := fun id' hid => ?_
    first := fun id' refusal hrefused hentry => ?_ }
  · rw [Dict.lookup_insert_ite, if_neg (hne r j hj)]
    exact h.waiting r j hj
  · exact ⟨(h.quiet r j hj hr).1, (hother _ (hne r j hj)).trans (h.quiet r j hj hr).2⟩
  · by_cases heq : id' = id
    · rw [heq]
      exact hknown
    · simp only [System.Knows, hother id' heq, Dict.lookup_insert_ite, if_neg heq] at hid
      exact h.known id' hid
  · simp only [firstResponse_append, h.first id' refusal hrefused hentry, Option.some_or]

end Operations

section ActorSteps

variable {C : Crypto} {W : Wire} {sent : List (Nat × Option Response)} {s : System} {input : Input} {world : World}
  {effects : List Effect} {commands : List Command}

/-- What a step of the actor answers to a request that waits. -/
theorem Sound.told_now (h : Sound sent s) (hstep : Stepped C W s.world input world effects)
    (hhead : ∀ env id response, input = .command env (.serviceSendResponse id response) →
      firstResponse id s.commands = some response) {id : String} {c : Nat} {response : Option Response}
    (hc : s.channels.lookup id = some c) (hsent : (c, response) ∈ Actor.responses effects) :
    (∀ refusal, s.refused.lookup id = some refusal →
      response = some refusal.response ∨ response = some reloadRejectionResponse) ∧
    ∀ p job, job ∈ s.jobs p → job.requestId = id → p ≠ .dropping → response = some reloadRejectionResponse := by
  rcases hstep.answered hsent with hown | ⟨env, requestId, response', entry, hinput, hentry, heq⟩ | ⟨_, _, _, heq⟩
  · exact absurd (h.channel id c hc) hown.1
  · -- the command is the first that names the request
    obtain ⟨rfl, rfl⟩ := Prod.mk.inj heq
    obtain rfl := h.injective _ _ _ (h.entry requestId entry hentry) hc
    have hfirst := hhead env requestId response' hinput
    refine ⟨fun refusal hrefused => .inl ?_, fun p job hjob hid hp => ?_⟩
    · rw [h.first requestId refusal hrefused (by rw [hentry]; exact Option.some_ne_none _)] at hfirst
      exact hfirst.symm
    · rw [← hid, (h.quiet p job hjob hp).2] at hfirst
      cases hfirst
  · obtain ⟨rfl, rfl⟩ := Prod.mk.inj heq
    exact ⟨fun _ _ => .inr rfl, fun _ _ _ _ _ => rfl⟩

theorem Sound.answered_now (h : Sound sent s) (hstep : Stepped C W s.world input world effects)
    {a : Nat × Option Response} (ha : a ∈ sent ++ Actor.responses effects) : a.1 ∈ world.channels := by
  rcases List.mem_append.1 ha with ha | ha
  · exact hstep.channels_mono (h.answered a ha)
  · rcases hstep.answered ha with hown | ⟨_, requestId, _, entry, -, hentry, rfl⟩ | ⟨requestId, entry, hentry, rfl⟩
    · exact hown.2
    · exact hstep.channels_mono (h.channel _ _ (h.entry requestId entry hentry))
    · exact hstep.channels_mono (h.channel _ _ (h.entry requestId entry hentry))

theorem requestIds_mono (hstep : Stepped C W s.world input world effects) : s.world.requestIds ⊆ world.requestIds := by
  rw [hstep.requestIds]
  exact Finset.subset_union_left

/-- **A command is taken off the queue** that is not the first to name a request that waits. -/
theorem Sound.take (h : Sound sent s)
    (hsame : ∀ id, s.world.actor.pendingInbound.lookup id ≠ none →
      firstResponse id commands = firstResponse id s.commands)
    (hsuffix : ∀ id, firstResponse id s.commands = none → firstResponse id commands = none) :
    Sound sent { s with commands := commands } := by
  refine { h with quiet := fun p j hj hp => ?_, known := fun id hid => ?_, first := fun id refusal hid hentry => ?_ }
  · exact ⟨(h.quiet p j hj hp).1, hsuffix _ (h.quiet p j hj hp).2⟩
  · rcases hid with hid | hid | hid
    · exact h.known id (.inl hid)
    · refine h.known id (.inr (.inl ?_))
      cases hfirst : firstResponse id s.commands with
      | none => simp [hsuffix id hfirst] at hid
      | some response => rfl
    · exact h.known id (.inr (.inr hid))
  · exact (hsame id hentry).trans (h.first id refusal hid hentry)

/-- The actor handles an input and admits nothing. -/
theorem Sound.handled (h : Sound sent s) (hstep : Stepped C W s.world input world effects)
    (hold : ∀ id entry, world.actor.pendingInbound.lookup id = some entry →
      s.world.actor.pendingInbound.lookup id = some entry)
    (hhead : ∀ env id response, input = .command env (.serviceSendResponse id response) →
      firstResponse id s.commands = some response) :
    Sound (sent ++ Actor.responses effects) { s with world := world } := by
  refine { h with
    known := fun id hid => requestIds_mono hstep (h.known id hid)
    first := fun id refusal hrefused hentry => ?_
    entry := fun id entry hentry => h.entry id entry (hold id entry hentry)
    channel := fun id c hc => hstep.channels_mono (h.channel id c hc)
    answered := fun a ha => h.answered_now hstep ha
    told := fun id c response hc hsent => ?_ }
  · obtain ⟨entry, hlookup⟩ := Option.ne_none_iff_exists'.1 hentry
    exact h.first id refusal hrefused (by rw [hold id entry hlookup]; exact Option.some_ne_none _)
  · rcases List.mem_append.1 hsent with hsent | hsent
    · exact h.told id c response hc hsent
    · exact h.told_now hstep hhead hc hsent

/-- **A request is admitted**: it has a name nothing knows, and a channel nothing was answered on. -/
theorem Sound.admitted (h : Sound sent s) {entry : Actor.PendingInboundEntry} {job : Job}
    (hids : s.world.requestIds ⊆ world.requestIds) (hchannels : s.world.channels ⊆ world.channels)
    (hin : job.requestId ∈ world.requestIds) (hnew : job.requestId ∉ s.world.requestIds)
    (hchannel : entry.pending.channel ∈ world.channels) (hfresh : entry.pending.channel ∉ s.world.channels)
    (htable : world.actor.pendingInbound = s.world.actor.pendingInbound.insert job.requestId entry) :
    Sound sent { s with
      world := world
      jobs := s.jobs.add .controller job
      replies := s.replies.insert job.requestId .waiting
      channels := s.channels.insert job.requestId entry.pending.channel } := by
  have hunknown : ¬ s.Knows job.requestId := fun hid => hnew (h.known _ hid)
  simp only [System.Knows, not_or, Option.not_isSome_iff_eq_none] at hunknown
  obtain ⟨hreplies, hfirst, hrefused, hforwarded, -⟩ := hunknown
  have hne : ∀ p j, j ∈ s.jobs p → j.requestId ≠ job.requestId := fun p j hj heq => by
    rw [← heq, h.waiting p j hj] at hreplies
    cases hreplies
  refine ⟨h.apart.add hne .controller, fun p j hj => ?_, fun p j hj hp => ?_, fun id hid => ?_,
    fun id refusal hid hentry => ?_, fun id hid => ⟨(h.onward id hid).1, fun p j hj heq => ?_⟩, fun j hj => ?_,
    fun id entry' hentry => ?_, fun id c hc => ?_, fun id id' c hc hc' => ?_, fun a ha => hchannels (h.answered a ha),
    fun id c response hc hsent => ?_⟩
  · rw [Dict.lookup_insert_ite]
    rcases Places.mem_add.1 hj with ⟨-, rfl⟩ | hold
    · exact if_pos rfl
    · rw [if_neg (hne p j hold)]
      exact h.waiting p j hold
  · rcases Places.mem_add.1 hj with ⟨-, rfl⟩ | hold
    · exact ⟨hrefused, hfirst⟩
    · exact h.quiet p j hold hp
  · by_cases heq : id = job.requestId
    · rw [heq]
      exact hin
    · simp only [System.Knows, Dict.lookup_insert_ite, if_neg heq] at hid
      exact hids (h.known id hid)
  · have heq : id ≠ job.requestId := fun heq => by
      rw [heq, hrefused] at hid
      cases hid
    rw [htable, Dict.lookup_insert_ite, if_neg heq] at hentry
    exact h.first id refusal hid hentry
  · rcases Places.mem_add.1 hj with ⟨-, rfl⟩ | hold
    · exact absurd (heq ▸ hid) hforwarded
    · exact (h.onward id hid).2 p j hold heq
  · have hj : j ∈ s.jobs.add .controller job .dispatcher := hj
    rcases Places.mem_add.1 hj with ⟨heq, -⟩ | hold
    · cases heq
    · exact h.queued j hold
  · rw [htable, Dict.lookup_insert_ite] at hentry
    rw [Dict.lookup_insert_ite]
    split at hentry
    · rename_i heq
      cases hentry
      exact if_pos heq
    · rename_i heq
      rw [if_neg heq]
      exact h.entry id entry' hentry
  · rw [Dict.lookup_insert_ite] at hc
    split at hc
    · cases hc
      exact hchannel
    · exact hchannels (h.channel id c hc)
  · rw [Dict.lookup_insert_ite] at hc hc'
    split at hc
    · rename_i heq
      cases hc
      split at hc'
      · rename_i heq'
        exact heq.trans heq'.symm
      · exact absurd (h.channel id' _ hc') hfresh
    · split at hc'
      · cases hc'
        exact absurd (h.channel id _ hc) hfresh
      · exact h.injective id id' c hc hc'
  · rw [Dict.lookup_insert_ite] at hc
    split at hc
    · cases hc
      exact absurd (h.answered _ hsent) hfresh
    · rename_i heq
      refine ⟨(h.told id c response hc hsent).1, fun p j hj hid hp => ?_⟩
      rcases Places.mem_add.1 hj with ⟨-, rfl⟩ | hold
      · exact absurd hid.symm heq
      · exact (h.told id c response hc hsent).2 p j hold hid hp

/-- **The actor handles an input.**  `commands` is the queue after it. -/
theorem Sound.actor (h : Sound sent s) (hstep : Stepped C W s.world input world effects)
    (hsame : ∀ id, world.actor.pendingInbound.lookup id ≠ none →
      firstResponse id commands = firstResponse id s.commands)
    (hsuffix : ∀ id, firstResponse id s.commands = none → firstResponse id commands = none)
    (hhead : ∀ env id response, input = .command env (.serviceSendResponse id response) →
      firstResponse id s.commands = some response) :
    Sound (sent ++ Actor.responses effects) ({ s with commands := commands }.admitAll input world effects) := by
  rcases hstep.admission with ⟨hadmitted, hawaited, hold⟩ |
    ⟨env, event, entry, job, rfl, hinbound, hadmitted, hawaited, hresponses, hnew, htable⟩
  · simp only [System.admitAll, hadmitted, hawaited, List.foldl_nil]
    exact (h.handled hstep hold hhead).take hsame hsuffix
  · obtain ⟨-, hfresh, hchannel, -⟩ := hstep.inbound hinbound
    have hin : job.requestId ∈ world.requestIds := by
      have hmem : job.requestId ∈ (Actor.awaited effects).toFinset := by simp [hawaited]
      rw [hstep.requestIds]
      exact Finset.mem_union_right _ hmem
    have hinput : System.inputChannel (.event env event) = some entry.pending.channel := by
      simp only [System.inputChannel, hinbound, Option.map_some]
    have hadd := h.admitted (requestIds_mono hstep) hstep.channels_mono hin hnew hchannel hfresh htable
    rw [hresponses, List.append_nil]
    simp only [System.admitAll, hadmitted, hawaited, hinput, List.foldl_cons, List.foldl_nil, Option.elim_some]
    exact hadd.take hsame hsuffix

end ActorSteps

/-! ## Steps -/

/-- A place on the far side of the dispatcher's queue, or at the end. -/
def Place.Onward (p : Place) : Prop := p = .dispatcher ∨ p = .held ∨ p = .dropping

/-- How the actor comes by an input: from the head of the queue, or without it. -/
inductive Taken (before after : List Command) (input : Input) : Prop where
  | beside (same : after = before) (other : ∀ env command, input ≠ .command env command)
  | other (command : Command) (head : before = command :: after) (names : ∀ id, firstResponse id [command] = none)
      (other : ∀ env id response, input ≠ .command env (.serviceSendResponse id response))
  | response (env : Env) (id : String) (response : Response) (head : before = .serviceSendResponse id response :: after)
      (given : input = .command env (.serviceSendResponse id response))

/-- **What a step does**, to the part of the system that the results are about: what it gives the actor, and what it
answers. -/
inductive Acts (C : Crypto) (W : Wire) (s : System) : Option Input → List (Nat × Option Response) → System → Prop where
  | actor (input : Input) (world : World) (effects : List Effect) (commands : List Command)
      (next : s.world.next C W input = some (world, effects)) (taken : Taken s.commands commands input) :
      Acts C W s (some input) (Actor.responses effects) ({ s with commands := commands }.admitAll input world effects)
  | post (command : Command) (names : ∀ id, firstResponse id [command] = none) :
      Acts C W s none [] { s with commands := s.commands ++ [command] }
  | shift (job : Job) (p q : Place) (n : Nat) (there : job ∈ s.jobs p)
      (along : ¬ p.Onward ∧ ¬ q.Onward ∨ q = .held ∧ p ≠ .dropping ∨ q = .dropping) :
      Acts C W s none [] { s.shift job p q with authNext := n }
  | forward (job : Job) (p : Place) (there : job ∈ s.jobs p) (before : ¬ p.Onward) :
      Acts C W s none [] { s.shift job p .dispatcher with forwarded := insert job.requestId s.forwarded }
  | refuse (job : Job) (p : Place) (refusal : Refusal) (n : Nat) (there : job ∈ s.jobs p) (before : ¬ p.Onward) :
      Acts C W s none [] { s.refuse job p refusal with authNext := n }
  | finish (job : Job) (p : Place) (reply : Oneshot) (there : job ∈ s.jobs p) : Acts C W s none [] (s.finish job p reply)
  | wake (id : String) (reply : Oneshot) (response : Response) (heard : s.replies.lookup id = some reply)
      (told : reply.response = some response) :
      Acts C W s none [] { s with
        commands := s.commands ++ [.serviceSendResponse id response], replies := s.replies.insert id .done }
  | ends (task : Task) : Acts C W s none [] { s with ended := insert task s.ended }

section Steps

variable {C : Crypto} {W : Wire} {s s' : System} {e : Event}

theorem mem_of_next {p : Place} {job : Job} (h : s.next p = some job) : job ∈ s.jobs p := by
  unfold System.next at h
  split at h
  · cases h
  · exact List.mem_of_mem_head? h

theorem acts_of_actorStep {input : Input} {commands : List Command} (hinput : s.actorInput e = some input)
    (htaken : Taken s.commands commands input) (h : { s with commands := commands }.actorStep C W input = some s') :
    Acts C W s (s.actorInput e) (s.answers C W e) s' := by
  obtain ⟨⟨world, effects⟩, hnext, rfl⟩ := Option.map_eq_some_iff.1 h
  have hanswers : s.answers C W e = Actor.responses effects := by
    simp only [System.answers, hinput, Option.elim_some, World.effects]
    rw [hnext]
    rfl
  rw [hanswers, hinput]
  exact .actor input world effects commands hnext htaken

theorem acts_of_command {env : Env} {buildError : Option NetworkError}
    (h : s.step C W (.command env buildError) = some s') :
    Acts C W s (s.actorInput (.command env buildError)) (s.answers C W (.command env buildError)) s' := by
  obtain ⟨input, hinput, h⟩ := Option.bind_eq_some_iff.1 h
  refine acts_of_actorStep hinput ?_ h
  obtain ⟨command, hhead, rfl⟩ := Option.map_eq_some_iff.1 hinput
  cases hcommands : s.commands with
  | nil => simp [hcommands] at hhead
  | cons c rest =>
    rw [hcommands] at hhead
    cases hhead
    cases command with
    | serviceSendResponse id response => exact .response env id response rfl rfl
    | _ => exact .other _ rfl (fun _ => rfl) (fun _ _ _ h => (by cases h))

theorem acts_of_step (h : s.step C W e = some s') : Acts C W s (s.actorInput e) (s.answers C W e) s' := by
  cases e with
  | swarm | reloadEnd => exact acts_of_actorStep rfl (.beside rfl (fun _ _ h => (by cases h))) h
  | post command =>
    cases command with
    | serviceSendResponse id response => cases h
    | _ =>
      cases h
      exact .post _ (fun _ => rfl)
  | command env buildError => exact acts_of_command h
  | enqueueAuth =>
    obtain ⟨job, hjob, rfl⟩ := Option.map_eq_some_iff.1 h
    have hin := mem_of_next hjob
    unfold System.enqueueAuth
    simp only
    split
    · exact .refuse job .controller .unavailable _ hin (by simp [Place.Onward])
    · split
      · exact .shift job .controller _ _ hin (.inl (by simp [Place.Onward]))
      · exact .refuse job .controller .overloaded _ hin (by simp [Place.Onward])
  | receive i =>
    obtain ⟨-, h⟩ := Option.ite_none_right_eq_some.1 h
    obtain ⟨job, hjob, rfl⟩ := Option.map_eq_some_iff.1 h
    exact .shift job _ _ s.authNext (mem_of_next hjob) (.inl (by simp [Place.Onward]))
  | authorized i decision =>
    obtain ⟨job, hjob, rfl⟩ := Option.map_eq_some_iff.1 h
    have hin := mem_of_next hjob
    cases decision with
    | deny reason => exact .refuse job _ (.denied reason) s.authNext hin (by simp [Place.Onward])
    | _ => exact .shift job _ _ s.authNext hin (.inl (by simp [Place.Onward]))
  | forward i =>
    obtain ⟨job, hjob, h⟩ := Option.bind_eq_some_iff.1 h
    have hin := mem_of_next hjob
    unfold System.forwardAuthJob at h
    split at h
    · cases h
      exact .refuse job _ .undeliverable s.authNext hin (by simp [Place.Onward])
    · obtain ⟨-, h⟩ := Option.ite_none_right_eq_some.1 h
      cases h
      exact .forward job _ hin (by simp [Place.Onward])
  | dispatch =>
    obtain ⟨job, hjob, rfl⟩ := Option.map_eq_some_iff.1 h
    exact .shift job _ _ s.authNext (mem_of_next hjob) (.inr (.inl ⟨rfl, Place.noConfusion⟩))
  | reply job result =>
    obtain ⟨hin, h⟩ := Option.ite_none_right_eq_some.1 h
    cases h
    exact .finish job _ _ hin
  | abandon job =>
    obtain ⟨hin, h⟩ := Option.ite_none_right_eq_some.1 h
    cases h
    exact .shift job _ _ s.authNext hin (.inr (.inr rfl))
  | ends task =>
    cases h
    exact .ends task
  | discard p =>
    obtain ⟨-, h⟩ := Option.ite_none_right_eq_some.1 h
    obtain ⟨job, hjob, rfl⟩ := Option.map_eq_some_iff.1 h
    exact .shift job _ _ s.authNext (List.mem_of_mem_head? hjob) (.inr (.inr rfl))
  | drop =>
    obtain ⟨job, hjob, rfl⟩ := Option.map_eq_some_iff.1 h
    exact .finish job _ _ (List.mem_of_mem_head? hjob)
  | wake id =>
    obtain ⟨response, hresponse, rfl⟩ := Option.map_eq_some_iff.1 h
    obtain ⟨reply, hreply, hresponse⟩ := Option.bind_eq_some_iff.1 hresponse
    exact .wake id reply response hreply hresponse

variable {input : Option Input} {sent answers : List (Nat × Option Response)}

theorem not_forwarded (h : Sound sent s) {job : Job} {p : Place} (hjob : job ∈ s.jobs p) (hp : ¬ p.Onward) :
    job.requestId ∉ s.forwarded := fun hin => hp ((h.onward _ hin).2 p job hjob rfl)

theorem not_dropping {p : Place} (hp : ¬ p.Onward) : p ≠ .dropping := fun heq => hp (.inr (.inr heq))

/-- The commands after an input of the actor, seen from the requests that still wait. -/
theorem Taken.kept {input : Input} {world : World} {effects : List Effect} {commands : List Command}
    (h : Taken s.commands commands input) (hstep : Stepped C W s.world input world effects) :
    (∀ id, world.actor.pendingInbound.lookup id ≠ none → firstResponse id commands = firstResponse id s.commands) ∧
    (∀ id, firstResponse id s.commands = none → firstResponse id commands = none) ∧
    ∀ env id response, input = .command env (.serviceSendResponse id response) →
      firstResponse id s.commands = some response := by
  cases h with
  | beside hsame hother =>
    rw [hsame]
    exact ⟨fun _ _ => rfl, fun _ h => h, fun env id response hinput => absurd hinput (hother _ _)⟩
  | other command hhead hnames hother =>
    have hsame : ∀ id, firstResponse id s.commands = firstResponse id commands := fun id => by
      rw [hhead, ← List.singleton_append, firstResponse, List.findSome?_append]
      have := hnames id
      unfold firstResponse at this ⊢
      rw [this, Option.none_or]
    exact ⟨fun id _ => (hsame id).symm, fun id h => (hsame id).symm.trans h,
      fun env id response hinput => absurd hinput (hother env id response)⟩
  | response env id response hhead hinput =>
    subst hinput
    rw [hhead]
    refine ⟨fun id' hid => ?_, fun id' hnone => ?_, fun env' id' response' heq => ?_⟩
    · -- the request the command names has left the table
      have hne : id ≠ id' := fun heq => hid (heq ▸ hstep.response_done)
      rw [firstResponse_ne hne]
    · by_cases heq : id = id'
      · rw [heq, firstResponse_self] at hnone
        cases hnone
      · rwa [firstResponse_ne heq] at hnone
    · cases heq
      exact firstResponse_self _ _ _

/-- **Every step keeps the invariant.** -/
theorem Sound.step (h : Sound sent s) (hacts : Acts C W s input answers s') : Sound (sent ++ answers) s' := by
  cases hacts with
  | actor input world effects commands hnext htaken =>
    have hstep := Actor.stepped_of_next hnext
    obtain ⟨hsame, hsuffix, hhead⟩ := htaken.kept hstep
    exact h.actor hstep hsame hsuffix hhead
  | post command hnames =>
    rw [List.append_nil]
    exact h.post hnames
  | shift job p q n hjob halong =>
    rw [List.append_nil]
    have hshift : Sound sent { s.shift job p q with forwarded := s.forwarded } := by
      have hnew : ∀ id ∈ s.forwarded, id ∈ s.forwarded ∨ id = job.requestId ∧ p ≠ .dropping := fun _ hid => .inl hid
      rcases halong with ⟨hp, hq⟩ | ⟨rfl, hp⟩ | rfl
      · exact h.shift hjob (.inl (not_dropping hp)) (Finset.Subset.refl _) hnew
          (fun hin => absurd hin (not_forwarded h hjob hp)) (fun heq => absurd (.inl heq) hq)
      · exact h.shift hjob (.inl hp) (Finset.Subset.refl _) hnew (fun _ => .inr (.inl rfl)) Place.noConfusion
      · exact h.shift hjob (.inr rfl) (Finset.Subset.refl _) hnew (fun _ => .inr (.inr rfl)) Place.noConfusion
    exact { hshift with }
  | forward job p hjob hp =>
    rw [List.append_nil]
    refine h.shift hjob (.inl (not_dropping hp)) (Finset.subset_insert _ _) (fun id hid => ?_) (fun _ => .inl rfl)
      (fun _ => Finset.mem_insert_self _ _)
    rcases Finset.mem_insert.1 hid with heq | hold
    · exact .inr ⟨heq, not_dropping hp⟩
    · exact .inl hold
  | refuse job p refusal n hjob hp =>
    rw [List.append_nil]
    have hrefuse := h.refuse hjob (not_dropping hp) (not_forwarded h hjob hp) refusal
    exact { hrefuse with }
  | finish job p reply hjob =>
    rw [List.append_nil]
    exact h.finish hjob reply
  | wake id reply response hreply hresponse =>
    rw [List.append_nil]
    exact h.wake hreply hresponse
  | ends task =>
    rw [List.append_nil]
    exact { h with }

/-- **A refusal stands.** -/
theorem Sound.refused_stands (h : Sound sent s) (hacts : Acts C W s input answers s') {id : String} {refusal : Refusal}
    (hrefused : s.refused.lookup id = some refusal) : s'.refused.lookup id = some refusal := by
  cases hacts with
  | refuse job p refusal' n hjob hp =>
    have hne : id ≠ job.requestId := fun heq => by
      rw [heq, (h.quiet p job hjob (not_dropping hp)).1] at hrefused
      cases hrefused
    simp only [System.refuse, Dict.lookup_insert_ite, if_neg hne]
    exact hrefused
  | _ => exact hrefused

theorem Acts.forwarded_mono (hacts : Acts C W s input answers s') : s.forwarded ⊆ s'.forwarded := by
  cases hacts with
  | forward job p hjob hp => exact Finset.subset_insert _ _
  | _ => exact Finset.Subset.refl _

end Steps

/-! ## Runs -/

section Runs

variable (C : Crypto) (W : Wire) (config : NodeConfig) (nodes : List Multiaddr) (keypair : Bytes) (keys : Option PqKeys)

/-- What a run answers on inbound channels. -/
def sent (es : List Event) : List (Nat × Option Response) :=
  (inbound C W config nodes keypair keys).outputs (System.answers C W) (.new config nodes keypair keys) es

/-- What is answered on the channel of a request is the failure with the text or the rejection of a reload, and not what
becomes of a dropped reply channel. -/
def HearsOnly (es : List Event) (s : System) (id text : String) : Prop :=
  ∀ c heard, s.channels.lookup id = some c → (c, heard) ∈ sent C W config nodes keypair keys es →
    (heard = some ⟨false, strBytes text⟩ ∨ heard = some ⟨false, strBytes "node is reloading; retry shortly"⟩) ∧
      heard ≠ some ⟨false, strBytes "request handler dropped"⟩

/-- **What holds of the inbound requests of a run.** -/
structure InboundSafe (es : List Event) (s : System) : Prop where
  /-- No channel is answered twice. -/
  once : ((sent C W config nodes keypair keys es).map Prod.fst).Nodup
  /-- What is answered came by a connection that has not closed. -/
  whileOpen : ∀ before e after m, es = before ++ e :: after →
    (inbound C W config nodes keypair keys).run before = some m → ∀ a ∈ m.answers C W e,
    ∃ env event connection, .swarm env event ∈ before ++ [e] ∧ event.inbound = some (connection, a.1) ∧
      ∀ env' peer n, .swarm env' (.connectionClosed peer connection n) ∉ before
  /-- A denied request is in no state of the run on the dispatcher's queue, and hears that it is unauthorized. -/
  denied : ∀ before i reason after m job, es = before ++ .authorized i (.deny reason) :: after →
    (inbound C W config nodes keypair keys).run before = some m → m.next (.authorizing i) = some job →
    (∀ es' rest m', es = es' ++ rest → (inbound C W config nodes keypair keys).run es' = some m' →
      ∀ job' ∈ m'.jobs .dispatcher, job'.requestId ≠ job.requestId) ∧
    HearsOnly C W config nodes keypair keys es s job.requestId ("unauthorized: " ++ reason)
  /-- A request whose worker's queue is full hears that authentication is overloaded. -/
  overloaded : ∀ before after m job, es = before ++ .enqueueAuth :: after →
    (inbound C W config nodes keypair keys).run before = some m → m.next .controller = some job →
    .worker m.authIndex ∉ m.ended → authQueueCapacity ≤ (m.jobs (.queue m.authIndex)).length →
    HearsOnly C W config nodes keypair keys es s job.requestId "authentication overloaded"

variable {C W config nodes keypair keys} {es : List Event} {s : System}

/-- **The actor of the system runs as it does alone.** -/
theorem inbound_follows : (inbound C W config nodes keypair keys).Follows (Actor.swarmActor C W config nodes keypair keys)
    System.world System.actorInput := by
  intro s e s' h
  have hacts := acts_of_step h
  generalize s.answers C W e = answers at hacts
  generalize s.actorInput e = input at hacts ⊢
  cases hacts with
  | actor input world effects commands hnext htaken => exact congrArg (Option.map Prod.fst) hnext
  | _ => rfl

theorem sound_run (hrun : (inbound C W config nodes keypair keys).run es = some s) :
    Sound (sent C W config nodes keypair keys es) s := by
  refine ((inbound C W config nodes keypair keys).history_invariant
    (P := fun es s => (inbound C W config nodes keypair keys).run es = some s ∧
      Sound (sent C W config nodes keypair keys es) s) ⟨rfl, ?_⟩ ?_ es s hrun (Machine.meets_true _ _ _)).2
  · refine ⟨⟨fun _ => .nil, fun p q a b ha => (by cases ha)⟩, fun p job hjob => (by cases hjob),
      fun p job hjob => (by cases hjob), fun id hid => ?_, fun id refusal hid => ?_, fun id hid => (by cases hid),
      fun job hjob => (by cases hjob), fun id entry hentry => ?_, fun id c hc => ?_, fun id id' c hc => ?_,
      fun a ha => (by cases ha), fun id c response hc hsent => (by cases hsent)⟩
    · simp [System.Knows, inbound, System.new, firstResponse] at hid
    · simp [inbound, System.new] at hid
    · simp [inbound, System.new, World.new, Actor.SwarmActor.new] at hentry
    · simp [inbound, System.new] at hc
    · simp [inbound, System.new] at hc
  · rintro es s e s' ⟨hbefore, hsound⟩ - hstep
    refine ⟨(Machine.runFrom_concat _).2 ⟨s, hbefore, hstep⟩, ?_⟩
    have hsent : sent C W config nodes keypair keys (es ++ [e]) =
        sent C W config nodes keypair keys es ++ s.answers C W e :=
      (Machine.outputs_append _ hbefore).trans (congrArg _ (Machine.outputs_singleton _ _ _ _))
    rw [hsent]
    exact hsound.step (acts_of_step hstep)

/-- **A refusal stands to the end of a run.** -/
theorem refused_run {m : System} {sent : List (Nat × Option Response)} (hsound : Sound sent m) {id : String}
    {refusal : Refusal} (hrefused : m.refused.lookup id = some refusal)
    (hrun : (inbound C W config nodes keypair keys).runFrom m es = some s) : s.refused.lookup id = some refusal := by
  have hP := (inbound C W config nodes keypair keys).invariant_from
    (P := fun s => (∃ sent, Sound sent s) ∧ s.refused.lookup id = some refusal) ?_ es m s ⟨⟨sent, hsound⟩, hrefused⟩
    (Machine.meets_true _ _ _) hrun
  · exact hP.2
  · rintro s e s' ⟨⟨sent, hsound⟩, hrefused⟩ - hstep
    exact ⟨⟨_, hsound.step (acts_of_step hstep)⟩, hsound.refused_stands (acts_of_step hstep) hrefused⟩

theorem forwarded_run {m : System} (hrun : (inbound C W config nodes keypair keys).runFrom m es = some s) :
    m.forwarded ⊆ s.forwarded :=
  (inbound C W config nodes keypair keys).invariant_from (P := fun s => m.forwarded ⊆ s.forwarded)
    (fun _ _ _ hsub _ hstep => hsub.trans (acts_of_step hstep).forwarded_mono) es m s (Finset.Subset.refl _)
    (Machine.meets_true _ _ _) hrun

/-- **A refused request hears its refusal**, and is never on the dispatcher's queue. -/
theorem refused_hears (refusal : Refusal) {text : String} (htext : refusal.response = ⟨false, strBytes text⟩)
    (hother : text ≠ "request handler dropped") (hrun : (inbound C W config nodes keypair keys).run es = some s)
    {id : String} (hrefused : s.refused.lookup id = some refusal) :
    (∀ es' rest m', es = es' ++ rest → (inbound C W config nodes keypair keys).run es' = some m' →
      ∀ job' ∈ m'.jobs .dispatcher, job'.requestId ≠ id) ∧
    HearsOnly C W config nodes keypair keys es s id text := by
  have hsound := sound_run hrun
  refine ⟨?_, fun c heard hc hheard => ?_⟩
  rotate_left
  · rw [← htext]
    rcases (hsound.told id c heard hc hheard).1 refusal hrefused with rfl | rfl
    · refine ⟨.inl rfl, fun heq => hother (strBytes_injective ?_)⟩
      rw [htext] at heq
      exact (Response.mk.inj (Option.some.inj heq)).2
    · refine ⟨.inr rfl, fun heq => absurd (strBytes_injective (Response.mk.inj (Option.some.inj heq)).2) (by decide)⟩
  rintro es' rest m' rfl hrun' job' hjob' rfl
  obtain ⟨m'', hrun'', hrest⟩ := (Machine.runFrom_append _ _ _ _).1 hrun
  obtain rfl := Option.some.inj (hrun'.symm.trans hrun'')
  have hforwarded := forwarded_run hrest ((sound_run hrun').queued job' hjob')
  rw [(hsound.onward _ hforwarded).1] at hrefused
  cases hrefused

/-- What a step of the run has refused, the end of the run has refused. -/
theorem refused_at {before after : List Event} {e : Event} {m : System} {job : Job} {refusal : Refusal}
    (hrun : (inbound C W config nodes keypair keys).run (before ++ e :: after) = some s)
    (hbefore : (inbound C W config nodes keypair keys).run before = some m)
    (hstep : ∀ m', m.step C W e = some m' → m'.refused.lookup job.requestId = some refusal) :
    s.refused.lookup job.requestId = some refusal := by
  obtain ⟨m'', hbefore', hafter⟩ := (Machine.runFrom_append _ _ _ _).1 hrun
  obtain rfl := Option.some.inj (hbefore.symm.trans hbefore')
  obtain ⟨m', hmachine, hafter⟩ := (Machine.runFrom_cons _).1 hafter
  exact refused_run ((sound_run hbefore).step (acts_of_step hmachine)) (hstep m' hmachine) hafter

variable (C W config nodes keypair keys)

/-- The inputs of the actor in a run. -/
abbrev inputs (es : List Event) : List Input :=
  (inbound C W config nodes keypair keys).seen System.actorInput (.new config nodes keypair keys) es

variable {C W config nodes keypair keys}

theorem swarm_of_input {env : Env} {event : SwarmEvent} {m : System} {e : Event}
    (h : m.actorInput e = some (.event env event)) : e = .swarm env event := by
  cases e with
  | swarm env' event' =>
    cases h
    rfl
  | command env' buildError =>
    obtain ⟨command, -, h⟩ := Option.map_eq_some_iff.1 h
    split at h <;> cases h
  | _ => cases h

theorem mem_inputs {env : Env} {event : SwarmEvent} (hrun : (inbound C W config nodes keypair keys).run es = some s) :
    .event env event ∈ inputs C W config nodes keypair keys es ↔ .swarm env event ∈ es := by
  constructor
  · intro h
    obtain ⟨before, e, after, m, rfl, -, hmem⟩ := Machine.mem_outputs _ h
    rw [swarm_of_input (Option.mem_toList.1 hmem)]
    simp
  · intro h
    obtain ⟨before, after, rfl⟩ := List.append_of_mem h
    obtain ⟨m, hbefore, -⟩ := (Machine.runFrom_append _ _ _ _).1 hrun
    exact Machine.mem_outputs_of_mem _ hbefore (Option.mem_toList.2 rfl)

theorem sent_eq_responses (hrun : (inbound C W config nodes keypair keys).run es = some s) :
    sent C W config nodes keypair keys es =
      Actor.responses ((Actor.swarmActor C W config nodes keypair keys).outputs (World.effects C W)
        (Actor.swarmActor C W config nodes keypair keys).init (inputs C W config nodes keypair keys es)) := by
  rw [Actor.responses, Machine.outputs_filterMap]
  exact inbound_follows.outputs (fun w input => Actor.responses (w.effects C W input)) hrun

/-- **Inbound requests get one answer, and denied ones never run.** -/
theorem inbound_safe (C : Crypto) (W : Wire) (config : NodeConfig) (nodes : List Multiaddr) (keypair : Bytes)
    (keys : Option PqKeys) (es : List Event) (s : System)
    (hrun : (inbound C W config nodes keypair keys).run es = some s) : InboundSafe C W config nodes keypair keys es s := by
  refine ⟨?_, ?_, ?_, ?_⟩
  · rw [sent_eq_responses hrun]
    exact (Actor.channelsSound_run (inbound_follows.runFrom hrun)).2.once
  · rintro before e after m rfl hbefore a ha
    obtain ⟨m', hm', hafter⟩ := (Machine.runFrom_append _ _ _ _).1 hrun
    obtain rfl := Option.some.inj (hbefore.symm.trans hm')
    obtain ⟨s', hstep, -⟩ := (Machine.runFrom_cons _).1 hafter
    have hfollows := inbound_follows m e s' hstep
    unfold System.answers at ha
    cases hinput : m.actorInput e with
    | none =>
      rw [hinput] at ha
      cases ha
    | some input =>
      rw [hinput] at ha hfollows
      obtain ⟨hconnections, hchannels⟩ := Actor.channelsSound_run (inbound_follows.runFrom hbefore)
      obtain ⟨-, -, env, event, connection, hmem, hinbound, hopen⟩ :=
        (hchannels.answered (Actor.stepped_of_step hfollows)).2 a.1 (List.mem_map_of_mem ha)
      refine ⟨env, event, connection, ?_, hinbound, fun env' peer n hclosed => ?_⟩
      · rcases List.mem_append.1 hmem with hmem | hmem
        · exact List.mem_append_left _ ((mem_inputs hbefore).1 hmem)
        · obtain rfl := List.mem_singleton.1 hmem
          rw [swarm_of_input hinput]
          simp
      · exact (hconnections.closed env' peer connection n ((mem_inputs hbefore).2 hclosed)).2 hopen
  · rintro before i reason after m job rfl hbefore hjob
    have hother : "unauthorized: " ++ reason ≠ "request handler dropped" := fun heq => by
      have hlist := congrArg String.toList heq
      simp at hlist
    refine refused_hears (.denied reason) rfl hother hrun (refused_at hrun hbefore (fun m' hstep => ?_))
    simp only [System.step, hjob, Option.map_some, Option.some.injEq] at hstep
    rw [← hstep]
    exact (Dict.lookup_insert_ite _ _ _ _).trans (if_pos rfl)
  · rintro before after m job rfl hbefore hjob halive hfull
    refine (refused_hears .overloaded rfl (by decide) hrun (refused_at hrun hbefore (fun m' hstep => ?_))).2
    simp only [System.step, hjob, Option.map_some, Option.some.injEq] at hstep
    rw [← hstep]
    simp only [System.enqueueAuth, if_neg halive, if_neg (Nat.not_lt.2 hfull)]
    exact (Dict.lookup_insert_ite _ _ _ _).trans (if_pos rfl)

end Runs

/-- A request is denied, its sender dropped, and both response commands reach the actor. -/
def deniedRun : List Event :=
  let env := Actor.quietEnv Actor.identityConfig
  [.swarm env (.connectionEstablished [7] 0), .swarm env (.serviceReq (.request [7] 0 ⟨"cmd", [1]⟩ 0)), .enqueueAuth,
    .receive 0, .authorized 0 (.deny "peer not authorized"), .drop, .wake "request", .command env none, .command env none]

theorem denied_hears : ∃ s,
    (inbound Pq.plainCrypto Pq.cborWire Actor.identityConfig [] [] none).run deniedRun = some s ∧
    sent Pq.plainCrypto Pq.cborWire Actor.identityConfig [] [] none deniedRun =
      [(0, some ⟨false, strBytes "unauthorized: peer not authorized"⟩)] ∧
    (0, some ⟨false, strBytes "request handler dropped"⟩) ∉
      sent Pq.plainCrypto Pq.cborWire Actor.identityConfig [] [] none deniedRun ∧
    InboundSafe Pq.plainCrypto Pq.cborWire Actor.identityConfig [] [] none deniedRun s := by
  obtain ⟨s, hrun⟩ := Option.isSome_iff_exists.1 (by decide +kernel :
    ((inbound Pq.plainCrypto Pq.cborWire Actor.identityConfig [] [] none).run deniedRun).isSome = true)
  exact ⟨s, hrun, by decide +kernel, by decide +kernel, inbound_safe Pq.plainCrypto Pq.cborWire Actor.identityConfig [] [] none deniedRun s hrun⟩

end Inbound
end NexusNet
