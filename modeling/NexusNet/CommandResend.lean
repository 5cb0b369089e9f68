import NexusNet.Command
/-!
# CommandResend — how often a service request is delivered

A command sends its request again after every failure for which a lookup finds somewhere to send to, and the failures
are not told apart.  What its lookups and sends come to decides whether that is safe (`guarded`): a send that leaves open
whether the request arrived must be followed by a lookup that finds nothing.
-/
namespace NexusNet
namespace Command

/-! ## Traces -/

def Action.isSend : Action → Bool
  | .send _ _ _ _ => true
  | _ => false

/-- The remote node has a copy of the request from this action. -/
def Action.delivers : Action → Bool
  | .send _ _ _ outcome => outcome.delivered
  | _ => false

/-- A send that leaves open, or shows, that the request was delivered. -/
def Action.leavesOpen : Action → Bool
  | .send _ _ _ outcome => !outcome.ruledOut
  | _ => false

/-- **The request is sent again only after outcomes that rule out its delivery.** -/
def resendsSafe : List Action → Bool
  | [] => true
  | a :: rest => !(a.leavesOpen && rest.any Action.isSend) && resendsSafe rest

/-- The copies of the request that remote nodes have. -/
def copies (trace : List Action) : Nat := trace.countP Action.delivers

theorem leavesOpen_of_delivers {a : Action} (h : a.delivers = true) : a.leavesOpen = true := by
  cases a with
  | send peer addresses request outcome =>
    simp only [Action.delivers, Action.leavesOpen] at h ⊢
    cases outcome with
    | failed pq wireLen failure arrived => cases failure <;> simp_all [SendOutcome.delivered, SendOutcome.ruledOut]
    | rejected error => cases h
    | _ => rfl
  | _ => cases h

theorem isSend_of_delivers {a : Action} (h : a.delivers = true) : a.isSend = true := by
  cases a with
  | send peer addresses request outcome => rfl
  | _ => cases h

/-- **Safe resends deliver at most one copy.** -/
theorem copies_le_one : ∀ (trace : List Action), resendsSafe trace = true → copies trace ≤ 1
  | [], _ => by simp [copies]
  | a :: rest, h => by
    simp only [resendsSafe, Bool.and_eq_true, Bool.not_eq_true', Bool.and_eq_false_iff] at h
    obtain ⟨hhead, hrest⟩ := h
    have ih := copies_le_one rest hrest
    unfold copies at ih ⊢
    rw [List.countP_cons]
    by_cases hd : a.delivers = true
    · -- the first copy is delivered, so nothing is sent after it
      have hnone : rest.any Action.isSend = false := by
        rcases hhead with hopen | hnone
        · rw [leavesOpen_of_delivers hd] at hopen
          cases hopen
        · exact hnone
      have hzero : rest.countP Action.delivers = 0 := by
        refine List.countP_eq_zero.2 (fun b hb hdb => ?_)
        have := List.any_eq_false.1 hnone b hb
        exact this (isSend_of_delivers hdb)
      rw [hzero, if_pos hd]
    · rw [if_neg hd]
      omega

/-- Two traces after one another: the sends of the second come after everything in the first. -/
theorem resendsSafe_append : ∀ (s t : List Action), resendsSafe (s ++ t) =
    (resendsSafe s && resendsSafe t && !(s.any Action.leavesOpen && t.any Action.isSend))
  | [], t => by simp [resendsSafe]
  | a :: s, t => by
    rw [List.cons_append, resendsSafe, resendsSafe, resendsSafe_append s t, List.any_append, List.any_cons]
    cases a.leavesOpen <;> cases s.any Action.isSend <;> cases t.any Action.isSend <;> cases resendsSafe s <;>
      cases resendsSafe t <;> cases s.any Action.leavesOpen <;> rfl

/-! ## The condition -/

def SendOutcome.isError : SendOutcome → Bool
  | .response _ => false
  | _ => true

/-- The first send fails and an address is found. -/
def SendAnswers.resends (a : SendAnswers) (peer : PeerId) : Bool := a.direct.isError && !(a.addresses peer).isEmpty

def SendAnswers.fails (a : SendAnswers) (peer : PeerId) : Bool :=
  if a.resends peer then a.resolved.isError else a.direct.isError

/-- One of the sends leaves open whether the request was delivered. -/
def SendAnswers.leavesOpen (a : SendAnswers) (peer : PeerId) : Bool :=
  !a.direct.ruledOut || (a.resends peer && !a.resolved.ruledOut)

/-- The first send rules out delivery, or no address is found after it. -/
def SendAnswers.safe (a : SendAnswers) (peer : PeerId) : Bool := a.direct.ruledOut || !a.resends peer

/-- The provider that the attempt asks, if the lookup finds one besides this node. -/
def AttemptAnswers.target (node : Node) (a : AttemptAnswers) : Option PeerId :=
  match a.providers with
  | .error _ => none
  | .ok found =>
    match (found.getD []).filter (fun peer => peer != node.myPeerId) with
    | [] => none
    | c :: cs => some ((node.peers.bestPeer (c :: cs)).getD c)

def AttemptAnswers.safe (node : Node) (a : AttemptAnswers) : Bool :=
  match a.target node with
  | none => true
  | some peer => a.sends.safe peer

/-- **No lookup finds anything after a send that leaves delivery open**: not the one for addresses within an attempt, and
not the one for providers between the two attempts. -/
def guarded (node : Node) (answers : Answers) : Message → Bool
  | .serviceRequestTo _ peer _ =>
    match node.parsePeer peer with
    | .error _ => true
    | .ok peerId => answers.first.sends.safe peerId
  | .serviceRequest _ _ =>
    match answers.first.target node with
    | none => answers.first.providers.isOk || answers.second.safe node
    | some peer =>
      answers.first.sends.safe peer && (!answers.first.sends.fails peer || (answers.second.safe node &&
        !(answers.first.sends.leavesOpen peer && (answers.second.target node).isSome)))

/-! ## What the commands do -/

theorem result_isError (o : SendOutcome) (peer : PeerId) :
    (∃ resp, o.result peer = .ok resp ∧ o.isError = false) ∨ (∃ e, o.result peer = .error e ∧ o.isError = true) := by
  cases o with
  | response resp => exact .inl ⟨resp, rfl, rfl⟩
  | unopened e =>
    cases e with
    | none => exact .inr ⟨_, rfl, rfl⟩
    | some e => exact .inr ⟨_, rfl, rfl⟩
  | _ => exact .inr ⟨_, rfl, rfl⟩

/-- **What one `send_request_resolved` does.** -/
structure Resolved (a : SendAnswers) (peer : PeerId) (trace : List Action) (result : Except String Response) : Prop where
  sends : trace.any Action.isSend = true
  open_ : trace.any Action.leavesOpen = a.leavesOpen peer
  safe : resendsSafe trace = a.safe peer
  fails : result.isOk = !a.fails peer

theorem sendRequestResolved_resolved (a : SendAnswers) (peer : PeerId) (request : Request) :
    Resolved a peer (sendRequestResolved a peer request).1 (sendRequestResolved a peer request).2 := by
  unfold sendRequestResolved
  rcases result_isError a.direct peer with ⟨resp, hres, herr⟩ | ⟨e, hres, herr⟩
  · -- the first send has a response
    have hno : a.resends peer = false := by rw [SendAnswers.resends, herr, Bool.false_and]
    simp only [hres]
    exact ⟨rfl, by simp [SendAnswers.leavesOpen, hno, Action.leavesOpen], by simp [SendAnswers.safe, hno, resendsSafe],
      by simp [SendAnswers.fails, hno, herr, Except.isOk, Except.toBool]⟩
  · simp only [hres]
    split
    · -- no address is found
      rename_i hempty
      have hno : a.resends peer = false := by rw [SendAnswers.resends, hempty, Bool.not_true, Bool.and_false]
      exact ⟨rfl, by simp [SendAnswers.leavesOpen, hno, Action.leavesOpen],
        by simp [SendAnswers.safe, hno, resendsSafe, Action.isSend, Action.leavesOpen],
        by simp [SendAnswers.fails, hno, herr, Except.isOk, Except.toBool]⟩
    · -- the request is sent again
      rename_i hsome
      have hyes : a.resends peer = true := by
        rw [SendAnswers.resends, herr, Bool.true_and, Bool.not_eq_true']
        exact Bool.eq_false_iff.2 hsome
      refine ⟨rfl, by simp [SendAnswers.leavesOpen, hyes, Action.leavesOpen],
        by simp [SendAnswers.safe, hyes, resendsSafe, Action.isSend, Action.leavesOpen], ?_⟩
      rcases result_isError a.resolved peer with ⟨resp, hres', herr'⟩ | ⟨e', hres', herr'⟩
      · simp [SendAnswers.fails, hyes, herr', hres', Except.mapError, Except.isOk, Except.toBool]
      · simp [SendAnswers.fails, hyes, herr', hres', Except.mapError, Except.isOk, Except.toBool]

/-- What an attempt of `request_service` with a provider does: it ends with a response, or goes on. -/
theorem requestLoop_target {node : Node} {a : AttemptAnswers} {peer : PeerId} (h : a.target node = some peer)
    (key : String) (request : Request) (attempt : Nat) (rest : List AttemptAnswers) (lastError : Option String) :
    ∃ candidates sends result, Resolved a.sends peer sends result ∧
      (requestLoop node key request attempt (a :: rest) lastError).1 = .providers key candidates :: sends ++
        match result with
        | .ok _ => []
        | .error error => (if attempt = 0 then [.invalidate key] else []) ++
            (requestLoop node key request (attempt + 1) rest (some error)).1 := by
  unfold AttemptAnswers.target at h
  rw [requestLoop]
  cases hp : a.providers with
  | error e =>
    rw [hp] at h
    cases h
  | ok found =>
    rw [hp] at h
    simp only at h
    cases hcs : (found.getD []).filter (fun peer => peer != node.myPeerId) with
    | nil =>
      rw [hcs] at h
      cases h
    | cons c cs =>
      rw [hcs] at h
      cases h
      have hr := sendRequestResolved_resolved a.sends ((node.peers.bestPeer (c :: cs)).getD c) request
      refine ⟨c :: cs, _, _, hr, ?_⟩
      rcases hsr : sendRequestResolved a.sends ((node.peers.bestPeer (c :: cs)).getD c) request with
        ⟨sends, error | response⟩
      · simp only [hcs, hsr, List.cons_append, List.append_assoc]
      · simp only [hcs, hsr, List.append_nil]

theorem requestLoop_no_target {node : Node} {a : AttemptAnswers} (h : a.target node = none) (key : String)
    (request : Request) (attempt : Nat) (rest : List AttemptAnswers) (lastError : Option String) :
    ∃ lookups, (∀ x ∈ lookups, x.isSend = false ∧ x.leavesOpen = false) ∧
      (requestLoop node key request attempt (a :: rest) lastError).1 = lookups ++
        match a.providers with
        | .ok _ => []
        | .error error => if attempt = 0 then (requestLoop node key request (attempt + 1) rest (some error)).1 else [] := by
  unfold AttemptAnswers.target at h
  rw [requestLoop]
  cases hp : a.providers with
  | error e =>
    simp only
    split
    · exact ⟨[.providers key [], .invalidate key], by simp [Action.isSend, Action.leavesOpen], rfl⟩
    · exact ⟨[.providers key [], .invalidate key], by simp [Action.isSend, Action.leavesOpen], rfl⟩
  | ok found =>
    rw [hp] at h
    simp only at h
    cases hcs : (found.getD []).filter (fun peer => peer != node.myPeerId) with
    | nil =>
      refine ⟨[.providers key []], by simp [Action.isSend, Action.leavesOpen], ?_⟩
      simp only [hcs, List.append_nil]
    | cons c cs =>
      rw [hcs] at h
      cases h

/-- Lookups and invalidations before a trace change nothing. -/
theorem resendsSafe_lookups {lookups : List Action} (h : ∀ x ∈ lookups, x.isSend = false ∧ x.leavesOpen = false)
    (t : List Action) : resendsSafe (lookups ++ t) = resendsSafe t ∧
      (lookups ++ t).any Action.isSend = t.any Action.isSend := by
  have hopen : lookups.any Action.leavesOpen = false := List.any_eq_false.2 (fun x hx => by simp [(h x hx).2])
  have hsend : lookups.any Action.isSend = false := List.any_eq_false.2 (fun x hx => by simp [(h x hx).1])
  have hsafe : resendsSafe lookups = true := by
    clear hopen hsend
    induction lookups with
    | nil => rfl
    | cons x rest ih =>
      rw [resendsSafe, (h x List.mem_cons_self).2, ih (fun y hy => h y (List.mem_cons_of_mem _ hy))]
      rfl
  constructor
  · rw [resendsSafe_append, hsafe, hopen, Bool.false_and, Bool.true_and, Bool.not_false, Bool.and_true]
  · rw [List.any_append, hsend, Bool.false_or]

/-- A lookup, the sends of an attempt, and what follows. -/
theorem resendsSafe_attempt {a : SendAnswers} {peer : PeerId} {sends : List Action} {result : Except String Response}
    (h : Resolved a peer sends result) (key : String) (candidates : List PeerId) (t : List Action) :
    resendsSafe (.providers key candidates :: sends ++ t) =
      (a.safe peer && resendsSafe t && !(a.leavesOpen peer && t.any Action.isSend)) := by
  rw [List.cons_append, resendsSafe, resendsSafe_append, h.safe, h.open_]
  rfl

/-- **The last attempt** sends if it finds a provider, and is safe if its sends are. -/
theorem requestLoop_last (node : Node) (key : String) (request : Request) (a : AttemptAnswers) (lastError : Option String) :
    resendsSafe (requestLoop node key request 1 [a] lastError).1 = a.safe node ∧
      (requestLoop node key request 1 [a] lastError).1.any Action.isSend = (a.target node).isSome := by
  unfold AttemptAnswers.safe
  cases ht : a.target node with
  | none =>
    obtain ⟨lookups, hquiet, htrace⟩ := requestLoop_no_target ht key request 1 [] lastError
    have hend : (requestLoop node key request 1 [a] lastError).1 = lookups ++ [] := by
      rw [htrace]
      cases a.providers <;> rfl
    obtain ⟨hsafe, hsend⟩ := resendsSafe_lookups hquiet []
    rw [hend, hsafe, hsend]
    exact ⟨rfl, rfl⟩
  | some peer =>
    obtain ⟨candidates, sends, result, hr, htrace⟩ := requestLoop_target ht key request 1 [] lastError
    have hend : (requestLoop node key request 1 [a] lastError).1 = .providers key candidates :: sends ++ [] := by
      rw [htrace]
      cases result <;> rfl
    rw [hend, resendsSafe_attempt hr]
    refine ⟨by simp [resendsSafe], ?_⟩
    simp [hr.sends]

/-- **What decides about a `ServiceRequest`.** -/
theorem requestService_safe (node : Node) (answers : Answers) (key service : String) (payload : Bytes) :
    resendsSafe (requestService node answers key service payload).1 =
      guarded node answers (.serviceRequest service payload) := by
  unfold requestService
  have hlast := fun error => requestLoop_last node key ⟨service, payload⟩ answers.second (some error)
  simp only [guarded]
  cases ht : answers.first.target node with
  | none =>
    obtain ⟨lookups, hquiet, htrace⟩ := requestLoop_no_target ht key ⟨service, payload⟩ 0 [answers.second] none
    rw [htrace, (resendsSafe_lookups hquiet _).1]
    cases answers.first.providers with
    | ok found => rfl
    | error error => exact (hlast error).1
  | some peer =>
    obtain ⟨candidates, sends, result, hr, htrace⟩ := requestLoop_target ht key ⟨service, payload⟩ 0 [answers.second] none
    rw [htrace, resendsSafe_attempt hr]
    have hfails := hr.fails
    cases result with
    | ok resp =>
      have hok : answers.first.sends.fails peer = false := by simpa [Except.isOk, Except.toBool] using hfails
      simp [hok, resendsSafe]
    | error error =>
      have herr : answers.first.sends.fails peer = true := by simpa [Except.isOk, Except.toBool] using hfails
      obtain ⟨hsafe, hsend⟩ := hlast error
      have hquiet : ∀ x ∈ [Action.invalidate key], x.isSend = false ∧ x.leavesOpen = false := by
        simp [Action.isSend, Action.leavesOpen]
      obtain ⟨hskip, hskip'⟩ := resendsSafe_lookups hquiet (requestLoop node key ⟨service, payload⟩ 1 [answers.second]
        (some error)).1
      simp only [if_true, Nat.zero_add, hskip, hskip', hsafe, hsend, herr, Bool.not_true, Bool.false_or, Bool.and_assoc]

/-- **When a request is executed at most once.**  For every command and whatever its lookups and sends come to: at most
one copy is delivered and a copy is sent again only after outcomes that rule out the delivery of the earlier ones,
exactly if no lookup finds anything after a send that leaves it open. -/
theorem at_most_once_iff (node : Node) (answers : Answers) (msg : Message) :
    (copies (runDhtCommand node answers msg).1 ≤ 1 ∧ resendsSafe (runDhtCommand node answers msg).1 = true) ↔
      guarded node answers msg = true := by
  have hsafe : resendsSafe (runDhtCommand node answers msg).1 = guarded node answers msg := by
    cases msg with
    | serviceRequest service payload => exact requestService_safe node answers _ service payload
    | serviceRequestTo service peer payload =>
      simp only [runDhtCommand, guarded]
      cases node.parsePeer peer with
      | error e => rfl
      | ok peerId =>
        have hr := sendRequestResolved_resolved answers.first.sends peerId ⟨service, payload⟩
        rcases hsend : sendRequestResolved answers.first.sends peerId ⟨service, payload⟩ with ⟨trace, error | response⟩
        · rw [hsend] at hr
          simp only [hsend, hr.safe]
        · rw [hsend] at hr
          simp only [hsend, hr.safe]
  rw [← hsafe]
  exact ⟨And.right, fun h => ⟨copies_le_one _ h, h⟩⟩

def plainNode : Node := ⟨"me", ⟨∅⟩, .ok, fun _ => ""⟩

/-- Every send times out although the request arrived, and an address is found. -/
def timingOut : SendAnswers :=
  ⟨.failed false 0 .timeout true, .ok [⟨"peer", ["/ip4/10.0.0.1/tcp/5000"]⟩], .failed false 0 .timeout true⟩

/-- **One command delivers its request four times**: the sends of both attempts, with and without addresses, all arrive
and time out. -/
theorem delivered_four_times :
    copies (runDhtCommand plainNode ⟨⟨.ok (some ["peer"]), timingOut⟩, ⟨.ok (some ["peer"]), timingOut⟩⟩
      (.serviceRequest "cmd" [1])).1 = 4 := by
  decide +kernel

end Command
end NexusNet
