import AgentBridge.State.Attribution

/-! Runs of calls at one moment: what a request does to the state, as the calls it makes. -/

namespace AgentBridge
open State

def StateCall.now : StateCall → Now
  | registerAgent now _ => now
  | createOrGetChannel _ now .. => now
  | resolveChannel _ now .. => now
  | join now .. => now
  | leave now .. => now
  | postMessage now .. => now
  | setContext now .. => now
  | setContextInternal now .. => now
  | acquireFileLease now .. => now
  | renewFileLease now .. => now
  | releaseFileLease now .. => now

def AgentAction.now : AgentAction → Now
  | atomic call => call.now
  | subscribe now .. => now
  | holders now .. => now

/-- Whatever the call does is among the effects. A lease that has the new id already is overwritten. -/
def StateCall.Within (P : Effect → Prop) (s : AppState) : StateCall → Prop
  | registerAgent _ agent => P (.registration (Text.trim agent.agentKey))
  | createOrGetChannel w _ slug _ createdBy => P (.channel (slugify w slug) (creatorName createdBy))
  | resolveChannel _ _ _ _ _ createdBy _ => ∀ slug, P (.channel slug (creatorName createdBy))
  | join _ slug agentKey _ => P (.seat slug (Text.trim agentKey))
  | leave _ slug agentKey => P (.seat slug agentKey)
  | postMessage _ _ slug sender _ _ _ => P (.seat slug (Text.trim sender)) ∧ P (.message slug (Text.trim sender))
  | setContext _ slug key _ updatedBy => P (.entry slug (Text.trim key) (writerName updatedBy))
  | setContextInternal _ slug key value updatedBy =>
    P (.entry slug (Text.trim key) (writerName updatedBy)) ∧
      ∀ author ∈ value.author, P (.record slug (Text.trim key) author)
  | acquireFileLease _ newId _ _ agentKey _ _ _ _ =>
    (∀ id, P (.lease id (Text.trim agentKey))) ∧
      ∀ old, s.fileLeases.get newId = some old → P (.lease newId old.lease.agentKey)
  | renewFileLease _ _ agentKey _ _ => ∀ id, P (.lease id (Text.trim agentKey))
  | releaseFileLease _ _ agentKey _ => ∀ id, P (.lease id (Text.trim agentKey))

def AgentAction.Within (P : Effect → Prop) (s : AppState) : AgentAction → Prop
  | atomic call => call.Within P s
  | subscribe _ slug agentKey => ∀ key ∈ agentKey, Text.trim key ≠ [] → P (.seat slug (Text.trim key))
  | holders .. => True

section Calls
variable {P Q : Effect → Prop} {s : AppState}

theorem StateCall.Within.mono {call : StateCall} (h : call.Within P s) (hPQ : ∀ e, P e → Q e) : call.Within Q s := by
  cases call with
  | registerAgent | createOrGetChannel | join | leave | setContext => exact hPQ _ h
  | resolveChannel => exact fun slug => hPQ _ (h slug)
  | postMessage => exact ⟨hPQ _ h.1, hPQ _ h.2⟩
  | setContextInternal => exact ⟨hPQ _ h.1, fun author hauthor => hPQ _ (h.2 author hauthor)⟩
  | acquireFileLease => exact ⟨fun id => hPQ _ (h.1 id), fun old hold => hPQ _ (h.2 old hold)⟩
  | renewFileLease | releaseFileLease => exact fun id => hPQ _ (h id)

theorem AgentAction.Within.mono {a : AgentAction} (h : a.Within P s) (hPQ : ∀ e, P e → Q e) : a.Within Q s := by
  cases a with
  | atomic call => exact StateCall.Within.mono h hPQ
  | subscribe now slug agentKey => exact fun key hkey hne => hPQ _ (h key hkey hne)
  | holders => trivial

theorem StateCall.confined {call : StateCall} (h : call.Within P s) : Confined call.now P s (call.perform s).2 := by
  cases call with
  | registerAgent now agent =>
    rw [StateCall.perform, failure_state]
    exact confined_registerAgent h
  | createOrGetChannel w now slug topic createdBy =>
    rw [StateCall.perform, failure_state]
    exact confined_createOrGetChannel h
  | resolveChannel w now topicId suffixId query createdBy threshold =>
    rw [StateCall.perform, failure_state]
    exact confined_resolveChannel h
  | join now slug agentKey role =>
    rw [StateCall.perform, failure_state]
    exact confined_join h role
  | leave now slug agentKey =>
    rw [StateCall.perform, failure_state]
    exact confined_leave h
  | postMessage now newId slug sender role content metadata =>
    rw [StateCall.perform, failure_state]
    exact confined_post h.1 h.2 newId role content metadata
  | setContext now slug key value updatedBy =>
    rw [StateCall.perform, failure_state]
    exact confined_setContext h
  | setContextInternal now slug key value updatedBy =>
    rw [StateCall.perform, failure_state]
    exact confined_setContextInternal h.1 h.2
  | acquireFileLease now newId repository path agentKey ttlMs recursive purpose metadata =>
    rw [StateCall.perform, failure_state]
    exact confined_acquireFileLease h.1 h.2
  | renewFileLease now leaseId agentKey fencingToken ttlMs =>
    rw [StateCall.perform, failure_state]
    exact confined_renewFileLease h
  | releaseFileLease now leaseId agentKey fencingToken =>
    rw [StateCall.perform, failure_state]
    exact confined_releaseFileLease h

theorem AgentAction.confined {a : AgentAction} (h : a.Within P s) : Confined a.now P s (a.perform s) := by
  cases a with
  | atomic call => exact call.confined h
  | subscribe now slug agentKey => exact confined_subscribe h
  | holders now repository path agentKey includeDescendants => exact confined_fileLeaseHolders

end Calls

/-- One call, or a change of what no call of the state looks at: the inbox and the permits of live streams. -/
inductive Move (now : Now) (P : Effect → Prop) (s : AppState) : AppState → Prop
  | call (a : AgentAction) (hnow : a.now = now) (h : a.Within P s) : Move now P s (a.perform s)
  | aside (inbox : List InboxLine) (permits : Nat) : Move now P s { s with inbox := inbox, sseConnections := permits }

/-- The second state is reached by calls at the moment, whose effects are all among the given ones. -/
def Acts (now : Now) (P : Effect → Prop) : AppState → AppState → Prop := Relation.ReflTransGen (Move now P)

section Acts
variable {now : Now} {P Q : Effect → Prop} {s s' s'' : AppState}

theorem Acts.refl (s : AppState) : Acts now P s s := Relation.ReflTransGen.refl

theorem Acts.trans (h : Acts now P s s') (h' : Acts now P s' s'') : Acts now P s s'' := Relation.ReflTransGen.trans h h'

theorem Acts.mono (h : Acts now P s s') (hPQ : ∀ e, P e → Q e) : Acts now Q s s' := by
  refine Relation.ReflTransGen.mono ?_ s s' h
  intro s₁ s₂ hmove
  cases hmove with
  | call a hnow hwithin => exact .call a hnow (hwithin.mono hPQ)
  | aside inbox permits => exact .aside inbox permits

theorem Acts.aside (h : Acts now P s s') (inbox : List InboxLine) (permits : Nat) :
    Acts now P s { s' with inbox := inbox, sseConnections := permits } := h.tail (.aside inbox permits)

theorem Move.confined (h : Move now P s s') : Confined now P s s' := by
  cases h with
  | call a hnow h =>
    rw [← hnow]
    exact a.confined h
  | aside inbox permits => exact .of_same rfl rfl rfl rfl

theorem Acts.confined (h : Acts now P s s') : Confined now P s s' := by
  induction h with
  | refl => exact .refl s
  | tail _ hmove ih => exact ih.trans hmove.confined

/-- The invariant rule: what every call keeps, and the inbox and the permits do not matter for, is kept. -/
theorem Acts.keeps {I : AppState → Prop} (hcall : ∀ s a, I s → I (AgentAction.perform s a))
    (haside : ∀ s inbox permits, I s → I { s with inbox := inbox, sseConnections := permits })
    (h : Acts now P s s') (hs : I s) : I s' := by
  induction h with
  | refl => exact hs
  | tail _ hmove ih =>
    cases hmove with
    | call a hnow hwithin => exact hcall _ a ih
    | aside inbox permits => exact haside _ inbox permits ih

theorem Acts.call (a : AgentAction) (hnow : a.now = now) (h : a.Within P s) : Acts now P s (a.perform s) :=
  .single (.call a hnow h)

theorem Acts.atomic (call : StateCall) (hnow : call.now = now) (h : call.Within P s) {α : Type}
    {r : BridgeResult α × AppState} (hr : (call.perform s).2 = (failure r).2) : Acts now P s r.2 := by
  rw [failure_state] at hr
  rw [← hr]
  exact .call (.atomic call) hnow h

end Acts

section Calls
variable {now : Now} {P : Effect → Prop} {s : AppState} {slug key : Text}

theorem Acts.registerAgent {agent : Agent} (hP : P (.registration (Text.trim agent.agentKey))) :
    Acts now P s (s.registerAgent now agent).2 := .atomic (.registerAgent now agent) rfl hP rfl

theorem Acts.createOrGetChannel {w : Surroundings} {topic createdBy : Text}
    (hP : P (.channel (slugify w slug) (creatorName createdBy))) :
    Acts now P s (s.createOrGetChannel w now slug topic createdBy).2 :=
  .atomic (.createOrGetChannel w now slug topic createdBy) rfl hP rfl

theorem Acts.resolveChannel {w : Surroundings} {topicId suffixId query createdBy : Text} {threshold : Option Float32}
    (hP : ∀ slug, P (.channel slug (creatorName createdBy))) :
    Acts now P s (s.resolveChannel w now topicId suffixId query createdBy threshold).2 :=
  .atomic (.resolveChannel w now topicId suffixId query createdBy threshold) rfl hP rfl

theorem Acts.join (hP : P (.seat slug (Text.trim key))) (role : MemberRole) :
    Acts now P s (s.join now slug key role).2 :=
  .atomic (.join now slug key role) rfl hP rfl

theorem Acts.leave (hP : P (.seat slug key)) : Acts now P s (s.leave now slug key).2 :=
  .atomic (.leave now slug key) rfl hP rfl

theorem Acts.postMessage {sender : Text} (hseat : P (.seat slug (Text.trim sender)))
    (hmessage : P (.message slug (Text.trim sender))) (newId : Text) (role : Role) (content : Text) (metadata : Json) :
    Acts now P s (s.postMessage now newId slug sender role content metadata).2 :=
  .atomic (.postMessage now newId slug sender role content metadata) rfl ⟨hseat, hmessage⟩ rfl

theorem Acts.setContext {value : Json} {updatedBy : Text}
    (hP : P (.entry slug (Text.trim key) (writerName updatedBy))) :
    Acts now P s (s.setContext now slug key value updatedBy).2 :=
  .atomic (.setContext now slug key value updatedBy) rfl hP rfl

theorem Acts.setContextInternal {value : ContextValue} {updatedBy : Text}
    (hentry : P (.entry slug (Text.trim key) (writerName updatedBy)))
    (hrecord : ∀ author ∈ value.author, P (.record slug (Text.trim key) author)) :
    Acts now P s (s.setContextInternal now slug key value updatedBy).2 :=
  .atomic (.setContextInternal now slug key value updatedBy) rfl ⟨hentry, hrecord⟩ rfl

theorem Acts.acquireFileLease {newId repository path agentKey purpose : Text} {ttlMs : Nat} {recursive : Bool}
    {metadata : Json} (hP : ∀ id, P (.lease id (Text.trim agentKey)))
    (hover : ∀ old, s.fileLeases.get newId = some old → P (.lease newId old.lease.agentKey)) :
    Acts now P s (s.acquireFileLease now newId repository path agentKey ttlMs recursive purpose metadata).2 :=
  .atomic (.acquireFileLease now newId repository path agentKey ttlMs recursive purpose metadata) rfl ⟨hP, hover⟩ rfl

theorem Acts.renewFileLease {leaseId agentKey : Text} {fencingToken ttlMs : Nat}
    (hP : ∀ id, P (.lease id (Text.trim agentKey))) :
    Acts now P s (s.renewFileLease now leaseId agentKey fencingToken ttlMs).2 :=
  .atomic (.renewFileLease now leaseId agentKey fencingToken ttlMs) rfl hP rfl

theorem Acts.releaseFileLease {leaseId agentKey : Text} {fencingToken : Nat}
    (hP : ∀ id, P (.lease id (Text.trim agentKey))) :
    Acts now P s (s.releaseFileLease now leaseId agentKey fencingToken).2 :=
  .atomic (.releaseFileLease now leaseId agentKey fencingToken) rfl hP rfl

theorem Acts.subscribe {agentKey : Option Text}
    (hP : ∀ key ∈ agentKey, Text.trim key ≠ [] → P (.seat slug (Text.trim key))) :
    Acts now P s (s.subscribe now slug agentKey).2 := .call (.subscribe now slug agentKey) rfl hP

theorem Acts.fileLeaseHolders {repository path agentKey : Option Text} {includeDescendants : Bool} :
    Acts now P s (s.fileLeaseHolders now repository path agentKey includeDescendants).2 :=
  .call (.holders now repository path agentKey includeDescendants) rfl trivial

end Calls
end AgentBridge
