import AgentBridge.State.Effects
import AgentBridge.State.Identity

/-! What happens between two states in the name of an agent, and in whose name each call of the state acts. -/

namespace AgentBridge
open State

/-- A change of the state that names an agent. -/
inductive Effect
  | channel (slug createdBy : Text)
  | seat (slug agentKey : Text)
  | message (slug sender : Text)
  | registration (agentKey : Text)
  | entry (slug key updatedBy : Text)
  | record (slug key agentKey : Text)
  | lease (id agentKey : Text)

def Effect.agentKey : Effect → Text
  | channel _ createdBy => createdBy
  | seat _ agentKey => agentKey
  | message _ sender => sender
  | registration agentKey => agentKey
  | entry _ _ updatedBy => updatedBy
  | record _ _ agentKey => agentKey
  | lease _ agentKey => agentKey

/-- The agent in whose name a record of a workflow, a submission or a lease stands. -/
def ContextValue.author : ContextValue → Option Text
  | json _ => none
  | workflowPlan plan => some plan.createdBy
  | workflowSubmission submission => some submission.agentKey
  | admission _ => none
  | blindPlan plan => some plan.createdBy
  | blindSubmission submission => some submission.agentKey
  | blindReveal reveal => some reveal.reviewerAgentKey
  | leaseDescriptor descriptor => some descriptor.agentKey

namespace AppState

def memberOf (s : AppState) (slug key : Text) : Option Member :=
  (s.channels.get slug).bind fun ch => ch.members.get key

def sent (s : AppState) (slug : Text) : List Event := (s.channels.get slug).elim [] ChannelState.events

def creatorOf (s : AppState) (slug : Text) : Option Text := (s.channels.get slug).map ChannelState.createdBy

end AppState

/-- The effect is one of the changes from the first state to the second. A lease that has expired ends in nobody's
name. -/
inductive Occurs (now : Now) (s s' : AppState) : Effect → Prop
  | channel {slug key : Text} (h : s'.creatorOf slug = some key) (hnew : s.creatorOf slug ≠ some key) :
      Occurs now s s' (.channel slug key)
  | seat {slug key : Text} (h : s'.memberOf slug key ≠ s.memberOf slug key) : Occurs now s s' (.seat slug key)
  | message {slug : Text} {m : Message} (h : .message m ∈ (s'.sent slug).drop (s.sent slug).length) :
      Occurs now s s' (.message slug m.sender)
  | registration {key : Text} (h : s'.agents.get key ≠ s.agents.get key) : Occurs now s s' (.registration key)
  | entry {slug key : Text} {e : ContextEntry} (h : s'.entry slug key = some e) (hnew : s.entry slug key ≠ some e) :
      Occurs now s s' (.entry slug key e.updatedBy)
  | record {slug key author : Text} {e : ContextEntry} (h : s'.entry slug key = some e)
      (hnew : s.entry slug key ≠ some e) (hauthor : e.value.author = some author) :
      Occurs now s s' (.record slug key author)
  | granted {id : Text} {l : FileLeaseState} (h : s'.fileLeases.get id = some l) (hnew : s.fileLeases.get id ≠ some l) :
      Occurs now s s' (.lease id l.lease.agentKey)
  | ended {id : Text} {l : FileLeaseState} (h : s.fileLeases.get id = some l) (hlive : now.instant < l.expiresAt)
      (hend : s'.fileLeases.get id ≠ some l) : Occurs now s s' (.lease id l.lease.agentKey)

/-- All that happens between the states is one of the given effects. -/
structure Confined (now : Now) (P : Effect → Prop) (s s' : AppState) : Prop where
  config : s'.config = s.config
  sent : ∀ slug, s.sent slug <+: s'.sent slug
  effects : ∀ e, Occurs now s s' e → P e

section Confined
variable {now : Now} {P Q : Effect → Prop} {s s' s'' : AppState} {slug key : Text} {ch : ChannelState}

theorem Confined.refl (s : AppState) : Confined now P s s where
  config := rfl
  sent := fun slug => List.prefix_refl _
  effects := by
    intro e h
    cases h with
    | channel h hnew => exact absurd h hnew
    | seat h => exact absurd rfl h
    | message h =>
      rw [List.drop_length] at h
      cases h
    | registration h => exact absurd rfl h
    | entry h hnew => exact absurd h hnew
    | record h hnew => exact absurd h hnew
    | granted h hnew => exact absurd h hnew
    | ended h _ hend => exact absurd h hend

theorem Confined.mono (h : Confined now P s s') (hPQ : ∀ e, P e → Q e) : Confined now Q s s' where
  config := h.config
  sent := h.sent
  effects := fun e he => hPQ e (h.effects e he)

theorem Confined.trans (h : Confined now P s s') (h' : Confined now P s' s'') : Confined now P s s'' where
  config := h'.config.trans h.config
  sent := fun slug => (h.sent slug).trans (h'.sent slug)
  effects := by
    intro e he
    cases he with
    | @channel slug key hlast hnew =>
      by_cases hmid : s'.creatorOf slug = some key
      · exact h.effects _ (.channel hmid hnew)
      · exact h'.effects _ (.channel hlast hmid)
    | @seat slug key hne =>
      by_cases hmid : s'.memberOf slug key = s.memberOf slug key
      · exact h'.effects _ (.seat (hmid ▸ hne))
      · exact h.effects _ (.seat hmid)
    | @message slug m hm =>
      obtain ⟨es, hes⟩ := h.sent slug
      obtain ⟨es', hes'⟩ := h'.sent slug
      rw [← hes', ← hes, List.append_assoc, List.drop_left] at hm
      rcases List.mem_append.mp hm with hm | hm
      · refine h.effects _ (.message ?_)
        rwa [← hes, List.drop_left]
      · refine h'.effects _ (.message ?_)
        rwa [← hes', List.drop_left]
    | @registration key hne =>
      by_cases hmid : s'.agents.get key = s.agents.get key
      · exact h'.effects _ (.registration (hmid ▸ hne))
      · exact h.effects _ (.registration hmid)
    | @entry slug key e hlast hnew =>
      by_cases hmid : s'.entry slug key = some e
      · exact h.effects _ (.entry hmid hnew)
      · exact h'.effects _ (.entry hlast hmid)
    | @record slug key author e hlast hnew hauthor =>
      by_cases hmid : s'.entry slug key = some e
      · exact h.effects _ (.record hmid hnew hauthor)
      · exact h'.effects _ (.record hlast hmid hauthor)
    | @granted id l hlast hnew =>
      by_cases hmid : s'.fileLeases.get id = some l
      · exact h.effects _ (.granted hmid hnew)
      · exact h'.effects _ (.granted hlast hmid)
    | @ended id l hfirst hlive hend =>
      by_cases hmid : s'.fileLeases.get id = some l
      · exact h'.effects _ (.ended hmid hlive hend)
      · exact h.effects _ (.ended hfirst hlive hmid)

theorem confined_tables (hconfig : s'.config = s.config) (hchannels : s'.channels = s.channels)
    (hagents : ∀ key, s'.agents.get key ≠ s.agents.get key → P (.registration key))
    (hgranted : ∀ id l, s'.fileLeases.get id = some l → s.fileLeases.get id ≠ some l → P (.lease id l.lease.agentKey))
    (hended : ∀ id l, s.fileLeases.get id = some l → now.instant < l.expiresAt → s'.fileLeases.get id ≠ some l →
      P (.lease id l.lease.agentKey)) : Confined now P s s' := by
  have hentry (slug key : Text) : s'.entry slug key = s.entry slug key := entry_of_channels hchannels slug key
  have hsent (slug : Text) : s'.sent slug = s.sent slug := by rw [AppState.sent, AppState.sent, hchannels]
  refine ⟨hconfig, fun slug => by rw [hsent], fun e he => ?_⟩
  cases he with
  | channel h hnew =>
    rw [AppState.creatorOf, hchannels] at h
    exact absurd h hnew
  | seat h =>
    rw [AppState.memberOf, hchannels] at h
    exact absurd rfl h
  | message h =>
    rw [hsent, List.drop_length] at h
    cases h
  | registration h => exact hagents _ h
  | entry h hnew =>
    rw [hentry] at h
    exact absurd h hnew
  | record h hnew =>
    rw [hentry] at h
    exact absurd h hnew
  | granted h hnew => exact hgranted _ _ h hnew
  | ended h hlive hend => exact hended _ _ h hlive hend

theorem Confined.of_same (hconfig : s'.config = s.config) (hagents : s'.agents = s.agents)
    (hleases : s'.fileLeases = s.fileLeases) (hchannels : s'.channels = s.channels) : Confined now P s s' := by
  refine confined_tables hconfig hchannels ?_ ?_ ?_
  · intro key h
    rw [hagents] at h
    exact absurd rfl h
  · intro id l h hnew
    rw [hleases] at h
    exact absurd h hnew
  · intro id l h _ hend
    rw [hleases] at hend
    exact absurd h hend

theorem confined_setChannel (es : List Event)
    (hcreated : s.creatorOf slug ≠ some ch.createdBy → P (.channel slug ch.createdBy))
    (hseat : ∀ key, ch.members.get key ≠ s.memberOf slug key → P (.seat slug key))
    (hevents : ch.events = s.sent slug ++ es) (hsent : ∀ m, .message m ∈ es → P (.message slug m.sender))
    (hentry : ∀ key e, ch.context.get key = some e → s.entry slug key ≠ some e →
      P (.entry slug key e.updatedBy) ∧ ∀ author ∈ e.value.author, P (.record slug key author)) :
    Confined now P s (s.setChannel slug ch) := by
  have hget (slug' : Text) : (s.setChannel slug ch).channels.get slug' =
      if slug' = slug then some ch else s.channels.get slug' := Table.get_insert _ _ _ _
  have hself : (s.setChannel slug ch).sent slug = s.sent slug ++ es := by
    rw [AppState.sent, hget, if_pos rfl]
    exact hevents
  have hother {slug' : Text} (h : slug' ≠ slug) : (s.setChannel slug ch).channels.get slug' = s.channels.get slug' := by
    rw [hget, if_neg h]
  refine ⟨rfl, ?_, ?_⟩
  · intro slug'
    by_cases heq : slug' = slug
    · rw [heq, hself]
      exact List.prefix_append _ _
    · rw [AppState.sent, AppState.sent, hother heq]
  · intro e he
    -- an effect in another room was there before, one in this room is covered by what changed
    cases he with
    | @channel slug' key h hnew =>
      by_cases heq : slug' = slug
      · rw [heq, AppState.creatorOf, hget, if_pos rfl] at h
        cases h
        rw [heq] at hnew ⊢
        exact hcreated hnew
      · rw [AppState.creatorOf, hother heq] at h
        exact absurd h hnew
    | @seat slug' key h =>
      by_cases heq : slug' = slug
      · rw [heq, AppState.memberOf, hget, if_pos rfl] at h
        rw [heq]
        exact hseat key h
      · rw [AppState.memberOf, hother heq] at h
        exact absurd rfl h
    | @message slug' m h =>
      by_cases heq : slug' = slug
      · rw [heq, hself, List.drop_left] at h
        rw [heq]
        exact hsent m h
      · have hsame : (s.setChannel slug ch).sent slug' = s.sent slug' := by
          rw [AppState.sent, AppState.sent, hother heq]
        rw [hsame, List.drop_length] at h
        cases h
    | registration h => exact absurd rfl h
    | @entry slug' key e h hnew =>
      by_cases heq : slug' = slug
      · rw [heq, AppState.entry, hget, if_pos rfl] at h
        rw [heq] at hnew ⊢
        exact (hentry key e h hnew).1
      · rw [AppState.entry, hother heq] at h
        exact absurd h hnew
    | @record slug' key author e h hnew hauthor =>
      by_cases heq : slug' = slug
      · rw [heq, AppState.entry, hget, if_pos rfl] at h
        rw [heq] at hnew ⊢
        exact (hentry key e h hnew).2 author hauthor
      · rw [AppState.entry, hother heq] at h
        exact absurd h hnew
    | granted h hnew => exact absurd h hnew
    | ended h _ hend => exact absurd h hend

end Confined

section Rooms
variable {P : Effect → Prop} {s : AppState} {now : Now} {slug key : Text} {ch : ChannelState}

theorem memberOf_of_channel (hch : s.channels.get slug = some ch) (key : Text) :
    s.memberOf slug key = ch.members.get key := by
  rw [AppState.memberOf, hch]
  rfl

theorem sent_of_channel (hch : s.channels.get slug = some ch) : s.sent slug = ch.events := by
  rw [AppState.sent, hch]
  rfl

theorem creatorOf_of_channel (hch : s.channels.get slug = some ch) : s.creatorOf slug = some ch.createdBy := by
  rw [AppState.creatorOf, hch]
  rfl

theorem confined_room {ch' : ChannelState} (hch : s.channels.get slug = some ch) (es : List Event)
    (hcreated : ch'.createdBy = ch.createdBy) (hcontext : ch'.context = ch.context)
    (hseat : ∀ key, ch'.members.get key ≠ ch.members.get key → P (.seat slug key))
    (hevents : ch'.events = ch.events ++ es)
    (hsent : ∀ m, .message m ∈ es → P (.message slug m.sender)) : Confined now P s (s.setChannel slug ch') := by
  refine confined_setChannel es ?_ ?_ ?_ hsent ?_
  · intro hnew
    rw [creatorOf_of_channel hch, hcreated] at hnew
    exact absurd rfl hnew
  · intro key hne
    rw [memberOf_of_channel hch] at hne
    exact hseat key hne
  · rw [sent_of_channel hch, hevents]
  · intro key e he hnew
    rw [hcontext, ← entry_of_channel hch] at he
    exact absurd he hnew

theorem seat_of_insert {m : Member} {members : Table Text Member} (hP : P (.seat slug key)) (key' : Text)
    (h : (members.insert key m).get key' ≠ members.get key') : P (.seat slug key') := by
  by_cases heq : key' = key
  · rwa [heq]
  · exact absurd (Table.get_insert_ne heq) h

theorem confined_join (hP : P (.seat slug (Text.trim key))) (role : MemberRole) :
    Confined now P s (s.join now slug key role).2 := by
  have heffect := join_effect s now slug key role
  generalize s.join now slug key role = r at heffect
  cases heffect with
  | refused e => exact .refl s
  | seen hch hm =>
    refine confined_room hch [] rfl rfl (fun key' => seat_of_insert hP key') (List.append_nil _).symm ?_
    exact fun m hm => absurd hm List.not_mem_nil
  | seated hch hm =>
    refine confined_room hch [_] rfl rfl (fun key' => seat_of_insert hP key') rfl ?_
    intro m hm
    cases List.mem_singleton.mp hm

theorem confined_leave (hP : P (.seat slug key)) : Confined now P s (s.leave now slug key).2 := by
  unfold AppState.leave
  cases hch : s.channels.get slug with
  | none => exact .refl s
  | some ch =>
    dsimp only
    split_ifs with hmember
    · refine confined_room hch [_] rfl rfl ?_ rfl ?_
      · intro key' hne
        by_cases heq : key' = key
        · rwa [heq]
        · exact absurd (Table.get_remove_ne heq) hne
      · intro m hm
        cases List.mem_singleton.mp hm
    · exact .refl s

theorem confined_post {sender : Text} (hseat : P (.seat slug (Text.trim sender)))
    (hmessage : P (.message slug (Text.trim sender))) (newId : Text) (role : Role) (content : Text) (metadata : Json) :
    Confined now P s (s.postMessage now newId slug sender role content metadata).2 := by
  have heffect := post_effect s now newId slug sender role content metadata
  generalize s.postMessage now newId slug sender role content metadata = r at heffect
  cases heffect with
  | refused e => exact .refl s
  | @posted s₁ ch out hjoin hch =>
    have hseat' : P (.seat slug (Text.trim (Text.trim sender))) := by rwa [Text.trim_trim]
    have hjoined : Confined now P s s₁ := by
      have hstate := @confined_join P s now slug (Text.trim sender) hseat' .member
      rwa [hjoin] at hstate
    refine hjoined.trans (confined_room hch [_] rfl rfl ?_ rfl ?_)
    · intro key hne
      unfold AppState.append at hne
      dsimp only [AppState.newMessage] at hne
      cases hmember : ch.members.get (Text.trim sender) with
      | none =>
        rw [hmember] at hne
        exact absurd rfl hne
      | some m =>
        rw [hmember] at hne
        exact seat_of_insert hseat key hne
    · intro m hm
      cases List.mem_singleton.mp hm
      exact hmessage

theorem confined_subscribe {agentKey : Option Text}
    (hP : ∀ key ∈ agentKey, Text.trim key ≠ [] → P (.seat slug (Text.trim key))) :
    Confined now P s (s.subscribe now slug agentKey).2 := by
  unfold AppState.subscribe
  dsimp only
  cases hkey : agentKey.filter (fun k => Text.trim k ≠ []) with
  | none =>
    dsimp only
    cases s.channels.get slug with
    | none => exact .refl s
    | some ch => exact .refl s
  | some key =>
    obtain ⟨hmem, hne⟩ := Option.mem_filter_iff.mp hkey
    have hjoined := @confined_join P s now slug key (hP key hmem (of_decide_eq_true hne)) .member
    dsimp only
    rcases hjoin : s.join now slug key .member with ⟨e | out, s₁⟩
    · rwa [hjoin] at hjoined
    · rw [hjoin] at hjoined
      dsimp only
      cases s₁.channels.get slug with
      | none => exact hjoined
      | some ch => exact hjoined

/-- Who creates a channel, as it is kept. -/
def creatorName (createdBy : Text) : Text :=
  Text.truncateBytes maxKeyBytes (if Text.trim createdBy = [] then "system".toList else Text.trim createdBy)

theorem confined_insertChannel {topic createdBy : Text} {embedding : List Float32} {model : Text}
    (hP : P (.channel slug (creatorName createdBy))) :
    Confined now P s (s.insertChannel now slug topic createdBy embedding model).2 := by
  unfold AppState.insertChannel
  dsimp only
  cases hch : s.channels.get slug with
  | some ch => exact .refl s
  | none =>
    dsimp only
    by_cases hfull : s.channels.size ≥ s.config.maxChannels
    · rw [if_pos hfull]
      exact .refl s
    · rw [if_neg hfull]
      refine confined_setChannel [] (fun _ => hP) ?_ ?_ (fun m hm => absurd hm List.not_mem_nil) ?_
      · intro key hne
        rw [AppState.memberOf, hch] at hne
        exact absurd rfl hne
      · rw [AppState.sent, hch]
        rfl
      · intro key e he
        cases he

theorem confined_createOrGetChannel {w : Surroundings} {topic createdBy : Text}
    (hP : P (.channel (slugify w slug) (creatorName createdBy))) :
    Confined now P s (s.createOrGetChannel w now slug topic createdBy).2 := by
  unfold AppState.createOrGetChannel
  dsimp only
  by_cases hempty : slugify w slug = []
  · rw [if_pos hempty]
    exact .refl s
  · rw [if_neg hempty]
    cases hch : s.channels.get (slugify w slug) with
    | some ch => exact .refl s
    | none => exact confined_insertChannel hP

theorem confined_resolveChannel {w : Surroundings} {topicId suffixId query createdBy : Text}
    {threshold : Option Float32}
    (hP : ∀ slug, P (.channel slug (creatorName createdBy))) :
    Confined now P s (s.resolveChannel w now topicId suffixId query createdBy threshold).2 := by
  unfold AppState.resolveChannel
  dsimp only
  by_cases hempty : Text.trim query = []
  · rw [if_pos hempty]
    exact .refl s
  · rw [if_neg hempty]
    cases bestScored (s.channels.values.map fun c => (c.slug, cosine (w.embed (Text.trim query)).1 c.embedding)) with
    | none => exact confined_insertChannel (hP _)
    | some best =>
      dsimp only
      by_cases hclose : s.resolveThreshold threshold ≤ best.2
      · rw [if_pos hclose]
        exact .refl s
      · rw [if_neg hclose]
        exact confined_insertChannel (hP _)

/-- Who wrote an entry, as it is kept. -/
def writerName (updatedBy : Text) : Text := Text.truncateBytes maxKeyBytes updatedBy

theorem confined_setContextInternal {value : ContextValue} {updatedBy : Text}
    (hentry : P (.entry slug (Text.trim key) (writerName updatedBy)))
    (hrecord : ∀ author ∈ value.author, P (.record slug (Text.trim key) author)) :
    Confined now P s (s.setContextInternal now slug key value updatedBy).2 := by
  rcases setContextInternal_cases s now slug key value updatedBy with ⟨e, he⟩ | ⟨ch, hch, he⟩
  · rw [he]
    exact .refl s
  · rw [he]
    refine confined_setChannel [] ?_ ?_ ?_ (fun m hm => absurd hm List.not_mem_nil) ?_
    · intro hnew
      rw [creatorOf_of_channel hch] at hnew
      exact absurd rfl hnew
    · intro key' hne
      rw [memberOf_of_channel hch] at hne
      exact absurd rfl hne
    · rw [sent_of_channel hch, List.append_nil]
      rfl
    · intro key' e hget hnew
      rw [ChannelState.putContext, Table.get_insert] at hget
      split_ifs at hget with hkey
      · cases hget
        rw [hkey]
        exact ⟨hentry, hrecord⟩
      · rw [← entry_of_channel hch] at hget
        exact absurd hget hnew

theorem confined_setContext {value : Json} {updatedBy : Text}
    (hentry : P (.entry slug (Text.trim key) (writerName updatedBy))) :
    Confined now P s (s.setContext now slug key value updatedBy).2 := by
  unfold AppState.setContext
  by_cases hreserved : isReservedContextKey key = true
  · rw [if_pos hreserved]
    exact .refl s
  · rw [if_neg hreserved]
    exact confined_setContextInternal hentry fun author hauthor => by cases hauthor

end Rooms

section Agents
variable {P : Effect → Prop} {s : AppState} {now : Now}

theorem confined_registerAgent {agent : Agent} (hP : P (.registration (Text.trim agent.agentKey))) :
    Confined now P s (s.registerAgent now agent).2 := by
  rcases s.registerAgent_cases now agent with ⟨e, he⟩ | ⟨agent', -, he⟩
  · rw [he]
    exact .refl s
  · rw [he]
    refine confined_tables rfl rfl ?_ (fun id l h hnew => absurd h hnew) (fun id l h _ hend => absurd h hend)
    intro key hne
    by_cases heq : key = Text.trim agent.agentKey
    · rwa [heq]
    · exact absurd (Table.get_insert_ne heq) hne

theorem confined_pruneLeases (s : AppState) (now : Now) : Confined now P s (s.pruneLeases now) := by
  refine confined_tables rfl rfl (fun key h => absurd rfl h) ?_ ?_
  · intro id l h hne
    exact absurd (Table.get_retain_eq_some.mp h).1 hne
  · intro id l h hlive hend
    exact absurd (Table.get_retain_eq_some.mpr ⟨h, decide_eq_true hlive⟩) hend

theorem confined_fileLeaseHolders {repository path agentKey : Option Text} {includeDescendants : Bool} :
    Confined now P s (s.fileLeaseHolders now repository path agentKey includeDescendants).2 := by
  unfold AppState.fileLeaseHolders
  cases repository.mapM normalizeRepository with
  | error e => exact .refl s
  | ok repository =>
    cases path.mapM normalizeFilePath with
    | error e => exact .refl s
    | ok path => exact confined_pruneLeases s now

theorem confined_insertLease {id : Text} {l : FileLeaseState} {token : Nat} (hP : P (.lease id l.lease.agentKey))
    (hover : ∀ old, s.fileLeases.get id = some old → P (.lease id old.lease.agentKey)) :
    Confined now P s { s with nextFileFencingToken := token, fileLeases := s.fileLeases.insert id l } := by
  refine confined_tables rfl rfl (fun key h => absurd rfl h) ?_ ?_
  · intro id' l' h hne
    rw [Table.get_insert] at h
    split_ifs at h with hid
    · cases h
      rwa [hid]
    · exact absurd h hne
  · intro id' l' h _ hend
    rw [Table.get_insert] at hend
    split_ifs at hend with hid
    · rw [hid] at h ⊢
      exact hover l' h
    · exact absurd h hend

theorem confined_acquireFileLease {newId repository path agentKey purpose : Text} {ttlMs : Nat} {recursive : Bool}
    {metadata : Json} (hP : ∀ id, P (.lease id (Text.trim agentKey)))
    (hover : ∀ old, s.fileLeases.get newId = some old → P (.lease newId old.lease.agentKey)) :
    Confined now P s (s.acquireFileLease now newId repository path agentKey ttlMs recursive purpose metadata).2 := by
  unfold AppState.acquireFileLease
  cases hchecks : s.acquireChecks repository path agentKey ttlMs metadata with
  | error e => exact .refl s
  | ok args =>
    obtain ⟨repository', path', key⟩ := args
    obtain ⟨-, -, hkey, -⟩ := acquireChecks_eq_ok.mp hchecks
    dsimp only at hkey ⊢
    rw [hkey]
    refine (confined_pruneLeases s now).trans ?_
    have hkept (old : FileLeaseState) (hold : (s.pruneLeases now).fileLeases.get newId = some old) :
        P (.lease newId old.lease.agentKey) := hover old (Table.get_retain_eq_some.mp hold).1
    generalize s.pruneLeases now = pruned at hkept ⊢
    unfold AppState.grantFileLease
    split
    · exact .refl pruned
    · split
      next id existing hfound =>
        obtain ⟨hget, hmatch⟩ := Table.findEntry_eq_some hfound
        simp only [Bool.and_eq_true, beq_iff_eq] at hmatch
        have howner : P (.lease id existing.lease.agentKey) := by
          rw [hmatch.2]
          exact hP id
        refine @confined_insertLease P pruned now _ _ pruned.nextFileFencingToken howner ?_
        intro old hold
        rw [hget] at hold
        cases hold
        exact howner
      next =>
        dsimp only
        split_ifs
        · exact .refl pruned
        · exact confined_insertLease (hP newId) hkept

theorem fencedLease_owner {leaseId agentKey : Text} {fencingToken : Nat} {v : FileLeaseState}
    (h : s.fencedLease leaseId agentKey fencingToken = .ok v) :
    s.fileLeases.get leaseId = some v ∧ v.lease.agentKey = Text.trim agentKey := by
  unfold AppState.fencedLease at h
  cases hget : s.fileLeases.get leaseId with
  | none =>
    rw [hget] at h
    cases h
  | some value =>
    rw [hget] at h
    dsimp only at h
    split_ifs at h with howner htoken
    cases h
    exact ⟨rfl, not_not.mp howner⟩

theorem confined_extendLease {leaseId agentKey : Text} {expiry : Timestamp} {instant : Nat} {v : FileLeaseState}
    (hP : ∀ id, P (.lease id (Text.trim agentKey))) (hget : s.fileLeases.get leaseId = some v)
    (howner : v.lease.agentKey = Text.trim agentKey) : Confined now P s { s with
      fileLeases := s.fileLeases.insert leaseId
        { lease := { v.lease with expiresAt := expiry }, expiresAt := instant } } := by
  refine @confined_insertLease P s now leaseId _ _ (howner ▸ hP leaseId) ?_
  intro old hold
  rw [hget] at hold
  cases hold
  exact howner ▸ hP leaseId

theorem confined_renewFileLease {leaseId agentKey : Text} {fencingToken ttlMs : Nat}
    (hP : ∀ id, P (.lease id (Text.trim agentKey))) :
    Confined now P s (s.renewFileLease now leaseId agentKey fencingToken ttlMs).2 := by
  unfold AppState.renewFileLease
  cases normalizeFileLeaseTtl ttlMs with
  | error e => exact .refl s
  | ok ttl =>
    have hpruned := @confined_pruneLeases P s now
    dsimp only
    cases hfenced : (s.pruneLeases now).fencedLease leaseId agentKey fencingToken with
    | error e => exact hpruned
    | ok v =>
      obtain ⟨hget, howner⟩ := fencedLease_owner hfenced
      exact hpruned.trans (confined_extendLease hP hget howner)

theorem confined_releaseFileLease {leaseId agentKey : Text} {fencingToken : Nat}
    (hP : ∀ id, P (.lease id (Text.trim agentKey))) :
    Confined now P s (s.releaseFileLease now leaseId agentKey fencingToken).2 := by
  unfold AppState.releaseFileLease
  have hpruned := @confined_pruneLeases P s now
  dsimp only
  cases hfenced : (s.pruneLeases now).fencedLease leaseId agentKey fencingToken with
  | error e => exact hpruned
  | ok v =>
    obtain ⟨hget, howner⟩ := fencedLease_owner hfenced
    refine hpruned.trans (confined_tables rfl rfl (fun key h => absurd rfl h) ?_ ?_)
    · intro id l h hne
      by_cases hid : id = leaseId
      · rw [hid, Table.get_remove_self] at h
        cases h
      · rw [Table.get_remove_ne hid] at h
        exact absurd h hne
    · intro id l h _ hend
      by_cases hid : id = leaseId
      · rw [hid, hget] at h
        cases h
        rw [howner]
        exact hP id
      · rw [Table.get_remove_ne hid] at hend
        exact absurd h hend

end Agents
end AgentBridge
