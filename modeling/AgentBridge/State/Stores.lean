import AgentBridge.Base.Result
import AgentBridge.Base.Run
import AgentBridge.State.Effects

/-! The stores under concurrent calls, at the granularity of the locks. Looking a channel
up, probing for a free slug and inserting are sections of their own, and other calls run
in between. -/

namespace AgentBridge
open State

/-- What `insert_channel` is called with. -/
structure Birth where
  slug : Text
  topic : Text
  createdBy : Text
  embedding : List Float32
  embeddingModel : Text

/-- How far a call that may create a channel has come. -/
inductive CreatingStage
  /-- `create_or_get_channel` found no channel and goes on to insert one. -/
  | creating (b : Birth)
  /-- `unique_slug` of `resolve_channel` with the candidates it has yet to look up; the slug of
  `b` is the one to take when all are taken. -/
  | probing (candidates : List Text) (b : Birth)
  /-- `resolve_channel` has a slug and goes on to insert its channel. -/
  | minting (b : Birth)
  /-- `resolve_channel` found a close topic and goes on to fetch its channel. -/
  | fetching (slug : Text) (score : Float32)
  | done

/-- What calls returned. The first number is the call. -/
inductive StoreEvent
  | inserted (call : Nat) (slug : Text) (channel : Channel) (created : Bool)
  | answered (call : Nat) (slug : Text) (channel : Channel)
  | resolved (call : Nat) (slug : Text) (outcome : ResolveOutcome)

/-- The state, the creating calls by their numbers, and what was returned so far. -/
structure StoreWorld where
  state : AppState
  calls : List CreatingStage
  log : List StoreEvent

/-- One section of a call. `create` and `resolve` begin a creating call, `advance` runs its next
section. `grant` is the locked part of an acquire, of which the checks change nothing. -/
inductive StoreAction
  | create (w : Surroundings) (slug topic createdBy : Text)
  | resolve (w : Surroundings) (topicId suffixId query createdBy : Text) (threshold : Option Float32)
  | advance (now : Now) (call : Nat)
  | register (now : Now) (agent : Agent)
  | grant (now : Now) (newId repository path agentKey : Text) (ttlMs : Nat) (recursive : Bool) (purpose : Text)
      (metadata : Json)
  | setContext (now : Now) (slug key : Text) (value : ContextValue) (updatedBy : Text)

namespace State

def slugCandidates (base : Text) : List Text :=
  base :: (List.range 998).map fun n => base ++ "-".toList ++ Text.decimal (n + 2)

end State

namespace StoreWorld

def init (config : Config) : StoreWorld := ⟨AppState.new config, [], []⟩

def begin (w : StoreWorld) (stage : CreatingStage) (events : List StoreEvent) : StoreWorld :=
  { w with calls := w.calls ++ [stage], log := w.log ++ events }

def beginCreate (w : StoreWorld) (env : Surroundings) (slug topic createdBy : Text) : StoreWorld :=
  let slug := slugify env slug
  if slug = [] then w.begin .done []
  else match w.state.channels.get slug with
  | some ch => w.begin .done [.answered w.calls.length slug ch.toPublic]
  | none =>
    let topic := if Text.trim topic = [] then slug.map (fun c => if c = '-' then ' ' else c) else topic
    w.begin (.creating ⟨slug, topic, createdBy, (env.embed topic).1, (env.embed topic).2⟩) []

/-- The scan of `resolve_channel` for the closest topic. -/
def beginResolve (w : StoreWorld) (env : Surroundings) (topicId suffixId query createdBy : Text)
    (threshold : Option Float32) : StoreWorld :=
  let query := Text.trim query
  if query = [] then w.begin .done []
  else
    let base := slugify env query
    let base := if base = [] then "topic-".toList ++ topicId.take 8 else base
    let mint := CreatingStage.probing (slugCandidates base)
      ⟨base ++ "-".toList ++ suffixId.take 8, query, createdBy, (env.embed query).1, (env.embed query).2⟩
    match bestScored (w.state.channels.values.map fun c => (c.slug, cosine (env.embed query).1 c.embedding)) with
    | none => w.begin mint []
    | some (slug, score) =>
      if w.state.resolveThreshold threshold ≤ score then w.begin (.fetching slug score) [] else w.begin mint []

def insertBirth (s : AppState) (now : Now) (b : Birth) : BridgeResult (Channel × Bool) × AppState :=
  s.insertChannel now b.slug b.topic b.createdBy b.embedding b.embeddingModel

/-- The write section of `insert_channel`, and what its caller makes of the result. -/
def insert (w : StoreWorld) (now : Now) (call : Nat) (b : Birth) (report : Channel → Bool → StoreEvent) : StoreWorld :=
  match insertBirth w.state now b with
  | (.error _, s) => { w with state := s, calls := w.calls.set call .done }
  | (.ok (channel, created), s) => {
      state := s
      calls := w.calls.set call .done
      log := w.log ++ [.inserted call b.slug channel created, report channel created] }

def advance (w : StoreWorld) (now : Now) (call : Nat) : StoreWorld :=
  match w.calls[call]? with
  | none => w
  | some .done => w
  | some (.creating b) => w.insert now call b fun channel _ => .answered call b.slug channel
  | some (.minting b) => w.insert now call b fun channel created =>
      .resolved call b.slug { channel := channel, score := 0, created := created }
  | some (.probing [] b) => { w with calls := w.calls.set call (.minting b) }
  | some (.probing (c :: candidates) b) =>
    let next := if w.state.channels.contains c then .probing candidates b else .minting { b with slug := c }
    { w with calls := w.calls.set call next }
  | some (.fetching slug score) =>
    match w.state.getChannel slug with
    | .error _ => { w with calls := w.calls.set call .done }
    | .ok channel => {
        state := w.state
        calls := w.calls.set call .done
        log := w.log ++ [.resolved call slug { channel := channel, score := score, created := false }] }

def step (w : StoreWorld) : StoreAction → StoreWorld
  | .create env slug topic createdBy => w.beginCreate env slug topic createdBy
  | .resolve env topicId suffixId query createdBy threshold =>
    w.beginResolve env topicId suffixId query createdBy threshold
  | .advance now call => w.advance now call
  | .register now agent => { w with state := (w.state.registerAgent now agent).2 }
  | .grant now newId repository path agentKey ttlMs recursive purpose metadata =>
    { w with state := ((w.state.pruneLeases now).grantFileLease now newId repository path agentKey ttlMs recursive
        purpose metadata).2 }
  | .setContext now slug key value updatedBy =>
    { w with state := (w.state.setContextInternal now slug key value updatedBy).2 }

abbrev run (config : Config) (as : List StoreAction) : StoreWorld := Run.exec step (init config) as

end StoreWorld

section Alone
variable {w : StoreWorld} {now : Now} {call : Nat}

theorem begin_calls (w : StoreWorld) (stage : CreatingStage) (es : List StoreEvent) :
    (w.begin stage es).calls[w.calls.length]? = some stage := List.getElem?_concat_length

theorem advance_done (h : w.calls[call]? = some .done) : w.advance now call = w := by
  rw [StoreWorld.advance, h]

theorem exec_done (h : w.calls[call]? = some .done) (n : Nat) :
    Run.exec StoreWorld.step w (List.replicate n (.advance now call)) = w := by
  induction n with
  | zero => rfl
  | succ n ih => rwa [List.replicate_succ, Run.exec_cons, StoreWorld.step, advance_done h]

theorem insert_calls (w : StoreWorld) (now : Now) (call : Nat) (b : Birth) (report : Channel → Bool → StoreEvent) :
    (w.insert now call b report).calls = w.calls.set call .done := by
  unfold StoreWorld.insert
  rcases StoreWorld.insertBirth w.state now b with ⟨r, s⟩
  cases r <;> rfl

theorem insert_stage (w : StoreWorld) (now : Now) (call : Nat) (b : Birth) (report : Channel → Bool → StoreEvent)
    (stage : CreatingStage) :
    ({ w with calls := w.calls.set call stage } : StoreWorld).insert now call b report =
    w.insert now call b report := by
  unfold StoreWorld.insert
  dsimp only
  rcases StoreWorld.insertBirth w.state now b with ⟨r, s⟩
  cases r <;> simp only [List.set_set]

def mintedReport (call : Nat) (slug : Text) (channel : Channel) (created : Bool) : StoreEvent :=
  .resolved call slug { channel := channel, score := 0, created := created }

theorem exec_minting {b : Birth} (h : w.calls[call]? = some (.minting b)) (n : Nat) :
    Run.exec StoreWorld.step w (List.replicate (n + 1) (.advance now call)) =
      w.insert now call b (mintedReport call b.slug) := by
  have hfirst : w.advance now call = w.insert now call b (mintedReport call b.slug) := by
    rw [StoreWorld.advance, h]
    rfl
  rw [List.replicate_succ, Run.exec_cons, StoreWorld.step, hfirst]
  apply exec_done
  rw [insert_calls, List.getElem?_set_self (List.getElem?_eq_some_iff.mp h).1]

theorem exec_probing {b : Birth} (candidates : List Text) (n : Nat)
    (h : w.calls[call]? = some (.probing candidates b)) :
    Run.exec StoreWorld.step w (List.replicate (candidates.length + n + 2) (.advance now call)) =
      let slug := (candidates.find? fun c => !w.state.channels.contains c).getD b.slug
      w.insert now call { b with slug := slug } (mintedReport call slug) := by
  have hcall : call < w.calls.length := (List.getElem?_eq_some_iff.mp h).1
  -- each step probes one candidate; the steps left over find the call done
  induction candidates generalizing w with
  | nil =>
    rw [List.length_nil, Nat.zero_add, List.replicate_succ, Run.exec_cons, StoreWorld.step, StoreWorld.advance, h]
    rw [exec_minting (List.getElem?_set_self hcall), insert_stage]
    rfl
  | cons c candidates ih =>
    have hlength : (c :: candidates).length + n + 2 = (candidates.length + n + 2) + 1 := by
      rw [List.length_cons]
      omega
    rw [hlength, List.replicate_succ, Run.exec_cons, StoreWorld.step, StoreWorld.advance, h]
    dsimp only
    by_cases htaken : w.state.channels.contains c = true
    · rw [if_pos htaken]
      have hrest := ih (w := { w with calls := w.calls.set call (.probing candidates b) })
        (List.getElem?_set_self hcall) (by rwa [List.length_set])
      dsimp only at hrest
      rw [hrest, insert_stage, List.find?_cons_of_neg (by rw [htaken]; exact Bool.false_ne_true)]
    · rw [if_neg htaken]
      rw [exec_minting (List.getElem?_set_self hcall), insert_stage]
      rw [List.find?_cons_of_pos (by rw [Bool.eq_false_iff.mpr htaken]; rfl)]
      rfl

theorem uniqueSlug_candidates (s : AppState) (topicId suffixId base : Text) :
    s.uniqueSlug topicId suffixId base =
      let base := if base = [] then "topic-".toList ++ topicId.take 8 else base
      ((slugCandidates base).find? fun c => !s.channels.contains c).getD (base ++ "-".toList ++ suffixId.take 8) := by
  unfold AppState.uniqueSlug slugCandidates
  dsimp only
  generalize (if base = [] then "topic-".toList ++ topicId.take 8 else base) = base
  rw [List.find?_cons]
  cases s.channels.contains base <;> rfl

theorem insert_alone (w : StoreWorld) (now : Now) (call : Nat) (b : Birth) (report : Channel → Bool → StoreEvent) :
    (w.insert now call b report).state = (StoreWorld.insertBirth w.state now b).2 ∧
      ∀ out, (StoreWorld.insertBirth w.state now b).1 = .ok out →
        report out.1 out.2 ∈ (w.insert now call b report).log := by
  unfold StoreWorld.insert
  rcases StoreWorld.insertBirth w.state now b with ⟨r, s⟩
  refine ⟨by cases r <;> rfl, ?_⟩
  rintro out rfl
  exact List.mem_append_right _ (List.mem_cons_of_mem _ (List.mem_singleton_self _))

/-- The sections of `create_or_get_channel` in a row are that operation. -/
theorem create_alone (w : StoreWorld) (env : Surroundings) (now : Now) (slug topic createdBy : Text) :
    let w' := Run.exec StoreWorld.step w [.create env slug topic createdBy, .advance now w.calls.length]
    w'.state = (w.state.createOrGetChannel env now slug topic createdBy).2 ∧
      ∀ channel, (w.state.createOrGetChannel env now slug topic createdBy).1 = .ok channel →
        .answered w.calls.length (slugify env slug) channel ∈ w'.log := by
  simp only [Run.exec_cons, Run.exec_nil, StoreWorld.step]
  unfold StoreWorld.beginCreate AppState.createOrGetChannel
  dsimp only
  by_cases hempty : slugify env slug = []
  · rw [if_pos hempty, if_pos hempty, advance_done (begin_calls ..)]
    exact ⟨rfl, fun channel h => by cases h⟩
  · rw [if_neg hempty, if_neg hempty]
    cases hch : w.state.channels.get (slugify env slug) with
    | some ch =>
      dsimp only
      rw [advance_done (begin_calls ..)]
      refine ⟨rfl, ?_⟩
      rintro channel ⟨⟩
      exact List.mem_append_right _ (List.mem_singleton_self _)
    | none =>
      dsimp only
      rw [StoreWorld.advance, begin_calls]
      dsimp only
      generalize (if Text.trim topic = [] then (slugify env slug).map fun c => if c = '-' then ' ' else c else topic) =
        topic
      obtain ⟨hstate, hlog⟩ := insert_alone (w.begin (.creating ⟨slugify env slug, topic, createdBy,
        (env.embed topic).1, (env.embed topic).2⟩) []) now w.calls.length ⟨slugify env slug, topic, createdBy,
        (env.embed topic).1, (env.embed topic).2⟩ fun channel _ => .answered w.calls.length (slugify env slug) channel
      refine ⟨hstate, ?_⟩
      intro channel hchannel
      obtain ⟨out, hout, rfl⟩ := Except.map_eq_ok.mp hchannel
      exact hlog out hout

/-- The sections of `resolve_channel` in a row are that operation: it looks up at most 999 slugs. -/
theorem resolve_alone (w : StoreWorld) (env : Surroundings) (now : Now) (topicId suffixId query createdBy : Text)
    (threshold : Option Float32) :
    let w' := Run.exec StoreWorld.step w (.resolve env topicId suffixId query createdBy threshold ::
      List.replicate 1001 (.advance now w.calls.length))
    w'.state = (w.state.resolveChannel env now topicId suffixId query createdBy threshold).2 ∧
      ∀ outcome, (w.state.resolveChannel env now topicId suffixId query createdBy threshold).1 = .ok outcome →
        ∃ slug, .resolved w.calls.length slug outcome ∈ w'.log := by
  dsimp only
  rw [Run.exec_cons, StoreWorld.step]
  unfold StoreWorld.beginResolve AppState.resolveChannel
  dsimp only
  by_cases hempty : Text.trim query = []
  · rw [if_pos hempty, if_pos hempty, exec_done (begin_calls ..)]
    exact ⟨rfl, fun outcome h => by cases h⟩
  · rw [if_neg hempty, if_neg hempty, uniqueSlug_candidates]
    generalize (if slugify env (Text.trim query) = [] then "topic-".toList ++ topicId.take 8
      else slugify env (Text.trim query)) = base
    -- the probes of the candidate slugs, and the insert under the first that is free
    have hmint : ∀ (b : Birth) (w' : StoreWorld),
        w' = Run.exec StoreWorld.step (w.begin (.probing (slugCandidates base) b) [])
          (List.replicate 1001 (.advance now w.calls.length)) →
        let slug := ((slugCandidates base).find? fun c => !w.state.channels.contains c).getD b.slug
        w'.state = (StoreWorld.insertBirth w.state now { b with slug := slug }).2 ∧
          ∀ out, (StoreWorld.insertBirth w.state now { b with slug := slug }).1 = .ok out →
            mintedReport w.calls.length slug out.1 out.2 ∈ w'.log := by
      intro b w' hw'
      have hprobing := @exec_probing (w.begin (.probing (slugCandidates base) b) []) now w.calls.length b
        (slugCandidates base) 0 (begin_calls w _ _)
      have hlength : (slugCandidates base).length + 0 + 2 = 1001 := by simp [slugCandidates]
      rw [hlength] at hprobing
      rw [hw', hprobing]
      exact insert_alone ..
    have hcreate : ∀ b w', b = ⟨base ++ "-".toList ++ suffixId.take 8, Text.trim query, createdBy,
        (env.embed (Text.trim query)).1, (env.embed (Text.trim query)).2⟩ →
        w' = Run.exec StoreWorld.step (w.begin (.probing (slugCandidates base) b) [])
          (List.replicate 1001 (.advance now w.calls.length)) →
        let r := w.state.insertChannel now (((slugCandidates base).find? fun c =>
          !w.state.channels.contains c).getD (base ++ "-".toList ++ suffixId.take 8)) (Text.trim query) createdBy
          (env.embed (Text.trim query)).1 (env.embed (Text.trim query)).2
        w'.state = r.2 ∧ ∀ outcome,
          r.1.map (fun p => { channel := p.1, score := 0, created := p.2 : ResolveOutcome }) = .ok outcome →
          ∃ slug, .resolved w.calls.length slug outcome ∈ w'.log := by
      rintro b w' rfl hw'
      obtain ⟨hstate, hlog⟩ := hmint _ w' hw'
      refine ⟨hstate, ?_⟩
      intro outcome hout
      obtain ⟨out, hinsert, rfl⟩ := Except.map_eq_ok.mp hout
      exact ⟨_, hlog out hinsert⟩
    -- a channel that is close enough is answered, otherwise one is created
    cases hbest : bestScored (w.state.channels.values.map fun c =>
        (c.slug, cosine (env.embed (Text.trim query)).1 c.embedding)) with
    | none => exact hcreate _ _ rfl rfl
    | some best =>
      obtain ⟨slug, score⟩ := best
      dsimp only
      by_cases hclose : w.state.resolveThreshold threshold ≤ score
      · rw [if_pos hclose, if_pos hclose, List.replicate_succ, Run.exec_cons, StoreWorld.step, StoreWorld.advance,
          begin_calls]
        have hcalls : w.calls.length < (w.begin (.fetching slug score) []).calls.length :=
          (List.getElem?_eq_some_iff.mp (begin_calls w _ _)).1
        have hsame : (w.begin (.fetching slug score) []).state = w.state := rfl
        dsimp only
        rw [hsame]
        cases w.state.getChannel slug with
        | error e =>
          dsimp only
          rw [exec_done (List.getElem?_set_self hcalls)]
          exact ⟨rfl, fun outcome h => by cases h⟩
        | ok channel =>
          dsimp only
          rw [exec_done (List.getElem?_set_self hcalls)]
          refine ⟨rfl, ?_⟩
          rintro outcome ⟨⟩
          exact ⟨slug, List.mem_append_right _ (List.mem_singleton_self _)⟩
      · rw [if_neg hclose, if_neg hclose]
        exact hcreate _ _ rfl rfl

end Alone

/-- The stores keep within the limits of the configuration. -/
structure AppState.Bounded (config : Config) (s : AppState) : Prop where
  same : s.config = config
  channels : s.channels.size ≤ config.maxChannels
  agents : s.agents.size ≤ config.maxAgents
  leases : s.fileLeases.size ≤ config.maxFileLeases
  context : ∀ slug ch, s.channels.get slug = some ch → ch.context.size ≤ maxContextKeys

section Bounds
variable {config : Config} {s : AppState}

theorem size_insert_of_room {κ α : Type} [DecidableEq κ] {t : Table κ α} {k : κ} {a : α} {limit : Nat}
    (ht : t.size ≤ limit) (h : t.contains k = true ∨ t.size < limit) : (t.insert k a).size ≤ limit := by
  rw [← Table.card_keySet, Table.keySet_insert]
  have hcard := Table.card_keySet (t := t)
  rcases h with hold | hroom
  · rw [Finset.insert_eq_of_mem (Table.mem_keySet.mpr hold)]
    omega
  · have hinsert := Finset.card_insert_le k t.keySet
    omega

/-- The write section of an insertion: refused, an existing channel, or a new one where there was room. -/
inductive InsertEffect (s : AppState) (now : Now) (slug : Text) : BridgeResult (Channel × Bool) × AppState → Prop
  | refused (e : BridgeError) : InsertEffect s now slug (.error e, s)
  | found {ch : ChannelState} (hch : s.channels.get slug = some ch) :
      InsertEffect s now slug (.ok (ch.toPublic, false), s)
  | created (topic createdBy : Text) (embedding : List Float32) (model : Text) (hnone : s.channels.get slug = none)
      (hroom : s.channels.size < s.config.maxChannels) :
      InsertEffect s now slug (.ok ((s.newChannel now slug topic createdBy embedding model).toPublic, true),
        s.setChannel slug (s.newChannel now slug topic createdBy embedding model))

theorem insertChannel_result (s : AppState) (now : Now) (slug topic createdBy : Text) (embedding : List Float32)
    (model : Text) : InsertEffect s now slug (s.insertChannel now slug topic createdBy embedding model) := by
  unfold AppState.insertChannel
  dsimp only
  cases hch : s.channels.get slug with
  | some ch => exact .found hch
  | none =>
    dsimp only
    by_cases hfull : s.channels.size ≥ s.config.maxChannels
    · rw [if_pos hfull]
      exact .refused _
    · rw [if_neg hfull]
      exact .created _ _ _ _ hch (Nat.not_le.mp hfull)

theorem InsertEffect.bounded {now : Now} {slug : Text} {r : BridgeResult (Channel × Bool) × AppState}
    (h : InsertEffect s now slug r) (hs : s.Bounded config) : r.2.Bounded config := by
  cases h with
  | refused e => exact hs
  | found hch => exact hs
  | created topic createdBy embedding model hnone hroom =>
    refine ⟨hs.same, size_insert_of_room hs.channels (.inr (hs.same ▸ hroom)), hs.agents, hs.leases, ?_⟩
    intro key ch hch
    rw [AppState.setChannel, Table.get_insert] at hch
    by_cases hkey : key = slug
    · rw [if_pos hkey] at hch
      cases hch
      exact Nat.zero_le _
    · rw [if_neg hkey] at hch
      exact hs.context key ch hch

theorem registerAgent_room (s : AppState) (now : Now) (agent : Agent) : (s.registerAgent now agent).2 = s ∨
    ∃ key agent', (s.agents.contains key = true ∨ s.agents.size < s.config.maxAgents) ∧
      (s.registerAgent now agent).2 = { s with agents := s.agents.insert key agent' } := by
  unfold AppState.registerAgent
  dsimp only
  generalize (if Text.trim agent.displayName = [] then Text.trim agent.agentKey else agent.displayName) = displayName
  split_ifs with hempty hlong hmeta hfull
  · exact .inl rfl
  · exact .inl rfl
  · exact .inl rfl
  · exact .inl rfl
  · refine .inr ⟨_, _, ?_, rfl⟩
    simp only [Bool.and_eq_true, Bool.not_eq_true', decide_eq_true_eq, not_and, not_le] at hfull
    by_cases hold : s.agents.contains (Text.trim agent.agentKey) = true
    · exact .inl hold
    · exact .inr (hfull (Bool.eq_false_iff.mpr hold))

theorem registerAgent_bounded (hs : s.Bounded config) (now : Now) (agent : Agent) :
    (s.registerAgent now agent).2.Bounded config := by
  rcases registerAgent_room s now agent with hsame | ⟨key, agent', hroom, hset⟩
  · rw [hsame]
    exact hs
  · rw [hset]
    exact ⟨hs.same, hs.channels, size_insert_of_room hs.agents (hs.same ▸ hroom), hs.leases, hs.context⟩

theorem pruneLeases_bounded (hs : s.Bounded config) (now : Now) : (s.pruneLeases now).Bounded config :=
  ⟨hs.same, hs.channels, hs.agents, (List.length_filter_le _ _).trans hs.leases, hs.context⟩

theorem grantFileLease_bounded (hs : s.Bounded config) (now : Now) (newId repository path agentKey : Text) (ttlMs : Nat)
    (recursive : Bool) (purpose : Text) (metadata : Json) :
    (s.grantFileLease now newId repository path agentKey ttlMs recursive purpose metadata).2.Bounded config := by
  unfold AppState.grantFileLease
  split
  · exact hs
  · split
    · rename_i key existing hfind
      refine ⟨hs.same, hs.channels, hs.agents, size_insert_of_room hs.leases (.inl ?_), hs.context⟩
      rw [Table.contains, (Table.findEntry_eq_some hfind).1]
      rfl
    · by_cases hfull : s.fileLeases.size ≥ s.config.maxFileLeases
      · rw [if_pos hfull]
        exact hs
      · rw [if_neg hfull]
        refine ⟨hs.same, hs.channels, hs.agents, size_insert_of_room hs.leases (.inr ?_), hs.context⟩
        rw [hs.same] at hfull
        exact Nat.not_le.mp hfull

theorem setContextInternal_room (s : AppState) (now : Now) (slug key : Text) (value : ContextValue)
    (updatedBy : Text) :
    (s.setContextInternal now slug key value updatedBy).2 = s ∨
    ∃ ch entry, s.channels.get slug = some ch ∧
      (ch.context.contains (Text.trim key) = true ∨ ch.context.size < maxContextKeys) ∧
      entry.key = Text.trim key ∧
      (s.setContextInternal now slug key value updatedBy).2 = s.setChannel slug (ch.putContext entry) := by
  unfold AppState.setContextInternal
  dsimp only
  split_ifs with hempty hlong hvalue
  · exact .inl rfl
  · exact .inl rfl
  · exact .inl rfl
  · cases hch : s.channels.get slug with
    | none => exact .inl rfl
    | some ch =>
      dsimp only
      by_cases hfull : (!ch.context.contains (Text.trim key) && ch.context.size ≥ maxContextKeys) = true
      · rw [if_pos hfull]
        exact .inl rfl
      · rw [if_neg hfull]
        refine .inr ⟨ch, _, rfl, ?_, AppState.contextEntry_key .., rfl⟩
        simp only [Bool.and_eq_true, Bool.not_eq_true', decide_eq_true_eq, not_and, not_le] at hfull
        by_cases hold : ch.context.contains (Text.trim key) = true
        · exact .inl hold
        · exact .inr (hfull (Bool.eq_false_iff.mpr hold))

theorem setContextInternal_bounded (hs : s.Bounded config) (now : Now) (slug key : Text) (value : ContextValue)
    (updatedBy : Text) : (s.setContextInternal now slug key value updatedBy).2.Bounded config := by
  rcases setContextInternal_room s now slug key value updatedBy with hsame | ⟨ch, entry, hch, hroom, hkey, hset⟩
  · rw [hsame]
    exact hs
  · rw [hset]
    have hold : s.channels.contains slug = true := by
      rw [Table.contains, hch]
      rfl
    refine ⟨hs.same, size_insert_of_room hs.channels (.inl hold), hs.agents, hs.leases, ?_⟩
    intro c ch' hch'
    rw [AppState.setChannel, Table.get_insert] at hch'
    by_cases hc : c = slug
    · rw [if_pos hc] at hch'
      cases hch'
      rw [ChannelState.putContext, hkey]
      exact size_insert_of_room (hs.context slug ch hch) hroom
    · rw [if_neg hc] at hch'
      exact hs.context c ch' hch'

end Bounds

def ChannelState.SameRoom (ch ch' : ChannelState) : Prop := ∃ context, ch' = { ch with context := context }

namespace StoreEvent

def slug : StoreEvent → Text
  | .inserted _ slug _ _ | .answered _ slug _ | .resolved _ slug _ => slug

def channel : StoreEvent → Channel
  | .inserted _ _ channel _ | .answered _ _ channel => channel
  | .resolved _ _ outcome => outcome.channel

def creates (slug : Text) : StoreEvent → Bool
  | .inserted _ slug' _ created => created && slug' == slug
  | .answered .. | .resolved .. => false

/-- The channel told is the stored one. -/
def Tells (s : AppState) (e : StoreEvent) : Prop :=
  ∃ ch, s.channels.get e.slug = some ch ∧ ch.slug = e.slug ∧ e.channel = ch.toPublic

end StoreEvent

/-- A resolution that reports a created channel comes with the insertion of the same call that made it. -/
def CreatorsInserted (log : List StoreEvent) : Prop :=
  ∀ call slug outcome, .resolved call slug outcome ∈ log → outcome.created = true →
    .inserted call slug outcome.channel true ∈ log

/-- What one section does to the channels, and what it reports. -/
structure StoreStep (s s' : AppState) (es : List StoreEvent) : Prop where
  keeps : ∀ slug ch, s.channels.get slug = some ch → ∃ ch', s'.channels.get slug = some ch' ∧ ch.SameRoom ch'
  counts : ∀ slug, es.countP (StoreEvent.creates slug) + (if s.channels.contains slug = true then 1 else 0) =
    if s'.channels.contains slug = true then 1 else 0
  tells : ∀ e ∈ es, e.Tells s'
  creators : CreatorsInserted es

def ChannelKeyed (s : AppState) : Prop := ∀ slug ch, s.channels.get slug = some ch → ch.slug = slug

section Steps
variable {s s' : AppState} {es : List StoreEvent}

theorem ChannelState.sameRoom_refl (ch : ChannelState) : ch.SameRoom ch := ⟨ch.context, rfl⟩

theorem ChannelState.SameRoom.toPublic {ch ch' : ChannelState} (h : ch.SameRoom ch') : ch'.toPublic = ch.toPublic := by
  obtain ⟨context, rfl⟩ := h
  rfl

theorem ChannelState.SameRoom.slug {ch ch' : ChannelState} (h : ch.SameRoom ch') : ch'.slug = ch.slug := by
  obtain ⟨context, rfl⟩ := h
  rfl

theorem ChannelState.SameRoom.trans {ch ch' ch'' : ChannelState} (h : ch.SameRoom ch') (h' : ch'.SameRoom ch'') :
    ch.SameRoom ch'' := by
  obtain ⟨context, rfl⟩ := h
  obtain ⟨context', rfl⟩ := h'
  exact ⟨context', rfl⟩

theorem StoreStep.tells_still (h : StoreStep s s' es) {e : StoreEvent} (he : e.Tells s) : e.Tells s' := by
  obtain ⟨ch, hch, hslug, hchannel⟩ := he
  obtain ⟨ch', hch', hroom⟩ := h.keeps _ ch hch
  exact ⟨ch', hch', hroom.slug.trans hslug, hchannel.trans hroom.toPublic.symm⟩

theorem StoreStep.of_channels (h : s'.channels = s.channels) (hcount : ∀ e ∈ es, ∀ slug, e.creates slug = false)
    (htells : ∀ e ∈ es, e.Tells s) (hcreators : CreatorsInserted es) : StoreStep s s' es := by
  refine ⟨?_, ?_, ?_, hcreators⟩
  · intro slug ch hch
    rw [h]
    exact ⟨ch, hch, ch.sameRoom_refl⟩
  · intro slug
    have hzero : es.countP (StoreEvent.creates slug) = 0 := by
      rw [List.countP_eq_zero]
      intro e he
      rw [hcount e he slug]
      exact Bool.false_ne_true
    rw [hzero, h, Nat.zero_add]
  · intro e he
    obtain ⟨ch, hch, htold⟩ := htells e he
    exact ⟨ch, h ▸ hch, htold⟩

theorem StoreStep.silent (h : s'.channels = s.channels) : StoreStep s s' [] :=
  .of_channels h (List.forall_mem_nil _) (List.forall_mem_nil _) fun _ _ _ hmem => by cases hmem

theorem setContextInternal_step (s : AppState) (now : Now) (slug key : Text) (value : ContextValue)
    (updatedBy : Text) : StoreStep s (s.setContextInternal now slug key value updatedBy).2 [] := by
  rcases setContextInternal_room s now slug key value updatedBy with hsame | ⟨ch, entry, hch, -, -, hset⟩
  · rw [hsame]
    exact .silent rfl
  · rw [hset]
    refine ⟨?_, ?_, List.forall_mem_nil _, fun _ _ _ hmem => by cases hmem⟩
    · intro c ch' hch'
      rw [AppState.setChannel, Table.get_insert]
      by_cases hc : c = slug
      · rw [if_pos hc]
        rw [hc, hch] at hch'
        cases hch'
        exact ⟨_, rfl, _, rfl⟩
      · rw [if_neg hc]
        exact ⟨ch', hch', ch'.sameRoom_refl⟩
    · intro c
      rw [List.countP_nil, Nat.zero_add, AppState.setChannel, Table.contains, Table.contains, Table.get_insert]
      by_cases hc : c = slug
      · rw [if_pos hc, hc, hch]
        rfl
      · rw [if_neg hc]

theorem StoreStep.report (h : StoreStep s s' es) {e : StoreEvent} (hcount : ∀ slug, e.creates slug = false)
    (htells : e.Tells s') (hcreator : ∀ call slug outcome, e = .resolved call slug outcome →
      outcome.created = true → .inserted call slug outcome.channel true ∈ es) : StoreStep s s' (es ++ [e]) := by
  refine ⟨h.keeps, ?_, ?_, ?_⟩
  · intro slug
    have hone : [e].countP (StoreEvent.creates slug) = 0 := by simp [hcount slug]
    rw [List.countP_append, hone, Nat.add_zero]
    exact h.counts slug
  · intro e' he'
    rcases List.mem_append.mp he' with hold | hnew
    · exact h.tells e' hold
    · rw [List.mem_singleton.mp hnew]
      exact htells
  · intro call slug outcome hmem hcreated
    rcases List.mem_append.mp hmem with hold | hnew
    · exact List.mem_append_left _ (h.creators call slug outcome hold hcreated)
    · exact List.mem_append_left _ (hcreator call slug outcome (List.mem_singleton.mp hnew).symm hcreated)

theorem InsertEffect.step {now : Now} {slug : Text} {channel : Channel} {created : Bool} (hs : ChannelKeyed s)
    (h : InsertEffect s now slug (.ok (channel, created), s')) (call : Nat) :
    StoreStep s s' [.inserted call slug channel created] := by
  have hcreators : ∀ created, CreatorsInserted [.inserted call slug channel created] := by
    intro created call' slug' outcome hmem
    cases List.mem_singleton.mp hmem
  cases h with
  | found hch =>
    refine .of_channels rfl ?_ ?_ (hcreators false)
    · intro e he slug'
      rw [List.mem_singleton.mp he]
      rfl
    · intro e he
      rw [List.mem_singleton.mp he]
      exact ⟨_, hch, hs slug _ hch, rfl⟩
  | created topic createdBy embedding model hnone hroom =>
    refine ⟨?_, ?_, ?_, hcreators true⟩
    · intro c ch hch
      have hc : c ≠ slug := by
        rintro rfl
        rw [hnone] at hch
        cases hch
      exact ⟨ch, (Table.get_insert_ne hc).trans hch, ch.sameRoom_refl⟩
    · intro c
      rw [AppState.setChannel, Table.contains, Table.contains, Table.get_insert]
      by_cases hc : c = slug
      · rw [if_pos hc, hc, hnone]
        simp [StoreEvent.creates]
      · rw [if_neg hc]
        have hother : (slug == c) = false := by simpa using Ne.symm hc
        simp [StoreEvent.creates, hother]
    · intro e he
      rw [List.mem_singleton.mp he]
      exact ⟨_, Table.get_insert_self _ _ _, rfl, rfl⟩

variable {w : StoreWorld}

theorem step_unreported {w w' : StoreWorld} (hstate : w'.state = w.state) (hlog : w'.log = w.log) :
    ∃ es, w'.log = w.log ++ es ∧ StoreStep w.state w'.state es := by
  refine ⟨[], ?_, .silent ?_⟩
  · rw [hlog, List.append_nil]
  · rw [hstate]

theorem begin_step (w : StoreWorld) (stage : CreatingStage) (es : List StoreEvent)
    (h : StoreStep w.state w.state es) :
    ∃ told, (w.begin stage es).log = w.log ++ told ∧ StoreStep w.state (w.begin stage es).state told := ⟨es, rfl, h⟩

theorem beginCreate_step (hs : ChannelKeyed w.state) (env : Surroundings) (slug topic createdBy : Text) :
    ∃ es, (w.beginCreate env slug topic createdBy).log = w.log ++ es ∧
      StoreStep w.state (w.beginCreate env slug topic createdBy).state es := by
  unfold StoreWorld.beginCreate
  dsimp only
  by_cases hempty : slugify env slug = []
  · rw [if_pos hempty]
    exact begin_step w _ [] (.silent rfl)
  · rw [if_neg hempty]
    cases hch : w.state.channels.get (slugify env slug) with
    | none => exact begin_step w _ [] (.silent rfl)
    | some ch =>
      refine begin_step w _ ([] ++ [_]) (StoreStep.report (.silent rfl) (fun slug => rfl) ?_ ?_)
      · exact ⟨ch, hch, hs _ ch hch, rfl⟩
      · rintro call slug outcome ⟨⟩

theorem beginCreate_state (w : StoreWorld) (env : Surroundings) (slug topic createdBy : Text) :
    (w.beginCreate env slug topic createdBy).state = w.state := by
  unfold StoreWorld.beginCreate
  dsimp only
  split
  · rfl
  · split <;> rfl

theorem beginResolve_quiet (w : StoreWorld) (env : Surroundings) (topicId suffixId query createdBy : Text)
    (threshold : Option Float32) : (w.beginResolve env topicId suffixId query createdBy threshold).state = w.state ∧
      (w.beginResolve env topicId suffixId query createdBy threshold).log = w.log := by
  have hbegin : ∀ stage, (w.begin stage []).state = w.state ∧ (w.begin stage []).log = w.log :=
    fun stage => ⟨rfl, List.append_nil _⟩
  unfold StoreWorld.beginResolve
  dsimp only
  split
  · exact hbegin _
  · split
    · exact hbegin _
    · split <;> exact hbegin _

/-- What a caller may report of the channel its insertion returned. -/
structure Reports (call : Nat) (slug : Text) (report : Channel → Bool → StoreEvent) : Prop where
  sameSlug : ∀ channel created, (report channel created).slug = slug
  sameChannel : ∀ channel created, (report channel created).channel = channel
  uncounted : ∀ channel created key, (report channel created).creates key = false
  creator : ∀ channel created call' slug' outcome, report channel created = .resolved call' slug' outcome →
    outcome.created = true → call' = call ∧ slug' = slug ∧ outcome.channel = channel ∧ created = true

theorem insert_step (hs : ChannelKeyed w.state) (now : Now) (call : Nat) (b : Birth)
    {report : Channel → Bool → StoreEvent}
    (hreport : Reports call b.slug report) : ∃ es, (w.insert now call b report).log = w.log ++ es ∧
      StoreStep w.state (w.insert now call b report).state es := by
  have heffect : InsertEffect w.state now b.slug (StoreWorld.insertBirth w.state now b) := insertChannel_result ..
  unfold StoreWorld.insert
  rcases hr : StoreWorld.insertBirth w.state now b with ⟨r, s⟩
  rw [hr] at heffect
  cases r with
  | error e =>
    cases heffect
    exact step_unreported rfl rfl
  | ok out =>
    obtain ⟨channel, created⟩ := out
    have hstep := heffect.step hs call
    refine ⟨[.inserted call b.slug channel created] ++ [report channel created], rfl, ?_⟩
    refine hstep.report (hreport.uncounted channel created) ?_ ?_
    · obtain ⟨ch, hch, hslug, hchannel⟩ := hstep.tells _ (List.mem_singleton_self _)
      refine ⟨ch, ?_, ?_, ?_⟩
      · rw [hreport.sameSlug]
        exact hch
      · rw [hreport.sameSlug]
        exact hslug
      · rw [hreport.sameChannel]
        exact hchannel
    · intro call' slug' outcome heq hcreated
      obtain ⟨rfl, rfl, hchannel, rfl⟩ := hreport.creator channel created call' slug' outcome heq hcreated
      rw [hchannel]
      exact List.mem_singleton_self _

theorem advance_step (hs : ChannelKeyed w.state) (now : Now) (call : Nat) :
    ∃ es, (w.advance now call).log = w.log ++ es ∧ StoreStep w.state (w.advance now call).state es := by
  unfold StoreWorld.advance
  split
  · exact step_unreported rfl rfl
  · exact step_unreported rfl rfl
  · refine insert_step hs now call _ ⟨fun _ _ => rfl, fun _ _ => rfl, fun _ _ _ => rfl, ?_⟩
    rintro channel created call' slug' outcome ⟨⟩
  · refine insert_step hs now call _ ⟨fun _ _ => rfl, fun _ _ => rfl, fun _ _ _ => rfl, ?_⟩
    rintro channel created call' slug' outcome ⟨⟩ hcreated
    exact ⟨rfl, rfl, rfl, hcreated⟩
  · exact step_unreported rfl rfl
  · exact step_unreported rfl rfl
  · rename_i slug score hcall
    unfold AppState.getChannel
    cases hch : w.state.channels.get slug with
    | none => exact step_unreported rfl rfl
    | some ch =>
      refine ⟨[] ++ [.resolved call slug { channel := ch.toPublic, score := score, created := false }], rfl, ?_⟩
      refine StoreStep.report (.silent rfl) (fun _ => rfl) ⟨ch, hch, hs slug ch hch, rfl⟩ ?_
      rintro call' slug' outcome ⟨⟩ hcreated
      cases hcreated

theorem grantFileLease_channels (s : AppState) (now : Now) (newId repository path agentKey : Text) (ttlMs : Nat)
    (recursive : Bool) (purpose : Text) (metadata : Json) :
    (s.grantFileLease now newId repository path agentKey ttlMs recursive purpose metadata).2.channels = s.channels := by
  unfold AppState.grantFileLease
  split
  · rfl
  · split
    · rfl
    · split_ifs <;> rfl

theorem StoreWorld.step_spec (hs : ChannelKeyed w.state) (a : StoreAction) :
    ∃ es, (w.step a).log = w.log ++ es ∧ StoreStep w.state (w.step a).state es := by
  cases a with
  | create env slug topic createdBy => exact beginCreate_step hs env slug topic createdBy
  | resolve env topicId suffixId query createdBy threshold =>
    obtain ⟨hstate, hlog⟩ := beginResolve_quiet w env topicId suffixId query createdBy threshold
    exact step_unreported hstate hlog
  | advance now call => exact advance_step hs now call
  | register now agent => exact ⟨[], (List.append_nil _).symm, .silent (registerAgent_channels w.state now agent)⟩
  | grant now newId repository path agentKey ttlMs recursive purpose metadata =>
    exact ⟨[], (List.append_nil _).symm, .silent (grantFileLease_channels ..)⟩
  | setContext now slug key value updatedBy =>
    exact ⟨[], (List.append_nil _).symm, setContextInternal_step w.state now slug key value updatedBy⟩

theorem StoreWorld.step_bounded {config : Config} (hs : w.state.Bounded config) (a : StoreAction) :
    (w.step a).state.Bounded config := by
  have hinsert : ∀ now call b report, (w.insert now call b report).state.Bounded config := by
    intro now call b report
    have heffect : InsertEffect w.state now b.slug (StoreWorld.insertBirth w.state now b) := insertChannel_result ..
    have hbounded := heffect.bounded hs
    unfold StoreWorld.insert
    rcases hr : StoreWorld.insertBirth w.state now b with ⟨r, s⟩
    rw [hr] at hbounded
    cases r <;> exact hbounded
  cases a with
  | create env slug topic createdBy =>
    rw [StoreWorld.step, beginCreate_state]
    exact hs
  | resolve env topicId suffixId query createdBy threshold =>
    rw [StoreWorld.step, (beginResolve_quiet ..).1]
    exact hs
  | advance now call =>
    rw [StoreWorld.step, StoreWorld.advance]
    split
    · exact hs
    · exact hs
    · exact hinsert ..
    · exact hinsert ..
    · exact hs
    · exact hs
    · split <;> exact hs
  | register now agent => exact registerAgent_bounded hs now agent
  | grant now newId repository path agentKey ttlMs recursive purpose metadata =>
    exact grantFileLease_bounded (pruneLeases_bounded hs now) ..
  | setContext now slug key value updatedBy => exact setContextInternal_bounded hs now slug key value updatedBy

end Steps

/-- What holds of the stores and of everything told so far. -/
structure SingleCreator (w : StoreWorld) : Prop where
  keyed : ChannelKeyed w.state
  counts : ∀ slug, w.log.countP (StoreEvent.creates slug) = if w.state.channels.contains slug = true then 1 else 0
  tells : ∀ e ∈ w.log, e.Tells w.state
  creators : CreatorsInserted w.log

theorem SingleCreator.step {w : StoreWorld} (h : SingleCreator w) (a : StoreAction) : SingleCreator (w.step a) := by
  obtain ⟨es, hlog, hstep⟩ := StoreWorld.step_spec h.keyed a
  have htells : ∀ e ∈ w.log ++ es, e.Tells (w.step a).state := by
    intro e he
    rcases List.mem_append.mp he with hold | hnew
    · exact hstep.tells_still (h.tells e hold)
    · exact hstep.tells e hnew
  have hcounts : ∀ slug, (w.log ++ es).countP (StoreEvent.creates slug) =
      if (w.step a).state.channels.contains slug = true then 1 else 0 := by
    intro slug
    rw [List.countP_append, h.counts slug, Nat.add_comm]
    exact hstep.counts slug
  refine ⟨?_, hlog ▸ hcounts, hlog ▸ htells, ?_⟩
  · -- a channel in the store was there before, or its insertion tells it
    intro slug ch hch
    by_cases hold : w.state.channels.contains slug = true
    · obtain ⟨ch₀, hch₀⟩ := Option.isSome_iff_exists.mp hold
      obtain ⟨ch', hch', hroom⟩ := hstep.keeps slug ch₀ hch₀
      cases hch.symm.trans hch'
      exact hroom.slug.trans (h.keyed slug ch₀ hch₀)
    · have hnew : es.countP (StoreEvent.creates slug) = 1 := by
        have hcount := hstep.counts slug
        rwa [if_neg hold, if_pos (by rw [Table.contains, hch]; rfl), Nat.add_zero] at hcount
      obtain ⟨e, he, hcreates⟩ := List.countP_pos_iff.mp (Nat.lt_of_lt_of_eq Nat.zero_lt_one hnew.symm)
      obtain ⟨ch', hch', hslug, -⟩ := hstep.tells e he
      cases e with
      | inserted call slug' channel created =>
        obtain rfl : slug' = slug := by
          simp only [StoreEvent.creates, Bool.and_eq_true, beq_iff_eq] at hcreates
          exact hcreates.2
        cases hch.symm.trans hch'
        exact hslug
      | answered call slug' channel => cases hcreates
      | resolved call slug' outcome => cases hcreates
  · rw [hlog]
    intro call slug outcome hmem hcreated
    rcases List.mem_append.mp hmem with hold | hnew
    · exact List.mem_append_left _ (h.creators call slug outcome hold hcreated)
    · exact List.mem_append_right _ (hstep.creators call slug outcome hnew hcreated)

theorem singleCreator_init (config : Config) : SingleCreator (StoreWorld.init config) where
  keyed := fun slug ch hch => by cases hch
  counts := fun slug => rfl
  tells := List.forall_mem_nil _
  creators := fun call slug outcome hmem => by cases hmem

theorem run_singleCreator (config : Config) (as : List StoreAction) : SingleCreator (StoreWorld.run config as) :=
  Run.exec_invariant (fun _ a h => h.step a) (singleCreator_init config) as

theorem run_bounded (config : Config) (as : List StoreAction) : (StoreWorld.run config as).state.Bounded config :=
  Run.exec_invariant (P := fun w : StoreWorld => w.state.Bounded config) (fun _ a h => StoreWorld.step_bounded h a)
    ⟨rfl, Nat.zero_le _, Nat.zero_le _, Nat.zero_le _, fun slug ch hch => by cases hch⟩ as

theorem exec_keeps {w : StoreWorld} (h : SingleCreator w) (as : List StoreAction) {slug : Text} {ch : ChannelState}
    (hch : w.state.channels.get slug = some ch) :
    ∃ ch', (Run.exec StoreWorld.step w as).state.channels.get slug = some ch' ∧ ch.SameRoom ch' := by
  induction as generalizing w ch with
  | nil => exact ⟨ch, hch, ch.sameRoom_refl⟩
  | cons a as ih =>
    obtain ⟨es, -, hstep⟩ := StoreWorld.step_spec h.keyed a
    obtain ⟨ch', hch', hroom⟩ := hstep.keeps slug ch hch
    obtain ⟨ch'', hch'', hroom'⟩ := ih (h.step a) hch'
    exact ⟨ch'', hch'', hroom.trans hroom'⟩

/-- In every interleaving of the sections of any calls the stores keep within their limits. A slug in the store was
created by exactly one insertion, every call that returned a channel for it returned the one stored there, a
resolution that claims to have created its channel inserted it, and a channel stays as it was created. -/
theorem stores_bounded_single_creator (config : Config) (as : List StoreAction) :
    (StoreWorld.run config as).state.Bounded config ∧
    (∀ slug, (StoreWorld.run config as).log.countP (StoreEvent.creates slug) =
      if (StoreWorld.run config as).state.channels.contains slug = true then 1 else 0) ∧
    (∀ e ∈ (StoreWorld.run config as).log, e.Tells (StoreWorld.run config as).state) ∧
    CreatorsInserted (StoreWorld.run config as).log ∧
    ∀ bs slug ch, (StoreWorld.run config as).state.channels.get slug = some ch →
      ∃ ch', (StoreWorld.run config (as ++ bs)).state.channels.get slug = some ch' ∧ ch.SameRoom ch' := by
  have hrun := run_singleCreator config as
  refine ⟨run_bounded config as, hrun.counts, hrun.tells, hrun.creators, ?_⟩
  intro bs slug ch hch
  rw [StoreWorld.run, Run.exec_append]
  exact exec_keeps hrun bs hch

end AgentBridge
