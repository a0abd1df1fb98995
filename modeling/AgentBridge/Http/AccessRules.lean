import AgentBridge.Http.Guards

/-! The access rules, which read a path by its prefix and its suffix, against the router, which reads it by its
segments. -/

namespace AgentBridge.Http
open WorkflowSecurity

/-- What an endpoint asks of a credential: the scope, and the member of the body that names its agent. -/
def Endpoint.rule : Endpoint → Option AccessRule
  | .index | .healthz | .agentPontifexDescriptor | .prometheusMetrics | .healthCompat | .claudeInbox => none
  | .registerAgent => WorkflowSecurity.rule "agent:register" (some "agent_key")
  | .listAgents | .fileLeaseHolders => WorkflowSecurity.rule "agent:read" none
  | .acquireCompatibleFileLease | .acquireFileLeases | .releaseFileLease | .renewFileLease _
  | .releaseCompatibleFileLease _ => WorkflowSecurity.rule "lease:operate" (some "agent_key")
  | .createChannel | .resolveChannel => WorkflowSecurity.rule "channel:create" (some "created_by")
  | .listChannels | .searchChannels | .getChannel _ | .listMembers _ | .listMessages _ | .streamChannel _ =>
    WorkflowSecurity.rule "channel:read" none
  | .joinChannel _ | .leaveChannel _ => WorkflowSecurity.rule "channel:join" (some "agent_key")
  | .postMessage _ => WorkflowSecurity.rule "channel:post" (some "from")
  | .getContext _ => WorkflowSecurity.rule "context:read" none
  | .putContext _ => WorkflowSecurity.rule "context:write" (some "updated_by")
  | .createWorkflow | .createBlindCompetition => WorkflowSecurity.rule "workflow:create" (some "created_by")
  | .listWorkflows | .getWorkflow _ | .getAdmission _ | .getBlindCompetition _ | .revealBlindCompetition _ =>
    WorkflowSecurity.rule "workflow:read" none
  | .submitWorkflow _ | .submitBlindCompetition _ => WorkflowSecurity.rule "workflow:submit" (some "agent_key")
  | .describePolicy | .explainPolicy => none
  | .admitWorkflow _ => WorkflowSecurity.rule "workflow:admit" (some "requested_by")
  | .reportUsage _ | .completeAdmission _ | .cancelAdmission _ =>
    WorkflowSecurity.rule "workflow:usage" (some "updated_by")

/-- The rule an endpoint stands under when it is called by a method and a path. `HEAD` has no rules, the holders have
one under the path of the agents only, and the name of a room may look like the end of another path. -/
def Endpoint.ruleAt (e : Endpoint) (m : Method) (path : Text) : Option AccessRule :=
  if m = .head ∨ m = .get ∧ path = "/file-leases".toList then none
  else if e = .getChannel "context".toList then WorkflowSecurity.rule "context:read" none
  else e.rule

def Segment.fill (id : Text) : Segment → Text
  | .lit text => text.toList
  | .param => id

def pathOf (pattern : List Segment) (id : Text) : Text := '/' :: Components.join '/' (pattern.map (Segment.fill id))

section Paths
variable {pattern : List Segment} {parts : List Text} {path id : Text}

theorem parts_of_capture (h : capture pattern parts = some id) (hone : pattern.count .param ≤ 1) :
    parts = pattern.map (Segment.fill id) := by
  -- the one parameter holds the captured segment, all others are literals
  induction pattern generalizing parts id with
  | nil => rw [(capture_nil_eq_some.mp h).1, List.map_nil]
  | cons segment pattern ih =>
    cases segment with
    | lit text =>
      obtain ⟨rest, rfl, hrest⟩ := capture_lit_eq_some.mp h
      rw [List.count_cons_of_ne (by simp)] at hone
      rw [List.map_cons, ← ih hrest hone]
      rfl
    | param =>
      obtain ⟨rest, rfl, hne, hrest⟩ := capture_param_eq_some.mp h
      obtain ⟨inner, hinner⟩ := Option.isSome_iff_exists.mp hrest
      rw [List.count_cons_self] at hone
      have hnone : .param ∉ pattern := List.count_eq_zero.mp (by omega)
      have hfill : pattern.map (Segment.fill inner) = pattern.map (Segment.fill id) := by
        refine List.map_congr_left fun segment hmem => ?_
        cases segment with
        | lit text => rfl
        | param => exact absurd hmem hnone
      rw [List.map_cons, ← hfill, ← ih hinner (by omega)]
      rfl

theorem count_param_of_routes : ∀ entry ∈ routes, entry.pattern.count .param ≤ 1 := by
  decide

theorem path_of_routeOf {r : MethodRouter} (h : routeOf path = some r) :
    ∃ entry ∈ routes, ∃ id, path = pathOf entry.pattern id ∧ (.param ∈ entry.pattern → '/' ∉ id) ∧
    r = entry.methods id := by
  obtain ⟨entry, hentry, parts, id, hparts, hcapture, rfl⟩ := routeOf_eq_some h
  have hfill := parts_of_capture hcapture (count_param_of_routes entry hentry)
  refine ⟨entry, hentry, id, ?_, ?_, rfl⟩
  · rw [Url.eq_of_segments hparts, hfill, pathOf]
  · intro hparam
    have hmem : id ∈ parts := by
      rw [hfill]
      exact List.mem_map_of_mem hparam
    unfold Url.segments at hparts
    split at hparts
    · cases hparts
      exact Components.sepFree_split _ _ hmem
    · cases hparts

theorem reverse_pathOf (a b : String) (id : Text) : (pathOf [.lit a, .param, .lit b] id).reverse =
    b.toList.reverse ++ '/' :: (id.reverse ++ '/' :: (a.toList.reverse ++ ['/'])) := by
  simp [pathOf, Components.join, Segment.fill]

theorem reverse_pathOf_below (a b c : String) (id : Text) : (pathOf [.lit a, .param, .lit b, .lit c] id).reverse =
    c.toList.reverse ++ '/' :: (b.toList.reverse ++ '/' :: (id.reverse ++ '/' :: (a.toList.reverse ++ ['/']))) := by
  simp [pathOf, Components.join, Segment.fill]

theorem eq_of_isSuffixOf {name : Text} (front : Text) (hname : '/' ∉ name) (hid : '/' ∉ id)
    (h : ('/' :: name).isSuffixOf (front ++ '/' :: id) = true) : id = name := by
  obtain ⟨rest, hrest⟩ := List.isSuffixOf_iff_suffix.mp h
  have hlast (front : Text) {name : Text} (hname : '/' ∉ name) :
      ((front ++ '/' :: name).splitOn '/').getLast? = some name := by
    rw [List.splitOn_append_cons_self, List.splitOn_eq_singleton hname, List.getLast?_concat]
  have hsame := hlast rest hname
  rw [hrest, hlast front hid] at hsame
  exact Option.some.inj hsame

end Paths

section Rules
variable {m : Method} {e : Endpoint}

theorem getRule_channel {slug : Text} (hslug : '/' ∉ slug) : getRule ("/channels/".toList ++ slug) =
    if slug = "context".toList then rule "context:read" none else rule "channel:read" none := by
  by_cases hcontext : slug = "context".toList
  · rw [if_pos hcontext, hcontext]
    rfl
  · rw [if_neg hcontext]
    have hsuffix : "/context".toList.isSuffixOf ("/channels/".toList ++ slug) = false := by
      rw [Bool.eq_false_iff]
      exact fun h => hcontext (eq_of_isSuffixOf "/channels".toList (by decide) hslug h)
    have hroot : "/channels/".toList.isPrefixOf ("/channels/".toList ++ slug) = true := rfl
    simp only [getRule, below, hsuffix, hroot]
    cases "/messages".toList.isSuffixOf ("/channels/".toList ++ slug) <;> rfl

theorem accessRule_channel {b : String} {id : Text} {found : Option AccessRule}
    (hsearch : (pathOf [.lit "channels", .param, .lit b] id).reverse ≠ "/channels/search".toList.reverse)
    (hresolve : (pathOf [.lit "channels", .param, .lit b] id).reverse ≠ "/channels/resolve".toList.reverse)
    (h : (if below "/channels/" "/context" (pathOf [.lit "channels", .param, .lit b] id) then
        rule "context:write" (some "updated_by")
      else if below "/channels/" "/messages" (pathOf [.lit "channels", .param, .lit b] id) then
        rule "channel:post" (some "from")
      else if below "/channels/" "/join" (pathOf [.lit "channels", .param, .lit b] id) ||
          below "/channels/" "/leave" (pathOf [.lit "channels", .param, .lit b] id) then
        rule "channel:join" (some "agent_key")
      else none) = found) :
    accessRule .post (pathOf [.lit "channels", .param, .lit b] id) = found := by
  have hne {other : Text} (h : (pathOf [.lit "channels", .param, .lit b] id).reverse ≠ other.reverse) :
      pathOf [.lit "channels", .param, .lit b] id ≠ other := fun heq => h (by rw [heq])
  rw [← h]
  simp only [accessRule, postRule, if_neg (hne hsearch), if_neg (hne hresolve)]
  rfl

theorem accessRule_of_entry : ∀ entry ∈ routes, ∀ id, (.param ∈ entry.pattern → '/' ∉ id) →
    (entry.methods id).endpoint m = some e →
    accessRule m (pathOf entry.pattern id) = e.ruleAt m (pathOf entry.pattern id) := by
  have hroom (id : Text) (hid : '/' ∉ id) : accessRule .get (pathOf [.lit "channels", .param] id) =
      (Endpoint.getChannel id).ruleAt .get (pathOf [.lit "channels", .param] id) := by
    have hpath : pathOf [.lit "channels", .param] id = "/channels/".toList ++ id := by
      simp [pathOf, Components.join, Segment.fill]
    rw [hpath, accessRule, getRule_channel hid]
    by_cases hcontext : id = "context".toList
    · rw [if_pos hcontext, hcontext]
      rfl
    · have hother : Endpoint.getChannel id ≠ .getChannel "context".toList := fun h =>
        hcontext (Endpoint.getChannel.inj h)
      rw [if_neg hcontext, Endpoint.ruleAt, if_neg (by rintro (⟨⟨⟩⟩ | ⟨-, ⟨⟩⟩)), if_neg hother]
      rfl
  simp only [routes, List.forall_mem_cons]
  and_intros
  all_goals first
    | exact fun _ h => absurd h List.not_mem_nil
    | intro id hid he
  all_goals cases m
  all_goals cases he
  all_goals first
    | rfl
    -- the captured segment stands between the ends that the rules look at
    | (simp only [accessRule, postRule, getRule, below, List.isSuffixOf, reverse_pathOf, reverse_pathOf_below]
       rfl)
    | (refine accessRule_channel ?_ ?_ ?_
       · rw [reverse_pathOf]
         rintro ⟨⟩
       · rw [reverse_pathOf]
         rintro ⟨⟩
       · simp only [below, List.isSuffixOf, reverse_pathOf]
         rfl)
    | exact hroom id (hid (by decide))

variable {path : Text} {r : MethodRouter}

/-- The access rules and the router agree: a request that is routed to an endpoint is held to the rule of that
endpoint. -/
theorem accessRule_of_endpoint (hroute : routeOf path = some r) (he : r.endpoint m = some e) :
    accessRule m path = e.ruleAt m path := by
  obtain ⟨entry, hentry, id, rfl, hid, rfl⟩ := path_of_routeOf hroute
  exact accessRule_of_entry entry hentry id hid he

end Rules
end AgentBridge.Http
