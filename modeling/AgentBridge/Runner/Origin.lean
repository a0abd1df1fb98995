import AgentBridge.Base.IpAddr
import AgentBridge.Base.KeySet
import AgentBridge.Base.Result

/-! Where the runner's bridge may be. The client of the bridge and the readiness probe share one policy for its
origin; the admission client has its own. -/

namespace AgentBridge.Runner

/-- What the runner reads of a parsed URL. -/
structure BridgeUrl where
  scheme : Text
  username : Text
  password : Option Text
  /-- Absent for a URL without an authority; an IPv6 address stands in brackets. -/
  host : Option Text
  port : Option Nat
  path : Text
  query : Option Text
  fragment : Option Text
deriving DecidableEq

/-- The environment, and the parser of URLs of another package. -/
structure RunnerEnv where
  var : Text → Option Text
  parseUrl : Text → Option BridgeUrl

def bridgeUrlEnv : Text := "AI_AGENT_RUNNER_BRIDGE_URL".toList
def bridgeBearerEnv : Text := "AI_AGENT_RUNNER_BRIDGE_BEARER".toList
def apiAuthBearerEnv : Text := "API_AUTH_BEARER".toList
def internalHttpHostsEnv : Text := "AI_AGENT_RUNNER_BRIDGE_INTERNAL_HTTP_HOSTS".toList
def defaultBridgeUrl : Text := "http://127.0.0.1:8142/".toList

def envOpt (env : RunnerEnv) (key : Text) : Option Text := ((env.var key).map Text.trim).filter (· ≠ [])

def isLoopbackHost (host : Text) : Bool :=
  Text.toAsciiLowercase host == "localhost".toList ||
    (IpAddr.parse ((host.dropWhile fun c => c == '[' || c == ']').rdropWhile fun c => c == '[' || c == ']')).any
      IpAddr.isLoopback

/-! ### The shared policy -/

def validDnsLabel (label : Text) : Bool :=
  !label.isEmpty && decide (Text.byteLen label ≤ 63) && label.head?.any Text.isAsciiAlphanumeric &&
    label.getLast?.any Text.isAsciiAlphanumeric && label.all fun c => Text.isAsciiAlphanumeric c || c == '-'

def isKubernetesServiceFqdn (host : Text) : Bool :=
  decide (Text.byteLen host ≤ 253 ∧ ".svc.cluster.local".toList <:+ host) && (host.splitOn '.').all validDnsLabel

/-- An entry of the allowlist, as it is compared. -/
def internalHttpHost (allowlistEnv entry : Text) : Except Text Text := do
  let host := Text.toAsciiLowercase (Text.trim entry)
  .refuseIf (host = []) (allowlistEnv ++ " contains an empty host".toList)
  .refuseIf (¬ isKubernetesServiceFqdn host)
    (allowlistEnv ++ " entries must be exact *.svc.cluster.local DNS names".toList)
  return host

def parseInternalHttpHosts (raw : Option Text) (allowlistEnv : Text) : Except Text (KeySet Text) :=
  match raw with
  | none => .ok .empty
  | some raw => return .ofList (← (raw.splitOn ',').mapM (internalHttpHost allowlistEnv))

/-- Whether the host is a loopback one, for a transport that is allowed. -/
def validateServiceTransport (url : BridgeUrl) (internalHttpHosts : Option Text) (allowlistEnv serviceLabel : Text) :
    Except Text Bool :=
  match url.host with
  | none => .error (serviceLabel ++ " URL requires a host".toList)
  | some host => do
    let host := Text.toAsciiLowercase host
    let loopback := isLoopbackHost host
    if url.scheme = "https".toList then return loopback
    else if url.scheme = "http".toList ∧ loopback then return loopback
    else if url.scheme = "http".toList then
      let allowlist ← parseInternalHttpHosts internalHttpHosts allowlistEnv
      .refuseIf (host ∉ allowlist)
        ("remote ".toList ++ serviceLabel ++ " HTTP host is not listed in ".toList ++ allowlistEnv)
      return loopback
    else throw (serviceLabel ++ " URL scheme must be http or https".toList)

def validateServiceOrigin (url : BridgeUrl) (bearer internalHttpHosts : Option Text)
    (allowlistEnv serviceLabel : Text) : Except Text Unit := do
  let loopback ← validateServiceTransport url internalHttpHosts allowlistEnv serviceLabel
  .refuseIf (¬ loopback ∧ bearer = none) ("remote ".toList ++ serviceLabel ++ " URLs require a bearer token".toList)

def validateBridgeOrigin (url : BridgeUrl) (bearer internalHttpHosts : Option Text) : Except Text Unit :=
  validateServiceOrigin url bearer internalHttpHosts internalHttpHostsEnv "bridge".toList

/-! ### The parts that open the bridge -/

/-- The beginning of each of the constructors, up to the policy. `name` is how its errors call the URL. -/
def readBridgeUrl (env : RunnerEnv) (name : Text) : Except Text BridgeUrl :=
  match env.parseUrl (Text.trim ((env.var bridgeUrlEnv).getD defaultBridgeUrl)) with
  | none => .error (name ++ " is invalid".toList)
  | some url => do
    .refuseIf (url.username ≠ [] ∨ url.password.isSome) (name ++ " must not contain user information".toList)
    .refuseIf (url.query.isSome ∨ url.fragment.isSome) (name ++ " must not contain a query or fragment".toList)
    return url

def bridgeBearer (env : RunnerEnv) : Option Text :=
  (envOpt env bridgeBearerEnv).orElse fun _ => envOpt env apiAuthBearerEnv

def BridgeUrl.withSlash (url : BridgeUrl) : BridgeUrl :=
  if "/".toList <:+ url.path then url else { url with path := url.path ++ "/".toList }

/-- `BridgeClient::from_env`, as far as the origin. -/
def bridgeClientOrigin (env : RunnerEnv) : Except Text BridgeUrl := do
  let url ← readBridgeUrl env "bridge URL".toList
  validateBridgeOrigin url (bridgeBearer env) (envOpt env internalHttpHostsEnv)
  return url.withSlash

/-- `RunnerHealth::from_env`, as far as the origin. -/
def runnerHealthOrigin (env : RunnerEnv) : Except Text BridgeUrl := do
  let url ← readBridgeUrl env bridgeUrlEnv
  (validateBridgeOrigin url (bridgeBearer env) (envOpt env internalHttpHostsEnv)).mapError
    fun error => "invalid runner bridge configuration: ".toList ++ error
  return url.withSlash

/-- `AdmissionControl::from_env`, as far as the origin. -/
def admissionOrigin (env : RunnerEnv) : Except Text BridgeUrl := do
  let url ← readBridgeUrl env "bridge URL".toList
  match url.host with
  | none => throw "bridge URL requires a host".toList
  | some host =>
    let host := Text.toAsciiLowercase host
    .refuseIf (url.scheme ≠ "https".toList ∧ ¬ isLoopbackHost host) "remote bridge URLs must use HTTPS".toList
    .refuseIf (¬ isLoopbackHost host ∧ bridgeBearer env = none)
      "remote policy admission requires a bridge bearer".toList
    return url.withSlash

/-! ### The policy itself -/

/-- The hosts of an allowlist all of whose entries are names of services in the cluster. -/
def Allowlisted (hosts : Option Text) (host : Text) : Prop :=
  ∃ raw ∈ hosts, (∀ entry ∈ raw.splitOn ',', isKubernetesServiceFqdn (Text.toAsciiLowercase (Text.trim entry)) = true) ∧
    ∃ entry ∈ raw.splitOn ',', Text.toAsciiLowercase (Text.trim entry) = host

/-- HTTPS with a bearer, HTTP or HTTPS on a loopback host, or HTTP on an allowlisted name with a bearer. -/
def AcceptableOrigin (bearer hosts : Option Text) (scheme host : Text) : Prop :=
  (scheme = "https".toList ∧ bearer.isSome) ∨
  ((scheme = "http".toList ∨ scheme = "https".toList) ∧ isLoopbackHost host = true) ∨
  (scheme = "http".toList ∧ Allowlisted hosts host ∧ bearer.isSome)

/-- The URL that the environment gives, which is parsed and has no user information, query or fragment. -/
def Names (env : RunnerEnv) (url : BridgeUrl) : Prop :=
  env.parseUrl (Text.trim ((env.var bridgeUrlEnv).getD defaultBridgeUrl)) = some url ∧
    url.username = [] ∧ url.password = none ∧ url.query = none ∧ url.fragment = none

/-- The origin is acceptable, and the base URL of the part is the one that the environment names. -/
def Opens (env : RunnerEnv) (base : BridgeUrl) : Prop :=
  ∃ url host, Names env url ∧ url.host = some host ∧ base = url.withSlash ∧
    AcceptableOrigin (bridgeBearer env) (envOpt env internalHttpHostsEnv) url.scheme (Text.toAsciiLowercase host)

/-- All parts that open the bridge accept the same origins, and those are the acceptable ones. -/
structure OneOriginPolicy (env : RunnerEnv) : Prop where
  client : ∀ base, bridgeClientOrigin env = .ok base ↔ Opens env base
  health : ∀ base, runnerHealthOrigin env = .ok base ↔ Opens env base
  admission : ∀ base, admissionOrigin env = .ok base ↔ Opens env base

/-- Neither HTTP on an allowlisted name in the cluster, nor a loopback host under another scheme. -/
def CommonOrigin (env : RunnerEnv) : Prop := ∀ url host, Names env url → url.host = some host →
  ¬ (url.scheme = "http".toList ∧ ¬ isLoopbackHost (Text.toAsciiLowercase host) ∧
      Allowlisted (envOpt env internalHttpHostsEnv) (Text.toAsciiLowercase host) ∧ (bridgeBearer env).isSome) ∧
  ¬ (url.scheme ≠ "http".toList ∧ url.scheme ≠ "https".toList ∧ isLoopbackHost (Text.toAsciiLowercase host))

section Policy
variable {env : RunnerEnv} {url base : BridgeUrl} {bearer hosts raw : Option Text} {entry host name : Text}

theorem not_isKubernetesServiceFqdn_nil : isKubernetesServiceFqdn [] = false := by
  decide

theorem internalHttpHost_eq_ok {allowlistEnv : Text} : internalHttpHost allowlistEnv entry = .ok host ↔
    isKubernetesServiceFqdn (Text.toAsciiLowercase (Text.trim entry)) = true ∧
      Text.toAsciiLowercase (Text.trim entry) = host := by
  unfold internalHttpHost
  simp only [Except.bind_eq_ok, Except.refuseIf_eq_ok, exists_const, not_not]
  constructor
  · rintro ⟨-, hname, hhost⟩
    exact ⟨hname, Except.ok.inj hhost⟩
  · rintro ⟨hname, rfl⟩
    refine ⟨?_, hname, rfl⟩
    intro hempty
    rw [hempty, not_isKubernetesServiceFqdn_nil] at hname
    cases hname

theorem mapM_internalHttpHost {allowlistEnv : Text} {entries : List Text}
    (h : ∀ entry ∈ entries, isKubernetesServiceFqdn (Text.toAsciiLowercase (Text.trim entry)) = true) :
    entries.mapM (internalHttpHost allowlistEnv) =
      .ok (entries.map fun entry => Text.toAsciiLowercase (Text.trim entry)) := by
  induction entries with
  | nil => rfl
  | cons entry entries ih =>
    obtain ⟨hentry, hentries⟩ := List.forall_mem_cons.mp h
    exact Except.mapM_cons_eq_ok.mpr ⟨_, _, internalHttpHost_eq_ok.mpr ⟨hentry, rfl⟩, ih hentries, rfl⟩

theorem parseInternalHttpHosts_iff {allowlistEnv : Text} :
    (∃ allowlist, parseInternalHttpHosts raw allowlistEnv = .ok allowlist ∧ host ∈ allowlist) ↔
    Allowlisted raw host := by
  cases raw with
  | none =>
    refine iff_of_false ?_ ?_
    · rintro ⟨allowlist, hlist, hmem⟩
      cases hlist
      exact KeySet.not_mem_empty hmem
    · rintro ⟨raw, hraw, -⟩
      cases hraw
  | some raw =>
    constructor
    · rintro ⟨allowlist, hlist, hmem⟩
      obtain ⟨entries, hentries, hallowlist⟩ := Except.bind_eq_ok.mp hlist
      cases hallowlist
      rw [KeySet.mem_ofList, Except.mem_of_mapM hentries] at hmem
      obtain ⟨entry, hentry, hhost⟩ := hmem
      refine ⟨raw, rfl, ?_, entry, hentry, (internalHttpHost_eq_ok.mp hhost).2⟩
      intro other hother
      obtain ⟨_, hok⟩ := Except.ok_of_mapM hentries hother
      exact (internalHttpHost_eq_ok.mp hok).1
    · rintro ⟨_, ⟨⟩, hall, hhost⟩
      refine ⟨_, Except.bind_eq_ok.mpr ⟨_, mapM_internalHttpHost hall, rfl⟩, ?_⟩
      rw [KeySet.mem_ofList, List.mem_map]
      exact hhost

theorem http_ne_https : "http".toList ≠ "https".toList := by
  decide

theorem validateServiceTransport_eq_ok {allowlistEnv label : Text} {loopback : Bool} :
    validateServiceTransport url hosts allowlistEnv label = .ok loopback ↔
      ∃ host, url.host = some host ∧ loopback = isLoopbackHost (Text.toAsciiLowercase host) ∧
        (url.scheme = "https".toList ∨ (url.scheme = "http".toList ∧
          (loopback = true ∨ Allowlisted hosts (Text.toAsciiLowercase host)))) := by
  unfold validateServiceTransport
  cases url.host with
  | none =>
    refine iff_of_false nofun ?_
    rintro ⟨host, hhost, -⟩
    cases hhost
  | some host =>
    simp only [Option.some.injEq, exists_eq_left']
    generalize Text.toAsciiLowercase host = host
    -- https, a loopback host, an allowlisted http host, and any other scheme
    split_ifs with hhttps hlocal hhttp
    · constructor
      · intro h
        exact ⟨(Except.ok.inj h).symm, .inl hhttps⟩
      · rintro ⟨rfl, -⟩
        rfl
    · obtain ⟨hhttp, hloopback⟩ := hlocal
      constructor
      · intro h
        have hvalue := Except.ok.inj h
        exact ⟨hvalue.symm, .inr ⟨hhttp, .inl (hvalue.symm.trans hloopback)⟩⟩
      · rintro ⟨rfl, -⟩
        rfl
    · constructor
      · intro h
        obtain ⟨allowlist, hlist, h⟩ := Except.bind_eq_ok.mp h
        obtain ⟨_, hmem, h⟩ := Except.bind_eq_ok.mp h
        rw [Except.refuseIf_eq_ok, not_not] at hmem
        exact ⟨(Except.ok.inj h).symm, .inr ⟨hhttp, .inr (parseInternalHttpHosts_iff.mp ⟨allowlist, hlist, hmem⟩)⟩⟩
      · rintro ⟨rfl, hallowed⟩
        have hlisted : Allowlisted hosts host := by
          rcases hallowed with h | ⟨-, hloopback | hlisted⟩
          · exact absurd h hhttps
          · exact absurd ⟨hhttp, hloopback⟩ hlocal
          · exact hlisted
        obtain ⟨allowlist, hlist, hmem⟩ := (@parseInternalHttpHosts_iff hosts host allowlistEnv).mpr hlisted
        refine Except.bind_eq_ok.mpr ⟨allowlist, hlist, Except.bind_eq_ok.mpr ⟨(), ?_, rfl⟩⟩
        rw [Except.refuseIf_eq_ok, not_not]
        exact hmem
    · refine iff_of_false nofun ?_
      rintro ⟨-, h | ⟨h, -⟩⟩
      · exact hhttps h
      · exact hhttp h

theorem validateBridgeOrigin_eq_ok : validateBridgeOrigin url bearer hosts = .ok () ↔
    ∃ host, url.host = some host ∧ AcceptableOrigin bearer hosts url.scheme (Text.toAsciiLowercase host) := by
  unfold validateBridgeOrigin validateServiceOrigin
  rw [Except.bind_eq_ok]
  constructor
  · rintro ⟨loopback, htransport, hbearer⟩
    obtain ⟨host, hhost, rfl, hallowed⟩ := validateServiceTransport_eq_ok.mp htransport
    rw [Except.refuseIf_eq_ok, not_and_or, not_not, ← Ne, Option.ne_none_iff_isSome] at hbearer
    refine ⟨host, hhost, ?_⟩
    rcases hallowed with hhttps | ⟨hhttp, hloopback | hlisted⟩
    · rcases hbearer with hloopback | hbearer
      · exact .inr (.inl ⟨.inr hhttps, hloopback⟩)
      · exact .inl ⟨hhttps, hbearer⟩
    · exact .inr (.inl ⟨.inl hhttp, hloopback⟩)
    · rcases hbearer with hloopback | hbearer
      · exact .inr (.inl ⟨.inl hhttp, hloopback⟩)
      · exact .inr (.inr ⟨hhttp, hlisted, hbearer⟩)
  · rintro ⟨host, hhost, haccept⟩
    have hopen (hallowed : url.scheme = "https".toList ∨ (url.scheme = "http".toList ∧
        (isLoopbackHost (Text.toAsciiLowercase host) = true ∨ Allowlisted hosts (Text.toAsciiLowercase host))))
        (hbearer : isLoopbackHost (Text.toAsciiLowercase host) = true ∨ bearer.isSome = true) :
        ∃ loopback, validateServiceTransport url hosts internalHttpHostsEnv "bridge".toList = .ok loopback ∧
          Except.refuseIf (¬ loopback = true ∧ bearer = none)
            ("remote ".toList ++ "bridge".toList ++ " URLs require a bearer token".toList) = .ok () := by
      refine ⟨_, validateServiceTransport_eq_ok.mpr ⟨host, hhost, rfl, hallowed⟩, ?_⟩
      rw [Except.refuseIf_eq_ok, not_and_or, not_not, ← Ne, Option.ne_none_iff_isSome]
      exact hbearer
    rcases haccept with ⟨hhttps, hbearer⟩ | ⟨hhttp | hhttps, hloopback⟩ | ⟨hhttp, hlisted, hbearer⟩
    · exact hopen (.inl hhttps) (.inr hbearer)
    · exact hopen (.inr ⟨hhttp, .inl hloopback⟩) (.inl hloopback)
    · exact hopen (.inl hhttps) (.inl hloopback)
    · exact hopen (.inr ⟨hhttp, .inr hlisted⟩) (.inr hbearer)

theorem readBridgeUrl_eq_ok : readBridgeUrl env name = .ok url ↔ Names env url := by
  unfold readBridgeUrl Names
  cases env.parseUrl (Text.trim ((env.var bridgeUrlEnv).getD defaultBridgeUrl)) with
  | none => exact iff_of_false nofun nofun
  | some parsed =>
    simp only [Except.bind_eq_ok, Except.refuseIf_eq_ok, exists_const, Option.some.injEq, not_or, not_not,
      Bool.not_eq_true, Option.isSome_eq_false_iff, Option.isNone_iff_eq_none]
    constructor
    · rintro ⟨⟨husername, hpassword⟩, ⟨hquery, hfragment⟩, ⟨⟩⟩
      exact ⟨rfl, husername, hpassword, hquery, hfragment⟩
    · rintro ⟨rfl, husername, hpassword, hquery, hfragment⟩
      exact ⟨⟨husername, hpassword⟩, ⟨hquery, hfragment⟩, rfl⟩

theorem Names.unique {url' : BridgeUrl} (h : Names env url) (h' : Names env url') : url = url' :=
  Option.some.inj (h.1.symm.trans h'.1)

theorem opens_iff : (∃ url, Names env url ∧ ∃ u, validateBridgeOrigin url (bridgeBearer env)
      (envOpt env internalHttpHostsEnv) = .ok u ∧ (pure url.withSlash : Except Text BridgeUrl) = .ok base) ↔
    Opens env base := by
  constructor
  · rintro ⟨url, hnames, _, hvalid, ⟨⟩⟩
    obtain ⟨host, hhost, haccept⟩ := validateBridgeOrigin_eq_ok.mp hvalid
    exact ⟨url, host, hnames, hhost, rfl, haccept⟩
  · rintro ⟨url, host, hnames, hhost, rfl, haccept⟩
    exact ⟨url, hnames, (), validateBridgeOrigin_eq_ok.mpr ⟨host, hhost, haccept⟩, rfl⟩

theorem bridgeClientOrigin_eq_ok : bridgeClientOrigin env = .ok base ↔ Opens env base := by
  unfold bridgeClientOrigin
  simp only [Except.bind_eq_ok, readBridgeUrl_eq_ok]
  exact opens_iff

theorem runnerHealthOrigin_eq_ok : runnerHealthOrigin env = .ok base ↔ Opens env base := by
  unfold runnerHealthOrigin
  -- the text that the probe adds to an error does not change what is accepted
  simp only [Except.bind_eq_ok, readBridgeUrl_eq_ok, Except.mapError_eq_ok]
  exact opens_iff

theorem admissionOrigin_eq_ok : admissionOrigin env = .ok base ↔ ∃ url host, Names env url ∧ url.host = some host ∧
    base = url.withSlash ∧ (isLoopbackHost (Text.toAsciiLowercase host) = true ∨
      (url.scheme = "https".toList ∧ (bridgeBearer env).isSome)) := by
  unfold admissionOrigin
  simp only [Except.bind_eq_ok, readBridgeUrl_eq_ok]
  refine exists_congr fun url => ?_
  cases url.host with
  | none =>
    refine iff_of_false (by rintro ⟨-, ⟨⟩⟩) ?_
    rintro ⟨host, -, ⟨⟩, -⟩
  | some host =>
    have hsome : ¬ bridgeBearer env = none ↔ (bridgeBearer env).isSome = true := Option.ne_none_iff_isSome
    simp only [Except.bind_eq_ok, Except.refuseIf_eq_ok, exists_const, Option.some.injEq, not_and_or, not_not, hsome]
    constructor
    · rintro ⟨hnames, hscheme, hbearer, ⟨⟩⟩
      refine ⟨host, hnames, rfl, rfl, ?_⟩
      rcases hbearer with hloopback | hbearer
      · exact .inl hloopback
      · exact hscheme.symm.imp_right fun hhttps => ⟨hhttps, hbearer⟩
    · rintro ⟨_, hnames, rfl, rfl, hloopback | ⟨hhttps, hbearer⟩⟩
      · exact ⟨hnames, .inr hloopback, .inl hloopback, rfl⟩
      · exact ⟨hnames, .inl hhttps, .inr hbearer, rfl⟩

/-- The parts agree, and accept what is acceptable, exactly if the origin is not one of the two kinds that the
admission client treats in its own way. -/
theorem oneOriginPolicy_iff (env : RunnerEnv) : OneOriginPolicy env ↔ CommonOrigin env := by
  constructor
  · intro h url host hnames hhost
    constructor
    · rintro ⟨hhttp, hremote, hlisted, hbearer⟩
      have hopens : Opens env url.withSlash := ⟨url, host, hnames, hhost, rfl, .inr (.inr ⟨hhttp, hlisted, hbearer⟩)⟩
      obtain ⟨url', host', hnames', hhost', -, hadmitted⟩ := admissionOrigin_eq_ok.mp ((h.admission _).mpr hopens)
      cases hnames.unique hnames'
      cases hhost.symm.trans hhost'
      rcases hadmitted with hloopback | ⟨hhttps, -⟩
      · exact hremote hloopback
      · exact http_ne_https (hhttp.symm.trans hhttps)
    · rintro ⟨hhttp, hhttps, hloopback⟩
      have hadmitted := admissionOrigin_eq_ok.mpr ⟨url, host, hnames, hhost, rfl, .inl hloopback⟩
      obtain ⟨url', host', hnames', -, -, haccept⟩ := (h.admission _).mp hadmitted
      cases hnames.unique hnames'
      rcases haccept with ⟨h, -⟩ | ⟨h | h, -⟩ | ⟨h, -, -⟩
      · exact hhttps h
      · exact hhttp h
      · exact hhttps h
      · exact hhttp h
  · intro h
    refine ⟨fun base => bridgeClientOrigin_eq_ok, fun base => runnerHealthOrigin_eq_ok, fun base => ?_⟩
    rw [admissionOrigin_eq_ok]
    refine exists_congr fun url => exists_congr fun host => ?_
    constructor
    · rintro ⟨hnames, hhost, hbase, hloopback | ⟨hhttps, hbearer⟩⟩
      · refine ⟨hnames, hhost, hbase, .inr (.inl ⟨?_, hloopback⟩)⟩
        by_contra hscheme
        rw [not_or] at hscheme
        exact (h url host hnames hhost).2 ⟨hscheme.1, hscheme.2, hloopback⟩
      · exact ⟨hnames, hhost, hbase, .inl ⟨hhttps, hbearer⟩⟩
    · rintro ⟨hnames, hhost, hbase, ⟨hhttps, hbearer⟩ | ⟨-, hloopback⟩ | ⟨hhttp, hlisted, hbearer⟩⟩
      · exact ⟨hnames, hhost, hbase, .inr ⟨hhttps, hbearer⟩⟩
      · exact ⟨hnames, hhost, hbase, .inl hloopback⟩
      · refine ⟨hnames, hhost, hbase, .inl ?_⟩
        by_contra hremote
        exact (h url host hnames hhost).1 ⟨hhttp, hremote, hlisted, hbearer⟩

end Policy

/-- The environment of a runner beside the bridge in one cluster, whose URL is parsed into these parts. -/
def clusterEnv : RunnerEnv where
  var := fun key =>
    if key = bridgeUrlEnv then some "http://dd-ai-agent-bridge.default.svc.cluster.local:8142/".toList
    else if key = bridgeBearerEnv then some "test-only".toList
    else if key = internalHttpHostsEnv then some "dd-ai-agent-bridge.default.svc.cluster.local".toList
    else none
  parseUrl := fun _ => some {
    scheme := "http".toList
    username := []
    password := none
    host := some "dd-ai-agent-bridge.default.svc.cluster.local".toList
    port := some 8142
    path := "/".toList
    query := none
    fragment := none }

/-- Its client starts and its admission client does not. -/
theorem not_oneOriginPolicy : (bridgeClientOrigin clusterEnv).toOption.isSome = true ∧
    (admissionOrigin clusterEnv).toOption.isSome = false ∧ ¬ OneOriginPolicy clusterEnv := by
  have hclient : (bridgeClientOrigin clusterEnv).toOption.isSome = true := by decide +kernel
  have hadmission : (admissionOrigin clusterEnv).toOption.isSome = false := by decide +kernel
  refine ⟨hclient, hadmission, ?_⟩
  intro h
  obtain ⟨base, hbase⟩ := Option.isSome_iff_exists.mp hclient
  cases hopened : bridgeClientOrigin clusterEnv with
  | error e =>
    rw [hopened] at hbase
    cases hbase
  | ok opened =>
    rw [(h.admission opened).mpr ((h.client opened).mp hopened)] at hadmission
    cases hadmission

end AgentBridge.Runner
