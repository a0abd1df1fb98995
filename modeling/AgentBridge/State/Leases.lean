import AgentBridge.Base.Components
import AgentBridge.State.Basic

/-! Agent registration and repository-path leases. -/

namespace AgentBridge

namespace State

def maxKeyBytes : Nat := 120
def maxRepositoryBytes : Nat := 512
def maxFilePathBytes : Nat := 4096
def maxFilePurposeBytes : Nat := 1024
def minFileLeaseTtlMs : Nat := 100
def maxFileLeaseTtlMs : Nat := 3600000

def normalizeRepository (value : Text) : BridgeResult Text :=
  let value := Text.trimEndMatches '/' (Text.trim value)
  if value = [] then .error (.badRequest "repository is required".toList)
  else if Text.byteLen value > maxRepositoryBytes then
    .error (.payloadTooLarge "repository".toList maxRepositoryBytes)
  else if value.any Text.isControl then
    .error (.badRequest "repository contains control characters".toList)
  else .ok value

/-- The components a path keeps: empty ones and `.` are dropped, `..` is refused. -/
def pathParts : List Text → BridgeResult (List Text)
  | [] => .ok []
  | part :: rest =>
    if part = [] ∨ part = ".".toList then pathParts rest
    else if part = "..".toList then
      .error (.badRequest "path must not traverse outside the repository".toList)
    else (pathParts rest).map (part :: ·)

def normalizeFilePath (value : Text) : BridgeResult Text :=
  let value := Text.trim value
  if value = [] then .error (.badRequest "path is required".toList)
  else if Text.byteLen value > maxFilePathBytes then
    .error (.payloadTooLarge "file path".toList maxFilePathBytes)
  else if "/".toList.isPrefixOf value || value.contains '\\' || value.any Text.isControl then
    .error (.badRequest "path must be a repository-relative POSIX path".toList)
  else do
    let parts ← pathParts (value.splitOn '/')
    if parts = [] then .error (.badRequest "path is required".toList)
    else .ok (Components.join '/' parts)

def normalizeFileLeaseTtl (ttlMs : Nat) : BridgeResult Nat :=
  if minFileLeaseTtlMs ≤ ttlMs ∧ ttlMs ≤ maxFileLeaseTtlMs then .ok ttlMs
  else .error (.badRequest ("ttl_ms must be between ".toList ++ Text.decimal minFileLeaseTtlMs ++
    " and ".toList ++ Text.decimal maxFileLeaseTtlMs))

def normalizedPurpose (value : Text) : Text :=
  Text.truncateBytes maxFilePurposeBytes (Text.trim value)

def fileLeaseExpiryTs (now : Now) (ttlMs : Nat) : Timestamp := Timestamp.ofMillis (now.utc + ttlMs)

def leaseScopesOverlap (aPath : Text) (aRecursive : Bool) (bPath : Text) (bRecursive : Bool) : Bool :=
  aPath == bPath || (aRecursive && (aPath ++ "/".toList).isPrefixOf bPath) ||
    (bRecursive && (bPath ++ "/".toList).isPrefixOf aPath)

end State

open State

namespace AppState

def registerAgent (s : AppState) (now : Now) (agent : Agent) : BridgeResult Agent × AppState :=
  let key := Text.trim agent.agentKey
  if key = [] then (.error (.badRequest "agent_key is required".toList), s)
  else if Text.byteLen key > maxKeyBytes then
    (.error (.payloadTooLarge "agent_key".toList maxKeyBytes), s)
  else
    let displayName := if Text.trim agent.displayName = [] then key else agent.displayName
    let agent := { agent with
      agentKey := key
      displayName := Text.truncateBytes 200 displayName
      host := agent.host.map (Text.truncateBytes 255)
      registeredAt := now.ts }
    if agent.metadata.bytes > s.config.maxContentBytes then
      (.error (.payloadTooLarge "agent meta".toList s.config.maxContentBytes), s)
    else if !s.agents.contains key && s.agents.size ≥ s.config.maxAgents then
      (.error (.capacityExceeded "agents".toList s.config.maxAgents), s)
    else (.ok agent, { s with agents := s.agents.insert key agent })

def getAgent (s : AppState) (agentKey : Text) : Option Agent := s.agents.get agentKey

/-- What every lease operation does first under the lock. -/
def pruneLeases (s : AppState) (now : Now) : AppState :=
  { s with fileLeases := s.fileLeases.retain (fun v => now.instant < v.expiresAt) }

/-- The checks of an acquire, before the lease table is locked: the normalised
repository, path and agent key. -/
def acquireChecks (s : AppState) (repository path agentKey : Text) (ttlMs : Nat) (metadata : Json) :
    BridgeResult (Text × Text × Text) := do
  let repository ← normalizeRepository repository
  let path ← normalizeFilePath path
  let agentKey := Text.trim agentKey
  if !s.agents.contains agentKey then throw (.agentNotFound agentKey)
  if metadata.bytes > s.config.maxContentBytes then
    throw (.payloadTooLarge "file lease meta".toList s.config.maxContentBytes)
  let _ ← normalizeFileLeaseTtl ttlMs
  pure (repository, path, agentKey)

/-- The part of an acquire under the lock, after expired leases are pruned. -/
def grantFileLease (s : AppState) (now : Now) (newId repository path agentKey : Text) (ttlMs : Nat)
    (recursive : Bool) (purpose : Text) (metadata : Json) : BridgeResult FileLease × AppState :=
  match s.fileLeases.findEntry (fun v => v.lease.repository == repository &&
      v.lease.agentKey != agentKey &&
      leaseScopesOverlap v.lease.path v.lease.recursive path recursive) with
  | some (_, conflict) => (.error (.fileLeaseConflict repository path conflict.lease.agentKey), s)
  | none =>
    match s.fileLeases.findEntry (fun v => v.lease.repository == repository &&
        v.lease.path == path && v.lease.agentKey == agentKey) with
    | some (key, existing) =>
      let lease := { existing.lease with
        expiresAt := fileLeaseExpiryTs now ttlMs
        recursive := recursive
        purpose := normalizedPurpose purpose
        metadata := metadata }
      (.ok lease, { s with fileLeases :=
        s.fileLeases.insert key { lease := lease, expiresAt := now.instant + ttlMs } })
    | none =>
      if s.fileLeases.size ≥ s.config.maxFileLeases then
        (.error (.capacityExceeded "file leases".toList s.config.maxFileLeases), s)
      else
        let lease : FileLease := {
          id := newId
          repository := repository
          path := path
          recursive := recursive
          agentKey := agentKey
          purpose := normalizedPurpose purpose
          metadata := metadata
          fencingToken := saturatingAdd s.nextFileFencingToken 1
          acquiredAt := now.ts
          expiresAt := fileLeaseExpiryTs now ttlMs }
        (.ok lease, { s with
          nextFileFencingToken := wrappingSucc s.nextFileFencingToken
          fileLeases := s.fileLeases.insert newId
            { lease := lease, expiresAt := now.instant + ttlMs } })

def acquireFileLease (s : AppState) (now : Now) (newId repository path agentKey : Text) (ttlMs : Nat)
    (recursive : Bool) (purpose : Text) (metadata : Json) : BridgeResult FileLease × AppState :=
  match s.acquireChecks repository path agentKey ttlMs metadata with
  | .error e => (.error e, s)
  | .ok (repository, path, agentKey) =>
    (s.pruneLeases now).grantFileLease now newId repository path agentKey ttlMs recursive purpose
      metadata

/-- The lease `leaseId`, provided `agentKey` owns it and presents its token. -/
def fencedLease (s : AppState) (leaseId agentKey : Text) (fencingToken : Nat) :
    BridgeResult FileLeaseState :=
  match s.fileLeases.get leaseId with
  | none => .error (.fileLeaseNotFound leaseId)
  | some value =>
    if value.lease.agentKey ≠ Text.trim agentKey then
      .error (.fileLeaseOwnerMismatch leaseId (Text.trim agentKey))
    else if value.lease.fencingToken ≠ fencingToken then .error (.staleFencingToken leaseId)
    else .ok value

def renewFileLease (s : AppState) (now : Now) (leaseId agentKey : Text) (fencingToken ttlMs : Nat) :
    BridgeResult FileLease × AppState :=
  match normalizeFileLeaseTtl ttlMs with
  | .error e => (.error e, s)
  | .ok ttlMs =>
    let s := s.pruneLeases now
    match s.fencedLease leaseId agentKey fencingToken with
    | .error e => (.error e, s)
    | .ok value =>
      let lease := { value.lease with expiresAt := fileLeaseExpiryTs now ttlMs }
      (.ok lease, { s with fileLeases :=
        s.fileLeases.insert leaseId { lease := lease, expiresAt := now.instant + ttlMs } })

def releaseFileLease (s : AppState) (now : Now) (leaseId agentKey : Text) (fencingToken : Nat) :
    BridgeResult FileLease × AppState :=
  let s := s.pruneLeases now
  match s.fencedLease leaseId agentKey fencingToken with
  | .error e => (.error e, s)
  | .ok value => (.ok value.lease, { s with fileLeases := s.fileLeases.remove leaseId })

/-- The order of `file_lease_holders`: by repository, path and agent key. -/
def holderLe (a b : FileLeaseHolder) : Bool :=
  if a.lease.repository ≠ b.lease.repository then a.lease.repository < b.lease.repository
  else if a.lease.path ≠ b.lease.path then a.lease.path < b.lease.path
  else a.lease.agentKey ≤ b.lease.agentKey

def fileLeaseHolders (s : AppState) (now : Now) (repository path agentKey : Option Text)
    (includeDescendants : Bool) : BridgeResult (List FileLeaseHolder) × AppState :=
  match repository.mapM normalizeRepository, path.mapM normalizeFilePath with
  | .error e, _ => (.error e, s)
  | .ok _, .error e => (.error e, s)
  | .ok repository, .ok path =>
    let s := s.pruneLeases now
    let selected := s.fileLeases.values.filter fun v =>
      repository.all (fun repo => v.lease.repository == repo) &&
      path.all (fun query =>
        leaseScopesOverlap v.lease.path v.lease.recursive query includeDescendants) &&
      agentKey.all (fun agent => v.lease.agentKey == agent)
    let holders := selected.filterMap fun v =>
      (s.agents.get v.lease.agentKey).map fun agent => { lease := v.lease, agent := agent }
    (.ok (holders.mergeSort holderLe), s)

end AppState
end AgentBridge
