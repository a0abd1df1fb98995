import AgentBridge.Base.Run
import AgentBridge.Lease.Scope

/-! Runs of the lease operations under a monotonic clock, and mutual exclusion
in every state such a run reaches. What an operation can do to the lease table
is said once, by `BookStep`. -/

namespace AgentBridge
open State

/-- The application state with the monotonic clock, in milliseconds. `granted`
records every lease that got a fresh token, newest first. -/
structure LeaseWorld where
  state : AppState
  clock : Nat
  granted : List FileLease

/-- Calls on the lease manager and clock advances. A call reads its instant
before it takes the lock, `lag` milliseconds earlier. -/
inductive LeaseAction
  | advance (ms : Nat)
  | register (utc : Nat) (agent : Agent)
  | acquire (lag utc : Nat) (newId repository path agentKey : Text) (ttlMs : Nat) (recursive : Bool)
      (purpose : Text) (metadata : Json)
  | renew (lag utc : Nat) (leaseId agentKey : Text) (fencingToken ttlMs : Nat)
  | release (lag utc : Nat) (leaseId agentKey : Text) (fencingToken : Nat)
  | holders (lag utc : Nat) (repository path agentKey : Option Text) (includeDescendants : Bool)

abbrev LeaseTable := Table Text FileLeaseState

/-- No lease of another agent in the same repository overlaps the scope of `lease`. -/
def LeaseTable.Free (t : LeaseTable) (lease : FileLease) : Prop :=
  ∀ v ∈ t.values, v.lease.repository = lease.repository → v.lease.agentKey ≠ lease.agentKey →
    leaseScopesOverlap v.lease.path v.lease.recursive lease.path lease.recursive = false

namespace LeaseWorld

def init (config : Config) : LeaseWorld := ⟨AppState.new config, 0, []⟩

def now (w : LeaseWorld) (lag utc : Nat) : Now := ⟨w.clock - lag, utc⟩

/-- The ghost record after an acquire: extended exactly when the token counter moved. -/
def recordGrant (w : LeaseWorld) : BridgeResult FileLease × AppState → List FileLease
  | (.ok lease, s) =>
    if s.nextFileFencingToken = w.state.nextFileFencingToken then w.granted else lease :: w.granted
  | (.error _, _) => w.granted

def step (w : LeaseWorld) : LeaseAction → LeaseWorld
  | .advance ms => { w with clock := w.clock + ms }
  | .register utc agent => { w with state := (w.state.registerAgent (w.now 0 utc) agent).2 }
  | .acquire lag utc newId repository path agentKey ttlMs recursive purpose metadata =>
    let r := w.state.acquireFileLease (w.now lag utc) newId repository path agentKey ttlMs recursive
      purpose metadata
    { w with state := r.2, granted := w.recordGrant r }
  | .renew lag utc leaseId agentKey fencingToken ttlMs =>
    { w with state := (w.state.renewFileLease (w.now lag utc) leaseId agentKey fencingToken ttlMs).2 }
  | .release lag utc leaseId agentKey fencingToken =>
    { w with state := (w.state.releaseFileLease (w.now lag utc) leaseId agentKey fencingToken).2 }
  | .holders lag utc repository path agentKey includeDescendants =>
    { w with state := (w.state.fileLeaseHolders (w.now lag utc) repository path agentKey
        includeDescendants).2 }

abbrev run (config : Config) (as : List LeaseAction) : LeaseWorld := Run.exec step (init config) as

/-- `lease` is in the table and unexpired. -/
def Live (w : LeaseWorld) (lease : FileLease) : Prop :=
  ∃ v ∈ w.state.fileLeases.values, v.lease = lease ∧ w.clock < v.expiresAt

/-- The action re-acquires the exact lease `lease` as a recursive one, and no other agent is in its way. -/
def Widens (w : LeaseWorld) (lease : FileLease) : LeaseAction → Prop
  | .acquire lag utc _ repository path agentKey ttlMs true _ metadata =>
    w.state.acquireChecks repository path agentKey ttlMs metadata =
      .ok (lease.repository, lease.path, lease.agentKey) ∧ lease.recursive = false ∧
    (∃ v ∈ (w.state.pruneLeases (w.now lag utc)).fileLeases.values, v.lease = lease) ∧
    LeaseTable.Free (w.state.pruneLeases (w.now lag utc)).fileLeases { lease with recursive := true }
  | _ => False

end LeaseWorld

/-- What the lease results are about: the table, the token counter and the record of grants. -/
structure LeaseBook where
  table : LeaseTable
  counter : Nat
  granted : List FileLease

def LeaseWorld.book (w : LeaseWorld) : LeaseBook :=
  ⟨w.state.fileLeases, w.state.nextFileFencingToken, w.granted⟩

/-- The parts of a lease that stay with its token. -/
structure FileLease.SameGrant (a b : FileLease) : Prop where
  repository : a.repository = b.repository
  path : a.path = b.path
  agentKey : a.agentKey = b.agentKey
  fencingToken : a.fencingToken = b.fencingToken

theorem FileLease.sameGrant_expiresAt (lease : FileLease) (ts : Timestamp) :
    { lease with expiresAt := ts }.SameGrant lease := ⟨rfl, rfl, rfl, rfl⟩

theorem FileLease.recursive_expiresAt (lease : FileLease) (ts : Timestamp) :
    { lease with expiresAt := ts }.recursive = lease.recursive := rfl

/-- What one critical section does to the book. `W` holds of a lease whose scope
is widened in place. -/
inductive BookStep (W : FileLease → Prop) (b : LeaseBook) : LeaseBook → Prop
  | keep {t : LeaseTable} (hsub : t.values ⊆ b.table.values) : BookStep W b { b with table := t }
  | renew {key : Text} {v v' : FileLeaseState} (hv : v ∈ b.table.values)
      (hsame : v'.lease.SameGrant v.lease) (hrec : v'.lease.recursive = v.lease.recursive) :
      BookStep W b { b with table := b.table.insert key v' }
  | reacquire {key : Text} {v v' : FileLeaseState} (hv : v ∈ b.table.values)
      (hsame : v'.lease.SameGrant v.lease) (hfree : LeaseTable.Free b.table v'.lease)
      (hwide : v.lease.recursive = false → v'.lease.recursive = true → W v.lease) :
      BookStep W b { b with table := b.table.insert key v' }
  | grant {key : Text} {v : FileLeaseState} (hpath : NormalizedPath v.lease.path)
      (hfree : LeaseTable.Free b.table v.lease)
      (htoken : v.lease.fencingToken = saturatingAdd b.counter 1) :
      BookStep W b ⟨b.table.insert key v, wrappingSucc b.counter, v.lease :: b.granted⟩

theorem values_pruneLeases (s : AppState) (now : Now) :
    (s.pruneLeases now).fileLeases.values ⊆ s.fileLeases.values :=
  fun _ hv => (Table.mem_values_retain.mp hv).1

theorem values_remove (t : LeaseTable) (key : Text) : (t.remove key).values ⊆ t.values :=
  fun _ hv => Table.mem_values_remove hv

section Steps
variable {W : FileLease → Prop} {w : LeaseWorld} {lag utc : Nat}

/-- The locked part of an acquire: refused, re-acquired in place, or granted afresh. -/
theorem grantFileLease_bookStep {s : AppState} {now : Now} {newId repository path agentKey : Text}
    {ttlMs : Nat} {recursive : Bool} {purpose : Text} {metadata : Json}
    (hcounter : s.nextFileFencingToken = w.state.nextFileFencingToken)
    (hpath : NormalizedPath path)
    (hW : ∀ v ∈ s.fileLeases.values, v.lease.repository = repository → v.lease.path = path →
      v.lease.agentKey = agentKey → v.lease.recursive = false → recursive = true →
      LeaseTable.Free s.fileLeases { v.lease with recursive := true } → W v.lease) :
    let r := s.grantFileLease now newId repository path agentKey ttlMs recursive purpose metadata
    BookStep W ⟨s.fileLeases, w.state.nextFileFencingToken, w.granted⟩
      ⟨r.2.fileLeases, r.2.nextFileFencingToken, w.recordGrant r⟩ := by
  intro r
  have hkeep : BookStep W ⟨s.fileLeases, w.state.nextFileFencingToken, w.granted⟩
      ⟨s.fileLeases, w.state.nextFileFencingToken, w.granted⟩ := .keep (List.Subset.refl _)
  subst r
  unfold AppState.grantFileLease
  split
  · simpa only [LeaseWorld.recordGrant, hcounter] using hkeep
  · rename_i hnone
    have hfree : ∀ v ∈ s.fileLeases.values, v.lease.repository = repository →
        v.lease.agentKey ≠ agentKey →
        leaseScopesOverlap v.lease.path v.lease.recursive path recursive = false := by
      intro v hv hr ha
      simpa [hr, ha] using Table.findEntry_eq_none hnone hv
    split
    · rename_i key v hfind
      obtain ⟨hget, hv⟩ := Table.findEntry_eq_some hfind
      have hmem : v ∈ s.fileLeases.values := Table.mem_values.mpr ⟨key, hget⟩
      simp only [Bool.and_eq_true, beq_iff_eq] at hv
      obtain ⟨⟨hrepo, hp⟩, hagent⟩ := hv
      simp only [LeaseWorld.recordGrant, hcounter, if_true]
      have hclear : LeaseTable.Free s.fileLeases { v.lease with recursive := recursive } := by
        intro u hu hr ha
        simp only [hrepo, hagent] at hr ha
        simpa only [hp] using hfree u hu hr ha
      refine .reacquire hmem ⟨rfl, rfl, rfl, rfl⟩ hclear fun hexact hwide => ?_
      change recursive = true at hwide
      rw [hwide] at hclear
      exact hW v hmem hrepo hp hagent hexact hwide hclear
    · split_ifs with hfull
      · simpa only [LeaseWorld.recordGrant, hcounter] using hkeep
      · simp only [LeaseWorld.recordGrant, hcounter, wrappingSucc_ne, if_false]
        exact .grant hpath hfree rfl

theorem acquireChecks_normalized {s : AppState} {repository path agentKey : Text} {ttlMs : Nat}
    {metadata : Json} {r : Text × Text × Text}
    (h : s.acquireChecks repository path agentKey ttlMs metadata = .ok r) : NormalizedPath r.2.1 := by
  unfold AppState.acquireChecks at h
  cases hr : normalizeRepository repository with
  | error e => rw [hr] at h; cases h
  | ok repo =>
    cases hp : normalizeFilePath path with
    | error e => rw [hr, hp] at h; cases h
    | ok p =>
      cases ht : normalizeFileLeaseTtl ttlMs with
      | error e =>
        simp only [hr, hp, ht, bind, Except.bind] at h
        split_ifs at h
      | ok ttl =>
        simp only [hr, hp, ht, bind, Except.bind] at h
        split_ifs at h
        cases h
        exact ⟨path, hp⟩

theorem fencedLease_mem {s : AppState} {leaseId agentKey : Text} {fencingToken : Nat}
    {v : FileLeaseState} (h : s.fencedLease leaseId agentKey fencingToken = .ok v) :
    v ∈ s.fileLeases.values := by
  unfold AppState.fencedLease at h
  split at h
  · cases h
  · rename_i value hget
    split_ifs at h
    cases h
    exact Table.mem_values.mpr ⟨leaseId, hget⟩

def LeaseBook.Moves (W : FileLease → Prop) (b b' : LeaseBook) : Prop :=
  ∃ t : LeaseTable, t.values ⊆ b.table.values ∧ BookStep W { b with table := t } b'

theorem LeaseBook.Moves.idle (b : LeaseBook) : b.Moves W b :=
  ⟨b.table, List.Subset.refl _, .keep (List.Subset.refl _)⟩

theorem acquire_moves (newId repository path agentKey : Text) (ttlMs : Nat) (recursive : Bool)
    (purpose : Text) (metadata : Json) :
    let a := LeaseAction.acquire lag utc newId repository path agentKey ttlMs recursive purpose metadata
    w.book.Moves (fun l => w.Widens l a) (w.step a).book := by
  simp only [LeaseWorld.step, AppState.acquireFileLease]
  cases hchecks : w.state.acquireChecks repository path agentKey ttlMs metadata with
  | error e => exact .idle _
  | ok r =>
    refine ⟨_, values_pruneLeases w.state (w.now lag utc), grantFileLease_bookStep rfl
      (acquireChecks_normalized hchecks) ?_⟩
    rintro v hv hr hp ha hexact rfl hclear
    refine ⟨?_, hexact, ⟨v, hv, rfl⟩, hclear⟩
    rw [hr, hp, ha]
    exact hchecks

theorem renew_moves (leaseId agentKey : Text) (fencingToken ttlMs : Nat) :
    w.book.Moves W (w.step (.renew lag utc leaseId agentKey fencingToken ttlMs)).book := by
  simp only [LeaseWorld.step, AppState.renewFileLease]
  cases normalizeFileLeaseTtl ttlMs with
  | error e => exact .idle _
  | ok ttl =>
    refine ⟨_, values_pruneLeases w.state (w.now lag utc), ?_⟩
    cases hv : (w.state.pruneLeases (w.now lag utc)).fencedLease leaseId agentKey fencingToken with
    | error e => exact .keep (List.Subset.refl _)
    | ok v =>
      exact .renew (fencedLease_mem hv) (v.lease.sameGrant_expiresAt _) (v.lease.recursive_expiresAt _)

theorem release_moves (leaseId agentKey : Text) (fencingToken : Nat) :
    w.book.Moves W (w.step (.release lag utc leaseId agentKey fencingToken)).book := by
  refine ⟨_, values_pruneLeases w.state (w.now lag utc), ?_⟩
  simp only [LeaseWorld.step, AppState.releaseFileLease]
  split
  · exact .keep (List.Subset.refl _)
  · exact .keep (values_remove _ _)

theorem holders_moves (repository path agentKey : Option Text) (includeDescendants : Bool) :
    w.book.Moves W (w.step (.holders lag utc repository path agentKey includeDescendants)).book := by
  simp only [LeaseWorld.step, AppState.fileLeaseHolders]
  split
  · exact .idle _
  · exact .idle _
  · exact ⟨_, values_pruneLeases w.state (w.now lag utc), .keep (List.Subset.refl _)⟩

theorem register_moves (agent : Agent) : w.book.Moves W (w.step (.register utc agent)).book := by
  simp only [LeaseWorld.step, AppState.registerAgent]
  split_ifs <;> exact .idle _

theorem step_moves (w : LeaseWorld) (a : LeaseAction) :
    w.book.Moves (fun l => w.Widens l a) (w.step a).book := by
  cases a with
  | advance ms => exact .idle _
  | register utc agent => exact register_moves agent
  | acquire => exact acquire_moves ..
  | renew => exact renew_moves ..
  | release => exact release_moves ..
  | holders => exact holders_moves ..

end Steps

theorem leaseScopesOverlap_comm (a : Text) (ra : Bool) (b : Text) (rb : Bool) :
    leaseScopesOverlap a ra b rb = leaseScopesOverlap b rb a ra := by
  unfold leaseScopesOverlap
  rw [Bool.or_assoc, Bool.or_assoc, Bool.or_comm (ra && _), BEq.comm]

/-- Leases of different agents in one repository have disjoint scopes, and every
leased path is normalised. Expiry plays no part: it holds of all that the table
still lists. -/
structure LeaseTable.Exclusive (t : LeaseTable) : Prop where
  normalized : ∀ v ∈ t.values, NormalizedPath v.lease.path
  free : ∀ v ∈ t.values, LeaseTable.Free t v.lease

theorem LeaseTable.Exclusive.subset {t t' : LeaseTable} (h : t.Exclusive)
    (hsub : t'.values ⊆ t.values) : t'.Exclusive :=
  ⟨fun v hv => h.normalized v (hsub hv), fun v hv u hu => h.free v (hsub hv) u (hsub hu)⟩

theorem LeaseTable.Exclusive.insert {t : LeaseTable} (h : t.Exclusive) {key : Text}
    {v : FileLeaseState} (hpath : NormalizedPath v.lease.path) (hfree : t.Free v.lease) :
    LeaseTable.Exclusive (Table.insert t key v) := by
  constructor
  · intro u hu
    rcases Table.mem_values_insert hu with rfl | hu
    · exact hpath
    · exact h.normalized u hu
  · intro x hx y hy hrepo hagent
    rcases Table.mem_values_insert hx with hxv | hxt
    · rcases Table.mem_values_insert hy with hyv | hyt
      · exact absurd (hyv.trans hxv.symm ▸ rfl) hagent
      · exact (hxv ▸ hfree) y hyt hrepo hagent
    · rcases Table.mem_values_insert hy with hyv | hyt
      · rw [leaseScopesOverlap_comm]
        exact (hyv ▸ hfree) x hxt hrepo.symm hagent.symm
      · exact h.free x hxt y hyt hrepo hagent

theorem BookStep.exclusive {W : FileLease → Prop} {b b' : LeaseBook} (h : BookStep W b b')
    (hex : b.table.Exclusive) : b'.table.Exclusive := by
  cases h with
  | keep hsub => exact hex.subset hsub
  | renew hv hsame hrec =>
    refine hex.insert (hsame.path ▸ hex.normalized _ hv) ?_
    intro u hu hr ha
    rw [hsame.repository] at hr
    rw [hsame.agentKey] at ha
    rw [hsame.path, hrec]
    exact hex.free _ hv u hu hr ha
  | reacquire hv hsame hfree =>
    exact hex.insert (hsame.path ▸ hex.normalized _ hv) hfree
  | grant hpath hfree => exact hex.insert hpath hfree

theorem step_exclusive (w : LeaseWorld) (a : LeaseAction) (h : w.book.table.Exclusive) :
    (w.step a).book.table.Exclusive := by
  obtain ⟨t, hsub, hstep⟩ := step_moves w a
  exact hstep.exclusive (h.subset hsub)

theorem run_exclusive (config : Config) (as : List LeaseAction) :
    (LeaseWorld.run config as).book.table.Exclusive :=
  Run.exec_invariant step_exclusive ⟨fun _ hv => (List.not_mem_nil hv).elim,
    fun _ hv => (List.not_mem_nil hv).elim⟩ as

theorem overlap_of_covers {a b : FileLease} {p : Text} (ha : NormalizedPath a.path)
    (hb : NormalizedPath b.path) (hpa : a.Covers p) (hpb : b.Covers p) :
    leaseScopesOverlap a.path a.recursive b.path b.recursive = true :=
  (leaseScopesOverlap_iff_mem ha hb).mpr
    ((Components.scope_meet_iff (N := Set.univ) trivial trivial).mp ⟨components p, trivial, hpa, hpb⟩)

/-- In every reachable state the scopes of unexpired leases of two agents in one
repository have no normalised path in common, and the string test decides
exactly whether two scopes do. -/
theorem lease_mutual_exclusion :
    (∀ (config : Config) (as : List LeaseAction) (a b : FileLease),
      (LeaseWorld.run config as).Live a → (LeaseWorld.run config as).Live b →
      a.agentKey ≠ b.agentKey → a.repository = b.repository →
      ¬ ∃ p, NormalizedPath p ∧ a.Covers p ∧ b.Covers p) ∧
    ∀ (a b : Text) (ra rb : Bool), NormalizedPath a → NormalizedPath b →
      (leaseScopesOverlap a ra b rb = true ↔ ∃ p, NormalizedPath p ∧
        (p = a ∨ ra = true ∧ Below a p) ∧ (p = b ∨ rb = true ∧ Below b p)) := by
  refine ⟨?_, fun a b ra rb ha hb => ?_⟩
  · rintro config as _ _ ⟨va, hva, rfl, -⟩ ⟨vb, hvb, rfl, -⟩ hagent hrepo ⟨p, -, hpa, hpb⟩
    have hex := run_exclusive config as
    have hno := hex.free vb hvb va hva hrepo hagent
    rw [overlap_of_covers (hex.normalized va hva) (hex.normalized vb hvb) hpa hpb] at hno
    cases hno
  · simp only [leaseScopesOverlap_iff ha hb, eq_or_below_iff]

/-- What a lookup shows of a live lease. -/
def LeaseWorld.view (w : LeaseWorld) (key : Text) : Option (Text × Text × Bool × Text × Nat × Bool) :=
  (w.state.fileLeases.get key).map fun v => (v.lease.repository, v.lease.path, v.lease.recursive,
    v.lease.agentKey, v.lease.fencingToken, decide (w.clock < v.expiresAt))

theorem LeaseWorld.live_of_view {w : LeaseWorld} {key repository path agentKey : Text}
    {recursive : Bool} {token : Nat}
    (h : w.view key = some (repository, path, recursive, agentKey, token, true)) :
    ∃ l, w.Live l ∧ l.repository = repository ∧ l.path = path ∧ l.recursive = recursive ∧
      l.agentKey = agentKey ∧ l.fencingToken = token := by
  obtain ⟨v, hget, hv⟩ := Option.map_eq_some_iff.mp h
  simp only [Prod.mk.injEq, decide_eq_true_eq] at hv
  obtain ⟨hr, hp, hrec, ha, ht, hlive⟩ := hv
  exact ⟨v.lease, ⟨v, Table.mem_values.mpr ⟨key, hget⟩, rfl, hlive⟩, hr, hp, hrec, ha, ht⟩

/-- An agent as a registration sends it. -/
def plainAgent (key : Text) : Agent where
  agentKey := key
  displayName := key
  kind := .other
  host := none
  metadata := .null
  registeredAt := []

/-- An acquire with a fresh clock reading, a one-minute lease and no purpose. -/
def plainAcquire (newId path agentKey : Text) (recursive : Bool) : LeaseAction :=
  .acquire 0 0 newId "repo".toList path agentKey 60000 recursive [] .null

theorem lease_mutual_exclusion_src_src2 :
    ∃ a b : FileLease, a.path = "src".toList ∧ b.path = "src2/x".toList ∧
      ¬ ∃ p, NormalizedPath p ∧ a.Covers p ∧ b.Covers p := by
  let as := [.register 0 (plainAgent "alice".toList), .register 0 (plainAgent "bob".toList),
    plainAcquire "1".toList "src".toList "alice".toList true,
    plainAcquire "2".toList "src2/x".toList "bob".toList false]
  have ha : (LeaseWorld.run .inMemory as).view "1".toList =
      some ("repo".toList, "src".toList, true, "alice".toList, 1, true) := by decide
  have hb : (LeaseWorld.run .inMemory as).view "2".toList =
      some ("repo".toList, "src2/x".toList, false, "bob".toList, 2, true) := by decide
  obtain ⟨a, hla, hra, hpa, -, haa, -⟩ := LeaseWorld.live_of_view ha
  obtain ⟨b, hlb, hrb, hpb, -, hab, -⟩ := LeaseWorld.live_of_view hb
  refine ⟨a, b, hpa, hpb, lease_mutual_exclusion.1 .inMemory as a b hla hlb ?_ (hra.trans hrb.symm)⟩
  rw [haa, hab]
  decide

end AgentBridge
