import AgentBridge.Lease.Exclusion

/-! Fencing tokens over whole runs. A token is minted only for a new lease, while
a re-acquire may widen an old one in place. As long as no other agent got a lease
below the widened path in between, a path that passes from one agent to another
passes with a greater token. -/

namespace AgentBridge
open State

def LeaseWorld.grantedSince (w : LeaseWorld) (lease : FileLease) : List FileLease :=
  w.granted.takeWhile fun g => g.fencingToken ≠ lease.fencingToken

/-- The step keeps the order of tokens: it mints no token past the counter's
range, and it widens an exact lease only if no other agent was granted a lease
strictly below its path since. -/
def LeaseWorld.KeepsFencing (w : LeaseWorld) (a : LeaseAction) : Prop :=
  w.state.nextFileFencingToken < u64Max ∧
  ∀ lease, w.Widens lease a → ∀ g ∈ w.grantedSince lease, g.repository = lease.repository →
    g.agentKey ≠ lease.agentKey → ¬ Below lease.path g.path

/-- Along a run, from `as` to `as ++ bs`, coverage of a path passes between agents
only with a greater token. -/
def FencedRun (config : Config) (as bs : List LeaseAction) : Prop :=
  ∀ (p : Text) (a b : FileLease), (LeaseWorld.run config as).Live a → a.Covers p →
    (LeaseWorld.run config (as ++ bs)).Live b → b.Covers p → a.repository = b.repository →
    a.agentKey ≠ b.agentKey → a.fencingToken < b.fencingToken

/-- Every listed lease goes back to a grant, and grants carry decreasing tokens, newest first. -/
structure LeaseBook.Minted (b : LeaseBook) : Prop where
  traced : ∀ v ∈ b.table.values, ∃ g ∈ b.granted, v.lease.SameGrant g
  bounded : ∀ g ∈ b.granted, g.fencingToken ≤ b.counter
  decreasing : b.granted.Pairwise fun g g' => g'.fencingToken < g.fencingToken

theorem FileLease.SameGrant.trans {a b c : FileLease} (h : a.SameGrant b) (h' : b.SameGrant c) :
    a.SameGrant c :=
  ⟨h.repository.trans h'.repository, h.path.trans h'.path, h.agentKey.trans h'.agentKey,
    h.fencingToken.trans h'.fencingToken⟩

theorem LeaseBook.Minted.subset {b : LeaseBook} (h : b.Minted) {t : LeaseTable}
    (hsub : t.values ⊆ b.table.values) : LeaseBook.Minted { b with table := t } :=
  ⟨fun v hv => h.traced v (hsub hv), h.bounded, h.decreasing⟩

theorem LeaseBook.Minted.update {b : LeaseBook} (h : b.Minted) {key : Text} {v v' : FileLeaseState}
    (hv : v ∈ b.table.values) (hsame : v'.lease.SameGrant v.lease) :
    LeaseBook.Minted { b with table := b.table.insert key v' } := by
  refine ⟨fun u hu => ?_, h.bounded, h.decreasing⟩
  rcases Table.mem_values_insert hu with rfl | hu
  · obtain ⟨g, hg, hgrant⟩ := h.traced v hv
    exact ⟨g, hg, hsame.trans hgrant⟩
  · exact h.traced u hu

theorem BookStep.minted {W : FileLease → Prop} {b b' : LeaseBook} (h : BookStep W b b')
    (hn : b.counter < u64Max) (hb : b.Minted) : b'.Minted := by
  cases h with
  | keep hsub => exact hb.subset hsub
  | renew hv hsame => exact hb.update hv hsame
  | reacquire hv hsame => exact hb.update hv hsame
  | @grant key v hpath hfree htoken =>
    rw [saturatingAdd_one hn] at htoken
    refine ⟨fun u hu => ?_, fun g hg => ?_, List.pairwise_cons.mpr ⟨fun g hg => ?_, hb.decreasing⟩⟩
    · rcases Table.mem_values_insert hu with rfl | hu
      · exact ⟨_, List.mem_cons_self, rfl, rfl, rfl, rfl⟩
      · obtain ⟨g, hg, hgrant⟩ := hb.traced u hu
        exact ⟨g, List.mem_cons_of_mem _ hg, hgrant⟩
    · rw [wrappingSucc_of_lt hn]
      rcases List.mem_cons.mp hg with rfl | hg
      · exact htoken.le
      · exact (hb.bounded g hg).trans (Nat.le_succ _)
    · rw [htoken]
      exact Nat.lt_succ_of_le (hb.bounded g hg)

theorem LeaseBook.Minted.token_injOn {b : LeaseBook} (h : b.Minted) {g g' : FileLease}
    (hg : g ∈ b.granted) (hg' : g' ∈ b.granted) (ht : g.fencingToken = g'.fencingToken) : g = g' := by
  have hnodup : (b.granted.map FileLease.fencingToken).Nodup :=
    List.pairwise_map.mpr (h.decreasing.imp fun hlt => hlt.ne')
  exact List.inj_on_of_nodup_map hnodup hg hg' ht

theorem mem_takeWhile_of_decreasing {l : List FileLease}
    (h : l.Pairwise fun g g' => g'.fencingToken < g.fencingToken) {g : FileLease} (hg : g ∈ l) {n : Nat}
    (hn : n < g.fencingToken) : g ∈ l.takeWhile fun g => g.fencingToken ≠ n := by
  -- all before `g` have larger tokens than it, so none of them is `n`
  induction l with
  | nil => cases hg
  | cons x l ih =>
    obtain ⟨hx, hl⟩ := List.pairwise_cons.mp h
    have hxn : x.fencingToken ≠ n := by
      rcases List.mem_cons.mp hg with rfl | hg
      · exact hn.ne'
      · exact (hn.trans (hx g hg)).ne'
    rw [List.takeWhile_cons_of_pos (by simpa using hxn)]
    rcases List.mem_cons.mp hg with rfl | hg
    · exact List.mem_cons_self
    · exact List.mem_cons_of_mem _ (ih hl hg)

/-- What `b`, reached from `b₀`, keeps of it. -/
structure LeaseBook.Since (b₀ b : LeaseBook) : Prop where
  counter : b₀.counter ≤ b.counter
  granted : b₀.granted ⊆ b.granted
  old : ∀ v ∈ b.table.values, v.lease.fencingToken ≤ b₀.counter →
    ∃ u ∈ b₀.table.values, v.lease.SameGrant u.lease

theorem LeaseBook.Since.subset {b₀ b : LeaseBook} (h : b₀.Since b) {t : LeaseTable}
    (hsub : t.values ⊆ b.table.values) : b₀.Since { b with table := t } :=
  ⟨h.counter, h.granted, fun v hv => h.old v (hsub hv)⟩

theorem LeaseBook.Since.update {b₀ b : LeaseBook} (h : b₀.Since b) {key : Text}
    {v v' : FileLeaseState} (hv : v ∈ b.table.values) (hsame : v'.lease.SameGrant v.lease) :
    b₀.Since { b with table := b.table.insert key v' } := by
  refine ⟨h.counter, h.granted, fun u hu ht => ?_⟩
  rcases Table.mem_values_insert hu with rfl | hu
  · obtain ⟨u₀, hu₀, hgrant⟩ := h.old v hv (hsame.fencingToken ▸ ht)
    exact ⟨u₀, hu₀, hsame.trans hgrant⟩
  · exact h.old u hu ht

theorem BookStep.since {W : FileLease → Prop} {b₀ b b' : LeaseBook} (h : BookStep W b b')
    (hn : b.counter < u64Max) (hb : b₀.Since b) : b₀.Since b' := by
  cases h with
  | keep hsub => exact hb.subset hsub
  | renew hv hsame => exact hb.update hv hsame
  | reacquire hv hsame => exact hb.update hv hsame
  | @grant key v hpath hfree htoken =>
    rw [saturatingAdd_one hn] at htoken
    refine ⟨?_, fun g hg => List.mem_cons_of_mem _ (hb.granted hg), fun u hu ht => ?_⟩
    · rw [wrappingSucc_of_lt hn]
      exact hb.counter.trans (Nat.le_succ _)
    · rcases Table.mem_values_insert hu with rfl | hu
      · have := hb.counter
        omega
      · exact hb.old u hu ht

/-- Whoever covers `p` besides the owner of `a` holds a token greater than that of `a`. -/
def LeaseBook.Overtakes (a : FileLease) (p : Text) (b : LeaseBook) : Prop :=
  ∀ v ∈ b.table.values, v.lease.repository = a.repository → v.lease.agentKey ≠ a.agentKey →
    v.lease.Covers p → a.fencingToken < v.lease.fencingToken

/-- If `a` covers `p`, and `v` lies above `p` without overlapping `a`, then `a` is below `v`. -/
theorem below_of_covers {a v : FileLease} {p : Text} (hap : NormalizedPath a.path)
    (hvp : NormalizedPath v.path) (hp : a.Covers p) (hv : components v.path <+: components p)
    (hno : leaseScopesOverlap a.path a.recursive v.path v.recursive = false) : Below v.path a.path := by
  have hout : components v.path ∉ Components.scope (components a.path) a.recursive := by
    intro hin
    rw [(leaseScopesOverlap_iff_mem hap hvp).mpr (.inl hin)] at hno
    cases hno
  refine ⟨?_, fun he => hout (.inl he)⟩
  rcases hp with hp | ⟨hrec, hp⟩
  · rw [← hp]
    exact hv
  · rcases List.prefix_or_prefix_of_prefix hv hp with h | h
    · exact h
    · exact absurd (.inr ⟨hrec, h⟩) hout

section Passing
variable {b₀ b b' : LeaseBook} {a : FileLeaseState} {p : Text} {W : FileLease → Prop}

theorem overtakes_self (hex : b₀.table.Exclusive) (ha : a ∈ b₀.table.values) (hp : a.lease.Covers p) :
    b₀.Overtakes a.lease p := by
  intro v hv hrepo hagent hvp
  have hno := hex.free a ha v hv hrepo hagent
  rw [overlap_of_covers (hex.normalized v hv) (hex.normalized a ha) hvp hp] at hno
  cases hno

/-- A lease that another agent widens over `p` is younger than `a`: had it been
there when `a` covered `p`, then `a` was granted below it afterwards. -/
theorem widened_token_gt (hex : b₀.table.Exclusive) (hm₀ : b₀.Minted) (ha : a ∈ b₀.table.values)
    (hp : a.lease.Covers p) (hs : b₀.Since b) (hm : b.Minted) {v : FileLeaseState}
    (hv : v ∈ b.table.values) (hrepo : v.lease.repository = a.lease.repository)
    (hagent : v.lease.agentKey ≠ a.lease.agentKey) (hvp : components v.lease.path <+: components p)
    (hbelow : ∀ g ∈ b.granted.takeWhile (fun g => g.fencingToken ≠ v.lease.fencingToken),
      g.repository = v.lease.repository → g.agentKey ≠ v.lease.agentKey →
      ¬ Below v.lease.path g.path) :
    a.lease.fencingToken < v.lease.fencingToken := by
  obtain ⟨g, hg₀, hag⟩ := hm₀.traced a ha
  have hg := hs.granted hg₀
  have hne : v.lease.fencingToken ≠ g.fencingToken := by
    intro he
    obtain ⟨g', hg', hvg⟩ := hm.traced v hv
    rw [hm.token_injOn hg' hg (hvg.fencingToken.symm.trans he)] at hvg
    exact hagent (hvg.agentKey.trans hag.agentKey.symm)
  by_contra hle
  have hlt : v.lease.fencingToken < g.fencingToken := by
    have := hag.fencingToken
    omega
  obtain ⟨u, hu, hvu⟩ := hs.old v hv (hlt.le.trans (hm₀.bounded g hg₀))
  have hno := hex.free a ha u hu (hvu.repository.symm.trans hrepo)
    (fun he => hagent (hvu.agentKey.trans he))
  rw [leaseScopesOverlap_comm] at hno
  have hua := below_of_covers (hex.normalized a ha) (hex.normalized u hu) hp (hvu.path ▸ hvp) hno
  refine hbelow g (mem_takeWhile_of_decreasing hm.decreasing hg hlt) ?_ ?_ ?_
  · rw [← hag.repository, hrepo]
  · rw [← hag.agentKey]
    exact hagent.symm
  · rw [hvu.path, ← hag.path]
    exact hua

theorem BookStep.overtakes (h : BookStep W b b') (hn : b.counter < u64Max)
    (hW : ∀ lease, W lease → ∀ g ∈ b.granted.takeWhile (fun g => g.fencingToken ≠ lease.fencingToken),
      g.repository = lease.repository → g.agentKey ≠ lease.agentKey → ¬ Below lease.path g.path)
    (hex : b₀.table.Exclusive) (hm₀ : b₀.Minted) (ha : a ∈ b₀.table.values) (hp : a.lease.Covers p)
    (hs : b₀.Since b) (hm : b.Minted) (hb : b.Overtakes a.lease p) : b'.Overtakes a.lease p := by
  intro u hu hrepo hagent hup
  cases h with
  | keep hsub => exact hb u (hsub hu) hrepo hagent hup
  | renew hv hsame hrec =>
    rcases Table.mem_values_insert hu with rfl | hu
    · rw [hsame.fencingToken]
      refine hb _ hv (hsame.repository ▸ hrepo) (hsame.agentKey ▸ hagent) ?_
      rw [FileLease.Covers, ← hsame.path, ← hrec]
      exact hup
    · exact hb u hu hrepo hagent hup
  | @reacquire key v v' hv hsame hfree hwide =>
    rcases Table.mem_values_insert hu with rfl | hu
    · rw [hsame.repository] at hrepo
      rw [hsame.agentKey] at hagent
      rw [hsame.fencingToken]
      by_cases hvp : v.lease.Covers p
      · exact hb v hv hrepo hagent hvp
      · -- `p` is new to the scope, so the re-acquire turned an exact lease into a recursive one
        rw [FileLease.Covers, hsame.path] at hup
        obtain ⟨hrec, hpre⟩ : u.lease.recursive = true ∧ components v.lease.path <+: components p :=
          hup.resolve_left fun he => hvp (.inl he)
        have hexact : v.lease.recursive = false := by
          by_contra hr
          exact hvp (.inr ⟨by simpa using hr, hpre⟩)
        exact widened_token_gt hex hm₀ ha hp hs hm hv hrepo hagent hpre (hW _ (hwide hexact hrec))
    · exact hb u hu hrepo hagent hup
  | @grant key v hpath hfree htoken =>
    rcases Table.mem_values_insert hu with rfl | hu
    · obtain ⟨g, hg, hgrant⟩ := hm₀.traced a ha
      have hle := (hm₀.bounded g hg).trans hs.counter
      rw [htoken, saturatingAdd_one hn, hgrant.fencingToken]
      exact Nat.lt_succ_of_le hle
    · exact hb u hu hrepo hagent hup

end Passing

theorem step_minted (w : LeaseWorld) (a : LeaseAction) (hg : w.KeepsFencing a) (h : w.book.Minted) :
    (w.step a).book.Minted := by
  obtain ⟨t, hsub, hstep⟩ := step_moves w a
  exact hstep.minted hg.1 (h.subset hsub)

/-- What the later part of a run keeps, seen from the book `b₀` in which `a` covers `p`. -/
structure LeaseBook.After (b₀ : LeaseBook) (a : FileLease) (p : Text) (b : LeaseBook) : Prop where
  minted : b.Minted
  since : b₀.Since b
  overtakes : b.Overtakes a p

theorem step_after {b₀ : LeaseBook} {v : FileLeaseState} {p : Text} (hex : b₀.table.Exclusive)
    (hm₀ : b₀.Minted) (hv : v ∈ b₀.table.values) (hp : v.lease.Covers p) (w : LeaseWorld)
    (a : LeaseAction) (hg : w.KeepsFencing a) (h : b₀.After v.lease p w.book) :
    b₀.After v.lease p (w.step a).book := by
  obtain ⟨t, hsub, hstep⟩ := step_moves w a
  have hm := h.minted.subset hsub
  have hs := h.since.subset hsub
  exact ⟨hstep.minted hg.1 hm, hstep.since hg.1 hs,
    hstep.overtakes hg.1 hg.2 hex hm₀ hv hp hs hm fun u hu => h.overtakes u (hsub hu)⟩

/-- In a run whose steps all keep the fencing condition, a path that another agent
covers later is covered under a greater token. -/
theorem fenced_of_keepsFencing (config : Config) (as bs : List LeaseAction)
    (hg : Run.Guarded LeaseWorld.step LeaseWorld.KeepsFencing (LeaseWorld.init config) (as ++ bs)) :
    FencedRun config as bs := by
  rintro p - - ⟨v, hv, rfl, -⟩ hp ⟨u, hu, rfl, -⟩ hup hrepo hagent
  obtain ⟨hga, hgb⟩ := Run.guarded_append.mp hg
  have hex := run_exclusive config as
  have hm₀ : (LeaseWorld.run config as).book.Minted :=
    Run.exec_invariant_of step_minted hga
      ⟨fun _ hv => (List.not_mem_nil hv).elim, fun _ hg => (List.not_mem_nil hg).elim, .nil⟩
  have hself : (LeaseWorld.run config as).book.After v.lease p (LeaseWorld.run config as).book :=
    ⟨hm₀, ⟨le_rfl, List.Subset.refl _, fun u hu _ => ⟨u, hu, rfl, rfl, rfl, rfl⟩⟩,
      overtakes_self hex hv hp⟩
  have hafter := Run.exec_invariant_of (step_after hex hm₀ hv hp) hgb hself
  rw [← Run.exec_append] at hafter
  exact hafter.overtakes u hu hrepo.symm hagent.symm hup

section Runs

def registrations : List LeaseAction :=
  [.register 0 (plainAgent "alice".toList), .register 0 (plainAgent "bob".toList)]

/-- `alice` widens her lease while no other agent holds anything, gives it up, and `bob`
takes a path below it. -/
theorem fenced_of_keepsFencing_handover :
    FencedRun .inMemory
      (registrations ++ [plainAcquire "1".toList "src".toList "alice".toList false,
        plainAcquire "2".toList "src".toList "alice".toList true])
      [.release 0 0 "1".toList "alice".toList 1,
        plainAcquire "3".toList "src/x".toList "bob".toList false] := by
  refine fenced_of_keepsFencing _ _ _ ⟨⟨by decide, fun _ h => h.elim⟩, ⟨by decide, fun _ h => h.elim⟩,
    ⟨by decide, fun _ h => h.elim⟩, ⟨by decide, ?_⟩, ⟨by decide, fun _ h => h.elim⟩,
    ⟨by decide, fun _ h => h.elim⟩, trivial⟩
  rintro _ ⟨-, -, ⟨v, hv, rfl⟩, -⟩ g hg
  have htoken : ∀ v ∈ (LeaseWorld.run .inMemory (registrations ++
      [plainAcquire "1".toList "src".toList "alice".toList false])).state.fileLeases.values,
      v.lease.fencingToken = 1 := by decide
  rw [LeaseWorld.grantedSince, htoken v (values_pruneLeases _ _ hv)] at hg
  exact absurd (List.length_pos_of_mem hg) (by decide)

/-- `alice` leases `src` exactly with token 1 and `bob` `src/x` with token 2; once `bob`
lets go, `alice` re-acquires `src` recursively and covers `src/x` under token 1. -/
theorem not_fenced_widened :
    ¬ ∀ (config : Config) (as bs : List LeaseAction), FencedRun config as bs := by
  intro h
  let as := registrations ++ [plainAcquire "1".toList "src".toList "alice".toList false,
    plainAcquire "2".toList "src/x".toList "bob".toList false]
  let bs := [.release 0 0 "2".toList "bob".toList 2,
    plainAcquire "3".toList "src".toList "alice".toList true]
  have ha : (LeaseWorld.run .inMemory as).view "2".toList =
      some ("repo".toList, "src/x".toList, false, "bob".toList, 2, true) := by decide
  have hb : (LeaseWorld.run .inMemory (as ++ bs)).view "1".toList =
      some ("repo".toList, "src".toList, true, "alice".toList, 1, true) := by decide
  obtain ⟨a, hla, hra, hpa, -, haa, hta⟩ := LeaseWorld.live_of_view ha
  obtain ⟨b, hlb, hrb, hpb, hrec, hab, htb⟩ := LeaseWorld.live_of_view hb
  have hca : a.Covers "src/x".toList := .inl (by rw [hpa])
  have hcb : b.Covers "src/x".toList := .inr ⟨hrec, by rw [hpb]; decide⟩
  have hlt := h .inMemory as bs _ a b hla hca hlb hcb (hra.trans hrb.symm) (by rw [haa, hab]; decide)
  rw [hta, htb] at hlt
  exact absurd hlt (by decide)

end Runs
end AgentBridge
