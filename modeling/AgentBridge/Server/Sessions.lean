import AgentBridge.Server.Connections
import AgentBridge.State.Stores

/-! The TCP connections of a server in every run: each keeps to the discipline of a connection, and speaks for one
principal as long as it is open. -/

namespace AgentBridge
open Tcp

namespace Server
variable {host : Host} {s : AppState} {w : Server} {id : Nat}

section Passes
variable {c c' : Connection} {a : ServerAction} {s' : AppState}

theorem Passes.orderly (h : Passes host s id c a s' c') (hc : Orderly c) : Orderly c' := by
  cases h with
  | kept => exact hc
  | received h => exact hc.received h
  | replayed => exact hc.replay s
  | turned h => exact hc.turned h
  | brokeOff => exact hc.breakOff

theorem Passes.lasts (h : Passes host s id c a s' c') :
    (c.principal = .unauthenticated ∨ c'.principal = c.principal) ∧ c.written <+: c'.written := by
  cases h with
  | kept => exact ⟨.inr rfl, List.prefix_refl _⟩
  | received h =>
    cases h with
    | busy => exact ⟨.inr rfl, List.prefix_refl _⟩
    | answered hattended r hr => exact ⟨.inr rfl, List.prefix_append _ _⟩
    | authenticated hattended hread hnext hkept => exact ⟨hkept.imp_right Eq.symm, List.prefix_append _ _⟩
    | dispatched hattended hpending hsomebody h =>
      cases h with
      | answered => exact ⟨.inr rfl, List.prefix_append _ _⟩
      | opened => exact ⟨.inr rfl, List.prefix_refl _⟩
  | replayed =>
    unfold Connection.replay
    cases c.pending with
    | none => exact ⟨.inr rfl, List.prefix_refl _⟩
    | some p =>
      refine ⟨.inr rfl, ?_⟩
      dsimp only
      rw [List.append_assoc]
      exact List.prefix_append _ _
  | turned h =>
    cases h with
    | idle => exact ⟨.inr rfl, List.prefix_refl _⟩
    | forwarded => exact ⟨.inr rfl, List.prefix_append _ _⟩
    | lagged => exact ⟨.inr rfl, List.prefix_append _ _⟩
    | finished => exact ⟨.inr rfl, List.prefix_refl _⟩
  | brokeOff =>
    unfold Connection.breakOff
    split_ifs <;> exact ⟨.inr rfl, List.prefix_refl _⟩

theorem Passes.trails {c₀ : Connection} (h : Passes host s id c a s' c') (hc : Trails c₀ c) (horderly : Orderly c) :
    Trails c₀ c' := by
  cases h with
  | kept => exact hc
  | received h =>
    cases h with
    | busy => exact hc
    | answered hattended => exact absurd (hattended.symm.trans hc.attended) Bool.false_ne_true.symm
    | authenticated hattended => exact absurd (hattended.symm.trans hc.attended) Bool.false_ne_true.symm
    | dispatched hattended => exact absurd (hattended.symm.trans hc.attended) Bool.false_ne_true.symm
  | replayed =>
    rw [Connection.replay, horderly.unattended hc.attended]
    exact hc
  | turned h => exact hc.turned h
  | brokeOff =>
    rw [Connection.breakOff, Connection.mayReturn, hc.attended]
    exact hc

end Passes

theorem step_orderly (hw : ∀ id c, w.connections.get id = some c → Orderly c) (a : ServerAction) :
    ∀ id c, (w.step host a).connections.get id = some c → Orderly c := by
  intro id c' h
  rcases step_origin h with ⟨-, -, rfl⟩ | ⟨c, hold, hpasses⟩
  · exact orderly_accept
  · exact hpasses.orderly (hw id c hold)

theorem run_orderly (host : Host) (s : AppState) (as : List ServerAction) :
    ∀ id c, (run host s as).connections.get id = some c → Orderly c := by
  refine Run.exec_invariant (P := fun w : Server => ∀ id c, w.connections.get id = some c → Orderly c)
    (fun _ a hw => step_orderly hw a) ?_ as
  intro id c h
  cases h

theorem mem_attended : id ∈ (w.connections.retain Connection.attended).keySet ↔
    ∃ c, w.connections.get id = some c ∧ c.attended = true := by
  rw [Table.mem_keySet, Table.contains, Option.isSome_iff_exists]
  simp only [Table.get_retain_eq_some]

theorem attended_step_subset (w : Server) (a : ServerAction) (ha : ∀ id, a ≠ .accept id) :
    ((w.step host a).connections.retain Connection.attended).keySet ⊆
      (w.connections.retain Connection.attended).keySet := by
  intro id hid
  obtain ⟨c', hget, hattended⟩ := mem_attended.mp hid
  rcases step_origin hget with ⟨haccept, -⟩ | ⟨c, hold, hpasses⟩
  · exact absurd haccept (ha id)
  · exact mem_attended.mpr ⟨c, hold, hpasses.attended hattended⟩

theorem attended_step (w : Server) (a : ServerAction) (hw : w.attended ≤ host.maxTcpConnections) :
    (w.step host a).attended ≤ host.maxTcpConnections := by
  have hother (hsubset : ((w.step host a).connections.retain Connection.attended).keySet ⊆
      (w.connections.retain Connection.attended).keySet) : (w.step host a).attended ≤ host.maxTcpConnections := by
    have hcard := Finset.card_le_card hsubset
    rw [Table.card_keySet, Table.card_keySet] at hcard
    exact hcard.trans hw
  cases a with
  | accept id =>
    rw [step]
    by_cases hfull : (w.connections.contains id || decide (w.attended ≥ host.maxTcpConnections)) = true
    · rw [if_pos hfull]
      exact hw
    · rw [if_neg hfull]
      simp only [Bool.or_eq_true, decide_eq_true_eq, not_or, Nat.not_le] at hfull
      have hsubset : ((w.connections.insert id (.accept host.security)).retain Connection.attended).keySet ⊆
          insert id (w.connections.retain Connection.attended).keySet := by
        intro id' hid'
        rw [Table.mem_keySet, Table.contains, Option.isSome_iff_exists] at hid'
        obtain ⟨c, hc⟩ := hid'
        obtain ⟨hget, hattended⟩ := Table.get_retain_eq_some.mp hc
        rw [Table.get_insert] at hget
        split_ifs at hget with hsame
        · exact Finset.mem_insert.mpr (.inl hsame)
        · exact Finset.mem_insert.mpr (.inr (mem_attended.mpr ⟨c, hget, hattended⟩))
      have hcard := (Finset.card_le_card hsubset).trans (Finset.card_insert_le _ _)
      rw [Table.card_keySet, Table.card_keySet] at hcard
      exact hcard.trans hfull.2
  | http | line | replay | forward | lag | finish | hangUp | breakOff | endStream =>
    exact hother (attended_step_subset w _ fun _ h => by cases h)

theorem run_attended (host : Host) (s : AppState) (as : List ServerAction) :
    (run host s as).attended ≤ host.maxTcpConnections :=
  Run.exec_invariant (P := fun w : Server => w.attended ≤ host.maxTcpConnections) (fun w a hw => attended_step w a hw)
    (Nat.zero_le _) as

theorem exec_lasts {c : Connection} (h : w.connections.get id = some c) {as : List ServerAction}
    (has : ∀ a ∈ as, a ≠ .hangUp id) :
    ∃ c', (Run.exec (step host) w as).connections.get id = some c' ∧
      (c.principal = .unauthenticated ∨ c'.principal = c.principal) ∧ c.written <+: c'.written := by
  -- a connection that stays open is passed on by every step
  induction as generalizing w c with
  | nil => exact ⟨c, h, .inr rfl, List.prefix_refl _⟩
  | cons a as ih =>
    obtain ⟨c₁, h₁, hpasses⟩ := step_passes host h fun ha => absurd ha (has a List.mem_cons_self)
    obtain ⟨c', h', hprincipal', hwritten'⟩ := ih h₁ fun b hb => has b (List.mem_cons_of_mem _ hb)
    obtain ⟨hprincipal, hwritten⟩ := hpasses.lasts
    refine ⟨c', h', ?_, hwritten.trans hwritten'⟩
    by_cases hnobody : c.principal = .unauthenticated
    · exact .inl hnobody
    · rcases hprincipal with hsame | hsame
      · exact absurd hsame hnobody
      · rw [hsame] at hprincipal'
        exact hprincipal'

theorem exec_trails {c₀ c : Connection} (h : w.connections.get id = some c)
    (hw : ∀ id c, w.connections.get id = some c → Orderly c) (hc : Trails c₀ c) (as : List ServerAction) :
    ∃ c', (Run.exec (step host) w as).connections.get id = some c' ∧ Trails c₀ c' := by
  induction as generalizing w c with
  | nil => exact ⟨c, h, hc⟩
  | cons a as ih =>
    have hreturned : c.mayReturn = false := by rw [Connection.mayReturn, hc.attended, Bool.false_and]
    obtain ⟨c₁, h₁, hpasses⟩ := step_passes host h fun _ => hreturned
    exact ih h₁ (fun id' c' => step_orderly hw a id' c') (hpasses.trails hc (hw id c h))

/-- In every run the handlers are at most as many as the host allows and each connection is orderly. Until the
handler of one returns in order, it stays open, what was written on it stays, and whom it once speaks for it goes on
to speak for. If the handler broke off, nothing but its forwarders is left of it, for good. -/
theorem session_discipline (host : Host) (s : AppState) (as : List ServerAction) :
    (run host s as).attended ≤ host.maxTcpConnections ∧
    ∀ id c, (run host s as).connections.get id = some c → Orderly c ∧
      (∀ bs : List ServerAction, (∀ a ∈ bs, a ≠ .hangUp id) →
        ∃ c', (run host s (as ++ bs)).connections.get id = some c' ∧
          (c.principal = .unauthenticated ∨ c'.principal = c.principal) ∧ c.written <+: c'.written) ∧
      (c.attended = false → ∀ bs : List ServerAction,
        ∃ c', (run host s (as ++ bs)).connections.get id = some c' ∧ Trails c c') := by
  refine ⟨run_attended host s as, fun id c h => ⟨run_orderly host s as id c h, fun bs hbs => ?_, fun hgone bs => ?_⟩⟩
  · rw [run, Run.exec_append]
    exact exec_lasts h hbs
  · rw [run, Run.exec_append]
    exact exec_trails h (run_orderly host s as) (.refl hgone) bs

end Server
end AgentBridge
