import AgentBridge.Server.World
import AgentBridge.Tcp.Discipline

/-! The connections of the server, action after action. -/

namespace AgentBridge
open Tcp

namespace Server
variable {host : Host} {s : AppState} {w : Server} {id : Nat}

/-- What a connection goes through in one action from a state to another, if it is not closed. -/
inductive Passes (host : Host) (s : AppState) (id : Nat) (c : Connection) : ServerAction → AppState → Connection → Prop
  | kept (a : ServerAction) (s' : AppState) : Passes host s id c a s' c
  | received {env : Http.Env} {document : Option Json} {r : Connection × AppState}
      (h : Received host.security env c s document r) : Passes host s id c (.line id env document) r.2 r.1
  | replayed : Passes host s id c (.replay id) s (c.replay s)
  | brokeOff : Passes host s id c (.breakOff id) s c.breakOff
  | turned {a : ServerAction} {c' : Connection} (h : Turned c s c') : Passes host s id c a s c'

theorem update_connections {f : Connection → Connection × AppState} (id' : Nat) :
    (w.update id f).connections.get id' =
      if id' = id then (w.connections.get id).map fun c => (f c).1 else w.connections.get id' := by
  unfold update
  cases hold : w.connections.get id with
  | none =>
    dsimp only
    split_ifs with hid
    · rw [hid, hold]
      rfl
    · rfl
  | some c =>
    dsimp only
    rw [Table.get_insert]
    rfl

variable (host) in
theorem step_passes {c : Connection} (h : w.connections.get id = some c) {a : ServerAction}
    (ha : a = .hangUp id → c.mayReturn = false) :
    ∃ c', (w.step host a).connections.get id = some c' ∧ Passes host w.state id c a (w.step host a).state c' := by
  have hupdate {f : Connection → Connection × AppState} {id' : Nat} {a : ServerAction}
      (hf : id = id' → Passes host w.state id c a (f c).2 (f c).1) :
      ∃ c', (w.update id' f).connections.get id = some c' ∧ Passes host w.state id c a (w.update id' f).state c' := by
    by_cases hid : id = id'
    · subst hid
      refine ⟨(f c).1, ?_, ?_⟩
      · rw [update_connections, if_pos rfl, h]
        rfl
      · rw [update, h]
        exact hf rfl
    · refine ⟨c, ?_, .kept a _⟩
      rw [update_connections, if_neg hid]
      exact h
  -- an action at another connection leaves this one alone
  cases a with
  | http env req => exact ⟨c, h, .kept _ _⟩
  | accept id' =>
    rw [step]
    split_ifs with hfull
    · exact ⟨c, h, .kept _ _⟩
    · refine ⟨c, ?_, .kept _ _⟩
      rw [Table.get_insert_ne]
      · exact h
      · rintro rfl
        exact hfull (by simp [Table.contains, h])
  | line id' env document =>
    refine hupdate ?_
    rintro rfl
    exact .received (received c w.state document)
  | replay id' =>
    refine hupdate ?_
    rintro rfl
    exact .replayed
  | forward id' i => exact hupdate fun _ => .turned (turned_forward c w.state i)
  | lag id' i n => exact hupdate fun _ => .turned (turned_lag c w.state i n)
  | finish id' i => exact hupdate fun _ => .turned (turned_finish c w.state i)
  | hangUp id' =>
    refine ⟨c, ?_, .kept _ _⟩
    rw [step]
    split_ifs with hreturns
    · rw [Table.get_remove_ne]
      · exact h
      · rintro rfl
        rw [h, Option.any_some, ha rfl] at hreturns
        cases hreturns
    · exact h
  | breakOff id' =>
    refine hupdate ?_
    rintro rfl
    exact .brokeOff
  | endStream =>
    rw [step]
    split_ifs <;> exact ⟨c, h, .kept _ _⟩

theorem step_origin {a : ServerAction} {c' : Connection} (h : (w.step host a).connections.get id = some c') :
    a = .accept id ∧ w.connections.get id = none ∧ c' = .accept host.security ∨ ∃ c, w.connections.get id = some c ∧
      Passes host w.state id c a (w.step host a).state c' := by
  cases hold : w.connections.get id with
  | some c =>
    have ha : a = .hangUp id → c.mayReturn = false := by
      rintro rfl
      by_contra hreturns
      rw [step, if_pos (by simpa [hold] using hreturns), Table.get_remove_self] at h
      cases h
    obtain ⟨c'', hget, hpasses⟩ := step_passes host hold ha
    rw [h] at hget
    cases hget
    exact .inr ⟨c, rfl, hpasses⟩
  | none =>
    left
    have hupdate {f : Connection → Connection × AppState} {id' : Nat}
        (h : (w.update id' f).connections.get id = some c') : False := by
      rw [update_connections] at h
      split_ifs at h with hid
      · rw [← hid, hold] at h
        cases h
      · rw [hold] at h
        cases h
    have hsame {w' : Server} (hw' : w'.connections = w.connections) (h : w'.connections.get id = some c') : False := by
      rw [hw', hold] at h
      cases h
    -- nothing but an accept brings up a connection that was not there
    cases a with
    | accept id' =>
      rw [step] at h
      split_ifs at h
      · exact (hsame rfl h).elim
      · rw [Table.get_insert] at h
        split_ifs at h with hid
        · cases h
          rw [hid]
          exact ⟨rfl, rfl, rfl⟩
        · exact (hsame rfl h).elim
    | http env req => exact (hsame rfl h).elim
    | line id' env document => exact (hupdate h).elim
    | replay id' => exact (hupdate h).elim
    | forward id' i => exact (hupdate h).elim
    | lag id' i n => exact (hupdate h).elim
    | finish id' i => exact (hupdate h).elim
    | hangUp id' =>
      rw [step] at h
      split_ifs at h
      · by_cases hid : id = id'
        · rw [hid, Table.get_remove_self] at h
          cases h
        · rw [Table.get_remove_ne hid] at h
          exact (hsame rfl h).elim
      · exact (hsame rfl h).elim
    | breakOff id' => exact (hupdate h).elim
    | endStream =>
      rw [step] at h
      split_ifs at h <;> exact (hsame rfl h).elim

theorem Passes.principal {c c' : Connection} {a : ServerAction} {s' : AppState} (h : Passes host s id c a s' c') :
    c'.principal = c.principal ∨ ∃ env document token, a = .line id env document ∧
      document.bind (Req.read env) = some (.auth token) ∧
        TcpPrincipal.candidate host.security token = .ok c'.principal := by
  cases h with
  | kept => exact .inl rfl
  | received h =>
    cases h with
    | busy => exact .inl rfl
    | answered => exact .inl rfl
    | authenticated hattended hread hnext => exact .inr ⟨_, _, _, rfl, hread, hnext⟩
    | dispatched hattended hpending hsomebody h => cases h <;> exact .inl rfl
  | replayed =>
    left
    unfold Connection.replay
    cases c.pending <;> rfl
  | turned h => cases h <;> exact .inl rfl
  | brokeOff =>
    left
    unfold Connection.breakOff
    split_ifs <;> rfl

theorem Passes.attended {c c' : Connection} {a : ServerAction} {s' : AppState} (h : Passes host s id c a s' c')
    (hattended : c'.attended = true) : c.attended = true := by
  cases h with
  | kept => exact hattended
  | received h =>
    cases h with
    | busy => exact hattended
    | answered h => exact h
    | authenticated h => exact h
    | dispatched h => exact h
  | replayed =>
    unfold Connection.replay at hattended
    cases hpending : c.pending <;> rw [hpending] at hattended <;> exact hattended
  | brokeOff =>
    unfold Connection.breakOff at hattended
    split_ifs at hattended
    exact hattended
  | turned h => cases h <;> exact hattended

end Server
end AgentBridge
