import AgentBridge.Http.Leases
import AgentBridge.Lease.Exclusion
import AgentBridge.Workflow.Orchestration

/-! The names of lease scopes: which repositories and paths the normalisers leave as they are, and
that a lease is found and extended under the names it was returned with only then. -/

namespace AgentBridge
open State

def pathComponents (path : Text) : List Text :=
  ((Text.trim path).splitOn '/').filter fun part => part ≠ [] ∧ part ≠ ".".toList

/-- No white space at the outer ends of the first and the last component that count. -/
def TightPath (path : Text) : Prop :=
  (∀ part ∈ (pathComponents path).head?, Text.StartsClean part) ∧
    ∀ part ∈ (pathComponents path).getLast?, Text.EndsClean part

/-- No white space before the slashes at the end. -/
def TightRepository (repository : Text) : Prop :=
  ∀ pre c n, Text.trim repository = pre ++ c :: List.replicate (n + 1) '/' → Text.isWhitespace c = false

section Paths
variable {path result : Text}

theorem pathParts_eq_ok {parts kept : List Text} : pathParts parts = .ok kept ↔
    "..".toList ∉ parts ∧ kept = parts.filter fun part => part ≠ [] ∧ part ≠ ".".toList := by
  -- a part is refused, dropped or kept by itself
  induction parts generalizing kept with
  | nil =>
    rw [pathParts]
    exact ⟨fun h => ⟨List.not_mem_nil, (Except.ok.inj h).symm⟩, fun ⟨_, h⟩ => congrArg Except.ok h.symm⟩
  | cons part rest ih =>
    unfold pathParts
    by_cases hskip : part = [] ∨ part = ".".toList
    · have hup : "..".toList ≠ part := by
        rintro rfl
        revert hskip
        decide
      rw [if_pos hskip, ih, List.mem_cons, not_or, and_iff_right hup,
        List.filter_cons_of_neg (by simpa [or_iff_not_imp_left] using hskip)]
    · rw [if_neg hskip]
      by_cases hup : part = "..".toList
      · rw [if_pos hup]
        exact iff_of_false nofun fun h => h.1 (hup ▸ List.mem_cons_self)
      · rw [if_neg hup, List.mem_cons, not_or, and_iff_right (Ne.symm hup),
          List.filter_cons_of_pos (by simpa [not_or] using hskip)]
        constructor
        · intro h
          cases hrest : pathParts rest with
          | error e =>
            rw [hrest] at h
            cases h
          | ok tail =>
            rw [hrest] at h
            cases h
            obtain ⟨hmem, htail⟩ := ih.mp hrest
            exact ⟨hmem, congrArg (part :: ·) htail⟩
        · rintro ⟨hmem, rfl⟩
          rw [ih.mpr ⟨hmem, rfl⟩]
          rfl

theorem normalizeFilePath_eq_ok : normalizeFilePath path = .ok result ↔
    Text.byteLen (Text.trim path) ≤ maxFilePathBytes ∧
    ("/".toList.isPrefixOf (Text.trim path) || (Text.trim path).contains '\\' ||
      (Text.trim path).any Text.isControl) = false ∧
    "..".toList ∉ (Text.trim path).splitOn '/' ∧ pathComponents path ≠ [] ∧
    result = Components.join '/' (pathComponents path) := by
  unfold normalizeFilePath
  dsimp only
  by_cases hempty : Text.trim path = []
  · rw [if_pos hempty]
    refine iff_of_false nofun fun ⟨_, _, _, hne, _⟩ => hne ?_
    rw [pathComponents, hempty]
    decide
  · rw [if_neg hempty]
    by_cases hlong : Text.byteLen (Text.trim path) > maxFilePathBytes
    · rw [if_pos hlong]
      exact iff_of_false nofun fun h => absurd h.1 (Nat.not_le.mpr hlong)
    · rw [if_neg hlong, and_iff_right (Nat.not_lt.mp hlong)]
      cases hchars : ("/".toList.isPrefixOf (Text.trim path) || (Text.trim path).contains '\\' ||
          (Text.trim path).any Text.isControl) with
      | true => exact iff_of_false nofun fun h => absurd h.1 (by simp)
      | false =>
        rw [if_neg Bool.false_ne_true, and_iff_right rfl]
        cases hparts : pathParts ((Text.trim path).splitOn '/') with
        | error e =>
          refine iff_of_false nofun fun ⟨hup, _⟩ => ?_
          rw [pathParts_eq_ok.mpr ⟨hup, rfl⟩] at hparts
          cases hparts
        | ok kept =>
          obtain ⟨hup, rfl⟩ := pathParts_eq_ok.mp hparts
          rw [and_iff_right hup]
          change (if pathComponents path = [] then _ else _) = _ ↔ _
          by_cases hnone : pathComponents path = []
          · rw [if_pos hnone]
            exact iff_of_false nofun fun h => h.1 hnone
          · rw [if_neg hnone, and_iff_right hnone]
            exact ⟨fun h => (Except.ok.inj h).symm, fun h => congrArg Except.ok h.symm⟩

theorem join_pathComponents_sublist (path : Text) :
    (Components.join '/' (pathComponents path)).Sublist (Text.trim path) := by
  have hjoin := @Components.join_sublist _ '/' _ _
    (List.filter_sublist (l := (Text.trim path).splitOn '/') (p := fun part => part ≠ [] ∧ part ≠ ".".toList))
  rwa [Components.join_split] at hjoin

theorem pathComponents_sepFree (path : Text) : Components.SepFree '/' (pathComponents path) :=
  fun part hpart => Components.sepFree_split _ part (List.mem_of_mem_filter hpart)

theorem ne_nil_of_mem_pathComponents {part : Text} (h : part ∈ pathComponents path) : part ≠ [] := by
  have hkept := List.of_mem_filter h
  simp only [decide_eq_true_eq] at hkept
  exact hkept.1

theorem trim_join_iff (hne : pathComponents path ≠ []) :
    Text.trim (Components.join '/' (pathComponents path)) = Components.join '/' (pathComponents path) ↔
      TightPath path := by
  rw [Text.trim_eq_self_iff]
  refine and_congr ?_ ?_
  · obtain ⟨first, rest, hparts⟩ := List.exists_cons_of_ne_nil hne
    have hfirst : first ≠ [] := @ne_nil_of_mem_pathComponents path _ (hparts ▸ List.mem_cons_self)
    rw [hparts, Text.StartsClean, Components.head?_join hfirst]
    simp [Text.StartsClean]
  · obtain ⟨front, last, hparts⟩ := (List.eq_nil_or_concat' (pathComponents path)).resolve_left hne
    have hlast : last ≠ [] := @ne_nil_of_mem_pathComponents path _ (hparts ▸ by simp)
    rw [hparts, Text.EndsClean, Components.getLast?_join hlast]
    simp [Text.EndsClean]

theorem pathComponents_join (hne : pathComponents path ≠ []) (htight : TightPath path) :
    (Text.trim (Components.join '/' (pathComponents path))).splitOn '/' = pathComponents path ∧
      pathComponents (Components.join '/' (pathComponents path)) = pathComponents path := by
  have hsplit : (Text.trim (Components.join '/' (pathComponents path))).splitOn '/' = pathComponents path := by
    rw [(trim_join_iff hne).mpr htight, Components.split_join (pathComponents_sepFree path) hne]
  refine ⟨hsplit, ?_⟩
  unfold pathComponents at hsplit ⊢
  rw [hsplit, List.filter_filter]
  simp

theorem refused_iff (s : Text) :
    ("/".toList.isPrefixOf s || s.contains '\\' || s.any Text.isControl) = false ↔
      s.head? ≠ some '/' ∧ ∀ c ∈ s, c ≠ '\\' ∧ Text.isControl c = false := by
  have hhead : "/".toList.isPrefixOf s = false ↔ s.head? ≠ some '/' := by
    cases s with
    | nil => decide
    | cons c s =>
      have hfirst : "/".toList.isPrefixOf (c :: s) = ('/' == c) := Bool.and_true _
      rw [hfirst, beq_eq_false_iff_ne, List.head?_cons, ne_eq, ne_eq, Option.some_inj, eq_comm]
  rw [Bool.or_eq_false_iff, Bool.or_eq_false_iff, hhead, and_assoc, List.any_eq_false, List.contains_eq_mem,
    decide_eq_false_iff_not]
  refine and_congr_right fun _ => ?_
  constructor
  · rintro ⟨hback, hcontrol⟩ c hc
    exact ⟨fun h => hback (h ▸ hc), by simpa using hcontrol c hc⟩
  · intro h
    exact ⟨fun hmem => (h _ hmem).1 rfl, fun c hc => by simp [(h c hc).2]⟩

theorem head?_join_ne (hne : pathComponents path ≠ []) :
    (Components.join '/' (pathComponents path)).head? ≠ some '/' := by
  obtain ⟨first, rest, hparts⟩ := List.exists_cons_of_ne_nil hne
  have hmem : first ∈ pathComponents path := hparts ▸ List.mem_cons_self
  rw [hparts, Components.head?_join (ne_nil_of_mem_pathComponents hmem)]
  intro hslash
  exact pathComponents_sepFree path first hmem (List.mem_of_head? hslash)

theorem normalizeFilePath_join (hne : pathComponents path ≠ [])
    (hlong : Text.byteLen (Components.join '/' (pathComponents path)) ≤ maxFilePathBytes)
    (hchars : ∀ c ∈ Components.join '/' (pathComponents path), c ≠ '\\' ∧ Text.isControl c = false)
    (hup : "..".toList ∉ pathComponents path) :
    normalizeFilePath (Components.join '/' (pathComponents path)) =
      .ok (Components.join '/' (pathComponents path)) ↔ TightPath path := by
  constructor
  · intro hagain
    obtain ⟨-, -, -, -, heq⟩ := normalizeFilePath_eq_ok.mp hagain
    refine (trim_join_iff hne).mp ((Text.trim_infix _).eq_of_length_le ?_)
    have hshort := (join_pathComponents_sublist (Components.join '/' (pathComponents path))).length_le
    rwa [← heq] at hshort
  · intro htight
    obtain ⟨hsplit, hparts⟩ := pathComponents_join hne htight
    have htrim := (trim_join_iff hne).mpr htight
    rw [normalizeFilePath_eq_ok, hparts, hsplit, htrim, refused_iff]
    exact ⟨hlong, ⟨head?_join_ne hne, hchars⟩, hup, hne, rfl⟩

/-- A normalised path stays as it is exactly if the path was tight. -/
theorem normalizeFilePath_again (h : normalizeFilePath path = .ok result) :
    normalizeFilePath result = .ok result ↔ TightPath path := by
  obtain ⟨hlong, hchars, hup, hne, rfl⟩ := normalizeFilePath_eq_ok.mp h
  have hsub := join_pathComponents_sublist path
  refine normalizeFilePath_join hne ((Text.byteLen_sublist hsub).trans hlong) ?_ ?_
  · exact fun c hc => ((refused_iff _).mp hchars).2 c (hsub.subset hc)
  · exact fun hmem => hup (List.mem_of_mem_filter hmem)

theorem filter_split_dropWhile {keep : Text → Bool} (hkeep : keep [] = false) (s : Text) :
    ((s.dropWhile (· == '/')).splitOn '/').filter keep = (s.splitOn '/').filter keep := by
  induction s with
  | nil => rfl
  | cons c s ih =>
    by_cases hc : c = '/'
    · have hsplit : ([] ++ '/' :: s).splitOn '/' = [[]] ++ s.splitOn '/' :=
        List.splitOn_append_cons_self [] s
      rw [List.nil_append] at hsplit
      rw [hc, List.dropWhile_cons_of_pos (by rfl), ih, hsplit, List.filter_append]
      simp [hkeep]
    · rw [List.dropWhile_cons_of_neg (by simpa using hc)]

theorem filter_split_rdropWhile {keep : Text → Bool} (hkeep : keep [] = false) (s : Text) :
    ((s.rdropWhile (· == '/')).splitOn '/').filter keep = (s.splitOn '/').filter keep := by
  induction s using List.reverseRecOn with
  | nil => rfl
  | append_singleton s c ih =>
    by_cases hc : c = '/'
    · rw [hc, List.rdropWhile_concat_pos _ _ _ (by rfl), ih, List.splitOn_append_cons_self, List.filter_append]
      simp [hkeep]
    · rw [List.rdropWhile_concat_neg _ _ _ (by simpa using hc)]

theorem normalizeRepoPath_eq_ok : Orchestration.normalizeRepoPath path = .ok result ↔
    result = Text.trimMatches '/' (Text.trim path) ∧ result ≠ [] ∧
    Text.byteLen result ≤ Orchestration.maxPathBytes ∧
    (result.any Text.isControl || (result.splitOn '/').any (fun part =>
      part = [] || part = ".".toList || part = "..".toList) || result.contains '\\') = false := by
  unfold Orchestration.normalizeRepoPath
  dsimp only
  generalize Text.trimMatches '/' (Text.trim path) = value
  split_ifs with hempty hlong hrefused
  · exact iff_of_false nofun fun ⟨h, hne, _⟩ => hne (h.trans hempty)
  · exact iff_of_false nofun fun ⟨h, _, hfits, _⟩ => absurd (h ▸ hfits) (Nat.not_le.mpr hlong)
  · exact iff_of_false nofun fun ⟨h, _, _, hchars⟩ => Bool.false_ne_true ((h ▸ hchars).symm.trans hrefused)
  · constructor
    · rintro ⟨⟩
      exact ⟨rfl, hempty, Nat.not_lt.mp hlong, Bool.eq_false_iff.mpr hrefused⟩
    · rintro ⟨rfl, -⟩
      rfl

/-- The path of a lease requirement is made of the components that `normalize_file_path` keeps. -/
theorem normalizeRepoPath_components (h : Orchestration.normalizeRepoPath path = .ok result) :
    pathComponents path = result.splitOn '/' ∧ "..".toList ∉ pathComponents path := by
  obtain ⟨hresult, -, -, hchars⟩ := normalizeRepoPath_eq_ok.mp h
  rw [Bool.or_eq_false_iff, Bool.or_eq_false_iff, List.any_eq_false] at hchars
  obtain ⟨⟨-, hparts⟩, -⟩ := hchars
  have hsplit : pathComponents path =
      (result.splitOn '/').filter fun part => part ≠ [] ∧ part ≠ ".".toList := by
    rw [hresult, Text.trimMatches, filter_split_rdropWhile (by rfl), filter_split_dropWhile (by rfl)]
    rfl
  rw [hsplit]
  rw [List.any_eq_false] at hparts
  constructor
  · refine List.filter_eq_self.mpr fun part hpart => ?_
    have hpart := hparts part hpart
    simp only [Bool.or_eq_true, decide_eq_true_eq, not_or] at hpart
    exact decide_eq_true ⟨hpart.1.1, hpart.1.2⟩
  · intro hmem
    refine hparts _ (List.mem_of_mem_filter hmem) ?_
    rfl

theorem normalizeRepoPath_agrees {result' : Text} (h : Orchestration.normalizeRepoPath path = .ok result)
    (h' : normalizeFilePath path = .ok result') : result' = result := by
  obtain ⟨-, -, -, -, rfl⟩ := normalizeFilePath_eq_ok.mp h'
  rw [(normalizeRepoPath_components h).1, Components.join_split]

theorem normalizeRepoPath_again (h : Orchestration.normalizeRepoPath path = .ok result) :
    normalizeFilePath result = .ok result ↔ TightPath path := by
  obtain ⟨hparts, hup⟩ := normalizeRepoPath_components h
  obtain ⟨-, hne, hlong, hchars⟩ := normalizeRepoPath_eq_ok.mp h
  have hjoin : Components.join '/' (pathComponents path) = result := by rw [hparts, Components.join_split]
  rw [Bool.or_eq_false_iff, Bool.or_eq_false_iff, List.any_eq_false, List.contains_eq_mem,
    decide_eq_false_iff_not] at hchars
  have hcomponents : pathComponents path ≠ [] := hparts ▸ List.splitOn_ne_nil '/' result
  rw [← hjoin] at hlong hchars ⊢
  refine normalizeFilePath_join hcomponents hlong (fun c hc => ⟨?_, ?_⟩) hup
  · rintro rfl
    exact hchars.2 hc
  · simpa using hchars.1.1 c hc

end Paths

section Repositories
variable {repository result : Text}

theorem normalizeRepository_eq_ok : normalizeRepository repository = .ok result ↔
    result = Text.trimEndMatches '/' (Text.trim repository) ∧ result ≠ [] ∧
    Text.byteLen result ≤ maxRepositoryBytes ∧ result.any Text.isControl = false := by
  unfold normalizeRepository
  dsimp only
  generalize Text.trimEndMatches '/' (Text.trim repository) = value
  split_ifs with hempty hlong hcontrol
  · exact iff_of_false nofun fun ⟨h, hne, _⟩ => hne (h.trans hempty)
  · exact iff_of_false nofun fun ⟨h, _, hfits, _⟩ => absurd (h ▸ hfits) (Nat.not_le.mpr hlong)
  · exact iff_of_false nofun fun ⟨h, _, _, hplain⟩ => Bool.false_ne_true ((h ▸ hplain).symm.trans hcontrol)
  · constructor
    · rintro ⟨⟩
      exact ⟨rfl, hempty, Nat.not_lt.mp hlong, Bool.eq_false_iff.mpr hcontrol⟩
    · rintro ⟨rfl, -⟩
      rfl

theorem trimEndMatches_replicate (s : Text) (n : Nat) :
    Text.trimEndMatches '/' (s ++ List.replicate n '/') = Text.trimEndMatches '/' s := by
  induction n with
  | zero => rw [List.replicate_zero, List.append_nil]
  | succ n ih =>
    rw [List.replicate_succ', ← List.append_assoc]
    exact (List.rdropWhile_concat_pos _ _ _ (by rfl)).trans ih

theorem trimEndMatches_append (s : Text) : ∃ n, s = Text.trimEndMatches '/' s ++ List.replicate n '/' := by
  refine ⟨(s.rtakeWhile (· == '/')).length, ?_⟩
  have hslashes : s.rtakeWhile (· == '/') = List.replicate (s.rtakeWhile (· == '/')).length '/' :=
    List.eq_replicate_of_mem fun c hc => beq_iff_eq.mp (@List.mem_rtakeWhile_imp _ (· == '/') s c hc)
  rw [← hslashes]
  exact List.rdropWhile_append_rtakeWhile.symm

theorem endsClean_trimEndMatches (s : Text) :
    Text.EndsClean (Text.trimEndMatches '/' (Text.trim s)) ↔ TightRepository s := by
  constructor
  · intro hclean pre c n hsplit
    by_contra hspace
    rw [Bool.not_eq_false] at hspace
    have hc : ¬ (c == '/') = true := by
      rw [beq_iff_eq]
      rintro rfl
      exact absurd hspace (by decide)
    have hends : Text.trimEndMatches '/' (Text.trim s) = pre ++ [c] := by
      rw [hsplit, List.append_cons, trimEndMatches_replicate]
      exact List.rdropWhile_concat_neg _ _ _ hc
    rw [hends] at hclean
    exact absurd (hclean c (by simp)) (by simp [hspace])
  · intro htight c hc
    obtain ⟨n, hn⟩ := trimEndMatches_append (Text.trim s)
    obtain ⟨pre, hpre⟩ := List.getLast?_eq_some_iff.mp hc
    cases n with
    | zero =>
      rw [List.replicate_zero, List.append_nil] at hn
      rw [← hn] at hc
      exact (Text.trim_eq_self_iff.mp (Text.trim_trim s)).2 c hc
    | succ n =>
      rw [hpre, List.append_assoc] at hn
      exact htight pre c n hn

/-- A normalised repository stays as it is exactly if it was tight. -/
theorem normalizeRepository_again (h : normalizeRepository repository = .ok result) :
    normalizeRepository result = .ok result ↔ TightRepository repository := by
  obtain ⟨rfl, hne, hlong, hcontrol⟩ := normalizeRepository_eq_ok.mp h
  have hstart : Text.StartsClean (Text.trimEndMatches '/' (Text.trim repository)) := by
    intro c hc
    obtain ⟨n, hn⟩ := trimEndMatches_append (Text.trim repository)
    refine (Text.trim_eq_self_iff.mp (Text.trim_trim repository)).1 c ?_
    rw [hn, List.head?_append_of_ne_nil _ hne]
    exact hc
  rw [← endsClean_trimEndMatches]
  refine Iff.trans ?_ (Text.trim_eq_self_iff.trans (and_iff_right hstart))
  generalize hresult : Text.trimEndMatches '/' (Text.trim repository) = result at *
  constructor
  · intro hagain
    obtain ⟨heq, -⟩ := normalizeRepository_eq_ok.mp hagain
    refine (Text.trim_infix _).eq_of_length_le ?_
    calc result.length = (Text.trimEndMatches '/' (Text.trim result)).length := congrArg List.length heq
      _ ≤ (Text.trim result).length := (List.rdropWhile_prefix _ _).length_le
  · intro htrim
    rw [normalizeRepository_eq_ok, htrim]
    refine ⟨?_, hne, hlong, hcontrol⟩
    rw [← hresult]
    exact (List.rdropWhile_idempotent _ _).symm

end Repositories

/-- What a successful acquire leaves: the lease under the normalised names, at some key of the pruned table, free of
the leases of others. -/
structure Acquired (s : AppState) (now : Now) (repository path agentKey : Text) (ttlMs : Nat) (lease : FileLease)
    (s' : AppState) : Prop where
  repository : normalizeRepository repository = .ok lease.repository
  path : normalizeFilePath path = .ok lease.path
  owner : lease.agentKey = Text.trim agentKey
  registered : s.agents.contains (Text.trim agentKey) = true
  ttl : ∃ u, normalizeFileLeaseTtl ttlMs = .ok u
  agents : s'.agents = s.agents
  config : s'.config = s.config
  stored : ∃ key, s'.fileLeases = (s.pruneLeases now).fileLeases.insert key ⟨lease, now.instant + ttlMs⟩
  free : LeaseTable.Free (s.pruneLeases now).fileLeases lease

section Acquire
variable {s s' : AppState} {now : Now} {newId repository path agentKey purpose : Text} {ttlMs : Nat}
  {recursive : Bool} {metadata : Json} {lease : FileLease}

theorem acquireChecks_eq_ok {r : Text × Text × Text} :
    s.acquireChecks repository path agentKey ttlMs metadata = .ok r ↔
      normalizeRepository repository = .ok r.1 ∧ normalizeFilePath path = .ok r.2.1 ∧
      r.2.2 = Text.trim agentKey ∧ s.agents.contains (Text.trim agentKey) = true ∧
      metadata.bytes ≤ s.config.maxContentBytes ∧
      ∃ u, normalizeFileLeaseTtl ttlMs = .ok u := by
  unfold AppState.acquireChecks
  cases normalizeRepository repository with
  | error e => exact iff_of_false (by rintro ⟨⟩) (by rintro ⟨⟨⟩, -⟩)
  | ok repository' =>
    cases normalizeFilePath path with
    | error e => exact iff_of_false (by rintro ⟨⟩) (by rintro ⟨-, ⟨⟩, -⟩)
    | ok path' =>
      simp only [bind, Except.bind, pure, Except.pure]
      cases s.agents.contains (Text.trim agentKey) with
      | false => exact iff_of_false (by rintro ⟨⟩) (by rintro ⟨-, -, -, ⟨⟩, -⟩)
      | true =>
        by_cases hlarge : metadata.bytes > s.config.maxContentBytes
        · simp only [hlarge]
          exact iff_of_false (by rintro ⟨⟩) fun h => absurd h.2.2.2.2.1 (Nat.not_le.mpr hlarge)
        · simp only [hlarge]
          cases normalizeFileLeaseTtl ttlMs with
          | error e => exact iff_of_false (by rintro ⟨⟩) (by rintro ⟨-, -, -, -, -, -, ⟨⟩⟩)
          | ok u =>
            constructor
            · rintro ⟨⟩
              exact ⟨rfl, rfl, rfl, trivial, Nat.not_lt.mp hlarge, u, rfl⟩
            · rintro ⟨h₁, h₂, h₃, -⟩
              obtain ⟨r₁, r₂, r₃⟩ := r
              cases h₁
              cases h₂
              cases h₃
              rfl

theorem acquireFileLease_acquired
    (h : s.acquireFileLease now newId repository path agentKey ttlMs recursive purpose metadata = (.ok lease, s')) :
    Acquired s now repository path agentKey ttlMs lease s' := by
  unfold AppState.acquireFileLease at h
  cases hchecks : s.acquireChecks repository path agentKey ttlMs metadata with
  | error e =>
    rw [hchecks] at h
    cases h
  | ok r =>
    obtain ⟨repository', path', agentKey'⟩ := r
    rw [hchecks] at h
    obtain ⟨hrepository, hpath, hagent, hregistered, -, httl⟩ := acquireChecks_eq_ok.mp hchecks
    dsimp only at hrepository hpath hagent h
    unfold AppState.grantFileLease at h
    cases hconflict : (s.pruneLeases now).fileLeases.findEntry (fun v => v.lease.repository == repository' &&
        v.lease.agentKey != agentKey' && leaseScopesOverlap v.lease.path v.lease.recursive path' recursive) with
    | some found =>
      rw [hconflict] at h
      cases h
    | none =>
      rw [hconflict] at h
      have hfree : ∀ v ∈ (s.pruneLeases now).fileLeases.values, v.lease.repository = repository' →
          v.lease.agentKey ≠ agentKey' →
          leaseScopesOverlap v.lease.path v.lease.recursive path' recursive = false := by
        intro v hv hr ha
        simpa [hr, ha] using Table.findEntry_eq_none hconflict hv
      dsimp only at h
      cases hfound : (s.pruneLeases now).fileLeases.findEntry (fun v => v.lease.repository == repository' &&
          v.lease.path == path' && v.lease.agentKey == agentKey') with
      | some found =>
        obtain ⟨key, existing⟩ := found
        rw [hfound] at h
        cases h
        have hmatch := (Table.findEntry_eq_some hfound).2
        simp only [Bool.and_eq_true, beq_iff_eq] at hmatch
        obtain ⟨⟨hr, hp⟩, ha⟩ := hmatch
        subst hr hp ha
        exact ⟨hrepository, hpath, hagent, hregistered, httl, rfl, rfl, ⟨key, rfl⟩, hfree⟩
      | none =>
        rw [hfound] at h
        dsimp only at h
        split_ifs at h with hfull
        · cases h
        · cases h
          exact ⟨hrepository, hpath, hagent, hregistered, httl, rfl, rfl, ⟨newId, rfl⟩, hfree⟩

end Acquire

/-- The lease is among the holders that a query finds. -/
def AppState.Lists (s : AppState) (now : Now) (repository path agentKey : Option Text) (includeDescendants : Bool)
    (lease : FileLease) : Prop :=
  ∃ holders s', s.fileLeaseHolders now repository path agentKey includeDescendants = (.ok holders, s') ∧
    lease ∈ holders.map FileLeaseHolder.lease

section Holders
variable {s : AppState} {now : Now} {lease : FileLease}

theorem AppState.lists_iff {repository path agentKey : Option Text} {includeDescendants : Bool} :
    s.Lists now repository path agentKey includeDescendants lease ↔
      ∃ r p, repository.mapM normalizeRepository = .ok r ∧ path.mapM normalizeFilePath = .ok p ∧
        (∃ v ∈ s.fileLeases.values, v.lease = lease ∧ now.instant < v.expiresAt) ∧
        s.agents.contains lease.agentKey = true ∧ (r.all fun repo => lease.repository == repo) = true ∧
        (p.all fun query => leaseScopesOverlap lease.path lease.recursive query includeDescendants) = true ∧
        (agentKey.all fun agent => lease.agentKey == agent) = true := by
  unfold AppState.Lists AppState.fileLeaseHolders
  cases repository.mapM normalizeRepository with
  | error e => exact iff_of_false (fun ⟨_, _, h, _⟩ => nomatch h) (fun ⟨_, _, h, _⟩ => nomatch h)
  | ok r =>
    cases path.mapM normalizeFilePath with
    | error e => exact iff_of_false (fun ⟨_, _, h, _⟩ => nomatch h) (fun ⟨_, _, _, h, _⟩ => nomatch h)
    | ok p =>
      constructor
      · rintro ⟨holders, s', ⟨⟩, hmem⟩
        obtain ⟨holder, hholder, rfl⟩ := List.mem_map.mp hmem
        obtain ⟨v, hv, hagent⟩ := List.mem_filterMap.mp (List.mem_mergeSort.mp hholder)
        obtain ⟨agent, hget, rfl⟩ := Option.map_eq_some_iff.mp hagent
        obtain ⟨hv, hselected⟩ := List.mem_filter.mp hv
        obtain ⟨hv, hlive⟩ := Table.mem_values_retain.mp hv
        simp only [Bool.and_eq_true] at hselected
        have hregistered : s.agents.contains v.lease.agentKey = true := Option.isSome_iff_exists.mpr ⟨agent, hget⟩
        exact ⟨r, p, rfl, rfl, ⟨v, hv, rfl, of_decide_eq_true hlive⟩, hregistered, hselected.1.1, hselected.1.2,
          hselected.2⟩
      · rintro ⟨_, _, ⟨⟩, ⟨⟩, ⟨v, hv, rfl, hlive⟩, hregistered, hr, hp, ha⟩
        obtain ⟨agent, hagent⟩ := Option.isSome_iff_exists.mp hregistered
        refine ⟨_, _, rfl, List.mem_map.mpr ⟨⟨v.lease, agent⟩, List.mem_mergeSort.mpr ?_, rfl⟩⟩
        refine List.mem_filterMap.mpr ⟨v, List.mem_filter.mpr ⟨?_, ?_⟩, ?_⟩
        · exact Table.mem_values_retain.mpr ⟨hv, decide_eq_true hlive⟩
        · simp only [Bool.and_eq_true]
          exact ⟨⟨hr, hp⟩, ha⟩
        · exact Option.map_eq_some_iff.mpr ⟨agent, hagent, rfl⟩

end Holders

section Returned
variable {s s' : AppState} {now now' : Now} {repository path agentKey : Text} {ttlMs : Nat} {lease : FileLease}

theorem Acquired.live (h : Acquired s now repository path agentKey ttlMs lease s')
    (hnow : now'.instant < now.instant + ttlMs) :
    ∃ v ∈ s'.fileLeases.values, v.lease = lease ∧ now'.instant < v.expiresAt := by
  obtain ⟨key, hstored⟩ := h.stored
  refine ⟨⟨lease, now.instant + ttlMs⟩, ?_, rfl, hnow⟩
  rw [hstored]
  exact Table.mem_values.mpr ⟨key, Table.get_insert_self _ _ _⟩

/-- A path that a query for `path` normalises to and that meets a lease on `path` is `path`. -/
theorem eq_of_leaseScopesOverlap {query : Text} {recursive : Bool} (hquery : normalizeFilePath path = .ok query)
    (h : leaseScopesOverlap path recursive query false = true) : query = path := by
  obtain ⟨-, -, -, -, rfl⟩ := normalizeFilePath_eq_ok.mp hquery
  have hshort : (Components.join '/' (pathComponents path)).length ≤ path.length :=
    (join_pathComponents_sublist path).length_le.trans (Text.trim_infix path).length_le
  simp only [leaseScopesOverlap, Bool.false_and, Bool.or_false, Bool.or_eq_true, beq_iff_eq, Bool.and_eq_true,
    List.isPrefixOf_iff_prefix] at h
  rcases h with h | ⟨-, hprefix⟩
  · exact h.symm
  · -- what lies below the lease is longer than its path
    have hlong := hprefix.length_le
    rw [List.length_append] at hlong
    exact absurd (hlong.trans hshort) (by simp)

theorem Acquired.lists_iff (h : Acquired s now repository path agentKey ttlMs lease s')
    (hnow : now'.instant < now.instant + ttlMs) :
    (∀ includeDescendants,
        s'.Lists now' (some lease.repository) (some lease.path) none includeDescendants lease) ↔
      normalizeRepository lease.repository = .ok lease.repository ∧
        normalizeFilePath lease.path = .ok lease.path := by
  constructor
  · intro hlists
    obtain ⟨r, p, hr, hp, -, -, hrepository, hpath, -⟩ := AppState.lists_iff.mp (hlists false)
    obtain ⟨repo, hrepo, rfl⟩ := Except.map_eq_ok.mp hr
    obtain ⟨query, hquery, rfl⟩ := Except.map_eq_ok.mp hp
    obtain rfl := eq_of_leaseScopesOverlap hquery hpath
    obtain rfl := beq_iff_eq.mp hrepository
    exact ⟨hrepo, hquery⟩
  · rintro ⟨hrepository, hpath⟩ includeDescendants
    refine AppState.lists_iff.mpr ⟨some lease.repository, some lease.path, ?_, ?_, h.live hnow, ?_, ?_, ?_, rfl⟩
    · exact congrArg (Except.map some) hrepository
    · exact congrArg (Except.map some) hpath
    · rw [h.agents, h.owner]
      exact h.registered
    · exact beq_self_eq_true _
    · change (lease.path == lease.path || _ || _) = true
      rw [beq_self_eq_true]
      rfl

/-- Who acquires the lease again under the names it was returned with gets the same lease, extended. -/
def ExtendsInPlace (s : AppState) (now : Now) (agentKey : Text) (lease : FileLease) : Prop :=
  ∀ newId ttlMs purpose metadata, (∃ u, normalizeFileLeaseTtl ttlMs = .ok u) →
    metadata.bytes ≤ s.config.maxContentBytes →
    ∃ s', s.acquireFileLease now newId lease.repository lease.path agentKey ttlMs lease.recursive purpose metadata =
      (.ok { lease with
        expiresAt := fileLeaseExpiryTs now ttlMs
        purpose := normalizedPurpose purpose
        metadata := metadata }, s')

theorem Acquired.extends (h : Acquired s now repository path agentKey ttlMs lease s')
    (hnow : now'.instant < now.instant + ttlMs)
    (hrepository : normalizeRepository lease.repository = .ok lease.repository)
    (hpath : normalizeFilePath lease.path = .ok lease.path) : ExtendsInPlace s' now' agentKey lease := by
  intro newId ttlMs' purpose metadata httl hsmall
  have hregistered : s'.agents.contains (Text.trim agentKey) = true := by
    rw [h.agents]
    exact h.registered
  have hchecks : s'.acquireChecks lease.repository lease.path agentKey ttlMs' metadata =
      .ok (lease.repository, lease.path, lease.agentKey) :=
    acquireChecks_eq_ok.mpr ⟨hrepository, hpath, h.owner, hregistered, hsmall, httl⟩
  obtain ⟨key, hstored⟩ := h.stored
  have htable : (s'.pruneLeases now').fileLeases = ((s.pruneLeases now).fileLeases.insert key
      ⟨lease, now.instant + ttlMs⟩).retain (fun v => now'.instant < v.expiresAt) := by
    rw [← hstored]
    rfl
  have hconflict : (s'.pruneLeases now').fileLeases.findEntry (fun v => v.lease.repository == lease.repository &&
      v.lease.agentKey != lease.agentKey &&
      leaseScopesOverlap v.lease.path v.lease.recursive lease.path lease.recursive) = none := by
    rw [htable]
    refine Table.findEntry_none fun v hv => ?_
    rcases Table.mem_values_insert (Table.mem_values_retain.mp hv).1 with rfl | hold
    · simp
    · by_contra hoverlap
      simp only [Bool.not_eq_false, Bool.and_eq_true, beq_iff_eq, bne_iff_ne] at hoverlap
      obtain ⟨⟨hr, ha⟩, hoverlap⟩ := hoverlap
      exact Bool.false_ne_true ((h.free v hold hr ha).symm.trans hoverlap)
  have hfound : (s'.pruneLeases now').fileLeases.findEntry (fun v => v.lease.repository == lease.repository &&
      v.lease.path == lease.path && v.lease.agentKey == lease.agentKey) =
      some (key, ⟨lease, now.instant + ttlMs⟩) := by
    rw [htable]
    exact Table.findEntry_retain_insert (by simp) (decide_eq_true hnow)
  unfold AppState.acquireFileLease AppState.grantFileLease
  rw [hchecks]
  dsimp only
  rw [hconflict]
  dsimp only
  rw [hfound]
  exact ⟨_, rfl⟩

end Returned

/-- The normalisers are stable exactly on tight names; a lease is found, and extended in place, under the names it
was returned with exactly if it was acquired under tight ones; and where two normalisers accept a path, they agree. -/
theorem scopes_canonical_iff (repository path : Text) :
    (∀ result, normalizeRepository repository = .ok result →
      (normalizeRepository result = .ok result ↔ TightRepository repository)) ∧
    (∀ result, normalizeFilePath path = .ok result →
      (normalizeFilePath result = .ok result ↔ TightPath path)) ∧
    (∀ (s : AppState) (now : Now) newId agentKey ttlMs recursive purpose metadata lease s',
      s.acquireFileLease now newId repository path agentKey ttlMs recursive purpose metadata = (.ok lease, s') →
      ∀ now' : Now, now'.instant < now.instant + ttlMs →
        ((∀ includeDescendants,
            s'.Lists now' (some lease.repository) (some lease.path) none includeDescendants lease) ∧
          ExtendsInPlace s' now' agentKey lease ↔ TightRepository repository ∧ TightPath path)) ∧
    (∀ result, Orchestration.normalizeRepoPath path = .ok result →
      (∀ result', normalizeFilePath path = .ok result' ∨ LeaseDescriptors.normalizePath path = .ok result' →
        result' = result) ∧
      (normalizeFilePath result = .ok result ↔ TightPath path)) ∧
    LeaseDescriptors.normalizePath path = normalizeFilePath path := by
  refine ⟨fun result h => normalizeRepository_again h, fun result h => normalizeFilePath_again h, ?_, ?_, rfl⟩
  · intro s now newId agentKey ttlMs recursive purpose metadata lease s' h now' hnow
    have hacquired := acquireFileLease_acquired h
    have hstable :=
      and_congr (normalizeRepository_again hacquired.repository) (normalizeFilePath_again hacquired.path)
    rw [hacquired.lists_iff hnow, hstable]
    refine and_iff_left_of_imp fun htight => ?_
    obtain ⟨hrepository, hpath⟩ := hstable.mpr htight
    exact hacquired.extends hnow hrepository hpath
  · intro result h
    refine ⟨?_, normalizeRepoPath_again h⟩
    rintro result' (h' | h')
    · exact normalizeRepoPath_agrees h h'
    · exact normalizeRepoPath_agrees h h'

def scopedState : AppState :=
  ((AppState.new Config.inMemory).registerAgent ⟨0, 0⟩ {
    agentKey := "ada".toList
    displayName := "Ada".toList
    kind := .claude
    host := none
    metadata := .null
    registeredAt := [] }).2

def spacedLease (repository path : Text) : BridgeResult FileLease × AppState :=
  scopedState.acquireFileLease ⟨0, 0⟩ "l1".toList repository path "ada".toList 60000 false [] .null

/-- The ids of the leases that a query under the returned names finds. -/
def heldIds (r : BridgeResult FileLease × AppState) : Option (List Text) :=
  r.1.toOption.bind fun lease =>
    let query := r.2.fileLeaseHolders ⟨1, 1⟩ (some lease.repository) (some lease.path) none false
    query.1.toOption.map fun holders => holders.map fun holder => holder.lease.id

theorem scopes_canonical_plain : TightRepository "owner/repo".toList ∧ TightPath "src/main.rs".toList :=
  ⟨((scopes_canonical_iff "owner/repo".toList "src/main.rs".toList).1 "owner/repo".toList (by decide)).mp (by decide),
    ((scopes_canonical_iff "owner/repo".toList "src/main.rs".toList).2.1 "src/main.rs".toList (by decide)).mp
      (by decide)⟩

/-- White space comes to the end of a name when the slash or the dot after it is dropped. -/
theorem scopes_not_canonical :
    normalizeRepository "owner/repo /".toList = .ok "owner/repo ".toList ∧
      normalizeRepository "owner/repo ".toList = .ok "owner/repo".toList ∧
      normalizeFilePath "./ a".toList = .ok " a".toList ∧ normalizeFilePath " a".toList = .ok "a".toList ∧
      heldIds (spacedLease "owner/repo".toList "a".toList) = some ["l1".toList] ∧
      heldIds (spacedLease "owner/repo /".toList "a".toList) = some [] ∧
      heldIds (spacedLease "owner/repo".toList "./ a".toList) = some [] := by
  decide +kernel

end AgentBridge
