import ForgeOS.Learning.SelfImprovement

/-! What a session spends on self-improvement. Each call of the loop counts its tokens and
its proposals from zero, so the limits of the policy hold for a call; for a session they
hold while only one call runs proposals, or while what is left is enough for all that a
call proposes. -/

namespace ForgeOS.Learning

open ForgeOS.Python

variable (e : Learner)

/-! ### What a call runs -/

/-- The proposals that were run. -/
def ranProposals (results : List ProposalResult) : List Proposal :=
  (results.filter fun r => !r.blocked).map ProposalResult.proposal

def tokensOf (c : LoopCall) (ps : List Proposal) : ℕ :=
  (ps.map (estimateCandidateTokens c.generated.task)).sum

variable {e}

theorem ranProposals_cons_executed {c : LoopCall} {p : Proposal} {i : Inspection} {tokens : ℕ}
    {gate : ApprovalGate} (results : List ProposalResult) :
    ranProposals (e.executed c p i tokens gate :: results) = p :: ranProposals results := rfl

theorem tokensOf_cons (c : LoopCall) (p : Proposal) (ps : List Proposal) :
    tokensOf c (p :: ps) = estimateCandidateTokens c.generated.task p + tokensOf c ps := by
  rw [tokensOf, List.map_cons, List.sum_cons]
  rfl

/-- The gate is closed for the proposal, or the proposal is run and the loop goes on. -/
theorem runProposals_cases (c : LoopCall) (index tokens : ℕ) (files : List SourceFile) (p : Proposal)
    (ps : List Proposal) :
    ranProposals (e.runProposals c index tokens files (p :: ps)).results = [] ∨
      tokens + estimateCandidateTokens c.generated.task p < e.policy.maxApiTokensPerSession ∧
        index < e.policy.maxExperimentLoopIterations ∧
        ∃ files', ranProposals (e.runProposals c index tokens files (p :: ps)).results =
          p :: ranProposals (e.runProposals c (index + 1)
            (tokens + estimateCandidateTokens c.generated.task p) files' ps).results := by
  rw [Learner.runProposals]
  by_cases hgate : (e.gate index (tokens + estimateCandidateTokens c.generated.task p) p).allowed = true
  · obtain ⟨-, htokens, hcount⟩ := (selfImprovementGate_allowed_iff _ _ _ _ _).mp hgate
    refine .inr ⟨htokens, hcount,
      (executeGenerated e.lower c.generated.task e.sourceDir (c.artifact p) files).1, ?_⟩
    rw [if_neg (by rw [hgate]; decide)]
    exact ranProposals_cons_executed _
  · left
    rw [if_pos (Bool.not_eq_true _ ▸ hgate)]
    rfl

/-- What runs is the front of what is proposed, and stays within the limits of the policy. -/
theorem ran_runProposals (c : LoopCall) (index tokens : ℕ) (files : List SourceFile)
    (ps : List Proposal) :
    ranProposals (e.runProposals c index tokens files ps).results <+: ps ∧
      (ranProposals (e.runProposals c index tokens files ps).results ≠ [] →
        tokens + tokensOf c (ranProposals (e.runProposals c index tokens files ps).results) <
            e.policy.maxApiTokensPerSession ∧
          index + (ranProposals (e.runProposals c index tokens files ps).results).length ≤
            e.policy.maxExperimentLoopIterations) := by
  induction ps generalizing index tokens files with
  | nil => exact ⟨List.prefix_rfl, fun h => absurd rfl h⟩
  | cons p ps ih =>
    rcases runProposals_cases (e := e) c index tokens files p ps with
      hnone | ⟨htokens, hindex, files', hran⟩
    · rw [hnone]
      exact ⟨List.nil_prefix, fun h => absurd rfl h⟩
    · obtain ⟨hfront, hlimits⟩ :=
        ih (index + 1) (tokens + estimateCandidateTokens c.generated.task p) files'
      rw [hran]
      refine ⟨List.cons_prefix_cons.mpr ⟨rfl, hfront⟩, fun _ => ?_⟩
      rw [tokensOf_cons, List.length_cons]
      by_cases hrest : ranProposals (e.runProposals c (index + 1)
          (tokens + estimateCandidateTokens c.generated.task p) files' ps).results = []
      · rw [hrest]
        exact ⟨htokens, hindex⟩
      · have hbounds := hlimits hrest
        omega

/-! ### What a session runs -/

/-- A call with the memory and the files it finds. -/
structure LoopEntry where
  call : LoopCall
  rows : List StrategyAttempt
  files : List SourceFile

variable (e)

def Learner.ran (x : LoopEntry) : List Proposal :=
  ranProposals (e.loop x.call x.rows x.files).results

/-- The estimated tokens of all proposals that the calls ran. -/
def Learner.spent (xs : List LoopEntry) : ℕ := (xs.map fun x => tokensOf x.call (e.ran x)).sum

/-- How many proposals the calls ran. -/
def Learner.executedCount (xs : List LoopEntry) : ℕ := (xs.map fun x => (e.ran x).length).sum

/-- The session stays within the limits of the policy. -/
def Learner.WithinBudget (xs : List LoopEntry) : Prop :=
  e.spent xs < e.policy.maxApiTokensPerSession ∧
    e.executedCount xs ≤ e.policy.maxExperimentLoopIterations

/-- Nothing has been run before the call, or what is left is enough for all it proposes. -/
def Learner.Fits (before : List LoopEntry) (x : LoopEntry) : Prop :=
  e.executedCount before = 0 ∨
    e.spent before + tokensOf x.call (e.proposals x.call x.rows) < e.policy.maxApiTokensPerSession ∧
      e.executedCount before + (e.proposals x.call x.rows).length ≤
        e.policy.maxExperimentLoopIterations

variable {e}

theorem spent_snoc (xs : List LoopEntry) (x : LoopEntry) :
    e.spent (xs ++ [x]) = e.spent xs + tokensOf x.call (e.ran x) := by
  simp [Learner.spent]

theorem executedCount_snoc (xs : List LoopEntry) (x : LoopEntry) :
    e.executedCount (xs ++ [x]) = e.executedCount xs + (e.ran x).length := by
  simp [Learner.executedCount]

/-- Calls that ran nothing spent nothing. -/
theorem spent_eq_zero {xs : List LoopEntry} (h : e.executedCount xs = 0) : e.spent xs = 0 := by
  induction xs with
  | nil => rfl
  | cons x xs ih =>
    rw [Learner.executedCount, List.map_cons, List.sum_cons] at h
    have hx : e.ran x = [] := List.eq_nil_of_length_eq_zero (by omega)
    have hxs : e.executedCount xs = 0 := by
      rw [Learner.executedCount]
      omega
    have htail := ih hxs
    rw [Learner.spent] at htail
    rw [Learner.spent, List.map_cons, List.sum_cons, hx, htail]
    rfl

theorem tokensOf_prefix (c : LoopCall) {ps qs : List Proposal} (h : ps <+: qs) :
    tokensOf c ps ≤ tokensOf c qs := by
  obtain ⟨rest, rfl⟩ := h
  rw [tokensOf, tokensOf, List.map_append, List.sum_append]
  exact Nat.le_add_right _ _

/-- A call that fits keeps the session within the limits. -/
theorem Learner.WithinBudget.step {xs : List LoopEntry} {x : LoopEntry} (h : e.WithinBudget xs)
    (hx : e.Fits xs x) : e.WithinBudget (xs ++ [x]) := by
  obtain ⟨hfront, hlimits⟩ := ran_runProposals (e := e) x.call 0 0 x.files
    (e.proposals x.call x.rows)
  have hran : e.ran x = ranProposals (e.runProposals x.call 0 0 x.files
      (e.proposals x.call x.rows)).results := rfl
  rw [← hran] at hfront hlimits
  rw [Learner.WithinBudget, spent_snoc, executedCount_snoc]
  rcases hx with hfirst | ⟨htokens, hcount⟩
  · have hspent := spent_eq_zero hfirst
    by_cases hnone : e.ran x = []
    · rw [hnone]
      exact h
    · have hbounds := hlimits hnone
      omega
  · have hle := tokensOf_prefix x.call hfront
    have hlen := hfront.length_le
    omega

/-- A session whose calls all fit is within the limits at every point. -/
theorem session_within_budget (hbudget : 0 < e.policy.maxApiTokensPerSession) (xs : List LoopEntry)
    (hfits : ∀ before x after, xs = before ++ x :: after → e.Fits before x) :
    ∀ front back, xs = front ++ back → e.WithinBudget front := by
  intro front
  induction front using List.reverseRecOn with
  | nil =>
    intro back _
    exact ⟨hbudget, Nat.zero_le _⟩
  | append_singleton front x ih =>
    rintro back rfl
    have hfront := ih (x :: back) (by rw [List.append_assoc, List.singleton_append])
    refine hfront.step (hfits front x back ?_)
    rw [List.append_assoc, List.singleton_append]

/-- A session with room for one proposal in each call. -/
def smallLearner : Learner where
  policy := { maxApiTokensPerSession := 200 }
  premises := plainPremises
  lower := asciiLower
  hash _ := 0
  score points _ := points

def transportCall : LoopCall where
  generated := { task := taskManifest "transport_blocker" "" "observe" "unknown" "" }
  blockerType := "transport_blocker"
  profile := plainDevice
  artifact _ := { stdout := .empty, files := id }

theorem one_call_within_budget : smallLearner.WithinBudget [⟨transportCall, [], []⟩] := by
  refine session_within_budget (by decide) [⟨transportCall, [], []⟩] ?_ _ [] rfl
  intro before x after h
  obtain ⟨rfl, -, -⟩ | ⟨-, h⟩ := List.append_eq_singleton_iff.mp h.symm
  · exact .inl rfl
  · exact absurd h (List.cons_ne_nil x after)

/-- A second call spends as much as the first, and more than the session may. -/
theorem second_call_overspends :
    smallLearner.spent [⟨transportCall, [], []⟩, ⟨transportCall, [], []⟩] = 232 ∧
      ¬smallLearner.WithinBudget [⟨transportCall, [], []⟩, ⟨transportCall, [], []⟩] := by
  have hspent : smallLearner.spent [⟨transportCall, [], []⟩, ⟨transportCall, [], []⟩] = 232 := by
    decide +kernel
  refine ⟨hspent, fun h => ?_⟩
  have hless := h.1
  rw [hspent] at hless
  exact absurd hless (by decide)

end ForgeOS.Learning
