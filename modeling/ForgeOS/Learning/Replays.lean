import ForgeOS.Learning.SelfImprovement

/-! Which attempts `_build_proposals` replays from the strategy memory. The proposals end with what
the two best attempts set in the environment; an attempt is left out when it set nothing, or what an
earlier proposal sets already. -/

namespace ForgeOS.Learning

open ForgeOS.Python

/-! ### Where the proposals come from -/

/-- The proposals in front of those from memory. -/
def variantProposals (lower : String → String) (profile : FeatureProfile) (blockerType : String)
    (retrieved : List ScoredAttempt) : List Proposal :=
  let features := featureWords lower profile
  [baselineProposal] ++
    (if blockerType = "source_blocker" then sourceProposals (learnedKeywords retrieved) features
    else
      [{ proposalId := "low_cost_retry"
         summary := "Retry with low-cost preference and device-specific keywords."
         envOverrides := [("FORGEOS_PRIORITY_KEYWORDS", replaceChar features '_' ',')] }])

/-- The proposal that replays an attempt. -/
def memoryProposal (item : ScoredAttempt) : Proposal where
  proposalId := "memory_" ++ item.attempt.proposalId
  summary := "Replay a historically successful proposal from strategy memory."
  envOverrides := item.attempt.envOverrides

instance lawfulBEq_overrides : LawfulBEq (List (String × String)) := inferInstance

/-- The attempts whose proposals stay, behind proposals with the keys. -/
def replaysBehind : List (List (String × String)) → List ScoredAttempt → List ScoredAttempt
  | _, [] => []
  | seen, item :: items =>
    if envKey (memoryProposal item) ∈ seen then replaysBehind seen items
    else item :: replaysBehind (envKey (memoryProposal item) :: seen) items

/-- The attempts that `_build_proposals` replays. -/
def replays (lower : String → String) (profile : FeatureProfile) (blockerType : String)
    (retrieved : List ScoredAttempt) : List ScoredAttempt :=
  replaysBehind ((variantProposals lower profile blockerType retrieved).map envKey)
    ((retrieved.take 2).filter fun item => item.attempt.envOverrides ≠ [])

variable {seen seen' : List (List (String × String))}

/-- Only which keys were seen matters. -/
theorem replaysBehind_congr (hseen : ∀ key, key ∈ seen ↔ key ∈ seen') (items : List ScoredAttempt) :
    replaysBehind seen items = replaysBehind seen' items := by
  induction items generalizing seen seen' with
  | nil => rfl
  | cons item items ih =>
    simp only [replaysBehind, hseen]
    split_ifs
    · exact ih hseen
    · have hmore : ∀ key, key ∈ envKey (memoryProposal item) :: seen ↔
          key ∈ envKey (memoryProposal item) :: seen' := by
        intro key
        simp [hseen]
      rw [ih hmore]

theorem dedupProposals_memory (seen : List (List (String × String))) (items : List ScoredAttempt) :
    dedupProposals seen (items.map memoryProposal) = (replaysBehind seen items).map memoryProposal := by
  induction items generalizing seen with
  | nil => rfl
  | cons item items ih =>
    simp only [List.map_cons, dedupProposals, replaysBehind]
    split_ifs
    · exact ih seen
    · rw [ih, List.map_cons]

theorem dedupProposals_append (ps : List Proposal) (items : List ScoredAttempt) :
    dedupProposals seen (ps ++ items.map memoryProposal) =
      dedupProposals seen ps ++ (replaysBehind (ps.map envKey ++ seen) items).map memoryProposal := by
  induction ps generalizing seen with
  | nil => exact dedupProposals_memory seen items
  | cons p ps ih =>
    simp only [List.cons_append, dedupProposals, List.map_cons]
    split_ifs with hp
    · have hkeys : ∀ key, key ∈ ps.map envKey ++ seen ↔
          key ∈ envKey p :: (ps.map envKey ++ seen) := by
        intro key
        simp only [List.mem_append, List.mem_cons]
        constructor
        · exact Or.inr
        · rintro (rfl | h)
          · exact .inr hp
          · exact h
      rw [ih, replaysBehind_congr hkeys]
    · have hkeys : ∀ key, key ∈ ps.map envKey ++ envKey p :: seen ↔
          key ∈ envKey p :: (ps.map envKey ++ seen) := by
        intro key
        simp only [List.mem_append, List.mem_cons]
        tauto
      rw [ih, replaysBehind_congr hkeys, List.cons_append]

/-- The proposals are the variants without repetitions, and the attempts that are replayed. -/
theorem buildProposals_eq (lower : String → String) (profile : FeatureProfile) (blockerType : String)
    (retrieved : List ScoredAttempt) :
    buildProposals lower profile blockerType retrieved =
      dedupProposals [] (variantProposals lower profile blockerType retrieved) ++
        (replays lower profile blockerType retrieved).map memoryProposal := by
  have happend := @dedupProposals_append [] (variantProposals lower profile blockerType retrieved)
    ((retrieved.take 2).filter fun item => item.attempt.envOverrides ≠ [])
  rw [List.append_nil] at happend
  exact happend

/-! ### What is replayed -/

/-- The attempt was recorded as one that advanced. -/
def Succeeded (item : ScoredAttempt) : Prop :=
  item.attempt.advanced = true ∧ item.attempt.decision ≠ .discard

/-- The attempt set something that no variant sets. -/
def Sets (variants : List Proposal) (item : ScoredAttempt) : Prop :=
  item.attempt.envOverrides ≠ [] ∧ envKey (memoryProposal item) ∉ variants.map envKey

/-- The only attempt is replayed when it set something new. -/
theorem mem_replaysBehind_one {variants : List Proposal} {a item : ScoredAttempt} :
    item ∈ replaysBehind (variants.map envKey) ([a].filter fun x => x.attempt.envOverrides ≠ []) ↔
      item = a ∧ Sets variants a := by
  by_cases hempty : a.attempt.envOverrides = []
  · simp [replaysBehind, Sets, hempty]
  · by_cases hseen : envKey (memoryProposal a) ∈ variants.map envKey
    · rw [List.filter_cons_of_pos (by simpa using hempty), replaysBehind, if_pos hseen]
      simp [replaysBehind, Sets, hseen]
    · rw [List.filter_cons_of_pos (by simpa using hempty), replaysBehind, if_neg hseen]
      simp [replaysBehind, Sets, hseen, hempty]

theorem envKey_memoryProposal_eq_nil {a : ScoredAttempt} :
    envKey (memoryProposal a) = [] ↔ a.attempt.envOverrides = [] := by
  rw [envKey, ← List.length_eq_zero_iff, List.length_insertionSort, List.length_eq_zero_iff]
  rfl

/-- The second attempt is replayed when it set something new that the first did not set. -/
theorem mem_replaysBehind_two {variants : List Proposal} {a b item : ScoredAttempt} :
    item ∈ replaysBehind (variants.map envKey)
        ([a, b].filter fun x => x.attempt.envOverrides ≠ []) ↔
      item = a ∧ Sets variants a ∨
        item = b ∧ Sets variants b ∧ envKey (memoryProposal b) ≠ envKey (memoryProposal a) := by
  by_cases hempty : a.attempt.envOverrides = []
  · rw [List.filter_cons_of_neg (by simpa using hempty), mem_replaysBehind_one]
    have hkey := envKey_memoryProposal_eq_nil.mpr hempty
    have hb := envKey_memoryProposal_eq_nil (a := b)
    simp only [Sets, hempty, hkey]
    tauto
  · rw [List.filter_cons_of_pos (by simpa using hempty), replaysBehind]
    split_ifs with hseen
    · rw [mem_replaysBehind_one]
      have hnew : Sets variants b → envKey (memoryProposal b) ≠ envKey (memoryProposal a) :=
        fun hsets heq => hsets.2 (heq ▸ hseen)
      have hold : ¬Sets variants a := fun hsets => hsets.2 hseen
      tauto
    · have hnew : Sets variants a := ⟨hempty, hseen⟩
      rw [List.mem_cons, ← List.map_cons, mem_replaysBehind_one]
      simp only [Sets, List.map_cons, List.mem_cons, not_or]
      tauto

/-- Of the two best attempts, those that set something new have advanced. -/
structure BestSucceeded (variants : List Proposal) (retrieved : List ScoredAttempt) : Prop where
  first : ∀ a ∈ retrieved[0]?, Sets variants a → Succeeded a
  second : ∀ a ∈ retrieved[0]?, ∀ b ∈ retrieved[1]?, Sets variants b →
    envKey (memoryProposal b) ≠ envKey (memoryProposal a) → Succeeded b

/-- Every attempt that is replayed has advanced, exactly when those of the two best attempts have
that set something new. -/
theorem replays_succeeded_iff (lower : String → String) (hash : StringHash)
    (rows : List StrategyAttempt) (profile : FeatureProfile) (blockerType : String) (limit : ℕ) :
    let retrieved := retrieveSimilar lower hash rows profile blockerType limit
    (∀ item ∈ replays lower profile blockerType retrieved, Succeeded item) ↔
      BestSucceeded (variantProposals lower profile blockerType retrieved) retrieved := by
  intro retrieved
  rw [replays]
  set variants := variantProposals lower profile blockerType retrieved
  rcases retrieved with _ | ⟨a, _ | ⟨b, rest⟩⟩
  · exact iff_of_true (by simp [replaysBehind]) ⟨by simp, by simp⟩
  · have hone : List.take 2 [a] = [a] := rfl
    simp only [hone, mem_replaysBehind_one]
    constructor
    · intro h
      exact ⟨by simpa using h a, by simp⟩
    · rintro h item ⟨rfl, hsets⟩
      exact h.first item rfl hsets
  · have htwo : List.take 2 (a :: b :: rest) = [a, b] := rfl
    simp only [htwo, mem_replaysBehind_two]
    constructor
    · intro h
      refine ⟨?_, ?_⟩
      · rintro _ ⟨⟩ hsets
        exact h a (.inl ⟨rfl, hsets⟩)
      · rintro _ ⟨⟩ _ ⟨⟩ hsets hne
        exact h b (.inr ⟨rfl, hsets, hne⟩)
    · rintro h item (⟨rfl, hsets⟩ | ⟨rfl, hsets, hne⟩)
      · exact h.first item rfl hsets
      · exact h.second a rfl item rfl hsets hne

/-- A run of the artifact that took the variant for images, and did not help. -/
def discardedAttempt : StrategyAttempt where
  sessionId := "s"
  familyKey := "unknown:unknown"
  blockerType := "transport_blocker"
  strategyId := "unselected"
  proposalId := "images_first"
  featureTokens := []
  featureVector := []
  envOverrides := [("FORGEOS_SOURCE_SELECTION_MODE", "images_first")]
  decision := .discard
  advanced := false

/-- The memory holds nothing but the attempt, which is replayed as a success. -/
theorem discarded_replayed :
    let retrieved :=
      retrieveSimilar asciiLower (fun _ => 0) [discardedAttempt] plainDevice "transport_blocker" 3
    ⟨"memory_images_first", "Replay a historically successful proposal from strategy memory.",
        [("FORGEOS_SOURCE_SELECTION_MODE", "images_first")]⟩ ∈
      buildProposals asciiLower plainDevice "transport_blocker" retrieved ∧
      ¬∀ item ∈ replays asciiLower plainDevice "transport_blocker" retrieved, Succeeded item := by
  intro retrieved
  obtain ⟨similarity, hretrieved⟩ : ∃ n, retrieved = [⟨discardedAttempt, n⟩] := ⟨_, rfl⟩
  have hsets : Sets (variantProposals asciiLower plainDevice "transport_blocker" retrieved)
      ⟨discardedAttempt, similarity⟩ :=
    ⟨List.cons_ne_nil _ _, by
      simp [variantProposals, envKey, memoryProposal, baselineProposal, discardedAttempt]⟩
  have hmem : ⟨discardedAttempt, similarity⟩ ∈
      replays asciiLower plainDevice "transport_blocker" retrieved := by
    rw [replays, hretrieved]
    exact mem_replaysBehind_one.mpr ⟨rfl, hretrieved ▸ hsets⟩
  constructor
  · rw [buildProposals_eq]
    exact List.mem_append_right _ (List.mem_map.mpr ⟨_, hmem, rfl⟩)
  · exact fun h => Bool.false_ne_true (h _ hmem).1

end ForgeOS.Learning
