import ForgeOS.Library.Containment
import ForgeOS.Models
import ForgeOS.Python.Text

/-! `PolicyGuard.evaluate_self_improvement_gate`: which files the self-improvement loop may
write, and when its budgets are used up. Paths are compared as texts, behind
`Path.resolve`, which follows the links of the file system and is an argument. -/

namespace ForgeOS.Learning

open ForgeOS.Python ForgeOS.Library.Words ForgeOS.Library.Containment

/-- The limits that the policy sets to the self-improvement loop. -/
structure LoopPolicy where
  maxApiTokensPerSession : ℕ := 50000
  maxExperimentLoopIterations : ℕ := 20
  selfModificationScope : List String := ["devices/*/runtime", "knowledge"]
  deriving DecidableEq, Repr

/-! ### Resolved paths -/

/-- An absolute path without links, dots or empty components. -/
abbrev ResolvedPath := List {s : String // IsFileName s}

def ResolvedPath.components (path : ResolvedPath) : List (List Char) := path.map fun s => s.val.toList

/-- `str(path)` -/
def ResolvedPath.text (path : ResolvedPath) : String :=
  if path = [] then "/" else String.ofList (spell '/' path.components)

/-- `dir / name`: an absolute name replaces the directory. -/
def pathDiv (dir name : String) : String :=
  if startsWith name "/" then pathStr name else join dir name

/-! ### Scopes -/

/-- Where a check takes place: the appliance's root, the session, and the links that
`resolve` follows. -/
structure Premises where
  root : String
  sessionDir : String
  resolve : String → ResolvedPath

variable (g : Premises)

def Premises.runtimeDir : ResolvedPath := g.resolve (pathDiv g.sessionDir "runtime")

def Premises.knowledgeDir : ResolvedPath := g.resolve (pathDiv g.root "knowledge")

/-- The directory of a scope that ends in `*`. -/
def Premises.starredDir (scope : String) : ResolvedPath :=
  g.resolve (pathDiv g.root (removeSuffix scope "*"))

/-- The scope allows the path with the text. -/
def Premises.scopeAllows (normalized scope : String) : Bool :=
  (scope = "knowledge" && startsWith normalized g.knowledgeDir.text) ||
    (scope = "devices/*/runtime" && startsWith normalized g.runtimeDir.text) ||
    (endsWith scope "*" && startsWith normalized (g.starredDir scope).text)

/-- `_path_allowed` -/
def Premises.pathAllowed (target : String) (allowedScopes : List String) : Bool :=
  allowedScopes.any (g.scopeAllows (g.resolve target).text)

/-- `evaluate_self_improvement_gate` -/
def Premises.selfImprovementGate (policy : LoopPolicy) (estimatedTokensUsed iterationCount : ℕ)
    (proposedPaths : List String) : ApprovalGate :=
  let missing :=
    (proposedPaths.filter fun path => !g.pathAllowed path policy.selfModificationScope).map
        (fun path => "Self-modification path is outside policy scope: " ++ path) ++
      (if policy.maxApiTokensPerSession ≤ estimatedTokensUsed then
        ["Session token budget for autonomous experiments has been exhausted."]
      else []) ++
      if policy.maxExperimentLoopIterations ≤ iterationCount then
        ["Autonomous experiment loop iteration budget has been exhausted."]
      else []
  { action := "self_improvement_loop"
    allowed := missing = []
    requiresExplicitApproval := false
    reason :=
      if missing = [] then "Self-improvement loop may continue within policy limits."
      else "Self-improvement loop is blocked by governance policy."
    missingRequirements := missing
    consequences :=
      ["Generated remediation variants remain session-local until validated.",
        "Policy limits override optimization when cost or scope boundaries are crossed."] }

/-- The gate lets a proposal pass when its paths are allowed and both budgets last. -/
theorem selfImprovementGate_allowed_iff (policy : LoopPolicy) (tokens count : ℕ)
    (paths : List String) :
    (g.selfImprovementGate policy tokens count paths).allowed = true ↔
      (∀ path ∈ paths, g.pathAllowed path policy.selfModificationScope = true) ∧
        tokens < policy.maxApiTokensPerSession ∧ count < policy.maxExperimentLoopIterations := by
  simp only [Premises.selfImprovementGate, decide_eq_true_eq, List.append_eq_nil_iff,
    List.map_eq_nil_iff, List.filter_eq_nil_iff, Bool.not_eq_true', Bool.not_eq_false,
    ite_eq_right_iff, List.cons_ne_nil, imp_false, Nat.not_le, and_assoc]

/-! ### Containment -/

/-- The directories that a scope names. -/
def Premises.scopeDirs (scope : String) : List ResolvedPath :=
  (if scope = "knowledge" then [g.knowledgeDir] else []) ++
    (if scope = "devices/*/runtime" then [g.runtimeDir] else []) ++
    if endsWith scope "*" then [g.starredDir scope] else []

/-- The path is a directory of one of the scopes, or lies below it. -/
def Premises.Contained (target : String) (allowedScopes : List String) : Prop :=
  ∃ scope ∈ allowedScopes, ∃ dir ∈ g.scopeDirs scope, dir <+: g.resolve target

/-- The path goes through a sibling of a directory of one of the scopes, and the name of the
sibling begins with the name of the directory. -/
def Premises.BesideScope (target : String) (allowedScopes : List String) : Prop :=
  ∃ scope ∈ allowedScopes, ∃ dir ∈ g.scopeDirs scope,
    Beside dir.components (g.resolve target).components

instance (target : String) (allowedScopes : List String) :
    Decidable (g.Contained target allowedScopes) := by
  unfold Premises.Contained
  infer_instance

theorem clean_components (path : ResolvedPath) : ∀ w ∈ path.components, Clean (· == '/') w := by
  intro w hw
  obtain ⟨s, -, rfl⟩ := List.mem_map.mp hw
  intro c hc
  rw [beq_eq_false_iff_ne]
  rintro rfl
  exact s.property.2.2.2 hc

theorem components_prefix_iff {dir path : ResolvedPath} :
    dir.components <+: path.components ↔ dir <+: path := by
  have hinj : Function.Injective fun s : {s : String // IsFileName s} => s.val.toList :=
    fun s t h => Subtype.ext (String.toList_inj.mp h)
  constructor
  · rintro ⟨rest, hrest⟩
    obtain ⟨front, back, rfl, hfront, -⟩ := List.map_eq_append_iff.mp hrest.symm
    rw [(List.map_injective_iff.mpr hinj) hfront]
    exact List.prefix_append _ _
  · exact fun h => h.map _

theorem toList_text {path : ResolvedPath} (h : path ≠ []) :
    path.text.toList = spell '/' path.components := by
  rw [ResolvedPath.text, if_neg h, String.toList_ofList]

/-- The text of a path begins with the text of a directory exactly when the path is in the
directory or beside it. -/
theorem startsWith_text_iff (dir path : ResolvedPath) :
    startsWith path.text dir.text = true ↔
      dir <+: path ∨ Beside dir.components path.components := by
  have hsplit := spell_prefix_iff '/' (by decide) (clean_components dir) (clean_components path)
  rw [components_prefix_iff] at hsplit
  rw [startsWith, List.isPrefixOf_iff_prefix]
  by_cases hdir : dir = []
  · -- every text begins with a slash
    subst hdir
    have hslash : ['/'] <+: path.text.toList := by
      by_cases hpath : path = []
      · rw [hpath]
        exact List.prefix_rfl
      · obtain ⟨s, rest, rfl⟩ := List.exists_cons_of_ne_nil hpath
        rw [toList_text hpath, ResolvedPath.components, List.map_cons, spell_cons]
        exact List.cons_prefix_cons.mpr ⟨rfl, List.nil_prefix⟩
    exact iff_of_true hslash (.inl List.nil_prefix)
  · by_cases hpath : path = []
    · subst hpath
      obtain ⟨s, rest, rfl⟩ := List.exists_cons_of_ne_nil hdir
      obtain ⟨c, cs, hs⟩ := List.exists_cons_of_ne_nil
        (fun h => s.property.1 (String.toList_inj.mp h) : s.val.toList ≠ [])
      have hshort : ¬(ResolvedPath.text (s :: rest)).toList <+: (ResolvedPath.text []).toList := by
        intro h
        rw [toList_text hdir, ResolvedPath.components, List.map_cons, spell_cons, hs] at h
        have hlen := h.length_le
        simp [ResolvedPath.text] at hlen
      refine iff_of_false hshort ?_
      rintro (h | ⟨front, w, u, tail, -, h, -⟩)
      · exact hdir (List.prefix_nil.mp h)
      · exact absurd h.symm (by simp [ResolvedPath.components])
    · rw [toList_text hdir, toList_text hpath]
      exact hsplit

theorem scopeAllows_iff (path : ResolvedPath) (scope : String) :
    g.scopeAllows path.text scope = true ↔
      ∃ dir ∈ g.scopeDirs scope, dir <+: path ∨ Beside dir.components path.components := by
  have hstart : ∀ dir : ResolvedPath, startsWith path.text dir.text = true ↔
      dir <+: path ∨ Beside dir.components path.components := fun dir => startsWith_text_iff dir path
  rw [Premises.scopeAllows, Premises.scopeDirs]
  simp only [Bool.or_eq_true, Bool.and_eq_true, decide_eq_true_eq, hstart, List.mem_append,
    List.mem_ite_nil_right, List.mem_singleton]
  constructor
  · rintro ((⟨hs, h⟩ | ⟨hs, h⟩) | ⟨hs, h⟩)
    · exact ⟨_, .inl (.inl ⟨hs, rfl⟩), h⟩
    · exact ⟨_, .inl (.inr ⟨hs, rfl⟩), h⟩
    · exact ⟨_, .inr ⟨hs, rfl⟩, h⟩
  · rintro ⟨dir, (⟨hs, rfl⟩ | ⟨hs, rfl⟩) | ⟨hs, rfl⟩, h⟩
    · exact .inl (.inl ⟨hs, h⟩)
    · exact .inl (.inr ⟨hs, h⟩)
    · exact .inr ⟨hs, h⟩

theorem pathAllowed_iff (target : String) (allowedScopes : List String) :
    g.pathAllowed target allowedScopes = true ↔
      g.Contained target allowedScopes ∨ g.BesideScope target allowedScopes := by
  rw [Premises.pathAllowed, List.any_eq_true]
  simp only [scopeAllows_iff, Premises.Contained, Premises.BesideScope]
  constructor
  · rintro ⟨scope, hscope, dir, hdir, h | h⟩
    · exact .inl ⟨scope, hscope, dir, hdir, h⟩
    · exact .inr ⟨scope, hscope, dir, hdir, h⟩
  · rintro (⟨scope, hscope, dir, hdir, h⟩ | ⟨scope, hscope, dir, hdir, h⟩)
    · exact ⟨scope, hscope, dir, hdir, .inl h⟩
    · exact ⟨scope, hscope, dir, hdir, .inr h⟩

/-- The answer is containment exactly when the path does not lie beside a directory of the
scopes without lying in another one. -/
theorem pathAllowed_contained_iff (target : String) (allowedScopes : List String) :
    (g.pathAllowed target allowedScopes = true ↔ g.Contained target allowedScopes) ↔
      (g.BesideScope target allowedScopes → g.Contained target allowedScopes) := by
  rw [pathAllowed_iff]
  exact or_iff_left_iff_imp

/-- A host without links whose resolved paths are the components of the text. -/
def plainPremises : Premises where
  root := "/forge"
  sessionDir := "/forge/devices/pixel"
  resolve text := (parts text).filterMap fun cs =>
    if h : IsFileName (String.ofList cs) then some ⟨String.ofList cs, h⟩ else none

/-- A sibling of the knowledge directory is in scope. -/
theorem sibling_allowed :
    plainPremises.pathAllowed "/forge/knowledge-backup/loop.json" ["devices/*/runtime", "knowledge"] =
        true ∧
      ¬plainPremises.Contained "/forge/knowledge-backup/loop.json"
        ["devices/*/runtime", "knowledge"] := by
  decide

end ForgeOS.Learning
