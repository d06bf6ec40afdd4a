import ForgeOS.Runtime.Host

/-! `WorkerRouter`, `WorkerRuntime` and the self-heal loop of the orchestrator: which
programs are started for the tasks of a cycle. A task goes to a local agent, to a
local editor or to the frontier path, whose worker is a script that the local model
writes for the task. -/

namespace ForgeOS.Runtime

open ForgeOS.Python ForgeOS.Flash

/-! ### Tasks and routes -/

inductive WorkerRole
  | frontierArchitect | localGeneral | localEditor | policyGuard
  deriving DecidableEq, Repr

inductive WorkerTier
  | frontier | local | deterministic
  deriving DecidableEq, Repr

def WorkerRole.tier : WorkerRole → WorkerTier
  | frontierArchitect => .frontier
  | localGeneral => .local
  | localEditor => .local
  | policyGuard => .deterministic

inductive TaskRisk
  | low | medium | high | critical
  deriving DecidableEq, Repr

structure WorkerTask where
  taskType : String
  summary : String
  prompt : String := ""
  risk : TaskRisk := .low
  needsRepoEdit : Bool := false
  architectureLevel : Bool := false
  repetitive : Bool := false
  localRetryCount : ℕ := 0
  retryBudget : ℕ := 1
  targetFiles : List String := []
  deriving DecidableEq, Repr

/-- `task.prompt or task.summary` -/
def WorkerTask.text (t : WorkerTask) : String := orText (some t.prompt) t.summary

/-- The workers of the host and the local model behind them. -/
structure WorkerSetup where
  sessionDir : String
  ollamaExecutable : String := "ollama"
  gooseExecutable : String := "goose"
  gooseProvider : String := "ollama"
  aiderExecutable : String := "aider"
  ollamaAvailable : Bool
  gooseReady : Bool
  aiderReady : Bool
  codexAvailable : Bool
  /-- The model that the model router selects for a task. -/
  selectModel : WorkerTask → String
  /-- The name of the script with the code that the model wrote for a task, if it did. -/
  frontierScript : WorkerTask → Option String
  /-- The local model answers over HTTP, and its answer to a task says something. -/
  httpAnswers : Bool
  modelReplies : WorkerTask → Bool
  /-- The texts with which the self-heal loop describes failures. -/
  healPrompt : ℕ → String
  failureSummary : WorkerTask → String
  /-- `granted_extra_loops - consumed_extra_loops`, at least 0. -/
  extraLoops : ℕ := 0

def WorkerSetup.available (s : WorkerSetup) : WorkerRole → Bool
  | .localGeneral => s.gooseReady
  | .localEditor => s.aiderReady
  | .frontierArchitect => s.codexAvailable
  | .policyGuard => true

def fallbackRole : WorkerRole → Option WorkerRole
  | .localGeneral => some .frontierArchitect
  | .localEditor => some .frontierArchitect
  | .frontierArchitect => none
  | .policyGuard => none

/-- `WorkerRouter._decision`, as to the worker selected. -/
def decision (s : WorkerSetup) (role : WorkerRole) : WorkerRole :=
  if s.available role then role else (fallbackRole role).getD role

/-- `WorkerRouter.route` -/
def route (s : WorkerSetup) (task : WorkerTask) : WorkerRole :=
  if task.architectureLevel ∨ task.risk = .high ∨ task.risk = .critical then
    decision s .frontierArchitect
  else if task.needsRepoEdit then decision s .localEditor
  else if 2 ≤ task.localRetryCount then decision s .frontierArchitect
  else decision s .localGeneral

/-! ### Command lines -/

def ollamaCommand (s : WorkerSetup) (model text : String) : List String :=
  [s.ollamaExecutable, "run", model, text, "--format", "json", "--hidethinking"]

def gooseCommand (s : WorkerSetup) (model text : String) : List String :=
  [s.gooseExecutable, "run", "--text", text, "--no-session", "--quiet", "--output-format", "json",
    "--provider", s.gooseProvider, "--model", model]

/-- `ModelSelection.aider_model` -/
def aiderModel (model : String) : String :=
  if ["ollama/", "ollama_chat/", "openai/", "anthropic/"].any (startsWith model) then model
  else "ollama_chat/" ++ model

def aiderCommand (s : WorkerSetup) (model : String) (task : WorkerTask) : List String :=
  [s.aiderExecutable, "--message", task.text, "--yes-always", "--no-auto-commits", "--no-pretty",
    "--no-stream", "--map-tokens", "0", "--no-show-release-notes", "--no-check-update",
    "--input-history-file", s.sessionDir ++ "/runtime/.aider.input.history",
    "--chat-history-file", s.sessionDir ++ "/runtime/.aider.chat.history.md",
    "--llm-history-file", s.sessionDir ++ "/runtime/.aider.llm.history.log", "--model", model] ++
    task.targetFiles.flatMap fun target => ["--file", target]

/-! ### Executions -/

structure WorkerExecution where
  launched : List Launch := []
  status : String
  repeatedFailure : Bool := false
  deriving DecidableEq, Repr

/-- The attempts of `_run_adapter`: up to the first that succeeds with some output. -/
def attempts (h : RuntimeHost) (command : List String) : ℕ → ℕ → List (Launch × Exit)
  | _, 0 => []
  | n, budget + 1 =>
    let e := h.exit command n
    (h.start command n, e) ::
      if e.returncode = 0 ∧ strip e.stdout ≠ "" then [] else attempts h command (n + 1) budget

/-- `_run_adapter`, with `n` starts of the command line before. -/
def runAdapter (h : RuntimeHost) (command : List String) (task : WorkerTask) (n : ℕ) :
    WorkerExecution :=
  let done := attempts h command n (max 1 task.retryBudget)
  let outputs := done.map fun a => strip a.2.stdout
  let failed : Bool := done.getLast?.any fun a => a.2.returncode ≠ 0
  { launched := done.map Prod.fst
    status := if failed then "failed" else "completed"
    repeatedFailure := outputs.all (· = outputs.headD "") && 1 < done.length && failed }

/-- `_run_local_general` -/
def runLocalGeneral (h : RuntimeHost) (s : WorkerSetup) (task : WorkerTask) : WorkerExecution :=
  let model := s.selectModel task
  let helped : Bool := (task.repetitive || task.risk = .low) && s.ollamaAvailable
  let helper := runAdapter h (ollamaCommand s model task.text) task 0
  let before := if helped then helper.launched else []
  -- a helper that exits with 0 scores at least 0.55, whatever it printed
  if helped ∧ helper.status = "completed" then helper
  else if s.gooseReady then
    let goose := runAdapter h (gooseCommand s model task.text) task 0
    { goose with launched := before ++ goose.launched }
  else if s.ollamaAvailable then
    let again := runAdapter h (ollamaCommand s model task.text) task before.length
    { again with launched := before ++ again.launched }
  else { launched := before, status := "unavailable" }

/-- The start of `ollama` when `GemmaEngine.ask` finds no model behind HTTP. -/
def askPrograms (h : RuntimeHost) (s : WorkerSetup) (model text : String) : List Launch :=
  if s.httpAnswers then []
  else [h.start ["ollama", "run", model, text, "--format", "json", "--hidethinking"] 0]

/-- `_run_gemma_frontier`: the code that the model writes is run. -/
def runGemmaFrontier (h : RuntimeHost) (s : WorkerSetup) (task : WorkerTask) : WorkerExecution :=
  match s.frontierScript task with
  | some name => runAdapter h ["python3", s.sessionDir ++ "/runtime/" ++ name] task 0
  | none =>
    { launched := askPrograms h s (s.selectModel task) task.text
      status := if s.modelReplies task then "completed" else "failed" }

/-- `WorkerRuntime.execute` -/
def executeWorker (h : RuntimeHost) (s : WorkerSetup) (role : WorkerRole) (task : WorkerTask) :
    WorkerExecution :=
  match role with
  | .policyGuard => { status := "deterministic" }
  | .localGeneral => runLocalGeneral h s task
  | .localEditor => runAdapter h (aiderCommand s (aiderModel (s.selectModel task)) task) task 0
  | .frontierArchitect => runGemmaFrontier h s task

def executeRouted (h : RuntimeHost) (s : WorkerSetup) (task : WorkerTask) : WorkerExecution :=
  executeWorker h s (route s task) task

/-! ### The self-heal loop -/

def selfHealTask (s : WorkerSetup) (round : ℕ) : WorkerTask where
  taskType := "worker_self_heal"
  summary := "Diagnose and repair repeated local worker failures in the ForgeOS runtime."
  prompt := s.healPrompt round
  risk := .medium
  needsRepoEdit := true
  repetitive := true
  targetFiles :=
    ["app/core/orchestrator.py", "app/core/runtime_workers.py", "app/core/retry_planner.py"]

def retryTask (s : WorkerSetup) (round : ℕ) (task : WorkerTask) : WorkerTask :=
  { task with
    localRetryCount := task.localRetryCount + 1 + round
    retryBudget := 1
    repetitive := true
    prompt := task.text ++ "\n\nRetry after a local self-heal remediation pass. " ++
      "Previous failure summary: " ++ s.failureSummary task }

/-- The rounds of `_run_local_worker_fix_loop`: a repair, then a retry of every task
that still fails. -/
def fixRounds (h : RuntimeHost) (s : WorkerSetup) : ℕ → ℕ → List WorkerTask → List Launch
  | 0, _, _ => []
  | rounds + 1, round, remaining =>
    let retries := remaining.map (retryTask s round)
    let rest := retries.filter fun t => (executeRouted h s t).status ≠ "completed"
    (executeRouted h s (selfHealTask s round)).launched ++
      (retries.flatMap fun t => (executeRouted h s t).launched) ++
      if rest = [] then [] else fixRounds h s rounds (round + 1) rest

def defaultSelfHealRounds : ℕ := 3

/-- The local tasks that failed. -/
def failing (h : RuntimeHost) (s : WorkerSetup) (tasks : List WorkerTask) : List WorkerTask :=
  tasks.filter fun t =>
    (route s t).tier = .local ∧
      ((executeRouted h s t).status ∈ ["failed", "unavailable"] ∨
        (executeRouted h s t).repeatedFailure)

/-- The programs that the tasks of a cycle start, the self-heal loop included. -/
def runTasks (h : RuntimeHost) (s : WorkerSetup) (tasks : List WorkerTask) : List Launch :=
  (tasks.flatMap fun t => (executeRouted h s t).launched) ++
    if failing h s tasks = [] then []
    else fixRounds h s (defaultSelfHealRounds + s.extraLoops) 0 ((failing h s tasks).take 3)

/-! ### The code's own device queries -/

section Queries

variable (h : RuntimeHost)

def adbRun (args : List String) : List Launch := if h.adb then [.tool ⟨.adb, args⟩] else []

def fastbootRun (args : List String) : List Launch :=
  if h.fastboot then [.tool ⟨.fastboot, args⟩] else []

/-- `adb.shell` -/
def adbShell (serial : String) (command : List String) : List Launch :=
  adbRun h (["-s", serial, "shell"] ++ command)

/-- `adb.list_devices` and `adb.raw_devices` -/
def listAdb : List Launch := adbRun h ["devices", "-l"]

/-- `fastboot.getvar_all` -/
def getvarAll (serial : String) : List Launch :=
  fastbootRun h ((if serial ≠ "" then ["-s", serial] else []) ++ ["getvar", "all"])

/-- `fastboot.list_devices`, which describes each device that it lists. -/
def listFastboot (serials : List String) : List Launch :=
  fastbootRun h ["devices"] ++ if h.fastboot then serials.flatMap (getvarAll h) else []

def getprops (serial : String) (keys : List String) : List Launch :=
  keys.flatMap fun key => adbShell h serial ["getprop", key]

/-- `adb.describe_device` -/
def describeDevice (serial : String) : List Launch :=
  getprops h serial
    ["ro.product.manufacturer", "ro.product.model", "ro.build.version.release", "ro.product.device"]

/-- `adb.hardware_snapshot` -/
def hardwareSnapshot (serial : String) : List Launch :=
  getprops h serial
    ["ro.product.board", "ro.hardware", "ro.product.cpu.abi", "ro.build.fingerprint", "ro.build.id",
      "ro.build.characteristics", "ro.product.name", "ro.product.device",
      "ro.build.version.security_patch", "ro.boot.slot_suffix", "ro.bootloader",
      "ro.boot.verifiedbootstate", "ro.boot.dynamic_partitions", "ro.boot.warranty_bit",
      "ro.boot.flash.locked"] ++
    adbShell h serial ["dumpsys", "battery"]

/-- `BackupAndRestorePlannerTool.run`, as to the device. -/
def captureBackup (transport : Transport) (serial : String) : List Launch :=
  if transport = .usbAdb ∧ serial ≠ "" ∧ serial ≠ "unknown-serial" then
    [["getprop"], ["pm", "list", "packages"], ["dumpsys", "battery"], ["settings", "list", "secure"],
      ["settings", "list", "global"], ["settings", "list", "system"]].flatMap (adbShell h serial)
  else []

/-- `VerificationPipeline.execute`, as to the device. -/
def verifyTransports : List Launch :=
  listAdb h ++ listAdb h ++ listFastboot h h.fastbootSerials ++
    match h.adb, h.adbSerials with
    | true, serial :: _ =>
      adbShell h serial ["getprop", "ro.build.fingerprint"] ++ adbShell h serial ["dumpsys", "battery"]
    | _, _ => []

/-- The probe of a generated device adapter, which may find its model at once. -/
def adapterProbe (transport : Transport) (found : Bool) : List Launch :=
  match transport with
  | .usbAdb | .usbRecovery => listAdb h ++ if found then [] else listAdb h
  | .usbFastboot | .usbFastbootd => listFastboot h h.fastbootSerials
  | _ => []

/-- The queries of the remediation artifact that the repository has a template for. The
one for missing sources ends before it describes the device. -/
def artifactQueries (source : Bool) : List Launch :=
  listAdb h ++ listAdb h ++ listFastboot h h.fastbootSerials ++ listFastboot h h.fastbootdSerials ++
    listAdb h ++ fastbootRun h ["devices"] ++ listFastboot h h.fastbootSerials ++
    (if h.fastboot then (h.fastbootSerials.take 1).flatMap (getvarAll h) else []) ++
    match h.adb, h.adbSerials with
    | true, serial :: _ =>
      getprops h serial
          ["ro.boot.slot_suffix", "ro.boot.dynamic_partitions", "ro.build.ab_update",
            "ro.product.cpu.abi", "ro.board.platform", "ro.hardware", "ro.build.fingerprint"] ++
        adbShell h serial ["ls -1 /dev/block/by-name 2>/dev/null | head -n 128"] ++
        adbShell h serial ["cat /proc/mounts | head -n 64"] ++
        if source then [] else describeDevice h serial
    | _, _ => []

/-! ### They only ask -/

theorem issues_adbRun {args : List String} (hargs : IsQuery ⟨.adb, args⟩) :
    Issues IsQuery (adbRun h args) := by
  rw [adbRun]
  split_ifs
  · simpa [Issues, issuedBy, Launch.issued] using hargs
  · exact issues_nil

theorem issues_fastbootRun {args : List String} (hargs : IsQuery ⟨.fastboot, args⟩) :
    Issues IsQuery (fastbootRun h args) := by
  rw [fastbootRun]
  split_ifs
  · simpa [Issues, issuedBy, Launch.issued] using hargs
  · exact issues_nil

theorem issues_adbShell {serial : String} {command : List String} (hcommand : command ∈ shellQueries) :
    Issues IsQuery (adbShell h serial command) := issues_adbRun h (.shell serial hcommand)

theorem issues_listAdb : Issues IsQuery (listAdb h) := issues_adbRun h .adbDevices

theorem issues_getvarAll (serial : String) : Issues IsQuery (getvarAll h serial) := by
  refine issues_fastbootRun h ?_
  split_ifs
  · exact .getvarAllOf serial
  · exact .getvarAll

theorem issues_listFastboot (serials : List String) : Issues IsQuery (listFastboot h serials) := by
  rw [listFastboot, issues_append]
  refine ⟨issues_fastbootRun h .fastbootDevices, ?_⟩
  split_ifs
  · exact issues_flatMap.mpr fun serial _ => issues_getvarAll h serial
  · exact issues_nil

theorem issues_getprops (serial : String) {keys : List String} (hkeys : keys ⊆ queriedProperties) :
    Issues IsQuery (getprops h serial keys) :=
  issues_flatMap.mpr fun _ hkey => issues_adbRun h (.getprop serial (hkeys hkey))

theorem issues_describeDevice (serial : String) : Issues IsQuery (describeDevice h serial) :=
  issues_getprops h serial (by decide)

theorem issues_hardwareSnapshot (serial : String) : Issues IsQuery (hardwareSnapshot h serial) := by
  rw [hardwareSnapshot, issues_append]
  exact ⟨issues_getprops h serial (by decide), issues_adbShell h (by decide)⟩

theorem issues_captureBackup (transport : Transport) (serial : String) :
    Issues IsQuery (captureBackup h transport serial) := by
  have hcommands : [["getprop"], ["pm", "list", "packages"], ["dumpsys", "battery"],
      ["settings", "list", "secure"], ["settings", "list", "global"], ["settings", "list", "system"]] ⊆
        shellQueries := by decide
  rw [captureBackup]
  split_ifs
  · exact issues_flatMap.mpr fun command hcommand => issues_adbShell h (hcommands hcommand)
  · exact issues_nil

theorem issues_verifyTransports : Issues IsQuery (verifyTransports h) := by
  rw [verifyTransports, issues_append, issues_append, issues_append]
  refine ⟨⟨⟨issues_listAdb h, issues_listAdb h⟩, issues_listFastboot h _⟩, ?_⟩
  split
  · rename_i serial _ _ _
    have hfingerprint : Issues IsQuery (adbShell h serial ["getprop", "ro.build.fingerprint"]) :=
      issues_adbRun h (.getprop serial (by decide))
    exact issues_append.mpr ⟨hfingerprint, issues_adbShell h (by decide)⟩
  · exact issues_nil

theorem issues_adapterProbe (transport : Transport) (found : Bool) :
    Issues IsQuery (adapterProbe h transport found) := by
  have hadb : Issues IsQuery (listAdb h ++ if found then [] else listAdb h) := by
    refine issues_append.mpr ⟨issues_listAdb h, ?_⟩
    split_ifs
    · exact issues_nil
    · exact issues_listAdb h
  cases transport with
  | usbAdb => exact hadb
  | usbRecovery => exact hadb
  | usbFastboot => exact issues_listFastboot h _
  | usbFastbootd => exact issues_listFastboot h _
  | usbMtp => exact issues_nil
  | unknown => exact issues_nil

theorem issues_artifactQueries (source : Bool) : Issues IsQuery (artifactQueries h source) := by
  have hlist : Issues IsQuery (listAdb h ++ listAdb h ++ listFastboot h h.fastbootSerials ++
      listFastboot h h.fastbootdSerials ++ listAdb h ++ fastbootRun h ["devices"] ++
      listFastboot h h.fastbootSerials) := by
    simp only [issues_append]
    exact ⟨⟨⟨⟨⟨⟨issues_listAdb h, issues_listAdb h⟩, issues_listFastboot h _⟩,
      issues_listFastboot h _⟩, issues_listAdb h⟩, issues_fastbootRun h .fastbootDevices⟩,
      issues_listFastboot h _⟩
  rw [artifactQueries, issues_append, issues_append]
  refine ⟨⟨hlist, ?_⟩, ?_⟩
  · split_ifs
    · exact issues_flatMap.mpr fun serial _ => issues_getvarAll h serial
    · exact issues_nil
  · split
    · simp only [issues_append]
      refine ⟨⟨⟨issues_getprops h _ (by decide), issues_adbShell h (by decide)⟩,
        issues_adbShell h (by decide)⟩, ?_⟩
      split_ifs
      · exact issues_nil
      · exact issues_describeDevice h _
    · exact issues_nil

end Queries

end ForgeOS.Runtime
