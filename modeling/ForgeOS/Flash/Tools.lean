import ForgeOS.Python.Text

/-! The wrappers around `adb`, `fastboot` and `heimdall`. The machine and the
device behind a tool are a `Host`: whether a tool is installed, whether its
program starts and how it exits may depend on every command issued before. A
command is issued when its program is started. -/

namespace ForgeOS.Flash

open ForgeOS.Python

inductive Tool
  | adb | fastboot | heimdall
  deriving DecidableEq, Repr

structure DeviceCommand where
  tool : Tool
  args : List String
  deriving DecidableEq, Repr

structure Exit where
  returncode : ℤ
  stdout : String := ""
  stderr : String := ""
  deriving DecidableEq, Repr

/-- The dictionary a wrapper returns. -/
structure CommandResult where
  ok : Bool
  reason : Option String := none
  stdout : String := ""
  stderr : String := ""
  returncode : Option ℤ := none
  deriving DecidableEq, Repr

structure Host where
  available : List DeviceCommand → Tool → Bool
  starts : List DeviceCommand → DeviceCommand → Bool
  exit : List DeviceCommand → DeviceCommand → Exit
  /-- The program ends within so many seconds. -/
  endsWithin : List DeviceCommand → DeviceCommand → ℕ → Bool

/-- A call ends with a dictionary or with an exception. -/
inductive Outcome
  | result (r : CommandResult)
  | raised (error : String)
  deriving DecidableEq, Repr

def Outcome.ok : Outcome → Bool
  | .result r => r.ok
  | .raised _ => false

def completed (e : Exit) : CommandResult where
  ok := e.returncode == 0
  stdout := strip e.stdout
  stderr := strip e.stderr
  returncode := some e.returncode

/-- `adb.run` and `fastboot.run`: no time limit, and a missing program raises. -/
def platformRun (h : Host) (log : List DeviceCommand) (tool : Tool) (missing : String)
    (args : List String) : List DeviceCommand × Outcome :=
  if h.available log tool then
    if h.starts log ⟨tool, args⟩ then
      ([⟨tool, args⟩], .result (completed (h.exit log ⟨tool, args⟩)))
    else ([], .raised "FileNotFoundError")
  else ([], .result { ok := false, reason := some missing })

def adbRun (h : Host) (log : List DeviceCommand) (args : List String) :=
  platformRun h log .adb "adb not available" args

def fastbootRun (h : Host) (log : List DeviceCommand) (args : List String) :=
  platformRun h log .fastboot "fastboot not available" args

/-- `heimdall._run` -/
def heimdallRun (h : Host) (log : List DeviceCommand) (args : List String) (timeout : ℕ) :
    List DeviceCommand × Outcome :=
  let c : DeviceCommand := ⟨.heimdall, args⟩
  if h.available log .heimdall then
    if h.starts log c then
      if h.endsWithin log c timeout then ([c], .result (completed (h.exit log c)))
      else ([c], .result
        { ok := false, reason := some s!"heimdall timed out after {timeout}s",
          returncode := some (-1) })
    else ([], .result
      { ok := false, reason := some "heimdall binary not found", returncode := some (-1) })
  else ([], .result
    { ok := false, reason := some "heimdall not installed — run ToolInstaller().ensure('heimdall')" })

/-- What a step of the executor comes down to: an answer made up on the host, an
exception, or one call of a wrapper. -/
inductive StepAction
  | reply (r : CommandResult)
  | raise (error : String)
  | adb (args : List String)
  | fastboot (args : List String)
  | heimdall (args : List String) (timeout : ℕ)
  deriving DecidableEq, Repr

def StepAction.perform (h : Host) (log : List DeviceCommand) :
    StepAction → List DeviceCommand × Outcome
  | .reply r => ([], .result r)
  | .raise e => ([], .raised e)
  | .adb args => adbRun h log args
  | .fastboot args => fastbootRun h log args
  | .heimdall args timeout => heimdallRun h log args timeout

/-- The command an action stands for, if it calls a tool at all. -/
def StepAction.command? : StepAction → Option DeviceCommand
  | .reply _ | .raise _ => none
  | .adb args => some ⟨.adb, args⟩
  | .fastboot args => some ⟨.fastboot, args⟩
  | .heimdall args _ => some ⟨.heimdall, args⟩

/-- The program of a command is installed and starts. -/
def Host.issues (h : Host) (log : List DeviceCommand) (c : DeviceCommand) : Bool :=
  h.available log c.tool && h.starts log c

theorem platformRun_sent (h : Host) (log : List DeviceCommand) (tool : Tool) (missing : String)
    (args : List String) :
    (platformRun h log tool missing args).1 = [⟨tool, args⟩].filter (h.issues log) := by
  unfold platformRun
  split_ifs with ha hs
  · simp [Host.issues, ha, hs]
  · simp [Host.issues, hs]
  · simp [Host.issues, ha]

theorem heimdallRun_sent (h : Host) (log : List DeviceCommand) (args : List String) (timeout : ℕ) :
    (heimdallRun h log args timeout).1 = [⟨.heimdall, args⟩].filter (h.issues log) := by
  simp only [heimdallRun]
  split_ifs with ha hs
  · simp [Host.issues, ha, hs]
  · simp [Host.issues, ha, hs]
  · simp [Host.issues, hs]
  · simp [Host.issues, ha]

/-- An action issues its own command, once, or nothing. -/
theorem StepAction.perform_sent (h : Host) (log : List DeviceCommand) (a : StepAction) :
    (a.perform h log).1 = a.command?.toList.filter (h.issues log) := by
  cases a with
  | reply r => rfl
  | raise e => rfl
  | adb args => exact platformRun_sent h log .adb _ args
  | fastboot args => exact platformRun_sent h log .fastboot _ args
  | heimdall args timeout => exact heimdallRun_sent h log args timeout

theorem StepAction.perform_sent_length (h : Host) (log : List DeviceCommand) (a : StepAction) :
    (a.perform h log).1.length ≤ 1 := by
  rw [perform_sent]
  refine (List.length_filter_le _ _).trans ?_
  cases a.command? <;> simp

/-- A host with every tool installed and every command exiting with 0. -/
def Host.obliging : Host where
  available _ _ := true
  starts _ _ := true
  exit _ _ := { returncode := 0 }
  endsWithin _ _ _ := true

end ForgeOS.Flash
