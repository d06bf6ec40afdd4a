import ForgeOS.Runtime.Blocker
import ForgeOS.Runtime.Workers

/-! `_try_gemma_resolution`: before a session waits for the operator, the local model
is asked what to do about the blocker, and its answer is carried out. -/

namespace ForgeOS.Runtime

open ForgeOS.Python ForgeOS.Flash

/-- The entries of the dictionary that the model replies with. -/
structure ModelReply where
  action : String := "ask_operator"
  tool : String := ""
  codename : Option String := none
  command : String := ""
  deriving DecidableEq, Repr

/-- How a command of the model ends. -/
inductive CommandEnd
  | finished | timedOut | notFound
  deriving DecidableEq, Repr

/-- What carrying out a reply depends on. -/
structure ReplyContext where
  /-- The question, and the model that it is put to. -/
  question : String := ""
  frontierModel : String := ""
  /-- The tools on the path before and after an installation. -/
  which : String → Bool
  whichAfter : String → Bool
  /-- The firmware downloader gets a file for the code name. -/
  downloads : String → Bool
  ends : List String → CommandEnd

/-- `_TOOL_MAP` with the commands of the three installers. -/
def installCommand (tool : String) : Option (List String) :=
  let apt (package : String) := some ["sudo", "apt-get", "install", "-y", package]
  match tool with
  | "adb" => apt "android-tools-adb"
  | "fastboot" => apt "android-tools-fastboot"
  | "heimdall" => apt "heimdall-flash"
  | "simg2img" => apt "android-tools-fstools"
  | "brotli" => apt "brotli"
  | "lz4" => apt "lz4"
  | "e2fsck" => apt "e2fsprogs"
  | "ollama" => some ["sudo", "snap", "install", "ollama"]
  | "goose" => some ["pip", "install", "--user", "goose-ai"]
  | _ => none

/-- `ToolInstaller.ensure` -/
def ensureTool (h : RuntimeHost) (x : ReplyContext) (tool : String) : List Launch × Bool :=
  if x.which tool then ([], true)
  else match installCommand tool with
    | none => ([], false)
    | some argv => ([h.start argv 0], decide ((h.exit argv 0).returncode = 0) && x.whichAfter tool)

/-- The command of the model is cut at white space and started as it is. -/
def runModelCommand (h : RuntimeHost) (x : ReplyContext) (command : String) : List Launch × Bool :=
  if strip command = "" then ([], false)
  else match x.ends (split command) with
    | .finished => ([h.start (split command) 0], true)
    | .timedOut => ([h.start (split command) 0], false)
    | .notFound => ([], false)

/-- What is done for a reply, and whether it counts as an action. -/
def carryOut (h : RuntimeHost) (x : ReplyContext) (codename : String) (reply : ModelReply) :
    List Launch × Bool :=
  match reply.action with
  | "install_tool" => if reply.tool = "" then ([], false) else ensureTool h x reply.tool
  | "download_firmware" =>
    let target := orText reply.codename codename
    ([], target ≠ "" && x.downloads target)
  | "run_command" => runModelCommand h x reply.command
  | _ => ([], false)

/-- `_try_gemma_resolution`. There is no reply when asking the model fails. -/
def tryGemmaResolution (h : RuntimeHost) (s : WorkerSetup) (x : ReplyContext) (codename : String)
    (reply : Option ModelReply) : List Launch × Bool :=
  let discovered := if x.which s.ollamaExecutable then [h.start [s.ollamaExecutable, "list"] 0] else []
  let asked := discovered ++ askPrograms h s x.frontierModel x.question
  match reply with
  | none => (asked, false)
  | some reply =>
    let done := carryOut h x codename reply
    (asked ++ done.1, done.2)

end ForgeOS.Runtime
