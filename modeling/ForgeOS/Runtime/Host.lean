import ForgeOS.Flash.Tools
import ForgeOS.Models

/-! The machine a runtime cycle works on. The cycle starts `adb` and `fastboot`
with arguments of its own, and it starts other programs: worker agents, scripts
that a model wrote, commands of the operator. What such a program sends to a
device is up to the program, so here it is a function of how it was started. -/

namespace ForgeOS.Runtime

open ForgeOS.Python ForgeOS.Flash

/-- A program that was started: a platform tool with its arguments, or another
program with what it sent to devices. -/
inductive Launch
  | tool (c : DeviceCommand)
  | program (argv : List String) (sent : List DeviceCommand)
  deriving DecidableEq, Repr

/-- The device commands behind a start. -/
def Launch.issued : Launch → List DeviceCommand
  | tool c => [c]
  | program _ sent => sent

def issuedBy (ls : List Launch) : List DeviceCommand := ls.flatMap Launch.issued

/-- The properties that the code itself reads of a device. -/
def queriedProperties : List String :=
  ["ro.product.manufacturer", "ro.product.model", "ro.build.version.release", "ro.product.device",
    "ro.product.board", "ro.hardware", "ro.product.cpu.abi", "ro.build.fingerprint", "ro.build.id",
    "ro.build.characteristics", "ro.product.name", "ro.build.version.security_patch",
    "ro.boot.slot_suffix", "ro.bootloader", "ro.boot.verifiedbootstate",
    "ro.boot.dynamic_partitions", "ro.boot.warranty_bit", "ro.boot.flash.locked",
    "ro.build.ab_update", "ro.board.platform"]

/-- The other shell commands that it runs there. -/
def shellQueries : List (List String) :=
  [["getprop"], ["pm", "list", "packages"], ["dumpsys", "battery"], ["settings", "list", "secure"],
    ["settings", "list", "global"], ["settings", "list", "system"],
    ["ls -1 /dev/block/by-name 2>/dev/null | head -n 128"], ["cat /proc/mounts | head -n 64"]]

/-- A command that lists devices, or reads from the one with the serial. -/
inductive IsQuery : DeviceCommand → Prop
  | adbDevices : IsQuery ⟨.adb, ["devices", "-l"]⟩
  | getprop (serial : String) {key : String} (hkey : key ∈ queriedProperties) :
      IsQuery ⟨.adb, ["-s", serial, "shell", "getprop", key]⟩
  | shell (serial : String) {command : List String} (hcommand : command ∈ shellQueries) :
      IsQuery ⟨.adb, ["-s", serial, "shell"] ++ command⟩
  | fastbootDevices : IsQuery ⟨.fastboot, ["devices"]⟩
  | getvarAll : IsQuery ⟨.fastboot, ["getvar", "all"]⟩
  | getvarAllOf (serial : String) : IsQuery ⟨.fastboot, ["-s", serial, "getvar", "all"]⟩

/-- The machine: its platform tools, the devices they list, and the other programs. -/
structure RuntimeHost where
  adb : Bool
  fastboot : Bool
  /-- The serials `adb devices` lists as `device`. -/
  adbSerials : List String
  /-- The serials `fastboot devices` lists, and those it lists the second time. -/
  fastbootSerials : List String
  fastbootdSerials : List String
  /-- What a device says about itself over a transport. -/
  describe : Transport → String → ProbeData
  /-- How a program ends that is started so, and what it sends to devices; the
  number tells the starts with one command line apart. -/
  exit : List String → ℕ → Exit
  effects : List String → ℕ → List DeviceCommand

/-- The tool that a program name stands for. -/
def toolOf (program : String) : Option Tool :=
  if pathName program = "adb" then some .adb
  else if pathName program = "fastboot" then some .fastboot
  else none

/-- Start a program with a command line. -/
def RuntimeHost.start (h : RuntimeHost) (argv : List String) (n : ℕ) : Launch :=
  match argv with
  | program :: args =>
    match toolOf program with
    | some t => .tool ⟨t, args⟩
    | none => .program argv (h.effects argv n)
  | [] => .program [] []

/-- Every device command behind the starts is one of these. -/
def Issues (p : DeviceCommand → Prop) (ls : List Launch) : Prop := ∀ c ∈ issuedBy ls, p c

section Issues

variable {p q : DeviceCommand → Prop} {ls ms : List Launch}

instance [DecidablePred p] : Decidable (Issues p ls) :=
  inferInstanceAs (Decidable (∀ c ∈ issuedBy ls, p c))

theorem Issues.mono (h : Issues p ls) (hpq : ∀ c, p c → q c) : Issues q ls := fun c hc => hpq c (h c hc)

@[simp] theorem issues_nil : Issues p [] := by simp [Issues, issuedBy]

@[simp] theorem issues_append : Issues p (ls ++ ms) ↔ Issues p ls ∧ Issues p ms := by
  simp only [Issues, issuedBy, List.flatMap_append, List.mem_append]
  exact ⟨fun h => ⟨fun c hc => h c (.inl hc), fun c hc => h c (.inr hc)⟩,
    fun h c hc => hc.elim (h.1 c) (h.2 c)⟩

theorem issues_flatMap {α : Type*} {f : α → List Launch} {xs : List α} :
    Issues p (xs.flatMap f) ↔ ∀ x ∈ xs, Issues p (f x) := by
  induction xs with
  | nil => simp
  | cons x xs ih => rw [List.flatMap_cons, issues_append, ih, List.forall_mem_cons]

/-- A program that sends what other starts do adds nothing to them. -/
theorem issues_program_cons {argv : List String} (hqueries : Issues p ms) :
    Issues p (.program argv (issuedBy ms) :: ls) ↔ Issues p ls := by
  have hcons : Launch.program argv (issuedBy ms) :: ls = [.program argv (issuedBy ms)] ++ ls := rfl
  have hprogram : Issues p [.program argv (issuedBy ms)] := by
    simpa [Issues, issuedBy, Launch.issued] using hqueries
  rw [hcons, issues_append]
  exact and_iff_right hprogram

end Issues

end ForgeOS.Runtime
