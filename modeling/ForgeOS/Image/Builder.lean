import ForgeOS.Flash.Approved
import ForgeOS.Image.Directory

/-! `ImageBuilderTool.run`. The builder looks for a sideload package, fastboot
images and, for a Samsung device, Heimdall images in the `os-source` directory;
when there are none it extracts archives and looks among what came out. What it
finds is copied to the staging folder, which was emptied first, and described in
the manifest that the executor reads later. The extraction folders and the `.tar`
copies of `.tar.md5` files are not emptied. -/

namespace ForgeOS.Image

open ForgeOS.Python ForgeOS.Flash

/-- What a session keeps between two runs of the builder. `copies` records which
entries of `os-source` the builder put there itself; nothing reads it. -/
structure BuildArea (β : Type*) where
  source : Dir β
  extracted : List (String × Tree β) := []
  copies : List FileName := []

structure FoundImage (β : Type*) where
  partition : String
  name : FileName
  content : β
  deriving DecidableEq, Repr

variable {β : Type*}

def BuildArea.folder (a : BuildArea β) (name : String) : Tree β := (dictGet a.extracted name).getD .empty

def BuildArea.setFolder (a : BuildArea β) (name : String) (t : Tree β) : BuildArea β :=
  { a with extracted := dictSet a.extracted name t }

/-! ### Looking for images -/

def fastbootOrder : List FileName :=
  [fileName "boot.img", fileName "init_boot.img", fileName "vendor_boot.img", fileName "dtbo.img",
    fileName "vbmeta.img", fileName "vbmeta_system.img", fileName "recovery.img",
    fileName "system.img", fileName "vendor.img", fileName "product.img", fileName "super.img"]

/-- `_find_fastboot_images` in a directory whose files are `look`. -/
def findFastbootImages (v : FileView β) (look : FileName → Option β) : List (FoundImage β) :=
  fastbootOrder.filterMap fun n =>
    match look n with
    | some c =>
      if isPlausibleImage v c then some ⟨removeSuffix n.val ".img", n, c⟩ else none
    | none => none

def heimdallPartitionPatterns : List (String × List String) :=
  [("RECOVERY", ["recovery.img", "twrp*.img", "recovery*.img"]),
    ("BOOT", ["boot.img"]),
    ("SYSTEM", ["system.img"]),
    ("VENDOR", ["vendor.img"]),
    ("USERDATA", ["userdata.img"]),
    ("CACHE", ["cache.img"]),
    ("BL", ["bl.img", "bootloader.img"]),
    ("CP", ["cp.img", "modem.img"])]

/-- `_find_heimdall_images` among the files of a directory in listing order: for
every partition the first image of its first pattern that matches any. -/
def findHeimdallImages (v : FileView β) (files : List (FileName × β)) : List (FoundImage β) :=
  let allImgs := files.filter fun f => fnmatch f.1.val "*.img" && isPlausibleImage v f.2
  heimdallPartitionPatterns.filterMap fun (partition, patterns) =>
    (patterns.findSome? fun pattern =>
      allImgs.find? fun f => fnmatch (v.lower f.1.val) (v.lower pattern)).map
        fun f => ⟨partition, f.1, f.2⟩

def sideloadMarkers : List String :=
  ["payload.bin", "META-INF/com/google/android/update-binary", "META-INF/com/android/metadata",
    "META-INF/com/google/android/metadata"]

/-- `_is_android_sideload_zip`: a bad archive is none, any other trouble raises. -/
def isAndroidSideloadZip (v : FileView β) : Entry β → Except String Bool
  | .folder => .error "IsADirectoryError"
  | .file c =>
    match v.zip c with
    | .members ms => .ok (sideloadMarkers.any fun marker => ms.any fun m => m.name == marker)
    | .badZip => .ok false
    | .fails e => .error e

def firstSideloadZip (v : FileView β) :
    List (FileName × Entry β) → Except String (Option (FileName × β))
  | [] => .ok none
  | (n, e) :: rest =>
    match isAndroidSideloadZip v e, e with
    | .error e, _ => .error e
    | .ok true, .file c => .ok (some (n, c))
    | .ok _, _ => firstSideloadZip v rest

/-- `_find_sideload_zip`: three names first, then every zip by name. -/
def findSideloadZip (v : FileView β) (d : Dir β) : Except String (Option (FileName × β)) :=
  firstSideloadZip v
    (([fileName "update.zip", fileName "ota.zip", fileName "payload.zip"].filterMap fun n =>
      (d.lookup n).map fun e => (n, e)) ++ d.sortedGlob "*.zip")

/-! ### Extraction -/

/-- Extract a member and copy it to the top of the folder. -/
def extractFlat (v : FileView β) (t : Tree β) (m : Member β) : Tree β × Bool :=
  match m.place with
  | some (path, c) => ((t.write path c).write (path.drop (path.length - 1)) c, true)
  | none => v.oddFlat m t

def extractNested (v : FileView β) (t : Tree β) (m : Member β) : Tree β × Bool :=
  match m.place with
  | some (path, c) => (t.write path c, true)
  | none => v.oddNested m t

/-- Extract the members in order; the flag is false when one of them raised. -/
def extractAll (one : Tree β → Member β → Tree β × Bool) : Tree β → List (Member β) → Tree β × Bool
  | t, [] => (t, true)
  | t, m :: ms =>
    match one t m with
    | (t', true) => extractAll one t' ms
    | (t', false) => (t', false)

def inFastbootOrder (m : Member β) : Bool := fastbootOrder.any fun n => pathName m.name == n.val

/-- The part of `_extract_fastboot_archive` for one archive; false when it raised. -/
def extractArchive (v : FileView β) (n : FileName) (e : Entry β) (t : Tree β) : Tree β × Bool :=
  match e with
  | .folder => (t, false)
  | .file c =>
    if suffix n.val = ".zip" then
      match v.zip c with
      | .members ms => extractAll (extractFlat v) t (ms.filter inFastbootOrder)
      | _ => (t, false)
    else
      match v.tar c with
      | some ms => extractAll (extractFlat v) t (ms.filter fun m => m.isFile && inFastbootOrder m)
      | none => (t, true)

def archiveFolder (n : FileName) : String := replaceChar n.val '.' '_'

/-- The loop of `_extract_fastboot_archive`: the first archive that leaves images
in its folder decides. -/
def extractFastbootFrom (v : FileView β) (a : BuildArea β) :
    List (FileName × Entry β) → BuildArea β × Option (String × List (FoundImage β))
  | [] => (a, none)
  | (n, e) :: rest =>
    let folder := archiveFolder n
    let (t, ok) := extractArchive v n e (a.folder folder)
    let a' := a.setFolder folder t
    let images := findFastbootImages v fun n => t.lookup [n]
    if ok && !images.isEmpty then (a', some (folder, images)) else extractFastbootFrom v a' rest

def fastbootArchives (d : Dir β) : List (FileName × Entry β) :=
  d.sortedGlob "*.zip" ++ d.sortedGlob "*.tar" ++ d.sortedGlob "*.tar.gz" ++ d.sortedGlob "*.tgz"

def samsungArchives (d : Dir β) : List (FileName × Entry β) :=
  d.sortedGlob "*.tar.md5" ++ d.sortedGlob "AP_*.tar" ++ d.sortedGlob "BL_*.tar"

/-- The bytes `_extract_samsung_archive` opens for an archive, after making the
`.tar` copy of a `.tar.md5` that has none; `none` when that raises. -/
def openSamsungArchive (a : BuildArea β) (n : FileName) (e : Entry β) : BuildArea β × Option β :=
  if suffix n.val = ".md5" then
    match toFileName? (withoutSuffix n.val) with
    | none => (a, none)
    | some tarName =>
      match a.source.lookup tarName, e with
      | some (.file c), _ => (a, some c)
      | some .folder, _ => (a, none)
      | none, .file c =>
        ({ a with source := a.source.add tarName c, copies := a.copies ++ [tarName] }, some c)
      | none, .folder => (a, none)
  else
    match e with
    | .file c => (a, some c)
    | .folder => (a, none)

def isSamsungImage (m : Member β) : Bool :=
  m.isFile && (endsWith (pathName m.name) ".img" || endsWith (pathName m.name) ".img.lz4")

def extractSamsungFrom (v : FileView β) :
    BuildArea β → Tree β → List (FileName × Entry β) → BuildArea β × Tree β
  | a, t, [] => (a, t)
  | a, t, (n, e) :: rest =>
    let (a', bytes) := openSamsungArchive a n e
    match bytes.bind v.tar with
    | some ms => extractSamsungFrom v a' (extractAll (extractNested v) t (ms.filter isSamsungImage)).1 rest
    | none => extractSamsungFrom v a' t rest

/-- The path `lz4_file.with_suffix("")` of a compressed image. -/
def decompressedPath (path : List FileName) : Option (List FileName) :=
  match path.getLast? with
  | some n =>
    if fnmatch n.val "*.img.lz4" then
      (toFileName? (withoutSuffix n.val)).map fun out => path.dropLast ++ [out]
    else none
  | none => none

/-- Decompress every `.img.lz4` of the folder whose output is not there yet. -/
def decompressAll (v : FileView β) (t : Tree β) : Tree β :=
  t.entries.foldl (fun acc (path, c) =>
    match decompressedPath path, v.lz4 c with
    | some out, some c' => if (acc.lookup out).isSome then acc else acc.write out c'
    | _, _ => acc) t

def samsungFolder : String := "samsung_extracted"

def extractSamsung (v : FileView β) (a : BuildArea β) : BuildArea β × List (FoundImage β) :=
  if samsungArchives a.source = [] then (a, [])
  else
    let (a', t) := extractSamsungFrom v a (a.folder samsungFolder) (samsungArchives a.source)
    let t' := decompressAll v t
    (a'.setFolder samsungFolder t', findHeimdallImages v (t'.files v))

/-! ### Staging -/

/-- What a run has to stage, and where it came from. -/
inductive Found (β : Type*)
  | heimdall (images : List (FoundImage β)) (sourceArtifact : String)
  | sideload (zip : FileName) (content : β)
  | fastboot (images : List (FoundImage β)) (sourceArtifact : String)
  | nothing

/-- The payload of the builder. -/
structure BuildJob where
  sessionDir : String
  osPath : Option String := none
  proposedOsName : Option String := none
  manufacturer : Option String := none
  deriving DecidableEq, Repr

def BuildJob.sourceDir (j : BuildJob) : String := join (join j.sessionDir "artifacts") "os-source"

def BuildJob.buildDir (j : BuildJob) : String := join (join j.sessionDir "runtime") "build"

def BuildJob.stagedDir (j : BuildJob) : String := join j.buildDir "staged"

def BuildJob.extractedDir (j : BuildJob) : String := join j.buildDir "extracted"

def preferHeimdall (v : FileView β) (j : BuildJob) : Bool :=
  v.lower (strip (j.manufacturer.getD "")) == "samsung"

def sourceReadme : String :=
  "\n".intercalate
    ["# Stage Install Source Artifacts Here", "", "Supported generic inputs:",
      "- Android OTA or recovery ZIP packages, including LineageOS-style named ZIPs",
      "- fastboot images such as `boot.img`, `system.img`, `vendor.img`, `vbmeta.img`, `super.img`",
      "- ZIP or tar archives containing fastboot images", "",
      "ForgeOS will stage these into `runtime/build/` and only enable install execution when a real artifact set is present."] ++
    "\n"

/-- The Heimdall images that lie loose in `os-source`, asked for a Samsung device only. -/
def looseHeimdall (v : FileView β) (j : BuildJob) (d : Dir β) : List (FoundImage β) :=
  if preferHeimdall v j then findHeimdallImages v (d.files v) else []

/-- The choice of `run` between what was found. -/
def chooseFound (heimdall : List (FoundImage β)) (zip : Option (FileName × β))
    (fastboot : List (FoundImage β)) (sourceArtifact : String) : Found β :=
  if heimdall ≠ [] then .heimdall heimdall sourceArtifact
  else
    match zip with
    | some (n, c) => .sideload n c
    | none => if fastboot ≠ [] then .fastboot fastboot sourceArtifact else .nothing

theorem chooseFound_heimdall {heimdall : List (FoundImage β)} (h : heimdall ≠ [])
    (zip : Option (FileName × β)) (fastboot : List (FoundImage β)) (s : String) :
    chooseFound heimdall zip fastboot s = .heimdall heimdall s := if_pos h

theorem chooseFound_sideload (z : FileName × β) (fastboot : List (FoundImage β)) (s : String) :
    chooseFound [] (some z) fastboot s = .sideload z.1 z.2 := rfl

theorem chooseFound_fastboot {fastboot : List (FoundImage β)} (h : fastboot ≠ []) (s : String) :
    chooseFound [] none fastboot s = .fastboot fastboot s := if_pos h

theorem chooseFound_nothing (s : String) : chooseFound ([] : List (FoundImage β)) none [] s = .nothing :=
  rfl

/-- The build area with the note for the operator in `os-source`. -/
def BuildArea.withReadme (v : FileView β) (a : BuildArea β) : BuildArea β :=
  { a with source := a.source.add (fileName "README.md") (v.text sourceReadme) }

/-- The first half of `run`: everything up to the decision what to stage. -/
def collect (v : FileView β) (j : BuildJob) (a : BuildArea β) :
    Except String (BuildArea β × Found β) :=
  let a := a.withReadme v
  let fastboot := findFastbootImages v a.source.file?
  let heimdall := looseHeimdall v j a.source
  match findSideloadZip v a.source with
  | .error e => .error e
  | .ok zip =>
    if zip.isNone && fastboot.isEmpty && heimdall.isEmpty then
      match extractFastbootFrom v a (fastbootArchives a.source) with
      | (a', some (folder, images)) =>
        .ok (a', .fastboot images (join j.extractedDir folder))
      | (a', none) =>
        if preferHeimdall v j then
          .ok ((extractSamsung v a').1, chooseFound (extractSamsung v a').2 none [] "")
        else .ok (a', .nothing)
    else
      .ok (a, chooseFound heimdall zip fastboot
        ((zip.map fun z => join j.sourceDir z.1.val).getD ""))

def Found.mode : Found β → String
  | .heimdall _ _ => "heimdall_flash"
  | .sideload _ _ => "adb_sideload"
  | .fastboot _ _ => "fastboot_images"
  | .nothing => "unavailable"

/-- The copies a run makes in the staging folder. -/
def Found.staged : Found β → List (FileName × β)
  | .heimdall images _ => images.map fun i => (i.name, i.content)
  | .sideload n c => [(n, c)]
  | .fastboot images _ => images.map fun i => (i.name, i.content)
  | .nothing => []

def partitionsOf (images : List (FoundImage β)) : List (String × String) :=
  images.foldl (fun d i => dictSet d i.partition i.name.val) []

def heimdallStep (images : List (FoundImage β)) : ManifestStep where
  name := some "flash_samsung"
  kind := some "flash"
  command := some ("heimdall flash " ++
    " ".intercalate ((partitionsOf images).map fun p => "--" ++ p.1 ++ " " ++ p.2))
  partitions := partitionsOf images
  description := some "Flash Samsung partitions via Heimdall in Download Mode."

def sideloadStep (n : FileName) : ManifestStep where
  name := some "sideload_update"
  kind := some "flash"
  command := some ("adb sideload " ++ n.val)
  description := some "Apply the staged OTA or recovery package over adb sideload."

def fastbootStep (i : FoundImage β) : ManifestStep where
  name := some ("flash_" ++ i.partition)
  kind := some "flash"
  command := some ("fastboot flash " ++ i.partition ++ " " ++ i.name.val)
  description := some ("Flash `" ++ i.partition ++ "` from `" ++ i.name.val ++ "`.")

def Found.flashSteps : Found β → List ManifestStep
  | .heimdall images _ => [heimdallStep images]
  | .sideload n _ => [sideloadStep n]
  | .fastboot images _ => images.map fastbootStep
  | .nothing => []

def Found.sourceArtifact (j : BuildJob) : Found β → String
  | .heimdall _ s | .fastboot _ s => s
  | .sideload n _ => join j.sourceDir n.val
  | .nothing => ""

def Found.ready : Found β → Bool
  | .nothing => false
  | _ => true

def Found.missing (j : BuildJob) : Found β → List String
  | .nothing =>
    ["Stage an Android OTA or recovery ZIP under " ++ j.sourceDir,
      "or stage real fastboot images such as `boot.img`, `system.img`, or `vendor.img` under " ++
        j.sourceDir ++ ".",
      "Tiny placeholders and simulated image files are ignored.",
      "Fastboot image archives are also supported when they contain recognized `.img` partition files larger than 1 MiB."]
  | _ => []

/-- The manifest of a run. -/
def Found.manifest (j : BuildJob) (f : Found β) : Manifest where
  status := some (if f.ready then "ready" else "missing_source")
  installMode := some f.mode
  sourceDir := some j.sourceDir
  buildPath := some (j.osPath.getD "unknown")
  proposedOsName := some (j.proposedOsName.getD "Unknown build profile")
  stagedFiles := f.staged.map fun s => join j.stagedDir s.1.val
  sourceArtifact := some (f.sourceArtifact j)
  bundlePath := some (if f.ready then join j.buildDir "flashable-artifacts.tar.gz" else "")
  flashSteps := f.flashSteps
  missingRequirements := f.missing j

/-- The report of a run. -/
def Found.artifacts (j : BuildJob) (f : Found β) : BuildArtifacts where
  status := if f.ready then "ready" else "missing_source"
  artifacts :=
    [join j.buildDir "artifact-manifest.json", join j.buildDir "README.md",
      join j.sourceDir "README.md"] ++
    (if f.ready then
      join j.buildDir "flashable-artifacts.tar.gz" :: f.staged.map fun s => join j.stagedDir s.1.val
    else [])
  details := f.manifest j

/-- What `run` leaves behind: the report, the staged copies and the build area. -/
structure BuildRun (β : Type*) where
  artifacts : BuildArtifacts
  staged : List (FileName × β)
  area : BuildArea β

/-- `ImageBuilderTool.run` -/
def buildImages (v : FileView β) (j : BuildJob) (a : BuildArea β) : Except String (BuildRun β) :=
  match collect v j a with
  | .error e => .error e
  | .ok (a', f) =>
    .ok
      { artifacts := f.artifacts j
        staged := f.staged.foldl (fun d s => dictSet d s.1 s.2) []
        area := a' }

theorem buildImages_ok {v : FileView β} {j : BuildJob} {a : BuildArea β} {out : BuildRun β}
    (h : buildImages v j a = .ok out) :
    ∃ f, collect v j a = .ok (out.area, f) ∧ out.artifacts = f.artifacts j ∧
      out.staged = f.staged.foldl (fun d s => dictSet d s.1 s.2) [] := by
  unfold buildImages at h
  split at h
  · cases h
  · rename_i a' f hc
    cases h
    exact ⟨f, hc, rfl, rfl⟩

end ForgeOS.Image
