import Mathlib.Logic.Function.Basic
import ForgeOS.Python.Url

/-! `FirmwareDownloader`. Four sources are asked one after the other; each names a URL and a file,
and the first file that is there or can be downloaded ends the search. A download goes to a file
with the suffix `.part` and is moved to its place when it is large enough. Replies and the course
of a transfer are inputs; a location is the list of names from the root, without symbolic
links. -/

namespace ForgeOS.Image

open ForgeOS.Python

/-! ### Locations -/

abbrev Location := List String

inductive Item
  | folder
  /-- `passed` for a file that a download left there after its size was checked. -/
  | file (passed : Bool)
  deriving DecidableEq, Repr

abbrev Items := Location → Option Item

/-- The location of the names, as the system finds it from `here`. -/
def walk (items : Items) : Location → List String → Option Location
  | here, [] => some here
  | here, name :: names =>
    if items here = some .folder then
      walk items (if name = ".." then here.dropLast else here ++ [name]) names
    else none

def resolve (items : Items) (names : List String) : Option Location := walk items [] names

/-- The names of `dest / name`. An absolute name replaces the directory. -/
def targetPath (dest : Location) (name : String) : List String :=
  let names := (parts name).map String.ofList
  if root name.toList = [] then dest ++ names else names

/-- `path.with_suffix(".part")`, which raises for a path without a name. -/
def partPath (path : List String) : Option (List String) :=
  path.getLast?.map fun name => path.dropLast ++ [withoutSuffix name ++ ".part"]

/-- Where a file of that path can be opened for writing. -/
def writable (items : Items) (path : List String) : Option Location :=
  (resolve items path).filter fun here => items here ≠ some .folder

/-- `path.exists()`, with what is there. -/
def existing (items : Items) (path : List String) : Option Item := (resolve items path).bind items

/-! ### Transfers -/

structure World where
  items : Items
  /-- The URLs that answered a request for image data, and the locations written to. -/
  fetched : List String := []
  wrote : List Location := []

namespace World

def write (w : World) (here : Location) (passed : Bool) : World :=
  { w with
    items := Function.update w.items here (some (.file passed))
    wrote := w.wrote ++ [here] }

def remove (w : World) (here : Location) : World :=
  { w with items := Function.update w.items here none }

end World

/-- How a transfer ends: it breaks off, or so many bytes are written. -/
inductive Ending
  | broken
  | complete (written : ℕ) (moves : Bool)
  deriving DecidableEq, Repr

/-- A request is refused or answered; then the file may be opened or not. -/
inductive Transfer
  | refused
  | answered (opens : Bool) (ending : Ending)
  deriving DecidableEq, Repr

/-- What the outside decides: a transfer, behind those before it, and the paths that the system
refuses to look up. -/
structure Net where
  transfer : List String → String → Transfer
  lookupFails : List String → Bool

structure Target where
  url : String
  name : String
  minBytes : ℕ
  deriving DecidableEq, Repr

/-- The rest of `_download` behind an opened file. -/
def finishDownload (t : Target) (path : List String) (part : Location) (w : World) :
    Ending → World × Bool
  | .broken => (w, false)
  | .complete written moves =>
    if written < t.minBytes then (w.remove part, false)
    else
      match writable w.items path with
      | some here => if moves then ((w.remove part).write here true, true) else (w, false)
      | none => (w, false)

/-- `_download` -/
def download (net : Net) (t : Target) (path : List String) (w : World) : World × Bool :=
  match net.transfer w.fetched t.url with
  | .refused => (w, false)
  | .answered opens ending =>
    let w := { w with fetched := w.fetched ++ [t.url] }
    match (partPath path).bind (writable w.items) with
    | some part =>
      if opens then finishDownload t path part (w.write part false) ending else (w, false)
    | none => (w, false)

/-! ### Trusted hosts -/

def trustedHostSuffixes : List String :=
  ["google.com", "android.com", "lineageos.org", "twrp.me", "grapheneos.org", "calyxos.org",
    "github.com", "githubusercontent.com", "sourceforge.net", "samfw.com", "firmwarefile.com"]

/-- What the standard library decides about texts: `str.lower`, which characters a pattern takes
for the same when it ignores case, and the network locations that `urlparse` refuses. -/
structure Texts where
  lower : String → String
  sameLetter : Char → Char → Bool
  refuses : String → Bool

variable (x : Texts)

/-- `_is_trusted_host`, or `none` when it raises. -/
def isTrustedHost (url : String) : Option Bool :=
  if x.refuses (netloc url) then none
  else
    let host := x.lower (netloc url)
    some (trustedHostSuffixes.any fun s => host == s || endsWith host ("." ++ s))

/-- A target whose host is checked. `none` stands for an exception. -/
def checkedTarget (t : Target) : Option (Option Target) :=
  if t.url = "" then some none
  else (isTrustedHost x t.url).map fun trusted => if trusted then some t else none

def mebibytes (n : ℕ) : ℕ := n * 1024 * 1024

/-! ### The sources -/

structure Build where
  url : Option String := none
  downloadUrl : Option String := none
  deriving DecidableEq, Repr

/-- `_try_lineageos`. The reply is `none` when its shape makes the source raise. -/
def lineageTarget (codename : String) (builds : Option (List Build)) : Option (Option Target) :=
  match builds with
  | none => none
  | some [] => some none
  | some (latest :: _) =>
    let url := orText latest.url (latest.downloadUrl.getD "")
    checkedTarget x
      { url, name := orText (some (lastSegment url)) ("lineageos-" ++ codename ++ ".zip")
        minBytes := mebibytes 50 }

/-- What `href="([^"]+\.img)"` finds first behind the start of a text: the link and the rest. -/
def imageLink (cs : List Char) : Option (List Char × List Char) :=
  let same (pattern : String) (text : List Char) :=
    decide (text.length = pattern.length) && (pattern.toList.zip text).all fun p => x.sameLetter p.1 p.2
  if same "href=\"" (cs.take 6) then
    match (cs.drop 6).span (· ≠ '"') with
    | (link, _ :: rest) =>
      if 4 < link.length && same ".img" (link.drop (link.length - 4)) then some (link, rest) else none
    | _ => none
  else none

/-- `pattern.findall(html)`, with as many rounds as there are characters. -/
def imageLinks : ℕ → List Char → List String
  | 0, _ => []
  | _, [] => []
  | rounds + 1, c :: cs =>
    match imageLink x (c :: cs) with
    | some (link, rest) => String.ofList link :: imageLinks rounds rest
    | none => imageLinks rounds cs

/-- `_fetch_twrp`. There is no page when the request fails. -/
def fetchTwrp (codename : String) (page : Option String) : Option String :=
  page.bind fun html =>
    (imageLinks x html.toList.length html.toList).getLast?.map fun path =>
      if startsWith path "http" then path
      else if startsWith path "/" then "https://dl.twrp.me" ++ path
      else "https://dl.twrp.me/" ++ codename ++ "/" ++ path

/-- `_try_twrp` -/
def twrpTarget (codename : String) (page : Option String) : Option (Option Target) :=
  match fetchTwrp x codename page with
  | none => some none
  | some url =>
    checkedTarget x
      { url, name := orText (some (lastSegment url)) ("twrp-" ++ codename ++ ".img")
        minBytes := mebibytes 5 }

structure Asset where
  name : String
  url : Option String := none
  deriving DecidableEq, Repr

def Asset.target (asset : Asset) (url : String) : Target where
  url := url
  name := asset.name
  minBytes := mebibytes 100

/-- An image that is taken without another look. -/
def Asset.preferred (asset : Asset) : Bool :=
  let name := x.lower asset.name
  asset.url.getD "" ≠ "" && (endsWith name ".img.xz" || endsWith name ".img") &&
    ["arm64", "vanilla", "system"].all fun k => contains name k

/-- The first preferred asset. An entry that is no asset makes the source raise. -/
def preferredAsset : List (Option Asset) → Option (Option Asset)
  | [] => some none
  | none :: _ => none
  | some asset :: rest => if asset.preferred x then some (some asset) else preferredAsset rest

/-- The first arm64 asset with a trusted host. -/
def fallbackAsset : List (Option Asset) → Option (Option Target)
  | [] => some none
  | none :: _ => none
  | some asset :: rest =>
    let url := asset.url.getD ""
    if contains (x.lower asset.name) "arm64" && url ≠ "" then
      match isTrustedHost x url with
      | none => none
      | some true => some (some (asset.target url))
      | some false => fallbackAsset rest
    else fallbackAsset rest

/-- `_try_gsi`, which catches its exceptions. There are no assets when the request fails. -/
def gsiTarget (assets : Option (List (Option Asset))) : Option Target :=
  match assets with
  | none => none
  | some assets =>
    match preferredAsset x assets with
    | none => none
    | some (some asset) => some (asset.target (asset.url.getD ""))
    | some none => (fallbackAsset x assets).getD none

/-- `_try_gemma_hint`, which catches its exceptions. -/
def gemmaTarget (codename : String) (url : Option String) : Option Target :=
  let url := url.getD ""
  (checkedTarget x
    { url, name := orText (some (lastSegment url)) ("firmware-" ++ codename ++ ".zip")
      minBytes := mebibytes 5 }).getD none

/-! ### The search -/

/-- A source, with what the replies make of it. A checked source gives trusted targets only. -/
structure Source where
  label : String
  target : Option (Option Target)
  /-- Takes a file that is there already. -/
  reuses : Bool
  /-- An exception only ends the source, not the search. -/
  catches : Bool
  checked : Bool
  trusted : checked = true → ∀ t, target = some (some t) → isTrustedHost x t.url = some true

variable {x}

inductive Attempt
  | raised
  | nothing
  | staged (path : List String)
  deriving DecidableEq, Repr

def attemptDownload (net : Net) (t : Target) (path : List String) (w : World) : World × Attempt :=
  ((download net t path w).1,
    if (download net t path w).2 then .staged path else .nothing)

def Source.attempt (net : Net) (dest : Location) (s : Source x) (w : World) : World × Attempt :=
  match s.target with
  | none => (w, .raised)
  | some none => (w, .nothing)
  | some (some t) =>
    let path := targetPath dest t.name
    if s.reuses then
      if net.lookupFails path then (w, if s.catches then .nothing else .raised)
      else if (existing w.items path).isSome then (w, .staged path)
      else attemptDownload net t path w
    else attemptDownload net t path w

structure SearchResult where
  status : String
  files : List (List String) := []
  source : Option String := none
  deriving DecidableEq, Repr

/-- The sources in their order; there is no result when one of them raises. -/
def searchSources (net : Net) (dest : Location) :
    List (Source x) → World → World × Option SearchResult
  | [], w => (w, some { status := "not_found" })
  | s :: rest, w =>
    match s.attempt net dest w with
    | (w, .raised) => (w, none)
    | (w, .staged path) =>
      (w, some { status := "downloaded", files := [path], source := some s.label })
    | (w, .nothing) => searchSources net dest rest w

/-- `dest.mkdir(parents=True, exist_ok=True)`, which raises where a file is in the way. -/
def makeFolders (items : Items) (dest : Location) : Option Items :=
  if dest.inits.all fun here => items here = none || items here = some .folder then
    some fun here => if here <+: dest then some .folder else items here
  else none

theorem checkedTarget_trusted {x : Texts} {t t' : Target} (h : checkedTarget x t = some (some t')) :
    isTrustedHost x t'.url = some true := by
  unfold checkedTarget at h
  by_cases hurl : t.url = ""
  · rw [if_pos hurl] at h
    cases h
  · rw [if_neg hurl] at h
    obtain ⟨trusted, htrusted, ht⟩ := Option.map_eq_some_iff.mp h
    cases trusted with
    | false => cases ht
    | true =>
      cases ht
      exact htrusted

theorem fallbackAsset_trusted {x : Texts} {assets : List (Option Asset)} {t : Target}
    (h : fallbackAsset x assets = some (some t)) : isTrustedHost x t.url = some true := by
  induction assets with
  | nil => cases h
  | cons asset rest ih =>
    cases asset with
    | none => cases h
    | some asset =>
      simp only [fallbackAsset] at h
      split_ifs at h
      · split at h
        · cases h
        · rename_i htrusted
          cases h
          exact htrusted
        · exact ih h
      · exact ih h

variable (x)

structure Replies where
  lineageos : Option (List Build)
  twrp : Option String
  gsi : Option (List (Option Asset))
  gemma : Option String
  deriving DecidableEq, Repr

def lineageSource (codename : String) (builds : Option (List Build)) : Source x where
  label := "lineageos"
  target := lineageTarget x codename builds
  reuses := true
  catches := false
  checked := true
  trusted := by
    intro _ t ht
    unfold lineageTarget at ht
    split at ht
    · cases ht
    · cases ht
    · exact checkedTarget_trusted ht

def twrpSource (codename : String) (page : Option String) : Source x where
  label := "twrp"
  target := twrpTarget x codename page
  reuses := true
  catches := false
  checked := true
  trusted := by
    intro _ t ht
    unfold twrpTarget at ht
    split at ht
    · cases ht
    · exact checkedTarget_trusted ht

/-- The host of a preferred asset is not checked. -/
def gsiSource (assets : Option (List (Option Asset))) : Source x where
  label := "gsi_phhusson"
  target := some (gsiTarget x assets)
  reuses := true
  catches := true
  checked := (assets.bind fun assets => (preferredAsset x assets).join).isNone
  trusted := by
    intro hchecked t ht
    have ht := Option.some.inj ht
    unfold gsiTarget at ht
    cases assets with
    | none => cases ht
    | some assets =>
      cases hpreferred : preferredAsset x assets with
      | none => simp [hpreferred] at ht
      | some asset =>
        cases asset with
        | some asset => simp [hpreferred] at hchecked
        | none =>
          simp only [hpreferred] at ht
          cases hfallback : fallbackAsset x assets with
          | none => simp [hfallback] at ht
          | some t' =>
            rw [hfallback, Option.getD_some] at ht
            rw [ht] at hfallback
            exact fallbackAsset_trusted hfallback

def gemmaSource (codename : String) (url : Option String) : Source x where
  label := "gemma_hint"
  target := some (gemmaTarget x codename url)
  reuses := false
  catches := true
  checked := true
  trusted := by
    intro _ t ht
    have ht := Option.some.inj ht
    unfold gemmaTarget at ht
    dsimp only at ht
    generalize hchecked : checkedTarget x _ = found at ht
    cases found with
    | none => cases ht
    | some found =>
      rw [Option.getD_some] at ht
      rw [ht] at hchecked
      exact checkedTarget_trusted hchecked

def sources (codename : String) (r : Replies) : List (Source x) :=
  [lineageSource x codename r.lineageos, twrpSource x codename r.twrp, gsiSource x r.gsi,
    gemmaSource x codename r.gemma]

abbrev SessionDir := List {s : String // IsFileName s}

def osSource (sessionDir : SessionDir) : Location :=
  sessionDir.map Subtype.val ++ ["artifacts", "os-source"]

/-- `resolve_and_download`, without a result when it raises. -/
def resolveAndDownload (net : Net) (codename : String) (r : Replies) (sessionDir : SessionDir)
    (items : Items) : World × Option SearchResult :=
  match makeFolders items (osSource sessionDir) with
  | none => ({ items }, none)
  | some items =>
    searchSources net (osSource sessionDir) (sources x codename r) { items }

end ForgeOS.Image
