import ForgeOS.Boot.Cpio
import ForgeOS.Library.Search

/-! `migrate_wifi`, which turns the saved networks of Android into a configuration file of
`wpa_supplicant` before Android is removed. It searches the store as one text, decodes the names and
passphrases of the elements in it and writes a block for each network that has both. A pointer into the
text is what is left of the text from there. -/

namespace ForgeOS.Boot.MigrateWifi

open ForgeOS.Python ForgeOS.Library.Search

/-! ### Fields -/

/-- `entity` and `value` -/
def entities : List (Bytes × UInt8) :=
  [(ascii "quot;", 34), (ascii "apos;", 39), (ascii "amp;", 38), (ascii "lt;", 60), (ascii "gt;", 62)]

/-- The first of the entities that the text begins with, and what is left behind it. -/
def entity (start : Bytes) : Option (UInt8 × Bytes) :=
  entities.findSome? fun e => if e.1 <+: start then some (e.2, start.drop e.1.length) else none

/-- The character that a byte begins. -/
def character (c : UInt8) (start : Bytes) : Option (UInt8 × Bytes) :=
  if c = 38 then entity start else some (c, start)

theorem character_length {c d : UInt8} {start rest : Bytes} (h : character c start = some (d, rest)) :
    rest.length ≤ start.length := by
  rw [character] at h
  split_ifs at h
  · obtain ⟨e, -, he⟩ := List.exists_of_findSome?_eq_some h
    split_ifs at he
    cases he
    rw [List.length_drop]
    omega
  · cases h
    exact Nat.le_refl _

/-- `decode` on the bytes from `begin` to `end`, where some are in `out` already. -/
def decode (start out : Bytes) (cap : ℕ) : Option Bytes :=
  match start with
  | [] => some out
  | c :: start =>
    match _h : character c start with
    | none => none
    | some (c, rest) =>
      if c < 32 ∨ c = 127 ∨ out.length + 1 ≥ cap then none else decode rest (out ++ [c]) cap
termination_by start.length
decreasing_by
  have hle := character_length _h
  rw [List.length_cons]
  omega

/-- `tag` of `field`, in an array of 80 bytes -/
def tag (key : String) : Bytes := (ascii ("<string name=\"" ++ key ++ "\">")).take 79

def stringEnd : Bytes := ascii "</string>"

/-- `field` with `start` and `end`, each as what is left of the text from there on. -/
def field (start stop : Bytes) (key : String) (cap : ℕ) : Option Bytes :=
  match search (tag key) start with
  | none => none
  | some p =>
    if p.length ≤ stop.length then none
    else
      let p := p.drop (tag key).length
      match search stringEnd p with
      | none => none
      | some q =>
        if q.length < stop.length then none else decode (p.take (p.length - q.length)) [] cap

def unquote (s : Bytes) : Option Bytes :=
  if s.length < 2 ∨ s.head? ≠ some 34 ∨ s.getLast? ≠ some 34 then none
  else some ((s.drop 1).take (s.length - 2))

/-! ### Blocks -/

/-- `sizeof ssid` and `sizeof psk` -/
def capacity : ℕ := 257

/-- `%02x` -/
def hexByte (c : UInt8) : Bytes := [hexDigit (c.toNat / 16), hexDigit (c.toNat % 16)]

/-- A quotation mark or a backslash of a passphrase is written with a backslash in front. -/
def escaped (psk : Bytes) : Bytes := psk.flatMap fun c => if c = 34 ∨ c = 92 then [92, c] else [c]

/-- A passphrase in quotation marks, or a raw key as it is. -/
def written (hex : Bool) (psk : Bytes) : Bytes := if hex then psk else 34 :: (escaped psk ++ [34])

/-- What is written for a network. -/
def blockOf (name key : Bytes) : Bytes :=
  ascii "network=\x7b\n ssid=" ++ (name.flatMap hexByte ++ (ascii "\n key_mgmt=WPA-PSK\n psk=" ++
    (key ++ ascii "\n\x7d\n")))

/-- The block for a name and a key that have been decoded, if they are taken. -/
def block (ssid psk : Bytes) : Option Bytes :=
  let name := (unquote ssid).getD ssid
  let key := (unquote psk).getD psk
  let hex := (unquote psk).isNone && decide (psk.length = 64) && psk.all isHexDigit
  if 0 < name.length ∧ name.length ≤ 32 ∧ ((8 ≤ key.length ∧ key.length ≤ 63) ∨ hex) then
    some (blockOf name (written hex key))
  else none

/-! ### The whole text -/

def configurationStart : Bytes := ascii "<WifiConfiguration>"

def configurationEnd : Bytes := ascii "</WifiConfiguration>"

/-- One round of the loop, with `p` and `end`. -/
def configuration (p stop : Bytes) : Option Bytes := do
  let ssid ← field p stop "SSID" capacity
  let psk ← field p stop "PreSharedKey" capacity
  block ssid psk

/-- The loop over the text: the blocks that are written. -/
def blocks (p : Bytes) : List Bytes :=
  match _hp : search configurationStart p with
  | none => []
  | some start =>
    match _hstop : search configurationEnd start with
    | none => []
    | some stop =>
      (configuration start stop).toList ++ blocks (stop.drop configurationEnd.length)
termination_by p.length
decreasing_by
  have hstart := (search_eq_some _hp).1.length_le
  have hle := (search_eq_some _hstop).1.length_le
  have hpos := (search_eq_some _hstop).2.length_le
  have hlength : configurationEnd.length = 20 := rfl
  rw [List.length_drop]
  omega

def header : Bytes := ascii "ctrl_interface=/run/wpa_supplicant\nupdate_config=0\n"

/-- What the program meets on its host beside the bytes of the store. -/
structure Host where
  euid : ℕ
  /-- `open`, `fstat`, `calloc` or a `read` of the store fails -/
  unreadable : Bool
  regular : Bool
  /-- the temporary file exists already or cannot be made -/
  unwritable : Bool
  /-- `ferror`, `fflush`, `fsync` or `fclose` -/
  failed : Bool
  /-- `renameat` fails -/
  immovable : Bool
  deriving DecidableEq

/-- `st_size` may be at most this. -/
def maximum : ℕ := 2097152

/-- `main`: what the target holds afterwards, or the exit code where the target is not written. -/
def migrate (host : Host) (store : Bytes) : Except ℕ Bytes :=
  if host.euid ≠ 0 then .error 77
  else if host.unreadable then .error 1
  else if ¬host.regular ∨ store.length < 1 ∨ store.length > maximum then .error 1
  else if host.unwritable then .error 1
  else
    -- the text is a C string, which ends at the first zero
    let written := blocks (store.takeWhile (· ≠ 0))
    if host.failed ∨ written = [] then .error 1
    else if host.immovable then .error 1
    else .ok (header ++ written.flatten)

end ForgeOS.Boot.MigrateWifi
