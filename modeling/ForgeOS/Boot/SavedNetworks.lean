import ForgeOS.Boot.MigrateWifi

/-! The networks that a tablet has saved, the store in which Android keeps them, and what
`wpa_supplicant` reads from the file that is made of it. -/

namespace ForgeOS.Boot.MigrateWifi

open ForgeOS.Python ForgeOS.Library.Search

/-! ### Saved networks -/

/-- A name and a passphrase, as a user has typed them. -/
structure Network where
  ssid : Bytes
  psk : Option Bytes
  named : 0 < ssid.length ∧ ssid.length ≤ 32
  plain : ∀ c ∈ ssid, ¬c < 32 ∧ c ≠ 127
  secure : ∀ key ∈ psk, 8 ≤ key.length ∧ key.length ≤ 63
  printable : ∀ key ∈ psk, ∀ c ∈ key, 32 ≤ c ∧ c ≤ 126

/-- In quotation marks, which the store has around both. -/
def quoted (value : Bytes) : Bytes := 34 :: (value ++ [34])

/-- A value as the content of an element: each character as it is or as an entity. The characters that
begin an entity or a tag are not written as they are. -/
inductive Content : Bytes → Bytes → Prop
  | nil : Content [] []
  | raw (c : UInt8) {value xml : Bytes} :
      c ≠ 38 → c ≠ 60 → Content value xml → Content (c :: value) (c :: xml)
  | entity {e : Bytes × UInt8} {value xml : Bytes} :
      e ∈ entities → Content value xml → Content (e.2 :: value) (38 :: (e.1 ++ xml))

/-- The first element with a key in a body has a value. -/
def Holds (body : Bytes) (key : String) (value : Bytes) : Prop :=
  ∃ before xml behind, body = before ++ (tag key ++ (xml ++ (stringEnd ++ behind))) ∧
    ¬tag key <:+: before ∧ Content value xml

/-- A network as it is saved: what stands between the two tags of its element. -/
structure Element where
  network : Network
  body : Bytes
  ssid : Holds body "SSID" (quoted network.ssid)
  psk : match network.psk with
    | some key => Holds body "PreSharedKey" (quoted key)
    | none => ¬tag "PreSharedKey" <:+: body
  closed : ¬configurationEnd <:+: body
  ends : 0 ∉ body

/-- What may stand between two elements. -/
structure Gap where
  text : Bytes
  opens : ¬configurationStart <:+: text
  ends : 0 ∉ text

/-- The file of Android: its elements, each with what follows it. -/
structure Store where
  lead : Gap
  elements : List (Element × Gap)

def Element.text (e : Element) : Bytes := configurationStart ++ (e.body ++ configurationEnd)

def elementsText (elements : List (Element × Gap)) : Bytes :=
  elements.flatMap fun p => p.1.text ++ p.2.text

def Store.text (s : Store) : Bytes := s.lead.text ++ elementsText s.elements

/-- A name with its passphrase. -/
structure Credential where
  ssid : Bytes
  psk : Bytes
  deriving DecidableEq

def Network.credential? (n : Network) : Option Credential := n.psk.map fun key => ⟨n.ssid, key⟩

/-- The networks with a key, in their order. -/
def Store.keyed (s : Store) : List Credential :=
  s.elements.filterMap fun p => p.1.network.credential?

/-! ### Reading the configuration -/

/-- What `wpa_supplicant` has read, and the block it is in. -/
structure Reader where
  networks : List Credential
  ssid : Bytes
  psk : Bytes

/-- Pairs of hexadecimal digits. -/
def unhex : Bytes → Bytes
  | a :: b :: rest =>
    .ofNat ((hexDigit? a).getD 0 * 16 + (hexDigit? b).getD 0) :: unhex rest
  | _ => []

/-- What stands between the first quotation mark of a line and the last one. -/
def literal (line : Bytes) : Bytes :=
  (((line.dropWhile (· ≠ 34)).drop 1).rdropWhile (· ≠ 34)).dropLast

def Reader.line (r : Reader) (line : Bytes) : Reader :=
  let line := line.dropWhile (· = 32)
  if line = ascii "network=\x7b" then { r with ssid := [], psk := [] }
  else if line = ascii "\x7d" then { r with networks := r.networks ++ [⟨r.ssid, r.psk⟩] }
  else if ascii "ssid=" <+: line then { r with ssid := unhex (line.drop 5) }
  else if ascii "psk=" <+: line then { r with psk := literal line }
  else r

/-- The networks that are read from a file, line by line. -/
def read (file : Bytes) : List Credential :=
  ((file.splitOn 10).foldl Reader.line ⟨[], [], []⟩).networks

/-! ### What `decode` and `field` find -/

theorem entity_append {e : Bytes × UInt8} (he : e ∈ entities) (xml : Bytes) :
    entity (e.1 ++ xml) = some (e.2, xml) := by
  have hentities : entities = [([113, 117, 111, 116, 59], 34), ([97, 112, 111, 115, 59], 39),
      ([97, 109, 112, 59], 38), ([108, 116, 59], 60), ([103, 116, 59], 62)] := by rfl
  rw [hentities] at he
  rw [entity, hentities]
  simp only [List.mem_cons, List.not_mem_nil, or_false] at he
  rcases he with rfl | rfl | rfl | rfl | rfl <;> simp

/-- What is written as content is decoded to the value. -/
theorem decode_content {value xml : Bytes} (h : Content value xml) {cap : ℕ} {out : Bytes}
    (hplain : ∀ c ∈ value, ¬c < 32 ∧ c ≠ 127) (hcap : out.length + value.length < cap) :
    decode xml out cap = some (out ++ value) := by
  have hkeep : ∀ (c : UInt8) (value out : Bytes), (∀ d ∈ c :: value, ¬d < 32 ∧ d ≠ 127) →
      out.length + (c :: value).length < cap → ¬(c < 32 ∨ c = 127 ∨ out.length + 1 ≥ cap) := by
    intro c value out hplain hcap
    obtain ⟨hlow, hdel⟩ := hplain c List.mem_cons_self
    rw [List.length_cons] at hcap
    rintro (h | h | h)
    · exact hlow h
    · exact hdel h
    · omega
  induction h generalizing out with
  | nil => simp [decode]
  | raw c hamp hlt h ih =>
    have hcharacter : ∀ rest, character c rest = some (c, rest) := fun rest => if_neg hamp
    rw [decode, hcharacter]
    simp only
    rw [if_neg (hkeep _ _ _ hplain hcap), ih (fun d hd => hplain d (List.mem_cons_of_mem _ hd))]
    · simp
    · simp only [List.length_append, List.length_cons, List.length_nil] at hcap ⊢
      omega
  | entity he h ih =>
    rw [decode, character, if_pos rfl, entity_append he]
    simp only
    rw [if_neg (hkeep _ _ _ hplain hcap), ih (fun d hd => hplain d (List.mem_cons_of_mem _ hd))]
    · simp
    · simp only [List.length_append, List.length_cons, List.length_nil] at hcap ⊢
      omega

/-- No tag begins in the content of an element. -/
theorem Content.clean {value xml : Bytes} (h : Content value xml) : 60 ∉ xml := by
  induction h with
  | nil => exact List.not_mem_nil
  | raw c hamp hlt h ih =>
    rw [List.mem_cons, not_or]
    exact ⟨fun heq => hlt heq.symm, ih⟩
  | entity he h ih =>
    have hnames : ∀ e ∈ entities, 60 ∉ e.1 := by decide
    rw [List.mem_cons, List.mem_append, not_or, not_or]
    exact ⟨by decide, hnames _ he, ih⟩

theorem marker_stringEnd : Marker 60 stringEnd := ⟨_, rfl, by decide⟩

theorem marker_configurationStart : Marker 60 configurationStart := ⟨_, rfl, by decide⟩

theorem marker_configurationEnd : Marker 60 configurationEnd := ⟨_, rfl, by decide⟩

/-- The key of a string element, whose tag is told apart from that of the element around it. -/
structure Key (key : String) : Prop where
  marker : Marker 60 (tag key)
  apart : ¬tag key <+: configurationStart ∧ ¬configurationStart <+: tag key

theorem key_ssid : Key "SSID" := ⟨⟨_, rfl, by decide⟩, by decide⟩

theorem key_psk : Key "PreSharedKey" := ⟨⟨_, rfl, by decide⟩, by decide⟩

section Field

variable {key : String} {body value : Bytes}

/-- The tag of the element itself is passed over. -/
theorem Key.search_start (h : Key key) (b : Bytes) :
    search (tag key) (configurationStart ++ b) = search (tag key) b :=
  h.marker.search_marker marker_configurationStart h.apart.1 h.apart.2 b

theorem field_of_holds (hkey : Key key) (h : Holds body key value)
    (hplain : ∀ c ∈ value, ¬c < 32 ∧ c ≠ 127) (hlength : value.length < capacity) (stop : Bytes) :
    field (configurationStart ++ (body ++ stop)) stop key capacity = some value := by
  obtain ⟨before, xml, behind, rfl, hbefore, hcontent⟩ := h
  have hbody : before ++ (tag key ++ (xml ++ (stringEnd ++ behind))) ++ stop =
      before ++ (tag key ++ (xml ++ (stringEnd ++ (behind ++ stop)))) := by
    simp only [List.append_assoc]
  have htag : search (tag key) (configurationStart ++
      (before ++ (tag key ++ (xml ++ (stringEnd ++ (behind ++ stop)))))) =
        some (tag key ++ (xml ++ (stringEnd ++ (behind ++ stop)))) := by
    rw [hkey.search_start, hkey.marker.search_append hbefore (hkey.marker.head _),
      search_append_self]
  have hend : search stringEnd (xml ++ (stringEnd ++ (behind ++ stop))) =
      some (stringEnd ++ (behind ++ stop)) := by
    rw [marker_stringEnd.search_clean hcontent.clean, search_append_self]
  have hpos := List.length_pos_iff.mpr hkey.marker.ne_nil
  rw [field, hbody, htag]
  simp only
  rw [if_neg, List.drop_left, hend]
  · simp only
    rw [if_neg, List.length_append, Nat.add_sub_cancel_right, List.take_left,
      decode_content hcontent hplain, List.nil_append]
    · simpa using hlength
    · simp only [List.length_append]
      omega
  · simp only [List.length_append]
    omega

/-- What stands behind the element is not taken for a field of it. -/
theorem field_of_absent (hkey : Key key) (h : ¬tag key <:+: body) (rest : Bytes) :
    field (configurationStart ++ (body ++ (configurationEnd ++ rest))) (configurationEnd ++ rest) key
      capacity = none := by
  have hsearch : search (tag key) (configurationStart ++ (body ++ (configurationEnd ++ rest))) =
      search (tag key) (configurationEnd ++ rest) := by
    rw [hkey.search_start, hkey.marker.search_append h (marker_configurationEnd.head rest)]
  rw [field, hsearch]
  cases hp : search (tag key) (configurationEnd ++ rest) with
  | none => rfl
  | some p => exact if_pos (search_eq_some hp).1.length_le

end Field

/-! ### What is written for a store -/

theorem unquote_quoted (value : Bytes) : unquote (quoted value) = some value := by
  have hlength : (quoted value).length = value.length + 2 := by simp [quoted]
  have hlast : (quoted value).getLast? = some 34 := by
    rw [quoted, ← List.cons_append]
    exact List.getLast?_concat
  rw [unquote, if_neg, hlength, Nat.add_sub_cancel]
  · simp [quoted]
  · rw [hlength, hlast]
    simp [quoted]

theorem quoted_plain {value : Bytes} (h : ∀ c ∈ value, ¬c < 32 ∧ c ≠ 127) :
    ∀ c ∈ quoted value, ¬c < 32 ∧ c ≠ 127 := by
  intro c hc
  simp only [quoted, List.mem_cons, List.mem_append, List.not_mem_nil, or_false] at hc
  rcases hc with rfl | hc | rfl
  · decide
  · exact h c hc
  · decide

theorem length_quoted (value : Bytes) : (quoted value).length = value.length + 2 := by
  simp [quoted]

/-- The block of a network with a key. -/
def Credential.block (c : Credential) : Bytes := blockOf c.ssid (written false c.psk)

theorem printable_plain {c : UInt8} (h : 32 ≤ c ∧ c ≤ 126) : ¬c < 32 ∧ c ≠ 127 := by
  constructor
  · exact UInt8.not_lt.mpr h.1
  · rintro rfl
    exact absurd h.2 (by decide)

/-- A round of the loop writes the block of the network, if it has a key. -/
theorem configuration_of_element (e : Element) (rest : Bytes) :
    configuration (configurationStart ++ (e.body ++ (configurationEnd ++ rest)))
      (configurationEnd ++ rest) = e.network.credential?.map Credential.block := by
  obtain ⟨hpos, hle⟩ := e.network.named
  have hssid := field_of_holds key_ssid e.ssid (quoted_plain e.network.plain)
    (by rw [length_quoted, capacity]; omega) (configurationEnd ++ rest)
  have hpsk := e.psk
  cases hkey : e.network.psk with
  | none =>
    rw [hkey] at hpsk
    simp [configuration, hssid, field_of_absent key_psk hpsk, Network.credential?, hkey]
  | some key =>
    rw [hkey] at hpsk
    obtain ⟨hlow, hhigh⟩ := e.network.secure key hkey
    have hprintable := e.network.printable key hkey
    have hfield := field_of_holds key_psk hpsk
      (quoted_plain fun c hc => printable_plain (hprintable c hc))
      (by rw [length_quoted, capacity]; omega) (configurationEnd ++ rest)
    simp [configuration, hssid, hfield, block, unquote_quoted, Network.credential?, hkey,
      Credential.block, hpos, hle, hlow, hhigh]

/-- A store with no element left to search. -/
theorem blocks_of_clean {text : Bytes} (h : ¬configurationStart <:+: text) : blocks text = [] := by
  rw [blocks, search_eq_none (by decide) h]

/-- One element of the store, behind a text without one. -/
theorem blocks_element {lead : Bytes} (hlead : ¬configurationStart <:+: lead) (e : Element)
    (rest : Bytes) :
    blocks (lead ++ (e.text ++ rest)) =
      (e.network.credential?.map Credential.block).toList ++ blocks rest := by
  have htext : e.text ++ rest = configurationStart ++ (e.body ++ (configurationEnd ++ rest)) := by
    simp only [Element.text, List.append_assoc]
  have hstart : search configurationStart (lead ++ (e.text ++ rest)) = some (e.text ++ rest) := by
    rw [htext, marker_configurationStart.search_append hlead (marker_configurationStart.head _),
      search_append_self]
  have hstop : search configurationEnd (e.text ++ rest) = some (configurationEnd ++ rest) := by
    rw [htext, marker_configurationEnd.search_marker marker_configurationStart (by decide)
      (by decide), marker_configurationEnd.search_append e.closed (marker_configurationEnd.head _),
      search_append_self]
  rw [blocks, hstart]
  simp only
  rw [hstop]
  simp only
  rw [htext, configuration_of_element, List.drop_left]

/-- The blocks of a store are those of its networks with a key, in order. -/
theorem blocks_of_elements {lead : Bytes} (hlead : ¬configurationStart <:+: lead)
    (elements : List (Element × Gap)) :
    blocks (lead ++ elementsText elements) =
      (elements.filterMap fun p => p.1.network.credential?).map Credential.block := by
  induction elements generalizing lead with
  | nil => simpa [elementsText] using blocks_of_clean hlead
  | cons p elements ih =>
    rw [elementsText, List.flatMap_cons, List.append_assoc, blocks_element hlead,
      ← elementsText, ih p.2.opens, List.filterMap_cons]
    cases p.1.network.credential? <;> rfl

theorem Store.no_zero (s : Store) : ∀ c ∈ s.text, c ≠ 0 := by
  have htags : ∀ c ∈ configurationStart ++ configurationEnd, c ≠ 0 := by decide
  intro c hc hzero
  subst hzero
  rw [Store.text, List.mem_append, elementsText, List.mem_flatMap] at hc
  rcases hc with hc | ⟨p, -, hc⟩
  · exact s.lead.ends hc
  · simp only [Element.text, List.mem_append] at hc
    rcases hc with (hc | hc | hc) | hc
    · exact htags 0 (List.mem_append_left _ hc) rfl
    · exact p.1.ends hc
    · exact htags 0 (List.mem_append_right _ hc) rfl
    · exact p.2.ends hc

/-- The file that is made of a store. -/
def config (networks : List Credential) : Bytes := header ++ (networks.map Credential.block).flatten

/-- A host on which nothing fails. -/
def Host.works (host : Host) : Bool :=
  decide (host.euid = 0) && !host.unreadable && host.regular && !host.unwritable && !host.failed &&
    !host.immovable

theorem migrate_eq_ok {host : Host} {store file : Bytes} :
    migrate host store = .ok file ↔
      host.works = true ∧ 1 ≤ store.length ∧ store.length ≤ maximum ∧
        blocks (store.takeWhile (· ≠ 0)) ≠ [] ∧
          file = header ++ (blocks (store.takeWhile (· ≠ 0))).flatten := by
  rw [migrate, Host.works]
  grind

/-- A store with a network in it is not empty. -/
theorem Store.length_pos {s : Store} (h : s.keyed ≠ []) : 1 ≤ s.text.length := by
  have helements : s.elements ≠ [] := by
    intro hnil
    rw [Store.keyed, hnil] at h
    exact h rfl
  obtain ⟨p, elements, hp⟩ := List.exists_cons_of_ne_nil helements
  have hstart : 0 < configurationStart.length := by decide
  simp only [Store.text, elementsText, hp, List.flatMap_cons, Element.text, List.length_append]
  omega

/-- What is written for a store, and when. -/
theorem migrate_store (host : Host) (s : Store) (file : Bytes) :
    migrate host s.text = .ok file ↔
      host.works = true ∧ s.text.length ≤ maximum ∧ s.keyed ≠ [] ∧ file = config s.keyed := by
  have htext : s.text.takeWhile (· ≠ 0) = s.text := by
    rw [List.takeWhile_eq_self_iff]
    intro c hc
    simpa using s.no_zero c hc
  have hblocks : blocks s.text = s.keyed.map Credential.block :=
    blocks_of_elements s.lead.opens s.elements
  rw [migrate_eq_ok, htext, hblocks, ne_eq, List.map_eq_nil_iff, config]
  constructor
  · rintro ⟨hworks, -, hle, hkeyed, hfile⟩
    exact ⟨hworks, hle, hkeyed, hfile⟩
  · rintro ⟨hworks, hle, hkeyed, hfile⟩
    exact ⟨hworks, s.length_pos hkeyed, hle, hkeyed, hfile⟩

/-! ### What is read from it -/

/-- Two digits are read as the byte they were written for. -/
theorem unhex_hexByte (c : UInt8) (rest : Bytes) : unhex (hexByte c ++ rest) = c :: unhex rest := by
  have hlt : c.toNat < 256 := c.toNat_lt
  rw [hexByte, List.cons_append, List.cons_append, List.nil_append, unhex,
    hexDigit?_hexDigit _ (by omega), hexDigit?_hexDigit _ (by omega)]
  simp only [Option.getD_some]
  rw [Nat.div_add_mod', UInt8.ofNat_toNat]

theorem unhex_name (name : Bytes) : unhex (name.flatMap hexByte) = name := by
  induction name with
  | nil => rfl
  | cons c name ih => rw [List.flatMap_cons, unhex_hexByte, ih]

theorem hexByte_digits (c : UInt8) : ∀ d ∈ hexByte c, d ≠ 10 := by
  have hdigits : ∀ n < 16, hexDigit n ≠ 10 := by decide
  have hlt : c.toNat < 256 := c.toNat_lt
  intro d hd
  simp only [hexByte, List.mem_cons, List.not_mem_nil, or_false] at hd
  rcases hd with rfl | rfl
  · exact hdigits _ (by omega)
  · exact hdigits _ (by omega)

/-- The line of a passphrase holds it as it has been written. -/
theorem literal_psk (text : Bytes) : literal (ascii "psk=" ++ 34 :: (text ++ [34])) = text := by
  have hfront : (ascii "psk=" ++ 34 :: (text ++ [34])).dropWhile (· ≠ 34) = 34 :: (text ++ [34]) := rfl
  rw [literal, hfront, List.drop_one, List.tail_cons, List.rdropWhile_concat_neg,
    List.dropLast_concat]
  simp

theorem escaped_lines {psk : Bytes} (h : 10 ∉ psk) : 10 ∉ escaped psk := by
  rw [escaped, List.mem_flatMap]
  rintro ⟨c, hc, hmem⟩
  split_ifs at hmem with hmark
  · rcases List.mem_cons.mp hmem with heq | hmem
    · cases heq
    · rw [List.mem_singleton.mp hmem] at h
      exact h hc
  · rw [List.mem_singleton.mp hmem] at h
    exact h hc

section Lines

/-- Lines, each with its end. -/
def ended (lines : List Bytes) : Bytes := lines.flatMap fun line => line ++ [10]

theorem splitOn_ended {lines : List Bytes} (h : ∀ line ∈ lines, 10 ∉ line) :
    (ended lines).splitOn 10 = lines ++ [[]] := by
  induction lines with
  | nil => rfl
  | cons line lines ih =>
    rw [List.forall_mem_cons] at h
    rw [ended, List.flatMap_cons, ← ended, List.append_assoc, List.singleton_append,
      List.splitOn_append_cons_self_of_not_mem h.1, ih h.2, List.cons_append]

def Credential.lines (c : Credential) : List Bytes :=
  [ascii "network=\x7b", ascii " ssid=" ++ c.ssid.flatMap hexByte, ascii " key_mgmt=WPA-PSK",
    ascii " psk=" ++ 34 :: (escaped c.psk ++ [34]), ascii "\x7d"]

theorem Credential.block_eq (c : Credential) : c.block = ended c.lines := by
  have hopen : ascii "network=\x7b\n ssid=" = ascii "network=\x7b" ++ 10 :: ascii " ssid=" := rfl
  have hmiddle : ascii "\n key_mgmt=WPA-PSK\n psk=" =
      10 :: (ascii " key_mgmt=WPA-PSK" ++ 10 :: ascii " psk=") := rfl
  have hclose : ascii "\n\x7d\n" = 10 :: (ascii "\x7d" ++ [10]) := rfl
  rw [Credential.block, blockOf, hopen, hmiddle, hclose]
  simp [ended, Credential.lines, written]

variable (r : Reader)

theorem Reader.line_open : r.line (ascii "network=\x7b") = { r with ssid := [], psk := [] } := rfl

theorem Reader.line_ssid (hex : Bytes) :
    r.line (ascii " ssid=" ++ hex) = { r with ssid := unhex hex } := by
  have hline : (ascii " ssid=" ++ hex).dropWhile (· = 32) = ascii "ssid=" ++ hex := rfl
  rw [Reader.line, hline]
  simp [ascii]

theorem Reader.line_psk (text : Bytes) :
    r.line (ascii " psk=" ++ 34 :: (text ++ [34])) = { r with psk := text } := by
  have hline : (ascii " psk=" ++ 34 :: (text ++ [34])).dropWhile (· = 32) =
      ascii "psk=" ++ 34 :: (text ++ [34]) := rfl
  rw [Reader.line, hline]
  simp only [literal_psk]
  simp [ascii]

/-- A block adds a network, with the passphrase as it stands in the file. -/
theorem Reader.block_lines (c : Credential) :
    c.lines.foldl Reader.line r =
      ⟨r.networks ++ [⟨c.ssid, escaped c.psk⟩], c.ssid, escaped c.psk⟩ := by
  have hmgmt : ∀ r : Reader, r.line (ascii " key_mgmt=WPA-PSK") = r := fun _ => rfl
  have hclose : ∀ r : Reader, r.line (ascii "\x7d") =
      { r with networks := r.networks ++ [⟨r.ssid, r.psk⟩] } := fun _ => rfl
  simp only [Credential.lines, List.foldl_cons, List.foldl_nil, Reader.line_open, Reader.line_ssid,
    hmgmt, Reader.line_psk, hclose, unhex_name]

theorem Reader.foldl_lines (networks : List Credential) :
    ((networks.flatMap Credential.lines).foldl Reader.line r).networks =
      r.networks ++ networks.map fun c => ⟨c.ssid, escaped c.psk⟩ := by
  induction networks generalizing r with
  | nil => simp
  | cons c networks ih =>
    rw [List.flatMap_cons, List.foldl_append, Reader.block_lines, ih]
    simp

end Lines

theorem Credential.lines_clean {c : Credential} (h : 10 ∉ c.psk) : ∀ line ∈ c.lines, 10 ∉ line := by
  have hname : 10 ∉ c.ssid.flatMap hexByte := by
    rw [List.mem_flatMap]
    rintro ⟨b, -, hb⟩
    exact hexByte_digits b 10 hb rfl
  intro line hline
  simp only [Credential.lines, List.mem_cons, List.not_mem_nil, or_false] at hline
  rcases hline with rfl | rfl | rfl | rfl | rfl
  · decide
  · rw [List.mem_append, not_or]
    exact ⟨by decide, hname⟩
  · decide
  · rw [List.mem_append, List.mem_cons, List.mem_append, not_or, not_or, not_or]
    exact ⟨by decide, by decide, escaped_lines h, by decide⟩
  · decide

/-- A file is read as the networks it was written for, each passphrase with its backslashes. -/
theorem read_config {networks : List Credential} (h : ∀ c ∈ networks, 10 ∉ c.psk) :
    read (config networks) = networks.map fun c => ⟨c.ssid, escaped c.psk⟩ := by
  have hheader : header =
      ended [ascii "ctrl_interface=/run/wpa_supplicant", ascii "update_config=0"] := by rfl
  have hblocks : (networks.map Credential.block).flatten =
      ended (networks.flatMap Credential.lines) := by
    rw [ended, List.flatMap_assoc, ← List.flatMap_def]
    exact congrArg networks.flatMap (funext Credential.block_eq)
  have hconfig : config networks = ended
      ([ascii "ctrl_interface=/run/wpa_supplicant", ascii "update_config=0"] ++
        networks.flatMap Credential.lines) := by
    rw [config, hheader, hblocks, ended, ended, ended, List.flatMap_append]
  have htop : ∀ line ∈ [ascii "ctrl_interface=/run/wpa_supplicant", ascii "update_config=0"],
      10 ∉ line := by decide
  have hclean : ∀ line ∈ [ascii "ctrl_interface=/run/wpa_supplicant", ascii "update_config=0"] ++
      networks.flatMap Credential.lines, 10 ∉ line := by
    intro line hline
    rcases List.mem_append.mp hline with hline | hline
    · exact htop line hline
    · obtain ⟨c, hc, hline⟩ := List.mem_flatMap.mp hline
      exact Credential.lines_clean (h c hc) line hline
  have hskip : ∀ r : Reader, [ascii "ctrl_interface=/run/wpa_supplicant",
      ascii "update_config=0"].foldl Reader.line r = r := fun _ => rfl
  have hlast : ∀ r : Reader, [[]].foldl Reader.line r = r := fun _ => rfl
  rw [read, hconfig, splitOn_ended hclean, List.foldl_append, List.foldl_append, hskip, hlast,
    Reader.foldl_lines, List.nil_append]

theorem escaped_cons (c : UInt8) (psk : Bytes) :
    escaped (c :: psk) = (if c = 34 ∨ c = 92 then [92, c] else [c]) ++ escaped psk :=
  List.flatMap_cons

theorem length_le_escaped (psk : Bytes) : psk.length ≤ (escaped psk).length := by
  induction psk with
  | nil => exact Nat.le_refl _
  | cons c psk ih =>
    rw [escaped_cons]
    split_ifs <;> simp only [List.length_append, List.length_cons, List.length_nil] <;> omega

/-- Only a passphrase without quotation marks and backslashes is written as it is. -/
theorem escaped_eq_self_iff {psk : Bytes} : escaped psk = psk ↔ 34 ∉ psk ∧ 92 ∉ psk := by
  induction psk with
  | nil => simp [escaped]
  | cons c psk ih =>
    rw [escaped_cons]
    split_ifs with hmark
    · constructor
      · intro heq
        have hlength := congrArg List.length heq
        have hle := length_le_escaped psk
        simp only [List.length_append, List.length_cons, List.length_nil] at hlength
        omega
      · rintro ⟨hquote, hslash⟩
        rcases hmark with rfl | rfl
        · exact absurd List.mem_cons_self hquote
        · exact absurd List.mem_cons_self hslash
    · rw [List.singleton_append, List.cons.injEq, ih, List.mem_cons, List.mem_cons, not_or, not_or]
      rw [not_or] at hmark
      constructor
      · rintro ⟨-, hquote, hslash⟩
        exact ⟨⟨fun h => hmark.1 h.symm, hquote⟩, fun h => hmark.2 h.symm, hslash⟩
      · rintro ⟨⟨-, hquote⟩, -, hslash⟩
        exact ⟨rfl, hquote, hslash⟩

theorem Store.psk_lines (s : Store) : ∀ c ∈ s.keyed, 10 ∉ c.psk := by
  intro c hc hmem
  obtain ⟨p, -, hp⟩ := List.mem_filterMap.mp hc
  obtain ⟨key, hkey, rfl⟩ := Option.map_eq_some_iff.mp hp
  exact absurd (p.1.network.printable key hkey 10 hmem).1 (by decide)

/-! ### Every list of networks can be stored -/

/-- A value with all entities that it needs. -/
def encode (value : Bytes) : Bytes :=
  value.flatMap fun c =>
    if c = 34 then ascii "&quot;" else if c = 38 then ascii "&amp;"
    else if c = 60 then ascii "&lt;" else [c]

theorem content_encode (value : Bytes) : Content value (encode value) := by
  induction value with
  | nil => exact .nil
  | cons c value ih =>
    rw [encode, List.flatMap_cons, ← encode]
    split_ifs with hquote hamp hlt
    · rw [hquote]
      exact .entity (e := (ascii "quot;", 34)) (by decide) ih
    · rw [hamp]
      exact .entity (e := (ascii "amp;", 38)) (by decide) ih
    · rw [hlt]
      exact .entity (e := (ascii "lt;", 60)) (by decide) ih
    · exact .raw c hamp hlt ih

theorem Content.no_zero {value xml : Bytes} (h : Content value xml) (hvalue : 0 ∉ value) :
    0 ∉ xml := by
  induction h with
  | nil => exact hvalue
  | raw c hamp hlt h ih =>
    rw [List.mem_cons, not_or] at hvalue ⊢
    exact ⟨hvalue.1, ih hvalue.2⟩
  | entity he h ih =>
    have hnames : ∀ e ∈ entities, 0 ∉ e.1 := by decide
    rw [List.mem_cons, not_or] at hvalue
    rw [List.mem_cons, List.mem_append, not_or, not_or]
    exact ⟨by decide, hnames _ he, ih hvalue.2⟩

/-- A string element. -/
def stringText (key : String) (value : Bytes) : Bytes :=
  tag key ++ (encode (quoted value) ++ stringEnd)

def Network.body (n : Network) : Bytes :=
  stringText "SSID" n.ssid ++ (n.psk.map (stringText "PreSharedKey")).getD []

section Stored

variable {needle : Bytes}

/-- A string element is passed over in the search of another marker. -/
theorem search_stringText (h : Marker 60 needle) {key : String} (hkey : Key key)
    (htag : ¬needle <+: tag key ∧ ¬tag key <+: needle)
    (hend : ¬needle <+: stringEnd ∧ ¬stringEnd <+: needle) (value b : Bytes) :
    search needle (stringText key value ++ b) = search needle b := by
  rw [stringText, List.append_assoc, h.search_marker hkey.marker htag.1 htag.2, List.append_assoc,
    h.search_clean (content_encode _).clean, h.search_marker marker_stringEnd hend.1 hend.2]

theorem no_zero_body (n : Network) : 0 ∉ n.body := by
  have hstring : ∀ (key : String) (value : Bytes), 0 ∉ tag key → 0 ∉ value →
      0 ∉ stringText key value := by
    intro key value htag hvalue
    have hquoted : 0 ∉ quoted value := by
      rw [quoted, List.mem_cons, List.mem_append, not_or, not_or]
      exact ⟨by decide, hvalue, by decide⟩
    rw [stringText, List.mem_append, List.mem_append, not_or, not_or]
    exact ⟨htag, (content_encode _).no_zero hquoted, by decide⟩
  have hssid : 0 ∉ n.ssid := fun hmem => (n.plain 0 hmem).1 (by decide)
  rw [Network.body, List.mem_append, not_or]
  refine ⟨hstring _ _ (by decide) hssid, ?_⟩
  cases hkey : n.psk with
  | none => exact List.not_mem_nil
  | some key =>
    have hpsk : 0 ∉ key := fun hmem => absurd (n.printable key hkey 0 hmem).1 (by decide)
    exact hstring _ _ (by decide) hpsk

/-- The element of a network. -/
def Network.element (n : Network) : Element where
  network := n
  body := n.body
  ssid := ⟨[], _, _, by rw [Network.body, stringText, List.append_assoc, List.append_assoc]; rfl,
    by decide, content_encode _⟩
  psk := by
    cases hkey : n.psk with
    | none =>
      refine not_infix_of_search ?_
      rw [Network.body, hkey, search_stringText key_psk.marker key_ssid (by decide) (by decide)]
      rfl
    | some key =>
      refine ⟨stringText "SSID" n.ssid, encode (quoted key), [], ?_, not_infix_of_search ?_,
        content_encode _⟩
      · rw [Network.body, hkey, List.append_nil]
        rfl
      · rw [← List.append_nil (stringText _ _),
          search_stringText key_psk.marker key_ssid (by decide) (by decide)]
        rfl
  closed := by
    refine not_infix_of_search ?_
    rw [Network.body, search_stringText marker_configurationEnd key_ssid (by decide) (by decide)]
    cases n.psk with
    | none => rfl
    | some key =>
      rw [Option.map_some, Option.getD_some, ← List.append_nil (stringText _ _),
        search_stringText marker_configurationEnd key_psk (by decide) (by decide)]
      rfl
  ends := no_zero_body n

end Stored

def noGap : Gap where
  text := []
  opens := by decide
  ends := List.not_mem_nil

def Store.of (networks : List Network) : Store where
  lead := noGap
  elements := networks.map fun n => (n.element, noGap)

/-- Each list of networks is that of a store. -/
theorem Store.networks_of (networks : List Network) :
    (Store.of networks).elements.map (fun p => p.1.network) = networks := by
  rw [Store.of, List.map_map]
  exact List.map_id networks

/-! ### Stores and what is read of them -/

/-- A file is written for every store that is not too long and has a network with a key in it, on a
host where nothing fails. It names those networks in order, and each passphrase is read under the name
of its own network; all are read as they were saved exactly if none has a quotation mark or a backslash
in it. -/
theorem migrate_exact_iff (host : Host) (s : Store) :
    ((∃ file, migrate host s.text = .ok file) ↔
      host.works = true ∧ s.text.length ≤ maximum ∧ s.keyed ≠ []) ∧
    ∀ file, migrate host s.text = .ok file →
      (read file).map Credential.ssid = s.keyed.map Credential.ssid ∧
      (read file = s.keyed ↔ ∀ c ∈ s.keyed, 34 ∉ c.psk ∧ 92 ∉ c.psk) := by
  constructor
  · constructor
    · rintro ⟨file, hfile⟩
      obtain ⟨hworks, hle, hkeyed, -⟩ := (migrate_store host s file).mp hfile
      exact ⟨hworks, hle, hkeyed⟩
    · rintro ⟨hworks, hle, hkeyed⟩
      exact ⟨_, (migrate_store host s _).mpr ⟨hworks, hle, hkeyed, rfl⟩⟩
  · intro file hfile
    obtain ⟨-, -, -, rfl⟩ := (migrate_store host s file).mp hfile
    rw [read_config s.psk_lines, List.map_map]
    refine ⟨rfl, ?_⟩
    nth_rewrite 2 [← List.map_id s.keyed]
    rw [List.map_inj_left]
    refine forall₂_congr fun c _ => ?_
    rw [← escaped_eq_self_iff]
    constructor
    · intro h
      exact congrArg Credential.psk h
    · intro h
      rw [h, id]

def allWell : Host where
  euid := 0
  unreadable := false
  regular := true
  unwritable := false
  failed := false
  immovable := false

/-- The name `forge` with a passphrase. -/
def forge (key : Bytes) (hlength : 8 ≤ key.length ∧ key.length ≤ 63)
    (hprintable : ∀ c ∈ key, 32 ≤ c ∧ c ≤ 126) : Network where
  ssid := ascii "forge"
  psk := some key
  named := by decide
  plain := by decide
  secure := by simpa using hlength
  printable := by simpa using hprintable

def plainStore : Store := .of [forge (ascii "password") (by decide) (by decide)]

set_option maxRecDepth 4000 in
theorem plainStore_written : migrate allWell plainStore.text = .ok (config plainStore.keyed) := by
  rw [migrate_store]
  exact ⟨rfl, by decide, by decide, rfl⟩

theorem plainStore_exact : ∃ file, migrate allWell plainStore.text = .ok file ∧
    read file = [⟨ascii "forge", ascii "password"⟩] :=
  ⟨_, plainStore_written,
    ((migrate_exact_iff allWell plainStore).2 _ plainStore_written).2.mpr (by decide)⟩

def markedStore : Store := .of [forge (ascii "pass\"word") (by decide) (by decide)]

set_option maxRecDepth 4000 in
/-- A passphrase with a quotation mark in it comes back with a backslash. -/
theorem marked_passphrase_changed :
    markedStore.keyed = [⟨ascii "forge", ascii "pass\"word"⟩] ∧
    ∃ file, migrate allWell markedStore.text = .ok file ∧
      read file = [⟨ascii "forge", ascii "pass\\\"word"⟩] := by
  refine ⟨rfl, config markedStore.keyed, ?_, ?_⟩
  · rw [migrate_store]
    exact ⟨rfl, by decide, by decide, rfl⟩
  · rw [read_config markedStore.psk_lines]
    rfl

end ForgeOS.Boot.MigrateWifi
