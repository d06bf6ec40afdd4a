import ForgeOS.Image.Builder
import ForgeOS.Library.Sorting

/-! Extraction as writing. When an archive extracts exactly its members, what
extraction does to a folder is one list of writes that depends on the archive
alone, laid over whatever the folder held before. -/

namespace ForgeOS.Image

open ForgeOS.Python

variable {β : Type*} {v : FileView β}

/-- Every archive extracts exactly its members: those the builder selects are
readable files with relative names. -/
structure Extractable (v : FileView β) : Prop where
  zip : ∀ c ms, v.zip c = .members ms → ∀ m ∈ ms, inFastbootOrder m = true → m.place.isSome
  tar : ∀ c ms, v.tar c = some ms → ∀ m ∈ ms, m.isFile = true →
    inFastbootOrder m = true ∨ isSamsungImage m = true → m.place.isSome

/-! ### Writes over a folder -/

abbrev Writes (β : Type*) := List (List FileName × β)

def Tree.update (t : Tree β) (ws : Writes β) : Tree β :=
  ⟨dictUpdate t.entries ws, nodup_dictUpdate t.nodup ws⟩

/-- What the writes leave at a path. -/
def lastWrite (ws : Writes β) (path : List FileName) : Option β := dictGet ws.reverse path

theorem Tree.lookup_update (t : Tree β) (ws : Writes β) (path : List FileName) :
    (t.update ws).lookup path = (lastWrite ws path).or (t.lookup path) :=
  dictGet_dictUpdate t.entries ws path

theorem Tree.update_append (t : Tree β) (ws us : Writes β) :
    t.update (ws ++ us) = (t.update ws).update us := by
  simp [Tree.update, dictUpdate_append]

theorem Tree.lookup_eq_some (t : Tree β) {path : List FileName} {c : β} :
    t.lookup path = some c ↔ (path, c) ∈ t.entries := dictGet_eq_some_iff t.nodup

/-! ### What an archive writes -/

def flatWrites (m : Member β) : Writes β :=
  match m.place with
  | some (path, c) => [(path, c), (path.drop (path.length - 1), c)]
  | none => []

def nestedWrites (m : Member β) : Writes β :=
  match m.place with
  | some (path, c) => [(path, c)]
  | none => []

theorem extractFlat_eq (t : Tree β) {m : Member β} (hm : m.place.isSome) :
    extractFlat v t m = (t.update (flatWrites m), true) := by
  obtain ⟨⟨path, c⟩, hplace⟩ := Option.isSome_iff_exists.mp hm
  simp only [extractFlat, flatWrites, hplace]
  rfl

theorem extractNested_eq (t : Tree β) {m : Member β} (hm : m.place.isSome) :
    extractNested v t m = (t.update (nestedWrites m), true) := by
  obtain ⟨⟨path, c⟩, hplace⟩ := Option.isSome_iff_exists.mp hm
  simp only [extractNested, nestedWrites, hplace]
  rfl

/-- Members that each write something write it together, and none of them raises. -/
theorem extractAll_eq {one : Tree β → Member β → Tree β × Bool} {writes : Member β → Writes β}
    {ms : List (Member β)} (hone : ∀ m ∈ ms, ∀ t, one t m = (t.update (writes m), true))
    (t : Tree β) : extractAll one t ms = (t.update (ms.flatMap writes), true) := by
  induction ms generalizing t with
  | nil => rfl
  | cons m ms ih =>
    rw [extractAll, hone m (by simp) t, List.flatMap_cons, Tree.update_append]
    exact ih (fun m' hm' => hone m' (by simp [hm'])) _

/-- What extracting an archive for fastboot images writes; `none` when it raises. -/
def fastbootWrites (v : FileView β) (n : FileName) : Entry β → Option (Writes β)
  | .folder => none
  | .file c =>
    if suffix n.val = ".zip" then
      match v.zip c with
      | .members ms => some ((ms.filter inFastbootOrder).flatMap flatWrites)
      | _ => none
    else
      match v.tar c with
      | some ms => some ((ms.filter fun m => m.isFile && inFastbootOrder m).flatMap flatWrites)
      | none => some []

theorem extractArchive_eq (hv : Extractable v) (n : FileName) (e : Entry β) (t : Tree β) :
    extractArchive v n e t =
      ((fastbootWrites v n e).elim t t.update, (fastbootWrites v n e).isSome) := by
  cases e with
  | folder => rfl
  | file c =>
    by_cases hzipName : suffix n.val = ".zip"
    · simp only [extractArchive, fastbootWrites, if_pos hzipName]
      cases hzip : v.zip c with
      | members ms =>
        have hall : ∀ m ∈ ms.filter inFastbootOrder, ∀ t : Tree β,
            extractFlat v t m = (t.update (flatWrites m), true) := by
          intro m hm t
          have hsel : inFastbootOrder m = true := (List.mem_filter.mp hm).2
          exact extractFlat_eq t (hv.zip c ms hzip m (List.mem_of_mem_filter hm) hsel)
        exact extractAll_eq hall t
      | badZip => rfl
      | fails e => rfl
    · simp only [extractArchive, fastbootWrites, if_neg hzipName]
      cases htar : v.tar c with
      | some ms =>
        have hall : ∀ m ∈ ms.filter fun m => m.isFile && inFastbootOrder m, ∀ t : Tree β,
            extractFlat v t m = (t.update (flatWrites m), true) := by
          intro m hm t
          obtain ⟨hmem, hsel⟩ := List.mem_filter.mp hm
          rw [Bool.and_eq_true] at hsel
          exact extractFlat_eq t (hv.tar c ms htar m hmem hsel.1 (.inl hsel.2))
        exact extractAll_eq hall t
      | none => rfl

/-! ### Samsung archives -/

/-- The bytes opened for a Samsung archive, read off the directory as it was before. -/
def samsungBytes (d : Dir β) (n : FileName) (e : Entry β) : Option β :=
  if suffix n.val = ".md5" then
    match toFileName? (withoutSuffix n.val) with
    | none => none
    | some tarName =>
      match d.lookup tarName, e with
      | some (.file c), _ => some c
      | some .folder, _ => none
      | none, .file c => some c
      | none, .folder => none
  else
    match e with
    | .file c => some c
    | .folder => none

theorem openSamsungArchive_bytes (a : BuildArea β) (n : FileName) (e : Entry β) :
    (openSamsungArchive a n e).2 = samsungBytes a.source n e := by
  unfold openSamsungArchive samsungBytes
  split_ifs
  · cases toFileName? (withoutSuffix n.val) with
    | none => rfl
    | some tarName =>
      cases hl : a.source.lookup tarName with
      | none => cases e <;> simp [hl]
      | some e' => cases e' <;> simp [hl]
  · cases e <;> rfl

theorem Dir.lookup_add (d : Dir β) (n k : FileName) (c : β) (hk : k ≠ n) :
    (d.add n c).lookup k = d.lookup k := by
  unfold Dir.add Dir.lookup
  split_ifs
  · rfl
  · rw [dictGet_append, dictGet_cons, if_neg hk, dictGet_nil, Option.or_none]

/-- Opening an archive changes at most the entry of its own `.tar` copy. -/
theorem openSamsungArchive_lookup (a : BuildArea β) (n : FileName) (e : Entry β) {k : FileName}
    (hk : toFileName? (withoutSuffix n.val) ≠ some k ∨ suffix n.val ≠ ".md5") :
    (openSamsungArchive a n e).1.source.lookup k = a.source.lookup k := by
  unfold openSamsungArchive
  split_ifs with hmd5
  · cases htar : toFileName? (withoutSuffix n.val) with
    | none => rfl
    | some tarName =>
      have hne : k ≠ tarName := by
        rintro rfl
        exact hk.elim (fun h => h htar) fun h => h hmd5
      dsimp only
      cases hl : a.source.lookup tarName with
      | none =>
        cases e with
        | file c => exact a.source.lookup_add tarName k c hne
        | folder => rfl
      | some e' => cases e' <;> rfl
  · cases e <;> rfl

theorem toFileName?_eq_some {s : String} {n : FileName} (h : toFileName? s = some n) :
    n.val = s := by
  unfold toFileName? at h
  split_ifs at h
  cases h
  rfl

/-- Two `.md5` archives have different `.tar` copies. -/
theorem md5_tarName_ne {n n' : FileName} (hn : suffix n.val = ".md5") (hn' : suffix n'.val = ".md5")
    (hne : n ≠ n') {k : FileName} (hk : toFileName? (withoutSuffix n'.val) = some k) :
    toFileName? (withoutSuffix n.val) ≠ some k := by
  intro h
  have hsame : withoutSuffix n.val = withoutSuffix n'.val := by
    rw [← toFileName?_eq_some h, ← toFileName?_eq_some hk]
  refine hne (Subtype.ext ?_)
  rw [← withoutSuffix_append n.val, ← withoutSuffix_append n'.val, hsame, hn, hn']

/-- What a Samsung archive writes into the extraction folder. -/
def samsungWrites (v : FileView β) (d : Dir β) (x : FileName × Entry β) : Writes β :=
  match (samsungBytes d x.1 x.2).bind v.tar with
  | some ms => (ms.filter isSamsungImage).flatMap nestedWrites
  | none => []

/-- One archive of the loop: a copy may be made, and the folder gets the archive's writes. -/
theorem extractSamsungFrom_cons (hv : Extractable v) (a : BuildArea β) (t : Tree β)
    (x : FileName × Entry β) (rest : List (FileName × Entry β)) :
    extractSamsungFrom v a t (x :: rest) =
      extractSamsungFrom v (openSamsungArchive a x.1 x.2).1
        (t.update (samsungWrites v a.source x)) rest := by
  have hbytes := openSamsungArchive_bytes a x.1 x.2
  have hstep : extractSamsungFrom v a t (x :: rest) =
      match (openSamsungArchive a x.1 x.2).2.bind v.tar with
      | some ms => extractSamsungFrom v (openSamsungArchive a x.1 x.2).1
          (extractAll (extractNested v) t (ms.filter isSamsungImage)).1 rest
      | none => extractSamsungFrom v (openSamsungArchive a x.1 x.2).1 t rest := rfl
  rw [hstep, hbytes, samsungWrites]
  cases htar : (samsungBytes a.source x.1 x.2).bind v.tar with
  | none => rfl
  | some ms =>
    obtain ⟨c, -, hc⟩ := Option.bind_eq_some_iff.mp htar
    have hall : ∀ m ∈ ms.filter isSamsungImage, ∀ t : Tree β,
        extractNested v t m = (t.update (nestedWrites m), true) := by
      intro m hm t
      obtain ⟨hmem, hsel⟩ := List.mem_filter.mp hm
      have hfile : m.isFile = true := (Bool.and_eq_true_iff.mp hsel).1
      exact extractNested_eq t (hv.tar c ms hc m hmem hfile (.inr hsel))
    dsimp only
    rw [extractAll_eq hall]

/-- No two `.md5` archives of the list have the same name. -/
def DistinctMd5 (archives : List (FileName × Entry β)) : Prop :=
  archives.Pairwise fun x y => suffix x.1.val = ".md5" → suffix y.1.val = ".md5" → x.1 ≠ y.1

/-- An archive reads the same after another one has been opened. -/
theorem samsungBytes_after (a : BuildArea β) {x y : FileName × Entry β}
    (hne : suffix x.1.val = ".md5" → suffix y.1.val = ".md5" → x.1 ≠ y.1) :
    samsungBytes (openSamsungArchive a x.1 x.2).1.source y.1 y.2 = samsungBytes a.source y.1 y.2 := by
  unfold samsungBytes
  split_ifs with hy
  · cases hk : toFileName? (withoutSuffix y.1.val) with
    | none => rfl
    | some k =>
      have hlookup : (openSamsungArchive a x.1 x.2).1.source.lookup k = a.source.lookup k := by
        refine openSamsungArchive_lookup a x.1 x.2 ?_
        by_cases hx : suffix x.1.val = ".md5"
        · exact .inl (md5_tarName_ne hx hy (hne hx hy) hk)
        · exact .inr hx
      simp only [hlookup]
  · rfl

theorem samsungWrites_after (a : BuildArea β) {x y : FileName × Entry β}
    (hne : suffix x.1.val = ".md5" → suffix y.1.val = ".md5" → x.1 ≠ y.1) :
    samsungWrites v (openSamsungArchive a x.1 x.2).1.source y = samsungWrites v a.source y := by
  rw [samsungWrites, samsungWrites, samsungBytes_after a hne]

/-- The archives together lay their writes over the folder, each read from the
directory as it was at the start. -/
theorem extractSamsungFrom_eq (hv : Extractable v) {archives : List (FileName × Entry β)}
    (hdistinct : DistinctMd5 archives) (a : BuildArea β) (t : Tree β) :
    (extractSamsungFrom v a t archives).2 =
      t.update (archives.flatMap (samsungWrites v a.source)) := by
  induction archives generalizing a t with
  | nil => rfl
  | cons x rest ih =>
    obtain ⟨hhead, htail⟩ := List.pairwise_cons.mp hdistinct
    -- the archives behind do not see the copy that this one may have made
    have hlater : rest.flatMap (samsungWrites v (openSamsungArchive a x.1 x.2).1.source) =
        rest.flatMap (samsungWrites v a.source) :=
      List.flatMap_congr fun y hy => samsungWrites_after a (hhead y hy)
    rw [extractSamsungFrom_cons hv, ih htail, hlater, List.flatMap_cons, Tree.update_append]

end ForgeOS.Image
