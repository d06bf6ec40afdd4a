import ForgeOS.Image.Extraction

/-! What the builder sees of a directory and of an extraction folder. Leaving
entries out of `os-source` leaves them out of every listing and changes nothing
else, and of a folder only the plausible images under the names that the builder
asks for count. A decompressed image is what was there, or else what its
compressed file holds. -/

namespace ForgeOS.Image

open ForgeOS.Python ForgeOS.Library.Sorting

variable {β : Type*} {v : FileView β}

/-! ### A directory without some of its entries -/

def Dir.without (d : Dir β) (names : List FileName) : Dir β where
  entries := d.entries.filter fun e => e.1 ∉ names
  nodup := d.nodup.sublist (List.filter_sublist.map Prod.fst)

theorem Dir.mem_lookup (d : Dir β) {n : FileName} {e : Entry β} :
    d.lookup n = some e ↔ (n, e) ∈ d.entries := dictGet_eq_some_iff d.nodup

theorem Dir.lookup_without (d : Dir β) (names : List FileName) {n : FileName} (h : n ∉ names) :
    (d.without names).lookup n = d.lookup n := by
  ext e
  rw [Dir.mem_lookup, Dir.mem_lookup, Dir.without, List.mem_filter]
  simp [h]

theorem Dir.file?_without (d : Dir β) (names : List FileName) {n : FileName} (h : n ∉ names) :
    (d.without names).file? n = d.file? n := by
  rw [Dir.file?, Dir.file?, d.lookup_without names h]

theorem Dir.entry_inj (d : Dir β) {a b : FileName × Entry β} (ha : a ∈ d.entries)
    (hb : b ∈ d.entries) (h : a.1 = b.1) : a = b := by
  have ha' : d.lookup a.1 = some a.2 := d.mem_lookup.mpr ha
  have hb' : d.lookup b.1 = some b.2 := d.mem_lookup.mpr hb
  rw [h, hb'] at ha'
  exact Prod.ext h (Option.some.inj ha').symm

/-- The names of a directory can be sorted by their text. -/
theorem Dir.sorts_byName (d : Dir β) {l : List (FileName × Entry β)} (hl : ∀ e ∈ l, e ∈ d.entries) :
    Sorts (fun a b : FileName × Entry β => a.1.val.toList ≤ b.1.val.toList) l where
  total a b := le_total a.1.val.toList b.1.val.toList
  trans _ _ _ := le_trans
  anti a ha b hb hab hba := by
    have hname : a.1 = b.1 := Subtype.ext (String.toList_inj.mp (le_antisymm hab hba))
    exact d.entry_inj (hl a ha) (hl b hb) hname

theorem Dir.sortedGlob_without (d : Dir β) (names : List FileName) (pattern : String) :
    (d.without names).sortedGlob pattern =
      (d.sortedGlob pattern).filter fun e => e.1 ∉ names := by
  have hsorts := d.sorts_byName (l := d.entries.filter fun e => fnmatch e.1.val pattern)
    fun e he => List.mem_of_mem_filter he
  rw [Dir.sortedGlob, Dir.sortedGlob, filter_insertionSort hsorts, Dir.without,
    List.filter_filter, List.filter_filter]
  congr 2
  funext e
  exact Bool.and_comm _ _

theorem Dir.mem_sortedGlob {d : Dir β} {pattern : String} {e : FileName × Entry β} :
    e ∈ d.sortedGlob pattern ↔ e ∈ d.entries ∧ fnmatch e.1.val pattern = true := by
  rw [Dir.sortedGlob, List.mem_insertionSort, List.mem_filter]

/-- A listing of other names does not miss what is left out. -/
theorem Dir.sortedGlob_without_eq (d : Dir β) {names : List FileName} {pattern : String}
    (h : ∀ n ∈ names, fnmatch n.val pattern = false) :
    (d.without names).sortedGlob pattern = d.sortedGlob pattern := by
  rw [d.sortedGlob_without, List.filter_eq_self]
  intro e he
  rw [decide_eq_true_eq]
  intro hmem
  have hmatch : fnmatch e.1.val pattern = true := (Dir.mem_sortedGlob.mp he).2
  rw [h e.1 hmem] at hmatch
  exact absurd hmatch (by decide)

theorem Dir.files_without (d : Dir β) (names : List FileName) :
    (d.without names).files v = (d.files v).filter fun f : FileName × β => f.1 ∉ names := by
  rw [Dir.files, Dir.files, filter_insertionSort]
  · congr 1
    rw [Dir.without, List.filterMap_filter, List.filter_filterMap]
    congr 1
    funext e
    obtain ⟨n, x⟩ := e
    cases x <;> by_cases h : n ∈ names <;> simp [h, Option.filter]
  · refine Sorts.of_rank fun a ha b hb hab => ?_
    obtain ⟨⟨na, xa⟩, hea, ha⟩ := List.mem_filterMap.mp ha
    obtain ⟨⟨nb, xb⟩, heb, hb⟩ := List.mem_filterMap.mp hb
    cases xa <;> cases xb <;> cases ha <;> cases hb
    have hname : na = nb := v.rank_injective hab
    cases d.entry_inj hea heb hname
    rfl

/-! ### Plausible images -/

/-- The content, when it can be an image. -/
def plausibleImage (v : FileView β) (c : Option β) : Option β := c.filter (isPlausibleImage v)

@[simp] theorem plausibleImage_none (v : FileView β) : plausibleImage v none = none := rfl

theorem findFastbootImages_eq (look : FileName → Option β) :
    findFastbootImages v look = fastbootOrder.filterMap fun n =>
      (plausibleImage v (look n)).map fun c => ⟨removeSuffix n.val ".img", n, c⟩ := by
  unfold findFastbootImages
  congr 1
  funext n
  cases look n with
  | none => rfl
  | some c => cases h : isPlausibleImage v c <;> simp [plausibleImage, Option.filter, h]

theorem findFastbootImages_congr {look look' : FileName → Option β}
    (h : ∀ n ∈ fastbootOrder, plausibleImage v (look n) = plausibleImage v (look' n)) :
    findFastbootImages v look = findFastbootImages v look' := by
  rw [findFastbootImages_eq, findFastbootImages_eq]
  exact List.filterMap_congr fun n hn => by rw [h n hn]

theorem findFastbootImages_eq_nil_iff {look : FileName → Option β} :
    findFastbootImages v look = [] ↔ ∀ n ∈ fastbootOrder, plausibleImage v (look n) = none := by
  rw [findFastbootImages_eq, List.filterMap_eq_nil_iff]
  simp only [Option.map_eq_none_iff]

/-- Only the plausible image files among those listed count. -/
theorem findHeimdallImages_congr {files files' : List (FileName × β)}
    (h : (files.filter fun f => fnmatch f.1.val "*.img" && isPlausibleImage v f.2) =
      files'.filter fun f => fnmatch f.1.val "*.img" && isPlausibleImage v f.2) :
    findHeimdallImages v files = findHeimdallImages v files' := by
  unfold findHeimdallImages
  rw [h]

theorem Tree.mem_files {t : Tree β} {f : FileName × β} :
    f ∈ t.files v ↔ t.lookup [f.1] = some f.2 := by
  rw [Tree.files, List.mem_insertionSort, List.mem_filterMap, Tree.lookup_eq_some]
  constructor
  · rintro ⟨⟨path, c⟩, hmem, hpath⟩
    split at hpath
    · rename_i n hn
      cases hpath
      dsimp only at hn
      rw [← hn]
      exact hmem
    · cases hpath
  · intro h
    exact ⟨([f.1], f.2), h, rfl⟩

/-- A listing has every file once and is ordered by rank. -/
theorem Tree.files_sorted (t : Tree β) :
    (t.files v).Nodup ∧ (t.files v).Pairwise fun a b => v.rank a.1 ≤ v.rank b.1 := by
  constructor
  · rw [Tree.files, (List.perm_insertionSort _ _).nodup_iff]
    refine (List.Nodup.of_map Prod.fst t.nodup).filterMap fun x y f hx hy => ?_
    obtain ⟨px, cx⟩ := x
    obtain ⟨py, cy⟩ := y
    dsimp only at hx hy
    split at hx <;> cases hx
    split at hy <;> cases hy
    rfl
  · refine Sorts.pairwise (Sorts.of_rank fun a ha b hb hab => ?_)
    have ha' : a ∈ t.files v := (List.mem_insertionSort _).mpr ha
    have hb' : b ∈ t.files v := (List.mem_insertionSort _).mpr hb
    have hname : a.1 = b.1 := v.rank_injective hab
    rw [Tree.mem_files] at ha' hb'
    rw [hname, hb'] at ha'
    exact Prod.ext hname (Option.some.inj ha').symm

/-- Folders with the same plausible images give the same Heimdall images. -/
theorem findHeimdallImages_files_congr {t t' : Tree β}
    (h : ∀ k : FileName, fnmatch k.val "*.img" = true →
      plausibleImage v (t.lookup [k]) = plausibleImage v (t'.lookup [k])) :
    findHeimdallImages v (t.files v) = findHeimdallImages v (t'.files v) := by
  refine findHeimdallImages_congr ?_
  have hmem : ∀ (t : Tree β) (f : FileName × β),
      f ∈ ((t.files v).filter fun f => fnmatch f.1.val "*.img" && isPlausibleImage v f.2) ↔
        fnmatch f.1.val "*.img" = true ∧ plausibleImage v (t.lookup [f.1]) = some f.2 := by
    intro t f
    rw [List.mem_filter, Tree.mem_files, Bool.and_eq_true, plausibleImage, Option.filter_eq_some_iff]
    tauto
  refine List.Perm.eq_of_pairwise (fun a b ha hb hab hba => ?_) (t.files_sorted.2.filter _)
    (t'.files_sorted.2.filter _) ?_
  · have hname : a.1 = b.1 := v.rank_injective (le_antisymm hab hba)
    have ha' := (hmem t a).mp ha
    have hb' := ((hmem t' b).mp hb).2
    rw [← hname, ← h a.1 ha'.1, ha'.2] at hb'
    exact Prod.ext hname (Option.some.inj hb')
  · rw [List.perm_ext_iff_of_nodup (t.files_sorted.1.filter _) (t'.files_sorted.1.filter _)]
    intro f
    rw [hmem, hmem]
    refine and_congr_right fun himg => ?_
    rw [h f.1 himg]

/-! ### Decompressed images -/

/-- The name `n` with `.lz4` behind it. -/
def compressedName (n : FileName) : FileName where
  val := n.val ++ ".lz4"
  property := by
    obtain ⟨hne, -, -, hslash⟩ := n.property
    have hlist : (n.val ++ ".lz4").toList = n.val.toList ++ ['.', 'l', 'z', '4'] := by simp
    refine ⟨?_, ?_, ?_, ?_⟩
    · intro h
      simpa [hlist] using congrArg String.toList h
    · intro h
      simpa [hlist] using congrArg (List.getLast? ∘ String.toList) h
    · intro h
      simpa [hlist] using congrArg (List.getLast? ∘ String.toList) h
    · simpa [hlist] using hslash

theorem compressedName_toList (k : FileName) :
    (compressedName k).val.toList = k.val.toList ++ '.' :: "lz4".toList := by
  simp [compressedName]

theorem suffix_lz4 {n : FileName} (h : fnmatch n.val "*.img.lz4" = true) :
    suffix n.val = ".lz4" := by
  obtain ⟨mid, hmid⟩ := (fnmatch_star_iff ".img.lz4".toList rfl (by decide)).mp h
  have hs : n.val.toList = (mid ++ ".img".toList) ++ '.' :: "lz4".toList := by
    rw [hmid]
    simp
  exact suffix_of_append hs (by simp) (by decide) (by decide)

/-- Taking `.lz4` off a compressed image's name leads back to the image. -/
theorem withoutSuffix_compressed {k : FileName} (h : fnmatch k.val "*.img" = true) :
    fnmatch (compressedName k).val "*.img.lz4" = true ∧
      withoutSuffix (compressedName k).val = k.val := by
  obtain ⟨mid, hmid⟩ := (fnmatch_star_iff ".img".toList rfl (by decide)).mp h
  have hmatch : fnmatch (compressedName k).val "*.img.lz4" = true := by
    refine (fnmatch_star_iff ".img.lz4".toList rfl (by decide)).mpr ⟨mid, ?_⟩
    rw [compressedName_toList, hmid]
    simp
  refine ⟨hmatch, ?_⟩
  have hjoin := withoutSuffix_append (compressedName k).val
  rw [suffix_lz4 hmatch] at hjoin
  exact String.append_left_inj ".lz4" |>.mp hjoin

/-- The only file that decompresses to an image is its compressed file. -/
theorem decompressedPath_iff {k : FileName} (h : fnmatch k.val "*.img" = true)
    (path : List FileName) : decompressedPath path = some [k] ↔ path = [compressedName k] := by
  constructor
  · intro hpath
    unfold decompressedPath at hpath
    split at hpath
    · rename_i n hlast
      split_ifs at hpath with hn
      obtain ⟨out, hout, hk⟩ := Option.map_eq_some_iff.mp hpath
      have hk' : path.dropLast ++ [out] = [] ++ [k] := hk
      obtain ⟨hdrop, hlist⟩ := List.append_inj' hk' rfl
      have hval : k.val = withoutSuffix n.val := by
        rw [← toFileName?_eq_some hout, List.singleton_inj.mp hlist]
      have hname : n = compressedName k := by
        refine Subtype.ext ?_
        rw [← withoutSuffix_append n.val, suffix_lz4 hn, ← hval]
        rfl
      rw [← List.dropLast_append_getLast? n hlast, hdrop, hname]
      rfl
    · cases hpath
  · rintro rfl
    obtain ⟨hmatch, hwithout⟩ := withoutSuffix_compressed h
    have hout : toFileName? k.val = some k := dif_pos k.property
    simp only [decompressedPath, List.getLast?_singleton, hmatch, if_true, hwithout, hout]
    rfl

/-- One round of the loop in `decompressAll`. -/
def decompressOne (v : FileView β) (acc : Tree β) (x : List FileName × β) : Tree β :=
  match decompressedPath x.1, v.lz4 x.2 with
  | some out, some c => if (acc.lookup out).isSome then acc else acc.write out c
  | _, _ => acc

theorem decompressAll_eq (v : FileView β) (t : Tree β) :
    decompressAll v t = t.entries.foldl (decompressOne v) t := rfl

/-- What a file puts at a path that is still free. -/
def outputAt (v : FileView β) (p : List FileName) (x : List FileName × β) : Option β :=
  if decompressedPath x.1 = some p then v.lz4 x.2 else none

theorem Tree.lookup_write (t : Tree β) (p q : List FileName) (c : β) :
    (t.write p c).lookup q = if q = p then some c else t.lookup q := dictGet_dictSet t.entries p q c

theorem lookup_decompressOne (acc : Tree β) (x : List FileName × β) (p : List FileName) :
    (decompressOne v acc x).lookup p = (acc.lookup p).or (outputAt v p x) := by
  unfold decompressOne outputAt
  cases hout : decompressedPath x.1 with
  | none => simp
  | some out =>
    cases hc : v.lz4 x.2 with
    | none => simp
    | some c =>
      by_cases hp : out = p
      · subst hp
        cases hacc : acc.lookup out with
        | none => simp [hacc, Tree.lookup_write]
        | some c' => simp [hacc]
      · have hne : p ≠ out := fun h => hp h.symm
        cases hacc : acc.lookup out with
        | none => simp [hacc, Tree.lookup_write, hp, hne]
        | some c' => simp [hacc, hp]

theorem lookup_decompressFold (es : List (List FileName × β)) (acc : Tree β) (p : List FileName) :
    (es.foldl (decompressOne v) acc).lookup p = (acc.lookup p).or (es.findSome? (outputAt v p)) := by
  induction es generalizing acc with
  | nil => simp
  | cons x es ih =>
    rw [List.foldl_cons, ih, lookup_decompressOne, Option.or_assoc, List.findSome?_cons]
    cases outputAt v p x <;> rfl

/-- Only the compressed file puts something at an image's place. -/
theorem findSome?_outputAt {k : FileName} (h : fnmatch k.val "*.img" = true) (t : Tree β) :
    t.entries.findSome? (outputAt v [k]) = (t.lookup [compressedName k]).bind v.lz4 := by
  have hout : ∀ x : List FileName × β,
      outputAt v [k] x = if x.1 = [compressedName k] then v.lz4 x.2 else none := by
    intro x
    simp only [outputAt, decompressedPath_iff h x.1]
  have hfirst : ∀ es : List (List FileName × β), (es.map Prod.fst).Nodup →
      es.findSome? (outputAt v [k]) = (dictGet es [compressedName k]).bind v.lz4 := by
    intro es hes
    induction es with
    | nil => rfl
    | cons x es ih =>
      obtain ⟨hnew, hes⟩ := List.nodup_cons.mp hes
      rw [List.findSome?_cons, hout x, dictGet_cons, ih hes]
      by_cases hx : x.1 = [compressedName k]
      · -- a later file of the same name there is none
        have hlater : dictGet es [compressedName k] = none := by
          rw [Option.eq_none_iff_forall_ne_some]
          intro c hc
          exact hnew (hx ▸ List.mem_map.mpr ⟨_, mem_of_dictGet hc, rfl⟩)
        rw [if_pos hx, if_pos hx.symm, hlater]
        cases hc : v.lz4 x.2 <;> simp [hc]
      · rw [if_neg hx, if_neg (Ne.symm hx)]
  exact hfirst t.entries t.nodup

/-- An image is what lay there, or else what its compressed file holds. -/
theorem lookup_decompressAll (t : Tree β) {k : FileName} (h : fnmatch k.val "*.img" = true) :
    (decompressAll v t).lookup [k] =
      (t.lookup [k]).or ((t.lookup [compressedName k]).bind v.lz4) := by
  rw [decompressAll_eq, lookup_decompressFold, findSome?_outputAt h]

end ForgeOS.Image
