import Mathlib.Data.List.Basic
import Mathlib.Data.List.GetD

/-! Cutting a list at separators, in the manner of a blank-separated command
line. The words of a list are its maximal separator-free runs. Cutting an
append at a separator gives the words of both sides, so a word written last
after a separator is read back last exactly when it holds no separator itself.
Everything is over an arbitrary alphabet and an arbitrary separator test. The parts
that the library's `splitOnP` cuts a list into hold no separator either. -/

namespace ForgeOS.Library.Words

variable {α : Type*} (p : α → Bool)

/-- The run collected so far, if there is one. -/
def flush (cur : List α) : List (List α) := if cur.isEmpty then [] else [cur]

def wordsFrom : List α → List α → List (List α)
  | cur, [] => flush cur
  | cur, a :: as => if p a then flush cur ++ wordsFrom [] as else wordsFrom (cur ++ [a]) as

/-- The maximal separator-free runs, in order. -/
def words (xs : List α) : List (List α) := wordsFrom p [] xs

/-- The list holds no separator. -/
def Clean (xs : List α) : Prop := ∀ a ∈ xs, p a = false

instance (xs : List α) : Decidable (Clean p xs) := by unfold Clean; infer_instance

@[simp] theorem flush_nil : flush ([] : List α) = [] := rfl

theorem flush_of_ne_nil {cur : List α} (h : cur ≠ []) : flush cur = [cur] := by
  simp [flush, h]

theorem wordsFrom_append_sep (cur xs ys : List α) {c : α} (hc : p c = true) :
    wordsFrom p cur (xs ++ c :: ys) = wordsFrom p cur xs ++ words p ys := by
  induction xs generalizing cur with
  | nil => simp [wordsFrom, words, hc]
  | cons a as ih =>
    simp only [List.cons_append, wordsFrom]
    split_ifs
    · rw [ih, List.append_assoc]
    · exact ih _

/-- A separator between two lists separates their words. -/
theorem words_append_sep (xs ys : List α) {c : α} (hc : p c = true) :
    words p (xs ++ c :: ys) = words p xs ++ words p ys :=
  wordsFrom_append_sep p [] xs ys hc

theorem wordsFrom_clean (cur w : List α) (hw : Clean p w) : wordsFrom p cur w = flush (cur ++ w) := by
  induction w generalizing cur with
  | nil => simp [wordsFrom]
  | cons a as ih =>
    have ha : p a = false := hw a (by simp)
    rw [wordsFrom, ha, if_neg (by simp), ih _ (fun b hb => hw b (by simp [hb])), List.append_assoc]
    rfl

theorem words_clean {w : List α} (hw : Clean p w) (hne : w ≠ []) : words p w = [w] := by
  rw [words, wordsFrom_clean p [] w hw, List.nil_append, flush_of_ne_nil hne]

theorem flush_clean {cur : List α} (hcur : Clean p cur) : ∀ w ∈ flush cur, Clean p w := by
  intro w hw
  unfold flush at hw
  split_ifs at hw
  · simp at hw
  · rw [List.mem_singleton.mp hw]; exact hcur

theorem wordsFrom_mem_clean (cur xs : List α) (hcur : Clean p cur) :
    ∀ w ∈ wordsFrom p cur xs, Clean p w := by
  induction xs generalizing cur with
  | nil => exact flush_clean p hcur
  | cons a as ih =>
    rw [wordsFrom]
    split_ifs with ha
    · intro w hw
      rcases List.mem_append.mp hw with h | h
      · exact flush_clean p hcur w h
      · exact ih [] (by simp [Clean]) w h
    · refine ih _ fun b hb => ?_
      rcases List.mem_append.mp hb with h | h
      · exact hcur b h
      · rw [List.mem_singleton.mp h]; simpa using ha

/-- No word holds a separator. -/
theorem words_mem_clean {xs w : List α} (hw : w ∈ words p xs) : Clean p w :=
  wordsFrom_mem_clean p [] xs (by simp [Clean]) w hw

/-- A word written last after a separator is the last word read back. -/
theorem words_getLast_of_clean (xs : List α) {c : α} (hc : p c = true) {w : List α}
    (hw : Clean p w) (hne : w ≠ []) : (words p (xs ++ c :: w)).getLast? = some w := by
  rw [words_append_sep p xs w hc, words_clean p hw hne]
  simp

/-- What is read back last after a separator is the written list only when the
list is clean: otherwise a shorter tail comes back. -/
theorem words_getLast_iff (xs : List α) {c : α} (hc : p c = true) {w : List α} (hne : w ≠ []) :
    (words p (xs ++ c :: w)).getLast? = some w ↔ Clean p w := by
  constructor
  · intro h
    exact words_mem_clean p (List.mem_of_getLast? h)
  · intro hw
    exact words_getLast_of_clean p xs hc hw hne

/-- Words of a command line built from clean nonempty words. -/
theorem words_cons_sep {w xs : List α} {c : α} (hw : Clean p w) (hne : w ≠ []) (hc : p c = true) :
    words p (w ++ c :: xs) = w :: words p xs := by
  rw [words_append_sep p w xs hc, words_clean p hw hne]
  rfl

theorem words_sep_cons {c : α} (hc : p c = true) (xs : List α) : words p (c :: xs) = words p xs := by
  simp [words, wordsFrom, hc]

theorem wordsFrom_mem_ne_nil (cur xs : List α) : ∀ w ∈ wordsFrom p cur xs, w ≠ [] := by
  have hflush : ∀ cur : List α, ∀ w ∈ flush cur, w ≠ [] := by
    intro cur w hw
    unfold flush at hw
    split_ifs at hw with hcur
    · simp at hw
    · rw [List.mem_singleton.mp hw]
      simpa using hcur
  induction xs generalizing cur with
  | nil => exact hflush cur
  | cons a as ih =>
    rw [wordsFrom]
    split_ifs
    · intro w hw
      rcases List.mem_append.mp hw with h | h
      · exact hflush cur w h
      · exact ih [] w h
    · exact ih _

theorem words_mem_ne_nil {xs w : List α} (hw : w ∈ words p xs) : w ≠ [] :=
  wordsFrom_mem_ne_nil p [] xs w hw

/-- Clean nonempty words joined by a separator are read back unchanged. -/
theorem words_intercalate {c : α} (hc : p c = true) (ws : List (List α))
    (hclean : ∀ w ∈ ws, Clean p w) (hne : ∀ w ∈ ws, w ≠ []) :
    words p ([c].intercalate ws) = ws := by
  induction ws with
  | nil => rfl
  | cons w ws ih =>
    have hw := hclean w (by simp)
    have hwne := hne w (by simp)
    cases ws with
    | nil => simpa using words_clean p hw hwne
    | cons v vs =>
      have htail := ih (fun u hu => hclean u (by simp [hu])) (fun u hu => hne u (by simp [hu]))
      rw [List.intercalate_cons_cons, List.append_assoc, List.singleton_append,
        words_cons_sep p hw hwne hc, htail]

variable {p}

/-- The parts of a list are made of its elements, without the separators. -/
theorem mem_splitOnP {xs : List α} :
    ∀ part ∈ xs.splitOnP p, ∀ a ∈ part, a ∈ xs ∧ p a = false := by
  induction xs with
  | nil =>
    intro part hpart a ha
    rw [List.splitOnP_nil, List.mem_singleton] at hpart
    rw [hpart] at ha
    cases ha
  | cons b xs ih =>
    have hrest : ∀ part ∈ xs.splitOnP p, ∀ a ∈ part, a ∈ b :: xs ∧ p a = false :=
      fun part hpart a ha => ⟨List.mem_cons_of_mem _ (ih part hpart a ha).1, (ih part hpart a ha).2⟩
    rw [List.splitOnP_cons_eq_if_modifyHead]
    split
    · exact List.forall_mem_cons.mpr ⟨nofun, hrest⟩
    · next hb =>
      cases hsplit : xs.splitOnP p with
      | nil => exact absurd hsplit (List.splitOnP_ne_nil p xs)
      | cons first others =>
        rw [hsplit] at hrest
        rw [List.modifyHead_cons, List.forall_mem_cons]
        refine ⟨fun a ha => ?_, fun part hpart => hrest part (List.mem_cons_of_mem _ hpart)⟩
        rcases List.mem_cons.mp ha with rfl | ha
        · exact ⟨List.mem_cons_self, Bool.not_eq_true _ ▸ hb⟩
        · exact hrest first List.mem_cons_self a ha

theorem notMem_of_mem_splitOn [BEq α] [LawfulBEq α] {sep : α} {xs part : List α}
    (h : part ∈ xs.splitOn sep) : sep ∉ part := by
  intro hsep
  rw [List.splitOn_eq_splitOnP] at h
  simpa using (mem_splitOnP part h sep hsep).2

end ForgeOS.Library.Words
