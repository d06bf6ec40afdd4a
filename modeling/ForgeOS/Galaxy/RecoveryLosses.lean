import ForgeOS.Galaxy.Recovery

/-! Lost and late answers to the saves of one view that is the only one to write its key. The view
counts on from the revision it was last told; the server counts every save that it stores. -/

namespace ForgeOS.Galaxy.Recovery

open ForgeOS.Library.Conditions ForgeOS.Library.Interleaving

variable {V : Type}

/-- The number of a save whose answer the page is waiting for. -/
def Task.posts : Task V → Option ℕ
  | .posting _ k _ => some k
  | _ => none

/-- The number of a save that is on its way. -/
def Task.sends : Task V → Option ℕ
  | .sent k _ _ => some k
  | _ => none

/-- What the server has answered to hydration. -/
def Task.found : Task V → Option (Option (Row V))
  | .loaded _ found => some found
  | _ => none

/-- No other view writes, the page does not give up on a save that the server has stored, and no save
reaches the server after the page has given it up. -/
def Heard : Condition (Shared V) (Task V) (Request V) Input where
  enter
    | .other _, _, _ => False
    | _, _, _ => True
  resume
    | .posting _ k _, .lost _, s, _ => ∀ r, s.results k ≠ some (.ok r)
    | .sent k _ _, .go, _, ts => ∃ t ∈ ts, t.posts = some k
    | _, _, _, _ => True

/-- The server does not find that a save was made against another revision than its own. -/
def Unrefused : Condition (Shared V) (Task V) (Request V) Input where
  enter _ _ _ := True
  resume
    | .sent _ _ revision, .go, s, _ => s.revision = revision
    | _, _, _, _ => True

/-! ### The view knows the server's revision -/

/-- What the page waits for is an answer with the server's revision, or it knows that revision; and it
is against that revision that its save was made. -/
structure Aligned (s : Shared V) (ts : List (Task V)) : Prop where
  posted : ∀ t ∈ ts, ∀ k ∈ t.number, k < s.posts
  fresh : ∀ k, s.posts ≤ k → s.results k = none
  sends : (ts.filterMap Task.sends).Nodup
  pending : ∀ k v r, .sent k v r ∈ ts → s.results k = none
  live : ∀ t ∈ ts, ∀ k ∈ t.posts, ∀ v r, .sent k v r ∈ ts → r = s.revision
  replied : ∀ t ∈ ts, ∀ k ∈ t.posts, ∀ r, s.results k = some (.ok r) → r = s.revision
  versions : (∀ t ∈ ts, ∀ k ∈ t.posts, ∀ r, s.results k ≠ some (.ok r)) →
    ∀ r ∈ s.versions, r = s.revision
  loaded : ∀ t ∈ ts, ∀ f ∈ t.found, f.elim 0 Row.revision = s.revision

/-- Not a save, and no answer to hydration but one with the revision. -/
def Task.Still (revision : ℕ) (t : Task V) : Prop :=
  t.number = none ∧ t.sends = none ∧ t.posts = none ∧
    ∀ f ∈ t.found, f.elim 0 Row.revision = revision

/-- Some handlers have ended, none of them with an answer that the page does not know yet. -/
theorem Aligned.congr {s s' : Shared V} {ts us : List (Task V)} (h : Aligned s ts)
    (hposts : s'.posts = s.posts) (hresults : s'.results = s.results)
    (hversions : s'.versions = s.versions) (hrow : s'.row = s.row) (hsub : us.Sublist ts)
    (hkept : ∀ t ∈ ts, ∀ k ∈ t.posts, ∀ r, s.results k = some (.ok r) → t ∈ us) :
    Aligned s' us := by
  have hrevision : s'.revision = s.revision := by rw [Shared.revision, Shared.revision, hrow]
  refine ⟨fun t ht => by rw [hposts]; exact h.posted t (hsub.subset ht),
    by rw [hposts, hresults]; exact h.fresh, h.sends.sublist (hsub.filterMap _),
    fun k v r hs => by rw [hresults]; exact h.pending k v r (hsub.subset hs),
    fun t ht k hk v r hs => ?_, fun t ht k hk r hr => ?_, fun hnone r hr => ?_,
    fun t ht f hf => ?_⟩
  · rw [hrevision]
    exact h.live t (hsub.subset ht) k hk v r (hsub.subset hs)
  · rw [hrevision]
    rw [hresults] at hr
    exact h.replied t (hsub.subset ht) k hk r hr
  · rw [hrevision]
    rw [hversions] at hr
    rw [hresults] at hnone
    exact h.versions (fun t ht k hk r' hr' => hnone t (hkept t ht k hk r' hr') k hk r' hr') r hr
  · rw [hrevision]
    exact h.loaded t (hsub.subset ht) f hf

/-- Handlers begin that are neither saves nor answers to hydration. -/
theorem Aligned.more {s : Shared V} {ts after : List (Task V)} (h : Aligned s ts)
    (hafter : ∀ t ∈ after, t.Still s.revision) : Aligned s (after ++ ts) := by
  have hold : ∀ t ∈ after ++ ts, ∀ k ∈ t.posts, t ∈ ts := by
    intro t ht k hk
    rcases List.mem_append.mp ht with ht | ht
    · rw [(hafter t ht).2.2.1] at hk
      cases hk
    · exact ht
  refine ⟨fun t ht k hk => ?_, h.fresh, ?_, fun k v r hs => ?_, fun t ht k hk v r hs => ?_,
    fun t ht k hk r hr => h.replied t (hold t ht k hk) k hk r hr, fun hnone => ?_,
    fun t ht f hf => ?_⟩
  · rcases List.mem_append.mp ht with ht | ht
    · rw [(hafter t ht).1] at hk
      cases hk
    · exact h.posted t ht k hk
  · rw [List.filterMap_append, List.filterMap_eq_nil_iff.mpr fun t ht => (hafter t ht).2.1]
    exact h.sends
  · rcases List.mem_append.mp hs with hs | hs
    · cases (hafter _ hs).2.1
    · exact h.pending k v r hs
  · rcases List.mem_append.mp hs with hs | hs
    · cases (hafter _ hs).2.1
    · exact h.live t (hold t ht k hk) k hk v r hs
  · exact h.versions fun t ht => hnone t (List.mem_append_right _ ht)
  · rcases List.mem_append.mp ht with ht | ht
    · exact (hafter t ht).2.2.2 f hf
    · exact h.loaded t ht f hf

/-- What does not concern saves and the row. -/
theorem Aligned.same {s s' : Shared V} {ts : List (Task V)} (h : Aligned s ts)
    (hposts : s'.posts = s.posts) (hresults : s'.results = s.results)
    (hversions : s'.versions = s.versions) (hrow : s'.row = s.row) : Aligned s' ts :=
  h.congr hposts hresults hversions hrow (List.Sublist.refl ts) fun _ ht _ _ _ _ => ht

/-- A handler ends that does not wait for an answer. -/
theorem Aligned.ends {s : Shared V} {t : Task V} {ts : List (Task V)} (h : Aligned s (t :: ts))
    (ht : ∀ k ∈ t.posts, ∀ r, s.results k ≠ some (.ok r)) : Aligned s ts := by
  refine h.congr rfl rfl rfl rfl (List.sublist_cons_self t ts) fun u hu k hk r hr => ?_
  rcases List.mem_cons.mp hu with rfl | hu
  · exact absurd hr (ht k hk r)
  · exact hu

theorem still_hydrate (s : Shared V) (r : ℕ) : ∀ t ∈ (hydrate s).2, t.Still r := by
  intro t ht
  unfold hydrate at ht
  split at ht
  · rw [List.mem_singleton.mp ht]
    exact ⟨rfl, rfl, rfl, nofun⟩
  · cases ht

theorem still_persist (s : Shared V) (r : ℕ) : ∀ t ∈ (persist s).2.2, t.Still r := by
  intro t ht
  unfold persist at ht
  split at ht
  · cases ht
  · rcases List.mem_cons.mp ht with rfl | ht
    · refine ⟨rfl, rfl, rfl, ?_⟩
      intro _ hload
      cases hload
    · exact still_hydrate s r t ht

theorem Aligned.persist {s : Shared V} {ts : List (Task V)} (h : Aligned s ts) :
    Aligned (persist s).2.1 ((persist s).2.2 ++ ts) := by
  obtain ⟨load, saves, savers, hs, -⟩ := persist_spec s
  have hsame : Aligned (Recovery.persist s).2.1 ts := by
    rw [hs]
    exact h.same rfl rfl rfl rfl
  exact hsame.more (still_persist s _)

theorem Aligned.write {s : Shared V} {ts : List (Task V)} (h : Aligned s ts) (value : Option V)
    (stored : Bool) : Aligned (write value stored s).1 ((write value stored s).2 ++ ts) := by
  unfold Recovery.write
  exact Aligned.persist (h.same (by rfl) (by rfl) (by rfl) (by rfl))

theorem Aligned.enter {s : Shared V} {ts : List (Task V)} (h : Aligned s ts) {r : Request V}
    (hheard : Heard.enter r s ts) : Aligned (enter r s).1 ((enter r s).2 ++ ts) := by
  cases r with
  | write value stored => exact h.write value stored
  | other value => exact hheard.elim
  | hydrate =>
    obtain ⟨load, hs, -⟩ := hydrate_spec s
    have hsame : Aligned (Recovery.hydrate s).1 ts := by
      rw [hs]
      exact h.same rfl rfl rfl rfl
    exact hsame.more (still_hydrate s _)
  | flush =>
    have hp := h.persist
    refine @Aligned.more _ _ _ [.flushing _] hp fun t ht => ?_
    rw [List.mem_singleton.mp ht]
    exact ⟨rfl, rfl, rfl, nofun⟩

/-! ### The saver -/

/-- With no save under way, the loop sends the next one against the server's revision. -/
theorem Aligned.loop {s : Shared V} {ts : List (Task V)} (h : Aligned s ts)
    (hnone : ∀ t ∈ ts, t.posts = none) (n : ℕ) : Aligned (loop n s).1 ((loop n s).2 ++ ts) := by
  have hending : ∀ t ∈ [(.ending n : Task V)], t.Still s.revision := by
    intro t ht
    rw [List.mem_singleton.mp ht]
    exact ⟨rfl, rfl, rfl, nofun⟩
  unfold Recovery.loop
  split
  · split
    · next r hr =>
      have hrevision : r = s.revision :=
        h.versions (fun t ht k hk => by rw [hnone t ht] at hk; cases hk) r hr
      have hnew : ∀ k v r, Task.sent k v r ∈ ts → k ≠ s.posts := fun k v r hs =>
        Nat.ne_of_lt (h.posted _ hs k rfl)
      have hposting : ∀ t ∈ [.posting n s.posts s.snapshot, .sent s.posts s.snapshot.value r] ++ ts,
          ∀ k ∈ t.posts, k = s.posts := by
        intro t ht k hk
        simp only [List.cons_append, List.nil_append, List.mem_cons] at ht
        rcases ht with rfl | rfl | ht
        · exact (Option.mem_some.mp hk).symm
        · cases hk
        · rw [hnone t ht] at hk
          cases hk
      have hsent : ∀ k v r',
          Task.sent k v r' ∈ [.posting n s.posts s.snapshot, .sent s.posts s.snapshot.value r] ++ ts →
            k = s.posts ∧ r' = r ∨ .sent k v r' ∈ ts := by
        intro k v r' hs
        simp only [List.cons_append, List.nil_append, List.mem_cons, reduceCtorEq, false_or,
          Task.sent.injEq] at hs
        exact hs.imp_left fun heq => ⟨heq.1, heq.2.2⟩
      refine ⟨fun t ht k hk => ?_, fun k hk => h.fresh k (Nat.le_of_succ_le hk), ?_,
        fun k v r' hs => ?_, fun t ht k hk v r' hs => ?_, fun t ht k hk r' hr' => ?_,
        fun _ r' hr' => ?_, fun t ht f hf => ?_⟩
      · simp only [List.cons_append, List.nil_append, List.mem_cons] at ht
        rcases ht with rfl | rfl | ht
        · exact Option.mem_some.mp hk ▸ Nat.lt_succ_self _
        · exact Option.mem_some.mp hk ▸ Nat.lt_succ_self _
        · exact Nat.lt_succ_of_lt (h.posted t ht k hk)
      · show (s.posts :: ts.filterMap Task.sends).Nodup
        refine List.nodup_cons.mpr ⟨fun hmem => ?_, h.sends⟩
        obtain ⟨t, ht, hk⟩ := List.mem_filterMap.mp hmem
        cases t with
        | sent k v r' => exact hnew k v r' ht (Option.some.inj hk)
        | _ => cases hk
      · rcases hsent k v r' hs with ⟨rfl, -⟩ | hs
        · exact h.fresh _ (Nat.le_refl _)
        · exact h.pending k v r' hs
      · rcases hsent k v r' hs with ⟨-, rfl⟩ | hs
        · exact hrevision
        · exact absurd (hposting t ht k hk) (hnew k v r' hs)
      · rw [hposting t ht k hk] at hr'
        cases (h.fresh _ (Nat.le_refl _)).symm.trans hr'
      · rw [← Option.some.inj (hr.symm.trans hr')]
        exact hrevision
      · simp only [List.cons_append, List.nil_append, List.mem_cons] at ht
        rcases ht with rfl | rfl | ht
        · cases hf
        · cases hf
        · exact h.loaded t ht f hf
    · exact (h.same (by rfl) (by rfl) (by rfl) (by rfl)).more hending
  · exact h.more hending

theorem posts_eq_none {s : Shared V} {t : Task V} {ts : List (Task V)} {n : ℕ}
    (ho : Orderly s (t :: ts)) (hsaver : t.saver = some n) : ∀ u ∈ ts, u.posts = none := by
  intro u hu
  cases u with
  | posting m k o => exact absurd hu (not_posting ho hsaver)
  | _ => rfl

/-- The page is told the server's revision. -/
theorem Aligned.told {s s' : Shared V} {t : Task V} {ts : List (Task V)} {k r : ℕ}
    (h : Aligned s (t :: ts)) (hnone : ∀ u ∈ ts, u.posts = none) (hk : t.posts = some k)
    (hr : s.results k = some (.ok r)) (hposts : s'.posts = s.posts)
    (hresults : s'.results = s.results) (hrow : s'.row = s.row) (hversions : s'.versions = some r) :
    Aligned s' ts := by
  have hrevision : s'.revision = s.revision := by rw [Shared.revision, Shared.revision, hrow]
  have hold := h.replied t List.mem_cons_self k hk r hr
  refine ⟨fun u hu => by rw [hposts]; exact h.posted u (List.mem_cons_of_mem _ hu),
    by rw [hposts, hresults]; exact h.fresh,
    h.sends.sublist ((List.sublist_cons_self t ts).filterMap _),
    fun k v r hs => by rw [hresults]; exact h.pending k v r (List.mem_cons_of_mem _ hs),
    fun u hu k' hk' => ?_, fun u hu k' hk' => ?_, fun _ r' hr' => ?_, fun u hu f hf => ?_⟩
  · rw [hnone u hu] at hk'
    cases hk'
  · rw [hnone u hu] at hk'
    cases hk'
  · rw [hversions] at hr'
    rw [hrevision, ← hold]
    exact (Option.mem_some.mp hr').symm
  · rw [hrevision]
    exact h.loaded u (List.mem_cons_of_mem _ hu) f hf

theorem Aligned.answered [DecidableEq V] {s : Shared V} {ts : List (Task V)} {n k r : ℕ}
    {o : Snapshot V} (h : Aligned s (.posting n k o :: ts)) (hnone : ∀ u ∈ ts, u.posts = none)
    (hr : s.results k = some (.ok r)) :
    Aligned (answered n o r s).1 ((answered n o r s).2 ++ ts) := by
  unfold Recovery.answered
  dsimp only
  split
  · exact (h.told hnone rfl hr (by rfl) (by rfl) (by rfl) (by rfl)).loop hnone n
  · exact (h.told hnone rfl hr (by rfl) (by rfl) (by rfl) (by rfl)).loop hnone n

/-- The page gives up on a save that the server has not stored. -/
theorem Aligned.failed {s : Shared V} {t : Task V} {ts : List (Task V)} (h : Aligned s (t :: ts))
    (hnone : ∀ u ∈ ts, u.posts = none) (ht : ∀ k ∈ t.posts, ∀ r, s.results k ≠ some (.ok r))
    (n : ℕ) (m : String) : Aligned (Recovery.loop n (s.fail m)).1
      ((Recovery.loop n (s.fail m)).2 ++ ts) :=
  ((h.ends ht).same (by rfl) (by rfl) (by rfl) (by rfl)).loop hnone n

/-! ### The server -/

/-- Only one handler waits for an answer to a save, and then hydration is over. -/
theorem posts_unique {s : Shared V} {ts : List (Task V)} (ho : Orderly s ts) {t u : Task V} {j k : ℕ}
    (ht : t ∈ ts) (hu : u ∈ ts) (hj : t.posts = some j) (hk : u.posts = some k) : k = j := by
  obtain ⟨front, back, rfl⟩ := List.append_of_mem ht
  cases t with
  | posting m i o =>
    have hnone := posts_eq_none (ho.perm List.perm_middle) rfl
    rcases List.mem_cons.mp (List.perm_middle.mem_iff.mp hu) with rfl | hu
    · exact Option.some.inj (hk.symm.trans hj)
    · rw [hnone u hu] at hk
      cases hk
  | _ => cases hj

theorem found_eq_none {s : Shared V} {ts : List (Task V)} (ho : Orderly s ts) (hload : s.load = .done) :
    ∀ t ∈ ts, t.found = none := by
  have hloads := ho.loads
  rw [hload, if_neg (by decide), List.countP_eq_zero] at hloads
  intro t ht
  have hhydrates := hloads t ht
  cases t with
  | loaded original found => exact absurd rfl hhydrates
  | _ => rfl

/-- No other save of the same number is on its way. -/
theorem Aligned.sent_ne {s : Shared V} {ts : List (Task V)} {k k' r r' : ℕ} {v v' : Option V}
    (h : Aligned s (.sent k v r :: ts)) (hs : Task.sent k' v' r' ∈ ts) : k' ≠ k := by
  rintro rfl
  exact (List.nodup_cons.mp h.sends).1 (List.mem_filterMap.mpr ⟨_, hs, rfl⟩)

/-- The server refuses a save without a look at its revision. -/
theorem Aligned.refused {s : Shared V} {ts : List (Task V)} {k r : ℕ} {v : Option V}
    (h : Aligned s (.sent k v r :: ts)) (m : String) :
    Aligned { s with results := Function.update s.results k (some (.error m)) } ts := by
  have hpending : s.results k = none := h.pending k v r List.mem_cons_self
  have hresult : ∀ k' r', Function.update s.results k (some (.error m)) k' = some (.ok r') ↔
      s.results k' = some (.ok r') := by
    intro k' r'
    by_cases hk' : k' = k
    · subst hk'
      simp [hpending]
    · rw [Function.update_of_ne hk']
  refine ⟨fun t ht => h.posted t (List.mem_cons_of_mem _ ht), fun k' hk' => ?_,
    (List.nodup_cons.mp h.sends).2, fun k' v' r' hs => ?_,
    fun t ht k' hk' v' r' hs => h.live t (List.mem_cons_of_mem _ ht) k' hk' v' r'
      (List.mem_cons_of_mem _ hs), fun t ht k' hk' r' hr' => ?_, fun hnone r' hr' => ?_,
    fun t ht => h.loaded t (List.mem_cons_of_mem _ ht)⟩
  · have hlt : k < s.posts := h.posted _ List.mem_cons_self k rfl
    show Function.update s.results k _ k' = none
    rw [Function.update_of_ne (by rintro rfl; exact absurd hlt (Nat.not_lt.mpr hk'))]
    exact h.fresh k' hk'
  · show Function.update s.results k _ k' = none
    rw [Function.update_of_ne (h.sent_ne hs)]
    exact h.pending k' v' r' (List.mem_cons_of_mem _ hs)
  · exact h.replied t (List.mem_cons_of_mem _ ht) k' hk' r' ((hresult k' r').mp hr')
  · refine h.versions (fun t ht k' hk' r'' hr'' => ?_) r' hr'
    rcases List.mem_cons.mp ht with rfl | ht
    · cases hk'
    · exact hnone t ht k' hk' r'' ((hresult k' r'').mpr hr'')

/-- A save that the page waits for was made against the server's revision, and is stored. -/
theorem Aligned.revision_eq {s : Shared V} {ts : List (Task V)} {k r : ℕ} {v : Option V}
    (h : Aligned s (.sent k v r :: ts)) (hwaits : ∃ t ∈ ts, t.posts = some k) : s.revision = r := by
  obtain ⟨t, ht, hk⟩ := hwaits
  exact (h.live t (List.mem_cons_of_mem _ ht) k hk v r List.mem_cons_self).symm

theorem Aligned.stored {s : Shared V} {ts : List (Task V)} {k r : ℕ} {v : Option V}
    (h : Aligned s (.sent k v r :: ts)) (ho : Orderly s (.sent k v r :: ts))
    (hwaits : ∃ t ∈ ts, t.posts = some k) : Aligned (saveRecovery k v r s) ts := by
  have hlt : k < s.posts := h.posted _ List.mem_cons_self k rfl
  have hunique : ∀ t ∈ ts, ∀ k' ∈ t.posts, k' = k := by
    obtain ⟨t, ht, hk⟩ := hwaits
    exact fun u hu k' hk' =>
      posts_unique ho (List.mem_cons_of_mem _ ht) (List.mem_cons_of_mem _ hu) hk hk'
  rw [saveRecovery, if_pos (h.revision_eq hwaits)]
  refine ⟨fun t ht => h.posted t (List.mem_cons_of_mem _ ht), fun k' hk' => ?_,
    (List.nodup_cons.mp h.sends).2, fun k' v' r' hs => ?_, fun t ht k' hk' v' r' hs => ?_,
    fun t ht k' hk' r' hr' => ?_, fun hnone => ?_, fun t ht f hf => ?_⟩
  · show Function.update s.results k _ k' = none
    rw [Function.update_of_ne (by rintro rfl; exact absurd hlt (Nat.not_lt.mpr hk'))]
    exact h.fresh k' hk'
  · show Function.update s.results k _ k' = none
    rw [Function.update_of_ne (h.sent_ne hs)]
    exact h.pending k' v' r' (List.mem_cons_of_mem _ hs)
  · exact absurd (hunique t ht k' hk') (h.sent_ne hs)
  · have hr' : Function.update s.results k (some (.ok (s.revision + 1))) k' = some (.ok r') := hr'
    rw [hunique t ht k' hk', Function.update_self] at hr'
    cases hr'
    rfl
  · obtain ⟨t, ht, hk⟩ := hwaits
    refine absurd ?_ (hnone t ht k hk (s.revision + 1))
    show Function.update s.results k _ k = _
    exact Function.update_self ..
  · rw [found_eq_none ho (ho.done rfl) t (List.mem_cons_of_mem _ ht)] at hf
    cases hf

/-! ### Hydration -/

/-- Hydration ends; the page knows the revision that it found, or none. -/
theorem Aligned.hydrates {s s' : Shared V} {t : Task V} {ts after : List (Task V)}
    (h : Aligned s (t :: ts)) (ht : t.posts = none) (hposts : s'.posts = s.posts)
    (hresults : s'.results = s.results) (hrow : s'.row = s.row)
    (hversions : s'.versions = s.versions ∨ s'.versions = some s.revision)
    (hafter : ∀ u ∈ after, u.Still s'.revision) : Aligned s' (after ++ ts) := by
  have hends : Aligned s ts := h.ends fun k hk => by
    rw [ht] at hk
    cases hk
  refine Aligned.more ?_ hafter
  have hrevision : s'.revision = s.revision := by rw [Shared.revision, Shared.revision, hrow]
  rcases hversions with hversions | hversions
  · exact hends.same hposts hresults hversions hrow
  · have hsame : Aligned { s' with versions := s.versions } ts := hends.same hposts hresults rfl hrow
    refine ⟨hsame.posted, hsame.fresh, hsame.sends, hsame.pending, hsame.live, hsame.replied,
      fun _ r hr => ?_, hsame.loaded⟩
    rw [hversions] at hr
    rw [hrevision]
    exact (Option.mem_some.mp hr).symm

theorem Aligned.hydrated [DecidableEq V] {s : Shared V} {ts : List (Task V)} {o : Snapshot V}
    {f : Option (Row V)} (h : Aligned s (.loaded o f :: ts)) :
    Aligned (hydrated o f s).1 ((hydrated o f s).2 ++ ts) := by
  have hf : f.elim 0 Row.revision = s.revision := h.loaded _ List.mem_cons_self f rfl
  have hfound : some (f.elim 0 Row.revision) = s.versions ∨
      some (f.elim 0 Row.revision) = some s.revision := .inr (congrArg some hf)
  have hnil : ∀ r, ∀ u ∈ ([] : List (Task V)), u.Still r := fun _ u hu => absurd hu List.not_mem_nil
  unfold Recovery.hydrated
  split
  · split
    · exact h.hydrates rfl (by rfl) (by rfl) (by rfl) hfound (hnil _)
    · refine h.hydrates rfl (by rfl) (by rfl) (by rfl) hfound fun u hu => ?_
      dsimp only at hu
      split at hu
      · rw [List.mem_singleton.mp hu]
        exact ⟨rfl, rfl, rfl, nofun⟩
      · cases hu
  · exact h.hydrates rfl (by rfl) (by rfl) (by rfl) hfound (hnil _)

/-! ### Runs -/

theorem Aligned.resume [DecidableEq V] {s : Shared V} {t : Task V} {ts : List (Task V)} {x : Input}
    (h : Aligned s (t :: ts)) (ho : Orderly s (t :: ts)) (hheard : Heard.resume t x s ts) :
    Aligned (resume t x s).1 ((resume t x s).2 ++ ts) := by
  have hrest : t.posts = none → Aligned s ts := fun ht => h.ends fun k hk => by
    rw [ht] at hk
    cases hk
  have hunhydrated : t.posts = none → Aligned (unhydrated s) ([] ++ ts) := fun ht =>
    h.hydrates ht (by rfl) (by rfl) (by rfl) (.inl (by rfl)) fun u hu => absurd hu List.not_mem_nil
  unfold Recovery.resume
  split
  · next original =>
    -- the answer to hydration is the row as it is
    refine (hrest rfl).more fun u hu => ?_
    rw [List.mem_singleton.mp hu]
    exact ⟨rfl, rfl, rfl, fun f hf => Option.mem_some.mp hf ▸ rfl⟩
  · exact hunhydrated rfl
  · exact hunhydrated rfl
  · exact hunhydrated rfl
  · exact h.hydrated
  · exact (hrest rfl).write _ _
  · split
    · exact (hrest rfl).loop (posts_eq_none ho rfl) _
    · exact h
  · have hnone := posts_eq_none ho rfl
    split
    · next hr => exact h.answered hnone hr
    · next m hr =>
      refine h.failed hnone (fun k hk r hok => ?_) _ _
      cases hk
      cases hr.symm.trans hok
    · exact h
  · refine h.failed (posts_eq_none ho rfl) (fun k hk r => ?_) _ _
    cases hk
    exact hheard r
  · exact (hrest rfl).same (by rfl) (by rfl) (by rfl) (by rfl)
  · exact h.stored ho hheard
  · exact h.refused _
  · split
    · exact h
    · refine (hrest rfl).same ?_ ?_ ?_ ?_ <;> (unfold flushed; split <;> rfl)
  · exact h

theorem Aligned.perm {s : Shared V} {ts us : List (Task V)} (hp : ts.Perm us) (h : Aligned s ts) :
    Aligned s us := by
  have hmem : ∀ t, t ∈ us → t ∈ ts := fun _ => hp.mem_iff.mpr
  exact ⟨fun t ht => h.posted t (hmem t ht), h.fresh, (hp.filterMap Task.sends).nodup_iff.mp h.sends,
    fun k v r hs => h.pending k v r (hmem _ hs),
    fun t ht k hk v r hs => h.live t (hmem t ht) k hk v r (hmem _ hs),
    fun t ht => h.replied t (hmem t ht), fun hnone => h.versions fun t ht => hnone t (hp.mem_iff.mp ht),
    fun t ht => h.loaded t (hmem t ht)⟩

theorem aligned_invariant [DecidableEq V] :
    Invariant (server (V := V)) Heard fun s ts => Orderly s ts ∧ Aligned s ts where
  perm s ts us hp h := ⟨h.1.perm hp, h.2.perm hp⟩
  enter r s ts h hheard := ⟨h.1.enter r, h.2.enter hheard⟩
  resume t x s ts h hheard := ⟨h.1.resume x, h.2.resume h.1 hheard⟩
  restart s ts h := by
    rw [show ts.filter (server (V := V)).survives = ts from List.filter_eq_self.mpr fun _ _ => rfl]
    exact h

theorem aligned_initial (opening : Bool) (row : Option (Row V)) (copy : Option (Option V)) :
    Aligned (initial opening row copy).shared (initial opening row copy).waiting :=
  ⟨fun _ ht => absurd ht List.not_mem_nil, fun _ _ => rfl, List.nodup_nil,
    fun _ _ _ ht => absurd ht List.not_mem_nil, fun _ ht => absurd ht List.not_mem_nil,
    fun _ ht => absurd ht List.not_mem_nil, fun _ _ hr => (nomatch hr),
    fun _ ht => absurd ht List.not_mem_nil⟩

/-- A save that is heard is not refused. -/
theorem unrefused_of_heard [DecidableEq V] {s : State (Shared V) (Task V)}
    {e : Event (Request V) Input} (h : Aligned s.shared s.waiting) (hheard : Heard.At s e) :
    Unrefused.At s e := by
  cases e with
  | arrive r => trivial
  | restart => trivial
  | wake k x =>
    simp only [Condition.At] at hheard ⊢
    split at hheard
    · next t ht =>
      have hperm := h.perm (perm_of_getElem? ht)
      unfold Unrefused
      dsimp only
      split
      · exact hperm.revision_eq hheard
      · trivial
    · trivial

/-- In every run of the only view that writes its key: while no answer to a save that is stored gets
lost and no save reaches the server after the page has given it up, the server refuses none of them as
changed in another view. -/
theorem saves_unrefused [DecidableEq V] (opening : Bool) (row : Option (Row V))
    (copy : Option (Option V)) (es : List (Event (Request V) Input))
    (h : Along server.step Heard.At (initial opening row copy) es) :
    Along server.step Unrefused.At (initial opening row copy) es := by
  have hinit := And.intro (sound_initial opening row copy).1 (aligned_initial opening row copy)
  exact h.of_invariant (I := fun s => Orderly s.shared s.waiting ∧ Aligned s.shared s.waiting)
    (fun s e hs he => aligned_invariant.step hs he) (fun s e hs he => unrefused_of_heard hs.2 he) hinit

instance : (r : Request V) → (s : Shared V) → (ts : List (Task V)) → Decidable (Heard.enter r s ts)
  | .other _, _, _ => .isFalse id
  | .write _ _, _, _ | .flush, _, _ | .hydrate, _, _ => .isTrue trivial

/-- The server has stored the save. -/
def accepted : Option (Except String ℕ) → Bool
  | some (.ok _) => true
  | _ => false

theorem accepted_eq_false_iff (result : Option (Except String ℕ)) :
    accepted result = false ↔ ∀ r, result ≠ some (.ok r) := by
  cases result with
  | none => simp [accepted]
  | some result => cases result <;> simp [accepted]

/-- `Heard` on what goes on, as a test. -/
def heard (t : Task V) (x : Input) (s : Shared V) (ts : List (Task V)) : Bool :=
  match t, x with
  | .posting _ k _, .lost _ => !accepted (s.results k)
  | .sent k _ _, .go => ts.any fun t => t.posts = some k
  | _, _ => true

theorem heard_iff (t : Task V) (x : Input) (s : Shared V) (ts : List (Task V)) :
    heard t x s ts = true ↔ Heard.resume t x s ts := by
  cases t <;> cases x <;>
    first
    | exact iff_of_true rfl trivial
    | simp [heard, Heard, accepted_eq_false_iff]

instance (t : Task V) (x : Input) (s : Shared V) (ts : List (Task V)) :
    Decidable (Heard.resume t x s ts) := decidable_of_iff _ (heard_iff t x s ts)

/-- `Unrefused` on what goes on, as a test. -/
def unrefused (t : Task V) (x : Input) (s : Shared V) : Bool :=
  match t, x with
  | .sent _ _ revision, .go => s.revision = revision
  | _, _ => true

theorem unrefused_iff (t : Task V) (x : Input) (s : Shared V) (ts : List (Task V)) :
    unrefused t x s = true ↔ Unrefused.resume t x s ts := by
  cases t <;> cases x <;>
    first
    | exact iff_of_true rfl trivial
    | simp [unrefused, Unrefused]

instance (t : Task V) (x : Input) (s : Shared V) (ts : List (Task V)) :
    Decidable (Unrefused.resume t x s ts) := decidable_of_iff _ (unrefused_iff t x s ts)

instance (r : Request V) (s : Shared V) (ts : List (Task V)) : Decidable (Unrefused.enter r s ts) :=
  .isTrue trivial

theorem saves_unrefused_typing :
    Along server.step Unrefused.At (initial false earlier none) typing :=
  saves_unrefused false earlier none typing (by decide)

/-- The server stores the save of the first edit, and its answer gets lost. -/
def lostReply : List (Event (Request String) Input) :=
  [.arrive .hydrate, .wake 0 .go, .wake 0 .go, .arrive (.write (some "a") true), .wake 0 .go,
    .wake 1 .go, .wake 0 (.lost ⟨"timed out", by decide⟩), .wake 0 .go,
    .arrive (.write (some "ab") true), .wake 0 .go, .wake 1 .go]

/-- No other view has written, and the save of the second edit is refused. -/
theorem save_refused_after_loss :
    ¬Along server.step Unrefused.At (initial false earlier none) lostReply ∧
      (server.run (initial false earlier none) lostReply).shared.others = false ∧
      (server.run (initial false earlier none) lostReply).shared.results 1 = some (.error
        "This recovery copy changed in another view. Your text is kept here; copy it before reloading to compare the saved recovery.") :=
  ⟨by decide, by decide, rfl⟩

end ForgeOS.Galaxy.Recovery
