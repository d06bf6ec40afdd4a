import ForgeOS.Learning.ProductMemory
import ForgeOS.Library.Ledger

/-! `ProductMemoryEngine.lookup`, and what the identities of a memory have in common. A key
that was ever requested is an alias of one product, the one that holds the observations made
under the key; and of two products that could be the same one neither is known better. -/

namespace ForgeOS.Learning

open ForgeOS.Python ForgeOS.Library.Ledger

variable (lower digest : String → String)

/-! ### Lookup -/

/-- What a lookup finds of a product. -/
structure RememberedProduct where
  observations : ℕ
  product : Product
  aliases : List String
  relatedIdentities : List String
  reusableGuidance : List String
  knownVersions : List String
  version : Option VersionMemory
  deriving DecidableEq, Repr

structure LookupResult where
  productKey : String
  requestedProductKey : String
  versionKey : String
  /-- `none` when `has_product_memory` is false. -/
  memory : Option RememberedProduct
  deriving DecidableEq, Repr

/-- `lookup` -/
def lookup (file : MemoryFile) (profile : ProductProfile) : LookupResult :=
  let products := loadProducts file
  let requested := productKey lower profile
  let key := canonicalProductKey lower products requested profile
  let version := versionKey lower digest profile
  { productKey := key
    requestedProductKey := requested
    versionKey := version
    memory := (dictGet products key).map fun product =>
      { observations := product.observations
        product
        aliases := product.aliases
        relatedIdentities := product.relatedIdentities
        reusableGuidance := product.reusableGuidance
        knownVersions := product.versions.map Prod.fst
        version := dictGet product.versions version } }

/-! ### Where observations lie -/

/-- The key of the product that takes an observation. -/
def observedKey (products : Products) (o : Observation) : String :=
  canonicalProductKey lower products (productKey lower o.profile) o.profile

/-- The products that the product of an observation takes over, in order. -/
def absorbedKeys (products : Products) (o : Observation) : List String :=
  ((setDefaultProduct products (observedKey lower products o) o).map Prod.fst).filter
    (weakerKey lower (observedKey lower products o) o.profile)

/-- A memory beside the observations that each of its products holds: those that were
recorded into it, and those of the products that were merged into it. -/
structure HeldMemory where
  file : MemoryFile
  held : String → List Observation

def HeldMemory.record (m : HeldMemory) (o : Observation) : HeldMemory where
  file := recordObservation lower digest m.file o
  held :=
    let products := loadProducts m.file
    let key := observedKey lower products o
    enter key ((absorbedKeys lower products o).foldl (absorb key) m.held) o

/-- The memory behind a sequence of observations with what its products hold. -/
def heldAll (calls : List Observation) : HeldMemory :=
  calls.foldl (HeldMemory.record lower digest) ⟨none, fun _ => []⟩

variable {lower digest}

theorem heldAll_snoc (calls : List Observation) (o : Observation) :
    heldAll lower digest (calls ++ [o]) = (heldAll lower digest calls).record lower digest o := by
  rw [heldAll, List.foldl_append]
  rfl

theorem heldAll_file (calls : List Observation) :
    (heldAll lower digest calls).file = recordAll lower digest calls := by
  induction calls using List.reverseRecOn with
  | nil => rfl
  | append_singleton calls o ih =>
    rw [heldAll_snoc, recordAll, List.foldl_append]
    exact congrArg (fun file => recordObservation lower digest file o) ih

/-! ### The canonical key -/

/-- A requested key leads to the product that has it among its aliases. -/
theorem canonicalProductKey_of_alias {products : Products} {requested : String}
    {p : String × Product} (hp : p ∈ products) (halias : requested ∈ p.2.aliases)
    (hunique : ∀ q ∈ products, requested ∈ q.2.aliases → q.1 = p.1) (profile : ProductProfile) :
    canonicalProductKey lower products requested profile = p.1 := by
  rw [canonicalProductKey]
  split
  next q hq =>
    have hq' : requested ∈ q.2.aliases := by simpa using List.find?_some hq
    exact hunique q (List.mem_of_find?_eq_some hq) hq'
  next hnone =>
    have hno := List.find?_eq_none.mp hnone p hp
    simp [halias] at hno

variable (lower) in
/-- What the canonical key of a request can be: the key of a product with the alias, the key
of a product that is known better, or the request itself, when no compatible product is known
better. -/
theorem canonicalProductKey_cases (products : Products) (requested : String)
    (profile : ProductProfile) :
    (∃ p ∈ products, requested ∈ p.2.aliases ∧
        canonicalProductKey lower products requested profile = p.1) ∨
      (∀ p ∈ products, requested ∉ p.2.aliases) ∧
        (canonicalProductKey lower products requested profile ∈ products.map Prod.fst ∨
          canonicalProductKey lower products requested profile = requested ∧
            ∀ k ∈ products.map Prod.fst, compatibleProductKey lower k requested (some profile) →
              identityQuality lower k ≤ identityQuality lower requested) := by
  rw [canonicalProductKey]
  split
  next p hp =>
    have halias : requested ∈ p.2.aliases := by simpa using List.find?_some hp
    exact .inl ⟨p, List.mem_of_find?_eq_some hp, halias, rfl⟩
  next hnone =>
    refine .inr ⟨fun p hp => by simpa using List.find?_eq_none.mp hnone p hp, ?_⟩
    dsimp only
    have hcandidate : ∀ k ∈ products.map Prod.fst,
        compatibleProductKey lower k requested (some profile) →
          k ∈ (products.map Prod.fst).filter fun key =>
            compatibleProductKey lower key requested (some profile) :=
      fun k hk hcompatible => List.mem_filter.mpr ⟨hk, hcompatible⟩
    split
    next best hbest =>
      have hmem := List.mem_filter.mp (List.argmax_mem hbest)
      split_ifs with hlt
      · exact .inl hmem.1
      · refine .inr ⟨rfl, fun k hk hcompatible => ?_⟩
        have hle : identityQuality lower k ≤ identityQuality lower best :=
          List.le_of_mem_argmax (hcandidate k hk hcompatible) (Option.mem_def.mpr hbest)
        omega
    next hempty =>
      refine .inr ⟨rfl, fun k hk hcompatible => ?_⟩
      have hmem := hcandidate k hk hcompatible
      rw [List.argmax_eq_none.mp hempty] at hmem
      exact absurd hmem List.not_mem_nil

/-! ### Taking over a product -/

theorem exists_of_mem_keys {products : Products} {key : String}
    (h : key ∈ products.map Prod.fst) : ∃ p, (key, p) ∈ products := by
  obtain ⟨⟨_, p⟩, hp, rfl⟩ := List.mem_map.mp h
  exact ⟨p, hp⟩

theorem nodup_takeProduct {products : Products} (h : (products.map Prod.fst).Nodup)
    (key other mergedAt : String) :
    ((takeProduct lower key mergedAt products other).map Prod.fst).Nodup := by
  rw [takeProduct]
  split
  · exact nodup_dictSet (nodup_dictPop h other) key _
  · exact h

/-- The canonical product is replaced by the merged one, the other one is gone. -/
theorem mem_takeProduct {products : Products} (h : (products.map Prod.fst).Nodup)
    {key other : String} {canonical source : Product}
    (hcanonical : (key, canonical) ∈ products) (hsource : (other, source) ∈ products)
    (mergedAt : String) {p : String × Product} :
    p ∈ takeProduct lower key mergedAt products other ↔
      p = (key, mergeProduct lower canonical source other mergedAt) ∨
        p ∈ products ∧ p.1 ≠ other ∧ p.1 ≠ key := by
  rw [takeProduct, (dictGet_eq_some_iff h).mpr hcanonical, (dictGet_eq_some_iff h).mpr hsource]
  dsimp only
  rw [mem_dictSet_iff (nodup_dictPop h other), mem_dictPop_iff h, and_assoc]

theorem mem_keys_takeProduct {products : Products} (h : (products.map Prod.fst).Nodup)
    {key other : String} (hne : other ≠ key) (hkey : key ∈ products.map Prod.fst)
    (hother : other ∈ products.map Prod.fst) (mergedAt : String) {k : String} :
    k ∈ (takeProduct lower key mergedAt products other).map Prod.fst ↔
      k ∈ products.map Prod.fst ∧ k ≠ other := by
  obtain ⟨canonical, hcanonical⟩ := exists_of_mem_keys hkey
  obtain ⟨source, hsource⟩ := exists_of_mem_keys hother
  rw [takeProduct, (dictGet_eq_some_iff h).mpr hcanonical, (dictGet_eq_some_iff h).mpr hsource]
  have hkept : key ∈ (dictPop products other).map Prod.fst := by
    rw [keys_dictPop, h.mem_erase_iff]
    exact ⟨Ne.symm hne, hkey⟩
  dsimp only
  rw [keys_dictSet, if_pos hkept, keys_dictPop, h.mem_erase_iff, and_comm]

/-! ### Aliases are the keys that were requested -/

theorem mem_appendUnique {values : List String} {value a : String} (hvalue : value ≠ "") :
    a ∈ appendUnique values value ↔ a ∈ values ∨ a = value := by
  rw [appendUnique]
  by_cases h : value ∈ values
  · rw [if_neg (by simp [h])]
    exact ⟨.inl, fun ha => ha.elim id fun ha => ha ▸ h⟩
  · rw [if_pos ⟨hvalue, h⟩, List.mem_append, List.mem_singleton]

theorem mem_appendAllUnique {values more : List String} (hmore : "" ∉ more) {a : String} :
    a ∈ appendAllUnique values more ↔ a ∈ values ∨ a ∈ more := by
  induction more generalizing values with
  | nil => simp [appendAllUnique]
  | cons v more ih =>
    rw [List.mem_cons, not_or] at hmore
    have hstep : appendAllUnique values (v :: more) =
        appendAllUnique (appendUnique values v) more := rfl
    rw [hstep, ih hmore.2, mem_appendUnique (Ne.symm hmore.1), List.mem_cons, or_assoc]

theorem productKey_ne_empty (profile : ProductProfile) : productKey lower profile ≠ "" := by
  intro h
  have hlist := congrArg String.toList h
  simp [productKey] at hlist

theorem observeProduct_aliases (product : Product) (o : Observation) :
    (observeProduct lower digest product o).aliases =
      appendUnique product.aliases (productKey lower o.profile) := by
  simp only [observeProduct]

/-- The products of a memory beside what they hold. A product under a key of `pending` has
yet to enter the observation it was made for. -/
structure Filing (lower : String → String) (pending : List String) (products : Products)
    (held : String → List Observation) : Prop where
  keys : (products.map Prod.fst).Nodup
  aliases : ∀ p ∈ products, ∀ a,
    a ∈ p.2.aliases ↔ ∃ o ∈ held p.1, productKey lower o.profile = a
  self : ∀ p ∈ products, p.1 ∉ pending → p.1 ∈ p.2.aliases
  observations : ∀ p ∈ products, p.2.observations = (held p.1).length
  unheld : ∀ k, k ∉ products.map Prod.fst → held k = []
  apart : Apart (fun o : Observation => productKey lower o.profile) held

namespace Filing

variable {pending : List String} {products : Products} {held : String → List Observation}

theorem empty : Filing lower [] [] fun _ => [] where
  keys := List.nodup_nil
  aliases := by simp
  self := by simp
  observations := by simp
  unheld := by simp
  apart := fun _ _ _ _ hx => absurd hx List.not_mem_nil

/-- One product has a requested key as its alias. -/
theorem alias_unique (h : Filing lower pending products held) {p q : String × Product}
    (hp : p ∈ products) (hq : q ∈ products) {a : String} (hpa : a ∈ p.2.aliases)
    (hqa : a ∈ q.2.aliases) : p = q := by
  obtain ⟨o, ho, hoa⟩ := (h.aliases p hp a).mp hpa
  obtain ⟨o', ho', hoa'⟩ := (h.aliases q hq a).mp hqa
  have hkey : p.1 = q.1 := h.apart ho ho' (hoa.trans hoa'.symm)
  have hp' := (dictGet_eq_some_iff h.keys).mpr (show (p.1, p.2) ∈ products from hp)
  have hq' := (dictGet_eq_some_iff h.keys).mpr (show (q.1, q.2) ∈ products from hq)
  rw [hkey, hq'] at hp'
  exact Prod.ext hkey (Option.some.inj hp').symm

theorem alias_ne_empty (h : Filing lower pending products held) {p : String × Product}
    (hp : p ∈ products) : "" ∉ p.2.aliases := by
  intro hmem
  obtain ⟨o, -, ho⟩ := (h.aliases p hp "").mp hmem
  exact productKey_ne_empty o.profile ho

/-- The product of an observation may be new, and then holds nothing yet. -/
theorem setDefault (h : Filing lower [] products held) (key : String) (o : Observation) :
    Filing lower [key] (setDefaultProduct products key o) held := by
  rw [setDefaultProduct]
  split
  next p hp =>
    exact { h with self := fun p hp _ => h.self p hp List.not_mem_nil }
  next hnone =>
    have hkey : key ∉ products.map Prod.fst := by
      intro hmem
      obtain ⟨p, hp, rfl⟩ := List.mem_map.mp hmem
      rw [(dictGet_eq_some_iff h.keys).mpr (show (p.1, p.2) ∈ products from hp)] at hnone
      cases hnone
    have hempty : held key = [] := h.unheld key hkey
    have hmem : ∀ p ∈ dictSet products key (newProduct key o),
        p = (key, newProduct key o) ∨ p ∈ products := fun _ => mem_dictSet
    constructor
    · exact nodup_dictSet h.keys key _
    · intro p hp a
      rcases hmem p hp with rfl | hp
      · simp [newProduct, hempty]
      · exact h.aliases p hp a
    · intro p hp hpending
      rcases hmem p hp with rfl | hp
      · simp at hpending
      · exact h.self p hp List.not_mem_nil
    · intro p hp
      rcases hmem p hp with rfl | hp
      · simp [newProduct, hempty]
      · exact h.observations p hp
    · intro k hk
      rw [keys_dictSet, if_neg hkey, List.mem_append, not_or] at hk
      exact h.unheld k hk.1
    · exact h.apart

/-- A product that is taken over leaves its aliases and what it holds to the canonical one. -/
theorem take {key other : String} (h : Filing lower [key] products held) (hne : other ≠ key)
    (hkey : key ∈ products.map Prod.fst) (hother : other ∈ products.map Prod.fst)
    (mergedAt : String) :
    Filing lower [key] (takeProduct lower key mergedAt products other) (absorb key held other) := by
  obtain ⟨canonical, hcanonical⟩ := exists_of_mem_keys hkey
  obtain ⟨source, hsource⟩ := exists_of_mem_keys hother
  have hmem := fun p => @mem_takeProduct lower _ h.keys _ _ _ _ hcanonical hsource mergedAt p
  have hself : other ∈ source.aliases := h.self _ hsource (by simpa using hne)
  have haliases : ∀ a, a ∈ (mergeProduct lower canonical source other mergedAt).aliases ↔
      a ∈ canonical.aliases ∨ a ∈ source.aliases := by
    intro a
    have hnonempty : other ≠ "" := fun he => h.alias_ne_empty hsource (he ▸ hself)
    simp only [mergeProduct]
    rw [mem_appendAllUnique (h.alias_ne_empty hsource), mem_appendUnique hnonempty, or_assoc]
    refine or_congr_right ⟨fun ha => ha.elim (fun ha => ha ▸ hself) id, .inr⟩
  constructor
  · exact nodup_takeProduct h.keys key other mergedAt
  · intro p hp a
    rcases (hmem p).mp hp with rfl | ⟨hp, hpo, hpk⟩
    · rw [haliases, h.aliases _ hcanonical, h.aliases _ hsource, absorb_key]
      simp only [List.mem_append, or_and_right, exists_or]
    · rw [absorb_of_ne hpk hpo]
      exact h.aliases p hp a
  · intro p hp hpending
    rcases (hmem p).mp hp with rfl | ⟨hp, -, -⟩
    · simp at hpending
    · exact h.self p hp hpending
  · intro p hp
    rcases (hmem p).mp hp with rfl | ⟨hp, hpo, hpk⟩
    · rw [absorb_key, List.length_append, ← h.observations _ hcanonical,
        ← h.observations _ hsource]
      rfl
    · rw [absorb_of_ne hpk hpo]
      exact h.observations p hp
  · intro k hk
    have hkk : k ≠ key := by
      rintro rfl
      exact hk (List.mem_map_of_mem ((hmem _).mpr (.inl rfl)))
    by_cases hko : k = other
    · rw [hko]
      exact absorb_other hne held
    · rw [absorb_of_ne hkk hko]
      refine h.unheld k fun hmemk => hk ?_
      obtain ⟨p, hp, rfl⟩ := List.mem_map.mp hmemk
      exact List.mem_map_of_mem ((hmem p).mpr (.inr ⟨hp, hko, hkk⟩))
  · exact h.apart.absorb hne

/-- What `takeProduct` does with each of the keys in turn. -/
theorem takeAll {key : String} {absorbed : List String} (h : Filing lower [key] products held)
    (hkey : key ∈ products.map Prod.fst) (hne : key ∉ absorbed) (hnodup : absorbed.Nodup)
    (habsorbed : ∀ other ∈ absorbed, other ∈ products.map Prod.fst) (mergedAt : String) :
    Filing lower [key] (absorbed.foldl (takeProduct lower key mergedAt) products)
        (absorbed.foldl (absorb key) held) ∧
      ∀ k, k ∈ (absorbed.foldl (takeProduct lower key mergedAt) products).map Prod.fst ↔
        k ∈ products.map Prod.fst ∧ k ∉ absorbed := by
  induction absorbed generalizing products held with
  | nil => exact ⟨h, fun k => by simp⟩
  | cons other absorbed ih =>
    rw [List.mem_cons, not_or] at hne
    rw [List.nodup_cons] at hnodup
    have hother := habsorbed other List.mem_cons_self
    have hkeys := fun k => @mem_keys_takeProduct lower _ h.keys _ _ (Ne.symm hne.1) hkey hother mergedAt k
    obtain ⟨hfiling, hrest⟩ := ih (h.take (Ne.symm hne.1) hkey hother mergedAt)
      ((hkeys key).mpr ⟨hkey, hne.1⟩) hne.2 hnodup.2 fun k hk =>
        (hkeys k).mpr ⟨habsorbed k (List.mem_cons_of_mem _ hk), fun he => hnodup.1 (he ▸ hk)⟩
    refine ⟨hfiling, fun k => ?_⟩
    rw [List.foldl_cons, hrest, hkeys, List.mem_cons, not_or, and_assoc]

/-- The product that takes the observation enters it. -/
theorem observe {key : String} (h : Filing lower [key] products held) {product : Product}
    (hproduct : (key, product) ∈ products) (o : Observation)
    (hself : key ∈ product.aliases ∨ key = productKey lower o.profile)
    (hapart : ∀ j, ∀ o' ∈ held j, productKey lower o'.profile = productKey lower o.profile → j = key) :
    Filing lower [] (dictSet products key (observeProduct lower digest product o))
      (enter key held o) := by
  have hmem : ∀ p, p ∈ dictSet products key (observeProduct lower digest product o) ↔
      p = (key, observeProduct lower digest product o) ∨ p ∈ products ∧ p.1 ≠ key :=
    fun p => mem_dictSet_iff h.keys
  have haliases : ∀ a, a ∈ (observeProduct lower digest product o).aliases ↔
      a ∈ product.aliases ∨ a = productKey lower o.profile := fun a => by
    rw [observeProduct_aliases, mem_appendUnique (productKey_ne_empty o.profile)]
  constructor
  · exact nodup_dictSet h.keys key _
  · intro p hp a
    rcases (hmem p).mp hp with rfl | ⟨hp, hpk⟩
    · rw [haliases, h.aliases _ hproduct, enter_key]
      simp only [List.mem_append, List.mem_singleton, or_and_right, exists_or, exists_eq_left]
      exact or_congr_right eq_comm
    · rw [enter_of_ne hpk]
      exact h.aliases p hp a
  · intro p hp _
    rcases (hmem p).mp hp with rfl | ⟨hp, hpk⟩
    · exact (haliases key).mpr hself
    · exact h.self p hp (by simpa using hpk)
  · intro p hp
    rcases (hmem p).mp hp with rfl | ⟨hp, hpk⟩
    · rw [enter_key, List.length_append, ← h.observations _ hproduct]
      rfl
    · rw [enter_of_ne hpk]
      exact h.observations p hp
  · intro k hk
    rw [keys_dictSet, if_pos (List.mem_map_of_mem hproduct)] at hk
    have hkk : k ≠ key := by
      rintro rfl
      exact hk (List.mem_map_of_mem hproduct)
    rw [enter_of_ne hkk]
    exact h.unheld k hk
  · exact h.apart.enter hapart

theorem refresh (h : Filing lower pending products held) :
    Filing lower pending (refreshRelatedIdentities lower products) held := by
  have hmap : (refreshRelatedIdentities lower products).map Prod.fst = products.map Prod.fst := by
    rw [refreshRelatedIdentities, List.map_map]
    rfl
  constructor
  · rw [hmap]
    exact h.keys
  · intro p hp
    obtain ⟨q, hq, rfl⟩ := List.mem_map.mp hp
    exact h.aliases q hq
  · intro p hp
    obtain ⟨q, hq, rfl⟩ := List.mem_map.mp hp
    exact h.self q hq
  · intro p hp
    obtain ⟨q, hq, rfl⟩ := List.mem_map.mp hp
    exact h.observations q hq
  · rw [hmap]
    exact h.unheld
  · exact h.apart

/-- A key that was requested is an alias, and the other way round. -/
theorem alias_iff (h : Filing lower pending products held) {requested : String} :
    (∃ p ∈ products, requested ∈ p.2.aliases) ↔
      ∃ k, ∃ o ∈ held k, productKey lower o.profile = requested := by
  constructor
  · rintro ⟨p, hp, hmem⟩
    exact ⟨p.1, (h.aliases p hp requested).mp hmem⟩
  · rintro ⟨k, o, ho, hkey⟩
    have hk : k ∈ products.map Prod.fst := by
      by_contra hk
      rw [h.unheld k hk] at ho
      exact List.not_mem_nil ho
    obtain ⟨p, hp⟩ := exists_of_mem_keys hk
    exact ⟨(k, p), hp, (h.aliases _ hp requested).mpr ⟨o, ho, hkey⟩⟩

end Filing

/-! ### One observation -/

theorem mem_keys_setDefault (products : Products) (key : String) (o : Observation) {k : String} :
    k ∈ (setDefaultProduct products key o).map Prod.fst ↔
      k ∈ products.map Prod.fst ∨ k = key := by
  rw [setDefaultProduct]
  split
  next p hp =>
    have hkey : key ∈ products.map Prod.fst := List.mem_map_of_mem (mem_of_dictGet hp)
    exact ⟨.inl, fun h => h.elim id fun h => h ▸ hkey⟩
  next =>
    rw [keys_dictSet]
    split_ifs with hkey
    · exact ⟨.inl, fun h => h.elim id fun h => h ▸ hkey⟩
    · rw [List.mem_append, List.mem_singleton]

/-- What lies in a memory before its product enters the observation. -/
theorem Filing.merge {m : HeldMemory} (h : Filing lower [] (loadProducts m.file) m.held)
    (o : Observation) :
    let products := loadProducts m.file
    let key := observedKey lower products o
    let merged := mergeWeakerProducts lower (setDefaultProduct products key o) key o.profile o.now
    Filing lower [key] merged ((absorbedKeys lower products o).foldl (absorb key) m.held) ∧
      key ∉ absorbedKeys lower products o ∧
      ∀ k, k ∈ merged.map Prod.fst ↔
        (k ∈ products.map Prod.fst ∨ k = key) ∧ k ∉ absorbedKeys lower products o := by
  intro products key merged
  have hdefault : Filing lower [key] (setDefaultProduct products key o) m.held := h.setDefault key o
  have hkey : key ∈ (setDefaultProduct products key o).map Prod.fst :=
    (mem_keys_setDefault products key o).mpr (.inr rfl)
  have hne : key ∉ absorbedKeys lower products o := by
    intro hmem
    have hweaker := (List.mem_filter.mp hmem).2
    simp [weakerKey, key] at hweaker
  obtain ⟨hfiling, hkeys⟩ := hdefault.takeAll hkey hne (hdefault.keys.filter _)
    (fun other hother => (List.mem_filter.mp hother).1) o.now
  refine ⟨hfiling, hne, fun k => ?_⟩
  rw [← mem_keys_setDefault products key o]
  exact hkeys k

/-- One call of `record_observation` keeps the products and what they hold in step. -/
theorem Filing.record {m : HeldMemory} (h : Filing lower [] (loadProducts m.file) m.held)
    (o : Observation) :
    Filing lower [] (loadProducts (m.record lower digest o).file) (m.record lower digest o).held := by
  obtain ⟨hfiling, hne, hkeys⟩ := h.merge o
  have hkey := (hkeys _).mpr ⟨.inr rfl, hne⟩
  obtain ⟨product, hproduct⟩ := exists_of_mem_keys hkey
  have hget := (dictGet_eq_some_iff hfiling.keys).mpr hproduct
  -- the key of a product stays its alias while others are merged into it
  have hself : ∀ p ∈ loadProducts m.file, p.1 = observedKey lower (loadProducts m.file) o →
      observedKey lower (loadProducts m.file) o ∈ product.aliases := by
    intro p hp hpkey
    obtain ⟨o', ho', hkey'⟩ := (h.aliases p hp p.1).mp (h.self p hp List.not_mem_nil)
    rw [hpkey] at ho' hkey'
    exact (hfiling.aliases _ hproduct _).mpr ⟨o', mem_absorbAll_key ho', hkey'⟩
  have hrecord : Filing lower [] (dictSet (mergeWeakerProducts lower
      (setDefaultProduct (loadProducts m.file) (observedKey lower (loadProducts m.file) o) o)
      (observedKey lower (loadProducts m.file) o) o.profile o.now)
      (observedKey lower (loadProducts m.file) o) (observeProduct lower digest product o))
      (m.record lower digest o).held := by
    refine hfiling.observe hproduct o ?_ ?_
    · rcases canonicalProductKey_cases lower (loadProducts m.file)
        (productKey lower o.profile) o.profile with ⟨p, hp, -, hcanonical⟩ | ⟨-, hmem | ⟨hcanonical, -⟩⟩
      · exact .inl (hself p hp hcanonical.symm)
      · obtain ⟨p, hp, hpkey⟩ := List.mem_map.mp hmem
        exact .inl (hself p hp hpkey)
      · exact .inr hcanonical
    · intro j o' ho' hlabel
      obtain ⟨k, ho⟩ := (exists_mem_absorbAll hne).mp ⟨j, ho'⟩
      rcases canonicalProductKey_cases lower (loadProducts m.file)
        (productKey lower o.profile) o.profile with ⟨p, hp, halias, hcanonical⟩ | ⟨hnone, -⟩
      · obtain ⟨o'', ho'', hkey''⟩ := (h.aliases p hp _).mp halias
        rw [← hcanonical] at ho''
        exact hfiling.apart ho' (mem_absorbAll_key ho'') (hlabel.trans hkey''.symm)
      · obtain ⟨p, hp, halias⟩ := h.alias_iff.mpr ⟨k, o', ho, hlabel⟩
        exact absurd halias (hnone p hp)
  have hfile : loadProducts (m.record lower digest o).file = refreshRelatedIdentities lower
      (dictSet (mergeWeakerProducts lower
        (setDefaultProduct (loadProducts m.file) (observedKey lower (loadProducts m.file) o) o)
        (observedKey lower (loadProducts m.file) o) o.profile o.now)
        (observedKey lower (loadProducts m.file) o) (observeProduct lower digest product o)) := by
    simp only [HeldMemory.record, recordObservation, loadProducts, Option.getD_some]
    rw [observedKey] at hget
    simp only [loadProducts] at hget
    rw [hget, Option.getD_some]
    rfl
  rw [hfile]
  exact hrecord.refresh

variable (lower digest) in
theorem filing_heldAll (calls : List Observation) :
    Filing lower [] (loadProducts (recordAll lower digest calls)) (heldAll lower digest calls).held := by
  rw [← heldAll_file]
  induction calls using List.reverseRecOn with
  | nil => exact Filing.empty
  | append_singleton calls o ih =>
    rw [heldAll_snoc]
    exact ih.record o

variable (lower digest) in
/-- Every observation lies with some product. -/
theorem exists_held (calls : List Observation) {o : Observation} (ho : o ∈ calls) :
    ∃ k, o ∈ (heldAll lower digest calls).held k := by
  induction calls using List.reverseRecOn with
  | nil => simp at ho
  | append_singleton calls o' ih =>
    rw [heldAll_snoc]
    have hfiling := filing_heldAll lower digest calls
    rw [← heldAll_file] at hfiling
    obtain ⟨-, hne, -⟩ := hfiling.merge o'
    rcases List.mem_append.mp ho with ho | ho
    · obtain ⟨k, hk⟩ := (exists_mem_absorbAll hne).mpr (ih ho)
      exact ⟨k, mem_enter.mpr (.inl hk)⟩
    · exact ⟨_, mem_enter.mpr (.inr ⟨rfl, List.mem_singleton.mp ho⟩)⟩

variable (lower digest) in
/-- Over every sequence of observations: the key an observation was requested with is an alias
of one product, that product holds the observation and no other does, it counts as many
observations as it holds, and every lookup with the key returns it. -/
theorem lookup_remembers (calls : List Observation) {o : Observation} (ho : o ∈ calls) :
    ∃ p ∈ loadProducts (recordAll lower digest calls),
      productKey lower o.profile ∈ p.2.aliases ∧
      (∀ q ∈ loadProducts (recordAll lower digest calls),
        productKey lower o.profile ∈ q.2.aliases → q = p) ∧
      (∀ k, o ∈ (heldAll lower digest calls).held k ↔ k = p.1) ∧
      p.2.observations = ((heldAll lower digest calls).held p.1).length ∧
      ∀ profile : ProductProfile, productKey lower profile = productKey lower o.profile →
        (lookup lower digest (recordAll lower digest calls) profile).productKey = p.1 ∧
          (lookup lower digest (recordAll lower digest calls) profile).memory.map
            RememberedProduct.product = some p.2 := by
  have hfiling := filing_heldAll lower digest calls
  obtain ⟨k, hk⟩ := exists_held lower digest calls ho
  obtain ⟨p, hp, halias⟩ := hfiling.alias_iff.mpr ⟨k, o, hk, rfl⟩
  have hunique : ∀ q ∈ loadProducts (recordAll lower digest calls),
      productKey lower o.profile ∈ q.2.aliases → q = p :=
    fun q hq hqalias => hfiling.alias_unique hq hp hqalias halias
  refine ⟨p, hp, halias, hunique, fun j => ⟨fun hj => ?_, ?_⟩, hfiling.observations p hp,
    fun profile hprofile => ?_⟩
  · obtain ⟨o', ho', hkey⟩ := (hfiling.aliases p hp _).mp halias
    exact hfiling.apart hj ho' hkey.symm
  · rintro rfl
    obtain ⟨o', ho', hkey⟩ := (hfiling.aliases p hp _).mp halias
    have hkp : k = p.1 := hfiling.apart hk ho' hkey.symm
    exact hkp ▸ hk
  · have hcanonical : canonicalProductKey lower (loadProducts (recordAll lower digest calls))
        (productKey lower profile) profile = p.1 := by
      rw [hprofile]
      exact canonicalProductKey_of_alias hp halias
        (fun q hq hqalias => congrArg Prod.fst (hunique q hq hqalias)) profile
    have hget := (dictGet_eq_some_iff hfiling.keys).mpr
      (show (p.1, p.2) ∈ loadProducts (recordAll lower digest calls) from hp)
    constructor
    · exact hcanonical
    · rw [lookup, hcanonical, hget]
      rfl

/-- A tablet is seen under a code name. -/
def sighting (codename : String) : Observation where
  sessionName := "session"
  profile :=
    { sessionId := "session"
      canonicalName := "tablet"
      deviceCodename := codename
      fingerprint := ""
      manufacturer := some "samsung"
      model := some "tab" }

/-- The weak sighting is remembered after it was merged into a stronger one. -/
theorem weak_sighting_remembered :
    ∃ p ∈ loadProducts (recordAll id id [sighting "", sighting "gts", sighting "gta"]),
      productKey id (sighting "").profile ∈ p.2.aliases ∧
      (∀ q ∈ loadProducts (recordAll id id [sighting "", sighting "gts", sighting "gta"]),
        productKey id (sighting "").profile ∈ q.2.aliases → q = p) ∧
      (∀ k, sighting "" ∈ (heldAll id id [sighting "", sighting "gts", sighting "gta"]).held k ↔
        k = p.1) ∧
      p.2.observations =
        ((heldAll id id [sighting "", sighting "gts", sighting "gta"]).held p.1).length ∧
      ∀ profile : ProductProfile, productKey id profile = productKey id (sighting "").profile →
        (lookup id id (recordAll id id [sighting "", sighting "gts", sighting "gta"])
            profile).productKey = p.1 ∧
          (lookup id id (recordAll id id [sighting "", sighting "gts", sighting "gta"])
            profile).memory.map RememberedProduct.product = some p.2 :=
  lookup_remembers id id [sighting "", sighting "gts", sighting "gta"] List.mem_cons_self

/-! ### Compatible products -/

theorem compatibleProductKey_comm (j k : String) :
    compatibleProductKey lower j k none = compatibleProductKey lower k j none := by
  simp only [compatibleProductKey, Bool.or_false]
  rw [Bool.eq_iff_iff]
  simp only [Bool.or_eq_true, Bool.and_eq_true, decide_eq_true_eq]
  constructor
  · rintro (⟨h, he⟩ | ⟨⟨⟨h, h'⟩, he⟩, he'⟩)
    · exact .inl ⟨he ▸ h, he.symm⟩
    · exact .inr ⟨⟨⟨he ▸ h, he' ▸ h'⟩, he.symm⟩, he'.symm⟩
  · rintro (⟨h, he⟩ | ⟨⟨⟨h, h'⟩, he⟩, he'⟩)
    · exact .inl ⟨he ▸ h, he.symm⟩
    · exact .inr ⟨⟨⟨he ▸ h, he' ▸ h'⟩, he.symm⟩, he'.symm⟩

/-- A profile can only make more keys compatible. -/
theorem compatibleProductKey_mono {j k : String} (h : compatibleProductKey lower j k none = true)
    (profile : ProductProfile) : compatibleProductKey lower j k (some profile) = true := by
  have hsome : compatibleProductKey lower j k (some profile) =
      (compatibleProductKey lower j k none ||
        (isSpecific lower (slug lower (orText (some profile.deviceCodename) "unknown")) &&
          decide ((productKeyParts j).2.2 =
            slug lower (orText (some profile.deviceCodename) "unknown")))) := by
    simp only [compatibleProductKey, Bool.or_false]
  rw [hsome, h, Bool.true_or]

/-- No key is better known than another one that could name the same product. -/
def Levelled (lower : String → String) (keys : List String) : Prop :=
  ∀ j ∈ keys, ∀ k ∈ keys, compatibleProductKey lower j k none →
    identityQuality lower j = identityQuality lower k

/-- A new key that took over the weaker ones and found no better one is level with the rest. -/
theorem Levelled.insert {keys : List String} (h : Levelled lower keys) (key : String)
    (hkey : ∀ k ∈ keys, compatibleProductKey lower k key none →
      identityQuality lower k = identityQuality lower key) {more : List String}
    (hmore : ∀ k ∈ more, k ∈ keys ∨ k = key) : Levelled lower more := by
  intro j hj k hk hcompatible
  rcases hmore j hj with hj | rfl
  · rcases hmore k hk with hk | rfl
    · exact h j hj k hk hcompatible
    · exact hkey j hj hcompatible
  · rcases hmore k hk with hk | rfl
    · rw [compatibleProductKey_comm] at hcompatible
      exact (hkey k hk hcompatible).symm
    · rfl

theorem keys_record (m : HeldMemory) (o : Observation)
    (h : Filing lower [] (loadProducts m.file) m.held) {k : String}
    (hk : k ∈ (loadProducts (m.record lower digest o).file).map Prod.fst) :
    (k ∈ (loadProducts m.file).map Prod.fst ∨ k = observedKey lower (loadProducts m.file) o) ∧
      k ∉ absorbedKeys lower (loadProducts m.file) o := by
  obtain ⟨-, hne, hkeys⟩ := h.merge o
  rw [← hkeys]
  have hkey := (hkeys _).mpr ⟨.inr rfl, hne⟩
  simp only [HeldMemory.record, recordObservation, loadProducts, Option.getD_some,
    refreshRelatedIdentities, List.map_map] at hk
  change k ∈ (dictSet _ _ _).map Prod.fst at hk
  rw [keys_dictSet] at hk
  split_ifs at hk with hmem
  · exact hk
  · exact absurd hkey hmem

/-- One call of `record_observation` keeps the keys level. -/
theorem Levelled.record {m : HeldMemory} (h : Filing lower [] (loadProducts m.file) m.held)
    (hlevel : Levelled lower ((loadProducts m.file).map Prod.fst)) (o : Observation) :
    Levelled lower ((loadProducts (m.record lower digest o).file).map Prod.fst) := by
  have hkept := fun k => @keys_record lower digest m o h k
  rcases canonicalProductKey_cases lower (loadProducts m.file)
    (productKey lower o.profile) o.profile with
      ⟨p, hp, -, hcanonical⟩ | ⟨-, hmem | ⟨hcanonical, hbest⟩⟩
  · have hold : observedKey lower (loadProducts m.file) o ∈ (loadProducts m.file).map Prod.fst := by
      rw [observedKey, hcanonical]
      exact List.mem_map_of_mem hp
    exact fun j hj k hk => hlevel j ((hkept j hj).1.elim id fun he => he ▸ hold)
      k ((hkept k hk).1.elim id fun he => he ▸ hold)
  · exact fun j hj k hk => hlevel j ((hkept j hj).1.elim id fun he => he ▸ hmem)
      k ((hkept k hk).1.elim id fun he => he ▸ hmem)
  · -- a new key: the weaker compatible ones are absorbed, better ones there are none
    have hkey : observedKey lower (loadProducts m.file) o = productKey lower o.profile := hcanonical
    have hlevelKept : Levelled lower (((loadProducts m.file).map Prod.fst).filter
        (· ∉ absorbedKeys lower (loadProducts m.file) o)) := fun j hj k hk =>
      hlevel j (List.mem_of_mem_filter hj) k (List.mem_of_mem_filter hk)
    refine hlevelKept.insert (observedKey lower (loadProducts m.file) o) ?_ ?_
    · intro k hk hcompatible
      obtain ⟨hold, hkeep⟩ := List.mem_filter.mp hk
      by_cases hsame : k = observedKey lower (loadProducts m.file) o
      · rw [hsame]
      · have hcompatible' := compatibleProductKey_mono hcompatible o.profile
        have hle : identityQuality lower k ≤ identityQuality lower (productKey lower o.profile) :=
          hbest k hold (hkey ▸ hcompatible')
        have hnot : ¬identityQuality lower k <
            identityQuality lower (observedKey lower (loadProducts m.file) o) := by
          intro hlt
          refine absurd ?_ (of_decide_eq_true hkeep)
          refine List.mem_filter.mpr ⟨(mem_keys_setDefault _ _ o).mpr (.inl hold), ?_⟩
          simp [weakerKey, hsame, hcompatible', hlt]
        rw [hkey] at hnot ⊢
        omega
    · intro k hk
      obtain ⟨hmem, hkeep⟩ := hkept k hk
      exact hmem.imp_left fun hmem => List.mem_filter.mpr ⟨hmem, decide_eq_true hkeep⟩

theorem levelled_recordAll (calls : List Observation) :
    Levelled lower ((loadProducts (recordAll lower digest calls)).map Prod.fst) := by
  rw [← heldAll_file]
  induction calls using List.reverseRecOn with
  | nil => simp [Levelled, heldAll, loadProducts]
  | append_singleton calls o ih =>
    have hfiling := filing_heldAll lower digest calls
    rw [← heldAll_file] at hfiling
    rw [heldAll_snoc]
    exact Levelled.record hfiling ih o

variable (lower digest) in
/-- Over every sequence of observations: two products that could be the same one are known
equally well. -/
theorem compatible_products_level (calls : List Observation) {j k : String}
    (hj : j ∈ (loadProducts (recordAll lower digest calls)).map Prod.fst)
    (hk : k ∈ (loadProducts (recordAll lower digest calls)).map Prod.fst)
    (hcompatible : compatibleProductKey lower j k none = true) :
    identityQuality lower j = identityQuality lower k :=
  levelled_recordAll calls j hj k hk hcompatible

/-- The two code names of one model stay beside each other, equally well known. -/
theorem codenames_level :
    identityQuality id "samsung:tab:gts" = identityQuality id "samsung:tab:gta" :=
  compatible_products_level id id [sighting "", sighting "gts", sighting "gta"]
    (by decide +kernel) (by decide +kernel) (by decide +kernel)

end ForgeOS.Learning
