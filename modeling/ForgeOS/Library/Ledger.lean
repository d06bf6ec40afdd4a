import Mathlib.Logic.Function.Basic
import Mathlib.Data.List.Basic

/-! Entries filed under keys. A key can take over what another one holds, and a new entry
is filed at the end of what its key holds. When entries that agree in a label always lie
under one key, and a new entry goes to the key that has its label, this stays so. -/

namespace ForgeOS.Library.Ledger

variable {κ α β : Type*} [DecidableEq κ]

/-- `key` takes over what `other` holds. -/
def absorb (key : κ) (held : κ → List α) (other : κ) : κ → List α :=
  Function.update (Function.update held other []) key (held key ++ held other)

/-- A new entry under `key`. -/
def enter (key : κ) (held : κ → List α) (a : α) : κ → List α :=
  Function.update held key (held key ++ [a])

theorem absorb_key (key : κ) (held : κ → List α) (other : κ) :
    absorb key held other key = held key ++ held other := Function.update_self ..

theorem absorb_other {key other : κ} (h : other ≠ key) (held : κ → List α) :
    absorb key held other other = [] := by
  rw [absorb, Function.update_of_ne h, Function.update_self]

theorem absorb_of_ne {key other k : κ} (hkey : k ≠ key) (hother : k ≠ other) (held : κ → List α) :
    absorb key held other k = held k := by
  rw [absorb, Function.update_of_ne hkey, Function.update_of_ne hother]

theorem enter_key (key : κ) (held : κ → List α) (a : α) :
    enter key held a key = held key ++ [a] := Function.update_self ..

theorem enter_of_ne {key k : κ} (h : k ≠ key) (held : κ → List α) (a : α) :
    enter key held a k = held k := Function.update_of_ne h _ _

/-- Where an entry lies after a takeover. -/
theorem mem_absorb {key other k : κ} (hne : other ≠ key) {held : κ → List α} {x : α} :
    x ∈ absorb key held other k ↔
      (k = key ∧ (x ∈ held key ∨ x ∈ held other)) ∨ (k ≠ key ∧ k ≠ other ∧ x ∈ held k) := by
  by_cases hkey : k = key
  · subst hkey
    simp [absorb_key]
  · by_cases hother : k = other
    · subst hother
      simp [absorb_other hne, hkey]
    · simp [absorb_of_ne hkey hother, hkey, hother]

theorem mem_enter {key k : κ} {held : κ → List α} {a x : α} :
    x ∈ enter key held a k ↔ x ∈ held k ∨ (k = key ∧ x = a) := by
  by_cases hkey : k = key
  · subst hkey
    simp [enter_key]
  · simp [enter_of_ne hkey, hkey]

/-- Several takeovers move entries and lose none. -/
theorem exists_mem_absorbAll {key : κ} {others : List κ} (hne : key ∉ others) {held : κ → List α}
    {x : α} : (∃ k, x ∈ others.foldl (absorb key) held k) ↔ ∃ k, x ∈ held k := by
  induction others generalizing held with
  | nil => rfl
  | cons other others ih =>
    rw [List.mem_cons, not_or] at hne
    rw [List.foldl_cons, ih hne.2]
    constructor
    · rintro ⟨k, hk⟩
      rw [mem_absorb (Ne.symm hne.1)] at hk
      rcases hk with ⟨-, hk | hk⟩ | ⟨-, -, hk⟩
      · exact ⟨key, hk⟩
      · exact ⟨other, hk⟩
      · exact ⟨k, hk⟩
    · rintro ⟨k, hk⟩
      by_cases h : k = key ∨ k = other
      · refine ⟨key, (mem_absorb (Ne.symm hne.1)).mpr (.inl ⟨rfl, ?_⟩)⟩
        rcases h with rfl | rfl
        · exact .inl hk
        · exact .inr hk
      · rw [not_or] at h
        exact ⟨k, (mem_absorb (Ne.symm hne.1)).mpr (.inr ⟨h.1, h.2, hk⟩)⟩

/-- The key that takes over keeps what it held. -/
theorem mem_absorbAll_key {key : κ} {others : List κ} {held : κ → List α} {x : α}
    (hx : x ∈ held key) : x ∈ others.foldl (absorb key) held key := by
  induction others generalizing held with
  | nil => exact hx
  | cons other others ih =>
    refine ih ?_
    rw [absorb_key]
    exact List.mem_append_left _ hx

/-! ### Labels -/

/-- Entries with one label lie under one key. -/
def Apart (label : α → β) (held : κ → List α) : Prop :=
  ∀ ⦃j k x y⦄, x ∈ held j → y ∈ held k → label x = label y → j = k

variable {label : α → β} {held : κ → List α}

theorem Apart.absorb (h : Apart label held) {key other : κ} (hne : other ≠ key) :
    Apart label (absorb key held other) := by
  intro j k x y hx hy hlabel
  rw [mem_absorb hne] at hx hy
  obtain ⟨rfl, hx⟩ | ⟨hj, hjo, hx⟩ := hx
  · obtain ⟨rfl, -⟩ | ⟨hk, hko, hy⟩ := hy
    · rfl
    · rcases hx with hx | hx
      · exact h hx hy hlabel
      · exact absurd (h hx hy hlabel).symm hko
  · obtain ⟨rfl, hy⟩ | ⟨-, -, hy⟩ := hy
    · rcases hy with hy | hy
      · exact h hx hy hlabel
      · exact absurd (h hx hy hlabel) hjo
    · exact h hx hy hlabel

/-- An entry may be filed where the entries with its label lie. -/
theorem Apart.enter (h : Apart label held) {key : κ} {a : α}
    (ha : ∀ j, ∀ x ∈ held j, label x = label a → j = key) : Apart label (enter key held a) := by
  intro j k x y hx hy hlabel
  rw [mem_enter] at hx hy
  rcases hx with hx | ⟨rfl, rfl⟩
  · rcases hy with hy | ⟨rfl, rfl⟩
    · exact h hx hy hlabel
    · exact ha j x hx hlabel
  · rcases hy with hy | ⟨rfl, -⟩
    · exact (ha k y hy hlabel.symm).symm
    · rfl

end ForgeOS.Library.Ledger
