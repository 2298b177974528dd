import Mathlib

/-!
# Things with names

A list of things, a name for each, and the finite map from names to things. Adding, removing and renaming a thing are insertion and erasure in the map.
-/

def Naming {ι κ : Type*} [DecidableEq κ] (m : Finmap fun _ : κ => ι) (xs : List ι) (name : ι → κ) : Prop :=
  ∀ k i, m.lookup k = some i ↔ i ∈ xs ∧ name i = k

namespace Naming

variable {ι κ : Type*} [DecidableEq κ] {m : Finmap fun _ : κ => ι} {xs : List ι} {name name' : ι → κ} {i j : ι} {k k' : κ}

theorem empty : Naming (∅ : Finmap fun _ : κ => ι) [] name := by
  intro k i
  simp

theorem congr (h : Naming m xs name) (hsame : ∀ i ∈ xs, name' i = name i) : Naming m xs name' := by
  intro k i
  rw [h k i]
  exact and_congr_right fun hi => by rw [hsame i hi]

theorem lookup_name (h : Naming m xs name) (hi : i ∈ xs) : m.lookup (name i) = some i := (h _ _).2 ⟨hi, rfl⟩

theorem injective (h : Naming m xs name) (hi : i ∈ xs) (hj : j ∈ xs) (hname : name i = name j) : i = j := by
  have hfound := h.lookup_name hi
  rw [hname, h.lookup_name hj] at hfound
  exact (Option.some.inj hfound).symm

theorem nodup_map (h : Naming m xs name) (hnodup : xs.Nodup) : (xs.map name).Nodup :=
  hnodup.map_on fun _ hi _ hj => h.injective hi hj

theorem find?_eq (h : Naming m xs name) (k : κ) : (xs.find? fun i => name i = k) = m.lookup k := by
  cases hfind : xs.find? fun i => name i = k with
  | some i => exact ((h k i).2 ⟨List.mem_of_find?_eq_some hfind, by simpa using List.find?_some hfind⟩).symm
  | none =>
    cases hlookup : m.lookup k with
    | none => rfl
    | some i =>
      obtain ⟨hi, hname⟩ := (h k i).1 hlookup
      exact absurd (decide_eq_true hname) (List.find?_eq_none.1 hfind i hi)

variable [DecidableEq ι]

theorem insert (h : Naming m xs name) (hfree : m.lookup k = none) (hnew : i ∉ xs) :
    Naming (m.insert k i) (i :: xs) (Function.update name i k) := by
  intro l j
  rw [List.mem_cons]
  by_cases hj : j = i
  · subst hj
    rw [Function.update_self]
    by_cases hl : l = k
    · subst hl
      simp
    · rw [Finmap.lookup_insert_of_ne _ hl, h l j]
      exact ⟨fun hno => absurd hno.1 hnew, fun hno => absurd hno.2 (Ne.symm hl)⟩
  · rw [Function.update_of_ne hj]
    by_cases hl : l = k
    · subst hl
      rw [Finmap.lookup_insert]
      constructor
      · intro hsame
        exact absurd (Option.some.inj hsame).symm hj
      · rintro ⟨hmem, hname⟩
        have hfound := (h l j).2 ⟨hmem.resolve_left hj, hname⟩
        rw [hfree] at hfound
        cases hfound
    · rw [Finmap.lookup_insert_of_ne _ hl, h l j]
      exact and_congr_left' (or_iff_right hj).symm

theorem erase (h : Naming m xs name) (hnodup : xs.Nodup) (hi : m.lookup k = some i) : Naming (m.erase k) (xs.erase i) name := by
  intro l j
  rw [hnodup.mem_erase_iff]
  by_cases hl : l = k
  · subst hl
    rw [Finmap.lookup_erase]
    constructor
    · intro hno
      cases hno
    · rintro ⟨⟨hne, hmem⟩, hname⟩
      have hfound := (h l j).2 ⟨hmem, hname⟩
      rw [hi] at hfound
      exact absurd (Option.some.inj hfound).symm hne
  · rw [Finmap.lookup_erase_ne hl, h l j]
    constructor
    · rintro ⟨hmem, hname⟩
      refine ⟨⟨?_, hmem⟩, hname⟩
      rintro rfl
      exact hl (hname.symm.trans ((h k j).1 hi).2)
    · rintro ⟨⟨-, hmem⟩, hname⟩
      exact ⟨hmem, hname⟩

theorem rename (h : Naming m xs name) (hi : m.lookup k = some i) (hfree : m.lookup k' = none) :
    Naming ((m.erase k).insert k' i) xs (Function.update name i k') := by
  obtain ⟨hmem, hname⟩ := (h k i).1 hi
  intro l j
  by_cases hj : j = i
  · subst hj
    rw [Function.update_self]
    by_cases hl : l = k'
    · subst hl
      simp [hmem]
    · rw [Finmap.lookup_insert_of_ne _ hl]
      constructor
      · intro hfound
        by_cases hold : l = k
        · rw [hold, Finmap.lookup_erase] at hfound
          cases hfound
        · rw [Finmap.lookup_erase_ne hold] at hfound
          exact absurd (((h l j).1 hfound).2.symm.trans hname) hold
      · exact fun hno => absurd hno.2 (Ne.symm hl)
  · rw [Function.update_of_ne hj]
    by_cases hl : l = k'
    · subst hl
      rw [Finmap.lookup_insert]
      constructor
      · intro hsame
        exact absurd (Option.some.inj hsame).symm hj
      · intro hother
        rw [(h l j).2 hother] at hfree
        cases hfree
    · rw [Finmap.lookup_insert_of_ne _ hl]
      by_cases hold : l = k
      · subst hold
        rw [Finmap.lookup_erase]
        constructor
        · intro hno
          cases hno
        · intro hother
          have hfound := (h l j).2 hother
          rw [hi] at hfound
          exact absurd (Option.some.inj hfound).symm hj
      · rw [Finmap.lookup_erase_ne hold, h l j]

end Naming
