/-
  Playfield.Proofs.NameMap — what the operations on a map do to what its names stand for.

  A map is known by its lookups (`ext_get?`), so every operation is described by the lookups
  after it (`get?_insert`, `get?_ofList`), and the list of a map's entries makes the map again
  (`ofList_entries`).
-/

import Mathlib.Data.List.Sort
import Playfield.NameMap

namespace Playfield.NameMap

variable {α : Type}

/-! ## Entries -/

theorem find?_insertEntry (name other : String) (value : α) (l : List (String × α)) :
    (insertEntry name value l).find? (·.1 == other) =
      if other = name then some (name, value) else l.find? (·.1 == other) := by
  induction l with
  | nil =>
    by_cases e : other = name
    · simp [insertEntry, e]
    · simp [insertEntry, e, Ne.symm e]
  | cons hd tl ih =>
    obtain ⟨key, v⟩ := hd
    simp only [insertEntry]
    split
    · by_cases e : other = name
      · simp [e]
      · simp [e, Ne.symm e]
    split
    · rename_i hlt
      by_cases e : key = other
      · have hne : other ≠ name := by
          intro h
          exact String.lt_irrefl _ (h ▸ e ▸ hlt)
        simp [e, hne]
      · simp [e, ih]
    · rename_i hge hle
      have hkey : key = name := String.le_antisymm (String.not_lt.1 hge) (String.not_lt.1 hle)
      by_cases e : other = name
      · simp [e]
      · simp [e, Ne.symm e, hkey]

theorem nodup_names (m : NameMap α) : m.names.Nodup :=
  List.pairwise_map.2 (m.sorted.imp fun h => String.ne_of_lt h)

theorem eq_of_mem_entries {m : NameMap α} {name : String} {v w : α} (hv : (name, v) ∈ m.entries)
    (hw : (name, w) ∈ m.entries) : v = w :=
  congrArg Prod.snd (List.inj_on_of_nodup_map m.nodup_names hv hw rfl)

theorem get?_eq_some_iff {m : NameMap α} {name : String} {value : α} :
    m.get? name = some value ↔ (name, value) ∈ m.entries := by
  simp only [get?, Option.map_eq_some_iff]
  refine ⟨fun h => ?_, fun hmem => ?_⟩
  · obtain ⟨e, he, rfl⟩ := h
    have hname : e.1 = name := by simpa using List.find?_some he
    exact hname ▸ List.mem_of_find?_eq_some he
  · obtain ⟨e, he⟩ : ∃ e, m.entries.find? (·.1 == name) = some e :=
      Option.isSome_iff_exists.1 (List.find?_isSome.2 ⟨_, hmem, by simp⟩)
    have hname : e.1 = name := by simpa using List.find?_some he
    have he' : (name, e.2) ∈ m.entries := hname ▸ List.mem_of_find?_eq_some he
    exact ⟨e, he, eq_of_mem_entries he' hmem⟩

/-! ## Names -/

theorem mem_names {m : NameMap α} {name : String} : name ∈ m.names ↔ m.contains name = true := by
  rw [contains, Option.isSome_iff_exists]
  simp only [get?_eq_some_iff, names, List.mem_map, Prod.exists]
  refine ⟨fun h => ?_, fun h => ?_⟩
  · obtain ⟨_, v, hmem, rfl⟩ := h
    exact ⟨v, hmem⟩
  · obtain ⟨v, hmem⟩ := h
    exact ⟨name, v, hmem, rfl⟩

theorem contains_of_get? {m : NameMap α} {name : String} {value : α}
    (h : m.get? name = some value) : m.contains name = true := by
  simp [contains, h]

theorem get?_eq_none_iff {m : NameMap α} {name : String} :
    m.get? name = none ↔ m.contains name = false := by
  simp [contains]

theorem length_names (m : NameMap α) : m.names.length = m.size := by
  simp [names, size]

/-- Two maps that count the same names, the one's among the other's, have the same names. -/
theorem contains_iff_of_size_eq {β : Type} {m : NameMap α} {n : NameMap β}
    (hsize : m.size = n.size) (hsub : ∀ name ∈ m.names, n.contains name = true) (name : String) :
    m.contains name = true ↔ n.contains name = true := by
  have hsubset : m.names ⊆ n.names := fun x hx => mem_names.2 (hsub x hx)
  have hperm : m.names.Perm n.names :=
    (List.subperm_of_subset m.nodup_names hsubset).perm_of_length_le (by
      simp [length_names, hsize])
  rw [← mem_names, ← mem_names]
  exact hperm.mem_iff

theorem size_eq_of_contains_iff {β : Type} {m : NameMap α} {n : NameMap β}
    (h : ∀ name, m.contains name = true ↔ n.contains name = true) : m.size = n.size := by
  have hperm : m.names.Perm n.names :=
    (List.perm_ext_iff_of_nodup m.nodup_names n.nodup_names).2 fun name => by
      rw [mem_names, mem_names, h]
  rw [← length_names, ← length_names, hperm.length_eq]

/-- A map whose names are all among another's is no larger. -/
theorem size_le_of_contains {β : Type} {m : NameMap α} {n : NameMap β}
    (hsub : ∀ name ∈ m.names, n.contains name = true) : m.size ≤ n.size := by
  have hsubset : m.names ⊆ n.names := fun name hname => mem_names.2 (hsub name hname)
  have hle := (List.subperm_of_subset m.nodup_names hsubset).length_le
  rwa [length_names, length_names] at hle

theorem length_insertEntry_le (name : String) (value : α) (l : List (String × α)) :
    (insertEntry name value l).length ≤ l.length + 1 := by
  induction l with
  | nil => exact Nat.le_refl 1
  | cons e l ih =>
    obtain ⟨other, v⟩ := e
    unfold insertEntry
    split
    · simp
    split
    · simpa using ih
    · simp

theorem size_insert_le (m : NameMap α) (name : String) (value : α) :
    (m.insert name value).size ≤ m.size + 1 :=
  length_insertEntry_le name value m.entries

/-! ## Lookups -/

@[simp] theorem get?_empty (name : String) : (empty : NameMap α).get? name = none := rfl

@[simp] theorem contains_empty (name : String) : (empty : NameMap α).contains name = false := rfl

theorem get?_insert (m : NameMap α) (name other : String) (value : α) :
    (m.insert name value).get? other = if other = name then some value else m.get? other := by
  simp only [get?, insert, find?_insertEntry]
  split <;> rfl

theorem contains_insert (m : NameMap α) (name other : String) (value : α) :
    (m.insert name value).contains other = (decide (other = name) || m.contains other) := by
  by_cases e : other = name <;> simp [contains, get?_insert, e]

/-- A map is known by its lookups. -/
theorem ext_get? {m n : NameMap α} (h : ∀ name, m.get? name = n.get? name) : m = n := by
  have hmem : ∀ e, e ∈ m.entries ↔ e ∈ n.entries := fun e => by
    rw [← get?_eq_some_iff, ← get?_eq_some_iff, h]
  have hperm : m.entries.Perm n.entries :=
    (List.perm_ext_iff_of_nodup m.nodup_names.of_map n.nodup_names.of_map).2 hmem
  exact NameMap.ext (hperm.eq_of_pairwise
    (fun _ _ _ _ hab hba => absurd hba (String.lt_asymm hab)) m.sorted n.sorted)

/-! ## Maps from lists -/

theorem get?_foldl_insert (l : List (String × α)) (m : NameMap α) (name : String) :
    (l.foldl (fun m e => m.insert e.1 e.2) m).get? name =
      ((l.reverse.find? (·.1 == name)).map (·.2)).or (m.get? name) := by
  induction l generalizing m with
  | nil => simp
  | cons e l ih =>
    simp only [List.foldl_cons, ih, get?_insert, List.reverse_cons, List.find?_append,
      List.find?_singleton]
    cases l.reverse.find? (·.1 == name) with
    | some _ => rfl
    | none =>
      by_cases h : name = e.1
      · simp [h]
      · simp [h, Ne.symm h]

/-- Of two entries with the same name the later one counts. -/
theorem get?_ofList (l : List (String × α)) (name : String) :
    (ofList l).get? name = (l.reverse.find? (·.1 == name)).map (·.2) := by
  simp [ofList, get?_foldl_insert]

theorem mem_of_get?_ofList {l : List (String × α)} {name : String} {value : α}
    (h : (ofList l).get? name = some value) : (name, value) ∈ l := by
  rw [get?_ofList, Option.map_eq_some_iff] at h
  obtain ⟨e, he, rfl⟩ := h
  have hname : e.1 = name := by simpa using List.find?_some he
  exact hname ▸ List.mem_reverse.1 (List.mem_of_find?_eq_some he)

theorem size_ofList_le (l : List (String × α)) : (ofList l).size ≤ l.length := by
  have hsub : (ofList l).names ⊆ l.map (·.1) := by
    intro name hname
    obtain ⟨⟨_, v⟩, hmem, rfl⟩ := List.mem_map.1 hname
    exact List.mem_map.2 ⟨_, mem_of_get?_ofList (get?_eq_some_iff.2 hmem), rfl⟩
  have hle := (List.subperm_of_subset (ofList l).nodup_names hsub).length_le
  rwa [length_names, List.length_map] at hle

theorem ofList_entries (m : NameMap α) : ofList m.entries = m := by
  refine ext_get? fun name => ?_
  cases h : (ofList m.entries).get? name with
  | some v => exact (get?_eq_some_iff.2 (mem_of_get?_ofList h)).symm
  | none =>
    rw [get?_ofList, Option.map_eq_none_iff, List.find?_eq_none] at h
    cases hm : m.get? name with
    | none => rfl
    | some v => simpa using h _ (List.mem_reverse.2 (get?_eq_some_iff.1 hm))

end Playfield.NameMap
