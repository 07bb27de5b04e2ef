/-
  Playfield.NameMap — finite maps from names, kept in name order.

  Names are ordered character by character, which is also the order of their UTF-8 bytes. The
  entries of a map are a list whose names strictly increase, so a map has one representation and
  two maps are equal exactly when they hold the same entries.
-/

namespace Playfield

/-- Adds an entry to a list in name order; an entry of the same name is replaced. -/
def insertEntry {α : Type} (name : String) (value : α) : List (String × α) → List (String × α)
  | [] => [(name, value)]
  | (other, v) :: rest =>
    if name < other then (name, value) :: (other, v) :: rest
    else if other < name then (other, v) :: insertEntry name value rest
    else (name, value) :: rest

theorem mem_insertEntry {α : Type} {name : String} {value : α} {l : List (String × α)}
    {e : String × α} (h : e ∈ insertEntry name value l) : e = (name, value) ∨ e ∈ l := by
  induction l with
  | nil => simpa [insertEntry] using h
  | cons hd tl ih =>
    simp only [insertEntry] at h
    split at h
    · simpa using h
    · split at h
      · rcases List.mem_cons.1 h with h | h
        · exact .inr (by simp [h])
        · rcases ih h with h | h
          · exact .inl h
          · exact .inr (by simp [h])
      · rcases List.mem_cons.1 h with h | h
        · exact .inl h
        · exact .inr (by simp [h])

theorem pairwise_insertEntry {α : Type} (name : String) (value : α) {l : List (String × α)}
    (h : l.Pairwise fun a b => a.1 < b.1) :
    (insertEntry name value l).Pairwise fun a b => a.1 < b.1 := by
  induction l with
  | nil => simp [insertEntry]
  | cons hd tl ih =>
    obtain ⟨hhd, htl⟩ := List.pairwise_cons.1 h
    simp only [insertEntry]
    split
    · next hlt =>
      refine List.pairwise_cons.2 ⟨fun b hb => ?_, h⟩
      rcases List.mem_cons.1 hb with rfl | hb
      · exact hlt
      · exact String.lt_trans hlt (hhd b hb)
    · next hge =>
      split
      · next hlt =>
        refine List.pairwise_cons.2 ⟨fun b hb => ?_, ih htl⟩
        rcases mem_insertEntry hb with rfl | hb
        · exact hlt
        · exact hhd b hb
      · next hle =>
        have heq : name = hd.1 :=
          String.le_antisymm (String.not_lt.1 hle) (String.not_lt.1 hge)
        exact List.pairwise_cons.2 ⟨fun b hb => heq ▸ hhd b hb, htl⟩

/-- A map from names. -/
structure NameMap (α : Type) where
  entries : List (String × α)
  sorted : entries.Pairwise fun a b => a.1 < b.1

namespace NameMap

variable {α : Type}

@[ext] theorem ext {m n : NameMap α} (h : m.entries = n.entries) : m = n := by
  cases m; cases n; cases h; rfl

instance [DecidableEq α] : DecidableEq (NameMap α) := fun m n =>
  decidable_of_iff (m.entries = n.entries) ⟨ext, fun h => h ▸ rfl⟩

def empty : NameMap α :=
  { entries := [], sorted := .nil }

/-- The map with `name` standing for `value`, whatever it stood for before. -/
def insert (m : NameMap α) (name : String) (value : α) : NameMap α :=
  { entries := insertEntry name value m.entries, sorted := pairwise_insertEntry _ _ m.sorted }

def get? (m : NameMap α) (name : String) : Option α :=
  (m.entries.find? (·.1 == name)).map (·.2)

def contains (m : NameMap α) (name : String) : Bool :=
  (m.get? name).isSome

/-- The names, in order. -/
def names (m : NameMap α) : List String :=
  m.entries.map (·.1)

/-- The values, in the order of their names. -/
def values (m : NameMap α) : List α :=
  m.entries.map (·.2)

def size (m : NameMap α) : Nat :=
  m.entries.length

/-- The map of a list of entries; of two with the same name the later one counts. -/
def ofList (l : List (String × α)) : NameMap α :=
  l.foldl (fun m e => m.insert e.1 e.2) empty

end NameMap

/-- A set of names, in order. -/
abbrev NameSet := NameMap Unit

/-- The set with one more name. -/
def NameSet.add (s : NameSet) (name : String) : NameSet :=
  s.insert name ()

def NameSet.ofNames (names : List String) : NameSet :=
  NameMap.ofList (names.map (·, ()))

end Playfield
