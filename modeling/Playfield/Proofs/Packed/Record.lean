/-
  Playfield.Proofs.Packed.Record — records, choices, names and numbers are read as written.

  Whatever is written as a value is read back from it: names, numbers, records, choices, lists
  and maps. A record is read back with any room, since none of its entries is passed over.
  The other half is about sizes. What is written has bytes of its own when its names and counts
  are short (`Value.Within`), and what is read from measured values is short again.
-/

import Playfield.Packed.Record
import Playfield.Proofs.NameMap
import Playfield.Proofs.Packed.Value
import Playfield.Proofs.Result
import Playfield.Proofs.Text.Utf8

namespace Playfield

/-! ## Text -/

namespace Text

/-- The text's bytes can be counted in 32 bits. -/
def Short (s : String) : Prop :=
  (utf8 s).length < 2 ^ 32

instance (s : String) : Decidable (Short s) :=
  inferInstanceAs (Decidable ((utf8 s).length < 2 ^ 32))

end Text

namespace Packed

variable {α : Type} {f : Value → Option α} {g : α → Value}

/-! ## Names and numbers -/

theorem name?_ofName (s : String) : name? (ofName s) = some s :=
  Text.ofUtf8?_utf8 s

theorem slot?_ofName {names : List String} {name : String} {i : Nat} (hnodup : names.Nodup)
    (h : names[i]? = some name) : slot? names (ofName name) = some (some i) := by
  obtain ⟨hi, rfl⟩ := List.getElem?_eq_some_iff.1 h
  refine congrArg some (List.findIdx?_eq_some_iff_getElem.2 ⟨hi, by simp, fun j hj hutf8 => ?_⟩)
  have heq : names[j] = names[i] := Text.utf8_inj.1 (by simpa using hutf8)
  have hne := (List.Nodup.getElem_inj_iff hnodup).1 heq
  omega

theorem uint32?_ofUInt32 (n : UInt32) : uint32? (ofUInt32 n) = some n := by
  have hlt : n.toNat < 2 ^ 32 := n.toNat_lt
  have hw : whole? (ofUInt32 n) = some (n.toNat : Int) := by simp [whole?, ofUInt32]
  rw [uint32?, hw]
  simp only
  rw [if_pos ⟨by omega, by exact_mod_cast hlt⟩, Int.toNat_natCast, UInt32.ofNat_toNat]

theorem whole?_ofInt32 (i : Int32) : whole? (ofInt32 i) = some i.toInt := by
  have hlo := i.le_toInt
  have hhi := i.toInt_lt
  unfold ofInt32
  split
  · rw [whole?, UInt64.toNat_ofNat_of_lt' (by rw [UInt64.size]; omega), Int.toNat_of_nonneg ‹_›]
  · rw [whole?, Int32.toInt_toInt64]

theorem int32?_ofInt32 (i : Int32) : int32? (ofInt32 i) = some i := by
  rw [int32?, whole?_ofInt32]
  simp only
  rw [if_pos ⟨i.le_toInt, i.toInt_lt⟩, Int32.ofInt_toInt]

theorem float?_float64 (x : Binary64) : float? (.float64 x) = some x := rfl

/-! ## Records -/

/-- The entries of a record when each key is known for the number of its field. -/
def numbered (first : Nat) (values : List Value) : List (Option Nat × Value) :=
  (values.zipIdx first).map fun (v, i) => (some i, v)

theorem numbered_cons (first : Nat) (v : Value) (values : List Value) :
    numbered first (v :: values) = (some first, v) :: numbered (first + 1) values := rfl

theorem filter_numbered {values : List Value} {i : Nat} (h : i < values.length) (first : Nat) :
    (numbered first values).filter (·.1 == some (first + i)) =
      [(some (first + i), values[i])] := by
  induction values generalizing i first with
  | nil => cases h
  | cons v values ih =>
    rw [numbered_cons]
    cases i with
    | zero =>
      have hrest : ∀ e ∈ numbered (first + 1) values, ¬(e.1 == some (first + 0)) = true := by
        intro e he
        obtain ⟨⟨v', j⟩, hmem, rfl⟩ := List.mem_map.1 he
        have hj : first + 1 ≤ j := (List.mem_zipIdx hmem).1
        simp only [beq_iff_eq, Option.some.injEq]
        omega
      have heq : (some first == some (first + 0)) = true := beq_self_eq_true _
      rw [List.filter_cons, if_pos heq, List.filter_eq_nil_iff.2 hrest]
      rfl
    | succ i =>
      have hne : ¬(some first == some (first + (i + 1))) = true := by
        simp only [beq_iff_eq, Option.some.injEq]
        omega
      have hi := ih (Nat.lt_of_succ_lt_succ h) (first + 1)
      rw [Nat.add_assoc, Nat.add_comm 1] at hi
      rw [List.filter_cons, if_neg hne, hi, List.getElem_cons_succ]

theorem only?_numbered {values : List Value} {i : Nat} (h : i < values.length) :
    only? (numbered 0 values) i = some values[i] := by
  have hf := filter_numbered h 0
  rw [Nat.zero_add] at hf
  rw [only?, hf]

theorem slots_ofRecord {names : List String} {values : List Value} (hnodup : names.Nodup)
    (hlen : names.length = values.length) :
    ((names.map ofName).zip values).mapM (fun (key, v) => (slot? names key).map (·, v)) =
      some (numbered 0 values) := by
  refine mapM_eq_some_iff.2 (List.forall₂_iff_get.2 ⟨by simp [numbered, hlen], fun i h h' => ?_⟩)
  have hi : i < names.length := by simpa [numbered, hlen] using h'
  simp [numbered, slot?_ofName hnodup (List.getElem?_eq_getElem hi)]

/-- A record is read back from the map it is written as. -/
theorem record?_ofRecord {names : List String} {values : List Value} (hnodup : names.Nodup)
    (hlen : names.length = values.length) (room : Nat) :
    record? room names (ofRecord names values) = some values := by
  have hfits : (numbered 0 values).all (fits room) = true := by
    rw [List.all_eq_true]
    intro e he
    obtain ⟨_, -, rfl⟩ := List.mem_map.1 he
    rfl
  simp only [record?, ofRecord, slots_ofRecord hnodup hlen, hfits, if_true]
  refine mapM_eq_some_iff.2 (List.forall₂_iff_get.2 ⟨by simp [hlen], fun i h h' => ?_⟩)
  simp [only?_numbered h']

/-! ## Choices -/

variable {tags : List String} {tag : String} {i : Nat}

theorem choice?_ofName (hnodup : tags.Nodup) (h : tags[i]? = some tag) :
    choice? tags (ofName tag) = some (i, none) := by
  have hslot := slot?_ofName hnodup h
  unfold ofName at hslot ⊢
  rw [choice?, hslot]
  · rfl
  · intros; contradiction
  · intros; contradiction

theorem choice?_ofChoice (hnodup : tags.Nodup) (h : tags[i]? = some tag) (payload : Value) :
    choice? tags (ofChoice tag payload) = some (i, some payload) := by
  rw [ofChoice, choice?, slot?_ofName hnodup h]
  rfl

/-! ## Collections -/

theorem list?_array (h : ∀ x, f (g x) = some x) (l : List α) :
    list? f (.array (l.map g)) = some l :=
  mapM_eq_some_iff.2 (List.forall₂_map_left_iff.2 (List.forall₂_same.2 fun x _ => h x))

theorem nameMap?_ofNameMap (h : ∀ x, f (g x) = some x) (m : NameMap α) :
    nameMap? f (ofNameMap g m) = some m := by
  rw [ofNameMap, nameMap?, Option.map_eq_some_iff]
  refine ⟨m.entries, mapM_eq_some_iff.2 (List.forall₂_map_left_iff.2 ?_), NameMap.ofList_entries m⟩
  refine List.forall₂_same.2 fun e _ => ?_
  simp only [name?_ofName, h]

/-! ## Sizes of what is written -/

/-- The value has bytes of its own and nests at most so deep. -/
def Value.Within (depth : Nat) (v : Value) : Prop :=
  v.Writable ∧ v.nesting ≤ depth

theorem read_of_within {depth : Nat} {v : Value} (h : v.Within depth) (rest : List UInt8) :
    Value.read depth (v.write ++ rest) = some (v, rest) :=
  read_write v depth rest h.1 h.2

theorem Value.Within.mono {depth depth' : Nat} {v : Value} (h : v.Within depth)
    (hle : depth ≤ depth') : v.Within depth' :=
  ⟨h.1, Nat.le_trans h.2 hle⟩

theorem within_ofName {s : String} (h : Text.Short s) (depth : Nat) : (ofName s).Within depth :=
  ⟨⟨h, trivial⟩, Nat.zero_le _⟩

theorem within_ofUInt32 (n : UInt32) (depth : Nat) : (ofUInt32 n).Within depth :=
  ⟨⟨trivial, trivial⟩, Nat.zero_le _⟩

theorem within_ofInt32 (i : Int32) (depth : Nat) : (ofInt32 i).Within depth := by
  unfold ofInt32
  split
  · exact ⟨⟨trivial, trivial⟩, Nat.zero_le _⟩
  · have hneg : i.toInt64.toInt < 0 := by
      rw [Int32.toInt_toInt64]
      omega
    exact ⟨⟨trivial, hneg⟩, Nat.zero_le _⟩

theorem within_float64 (x : Binary64) (depth : Nat) : (Value.float64 x).Within depth :=
  ⟨⟨trivial, trivial⟩, Nat.zero_le _⟩

theorem within_array {items : List Value} {depth : Nat} (hlen : items.length < 2 ^ 32)
    (h : ∀ v ∈ items, v.Within depth) : (Value.array items).Within (depth + 1) := by
  refine ⟨?_, Nat.succ_le_succ (itemsNesting_le_iff.2 fun v hv => (h v hv).2)⟩
  rw [Value.Writable, Value.Everywhere]
  exact ⟨⟨hlen, trivial⟩, itemsEverywhere_iff.2 fun v hv => (h v hv).1⟩

theorem within_map {entries : List (Value × Value)} {depth : Nat} (hlen : entries.length < 2 ^ 32)
    (h : ∀ e ∈ entries, e.1.Within depth ∧ e.2.Within depth) :
    (Value.map entries).Within (depth + 1) := by
  refine ⟨?_, Nat.succ_le_succ (entriesNesting_le_iff.2 fun e he => ⟨(h e he).1.2, (h e he).2.2⟩)⟩
  rw [Value.Writable, Value.Everywhere]
  exact ⟨⟨hlen, trivial⟩, entriesEverywhere_iff.2 fun e he => ⟨(h e he).1.1, (h e he).2.1⟩⟩

theorem within_ofRecord {names : List String} {values : List Value} {depth : Nat}
    (hlen : names.length < 2 ^ 32) (hnames : ∀ name ∈ names, Text.Short name)
    (h : ∀ v ∈ values, v.Within depth) : (ofRecord names values).Within (depth + 1) := by
  refine within_map ?_ fun e he => ?_
  · rw [List.length_zip, List.length_map]
    omega
  · obtain ⟨key, v⟩ := e
    obtain ⟨hkey, hv⟩ := List.of_mem_zip he
    obtain ⟨name, hname, rfl⟩ := List.mem_map.1 hkey
    exact ⟨within_ofName (hnames name hname) depth, h v hv⟩

theorem within_ofChoice {tag : String} {payload : Value} {depth : Nat} (htag : Text.Short tag)
    (h : payload.Within depth) : (ofChoice tag payload).Within (depth + 1) :=
  within_map (show 1 < 2 ^ 32 by decide) fun e he => by
    cases List.mem_singleton.1 he
    exact ⟨within_ofName htag depth, h⟩

theorem within_ofNameMap {m : NameMap α} {depth : Nat} (hsize : m.size < 2 ^ 32)
    (h : ∀ name x, m.get? name = some x → Text.Short name ∧ (g x).Within depth) :
    (ofNameMap g m).Within (depth + 1) := by
  refine within_map ?_ fun e he => ?_
  · rwa [List.length_map]
  · obtain ⟨⟨name, x⟩, hmem, rfl⟩ := List.mem_map.1 he
    obtain ⟨hname, hx⟩ := h name x (NameMap.get?_eq_some_iff.2 hmem)
    exact ⟨within_ofName hname depth, hx⟩

/-! ## Sizes of what is read -/

theorem short_of_name? {v : Value} {s : String} (hv : v.Everywhere Value.Measured)
    (h : name? v = some s) : Text.Short s := by
  cases v with
  | str bytes => rwa [Text.Short, Text.utf8_of_ofUtf8? h]
  | bin bytes => rwa [Text.Short, Text.utf8_of_ofUtf8? h]
  | _ => cases h

theorem measured_ofByte (b : UInt8) : (ofByte b).Everywhere Value.Measured :=
  trivial

theorem measured_of_only? {entries : List (Option Nat × Value)} {field : Nat} {v : Value}
    (hentries : ∀ e ∈ entries, e.2.Everywhere Value.Measured) (h : only? entries field = some v) :
    v.Everywhere Value.Measured := by
  unfold only? at h
  split at h
  · rename_i slot w hfilter
    cases h
    have hmem : (slot, v) ∈ entries :=
      List.mem_of_mem_filter (hfilter ▸ List.mem_singleton_self (slot, v))
    exact hentries _ hmem
  · cases h

theorem measured_of_record? {room : Nat} {names : List String} {v : Value} {values : List Value}
    (hv : v.Everywhere Value.Measured) (h : record? room names v = some values) :
    ∀ w ∈ values, w.Everywhere Value.Measured := by
  cases v with
  | array items =>
    unfold Value.Everywhere at hv
    simp only [record?] at h
    split at h
    · cases h
      exact itemsEverywhere_iff.1 hv.2
    · cases h
  | bin bytes =>
    simp only [record?] at h
    split at h
    · cases h
      intro w hw
      obtain ⟨b, -, rfl⟩ := List.mem_map.1 hw
      exact measured_ofByte b
    · cases h
  | map entries =>
    unfold Value.Everywhere at hv
    simp only [record?] at h
    split at h
    · rename_i slotted hslotted
      have hall : ∀ e ∈ slotted, e.2.Everywhere Value.Measured := by
        intro e he
        obtain ⟨e', he', hslot⟩ := exists_of_mem_mapM hslotted he
        obtain ⟨_, -, rfl⟩ := Option.map_eq_some_iff.1 hslot
        exact (entriesEverywhere_iff.1 hv.2 e' he').2
      split at h
      · intro w hw
        obtain ⟨_, -, hw⟩ := exists_of_mem_mapM h hw
        exact measured_of_only? hall hw
      · cases h
    · cases h
  | _ => cases h

theorem measured_of_list? {v : Value} {l : List α} (hv : v.Everywhere Value.Measured)
    (h : list? f v = some l) :
    l.length < 2 ^ 32 ∧ ∀ x ∈ l, ∃ w, w.Everywhere Value.Measured ∧ f w = some x := by
  cases v with
  | array items =>
    unfold Value.Everywhere at hv
    unfold list? at h
    refine ⟨length_of_mapM h ▸ hv.1, fun x hx => ?_⟩
    obtain ⟨w, hw, hx⟩ := exists_of_mem_mapM h hx
    exact ⟨w, itemsEverywhere_iff.1 hv.2 w hw, hx⟩
  | bin bytes =>
    unfold list? at h
    refine ⟨?_, fun x hx => ?_⟩
    · rw [length_of_mapM h, List.length_map]
      exact hv
    · obtain ⟨w, hw, hx⟩ := exists_of_mem_mapM h hx
      obtain ⟨b, -, rfl⟩ := List.mem_map.1 hw
      exact ⟨_, measured_ofByte b, hx⟩
  | _ => cases h

theorem measured_of_nameMap? {v : Value} {m : NameMap α} (hv : v.Everywhere Value.Measured)
    (h : nameMap? f v = some m) :
    m.size < 2 ^ 32 ∧ ∀ name x, m.get? name = some x →
      Text.Short name ∧ ∃ w, w.Everywhere Value.Measured ∧ f w = some x := by
  cases v with
  | map entries =>
    unfold Value.Everywhere at hv
    rw [nameMap?, Option.map_eq_some_iff] at h
    obtain ⟨l, hl, rfl⟩ := h
    refine ⟨?_, fun name x hx => ?_⟩
    · exact Nat.lt_of_le_of_lt (NameMap.size_ofList_le l) (length_of_mapM hl ▸ hv.1)
    · obtain ⟨⟨key, w⟩, hmem, he⟩ := exists_of_mem_mapM hl (NameMap.mem_of_get?_ofList hx)
      obtain ⟨hkey, hw⟩ := entriesEverywhere_iff.1 hv.2 _ hmem
      simp only at he
      split at he
      · rename_i hname hx'
        cases he
        exact ⟨short_of_name? hkey hname, w, hw, hx'⟩
      · cases he
  | _ => cases h

end Packed

end Playfield
