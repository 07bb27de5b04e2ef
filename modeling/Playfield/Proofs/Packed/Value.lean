/-
  Playfield.Proofs.Packed.Value — what is written is read back.

  `Writable` says which values have bytes of their own: counts fit into 32 bits, a number with
  a sign is negative (others are written without one), and an extension has a tag. Every such
  value is read back from its bytes, whatever follows them (`read_write`): words first, then
  the heads of each length class, then arrays and maps by induction on the value.
-/

import Mathlib.Tactic.Ring
import Playfield.Packed.Value

namespace Playfield.Packed

/-! ## Words -/

theorem length_bigEndian (width n : Nat) : (bigEndian width n).length = width := by
  induction width with
  | zero => rfl
  | succ width ih => rw [bigEndian, List.length_cons, ih]

theorem foldl_bigEndian (width n acc : Nat) :
    (bigEndian width n).foldl (fun n b => 256 * n + b.toNat) acc =
      acc * 256 ^ width + n % 256 ^ width := by
  induction width generalizing acc with
  | zero => simp [bigEndian, Nat.mod_one]
  | succ width ih =>
    have hdigit : (UInt8.ofNat (n >>> (8 * width))).toNat = n / 256 ^ width % 256 := by
      rw [Nat.shiftRight_eq_div_pow, Nat.pow_mul]
      rfl
    rw [bigEndian, List.foldl_cons, ih, hdigit, Nat.pow_succ, Nat.mod_mul]
    ring

theorem ofBigEndian_bigEndian (width n : Nat) :
    ofBigEndian (bigEndian width n) = n % 256 ^ width := by
  rw [ofBigEndian, foldl_bigEndian, Nat.zero_mul, Nat.zero_add]

theorem takeBytes_append (bytes rest : List UInt8) :
    takeBytes bytes.length (bytes ++ rest) = some (bytes, rest) := by
  induction bytes with
  | nil => rfl
  | cons b bytes ih => simp [takeBytes, ih]

theorem takeWord_bigEndian {width n : Nat} (h : n < 256 ^ width) (rest : List UInt8) :
    takeWord width (bigEndian width n ++ rest) = some (n, rest) := by
  have ht := takeBytes_append (bigEndian width n) rest
  rw [length_bigEndian] at ht
  rw [takeWord, ht]
  show some (ofBigEndian (bigEndian width n), rest) = _
  rw [ofBigEndian_bigEndian, Nat.mod_eq_of_lt h]

/-! ## Heads -/

theorem readWhole_bigEndian (f : Nat → Value) {width n : Nat} (h : n < 256 ^ width)
    (rest : List UInt8) :
    readWhole f width (bigEndian width n ++ rest) = some (.whole (f n), rest) := by
  rw [readWhole, takeWord_bigEndian h, Option.map_some]

theorem readSized_bigEndian (f : Nat → List UInt8 → Option (Head × List UInt8)) {width n : Nat}
    (h : n < 256 ^ width) (rest : List UInt8) :
    readSized f width (bigEndian width n ++ rest) = f n rest := by
  rw [readSized, takeWord_bigEndian h]

/-- Heads below 0xc0 and from 0xe0 on carry their number in the first byte. -/
theorem readHead_small {n : Nat} (h : n < 0xc0) (rest : List UInt8) :
    readHead (UInt8.ofNat n :: rest) =
      if n < 0x80 then some (.whole (.uint (UInt64.ofNat n)), rest)
      else if n < 0x90 then some (.map (n - 0x80), rest)
      else if n < 0xa0 then some (.array (n - 0x90), rest)
      else readStr (n - 0xa0) rest := by
  have hn : (UInt8.ofNat n).toNat = n := UInt8.toNat_ofNat_of_lt' (by rw [UInt8.size]; omega)
  rw [readHead, hn]
  simp only [if_pos h]

/-- Heads from 0xe0 on are small negative numbers. -/
theorem readHead_large {n : Nat} (hlo : 0xe0 ≤ n) (hhi : n < 0x100) (rest : List UInt8) :
    readHead (UInt8.ofNat n :: rest) =
      some (.whole (.int (Int64.ofInt ((n : Int) - 0x100))), rest) := by
  have hn : (UInt8.ofNat n).toNat = n := UInt8.toNat_ofNat_of_lt' (by rw [UInt8.size]; omega)
  rw [readHead, hn]
  simp only [if_neg (show ¬n < 0x80 by omega), if_neg (show ¬n < 0x90 by omega),
    if_neg (show ¬n < 0xa0 by omega), if_neg (show ¬n < 0xc0 by omega), if_pos hlo]

/-- What is read in two bytes and in four alike is read so behind a wide head. -/
theorem readHead_wideHead {tag : UInt8} {g : Nat → List UInt8 → Option (Head × List UInt8)}
    {r : Option (Head × List UInt8)} {n : Nat} {rest : List UInt8}
    (h2 : ∀ bytes, readHead (tag :: bytes) = g 2 bytes)
    (h4 : ∀ bytes, readHead ((tag + 1) :: bytes) = g 4 bytes)
    (hg : ∀ width, n < 256 ^ width → g width (bigEndian width n ++ rest) = r)
    (hn : n < 2 ^ 32) : readHead (wideHead tag n ++ rest) = r := by
  unfold wideHead
  split
  · rw [List.cons_append, h2, hg 2 (by omega)]
  · rw [List.cons_append, h4, hg 4 (by omega)]

theorem readHead_sizedHead {tag : UInt8} {g : Nat → List UInt8 → Option (Head × List UInt8)}
    {r : Option (Head × List UInt8)} {n : Nat} {rest : List UInt8}
    (h1 : ∀ bytes, readHead (tag :: bytes) = g 1 bytes)
    (h2 : ∀ bytes, readHead ((tag + 1) :: bytes) = g 2 bytes)
    (h4 : ∀ bytes, readHead ((tag + 1 + 1) :: bytes) = g 4 bytes)
    (hg : ∀ width, n < 256 ^ width → g width (bigEndian width n ++ rest) = r)
    (hn : n < 2 ^ 32) : readHead (sizedHead tag n ++ rest) = r := by
  unfold sizedHead
  split
  · rw [List.cons_append, h1, hg 1 (by omega)]
  · exact readHead_wideHead h2 h4 hg hn

theorem readHead_writeUInt (n : UInt64) (rest : List UInt8) :
    readHead (writeUInt n ++ rest) = some (.whole (.uint n), rest) := by
  have hn : UInt64.ofNat n.toNat = n := UInt64.ofNat_toNat
  have hlt : n.toNat < 2 ^ 64 := n.toNat_lt
  have h8 : ∀ bytes, readHead (0xcf :: bytes) = readUInt 8 bytes := fun _ => rfl
  have hword : ∀ width, n.toNat < 256 ^ width →
      readUInt width (bigEndian width n.toNat ++ rest) = some (.whole (.uint n), rest) := by
    intro width hwidth
    rw [readUInt, readWhole_bigEndian _ hwidth, hn]
  simp only [writeUInt]
  split
  · rw [List.singleton_append, readHead_small (by omega), if_pos ‹_›, hn]
  split
  · exact readHead_sizedHead (fun _ => rfl) (fun _ => rfl) (fun _ => rfl) hword (by omega)
  · rw [List.cons_append, h8, hword 8 (by omega)]

/-- The bytes of a negative number, read with a sign, are the number. -/
theorem readInt_signedBytes {i : Int64} {width : Nat} (hwidth : 0 < width) (hneg : i.toInt < 0)
    (hlo : -(1 <<< (8 * width - 1) : Nat) ≤ i.toInt) (rest : List UInt8) :
    readInt width (signedBytes width i.toInt ++ rest) = some (.whole (.int i), rest) := by
  have hhalf : 1 <<< (8 * width) = 2 * 1 <<< (8 * width - 1) := by
    rw [Nat.one_shiftLeft, Nat.one_shiftLeft, ← Nat.pow_succ', Nat.succ_eq_add_one,
      Nat.sub_add_cancel (by omega)]
  have hsize : 256 ^ width = 1 <<< (8 * width) := by rw [Nat.one_shiftLeft, Nat.pow_mul]
  have hsigned : signed width (i.toInt + (1 <<< (8 * width) : Nat)).toNat = i.toInt := by
    rw [signed, if_neg (by omega), Int.toNat_of_nonneg (by omega)]
    omega
  rw [readInt, signedBytes, readWhole_bigEndian _ (by omega), hsigned, Int64.ofInt_toInt]

theorem readHead_writeInt {i : Int64} (hneg : i.toInt < 0) (rest : List UInt8) :
    readHead (writeInt i ++ rest) = some (.whole (.int i), rest) := by
  have hlo : -2 ^ 63 ≤ i.toInt := i.le_toInt
  have h1 : ∀ bytes, readHead (0xd0 :: bytes) = readInt 1 bytes := fun _ => rfl
  have h2 : ∀ bytes, readHead (0xd1 :: bytes) = readInt 2 bytes := fun _ => rfl
  have h4 : ∀ bytes, readHead (0xd2 :: bytes) = readInt 4 bytes := fun _ => rfl
  have h8 : ∀ bytes, readHead (0xd3 :: bytes) = readInt 8 bytes := fun _ => rfl
  simp only [writeInt, if_neg (Int.not_le.2 hneg)]
  split
  · have hone : ∀ n, bigEndian 1 n = [UInt8.ofNat n] := fun n => by simp [bigEndian]
    have hback : (((i.toInt + (1 <<< (8 * 1) : Nat)).toNat : Nat) : Int) - 0x100 = i.toInt := by
      omega
    rw [signedBytes, hone, List.singleton_append, readHead_large (by omega) (by omega), hback,
      Int64.ofInt_toInt]
  split
  · rw [List.cons_append, h1, readInt_signedBytes (show 0 < 1 by decide) hneg (by omega)]
  split
  · rw [List.cons_append, h2, readInt_signedBytes (show 0 < 2 by decide) hneg (by omega)]
  split
  · rw [List.cons_append, h4, readInt_signedBytes (show 0 < 4 by decide) hneg (by omega)]
  · rw [List.cons_append, h8, readInt_signedBytes (show 0 < 8 by decide) hneg (by omega)]

theorem readHead_strHead {length : Nat} (h : length < 2 ^ 32) (rest : List UInt8) :
    readHead (strHead length ++ rest) = readStr length rest := by
  unfold strHead
  split
  · rw [List.singleton_append, readHead_small (by omega), if_neg (by omega), if_neg (by omega),
      if_neg (by omega), Nat.add_sub_cancel_left]
  · exact readHead_sizedHead (g := readSized readStr) (fun _ => rfl) (fun _ => rfl) (fun _ => rfl)
      (fun _ hwidth => readSized_bigEndian _ hwidth rest) h

theorem readHead_binHead {length : Nat} (h : length < 2 ^ 32) (rest : List UInt8) :
    readHead (binHead length ++ rest) = readBin length rest :=
  readHead_sizedHead (g := readSized readBin) (fun _ => rfl) (fun _ => rfl) (fun _ => rfl)
    (fun _ hwidth => readSized_bigEndian _ hwidth rest) h

theorem readHead_extHead {length : Nat} (h : length < 2 ^ 32) (rest : List UInt8) :
    readHead (extHead length ++ rest) = readExt length rest :=
  readHead_sizedHead (g := readSized readExt) (fun _ => rfl) (fun _ => rfl) (fun _ => rfl)
    (fun _ hwidth => readSized_bigEndian _ hwidth rest) h

theorem readHead_arrayHead {length : Nat} (h : length < 2 ^ 32) (rest : List UInt8) :
    readHead (arrayHead length ++ rest) = some (.array length, rest) := by
  unfold arrayHead
  split
  · rw [List.singleton_append, readHead_small (by omega), if_neg (by omega), if_neg (by omega),
      if_pos (by omega), Nat.add_sub_cancel_left]
  · exact readHead_wideHead (g := readSized fun n rest => some (.array n, rest)) (fun _ => rfl)
      (fun _ => rfl) (fun _ hwidth => readSized_bigEndian _ hwidth rest) h

theorem readHead_mapHead {length : Nat} (h : length < 2 ^ 32) (rest : List UInt8) :
    readHead (mapHead length ++ rest) = some (.map length, rest) := by
  unfold mapHead
  split
  · rw [List.singleton_append, readHead_small (by omega), if_neg (by omega), if_pos (by omega),
      Nat.add_sub_cancel_left]
  · exact readHead_wideHead (g := readSized fun n rest => some (.map n, rest)) (fun _ => rfl)
      (fun _ => rfl) (fun _ hwidth => readSized_bigEndian _ hwidth rest) h

/-! ## Values -/

/-- What a value counts itself fits into 32 bits. -/
def Value.Measured : Value → Prop
  | .str bytes => bytes.length < 2 ^ 32
  | .bin bytes => bytes.length < 2 ^ 32
  | .array items => items.length < 2 ^ 32
  | .map entries => entries.length < 2 ^ 32
  | .ext bytes => 0 < bytes.length ∧ bytes.length ≤ 2 ^ 32
  | _ => True

/-- A number has a sign only when it needs one. -/
def Value.Signed : Value → Prop
  | .int i => i.toInt < 0
  | _ => True

mutual

/-- Something is so of a value and of all values in it. -/
def Value.Everywhere (p : Value → Prop) : Value → Prop
  | .array items => p (.array items) ∧ ItemsEverywhere p items
  | .map entries => p (.map entries) ∧ EntriesEverywhere p entries
  | v => p v

def ItemsEverywhere (p : Value → Prop) : List Value → Prop
  | [] => True
  | v :: items => v.Everywhere p ∧ ItemsEverywhere p items

def EntriesEverywhere (p : Value → Prop) : List (Value × Value) → Prop
  | [] => True
  | (key, v) :: entries => key.Everywhere p ∧ v.Everywhere p ∧ EntriesEverywhere p entries

end

theorem itemsEverywhere_iff {p : Value → Prop} {items : List Value} :
    ItemsEverywhere p items ↔ ∀ v ∈ items, v.Everywhere p := by
  induction items with
  | nil => simp [ItemsEverywhere]
  | cons v items ih => simp [ItemsEverywhere, ih]

theorem entriesEverywhere_iff {p : Value → Prop} {entries : List (Value × Value)} :
    EntriesEverywhere p entries ↔ ∀ e ∈ entries, e.1.Everywhere p ∧ e.2.Everywhere p := by
  induction entries with
  | nil => simp [EntriesEverywhere]
  | cons e entries ih => simp [EntriesEverywhere, ih, and_assoc]

theorem itemsNesting_le_iff {items : List Value} {depth : Nat} :
    itemsNesting items ≤ depth ↔ ∀ v ∈ items, v.nesting ≤ depth := by
  induction items with
  | nil => simp [itemsNesting]
  | cons v items ih => simp [itemsNesting, ih]

theorem entriesNesting_le_iff {entries : List (Value × Value)} {depth : Nat} :
    entriesNesting entries ≤ depth ↔ ∀ e ∈ entries, e.1.nesting ≤ depth ∧ e.2.nesting ≤ depth := by
  induction entries with
  | nil => simp [entriesNesting]
  | cons e entries ih => simp [entriesNesting, ih, and_assoc]

/-- The value has bytes of its own. -/
def Value.Writable (v : Value) : Prop :=
  v.Everywhere fun part => part.Measured ∧ part.Signed

/-- A value that its head says whole is read at any depth. -/
theorem read_of_whole {v : Value} {bytes rest : List UInt8}
    (h : readHead bytes = some (.whole v, rest)) (depth : Nat) :
    Value.read depth bytes = some (v, rest) := by
  cases depth <;> rw [Value.read, h]

mutual

/-- A value that is written is read back, whatever follows it. -/
theorem read_write : ∀ (v : Value) (depth : Nat) (rest : List UInt8), v.Writable →
    v.nesting ≤ depth → Value.read depth (v.write ++ rest) = some (v, rest)
  | .nil, depth, rest, _, _ => read_of_whole rfl depth
  | .bool true, depth, rest, _, _ => read_of_whole rfl depth
  | .bool false, depth, rest, _, _ => read_of_whole rfl depth
  | .uint n, depth, rest, _, _ => read_of_whole (readHead_writeUInt n rest) depth
  | .int i, depth, rest, h, _ => read_of_whole (readHead_writeInt h.2 rest) depth
  | .float32 bits, depth, rest, _, _ => by
    have hlt : bits.toNat < 2 ^ 32 := bits.toNat_lt
    have head : ∀ bytes, readHead (0xca :: bytes) =
        readWhole (fun n => .float32 (UInt32.ofNat n)) 4 bytes := fun _ => rfl
    refine read_of_whole ?_ depth
    rw [Value.write, List.cons_append, head, readWhole_bigEndian _ (by omega), UInt32.ofNat_toNat]
  | .float64 x, depth, rest, _, _ => by
    have hlt : x.bits.toNat < 2 ^ 64 := x.bits.toNat_lt
    have head : ∀ bytes, readHead (0xcb :: bytes) =
        readWhole (fun n => .float64 ⟨UInt64.ofNat n⟩) 8 bytes := fun _ => rfl
    refine read_of_whole ?_ depth
    rw [Value.write, List.cons_append, head, readWhole_bigEndian _ (by omega), UInt64.ofNat_toNat]
  | .str bytes, depth, rest, h, _ => by
    refine read_of_whole ?_ depth
    rw [Value.write, List.append_assoc, readHead_strHead h.1, readStr, readBytes,
      takeBytes_append]
    rfl
  | .bin bytes, depth, rest, h, _ => by
    refine read_of_whole ?_ depth
    rw [Value.write, List.append_assoc, readHead_binHead h.1, readBin, readBytes,
      takeBytes_append]
    rfl
  | .ext bytes, depth, rest, h, hd => by
    obtain ⟨hpos, hlen⟩ : 0 < bytes.length ∧ bytes.length ≤ 2 ^ 32 := h.1
    unfold Value.nesting at hd
    obtain ⟨depth, rfl⟩ : ∃ d, depth = d + 1 := ⟨depth - 1, by omega⟩
    rw [Value.read, Value.write, List.append_assoc, readHead_extHead (by omega), readExt,
      readBytes, Nat.sub_add_cancel hpos, takeBytes_append]
    rfl
  | .array items, depth, rest, h, hd => by
    unfold Value.nesting at hd
    obtain ⟨depth, rfl⟩ : ∃ d, depth = d + 1 := ⟨depth - 1, by omega⟩
    rw [Value.Writable, Value.Everywhere] at h
    rw [Value.read, Value.write, List.append_assoc, readHead_arrayHead h.1.1]
    simp only
    rw [readMany_writeItems items depth rest h.2 (by omega)]
    rfl
  | .map entries, depth, rest, h, hd => by
    unfold Value.nesting at hd
    obtain ⟨depth, rfl⟩ : ∃ d, depth = d + 1 := ⟨depth - 1, by omega⟩
    rw [Value.Writable, Value.Everywhere] at h
    rw [Value.read, Value.write, List.append_assoc, readHead_mapHead h.1.1]
    simp only
    rw [readMany_writeEntries entries depth rest h.2 (by omega)]
    rfl

theorem readMany_writeItems : ∀ (items : List Value) (depth : Nat) (rest : List UInt8),
    ItemsEverywhere (fun part => part.Measured ∧ part.Signed) items →
      itemsNesting items ≤ depth →
        readMany (Value.read depth) items.length (writeItems items ++ rest) = some (items, rest)
  | [], _, _, _, _ => rfl
  | v :: items, depth, rest, h, hd => by
    unfold itemsNesting at hd
    unfold ItemsEverywhere at h
    rw [List.length_cons, readMany, writeItems, List.append_assoc,
      read_write v depth _ h.1 (by omega)]
    simp only
    rw [readMany_writeItems items depth rest h.2 (by omega)]
    rfl

theorem readMany_writeEntries : ∀ (entries : List (Value × Value)) (depth : Nat)
    (rest : List UInt8), EntriesEverywhere (fun part => part.Measured ∧ part.Signed) entries →
      entriesNesting entries ≤ depth →
        readMany (readPair (Value.read depth)) entries.length (writeEntries entries ++ rest) =
          some (entries, rest)
  | [], _, _, _, _ => rfl
  | (key, v) :: entries, depth, rest, h, hd => by
    unfold entriesNesting at hd
    unfold EntriesEverywhere at h
    rw [List.length_cons, readMany, readPair, writeEntries, List.append_assoc, List.append_assoc,
      read_write key depth _ h.1 (by omega)]
    simp only
    rw [read_write v depth _ h.2.1 (by omega)]
    simp only [Option.map_some]
    rw [readMany_writeEntries entries depth rest h.2.2 (by omega)]
    rfl

end

/-! ## Counts that are read -/

theorem length_of_takeBytes {n : Nat} {bytes taken rest : List UInt8}
    (h : takeBytes n bytes = some (taken, rest)) : taken.length = n := by
  induction n generalizing bytes taken with
  | zero => cases h; rfl
  | succ n ih =>
    cases bytes with
    | nil => cases h
    | cons b bytes =>
      obtain ⟨⟨taken', rest'⟩, ht, he⟩ := Option.map_eq_some_iff.1 h
      cases he
      rw [List.length_cons, ih ht]

theorem foldl_bigEndian_lt (bytes : List UInt8) (acc : Nat) :
    bytes.foldl (fun n b => 256 * n + b.toNat) acc < (acc + 1) * 256 ^ bytes.length := by
  induction bytes generalizing acc with
  | nil => simp
  | cons b bytes ih =>
    have hb : b.toNat < 256 := b.toNat_lt
    calc
      _ < (256 * acc + b.toNat + 1) * 256 ^ bytes.length := ih _
      _ ≤ (256 * (acc + 1)) * 256 ^ bytes.length := Nat.mul_le_mul_right _ (by omega)
      _ = (acc + 1) * 256 ^ (b :: bytes).length := by rw [List.length_cons]; ring

theorem takeWord_lt {width n : Nat} {bytes rest : List UInt8}
    (h : takeWord width bytes = some (n, rest)) : n < 256 ^ width := by
  obtain ⟨⟨taken, rest'⟩, ht, he⟩ := Option.map_eq_some_iff.1 h
  cases he
  have hlt := foldl_bigEndian_lt taken 0
  rw [length_of_takeBytes ht, Nat.zero_add, Nat.one_mul] at hlt
  exact hlt

/-- The counts that a head says fit into 32 bits. -/
def Head.Measured : Head → Prop
  | .whole v => v.Everywhere Value.Measured
  | .ext bytes => 0 < bytes.length ∧ bytes.length ≤ 2 ^ 32
  | .array length => length < 2 ^ 32
  | .map length => length < 2 ^ 32

/-- Every head that is read this way counts within 32 bits. -/
def ReadsMeasured (f : List UInt8 → Option (Head × List UInt8)) : Prop :=
  ∀ bytes head rest, f bytes = some (head, rest) → head.Measured

theorem readWhole_measured {f : Nat → Value} (hf : ∀ n, (f n).Everywhere Value.Measured)
    (width : Nat) : ReadsMeasured (readWhole f width) := by
  intro bytes head rest h
  obtain ⟨_, _, he⟩ := Option.map_eq_some_iff.1 h
  cases he
  exact hf _

theorem readBytes_measured {f : List UInt8 → Head} {length : Nat}
    (hf : ∀ bytes, bytes.length = length → (f bytes).Measured) :
    ReadsMeasured (readBytes f length) := by
  intro bytes head rest h
  obtain ⟨_, ht, he⟩ := Option.map_eq_some_iff.1 h
  cases he
  exact hf _ (length_of_takeBytes ht)

theorem readSized_measured {f : Nat → List UInt8 → Option (Head × List UInt8)} {width : Nat}
    (hf : ∀ length < 2 ^ 32, ReadsMeasured (f length)) (hwidth : width ≤ 4) :
    ReadsMeasured (readSized f width) := by
  intro bytes head rest h
  unfold readSized at h
  split at h
  · rename_i length rest' ht
    have hle : 256 ^ width ≤ 256 ^ 4 := Nat.pow_le_pow_right (by omega) hwidth
    have hlt := takeWord_lt ht
    exact hf length (by omega) _ _ _ h
  · cases h

theorem readStr_measured {length : Nat} (h : length < 2 ^ 32) : ReadsMeasured (readStr length) :=
  readBytes_measured fun bytes hlen => by
    show bytes.length < 2 ^ 32
    omega

theorem readBin_measured {length : Nat} (h : length < 2 ^ 32) : ReadsMeasured (readBin length) :=
  readBytes_measured fun bytes hlen => by
    show bytes.length < 2 ^ 32
    omega

theorem readExt_measured {length : Nat} (h : length < 2 ^ 32) : ReadsMeasured (readExt length) :=
  readBytes_measured fun bytes hlen => by
    show 0 < bytes.length ∧ bytes.length ≤ 2 ^ 32
    omega

theorem readArray_measured {length : Nat} (h : length < 2 ^ 32) :
    ReadsMeasured fun rest => some (.array length, rest) := by
  intro bytes head rest h'
  cases h'
  exact h

theorem readMap_measured {length : Nat} (h : length < 2 ^ 32) :
    ReadsMeasured fun rest => some (.map length, rest) := by
  intro bytes head rest h'
  cases h'
  exact h

theorem readHead_measured : ReadsMeasured readHead := by
  have huint (width) : ReadsMeasured (readUInt width) := readWhole_measured (fun _ => by trivial) width
  have hint (width) : ReadsMeasured (readInt width) := readWhole_measured (fun _ => by trivial) width
  have hsized {f} (hf : ∀ length < 2 ^ 32, ReadsMeasured (f length)) :
      ReadsMeasured (readSized f 1) ∧ ReadsMeasured (readSized f 2) ∧
        ReadsMeasured (readSized f 4) :=
    ⟨readSized_measured hf (by omega), readSized_measured hf (by omega),
      readSized_measured hf (by omega)⟩
  intro bytes head rest h
  match bytes, h with
  | b :: bytes, h =>
    have hb : b.toNat < 256 := b.toNat_lt
    simp only [readHead] at h
    split at h
    · cases h; trivial
    split at h
    · cases h; show b.toNat - 0x80 < 2 ^ 32; omega
    split at h
    · cases h; show b.toNat - 0x90 < 2 ^ 32; omega
    split at h
    · exact readStr_measured (by omega) _ _ _ h
    split at h
    · cases h; trivial
    split at h
    · cases h; trivial
    · cases h; trivial
    · cases h; trivial
    · exact (hsized fun _ => readBin_measured).1 _ _ _ h
    · exact (hsized fun _ => readBin_measured).2.1 _ _ _ h
    · exact (hsized fun _ => readBin_measured).2.2 _ _ _ h
    · exact (hsized fun _ => readExt_measured).1 _ _ _ h
    · exact (hsized fun _ => readExt_measured).2.1 _ _ _ h
    · exact (hsized fun _ => readExt_measured).2.2 _ _ _ h
    · exact readWhole_measured (fun _ => by trivial) 4 _ _ _ h
    · exact readWhole_measured (fun _ => by trivial) 8 _ _ _ h
    · exact huint _ _ _ _ h
    · exact huint _ _ _ _ h
    · exact huint _ _ _ _ h
    · exact huint _ _ _ _ h
    · exact hint _ _ _ _ h
    · exact hint _ _ _ _ h
    · exact hint _ _ _ _ h
    · exact hint _ _ _ _ h
    · exact readExt_measured (by omega) _ _ _ h
    · exact readExt_measured (by omega) _ _ _ h
    · exact readExt_measured (by omega) _ _ _ h
    · exact readExt_measured (by omega) _ _ _ h
    · exact readExt_measured (by omega) _ _ _ h
    · exact (hsized fun _ => readStr_measured).1 _ _ _ h
    · exact (hsized fun _ => readStr_measured).2.1 _ _ _ h
    · exact (hsized fun _ => readStr_measured).2.2 _ _ _ h
    · exact (hsized fun _ => readArray_measured).2.1 _ _ _ h
    · exact (hsized fun _ => readArray_measured).2.2 _ _ _ h
    · exact (hsized fun _ => readMap_measured).2.1 _ _ _ h
    · exact (hsized fun _ => readMap_measured).2.2 _ _ _ h
    · cases h

theorem readMany_forall {α : Type} {f : List UInt8 → Option (α × List UInt8)} {p : α → Prop}
    (hf : ∀ bytes x rest, f bytes = some (x, rest) → p x) {n : Nat} {bytes rest : List UInt8}
    {xs : List α} (h : readMany f n bytes = some (xs, rest)) : xs.length = n ∧ ∀ x ∈ xs, p x := by
  induction n generalizing bytes xs with
  | zero => cases h; exact ⟨rfl, fun _ hx => nomatch hx⟩
  | succ n ih =>
    unfold readMany at h
    split at h
    · cases h
    · rename_i x rest' hx
      obtain ⟨⟨xs', _⟩, hxs, he⟩ := Option.map_eq_some_iff.1 h
      cases he
      obtain ⟨hlen, hall⟩ := ih hxs
      exact ⟨by rw [List.length_cons, hlen], List.forall_mem_cons.2 ⟨hf _ _ _ hx, hall⟩⟩

theorem readPair_both {α : Type} {f : List UInt8 → Option (α × List UInt8)} {p : α → Prop}
    (hf : ∀ bytes x rest, f bytes = some (x, rest) → p x) {bytes rest : List UInt8} {x : α × α}
    (h : readPair f bytes = some (x, rest)) : p x.1 ∧ p x.2 := by
  unfold readPair at h
  split at h
  · cases h
  · rename_i key rest' hkey
    obtain ⟨⟨v, _⟩, hv, he⟩ := Option.map_eq_some_iff.1 h
    cases he
    exact ⟨hf _ _ _ hkey, hf _ _ _ hv⟩

/-- Whatever bytes a value is read from, its counts fit into 32 bits. -/
theorem read_measured {depth : Nat} {bytes rest : List UInt8} {v : Value}
    (h : Value.read depth bytes = some (v, rest)) : v.Everywhere Value.Measured := by
  induction depth generalizing bytes rest v with
  | zero =>
    unfold Value.read at h
    split at h
    · rename_i hhead
      cases h
      exact readHead_measured _ _ _ hhead
    · cases h
  | succ depth ih =>
    unfold Value.read at h
    split at h
    · cases h
    · rename_i hhead
      cases h
      exact readHead_measured _ _ _ hhead
    · rename_i hhead
      cases h
      exact readHead_measured _ _ _ hhead
    · rename_i n rest' hhead
      obtain ⟨⟨items, _⟩, hitems, he⟩ := Option.map_eq_some_iff.1 h
      cases he
      obtain ⟨hlen, hall⟩ := readMany_forall (fun _ _ _ => ih) hitems
      have hn : n < 2 ^ 32 := readHead_measured _ _ _ hhead
      unfold Value.Everywhere
      exact ⟨by rwa [Value.Measured, hlen], itemsEverywhere_iff.2 hall⟩
    · rename_i n rest' hhead
      obtain ⟨⟨entries, _⟩, hentries, he⟩ := Option.map_eq_some_iff.1 h
      cases he
      obtain ⟨hlen, hall⟩ :=
        readMany_forall (fun _ _ _ => readPair_both fun _ _ _ => ih) hentries
      have hn : n < 2 ^ 32 := readHead_measured _ _ _ hhead
      unfold Value.Everywhere
      exact ⟨by rwa [Value.Measured, hlen], entriesEverywhere_iff.2 hall⟩

end Playfield.Packed
