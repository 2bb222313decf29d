import EntityStore.Proofs.Cbor.Head
import EntityStore.Proofs.Json.Nesting
import EntityStore.Proofs.OrderedMap
import EntityStore.Proofs.Serializer.Native

/-!
# Written CBOR reads back

`item_write` says that the reader, on the octets of a value followed by anything, returns the value
and what follows, if the value is canonical and nests no deeper than the reader allows. It goes by
recursion on the value. Heads come from `exists_head`, texts from `Text.ofOctets?_octets`, and
floating-point numbers from `Double.widen_of_narrow?`; an array or object takes one level of depth
and hands the rest to its items.
-/

namespace EntityStore.Cbor

open Binary

/-! ## Scalars -/

/-- A head of one of the two integer types is read as an integer. -/
theorem item_integer (negative : Bool) {n : Nat} (h : n < 2 ^ 64) (depth : Nat)
    (rest : List UInt8) :
    item depth (head negative.toNat n ++ rest) =
      (WideInt.ofInt? (if negative then -1 - (n : Int) else n)).map fun v => (.int v, rest) := by
  obtain ⟨low, tail, hhead, hlow, hargument⟩ := exists_head negative.toNat h
  have hmajor : negative.toNat < 2 := by cases negative <;> decide
  have hnegative : decide (negative.toNat = 1) = negative := by cases negative <;> rfl
  rw [hhead, List.cons_append]
  unfold item
  simp only [firstOctet_div (by omega : negative.toNat < 8) (by omega : low < 32),
    firstOctet_mod negative.toNat (by omega : low < 32), hmajor, if_true, integer, hargument,
    hnegative, Option.bind_eq_bind, Option.bind_some]
  cases WideInt.ofInt? (if negative then -1 - (n : Int) else n) <;> rfl

/-- An integer is read back. -/
theorem item_writeInt (n : WideInt) (depth : Nat) (rest : List UInt8) :
    item depth (writeInt n ++ rest) = some (.int n, rest) := by
  have hwide : WideInt.ofInt? n.val = some n := dif_pos ⟨n.lower, n.upper⟩
  have hlower := n.lower
  have hupper := n.upper
  unfold writeInt
  split
  · next hsign =>
    -- An integer of the first major type is its own number.
    have hitem := item_integer false (n := n.val.toNat) (by omega) depth rest
    have hvalue : (n.val.toNat : Int) = n.val := Int.toNat_of_nonneg hsign
    simpa [hvalue, hwide] using hitem
  · next hsign =>
    -- One of the second major type is written as its distance from `-1`.
    have hitem := item_integer true (n := (-1 - n.val).toNat) (by omega) depth rest
    have hvalue : -1 - ((-1 - n.val).toNat : Int) = n.val := by omega
    simp only [if_true, hvalue, hwide, Option.map_some] at hitem
    exact hitem

/-- An item of the last major type is a simple value or a floating-point number. -/
theorem item_simple {low : Nat} (hlow : low < 32) (depth : Nat) (rest : List UInt8) :
    item depth (firstOctet 7 low :: rest) = simple low rest := by
  unfold item
  simp only [firstOctet_div (by decide : 7 < 8) hlow, firstOctet_mod 7 hlow]
  rfl

/-- A floating-point number is read back in the precision that it was written in. -/
theorem item_writeFloat (x : FiniteDouble) (depth : Nat) (rest : List UInt8) :
    item depth (writeFloat x.val ++ rest) = some (.float x, rest) := by
  unfold writeFloat
  split
  · next word hnarrow =>
    have hword := word_bigEndian 2 (Double.narrow?_half_lt hnarrow) rest
    have hwiden := Double.widen_of_narrow? hnarrow
    show item depth (firstOctet 7 25 :: (bigEndian word 2 ++ rest)) = _
    rw [item_simple (by decide), simple, hword]
    -- Widening undoes the narrowing, since a number is only narrowed if that loses nothing.
    simp [hwiden, Native.ofDouble_finite]
  · split
    · next word hnarrow =>
      have hword := word_bigEndian 4 (Double.narrow?_single_lt hnarrow) rest
      have hwiden := Double.widen_of_narrow? hnarrow
      show item depth (firstOctet 7 26 :: (bigEndian word 4 ++ rest)) = _
      rw [item_simple (by decide), simple, hword]
      simp [hwiden, Native.ofDouble_finite]
    · have hlt := x.val.bits.toNat_lt
      have hword := word_bigEndian 8 (n := x.val.bits.toNat) (by omega) rest
      show item depth (firstOctet 7 27 :: (bigEndian x.val.bits.toNat 8 ++ rest)) = _
      rw [item_simple (by decide), simple, hword]
      have hfinite : Json.ofDouble ⟨x.val.bits⟩ = .float x := Native.ofDouble_finite x
      simp [hfinite]

/-- A head of a text is followed by its octets. -/
theorem exists_writeText {s : String} (h : (Text.octets s).length < 2 ^ 64) :
    ∃ low tail, writeText s = firstOctet 3 low :: tail ∧ low < 28 ∧
      ∀ rest, content 3 low (tail ++ rest) = some (Text.octets s, rest) := by
  obtain ⟨low, tail, hhead, hlow, hargument⟩ := exists_head 3 h
  refine ⟨low, tail ++ Text.octets s, ?_, hlow, fun rest => ?_⟩
  · simp [writeText, hhead]
  · have hne : low ≠ 31 := by omega
    simp [content, hne, hargument, octets_append]

/-- A text is read back. -/
theorem item_writeText {s : String} (h : (Text.octets s).length < 2 ^ 64) (depth : Nat)
    (rest : List UInt8) : item depth (writeText s ++ rest) = some (.string s, rest) := by
  obtain ⟨low, tail, hwrite, hlow, hcontent⟩ := exists_writeText h
  rw [hwrite, List.cons_append]
  unfold item
  simp [firstOctet_div (by decide : 3 < 8) (by omega : low < 32),
    firstOctet_mod 3 (by omega : low < 32), hcontent, Text.ofOctets?_octets]

/-- The name of a member is read back, whether it is the first one or not. -/
theorem key_writeText {s : String} (h : (Text.octets s).length < 2 ^ 64) (loose : Bool)
    (depth : Nat) (rest : List UInt8) : key loose depth (writeText s ++ rest) = some (s, rest) := by
  obtain ⟨low, tail, hwrite, hlow, hcontent⟩ := exists_writeText h
  rw [hwrite, List.cons_append]
  cases depth <;>
    simp [key, firstOctet_div (by decide : 3 < 8) (by omega : low < 32),
      firstOctet_mod 3 (by omega : low < 32), hcontent, Text.ofOctets?_octets]

/-! ## Collections -/

/-- Items that are read back one by one are read back as an array. -/
theorem items_writeItems (depth : Nat) {values : List Json}
    (h : ∀ v ∈ values, ∀ rest, item depth (write v ++ rest) = some (v, rest))
    (read : List Json) (rest : List UInt8) :
    items (item depth) read values.length (writeItems values ++ rest) =
      some (.array (read.reverse ++ values), rest) := by
  induction values generalizing read with
  | nil => simp [items, writeItems]
  | cons v values ih =>
    have hv := h v List.mem_cons_self (writeItems values ++ rest)
    rw [writeItems, List.append_assoc, List.length_cons, items, hv]
    simp only
    rw [ih (fun w hw => h w (List.mem_cons_of_mem _ hw))]
    simp

/-- Members whose names and values are read back are read back as an object. -/
theorem members_writeMembers (depth : Nat) {named : List (String × Json)}
    (hnames : ∀ m ∈ named, (Text.octets m.1).length < 2 ^ 64)
    (hvalues : ∀ m ∈ named, ∀ rest, item depth (write m.2 ++ rest) = some (m.2, rest))
    (read : List (String × Json)) (rest : List UInt8) :
    members (fun loose => key loose depth) (item depth) read named.length
        (writeMembers named ++ rest) =
      some (.ofMembers (read.reverse ++ named), rest) := by
  induction named generalizing read with
  | nil => simp [members, writeMembers]
  | cons m named ih =>
    obtain ⟨name, value⟩ := m
    -- The first name is read by another rule than the names after it.
    have hname := key_writeText (hnames _ List.mem_cons_self) (!read.isEmpty) depth
      (write value ++ (writeMembers named ++ rest))
    have hvalue := hvalues _ List.mem_cons_self (writeMembers named ++ rest)
    rw [writeMembers, List.append_assoc, List.append_assoc, List.length_cons, members, member]
    simp only at hname hvalue
    simp only [hname, hvalue]
    rw [ih (fun m hm => hnames m (List.mem_cons_of_mem _ hm))
      (fun m hm => hvalues m (List.mem_cons_of_mem _ hm))]
    simp

/-- Every value has a first octet. -/
theorem write_ne_nil (value : Json) : write value ≠ [] := by
  cases value with
  | null => exact List.cons_ne_nil _ _
  | bool b => cases b <;> exact List.cons_ne_nil _ _
  | int n => simp only [write, writeInt]; split <;> exact head_ne_nil _ _
  | float x =>
    simp only [write, writeFloat]
    split
    · exact List.cons_ne_nil _ _
    · split <;> exact List.cons_ne_nil _ _
  | string s => simp [write, writeText, head_ne_nil]
  | array items => simp [write, head_ne_nil]
  | object members => simp [write, head_ne_nil]

/-- A list has at most as many items as octets. -/
theorem length_le_writeItems (values : List Json) : values.length ≤ (writeItems values).length := by
  induction values with
  | nil => exact Nat.le_refl _
  | cons v values ih =>
    have hv := List.length_pos_of_ne_nil (write_ne_nil v)
    simp only [writeItems, List.length_append, List.length_cons]
    omega

/-- A list has at most as many members as octets. -/
theorem length_le_writeMembers (named : List (String × Json)) :
    named.length ≤ (writeMembers named).length := by
  induction named with
  | nil => exact Nat.le_refl _
  | cons m named ih =>
    obtain ⟨name, value⟩ := m
    have hv := List.length_pos_of_ne_nil (write_ne_nil value)
    simp only [writeMembers, List.length_append, List.length_cons]
    omega

/-- A text is at most as long as what is written for it. -/
theorem length_octets_le_writeText (s : String) :
    (Text.octets s).length ≤ (writeText s).length := by
  simp [writeText]

/-- Every character takes an octet in UTF-8. -/
theorem length_le_utf8Encode (cs : List Char) :
    cs.length ≤ (cs.flatMap String.utf8EncodeChar).length := by
  induction cs with
  | nil => exact Nat.le_refl _
  | cons c cs ih =>
    have hpos := c.utf8Size_pos
    rw [List.flatMap_cons, List.length_append, String.length_utf8EncodeChar, List.length_cons]
    omega

/-- A text takes more octets than it has characters. -/
theorem length_lt_write_string (s : String) : s.toList.length < (write (.string s)).length := by
  have htext := length_le_utf8Encode s.toList
  have hhead := List.length_pos_of_ne_nil (head_ne_nil 3 (Text.octets s).length)
  rw [← Text.octets_eq_flatMap] at htext
  simp only [write, writeText, List.length_append]
  omega

/-- The octets of an array are read as a count of items, one level deeper. -/
theorem item_succ_array {values : List Json} (hlength : values.length < 2 ^ 64) (depth : Nat)
    (rest : List UInt8) :
    item (depth + 1) (write (.array values) ++ rest) =
      items (item depth) [] values.length (writeItems values ++ rest) := by
  obtain ⟨low, tail, hhead, hlow, hargument⟩ := exists_head 4 hlength
  have hne : low ≠ 31 := by omega
  rw [write, hhead, List.cons_append, List.cons_append, List.append_assoc]
  simp [item, firstOctet_div (by decide : 4 < 8) (by omega : low < 32),
    firstOctet_mod 4 (by omega : low < 32), nested, hne, hargument]

/-- The octets of an object are read as a count of members, one level deeper. -/
theorem item_succ_object {named : List (String × Json)} (hlength : named.length < 2 ^ 64)
    (depth : Nat) (rest : List UInt8) :
    item (depth + 1) (write (.object named) ++ rest) =
      members (fun loose => key loose depth) (item depth) [] named.length
        (writeMembers named ++ rest) := by
  obtain ⟨low, tail, hhead, hlow, hargument⟩ := exists_head 5 hlength
  have hne : low ≠ 31 := by omega
  rw [write, hhead, List.cons_append, List.cons_append, List.append_assoc]
  simp [item, firstOctet_div (by decide : 5 < 8) (by omega : low < 32),
    firstOctet_mod 5 (by omega : low < 32), nested, hne, hargument]

/-- An array whose items are read back is read back. -/
theorem item_writeArray {depth : Nat} {values : List Json} (hlength : values.length < 2 ^ 64)
    (h : ∀ v ∈ values, ∀ rest, item depth (write v ++ rest) = some (v, rest))
    (rest : List UInt8) :
    item (depth + 1) (write (.array values) ++ rest) = some (.array values, rest) := by
  rw [item_succ_array hlength, items_writeItems depth h, List.reverse_nil, List.nil_append]

/-- An object in the order of its names, whose members are read back, is read back. -/
theorem item_writeObject {depth : Nat} {named : List (String × Json)}
    (hlength : named.length < 2 ^ 64) (hsorted : named.Pairwise fun a b => a.1 < b.1)
    (hnames : ∀ m ∈ named, (Text.octets m.1).length < 2 ^ 64)
    (hvalues : ∀ m ∈ named, ∀ rest, item depth (write m.2 ++ rest) = some (m.2, rest))
    (rest : List UInt8) :
    item (depth + 1) (write (.object named) ++ rest) = some (.object named, rest) := by
  -- Members in the order of their names are not moved by the map that collects them.
  have hobject : Json.ofMembers named = .object named :=
    congrArg Json.object (OrderedMap.entries_ofList hsorted)
  rw [item_succ_object hlength, members_writeMembers depth hnames hvalues, List.reverse_nil,
    List.nil_append, hobject]

/-! ## Values -/

mutual

/-- A canonical value that nests no deeper than allowed is read back. Fewer than `2 ^ 64` octets
leave every count and length within a head. -/
theorem item_write : ∀ (value : Json) (depth : Nat), value.Canonical → value.nesting ≤ depth →
    (write value).length < 2 ^ 64 → ∀ rest, item depth (write value ++ rest) = some (value, rest)
  | .null, depth, _, _, _, _ => by cases depth <;> rfl
  | .bool true, depth, _, _, _, _ => by cases depth <;> rfl
  | .bool false, depth, _, _, _, _ => by cases depth <;> rfl
  | .int n, depth, _, _, _, rest => item_writeInt n depth rest
  | .float x, depth, _, _, _, rest => item_writeFloat x depth rest
  | .string s, depth, _, _, hlength, rest =>
    item_writeText (Nat.lt_of_le_of_lt (length_octets_le_writeText s) hlength) depth rest
  | .array values, 0, _, hnesting, _, _ => by simp [Json.nesting] at hnesting
  | .array values, depth + 1, hcanonical, hnesting, hlength, rest => by
    rw [write, List.length_append] at hlength
    -- Every item has an octet, so the count fits in a head as well.
    have hcount := length_le_writeItems values
    exact item_writeArray (by omega)
      (item_write_of_mem values depth hcanonical (Nat.le_of_succ_le_succ hnesting) (by omega)) rest
  | .object named, 0, _, hnesting, _, _ => by simp [Json.nesting] at hnesting
  | .object named, depth + 1, hcanonical, hnesting, hlength, rest => by
    rw [write, List.length_append] at hlength
    have hcount := length_le_writeMembers named
    have hmembers := member_write_of_mem named depth hcanonical.2
      (Nat.le_of_succ_le_succ hnesting) (by omega)
    exact item_writeObject (by omega) hcanonical.1 (fun m hm => (hmembers m hm).1)
      (fun m hm => (hmembers m hm).2) rest

/-- Each of some canonical values is read back. -/
theorem item_write_of_mem : ∀ (values : List Json) (depth : Nat), Json.CanonicalItems values →
    Json.itemsNesting values ≤ depth → (writeItems values).length < 2 ^ 64 →
    ∀ v ∈ values, ∀ rest, item depth (write v ++ rest) = some (v, rest)
  | [], _, _, _, _ => fun _ hv => absurd hv List.not_mem_nil
  | value :: values, depth, hcanonical, hnesting, hlength => by
    rw [writeItems, List.length_append] at hlength
    rw [Json.itemsNesting] at hnesting
    intro v hv
    rcases List.mem_cons.1 hv with heq | hv
    · rw [heq]
      exact item_write value depth hcanonical.1 (by omega) (by omega)
    · exact item_write_of_mem values depth hcanonical.2 (by omega) (by omega) v hv

/-- Each of some canonical members has a name with a length that fits and a value that is read
back. -/
theorem member_write_of_mem : ∀ (named : List (String × Json)) (depth : Nat),
    Json.CanonicalMembers named → Json.membersNesting named ≤ depth →
    (writeMembers named).length < 2 ^ 64 →
    ∀ m ∈ named, (Text.octets m.1).length < 2 ^ 64 ∧
      ∀ rest, item depth (write m.2 ++ rest) = some (m.2, rest)
  | [], _, _, _, _ => fun _ hm => absurd hm List.not_mem_nil
  | (name, value) :: named, depth, hcanonical, hnesting, hlength => by
    rw [writeMembers, List.length_append, List.length_append] at hlength
    rw [Json.membersNesting] at hnesting
    intro m hm
    rcases List.mem_cons.1 hm with heq | hm
    · rw [heq]
      have hname := length_octets_le_writeText name
      exact ⟨by simp only; omega, item_write value depth hcanonical.1 (by omega) (by omega)⟩
    · exact member_write_of_mem named depth hcanonical.2 (by omega) (by omega) m hm

end

/-- The octets of a canonical value that nests at most 127 levels are read as the value. -/
theorem read?_write {value : Json} (hcanonical : value.Canonical)
    (hnesting : value.nesting ≤ maxDepth) (hlength : (write value).length < 2 ^ 64) :
    read? (write value) = some value := by
  have hitem := item_write value maxDepth hcanonical hnesting hlength []
  rw [List.append_nil] at hitem
  rw [read?, hitem]

end EntityStore.Cbor
