import EntityStore.Proofs.Binary.Exact
import EntityStore.Proofs.Cbor.RoundTrip

/-!
# The encoding of a value

`Encodes` gives the rules of the encoding without saying how to compute it. Lengths and counts stand
in advance; every head, which carries an integer, a length or a count, is a shortest one of those
that are read as its number (`IsHead`); and a floating-point number is a shortest one of the items
that are read as this number (`IsFloat`).

Among the heads of a number there is one for each width that the number fits in, and among the items
of a floating-point number one for each precision that holds it, so that the shortest one is the one
that is written (`shortest_isHead_iff`, `shortest_isFloat_iff`). Hence a value has one encoding at
most, and `write` gives it (`eq_write_of_encodes`, `encodes_write`).
-/

namespace EntityStore.Cbor

open Binary

/-! ## Numbers in octets -/

/-- A number that is read before octets counts as many times as they can be different. -/
theorem bigEndianValue_eq (read : Nat) (bytes : List UInt8) :
    ∃ low < 256 ^ bytes.length, bigEndianValue read bytes = read * 256 ^ bytes.length + low := by
  induction bytes generalizing read with
  | nil => exact ⟨0, by simp, by simp [bigEndianValue]⟩
  | cons b rest ih =>
    obtain ⟨low, hlow, hvalue⟩ := ih (256 * read + b.toNat)
    have hb : b.toNat + 1 ≤ 256 := b.toNat_lt
    refine ⟨b.toNat * 256 ^ rest.length + low, ?_, ?_⟩
    · calc b.toNat * 256 ^ rest.length + low
          < (b.toNat + 1) * 256 ^ rest.length := by rw [Nat.add_mul, Nat.one_mul]; omega
        _ ≤ 256 * 256 ^ rest.length := Nat.mul_le_mul_right _ hb
        _ = 256 ^ (b :: rest).length := by rw [List.length_cons, Nat.pow_succ']
    · rw [bigEndianValue, hvalue, List.length_cons, Nat.pow_succ']
      ring

/-- Octets write the number that they are read as. -/
theorem bigEndian_bigEndianValue (read : Nat) (bytes : List UInt8) :
    bigEndian (bigEndianValue read bytes) bytes.length = bytes := by
  induction bytes generalizing read with
  | nil => rfl
  | cons b rest ih =>
    obtain ⟨low, hlow, hvalue⟩ := bigEndianValue_eq (256 * read + b.toNat) rest
    have hfirst : bigEndianValue (256 * read + b.toNat) rest / 256 ^ rest.length =
        256 * read + b.toNat := by
      rw [hvalue, Nat.mul_comm, Nat.mul_add_div (Nat.pow_pos (by decide)),
        Nat.div_eq_of_lt hlow, Nat.add_zero]
    have hb : UInt8.ofNat (256 * read + b.toNat) = b := by
      refine UInt8.toNat_inj.1 ?_
      have hlt := b.toNat_lt
      rw [UInt8.toNat_ofNat']
      omega
    rw [bigEndianValue, List.length_cons, bigEndian, Nat.pow_eq, hfirst, hb, ih]

/-- Octets are read as a number, and nothing is left, exactly if they write the number. -/
theorem word_eq_some_iff {width n : Nat} {bytes : List UInt8} :
    word width bytes = some (n, []) ↔ n < 256 ^ width ∧ bytes = bigEndian n width := by
  constructor
  · intro h
    unfold word octets at h
    simp only [Option.bind_eq_bind, Option.bind_eq_some_iff] at h
    obtain ⟨⟨read, rest⟩, hread, hvalue⟩ := h
    split_ifs at hread with hlength
    obtain ⟨rfl, rfl⟩ := Prod.mk.inj (Option.some.inj hread)
    obtain ⟨rfl, hrest⟩ := Prod.mk.inj (Option.some.inj hvalue)
    -- Nothing is left, so that all octets were read.
    have hall : bytes.take width = bytes := List.take_of_length_le (List.drop_eq_nil_iff.1 hrest)
    rw [hall] at hlength ⊢
    obtain ⟨low, hlow, hvalue⟩ := bigEndianValue_eq 0 bytes
    rw [Nat.zero_mul, Nat.zero_add] at hvalue
    refine ⟨?_, ?_⟩
    · rw [hvalue, ← hlength]
      exact hlow
    · rw [← hlength, bigEndian_bigEndianValue]
  · rintro ⟨hlt, rfl⟩
    have hword := word_bigEndian width hlt []
    rwa [List.append_nil] at hword

/-! ## Shortest octets -/

/-- The octets have a property, and no fewer octets have it. -/
structure Shortest (P : List UInt8 → Prop) (octets : List UInt8) : Prop where
  /-- The octets have the property. -/
  holds : P octets
  /-- Others that have it are not fewer. -/
  length_le : ∀ other, P other → octets.length ≤ other.length

/-- The octets are a head: they are read as a major type and a number. -/
def IsHead (major n : Nat) (octets : List UInt8) : Prop :=
  ∃ low tail, low < 32 ∧ octets = firstOctet major low :: tail ∧ argument low tail = some (n, [])

/-- The octets are read as a floating-point number. -/
def IsFloat (x : FiniteDouble) (octets : List UInt8) : Prop :=
  ∃ low tail, low < 32 ∧ octets = firstOctet 7 low :: tail ∧ simple low tail = some (.float x, [])

/-- A number has a head of one octet, or of two, three, five or nine, if it fits. -/
theorem isHead_iff {major n : Nat} {octets : List UInt8} :
    IsHead major n octets ↔
      n < 24 ∧ octets = [firstOctet major n] ∨
      n < 256 ^ 1 ∧ octets = firstOctet major 24 :: bigEndian n 1 ∨
      n < 256 ^ 2 ∧ octets = firstOctet major 25 :: bigEndian n 2 ∨
      n < 256 ^ 4 ∧ octets = firstOctet major 26 :: bigEndian n 4 ∨
      n < 256 ^ 8 ∧ octets = firstOctet major 27 :: bigEndian n 8 := by
  constructor
  · rintro ⟨low, tail, -, rfl, hargument⟩
    unfold argument at hargument
    split_ifs at hargument with h0 h1 h2 h3 h4
    · obtain ⟨rfl, rfl⟩ := Prod.mk.inj (Option.some.inj hargument)
      exact .inl ⟨h0, rfl⟩
    · obtain ⟨hlt, rfl⟩ := word_eq_some_iff.1 hargument
      exact .inr (.inl ⟨hlt, by rw [h1]⟩)
    · obtain ⟨hlt, rfl⟩ := word_eq_some_iff.1 hargument
      exact .inr (.inr (.inl ⟨hlt, by rw [h2]⟩))
    · obtain ⟨hlt, rfl⟩ := word_eq_some_iff.1 hargument
      exact .inr (.inr (.inr (.inl ⟨hlt, by rw [h3]⟩)))
    · obtain ⟨hlt, rfl⟩ := word_eq_some_iff.1 hargument
      exact .inr (.inr (.inr (.inr ⟨hlt, by rw [h4]⟩)))
  · rintro (⟨hlt, rfl⟩ | ⟨hlt, rfl⟩ | ⟨hlt, rfl⟩ | ⟨hlt, rfl⟩ | ⟨hlt, rfl⟩)
    · exact ⟨n, [], by omega, rfl, by simp [argument, hlt]⟩
    · exact ⟨24, _, by decide, rfl, word_eq_some_iff.2 ⟨hlt, rfl⟩⟩
    · exact ⟨25, _, by decide, rfl, word_eq_some_iff.2 ⟨hlt, rfl⟩⟩
    · exact ⟨26, _, by decide, rfl, word_eq_some_iff.2 ⟨hlt, rfl⟩⟩
    · exact ⟨27, _, by decide, rfl, word_eq_some_iff.2 ⟨hlt, rfl⟩⟩

/-- Octets that have a property are the shortest ones if all others that have it are more. -/
theorem shortest_iff_eq {P : List UInt8 → Prop} {first : List UInt8} (hfirst : P first)
    (hother : ∀ other, P other → other = first ∨ first.length < other.length)
    {octets : List UInt8} : Shortest P octets ↔ octets = first := by
  constructor
  · intro h
    have hle : octets.length ≤ first.length := h.length_le first hfirst
    exact (hother octets h.holds).resolve_right (Nat.not_lt.2 hle)
  · rintro rfl
    refine ⟨hfirst, fun other hP => ?_⟩
    rcases hother other hP with rfl | hlt
    · exact Nat.le_refl _
    · exact Nat.le_of_lt hlt

/-- A head that is written is a head. -/
theorem isHead_head (major : Nat) {n : Nat} (h : n < 2 ^ 64) : IsHead major n (head major n) := by
  rw [isHead_iff]
  unfold head
  split_ifs with h0 h1 h2 h3
  · exact .inl ⟨h0, rfl⟩
  · exact .inr (.inl ⟨h1, rfl⟩)
  · exact .inr (.inr (.inl ⟨h2, rfl⟩))
  · exact .inr (.inr (.inr (.inl ⟨h3, rfl⟩)))
  · exact .inr (.inr (.inr (.inr ⟨h, rfl⟩)))

/-- Each other head of the number is longer than the one that is written. -/
theorem eq_head_or_lt_of_isHead {major n : Nat} {octets : List UInt8}
    (h : IsHead major n octets) :
    octets = head major n ∨ (head major n).length < octets.length := by
  unfold head
  -- The width that is written is the first one that fits, so that no narrower one is a head.
  rcases isHead_iff.1 h with ⟨hlt, rfl⟩ | ⟨hlt, rfl⟩ | ⟨hlt, rfl⟩ | ⟨hlt, rfl⟩ | ⟨-, rfl⟩
  · exact .inl (if_pos hlt).symm
  · have hlt : n < 256 := hlt
    split_ifs
    · exact .inr (by simp)
    · exact .inl rfl
  · have hlt : n < 65536 := hlt
    split_ifs
    · exact .inr (by simp)
    · exact .inr (by simp)
    · exact .inl rfl
  · have hlt : n < 4294967296 := hlt
    split_ifs
    · exact .inr (by simp)
    · exact .inr (by simp)
    · exact .inr (by simp)
    · exact .inl rfl
  · split_ifs
    · exact .inr (by simp)
    · exact .inr (by simp)
    · exact .inr (by simp)
    · exact .inr (by simp)
    · exact .inl rfl

/-- A head is the shortest one of its number exactly if it is the one that is written. -/
theorem shortest_isHead_iff {major n : Nat} {octets : List UInt8} :
    Shortest (IsHead major n) octets ↔ n < 2 ^ 64 ∧ octets = head major n := by
  by_cases hn : n < 2 ^ 64
  · rw [shortest_iff_eq (isHead_head major hn) fun _ => eq_head_or_lt_of_isHead]
    exact (and_iff_right hn).symm
  · -- A number that does not fit in eight octets has no head.
    refine iff_of_false (fun h => ?_) fun h => hn h.1
    rcases isHead_iff.1 h.holds with ⟨hlt, -⟩ | ⟨hlt, -⟩ | ⟨hlt, -⟩ | ⟨hlt, -⟩ | ⟨hlt, -⟩ <;> omega

/-- A floating-point number has an item of two octets after the first one, or of four, if a narrower
word stands for it, and one of eight. -/
theorem isFloat_iff {x : FiniteDouble} {octets : List UInt8} :
    IsFloat x octets ↔
      (∃ w, x.val.narrow? .half = some w ∧ octets = firstOctet 7 25 :: bigEndian w 2) ∨
      (∃ w, x.val.narrow? .single = some w ∧ octets = firstOctet 7 26 :: bigEndian w 4) ∨
      octets = firstOctet 7 27 :: bigEndian x.val.bits.toNat 8 := by
  constructor
  · rintro ⟨low, tail, -, rfl, hsimple⟩
    unfold simple at hsimple
    split at hsimple
    · cases hsimple
    · cases hsimple
    · cases hsimple
    · cases hsimple
    · obtain ⟨⟨w, rest⟩, hword, hvalue⟩ := Option.bind_eq_some_iff.1 hsimple
      obtain ⟨hwiden, rfl⟩ := Prod.mk.inj (Option.some.inj hvalue)
      obtain ⟨hlt, rfl⟩ := word_eq_some_iff.1 hword
      refine .inl ⟨w, (Double.narrow?_eq_some_iff Double.narrower_half).2 ⟨hlt, ?_⟩, rfl⟩
      exact Native.ofDouble_eq_float_iff.1 hwiden
    · obtain ⟨⟨w, rest⟩, hword, hvalue⟩ := Option.bind_eq_some_iff.1 hsimple
      obtain ⟨hwiden, rfl⟩ := Prod.mk.inj (Option.some.inj hvalue)
      obtain ⟨hlt, rfl⟩ := word_eq_some_iff.1 hword
      refine .inr (.inl ⟨w, (Double.narrow?_eq_some_iff Double.narrower_single).2 ⟨hlt, ?_⟩, rfl⟩)
      exact Native.ofDouble_eq_float_iff.1 hwiden
    · obtain ⟨⟨w, rest⟩, hword, hvalue⟩ := Option.bind_eq_some_iff.1 hsimple
      obtain ⟨hbits, rfl⟩ := Prod.mk.inj (Option.some.inj hvalue)
      obtain ⟨hlt, rfl⟩ := word_eq_some_iff.1 hword
      have hx : x.val = ⟨UInt64.ofNat w⟩ := (Native.ofDouble_eq_float_iff.1 hbits).symm
      have hw : x.val.bits.toNat = w := by
        rw [hx]
        exact UInt64.toNat_ofNat_of_lt' hlt
      exact .inr (.inr (by rw [hw]))
    · cases hsimple
  · rintro (⟨w, hnarrow, rfl⟩ | ⟨w, hnarrow, rfl⟩ | rfl)
    · obtain ⟨hlt, hwiden⟩ := (Double.narrow?_eq_some_iff Double.narrower_half).1 hnarrow
      have hword : word 2 (bigEndian w 2) = some (w, []) := word_eq_some_iff.2 ⟨hlt, rfl⟩
      exact ⟨25, _, by decide, rfl, by simp [simple, hword, Native.ofDouble_eq_float_iff.2 hwiden]⟩
    · obtain ⟨hlt, hwiden⟩ := (Double.narrow?_eq_some_iff Double.narrower_single).1 hnarrow
      have hword : word 4 (bigEndian w 4) = some (w, []) := word_eq_some_iff.2 ⟨hlt, rfl⟩
      exact ⟨26, _, by decide, rfl, by simp [simple, hword, Native.ofDouble_eq_float_iff.2 hwiden]⟩
    · have hlt : x.val.bits.toNat < 256 ^ 8 := x.val.bits.toNat_lt
      have hword := word_eq_some_iff.2 ⟨hlt, rfl⟩
      have hfinite : Json.ofDouble ⟨x.val.bits⟩ = .float x := Native.ofDouble_finite x
      exact ⟨27, _, by decide, rfl, by simp [simple, hword, hfinite]⟩

/-- An item of a floating-point number is the shortest one exactly if it is the one that is
written. -/
theorem shortest_isFloat_iff {x : FiniteDouble} {octets : List UInt8} :
    Shortest (IsFloat x) octets ↔ octets = writeFloat x.val := by
  unfold writeFloat
  -- The precisions are tried from the shortest one on, so that there is no item in those before.
  cases hhalf : x.val.narrow? .half with
  | some w =>
    refine shortest_iff_eq (isFloat_iff.2 (.inl ⟨w, hhalf, rfl⟩)) fun other hother => ?_
    rcases isFloat_iff.1 hother with ⟨w', hw', rfl⟩ | ⟨w', -, rfl⟩ | rfl
    · obtain rfl : w = w' := Option.some.inj (hhalf.symm.trans hw')
      exact .inl rfl
    · exact .inr (by simp)
    · exact .inr (by simp)
  | none =>
    cases hsingle : x.val.narrow? .single with
    | some w =>
      refine shortest_iff_eq (isFloat_iff.2 (.inr (.inl ⟨w, hsingle, rfl⟩))) fun other hother => ?_
      rcases isFloat_iff.1 hother with ⟨w', hw', -⟩ | ⟨w', hw', rfl⟩ | rfl
      · cases hhalf.symm.trans hw'
      · obtain rfl : w = w' := Option.some.inj (hsingle.symm.trans hw')
        exact .inl rfl
      · exact .inr (by simp)
    | none =>
      refine shortest_iff_eq (isFloat_iff.2 (.inr (.inr rfl))) fun other hother => ?_
      rcases isFloat_iff.1 hother with ⟨w', hw', -⟩ | ⟨w', hw', -⟩ | rfl
      · cases hhalf.symm.trans hw'
      · cases hsingle.symm.trans hw'
      · exact .inl rfl

/-! ## The rules of the encoding -/

mutual

/-- The octets are an encoding of the value. -/
inductive Encodes : Json → List UInt8 → Prop
  | null : Encodes .null [0xf6]
  | true : Encodes (.bool true) [0xf5]
  | false : Encodes (.bool false) [0xf4]
  /-- An integer that is not negative is a head of the first type. -/
  | natural {n : WideInt} {octets : List UInt8} (h : 0 ≤ n.val)
      (hhead : Shortest (IsHead 0 n.val.toNat) octets) : Encodes (.int n) octets
  /-- A negative integer is a head of the second type, which counts down from `-1`. -/
  | negative {n : WideInt} {octets : List UInt8} (h : n.val < 0)
      (hhead : Shortest (IsHead 1 (-1 - n.val).toNat) octets) : Encodes (.int n) octets
  | float {x : FiniteDouble} {octets : List UInt8} (h : Shortest (IsFloat x) octets) :
      Encodes (.float x) octets
  /-- A text is a head with its length in octets, and the octets. -/
  | string {s : String} {head : List UInt8}
      (hhead : Shortest (IsHead 3 (Text.octets s).length) head) :
      Encodes (.string s) (head ++ Text.octets s)
  /-- An array is a head with the count of its items, and the items. -/
  | array {values : List Json} {head octets : List UInt8}
      (hhead : Shortest (IsHead 4 values.length) head) (h : EncodesItems values octets) :
      Encodes (.array values) (head ++ octets)
  /-- An object is a head with the count of its members, and the members. -/
  | object {named : List (String × Json)} {head octets : List UInt8}
      (hhead : Shortest (IsHead 5 named.length) head) (h : EncodesMembers named octets) :
      Encodes (.object named) (head ++ octets)

/-- The octets are encodings of the items, one after the other. -/
inductive EncodesItems : List Json → List UInt8 → Prop
  | nil : EncodesItems [] []
  | cons {value : Json} {values : List Json} {octets rest : List UInt8}
      (h : Encodes value octets) (hrest : EncodesItems values rest) :
      EncodesItems (value :: values) (octets ++ rest)

/-- The octets are encodings of the names and values of the members, one after the other. -/
inductive EncodesMembers : List (String × Json) → List UInt8 → Prop
  | nil : EncodesMembers [] []
  | cons {name : String} {value : Json} {named : List (String × Json)}
      {text octets rest : List UInt8} (hname : Encodes (.string name) text)
      (h : Encodes value octets) (hrest : EncodesMembers named rest) :
      EncodesMembers ((name, value) :: named) (text ++ (octets ++ rest))

end

/-- The encoding of a text is the one that is written. -/
theorem eq_writeText_of_encodes {s : String} {octets : List UInt8}
    (h : Encodes (.string s) octets) : octets = writeText s := by
  cases h with
  | string hhead =>
    obtain ⟨-, rfl⟩ := shortest_isHead_iff.1 hhead
    rfl

mutual

/-- An encoding of a value is the one that is written. -/
theorem eq_write_of_encodes : ∀ {value : Json} {octets : List UInt8},
    Encodes value octets → octets = write value
  | _, _, .null => rfl
  | _, _, .true => rfl
  | _, _, .false => rfl
  | _, _, .natural h hhead => by
    obtain ⟨-, rfl⟩ := shortest_isHead_iff.1 hhead
    exact (if_pos h).symm
  | _, _, .negative h hhead => by
    obtain ⟨-, rfl⟩ := shortest_isHead_iff.1 hhead
    exact (if_neg (Int.not_le.2 h)).symm
  | _, _, .float h => shortest_isFloat_iff.1 h
  | _, _, .string hhead => eq_writeText_of_encodes (.string hhead)
  | _, _, .array hhead h => by
    obtain ⟨-, rfl⟩ := shortest_isHead_iff.1 hhead
    rw [eq_writeItems_of_encodes h, write]
  | _, _, .object hhead h => by
    obtain ⟨-, rfl⟩ := shortest_isHead_iff.1 hhead
    rw [eq_writeMembers_of_encodes h, write]

/-- Encodings of items are those that are written. -/
theorem eq_writeItems_of_encodes : ∀ {values : List Json} {octets : List UInt8},
    EncodesItems values octets → octets = writeItems values
  | _, _, .nil => rfl
  | _, _, .cons h hrest => by
    rw [eq_write_of_encodes h, eq_writeItems_of_encodes hrest, writeItems]

/-- Encodings of members are those that are written. -/
theorem eq_writeMembers_of_encodes : ∀ {named : List (String × Json)} {octets : List UInt8},
    EncodesMembers named octets → octets = writeMembers named
  | _, _, .nil => rfl
  | _, _, .cons hname h hrest => by
    rw [eq_writeText_of_encodes hname, eq_write_of_encodes h, eq_writeMembers_of_encodes hrest,
      writeMembers]

end

/-- An integer is written as its encoding. -/
theorem encodes_writeInt (n : WideInt) : Encodes (.int n) (writeInt n) := by
  have hlower := n.lower
  have hupper := n.upper
  unfold writeInt
  split
  · next hsign =>
    exact .natural hsign (shortest_isHead_iff.2 ⟨by omega, rfl⟩)
  · next hsign =>
    exact .negative (Int.not_le.1 hsign) (shortest_isHead_iff.2 ⟨by omega, rfl⟩)

/-- A text is written as its encoding. -/
theorem encodes_writeText {s : String} (h : (Text.octets s).length < 2 ^ 64) :
    Encodes (.string s) (writeText s) :=
  .string (shortest_isHead_iff.2 ⟨h, rfl⟩)

mutual

/-- A value of which fewer than `2 ^ 64` octets are written is written as its encoding. -/
theorem encodes_write : ∀ (value : Json), (write value).length < 2 ^ 64 →
    Encodes value (write value)
  | .null, _ => .null
  | .bool true, _ => .true
  | .bool false, _ => .false
  | .int n, _ => encodes_writeInt n
  | .float _, _ => .float (shortest_isFloat_iff.2 rfl)
  | .string s, hlength =>
    encodes_writeText (Nat.lt_of_le_of_lt (length_octets_le_writeText s) hlength)
  | .array values, hlength => by
    have hcount := length_le_writeItems values
    rw [write, List.length_append] at hlength
    rw [write]
    exact .array (shortest_isHead_iff.2 ⟨by omega, rfl⟩) (encodes_writeItems values (by omega))
  | .object named, hlength => by
    have hcount := length_le_writeMembers named
    rw [write, List.length_append] at hlength
    rw [write]
    exact .object (shortest_isHead_iff.2 ⟨by omega, rfl⟩)
      (encodes_writeMembers named (by omega))

/-- Items are written as their encodings. -/
theorem encodes_writeItems : ∀ (values : List Json), (writeItems values).length < 2 ^ 64 →
    EncodesItems values (writeItems values)
  | [], _ => .nil
  | value :: values, hlength => by
    rw [writeItems, List.length_append] at hlength
    exact .cons (encodes_write value (by omega)) (encodes_writeItems values (by omega))

/-- Members are written as the encodings of their names and values. -/
theorem encodes_writeMembers : ∀ (named : List (String × Json)),
    (writeMembers named).length < 2 ^ 64 → EncodesMembers named (writeMembers named)
  | [], _ => .nil
  | (name, value) :: named, hlength => by
    have hname := length_octets_le_writeText name
    rw [writeMembers, List.length_append, List.length_append] at hlength
    exact .cons (encodes_writeText (by omega)) (encodes_write value (by omega))
      (encodes_writeMembers named (by omega))

end

end EntityStore.Cbor
