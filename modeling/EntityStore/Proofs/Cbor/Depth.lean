import EntityStore.Proofs.Cbor.RoundTrip

/-!
# Values that nest too deep for the reader

The writer goes as deep as a value does, and the reader does not: it stops at the first array or
object that is one level too deep, so that a value which nests deeper than the reader goes is
refused as a whole (`item_write_of_lt_nesting`). Together with `read?_write` this tells which of the
values that are written are read (`read?_write_eq`).
-/

namespace EntityStore.Cbor

/-- Where no level is left an array or object is refused. -/
theorem item_zero_of_major {major : Nat} (h : major = 4 ∨ major = 5) {n : Nat} (hn : n < 2 ^ 64)
    (rest : List UInt8) : item 0 (head major n ++ rest) = none := by
  obtain ⟨low, tail, hhead, hlow, -⟩ := exists_head major hn
  have hmajor : (firstOctet major low).toNat / 32 = major := firstOctet_div (by omega) (by omega)
  rw [hhead, List.cons_append, item]
  rcases h with rfl | rfl <;> simp [hmajor]

mutual

/-- A canonical value that nests deeper than allowed is refused, whatever follows. -/
theorem item_write_of_lt_nesting : ∀ (value : Json) (depth : Nat), value.Canonical →
    depth < value.nesting → (write value).length < 2 ^ 64 →
    ∀ rest, item depth (write value ++ rest) = none
  | .null, _, _, hnesting, _, _ | .bool _, _, _, hnesting, _, _ | .int _, _, _, hnesting, _, _
  | .float _, _, _, hnesting, _, _ | .string _, _, _, hnesting, _, _ =>
    absurd hnesting (Nat.not_lt_zero _)
  | .array values, depth, hcanonical, hnesting, hlength, rest => by
    have hcount := length_le_writeItems values
    rw [write, List.length_append] at hlength
    cases depth with
    | zero =>
      rw [write, List.append_assoc]
      exact item_zero_of_major (.inl rfl) (by omega) _
    | succ depth =>
      rw [item_succ_array (by omega)]
      exact items_write_of_lt_nesting values depth hcanonical (Nat.lt_of_succ_lt_succ hnesting)
        (by omega) [] rest
  | .object named, depth, hcanonical, hnesting, hlength, rest => by
    have hcount := length_le_writeMembers named
    rw [write, List.length_append] at hlength
    cases depth with
    | zero =>
      rw [write, List.append_assoc]
      exact item_zero_of_major (.inr rfl) (by omega) _
    | succ depth =>
      rw [item_succ_object (by omega)]
      exact members_write_of_lt_nesting named depth hcanonical.2
        (Nat.lt_of_succ_lt_succ hnesting) (by omega) [] rest

/-- Items of which one nests deeper than allowed are refused. -/
theorem items_write_of_lt_nesting : ∀ (values : List Json) (depth : Nat),
    Json.CanonicalItems values → depth < Json.itemsNesting values →
    (writeItems values).length < 2 ^ 64 → ∀ read rest,
    items (item depth) read values.length (writeItems values ++ rest) = none
  | [], _, _, hnesting, _, _, _ => absurd hnesting (Nat.not_lt_zero _)
  | value :: values, depth, hcanonical, hnesting, hlength, read, rest => by
    rw [writeItems, List.length_append] at hlength
    rw [Json.itemsNesting] at hnesting
    rw [writeItems, List.append_assoc, List.length_cons, items]
    by_cases hdeep : depth < value.nesting
    · rw [item_write_of_lt_nesting value depth hcanonical.1 hdeep (by omega)]
    · -- This item is read, so that a later one has to be too deep.
      rw [item_write value depth hcanonical.1 (by omega) (by omega)]
      exact items_write_of_lt_nesting values depth hcanonical.2 (by omega) (by omega) _ rest

/-- Members of which the value of one nests deeper than allowed are refused. -/
theorem members_write_of_lt_nesting : ∀ (named : List (String × Json)) (depth : Nat),
    Json.CanonicalMembers named → depth < Json.membersNesting named →
    (writeMembers named).length < 2 ^ 64 → ∀ read rest,
    members (fun loose => key loose depth) (item depth) read named.length
      (writeMembers named ++ rest) = none
  | [], _, _, hnesting, _, _, _ => absurd hnesting (Nat.not_lt_zero _)
  | (name, value) :: named, depth, hcanonical, hnesting, hlength, read, rest => by
    have hname := length_octets_le_writeText name
    rw [writeMembers, List.length_append, List.length_append] at hlength
    rw [Json.membersNesting] at hnesting
    rw [writeMembers, List.append_assoc, List.append_assoc, List.length_cons, members, member,
      key_writeText (by omega)]
    simp only
    by_cases hdeep : depth < value.nesting
    · rw [item_write_of_lt_nesting value depth hcanonical.1 hdeep (by omega)]
    · rw [item_write value depth hcanonical.1 (by omega) (by omega)]
      exact members_write_of_lt_nesting named depth hcanonical.2 (by omega) (by omega) _ rest

end

/-- The octets of a canonical value are read as the value if it nests at most 127 levels, and are
refused otherwise. -/
theorem read?_write_eq {value : Json} (hcanonical : value.Canonical)
    (hlength : (write value).length < 2 ^ 64) :
    read? (write value) = if value.nesting ≤ maxDepth then some value else none := by
  split
  · next hnesting => exact read?_write hcanonical hnesting hlength
  · next hdeep =>
    have hitem := item_write_of_lt_nesting value maxDepth hcanonical (by omega) hlength []
    rw [List.append_nil] at hitem
    rw [read?, hitem]

end EntityStore.Cbor
