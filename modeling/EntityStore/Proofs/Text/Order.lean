import EntityStore.OrderedMap
import EntityStore.Text.Octets
import Mathlib.Tactic.SplitIfs

/-!
# The order of texts is that of their octets

Maps list their keys in the order of the code points of the keys. That is the order of the octets of
the keys in UTF-8 (`octets_lt_octets_iff`), so it does not matter which of the two a store goes by.

The encoding of one character decides (`utf8EncodeChar_append_lt`): a greater character has a longer
encoding, which begins with a greater octet, or one of the same length in which the first octet
that differs is greater.
-/

namespace EntityStore.Text

/-- A greater number below `64 ^ 4` is greater in the first of its digits to base 64 in which it
differs. -/
theorem digits_lt {v w : Nat} (h : v < w) :
    v / 262144 < w / 262144 ∨ v / 262144 = w / 262144 ∧ (v / 4096 % 64 < w / 4096 % 64 ∨
      v / 4096 % 64 = w / 4096 % 64 ∧ (v / 64 % 64 < w / 64 % 64 ∨
        v / 64 % 64 = w / 64 % 64 ∧ v % 64 < w % 64)) := by
  have hdiv (n : Nat) : n / 4096 = n / 64 / 64 ∧ n / 262144 = n / 64 / 64 / 64 := by
    rw [Nat.div_div_eq_div_mul, Nat.div_div_eq_div_mul]
    exact ⟨rfl, rfl⟩
  obtain ⟨hv, hv'⟩ := hdiv v
  obtain ⟨hw, hw'⟩ := hdiv w
  rw [hv, hv', hw, hw']
  omega

/-- A greater character has a greater encoding, whatever follows it. -/
theorem utf8EncodeChar_append_lt {c d : Char} (h : c < d) (x y : List UInt8) :
    String.utf8EncodeChar c ++ x < String.utf8EncodeChar d ++ y := by
  have hlt : c.val.toNat < d.val.toNat := h
  have hbound : d.val.toNat < 0x110000 := by
    rcases d.valid with hvalid | ⟨-, hvalid⟩
    · omega
    · exact hvalid
  unfold String.utf8EncodeChar
  generalize c.val.toNat = v at hlt
  generalize d.val.toNat = w at hlt hbound
  have hdigits := digits_lt hlt
  -- The octets hold their digits, and the leading ones mark the length beside that.
  have hmark (n base : Nat) {size : Nat} (h : base + size ≤ 256) (hsize : 0 < size) :
      (UInt8.ofNat (n % size + base)).toNat = n % size + base := by
    have hmod := Nat.mod_lt n hsize
    exact UInt8.toNat_ofNat_of_lt' (by show _ < 256; omega)
  have hlead (n : Nat) (h : n < 0x110000) :
      (UInt8.ofNat (n / 262144 % 8 + 240)).toNat = n / 262144 + 240 := by
    rw [hmark _ _ (by omega) (by omega)]
    omega
  dsimp only
  split_ifs <;>
    simp (disch := omega) only [List.cons_append, List.nil_append, List.cons_lt_cons_iff,
      UInt8.lt_iff_toNat_lt, ← UInt8.toNat_inj, hlead, hmark, UInt8.toNat_ofNat'] <;>
    omega

/-- A greater list of characters has a greater encoding. -/
theorem flatMap_utf8EncodeChar_lt {cs ds : List Char} (h : cs < ds) :
    cs.flatMap String.utf8EncodeChar < ds.flatMap String.utf8EncodeChar := by
  induction cs generalizing ds with
  | nil =>
    cases ds with
    | nil => exact absurd h (List.lt_irrefl _)
    | cons d ds =>
      rw [List.flatMap_cons]
      have hne := List.length_pos_iff.1 (String.length_utf8EncodeChar d ▸ d.utf8Size_pos)
      cases hencoding : String.utf8EncodeChar d with
      | nil => exact absurd hencoding hne
      | cons octet rest => exact List.nil_lt_cons _ _
  | cons c cs ih =>
    cases ds with
    | nil => exact absurd h (List.not_lt_nil _)
    | cons d ds =>
      rw [List.flatMap_cons, List.flatMap_cons]
      rcases List.cons_lt_cons_iff.1 h with hlt | ⟨rfl, hlt⟩
      · exact utf8EncodeChar_append_lt hlt _ _
      · exact List.append_left_lt (ih hlt)

/-- One text comes before another one exactly if its octets do. -/
theorem octets_lt_octets_iff {s t : String} : octets s < octets t ↔ s < t := by
  have hmono {s t : String} (h : s < t) : octets s < octets t := by
    rw [octets_eq_flatMap, octets_eq_flatMap]
    exact flatMap_utf8EncodeChar_lt (String.lt_iff.1 h)
  refine ⟨fun h => ?_, hmono⟩
  rcases Decidable.em (s < t) with hlt | hnot
  · exact hlt
  · rcases Decidable.em (s = t) with rfl | hne
    · exact absurd h (List.lt_irrefl _)
    · exact absurd h (List.lt_asymm (hmono (OrderedMap.lt_of_not_lt_of_ne hnot hne)))

/-- One text comes before another one, or is the same, exactly if this is so for their octets. -/
theorem octets_le_octets_iff {s t : String} : octets s ≤ octets t ↔ s ≤ t := by
  rw [← List.not_lt, ← String.not_lt, octets_lt_octets_iff]

end EntityStore.Text
