import EntityStore.Proofs.Binary.Range
import Mathlib.Algebra.Order.Group.Nat
import Mathlib.Tactic.Ring
import Mathlib.Tactic.SplitIfs

/-!
# Conversions that lose nothing

A finite word of a format is its sign and the pair of significand and exponent that `decode` reads
(`Format.Writes`): the two ways between words and such pairs are `writes_of_decode` and
`decode_word`. Rounding a number that has such a pair gives the word of the pair, however the number
is written as a quotient (`round_scale`).

A format that is no narrower in either field has a pair for each number of the narrower format
(`Narrower.exists_writes`), so that a word which is converted to the wider format and back is the
same word (`convert_convert`). For doubles this means that `Double.narrow?` finds a narrower word
whenever there is one, and which one it is (`Double.narrow?_eq_some_iff`).
-/

namespace EntityStore.Binary

namespace Format

/-! ## Words and pairs -/

/-- The sign bit is above the bits of the exponent and of the fraction. -/
theorem signBit_eq (f : Format) : f.signBit = 2 ^ f.exponentBits * 2 ^ f.fractionBits :=
  Nat.pow_add 2 _ _

/-- The pairs of a significand and an exponent that finite words of the format stand for. -/
structure Writes (f : Format) (significand : Nat) (exponent : Int) : Prop where
  /-- The significand has one bit more than the fraction. -/
  lt : significand < 2 ^ (f.fractionBits + 1)
  /-- The exponent is not below the least one. -/
  least_le : f.leastExponent ≤ exponent
  /-- The highest bit of the significand is set, except for the smallest numbers. -/
  normal : 2 ^ f.fractionBits ≤ significand ∨ exponent = f.leastExponent
  /-- The exponent leaves the field of ones to what is not finite. -/
  le_greatest : exponent ≤ f.leastExponent + 2 ^ f.exponentBits - 3

/-- The word of a pair, without the sign. -/
def magnitude (f : Format) (significand : Nat) (exponent : Int) : Nat :=
  (exponent - f.leastExponent).toNat * 2 ^ f.fractionBits + significand

/-- The word of a pair. -/
def word (f : Format) (negative : Bool) (significand : Nat) (exponent : Int) : Nat :=
  if negative then f.signBit + f.magnitude significand exponent
  else f.magnitude significand exponent

/-- The word with a sign and two fields. -/
def ofFields (f : Format) (negative : Bool) (field fraction : Nat) : Nat :=
  (negative.toNat * 2 ^ f.exponentBits + field) * 2 ^ f.fractionBits + fraction

/-- A word is read by its fields. -/
theorem decode_ofFields (f : Format) (negative : Bool) {field fraction : Nat}
    (hfield : field < 2 ^ f.exponentBits) (hfraction : fraction < 2 ^ f.fractionBits) :
    f.decode (f.ofFields negative field fraction) =
      if field = 2 ^ f.exponentBits - 1 then
        if fraction = 0 then .infinity negative else .nan
      else if field = 0 then .finite negative fraction f.leastExponent
      else .finite negative (2 ^ f.fractionBits + fraction) (f.leastExponent + field - 1) := by
  have hpos : 0 < 2 ^ f.fractionBits := Nat.two_pow_pos _
  have hlow : f.ofFields negative field fraction % 2 ^ f.fractionBits = fraction := by
    rw [ofFields, Nat.mul_comm, Nat.mul_add_mod, Nat.mod_eq_of_lt hfraction]
  have hhigh : f.ofFields negative field fraction / 2 ^ f.fractionBits =
      negative.toNat * 2 ^ f.exponentBits + field := by
    rw [ofFields, Nat.mul_comm, Nat.mul_add_div hpos, Nat.div_eq_of_lt hfraction, Nat.add_zero]
  have hmiddle : f.ofFields negative field fraction / 2 ^ f.fractionBits % 2 ^ f.exponentBits =
      field := by
    rw [hhigh, Nat.mul_comm, Nat.mul_add_mod, Nat.mod_eq_of_lt hfield]
  have hsign : f.ofFields negative field fraction / f.signBit = negative.toNat := by
    rw [signBit_eq, Nat.mul_comm, ← Nat.div_div_eq_div_mul, hhigh, Nat.mul_comm,
      Nat.mul_add_div (Nat.two_pow_pos _), Nat.div_eq_of_lt hfield, Nat.add_zero]
  have hnegative : (negative.toNat % 2 == 1) = negative := by cases negative <;> rfl
  unfold decode
  simp only [Nat.pow_eq, hsign, hnegative, hmiddle, hlow]

/-- Every word has a sign and two fields. -/
theorem exists_ofFields {f : Format} {word : Nat} (h : word < 2 * f.signBit) :
    ∃ negative field fraction, field < 2 ^ f.exponentBits ∧ fraction < 2 ^ f.fractionBits ∧
      word = f.ofFields negative field fraction := by
  have hA : 0 < 2 ^ f.fractionBits := Nat.two_pow_pos _
  have hB : 0 < 2 ^ f.exponentBits := Nat.two_pow_pos _
  have hsign : word / 2 ^ f.fractionBits / 2 ^ f.exponentBits < 2 := by
    rw [Nat.div_div_eq_div_mul, Nat.mul_comm, ← signBit_eq]
    exact (Nat.div_lt_iff_lt_mul (by rw [signBit_eq]; exact Nat.mul_pos hB hA)).2 h
  have hbit : (word / 2 ^ f.fractionBits / 2 ^ f.exponentBits == 1).toNat =
      word / 2 ^ f.fractionBits / 2 ^ f.exponentBits := by
    generalize word / 2 ^ f.fractionBits / 2 ^ f.exponentBits = bit at hsign ⊢
    obtain rfl | rfl : bit = 0 ∨ bit = 1 := by omega
    · rfl
    · rfl
  refine ⟨word / 2 ^ f.fractionBits / 2 ^ f.exponentBits == 1, _, _,
    Nat.mod_lt (word / 2 ^ f.fractionBits) hB, Nat.mod_lt word hA, ?_⟩
  rw [ofFields, hbit, Nat.div_add_mod', Nat.div_add_mod']

/-- The word of a pair has the exponent in its field, one higher if the highest bit of the
significand is set, which is not in the fraction. -/
theorem word_eq_ofFields {f : Format} (negative : Bool) {significand : Nat} {exponent : Int}
    (h : f.Writes significand exponent) :
    (2 ^ f.fractionBits ≤ significand → f.word negative significand exponent =
      f.ofFields negative ((exponent - f.leastExponent).toNat + 1)
        (significand - 2 ^ f.fractionBits)) ∧
    (significand < 2 ^ f.fractionBits → f.word negative significand exponent =
      f.ofFields negative 0 significand) := by
  have hsign : f.word negative significand exponent =
      negative.toNat * 2 ^ f.exponentBits * 2 ^ f.fractionBits +
        f.magnitude significand exponent := by
    cases negative <;> simp [word, signBit_eq]
  rw [hsign]
  constructor
  · intro hnormal
    obtain ⟨fraction, rfl⟩ := Nat.exists_eq_add_of_le hnormal
    rw [magnitude, ofFields, Nat.add_sub_cancel_left]
    ring
  · intro hsmall
    have hleast : exponent = f.leastExponent := h.normal.resolve_left (Nat.not_le.2 hsmall)
    simp [magnitude, ofFields, hleast]

/-- The word of a pair is read as the pair. -/
theorem decode_word {f : Format} (negative : Bool) {significand : Nat} {exponent : Int}
    (h : f.Writes significand exponent) :
    f.decode (f.word negative significand exponent) = .finite negative significand exponent := by
  have hpow : 2 ^ (f.fractionBits + 1) = 2 * 2 ^ f.fractionBits := Nat.pow_succ'
  have hlt := h.lt
  have hleast := h.least_le
  have hgreatest := h.le_greatest
  obtain ⟨hlarge, hsmall⟩ := word_eq_ofFields negative h
  rcases Nat.lt_or_ge significand (2 ^ f.fractionBits) with hlt' | hge
  · have hexponent : exponent = f.leastExponent := h.normal.resolve_left (Nat.not_le.2 hlt')
    have hones : 0 ≠ 2 ^ f.exponentBits - 1 := by
      rw [hexponent] at hgreatest
      have hcast : ((2 ^ f.exponentBits : Nat) : Int) = 2 ^ f.exponentBits := by push_cast; rfl
      omega
    rw [hsmall hlt', decode_ofFields f negative (Nat.two_pow_pos _) hlt', if_neg hones, if_pos rfl,
      hexponent]
  · have hcast : ((2 ^ f.exponentBits : Nat) : Int) = 2 ^ f.exponentBits := by push_cast; rfl
    have hfield : (exponent - f.leastExponent).toNat + 1 < 2 ^ f.exponentBits - 1 := by omega
    rw [hlarge hge, decode_ofFields f negative (by omega) (by omega), if_neg (by omega),
      if_neg (by omega)]
    congr 1 <;> omega

/-- What a word is read as, if it is a number, is a pair, and the word is the word of the pair. -/
theorem writes_of_decode {f : Format} (hbits : 2 ≤ f.exponentBits) {w : Nat}
    (hw : w < 2 * f.signBit) {negative : Bool} {significand : Nat} {exponent : Int}
    (h : f.decode w = .finite negative significand exponent) :
    f.Writes significand exponent ∧ w = f.word negative significand exponent := by
  have hfour : 2 ^ 2 ≤ 2 ^ f.exponentBits := Nat.pow_le_pow_right (by decide) hbits
  have hpow : 2 ^ (f.fractionBits + 1) = 2 * 2 ^ f.fractionBits := Nat.pow_succ'
  have hcast : ((2 ^ f.exponentBits : Nat) : Int) = 2 ^ f.exponentBits := by push_cast; rfl
  obtain ⟨sign, field, fraction, hfield, hfraction, rfl⟩ := exists_ofFields hw
  rw [decode_ofFields f sign hfield hfraction] at h
  split_ifs at h with hones hzero hzero
  · obtain ⟨rfl, rfl, rfl⟩ := Datum.finite.inj h
    have hwrites : f.Writes fraction f.leastExponent :=
      ⟨by omega, Int.le_refl _, .inr rfl, by omega⟩
    refine ⟨hwrites, ?_⟩
    rw [(word_eq_ofFields sign hwrites).2 hfraction, hzero]
  · obtain ⟨rfl, rfl, rfl⟩ := Datum.finite.inj h
    have hwrites : f.Writes (2 ^ f.fractionBits + fraction) (f.leastExponent + field - 1) :=
      ⟨by omega, by omega, .inl (Nat.le_add_right _ _), by omega⟩
    refine ⟨hwrites, ?_⟩
    rw [(word_eq_ofFields sign hwrites).1 (Nat.le_add_right _ _), Nat.add_sub_cancel_left]
    congr 1
    omega

/-! ## Rounding what can be written -/

/-- A quotient is scaled by a power of two above or below the line. -/
theorem scale_eq (numerator denominator : Nat) (exponent : Int) :
    scale numerator denominator exponent =
      (numerator * 2 ^ (-exponent).toNat, denominator * 2 ^ exponent.toNat) := by
  cases exponent with
  | ofNat e => simp [scale]
  | negSucc e => simp [scale, Int.neg_negSucc]

/-- Multiplication by a power of two moves the highest bit. -/
theorem log2_mul_two_pow {n : Nat} (h : n ≠ 0) (k : Nat) : (n * 2 ^ k).log2 = n.log2 + k := by
  have hne : n * 2 ^ k ≠ 0 := Nat.mul_ne_zero h (Nat.two_pow_pos k).ne'
  refine Nat.le_antisymm (Nat.le_of_lt_succ ((Nat.log2_lt hne).2 ?_)) ((Nat.le_log2 hne).2 ?_)
  · have hlt : n < 2 ^ (n.log2 + 1) := (Nat.log2_lt h).1 (Nat.lt_succ_self _)
    calc n * 2 ^ k < 2 ^ (n.log2 + 1) * 2 ^ k := Nat.mul_lt_mul_of_pos_right hlt (Nat.two_pow_pos k)
      _ = 2 ^ (n.log2 + k + 1) := by ring
  · have hle : 2 ^ n.log2 ≤ n := (Nat.le_log2 h).1 (Nat.le_refl _)
    calc 2 ^ (n.log2 + k) = 2 ^ n.log2 * 2 ^ k := Nat.pow_add 2 _ _
      _ ≤ n * 2 ^ k := Nat.mul_le_mul_right _ hle

/-- Two pairs of a significand and an exponent stand for the same number: they do if both are
multiplied by powers of two that make up for the difference of the exponents. -/
def Same (significand : Nat) (exponent : Int) (significand' : Nat) (exponent' : Int) : Prop :=
  ∀ a b : Nat, (a : Int) - b = exponent - exponent' → significand * 2 ^ a = significand' * 2 ^ b

variable {f : Format} {s q : Nat} {e E : Int}

/-- Standing for the same number is symmetric. -/
theorem Same.symm (h : Same s e q E) : Same q E s e := by
  intro a b hab
  exact (h b a (by omega)).symm

/-- One choice of the powers is enough. -/
theorem same_of_eq {a b : Nat} (hab : (a : Int) - b = e - E) (h : s * 2 ^ a = q * 2 ^ b) :
    Same s e q E := by
  intro a' b' hab'
  rcases Nat.le_total a a' with hle | hle
  · obtain ⟨k, rfl⟩ := Nat.exists_eq_add_of_le hle
    obtain rfl : b' = b + k := by omega
    rw [Nat.pow_add, Nat.pow_add, ← Nat.mul_assoc, ← Nat.mul_assoc, h]
  · obtain ⟨k, rfl⟩ := Nat.exists_eq_add_of_le hle
    obtain rfl : b = b' + k := by omega
    rw [Nat.pow_add, Nat.pow_add, ← Nat.mul_assoc, ← Nat.mul_assoc] at h
    exact Nat.eq_of_mul_eq_mul_right (Nat.two_pow_pos k) h

/-- The highest bit of a number does not depend on how it is written. -/
theorem Same.log2_add (h : Same s e q E) (hs : s ≠ 0) : q ≠ 0 ∧ s.log2 + e = q.log2 + E := by
  have heq := h (e - E).toNat (E - e).toNat (by omega)
  have hq : q ≠ 0 := by
    rintro rfl
    rw [Nat.zero_mul] at heq
    exact Nat.mul_ne_zero hs (Nat.two_pow_pos _).ne' heq
  have hlog := congrArg Nat.log2 heq
  rw [log2_mul_two_pow hs, log2_mul_two_pow hq] at hlog
  exact ⟨hq, by omega⟩

/-- The last place of a number that the format writes is that of its pair. -/
theorem placeExponent_eq (hwrites : f.Writes q E) (h : Same s e q E) (hs : s ≠ 0) :
    f.placeExponent (s * 2 ^ e.toNat) (2 ^ (-e).toNat) = E := by
  obtain ⟨hq, hlog⟩ := h.log2_add hs
  have hlt := hwrites.lt
  have hleast := hwrites.least_le
  have hqlt : q.log2 < f.fractionBits + 1 := (Nat.log2_lt hq).2 hlt
  -- The first guess is the exponent of the pair, or the one below it.
  have hlow : max f.leastExponent (((s * 2 ^ e.toNat).log2 : Int) - (2 ^ (-e).toNat).log2 -
      f.fractionBits - 1) = E ∨
      max f.leastExponent (((s * 2 ^ e.toNat).log2 : Int) - (2 ^ (-e).toNat).log2 -
        f.fractionBits - 1) = E - 1 ∧ 2 ^ f.fractionBits ≤ q := by
    rw [log2_mul_two_pow hs, Nat.log2_two_pow]
    rcases hwrites.normal with hnormal | hsmall
    · have hqge : f.fractionBits ≤ q.log2 := (Nat.le_log2 hq).2 hnormal
      omega
    · omega
  unfold placeExponent
  simp only [scale_eq, Nat.pow_eq, ge_iff_le]
  rcases hlow with hlow | ⟨hlow, hnormal⟩
  · -- At its own exponent the number is the significand, which has not too many bits.
    have hvalue : s * 2 ^ e.toNat * 2 ^ (-E).toNat = q * (2 ^ (-e).toNat * 2 ^ E.toNat) := by
      rw [Nat.mul_assoc, ← Nat.pow_add, ← Nat.pow_add]
      exact h _ _ (by omega)
    rw [hlow, hvalue, Nat.mul_div_cancel _ (Nat.mul_pos (Nat.two_pow_pos _) (Nat.two_pow_pos _)),
      if_neg (Nat.not_le.2 hlt)]
  · -- At the exponent below it is twice the significand, which has one bit too many.
    have hvalue : s * 2 ^ e.toNat * 2 ^ (-(E - 1)).toNat =
        q * 2 * (2 ^ (-e).toNat * 2 ^ (E - 1).toNat) := by
      rw [Nat.mul_assoc, Nat.mul_assoc, ← Nat.pow_add, ← Nat.pow_add, ← Nat.pow_succ']
      exact h _ _ (by omega)
    have hge : 2 ^ (f.fractionBits + 1) ≤ q * 2 := by
      rw [Nat.pow_succ]
      exact Nat.mul_le_mul_right 2 hnormal
    rw [hlow, hvalue, Nat.mul_div_cancel _ (Nat.mul_pos (Nat.two_pow_pos _) (Nat.two_pow_pos _)),
      if_pos hge, Int.sub_add_cancel]

/-- A multiple of the denominator is not rounded. -/
theorem roundDiv_mul (n : Nat) {d : Nat} (h : 0 < d) : roundDiv (n * d) d = n := by
  unfold roundDiv
  rw [Nat.mul_div_cancel _ h, Nat.mul_mod_left]
  exact if_neg (by omega)

/-- The words of pairs are below the word of infinity. -/
theorem magnitude_lt (hwrites : f.Writes q E) : f.magnitude q E < f.infinityWord := by
  have hlt := hwrites.lt
  have hleast := hwrites.least_le
  have hgreatest := hwrites.le_greatest
  have hcast : ((2 ^ f.exponentBits : Nat) : Int) = 2 ^ f.exponentBits := by push_cast; rfl
  have hfield : (E - f.leastExponent).toNat + 2 ≤ 2 ^ f.exponentBits - 1 := by omega
  rw [Nat.pow_succ] at hlt
  calc f.magnitude q E < ((E - f.leastExponent).toNat + 2) * 2 ^ f.fractionBits := by
        rw [magnitude, Nat.add_mul]
        omega
    _ ≤ f.infinityWord := Nat.mul_le_mul_right _ hfield

/-- A number that the format writes is rounded to its word, however it is written as a quotient. -/
theorem round_scale (hwrites : f.Writes q E) (h : Same s e q E) (negative : Bool) :
    f.round negative (scale s 1 (-e)).1 (scale s 1 (-e)).2 = f.word negative q E := by
  simp only [scale_eq, Int.neg_neg, Nat.one_mul]
  unfold round word
  have hmagnitude : (if s * 2 ^ e.toNat = 0 then 0 else
      min f.infinityWord
        ((f.placeExponent (s * 2 ^ e.toNat) (2 ^ (-e).toNat) - f.leastExponent).toNat *
            2 ^ f.fractionBits +
          roundDiv
            (scale (s * 2 ^ e.toNat) (2 ^ (-e).toNat)
              (f.placeExponent (s * 2 ^ e.toNat) (2 ^ (-e).toNat))).1
            (scale (s * 2 ^ e.toNat) (2 ^ (-e).toNat)
              (f.placeExponent (s * 2 ^ e.toNat) (2 ^ (-e).toNat))).2)) = f.magnitude q E := by
    rcases Nat.eq_zero_or_pos s with rfl | hs
    · -- Zero has the least exponent, since its highest bit is not set.
      have hq : q = 0 := by
        have heq := h.symm (E - e).toNat (e - E).toNat (by omega)
        rw [Nat.zero_mul] at heq
        exact (Nat.mul_eq_zero.1 heq).resolve_right (Nat.two_pow_pos _).ne'
      have hleast : E = f.leastExponent := by
        refine hwrites.normal.resolve_left (Nat.not_le.2 ?_)
        rw [hq]
        exact Nat.two_pow_pos _
      simp [magnitude, hq, hleast]
    · have hne : s ≠ 0 := by omega
      have hvalue : s * 2 ^ e.toNat * 2 ^ (-E).toNat = q * (2 ^ (-e).toNat * 2 ^ E.toNat) := by
        rw [Nat.mul_assoc, ← Nat.pow_add, ← Nat.pow_add]
        exact h _ _ (by omega)
      rw [if_neg (Nat.mul_ne_zero hne (Nat.two_pow_pos _).ne'), placeExponent_eq hwrites h hne,
        scale_eq, hvalue,
        roundDiv_mul _ (Nat.mul_pos (Nat.two_pow_pos _) (Nat.two_pow_pos _))]
      exact Nat.min_eq_right (magnitude_lt hwrites).le
  simp only [Nat.pow_eq, hmagnitude]

/-! ## Wider formats -/

/-- Neither field of a format is wider than that of another one. -/
structure Narrower (f g : Format) : Prop where
  /-- The fraction is not wider. -/
  fractionBits_le : f.fractionBits ≤ g.fractionBits
  /-- The exponent is not wider. -/
  exponentBits_le : f.exponentBits ≤ g.exponentBits
  /-- The exponent has room for finite numbers of both kinds. -/
  two_le : 2 ≤ f.exponentBits

variable {g : Format}

/-- The exponents of a narrower format are among those of the wider one. -/
theorem Narrower.leastExponent_le (h : f.Narrower g) : g.leastExponent ≤ f.leastExponent := by
  have hfraction := h.fractionBits_le
  have hexponent := h.exponentBits_le
  have hpow : 2 ^ (f.exponentBits - 1) ≤ 2 ^ (g.exponentBits - 1) :=
    Nat.pow_le_pow_right (by decide) (by omega)
  simp only [leastExponent, Nat.pow_eq]
  omega

/-- The wider format writes each number that the narrower one writes. -/
theorem Narrower.exists_writes (h : f.Narrower g) (hwrites : f.Writes s e) :
    ∃ q E, g.Writes q E ∧ Same s e q E := by
  have hfraction := h.fractionBits_le
  have hexponent := h.exponentBits_le
  have htwo := h.two_le
  have hleast := h.leastExponent_le
  have hleast' := hwrites.least_le
  have hgreatest := hwrites.le_greatest
  have hf : 2 ^ f.exponentBits = 2 * 2 ^ (f.exponentBits - 1) := by
    rw [← Nat.pow_succ']
    congr 1
    omega
  have hg : 2 ^ g.exponentBits = 2 * 2 ^ (g.exponentBits - 1) := by
    rw [← Nat.pow_succ']
    congr 1
    omega
  have hpow : 2 ^ (f.exponentBits - 1) ≤ 2 ^ (g.exponentBits - 1) :=
    Nat.pow_le_pow_right (by decide) (by omega)
  have htwo' : 2 ^ 1 ≤ 2 ^ (f.exponentBits - 1) := Nat.pow_le_pow_right (by decide) (by omega)
  have hcastf : ((2 ^ f.exponentBits : Nat) : Int) = 2 ^ f.exponentBits := by push_cast; rfl
  have hcastg : ((2 ^ g.exponentBits : Nat) : Int) = 2 ^ g.exponentBits := by push_cast; rfl
  simp only [leastExponent, Nat.pow_eq] at hleast hleast' hgreatest
  rcases Nat.eq_zero_or_pos s with rfl | hpos
  · refine ⟨0, g.leastExponent, ⟨Nat.two_pow_pos _, Int.le_refl _, .inr rfl, by omega⟩, ?_⟩
    intro a b _
    rw [Nat.zero_mul, Nat.zero_mul]
  · have hne : s ≠ 0 := by omega
    have hlog : s.log2 < f.fractionBits + 1 := (Nat.log2_lt hne).2 hwrites.lt
    have hlower : 2 ^ s.log2 ≤ s := (Nat.le_log2 hne).1 (Nat.le_refl _)
    have hupper : s < 2 ^ (s.log2 + 1) := (Nat.log2_lt hne).1 (Nat.lt_succ_self _)
    -- The highest bit goes to its place in the wider significand, unless the exponent is too low.
    obtain ⟨E, hE⟩ : ∃ E, E = max g.leastExponent (s.log2 + e - g.fractionBits) := ⟨_, rfl⟩
    simp only [leastExponent, Nat.pow_eq] at hE
    refine ⟨s * 2 ^ (e - E).toNat, E, ⟨?_, ?_, ?_, ?_⟩, ?_⟩
    · calc s * 2 ^ (e - E).toNat < 2 ^ (s.log2 + 1) * 2 ^ (e - E).toNat :=
            Nat.mul_lt_mul_of_pos_right hupper (Nat.two_pow_pos _)
        _ = 2 ^ (s.log2 + 1 + (e - E).toNat) := (Nat.pow_add 2 _ _).symm
        _ ≤ 2 ^ (g.fractionBits + 1) := Nat.pow_le_pow_right (by decide) (by omega)
    · simp only [leastExponent, Nat.pow_eq]
      omega
    · rcases Int.lt_or_le g.leastExponent E with hlt | hle
      · refine .inl ?_
        simp only [leastExponent, Nat.pow_eq] at hlt
        calc 2 ^ g.fractionBits = 2 ^ (s.log2 + (e - E).toNat) := by
              congr 1
              omega
          _ = 2 ^ s.log2 * 2 ^ (e - E).toNat := Nat.pow_add 2 _ _
          _ ≤ s * 2 ^ (e - E).toNat := Nat.mul_le_mul_right _ hlower
      · refine .inr (Int.le_antisymm hle ?_)
        simp only [leastExponent, Nat.pow_eq]
        omega
    · simp only [leastExponent, Nat.pow_eq]
      omega
    · refine same_of_eq (a := (e - E).toNat) (b := 0) ?_ ?_
      · omega
      · rw [Nat.pow_zero, Nat.mul_one]

/-- A finite word that is converted to a wider format and back is the same word. -/
theorem convert_convert (h : f.Narrower g) {w : Nat} (hw : w < 2 * f.signBit) {negative : Bool}
    (hfinite : f.decode w = .finite negative s e) : f.convert g (g.convert f w) = w := by
  obtain ⟨hwrites, hword⟩ := writes_of_decode h.two_le hw hfinite
  obtain ⟨q, E, hwrites', hsame⟩ := h.exists_writes hwrites
  have hwide : g.convert f w = g.word negative q E := by
    unfold convert
    rw [hfinite]
    exact round_scale hwrites' hsame negative
  unfold convert at hwide ⊢
  rw [hwide, decode_word negative hwrites', hword]
  exact round_scale hwrites hsame.symm negative

end Format

namespace Double

/-- Half precision is narrower than double precision. -/
theorem narrower_half : Format.half.Narrower .double := ⟨by decide, by decide, by decide⟩

/-- Single precision is narrower than double precision. -/
theorem narrower_single : Format.single.Narrower .double := ⟨by decide, by decide, by decide⟩

/-- The word of a widened double is the converted word. -/
theorem toNat_bits_widen (f : Format) (w : Nat) :
    (widen f w).bits.toNat = Format.double.convert f w := by
  have hlt := Format.double.convert_lt f w
  have hsize : 2 * Format.double.signBit = 2 ^ 64 := by decide
  exact UInt64.toNat_ofNat_of_lt' (by rw [UInt64.size]; omega)

/-- A word that widens to a finite double is the word of a number. -/
theorem exists_decode_of_isFinite_widen {f : Format} {w : Nat}
    (h : (widen f w).isFinite = true) :
    ∃ negative significand exponent, f.decode w = .finite negative significand exponent := by
  cases hdecode : f.decode w with
  | finite negative significand exponent => exact ⟨_, _, _, rfl⟩
  | nan =>
    have hword : widen f w = ⟨0x7ff8000000000000⟩ := by
      rw [widen, Format.convert, hdecode]
      rfl
    rw [hword] at h
    cases h
  | infinity negative =>
    have hword : widen f w = infinity negative := by
      rw [widen, Format.convert, hdecode]
      cases negative <;> rfl
    rw [hword] at h
    cases negative <;> cases h

/-- The narrower word of a double that some narrower word widens to is this word. -/
theorem narrow?_widen {f : Format} (hf : f.Narrower .double) {w : Nat} (hw : w < 2 * f.signBit)
    (h : (widen f w).isFinite = true) : (widen f w).narrow? f = some w := by
  obtain ⟨negative, significand, exponent, hdecode⟩ := exists_decode_of_isFinite_widen h
  have hback := Format.convert_convert hf hw hdecode
  simp only [narrow?, toNat_bits_widen, hback, if_true]

/-- A double is found as a narrower word exactly if the word widens to it. -/
theorem narrow?_eq_some_iff {f : Format} (hf : f.Narrower .double) {x : FiniteDouble} {w : Nat} :
    x.val.narrow? f = some w ↔ w < 2 * f.signBit ∧ widen f w = x.val := by
  constructor
  · intro hnarrow
    exact ⟨narrow?_lt hnarrow, widen_of_narrow? hnarrow⟩
  · rintro ⟨hw, hwiden⟩
    have hfinite := x.isFinite
    rw [← hwiden] at hfinite ⊢
    exact narrow?_widen hf hw hfinite

end Double

end EntityStore.Binary
