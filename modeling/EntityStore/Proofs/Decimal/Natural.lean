import EntityStore.Policy
import EntityStore.Proofs.Text.Trim
import Mathlib.Data.Nat.Digits.Lemmas
import Mathlib.Tactic.Ring

/-!
# Numbers in texts

`Decimal.Writes` says which texts write a number: an optional plus sign and one or more ASCII
digits, with any number of leading zeros, whose value is the sum of the digits times the powers of
ten. `Decimal.natural?` reads exactly these texts, as long as the number is below its bound
(`natural?_eq_some_iff`), so it never wraps. What `Decimal.toText` gives writes the number
(`writes_toText`), and has no blanks around it.

Timeouts are such numbers below `2 ^ 32`, with blanks around them (`Policy.timeoutOfText_eq`).
-/

namespace EntityStore

namespace Decimal

/-- The characters write a number: they are one or more digits that have the number as their value
in base ten, perhaps after a plus sign. -/
def Writes (cs : List Char) (n : Nat) : Prop :=
  ∃ digits : List Nat, digits ≠ [] ∧ (∀ d ∈ digits, d < 10) ∧ Nat.ofDigits 10 digits.reverse = n ∧
    (cs = digits.map Nat.digitChar ∨ cs = '+' :: digits.map Nat.digitChar)

/-! ## Reading digits -/

/-- The character of a digit stands for the digit. -/
theorem digit?_digitChar {d : Nat} (h : d < 10) : digit? d.digitChar = some d := by
  -- There are ten cases, which are decided at once.
  have hall : ∀ d < 10, digit? d.digitChar = some d := by decide
  exact hall d h

/-- No other character stands for a digit. -/
theorem eq_digitChar_of_digit? {c : Char} {d : Nat} (h : digit? c = some d) :
    d < 10 ∧ c = d.digitChar := by
  unfold digit? at h
  split at h
  · next hrange =>
    have hlow : 48 ≤ c.toNat := hrange.1
    have hhigh : c.toNat ≤ 57 := hrange.2
    obtain rfl : c.toNat - 48 = d := Option.some.inj h
    have hd : c.toNat - 48 < 10 := by omega
    refine ⟨hd, Char.toNat_inj.1 ?_⟩
    rw [Nat.toNat_digitChar_of_lt_ten hd]
    omega
  · cases h

/-- One more digit in front adds its multiple of a power of ten. -/
theorem ofDigits_reverse_cons (d : Nat) (digits : List Nat) :
    Nat.ofDigits 10 (d :: digits).reverse =
      Nat.ofDigits 10 digits.reverse + 10 ^ digits.length * d := by
  rw [List.reverse_cons, Nat.ofDigits_append, Nat.ofDigits_singleton, List.length_reverse]

/-- A run of digits is read as its value, after the number that was read before it. -/
theorem digitsValue?_map (digits : List Nat) (h : ∀ d ∈ digits, d < 10) (read : Nat) :
    digitsValue? read (digits.map Nat.digitChar) =
      some (Nat.ofDigits 10 digits.reverse + 10 ^ digits.length * read) := by
  induction digits generalizing read with
  | nil => simp [digitsValue?]
  | cons d digits ih =>
    rw [List.map_cons, digitsValue?, digit?_digitChar (h d List.mem_cons_self)]
    simp only
    rw [ih (fun d hd => h d (List.mem_cons_of_mem _ hd)), ofDigits_reverse_cons, List.length_cons]
    congr 1
    ring

/-- Only runs of digits are read. -/
theorem exists_digits_of_digitsValue? {cs : List Char} {read n : Nat}
    (h : digitsValue? read cs = some n) :
    ∃ digits : List Nat, (∀ d ∈ digits, d < 10) ∧ cs = digits.map Nat.digitChar := by
  induction cs generalizing read with
  | nil => exact ⟨[], nofun, rfl⟩
  | cons c cs ih =>
    rw [digitsValue?] at h
    split at h
    · next d hd =>
      obtain ⟨hlt, rfl⟩ := eq_digitChar_of_digit? hd
      obtain ⟨digits, hdigits, rfl⟩ := ih h
      exact ⟨d :: digits, List.forall_mem_cons.2 ⟨hlt, hdigits⟩, rfl⟩
    · cases h

/-! ## Reading numbers -/

/-- No digit is a plus sign. -/
theorem digitChar_ne_plus {d : Nat} (h : d < 10) : d.digitChar ≠ '+' := by
  have hall : ∀ d < 10, Nat.digitChar d ≠ '+' := by decide
  exact hall d h

/-- Digits have no plus sign to skip. -/
theorem skipPlus_map {digits : List Nat} (h : ∀ d ∈ digits, d < 10) :
    skipPlus (digits.map Nat.digitChar) = digits.map Nat.digitChar := by
  cases digits with
  | nil => rfl
  | cons d digits =>
    unfold skipPlus
    split
    · next hplus =>
      exact absurd (List.cons.inj hplus).1 (digitChar_ne_plus (h d List.mem_cons_self))
    · rfl

/-- What is skipped is one plus sign, if anything is. -/
theorem eq_or_eq_of_skipPlus (cs : List Char) : cs = skipPlus cs ∨ cs = '+' :: skipPlus cs := by
  unfold skipPlus
  split
  · exact .inr rfl
  · exact .inl rfl

/-- A text writes a number exactly if what follows an optional plus sign is a run of digits with
this value. -/
theorem writes_iff {cs : List Char} {n : Nat} :
    Writes cs n ↔ skipPlus cs ≠ [] ∧ digitsValue? 0 (skipPlus cs) = some n := by
  constructor
  · rintro ⟨digits, hne, hdigits, rfl, hcs⟩
    have hskip : skipPlus cs = digits.map Nat.digitChar := by
      rcases hcs with rfl | rfl
      · exact skipPlus_map hdigits
      · rfl
    rw [hskip, digitsValue?_map digits hdigits, Nat.mul_zero, Nat.add_zero]
    exact ⟨fun hnil => hne (List.map_eq_nil_iff.1 hnil), rfl⟩
  · rintro ⟨hne, hvalue⟩
    obtain ⟨digits, hdigits, hskip⟩ := exists_digits_of_digitsValue? hvalue
    rw [hskip, digitsValue?_map digits hdigits, Nat.mul_zero, Nat.add_zero] at hvalue
    refine ⟨digits, ?_, hdigits, Option.some.inj hvalue, hskip ▸ eq_or_eq_of_skipPlus cs⟩
    rintro rfl
    exact hne hskip

/-- A number is read exactly from the texts that write it, if it is below the bound. -/
theorem natural?_eq_some_iff {bound n : Nat} {cs : List Char} :
    natural? bound cs = some n ↔ Writes cs n ∧ n < bound := by
  rw [writes_iff, natural?]
  cases skipPlus cs with
  | nil => simp
  | cons c rest => simp [Option.filter_eq_some_iff]

/-- Nothing is read from a text that writes no number below the bound. -/
theorem natural?_eq_none_iff {bound : Nat} {cs : List Char} :
    natural? bound cs = none ↔ ∀ n < bound, ¬Writes cs n := by
  simp only [Option.eq_none_iff_forall_ne_some, ne_eq, natural?_eq_some_iff]
  exact ⟨fun h n hlt hwrites => h n ⟨hwrites, hlt⟩, fun h n hn => h n hn.2 hn.1⟩

/-! ## Writing numbers -/

/-- The characters that a number is written with are its digits. -/
theorem exists_digits_of_toDigits (n : Nat) :
    ∃ digits : List Nat, digits ≠ [] ∧ (∀ d ∈ digits, d < 10) ∧
      Nat.ofDigits 10 digits.reverse = n ∧ Nat.toDigits 10 n = digits.map Nat.digitChar := by
  induction n using Nat.strongRecOn with
  | ind n ih =>
    by_cases hlt : n < 10
    · exact ⟨[n], List.cons_ne_nil _ _, by simpa using hlt, by simp, Nat.toDigits_of_lt_base hlt⟩
    · -- The digits of the quotient, and the remainder as the last digit.
      obtain ⟨digits, -, hdigits, hvalue, hchars⟩ := ih (n / 10) (by omega)
      have hlast : n % 10 < 10 := Nat.mod_lt n (by decide)
      refine ⟨digits ++ [n % 10], by simp, ?_, ?_, ?_⟩
      · intro d hd
        rcases List.mem_append.1 hd with hd | hd
        · exact hdigits d hd
        · obtain rfl := List.mem_singleton.1 hd
          exact hlast
      · rw [List.reverse_concat, Nat.ofDigits_cons, hvalue]
        exact Nat.mod_add_div n 10
      · rw [Nat.toDigits_of_base_le (by decide) (by omega), hchars, List.map_append,
          List.map_singleton]

/-- A number is written by its own digits. -/
theorem writes_toText (n : Nat) : Writes (toText n).toList n := by
  obtain ⟨digits, hne, hdigits, hvalue, hchars⟩ := exists_digits_of_toDigits n
  exact ⟨digits, hne, hdigits, hvalue, .inl (by rw [toText, String.toList_ofList, hchars])⟩

/-- The digits of a number have no blanks around them. -/
theorem trims_toText (n : Nat) : Text.Trims (toText n) (toText n) := by
  have hblank : ∀ d < 10, Text.isBlank (Nat.digitChar d) = false := by decide
  obtain ⟨digits, -, hdigits, -, hchars⟩ := exists_digits_of_toDigits n
  refine Text.trims_self fun c hc => ?_
  rw [toText, String.toList_ofList, hchars] at hc
  obtain ⟨d, hd, rfl⟩ := List.mem_map.1 hc
  exact hblank d (hdigits d hd)

/-- A text is read without the blanks around it. -/
theorem natural?_trimChars {text core : String} (h : Text.Trims text core) (bound : Nat) :
    natural? bound (Text.trimChars text.toList) = natural? bound core.toList := by
  rw [h.eq_trim, Text.trim, String.toList_ofList]

end Decimal

/-! ## Timeouts -/

namespace Policy

/-- The time limit of a text that writes a number below `2 ^ 32` is this number, and that of any
other text is zero; blanks around the number do not count. So a number is read back from its own
digits. -/
theorem timeoutOfText_eq {text core : String} (htrims : Text.Trims text core) :
    (∀ n < 2 ^ 32, Decimal.Writes core.toList n → (timeoutOfText text).toNat = n) ∧
      ((∀ n < 2 ^ 32, ¬Decimal.Writes core.toList n) → timeoutOfText text = 0) ∧
      ∀ n < 2 ^ 32, (timeoutOfText (Decimal.toText n)).toNat = n := by
  have hread {text core : String} (htrims : Text.Trims text core) {n : Nat} (hlt : n < 2 ^ 32)
      (hwrites : Decimal.Writes core.toList n) : (timeoutOfText text).toNat = n := by
    have hnumber : Decimal.natural? UInt32.size core.toList = some n :=
      Decimal.natural?_eq_some_iff.2 ⟨hwrites, hlt⟩
    rw [timeoutOfText, Decimal.natural?_trimChars htrims, hnumber]
    exact UInt32.toNat_ofNat_of_lt' hlt
  refine ⟨fun n hlt hwrites => hread htrims hlt hwrites, fun hnone => ?_, fun n hlt => ?_⟩
  · have hnumber : Decimal.natural? UInt32.size core.toList = none :=
      Decimal.natural?_eq_none_iff.2 hnone
    rw [timeoutOfText, Decimal.natural?_trimChars htrims, hnumber]
  · exact hread (Decimal.trims_toText n) hlt (Decimal.writes_toText n)

/-- The greatest time limit, with leading zeros, a plus sign and blanks, is read as it is, and the
next number is not read. -/
theorem timeoutOfText_eq_greatest :
    Text.Trims " \u2003+004294967295\n" "+004294967295" ∧
      Decimal.Writes "+004294967295".toList 4294967295 ∧
      (timeoutOfText " \u2003+004294967295\n").toNat = 4294967295 ∧
      Text.Trims "4294967296" "4294967296" ∧ timeoutOfText "4294967296" = 0 := by
  have htrims : Text.Trims " \u2003+004294967295\n" "+004294967295" :=
    ⟨⟨[' ', '\u2003'], ['\n'], rfl, by simp [Text.isBlank], by simp [Text.isBlank]⟩,
      by simp [Text.isBlank], by simp [Text.isBlank]⟩
  have hwrites : Decimal.Writes "+004294967295".toList 4294967295 :=
    ⟨[0, 0, 4, 2, 9, 4, 9, 6, 7, 2, 9, 5], by decide, by decide, by decide, .inr rfl⟩
  have hnext : Text.Trims "4294967296" "4294967296" := Decimal.trims_toText 4294967296
  have hnone : ∀ n < 2 ^ 32, ¬Decimal.Writes "4294967296".toList n :=
    Decimal.natural?_eq_none_iff.1 rfl
  exact ⟨htrims, hwrites, (timeoutOfText_eq htrims).1 _ (by decide) hwrites, hnext,
    (timeoutOfText_eq hnext).2.1 hnone⟩

end Policy

end EntityStore
