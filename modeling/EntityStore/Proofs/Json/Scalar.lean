import EntityStore.Json.Printer
import EntityStore.Json.Written
import EntityStore.Proofs.Decimal.Natural
import Mathlib.Data.List.Basic

/-!
# Texts and integers are read back from what is written

A quoted text becomes one token, whose pieces are the characters of the text (`read?_quote`,
`text?_pieces`), and the decimal digits of an integer become one token, whose value is the integer
(`read?_intText`, `ofChars?_intText`). Both hold in front of whatever comes next, so they serve the
parts of a longer text as well as a text of their own.
-/

namespace EntityStore.Json

/-! ## Decimal digits -/

namespace Numeral

/-- A digit after digits is one more digit. -/
theorem leadingDigits_append {cs : List Char} {ds : List Nat} {c : Char} {d : Nat}
    (h : leadingDigits cs = (ds, [])) (hc : Decimal.digit? c = some d) :
    leadingDigits (cs ++ [c]) = (ds ++ [d], []) := by
  induction cs generalizing ds with
  | nil =>
    obtain ⟨rfl, -⟩ := Prod.mk.inj h
    simp [leadingDigits, hc]
  | cons c' cs ih =>
    rw [leadingDigits] at h
    split at h
    · next d' hd' =>
      obtain ⟨rfl, htail⟩ := Prod.mk.inj h
      have hrest := ih (Prod.ext rfl htail)
      simp [leadingDigits, hd', hrest]
    · exact absurd (Prod.mk.inj h).2 (List.cons_ne_nil _ _)

/-- The decimal writing of a number consists of digits that write the number, the first of which is
zero only if it is alone. -/
theorem leadingDigits_toDigits (n : Nat) :
    ∃ d ds, leadingDigits (Nat.toDigits 10 n) = (d :: ds, []) ∧ digitsNumber (d :: ds) = n ∧
      (d = 0 → ds = []) := by
  induction n using Nat.strongRecOn with
  | ind n ih =>
    by_cases hlt : n < 10
    · -- A single digit, which may be zero.
      refine ⟨n, [], ?_, by simp [digitsNumber], fun _ => rfl⟩
      rw [Nat.toDigits_of_lt_base hlt]
      simp [leadingDigits, Decimal.digit?_digitChar hlt]
    · -- The digits of the quotient, and the remainder as the last digit.
      obtain ⟨d, ds, hdigits, hnumber, hzero⟩ := ih (n / 10) (by omega)
      refine ⟨d, ds ++ [n % 10], ?_, ?_, ?_⟩
      · rw [Nat.toDigits_of_base_le (by decide) (by omega)]
        exact leadingDigits_append hdigits (Decimal.digit?_digitChar (Nat.mod_lt n (by decide)))
      · unfold digitsNumber at hnumber ⊢
        rw [← List.cons_append, List.foldl_append, hnumber]
        simp only [List.foldl_cons, List.foldl_nil]
        omega
      · intro hd
        -- A leading zero would stand alone for a quotient that is not zero.
        obtain rfl := hzero hd
        simp only [digitsNumber, List.foldl_cons, List.foldl_nil, hd] at hnumber
        omega

/-- Digits are read as a numeral with the sign that stands before them, if a leading zero is
alone. -/
theorem ofChars?_digits {cs : List Char} {d : Nat} {ds : List Nat}
    (hdigits : leadingDigits cs = (d :: ds, [])) (hzero : d = 0 → ds = []) :
    ofChars? cs = some ⟨false, d :: ds, none, none⟩ ∧
      ofChars? ('-' :: cs) = some ⟨true, d :: ds, none, none⟩ := by
  -- What begins with a digit does not begin with a sign.
  have hsign : ∀ rest, cs ≠ '-' :: rest := by
    rintro rest rfl
    exact absurd (Prod.mk.inj hdigits).1 (List.cons_ne_nil d ds).symm
  unfold ofChars?
  simp only [hdigits]
  cases ds with
  | nil => cases d <;> exact ⟨rfl, rfl⟩
  | cons d' ds =>
    cases d with
    | zero => exact absurd (hzero rfl) (List.cons_ne_nil _ _)
    | succ d => exact ⟨rfl, rfl⟩

/-- The writing of an integer is read as a numeral that has the integer as its value. -/
theorem ofChars?_intText (n : WideInt) :
    ∃ numeral, ofChars? (Decimal.intText n.val).toList = some numeral ∧
      numeral.intValue? = some n := by
  have hwide : WideInt.ofInt? n.val = some n := dif_pos ⟨n.lower, n.upper⟩
  cases hval : n.val with
  | ofNat k =>
    obtain ⟨d, ds, hdigits, hnumber, hzero⟩ := leadingDigits_toDigits k
    refine ⟨⟨false, d :: ds, none, none⟩, ?_, ?_⟩
    · rw [Decimal.intText, Decimal.toText, String.toList_ofList]
      exact (ofChars?_digits hdigits hzero).1
    · rw [hval] at hwide
      simpa [intValue?, hnumber] using hwide
  | negSucc k =>
    obtain ⟨d, ds, hdigits, hnumber, hzero⟩ := leadingDigits_toDigits (k + 1)
    refine ⟨⟨true, d :: ds, none, none⟩, ?_, ?_⟩
    · rw [Decimal.intText, Decimal.toText, String.toList_append]
      simpa using (ofChars?_digits hdigits hzero).2
    · rw [hval] at hwide
      simpa [intValue?, hnumber, Int.negSucc_eq] using hwide

end Numeral

/-! ## Integers as tokens -/

namespace Token

/-- The characters of an integer are those of numerals. -/
theorem inNumeral_of_mem_intText {n : Int} {c : Char} (h : c ∈ (Decimal.intText n).toList) :
    inNumeral c = true := by
  have hdigits : ∀ {k}, c ∈ Nat.toDigits 10 k → inNumeral c = true := by
    intro k hmem
    have hdigit := Nat.isDigit_of_mem_toDigits (by decide) (by decide) hmem
    have hrange : '0' ≤ c ∧ c ≤ '9' := by
      simpa [Char.isDigit, Char.le_def] using hdigit
    simp [inNumeral, hrange.1, hrange.2]
  cases n with
  | ofNat k =>
    rw [Decimal.intText, Decimal.toText, String.toList_ofList] at h
    exact hdigits h
  | negSucc k =>
    rw [Decimal.intText, Decimal.toText, String.toList_append, String.toList_ofList] at h
    rcases List.mem_append.1 h with h | h
    · obtain rfl : c = '-' := by simpa using h
      rfl
    · exact hdigits (String.toList_ofList ▸ h)

/-- Characters of a numeral continue it. -/
theorem read?_numeral {cs : List Char} (h : ∀ c ∈ cs, inNumeral c = true) (read : List Char)
    (tokens : List Token) (rest : List Char) :
    read? (.numeral read) tokens (cs ++ rest) =
      read? (.numeral (cs.reverse ++ read)) tokens rest := by
  induction cs generalizing read with
  | nil => rfl
  | cons c cs ih =>
    have hc := h c List.mem_cons_self
    rw [List.cons_append, read?, step?, if_pos hc]
    simp [ih fun c hc => h c (List.mem_cons_of_mem _ hc)]

/-- A character of numerals begins one. -/
theorem begin?_of_inNumeral {c : Char} (h : inNumeral c = true) (tokens : List Token) :
    begin? tokens c = some (.numeral [c], tokens) := by
  unfold begin?
  split <;> first | exact absurd h (by decide) | rw [if_pos h]

/-- The characters of an integer are read as a numeral. -/
theorem read?_intText (n : Int) (tokens : List Token) (rest : List Char) :
    read? .gap tokens ((Decimal.intText n).toList ++ rest) =
      read? (.numeral (Decimal.intText n).toList.reverse) tokens rest := by
  have hchars := fun c => inNumeral_of_mem_intText (n := n) (c := c)
  cases htext : (Decimal.intText n).toList with
  | nil =>
    cases n <;> simp [Decimal.intText, Decimal.toText, Nat.toDigits_ne_nil] at htext
  | cons c cs =>
    rw [htext] at hchars
    rw [List.cons_append, read?, step?, begin?_of_inNumeral (hchars c List.mem_cons_self)]
    simp [read?_numeral fun c hc => hchars c (List.mem_cons_of_mem _ hc)]

/-- A character that cannot continue a numeral ends it. -/
theorem read?_numeral_end {read : List Char} {numeral : Numeral} {c : Char}
    (hread : Numeral.ofChars? read.reverse = some numeral) (hc : inNumeral c = false)
    (tokens : List Token) (rest : List Char) :
    read? (.numeral read) tokens (c :: rest) =
      read? .gap (.numeral numeral :: tokens) (c :: rest) := by
  simp [read?, step?, hread, hc]

/-- An integer on its own is one token, which has the integer as its value. -/
theorem ofChars?_intText (n : WideInt) :
    ∃ numeral, ofChars? (Decimal.intText n.val).toList = some [.numeral numeral] ∧
      numeral.intValue? = some n := by
  obtain ⟨numeral, hread, hvalue⟩ := Numeral.ofChars?_intText n
  refine ⟨numeral, ?_, hvalue⟩
  have hchars := read?_intText n.val [] []
  rw [List.append_nil] at hchars
  rw [ofChars?, hchars]
  simp [read?, finish?, hread]

end Token

/-! ## Quoted texts as tokens -/

/-- The piece that a character of a quoted text is written as: a UTF-16 unit if it is a control
character without a short escape. -/
def Piece.ofChar (c : Char) : Piece :=
  if c.toNat < 0x20 ∧ c ∉ ['\x08', '\t', '\n', '\x0c', '\r'] then .unit c.toNat else .char c

/-- The pieces of characters write the characters. -/
theorem Piece.chars?_ofChar (cs : List Char) : Piece.chars? (cs.map ofChar) = some cs := by
  induction cs with
  | nil => rfl
  | cons c cs ih =>
    rw [List.map_cons, ofChar]
    split
    · next hcontrol =>
      -- The unit of a control character is not half of a surrogate pair.
      have hlow := hcontrol.1
      have hhigh : ¬(0xD800 ≤ c.toNat ∧ c.toNat < 0xDC00) := by omega
      have hpair : ¬(0xDC00 ≤ c.toNat ∧ c.toNat < 0xE000) := by omega
      unfold chars?
      simp [hhigh, hpair, ih, Char.ofNat_toNat]
    · simp [chars?, ih]

/-- The pieces of a text write the text. -/
theorem Piece.text?_ofChar (s : String) : Piece.text? (s.toList.map ofChar) = some s := by
  rw [text?, chars?_ofChar]
  simp

namespace Token

/-- A digit of base sixteen has its value. -/
theorem hexValue?_hexDigit {d : Nat} (h : d < 16) : hexValue? (hexDigit d) = some d := by
  have hall : ∀ d < 16, hexValue? (hexDigit d) = some d := by decide
  exact hall d h

/-- A character as it stands in a quoted text is read as its piece. -/
theorem read?_escape (c : Char) (read : List Piece) (tokens : List Token) (rest : List Char) :
    read? (.text read) tokens (escape c ++ rest) =
      read? (.text (.ofChar c :: read)) tokens rest := by
  unfold escape
  split_ifs with hquote hbackslash hb ht hn hf hr hcontrol
  · subst hquote; rfl
  · subst hbackslash; rfl
  · subst hb; rfl
  · subst ht; rfl
  · subst hn; rfl
  · subst hf; rfl
  · subst hr; rfl
  · -- Another control character: two zeros and two digits that write its number.
    have hhigh := hexValue?_hexDigit (d := c.toNat / 16) (by omega)
    have hlow := hexValue?_hexDigit (d := c.toNat % 16) (by omega)
    have hzero : hexValue? '0' = some 0 := rfl
    have hcode : 16 * (c.toNat / 16) + c.toNat % 16 = c.toNat := by omega
    have hpiece : Piece.ofChar c = .unit c.toNat := by
      simp [Piece.ofChar, hcontrol, hb, ht, hn, hf, hr]
    simp [read?, step?, hhigh, hlow, hzero, hcode, hpiece]
  · -- A character that stands for itself.
    have hpiece : Piece.ofChar c = .char c := by simp [Piece.ofChar, hcontrol]
    simp [read?, step?, hquote, hbackslash, hcontrol, hpiece]

/-- The characters of a quoted text and the quote after them end a token that has their pieces. -/
theorem read?_flatMap_escape (cs : List Char) (read : List Piece) (tokens : List Token)
    (rest : List Char) :
    read? (.text read) tokens (cs.flatMap escape ++ ('"' :: rest)) =
      read? .gap (.text (read.reverse ++ cs.map .ofChar) :: tokens) rest := by
  induction cs generalizing read with
  | nil => simp [read?, step?]
  | cons c cs ih =>
    rw [List.flatMap_cons, List.append_assoc, read?_escape, ih]
    simp

/-- A quoted text is read as one token. -/
theorem read?_quote (s : String) (tokens : List Token) (rest : List Char) :
    read? .gap tokens (quote s ++ rest) =
      read? .gap (.text (s.toList.map .ofChar) :: tokens) rest := by
  rw [quote, List.cons_append, List.append_assoc, read?]
  exact read?_flatMap_escape s.toList [] tokens rest

end Token

end EntityStore.Json
