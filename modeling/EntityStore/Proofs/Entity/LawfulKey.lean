import EntityStore.Entity.User
import EntityStore.Proofs.Json.Scalar

/-!
# Keys are read back from their digests

A store knows a key by its digest alone, so two keys must not have the same digest, and a query must
find the key again. Both follow from `LawfulKey`: a key is read back from its own digest. All types
of keys have it: texts, the four kinds of words, and the keys of users.
-/

namespace EntityStore

/-- The keys of a type are read back from their digests. -/
class LawfulKey (κ : Type) [Key κ] : Prop where
  /-- A key is read back from its digest. -/
  ofDigest_digest : ∀ key : κ, Key.ofDigest (Key.digest key) = .ok key

/-- Different keys have different digests. -/
theorem LawfulKey.digest_inj {κ : Type} [Key κ] [LawfulKey κ] {key key' : κ} :
    Key.digest key = Key.digest key' ↔ key = key' := by
  constructor
  · intro h
    have hread := ofDigest_digest key
    rw [h, ofDigest_digest] at hread
    exact (Except.ok.inj hread).symm
  · rintro rfl
    rfl

/-! ## Texts and words -/

namespace Json.Written

/-- The compact text of a JSON text writes its pieces. -/
theorem ofText?_string (s : String) :
    ofText? (Json.string s).compact = some (.text (s.toList.map .ofChar)) := by
  have htokens := Token.read?_quote s [] []
  rw [List.append_nil] at htokens
  rw [ofText?, compact, String.toList_ofList, compactChars, Token.ofChars?, htokens]
  rfl

/-- The compact text of a JSON integer writes the integer. -/
theorem ofText?_int (n : WideInt) :
    ∃ written, ofText? (Json.int n).compact = some written ∧ written.toInt? = some n.val := by
  obtain ⟨numeral, htokens, hvalue⟩ := Token.ofChars?_intText n
  refine ⟨.numeral numeral, ?_, by rw [toInt?, hvalue]; rfl⟩
  rw [ofText?, compact, String.toList_ofList, compactChars, htokens]
  rfl

end Json.Written

/-- A key whose written form is read back is read back from its digest. -/
theorem Key.ofDigest_digest_of_written {κ : Type} [Key κ] {key : κ} {written : Json.Written}
    (htext : Json.Written.ofText? (Key.digest key) = some written)
    (hkey : Key.ofWritten? written = some key) : Key.ofDigest (Key.digest key) = .ok key := by
  rw [ofDigest, htext, Option.bind_some, hkey]

/-- An integer key is read back if its written integer is read as the key. -/
theorem Key.ofDigest_digest_of_int {κ : Type} [Key κ] {key : κ} {n : WideInt}
    (hjson : Key.toJson key = .int n)
    (hread : ∀ written : Json.Written, written.toInt? = some n.val →
      Key.ofWritten? written = some key) :
    Key.ofDigest (Key.digest key) = .ok key := by
  obtain ⟨written, htext, hvalue⟩ := Json.Written.ofText?_int n
  rw [← hjson] at htext
  exact ofDigest_digest_of_written htext (hread written hvalue)

instance : LawfulKey String where
  ofDigest_digest s :=
    Key.ofDigest_digest_of_written (Json.Written.ofText?_string s) (Json.Piece.text?_ofChar s)

/-- A key that is read from the integers of a range is read from an integer in it. -/
theorem Key.ofWritten?_of_range {κ : Type} [Key κ] {lower upper : Int} {ofInt : Int → κ}
    (hread : ∀ written : Json.Written, Key.ofWritten? written = written.toInt?.bind fun n =>
      if lower ≤ n ∧ n < upper then some (ofInt n) else none)
    {written : Json.Written} {n : Int} (h : written.toInt? = some n) (hlower : lower ≤ n)
    (hupper : n < upper) : Key.ofWritten? written = some (ofInt n) := by
  rw [hread, h, Option.bind_some, if_pos ⟨hlower, hupper⟩]

/-- An unsigned word of 64 bits is read from its integer. -/
theorem ofWritten?_uint64 {n : UInt64} {written : Json.Written}
    (h : written.toInt? = some (n.toNat : Int)) :
    (Key.ofWritten? written : Option UInt64) = some n := by
  have hlt := n.toNat_lt
  rw [Key.ofWritten?_of_range (fun _ => rfl) h (by omega) (by omega), Int.toNat_natCast,
    UInt64.ofNat_toNat]

instance : LawfulKey UInt64 where
  ofDigest_digest n :=
    Key.ofDigest_digest_of_int (n := .ofUInt64 n) rfl fun _ => ofWritten?_uint64

instance : LawfulKey UInt32 where
  ofDigest_digest n := by
    refine Key.ofDigest_digest_of_int (n := .ofUInt64 n.toUInt64) rfl fun written h => ?_
    have hlt := n.toNat_lt
    simp only [WideInt.ofUInt64, UInt32.toNat_toUInt64] at h
    rw [Key.ofWritten?_of_range (fun _ => rfl) h (by omega) (by omega), Int.toNat_natCast,
      UInt32.ofNat_toNat]

instance : LawfulKey Int64 where
  ofDigest_digest n := by
    refine Key.ofDigest_digest_of_int (n := .ofInt64 n) rfl fun written h => ?_
    rw [Key.ofWritten?_of_range (fun _ => rfl) h n.le_toInt n.toInt_lt]
    exact congrArg some (Int64.ofInt_toInt n)

instance : LawfulKey Int32 where
  ofDigest_digest n := by
    refine Key.ofDigest_digest_of_int (n := .ofInt64 n.toInt64) rfl fun written h => ?_
    simp only [WideInt.ofInt64, Int32.toInt_toInt64] at h
    rw [Key.ofWritten?_of_range (fun _ => rfl) h n.le_toInt n.toInt_lt, Int32.ofInt_toInt]

/-! ## Keys of users -/

/-- The digest of a user's key writes its two parts. -/
theorem ofText?_digest_userKey (key : UserKey) :
    ∃ id : Json.Written, id.toInt? = some (key.id.toNat : Int) ∧
      Json.Written.ofText? (Key.digest key) = some (.object [
        ("tenant".toList.map .ofChar, .text (key.tenant.toList.map .ofChar)),
        ("id".toList.map .ofChar, id)]) := by
  obtain ⟨numeral, hread, hvalue⟩ := Json.Numeral.ofChars?_intText (.ofUInt64 key.id)
  refine ⟨.numeral numeral, by rw [Json.Written.toInt?, hvalue]; rfl, ?_⟩
  have htokens : Json.Token.ofChars? (Key.digest key).toList = some [.openBrace,
      .text ("tenant".toList.map .ofChar), .colon, .text (key.tenant.toList.map .ofChar), .comma,
      .text ("id".toList.map .ofChar), .colon, .numeral numeral, .closeBrace] := by
    rw [Key.digest, Json.compact, String.toList_ofList]
    -- Between the texts there is one character of punctuation, which is read by itself.
    simp only [Key.toJson, Json.compactChars, Json.compactMembers, List.append_assoc,
      List.cons_append, Json.Token.ofChars?]
    rw [Json.Token.read?]
    show Json.Token.read? .gap [.openBrace] _ = _
    rw [Json.Token.read?_quote, Json.Token.read?]
    show Json.Token.read? .gap _ _ = _
    rw [Json.Token.read?_quote, Json.Token.read?]
    show Json.Token.read? .gap _ _ = _
    rw [Json.Token.read?_quote, Json.Token.read?]
    show Json.Token.read? .gap _ _ = _
    rw [Json.Token.read?_intText]
    -- The closing brace ends the numeral.
    have hend : Json.Numeral.ofChars?
        (Decimal.intText (WideInt.ofUInt64 key.id).val).toList.reverse.reverse = some numeral := by
      rw [List.reverse_reverse, hread]
    rw [Json.Token.read?_numeral_end hend rfl]
    rfl
  rw [Json.Written.ofText?, htokens]
  rfl

instance : LawfulKey UserKey where
  ofDigest_digest key := by
    obtain ⟨id, hid, htext⟩ := ofText?_digest_userKey key
    refine Key.ofDigest_digest_of_written htext ?_
    have htenant := Json.Piece.text?_ofChar key.tenant
    have hparts : Json.Written.parts? ["tenant", "id"] (.object [
        ("tenant".toList.map .ofChar, .text (key.tenant.toList.map .ofChar)),
        ("id".toList.map .ofChar, id)]) =
        some [.text (key.tenant.toList.map .ofChar), id] := by
      rw [Json.Written.parts?, Json.Written.select?]
      simp only [List.mapM_cons, List.mapM_nil, Json.Piece.text?_ofChar]
      rfl
    have hread (w : Json.Written) : (Key.ofWritten? w : Option UserKey) =
        match w.parts? ["tenant", "id"] with
        | some [tenant, id] => do some ⟨← tenant.toText?, ← Key.ofWritten? id⟩
        | _ => none := rfl
    rw [hread, hparts]
    simp [Json.Written.toText?, htenant, ofWritten?_uint64 hid]

end EntityStore
