import EntityStore.Text.Blank
import Mathlib.Data.List.DropRight

/-!
# Texts without the blanks around them

`Text.Trims` says what it is to be a text without the blanks around it, and `Text.trim` gives one
(`Text.trims_trim`), and there is no other (`Text.Trims.eq_trim`). It is empty only if the text was
nothing but blanks. So an optional text is present with a text that is not empty and has no blanks
around it (`Text.present?_eq_some_iff`, `Text.trim_ne_empty`).
-/

namespace EntityStore.Text

/-- The second text is the first one without the blanks at either end. -/
structure Trims (text core : String) : Prop where
  /-- Only blanks are missing. -/
  around : ∃ before after, text.toList = before ++ core.toList ++ after ∧
    (∀ c ∈ before, isBlank c = true) ∧ ∀ c ∈ after, isBlank c = true
  /-- It does not begin with a blank. -/
  first : ∀ c, core.toList.head? = some c → isBlank c = false
  /-- It does not end with a blank. -/
  last : ∀ c, core.toList.getLast? = some c → isBlank c = false

/-- The blanks at the left end are dropped first, and then those at the right end. -/
theorem toList_trim (text : String) :
    (trim text).toList = (text.toList.dropWhile isBlank).rdropWhile isBlank := by
  rw [trim, String.toList_ofList]
  rfl

/-- A text is trimmed by dropping the blanks at either end. -/
theorem trims_trim (text : String) : Trims text (trim text) := by
  refine ⟨⟨text.toList.takeWhile isBlank, (text.toList.dropWhile isBlank).rtakeWhile isBlank, ?_,
    fun c hc => List.mem_takeWhile_imp hc, fun c hc => List.mem_rtakeWhile_imp hc⟩, ?_, ?_⟩
  · rw [toList_trim, List.append_assoc, List.rdropWhile_append_rtakeWhile,
      List.takeWhile_append_dropWhile]
  · intro c hc
    rw [toList_trim] at hc
    -- What is left at the right end begins as the rest does that does not begin with a blank.
    obtain ⟨after, hafter⟩ := List.rdropWhile_prefix isBlank (l := text.toList.dropWhile isBlank)
    have hhead := List.head?_dropWhile_not isBlank text.toList
    rwa [← hafter, List.head?_append, hc, Option.some_or] at hhead
  · intro c hc
    rw [toList_trim] at hc
    have hne : (text.toList.dropWhile isBlank).rdropWhile isBlank ≠ [] := by
      intro hnil
      rw [hnil] at hc
      cases hc
    rw [← List.getLast_of_getLast?_eq_some hc]
    exact Bool.eq_false_iff.2 (List.rdropWhile_last_not isBlank _ hne)

/-- Blanks at the left end are dropped up to a text that does not begin with one. -/
theorem dropWhile_append_of_first {before core : List Char}
    (hbefore : ∀ c ∈ before, isBlank c = true)
    (hfirst : ∀ c, core.head? = some c → isBlank c = false) :
    (before ++ core).dropWhile isBlank = core := by
  rw [List.dropWhile_append_of_pos hbefore]
  cases core with
  | nil => rfl
  | cons c rest => exact List.dropWhile_cons_of_neg (Bool.eq_false_iff.1 (hfirst c rfl))

/-- There is only one text without the blanks around a text. -/
theorem Trims.eq_trim {text core : String} (h : Trims text core) : core = trim text := by
  obtain ⟨⟨before, after, hsplit, hbefore, hafter⟩, hfirst, hlast⟩ := h
  apply String.toList_inj.1
  rw [toList_trim, hsplit, List.append_assoc]
  cases hcore : core.toList with
  | nil =>
    rw [List.nil_append, List.dropWhile_append_of_pos hbefore, List.dropWhile_eq_nil_iff.2 hafter]
    rfl
  | cons c rest =>
    rw [hcore] at hfirst hlast
    -- The right end is the left end of the reversed text.
    have hright : (c :: rest ++ after).rdropWhile isBlank = c :: rest := by
      rw [List.rdropWhile, List.reverse_append, dropWhile_append_of_first
        (fun c hc => hafter c (List.mem_reverse.1 hc)) (by rwa [List.head?_reverse]),
        List.reverse_reverse]
    rw [@dropWhile_append_of_first before (c :: rest ++ after) hbefore hfirst, hright]

/-- A text without blanks has none around it. -/
theorem trims_self {text : String} (h : ∀ c ∈ text.toList, isBlank c = false) : Trims text text where
  around := ⟨[], [], by simp, nofun, nofun⟩
  first c hc := h c (List.mem_of_mem_head? hc)
  last c hc := h c (List.mem_of_getLast? hc)

/-- A text with another character than blanks is not empty without the blanks around it. -/
theorem trim_ne_empty {text : String} (h : isAllBlank text = false) : trim text ≠ "" := by
  intro hempty
  obtain ⟨before, after, hsplit, hbefore, hafter⟩ := (trims_trim text).around
  rw [hempty] at hsplit
  have hblank : isAllBlank text = true := by
    rw [isAllBlank, hsplit, List.all_eq_true]
    intro c hc
    rcases List.mem_append.1 hc with hc | hc
    · exact hbefore c (by simpa using hc)
    · exact hafter c hc
  rw [hblank] at h
  cases h

/-- An optional text is present if it is there and has another character than blanks. -/
theorem present?_eq_some_iff {s : Option String} {core : String} :
    present? s = some core ↔
      ∃ text, s = some text ∧ isAllBlank text = false ∧ trim text = core := by
  cases s with
  | none => simp [present?]
  | some text => cases hblank : isAllBlank text <;> simp [present?, hblank]

/-- An optional text is not present if it is not there or is all blank. -/
theorem present?_eq_none_iff {s : Option String} :
    present? s = none ↔ ∀ text, s = some text → isAllBlank text = true := by
  cases s with
  | none => simp [present?]
  | some text => cases hblank : isAllBlank text <;> simp [present?, hblank]

end EntityStore.Text
