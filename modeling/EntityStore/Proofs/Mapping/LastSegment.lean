import EntityStore.Proofs.Mapping.Reduced
import Mathlib.Data.List.Infix

/-!
# The last segment of a name

A name is cut at the last occurrence of a separator if nothing longer than the path before the cut
ends in a separator (`TypeName.Cut`). There is one such cut (`Cut.unique`), and no separator occurs
after it (`Cut.not_isInfix`). Cutting at `::` first and then cutting what is left at `.` cuts at the
last of the two (`Cut.andThen`): a separator of one character cannot lie across the first cut, which
one of two characters could. So the last segment of a name is what follows the last separator
(`TypeName.exists_cut_lastSegment`), and it is its own last segment, as any name is in which no
separator occurs (`TypeName.lastSegment_of_not_isInfix`).

Entities go to the collection with the last segment of the name of their type, unless their class
declares another one (`Mapping.Document.exists_resolve_of_no_collection`).
-/

namespace EntityStore

namespace TypeName

/-- The characters end in one of the separators. -/
def EndsIn (separators : List (List Char)) (cs : List Char) : Prop :=
  ∃ separator ∈ separators, separator <:+ cs

/-- The characters are cut at the last occurrence of a separator, whichever it is, or before the
first character if none occurs. -/
structure Cut (separators : List (List Char)) (cs path segment : List Char) : Prop where
  /-- Nothing is lost by the cut. -/
  append_eq : path ++ segment = cs
  /-- A path ends in a separator. -/
  endsIn : path = [] ∨ EndsIn separators path
  /-- No longer beginning ends in a separator. -/
  longest : ∀ longer, longer <+: cs → EndsIn separators longer → longer.length ≤ path.length

/-! ## Cuts -/

section Cut

variable {separators : List (List Char)} {cs path segment : List Char}

/-- There is only one cut at the last occurrence of a separator. -/
theorem Cut.unique {path' segment' : List Char} (h : Cut separators cs path segment)
    (h' : Cut separators cs path' segment') : path = path' ∧ segment = segment' := by
  have hle {path segment path' segment' : List Char} (h : Cut separators cs path segment)
      (h' : Cut separators cs path' segment') : path.length ≤ path'.length := by
    rcases h.endsIn with rfl | hends
    · exact Nat.zero_le _
    · exact h'.longest path ⟨segment, h.append_eq⟩ hends
  have hlength : path.length = path'.length := Nat.le_antisymm (hle h h') (hle h' h)
  exact List.append_inj (h.append_eq.trans h'.append_eq.symm) hlength

/-- No separator occurs after the cut. -/
theorem Cut.not_isInfix (h : Cut separators cs path segment) {separator : List Char}
    (hmem : separator ∈ separators) (hne : separator ≠ []) : ¬separator <:+: segment := by
  rintro ⟨before, after, hsegment⟩
  -- The beginning up to the occurrence would be longer than the path.
  have hbegins : path ++ before ++ separator <+: cs :=
    ⟨after, by rw [← h.append_eq, ← hsegment]; simp only [List.append_assoc]⟩
  have hle := h.longest _ hbegins ⟨separator, hmem, List.suffix_append _ _⟩
  have hpos := List.length_pos_iff.2 hne
  rw [List.length_append, List.length_append] at hle
  omega

/-- Characters in which no separator occurs are cut before the first one. -/
theorem cut_of_not_isInfix (h : ∀ separator ∈ separators, ¬separator <:+: cs) :
    Cut separators cs [] cs where
  append_eq := rfl
  endsIn := .inl rfl
  longest := by
    rintro longer hbegins ⟨separator, hmem, hends⟩
    exact absurd (hends.isInfix.trans hbegins.isInfix) (h separator hmem)

/-- What follows the last occurrence of some separators may be cut once more at a separator of one
character. This is the cut at the last occurrence of all of them. -/
theorem Cut.andThen {c : Char} {rest path' : List Char} (h : Cut separators cs path rest)
    (h' : Cut [[c]] rest path' segment) :
    Cut ([c] :: separators) cs (path ++ path') segment where
  append_eq := by rw [List.append_assoc, h'.append_eq, h.append_eq]
  endsIn := by
    rcases h'.endsIn with rfl | ⟨separator, hmem, hends⟩
    · rw [List.append_nil]
      exact h.endsIn.imp_right fun ⟨separator, hmem, hends⟩ =>
        ⟨separator, List.mem_cons_of_mem _ hmem, hends⟩
    · obtain rfl := List.mem_singleton.1 hmem
      exact .inr ⟨[c], List.mem_cons_self, hends.trans (List.suffix_append path path')⟩
  longest := by
    rintro longer hbegins ⟨separator, hmem, hends⟩
    rw [List.length_append]
    rcases List.mem_cons.1 hmem with rfl | hmem
    · rcases List.prefix_or_prefix_of_prefix hbegins ⟨rest, h.append_eq⟩ with hshort | ⟨more, rfl⟩
      · exact Nat.le_add_right_of_le hshort.length_le
      · rw [List.length_append]
        refine Nat.add_le_add_left ?_ _
        rcases Nat.eq_zero_or_pos more.length with hzero | hpos
        · rw [hzero]
          exact Nat.zero_le _
        · -- Being one character, the separator lies after the first cut as a whole.
          have hmore : [c] <:+ more :=
            List.suffix_of_suffix_length_le hends (List.suffix_append path more) hpos
          have hrest : more <+: rest := by
            rwa [← h.append_eq, List.prefix_append_right_inj] at hbegins
          exact h'.longest more hrest ⟨[c], List.mem_cons_self, hmore⟩
    · exact Nat.le_add_right_of_le (h.longest longer hbegins ⟨separator, hmem, hends⟩)

end Cut

/-! ## One separator -/

section AfterLast

variable {separator cs suffix : List Char}

/-- Nothing follows the last occurrence of a separator exactly if it does not occur. -/
theorem afterLast?_eq_none_iff (hne : separator ≠ []) :
    afterLast? separator cs = none ↔ ¬separator <:+: cs := by
  induction cs with
  | nil => simp [afterLast?, hne]
  | cons c rest ih =>
    rw [afterLast?, List.infix_cons_iff, not_or, ← ih, ← List.isPrefixOf_iff_prefix]
    cases afterLast? separator rest with
    | none => simp
    | some suffix => simp

/-- What follows the last occurrence of a separator follows an occurrence, and no later one. -/
theorem suffix_of_afterLast? (hne : separator ≠ []) (h : afterLast? separator cs = some suffix) :
    separator ++ suffix <:+ cs ∧
      ∀ later, separator ++ later <:+ cs → suffix.length ≤ later.length := by
  induction cs with
  | nil => cases h
  | cons c rest ih =>
    rw [afterLast?] at h
    cases hrest : afterLast? separator rest with
    | some found =>
      rw [hrest] at h ih
      obtain rfl : found = suffix := Option.some.inj h
      obtain ⟨hsuffix, hlast⟩ := ih rfl
      refine ⟨hsuffix.trans (List.suffix_cons c rest), fun later hlater => ?_⟩
      rcases List.suffix_cons_iff.1 hlater with heq | hlater
      · -- The occurrence that begins at `c` is before the one in the rest.
        have hle := hsuffix.length_le
        have hlength := congrArg List.length heq
        simp only [List.length_append, List.length_cons] at hle hlength
        omega
      · exact hlast later hlater
    | none =>
      rw [hrest] at h
      obtain ⟨hbegins, hdrop⟩ := Option.ite_none_right_eq_some.1 h
      have heq : separator ++ suffix = c :: rest := by
        rw [← Option.some.inj hdrop]
        exact List.prefix_iff_eq_append.1 (List.isPrefixOf_iff_prefix.1 hbegins)
      refine ⟨heq ▸ List.suffix_rfl, fun later hlater => ?_⟩
      rcases List.suffix_cons_iff.1 hlater with heq' | hlater
      · exact (congrArg List.length (List.append_cancel_left (heq.trans heq'.symm))).le
      · have hoccurs : separator <:+: rest :=
          (List.prefix_append separator later).isInfix.trans hlater.isInfix
        exact absurd hoccurs ((afterLast?_eq_none_iff hne).1 hrest)

/-- Characters are cut at the last occurrence of one separator. -/
theorem exists_cut_afterLast (separator cs : List Char) (hne : separator ≠ []) :
    ∃ path, Cut [separator] cs path (afterLast separator cs) := by
  unfold afterLast
  cases hfound : afterLast? separator cs with
  | none =>
    refine ⟨[], cut_of_not_isInfix fun other hother => ?_⟩
    obtain rfl := List.mem_singleton.1 hother
    exact (afterLast?_eq_none_iff hne).1 hfound
  | some suffix =>
    obtain ⟨⟨before, happend⟩, hlast⟩ := suffix_of_afterLast? hne hfound
    rw [← List.append_assoc] at happend
    refine ⟨before ++ separator, happend,
      .inr ⟨separator, List.mem_cons_self, List.suffix_append before separator⟩, ?_⟩
    rintro longer ⟨later, hlonger⟩ ⟨other, hother, ⟨before', rfl⟩⟩
    obtain rfl := List.mem_singleton.1 hother
    have hle : suffix.length ≤ later.length :=
      hlast later ⟨before', by rw [← List.append_assoc, hlonger]⟩
    have hlength := congrArg List.length (happend.trans hlonger.symm)
    simp only [List.length_append] at hlength ⊢
    omega

end AfterLast

/-! ## The last segment -/

/-- The separators between the segments of a name. -/
def separators : List (List Char) :=
  [['.'], [':', ':']]

/-- The last segment of a name follows the last separator. -/
theorem exists_cut_lastSegment (name : String) :
    ∃ path, Cut separators name.toList path (lastSegment name).toList := by
  obtain ⟨path, h⟩ := exists_cut_afterLast [':', ':'] name.toList (by decide)
  obtain ⟨path', h'⟩ :=
    exists_cut_afterLast ['.'] (afterLast [':', ':'] name.toList) (by decide)
  refine ⟨path ++ path', ?_⟩
  rw [lastSegment, String.toList_ofList]
  exact h.andThen h'

/-- No separator occurs in the last segment of a name. -/
theorem not_isInfix_lastSegment {name : String} {separator : List Char}
    (hmem : separator ∈ separators) : ¬separator <:+: (lastSegment name).toList := by
  obtain ⟨path, h⟩ := exists_cut_lastSegment name
  have hne : ∀ separator ∈ separators, separator ≠ [] := by decide
  exact h.not_isInfix hmem (hne separator hmem)

/-- A name in which no separator occurs is its own last segment. -/
theorem lastSegment_of_not_isInfix {name : String}
    (h : ∀ separator ∈ separators, ¬separator <:+: name.toList) : lastSegment name = name := by
  obtain ⟨path, hcut⟩ := exists_cut_lastSegment name
  exact String.toList_inj.1 (hcut.unique (cut_of_not_isInfix h)).2

end TypeName

/-! ## The default collection -/

namespace Mapping.Document

variable {d : Document} {keyType entityType : String} {c : ClassDeclaration}

/-- A class with a namespace and no collection, or a blank one, has the last segment of the name of
its entity type as its collection. -/
theorem exists_resolve_of_no_collection (hclass : d.FirstClass keyType entityType c)
    (hns : ∃ text, c.ns = some text ∧ Text.isAllBlank text = false)
    (hnone : ∀ text, c.collection = some text → Text.isAllBlank text = true) :
    ∃ m, d.resolve keyType entityType = .ok m ∧
      m.collection = TypeName.lastSegment entityType := by
  obtain ⟨text, htext, hblank⟩ := hns
  have hpresent : Text.present? c.ns = some (Text.trim text) :=
    Text.present?_eq_some_iff.2 ⟨text, htext, hblank, rfl⟩
  obtain ⟨m, hm, -, hcollection, -⟩ := exists_resolve (class?_eq_some_iff.2 hclass) hpresent
  rw [Text.present?_eq_none_iff.2 hnone, Option.getD_none] at hcollection
  exact ⟨m, hm, hcollection⟩

end Mapping.Document

namespace TypeName

/-- A name is a path and its last segment, which follows the last separator. No separator occurs in
the last segment, so it is its own last segment, as any name is in which none occurs. It is the
collection of the entities of a type with this name, if their class declares none. -/
theorem lastSegment_cut (name : String) :
    (∃ path, Cut separators name.toList path (lastSegment name).toList) ∧
      (∀ separator ∈ separators, ¬separator <:+: (lastSegment name).toList) ∧
      ((∀ separator ∈ separators, ¬separator <:+: name.toList) → lastSegment name = name) ∧
      lastSegment (lastSegment name) = lastSegment name ∧
      ∀ (d : Mapping.Document) (keyType : String) (c : Mapping.ClassDeclaration),
        d.FirstClass keyType name c →
        (∃ text, c.ns = some text ∧ Text.isAllBlank text = false) →
        (∀ text, c.collection = some text → Text.isAllBlank text = true) →
        ∃ m, d.resolve keyType name = .ok m ∧ m.collection = lastSegment name := by
  have hnone : ∀ separator ∈ separators, ¬separator <:+: (lastSegment name).toList :=
    fun _ hmem => not_isInfix_lastSegment hmem
  refine ⟨exists_cut_lastSegment name, hnone, lastSegment_of_not_isInfix,
    lastSegment_of_not_isInfix hnone, ?_⟩
  intro d keyType c hclass hns hcollection
  exact Mapping.Document.exists_resolve_of_no_collection hclass hns hcollection

/-- A class with a blank collection, of a type whose name has both separators and more colons than
one separator takes. -/
def draftClass : Mapping.ClassDeclaration where
  entityType := some "shop.v1:::model::.Order:draft"
  keyType := some "u64"
  ns := some "shop"
  collection := some " "

/-- The collection is what follows the period after the last two colons, where a single colon does
not separate segments. -/
theorem lastSegment_cut_draft :
    ∃ m, Mapping.Document.resolve ⟨[], [draftClass]⟩ "u64" "shop.v1:::model::.Order:draft" =
        .ok m ∧
      m.collection = "Order:draft" ∧ lastSegment m.collection = m.collection := by
  obtain ⟨-, -, -, hself, hdefault⟩ := lastSegment_cut "shop.v1:::model::.Order:draft"
  have hsegment : lastSegment "shop.v1:::model::.Order:draft" = "Order:draft" := by decide
  obtain ⟨m, hm, hcollection⟩ := hdefault ⟨[], [draftClass]⟩ "u64" draftClass
    ⟨[], [], rfl, ⟨rfl, rfl⟩, nofun⟩ ⟨"shop", rfl, by decide⟩
    (fun text htext => by obtain rfl := Option.some.inj htext; decide)
  exact ⟨m, hm, hcollection.trans hsegment, by rw [hcollection, hself]⟩

end TypeName

end EntityStore
