import EntityStore.Proofs.Mapping.InForce
import EntityStore.Proofs.Text.Trim
import Mathlib.Data.List.Dedup

/-!
# Declarations that count

Of the declarations of a document only a few count when it is resolved for a pair of types: the last
policy of each of the two kinds, the first class for the types, and the last binding of each of its
fields. `Mapping.Document.reduced` is the document that has nothing else, and it resolves to the
same mapping (`Mapping.Document.resolve_reduced`). A policy is taken as a whole, so that a loop over
all declarations that starts each policy anew leaves the same two (`foldl_declare`).
-/

namespace EntityStore

/-- The last member of a list for each key, in their order. -/
def lastOfEach {α β : Type} [DecidableEq β] (key : α → β) (l : List α) : List α :=
  l.pwFilter fun a b => key a ≠ key b

section LastOfEach

variable {α β : Type} [DecidableEq β] {key : α → β}

/-- A member is dropped if there is a later one with its key. -/
theorem lastOfEach_cons (a : α) (l : List α) :
    lastOfEach key (a :: l) =
      if ∀ b ∈ l, key a ≠ key b then a :: lastOfEach key l else lastOfEach key l := by
  have hlater : (∀ b ∈ lastOfEach key l, key a ≠ key b) ↔ ∀ b ∈ l, key a ≠ key b := by
    refine List.forall_mem_pwFilter (fun {x y z} hxz => ?_) a l
    by_contra hboth
    push Not at hboth
    exact hxz (hboth.1.trans hboth.2)
  by_cases h : ∀ b ∈ l, key a ≠ key b
  · rw [if_pos h]
    exact List.pwFilter_cons_of_pos (hlater.2 h)
  · rw [if_neg h]
    exact List.pwFilter_cons_of_neg fun hkept => h (hlater.1 hkept)

/-- Of the members with one key the last one is left. -/
theorem filter_lastOfEach (l : List α) (k : β) :
    (lastOfEach key l).filter (fun a => key a = k) =
      (l.filter fun a => key a = k).getLast?.toList := by
  induction l with
  | nil => rfl
  | cons a rest ih =>
    rw [lastOfEach_cons]
    by_cases hk : key a = k
    · rw [List.filter_cons_of_pos (l := rest) (by simpa using hk), List.getLast?_cons]
      split
      · next hlast =>
        -- No later member has the key.
        have hnone : rest.filter (fun b => key b = k) = [] := by
          rw [List.filter_eq_nil_iff]
          intro b hb
          simpa [← hk] using (hlast b hb).symm
        rw [List.filter_cons_of_pos (by simpa using hk), ih, hnone]
        rfl
      · next hlater =>
        push Not at hlater
        obtain ⟨b, hb, heq⟩ := hlater
        have hmem : b ∈ rest.filter fun b => key b = k :=
          List.mem_filter.2 ⟨hb, by simpa [← heq] using hk⟩
        rw [ih, List.getLast?_eq_some_getLast (List.ne_nil_of_mem hmem)]
        rfl
    · rw [List.filter_cons_of_neg (l := rest) (by simpa using hk), ← ih]
      split
      · exact List.filter_cons_of_neg (by simpa using hk)
      · rfl

/-- The last members by key have the same last member with a key as all members. -/
theorem getLast?_filter_lastOfEach (key : α → β) (l : List α) (k : β) :
    ((lastOfEach key l).filter fun a => key a = k).getLast? =
      (l.filter fun a => key a = k).getLast? := by
  rw [filter_lastOfEach]
  cases (l.filter fun a => key a = k).getLast? <;> rfl

end LastOfEach

namespace Mapping

/-- The kind of operation that a declaration is for, in lower case and without blanks around it. -/
def PolicyDeclaration.kindName (p : PolicyDeclaration) : String :=
  (Text.trim p.kind).toLower

/-- The class is for the two types. -/
def ClassDeclaration.Declares (c : ClassDeclaration) (keyType entityType : String) : Prop :=
  c.keyType = some keyType ∧ c.entityType = some entityType

instance (c : ClassDeclaration) (keyType entityType : String) :
    Decidable (c.Declares keyType entityType) :=
  inferInstanceAs (Decidable (_ ∧ _))

namespace Document

/-- The document with the declarations that count for two types, and no others. -/
def reduced (d : Document) (keyType entityType : String) : Document where
  policies := lastOfEach PolicyDeclaration.kindName
    (d.policies.filter fun p => p.kindName = "read" ∨ p.kindName = "write")
  classes := ((d.classes.filter fun c => c.Declares keyType entityType).take 1).map fun c =>
    { c with fields := lastOfEach FieldBinding.field c.fields }

/-- The class is the first one of the document for the two types. -/
def FirstClass (d : Document) (keyType entityType : String) (c : ClassDeclaration) : Prop :=
  ∃ earlier later, d.classes = earlier ++ c :: later ∧ c.Declares keyType entityType ∧
    ∀ other ∈ earlier, ¬other.Declares keyType entityType

variable {d : Document} {keyType entityType : String} {c : ClassDeclaration}

/-! ## Policies -/

/-- The last policy of a kind that counts is kept. -/
theorem lastPolicy?_reduced {kind : String} (h : kind = "read" ∨ kind = "write") :
    (d.reduced keyType entityType).lastPolicy? kind = d.lastPolicy? kind := by
  have hkept : (d.policies.filter fun p => p.kindName = "read" ∨ p.kindName = "write").filter
      (fun p => p.kindName = kind) = d.policies.filter fun p => p.kindName = kind := by
    rw [List.filter_filter]
    refine List.filter_congr fun p _ => ?_
    by_cases hkind : p.kindName = kind
    · rcases h with rfl | rfl <;> simp [hkind]
    · simp [hkind]
  calc (d.reduced keyType entityType).lastPolicy? kind
      = ((d.policies.filter fun p => p.kindName = "read" ∨ p.kindName = "write").filter
          fun p => p.kindName = kind).getLast? := getLast?_filter_lastOfEach _ _ kind
    _ = (d.policies.filter fun p => p.kindName = kind).getLast? := by rw [hkept]
    _ = d.lastPolicy? kind := rfl

/-- A declaration takes the place of the policy of its kind. -/
def declare (policies : ReadPolicy × WritePolicy) (p : PolicyDeclaration) :
    ReadPolicy × WritePolicy :=
  if p.isFor "write" then (policies.1, p.writePolicy)
  else if p.isFor "read" then (p.readPolicy, policies.2)
  else policies

/-- Going through all declarations leaves the two policies of the document. -/
theorem foldl_declare (d : Document) :
    d.policies.foldl declare ({}, {}) = (d.readPolicy, d.writePolicy) := by
  unfold readPolicy writePolicy lastPolicy?
  induction d.policies using List.reverseRecOn with
  | nil => rfl
  | append_singleton earlier p ih =>
    rw [List.foldl_concat, ih, List.filter_append, List.filter_append, declare]
    -- A declaration is of one kind at most.
    cases hwrite : p.isFor "write" with
    | true =>
      have hkind : p.kindName = "write" := of_decide_eq_true hwrite
      have hread : p.isFor "read" = false :=
        decide_eq_false fun hread => absurd (hkind.symm.trans hread) (by decide)
      simp [hwrite, hread]
    | false => cases hread : p.isFor "read" <;> simp [hwrite, hread]

/-! ## Classes -/

/-- The class for two types is found by looking for a declaration of them. -/
theorem class?_eq_find? (d : Document) (keyType entityType : String) :
    d.class? keyType entityType = d.classes.find? fun c => c.Declares keyType entityType := by
  rw [class?]
  refine congrArg (fun p => d.classes.find? p) (funext fun c => ?_)
  exact (Bool.decide_and _ _).symm

/-- The class for two types is the first one that declares them. -/
theorem class?_eq_some_iff :
    d.class? keyType entityType = some c ↔ d.FirstClass keyType entityType c := by
  rw [class?_eq_find?, List.find?_eq_some_iff_append]
  constructor
  · rintro ⟨hdeclares, earlier, later, hsplit, hearlier⟩
    exact ⟨earlier, later, hsplit, by simpa using hdeclares, by simpa using hearlier⟩
  · rintro ⟨earlier, later, hsplit, hdeclares, hearlier⟩
    exact ⟨by simpa using hdeclares, earlier, later, hsplit, by simpa using hearlier⟩

/-- There is no class for two types if none declares them. -/
theorem class?_eq_none_iff :
    d.class? keyType entityType = none ↔ ∀ c ∈ d.classes, ¬c.Declares keyType entityType := by
  rw [class?_eq_find?, List.find?_eq_none]
  simp

/-- The class that counts is kept, with the bindings that count. -/
theorem class?_reduced :
    (d.reduced keyType entityType).class? keyType entityType =
      (d.class? keyType entityType).map fun c =>
        { c with fields := lastOfEach FieldBinding.field c.fields } := by
  rw [class?_eq_find?, class?_eq_find?, ← List.head?_filter (l := d.classes), reduced]
  cases hclasses : d.classes.filter fun c => c.Declares keyType entityType with
  | nil => rfl
  | cons c rest =>
    have hmem : c ∈ d.classes.filter fun c => c.Declares keyType entityType :=
      hclasses ▸ List.mem_cons_self
    have hdeclares : c.Declares keyType entityType := by
      simpa using (List.mem_filter.1 hmem).2
    -- Its bindings do not matter for the types that it is for.
    have hkept : ClassDeclaration.Declares
        { c with fields := lastOfEach FieldBinding.field c.fields } keyType entityType := hdeclares
    simp [hkept]

/-- The last binding of each field is enough for the map of bindings. -/
theorem ofList_lastOfEach (fields : List FieldBinding) :
    OrderedMap.ofList ((lastOfEach FieldBinding.field fields).map fun b => (b.field, b.bin)) =
      .ofList (fields.map fun b => (b.field, b.bin)) := by
  refine OrderedMap.ext_get? fun field => ?_
  have hlast := getLast?_filter_lastOfEach FieldBinding.field fields field
  rw [OrderedMap.get?_ofList, OrderedMap.get?_ofList, List.filter_map, List.filter_map,
    List.getLast?_map, List.getLast?_map]
  exact congrArg (fun b? => (b?.map fun b : FieldBinding => (b.field, b.bin)).map Prod.snd) hlast

/-! ## Resolving -/

/-- The declarations that count lead to the mapping, or the failure, of all declarations. -/
theorem resolve_reduced (d : Document) (keyType entityType : String) :
    (d.reduced keyType entityType).resolve keyType entityType = d.resolve keyType entityType := by
  have hread : (d.reduced keyType entityType).readPolicy = d.readPolicy := by
    rw [readPolicy, readPolicy, lastPolicy?_reduced (.inl rfl)]
  have hwrite : (d.reduced keyType entityType).writePolicy = d.writePolicy := by
    rw [writePolicy, writePolicy, lastPolicy?_reduced (.inr rfl)]
  rw [resolve, resolve, class?_reduced, hread, hwrite]
  cases d.class? keyType entityType with
  | none => rfl
  | some c => simp only [Option.map_some, ofList_lastOfEach]

/-- Resolving fails if no class is for the two types, or if the first one that is has no namespace
or a blank one. -/
theorem resolve_eq_error_iff {e : ConfigurationError} :
    d.resolve keyType entityType = .error e ↔
      (e = .undeclaredTypes keyType entityType ∧
          ∀ c ∈ d.classes, ¬c.Declares keyType entityType) ∨
        e = .missingNamespace entityType ∧ ∃ c, d.FirstClass keyType entityType c ∧
          ∀ text, c.ns = some text → Text.isAllBlank text = true := by
  simp only [← class?_eq_none_iff, ← class?_eq_some_iff, ← Text.present?_eq_none_iff]
  unfold resolve
  cases d.class? keyType entityType with
  | none => simp [eq_comm]
  | some c => cases hns : Text.present? c.ns <;> simp [hns, eq_comm]

/-- There is a mapping if there is a class with a namespace, and it has what is declared. -/
theorem exists_resolve {ns : String} (hclass : d.class? keyType entityType = some c)
    (hns : Text.present? c.ns = some ns) :
    ∃ m, d.resolve keyType entityType = .ok m ∧ m.ns = ns ∧
      m.collection = (Text.present? c.collection).getD (TypeName.lastSegment entityType) ∧
      m.bindings = .ofList (c.fields.map fun b => (b.field, b.bin)) ∧
      m.readPolicy = d.readPolicy ∧ m.writePolicy = d.writePolicy :=
  ⟨_, resolve_eq_ok_iff.2 ⟨c, ns, hclass, hns, rfl⟩, rfl, rfl, rfl, rfl, rfl⟩

/-- The namespace of a mapping is that of the class without the blanks around it, and is not
empty. -/
theorem ns_of_resolve {m : Resolved} (hclass : d.class? keyType entityType = some c)
    (h : d.resolve keyType entityType = .ok m) :
    m.ns ≠ "" ∧ ∃ text, c.ns = some text ∧ Text.Trims text m.ns := by
  obtain ⟨c', ns, hclass', hns, rfl⟩ := resolve_eq_ok_iff.1 h
  obtain rfl := Option.some.inj (hclass.symm.trans hclass')
  obtain ⟨text, htext, hblank, rfl⟩ := Text.present?_eq_some_iff.1 hns
  exact ⟨Text.trim_ne_empty hblank, text, htext, Text.trims_trim text⟩

/-- The collection of a mapping is that of the class without the blanks around it, or the last
segment of the name of the entity type if the class has none or a blank one. -/
theorem collection_of_resolve {m : Resolved} (hclass : d.class? keyType entityType = some c)
    (h : d.resolve keyType entityType = .ok m) :
    (∃ text, c.collection = some text ∧ Text.isAllBlank text = false ∧
        Text.Trims text m.collection) ∨
      (∀ text, c.collection = some text → Text.isAllBlank text = true) ∧
        m.collection = TypeName.lastSegment entityType := by
  obtain ⟨c', ns, hclass', -, rfl⟩ := resolve_eq_ok_iff.1 h
  obtain rfl := Option.some.inj (hclass.symm.trans hclass')
  cases hcollection : Text.present? c.collection with
  | none => exact .inr ⟨Text.present?_eq_none_iff.1 hcollection, rfl⟩
  | some name =>
    obtain ⟨text, htext, hblank, rfl⟩ := Text.present?_eq_some_iff.1 hcollection
    exact .inl ⟨text, htext, hblank, Text.trims_trim text⟩

/-- The policy of writes never expects a generation above zero. -/
theorem expectedGeneration_writePolicy (d : Document) : d.writePolicy.expectedGeneration = 0 := by
  unfold writePolicy
  cases d.lastPolicy? "write" <;> rfl

/-- The mapping of two types depends on the declarations that count and on no others. There is none
exactly if no class is for the types or the first one that is has no namespace or a blank one,
whatever classes follow. Otherwise the namespace is not empty and has no blanks around it, the
collection is the declared one without the blanks around it or the last segment of the name of the
entity type, each policy is the last one of its kind as a whole, and writes expect no generation. -/
theorem resolve_by_declarations (d : Document) (keyType entityType : String) :
    (d.reduced keyType entityType).resolve keyType entityType = d.resolve keyType entityType ∧
    (∀ e, d.resolve keyType entityType = .error e ↔
      (e = .undeclaredTypes keyType entityType ∧
          ∀ c ∈ d.classes, ¬c.Declares keyType entityType) ∨
        e = .missingNamespace entityType ∧ ∃ c, d.FirstClass keyType entityType c ∧
          ∀ text, c.ns = some text → Text.isAllBlank text = true) ∧
    ∀ m, d.resolve keyType entityType = .ok m → ∃ c, d.FirstClass keyType entityType c ∧
      (m.ns ≠ "" ∧ ∃ text, c.ns = some text ∧ Text.Trims text m.ns) ∧
      ((∃ text, c.collection = some text ∧ Text.isAllBlank text = false ∧
          Text.Trims text m.collection) ∨
        (∀ text, c.collection = some text → Text.isAllBlank text = true) ∧
          m.collection = TypeName.lastSegment entityType) ∧
      (m.readPolicy, m.writePolicy) = d.policies.foldl declare ({}, {}) ∧
      m.writePolicy.expectedGeneration = 0 := by
  refine ⟨resolve_reduced d keyType entityType, fun e => resolve_eq_error_iff, fun m h => ?_⟩
  obtain ⟨c, ns, hclass, -, hm⟩ := resolve_eq_ok_iff.1 h
  refine ⟨c, class?_eq_some_iff.1 hclass, ns_of_resolve hclass h, collection_of_resolve hclass h,
    ?_, ?_⟩
  · rw [hm, foldl_declare]
  · rw [hm]
    exact d.expectedGeneration_writePolicy

/-- A class of users with a namespace between blanks and two bindings of one field. -/
def userClass : ClassDeclaration where
  entityType := some "app.User"
  keyType := some "String"
  ns := some " app "
  fields := [⟨"name", "n"⟩, ⟨"email", "e"⟩, ⟨"name", "full_name"⟩]

/-- A class of orders with a blank namespace. -/
def orderClass : ClassDeclaration where
  entityType := some "app.Order"
  keyType := some "String"
  ns := some " "

/-- A document that declares each policy and each class more than once. -/
def repetitive : Document where
  policies := [
    { kind := "write", generation := some "eq", existsAction := some "replace" },
    { kind := " Read ", timeout := some "200", keyMode := some "send" },
    { kind := "admin", timeout := some "7" },
    { kind := "WRITE", timeout := some "150" }]
  classes := [
    { userClass with keyType := some "u64" },
    userClass,
    { userClass with ns := some "shadow" },
    orderClass,
    { orderClass with ns := some "shop" }]

/-- The last write policy does not take over the checks of the first one, the first class for the
two types counts, and where it has a blank namespace no other class is tried. -/
theorem resolve_by_declarations_repetitive :
    (∃ m, repetitive.resolve "String" "app.User" = .ok m ∧
        (repetitive.reduced "String" "app.User").resolve "String" "app.User" = .ok m ∧
        m.ns = "app" ∧ m.collection = "User" ∧ m.writePolicy = { timeout := 150 } ∧
        m.bindings.entries = [("email", "e"), ("name", "full_name")]) ∧
      repetitive.resolve "String" "app.Order" = .error (.missingNamespace "app.Order") := by
  obtain ⟨hreduced, -⟩ := resolve_by_declarations repetitive "String" "app.User"
  obtain ⟨-, herror, -⟩ := resolve_by_declarations repetitive "String" "app.Order"
  constructor
  · have hclass : repetitive.class? "String" "app.User" = some userClass := by decide
    have hns : Text.present? userClass.ns = some "app" := by decide
    have hwrite : repetitive.writePolicy = { timeout := 150 } := by decide +kernel
    have hlast : OrderedMap.entries (.ofList (userClass.fields.map fun b => (b.field, b.bin))) =
        [("email", "e"), ("name", "full_name")] := by decide
    obtain ⟨m, hm, hmns, hcollection, hbindings, -, hpolicy⟩ := exists_resolve hclass hns
    have hname : m.collection = "User" := hcollection.trans (by decide)
    exact ⟨m, hm, hreduced.trans hm, hmns, hname, hpolicy.trans hwrite, hbindings ▸ hlast⟩
  · refine (herror _).2 (.inr ⟨rfl, orderClass, ?_, ?_⟩)
    · exact ⟨repetitive.classes.take 3, repetitive.classes.drop 4, rfl, by decide, by decide⟩
    · intro text htext
      obtain rfl := Option.some.inj htext
      decide

end Document

end Mapping

end EntityStore
