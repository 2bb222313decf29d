import EntityStore.MappedStore

/-!
# Calls from related states

What a call gives and leaves is `Call.runFrom`, and the first section says what that is for each way
to build a call.

Two systems with different states are compared by a relation of their states. Two calls agree on it
(`Call.Agrees`) if from related states they fail alike or succeed with related results, and leave
related states. Calls that are built alike from calls that agree agree themselves, and requests that
are answered by calls that agree get the same answers, however many there are
(`answers_eq_of_agrees`).

A property of the states that each of several requests keeps (`Call.Keeps`) is kept by all of them
together (`Call.stateAfter_of_keeps`). The last section is about calls that write pairs one after
the other.
-/

namespace EntityStore

/-! ## Results that are alike -/

/-- Two computations fail with the same error, or succeed with related results. -/
inductive Alike {ε α β : Type} (Q : α → β → Prop) : Except ε α → Except ε β → Prop where
  /-- Both succeed. -/
  | ok {a : α} {b : β} (h : Q a b) : Alike Q (.ok a) (.ok b)
  /-- Both fail. -/
  | error (e : ε) : Alike Q (.error e) (.error e)

namespace Alike

variable {ε ε' α β γ δ : Type} {Q : α → β → Prop} {P : γ → δ → Prop}

/-- Results that are alike up to equality are equal. -/
theorem eq {x y : Except ε α} (h : Alike (· = ·) x y) : x = y := by
  cases h with
  | ok h => rw [h]
  | error e => rfl

/-- Equal results are alike. -/
theorem of_eq {x y : Except ε α} (h : x = y) : Alike (· = ·) x y := by
  subst h
  cases x with
  | ok a => exact .ok rfl
  | error e => exact .error e

/-- Computations that go on alike from related results are alike. -/
theorem bind {x : Except ε α} {y : Except ε β} {f : α → Except ε γ} {g : β → Except ε δ}
    (h : Alike Q x y) (hnext : ∀ a b, Q a b → Alike P (f a) (g b)) :
    Alike P (x >>= f) (y >>= g) := by
  cases h with
  | ok h => exact hnext _ _ h
  | error e => exact .error e

/-- Related results with related images are alike afterwards. -/
theorem map {x : Except ε α} {y : Except ε β} {f : α → γ} {g : β → δ} (h : Alike Q x y)
    (hnext : ∀ a b, Q a b → P (f a) (g b)) : Alike P (x.map f) (y.map g) := by
  cases h with
  | ok h => exact .ok (hnext _ _ h)
  | error e => exact .error e

/-- Errors may be renamed. -/
theorem mapError {x : Except ε α} {y : Except ε β} (f : ε → ε') (h : Alike Q x y) :
    Alike Q (x.mapError f) (y.mapError f) := by
  cases h with
  | ok h => exact .ok h
  | error e => exact .error _

end Alike

namespace Call

variable {σ τ α β γ δ : Type}

/-! ## What calls give and leave -/

/-- A result leaves the client as it was. -/
@[simp] theorem runFrom_pure (a : α) (s : σ) : (pure a : Call σ α).runFrom s = (.ok a, s) := rfl

/-- A result or a failure that needs no client leaves it as it was. -/
@[simp] theorem runFrom_ofExcept (result : Except Error α) (s : σ) :
    (ofExcept result).runFrom s = (result, s) := rfl

/-- A call that is given by what it does gives and leaves just that. -/
@[simp] theorem runFrom_ofState (f : σ → Except Error α × σ) (s : σ) :
    (ofState f).runFrom s = f s := rfl

/-- A call that goes on after another one starts where that one has left the client. -/
theorem runFrom_bind (x : Call σ α) (f : α → Call σ β) (s : σ) :
    (x >>= f).runFrom s =
      match x.runFrom s with
      | (.ok a, s') => (f a).runFrom s'
      | (.error e, s') => (.error e, s') := by
  -- The two layers of a call bind one after the other.
  show StateT.run (ExceptT.run (x >>= f)) s = _
  rw [ExceptT.run_bind, StateT.run_bind]
  unfold runFrom
  cases StateT.run x.run s with
  | mk result s' => cases result <;> rfl

/-- A function of the result does not change what is left. -/
theorem runFrom_map (f : α → β) (x : Call σ α) (s : σ) :
    (f <$> x).runFrom s = ((x.runFrom s).1.map f, (x.runFrom s).2) := by
  rw [map_eq_pure_bind, runFrom_bind]
  cases x.runFrom s with
  | mk result s' => cases result <;> rfl

/-! ## Calls that agree -/

/-- From related states the calls fail alike or succeed with related results, and they leave related
states. -/
def Agrees (R : σ → τ → Prop) (Q : α → β → Prop) (x : Call σ α) (y : Call τ β) : Prop :=
  ∀ s t, R s t → Alike Q (x.runFrom s).1 (y.runFrom t).1 ∧ R (x.runFrom s).2 (y.runFrom t).2

namespace Agrees

variable {R : σ → τ → Prop} {Q : α → β → Prop} {P : γ → δ → Prop}

/-- Calls that need no client agree if their results are alike. -/
theorem ofExcept {x : Except Error α} {y : Except Error β} (h : Alike Q x y) :
    Agrees R Q (ofExcept x) (ofExcept y) :=
  fun _ _ hstates => ⟨h, hstates⟩

/-- Related results agree. -/
theorem pure {a : α} {b : β} (h : Q a b) : Agrees R Q (pure a) (pure b) :=
  ofExcept (.ok h)

/-- Calls that go on alike agree. -/
theorem bind {x : Call σ α} {y : Call τ β} {f : α → Call σ γ} {g : β → Call τ δ}
    (h : Agrees R Q x y) (hnext : ∀ a b, Q a b → Agrees R P (f a) (g b)) :
    Agrees R P (x >>= f) (y >>= g) := by
  intro s t hstates
  obtain ⟨halike, hleft⟩ := h s t hstates
  rw [runFrom_bind, runFrom_bind]
  cases hx : x.runFrom s with
  | mk a s' =>
    cases hy : y.runFrom t with
    | mk b t' =>
      rw [hx, hy] at halike hleft
      cases halike with
      | ok hab => exact hnext _ _ hab s' t' hleft
      | error e => exact ⟨.error e, hleft⟩

/-- Calls whose results have related images agree. -/
theorem map {x : Call σ α} {y : Call τ β} {f : α → γ} {g : β → δ} (h : Agrees R Q x y)
    (hnext : ∀ a b, Q a b → P (f a) (g b)) : Agrees R P (f <$> x) (g <$> y) := by
  intro s t hstates
  obtain ⟨halike, hleft⟩ := h s t hstates
  rw [runFrom_map, runFrom_map]
  exact ⟨halike.map hnext, hleft⟩

end Agrees

/-! ## Calls that keep a property of the states -/

/-- If the state has the property before the call, it has it afterwards. -/
def Keeps (P : σ → Prop) (call : Call σ α) : Prop :=
  ∀ s, P s → P (call.runFrom s).2

/-- The state after requests that are made one after the other. -/
def stateAfter {ρ : Type} (call : ρ → Call σ α) (requests : List ρ) (s : σ) : σ :=
  requests.foldl (fun s request => ((call request).runFrom s).2) s

/-- What each of the requests keeps is kept by all of them together. -/
theorem stateAfter_of_keeps {ρ : Type} {call : ρ → Call σ α} {P : σ → Prop} {requests : List ρ}
    (h : ∀ request ∈ requests, Keeps P (call request)) {s : σ} (hs : P s) :
    P (stateAfter call requests s) := by
  induction requests generalizing s with
  | nil => exact hs
  | cons request rest ih =>
    have hnext := h request List.mem_cons_self s hs
    exact ih (fun request hmem => h request (List.mem_cons_of_mem _ hmem)) hnext

/-! ## Answers to requests -/

/-- The answers to requests that are made one after the other. -/
def answers {ρ : Type} (call : ρ → Call σ α) : List ρ → σ → List (Except Error α)
  | [], _ => []
  | request :: rest, s =>
    ((call request).runFrom s).1 :: answers call rest ((call request).runFrom s).2

/-- Requests get the same answers from related states if the calls that answer them agree. -/
theorem answers_eq_of_agrees {ρ : Type} {R : σ → τ → Prop} {f : ρ → Call σ α} {g : ρ → Call τ α}
    {requests : List ρ} (h : ∀ request ∈ requests, Agrees R (· = ·) (f request) (g request))
    {s : σ} {t : τ} (hstates : R s t) : answers f requests s = answers g requests t := by
  induction requests generalizing s t with
  | nil => rfl
  | cons request rest ih =>
    obtain ⟨halike, hleft⟩ := h request List.mem_cons_self s t hstates
    rw [answers, answers, halike.eq,
      ih (fun request hmem => h request (List.mem_cons_of_mem _ hmem)) hleft]

end Call

/-! ## Writing pairs -/

namespace MappedStore

variable {σ κ ε : Type} [Key κ] [Entity ε] {client : Client σ} {store : MappedStore κ ε}
  {pair : κ × ε} {s s' : σ}

/-- If the first of several pairs is written, the others are written after it. -/
theorem runFrom_putAll_cons_of_ok
    (h : (store.put client pair.1 pair.2).runFrom s = (.ok (), s')) (rest : List (κ × ε)) :
    (store.putAll client (pair :: rest)).runFrom s = (store.putAll client rest).runFrom s' := by
  rw [putAll, Call.runFrom_bind, h]

/-- If the first of several pairs is not written, none is. -/
theorem runFrom_putAll_cons_of_error {e : Error}
    (h : (store.put client pair.1 pair.2).runFrom s = (.error e, s')) (rest : List (κ × ε)) :
    (store.putAll client (pair :: rest)).runFrom s = (.error e, s') := by
  rw [putAll, Call.runFrom_bind, h]

/-- If the first ones of several pairs are written, the others are written after them. -/
theorem runFrom_putAll_append_of_ok {pairs : List (κ × ε)}
    (h : (store.putAll client pairs).runFrom s = (.ok (), s')) (rest : List (κ × ε)) :
    (store.putAll client (pairs ++ rest)).runFrom s = (store.putAll client rest).runFrom s' := by
  induction pairs generalizing s with
  | nil =>
    obtain ⟨-, rfl⟩ := Prod.mk.inj h
    rfl
  | cons pair pairs ih =>
    rw [putAll, Call.runFrom_bind] at h
    cases hput : (store.put client pair.1 pair.2).runFrom s with
    | mk result s₁ =>
      rw [hput] at h
      cases result with
      | ok _ =>
        rw [List.cons_append, runFrom_putAll_cons_of_ok hput]
        exact ih h
      | error e => cases h

end MappedStore

end EntityStore
