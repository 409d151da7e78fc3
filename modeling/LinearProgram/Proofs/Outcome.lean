import LinearProgram.Error

/-!
# Outcomes of updates

A check gives a value or an error.  An update gives a value or an error, and a
state in either case.  The lemmas take a successful outcome of a sequence apart
into the outcomes of its steps.

An update is atomic if it leaves the state as it was whenever it fails.  A
sequence is atomic if it only looks at the state before its first step that can
no longer fail; `ReadOnly` and `Total` name these two kinds of steps.  `Settles`
says at once what an update leaves if it fails and if it succeeds.
-/

namespace LinearProgram

variable {ε σ β γ : Type}

namespace Check

/-- A sequence of checks succeeds step by step. -/
theorem ok_of_bind {check : Except ε β} {next : β → Except ε γ} {result : γ}
    (success : check >>= next = .ok result) :
    ∃ value, check = .ok value ∧ next value = .ok result := by
  cases check with
  | error error => cases success
  | ok value => exact ⟨value, rfl, success⟩

/-- A check whose value was computed succeeds. -/
theorem ok_of_toOption {check : Except ε β} {value : β}
    (computed : check.toOption = some value) : check = .ok value := by
  cases check with
  | error error => cases computed
  | ok result => exact congrArg Except.ok (Option.some.inj computed)

theorem mapM_eq_ok {check : β → Except ε γ} {reading : β → γ} {items : List β}
    (each : ∀ item ∈ items, check item = .ok (reading item)) :
    items.mapM check = .ok (items.map reading) := by
  induction items with
  | nil => rfl
  | cons item rest induction =>
      have later := induction (fun other listed => each other (List.mem_cons_of_mem _ listed))
      rw [List.mapM_cons, each item List.mem_cons_self, later]
      rfl

section Answers

variable {check : β → Except ε Bool} {reading : β → Bool} {items : List β}

theorem forM_eq_ok {check : β → Except ε PUnit}
    (each : ∀ item ∈ items, check item = .ok ⟨⟩) : items.forM check = .ok ⟨⟩ := by
  induction items with
  | nil => rfl
  | cons item rest induction =>
      change (check item >>= fun _ => rest.forM check) = _
      rw [each item List.mem_cons_self]
      exact induction (fun other listed => each other (List.mem_cons_of_mem _ listed))

theorem anyM_eq_ok (each : ∀ item ∈ items, check item = .ok (reading item)) :
    items.anyM check = .ok (items.any reading) := by
  induction items with
  | nil => rfl
  | cons item rest induction =>
      have later := induction (fun other listed => each other (List.mem_cons_of_mem _ listed))
      rw [List.anyM_cons, each item List.mem_cons_self, List.any_cons]
      cases reading item with
      | false => exact later
      | true => rfl

theorem filterM_eq_ok (each : ∀ item ∈ items, check item = .ok (reading item)) :
    items.filterM check = .ok (items.filter reading) := by
  have collected : ∀ (items kept : List β),
      (∀ item ∈ items, check item = .ok (reading item)) →
      items.filterAuxM check kept = .ok ((items.filter reading).reverse ++ kept) := by
    intro items
    induction items with
    | nil => exact fun _ _ => rfl
    | cons item rest induction =>
        intro kept each
        have later := fun kept => induction kept
          (fun other listed => each other (List.mem_cons_of_mem _ listed))
        rw [List.filterAuxM, each item List.mem_cons_self, List.filter_cons]
        cases reading item with
        | false => exact later kept
        | true =>
            refine (later (item :: kept)).trans ?_
            simp
  rw [List.filterM, collected items [] each]
  change Except.ok _ = _
  rw [List.append_nil, List.reverse_reverse]

end Answers

/-- What every step of a fold keeps holds of its result. -/
theorem foldlM_keeps {step : β → γ → Except ε β} {property : β → Prop}
    {items : List γ} {start result : β}
    (kept : ∀ state item next, item ∈ items → property state →
      step state item = .ok next → property next)
    (initial : property start)
    (success : items.foldlM step start = .ok result) : property result := by
  induction items generalizing start with
  | nil =>
      cases success
      exact initial
  | cons item rest induction =>
      rw [List.foldlM_cons] at success
      obtain ⟨next, stepped, remaining⟩ := ok_of_bind success
      refine induction ?_ (kept start item next List.mem_cons_self initial stepped)
        remaining
      intro state later following membership
      exact kept state later following (List.mem_cons_of_mem _ membership)

end Check

section Entries

variable {α β : Type} [Scalar α] {index : Index} {table : List β}

/-- A table that has something at an index offers it. -/
theorem Index.exists_entry (present : (index.get? table).isSome = true) :
    ∃ entry, index.entry table = (.ok entry : Except (Error α) β) := by
  obtain ⟨entry, found⟩ := Option.isSome_iff_exists.mp present
  exact ⟨entry, by rw [Index.entry, found]⟩

theorem Index.isSome_of_entry {entry : β}
    (success : index.entry table = (.ok entry : Except (Error α) β)) :
    (index.get? table).isSome = true := by
  unfold Index.entry at success
  split at success
  · rename_i found
    rw [found]
    rfl
  · cases success

end Entries

namespace Update

section Success

variable {state final : σ} {result : γ}

theorem bind_of_ok {first : EStateM ε σ β} {next : β → EStateM ε σ γ}
    {value : β} {middle : σ} (success : first state = .ok value middle) :
    (first >>= next) state = next value middle := by
  change (match first state with
    | .ok value middle => next value middle
    | .error error middle => .error error middle) = _
  rw [success]

theorem bind_of_error {first : EStateM ε σ β} {next : β → EStateM ε σ γ}
    {error : ε} {middle : σ} (failure : first state = .error error middle) :
    (first >>= next) state = .error error middle := by
  change (match first state with
    | .ok value middle => next value middle
    | .error error middle => .error error middle) = _
  rw [failure]

theorem bind_of_check {check : Except ε β} {next : β → EStateM ε σ γ}
    {value : β} (passed : check = .ok value) :
    (liftM check >>= next) state = next value state := by
  rw [passed]
  rfl

theorem bind_of_refused {check : Except ε β} {next : β → EStateM ε σ γ}
    {error : ε} (refused : check = .error error) :
    (liftM check >>= next) state = .error error state := by
  rw [refused]
  rfl

/-- Checks that all pass are passed in a row. -/
theorem forM_of_ok {items : List β} {update : β → EStateM ε σ PUnit}
    (passed : ∀ item ∈ items, update item state = .ok ⟨⟩ state) :
    items.forM update state = .ok ⟨⟩ state := by
  induction items with
  | nil => rfl
  | cons item rest induction =>
      refine (bind_of_ok (passed item List.mem_cons_self)).trans (induction ?_)
      intro other membership
      exact passed other (List.mem_cons_of_mem _ membership)

/-- A sequence of updates succeeds step by step. -/
theorem ok_of_bind {first : EStateM ε σ β} {next : β → EStateM ε σ γ}
    (success : (first >>= next) state = .ok result final) :
    ∃ value middle, first state = .ok value middle ∧
      next value middle = .ok result final := by
  cases outcome : first state with
  | ok value middle =>
      rw [bind_of_ok outcome] at success
      exact ⟨value, middle, rfl, success⟩
  | error error middle =>
      rw [bind_of_error outcome] at success
      cases success

/-- A check inside an update does not touch the state. -/
theorem ok_of_check {check : Except ε γ}
    (success : (liftM check : EStateM ε σ γ) state = .ok result final) :
    check = .ok result ∧ final = state := by
  cases check with
  | ok value =>
      cases success
      exact ⟨rfl, rfl⟩
  | error error => cases success

/-- A check that precedes an update has succeeded if the whole has. -/
theorem ok_of_check_bind {check : Except ε β} {next : β → EStateM ε σ γ}
    (success : (liftM check >>= next) state = .ok result final) :
    ∃ value, check = .ok value ∧ next value state = .ok result final := by
  obtain ⟨value, middle, checked, remaining⟩ := ok_of_bind success
  obtain ⟨passed, rfl⟩ := ok_of_check checked
  exact ⟨value, passed, remaining⟩

end Success

section Failure

/-- The update leaves the state as it was if it fails. -/
def Atomic (update : EStateM ε σ β) : Prop :=
  ∀ state error final, update state = .error error final → final = state

/-- The update leaves the state as it was, whether it fails or not. -/
def ReadOnly (update : EStateM ε σ β) : Prop :=
  Atomic update ∧
    ∀ state value final, update state = .ok value final → final = state

/-- The update never fails. -/
def Total (update : EStateM ε σ β) : Prop :=
  ∀ state error final, update state ≠ .error error final

theorem Total.atomic {update : EStateM ε σ β} (total : Total update) :
    Atomic update := by
  intro state error final failure
  exact absurd failure (total state error final)

theorem total_pure (value : β) : Total (pure value : EStateM ε σ β) := nofun

theorem total_set (replacement : σ) : Total (set replacement : EStateM ε σ _) :=
  nofun

theorem total_modify (change : σ → σ) : Total (modify change : EStateM ε σ _) :=
  nofun

theorem readOnly_pure (value : β) : ReadOnly (pure value : EStateM ε σ β) := by
  refine ⟨(total_pure value).atomic, ?_⟩
  intro state result final success
  cases success
  rfl

theorem readOnly_get : ReadOnly (get : EStateM ε σ σ) := by
  refine ⟨nofun, ?_⟩
  intro state result final success
  cases success
  rfl

theorem readOnly_throw (error : ε) : ReadOnly (throw error : EStateM ε σ β) := by
  refine ⟨?_, nofun⟩
  intro state thrown final failure
  cases failure
  rfl

theorem readOnly_check (check : Except ε β) :
    ReadOnly (liftM check : EStateM ε σ β) := by
  cases check with
  | ok value => exact readOnly_pure value
  | error error => exact readOnly_throw error

/-- A sequence of updates fails at its first or at a later step. -/
theorem error_cases_of_bind {first : EStateM ε σ β}
    {next : β → EStateM ε σ γ} {state final : σ} {error : ε}
    (failure : (first >>= next) state = .error error final) :
    first state = .error error final ∨ ∃ value middle,
      first state = .ok value middle ∧ next value middle = .error error final := by
  cases outcome : first state with
  | ok value middle =>
      rw [bind_of_ok outcome] at failure
      exact .inr ⟨value, middle, rfl, failure⟩
  | error thrown middle =>
      rw [bind_of_error outcome] at failure
      cases failure
      exact .inl rfl

theorem Atomic.after_readOnly {first : EStateM ε σ β} {next : β → EStateM ε σ γ}
    (readOnly : ReadOnly first) (atomic : ∀ value, Atomic (next value)) :
    Atomic (first >>= next) := by
  intro state error final failure
  rcases error_cases_of_bind failure with early | ⟨value, middle, success, late⟩
  · exact readOnly.1 state error final early
  · have unchanged := readOnly.2 state value middle success
    exact (atomic value middle error final late).trans unchanged

theorem ReadOnly.bind {first : EStateM ε σ β} {next : β → EStateM ε σ γ}
    (readOnly : ReadOnly first) (later : ∀ value, ReadOnly (next value)) :
    ReadOnly (first >>= next) := by
  refine ⟨.after_readOnly readOnly (fun value => (later value).1), ?_⟩
  intro state result final success
  obtain ⟨value, middle, passed, remaining⟩ := ok_of_bind success
  have unchanged := readOnly.2 state value middle passed
  exact ((later value).2 middle result final remaining).trans unchanged

/-- A sequence that begins by looking at the state succeeds from there on. -/
theorem ReadOnly.ok_of_bind {first : EStateM ε σ β} {next : β → EStateM ε σ γ}
    {state final : σ} {result : γ} (readOnly : ReadOnly first)
    (success : (first >>= next) state = .ok result final) :
    ∃ value, first state = .ok value state ∧
      next value state = .ok result final := by
  obtain ⟨value, middle, passed, remaining⟩ := Update.ok_of_bind success
  have unchanged := readOnly.2 state value middle passed
  rw [unchanged] at passed remaining
  exact ⟨value, passed, remaining⟩

/-- A check of every item of a list. -/
theorem readOnly_forM {items : List β} {update : β → EStateM ε σ PUnit}
    (readOnly : ∀ item, ReadOnly (update item)) : ReadOnly (items.forM update) := by
  induction items with
  | nil => exact readOnly_pure _
  | cons item rest induction => exact (readOnly item).bind (fun _ => induction)

/-- Where each item was checked, each check passed. -/
theorem ok_of_forM {items : List β} {update : β → EStateM ε σ PUnit}
    {state final : σ} {result : PUnit}
    (readOnly : ∀ item, ReadOnly (update item))
    (success : items.forM update state = .ok result final) :
    ∀ item ∈ items, update item state = .ok ⟨⟩ state := by
  induction items with
  | nil => exact nofun
  | cons first rest induction =>
      obtain ⟨value, passed, remaining⟩ := (readOnly first).ok_of_bind success
      intro item membership
      rcases List.mem_cons.mp membership with rfl | later
      · exact passed
      · exact induction remaining item later

end Failure

section Settling

variable {state : σ} {property : σ → Prop}

/-- The update leaves the state as it was if it fails, and the property holds of
the state that it leaves if it succeeds. -/
structure Settles (state : σ) (update : EStateM ε σ β) (property : σ → Prop) :
    Prop where
  atomic : ∀ error final, update state = .error error final → final = state
  holds : ∀ result final, update state = .ok result final → property final

namespace Settles

theorem of_ok {update : EStateM ε σ β} {result : β} {written : σ}
    (success : update state = .ok result written) (reached : property written) :
    Settles state update property where
  atomic := by
    intro error final failure
    rw [success] at failure
    cases failure
  holds := by
    intro other final same
    rw [success] at same
    cases same
    exact reached

theorem of_error {update : EStateM ε σ β} {error : ε}
    (refused : update state = .error error state) : Settles state update property where
  atomic := by
    intro other final failure
    rw [refused] at failure
    cases failure
    rfl
  holds := by
    intro result final success
    rw [refused] at success
    cases success

theorem after_readOnly {first : EStateM ε σ β} {next : β → EStateM ε σ γ}
    (readOnly : ReadOnly first)
    (later : ∀ value, first state = .ok value state →
      Settles state (next value) property) :
    Settles state (first >>= next) property where
  atomic := by
    intro error final failure
    rcases error_cases_of_bind failure with early | ⟨value, middle, passed, late⟩
    · exact readOnly.1 state error final early
    · have unchanged := readOnly.2 state value middle passed
      rw [unchanged] at passed late
      exact (later value passed).atomic error final late
  holds := by
    intro result final success
    obtain ⟨value, passed, remaining⟩ := readOnly.ok_of_bind success
    exact (later value passed).holds result final remaining

theorem after_check {check : Except ε β} {next : β → EStateM ε σ γ}
    (later : ∀ value, check = .ok value → Settles state (next value) property) :
    Settles state (liftM check >>= next) property := by
  apply after_readOnly (readOnly_check check)
  intro value passed
  exact later value (ok_of_check passed).1

theorem after_get {next : σ → EStateM ε σ γ}
    (later : Settles state (next state) property) :
    Settles state (get >>= next) property :=
  ⟨later.atomic, later.holds⟩

/-- What follows without fail changes nothing about a fact of which the state is no
part. -/
theorem before_total {fact : Prop} {first : EStateM ε σ β} {next : β → EStateM ε σ γ}
    (settles : Settles state first (fun _ => fact))
    (total : ∀ value, Total (next value)) :
    Settles state (first >>= next) (fun _ => fact) where
  atomic := by
    intro error final failure
    rcases error_cases_of_bind failure with early | ⟨value, middle, _, late⟩
    · exact settles.atomic error final early
    · exact absurd late (total value middle error final)
  holds := by
    intro value final success
    obtain ⟨_, middle, passed, _⟩ := ok_of_bind success
    exact settles.holds _ _ passed

theorem mono {update : EStateM ε σ β} {weaker : σ → Prop}
    (settles : Settles state update property)
    (implied : ∀ final, property final → weaker final) :
    Settles state update weaker :=
  ⟨settles.atomic, fun result final success =>
    implied final (settles.holds result final success)⟩

end Settles

/-- The property holds of the state that the update leaves, however it ends. -/
def Leaves (state : σ) (update : EStateM ε σ β) (property : σ → Prop) : Prop :=
  match update state with
  | .ok _ final | .error _ final => property final

namespace Leaves

theorem of_ok {update : EStateM ε σ β} {result : β} {written : σ}
    (success : update state = .ok result written) (reached : property written) :
    Leaves state update property := by
  unfold Leaves
  rw [success]
  exact reached

theorem of_error {update : EStateM ε σ β} {error : ε} {written : σ}
    (failure : update state = .error error written)
    (reached : property written) : Leaves state update property := by
  unfold Leaves
  rw [failure]
  exact reached

theorem after_check {check : Except ε β} {next : β → EStateM ε σ γ}
    (refused : property state)
    (later : ∀ value, check = .ok value → Leaves state (next value) property) :
    Leaves state (liftM check >>= next) property := by
  cases check with
  | ok value => exact later value rfl
  | error error => exact refused

theorem after_get {next : σ → EStateM ε σ γ}
    (later : Leaves state (next state) property) :
    Leaves state (get >>= next) property :=
  later

/-- What only looks at the state leaves what was there before. -/
theorem before_readOnly {first : EStateM ε σ β} {next : β → EStateM ε σ γ}
    (leaves : Leaves state first property)
    (readOnly : ∀ value, ReadOnly (next value)) :
    Leaves state (first >>= next) property := by
  unfold Leaves at leaves
  cases outcome : first state with
  | error error final =>
      rw [outcome] at leaves
      exact of_error (bind_of_error outcome) leaves
  | ok value final =>
      rw [outcome] at leaves
      have opened : (first >>= next) state = next value final :=
        bind_of_ok outcome
      cases looked : next value final with
      | ok result last =>
          have same := (readOnly value).2 final result last looked
          rw [same] at looked
          exact of_ok (opened.trans looked) leaves
      | error error last =>
          have same := (readOnly value).1 final error last looked
          rw [same] at looked
          exact of_error (opened.trans looked) leaves

end Leaves

end Settling

section Preserving

variable {property : σ → Prop}

/-- What holds of a state holds of the state that the update leaves, however it ends. -/
def Preserves (property : σ → Prop) (update : EStateM ε σ β) : Prop :=
  ∀ state, property state → Leaves state update property

namespace Preserves

theorem of_readOnly {update : EStateM ε σ β} (readOnly : ReadOnly update) :
    Preserves property update := by
  intro state holds
  cases outcome : update state with
  | ok result final =>
      refine .of_ok outcome ?_
      rwa [readOnly.2 state result final outcome]
  | error error final =>
      refine .of_error outcome ?_
      rwa [readOnly.1 state error final outcome]

theorem pure (value : β) : Preserves property (pure value : EStateM ε σ β) :=
  of_readOnly (readOnly_pure value)

theorem throw (error : ε) : Preserves property (throw error : EStateM ε σ β) :=
  of_readOnly (readOnly_throw error)

theorem modify {change : σ → σ} (kept : ∀ state, property state → property (change state)) :
    Preserves property (modify change : EStateM ε σ PUnit) :=
  kept

theorem bind {first : EStateM ε σ β} {next : β → EStateM ε σ γ}
    (early : Preserves property first) (late : ∀ result, Preserves property (next result)) :
    Preserves property (first >>= next) := by
  intro state holds
  have between := early state holds
  unfold Leaves at between
  cases outcome : first state with
  | error error middle =>
      rw [outcome] at between
      exact .of_error (bind_of_error outcome) between
  | ok result middle =>
      rw [outcome] at between
      have opened : (first >>= next) state = next result middle := bind_of_ok outcome
      have last := late result middle between
      unfold Leaves at last ⊢
      rwa [opened]

theorem after_check {check : Except ε β} {next : β → EStateM ε σ γ}
    (later : ∀ result, check = .ok result → Preserves property (next result)) :
    Preserves property (liftM check >>= next) :=
  fun state holds => .after_check holds (fun result success => later result success state holds)

/-- What is looked at has the property. -/
theorem after_get {next : σ → EStateM ε σ γ}
    (later : ∀ state, property state → Preserves property (next state)) :
    Preserves property (get >>= next) :=
  fun state holds => .after_get (later state holds state holds)

theorem forM {items : List γ} {update : γ → EStateM ε σ PUnit}
    (each : ∀ item ∈ items, Preserves property (update item)) :
    Preserves property (items.forM update) := by
  induction items with
  | nil => exact pure PUnit.unit
  | cons item rest induction =>
      refine (each item List.mem_cons_self).bind (fun _ => induction ?_)
      exact fun other membership => each other (List.mem_cons_of_mem _ membership)

end Preserves

end Preserving

end Update

end LinearProgram
