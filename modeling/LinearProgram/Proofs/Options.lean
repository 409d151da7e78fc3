import LinearProgram.Options
import LinearProgram.Proofs.Scalar.Laws

/-!
# What accepted options tell

A reading is accepted only if there is a value and nothing is wrong with it.  So
the rules that were checked on the way hold of every accepted value.
-/

namespace LinearProgram

variable {α β : Type} [Scalar α]

namespace Reading

/-- A value was read and nothing is wrong with it. -/
def Gives (reading : Reading β) (value : β) : Prop :=
  reading.value? = some value ∧ reading.issues = []

theorem conclude_eq_ok_iff {subject : Value α} {reading : Reading β}
    {value : β} :
    reading.conclude subject = .ok value ↔ reading.Gives value := by
  obtain ⟨read, issues⟩ := reading
  unfold conclude Gives
  cases read with
  | none => simp
  | some read => cases issues <;> simp

/-- Whatever is wrong, it is the options that are refused. -/
theorem kind_of_conclude {subject : Value α} {reading : Reading β}
    {error : Error α} (refused : reading.conclude subject = .error error) :
    error.kind = .invalidOptions := by
  obtain ⟨read, issues⟩ := reading
  unfold conclude at refused
  split at refused
  · cases refused
  · cases refused
    rfl

variable {γ : Type} {value : β}

theorem gives_map_iff {change : γ → β} {reading : Reading γ} :
    (change <$> reading).Gives value ↔
      ∃ read, reading.Gives read ∧ change read = value := by
  change (reading.value?.map change = _ ∧ reading.issues = _) ↔ _
  simp only [Option.map_eq_some_iff, Gives]
  grind

theorem gives_seq_iff {first : Reading (γ → β)} {second : Reading γ} :
    (first <*> second).Gives value ↔
      ∃ change read, first.Gives change ∧ second.Gives read ∧
        change read = value := by
  change (first.value?.bind (fun change => second.value?.map change) = _ ∧
    first.issues ++ second.issues = _) ↔ _
  simp only [Option.bind_eq_some_iff, Option.map_eq_some_iff,
    List.append_eq_nil_iff, Gives]
  grind

theorem gives_within_iff {name : String} {reading : Reading β} :
    (reading.within name).Gives value ↔ reading.Gives value := by
  simp [Gives, within]

/-- Nothing is wrong with a value if nothing is wrong with its members, and it
satisfies the rule between them. -/
theorem gives_satisfying_iff {reading : Reading β} {rule : β → Bool}
    {place : List String} {fault : Fault} :
    (reading.satisfying rule place fault).Gives value ↔
      reading.Gives value ∧ rule value = true := by
  obtain ⟨read, issues⟩ := reading
  cases read with
  | none => simp [satisfying, Gives]
  | some read =>
      by_cases obeyed : rule read = true
      · simp only [satisfying, obeyed, if_true, Gives, Option.some_inj]
        exact ⟨fun gives => ⟨gives, gives.1 ▸ obeyed⟩, And.left⟩
      · simp only [satisfying, obeyed, Gives, Option.some_inj]
        constructor
        · rintro ⟨_, none⟩
          simp at none
        · rintro ⟨⟨rfl, _⟩, kept⟩
          exact absurd kept obeyed

/-- What a rule does not look at can be changed before or after the rule. -/
theorem conclude_satisfying_map {change : β → β}
    {rule : β → Bool} (blind : ∀ value, rule (change value) = rule value)
    (reading : Reading β) (place : List String) (fault : Fault)
    (subject : Value α) :
    ((change <$> reading).satisfying rule place fault).conclude subject =
      ((reading.satisfying rule place fault).conclude subject).map change := by
  obtain ⟨value, issues⟩ := reading
  cases value with
  | none => rfl
  | some value =>
      change ((Reading.mk (some (change value)) issues).satisfying rule place
        fault).conclude subject = _
      simp only [satisfying, blind value]
      split
      · cases issues <;> rfl
      · cases issues <;> rfl

end Reading

/-- A coefficient of the objective is accepted only if it is finite. -/
theorem Reader.finite_of_objective {given : Value α} {value : α}
    (gives : (Reader.objective given).Gives value) :
    Scalar.isFinite value = true := by
  unfold Reader.objective Reader.finiteNumber at gives
  dsimp only at gives
  split at gives
  · rename_i number read
    split at gives
    · rename_i finite
      cases read.symm.trans gives.1
      exact finite
    · exact absurd gives.2 nofun
  · rename_i missing
    exact absurd (missing.symm.trans gives.1) nofun

theorem Reader.finite_of_require {subject : String} {given : Value α} {value : α}
    (accepted : Reader.objective.require subject given = .ok value) :
    Scalar.isFinite value = true :=
  finite_of_objective (Reading.conclude_eq_ok_iff.mp accepted)

theorem ordered_of_checkBounds {lower upper : α} {subject : String}
    (passed : checkBounds lower upper subject = .ok ()) : lower ≤ upper := by
  unfold checkBounds boundsOrdered at passed
  split at passed
  · rename_i ordered
    exact of_decide_eq_true ordered
  · cases passed

/-- Options as they are accepted: each member is read by itself, and the bounds
are in order. -/
structure VariableOptions.ReadFrom (given : Value α)
    (options : VariableOptions α) : Prop where
  name : (Reader.member "name" Reader.text.optional given).Gives options.name
  lower : (Reader.member "lb" (Reader.bound.withDefault 0) given).Gives
    options.lower
  upper : (Reader.member "ub" (Reader.bound.withDefault Scalar.infinity)
    given).Gives options.upper
  objective : (Reader.member "obj" (Reader.objective.withDefault 0) given).Gives
    options.objective
  kind : (Reader.member "varType" (Reader.kind.withDefault .continuous)
    given).Gives options.kind
  column : (Reader.member "column" Reader.column.optional given).Gives
    options.column
  ordered : options.lower ≤ options.upper

/-- The options of an object are accepted if its members are. -/
theorem VariableOptions.gives_iff_readFrom {given : Value α}
    (object : given.optionType = "object") {options : VariableOptions α} :
    (VariableOptions.read given).Gives options ↔ options.ReadFrom given := by
  unfold VariableOptions.read Reader.object
  simp only [if_pos object, Reading.gives_satisfying_iff, Reading.gives_seq_iff,
    Reading.gives_map_iff, boundsOrdered, decide_eq_true_eq]
  constructor
  · rintro ⟨⟨_, _, ⟨_, _, ⟨_, _, ⟨_, _, ⟨_, _, ⟨_, name, rfl⟩, lower, rfl⟩,
      upper, rfl⟩, objective, rfl⟩, kind, rfl⟩, column, rfl⟩, ordered⟩
    exact ⟨name, lower, upper, objective, kind, column, ordered⟩
  · rintro ⟨name, lower, upper, objective, kind, column, ordered⟩
    exact ⟨⟨_, _, ⟨_, _, ⟨_, _, ⟨_, _, ⟨_, _, ⟨_, name, rfl⟩, lower, rfl⟩,
      upper, rfl⟩, objective, rfl⟩, kind, rfl⟩, column, rfl⟩, ordered⟩

theorem VariableOptions.readFrom_of_require {subject : String} {given : Value α}
    {options : VariableOptions α}
    (accepted : VariableOptions.read.require subject given = .ok options) :
    options.ReadFrom given := by
  have read := Reading.conclude_eq_ok_iff.mp accepted
  by_cases object : given.optionType = "object"
  · exact (gives_iff_readFrom object).mp read
  · unfold VariableOptions.read Reader.object at read
    rw [if_neg object] at read
    unfold Reader.refuse at read
    split at read <;> cases read.1

/-- The coefficient of a new variable in the objective is finite. -/
theorem VariableOptions.ReadFrom.finite [LawfulScalar α] {given : Value α}
    {options : VariableOptions α} (read : options.ReadFrom given) :
    Scalar.isFinite options.objective = true := by
  have gives := Reading.gives_within_iff.mp read.objective
  unfold Reader.withDefault at gives
  split at gives
  · rw [← Option.some.inj gives.1]
    exact LawfulScalar.isFinite_zero
  · exact Reader.finite_of_objective gives

end LinearProgram
