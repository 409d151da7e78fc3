import LinearProgram.Proofs.Model.ByRows
import LinearProgram.Proofs.Model.Names
import LinearProgram.Proofs.Options.Offer

/-!
# Added variables

A variable is added in three steps that can be refused: the options are read, the
bounds of a binary variable are clipped and compared again, and the constraints of
the column are asked for their model.  Only then something is written, to the table,
to the names and to the objective at once.  So the refusal tells which step was not
passed, and an added variable is everywhere the one that was offered.
-/

namespace LinearProgram.Model

section Outcomes

variable {model : Model Float} {given : Value Float} {offer : Offer}

theorem clipped_eq_range {kind : VariableKind} (coded : kind.code = offer.kindCode) :
    clipped (.listed kind) offer.lowerBound offer.upperBound = offer.range := by
  rw [Offer.range, ← coded]
  cases kind <;> rfl

/-- After clipping, bounds are in order exactly if they meet the unit interval. -/
theorem requireBinaryBounds_iff (valid : offer.Valid) {kind : VariableKind}
    (coded : kind.code = offer.kindCode) (subject : String) :
    requireBinaryBounds kind offer.range.1 offer.range.2 subject =
        (.ok () : Except (Error Float) Unit) ↔
      (offer.kindCode = "B" → offer.lowerBound ≤ 1 ∧ 0 ≤ offer.upperBound) := by
  cases kind with
  | binary =>
      have clipped : offer.range =
          (Scalar.larger offer.lowerBound 0, Scalar.smaller offer.upperBound 1) :=
        if_pos coded.symm
      rw [clipped, ← coded, ← Double.clipped_ordered_iff valid.ordered]
      simp [requireBinaryBounds, checkBounds, boundsOrdered, VariableKind.code]
  | continuous | integer => simp [requireBinaryBounds, ← coded, VariableKind.code]

theorem kind_of_requireBinaryBounds {kind : VariableKind} {lower upper : Float}
    {subject : String} {error : Error Float}
    (refused : requireBinaryBounds kind lower upper subject = .error error) :
    error.kind = .invalidOptions := by
  unfold requireBinaryBounds checkBounds at refused
  split at refused
  · split at refused
    · cases refused
    · cases refused
      rfl
  · cases refused

theorem addVariable_of_admissible (states : (given.orElse .noOptions).States offer)
    (admissible : offer.Admissible) (listed : model.ListsEntries offer.entries) :
    ∃ kind : VariableKind, kind.code = offer.kindCode ∧
      addVariable given model = .ok model.nextHandle
        ((Write.newVariable (offer.accepted kind) (some model.nextHandle)).onto model) := by
  obtain ⟨kind, coded, read⟩ := Offer.require_of_valid states admissible.toValid
  have ordered := (requireBinaryBounds_iff admissible.toValid coded
    "variable options").mpr admissible.meets
  exact ⟨kind, coded, addVariable_eq read (clipped_eq_range coded) ordered listed⟩

theorem addVariable_of_inadmissible (states : (given.orElse .noOptions).States offer)
    (inadmissible : ¬offer.Admissible) :
    ∃ error, addVariable given model = .error error model ∧
      error.kind = .invalidOptions := by
  by_cases valid : offer.Valid
  · obtain ⟨kind, coded, read⟩ := Offer.require_of_valid states valid
    cases outcome : requireBinaryBounds kind offer.range.1 offer.range.2
        "variable options" with
    | ok passed =>
        have meets := (requireBinaryBounds_iff valid coded _).mp outcome
        exact absurd ⟨valid, meets⟩ inadmissible
    | error error =>
        exact ⟨error, addVariable_of_unordered read (clipped_eq_range coded) outcome,
          kind_of_requireBinaryBounds outcome⟩
  · obtain ⟨error, refused, kind⟩ := Offer.require_of_invalid states valid
    exact ⟨error, addVariable_of_refused refused, kind⟩

/-- The constraints are asked last. -/
theorem addVariable_of_foreign (states : (given.orElse .noOptions).States offer)
    (admissible : offer.Admissible) (foreign : ¬model.OwnsEntries offer.entries) :
    ∃ error, addVariable given model = .error error model ∧
      error.kind = .modelMismatch := by
  obtain ⟨kind, coded, read⟩ := Offer.require_of_valid states admissible.toValid
  have ordered := (requireBinaryBounds_iff admissible.toValid coded
    "variable options").mpr admissible.meets
  have some : ∃ entry ∈ offer.entries, entry.1.owner ≠ .model model.reference := by
    simpa [OwnsEntries] using foreign
  obtain ⟨entry, _, _, refused⟩ := requireEntries_of_foreign some
  refine ⟨.foreignConstraint entry.1.index, ?_, rfl⟩
  refine (Update.bind_of_check read).trans ?_
  rw [Offer.options, clipped_eq_range coded]
  refine (Update.bind_of_check ordered).trans ?_
  exact Update.bind_of_error refused

end Outcomes

section Added

/-- The variable that comes last has a name that no other variable has, and under
which it is found. -/
structure NamedLast (model changed : Model Float) : Prop where
  nonempty : changed.variableName (.place model.columnCount) ≠ ""
  unused : model.variableByName (changed.variableName (.place model.columnCount)) = none
  found : changed.variableByName (changed.variableName (.place model.columnCount)) =
    some model.columnCount
  others : ∀ position < model.columnCount,
    changed.variableName (.place position) = model.variableName (.place position) ∧
      changed.variableName (.place position) ≠
        changed.variableName (.place model.columnCount)

/-- A model has one more variable, which is the one that was offered.  Its handle comes
last among those that the model keeps, as the variable does in the table. -/
structure Adds (model changed : Model Float) (offer : Offer) (handle : Variable) :
    Prop where
  place : handle = model.handle (.place model.columnCount)
  columnCount : changed.columnCount = model.columnCount + 1
  /-- The handles grow with the table, by the one that is returned. -/
  appended : changed.variableHandles = model.variableHandles ++ [handle]
  handleCount : changed.variableHandles.length = changed.columnCount
  last : changed.handle? handle.index = some handle
  others : ∀ position < model.columnCount,
    changed.handle? (.place position) = model.handle? (.place position)
  handles : ∀ position,
    (changed.handle? (.place position)).isSome = true ↔ position < model.columnCount + 1
  bounds : changed.bounds handle.index = offer.range
  /-- The bounds are those that were given, within the unit interval if they have to
  be. -/
  between : ∀ value,
    (changed.bounds handle.index).1 ≤ value ∧ value ≤ (changed.bounds handle.index).2 ↔
      (offer.lowerBound ≤ value ∧ value ≤ offer.upperBound) ∧
        (offer.kindCode = "B" → 0 ≤ value ∧ value ≤ 1)
  kind : (changed.kind handle.index).toValue = .text offer.kindCode
  cost : changed.objectiveCoefficient handle.index =
    if Scalar.nearZero offer.cost then 0 else offer.cost
  name : model.NamedLast changed

variable {model : Model Float} {offer : Offer} {handle : Option Variable}

theorem get?_newVariable (model : Model Float) (options : VariableOptions Float) :
    (Index.place model.columnCount).get?
        ((Write.newVariable options handle).onto model).variableTable =
      some ⟨model.variableNames.unique (options.name.getD "")
        (variableFallback model.columnCount), options.lower, options.upper,
        .listed options.kind⟩ :=
  List.getElem?_concat_length

/-- What a new variable costs is what was asked for, unless that is negligible. -/
theorem objectiveCoefficient_newVariable
    (spans : model.objective.Over model.columnCount) (options : VariableOptions Float) :
    ((Write.newVariable options handle).onto model).objectiveCoefficient
        (.place model.columnCount) =
      if Scalar.nearZero options.objective then 0 else options.objective := by
  have inserted : ((Write.newVariable options handle).onto model).objective =
      model.objective.insert (.place model.columnCount) options.objective := rfl
  rw [objectiveCoefficient, inserted, Row.coefficient_insert_self,
    Row.Over.coefficient_next spans, Row.kept, Double.nearZero_zero_add]
  split
  · rfl
  · rename_i large
    exact Double.zero_add_of_large (by simpa using large)

/-- The unique name under which a variable is entered was not in use. -/
theorem namedLast_newVariable (named : model.Named) (options : VariableOptions Float) :
    model.NamedLast ((Write.newVariable options handle).onto model) := by
  have columns : ((Write.newVariable options handle).onto model).columnNames = _ :=
    model.columnNames_withNewVariable options
  have last : ((Write.newVariable options handle).onto model).variableName
      (.place model.columnCount) = model.variableNames.unique (options.name.getD "")
        (variableFallback model.columnCount) := by
    rw [variableName, get?_newVariable]
    rfl
  have free := model.variableNames.contains_unique (options.name.getD "")
    (variableFallback model.columnCount)
  have nonempty := model.variableNames.unique_ne_empty (options.name.getD "")
    (variableFallback_ne_empty model.columnCount)
  generalize model.variableNames.unique (options.name.getD "")
    (variableFallback model.columnCount) = name at columns last free nonempty
  have listed : model.columnNames.names.length = model.columnCount := List.length_map _
  have consistent := named.columns.append free nonempty
  rw [← columns] at consistent
  constructor
  case nonempty => rwa [last]
  case unused =>
    rw [last]
    simpa [OrderedMap.contains, variableByName] using free
  case found =>
    rw [last]
    apply (consistent.found_iff name model.columnCount).mpr
    rw [columns, ← listed]
    exact List.getElem?_concat_length
  case others =>
    intro position inside
    rw [← listed] at inside
    have kept : ((Write.newVariable options handle).onto model).variableName (.place position) =
        model.variableName (.place position) := by
      rw [variableName_place, variableName_place, columns]
      exact congrArg (Option.getD · "") (List.getElem?_append_left inside)
    refine ⟨kept, ?_⟩
    rw [kept, last, variableName_place, List.getElem?_eq_getElem inside]
    intro same
    apply named.columns.absent free position
    rw [List.getElem?_eq_getElem inside]
    exact congrArg some same

/-- An accepted offer is what is written. -/
theorem adds_newVariable (paired : model.Paired) (named : model.Named)
    (spans : model.objective.Over model.columnCount) (valid : offer.Valid)
    {kind : VariableKind} (coded : kind.code = offer.kindCode) :
    model.Adds ((Write.newVariable (offer.accepted kind)
      (some model.nextHandle)).onto model) offer model.nextHandle := by
  have handles := paired.variableHandles_newVariable (offer.accepted kind)
  rw [paired.nextHandle] at handles ⊢
  let added : Write Float := .newVariable (offer.accepted kind)
    (some (model.handle (.place model.columnCount)))
  have found : (Index.place model.columnCount).get? (added.onto model).variableTable = _ :=
    model.get?_newVariable (offer.accepted kind)
  have count : (added.onto model).columnCount = model.columnCount + 1 :=
    model.columnCount_newVariable _ _
  have kept : ∀ position, (added.onto model).handle? (.place position) =
      if position < model.columnCount + 1 then some (model.handle (.place position))
      else none := by
    intro position
    rw [handle?, handles]
    exact model.reference.get?_firstVariables _ position
  have bounds : (added.onto model).bounds (.place model.columnCount) = offer.range := by
    rw [Model.bounds, found]
    rfl
  have listed : (added.onto model).kind (.place model.columnCount) = .listed kind := by
    rw [Model.kind, found]
    rfl
  constructor
  case place => rfl
  case columnCount => exact count
  case appended => exact variableHandles_onto model added
  case handleCount =>
    rw [handles, ModelRef.length_firstVariables]
    exact count.symm
  case last => exact (kept _).trans (if_pos (Nat.lt_succ_self _))
  case others =>
    intro position inside
    rw [kept, if_pos (Nat.lt_succ_of_lt inside), handle?, paired.columns]
    exact (model.reference.keeps_firstVariables inside).symm
  case handles =>
    intro position
    rw [kept]
    split <;> simp [*]
  case bounds => exact bounds
  case between =>
    intro value
    have within := Offer.between_iff valid value
    rw [← bounds] at within
    exact within
  case kind =>
    have coding : (StoredKind.listed kind : StoredKind Float).toValue =
        .text offer.kindCode := by
      rw [← coded]
      rfl
    rw [← listed] at coding
    exact coding
  case cost => exact objectiveCoefficient_newVariable spans (offer.accepted kind)
  case name => exact namedLast_newVariable named (offer.accepted kind)

end Added

end LinearProgram.Model
