import LinearProgram.Proofs.Double.Rank
import LinearProgram.Proofs.Options

/-!
# Options of the right types

A caller who gives options of the right types states each of them or leaves it
out.  What is left out has a value of its own.  So a name and a column are always
accepted, a bound unless it is undefined, a coefficient of the objective if it is
finite and a kind if it is listed, and then only the order of the bounds is left
to check.
-/

namespace LinearProgram

theorem VariableKind.ofCode?_eq_some_iff {text : String} {kind : VariableKind} :
    ofCode? text = some kind ↔ kind.code = text := by
  constructor
  · intro found
    simpa using List.find?_some found
  · rintro rfl
    exact ofCode?_code kind

/-- Options of a variable, each of its type or left out. -/
structure Offer where
  name : Option String := none
  lower : Option Float := none
  upper : Option Float := none
  objective : Option Float := none
  code : Option String := none
  column : Option (Column Float) := none

namespace Offer

/-- An option as it is given; one that is left out is missing. -/
def stated {β : Type} (make : β → Value Float) (option : Option β) : Value Float :=
  (option.map make).getD .missing

/-- The member of a name.  A column is told from others by its tag. -/
def member (offer : Offer) (tag : Nat) : String → Value Float
  | "name" => stated .text offer.name
  | "lb" => stated .number offer.lower
  | "ub" => stated .number offer.upper
  | "obj" => stated .number offer.objective
  | "varType" => stated .text offer.code
  | "column" => stated (.column tag) offer.column
  | _ => .missing

def lowerBound (offer : Offer) : Float := offer.lower.getD 0

def upperBound (offer : Offer) : Float := offer.upper.getD Scalar.infinity

def cost (offer : Offer) : Float := offer.objective.getD 0

def kindCode (offer : Offer) : String := offer.code.getD "C"

def entries (offer : Offer) : List (Participant × Float) :=
  (offer.column.getD Column.empty).entries

/-- Every option is valid by itself, and the bounds are in order. -/
structure Valid (offer : Offer) : Prop where
  lower : Scalar.isUndefined offer.lowerBound = false
  upper : Scalar.isUndefined offer.upperBound = false
  ordered : offer.lowerBound ≤ offer.upperBound
  cost : Scalar.isFinite offer.cost = true
  kind : offer.kindCode ∈ ["B", "C", "I"]

/-- All options are valid, and the bounds of a binary variable meet the unit
interval. -/
structure Admissible (offer : Offer) : Prop extends Valid offer where
  meets : offer.kindCode = "B" → offer.lowerBound ≤ 1 ∧ 0 ≤ offer.upperBound

/-- The bounds that a variable gets: those of a binary variable are clipped to the
unit interval. -/
def range (offer : Offer) : Float × Float :=
  if offer.kindCode = "B" then
    (Scalar.larger offer.lowerBound 0, Scalar.smaller offer.upperBound 1)
  else (offer.lowerBound, offer.upperBound)

/-- The options as they are read. -/
def options (offer : Offer) (kind : VariableKind) : VariableOptions Float :=
  ⟨offer.name, offer.lowerBound, offer.upperBound, offer.cost, kind, offer.column⟩

/-- The options as they are written. -/
def accepted (offer : Offer) (kind : VariableKind) : VariableOptions Float :=
  { offer.options kind with lower := offer.range.1, upper := offer.range.2 }

theorem kindCode_mem_iff {offer : Offer} :
    offer.kindCode ∈ ["B", "C", "I"] ↔
      ∃ kind : VariableKind, kind.code = offer.kindCode := by
  constructor
  · intro listed
    simp only [List.mem_cons, List.not_mem_nil, or_false] at listed
    rcases listed with binary | continuous | integer
    · exact ⟨.binary, binary.symm⟩
    · exact ⟨.continuous, continuous.symm⟩
    · exact ⟨.integer, integer.symm⟩
  · rintro ⟨kind, same⟩
    rw [← same]
    cases kind <;> decide

/-- Clipping is intersection with the unit interval. -/
theorem between_iff {offer : Offer} (valid : offer.Valid) (value : Float) :
    offer.range.1 ≤ value ∧ value ≤ offer.range.2 ↔
      (offer.lowerBound ≤ value ∧ value ≤ offer.upperBound) ∧
        (offer.kindCode = "B" → 0 ≤ value ∧ value ≤ 1) := by
  have unit : (0 : Float) ≤ 1 := by decide
  obtain ⟨lowerDefined, upperDefined⟩ := Double.defined_of_le valid.ordered
  obtain ⟨zeroDefined, oneDefined⟩ := Double.defined_of_le unit
  by_cases binary : offer.kindCode = "B"
  · rw [range, if_pos binary, Double.larger_le_iff lowerDefined zeroDefined,
      Double.le_smaller_iff upperDefined oneDefined]
    grind
  · rw [range, if_neg binary]
    grind

end Offer

/-- An object states an offer if its declared members are those of the offer. -/
def Value.States (given : Value Float) (offer : Offer) : Prop :=
  given.optionType = "object" ∧ ∃ tag, ∀ name ∈ VariableOptions.names,
    given.member name = offer.member tag name

/-- What is given is not replaced. -/
theorem Value.orElse_of_object {given : Value Float}
    (object : given.optionType = "object") (fallback : Value Float) :
    given.orElse fallback = given := by
  cases given with
  | missing => exact absurd object (by decide)
  | _ => rfl

namespace Offer

/-- All declared members of an offer in one record. -/
def record (offer : Offer) (tag label : Nat) : Value Float :=
  .record (VariableOptions.names.map (fun name => (name, offer.member tag name))) label

theorem member_record (offer : Offer) (tag label : Nat) {name : String}
    (declared : name ∈ VariableOptions.names) :
    (offer.record tag label).member name = offer.member tag name := by
  simp only [VariableOptions.names, List.mem_cons, List.not_mem_nil, or_false] at declared
  rcases declared with rfl | rfl | rfl | rfl | rfl | rfl <;> rfl

theorem states_record (offer : Offer) (tag label : Nat) :
    (offer.record tag label).States offer :=
  ⟨rfl, tag, fun _ declared => offer.member_record tag label declared⟩

/-- A caller who gives no options leaves all of them out. -/
theorem states_noOptions : (Value.noOptions : Value Float).States {} := by
  refine ⟨rfl, 0, ?_⟩
  intro name _
  unfold member
  split <;> rfl

end Offer

section Members

open Offer (stated)

theorem gives_name_iff {value : Option String} (option : Option String) :
    (Reader.text.optional (stated .text option : Value Float)).Gives value ↔
      option = value := by
  cases option <;>
    simp [stated, Reader.optional, Reader.text, Reading.Gives, Reading.good, Reading.map]

theorem gives_column_iff {tag : Nat} {value : Option (Column Float)}
    (option : Option (Column Float)) :
    (Reader.column.optional (stated (.column tag) option)).Gives value ↔
      option = value := by
  cases option <;>
    simp [stated, Reader.optional, Reader.column, Reading.Gives, Reading.good, Reading.map]

theorem gives_bound_iff {default value : Float}
    (defined : Scalar.isUndefined default = false) (option : Option Float) :
    (Reader.bound.withDefault default (stated .number option)).Gives value ↔
      Scalar.isUndefined (option.getD default) = false ∧
        option.getD default = value := by
  cases option with
  | none => simp [stated, Reader.withDefault, Reading.Gives, Reading.good, defined]
  | some bound =>
      cases undefined : Scalar.isUndefined bound <;>
        simp [stated, Reader.withDefault, Reader.bound, Reader.number, undefined,
          Reading.Gives, Reading.good, Reading.bad]

theorem gives_objective_iff {value : Float} (option : Option Float) :
    (Reader.objective.withDefault 0 (stated .number option)).Gives value ↔
      Scalar.isFinite (option.getD 0) = true ∧ option.getD 0 = value := by
  cases option with
  | none =>
      have finite : Scalar.isFinite (0 : Float) = true := LawfulScalar.isFinite_zero
      simp [stated, Reader.withDefault, Reading.Gives, Reading.good, finite]
  | some coefficient =>
      cases undefined : Scalar.isUndefined coefficient with
      | true =>
          have infinite : Scalar.isFinite coefficient = false := by
            rw [← Bool.not_eq_true]
            intro finite
            exact Double.defined_of_isFinite finite (Double.isUndefined_iff.mp undefined)
          simp [stated, Reader.withDefault, Reader.objective, Reader.finiteNumber,
            Reader.number, undefined, infinite, Reading.Gives, Reading.bad]
      | false =>
          cases finite : Scalar.isFinite coefficient <;>
            simp [stated, Reader.withDefault, Reader.objective, Reader.finiteNumber,
              Reader.number, undefined, finite, Reading.Gives, Reading.good]

theorem gives_kind_iff {kind : VariableKind} (option : Option String) :
    (Reader.kind.withDefault .continuous (stated .text option)).Gives kind ↔
      kind.code = option.getD "C" := by
  cases option with
  | none => cases kind <;> simp [stated, Reader.withDefault, Reading.Gives, Reading.good,
      VariableKind.code]
  | some code =>
      rw [Option.getD_some, ← VariableKind.ofCode?_eq_some_iff]
      cases found : VariableKind.ofCode? code <;>
        simp [stated, Reader.withDefault, Reader.kind, Reader.code, found,
          Reading.Gives, Reading.good, Reading.bad]

end Members

namespace Offer

variable {offer : Offer} {given : Value Float} {options : VariableOptions Float}

private theorem gives_member_iff {β : Type} {name : String} {reader : Reader Float β}
    {member : Value Float} {value : β} (same : given.member name = member) :
    (Reader.member name reader given).Gives value ↔ (reader member).Gives value := by
  rw [Reader.member, Reading.gives_within_iff, same]

/-- Options are accepted as they are stated, if all of them are valid. -/
theorem readFrom_iff (states : given.States offer) :
    options.ReadFrom given ↔ offer.Valid ∧
      ∃ kind : VariableKind, kind.code = offer.kindCode ∧
        options = offer.options kind := by
  obtain ⟨_, tag, members⟩ := states
  have zeroDefined : Scalar.isUndefined (0 : Float) = false := by decide
  have infinityDefined : Scalar.isUndefined (Scalar.infinity : Float) = false := by
    decide
  have name := (gives_member_iff (members "name" (by decide))).trans
    (@gives_name_iff options.name offer.name)
  have lower := (gives_member_iff (members "lb" (by decide))).trans
    (@gives_bound_iff 0 options.lower zeroDefined offer.lower)
  have upper := (gives_member_iff (members "ub" (by decide))).trans
    (@gives_bound_iff _ options.upper infinityDefined offer.upper)
  have objective := (gives_member_iff (members "obj" (by decide))).trans
    (@gives_objective_iff options.objective offer.objective)
  have kind := (gives_member_iff (members "varType" (by decide))).trans
    (@gives_kind_iff options.kind offer.code)
  have column := (gives_member_iff (members "column" (by decide))).trans
    (@gives_column_iff tag options.column offer.column)
  obtain ⟨readName, readLower, readUpper, readObjective, readKind, readColumn⟩ := options
  constructor
  · intro read
    obtain rfl := name.mp read.name
    obtain ⟨lowerDefined, rfl⟩ := lower.mp read.lower
    obtain ⟨upperDefined, rfl⟩ := upper.mp read.upper
    obtain ⟨finite, rfl⟩ := objective.mp read.objective
    obtain rfl := column.mp read.column
    have coded := kind.mp read.kind
    exact ⟨⟨lowerDefined, upperDefined, read.ordered, finite,
      kindCode_mem_iff.mpr ⟨readKind, coded⟩⟩, readKind, coded, rfl⟩
  · rintro ⟨valid, listed, coded, same⟩
    cases same
    exact ⟨name.mpr rfl, lower.mpr ⟨valid.lower, rfl⟩, upper.mpr ⟨valid.upper, rfl⟩,
      objective.mpr ⟨valid.cost, rfl⟩, kind.mpr coded, column.mpr rfl, valid.ordered⟩

variable {subject : String}

theorem require_of_valid (states : given.States offer) (valid : offer.Valid) :
    ∃ kind : VariableKind, kind.code = offer.kindCode ∧
      VariableOptions.read.require subject given = .ok (offer.options kind) := by
  obtain ⟨kind, coded⟩ := kindCode_mem_iff.mp valid.kind
  have read := (readFrom_iff states).mpr ⟨valid, kind, coded, rfl⟩
  exact ⟨kind, coded, Reading.conclude_eq_ok_iff.mpr
    ((VariableOptions.gives_iff_readFrom states.1).mpr read)⟩

theorem require_of_invalid (states : given.States offer) (invalid : ¬offer.Valid) :
    ∃ error, VariableOptions.read.require subject given = .error error ∧
      error.kind = .invalidOptions := by
  cases outcome : VariableOptions.read.require subject given with
  | error error => exact ⟨error, rfl, Reading.kind_of_conclude outcome⟩
  | ok options =>
      have read := VariableOptions.readFrom_of_require outcome
      exact absurd ((readFrom_iff states).mp read).1 invalid

end Offer

end LinearProgram
