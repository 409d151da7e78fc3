import LinearProgram.Value.Accepted

/-!
# Reading loosely typed arguments

A reading collects everything that is wrong with an argument instead of stopping at the
first fault.  It may hold a value and issues at once: a number that is refused only for its
size is still a number, so a later rule that needs it can be checked as well.  Readings of
several members are put together in the order in which the members are declared.
-/

namespace LinearProgram

/-- What was read, if anything, and what is wrong with it. -/
structure Reading (β : Type) where
  value? : Option β
  issues : List Issue := []

namespace Reading

variable {α β γ : Type} [Scalar α]

/-- A value with nothing wrong. -/
def good (value : β) : Reading β := ⟨some value, []⟩

/-- No value, for one reason. -/
def bad (fault : Fault) : Reading β := ⟨none, [⟨[], fault⟩]⟩

def map (function : β → γ) (reading : Reading β) : Reading γ :=
  ⟨reading.value?.map function, reading.issues⟩

/-- Read two things; the faults of the first come first. -/
def both (first : Reading (β → γ)) (second : Reading β) : Reading γ :=
  ⟨first.value?.bind (fun function => second.value?.map function), first.issues ++ second.issues⟩

instance : Functor Reading where
  map function reading := reading.map function

instance : Applicative Reading where
  pure := good
  seq first second := both first (second ())

/-- State where inside an argument the reading was made. -/
def within (name : String) (reading : Reading β) : Reading β :=
  { reading with
    issues := reading.issues.map (fun issue => { issue with path := name :: issue.path }) }

/-- A rule between members.  It is checked whenever there is a value, and broken at a named
member. -/
def satisfying (reading : Reading β) (rule : β → Bool) (place : List String) (fault : Fault) :
    Reading β :=
  match reading.value? with
  | some value =>
    if rule value then reading else { reading with issues := reading.issues ++ [⟨place, fault⟩] }
  | none => reading

/-- The value if nothing is wrong, and all that is wrong otherwise. -/
def conclude (subject : Value α) (reading : Reading β) : Except (Error α) β :=
  match reading.value?, reading.issues with
  | some value, [] => .ok value
  | _, issues => .error (.invalidOptions subject issues)

end Reading

/-- How a value is read. -/
abbrev Reader (α β : Type) [Scalar α] := Value α → Reading β

namespace Reader

variable {α β : Type} [Scalar α]

/-- Another type was expected; where nothing was given, that is the fault. -/
def refuse (expected : String) (value : Value α) : Reading β :=
  match value with
  | .missing => .bad .required
  | other => .bad (.wrongType expected other.optionType)

def text : Reader α String
  | .text value => .good value
  | other => refuse "string" other

/-- A number; infinities are numbers, an undefined number is not. -/
def number : Reader α α
  | .number value =>
    if Scalar.isUndefined value then .bad (.wrongType "number" "nan") else .good value
  | other => refuse "number" other

/-- A finite number.  An infinite one is refused but remains known as a number. -/
def finiteNumber : Reader α α := fun value =>
  let reading := number value
  match reading.value? with
  | some number =>
    if Scalar.isFinite number then reading else ⟨some number, [⟨[], .notFinite⟩]⟩
  | none => reading

/-- One of the texts of a closed vocabulary. -/
def code (codes : List String) (decode : String → Option β) : Reader α β
  | .text value =>
    match decode value with
    | some decoded => .good decoded
    | none => .bad (.notListed codes value)
  | .number value =>
    if Scalar.isUndefined value then .bad (.wrongType (alternatives codes) "nan")
    else .bad (.notListed codes (Scalar.text value))
  | other => refuse (alternatives codes) other

def column : Reader α (Column α)
  | .column _ value => .good value
  | _ => .bad .notColumn

/-- A member that may be absent. -/
def optional (reader : Reader α β) : Reader α (Option β)
  | .missing => .good none
  | given => (reader given).map some

/-- A member with a value of its own where none is given. -/
def withDefault (reader : Reader α β) (value : β) : Reader α β
  | .missing => .good value
  | given => reader given

/-- The items of a list, each read at its position. -/
def itemsFrom (reader : Reader α β) : Nat → List (Value α) → Reading (List β)
  | _, [] => .good []
  | position, item :: rest =>
    List.cons <$> (reader item).within (toString position) <*> itemsFrom reader (position + 1) rest

def list (reader : Reader α β) : Reader α (List β)
  | .list items _ => itemsFrom reader 0 items
  | other => refuse "array" other

def member (name : String) (reader : Reader α β) : Reader α β :=
  fun value => (reader (value.member name)).within name

/-- Read a value, or refuse it with all that is wrong.  The refusal names a subject. -/
def requireFor (reader : Reader α β) (subject value : Value α) : Except (Error α) β :=
  (reader value).conclude subject

/-- Read a value, or refuse it with all that is wrong. -/
def require (reader : Reader α β) (subject : String) (value : Value α) : Except (Error α) β :=
  reader.requireFor (.text subject) value

/-- A record, or another object in its place; its members are read one by one. -/
def object (reader : Reader α β) : Reader α β := fun value =>
  if value.optionType = "object" then reader value else refuse "object" value

end Reader

end LinearProgram
