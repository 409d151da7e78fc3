import LinearProgram.Text.Numeral

/-!
# Indices

Variables and constraints are filed under an index.  Most indices are places in a table, but a
handle can be made for any number: a negative one, a fraction, one that no table reaches, an
infinite or even an undefined one.  Where no number was stated, whatever stands in its place is a
label.  Such an index is filed and written like any other.  It only never finds anything in a table,
except that a label may spell out a place.

An object in the place of a number is a label as well.  It is the same label only where it is the
same object, so labels also tell apart what is not known by a number.

Indices are ordered as numbers.  The order of finite ones is that of exact rationals.  The undefined
index is not ordered, and although things can be filed under it, it is not the same as any index,
itself included.
-/

namespace LinearProgram

/-- No table has so many entries. -/
def tableLimit : Nat := 0x100000000

/-- What tells an object from all others. -/
inductive Identity where
  | model (id : Nat)
  /-- The handle that a model itself keeps for a variable. -/
  | keptVariable (model position : Nat)
  /-- The handle that a model itself keeps for a constraint. -/
  | keptConstraint (model position : Nat)
  | expression (number : Nat)
  /-- Everything else has a tag of its own. -/
  | tagged (tag : Nat)
  deriving DecidableEq, Repr

/-- What may stand in the place of a number. -/
inductive Label where
  /-- Nothing was stated. -/
  | absent
  | void
  | truth (value : Bool)
  | text (value : String)
  /-- An object, and how it is written. -/
  | object (identity : Identity) (text : String)
  deriving DecidableEq, Repr

namespace Label

/-- How a message writes a label. -/
def written : Label → String
  | absent => "undefined"
  | void => "null"
  | truth value => if value then "true" else "false"
  | text value => value
  | object _ shown => shown

/-- The number for which a label counts: void labels count for zero, truth values for zero or one,
and texts for the numbers that they write. -/
def number {α : Type} [Scalar α] : Label → α
  | absent => Scalar.undefined
  | void => 0
  | truth value => if value then 1 else 0
  | text value => Text.number value
  | object _ shown => Text.number shown

end Label

/-- A place in a table, a number that is no place, or a label. -/
inductive Index where
  | place (position : Nat)
  | elsewhere (number : Rat)
  /-- Below all numbers. -/
  | below
  /-- Above all numbers. -/
  | above
  | undefined
  | label (label : Label)
  deriving DecidableEq, Repr

/-- The number that a text spells out, if it does so without superfluous digits. -/
def numeral? (text : String) : Option Nat :=
  text.toNat?.filter (fun number => toString number = text && number + 1 < tableLimit)

namespace Index

/-- The index where none was stated. -/
def absent : Index := label .absent

def ofRat (number : Rat) : Index :=
  if number.den = 1 ∧ 0 ≤ number.num ∧ number.num < tableLimit then place number.num.toNat
  else elsewhere number

/-- The number of an index, if it is finite. -/
def toRat? : Index → Option Rat
  | place position => some position
  | elsewhere number => some number
  | below | above | undefined | label _ => none

def next : Index → Index
  | place position => place (position + 1)
  | elsewhere number => ofRat (number + 1)
  | endless => endless

/-- Whether two indices are of the same number, or are the same label. -/
def same (first second : Index) : Bool := first = second && first ≠ undefined

theorem same_iff {first second : Index} :
    first.same second = true ↔ first = second ∧ first ≠ undefined := by
  simp [same]

section Table

variable {β : Type}

def position? : Index → Option Nat
  | place position => some position
  | label (.text text) | label (.object _ text) => numeral? text
  | _ => none

/-- The index as the place that it states, if it states one. -/
def settled (index : Index) : Index := (index.position?.map place).getD index

/-- What a table has at an index. -/
def get? (index : Index) (table : List β) : Option β :=
  match index.position? with
  | some position => table[position]?
  | none => none

/-- Where a table has something at an index that spells out no place, the index is a place. -/
theorem eq_place_of_get? {index : Index} {table : List β} {entry : β}
    (settled : index.settled = index) (found : index.get? table = some entry) :
    ∃ position < table.length, index = place position := by
  unfold get? at found
  unfold Index.settled at settled
  split at found
  · rename_i position stated
    rw [stated] at settled
    obtain ⟨inside, _⟩ := List.getElem?_eq_some_iff.mp found
    exact ⟨position, inside, settled.symm⟩
  · cases found

/-- Change what a table has at an index. -/
def modify (index : Index) (change : β → β) (table : List β) : List β :=
  match index.position? with
  | some position => table.modify position change
  | none => table

theorem mem_of_get? {index : Index} {table : List β} {entry : β}
    (found : index.get? table = some entry) : entry ∈ table := by
  unfold get? at found
  split at found
  · exact List.mem_of_getElem? found
  · cases found

/-- An entry of a table after a change is one from before, or it is the changed one. -/
theorem mem_modify {index : Index} {change : β → β} {table : List β} {entry : β}
    (membership : entry ∈ index.modify change table) :
    entry ∈ table ∨ ∃ old, index.get? table = some old ∧ entry = change old := by
  unfold modify at membership
  unfold get?
  split at membership
  · rename_i position _
    obtain ⟨place, found⟩ := List.mem_iff_getElem?.1 membership
    rw [List.getElem?_modify] at found
    obtain ⟨old, present, changed⟩ := Option.map_eq_some_iff.1 found
    by_cases reached : position = place
    · subst reached
      rw [if_pos rfl] at changed
      exact .inr ⟨old, present, changed.symm⟩
    · rw [if_neg reached] at changed
      subst changed
      exact .inl (List.mem_of_getElem? present)
  · exact .inl membership

theorem get?_modify_self (index : Index) (change : β → β) (table : List β) :
    index.get? (index.modify change table) = (index.get? table).map change := by
  unfold get? modify
  cases index.position? <;> simp

theorem get?_modify_of_ne {index other : Index} (different : other.position? ≠ index.position?)
    (change : β → β) (table : List β) :
    other.get? (index.modify change table) = other.get? table := by
  unfold get? modify
  cases stated : index.position? with
  | none => rfl
  | some position =>
      cases sought : other.position? with
      | none => rfl
      | some counterpart =>
          have apart : position ≠ counterpart := by
            intro equal
            exact different (by rw [stated, sought, equal])
          simp [apart]

end Table

section Number

variable {α : Type} [Scalar α]

def ofNumber (value : α) : Index :=
  match Scalar.rational? value with
  | some number => ofRat number
  | none => if Scalar.isUndefined value then undefined else if value < 0 then below else above

def number : Index → α
  | place position => Scalar.ofNat position
  | elsewhere number => Scalar.ofRat number
  | below => -Scalar.infinity
  | above => Scalar.infinity
  | undefined => Scalar.undefined
  | label stated => stated.number

variable (α) in
/-- How a message writes an index. -/
def text : Index → String
  | place position => toString position
  | label stated => stated.written
  | other => Scalar.text (other.number : α)

variable (α) in
/-- The index without labels: each is replaced by the number for which it counts. -/
def ordinal : Index → Index
  | label stated => ofNumber (stated.number : α)
  | number => number

variable (α) in
/-- Whether an index has to stand before another one: both are ordered, and it is smaller. -/
def before (first second : Index) : Bool :=
  match first.ordinal α, second.ordinal α with
  | undefined, _ | _, undefined | _, below | above, _ => false
  | below, _ | _, above => true
  | first, second =>
    match first.toRat?, second.toRat? with
    | some lower, some upper => lower < upper
    | _, _ => false

end Number

end Index

end LinearProgram
