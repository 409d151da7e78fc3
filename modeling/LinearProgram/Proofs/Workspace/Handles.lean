import LinearProgram.Proofs.Handles.Runs
import LinearProgram.Proofs.Workspace.Keys

/-!
# Handles are interchangeable

A caller may have several handles of one variable.  Whichever of them is given to an
operation, every call succeeds or is refused as it would with another one, and no
question has another answer.  The one thing that shows a difference is the snapshot of
an expression, which lists each term under the very handle that the term has kept.
-/

namespace LinearProgram.Workspace

variable {α : Type} [Scalar α]

/-- Two workspaces that answer all questions alike, if arguments are given that are the
same up to handles.  What models hold is all the same: rows, columns, names, bounds,
objectives, solutions and conflicts. -/
structure Indistinct (first second : Workspace α) : Prop where
  models : first.models = second.models
  naming : first.naming = second.naming
  objects : ∀ name, (first.object? name).map Value.kept = (second.object? name).map Value.kept
  count : first.heap.size = second.heap.size
  constant : ∀ number, (first.expression number).constant = (second.expression number).constant
  relation : ∀ number, (first.expression number).relation = (second.expression number).relation
  terms : ∀ number, (first.expression number).termList.map Term.kept =
    (second.expression number).termList.map Term.kept
  key : ∀ number, (first.expression number).key = (second.expression number).key
  coefficient : ∀ number participant other, participant.kept = other.kept →
    (first.expression number).coefficient participant =
      (second.expression number).coefficient other
  has : ∀ number participant other, participant.kept = other.kept →
    (first.expression number).has participant = (second.expression number).has other
  equals : ∀ number value other, value.kept = other.kept →
    first.answer ((first.expression number).equalsValue first.amount value) =
      second.answer ((second.expression number).equalsValue second.amount other)
  amount : ∀ value other, value.kept = other.kept →
    first.answer (first.amount value) = second.answer (second.amount other)
  title : ∀ title, first.answer (first.write title) = second.answer (second.write title)
  text : ∀ number, first.answer (first.render (first.expression number)) =
    second.answer (second.render (second.expression number))
  value : ∀ number, first.answer (first.value (first.expression number)) =
    second.answer (second.value (second.expression number))
  violation : ∀ number, first.answer (first.violation (first.expression number)) =
    second.answer (second.violation (second.expression number))
  column : ∀ constraints others coefficients counterparts : Value α,
    constraints.kept = others.kept → coefficients.kept = counterparts.kept →
      first.answer ((Column.build constraints coefficients).map Column.kept) =
        second.answer ((Column.build others counterparts).map Column.kept)
  literal : ∀ value other : Value α, value.kept = other.kept →
    first.answer ((Literal.ofValue value).map Literal.kept) =
      second.answer ((Literal.ofValue other).map Literal.kept)
  conflicting : ∀ reference one other next further, one.kept = next.kept →
    other.kept = further.kept →
    first.answer (first.conflicting reference one other) =
      second.answer (second.conflicting reference next further)
  conflicts : ∀ reference value other, value.kept = other.kept →
    first.answer (first.conflicts reference value) =
      second.answer (second.conflicts reference other)

section Questions

variable {first second : Workspace α} (same : first.kept = second.kept)

include same

theorem answer_of_alike_id {β : Type} {outcome other : Except (Error α) β}
    (alike : Check.Alike id outcome other) : first.answer outcome = second.answer other := by
  cases alike with
  | ok results => exact congrArg Except.ok results
  | error reasons => exact congrArg Except.error (told_of_kept same reasons)

theorem answer_of_eq {β : Type} {outcome other : Except (Error α) β} (equal : outcome = other) :
    first.answer outcome = second.answer other :=
  answer_of_alike_id same (.of_eq equal)

theorem equalsValue_of_kept (number : Nat) {value other : Value α}
    (values : value.kept = other.kept) :
    (first.expression number).equalsValue first.amount value =
      (second.expression number).equalsValue second.amount other := by
  have amounts : first.amount = second.amount := by
    funext value
    exact amount_of_kept same rfl
  have members (workspace : Workspace α) (given : Value α) :
      workspace.amount given.keptMember = workspace.amount given :=
    amount_of_kept rfl given.kept_keptMember
  rw [← Expression.equalsValue_kept _ (members first), expression_of_kept same, values, amounts,
    Expression.equalsValue_kept _ (members second)]

/-- Workspaces that differ in nothing but handles answer all questions alike. -/
theorem indistinct_of_kept : first.Indistinct second := by
  have expressions := expression_of_kept same
  refine
    { models := models_of_kept same
      naming := naming_of_kept same
      objects := object?_of_kept same
      count := Heap.size_of_kept (heap_of_kept same)
      constant := fun number => Expression.constant_of_kept (expressions number)
      relation := fun number => Expression.relation_of_kept (expressions number)
      terms := fun number => Expression.termList_of_kept (expressions number)
      key := ?key
      coefficient := ?coefficient
      has := ?has
      equals := fun number _ _ values => answer_of_eq same (equalsValue_of_kept same number values)
      amount := fun _ _ values => answer_of_eq same (amount_of_kept same values)
      title := ?title
      text := ?text
      value := ?value
      violation := ?violation
      column := ?column
      literal := fun _ _ values =>
        answer_of_alike same (Value.alike_of_kept Literal.ofValue_alike values)
      conflicting := ?conflicting
      conflicts := ?conflicts }
  case key =>
    intro number
    rw [← Expression.key_kept, expressions, Expression.key_kept]
  case coefficient =>
    intro number participant other participants
    rw [← Expression.coefficient_kept, expressions, participants, Expression.coefficient_kept]
  case has =>
    intro number participant other participants
    rw [← Expression.has_kept, expressions, participants, Expression.has_kept]
  case title =>
    intro title
    apply answer_of_eq same
    rw [← first.write_kept, same, write_kept]
  case text =>
    intro number
    apply answer_of_eq same
    rw [← first.render_kept, same, expressions, render_kept]
  case value =>
    intro number
    apply answer_of_eq same
    rw [← first.value_kept, same, expressions, value_kept]
  case violation =>
    intro number
    apply answer_of_eq same
    rw [← first.violation_kept, same, expressions, violation_kept]
  case column =>
    intro constraints others coefficients counterparts handles numbers
    have early := Column.build_alike constraints coefficients
    have late := Column.build_alike others counterparts
    rw [← handles, ← numbers] at late
    exact answer_of_alike same (early.trans late.symm)
  case conflicting =>
    intro reference one other next further ones others
    apply answer_of_alike_id same
    have early := first.conflicting_alike reference one other
    have late := second.conflicting_alike reference next further
    rw [← same, ← ones, ← others] at late
    exact early.trans late.symm
  case conflicts =>
    intro reference value other values
    exact answer_of_alike_id same (alike_of_kept same
      (fun workspace given => workspace.conflicts_alike reference given) values)

end Questions

section Snapshots

variable {expression : Expression α} {steps : List (Step α)}

omit [Scalar α] in
theorem mem_snapshot_iff (filed : expression.terms.Filed) {participant : Participant}
    {coefficient : α} : (participant, coefficient) ∈ expression.snapshot ↔
      expression.terms.get? participant.index = some ⟨participant, coefficient⟩ := by
  rw [OrderedMap.get?_eq_some_iff]
  constructor
  · intro listed
    obtain ⟨term, membership, same⟩ := List.mem_map.mp listed
    obtain ⟨entry, present, rfl⟩ := List.mem_map.mp membership
    cases same
    rw [filed entry present]
    exact present
  · intro present
    exact List.mem_map.mpr ⟨_, List.mem_map.mpr ⟨_, present, rfl⟩, rfl⟩

omit [Scalar α] in
theorem exists_mem_snapshot_iff (filed : expression.terms.Filed) {participant : Participant} :
    (∃ coefficient, (participant, coefficient) ∈ expression.snapshot) ↔
      expression.terms.key? participant.index = some participant := by
  simp only [mem_snapshot_iff filed, Terms.key?, Option.map_eq_some_iff]
  constructor
  · rintro ⟨coefficient, found⟩
    exact ⟨_, found, rfl⟩
  · rintro ⟨⟨_, coefficient⟩, found, rfl⟩
    exact ⟨coefficient, found⟩

omit [Scalar α] in
/-- The handles in a snapshot are handles of different variables. -/
theorem nodup_snapshot (filed : expression.terms.Filed) :
    (expression.snapshot.map (fun entry => entry.1.index)).Nodup := by
  have indices : expression.snapshot.map (fun entry => entry.1.index) =
      expression.terms.keys := by
    simp only [Expression.snapshot, Expression.termList, OrderedMap.values, List.map_map]
    exact List.map_congr_left filed
  rw [indices]
  exact expression.terms.distinct

theorem Founded.filed_expression (founded : Founded steps) (number : Nat) :
    ((reached steps).expression number).terms.Filed :=
  founded.filed.2.seen (reached steps).inPlace_outlook number

/-- After a run, a snapshot lists each term once.  The handle under which it lists a
term was brought by a step of the run and stayed listed from then on: it was inserted
where there was no such term, or taken over from another expression.  What a model
gives out is listed under handles of the model itself. -/
structure SnapshotsKeyed (steps : List (Step α)) : Prop where
  size : ∀ number, ((reached steps).expression number).snapshot.length =
    ((reached steps).expression number).size
  apart : ∀ number,
    (((reached steps).expression number).snapshot.map (fun entry => entry.1.index)).Nodup
  brought : ∀ number handle coefficient, Given steps number →
    (Variable.participant handle, coefficient) ∈
      ((reached steps).expression number).snapshot →
    ∃ earlier step later, steps = earlier ++ step :: later ∧
      (reached earlier).Brings step number handle.index handle.participant ∧
      ∀ part, part <+: later → ∃ coefficient, (handle.participant, coefficient) ∈
        ((reached (earlier ++ step :: part)).expression number).snapshot
  received : ∀ expression, (reached steps).Gives expression →
    ∀ participant coefficient, (participant, coefficient) ∈ expression.snapshot →
      ∃ reference index, participant = (ModelRef.variable reference index).participant

theorem Founded.earlier (founded : Founded steps) {earlier later : List (Step α)}
    (split : steps = earlier ++ later) : Founded earlier := by
  intro first step rest parts
  apply founded first step (rest ++ later)
  rw [split, parts, List.append_assoc, List.cons_append]

theorem snapshotsKeyed_of_founded (founded : Founded steps) : SnapshotsKeyed steps where
  size number := List.length_map _ |>.trans (List.length_map _)
  apart number := nodup_snapshot (founded.filed_expression number)
  brought := by
    intro number handle coefficient given listed
    have key := (exists_mem_snapshot_iff (founded.filed_expression number)).mp ⟨_, listed⟩
    obtain ⟨earlier, step, later, split, brings, kept⟩ := key_brought founded given key
    refine ⟨earlier, step, later, split, brings, ?_⟩
    intro part first
    obtain ⟨rest, rfl⟩ := first
    have before : Founded (earlier ++ step :: part) :=
      founded.earlier (by rw [split, List.append_assoc, List.cons_append])
    rw [exists_mem_snapshot_iff (before.filed_expression number)]
    exact kept part (List.prefix_append _ _)
  received := by
    intro expression gives participant coefficient listed
    have key := (exists_mem_snapshot_iff gives.filed).mp ⟨_, listed⟩
    obtain ⟨reference, handle, kept, rfl⟩ := gives.key key
    obtain ⟨_, _, first⟩ := (filed_reached steps reference).columns
    rw [first] at kept
    obtain ⟨position, _, rfl⟩ := List.mem_map.mp kept
    exact ⟨_, .place position, rfl⟩

end Snapshots

/-- Two runs from an empty workspace, with steps that are the same up to the handles in
their arguments.  Call by call they succeed together or are refused for one reason, and
after them no question has different answers.  A snapshot may list other handles: it
lists each term under the handle with which the term was inserted since it was last
absent. -/
theorem handles_interchangeable {steps others : List (Step α)}
    (corresponding : steps.map Step.kept = others.map Step.kept) :
    ({} : Workspace α).responses steps = ({} : Workspace α).responses others ∧
      (reached steps).Indistinct (reached others) ∧
      (Founded steps → SnapshotsKeyed steps) := by
  obtain ⟨responses, final⟩ := run_of_kept rfl corresponding
  exact ⟨responses, indistinct_of_kept final, snapshotsKeyed_of_founded⟩

section Twins

private def home : ModelRef := ⟨0, "m"⟩

/-- Handles of the only variable of a model: the model's own, and others with tags. -/
private def twin (tag : Nat) : Variable := { model := home, index := .place 0, tag }

private def single (handle : Variable) : Heap.Making Float :=
  .build (.list [.handle handle] 0) (.list [.number 1] 0) (.number 0) (.text "")

/-- The variable x with a second handle, and the expression x - x + 2x. -/
private def opened : List (Step Float) :=
  [.createModel (.record [("name", .text "m")] 0), .addVariable home .missing,
    .makeVariable home (.number 0)]

private def cancelling (first second third : Variable) : List (Step Float) :=
  opened ++ [.make (single first), .assign "e" (.expression 0 Expression.zero),
    .edit "e" (.addVariable (.handle second) (.number (-1))),
    .edit "e" (.addVariable (.handle third) (.number 2))]

private theorem founded_cancelling (first second third : Variable) :
    Founded (cancelling first second third) := by
  refine .cons trivial (.cons trivial (.cons trivial (.cons trivial (.cons trivial ?_))))
  refine .cons trivial (.cons trivial ?_)
  intro earlier step later split
  cases earlier <;> cases split

private theorem accepted_single : (match Workspace.make (single (twin 0)) (reached opened) with
    | .ok (.expression 0 _) _ => true
    | _ => false) = true := by
  decide +kernel

private theorem given_cancelling : Given (cancelling (twin 0) (twin 0) (twin 1)) 0 := by
  refine ⟨opened, single (twin 0), _, rfl, ?_⟩
  have accepted := accepted_single
  split at accepted
  · rename_i contents final success
    exact ⟨contents, final, success⟩
  · cases accepted

/-- The handle that is given after the cancellation is the one that is listed. -/
private theorem listed_cancelling {first second third : Variable}
    (key : (reached (cancelling first second third)).key? 0 third.index =
      some third.participant) :
    ∃ coefficient, (third.participant, coefficient) ∈
      ((reached (cancelling first second third)).expression 0).snapshot :=
  (exists_mem_snapshot_iff
    ((founded_cancelling first second third).filed_expression 0)).mpr key

/-- Two such runs, with one handle in the place of the other throughout. -/
theorem handles_interchangeable_twins :
    (cancelling (twin 0) (twin 0) (twin 1)).map Step.kept =
        (cancelling (twin 1) (twin 1) (twin 0)).map Step.kept ∧
      (reached (cancelling (twin 0) (twin 0) (twin 1))).Indistinct
        (reached (cancelling (twin 1) (twin 1) (twin 0))) ∧
      (∃ coefficient, ((twin 0).participant, coefficient) ∈
        ((reached (cancelling (twin 1) (twin 1) (twin 0))).expression 0).snapshot) ∧
      ∃ earlier step later, cancelling (twin 0) (twin 0) (twin 1) = earlier ++ step :: later ∧
        (reached earlier).Brings step 0 (.place 0) (twin 1).participant := by
  have same : (cancelling (twin 0) (twin 0) (twin 1)).map Step.kept =
      (cancelling (twin 1) (twin 1) (twin 0)).map Step.kept := rfl
  obtain ⟨_, final, snapshots⟩ := handles_interchangeable same
  obtain ⟨coefficient, listed⟩ :
      ∃ coefficient, ((twin 1).participant, coefficient) ∈
        ((reached (cancelling (twin 0) (twin 0) (twin 1))).expression 0).snapshot :=
    listed_cancelling (by decide +kernel)
  obtain ⟨earlier, step, later, split, brings, _⟩ :=
    (snapshots (founded_cancelling _ _ _)).brought 0 (twin 1) coefficient given_cancelling listed
  exact ⟨same, final, listed_cancelling (by decide +kernel), earlier, step, later, split, brings⟩

end Twins

end LinearProgram.Workspace
