import LinearProgram.Proofs.Heap.Keys
import LinearProgram.Proofs.Model.Matrix
import LinearProgram.Proofs.Workspace.Runs

/-!
# The handles of a snapshot

The snapshot of an expression lists each term under one handle.  In any run, that is
the handle with which the term was inserted when it had been absent for the last time,
or the term was taken over together with its handle when the expression was made of
another one.
-/

namespace LinearProgram

variable {α : Type} [Scalar α]

namespace Workspace

open Update (Leaves)

section Outlook

variable (workspace : Workspace α)

theorem inPlace_outlook : workspace.outlook.InPlace := by
  rintro ⟨owner, index, role⟩
  cases role <;> rfl

theorem seesThrough_outlook : workspace.outlook.SeesThrough := by
  rintro ⟨owner, index, role⟩ handle same
  cases role with
  | ofExpression number written => cases congrArg Participant.role same
  | _ => exact same

/-- The handle under which an expression lists the term with an index. -/
def key? (number : Nat) (index : Index) : Option Participant :=
  (workspace.expression number).terms.key? index

theorem key?_eq_iff {number : Nat} {index : Index} {handle : Variable} :
    workspace.key? number index = some handle.participant ↔
      workspace.heap.key? number index = some handle.participant :=
  Heap.key?_seen workspace.seesThrough_outlook

end Outlook

section Effects

variable {workspace : Workspace α}

/-- What a step does to the expression objects: nothing, or it makes one, or it changes
one in place. -/
inductive HeapEffect (workspace : Workspace α) : Step α → Heap α → Prop
  | aside {step : Step α} : HeapEffect workspace step workspace.heap
  | made {making : Heap.Making α} :
      HeapEffect workspace (.make making)
        (workspace.heap.after (.make workspace.outlook making))
  | edited {name : String} {given : Expression.Edit α} {number : Nat} {contents : Expression α}
      (target : workspace.object? name = some (.expression number contents)) :
      HeapEffect workspace (.edit name given)
        (workspace.heap.after (.edit workspace.outlook number given))

private theorem heap_onHeap {β : Type} {update : HeapUpdate α β} {property : Heap α → Prop}
    (holds : Leaves workspace.heap update property) :
    Leaves workspace (onHeap update) (fun final => property final.heap) := by
  apply Leaves.after_get
  unfold Leaves at holds ⊢
  cases outcome : update workspace.heap with
  | ok result heap | error reason heap =>
      rw [outcome] at holds
      exact holds

private theorem heapEffect_make (making : Heap.Making α) :
    Leaves workspace (discard (Workspace.make making))
      (fun final => HeapEffect workspace (.make making) final.heap) := by
  apply Leaves.before_readOnly _ (fun _ => Update.readOnly_pure _)
  apply Leaves.after_get
  refine Leaves.before_readOnly (heap_onHeap ?_) (fun _ =>
    Update.readOnly_get.bind (fun _ => Update.readOnly_pure _))
  have effect : HeapEffect workspace (.make making) _ := .made
  unfold Heap.after at effect
  unfold Leaves
  cases outcome : Heap.make workspace.outlook making workspace.heap with
  | ok result heap | error reason heap =>
      simp only [outcome] at effect
      exact effect

private theorem heapEffect_edit (name : String) (given : Expression.Edit α) :
    Leaves workspace (discard (Workspace.edit name given))
      (fun final => HeapEffect workspace (.edit name given) final.heap) := by
  apply Leaves.before_readOnly _ (fun _ => Update.readOnly_pure _)
  apply Leaves.after_get
  split
  · rename_i number contents target
    refine Leaves.before_readOnly (heap_onHeap ?_) (fun _ =>
      Update.readOnly_get.bind (fun _ => Update.readOnly_pure _))
    have effect : HeapEffect workspace (.edit name given) _ := .edited target
    unfold Heap.after at effect
    unfold Leaves
    cases outcome : Heap.edit workspace.outlook number given workspace.heap with
    | ok result heap | error reason heap =>
        simp only [outcome] at effect
        exact effect
  · exact HeapEffect.aside

private theorem heap_change {β : Type} (step : Step α) (reference : ModelRef)
    (update : ModelUpdate α β) :
    Leaves workspace (Workspace.change reference update)
      (fun final => HeapEffect workspace step final.heap) := by
  cases outcome : update (workspace.model reference) with
  | ok result model => exact .of_ok (change_of_ok outcome) .aside
  | error error model => exact .of_error (change_of_error outcome) .aside

private theorem leaves_heap (workspace : Workspace α) (step : Step α) :
    Leaves workspace step.apply (fun final => HeapEffect workspace step final.heap) := by
  cases step with
  | createModel options =>
      apply Leaves.before_readOnly _ (fun _ => Update.readOnly_pure _)
      refine Leaves.after_get (.after_check .aside (fun record _ => ?_))
      exact .after_check .aside (fun read _ => HeapEffect.aside)
  | make making => exact heapEffect_make making
  | edit name given => exact heapEffect_edit name given
  | assign name value => exact HeapEffect.aside
  | makeVariable reference index => exact HeapEffect.aside
  | makeConstraint reference index => exact HeapEffect.aside
  | addVariable reference options =>
      apply Leaves.before_readOnly _ (fun _ => Update.readOnly_pure _)
      exact .after_get (.after_check .aside (fun record _ => heap_change _ _ _))
  | addConstraint reference body name =>
      apply Leaves.before_readOnly _ (fun _ => Update.readOnly_pure _)
      exact .after_get (.after_check .aside (fun expression _ => heap_change _ _ _))
  | setExpression constraint body =>
      exact .after_get (.after_check .aside (fun expression _ => heap_change _ _ _))
  | setRightHandSide constraint value =>
      exact .after_get (.after_check .aside (fun number _ => heap_change _ _ _))
  | loadSolution reference data =>
      exact .after_get (.after_check .aside (fun record _ => heap_change _ _ _))
  | change reference given => exact heap_change _ _ _

theorem heapEffect_after (workspace : Workspace α) (step : Step α) :
    HeapEffect workspace step (workspace.after step).heap := by
  have leaves := leaves_heap workspace step
  unfold Leaves at leaves
  unfold after
  cases outcome : step.apply workspace with
  | ok result changed | error error changed =>
      rw [outcome] at leaves
      exact leaves

end Effects

section Received

variable {row : Row α} {relation : Relation} {handles : List Variable}
  {expression : Expression α}

/-- An expression of a row lists its terms under the handles that the model keeps. -/
theorem key_of_toExpression {index : Index} {key : Participant}
    (success : row.toExpression handles relation = .ok expression)
    (found : expression.terms.key? index = some key) :
    ∃ handle ∈ handles, key = handle.participant := by
  obtain ⟨kept, looked, assembled⟩ := Row.assemble_of_toExpression success
  obtain ⟨coefficient, listed, _⟩ :=
    Terms.mem_of_gather (Expression.gather_of_assemble assembled) found
  obtain ⟨cell, membership, same⟩ := List.mem_map.mp listed
  exact ⟨kept cell.1, Index.mem_of_get? (looked cell membership),
    (congrArg Prod.fst same).symm⟩

theorem filed_of_toExpression (success : row.toExpression handles relation = .ok expression) :
    expression.terms.Filed := by
  obtain ⟨kept, _, assembled⟩ := Row.assemble_of_toExpression success
  exact Terms.filed_empty.gather (Expression.gather_of_assemble assembled)

/-- A model of the workspace gives out an expression: its objective, or a constraint. -/
def Gives (workspace : Workspace α) (expression : Expression α) : Prop :=
  ∃ reference, (workspace.model reference).objectiveExpression = .ok expression ∨
    ∃ index, (workspace.model reference).constraintExpression index = .ok expression

variable {workspace : Workspace α}

theorem Gives.filed (gives : workspace.Gives expression) : expression.terms.Filed := by
  obtain ⟨reference, objective | ⟨index, constraint⟩⟩ := gives
  · exact filed_of_toExpression objective
  · exact filed_of_toExpression (Model.toExpression_of_constraintExpression constraint)

theorem Gives.key {index : Index} {key : Participant} (gives : workspace.Gives expression)
    (found : expression.terms.key? index = some key) :
    ∃ reference, ∃ handle ∈ (workspace.model reference).variableHandles,
      key = handle.participant := by
  obtain ⟨reference, objective | ⟨index, constraint⟩⟩ := gives
  · exact ⟨reference, key_of_toExpression objective found⟩
  · have read := Model.toExpression_of_constraintExpression constraint
    exact ⟨reference, key_of_toExpression read found⟩

end Received

section Steps

variable {workspace : Workspace α} {making : Heap.Making α} {number : Nat} {index : Index}
  {key : Participant}

/-- The operands of a making are objects as they are, and what is received is what a
model gives out. -/
def Step.Founded (workspace : Workspace α) : Step α → Prop
  | .make (.receive expression) => workspace.Gives expression
  | .make making => making.Known workspace.outlook workspace.heap
  | _ => True

theorem Step.Founded.known (founded : Step.Founded workspace (.make making)) :
    making.Known workspace.outlook workspace.heap := by
  cases making with
  | receive expression => trivial
  | _ => exact founded

theorem Step.Founded.filed (founded : Step.Founded workspace (.make making)) :
    making.Filed := by
  cases making with
  | receive expression => exact founded.filed
  | _ => trivial

/-- A making has given out an expression under a number. -/
def Makes (workspace : Workspace α) (making : Heap.Making α) (number : Nat) : Prop :=
  ∃ contents final, Workspace.make making workspace = .ok (.expression number contents) final

private theorem onHeap_of_ok {β : Type} {update : HeapUpdate α β} {result : β} {heap : Heap α}
    (success : update workspace.heap = .ok result heap) :
    onHeap update workspace = .ok result { workspace with heap } := by
  refine (Update.bind_of_ok rfl).trans ?_
  rw [success]
  rfl

private theorem onHeap_of_error {β : Type} {update : HeapUpdate α β} {reason : Error α}
    {heap : Heap α} (failure : update workspace.heap = .error reason heap) :
    onHeap update workspace = .error reason { workspace with heap } := by
  refine (Update.bind_of_ok rfl).trans ?_
  rw [failure]
  rfl

/-- What a making that gives out an expression does to the heap. -/
theorem Makes.heap (makes : workspace.Makes making number) :
    Heap.make workspace.outlook making workspace.heap =
      .ok number (workspace.after (.make making)).heap := by
  obtain ⟨contents, final, success⟩ := makes
  have opened : Workspace.make making workspace =
      (onHeap (Heap.make workspace.outlook making) >>= fun number => do
        return .expression number ((← get).expression number)) workspace :=
    Update.bind_of_ok rfl
  have discarded : (Step.make making).apply workspace = .ok () final :=
    Update.bind_of_ok success
  rw [after_of_ok discarded]
  rw [opened] at success
  cases outcome : Heap.make workspace.outlook making workspace.heap with
  | error reason heap =>
      rw [Update.bind_of_error (onHeap_of_error outcome)] at success
      cases success
  | ok result heap =>
      rw [Update.bind_of_ok (onHeap_of_ok outcome)] at success
      cases success
      rfl

/-- What gives the term of an expression its key in one step. -/
inductive Brings (workspace : Workspace α) : Step α → Nat → Index → Participant → Prop
  /-- The expression is changed in place, and an addition inserts the term. -/
  | edited {name : String} {given : Expression.Edit α} {number : Nat}
      {contents : Expression α} {index : Index} {key : Participant}
      (target : workspace.object? name = some (.expression number contents))
      (inserts : (workspace.expression number).terms.Inserts
        (workspace.heap.refresh workspace.outlook given).added index key) :
      Brings workspace (.edit name given) number index key
  /-- The expression is made, and an addition inserts the term. -/
  | made {making : Heap.Making α} {number : Nat} {index : Index} {key : Participant}
      (makes : workspace.Makes making number)
      (inserts : (making.start workspace.outlook workspace.heap).Inserts
        (making.added workspace.outlook) index key) :
      Brings workspace (.make making) number index key
  /-- The expression is made of another one, of which the term is taken over. -/
  | taken {making : Heap.Making α} {number : Nat} {index : Index} {key : Participant}
      (makes : workspace.Makes making number)
      (retains : (making.start workspace.outlook workspace.heap).Retains
        (making.added workspace.outlook) index key) :
      Brings workspace (.make making) number index key

end Steps

section Runs

/-- In the course of a run, a call has given out an expression under a number. -/
def Given (steps : List (Step α)) (number : Nat) : Prop :=
  ∃ earlier making later, steps = earlier ++ .make making :: later ∧
    (reached earlier).Makes making number

/-- A run whose steps are founded, each at its time. -/
def Founded (steps : List (Step α)) : Prop :=
  ({} : Workspace α).Throughout steps (fun workspace step => step.Founded workspace)

variable {steps : List (Step α)} {step : Step α} {number : Nat} {index : Index}
  {handle : Variable}

theorem Founded.init (founded : Founded (steps ++ [step])) : Founded steps := by
  intro earlier next later split
  apply founded earlier next (later ++ [step])
  rw [split, List.append_assoc, List.cons_append]

theorem Founded.last (founded : Founded (steps ++ [step])) : step.Founded (reached steps) :=
  founded steps step [] rfl

/-- Throughout a run, objects have tables of their own, and every term is found under
the index of its key. -/
theorem Founded.filed (founded : Founded steps) :
    (reached steps).heap.Separate ∧ (reached steps).heap.Filed := by
  induction steps using List.reverseRecOn with
  | nil => exact ⟨Heap.separate_empty, fun _ membership => by cases membership⟩
  | append_singleton earlier step induction =>
      obtain ⟨separate, filed⟩ := induction founded.init
      have inPlace := (reached earlier).inPlace_outlook
      rw [reached_concat]
      have last := founded.last
      have effect := heapEffect_after (reached earlier) step
      generalize ((reached earlier).after step).heap = heap at effect
      cases effect with
      | aside => exact ⟨separate, filed⟩
      | made =>
          exact ⟨(Heap.keeps_make separate _).separate, filed.after_make inPlace last.filed⟩
      | edited target =>
          exact ⟨(Heap.keeps_edit separate _).separate, filed.after_edit inPlace _ _⟩

private theorem given_concat (given : Given (steps ++ [step]) number) :
    Given steps number ∨
      ∃ making, step = .make making ∧ (reached steps).Makes making number := by
  obtain ⟨earlier, making, later, split, makes⟩ := given
  rcases List.eq_nil_or_concat later with rfl | ⟨rest, last, rfl⟩
  · obtain ⟨rfl, same⟩ := List.append_inj' split rfl
    cases same
    exact .inr ⟨making, rfl, makes⟩
  · have parts : steps ++ [step] = (earlier ++ .make making :: rest) ++ [last] := by
      rw [split]
      simp
    obtain ⟨rfl, _⟩ := List.append_inj' parts rfl
    exact .inl ⟨earlier, making, rest, rfl, makes⟩

/-- A step leaves the objects that it does not change in place. -/
private theorem HeapEffect.keeps {workspace : Workspace α} {heap : Heap α}
    (separate : workspace.heap.Separate) (effect : HeapEffect workspace step heap) :
    Heap.Keeps (fun other => ∀ name given contents, step = .edit name given →
      workspace.object? name ≠ some (.expression other contents)) workspace.heap heap := by
  cases effect with
  | aside => exact .refl separate
  | made => exact (Heap.keeps_make separate _).mono (fun _ _ => trivial)
  | edited target =>
      apply (Heap.keeps_edit separate _).mono
      rintro other elsewhere rfl
      exact elsewhere _ _ _ rfl target

theorem Given.lt_size (founded : Founded steps) (given : Given steps number) :
    number < (reached steps).heap.size := by
  induction steps using List.reverseRecOn with
  | nil =>
      obtain ⟨earlier, making, later, split, _⟩ := given
      cases earlier <;> cases split
  | append_singleton earlier step induction =>
      have separate := founded.init.filed.1
      rw [reached_concat]
      rcases given_concat given with before | ⟨making, rfl, makes⟩
      · have effect := heapEffect_after (reached earlier) step
        exact Nat.lt_of_lt_of_le (induction founded.init before) (effect.keeps separate).growth
      · obtain ⟨expression, made⟩ := Heap.exists_made separate makes.heap
        exact made.present

/-- A step leaves the key of a term that an expression has, or it brings the term. -/
private theorem held_or_brings {workspace : Workspace α} {heap : Heap α}
    (separate : workspace.heap.Separate) (filed : workspace.heap.Filed)
    (present : number < workspace.heap.size) (effect : HeapEffect workspace step heap)
    (found : heap.key? number index = some handle.participant) :
    workspace.heap.key? number index = some handle.participant ∨
      workspace.Brings step number index handle.participant := by
  cases effect with
  | aside => exact .inl found
  | made => exact .inl ((Heap.keeps_make separate _).key?_eq present trivial ▸ found)
  | @edited name given target contents object =>
      by_cases same : number = target
      · subst same
        cases outcome : Heap.edit workspace.outlook number given workspace.heap with
        | error reason final =>
            rw [Heap.after, outcome] at found
            exact .inl ((Heap.keeps_of_refused separate outcome).key?_eq present trivial ▸ found)
        | ok _ final =>
            rw [Heap.after, outcome] at found
            rcases Heap.key_of_edit workspace.seesThrough_outlook workspace.inPlace_outlook
              separate filed present outcome found with retains | inserts
            · obtain ⟨start, begun, held⟩ := retains [] List.nil_prefix
              cases begun
              exact .inl ((Heap.key?_seen workspace.seesThrough_outlook).mp held)
            · exact .inr (.edited object inserts)
      · exact .inl ((Heap.keeps_edit separate given).key?_eq present same ▸ found)

/-- The key of a term of an expression comes from the last step that brought the term,
and it is the key at all times from then on. -/
theorem key_brought (founded : Founded steps) (given : Given steps number)
    (found : (reached steps).key? number index = some handle.participant) :
    ∃ earlier step later, steps = earlier ++ step :: later ∧
      (reached earlier).Brings step number index handle.participant ∧
      ∀ part, part <+: later →
        (reached (earlier ++ step :: part)).key? number index = some handle.participant := by
  induction steps using List.reverseRecOn with
  | nil =>
      obtain ⟨earlier, making, later, split, _⟩ := given
      cases earlier <;> cases split
  | append_singleton earlier step induction =>
      obtain ⟨separate, filed⟩ := founded.init.filed
      have brings (brought : (reached earlier).Brings step number index handle.participant) :
          ∃ before next later, earlier ++ [step] = before ++ next :: later ∧
            (reached before).Brings next number index handle.participant ∧
            ∀ part, part <+: later →
              (reached (before ++ next :: part)).key? number index = some handle.participant := by
        refine ⟨earlier, step, [], rfl, brought, ?_⟩
        intro part first
        rwa [List.prefix_nil.mp first]
      rcases given_concat given with before | ⟨making, rfl, makes⟩
      · -- A key that was there before the step came with an earlier one.
        have still (held : (reached earlier).heap.key? number index = some handle.participant) :
            ∃ before next later, earlier ++ [step] = before ++ next :: later ∧
              (reached before).Brings next number index handle.participant ∧
              ∀ part, part <+: later →
                (reached (before ++ next :: part)).key? number index =
                  some handle.participant := by
          obtain ⟨first, next, later, rfl, brought, kept⟩ :=
            induction founded.init before ((key?_eq_iff _).mpr held)
          refine ⟨first, next, later ++ [step], by simp, brought, ?_⟩
          intro part shorter
          rcases List.prefix_concat_iff.mp shorter with rfl | within
          · simpa using found
          · exact kept part within
        have changed := found
        rw [reached_concat, key?_eq_iff] at changed
        exact (held_or_brings separate filed (before.lt_size founded.init)
          (heapEffect_after (reached earlier) step) changed).elim still brings
      · rw [reached_concat, key?_eq_iff] at found
        have through := (reached earlier).seesThrough_outlook
        rcases Heap.key_of_make through separate founded.last.known makes.heap found with
          retains | inserts
        · exact brings (.taken makes retains)
        · exact brings (.made makes inserts)

end Runs

end Workspace

end LinearProgram
