import LinearProgram.Proofs.Double.Infinite
import LinearProgram.Proofs.Double.Magnitude
import LinearProgram.Proofs.Expression.Contents
import LinearProgram.Proofs.Model.Readable

/-!
# Terms and rows that accumulate

Amounts of variables can be accumulated as terms of an expression and as cells of
a row.  Terms check every sum and a row checks none, so they differ only from the
first sum on that is infinite.  It stays at that: finite amounts never lead from
an infinite sum to an undefined one.

The invariant is that the terms without their handles are the row.
-/

namespace LinearProgram

/-- Add amounts of variables to terms, one after the other. -/
def Terms.accumulate (terms : Terms Float) (amounts : List (Variable × Float)) :
    Except (Error Float) (Terms Float) :=
  amounts.foldlM (fun terms amount => terms.add amount.1.participant amount.2)
    terms

namespace Row

/-- Insert amounts of variables into a row, one after the other. -/
def accumulate (row : Row Float) (amounts : List (Variable × Float)) : Row Float :=
  amounts.foldl (fun row amount => row.insert amount.1.index amount.2) row

/-- The sums that are formed when amounts are inserted into a row. -/
def partialSums (row : Row Float) : List (Variable × Float) → List Float
  | [] => []
  | amount :: rest => (row.coefficient amount.1.index + amount.2) ::
      partialSums (row.insert amount.1.index amount.2) rest

/-- No cell is undefined. -/
def Defined (row : Row Float) : Prop :=
  ∀ cell ∈ row.cells.toList, Scalar.isUndefined cell.2 = false

section Defined

variable {row : Row Float}

theorem Defined.coefficient (defined : row.Defined) (index : Index) :
    Double.parts (row.coefficient index) ≠ .notANumber := by
  rw [← Double.isUndefined_eq_false_iff, Row.coefficient]
  cases found : row.cells.get? index with
  | none => decide
  | some amount =>
      rw [Option.getD_some]
      exact defined (index, amount) (OrderedMap.get?_eq_some_iff.mp found)

theorem Defined.insert (defined : row.Defined) (index : Index) {amount : Float}
    (finite : Scalar.isFinite amount = true) :
    (row.insert index amount).Defined := by
  have sum := Double.isUndefined_eq_false_iff.mpr
    (Double.defined_add (defined.coefficient index) finite)
  intro cell membership
  simp only [Row.insert] at membership
  split at membership
  · exact defined cell (OrderedMap.mem_erase_iff.mp membership).2
  · rcases OrderedMap.mem_insert_iff.mp membership with rfl | ⟨_, old⟩
    · exact sum
    · exact defined cell old

/-- Whatever finite amounts are inserted, no cell becomes undefined. -/
theorem Defined.accumulate (defined : row.Defined)
    {amounts : List (Variable × Float)}
    (finite : ∀ amount ∈ amounts, Scalar.isFinite amount.2 = true) :
    (row.accumulate amounts).Defined := by
  induction amounts generalizing row with
  | nil => exact defined
  | cons amount rest induction =>
      obtain ⟨first, others⟩ := List.forall_mem_cons.mp finite
      exact induction (defined.insert amount.1.index first) others

end Defined

end Row

namespace Terms

variable {reference : ModelRef} {terms : Terms Float}

/-- Terms of a model take up amounts of its variables unless the sum is
infinite. -/
theorem add_cases
    (sound : Terms.Sound (fun handle => handle.model = reference) terms)
    {participant : Participant} (own : participant.owner = .model reference)
    {index : Index} (filed : participant.index = index)
    {amount : Float} (finite : Scalar.isFinite amount = true) :
    (terms.coefficient index + amount).isInf = false ∧
        (∃ result, terms.add participant amount = .ok result) ∨
      (terms.coefficient index + amount).isInf = true ∧
        terms.add participant amount = .error (.notFinite
          (.number (terms.coefficient index + amount))) := by
  subst filed
  have owned : terms.Over (fun other => other.owner = .model reference) := by
    intro entry membership
    obtain ⟨keeper, kept, kind⟩ := sound.handles entry membership
    rw [kind, Variable.participant, kept]
  have accepted : terms.owner?.any
      (fun owner => !owner.same participant.owner) = false := by
    rw [own]
    exact accepts_owner owned
  have defined : Row.Defined (terms.asRow 0) := by
    intro cell membership
    obtain ⟨entry, listed, rfl⟩ := List.mem_map.mp membership
    exact Double.isUndefined_eq_false_iff.mpr
      (Double.defined_of_isFinite (sound.finite entry listed))
  have sum := Double.defined_add (defined.coefficient participant.index) finite
  rw [coefficient_asRow] at sum
  cases sumFinite : Scalar.isFinite (terms.coefficient participant.index + amount) with
  | true =>
      left
      refine ⟨?_, _, add_eq_ok_iff.mpr ⟨accepted, finite, sumFinite, rfl⟩⟩
      rw [← Bool.not_eq_true, Double.isInf_iff_of_defined sum, sumFinite]
      exact Bool.noConfusion
  | false =>
      right
      refine ⟨(Double.isInf_iff_of_defined sum).mpr sumFinite, ?_⟩
      unfold Terms.coefficient at sumFinite ⊢
      simp [Terms.add, LinearProgram.finite, accepted, finite, sumFinite, bind,
        Except.bind]

section Cons

variable {amount : Variable × Float} (rest : List (Variable × Float))

theorem accumulate_cons_of_ok {next : Terms Float}
    (added : terms.add amount.1.participant amount.2 = .ok next) :
    terms.accumulate (amount :: rest) = next.accumulate rest := by
  rw [Terms.accumulate, List.foldlM_cons, added]
  rfl

theorem accumulate_cons_of_error {error : Error Float}
    (refused : terms.add amount.1.participant amount.2 = .error error) :
    terms.accumulate (amount :: rest) = .error error := by
  rw [Terms.accumulate, List.foldlM_cons, refused]
  rfl

end Cons

/-- As long as no sum is infinite, terms accumulate to what a row accumulates to.
The first sum that is infinite is refused. -/
theorem accumulate_cases
    (sound : Terms.Sound (fun handle => handle.model = reference) terms)
    {amounts : List (Variable × Float)}
    (own : ∀ amount ∈ amounts, amount.1.model = reference)
    (finite : ∀ amount ∈ amounts, Scalar.isFinite amount.2 = true) :
    (∀ sum ∈ (terms.asRow 0).partialSums amounts, sum.isInf = false) ∧
        (∃ result, terms.accumulate amounts = .ok result ∧
          result.asRow 0 = (terms.asRow 0).accumulate amounts) ∨
      ∃ sum ∈ (terms.asRow 0).partialSums amounts, sum.isInf = true ∧
        terms.accumulate amounts = .error (.notFinite (.number sum)) := by
  induction amounts generalizing terms with
  | nil => exact .inl ⟨nofun, terms, rfl, rfl⟩
  | cons amount rest induction =>
      obtain ⟨firstOwn, restOwn⟩ := List.forall_mem_cons.mp own
      obtain ⟨firstFinite, restFinite⟩ := List.forall_mem_cons.mp finite
      have owner : amount.1.participant.owner = .model reference :=
        congrArg Owner.model firstOwn
      have filed : amount.1.participant.index = amount.1.index := rfl
      rw [Row.partialSums, coefficient_asRow]
      rcases add_cases sound owner filed firstFinite with
        ⟨bounded, next, added⟩ | ⟨infinite, refused⟩
      · have row := asRow_add (0 : Float) added
        rw [filed] at row
        have nextSound := sound.add firstOwn added
        rw [accumulate_cons_of_ok rest added, Row.accumulate, List.foldl_cons, ← row]
        rcases induction nextSound restOwn restFinite with
          ⟨others, result, success, same⟩ | ⟨sum, listed, infinite, refused⟩
        · exact .inl ⟨List.forall_mem_cons.mpr ⟨bounded, others⟩, result, success, same⟩
        · exact .inr ⟨sum, List.mem_cons_of_mem _ listed, infinite, refused⟩
      · exact .inr ⟨_, List.mem_cons_self, infinite,
          accumulate_cons_of_error rest refused⟩

end Terms

/-- Accumulated as terms and as a row, amounts give the same. -/
structure AccumulatesAlike (amounts : List (Variable × Float)) : Prop where
  accepted : (∀ sum ∈ Row.partialSums { constant := 0 } amounts, sum.isInf = false) →
    ∃ terms, Terms.accumulate OrderedMap.empty amounts = .ok terms ∧
      terms.toList.map (fun entry => (entry.1, entry.2.coefficient)) =
        (Row.accumulate { constant := 0 } amounts).cells.toList
  refused_iff :
    (∃ error, Terms.accumulate OrderedMap.empty amounts = .error error) ↔
      ∃ sum ∈ Row.partialSums { constant := 0 } amounts, sum.isInf = true
  refusal : ∀ error, Terms.accumulate OrderedMap.empty amounts = .error error →
    ∃ sum ∈ Row.partialSums { constant := 0 } amounts, sum.isInf = true ∧
      error = .notFinite (.number sum)
  defined : ∀ earlier, earlier <+: amounts →
    (Row.accumulate { constant := 0 } earlier).Defined

theorem accumulatesAlike {reference : ModelRef} {amounts : List (Variable × Float)}
    (own : ∀ amount ∈ amounts, amount.1.model = reference)
    (finite : ∀ amount ∈ amounts, Scalar.isFinite amount.2 = true) :
    AccumulatesAlike amounts := by
  have start : Terms.Sound (fun handle => handle.model = reference)
      (OrderedMap.empty : Terms Float) := Terms.sound_empty
  have cases := Terms.accumulate_cases start own finite
  constructor
  case accepted =>
    intro bounded
    rcases cases with ⟨_, terms, success, same⟩ | ⟨sum, listed, infinite, _⟩
    · exact ⟨terms, success, congrArg (fun row => row.cells.toList) same⟩
    · exact absurd infinite (by rw [bounded sum listed]; exact Bool.noConfusion)
  case refused_iff =>
    rcases cases with ⟨bounded, terms, success, _⟩ | ⟨sum, listed, infinite, refused⟩
    · apply iff_of_false
      · rintro ⟨error, refused⟩
        cases success.symm.trans refused
      · rintro ⟨sum, listed, infinite⟩
        exact absurd infinite (by rw [bounded sum listed]; exact Bool.noConfusion)
    · exact iff_of_true ⟨_, refused⟩ ⟨sum, listed, infinite⟩
  case refusal =>
    intro error given
    rcases cases with ⟨_, terms, success, _⟩ | ⟨sum, listed, infinite, refused⟩
    · cases success.symm.trans given
    · cases refused.symm.trans given
      exact ⟨sum, listed, infinite, rfl⟩
  case defined =>
    intro earlier within
    have empty : Row.Defined { constant := 0 } := nofun
    exact empty.accumulate (fun amount listed => finite amount (within.subset listed))

section Reading

variable {expression : Expression Float} {model : Model Float}

/-- An expression is read back from its row, over the handles of a model. -/
structure ReadsBack (expression : Expression Float) (model : Model Float)
    (relation : Relation) (read : Expression Float) : Prop where
  success : (Row.ofExpression expression).toExpression model.variableHandles relation =
    .ok read
  terms : read.terms.toList = expression.terms.toList.map (fun entry =>
    (entry.1, ⟨(model.handle entry.1).participant, entry.2.coefficient⟩))
  constant : read.constant = expression.constant
  relation : read.relation = relation
  kept : (∀ entry ∈ expression.terms.toList,
    entry.2.participant = (model.handle entry.1).participant) →
      read.terms = expression.terms

theorem exists_readsBack
    (reachable : Expression.Reachable (fun handle => model.HasHandle handle.index)
      expression) (relation : Relation) :
    ∃ read, ReadsBack expression model relation read := by
  have sound := reachable.sound
  have within : (Row.ofExpression expression).Within model.HasHandle := by
    apply Row.within_ofExpression
    intro term listed
    obtain ⟨entry, membership, rfl⟩ := List.mem_map.mp listed
    obtain ⟨handle, has, participant⟩ := sound.terms.handles entry membership
    rw [participant]
    exact has
  have finite := Row.finite_ofExpression sound
  obtain ⟨read, success, reads⟩ := Row.exists_readAs within finite.cells
    finite.constant relation
  have terms := reads.terms
  rw [Row.ofExpression_eq_contents sound] at terms
  have listed : read.terms.toList = expression.terms.toList.map (fun entry =>
      (entry.1, ⟨(model.handle entry.1).participant,
        entry.2.coefficient⟩)) := by
    rw [terms]
    exact List.map_map
  refine ⟨read, success, listed, ?_, (Row.parts_of_toExpression success).2, ?_⟩
  · rw [reads.constant, Row.constant_ofExpression]
  · intro kept
    apply OrderedMap.ext
    rw [listed]
    refine (List.map_congr_left ?_).trans (List.map_id _)
    intro entry membership
    rw [← kept entry membership]
    rfl

end Reading

/-- Amounts of the variables of a model accumulate to the same as terms and as a
row, up to the first sum that is infinite.  What is stored as a row is read back as it
was, over variables that have handles in the model. -/
theorem terms_alike_rows (model : Model Float) :
    (∀ amounts : List (Variable × Float),
      (∀ amount ∈ amounts, amount.1.model = model.reference) →
      (∀ amount ∈ amounts, Scalar.isFinite amount.2 = true) →
        AccumulatesAlike amounts) ∧
    ∀ expression : Expression Float,
      Expression.Reachable (fun handle => model.HasHandle handle.index) expression →
        ∀ relation, ∃ read, ReadsBack expression model relation read := by
  constructor
  · intro amounts own finite
    exact accumulatesAlike own finite
  · intro expression reachable
    exact exists_readsBack reachable

section Returning

private def counted (position : Nat) : Variable :=
  ModelRef.variable ⟨0, "m"⟩ (.place position)

private def returning : List (Variable × Float) :=
  [(counted 0, 1), (counted 1, 2), (counted 0, -1), (counted 0, 3)]

/-- A model with two variables. -/
private def counting : Model Float :=
  Model.reached ⟨0, "m"⟩ .minimize [.addVariable .missing, .addVariable .missing]

private def huge : Float := 1e308

private def exceeding : List (Variable × Float) :=
  [(counted 0, huge), (counted 1, 1), (counted 0, huge)]

private def returned : Expression Float where
  terms := ⟨[(.place 1, ⟨(counted 1).participant, 2⟩),
    (.place 0, ⟨(counted 0).participant, 3⟩)], by simp⟩
  constant := 0

/-- A term that comes back goes to the end, a sum that is infinite is refused, and
what was accumulated is read back. -/
theorem terms_alike_rows_returning :
    (∃ terms, Terms.accumulate OrderedMap.empty returning = .ok terms ∧
      terms.toList.map (fun entry => (entry.1, entry.2.coefficient)) =
        [(.place 1, 2), (.place 0, 3)]) ∧
    (∃ error, Terms.accumulate OrderedMap.empty exceeding = .error error) ∧
    Expression.Reachable (fun handle => counting.HasHandle handle.index) returned ∧
    ∃ read, ReadsBack returned counting .atMost read := by
  obtain ⟨alike, back⟩ := terms_alike_rows counting
  have accumulated := (alike returning (by decide) (by decide)).accepted
    (by decide +kernel)
  have cells : (Row.accumulate { constant := 0 } returning).cells.toList =
      [(.place 1, 2), (.place 0, 3)] := by
    decide +kernel
  rw [cells] at accumulated
  have refused := (alike exceeding (by decide) (by decide +kernel)).refused_iff.mpr
    (by decide +kernel)
  have built : Expression.build (fun _ => .ok 0)
      (.list ([counted 1, counted 0].map .handle) 0)
      (.list [.number 2, .number 3] 0) (.number 0) (.text "") = .ok returned := by
    rfl
  have reachable :
      Expression.Reachable (fun handle => counting.HasHandle handle.index) returned :=
    .built (by decide +kernel) built
  exact ⟨accumulated, refused, reachable, back returned reachable .atMost⟩

end Returning

end LinearProgram
