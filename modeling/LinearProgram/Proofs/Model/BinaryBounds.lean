import LinearProgram.Proofs.Double.Extremes
import LinearProgram.Proofs.Model.Runs
import LinearProgram.Proofs.Options

/-!
# Bounds of binary variables

The bounds of a variable are always in order.  Those of a binary variable are
clipped to the unit interval when it is added and when its kind is set, but not
when a bound is set later.  So they stay within the unit interval exactly as long
as no bound outside of it is accepted for a variable that is binary already.
-/

namespace LinearProgram.Model

/-- The bounds of every variable are in order. -/
def Ordered (model : Model Float) : Prop :=
  ∀ data ∈ model.variableTable, data.lower ≤ data.upper

/-- The bounds of every binary variable are in order, and within the unit
interval. -/
def BinariesInUnit (model : Model Float) : Prop :=
  ∀ data ∈ model.variableTable, data.kind.isBinary = true →
    0 ≤ data.lower ∧ data.lower ≤ data.upper ∧ data.upper ≤ 1

/-- A bound outside the unit interval is accepted for a binary variable. -/
inductive Strays (model : Model Float) : Change Float → Prop
  | below {index : Index} {given : Value Float} {lower : Float}
      {data : VariableRecord Float}
      (accepts : model.Accepts (.setLower index given) (.lower index lower))
      (found : index.get? model.variableTable = some data)
      (binary : data.kind.isBinary = true) (outside : ¬0 ≤ lower) :
      Strays model (.setLower index given)
  | above {index : Index} {given : Value Float} {upper : Float}
      {data : VariableRecord Float}
      (accepts : model.Accepts (.setUpper index given) (.upper index upper))
      (found : index.get? model.variableTable = some data)
      (binary : data.kind.isBinary = true) (outside : ¬upper ≤ 1) :
      Strays model (.setUpper index given)

/-- Where bounds come from that are found after a change: from before, from a
bound that was set, or from clipping. -/
inductive Origin (model : Model Float) :
    Change Float → VariableRecord Float → Prop
  | kept {change : Change Float} {old data : VariableRecord Float}
      (present : old ∈ model.variableTable) (lower : data.lower = old.lower)
      (upper : data.upper = old.upper) (kind : data.kind = old.kind) :
      Origin model change data
  | lowered {index : Index} {given : Value Float} {lower : Float}
      {old : VariableRecord Float}
      (accepts : model.Accepts (.setLower index given) (.lower index lower))
      (found : index.get? model.variableTable = some old)
      (ordered : lower ≤ old.upper) :
      Origin model (.setLower index given) { old with lower }
  | raised {index : Index} {given : Value Float} {upper : Float}
      {old : VariableRecord Float}
      (accepts : model.Accepts (.setUpper index given) (.upper index upper))
      (found : index.get? model.variableTable = some old)
      (ordered : old.lower ≤ upper) :
      Origin model (.setUpper index given) { old with upper }
  | checked {change : Change Float} {data : VariableRecord Float}
      (ordered : data.lower ≤ data.upper)
      (within : data.kind.isBinary = true → 0 ≤ data.lower ∧ data.upper ≤ 1) :
      Origin model change data

variable {model : Model Float} {change : Change Float} {write : Write Float}
  {data : VariableRecord Float}

private theorem bounds_of_found {index : Index}
    (found : index.get? model.variableTable = some data) :
    model.bounds index = (data.lower, data.upper) := by
  simp [bounds, found]

/-- Bounds that were in order are in order after clipping, if that is checked
where it may fail, and those of a binary variable are within the unit interval. -/
private theorem clipped_of_checked {kind : VariableKind}
    {before after lower upper : Float} {subject : String}
    (clips : clipped (.listed kind) before after = (lower, upper))
    (checked : requireBinaryBounds kind lower upper subject = .ok ())
    (ordered : before ≤ after) :
    lower ≤ upper ∧
      ((StoredKind.listed kind : StoredKind Float).isBinary = true →
        0 ≤ lower ∧ upper ≤ 1) := by
  cases kind with
  | binary =>
      have between : lower ≤ upper := ordered_of_checkBounds checked
      cases clips
      exact ⟨between, fun _ => Double.clipped_within between⟩
  | continuous =>
      cases clips
      exact ⟨ordered, nofun⟩
  | integer =>
      cases clips
      exact ⟨ordered, nofun⟩

private theorem origin_of_table
    (same : (write.onto model).variableTable = model.variableTable)
    (membership : data ∈ (write.onto model).variableTable) :
    Origin model change data := by
  rw [same] at membership
  exact .kept membership rfl rfl rfl

private theorem origin_of_name {index : Index} {name : String}
    (membership : data ∈ ((Write.name index name).onto model).variableTable) :
    Origin model change data := by
  simp only [Write.onto] at membership
  split at membership
  · rename_i position _
    have changed : data ∈ (Index.place position).modify _
        model.variableTable := membership
    rcases Index.mem_modify changed with present | ⟨old, found, rfl⟩
    · exact .kept present rfl rfl rfl
    · exact .kept (Index.mem_of_get? found) rfl rfl rfl
  · exact .kept membership rfl rfl rfl

/-- All bounds after a change that asks have one of these origins. -/
private theorem Accepts.origin (accepts : model.Accepts change write)
    (asking : change.asks = true) (ordered : model.Ordered)
    (membership : data ∈ (write.onto model).variableTable) :
    Origin model change data := by
  cases accepts with
  | addVariable accepted clips checked =>
      rcases List.mem_append.mp membership with present | new
      · exact .kept present rfl rfl rfl
      · cases List.mem_singleton.mp new
        have before := (VariableOptions.readFrom_of_require accepted).ordered
        obtain ⟨between, within⟩ := clipped_of_checked clips checked before
        exact .checked between within
  | setLower accepted listed checked =>
      rcases Index.mem_modify membership with present | ⟨old, found, rfl⟩
      · exact .kept present rfl rfl rfl
      · have between := ordered_of_checkBounds checked
        rw [bounds_of_found found] at between
        exact .lowered (.setLower accepted listed checked) found between
  | setUpper accepted listed checked =>
      rcases Index.mem_modify membership with present | ⟨old, found, rfl⟩
      · exact .kept present rfl rfl rfl
      · have between := ordered_of_checkBounds checked
        rw [bounds_of_found found] at between
        exact .raised (.setUpper accepted listed checked) found between
  | setKind accepted listed clips checked =>
      rcases Index.mem_modify membership with present | ⟨old, found, rfl⟩
      · exact .kept present rfl rfl rfl
      · rw [bounds_of_found found] at clips
        have before := ordered old (Index.mem_of_get? found)
        obtain ⟨between, within⟩ := clipped_of_checked clips checked before
        dsimp only at clips
        rw [clips]
        exact .checked between within
  | setName => exact origin_of_name membership
  | storeVariable | storeLower | storeUpper | storeKind => cases asking
  | _ => exact origin_of_table rfl membership

theorem Origin.ordered (origin : Origin model change data)
    (ordered : model.Ordered) : data.lower ≤ data.upper := by
  cases origin with
  | kept present lower upper kind =>
      rw [lower, upper]
      exact ordered _ present
  | lowered accepts found between => exact between
  | raised accepts found between => exact between
  | checked between within => exact between

theorem Origin.within (origin : Origin model change data)
    (units : model.BinariesInUnit) (keeping : ¬model.Strays change)
    (binary : data.kind.isBinary = true) : 0 ≤ data.lower ∧ data.upper ≤ 1 := by
  cases origin with
  | kept present lower upper kind =>
      rw [kind] at binary
      obtain ⟨above, _, below⟩ := units _ present binary
      rw [lower, upper]
      exact ⟨above, below⟩
  | lowered accepts found between =>
      obtain ⟨_, _, below⟩ := units _ (Index.mem_of_get? found) binary
      have above := not_imp_comm.mp (Strays.below accepts found binary) keeping
      exact ⟨above, below⟩
  | raised accepts found between =>
      obtain ⟨above, _, _⟩ := units _ (Index.mem_of_get? found) binary
      have below := not_imp_comm.mp (Strays.above accepts found binary) keeping
      exact ⟨above, below⟩
  | checked between within => exact within binary

section Steps

/-- What is known of variables after a change that asks, refused or not. -/
private theorem origin_after (ordered : model.Ordered)
    (asking : change.asks = true)
    (membership : data ∈ (model.after change).variableTable) :
    Origin model change data := by
  rcases step_cases model change with
    ⟨_, unchanged⟩ | ⟨write, accepts, _, written⟩ | ⟨_, _, dropped⟩
  · rw [unchanged] at membership
    exact .kept membership rfl rfl rfl
  · rw [written] at membership
    exact accepts.origin asking ordered membership
  · rw [dropped] at membership
    exact .kept membership rfl rfl rfl

theorem Ordered.after (ordered : model.Ordered) (asking : change.asks = true) :
    (model.after change).Ordered :=
  fun _ membership => (origin_after ordered asking membership).ordered ordered

theorem BinariesInUnit.after (units : model.BinariesInUnit)
    (ordered : model.Ordered) (asking : change.asks = true)
    (keeping : ¬model.Strays change) : (model.after change).BinariesInUnit := by
  intro data membership binary
  have origin := origin_after ordered asking membership
  obtain ⟨above, below⟩ := origin.within units keeping binary
  exact ⟨above, origin.ordered ordered, below⟩

private theorem mem_modify_of_found {index : Index}
    (found : index.get? model.variableTable = some data)
    (change : VariableRecord Float → VariableRecord Float) :
    change data ∈ index.modify change model.variableTable := by
  have changed : index.get? (index.modify change model.variableTable) =
      some (change data) := by
    rw [Index.get?_modify_self, found]
    rfl
  exact Index.mem_of_get? changed

/-- A bound that strays is found in the table afterwards. -/
theorem Strays.not_binariesInUnit (strays : model.Strays change) :
    ¬(model.after change).BinariesInUnit := by
  intro units
  cases strays with
  | @below index given lower data accepts found binary outside =>
      rw [after_of_ok (apply_of_accepts accepts)] at units
      have present :=
        mem_modify_of_found found (fun data => { data with lower })
      exact outside (units _ present binary).1
  | @above index given upper data accepts found binary outside =>
      rw [after_of_ok (apply_of_accepts accepts)] at units
      have present :=
        mem_modify_of_found found (fun data => { data with upper })
      exact outside (units _ present binary).2.2

end Steps

section Runs

variable {reference : ModelRef} {direction : Direction}
  {changes : List (Change Float)}

theorem ordered_reached (asking : ∀ change ∈ changes, change.asks = true) :
    (reached reference direction changes).Ordered := by
  have asks : Throughout reference direction changes
      (fun _ change => change.asks = true) :=
    throughout_of_forall (fun _ => asking)
  apply asks.invariant
  · intro model change asks ordered
    exact ordered.after asks
  · exact nofun

/-- The bounds of binary variables stay within the unit interval for as long as
those of all variables stay in order. -/
theorem binariesInUnit_reached
    (asking : ∀ change ∈ changes, change.asks = true)
    (keeping : Throughout reference direction changes
      (fun model change => ¬model.Strays change)) :
    (reached reference direction changes).BinariesInUnit := by
  have asks : Throughout reference direction changes
      (fun _ change => change.asks = true) :=
    throughout_of_forall (fun _ => asking)
  have kept : ∀ (model : Model Float) (change : Change Float),
      change.asks = true ∧ ¬model.Strays change →
      model.Ordered ∧ model.BinariesInUnit →
      (model.after change).Ordered ∧ (model.after change).BinariesInUnit := by
    intro model change known bounded
    obtain ⟨ordered, units⟩ := bounded
    exact ⟨ordered.after known.1, units.after ordered known.1 known.2⟩
  exact ((asks.and keeping).invariant kept ⟨nofun, nofun⟩).2

/-- In a run of changes that ask, the bounds of all variables are in order.  The
bounds of binary variables are within the unit interval all the time exactly if
no bound outside of it is ever accepted for a binary variable. -/
theorem binariesInUnit_iff
    (asking : ∀ change ∈ changes, change.asks = true) :
    Always reference direction changes Ordered ∧
      (Always reference direction changes BinariesInUnit ↔
        Throughout reference direction changes
          (fun model change => ¬model.Strays change)) := by
  have earlierAsking : ∀ earlier later, changes = earlier ++ later →
      ∀ change ∈ earlier, change.asks = true := by
    rintro earlier later rfl change membership
    exact asking change (List.mem_append_left _ membership)
  refine ⟨?_, ?_, ?_⟩
  · intro earlier later split
    exact ordered_reached (earlierAsking earlier later split)
  · intro always earlier change later split strays
    apply strays.not_binariesInUnit
    rw [← reached_concat]
    exact always (earlier ++ [change]) later (by simp [split])
  · intro keeping earlier later split
    apply binariesInUnit_reached (earlierAsking earlier later split)
    subst split
    exact keeping.of_append

end Runs

section Examples

private def wideBinary : Change Float :=
  .addVariable (.record
    [("varType", .text "B"), ("lb", .number (-3)), ("ub", .number 7)] 0)

private def narrowing : List (Change Float) :=
  [wideBinary, .setUpper (.place 0) (.number 0.5)]

private def lowering : List (Change Float) :=
  [wideBinary, .setLower (.place 0) (.number (-1))]

/-- A variable with wide bounds is clipped when it is added as binary, and stays
within the unit interval when its upper bound becomes one half. -/
theorem binariesInUnit_narrowing :
    Always ⟨0, "m"⟩ .minimize narrowing BinariesInUnit := by
  have asking : ∀ change ∈ narrowing, change.asks = true := by decide
  apply (binariesInUnit_iff asking).2.mpr
  intro earlier change later split strays
  rcases earlier with _ | ⟨first, _ | ⟨second, earlier⟩⟩
  · cases split
    cases strays
  · cases split
    cases strays with
    | above accepts found binary outside =>
        cases accepts with
        | setUpper accepted listed checked =>
            cases accepted
            exact outside (by decide)
  · simp [narrowing] at split

/-- A lower bound of minus one is accepted for a variable that is binary. -/
theorem not_binariesInUnit_lowering :
    (∀ change ∈ lowering, change.asks = true) ∧
      ¬(reached ⟨0, "m"⟩ .minimize lowering).BinariesInUnit := by
  refine ⟨by decide, ?_⟩
  intro units
  have below : (reached ⟨0, "m"⟩ .minimize lowering).variableTable.any
      (fun data => data.kind.isBinary && !decide (0 ≤ data.lower)) = true := by
    decide +kernel
  obtain ⟨data, present, found⟩ := List.any_eq_true.mp below
  obtain ⟨binary, outside⟩ : data.kind.isBinary = true ∧ ¬0 ≤ data.lower := by
    simpa using found
  exact outside (units data present binary).1

end Examples

end LinearProgram.Model
