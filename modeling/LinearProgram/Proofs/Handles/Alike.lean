import LinearProgram.Proofs.Handles.Kept
import LinearProgram.Proofs.Outcome

/-!
# Alike outcomes

Two outcomes are alike if both are results that show the same, or both are refusals
for one reason.  Reasons count as one if they are the same with kept handles: they
then have the same kind, the same issues and the same message.

Sequences of alike steps are alike, for checks and for updates.  So what is done with
arguments that differ in their handles can be compared step by step.
-/

namespace LinearProgram

variable {α : Type} [Scalar α]

namespace Error

/-- The error with the kept handles in what it states. -/
def kept : Error α → Error α
  | notScalar operation received => notScalar operation.kept received.kept
  | unsupported received => unsupported received.kept
  | termCount handles coefficients => termCount handles.kept coefficients.kept
  | columnCount handles coefficients => columnCount handles.kept coefficients.kept
  | invalidRelation given => invalidRelation given.kept
  | invalidKind given => invalidKind given.kept
  | notFinite given => notFinite given.kept
  | notAssignment given => notAssignment given.kept
  | notBinary participant => notBinary participant.kept
  | invalidOptions subject issues => invalidOptions subject.kept issues
  | other => other

/-- A value that is not supported is refused alike with kept handles. -/
theorem kept_unsupported (value : Value α) :
    (unsupported value).kept = (unsupported value.kept).kept :=
  congrArg unsupported value.kept_kept.symm

variable (error : Error α) (naming : Naming)

@[simp]
theorem kind_kept : error.kept.kind = error.kind := by
  cases error <;> rfl

@[simp]
theorem issues?_kept : error.kept.issues? = error.issues? := by
  cases error <;> rfl

@[simp]
theorem received?_kept : error.kept.received? = error.received?.map Value.kept := by
  cases error <;> rfl

@[simp]
theorem shownTitles_kept : error.kept.shownTitles naming = error.shownTitles naming := by
  cases error <;> simp [kept, shownTitles]

@[simp]
theorem message_kept : error.kept.message naming = error.message naming := by
  -- Only the shown values are looked at; the words around them stay folded.
  cases error with
  | notScalar operation received =>
      change _ ++ naming.plain operation.kept ++ _ ++
        naming.plain (naming.typeOf received.kept) = _
      rw [Naming.plain_kept, Naming.plain_typeOf_kept]
      rfl
  | unsupported received =>
      change _ ++ naming.plain (naming.typeOf received.kept) ++ _ = _
      rw [Naming.plain_typeOf_kept]
      rfl
  | termCount first second | columnCount first second =>
      change _ ++ naming.plain first.kept ++ _ ++ naming.plain second.kept ++ _ = _
      rw [Naming.plain_kept, Naming.plain_kept]
      rfl
  | invalidRelation given | invalidKind given =>
      change _ ++ given.kept.shown = _
      rw [Value.shown_kept]
      rfl
  | notFinite given =>
      change _ ++ naming.plain given.kept = _
      rw [Naming.plain_kept]
      rfl
  | notAssignment given =>
      change _ ++ given.kept.render naming.name = _
      rw [Expression.render_kept naming.name_kept]
      rfl
  | notBinary participant =>
      change _ ++ naming.name participant.kept ++ _ = _
      rw [Naming.name_kept]
      rfl
  | invalidOptions subject issues =>
      change _ ++ naming.plain subject.kept ++ _ ++ _ = _
      rw [Naming.plain_kept]
      rfl
  | _ => rfl

@[simp]
theorem kept_kept : error.kept.kept = error.kept := by
  cases error <;> simp [kept]

end Error

variable {β γ δ ε σ τ : Type}

namespace Check

/-- Both checks succeed and their results show the same, or both fail for one
reason. -/
inductive Alike (view : β → γ) : Except (Error α) β → Except (Error α) β → Prop
  | ok {result other : β} (same : view result = view other) :
      Alike view (.ok result) (.ok other)
  | error {reason other : Error α} (same : reason.kept = other.kept) :
      Alike view (.error reason) (.error other)

namespace Alike

variable {view : β → γ} {first second third : Except (Error α) β}

theorem refl (check : Except (Error α) β) : Alike view check check := by
  cases check with
  | ok result => exact .ok rfl
  | error reason => exact .error rfl

theorem symm (alike : Alike view first second) : Alike view second first := by
  cases alike with
  | ok same => exact .ok same.symm
  | error same => exact .error same.symm

theorem trans (early : Alike view first second) (late : Alike view second third) :
    Alike view first third := by
  cases early with
  | ok same =>
      cases late with
      | ok further => exact .ok (same.trans further)
  | error same =>
      cases late with
      | error further => exact .error (same.trans further)

theorem of_eq (same : first = second) : Alike view first second := same ▸ .refl first

/-- What takes no notice of a part of what it is given takes no notice of which part it is. -/
theorem of_blind {read : σ → Except (Error α) β} {erased : σ → σ}
    (blind : ∀ given, Alike view (read given) (read (erased given))) {given other : σ}
    (same : erased given = erased other) : Alike view (read given) (read other) :=
  (blind given).trans (same ▸ (blind other).symm)

theorem of_map_eq (same : first.map view = second.map view) : Alike view first second := by
  cases first <;> cases second
  · exact .error (congrArg Error.kept (Except.error.inj same))
  · cases same
  · cases same
  · exact .ok (Except.ok.inj same)

/-- Alike checks may be followed by alike checks of their results. -/
theorem bind {further : δ → ε} {next other : β → Except (Error α) δ}
    (early : Alike view first second)
    (late : ∀ result counterpart, view result = view counterpart →
      Alike further (next result) (other counterpart)) :
    Alike further (first >>= next) (second >>= other) := by
  cases early with
  | ok same => exact late _ _ same
  | error same => exact .error same

end Alike

/-- Checks of the items of two lists that correspond to each other. -/
theorem alike_foldlM {state : σ → τ} {key : β → γ} {step : σ → β → Except (Error α) σ}
    (stepped : ∀ first second item other, state first = state second → key item = key other →
      Alike state (step first item) (step second other))
    {items others : List β} (corresponding : items.map key = others.map key)
    {start counterpart : σ} (same : state start = state counterpart) :
    Alike state (items.foldlM step start) (others.foldlM step counterpart) := by
  induction items generalizing others start counterpart with
  | nil =>
      cases others with
      | nil => exact .ok same
      | cons _ _ => cases corresponding
  | cons item items induction =>
      cases others with
      | nil => cases corresponding
      | cons other others =>
          obtain ⟨head, rest⟩ := List.cons.inj corresponding
          rw [List.foldlM_cons, List.foldlM_cons]
          exact (stepped _ _ _ _ same head).bind (fun _ _ further => induction rest further)

theorem alike_mapM {key : β → σ} {view : γ → δ} {check counterpart : β → Except (Error α) γ}
    (checked : ∀ item other, key item = key other →
      Alike view (check item) (counterpart other))
    {items others : List β} (corresponding : items.map key = others.map key) :
    Alike (List.map view) (items.mapM check) (others.mapM counterpart) := by
  induction items generalizing others with
  | nil =>
      cases others with
      | nil => exact .ok rfl
      | cons _ _ => cases corresponding
  | cons item items induction =>
      cases others with
      | nil => cases corresponding
      | cons other others =>
          obtain ⟨head, rest⟩ := List.cons.inj corresponding
          rw [List.mapM_cons, List.mapM_cons]
          refine (checked _ _ head).bind (fun result opposite same => ?_)
          refine (induction rest).bind (fun results opposites further => ?_)
          exact .ok (by rw [List.map_cons, List.map_cons, same, further])

end Check

namespace Update

/-- Both updates succeed with results that show the same, or both fail for one
reason; and the states that they leave show the same. -/
inductive Ends (shown : σ → τ) (view : β → γ) :
    EStateM.Result (Error α) σ β → EStateM.Result (Error α) σ β → Prop
  | ok {result other : β} {state counterpart : σ} (same : view result = view other)
      (states : shown state = shown counterpart) :
      Ends shown view (.ok result state) (.ok other counterpart)
  | error {reason other : Error α} {state counterpart : σ} (same : reason.kept = other.kept)
      (states : shown state = shown counterpart) :
      Ends shown view (.error reason state) (.error other counterpart)

theorem Ends.trans_symm {shown : σ → τ} {view : β → γ}
    {first middle last : EStateM.Result (Error α) σ β} (early : Ends shown view first middle)
    (late : Ends shown view last middle) : Ends shown view first last := by
  cases early with
  | ok same states =>
      cases late with
      | ok further others => exact .ok (same.trans further.symm) (states.trans others.symm)
  | error same states =>
      cases late with
      | error further others => exact .error (same.trans further.symm) (states.trans others.symm)

/-- From states that show the same, two updates end alike. -/
def Alike (shown : σ → τ) (view : β → γ) (first second : EStateM (Error α) σ β) : Prop :=
  ∀ state counterpart, shown state = shown counterpart →
    Ends shown view (first state) (second counterpart)

namespace Alike

variable {shown : σ → τ} {view : β → γ} {first second : EStateM (Error α) σ β}

/-- From the same state, an update ends as it does. -/
theorem refl (update : EStateM (Error α) σ β) : Alike id id update update := by
  intro state counterpart same
  cases same
  cases update state with
  | ok result written => exact Ends.ok (α := α) rfl rfl
  | error reason written => exact .error rfl rfl

theorem of_eq (same : first = second) : Alike id id first second := by
  rw [same]
  exact refl second

/-- Updates that are like a third one are alike. -/
theorem trans_symm {third : EStateM (Error α) σ β} (early : Alike shown view first second)
    (late : Alike shown view third second) : Alike shown view first third :=
  fun state counterpart states =>
    (early state counterpart states).trans_symm (late counterpart counterpart rfl)

theorem pure {result other : β} (same : view result = view other) :
    Alike (α := α) shown view (pure result) (pure other) :=
  fun _ _ states => .ok same states

theorem throw {reason other : Error α} (same : reason.kept = other.kept) :
    Alike shown view (throw reason) (throw other) :=
  fun _ _ states => .error same states

theorem check {given counterpart : Except (Error α) β}
    (alike : Check.Alike view given counterpart) :
    Alike shown view (liftM given : EStateM (Error α) σ β) (liftM counterpart) := by
  intro state other states
  cases alike with
  | ok same => exact .ok same states
  | error same => exact .error same states

theorem bind {further : δ → ε} {next other : β → EStateM (Error α) σ δ}
    (early : Alike shown view first second)
    (late : ∀ result counterpart, view result = view counterpart →
      Alike shown further (next result) (other counterpart)) :
    Alike shown further (first >>= next) (second >>= other) := by
  intro state counterpart states
  have ends := early state counterpart states
  cases success : first state with
  | ok result middle =>
      rw [success] at ends
      cases opposite : second counterpart with
      | ok other centre =>
          rw [opposite] at ends
          cases ends with
          | ok same between =>
              rw [bind_of_ok success, bind_of_ok opposite]
              exact late _ _ same _ _ between
      | error reason centre =>
          rw [opposite] at ends
          cases ends
  | error reason middle =>
      rw [success] at ends
      cases opposite : second counterpart with
      | ok other centre =>
          rw [opposite] at ends
          cases ends
      | error other centre =>
          rw [opposite] at ends
          cases ends with
          | error same between =>
              rw [bind_of_error success, bind_of_error opposite]
              exact .error same between

/-- Both updates begin with a look at the state. -/
theorem bind_get {next other : σ → EStateM (Error α) σ β}
    (late : ∀ state counterpart, shown state = shown counterpart →
      Alike shown view (next state) (other counterpart)) :
    Alike shown view (get >>= next) (get >>= other) :=
  fun state counterpart states => late state counterpart states state counterpart states

theorem bind_check {given counterpart : Except (Error α) δ} {further : δ → ε}
    {next other : δ → EStateM (Error α) σ β}
    (early : Check.Alike further given counterpart)
    (late : ∀ result opposite, further result = further opposite →
      Alike shown view (next result) (other opposite)) :
    Alike shown view (liftM given >>= next) (liftM counterpart >>= other) :=
  (check early).bind late

/-- Both updates begin with the same check. -/
theorem after_check {given : Except (Error α) δ} {next other : δ → EStateM (Error α) σ β}
    (late : ∀ result, Alike shown view (next result) (other result)) :
    Alike shown view (liftM given >>= next) (liftM given >>= other) := by
  have same : Check.Alike id given given := .refl given
  apply bind_check same
  rintro result _ rfl
  exact late result

theorem set {state counterpart : σ} (same : shown state = shown counterpart) :
    Alike (α := α) shown (id : PUnit → PUnit) (set state) (set counterpart) :=
  fun _ _ _ => .ok rfl same

theorem modify {change other : σ → σ}
    (same : ∀ state counterpart, shown state = shown counterpart →
      shown (change state) = shown (other counterpart)) :
    Alike (α := α) shown (id : PUnit → PUnit) (modify change) (modify other) :=
  fun state counterpart states => .ok rfl (same state counterpart states)

theorem forM {key : δ → ε} {update counterpart : δ → EStateM (Error α) σ PUnit}
    (stepped : ∀ item other, key item = key other →
      Alike shown (id : PUnit → PUnit) (update item) (counterpart other))
    {items others : List δ} (corresponding : items.map key = others.map key) :
    Alike shown (id : PUnit → PUnit) (items.forM update) (others.forM counterpart) := by
  induction items generalizing others with
  | nil =>
      cases others with
      | nil => exact pure rfl
      | cons _ _ => cases corresponding
  | cons item items induction =>
      cases others with
      | nil => cases corresponding
      | cons other others =>
          obtain ⟨head, rest⟩ := List.cons.inj corresponding
          exact (stepped _ _ head).bind (fun _ _ _ => induction rest)

theorem forM_map {change : δ → ε} {update : δ → EStateM (Error α) σ PUnit}
    {counterpart : ε → EStateM (Error α) σ PUnit}
    (stepped : ∀ item, Alike shown (id : PUnit → PUnit) (update item) (counterpart (change item)))
    (items : List δ) :
    Alike shown (id : PUnit → PUnit) (items.forM update) ((items.map change).forM counterpart) := by
  induction items with
  | nil => exact pure rfl
  | cons item items induction => exact (stepped item).bind (fun _ _ _ => induction)

end Alike

end Update

end LinearProgram
