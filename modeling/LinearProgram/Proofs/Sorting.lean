import LinearProgram.Sorting.Merging

/-!
# Sorting looks at nothing but comparisons

What sorting does to a list is decided by how its items compare.  So items can be
replaced before or after they are sorted, if that leaves all comparisons as they are.
-/

namespace LinearProgram.Sorting

variable {β γ : Type} {before : β → β → Bool} {compare : γ → γ → Bool} {replace : β → γ}

/-- Items compare as what replaces them. -/
def Agrees (before : β → β → Bool) (compare : γ → γ → Bool) (replace : β → γ) : Prop :=
  ∀ first second, compare (replace first) (replace second) = before first second

section Insertion

theorem runLength_map {continues : β → β → Bool} {counterpart : γ → γ → Bool}
    (agrees : Agrees continues counterpart replace) (previous : β) (items : List β) :
    runLength counterpart (replace previous) (items.map replace) =
      runLength continues previous items := by
  induction items generalizing previous with
  | nil => rfl
  | cons item rest induction =>
      simp only [List.map_cons, runLength, induction, agrees previous item]

theorem firstRun_map (agrees : Agrees before compare replace) (items : List β) :
    firstRun compare (items.map replace) =
      ((firstRun before items).1.map replace, (firstRun before items).2.map replace) := by
  match items with
  | [] => rfl
  | [item] => rfl
  | first :: second :: rest =>
      have downwards := @runLength_map _ _ replace (fun previous item => before item previous)
        (fun previous item => compare item previous)
        (fun previous item => agrees item previous) second rest
      have upwards := @runLength_map _ _ replace (fun previous item => !before item previous)
        (fun previous item => !compare item previous)
        (fun previous item => congrArg not (agrees item previous)) second rest
      simp only [List.map_cons, firstRun, agrees second first, downwards, upwards]
      split <;> simp [List.map_take, List.map_drop]

theorem any_map_getElem? {test : β → Bool} {counterpart : γ → Bool}
    (same : ∀ item, counterpart (replace item) = test item) (items : List β) (position : Nat) :
    (items.map replace)[position]?.any counterpart = items[position]?.any test := by
  rw [List.getElem?_map]
  cases items[position]? with
  | none => rfl
  | some item => exact same item

theorem place_map (agrees : Agrees before compare replace) (item : β) (sorted : List β) :
    place compare (replace item) (sorted.map replace) = place before item sorted := by
  simp only [place, any_map_getElem? (agrees item), List.length_map]

theorem insert_map (agrees : Agrees before compare replace) (sorted : List β) (item : β) :
    insert compare (sorted.map replace) (replace item) =
      (insert before sorted item).map replace := by
  simp [insert, place_map agrees, List.map_take, List.map_drop]

theorem foldl_insert_map (agrees : Agrees before compare replace) (sorted items : List β) :
    (items.map replace).foldl (insert compare) (sorted.map replace) =
      (items.foldl (insert before) sorted).map replace := by
  induction items generalizing sorted with
  | nil => rfl
  | cons item rest induction =>
      rw [List.map_cons, List.foldl_cons, insert_map agrees, induction, List.foldl_cons]

theorem byInsertion_map (agrees : Agrees before compare replace) (items : List β) :
    byInsertion compare (items.map replace) = (byInsertion before items).map replace := by
  simp only [byInsertion, firstRun_map agrees, foldl_insert_map agrees]

end Insertion

/-- The outcome of a merge with its items replaced. -/
def Merged.map (replace : β → γ) (merged : Merged β) : Merged γ :=
  ⟨merged.items.map replace, merged.patience⟩

theorem Merged.map_after (rest : Merged β) (items : List β) :
    (rest.after items).map replace = (rest.map replace).after (items.map replace) := by
  simp [Merged.map, after]

namespace Manner

/-- Two manners of merging that differ in the items only. -/
structure Matches (manner : Manner β) (counterpart : Manner γ) (replace : β → γ) : Prop where
  agrees : Agrees manner.secondWins counterpart.secondWins replace
  firstAside : counterpart.firstAside = manner.firstAside
  forward : counterpart.forward = manner.forward

variable {manner : Manner β} {counterpart : Manner γ}

theorem Matches.settled?_map (matching : manner.Matches counterpart replace)
    (first second : List β) :
    counterpart.settled? (first.map replace) (second.map replace) =
      (manner.settled? first second).map (List.map replace) := by
  simp only [settled?, List.isEmpty_map, List.length_map, matching.firstAside, ← List.map_append]
  repeat' split
  all_goals rfl

theorem Matches.firstWins_map (matching : manner.Matches counterpart replace)
    (first : List β) (item : β) :
    counterpart.firstWins (first.map replace) (replace item) = manner.firstWins first item := by
  simp only [firstWins, any_map_getElem? (matching.agrees item), List.length_map,
    matching.forward]

theorem Matches.secondWinsOver_map (matching : manner.Matches counterpart replace)
    (second : List β) (item : β) :
    counterpart.secondWinsOver (second.map replace) (replace item) =
      manner.secondWinsOver second item := by
  have same := @any_map_getElem? _ _ replace (manner.secondWins · item)
    (counterpart.secondWins · (replace item)) (fun other => matching.agrees other item) second
  simp only [secondWinsOver, same, List.length_map, matching.forward]

/-- Each stage of a merge replaces what it puts in order. -/
theorem Matches.stage_map (matching : manner.Matches counterpart replace) (fuel : Nat) :
    (∀ firstRow secondRow patience first second,
      counterpart.contest fuel firstRow secondRow patience (first.map replace)
          (second.map replace) =
        (manner.contest fuel firstRow secondRow patience first second).map replace) ∧
    (∀ patience first second,
      counterpart.search fuel patience (first.map replace) (second.map replace) =
        (manner.search fuel patience first second).map replace) ∧
    (∀ firstRow patience other first second,
      counterpart.answer fuel firstRow patience (replace other) (first.map replace)
          (second.map replace) =
        (manner.answer fuel firstRow patience other first second).map replace) := by
  induction fuel with
  | zero => simp [contest, search, answer, Merged.map]
  | succ fuel induction =>
      obtain ⟨contests, searches, answers⟩ := induction
      refine ⟨fun firstRow secondRow patience first second => ?contest,
        fun patience first second => ?search,
        fun firstRow patience other first second => ?answer⟩
      case contest =>
        unfold contest
        rw [matching.settled?_map]
        cases manner.settled? first second with
        | some rest => rfl
        | none =>
            cases first with
            | nil => simp [Merged.map]
            | cons one others =>
                cases second with
                | nil => simp [Merged.map]
                | cons other rest =>
                    have lost := contests 0 (secondRow + 1) patience (one :: others) rest
                    have lostAll := searches patience (one :: others) rest
                    have won := contests (firstRow + 1) 0 patience others (other :: rest)
                    have wonAll := searches patience others (other :: rest)
                    simp only [List.map_cons] at lost lostAll won wonAll
                    simp only [Option.map_none, List.map_cons, matching.agrees other one, lost,
                      lostAll, won, wonAll]
                    split <;> split <;> rw [Merged.map_after] <;> rfl
      case search =>
        unfold search
        rw [matching.settled?_map]
        cases manner.settled? first second with
        | some rest => rfl
        | none =>
            cases second with
            | nil => rfl
            | cons other others =>
                simp only [Option.map_none, List.map_cons, matching.firstWins_map,
                  ← List.map_drop, ← List.map_take, answers, Merged.map_after]
      case answer =>
        unfold answer
        have whole := matching.settled?_map first (other :: second)
        rw [List.map_cons] at whole
        rw [whole, matching.settled?_map first second]
        cases manner.settled? first (other :: second) with
        | some rest => rfl
        | none =>
            cases manner.settled? first second with
            | some rest => simp [Merged.map]
            | none =>
                cases first with
                | nil => simp [Merged.map]
                | cons one rest =>
                    have left := matching.settled?_map (one :: rest)
                      (second.drop (manner.secondWinsOver second one))
                    rw [List.map_cons] at left
                    simp only [Option.map_none, List.map_cons, matching.secondWinsOver_map,
                      ← List.map_drop, ← List.map_take, left, matching.settled?_map rest,
                      searches, contests]
                    generalize second.drop (manner.secondWinsOver second one) = later
                    cases manner.settled? (one :: rest) later with
                    | some settled => simp [Merged.map]
                    | none =>
                        cases manner.settled? rest later with
                        | some settled => simp [Merged.map]
                        | none =>
                            simp only [Option.map_none]
                            split <;> simp [Merged.map_after]

end Manner

section Merging

theorem matches_upward (agrees : Agrees before compare replace) :
    (upward before).Matches (upward compare) replace :=
  ⟨agrees, rfl, rfl⟩

theorem matches_downward (agrees : Agrees before compare replace) :
    (downward before).Matches (downward compare) replace :=
  ⟨fun second first => congrArg not (agrees second first), rfl, rfl⟩

theorem mergeInner_map (agrees : Agrees before compare replace) (patience : Nat)
    (first second : List β) :
    mergeInner compare patience (first.map replace) (second.map replace) =
      (mergeInner before patience first second).map replace := by
  have upwards := fun fuel => ((matches_upward agrees).stage_map fuel).1
  have downwards := fun fuel => ((matches_downward agrees).stage_map fuel).1
  simp only [mergeInner, List.length_map, ← List.map_drop, ← List.map_take, ← List.map_reverse,
    upwards, downwards, ← Merged.map_after]
  split
  · rfl
  · simp [Merged.map]

theorem settledStart_map (agrees : Agrees before compare replace) (first second : List β) :
    settledStart compare (first.map replace) (second.map replace) =
      settledStart before first second := by
  have same : ∀ item, (second.map replace).head?.any (compare · (replace item)) =
      second.head?.any (before · item) := by
    intro item
    cases second with
    | nil => rfl
    | cons head rest => exact agrees head item
  have found := @any_map_getElem? _ _ replace (fun item => second.head?.any (before · item))
    (fun item => (second.map replace).head?.any (compare · item)) same first
  simp only [settledStart, found, List.length_map]

theorem unsettledEnd_map (agrees : Agrees before compare replace) (first second : List β) :
    unsettledEnd compare (first.map replace) (second.map replace) =
      unsettledEnd before first second := by
  have same : ∀ item, (first.map replace).getLast?.any (compare (replace item)) =
      first.getLast?.any (before item) := by
    intro item
    rw [List.getLast?_map]
    cases first.getLast? with
    | none => rfl
    | some last => exact agrees item last
  have found := @any_map_getElem? _ _ replace (fun item => first.getLast?.any (before item))
    (fun item => (first.map replace).getLast?.any (compare item)) same second.reverse
  simp only [unsettledEnd, ← List.map_reverse, found, List.length_map]

theorem merge_map (agrees : Agrees before compare replace) (patience : Nat)
    (first second : List β) :
    merge compare patience (first.map replace) (second.map replace) =
      (merge before patience first second).map replace := by
  simp only [merge, settledStart_map agrees, ← List.map_drop, unsettledEnd_map agrees,
    ← List.map_take, List.isEmpty_map, mergeInner_map agrees]
  split <;> simp [Merged.map]

namespace Pending

/-- The runs that wait, with their items replaced. -/
def map (replace : β → γ) (pending : Pending β) : Pending γ :=
  ⟨pending.runs.map (List.map replace), pending.patience⟩

variable (agrees : Agrees before compare replace)

include agrees

theorem mergeLast_map (pending : Pending β) :
    mergeLast compare (pending.map replace) = (mergeLast before pending).map replace := by
  obtain ⟨runs, patience⟩ := pending
  match runs with
  | [] => rfl
  | [last] => rfl
  | last :: previous :: others =>
      simp only [map, mergeLast, List.map_cons, merge_map agrees]
      rfl

theorem mergePrevious_map (pending : Pending β) :
    mergePrevious compare (pending.map replace) = (mergePrevious before pending).map replace := by
  obtain ⟨runs, patience⟩ := pending
  cases runs with
  | nil => rfl
  | cons last others =>
      have merged := mergeLast_map agrees ⟨others, patience⟩
      simp only [map] at merged
      simp only [map, mergePrevious, List.map_cons, merged]

theorem mergeShorter_map (pending : Pending β) :
    mergeShorter compare (pending.map replace) = (mergeShorter before pending).map replace := by
  have last := mergeLast_map agrees pending
  have previous := mergePrevious_map agrees pending
  obtain ⟨runs, patience⟩ := pending
  match runs with
  | [] | [_] | [_, _] => exact last
  | _ :: _ :: _ :: _ =>
      simp only [map, List.map_cons] at last previous
      simp only [map, mergeShorter, List.map_cons, List.length_map, last, previous]
      split <;> rfl

omit agrees in
theorem decreasing_map (runs : List (List β)) :
    decreasing (runs.map (List.map replace)) = decreasing runs := by
  match runs with
  | [] | [_] | [_, _] => rfl
  | _ :: _ :: _ :: _ => simp [decreasing]

theorem collapse_map (merges : Nat) (pending : Pending β) :
    collapse compare merges (pending.map replace) =
      (collapse before merges pending).map replace := by
  induction merges generalizing pending with
  | zero => rfl
  | succ merges induction =>
      obtain ⟨runs, patience⟩ := pending
      match runs with
      | [] | [_] => rfl
      | last :: previous :: others =>
          have whole := @decreasing_map _ _ replace (last :: previous :: others)
          have rest := @decreasing_map _ _ replace (previous :: others)
          have shorter : mergeShorter compare ⟨last.map replace :: previous.map replace ::
              others.map (List.map replace), patience⟩ = _ :=
            mergeShorter_map agrees ⟨last :: previous :: others, patience⟩
          have two : mergeLast compare ⟨last.map replace :: previous.map replace ::
              others.map (List.map replace), patience⟩ = _ :=
            mergeLast_map agrees ⟨last :: previous :: others, patience⟩
          simp only [List.map_cons] at whole rest
          change collapse compare (merges + 1) ⟨last.map replace :: previous.map replace ::
            others.map (List.map replace), patience⟩ = _
          simp only [collapse, whole, rest, List.length_map, shorter, two, induction]
          split
          · rfl
          · split <;> rfl

theorem mergeAll_map (merges : Nat) (pending : Pending β) :
    mergeAll compare merges (pending.map replace) =
      (mergeAll before merges pending).map replace := by
  induction merges generalizing pending with
  | zero => simp [mergeAll, map, List.map_flatten]
  | succ merges induction =>
      have shorter := mergeShorter_map agrees pending
      obtain ⟨runs, patience⟩ := pending
      match runs with
      | [] | [_] => rfl
      | last :: previous :: others =>
          change mergeAll compare merges (mergeShorter compare (map replace _)) = _
          rw [shorter, induction]
          rfl

end Pending

theorem stacked_map (agrees : Agrees before compare replace) (least : Nat)
    (pending : Pending β) (items : List β) :
    stacked compare least (pending.map replace) (items.map replace) =
      (stacked before least pending items).map replace := by
  induction pending, items using stacked.induct before least with
  | case1 pending => simp [stacked]
  | case2 pending items nonempty first missing runs induction =>
      have still : items.map replace ≠ [] := by
        simpa using nonempty
      rw [stacked.eq_def compare least (pending.map replace), if_neg still,
        stacked.eq_def before least pending, if_neg nonempty]
      rw [← induction]
      simp only [firstRun_map agrees, List.length_map, ← List.map_take, ← List.map_drop,
        foldl_insert_map agrees]
      rw [← Pending.collapse_map agrees]
      simp only [runs, Pending.map, List.map_cons, List.length_cons, List.length_map]
      rfl

theorem byMerging_map (agrees : Agrees before compare replace) (items : List β) :
    byMerging compare (items.map replace) = (byMerging before items).map replace := by
  have pending : stacked compare (leastRun items.length) ⟨[], worthwhile⟩
      (items.map replace) = _ :=
    stacked_map agrees (leastRun items.length) ⟨[], worthwhile⟩ items
  simp only [byMerging, List.length_map, pending]
  rw [← Pending.mergeAll_map agrees]
  simp [Pending.map]

end Merging

/-- Items can be replaced before or after they are sorted. -/
theorem sort_map (agrees : Agrees before compare replace) (items : List β) :
    sort compare (items.map replace) = (sort before items).map replace := by
  simp only [sort, List.length_map, byInsertion_map agrees, byMerging_map agrees]
  split <;> rfl

end LinearProgram.Sorting
