import LinearProgram.Sorting.Insertion

/-!
# Merging two runs

Two runs are merged by comparing their heads.  After one of them has won often enough in a row, the
number of its further wins is searched for instead, in strides that double; how often is enough is
adapted to what such searches were worth.  The shorter run is set aside, and the merge goes
through both runs from the end where its items have to make room.

Whatever the relation, a merge only rearranges what the two runs hold: `merge_perm`.
-/

namespace LinearProgram.Sorting

variable {β : Type}

/-- The last position that a search in doubling strides has found to pass, and the next one. -/
def stride (passes : Nat → Bool) (length last next : Nat) : Nat × Nat :=
  if next < length && last < next && passes next then stride passes length next (2 * next + 1)
  else (last, next)
termination_by length - next
decreasing_by simp_all; omega

/-- How many positions pass a test, if all that pass come first. -/
def passing (passes : Nat → Bool) (forward : Bool) (length : Nat) : Nat :=
  if passes 0 then
    let (last, next) := stride passes length 0 1
    boundary passes forward (last + 1) (min next length)
  else 0

/-- So many wins in a row make it worth while to go on searching. -/
def worthwhile : Nat := 7

/-- What a merge has come to: the items in their order, and how many wins in a row the next merge
waits for before it searches. -/
structure Merged (β : Type) where
  items : List β
  patience : Nat

/-- The outcome of a merge after the items that were put first. -/
def Merged.after (rest : Merged β) (items : List β) : Merged β :=
  ⟨items ++ rest.items, rest.patience⟩

/-- How two runs are merged: which head comes first, which run is set aside, and whether positions
are counted in the direction in which the runs were made. -/
structure Manner (β : Type) where
  /-- Whether an item of the second run comes before one of the first run. -/
  secondWins : β → β → Bool
  firstAside : Bool
  forward : Bool

namespace Manner

variable (manner : Manner β)

/-- What is left of a merge if it needs no comparison any more: a run is used up, or the last item
of the run that was set aside goes to the end. -/
def settled? (first second : List β) : Option (List β) :=
  if first.isEmpty then some second
  else if second.isEmpty then some first
  else if manner.firstAside && first.length = 1 then some (second ++ first)
  else if !manner.firstAside && second.length = 1 then some (first ++ second)
  else none

/-- How many items of the first run come before an item of the second. -/
def firstWins (first : List β) (item : β) : Nat :=
  passing (fun position => !first[position]?.any (manner.secondWins item)) manner.forward
    first.length

/-- How many items of the second run come before an item of the first. -/
def secondWinsOver (second : List β) (item : β) : Nat :=
  passing (fun position => second[position]?.any (manner.secondWins · item)) manner.forward
    second.length

mutual

/-- Compare heads until one run has won as often in a row as patience allows. -/
def contest : Nat → Nat → Nat → Nat → List β → List β → Merged β
  | 0, _, _, patience, first, second => ⟨first ++ second, patience⟩
  | fuel + 1, firstRow, secondRow, patience, first, second =>
    match manner.settled? first second, first, second with
    | some rest, _, _ => ⟨rest, patience⟩
    | none, [], _ | none, _, [] => ⟨first ++ second, patience⟩
    | none, one :: others, other :: rest =>
      if manner.secondWins other one then
        if patience ≤ secondRow + 1 then (search fuel patience first rest).after [other]
        else (contest fuel 0 (secondRow + 1) patience first rest).after [other]
      else if patience ≤ firstRow + 1 then (search fuel patience others second).after [one]
      else (contest fuel (firstRow + 1) 0 patience others second).after [one]

/-- Search for the wins of either run in turn, as long as that is worth while. -/
def search : Nat → Nat → List β → List β → Merged β
  | 0, patience, first, second => ⟨first ++ second, patience⟩
  | fuel + 1, patience, first, second =>
    match manner.settled? first second, second with
    | some rest, _ => ⟨rest, patience⟩
    | none, [] => ⟨first, patience⟩
    | none, other :: others =>
      let wins := manner.firstWins first other
      (answer fuel wins patience other (first.drop wins) others).after (first.take wins)

/-- The other half of a search, after the wins of the first run. -/
def answer : Nat → Nat → Nat → β → List β → List β → Merged β
  | 0, _, patience, other, first, second => ⟨first ++ other :: second, patience⟩
  | fuel + 1, firstRow, patience, other, first, second =>
    match manner.settled? first (other :: second) with
    | some rest => ⟨rest, patience⟩
    | none =>
      match manner.settled? first second, first with
      | some rest, _ => ⟨other :: rest, patience⟩
      | none, [] => ⟨other :: second, patience⟩
      | none, one :: rest =>
        let wins := manner.secondWinsOver second one
        let taken := second.take wins
        let left := second.drop wins
        match manner.settled? first left, manner.settled? rest left with
        | some settled, _ => ⟨other :: taken ++ settled, patience⟩
        | none, some settled => ⟨other :: taken ++ one :: settled, patience⟩
        | none, none =>
          if worthwhile ≤ firstRow || worthwhile ≤ wins then
            (search fuel (max 1 (patience - 1)) rest left).after (other :: taken ++ [one])
          else (contest fuel 0 0 (patience + 1) rest left).after (other :: taken ++ [one])

end

theorem settled?_perm {first second rest : List β}
    (settled : manner.settled? first second = some rest) : rest.Perm (first ++ second) := by
  unfold settled? at settled
  repeat' split at settled
  all_goals simp_all
  all_goals subst settled
  all_goals exact List.perm_append_comm

/-- An item of the first run may come before all that is left. -/
theorem perm_of_first {first second merged : List β} (one : β)
    (rest : merged.Perm (first ++ second)) : (one :: merged).Perm (one :: first ++ second) :=
  rest.cons one

/-- An item of the second run may come before all that is left of the first. -/
theorem perm_of_second {first second merged : List β} (other : β)
    (rest : merged.Perm (first ++ second)) :
    (other :: merged).Perm (first ++ other :: second) :=
  (rest.cons other).trans List.perm_middle.symm

/-- Items of the second run may come before all that is left of the first. -/
theorem perm_of_taken {first second merged : List β} (taken : List β)
    (rest : merged.Perm (first ++ second)) :
    (taken ++ merged).Perm (first ++ (taken ++ second)) :=
  (rest.append_left taken).trans <| by
    simpa only [List.append_assoc] using List.perm_append_comm.append_right second

/-- An item of the second run and items after it may come before all that is left of the first. -/
theorem perm_of_answer {first second merged taken : List β} {other : β}
    (rest : merged.Perm (first ++ second)) :
    (other :: (taken ++ merged)).Perm (first ++ other :: (taken ++ second)) :=
  perm_of_second other (perm_of_taken taken rest)

/-- Each stage of a merge puts all that is left of the two runs in some order. -/
theorem stage_perm (fuel : Nat) :
    (∀ firstRow secondRow patience first second,
      (manner.contest fuel firstRow secondRow patience first second).items.Perm
        (first ++ second)) ∧
    (∀ patience first second,
      (manner.search fuel patience first second).items.Perm (first ++ second)) ∧
    (∀ firstRow patience other first second,
      (manner.answer fuel firstRow patience other first second).items.Perm
        (first ++ other :: second)) := by
  induction fuel with
  | zero => simp [contest, search, answer]
  | succ fuel induction =>
      obtain ⟨contests, searches, answers⟩ := induction
      refine ⟨fun firstRow secondRow patience first second => ?_,
        fun patience first second => ?_, fun firstRow patience other first second => ?_⟩
      · unfold contest
        split
        next settled => exact settled?_perm manner settled
        · simp
        · simp
        · split
          · split
            · exact perm_of_second _ (searches ..)
            · exact perm_of_second _ (contests ..)
          · split
            · exact perm_of_first _ (searches ..)
            · exact perm_of_first _ (contests ..)
      · unfold search
        split
        next settled => exact settled?_perm manner settled
        · simp
        next other others _ =>
          have answered := (answers (manner.firstWins first other) patience other
            (first.drop (manner.firstWins first other)) others).append_left
              (first.take (manner.firstWins first other))
          simpa only [Merged.after, ← List.append_assoc, List.take_append_drop] using answered
      · unfold answer
        split
        next settled => exact settled?_perm manner settled
        · split
          next settled => exact perm_of_second _ (settled?_perm manner settled)
          · simp
          next one rest _ _ =>
            have cut : second.take (manner.secondWinsOver second one)
                ++ second.drop (manner.secondWinsOver second one) = second :=
              List.take_append_drop ..
            refine .trans ?_ (.of_eq (congrArg (fun items => one :: rest ++ other :: items) cut))
            dsimp only
            split
            next settled =>
              exact perm_of_answer (settled?_perm manner settled)
            next settled =>
              exact perm_of_answer (perm_of_first one (settled?_perm manner settled))
            · split
              · simp only [Merged.after, List.cons_append, List.append_assoc, List.nil_append]
                exact perm_of_answer (perm_of_first one (searches ..))
              · simp only [Merged.after, List.cons_append, List.append_assoc, List.nil_append]
                exact perm_of_answer (perm_of_first one (contests ..))

end Manner

/-- The manner of merging from the front, where the first run is set aside. -/
def upward (before : β → β → Bool) : Manner β := ⟨before, true, true⟩

/-- The manner of merging from the back, where the second run is set aside. -/
def downward (before : β → β → Bool) : Manner β :=
  ⟨fun second first => !before second first, false, false⟩

/-- Merge two runs of which neither the start of the first nor the end of the second is in place. -/
def mergeInner (before : β → β → Bool) (patience : Nat) (first second : List β) : Merged β :=
  let fuel := 4 * (first.length + second.length) + 4
  if first.length ≤ second.length then
    ((upward before).contest fuel 0 0 patience first (second.drop 1)).after (second.take 1)
  else
    let merged := ((downward before).contest fuel 0 0 patience (first.reverse.drop 1)
      second.reverse).after (first.reverse.take 1)
    ⟨merged.items.reverse, merged.patience⟩

/-- How much of the first run is in place: what comes before the start of the second. -/
def settledStart (before : β → β → Bool) (first second : List β) : Nat :=
  passing (fun position => !first[position]?.any fun item =>
    second.head?.any (before · item)) true first.length

/-- How much of the second run comes before the end of the first; the rest is in place. -/
def unsettledEnd (before : β → β → Bool) (first second : List β) : Nat :=
  second.length - passing (fun position => !second.reverse[position]?.any fun item =>
    first.getLast?.any (before item)) false second.length

/-- Merge two runs, with the patience that is left to contests. -/
def merge (before : β → β → Bool) (patience : Nat) (first second : List β) : Merged β :=
  let start := settledStart before first second
  let moved := first.drop start
  let finish := unsettledEnd before moved second
  if moved.isEmpty || (second.take finish).isEmpty then ⟨first ++ second, patience⟩
  else
    let merged := mergeInner before patience moved (second.take finish)
    ⟨first.take start ++ (merged.items ++ second.drop finish), merged.patience⟩

theorem mergeInner_perm (before : β → β → Bool) (patience : Nat) (first second : List β) :
    (mergeInner before patience first second).items.Perm (first ++ second) := by
  unfold mergeInner
  dsimp only
  split
  · refine (Manner.perm_of_taken _ (((upward before).stage_perm _).1 ..)).trans ?_
    rw [List.take_append_drop]
  · refine (List.reverse_perm _).trans ?_
    refine ((((downward before).stage_perm _).1 ..).append_left _).trans ?_
    rw [← List.append_assoc, List.take_append_drop]
    exact (List.reverse_perm first).append (List.reverse_perm second)

/-- A merge only rearranges. -/
theorem merge_perm (before : β → β → Bool) (patience : Nat) (first second : List β) :
    (merge before patience first second).items.Perm (first ++ second) := by
  unfold merge
  dsimp only
  split
  · exact .refl _
  · refine (((mergeInner_perm ..).append_right _).append_left _).trans ?_
    rw [List.append_assoc, List.take_append_drop, ← List.append_assoc, List.take_append_drop]

end LinearProgram.Sorting
