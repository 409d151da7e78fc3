import LinearProgram.Proofs.Sorting.Insertion

/-!
# Merging sorts

Two runs in order are merged into one, whatever comparisons are made or searched for.  A merge
stops early when one item is left of the run that was set aside: that item is known to come last,
because the runs were cut to where they overlap.  So this has to hold of all that is merged, and
every stage keeps it.
-/

namespace LinearProgram.Sorting

variable {β : Type}

namespace Manner

variable {manner : Manner β} {ordered : β → β → Prop}

/-- The manner of merging puts items in an order: its comparisons agree with the order, and they
come out alike for all items further on. -/
structure Follows (manner : Manner β) (ordered : β → β → Prop) : Prop where
  trans : ∀ {first second third}, ordered first second → ordered second third →
    ordered first third
  wins : ∀ {one other}, manner.secondWins other one = true → ordered other one
  loses : ∀ {one other}, manner.secondWins other one = false → ordered one other
  later : ∀ {one next other}, manner.secondWins other one = true → ordered one next →
    manner.secondWins other next = true
  earlier : ∀ {one other next}, manner.secondWins next one = true → ordered other next →
    manner.secondWins other one = true

/-- Two runs in order, of which the one that was set aside has the last item of all. -/
structure Ready (manner : Manner β) (ordered : β → β → Prop) (first second : List β) :
    Prop where
  firstSorted : first.Pairwise ordered
  secondSorted : second.Pairwise ordered
  lastFirst : manner.firstAside = true → ∀ last ∈ first.getLast?, ∀ other ∈ second,
    ordered other last
  lastSecond : manner.firstAside = false → ∀ last ∈ second.getLast?, ∀ one ∈ first,
    ordered one last

section Readiness

variable {first second : List β}

private theorem getLast?_of_suffix {items rest : List β} (ends : rest <:+ items) {last : β}
    (found : last ∈ rest.getLast?) : last ∈ items.getLast? := by
  obtain ⟨earlier, rfl⟩ := ends
  rw [Option.mem_def] at found ⊢
  simp [List.getLast?_append, found]

/-- Runs are ready still after items were taken from their beginnings. -/
theorem Ready.of_suffix (ready : manner.Ready ordered first second) {others rest : List β}
    (firstEnd : others <:+ first) (secondEnd : rest <:+ second) :
    manner.Ready ordered others rest where
  firstSorted := ready.firstSorted.sublist firstEnd.sublist
  secondSorted := ready.secondSorted.sublist secondEnd.sublist
  lastFirst aside last found other membership :=
    ready.lastFirst aside last (getLast?_of_suffix firstEnd found) other
      (secondEnd.subset membership)
  lastSecond aside last found one membership :=
    ready.lastSecond aside last (getLast?_of_suffix secondEnd found) one
      (firstEnd.subset membership)

/-- What is left of a merge without a comparison is in order. -/
theorem Ready.settled (ready : manner.Ready ordered first second) {rest : List β}
    (settled : manner.settled? first second = some rest) : rest.Pairwise ordered := by
  unfold settled? at settled
  split at settled
  · cases settled
    exact ready.secondSorted
  · split at settled
    · cases settled
      exact ready.firstSorted
    · split at settled
      · rename_i single
        cases settled
        rw [Bool.and_eq_true, decide_eq_true_eq] at single
        obtain ⟨aside, length⟩ := single
        obtain ⟨last, rfl⟩ := List.length_eq_one_iff.mp length
        refine List.pairwise_append.mpr ⟨ready.secondSorted, ready.firstSorted, ?_⟩
        intro other membership one alone
        cases List.mem_singleton.mp alone
        exact ready.lastFirst aside last rfl other membership
      · split at settled
        · rename_i single
          cases settled
          rw [Bool.and_eq_true, Bool.not_eq_true', decide_eq_true_eq] at single
          obtain ⟨aside, length⟩ := single
          obtain ⟨last, rfl⟩ := List.length_eq_one_iff.mp length
          refine List.pairwise_append.mpr ⟨ready.firstSorted, ready.secondSorted, ?_⟩
          intro one membership other alone
          cases List.mem_singleton.mp alone
          exact ready.lastSecond aside last rfl one membership
        · cases settled

end Readiness

section Searches

variable {first second : List β}

theorem Follows.cuts_firstWins (follows : manner.Follows ordered)
    (sorted : first.Pairwise ordered) (item : β) :
    Cuts (fun one => !manner.secondWins item one) first (manner.firstWins first item) := by
  apply cuts_passing
  · apply sorted.imp
    intro one next order passed
    rw [Bool.not_eq_true'] at passed ⊢
    rw [Bool.eq_false_iff] at passed ⊢
    exact fun won => passed (follows.later won order)
  · intro position below
    simp [below]

theorem Follows.cuts_secondWinsOver (follows : manner.Follows ordered)
    (sorted : second.Pairwise ordered) (item : β) :
    Cuts (fun other => manner.secondWins other item) second
      (manner.secondWinsOver second item) := by
  apply cuts_passing
  · exact sorted.imp (fun order won => follows.earlier won order)
  · intro position below
    simp [below]

end Searches

section Stages

variable {first second merged : List β} (follows : manner.Follows ordered)

include follows

/-- The head of the first run comes first if it does not lose. -/
private theorem ordered_of_first {one other : β} {others rest : List β}
    (ready : manner.Ready ordered (one :: others) (other :: rest))
    (won : manner.secondWins other one = false) (sorted : merged.Pairwise ordered)
    (all : merged.Perm (others ++ other :: rest)) : (one :: merged).Pairwise ordered := by
  refine List.pairwise_cons.mpr ⟨?_, sorted⟩
  intro item membership
  have leads := follows.loses won
  rcases List.mem_append.mp (all.mem_iff.mp membership) with own | foreign
  · exact List.rel_of_pairwise_cons ready.firstSorted own
  · rcases List.mem_cons.mp foreign with rfl | later
    · exact leads
    · exact follows.trans leads (List.rel_of_pairwise_cons ready.secondSorted later)

omit follows in
/-- The head of the second run comes first if nothing of the first run has to precede it. -/
private theorem ordered_of_second {other : β} {rest : List β}
    (ready : manner.Ready ordered first (other :: rest))
    (leads : ∀ one ∈ first, ordered other one) (sorted : merged.Pairwise ordered)
    (all : merged.Perm (first ++ rest)) : (other :: merged).Pairwise ordered := by
  refine List.pairwise_cons.mpr ⟨?_, sorted⟩
  intro item membership
  rcases List.mem_append.mp (all.mem_iff.mp membership) with foreign | own
  · exact leads item foreign
  · exact List.rel_of_pairwise_cons ready.secondSorted own

private theorem leads_of_wins {one other : β} {others : List β}
    (sorted : (one :: others).Pairwise ordered) (won : manner.secondWins other one = true) :
    ∀ item ∈ one :: others, ordered other item := by
  intro item membership
  have leads := follows.wins won
  rcases List.mem_cons.mp membership with rfl | later
  · exact leads
  · exact follows.trans leads (List.rel_of_pairwise_cons sorted later)

/-- The wins of the first run over an item come before all that is left, and the item comes before
what is left of that run. -/
private theorem ordered_of_wins {other : β} {others : List β}
    (ready : manner.Ready ordered first (other :: others)) (sorted : merged.Pairwise ordered)
    (all : merged.Perm (first.drop (manner.firstWins first other) ++ other :: others)) :
    (first.take (manner.firstWins first other) ++ merged).Pairwise ordered := by
  have cuts := follows.cuts_firstWins ready.firstSorted other
  have halves := ready.firstSorted
  rw [← List.take_append_drop (manner.firstWins first other) first,
    List.pairwise_append] at halves
  refine List.pairwise_append.mpr ⟨halves.1, sorted, ?_⟩
  intro one taken item membership
  have leads : ordered one other := follows.loses (by simpa using cuts.taken one taken)
  rcases List.mem_append.mp (all.mem_iff.mp membership) with own | foreign
  · exact halves.2.2 one taken item own
  · rcases List.mem_cons.mp foreign with rfl | later
    · exact leads
    · exact follows.trans leads (List.rel_of_pairwise_cons ready.secondSorted later)

/-- The wins of the second run over the head of the first come before all that is left. -/
private theorem ordered_of_taken {one : β} {others : List β}
    (ready : manner.Ready ordered (one :: others) second) (sorted : merged.Pairwise ordered)
    (all : merged.Perm (one :: others ++ second.drop (manner.secondWinsOver second one))) :
    (second.take (manner.secondWinsOver second one) ++ merged).Pairwise ordered := by
  have cuts := follows.cuts_secondWinsOver ready.secondSorted one
  have halves := ready.secondSorted
  rw [← List.take_append_drop (manner.secondWinsOver second one) second,
    List.pairwise_append] at halves
  refine List.pairwise_append.mpr ⟨halves.1, sorted, ?_⟩
  intro other taken item membership
  rcases List.mem_append.mp (all.mem_iff.mp membership) with foreign | own
  · exact leads_of_wins follows ready.firstSorted (cuts.taken other taken) item foreign
  · exact halves.2.2 other taken item own

/-- The head of the first run comes before what it wins over. -/
private theorem ordered_of_left {one : β} {others : List β}
    (ready : manner.Ready ordered (one :: others) second) (sorted : merged.Pairwise ordered)
    (all : merged.Perm (others ++ second.drop (manner.secondWinsOver second one))) :
    (one :: merged).Pairwise ordered := by
  have cuts := follows.cuts_secondWinsOver ready.secondSorted one
  refine List.pairwise_cons.mpr ⟨?_, sorted⟩
  intro item membership
  rcases List.mem_append.mp (all.mem_iff.mp membership) with own | foreign
  · exact List.rel_of_pairwise_cons ready.firstSorted own
  · exact follows.loses (cuts.left item foreign)

/-- Each stage of a merge puts the two runs in order, with steps enough for all their items. -/
theorem stage_ordered (fuel : Nat) :
    (∀ firstRow secondRow patience first second,
      2 * (first.length + second.length) < fuel → manner.Ready ordered first second →
        (manner.contest fuel firstRow secondRow patience first second).items.Pairwise
          ordered) ∧
    (∀ patience first second,
      2 * (first.length + second.length) < fuel → manner.Ready ordered first second →
        (manner.search fuel patience first second).items.Pairwise ordered) ∧
    (∀ firstRow patience other first second,
      2 * (first.length + second.length) + 1 < fuel →
        manner.Ready ordered first (other :: second) → (∀ one ∈ first, ordered other one) →
          (manner.answer fuel firstRow patience other first second).items.Pairwise
            ordered) := by
  induction fuel with
  | zero => exact ⟨nofun, nofun, nofun⟩
  | succ fuel induction =>
      obtain ⟨contests, searches, answers⟩ := induction
      obtain ⟨contestPerm, searchPerm, answerPerm⟩ := manner.stage_perm fuel
      refine ⟨fun firstRow secondRow patience first second enough ready => ?contest,
        fun patience first second enough ready => ?search,
        fun firstRow patience other first second enough ready leads => ?answer⟩
      case contest =>
        unfold contest
        split
        next settled => exact ready.settled settled
        · exact ready.secondSorted
        · simpa using ready.firstSorted
        next one others other rest _ =>
          have firstLeft := ready.of_suffix (List.suffix_cons one others) (List.suffix_refl _)
          have secondLeft := ready.of_suffix (List.suffix_refl _) (List.suffix_cons other rest)
          simp only [List.length_cons] at enough
          have fewer : 2 * ((one :: others).length + rest.length) < fuel := by
            simp only [List.length_cons]
            omega
          have less : 2 * (others.length + (other :: rest).length) < fuel := by
            simp only [List.length_cons]
            omega
          split
          · rename_i won
            have leads := leads_of_wins follows ready.firstSorted won
            split
            · exact ordered_of_second ready leads (searches _ _ _ fewer secondLeft)
                (searchPerm ..)
            · exact ordered_of_second ready leads (contests _ _ _ _ _ fewer secondLeft)
                (contestPerm ..)
          · rename_i lost
            rw [Bool.not_eq_true] at lost
            split
            · exact ordered_of_first follows ready lost (searches _ _ _ less firstLeft)
                (searchPerm ..)
            · exact ordered_of_first follows ready lost (contests _ _ _ _ _ less firstLeft)
                (contestPerm ..)
      case search =>
        unfold search
        split
        next settled => exact ready.settled settled
        · exact ready.firstSorted
        next other others _ =>
          have cuts := follows.cuts_firstWins ready.firstSorted other
          refine ordered_of_wins follows ready (answers _ _ _ _ _ ?_ ?_ ?_) (answerPerm ..)
          · simp only [List.length_cons, List.length_drop] at enough ⊢
            omega
          · exact ready.of_suffix (List.drop_suffix ..) (List.suffix_refl _)
          · intro one left
            exact follows.wins (by simpa using cuts.left one left)
      case answer =>
        have rest := ready.of_suffix (List.suffix_refl _) (List.suffix_cons other second)
        unfold answer
        split
        next settled => exact ready.settled settled
        · split
          next settled =>
            exact ordered_of_second ready leads (rest.settled settled)
              (settled?_perm manner settled)
          · exact ready.secondSorted
          next one others _ _ =>
            -- However the rest is put in order, it comes after what the second run has won.
            have answered : ∀ {merged : List β}, merged.Pairwise ordered →
                merged.Perm (one :: others ++
                  second.drop (manner.secondWinsOver second one)) →
                (other :: (second.take (manner.secondWinsOver second one) ++ merged)).Pairwise
                  ordered := by
              intro merged sorted all
              apply ordered_of_second ready leads
                (ordered_of_taken follows rest sorted all)
              refine (perm_of_taken _ all).trans (.of_eq ?_)
              rw [List.take_append_drop]
            have whole := rest.of_suffix (List.suffix_refl _)
              (List.drop_suffix (manner.secondWinsOver second one) second)
            have left := rest.of_suffix (List.suffix_cons one others)
              (List.drop_suffix (manner.secondWinsOver second one) second)
            have fewer : 2 * (others.length +
                (second.drop (manner.secondWinsOver second one)).length) < fuel := by
              simp only [List.length_cons, List.length_drop] at enough ⊢
              omega
            dsimp only
            split
            next settled =>
              exact answered (whole.settled settled) (settled?_perm manner settled)
            next settled =>
              have all := settled?_perm manner settled
              exact answered (ordered_of_left follows rest (left.settled settled) all)
                (perm_of_first one all)
            · split
              · simp only [Merged.after, List.cons_append, List.append_assoc,
                  List.nil_append]
                exact answered (ordered_of_left follows rest
                  (searches _ _ _ fewer left) (searchPerm ..)) (perm_of_first one (searchPerm ..))
              · simp only [Merged.after, List.cons_append, List.append_assoc,
                  List.nil_append]
                exact answered (ordered_of_left follows rest
                  (contests _ _ _ _ _ fewer left) (contestPerm ..))
                  (perm_of_first one (contestPerm ..))

/-- A merge puts the two runs in order after items that precede all of them. -/
theorem contest_after {front : List β} {fuel : Nat}
    (enough : 2 * (first.length + second.length) < fuel)
    (ready : manner.Ready ordered first second) (sorted : front.Pairwise ordered)
    (leads : ∀ item ∈ front, ∀ other ∈ first ++ second, ordered item other)
    (patience : Nat) :
    ((manner.contest fuel 0 0 patience first second).after front).items.Pairwise ordered := by
  refine List.pairwise_append.mpr
    ⟨sorted, (stage_ordered follows fuel).1 0 0 patience first second enough ready, ?_⟩
  intro item membership other later
  exact leads item membership other (((manner.stage_perm fuel).1 ..).mem_iff.mp later)

end Stages

end Manner

section Merging

variable {before : β → β → Bool} (orders : Orders before)

include orders

theorem follows_upward :
    (upward before).Follows (fun first second => before second first = false) where
  trans := orders.trans
  wins := orders.asymm
  loses := id
  later := by
    intro one next other won order
    rw [← Bool.not_eq_false] at won ⊢
    exact fun lost => won (orders.trans order lost)
  earlier := by
    intro one other next won order
    rw [← Bool.not_eq_false] at won ⊢
    exact fun lost => won (orders.trans lost order)

theorem follows_downward :
    (downward before).Follows (fun first second => before first second = false) where
  trans one two := orders.trans two one
  wins won := by simpa [downward] using won
  loses lost := by
    apply orders.asymm
    simpa [downward] using lost
  later won order := by
    simp only [downward, Bool.not_eq_true'] at won ⊢
    exact orders.trans order won
  earlier won order := by
    simp only [downward, Bool.not_eq_true'] at won ⊢
    exact orders.trans won order

/-- Two runs are merged if the second one starts before all of the first, which ends after all of
the second. -/
theorem ascending_mergeInner {first second : List β} (ascending : Ascending before first)
    (secondAscending : Ascending before second)
    (starts : ∀ head ∈ second.head?, ∀ item ∈ first, before head item = true)
    (ends : ∀ last ∈ first.getLast?, ∀ item ∈ second, before item last = true)
    (patience : Nat) :
    Ascending before (mergeInner before patience first second).items := by
  unfold mergeInner
  dsimp only
  split
  · have halves := secondAscending
    rw [Ascending, ← List.take_append_drop 1 second, List.pairwise_append] at halves
    obtain ⟨taken, left, across⟩ := halves
    apply Manner.contest_after (follows_upward orders)
    · rw [List.length_drop]
      omega
    · refine ⟨ascending, left, ?_, ?_⟩
      · intro _ last found other membership
        exact orders.asymm (ends last found other (List.mem_of_mem_drop membership))
      · intro aside
        cases aside
    · exact taken
    · intro head membership item later
      rcases List.mem_append.mp later with foreign | own
      · rw [List.take_one, Option.mem_toList] at membership
        exact orders.asymm (starts head membership item foreign)
      · exact across head membership item own
  · -- From the back, everything is the other way round.
    have backwards := List.pairwise_reverse.mpr ascending
    have secondBackwards := List.pairwise_reverse.mpr secondAscending
    rw [← List.take_append_drop 1 first.reverse, List.pairwise_append] at backwards
    obtain ⟨taken, left, across⟩ := backwards
    apply List.pairwise_reverse.mpr
    apply Manner.contest_after (follows_downward orders)
    · rw [List.length_drop, List.length_reverse, List.length_reverse]
      omega
    · refine ⟨left, secondBackwards, ?_, ?_⟩
      · intro aside
        cases aside
      · intro _ head found item membership
        rw [List.getLast?_reverse] at found
        exact orders.asymm
          (starts head found item (List.mem_reverse.mp (List.mem_of_mem_drop membership)))
    · exact taken
    · intro last membership item later
      rcases List.mem_append.mp later with own | foreign
      · exact across last membership item own
      · rw [List.take_one, Option.mem_toList, List.head?_reverse] at membership
        exact orders.asymm (ends last membership item (List.mem_reverse.mp foreign))

/-- What is in place at the start of the first run does not follow the start of the second. -/
theorem cuts_settledStart {first second : List β} (ascending : Ascending before first) {head : β}
    (starts : head ∈ second.head?) :
    Cuts (fun item => !before head item) first (settledStart before first second) := by
  rw [Option.mem_def] at starts
  apply cuts_passing
  · apply ascending.imp
    intro one next order passed
    rw [Bool.not_eq_true'] at passed ⊢
    exact orders.trans order passed
  · intro position below
    simp [below, starts]

/-- What comes after the unsettled part of the second run does not precede the end of the first. -/
theorem cuts_unsettledEnd {first second : List β} (ascending : Ascending before second)
    {last : β} (ends : last ∈ first.getLast?) :
    Cuts (fun item => before item last) second (unsettledEnd before first second) := by
  rw [Option.mem_def] at ends
  have cuts : Cuts (fun item => !before item last) second.reverse
      (passing (fun position => !second.reverse[position]?.any fun item =>
        first.getLast?.any (before item)) false second.reverse.length) := by
    apply cuts_passing
    · apply (List.pairwise_reverse.mpr ascending).imp
      intro one next order passed
      rw [Bool.not_eq_true'] at passed ⊢
      exact orders.trans passed order
    · intro position below
      simp only [List.getElem?_eq_getElem below, ends, Option.any_some]
  rw [List.length_reverse] at cuts
  constructor
  · intro item membership
    have left := cuts.left item (by
      rw [List.drop_reverse, List.mem_reverse]
      exact membership)
    simpa using left
  · intro item membership
    have taken := cuts.taken item (by
      rw [List.take_reverse, List.mem_reverse]
      exact membership)
    simpa using taken

theorem before_head {items : List β} (ascending : Ascending before items) {head : β}
    (starts : head ∈ items.head?) : ∀ item ∈ items, before item head = false := by
  intro item membership
  cases items with
  | nil => cases starts
  | cons first rest =>
      cases starts
      rcases List.mem_cons.mp membership with rfl | later
      · exact orders.irrefl item
      · exact List.rel_of_pairwise_cons ascending later

theorem before_last {items : List β} (ascending : Ascending before items) {last : β}
    (ends : last ∈ items.getLast?) : ∀ item ∈ items, before last item = false := by
  intro item membership
  obtain ⟨earlier, rfl⟩ := List.getLast?_eq_some_iff.mp ends
  rcases List.mem_append.mp membership with earlier | alone
  · exact (List.pairwise_append.mp ascending).2.2 item earlier last
      (List.mem_singleton_self last)
  · cases List.mem_singleton.mp alone
    exact orders.irrefl last

/-- Nothing of the second run has to precede what is in place of the first. -/
theorem early_settledStart {first second : List β} (ascending : Ascending before first)
    (secondAscending : Ascending before second) :
    ∀ item ∈ first.take (settledStart before first second), ∀ other ∈ second,
      before other item = false := by
  intro item taken other membership
  cases starts : second.head? with
  | none =>
      rw [List.head?_eq_none_iff.mp starts] at membership
      cases membership
  | some head =>
      have settled := (cuts_settledStart orders ascending starts).taken item taken
      exact orders.trans (by simpa using settled)
        (before_head orders secondAscending starts other membership)

/-- What is in place of the second run has to precede nothing of the first. -/
theorem late_unsettledEnd {first second : List β} (ascending : Ascending before first)
    (secondAscending : Ascending before second) :
    ∀ item ∈ first, ∀ other ∈ second.drop (unsettledEnd before first second),
      before other item = false := by
  intro item membership other left
  cases ends : first.getLast? with
  | none =>
      rw [List.getLast?_eq_none_iff.mp ends] at membership
      cases membership
  | some last =>
      exact orders.trans (before_last orders ascending ends item membership)
        ((cuts_unsettledEnd orders secondAscending ends).left other left)

omit orders in
/-- Two runs are in order if what lies between the parts that are in place is. -/
private theorem ascending_framed {first second middle : List β} {start finish : Nat}
    (ascending : Ascending before first) (secondAscending : Ascending before second)
    (early : ∀ item ∈ first.take start, ∀ other ∈ second, before other item = false)
    (late : ∀ item ∈ first.drop start, ∀ other ∈ second.drop finish,
      before other item = false)
    (sorted : Ascending before middle)
    (all : middle.Perm (first.drop start ++ second.take finish)) :
    Ascending before (first.take start ++ (middle ++ second.drop finish)) := by
  rw [Ascending, ← List.take_append_drop start first, List.pairwise_append] at ascending
  rw [Ascending, ← List.take_append_drop finish second,
    List.pairwise_append] at secondAscending
  obtain ⟨starts, _, startAcross⟩ := ascending
  obtain ⟨_, ends, endAcross⟩ := secondAscending
  refine List.pairwise_append.mpr ⟨starts, List.pairwise_append.mpr ⟨sorted, ends, ?_⟩, ?_⟩
  · intro item membership other left
    rcases List.mem_append.mp (all.mem_iff.mp membership) with moved | unsettled
    · exact late item moved other left
    · exact endAcross item unsettled other left
  · intro item taken other membership
    rcases List.mem_append.mp membership with inside | left
    · rcases List.mem_append.mp (all.mem_iff.mp inside) with moved | unsettled
      · exact startAcross item taken other moved
      · exact early item taken other (List.mem_of_mem_take unsettled)
    · exact early item taken other (List.mem_of_mem_drop left)

/-- Merging puts two runs in order. -/
theorem ascending_merge {first second : List β} (ascending : Ascending before first)
    (secondAscending : Ascending before second) (patience : Nat) :
    Ascending before (merge before patience first second).items := by
  have early := early_settledStart orders ascending secondAscending
  have startCuts := fun head (starts : head ∈ second.head?) =>
    cuts_settledStart orders ascending starts
  unfold merge
  dsimp only
  generalize settledStart before first second = start at early startCuts ⊢
  have moved : Ascending before (first.drop start) := ascending.drop
  have late := late_unsettledEnd orders moved secondAscending
  have endCuts := fun last (ends : last ∈ (first.drop start).getLast?) =>
    cuts_unsettledEnd orders secondAscending ends
  generalize unsettledEnd before (first.drop start) second = finish at late endCuts ⊢
  have unsettled : Ascending before (second.take finish) := secondAscending.take
  split
  · rename_i nothing
    have middle : Ascending before (first.drop start ++ second.take finish) := by
      rw [Bool.or_eq_true, List.isEmpty_iff, List.isEmpty_iff] at nothing
      rcases nothing with none | none
      · rw [none]
        exact unsettled
      · rw [none, List.append_nil]
        exact moved
    have framed := ascending_framed ascending secondAscending early late middle (.refl _)
    rwa [List.append_assoc, List.take_append_drop, ← List.append_assoc,
      List.take_append_drop] at framed
  · refine ascending_framed ascending secondAscending early late
      (ascending_mergeInner orders moved unsettled ?_ ?_ patience) (mergeInner_perm ..)
    · intro head found item membership
      have starts : head ∈ second.head? := by
        rw [List.head?_take] at found
        split at found
        · cases found
        · exact found
      simpa using (startCuts head starts).left item membership
    · intro last ends item membership
      exact (endCuts last ends).taken item membership

end Merging

end LinearProgram.Sorting
