import LinearProgram.Proofs.Names
import Mathlib.Order.Bounds.Basic

/-!
# The search for a free name

The search tries one candidate after the other: first the name itself, then the
name continued by 1, by 2 and so on.  It has no bound of its own.  It ends
because the candidates that it rejects are distinct names of the registry.
`NameRegistry.unique`, which counts its attempts, gives what this search finds.
-/

namespace LinearProgram.NameRegistry

/-- `Search names base candidate number rejected result`: from a candidate on,
with `number` as the next one to continue the name by, the search rejects
`rejected` in this order and stops at `result`. -/
inductive Search (names : NameRegistry) (base : String) :
    String → Nat → List String → String → Prop where
  | stop {candidate : String} {number : Nat} :
      names.contains candidate = false →
      Search names base candidate number [] candidate
  | reject {candidate result : String} {number : Nat}
      {rejected : List String} :
      names.contains candidate = true →
      Search names base (numbered base number) (number + 1) rejected result →
      Search names base candidate number (candidate :: rejected) result

namespace Search

variable {names : NameRegistry} {base candidate result other : String}
  {number : Nat} {rejected others : List String}

theorem rejected_taken
    (search : Search names base candidate number rejected result) :
    ∀ name ∈ rejected, names.contains name = true := by
  induction search with
  | stop => exact fun _ listed => absurd listed List.not_mem_nil
  | reject taken _ induction =>
      intro name listed
      rcases List.mem_cons.mp listed with rfl | later
      · exact taken
      · exact induction name later

/-- The search ends in one way only. -/
theorem determined
    (search : Search names base candidate number rejected result)
    (another : Search names base candidate number others other) :
    others = rejected ∧ other = result := by
  induction search generalizing others other with
  | stop free =>
      cases another with
      | stop => exact ⟨rfl, rfl⟩
      | reject taken => exact absurd taken (by simp [free])
  | reject taken _ induction =>
      cases another with
      | stop free => exact absurd taken (by simp [free])
      | reject _ rest =>
          obtain ⟨sameRejected, sameResult⟩ := induction rest
          exact ⟨by rw [sameRejected], sameResult⟩

/-- What was rejected is the candidate, followed by the continuations in the
order of their numbers. -/
theorem rejected_prefix
    (search : Search names base candidate number rejected result) :
    rejected <+:
      candidate :: (List.range' number rejected.length).map (numbered base) := by
  induction search with
  | stop => exact List.nil_prefix
  | @reject candidate result number rejected _ _ induction =>
      rw [List.prefix_cons_inj]
      simpa only [List.length_cons, List.range'_succ, List.map_cons]
        using induction

/-- The search rejects at most as many candidates as there are names. -/
theorem length_le (search : Search names base base 1 rejected result) :
    rejected.length ≤ names.size :=
  length_le_size
    ((nodup_candidates base rejected.length).sublist
      search.rejected_prefix.sublist)
    search.rejected_taken

/-- The search reaches the first free number. -/
theorem exists_of_least {least : Nat} (start : number ≤ least)
    (taken : ∀ other, number ≤ other → other < least →
      names.contains (numbered base other) = true)
    (free : names.contains (numbered base least) = false) :
    ∃ rejected, Search names base (numbered base number) (number + 1) rejected
      (numbered base least) := by
  obtain ⟨distance, rfl⟩ := Nat.exists_eq_add_of_le start
  induction distance generalizing number with
  | zero => exact ⟨[], .stop free⟩
  | succ distance induction =>
      have shifted : number + 1 + distance = number + (distance + 1) := by
        omega
      obtain ⟨rejected, rest⟩ := @induction (number + 1) (by omega)
        (fun other later earlier => taken other (by omega) (by omega))
        (by rw [shifted]; exact free)
      rw [shifted] at rest
      exact ⟨_, .reject (taken number (Nat.le_refl _) (by omega)) rest⟩

end Search

/-- The search always ends, and it ends at the unique name. -/
theorem exists_search (names : NameRegistry) (name fallback : String) :
    let base := if name = "" then fallback else name
    ∃ rejected, Search names base base 1 rejected
      (names.unique name fallback) := by
  intro base
  rcases names.unique_cases name fallback with
    ⟨free, same⟩ | ⟨number, positive, _, same, taken, free, earlier⟩
  · rw [same]
    exact ⟨[], .stop free⟩
  · rw [same]
    obtain ⟨rejected, rest⟩ := Search.exists_of_least positive earlier free
    exact ⟨base :: rejected, .reject taken rest⟩

/-- The search ends, after as many rejected candidates as there are names at
most, and gives the name itself if it is free and else its continuation by the
least number that makes it free. -/
theorem unique_least (names : NameRegistry) (name fallback : String)
    (given : fallback ≠ "") :
    let base := if name = "" then fallback else name
    let result := names.unique name fallback
    (∃ rejected, Search names base base 1 rejected result) ∧
    (∀ rejected found, Search names base base 1 rejected found →
      found = result ∧ rejected.length ≤ names.size) ∧
    (names.contains base = false → result = base) ∧
    (names.contains base = true → ∃ number,
      IsLeast {number |
        1 ≤ number ∧ names.contains (numbered base number) = false} number ∧
      result = numbered base number) ∧
    result ≠ "" ∧ names.contains result = false := by
  intro base result
  obtain ⟨rejected, search⟩ := exists_search names name fallback
  refine ⟨⟨rejected, search⟩, ?_, ?_, ?_,
    unique_ne_empty names name given, contains_unique names name fallback⟩
  · intro others found another
    exact ⟨(search.determined another).2, another.length_le⟩
  · intro free
    exact if_neg (by simpa using free)
  · intro taken
    rcases names.unique_cases name fallback with
      ⟨free, _⟩ | ⟨number, positive, _, same, _, free, earlier⟩
    · exact absurd taken (by simpa using free)
    · refine ⟨number, ⟨⟨positive, free⟩, ?_⟩, same⟩
      rintro other ⟨otherPositive, otherFree⟩
      by_contra below
      have otherTaken := earlier other otherPositive (by omega)
      exact Bool.false_ne_true (otherFree.symm.trans otherTaken)

private def crowded : NameRegistry :=
  ((OrderedMap.empty.insert "x" 0).insert "x_2" 1).insert "x_1" 2

/-- The names `x`, `x_1` and `x_2` are taken, so three candidates are
rejected. -/
theorem unique_least_crowded :
    "var(3)" ≠ "" ∧
    (∃ rejected, Search crowded "x" "x" 1 rejected "x_3" ∧
      rejected.length ≤ 3) ∧
    crowded.contains "x_3" = false := by
  have given : "var(3)" ≠ "" := by decide
  obtain ⟨⟨rejected, search⟩, every, _, _, _, free⟩ :=
    unique_least crowded "x" "var(3)" given
  have bound := (every rejected _ search).2
  have result : crowded.unique "x" "var(3)" = "x_3" := by decide
  rw [result] at search free
  exact ⟨given, ⟨rejected, search, bound⟩, free⟩

end LinearProgram.NameRegistry
