import LinearProgram.Text.Layout
import Mathlib.Data.List.Basic

/-!
# Lines of a wrapped text

A wrapped text is a sequence of items that is divided into lines.  A line is
closed by a break as soon as it has grown past the width, and not before, which
determines all lines.  The invariant of the writing is that the units which are
counted are those of the line that is still open.
-/

namespace LinearProgram.Text

theorem units_append (first second : String) :
    units (first ++ second) = units first + units second := by
  rw [units, String.toList_append, List.flatMap_append, List.length_append]
  rfl

theorem units_join_append (items more : List String) :
    units (String.join (items ++ more)) =
      units (String.join items) + units (String.join more) := by
  rw [String.join_append, units_append]

/-- A sequence of items in lines: those that a break closes, and the last one. -/
structure Lines where
  closed : List (List String)
  last : List String

namespace Lines

def items (lines : Lines) : List String := lines.closed.flatten ++ lines.last

/-- The text of the items, with a mark after every line that is closed. -/
def text (mark : String) (lines : Lines) : String :=
  String.join (lines.closed.map (fun line => String.join line ++ mark)) ++
    String.join lines.last

/-- Lines are broken only when they must be: without its last item, no line is
wider than the width.  They are broken whenever they must be: with it, those
that are closed are wider, and the one that is left open is not. -/
structure Greedy (width : Nat) (lines : Lines) : Prop where
  within : ∀ line ∈ lines.closed, units (String.join line.dropLast) ≤ width
  beyond : ∀ line ∈ lines.closed, width < units (String.join line)
  last : units (String.join lines.last) ≤ width

variable {width : Nat} {lines other : Lines}

/-- Without the breaks, there are just the items. -/
theorem text_unmarked (lines : Lines) :
    lines.text "" = String.join lines.items := by
  obtain ⟨closed, last⟩ := lines
  rw [text, items, String.join_append]
  congr 1
  induction closed with
  | nil => rfl
  | cons line rest induction =>
      rw [List.map_cons, List.flatten_cons, String.join_cons,
        String.join_append, induction, String.append_empty]

theorem text_close (mark : String) (line : List String) (lines : Lines) :
    text mark ⟨line :: lines.closed, lines.last⟩ =
      String.join line ++ mark ++ lines.text mark := by
  rw [text, text, List.map_cons, String.join_cons, String.append_assoc]

/-- A line before the others is closed if it is wider than the width by its last
item. -/
theorem Greedy.close (greedy : lines.Greedy width) {opened : List String}
    {item : String} (within : units (String.join opened) ≤ width)
    (beyond : width < units (String.join (opened ++ [item]))) :
    Greedy width ⟨(opened ++ [item]) :: lines.closed, lines.last⟩ where
  within := by
    rw [List.forall_mem_cons, List.dropLast_concat]
    exact ⟨within, greedy.within⟩
  beyond := by
    rw [List.forall_mem_cons]
    exact ⟨beyond, greedy.beyond⟩
  last := greedy.last

/-- Even the last line is not wider than the width without its last item. -/
theorem Greedy.within_all (greedy : lines.Greedy width) :
    ∀ line ∈ lines.closed ++ [lines.last],
      units (String.join line.dropLast) ≤ width := by
  intro line listed
  rcases List.mem_append.mp listed with closed | last
  · exact greedy.within line closed
  · rw [List.mem_singleton.mp last]
    obtain ⟨dropped, whole⟩ := List.dropLast_prefix lines.last
    have wider := units_join_append lines.last.dropLast dropped
    rw [whole] at wider
    exact Nat.le_trans (by omega) greedy.last

/-- A line that is too wide already does not go on. -/
private theorem eq_nil_of_within {line more : List String}
    (beyond : width < units (String.join line))
    (within : units (String.join (line ++ more).dropLast) ≤ width) :
    more = [] := by
  by_contra nonempty
  rw [List.dropLast_append_of_ne_nil nonempty, units_join_append] at within
  omega

/-- Two first lines of one sequence are the same. -/
private theorem first_eq {line another rest others : List String}
    (same : another ++ others = line ++ rest)
    (beyond : width < units (String.join line))
    (within : units (String.join line.dropLast) ≤ width)
    (otherBeyond : width < units (String.join another))
    (otherWithin : units (String.join another.dropLast) ≤ width) :
    another = line := by
  rcases List.append_eq_append_iff.mp same with
    ⟨more, rfl, _⟩ | ⟨more, rfl, _⟩
  · rw [eq_nil_of_within otherBeyond within, List.append_nil]
  · rw [eq_nil_of_within beyond otherWithin, List.append_nil]

/-- A line that stays open has no line in it that must be closed. -/
private theorem open_ne {line rest opened : List String}
    (last : units (String.join opened) ≤ width)
    (beyond : width < units (String.join line)) : opened ≠ line ++ rest := by
  rintro rfl
  rw [units_join_append] at last
  omega

/-- There is one greedy way to divide items into lines. -/
theorem Greedy.unique (greedy : lines.Greedy width)
    (another : other.Greedy width) (same : other.items = lines.items) :
    other = lines := by
  obtain ⟨closed, last⟩ := lines
  obtain ⟨otherClosed, otherLast⟩ := other
  induction closed generalizing otherClosed with
  | nil =>
      cases otherClosed with
      | nil => exact congrArg (Lines.mk []) same
      | cons line rest =>
          simp only [items, List.flatten_nil, List.flatten_cons,
            List.nil_append, List.append_assoc] at same
          exact absurd same.symm
            (open_ne greedy.last (another.beyond line List.mem_cons_self))
  | cons line rest induction =>
      cases otherClosed with
      | nil =>
          simp only [items, List.flatten_nil, List.flatten_cons,
            List.nil_append, List.append_assoc] at same
          exact absurd same
            (open_ne another.last (greedy.beyond line List.mem_cons_self))
      | cons otherLine others =>
          simp only [items, List.flatten_cons, List.append_assoc] at same
          obtain ⟨within, withinRest⟩ := List.forall_mem_cons.mp greedy.within
          obtain ⟨beyond, beyondRest⟩ := List.forall_mem_cons.mp greedy.beyond
          obtain ⟨otherWithin, withinOthers⟩ :=
            List.forall_mem_cons.mp another.within
          obtain ⟨otherBeyond, beyondOthers⟩ :=
            List.forall_mem_cons.mp another.beyond
          have first := first_eq same beyond within otherBeyond otherWithin
          subst first
          have later := induction ⟨withinRest, beyondRest, greedy.last⟩ others
            ⟨withinOthers, beyondOthers, another.last⟩
            (List.append_cancel_left same)
          cases later
          rfl

end Lines

/-- From an open line on, items are written in greedy lines. -/
theorem exists_lines_from {width : Nat} (items : List String)
    {opened : List String} (within : units (String.join opened) ≤ width) :
    ∃ lines : Lines, lines.items = opened ++ items ∧ lines.Greedy width ∧
      lines.text lineBreak = String.join opened ++
        String.join (wrapFrom width (units (String.join opened)) items) := by
  induction items generalizing opened with
  | nil =>
      refine ⟨⟨[], opened⟩, (List.append_nil opened).symm, ⟨nofun, nofun, within⟩, ?_⟩
      simp [Lines.text, wrapFrom]
  | cons item rest induction =>
      have joined : String.join (opened ++ [item]) =
          String.join opened ++ item := by
        simp
      have grown : units (String.join (opened ++ [item])) =
          units (String.join opened) + units item := by
        rw [joined, units_append]
      rw [wrapFrom, ← grown]
      by_cases beyond : width < units (String.join (opened ++ [item]))
      · -- The line is closed, and the next one is open with nothing in it.
        obtain ⟨lines, same, greedy, written⟩ :=
          @induction [] (Nat.zero_le _)
        refine ⟨⟨(opened ++ [item]) :: lines.closed, lines.last⟩, ?_,
          greedy.close within beyond, ?_⟩
        · have rest_items : lines.closed.flatten ++ lines.last = rest := same
          simp [Lines.items, rest_items]
        · rw [Lines.text_close, written, if_pos beyond, joined]
          simp [String.append_assoc, units]
      · obtain ⟨lines, same, greedy, written⟩ := induction (Nat.not_lt.mp beyond)
        refine ⟨lines, by simp [same], greedy, ?_⟩
        rw [written, if_neg beyond, joined, String.join_cons,
          String.append_assoc]

/-- Wrapping puts breaks into a sequence of items, and does it greedily. -/
theorem exists_lines (width : Nat) (items : List String) :
    ∃ lines : Lines, lines.items = items ∧ lines.Greedy width ∧
      lines.text lineBreak = wrap width items := by
  obtain ⟨lines, same, greedy, written⟩ :=
    @exists_lines_from width items [] (Nat.zero_le _)
  refine ⟨lines, same, greedy, ?_⟩
  rw [written]
  exact String.empty_append

end LinearProgram.Text
