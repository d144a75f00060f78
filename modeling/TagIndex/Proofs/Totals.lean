import TagIndex.Command.Output
import TagIndex.Proofs.Bars
import TagIndex.Proofs.Codes

/-!
# Printed totals

What an import did is printed line by line, each total behind its label. The totals can be read off again: no other
number stands behind a label.
-/

namespace TagIndex

namespace Text

variable {a b : String} {m n : Nat}

/-! ## Lines -/

/-- The lines of a text of which each is ended. -/
def linesOf (s : String) : List String := (lines s.toList).dropLast.map String.ofList

theorem linesOf_join {ls : List String} (h : ∀ l ∈ ls, '\n' ∉ l.toList) :
    linesOf (String.join (ls.map (· ++ "\n"))) = ls := by
  have htext : (String.join (ls.map (· ++ "\n"))).toList = ((ls.map String.toList).map (· ++ ['\n'])).flatten := by
    rw [String.toList_join, List.flatMap_map, List.map_map, ← List.flatMap_def]
    exact List.flatMap_congr fun l _ => String.toList_append
  rw [linesOf, htext, lines_ended (List.forall_mem_map.mpr h), List.dropLast_concat, map_ofList_toList]

theorem not_mem_labelled (h : '\n' ∉ a.toList) (n : Nat) : '\n' ∉ (a ++ toString n).toList := by
  rw [String.toList_append, List.mem_append]
  exact not_or.mpr ⟨h, not_mem_natural (by decide)⟩

/-- Labels of one length tell numbers apart, and one another. -/
theorem labelled_eq_iff (h : a.toList.length = b.toList.length) :
    a ++ toString m = b ++ toString n ↔ a = b ∧ m = n := by
  constructor
  · intro heq
    rw [← String.toList_inj, String.toList_append, String.toList_append] at heq
    obtain ⟨hlabel, hnumber⟩ := List.append_inj heq h
    exact ⟨String.toList_inj.mp hlabel, Nat.repr_injective (String.toList_inj.mp hnumber)⟩
  · rintro ⟨rfl, rfl⟩
    rfl

end Text

namespace Output

open Text

variable {inputs macros n : Nat} {total : StoreStats} {label : String}

/-- What a text tells of an import: of how many tag files it was, and its totals. Of replaced and of skipped tags it
tells only if there were any. -/
structure TellsTotals (out : String) (inputs : Nat) (total : StoreStats) : Prop where
  inputs : ∀ n, "✓ Imported " ++ toString n ++ " tag file(s)" ∈ linesOf out ↔ n = inputs
  files : ∀ n, "  Source files:  " ++ toString n ∈ linesOf out ↔ n = total.filesReplaced
  stored : ∀ n, "  Tags stored:   " ++ toString n ∈ linesOf out ↔ n = total.tagsInserted
  replaced : ∀ n, "  Tags replaced: " ++ toString n ∈ linesOf out ↔ n = total.tagsRemoved ∧ n ≠ 0
  skipped : ∀ n, "  Tags skipped:  " ++ toString n ∈ linesOf out ↔ n = total.tagsSkipped ∧ n ≠ 0

/-- The counts that are printed, with their labels. -/
def counts (total : StoreStats) (macros : Nat) : List (String × Nat) :=
  [("  Source files:  ", total.filesReplaced), ("  Tags stored:   ", total.tagsInserted)] ++
    [("  Tags replaced: ", total.tagsRemoved), ("  Tags skipped:  ", total.tagsSkipped),
      ("  Macros:        ", macros)].filter (·.2 ≠ 0)

theorem label_of_mem_counts {c : String × Nat} (h : c ∈ counts total macros) :
    c.1.toList.length = 17 ∧ c.1.toList.head? = some ' ' ∧ '\n' ∉ c.1.toList := by
  have hlabels : ∀ label ∈ ["  Source files:  ", "  Tags stored:   ", "  Tags replaced: ", "  Tags skipped:  ",
      "  Macros:        "], label.toList.length = 17 ∧ label.toList.head? = some ' ' ∧ '\n' ∉ label.toList := by decide
  refine hlabels c.1 ?_
  simp only [counts, List.mem_append, List.mem_filter, List.mem_cons, List.not_mem_nil] at h
  rcases h with (rfl | rfl | h) | ⟨rfl | rfl | rfl | h, _⟩ <;> simp at *

theorem ne_imported (h : label.toList.head? = some ' ') (x y : String) :
    label ++ x ≠ "✓ Imported " ++ y ++ " tag file(s)" := by
  intro heq
  have hheads := congrArg (·.toList.head?) heq
  simp only [String.toList_append, List.append_assoc, List.head?_append, h, Option.some_or,
    show "✓ Imported ".toList.head? = some '✓' by rfl] at hheads
  exact absurd (Option.some.inj hheads) (by decide)

theorem linesOf_summary : linesOf (summary inputs total macros) =
    ("✓ Imported " ++ toString inputs ++ " tag file(s)") ::
      (counts total macros).map fun c => c.1 ++ toString c.2 := by
  have hlines : summary inputs total macros = String.join ((("✓ Imported " ++ toString inputs ++ " tag file(s)") ::
      (counts total macros).map fun c => c.1 ++ toString c.2).map (· ++ "\n")) := by
    unfold summary counts
    by_cases hr : total.tagsRemoved = 0 <;> by_cases hs : total.tagsSkipped = 0 <;> by_cases hm : macros = 0 <;>
      simp [hr, hs, hm]
  rw [hlines]
  refine linesOf_join (List.forall_mem_cons.mpr ⟨?_, List.forall_mem_map.mpr fun c hc => ?_⟩)
  · rw [String.toList_append, List.mem_append]
    exact not_or.mpr ⟨not_mem_labelled (by decide) inputs, by decide⟩
  · exact not_mem_labelled (label_of_mem_counts hc).2.2 c.2

/-- Behind a label like these stands what is counted. -/
theorem mem_linesOf_summary (h : label.toList.length = 17) (hhead : label.toList.head? = some ' ') :
    label ++ toString n ∈ linesOf (summary inputs total macros) ↔ (label, n) ∈ counts total macros := by
  rw [linesOf_summary, List.mem_cons, List.mem_map]
  constructor
  · rintro (heq | ⟨c, hc, heq⟩)
    · exact absurd heq (ne_imported hhead _ _)
    · obtain ⟨rfl, rfl⟩ := (labelled_eq_iff ((label_of_mem_counts hc).1.trans h.symm)).mp heq
      exact hc
  · exact fun hc => .inr ⟨_, hc, rfl⟩

theorem tellsTotals_summary (inputs : Nat) (total : StoreStats) (macros : Nat) :
    TellsTotals (summary inputs total macros) inputs total where
  inputs n := by
    rw [linesOf_summary, List.mem_cons, List.mem_map]
    constructor
    · rintro (heq | ⟨c, hc, heq⟩)
      · rw [← String.toList_inj] at heq
        simp only [String.toList_append] at heq
        have hnumber := List.append_cancel_left (List.append_cancel_right heq)
        exact Nat.repr_injective (String.toList_inj.mp hnumber)
      · exact absurd heq (ne_imported (label_of_mem_counts hc).2.1 _ _)
    · rintro rfl
      exact .inl rfl
  files n := by
    rw [mem_linesOf_summary (by decide) (by decide)]
    simp [counts]
  stored n := by
    rw [mem_linesOf_summary (by decide) (by decide)]
    simp [counts]
  replaced n := by
    rw [mem_linesOf_summary (by decide) (by decide)]
    simp [counts]
  skipped n := by
    rw [mem_linesOf_summary (by decide) (by decide)]
    simp [counts]

end Output
end TagIndex
