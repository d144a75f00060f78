import Mathlib.Data.List.Chain
import Mathlib.Data.List.DropRight
import Mathlib.Data.List.Flatten
import Mathlib.Data.List.Infix
import TagIndex.Proofs.Items
import TagIndex.Text.Width

/-!
# Lines and bars

How the cells of a table are read from a text: lines are cut at line breaks, and a line is cut at its bars, but for
those right behind a backslash. Spaces at the ends of a cell only fill it up.
-/

namespace TagIndex

namespace Text

variable {c before : Char} {cs p w : List Char} {ps : List (List Char)}

/-! ## Lines -/

theorem intercalate_concat_nil (ls : List (List Char)) (sep : List Char) :
    sep.intercalate (ls ++ [[]]) = (ls.map (· ++ sep)).flatten := by
  induction ls with
  | nil => simp
  | cons l ls ih =>
      obtain ⟨v, vs, hv⟩ := List.exists_cons_of_ne_nil (List.append_ne_nil_of_right_ne_nil ls (List.cons_ne_nil [] []))
      rw [List.cons_append, hv, List.intercalate_cons_cons, ← hv, ih]
      simp

/-- The lines of a text in which each line is ended; behind the last one stands an empty text. -/
theorem lines_ended {ls : List (List Char)} (h : ∀ l ∈ ls, '\n' ∉ l) :
    lines (ls.map (· ++ ['\n'])).flatten = ls ++ [[]] := by
  rw [← intercalate_concat_nil, lines, splitBy_intercalate _ (by simp)]
  intro l hl
  rcases List.mem_append.mp hl with hl | hl
  · exact h l hl
  · simp [List.mem_singleton.mp hl]

/-! ## Bars -/

/-- A bar comes right behind a backslash only. -/
def Escaped (a b : Char) : Prop := b = '|' → a = '\\'

instance : DecidableRel Escaped := fun _ _ => inferInstanceAs (Decidable (_ → _))

/-- The pieces of a text between the bars that are not escaped, behind a character. -/
def barPieces (before : Char) : List Char → List (List Char)
  | [] => [[]]
  | c :: cs =>
    if c = '|' ∧ before ≠ '\\' then [] :: barPieces c cs
    else (barPieces c cs).modifyHead (c :: ·)

/-- A text without the spaces at its ends. -/
def unpadded (cs : List Char) : List Char := (cs.dropWhile (· == ' ')).rdropWhile (· == ' ')

/-- The cells of a line; a bar stands before the first one and behind the last one. -/
def barCells (line : List Char) : List (List Char) := (barPieces ' ' line).tail.dropLast.map unpadded

/-- A text with bars for the escaped ones. -/
def bareBars : List Char → List Char
  | '\\' :: '|' :: cs => '|' :: bareBars cs
  | c :: cs => c :: bareBars cs
  | [] => []

theorem barPieces_ne_nil (before : Char) (cs : List Char) : barPieces before cs ≠ [] := by
  induction cs generalizing before with
  | nil => exact List.cons_ne_nil _ _
  | cons c cs ih =>
      rw [barPieces]
      split
      · exact List.cons_ne_nil _ _
      · simpa using ih c

/-- The pieces have all characters of the text but bars. -/
theorem count_barPieces (hc : c ≠ '|') (before : Char) (cs : List Char) :
    (barPieces before cs).flatten.count c = cs.count c := by
  induction cs generalizing before with
  | nil => rfl
  | cons d cs ih =>
      rw [barPieces]
      split
      · rename_i hd
        rw [List.flatten_cons, List.nil_append, ih, hd.1, List.count_cons_of_ne hc.symm]
      · obtain ⟨v, vs, hv⟩ := List.exists_cons_of_ne_nil (barPieces_ne_nil d cs)
        rw [List.count_cons, ← ih d, hv, List.modifyHead_cons, List.flatten_cons, List.cons_append, List.count_cons]
        rfl

theorem isChain_pieces (before : Char) (cs : List Char) : ∃ w ws, barPieces before cs = w :: ws ∧
    (before :: w).IsChain Escaped ∧ ∀ v ∈ ws, ('|' :: v).IsChain Escaped := by
  induction cs generalizing before with
  | nil => exact ⟨[], [], rfl, .singleton _, nofun⟩
  | cons c cs ih =>
      obtain ⟨w, ws, hw, hhead, htail⟩ := ih c
      rw [barPieces, hw]
      split
      · rename_i hbar
        exact ⟨[], w :: ws, rfl, .singleton _, List.forall_mem_cons.mpr ⟨hbar.1 ▸ hhead, htail⟩⟩
      · rename_i hbar
        refine ⟨c :: w, ws, rfl, List.isChain_cons_cons.mpr ⟨fun hc => ?_, hhead⟩, htail⟩
        by_contra hb
        exact hbar ⟨hc, hb⟩

theorem isChain_behind {a b : Char} (ha : a ≠ '\\') (h : (a :: cs).IsChain Escaped) : (b :: cs).IsChain Escaped := by
  cases cs with
  | nil => exact .singleton _
  | cons c cs =>
      obtain ⟨hc, hcs⟩ := List.isChain_cons_cons.mp h
      exact List.isChain_cons_cons.mpr ⟨fun hbar => absurd (hc hbar) ha, hcs⟩

/-- Every bar in a piece is escaped. -/
theorem isChain_of_mem_barPieces (hb : before ≠ '\\') (hw : w ∈ barPieces before cs) : (' ' :: w).IsChain Escaped := by
  obtain ⟨v, vs, hv, hhead, htail⟩ := isChain_pieces before cs
  rw [hv] at hw
  rcases List.mem_cons.mp hw with rfl | hw
  · exact isChain_behind hb hhead
  · exact isChain_behind (by decide) (htail w hw)

/-- A piece is cut off at a bar behind it, if its own bars are escaped and it does not escape that one. -/
theorem barPieces_append (h : (before :: w).IsChain Escaped) (hend : (before :: w).getLast? ≠ some '\\')
    (cs : List Char) : barPieces before (w ++ '|' :: cs) = w :: barPieces '|' cs := by
  induction w generalizing before with
  | nil =>
      have hb : before ≠ '\\' := fun he => hend (congrArg some he)
      rw [List.nil_append, barPieces, if_pos ⟨rfl, hb⟩]
  | cons c w ih =>
      obtain ⟨hc, hw⟩ := List.isChain_cons_cons.mp h
      rw [List.cons_append, barPieces, if_neg fun hbar => hbar.2 (hc hbar.1), ih hw hend]
      rfl

/-- Pieces that end with spaces are read back from the text in which a bar stands behind each of them. -/
theorem barPieces_closed (hps : ∀ p ∈ ps, (' ' :: p).IsChain Escaped ∧ p.getLast? = some ' ') (hb : before ≠ '\\') :
    barPieces before (ps.map (· ++ ['|'])).flatten = ps ++ [[]] := by
  induction ps generalizing before with
  | nil => rfl
  | cons p ps ih =>
      obtain ⟨⟨hchain, hlast⟩, hps⟩ := List.forall_mem_cons.mp hps
      have hend : (before :: p).getLast? ≠ some '\\' := by
        rw [List.getLast?_cons, hlast, Option.getD_some]
        decide
      rw [List.map_cons, List.flatten_cons, List.append_assoc, List.singleton_append,
        barPieces_append (isChain_behind (by decide) hchain) hend, ih hps (by decide), List.cons_append]

/-! ## Cells -/

theorem isChain_dropWhile (h : (' ' :: cs).IsChain Escaped) :
    (' ' :: cs.dropWhile (· == ' ')).IsChain Escaped := by
  induction cs with
  | nil => exact h
  | cons c cs ih =>
      rw [List.dropWhile_cons]
      split
      · rename_i hc
        exact ih (beq_iff_eq.mp hc ▸ (List.isChain_cons_cons.mp h).2)
      · exact h

/-- What is left of a text after the spaces at its start begins with the text without those at its end. -/
theorem exists_unpadded_append (cs : List Char) : ∃ spaces, cs.dropWhile (· == ' ') = unpadded cs ++ spaces :=
  ⟨_, List.rdropWhile_append_rtakeWhile.symm⟩

theorem unpadded_sublist (cs : List Char) : (unpadded cs).Sublist cs := by
  obtain ⟨spaces, hsplit⟩ := exists_unpadded_append cs
  have hdropped : (cs.dropWhile (· == ' ')).Sublist cs := (List.dropWhile_suffix _).sublist
  rw [hsplit] at hdropped
  exact (List.sublist_append_left _ _).trans hdropped

theorem isChain_unpadded (h : (' ' :: cs).IsChain Escaped) : (' ' :: unpadded cs).IsChain Escaped := by
  obtain ⟨spaces, hsplit⟩ := exists_unpadded_append cs
  have hdropped := isChain_dropWhile h
  rw [hsplit, ← List.cons_append] at hdropped
  exact (List.isChain_append.mp hdropped).1

theorem getLast?_unpadded (cs : List Char) : (unpadded cs).getLast? ≠ some ' ' := by
  intro h
  have hne : unpadded cs ≠ [] := fun hnil => by
    rw [hnil] at h
    cases h
  rw [List.getLast?_eq_some_getLast hne, Option.some_inj] at h
  exact List.rdropWhile_last_not _ _ hne (beq_iff_eq.mpr h)

theorem head?_unpadded (cs : List Char) : (unpadded cs).head? ≠ some ' ' := by
  intro h
  obtain ⟨spaces, hsplit⟩ := exists_unpadded_append cs
  have hhead : (cs.dropWhile (· == ' ')).head? = some ' ' := by
    rw [hsplit, List.head?_append, h]
    rfl
  have hnot := List.head?_dropWhile_not (· == ' ') cs
  rw [hhead] at hnot
  cases hnot

/-- Of a cell that is filled up with spaces the cell is left, if no end of it is one. -/
theorem unpadded_padded (hhead : cs.head? ≠ some ' ') (hlast : cs.getLast? ≠ some ' ') (k : Nat) :
    unpadded (' ' :: cs ++ List.replicate k ' ') = cs := by
  have hspaces : ∀ c ∈ List.replicate k ' ', (c == ' ') = true := fun c hc => beq_iff_eq.mpr (List.eq_of_mem_replicate hc)
  have hright : (cs ++ List.replicate k ' ').rdropWhile (· == ' ') = cs := by
    rw [List.rdropWhile, List.reverse_append, List.reverse_replicate, List.dropWhile_append_of_pos hspaces,
      List.dropWhile_beq_eq_self_of_head?_ne (by rwa [List.head?_reverse]), List.reverse_reverse]
  cases cs with
  | nil =>
      rw [unpadded, List.rdropWhile_eq_nil_iff]
      intro c hc
      rcases List.mem_cons.mp ((List.dropWhile_suffix _).subset hc) with rfl | hc
      · rfl
      · exact hspaces c hc
  | cons c cs =>
      rw [unpadded, List.cons_append, List.dropWhile_cons_of_pos (by rfl),
        List.dropWhile_beq_eq_self_of_head?_ne (l := c :: cs ++ List.replicate k ' ') hhead]
      exact hright

theorem mem_bareBars (h : c ∈ bareBars cs) : c ∈ cs := by
  induction cs using bareBars.induct with
  | case1 cs ih =>
      rw [bareBars] at h
      exact (List.mem_cons.mp h).elim (by simp [·]) fun h => by simp [ih h]
  | case2 d cs hd ih =>
      rw [bareBars] at h
      · exact (List.mem_cons.mp h).elim (by simp [·]) fun h => by simp [ih h]
      · exact hd
  | case3 => cases h

/-- Where every bar is escaped, one backslash is taken away for each bar. -/
theorem count_bareBars (h : (' ' :: cs).IsChain Escaped) :
    (bareBars cs).count '\\' + cs.count '|' = cs.count '\\' := by
  induction cs using bareBars.induct with
  | case1 cs ih =>
      have hcs : (' ' :: cs).IsChain Escaped :=
        isChain_behind (by decide) (List.isChain_cons_cons.mp (List.isChain_cons_cons.mp h).2).2
      rw [bareBars, List.count_cons_of_ne (by decide), List.count_cons_of_ne (by decide), List.count_cons_self,
        List.count_cons_self, List.count_cons_of_ne (by decide), ← ih hcs, Nat.add_assoc]
  | case2 d cs hd ih =>
      obtain ⟨hplain, hbehind⟩ := List.isChain_cons_cons.mp h
      have hbar : d ≠ '|' := fun he => absurd (hplain he) (by decide)
      have hcs : (' ' :: cs).IsChain Escaped := by
        cases cs with
        | nil => exact .singleton _
        | cons e cs =>
            obtain ⟨he, hcs⟩ := List.isChain_cons_cons.mp hbehind
            exact List.isChain_cons_cons.mpr ⟨fun heq => (hd cs (he heq) (heq ▸ rfl)).elim, hcs⟩
      rw [bareBars, List.count_cons, List.count_cons_of_ne hbar, List.count_cons, ← ih hcs, Nat.add_right_comm]
      exact hd
  | case3 => rfl

theorem count_map_bareBars (h : ∀ p ∈ ps, (' ' :: p).IsChain Escaped) :
    (ps.map bareBars).flatten.count '\\' + ps.flatten.count '|' = ps.flatten.count '\\' := by
  induction ps with
  | nil => rfl
  | cons p ps ih =>
      obtain ⟨hp, hps⟩ := List.forall_mem_cons.mp h
      have hcount := count_bareBars hp
      have hrest := ih hps
      simp only [List.map_cons, List.flatten_cons, List.count_append]
      omega

theorem bareBars_of_not_mem (h : '|' ∉ cs) : bareBars cs = cs := by
  induction cs using bareBars.induct with
  | case1 cs ih => simp at h
  | case2 d cs hd ih =>
      rw [bareBars, ih (List.not_mem_of_not_mem_cons h)]
      exact hd
  | case3 => rfl

theorem isChain_of_not_mem (h : '|' ∉ cs) : cs.IsChain Escaped := by
  have hpairs : cs.Pairwise Escaped := List.pairwise_of_forall_mem_list fun a _ b hb hbar => (h (hbar ▸ hb)).elim
  exact hpairs.isChain

theorem isChain_padded (h : (' ' :: cs).IsChain Escaped) (k : Nat) :
    (' ' :: ' ' :: cs ++ List.replicate k ' ').IsChain Escaped := by
  have hspaces : (List.replicate k ' ').IsChain Escaped :=
    isChain_of_not_mem fun hbar => absurd (List.eq_of_mem_replicate hbar) (by decide)
  rw [List.isChain_append]
  refine ⟨List.isChain_cons_cons.mpr ⟨nofun, h⟩, hspaces, fun _ _ c hc hbar => ?_⟩
  exact absurd (hbar.symm.trans (List.eq_of_mem_replicate (List.mem_of_head? hc))) (by decide)

/-- A text that can stand in a cell between bars: of one line, with its bars escaped, and no space at an end. -/
def IsBarCell (cs : List Char) : Prop :=
  '\n' ∉ cs ∧ (' ' :: cs).IsChain Escaped ∧ cs.head? ≠ some ' ' ∧ cs.getLast? ≠ some ' '

instance : DecidablePred IsBarCell := fun _ => inferInstanceAs (Decidable (_ ∧ _ ∧ _ ∧ _))

theorem exists_of_mem_barCells {line : List Char} (h : w ∈ barCells line) :
    ∃ v ∈ barPieces ' ' line, w = unpadded v := by
  obtain ⟨v, hv, rfl⟩ := List.mem_map.mp h
  exact ⟨v, List.mem_of_mem_tail (List.mem_of_mem_dropLast hv), rfl⟩

theorem isBarCell_of_mem_barCells {line : List Char} (hline : '\n' ∉ line) (h : w ∈ barCells line) : IsBarCell w := by
  obtain ⟨v, hv, rfl⟩ := exists_of_mem_barCells h
  have hno : '\n' ∉ (barPieces ' ' line).flatten := by
    rwa [← List.count_eq_zero, count_barPieces (by decide), List.count_eq_zero]
  exact ⟨fun hc => hno (List.mem_flatten.mpr ⟨v, hv, (unpadded_sublist v).subset hc⟩),
    isChain_unpadded (isChain_of_mem_barPieces (by decide) hv), head?_unpadded v, getLast?_unpadded v⟩

/-- The cells of a line have no character but bars more often than the line. -/
theorem count_barCells_le (hc : c ≠ '|') (line : List Char) : (barCells line).flatten.count c ≤ line.count c := by
  have hunpadded (ws : List (List Char)) : ((ws.map unpadded).flatten).count c ≤ ws.flatten.count c := by
    induction ws with
    | nil => exact Nat.le_refl _
    | cons w ws ih =>
        rw [List.map_cons, List.flatten_cons, List.flatten_cons, List.count_append, List.count_append]
        exact Nat.add_le_add ((unpadded_sublist w).count_le c) ih
  have hinner : (barPieces ' ' line).tail.dropLast.Sublist (barPieces ' ' line) :=
    (List.dropLast_sublist _).trans (List.tail_sublist _)
  rw [← count_barPieces hc ' ' line]
  exact (hunpadded _).trans (hinner.flatten.count_le c)

end Text
end TagIndex
