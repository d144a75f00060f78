import TagIndex.Proofs.Bars
import TagIndex.Proofs.SelectingOptions

/-!
# Printed tables

Nothing is escaped in a table. So its cells are read back from what is printed if and only if they hold no separators:
no tab and no line break between tabs, and between bars no line break, no bar and no space at an end, spaces being what
cells are filled up with.
-/

namespace TagIndex

namespace Table

open Text

variable {t : Table} {widths : List Nat} {cells : List (List Char)} {row : List String} {s w : String}

theorem map_toList_ofList (cells : List (List Char)) : (cells.map String.ofList).map String.toList = cells := by
  rw [List.map_map]
  exact (List.map_congr_left fun _ _ => String.toList_ofList).trans (List.map_id _)

/-! ## Tabs -/

/-- The cells of a text: its lines, cut at the tabs. -/
def readTabbed (s : String) : List (List String) :=
  (lines s.toList).dropLast.map fun line => (splitBy (· == '\t') line).map String.ofList

theorem not_mem_of_mem_readTabbed (hrow : row ∈ readTabbed s) (hw : w ∈ row) : '\t' ∉ w.toList ∧ '\n' ∉ w.toList := by
  obtain ⟨line, hline, rfl⟩ := List.mem_map.mp hrow
  obtain ⟨v, hv, rfl⟩ := List.mem_map.mp hw
  rw [String.toList_ofList]
  exact ⟨not_mem_of_mem_splitBy hv, fun hc =>
    not_mem_of_mem_splitBy (List.mem_of_mem_dropLast hline) (mem_of_mem_splitBy hv hc)⟩

theorem toList_tabbed (t : Table) : t.tabbed.toList =
    ((t.rows.map fun row => ['\t'].intercalate (row.map String.toList)).map (· ++ ['\n'])).flatten := by
  rw [tabbed, String.toList_join, List.flatMap_map, List.map_map, ← List.flatMap_def]
  refine List.flatMap_congr fun row _ => ?_
  rw [String.toList_append, toList_joined]
  rfl

/-- Rows between tabs are read back if and only if no cell has a tab or a line break. -/
theorem readTabbed_tabbed_iff (hne : ∀ row ∈ t.rows, row ≠ []) :
    readTabbed t.tabbed = t.rows ↔ ∀ row ∈ t.rows, ∀ w ∈ row, '\t' ∉ w.toList ∧ '\n' ∉ w.toList := by
  constructor
  · intro h row hrow w hw
    rw [← h] at hrow
    exact not_mem_of_mem_readTabbed hrow hw
  intro h
  have hlines : ∀ line ∈ t.rows.map fun row => ['\t'].intercalate (row.map String.toList), '\n' ∉ line := by
    intro line hline hc
    obtain ⟨row, hrow, rfl⟩ := List.mem_map.mp hline
    rcases mem_intercalate hc with hsep | ⟨v, hv, hcv⟩
    · exact absurd hsep (by decide)
    · obtain ⟨w, hw, rfl⟩ := List.mem_map.mp hv
      exact (h row hrow w hw).2 hcv
  rw [readTabbed, toList_tabbed, lines_ended hlines, List.dropLast_concat, List.map_map]
  refine (List.map_congr_left fun row hrow => ?_).trans (List.map_id _)
  rw [Function.comp_apply, splitBy_intercalate, map_ofList_toList]
  · rfl
  · exact List.forall_mem_map.mpr fun w hw => (h row hrow w hw).1
  · exact fun hnil => hne row hrow (List.map_eq_nil_iff.mp hnil)

/-! ## Bars -/

/-- The cells of a text behind its header and the dashes. -/
def readBarred (s : String) : List (List String) :=
  ((lines s.toList).drop 2).dropLast.map fun line => (barCells line).map String.ofList

/-- The same cells, with bars for the escaped ones. -/
def readUnescaped (s : String) : List (List String) :=
  (readBarred s).map fun row => row.map fun w => String.ofList (bareBars w.toList)

theorem isBarCell_of_mem_readBarred (hrow : row ∈ readBarred s) (hw : w ∈ row) : IsBarCell w.toList := by
  obtain ⟨line, hline, rfl⟩ := List.mem_map.mp hrow
  obtain ⟨v, hv, rfl⟩ := List.mem_map.mp hw
  rw [String.toList_ofList]
  exact isBarCell_of_mem_barCells (not_mem_of_mem_splitBy (List.mem_of_mem_drop (List.mem_of_mem_dropLast hline))) hv

theorem not_mem_of_mem_readUnescaped (hrow : row ∈ readUnescaped s) (hw : w ∈ row) : '\n' ∉ w.toList := by
  rw [readUnescaped, List.mem_map] at hrow
  obtain ⟨read, hread, rfl⟩ := hrow
  obtain ⟨v, hv, rfl⟩ := List.mem_map.mp hw
  have hcell : IsBarCell v.toList := isBarCell_of_mem_readBarred hread hv
  rw [String.toList_ofList]
  exact fun hc => hcell.1 (mem_bareBars hc)

/-- A cell with the spaces around it. -/
def padded (width : Nat) (cell : List Char) : List Char :=
  ' ' :: cell ++ List.replicate (width - lineWidth cell + 1) ' '

/-- The text of a line, without its end. -/
def line (widths : List Nat) (cells : List (List Char)) : List Char :=
  '|' :: ((List.zipWith padded widths cells).map (· ++ ['|'])).flatten

theorem intercalate_bars {ws : List (List Char)} (hne : ws ≠ []) :
    ' ' :: [' ', '|', ' '].intercalate ws ++ [' ', '|'] = (ws.map fun w => ' ' :: w ++ [' ', '|']).flatten := by
  induction ws with
  | nil => exact absurd rfl hne
  | cons w ws ih =>
      cases ws with
      | nil => simp
      | cons v ws =>
          rw [List.map_cons, List.flatten_cons, ← ih (List.cons_ne_nil _ _), List.intercalate_cons_cons]
          simp

theorem toList_filled (width : Nat) (cell : List Char) :
    ' ' :: (filled width cell).toList ++ [' ', '|'] = padded width cell ++ ['|'] := by
  rw [filled, String.toList_ofList, padded, List.replicate_succ']
  simp

theorem toList_barLine (hw : widths ≠ []) (hc : cells ≠ []) :
    (barLine widths cells).toList = line widths cells ++ ['\n'] := by
  have hne : (List.zipWith filled widths cells).map String.toList ≠ [] := by simp [hw, hc]
  have htext : (barLine widths cells).toList =
      '|' :: (' ' :: [' ', '|', ' '].intercalate ((List.zipWith filled widths cells).map String.toList) ++ [' ', '|']) ++
        ['\n'] := by
    rw [barLine, String.toList_append, String.toList_append, toList_joined]
    simp
  rw [htext, intercalate_bars hne, line, List.map_map, List.map_zipWith, List.map_zipWith]
  simp only [Function.comp_apply, toList_filled]

theorem lines_of_not_mem {cs : List Char} (h : '\n' ∉ cs) : lines cs = [cs] := by
  have hread : splitBy (· == '\n') (['\n'].intercalate [cs]) = [cs] :=
    splitBy_intercalate (List.forall_mem_singleton.mpr h) (List.cons_ne_nil _ _)
  rwa [List.intercalate_singleton] at hread

theorem foldl_max_one (row : List String) : ((row.map fun w => [w.toList]).map (·.length)).foldl max 1 = 1 := by
  induction row with
  | nil => rfl
  | cons w row ih => exact ih

/-- A row of cells of one line each is one line high. -/
theorem barRow_of_lines (hne : row ≠ []) (h : ∀ w ∈ row, '\n' ∉ w.toList) :
    barRow widths row = barLine widths (row.map String.toList) := by
  have hcells : (row.map fun w => lines w.toList) = row.map fun w => [w.toList] :=
    List.map_congr_left fun w hw => lines_of_not_mem (h w hw)
  have hheight : ((row.map fun w => [w.toList]).map (·.length)).foldl max 0 = 1 := by
    obtain ⟨w, ws, rfl⟩ := List.exists_cons_of_ne_nil hne
    exact foldl_max_one ws
  simp only [barRow, hcells, hheight, List.range_one, List.map_cons, List.map_nil]
  rw [List.map_map, ← String.toList_inj, String.toList_join, List.flatMap_singleton]
  rfl

theorem length_widths_of_rows {rows : List (List String)} {ws : List Nat} (h : ∀ row ∈ rows, row.length = ws.length) :
    (rows.foldl (fun ws row => ws.zipWith max (row.map width)) ws).length = ws.length := by
  induction rows generalizing ws with
  | nil => rfl
  | cons row rows ih =>
      obtain ⟨hrow, hrows⟩ := List.forall_mem_cons.mp h
      have hlength : (ws.zipWith max (row.map width)).length = ws.length := by
        rw [List.length_zipWith, List.length_map, hrow, Nat.min_self]
      rw [List.foldl_cons, ih (hlength ▸ hrows), hlength]

/-- A table with a header of one line, and as many cells in every row. -/
structure IsRectangular (t : Table) : Prop where
  header_ne_nil : t.header ≠ []
  header_line : ∀ w ∈ t.header, '\n' ∉ w.toList
  length_row : ∀ row ∈ t.rows, row.length = t.header.length

section Rectangular

variable (ht : t.IsRectangular)
include ht

theorem IsRectangular.row_ne_nil (hrow : row ∈ t.rows) : row ≠ [] := fun hnil =>
  ht.header_ne_nil (List.length_eq_zero_iff.mp (by rw [← ht.length_row row hrow, hnil, List.length_nil]))

theorem IsRectangular.length_widths : t.widths.length = t.header.length := by
  have hrows : ∀ row ∈ t.rows, row.length = (t.header.map width).length := fun row hrow => by
    rw [ht.length_row row hrow, List.length_map]
  rw [widths, length_widths_of_rows hrows, List.length_map]

theorem IsRectangular.length_cells (hrow : row ∈ t.rows) : t.widths.length = (row.map String.toList).length := by
  rw [ht.length_widths, List.length_map, ht.length_row row hrow]

theorem IsRectangular.widths_ne_nil : t.widths ≠ [] := fun hnil =>
  ht.header_ne_nil (List.length_eq_zero_iff.mp (by rw [← ht.length_widths, hnil, List.length_nil]))

end Rectangular

theorem exists_of_mem_padded {p : List Char} (h : p ∈ List.zipWith padded widths cells) :
    ∃ width, ∃ cs ∈ cells, p = padded width cs := by
  rw [← List.map_uncurry_zip_eq_zipWith] at h
  obtain ⟨⟨width, cs⟩, hmem, rfl⟩ := List.mem_map.mp h
  exact ⟨width, cs, (List.of_mem_zip hmem).2, rfl⟩

theorem mem_padded {width : Nat} {c : Char} {cs : List Char} (h : c ∈ padded width cs) : c = ' ' ∨ c ∈ cs := by
  rcases List.mem_append.mp h with h | h
  · exact List.mem_cons.mp h
  · exact .inl (List.eq_of_mem_replicate h)

theorem not_mem_line (h : ∀ cs ∈ cells, '\n' ∉ cs) : '\n' ∉ line widths cells := by
  intro hc
  obtain ⟨p, hp, hcp⟩ := List.mem_flatten.mp ((List.mem_cons.mp hc).resolve_left (by decide))
  obtain ⟨q, hq, rfl⟩ := List.mem_map.mp hp
  obtain ⟨width, cs, hcs, rfl⟩ := exists_of_mem_padded hq
  rcases List.mem_append.mp hcp with hcq | hbar
  · exact (mem_padded hcq).elim (by decide) (h cs hcs)
  · exact absurd hbar (by decide)

/-- The dashes below the header, without the end of their line. -/
def dashLine (widths : List Nat) : List Char :=
  '|' :: ['|'].intercalate (widths.map fun w => List.replicate (w + 2) '-') ++ ['|']

theorem toList_dashes (widths : List Nat) : (dashes widths).toList = dashLine widths ++ ['\n'] := by
  rw [dashes, String.toList_append, String.toList_append, toList_joined, List.map_map, dashLine]
  simp [Function.comp_def]

theorem not_mem_dashLine (widths : List Nat) : '\n' ∉ dashLine widths := by
  intro hc
  rcases List.mem_append.mp hc with hc | hc
  · rcases mem_intercalate ((List.mem_cons.mp hc).resolve_left (by decide)) with hsep | ⟨v, hv, hcv⟩
    · exact absurd hsep (by decide)
    · obtain ⟨_, _, rfl⟩ := List.mem_map.mp hv
      exact absurd (List.eq_of_mem_replicate hcv) (by decide)
  · exact absurd hc (by decide)

/-- If no cell has a line break, then every row is printed as one line. -/
theorem lines_barred (ht : t.IsRectangular) (h : ∀ row ∈ t.rows, ∀ w ∈ row, '\n' ∉ w.toList) :
    ((lines t.barred.toList).drop 2).dropLast = t.rows.map fun row => line t.widths (row.map String.toList) := by
  have hrow : ∀ row, row ≠ [] → (∀ w ∈ row, '\n' ∉ w.toList) →
      (barRow t.widths row).toList = line t.widths (row.map String.toList) ++ ['\n'] := fun row hne hrow => by
    rw [barRow_of_lines hne hrow, toList_barLine ht.widths_ne_nil (by simpa using hne)]
  have hline : ∀ row : List String, (∀ w ∈ row, '\n' ∉ w.toList) →
      '\n' ∉ line t.widths (row.map String.toList) := fun row hrow => not_mem_line (List.forall_mem_map.mpr hrow)
  let ls := line t.widths (t.header.map String.toList) :: dashLine t.widths ::
    t.rows.map fun row => line t.widths (row.map String.toList)
  have htext : t.barred.toList = (ls.map (· ++ ['\n'])).flatten := by
    rw [barred, String.toList_append, String.toList_append, hrow _ ht.header_ne_nil ht.header_line, toList_dashes,
      String.toList_join, List.flatMap_map, List.append_assoc, List.map_cons, List.map_cons, List.flatten_cons,
      List.flatten_cons, List.map_map, ← List.flatMap_def,
      List.flatMap_congr fun row hm => hrow row (ht.row_ne_nil hm) (h row hm)]
    rfl
  have hls : ∀ l ∈ ls, '\n' ∉ l := by
    refine List.forall_mem_cons.mpr ⟨hline _ ht.header_line, List.forall_mem_cons.mpr ⟨not_mem_dashLine _, ?_⟩⟩
    exact List.forall_mem_map.mpr fun row hm => hline row (h row hm)
  rw [htext, lines_ended hls]
  exact List.dropLast_concat

/-! ## Cells of a printed line -/

theorem padded_isChain {cs : List Char} (h : (' ' :: cs).IsChain Escaped) (width : Nat) :
    (' ' :: padded width cs).IsChain Escaped ∧ (padded width cs).getLast? = some ' ' := by
  refine ⟨isChain_padded h _, ?_⟩
  rw [padded, List.replicate_succ', ← List.append_assoc]
  exact List.getLast?_concat

theorem zipWith_eq_right {f : Nat → List Char → List Char} (hlength : widths.length = cells.length)
    (h : ∀ width, ∀ cs ∈ cells, f width cs = cs) : List.zipWith f widths cells = cells := by
  induction cells generalizing widths with
  | nil => exact List.zipWith_nil_right
  | cons cs cells ih =>
      obtain ⟨hcs, hcells⟩ : (∀ width, f width cs = cs) ∧ ∀ width, ∀ v ∈ cells, f width v = v :=
        ⟨fun width => h width cs List.mem_cons_self, fun width v hv => h width v (List.mem_cons_of_mem cs hv)⟩
      obtain ⟨width, widths, rfl⟩ := List.exists_cons_of_length_eq_add_one hlength
      rw [List.zipWith_cons_cons, hcs, ih (Nat.succ_inj.mp hlength) hcells]

/-- The cells of a line are read back, if they can stand between bars. -/
theorem barCells_line (hlength : widths.length = cells.length) (h : ∀ cs ∈ cells, IsBarCell cs) :
    barCells (line widths cells) = cells := by
  have hclosed : barPieces '|' ((List.zipWith padded widths cells).map (· ++ ['|'])).flatten =
      List.zipWith padded widths cells ++ [[]] := by
    refine barPieces_closed (fun p hp => ?_) (by decide)
    obtain ⟨width, cs, hcs, rfl⟩ := exists_of_mem_padded hp
    exact padded_isChain (h cs hcs).2.1 width
  rw [barCells, line, barPieces, if_pos ⟨rfl, by decide⟩, hclosed, List.tail_cons, List.dropLast_concat, List.map_zipWith]
  exact zipWith_eq_right hlength fun width cs hcs => unpadded_padded (h cs hcs).2.2.1 (h cs hcs).2.2.2 _

theorem count_padded (width : Nat) (cs : List Char) : (padded width cs).count '\\' = cs.count '\\' := by
  rw [padded, List.count_append, List.count_cons_of_ne (by decide), List.count_replicate]
  rfl

/-- A line has the backslashes of its cells. -/
theorem count_line (hlength : widths.length = cells.length) :
    (line widths cells).count '\\' = cells.flatten.count '\\' := by
  rw [line, List.count_cons_of_ne (by decide)]
  induction cells generalizing widths with
  | nil => rw [List.zipWith_nil_right]; rfl
  | cons cs cells ih =>
      obtain ⟨width, widths, rfl⟩ := List.exists_cons_of_length_eq_add_one hlength
      rw [List.zipWith_cons_cons, List.map_cons, List.flatten_cons, List.flatten_cons, List.count_append,
        List.count_append, List.count_append, count_padded, ih (Nat.succ_inj.mp hlength)]
      rfl

/-- If the cells with bars for the escaped ones are those of the line, then they have no bars: each bar that is read so
takes a backslash away from those that the line has. -/
theorem isBarCell_of_bareBars (hlength : widths.length = cells.length) (hline : '\n' ∉ line widths cells)
    (h : (barCells (line widths cells)).map bareBars = cells) : ∀ cs ∈ cells, IsBarCell cs ∧ '|' ∉ cs := by
  have hread : ∀ v ∈ barCells (line widths cells), IsBarCell v := fun v hv => isBarCell_of_mem_barCells hline hv
  have hle := count_barCells_le (c := '\\') (by decide) (line widths cells)
  have hcount := count_map_bareBars fun v hv => (hread v hv).2.1
  rw [count_line hlength] at hle
  rw [h] at hcount
  have hbars : (barCells (line widths cells)).flatten.count '|' = 0 := by omega
  intro cs hcs
  rw [← h] at hcs
  obtain ⟨v, hv, rfl⟩ := List.mem_map.mp hcs
  have hno : '|' ∉ v := fun hbar => List.count_eq_zero.mp hbars (List.mem_flatten_of_mem hv hbar)
  rw [bareBars_of_not_mem hno]
  exact ⟨hread v hv, hno⟩

theorem readBarred_barred (ht : t.IsRectangular) (h : ∀ row ∈ t.rows, ∀ w ∈ row, '\n' ∉ w.toList) :
    readBarred t.barred =
      t.rows.map fun row => (barCells (line t.widths (row.map String.toList))).map String.ofList := by
  rw [readBarred, lines_barred ht h, List.map_map]
  rfl

theorem readUnescaped_barred (ht : t.IsRectangular) (h : ∀ row ∈ t.rows, ∀ w ∈ row, '\n' ∉ w.toList) :
    readUnescaped t.barred = t.rows.map fun row =>
      ((barCells (line t.widths (row.map String.toList))).map bareBars).map String.ofList := by
  rw [readUnescaped, readBarred_barred ht h, List.map_map]
  refine List.map_congr_left fun row _ => ?_
  rw [Function.comp_apply, List.map_map, List.map_map]
  exact List.map_congr_left fun cs _ => by rw [Function.comp_apply, String.toList_ofList, Function.comp_apply]

/-- Rows between bars are read back if and only if every cell can stand between bars. -/
theorem readBarred_barred_iff (ht : t.IsRectangular) :
    readBarred t.barred = t.rows ↔ ∀ row ∈ t.rows, ∀ w ∈ row, IsBarCell w.toList := by
  constructor
  · intro h row hrow w hw
    rw [← h] at hrow
    exact isBarCell_of_mem_readBarred hrow hw
  intro h
  rw [readBarred_barred ht fun row hrow w hw => (h row hrow w hw).1]
  refine (List.map_congr_left fun row hrow => ?_).trans (List.map_id _)
  rw [barCells_line (ht.length_cells hrow) (List.forall_mem_map.mpr (h row hrow)), map_ofList_toList]
  rfl

/-- With bars for the escaped ones, they are read back if and only if, moreover, no cell has a bar. -/
theorem readUnescaped_barred_iff (ht : t.IsRectangular) :
    readUnescaped t.barred = t.rows ↔ ∀ row ∈ t.rows, ∀ w ∈ row, IsBarCell w.toList ∧ '|' ∉ w.toList := by
  constructor
  · intro h
    have hlines : ∀ row ∈ t.rows, ∀ w ∈ row, '\n' ∉ w.toList := by
      intro row hrow w hw
      rw [← h] at hrow
      exact not_mem_of_mem_readUnescaped hrow hw
    rw [readUnescaped_barred ht hlines] at h
    have hrows := List.map_eq_map_iff.mp (h.trans (List.map_id t.rows).symm)
    intro row hrow
    have hcells := congrArg (List.map String.toList) (hrows row hrow)
    rw [map_toList_ofList, id_eq] at hcells
    have hline : '\n' ∉ line t.widths (row.map String.toList) := not_mem_line (List.forall_mem_map.mpr (hlines row hrow))
    exact List.forall_mem_map.mp (isBarCell_of_bareBars (ht.length_cells hrow) hline hcells)
  · intro h
    rw [readUnescaped, (readBarred_barred_iff ht).mpr fun row hrow w hw => (h row hrow w hw).1]
    refine (List.map_congr_left fun row hrow => ?_).trans (List.map_id _)
    refine (List.map_congr_left fun w hw => ?_).trans (List.map_id _)
    rw [bareBars_of_not_mem (h row hrow w hw).2, String.ofList_toList]
    rfl

end Table

/-! ## Printed tags -/

open Text Table

namespace Output

/-- The cells of a row's tag that can be any text. -/
def textCells (r : Row) : List String := [r.tag.name, r.tag.kind, r.tag.scope, r.tag.file]

theorem isBarCell_line_number (n : Int) : IsBarCell (toString n).toList ∧ '|' ∉ (toString n).toList := by
  have hbar : '|' ∉ (toString n).toList := not_mem_integer (by decide) (by decide)
  have hspace : ' ' ∉ (toString n).toList := not_mem_integer (by decide) (by decide)
  refine ⟨⟨not_mem_integer (by decide) (by decide), isChain_of_not_mem (List.not_mem_cons_of_ne_of_not_mem (by decide) hbar),
    fun h => hspace (List.mem_of_head? h), fun h => hspace (List.mem_of_getLast? h)⟩, hbar⟩

/-- What is true of every line number is true of all cells if it is true of the others. -/
theorem forall_tagCells_iff {P : String → Prop} (hP : ∀ n : Int, P (toString n)) (rows : List Row) :
    (∀ row ∈ rows.map fun r => tagCells r.tag, ∀ w ∈ row, P w) ↔ ∀ r ∈ rows, ∀ w ∈ textCells r, P w := by
  rw [List.forall_mem_map]
  refine forall₂_congr fun r _ => ?_
  rw [show tagCells r.tag = textCells r ++ [toString r.tag.line] from rfl, List.forall_mem_append]
  exact and_iff_left (List.forall_mem_singleton.mpr (hP _))

theorem isRectangular_tags (rows : List Row) : IsRectangular ⟨tagHeader, rows.map fun r => tagCells r.tag⟩ where
  header_ne_nil := List.cons_ne_nil _ _
  header_line := (by decide : ∀ w ∈ tagHeader, '\n' ∉ w.toList)
  length_row := List.forall_mem_map.mpr fun _ _ => rfl

end Output

namespace Invocation

open Output

/-- A query for tags prints the rows that it answers. Between tabs the name, kind, scope, file and line of each row are
read back if and only if none of these texts has a tab or a line break; between bars, if and only if each is one line
without a space at an end, in which every bar comes right behind a backslash, and, where such a bar is read without its
backslash, if and only if moreover there is no bar. -/
theorem printed_tags_are_read_back :
    (∀ rows : List Row,
      let cells := rows.map fun r => [r.tag.name, r.tag.kind, r.tag.scope, r.tag.file, toString r.tag.line]
      (readTabbed (Output.tags .tsv rows) = cells ↔
        ∀ r ∈ rows, ∀ w ∈ textCells r, '\t' ∉ w.toList ∧ '\n' ∉ w.toList) ∧
      (readBarred (Output.tags .md rows) = cells ↔ ∀ r ∈ rows, ∀ w ∈ textCells r, IsBarCell w.toList) ∧
      (readUnescaped (Output.tags .md rows) = cells ↔
        ∀ r ∈ rows, ∀ w ∈ textCells r, IsBarCell w.toList ∧ '|' ∉ w.toList)) ∧
    ∀ (i : Invocation) (env : Environment) (user : Option String) (now : Int) (d d' : Disk) (s : Store) (q : TagQuery),
      i.command = .tags q → q.refusal? = none → i.openStore env user d = (.ok s, d') →
      (i.run env user now d).1 = .printed (Output.tags i.format (q.rows.run s).1) := by
  refine ⟨fun rows => ⟨?_, ?_, ?_⟩, fun i env user now d d' s q hq hr ho => (run_tags hq ho now).trans (by rw [hr]; rfl)⟩
  · rw [← forall_tagCells_iff fun n => ⟨not_mem_integer (by decide) (by decide), not_mem_integer (by decide) (by decide)⟩]
    exact readTabbed_tabbed_iff (List.forall_mem_map.mpr fun _ _ => List.cons_ne_nil _ _)
  · rw [← forall_tagCells_iff fun n => (isBarCell_line_number n).1]
    exact readBarred_barred_iff (isRectangular_tags rows)
  · rw [← forall_tagCells_iff isBarCell_line_number]
    exact readUnescaped_barred_iff (isRectangular_tags rows)

/-- A name with spaces inside is read back from between bars. -/
theorem printed_tags_are_read_back_operator :
    let tag : Tag := { name := "operator unsigned int", file := "a.c", line := 3, kind := "function", scope := "ns" }
    let d := (Step.act (Step.act {} (.openPath "tags.db")) (.storeTags [tag] 0 true)).disk
    let i : Invocation := { command := .tags (.scope ["ns"] none false []), format := .md, database := some "tags.db" }
    let text := Output.tags .md [⟨1, tag⟩]
    (i.run {} none 0 d).1 = .printed text ∧ readUnescaped text = [tagCells tag] := by
  intro tag d i text
  let s : Store := (i.openStore {} none d).1.toOption.getD default
  have ho : i.openStore {} none d = (.ok s, _) := openStore_of_isOk (by decide +kernel)
  have hrows : ((TagQuery.scope ["ns"] none false []).rows.run s).1 = [⟨1, tag⟩] := by decide +kernel
  obtain ⟨hread, hprinted⟩ := printed_tags_are_read_back
  obtain ⟨_, _, hunescaped⟩ := hread [⟨1, tag⟩]
  have hrun := hprinted i {} none 0 d _ s _ rfl rfl ho
  rw [hrows] at hrun
  exact ⟨hrun, hunescaped.mpr (by decide +kernel)⟩

/-- A name with a bar and one with a tab are taken from a tag file, but they are not read back from what is printed. -/
theorem printed_tags_not_read_back :
    let member (name : String) : String := "\x7b\"name\": \"" ++ name ++ "\", \"file\": \"a.c\", \"scope\": \"ns\"\x7d"
    let row (name : String) : Row := ⟨1, { name, file := "a.c", scope := "ns", path := "ns::" ++ name }⟩
    let bar := row "operator|"
    let tab := row "a\tb"
    (TagFile.ofText? ("[" ++ member "operator|" ++ ", " ++ member "a\\tb" ++ "]")).map TagFile.tags =
      some [bar.tag, tab.tag] ∧
    Output.tags .md [bar] =
      "| NAME      | KIND | SCOPE | FILE | LINE |\n" ++
      "|-----------|------|-------|------|------|\n" ++
      "| operator| |      | ns    | a.c  | 0    |\n" ∧
    readBarred (Output.tags .md [bar]) ≠ [tagCells bar.tag] ∧ readUnescaped (Output.tags .md [bar]) ≠ [tagCells bar.tag] ∧
    Output.tags .tsv [tab] = "a\tb\t\tns\ta.c\t0\n" ∧ readTabbed (Output.tags .tsv [tab]) ≠ [tagCells tab.tag] := by
  decide +kernel

end Invocation
end TagIndex
