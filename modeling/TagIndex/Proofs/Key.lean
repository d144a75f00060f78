import TagIndex.Proofs.Codes

/-!
# What a key tells

The statement of a query tells the shape of its conditions, its sorting and its limit, and the values
tell the rest. Only the kinds of the filter run together.
-/

namespace TagIndex

open Text

/-! ## Tests -/

namespace Test

/-- The test without its texts. -/
def shape : Test → Test
  | is _ => is ""
  | oneOf ss => oneOf (ss.map fun _ => "")
  | like _ => like ""
  | unlike _ => unlike ""
  | likePlain _ => likePlain ""
  | range _ high => range "" (high.map fun _ => "")

/-- What a statement goes on with after a test is no part of the test. -/
structure Ends (x : List Char) : Prop where
  escape : ∀ z, x ≠ " ESCAPE".toList ++ z
  below : ∀ (c : TextColumn) z, x ≠ " AND ".toList ++ (c.label.toList ++ (" < ".toList ++ z))

theorem marks_cut {m n : Nat} {x y : List Char}
    (h : (joined ", " (List.replicate m "?")).toList ++ ')' :: x =
      (joined ", " (List.replicate n "?")).toList ++ ')' :: y) : m = n ∧ x = y := by
  have hcut : Cut (fun _ => True) (fun _ : Unit => ['?']) id :=
    fun _ _ x y _ _ h => ⟨rfl, (List.cons.inj h).2⟩
  have hjoined := hcut.joined ", ".toList (E := fun x => ∃ z, x = ')' :: z)
    (by rintro _ _ z ⟨w, rfl⟩; simp) (by rintro _ _ z ⟨w, rfl⟩; simp) fun _ _ _ => trivial
  have h' : List.intercalate ", ".toList ((List.replicate m ()).map fun _ => ['?']) ++ ')' :: x =
      List.intercalate ", ".toList ((List.replicate n ()).map fun _ => ['?']) ++ ')' :: y := by
    simpa [joined, String.toList_intercalate] using h
  obtain ⟨hmn, hxy⟩ := hjoined _ _ _ _ ⟨x, rfl⟩ ⟨y, rfl⟩ h'
  exact ⟨by simpa using congrArg List.length hmn, (List.cons.inj hxy).2⟩

theorem statement_oneOf (l : String) (ss : List String) : (statement l (oneOf ss)).toList =
    l.toList ++ (" IN (".toList ++ ((joined ", " (List.replicate ss.length "?")).toList ++ [')'])) := by
  simp [statement]

theorem statement_range_none (l low : String) :
    (statement l (range low none)).toList = l.toList ++ " >= ?".toList := by
  simp [statement]

theorem statement_range_some (l low high : String) : (statement l (range low (some high))).toList =
    l.toList ++ (" >= ? AND ".toList ++ (l.toList ++ " < ?".toList)) := by
  simp [statement]

theorem cut (c : TextColumn) : Cut Ends (fun t => (statement c.label t).toList) shape := by
  intro t u x y hx hy h
  dsimp only at h
  -- Tests of two forms part at their words, but for two pairs of which one goes on where the other ends: these are
  -- told apart by what can follow a test.
  cases t with
  | is s =>
      cases u with
      | is s' => exact ⟨rfl, by simpa [statement] using h⟩
      | range low high => cases high <;> simp [statement] at h
      | _ => simp [statement] at h
  | oneOf ss =>
      cases u with
      | oneOf ss' =>
          have h' : (joined ", " (List.replicate ss.length "?")).toList ++ ')' :: x =
              (joined ", " (List.replicate ss'.length "?")).toList ++ ')' :: y := by
            simpa [statement_oneOf] using h
          obtain ⟨hlen, hxy⟩ := marks_cut h'
          refine ⟨?_, hxy⟩
          simp only [shape, List.map_const', hlen]
      | range low high => cases high <;> simp [statement] at h
      | _ => simp [statement] at h
  | like p =>
      cases u with
      | like p' => exact ⟨rfl, by simpa [statement] using h⟩
      | likePlain p' =>
          refine absurd ?_ (hy.escape (" '^'".toList ++ x))
          simpa [statement] using h.symm
      | range low high => cases high <;> simp [statement] at h
      | _ => simp [statement] at h
  | unlike p =>
      cases u with
      | unlike p' => exact ⟨rfl, by simpa [statement] using h⟩
      | range low high => cases high <;> simp [statement] at h
      | _ => simp [statement] at h
  | likePlain p =>
      cases u with
      | like p' =>
          refine absurd ?_ (hx.escape (" '^'".toList ++ y))
          simpa [statement] using h
      | likePlain p' => exact ⟨rfl, by simpa [statement] using h⟩
      | range low high => cases high <;> simp [statement] at h
      | _ => simp [statement] at h
  | range low high =>
      cases u with
      | range low' high' =>
          cases high with
          | none =>
              cases high' with
              | none => exact ⟨rfl, by simpa [statement] using h⟩
              | some top' =>
                  refine absurd ?_ (hx.below c ('?' :: y))
                  simpa [statement_range_none, statement_range_some] using h
          | some top =>
              cases high' with
              | none =>
                  refine absurd ?_ (hy.below c ('?' :: x))
                  simpa [statement_range_none, statement_range_some] using h.symm
              | some top' =>
                  exact ⟨rfl, by simpa [statement_range_some] using h⟩
      | _ => cases high <;> simp [statement] at h

theorem eq_of_shape {t u : Test} (hs : t.shape = u.shape) (hv : t.values = u.values) : t = u := by
  cases t with
  | range low high =>
      cases u with
      | range low' high' => cases high <;> cases high' <;> simp_all [shape, values]
      | _ => cases hs
  | oneOf ss =>
      cases u with
      | oneOf ss' =>
          refine congrArg oneOf (List.map_injective_iff.mpr (fun _ _ => Value.text.inj) ?_)
          simpa only [values] using hv
      | _ => cases hs
  | _ => cases u <;> simp_all [shape, values]

theorem length_values {t u : Test} (hs : t.shape = u.shape) : t.values.length = u.values.length := by
  cases t with
  | range low high =>
      cases u with
      | range low' high' => cases high <;> cases high' <;> simp_all [shape, values]
      | _ => cases hs
  | oneOf ss =>
      cases u with
      | oneOf ss' => simpa [shape, values] using congrArg (fun t => t.values.length) hs
      | _ => cases hs
  | _ => cases u <;> simp_all [shape, values]

/-- A column's name ends at the first space, and no test goes on with `<`. -/
theorem exists_rest (l : String) (t : Test) : ∃ z, (t.statement l).toList = l.toList ++ ' ' :: z ∧
    ∀ v w, z ++ v ≠ '<' :: ' ' :: w := by
  cases t with
  | range low high =>
      cases high with
      | none => exact ⟨">= ?".toList, by simp [statement], by simp⟩
      | some top =>
          exact ⟨">= ? AND ".toList ++ (l.toList ++ " < ?".toList), by simp [statement], by simp⟩
  | oneOf ss =>
      exact ⟨"IN (".toList ++ ((joined ", " (List.replicate ss.length "?")).toList ++ [')']),
        by simp [statement], by simp⟩
  | is s => exact ⟨"= ?".toList, by simp [statement], by simp⟩
  | like p => exact ⟨"LIKE ? ESCAPE '^'".toList, by simp [statement], by simp⟩
  | unlike p => exact ⟨"NOT LIKE ? ESCAPE '^'".toList, by simp [statement], by simp⟩
  | likePlain p => exact ⟨"LIKE ?".toList, by simp [statement], by simp⟩

end Test

/-! ## Conditions -/

theorem TextColumn.space_not_mem_label (c : TextColumn) : ' ' ∉ c.label.toList := by
  cases c <;> simp [label]

theorem TextColumn.label_injective {c d : TextColumn} (h : c.label.toList = d.label.toList) : c = d := by
  cases c <;> cases d <;> first | rfl | simp [label] at h

namespace Condition

/-- The condition without its texts and numbers. -/
def shape : Condition → Condition
  | column c t => column c t.shape
  | onLine _ => onLine 0
  | atOrBefore _ => atOrBefore 0
  | globalNamed t => globalNamed t.shape

theorem statement_column (c : TextColumn) (t : Test) :
    (column c t).statement = t.statement c.label := rfl

theorem statement_onLine (n : Int) : (onLine n).statement = "line = ?" := rfl

theorem statement_atOrBefore (n : Int) : (atOrBefore n).statement = "line <= ?" := rfl

theorem statement_globalNamed (t : Test) : (globalNamed t).statement =
    "id IN (SELECT tag_id FROM global_tags WHERE " ++ t.statement TextColumn.name.label ++ ")" := rfl

/-- A condition starts with a word, and no condition goes on with `<`. -/
theorem exists_word (c : Condition) : ∃ w z, c.statement.toList = w ++ ' ' :: z ∧ ' ' ∉ w ∧ w ≠ [] ∧
    ∀ u v, z ++ u ≠ '<' :: ' ' :: v := by
  cases c with
  | column c t =>
      obtain ⟨z, hz, hlt⟩ := t.exists_rest c.label
      refine ⟨c.label.toList, z, ?_, c.space_not_mem_label, ?_, hlt⟩
      · rw [statement_column, hz]
      · cases c <;> simp [TextColumn.label]
  | onLine n =>
      exact ⟨"line".toList, "= ?".toList, by simp [statement_onLine], by simp, by simp, by simp⟩
  | atOrBefore n =>
      exact ⟨"line".toList, "<= ?".toList, by simp [statement_atOrBefore], by simp, by simp, by simp⟩
  | globalNamed t =>
      refine ⟨"id".toList, "IN (SELECT tag_id FROM global_tags WHERE ".toList ++
        ((t.statement TextColumn.name.label).toList ++ [')']), ?_, by simp, by simp, by simp⟩
      simp [statement_globalNamed]

/-- The word at the start of a condition on a column is the column's name. -/
theorem label_eq_word {c : TextColumn} {t : Test} {w x y : List Char} (hw : ' ' ∉ w)
    (h : (column c t).statement.toList ++ x = w ++ ' ' :: y) : c.label.toList = w := by
  obtain ⟨z, hz, _⟩ := t.exists_rest c.label
  rw [statement_column, hz, List.append_assoc, List.cons_append] at h
  exact (cut_before c.space_not_mem_label hw h).1

theorem ends_bracket (x : List Char) : Test.Ends (')' :: x) := ⟨by simp, by simp⟩

theorem column_ne {c : TextColumn} {t : Test} {x y : List Char} {b : Condition}
    (hb : ∀ d u, b ≠ column d u) : (column c t).statement.toList ++ x ≠ b.statement.toList ++ y := by
  intro h
  cases b with
  | column d u => exact hb d u rfl
  | onLine n =>
      have hw := label_eq_word (w := "line".toList) (y := "= ?".toList ++ y) (by simp)
        (by simpa [statement_onLine] using h)
      cases c <;> simp [TextColumn.label] at hw
  | atOrBefore n =>
      have hw := label_eq_word (w := "line".toList) (y := "<= ?".toList ++ y) (by simp)
        (by simpa [statement_atOrBefore] using h)
      cases c <;> simp [TextColumn.label] at hw
  | globalNamed u =>
      have hw := label_eq_word (w := "id".toList)
        (y := "IN (SELECT tag_id FROM global_tags WHERE ".toList ++
          ((u.statement TextColumn.name.label).toList ++ ')' :: y)) (by simp)
        (by simpa [statement_globalNamed] using h)
      cases c <;> simp [TextColumn.label] at hw

/-- The statement of a condition tells its shape. -/
theorem cut : Cut Test.Ends (fun c : Condition => c.statement.toList) shape := by
  intro a b x y hx hy h
  dsimp only at h
  cases a with
  | column c t =>
      cases b with
      | column d u =>
          obtain ⟨z, hz, _⟩ := u.exists_rest d.label
          have hw : (column c t).statement.toList ++ x = d.label.toList ++ ' ' :: (z ++ y) := by
            rw [h, statement_column, hz, List.append_assoc, List.cons_append]
          obtain rfl := TextColumn.label_injective (label_eq_word d.space_not_mem_label hw)
          obtain ⟨hs, hxy⟩ := Test.cut c t u x y hx hy h
          exact ⟨congrArg (column c) hs, hxy⟩
      | _ => exact absurd h (column_ne nofun)
  | onLine m =>
      cases b with
      | column d u => exact absurd h.symm (column_ne nofun)
      | onLine n => exact ⟨rfl, by simpa [statement_onLine] using h⟩
      | atOrBefore n => simp [statement_onLine, statement_atOrBefore] at h
      | globalNamed u => simp [statement_onLine, statement_globalNamed] at h
  | atOrBefore m =>
      cases b with
      | column d u => exact absurd h.symm (column_ne nofun)
      | onLine n => simp [statement_onLine, statement_atOrBefore] at h
      | atOrBefore n => exact ⟨rfl, by simpa [statement_atOrBefore] using h⟩
      | globalNamed u => simp [statement_atOrBefore, statement_globalNamed] at h
  | globalNamed t =>
      cases b with
      | column d u => exact absurd h.symm (column_ne nofun)
      | onLine n => simp [statement_onLine, statement_globalNamed] at h
      | atOrBefore n => simp [statement_atOrBefore, statement_globalNamed] at h
      | globalNamed u =>
          have h' : (t.statement TextColumn.name.label).toList ++ ')' :: x =
              (u.statement TextColumn.name.label).toList ++ ')' :: y := by
            simpa [statement_globalNamed] using h
          obtain ⟨hs, hxy⟩ := Test.cut .name t u _ _ (ends_bracket x) (ends_bracket y) h'
          exact ⟨congrArg globalNamed hs, (List.cons.inj hxy).2⟩

theorem eq_of_shape {a b : Condition} (hs : a.shape = b.shape) (hv : a.values = b.values) :
    a = b := by
  cases a with
  | column c t =>
      cases b with
      | column d u =>
          obtain ⟨rfl, ht⟩ := column.inj hs
          exact congrArg (column c) (Test.eq_of_shape ht hv)
      | _ => cases hs
  | onLine m =>
      cases b with
      | onLine n => exact congrArg onLine (Value.integer.inj (List.cons.inj hv).1)
      | _ => cases hs
  | atOrBefore m =>
      cases b with
      | atOrBefore n => exact congrArg atOrBefore (Value.integer.inj (List.cons.inj hv).1)
      | _ => cases hs
  | globalNamed t =>
      cases b with
      | globalNamed u => exact congrArg globalNamed (Test.eq_of_shape (globalNamed.inj hs) hv)
      | _ => cases hs

theorem length_values {a b : Condition} (hs : a.shape = b.shape) :
    a.values.length = b.values.length := by
  cases a with
  | column c t =>
      cases b with
      | column d u => exact Test.length_values (column.inj hs).2
      | _ => cases hs
  | onLine m => cases b <;> first | rfl | cases hs
  | atOrBefore m => cases b <;> first | rfl | cases hs
  | globalNamed t =>
      cases b with
      | globalNamed u => exact Test.length_values (globalNamed.inj hs)
      | _ => cases hs

/-- Conditions are told by their shapes and all their values in a row. -/
theorem list_eq_of_shape {as bs : List Condition} (hs : as.map shape = bs.map shape)
    (hv : as.flatMap values = bs.flatMap values) : as = bs := by
  induction as generalizing bs with
  | nil => exact (List.map_eq_nil_iff.mp hs.symm).symm
  | cons a as ih =>
      cases bs with
      | nil => cases hs
      | cons b bs =>
          obtain ⟨ha, has⟩ := List.cons.inj hs
          rw [List.flatMap_cons, List.flatMap_cons] at hv
          obtain ⟨hva, hvas⟩ := List.append_inj hv (length_values ha)
          rw [eq_of_shape ha hva, ih has hvas]

/-- What follows the conditions of a statement. -/
def Follows (x : List Char) : Prop :=
  (∃ z, x = " ORDER BY ".toList ++ z) ∨ ∃ z, x = " LIMIT ".toList ++ z

theorem Follows.ends {x : List Char} (h : Follows x) : Test.Ends x := by
  rcases h with ⟨z, rfl⟩ | ⟨z, rfl⟩ <;> exact ⟨by simp, by simp⟩

theorem ends_and (c : Condition) (x : List Char) :
    Test.Ends (" AND ".toList ++ (c.statement.toList ++ x)) where
  escape z := by simp
  below d z h := by
    obtain ⟨w, v, hw, hno, _, hlt⟩ := c.exists_word
    have h' : w ++ ' ' :: (v ++ x) = d.label.toList ++ ' ' :: ('<' :: ' ' :: z) := by
      simpa [hw] using h
    exact hlt x z (cut_before hno d.space_not_mem_label h').2

theorem cut_list {as bs : List Condition} {x y : List Char} (hx : Follows x) (hy : Follows y)
    (h : (joined " AND " (as.map statement)).toList ++ x =
      (joined " AND " (bs.map statement)).toList ++ y) : as.map shape = bs.map shape ∧ x = y := by
  have hand : ∀ x (c : Condition) z, Follows x → x ≠ " AND ".toList ++ (c.statement.toList ++ z) := by
    rintro x c z (⟨w, rfl⟩ | ⟨w, rfl⟩) <;> simp
  have hfirst : ∀ x (c : Condition) z, Follows x → x ≠ c.statement.toList ++ z := by
    intro x c z hx he
    obtain ⟨w, v, hw, hno, hne, _⟩ := c.exists_word
    obtain ⟨d, w, rfl⟩ := List.exists_cons_of_ne_nil hne
    have hd : ' ' ≠ d := fun h => hno (h ▸ List.mem_cons_self)
    rw [hw] at he
    rcases hx with ⟨u, rfl⟩ | ⟨u, rfl⟩ <;> simp [hd] at he
  have hends : ∀ (cs : List Condition) x, Follows x →
      Test.Ends (row " AND ".toList (fun c : Condition => c.statement.toList) cs ++ x) := by
    intro cs x hx
    cases cs with
    | nil => exact hx.ends
    | cons c cs =>
        have he := ends_and c (row " AND ".toList (fun c : Condition => c.statement.toList) cs ++ x)
        simpa [row] using he
  have h' : List.intercalate " AND ".toList (as.map fun c => c.statement.toList) ++ x =
      List.intercalate " AND ".toList (bs.map fun c => c.statement.toList) ++ y := by
    simpa [joined, String.toList_intercalate, List.map_map, Function.comp_def] using h
  exact cut.joined " AND ".toList hand hfirst hends as bs x y hx hy h'

end Condition

/-! ## Keys -/

theorem SortColumn.space_not_mem_label (c : SortColumn) : ' ' ∉ c.label.toList := by
  cases c <;> simp [label]

theorem SortColumn.label_injective {c d : SortColumn} (h : c.label.toList = d.label.toList) : c = d := by
  cases c <;> cases d <;> first | rfl | simp [label] at h

theorem Direction.cut {d e : Direction} {x y : List Char}
    (h : d.label.toList ++ (" LIMIT ".toList ++ x) = e.label.toList ++ (" LIMIT ".toList ++ y)) :
    d = e ∧ x = y := by
  cases d <;> cases e <;> simp [label] at h <;> exact ⟨rfl, h⟩

theorem Direction.exists_rest (d : Direction) (x : List Char) :
    ∃ z, d.label.toList ++ (" LIMIT ".toList ++ x) = ' ' :: z := by
  cases d <;> simp [label]

theorem Sorting.cut {s t : Sorting} {x y : List Char}
    (h : s.statement.toList ++ (" LIMIT ".toList ++ x) = t.statement.toList ++ (" LIMIT ".toList ++ y)) :
    s = t ∧ x = y := by
  obtain ⟨c, d⟩ := s
  obtain ⟨c', e⟩ := t
  obtain ⟨z, hz⟩ := d.exists_rest x
  obtain ⟨z', hz'⟩ := e.exists_rest y
  have h' : c.label.toList ++ ' ' :: z = c'.label.toList ++ ' ' :: z' := by
    rw [← hz, ← hz']
    simpa [statement] using h
  obtain ⟨hc, hzz⟩ := cut_before c.space_not_mem_label c'.space_not_mem_label h'
  obtain ⟨rfl, hxy⟩ := Direction.cut (hz.trans ((congrArg _ hzz).trans hz'.symm))
  exact ⟨by rw [SortColumn.label_injective hc], hxy⟩

/-- The end of a statement tells whether it sorts, and how. -/
theorem Sorting.cut_option {s t : Option Sorting} {x y : List Char}
    (h : ((s.map statement).getD "").toList ++ (" LIMIT ".toList ++ x) =
      ((t.map statement).getD "").toList ++ (" LIMIT ".toList ++ y)) : s = t ∧ x = y := by
  cases s with
  | none =>
      cases t with
      | none => exact ⟨rfl, by simpa using h⟩
      | some t => simp [statement] at h
  | some s =>
      cases t with
      | none => simp [statement] at h
      | some t =>
          obtain ⟨hst, hxy⟩ := Sorting.cut h
          exact ⟨congrArg some hst, hxy⟩

theorem Sorting.follows (s : Option Sorting) (x : List Char) :
    Condition.Follows (((s.map statement).getD "").toList ++ (" LIMIT ".toList ++ x)) := by
  cases s with
  | none => exact .inr ⟨x, rfl⟩
  | some s =>
      refine .inl ⟨s.column.label.toList ++ (s.direction.label.toList ++ (" LIMIT ".toList ++ x)), ?_⟩
      simp [statement]

namespace Query

variable {q q' : Query} {kinds kinds' : List String}

theorem toList_key (q : Query) (kinds : List String) : (q.key kinds).toList =
    ("SELECT " ++ columnList ++ " FROM tags WHERE ").toList ++
      ((joined " AND " (q.conditions.map Condition.statement)).toList ++
        (((q.sorting.map Sorting.statement).getD "").toList ++ (" LIMIT ".toList ++
          ((toString q.limit).toList ++ ' ' :: '[' ::
            ((joined ", " (q.values.map Value.display)).toList ++ ']' :: (kindsText kinds).toList))))) := by
  simp [key, statement]

/-- The key of a lookup tells its query, and the kinds of its filter as they stand in a row. -/
theorem key_eq_iff : q.key kinds = q'.key kinds' ↔ q = q' ∧ kindsText kinds = kindsText kinds' := by
  constructor
  · intro h
    have hkey := congrArg String.toList h
    rw [toList_key, toList_key] at hkey
    obtain ⟨hshape, htail⟩ := Condition.cut_list (Sorting.follows _ _) (Sorting.follows _ _)
      (List.append_cancel_left hkey)
    obtain ⟨hsorting, hlimit⟩ := Sorting.cut_option htail
    obtain ⟨hn, hvalues⟩ := cut_natural (by decide) hlimit
    obtain ⟨hv, hkinds⟩ := Value.cut_list (List.cons.inj hvalues).2
    obtain ⟨conditions, sorting, limit⟩ := q
    obtain ⟨conditions', sorting', limit'⟩ := q'
    obtain rfl : conditions = conditions' := Condition.list_eq_of_shape hshape hv
    obtain rfl : sorting = sorting' := hsorting
    obtain rfl : limit = limit' := hn
    exact ⟨rfl, String.toList_inj.mp hkinds⟩
  · rintro ⟨rfl, h⟩
    rw [key, key, h]

end Query
end TagIndex
