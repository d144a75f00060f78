import Mathlib.Data.List.Basic
import Mathlib.Data.List.TakeWhile
import TagIndex.Text.Pieces

/-!
# Comma lists

The items of a list are trimmed, not empty, and have no commas. So they are read back from the text that
joins them.
-/

namespace TagIndex.Text

variable {c : Char} {cs w : List Char} {s : String}

/-! ## Pieces -/

theorem splitBy_eq_splitOnP (p : Char → Bool) (cs : List Char) : splitBy p cs = cs.splitOnP p := by
  induction cs with
  | nil => rfl
  | cons c cs ih =>
      rw [List.splitOnP_cons_eq_if_modifyHead, ← ih, splitBy]
      split
      · rfl
      · obtain ⟨w, ws, hw⟩ := List.exists_cons_of_ne_nil (splitBy_ne_nil p cs)
        rw [hw]
        rfl

theorem not_mem_of_mem_splitBy (hw : w ∈ splitBy (· == c) cs) : c ∉ w := by
  induction cs generalizing w with
  | nil =>
      rw [List.mem_singleton.mp hw]
      exact List.not_mem_nil
  | cons d cs ih =>
      rw [splitBy] at hw
      split at hw
      · rcases List.mem_cons.mp hw with rfl | hw
        · exact List.not_mem_nil
        · exact ih hw
      · rename_i hd
        obtain ⟨v, vs, hv⟩ := List.exists_cons_of_ne_nil (splitBy_ne_nil (· == c) cs)
        rw [hv] at hw ih
        rcases List.mem_cons.mp hw with rfl | hw
        · exact List.not_mem_cons_of_ne_of_not_mem (fun he => hd (by simp [he])) (ih List.mem_cons_self)
        · exact ih (List.mem_cons_of_mem _ hw)

theorem mem_of_mem_splitBy {p : Char → Bool} (hw : w ∈ splitBy p cs) (hc : c ∈ w) : c ∈ cs := by
  induction cs generalizing w with
  | nil =>
      rw [List.mem_singleton.mp hw] at hc
      cases hc
  | cons d cs ih =>
      rw [splitBy] at hw
      split at hw
      · rcases List.mem_cons.mp hw with rfl | hw
        · cases hc
        · exact List.mem_cons_of_mem d (ih hw hc)
      · obtain ⟨v, vs, hv⟩ := List.exists_cons_of_ne_nil (splitBy_ne_nil p cs)
        rw [hv] at hw ih
        rcases List.mem_cons.mp hw with rfl | hw
        · exact (List.mem_cons.mp hc).elim (· ▸ List.mem_cons_self) fun hc =>
            List.mem_cons_of_mem d (ih List.mem_cons_self hc)
        · exact List.mem_cons_of_mem d (ih (List.mem_cons_of_mem v hw) hc)

theorem mem_intercalate {sep : List Char} {ws : List (List Char)} (h : c ∈ sep.intercalate ws) :
    c ∈ sep ∨ ∃ w ∈ ws, c ∈ w := by
  induction ws with
  | nil => cases h
  | cons w ws ih =>
      cases ws with
      | nil => exact .inr ⟨w, List.mem_cons_self, by simpa using h⟩
      | cons v ws =>
          rw [List.intercalate_cons_cons, List.append_assoc, List.mem_append, List.mem_append] at h
          rcases h with hw | hsep | hrest
          · exact .inr ⟨w, List.mem_cons_self, hw⟩
          · exact .inl hsep
          · exact (ih hrest).imp_right fun ⟨u, hu, hc⟩ => ⟨u, List.mem_cons_of_mem w hu, hc⟩

/-- Pieces without the separator are read back from the text that it joins them to. -/
theorem splitBy_intercalate {ws : List (List Char)} (h : ∀ w ∈ ws, c ∉ w) (hne : ws ≠ []) :
    splitBy (· == c) ([c].intercalate ws) = ws := by
  rw [splitBy_eq_splitOnP, ← List.splitOn_eq_splitOnP]
  exact List.splitOn_intercalate _ h hne

/-! ## Trimming -/

theorem trimEnd_cons (h : isBlank c = false) : trimEnd (c :: cs) = c :: trimEnd cs := by
  rw [trimEnd]
  cases trimEnd cs with
  | nil => simp [h]
  | cons d ds => rfl

theorem trimEnd_trimEnd (cs : List Char) : trimEnd (trimEnd cs) = trimEnd cs := by
  induction cs with
  | nil => rfl
  | cons c cs ih =>
      rw [trimEnd]
      cases h : trimEnd cs with
      | nil =>
          cases hc : isBlank c with
          | true => rfl
          | false => exact trimEnd_cons hc
      | cons d ds =>
          rw [h] at ih
          simp only [trimEnd] at ih ⊢
          rw [ih]

theorem mem_of_mem_trimEnd (h : c ∈ trimEnd cs) : c ∈ cs := by
  induction cs with
  | nil => exact h
  | cons d cs ih =>
      rw [trimEnd] at h
      cases ht : trimEnd cs with
      | nil =>
          rw [ht] at h
          cases hd : isBlank d <;> simp_all
      | cons e es =>
          rw [ht] at h ih
          exact (List.mem_cons.mp h).elim (· ▸ List.mem_cons_self) fun h => List.mem_cons_of_mem _ (ih h)

theorem mem_of_mem_trim (h : c ∈ trim cs) : c ∈ cs :=
  (List.dropWhile_suffix isBlank).subset (mem_of_mem_trimEnd h)

theorem trimStart_trim (cs : List Char) : trimStart (trim cs) = trim cs := by
  unfold trim
  cases hs : trimStart cs with
  | nil => rfl
  | cons c rest =>
      have hc : isBlank c = false := by
        have hne : cs.dropWhile isBlank ≠ [] := by
          rw [show cs.dropWhile isBlank = c :: rest from hs]
          exact List.cons_ne_nil _ _
        have hhead := List.head_dropWhile_not isBlank hne
        simpa only [show cs.dropWhile isBlank = c :: rest from hs, List.head_cons] using hhead
      rw [trimEnd_cons hc, trimStart, List.dropWhile_cons, hc]
      rfl

theorem trim_trim (cs : List Char) : trim (trim cs) = trim cs := by
  rw [trim, trimStart_trim, trim, trimEnd_trimEnd]

theorem trimStart_eq_self_iff : trimStart cs = cs ↔ ∀ c ∈ cs.head?, isBlank c = false := by
  cases cs with
  | nil => exact ⟨nofun, fun _ => rfl⟩
  | cons c cs => simp [trimStart, List.dropWhile_eq_self_iff]

theorem trimEnd_eq_self_iff : trimEnd cs = cs ↔ ∀ c ∈ cs.getLast?, isBlank c = false := by
  induction cs with
  | nil => exact ⟨nofun, fun _ => rfl⟩
  | cons c cs ih =>
      cases cs with
      | nil => cases hc : isBlank c <;> simp [trimEnd, hc]
      | cons d ds =>
          rw [List.getLast?_cons_cons, ← ih, trimEnd]
          cases trimEnd (d :: ds) with
          | nil => cases isBlank c <;> simp
          | cons e es => simp

/-- Trimming leaves a text as it is if and only if no end of it is blank. -/
theorem trim_eq_self_iff :
    trim cs = cs ↔ (∀ c ∈ cs.head?, isBlank c = false) ∧ ∀ c ∈ cs.getLast?, isBlank c = false := by
  rw [← trimStart_eq_self_iff, ← trimEnd_eq_self_iff]
  constructor
  · intro h
    have hstart : trimStart cs = cs := by rw [← h, trimStart_trim]
    rw [trim, hstart] at h
    exact ⟨hstart, h⟩
  · rintro ⟨hstart, hend⟩
    rw [trim, hstart, hend]

/-! ## Items -/

theorem mem_items (h : w ∈ items cs) : w ≠ [] ∧ ',' ∉ w ∧ trim w = w := by
  obtain ⟨hw, hne⟩ := List.mem_filter.mp h
  obtain ⟨v, hv, rfl⟩ := List.mem_map.mp hw
  refine ⟨fun hnil => ?_, fun hc => not_mem_of_mem_splitBy hv (mem_of_mem_trim hc), trim_trim v⟩
  rw [hnil] at hne
  cases hne

theorem mem_of_mem_items (hw : w ∈ items cs) (hc : c ∈ w) : c ∈ cs := by
  obtain ⟨v, hv, rfl⟩ := List.mem_map.mp (List.mem_of_mem_filter hw)
  exact mem_of_mem_splitBy hv (mem_of_mem_trim hc)

/-- The items of joined pieces are these, trimmed; the empty ones are left out. -/
theorem items_pieces {ws : List (List Char)} (h : ∀ w ∈ ws, ',' ∉ w) :
    items ([','].intercalate ws) = (ws.map trim).filter (!·.isEmpty) := by
  cases ws with
  | nil => rfl
  | cons w ws => rw [items, splitBy_intercalate h (List.cons_ne_nil _ _)]

theorem items_intercalate {ws : List (List Char)} (h : ∀ w ∈ ws, w ≠ [] ∧ ',' ∉ w ∧ trim w = w) :
    items ([','].intercalate ws) = ws := by
  have htrim : ws.map trim = ws := (List.map_congr_left fun w hw => (h w hw).2.2).trans (List.map_id _)
  rw [items_pieces fun w hw => (h w hw).2.1, htrim, List.filter_eq_self]
  exact fun w hw => by simpa using (h w hw).1

theorem toList_joined (sep : String) (ws : List String) :
    (joined sep ws).toList = sep.toList.intercalate (ws.map String.toList) :=
  String.toList_intercalate

theorem map_ofList_toList (ws : List String) : (ws.map String.toList).map String.ofList = ws := by
  rw [List.map_map]
  exact (List.map_congr_left fun _ _ => String.ofList_toList).trans (List.map_id _)

/-- A text that can stand in a comma list: it is not empty, has no comma and no blank end. -/
def IsItem (w : String) : Prop :=
  w ≠ "" ∧ ',' ∉ w.toList ∧ (∀ c ∈ w.toList.head?, isBlank c = false) ∧ ∀ c ∈ w.toList.getLast?, isBlank c = false

instance : DecidablePred IsItem := fun _ => inferInstanceAs (Decidable (_ ∧ _ ∧ _ ∧ _))

theorem isItem_iff {w : String} : IsItem w ↔ w.toList ≠ [] ∧ ',' ∉ w.toList ∧ trim w.toList = w.toList := by
  rw [IsItem, ← trim_eq_self_iff, ne_eq, ne_eq, String.toList_eq_nil_iff]

theorem isItem_of_mem_itemsOf {w : String} (h : w ∈ itemsOf s) : IsItem w := by
  obtain ⟨v, hv, rfl⟩ := List.mem_map.mp h
  rw [isItem_iff, String.toList_ofList]
  exact mem_items hv

/-- A list is read back from the text that joins it if and only if it holds items alone. -/
theorem itemsOf_joined_eq_self_iff {ws : List String} : itemsOf (joined "," ws) = ws ↔ ∀ w ∈ ws, IsItem w := by
  refine ⟨fun h w hw => isItem_of_mem_itemsOf (h ▸ hw), fun h => ?_⟩
  have hread : items (joined "," ws).toList = ws.map String.toList := by
    rw [toList_joined]
    exact items_intercalate (List.forall_mem_map.mpr fun w hw => isItem_iff.mp (h w hw))
  rw [itemsOf, hread, map_ofList_toList]

/-- Items that were read are read again from the text that they are written as. -/
theorem itemsOf_joined (s : String) : itemsOf (joined "," (itemsOf s)) = itemsOf s :=
  itemsOf_joined_eq_self_iff.mpr fun _ => isItem_of_mem_itemsOf

example : itemsOf (joined "," ["A ", "", "B, C"]) = ["A", "B", "C"] := by decide

end TagIndex.Text
