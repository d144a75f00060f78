import Mathlib.Data.List.Basic
import Std.Data.String.ToInt
import TagIndex.Query.Key

/-!
# Renderings that can be cut off

A rendering can be cut off if a text that starts with it tells what was rendered and where it ends. Quoted
texts, values and lists of values can.
-/

namespace TagIndex

namespace Text

variable {α β : Type} {f : α → List Char} {g : α → β} {T : List Char → Prop}

/-- A text that is a rendering and a rest, as `T` allows it, tells the rest and what was rendered, as far
as `g` shows it. -/
def Cut (T : List Char → Prop) (f : α → List Char) (g : α → β) : Prop :=
  ∀ a b x y, T x → T y → f a ++ x = f b ++ y → g a = g b ∧ x = y

/-- A rendering that can be cut off from any rest. -/
abbrev Delimited (f : α → List Char) : Prop := Cut (fun _ => True) f id

theorem cut_before {c : Char} {l l' x y : List Char} (hl : c ∉ l) (hl' : c ∉ l')
    (h : l ++ c :: x = l' ++ c :: y) : l = l' ∧ x = y := by
  induction l generalizing l' with
  | nil =>
      cases l' with
      | nil => exact ⟨rfl, (List.cons.inj h).2⟩
      | cons d l' => exact absurd ((List.cons.inj h).1 ▸ List.mem_cons_self) hl'
  | cons d l ih =>
      cases l' with
      | nil => exact absurd ((List.cons.inj h).1 ▸ List.mem_cons_self) hl
      | cons d' l' =>
          obtain ⟨rfl, ht⟩ := List.cons.inj h
          obtain ⟨rfl, hxy⟩ := ih (fun hm => hl (List.mem_cons_of_mem _ hm))
            (fun hm => hl' (List.mem_cons_of_mem _ hm)) ht
          exact ⟨rfl, hxy⟩

/-! ## Lists -/

/-- Renderings in a row, each after a separator. -/
def row (sep : List Char) (f : α → List Char) (as : List α) : List Char :=
  as.flatMap fun a => sep ++ f a

theorem intercalate_cons_eq_row (sep : List Char) (f : α → List Char) (a : α) (as : List α) :
    List.intercalate sep (f a :: as.map f) = f a ++ row sep f as := by
  induction as generalizing a with
  | nil => simp [row]
  | cons b as ih =>
      rw [List.map_cons, List.intercalate_cons_cons, ih]
      simp [row]

/-- A row can be cut off from what does not go on with one more rendering. -/
theorem Cut.row (h : Cut T f g) (sep : List Char) {E : List Char → Prop}
    (hE : ∀ x a z, E x → x ≠ sep ++ (f a ++ z)) (hT : ∀ as x, E x → T (row sep f as ++ x)) :
    Cut E (row sep f) (List.map g) := by
  intro as bs x y hx hy
  induction as generalizing bs with
  | nil =>
      cases bs with
      | nil => exact fun he => ⟨rfl, he⟩
      | cons b bs =>
          refine fun he => absurd ?_ (hE x b (Text.row sep f bs ++ y) hx)
          simpa [Text.row] using he
  | cons a as ih =>
      cases bs with
      | nil =>
          refine fun he => absurd ?_ (hE y a (Text.row sep f as ++ x) hy)
          simpa [Text.row] using he.symm
      | cons b bs =>
          intro he
          have he' : f a ++ (Text.row sep f as ++ x) = f b ++ (Text.row sep f bs ++ y) := by
            simpa [Text.row] using he
          obtain ⟨hg, hrest⟩ := h a b _ _ (hT as x hx) (hT bs y hy) he'
          obtain ⟨hgs, hxy⟩ := ih bs hrest
          exact ⟨by rw [List.map_cons, List.map_cons, hg, hgs], hxy⟩

/-- So can renderings with separators between them, if what follows is none of them either. -/
theorem Cut.joined (h : Cut T f g) (sep : List Char) {E : List Char → Prop}
    (hE : ∀ x a z, E x → x ≠ sep ++ (f a ++ z)) (hE' : ∀ x a z, E x → x ≠ f a ++ z)
    (hT : ∀ as x, E x → T (Text.row sep f as ++ x)) :
    Cut E (fun as => List.intercalate sep (as.map f)) (List.map g) := by
  intro as bs x y hx hy he
  dsimp only at he
  cases as with
  | nil =>
      cases bs with
      | nil => exact ⟨rfl, he⟩
      | cons b bs =>
          rw [List.map_cons, intercalate_cons_eq_row, List.append_assoc] at he
          exact absurd he (hE' x b _ hx)
  | cons a as =>
      cases bs with
      | nil =>
          rw [List.map_cons, intercalate_cons_eq_row, List.append_assoc] at he
          exact absurd he.symm (hE' y a _ hy)
      | cons b bs =>
          rw [List.map_cons, List.map_cons, intercalate_cons_eq_row, intercalate_cons_eq_row,
            List.append_assoc, List.append_assoc] at he
          obtain ⟨hg, hrest⟩ := h a b _ _ (hT as x hx) (hT bs y hy) he
          obtain ⟨hgs, hxy⟩ := h.row sep hE hT as bs x y hx hy hrest
          exact ⟨by rw [List.map_cons, List.map_cons, hg, hgs], hxy⟩

/-! ## Numbers -/

theorem digitChar_injective {m n : Nat} (hm : m < 16) (hn : n < 16)
    (h : Nat.digitChar m = Nat.digitChar n) : m = n := by
  have : ∀ m < 16, ∀ n < 16, Nat.digitChar m = Nat.digitChar n → m = n := by decide
  exact this m hm n hn h

theorem toDigits_sixteen_injective {m n : Nat} (h : Nat.toDigits 16 m = Nat.toDigits 16 n) :
    m = n := by
  have hone : ∀ k d, 1 ≠ (Nat.toDigits 16 k ++ [d]).length := by
    intro k d
    have := Nat.length_toDigits_pos (b := 16) (n := k)
    simp only [List.length_append, List.length_singleton]
    omega
  induction m using Nat.strongRecOn generalizing n with
  | _ m ih =>
      rcases Nat.lt_or_ge m 16 with hm | hm <;> rcases Nat.lt_or_ge n 16 with hn | hn
      · rw [Nat.toDigits_of_lt_base hm, Nat.toDigits_of_lt_base hn] at h
        exact digitChar_injective hm hn (List.singleton_inj.mp h)
      · rw [Nat.toDigits_of_lt_base hm, Nat.toDigits_of_base_le (by decide) hn] at h
        exact absurd (congrArg List.length h) (hone _ _)
      · rw [Nat.toDigits_of_base_le (by decide) hm, Nat.toDigits_of_lt_base hn] at h
        exact absurd (congrArg List.length h).symm (hone _ _)
      · rw [Nat.toDigits_of_base_le (by decide) hm, Nat.toDigits_of_base_le (by decide) hn] at h
        obtain ⟨hq, hr⟩ := List.append_inj' h rfl
        have hquot := ih (m / 16) (by omega) hq
        have hrem := digitChar_injective (Nat.mod_lt m (by decide)) (Nat.mod_lt n (by decide))
          (List.singleton_inj.mp hr)
        omega

theorem not_mem_toDigits {b n : Nat} {c : Char} (hb : 1 < b) (hb' : b ≤ 16)
    (hc : ∀ d < 16, Nat.digitChar d ≠ c) : c ∉ Nat.toDigits b n := by
  induction n using Nat.strongRecOn with
  | _ n ih =>
      rw [Nat.toDigits_eq_if hb]
      split
      · rename_i hn
        simpa using (hc n (by omega)).symm
      · rename_i hn
        have hdiv : n / b < n := Nat.div_lt_self (by omega) hb
        have hmod : n % b < b := Nat.mod_lt n (by omega)
        rw [List.mem_append, List.mem_singleton]
        rintro (h | h)
        · exact ih _ hdiv h
        · exact hc _ (by omega) h.symm

theorem not_mem_natural {n : Nat} {c : Char} (hc : ∀ d < 16, Nat.digitChar d ≠ c) :
    c ∉ (toString n).toList := by
  rw [Nat.toString_eq_repr, Nat.toList_repr]
  exact not_mem_toDigits (by decide) (by decide) hc

theorem not_mem_integer {n : Int} {c : Char} (hc : ∀ d < 16, Nat.digitChar d ≠ c) (hs : c ≠ '-') :
    c ∉ (toString n).toList := by
  cases n with
  | ofNat n => exact not_mem_natural hc
  | negSucc n =>
      rw [Int.toString_eq_repr, show (Int.negSucc n).repr = "-" ++ Nat.repr (n + 1) from rfl,
        String.toList_append, List.mem_append]
      rintro (h | h)
      · exact hs (by simpa using h)
      · exact not_mem_natural hc h

theorem cut_natural {x y : List Char} {m n : Nat} {c : Char} (hc : ∀ d < 16, Nat.digitChar d ≠ c)
    (h : (toString m).toList ++ c :: x = (toString n).toList ++ c :: y) : m = n ∧ x = y := by
  obtain ⟨hd, hxy⟩ := cut_before (not_mem_natural hc) (not_mem_natural hc) h
  exact ⟨Nat.repr_injective (String.toList_inj.mp hd), hxy⟩

/-! ## Quoted texts -/

/-- The character that is meant by the one after a backslash. -/
def unescape : Char → Char
  | '0' => '\x00'
  | 't' => '\t'
  | 'n' => '\n'
  | 'r' => '\r'
  | c => c

/-- A character is displayed as it is, after a backslash, or by its number. -/
theorem displayChar_cases (c : Char) :
    (displayChar c).toList = [c] ∧ c ≠ '\\' ∧ c ≠ '"' ∨
    (∃ d, (displayChar c).toList = ['\\', d] ∧ d ≠ 'u' ∧ unescape d = c) ∨
    (displayChar c).toList = '\\' :: 'u' :: '\x7b' :: (Nat.toDigits 16 c.toNat ++ ['\x7d']) := by
  unfold displayChar
  by_cases h0 : c = '\x00'
  · exact .inr (.inl ⟨'0', by simp [h0], by decide, h0.symm⟩)
  by_cases ht : c = '\t'
  · exact .inr (.inl ⟨'t', by simp [ht], by decide, ht.symm⟩)
  by_cases hn : c = '\n'
  · exact .inr (.inl ⟨'n', by simp [hn], by decide, hn.symm⟩)
  by_cases hr : c = '\r'
  · exact .inr (.inl ⟨'r', by simp [hr], by decide, hr.symm⟩)
  by_cases hq : c = '"'
  · exact .inr (.inl ⟨'"', by simp [hq], by decide, hq.symm⟩)
  by_cases hb : c = '\\'
  · exact .inr (.inl ⟨'\\', by simp [hb], by decide, hb.symm⟩)
  simp only [h0, ht, hn, hr, hq, hb, if_false, decide_false, Bool.or_self, Bool.false_eq_true]
  split
  · exact .inr (.inr (by simp [hexText]))
  · exact .inl ⟨by simp, hb, hq⟩

theorem delimited_displayChar : Delimited fun c => (displayChar c).toList := by
  intro c d x y _ _ h
  dsimp only at h
  rcases displayChar_cases c with ⟨hc, hcb, _⟩ | ⟨c', hc, hcu, rfl⟩ | hc <;>
    rcases displayChar_cases d with ⟨hd, hdb, _⟩ | ⟨d', hd, hdu, rfl⟩ | hd <;> rw [hc, hd] at h
  · simpa using h
  · exact absurd (List.cons.inj h).1 hcb
  · exact absurd (List.cons.inj h).1 hcb
  · exact absurd (List.cons.inj h).1.symm hdb
  · have h' : c' = d' ∧ x = y := by simpa using h
    exact ⟨congrArg unescape h'.1, h'.2⟩
  · exact absurd (List.cons.inj (List.cons.inj h).2).1 hcu
  · exact absurd (List.cons.inj h).1.symm hdb
  · exact absurd (List.cons.inj (List.cons.inj h).2).1.symm hdu
  · have hno := fun k : Nat => not_mem_toDigits (b := 16) (n := k) (c := '\x7d') (by decide)
      (by decide) (by decide)
    have h' : Nat.toDigits 16 c.toNat ++ '\x7d' :: x = Nat.toDigits 16 d.toNat ++ '\x7d' :: y := by
      simpa using h
    obtain ⟨hn, hxy⟩ := cut_before (hno _) (hno _) h'
    exact ⟨Char.toNat_inj.mp (toDigits_sixteen_injective hn), hxy⟩

theorem quote_ne_displayChar (c : Char) (x z : List Char) : '"' :: x ≠ (displayChar c).toList ++ z := by
  rcases displayChar_cases c with ⟨hc, _, hq⟩ | ⟨d, hc, _⟩ | hc <;> rw [hc] <;> intro h
  · exact hq (List.cons.inj h).1.symm
  · exact absurd (List.cons.inj h).1 (by decide)
  · exact absurd (List.cons.inj h).1 (by decide)

theorem delimited_display : Delimited fun s => (display s).toList := by
  intro s t x y _ _ h
  have hrow := delimited_displayChar.row [] (E := fun x => ∃ z, x = '"' :: z)
    (fun x c z ⟨w, hw⟩ => hw ▸ quote_ne_displayChar c w z) fun _ _ _ => trivial
  have h' : row [] (fun c => (displayChar c).toList) s.toList ++ '"' :: x =
      row [] (fun c => (displayChar c).toList) t.toList ++ '"' :: y := by
    simpa [display, row, List.flatMap_map] using h
  obtain ⟨hst, hxy⟩ := hrow _ _ _ _ ⟨x, rfl⟩ ⟨y, rfl⟩ h'
  rw [List.map_id, List.map_id] at hst
  exact ⟨String.toList_inj.mp hst, (List.cons.inj hxy).2⟩

end Text

/-! ## Values -/

namespace Value

open Text

theorem display_text (s : String) : (text s).display.toList = "Text(".toList ++
    (Text.display s).toList ++ [')'] := by
  simp [display]

theorem display_integer (n : Int) : (integer n).display.toList = "Integer(".toList ++
    (toString n).toList ++ [')'] := by
  simp [display]

theorem delimited_display : Delimited fun v : Value => v.display.toList := by
  intro v w x y _ _ h
  dsimp only at h
  cases v with
  | text s =>
      cases w with
      | text t =>
          have h' : (Text.display s).toList ++ ')' :: x = (Text.display t).toList ++ ')' :: y := by
            simpa [display_text] using h
          obtain ⟨hst, hxy⟩ := Text.delimited_display s t _ _ trivial trivial h'
          exact ⟨congrArg text hst, (List.cons.inj hxy).2⟩
      | integer n => simp [display_text, display_integer] at h
  | integer m =>
      cases w with
      | text t => simp [display_text, display_integer] at h
      | integer n =>
          have h' : (toString m).toList ++ ')' :: x = (toString n).toList ++ ')' :: y := by
            simpa [display_integer] using h
          have hno := fun k : Int => not_mem_integer (n := k) (c := ')') (by decide) (by decide)
          obtain ⟨hmn, hxy⟩ := cut_before (hno m) (hno n) h'
          exact ⟨congrArg integer (Int.repr_injective (String.toList_inj.mp hmn)), hxy⟩

theorem cut_list {vs ws : List Value} {x y : List Char}
    (h : (joined ", " (vs.map display)).toList ++ ']' :: x =
      (joined ", " (ws.map display)).toList ++ ']' :: y) : vs = ws ∧ x = y := by
  have hjoined := delimited_display.joined ", ".toList (E := fun x => ∃ z, x = ']' :: z)
    (by rintro _ v z ⟨w, rfl⟩; simp)
    (by rintro _ v z ⟨w, rfl⟩; cases v <;> simp [display_text, display_integer])
    fun _ _ _ => trivial
  have h' : List.intercalate ", ".toList (vs.map fun v => v.display.toList) ++ ']' :: x =
      List.intercalate ", ".toList (ws.map fun v => v.display.toList) ++ ']' :: y := by
    simpa [joined, String.toList_intercalate, List.map_map, Function.comp_def] using h
  obtain ⟨hvw, hxy⟩ := hjoined vs ws _ _ ⟨x, rfl⟩ ⟨y, rfl⟩ h'
  rw [List.map_id, List.map_id] at hvw
  exact ⟨hvw, (List.cons.inj hxy).2⟩

end Value
end TagIndex
