import TagIndex.Text.PrefixRange

/-!
# Ranges of prefixes

The texts that start with a given one are those from the text itself up to, and not including, its upper end.
Texts are ordered by their characters, which is the order of their bytes in UTF-8.
-/

namespace TagIndex.Text

variable {c d e : Char}

/-! ## The next character -/

theorem toNat_ofNat {n : Nat} (h : n.isValidChar) : (Char.ofNat n).toNat = n := by
  rw [Char.ofNat, dif_pos h]
  rfl

theorem char_lt_iff : c < d ↔ c.toNat < d.toNat := .rfl

/-- There is no character between one and the next. -/
theorem lt_iff_of_nextChar (h : nextChar c = some d) : e < d ↔ ¬ c < e := by
  have hc : c.toNat < 0xD800 ∨ 0xDFFF < c.toNat ∧ c.toNat < 0x110000 := c.valid
  have he : e.toNat < 0xD800 ∨ 0xDFFF < e.toNat ∧ e.toNat < 0x110000 := e.valid
  rw [char_lt_iff, char_lt_iff]
  unfold nextChar at h
  split at h
  · obtain rfl := Option.some.inj h
    rw [toNat_ofNat (by decide)]
    omega
  split at h
  · cases h
  · obtain rfl := Option.some.inj h
    have hvalid : (c.toNat + 1).isValidChar := by unfold Nat.isValidChar; omega
    rw [toNat_ofNat hvalid]
    omega

theorem not_lt_of_nextChar (h : nextChar c = none) (e : Char) : ¬ c < e := by
  have he : e.toNat < 0xD800 ∨ 0xDFFF < e.toNat ∧ e.toNat < 0x110000 := e.valid
  unfold nextChar at h
  split at h
  · cases h
  split at h
  · rw [char_lt_iff]
    omega
  · cases h

/-! ## The range of a prefix -/

theorem isPrefix_iff_between (p n : List Char) :
    p <+: n ↔ ¬ n < p ∧ ∀ u, upperEnd p = some u → n < u := by
  induction p generalizing n with
  | nil => simp [upperEnd]
  | cons c cs ih =>
      cases n with
      | nil => simp
      | cons e es =>
          rw [List.cons_prefix_cons, List.cons_lt_cons_iff, ih, upperEnd]
          cases hu : upperEnd cs with
          | some ds =>
              simp only [Option.some.injEq, forall_eq', List.cons_lt_cons_iff]
              constructor
              · rintro ⟨rfl, hle, hlt⟩
                exact ⟨by simp [hle], .inr ⟨rfl, hlt⟩⟩
              · rintro ⟨hno, hlt | ⟨rfl, hlt⟩⟩
                · exact absurd (.inl hlt) hno
                · exact ⟨rfl, fun hlt' => hno (.inr ⟨rfl, hlt'⟩), hlt⟩
          | none =>
              -- All of `cs` is maximal, so the bound has to come from the first character.
              have hsame : ¬ c < e → ¬ (e < c ∨ e = c ∧ es < cs) → c = e ∧ ¬ es < cs := by
                intro hno hno'
                have he : c = e := Char.le_antisymm (Char.not_lt.mp fun h => hno' (.inl h)) (Char.not_lt.mp hno)
                exact ⟨he, fun h => hno' (.inr ⟨he.symm, h⟩)⟩
              cases hd : nextChar c with
              | some d =>
                  have hbelow : e :: es < [d] ↔ ¬ c < e := by
                    rw [← lt_iff_of_nextChar hd, List.cons_lt_cons_iff]
                    simp
                  simp only [Option.map_some, Option.some.injEq, forall_eq', hbelow]
                  constructor
                  · rintro ⟨rfl, hle, _⟩
                    exact ⟨by simp [hle], Char.lt_irrefl _⟩
                  · rintro ⟨hno', hno⟩
                    exact ⟨(hsame hno hno').1, (hsame hno hno').2, nofun⟩
              | none =>
                  have hno : ¬ c < e := not_lt_of_nextChar hd e
                  simp only [Option.map_none, reduceCtorEq, false_implies, implies_true, and_true]
                  constructor
                  · rintro ⟨rfl, hle⟩
                    simp [hle]
                  · exact hsame hno

theorem startsWith_iff_between (p n : String) :
    p.toList <+: n.toList ↔ p ≤ n ∧ ∀ u, upperEndOf p = some u → n < u := by
  rw [isPrefix_iff_between]
  refine and_congr .rfl ?_
  simp only [upperEndOf, Option.map_eq_some_iff, forall_exists_index, and_imp, forall_apply_eq_imp_iff₂,
    String.lt_iff, String.toList_ofList]

/-! ## The order of bytes -/

/-- The first byte tells how many bytes follow, and all of them are digits, the largest first. -/
theorem utf8EncodeChar_lt (h : c < d) (x y : List UInt8) :
    String.utf8EncodeChar c ++ x < String.utf8EncodeChar d ++ y := by
  have hd : d.val.toNat < 0xD800 ∨ 0xDFFF < d.val.toNat ∧ d.val.toNat < 0x110000 := d.valid
  have h : c.val.toNat < d.val.toNat := h
  have hlast : ∀ k, (k % 64 + 128) % 256 = k % 64 + 128 := by omega
  have htwo : ∀ k, (k % 32 + 192) % 256 = k % 32 + 192 := by omega
  have hthree : ∀ k, (k % 16 + 224) % 256 = k % 16 + 224 := by omega
  unfold String.utf8EncodeChar
  dsimp only
  generalize c.val.toNat = m at *
  generalize d.val.toNat = n at *
  have h₁ : m / 64 < n / 64 ∨ m / 64 = n / 64 ∧ m % 64 < n % 64 := by omega
  have h₂ : m / 4096 < n / 4096 ∨ m / 4096 = n / 4096 ∧ m / 64 % 64 ≤ n / 64 % 64 := by omega
  have h₃ : m / 262144 < n / 262144 ∨ m / 262144 = n / 262144 ∧ m / 4096 % 64 ≤ n / 4096 % 64 := by omega
  have hm : m / 262144 % 8 = m / 262144 := by omega
  have hn : n / 262144 % 8 = n / 262144 := by omega
  repeat' split
  all_goals simp only [List.cons_append, List.nil_append, List.cons_lt_cons_iff, UInt8.lt_iff_toNat_lt,
    ← UInt8.toNat_inj, UInt8.toNat_ofNat', Nat.reducePow, hlast, htwo, hthree, hm, hn]
  all_goals omega

theorem append_lt_append {a b : List UInt8} (l : List UInt8) (h : a < b) : l ++ a < l ++ b := by
  induction l with
  | nil => exact h
  | cons c l ih => exact List.cons_lt_cons_iff.mpr (.inr ⟨rfl, ih⟩)

theorem flatMap_utf8EncodeChar_lt {s t : List Char} (h : s < t) :
    s.flatMap String.utf8EncodeChar < t.flatMap String.utf8EncodeChar := by
  induction s generalizing t with
  | nil =>
      cases t with
      | nil => exact absurd h (List.lt_irrefl _)
      | cons d t =>
          obtain ⟨b, bs, hb⟩ := List.exists_cons_of_ne_nil (String.utf8EncodeChar_ne_nil (c := d))
          rw [List.flatMap_cons, List.flatMap_nil, hb]
          exact List.nil_lt_cons _ _
  | cons c s ih =>
      cases t with
      | nil => cases h
      | cons d t =>
          rw [List.flatMap_cons, List.flatMap_cons]
          rcases List.cons_lt_cons_iff.mp h with h | ⟨rfl, hrest⟩
          · exact utf8EncodeChar_lt h _ _
          · exact append_lt_append _ (ih hrest)

theorem lt_iff_utf8_lt (s t : String) : s < t ↔ s.toByteArray.data.toList < t.toByteArray.data.toList := by
  have hbytes : ∀ s : String, s.toByteArray.data.toList = s.toList.flatMap String.utf8EncodeChar := by
    intro s
    rw [← String.utf8Encode_toList, List.utf8Encode, List.toList_data_toByteArray]
  rw [hbytes, hbytes, String.lt_iff]
  refine ⟨flatMap_utf8EncodeChar_lt, fun h => Decidable.byContradiction fun hno => ?_⟩
  rcases List.le_iff_lt_or_eq.mp (List.not_lt.mp hno) with hlt | he
  · exact List.lt_asymm h (flatMap_utf8EncodeChar_lt hlt)
  · exact List.lt_irrefl _ (he ▸ h)

end TagIndex.Text
