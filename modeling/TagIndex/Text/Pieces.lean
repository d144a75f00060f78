import TagIndex.Text.Blank

/-!
Texts cut at separators: at one character, at `::`, and comma lists. A comma list is written with
bare commas and read leniently: its items are trimmed and empty ones are left out.
-/
namespace TagIndex.Text

/-- The pieces of a text between the characters that satisfy `p`; there is always at least one. -/
def splitBy (p : Char → Bool) : List Char → List (List Char)
  | [] => [[]]
  | c :: cs =>
    if p c then [] :: splitBy p cs
    else
      match splitBy p cs with
      | [] => [[c]]
      | w :: ws => (c :: w) :: ws

def join (sep : List Char) : List (List Char) → List Char
  | [] => []
  | [w] => w
  | w :: ws => w ++ sep ++ join sep ws

/-- The text after the last character that satisfies `p`, or all of it. -/
def afterLast (p : Char → Bool) : List Char → List Char
  | [] => []
  | c :: cs => if cs.any p then afterLast p cs else if p c then cs else c :: cs

/-- The part of a reversed text before its first `::`. -/
def untilColons : List Char → List Char
  | ':' :: ':' :: _ => []
  | c :: cs => c :: untilColons cs
  | [] => []

/-- The last segment of a path whose segments are separated by `::`. -/
def lastSegment (cs : List Char) : List Char := (untilColons cs.reverse).reverse

/-- The segments of a path, cut at each `::` from the left. -/
def segments : List Char → List (List Char)
  | ':' :: ':' :: cs => [] :: segments cs
  | c :: cs =>
    match segments cs with
    | [] => [[c]]
    | w :: ws => (c :: w) :: ws
  | [] => [[]]

def items (cs : List Char) : List (List Char) :=
  ((splitBy (· == ',') cs).map trim).filter (!·.isEmpty)

section AfterLast

variable {p : Char → Bool} {front part : List Char}

/-- The part has no separator in it, and what stands in front of it ends with one. -/
theorem afterLast_parts (p : Char → Bool) (cs : List Char) : (∀ c ∈ afterLast p cs, p c = false) ∧
    ∃ front, cs = front ++ afterLast p cs ∧ ∀ c ∈ front.getLast?, p c := by
  induction cs with
  | nil => exact ⟨nofun, [], rfl, nofun⟩
  | cons c cs ih =>
      obtain ⟨hplain, front, hparts, hended⟩ := ih
      unfold afterLast
      split
      · rename_i hany
        refine ⟨hplain, c :: front, congrArg (c :: ·) hparts, ?_⟩
        cases front with
        | nil =>
            obtain ⟨d, hd, hp⟩ := List.any_eq_true.mp hany
            rw [List.nil_append] at hparts
            rw [hplain d (hparts ▸ hd)] at hp
            cases hp
        | cons d front => exact hended
      · rename_i hnone
        have hcs : ∀ d ∈ cs, p d = false := by simpa using hnone
        split
        · exact ⟨hcs, [c], rfl, by simpa⟩
        · exact ⟨by simpa [‹¬ p c›] using hcs, [], rfl, nofun⟩

theorem afterLast_of_plain (h : ∀ c ∈ part, p c = false) : afterLast p part = part := by
  cases part with
  | nil => rfl
  | cons c part =>
      obtain ⟨hc, hpart⟩ := List.forall_mem_cons.mp h
      have hnone : part.any p = false := by simpa using hpart
      rw [afterLast, hnone, hc]
      rfl

theorem afterLast_append (hpart : ∀ c ∈ part, p c = false) (hfront : ∀ c ∈ front.getLast?, p c) :
    afterLast p (front ++ part) = part := by
  induction front with
  | nil => exact afterLast_of_plain hpart
  | cons c front ih =>
      rw [List.cons_append, afterLast]
      cases front with
      | nil =>
          have hc : p c := hfront c rfl
          have hnone : part.any p = false := by simpa using hpart
          rw [List.nil_append, hnone, hc]
          rfl
      | cons d front =>
          have hany : (d :: front ++ part).any p := by
            obtain ⟨e, he⟩ := Option.isSome_iff_exists.mp (List.getLast?_isSome.mpr (List.cons_ne_nil d front))
            exact List.any_eq_true.mpr ⟨e, List.mem_append_left _ (List.mem_of_getLast? he), hfront e he⟩
          rw [hany]
          exact ih hfront

end AfterLast

theorem splitBy_ne_nil (p : Char → Bool) (cs : List Char) : splitBy p cs ≠ [] := by
  cases cs with
  | nil => simp [splitBy]
  | cons c cs =>
    unfold splitBy
    split
    · simp
    · split <;> simp

def itemsOf (s : String) : List String := (items s.toList).map String.ofList

def joined (sep : String) (ws : List String) : String := sep.intercalate ws

end TagIndex.Text
