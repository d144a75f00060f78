/-! Texts cut to a number of characters. -/
namespace TagIndex.Text

/-- A text of at most `size` characters is kept; a longer one loses its end to three dots. -/
def shortened (s : String) (size : Nat) : String :=
  if s.length ≤ size then s else String.ofList (s.toList.take (size - 3)) ++ "..."

/-- A text is never longer than the room for it, as long as there is room for the dots. -/
theorem length_shortened {s : String} {size : Nat} (h : 3 ≤ size) :
    (shortened s size).length = min s.length size := by
  unfold shortened
  split
  · omega
  · rename_i hlong
    have hdots : "...".length = 3 := rfl
    have hlength : s.toList.length = s.length := String.length_toList
    rw [String.length_append, String.length_ofList, List.length_take, hdots]
    omega

end TagIndex.Text
