/-!
Tables that number their rows. A new row's id is one more than the largest that its table ever held,
so no id comes twice, not even after its row is gone.
-/
namespace TagIndex

structure Ledger (α : Type) where
  /-- The rows by ascending id, each with its id. -/
  rows : List (Nat × α) := []
  lastId : Nat := 0
  deriving DecidableEq, Repr, Inhabited

namespace Ledger

variable {α : Type}

def values (l : Ledger α) : List α := l.rows.map (·.2)

def keep (l : Ledger α) (p : α → Bool) : Ledger α := { l with rows := l.rows.filter fun r => p r.2 }

def add (l : Ledger α) (a : α) : Ledger α where
  rows := l.rows ++ [(l.lastId + 1, a)]
  lastId := l.lastId + 1

/-- Emptying a table does not set its numbers back. -/
def emptied (l : Ledger α) : Ledger α := { l with rows := [] }

@[simp] theorem values_keep (l : Ledger α) (p : α → Bool) : (l.keep p).values = l.values.filter p := by
  simp only [values, keep, List.filter_map]
  rfl

@[simp] theorem values_add (l : Ledger α) (a : α) : (l.add a).values = l.values ++ [a] := List.map_append

@[simp] theorem values_emptied (l : Ledger α) : l.emptied.values = [] := rfl

theorem keep_keep (l : Ledger α) (p q : α → Bool) : (l.keep p).keep q = l.keep fun a => q a && p a := by
  simp only [keep, List.filter_filter]

theorem keep_add {p : α → Bool} {a : α} (h : p a) (l : Ledger α) : (l.add a).keep p = (l.keep p).add a := by
  simp [keep, add, h]

end Ledger
end TagIndex
