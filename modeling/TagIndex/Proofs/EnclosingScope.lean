import Mathlib.Data.String.Basic
import TagIndex.Proofs.FileLevel

/-!
# The scope around a line

Of the named scopes that a file opens at or before a line, one of the last such line is answered. Where that line opens
several, the first of them by key is, wherever it stands among them: by kind first, and by path within a kind. So of
scopes of one kind the outer one goes before those inside it.
-/

namespace TagIndex

open Lookup Store Query

variable {db : Database} {s : Store} {file : String} {line : Int} {p q r : Row} {rows : List Row}

/-! ## Scopes -/

namespace Tag

variable {t outer : Tag}

/-- The name starts as those of anonymous constructs do, up to the case of letters. -/
def IsUnnamed (t : Tag) : Prop := Text.lowered anonymousPrefix.toList <+: Text.lowered t.name.toList

instance (t : Tag) : Decidable t.IsUnnamed :=
  inferInstanceAs (Decidable (Text.lowered anonymousPrefix.toList <+: Text.lowered t.name.toList))

/-- The tag is declared in the scope that the other one opens, or further inside. -/
def DeclaredInside (t outer : Tag) : Prop :=
  t.scope = outer.path ∨ (outer.path ++ "::").toList <+: t.scope.toList

instance (t outer : Tag) : Decidable (t.DeclaredInside outer) :=
  inferInstanceAs (Decidable (t.scope = outer.path ∨ (outer.path ++ "::").toList <+: t.scope.toList))

/-- What encloses the lines after it is a function or a container, though a union, which is one, does not. -/
theorem kind_mem_enclosing_iff : t.kind ∈ Kind.enclosing ↔ t.isFunction ∨ t.isContainer ∧ t.kind ≠ "union" := by
  by_cases hunion : t.kind = "union"
  · simp [isFunction, Kind.enclosing, Kind.function, hunion]
  · rw [isFunction, decide_eq_true_iff]
    simp [isContainer, Kind.enclosing, Kind.containers, Kind.function, hunion]

/-- A path that goes on from that of an outer scope comes after it. -/
theorem DeclaredInside.path_lt (h : t.DeclaredInside outer) (hp : t.path = t.scope ++ "::" ++ t.name) :
    outer.path < t.path := by
  obtain ⟨rest, hrest⟩ : (outer.path ++ "::").toList <+: t.path.toList := by
    rw [hp]
    rcases h with hscope | ⟨inner, hinner⟩
    · exact ⟨t.name.toList, by simp [hscope]⟩
    · exact ⟨inner ++ "::".toList ++ t.name.toList, by simp [← hinner]⟩
  have hnil : [] < "::".toList ++ rest := List.nil_lt_cons _ _
  have hlt : outer.path.toList ++ [] < outer.path.toList ++ ("::".toList ++ rest) := List.append_left_lt hnil
  rw [String.toList_append, List.append_assoc] at hrest
  rwa [List.append_nil, hrest] at hlt

end Tag

/-- The named scopes that a file opens at or before a line. -/
def Database.openedBy (db : Database) (file : String) (line : Int) : List Row :=
  db.tags.filter fun r => r.tag.file = file ∧ r.tag.line ≤ line ∧ r.tag.kind ∈ Kind.enclosing ∧ ¬ r.tag.IsUnnamed

/-- None of the other rows on the row's line is declared inside it. -/
def Row.IsInnermost (r : Row) (rows : List Row) : Prop :=
  ∀ q ∈ rows, q.tag.line = r.tag.line → q.tag.DeclaredInside r.tag → q = r

/-- The row is on the last line of all, and the first one there by key. -/
def Row.IsLastOpened (r : Row) (rows : List Row) : Prop :=
  r ∈ rows ∧ ∀ q ∈ rows, q.tag.line < r.tag.line ∨ q.tag.line = r.tag.line ∧ (Walk.byKey.compare r q).isLE

namespace Row

instance (r : Row) (rows : List Row) : Decidable (r.IsInnermost rows) :=
  inferInstanceAs (Decidable (∀ q ∈ rows, q.tag.line = r.tag.line → q.tag.DeclaredInside r.tag → q = r))

instance (r : Row) (rows : List Row) : Decidable (r.IsLastOpened rows) :=
  inferInstanceAs (Decidable (r ∈ rows ∧ ∀ q ∈ rows,
    q.tag.line < r.tag.line ∨ q.tag.line = r.tag.line ∧ (Walk.byKey.compare r q).isLE))

theorem isLE_byKey_self (r : Row) : (Walk.byKey.compare r r).isLE := by
  have hcmp := Walk.byKey.transCmp
  exact @Std.ReflCmp.isLE_rfl _ (fun a b => Walk.byKey.compare a b) _ r

/-- The row is innermost just where what is declared inside it on its line comes first by key. -/
theorem IsLastOpened.isInnermost_iff (h : r.IsLastOpened rows) (hids : ∀ q ∈ rows, q.id = r.id → q = r) :
    r.IsInnermost rows ↔
      ∀ q ∈ rows, q.tag.line = r.tag.line → q.tag.DeclaredInside r.tag → (Walk.byKey.compare q r).isLE := by
  constructor
  · intro hinner q hq hline hinside
    rw [hinner q hq hline hinside]
    exact isLE_byKey_self r
  · intro hkeys q hq hline hinside
    obtain hlt | ⟨_, hle⟩ := h.2 q hq
    · omega
    · exact hids q hq (Walk.id_eq (hkeys q hq hline hinside) hle)

/-- Of scopes of one kind on one line, the outer one is the first by key. -/
theorem IsLastOpened.not_declaredInside (h : r.IsLastOpened rows) (hp : r.tag.path = r.tag.scope ++ "::" ++ r.tag.name)
    (hq : q ∈ rows) (hline : q.tag.line = r.tag.line) (hkind : q.tag.kind = r.tag.kind) :
    ¬ r.tag.DeclaredInside q.tag := by
  intro hinside
  have hlt : q.tag.path < r.tag.path := hinside.path_lt hp
  obtain hless | ⟨_, hle⟩ := h.2 q hq
  · omega
  · have hpaths : compare r.tag.path q.tag.path = .gt := compare_gt_iff_gt.mpr hlt
    simp [Walk.compare, hkind, hpaths] at hle

end Row

/-! ## The query -/

namespace Query

theorem mem_openedBy : r ∈ db.openedBy file line ↔ r ∈ db.tags ∧
    r.tag.file = file ∧ r.tag.line ≤ line ∧ r.tag.kind ∈ Kind.enclosing ∧ ¬ r.tag.IsUnnamed := by
  rw [Database.openedBy, List.mem_filter, decide_eq_true_iff]

theorem accepts_scopeAt (db : Database) : (scopeAt file line).accepts db = fun r => decide
    (r.tag.file = file ∧ r.tag.line ≤ line ∧ r.tag.kind ∈ Kind.enclosing ∧ ¬ r.tag.IsUnnamed) := by
  funext r
  have hname : Text.matchesPattern (some Text.escapeMark) (Text.startingWith anonymousPrefix) r.tag.name ↔
      r.tag.IsUnnamed := by
    rw [Text.matchesPattern_startingWith, begins_anonymousPrefix]
    rfl
  rw [Bool.eq_iff_iff, decide_eq_true_iff, ← hname, and_comm (a := r.tag.kind ∈ Kind.enclosing)]
  simp [accepts, scopeAt, Condition.holds, Test.holds, TextColumn.of]

/-- A later line goes before an earlier one, and on one line the key decides. -/
theorem pairwise_answers_scopeAt (hs : db.Sound) : ((scopeAt file line).answers db).Pairwise fun a b =>
    b.tag.line < a.tag.line ∨ b.tag.line = a.tag.line ∧ (Walk.byKey.compare a b).isLE := by
  have hbackward : (scopeAt file line).isBackward = false := rfl
  have hvisited : ((scopeAt file line).visited db).Pairwise fun a b => (Walk.byKey.compare a b).isLE :=
    pairwise_visited hbackward
  have hnodup : ((scopeAt file line).visited db).Nodup :=
    ((visited_perm _ db).nodup_iff).mpr (hs.nodup.filter _)
  have hle : ∀ a b, (Sorting.descending .line).le a b ↔ b.tag.line ≤ a.tag.line := fun a b => Int.isLE_compare
  refine (Store.pairwise_mergeSort_of_pairwise ?_ ?_ hnodup hvisited).imp fun {a b} hab => ?_
  · intro a b c
    rw [hle, hle, hle]
    exact fun hba hcb => Int.le_trans hcb hba
  · intro a b
    rw [Bool.or_eq_true, hle, hle]
    exact Int.le_total _ _
  · rw [hle, hle] at hab
    obtain hlt | heq := Int.lt_or_eq_of_le hab.1
    · exact .inl hlt
    · exact .inr ⟨heq, hab.2 (Int.le_of_eq heq.symm)⟩

end Query

/-! ## The lookup -/

namespace Store

theorem run_scopeAt (db : Database) (file : String) (line : Int) :
    (Query.scopeAt file line).run db = .ok (((Query.scopeAt file line).answers db).take 1) := by
  have hpattern : (Text.startingWith anonymousPrefix).utf8ByteSize ≤ Text.maxPatternBytes := by decide +kernel
  refine run_eq (show 1 ≤ maxLimit by decide) ?_
  simpa [Query.scopeAt, Condition.isTooLong, Test.isTooLong] using hpattern

theorem mem_answers_scopeAt : r ∈ (Query.scopeAt file line).answers db ↔ r ∈ db.openedBy file line := by
  rw [mem_answers, mem_openedBy, accepts_scopeAt, decide_eq_true_iff]

/-- The answer is the first row of the query, if the file does not refuse. -/
theorem scopeAt_answer (hs : s.Fresh) (hf : file ≠ "") (hn : 0 ≤ line) :
    ((scopeAt file line).run s).1 = ((Query.scopeAt file line).answers s.database).head? ∨
      ¬ s.Readable ∧ ((scopeAt file line).run s).1 = none := by
  have hsmall : (Query.scopeAt file line).isTooLarge = false := by
    simp [isTooLarge, Query.scopeAt, Condition.valueCount, Test.valueCount, Kind.enclosing, maxConditions, maxValues]
  have hanswer : ((scopeAt file line).run s).1 = ((fetch (Query.scopeAt file line)).run s).1.head? := by
    rw [scopeAt, if_neg (not_or.mpr ⟨hf, Int.not_lt.mpr hn⟩), Lookup.run_bind]
    rfl
  rw [hanswer]
  exact hs.isCurrent.head?_answered hsmall (run_scopeAt s.database file line)

end Store
end TagIndex
