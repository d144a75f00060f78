import Mathlib.Data.List.DropRight
import TagIndex.Proofs.Alongside
import TagIndex.Proofs.Queries

/-!
# What a type name resolves to

A type name is a bare name behind a qualifier, and the qualifier extends the scope from which it is looked for. Of the
types that bear the bare name, one in the wanted scope goes before those with the wanted parent, and the last of these
before a single type of another parent, wherever they stand among the candidates.
-/

namespace TagIndex

open Lookup Store Query

/-! ## Qualified names -/

namespace Text

variable {cs front qualifier bare part whole : List Char}

/-- The part of a text after its last colon; all of it, if there is none. -/
def IsLastPart (part whole : List Char) : Prop := ':' ∉ part ∧ (part = whole ∨ ∃ front, whole = front ++ ':' :: part)

/-- The text is a qualifier, colons and a bare name, or a bare name alone. -/
structure Qualified (cs qualifier bare : List Char) : Prop where
  plain : ':' ∉ bare
  ended : qualifier.getLast? ≠ some ':'
  parts : ∃ n, cs = qualifier ++ List.replicate n ':' ++ bare ∧ (n = 0 → qualifier = [])

theorem exists_isLastPart (whole : List Char) : ∃ part, IsLastPart part whole := by
  induction whole with
  | nil => exact ⟨[], List.not_mem_nil, .inl rfl⟩
  | cons c cs ih =>
      obtain ⟨part, hpart, rfl | ⟨front, rfl⟩⟩ := ih
      · by_cases hc : c = ':'
        · exact ⟨part, hpart, .inr ⟨[], by rw [hc, List.nil_append]⟩⟩
        · exact ⟨c :: part, by simp [hpart, Ne.symm hc], .inl rfl⟩
      · exact ⟨part, hpart, .inr ⟨c :: front, rfl⟩⟩

theorem IsLastPart.eq_afterLast (h : IsLastPart part whole) : afterLast (· == ':') whole = part := by
  obtain ⟨hpart, hwhole⟩ := h
  have hplain : ∀ c ∈ part, (c == ':') = false := fun c hc => beq_eq_false_iff_ne.mpr fun he => hpart (he ▸ hc)
  rcases hwhole with rfl | ⟨front, rfl⟩
  · exact afterLast_of_plain hplain
  · rw [List.append_cons]
    exact afterLast_append hplain (by simp)

/-- What stands before a colon does not matter to the last part. -/
theorem IsLastPart.behind (h : IsLastPart part whole) (front : List Char) : IsLastPart part (front ++ ':' :: whole) := by
  obtain ⟨hpart, rfl | ⟨inner, rfl⟩⟩ := h
  · exact ⟨hpart, .inr ⟨front, rfl⟩⟩
  · exact ⟨hpart, .inr ⟨front ++ ':' :: inner, by simp⟩⟩

theorem IsLastPart.ne_nil (h : IsLastPart part whole) (hne : whole ≠ []) (hended : whole.getLast? ≠ some ':') :
    part ≠ [] := by
  rintro rfl
  obtain ⟨_, hall | ⟨front, hfront⟩⟩ := h
  · exact hne hall.symm
  · exact hended (by rw [hfront, List.getLast?_concat])

theorem Qualified.isLastPart (h : Qualified cs qualifier bare) : IsLastPart bare cs := by
  obtain ⟨hplain, _, n, rfl, hn⟩ := h
  cases n with
  | zero => exact ⟨hplain, .inl (by simp [hn rfl])⟩
  | succ n => exact ⟨hplain, .inr ⟨qualifier ++ List.replicate n ':', by simp [List.replicate_succ']⟩⟩

end Text

namespace WantedType

open Text

variable {cs qualifier bare : List Char}

theorem dropLastColons_eq (cs : List Char) : dropLastColons cs = cs.rdropWhile (· = ':') := rfl

theorem dropLastColons_append (h : qualifier.getLast? ≠ some ':') (n : Nat) :
    dropLastColons (qualifier ++ List.replicate n ':') = qualifier := by
  rw [dropLastColons_eq]
  induction n with
  | zero =>
      rw [List.replicate_zero, List.append_nil, List.rdropWhile_eq_self_iff]
      intro hne he
      exact h (by rw [List.getLast?_eq_some_getLast hne, of_decide_eq_true he])
  | succ n ih => rw [List.replicate_succ', ← List.append_assoc, List.rdropWhile_concat, if_pos (by simp), ih]

/-- Every text is one that does not end with a colon, and colons. -/
theorem exists_append_colons (cs : List Char) :
    ∃ front n, front.getLast? ≠ some ':' ∧ cs = front ++ List.replicate n ':' := by
  induction cs using List.reverseRecOn with
  | nil => exact ⟨[], 0, by simp, rfl⟩
  | append_singleton cs c ih =>
      by_cases hc : c = ':'
      · obtain ⟨front, n, hfront, rfl⟩ := ih
        exact ⟨front, n + 1, hfront, by rw [hc, List.replicate_succ', List.append_assoc]⟩
      · exact ⟨cs ++ [c], 0, by simpa using hc, by simp⟩

theorem exists_qualified (cs : List Char) : ∃ qualifier bare, Qualified cs qualifier bare := by
  obtain ⟨bare, hbare, rfl | ⟨front, rfl⟩⟩ := exists_isLastPart cs
  · exact ⟨[], bare, hbare, by simp, 0, rfl, fun _ => rfl⟩
  · obtain ⟨qualifier, n, hqualifier, rfl⟩ := exists_append_colons front
    exact ⟨qualifier, bare, hbare, hqualifier, n + 1, by simp [List.replicate_succ'], nofun⟩

/-- What stands before the bare name, without the colons at its end. -/
theorem qualifier_eq (h : Qualified cs qualifier bare) :
    dropLastColons (cs.take (cs.length - bare.length)) = qualifier := by
  obtain ⟨_, hended, n, rfl, _⟩ := h
  rw [List.length_append, Nat.add_sub_cancel, List.take_left, dropLastColons_append hended]

/-- A scope, extended by a qualifier if there is one. -/
def extended (scope qualifier : String) : String := if qualifier = "" then scope else scope ++ "::" ++ qualifier

theorem of_qualified {typeName qualifier bare part : String} (scope : String)
    (h : Qualified typeName.toList qualifier.toList bare.toList)
    (hp : IsLastPart part.toList (extended scope qualifier).toList) :
    of typeName scope = ⟨bare, extended scope qualifier, part⟩ := by
  have hbare := h.isLastPart.eq_afterLast
  have hwanted : (if qualifier.toList.isEmpty then scope else scope ++ "::" ++ qualifier) = extended scope qualifier := by
    simp [extended]
  simp only [of, hbare, qualifier_eq h, String.ofList_toList, hwanted, hp.eq_afterLast]

end WantedType

/-! ## Precedence -/

/-- The types that bear a name, by id. -/
def Database.typesNamed (db : Database) (name : String) : List Row :=
  db.tags.filter fun r => r.tag.name = name ∧ r.tag.kind ∈ Kind.types

namespace WantedType

variable {w : WantedType} {types rows : List Row} {tags : List Tag} {r : Row} {best last : String} {others : Nat}
  {found : Option TypeScope}

/-- What a type name resolves to among the types that bear its bare name. -/
inductive Resolves (w : WantedType) (types : List Row) : Option TypeScope → Prop where
  | inScope {r : Row} (hr : r ∈ types) (h : r.tag.scope = w.scope) : Resolves w types (some ⟨w.name, w.scope⟩)
  | ofParent {r : Row} (hno : ∀ q ∈ types, q.tag.scope ≠ w.scope) (hr : r ∈ types) (hp : r.tag.parent = w.parent)
      (hlast : ∀ q ∈ types, q.tag.parent = w.parent → q.id ≤ r.id) : Resolves w types (some ⟨w.name, r.tag.scope⟩)
  | only {r : Row} (hno : r.tag.scope ≠ w.scope) (hp : r.tag.parent ≠ w.parent) (h : types = [r]) :
      Resolves w types (some ⟨w.name, r.tag.scope⟩)
  | ambiguous (hno : ∀ q ∈ types, q.tag.scope ≠ w.scope) (hp : ∀ q ∈ types, q.tag.parent ≠ w.parent)
      (h : types.length ≠ 1) : Resolves w types none

/-- A candidate in the wanted scope ends the pass, whatever was seen before. -/
theorem choose_of_mem {t : Tag} (ht : t ∈ tags) (h : t.scope = w.scope) :
    w.choose tags best others last = some w.scope := by
  induction tags generalizing best others last with
  | nil => cases ht
  | cons u tags ih =>
      by_cases hu : u.scope = w.scope
      · rw [choose, if_pos hu, hu]
      · have hrest : t ∈ tags := by
          rcases List.mem_cons.mp ht with rfl | hrest
          · exact absurd h hu
          · exact hrest
        rw [choose, if_neg hu]
        split
        · exact ih hrest
        · exact ih hrest

/-- Without one, the pass comes to its end with the last sibling, the number of the others, and the last of all. -/
theorem choose_of_not_mem (h : ∀ t ∈ tags, t.scope ≠ w.scope) : w.choose tags best others last =
    fallback (((tags.filter (·.parent = w.parent)).getLast?.map (·.scope)).getD best)
      (others + tags.countP (·.parent ≠ w.parent)) ((tags.getLast?.map (·.scope)).getD last) := by
  have hlast : ∀ (t : Tag) (ts : List Tag) (scope : String),
      ((t :: ts).getLast?.map (·.scope)).getD scope = (ts.getLast?.map (·.scope)).getD t.scope := by
    intro t ts scope
    rw [List.getLast?_cons]
    cases ts.getLast? with
    | none => rfl
    | some u => rfl
  -- what the pass has seen stands in its three accumulators, so these are general
  induction tags generalizing best others last with
  | nil => rfl
  | cons t tags ih =>
      obtain ⟨ht, htags⟩ := List.forall_mem_cons.mp h
      rw [choose, if_neg ht, hlast]
      by_cases hp : t.parent = w.parent
      · have hfilter : (t :: tags).filter (·.parent = w.parent) = t :: tags.filter (·.parent = w.parent) :=
          List.filter_cons_of_pos (decide_eq_true hp)
        rw [if_pos hp, ih htags, hfilter, hlast, List.countP_cons_of_neg (by simpa using hp)]
      · have hfilter : (t :: tags).filter (·.parent = w.parent) = tags.filter (·.parent = w.parent) :=
          List.filter_cons_of_neg (by simpa using hp)
        rw [if_neg hp, ih htags, hfilter, List.countP_cons_of_pos (by simpa using hp), Nat.add_assoc, Nat.add_comm 1]

theorem getLast?_of_ascending (h : rows.Pairwise (·.id < ·.id)) (hr : r ∈ rows) (hlast : ∀ q ∈ rows, q.id ≤ r.id) :
    rows.getLast? = some r := by
  obtain ⟨front, o, rfl⟩ := List.eq_nil_or_concat' rows |>.resolve_left (List.ne_nil_of_mem hr)
  have ho : r.id ≥ o.id := hlast o (by simp)
  rcases List.mem_append.mp hr with hr | hr
  · exact absurd ((List.pairwise_append.mp h).2.2 r hr o (List.mem_singleton_self o)) (Nat.not_lt.mpr ho)
  · rw [List.mem_singleton.mp hr, List.getLast?_concat]

/-- Whatever precedence says, the pass finds. -/
theorem Resolves.choose_eq (h : w.Resolves types found) (ht : types.Pairwise (·.id < ·.id))
    (hscope : ∀ r ∈ types, r.tag.parent = w.parent → r.tag.scope ≠ "") :
    (w.choose (types.map (·.tag)) "" 0 "").map (⟨w.name, ·⟩) = found := by
  cases h with
  | inScope hr h => rw [choose_of_mem (List.mem_map_of_mem hr) h]; rfl
  | @ofParent r hno hr hp hlast =>
      have hsiblings : (types.filter (·.tag.parent = w.parent)).getLast? = some r := by
        refine getLast?_of_ascending (ht.filter _) (List.mem_filter.mpr ⟨hr, decide_eq_true hp⟩) fun q hq => ?_
        exact hlast q (List.mem_of_mem_filter hq) (of_decide_eq_true (List.mem_filter.mp hq).2)
      have hbest : ((types.map (·.tag)).filter (·.parent = w.parent)).getLast? = some r.tag := by
        rw [List.filter_map, List.getLast?_map]
        exact congrArg (Option.map (·.tag)) hsiblings
      rw [choose_of_not_mem (by simpa using hno), hbest]
      simp [fallback, hscope r hr hp]
  | only hno hp h =>
      subst h
      simp [choose, fallback, hno, hp]
  | ambiguous hno hp h =>
      rw [choose_of_not_mem (by simpa using hno)]
      have hnone : (types.map (·.tag)).filter (·.parent = w.parent) = [] := by
        simpa using hp
      have hall : (types.map (·.tag)).countP (·.parent ≠ w.parent) = types.length := by
        rw [List.countP_eq_length.mpr, List.length_map]
        simpa using hp
      rw [hnone, hall, Nat.zero_add]
      simp [fallback, h]

theorem exists_resolves (w : WantedType) (ht : types.Pairwise (·.id < ·.id)) : ∃ found, w.Resolves types found := by
  -- the cases are those of precedence, from the first on
  by_cases hin : ∃ r ∈ types, r.tag.scope = w.scope
  · obtain ⟨r, hr, h⟩ := hin
    exact ⟨_, .inScope hr h⟩
  have hno : ∀ q ∈ types, q.tag.scope ≠ w.scope := fun q hq he => hin ⟨q, hq, he⟩
  cases hsiblings : (types.filter (·.tag.parent = w.parent)).getLast? with
  | some r =>
      obtain ⟨front, hfront⟩ := List.getLast?_eq_some_iff.mp hsiblings
      have hmem : ∀ q, q ∈ front ++ [r] ↔ q ∈ types ∧ q.tag.parent = w.parent := by
        simp [← hfront]
      obtain ⟨hr, hp⟩ := (hmem r).mp (by simp)
      refine ⟨_, .ofParent hno hr hp fun q hq hqp => ?_⟩
      have hids : (front ++ [r]).Pairwise (·.id < ·.id) := hfront ▸ ht.filter _
      rcases List.mem_append.mp ((hmem q).mpr ⟨hq, hqp⟩) with hq | hq
      · exact Nat.le_of_lt ((List.pairwise_append.mp hids).2.2 q hq r (List.mem_singleton_self r))
      · rw [List.mem_singleton.mp hq]
  | none =>
      have hp : ∀ q ∈ types, q.tag.parent ≠ w.parent := by
        simpa using List.getLast?_eq_none_iff.mp hsiblings
      by_cases hone : types.length = 1
      · obtain ⟨r, rfl⟩ := List.length_eq_one_iff.mp hone
        exact ⟨_, .only (hno r (List.mem_singleton_self r)) (hp r (List.mem_singleton_self r)) rfl⟩
      · exact ⟨_, .ambiguous hno hp hone⟩

theorem choose_eq_iff (ht : types.Pairwise (·.id < ·.id))
    (hscope : ∀ r ∈ types, r.tag.parent = w.parent → r.tag.scope ≠ "") :
    (w.choose (types.map (·.tag)) "" 0 "").map (⟨w.name, ·⟩) = found ↔ w.Resolves types found := by
  constructor
  · rintro rfl
    obtain ⟨found, hfound⟩ := exists_resolves w ht
    rwa [hfound.choose_eq ht hscope]
  · exact fun h => h.choose_eq ht hscope

/-- A scope of some type that is not the wanted one is taken only if no type is in the wanted one, and if it is that of
the only type or of the last one with the wanted parent. -/
theorem resolves_other_iff {scope : String} (hr : r ∈ types) (hin : r.tag.scope = scope) (hne : w.scope ≠ scope) :
    w.Resolves types (some ⟨w.name, scope⟩) ↔ (∀ q ∈ types, q.tag.scope ≠ w.scope) ∧
      (types.length = 1 ∨ ∃ q ∈ types, q.tag.scope = scope ∧ q.tag.parent = w.parent ∧
        ∀ o ∈ types, o.tag.parent = w.parent → o.id ≤ q.id) := by
  constructor
  · intro h
    generalize hfound : some (TypeScope.mk w.name scope) = found at h
    cases h with
    | inScope =>
        obtain ⟨-, hscope⟩ := TypeScope.mk.inj (Option.some.inj hfound)
        exact absurd hscope.symm hne
    | ofParent hno hq hp hlast =>
        obtain ⟨-, hscope⟩ := TypeScope.mk.inj (Option.some.inj hfound)
        exact ⟨hno, .inr ⟨_, hq, hscope.symm, hp, hlast⟩⟩
    | only hno hp h => exact ⟨by simpa [h] using hno, .inl (by rw [h]; rfl)⟩
    | ambiguous => cases hfound
  · rintro ⟨hno, hone | ⟨q, hq, rfl, hp, hlast⟩⟩
    · obtain ⟨q, rfl⟩ := List.length_eq_one_iff.mp hone
      obtain rfl := List.mem_singleton.mp hr
      subst hin
      by_cases hp : r.tag.parent = w.parent
      · exact .ofParent hno hr hp (by simp)
      · exact .only (hno r hr) hp rfl
    · exact .ofParent hno hq hp hlast

/-! ## The candidates -/

theorem run_candidates {db : Database} (hs : db.Sound) (hfew : (db.typesNamed w.name).length ≤ 50) :
    w.candidates.run db = .ok (db.typesNamed w.name) := by
  have haccepts : w.candidates.accepts db = fun r => decide (r.tag.name = w.name ∧ r.tag.kind ∈ Kind.types) := by
    funext r
    simp [accepts, candidates, Condition.holds, Test.holds, TextColumn.of]
  have hall : (w.candidates.answers db).take w.candidates.limit = db.typesNamed w.name := by
    rw [answers_of_unsorted hs rfl rfl, haccepts]
    exact List.take_of_length_le hfew
  rw [run_eq (show sampleLimit ≤ maxLimit by decide) (by simp [candidates, Condition.isTooLong, Test.isTooLong]), hall]

end WantedType

/-! ## The lookup -/

namespace Store

variable {s : Store} {typeName scope : String}

theorem resolveTypeScope_answer (s : Store) (typeName scope : String) : ((resolveTypeScope typeName scope).run s).1 =
    let w := WantedType.of typeName scope
    if w.name = "" then none
    else ((askDatabase w.candidates.run).run s).1.bind fun rows =>
      (w.choose (rows.map (·.tag)) "" 0 "").map (⟨w.name, ·⟩) := by
  rw [resolveTypeScope]
  dsimp only
  split
  · rfl
  · rw [Lookup.run_bind]
    cases ((askDatabase (WantedType.of typeName scope).candidates.run).run s).1 with
    | none => rfl
    | some rows => rfl

theorem resolveTypeScope_eq_iff (h : s.Reachable) (hr : s.Readable) {w : WantedType}
    (hw : WantedType.of typeName scope = w) (hname : w.name ≠ "") (hfew : (s.database.typesNamed w.name).length ≤ 50)
    (hscope : ∀ r ∈ s.database.typesNamed w.name, r.tag.parent = w.parent → r.tag.scope ≠ "") (found : Option TypeScope) :
    ((resolveTypeScope typeName scope).run s).1 = found ↔ w.Resolves (s.database.typesNamed w.name) found := by
  have hrun := WantedType.run_candidates h.sound_database hfew
  rw [resolveTypeScope_answer, hw]
  dsimp only
  rw [if_neg hname, askDatabase_readable hr hrun, Option.bind_some]
  exact WantedType.choose_eq_iff (h.sound_database.ascending.filter _) hscope

end Store

/-! ## Names from the global scope -/

namespace Tag

variable {t : Tag}

/-- The tag's parent and path are those that its scope gives. -/
def IsPlaced (t : Tag) : Prop := t.inScope t.scope = t

theorem isPlaced_inScope (t : Tag) (scope : String) : (t.inScope scope).IsPlaced := by
  unfold IsPlaced inScope
  split <;> simp [*]

theorem IsPlaced.path_eq (h : t.IsPlaced) (hs : ¬ (t.scope = "" ∨ t.scope = globalScope)) :
    t.path = t.scope ++ "::" ++ t.name := by
  rw [IsPlaced, inScope, if_neg hs] at h
  exact (congrArg Tag.path h).symm

theorem IsPlaced.scope_ne (h : t.IsPlaced) (hp : t.parent ≠ "") : t.scope ≠ "" := by
  intro hs
  rw [IsPlaced, inScope, if_pos (.inl hs)] at h
  exact hp (congrArg Tag.parent h).symm

end Tag

namespace Store

variable {s : Store} {scope qualifier name : String} {r : Row}

theorem run_typeAt {db : Database} (hs : db.Sound) (path : String) : (typeAt path).run db =
    .ok ((db.tags.filter fun r => r.tag.path = path ∧ r.tag.kind ∈ Kind.types).take 1) := by
  have haccepts : (typeAt path).accepts db = fun r => decide (r.tag.path = path ∧ r.tag.kind ∈ Kind.types) := by
    funext r
    simp [accepts, typeAt, Condition.holds, Test.holds, TextColumn.of]
  rw [run_eq (show 1 ≤ maxLimit by decide) (by simp [typeAt, Condition.isTooLong, Test.isTooLong]),
    answers_of_unsorted hs rfl rfl, haccepts]
  rfl

/-- A readable file knows of every type at its path. -/
theorem typeAndScopeExists_of_mem (h : s.Reachable) (hr : s.Readable) (hrow : r ∈ s.database.tags)
    (hkind : r.tag.kind ∈ Kind.types)
    (hpath : r.tag.path = if scope = "" ∨ scope = globalScope then name else scope ++ "::" ++ name) :
    ((typeAndScopeExists name scope).run s).1 = true := by
  have hanswer : ((typeAndScopeExists name scope).run s).1 =
      (((askDatabase (typeAt r.tag.path).run).run s).1).any (!·.isEmpty) := by
    rw [typeAndScopeExists, hpath]
    rfl
  have hfound : (s.database.tags.filter fun q => q.tag.path = r.tag.path ∧ q.tag.kind ∈ Kind.types) ≠ [] :=
    List.ne_nil_of_mem (List.mem_filter.mpr ⟨hrow, decide_eq_true ⟨rfl, hkind⟩⟩)
  rw [hanswer, askDatabase_readable hr (run_typeAt h.sound_database _)]
  simpa using hfound

theorem mem_typesNamed {db : Database} :
    r ∈ db.typesNamed name ↔ r ∈ db.tags ∧ r.tag.name = name ∧ r.tag.kind ∈ Kind.types := by
  rw [Database.typesNamed, List.mem_filter, decide_eq_true_iff]

/-- A type that is placed in a named scope is found under its full name and in that scope. -/
theorem type_exists_placed (h : s.Reachable) (hr : s.Readable) (hplaced : r.tag.IsPlaced)
    (hscope : scope = "" ∨ scope = globalScope) (hq : ¬ (qualifier = "" ∨ qualifier = globalScope))
    (hrow : r ∈ s.database.typesNamed name) (hin : r.tag.scope = qualifier) :
    ((typeAndScopeExists (qualifier ++ "::" ++ name) scope).run s).1 = true ∧
      ((typeAndScopeExists name qualifier).run s).1 = true := by
  obtain ⟨hmem, hbare, hkind⟩ := mem_typesNamed.mp hrow
  have hpath : r.tag.path = qualifier ++ "::" ++ name := by
    rw [hplaced.path_eq (hin ▸ hq), hin, hbare]
  constructor
  · exact typeAndScopeExists_of_mem h hr hmem hkind (by rw [if_pos hscope, hpath])
  · exact typeAndScopeExists_of_mem h hr hmem hkind (by rw [if_neg hq, hpath])

theorem prefixed_ne (scope qualifier : String) : scope ++ "::" ++ qualifier ≠ qualifier := by
  intro he
  have hlength : (scope ++ "::" ++ qualifier).length = scope.length + 2 + qualifier.length := by
    rw [String.length_append, String.length_append]
    rfl
  rw [he] at hlength
  omega

theorem of_qualifiedName (scope : String) (hq : qualifier ≠ "") (hended : qualifier.toList.getLast? ≠ some ':')
    (hname : ':' ∉ name.toList) {parent : String} (hp : Text.IsLastPart parent.toList qualifier.toList) :
    WantedType.of (qualifier ++ "::" ++ name) scope = ⟨name, scope ++ "::" ++ qualifier, parent⟩ := by
  have hextended : WantedType.extended scope qualifier = scope ++ "::" ++ qualifier := if_neg hq
  have hcolon : (scope ++ "::" ++ qualifier).toList = (scope.toList ++ [':']) ++ ':' :: qualifier.toList := by simp
  have hlast : Text.IsLastPart parent.toList (WantedType.extended scope qualifier).toList := by
    rw [hextended, hcolon]
    exact hp.behind _
  have hqualified : Text.Qualified (qualifier ++ "::" ++ name).toList qualifier.toList name.toList :=
    ⟨hname, hended, 2, by simp, nofun⟩
  rw [WantedType.of_qualified scope hqualified hlast, hextended]

end Store
end TagIndex
