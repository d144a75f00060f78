import Mathlib.Data.String.Basic
import TagIndex.Proofs.Alongside
import TagIndex.Proofs.Patterns

/-!
# Looking up files

The database is asked for the paths that hold a text, in any case of letters, and only then are the paths looked at
themselves. A path that the second test takes is left out by the first only if a null character stands before the
place where the text is found.
-/

namespace TagIndex

namespace Text

variable {part cs front rest : List Char}

/-! ## Places in a text -/

/-- The rest of the text begins at the first place where the part is. -/
structure FirstFrom (part cs rest : List Char) : Prop where
  suffix : rest <:+ cs
  starts : part <+: rest
  first : ∀ later, later <:+ cs → part <+: later → later.length ≤ rest.length

theorem FirstFrom.cons {c : Char} (h : FirstFrom part cs rest) (hc : ¬ part <+: c :: cs) :
    FirstFrom part (c :: cs) rest where
  suffix := h.suffix.trans (List.suffix_cons c cs)
  starts := h.starts
  first := by
    intro later hl hp
    cases List.suffix_cons_iff.mp hl with
    | inl hall => exact absurd (hall ▸ hp) hc
    | inr hl => exact h.first later hl hp

theorem firstFrom_self (h : part <+: cs) : FirstFrom part cs cs where
  suffix := List.suffix_rfl
  starts := h
  first := fun _ hl _ => hl.length_le

theorem FirstFrom.unique {rest' : List Char} (h : FirstFrom part cs rest) (h' : FirstFrom part cs rest') :
    rest = rest' := by
  have hlength : rest.length = rest'.length :=
    Nat.le_antisymm (h'.first rest h.suffix h.starts) (h.first rest' h'.suffix h'.starts)
  exact (List.suffix_of_suffix_length_le h.suffix h'.suffix hlength.le).eq_of_length hlength

theorem firstFrom_of_fromFirst (h : fromFirst part cs = some rest) : FirstFrom part cs rest := by
  induction cs with
  | nil =>
      cases part with
      | nil =>
          cases h
          exact firstFrom_self List.nil_prefix
      | cons c part => cases h
  | cons c cs ih =>
      unfold fromFirst at h
      split at h
      · cases h
        exact firstFrom_self (List.isPrefixOf_iff_prefix.mp ‹_›)
      · rename_i hc
        exact (ih h).cons fun hp => hc (List.isPrefixOf_iff_prefix.mpr hp)

theorem exists_fromFirst (h : part <:+: cs) : ∃ rest, fromFirst part cs = some rest := by
  induction cs with
  | nil =>
      rw [List.infix_nil.mp h]
      exact ⟨[], rfl⟩
  | cons c cs ih =>
      unfold fromFirst
      split
      · exact ⟨c :: cs, rfl⟩
      · rename_i hc
        cases List.infix_cons_iff.mp h with
        | inl hp => exact absurd (List.isPrefixOf_iff_prefix.mpr hp) hc
        | inr hin => exact ih hin

theorem fromFirst_eq_some : fromFirst part cs = some rest ↔ FirstFrom part cs rest := by
  constructor
  · exact firstFrom_of_fromFirst
  · intro h
    obtain ⟨rest', hrest⟩ := exists_fromFirst (h.starts.isInfix.trans h.suffix.isInfix)
    rw [hrest, (firstFrom_of_fromFirst hrest).unique h]

/-! ## What the pattern sees -/

/-- A null character hides only what stands behind it. -/
theorem occurs_of_parts {search text : String} (htext : text.toList = front ++ rest) (hnull : '\x00' ∉ front)
    (h : search.toList <+: rest) : Occurs search text := by
  obtain ⟨back, rfl⟩ := h
  have hseen : seen text = comparable front ++ (seen search ++ if '\x00' ∈ search.toList then [] else comparable back) := by
    rw [seen, htext, comparable_append, if_neg hnull, comparable_append]
    rfl
  unfold Occurs
  rw [hseen]
  split
  · rw [List.append_nil]
    exact (List.suffix_append _ _).map Char.toLower
  · exact (List.infix_append' _ _ _).map Char.toLower

theorem utf8Len_escaped_slashed (cs : List Char) :
    String.utf8Len (escaped (cs.map fun c => if c = '\\' then '/' else c)) = String.utf8Len (escaped cs) := by
  induction cs with
  | nil => rfl
  | cons c cs ih =>
      rw [List.map_cons, escaped, escaped]
      by_cases hc : c = '\\'
      · subst hc
        have hsize : '/'.utf8Size = '\\'.utf8Size := rfl
        simp [escapeMark, hsize, ih]
      · rw [if_neg hc]
        split <;> simp [ih]

theorem utf8ByteSize_containing_slashed (s : String) :
    (containing (slashed s)).utf8ByteSize = (containing s).utf8ByteSize := by
  simp [containing, slashed, String.utf8ByteSize_ofList, utf8Len_escaped_slashed]

end Text

namespace FileEntry

open Text

variable {e : FileEntry} {text typed : String} {front name rest : List Char}

/-- What a text is compared with: the whole path if the text ends with a slash, or else the name of the file, behind
the directories. -/
structure ReadFor (e : FileEntry) (text : String) (front name : List Char) : Prop where
  parts : e.file.toList = front ++ name
  whole : (∃ c ∈ text.toList.getLast?, isSlash c) → front = []
  plain : (¬ ∃ c ∈ text.toList.getLast?, isSlash c) →
    (∀ c ∈ name, isSlash c = false) ∧ ∀ c ∈ front.getLast?, isSlash c

theorem any_getLast?_iff : text.toList.getLast?.any isSlash ↔ ∃ c ∈ text.toList.getLast?, isSlash c := by
  simp [Option.any_eq_true]

theorem exists_readFor (e : FileEntry) (text : String) : ∃ front name, e.ReadFor text front name := by
  by_cases hslash : ∃ c ∈ text.toList.getLast?, isSlash c
  · exact ⟨[], e.file.toList, rfl, fun _ => rfl, fun hno => absurd hslash hno⟩
  · obtain ⟨hplain, front, hparts, hended⟩ := afterLast_parts isSlash e.file.toList
    exact ⟨front, _, hparts, fun hyes => absurd hyes hslash, fun _ => ⟨hplain, hended⟩⟩

/-- Every path is read in one way for a text. -/
theorem ReadFor.startsWith_iff (h : e.ReadFor text front name) : e.startsWith text ↔ text.toList <+: name := by
  obtain ⟨hparts, hwhole, hplain⟩ := h
  unfold startsWith
  dsimp only
  by_cases hslash : ∃ c ∈ text.toList.getLast?, isSlash c
  · rw [hwhole hslash, List.nil_append] at hparts
    rw [if_pos (any_getLast?_iff.mpr hslash), hparts, List.isPrefixOf_iff_prefix]
  · obtain ⟨hname, hfront⟩ := hplain hslash
    rw [if_neg (mt any_getLast?_iff.mp hslash), hparts, afterLast_append hname hfront, List.isPrefixOf_iff_prefix]

theorem ReadFor.occurs (h : e.ReadFor text front name) (hs : e.startsWith text) (hnull : '\x00' ∉ front) :
    Occurs text e.file :=
  occurs_of_parts h.parts hnull (h.startsWith_iff.mp hs)

theorem completion_eq_some {found : String} :
    e.completion typed = some found ↔ FirstFrom (slashed typed).toList (slashed e.file).toList found.toList := by
  rw [← fromFirst_eq_some, completion, Option.map_eq_some_iff]
  constructor
  · rintro ⟨rest, hrest, rfl⟩
    rwa [String.toList_ofList]
  · intro h
    exact ⟨_, h, String.ofList_toList⟩

end FileEntry

namespace Database

open Text

variable {pattern : String} {f : String → String}

theorem filesLike_of_short (h : pattern.utf8ByteSize ≤ maxPatternBytes) : filesLike pattern f =
    fun db => .ok (db.sortedFiles.filter fun e => matchesPattern (some escapeMark) pattern (f e.file)) := by
  funext db
  rw [filesLike, decide_eq_false (Nat.not_lt.mpr h)]
  rfl

end Database

namespace Store

open Text

variable {s : Store} {search text : String}

/-- A question that cannot fail is answered from the tables, unless the file refuses. -/
theorem askData_answer {α : Type} (s : Store) (g : Database → α) :
    ((askDatabase fun db => .ok (g db)).run s).1 = if s.Readable then some (g s.database) else none := by
  split
  · exact askDatabase_readable ‹_› rfl
  · exact askDatabase_unreadable ‹_›

/-- What is worked out of an answer can be worked out after it. -/
theorem askData_map {α β : Type} (s : Store) (g : Database → α) (f : α → β) :
    ((askDatabase fun db => .ok (f (g db))).run s).1 = ((askDatabase fun db => .ok (g db)).run s).1.map f := by
  rw [askData_answer s fun db => f (g db), askData_answer s g]
  split <;> rfl

theorem files_answer (s : Store) : (files.run s).1 = ((askDatabase fun db => .ok db.sortedFiles).run s).1.getD [] := rfl

theorem files_readable (hr : s.Readable) : (files.run s).1 = s.database.sortedFiles := by
  rw [files_answer, askData_answer s Database.sortedFiles, if_pos hr]
  rfl

theorem filesLike_answer (s : Store) (f : String → String)
    (hshort : (containing search).utf8ByteSize ≤ maxPatternBytes) :
    ((askDatabase (Database.filesLike (containing search) f)).run s).1.getD [] =
      (files.run s).1.filter fun e => Occurs search (f e.file) := by
  have hfilter : (fun e : FileEntry => matchesPattern (some escapeMark) (containing search) (f e.file)) =
      fun e => decide (Occurs search (f e.file)) := by
    funext e
    rw [Bool.eq_iff_iff, matchesPattern_containing, decide_eq_true_iff]
  rw [Database.filesLike_of_short hshort, hfilter, files_answer,
    s.askData_map Database.sortedFiles fun all => all.filter fun e => Occurs search (f e.file)]
  cases ((askDatabase fun db => .ok db.sortedFiles).run s).1 with
  | none => rfl
  | some all => rfl

section Answers

variable (s : Store) (hshort : (containing text).utf8ByteSize ≤ maxPatternBytes)

include hshort

theorem filesMatching_answer :
    ((filesMatching text).run s).1 = (files.run s).1.filter fun e => e.startsWith text ∧ Occurs text e.file := by
  show (((askDatabase (Database.filesLike (containing text) id)).run s).1.getD []).filter (·.startsWith text) = _
  rw [s.filesLike_answer id hshort, List.filter_filter]
  simp

theorem filesForCompletion_answer : ((filesForCompletion text).run s).1 =
    ((files.run s).1.filter fun e => Occurs (slashed text) (slashed e.file)).filterMap (·.completion text) := by
  have hshort' : (containing (slashed text)).utf8ByteSize ≤ maxPatternBytes :=
    (utf8ByteSize_containing_slashed text).trans_le hshort
  rw [← s.filesLike_answer slashed hshort']
  rfl

end Answers

/-- The lookups of files take the paths that pass their own test, of those that fit the pattern. Whatever passes the
test fits the pattern too, if no null character stands before the place where the text is found. -/
theorem file_lookups_complete (s : Store) {text : String} (hshort : (containing text).utf8ByteSize ≤ maxPatternBytes) :
    let all := (files.run s).1
    ((filesMatching text).run s).1 = all.filter (fun e => e.startsWith text ∧ Occurs text e.file) ∧
    ((filesForCompletion text).run s).1 =
      (all.filter fun e => Occurs (slashed text) (slashed e.file)).filterMap (·.completion text) ∧
    (∀ e : FileEntry, ∃ front name, e.ReadFor text front name ∧ (e.startsWith text ↔ text.toList <+: name) ∧
      ('\x00' ∉ front → e.startsWith text → Occurs text e.file)) ∧
    ∀ (e : FileEntry) (found : String),
      (e.completion text = some found ↔ FirstFrom (slashed text).toList (slashed e.file).toList found.toList) ∧
      ∀ front, (slashed e.file).toList = front ++ found.toList → '\x00' ∉ front → e.completion text = some found →
        Occurs (slashed text) (slashed e.file) := by
  refine ⟨s.filesMatching_answer hshort, s.filesForCompletion_answer hshort, fun e => ?_, fun e found => ?_⟩
  · obtain ⟨front, name, hread⟩ := e.exists_readFor text
    exact ⟨front, name, hread, hread.startsWith_iff, fun hnull hs => hread.occurs hs hnull⟩
  · refine ⟨FileEntry.completion_eq_some, fun front hparts hnull hfound => ?_⟩
    exact occurs_of_parts hparts hnull (FileEntry.completion_eq_some.mp hfound).starts

/-- Wildcards stand for themselves, letters have their case, and a path is completed with slashes only. -/
theorem file_lookups_complete_wildcards :
    let s := Step.act (Step.act {} (.openPath "a.db")) (.insertFileEntry "A_b/axb" 1)
    let t := Step.act (Step.act s (.insertFileEntry "c/Axb" 2)) (.insertFileEntry "c\\a_b" 3)
    (files.run t).1 = [⟨1, "A_b/axb", 1⟩, ⟨2, "c/Axb", 2⟩, ⟨3, "c\\a_b", 3⟩] ∧
    ((filesMatching "a_").run t).1 = [⟨3, "c\\a_b", 3⟩] ∧ ((filesForCompletion "c\\").run t).1 = ["c/Axb", "c/a_b"] := by
  intro s t
  have hall : (files.run t).1 = [⟨1, "A_b/axb", 1⟩, ⟨2, "c/Axb", 2⟩, ⟨3, "c\\a_b", 3⟩] := by
    have hfiles : t.database.files = [⟨1, "A_b/axb", 1⟩, ⟨2, "c/Axb", 2⟩, ⟨3, "c\\a_b", 3⟩] := by decide +kernel
    rw [files_readable (by decide +kernel), Database.sortedFiles, hfiles]
    exact List.mergeSort_of_pairwise (by decide +kernel)
  have hname : (containing "a_").utf8ByteSize ≤ maxPatternBytes := by decide +kernel
  have htyped : (containing "c\\").utf8ByteSize ≤ maxPatternBytes := by decide +kernel
  obtain ⟨hmatching, _⟩ := file_lookups_complete t hname
  obtain ⟨_, hcompletion, _⟩ := file_lookups_complete t htyped
  refine ⟨hall, hmatching.trans ?_, hcompletion.trans ?_⟩
  all_goals
    rw [hall]
    decide +kernel

/-- No pattern sees a path behind a null character. -/
theorem file_lookups_complete_not_all :
    let s := Step.act (Step.act {} (.openPath "a.db")) (.insertFileEntry "a\x00/b" 1)
    let e : FileEntry := ⟨1, "a\x00/b", 1⟩
    s.Reachable ∧ (containing "b").utf8ByteSize ≤ maxPatternBytes ∧ (files.run s).1 = [e] ∧
    e.startsWith "b" ∧ ((filesMatching "b").run s).1 = [] ∧
    e.completion "b" = some "b" ∧ ((filesForCompletion "b").run s).1 = [] := by
  intro s e
  have hs : s.Reachable := .next (.insertFileEntry "a\x00/b" 1) (.next (.openPath "a.db")
    (.new ⟨rfl, rfl, rfl⟩ fun _ => .refl _) trivial trivial) trivial trivial
  have hshort : (containing "b").utf8ByteSize ≤ maxPatternBytes := by decide +kernel
  have hall : (files.run s).1 = [e] := by
    have hfiles : s.database.files = [e] := by decide +kernel
    rw [files_readable (by decide +kernel), Database.sortedFiles, hfiles, List.mergeSort_singleton]
  refine ⟨hs, hshort, hall, by decide +kernel, ?_, by decide +kernel, ?_⟩
  · rw [s.filesMatching_answer hshort, hall]
    decide +kernel
  · rw [s.filesForCompletion_answer hshort, hall]
    decide +kernel

end Store
end TagIndex
