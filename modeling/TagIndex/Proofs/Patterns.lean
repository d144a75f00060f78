import TagIndex.Proofs.GlobalNames
import TagIndex.Proofs.PrefixRanges

/-!
# Patterns of escaped texts

The pattern made of an escaped text and a last wildcard fits the texts that start with that text, the one with
a wildcard on either side those that hold it, whatever wildcards and marks the texts are made of. So lookups by
patterns find the rows that they are meant to find, as far as texts are compared at all.
-/

namespace TagIndex

namespace Text

variable {cs ps rest t : List Char} {c p : Char} {s : String}

/-! ## Fitting -/

/-- A text in small letters, as far as its letters are those of ASCII. -/
def lowered (cs : List Char) : List Char := cs.map Char.toLower

theorem anyEnd_iff {f : List Char → Bool} (t : List Char) : anyEnd f t ↔ ∃ back, back <:+ t ∧ f back := by
  induction t with
  | nil => simp [anyEnd]
  | cons c cs ih => simp [anyEnd, ih, List.suffix_cons_iff, or_and_right, exists_or]

theorem fits_any {mark : Option Char} (h : some '%' ≠ mark) :
    fits mark ('%' :: ps) t ↔ ∃ back, back <:+ t ∧ fits mark ps back := by
  rw [fits.eq_def, ← anyEnd_iff]
  dsimp only
  rw [if_neg h, if_pos rfl]

theorem fits_wildcard : fits (some escapeMark) ('%' :: ps) t ↔ ∃ back, back <:+ t ∧ fits (some escapeMark) ps back :=
  fits_any (by decide)

theorem fits_marked : fits (some escapeMark) (escapeMark :: c :: ps) t ↔
    ∃ d back, t = d :: back ∧ c.toLower = d.toLower ∧ fits (some escapeMark) ps back := by
  rw [fits.eq_def]
  cases t <;> simp [sameLetter, and_assoc]

theorem fits_plain {mark : Option Char} (hmark : some c ≠ mark) (hany : c ≠ '%') (hone : c ≠ '_') :
    fits mark (c :: ps) t ↔ ∃ d back, t = d :: back ∧ c.toLower = d.toLower ∧ fits mark ps back := by
  rw [fits.eq_def]
  cases t <;> simp [sameLetter, and_assoc, hmark, hany, hone]

/-- A pattern that spells a text so that each of its characters stands for itself fits just the texts that are alike; the
rest of the pattern has to fit what follows. -/
theorem fits_spelled (mark : Option Char) (spell : Char → List Char) (h : ∀ c ∈ cs, ∀ ps t,
      fits mark (spell c ++ ps) t ↔ ∃ d back, t = d :: back ∧ c.toLower = d.toLower ∧ fits mark ps back)
    (rest t : List Char) : fits mark (cs.flatMap spell ++ rest) t ↔
      ∃ front back, t = front ++ back ∧ lowered cs = lowered front ∧ fits mark rest back := by
  induction cs generalizing t with
  | nil => simp [lowered]
  | cons c cs ih =>
      obtain ⟨hc, hcs⟩ := List.forall_mem_cons.mp h
      rw [List.flatMap_cons, List.append_assoc, hc]
      constructor
      · rintro ⟨d, t, rfl, hd, hrest⟩
        obtain ⟨front, back, rfl, hfront, hback⟩ := (ih hcs t).mp hrest
        exact ⟨d :: front, back, rfl, List.cons_eq_cons.mpr ⟨hd, hfront⟩, hback⟩
      · rintro ⟨front, back, rfl, hfront, hback⟩
        cases front with
        | nil => cases hfront
        | cons d front =>
            obtain ⟨hd, hfront⟩ := List.cons_eq_cons.mp hfront
            exact ⟨d, _, rfl, hd, (ih hcs _).mpr ⟨front, back, rfl, hfront, hback⟩⟩

theorem fits_escaped_append (cs rest t : List Char) : fits (some escapeMark) (escaped cs ++ rest) t ↔
    ∃ front back, t = front ++ back ∧ lowered cs = lowered front ∧ fits (some escapeMark) rest back := by
  let spell (c : Char) : List Char := if c = escapeMark ∨ c = '_' ∨ c = '%' then [escapeMark, c] else [c]
  have hspell : escaped cs = cs.flatMap spell := by
    induction cs with
    | nil => rfl
    | cons c cs ih =>
        rw [escaped, List.flatMap_cons, ← ih]
        dsimp only [spell]
        split <;> rfl
  rw [hspell]
  refine fits_spelled _ spell (fun c _ ps t => ?_) rest t
  dsimp only [spell]
  split
  · exact fits_marked
  · rename_i hplain
    simp only [not_or] at hplain
    exact fits_plain (by simpa using hplain.1) hplain.2.2 hplain.2.1

theorem fits_escaped : fits (some escapeMark) (escaped cs) t ↔ lowered cs = lowered t := by
  rw [← List.append_nil (escaped cs), fits_escaped_append]
  constructor
  · rintro ⟨front, back, rfl, hfront, hback⟩
    rw [List.isEmpty_iff.mp hback, List.append_nil]
    exact hfront
  · exact fun ht => ⟨t, [], (List.append_nil t).symm, ht, rfl⟩

theorem fits_start : fits (some escapeMark) (escaped cs ++ ['%']) t ↔ lowered cs <+: lowered t := by
  have hall : ∀ back, fits (some escapeMark) ['%'] back := fun back => fits_wildcard.mpr ⟨[], back.nil_suffix, rfl⟩
  simp only [fits_escaped_append, hall, and_true]
  constructor
  · rintro ⟨front, back, rfl, hfront⟩
    exact ⟨lowered back, by rw [hfront, lowered, lowered, lowered, List.map_append]⟩
  · rintro ⟨last, hlast⟩
    obtain ⟨front, back, ht, hfront, _⟩ := List.map_eq_append_iff.mp hlast.symm
    exact ⟨front, back, ht, hfront.symm⟩

/-- A first wildcard leaves the rest of the pattern to any end of the text. -/
theorem suffix_lowered {back : List Char} : back <:+ lowered t ↔ ∃ u, u <:+ t ∧ back = lowered u := by
  constructor
  · rintro ⟨front, hfront⟩
    obtain ⟨a, b, rfl, _, hb⟩ := List.map_eq_append_iff.mp hfront.symm
    exact ⟨b, List.suffix_append a b, hb.symm⟩
  · rintro ⟨u, hu, rfl⟩
    exact hu.map Char.toLower

theorem fits_end : fits (some escapeMark) ('%' :: escaped cs) t ↔ lowered cs <:+ lowered t := by
  simp only [fits_wildcard, fits_escaped, suffix_lowered]

theorem fits_within : fits (some escapeMark) ('%' :: escaped cs ++ ['%']) t ↔ lowered cs <:+: lowered t := by
  rw [List.cons_append, fits_wildcard, List.infix_iff_prefix_suffix]
  simp only [fits_start, suffix_lowered]
  constructor
  · rintro ⟨u, hu, hpre⟩
    exact ⟨lowered u, hpre, u, hu, rfl⟩
  · rintro ⟨_, hpre, u, hu, rfl⟩
    exact ⟨u, hu, hpre⟩

/-! ## What is compared -/

/-- What a comparison sees of a text. -/
def seen (s : String) : List Char := comparable s.toList

theorem comparable_cons (h : c ≠ '\x00') (cs : List Char) :
    comparable (c :: cs) = (if isNoCharacter c then replacementSign else c) :: comparable cs := if_neg h

theorem seen_eq_toList (h : ∀ c ∈ s.toList, c ≠ '\x00' ∧ isNoCharacter c = false) : seen s = s.toList := by
  have hall : ∀ cs : List Char, (∀ c ∈ cs, c ≠ '\x00' ∧ isNoCharacter c = false) → comparable cs = cs := by
    intro cs hcs
    induction cs with
    | nil => rfl
    | cons c cs ih =>
        obtain ⟨hc, hcs⟩ := List.forall_mem_cons.mp hcs
        rw [comparable_cons hc.1, hc.2, ih hcs]
        rfl
  exact hall _ h

/-- The text starts with what is searched for. A search text with a null character makes a pattern that ends
before its last wildcard. -/
def Begins (search text : String) : Prop :=
  if '\x00' ∈ search.toList then lowered (seen search) = lowered (seen text)
  else lowered (seen search) <+: lowered (seen text)

/-- What is searched for is somewhere in the text, or at its end if the pattern ends before its last
wildcard. -/
def Occurs (search text : String) : Prop :=
  if '\x00' ∈ search.toList then lowered (seen search) <:+ lowered (seen text)
  else lowered (seen search) <:+: lowered (seen text)

instance (search text : String) : Decidable (Begins search text) :=
  inferInstanceAs (Decidable (if '\x00' ∈ search.toList then lowered (seen search) = lowered (seen text)
    else lowered (seen search) <+: lowered (seen text)))

instance (search text : String) : Decidable (Occurs search text) :=
  inferInstanceAs (Decidable (if '\x00' ∈ search.toList then lowered (seen search) <:+ lowered (seen text)
    else lowered (seen search) <:+: lowered (seen text)))

theorem comparable_append (cs rest : List Char) :
    comparable (cs ++ rest) = comparable cs ++ if '\x00' ∈ cs then [] else comparable rest := by
  induction cs with
  | nil => rfl
  | cons c cs ih =>
      by_cases hnull : c = '\x00'
      · subst hnull
        rfl
      · have hrest : ('\x00' ∈ c :: cs) = ('\x00' ∈ cs) := by simp [Ne.symm hnull]
        rw [List.cons_append, comparable_cons hnull, comparable_cons hnull, ih, List.cons_append]
        simp only [hrest]

/-- A text that starts with another starts with it also as a comparison sees them. -/
theorem begins_of_starts {search text : String} (h : search.toList <+: text.toList) : Begins search text := by
  obtain ⟨rest, hrest⟩ := h
  have hseen : seen text = seen search ++ if '\x00' ∈ search.toList then [] else comparable rest := by
    rw [seen, seen, ← hrest]
    exact comparable_append _ _
  rw [Begins, hseen]
  split
  · rw [List.append_nil]
  · rw [lowered, lowered, List.map_append]
    exact List.prefix_append _ _

theorem toLower_of_large (h : 122 < c.toNat) : c.toLower = c := by
  unfold Char.toLower
  split
  · rename_i hupper
    have hlast : c.toNat ≤ 90 := UInt32.le_iff_toNat_le.mp hupper.2
    omega
  · rfl

theorem eq_of_toLower_eq (h : c.toLower = p) (hp : p.toNat < 97 ∨ 122 < p.toNat) : c = p := by
  unfold Char.toLower at h
  split at h
  · rename_i hupper
    have hfirst : 65 ≤ c.toNat := UInt32.le_iff_toNat_le.mp hupper.1
    have hlast : c.toNat ≤ 90 := UInt32.le_iff_toNat_le.mp hupper.2
    have hlower : p.toNat = c.toNat + 32 := by
      rw [← h]
      show (c.val + 32).toNat = c.val.toNat + 32
      rw [UInt32.toNat_add]
      exact Nat.mod_eq_of_lt (Nat.lt_of_le_of_lt (Nat.add_le_add_right hlast _) (by decide))
    omega
  · exact h

/-- No plain character is taken for one that a comparison does not see as it is. -/
theorem prefix_comparable (h : ∀ c ∈ cs, c ≠ '\x00' ∧ isNoCharacter c = false ∧ c ≠ replacementSign) (t : List Char) :
    lowered cs <+: lowered (comparable t) ↔ lowered cs <+: lowered t := by
  induction cs generalizing t with
  | nil => simp [lowered]
  | cons c cs ih =>
      obtain ⟨⟨hnull, hcharacter, hsign⟩, hcs⟩ := List.forall_mem_cons.mp h
      cases t with
      | nil => rfl
      | cons d t =>
          by_cases hd : d = '\x00'
          · subst hd
            have hne : c.toLower ≠ '\x00' := fun he => hnull (eq_of_toLower_eq he (.inl (by decide)))
            simp [lowered, comparable, List.cons_prefix_cons, hne]
          · have hrest := ih hcs t
            rw [comparable_cons hd]
            cases hplain : isNoCharacter d with
            | false => simpa [lowered, List.cons_prefix_cons] using fun _ => hrest
            | true =>
                have hlarge : 122 < d.toNat := by
                  have hlast : d.toNat = 0xFFFE ∨ d.toNat = 0xFFFF := by simpa [isNoCharacter] using hplain
                  omega
                have hne : c.toLower ≠ replacementSign.toLower :=
                  fun he => hsign (eq_of_toLower_eq he (.inr (by decide)))
                have hne' : c.toLower ≠ d.toLower := by
                  rw [toLower_of_large hlarge]
                  intro he
                  rw [eq_of_toLower_eq he (.inr hlarge), hplain] at hcharacter
                  cases hcharacter
                simp [lowered, List.cons_prefix_cons, hne, hne']

/-- Where the search text is of plain characters, nothing of what a comparison does to texts matters. -/
theorem begins_iff_lowered {search : String} (text : String)
    (h : ∀ c ∈ search.toList, c ≠ '\x00' ∧ isNoCharacter c = false ∧ c ≠ replacementSign) :
    Begins search text ↔ lowered search.toList <+: lowered text.toList := by
  have hnull : '\x00' ∉ search.toList := fun hm => (h _ hm).1 rfl
  rw [Begins, if_neg hnull, seen_eq_toList fun c hm => ⟨(h c hm).1, (h c hm).2.1⟩]
  exact prefix_comparable h _

theorem Begins.occurs {search text : String} (h : Begins search text) : Occurs search text := by
  unfold Begins at h
  unfold Occurs
  split at h
  · have hend : lowered (seen search) <:+ lowered (seen text) := h ▸ List.suffix_rfl
    rwa [if_pos ‹_›]
  · rw [if_neg ‹_›]
    exact h.isInfix

/-- Escaping and comparing go character by character, and no mark is replaced. -/
theorem comparable_escaped_append (cs rest : List Char) : comparable (escaped cs ++ rest) =
    escaped (comparable cs) ++ if '\x00' ∈ cs then [] else comparable rest := by
  induction cs with
  | nil => rfl
  | cons c cs ih =>
      by_cases hnull : c = '\x00'
      · subst hnull
        rfl
      have hrest : (if '\x00' ∈ c :: cs then [] else comparable rest) =
          if '\x00' ∈ cs then [] else comparable rest := by simp [Ne.symm hnull]
      rw [hrest, comparable_cons hnull, escaped, escaped]
      by_cases hc : c = escapeMark ∨ c = '_' ∨ c = '%'
      · have hseen : isNoCharacter c = false := by rcases hc with rfl | rfl | rfl <;> decide
        have hmark : comparable (escapeMark :: c :: (escaped cs ++ rest)) =
            escapeMark :: comparable (c :: (escaped cs ++ rest)) := rfl
        simp only [hc, if_true, hseen, Bool.false_eq_true, if_false, List.cons_append, hmark, comparable_cons hnull, ih]
      · have hc' : ¬ ((if isNoCharacter c then replacementSign else c) = escapeMark ∨
            (if isNoCharacter c then replacementSign else c) = '_' ∨
            (if isNoCharacter c then replacementSign else c) = '%') := by
          split
          · decide
          · exact hc
        rw [if_neg hc, if_neg hc', List.cons_append, List.cons_append, comparable_cons hnull, ih]

theorem matchesPattern_startingWith {search text : String} :
    matchesPattern (some escapeMark) (startingWith search) text ↔ Begins search text := by
  rw [matchesPattern, startingWith, String.toList_ofList, comparable_escaped_append, Begins]
  split
  · rw [List.append_nil]
    exact fits_escaped
  · exact fits_start

theorem matchesPattern_containing {search text : String} :
    matchesPattern (some escapeMark) (containing search) text ↔ Occurs search text := by
  have hfirst : comparable ('%' :: escaped search.toList ++ ['%']) =
      '%' :: comparable (escaped search.toList ++ ['%']) := rfl
  rw [matchesPattern, containing, String.toList_ofList, hfirst, comparable_escaped_append, Occurs]
  split
  · rw [List.append_nil]
    exact fits_end
  · exact fits_within

end Text

/-! ## Names -/

namespace Test

/-- The name is the one that is looked for, or starts with it. -/
def Matches (search : String) (isPartial caseSensitive : Bool) (name : String) : Prop :=
  if !isPartial then name = search
  else if caseSensitive then search.toList <+: name.toList
  else Text.Begins search name

theorem holds_forName {search name : String} {isPartial caseSensitive : Bool} :
    (forName search isPartial caseSensitive).holds name ↔ Matches search isPartial caseSensitive name := by
  unfold forName Matches
  split
  · exact decide_eq_true_iff
  split
  · rw [Text.startsWith_iff_between]
    cases Text.upperEndOf search <;> simp [holds]
  · exact Text.matchesPattern_startingWith

end Test

/-! ## Queries by patterns -/

namespace Query

variable {db : Database} {limit : Nat}

/-- Every name starts with the empty text, for which there is no condition. -/
theorem holds_nameFilter {name : String} {r : Row} :
    (∀ c ∈ nameFilter name, c.holds db r) ↔ Text.Begins name r.tag.name := by
  unfold nameFilter
  split
  · rename_i hname
    subst hname
    exact iff_of_true (List.forall_mem_nil _) (Text.begins_of_starts List.nil_prefix)
  · rw [List.forall_mem_singleton]
    exact Text.matchesPattern_startingWith

theorem isTooLong_nameFilter {name : String} (h : (Text.startingWith name).utf8ByteSize ≤ Text.maxPatternBytes) :
    ∀ c ∈ nameFilter name, c.isTooLong = false := by
  unfold nameFilter
  split
  · exact List.forall_mem_nil _
  · exact List.forall_mem_singleton.mpr (decide_eq_false (Nat.not_lt.mpr h))

theorem accepts_byScopeAndKind {scope filter : String} {kinds : List String} {r : Row} :
    (byScopeAndKind scope kinds filter limit).accepts db r ↔
      r.tag.scope = scope ∧ Text.Begins filter r.tag.name ∧ r.tag.kind ∈ kinds := by
  rw [accepts, List.all_eq_true, byScopeAndKind, List.forall_mem_append, List.forall_mem_append,
    List.forall_mem_singleton, List.forall_mem_singleton, holds_nameFilter, and_assoc]
  exact and_congr decide_eq_true_iff (and_congr .rfl List.contains_iff_mem)

/-- The conditions that a column fits each of some patterns. -/
def fitting (column : TextColumn) (patterns : List String) : List Condition :=
  patterns.map fun pattern => .column column (.like pattern)

theorem run_fitting (hs : db.Sound) (column : TextColumn) {patterns : List String}
    (hshort : ∀ pattern ∈ patterns, pattern.utf8ByteSize ≤ Text.maxPatternBytes) (hl : limit ≤ maxLimit) :
    run { conditions := fitting column patterns, limit := limit } db = .ok ((db.tags.filter fun r =>
      ∀ pattern ∈ patterns, Text.matchesPattern (some Text.escapeMark) pattern (column.of r.tag)).take limit) := by
  have hconditions : ∀ c ∈ fitting column patterns, c.isTooLong = false := by
    intro c hm
    obtain ⟨pattern, hp, rfl⟩ := List.mem_map.mp hm
    exact decide_eq_false (Nat.not_lt.mpr (hshort pattern hp))
  have htests : ∀ c (p : Test → Bool), (∀ pattern, p (.like pattern) = false) →
      tests { conditions := fitting column patterns, limit := limit } c p = false := by
    intro c p hp
    simp [tests, fitting, hp]
  have hwalk : walk { conditions := fitting column patterns, limit := limit } = .byId := by
    have hbeaten := htests .scope
      (fun t => tests { conditions := fitting column patterns, limit := limit } .name t.isBeatenBy)
      fun pattern => htests .name (Test.isBeatenBy (.like pattern)) fun _ => rfl
    rw [walk, htests .kind Test.isOneOf fun _ => rfl, htests .path Test.isOneOf fun _ => rfl, hbeaten,
      htests .scope Test.isOneOf fun _ => rfl, htests .name Test.isRange fun _ => rfl]
    rfl
  have haccepts : accepts { conditions := fitting column patterns, limit := limit } db = fun r =>
      decide (∀ pattern ∈ patterns, Text.matchesPattern (some Text.escapeMark) pattern (column.of r.tag)) := by
    funext r
    simp [accepts, fitting, Condition.holds, Test.holds, List.all_eq]
  rw [run_eq hl hconditions, answers_of_unsorted hs hwalk rfl, haccepts]

theorem isTooLarge_fitting (column : TextColumn) {patterns : List String} (h : patterns.length ≤ maxConditions)
    (limit : Nat) : isTooLarge { conditions := fitting column patterns, limit := limit } = false := by
  have hvalues : ∀ n, (fitting column patterns).foldl (fun n c => n + c.valueCount) n = n + patterns.length := by
    clear h
    induction patterns with
    | nil => exact fun _ => rfl
    | cons pattern patterns ih =>
        intro n
        rw [fitting, List.map_cons, List.foldl_cons]
        refine (ih _).trans ?_
        rw [List.length_cons]
        show n + 1 + _ = _
        omega
  have hlength : (fitting column patterns).length = patterns.length := List.length_map _
  unfold maxConditions at h
  simp only [isTooLarge, hvalues, hlength, maxConditions, maxValues, Bool.or_eq_false_iff, decide_eq_false_iff_not]
  omega

end Query

namespace Store

open Query Text

variable {s : Store}

theorem Reachable.fitting_answered (h : s.Reachable) (hf : s.Fresh) (column : TextColumn) {patterns : List String}
    (hfew : patterns.length ≤ maxConditions) (hshort : ∀ pattern ∈ patterns, pattern.utf8ByteSize ≤ maxPatternBytes)
    (hmax : s.options.searchLimit ≤ maxLimit) : s.Answered (· = (s.database.tags.filter fun r =>
      ∀ pattern ∈ patterns, matchesPattern (some escapeMark) pattern (column.of r.tag)).take s.options.searchLimit)
      ((fetch { conditions := fitting column patterns, limit := s.options.searchLimit }).run s).1 :=
  hf.isCurrent.fetch_answered (isTooLarge_fitting column hfew _) (run_fitting h.sound_database column hshort hmax)

section Lookups

variable (h : s.Reachable) (hf : s.Fresh) (hmax : s.options.searchLimit ≤ maxLimit)

include h hf hmax

theorem tagsByName_answered {name : String} (hshort : (startingWith name).utf8ByteSize ≤ maxPatternBytes)
    (hcase : s.options.caseSensitive = false) : s.Answered (· = (s.database.tags.filter fun r =>
      name ≠ "" ∧ Begins name r.tag.name).take s.options.searchLimit) ((tagsByName name true).run s).1 := by
  by_cases hname : name = ""
  · refine .inl ?_
    rw [tagsByName, if_pos hname]
    simp [hname]
    rfl
  · have hanswer := h.fitting_answered hf .name (List.length_singleton ▸ (by decide : 1 ≤ maxConditions))
      (List.forall_mem_singleton.mpr hshort) hmax
    have hlookup : (tagsByName name true).run s =
        (fetch { conditions := fitting .name [startingWith name], limit := s.options.searchLimit }).run s := by
      have htest : Test.forName name true s.options.caseSensitive = .like (startingWith name) := by rw [hcase]; rfl
      rw [tagsByName, if_neg hname]
      show (fetch (byName (Test.forName name true s.options.caseSensitive) s.options.searchLimit)).run s = _
      rw [htest]
      rfl
    rw [hlookup]
    refine hanswer.imp fun hrows => hrows.trans (congrArg _ (List.filter_congr fun r _ => ?_))
    simp [TextColumn.of, matchesPattern_startingWith, hname]

theorem tagsByPartName_answered {part : String} (hshort : (containing part).utf8ByteSize ≤ maxPatternBytes) :
    s.Answered (· = (s.database.tags.filter fun r => part ≠ "" ∧ Occurs part r.tag.name).take s.options.searchLimit)
      ((tagsByPartName part).run s).1 := by
  by_cases hpart : part = ""
  · refine .inl ?_
    rw [tagsByPartName, if_pos hpart]
    simp [hpart]
    rfl
  · have hanswer := h.fitting_answered hf .name (List.length_singleton ▸ (by decide : 1 ≤ maxConditions))
      (List.forall_mem_singleton.mpr hshort) hmax
    have hlookup : (tagsByPartName part).run s =
        (fetch { conditions := fitting .name [containing part], limit := s.options.searchLimit }).run s := by
      rw [tagsByPartName, if_neg hpart, Lookup.run_limited]
      rfl
    rw [hlookup]
    refine hanswer.imp fun hrows => hrows.trans (congrArg _ (List.filter_congr fun r _ => ?_))
    simp [TextColumn.of, matchesPattern_containing, hpart]

theorem tagsByPathParts_answered {parts : List String} (hfew : parts.length ≤ maxConditions)
    (hshort : ∀ part ∈ parts, (containing part).utf8ByteSize ≤ maxPatternBytes) : s.Answered
      (· = (s.database.tags.filter fun r =>
        parts ≠ [] ∧ ∀ part ∈ parts, Occurs part r.tag.path).take s.options.searchLimit)
      ((tagsByPathParts parts).run s).1 := by
  by_cases hparts : parts = []
  · refine .inl ?_
    rw [tagsByPathParts, if_pos (by simp [hparts])]
    simp [hparts]
    rfl
  · have hanswer := h.fitting_answered hf .path ((List.length_map containing).trans_le hfew)
      (List.forall_mem_map.mpr hshort) hmax
    have hlookup : (tagsByPathParts parts).run s =
        (fetch { conditions := fitting .path (parts.map containing), limit := s.options.searchLimit }).run s := by
      rw [tagsByPathParts, if_neg (by simpa using hparts), Lookup.run_limited, fitting, List.map_map]
      rfl
    rw [hlookup]
    refine hanswer.imp fun hrows => hrows.trans (congrArg _ (List.filter_congr fun r _ => ?_))
    simp [TextColumn.of, matchesPattern_containing, hparts]

end Lookups

/-- A pattern made of a search text fits just the texts that start with it, or that hold it, up to the case of
letters of ASCII. So lookups by such patterns find the first of these rows, by id, unless a kept answer tells of a
transaction that was taken back. -/
theorem patterns_select :
    (∀ search text : List Char,
      (fits (some escapeMark) (escaped search ++ ['%']) text ↔ lowered search <+: lowered text) ∧
      (fits (some escapeMark) ('%' :: escaped search ++ ['%']) text ↔ lowered search <:+: lowered text)) ∧
    (∀ text : String, (∀ c ∈ text.toList, c ≠ '\x00' ∧ isNoCharacter c = false) → seen text = text.toList) ∧
    ∀ s : Store, s.Reachable → s.Fresh → s.options.searchLimit ≤ maxLimit →
      let first (rows : List Row) := rows.take s.options.searchLimit
      s.database.tags.Pairwise (·.id < ·.id) ∧
      (∀ name, (startingWith name).utf8ByteSize ≤ maxPatternBytes → s.options.caseSensitive = false →
        s.Answered (· = first (s.database.tags.filter fun r => name ≠ "" ∧ Begins name r.tag.name))
          ((tagsByName name true).run s).1) ∧
      (∀ part, (containing part).utf8ByteSize ≤ maxPatternBytes →
        s.Answered (· = first (s.database.tags.filter fun r => part ≠ "" ∧ Occurs part r.tag.name))
          ((tagsByPartName part).run s).1) ∧
      (∀ parts, parts.length ≤ maxConditions → (∀ part ∈ parts, (containing part).utf8ByteSize ≤ maxPatternBytes) →
        s.Answered (· = first (s.database.tags.filter fun r => parts ≠ [] ∧ ∀ part ∈ parts, Occurs part r.tag.path))
          ((tagsByPathParts parts).run s).1) :=
  ⟨fun _ _ => ⟨fits_start, fits_within⟩, fun _ => seen_eq_toList, fun _ h hf hmax =>
    ⟨h.sound_database.ascending, fun _ => tagsByName_answered h hf hmax, fun _ => tagsByPartName_answered h hf hmax,
      fun _ => tagsByPathParts_answered h hf hmax⟩⟩

/-- Wildcards and marks in a search text stand for themselves, also a last mark before the wildcard. -/
theorem patterns_select_wildcards :
    let tag (name path : String) : Tag := { name, file := "a.c", kind := "function", path }
    let tags := [tag "A_b" "src::A_b", tag "axb" "src::axb", tag "a_bc^d" "lib::100%"]
    let s := Step.act (Step.act {} (.openPath "a.db")) (.storeTags tags 0 true)
    s.database.tags = [⟨1, tag "A_b" "src::A_b"⟩, ⟨2, tag "axb" "src::axb"⟩, ⟨3, tag "a_bc^d" "lib::100%"⟩] ∧
    ((tagsByName "a_B" true).run s).1 = [⟨1, tag "A_b" "src::A_b"⟩, ⟨3, tag "a_bc^d" "lib::100%"⟩] ∧
    ((tagsByPartName "C^").run s).1 = [⟨3, tag "a_bc^d" "lib::100%"⟩] ∧
    ((tagsByPathParts ["LIB", "%"]).run s).1 = [⟨3, tag "a_bc^d" "lib::100%"⟩] := by
  intro tag tags s
  have hs : s.Reachable := .next (.storeTags tags 0 true) (.next (.openPath "a.db")
    (.new ⟨rfl, rfl, rfl⟩ fun _ => .refl _) trivial trivial) trivial trivial
  have htags : s.database.tags =
      [⟨1, tag "A_b" "src::A_b"⟩, ⟨2, tag "axb" "src::axb"⟩, ⟨3, tag "a_bc^d" "lib::100%"⟩] := by decide +kernel
  have hlimit : s.options.searchLimit = 250 := by decide +kernel
  have hcase : s.options.caseSensitive = false := by decide +kernel
  have hr : s.Readable := by decide +kernel
  obtain ⟨_, hname, hpart, hparts⟩ := patterns_select.2.2 s hs (.empty (by decide +kernel)) (by rw [hlimit]; decide)
  refine ⟨htags, ((hname "a_B" (by decide +kernel) hcase).of_readable hr).trans ?_,
    ((hpart "C^" (by decide +kernel)).of_readable hr).trans ?_,
    ((hparts ["LIB", "%"] (by decide) (by decide +kernel)).of_readable hr).trans ?_⟩
  all_goals
    rw [htags, hlimit]
    decide +kernel

/-- A thousand parts are too many conditions, and for an empty name nothing is asked. A comparison ends at a null
character and takes the last code points of the basic plane for one another. -/
theorem patterns_select_not_all :
    let tag (name : String) : Tag := { name, file := "a.c", kind := "function", path := name }
    let s := Step.act (Step.act {} (.openPath "a.db")) (.storeTags [tag "a", tag "\uffff"] 0 true)
    s.Reachable ∧ s.Readable ∧ s.options.caseSensitive = false ∧ s.options.searchLimit = 250 ∧
    s.database.tags = [⟨1, tag "a"⟩, ⟨2, tag "\uffff"⟩] ∧
    (∀ part ∈ List.replicate 1000 "a", lowered part.toList <:+: lowered (tag "a").path.toList) ∧
    ((tagsByPathParts (List.replicate 1000 "a")).run s).1 = [] ∧
    lowered "".toList <+: lowered (tag "a").name.toList ∧ ((tagsByName "" true).run s).1 = [] ∧
    ¬ lowered "a\x00".toList <+: lowered (tag "a").name.toList ∧
    ((tagsByName "a\x00" true).run s).1 = [⟨1, tag "a"⟩] ∧
    ¬ lowered "\ufffe".toList <+: lowered (tag "\uffff").name.toList ∧
    ((tagsByName "\ufffe" true).run s).1 = [⟨2, tag "\uffff"⟩] := by
  intro tag s
  have hs : s.Reachable := .next (.storeTags [tag "a", tag "\uffff"] 0 true) (.next (.openPath "a.db")
    (.new ⟨rfl, rfl, rfl⟩ fun _ => .refl _) trivial trivial) trivial trivial
  have htags : s.database.tags = [⟨1, tag "a"⟩, ⟨2, tag "\uffff"⟩] := by decide +kernel
  have hlimit : s.options.searchLimit = 250 := by decide +kernel
  have hmax : s.options.searchLimit ≤ maxLimit := by rw [hlimit]; decide
  have hcase : s.options.caseSensitive = false := by decide +kernel
  have hf : s.Fresh := .empty (by decide +kernel)
  have hr : s.Readable := by decide +kernel
  have hparts : ((tagsByPathParts (List.replicate 1000 "a")).run s).1 = [] := by
    have hmany : maxConditions < (List.replicate 1000 "a").length := by
      rw [List.length_replicate]
      decide
    generalize List.replicate 1000 "a" = parts at hmany
    have hlarge : (byPathParts parts s.options.searchLimit).isTooLarge := by
      simp [isTooLarge, byPathParts, hmany]
    have hsome : ¬ parts.isEmpty := by
      rintro hnone
      simp [List.isEmpty_iff.mp hnone] at hmany
    rw [tagsByPathParts, if_neg hsome, Lookup.run_limited, fetch, fetchKinds_answer, if_pos hlarge]
  refine ⟨hs, hr, hcase, hlimit, htags, ?_, hparts, List.nil_prefix, rfl, by decide,
    ((tagsByName_answered hs hf hmax (by decide +kernel) hcase).of_readable hr).trans ?_, by decide,
    ((tagsByName_answered hs hf hmax (by decide +kernel) hcase).of_readable hr).trans ?_⟩
  · intro part hm
    obtain rfl := List.eq_of_mem_replicate hm
    exact List.infix_rfl
  all_goals
    rw [htags, hlimit]
    decide +kernel

end Store
end TagIndex
