import TagIndex.Proofs.Answers
import TagIndex.Proofs.Patterns
import TagIndex.Text.Blank

/-!
# Operators of a scope

An operator is looked for by a pattern with wildcards around the parts of its symbol, and the first row that fits is
answered. The operator's own name fits, and so does every other name that starts in the same way and has these parts in
turn: that of an operator with a longer symbol, of an allocation operator, or of a conversion.
-/

namespace TagIndex

open Lookup Store Query

/-! ## Parts in turn -/

namespace Text

variable {pieces : List (List Char)} {ps front t : List Char}

/-- The pieces stand in the text one after the other, whatever is before, between and after them. -/
def InTurn : List (List Char) → List Char → Prop
  | [], _ => True
  | p :: ps, t => ∃ front back, t = front ++ p ++ back ∧ InTurn ps back

/-- The pattern with wildcards around the pieces. -/
def spread : List (List Char) → List Char
  | [] => ['%']
  | p :: ps => '%' :: (p ++ spread ps)

theorem inTurn_append_flatten (front : List Char) (pieces : List (List Char)) :
    InTurn pieces (front ++ pieces.flatten) := by
  induction pieces generalizing front with
  | nil => trivial
  | cons p ps ih => exact ⟨front, ps.flatten, by simp, ih []⟩

/-- A text without wildcards stands for itself. -/
theorem fits_text_append {cs : List Char} (h : ∀ c ∈ cs, c ≠ '%' ∧ c ≠ '_') (rest t : List Char) :
    fits none (cs ++ rest) t ↔ ∃ front back, t = front ++ back ∧ lowered cs = lowered front ∧ fits none rest back := by
  have hspelled : fits none (cs.flatMap ([·]) ++ rest) t ↔ _ :=
    fits_spelled none ([·]) (fun c hc _ _ => fits_plain nofun (h c hc).1 (h c hc).2) rest t
  rwa [List.flatMap_singleton'] at hspelled

theorem fits_spread (h : ∀ p ∈ pieces, ∀ c ∈ p, c ≠ '%' ∧ c ≠ '_') (t : List Char) :
    fits none (spread pieces) t ↔ InTurn (pieces.map lowered) (lowered t) := by
  have hmark : some '%' ≠ none := nofun
  induction pieces generalizing t with
  | nil => exact iff_of_true ((fits_any hmark).mpr ⟨[], t.nil_suffix, rfl⟩) trivial
  | cons p ps ih =>
      obtain ⟨hp, hps⟩ := List.forall_mem_cons.mp h
      -- the wildcard leaves some front over, and the piece is the next part of the text
      rw [spread, fits_any hmark]
      simp only [fits_text_append hp, ih hps]
      constructor
      · rintro ⟨_, ⟨front, rfl⟩, here, back, rfl, hhere, hback⟩
        refine ⟨lowered front, lowered back, ?_, hback⟩
        rw [hhere]
        simp [lowered]
      · rintro ⟨front, back, hsplit, hback⟩
        obtain ⟨before, back, rfl, hbefore, rfl⟩ := List.map_eq_append_iff.mp hsplit
        obtain ⟨front, here, rfl, rfl, hhere⟩ := List.map_eq_append_iff.mp hbefore
        exact ⟨here ++ back, ⟨front, by simp⟩, here, back, rfl, hhere.symm, hback⟩

end Text

/-! ## Names of operators -/

/-- The operators that are looked for by name. -/
inductive Operator where
  | dereference
  | subscript

namespace Operator

variable {op : Operator} {name : String}

def symbol : Operator → String
  | dereference => "->"
  | subscript => "[]"

/-- The parts of the symbol that may stand apart. -/
def pieces : Operator → List (List Char)
  | dereference => [['-', '>']]
  | subscript => [['['], [']']]

def pattern : Operator → String
  | dereference => "operator%->%"
  | subscript => "operator%[%]%"

def find : Operator → String → Lookup (Option Row)
  | dereference => dereferenceOperator
  | subscript => subscriptOperator

def keyword : List Char := ['o', 'p', 'e', 'r', 'a', 't', 'o', 'r']

/-- The name is the keyword, white space if any, and the symbol. -/
def Names (op : Operator) (name : String) : Prop :=
  ∃ blank, (∀ c ∈ blank, Text.isBlank c) ∧ name.toList = keyword ++ blank ++ op.symbol.toList

/-- The name starts with the keyword in any case, and the parts of the symbol follow in turn. -/
def Fits (op : Operator) (name : String) : Prop :=
  ∃ rest, Text.lowered (Text.seen name) = keyword ++ rest ∧ Text.InTurn op.pieces rest

theorem find_eq (op : Operator) (scope : String) :
    op.find scope = (do return (← fetch (operatorOfScope scope op.pattern)).head?) := by
  cases op <;> rfl

theorem matchesPattern_iff : Text.matchesPattern none op.pattern name ↔ op.Fits name := by
  have hpattern : Text.comparable op.pattern.toList = keyword ++ Text.spread op.pieces := by
    cases op <;> decide
  have hpieces : ∀ p ∈ op.pieces, ∀ c ∈ p, c ≠ '%' ∧ c ≠ '_' := by
    cases op <;> simp [pieces]
  have hlowered : op.pieces.map Text.lowered = op.pieces := by
    cases op <;> decide
  have hplain : ∀ c ∈ keyword, c ≠ '%' ∧ c ≠ '_' := by simp [keyword]
  have hkeyword : Text.lowered keyword = keyword := by decide
  rw [Text.matchesPattern, hpattern, Text.fits_text_append hplain]
  simp only [Text.fits_spread hpieces, hlowered, hkeyword]
  constructor
  · rintro ⟨front, back, hname, hfront, hback⟩
    exact ⟨Text.lowered back, by rw [Text.seen, hname, hfront, Text.lowered, Text.lowered, List.map_append]; rfl, hback⟩
  · rintro ⟨rest, hname, hrest⟩
    obtain ⟨front, back, hseen, hfront, rfl⟩ := List.map_eq_append_iff.mp hname
    exact ⟨front, back, hseen, hfront.symm, hrest⟩

instance (op : Operator) (name : String) : Decidable (op.Fits name) := decidable_of_iff _ matchesPattern_iff

theorem names_iff : op.Names name ↔
    keyword <+: name.toList ∧ Text.trimStart (name.toList.drop keyword.length) = op.symbol.toList := by
  have hsymbol : op.symbol.toList.dropWhile Text.isBlank = op.symbol.toList := by
    cases op <;> decide
  constructor
  · rintro ⟨blank, hblank, hname⟩
    rw [hname, List.append_assoc]
    refine ⟨List.prefix_append _ _, ?_⟩
    rw [List.drop_left, Text.trimStart, List.dropWhile_append_of_pos hblank, hsymbol]
  · rintro ⟨⟨rest, hrest⟩, hsymbol⟩
    rw [← hrest, List.drop_left, Text.trimStart] at hsymbol
    refine ⟨rest.takeWhile Text.isBlank, List.all_eq_true.mp List.all_takeWhile, ?_⟩
    rw [← hsymbol, List.append_assoc, List.takeWhile_append_dropWhile, hrest]

instance (op : Operator) (name : String) : Decidable (op.Names name) := decidable_of_iff' _ names_iff

theorem isBlank_plain {c : Char} (h : Text.isBlank c) : c ≠ '\x00' ∧ Text.isNoCharacter c = false := by
  constructor
  · rintro rfl
    revert h
    decide
  · rw [Bool.eq_false_iff]
    intro hno
    have hlast : c.toNat = 0xFFFE ∨ c.toNat = 0xFFFF := by simpa [Text.isNoCharacter] using hno
    rcases hlast with hlast | hlast <;> simp [Text.isBlank, Text.inRanges, Text.blankRanges, hlast] at h

/-- The operator's own name fits, with or without white space. -/
theorem Names.fits (h : op.Names name) : op.Fits name := by
  have hword : ∀ c ∈ keyword, c ≠ '\x00' ∧ Text.isNoCharacter c = false := by simp [keyword, Text.isNoCharacter]
  have hmarks : ∀ c ∈ op.symbol.toList, c ≠ '\x00' ∧ Text.isNoCharacter c = false := by
    cases op <;> simp [symbol, Text.isNoCharacter]
  obtain ⟨blank, hblank, hname⟩ := h
  have hplain : ∀ c ∈ name.toList, c ≠ '\x00' ∧ Text.isNoCharacter c = false := by
    rw [hname, List.forall_mem_append, List.forall_mem_append]
    exact ⟨⟨hword, fun c hc => isBlank_plain (hblank c hc)⟩, hmarks⟩
  have hsymbol : Text.lowered op.symbol.toList = op.pieces.flatten := by
    cases op <;> decide
  have hkeyword : Text.lowered keyword = keyword := by decide
  refine ⟨Text.lowered blank ++ op.pieces.flatten, ?_, Text.inTurn_append_flatten _ _⟩
  rw [Text.seen_eq_toList hplain, hname, ← hsymbol]
  nth_rewrite 2 [← hkeyword]
  simp [Text.lowered]

end Operator

/-! ## The lookup -/

/-- The rows of a scope whose names fit an operator, by id. -/
def Database.fittingIn (db : Database) (op : Operator) (scope : String) : List Row :=
  db.tags.filter fun r => r.tag.scope = scope ∧ op.Fits r.tag.name

/-- The scope declares the operator itself. -/
def Database.Declares (db : Database) (op : Operator) (scope : String) : Prop :=
  ∃ r ∈ db.tags, r.tag.scope = scope ∧ op.Names r.tag.name

namespace Store

variable {db : Database} {s : Store} {op : Operator} {scope : String} {r : Row}

theorem mem_fittingIn : r ∈ db.fittingIn op scope ↔ r ∈ db.tags ∧ r.tag.scope = scope ∧ op.Fits r.tag.name := by
  rw [Database.fittingIn, List.mem_filter, decide_eq_true_iff]

theorem run_operatorOfScope (hs : db.Sound) (op : Operator) (scope : String) :
    (operatorOfScope scope op.pattern).run db = .ok ((db.fittingIn op scope).take 1) := by
  have hpattern : op.pattern.utf8ByteSize ≤ Text.maxPatternBytes := by
    cases op <;> decide +kernel
  have hshort : ∀ c ∈ (operatorOfScope scope op.pattern).conditions, c.isTooLong = false := by
    simpa [operatorOfScope, Condition.isTooLong, Test.isTooLong] using hpattern
  have haccepts : (operatorOfScope scope op.pattern).accepts db =
      fun r => decide (r.tag.scope = scope ∧ op.Fits r.tag.name) := by
    funext r
    rw [Bool.eq_iff_iff, decide_eq_true_iff, ← Operator.matchesPattern_iff]
    simp [accepts, operatorOfScope, Condition.holds, Test.holds, TextColumn.of]
  rw [run_eq (show 1 ≤ maxLimit by decide) hshort, answers_of_unsorted hs rfl rfl, haccepts]
  rfl

/-- The first row that fits is answered, if the file does not refuse. -/
theorem find_answer (h : s.Reachable) (hf : s.Fresh) (op : Operator) (scope : String) :
    ((op.find scope).run s).1 = (s.database.fittingIn op scope).head? ∨
      ¬ s.Readable ∧ ((op.find scope).run s).1 = none := by
  have hsmall : (operatorOfScope scope op.pattern).isTooLarge = false := by
    simp [isTooLarge, operatorOfScope, Condition.valueCount, Test.valueCount, maxConditions, maxValues]
  have hanswer : ((op.find scope).run s).1 = ((fetch (operatorOfScope scope op.pattern)).run s).1.head? := by
    rw [op.find_eq, Lookup.run_bind]
    rfl
  rw [hanswer]
  exact hf.isCurrent.head?_answered hsmall (run_operatorOfScope h.sound_database op scope)

/-- Of the rows of a scope that fit an operator, the first one is answered. So a readable file that declares the operator
answers something, and just where the first name that fits is the operator's own, it answers as it should: the operator
if the scope declares it, and nothing else. -/
theorem operator_found_first (h : s.Reachable) (hf : s.Fresh) (op : Operator) (scope : String) :
    let fitting := s.database.fittingIn op scope
    let answer := ((op.find scope).run s).1
    (answer = fitting.head? ∨ ¬ s.Readable ∧ answer = none) ∧ fitting.Pairwise (·.id < ·.id) ∧
    (s.Readable → s.database.Declares op scope → answer.isSome) ∧
    (s.Readable → ((answer.isSome ↔ s.database.Declares op scope) ∧ (∀ r ∈ answer, op.Names r.tag.name) ↔
      ∀ r ∈ fitting.head?, op.Names r.tag.name)) := by
  intro fitting answer
  have hanswer : answer = fitting.head? ∨ ¬ s.Readable ∧ answer = none := find_answer h hf op scope
  have hfirst : s.Readable → answer = fitting.head? := fun hr => hanswer.resolve_right fun hno => hno.1 hr
  have hdeclared : s.database.Declares op scope → fitting.head?.isSome := by
    rintro ⟨r, hr, hscope, hnames⟩
    rw [List.isSome_head?]
    exact List.ne_nil_of_mem (mem_fittingIn.mpr ⟨hr, hscope, hnames.fits⟩)
  refine ⟨hanswer, h.sound_database.ascending.filter _, fun hr hd => hfirst hr ▸ hdeclared hd, fun hr => ?_⟩
  rw [hfirst hr]
  constructor
  · exact And.right
  · intro hnames
    refine ⟨⟨fun hsome => ?_, hdeclared⟩, hnames⟩
    obtain ⟨r, hr⟩ := Option.isSome_iff_exists.mp hsome
    obtain ⟨hmem, hscope, _⟩ := mem_fittingIn.mp (List.mem_of_head? hr)
    exact ⟨r, hmem, hscope, hnames r hr⟩

/-- The operators for pointers to members and for the allocation of arrays are found in place of the ones that are looked
for. -/
theorem operator_found_first_others :
    let tag (name : String) (line : Int) : Tag := (Tag.new name "p.h" line "function").inScope "Ptr"
    let tags := [tag "operator->*" 1, tag "operator->" 2, tag "operator new[]" 3, tag "operator[]" 4]
    let s := Step.act (Step.act {} (.openPath "tags.db")) (.storeTags tags 0 true)
    ((dereferenceOperator "Ptr").run s).1 = some ⟨1, tag "operator->*" 1⟩ ∧
    ((subscriptOperator "Ptr").run s).1 = some ⟨3, tag "operator new[]" 3⟩ ∧
    Operator.dereference.Names "operator->" ∧ ¬ Operator.dereference.Names "operator->*" ∧
    Operator.subscript.Names "operator[]" ∧ ¬ Operator.subscript.Names "operator new[]" := by
  intro tag tags s
  have hs : s.Reachable := reachable_stored "tags.db" tags
  have hf : s.Fresh := .empty (by decide +kernel)
  have hr : s.Readable := by decide +kernel
  have hfirst : ∀ op : Operator, ((op.find "Ptr").run s).1 = (s.database.fittingIn op "Ptr").head? :=
    fun op => (operator_found_first hs hf op "Ptr").1.resolve_right fun hno => hno.1 hr
  exact ⟨(hfirst .dereference).trans (by decide +kernel), (hfirst .subscript).trans (by decide +kernel), by decide,
    by decide, by decide, by decide⟩

end Store
end TagIndex
