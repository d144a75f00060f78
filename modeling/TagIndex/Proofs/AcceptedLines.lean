import TagIndex.Command.Form

/-!
# Accepted command lines

A line that is read ends at one of the inner commands of its form, and what was given there has been checked. So
arguments that exclude each other are not given together.
-/

namespace TagIndex

namespace Usage

variable {f g : Form} {as shared : List Argument} {texts rest : List String} {p p' : Progress}

theorem bind_eq_ok {α β : Type} {x : Except Refusal α} {k : α → Except Refusal β} {b : β} (h : x.bind k = .ok b) :
    ∃ a, x = .ok a ∧ k a = .ok b := by
  cases x with
  | error e => cases h
  | ok a => exact ⟨a, rfl, h⟩

/-- The form that the names of commands lead to, each inside the one before. -/
def Form.at? : Form → List String → Option Form
  | f, [] => some f
  | f, name :: names => (f.find? name).bind fun g => g.at? names

theorem Form.find?_name {name : String} (h : f.find? name = some g) : f.find? g.name = some g := by
  have hname : g.name = name := by simpa using List.find?_some h
  rwa [hname]

/-- Reading stops at the name of an inner command only. -/
theorem readArguments_inner (h : readArguments f as texts p = .ok (p', some (g, rest))) : f.find? g.name = some g := by
  induction texts generalizing p with
  | nil => cases h
  | cons s texts ih =>
      have hgoes : ∀ {x : Except Refusal Progress},
          x.bind (readArguments f as texts) = .ok (p', some (g, rest)) → f.find? g.name = some g := by
        intro x hx
        obtain ⟨_, _, hrest⟩ := bind_eq_ok hx
        exact ih hrest
      simp only [readArguments] at h
      split at h
      · exact hgoes h
      split at h
      · rename_i hfound
        cases h
        exact Form.find?_name (Option.ite_none_left_eq_some.mp hfound).2
      split at h
      · cases h
      split at h
      · exact ih h
      · exact hgoes h
      · exact hgoes h
      split at h
      · exact ih h
      · exact hgoes h

/-- What has been checked has no argument with one that it excludes. -/
theorem excluded_of_checkGiven {given : Given} (h : checkGiven f as given = .ok ()) {a : Argument} (ha : a ∈ as)
    (hgiven : given.isGiven a.name) {other : String} (ho : other ∈ a.excludes) : given.isGiven other = false := by
  refine Bool.eq_false_iff.mpr fun hother => ?_
  have hconflict : ((as.filter fun a => given.isGiven a.name).any fun a => a.excludes.any given.isGiven) = true :=
    List.any_eq_true.mpr ⟨a, List.mem_filter.mpr ⟨ha, hgiven⟩, List.any_eq_true.mpr ⟨other, ho, hother⟩⟩
  unfold checkGiven at h
  by_cases hinner : (!f.inner.isEmpty) = true
  · rw [if_pos hinner] at h
    cases h
  · rw [if_neg hinner] at h
    dsimp only at h
    rw [if_pos hconflict] at h
    cases h

/-- A line that is read leads to an inner command, and what is given there has been checked. -/
theorem readLevels_ok {fuel : Nat} {parsed : Parsed} (h : readLevels shared fuel f texts = .ok parsed) :
    ∃ g, f.at? parsed.commands = some g ∧ checkGiven g (g.arguments ++ shared) parsed.own = .ok () ∧
      parsed.levels ≠ [] := by
  induction fuel generalizing f texts parsed with
  | zero => cases h
  | succ fuel ih =>
      unfold readLevels at h
      obtain ⟨⟨p, descent⟩, hread, h⟩ := bind_eq_ok h
      rcases descent with _ | ⟨g, rest⟩
      · obtain ⟨q, _, h⟩ := bind_eq_ok h
        obtain ⟨⟨⟩, hcheck, h⟩ := bind_eq_ok h
        cases h
        exact ⟨f, rfl, hcheck, nofun⟩
      · obtain ⟨below, hbelow, h⟩ := bind_eq_ok h
        obtain ⟨q, _, h⟩ := bind_eq_ok h
        cases h
        obtain ⟨last, hat, hcheck, hsome⟩ := ih hbelow
        refine ⟨last, ?_, ?_, nofun⟩
        · rw [Form.at?, readArguments_inner hread]
          exact hat
        · rwa [Parsed.own, List.getLast?_cons_of_ne_nil hsome]

namespace Given

variable {given : Given} {name value : String}

theorem values_of_not_given (h : given.isGiven name = false) : given.values name = [] := by
  have hnone : given.filter (·.1 = name) = [] := by simpa [isGiven] using h
  rw [values, hnone, List.flatMap_nil]

theorem isGiven_of_value? (h : given.value? name = some value) : given.isGiven name := by
  cases hgiven : given.isGiven name with
  | true => rfl
  | false =>
      rw [value?, values_of_not_given hgiven] at h
      cases h

end Given

end Usage

/-- The options of the query can be given together. -/
def TagQuery.IsCompatible : TagQuery → Prop
  | .name _ exact contains _ => exact → contains = false
  | .file _ line kinds (some _) => line = none ∧ kinds = []
  | _ => True

namespace Command

open Usage

variable {texts : List String} {i : Invocation} {q : TagQuery}

theorem query_of_given {commands : List String} {given : Given} (h : ofGiven? commands given = some (.tags q)) :
    ∃ name, commands = ["query", name] ∧ ofQuery? name given = some (.tags q) := by
  unfold ofGiven? at h
  split at h
  case h_2 name => exact ⟨name, rfl, h⟩
  all_goals cases h

/-- What the form of a query excludes is not given in an accepted line. -/
theorem isCompatible_of_line (h : ofLine texts = .ok i) (hq : i.command = .tags q) : q.IsCompatible := by
  obtain ⟨parsed, hread, h⟩ := bind_eq_ok h
  obtain ⟨g, hat, hcheck, _⟩ := readLevels_ok hread
  split at h
  · cases h
  rename_i command hcommand
  cases h
  obtain rfl : command = .tags q := hq
  obtain ⟨name, hname, hquery⟩ := query_of_given hcommand
  rw [hname] at hat
  have hexcluded : ∀ a other, (form.at? ["query", name]).any (·.arguments.contains a) → other ∈ a.excludes →
      parsed.own.isGiven a.name → parsed.own.isGiven other = false := by
    intro a other ha ho hgiven
    rw [hat] at ha
    exact excluded_of_checkGiven hcheck (List.mem_append_left _ (List.contains_iff_mem.mp ha)) hgiven ho
  unfold ofQuery? at hquery
  split at hquery <;> cases hquery
  case h_1 =>
    exact hexcluded { switch "exact" with excludes := ["contains"] } "contains" (by decide +kernel) (by decide)
  case h_3 =>
    cases hvisible : parsed.own.value? "visible" with
    | none => trivial
    | some start =>
        have hgiven := Given.isGiven_of_value? hvisible
        have hnot : ∀ other ∈ ["line", "kind"], parsed.own.isGiven other = false := fun other ho =>
          hexcluded { option "visible" none .text with excludes := ["line", "kind"] } other (by decide +kernel) ho hgiven
        simp only [List.forall_mem_cons] at hnot
        refine ⟨?_, Given.values_of_not_given hnot.2.1⟩
        rw [integer?, Given.value?, Given.values_of_not_given hnot.1]
        rfl
  all_goals trivial

end Command
end TagIndex
