import TagIndex.Proofs.Importing
import TagIndex.Proofs.Items
import TagIndex.Proofs.Macros

/-!
# Parameters of macros

The parameters in a signature are the items of a comma list without parentheses, wherever the signature has these. So
the list that is printed of them, in one pair of parentheses, has the same parameters.
-/

namespace TagIndex

open Text

namespace Text

variable {ws : List (List Char)}

theorem intercalate_spaced (w : List Char) (ws : List (List Char)) :
    [',', ' '].intercalate (w :: ws) = [','].intercalate (w :: ws.map (' ' :: ·)) := by
  induction ws generalizing w with
  | nil => rfl
  | cons v ws ih =>
      rw [List.map_cons, List.intercalate_cons_cons, List.intercalate_cons_cons, ih v]
      cases ws <;> simp

/-- Spaces behind the commas do not change the items. -/
theorem items_spaced (h : ∀ w ∈ ws, ',' ∉ w) : items ([',', ' '].intercalate ws) = items ([','].intercalate ws) := by
  cases ws with
  | nil => rfl
  | cons w ws =>
      obtain ⟨hw, hws⟩ := List.forall_mem_cons.mp h
      have hspaced : ∀ v ∈ w :: ws.map (' ' :: ·), ',' ∉ v :=
        List.forall_mem_cons.mpr ⟨hw, List.forall_mem_map.mpr fun v hv => List.not_mem_cons_of_ne_of_not_mem
          (by decide) (hws v hv)⟩
      rw [intercalate_spaced, items_pieces hspaced, items_pieces h, List.map_cons, List.map_cons, List.map_map]
      rfl

end Text

namespace Macro

variable {signature w : String} {ws : List String}

/-- A text that can be a parameter: an item without parentheses. -/
def IsParameter (w : String) : Prop := IsItem w ∧ '(' ∉ w.toList ∧ ')' ∉ w.toList

instance : DecidablePred IsParameter := fun _ => inferInstanceAs (Decidable (_ ∧ _ ∧ _))

def isParenthesis (c : Char) : Bool := c = '(' || c = ')'

theorem args_eq (signature : String) :
    args signature = (items (signature.toList.filter (!isParenthesis ·))).map String.ofList := by
  rw [args, itemsOf, String.toList_ofList]
  simp [isParenthesis]

theorem isParameter_of_mem_args (h : w ∈ args signature) : IsParameter w := by
  refine ⟨isItem_of_mem_itemsOf h, ?_⟩
  rw [args_eq] at h
  obtain ⟨v, hv, rfl⟩ := List.mem_map.mp h
  have hplain : ∀ c ∈ v, isParenthesis c = false := fun c hc => by
    simpa using (List.mem_filter.mp (mem_of_mem_items hv hc)).2
  rw [String.toList_ofList]
  exact ⟨fun hc => absurd (hplain _ hc) (by decide), fun hc => absurd (hplain _ hc) (by decide)⟩

/-- Of a list in parentheses nothing but these is left out, if it holds parameters. -/
theorem filter_listed (h : ∀ w ∈ ws, IsParameter w) :
    ("(" ++ joined ", " ws ++ ")").toList.filter (!isParenthesis ·) = [',', ' '].intercalate (ws.map String.toList) := by
  have hplain : ∀ c ∈ [',', ' '].intercalate (ws.map String.toList), !isParenthesis c := by
    intro c hc
    rcases mem_intercalate hc with hsep | ⟨v, hv, hcv⟩
    · rcases List.mem_pair.mp hsep with rfl | rfl <;> rfl
    · obtain ⟨w, hw, rfl⟩ := List.mem_map.mp hv
      obtain ⟨_, hopening, hclosing⟩ := h w hw
      have hno : c ≠ '(' ∧ c ≠ ')' := ⟨fun he => hopening (he ▸ hcv), fun he => hclosing (he ▸ hcv)⟩
      simp [isParenthesis, hno]
  rw [String.toList_append, String.toList_append, List.filter_append, List.filter_append, toList_joined]
  rw [show ", ".toList = [',', ' '] from rfl, List.filter_eq_self.mpr hplain]
  exact List.append_nil _

/-- A list is read back from its form in parentheses if and only if it holds parameters alone. -/
theorem args_listed_eq_self_iff : args ("(" ++ joined ", " ws ++ ")") = ws ↔ ∀ w ∈ ws, IsParameter w := by
  constructor
  · intro h w hw
    rw [← h] at hw
    exact isParameter_of_mem_args hw
  intro h
  have hcommas : ∀ v ∈ ws.map String.toList, ',' ∉ v := List.forall_mem_map.mpr fun w hw => (h w hw).1.2.1
  rw [args_eq, filter_listed h, items_spaced hcommas,
    items_intercalate (List.forall_mem_map.mpr fun w hw => isItem_iff.mp (h w hw).1), map_ofList_toList]

/-- What was read is read again from the list that is written of it. -/
theorem args_listed (signature : String) : args ("(" ++ joined ", " (args signature) ++ ")") = args signature := by
  rw [args_listed_eq_self_iff]
  exact fun _ => isParameter_of_mem_args

end Macro

/-! ## Printed definitions -/

/-- Every token that a session is told has the parameters of a signature. -/
theorem Store.exists_signature_of_getMacro {s : Store} {name : String} {t : Macro.Token}
    (h : ((Store.getMacro name).run s).1 = some t) : ∃ signature, t.args = Macro.args signature := by
  have htold : s.toldMacro name = some t := h
  rw [Store.toldMacro_eq] at htold
  obtain ⟨_, htold⟩ := Option.ite_none_right_eq_some.mp htold
  obtain ⟨m, _, rfl⟩ := Option.map_eq_some_iff.mp htold
  exact ⟨m.signature, by rw [Macro.token]⟩

namespace Invocation

open Macro

theorem run_definition {i : Invocation} {env : Environment} {user : Option String} {d d' : Disk} {s : Store}
    {name : String} (hi : i.command = .definition name) (h : i.openStore env user d = (.ok s, d')) (now : Int) :
    (i.run env user now d).1 =
      Command.found (Output.definition i.format) (.noDefinition name) ((Store.getMacro name).run s).1 := by
  simp only [Invocation.run, hi]
  rw [runOpened, h]
  simp only [hi, Command.runOn]
  rfl

/-- The parameters of a signature are items without parentheses, and a list is read back from its form in parentheses if
and only if it holds such items alone. So the parameters that are printed with the definition of a macro that is used
like a function are those of the macro. -/
theorem parameters_are_read_back :
    (∀ signature, ∀ w ∈ args signature, IsParameter w) ∧
    (∀ signature, args ("(" ++ joined ", " (args signature) ++ ")") = args signature) ∧
    (∀ ws, args ("(" ++ joined ", " ws ++ ")") = ws ↔ ∀ w ∈ ws, IsParameter w) ∧
    ∀ (i : Invocation) (env : Environment) (user : Option String) (now : Int) (d d' : Disk) (s : Store) (name : String)
      (t : Macro.Token),
      i.command = .definition name → i.format ≠ .json → i.openStore env user d = (.ok s, d') →
      ((Store.getMacro name).run s).1 = some t → t.isFunctionLike →
      let params := "(" ++ joined ", " t.args ++ ")"
      args params = t.args ∧ (i.run env user now d).1 =
        .printed (t.name ++ params ++ " " ++ t.replacement ++ "\n" ++ "line " ++ toString t.line ++ "\n") := by
  refine ⟨fun _ _ => isParameter_of_mem_args, args_listed, @args_listed_eq_self_iff, ?_⟩
  intro i env user now d d' s name t hi hformat ho ht hlike params
  obtain ⟨signature, hargs⟩ := Store.exists_signature_of_getMacro ht
  have hread : args ("(" ++ joined ", " t.args ++ ")") = t.args := by rw [hargs, args_listed]
  refine ⟨hread, ?_⟩
  rw [run_definition hi ho now, ht, Command.found, Output.definition, if_neg hformat, if_pos hlike]
  rfl

/-- A signature with parentheses inside others, and with an item that is left out, is printed as a plain list. -/
theorem parameters_are_read_back_nested :
    let m : Macro :=
      { name := "MAX", file := "a.h", line := 3, isFunctionLike := true, replacement := "0",
        signature := "((a , b), (c d) ,)" }
    let d := (Step.act (Step.act {} (.openPath "tags.db")) (.storeMacros [m])).disk
    let i : Invocation := { command := .definition "MAX", database := some "tags.db" }
    args m.signature = ["a", "b", "c d"] ∧ args "(a, b, c d)" = ["a", "b", "c d"] ∧
    (i.run {} none 0 d).1 = .printed "MAX(a, b, c d) 0\nline 3\n" := by
  intro m d i
  let s : Store := (i.openStore {} none d).1.toOption.getD default
  have ho : i.openStore {} none d = (.ok s, _) := openStore_of_isOk (by decide +kernel)
  have ht : ((Store.getMacro "MAX").run s).1 = some ⟨"MAX", "0", 3, true, ["a", "b", "c d"]⟩ := by decide +kernel
  obtain ⟨_, _, _, hprinted⟩ := parameters_are_read_back
  obtain ⟨hread, hrun⟩ := hprinted i {} none 0 d _ s "MAX" _ rfl nofun ho ht rfl
  exact ⟨by decide +kernel, hread, hrun⟩

end Invocation
end TagIndex
