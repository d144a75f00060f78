import Mathlib.Data.List.Basic
import TagIndex.Settings

/-!
# Layers of settings

Settings are laid over one another field by field, so a field of the loaded settings has the value of the highest layer
that sets it: the environment, then the explicit file, then the user's file. An empty variable sets nothing, but for the
flag: it is switched off by each text that is no word for on, and so by the empty one too.
-/

namespace TagIndex

namespace Text

variable {cs : List Char} {n : Nat}

/-- A text that writes a number in digits, with or without a plus sign. -/
def Writes (cs : List Char) (n : Nat) : Prop :=
  ∃ ds, (cs = ds ∨ cs = '+' :: ds) ∧ ds ≠ [] ∧ (∀ d ∈ ds, isDigit d) ∧ digitsValue ds = n

theorem digits?_eq_some_iff : digits? cs = some n ↔ cs ≠ [] ∧ (∀ d ∈ cs, isDigit d) ∧ digitsValue cs = n := by
  rw [digits?, Option.ite_none_right_eq_some, Option.some_inj]
  simp [and_assoc]

theorem writes_iff : Writes cs n ↔ digits? (if cs.head? = some '+' then cs.tail else cs) = some n := by
  rw [digits?_eq_some_iff]
  constructor
  · rintro ⟨ds, rfl | rfl, hne, hdigits, hvalue⟩
    · rw [if_neg fun hplus => absurd (hdigits _ (List.mem_of_head? hplus)) (by decide)]
      exact ⟨hne, hdigits, hvalue⟩
    · exact ⟨hne, hdigits, hvalue⟩
  · intro h
    split at h
    · rename_i hplus
      exact ⟨cs.tail, .inr (List.cons_head?_tail hplus).symm, h⟩
    · exact ⟨cs, .inl rfl, h⟩

theorem natural?_eq_some_iff {bound : Nat} : natural? bound cs = some n ↔ Writes cs n ∧ n < bound := by
  rw [natural?, writes_iff, Option.filter_eq_some_iff, decide_eq_true_eq]

end Text

namespace Settings

variable {earlier later middle : Settings}

inductive Field where
  | database
  | busyTimeoutMs
  | searchLimit
  | caseSensitive
  | useCache
  deriving DecidableEq, Repr

abbrev Field.Value : Field → Type
  | .database => String
  | .busyTimeoutMs | .searchLimit => Nat
  | .caseSensitive | .useCache => Bool

/-- What settings set a field to. -/
def Field.of : (f : Field) → Settings → Option f.Value
  | .database => Settings.database
  | .busyTimeoutMs => Settings.busyTimeoutMs
  | .searchLimit => Settings.searchLimit
  | .caseSensitive => Settings.caseSensitive
  | .useCache => Settings.useCache

theorem Field.of_overlay (f : Field) : f.of (earlier.overlay later) = (f.of later).or (f.of earlier) := by
  cases f <;> rfl

/-- Layers in order of precedence, laid over what stands below them. -/
theorem Field.of_foldr (f : Field) (layers : List Settings) (below : Settings) :
    f.of (layers.foldr (fun later earlier => earlier.overlay later) below) =
      (layers ++ [below]).findSome? f.of := by
  induction layers with
  | nil =>
      rw [List.foldr_nil, List.nil_append, List.findSome?_cons]
      cases f.of below <;> rfl
  | cons later layers ih =>
      rw [List.foldr_cons, f.of_overlay, ih, List.cons_append, List.findSome?_cons]
      cases f.of later <;> rfl

/-- What the explicit file, if one is given, sets: it is not given, or it is valid. -/
def IsExplicit (explicit : Option (String × Except ReadFault String)) (middle : Settings) : Prop :=
  (explicit = none ∧ middle = {}) ∨ ∃ path text, explicit = some (path, .ok text) ∧ ofText? text = some middle

theorem load_of_isExplicit {explicit : Option (String × Except ReadFault String)} (h : IsExplicit explicit middle)
    (user : Option String) (env : Environment) :
    load user explicit env = .ok (((ofUser user).overlay middle).overlay env.settings) := by
  rcases h with ⟨rfl, rfl⟩ | ⟨path, text, rfl, htext⟩
  · rfl
  · rw [load, ofExplicit, htext]
    rfl

end Settings

namespace Environment

open Settings

/-- What the variables set a field to: a path that is not empty, a number of 64 bits, and a flag that every text sets. -/
def Sets (e : Environment) : (f : Field) → f.Value → Prop
  | .database, path => e.database = some path ∧ path ≠ ""
  | .searchLimit, n => ∃ text, e.searchLimit = some text ∧ Text.Writes text.toList n ∧ n < Text.wordBound
  | .caseSensitive, b => ∃ text, e.caseSensitive = some text ∧ (b = true ↔ text.toLower ∈ ["1", "true", "yes", "on"])
  | .busyTimeoutMs, _ | .useCache, _ => False

theorem of_settings_eq_some_iff (e : Environment) (f : Field) (v : f.Value) :
    f.of e.settings = some v ↔ e.Sets f v := by
  cases f with
  | database =>
      show e.settings.database = some v ↔ _
      rw [settings, Option.filter_eq_some_iff, decide_eq_true_eq]
      rfl
  | busyTimeoutMs => exact ⟨nofun, False.elim⟩
  | searchLimit =>
      show e.settings.searchLimit = some v ↔ _
      rw [settings, Option.bind_eq_some_iff]
      exact exists_congr fun _ => and_congr_right fun _ => Text.natural?_eq_some_iff
  | caseSensitive =>
      show e.settings.caseSensitive = some v ↔ _
      rw [settings, Option.map_eq_some_iff]
      refine exists_congr fun text => and_congr_right fun _ => ?_
      rw [eq_comm, Bool.eq_iff_iff, List.contains_iff_mem]
      rfl
  | useCache => exact ⟨nofun, False.elim⟩

/-- The variables with an empty flag taken for one that is not set. -/
def withoutEmptyFlag (e : Environment) : Environment := { e with caseSensitive := e.caseSensitive.filter (· ≠ "") }

theorem withoutEmptyFlag_eq_self {e : Environment} (h : e.caseSensitive ≠ some "") : e.withoutEmptyFlag = e := by
  have hflag : e.caseSensitive.filter (· ≠ "") = e.caseSensitive := by
    cases htext : e.caseSensitive with
    | none => rfl
    | some text => exact Option.filter_some_pos (decide_eq_true fun hempty => h (hempty ▸ htext))
  rw [withoutEmptyFlag, hflag]

end Environment

namespace Settings

/-- An empty flag switches off what the files say, if they say that it is on or nothing. -/
theorem overlay_withoutEmptyFlag_iff (s : Settings) (env : Environment) :
    s.overlay env.settings = s.overlay env.withoutEmptyFlag.settings ↔
      (env.caseSensitive = some "" → s.caseSensitive = some false) := by
  by_cases h : env.caseSensitive = some ""
  · have hon : env.settings.caseSensitive = some false := by
      rw [Environment.settings, h]
      show some (switchedOn.contains "".toLower) = some false
      decide +kernel
    have hoff : env.withoutEmptyFlag.settings.caseSensitive = none := by
      rw [Environment.settings, Environment.withoutEmptyFlag, h]
      rfl
    rw [overlay, overlay, hon, hoff, Settings.mk.injEq, Option.some_or, Option.none_or]
    exact ⟨fun hall _ => hall.2.2.2.1.symm, fun hflag => ⟨rfl, rfl, rfl, (hflag h).symm, rfl⟩⟩
  · rw [Environment.withoutEmptyFlag_eq_self h]
    exact iff_of_true rfl fun hempty => absurd hempty h

/-- An explicit file that cannot be read or is invalid makes the load fail. Otherwise each field of the loaded settings
has the value of the highest layer that sets it, the user's file setting nothing if it is absent or invalid; a field that
no layer sets has its default. The one variable that sets something though it is empty is the flag: the settings are
those without it exactly if the files switch the flag off. -/
theorem loaded_by_layers (user : Option String) (explicit : Option (String × Except ReadFault String))
    (env : Environment) :
    (∀ path fault, explicit = some (path, .error fault) →
      load user explicit env = .error (.unreadable path fault)) ∧
    (∀ path text, explicit = some (path, .ok text) → ofText? text = none →
      load user explicit env = .error (.invalid path)) ∧
    (∀ (f : Field) (v : f.Value), f.of env.settings = some v ↔ env.Sets f v) ∧
    ∀ middle, IsExplicit explicit middle → ∃ s, load user explicit env = .ok s ∧
      (∀ f : Field, f.of s = [env.settings, middle, (user.bind ofText?).getD {}].findSome? f.of) ∧
      s.databasePath = s.database.getD "tags.db" ∧
      s.options =
        { busyTimeoutMs := s.busyTimeoutMs.getD 10
          searchLimit := max (s.searchLimit.getD 250) 1
          caseSensitive := s.caseSensitive.getD false
          useCache := s.useCache.getD true } ∧
      1 ≤ s.options.searchLimit ∧
      (load user explicit env = load user explicit env.withoutEmptyFlag ↔
        (env.caseSensitive = some "" →
          [middle, (user.bind ofText?).getD {}].findSome? Settings.caseSensitive = some false)) := by
  refine ⟨?_, ?_, env.of_settings_eq_some_iff, fun middle hmiddle => ?_⟩
  · rintro path fault rfl
    rfl
  · rintro path text rfl hinvalid
    rw [load, ofExplicit, hinvalid]
    rfl
  · have hload := load_of_isExplicit hmiddle user
    refine ⟨_, hload env, fun f => f.of_foldr [env.settings, middle] _, rfl, rfl, Nat.le_max_right _ _, ?_⟩
    rw [hload, hload, Except.ok.injEq, overlay_withoutEmptyFlag_iff]
    rw [show ((ofUser user).overlay middle).caseSensitive = _ from Field.of_foldr .caseSensitive [middle] _]
    rfl

/-- An empty flag masks that of the explicit file; an empty path and a limit that is no number mask nothing. -/
theorem loaded_by_layers_empty_flag :
    let user := some "search_limit: 0\ndatabase: b.db\nuse_cache: false\n"
    let env : Environment := { database := some "", searchLimit := some "-1", caseSensitive := some "" }
    let explicit := some ("project.yaml", .ok "database: a.db\ncase_sensitive: true\n")
    load user (some ("project.yaml", .error .missing)) env = .error (.unreadable "project.yaml" .missing) ∧
    load user (some ("project.yaml", .ok "- a list")) env = .error (.invalid "project.yaml") ∧
    load user explicit env ≠ load user explicit env.withoutEmptyFlag ∧
    ∃ s, load user explicit env = .ok s ∧ s.database = some "a.db" ∧ s.caseSensitive = some false ∧
      s.useCache = some false ∧ s.busyTimeoutMs = none ∧ s.options.busyTimeoutMs = 10 ∧ s.options.searchLimit = 1 := by
  intro user env explicit
  let middle : Settings := { database := some "a.db", caseSensitive := some true }
  have huser : (user.bind ofText?).getD {} =
      { database := some "b.db", searchLimit := some 0, useCache := some false } := by decide +kernel
  have hmiddle : IsExplicit explicit middle := .inr ⟨_, _, rfl, by decide +kernel⟩
  have henv : env.settings = { caseSensitive := some false } := by decide +kernel
  obtain ⟨hmissing, _⟩ := loaded_by_layers user (some ("project.yaml", .error .missing)) env
  obtain ⟨_, hinvalid, _⟩ := loaded_by_layers user (some ("project.yaml", .ok "- a list")) env
  obtain ⟨_, _, _, hvalid⟩ := loaded_by_layers user explicit env
  obtain ⟨s, hload, hfields, _, hoptions, _, hflag⟩ := hvalid middle hmiddle
  rw [huser, henv] at hfields
  rw [huser] at hflag
  have hlimit : s.searchLimit = some 0 := hfields .searchLimit
  have hbusy : s.busyTimeoutMs = none := hfields .busyTimeoutMs
  refine ⟨hmissing _ _ rfl, hinvalid _ _ rfl (by decide +kernel), fun hsame => ?_, s, hload, hfields .database,
    hfields .caseSensitive, hfields .useCache, hbusy, ?_, ?_⟩
  · exact absurd (hflag.mp hsame rfl) (by decide)
  · rw [hoptions, hbusy]
    rfl
  · rw [hoptions, hlimit]
    rfl

end Settings
end TagIndex
