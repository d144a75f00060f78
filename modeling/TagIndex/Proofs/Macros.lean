import TagIndex.Proofs.Clearing
import TagIndex.Proofs.FilePaths
import TagIndex.Proofs.Healing
import TagIndex.Proofs.Repeats

/-!
# Tables of macros

The macros are a map from names, where an index tells which name is taken, and the simple macros one from files to
lists. A list of macros that is stored overrides the map name by name, and names that are stored for a file take the
place of its list; tags and file entries that are written change neither.
-/

namespace TagIndex

open Relation

/-! ## The tables as maps -/

namespace Database

variable {db : Database} {m : Macro} {name file file' : String}

def macroNamed (db : Database) (name : String) : Option Macro := db.macros.find? (·.name = name)

/-- The names that are stored for a file, in order. -/
def simpleMacrosOf (db : Database) (file : String) : List String :=
  (db.simpleMacros.filter (·.file = file)).map (·.name)

theorem macroNamed_putMacro (hu : db.macrosUnique) (m : Macro) (name : String) :
    (db.putMacro m).macroNamed name = if m.name = name then some m else db.macroNamed name := by
  rw [macroNamed, macros_putMacro, if_pos hu, List.find?_append, List.find?_singleton]
  by_cases hm : m.name = name
  · have hnone : (db.macros.filter (·.name ≠ m.name)).find? (·.name = name) = none := by
      simp [List.find?_eq_none, hm]
    rw [hnone, Option.none_or, if_pos (decide_eq_true hm), if_pos hm]
  · have hkept : (db.macros.filter (·.name ≠ m.name)).find? (·.name = name) = db.macroNamed name := by
      rw [List.find?_filter]
      refine congrArg (List.find? · db.macros) (funext fun a => decide_eq_decide.mpr ?_)
      simp only [decide_eq_true_eq]
      exact and_iff_right_of_imp fun ha he => hm (he.symm.trans ha)
    rw [hkept, if_neg (by simpa using hm), Option.or_none, if_neg hm]

theorem simpleMacrosOf_dropSimpleMacros (db : Database) (file file' : String) :
    (db.dropSimpleMacros file).simpleMacrosOf file' = if file' = file then [] else db.simpleMacrosOf file' := by
  rw [simpleMacrosOf, simpleMacros_dropSimpleMacros, List.filter_filter]
  split
  · rename_i hf
    simp [hf]
  · rename_i hf
    refine congrArg (List.map _) (List.filter_congr fun m _ => ?_)
    by_cases hm : m.file = file' <;> simp [hm, hf]

theorem simpleMacrosOf_addSimpleMacro (db : Database) (file name file' : String) :
    (db.addSimpleMacro file name).simpleMacrosOf file' =
      db.simpleMacrosOf file' ++ if file' = file then [name] else [] := by
  rw [simpleMacrosOf, simpleMacros_addSimpleMacro, List.filter_append, List.map_append]
  by_cases hf : file' = file
  · simp [simpleMacrosOf, hf]
  · simp [simpleMacrosOf, hf, Ne.symm hf]

end Database

namespace Batch

open Work

variable {name : String}

def lastNamed (ms : List Macro) (name : String) : Option Macro := (ms.filter (·.name = name)).getLast?

theorem lastNamed_cons (m : Macro) (ms : List Macro) (name : String) :
    lastNamed (m :: ms) name = (lastNamed ms name).or (if m.name = name then some m else none) := by
  rw [lastNamed, List.filter_cons]
  by_cases hm : m.name = name
  · simp only [hm, decide_true, if_true, List.getLast?_cons, lastNamed]
    cases (ms.filter (·.name = name)).getLast? <;> rfl
  · simp [hm, lastNamed]

theorem macroNamed_foldl_putMacro {db : Database} (hu : db.macrosUnique) (ms : List Macro) (name : String) :
    (ms.foldl Database.putMacro db).macroNamed name = (lastNamed ms name).or (db.macroNamed name) := by
  induction ms generalizing db with
  | nil => rfl
  | cons m ms ih =>
      have hput : (db.putMacro m).macrosUnique := hu
      rw [List.foldl_cons, ih hput, Database.macroNamed_putMacro hu, lastNamed_cons, Option.or_assoc]
      split <;> rfl

theorem simpleMacrosOf_foldl_addSimpleMacro (file : String) (names : List String) (db : Database) (file' : String) :
    (names.foldl (·.addSimpleMacro file ·) db).simpleMacrosOf file' =
      db.simpleMacrosOf file' ++ if file' = file then names else [] := by
  induction names generalizing db with
  | nil => simp
  | cons name names ih =>
      rw [List.foldl_cons, ih, Database.simpleMacrosOf_addSimpleMacro, List.append_assoc]
      split <;> rfl

theorem storeMacros_meets (ms : List Macro) (db : Database) :
    Meets (· = db) (storeMacros ms) (fun n d => n = ms.length ∧ d = ms.foldl Database.putMacro db) fun _ => True := by
  rw [storeMacros, putMacros_eq]
  exact (changes_map_meets _ ms db).bind fun _ => .pure fun _ h => ⟨rfl, h⟩

theorem storeSimpleMacros_meets (file : String) (names : List String) (db : Database) :
    Meets (· = db) (storeSimpleMacros file names) (fun n d => n = names.length ∧
      d = names.foldl (·.addSimpleMacro file ·) (db.dropSimpleMacros file)) fun _ => True := by
  rw [storeSimpleMacros, putSimpleMacros_eq]
  refine Meets.bind (Q := fun _ d => d = db.dropSimpleMacros file) (.change ?_ fun _ _ => trivial) fun _ =>
    (changes_map_meets _ names _).bind fun _ => .pure fun _ h => ⟨rfl, h⟩
  rintro _ rfl
  rfl

end Batch

namespace Store

variable {α : Type} {s t : Store} {c : Connection} {w : Work α} {auto : Bool} {a : α}

/-! ## Answers about macros -/

/-- What the session is told of a macro. -/
def toldMacro (s : Store) (name : String) : Option Macro.Token := ((getMacro name).run s).1

/-- What the session is told of the simple macros of a file. -/
def toldSimpleMacros (s : Store) (file : String) : List String := ((simpleMacrosForFile file).run s).1

theorem toldMacro_eq (s : Store) (name : String) :
    s.toldMacro name = if s.Readable then (s.database.macroNamed name).map Macro.token else none := by
  have hrun : s.toldMacro name =
      (((askDatabase fun db => .ok (db.macroNamed name)).run s).1.bind id).map Macro.token := rfl
  rw [hrun, askData_answer s fun db => db.macroNamed name]
  split <;> rfl

theorem toldSimpleMacros_eq (s : Store) (file : String) :
    s.toldSimpleMacros file = if s.Readable then s.database.simpleMacrosOf file else [] := by
  have hrun : s.toldSimpleMacros file =
      ((askDatabase fun db => .ok (db.simpleMacrosOf file)).run s).1.getD [] := rfl
  rw [hrun, askData_answer s fun db => db.simpleMacrosOf file]
  split <;> rfl

/-- Both are told the same of all macros. -/
structure ToldAlike (s t : Store) : Prop where
  macros : ∀ name, t.toldMacro name = s.toldMacro name
  simpleMacros : ∀ file, t.toldSimpleMacros file = s.toldSimpleMacros file

/-- The session sees the same macros in both. -/
def SameMacros (s t : Store) : Prop :=
  t.database.macros = s.database.macros ∧ t.database.simpleMacros = s.database.simpleMacros

theorem SameMacros.trans {u : Store} (h : SameMacros s t) (h' : SameMacros t u) : SameMacros s u :=
  ⟨h'.1.trans h.1, h'.2.trans h.2⟩

theorem toldAlike_of_readable_iff (h : SameMacros s t) (hr : t.Readable ↔ s.Readable) : ToldAlike s t where
  macros name := by simp only [toldMacro_eq, Database.macroNamed, h.1, hr]
  simpleMacros file := by simp only [toldSimpleMacros_eq, Database.simpleMacrosOf, h.2, hr]

/-- The session is told of no macro. -/
def ToldNone (s : Store) : Prop := (∀ name, s.toldMacro name = none) ∧ ∀ file, s.toldSimpleMacros file = []

theorem toldNone_of_unreadable (h : ¬ s.Readable) : s.ToldNone :=
  ⟨fun name => by rw [toldMacro_eq, if_neg h], fun file => by rw [toldSimpleMacros_eq, if_neg h]⟩

/-! ## Writes of macros -/

section Writing

variable {ms : List Macro} {file : String} {names : List String} {count : Nat}

theorem storeMacros_ok (h : (s.storeMacros ms).1 = .ok count) :
    count = ms.length ∧ (s.storeMacros ms).2.database = ms.foldl Database.putMacro s.database :=
  mutate_meets (Batch.orderly_storeMacros ms) (Batch.storeMacros_meets ms s.database) rfl h

theorem storeSimpleMacros_ok (h : (s.storeSimpleMacros file names).1 = .ok count) :
    count = names.length ∧ (s.storeSimpleMacros file names).2.database =
      names.foldl (·.addSimpleMacro file ·) (s.database.dropSimpleMacros file) :=
  mutate_meets (Batch.orderly_storeSimpleMacros file names) (Batch.storeSimpleMacros_meets file names s.database) rfl h

/-- Inside a transaction no macros are stored. -/
theorem storing_macros_in_transaction (hc : s.connection = some c) (ht : c.transaction ≠ .none) (ms : List Macro)
    (file : String) (names : List String) :
    s.storeMacros ms = (.error (.mutation .alreadyBegun), s) ∧
      s.storeSimpleMacros file names = (.error (.mutation .alreadyBegun), s) := by
  have hmutate : ∀ {β : Type} (w : Work β), s.mutate true w = (.error (.mutation .alreadyBegun), s) := by
    intro β w
    simp only [mutate, hc, work, if_true, transact_of_begun ht]
    rfl
  exact ⟨hmutate _, hmutate _⟩

/-- A write whose first statement would be refused has run none if it succeeds. -/
theorem readable_of_mutate (hw : w.Orderly) (hok : (s.mutate auto w).1 = .ok a)
    (hruns : ∀ ρ : Refusals, (∀ use, (ρ use s.disk.statements).isSome) →
      (w ρ s.disk.statements s.database).result ≠ .ok a) : s.Readable := by
  obtain ⟨c, hc, hres, _⟩ := mutate_ok hw hok
  by_contra hr
  have hrefused : (s.refusals c .reads s.disk.statements).isSome :=
    Option.isSome_iff_ne_none.mpr fun hno => hr ⟨c, hc, hno⟩
  rw [outcome, ← database_eq hc] at hres
  exact hruns (s.refusals c) (refusals_isSome hrefused) hres

theorem readable_of_storeMacros {m : Macro} (h : (s.storeMacros (m :: ms)).1 = .ok count) : s.Readable := by
  refine readable_of_mutate (Batch.orderly_storeMacros (m :: ms)) h fun ρ hρ hok => ?_
  obtain ⟨e, he⟩ := Option.isSome_iff_exists.mp (hρ .writes)
  rw [Batch.storeMacros, Batch.putMacros, Work.bind_error (Work.bind_error (Work.change_of_some he))] at hok
  cases hok

theorem readable_of_storeSimpleMacros (h : (s.storeSimpleMacros file names).1 = .ok count) : s.Readable := by
  refine readable_of_mutate (Batch.orderly_storeSimpleMacros file names) h fun ρ hρ hok => ?_
  obtain ⟨e, he⟩ := Option.isSome_iff_exists.mp (hρ .writes)
  rw [Batch.storeSimpleMacros, Work.bind_error (Work.change_of_some he)] at hok
  cases hok

/-- Storing no macros touches nothing. -/
theorem storeMacros_nil (h : (s.storeMacros []).1 = .ok count) : (s.storeMacros []).2 = s := by
  obtain ⟨c, hc, _⟩ := mutate_ok (Batch.orderly_storeMacros []) h
  have ht : c.transaction = .none := by
    by_contra ht
    rw [(storing_macros_in_transaction hc ht [] "" []).1] at h
    cases h
  have hp : (s.withTransaction c .begun).perform (begunOn c) (Batch.storeMacros []) =
      (.ok 0, s.withTransaction c .begun) := by
    have halone : (s.withTransaction c .begun).leavesAlone (begunOn c) (Batch.storeMacros []) :=
      Bool.or_eq_true_iff.mpr (.inl (Bool.or_eq_true_iff.mpr (.inr (decide_eq_true rfl))))
    have hkept : losesTransaction (begunOn c)
        ((s.withTransaction c .begun).outcome (begunOn c) (Batch.storeMacros [])).result = false := rfl
    rw [perform_eq, hkept, if_neg Bool.false_ne_true, if_pos halone]
    rfl
  show (s.mutate true (Batch.storeMacros [])).2 = s
  simp only [mutate, hc, work, if_true, transact_ok ht hp rfl rfl]
  exact withTransaction_none hc ht

/-- What is told once macros are stored: the last one of each name, and of other names what was told before. -/
theorem toldMacro_storeMacros (h : (s.storeMacros ms).1 = .ok count) (ht : (s.storeMacros ms).2.Readable) :
    (s.database.macrosUnique → ∀ name, (s.storeMacros ms).2.toldMacro name =
      ((Batch.lastNamed ms name).map Macro.token).or (s.toldMacro name)) ∧
    ∀ file, (s.storeMacros ms).2.toldSimpleMacros file = s.toldSimpleMacros file := by
  cases ms with
  | nil =>
      rw [storeMacros_nil h]
      exact ⟨fun _ _ => rfl, fun _ => rfl⟩
  | cons m ms =>
      have hr := readable_of_storeMacros h
      obtain ⟨_, hdb⟩ := storeMacros_ok h
      refine ⟨fun hu name => ?_, fun file => ?_⟩
      · rw [toldMacro_eq, if_pos ht, hdb, Batch.macroNamed_foldl_putMacro hu, toldMacro_eq, if_pos hr, Option.map_or]
      · rw [toldSimpleMacros_eq, if_pos ht, toldSimpleMacros_eq, if_pos hr, Database.simpleMacrosOf, hdb,
          Database.foldl_frame Database.simpleMacros Database.putMacro fun _ _ => rfl]
        rfl

theorem toldSimpleMacros_storeSimpleMacros (h : (s.storeSimpleMacros file names).1 = .ok count)
    (ht : (s.storeSimpleMacros file names).2.Readable) :
    (∀ file', (s.storeSimpleMacros file names).2.toldSimpleMacros file' =
      if file' = file then names else s.toldSimpleMacros file') ∧
    ∀ name, (s.storeSimpleMacros file names).2.toldMacro name = s.toldMacro name := by
  have hr := readable_of_storeSimpleMacros h
  obtain ⟨_, hdb⟩ := storeSimpleMacros_ok h
  refine ⟨fun file' => ?_, fun name => ?_⟩
  · rw [toldSimpleMacros_eq, if_pos ht, hdb, Batch.simpleMacrosOf_foldl_addSimpleMacro,
      Database.simpleMacrosOf_dropSimpleMacros, toldSimpleMacros_eq, if_pos hr]
    split <;> simp
  · rw [toldMacro_eq, if_pos ht, toldMacro_eq, if_pos hr, Database.macroNamed, hdb,
      Database.foldl_frame Database.macros (·.addSimpleMacro file ·) fun _ _ => rfl]
    rfl

end Writing

/-! ## Other writes -/

theorem mutate_sameMacros (hw : w.Orderly)
    (hk : ∀ ms ss, Work.Keeps (fun d => d.macros = ms ∧ d.simpleMacros = ss) w) (hs : StaysOpen s (s.mutate auto w).2) :
    SameMacros s (s.mutate auto w).2 := by
  rcases s.mutate_cases auto hw with ⟨_, n, h⟩ | ⟨c, f, n, hc, ht, _, _, h⟩ | ⟨c, hc, _, _, hdb, _⟩
  · rw [h]
    exact ⟨rfl, rfl⟩
  · rw [h] at hs
    exact absurd (hs (idle_withTransaction _ c) c hc) ht
  · rw [SameMacros, hdb, outcome, ← database_eq hc]
    exact (hk s.database.macros s.database.simpleMacros).db ⟨rfl, rfl⟩

/-- A batch either leaves what its work leaves, or it told of damage, and then the file was opened again. -/
theorem storeTags_cases (s : Store) (tags : List Tag) (now : Int) (auto : Bool) :
    (s.storeTags tags now auto).2 = s ∨
    (s.storeTags tags now auto).2 = (s.mutate auto (Batch.store tags now)).2.clearCache ∨
    ∃ f, (s.storeTags tags now auto).1 = .error (.corruption f) ∧
      (s.mutate auto (Batch.store tags now)).1 = .error (.corruption f) ∧
      (s.storeTags tags now auto).2 = (s.mutate auto (Batch.store tags now)).2.clearCache.reopen.2 := by
  unfold storeTags
  split
  · exact .inl rfl
  · dsimp only
    split
    · rename_i f hf
      exact .inr (.inr ⟨f, hf, hf, rfl⟩)
    · exact .inr (.inl rfl)

theorem idle_of_reopen {path : String} (h : s.path = some path) : s.reopen.2.Idle := by
  rcases reopen_cases h with ⟨_, _, hclosed⟩ | ⟨_, _, _, hopened⟩
  · rw [hclosed]
    exact idle_of_none rfl
  · rw [hopened]
    intro _ hc
    cases hc
    rfl

/-- The place of the session is not a scratch place, which would start anew. -/
def OnFile (s : Store) : Prop := ∀ c, s.connection = some c → c.place ≠ .scratch

theorem onFile_of_all (h : s.connection.all fun c => c.place ≠ .scratch) : s.OnFile := by
  intro c hc
  simpa [hc] using h

/-- The session is closed, or it sees the macros that it saw before. -/
def KeepsMacros (s t : Store) : Prop := t.connection = none ∨ SameMacros s t

theorem mutate_keepsMacros (hw : w.Orderly)
    (hk : ∀ ms ss, Work.Keeps (fun d => d.macros = ms ∧ d.simpleMacros = ss) w) (auto : Bool)
    (hs : StaysOpen s (s.mutate auto w).2) : KeepsMacros s (s.mutate auto w).2 := .inr (mutate_sameMacros hw hk hs)

/-- A batch of tags leaves the macros as they are, also if the file is opened again. -/
theorem storeTags_keepsMacros {tags : List Tag} {now : Int} (hp : s.OnPath)
    (hs : StaysOpen s (s.storeTags tags now auto).2)
    (hfile : (∃ f, (s.storeTags tags now auto).1 = .error (.corruption f)) → s.OnFile) :
    KeepsMacros s (s.storeTags tags now auto).2 := by
  have hw := Batch.orderly_store tags now
  have hkept : StaysOpen s (s.mutate auto (Batch.store tags now)).2 →
      SameMacros s (s.mutate auto (Batch.store tags now)).2 :=
    mutate_sameMacros hw fun ms ss => (Batch.stable_macros ms ss).store tags now
  rcases s.storeTags_cases tags now auto with h | h | ⟨f, hf, hm, h⟩ <;> rw [h] at hs ⊢
  · exact .inr ⟨rfl, rfl⟩
  · exact .inr (hkept hs)
  · replace hfile := hfile ⟨f, hf⟩
    cases hc : s.connection with
    | none =>
        simp only [mutate, hc] at hm
        cases hm
    | some c =>
        -- A file that is opened again has no transaction, so there was none before.
        obtain ⟨transaction, hnone, htc⟩ := (mutate_holds hw auto hc).connection
        have hpath : (s.mutate auto (Batch.store tags now)).2.OnPath := lasting_onPath.mutate hp hw auto
        obtain ⟨path, hopened⟩ := hpath.exists_path htc
        have hi : s.Idle := hs (idle_of_reopen (s := (s.mutate auto (Batch.store tags now)).2.clearCache) hopened)
        obtain rfl := hnone (hi c hc)
        replace hkept := hkept fun _ => hi
        generalize (s.mutate auto (Batch.store tags now)).2 = t at htc hpath hkept
        have hview : t.database = t.disk.tables c.place := (database_eq htc).trans (view_of_none rfl)
        rcases reopen_tables (s := t.clearCache) hpath htc with hclosed | ⟨_, hsame | ⟨hscratch, _⟩⟩
        · exact .inl hclosed
        · refine .inr (hkept.trans ?_)
          rw [SameMacros, hview]
          exact ⟨hsame.macros, hsame.simpleMacros⟩
        · exact absurd hscratch (hfile c hc)

end Store

namespace Step

/-- Calls that write tags or entries of files. -/
def WritesTags : Step → Prop
  | storeTags _ _ _ | deleteByFile _ _ | insertFileEntry _ _ | updateFileEntry _ _ | deleteFileEntry _ => True
  | _ => False

/-- A batch that told of damage, after which the file is opened again. -/
def Reopens (s : Store) : Step → Prop
  | storeTags tags now auto => ∃ f, (s.storeTags tags now auto).1 = .error (.corruption f)
  | _ => False

open Store

variable {s : Store} {step : Step}

theorem WritesTags.keepsMacros (h : step.WritesTags) (hp : s.OnPath) (hs : StaysOpen s (step.act s))
    (hfile : step.Reopens s → s.OnFile) : KeepsMacros s (step.act s) := by
  have hchange : ∀ f : Database → Database, (∀ d, (f d).macros = d.macros ∧ (f d).simpleMacros = d.simpleMacros) →
      StaysOpen s (s.mutate false (Work.change f)).2 → KeepsMacros s (s.mutate false (Work.change f)).2 :=
    fun f hf => mutate_keepsMacros .change
      (fun _ _ => .change fun d hd => ⟨(hf d).1.trans hd.1, (hf d).2.trans hd.2⟩) false
  cases step with
  | storeTags tags now auto => exact storeTags_keepsMacros hp hs hfile
  | deleteByFile file auto =>
      exact mutate_keepsMacros (s := s) (Batch.orderly_removeFile file)
        (fun ms ss => (Batch.stable_macros ms ss).toLasting.removeFile file) auto hs
  | insertFileEntry file time => exact hchange _ (fun _ => ⟨rfl, rfl⟩) hs
  | updateFileEntry file time => exact hchange _ (fun _ => ⟨rfl, rfl⟩) hs
  | deleteFileEntry file => exact hchange _ (fun _ => ⟨rfl, rfl⟩) hs
  | _ => exact h.elim

/-- A closed session that writes tags stays closed. -/
theorem WritesTags.closed (h : step.WritesTags) (hc : s.connection = none) : (step.act s).connection = none := by
  have hmutate : ∀ {α : Type} (auto : Bool) (w : Work α), s.mutate auto w = (.error .notOpen, s) := by
    intro α auto w
    simp only [mutate, hc]
  cases step with
  | storeTags tags now auto =>
      show (s.storeTags tags now auto).2.connection = none
      rcases s.storeTags_cases tags now auto with hs | hs | ⟨f, _, hm, _⟩
      · rw [hs, hc]
      · rw [hs, hmutate]
        exact hc
      · rw [hmutate] at hm
        cases hm
  | deleteByFile file auto => exact (congrArg (·.2.connection) (hmutate auto (Batch.removeFile file))).trans hc
  | insertFileEntry file time => exact (congrArg (·.2.connection) (hmutate false (Work.change _))).trans hc
  | updateFileEntry file time => exact (congrArg (·.2.connection) (hmutate false (Work.change _))).trans hc
  | deleteFileEntry file => exact (congrArg (·.2.connection) (hmutate false (Work.change _))).trans hc
  | _ => exact h.elim

end Step

namespace Store

variable {s t : Store}

/-- One store comes after the other by a call that writes tags or entries of files. No transaction is taken back that
was open, and no scratch place is opened again. -/
def WritesTags (s t : Store) : Prop :=
  ∃ step : Step, step.WritesTags ∧ step.act s = t ∧ StaysOpen s t ∧ (step.Reopens s → s.OnFile)

theorem keepsMacros_of_run (hp : s.OnPath) (h : ReflTransGen WritesTags s t) : t.OnPath ∧ KeepsMacros s t := by
  induction h with
  | refl => exact ⟨hp, .inr ⟨rfl, rfl⟩⟩
  | tail _ hn ih =>
      obtain ⟨step, hw, rfl, hs, hfile⟩ := hn
      obtain ⟨hp, hclosed | hsame⟩ := ih
      · exact ⟨hp.act step, .inl (hw.closed hclosed)⟩
      · exact ⟨hp.act step, (hw.keepsMacros hp hs hfile).imp id hsame.trans⟩

/-- While the file can be read, macros are told as a map tells them. Once some are stored, each name has the last one
given with it, where an index tells which names are taken, and the others are as before. Once names are stored for a
file, they are its list, and the lists of other files are as before. The one table is left alone by writes to the other,
and both by all writes of tags and entries of files. A file that refuses to be read tells nothing, and inside a
transaction nothing is stored. -/
theorem macro_tables_are_maps (hs : s.Reachable) :
    (¬ s.Readable → s.ToldNone) ∧
    (∀ ms count, (s.storeMacros ms).1 = .ok count →
      let t := (s.storeMacros ms).2
      count = ms.length ∧ (t.Readable →
        (s.database.macrosUnique →
          ∀ name, t.toldMacro name = ((Batch.lastNamed ms name).map Macro.token).or (s.toldMacro name)) ∧
        ∀ file, t.toldSimpleMacros file = s.toldSimpleMacros file)) ∧
    (∀ file names count, (s.storeSimpleMacros file names).1 = .ok count →
      let t := (s.storeSimpleMacros file names).2
      count = names.length ∧ (t.Readable →
        (∀ file', t.toldSimpleMacros file' = if file' = file then names else s.toldSimpleMacros file') ∧
        ∀ name, t.toldMacro name = s.toldMacro name)) ∧
    (∀ t, ReflTransGen WritesTags s t → s.Readable → t.Readable → ToldAlike s t) ∧
    ∀ c, s.connection = some c → c.transaction ≠ .none → ∀ ms file names,
      s.storeMacros ms = (.error (.mutation .alreadyBegun), s) ∧
      s.storeSimpleMacros file names = (.error (.mutation .alreadyBegun), s) := by
  refine ⟨toldNone_of_unreadable, fun _ _ h => ⟨(storeMacros_ok h).1, toldMacro_storeMacros h⟩,
    fun _ _ _ h => ⟨(storeSimpleMacros_ok h).1, toldSimpleMacros_storeSimpleMacros h⟩, fun t hrun hr ht => ?_,
    fun _ hc ht => storing_macros_in_transaction hc ht⟩
  rcases (keepsMacros_of_run hs.onPath hrun).2 with hclosed | hsame
  · obtain ⟨_, hopen, _⟩ := ht
    rw [hclosed] at hopen
    cases hopen
  · exact toldAlike_of_readable_iff hsame (iff_of_true ht hr)

/-- The last of two macros with one name stays, with its parameters read leniently. What comes twice in the list of a
file is told twice. A file's macros outlast its tags, and in a transaction not even a new name is stored. -/
theorem macro_tables_are_maps_repeated_names :
    let define (name : String) (line : Int) (signature : String) : Macro :=
      { name, file := "a.h", line, isFunctionLike := true, replacement := "0", signature }
    let tag : Tag := { name := "f", file := "a.h", kind := "function", path := "f" }
    let opened := Step.act {} (.openPath "tags.db")
    let s := Step.act (Step.act opened (.storeMacros [define "A" 1 "(a)", define "B" 2 ""]))
      (.storeSimpleMacros "a.h" ["X"])
    let ms := [define "A" 5 "(a, b)", define "C" 6 "", define "A" 9 "(p,, q )"]
    let t := (s.storeMacros ms).2
    let u := (s.storeSimpleMacros "b.h" ["Y", "X", "Y"]).2
    let v := Step.act (Step.act s (.storeTags [tag] 0 true)) (.deleteByFile "a.h" true)
    let begun := Step.act s .begin
    (s.storeMacros ms).1 = .ok 3 ∧ t.toldMacro "A" = some ⟨"A", "0", 9, true, ["p", "q"]⟩ ∧
    t.toldMacro "B" = s.toldMacro "B" ∧ s.toldMacro "B" = some ⟨"B", "0", 2, true, []⟩ ∧
    (s.storeSimpleMacros "b.h" ["Y", "X", "Y"]).1 = .ok 3 ∧ u.toldSimpleMacros "b.h" = ["Y", "X", "Y"] ∧
    u.toldSimpleMacros "a.h" = ["X"] ∧ ToldAlike s v ∧
    begun.storeMacros ms = (.error (.mutation .alreadyBegun), begun) := by
  intro define tag opened s ms t u v begun
  have hs : s.Reachable := .next (.storeSimpleMacros "a.h" ["X"])
    (.next (.storeMacros [define "A" 1 "(a)", define "B" 2 ""])
      (.next (.openPath "tags.db") (.new ⟨rfl, rfl, rfl⟩ fun _ => .refl _) trivial trivial) trivial trivial) trivial trivial
  have hms : (s.storeMacros ms).1 = .ok 3 := by decide +kernel
  have hnames : (s.storeSimpleMacros "b.h" ["Y", "X", "Y"]).1 = .ok 3 := by decide +kernel
  have hb : s.toldMacro "B" = some ⟨"B", "0", 2, true, []⟩ := by decide +kernel
  have hx : s.toldSimpleMacros "a.h" = ["X"] := by decide +kernel
  have hlastA : ((Batch.lastNamed ms "A").map Macro.token).or (s.toldMacro "A") = some ⟨"A", "0", 9, true, ["p", "q"]⟩ := by
    decide +kernel
  have hlastB : Batch.lastNamed ms "B" = none := by decide +kernel
  have hidle : s.Idle := idle_of_all (by decide +kernel)
  have hv : ReflTransGen WritesTags s v :=
    .tail (.single ⟨.storeTags [tag] 0 true, trivial, rfl, fun _ => hidle, fun _ => onFile_of_all (by decide +kernel)⟩)
      ⟨.deleteByFile "a.h" true, trivial, rfl, fun _ => idle_of_all (by decide +kernel), nofun⟩
  have hbegun : begun.Reachable := .next .begin hs trivial trivial
  have hc : begun.connection.any fun c => c.transaction matches .begun := by decide +kernel
  obtain ⟨c, hc, hin⟩ := (Option.any_eq_true _ _).mp hc
  have ht : c.transaction ≠ .none := fun he => by simp [he] at hin
  obtain ⟨_, hmacros, hsimple, hruns, _⟩ := macro_tables_are_maps hs
  obtain ⟨_, _, _, _, hinside⟩ := macro_tables_are_maps hbegun
  obtain ⟨_, hmacros⟩ := hmacros ms 3 hms
  have hlast := (hmacros (by decide +kernel)).1 (by decide +kernel)
  obtain ⟨_, hsimple⟩ := hsimple "b.h" ["Y", "X", "Y"] 3 hnames
  obtain ⟨hlists, _⟩ := hsimple (by decide +kernel)
  refine ⟨hms, (hlast "A").trans hlastA, ?_, hb, hnames, (hlists "b.h").trans (if_pos rfl),
    (hlists "a.h").trans ((if_neg (by decide)).trans hx), hruns v hv (by decide +kernel) (by decide +kernel),
    (hinside c hc ht ms "b.h" []).1⟩
  rw [hlast "B", hlastB]
  rfl

/-- While another process holds the file no macro is told. -/
theorem macros_untold :
    let m : Macro := { name := "A", file := "a.h", line := 1, replacement := "0" }
    let opened := Step.act {} (.openPath "tags.db")
    let stored := Step.act opened (.storeMacros [m])
    let locked := Step.act stored (.outside (stored.disk.lock "tags.db"))
    opened.Reachable ∧ opened.Idle ∧ opened.database.macrosUnique ∧ (opened.storeMacros [m]).1 = .ok 1 ∧
      locked.database = stored.database ∧ (Batch.lastNamed [m] "A").map Macro.token = some ⟨"A", "0", 1, false, []⟩ ∧
      stored.toldMacro "A" = some ⟨"A", "0", 1, false, []⟩ ∧ locked.toldMacro "A" = none := by
  intro m opened stored locked
  have hopened : opened.Reachable := .next (.openPath "tags.db") (.new ⟨rfl, rfl, rfl⟩ fun _ => .refl _) trivial trivial
  exact ⟨hopened, idle_of_all (by decide +kernel), by decide +kernel, by decide +kernel, by decide +kernel,
    by decide +kernel, by decide +kernel, by decide +kernel⟩

end Store
end TagIndex
