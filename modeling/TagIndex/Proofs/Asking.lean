import TagIndex.Proofs.Lookups
import TagIndex.Proofs.Turns

/-!
# Asking writes nothing

A question that the database answers leaves the session with what it saw; one that meets damage opens
the file again. Either way no place is written to.
-/

namespace TagIndex.Store

open Lookup

variable {α : Type} {s t : Store} {c : Connection} {w : Work α} {q : Query} {kinds : List String}

def ReadsOnly (w : Work α) : Prop := ∀ db, Work.Keeps (· = db) w

theorem readsOnly_query (f : Database → Except Fault α) : ReadsOnly (Work.query f) :=
  fun _ => Work.Keeps.query

theorem readsOnly_statistics : ReadsOnly Statistics.read := fun _ =>
  Work.Keeps.bind Work.Keeps.ask fun _ => Work.Keeps.bind Work.Keeps.ask fun _ =>
    Work.Keeps.bind Work.Keeps.ask fun _ => Work.Keeps.bind Work.Keeps.ask fun _ =>
      Work.Keeps.bind Work.Keeps.ask fun _ => Work.Keeps.bind Work.Keeps.ask fun _ => Work.Keeps.pure

theorem ReadsOnly.moves (hw : ReadsOnly w) (hc : s.connection = some c) :
    Moves s c s.database (s.perform c w).2 := by
  have h := s.perform_moves c w
  rwa [outcome, (hw _).db rfl, ← database_eq hc] at h

/-- A question either gets its answer from what the session sees, or it gets none, and the file may be
opened again. -/
theorem askDatabase_cases (s : Store) (f : Database → Except Fault α) :
    (∃ a c, s.connection = some c ∧ f s.database = .ok a ∧ ((askDatabase f).run s).1 = some a ∧
      StaysOpen s ((askDatabase f).run s).2 ∧ Moves s c s.database ((askDatabase f).run s).2) ∨
    ((askDatabase f).run s).1 = none ∧ (((askDatabase f).run s).2 = s ∨
      ∃ c t e, s.connection = some c ∧ Moves s c s.database t ∧
        ((askDatabase f).run s).2 = t.heal e) := by
  show (∃ a c, s.connection = some c ∧ f s.database = .ok a ∧ (askDatabase f s).1 = some a ∧
      StaysOpen s (askDatabase f s).2 ∧ Moves s c s.database (askDatabase f s).2) ∨
    (askDatabase f s).1 = none ∧ ((askDatabase f s).2 = s ∨
      ∃ c t e, s.connection = some c ∧ Moves s c s.database t ∧ (askDatabase f s).2 = t.heal e)
  unfold askDatabase
  split
  · exact .inr ⟨rfl, .inl rfl⟩
  · rename_i c hc
    have hm := (readsOnly_query f).moves hc
    have hr := s.perform_result c (Work.query f)
    have hkept := s.perform_staysOpen (c := c) (w := Work.query f)
    rcases hp : s.perform c (Work.query f) with ⟨e | a, t⟩ <;> rw [hp] at hm hr hkept
    · exact .inr ⟨rfl, .inr ⟨c, t, e, hc, hm, rfl⟩⟩
    · refine .inl ⟨a, c, hc, ?_, rfl, hkept (losesTransaction_of_ok hr.symm), hm⟩
      have hmeets : Work.Meets (· = s.view c) (Work.query f)
          (fun a db => f db = .ok a ∧ db = s.view c) fun _ => True :=
        .query (fun db b hb he => ⟨he, hb⟩) fun _ _ => trivial
      obtain ⟨hok, hdb⟩ := hmeets.ok rfl hr.symm
      rwa [database_eq hc, ← hdb]

/-- The lookup of rows answers what is kept, or else asks and keeps what is answered. -/
theorem fetchKinds_run (s : Store) (q : Query) (kinds : List String) : (fetchKinds q kinds).run s =
    if q.isTooLarge then ([], s)
    else match if s.options.useCache then s.cache.find? (q.key kinds) else none with
      | some rows => (rows, s)
      | none => match (askDatabase q.run).run s with
        | (none, t) => ([], t)
        | (some rows, t) => (keepKinds kinds rows,
            if s.options.useCache then { t with cache := t.cache.keep (q.key kinds) (keepKinds kinds rows) }
            else t) := by
  unfold fetchKinds
  split
  · rfl
  · simp only [bind_pure_comp, StateT.run_bind, StateT.run_get, pure_bind]
    generalize (if s.options.useCache then s.cache.find? (q.key kinds) else none) = kept
    cases kept with
    | some rows => rfl
    | none =>
        dsimp only
        rw [StateT.run_bind]
        rcases (askDatabase q.run).run s with ⟨_ | rows, t⟩
        · rfl
        · dsimp only
          split <;> rfl

theorem fetchKinds_cases (s : Store) (q : Query) (kinds : List String) :
    ((fetchKinds q kinds).run s).2 = s ∨
    ((fetchKinds q kinds).run s).2 = ((askDatabase q.run).run s).2 ∨
    ∃ rows, ((askDatabase q.run).run s).1 = some rows ∧ ((fetchKinds q kinds).run s).2 =
      { ((askDatabase q.run).run s).2 with
        cache := ((askDatabase q.run).run s).2.cache.keep (q.key kinds) (keepKinds kinds rows) } := by
  rw [fetchKinds_run]
  split
  · exact .inl rfl
  split
  · exact .inl rfl
  right
  rcases (askDatabase q.run).run s with ⟨_ | rows, t⟩
  · exact .inl rfl
  · dsimp only
    split
    · exact .inr ⟨rows, rfl, rfl⟩
    · exact .inl rfl

/-- A lookup of rows that answers any leaves what the session sees. -/
theorem fetchKinds_sees (s : Store) (q : Query) (kinds : List String) :
    ((fetchKinds q kinds).run s).1 = [] ∨ ((fetchKinds q kinds).run s).2.database = s.database := by
  rw [fetchKinds_run]
  split
  · exact .inl rfl
  split
  · exact .inr rfl
  rcases hasked : (askDatabase q.run).run s with ⟨_ | rows, t⟩
  · exact .inl rfl
  · right
    have hsame : t.database = s.database := by
      rcases s.askDatabase_cases q.run with ⟨_, c, hc, _, _, hs, hm⟩ | ⟨hnone, _⟩
      · rw [hasked] at hs hm
        exact (hm.database hc hs).elim id id
      · rw [hasked] at hnone
        cases hnone
    dsimp only
    split <;> exact hsame

theorem fetchKinds_answer (s : Store) (q : Query) (kinds : List String) :
    ((fetchKinds q kinds).run s).1 = if q.isTooLarge then [] else
      ((if s.options.useCache then s.cache.find? (q.key kinds) else none).or
        (((askDatabase q.run).run s).1.map (keepKinds kinds))).getD [] := by
  rw [fetchKinds_run]
  split
  · rfl
  split
  · rename_i rows hkept
    rw [hkept]
    rfl
  · rename_i hkept
    rw [hkept, Option.none_or]
    rcases (askDatabase q.run).run s with ⟨_ | rows, t⟩ <;> rfl

/-- A file that refuses nothing answers what the session sees in it. -/
theorem askDatabase_answer (hc : s.connection = some c)
    (hr : s.refusals c .reads s.disk.statements = none) (f : Database → Except Fault α) :
    ((askDatabase f).run s).1 = (f s.database).toOption := by
  have hresult : (s.perform c (Work.query f)).1 = f s.database := by
    rw [perform_result, outcome, ← database_eq hc, Work.query, Work.statement, hr]
    cases f s.database <;> rfl
  show (askDatabase f s).1 = _
  simp only [askDatabase, hc]
  rcases hp : s.perform c (Work.query f) with ⟨e | a, t⟩ <;> rw [hp] at hresult <;>
    rw [← hresult] <;> rfl

theorem askDatabase_reads (s : Store) (f : Database → Except Fault α) :
    Reads s ((askDatabase f).run s).2 := by
  rcases s.askDatabase_cases f with ⟨a, c, hc, _, _, _, hm⟩ | ⟨_, h | ⟨c, t, e, hc, hm, h⟩⟩
  · exact hm.reads hc (.refl _)
  · rw [h]
    exact .refl s
  · rw [h]
    exact (hm.reads hc (.refl _)).trans (t.heal_reads e)

theorem fetchKinds_reads (s : Store) (q : Query) (kinds : List String) :
    Reads s ((fetchKinds q kinds).run s).2 := by
  rcases s.fetchKinds_cases q kinds with h | h | ⟨rows, _, h⟩ <;> rw [h]
  · exact .refl s
  · exact s.askDatabase_reads q.run
  · exact (s.askDatabase_reads q.run).trans (reads_of_leaves rfl (.refl _))

theorem statistics_cases (s : Store) : s.statistics.2 = s ∨
    ∃ c, s.connection = some c ∧ Moves s c s.database s.statistics.2 := by
  unfold statistics
  split
  · exact .inl rfl
  · exact .inr ⟨_, ‹_›, readsOnly_statistics.moves ‹_›⟩

theorem schemaVersion_cases (s : Store) : s.schemaVersion.2 = s ∨
    ∃ c, s.connection = some c ∧ Moves s c s.database s.schemaVersion.2 := by
  unfold schemaVersion
  split
  · exact .inl rfl
  · exact .inr ⟨_, ‹_›, (readsOnly_query _).moves ‹_›⟩

/-- Whatever fetching, moving and healing keep, every question keeps. -/
theorem ask_keeps {J : Store → Prop} {A : List String → Prop} (hA : A [])
    (hf : ∀ q kinds, A kinds → Keeps J (fetchKinds q kinds))
    (hm : ∀ {s c t}, s.connection = some c → Moves s c s.database t → J s → J t)
    (hh : ∀ {s} e, J s → J (s.heal e)) {question : Question} (hq : question.FiltersBy A) (h : J s) :
    J (question.ask s) := by
  have hmoves : ∀ {s t}, (t = s ∨ ∃ c, s.connection = some c ∧ Moves s c s.database t) → J s → J t := by
    rintro s t (rfl | ⟨c, hc, hmove⟩) h
    · exact h
    · exact hm hc hmove h
  refine question.keeps hA hf (fun α f _ s h => ?_)
    (fun s h => ⟨hmoves s.statistics_cases h, hmoves s.schemaVersion_cases h⟩) hq h
  rcases s.askDatabase_cases f with ⟨a, c, hc, _, _, _, hmove⟩ | ⟨_, hs | ⟨c, t, e, hc, hmove, hs⟩⟩
  · exact hm hc hmove h
  · rwa [hs]
  · rw [hs]
    exact hh e (hm hc hmove h)

theorem ask_reads (s : Store) (question : Question) : Reads s (question.ask s) :=
  ask_keeps (A := fun _ => True) trivial (fun q kinds _ t h => h.trans (t.fetchKinds_reads q kinds))
    (fun hc hm h => h.trans (hm.reads hc (.refl _))) (fun e h => h.trans (heal_reads _ e))
    question.filtersBy_true (.refl s)

end TagIndex.Store
