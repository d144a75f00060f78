import TagIndex.Proofs.Answers
import TagIndex.Proofs.Damage
import TagIndex.Proofs.Lasting

/-!
# Sessions that serve

A session on a file that refuses no read answers each question by its options and by what it sees alone,
whatever it keeps. Being asked changes none of these.
-/

namespace TagIndex

open Lookup

/-! ## Reading undisturbed -/

namespace Work

variable {α : Type} {ρ : Refusals}

/-- Without refusals asking takes the answer from the database and goes on. -/
theorem ask_unrefused (h : ∀ n, ρ .reads n = none) (f : Database → α) (n : Nat) (db : Database) :
    ask f ρ n db = ⟨.ok (f db), n + 1, db⟩ := by
  simp only [ask, query, statement, h]
  rfl

end Work

/-- What there is to count in a database. -/
def Statistics.of (db : Database) : Statistics where
  version := db.versions.head?
  tags := db.tags.length
  globalTags := db.globals.length
  files := db.files.length
  macros := db.macros.length
  simpleMacros := db.simpleMacros.length

theorem Statistics.read_unrefused {ρ : Refusals} (h : ∀ n, ρ .reads n = none) (n : Nat) (db : Database) :
    (Statistics.read ρ n db).result = .ok (Statistics.of db) := by
  unfold Statistics.read
  iterate 6 rw [Work.bind_ok (Work.ask_unrefused h _ _ _)]
  rfl

namespace Store

variable {α : Type} {s t : Store} {c : Connection} {db : Database}

/-- The session is open on a file that refuses no read. -/
def Steady (s : Store) : Prop := ∃ c, s.connection = some c ∧ ∀ n, s.refusals c .reads n = none

theorem Steady.readable (h : s.Steady) : s.Readable := h.imp fun _ hc => ⟨hc.1, hc.2 _⟩

theorem reads_unrefused_iff : (∀ n, s.refusals c .reads n = none) ↔
    s.disk.locked.contains c.place = false ∧ (s.disk.database? c.place).isSome ∧ s.disk.Calm := by
  unfold refusals Disk.Calm
  cases s.disk.locked.contains c.place <;> cases s.disk.database? c.place <;> simp

theorem steady_of_any (hcalm : s.disk.Calm) (h : s.connection.any fun c =>
    s.disk.locked.contains c.place = false ∧ (s.disk.database? c.place).isSome) : s.Steady := by
  obtain ⟨c, hc, hfree⟩ := (Option.any_eq_true _ _).mp h
  obtain ⟨hfree, hfound⟩ := of_decide_eq_true hfree
  exact ⟨c, hc, reads_unrefused_iff.mpr ⟨hfree, hfound, hcalm⟩⟩

theorem Moves.steady (hc : s.connection = some c) (h : Moves s c db t) (hs : s.Steady) : t.Steady := by
  obtain ⟨c', hc', hr⟩ := hs
  obtain rfl : c = c' := Option.some.inj (hc.symm.trans hc')
  cases h with
  | nothing n => exact ⟨c, hc, hr⟩
  | onDisk n ht =>
      obtain ⟨hl, _, hno⟩ := reads_unrefused_iff.mp hr
      refine ⟨c, hc, reads_unrefused_iff.mpr ⟨hl, ?_, hno⟩⟩
      simp only [written, Disk.database?, Disk.content?_put, if_true]
      rfl
  | inTransaction n ht | takenBack n ht => exact ⟨_, rfl, hr⟩

/-- A steady session hands a question on to what it sees. -/
theorem Steady.askDatabase (h : s.Steady) {f : Database → Except Fault α}
    (hf : ∀ e, f s.database = .error e → e.disturbs = false) :
    ∃ c t, s.connection = some c ∧ Moves s c s.database t ∧ StaysOpen s t ∧
      (Store.askDatabase f).run s = ((f s.database).toOption, t) := by
  obtain ⟨c, hc, hr⟩ := h
  have hresult : (s.perform c (Work.query f)).1 = f s.database := by
    rw [perform_result, outcome, ← database_eq hc, Work.query, Work.statement, hr]
    cases f s.database <;> rfl
  have hopen : StaysOpen s (s.perform c (Work.query f)).2 := by
    refine perform_staysOpen (losesTransaction_eq_false fun e he => ?_)
    rw [← perform_result, hresult] at he
    exact (Fault.disturbs_eq_false.mp (hf e he)).2
  refine ⟨c, (s.perform c (Work.query f)).2, hc, (readsOnly_query f).moves hc, hopen, ?_⟩
  show Store.askDatabase f s = _
  simp only [Store.askDatabase, hc]
  rcases hp : s.perform c (Work.query f) with ⟨e | a, t⟩ <;> rw [hp] at hresult <;> dsimp only at hresult ⊢
  · have hheal : t.heal e = t := by
      rw [heal, (Fault.disturbs_eq_false.mp (hf e hresult.symm)).1]
      rfl
    rw [← hresult, hheal]
    rfl
  · rw [← hresult]
    rfl

/-- No statement of a steady session is refused, and so none ends its transaction. -/
theorem Steady.secure (h : s.Steady) : s.Secure := by
  obtain ⟨c, hc, hr⟩ := h
  intro c' n f hc' hf
  rw [← Option.some.inj (hc.symm.trans hc'), hr n] at hf
  cases hf

/-! ## Serving -/

/-- A steady session with the given options that sees the given tables. Its kept answers are current and
filtered as `A` says. -/
structure Serves (A : List String → Prop) (o : Options) (db : Database) (s : Store) : Prop where
  steady : s.Steady
  current : s.IsCurrentBy A
  options : s.options = o
  database : s.database = db

variable {A : List String → Prop} {o : Options} {q : Query} {kinds : List String}

theorem Serves.moves (h : s.Serves A o db) (hc : s.connection = some c) (hm : Moves s c s.database t)
    (hs : StaysOpen s t) : t.Serves A o db where
  steady := hm.steady hc h.steady
  current := h.current.moves hc hm hs rfl rfl
  options := hm.options.trans h.options
  database := by rcases hm.database hc hs with hd | hd <;> rw [hd, h.database]

theorem serves_askDatabase {f : Database → Except Fault α} (hf : ∀ e, f db = .error e → e.disturbs = false) :
    Meets (Serves A o db) (askDatabase f) (· = (f db).toOption) := by
  intro s h
  obtain ⟨c, t, hc, hm, hs, hrun⟩ := h.steady.askDatabase (f := f) (h.database ▸ hf)
  rw [h.database] at hrun
  rw [hrun]
  exact ⟨h.moves hc hm hs, rfl⟩

theorem serves_fetchKinds (hk : A kinds) (ht : Told A kinds) (q : Query) :
    Meets (Serves A o db) (fetchKinds q kinds) (· = found q kinds db) := by
  intro s h
  have hasked := serves_askDatabase (A := A) (o := o) (fun _ => Query.disturbs_of_run (q := q)) s h
  have hopen : StaysOpen s ((askDatabase q.run).run s).2 := by
    obtain ⟨_, t, _, _, hs, hrun⟩ := h.steady.askDatabase (f := q.run) fun _ => Query.disturbs_of_run
    rwa [hrun]
  have hcurrent : ((fetchKinds q kinds).run s).2.IsCurrentBy A := by
    refine h.current.fetchKinds q hk ?_
    rcases s.fetchKinds_cases q kinds with hs | hs | ⟨_, _, hs⟩ <;> rw [hs]
    · exact .of_eq rfl
    · exact hopen
    · exact hopen
  refine ⟨?_, ?_⟩
  · rcases s.fetchKinds_cases q kinds with hs | hs | ⟨_, _, hs⟩ <;> rw [hs] at hcurrent ⊢
    · exact h
    · exact hasked.1
    · exact ⟨hasked.1.steady, hcurrent, hasked.1.options, hasked.1.database⟩
  · rw [← h.database]
    exact (h.current.fetchKinds_answers ht q).of_readable h.steady.readable

theorem serves_searchLimit : Meets (Serves A o db) searchLimit (· = o.searchLimit) :=
  .read fun _ h => by rw [h.options]

theorem serves_nameTest (name : String) (isPartial : Bool) :
    Meets (Serves A o db) (nameTest name isPartial) (· = Test.forName name isPartial o.caseSensitive) :=
  .read fun _ h => by rw [h.options]

theorem serves_statistics :
    Meets (Serves A o db) (fun s => s.statistics : Lookup _) (· = .ok (Statistics.of db)) := by
  intro s h
  obtain ⟨c, hc, hr⟩ := h.steady
  have hrun : s.statistics =
      ((s.perform c Statistics.read).1.mapError StoreError.ofQuery, (s.perform c Statistics.read).2) := by
    simp only [statistics, hc]
  show (s.statistics.2).Serves A o db ∧ s.statistics.1 = _
  rw [hrun, perform_result, outcome, Statistics.read_unrefused hr, ← database_eq hc, h.database]
  exact ⟨h.moves hc (readsOnly_statistics.moves hc) (h.steady.secure.perform_staysOpen hc Statistics.candid_read), rfl⟩

theorem serves_schemaVersion :
    Meets (Serves A o db) (fun s => s.schemaVersion : Lookup _) (· = db.versions.head?) := by
  intro s h
  obtain ⟨c, hc, hr⟩ := h.steady
  have hrun : s.schemaVersion =
      ((s.perform c (Work.ask (·.versions.head?))).1.toOption.bind id,
        (s.perform c (Work.ask (·.versions.head?))).2) := by
    simp only [schemaVersion, hc]
  show (s.schemaVersion.2).Serves A o db ∧ s.schemaVersion.1 = _
  rw [hrun, perform_result, outcome, Work.ask_unrefused hr, ← database_eq hc, h.database]
  exact ⟨h.moves hc ((readsOnly_query _).moves hc) (h.steady.secure.perform_staysOpen hc .ask), rfl⟩

end Store

/-! ## Replies -/

namespace Lookup

variable {α β : Type} {J : Store → Prop} {l : Lookup α} {f : α → Lookup β}

/-- From wherever `J` is true the lookup gives the same answer. -/
def Determined (J : Store → Prop) (l : Lookup α) : Prop := ∃ a, Meets J l (· = a)

theorem Determined.pure {a : α} : Determined J (pure a : Lookup α) := ⟨a, .pure rfl⟩

theorem Determined.bind (hl : Determined J l) (hf : ∀ a, Determined J (f a)) : Determined J (l >>= f) := by
  obtain ⟨a, ha⟩ := hl
  obtain ⟨b, hb⟩ := hf a
  exact ⟨b, ha.bind fun _ he => he ▸ hb⟩

/-- Lookups are made of what is determined. -/
theorem Made.determined {A : List String → Prop} {o : Options} {db : Database} (h : Made A l)
    (hT : ∀ kinds, A kinds → Store.Told A kinds) : Determined (Store.Serves A o db) l := by
  induction h with
  | pure a => exact .pure
  | bind _ _ hl hf => exact .bind hl hf
  | limit => exact ⟨_, Store.serves_searchLimit⟩
  | test name isPartial => exact ⟨_, Store.serves_nameTest name isPartial⟩
  | fetch q hk => exact ⟨_, Store.serves_fetchKinds hk (hT _ hk) q⟩
  | ask hf => exact ⟨_, Store.serves_askDatabase fun e => hf _ e⟩

end Lookup

namespace Question

open Lookup Store

variable {o : Options} {db : Database}

/-- To sessions with the same options that see the same tables, a question has one answer. -/
theorem reply_determined {A : List String → Prop} (hA : A []) (hT : ∀ kinds, A kinds → Told A kinds)
    {question : Question} (hq : question.FiltersBy A) : Determined (Serves A o db) question.reply := by
  cases question with
  | statistics => exact .bind ⟨_, serves_statistics⟩ fun _ => .pure
  | schemaVersion => exact .bind ⟨_, serves_schemaVersion⟩ fun _ => .pure
  | _ => exact (made_reply hA (by trivial) hq).determined hT

/-- Sessions with the same options that see the same tables give the same answers, also if one has asked
before and the other has not. -/
theorem reply_agrees {s t : Store} (hs : s.Serves Query.PlainKinds o db) (ht : t.Serves Query.PlainKinds o db)
    {question : Question} (hq : question.FiltersBy Query.PlainKinds) :
    (question.reply.run s).1 = (question.reply.run t).1 := by
  obtain ⟨a, ha⟩ := reply_determined (A := Query.PlainKinds) nofun
    (fun _ hk _ hk' htext => Query.kindsText_injective hk' hk htext) hq
  exact (ha s hs).2.trans (ha t ht).2.symm

end Question
end TagIndex
