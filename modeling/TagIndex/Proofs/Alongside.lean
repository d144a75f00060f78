import TagIndex.Proofs.Ceiling
import TagIndex.Proofs.Serving

/-!
# Sessions side by side

Two sessions on one file that differ in their options, and in how many statements there were, go the same way
through a lookup, as long as no statement meets trouble of its own: the file answers both or refuses both.
-/

namespace TagIndex

/-! ## Pairs of lookups -/

namespace Lookup

variable {α α' β β' : Type} {R R' R'' : Store → Store → Prop} {P Q : α → α' → Prop} {S : β → β' → Prop}
  {l m : Lookup α} {l' m' : Lookup α'} {f : α → Lookup β} {f' : α' → Lookup β'} {a : α} {a' : α'}

/-- From stores that are as `R` says the two lookups answer as `Q` says, and they leave stores that are as
`R'` says. -/
def Pairs (R R' : Store → Store → Prop) (l : Lookup α) (l' : Lookup α') (Q : α → α' → Prop) : Prop :=
  ∀ s s', R s s' → R' (l.run s).2 (l'.run s').2 ∧ Q (l.run s).1 (l'.run s').1

/-- Nothing is said of the two stores. -/
def Any (_ _ : Store) : Prop := True

theorem Pairs.pure_bind (hf : Pairs R R' (f a) (f' a') S) :
    Pairs R R' ((pure a : Lookup α) >>= f) ((pure a' : Lookup α') >>= f') S := hf

/-- Where one lookup is over, the other is looked at alone. -/
theorem Pairs.of_meets {P : α' → Prop} (h : Meets (fun _ => True) l' P) :
    Pairs R Any (pure a : Lookup α) l' fun b b' => b = a ∧ P b' :=
  fun _ s' _ => ⟨trivial, rfl, (h s' trivial).2⟩

theorem Pairs.pure (h : Q a a') : Pairs R R (pure a : Lookup α) (pure a' : Lookup α') Q :=
  fun _ _ hr => ⟨hr, h⟩

theorem Pairs.bind (hl : Pairs R R' l l' P) (hf : ∀ a a', P a a' → Pairs R' R'' (f a) (f' a') S) :
    Pairs R R'' (l >>= f) (l' >>= f') S :=
  fun s s' hr => hf _ _ (hl s s' hr).2 _ _ (hl s s' hr).1

theorem Pairs.ite {p : Prop} [Decidable p] (h : Pairs R R' l l' Q) (hn : Pairs R R' m m' Q) :
    Pairs R R' (if p then l else m) (if p then l' else m') Q := by
  split
  · exact h
  · exact hn

theorem Pairs.imp (h : Pairs R R' l l' P) (hr : ∀ s s', R' s s' → R'' s s') (hq : ∀ a a', P a a' → Q a a') :
    Pairs R R'' l l' Q :=
  fun s s' hs => ⟨hr _ _ (h s s' hs).1, hq _ _ (h s s' hs).2⟩

theorem Pairs.any (h : Pairs R R' l l' Q) : Pairs R Any l l' Q :=
  h.imp (fun _ _ _ => trivial) fun _ _ => id

end Lookup

open Lookup

/-! ## Statements do not matter -/

namespace Disk

variable {d : Disk}

/-- The disk when its next statement has the given number. -/
def counted (d : Disk) (n : Nat) : Disk := { d with statements := n }

theorem follow_counted (d : Disk) (n : Nat) (dir parts : List String) :
    (d.counted n).follow dir parts = d.follow dir parts := by
  induction parts generalizing dir with
  | nil => rfl
  | cons p ps ih =>
      rw [follow, follow, ih, ih, ih]
      rfl

/-- Without trouble the schema comes out the same, whatever the number of its first statement is. -/
theorem prepare_counted (hd : d.Calm) (n : Nat) (p : Place) (db : Database) : (d.counted n).prepare p db =
    ((d.prepare p db).1, (d.prepare p db).2.counted (n + Schema.statements.length + 2)) := by
  have hensure : ∀ n, Schema.ensure (fun _ m => d.trouble m) n db =
      ⟨.ok (), n + Schema.statements.length + 2, Schema.settled db⟩ := fun n =>
    Schema.ensure_unrefused (ρ := fun _ m => d.trouble m) hd n db
  simp only [prepare, counted, hensure]
  rfl

theorem connectFile_counted (hd : d.Calm) (n : Nat) (access : Access) (parts : List String) :
    ∃ m, (d.counted n).connectFile access parts =
      (d.connectFile access parts).map fun opened => (opened.1, opened.2.counted m) := by
  have hdirectory : (d.counted n).isDirectory = d.isDirectory := rfl
  have hexists : (d.counted n).isFile = d.isFile := rfl
  have hdatabase : (d.counted n).database? = d.database? := rfl
  have hlocked : (d.counted n).locked = d.locked := rfl
  simp only [connectFile, hdirectory, hexists, hdatabase, hlocked, prepare_counted hd]
  split
  · exact ⟨n, rfl⟩
  split
  · exact ⟨n, rfl⟩
  split
  · exact ⟨n, rfl⟩
  split
  · split
    · exact ⟨_, rfl⟩
    · exact ⟨n, rfl⟩
  split
  · exact ⟨n, rfl⟩
  · split
    · exact ⟨n, rfl⟩
    · exact ⟨_, rfl⟩

theorem connect_counted (hd : d.Calm) (n : Nat) (text : String) : ∃ m, (d.counted n).connect text =
    (d.connect text).map fun opened => (opened.1, opened.2.counted m) := by
  have hlocate : ∀ a, (d.counted n).locate a = d.locate a := by
    intro a
    simp only [locate, follow_counted]
  unfold connect
  split
  · exact ⟨n, rfl⟩
  · exact ⟨n, rfl⟩
  rw [hlocate]
  split
  · exact ⟨n, rfl⟩
  · split
    · exact ⟨n, rfl⟩
    · exact ⟨_, congrArg Except.ok (prepare_counted hd n .scratch {})⟩
  · exact connectFile_counted hd n _ _

end Disk

namespace Store

variable {α : Type} {s : Store} {c : Connection} {f : Database → Except Fault α}

/-- The session with the given options when its next statement has the given number. -/
def besides (s : Store) (n : Nat) (o : Options) : Store := { s.counted n with options := o }

theorem connect_besides (hcalm : s.disk.Calm) (n : Nat) (o : Options) (path : String) :
    ∃ m, (s.besides n o).connect path = (s.connect path).map (·.besides m o) := by
  obtain ⟨m, hd⟩ := Disk.connect_counted hcalm n path
  refine ⟨m, ?_⟩
  unfold connect
  rw [show (s.besides n o).disk.connect path = _ from hd]
  cases s.disk.connect path <;> rfl

theorem reopen_besides (hcalm : s.disk.Calm) (n : Nat) (o : Options) :
    ∃ m, (s.besides n o).reopen.2 = s.reopen.2.besides m o := by
  cases hpath : s.path with
  | none =>
      have hpath' : (s.besides n o).path = none := hpath
      simp only [reopen, hpath, hpath']
      exact ⟨n, rfl⟩
  | some path =>
      have hpath' : (s.besides n o).path = some path := hpath
      have hdropped : (s.besides n o).dropped = s.dropped.besides n o := rfl
      obtain ⟨m, hconnect⟩ := connect_besides (s := s.dropped) hcalm n o path
      rw [reopen_of_path hpath, reopen_of_path hpath', hdropped, hconnect]
      cases s.dropped.connect path with
      | error reason => exact ⟨n, rfl⟩
      | ok t => exact ⟨m, rfl⟩

theorem heal_besides (hcalm : s.disk.Calm) (n : Nat) (o : Options) (e : Fault) :
    ∃ m, (s.besides n o).heal e = (s.heal e).besides m o := by
  unfold heal
  split
  · exact reopen_besides hcalm n o
  · exact ⟨n, rfl⟩

/-! ## Refused questions -/

/-- The store after its next statement was refused. -/
def refused (s : Store) (c : Connection) (e : Fault) : Store :=
  if losesTransaction c (.error e : Except Fault Unit) then (s.counted (s.disk.statements + 1)).withTransaction c .none
  else s.counted (s.disk.statements + 1)

theorem refused_disk (s : Store) (c : Connection) (e : Fault) :
    (s.refused c e).disk = (s.counted (s.disk.statements + 1)).disk := by
  unfold refused
  split <;> rfl

theorem refused_path (s : Store) (c : Connection) (e : Fault) : (s.refused c e).path = s.path := by
  unfold refused
  split <;> rfl

theorem refused_of_calm {e : Fault} (hcalm : s.disk.Calm) {use : Use} {n : Nat} (hr : s.refusals c use n = some e) :
    s.refused c e = s.counted (s.disk.statements + 1) := by
  have hends : e.endsTransaction = false := by
    unfold refusals at hr
    rw [hcalm n] at hr
    split at hr
    · cases hr
      rfl
    split at hr
    · cases hr
      rfl
    split at hr <;> cases hr
    rfl
  rw [refused, losesTransaction, hends, Bool.and_false, if_neg Bool.false_ne_true]

theorem askDatabase_refused {e : Fault} (hc : s.connection = some c)
    (hr : s.refusals c .reads s.disk.statements = some e) :
    (askDatabase f).run s = (none, (s.refused c e).heal e) := by
  have hout : s.outcome c (Work.query f) = ⟨.error e, s.disk.statements + 1, s.view c⟩ := by
    simp only [outcome, Work.query, Work.statement, hr]
  have hp : s.perform c (Work.query f) = (.error e, s.refused c e) := by
    have halone : s.leavesAlone c (Work.query f) := by simp [leavesAlone, hr]
    rw [perform_eq, hout, if_pos halone]
    rfl
  show askDatabase f s = _
  simp only [askDatabase, hc, hp]

theorem askDatabase_closed (hc : s.connection = none) : (askDatabase f).run s = (none, s) := by
  show askDatabase f s = _
  simp only [askDatabase, hc]

theorem askDatabase_unreadable (h : ¬ s.Readable) : ((askDatabase f).run s).1 = none := by
  cases hc : s.connection with
  | none => rw [askDatabase_closed hc]
  | some c =>
      cases hr : s.refusals c .reads s.disk.statements with
      | none => exact absurd ⟨c, hc, hr⟩ h
      | some e => rw [askDatabase_refused hc hr]

theorem askDatabase_readable {a : α} (hr : s.Readable) (hf : f s.database = .ok a) :
    ((askDatabase f).run s).1 = some a := by
  obtain ⟨c, hc, hno⟩ := hr
  rw [askDatabase_answer hc hno, hf]
  rfl

/-- A session that keeps nothing answers from its file alone. -/
theorem fetchKinds_of_empty (he : s.cache.entries = []) (q : Query) (kinds : List String) :
    ((fetchKinds q kinds).run s).1 = if s.Readable then found q kinds s.database else [] := by
  have hkept : (if s.options.useCache then s.cache.find? (q.key kinds) else none) = none := by
    simp [Cache.find?, he]
  rw [fetchKinds_answer, hkept, Option.none_or, found]
  split
  · split <;> rfl
  split
  · obtain ⟨c, hc, hr⟩ := ‹s.Readable›
    rw [askDatabase_answer hc hr]
  · rw [askDatabase_unreadable ‹_›]
    rfl

theorem Readable.steady (h : s.Readable) (hcalm : s.disk.Calm) : s.Steady := by
  obtain ⟨c, hc, hr⟩ := h
  exact ⟨c, hc, fun n => (refusals_calm hcalm c .reads n _).trans hr⟩

/-! ## Going on side by side -/

variable {A : List String → Prop} {o o' : Options} {kinds : List String} {q q' : Query} {n : Nat}

/-- Two sessions with the given options: both serve what they see, or else the file refuses both. -/
inductive Alongside (A : List String → Prop) (o o' : Options) : Store → Store → Prop where
  | serving {s s' : Store} {db : Database} (h : s.Serves A o db) (h' : s'.Serves A o' db) : Alongside A o o' s s'
  | refused {s : Store} (n : Nat) (calm : s.disk.Calm) (options : s.options = o) (empty : s.cache.entries = [])
    (unreadable : ¬ s.Readable) : Alongside A o o' s (s.besides n o')

theorem alongside_of_calm (hcalm : s.disk.Calm) (ho : s.options = o) (he : s.cache.entries = []) (n : Nat) :
    Alongside A o o' s (s.besides n o') := by
  by_cases hr : s.Readable
  · have hsteady : (s.besides n o').Steady := hr.steady hcalm
    exact .serving ⟨hr.steady hcalm, .of_empty he, ho, rfl⟩ ⟨hsteady, .of_empty he, rfl, rfl⟩
  · exact .refused n hcalm ho he hr

theorem Alongside.options {s s' : Store} (h : Alongside A o o' s s') : s.options = o ∧ s'.options = o' := by
  cases h with
  | serving h h' => exact ⟨h.options, h'.options⟩
  | refused n _ ho => exact ⟨ho, rfl⟩

/-- A lookup that is refused keeps nothing, and both sessions come back from it alike. -/
theorem alongside_refused (hcalm : s.disk.Calm) (ho : s.options = o) (he : s.cache.entries = [])
    (hr : ¬ s.Readable) (n : Nat) (hq : q'.isTooLarge = q.isTooLarge) :
    Alongside A o o' ((fetchKinds q kinds).run s).2 ((fetchKinds q' kinds).run (s.besides n o')).2 := by
  have hkept : ∀ {t : Store} {q : Query}, t.cache.entries = [] →
      (if t.options.useCache then t.cache.find? (q.key kinds) else none) = none := by
    intro t q ht
    simp [Cache.find?, ht]
  have he' : (s.besides n o').cache.entries = [] := he
  rw [fetchKinds_run, fetchKinds_run, hq, hkept he, hkept he']
  split
  · exact alongside_of_calm hcalm ho he n
  cases hc : s.connection with
  | none =>
      have hc' : (s.besides n o').connection = none := hc
      rw [askDatabase_closed hc, askDatabase_closed hc']
      exact alongside_of_calm hcalm ho he n
  | some c =>
      cases hfault : s.refusals c .reads s.disk.statements with
      | none => exact absurd ⟨c, hc, hfault⟩ hr
      | some e =>
          have hfault' : (s.besides n o').refusals c .reads n = some e :=
            (refusals_calm hcalm c .reads _ _).trans hfault
          have hc' : (s.besides n o').connection = some c := hc
          have hcalm' : (s.besides n o').disk.Calm := hcalm
          rw [askDatabase_refused hc hfault, askDatabase_refused (s := s.besides n o') hc' hfault',
            refused_of_calm hcalm hfault, refused_of_calm hcalm' hfault']
          -- Healing goes the same way whatever the number of the statement is.
          have hsame : (s.besides n o').counted (n + 1) =
              (s.counted (s.disk.statements + 1)).besides (n + 1) o' := rfl
          have hcounted : (s.counted (s.disk.statements + 1)).disk.Calm := hcalm
          obtain ⟨m, hheal⟩ := heal_besides hcounted (n + 1) o' e
          change Alongside A o o' _ (((s.besides n o').counted (n + 1)).heal e)
          rw [hsame, hheal]
          obtain ⟨hremains, hoptions⟩ := heal_remains (s.counted (s.disk.statements + 1)) e
          refine alongside_of_calm (lasting_calm.heal hcounted e) (hoptions.trans ho) ?_ _
          rcases hremains with hsame | hempty
          · rw [hsame]
            exact he
          · exact hempty

/-- What the answers to two queries have in common on every database, they have in common here. -/
theorem fetchKinds_alongside (hk : A kinds) (ht : Told A kinds) (hq : q'.isTooLarge = q.isTooLarge)
    {Q : List Row → List Row → Prop} (hnil : Q [] []) (hfound : ∀ db, Q (found q kinds db) (found q' kinds db)) :
    Pairs (Alongside A o o') (Alongside A o o') (fetchKinds q kinds) (fetchKinds q' kinds) Q := by
  intro s s' h
  cases h with
  | serving h h' =>
      obtain ⟨hserves, hrows⟩ := serves_fetchKinds hk ht q _ h
      obtain ⟨hserves', hrows'⟩ := serves_fetchKinds hk ht q' _ h'
      rw [hrows, hrows']
      exact ⟨.serving hserves hserves', hfound _⟩
  | refused n hcalm ho he hr =>
      refine ⟨alongside_refused hcalm ho he hr n hq, ?_⟩
      have hr' : ¬ (s.besides n o').Readable := by
        rintro ⟨c, hc, hno⟩
        exact hr ⟨c, hc, (refusals_calm hcalm c .reads _ _).trans hno⟩
      rw [fetchKinds_of_empty he, fetchKinds_of_empty (s := s.besides n o') he, if_neg hr, if_neg hr']
      exact hnil

end Store
end TagIndex
