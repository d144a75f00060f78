import TagIndex.Proofs.Damage
import TagIndex.Proofs.Serving

/-!
# Transactions that are taken back

Nothing that a session does between `begin` and `rollback` ends its transaction, as long as no statement meets damage
or a fault that takes the transaction back. So the rollback leaves the store as it was before, with other options at
most, and without kept answers. What is asked later is answered from what was there before.
-/

namespace TagIndex

open Relation Lookup

/-! ## Steps inside a transaction -/

/-- The faults after which a connection does not go on as before: damage, and those that take back the transaction that
it is in. -/
def Connection.isDisturbedBy (c : Connection) (f : Fault) : Bool := f.isDamage || !c.isIdle && f.endsTransaction

namespace Step

/-- The step neither begins nor ends a transaction or a connection. -/
def StaysIn : Step → Prop
  | openPath _ | close | reopen | begin | commit | rollback | restart _ => False
  | _ => True

/-- The step asks, tunes the session, or is another process's. -/
def WritesNothing : Step → Prop
  | setBusyTimeout _ | setSearchLimit _ | setCaseSensitive _ | setUseCache _ | clearCache | ask _
  | outside _ => True
  | _ => False

theorem WritesNothing.staysIn {step : Step} (h : step.WritesNothing) : step.StaysIn := by
  cases step <;> trivial

/-- One of the statements that the step runs meets damage, or a fault that takes the open transaction back. -/
def IsDisturbed (s : Store) : Step → Prop
  | outside _ => False
  | step => ∃ c, s.connection = some c ∧ s.MeetsBefore c.isDisturbedBy c (step.act s).disk.statements

end Step

namespace Store

variable {α : Type} {s t u : Store} {c : Connection} {w : Work α} {auto : Bool} {step : Step}

/-- The session keeps its path and its connection, with a transaction if it had one, and what is on the
disk stays. -/
structure Stays (s : Store) (c : Connection) (t : Store) : Prop where
  connection : ∃ transaction, (transaction = .none ↔ c.transaction = .none) ∧
    t.connection = some { c with transaction }
  path : t.path = s.path
  leaves : s.disk.Leaves t.disk

theorem Stays.refl (hc : s.connection = some c) : Stays s c s :=
  ⟨⟨c.transaction, .rfl, hc⟩, rfl, .refl _⟩

theorem Stays.trans (h : Stays s c t) (h' : ∀ c', t.connection = some c' → Stays t c' u) : Stays s c u := by
  obtain ⟨transaction, hnone, hc⟩ := h.connection
  obtain ⟨⟨transaction', hnone', hc'⟩, hp, hl⟩ := h' _ hc
  exact ⟨⟨transaction', hnone'.trans hnone, hc'⟩, hp.trans h.path, Disk.Leaves.trans h.leaves hl⟩

/-- A session that nothing disturbs stays in its transaction, or without one. -/
theorem Proceeds.stays (h : Proceeds s c t) (hc : s.connection = some c)
    (hd : ¬ s.MeetsBefore c.isDisturbedBy c t.disk.statements) : Stays s c t := by
  have hgoes : GoesOn s c t :=
    h.goesOn.resolve_right fun hm => hd (hm.imp fun hf => Bool.or_eq_true_iff.mpr (.inl hf))
  have hopen : StaysOpen s t := by
    refine h.staysOpen.elim id fun hm hi => ?_
    by_contra hno
    refine hd (hm.imp fun {f} hf => ?_)
    have hidle : c.isIdle = false := by
      refine Bool.eq_false_iff.mpr fun hnone => hno fun c' hc' => ?_
      rw [← Option.some.inj (hc.symm.trans hc')]
      exact isIdle_iff.mp hnone
    simpa [Connection.isDisturbedBy, hidle, Fault.disturbs] using hf
  obtain ⟨transaction, hnone, ht⟩ := hgoes.connection
  refine ⟨⟨transaction, ⟨fun he => hopen (fun c' hc' => ?_) c hc, hnone⟩, ht⟩, hgoes.path, hgoes.leaves⟩
  rw [← Option.some.inj (ht.symm.trans hc')]
  exact he

/-- In a transaction, work is done in it or not at all. -/
theorem mutate_stays (hc : s.connection = some c) (ht : c.transaction ≠ .none) (auto : Bool) {w : Work α} (hw : w.Candid)
    (hd : ¬ s.MeetsBefore c.isDisturbedBy c (s.mutate auto w).2.disk.statements) : Stays s c (s.mutate auto w).2 := by
  cases auto with
  | true =>
      rw [mutate_of_begun hc ht]
      exact .refl hc
  | false =>
      rw [mutate_false hc] at hd ⊢
      exact (perform_proceeds hc (fun hn => absurd hn ht) hw).stays hc hd

/-- The file is opened again only if a statement met damage. -/
theorem storeTags_stays (hc : s.connection = some c) (ht : c.transaction ≠ .none) {tags : List Tag}
    {now : Int} (hd : ¬ s.MeetsBefore c.isDisturbedBy c (s.storeTags tags now auto).2.disk.statements) :
    Stays s c (s.storeTags tags now auto).2 := by
  cases hne : tags.isEmpty with
  | true =>
      simp only [storeTags, hne, if_true]
      exact .refl hc
  | false =>
      have hcounts : (s.mutate auto (Batch.store tags now)).2.disk.statements ≤
          (s.storeTags tags now auto).2.disk.statements := by
        simp only [storeTags, hne, Bool.false_eq_true, if_false]
        split
        · exact reopen_statements (s.mutate auto (Batch.store tags now)).2.clearCache
        · exact Nat.le_refl _
      replace hd := fun hm => hd (MeetsBefore.mono hm hcounts)
      have hstays := mutate_stays hc ht auto (Batch.candid_store tags now) hd
      simp only [storeTags, hne, Bool.false_eq_true, if_false]
      split
      · rename_i f hf
        -- The file was opened again, so a statement has met damage.
        refine absurd ?_ hd
        cases auto with
        | true =>
            rw [mutate_of_begun hc ht] at hf
            cases hf
        | false =>
            rw [mutate_false hc] at hf ⊢
            rcases hr : (s.perform c (Batch.store tags now)).1 with e | stats
            · have hdamage : e.isDamage := by
                rw [hr] at hf
                by_contra hno
                simp [Except.mapError, StoreError.ofMutation, hno] at hf
              exact (perform_meets disturbs_of_isDamage (Batch.candid_store tags now) hr hdamage).imp fun hf =>
                Bool.or_eq_true_iff.mpr (.inl hf)
            · rw [hr] at hf
              cases hf
      · exact ⟨hstays.connection, hstays.path, hstays.leaves⟩

/-- The session has the same connection to what is still on the disk. -/
structure Resumes (s t : Store) : Prop where
  connection : t.connection = s.connection
  path : t.path = s.path
  leaves : s.disk.Leaves t.disk

theorem Resumes.refl (s : Store) : Resumes s s := ⟨rfl, rfl, .refl _⟩

theorem Resumes.trans (h : Resumes s t) (h' : Resumes t u) : Resumes s u :=
  ⟨h'.connection.trans h.connection, h'.path.trans h.path, Disk.Leaves.trans h.leaves h'.leaves⟩

theorem Resumes.eq (h : Resumes s t) :
    t = { s with disk := t.disk, options := t.options, cache := t.cache } := by
  obtain ⟨hconnection, hpath, _⟩ := h
  rw [← hconnection, ← hpath]

/-- Without a transaction it sees what is on the disk. -/
theorem Resumes.database (h : Resumes s t) (hi : s.Idle) : s.database.SameTables t.database := by
  cases hc : s.connection with
  | none =>
      simp only [Store.database, h.connection, hc]
      exact .refl _
  | some c =>
      rw [database_eq hc, database_eq (h.connection.trans hc), view_of_none (hi c hc), view_of_none (hi c hc)]
      exact h.leaves c.place

/-- A session that is not open goes on so and keeps nothing. -/
structure StaysClosed (s t : Store) : Prop extends Resumes s t where
  closed : s.connection = none
  cache : t.cache.entries = []

theorem StaysClosed.connection_eq_none (h : StaysClosed s t) : t.connection = none :=
  h.connection.trans h.closed

theorem ask_staysClosed (hc : s.connection = none) (he : s.cache.entries = []) (question : Question) :
    StaysClosed s (question.ask s) := by
  have hasked : ∀ (α : Type) (f : Database → Except Fault α) t, StaysClosed s t →
      ((askDatabase f).run t).2 = t ∧ ((askDatabase f).run t).1 = none := by
    intro α f t ht
    show (askDatabase f t).2 = t ∧ (askDatabase f t).1 = none
    simp only [askDatabase, ht.connection_eq_none, and_self]
  refine question.keeps (A := fun _ => True) trivial (fun q kinds _ t ht => ?_)
    (fun α f _ t ht => by rwa [(hasked α f t ht).1]) (fun t ht => ?_) question.filtersBy_true
    ⟨.refl s, hc, he⟩
  · obtain ⟨hsame, hnone⟩ := hasked _ q.run t ht
    rcases t.fetchKinds_cases q kinds with hs | hs | ⟨rows, hrows, _⟩
    · rwa [hs]
    · rwa [hs, hsame]
    · rw [hnone] at hrows
      cases hrows
  · simpa only [statistics, schemaVersion, ht.connection_eq_none, and_self] using ht

end Store

namespace Step

open Store

variable {s t : Store} {c : Connection} {step : Step}

/-- A step in a transaction, or one that writes nothing, leaves the session in its transaction, or without
one, and leaves what is on the disk. -/
theorem stays (hc : s.connection = some c) (ha : step.Allowed s) (hin : step.StaysIn)
    (hd : ¬ step.IsDisturbed s) (hw : c.transaction = .none → step.WritesNothing) :
    Stays s c (step.act s) := by
  have hworks : ¬ step.WritesNothing → c.transaction ≠ .none := fun hno ht => hno (hw ht)
  have hmutate : ∀ {β : Type} (auto : Bool) {w : Work β}, w.Candid → ¬ step.WritesNothing →
      (step.act s).disk.statements = (s.mutate auto w).2.disk.statements → ¬ step.IsDisturbed s →
      Stays s c (s.mutate auto w).2 := by
    intro β auto w hw hno hsame hd
    refine mutate_stays hc (hworks hno) auto hw fun hm => hd ?_
    rw [← hsame] at hm
    cases step with
    | outside disk => exact absurd trivial hno
    | _ => exact ⟨c, hc, hm⟩
  cases step with
  | setBusyTimeout ms => exact ⟨⟨c.transaction, .rfl, hc⟩, rfl, .refl _⟩
  | setSearchLimit limit => exact ⟨⟨c.transaction, .rfl, hc⟩, rfl, .refl _⟩
  | setCaseSensitive on => exact ⟨⟨c.transaction, .rfl, hc⟩, rfl, .refl _⟩
  | setUseCache on => exact ⟨⟨c.transaction, .rfl, hc⟩, rfl, .refl _⟩
  | clearCache => exact ⟨⟨c.transaction, .rfl, hc⟩, rfl, .refl _⟩
  | storeTags tags now auto => exact storeTags_stays hc (hworks id) fun h => hd ⟨c, hc, h⟩
  | deleteByFile file auto =>
      obtain ⟨hconnection, hpath, hleaves⟩ := hmutate auto (Batch.candid_removeFile file) id rfl hd
      exact ⟨hconnection, hpath, hleaves⟩
  | clear =>
      obtain ⟨hconnection, hpath, hleaves⟩ := hmutate false Batch.candid_clear id rfl hd
      exact ⟨hconnection, hpath, hleaves⟩
  | insertFileEntry file time => exact hmutate false .change id rfl hd
  | updateFileEntry file time => exact hmutate false .change id rfl hd
  | deleteFileEntry file => exact hmutate false .change id rfl hd
  | storeMacros macros => exact hmutate true (Batch.candid_storeMacros macros) id rfl hd
  | storeSimpleMacros file names => exact hmutate true (Batch.candid_storeSimpleMacros file names) id rfl hd
  | ask question =>
      exact (ask_proceeds hc question).stays hc fun h => hd ⟨c, hc, h⟩
  | outside disk => exact ⟨⟨c.transaction, .rfl, hc⟩, rfl, ha⟩
  | _ => exact hin.elim

theorem staysClosed (hc : s.connection = none) (he : s.cache.entries = []) (ha : step.Allowed s)
    (hin : step.StaysIn) : StaysClosed s (step.act s) := by
  have hmutate : ∀ {α : Type} (auto : Bool) (w : Work α), s.mutate auto w = (.error .notOpen, s) :=
    fun auto w => by simp only [mutate, hc]
  have hs : StaysClosed s s := ⟨.refl s, hc, he⟩
  have hforgets : StaysClosed s s.clearCache := ⟨⟨rfl, rfl, .refl _⟩, hc, rfl⟩
  cases step with
  | setBusyTimeout ms => exact ⟨⟨rfl, rfl, .refl _⟩, hc, he⟩
  | setSearchLimit limit => exact ⟨⟨rfl, rfl, .refl _⟩, hc, he⟩
  | setCaseSensitive on => exact ⟨⟨rfl, rfl, .refl _⟩, hc, he⟩
  | setUseCache on =>
      cases on with
      | true => exact ⟨⟨rfl, rfl, .refl _⟩, hc, he⟩
      | false => exact ⟨⟨rfl, rfl, .refl _⟩, hc, rfl⟩
  | clearCache => exact hforgets
  | storeTags tags now auto =>
      simp only [act, Store.storeTags, hmutate]
      split
      · exact hs
      · exact hforgets
  | deleteByFile file auto => simpa only [act, Store.deleteByFile, hmutate] using hforgets
  | clear => simpa only [act, Store.clear, hmutate] using hforgets
  | insertFileEntry file time => simpa only [act, Store.insertFileEntry, hmutate] using hs
  | updateFileEntry file time => simpa only [act, Store.updateFileEntry, hmutate] using hs
  | deleteFileEntry file => simpa only [act, Store.deleteFileEntry, hmutate] using hs
  | storeMacros macros => simpa only [act, Store.storeMacros, hmutate] using hs
  | storeSimpleMacros file names => simpa only [act, Store.storeSimpleMacros, hmutate] using hs
  | ask question => exact ask_staysClosed hc he question
  | outside disk => exact ⟨⟨rfl, rfl, ha⟩, hc, he⟩
  | _ => exact hin.elim

end Step

/-! ## Runs -/

namespace Store

open Query

variable {s t u v : Store} {c : Connection} {P : Step → Prop} {A : List String → Prop}

/-- One store comes after the other by a step with `P` that nothing disturbs. -/
def Undisturbed (P : Step → Prop) (s s' : Store) : Prop :=
  ∃ step : Step, step.Allowed s ∧ P step ∧ ¬ step.IsDisturbed s ∧ step.act s = s'

theorem Steady.not_isDisturbed (h : s.Steady) (step : Step) : ¬ step.IsDisturbed s := by
  obtain ⟨c, hc, hr⟩ := h
  have hno : ∀ c' k, s.connection = some c' → ¬ s.MeetsBefore c'.isDisturbedBy c' k := by
    rintro c' k hc' ⟨n, f, _, _, hf, _⟩
    rw [← Option.some.inj (hc.symm.trans hc'), hr n] at hf
    cases hf
  cases step with
  | outside disk => exact id
  | _ => exact fun ⟨c', hc', hd⟩ => hno c' _ hc' hd

/-- While no step ends it, a session stays as it is, in a transaction or without one. -/
theorem stays_run (hc : s.connection = some c) (hP : ∀ step, P step → step.StaysIn)
    (hw : c.transaction = .none → ∀ step, P step → step.WritesNothing)
    (hr : ReflTransGen (Undisturbed P) s t) : Stays s c t := by
  induction hr with
  | refl => exact .refl hc
  | tail _ hn ih =>
      obtain ⟨step, ha, hp, hd, rfl⟩ := hn
      refine ih.trans fun c' hc' => Step.stays hc' ha (hP step hp) hd fun hnone => ?_
      obtain ⟨transaction, hiff, hsome⟩ := ih.connection
      obtain rfl := Option.some.inj (hsome.symm.trans hc')
      exact hw (hiff.mp hnone) step hp

theorem staysClosed_run (hc : s.connection = none) (he : s.cache.entries = [])
    (hP : ∀ step, P step → step.StaysIn) (hr : ReflTransGen (Undisturbed P) s t) : StaysClosed s t := by
  induction hr with
  | refl => exact ⟨.refl s, hc, he⟩
  | tail _ hn ih =>
      obtain ⟨step, ha, hp, _, rfl⟩ := hn
      obtain ⟨hresumes, _, he'⟩ := Step.staysClosed ih.connection_eq_none ih.cache ha (hP step hp)
      exact ⟨ih.toResumes.trans hresumes, hc, he'⟩

/-- Without a transaction, steps that write nothing leave the session as it is. -/
theorem resumes_run (hs : s.KeepsInUse) (hi : s.Idle) (hP : ∀ step, P step → step.WritesNothing)
    (hr : ReflTransGen (Undisturbed P) s t) : Resumes s t := by
  have hin : ∀ step, P step → step.StaysIn := fun step hp => (hP step hp).staysIn
  cases hc : s.connection with
  | none => exact (staysClosed_run hc (hs.closed hc) hin hr).toResumes
  | some c =>
      obtain ⟨⟨transaction, hiff, htc⟩, hpath, hleaves⟩ := stays_run hc hin (fun _ => hP) hr
      refine ⟨htc.trans ?_, hpath, hleaves⟩
      have hnone := hi c hc
      obtain ⟨handle, _⟩ := c
      cases hnone
      rw [hiff.mpr rfl, hc]

/-- A transaction that is taken back leaves the session as it was, with nothing kept. -/
theorem rollback_resumes (hs : s.KeepsInUse) (hi : s.Idle)
    (hr : ReflTransGen (Undisturbed Step.StaysIn) s.begin.2 t) :
    Resumes s t.rollback.2 ∧ t.rollback.2.cache.entries = [] := by
  cases hc : s.connection with
  | none =>
      have hbegin : s.begin.2 = s := by simp only [begin, hc]
      rw [hbegin] at hr
      have ht := staysClosed_run hc (hs.closed hc) (fun _ => id) hr
      have hrollback : t.rollback.2 = t := by simp only [rollback, ht.connection_eq_none]
      rw [hrollback]
      exact ⟨ht.toResumes, ht.cache⟩
  | some c =>
      have hnone := hi c hc
      have hbegin : s.begin.2 = s.withTransaction c .begun := by
        simp only [begin, hc, hnone]
        rfl
      rw [hbegin] at hr
      -- From here on the run is one within the transaction, which is there for the rollback to end.
      have ht : Stays (s.withTransaction c .begun) (begunOn c) t :=
        stays_run rfl (fun _ => id) (fun hn => by cases hn) hr
      obtain ⟨⟨transaction, hiff, htc⟩, hpath, hleaves⟩ := ht
      have hrollback : t.rollback.2 = t.abandon.clearCache := by
        unfold rollback
        rw [htc]
        cases transaction with
        | none => cases hiff.mp rfl
        | begun => rfl
        | working db => rfl
      rw [hrollback]
      refine ⟨⟨?_, hpath, hleaves⟩, rfl⟩
      show t.abandon.connection = s.connection
      obtain ⟨handle, _⟩ := c
      cases hnone
      rw [abandon, htc, hc]
      rfl

/-- Outside of a transaction, steps that write nothing leave the kept answers current. -/
theorem IsCurrentBy.run (h : s.IsCurrentBy A) (hA : A []) (hi : s.KeepsInUse) (hidle : s.Idle)
    (hP : ∀ step, P step → step.WritesNothing ∧ step.FiltersBy A) (hr : ReflTransGen (Undisturbed P) s t) :
    t.IsCurrentBy A := by
  induction hr with
  | refl => exact h
  | tail hst hn ih =>
      obtain ⟨step, ha, hp, _, rfl⟩ := hn
      have hback := resumes_run hi hidle (fun step hp => (hP step hp).1) hst
      have hthere : Idle _ := fun c hc => hidle c (hback.connection ▸ hc)
      exact ih.act hA ha (hP step hp).2 (hthere.not_leavesStale step)

/-- Of a transaction that is taken back nothing stays: the store is the one that began it, with what others
did to the disk and with other options, all of its tables and counters are as they were, and it keeps no
answers. Whatever is asked later is answered from these tables. A question is answered as the store that
began the transaction would answer it, unless filters with an `@` share a key. -/
theorem rollback_undoes (hs : s.Reachable) (hi : s.Idle)
    (hr : ReflTransGen (Undisturbed Step.StaysIn) s.begin.2 t) :
    let u := t.rollback.2
    u = { s with disk := u.disk, options := u.options, cache := {} } ∧
    s.disk.Leaves u.disk ∧ s.database.SameTables u.database ∧
    (∀ v, ReflTransGen (Undisturbed Step.WritesNothing) u v →
      s.database.SameTables v.database ∧ ∀ e ∈ v.cache.entries, Cache.Current s.database e) ∧
    (∀ v, ReflTransGen (Undisturbed fun step => step.WritesNothing ∧ step.FiltersBy PlainKinds) u v →
      v.Steady → ∀ question : Question, question.FiltersBy PlainKinds →
        (question.reply.run v).1 =
          (question.reply.run { s with disk := v.disk, options := v.options, cache := {} }).1) := by
  intro u
  obtain ⟨hu, he⟩ : Resumes s u ∧ u.cache.entries = [] := rollback_resumes hs.keepsInUse hi hr
  have hempty : u.cache = {} := congrArg Cache.mk he
  have hidle : u.Idle := fun c hc => hi c (hu.connection ▸ hc)
  have hlater : ∀ {P : Step → Prop} {v : Store}, (∀ step, P step → step.WritesNothing) →
      ReflTransGen (Undisturbed P) u v → Resumes s v :=
    fun hP hv => hu.trans (resumes_run (keepsInUse_of_empty he) hidle hP hv)
  refine ⟨hempty ▸ hu.eq, hu.leaves, hu.database hi, fun v hv => ?_, fun v hv hsteady question hq => ?_⟩
  · have hsame := (hlater (fun _ => id) hv).database hi
    have hcurrent : v.IsCurrent := .run (.of_empty he) trivial (keepsInUse_of_empty he) hidle
      (fun step hp => ⟨hp, step.filtersBy_true⟩) hv
    refine ⟨hsame, fun e hmem => ?_⟩
    obtain ⟨q, kinds, rows, hkey, hrun, hrows⟩ := hcurrent.current e hmem
    exact ⟨q, kinds, rows, hkey, (Query.run_congr hsame.tags hsame.globals).symm.trans hrun, hrows⟩
  · have hv' := hlater (fun _ hp => hp.1) hv
    have hcurrent : v.IsCurrentBy PlainKinds := .run (.of_empty he) nofun (keepsInUse_of_empty he) hidle (fun _ hp => hp) hv
    have hbefore : ({ s with disk := v.disk, options := v.options, cache := {} } : Store) =
        { v with cache := {} } := by
      rw [hv'.eq]
    have hfresh : Serves PlainKinds v.options v.database { v with cache := {} } :=
      ⟨hsteady, .of_empty rfl, rfl, rfl⟩
    rw [hbefore]
    exact Question.reply_agrees ⟨hsteady, hcurrent, rfl, rfl⟩ hfresh hq

/-- A row that was stored and found, a call that was refused and a delete leave nothing that a later question
could tell. -/
theorem rollback_undoes_stores :
    let tag (name : String) : Tag := { name, file := name, kind := "function", path := name }
    let before := Step.act (Step.act {} (.openPath "tags.db")) (.storeTags [tag "x"] 0 true)
    let begun := Step.act before .begin
    let stored := Step.act begun (.storeTags [tag "y"] 0 false)
    let refused := Step.act stored (.storeTags [tag "z"] 0 true)
    let question := Question.tagsByName "y" false
    let asked := Step.act refused (.ask question)
    let deleted := Step.act asked (.deleteByFile "x" false)
    let after := Step.act deleted .rollback
    let again := Step.act after (.ask question)
    ((tagsByName "y" false).run refused).1 = [⟨2, tag "y"⟩] ∧
    deleted.database.tags = [⟨2, tag "y"⟩] ∧ after.database.tags = [⟨1, tag "x"⟩] ∧
    after.database.lastTagId = before.database.lastTagId ∧
    (question.reply.run again).1 =
      (question.reply.run { before with disk := again.disk, options := again.options, cache := {} }).1 := by
  intro tag before begun stored refused question asked deleted after again
  have hs : before.Reachable :=
    .next (.storeTags [tag "x"] 0 true) (.next (.openPath "tags.db") (.new ⟨rfl, rfl, rfl⟩ fun _ => .refl _)
      trivial trivial) trivial trivial
  have hi : before.Idle := idle_of_all (by decide +kernel)
  have hbefore : before.disk.Calm := Step.calm (Step.calm (fun _ => rfl) nofun) nofun
  have hbegun : begun.disk.Calm := Step.calm hbefore nofun
  have hstored : stored.disk.Calm := Step.calm hbegun nofun
  have hrefused : refused.disk.Calm := Step.calm hstored nofun
  have hasked : asked.disk.Calm := Step.calm hrefused nofun
  have hdeleted : deleted.disk.Calm := Step.calm hasked nofun
  have hafter : after.disk.Calm := Step.calm hdeleted nofun
  have hagain : again.disk.Calm := Step.calm hafter nofun
  have hstep : ∀ {P : Step → Prop} {s t : Store} (step : Step), s.Steady → step.Allowed s → P step →
      step.act s = t → Undisturbed P s t :=
    fun step hs ha hp ht => ⟨step, ha, hp, hs.not_isDisturbed step, ht⟩
  have hr : ReflTransGen (Undisturbed Step.StaysIn) begun deleted := by
    have h₁ : Undisturbed Step.StaysIn begun stored :=
      hstep (.storeTags [tag "y"] 0 false) (steady_of_any hbegun (by decide +kernel)) trivial trivial rfl
    have h₂ : Undisturbed Step.StaysIn stored refused :=
      hstep (.storeTags [tag "z"] 0 true) (steady_of_any hstored (by decide +kernel)) trivial trivial rfl
    have h₃ : Undisturbed Step.StaysIn refused asked :=
      hstep (.ask question) (steady_of_any hrefused (by decide +kernel)) trivial trivial rfl
    have h₄ : Undisturbed Step.StaysIn asked deleted :=
      hstep (.deleteByFile "x" false) (steady_of_any hasked (by decide +kernel)) trivial trivial rfl
    exact (((ReflTransGen.single h₁).tail h₂).tail h₃).tail h₄
  obtain ⟨_, _, hsame, _, hanswers⟩ := rollback_undoes hs hi hr
  refine ⟨by decide +kernel, by decide +kernel, ?_, hsame.lastTagId, ?_⟩
  · exact hsame.tags.trans (by decide +kernel)
  · have hlater : Undisturbed (fun step => step.WritesNothing ∧ step.FiltersBy PlainKinds) after again :=
      hstep (.ask question) (steady_of_any hafter (by decide +kernel)) trivial ⟨trivial, trivial⟩ rfl
    exact hanswers again (.single hlater) (steady_of_any hagain (by decide +kernel)) question trivial

/-- Where a full disk has taken the transaction back, what is stored after that is not taken back with it. And what was
there before is not told while another process holds the file. -/
theorem rollback_undoes_otherwise :
    let tag (name : String) : Tag := { name, file := name, kind := "function", path := name }
    let opened := Step.act {} (.openPath "tags.db")
    let trouble (n : Nat) := if n = opened.disk.statements then some (Fault.full true) else none
    let before := Step.act opened (.outside { opened.disk with trouble })
    let refused := Step.act (Step.act before .begin) (.storeTags [tag "x"] 0 false)
    let stored := Step.act refused (.storeTags [tag "y"] 0 false)
    let after := Step.act stored .rollback
    let undone := Step.act (Step.act (Step.act after .begin) (.storeTags [tag "z"] 0 false)) .rollback
    let held := Step.act undone (.outside (undone.disk.lock "tags.db"))
    before.Reachable ∧ before.Idle ∧
      ((Step.act before .begin).storeTags [tag "x"] 0 false).1 = .error (.mutation (.full true)) ∧
      stored.rollback.1 = .error (.mutation .nothingToRollBack) ∧
      before.database.tags = [] ∧ after.database.tags = [⟨1, tag "y"⟩] ∧
      undone.database.tags = [⟨1, tag "y"⟩] ∧ ((tagsByName "y" false).run undone).1 = [⟨1, tag "y"⟩] ∧
      held.database.tags = [⟨1, tag "y"⟩] ∧ ((tagsByName "y" false).run held).1 = [] := by
  intro tag opened trouble before refused stored after undone held
  have hopened : opened.Reachable := .next (.openPath "tags.db") (.new ⟨rfl, rfl, rfl⟩ fun _ => .refl _) trivial trivial
  have hbefore : before.Reachable := .next (.outside { opened.disk with trouble }) hopened (fun _ => .refl _) trivial
  exact ⟨hbefore, idle_of_all (by decide +kernel), by decide +kernel, by decide +kernel, by decide +kernel,
    by decide +kernel, by decide +kernel, by decide +kernel, by decide +kernel, by decide +kernel⟩

end Store
end TagIndex
