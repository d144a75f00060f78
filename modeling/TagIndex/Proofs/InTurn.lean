import TagIndex.Proofs.Following
import TagIndex.Proofs.Ids
import TagIndex.Proofs.Locality

/-!
# Batches in turn

Batches that are stored one after the other in one transaction come to the same tags as when each of them is
stored in a transaction of its own.
-/

namespace TagIndex.Store

variable {α : Type} {s t t' u : Store} {c : Connection} {w : Work α} {a : α} {tags : List Tag} {now now' : Int}
  {auto : Bool} {stats total : StoreStats} {calls calls' : List (List Tag × Int)} {e : StoreError}

/-- Stores batches one after the other, each at its time, until one fails; answers the sums. -/
def storeEach (auto : Bool) : List (List Tag × Int) → Store → Except StoreError StoreStats × Store
  | [], s => (.ok {}, s)
  | (tags, now) :: calls, s =>
    match s.storeTags tags now auto with
    | (.error e, s) => (.error e, s)
    | (.ok stats, s) => ((storeEach auto calls s).1.map stats.add, (storeEach auto calls s).2)

theorem storeEach_cons_ok (h : s.storeTags tags now auto = (.ok stats, t)) :
    storeEach auto ((tags, now) :: calls) s =
      ((storeEach auto calls t).1.map stats.add, (storeEach auto calls t).2) := by
  simp only [storeEach, h]

theorem storeEach_cons_error (h : s.storeTags tags now auto = (.error e, t)) :
    storeEach auto ((tags, now) :: calls) s = (.error e, t) := by
  simp only [storeEach, h]

theorem storeEach_cons_eq_ok : storeEach auto ((tags, now) :: calls) s = (.ok total, u) ↔
    ∃ stats t rest, s.storeTags tags now auto = (.ok stats, t) ∧ storeEach auto calls t = (.ok rest, u) ∧
      total = stats.add rest := by
  constructor
  · intro h
    rcases hfirst : s.storeTags tags now auto with ⟨e | stats, t⟩
    · rw [storeEach_cons_error hfirst] at h
      cases h
    · rw [storeEach_cons_ok hfirst] at h
      rcases hrest : storeEach auto calls t with ⟨e | rest, u'⟩ <;> rw [hrest] at h <;> cases h
      exact ⟨stats, t, rest, rfl, hrest, rfl⟩
  · rintro ⟨stats, t, rest, hfirst, hrest, rfl⟩
    rw [storeEach_cons_ok hfirst, hrest]
    rfl

/-! ## One batch -/

/-- A batch that is stored has done its work, be it in a transaction of its own or not. -/
theorem storeTags_works (hc : s.connection = some c) (h : s.storeTags tags now auto = (.ok stats, t)) :
    (s.outcome c (Batch.store tags now)).result = .ok stats ∧
    t.database = (s.outcome c (Batch.store tags now)).db ∧
    ∃ v, Moves s c (s.outcome c (Batch.store tags now)).db v ∧ StaysOpen s v ∧ t.connection = v.connection ∧
      t.disk = v.disk := by
  cases he : tags.isEmpty with
  | true =>
      simp only [storeTags, he, if_true] at h
      cases List.isEmpty_iff.mp he
      cases h
      exact ⟨rfl, database_eq hc, _, .nothing s.disk.statements, .of_eq rfl, rfl, rfl⟩
  | false =>
      obtain ⟨hok, hstore⟩ := storeTags_ok he (congrArg Prod.fst h)
      rw [h] at hstore
      obtain ⟨c', hc', hres, hd, hopen, hm⟩ := mutate_ok (Batch.orderly_store tags now) hok
      cases hc.symm.trans hc'
      rw [show t = _ from hstore]
      exact ⟨hres, hd, _, hm, hopen, rfl, rfl⟩

/-! ## Files without trouble -/

theorem milder_of_calm {c' : Connection} (hh : c'.toHandle = c.toHandle) (hl : t.disk.locked = s.disk.locked)
    (hs : (t.disk.database? c.place).isNone → (s.disk.database? c.place).isNone) (hd : t.disk.Calm) :
    (s.refusals c').Milder (t.refusals c) := by
  intro use n h m
  unfold refusals at *
  rw [hh] at h
  rw [hl, hd m]
  grind

/-- Without trouble, work that succeeds does nothing, or the file refuses no writes. -/
theorem perform_of_calm (hd : s.disk.Calm) (hok : (s.outcome c w).result = .ok a) :
    (∃ n, (s.perform c w).2 = s.counted n) ∨ ∀ n, s.refusals c .writes n = none := by
  cases hw : s.refusals c .writes s.disk.statements with
  | none => exact .inr fun n => (refusals_calm hd c .writes n _).trans hw
  | some f =>
      have hu : c.readOnly ∨ (s.refusals c .reads s.disk.statements).isSome := by
        by_cases hr : c.readOnly
        · exact .inl hr
        · refine .inr (Option.isSome_iff_exists.mpr ⟨f, ?_⟩)
          simpa [refusals, hr] using hw
      have halone : s.leavesAlone c w := by rcases hu with hu | hu <;> simp [leavesAlone, hu]
      left
      rw [perform_eq, losesTransaction_of_ok hok, halone]
      exact ⟨_, rfl⟩

/-- Without trouble, work that succeeds is committed. -/
theorem transact_of_calm (ht : c.transaction = .none) (hd : s.disk.Calm)
    (h : (s.outcome c w).result = .ok a) : (s.transact c w).1 = .ok a := by
  have hr := (s.withTransaction c .begun).perform_result (begunOn c) w
  have hm := (s.withTransaction c .begun).perform_moves (begunOn c) w
  have hbegun := h
  rw [← outcome_begun ht] at hbegun
  have hfree := perform_of_calm (s := s.withTransaction c .begun) hd hbegun
  have hopen := (s.withTransaction c .begun).perform_staysOpen (losesTransaction_of_ok hbegun)
  rw [outcome_begun ht] at hr hm
  rw [h] at hr
  rcases hp : (s.withTransaction c .begun).perform (begunOn c) w with ⟨r, v⟩
  rw [hp] at hr hm hfree hopen
  cases hr
  cases hm with
  | takenBack n hb => exact nomatch hopen (fun _ he => by cases he; rfl) _ rfl
  | nothing n => exact congrArg Prod.fst (transact_ok ht hp rfl rfl)
  | onDisk n hb => cases hb
  | inTransaction n hb =>
      -- Something was written, so the file refuses no writes, and the commit is one.
      rcases hfree with ⟨m, hv⟩ | hfree
      · cases congrArg connection hv
      · let v := ((s.withTransaction c .begun).counted n).withTransaction (begunOn c) (.working (s.outcome c w).db)
        let c' : Connection := { c with transaction := .working (s.outcome c w).db }
        have hcommit : ∃ t, v.commitOn c' = (.ok (), t) := by
          simp only [commitOn, show v.refusals c' .writes v.disk.statements = none from hfree n, c']
          exact ⟨_, rfl⟩
        obtain ⟨t, hcommit⟩ := hcommit
        exact congrArg Prod.fst (transact_ok ht hp rfl hcommit)

/-- Without trouble, a batch is stored if its work succeeds. -/
theorem storeTags_of_calm (hc : s.connection = some c) (ht : c.transaction = .none) (hd : s.disk.Calm)
    (h : (s.outcome c (Batch.store tags now)).result = .ok stats) :
    (s.storeTags tags now true).1 = .ok stats := by
  unfold storeTags
  split
  · rename_i he
    cases List.isEmpty_iff.mp he
    cases Except.ok.inj h
    rfl
  · have hm : (s.mutate true (Batch.store tags now)).1 = .ok stats := by
      simp only [mutate, hc, work, if_true, transact_of_calm ht hd h]
      rfl
    simp only [hm]

/-! ## One transaction -/

/-- The store works in a transaction, and the disk is as it was when the transaction began. -/
structure Within (s : Store) (c : Connection) (t : Store) : Prop where
  begun : ∃ transaction, transaction ≠ .none ∧ t.connection = some { c with transaction }
  disk : ∃ n, t.disk = (s.counted n).disk

theorem Within.begin (hc : s.connection = some c) (ht : c.transaction = .none) :
    s.begin.1 = .ok () ∧ Within s c s.begin.2 := by
  simp only [Store.begin, hc, ht, true_and]
  exact ⟨⟨.begun, Transaction.noConfusion, rfl⟩, s.disk.statements, rfl⟩

theorem Within.leaves (h : Within s c t) : s.disk.Leaves t.disk := by
  obtain ⟨n, hn⟩ := h.disk
  rw [hn]
  exact .refl s.disk

/-- Work in the transaction leaves the disk alone. -/
theorem Within.moves_disk {c' : Connection} {db : Database} (h : Within s c t) (hc : t.connection = some c')
    (hm : Moves t c' db u) : ∃ n, u.disk = (s.counted n).disk := by
  obtain ⟨transaction, hb, hc'⟩ := h.begun
  cases hc.symm.trans hc'
  obtain ⟨n, hn⟩ := h.disk
  cases hm with
  | nothing m => exact ⟨m, by rw [counted, hn]; rfl⟩
  | onDisk m ht => exact absurd ht hb
  | inTransaction m _ => exact ⟨m, by rw [withTransaction, counted, hn]; rfl⟩
  | takenBack m _ => exact ⟨m, by rw [withTransaction, counted, hn]; rfl⟩

theorem Within.moves {c' : Connection} {db : Database} (h : Within s c t) (hc : t.connection = some c')
    (hm : Moves t c' db u) (hopen : StaysOpen t u) : Within s c u := by
  refine ⟨?_, h.moves_disk hc hm⟩
  obtain ⟨transaction, hb, hc'⟩ := h.begun
  cases hc.symm.trans hc'
  cases hm with
  | nothing m => exact ⟨transaction, hb, hc⟩
  | onDisk m ht => exact absurd ht hb
  | inTransaction m _ => exact ⟨.working db, nofun, rfl⟩
  | takenBack m _ => exact absurd (hopen (fun _ he => by cases he; rfl) _ hc) hb

theorem Within.storeTags (h : Within s c t) (hs : t.storeTags tags now false = (.ok stats, u)) : Within s c u := by
  obtain ⟨transaction, _, hc⟩ := h.begun
  obtain ⟨_, _, v, hm, hopen, hconnection, hdisk⟩ := storeTags_works hc hs
  obtain ⟨hbegun, hcounted⟩ := h.moves hc hm hopen
  exact ⟨hconnection ▸ hbegun, hdisk ▸ hcounted⟩

theorem Within.storeEach (h : Within s c t) (hs : storeEach false calls t = (.ok total, u)) : Within s c u := by
  induction calls generalizing t total with
  | nil =>
      cases hs
      exact h
  | cons call calls ih =>
      obtain ⟨stats, v, rest, hfirst, hrest, _⟩ := storeEach_cons_eq_ok.mp hs
      exact ih (h.storeTags hfirst) hrest

theorem connect_idle {path : String} (h : s.connect path = .ok t) :
    (∃ c, t.connection = some c ∧ c.transaction = .none) ∧ s.disk.Opens t.disk := by
  unfold connect at h
  split at h
  · cases h
    exact ⟨⟨_, rfl, rfl⟩, Disk.connect_opens ‹_›⟩
  · cases h

theorem reopen_opens (s : Store) : s.disk.Opens s.reopen.2.disk := by
  unfold reopen
  split
  · exact (Disk.Leaves.refl s.disk).opens
  · dsimp only
    split
    · rename_i t ht
      exact (connect_idle ht).2
    · exact (Disk.Leaves.refl s.disk).opens

/-- In a transaction a batch leaves the tables of the disk alone, however it ends. -/
theorem Within.storeTags_opens (h : Within s c t) (tags : List Tag) (now : Int) :
    s.disk.Opens (t.storeTags tags now false).2.disk := by
  obtain ⟨transaction, _, hc⟩ := h.begun
  obtain ⟨n, hn⟩ := h.moves_disk hc (t.perform_moves { c with transaction } (Batch.store tags now))
  have hwork : s.disk.Opens (t.mutate false (Batch.store tags now)).2.disk := by
    rw [mutate_false hc, hn]
    exact (Disk.Leaves.refl s.disk).opens
  unfold Store.storeTags
  split
  · exact h.leaves.opens
  · dsimp only
    split
    · exact hwork.trans (reopen_opens (clearCache _))
    · exact hwork

/-- A transaction that is committed puts what it came to in its place; one that is refused leaves the disk as it
was. -/
theorem Within.commit (h : Within s c t) :
    (∃ e, t.commit.1 = .error e ∧ s.disk.Leaves t.commit.2.disk) ∨
    t.commit.1 = .ok () ∧ t.commit.2.disk.tables c.place = t.database ∧
      ∀ p, p ≠ c.place → t.commit.2.disk.tables p = s.disk.tables p := by
  obtain ⟨transaction, hb, hc⟩ := h.begun
  have hleaves : ∀ p, t.disk.tables p = s.disk.tables p := by
    obtain ⟨n, hn⟩ := h.disk
    rw [hn]
    exact fun _ => rfl
  rw [database_eq hc]
  simp only [Store.commit, hc]
  cases transaction with
  | none => exact absurd rfl hb
  | begun => exact .inr ⟨rfl, rfl, fun p _ => hleaves p⟩
  | working db =>
      have hsame : s.disk.Leaves t.disk := fun p => by rw [← hleaves p]; exact .refl _
      rcases commitOn_working (c := { c with transaction := .working db }) t rfl with
        ⟨n, hr⟩ | ⟨e, n, _, hr⟩ | ⟨n, hr⟩
      · rw [hr]
        exact .inl ⟨_, rfl, hsame⟩
      · rw [hr]
        exact .inl ⟨_, rfl, hsame⟩
      · rw [hr]
        exact .inr ⟨rfl, Disk.tables_put_self _ _ _, fun p hp => (Disk.tables_put_of_ne hp).trans (hleaves p)⟩

/-! ## The same batches in one transaction and in many -/

/-- Of a store, one session works in a transaction, and another one has come as far without. -/
structure Abreast (s : Store) (c : Connection) (t t' : Store) : Prop extends Within s c t where
  connection : t'.connection = some c
  locked : t'.disk.locked = s.disk.locked
  isDatabase : (t'.disk.database? c.place).isNone → (s.disk.database? c.place).isNone
  others : ∀ p, p ≠ c.place → t'.disk.tables p = s.disk.tables p
  same : t.database.SameTags t'.database

theorem isNone_of_put {d : Disk} {p : Place} {db : Database} :
    ¬ ((d.put p (.database db)).database? p).isNone := by
  simp [Disk.database?, Disk.content?_put]

/-- The work of a batch that is stored in the transaction goes the same way outside of it. -/
theorem Abreast.outcome (h : Abreast s c t t') (hs : t.storeTags tags now false = (.ok stats, u))
    (hok : t'.disk.Calm ∨ ∃ stats' u', t'.storeTags tags now' true = (.ok stats', u')) :
    (t'.outcome c (Batch.store tags now')).result = .ok stats ∧
      u.database.SameTags (t'.outcome c (Batch.store tags now')).db := by
  obtain ⟨transaction, _, hc⟩ := h.begun
  obtain ⟨n, hn⟩ := h.disk
  obtain ⟨hres, hdb, _⟩ := storeTags_works hc hs
  have hsame : (t.view { c with transaction }).SameTags (t'.view c) := by
    rw [← database_eq hc, ← database_eq h.connection]
    exact h.same
  have hmild : (t.refusals { c with transaction }).Milder (t'.refusals c) ∨
      ∃ stats', (t'.outcome c (Batch.store tags now')).result = .ok stats' := by
    refine hok.imp (fun hd => milder_of_calm rfl ?_ ?_ hd) fun ⟨stats', _, hs'⟩ => ?_
    · rw [h.locked, hn]
      rfl
    · rw [hn]
      exact h.isDatabase
    · exact ⟨stats', (storeTags_works h.connection hs').1⟩
  rw [hdb]
  exact Batch.store_follows tags now now' _ _ _ _ _ _ _ hsame hres hmild

theorem Abreast.storeTags (ht : c.transaction = .none) (h : Abreast s c t t')
    (hs : t.storeTags tags now false = (.ok stats, u))
    (hok : t'.disk.Calm ∨ ∃ stats' u', t'.storeTags tags now' true = (.ok stats', u')) :
    ∃ u', t'.storeTags tags now' true = (.ok stats, u') ∧ Abreast s c u u' := by
  obtain ⟨hres, hsame⟩ := h.outcome hs hok
  obtain ⟨u', hstored⟩ : ∃ u', t'.storeTags tags now' true = (.ok stats, u') := by
    rcases hok with hd | ⟨stats', u', hs'⟩
    · exact ⟨_, Prod.ext (storeTags_of_calm h.connection ht hd hres) rfl⟩
    · cases (storeTags_works h.connection hs').1.symm.trans hres
      exact ⟨u', hs'⟩
  obtain ⟨_, hdb, v, hm, hopen, hconnection, hdisk⟩ := storeTags_works h.connection hstored
  rw [← hdb] at hsame
  refine ⟨u', hstored, ?_⟩
  cases hm with
  | nothing m =>
      refine ⟨h.toWithin.storeTags hs, hconnection.trans h.connection, ?_, ?_, ?_, hsame⟩ <;> rw [hdisk]
      exacts [h.locked, h.isDatabase, h.others]
  | onDisk m _ =>
      refine ⟨h.toWithin.storeTags hs, hconnection.trans h.connection, ?_, ?_, ?_, hsame⟩ <;> rw [hdisk]
      · exact h.locked
      · exact fun hnone => absurd hnone isNone_of_put
      · exact fun p hp => (Disk.tables_put_of_ne hp).trans (h.others p hp)
  | inTransaction m hb => exact absurd ht hb
  | takenBack m hb => exact absurd ht hb

theorem Abreast.storeEach (ht : c.transaction = .none) (h : Abreast s c t t')
    (hcalls : calls.map Prod.fst = calls'.map Prod.fst) (hs : storeEach false calls t = (.ok total, u))
    (hok : t'.disk.Calm ∨ ∃ total' u', storeEach true calls' t' = (.ok total', u')) :
    ∃ u', storeEach true calls' t' = (.ok total, u') ∧ Abreast s c u u' := by
  induction calls generalizing calls' t t' total with
  | nil =>
      cases List.map_eq_nil_iff.mp hcalls.symm
      cases hs
      exact ⟨t', rfl, h⟩
  | cons call calls ih =>
      obtain ⟨call', calls', rfl, hcall, hrests⟩ := List.map_eq_cons_iff.mp hcalls.symm
      obtain ⟨tags, now⟩ := call
      obtain ⟨tags', now'⟩ := call'
      cases hcall
      obtain ⟨stats, v, rest, hfirst, hrest, rfl⟩ := storeEach_cons_eq_ok.mp hs
      have hok' : t'.disk.Calm ∨ ∃ stats' v', t'.storeTags tags now' true = (.ok stats', v') := by
        refine hok.imp_right fun ⟨_, _, he⟩ => ?_
        obtain ⟨stats', v', _, hfirst', _⟩ := storeEach_cons_eq_ok.mp he
        exact ⟨stats', v', hfirst'⟩
      obtain ⟨v', hfirst', hv⟩ := h.storeTags ht hfirst hok'
      -- Whichever way the first batch was known to be stored, the others are known to be, too.
      have hok'' : v'.disk.Calm ∨ ∃ rest' u', Store.storeEach true calls' v' = (.ok rest', u') := by
        refine hok.imp (fun hd => ?_) fun ⟨_, u', he⟩ => ?_
        · have hcalm := lasting_calm.storeTags hd tags now' true
          rwa [hfirst'] at hcalm
        · obtain ⟨_, _, rest', hfirst'', hrest', _⟩ := storeEach_cons_eq_ok.mp he
          cases hfirst'.symm.trans hfirst''
          exact ⟨rest', u', hrest'⟩
      obtain ⟨u', hrest', hu⟩ := ih hv hrests.symm hrest hok''
      exact ⟨u', storeEach_cons_eq_ok.mpr ⟨stats, v', rest, hfirst', hrest', rfl⟩, hu⟩

theorem Abreast.begin (hc : s.connection = some c) (ht : c.transaction = .none) (trouble : Nat → Option Fault) :
    Abreast s c s.begin.2 (s.meeting trouble) where
  toWithin := (Within.begin hc ht).2
  connection := hc
  locked := rfl
  isDatabase := id
  others _ _ := rfl
  same := by
    have hbegin : s.begin.2 = s.withTransaction c .begun := by
      simp only [Store.begin, hc, ht]
      rfl
    have hsame : s.begin.2.database = (s.meeting trouble).database := by
      rw [hbegin, database_eq (s := s.meeting trouble) hc, view_of_none ht]
      rfl
    rw [hsame]
    exact ⟨rfl, rfl, rfl, rfl⟩

end TagIndex.Store
