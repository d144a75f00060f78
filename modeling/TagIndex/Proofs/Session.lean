import TagIndex.Store.Mutation
import TagIndex.Proofs.Places
import TagIndex.Proofs.Work

/-!
# Work on a store

Work that a call does either leaves the store alone, but for the number of its statements, or puts the
database that the work came to in the place of the one that the session sees. A fault can also take the
open transaction back.
-/

namespace TagIndex.Store

variable {α : Type} {s s' : Store} {c : Connection} {w : Work α} {db : Database} {auto : Bool}

/-- The store when its next statement has the given number. -/
def counted (s : Store) (n : Nat) : Store := { s with disk := { s.disk with statements := n } }

@[simp] theorem counted_connection (s : Store) (n : Nat) :
    (s.counted n).connection = s.connection := rfl

/-- The store with the given transaction on its connection. -/
def withTransaction (s : Store) (c : Connection) (t : Transaction) : Store :=
  { s with connection := some { c with transaction := t } }

/-- The store whose place on the disk holds the given database. -/
def written (s : Store) (n : Nat) (c : Connection) (db : Database) : Store :=
  { s.counted n with disk := (s.counted n).disk.put c.place (.database db) }

@[simp] theorem withTransaction_connection (s : Store) (c : Connection) (t : Transaction) :
    (s.withTransaction c t).connection = some { c with transaction := t } := rfl

@[simp] theorem written_connection (s : Store) (n : Nat) (c : Connection) (db : Database) :
    (s.written n c db).connection = s.connection := rfl

/-- How work ends when a connection does it. -/
def outcome (s : Store) (c : Connection) (w : Work α) : Outcome α :=
  w (s.refusals c) s.disk.statements (s.view c)

theorem database_eq (hc : s.connection = some c) : s.database = s.view c := by
  simp only [database, hc]

theorem view_of_none (h : c.transaction = .none) : s.view c = s.disk.tables c.place := by
  simp only [view, h, Disk.tables]

theorem written_database (hc : s.connection = some c) (ht : c.transaction = .none) (n : Nat) :
    (s.written n c db).database = db := by
  rw [database_eq (s := s.written n c db) hc, view_of_none ht]
  exact Disk.tables_put_self _ _ _

/-- A store whose session has no transaction. -/
def Idle (s : Store) : Prop := ∀ c, s.connection = some c → c.transaction = .none

/-- A transaction that is open in the one store is open in the other. -/
def StaysOpen (s t : Store) : Prop := t.Idle → s.Idle

theorem idle_withTransaction (s : Store) (c : Connection) : (s.withTransaction c .none).Idle := by
  intro _ hc
  cases hc
  rfl

theorem isIdle_iff : c.isIdle ↔ c.transaction = .none := by
  cases h : c.transaction <;> simp [Connection.isIdle, h]

theorem StaysOpen.of_eq {t : Store} (h : t.connection = s.connection) : StaysOpen s t := by
  unfold StaysOpen Idle
  rw [h]
  exact id

theorem StaysOpen.trans {t u : Store} (h : StaysOpen s t) (h' : StaysOpen t u) : StaysOpen s u := h ∘ h'

/-- What work makes of a store when it comes to a database. -/
inductive Moves (s : Store) (c : Connection) (db : Database) : Store → Prop where
  | nothing (n : Nat) : Moves s c db (s.counted n)
  | onDisk (n : Nat) (h : c.transaction = .none) : Moves s c db (s.written n c db)
  | inTransaction (n : Nat) (h : c.transaction ≠ .none) :
    Moves s c db ((s.counted n).withTransaction c (.working db))
  | takenBack (n : Nat) (h : c.transaction ≠ .none) : Moves s c db ((s.counted n).withTransaction c .none)

theorem Moves.cache (h : Moves s c db s') : s'.cache = s.cache := by cases h <;> rfl

theorem Moves.options (h : Moves s c db s') : s'.options = s.options := by cases h <;> rfl

theorem Moves.isOpen (hc : s.connection = some c) (h : Moves s c db s') : s'.isOpen := by
  cases h <;> simp [Store.isOpen, hc]

/-- Only work in a transaction can end one. -/
theorem Moves.idle (hc : s.connection = some c) (h : Moves s c db s') (hi : s.Idle) : s'.Idle := by
  cases h with
  | nothing n => exact hi
  | onDisk n _ => exact hi
  | inTransaction n hne => exact absurd (hi c hc) hne
  | takenBack n hne => exact absurd (hi c hc) hne

/-- As long as no transaction is taken back, the session sees what it saw or what the work came to. -/
theorem Moves.database (hc : s.connection = some c) (h : Moves s c db s') (hs : StaysOpen s s') :
    s'.database = s.database ∨ s'.database = db := by
  cases h with
  | nothing n => exact .inl rfl
  | onDisk n h =>
      exact .inr (written_database hc h n)
  | inTransaction n h => exact .inr rfl
  | takenBack n h => exact absurd (hs (idle_withTransaction _ c) c hc) h

/-! ## Work without a transaction of its own -/

/-- No statement runs, or none of those that do can change anything. -/
def leavesAlone (s : Store) (c : Connection) (w : Work α) : Bool :=
  c.readOnly || (s.outcome c w).next = s.disk.statements || (s.refusals c .reads s.disk.statements).isSome

theorem perform_eq (s : Store) (c : Connection) (w : Work α) : s.perform c w = ((s.outcome c w).result,
    if losesTransaction c (s.outcome c w).result then (s.counted (s.outcome c w).next).withTransaction c .none
    else if s.leavesAlone c w then s.counted (s.outcome c w).next
    else match c.transaction with
      | .none => s.written (s.outcome c w).next c (s.outcome c w).db
      | _ => (s.counted (s.outcome c w).next).withTransaction c (.working (s.outcome c w).db)) := by
  show (if losesTransaction c (s.outcome c w).result then _ else if s.leavesAlone c w then _ else _) = _
  split
  · rfl
  split
  · rfl
  · cases c.transaction <;> rfl

theorem perform_result (s : Store) (c : Connection) (w : Work α) :
    (s.perform c w).1 = (s.outcome c w).result := by
  rw [perform_eq]

theorem losesTransaction_iff {r : Except Fault α} : losesTransaction c r ↔
    c.transaction ≠ .none ∧ ∃ f, r = .error f ∧ f.endsTransaction := by
  cases r <;> simp [losesTransaction, ← isIdle_iff]

theorem losesTransaction_of_idle (h : c.transaction = .none) (r : Except Fault α) :
    losesTransaction c r = false :=
  Bool.eq_false_iff.mpr fun hl => (losesTransaction_iff.mp hl).1 h

theorem losesTransaction_of_ok {r : Except Fault α} {a : α} (h : r = .ok a) : losesTransaction c r = false := by
  rw [h]
  rfl

theorem losesTransaction_eq_false {r : Except Fault α} (h : ∀ e, r = .error e → e.endsTransaction = false) :
    losesTransaction c r = false := by
  cases r with
  | ok a => rfl
  | error e => rw [losesTransaction, h e rfl, Bool.and_false]

theorem perform_moves (s : Store) (c : Connection) (w : Work α) :
    Moves s c (s.outcome c w).db (s.perform c w).2 := by
  rw [perform_eq]
  dsimp only
  split
  · exact .takenBack _ (losesTransaction_iff.mp ‹_›).1
  split
  · exact .nothing _
  · split
    · exact .onDisk _ ‹_›
    · rename_i h
      exact .inTransaction _ fun he => h he

/-- Unless a fault takes it back, the transaction is still open after work in it. -/
theorem perform_staysOpen (hl : losesTransaction c (s.outcome c w).result = false) :
    StaysOpen s (s.perform c w).2 := by
  rw [perform_eq, hl]
  dsimp only
  split
  · cases ‹false = true›
  split
  · exact .of_eq rfl
  · split
    · exact .of_eq rfl
    · exact fun hi => nomatch hi _ rfl

/-- When no statement can read, none can write. -/
theorem refusals_isSome {n : Nat} (h : (s.refusals c .reads n).isSome) (use : Use) :
    (s.refusals c use n).isSome := by
  cases use with
  | reads => exact h
  | writes =>
      unfold refusals at *
      by_cases hr : c.readOnly
      · simp [hr]
      · simpa [hr] using h

/-- Unless a fault takes the transaction back, the session sees what the work came to. -/
theorem perform_database (hc : s.connection = some c) (hw : w.Orderly)
    (hl : losesTransaction c (s.outcome c w).result = false) :
    (s.perform c w).2.database = (s.outcome c w).db := by
  have hview := database_eq hc
  rw [perform_eq, hl]
  dsimp only
  split
  · cases ‹false = true›
  split
  · rename_i hu
    show s.database = _
    rw [hview]
    refine Eq.symm ?_
    rcases Bool.or_eq_true_iff.mp hu with hu | hu
    · rcases Bool.or_eq_true_iff.mp hu with hu | hu
      · exact hw.harmless _ _ _ fun m => by simp [refusals, hu]
      · exact hw.idle _ _ _ (of_decide_eq_true hu)
    · exact (hw.blocked _ _ _ (refusals_isSome hu)).1
  · split
    · exact written_database hc ‹_› _
    · rfl

/-- Where a fault takes the transaction back, nothing else happens. -/
theorem perform_of_loses (h : losesTransaction c (s.outcome c w).result) :
    (s.perform c w).2 = (s.counted (s.outcome c w).next).withTransaction c .none := by
  rw [perform_eq, if_pos h]

/-! ## Work in a transaction of its own -/

/-- A commit waits for the file, takes the transaction back, or makes it last. -/
theorem commitOn_working (s : Store) (h : c.transaction = .working db) :
    (∃ n, s.commitOn c = (.error .locked, s.counted n)) ∨
    (∃ e n, e ≠ .locked ∧ s.commitOn c = (.error e, (s.counted n).withTransaction c .none)) ∨
    ∃ n, s.commitOn c = (.ok (), (s.withTransaction c .none).written n c db) := by
  unfold commitOn
  simp only [h]
  split
  · exact .inl ⟨_, rfl⟩
  · rename_i e hne _
    exact .inr (.inl ⟨e, _, hne, rfl⟩)
  · exact .inr (.inr ⟨_, rfl⟩)

/-- The connection in a transaction that has done nothing yet. -/
def begunOn (c : Connection) : Connection := { c with transaction := .begun }

/-- Inside a transaction no other can begin. -/
theorem transact_of_begun (ht : c.transaction ≠ .none) (w : Work α) :
    s.transact c w = (.error .alreadyBegun, s) := by
  unfold transact
  split
  · exact absurd ‹_› ht
  · rfl

theorem transact_error {e : Fault} (ht : c.transaction = .none)
    (hp : (s.withTransaction c .begun).perform (begunOn c) w = (.error e, s')) :
    s.transact c w = (.error e, s'.abandon) := by
  simp only [withTransaction, begunOn] at hp
  simp only [transact, ht, hp]

theorem transact_ok {a : α} {c' : Connection} {t : Store} (ht : c.transaction = .none)
    (hp : (s.withTransaction c .begun).perform (begunOn c) w = (.ok a, s')) (hc : s'.connection = some c')
    (hm : s'.commitOn c' = (.ok (), t)) : s.transact c w = (.ok a, t) := by
  simp only [withTransaction, begunOn] at hp
  simp only [transact, ht, hp, hc, hm]

theorem transact_refused {a : α} {c' : Connection} {t : Store} {e : Fault}
    (ht : c.transaction = .none) (hp : (s.withTransaction c .begun).perform (begunOn c) w = (.ok a, s'))
    (hc : s'.connection = some c') (hm : s'.commitOn c' = (.error e, t)) :
    s.transact c w = (.error e, t.abandon) := by
  simp only [withTransaction, begunOn] at hp
  simp only [transact, ht, hp, hc, hm]

theorem outcome_begun (ht : c.transaction = .none) (w : Work α) :
    (s.withTransaction c .begun).outcome (begunOn c) w = s.outcome c w := by
  have hview : (s.withTransaction c .begun).view (begunOn c) = s.view c := by
    rw [view_of_none ht]
    rfl
  rw [outcome, hview]
  rfl

/-- Ending a transaction that did nothing takes the store back to where it was. -/
theorem withTransaction_none (hc : s.connection = some c) (ht : c.transaction = .none) :
    s.withTransaction c .none = s := by
  obtain ⟨disk, options, connection, path, cache⟩ := s
  obtain ⟨handle, transaction⟩ := c
  cases hc
  cases ht
  rfl

/-- Work that wrote in a transaction of its own is taken back when the commit is refused. -/
theorem transact_of_writes (hc : s.connection = some c) (ht : c.transaction = .none) {a : α} {n : Nat}
    (hp : (s.withTransaction c .begun).perform (begunOn c) w =
      (.ok a, (s.counted n).withTransaction c (.working db))) :
    (∃ e m, s.transact c w = (.error e, s.counted m)) ∨
      ∃ m, s.transact c w = (.ok a, s.written m c db) := by
  let c' : Connection := { c with transaction := .working db }
  let t : Store := (s.counted n).withTransaction c (.working db)
  have hend : ∀ m, (s.counted m).withTransaction c .none = s.counted m :=
    fun m => withTransaction_none (s := s.counted m) hc ht
  rcases commitOn_working (c := c') t rfl with ⟨m, hcm⟩ | ⟨e, m, _, hcm⟩ | ⟨m, hcm⟩
  · exact .inl ⟨.locked, m, (transact_refused ht hp rfl hcm).trans (congrArg _ (hend m))⟩
  · exact .inl ⟨e, m, (transact_refused ht hp rfl hcm).trans (congrArg _ (hend m))⟩
  · have hend : (s.written m c db).withTransaction c .none = s.written m c db :=
      withTransaction_none hc ht
    exact .inr ⟨m, (transact_ok ht hp rfl hcm).trans (congrArg _ hend)⟩

/-- A transaction of its own either ends with an error and leaves everything as it was, or its writes
are on the disk. -/
theorem transact_cases (hc : s.connection = some c) (w : Work α) (hw : w.Orderly) :
    (∃ e n, s.transact c w = (.error e, s.counted n)) ∨
    ∃ a, (s.outcome c w).result = .ok a ∧ (s.transact c w).1 = .ok a ∧
      Moves s c (s.outcome c w).db (s.transact c w).2 ∧
      (s.transact c w).2.database = (s.outcome c w).db := by
  by_cases ht : c.transaction = .none
  case neg => exact .inl ⟨.alreadyBegun, s.disk.statements, transact_of_begun ht w⟩
  have hend : ∀ n, (s.counted n).withTransaction c .none = s.counted n :=
    fun n => withTransaction_none (s := s.counted n) hc ht
  have hr := (s.withTransaction c .begun).perform_result (begunOn c) w
  have hm := (s.withTransaction c .begun).perform_moves (begunOn c) w
  have hd := perform_database (s := s.withTransaction c .begun) (c := begunOn c) rfl hw
  have hkept := (s.withTransaction c .begun).perform_staysOpen (c := begunOn c) (w := w)
  rw [outcome_begun ht] at hr hm hd hkept
  rcases hp : (s.withTransaction c .begun).perform (begunOn c) w with ⟨e | a, t⟩ <;> rw [hp] at hr hm hd hkept
  · left
    rw [transact_error ht hp]
    -- Whatever the work did before it failed was done in the transaction, which is given up.
    cases hm with
    | nothing n => exact ⟨e, n, congrArg _ (hend n)⟩
    | onDisk n h => cases h
    | inTransaction n h => exact ⟨e, n, congrArg _ (hend n)⟩
    | takenBack n h => exact ⟨e, n, congrArg _ (hend n)⟩
  · specialize hd (losesTransaction_of_ok hr.symm)
    specialize hkept (losesTransaction_of_ok hr.symm)
    cases hm with
    | takenBack n h => exact nomatch hkept (idle_withTransaction _ c) _ rfl
    | nothing n =>
        have hok : s.transact c w = (.ok a, s.counted n) :=
          (transact_ok ht hp rfl rfl).trans (congrArg _ (hend n))
        rw [hok]
        have hsame : (s.counted n).database = (s.outcome c w).db :=
          (database_eq hc).trans ((view_of_none ht).trans hd)
        exact .inr ⟨a, hr.symm, rfl, .nothing n, hsame⟩
    | onDisk n h => cases h
    | inTransaction n h =>
        -- Only now is there something to commit, and the commit can be refused, too.
        rcases transact_of_writes hc ht hp with hno | ⟨m, hok⟩
        · exact .inl hno
        · rw [hok]
          exact .inr ⟨a, hr.symm, rfl, .onDisk m ht, written_database hc ht m⟩

theorem mutate_false (hc : s.connection = some c) (w : Work α) : s.mutate false w =
    ((s.perform c w).1.mapError StoreError.ofMutation, (s.perform c w).2) := by
  simp only [mutate, hc, work]
  rfl

/-- A call that writes either ends with an error and leaves everything as it was, or ends with one that takes
the transaction back that it was made in, or does its work. -/
theorem mutate_cases (s : Store) (auto : Bool) {w : Work α} (hw : w.Orderly) :
    (∃ e n, s.mutate auto w = (.error e, s.counted n)) ∨
    (∃ c f n, s.connection = some c ∧ c.transaction ≠ .none ∧ auto = false ∧ f.endsTransaction ∧
      s.mutate auto w = (.error (.ofMutation f), (s.counted n).withTransaction c .none)) ∨
    ∃ c, s.connection = some c ∧
      (losesTransaction c (s.outcome c w).result = false ∧ StaysOpen s (s.mutate auto w).2) ∧
      Moves s c (s.outcome c w).db (s.mutate auto w).2 ∧ (s.mutate auto w).2.database = (s.outcome c w).db ∧
      (s.mutate auto w).1 = (s.outcome c w).result.mapError StoreError.ofMutation ∧
      (auto = true → ∃ a, (s.outcome c w).result = .ok a) := by
  cases hc : s.connection with
  | none =>
      refine .inl ⟨.notOpen, s.disk.statements, ?_⟩
      simp only [mutate, hc]
      rfl
  | some c =>
      cases auto with
      | false =>
          right
          rw [mutate_false hc, perform_result]
          -- A fault on the way can take the caller's transaction with it.
          cases hl : losesTransaction c (s.outcome c w).result with
          | true =>
              obtain ⟨ht, f, hf, hends⟩ := losesTransaction_iff.mp hl
              refine .inl ⟨c, f, (s.outcome c w).next, rfl, ht, rfl, hends, ?_⟩
              rw [perform_of_loses hl, hf]
              rfl
          | false =>
              exact .inr ⟨c, rfl, ⟨hl, perform_staysOpen hl⟩, s.perform_moves c w, perform_database hc hw hl, rfl,
                nofun⟩
      | true =>
          have hrun : s.mutate true w =
              ((s.transact c w).1.mapError StoreError.ofMutation, (s.transact c w).2) := by
            simp only [mutate, hc, work, if_true]
          rw [hrun]
          rcases transact_cases hc w hw with ⟨e, n, h⟩ | ⟨a, ha, hr, hm, hd⟩
          · exact .inl ⟨StoreError.ofMutation e, n, by rw [h]; rfl⟩
          · have hidle : s.Idle := by
              rintro _ hc'
              cases hc.symm.trans hc'
              by_contra ht
              rw [transact_of_begun ht] at hr
              cases hr
            exact .inr (.inr ⟨c, rfl, ⟨losesTransaction_of_ok ha, fun _ => hidle⟩, hm, hd, by rw [ha, hr],
              fun _ => ⟨a, ha⟩⟩)

/-- Whatever becomes of a call that writes, the store makes one move. -/
theorem mutate_moves (hc : s.connection = some c) (auto : Bool) {w : Work α} (hw : w.Orderly) :
    ∃ db, Moves s c db (s.mutate auto w).2 := by
  rcases s.mutate_cases auto hw with ⟨e, n, h⟩ | ⟨c', f, n, hc', ht, _, _, h⟩ | ⟨c', hc', _, hm, _⟩
  · rw [h]
    exact ⟨{}, .nothing n⟩
  · cases hc.symm.trans hc'
    rw [h]
    exact ⟨{}, .takenBack n ht⟩
  · cases hc.symm.trans hc'
    exact ⟨_, hm⟩

/-- A call that succeeds has done its work. -/
theorem mutate_ok {auto : Bool} {w : Work α} (hw : w.Orderly) {a : α} (h : (s.mutate auto w).1 = .ok a) :
    ∃ c, s.connection = some c ∧ (s.outcome c w).result = .ok a ∧
      (s.mutate auto w).2.database = (s.outcome c w).db ∧ StaysOpen s (s.mutate auto w).2 ∧
      Moves s c (s.outcome c w).db (s.mutate auto w).2 := by
  rcases s.mutate_cases auto hw with ⟨e, n, he⟩ | ⟨c, f, n, _, _, _, _, he⟩ | ⟨c, hc, ⟨_, hs⟩, hm, hd, hr, _⟩
  · rw [he] at h
    cases h
  · rw [he] at h
    cases h
  · rw [h] at hr
    cases hres : (s.outcome c w).result with
    | error e =>
        rw [hres] at hr
        cases hr
    | ok b =>
        rw [hres] at hr
        cases hr
        exact ⟨c, hc, hres, hd, hs, hm⟩

/-- A call that succeeds leaves what its work promises of success. -/
theorem mutate_meets {P : Database → Prop} {Q : α → Database → Prop} {E : Database → Prop} {auto : Bool}
    {w : Work α} (hw : w.Orderly) (hm : Work.Meets P w Q E) (hp : P s.database) {a : α}
    (h : (s.mutate auto w).1 = .ok a) : Q a (s.mutate auto w).2.database := by
  obtain ⟨c, hc, hres, hd, _⟩ := mutate_ok hw h
  rw [hd]
  exact hm.ok (by rwa [← database_eq hc]) hres

end TagIndex.Store
