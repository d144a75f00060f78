import Mathlib.Logic.Relation
import TagIndex.Proofs.Session

/-!
# Turns of a place

To a session a place has the tables on the disk and, in a transaction, those that it works on. A turn is
at most one write, commit or begin, and then what can happen without one: reading, giving a transaction
up, opening.
-/

namespace TagIndex

open Relation

/-- The tables of a place on the disk, and the transaction on it, if there is one. -/
structure PlaceState where
  stored : Database
  transaction : Transaction

namespace PlaceState

variable {R : Database → Database → Prop} {K : PlaceState → Prop} {I : Database → Prop}
  {p : Place} {a b m : PlaceState}

def seen (a : PlaceState) : Database :=
  match a.transaction with
  | .working db => db
  | _ => a.stored

/-- A write, which takes the tables that the session sees to others as `R` says. -/
inductive Write (R : Database → Database → Prop) : PlaceState → PlaceState → Prop where
  | stored {db db' : Database} (h : R db db') : Write R ⟨db, .none⟩ ⟨db', .none⟩
  | working {a : PlaceState} {db : Database} (ht : a.transaction ≠ .none) (h : R a.seen db) :
    Write R a ⟨a.stored, .working db⟩

/-- What happens to a place while its tables stay, or while it is opened. -/
inductive Read (p : Place) : PlaceState → PlaceState → Prop where
  | seen {a b : PlaceState} (h : Write Database.SameTables a b) : Read p a b
  | same {db db' : Database} {t : Transaction} (h : db.SameTables db') : Read p ⟨db, t⟩ ⟨db', t⟩
  | dropped {a : PlaceState} : Read p a ⟨a.stored, .none⟩
  | renewed {a : PlaceState} {db : Database} (hp : p = .scratch) (h : db.IsBlank) :
    Read p a ⟨db, .none⟩

/-- At most one write, commit or begin, and then no more. -/
inductive Turn (R : Database → Database → Prop) (p : Place) : PlaceState → PlaceState → Prop where
  | reads {a b : PlaceState} (h : ReflTransGen (Read p) a b) : Turn R p a b
  | write {a b m : PlaceState} (hw : Write R a m) (h : ReflTransGen (Read p) m b) : Turn R p a b
  | commit {a b : PlaceState} {db : Database} (ht : a.transaction = .working db)
    (h : ReflTransGen (Read p) ⟨db, .none⟩ b) : Turn R p a b
  | begin {a b : PlaceState} (ht : a.transaction = .none)
    (h : ReflTransGen (Read p) ⟨a.stored, .begun⟩ b) : Turn R p a b

theorem Turn.refl (a : PlaceState) : Turn R p a a := .reads .refl

theorem Turn.trans_reads (h : Turn R p a m) (h' : ReflTransGen (Read p) m b) : Turn R p a b := by
  cases h with
  | reads h => exact .reads (h.trans h')
  | write hw h => exact .write hw (h.trans h')
  | commit ht h => exact .commit ht (h.trans h')
  | begin ht h => exact .begin ht (h.trans h')

theorem reads_keep (hr : ∀ a b, Read p a b → K a → K b) (h : ReflTransGen (Read p) a b) (hk : K a) :
    K b := by
  induction h with
  | refl => exact hk
  | tail _ h ih => exact hr _ _ h ih

/-! ## Facts about all tables of a place -/

/-- All tables of the place satisfy `I`. -/
def All (I : Database → Prop) (a : PlaceState) : Prop :=
  I a.stored ∧ ∀ db, a.transaction = .working db → I db

theorem All.seen (h : All I a) : I a.seen := by
  obtain ⟨stored, transaction⟩ := a
  cases transaction with
  | none => exact h.1
  | begun => exact h.1
  | working db => exact h.2 db rfl

theorem All.write (hR : ∀ db db', R db db' → I db → I db') (hw : Write R a b) (h : All I a) :
    All I b := by
  cases hw with
  | stored hr => exact ⟨hR _ _ hr h.1, nofun⟩
  | working _ hr => exact ⟨h.1, fun db' he => Transaction.working.inj he ▸ hR _ _ hr h.seen⟩

/-- Reading keeps what the sameness of tables keeps, as long as no scratch place is opened anew. -/
theorem All.read (hI : ∀ db db', db.SameTables db' → I db → I db') (hr : Read p a b) (h : All I a) :
    All I b ∨ p = .scratch ∧ All Database.IsBlank b := by
  cases hr with
  | seen hw => exact .inl (h.write hI hw)
  | same hs => exact .inl ⟨hI _ _ hs h.1, h.2⟩
  | dropped => exact .inl ⟨h.1, nofun⟩
  | renewed hq hs => exact .inr ⟨hq, hs, nofun⟩

theorem All.reads (hI : ∀ db db', db.SameTables db' → I db → I db')
    (hr : ReflTransGen (Read p) a b) (h : All I a) :
    All I b ∨ p = .scratch ∧ All Database.IsBlank b := by
  refine reads_keep (K := fun b => All I b ∨ p = .scratch ∧ All Database.IsBlank b)
    (fun a b hr hk => ?_) hr (.inl h)
  rcases hk with hk | ⟨hp, hk⟩
  · exact hk.read hI hr
  · exact .inr ⟨hp, (hk.read (fun _ _ h h' => h'.trans h) hr).elim id And.right⟩

/-- What is true of blank tables is true of a scratch place that is opened anew as well. -/
theorem All.or_blank (hI : ∀ db db', db.SameTables db' → I db → I db') (h0 : I {})
    (h : All I a ∨ p = .scratch ∧ All Database.IsBlank a) : All I a := by
  rcases h with h | ⟨_, h⟩
  · exact h
  · exact ⟨hI _ _ h.1 h0, fun db hdb => hI _ _ (h.2 db hdb) h0⟩

theorem All.turn (hR : ∀ db db', R db db' → I db → I db')
    (hI : ∀ db db', db.SameTables db' → I db → I db') (ht : Turn R p a b) (h : All I a) :
    All I b ∨ p = .scratch ∧ All Database.IsBlank b := by
  cases ht with
  | reads ht => exact h.reads hI ht
  | write hw ht => exact (h.write hR hw).reads hI ht
  | commit hw ht => exact All.reads hI ht ⟨h.2 _ hw, nofun⟩
  | begin _ ht => exact All.reads hI ht ⟨h.1, nofun⟩

/-! ## Transactions -/

/-- While a transaction is open, the tables on the disk stay. -/
theorem Turn.stored (ht : Turn R p a b) : b.transaction = .none ∨ a.stored.SameTables b.stored := by
  let K : PlaceState → Prop := fun b => b.transaction = .none ∨ a.stored.SameTables b.stored
  have hr : ∀ b b', Read p b b' → K b → K b' := by
    intro b b' hr hk
    cases hr with
    | seen hw =>
        cases hw with
        | stored _ => exact .inl rfl
        | working ht _ => exact .inr (hk.resolve_left ht)
    | same hs => exact hk.imp_right fun h => h.trans hs
    | dropped => exact .inl rfl
    | renewed _ _ => exact .inl rfl
  cases ht with
  | reads ht => exact reads_keep hr ht (.inr (.refl _))
  | write hw ht =>
      refine reads_keep hr ht ?_
      cases hw with
      | stored _ => exact .inl rfl
      | working _ _ => exact .inr (.refl _)
  | commit _ ht => exact reads_keep hr ht (.inl rfl)
  | begin _ ht => exact reads_keep hr ht (.inr (.refl _))

/-- While a transaction is open, what its work keeps stays true of the tables that it works on. -/
theorem Turn.working (hR : ∀ db db', R db db' → I db → I db')
    (hI : ∀ db db', db.SameTables db' → I db → I db') (ht : Turn R p a b) {db : Database}
    (ha : a.transaction = .working db) (hi : I db) :
    b.transaction = .none ∨ ∃ db', b.transaction = .working db' ∧ I db' := by
  let K : PlaceState → Prop := fun b =>
    b.transaction = .none ∨ ∃ db', b.transaction = .working db' ∧ I db'
  have hwrite : ∀ {R : Database → Database → Prop} b b', (∀ db db', R db db' → I db → I db') →
      Write R b b' → K b → K b' := by
    intro R b b' hR hw hk
    cases hw with
    | stored _ => exact .inl rfl
    | working ht h =>
        obtain ⟨db', hb, hi⟩ := hk.resolve_left ht
        exact .inr ⟨_, rfl, hR _ _ h (by rwa [PlaceState.seen, hb])⟩
  have hr : ∀ b b', Read p b b' → K b → K b' := by
    intro b b' hr hk
    cases hr with
    | seen hw => exact hwrite _ _ hI hw hk
    | same _ => exact hk
    | dropped => exact .inl rfl
    | renewed _ _ => exact .inl rfl
  have hka : K a := .inr ⟨db, ha, hi⟩
  cases ht with
  | reads ht => exact reads_keep hr ht hka
  | write hw ht => exact reads_keep hr ht (hwrite _ _ hR hw hka)
  | commit _ ht => exact reads_keep hr ht (.inl rfl)
  | begin hn _ =>
      rw [hn] at ha
      cases ha

end PlaceState

/-! ## The places of a store -/

namespace Store

open PlaceState

variable {α : Type} {R : Database → Database → Prop} {s s' : Store} {c : Connection}
  {db : Database} {p : Place} {path : String} {f : Fault}

/-- A place as the session of a store has it. -/
def stateAt (s : Store) (p : Place) : PlaceState where
  stored := s.disk.tables p
  transaction :=
    match s.connection with
    | some c => if c.place = p then c.transaction else .none
    | none => .none

theorem stateAt_of_none (h : s.connection = none) : s.stateAt p = ⟨s.disk.tables p, .none⟩ := by
  simp only [stateAt, h]

theorem stateAt_self (hc : s.connection = some c) :
    s.stateAt c.place = ⟨s.disk.tables c.place, c.transaction⟩ := by
  simp only [stateAt, hc, if_true]

theorem stateAt_of_ne (hc : s.connection = some c) (hp : c.place ≠ p) :
    s.stateAt p = ⟨s.disk.tables p, .none⟩ := by
  simp only [stateAt, hc, if_neg hp]

theorem seen_stateAt (hc : s.connection = some c) : (s.stateAt c.place).seen = s.database := by
  rw [stateAt_self hc, database_eq hc]
  unfold seen view
  cases c.transaction <;> rfl

theorem stateAt_withTransaction (hc : s.connection = some c) (t : Transaction) (p : Place) :
    (s.withTransaction c t).stateAt p =
      ⟨(s.stateAt p).stored, if c.place = p then t else (s.stateAt p).transaction⟩ := by
  by_cases hp : c.place = p
  · subst hp
    rw [if_pos rfl]
    exact stateAt_self (s := s.withTransaction c t) rfl
  · rw [if_neg hp, stateAt_of_ne hc hp]
    exact stateAt_of_ne (s := s.withTransaction c t) rfl hp

theorem stateAt_written (s : Store) (n : Nat) (c : Connection) (db : Database) (p : Place) :
    (s.written n c db).stateAt p =
      ⟨if c.place = p then db else (s.stateAt p).stored, (s.stateAt p).transaction⟩ := by
  show PlaceState.mk ((s.counted n).disk.put c.place (.database db) |>.tables p) _ = _
  by_cases hp : c.place = p
  · subst hp
    rw [if_pos rfl, Disk.tables_put_self]
    rfl
  · rw [if_neg hp, Disk.tables_put_of_ne (Ne.symm hp)]
    rfl

/-- A write to a store is one at the session's place, if it is one at all and the transaction is not taken
back. -/
theorem Moves.write (hc : s.connection = some c) (h : Moves s c db s') (hR : R s.database db)
    (p : Place) : s'.stateAt p = s.stateAt p ∨ Write R (s.stateAt p) (s'.stateAt p) ∨
      s'.stateAt p = ⟨(s.stateAt p).stored, .none⟩ := by
  rw [← seen_stateAt hc] at hR
  cases h with
  | nothing n => exact .inl rfl
  | takenBack n _ =>
      rw [stateAt_withTransaction (s := s.counted n) hc]
      by_cases hp : c.place = p
      · rw [if_pos hp]
        exact .inr (.inr rfl)
      · rw [if_neg hp]
        exact .inl rfl
  | onDisk n h =>
      rw [stateAt_written]
      by_cases hp : c.place = p
      · subst hp
        rw [stateAt_self hc, h] at hR ⊢
        rw [if_pos rfl]
        exact .inr (.inl (.stored hR))
      · rw [if_neg hp]
        exact .inl rfl
  | inTransaction n h =>
      rw [stateAt_withTransaction (s := s.counted n) hc]
      by_cases hp : c.place = p
      · subst hp
        rw [if_pos rfl]
        exact .inr (.inl (.working (by rwa [stateAt_self hc]) hR))
      · rw [if_neg hp]
        exact .inl rfl

theorem Moves.turn (hc : s.connection = some c) (h : Moves s c db s') (hR : R s.database db)
    (p : Place) : Turn R p (s.stateAt p) (s'.stateAt p) := by
  rcases h.write hc hR p with h | h | h
  · rw [h]
    exact .refl _
  · exact .write h .refl
  · rw [h]
    exact .reads (.single .dropped)

/-! ## Calls that do not write -/

/-- From the one store to the other no place is written to. -/
def Reads (s s' : Store) : Prop := ∀ p, ReflTransGen (Read p) (s.stateAt p) (s'.stateAt p)

theorem Reads.refl (s : Store) : Reads s s := fun _ => .refl

theorem Reads.trans {s'' : Store} (h : Reads s s') (h' : Reads s' s'') : Reads s s'' :=
  fun p => (h p).trans (h' p)

theorem Moves.reads (hc : s.connection = some c) (h : Moves s c db s')
    (hs : s.database.SameTables db) : Reads s s' := by
  intro p
  rcases h.write hc hs p with h | h | h
  · rw [h]
  · exact .single (.seen h)
  · rw [h]
    exact .single .dropped

theorem reads_of_leaves (hc : s'.connection = s.connection) (hd : s.disk.Leaves s'.disk) :
    Reads s s' := by
  intro p
  simp only [stateAt, hc]
  exact .single (.same (hd p))

theorem Idle.reads (hi : s'.Idle) (hd : s.disk.Opens s'.disk) : Reads s s' := by
  intro p
  have hw : s'.stateAt p = ⟨s'.disk.tables p, .none⟩ := by
    cases h : s'.connection with
    | none => exact stateAt_of_none h
    | some c => simp only [stateAt, h, hi c h, ite_self]
  rw [hw]
  rcases hd p with h | ⟨hp, h⟩
  · exact (ReflTransGen.single .dropped).tail (.same h)
  · exact .single (.renewed hp h)

/-- A transaction that is taken back leaves the tables on the disk. -/
theorem takenBack_reads (s : Store) (c : Connection) (n : Nat) : Reads s ((s.counted n).withTransaction c .none) :=
  (idle_withTransaction _ c).reads (Disk.Leaves.refl _).opens

theorem idle_of_none (h : s.connection = none) : s.Idle := by
  intro c hc
  rw [h] at hc
  cases hc

theorem idle_of_all (h : s.connection.all (·.transaction matches .none)) : s.Idle := by
  intro c hc
  have hnone := (Option.all_eq_true _ _).mp h c hc
  cases ht : c.transaction <;> simp [ht] at hnone ⊢

theorem idle_of_connect (h : s.connect path = .ok s') : s'.Idle := by
  unfold connect at h
  split at h
  · cases h
    intro c hc
    cases hc
    rfl
  · cases h

theorem connect_reads (h : s.connect path = .ok s') : Reads s s' := by
  refine (idle_of_connect h).reads ?_
  unfold connect at h
  split at h
  · rename_i handle disk hd
    cases h
    exact Disk.connect_opens hd
  · cases h

theorem close_reads (s : Store) : Reads s s.close :=
  (idle_of_none rfl).reads (Disk.Leaves.refl _).opens

theorem abandon_reads (s : Store) : Reads s s.abandon := by
  refine Idle.reads ?_ (Disk.Leaves.refl _).opens
  intro c hc
  obtain ⟨c, _, rfl⟩ := Option.map_eq_some_iff.mp hc
  rfl

theorem openPath_reads (s : Store) (path : String) : Reads s (s.openPath path).2 := by
  unfold openPath
  split
  · exact .refl s
  · dsimp only
    have hclose : Reads s (if s.isOpen then s.close else s) := by
      split
      · exact s.close_reads
      · exact .refl s
    generalize (if s.isOpen then s.close else s) = t at *
    split
    · exact hclose.trans (connect_reads ‹_›)
    · refine hclose.trans ?_
      split
      · rename_i p _
        cases hp : t.connect p with
        | ok u => exact connect_reads hp
        | error e => exact .refl t
      · exact .refl t

theorem reopen_reads (s : Store) : Reads s s.reopen.2 := by
  unfold reopen
  split
  · exact .refl s
  · dsimp only
    have hdrop : Reads s { s with connection := none, cache := {} } :=
      (idle_of_none rfl).reads (Disk.Leaves.refl _).opens
    split
    · exact hdrop.trans (connect_reads ‹_›)
    · exact hdrop

theorem heal_reads (s : Store) (f : Fault) : Reads s (s.heal f) := by
  unfold heal
  split
  · exact s.reopen_reads
  · exact .refl s

theorem rollback_reads (s : Store) : Reads s s.rollback.2 := by
  unfold rollback
  split
  · exact .refl s
  · split
    · exact reads_of_leaves rfl (.refl _)
    · exact s.abandon_reads.trans (reads_of_leaves rfl (.refl _))

theorem begin_turn (s : Store) (p : Place) : Turn R p (s.stateAt p) (s.begin.2.stateAt p) := by
  unfold begin
  split
  · exact .refl _
  · rename_i c hc
    cases ht : c.transaction with
    | none =>
        show Turn R p (s.stateAt p) ((s.withTransaction c .begun).stateAt p)
        rw [stateAt_withTransaction hc]
        by_cases hp : c.place = p
        · subst hp
          rw [if_pos rfl]
          exact .begin (by rw [stateAt_self hc, ht]) .refl
        · rw [if_neg hp]
          exact .refl _
    | begun => exact .refl _
    | working db => exact .refl _

theorem commit_turn (s : Store) (p : Place) : Turn R p (s.stateAt p) (s.commit.2.stateAt p) := by
  unfold commit
  split
  · exact .refl _
  · rename_i c hc
    cases ht : c.transaction with
    | none =>
        simp only [commitOn, ht]
        exact .refl _
    | begun =>
        simp only [commitOn, ht]
        let s' : Store := { s with connection := some { c with transaction := .none } }
        have hi : s'.Idle := by
          intro c' hc'
          cases hc'
          rfl
        exact .reads (hi.reads (Disk.Leaves.refl s.disk).opens p)
    | working db =>
        rcases s.commitOn_working ht with ⟨n, h⟩ | ⟨e, n, _, h⟩ | ⟨n, h⟩ <;> simp only [h]
        · exact .refl _
        · exact .reads (s.takenBack_reads c n p)
        · rw [stateAt_written, stateAt_withTransaction hc]
          by_cases hp : c.place = p
          · subst hp
            rw [if_pos rfl, if_pos rfl, stateAt_self hc, ht]
            exact .commit rfl .refl
          · rw [if_neg hp, if_neg hp]
            exact .refl _

end Store
end TagIndex
