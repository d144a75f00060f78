import TagIndex.Proofs.Atomicity
import TagIndex.Proofs.Connecting
import TagIndex.Proofs.Runs

/-!
# Damage

As long as no statement meets damage, a session that asks, or that works in a transaction, goes on with its
connection.
-/

namespace TagIndex

open Lookup

theorem Statistics.candid_read : Statistics.read.Candid :=
  .bind .ask fun _ => .bind .ask fun _ => .bind .ask fun _ => .bind .ask fun _ => .bind .ask fun _ =>
    .bind .ask fun _ => .pure

/-! ## Statements are counted -/

theorem Disk.connect_statements {d d' : Disk} {text : String} {h : Handle}
    (hc : d.connect text = .ok (h, d')) : d.statements ≤ d'.statements := by
  obtain ⟨_, _, _, _, _, rfl | ⟨n, db, hle, rfl⟩⟩ := connect_ok hc
  · exact Nat.le_refl _
  · exact hle

namespace Store

variable {α : Type} {s t t' : Store} {c c' : Connection} {w : Work α} {auto : Bool}

theorem perform_statements (s : Store) (c : Connection) (w : Work α) :
    (s.perform c w).2.disk.statements = (s.outcome c w).next := by
  rw [perform_eq]
  dsimp only
  split
  · rfl
  split
  · rfl
  · split <;> rfl

/-- The store without its connection and without kept answers. -/
def dropped (s : Store) : Store := { s with connection := none, cache := {} }

theorem reopen_of_path {path : String} (h : s.path = some path) :
    s.reopen.2 = (s.dropped.connect path).toOption.getD s.dropped := by
  unfold reopen
  split
  · cases h.symm.trans ‹_›
  · rename_i p hp
    obtain rfl : p = path := Option.some.inj (hp.symm.trans h)
    dsimp only
    split
    · rename_i t hd
      rw [show s.dropped.connect p = .ok t from hd]
      rfl
    · rename_i e hd
      rw [show s.dropped.connect p = .error e from hd]
      rfl

/-- Where the file cannot be opened again, the session stays closed. -/
theorem reopen_cases {path : String} (h : s.path = some path) :
    (∃ reason, s.disk.connect path = .error reason ∧ s.reopen.2 = s.dropped) ∨
      ∃ handle disk, s.disk.connect path = .ok (handle, disk) ∧
        s.reopen.2 = { s.dropped with disk, connection := some { toHandle := handle }, path := some path } := by
  rw [reopen_of_path h]
  cases hd : s.disk.connect path with
  | error reason =>
      have hconnect : s.dropped.connect path = .error reason := by simp only [connect, dropped, hd]
      rw [hconnect]
      exact .inl ⟨reason, rfl, rfl⟩
  | ok opened =>
      obtain ⟨handle, disk⟩ := opened
      have hconnect : s.dropped.connect path = .ok { s.dropped with
          disk, connection := some { toHandle := handle }, path := some path } := by simp only [connect, dropped, hd]
      rw [hconnect]
      exact .inr ⟨handle, disk, rfl, rfl⟩

theorem reopen_statements (s : Store) : s.disk.statements ≤ s.reopen.2.disk.statements := by
  unfold reopen
  split
  · exact Nat.le_refl _
  · dsimp only
    split
    · rename_i t ht
      unfold connect at ht
      split at ht
      · rename_i hd
        cases ht
        exact Disk.connect_statements hd
      · cases ht
    · exact Nat.le_refl _

theorem heal_statements (s : Store) (f : Fault) : s.disk.statements ≤ (s.heal f).disk.statements := by
  unfold heal
  split
  · exact s.reopen_statements
  · exact Nat.le_refl _

/-! ## Sessions that go on -/

/-- The session keeps its path and its connection, on which no transaction begins. What is on the disk stays, and the
file refuses what it refused before, too. -/
structure GoesOn (s : Store) (c : Connection) (t : Store) : Prop where
  connection : ∃ transaction, (c.transaction = .none → transaction = .none) ∧
    t.connection = some { c with transaction }
  path : t.path = s.path
  leaves : s.disk.Leaves t.disk
  refusals : t.refusals c = s.refusals c

/-- A statement before the given one is refused with such a fault. -/
def MeetsBefore (F : Fault → Bool) (s : Store) (c : Connection) (k : Nat) : Prop :=
  ∃ n f, s.disk.statements ≤ n ∧ n < k ∧ s.refusals c .reads n = some f ∧ F f

/-- The file is damaged for a statement before the given one. -/
abbrev MeetsDamageBefore (s : Store) (c : Connection) (k : Nat) : Prop := MeetsBefore Fault.isDamage s c k

theorem Disk.Leaves.trans {d d' d'' : Disk} (h : d.Leaves d') (h' : d'.Leaves d'') : d.Leaves d'' :=
  fun p => (h p).trans (h' p)

theorem GoesOn.refl (hc : s.connection = some c) : GoesOn s c s := ⟨⟨c.transaction, id, hc⟩, rfl, .refl _, rfl⟩

theorem GoesOn.trans (h : GoesOn s c t) (h' : ∀ c', t.connection = some c' → GoesOn t c' t') : GoesOn s c t' := by
  obtain ⟨transaction, hnone, hc⟩ := h.connection
  obtain ⟨⟨transaction', hnone', hc'⟩, hp, hl, hr⟩ := h' _ hc
  exact ⟨⟨transaction', hnone' ∘ hnone, hc'⟩, hp.trans h.path, Disk.Leaves.trans h.leaves hl, Eq.trans hr h.refusals⟩

theorem GoesOn.congr (h : GoesOn s c t) (hc : t'.connection = t.connection) (hp : t'.path = t.path)
    (hd : t'.disk = t.disk) : GoesOn s c t' := by
  obtain ⟨hconnection, hpath, hleaves, hrefusals⟩ := h
  refine ⟨hc ▸ hconnection, hp.trans hpath, hd ▸ hleaves, ?_⟩
  rw [← hrefusals]
  unfold Store.refusals
  rw [hd]

theorem perform_goesOn (hc : s.connection = some c) (hw : c.transaction = .none → ReadsOnly w) :
    GoesOn s c (s.perform c w).2 := by
  rw [perform_eq]
  dsimp only
  split
  · exact ⟨⟨.none, fun _ => rfl, rfl⟩, rfl, .refl _, rfl⟩
  split
  · exact ⟨⟨c.transaction, id, hc⟩, rfl, .refl _, rfl⟩
  · rename_i hu
    split
    · rename_i ht
      have hdb : (s.outcome c w).db = s.disk.tables c.place := by
        rw [outcome, (hw ht (s.view c)).db rfl, view_of_none ht]
      refine ⟨⟨c.transaction, id, hc⟩, rfl, ?_, ?_⟩
      · refine Disk.leaves_put ?_
        show (s.disk.tables c.place).SameTables (s.outcome c w).db
        rw [hdb]
        exact .refl _
      · -- The file was a database before, or else the first statement would have been refused.
        have hfound : (s.disk.database? c.place).isNone = false := by
          rw [Bool.eq_false_iff]
          intro hnone
          refine hu (Bool.or_eq_true_iff.mpr (.inr ?_))
          simp only [Store.refusals, hnone, if_true, reduceCtorEq, decide_false, Bool.and_false,
            Bool.false_eq_true, if_false]
          split <;> rfl
        funext use n
        simp only [Store.refusals, written, counted, Disk.database?, Disk.content?_put, if_true] at hfound ⊢
        simp only [hfound, Option.isNone_some]
        rfl
    · rename_i ht
      exact ⟨⟨.working _, fun h => absurd h fun he => ht he, rfl⟩, rfl, .refl _, rfl⟩

/-- What disturbs a write disturbs a read as well. -/
theorem refusals_of_disturbs {use : Use} {n : Nat} {f : Fault} (h : s.refusals c use n = some f)
    (hd : f.disturbs) : s.refusals c .reads n = some f := by
  cases use with
  | reads => exact h
  | writes =>
      unfold Store.refusals at h ⊢
      cases hr : c.readOnly with
      | true =>
          simp only [hr] at h
          cases h
          cases hd
      | false => simpa [hr] using h

theorem disturbs_of_isDamage {f : Fault} (h : f.isDamage) : f.disturbs := Bool.or_eq_true_iff.mpr (.inl h)

theorem disturbs_of_endsTransaction {f : Fault} (h : f.endsTransaction) : f.disturbs :=
  Bool.or_eq_true_iff.mpr (.inr h)

theorem MeetsBefore.imp {F F' : Fault → Bool} {k : Nat} (h : s.MeetsBefore F c k) (hF : ∀ {f}, F f → F' f) :
    s.MeetsBefore F' c k := by
  obtain ⟨n, f, hle, hlt, hr, hf⟩ := h
  exact ⟨n, f, hle, hlt, hr, hF hf⟩

/-- What work tells of, one of its statements met. -/
theorem perform_meets {F : Fault → Bool} (hF : ∀ {f}, F f → f.disturbs) (hw : w.Candid) {f : Fault}
    (h : (s.perform c w).1 = .error f) (hf : F f) : s.MeetsBefore F c (s.perform c w).2.disk.statements := by
  rw [perform_result] at h
  obtain ⟨use, n, hle, hlt, hr⟩ := hw.disturbed _ _ _ f h (hF hf)
  rw [perform_statements]
  exact ⟨n, f, hle, hlt, refusals_of_disturbs hr (hF hf), hf⟩

/-- After some statements the session goes on, unless one of them met damage, and its transaction is open unless one of
them met a fault that ended it. -/
structure Proceeds (s : Store) (c : Connection) (t : Store) : Prop where
  counts : s.disk.statements ≤ t.disk.statements
  goesOn : GoesOn s c t ∨ MeetsDamageBefore s c t.disk.statements
  staysOpen : StaysOpen s t ∨ MeetsBefore Fault.disturbs s c t.disk.statements

theorem Proceeds.refl (hc : s.connection = some c) : Proceeds s c s :=
  ⟨Nat.le_refl _, .inl (.refl hc), .inl (.of_eq rfl)⟩

theorem Proceeds.congr (h : Proceeds s c t) (hc : t'.connection = t.connection) (hp : t'.path = t.path)
    (hd : t'.disk = t.disk) : Proceeds s c t' := by
  obtain ⟨hcounts, hgoes, hstays⟩ := h
  rw [← hd] at hcounts hgoes hstays
  exact ⟨hcounts, hgoes.imp_left fun hg => hg.congr hc hp hd, hstays.imp_left fun hs => hs.trans (.of_eq hc)⟩

/-- What the file refuses to a session that goes on, it refused from the start. -/
theorem GoesOn.meetsBefore {F : Fault → Bool} {k : Nat} {transaction : Transaction} (h : GoesOn s c t)
    (hn : s.disk.statements ≤ t.disk.statements) (hm : t.MeetsBefore F { c with transaction } k) :
    s.MeetsBefore F c k := by
  obtain ⟨n, f, hle, hlt, hr, hf⟩ := hm
  rw [show t.refusals { c with transaction } = t.refusals c from rfl, h.refusals] at hr
  exact ⟨n, f, Nat.le_trans hn hle, hlt, hr, hf⟩

theorem MeetsBefore.mono {F : Fault → Bool} {k k' : Nat} (h : s.MeetsBefore F c k) (hk : k ≤ k') :
    s.MeetsBefore F c k' := by
  obtain ⟨n, f, hle, hlt, hr, hf⟩ := h
  exact ⟨n, f, hle, Nat.lt_of_lt_of_le hlt hk, hr, hf⟩

/-- What a session that goes on does next, and what is done to a damaged file, goes on from the start. -/
theorem Proceeds.trans (h : Proceeds s c t) (hn : t.disk.statements ≤ t'.disk.statements)
    (h' : ∀ c', t.connection = some c' → Proceeds t c' t') : Proceeds s c t' := by
  rcases h.goesOn with hg | hm
  · obtain ⟨transaction, _, hc⟩ := hg.connection
    refine ⟨Nat.le_trans h.counts hn, ?_, ?_⟩
    · rcases (h' _ hc).goesOn with hg' | hm
      · exact .inl (hg.trans fun c' hc' => (Option.some.inj (hc.symm.trans hc')) ▸ hg')
      · exact .inr (hg.meetsBefore h.counts hm)
    · rcases h.staysOpen, (h' _ hc).staysOpen with ⟨hs | hm, hs' | hm'⟩
      · exact .inl (hs.trans hs')
      · exact .inr (hg.meetsBefore h.counts hm')
      · exact .inr (hm.mono hn)
      · exact .inr (hm.mono hn)
  · exact ⟨Nat.le_trans h.counts hn, .inr (hm.mono hn), .inr ((hm.imp disturbs_of_isDamage).mono hn)⟩

/-- Work takes a transaction back only for a fault that one of its statements met. -/
theorem perform_endures (hw : w.Candid) :
    StaysOpen s (s.perform c w).2 ∨ s.MeetsBefore Fault.endsTransaction c (s.perform c w).2.disk.statements := by
  cases hl : losesTransaction c (s.outcome c w).result with
  | false => exact .inl (perform_staysOpen hl)
  | true =>
      obtain ⟨_, f, hf, hends⟩ := losesTransaction_iff.mp hl
      refine .inr (perform_meets disturbs_of_endsTransaction hw ?_ hends)
      rw [perform_result, hf]

theorem perform_proceeds (hc : s.connection = some c) (hw : c.transaction = .none → ReadsOnly w)
    (ho : w.Candid) : Proceeds s c (s.perform c w).2 where
  counts := by
    rw [perform_statements]
    exact ho.forward _ _ _
  goesOn := .inl (perform_goesOn hc hw)
  staysOpen := (perform_endures ho).imp_right (·.imp disturbs_of_endsTransaction)

/-! ## Asking -/

section Asking

variable {f : Database → Except Fault α}

theorem query_next (s : Store) (c : Connection) (f : Database → Except Fault α) :
    (s.outcome c (Work.query f)).next = s.disk.statements + 1 := Work.statement_next _ _ _

/-- A question is one statement, and a file that is opened again takes more of them. -/
theorem askDatabase_next (hc : s.connection = some c) :
    s.disk.statements + 1 ≤ ((askDatabase f).run s).2.disk.statements := by
  have hn := s.perform_statements c (Work.query f)
  rw [query_next] at hn
  show _ ≤ (askDatabase f s).2.disk.statements
  simp only [askDatabase, hc]
  rcases hp : s.perform c (Work.query f) with ⟨e | a, t⟩ <;> rw [hp] at hn
  · exact Nat.le_trans (Nat.le_of_eq hn.symm) (t.heal_statements e)
  · exact Nat.le_of_eq hn.symm

theorem askDatabase_statements (s : Store) (f : Database → Except Fault α) :
    s.disk.statements ≤ ((askDatabase f).run s).2.disk.statements := by
  cases hc : s.connection with
  | none =>
      show s.disk.statements ≤ (askDatabase f s).2.disk.statements
      simp only [askDatabase, hc, Nat.le_refl]
  | some c => exact Nat.le_of_succ_le (askDatabase_next hc)

/-- A question that meets no damage leaves what its statement leaves. -/
theorem askDatabase_unharmed (hf : ∀ db e, f db = .error e → e.disturbs = false) (hc : s.connection = some c)
    (hn : ¬ s.MeetsDamageBefore c (s.disk.statements + 1)) :
    ((askDatabase f).run s).2 = (s.perform c (Work.query f)).2 := by
  show (askDatabase f s).2 = _
  simp only [askDatabase, hc]
  rcases hp : s.perform c (Work.query f) with ⟨e | a, t⟩
  · cases hd : e.isDamage with
    | false =>
        show t.heal e = t
        rw [heal, hd]
        rfl
    | true =>
        have hmeets := perform_meets (s := s) (c := c) disturbs_of_isDamage (.query hf)
          (congrArg Prod.fst hp) hd
        rw [perform_statements, query_next] at hmeets
        exact absurd hmeets hn
  · rfl

theorem askDatabase_proceeds (hf : ∀ db e, f db = .error e → e.disturbs = false)
    (hc : s.connection = some c) : Proceeds s c ((askDatabase f).run s).2 := by
  by_cases hn : s.MeetsDamageBefore c (s.disk.statements + 1)
  · replace hn := hn.mono (askDatabase_next (f := f) hc)
    exact ⟨s.askDatabase_statements f, .inr hn, .inr (hn.imp disturbs_of_isDamage)⟩
  · rw [askDatabase_unharmed hf hc hn]
    exact perform_proceeds hc (fun _ => readsOnly_query f) (.query hf)

/-- A session that is asked goes on, unless a statement meets damage. -/
theorem ask_proceeds (hc : s.connection = some c) (question : Question) :
    Proceeds s c (question.ask s) := by
  have hask : ∀ (α : Type) (f : Database → Except Fault α),
      (∀ db e, f db = .error e → e.disturbs = false) → Keeps (Proceeds s c) (askDatabase f) :=
    fun α f hf t ht => ht.trans (t.askDatabase_statements f) fun c' hc' => askDatabase_proceeds hf hc'
  have hperform : ∀ {β : Type} {w : Work β}, ReadsOnly w → w.Candid → ∀ t c',
      t.connection = some c' → Proceeds s c t → Proceeds s c (t.perform c' w).2 := by
    intro β w hw ho t c' hc' ht
    have h := perform_proceeds hc' (fun _ => hw) ho
    refine ht.trans h.counts fun c'' hc'' => ?_
    rwa [Option.some.inj (hc''.symm.trans hc')]
  refine question.keeps (A := fun _ => True) trivial (fun q kinds _ t ht => ?_) hask (fun t ht => ⟨?_, ?_⟩)
    question.filtersBy_true (.refl hc)
  · have ha := hask _ q.run (fun _ _ => q.disturbs_of_run) t ht
    rcases t.fetchKinds_cases q kinds with hs | hs | ⟨rows, _, hs⟩ <;> rw [hs]
    · exact ht
    · exact ha
    · exact ha.congr rfl rfl rfl
  · unfold statistics
    split
    · exact ht
    · exact hperform readsOnly_statistics Statistics.candid_read _ _ ‹_› ht
  · unfold schemaVersion
    split
    · exact ht
    · exact hperform (readsOnly_query _) .ask _ _ ‹_› ht

end Asking

/-! ## Files that are not damaged -/

/-- No statement of the session meets a fault of this kind. -/
def Avoids (F : Fault → Bool) (s : Store) : Prop :=
  ∀ c n f, s.connection = some c → s.refusals c .reads n = some f → F f = false

/-- The file of the session is not damaged for any statement. -/
abbrev Undamaged : Store → Prop := Avoids Fault.isDamage

/-- Nothing takes back what the session has pending: its file is not damaged, and no fault ends its transaction. -/
abbrev Secure : Store → Prop := Avoids Fault.disturbs

section Avoids

variable {F : Fault → Bool}

theorem reads_avoids_iff (hF : F .locked = false) (hF' : F .notDatabase = true) :
    (∀ n f, s.refusals c .reads n = some f → F f = false) ↔
      s.disk.locked.contains c.place ∨
        (s.disk.database? c.place).isSome ∧ ∀ n f, s.disk.trouble n = some f → F f = false := by
  unfold refusals
  cases s.disk.locked.contains c.place <;> cases s.disk.database? c.place <;> simp [hF, hF']

theorem Avoids.moves {db : Database} (hF : F .locked = false) (hF' : F .notDatabase = true) (h : s.Avoids F)
    (hc : s.connection = some c) (hm : Moves s c db t) : t.Avoids F := by
  cases hm with
  | nothing n => exact h
  | inTransaction n _ | takenBack n _ =>
      rintro _ m f ⟨⟩ hf
      exact h c m f hc hf
  | onDisk n _ =>
      intro c' m f hc' hf
      obtain rfl : c = c' := Option.some.inj (hc.symm.trans hc')
      refine (reads_avoids_iff hF hF').mpr ?_ m f hf
      refine ((reads_avoids_iff hF hF').mp fun m f => h c m f hc).imp_right fun hfound => ⟨?_, hfound.2⟩
      simp only [written, Disk.database?, Disk.content?_put, if_true]
      rfl

end Avoids

theorem Secure.moves {db : Database} (h : s.Secure) (hc : s.connection = some c) (hm : Moves s c db t) : t.Secure :=
  Avoids.moves rfl rfl h hc hm

theorem Secure.not_meetsBefore {F : Fault → Bool} {k : Nat} (h : s.Secure) (hc : s.connection = some c)
    (hF : ∀ {f}, F f → f.disturbs) : ¬ s.MeetsBefore F c k := by
  rintro ⟨n, f, _, _, hr, hf⟩
  have hd := h c n f hc hr
  rw [hF hf] at hd
  cases hd

/-- No work of a secure session ends its transaction. -/
theorem Secure.perform_staysOpen (h : s.Secure) (hc : s.connection = some c) (hw : w.Candid) :
    StaysOpen s (s.perform c w).2 :=
  (perform_endures hw).resolve_right (h.not_meetsBefore hc disturbs_of_endsTransaction)

/-- Whatever a secure session is asked, its file is not opened again, and its transaction stays open. -/
theorem Secure.askDatabase (h : s.Secure) {f : Database → Except Fault α}
    (hf : ∀ db e, f db = .error e → e.disturbs = false) (hc : s.connection = some c) :
    Moves s c s.database ((askDatabase f).run s).2 ∧ StaysOpen s ((askDatabase f).run s).2 := by
  rw [askDatabase_unharmed hf hc (h.not_meetsBefore hc disturbs_of_isDamage)]
  exact ⟨(readsOnly_query f).moves hc, h.perform_staysOpen hc (.query hf)⟩

end Store
end TagIndex
