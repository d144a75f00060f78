import TagIndex.Proofs.Alongside
import TagIndex.Proofs.Damage
import TagIndex.Proofs.FailedOpen

/-!
# Damage that is met

A lookup or a batch that meets a damaged file gives up its connection and opens the file once more. After all other
calls the session stays on the connection it has.
-/

namespace TagIndex

open Lookup Relation

namespace Store

variable {α : Type} {s t u : Store} {c : Connection} {db : Database} {path : String} {e : Fault}

/-! ## Opening the file again -/

/-- The session keeps no answers, and it is connected to the path as one attempt on the disk can do it. -/
structure Reconnected (path : String) (d : Disk) (t : Store) : Prop where
  onPath : t.path = some path
  forgets : t.cache = {}
  connects : t.connection = (d.connect path).toOption.map fun opened => { toHandle := opened.1 }

theorem Reconnected.isOpen_iff {d : Disk} (h : t.Reconnected path d) :
    t.isOpen ↔ ∃ opened, d.connect path = .ok opened := by
  rw [Store.isOpen, h.connects]
  cases d.connect path <;> simp [Except.toOption]

theorem reopen_reconnected (hp : s.path = some path) : s.reopen.2.Reconnected path s.disk := by
  rcases reopen_cases hp with ⟨_, hd, hclosed⟩ | ⟨_, _, hd, hopened⟩
  · rw [hclosed]
    exact ⟨hp, rfl, by rw [hd]; rfl⟩
  · rw [hopened]
    exact ⟨rfl, rfl, by rw [hd]; rfl⟩

/-! ## What one question comes to -/

/-- The file is damaged for the next statement of the session. -/
def IsDamaged (s : Store) : Prop := ∃ c, s.connection = some c ∧ s.MeetsDamageBefore c (s.disk.statements + 1)

/-- The disk after the next statement. -/
def afterStatement (s : Store) : Disk := { s.disk with statements := s.disk.statements + 1 }

theorem not_meetsDamageBefore_self (s : Store) (c : Connection) : ¬ s.MeetsDamageBefore c s.disk.statements :=
  fun ⟨_, _, hle, hlt, _⟩ => absurd hle (Nat.not_le.mpr hlt)

/-- The session went on with its connection, and no statement met damage. -/
structure Spared (s : Store) (c : Connection) (t : Store) : Prop extends GoesOn s c t where
  counts : s.disk.statements ≤ t.disk.statements
  unharmed : ¬ s.MeetsDamageBefore c t.disk.statements

theorem Spared.refl (hc : s.connection = some c) : Spared s c s where
  toGoesOn := .refl hc
  counts := Nat.le_refl _
  unharmed := s.not_meetsDamageBefore_self c

theorem Spared.trans (h : Spared s c t) (h' : ∀ c', t.connection = some c' → Spared t c' u) : Spared s c u := by
  obtain ⟨transaction, _, hc⟩ := h.connection
  have hnext := h' _ hc
  refine ⟨h.toGoesOn.trans fun c' hc' => (h' c' hc').toGoesOn, h.counts.trans hnext.counts, ?_⟩
  rintro ⟨n, f, hle, hlt, hr, hd⟩
  by_cases hn : n < t.disk.statements
  · exact h.unharmed ⟨n, f, hle, hn, hr, hd⟩
  · -- The file refuses to the session what it refused before, whatever its transaction is.
    rw [← h.refusals] at hr
    exact hnext.unharmed ⟨n, f, Nat.not_lt.mp hn, hlt, hr, hd⟩

theorem Spared.congr (h : Spared s c t) (hc : u.connection = t.connection) (hp : u.path = t.path)
    (hd : u.disk = t.disk) : Spared s c u where
  toGoesOn := h.toGoesOn.congr hc hp hd
  counts := hd ▸ h.counts
  unharmed := hd ▸ h.unharmed

theorem Spared.connection_eq (h : Spared s c t) (hc : s.connection = some c) (hn : c.transaction = .none) :
    t.connection = s.connection := by
  obtain ⟨transaction, hnone, ht⟩ := h.connection
  obtain ⟨handle, _⟩ := c
  cases hn
  rw [ht, hc, hnone rfl]

/-- A lookup of rows, or a question to the database that does not tell of damage itself. -/
inductive Asks (s : Store) : Store → Prop where
  | fetched (q : Query) (kinds : List String) : Asks s ((fetchKinds q kinds).run s).2
  | asked {α : Type} (f : Database → Except Fault α) (hf : ∀ db e, f db = .error e → e.disturbs = false) :
    Asks s ((askDatabase f).run s).2

/-- A question that meets damage is not answered, and the file is opened again, once. -/
theorem askDatabase_reconnected (f : Database → Except Fault α) (hp : s.path = some path) (hs : s.IsDamaged) :
    ((askDatabase f).run s).1 = none ∧ ((askDatabase f).run s).2.Reconnected path s.afterStatement := by
  obtain ⟨c, hc, n, e, hle, hlt, hr, hd⟩ := hs
  obtain rfl : n = s.disk.statements := Nat.le_antisymm (Nat.le_of_lt_succ hlt) hle
  have hagain := reopen_reconnected (s := s.refused c e) ((s.refused_path c e).trans hp)
  rw [refused_disk] at hagain
  rw [askDatabase_refused hc hr, heal, if_pos hd]
  exact ⟨rfl, hagain⟩

theorem askDatabase_spared {f : Database → Except Fault α} (hf : ∀ db e, f db = .error e → e.disturbs = false)
    (hc : s.connection = some c) (hn : ¬ s.MeetsDamageBefore c (s.disk.statements + 1)) :
    Spared s c ((askDatabase f).run s).2 where
  toGoesOn := by
    rw [askDatabase_unharmed hf hc hn]
    exact perform_goesOn hc fun _ => readsOnly_query f
  counts := s.askDatabase_statements f
  unharmed := by rwa [askDatabase_unharmed hf hc hn, perform_statements, query_next]

theorem Asks.closed (h : Asks s t) (hc : s.connection = none) : t.connection = none ∧ t.path = s.path := by
  cases h with
  | asked f _ =>
      rw [askDatabase_closed hc]
      exact ⟨hc, rfl⟩
  | fetched q kinds =>
      rcases s.fetchKinds_cases q kinds with hs | hs | ⟨rows, _, hs⟩ <;> rw [hs]
      · exact ⟨hc, rfl⟩
      · rw [askDatabase_closed hc]
        exact ⟨hc, rfl⟩
      · rw [askDatabase_closed hc]
        exact ⟨hc, rfl⟩

/-- A lookup either spares the connection, or its statement met damage and the file was opened again. -/
theorem Asks.cases (h : Asks s t) (hc : s.connection = some c) (hp : s.path = some path) :
    Spared s c t ∨ s.IsDamaged ∧ t.Reconnected path s.afterStatement := by
  by_cases hn : s.MeetsDamageBefore c (s.disk.statements + 1)
  · have hs : s.IsDamaged := ⟨c, hc, hn⟩
    cases h with
    | asked f _ => exact .inr ⟨hs, (askDatabase_reconnected f hp hs).2⟩
    | fetched q kinds =>
        obtain ⟨hnone, hasked⟩ := askDatabase_reconnected q.run hp hs
        rcases s.fetchKinds_cases q kinds with he | he | ⟨rows, hrows, he⟩ <;> rw [he]
        · exact .inl (.refl hc)
        · exact .inr ⟨hs, hasked⟩
        · rw [hnone] at hrows
          cases hrows
  · cases h with
    | asked f hf => exact .inl (askDatabase_spared hf hc hn)
    | fetched q kinds =>
        have hasked := askDatabase_spared (f := q.run) (fun _ _ => Query.disturbs_of_run) hc hn
        rcases s.fetchKinds_cases q kinds with he | he | ⟨rows, _, he⟩ <;> rw [he]
        · exact .inl (.refl hc)
        · exact .inl hasked
        · exact .inl (hasked.congr rfl rfl rfl)

/-! ## Lookups -/

/-- On the way from `s` to `t` the session met damage. When that happened last it gave up its connection and tried once
to open the path again, on the disk `d`; what came of that is what the session is left with. -/
def Heals (path : String) (d : Disk) (s t : Store) : Prop :=
  ∃ u v, ReflTransGen Asks s u ∧ u.IsDamaged ∧ Asks u v ∧ u.afterStatement = d ∧ v.Reconnected path d ∧
    ReflTransGen Asks v t ∧ t.connection = v.connection ∧ t.path = some path

theorem Heals.isOpen_iff {d : Disk} (h : Heals path d s t) : t.isOpen ↔ ∃ opened, d.connect path = .ok opened := by
  obtain ⟨_, v, _, _, _, _, hv, _, hsame, _⟩ := h
  rw [← hv.isOpen_iff, isOpen, hsame, isOpen]

theorem asks_lookup {question : Question} (hq : question.IsLookup) (s : Store) :
    ReflTransGen Asks s (question.ask s) :=
  question.keeps_lookup (A := fun _ => True) trivial (fun q kinds _ _ ht => ht.tail (.fetched q kinds))
    (fun _ f hf _ ht => ht.tail (.asked f hf)) hq question.filtersBy_true .refl

theorem spared_or_heals (hc : s.connection = some c) (hp : s.path = some path) (h : ReflTransGen Asks s t) :
    Spared s c t ∨ ∃ d, Heals path d s t := by
  induction h with
  | refl => exact .inl (.refl hc)
  | @tail t t' hst hn ih =>
      rcases ih with hspared | ⟨d, u, v, hsu, hu, huv, hd, hv, hvt, hsame, hpath⟩
      · obtain ⟨transaction, _, ht⟩ := hspared.connection
        have hpt : t.path = some path := hspared.path.trans hp
        rcases hn.cases ht hpt with hnext | ⟨hdamaged, hagain⟩
        · refine .inl (hspared.trans fun c' hc' => ?_)
          rwa [← Option.some.inj (ht.symm.trans hc')]
        · exact .inr ⟨_, t, t', hst, hdamaged, hn, rfl, hagain, .refl, rfl, hagain.onPath⟩
      · right
        cases ht : t.connection with
        | none =>
            obtain ⟨hc', hp'⟩ := hn.closed ht
            exact ⟨d, u, v, hsu, hu, huv, hd, hv, hvt.tail hn, hc'.trans (ht.symm.trans hsame), hp'.trans hpath⟩
        | some c' =>
            rcases hn.cases ht hpath with hnext | ⟨hdamaged, hagain⟩
            · have hnone : c'.transaction = .none := by
                have hconnects := ht.symm.trans (hsame.trans hv.connects)
                obtain ⟨_, _, rfl⟩ := Option.map_eq_some_iff.mp hconnects.symm
                rfl
              exact ⟨d, u, v, hsu, hu, huv, hd, hv, hvt.tail hn, (hnext.connection_eq ht hnone).trans hsame,
                hnext.path.trans hpath⟩
            · exact ⟨_, t, t', hst, hdamaged, hn, rfl, hagain, .refl, rfl, hagain.onPath⟩

/-! ## Batches and other calls -/

/-- The session stays on the connection it has, and no transaction begins on it. -/
structure Holds (s : Store) (c : Connection) (t : Store) : Prop where
  connection : ∃ transaction, (c.transaction = .none → transaction = .none) ∧ t.connection = some { c with transaction }
  path : t.path = s.path

theorem Holds.refl (hc : s.connection = some c) : Holds s c s := ⟨⟨c.transaction, id, hc⟩, rfl⟩

theorem Holds.isOpen (h : Holds s c t) : t.isOpen := by
  obtain ⟨_, _, ht⟩ := h.connection
  exact Option.isSome_of_eq_some ht

theorem Holds.clearCache (h : Holds s c t) : Holds s c t.clearCache := ⟨h.connection, h.path⟩

theorem Moves.holds (h : Moves s c db t) (hc : s.connection = some c) : Holds s c t := by
  cases h with
  | nothing n => exact ⟨⟨c.transaction, id, hc⟩, rfl⟩
  | onDisk n _ => exact ⟨⟨c.transaction, id, hc⟩, rfl⟩
  | inTransaction n hne => exact ⟨⟨.working db, fun h => absurd h hne, rfl⟩, rfl⟩
  | takenBack n _ => exact ⟨⟨.none, fun _ => rfl, rfl⟩, rfl⟩

theorem mutate_holds {w : Work α} (hw : w.Orderly) (auto : Bool) (hc : s.connection = some c) :
    Holds s c (s.mutate auto w).2 := by
  obtain ⟨_, hm⟩ := mutate_moves hc auto hw
  exact hm.holds hc

/-- A call in a transaction leaves it open, unless a statement met a fault that ends it. -/
theorem mutate_endures {w : Work α} (hw : w.Candid) (auto : Bool) (hc : s.connection = some c) :
    StaysOpen s (s.mutate auto w).2 ∨
      s.MeetsBefore Fault.endsTransaction c (s.mutate auto w).2.disk.statements := by
  cases auto with
  | false =>
      rw [mutate_false hc]
      exact perform_endures hw
  | true =>
      left
      rcases s.mutate_cases true hw.toOrderly with ⟨_, n, hs⟩ | ⟨_, _, _, _, _, hno, _⟩ | ⟨_, _, ⟨_, hs⟩, _⟩
      · rw [hs]
        exact .of_eq rfl
      · cases hno
      · exact hs

/-- A file that can be written is damaged for every use of it. -/
theorem refusals_of_writable (hw : c.readOnly = false) {n : Nat} {f : Fault} (hr : s.refusals c .reads n = some f)
    (use : Use) : s.refusals c use n = some f := by
  cases use with
  | reads => exact hr
  | writes => simpa [refusals, hw] using hr

theorem perform_tells {w : Work α} (hw : w.Candid) (hro : c.readOnly = false)
    (h : s.MeetsDamageBefore c (s.perform c w).2.disk.statements) :
    ∃ f, (s.perform c w).1 = .error f ∧ f.isDamage := by
  obtain ⟨n, f, hle, hlt, hr, hd⟩ := h
  rw [perform_statements] at hlt
  refine ⟨f, ?_, hd⟩
  rw [perform_result]
  exact hw.prompt _ _ _ n f hle hlt (refusals_of_writable hro hr)

theorem commitOn_tells (hro : c.readOnly = false) (h : s.MeetsDamageBefore c (s.commitOn c).2.disk.statements) :
    ∃ f, (s.commitOn c).1 = .error f ∧ f.isDamage := by
  cases ht : c.transaction with
  | none =>
      simp only [commitOn, ht] at h
      exact absurd h (s.not_meetsDamageBefore_self c)
  | begun =>
      simp only [commitOn, ht] at h
      exact absurd h (s.not_meetsDamageBefore_self c)
  | working db =>
      obtain ⟨n, f, hle, hlt, hr, hd⟩ := h
      have hnext : (s.commitOn c).2.disk.statements = s.disk.statements + 1 := by
        simp only [commitOn, ht]
        split <;> rfl
      rw [hnext] at hlt
      obtain rfl : n = s.disk.statements := Nat.le_antisymm (Nat.le_of_lt_succ hlt) hle
      refine ⟨f, ?_, hd⟩
      simp only [commitOn, ht, refusals_of_writable hro hr .writes]
      split
      · cases ‹some f = some .locked›
        cases hd
      · cases ‹some f = some _›
        rfl
      · cases ‹some f = none›

/-- A transaction of its own whose work is done ends as its commit does. -/
theorem transact_committed {w : Work α} (ht : c.transaction = .none) {a : α}
    (hp : (s.withTransaction c .begun).perform (begunOn c) w = (.ok a, t)) :
    ∃ transaction, t.refusals { c with transaction } = s.refusals c ∧
      (s.transact c w).1 = (t.commitOn { c with transaction }).1.map (fun _ => a) ∧
      (s.transact c w).2.disk.statements = (t.commitOn { c with transaction }).2.disk.statements := by
  have hmoves := (s.withTransaction c .begun).perform_moves (begunOn c) w
  rw [hp] at hmoves
  have hsame : t.refusals c = s.refusals c := by
    cases hmoves with
    | nothing n => rfl
    | onDisk n hno => cases hno
    | inTransaction n _ => rfl
    | takenBack n _ => rfl
  obtain ⟨transaction, _, hc⟩ := (hmoves.holds rfl).connection
  refine ⟨transaction, hsame, ?_⟩
  rcases hm : t.commitOn { c with transaction } with ⟨e | _, u⟩
  · rw [transact_refused ht hp hc hm]
    exact ⟨rfl, rfl⟩
  · rw [transact_ok ht hp hc hm]
    exact ⟨rfl, rfl⟩

theorem transact_tells {w : Work α} (hw : w.Candid) (hro : c.readOnly = false)
    (h : s.MeetsDamageBefore c (s.transact c w).2.disk.statements) :
    ∃ f, (s.transact c w).1 = .error f ∧ f.isDamage := by
  by_cases ht : c.transaction = .none
  · have hperform := perform_tells (s := s.withTransaction c .begun) (c := begunOn c) hw hro
    rcases hp : (s.withTransaction c .begun).perform (begunOn c) w with ⟨e | a, t⟩ <;> rw [hp] at hperform
    · rw [transact_error ht hp] at h ⊢
      exact hperform h
    · obtain ⟨transaction, hsame, hresult, hstatements⟩ := transact_committed ht hp
      rw [hstatements] at h
      obtain ⟨n, f, hle, hlt, hr, hd⟩ := h
      -- The work met no damage, or else it would have failed.
      have hlater : t.disk.statements ≤ n := by
        by_contra hn
        obtain ⟨_, hf, _⟩ := hperform ⟨n, f, hle, Nat.not_le.mp hn, hr, hd⟩
        cases hf
      obtain ⟨f, hf, hd⟩ := commitOn_tells (s := t) (c := { c with transaction }) hro
        ⟨n, f, hlater, hlt, (congrFun₂ hsame .reads n).trans hr, hd⟩
      refine ⟨f, ?_, hd⟩
      rw [hresult, hf]
      rfl
  · rw [transact_of_begun ht] at h
    exact absurd h (s.not_meetsDamageBefore_self c)

/-- A write that meets damage tells of it. -/
theorem mutate_tells {w : Work α} (hw : w.Candid) (auto : Bool) (hc : s.connection = some c) (hro : c.readOnly = false)
    (h : s.MeetsDamageBefore c (s.mutate auto w).2.disk.statements) :
    ∃ f, (s.mutate auto w).1 = .error (.corruption f) := by
  have htells : ∀ {o : Except Fault α × Store}, (∃ f, o.1 = .error f ∧ f.isDamage) →
      ∃ f, o.1.mapError StoreError.ofMutation = .error (.corruption f) := by
    rintro ⟨r, t⟩ ⟨f, rfl, hd⟩
    refine ⟨f, ?_⟩
    show Except.error (StoreError.ofMutation f) = _
    rw [StoreError.ofMutation, if_pos hd]
  simp only [mutate, hc] at h ⊢
  cases auto with
  | false => exact htells (perform_tells hw hro h)
  | true => exact htells (transact_tells hw hro h)

theorem refusals_of_commitOn (h : (s.commitOn c).1 = .error e) (hd : e.isDamage) :
    s.refusals c .reads s.disk.statements = some e := by
  cases ht : c.transaction with
  | none =>
      simp only [commitOn, ht] at h
      cases h
      cases hd
  | begun =>
      simp only [commitOn, ht] at h
      cases h
  | working db =>
      simp only [commitOn, ht] at h
      split at h
      · cases h
        cases hd
      · cases h
        exact refusals_of_disturbs ‹_› (disturbs_of_isDamage hd)
      · cases h

/-- Work in a transaction of its own tells of damage only if the file is damaged. -/
theorem transact_meetsDamage {w : Work α} (hw : w.Candid) (h : (s.transact c w).1 = .error e) (hd : e.isDamage) :
    ∃ n f, s.refusals c .reads n = some f ∧ f.isDamage := by
  by_cases ht : c.transaction = .none
  · rcases hp : (s.withTransaction c .begun).perform (begunOn c) w with ⟨e' | a, t⟩
    · rw [transact_error ht hp] at h
      cases h
      obtain ⟨n, f, _, _, hr, hf⟩ := perform_meets (s := s.withTransaction c .begun) (c := begunOn c)
        disturbs_of_isDamage hw
        (congrArg Prod.fst hp) hd
      exact ⟨n, f, hr, hf⟩
    · -- The work is done, so it is the commit that was refused.
      obtain ⟨transaction, hsame, hresult, _⟩ := transact_committed ht hp
      rw [h] at hresult
      cases hcommit : (t.commitOn { c with transaction }).1 with
      | ok _ =>
          rw [hcommit] at hresult
          cases hresult
      | error e' =>
          rw [hcommit] at hresult
          cases hresult
          exact ⟨_, e, (congrFun₂ hsame .reads _).symm.trans (refusals_of_commitOn hcommit hd), hd⟩
  · rw [transact_of_begun ht] at h
    cases h
    cases hd

/-- Only a damaged file is told to be damaged. -/
theorem Undamaged.mutate_ne_corruption (h : s.Undamaged) {w : Work α} (hw : w.Candid) (auto : Bool) :
    (s.mutate auto w).1 ≠ .error (.corruption e) := by
  intro hm
  cases hc : s.connection with
  | none =>
      simp only [mutate, hc] at hm
      cases hm
  | some c =>
      simp only [mutate, hc] at hm
      rcases hwork : s.work c auto w with ⟨f | a, t⟩ <;> rw [hwork] at hm
      case ok => cases hm
      have hd : f.isDamage := by
        by_contra hd
        simp [Except.mapError, StoreError.ofMutation, hd] at hm
      have hmeets : ∃ n f, s.refusals c .reads n = some f ∧ f.isDamage := by
        cases auto with
        | false =>
            obtain ⟨n, f, _, _, hr, hf⟩ := perform_meets disturbs_of_isDamage hw (congrArg Prod.fst hwork) hd
            exact ⟨n, f, hr, hf⟩
        | true => exact transact_meetsDamage hw (congrArg Prod.fst hwork) hd
      obtain ⟨n, f, hr, hf⟩ := hmeets
      rw [h c n f hc hr] at hf
      cases hf

theorem storeTags_of_nonempty {tags : List Tag} (hne : tags.isEmpty = false) (now : Int) (auto : Bool) :
    (s.storeTags tags now auto).1 = (s.mutate auto (Batch.store tags now)).1 ∧
      ((∀ f, (s.mutate auto (Batch.store tags now)).1 ≠ .error (.corruption f)) →
        (s.storeTags tags now auto).2.disk = (s.mutate auto (Batch.store tags now)).2.disk) := by
  unfold storeTags
  rw [hne, if_neg Bool.false_ne_true]
  dsimp only
  split
  · exact ⟨rfl, fun hno => absurd ‹_› (hno _)⟩
  · exact ⟨rfl, fun _ => rfl⟩

theorem storeTags_tells {tags : List Tag} {now : Int} {auto : Bool} (hc : s.connection = some c)
    (hro : c.readOnly = false) (h : s.MeetsDamageBefore c (s.storeTags tags now auto).2.disk.statements) :
    ∃ f, (s.storeTags tags now auto).1 = .error (.corruption f) := by
  cases hne : tags.isEmpty with
  | true =>
      simp only [storeTags, hne, if_true] at h
      exact absurd h (s.not_meetsDamageBefore_self c)
  | false =>
      obtain ⟨hresult, hdisk⟩ := storeTags_of_nonempty (s := s) hne now auto
      rw [hresult]
      by_contra hno
      rw [hdisk fun f hf => hno ⟨f, hf⟩] at h
      exact hno (mutate_tells (Batch.candid_store tags now) auto hc hro h)

theorem storeTags_reconnected {tags : List Tag} {now : Int} {auto : Bool} (hc : s.connection = some c)
    (hp : s.path = some path) (h : (s.storeTags tags now auto).1 = .error (.corruption e)) :
    (s.storeTags tags now auto).2.Reconnected path (s.mutate auto (Batch.store tags now)).2.disk := by
  have hpath := (mutate_holds (Batch.orderly_store tags now) auto hc).path.trans hp
  unfold storeTags at h ⊢
  split at h
  · cases h
  rw [if_neg ‹_›]
  rcases hm : s.mutate auto (Batch.store tags now) with ⟨r, t⟩
  rw [hm] at h hpath
  dsimp only at h ⊢
  split at h
  · exact reopen_reconnected (s := t.clearCache) hpath
  · rename_i hno
    exact absurd h (hno e)

/-- A commit that fails leaves the session on its connection: in its transaction if it has to wait for the file, and
without one if anything else is wrong. -/
theorem commit_holds {error : StoreError} (hc : s.connection = some c) (h : s.commit.1 = .error error) :
    Holds s c s.commit.2 ∧ (error = .mutation .locked → StaysOpen s s.commit.2) ∧
      (error ≠ .mutation .locked → s.commit.2.Idle) := by
  unfold commit at h ⊢
  simp only [hc] at h ⊢
  cases ht : c.transaction with
  | none =>
      have hidle : s.Idle := fun c' hc' => Option.some.inj (hc.symm.trans hc') ▸ ht
      simp only [commitOn, ht]
      exact ⟨.refl hc, fun _ => .of_eq rfl, fun _ => hidle⟩
  | begun =>
      simp only [commitOn, ht] at h
      cases h
  | working db =>
      rcases s.commitOn_working ht with ⟨n, hs⟩ | ⟨e, n, hne, hs⟩ | ⟨n, hs⟩ <;> simp only [hs] at h ⊢
      · cases h
        exact ⟨⟨(Holds.refl hc).connection, rfl⟩, fun _ => .of_eq rfl, fun hno => absurd rfl hno⟩
      · cases h
        refine ⟨⟨⟨.none, fun _ => rfl, rfl⟩, rfl⟩, fun hlocked => ?_, fun _ => idle_withTransaction _ c⟩
        unfold StoreError.ofMutation at hlocked
        split at hlocked <;> cases hlocked
        exact absurd rfl hne
      · cases h

/-- To begin takes no statement. -/
theorem begin_ne_corruption (s : Store) (e : Fault) : s.begin.1 ≠ .error (.corruption e) := by
  unfold begin
  split
  · nofun
  · split <;> nofun

end Store

namespace Step

/-- Calls with statements after which the session has the connection it had, also when the file is damaged. -/
def Endures : Step → Prop
  | deleteByFile _ _ | clear | insertFileEntry _ _ | updateFileEntry _ _ | deleteFileEntry _
  | storeMacros _ | storeSimpleMacros _ _ => True
  | ask question => ¬ question.IsLookup
  | _ => False

/-- Of those, the calls that forget the kept answers. -/
def forgets : Step → Bool
  | deleteByFile _ _ | clear => true
  | _ => false

open Store

theorem Endures.holds {s : Store} {c : Connection} {step : Step} (h : step.Endures) (hc : s.connection = some c) :
    s.Holds c (step.act s) ∧ (step.act s).cache = (if step.forgets then {} else s.cache) ∧
      (StaysOpen s (step.act s) ∨ s.MeetsBefore Fault.endsTransaction c (step.act s).disk.statements) := by
  -- A write makes one move and so does a read; they differ only in what they are made of.
  have hworks : ∀ {β : Type} {w : Work β}, w.Candid → ∀ auto, s.Holds c (s.mutate auto w).2 ∧
      (s.mutate auto w).2.cache = s.cache ∧ (StaysOpen s (s.mutate auto w).2 ∨
        s.MeetsBefore Fault.endsTransaction c (s.mutate auto w).2.disk.statements) :=
    fun hw auto => ⟨mutate_holds hw.toOrderly auto hc, s.mutate_cache auto hw.toOrderly, mutate_endures hw auto hc⟩
  have hcounts : ∀ {β : Type} {w : Work β}, w.Candid → s.Holds c (s.perform c w).2 ∧
      (s.perform c w).2.cache = s.cache ∧ (StaysOpen s (s.perform c w).2 ∨
        s.MeetsBefore Fault.endsTransaction c (s.perform c w).2.disk.statements) :=
    fun hw => ⟨(s.perform_moves c _).holds hc, (s.perform_moves c _).cache, perform_endures hw⟩
  cases step with
  | deleteByFile file auto =>
      obtain ⟨hholds, _, hopen⟩ := hworks (Batch.candid_removeFile file) auto
      exact ⟨hholds.clearCache, rfl, hopen⟩
  | clear =>
      obtain ⟨hholds, _, hopen⟩ := hworks Batch.candid_clear false
      exact ⟨hholds.clearCache, rfl, hopen⟩
  | insertFileEntry file time => exact hworks .change false
  | updateFileEntry file time => exact hworks .change false
  | deleteFileEntry file => exact hworks .change false
  | storeMacros macros => exact hworks (Batch.candid_storeMacros macros) true
  | storeSimpleMacros file names => exact hworks (Batch.candid_storeSimpleMacros file names) true
  | ask question =>
      cases question with
      | statistics =>
          simpa only [act, Question.ask, statistics, hc, forgets, Bool.false_eq_true, if_false] using
            hcounts Statistics.candid_read
      | schemaVersion =>
          have hasked := hcounts (.ask : (Work.ask (·.versions.head?)).Candid)
          simpa only [act, Question.ask, schemaVersion, hc, forgets, Bool.false_eq_true, if_false] using hasked
      | _ => exact absurd trivial h
  | _ => exact h.elim

end Step

namespace Store

variable {s₀ s : Store} {c : Connection}

/-- One store comes after the other by a step, and other processes do to the disk what they like. -/
def Leads (s t : Store) : Prop := ∃ step : Step, step.act s = t

theorem onPath_of_leads (h₀ : s₀.IsNew) (h : ReflTransGen Leads s₀ s) : s.OnPath := by
  induction h with
  | refl => exact onPath_of_none h₀.connection
  | tail _ hn ih =>
      obtain ⟨step, rfl⟩ := hn
      exact ih.act step

/-- A lookup that meets damage, and a batch that is refused for it, as it is when it meets damage on a file that it can
write, gives up its connection and tries once to open the path of the session again; no answer from before is kept, and
that attempt alone decides whether the session is open. All other calls stay on the connection they have, also when they
meet damage, and only deletions forget what was kept. They leave a transaction open unless a statement met a fault that
ends it; a commit that is refused leaves it open only where it has to wait for the file. -/
theorem damage_healed_or_endured (h₀ : s₀.IsNew) (h : ReflTransGen Leads s₀ s) (hc : s.connection = some c) :
    ∃ path, s.path = some path ∧
      (∀ question : Question, question.IsLookup → s.MeetsDamageBefore c (question.ask s).disk.statements →
        ∃ d, Heals path d s (question.ask s) ∧ ((question.ask s).isOpen ↔ ∃ opened, d.connect path = .ok opened)) ∧
      (∀ tags now auto, c.readOnly = false →
        s.MeetsDamageBefore c (s.storeTags tags now auto).2.disk.statements →
        ∃ f, (s.storeTags tags now auto).1 = .error (.corruption f)) ∧
      (∀ tags now auto f, (s.storeTags tags now auto).1 = .error (.corruption f) →
        let d := (s.mutate auto (Batch.store tags now)).2.disk
        let t := (s.storeTags tags now auto).2
        t.Reconnected path d ∧ (t.isOpen ↔ ∃ opened, d.connect path = .ok opened)) ∧
      (∀ step : Step, step.Endures →
        s.Holds c (step.act s) ∧ (step.act s).cache = (if step.forgets then {} else s.cache) ∧
        (StaysOpen s (step.act s) ∨ s.MeetsBefore Fault.endsTransaction c (step.act s).disk.statements)) ∧
      (∀ error, s.commit.1 = .error error → s.Holds c s.commit.2 ∧ s.commit.2.cache = s.cache ∧
        (error = .mutation .locked → StaysOpen s s.commit.2) ∧ (error ≠ .mutation .locked → s.commit.2.Idle)) ∧
      ∀ f, s.begin.1 ≠ .error (.corruption f) := by
  obtain ⟨path, hp⟩ := (onPath_of_leads h₀ h).exists_path hc
  refine ⟨path, hp, fun question hq hmeets => ?_, fun tags now auto hro hmeets => storeTags_tells hc hro hmeets,
    fun tags now auto f hr => ?_, fun step hstep => hstep.holds hc,
    fun error he => ⟨(commit_holds hc he).1, s.commit_cache, (commit_holds hc he).2⟩, s.begin_ne_corruption⟩
  · rcases spared_or_heals hc hp (asks_lookup hq s) with hspared | ⟨d, hheals⟩
    · exact absurd hmeets hspared.unharmed
    · exact ⟨d, hheals, hheals.isOpen_iff⟩
  · have hagain := storeTags_reconnected hc hp hr
    exact ⟨hagain, hagain.isOpen_iff⟩

/-- When its file is overwritten, a session loses its connection by a lookup or a batch, but not by a deletion that
meets the same damage. -/
theorem damage_healed_or_endured_overwritten :
    let tag : Tag := { name := "f", file := "a.c", kind := "function", path := "f", scope := globalScope }
    let stored := Step.act (Step.act {} (.openPath "tags.db")) (.storeTags [tag] 0 true)
    let s := Step.act stored (.outside (stored.disk.write "tags.db" "no database"))
    let question := Question.tagsByFile "a.c"
    (∃ d, Heals "tags.db" d s (question.ask s)) ∧ (question.ask s).isOpen = false ∧
    (s.storeTags [tag] 0 true).1 = .error (.corruption .notDatabase) ∧ (s.storeTags [tag] 0 true).2.isOpen = false ∧
    (s.deleteByFile "a.c" true).1 = .error (.corruption .notDatabase) ∧ (s.deleteByFile "a.c" true).2.isOpen := by
  intro tag stored s question
  have hs : ReflTransGen Leads {} s := .tail (.tail (.single ⟨.openPath "tags.db", rfl⟩) ⟨.storeTags [tag] 0 true, rfl⟩)
    ⟨.outside (stored.disk.write "tags.db" "no database"), rfl⟩
  have hmeets : s.connection.any fun c => s.refusals c .reads s.disk.statements = some .notDatabase := by
    decide +kernel
  obtain ⟨c, hc, hr⟩ := (Option.any_eq_true _ _).mp hmeets
  obtain ⟨path, hp, hlookups, _, _, hendures, _⟩ := damage_healed_or_endured ⟨rfl, rfl, rfl⟩ hs hc
  obtain rfl : "tags.db" = path := Option.some.inj ((show s.path = some "tags.db" by decide +kernel).symm.trans hp)
  have hbatch : (s.storeTags [tag] 0 true).1 = .error (.corruption .notDatabase) := by decide +kernel
  have hcounts : s.disk.statements < (question.ask s).disk.statements := by decide +kernel
  obtain ⟨d, hheals, _⟩ := hlookups question trivial
    ⟨s.disk.statements, .notDatabase, Nat.le_refl _, hcounts, of_decide_eq_true hr, rfl⟩
  exact ⟨⟨d, hheals⟩, by decide +kernel, hbatch, by decide +kernel, by decide +kernel,
    (hendures (.deleteByFile "a.c" true) trivial).1.isOpen⟩

end Store
end TagIndex
