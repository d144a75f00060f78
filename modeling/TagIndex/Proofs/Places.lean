import TagIndex.Disk
import TagIndex.Proofs.Schema

/-!
# Tables at places

What is put at one place leaves the others alone. Opening a file leaves its tables as they are; only a
scratch place starts anew.
-/

namespace TagIndex

namespace Database

/-- Tables that never held a row. -/
def IsBlank (db : Database) : Prop := SameTables {} db

end Database

namespace Disk

variable {d d' : Disk} {p q : Place} {db : Database} {h : Handle} {text : String}

/-- The tables of the database at a place; they are blank where there is no database. -/
def tables (d : Disk) (p : Place) : Database := (d.database? p).getD {}

theorem content?_put (d : Disk) (p q : Place) (c : Content) :
    (d.put p c).content? q = if q = p then some c else d.content? q := by
  have hmap : ∀ l : List (Place × Content),
      (l.map fun f => if f.1 = p then (p, c) else f).find? (·.1 = q) =
        if q = p then (if l.any (·.1 = p) then some (p, c) else none) else l.find? (·.1 = q) := by
    intro l
    induction l with
    | nil => simp
    | cons f l ih =>
        rw [List.map_cons, List.find?_cons, ih]
        by_cases hf : f.1 = p
        · by_cases hq : q = p
          · simp [hf, hq]
          · have hpq : ¬ p = q := fun he => hq he.symm
            simp [hf, hq, hpq]
        · by_cases hq : q = p
          · simp only [hf, hq, if_true, if_false, decide_false, List.any_cons, Bool.false_or]
          · simp [hf, hq, List.find?_cons]
  unfold content? put
  by_cases ha : d.files.any (·.1 = p)
  · simp only [ha, if_true, hmap]
    split <;> rfl
  · have hnone : d.files.find? (·.1 = p) = none := by
      rw [List.find?_eq_none]
      exact fun f hf he => ha (List.any_eq_true.mpr ⟨f, hf, he⟩)
    simp only [ha, Bool.false_eq_true, if_false, List.find?_append]
    by_cases hq : q = p
    · simp [hq, hnone]
    · have hpq : ¬ p = q := fun he => hq he.symm
      simp [hq, hpq]

theorem tables_put (d : Disk) (p q : Place) (db : Database) :
    (d.put p (.database db)).tables q = if q = p then db else d.tables q := by
  unfold tables database?
  rw [content?_put]
  by_cases hq : q = p
  · rw [if_pos hq, if_pos hq]
    rfl
  · rw [if_neg hq, if_neg hq]

@[simp] theorem tables_put_self (d : Disk) (p : Place) (db : Database) :
    (d.put p (.database db)).tables p = db := by
  rw [tables_put, if_pos rfl]

theorem tables_put_of_ne (hq : q ≠ p) : (d.put p (.database db)).tables q = d.tables q := by
  rw [tables_put, if_neg hq]

/-- The tables are everywhere the same. -/
def Leaves (d d' : Disk) : Prop := ∀ p, (d.tables p).SameTables (d'.tables p)

/-- The tables are the same, but a scratch place can have been opened anew. -/
def Opens (d d' : Disk) : Prop :=
  ∀ p, (d.tables p).SameTables (d'.tables p) ∨ p = .scratch ∧ (d'.tables p).IsBlank

theorem Leaves.opens (h : d.Leaves d') : d.Opens d' := fun p => .inl (h p)

theorem Opens.trans {d'' : Disk} (h : d.Opens d') (h' : d'.Opens d'') : d.Opens d'' := by
  intro p
  rcases h' p with hsame' | hblank
  · rcases h p with hsame | ⟨hp, hblank⟩
    · exact .inl (hsame.trans hsame')
    · exact .inr ⟨hp, Database.SameTables.trans hblank hsame'⟩
  · exact .inr hblank

theorem Leaves.refl (d : Disk) : d.Leaves d := fun _ => .refl _

theorem leaves_put (hp : (d.tables p).SameTables db) : d.Leaves (d.put p (.database db)) := by
  intro q
  rw [tables_put]
  split
  · rename_i he
    rwa [he]
  · exact .refl _

theorem prepare_eq (d : Disk) (p : Place) (db : Database) : ∃ n db', d.statements ≤ n ∧ db.SameTables db' ∧
    d.prepare p db = ({ place := p }, { d with statements := n }.put p (.database db')) :=
  ⟨_, _, Schema.ensure_forward _ _ _, Schema.ensure_sameTables _ _ _, rfl⟩

theorem leaves_prepare (hp : (d.tables p).SameTables db) : d.Leaves (d.prepare p db).2 := by
  obtain ⟨n, db', _, hsame, heq⟩ := d.prepare_eq p db
  rw [heq]
  exact leaves_put (d := { d with statements := n }) (hp.trans hsame)

/-- A scratch place can be opened anew. -/
theorem opens_scratch (hdb : db.IsBlank) : d.Opens (d.put .scratch (.database db)) := by
  intro q
  rw [tables_put]
  split
  · exact .inr ⟨‹_›, hdb⟩
  · exact .inl (.refl _)

/-! ## Connecting -/

/-- What a connection makes of the disk: to read, it finds a database and leaves all as it is, and to write, it takes
the tables of its place through the schema. A scratch place has no tables before. -/
inductive Connects (d : Disk) : Handle → Disk → Prop where
  | reads {p : Place} (hp : (d.database? p).isSome) : Connects d { place := p, readOnly := true } d
  | prepares (p : Place) : Connects d { place := p } (d.prepare p (d.tables p)).2
  | readsScratch : Connects d { place := .scratch, readOnly := true } (d.put .scratch (.database {}))
  | preparesScratch : Connects d { place := .scratch } (d.prepare .scratch {}).2

theorem connectFile_cases {access : Access} {parts : List String} (hc : d.connectFile access parts = .ok (h, d')) :
    h.place = .inside parts ∧ h.readOnly = decide (access = .reading) ∧ d.Connects h d' := by
  dsimp only [connectFile] at hc
  split at hc
  · cases hc
  split at hc
  · cases hc
  split at hc
  · cases hc
  split at hc
  · rename_i hfile
    split at hc
    · rename_i haccess
      cases hc
      have hnone : d.content? (.inside parts) = none := by
        simpa [isFile] using hfile
      have htables : d.tables (.inside parts) = {} := by
        simp [tables, database?, hnone]
      exact ⟨rfl, by simp [haccess], htables ▸ .prepares (.inside parts)⟩
    · cases hc
  split at hc
  · cases hc
  · rename_i db hdb
    have htables : d.tables (.inside parts) = db := by
      simp [tables, hdb]
    split at hc
    · cases hc
      exact ⟨rfl, (decide_eq_true ‹_›).symm, .reads (Option.isSome_of_eq_some hdb)⟩
    · cases hc
      exact ⟨rfl, (decide_eq_false ‹_›).symm, htables ▸ .prepares (.inside parts)⟩

/-- A connection is to the place of the address, as its access allows. -/
theorem connect_cases (hc : d.connect text = .ok (h, d')) :
    ∃ a, Address.ofText text = .ok a ∧ d.locate a = some h.place ∧ h.readOnly = decide (a.access = .reading) ∧
      d.Connects h d' := by
  unfold connect at hc
  split at hc
  · cases hc
  · cases hc
  rename_i a _ ha
  split at hc
  · cases hc
  · rename_i hplace
    split at hc
    · cases hc
      exact ⟨a, ha, hplace, (decide_eq_true ‹_›).symm, .readsScratch⟩
    · cases hc
      exact ⟨a, ha, hplace, (decide_eq_false ‹_›).symm, .preparesScratch⟩
  · rename_i parts hplace
    obtain ⟨hp, hread, hconnects⟩ := connectFile_cases hc
    exact ⟨a, ha, hplace.trans (congrArg some hp.symm), hread, hconnects⟩

theorem connect_opens (hc : d.connect text = .ok (h, d')) : d.Opens d' := by
  obtain ⟨_, _, _, _, hconnects⟩ := connect_cases hc
  cases hconnects with
  | reads _ => exact (Leaves.refl d).opens
  | prepares p => exact (leaves_prepare (.refl _)).opens
  | readsScratch => exact opens_scratch (.refl _)
  | preparesScratch =>
      obtain ⟨n, db', _, hsame, heq⟩ := d.prepare_eq .scratch {}
      rw [heq]
      exact opens_scratch (d := { d with statements := n }) hsame

end Disk
end TagIndex
