import TagIndex.Proofs.Batch

/-!
# Putting a tag

A tag that is put holds its key afterwards, alone, under the id of the row that held it before, or
else under the remembered id, or else under a new one.
-/

namespace TagIndex

open Work

variable {db : Database} {t : Tag} {reuse : Option Nat}

namespace Database

/-- The database with the tag in the projection of the global scope, if that is its scope. -/
def noteGlobal (db : Database) (t : Tag) (id : Nat) : Database :=
  if t.isGlobal then db.addGlobal t.name id else db

/-- The id under which a tag is put. -/
def putId (db : Database) (t : Tag) (reuse : Option Nat) : Nat :=
  (db.idOf? t.key).getD (reuse.getD (db.lastTagId + 1))

def put (db : Database) (t : Tag) (reuse : Option Nat) : Database :=
  match db.idOf? t.key with
  | some id => ((db.overwriteTag id t).dropGlobal id).noteGlobal t id
  | none =>
    let id := db.putId t reuse
    noteGlobal
      { db with tags := Row.insert ⟨id, t.settled⟩ db.tags, lastTagId := max db.lastTagId id } t id

/-- No row has the id. -/
def Free (db : Database) (id : Nat) : Prop := ∀ r ∈ db.tags, r.id ≠ id

@[simp] theorem noteGlobal_tags (db : Database) (t : Tag) (id : Nat) :
    (db.noteGlobal t id).tags = db.tags := by
  unfold noteGlobal; split <;> rfl

@[simp] theorem noteGlobal_lastTagId (db : Database) (t : Tag) (id : Nat) :
    (db.noteGlobal t id).lastTagId = db.lastTagId := by
  unfold noteGlobal; split <;> rfl

@[simp] theorem noteGlobal_files (db : Database) (t : Tag) (id : Nat) :
    (db.noteGlobal t id).files = db.files := by
  unfold noteGlobal; split <;> rfl

@[simp] theorem noteGlobal_macros (db : Database) (t : Tag) (id : Nat) :
    (db.noteGlobal t id).macros = db.macros := by
  unfold noteGlobal; split <;> rfl

theorem noteGlobal_globalTable (db : Database) (t : Tag) (id : Nat) : (db.noteGlobal t id).globalTable =
    if t.isGlobal then db.globalTable.add ⟨t.name, id⟩ else db.globalTable := by
  unfold noteGlobal; split <;> rfl

theorem noteGlobal_globals (db : Database) (t : Tag) (id : Nat) :
    (db.noteGlobal t id).globals = db.globals ++ if t.isGlobal then [⟨t.name, id⟩] else [] := by
  unfold noteGlobal
  split
  · exact globals_addGlobal _ _ _
  · exact (List.append_nil _).symm

/-- Soundness is a matter of the tags and their counter. -/
theorem Sound.congr {db' : Database} (hs : db.Sound) (ht : db'.tags = db.tags)
    (hl : db'.lastTagId = db.lastTagId) : db'.Sound where
  ascending := ht ▸ hs.ascending
  bounded r hr := hl ▸ hs.bounded r (ht ▸ hr)
  distinct := ht ▸ hs.distinct
  accepted r hr := hs.accepted r (ht ▸ hr)

theorem putId_cases (db : Database) (t : Tag) (reuse : Option Nat) :
    (∃ r ∈ db.tags, r.tag.key = t.key ∧ r.id = db.putId t reuse) ∨
    (∀ r ∈ db.tags, r.tag.key ≠ t.key) ∧
      (reuse = some (db.putId t reuse) ∨ reuse = none ∧ db.putId t reuse = db.lastTagId + 1) := by
  unfold putId
  cases hk : db.idOf? t.key with
  | some id =>
      obtain ⟨r, hr, hrk, rfl⟩ := exists_of_idOf? hk
      exact .inl ⟨r, hr, hrk, rfl⟩
  | none =>
      refine .inr ⟨idOf?_eq_none.mp hk, ?_⟩
      cases reuse with
      | some id => exact .inl rfl
      | none => exact .inr ⟨rfl, rfl⟩

theorem mem_put (hs : db.Sound) {s : Row} :
    s ∈ (db.put t reuse).tags ↔
      s = ⟨db.putId t reuse, t.settled⟩ ∨ s ∈ db.tags ∧ s.tag.key ≠ t.key := by
  unfold put putId
  cases hk : db.idOf? t.key with
  | some id =>
      obtain ⟨r, hr, hrk, rfl⟩ := exists_of_idOf? hk
      simpa [dropGlobal] using mem_overwriteTag hs hr hrk
  | none =>
      have hn := idOf?_eq_none.mp hk
      simp only [noteGlobal_tags, Row.mem_insert, Option.getD_none]
      exact or_congr_right ⟨fun h => ⟨h, hn s h⟩, And.left⟩

theorem put_lastTagId (hs : db.Sound) :
    (db.put t reuse).lastTagId = max db.lastTagId (db.putId t reuse) := by
  unfold put putId
  cases hk : db.idOf? t.key with
  | some id =>
      obtain ⟨r, hr, hrk, rfl⟩ := exists_of_idOf? hk
      have hb := hs.bounded r hr
      simpa [dropGlobal, overwriteTag] using (Nat.max_eq_left hb).symm
  | none => simp

theorem put_globalTable (db : Database) (t : Tag) (reuse : Option Nat) :
    (db.put t reuse).globalTable =
      let kept :=
        if (db.idOf? t.key).isSome then db.globalTable.keep (·.tagId ≠ db.putId t reuse) else db.globalTable
      if t.isGlobal then kept.add ⟨t.name, db.putId t reuse⟩ else kept := by
  unfold put putId
  cases db.idOf? t.key with
  | some id => exact noteGlobal_globalTable _ _ _
  | none => exact noteGlobal_globalTable _ _ _

theorem put_globals (db : Database) (t : Tag) (reuse : Option Nat) :
    (db.put t reuse).globals =
      (if (db.idOf? t.key).isSome then db.globals.filter (·.tagId ≠ db.putId t reuse) else db.globals) ++
        if t.isGlobal then [⟨t.name, db.putId t reuse⟩] else [] := by
  unfold put putId
  cases db.idOf? t.key with
  | some id => exact (noteGlobal_globals _ _ _).trans (congrArg (· ++ _) (globals_dropGlobal _ _))
  | none => exact noteGlobal_globals _ _ _

theorem put_free (hs : db.Sound) (hf : ∀ id, reuse = some id → db.Free id)
    (hk : ∀ r ∈ db.tags, r.tag.key ≠ t.key) : db.Free (db.putId t reuse) := by
  rcases db.putId_cases t reuse with ⟨r, hr, hrk, _⟩ | ⟨_, hi | ⟨_, hi⟩⟩
  · exact absurd hrk (hk r hr)
  · exact hf _ hi
  · intro r hr
    have := hs.bounded r hr
    omega

/-- Of all rows only the one that holds a tag's key has the id under which the tag is put. -/
theorem id_eq_putId_iff (hs : db.Sound) (hf : ∀ id, reuse = some id → db.Free id) {r : Row}
    (hr : r ∈ db.tags) : r.id = db.putId t reuse ↔ r.tag.key = t.key := by
  rcases db.putId_cases t reuse with ⟨o, ho, hk, hi⟩ | ⟨hno, _⟩
  · rw [← hi, ← hk]
    exact ⟨fun he => by rw [hs.eq_of_id hr ho he], fun he => by rw [hs.eq_of_key hr ho he]⟩
  · exact ⟨fun he => absurd he (put_free hs hf hno r hr), fun he => absurd he (hno r hr)⟩

theorem Sound.put (hs : db.Sound) (ht : t.isAccepted) (hf : ∀ id, reuse = some id → db.Free id) :
    (db.put t reuse).Sound := by
  unfold Database.put
  cases hk : db.idOf? t.key with
  | some id =>
      obtain ⟨r, hr, hrk, rfl⟩ := exists_of_idOf? hk
      exact (hs.overwriteTag hr hrk).congr (by simp [dropGlobal]) (by simp [dropGlobal])
  | none =>
      have hn := idOf?_eq_none.mp hk
      exact (hs.insert ht hn (put_free hs hf hn)).congr (by simp) (by simp)

end Database

namespace Batch

theorem noteGlobal_meets {P E : Database → Prop} {id : Nat} (he : ∀ d, P d → E d) :
    Meets P (if t.isGlobal then Work.change (·.addGlobal t.name id) else pure ())
      (fun _ d => ∃ d₀, P d₀ ∧ d = d₀.noteGlobal t id) E := by
  split
  · rename_i hg
    exact .change (fun d hp => ⟨d, hp, by simp only [Database.noteGlobal, hg, if_true]⟩) he
  · rename_i hg
    exact .pure fun d hp => ⟨d, hp, by simp [Database.noteGlobal, hg]⟩

/-- If a statement fails, those before it were done. -/
theorem putTag_meets {E : Database → Prop} (h : E db)
    (hover : ∀ id, db.idOf? t.key = some id →
      E (db.overwriteTag id t) ∧ E ((db.overwriteTag id t).dropGlobal id))
    (hadd : ∀ id, db.idOf? t.key = none → id = db.putId t reuse →
      E { db with tags := Row.insert ⟨id, t.settled⟩ db.tags, lastTagId := max db.lastTagId id }) :
    Meets (· = db) (putTag t reuse) (fun _ db' => db' = db.put t reuse) E := by
  refine Meets.bind (Q := fun found d => found = db.idOf? t.key ∧ d = db)
    (.ask (by rintro _ rfl; exact ⟨rfl, rfl⟩) (by rintro _ rfl; exact h)) fun found => ?_
  cases found with
  | some id =>
      -- The row is overwritten, its entry in the projection goes, and a new one comes if the tag is global.
      refine Meets.bind (Q := fun _ d => db.idOf? t.key = some id ∧ d = db.overwriteTag id t)
        (.change ?_ ?_) fun _ => ?_
      · rintro _ ⟨hk, rfl⟩
        exact ⟨hk.symm, rfl⟩
      · rintro _ ⟨_, rfl⟩
        exact h
      refine Meets.bind
        (Q := fun _ d => db.idOf? t.key = some id ∧ d = (db.overwriteTag id t).dropGlobal id)
        (.change ?_ ?_) fun _ => ?_
      · rintro _ ⟨hk, rfl⟩
        exact ⟨hk, rfl⟩
      · rintro _ ⟨hk, rfl⟩
        exact (hover id hk).1
      refine (noteGlobal_meets ?_).imp (fun _ h => h) ?_ fun _ h => h
      · rintro _ ⟨hk, rfl⟩
        exact (hover id hk).2
      · rintro _ _ ⟨_, ⟨hk, rfl⟩, rfl⟩
        simp only [Database.put, hk]
  | none =>
      refine Meets.bind (Q := fun id d => db.idOf? t.key = none ∧ id = db.putId t reuse ∧
        d = { db with
          tags := Row.insert ⟨id, t.settled⟩ db.tags, lastTagId := max db.lastTagId id })
        (.statement ?_ ?_) fun id => ?_
      · rintro _ id d ⟨hk, rfl⟩ h
        obtain ⟨hi, rfl⟩ := Database.addTag_ok h
        exact ⟨hk.symm, by simp [Database.putId, ← hk, hi], rfl⟩
      · rintro _ ⟨_, rfl⟩
        exact h
      refine (noteGlobal_meets ?_).imp (fun _ h => h) ?_ fun _ h => h
      · rintro _ ⟨hk, hi, rfl⟩
        exact hadd id hk hi
      · rintro _ _ ⟨_, ⟨hk, rfl, rfl⟩, rfl⟩
        simp only [Database.put, hk]

theorem putTag_sound (hs : db.Sound) (ht : t.isAccepted) (hf : ∀ id, reuse = some id → db.Free id) :
    Meets (· = db) (putTag t reuse) (fun _ db' => db' = db.put t reuse) Database.Sound := by
  refine putTag_meets hs (fun id hk => ?_) fun id hk hi => ?_
  · obtain ⟨r, hr, hrk, rfl⟩ := Database.exists_of_idOf? hk
    have hover := hs.overwriteTag hr hrk
    exact ⟨hover, hover.congr rfl rfl⟩
  · have hn := Database.idOf?_eq_none.mp hk
    exact hs.insert ht hn (hi ▸ Database.put_free hs hf hn)

end Batch
end TagIndex
