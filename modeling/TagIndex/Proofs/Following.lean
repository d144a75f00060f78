import TagIndex.Proofs.Batch

/-!
# Work that follows other work

Where one batch of tags succeeds, the same batch succeeds on a database with the same tags, unless it is
refused more there. It then answers the same, and the tags are the same again; what time it is stored at
does not matter.
-/

namespace TagIndex

/-- Whatever one statement could do before, every statement can do now. -/
def Refusals.Milder (ρ ρ' : Refusals) : Prop := ∀ use n, ρ use n = none → ∀ m, ρ' use m = none

namespace Work

variable {α β : Type} {R : Database → Database → Prop} {w w' : Work α} {f f' : α → Work β} {use : Use}

/-- From related databases, `w'` ends as `w` does when that succeeds, on related databases. It has to
succeed, too, or be refused less. -/
def Follows (R : Database → Database → Prop) (w w' : Work α) : Prop :=
  ∀ ρ ρ' n n' db db' a, R db db' → (w ρ n db).result = .ok a →
    ρ.Milder ρ' ∨ (∃ b, (w' ρ' n' db').result = .ok b) →
    (w' ρ' n' db').result = .ok a ∧ R (w ρ n db).db (w' ρ' n' db').db

theorem Follows.pure (a : α) : Follows R (pure a) (pure a) := by
  intro ρ ρ' n n' db db' b hR hb _
  exact ⟨hb, hR⟩

theorem Follows.bind (hw : Follows R w w') (hf : ∀ a, Follows R (f a) (f' a)) :
    Follows R (w >>= f) (w' >>= f') := by
  intro ρ ρ' n n' db db' b hR hok hmild
  have hfirst := hw ρ ρ' n n' db db'
  rcases ho : w ρ n db with ⟨_ | a, m, d⟩ <;> rw [ho] at hfirst
  · rw [bind_error ho] at hok
    cases hok
  rw [bind_ok ho] at hok ⊢
  rcases ho' : w' ρ' n' db' with ⟨e | a', m', d'⟩ <;> rw [ho'] at hfirst
  · -- If `w'` failed here, the whole could not succeed, so it is refused less, and then it does not fail.
    rw [bind_error ho'] at hmild
    obtain ⟨he, _⟩ := hfirst a hR rfl (hmild.imp_right fun ⟨_, he⟩ => by cases he)
    cases he
  · rw [bind_ok ho'] at hmild ⊢
    obtain ⟨ha, hR'⟩ := hfirst a hR rfl (.inr ⟨a', rfl⟩)
    cases ha
    exact hf a ρ ρ' m m' d d' b hR' hok hmild

theorem Follows.statement {g g' : Database → Except Fault (α × Database)}
    (h : ∀ db db' a d, R db db' → g db = .ok (a, d) → ∃ d', g' db' = .ok (a, d') ∧ R d d') :
    Follows R (statement use g) (statement use g') := by
  intro ρ ρ' n n' db db' a hR hok hmild
  unfold Work.statement at *
  cases hρ : ρ use n with
  | some e =>
      simp only [hρ] at hok
      cases hok
  | none =>
      simp only [hρ] at hok ⊢
      have hρ' : ρ' use n' = none := by
        rcases hmild with hmild | ⟨b, hb⟩
        · exact hmild use n hρ n'
        · cases hr : ρ' use n' with
          | none => rfl
          | some e => simp only [hr] at hb; cases hb
      cases hg : g db with
      | error e => rw [hg] at hok; cases hok
      | ok r =>
          obtain ⟨d', hg', hR'⟩ := h db db' r.1 r.2 hR hg
          rw [hg] at hok
          cases hok
          simp only [hρ', hg']
          exact ⟨trivial, hR'⟩

theorem Follows.change {g g' : Database → Database} (h : ∀ db db', R db db' → R (g db) (g' db')) :
    Follows R (change g) (change g') := by
  apply Follows.statement
  rintro db db' a d hR ⟨⟩
  exact ⟨g' db', rfl, h db db' hR⟩

theorem Follows.ask {g g' : Database → α} (h : ∀ db db', R db db' → g db = g' db') :
    Follows R (ask g) (ask g') := by
  apply Follows.statement
  rintro db db' a d hR ⟨⟩
  exact ⟨db', by rw [h db db' hR]; rfl, hR⟩

end Work

/-! ## Databases with the same tags -/

/-- The same rows under the same ids, the same projection, the same next id, and the same names that are
rejected. -/
structure Database.SameTags (db db' : Database) : Prop where
  tags : db.tags = db'.tags
  globalTable : db.globalTable = db'.globalTable
  lastTagId : db.lastTagId = db'.lastTagId
  rejected : db.rejected = db'.rejected

namespace Batch

open Work Database

variable {α : Type}

/-- What work does to the tags, and whether it fails, hangs on the tags alone. -/
abbrev ByTags (w : Work α) : Prop := Follows SameTags w w

theorem removeFile_byTags (file : String) : ByTags (removeFile file) := by
  have hglobals : ByTags (Work.change (·.dropGlobalsOf file)) := by
    refine .change fun db db' h => ⟨h.tags, ?_, h.lastTagId, h.rejected⟩
    simp only [dropGlobalsOf, rowsOf, h.tags, h.globalTable]
  have htags : ByTags (Work.statement .writes fun db => .ok ((db.rowsOf file).length, db.dropTagsOf file)) := by
    apply Follows.statement
    rintro db db' a d h ⟨⟩
    refine ⟨db'.dropTagsOf file, by simp only [rowsOf, h.tags], ?_, h.globalTable, h.lastTagId, h.rejected⟩
    simp only [dropTagsOf, h.tags]
  have hentry : ByTags (Work.change (·.dropFileEntry file)) :=
    .change fun db db' h => ⟨h.tags, h.globalTable, h.lastTagId, h.rejected⟩
  exact hglobals.bind fun _ => htags.bind fun _ => hentry.bind fun _ => .pure _

theorem removeFiles_byTags (files : List String) : ByTags (removeFiles files) := by
  induction files with
  | nil => exact .pure _
  | cons file files ih =>
      have hkeys : ByTags (Work.ask (·.keysOf file)) :=
        .ask fun db db' h => by simp only [keysOf, rowsOf, h.tags]
      exact hkeys.bind fun _ => (removeFile_byTags file).bind fun _ => ih.bind fun _ => .pure _

theorem addTag_byTags (t : Tag) (reuse : Option Nat) : ByTags (Work.statement .writes (·.addTag t reuse)) := by
  apply Follows.statement
  intro db db' id d h hadd
  by_cases hr : db.rejected.contains t.name
  · simp only [addTag, hr, if_true] at hadd
    cases hadd
  · simp only [addTag, hr] at hadd
    cases hadd
    simp only [addTag, ← h.rejected, ← h.tags, ← h.lastTagId, hr]
    exact ⟨_, rfl, rfl, h.globalTable, rfl, rfl⟩

theorem putTag_byTags (t : Tag) (reuse : Option Nat) : ByTags (putTag t reuse) := by
  have hnote : ∀ id, ByTags (if t.isGlobal then Work.change (·.addGlobal t.name id) else pure ()) := by
    intro id
    split
    · exact .change fun db db' h => ⟨h.tags, by simp only [addGlobal, h.globalTable], h.lastTagId, h.rejected⟩
    · exact .pure _
  have hfound : ByTags (Work.ask (·.idOf? t.key)) := .ask fun db db' h => by simp only [idOf?, h.tags]
  refine hfound.bind fun found => ?_
  cases found with
  | some id =>
      have hrow : ByTags (Work.change (·.overwriteTag id t)) :=
        .change fun db db' h => ⟨by simp only [overwriteTag, h.tags], h.globalTable, h.lastTagId, h.rejected⟩
      have hname : ByTags (Work.change (·.dropGlobal id)) :=
        .change fun db db' h => ⟨h.tags, by simp only [dropGlobal, h.globalTable], h.lastTagId, h.rejected⟩
      exact hrow.bind fun _ => hname.bind fun _ => hnote id
  | none => exact (addTag_byTags t reuse).bind hnote

theorem putTags_byTags (tags : List Tag) (m : Memory) : ByTags (putTags tags m) := by
  induction tags generalizing m with
  | nil => exact .pure _
  | cons t tags ih =>
      unfold putTags
      split
      · exact (putTag_byTags t _).bind fun _ => (ih _).bind fun _ => .pure _
      · exact (ih _).bind fun _ => .pure _

theorem putFileEntries_follows (now now' : Int) (files : List String) :
    Follows SameTags (putFileEntries now files) (putFileEntries now' files) := by
  induction files with
  | nil => exact .pure _
  | cons file files ih =>
      refine .bind (.change fun db db' h => ?_) fun _ => ih
      exact ⟨h.tags, h.globalTable, h.lastTagId, h.rejected⟩

/-- A batch does the same to the same tags, whatever the time and whatever else is in the database. -/
theorem store_follows (tags : List Tag) (now now' : Int) :
    Follows SameTags (store tags now) (store tags now') :=
  (removeFiles_byTags _).bind fun _ => (putTags_byTags tags _).bind fun _ =>
    (putFileEntries_follows now now' _).bind fun _ => .pure _

end Batch
end TagIndex
