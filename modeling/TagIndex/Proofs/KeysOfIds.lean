import TagIndex.Proofs.Ids

/-!
# Ids stay with their keys

An id that a key was given never comes to another one: a batch gives an id back to the key that it was
remembered for, and every other id comes after the counter.
-/

namespace TagIndex

open Work Relation PlaceState

variable {i : Nat} {k : Tag.Key}

namespace Database

/-- The id was given out, and no row of another key has it. -/
structure Pins (db : Database) (i : Nat) (k : Tag.Key) : Prop where
  spent : i ≤ db.lastTagId
  only : ∀ r ∈ db.tags, r.id = i → r.tag.key = k

variable {db db' : Database} {t : Tag} {id : Nat}

theorem Pins.congr (h : db.Pins i k) (ht : db'.tags = db.tags) (hl : db'.lastTagId = db.lastTagId) :
    db'.Pins i k where
  spent := hl ▸ h.spent
  only r hr := h.only r (ht ▸ hr)

theorem Pins.filter (h : db.Pins i k) (p : Row → Bool) : Pins { db with tags := db.tags.filter p } i k where
  spent := h.spent
  only r hr := h.only r (List.mem_of_mem_filter hr)

theorem Pins.overwriteTag (h : db.Pins i k) (ht : id = i → t.key = k) : (db.overwriteTag id t).Pins i k where
  spent := h.spent
  only r hr hi := by
    obtain ⟨o, ho, rfl⟩ := List.mem_map.mp hr
    by_cases hid : o.id = id
    · rw [if_pos hid] at hi ⊢
      exact ht hi
    · rw [if_neg hid] at hi ⊢
      exact h.only o ho hi

/-- A row that comes under a new id does not come under one that was given out. -/
theorem Pins.addTag (h : db.Pins i k) {reuse : Option Nat} (ht : reuse = some i → t.key = k)
    (ha : db.addTag t reuse = .ok (id, db')) : db'.Pins i k := by
  obtain ⟨rfl, rfl⟩ := addTag_ok ha
  refine ⟨Nat.le_trans h.spent (Nat.le_max_left _ _), fun r hr hi => ?_⟩
  rcases Row.mem_insert.mp hr with rfl | hr
  · -- An id is handed back only to the key it is remembered for; any other is above the counter.
    cases reuse with
    | some j => exact ht (congrArg some hi)
    | none =>
        have hlate : db.lastTagId + 1 = i := hi
        have hspent := h.spent
        omega
  · exact h.only r hr hi

theorem Sound.pins (h : db.Sound) {r : Row} (hr : r ∈ db.tags) : db.Pins r.id r.tag.key where
  spent := h.bounded r hr
  only o ho hi := by rw [h.eq_of_id ho hr hi]

end Database

/-! ## Batches -/

namespace Batch

theorem lasting_pins (i : Nat) (k : Tag.Key) : Lasting fun db => db.Pins i k where
  dropGlobalsOf _ _ h := h.congr rfl rfl
  dropTagsOf _ _ h := h.filter _
  dropFileEntry _ _ h := h.congr rfl rfl

/-- The memory has the id for no other key. -/
def Memory.Pins (m : Memory) (i : Nat) (k : Tag.Key) : Prop := ∀ k', (k', i) ∈ m → k' = k

theorem removeFiles_pins (files : List String) :
    Meets (fun db => db.Pins i k) (removeFiles files) (fun r db => r.1.Pins i k ∧ db.Pins i k)
      fun db => db.Pins i k := by
  induction files with
  | nil => exact .pure fun _ h => ⟨nofun, h⟩
  | cons file files ih =>
      refine Meets.bind (Q := fun known db => Memory.Pins known i k ∧ db.Pins i k)
        (.ask (fun db h => ⟨fun k' hm => ?_, h⟩) fun _ => id) fun known => ?_
      · obtain ⟨r, hr, _, rfl, hi⟩ := mem_keysOf.mp hm
        exact h.only r hr hi
      · refine Meets.bind ((lasting_pins i k).removeFile file).frame fun n => ?_
        refine Meets.bind ih.frame fun r => .pure fun db h => ⟨fun k' hm => ?_, h.2.2⟩
        exact (List.mem_append.mp hm).elim (h.1 k') (h.2.1 k')

theorem putTag_pins (t : Tag) {reuse : Option Nat} (ht : reuse = some i → t.key = k) :
    Keeps (fun db => db.Pins i k) (putTag t reuse) := by
  have hnote : ∀ id, Keeps (fun db => db.Pins i k)
      (if t.isGlobal then Work.change (·.addGlobal t.name id) else pure ()) := by
    intro id
    split
    · exact .change fun _ h => h.congr rfl rfl
    · exact .pure
  refine Meets.bind (Q := fun found db => (found = some i → t.key = k) ∧ db.Pins i k)
    (.ask (fun db h => ⟨fun hi => ?_, h⟩) fun _ => id) fun found => ?_
  · obtain ⟨r, hr, hk, hid⟩ := Database.exists_of_idOf? hi
    exact hk.symm.trans (h.only r hr hid)
  cases found with
  | some id =>
      refine Meets.bind (Q := fun _ db => db.Pins i k)
        (.change (fun db h => h.2.overwriteTag fun hid => h.1 (congrArg some hid)) fun _ h => h.2)
        fun _ => ?_
      exact Keeps.bind (.change fun _ h => h.congr rfl rfl) fun _ => hnote id
  | none =>
      exact Meets.bind (Q := fun _ db => db.Pins i k)
        (.statement (fun db id db' h ha => h.2.addTag ht ha) fun _ h => h.2) hnote

theorem putTags_pins (tags : List Tag) {m : Memory} (hm : m.Pins i k) :
    Keeps (fun db => db.Pins i k) (putTags tags m) := by
  induction tags generalizing m with
  | nil => exact .pure
  | cons t tags ih =>
      unfold putTags
      split
      · refine Keeps.bind (putTag_pins t fun hi => hm _ (Memory.mem_of_id? hi)) fun _ => ?_
        exact Keeps.bind (ih fun k' hk => hm k' (Memory.mem_spend.mp hk).1) fun _ => .pure
      · exact Keeps.bind (ih hm) fun _ => .pure

theorem keeps_pins_store (tags : List Tag) (now : Int) : Keeps (fun db => db.Pins i k) (store tags now) := by
  refine Meets.bind (removeFiles_pins _) fun r => ?_
  refine Meets.bind (Q := fun _ db => db.Pins i k) ?_ fun _ => ?_
  · exact .each fun db h => (putTags_pins tags h.1).imp (by rintro _ rfl; exact h.2) (fun _ _ => id) fun _ => id
  · exact Keeps.bind (keeps_putFileEntries (fun _ _ _ h => h.congr rfl rfl) now _) fun _ => .pure

theorem aboutTags_pins (i : Nat) (k : Tag.Key) : AboutTags fun db => db.Pins i k :=
  fun _ _ ht _ hl h => h.congr ht hl

theorem kept_pins (i : Nat) (k : Tag.Key) : Kept fun db => db.Pins i k where
  aboutTags := aboutTags_pins i k
  store := keeps_pins_store
  removeFile file := (lasting_pins i k).removeFile file
  clear := (aboutTags_pins i k).keeps_clear (fun _ h => h.congr rfl rfl) fun _ h => ⟨h.spent, nofun⟩

end Batch

/-! ## Runs -/

namespace Store

variable {s t : Store} {p : Place}

theorem Reachable.pins (h : s.Reachable) {r : Row} (hr : r ∈ (s.disk.tables p).tags) :
    All (fun db => db.Pins r.id r.tag.key) (s.stateAt p) :=
  h.all_of_stored (Batch.kept_pins _ _) ((h.sound p).1.pins hr)

/-- Whatever happens to a file between two moments, failed calls and taken back transactions included, an
id that stands on the disk at both of them has one key. At every moment, also in an open transaction, rows
have ids of their own and none lies above the counter. -/
theorem ids_stay_with_keys (hs : s.Reachable) (hr : ReflTransGen Next s t) (hp : p ≠ .scratch) :
    (∀ r ∈ (s.disk.tables p).tags, ∀ r' ∈ (t.disk.tables p).tags, r.id = r'.id →
      r.tag.key = r'.tag.key) ∧
    All (fun db => (db.tags.map (·.id)).Nodup ∧ ∀ r ∈ db.tags, r.id ≤ db.lastTagId) (t.stateAt p) := by
  have ht : t.Reachable := hs.run hr
  have hids : ∀ db : Database, db.Sound →
      (db.tags.map (·.id)).Nodup ∧ ∀ r ∈ db.tags, r.id ≤ db.lastTagId := fun db h =>
    ⟨List.pairwise_map.mpr (h.ascending.imp Nat.ne_of_lt), h.bounded⟩
  refine ⟨fun r hm r' hm' he => ?_, hids _ (ht.sound p).1, fun db hdb => hids db ((ht.sound p).2 db hdb)⟩
  have hpins := (Batch.kept_pins r.id r.tag.key).run hr hp (hs.pins hm)
  exact (hpins.1.only r' hm' he.symm).symm

/-- A transaction that is taken back gave the third id away. The next new key gets it, in another session;
the key that is stored again keeps its own. -/
theorem ids_stay_with_keys_after_rollback :
    let tag (path name : String) : Tag := { name, file := "a.c", kind := "function", path }
    let s := Step.act (Step.act {} (.openPath "a.db")) (.storeTags [tag "p" "f", tag "q" "g"] 0 true)
    let undone := Step.act (Step.act (Step.act s .begin) (.storeTags [tag "o" "h"] 0 false)) .rollback
    let t := Step.act (Step.act (Step.act undone (.restart {})) (.openPath "a.db"))
      (.storeTags [tag "r" "k", tag "q" "l"] 0 true)
    let p := Place.inside ["a.db"]
    (s.disk.tables p).tags = [⟨1, tag "p" "f"⟩, ⟨2, tag "q" "g"⟩] ∧
    (t.disk.tables p).tags = [⟨2, tag "q" "l"⟩, ⟨3, tag "r" "k"⟩] ∧
    ∀ r ∈ (s.disk.tables p).tags, ∀ r' ∈ (t.disk.tables p).tags, r.id = r'.id →
      r.tag.key = r'.tag.key := by
  intro tag s undone t p
  have hs : s.Reachable :=
    .next _ (.next _ (.new ⟨rfl, rfl, rfl⟩ fun _ => .refl _) trivial trivial) trivial trivial
  have hundone : ReflTransGen Next s undone :=
    ((ReflTransGen.single ⟨.begin, trivial, rfl⟩).tail
      ⟨.storeTags [tag "o" "h"] 0 false, trivial, rfl⟩).tail ⟨.rollback, trivial, rfl⟩
  have hr : ReflTransGen Next s t :=
    ((hundone.tail ⟨.restart {}, trivial, rfl⟩).tail ⟨.openPath "a.db", trivial, rfl⟩).tail
      ⟨.storeTags [tag "r" "k", tag "q" "l"] 0 true, trivial, rfl⟩
  exact ⟨by decide +kernel, by decide +kernel, (ids_stay_with_keys hs hr (p := p) nofun).1⟩

end Store
end TagIndex
