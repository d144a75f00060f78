import Mathlib.Data.List.Nodup
import TagIndex.Database

/-!
# Tables that are sound

Ids ascend and stay below the counter, no two rows share a key, and every row is an accepted tag. Each
statement on the tags keeps this, as long as a new row comes under a free key and a free id.
-/

namespace TagIndex

/-! ## Tags -/

namespace Tag

@[simp] theorem settled_key (t : Tag) : t.settled.key = t.key := rfl
@[simp] theorem settled_isAccepted (t : Tag) : t.settled.isAccepted = t.isAccepted := rfl

theorem file_eq_of_key_eq {t u : Tag} (h : t.key = u.key) : t.file = u.file := congrArg Key.file h

theorem isAccepted_eq_of_key_eq {t u : Tag} (h : t.key = u.key) : t.isAccepted = u.isAccepted := by
  have hf : t.file = u.file := congrArg Key.file h
  have hk : t.kind = u.kind := congrArg Key.kind h
  simp only [isAccepted, isLocalVariable, isOk, hf, hk]

theorem isAccepted_file_ne {t : Tag} (h : t.isAccepted) : t.file ≠ "" := by
  intro hf
  simp [isAccepted, isOk, hf] at h

end Tag

/-! ## Rows in their places -/

namespace Row

theorem insert_perm (r : Row) (rows : List Row) : (insert r rows).Perm (r :: rows) := by
  induction rows with
  | nil => exact .refl _
  | cons s rows ih =>
      simp only [insert]
      split
      · exact .refl _
      · exact (ih.cons s).trans (.swap r s rows)

@[simp] theorem mem_insert {r s : Row} {rows : List Row} :
    s ∈ insert r rows ↔ s = r ∨ s ∈ rows := by
  rw [(insert_perm r rows).mem_iff, List.mem_cons]

theorem insert_ascending {r : Row} {rows : List Row} (h : rows.Pairwise (·.id < ·.id))
    (hr : ∀ s ∈ rows, s.id ≠ r.id) : (insert r rows).Pairwise (·.id < ·.id) := by
  induction rows with
  | nil => simp [insert]
  | cons s rows ih =>
      obtain ⟨hs, h⟩ := List.pairwise_cons.mp h
      simp only [insert]
      split
      · rename_i hlt
        refine .cons (fun x hx => ?_) (.cons hs h)
        rcases List.mem_cons.mp hx with rfl | hx
        · exact hlt
        · exact Nat.lt_trans hlt (hs x hx)
      · rename_i hge
        have hne := hr s List.mem_cons_self
        refine .cons (fun x hx => ?_) (ih h fun x hx => hr x (List.mem_cons_of_mem _ hx))
        rcases mem_insert.mp hx with rfl | hx
        · omega
        · exact hs x hx

end Row

/-- A list that is filtered by its keys and gets one under a new key has keys of its own. -/
theorem nodup_replace {α β : Type} {key : α → β} {l : List α} {p : α → Bool} {a : α}
    (h : (l.map key).Nodup) (hp : ∀ b ∈ l, p b → key b ≠ key a) :
    ((l.filter p ++ [a]).map key).Nodup := by
  rw [List.map_append, List.nodup_append]
  refine ⟨h.sublist (List.filter_sublist.map _), List.nodup_singleton _, fun i hi j hj => ?_⟩
  obtain ⟨b, hb, rfl⟩ := List.mem_map.mp hi
  rw [List.mem_singleton.mp hj]
  exact hp b (List.mem_of_mem_filter hb) (List.mem_filter.mp hb).2

namespace Database

variable {db db' : Database} {t : Tag} {k : Tag.Key} {i : Nat} {file : String}

/-- An index that is there keeps apart what it should. -/
structure Indexed (db : Database) : Prop where
  files : db.filesUnique → (db.files.map (·.file)).Nodup
  macros : db.macrosUnique → (db.macros.map (·.name)).Nodup

theorem indexed_empty : Indexed {} where
  files := nofun
  macros := nofun

/-- The same rows and counters. Recorded versions, rejected names and indexes can differ, but no index is wrong that was
right. -/
structure SameTables (db db' : Database) : Prop where
  same : db' = { db with
    versions := db'.versions
    rejected := db'.rejected
    filesUnique := db'.filesUnique
    macrosUnique := db'.macrosUnique }
  indexed : db.Indexed → db'.Indexed

/-! ## The projection and the macros by their values -/

@[simp] theorem globals_addGlobal (db : Database) (name : String) (id : Nat) :
    (db.addGlobal name id).globals = db.globals ++ [⟨name, id⟩] := Ledger.values_add _ _

@[simp] theorem globals_dropGlobal (db : Database) (id : Nat) :
    (db.dropGlobal id).globals = db.globals.filter (·.tagId ≠ id) := Ledger.values_keep _ _

@[simp] theorem globals_dropGlobalsOf (db : Database) (file : String) :
    (db.dropGlobalsOf file).globals = db.globals.filter fun g => (db.rowsOf file).all (·.id ≠ g.tagId) :=
  Ledger.values_keep _ _

theorem macros_putMacro (db : Database) (m : Macro) :
    (db.putMacro m).macros = (if db.macrosUnique then db.macros.filter (·.name ≠ m.name) else db.macros) ++ [m] := by
  unfold putMacro macros
  split <;> simp

@[simp] theorem simpleMacros_dropSimpleMacros (db : Database) (file : String) :
    (db.dropSimpleMacros file).simpleMacros = db.simpleMacros.filter (·.file ≠ file) := Ledger.values_keep _ _

@[simp] theorem simpleMacros_addSimpleMacro (db : Database) (file name : String) :
    (db.addSimpleMacro file name).simpleMacros = db.simpleMacros ++ [⟨file, name⟩] := Ledger.values_add _ _

/-! ## The same tables -/

theorem SameTables.refl (db : Database) : db.SameTables db := ⟨rfl, id⟩

theorem SameTables.trans {db'' : Database} (h : db.SameTables db') (h' : db'.SameTables db'') :
    db.SameTables db'' := by
  refine ⟨?_, h'.indexed ∘ h.indexed⟩
  rw [h'.same, h.same]

theorem sameTables_versions (db : Database) (versions rejected : List String) :
    db.SameTables { db with versions, rejected } := ⟨rfl, fun h => ⟨h.files, h.macros⟩⟩

theorem SameTables.tags (h : db.SameTables db') : db'.tags = db.tags := by rw [h.same]
theorem SameTables.globalTable (h : db.SameTables db') : db'.globalTable = db.globalTable := by rw [h.same]
theorem SameTables.globals (h : db.SameTables db') : db'.globals = db.globals := congrArg Ledger.values h.globalTable
theorem SameTables.lastTagId (h : db.SameTables db') : db'.lastTagId = db.lastTagId := by rw [h.same]
theorem SameTables.files (h : db.SameTables db') : db'.files = db.files := by rw [h.same]
theorem SameTables.macroTable (h : db.SameTables db') : db'.macroTable = db.macroTable := by rw [h.same]
theorem SameTables.macros (h : db.SameTables db') : db'.macros = db.macros := congrArg Ledger.values h.macroTable
theorem SameTables.simpleMacroTable (h : db.SameTables db') : db'.simpleMacroTable = db.simpleMacroTable := by rw [h.same]
theorem SameTables.simpleMacros (h : db.SameTables db') : db'.simpleMacros = db.simpleMacros :=
  congrArg Ledger.values h.simpleMacroTable

/-- A part of the tables that each of some writes leaves alone, all of them leave alone. -/
theorem foldl_frame {α β : Type} (part : Database → β) (write : Database → α → Database)
    (h : ∀ db a, part (write db a) = part db) (as : List α) (db : Database) : part (as.foldl write db) = part db := by
  induction as generalizing db with
  | nil => rfl
  | cons a as ih => exact (ih _).trans (h db a)

structure Sound (db : Database) : Prop where
  ascending : db.tags.Pairwise (·.id < ·.id)
  bounded : ∀ r ∈ db.tags, r.id ≤ db.lastTagId
  distinct : (db.tags.map (·.tag.key)).Nodup
  accepted : ∀ r ∈ db.tags, r.tag.isAccepted

theorem sound_empty : Sound {} where
  ascending := .nil
  bounded := nofun
  distinct := .nil
  accepted := nofun

namespace Sound

theorem nodup_ids (h : db.Sound) : (db.tags.map (·.id)).Nodup :=
  List.pairwise_map.mpr (h.ascending.imp Nat.ne_of_lt)

theorem eq_of_id (h : db.Sound) {r s : Row} (hr : r ∈ db.tags) (hs : s ∈ db.tags)
    (he : r.id = s.id) : r = s :=
  List.inj_on_of_nodup_map h.nodup_ids hr hs he

theorem eq_of_key (h : db.Sound) {r s : Row} (hr : r ∈ db.tags) (hs : s ∈ db.tags)
    (he : r.tag.key = s.tag.key) : r = s :=
  List.inj_on_of_nodup_map h.distinct hr hs he

theorem nodup (h : db.Sound) : db.tags.Nodup := h.nodup_ids.of_map _

theorem filter (h : db.Sound) (p : Row → Bool) : Sound { db with tags := db.tags.filter p } where
  ascending := h.ascending.filter p
  bounded r hr := h.bounded r (List.mem_of_mem_filter hr)
  distinct := h.distinct.sublist (List.filter_sublist.map _)
  accepted r hr := h.accepted r (List.mem_of_mem_filter hr)

end Sound

/-! ## Statements on the tags -/

theorem idOf?_eq_none : db.idOf? k = none ↔ ∀ r ∈ db.tags, r.tag.key ≠ k := by
  simp [idOf?]

theorem exists_of_idOf? (h : db.idOf? k = some i) : ∃ r ∈ db.tags, r.tag.key = k ∧ r.id = i := by
  obtain ⟨r, hr, rfl⟩ := Option.map_eq_some_iff.mp h
  exact ⟨r, List.mem_of_find?_eq_some hr, by simpa using List.find?_some hr, rfl⟩

theorem addTag_ok {id? : Option Nat} (h : db.addTag t id? = .ok (i, db')) :
    i = id?.getD (db.lastTagId + 1) ∧
      db' = { db with
        tags := Row.insert ⟨i, t.settled⟩ db.tags, lastTagId := max db.lastTagId i } := by
  unfold addTag at h
  split at h
  · cases h
  · cases h; exact ⟨rfl, rfl⟩

theorem Sound.idOf?_key (h : db.Sound) {r : Row} (hr : r ∈ db.tags) : db.idOf? r.tag.key = some r.id := by
  cases hi : db.idOf? r.tag.key with
  | none => exact absurd rfl (idOf?_eq_none.mp hi r hr)
  | some i =>
      obtain ⟨o, ho, hk, rfl⟩ := exists_of_idOf? hi
      rw [h.eq_of_key ho hr hk]

/-- The row that holds a tag's key is the one that is overwritten. -/
theorem mem_overwriteTag (hs : db.Sound) {r : Row} (hr : r ∈ db.tags) (hk : r.tag.key = t.key)
    {s : Row} : s ∈ (db.overwriteTag r.id t).tags ↔
      s = ⟨r.id, t.settled⟩ ∨ s ∈ db.tags ∧ s.tag.key ≠ t.key := by
  simp only [overwriteTag, List.mem_map]
  constructor
  · rintro ⟨x, hx, rfl⟩
    split
    · exact .inl rfl
    · rename_i he
      exact .inr ⟨hx, fun hxk => he (congrArg Row.id (hs.eq_of_key hx hr (hxk.trans hk.symm)))⟩
  · rintro (rfl | ⟨hm, hne⟩)
    · exact ⟨r, hr, by simp⟩
    · refine ⟨s, hm, if_neg fun he => hne ?_⟩
      rw [hs.eq_of_id hm hr he, hk]

theorem Sound.overwriteTag (hs : db.Sound) {r : Row} (hr : r ∈ db.tags) (hk : r.tag.key = t.key) :
    (db.overwriteTag r.id t).Sound := by
  let g : Row → Row := fun s => if s.id = r.id then ⟨r.id, t.settled⟩ else s
  have hid : ∀ s, (g s).id = s.id := by
    intro s
    by_cases h : s.id = r.id <;> simp [g, h]
  have hkey : ∀ s ∈ db.tags, (g s).tag.key = s.tag.key := by
    intro s hm
    by_cases h : s.id = r.id
    · simp [g, hs.eq_of_id hm hr h, hk]
    · simp [g, h]
  have htags : (db.overwriteTag r.id t).tags = db.tags.map g := rfl
  refine ⟨?_, ?_, ?_, ?_⟩
  · rw [htags, List.pairwise_map]
    simpa only [hid] using hs.ascending
  · rw [htags]
    intro s hm
    obtain ⟨x, hx, rfl⟩ := List.mem_map.mp hm
    rw [hid]
    exact hs.bounded x hx
  · have hkeys : (db.tags.map g).map (·.tag.key) = db.tags.map (·.tag.key) := by
      rw [List.map_map]
      exact List.map_congr_left hkey
    rw [htags, hkeys]
    exact hs.distinct
  · rw [htags]
    intro s hm
    obtain ⟨x, hx, rfl⟩ := List.mem_map.mp hm
    rw [Tag.isAccepted_eq_of_key_eq (hkey x hx)]
    exact hs.accepted x hx

theorem Sound.insert (hs : db.Sound) (ht : t.isAccepted) (hk : ∀ r ∈ db.tags, r.tag.key ≠ t.key)
    (hi : ∀ r ∈ db.tags, r.id ≠ i) :
    Sound { db with
      tags := Row.insert ⟨i, t.settled⟩ db.tags, lastTagId := max db.lastTagId i } where
  ascending := Row.insert_ascending hs.ascending hi
  bounded r hr := by
    rcases Row.mem_insert.mp hr with rfl | hr
    · exact Nat.le_max_right _ _
    · exact Nat.le_trans (hs.bounded r hr) (Nat.le_max_left _ _)
  distinct := by
    refine ((Row.insert_perm _ db.tags).map _).nodup_iff.mpr (List.nodup_cons.mpr ⟨?_, hs.distinct⟩)
    intro hm
    obtain ⟨r, hr, he⟩ := List.mem_map.mp hm
    exact hk r hr he
  accepted r hr := by
    rcases Row.mem_insert.mp hr with rfl | hr
    · exact ht
    · exact hs.accepted r hr

end Database
end TagIndex
