import Mathlib.Data.List.Sort
import TagIndex.Proofs.Removal

/-!
# What a batch makes of the files that it names

After the removal the accepted tags are put in order. `Progress` says what the first of them have made
of the tables, and `Replaced` what the whole batch has.
-/

namespace TagIndex.Batch

open Work

variable {db : Database} {tags done rest : List Tag} {m : Memory} {t : Tag} {k : Tag.Key}

/-! ## Places in a batch -/

def lastWith (tags : List Tag) (k : Tag.Key) : Option Tag := (tags.filter (·.key = k)).getLast?

/-- The place in a batch where a key occurs first. -/
def firstPlace (tags : List Tag) (k : Tag.Key) : Nat := tags.findIdx (·.key = k)

theorem mem_of_lastWith (h : lastWith tags k = some t) : t ∈ tags ∧ t.key = k := by
  simpa using List.mem_of_getLast? h

theorem lastWith_append_self (done : List Tag) (t : Tag) :
    lastWith (done ++ [t]) t.key = some t := by
  simp [lastWith]

theorem lastWith_append_ne (h : t.key ≠ k) : lastWith (done ++ [t]) k = lastWith done k := by
  simp [lastWith, h]

theorem firstPlace_lt (h : ∃ u ∈ done, u.key = k) : firstPlace (done ++ rest) k < done.length := by
  obtain ⟨u, hu, hk⟩ := h
  have hlt : done.findIdx (·.key = k) < done.length :=
    List.findIdx_lt_length_of_exists ⟨u, hu, by simpa using hk⟩
  rw [firstPlace, List.findIdx_append, if_pos hlt]
  exact hlt

theorem le_firstPlace (h : ∀ u ∈ done, u.key ≠ k) : done.length ≤ firstPlace (done ++ rest) k := by
  have he : done.findIdx (·.key = k) = done.length :=
    List.findIdx_eq_length.mpr fun u hu => by simpa using h u hu
  rw [firstPlace, List.findIdx_append, he, if_neg (Nat.lt_irrefl _)]
  exact Nat.le_add_left _ _

theorem Memory.mem_of_id? {id : Nat} (h : m.id? k = some id) : (k, id) ∈ m := by
  obtain ⟨e, he, rfl⟩ := Option.map_eq_some_iff.mp h
  have hk : e.1 = k := by simpa using List.find?_some he
  exact hk ▸ List.mem_of_find?_eq_some he

theorem Memory.not_mem_of_id? (h : m.id? k = none) (id : Nat) : (k, id) ∉ m := by
  intro hm
  simp only [id?, Option.map_eq_none_iff, List.find?_eq_none] at h
  exact h _ hm (by simp)

theorem Memory.mem_spend {k' : Tag.Key} {id : Nat} :
    (k', id) ∈ m.spend k ↔ (k', id) ∈ m ∧ k' ≠ k := by
  simp [spend]

/-! ## The loop over the tags -/

/-- No row has the key; so no row of the key's file has it. -/
def NewKey (db : Database) (k : Tag.Key) : Prop := ∀ o ∈ db.tags, o.tag.key ≠ k

/-- What the tags `done`, with which a batch starts, have made of the tables, and what is left of the
memory. -/
structure Progress (db : Database) (tags done : List Tag) (m : Memory) (d : Database) : Prop where
  others : ∀ r : Row, ¬ Names tags r.tag.file → (r ∈ d.tags ↔ r ∈ db.tags)
  fields : ∀ r ∈ d.tags, Names tags r.tag.file →
    ∃ t, lastWith done r.tag.key = some t ∧ r.tag = t.settled
  keys : ∀ t ∈ done, t.isAccepted → ∃ r ∈ d.tags, r.tag.key = t.key
  oldId : ∀ r ∈ d.tags, ∀ o ∈ db.tags, o.tag.key = r.tag.key → r.id = o.id
  newId : ∀ r ∈ d.tags, NewKey db r.tag.key → db.lastTagId < r.id
  order : ∀ r ∈ d.tags, ∀ s ∈ d.tags, NewKey db r.tag.key → NewKey db s.tag.key →
    firstPlace tags r.tag.key < firstPlace tags s.tag.key → r.id < s.id
  counter : db.lastTagId ≤ d.lastTagId
  memory : ∀ k id, (k, id) ∈ m ↔
    (∃ o ∈ db.tags, Names tags o.tag.file ∧ o.tag.key = k ∧ o.id = id) ∧
      ∀ t ∈ done, t.isAccepted → t.key ≠ k

/-- Before any tag is put, the named files own nothing and the memory is complete. -/
theorem Progress.start (hs : db.Sound) (hm : Recalls m db (files tags)) :
    Progress db tags [] m ((files tags).foldl Database.without db) := by
  have hmem : ∀ r : Row, r ∈ ((files tags).foldl Database.without db).tags ↔
      r ∈ db.tags ∧ ¬ Names tags r.tag.file := by
    intro r
    rw [foldl_without_tags, List.mem_filter]
    simp [mem_files]
  have hdb : ∀ r ∈ ((files tags).foldl Database.without db).tags, r ∈ db.tags :=
    fun r hr => ((hmem r).mp hr).1
  exact
    { others := fun r hn => (hmem r).trans (and_iff_left hn)
      fields := fun r hr hn => absurd hn ((hmem r).mp hr).2
      keys := nofun
      oldId := fun r hr o ho he => congrArg Row.id (hs.eq_of_key (hdb r hr) ho he.symm)
      newId := fun r hr hn => absurd rfl (hn r (hdb r hr))
      order := fun r hr _ _ hn => absurd rfl (hn r (hdb r hr))
      counter := Nat.le_of_eq (foldl_without_lastTagId db _).symm
      memory := fun k id => by simp [hm k id, mem_files] }

namespace Progress

variable {d : Database} {id : Nat}

/-- A row of a named file holds a tag that was put already. -/
theorem done_of_names (h : Progress db tags done m d) {r : Row} (hr : r ∈ d.tags)
    (hn : Names tags r.tag.file) : ∃ u ∈ done, u.key = r.tag.key ∧ r.tag = u.settled := by
  obtain ⟨u, hu, he⟩ := h.fields r hr hn
  obtain ⟨hm, hk⟩ := mem_of_lastWith hu
  exact ⟨u, hm, hk, he⟩

theorem names_of_newKey (h : Progress db tags done m d) {r : Row} (hr : r ∈ d.tags)
    (hk : NewKey db r.tag.key) : Names tags r.tag.file := by
  by_contra hn
  exact hk r ((h.others r hn).mp hr) rfl

theorem not_done (h : Progress db tags done m d) (ht : t.isAccepted)
    (hk : ∀ r ∈ d.tags, r.tag.key ≠ t.key) : ∀ u ∈ done, u.key ≠ t.key := by
  intro u hu he
  obtain ⟨r, hr, hrk⟩ := h.keys u hu ((Tag.isAccepted_eq_of_key_eq he).trans ht)
  exact hk r hr (hrk.trans he)

theorem free (h : Progress db tags done m d) (hs : db.Sound) (hd : d.Sound) (hm : (k, id) ∈ m) :
    d.Free id := by
  obtain ⟨⟨o, ho, hn, rfl, rfl⟩, hnot⟩ := (h.memory k id).mp hm
  intro r hr he
  by_cases hrn : Names tags r.tag.file
  · obtain ⟨u, hu, huk, hru⟩ := h.done_of_names hr hrn
    by_cases hold : ∃ o' ∈ db.tags, o'.tag.key = r.tag.key
    · obtain ⟨o', ho', hk⟩ := hold
      have hoo : o' = o := hs.eq_of_id ho' ho ((h.oldId r hr o' ho' hk).symm.trans he)
      have hacc : u.isAccepted := by
        have := hd.accepted r hr
        rwa [hru] at this
      exact hnot u hu hacc (huk.trans (hk.symm.trans (congrArg (·.tag.key) hoo)))
    · have hlt := h.newId r hr fun o' ho' hk => hold ⟨o', ho', hk⟩
      have := hs.bounded o ho
      omega
  · have hro : r = o := hs.eq_of_id ((h.others r hrn).mp hr) ho he
    exact hrn (hro ▸ hn)

/-- As long as no row has a key, the id that it had is remembered. -/
theorem id?_eq (h : Progress db tags done m d) (hs : db.Sound) (ht : t.isAccepted) (hn : Names tags t.file)
    (hk : ∀ r ∈ d.tags, r.tag.key ≠ t.key) : m.id? t.key = db.idOf? t.key := by
  cases hm : m.id? t.key with
  | some id =>
      obtain ⟨⟨o, ho, _, hok, rfl⟩, _⟩ := (h.memory _ _).mp (Memory.mem_of_id? hm)
      rw [← hok, hs.idOf?_key ho]
  | none =>
      refine (Database.idOf?_eq_none.mpr fun o ho hok => ?_).symm
      refine Memory.not_mem_of_id? hm o.id ((h.memory t.key o.id).mpr ⟨⟨o, ho, ?_, hok, rfl⟩, ?_⟩)
      · rwa [Tag.file_eq_of_key_eq hok]
      · exact fun u hu _ => h.not_done ht hk u hu

/-- Once a row has a key, what is remembered for it is no matter. -/
theorem put_id? (h : Progress db tags done m d) (hs : db.Sound) (ht : t.isAccepted)
    (hn : Names tags t.file) {d' : Database} (hd : d'.idOf? t.key = d.idOf? t.key) :
    d'.put t (m.id? t.key) = d'.put t (db.idOf? t.key) := by
  cases hk : d.idOf? t.key with
  | some id => simp only [Database.put, hd, hk]
  | none => rw [h.id?_eq hs ht hn (Database.idOf?_eq_none.mp hk)]

theorem putId_old (h : Progress db tags done m d) (hs : db.Sound) (ht : t.isAccepted)
    (hn : Names tags t.file) {o : Row} (ho : o ∈ db.tags) (hk : o.tag.key = t.key) :
    d.putId t (m.id? t.key) = o.id := by
  rcases d.putId_cases t (m.id? t.key) with ⟨r, hr, hrk, hi⟩ | ⟨hd, hi⟩
  · rw [← hi]
    exact h.oldId r hr o ho (hk.trans hrk.symm)
  · have hm : m.id? t.key = some o.id := (h.id?_eq hs ht hn hd).trans (hk ▸ hs.idOf?_key ho)
    rcases hi with hi | ⟨hi, _⟩
    · exact Option.some.inj (hi.symm.trans hm)
    · rw [hm] at hi
      cases hi

/-- A new key gets the id of the row that holds it already, or else one after all ids so far. -/
theorem putId_new (h : Progress db tags done m d) (hk : NewKey db t.key) :
    (∃ r ∈ d.tags, r.tag.key = t.key ∧ r.id = d.putId t (m.id? t.key)) ∨
      (∀ r ∈ d.tags, r.tag.key ≠ t.key) ∧ d.putId t (m.id? t.key) = d.lastTagId + 1 := by
  refine (d.putId_cases t (m.id? t.key)).imp_right fun ⟨hd, hi⟩ => ⟨hd, ?_⟩
  rcases hi with hi | ⟨_, hi⟩
  · obtain ⟨⟨o, ho, _, hok, _⟩, _⟩ := (h.memory _ _).mp (Memory.mem_of_id? hi)
    exact absurd hok (hk o ho)
  · exact hi

/-- New ids keep the order in which their keys occur first. -/
theorem put_order (h : Progress db tags done m d) (hd : d.Sound) (ht : t.isAccepted)
    (htags : tags = done ++ t :: rest) {r : Row} (hr : r ∈ d.tags) (hn : NewKey db r.tag.key)
    (hk : NewKey db t.key) :
    (firstPlace tags r.tag.key < firstPlace tags t.key → r.id < d.putId t (m.id? t.key)) ∧
      (firstPlace tags t.key < firstPlace tags r.tag.key → d.putId t (m.id? t.key) < r.id) := by
  rcases h.putId_new hk with ⟨s, hs, hsk, hi⟩ | ⟨hd', hi⟩
  · rw [← hi, ← hsk]
    have hk' : NewKey db s.tag.key := hsk ▸ hk
    exact ⟨h.order r hr s hs hn hk', h.order s hs r hr hk' hn⟩
  · obtain ⟨u, hu, huk, _⟩ := h.done_of_names hr (h.names_of_newKey hr hn)
    have hfirst : firstPlace tags r.tag.key < done.length := htags ▸ firstPlace_lt ⟨u, hu, huk⟩
    have hlate : done.length ≤ firstPlace tags t.key := htags ▸ le_firstPlace (h.not_done ht hd')
    have := hd.bounded r hr
    exact ⟨fun _ => by omega, fun _ => by omega⟩

theorem put (h : Progress db tags done m d) (hs : db.Sound) (hd : d.Sound) (ht : t.isAccepted)
    (htags : tags = done ++ t :: rest) :
    Progress db tags (done ++ [t]) (m.spend t.key) (d.put t (m.id? t.key)) := by
  have hn : Names tags t.file := ⟨Tag.isAccepted_file_ne ht, t, by simp [htags], rfl⟩
  have hmem : ∀ s, s ∈ (d.put t (m.id? t.key)).tags ↔
      s = ⟨d.putId t (m.id? t.key), t.settled⟩ ∨ s ∈ d.tags ∧ s.tag.key ≠ t.key :=
    fun _ => Database.mem_put hd
  refine
    { others := ?others, fields := ?fields, keys := ?keys, oldId := ?oldId, newId := ?newId
      order := ?order, counter := ?counter, memory := ?memory }
  case others =>
    intro r hrn
    rw [← h.others r hrn, hmem]
    constructor
    · rintro (rfl | ⟨hr, _⟩)
      · exact absurd hn hrn
      · exact hr
    · refine fun hr => .inr ⟨hr, fun hk => hrn ?_⟩
      rwa [Tag.file_eq_of_key_eq hk]
  case fields =>
    intro r hr hrn
    rcases (hmem r).mp hr with rfl | ⟨hr, hk⟩
    · exact ⟨t, lastWith_append_self done t, rfl⟩
    · rw [lastWith_append_ne (Ne.symm hk)]
      exact h.fields r hr hrn
  case keys =>
    intro u hu hacc
    by_cases hk : u.key = t.key
    · exact ⟨_, (hmem _).mpr (.inl rfl), hk.symm⟩
    · have hud : u ∈ done := by
        rcases List.mem_append.mp hu with hu | hu
        · exact hu
        · exact absurd (congrArg Tag.key (List.mem_singleton.mp hu)) hk
      obtain ⟨r, hr, hrk⟩ := h.keys u hud hacc
      exact ⟨r, (hmem r).mpr (.inr ⟨hr, fun he => hk (hrk.symm.trans he)⟩), hrk⟩
  case oldId =>
    intro r hr o ho he
    rcases (hmem r).mp hr with rfl | ⟨hr, _⟩
    · exact h.putId_old hs ht hn ho he
    · exact h.oldId r hr o ho he
  case newId =>
    intro r hr hk
    rcases (hmem r).mp hr with rfl | ⟨hr, _⟩
    · show db.lastTagId < d.putId t (m.id? t.key)
      -- Its key has a new id from an earlier tag of the batch, or gets one beyond the counter.
      rcases h.putId_new (t := t) hk with ⟨s, hs', hsk, hi⟩ | ⟨_, hi⟩
      · rw [← hi]
        exact h.newId s hs' (hsk ▸ hk)
      · have := h.counter
        omega
    · exact h.newId r hr hk
  case order =>
    intro r hr s hs' hrk hsk
    rcases (hmem r).mp hr with rfl | ⟨hr, _⟩ <;> rcases (hmem s).mp hs' with rfl | ⟨hs', _⟩
    · exact fun hlt => absurd hlt (Nat.lt_irrefl _)
    · exact (h.put_order hd ht htags hs' hsk hrk).2
    · exact (h.put_order hd ht htags hr hrk hsk).1
    · exact h.order r hr s hs' hrk hsk
  case counter =>
    rw [Database.put_lastTagId hd]
    exact Nat.le_trans h.counter (Nat.le_max_left _ _)
  case memory =>
    intro k id
    -- What is still to be handed out belongs to keys that no tag so far has, and now not this one either.
    rw [Memory.mem_spend, h.memory, and_assoc]
    refine and_congr_right fun _ => ⟨fun ⟨hnot, hk⟩ u hu hacc => ?_, fun hnot => ⟨?_, ?_⟩⟩
    · rcases List.mem_append.mp hu with hu | hu
      · exact hnot u hu hacc
      · rw [List.mem_singleton.mp hu]
        exact Ne.symm hk
    · exact fun u hu => hnot u (List.mem_append_left _ hu)
    · exact (hnot t (by simp) ht).symm

theorem skip (h : Progress db tags done m d) (hd : d.Sound) (ht : ¬ t.isAccepted) :
    Progress db tags (done ++ [t]) m d where
  others := h.others
  fields r hr hn := by
    have hne : t.key ≠ r.tag.key := fun hk =>
      ht ((Tag.isAccepted_eq_of_key_eq hk).trans (hd.accepted r hr))
    rw [lastWith_append_ne hne]
    exact h.fields r hr hn
  keys u hu hacc := by
    rcases List.mem_append.mp hu with hu | hu
    · exact h.keys u hu hacc
    · exact absurd (List.mem_singleton.mp hu ▸ hacc) ht
  oldId := h.oldId
  newId := h.newId
  order := h.order
  counter := h.counter
  memory k id := by
    rw [h.memory]
    refine and_congr_right fun _ => ⟨fun hnot u hu hacc => ?_, fun hnot u hu => ?_⟩
    · rcases List.mem_append.mp hu with hu | hu
      · exact hnot u hu hacc
      · exact absurd (List.mem_singleton.mp hu ▸ hacc) ht
    · exact hnot u (List.mem_append_left _ hu)

/-- Progress is a matter of the tags and their counter. -/
theorem congr (h : Progress db tags done m d) {d' : Database} (ht : d'.tags = d.tags)
    (hl : d'.lastTagId = d.lastTagId) : Progress db tags done m d' := by
  obtain ⟨others, fields, keys, oldId, newId, order, counter, memory⟩ := h
  rw [← ht] at others fields keys oldId newId order
  exact ⟨others, fields, keys, oldId, newId, order, hl ▸ counter, memory⟩

end Progress

/-! ## The tables afterwards -/

/-- The tags of a batch that are put. -/
def accepted (tags : List Tag) : List Tag := tags.filter (·.isAccepted)

/-- Puts tags in their order, each under the id that its key had in `db`. -/
def putAll (db : Database) (tags : List Tag) (d : Database) : Database :=
  tags.foldl (fun d t => d.put t (db.idOf? t.key)) d

/-- What a batch makes of the tables. -/
def stored (tags : List Tag) (now : Int) (db : Database) : Database :=
  (files tags).foldl (·.putFileEntry · now)
    (putAll db (accepted tags) ((files tags).foldl Database.without db))

/-- What a batch reports. -/
def report (tags : List Tag) (db : Database) : StoreStats where
  filesReplaced := (files tags).length
  tagsRemoved := (db.tags.filter (·.tag.file ∈ files tags)).length
  tagsInserted := (accepted tags).length
  tagsSkipped := (tags.filter (!·.isAccepted)).length

/-- A fact that removing a file, putting a tag and noting a file keep, each as a whole. -/
structure Unbroken (X : Database → Prop) : Prop where
  without : ∀ d file, d.Sound → X d → X (d.without file)
  put : ∀ d t reuse, d.Sound → t.isAccepted → (∀ id, reuse = some id → d.Free id) → X d →
    X (d.put t reuse)
  putFileEntry : ∀ d file now, X d → X (d.putFileEntry file now)

variable {X : Database → Prop}

theorem putTags_meets (hX : Unbroken X) (hs : db.Sound) (htags : tags = done ++ rest) {d : Database}
    (h : Progress db tags done m d) (hd : d.Sound) (hx : X d) :
    Meets (· = d) (putTags rest m)
      (fun n d' => (n = ((accepted rest).length, (rest.filter (!·.isAccepted)).length) ∧
        d' = putAll db (accepted rest) d) ∧ (∃ m', Progress db tags tags m' d') ∧ d'.Sound ∧ X d')
      Database.Sound := by
  induction rest generalizing done m d with
  | nil =>
      rw [List.append_nil] at htags
      refine .pure ?_
      rintro _ rfl
      exact ⟨⟨rfl, rfl⟩, ⟨m, htags ▸ h⟩, hd, hx⟩
  | cons t rest ih =>
      have hnext : tags = (done ++ [t]) ++ rest := by rw [htags, List.append_assoc]; rfl
      unfold putTags
      split
      · rename_i ht
        have hn : Names tags t.file := ⟨Tag.isAccepted_file_ne ht, t, by simp [htags], rfl⟩
        have hfree : ∀ id, m.id? t.key = some id → d.Free id :=
          fun id hid => h.free hs hd (Memory.mem_of_id? hid)
        refine Meets.bind (putTag_sound hd ht hfree) fun _ => Meets.bind
          (ih hnext (h.put hs hd ht htags) (hd.put ht hfree) (hX.put d t _ hd ht hfree hx)) fun n => .pure ?_
        rintro _ ⟨⟨rfl, rfl⟩, hrest⟩
        refine ⟨⟨?_, ?_⟩, hrest⟩
        · simp [accepted, ht]
        · simp [accepted, ht, putAll, h.put_id? hs ht hn rfl]
      · rename_i ht
        refine Meets.bind (ih hnext (h.skip hd ht) hd hx) fun n => .pure ?_
        rintro _ ⟨⟨rfl, rfl⟩, hrest⟩
        exact ⟨⟨by simp [accepted, ht], by simp [accepted, ht]⟩, hrest⟩

/-! ## The whole batch -/

/-- What a batch leaves. The rows of a named file are the last accepted tags of each key, under the ids
that their keys had, or else under ids that come after all that were `held`, in the order of the
batch. All else is as it was. -/
structure Replaced (tags : List Tag) (held : Nat → Prop) (db db' : Database) : Prop where
  keys : ∀ file, Names tags file → ∀ k,
    (∃ r ∈ db'.rowsOf file, r.tag.key = k) ↔ ∃ t ∈ tags, t.isAccepted ∧ t.file = file ∧ t.key = k
  single : ∀ file, Names tags file → ((db'.rowsOf file).map (·.tag.key)).Nodup
  fields : ∀ file, Names tags file → ∀ r ∈ db'.rowsOf file,
    ∃ t, lastWith tags r.tag.key = some t ∧ r.tag = t.settled
  oldIds : ∀ file, Names tags file → ∀ r ∈ db'.rowsOf file, ∀ o ∈ db.rowsOf file,
    o.tag.key = r.tag.key → r.id = o.id
  newIds : ∀ file, Names tags file → ∀ r ∈ db'.rowsOf file, NewKey db r.tag.key →
    ∀ i, held i → i < r.id
  order : ∀ file file', Names tags file → Names tags file' →
    ∀ r ∈ db'.rowsOf file, ∀ s ∈ db'.rowsOf file', NewKey db r.tag.key → NewKey db s.tag.key →
      firstPlace tags r.tag.key < firstPlace tags s.tag.key → r.id < s.id
  skipped : ∀ file, Names tags file → (∀ t ∈ tags, t.file = file → ¬ t.isAccepted) →
    db'.rowsOf file = []
  others : ∀ file, ¬ Names tags file → db'.rowsOf file = db.rowsOf file
  macros : db'.macros = db.macros
  simpleMacros : db'.simpleMacros = db.simpleMacros

theorem Replaced.imp {held held' : Nat → Prop} {db' : Database}
    (h : Replaced tags held db db') (hh : ∀ i, held' i → held i) :
    Replaced tags held' db db' :=
  { h with newIds := fun file hn r hr hk i hi => h.newIds file hn r hr hk i (hh i hi) }

theorem replaced_nil (held : Nat → Prop) (db : Database) : Replaced [] held db db := by
  have hno : ∀ file, ¬ Names [] file := fun file ⟨_, _, hm, _⟩ => List.not_mem_nil hm
  exact
    { keys := fun file hn => absurd hn (hno file)
      single := fun file hn => absurd hn (hno file)
      fields := fun file hn => absurd hn (hno file)
      oldIds := fun file hn => absurd hn (hno file)
      newIds := fun file hn => absurd hn (hno file)
      order := fun file _ hn => absurd hn (hno file)
      skipped := fun file hn => absurd hn (hno file)
      others := fun _ _ => rfl
      macros := rfl
      simpleMacros := rfl }

theorem mem_rowsOf {file : String} {r : Row} :
    r ∈ db.rowsOf file ↔ r ∈ db.tags ∧ r.tag.file = file := by
  simp [Database.rowsOf]

theorem Progress.replaced {d : Database} (h : Progress db tags tags m d) (hs : db.Sound)
    (hd : d.Sound) (hm : d.macros = db.macros ∧ d.simpleMacros = db.simpleMacros) :
    Replaced tags (· ≤ db.lastTagId) db d := by
  have hkeys : ∀ file, Names tags file → ∀ k, (∃ r ∈ d.rowsOf file, r.tag.key = k) ↔
      ∃ t ∈ tags, t.isAccepted ∧ t.file = file ∧ t.key = k := by
    intro file hn k
    constructor
    · rintro ⟨r, hr, rfl⟩
      obtain ⟨hrd, rfl⟩ := mem_rowsOf.mp hr
      obtain ⟨t, ht, hk, hrt⟩ := h.done_of_names hrd hn
      have hacc : t.isAccepted := by simpa [hrt] using hd.accepted r hrd
      exact ⟨t, ht, hacc, Tag.file_eq_of_key_eq hk, hk⟩
    · rintro ⟨t, ht, hacc, rfl, rfl⟩
      obtain ⟨r, hr, hk⟩ := h.keys t ht hacc
      exact ⟨r, mem_rowsOf.mpr ⟨hr, Tag.file_eq_of_key_eq hk⟩, hk⟩
  refine
    { keys := hkeys
      single := fun file _ => hd.distinct.sublist (List.filter_sublist.map _)
      fields := ?fields
      oldIds := ?oldIds
      newIds := ?newIds
      order := ?order
      skipped := ?skipped
      others := ?others
      macros := hm.1
      simpleMacros := hm.2 }
  case fields =>
    intro file hn r hr
    obtain ⟨hrd, rfl⟩ := mem_rowsOf.mp hr
    exact h.fields r hrd hn
  case oldIds =>
    intro file _ r hr o ho he
    exact h.oldId r (mem_rowsOf.mp hr).1 o (mem_rowsOf.mp ho).1 he
  case newIds =>
    intro file _ r hr hk i hi
    exact Nat.lt_of_le_of_lt hi (h.newId r (mem_rowsOf.mp hr).1 hk)
  case order =>
    intro file file' _ _ r hr s hs'
    exact h.order r (mem_rowsOf.mp hr).1 s (mem_rowsOf.mp hs').1
  case skipped =>
    intro file hn hno
    refine List.eq_nil_iff_forall_not_mem.mpr fun r hr => ?_
    obtain ⟨t, ht, hacc, hf, _⟩ := (hkeys file hn r.tag.key).mp ⟨r, hr, rfl⟩
    exact hno t ht hf hacc
  case others =>
    intro file hn
    refine (hd.ascending.filter _).eq_of_mem_iff (hs.ascending.filter _) fun r => ?_
    show r ∈ d.rowsOf file ↔ r ∈ db.rowsOf file
    rw [mem_rowsOf, mem_rowsOf]
    refine and_congr_left fun hf => h.others r ?_
    rwa [hf]

theorem Unbroken.foldl_without (hX : Unbroken X) (hs : db.Sound) (hx : X db) (files : List String) :
    (files.foldl Database.without db).Sound ∧ X (files.foldl Database.without db) := by
  induction files generalizing db with
  | nil => exact ⟨hs, hx⟩
  | cons file files ih => exact ih (hs.without file) (hX.without db file hs hx)

theorem stable_macros (ms : List Macro) (ss : List SimpleMacro) :
    Stable fun d => d.macros = ms ∧ d.simpleMacros = ss where
  dropGlobalsOf _ _ := id
  dropTagsOf _ _ := id
  dropFileEntry _ _ := id
  overwriteTag _ _ _ := id
  addTag db t id? id db' h ha := by
    obtain ⟨_, rfl⟩ := Database.addTag_ok ha
    exact h
  dropGlobal _ _ := id
  addGlobal _ _ _ := id
  putFileEntry _ _ _ := id

theorem putFileEntries_meets (now : Int) (files : List String) (d : Database) :
    Meets (· = d) (putFileEntries now files) (fun _ d' => d' = files.foldl (·.putFileEntry · now) d)
      fun _ => True := by
  rw [putFileEntries_eq]
  exact changes_map_meets _ files d

/-- What the batch leaves is told exactly, with what it reports, and as far as files and keys go. -/
theorem store_exact (hX : Unbroken X) (hs : db.Sound) (hx : X db) (now : Int) :
    Meets (· = db) (store tags now)
      (fun stats d => (stats = report tags db ∧ d = stored tags now db) ∧
        Replaced tags (· ≤ db.lastTagId) db d ∧ d.Sound ∧ X d) Database.Sound := by
  let placed (d : Database) := (∃ m, Progress db tags tags m d) ∧ d.Sound ∧ X d
  have hexact : Meets (· = db) (store tags now)
      (fun stats d => (stats = report tags db ∧ d = stored tags now db) ∧ placed d) Database.Sound := by
    have hremoved : Meets (· = db) (removeFiles (files tags)) (fun r d =>
        ((Recalls r.1 db (files tags) ∧ r.2 = (report tags db).tagsRemoved) ∧
          d = (files tags).foldl Database.without db) ∧ d.Sound) Database.Sound := by
      refine ((removeFiles_meets db (files tags)).and (lasting_sound.removeFiles _)).imp ?_
        (fun _ _ => id) fun _ => And.right
      rintro _ rfl
      exact ⟨rfl, hs⟩
    refine hremoved.bind fun (m, removed) => .each ?_
    rintro _ ⟨⟨⟨hm, hr⟩, rfl⟩, hd⟩
    obtain ⟨_, hx⟩ := hX.foldl_without hs hx (files tags)
    refine Meets.bind (putTags_meets hX hs rfl (.start hs hm) hd hx) fun n => .each ?_
    rintro d ⟨⟨rfl, rfl⟩, hplaced⟩
    have hkept : Keeps placed (putFileEntries now (files tags)) := by
      refine keeps_putFileEntries ?_ now _
      rintro d file now ⟨⟨m, h⟩, hd, hx⟩
      exact ⟨⟨m, h.congr rfl rfl⟩, hd.congr rfl rfl, hX.putFileEntry d file now hx⟩
    let put := putAll db (accepted tags) ((files tags).foldl Database.without db)
    refine Meets.bind (((putFileEntries_meets now (files tags) put).and hkept).imp ?_ (fun _ _ => id)
      fun d h => h.2.2.1) fun _ => .pure ?_
    · rintro _ rfl
      exact ⟨rfl, hplaced⟩
    · rintro _ ⟨rfl, hplaced⟩
      exact ⟨⟨congrArg (StoreStats.mk _ · _ _) hr, rfl⟩, hplaced⟩
  refine (hexact.and ((stable_macros db.macros db.simpleMacros).store tags now)).imp
    ?_ ?_ fun _ => And.left
  · rintro _ rfl
    exact ⟨rfl, rfl, rfl⟩
  · rintro _ d ⟨⟨he, ⟨m, h⟩, hd, hx⟩, hm⟩
    exact ⟨he, h.replaced hs hd hm, hd, hx⟩

theorem store_meets (hX : Unbroken X) (hs : db.Sound) (hx : X db) (now : Int) :
    Meets (· = db) (store tags now)
      (fun _ d => Replaced tags (· ≤ db.lastTagId) db d ∧ d.Sound ∧ X d) Database.Sound :=
  (store_exact hX hs hx now).imp (fun _ => id) (fun _ _ => And.right) fun _ => id

end TagIndex.Batch
