import TagIndex.Proofs.Places

/-!
# Connecting

A path leads to one place, with one access, whatever the disk is like. Connecting to it changes the place at
most, and what the disk refuses stays.
-/

namespace TagIndex

namespace Disk

variable {d d' e e' : Disk} {dir parts : List String} {text : String} {h h' : Handle}

/-- Where parts lead, if they lead anywhere, does not hang on the disk. -/
theorem follow_agrees {a b : List String} (ha : d.follow dir parts = some a)
    (hb : e.follow dir parts = some b) : a = b := by
  induction parts generalizing dir with
  | nil => exact Option.some.inj (ha.symm.trans hb)
  | cons p ps ih =>
      unfold follow at ha hb
      split at ha
      · rw [if_pos ‹_›] at hb
        exact ih ha hb
      · rw [if_neg ‹_›] at hb
        split at ha
        · rw [if_pos ‹_›] at hb
          exact ih ha hb
        · rw [if_neg ‹_›] at hb
          exact ih (Option.ite_none_left_eq_some.mp ha).2 (Option.ite_none_left_eq_some.mp hb).2

theorem locate_agrees {a : Address} {p q : Place} (hp : d.locate a = some p)
    (hq : e.locate a = some q) : p = q := by
  unfold locate at hp hq
  split at hp
  · rw [if_pos ‹_›] at hq
    exact Option.some.inj (hp.symm.trans hq)
  · rw [if_neg ‹_›] at hq
    split at hp
    · cases hp
    · rename_i hrelative
      split at hq
      · cases hq
      · obtain ⟨parts, hparts, rfl⟩ := Option.map_eq_some_iff.mp hp
        obtain ⟨parts', hparts', rfl⟩ := Option.map_eq_some_iff.mp hq
        rw [follow_agrees hparts hparts']

/-- The place then has a database, and nothing else on the disk changes. -/
theorem connect_ok (hc : d.connect text = .ok (h, d')) :
    ∃ a, Address.ofText text = .ok a ∧ d.locate a = some h.place ∧
      h.readOnly = decide (a.access = .reading) ∧ (d'.database? h.place).isSome ∧
      (d' = d ∨ ∃ n db, d.statements ≤ n ∧ d' = { d with statements := n }.put h.place (.database db)) := by
  have hput : ∀ (e : Disk) (p : Place) (db : Database), ((e.put p (.database db)).database? p).isSome := by
    intro e p db
    simp only [database?, content?_put, if_true]
    rfl
  obtain ⟨a, ha, hplace, hread, hconnects⟩ := connect_cases hc
  refine ⟨a, ha, hplace, hread, ?_⟩
  cases hconnects with
  | reads hp => exact ⟨hp, .inl rfl⟩
  | prepares p => exact ⟨hput _ _ _, .inr ⟨_, _, Schema.ensure_forward _ _ _, rfl⟩⟩
  | readsScratch => exact ⟨hput _ _ _, .inr ⟨d.statements, _, Nat.le_refl _, rfl⟩⟩
  | preparesScratch => exact ⟨hput _ _ _, .inr ⟨_, _, Schema.ensure_forward _ _ _, rfl⟩⟩

/-- A connection that can write takes the tables at its place through the schema; a scratch place starts anew. -/
theorem connect_prepares (hc : d.connect text = .ok (h, d')) (hw : h.readOnly = false) :
    ∃ db, d' = (d.prepare h.place db).2 ∧ (db = d.tables h.place ∨ db = {}) := by
  obtain ⟨_, _, _, _, hconnects⟩ := connect_cases hc
  cases hconnects with
  | reads _ => cases hw
  | prepares p => exact ⟨_, rfl, .inl rfl⟩
  | readsScratch => cases hw
  | preparesScratch => exact ⟨_, rfl, .inr rfl⟩

/-- If the statements of the schema meet no trouble, a connection that can write finds the indexes that no two entries
stand against. -/
theorem connect_indexes (hc : d.connect text = .ok (h, d')) (hw : h.readOnly = false)
    (hcalm : ∀ n, d.statements ≤ n → n < d.statements + Schema.statements.length → d.trouble n = none) :
    (((d.tables h.place).files.map (·.file)).Nodup → (d'.tables h.place).filesUnique) ∧
      (((d.tables h.place).macros.map (·.name)).Nodup → (d'.tables h.place).macrosUnique) := by
  obtain ⟨db, rfl, hdb⟩ := connect_prepares hc hw
  obtain ⟨hfiles, hmacros⟩ := Schema.ensure_indexes (ρ := fun _ n => d.trouble n) hcalm db
  have htables : (d.prepare h.place db).2.tables h.place =
      (Schema.ensure (fun _ n => d.trouble n) d.statements db).db := tables_put_self _ _ _
  rw [htables]
  rcases hdb with rfl | rfl
  · exact ⟨hfiles, hmacros⟩
  · exact ⟨fun _ => hfiles .nil, fun _ => hmacros .nil⟩

/-- Connections to one path are alike, whatever happens to the disk in between. -/
theorem connect_agrees (hc : d.connect text = .ok (h, d')) (hc' : e.connect text = .ok (h', e')) :
    h = h' := by
  obtain ⟨a, ha, hplace, hread, _⟩ := connect_ok hc
  obtain ⟨a', ha', hplace', hread', _⟩ := connect_ok hc'
  obtain rfl : a = a' := Except.ok.inj (ha.symm.trans ha')
  obtain ⟨place, readOnly⟩ := h
  obtain ⟨place', readOnly'⟩ := h'
  obtain rfl : place = place' := locate_agrees hplace hplace'
  rw [show readOnly = _ from hread, show readOnly' = _ from hread']

theorem leaves_trouble (d : Disk) (trouble : Nat → Option Fault) : d.Leaves { d with trouble } := fun _ => .refl _

theorem leaves_unlock (d : Disk) : d.Leaves d.unlock := fun _ => .refl _

theorem leaves_lock (d : Disk) (path : String) : d.Leaves (d.lock path) := by
  unfold lock
  split <;> exact fun _ => .refl _

/-- Connecting changes nothing of what a disk refuses, save that the place has a database. -/
theorem connect_refuses (hc : d.connect text = .ok (h, d')) :
    (d'.database? h.place).isSome ∧ d'.locked = d.locked ∧ d'.trouble = d.trouble := by
  obtain ⟨_, _, _, _, hsome, rfl | ⟨n, db, _, rfl⟩⟩ := connect_ok hc
  · exact ⟨hsome, rfl, rfl⟩
  · exact ⟨hsome, rfl, rfl⟩

end Disk

end TagIndex
