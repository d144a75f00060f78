import TagIndex.Proofs.Batch
import TagIndex.Proofs.Session

/-!
# Writes that fail

A call that writes in a transaction of its own leaves nothing of its work behind when it fails. While
another transaction is open it cannot begin its own, and leaves that one alone.
-/

namespace TagIndex

namespace Store

variable {α : Type} {s t : Store} {c : Connection} {w : Work α} {e : StoreError}

/-- The session sees the same tables and counters, in the same transaction, and so does everyone else. -/
structure Intact (s t : Store) : Prop where
  database : t.database = s.database
  connection : t.connection = s.connection
  files : t.disk.files = s.disk.files

theorem intact_counted (s : Store) (n : Nat) : Intact s (s.counted n) := ⟨rfl, rfl, rfl⟩

theorem Intact.clearCache (h : Intact s t) : Intact s t.clearCache :=
  ⟨h.database, h.connection, h.files⟩

/-! ## Work in a transaction of its own -/

theorem mutate_intact (hw : w.Orderly) (h : (s.mutate true w).1 = .error e) :
    Intact s (s.mutate true w).2 := by
  rcases s.mutate_cases true hw with ⟨e', n, he⟩ | ⟨_, _, _, _, _, hauto, _⟩ | ⟨c, _, _, _, _, hr, hok⟩
  · rw [he]
    exact s.intact_counted n
  · cases hauto
  · obtain ⟨a, ha⟩ := hok rfl
    rw [hr, ha] at h
    cases h

/-- Inside a transaction no other can begin. -/
theorem mutate_of_begun (hc : s.connection = some c) (ht : c.transaction ≠ .none) (w : Work α) :
    s.mutate true w = (.error (.mutation .alreadyBegun), s) := by
  simp only [mutate, hc, work, if_true, transact_of_begun ht]
  rfl

/-- Only an open transaction can be committed. -/
theorem begun_of_commit (h : s.commit.1 = .ok ()) :
    ∃ c, s.connection = some c ∧ c.transaction ≠ .none := by
  cases hc : s.connection with
  | none =>
      simp only [commit, hc] at h
      cases h
  | some c =>
      refine ⟨c, rfl, fun ht => ?_⟩
      simp only [commit, hc, commitOn, ht] at h
      cases h

theorem storeTags_of_begun (hc : s.connection = some c) (ht : c.transaction ≠ .none) {tags : List Tag}
    (hne : tags.isEmpty = false) (now : Int) :
    s.storeTags tags now true = (.error (.mutation .alreadyBegun), s.clearCache) := by
  simp only [storeTags, hne, Bool.false_eq_true, if_false, mutate_of_begun hc ht]

/-- A file that is found damaged is opened again; after any other error all is as it was. -/
theorem storeTags_intact {tags : List Tag} {now : Int} (h : (s.storeTags tags now true).1 = .error e)
    (he : e.isCorruption = false) : Intact s (s.storeTags tags now true).2 := by
  unfold storeTags at h ⊢
  split at h
  · cases h
  · rename_i hne
    simp only [hne] at h ⊢
    split at h
    · rename_i f hf
      simp only at h
      rw [hf] at h
      cases h
      cases he
    · exact (mutate_intact (Batch.orderly_store tags now) h).clearCache

end Store

/-! ## Calls with a transaction of their own -/

/-- The calls that write in a transaction of their own. -/
inductive Transacted where
  | storeTags (tags : List Tag) (now : Int)
  | deleteByFile (file : String)
  | storeMacros (macros : List Macro)
  | storeSimpleMacros (file : String) (names : List String)

namespace Transacted

/-- How a call ended, without what it answers. -/
def silent {α : Type} (o : Except StoreError α × Store) : Except StoreError Unit × Store :=
  (o.1.map fun _ => (), o.2)

def call (s : Store) : Transacted → Except StoreError Unit × Store
  | storeTags tags now => silent (s.storeTags tags now true)
  | deleteByFile file => silent (s.deleteByFile file true)
  | storeMacros macros => silent (s.storeMacros macros)
  | storeSimpleMacros file names => silent (s.storeSimpleMacros file names)

theorem silent_error {α : Type} {o : Except StoreError α × Store} {e : StoreError}
    (h : (silent o).1 = .error e) : o.1 = .error e := by
  obtain ⟨r, s⟩ := o
  cases r with
  | ok a => cases h
  | error e' =>
      cases h
      rfl

theorem call_intact {s : Store} {w : Transacted} {e : StoreError} (h : (w.call s).1 = .error e)
    (he : e.isCorruption = false) : s.Intact (w.call s).2 := by
  cases w with
  | storeTags tags now => exact Store.storeTags_intact (silent_error h) he
  | deleteByFile file =>
      exact (Store.mutate_intact (Batch.orderly_removeFile file) (silent_error h)).clearCache
  | storeMacros macros =>
      exact Store.mutate_intact (Batch.orderly_storeMacros macros) (silent_error h)
  | storeSimpleMacros file names =>
      exact Store.mutate_intact (Batch.orderly_storeSimpleMacros file names) (silent_error h)

/-- In an open transaction a call fails as it begins; an empty batch does not even begin. -/
theorem call_of_begun {s : Store} {c : Connection} (hc : s.connection = some c)
    (ht : c.transaction ≠ .none) (w : Transacted) :
    (w.call s).1 = .error (.mutation .alreadyBegun) ∨
      ∃ now, w = .storeTags [] now ∧ w.call s = (.ok (), s) := by
  cases w with
  | storeTags tags now =>
      cases hne : tags.isEmpty with
      | true =>
          obtain rfl := List.isEmpty_iff.mp hne
          exact .inr ⟨now, rfl, rfl⟩
      | false =>
          left
          simp only [call, Store.storeTags_of_begun hc ht hne]
          rfl
  | deleteByFile file =>
      left
      simp only [call, Store.deleteByFile, Store.mutate_of_begun hc ht]
      rfl
  | storeMacros macros =>
      left
      simp only [call, Store.storeMacros, Store.mutate_of_begun hc ht]
      rfl
  | storeSimpleMacros file names =>
      left
      simp only [call, Store.storeSimpleMacros, Store.mutate_of_begun hc ht]
      rfl

/-- A call that fails, at whatever statement, leaves all tables and counters as they were, unless it
found the file damaged. An open transaction makes it fail as it begins, and goes on with its writes. -/
theorem failed_write_undone (s : Store) (w : Transacted) :
    (∀ e, (w.call s).1 = .error e → e.isCorruption = false → s.Intact (w.call s).2) ∧
    ∀ c, s.connection = some c → c.transaction ≠ .none →
      s.Intact (w.call s).2 ∧
        ((w.call s).1 = .error (.mutation .alreadyBegun) ∨
          ∃ now, w = .storeTags [] now ∧ w.call s = (.ok (), s)) := by
  refine ⟨fun e h he => call_intact h he, fun c hc ht => ?_⟩
  have hcall := call_of_begun hc ht w
  refine ⟨?_, hcall⟩
  rcases hcall with h | ⟨_, _, h⟩
  · exact call_intact h rfl
  · rw [h]
    exact ⟨rfl, rfl, rfl⟩

/-- A batch of two files fails at its last tag, at its commit, and inside a transaction. -/
theorem failed_write_undone_late :
    let tag (file name : String) : Tag := { name, file, path := name, kind := "function" }
    let first : Transacted := .storeTags [tag "a.c" "f", tag "b.c" "g"] 0
    let second : Transacted := .storeTags [tag "a.c" "h", tag "b.c" "i"] 0
    let s := (first.call (Store.openPath {} "a.db").2).2
    let rejecting : Store := { s with disk := s.disk.reject "a.db" "i" }
    let committing : Store :=
      { s with disk := { s.disk with trouble := fun n => if n = s.disk.statements + 14 then some .locked else none } }
    let inside := (s.begin.2.storeTags [tag "c.c" "k"] 0 false).2
    let e : StoreError := .mutation .rejected
    let e' : StoreError := .mutation .locked
    let e'' : StoreError := .mutation .alreadyBegun
    s.database.tags.length = 2 ∧
    (second.call rejecting).1 = .error e ∧ rejecting.Intact (second.call rejecting).2 ∧
    (second.call committing).1 = .error e' ∧ committing.Intact (second.call committing).2 ∧
    inside.database.tags.length = 3 ∧
    (second.call inside).1 = .error e'' ∧ inside.Intact (second.call inside).2 := by
  intro tag first second s rejecting committing inside e e' e''
  have h : (second.call rejecting).1 = .error e := by decide +kernel
  have h' : (second.call committing).1 = .error e' := by decide +kernel
  have h'' : (second.call inside).1 = .error e'' := by decide +kernel
  obtain ⟨c, hc, ht⟩ := Store.begun_of_commit (s := inside) (by decide +kernel)
  exact ⟨by decide +kernel, h, (failed_write_undone rejecting second).1 e h rfl, h',
    (failed_write_undone committing second).1 e' h' rfl, by decide +kernel, h'',
    ((failed_write_undone inside second).2 c hc ht).1⟩

/-- A batch without tags is stored in an open transaction, for it begins none. -/
theorem empty_batch_in_transaction :
    let s := (Store.openPath {} "a.db").2.begin.2
    (∃ c, s.connection = some c ∧ c.transaction ≠ .none) ∧
      ((storeTags [] 0).call s).1 = .ok () := by
  intro s
  exact ⟨Store.begun_of_commit (by decide +kernel), by decide +kernel⟩

end Transacted
end TagIndex
