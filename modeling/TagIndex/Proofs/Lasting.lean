import TagIndex.Proofs.Connecting
import TagIndex.Proofs.Runs

/-!
# What lasts

A session changes by connecting and disconnecting, by its transaction, by work, and by its options and kept
answers. What all of these keep, every step keeps that is not another process's.
-/

namespace TagIndex

open Lookup

variable {α : Type} {J : Store → Prop} {s t : Store} {c : Connection} {db : Database} {path : String}

namespace Store

/-- A fact that nothing can change that happens to a session. -/
structure Lasting (J : Store → Prop) : Prop where
  connect : ∀ {s t path}, s.connect path = .ok t → J s → J t
  disconnect : ∀ {s t}, t.connection = none → t.disk = s.disk → J s → J t
  transaction : ∀ {s c} transaction, s.connection = some c → J s → J (s.withTransaction c transaction)
  moves : ∀ {s c db t}, s.connection = some c → Moves s c db t → J s → J t
  other : ∀ {s} options cache, J s → J { s with options, cache }

namespace Lasting

variable (hJ : Lasting J)

include hJ

theorem openPath (h : J s) (path : String) : J (s.openPath path).2 := by
  unfold Store.openPath
  split
  · exact h
  · dsimp only
    have hclosed : J (if s.isOpen then s.close else s) := by
      split
      · exact hJ.disconnect (s := s) rfl rfl h
      · exact h
    generalize (if s.isOpen then s.close else s) = t at *
    split
    · exact hJ.connect ‹_› hclosed
    · split
      · rename_i p _
        cases hp : t.connect p with
        | ok u => exact hJ.connect hp hclosed
        | error e => exact hclosed
      · exact hclosed

theorem reopen (h : J s) : J s.reopen.2 := by
  unfold Store.reopen
  split
  · exact h
  · dsimp only
    have hdropped : J { s with connection := none, cache := {} } :=
      hJ.disconnect (s := s) rfl rfl h
    split
    · exact hJ.connect ‹_› hdropped
    · exact hdropped

theorem heal (h : J s) (f : Fault) : J (s.heal f) := by
  unfold Store.heal
  split
  · exact hJ.reopen h
  · exact h

theorem begin (h : J s) : J s.begin.2 := by
  unfold Store.begin
  split
  · exact h
  · split
    · exact hJ.transaction .begun ‹_› h
    · exact h

theorem commit (h : J s) : J s.commit.2 := by
  unfold Store.commit
  split
  · exact h
  · rename_i c hc
    cases ht : c.transaction with
    | none => simpa only [commitOn, ht] using h
    | begun =>
        simp only [commitOn, ht]
        exact hJ.transaction .none hc h
    | working db =>
        rcases s.commitOn_working ht with ⟨n, hs⟩ | ⟨e, n, _, hs⟩ | ⟨n, hs⟩ <;> simp only [hs]
        · exact hJ.moves hc (.nothing n : Moves s c db _) h
        · exact hJ.moves hc (.takenBack n (by rw [ht]; exact Transaction.noConfusion) : Moves s c db _) h
        · exact hJ.moves (c := { c with transaction := .none }) rfl (.onDisk n rfl) (hJ.transaction .none hc h)

theorem rollback (h : J s) : J s.rollback.2 := by
  unfold Store.rollback
  split
  · exact h
  · rename_i c hc
    split
    · exact hJ.other _ _ h
    · have habandon : s.abandon = s.withTransaction c .none := by
        rw [abandon, hc]
        rfl
      rw [habandon]
      exact hJ.other _ _ (hJ.transaction .none hc h)

theorem mutate {w : Work α} (h : J s) (hw : w.Orderly) (auto : Bool) : J (s.mutate auto w).2 := by
  cases hc : s.connection with
  | none => simpa only [Store.mutate, hc] using h
  | some c =>
      obtain ⟨db, hm⟩ := mutate_moves hc auto hw
      exact hJ.moves hc hm h

theorem storeTags (h : J s) (tags : List Tag) (now : Int) (auto : Bool) :
    J (s.storeTags tags now auto).2 := by
  unfold Store.storeTags
  split
  · exact h
  · have hdone := hJ.mutate h (Batch.orderly_store tags now) auto
    have hcleared : J (s.mutate auto (Batch.store tags now)).2.clearCache := hJ.other _ _ hdone
    dsimp only
    split
    · exact hJ.reopen hcleared
    · exact hcleared

theorem askDatabase (h : J s) (f : Database → Except Fault α) : J ((Store.askDatabase f).run s).2 := by
  rcases s.askDatabase_cases f with ⟨a, c, hc, _, _, _, hm⟩ | ⟨_, hs | ⟨c, u, e, hc, hm, hs⟩⟩
  · exact hJ.moves hc hm h
  · rwa [hs]
  · rw [hs]
    exact hJ.heal (hJ.moves hc hm h) e

theorem ask (h : J s) (question : Question) : J (question.ask s) := by
  refine ask_keeps (A := fun _ => True) trivial (fun q kinds _ t ht => ?_) (fun hc hm ht => hJ.moves hc hm ht)
    (fun e ht => hJ.heal ht e) question.filtersBy_true h
  rcases t.fetchKinds_cases q kinds with hs | hs | ⟨rows, _, hs⟩ <;> rw [hs]
  · exact ht
  · exact hJ.askDatabase ht q.run
  · exact hJ.other _ _ (hJ.askDatabase ht q.run)

end Lasting
end Store

theorem Step.lasting (hJ : Store.Lasting J) (h : J s) {step : Step} (hown : ∀ disk, step ≠ outside disk) :
    J (step.act s) := by
  cases step with
  | openPath path => exact hJ.openPath h path
  | close => exact hJ.disconnect (s := s) rfl rfl h
  | reopen => exact hJ.reopen h
  | setBusyTimeout ms => exact hJ.other _ _ h
  | setSearchLimit limit => exact hJ.other _ _ h
  | setCaseSensitive on => exact hJ.other _ _ h
  | setUseCache on => exact hJ.other _ _ h
  | clearCache => exact hJ.other _ _ h
  | begin => exact hJ.begin h
  | commit => exact hJ.commit h
  | rollback => exact hJ.rollback h
  | storeTags tags now auto => exact hJ.storeTags h tags now auto
  | deleteByFile file auto => exact hJ.other _ _ (hJ.mutate h (Batch.orderly_removeFile file) auto)
  | clear => exact hJ.other _ _ (hJ.mutate h Batch.orderly_clear false)
  | insertFileEntry file time => exact hJ.mutate h .change false
  | updateFileEntry file time => exact hJ.mutate h .change false
  | deleteFileEntry file => exact hJ.mutate h .change false
  | storeMacros macros => exact hJ.mutate h (Batch.orderly_storeMacros macros) true
  | storeSimpleMacros file names => exact hJ.mutate h (Batch.orderly_storeSimpleMacros file names) true
  | ask question => exact hJ.ask h question
  | outside disk => exact absurd rfl (hown disk)
  | restart options => exact hJ.disconnect (s := s) rfl rfl h

/-! ## Trouble -/

/-- No statement meets trouble of its own. -/
def Disk.Calm (d : Disk) : Prop := ∀ n, d.trouble n = none

theorem Disk.calm_lock {d : Disk} (hd : d.Calm) (path : String) : (d.lock path).Calm := by
  unfold lock
  split <;> exact hd

theorem Disk.calm_unlock {d : Disk} (hd : d.Calm) : d.unlock.Calm := hd

theorem Disk.calm_connect {d d' : Disk} {h : Handle} (hc : d.connect path = .ok (h, d')) (hd : d.Calm) :
    d'.Calm := by
  intro n
  rw [(connect_refuses hc).2.2]
  exact hd n

/-- Without trouble a file refuses one statement as it refuses another. -/
theorem Store.refusals_calm (h : s.disk.Calm) (c : Connection) (use : Use) (n m : Nat) :
    s.refusals c use n = s.refusals c use m := by
  simp only [refusals, h n, h m]

/-- The trouble that statements meet lasts. -/
theorem Store.lasting_trouble (P : (Nat → Option Fault) → Prop) : Lasting fun s => P s.disk.trouble := by
  constructor
  case connect =>
    intro s t path h hs
    unfold Store.connect at h
    split at h
    · rename_i handle d' hd
      cases h
      exact (Disk.connect_refuses hd).2.2 ▸ hs
    · cases h
  case disconnect => exact fun _ hd hs => hd ▸ hs
  case transaction => exact fun _ _ hs => hs
  case moves =>
    intro s c db t _ hm hs
    cases hm <;> exact hs
  case other => exact fun _ _ hs => hs

theorem Store.lasting_calm : Lasting (·.disk.Calm) := lasting_trouble fun trouble => ∀ n, trouble n = none

/-- Only other processes bring trouble. -/
theorem Step.calm {step : Step} (h : s.disk.Calm) (hown : ∀ disk, step ≠ outside disk) :
    (step.act s).disk.Calm :=
  Step.lasting Store.lasting_calm h hown

theorem Step.calm_outside {disk : Disk} (h : disk.Calm) (s : Store) : ((outside disk).act s).disk.Calm := h

end TagIndex
