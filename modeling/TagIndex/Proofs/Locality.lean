import TagIndex.Proofs.Ceiling
import TagIndex.Proofs.Damage
import TagIndex.Proofs.Lasting

/-!
# Trouble on the way

A lookup learns of trouble only at the statements it comes to. Where two troubles agree on these, it goes the same
way, and what happens at later statements does not matter.
-/

namespace TagIndex

variable {α β : Type} {n n' : Nat} {trouble : Nat → Option Fault}

/-! ## Work -/

namespace Work

variable {w : Work α} {f : α → Work β}

/-- Where refusals agree on the statements that the work comes to, it goes the same way. -/
structure Confined (w : Work α) : Prop where
  forward : ∀ ρ n db, n ≤ (w ρ n db).next
  same : ∀ ρ ρ' n db, (∀ use m, n ≤ m → m < (w ρ n db).next → ρ' use m = ρ use m) → w ρ' n db = w ρ n db

theorem Confined.pure {a : α} : Confined (pure a : Work α) := ⟨fun _ _ _ => Nat.le_refl _, fun _ _ _ _ _ => rfl⟩

theorem Confined.bind (hw : w.Confined) (hf : ∀ a, (f a).Confined) : (w >>= f).Confined where
  forward ρ n db := by
    have hforward := hw.forward ρ n db
    rcases ho : w ρ n db with ⟨e | a, n', db'⟩ <;> rw [ho] at hforward
    · rw [bind_error ho]
      exact hforward
    · rw [bind_ok ho]
      exact Nat.le_trans hforward ((hf a).forward ρ n' db')
  same ρ ρ' n db h := by
    have hforward := hw.forward ρ n db
    have hsame := hw.same ρ ρ' n db
    rcases ho : w ρ n db with ⟨e | a, n', db'⟩ <;> rw [ho] at hforward hsame
    · rw [bind_error ho] at h ⊢
      rw [bind_error (hsame h)]
    · -- The first part goes the same way, so the rest starts at the same statement, from the same database.
      rw [bind_ok ho] at h ⊢
      have hnext : n' ≤ (f a ρ n' db').next := (hf a).forward ρ n' db'
      rw [bind_ok (hsame fun use m hle hlt => h use m hle (Nat.lt_of_lt_of_le hlt hnext))]
      exact (hf a).same ρ ρ' n' db' fun use m hle hlt => h use m (Nat.le_trans hforward hle) hlt

theorem Confined.statement {use : Use} {g : Database → Except Fault (α × Database)} : (statement use g).Confined where
  forward ρ n db := by
    rw [statement_next]
    exact Nat.le_succ n
  same ρ ρ' n db h := by
    rw [statement_next] at h
    simp only [Work.statement, h use n (Nat.le_refl n) (Nat.lt_succ_self n)]

theorem Confined.change {g : Database → Database} : (change g).Confined := .statement

theorem Confined.query {g : Database → Except Fault α} : (query g).Confined := .statement

theorem Confined.tried (hw : w.Confined) : w.tried.Confined where
  forward := hw.forward
  same ρ ρ' n db h := by rw [Work.tried, hw.same ρ ρ' n db h, Work.tried]

end Work

open Work in
theorem Schema.confined_ensure : Schema.ensure.Confined := by
  have htry : ∀ fs, (tryAll fs).Confined := by
    intro fs
    induction fs with
    | nil => exact .pure
    | cons f fs ih => exact .bind (.tried .change) fun _ => ih
  exact .bind (htry _) fun _ => .tried (.bind .change fun _ => .change)

/-! ## Disks -/

namespace Disk

variable {d e : Disk}

/-- Before the given statement the disk meets this trouble. -/
def MeetsUntil (d : Disk) (trouble : Nat → Option Fault) (n : Nat) : Prop :=
  ∀ m, d.statements ≤ m → m < n → trouble m = d.trouble m

/-- Before the given statement the disk meets no trouble. -/
def CalmUntil (d : Disk) (n : Nat) : Prop := d.MeetsUntil (fun _ => none) n

theorem MeetsUntil.mono (h : d.MeetsUntil trouble n') (hn : n ≤ n') : d.MeetsUntil trouble n :=
  fun m hle hlt => h m hle (Nat.lt_of_lt_of_le hlt hn)

theorem MeetsUntil.later (h : d.MeetsUntil trouble n) (hle : d.statements ≤ e.statements)
    (ht : e.trouble = d.trouble) : e.MeetsUntil trouble n :=
  fun m hm hlt => (h m (Nat.le_trans hle hm) hlt).trans (congrFun ht m).symm

/-- The disk when its statements meet other trouble. -/
def meeting (d : Disk) (trouble : Nat → Option Fault) : Disk := { d with trouble }

theorem follow_meeting (d : Disk) (trouble : Nat → Option Fault) (dir parts : List String) :
    (d.meeting trouble).follow dir parts = d.follow dir parts := by
  induction parts generalizing dir with
  | nil => rfl
  | cons p ps ih =>
      rw [follow, follow, ih, ih, ih]
      rfl

theorem prepare_meeting {p : Place} {db : Database} (h : d.MeetsUntil trouble (d.prepare p db).2.statements) :
    (d.meeting trouble).prepare p db = ((d.prepare p db).1, (d.prepare p db).2.meeting trouble) := by
  have hensure : Schema.ensure (fun _ n => trouble n) d.statements db =
      Schema.ensure (fun _ n => d.trouble n) d.statements db :=
    Schema.confined_ensure.same _ _ _ _ fun _ m hle hlt => h m hle hlt
  simp only [prepare, meeting, hensure]
  rfl

theorem connectFile_meeting {access : Access} {parts : List String}
    (h : ∀ opened, d.connectFile access parts = .ok opened → d.MeetsUntil trouble opened.2.statements) :
    (d.meeting trouble).connectFile access parts =
      (d.connectFile access parts).map fun opened => (opened.1, opened.2.meeting trouble) := by
  have hdirectory : (d.meeting trouble).isDirectory = d.isDirectory := rfl
  have hexists : (d.meeting trouble).isFile = d.isFile := rfl
  have hdatabase : (d.meeting trouble).database? = d.database? := rfl
  have hlocked : (d.meeting trouble).locked = d.locked := rfl
  revert h
  simp only [connectFile, hdirectory, hexists, hdatabase, hlocked]
  split
  · exact fun _ => rfl
  split
  · exact fun _ => rfl
  split
  · exact fun _ => rfl
  split
  · split
    · exact fun h => congrArg Except.ok (prepare_meeting (h _ rfl))
    · exact fun _ => rfl
  cases d.database? (.inside parts) with
  | none => exact fun _ => rfl
  | some db =>
      dsimp only
      split
      · exact fun _ => rfl
      · exact fun h => congrArg Except.ok (prepare_meeting (h _ rfl))

theorem connect_meeting {text : String} (h : ∀ opened, d.connect text = .ok opened →
    d.MeetsUntil trouble opened.2.statements) : (d.meeting trouble).connect text =
      (d.connect text).map fun opened => (opened.1, opened.2.meeting trouble) := by
  have hlocate : ∀ a, (d.meeting trouble).locate a = d.locate a := by
    intro a
    simp only [locate, follow_meeting]
  revert h
  unfold connect
  rcases Path.nullPosition? text with - | position
  · rcases Address.ofText text with fault | a
    · exact fun _ => rfl
    · dsimp only
      rw [hlocate]
      rcases d.locate a with - | ⟨parts⟩ | -
      · exact fun _ => rfl
      · exact connectFile_meeting
      · dsimp only
        split
        · exact fun _ => rfl
        · exact fun h => congrArg Except.ok (prepare_meeting (h _ rfl))
  · exact fun _ => rfl

end Disk

/-! ## Sessions -/

namespace Store

variable {s : Store} {c : Connection} {f : Database → Except Fault α}

/-- The store when its statements meet other trouble. -/
def meeting (s : Store) (trouble : Nat → Option Fault) : Store := { s with disk := { s.disk with trouble } }

theorem connect_meeting {path : String} (h : ∀ t, s.connect path = .ok t → s.disk.MeetsUntil trouble t.disk.statements) :
    (s.meeting trouble).connect path = (s.connect path).map (·.meeting trouble) := by
  have hdisk : (s.disk.meeting trouble).connect path =
      (s.disk.connect path).map fun opened => (opened.1, opened.2.meeting trouble) :=
    Disk.connect_meeting fun opened hopened => h { s with
      disk := opened.2, connection := some { toHandle := opened.1 }, path := some path } (by rw [connect, hopened])
  unfold connect
  rw [show (s.meeting trouble).disk.connect path = _ from hdisk]
  cases s.disk.connect path <;> rfl

theorem reopen_meeting (h : s.disk.MeetsUntil trouble s.reopen.2.disk.statements) :
    (s.meeting trouble).reopen.2 = s.reopen.2.meeting trouble := by
  cases hpath : s.path with
  | none =>
      have hpath' : (s.meeting trouble).path = none := hpath
      simp only [reopen, hpath, hpath']
  | some path =>
      have hpath' : (s.meeting trouble).path = some path := hpath
      have hdropped : (s.meeting trouble).dropped = s.dropped.meeting trouble := rfl
      rw [reopen_of_path hpath] at h ⊢
      rw [reopen_of_path hpath', hdropped, connect_meeting fun t ht => by rwa [ht] at h]
      cases s.dropped.connect path <;> rfl

theorem heal_meeting {e : Fault} (h : s.disk.MeetsUntil trouble (s.heal e).disk.statements) :
    (s.meeting trouble).heal e = (s.heal e).meeting trouble := by
  unfold heal at h ⊢
  split
  · rw [if_pos ‹_›] at h
    exact reopen_meeting h
  · rfl

theorem perform_query_meeting (h : trouble s.disk.statements = s.disk.trouble s.disk.statements) :
    (s.meeting trouble).perform c (Work.query f) =
      ((s.perform c (Work.query f)).1, (s.perform c (Work.query f)).2.meeting trouble) := by
  have hrefusals : ∀ use, (s.meeting trouble).refusals c use s.disk.statements = s.refusals c use s.disk.statements := by
    intro use
    have hdatabase : (s.meeting trouble).disk.database? c.place = s.disk.database? c.place := rfl
    simp only [refusals, hdatabase]
    rw [show (s.meeting trouble).disk.trouble s.disk.statements = _ from h]
    rfl
  have hout : (s.meeting trouble).outcome c (Work.query f) = s.outcome c (Work.query f) := by
    -- A query is one statement.
    refine Work.Confined.query.same _ _ _ _ fun use m hle hlt => ?_
    obtain rfl : m = s.disk.statements :=
      Nat.le_antisymm (Nat.le_of_lt_succ (by rwa [Work.query, Work.statement_next] at hlt)) hle
    exact hrefusals use
  have hkeeps : (s.meeting trouble).leavesAlone c (Work.query f) = s.leavesAlone c (Work.query f) := by
    rw [leavesAlone, hout]
    rw [show (s.meeting trouble).refusals c .reads (s.meeting trouble).disk.statements = _ from hrefusals .reads]
    rfl
  rw [perform_eq, perform_eq, hout, hkeeps]
  refine congrArg (Prod.mk _) ?_
  split
  · rfl
  split
  · rfl
  · split <;> rfl

end Store

/-! ## Lookups -/

open Store

namespace Lookup

variable {l : Lookup α} {f : α → Lookup β}

/-- Where troubles agree on the statements that the lookup comes to, it goes the same way. -/
structure Confined (l : Lookup α) : Prop where
  forward : ∀ s, s.disk.statements ≤ (l.run s).2.disk.statements
  trouble : ∀ s, (l.run s).2.disk.trouble = s.disk.trouble
  same : ∀ s trouble, s.disk.MeetsUntil trouble (l.run s).2.disk.statements →
    l.run (s.meeting trouble) = ((l.run s).1, (l.run s).2.meeting trouble)

theorem Confined.pure {a : α} : Confined (pure a : Lookup α) :=
  ⟨fun _ => Nat.le_refl _, fun _ => rfl, fun _ _ _ => rfl⟩

theorem Confined.get_bind {f : Store → Lookup α} (hsame : ∀ s trouble, f (s.meeting trouble) = f s)
    (hf : ∀ s, (f s).Confined) : Confined (get >>= f) where
  forward s := (hf s).forward s
  trouble s := (hf s).trouble s
  same s trouble h := (congrArg (·.run (s.meeting trouble)) (hsame s trouble)).trans ((hf s).same s trouble h)

theorem Confined.read {g : Store → α} (hg : ∀ s trouble, g (s.meeting trouble) = g s) :
    Confined (do return g (← get)) := .get_bind (fun s trouble => congrArg Pure.pure (hg s trouble)) fun _ => .pure

theorem Confined.bind (hl : l.Confined) (hf : ∀ a, (f a).Confined) : (l >>= f).Confined where
  forward s := Nat.le_trans (hl.forward s) ((hf _).forward _)
  trouble s := ((hf _).trouble _).trans (hl.trouble s)
  same s trouble h := by
    have hfirst : l.run (s.meeting trouble) = ((l.run s).1, (l.run s).2.meeting trouble) :=
      hl.same s trouble (h.mono ((hf _).forward _))
    rw [run_bind, run_bind, hfirst]
    exact (hf _).same _ trouble (h.later (hl.forward s) (hl.trouble s))

theorem confined_askDatabase (g : Database → Except Fault α) : (askDatabase g).Confined where
  forward s := s.askDatabase_statements g
  trouble s := (lasting_trouble (· = s.disk.trouble)).askDatabase rfl g
  same s trouble h := by
    cases hc : s.connection with
    | none =>
        show askDatabase g (s.meeting trouble) = ((askDatabase g s).1, (askDatabase g s).2.meeting trouble)
        simp only [askDatabase, hc, show (s.meeting trouble).connection = none from hc]
    | some c =>
        have hnext := askDatabase_next (f := g) hc
        have hperform : (s.meeting trouble).perform c (Work.query g) = _ :=
          perform_query_meeting (h _ (Nat.le_refl _) hnext)
        have hc' : (s.meeting trouble).connection = some c := hc
        change s.disk.MeetsUntil trouble (askDatabase g s).2.disk.statements at h
        show askDatabase g (s.meeting trouble) = ((askDatabase g s).1, (askDatabase g s).2.meeting trouble)
        simp only [askDatabase, hc, hc', hperform] at h ⊢
        have hcount : s.disk.statements ≤ (s.perform c (Work.query g)).2.disk.statements := by
          rw [perform_statements, query_next]
          exact Nat.le_succ _
        have htrouble : (s.perform c (Work.query g)).2.disk.trouble = s.disk.trouble :=
          (lasting_trouble (· = s.disk.trouble)).moves hc (perform_moves s c _) rfl
        rcases hp : s.perform c (Work.query g) with ⟨e | a, t⟩
        · -- Where the query failed, the file may be opened again, by statements that come after it.
          rw [hp] at h hcount htrouble
          dsimp only at h ⊢
          rw [heal_meeting (h.later hcount htrouble)]
        · rfl

theorem Confined.ite {p : Prop} [Decidable p] {l' : Lookup α} (h : l.Confined) (h' : l'.Confined) :
    Confined (if p then l else l') := by
  split
  · exact h
  · exact h'

theorem Confined.of_map {g : α → β} (hg : Function.Injective g) (h : (g <$> l).Confined) : l.Confined where
  forward := h.forward
  trouble := h.trouble
  same s trouble hmeets := by
    obtain ⟨hanswer, hstore⟩ := Prod.mk.inj (h.same s trouble hmeets)
    exact Prod.ext (hg hanswer) hstore

/-- What is read before, and kept after the database was asked, has nothing to do with trouble. -/
theorem confined_fetchKinds (q : Query) (kinds : List String) : (fetchKinds q kinds).Confined := by
  have hkeep : ∀ key rows, Confined (modify fun s : Store => { s with cache := s.cache.keep key rows }) :=
    fun _ _ => ⟨fun _ => Nat.le_refl _, fun _ => rfl, fun _ _ _ => rfl⟩
  refine .ite .pure (.get_bind (fun _ _ => rfl) fun s => ?_)
  split
  · exact .pure
  · refine .bind (confined_askDatabase q.run) fun answer => ?_
    cases answer with
    | none => exact .pure
    | some rows => exact .ite (.bind (hkeep _ _) fun _ => .pure) .pure

variable {A : List String → Prop}

/-- Whatever is made of fetches and of what the database is asked goes the same way. -/
theorem Made.confined (h : Made A l) : l.Confined := by
  induction h with
  | pure a => exact .pure
  | bind _ _ hl hf => exact .bind hl hf
  | limit => exact .read fun _ _ => rfl
  | test name isPartial => exact .read fun _ _ => rfl
  | fetch q hk => exact confined_fetchKinds q _
  | ask he => exact confined_askDatabase _

end Lookup

open Lookup in
/-- A question for tags goes the same way where troubles agree on the statements that it comes to. -/
theorem Question.confined_tags (question : Question) : question.tags.Confined := by
  have hreply : question.IsLookup → question.reply.Confined := fun h =>
    (Question.made_reply (A := fun _ => True) trivial h question.filtersBy_true).confined
  have hrows : Function.Injective Reply.rows := fun _ _ => Reply.rows.inj
  cases question
  case scopeAt | tagByNameLimitOne | dereferenceOperator | subscriptOperator | resolveTypeScope | typeAndScopeExists |
      files | filesMatching | filesForCompletion | getMacro | simpleMacrosForFile | statistics | schemaVersion =>
    exact .pure
  all_goals exact .of_map hrows (hreply trivial)

end TagIndex
