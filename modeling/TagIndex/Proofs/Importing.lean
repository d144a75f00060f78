import TagIndex.Command.Run
import TagIndex.Proofs.Composition
import TagIndex.Proofs.FailedOpen
import TagIndex.Proofs.InTurn
import TagIndex.Proofs.Totals

/-!
# Imports

An import stores the tags of all its files or of none, and stores them as if each file's were stored after the
other's.
-/

namespace TagIndex

open Store

variable {s t u : Store} {c : Connection} {paths : List String} {files : List TagFile} {now : Int}

/-! ## Reading during a transaction -/

namespace Disk

theorem visit_counted (d : Disk) (n : Nat) (dir parts : List String) :
    ({ d with statements := n } : Disk).visit dir parts = d.visit dir parts := by
  induction parts generalizing dir with
  | nil => rfl
  | cons p ps ih =>
      unfold visit
      rw [ih, ih, ih]
      rfl

end Disk

theorem StoreStats.empty_add (a : StoreStats) : StoreStats.add {} a = a := by
  simp only [add, Nat.zero_add]

theorem StoreStats.add_assoc (a b c : StoreStats) : (a.add b).add c = a.add (b.add c) := by
  simp only [add, Nat.add_assoc]

/-- What keeps the tags keeps them at every place. -/
theorem Store.mutate_index {α : Type} (s : Store) (auto : Bool) {w : Work α} (hw : w.Orderly)
    (hk : ∀ x, Work.Keeps (fun db => db.index = x) w) (p : Place) :
    ((s.mutate auto w).2.disk.tables p).index = (s.disk.tables p).index := by
  rcases s.mutate_cases auto hw with ⟨e, n, he⟩ | ⟨c, _, n, _, _, _, _, he⟩ | ⟨c, hc, _, hm, _⟩
  · rw [he]
    rfl
  · rw [he]
    rfl
  · generalize (s.mutate auto w).2 = t at hm
    cases hm with
    | nothing n => rfl
    | inTransaction n h => rfl
    | takenBack n h => rfl
    | onDisk n h =>
        show (((s.counted n).disk.put c.place _).tables p).index = _
        rw [Disk.tables_put]
        split
        · rename_i hp
          rw [hp, ← view_of_none h]
          exact (hk (s.view c).index).db rfl
        · rfl

namespace Import

/-- The tag file at a path, before its tags are completed. -/
def source? (d : Disk) (path : String) : Option TagFile :=
  ((d.readText path).toOption.bind Json.read).bind TagFile.ofJson?

def completed (f : TagFile) : List Tag := f.tags.map Tag.completed

theorem source?_within (h : Within s c t) (path : String) : source? t.disk path = source? s.disk path := by
  obtain ⟨n, hn⟩ := h.disk
  have hnode : t.disk.node path = s.disk.node path := by
    rw [hn]
    unfold Disk.node
    simp only [counted, Disk.visit_counted]
  simp only [source?, Disk.readText, hnode]

/-- A file is read, with its tags completed, or the import tells why not. -/
theorem readFile_cases (d : Disk) (path : String) :
    (∃ f, source? d path = none ∧ readFile d path = .error f) ∨
    ∃ file, source? d path = some file ∧ readFile d path = .ok { file with tags := completed file } := by
  unfold source? readFile TagFile.ofText?
  cases d.readText path with
  | error f => exact .inl ⟨_, rfl, rfl⟩
  | ok text =>
      cases hsource : (Json.read text).bind TagFile.ofJson? with
      | none => exact .inl ⟨.invalidTagFile path, hsource, by simp only [hsource, Option.map_none]⟩
      | some file => exact .inr ⟨file, hsource, by simp only [hsource, Option.map_some]; rfl⟩

/-! ## Storing tags -/

theorem storeFiles_bad (h : Within s c t) (hbad : ∃ path ∈ paths, source? s.disk path = none) (g : Gathered) :
    ∃ f, (storeFiles now paths g t).1 = .error f := by
  induction paths generalizing g t with
  | nil =>
      obtain ⟨path, hp, _⟩ := hbad
      cases hp
  | cons first paths ih =>
      unfold storeFiles
      rcases readFile_cases t.disk first with ⟨f, _, hr⟩ | ⟨file, hsource, hr⟩
      · rw [hr]
        exact ⟨f, rfl⟩
      rw [hr]
      rcases hs : t.storeTags (completed file) now false with ⟨e | stats, u⟩ <;> simp only [hs]
      · exact ⟨_, rfl⟩
      apply ih (h.storeTags hs)
      obtain ⟨path, hp, hnone⟩ := hbad
      rcases List.mem_cons.mp hp with rfl | hp
      · rw [← source?_within h, hsource] at hnone
        cases hnone
      · exact ⟨path, hp, hnone⟩

theorem storeFiles_opens (h : Within s c t) (paths : List String) (g : Gathered) :
    s.disk.Opens (storeFiles now paths g t).2.disk := by
  induction paths generalizing g t with
  | nil => exact h.leaves.opens
  | cons path paths ih =>
      unfold storeFiles
      cases hr : readFile t.disk path with
      | error f => exact h.leaves.opens
      | ok file =>
          have hopens := h.storeTags_opens file.tags now
          rcases hs : t.storeTags file.tags now false with ⟨e | stats, u⟩ <;> simp only [hs]
          · rwa [hs] at hopens
          · exact ih (h.storeTags hs) _

/-- The batches that tag files are stored as, all at one time. -/
def batches (now : Int) (files : List TagFile) : List (List Tag × Int) := files.map fun f => (completed f, now)

/-- Files that can all be read are stored as their batches in turn. -/
theorem storeFiles_read (h : Within s c t) (hread : paths.map (source? s.disk) = files.map some) (now : Int)
    (g : Gathered) :
    (∀ e, (t.storeEach false (batches now files)).1 = .error e → ∃ f, (storeFiles now paths g t).1 = .error f) ∧
    ∀ total, (t.storeEach false (batches now files)).1 = .ok total →
      ∃ g', g'.stats = g.stats.add total ∧
        storeFiles now paths g t = (.ok g', (t.storeEach false (batches now files)).2) := by
  -- By induction on the files, with whatever was gathered from those before.
  induction paths generalizing files g t with
  | nil =>
      cases List.map_eq_nil_iff.mp hread.symm
      refine ⟨nofun, fun total hok => ⟨g, ?_, rfl⟩⟩
      cases hok
      rfl
  | cons path paths ih =>
      obtain ⟨file, files, rfl, hfile, hrest⟩ := List.map_eq_cons_iff.mp hread.symm
      rcases readFile_cases t.disk path with ⟨_, hnone, _⟩ | ⟨file', hsource, hr⟩
      · rw [source?_within h, ← hfile] at hnone
        cases hnone
      rw [source?_within h, ← hfile] at hsource
      cases hsource
      unfold storeFiles
      rw [hr]
      rcases hs : t.storeTags (completed file) now false with ⟨e | stats, u⟩
      · have heach : t.storeEach false (batches now (file :: files)) = (.error e, u) := storeEach_cons_error hs
        rw [heach]
        simp only [hs]
        exact ⟨fun _ _ => ⟨_, rfl⟩, nofun⟩
      · have heach : t.storeEach false (batches now (file :: files)) =
            ((u.storeEach false (batches now files)).1.map stats.add, (u.storeEach false (batches now files)).2) :=
          storeEach_cons_ok hs
        rw [heach]
        simp only [hs]
        obtain ⟨herror, hok⟩ := ih (h.storeTags hs) hrest.symm
          { stats := g.stats.add stats
            macros := g.macros ++ file.macros
            simpleMacros := TagFile.setKeys file.simpleMacros g.simpleMacros }
        cases hr : (u.storeEach false (batches now files)).1 with
        | error e => exact ⟨fun _ _ => herror e hr, nofun⟩
        | ok rest =>
            refine ⟨nofun, fun total ht => ?_⟩
            obtain ⟨g', hg, hfiles⟩ := hok rest hr
            cases ht
            exact ⟨g', hg.trans (StoreStats.add_assoc _ _ _), hfiles⟩

/-- When files are not stored, the transaction is taken back. -/
theorem storeAllTags_of_error {f : Failure} (hb : s.begin = (.ok (), t))
    (hf : (storeFiles now paths {} t).1 = .error f) :
    (storeAllTags now paths s).1 = .error f ∧
      (storeAllTags now paths s).2.disk = (storeFiles now paths {} t).2.disk := by
  have hdisk : ∀ v : Store, v.rollback.2.disk = v.disk := by
    intro v
    unfold rollback
    split
    · rfl
    · split <;> rfl
  rcases hfiles : storeFiles now paths {} t with ⟨r, u⟩
  rw [hfiles] at hf
  cases hf
  simp only [storeAllTags, hb, hfiles, true_and]
  exact hdisk u

theorem storeAllTags_of_ok {g : Gathered} (hb : s.begin = (.ok (), t))
    (hf : storeFiles now paths {} t = (.ok g, u)) :
    (∀ e, u.commit.1 = .error e → (storeAllTags now paths s).1 = .error (.store e)) ∧
    (u.commit.1 = .ok () → (storeAllTags now paths s).1 = .ok g) ∧
    (storeAllTags now paths s).2 = u.commit.2 := by
  rcases hcommit : u.commit with ⟨e | r, v⟩
  · have hall : storeAllTags now paths s = (.error (.store e), v) := by
      simp only [storeAllTags, hb, hf, hcommit]
    rw [hall]
    refine ⟨?_, nofun, rfl⟩
    rintro _ ⟨⟩
    rfl
  · have hall : storeAllTags now paths s = (.ok g, v) := by
      simp only [storeAllTags, hb, hf, hcommit]
    rw [hall]
    exact ⟨nofun, fun _ => rfl, rfl⟩

/-! ## The whole import -/

theorem storeMacros_index (g : Gathered) (s : Store) (p : Place) :
    ((storeMacros g s).2.disk.tables p).index = (s.disk.tables p).index := by
  have hsimple : ∀ (simple : List (String × List String)) (t : Store),
      ((storeSimpleMacros simple t).2.disk.tables p).index = (t.disk.tables p).index := by
    intro simple
    induction simple with
    | nil => exact fun _ => rfl
    | cons entry simple ih =>
        obtain ⟨file, names⟩ := entry
        intro t
        have hfirst := t.mutate_index true (Batch.orderly_storeSimpleMacros file names)
          (fun x => Batch.keeps_storeSimpleMacros (fun _ _ h => h) (fun _ _ _ h => h) file names) p
        rw [← hfirst]
        unfold storeSimpleMacros Store.storeSimpleMacros
        rcases t.mutate true (Batch.storeSimpleMacros file names) with ⟨e | n, u⟩
        · rfl
        · exact ih u
  have hfirst := s.mutate_index true (Batch.orderly_storeMacros g.macros)
    (fun x => Batch.keeps_storeMacros (fun _ _ h => h) g.macros) p
  rw [← hfirst]
  unfold storeMacros Store.storeMacros
  rcases s.mutate true (Batch.storeMacros g.macros) with ⟨e | n, u⟩
  · rfl
  · rw [← hsimple g.simpleMacros u]
    dsimp only
    rcases storeSimpleMacros g.simpleMacros u with ⟨e | r, v⟩ <;> rfl

theorem run_of_error {f : Failure} (h : (storeAllTags now paths s).1 = .error f) :
    run now paths s = (.failed f, (storeAllTags now paths s).2) := by
  rcases hs : storeAllTags now paths s with ⟨r, t⟩
  rw [hs] at h
  cases h
  simp only [run, hs]

theorem run_of_ok {g : Gathered} (h : (storeAllTags now paths s).1 = .ok g) :
    (run now paths s).2 = (storeMacros g (storeAllTags now paths s).2).2 ∧
    ((run now paths s).1.failure = none →
      Output.TellsTotals (run now paths s).1.out paths.length g.stats) := by
  rcases hs : storeAllTags now paths s with ⟨r, t⟩
  rw [hs] at h
  cases h
  rcases hm : storeMacros g t with ⟨f | macros, u⟩
  · simp only [run, hs, hm, true_and]
    nofun
  · simp only [run, hs, hm, true_and]
    exact fun _ => Output.tellsTotals_summary paths.length g.stats macros

/-- Batches that are stored after one another, each in a transaction of its own, come to these sums and to the
rows, ids and projections on this disk whenever all of them are stored. Without trouble all of them are. -/
def ComesTo (s : Store) (batches : List (List Tag)) (total : StoreStats) (d : Disk) : Prop :=
  ∀ trouble calls, calls.map Prod.fst = batches →
    let v := (s.meeting trouble).storeEach true calls
    ((∀ n, trouble n = none) → v.1 = .ok total) ∧
    ∀ total', v.1 = .ok total' → total' = total ∧ ∀ p, (d.tables p).index = (v.2.disk.tables p).index

/-- The import tells of a failure, and the tables are what they were. -/
def Fails (d : Disk) (report : Report) (d' : Disk) : Prop := (∃ f, report = .failed f) ∧ d.Opens d'

theorem run_fails (hc : s.connection = some c) (ht : c.transaction = .none)
    (h : ∃ f, (storeFiles now paths {} s.begin.2).1 = .error f) :
    Fails s.disk (run now paths s).1 (run now paths s).2.disk := by
  obtain ⟨hb, hwithin⟩ := Within.begin hc ht
  obtain ⟨f, hf⟩ := h
  obtain ⟨hall, hdisk⟩ := storeAllTags_of_error (Prod.ext hb rfl) hf
  rw [run_of_error hall, hdisk]
  exact ⟨⟨f, rfl⟩, storeFiles_opens hwithin paths {}⟩

/-- What is on the disk once the transaction is committed is what the batches come to one by one. -/
theorem comesTo_of_storeEach (hc : s.connection = some c) (ht : c.transaction = .none) {total : StoreStats}
    (hu : s.begin.2.storeEach false (batches now files) = (.ok total, u)) {d : Disk}
    (hplace : (d.tables c.place).index = u.database.index)
    (hothers : ∀ p, p ≠ c.place → (d.tables p).index = (s.disk.tables p).index) :
    ComesTo s (files.map completed) total d := by
  intro trouble calls hcalls
  have hstart := Abreast.begin hc ht trouble
  have hsame : (batches now files).map Prod.fst = calls.map Prod.fst := by
    rw [hcalls, batches, List.map_map]
    rfl
  refine ⟨fun hcalm => ?_, fun total' htotal => ?_⟩
  · obtain ⟨v, hv, _⟩ := hstart.storeEach ht hsame hu (.inl hcalm)
    rw [hv]
  · obtain ⟨v, hv, hend⟩ := hstart.storeEach ht hsame hu (.inr ⟨total', _, Prod.ext htotal rfl⟩)
    rw [hv] at htotal ⊢
    cases htotal
    refine ⟨rfl, fun p => ?_⟩
    by_cases hp : p = c.place
    · have hv' : v.disk.tables c.place = v.database := by
        rw [database_eq hend.connection, view_of_none ht]
      rw [hp, hplace, hv']
      exact Database.index_eq_iff.mpr ⟨hend.same.tags, hend.same.globalTable, hend.same.lastTagId⟩
    · rw [hothers p hp, hend.others p hp]

/-- An import of files that can all be read fails if a batch is not stored or the commit is refused. Else the
batches are on the disk as if they were stored after one another. -/
theorem run_of_read (hc : s.connection = some c) (ht : c.transaction = .none)
    (hread : paths.map (source? s.disk) = files.map some) (now : Int) :
    let r := run now paths s
    let u := s.begin.2.storeEach false (batches now files)
    (∀ e, u.1 = .error e ∨ u.2.commit.1 = .error e → Fails s.disk r.1 r.2.disk) ∧
    ∀ total, u.1 = .ok total → u.2.commit.1 = .ok () →
      (r.1.failure = none → Output.TellsTotals r.1.out paths.length total) ∧
      ComesTo s (files.map completed) total r.2.disk := by
  intro r u
  obtain ⟨hb, hwithin⟩ := Within.begin hc ht
  obtain ⟨herror, hok⟩ := storeFiles_read hwithin hread now {}
  cases hu : u.1 with
  | error e => exact ⟨fun _ _ => run_fails hc ht (herror e hu), nofun⟩
  | ok total =>
      obtain ⟨g, hg, hfiles⟩ := hok total hu
      rw [StoreStats.empty_add] at hg
      obtain ⟨hrefused, hstored, hall⟩ := storeAllTags_of_ok (Prod.ext hb rfl) hfiles
      have hafter : Within s c u.2 := hwithin.storeEach (Prod.ext hu rfl)
      rcases hafter.commit with ⟨e, he, hleaves⟩ | ⟨hcommit, hplace, hothers⟩
      · -- A refused commit leaves the transaction open, and nothing of it has reached the disk.
        refine ⟨fun _ _ => ?_, fun _ _ hcommit => ?_⟩
        · show Fails s.disk (run now paths s).1 (run now paths s).2.disk
          rw [run_of_error (hrefused e he), hall]
          exact ⟨⟨_, rfl⟩, hleaves.opens⟩
        · cases he.symm.trans hcommit
      · refine ⟨fun e hor => ?_, fun total' htotal _ => ?_⟩
        · rcases hor with hor | hor
          · cases hor
          · cases hcommit.symm.trans hor
        · cases htotal
          obtain ⟨hrun, hprinted⟩ := run_of_ok (hstored hcommit)
          rw [hg] at hprinted
          have hindex : ∀ p, (r.2.disk.tables p).index = (u.2.commit.2.disk.tables p).index := by
            intro p
            rw [hrun, storeMacros_index, hall]
          refine ⟨hprinted, comesTo_of_storeEach hc ht (Prod.ext hu rfl) ?_ fun p hp => ?_⟩
          · rw [hindex, hplace]
          · rw [hindex, hothers p hp]

end Import

/-! ## From the command line -/

namespace Invocation

open Import

variable {i : Invocation} {env : Environment} {user : Option String} {d d' : Disk}

theorem openPath_ok_of_new {path : String} (hc : s.connection = none) (h : s.openPath path = (.ok (), t)) :
    s.connect path = .ok t := by
  have hopen : s.isOpen = false := by rw [isOpen, hc]; rfl
  simp only [openPath, hopen, Bool.false_and, Bool.false_eq_true, if_false] at h
  cases hcon : s.connect path with
  | ok u =>
      simp only [hcon] at h
      cases h
      rfl
  | error reason =>
      simp only [hcon] at h
      cases h

theorem openStore_openPath (h : i.openStore env user d = (.ok s, d')) :
    ∃ options path, Store.openPath { disk := d, options } path = (.ok (), s) := by
  unfold openStore at h
  split at h
  · cases h
  dsimp only at h
  split at h
  · cases h
  · rename_i settings _ _ t ht
    cases h
    exact ⟨settings.options, _, ht⟩

/-- A database that could be opened is idle, and its tables are as they were. -/
theorem openStore_ok (h : i.openStore env user d = (.ok s, d')) :
    (∃ c, s.connection = some c ∧ c.transaction = .none) ∧ d.Opens s.disk := by
  obtain ⟨_, _, hopen⟩ := openStore_openPath h
  exact connect_idle (openPath_ok_of_new rfl hopen)

theorem openStore_error {f : Failure} (h : i.openStore env user d = (.error f, d')) : d' = d := by
  unfold openStore at h
  split at h
  · cases h
    rfl
  · dsimp only at h
    split at h
    · rename_i settings _ e t ht
      cases h
      have hnew := openPath_error_of_new (congrArg Prod.fst ht) rfl rfl
      rw [ht] at hnew
      exact congrArg Store.disk hnew
    · cases h

/-- An import whose paths lead nowhere, or whose database cannot be opened, fails and changes nothing. One that has
a file that cannot be read or is no tag file, or a batch that is not stored, fails and leaves all tables as they
were. Any other puts the tags there that its batches come to when they are stored one after another, and prints
their sums unless its macros are not stored. -/
theorem import_all_or_nothing {noCache : Bool} (hi : i.command = .take paths noCache) (env : Environment)
    (user : Option String) (now : Int) (d : Disk) :
    let r := i.run env user now d
    (∀ f, Import.inputs d paths = .error f → r = (.failed f, d)) ∧
    (Import.inputs d paths = .ok [] → r = (.printed "! No tag files found\n", d)) ∧
    ∀ inputs, inputs ≠ [] → Import.inputs d paths = .ok inputs →
      (∀ f d', i.openStore env user d = (.error f, d') → r = (.failed f, d)) ∧
      ∀ opened d', i.openStore env user d = (.ok opened, d') →
        let s := if noCache then opened.setUseCache false else opened
        ((∃ path ∈ inputs, source? s.disk path = none) → Fails d r.1 r.2) ∧
        ∀ files, inputs.map (source? s.disk) = files.map some →
          let u := s.begin.2.storeEach false (batches now files)
          (∀ e, u.1 = .error e ∨ u.2.commit.1 = .error e → Fails d r.1 r.2) ∧
          ∀ total, u.1 = .ok total → u.2.commit.1 = .ok () →
            (r.1.failure = none → Output.TellsTotals r.1.out inputs.length total) ∧
            ComesTo s (files.map completed) total r.2 := by
  intro r
  refine ⟨fun f hf => ?_, fun hnone => ?_, fun inputs hne hin => ?_⟩
  · simp only [r, Invocation.run, hi, hf]
  · simp only [r, Invocation.run, hi, hnone]
  have hr : r = i.runOpened env user now inputs d := by
    cases inputs with
    | nil => exact absurd rfl hne
    | cons path inputs => simp only [r, Invocation.run, hi, hin]
  refine ⟨fun f d' ho => ?_, fun opened d' ho => ?_⟩
  · rw [hr, runOpened, ho, openStore_error ho]
  intro s
  obtain ⟨⟨c, hc, ht⟩, hopens⟩ := openStore_ok ho
  have hrun : r = ((Import.run now inputs s).1, (Import.run now inputs s).2.disk) := by
    rw [hr, runOpened, ho]
    simp only [hi, Command.runOn, s]
  have hs : s.connection = some c ∧ s.disk = opened.disk := by
    cases noCache <;> exact ⟨hc, rfl⟩
  rw [← hs.2] at hopens
  have hfails : Fails s.disk (Import.run now inputs s).1 (Import.run now inputs s).2.disk → Fails d r.1 r.2 := by
    rw [hrun]
    exact fun ⟨hf, hd⟩ => ⟨hf, hopens.trans hd⟩
  refine ⟨fun hbad => ?_, fun files hread => ?_⟩
  · exact hfails (run_fails hs.1 ht (storeFiles_bad (Within.begin hs.1 ht).2 hbad {}))
  · intro u
    obtain ⟨hno, hall⟩ := run_of_read hs.1 ht hread now
    rw [hrun]
    exact ⟨fun e he => hrun ▸ hfails (hno e he), hall⟩

theorem openStore_of_isOk (h : (i.openStore env user d).1.isOk) :
    i.openStore env user d =
      (.ok ((i.openStore env user d).1.toOption.getD default), (i.openStore env user d).2) := by
  rcases ho : i.openStore env user d with ⟨e | s, d'⟩
  · rw [ho] at h
    cases h
  · rfl

/-- Two files are about one source, whose tag keeps its id through both. With a third one that is no tag file,
the database stays as it is. -/
theorem import_all_or_nothing_two_files :
    let tag (name : String) : Tag := { name, file := "a.c", kind := "enum", scope := globalScope, path := name }
    let d := (((Disk.put {} (.inside ["tags.db"]) (.database { tags := [⟨7, tag "f"⟩], lastTagId := 7 })).write
      "a.json" "[[0,\"f\",\"a.c\",0,\"enum\"]]").write
      "b.json" "[[0,\"g\",\"a.c\",0,\"enum\"],[0,\"f\",\"a.c\",0,\"enum\"]]").write "c.json" "["
    let take (paths : List String) : Invocation := { command := .take paths true, database := some "tags.db" }
    let good := (take ["a.json", "b.json"]).run {} none 0 d
    let bad := (take ["a.json", "b.json", "c.json"]).run {} none 0 d
    let s := (((take ["a.json", "b.json"]).openStore {} none d).1.toOption.getD default).setUseCache false
    good.1 = .printed
      "✓ Imported 2 tag file(s)\n  Source files:  2\n  Tags stored:   3\n  Tags replaced: 2\n" ∧
    Output.TellsTotals good.1.out 2 ⟨2, 2, 3, 0⟩ ∧
    (good.2.tables (.inside ["tags.db"])).tags = [⟨7, tag "f"⟩, ⟨8, tag "g"⟩] ∧
    ComesTo s [[tag "f"], [tag "g", tag "f"]] ⟨2, 2, 3, 0⟩ good.2 ∧
    bad.1 = .failed (.invalidTagFile "c.json") ∧ d.Opens bad.2 := by
  intro tag d take good bad s
  have htake : ∀ paths, (take paths).command = .take paths true := fun _ => rfl
  let written (name : String) : Tag := { name, file := "a.c", kind := "enum" }
  let files : List TagFile := [{ tags := [written "f"] }, { tags := [written "g", written "f"] }]
  have hread : ["a.json", "b.json"].map (source? s.disk) = files.map some := by decide +kernel
  have hbatches : files.map completed = [[tag "f"], [tag "g", tag "f"]] := by
    decide +kernel
  have hgood : Output.TellsTotals good.1.out 2 ⟨2, 2, 3, 0⟩ ∧ ComesTo s (files.map completed) ⟨2, 2, 3, 0⟩ good.2 := by
    obtain ⟨_, _, hinputs⟩ := import_all_or_nothing (htake ["a.json", "b.json"]) {} none 0 d
    obtain ⟨_, hopened⟩ := hinputs ["a.json", "b.json"] nofun (by decide +kernel)
    obtain ⟨_, hstored⟩ := hopened _ _ (openStore_of_isOk (by decide +kernel))
    obtain ⟨htells, hcomes⟩ := (hstored files hread).2 ⟨2, 2, 3, 0⟩ (by decide +kernel) (by decide +kernel)
    exact ⟨htells (by decide +kernel), hcomes⟩
  refine ⟨by decide +kernel, hgood.1, by decide +kernel, hbatches ▸ hgood.2, by decide +kernel, ?_⟩
  · obtain ⟨_, _, hinputs⟩ := import_all_or_nothing (htake ["a.json", "b.json", "c.json"]) {} none 0 d
    obtain ⟨_, hopened⟩ := hinputs ["a.json", "b.json", "c.json"] nofun (by decide +kernel)
    obtain ⟨hbad, _⟩ := hopened _ _ (openStore_of_isOk (by decide +kernel))
    exact (hbad ⟨"c.json", by decide, by decide +kernel⟩).2

end Invocation
end TagIndex
