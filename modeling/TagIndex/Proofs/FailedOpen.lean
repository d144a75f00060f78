import TagIndex.Proofs.Serving

/-!
# Failed opens

An open that fails connects to the path before again. What a transaction had written is lost with the
connection before, and a session that had kept its path without a connection has one again; in all other
cases every question is answered as before.
-/

namespace TagIndex

namespace Store

variable {s t : Store} {c : Connection} {path : String}

/-! ## Connections to the session's path -/

/-- What the session is connected to, if it is. -/
def handle? (s : Store) : Option Handle := s.connection.map (·.toHandle)

/-- A session that is connected is so to its path. -/
def OnPath (s : Store) : Prop :=
  ∀ h, s.handle? = some h → ∃ path d d', s.path = some path ∧ Disk.connect d path = .ok (h, d')

theorem onPath_of_none (h : s.connection = none) : s.OnPath := by
  intro _ hh
  rw [handle?, h] at hh
  cases hh

theorem OnPath.of_same (hs : s.OnPath) (hh : t.handle? = s.handle?) (hp : t.path = s.path) :
    t.OnPath := by
  intro h hc
  rw [hp]
  exact hs h (hh ▸ hc)

theorem onPath_connect (h : s.connect path = .ok t) : t.OnPath := by
  unfold connect at h
  split at h
  · rename_i handle d' hd
    cases h
    rintro _ ⟨⟩
    exact ⟨path, s.disk, d', rfl, hd⟩
  · cases h

theorem lasting_onPath : Lasting OnPath := by
  have htransaction : ∀ {s : Store} {c : Connection} t, s.connection = some c →
      (s.withTransaction c t).handle? = s.handle? := by
    intro s c t hc
    rw [handle?, handle?, hc]
    rfl
  constructor
  case connect => exact fun h _ => onPath_connect h
  case disconnect => exact fun hc _ _ => onPath_of_none hc
  case transaction => exact fun t hc hs => hs.of_same (htransaction t hc) rfl
  case moves =>
    intro s c db t hc hm hs
    cases hm with
    | nothing n => exact hs
    | onDisk n _ => exact hs
    | inTransaction n _ => exact hs.of_same (htransaction (.working db) hc) rfl
    | takenBack n _ => exact hs.of_same (htransaction .none hc) rfl
  case other => exact fun _ _ hs => hs

/-- Nothing that other processes do leads a session off its path. -/
theorem OnPath.act (hs : s.OnPath) (step : Step) : (step.act s).OnPath := by
  by_cases hown : ∀ disk, step ≠ .outside disk
  · exact Step.lasting lasting_onPath hs hown
  · push Not at hown
    obtain ⟨disk, rfl⟩ := hown
    exact hs

theorem Reachable.onPath (h : s.Reachable) : s.OnPath := by
  induction h with
  | new h _ => exact onPath_of_none h.connection
  | next step _ _ _ ih => exact ih.act step

theorem OnPath.exists_path (hs : s.OnPath) (hc : s.connection = some c) : ∃ path, s.path = some path := by
  obtain ⟨path, _, _, hpath, _⟩ := hs c.toHandle (by rw [handle?, hc]; rfl)
  exact ⟨path, hpath⟩

theorem OnPath.connection_eq_none (hs : s.OnPath) (hp : s.path = none) : s.connection = none := by
  by_contra hne
  obtain ⟨c, hc⟩ := Option.ne_none_iff_exists'.mp hne
  obtain ⟨path, hpath⟩ := hs.exists_path hc
  rw [hp] at hpath
  cases hpath

/-- Connecting to the path again leads to the same place, and with the same access. -/
theorem OnPath.eq_toHandle (hs : s.OnPath) (hc : s.connection = some c) (hp : s.path = some path)
    {d d' : Disk} {h : Handle} (hd : d.connect path = .ok (h, d')) : h = c.toHandle := by
  obtain ⟨path', _, _, hpath, hbefore⟩ := hs c.toHandle (by rw [handle?, hc]; rfl)
  obtain rfl : path = path' := Option.some.inj (hp.symm.trans hpath)
  exact Disk.connect_agrees hd hbefore

end Store

/-! ## What a failed open leaves -/

/-- The file of a path can be connected to and is as a session leaves it, and it refuses no statement. -/
structure Disk.Unharmed (d : Disk) (path : String) : Prop where
  connects : (d.connect path).toOption.any fun (h, d') =>
    d'.database? h.place = d.database? h.place ∧ d.locked.contains h.place = false
  calm : d.Calm

theorem Disk.Unharmed.connect {d : Disk} {path : String} (hd : d.Unharmed path) :
    ∃ h d', d.connect path = .ok (h, d') ∧ d'.database? h.place = d.database? h.place ∧
      d.locked.contains h.place = false := by
  have hconnects := hd.connects
  cases hc : d.connect path with
  | error e => simp [hc, Except.toOption] at hconnects
  | ok r => exact ⟨r.1, r.2, rfl, by simpa [hc, Except.toOption] using hconnects⟩

namespace Store

open Query

variable {s t : Store} {c : Connection} {path p : String} {e : StoreError} {h : Handle} {d' : Disk}

/-- The store after it has connected to its path again. -/
def reconnected (s : Store) (h : Handle) (d' : Disk) : Store :=
  { s with
    disk := d'
    connection := some { toHandle := h }
    cache := if s.isOpen then {} else s.cache }

theorem openPath_error (he : (s.openPath path).1 = .error e) (hp : s.path = some p)
    (hc : s.disk.connect p = .ok (h, d')) : (s.openPath path).2 = s.reconnected h d' := by
  obtain ⟨disk, options, connection, _, cache⟩ := s
  cases hp
  change disk.connect p = _ at hc
  unfold openPath at he ⊢
  split at he
  · cases he
  · rw [if_neg ‹_›]
    dsimp only at he ⊢
    split at he
    · cases he
    · cases connection with
      | none => simp [connect, hc, reconnected, isOpen, Except.toOption]
      | some c => simp [connect, hc, reconnected, isOpen, close, Except.toOption]

theorem openPath_error_of_new (he : (s.openPath path).1 = .error e) (hp : s.path = none)
    (hc : s.connection = none) : (s.openPath path).2 = s := by
  have hopen : s.isOpen = false := by rw [isOpen, hc]; rfl
  unfold openPath at he ⊢
  simp only [hopen, hp] at he ⊢
  cases hcon : s.connect path with
  | ok t => simp [hcon] at he
  | error reason => simp [hcon]

theorem reconnected_database (hd : d'.database? h.place = s.disk.database? h.place) :
    (s.reconnected h d').database = s.disk.tables h.place := by
  show (d'.database? h.place).getD {} = _
  rw [hd]
  rfl

theorem reconnected_steady (hc : s.disk.connect p = .ok (h, d'))
    (hfree : s.disk.locked.contains h.place = false) (hcalm : s.disk.Calm) :
    (s.reconnected h d').Steady := by
  obtain ⟨hsome, hlocked, _⟩ := Disk.connect_refuses hc
  exact ⟨_, rfl, reads_unrefused_iff.mpr ⟨hlocked ▸ hfree, hsome, Disk.calm_connect hc hcalm⟩⟩

/-- A failed open leaves the path, and the session is open exactly if it has one. It sees what the disk has:
writes of a transaction are lost. If it was open before or had no path, and had nothing uncommitted, it
answers every question as it did. -/
theorem failed_open_reconnects (hs : s.Reachable) (he : (s.openPath path).1 = .error e)
    (hd : ∀ p, s.path = some p → s.disk.Unharmed p) :
    let t := (s.openPath path).2
    t.path = s.path ∧ t.isOpen = s.path.isSome ∧
    (∀ c, s.connection = some c →
      t.connection = some { toHandle := c.toHandle } ∧ t.database = s.disk.tables c.place) ∧
    ((s.path.isSome → s.isOpen) → (∀ c, s.connection = some c → s.database = s.disk.tables c.place) →
      s.FreshBy PlainKinds → ∀ question : Question, question.FiltersBy PlainKinds →
        (question.reply.run t).1 = (question.reply.run s).1) := by
  intro t
  have hon := hs.onPath
  cases hp : s.path with
  | none =>
      have hc := hon.connection_eq_none hp
      have ht : t = s := openPath_error_of_new he hp hc
      rw [ht, hc]
      exact ⟨hp, by rw [isOpen, hc]; rfl, nofun, fun _ _ _ _ _ => rfl⟩
  | some p =>
      obtain ⟨h, d', hconnect, hsame, hfree⟩ := (hd p hp).connect
      have hcalm := (hd p hp).calm
      have ht : t = s.reconnected h d' := openPath_error he hp hconnect
      rw [ht]
      have hsees := reconnected_database hsame
      refine ⟨hp, rfl, fun c hc => ?_, fun hopen hall hf question hq => ?_⟩
      · obtain rfl := hon.eq_toHandle hc hp hconnect
        exact ⟨rfl, hsees⟩
      · obtain ⟨c, hc⟩ := Option.isSome_iff_exists.mp (hopen rfl)
        obtain rfl := hon.eq_toHandle hc hp hconnect
        -- Both stores serve the tables that the disk has, so no question tells one from the other.
        have hfound := hsame ▸ (Disk.connect_refuses hconnect).1
        have hforgets : (s.reconnected c.toHandle d').cache.entries = [] := by
          rw [reconnected, if_pos (hopen rfl)]
        have hbefore : s.Serves PlainKinds s.options s.database :=
          ⟨⟨c, hc, reads_unrefused_iff.mpr ⟨hfree, hfound, hcalm⟩⟩, hf.isCurrentBy (List.forall_mem_nil _), rfl, rfl⟩
        have hafter : (s.reconnected c.toHandle d').Serves PlainKinds s.options s.database :=
          ⟨reconnected_steady hconnect hfree hcalm, .of_empty hforgets, rfl, hsees.trans (hall c hc).symm⟩
        exact Question.reply_agrees hafter hbefore hq

/-- A quiet session answers as before. One with a row that is not committed loses it, and one that could not
reopen its file is open on it again. -/
theorem failed_open_reconnects_states :
    let tag (name : String) : Tag := { name, file := name, kind := "function", path := name }
    let quiet := Step.act (Step.act {} (.openPath "tags.db")) (.storeTags [tag "x"] 0 true)
    let busy := Step.act (Step.act quiet .begin) (.storeTags [tag "y"] 0 false)
    let refused := Step.act (Step.act quiet (.outside (quiet.disk.lock "tags.db"))) .reopen
    let closed := Step.act refused (.outside refused.disk.unlock)
    let failed (s : Store) := (s.openPath "missing/x.db").2
    let question := Question.tagsByName "x" false
    (question.reply.run (failed quiet)).1 = (question.reply.run quiet).1 ∧
    busy.database.tags = [⟨1, tag "x"⟩, ⟨2, tag "y"⟩] ∧ (failed busy).database.tags = [⟨1, tag "x"⟩] ∧
    closed.isOpen = false ∧ (failed closed).isOpen = true := by
  intro tag quiet busy refused closed failed question
  have hquiet : quiet.Reachable := reachable_stored "tags.db" [tag "x"]
  have hbusy : busy.Reachable :=
    .next (.storeTags [tag "y"] 0 false) (.next .begin hquiet trivial trivial) trivial trivial
  have hclosed : closed.Reachable :=
    .next (.outside refused.disk.unlock) (.next .reopen
      (.next (.outside (quiet.disk.lock "tags.db")) hquiet (Disk.leaves_lock _ _) trivial) trivial trivial)
      (Disk.leaves_unlock _) trivial
  have hcalm : quiet.disk.Calm := Step.calm (Step.calm (fun _ => rfl) nofun) nofun
  have hrefused : refused.disk.Calm := Step.calm (Step.calm_outside (Disk.calm_lock hcalm _) _) nofun
  have hcalm' : closed.disk.Calm := Step.calm_outside (Disk.calm_unlock hrefused) _
  have hq : quiet.disk.Unharmed "tags.db" := ⟨by decide +kernel, hcalm⟩
  have hb : busy.disk.Unharmed "tags.db" := ⟨by decide +kernel, Step.calm (Step.calm hcalm nofun) nofun⟩
  have hc : closed.disk.Unharmed "tags.db" := ⟨by decide +kernel, hcalm'⟩
  have hpath : quiet.path = some "tags.db" ∧ busy.path = some "tags.db" ∧ closed.path = some "tags.db" := by
    decide +kernel
  have hstored : quiet.connection.all fun c => quiet.database = quiet.disk.tables c.place := by
    decide +kernel
  have hlost : busy.connection.all fun c => (busy.disk.tables c.place).tags = [⟨1, tag "x"⟩] := by
    decide +kernel
  let e : StoreError := .cannotOpen "missing/x.db" .unopenable
  have hq' : (quiet.openPath "missing/x.db").1 = .error e := by decide +kernel
  have hb' : (busy.openPath "missing/x.db").1 = .error e := by decide +kernel
  have hc' : (closed.openPath "missing/x.db").1 = .error e := by decide +kernel
  obtain ⟨_, _, _, hsame⟩ := failed_open_reconnects hquiet hq' fun p hp =>
    Option.some.inj (hpath.1.symm.trans hp) ▸ hq
  obtain ⟨_, _, hsees, _⟩ := failed_open_reconnects hbusy hb' fun p hp =>
    Option.some.inj (hpath.2.1.symm.trans hp) ▸ hb
  obtain ⟨_, hopen, _⟩ := failed_open_reconnects hclosed hc' fun p hp =>
    Option.some.inj (hpath.2.2.symm.trans hp) ▸ hc
  refine ⟨hsame (fun _ => by decide +kernel) (fun c hc => ?_) (.empty (by decide +kernel)) question trivial,
    by decide +kernel, ?_, by decide +kernel, ?_⟩
  · exact of_decide_eq_true (Option.all_eq_true _ _ |>.mp hstored c hc)
  · obtain ⟨c, hc⟩ : ∃ c, busy.connection = some c := Option.isSome_iff_exists.mp (by decide +kernel)
    rw [show (failed busy).database = _ from (hsees c hc).2]
    exact of_decide_eq_true (Option.all_eq_true _ _ |>.mp hlost c hc)
  · rw [show (failed closed).isOpen = _ from hopen, hpath.2.2]
    rfl

end Store
end TagIndex
