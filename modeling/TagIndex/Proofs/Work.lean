import TagIndex.Database.Work

/-!
# What work does

A triple says where work leaves the database, also when one of its statements is refused. Orderly
work touches the database by its statements alone, and candid work tells of damage, or of what ends a
transaction, only if one of them was refused for it.
-/

namespace TagIndex

/-- The faults after which a session does not go on as before: the file is damaged, or what was written in a
transaction is gone. -/
def Fault.disturbs (f : Fault) : Bool := f.isDamage || f.endsTransaction

theorem Fault.disturbs_eq_false {f : Fault} : f.disturbs = false ↔ f.isDamage = false ∧ f.endsTransaction = false :=
  Bool.or_eq_false_iff

namespace Work

variable {α β : Type} {P P' : Database → Prop} {Q Q' R : α → Database → Prop}
  {S : β → Database → Prop} {E E' I : Database → Prop} {w : Work α} {f : α → Work β}

/-! ## Triples -/

/-- From where `P` holds, work comes to where `Q` holds of its result, or to where `E` holds if it
fails. -/
def Meets (P : Database → Prop) (w : Work α) (Q : α → Database → Prop) (E : Database → Prop) :
    Prop :=
  ∀ ρ n db, P db →
    match w ρ n db with
    | ⟨.ok a, _, db'⟩ => Q a db'
    | ⟨.error _, _, db'⟩ => E db'

theorem Meets.pure {a : α} (h : ∀ db, P db → Q a db) : Meets P (pure a : Work α) Q E :=
  fun _ _ db hp => h db hp

theorem Meets.bind (hw : Meets P w Q E) (hf : ∀ a, Meets (Q a) (f a) S E) :
    Meets P (w >>= f) S E := by
  intro ρ n db hp
  have h := hw ρ n db hp
  show match Work.bind w f ρ n db with | ⟨.ok a, _, db'⟩ => S a db' | ⟨.error _, _, db'⟩ => E db'
  unfold Work.bind
  cases ho : w ρ n db with
  | mk r n' db' =>
      rw [ho] at h
      cases r with
      | ok a => exact hf a ρ n' db' h
      | error e => exact h

/-- A statement that is refused or fails leaves the database as it is. -/
theorem Meets.statement {use : Use} {g : Database → Except Fault (α × Database)}
    (hg : ∀ db a db', P db → g db = .ok (a, db') → Q a db') (he : ∀ db, P db → E db) :
    Meets P (statement use g) Q E := by
  intro ρ n db hp
  unfold Work.statement
  cases ρ use n with
  | some e => exact he db hp
  | none =>
      cases hr : g db with
      | ok r => exact hg db r.1 r.2 hp hr
      | error e => exact he db hp

theorem Meets.change {g : Database → Database} {Q : Unit → Database → Prop}
    (hg : ∀ db, P db → Q () (g db)) (he : ∀ db, P db → E db) : Meets P (change g) Q E :=
  .statement (fun db a db' hp h => by cases h; exact hg db hp) he

theorem Meets.query {g : Database → Except Fault α}
    (hg : ∀ db a, P db → g db = .ok a → Q a db) (he : ∀ db, P db → E db) :
    Meets P (query g) Q E := by
  refine .statement (fun db a db' hp h => ?_) he
  cases hr : g db with
  | ok _ => rw [hr] at h; cases h; exact hg db a hp hr
  | error e => rw [hr] at h; cases h

theorem Meets.ask {g : Database → α} (hg : ∀ db, P db → Q (g db) db) (he : ∀ db, P db → E db) :
    Meets P (ask g) Q E :=
  .query (fun db a hp h => by cases h; exact hg db hp) he

theorem Meets.imp (h : Meets P w Q E) (hp : ∀ db, P' db → P db) (hq : ∀ a db, Q a db → Q' a db)
    (he : ∀ db, E db → E' db) : Meets P' w Q' E' := by
  intro ρ n db hp'
  have := h ρ n db (hp db hp')
  revert this
  cases w ρ n db with
  | mk r n' db' =>
      cases r with
      | ok a => exact hq a db'
      | error e => exact he db'

theorem Meets.each (h : ∀ db, P db → Meets (· = db) w Q E) : Meets P w Q E :=
  fun ρ n db hp => h db hp ρ n db rfl

theorem Meets.and (h : Meets P w Q E) (h' : Meets P' w R E') :
    Meets (fun db => P db ∧ P' db) w (fun a db => Q a db ∧ R a db) fun db => E db ∧ E' db := by
  intro ρ n db ⟨hp, hp'⟩
  have hq := h ρ n db hp
  have hq' := h' ρ n db hp'
  revert hq hq'
  cases w ρ n db with
  | mk r n' db' => cases r <;> exact fun hq hq' => ⟨hq, hq'⟩

theorem Meets.frame {F : Prop} (h : Meets P w Q E) :
    Meets (fun db => F ∧ P db) w (fun a db => F ∧ Q a db) E := by
  intro ρ n db ⟨hf, hp⟩
  have := h ρ n db hp
  revert this
  cases w ρ n db with
  | mk r n' db' =>
      cases r with
      | ok a => exact fun hq => ⟨hf, hq⟩
      | error e => exact id

theorem Meets.ok (h : Meets P w Q E) {ρ : Refusals} {n : Nat} {db : Database} (hp : P db) {a : α}
    (hr : (w ρ n db).result = .ok a) : Q a (w ρ n db).db := by
  have := h ρ n db hp
  revert this hr
  cases w ρ n db with
  | mk r n' db' => intro hr; cases hr; exact id

/-! ## Facts that stay true -/

/-- Whatever work does, `I` stays true. -/
abbrev Keeps (I : Database → Prop) (w : Work α) : Prop := Meets I w (fun _ => I) I

/-- Work that does not fail leaves `I` true. -/
abbrev Restores (I : Database → Prop) (w : Work α) : Prop :=
  Meets I w (fun _ => I) fun _ => True

theorem Keeps.db (h : Keeps I w) {ρ : Refusals} {n : Nat} {db : Database} (hi : I db) :
    I (w ρ n db).db := by
  have := h ρ n db hi
  revert this
  cases w ρ n db with
  | mk r n' db' => cases r <;> exact id

theorem Keeps.pure {a : α} : Keeps I (pure a : Work α) := Meets.pure fun _ => id

theorem Keeps.bind (hw : Keeps I w) (hf : ∀ a, Keeps I (f a)) : Keeps I (w >>= f) := Meets.bind hw hf

theorem Keeps.change {g : Database → Database} (h : ∀ db, I db → I (g db)) : Keeps I (change g) :=
  Meets.change h fun _ => id

theorem Keeps.ask {g : Database → α} : Keeps I (ask g) :=
  Meets.ask (fun _ => id) fun _ => id

theorem Keeps.query {g : Database → Except Fault α} : Keeps I (query g) :=
  Meets.query (fun _ _ h _ => h) fun _ => id

/-! ## Orderly work -/

/-- Work that leaves the database alone if it runs no statement, if its first statement is refused,
and if all its writes are refused. -/
structure Orderly (w : Work α) : Prop where
  forward : ∀ ρ n db, n ≤ (w ρ n db).next
  idle : ∀ ρ n db, (w ρ n db).next = n → (w ρ n db).db = db
  blocked : ∀ ρ n db, (∀ use, (ρ use n).isSome) →
    (w ρ n db).db = db ∧ ∀ a, (w ρ n db).result = .ok a → (w ρ n db).next = n
  harmless : ∀ ρ n db, (∀ m, (ρ .writes m).isSome) → (w ρ n db).db = db

theorem Orderly.pure {a : α} : Orderly (pure a : Work α) where
  forward _ _ _ := Nat.le_refl _
  idle _ _ _ _ := rfl
  blocked _ _ _ _ := ⟨rfl, fun _ _ => rfl⟩
  harmless _ _ _ _ := rfl

theorem bind_ok {ρ : Refusals} {n n' : Nat} {db db' : Database} {a : α}
    (h : w ρ n db = ⟨.ok a, n', db'⟩) : (w >>= f) ρ n db = f a ρ n' db' := by
  show Work.bind w f ρ n db = _
  simp only [Work.bind, h]

theorem bind_error {ρ : Refusals} {n n' : Nat} {db db' : Database} {e : Fault}
    (h : w ρ n db = ⟨.error e, n', db'⟩) : (w >>= f) ρ n db = ⟨.error e, n', db'⟩ := by
  show Work.bind w f ρ n db = _
  simp only [Work.bind, h]

theorem Orderly.bind (hw : w.Orderly) (hf : ∀ a, (f a).Orderly) : (w >>= f).Orderly where
  forward ρ n db := by
    have h := hw.forward ρ n db
    rcases ho : w ρ n db with ⟨_ | a, n', db'⟩ <;> rw [ho] at h
    · rw [bind_error ho]; exact h
    · rw [bind_ok ho]; exact Nat.le_trans h ((hf a).forward ρ n' db')
  idle ρ n db := by
    have h := hw.forward ρ n db
    have hi := hw.idle ρ n db
    rcases ho : w ρ n db with ⟨_ | a, n', db'⟩ <;> rw [ho] at h hi
    · rw [bind_error ho]; exact hi
    · rw [bind_ok ho]
      intro hn
      have hn' : n' = n := Nat.le_antisymm (hn ▸ (hf a).forward ρ n' db') h
      rw [(hf a).idle ρ n' db' (hn.trans hn'.symm)]
      exact hi hn'
  blocked ρ n db hρ := by
    have h := hw.blocked ρ n db hρ
    rcases ho : w ρ n db with ⟨_ | a, n', db'⟩ <;> rw [ho] at h
    · rw [bind_error ho]
      exact ⟨h.1, nofun⟩
    · rw [bind_ok ho]
      obtain rfl : n' = n := h.2 a rfl
      obtain rfl : db' = db := h.1
      exact (hf a).blocked ρ n' db' hρ
  harmless ρ n db hρ := by
    have h := hw.harmless ρ n db hρ
    rcases ho : w ρ n db with ⟨_ | a, n', db'⟩ <;> rw [ho] at h
    · rw [bind_error ho]; exact h
    · rw [bind_ok ho]
      obtain rfl : db' = db := h
      exact (hf a).harmless ρ n' db' hρ

theorem Orderly.statement {use : Use} {g : Database → Except Fault (α × Database)}
    (hg : use = .reads → ∀ db a db', g db = .ok (a, db') → db' = db) :
    (statement use g).Orderly where
  forward ρ n db := by
    unfold Work.statement
    cases ρ use n with
    | some e => exact Nat.le_succ n
    | none => cases g db <;> exact Nat.le_succ n
  idle ρ n db := by
    unfold Work.statement
    cases ρ use n with
    | some e => exact fun _ => rfl
    | none => cases g db <;> intro h <;> exact absurd h (Nat.succ_ne_self n)
  blocked ρ n db hρ := by
    unfold Work.statement
    obtain ⟨e, he⟩ := Option.isSome_iff_exists.mp (hρ use)
    rw [he]
    exact ⟨rfl, nofun⟩
  harmless ρ n db hρ := by
    unfold Work.statement
    cases hr : ρ use n with
    | some e => rfl
    | none =>
        cases use with
        | reads =>
            cases hd : g db with
            | ok r => exact hg rfl db r.1 r.2 hd
            | error e => rfl
        | writes => exact absurd (hρ n) (by simp [hr])

theorem Orderly.query {g : Database → Except Fault α} : (query g).Orderly :=
  .statement fun _ db a db' h => by
    cases hr : g db with
    | ok b => rw [hr] at h; cases h; rfl
    | error e => rw [hr] at h; cases h

theorem Orderly.ask {g : Database → α} : (ask g).Orderly := .query

theorem Orderly.change {g : Database → Database} : (change g).Orderly := .statement nofun

/-! ## Work that tells of damage -/

/-- Orderly work that ends with a fault that disturbs only if one of its statements was refused for it, and that ends
with the first of its statements that is refused. -/
structure Candid (w : Work α) : Prop extends Orderly w where
  disturbed : ∀ ρ n db e, (w ρ n db).result = .error e → e.disturbs →
    ∃ use m, n ≤ m ∧ m < (w ρ n db).next ∧ ρ use m = some e
  prompt : ∀ ρ n db m e, n ≤ m → m < (w ρ n db).next → (∀ use, ρ use m = some e) → (w ρ n db).result = .error e

theorem Candid.pure {a : α} : Candid (pure a : Work α) where
  toOrderly := .pure
  disturbed _ _ _ _ he := by cases he
  prompt _ _ _ _ _ hle hlt := absurd hle (Nat.not_le.mpr hlt)

theorem Candid.bind (hw : w.Candid) (hf : ∀ a, (f a).Candid) : (w >>= f).Candid where
  toOrderly := hw.toOrderly.bind fun a => (hf a).toOrderly
  disturbed ρ n db e := by
    have hd := hw.disturbed ρ n db
    have h := hw.forward ρ n db
    rcases ho : w ρ n db with ⟨_ | a, n', db'⟩ <;> rw [ho] at hd h
    · rw [bind_error ho]
      intro he
      cases he
      exact hd _ rfl
    · rw [bind_ok ho]
      intro he hdisturbs
      obtain ⟨use, m, hm, hlt, hr⟩ := (hf a).disturbed ρ n' db' e he hdisturbs
      exact ⟨use, m, Nat.le_trans h hm, hlt, hr⟩
  prompt ρ n db m e hle hlt hρ := by
    have hp := hw.prompt ρ n db m e hle
    rcases ho : w ρ n db with ⟨_ | a, n', db'⟩ <;> rw [ho] at hp
    · rw [bind_error ho] at hlt ⊢
      cases hp hlt hρ
      rfl
    · rw [bind_ok ho] at hlt ⊢
      by_cases hm : m < n'
      · cases hp hm hρ
      · exact (hf a).prompt ρ n' db' m e (Nat.not_lt.mp hm) hlt hρ

theorem refused_of_disturbs {use : Use} {g : Database → Except Fault (α × Database)}
    (hg : ∀ db e, g db = .error e → e.disturbs = false) {ρ : Refusals} {n : Nat} {db : Database}
    {e : Fault} (he : (statement use g ρ n db).result = .error e) (hd : e.disturbs) :
    n < (statement use g ρ n db).next ∧ ρ use n = some e := by
  unfold Work.statement at he ⊢
  cases hr : ρ use n with
  | some e' =>
      simp only [hr] at he
      cases he
      exact ⟨Nat.lt_succ_self n, rfl⟩
  | none =>
      simp only [hr] at he
      cases hgd : g db with
      | ok r =>
          rw [hgd] at he
          cases he
      | error e' =>
          rw [hgd] at he
          cases he
          rw [hg db e hgd] at hd
          cases hd

theorem statement_next {use : Use} {g : Database → Except Fault (α × Database)} (ρ : Refusals) (n : Nat)
    (db : Database) : (statement use g ρ n db).next = n + 1 := by
  unfold Work.statement
  split
  · rfl
  · split <;> rfl

theorem prompt_statement {use : Use} {g : Database → Except Fault (α × Database)} {ρ : Refusals} {n m : Nat}
    {db : Database} {e : Fault} (hle : n ≤ m) (hlt : m < (statement use g ρ n db).next) (hρ : ∀ use, ρ use m = some e) :
    (statement use g ρ n db).result = .error e := by
  rw [statement_next] at hlt
  obtain rfl : m = n := Nat.le_antisymm (Nat.le_of_lt_succ hlt) hle
  simp only [Work.statement, hρ use]

theorem Candid.writes {g : Database → Except Fault (α × Database)}
    (hg : ∀ db e, g db = .error e → e.disturbs = false) : (statement .writes g).Candid where
  toOrderly := .statement nofun
  disturbed _ n _ _ he hd := ⟨.writes, n, Nat.le_refl n, refused_of_disturbs hg he hd⟩
  prompt _ _ _ _ _ hle hlt hρ := prompt_statement hle hlt hρ

theorem Candid.change {g : Database → Database} : (change g).Candid := .writes fun _ _ he => by cases he

theorem Candid.query {g : Database → Except Fault α} (hg : ∀ db e, g db = .error e → e.disturbs = false) :
    (query g).Candid where
  toOrderly := .query
  disturbed _ n _ _ he hd := by
    refine ⟨.reads, n, Nat.le_refl n, refused_of_disturbs (fun db e he => ?_) he hd⟩
    cases hgd : g db with
    | ok a =>
        rw [hgd] at he
        cases he
    | error e' =>
        rw [hgd] at he
        cases he
        exact hg db _ hgd
  prompt _ _ _ _ _ hle hlt hρ := prompt_statement hle hlt hρ

theorem Candid.ask {g : Database → α} : (ask g).Candid := .query nofun

/-! ## Changes one after the other -/

/-- Changes, one after the other. -/
def changes : List (Database → Database) → Work Unit
  | [] => pure ()
  | f :: fs => do
    change f
    changes fs

/-- What changes make of a database. -/
def changed (fs : List (Database → Database)) (db : Database) : Database := fs.foldl (fun d f => f d) db

theorem candid_changes (fs : List (Database → Database)) : (changes fs).Candid := by
  induction fs with
  | nil => exact .pure
  | cons f fs ih => exact .bind .change fun _ => ih

theorem keeps_changes {fs : List (Database → Database)} (h : ∀ f ∈ fs, ∀ db, I db → I (f db)) :
    Keeps I (changes fs) := by
  induction fs with
  | nil => exact Keeps.pure
  | cons f fs ih =>
      obtain ⟨hf, hfs⟩ := List.forall_mem_cons.mp h
      exact Keeps.bind (.change hf) fun _ => ih hfs

theorem changes_meets (fs : List (Database → Database)) (db : Database) :
    Meets (· = db) (changes fs) (fun _ d => d = changed fs db) fun _ => True := by
  induction fs generalizing db with
  | nil => exact .pure fun _ => id
  | cons f fs ih =>
      refine Meets.bind (Q := fun _ d => d = f db) (.change ?_ fun _ _ => trivial) fun _ => ih _
      rintro _ rfl
      rfl

/-- A change for each item of a list. -/
theorem changes_map_meets (f : α → Database → Database) (as : List α) (db : Database) :
    Meets (· = db) (changes (as.map f)) (fun _ d => d = as.foldl (fun d a => f a d) db) fun _ => True := by
  have hmeets := changes_meets (as.map f) db
  rwa [changed, List.foldl_map] at hmeets

theorem change_of_some {f : Database → Database} {ρ : Refusals} {n : Nat} {db : Database} {e : Fault}
    (hr : ρ .writes n = some e) : change f ρ n db = ⟨.error e, n + 1, db⟩ := by
  simp only [change, statement, hr]

theorem change_of_none {f : Database → Database} {ρ : Refusals} {n : Nat} {db : Database} (hr : ρ .writes n = none) :
    change f ρ n db = ⟨.ok (), n + 1, f db⟩ := by
  simp only [change, statement, hr]

theorem changes_singleton (f : Database → Database) : changes [f] = change f := by
  funext ρ n db
  unfold changes
  cases hr : ρ .writes n with
  | none =>
      rw [bind_ok (change_of_none hr), change_of_none hr]
      rfl
  | some e => rw [bind_error (change_of_some hr), change_of_some hr]

end Work
end TagIndex
