import TagIndex.Proofs.Answers
import TagIndex.Proofs.Ids

/-!
# The order of parameters

Parameters come by id. A batch gives tags that were there their old ids back, and all others come after
these. So the order of the batch is kept exactly if it lists first what was there, in the order in which it
was there.
-/

namespace TagIndex

open Work

/-! ## Rows by their keys -/

namespace Database

/-- The row that holds a tag, under the id of its key. -/
def rowWith (db : Database) (t : Tag) : Row := ⟨(db.idOf? t.key).getD 0, t⟩

theorem Sound.rowWith_eq {db : Database} (h : db.Sound) {r : Row} (hr : r ∈ db.tags) :
    db.rowWith r.tag = r := by
  simp only [rowWith, h.idOf?_key hr, Option.getD_some]

end Database

/-! ## Declarations in a batch -/

namespace Batch

variable {db db' : Database} {tags : List Tag} {kind scope : String} {t u : Tag}

/-- The tags that a batch lists for a kind and a scope. -/
def declared (tags : List Tag) (kind scope : String) : List Tag :=
  tags.filter fun t => t.kind = kind ∧ t.scope = scope

/-- The batch lists all tags of a kind and a scope, each under a key of its own. -/
structure Declares (tags : List Tag) (kind scope : String) (db : Database) : Prop where
  keys : ((declared tags kind scope).map Tag.key).Nodup
  alone : ∀ t ∈ declared tags kind scope, ∀ u ∈ tags, u.key = t.key → u.scope = scope
  accepted : ∀ t ∈ declared tags kind scope, t.isAccepted
  all : ∀ r ∈ db.tags, r.tag.kind = kind → r.tag.scope = scope → Names tags r.tag.file

/-- If a row has the key of the second tag, one before it has the key of the first. -/
def InOrder (db : Database) (t u : Tag) : Prop :=
  ∀ j, db.idOf? u.key = some j → ∃ i, db.idOf? t.key = some i ∧ i < j

theorem mem_declared : t ∈ declared tags kind scope ↔ t ∈ tags ∧ t.kind = kind ∧ t.scope = scope := by
  simp [declared]

theorem firstPlace_cons (t : Tag) (tags : List Tag) (k : Tag.Key) :
    firstPlace (t :: tags) k = if t.key = k then 0 else firstPlace tags k + 1 := by
  rw [firstPlace, List.findIdx_cons]
  by_cases hk : t.key = k <;> simp [firstPlace, hk]

/-- Tags with keys of their own stand in a batch as their keys do. -/
theorem pairwise_firstPlace {p : Tag → Bool} (hn : ((tags.filter p).map Tag.key).Nodup)
    (ha : ∀ t ∈ tags.filter p, ∀ u ∈ tags, u.key = t.key → p u) :
    (tags.filter p).Pairwise fun t u => firstPlace tags t.key < firstPlace tags u.key := by
  induction tags with
  | nil => exact .nil
  | cons x tags ih =>
      -- Places in the rest are one further, as long as the first tag has another key.
      have hnext : ((tags.filter p).map Tag.key).Nodup →
          (∀ t ∈ tags.filter p, x.key ≠ t.key) → (∀ t ∈ tags.filter p, t ∈ (x :: tags).filter p) →
          (tags.filter p).Pairwise fun t u =>
            firstPlace (x :: tags) t.key < firstPlace (x :: tags) u.key := by
        intro hn hx hsub
        refine (ih hn fun t ht u hu => ha t (hsub t ht) u (List.mem_cons_of_mem _ hu)).imp_of_mem ?_
        intro t u ht hu hlt
        rw [firstPlace_cons, firstPlace_cons, if_neg (hx t ht), if_neg (hx u hu)]
        omega
      cases hp : p x with
      | false =>
          have hfilter : (x :: tags).filter p = tags.filter p := by simp [hp]
          rw [hfilter] at hn ha ⊢
          refine hnext hn (fun t ht hk => ?_) fun t ht => by rwa [hfilter]
          have := ha t ht x List.mem_cons_self hk
          simp [hp] at this
      | true =>
          have hfilter : (x :: tags).filter p = x :: tags.filter p := by simp [hp]
          rw [hfilter, List.map_cons, List.nodup_cons] at hn
          have hx : ∀ t ∈ tags.filter p, x.key ≠ t.key :=
            fun t ht hk => hn.1 (hk ▸ List.mem_map_of_mem ht)
          rw [hfilter]
          refine .cons (fun u hu => ?_) (hnext hn.2 hx fun t ht => hfilter ▸ List.mem_cons_of_mem _ ht)
          rw [firstPlace_cons, firstPlace_cons, if_pos rfl, if_neg (hx u hu)]
          exact Nat.succ_pos _

namespace Declares

variable (h : Declares tags kind scope db)

include h

theorem eq_of_key (ht : t ∈ declared tags kind scope) (hu : u ∈ tags) (hk : u.key = t.key) : u = t := by
  have hkind : u.kind = t.kind := congrArg Tag.Key.kind hk
  have hd : u ∈ declared tags kind scope :=
    mem_declared.mpr ⟨hu, hkind.trans (mem_declared.mp ht).2.1, h.alone t ht u hu hk⟩
  exact List.inj_on_of_nodup_map h.keys hd ht hk

theorem pairwise_firstPlace : (declared tags kind scope).Pairwise fun t u =>
    firstPlace tags t.key < firstPlace tags u.key := by
  refine Batch.pairwise_firstPlace h.keys fun t ht u hu hk => ?_
  obtain rfl := h.eq_of_key ht hu hk
  exact (List.mem_filter.mp ht).2

end Declares

/-! ## Rows that a batch leaves -/

namespace Replaced

variable {held : Nat → Prop} {r q : Row}

theorem exists_declared (h : Replaced tags held db db') (hd : Declares tags kind scope db)
    (hr : r ∈ db'.tags) (hk : r.tag.kind = kind) (hs : r.tag.scope = scope) :
    ∃ t ∈ declared tags kind scope, r.tag = t.settled := by
  have hn : Names tags r.tag.file := by
    by_contra hn
    have hold : r ∈ db.rowsOf r.tag.file := h.others _ hn ▸ mem_rowsOf.mpr ⟨hr, rfl⟩
    exact hn (hd.all r (mem_rowsOf.mp hold).1 hk hs)
  obtain ⟨t, ht, he⟩ := h.fields _ hn r (mem_rowsOf.mpr ⟨hr, rfl⟩)
  refine ⟨t, mem_declared.mpr ⟨(mem_of_lastWith ht).1, ?_, ?_⟩, he⟩
  · rw [← hk, he]
    rfl
  · rw [← hs, he]
    rfl

theorem exists_row (h : Replaced tags held db db') (hd : Declares tags kind scope db)
    (ht : t ∈ declared tags kind scope) :
    ∃ r ∈ db'.tags, r.tag = t.settled ∧ Names tags r.tag.file := by
  have hacc := hd.accepted t ht
  have hm := (mem_declared.mp ht).1
  have hn : Names tags t.file := ⟨Tag.isAccepted_file_ne hacc, t, hm, rfl⟩
  obtain ⟨r, hr, hk⟩ := (h.keys _ hn t.key).mpr ⟨t, hm, hacc, rfl, rfl⟩
  obtain ⟨u, hu, he⟩ := h.fields _ hn r hr
  obtain ⟨hum, huk⟩ := mem_of_lastWith hu
  obtain rfl := hd.eq_of_key ht hum (huk.trans hk)
  exact ⟨r, (mem_rowsOf.mp hr).1, he, he ▸ hn⟩

/-- The rows of the kind and the scope are the settled tags of the batch, in some order. -/
theorem declared_perm (h : Replaced tags held db db') (hs : db'.Sound)
    (hd : Declares tags kind scope db) :
    ((db'.tags.filter fun r => r.tag.kind = kind ∧ r.tag.scope = scope).map (·.tag)).Perm
      ((declared tags kind scope).map Tag.settled) := by
  have hrows : ((db'.tags.filter fun r => r.tag.kind = kind ∧ r.tag.scope = scope).map (·.tag)).Nodup := by
    refine List.Nodup.of_map Tag.key ?_
    rw [List.map_map]
    exact hs.distinct.sublist (List.filter_sublist.map _)
  have hdeclared : ((declared tags kind scope).map Tag.settled).Nodup := by
    refine List.Nodup.of_map Tag.key ?_
    rw [List.map_map]
    exact hd.keys
  refine (List.perm_ext_iff_of_nodup hrows hdeclared).mpr fun x => ?_
  simp only [List.mem_map, List.mem_filter, decide_eq_true_eq]
  constructor
  · rintro ⟨r, ⟨hr, hk, hsc⟩, rfl⟩
    obtain ⟨t, ht, he⟩ := h.exists_declared hd hr hk hsc
    exact ⟨t, ht, he.symm⟩
  · rintro ⟨t, ht, rfl⟩
    obtain ⟨r, hr, he, _⟩ := h.exists_row hd ht
    exact ⟨r, ⟨hr, he ▸ (mem_declared.mp ht).2⟩, he⟩

/-- Of two rows of named files, the one that stands first in the batch has the smaller id exactly if the
tables before kept them in that order. -/
theorem id_lt_iff (h : Replaced tags (· ≤ db.lastTagId) db db') (hs : db.Sound) (hr : r ∈ db'.tags)
    (hrn : Names tags r.tag.file) (hq : q ∈ db'.tags) (hqn : Names tags q.tag.file)
    (hlt : firstPlace tags r.tag.key < firstPlace tags q.tag.key) :
    r.id < q.id ↔ InOrder db r.tag q.tag := by
  have hold : ∀ {r : Row} {i : Nat}, r ∈ db'.tags → Names tags r.tag.file →
      db.idOf? r.tag.key = some i → r.id = i ∧ i ≤ db.lastTagId := by
    intro r i hr hn hi
    obtain ⟨o, ho, hk, rfl⟩ := Database.exists_of_idOf? hi
    have hof : o ∈ db.rowsOf r.tag.file := mem_rowsOf.mpr ⟨ho, Tag.file_eq_of_key_eq hk⟩
    exact ⟨h.oldIds _ hn r (mem_rowsOf.mpr ⟨hr, rfl⟩) o hof hk, hs.bounded o ho⟩
  have hnew : ∀ {r : Row}, r ∈ db'.tags → Names tags r.tag.file → db.idOf? r.tag.key = none →
      NewKey db r.tag.key ∧ db.lastTagId < r.id := by
    intro r hr hn hi
    have hk : NewKey db r.tag.key := Database.idOf?_eq_none.mp hi
    exact ⟨hk, h.newIds _ hn r (mem_rowsOf.mpr ⟨hr, rfl⟩) hk _ (Nat.le_refl _)⟩
  -- Old ids are up to the counter and new ones beyond it; new ones follow the batch.
  unfold InOrder
  cases hqi : db.idOf? q.tag.key with
  | none =>
      obtain ⟨hqk, hqid⟩ := hnew hq hqn hqi
      refine iff_of_true ?_ nofun
      cases hri : db.idOf? r.tag.key with
      | none =>
          exact h.order _ _ hrn hqn r (mem_rowsOf.mpr ⟨hr, rfl⟩) q (mem_rowsOf.mpr ⟨hq, rfl⟩)
            (hnew hr hrn hri).1 hqk hlt
      | some i =>
          obtain ⟨rfl, hi⟩ := hold hr hrn hri
          exact Nat.lt_of_le_of_lt hi hqid
  | some j =>
      obtain ⟨rfl, hj⟩ := hold hq hqn hqi
      cases hri : db.idOf? r.tag.key with
      | none =>
          have hrid := (hnew hr hrn hri).2
          refine iff_of_false (by omega) fun hin => ?_
          obtain ⟨i, hi, _⟩ := hin _ rfl
          cases hi
      | some i =>
          obtain ⟨rfl, _⟩ := hold hr hrn hri
          simp

/-- The rows of the kind and the scope stand in the order of the batch exactly if the tables before kept
its tags in that order. -/
theorem in_order_iff (h : Replaced tags (· ≤ db.lastTagId) db db') (hs : db.Sound) (hs' : db'.Sound)
    (hd : Declares tags kind scope db) :
    (db'.tags.filter fun r => r.tag.kind = kind ∧ r.tag.scope = scope).map (·.tag) =
        (declared tags kind scope).map Tag.settled ↔
      (declared tags kind scope).Pairwise (InOrder db) := by
  let rows := db'.tags.filter fun r => r.tag.kind = kind ∧ r.tag.scope = scope
  have hrows : (rows.map (·.tag)).map db'.rowWith = rows := by
    rw [List.map_map]
    exact (List.map_congr_left fun r hr => hs'.rowWith_eq (List.mem_of_mem_filter hr)).trans (List.map_id _)
  have hascending : rows.Pairwise (·.id < ·.id) := hs'.ascending.filter _
  -- A row is told by its tag. So if the tags are those of the batch, the batch has ascending ids, and rows
  -- that a permutation sorts by id are the same.
  have hids : rows.map (·.tag) = (declared tags kind scope).map Tag.settled ↔
      (((declared tags kind scope).map Tag.settled).map db'.rowWith).Pairwise (·.id < ·.id) := by
    constructor
    · intro he
      rwa [← he, hrows]
    · intro hp
      have hperm := (h.declared_perm hs' hd).map db'.rowWith
      rw [hrows] at hperm
      rw [hascending.eq_of_mem_iff hp fun r => hperm.mem_iff, List.map_map]
      exact List.map_id _
  rw [hids, List.map_map, List.pairwise_map]
  have hiff : ∀ t ∈ declared tags kind scope, ∀ u ∈ declared tags kind scope,
      firstPlace tags t.key < firstPlace tags u.key →
        ((db'.rowWith t.settled).id < (db'.rowWith u.settled).id ↔ InOrder db t u) := by
    intro t ht u hu hlt
    obtain ⟨r, hr, hrt, hrn⟩ := h.exists_row hd ht
    obtain ⟨q, hq, hqu, hqn⟩ := h.exists_row hd hu
    rw [← hrt, ← hqu, hs'.rowWith_eq hr, hs'.rowWith_eq hq,
      h.id_lt_iff hs hr hrn hq hqn (by rwa [hrt, hqu]), hrt, hqu]
    rfl
  have hplaces := hd.pairwise_firstPlace
  constructor
  · exact fun hp => (hp.and hplaces).imp_of_mem fun ht hu hb => (hiff _ ht _ hu hb.2).mp hb.1
  · exact fun hp => (hp.and hplaces).imp_of_mem fun ht hu hb => (hiff _ ht _ hu hb.2).mpr hb.1

end Replaced

end Batch

/-! ## Storing and asking -/

namespace Store

open Batch Query

variable {s : Store} {path : String} {tags : List Tag} {now : Int} {auto : Bool} {stats : StoreStats}

theorem parameters_answered (hs : s.Reachable) (hf : s.Fresh) (hmax : s.options.searchLimit ≤ maxLimit) (path : String) :
    s.Answered (· = (s.database.tags.filter fun r =>
      r.tag.kind = Kind.parameter ∧ r.tag.scope = path).take s.options.searchLimit)
      ((parameters path).run s).1 := by
  rw [parameters, Lookup.run_limited]
  exact hf.isCurrent.fetch_answered (isTooLarge_byKindAndScope _ _ _)
    (run_byKindAndScope hs.sound_database _ _ hmax)

/-- After a batch that lists all parameters of a function, these are listed by id, and in the order of the
batch exactly if no new one stands before one that was there and these stand as they stood. -/
theorem parameters_in_batch_order_iff (hs : s.Reachable) (hf : tags = [] → s.Fresh)
    (h : (s.storeTags tags now auto).1 = .ok stats)
    (hd : Declares tags Kind.parameter path s.database) :
    let s' := (s.storeTags tags now auto).2
    let parameters := declared tags Kind.parameter path
    let answer := ((Store.parameters path).run s').1
    s'.Readable → parameters.length ≤ s'.options.searchLimit → s'.options.searchLimit ≤ maxLimit →
      answer.Pairwise (·.id < ·.id) ∧
      (answer.map (·.tag)).Perm (parameters.map Tag.settled) ∧
      (answer.map (·.tag) = parameters.map Tag.settled ↔ parameters.Pairwise (InOrder s.database)) := by
  intro s' parameters answer hr hl hmax
  have hs' : s'.Reachable := .next (.storeTags tags now auto) hs trivial trivial
  have hreplaced := storeTags_replaced hs h
  have hperm := hreplaced.declared_perm hs'.sound_database hd
  have hlength := hperm.length_eq
  rw [List.length_map, List.length_map] at hlength
  have hfresh : s'.Fresh := by
    by_cases hne : tags = []
    · subst hne
      exact hf rfl
    · exact .empty (storeTags_empty hne now auto)
  have hanswer := (parameters_answered hs' hfresh hmax path).of_readable hr
  rw [List.take_of_length_le (Nat.le_trans (Nat.le_of_eq hlength) hl)] at hanswer
  rw [show answer = _ from hanswer]
  exact ⟨hs'.sound_database.ascending.filter _, hperm,
    hreplaced.in_order_iff hs.sound_database hs'.sound_database hd⟩

/-- A parameter that is put before one that was there is listed after it. -/
theorem parameters_in_batch_order_iff_inserted :
    let tag (name : String) : Tag :=
      { name, file := "f.c", kind := Kind.parameter, path := name, scope := "f" }
    let s := Step.act (Step.act {} (.openPath "tags.db")) (.storeTags [tag "old"] 0 true)
    let s' := (s.storeTags [tag "new", tag "old"] 0 true).2
    let answer := ((parameters "f").run s').1
    answer = [⟨1, tag "old"⟩, ⟨2, tag "new"⟩] ∧ answer.map (·.tag) ≠ [tag "new", tag "old"] ∧
      ¬ [tag "new", tag "old"].Pairwise (InOrder s.database) := by
  intro tag s s' answer
  have hs : s.Reachable :=
    .next _ (.next _ (.new ⟨rfl, rfl, rfl⟩ fun _ => .refl _) trivial trivial) trivial trivial
  have hs' : s'.Reachable := .next (.storeTags [tag "new", tag "old"] 0 true) hs trivial trivial
  have hok : (s.storeTags [tag "new", tag "old"] 0 true).1 = .ok ⟨1, 1, 2, 0⟩ := by decide +kernel
  have htags : s.database.tags = [⟨1, tag "old"⟩] := by decide +kernel
  have hdeclared : declared [tag "new", tag "old"] Kind.parameter "f" = [tag "new", tag "old"] := by
    decide +kernel
  have hd : Declares [tag "new", tag "old"] Kind.parameter "f" s.database := by
    refine ⟨by decide +kernel, by decide +kernel, by decide +kernel, ?_⟩
    rw [htags]
    exact fun r hr _ _ => ⟨by simp_all [tag], tag "old", by simp, by simp_all⟩
  have hr : s'.Readable := by decide +kernel
  have hlimit : s'.options.searchLimit = 250 := by decide +kernel
  have hanswer : answer = [⟨1, tag "old"⟩, ⟨2, tag "new"⟩] := by
    refine ((parameters_answered hs' (.empty (by decide +kernel)) (by rw [hlimit]; decide) "f").of_readable hr).trans ?_
    decide +kernel
  obtain ⟨_, _, hiff⟩ := parameters_in_batch_order_iff hs (fun h => by cases h) hok hd hr (by rw [hlimit, hdeclared]; decide)
    (by rw [hlimit]; decide)
  rw [hdeclared, show [tag "new", tag "old"].map Tag.settled = [tag "new", tag "old"] by decide +kernel,
    show ((parameters "f").run s').1 = answer from rfl] at hiff
  have hne : answer.map (·.tag) ≠ [tag "new", tag "old"] := by
    rw [hanswer]
    decide
  exact ⟨hanswer, hne, fun hp => hne (hiff.mpr hp)⟩

end Store
end TagIndex
