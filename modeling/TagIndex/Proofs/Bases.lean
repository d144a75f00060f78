import TagIndex.Proofs.AnsweredRows
import TagIndex.Proofs.Restoring

/-!
# Lists of bases that are read and stored again

A tag's bases are stored as a comma list. The lists that are read back as they were written are those of items, and
what was read is of items at any rate; so a tag that was answered keeps its bases wherever it is stored again.
-/

namespace TagIndex

open Relation

namespace Store

open Text

variable {s t : Store} {r : Row} {tags : List Tag} {now : Int} {auto : Bool} {stats : StoreStats}

/-- Every row that is answered holds a tag that the index keeps, as it is read back. -/
theorem Reachable.settled_reply (h : s.Reachable) {question : Question} (hr : r ∈ (question.reply.run s).1.tags) :
    r.tag.isAccepted ∧ r.tag.settled = r.tag :=
  ⟨h.reply_of_kept Batch.kept_sound Database.sound_empty (fun _ hs => hs.accepted) question r hr,
    h.reply_of_kept Batch.kept_settled nofun (fun _ hset => hset) question r hr⟩

/-- The last tag of a batch with its key is there afterwards, alone under the key and as it is read back. -/
theorem stored_last (h : t.Reachable) (hok : (t.storeTags tags now auto).1 = .ok stats) {u : Tag}
    (hlast : Batch.lastWith tags u.key = some u) (ha : u.isAccepted) :
    (∃ o ∈ (t.storeTags tags now auto).2.database.tags, o.tag.key = u.key) ∧
      ∀ o ∈ (t.storeTags tags now auto).2.database.tags, o.tag.key = u.key → o.tag = u.settled := by
  have hreplaced := storeTags_replaced h hok
  have hn : Batch.Names tags u.file :=
    ⟨Tag.isAccepted_file_ne ha, u, (Batch.mem_of_lastWith hlast).1, rfl⟩
  refine ⟨?_, fun o ho hk => ?_⟩
  · obtain ⟨o, ho, hk⟩ :=
      (hreplaced.keys u.file hn u.key).mpr ⟨u, (Batch.mem_of_lastWith hlast).1, ha, rfl, rfl⟩
    exact ⟨o, (Batch.mem_rowsOf.mp ho).1, hk⟩
  · obtain ⟨w, hw, hsettled⟩ :=
      hreplaced.fields u.file hn o (Batch.mem_rowsOf.mpr ⟨ho, Tag.file_eq_of_key_eq hk⟩)
    rw [hk, hlast] at hw
    rw [hsettled, Option.some.inj hw]

/-- A list is read back from its text if and only if it holds items alone, and a list that was read always is. So a tag
that a session was answered and that a session stores again, there or elsewhere, has its bases as they were read: in
the table, and in all answers as long as nothing is written and no damage takes the tag back. -/
theorem bases_are_read_back :
    (∀ ws : List String, itemsOf (joined "," ws) = ws ↔ ∀ w ∈ ws, IsItem w) ∧
    (∀ text, itemsOf (joined "," (itemsOf text)) = itemsOf text) ∧
    ∀ (s t : Store) (question : Question) (r : Row) (tags : List Tag) (now : Int) (auto : Bool) (stats : StoreStats),
      s.Reachable → t.Reachable → r ∈ (question.reply.run s).1.tags → Batch.lastWith tags r.tag.key = some r.tag →
      (t.storeTags tags now auto).1 = .ok stats →
      let u := (t.storeTags tags now auto).2
      (∃ o ∈ u.database.tags, o.tag.key = r.tag.key) ∧
      (∀ o ∈ u.database.tags, o.tag.key = r.tag.key → o.tag.inherits = r.tag.inherits) ∧
      ∀ v, ReflTransGen Rests u v → v.Secure ∨ v.Idle → ∀ question : Question,
        ∀ o ∈ (question.reply.run v).1.tags, o.tag.key = r.tag.key → o.tag.inherits = r.tag.inherits := by
  refine ⟨fun _ => itemsOf_joined_eq_self_iff, itemsOf_joined, ?_⟩
  intro s t question r tags now auto stats hs ht hr hlast hok u
  obtain ⟨haccepted, hsettled⟩ := hs.settled_reply hr
  obtain ⟨hthere, honly⟩ := stored_last ht hok hlast haccepted
  have hbases : ∀ o ∈ u.database.tags, o.tag.key = r.tag.key → o.tag.inherits = r.tag.inherits :=
    fun o ho hk => congrArg Tag.inherits ((honly o ho hk).trans hsettled)
  have hu : u.Reachable := .next (.storeTags tags now auto) ht trivial trivial
  have hne : tags ≠ [] := List.ne_nil_of_mem (Batch.mem_of_lastWith hlast).1
  exact ⟨hthere, hbases, fun v hv hl =>
    HasOnly.answers_rested ⟨hu, .of_empty (storeTags_empty hne now auto), hbases⟩ hv hl⟩

/-- A template instance with a comma comes back as two bases. These are stored in another database as they were read,
over a row that had the key there, and are answered from it in the middle of a transaction. -/
theorem bases_are_read_back_elsewhere :
    let tag (line : Int) (inherits : List String) : Tag :=
      { name := "C", file := "a.h", line, kind := "class", path := "C", scope := globalScope, inherits }
    let c := tag 7 ["B", "map<int", "int>"]
    let question := Question.tagsByName "C" false
    let s := Step.act (Step.act {} (.openPath "tags.db")) (.storeTags [tag 7 [" B ", "", "map<int,int>"]] 0 true)
    let t := Step.act (Step.act (Step.act {} (.openPath "other.db")) (.storeTags [tag 1 []] 0 true)) .begin
    let u := (t.storeTags [tag 3 ["A"], c] 1 false).2
    itemsOf (joined "," ["B", "map<int,int>"]) = ["B", "map<int", "int>"] ∧
    (question.reply.run s).1.tags = [⟨1, c⟩] ∧ (t.storeTags [tag 3 ["A"], c] 1 false).1 = .ok ⟨1, 1, 2, 0⟩ ∧
    (∃ o ∈ u.database.tags, o.tag.key = c.key) ∧
    ∀ o ∈ (question.reply.run u).1.tags, o.tag.key = c.key → o.tag.inherits = ["B", "map<int", "int>"] := by
  intro tag c question s t u
  have hs : s.Reachable := reachable_stored _ _
  have ht : t.Reachable := .next .begin (reachable_stored _ _) trivial trivial
  have hreply : (question.reply.run s).1.tags = [⟨1, c⟩] := by decide +kernel
  have hr : ⟨1, c⟩ ∈ (question.reply.run s).1.tags := by rw [hreply]; exact List.mem_singleton_self _
  have hok : (t.storeTags [tag 3 ["A"], c] 1 false).1 = .ok ⟨1, 1, 2, 0⟩ := by decide +kernel
  have hcalm : t.disk.Calm := Step.calm (Step.calm (Step.calm (fun _ => rfl) nofun) nofun) nofun
  have hu : (Step.act t (.storeTags [tag 3 ["A"], c] 1 false)).disk.Calm := Step.calm hcalm nofun
  obtain ⟨_, _, hread⟩ := bases_are_read_back
  obtain ⟨hthere, _, hanswers⟩ :=
    hread s t question ⟨1, c⟩ [tag 3 ["A"], c] 1 false ⟨1, 1, 2, 0⟩ hs ht hr (by decide +kernel) hok
  exact ⟨by decide +kernel, hreply, hok, hthere,
    hanswers u .refl (.inl (steady_of_any hu (by decide +kernel)).secure) question⟩

end Store
end TagIndex
