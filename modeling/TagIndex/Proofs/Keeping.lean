import TagIndex.Proofs.AnsweredRows
import TagIndex.Proofs.Healing

/-!
# When answers are kept

A session that is closed keeps no answers, nor does one that does not use its cache, and no answer with a row of an
anonymous scope is ever kept. Whatever a step does, it forgets the kept answers or goes on using them.
-/

namespace TagIndex

open Lookup Relation

namespace Store

variable {α : Type} {s t : Store} {c : Connection}

/-! ## Closed sessions -/

theorem fetchKinds_closed (hc : s.connection = none) (he : s.cache.entries = []) (q : Query) (kinds : List String) :
    (fetchKinds q kinds).run s = ([], s) := by
  have hkept : (if s.options.useCache then s.cache.find? (q.key kinds) else none) = none := by
    simp [Cache.find?, he]
  rw [fetchKinds_run, hkept, askDatabase_closed hc]
  split <;> rfl

/-- A closed session without kept answers answers no rows. -/
theorem reply_of_closed (hc : s.connection = none) (he : s.cache.entries = []) (question : Question) :
    (question.reply.run s).1.tags = [] := by
  let J (t : Store) : Prop := t.connection = none ∧ t.cache.entries = []
  have hfetch : ∀ q kinds, Meets J (fetchKinds q kinds) fun rows => ∀ r ∈ rows, False := by
    intro q kinds t ht
    rw [fetchKinds_closed ht.1 ht.2]
    exact ⟨ht, nofun⟩
  have hmoves : ∀ {t u}, (u = t ∨ ∃ c, t.connection = some c ∧ Moves t c t.database u) → J t → J u := by
    rintro t u (rfl | ⟨c, hc, _⟩) ht
    · exact ht
    · cases ht.1.symm.trans hc
  have hrows := (Question.meets_reply hfetch (fun α f _ t ht => by rwa [askDatabase_closed ht.1])
    (fun t ht => ⟨hmoves t.statistics_cases ht, hmoves t.schemaVersion_cases ht⟩) question s ⟨hc, he⟩).2
  exact List.eq_nil_iff_forall_not_mem.mpr hrows

/-! ## Runs -/

variable {s₀ : Store}

theorem keepsInUse_of_leads (h₀ : s₀.IsNew) (h : ReflTransGen Leads s₀ s) : s.KeepsInUse := by
  induction h with
  | refl => exact keepsInUse_of_empty h₀.cache
  | tail _ hn ih =>
      obtain ⟨step, rfl⟩ := hn
      exact ih.act step

/-- Whatever a session does and whatever becomes of its file, it keeps no answers while it is closed or does not use its
cache, it has a path while it is open, and no answer that it keeps has a row of an anonymous scope. So while it is
closed it answers no rows. -/
theorem answers_kept_in_use (h₀ : s₀.IsNew) (h : ReflTransGen Leads s₀ s) :
    (s.isOpen = false ∨ s.options.useCache = false → s.cache.entries = []) ∧
    (s.isOpen → ∃ path, s.path = some path) ∧
    (∀ e ∈ s.cache.entries, ∀ r ∈ e.2, ¬ anonymousPrefix.toList <+: r.tag.scope.toList) ∧
    (s.isOpen = false → ∀ question : Question, (question.reply.run s).1.tags = []) := by
  have hkeeps := keepsInUse_of_leads h₀ h
  have hempty : s.isOpen = false ∨ s.options.useCache = false → s.cache.entries = [] := by
    intro hunused
    refine hkeeps.used.resolve_right fun hs => ?_
    rcases hunused with hclosed | hoff
    · exact Bool.false_ne_true (hclosed.symm.trans hs.1)
    · exact Bool.false_ne_true (hoff.symm.trans hs.2)
  refine ⟨hempty, fun hopen => ?_, fun e he r hr hstarts => ?_, fun hclosed => ?_⟩
  · obtain ⟨c, hc⟩ := Option.isSome_iff_exists.mp hopen
    exact (onPath_of_leads h₀ h).exists_path hc
  · have hnamed := hkeeps.named e he r hr
    rw [Tag.isAnonymousScope, List.isPrefixOf_iff_prefix.mpr hstarts] at hnamed
    cases hnamed
  · have hnone : s.connection = none := Option.isNone_iff_eq_none.mp (by simpa [isOpen] using hclosed)
    exact reply_of_closed hnone (hempty (.inl hclosed))

/-- A session that has kept one of two answers forgets it when a lookup meets a file that is no database any more; it is
left closed with its path, and answers nothing. -/
theorem answers_kept_in_use_overwritten :
    let tag (name scope : String) : Tag := { name, file := "a.c", kind := "function", path := name, scope }
    let stored := Step.act (Step.act {} (.openPath "tags.db"))
      (.storeTags [tag "f" "ns", tag "g" "__anon1"] 0 true)
    let asked := Step.act (Step.act stored (.ask (.tagsByName "f" false))) (.ask (.tagsByName "g" false))
    let damaged := Step.act asked (.outside (asked.disk.write "tags.db" "no database"))
    let s := Step.act damaged (.ask (.tagsByFile "a.c"))
    (asked.cache.size = 1 ∧ damaged.cache.size = 1) ∧
    (s.isOpen = false ∧ s.path = some "tags.db" ∧ s.cache.entries = []) ∧
    ((Question.tagsByName "f" false).reply.run s).1.tags = [] := by
  intro tag stored asked damaged s
  have hs : ReflTransGen Leads {} s :=
    .tail (.tail (.tail (.tail (.tail (.single ⟨.openPath "tags.db", rfl⟩)
      ⟨.storeTags [tag "f" "ns", tag "g" "__anon1"] 0 true, rfl⟩) ⟨.ask (.tagsByName "f" false), rfl⟩)
      ⟨.ask (.tagsByName "g" false), rfl⟩) ⟨.outside (asked.disk.write "tags.db" "no database"), rfl⟩)
      ⟨.ask (.tagsByFile "a.c"), rfl⟩
  have hclosed : s.isOpen = false := by decide +kernel
  obtain ⟨hempty, _, _, hnothing⟩ := answers_kept_in_use ⟨rfl, rfl, rfl⟩ hs
  exact ⟨by decide +kernel, ⟨hclosed, by decide +kernel, hempty (.inl hclosed)⟩, hnothing hclosed _⟩

end Store
end TagIndex
