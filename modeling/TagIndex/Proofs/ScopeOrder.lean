import TagIndex.Proofs.Gathering
import TagIndex.Proofs.Joining

/-!
# Scopes in order

Lookups in several scopes go through these in the order of their list, and the limit cuts what they have
fetched from the end. It also cuts what they fetch: the scopes that have a name share one query, whose rows do
not come in that order, and kinds are looked at after the cut. So a row of a later scope can be found while one
of an earlier scope is not.
-/

namespace TagIndex.Store

open Lookup Query

variable {s : Store} {kinds : List String}

theorem tagsByScopesAndName_answer (hf : s.Fresh) (hs : s.Steady) (scopes : List String) {name : String}
    (hn : name ≠ "") (isPartial : Bool) : ((tagsByScopesAndName scopes name isPartial).run s).1 =
      joinedNames scopes (Test.forName name isPartial s.options.caseSensitive) s.options.searchLimit
        s.database := by
  have ht : Told (fun _ => True) [] := fun _ _ htext => kindsText_eq_empty htext
  exact (serves_tagsByScopesAndName trivial ht scopes hn isPartial s ⟨hs, hf.isCurrent, rfl, rfl⟩).2

theorem tagsByScopesAndKind_answer (h : s.PlainlyAsked) (hs : s.Steady) (hk : PlainKinds kinds)
    (hne : kinds ≠ []) (scopes : List String) : ((tagsByScopesAndKind scopes kinds).run s).1 =
      gathered s.options.searchLimit kinds s.database scopes [] := by
  have ht : Told PlainKinds kinds := fun _ hk' htext => kindsText_injective hk' hk htext
  exact (serves_tagsByScopesAndKind hk ht hne scopes s ⟨hs, h.isCurrentBy, rfl, rfl⟩).2

/-- A session that has stored a batch has met no failure and no trouble. -/
theorem stored_once (limit : Nat) (tags : List Tag) :
    let s := Step.act (Step.act (Step.act {} (.setSearchLimit limit)) (.openPath "tags.db"))
      (.storeTags tags 0 true)
    s.Unscathed ∧ s.PlainlyAsked ∧ s.disk.Calm := by
  intro s
  have hu : s.Unscathed :=
    .next (.storeTags tags 0 true) (.next (.openPath "tags.db") (.next (.setSearchLimit limit)
      (.new ⟨rfl, rfl, rfl⟩ fun _ => .refl _) trivial id) trivial id) trivial id
  have hnone : s.cache.entries = [] :=
    Step.act_empty (Step.act_empty (Step.act_empty rfl nofun) nofun) nofun
  exact ⟨hu, .of_empty hu.reachable hnone, Step.calm (Step.calm (Step.calm (fun _ => rfl) nofun) nofun) nofun⟩

end TagIndex.Store
