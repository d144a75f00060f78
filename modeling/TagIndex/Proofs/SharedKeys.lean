import TagIndex.Proofs.Asking
import TagIndex.Proofs.Key

/-!
# Lookups that share a key

Lookups with one key are of one query. Their filters can differ only if a kind has an `@` in it, and
then the lookups differ on each kind that the query can answer and only one of the filters has.
-/

namespace TagIndex

open Text Lookup

namespace Query

variable {q : Query} {kinds kinds' : List String}

/-! ## Kinds in a row -/

theorem toList_kindsText (kinds : List String) :
    (kindsText kinds).toList = row ['@'] String.toList kinds := by
  simp [kindsText, row, String.toList_join, List.flatMap_map]

/-- No kind has an `@` in it. -/
def PlainKinds (kinds : List String) : Prop := ∀ k ∈ kinds, '@' ∉ k.toList

theorem kindsText_eq_empty (h : kindsText kinds = kindsText []) : kinds = [] := by
  have hl := congrArg String.toList h
  rw [toList_kindsText, toList_kindsText] at hl
  cases kinds with
  | nil => rfl
  | cons k kinds => simp [row] at hl

theorem kindsText_injective (hk : PlainKinds kinds) (hk' : PlainKinds kinds')
    (h : kindsText kinds = kindsText kinds') : kinds = kinds' := by
  have hrow := congrArg String.toList h
  rw [toList_kindsText, toList_kindsText] at hrow
  clear h
  -- With one more `@` at the end, every kind is followed by one.
  have hnext : ∀ ks : List String, ∃ z, row ['@'] String.toList ks ++ ['@'] = '@' :: z := by
    intro ks
    cases ks <;> simp [row]
  induction kinds generalizing kinds' with
  | nil =>
      cases kinds' with
      | nil => rfl
      | cons k' kinds' => simp [row] at hrow
  | cons k kinds ih =>
      cases kinds' with
      | nil => simp [row] at hrow
      | cons k' kinds' =>
          obtain ⟨z, hz⟩ := hnext kinds
          obtain ⟨z', hz'⟩ := hnext kinds'
          have hcut : k.toList ++ '@' :: z = k'.toList ++ '@' :: z' := by
            rw [← hz, ← hz']
            simpa [row] using congrArg (· ++ ['@']) hrow
          obtain ⟨hkk, hzz⟩ := cut_before (hk k List.mem_cons_self) (hk' k' List.mem_cons_self) hcut
          rw [← hzz, ← hz] at hz'
          rw [String.toList_inj.mp hkk,
            ih (fun k hm => hk k (List.mem_cons_of_mem _ hm))
              (fun k hm => hk' k (List.mem_cons_of_mem _ hm)) (List.append_cancel_right hz').symm]

/-! ## Answers without the cache -/

/-- On some database the query answers a row of the kind. -/
def CanAnswer (q : Query) (kind : String) : Prop :=
  ∃ (db : Database) (rows : List Row), q.run db = .ok rows ∧ ∃ r ∈ rows, r.tag.kind = kind

end Query

namespace Store

variable {q q' : Query} {kinds kinds' : List String} {s : Store}

theorem fetchKinds_uncached (hs : s.options.useCache = false) (q : Query) (kinds : List String) :
    ((fetchKinds q kinds).run s).1 = if q.isTooLarge then [] else
      (((askDatabase q.run).run s).1.map (keepKinds kinds)).getD [] := by
  rw [fetchKinds_answer, hs]
  rfl

theorem keepKinds_eq_filter (hk : kinds ≠ []) (rows : List Row) :
    keepKinds kinds rows = rows.filter fun r => kinds.contains r.tag.kind := by
  rw [keepKinds, if_neg (by simpa using hk)]

theorem keepKinds_eq_iff (hnil : kinds = [] ↔ kinds' = []) (rows : List Row) :
    keepKinds kinds rows = keepKinds kinds' rows ↔
      ∀ r ∈ rows, (r.tag.kind ∈ kinds ↔ r.tag.kind ∈ kinds') := by
  by_cases hk : kinds = []
  · rw [hk, hnil.mp hk]
    simp
  · have hk' : kinds' ≠ [] := fun h => hk (hnil.mpr h)
    rw [keepKinds_eq_filter hk, keepKinds_eq_filter hk']
    constructor
    · intro h r hr
      have hmem : r ∈ rows.filter (fun r => kinds.contains r.tag.kind) ↔
          r ∈ rows.filter (fun r => kinds'.contains r.tag.kind) := by rw [h]
      simpa [List.mem_filter, hr] using hmem
    · intro h
      refine List.filter_congr fun r hr => ?_
      rw [Bool.eq_iff_iff, List.contains_iff_mem, List.contains_iff_mem]
      exact h r hr

/-- A store without a cache that is open on a database. -/
def opened (db : Database) : Store where
  disk := { files := [(.inside [], .database db)] }
  options := { useCache := false }
  connection := some { place := .inside [] }

theorem askDatabase_opened {α : Type} {db : Database} {f : Database → Except Fault α} {a : α}
    (h : f db = .ok a) : ((askDatabase f).run (opened db)).1 = some a := by
  have hr : (opened db).refusals { place := .inside [] } .reads 0 = none := by
    simp [refusals, opened, Disk.database?, Disk.content?]
  have hd : (opened db).database = db := rfl
  rw [askDatabase_answer (c := { place := .inside [] }) rfl hr, hd, h]
  rfl

/-- Lookups with one key are of one query, and of one filter unless a kind has an `@` in it. Without the
cache they agree everywhere exactly if the filters agree on every kind that the query can answer. -/
theorem lookups_of_one_key (h : q.key kinds = q'.key kinds') :
    q = q' ∧
    ((∀ k ∈ kinds, '@' ∉ k.toList) → (∀ k ∈ kinds', '@' ∉ k.toList) → kinds = kinds') ∧
    ((∀ s : Store, s.options.useCache = false →
        ((fetchKinds q kinds).run s).1 = ((fetchKinds q' kinds').run s).1) ↔
      q.isTooLarge ∨ ∀ kind, q.CanAnswer kind → (kind ∈ kinds ↔ kind ∈ kinds')) := by
  obtain ⟨rfl, htext⟩ := Query.key_eq_iff.mp h
  have hnil : kinds = [] ↔ kinds' = [] := by
    constructor
    · rintro rfl
      exact Query.kindsText_eq_empty htext.symm
    · rintro rfl
      exact Query.kindsText_eq_empty htext
  refine ⟨rfl, fun hk hk' => Query.kindsText_injective hk hk' htext, ?_⟩
  constructor
  · intro hagree
    cases hl : q.isTooLarge with
    | true => exact .inl rfl
    | false =>
        right
        -- On a database that answers such a row, both filters must agree about it.
        rintro kind ⟨db, rows, hrun, r, hr, rfl⟩
        have hrows := hagree (opened db) rfl
        rw [fetchKinds_uncached rfl, fetchKinds_uncached rfl, askDatabase_opened hrun, hl] at hrows
        exact (keepKinds_eq_iff hnil rows).mp (by simpa using hrows) r hr
  · intro hcond s hs
    rw [fetchKinds_uncached hs, fetchKinds_uncached hs]
    rcases hcond with hl | hsame
    · rw [if_pos hl, if_pos hl]
    · congr 1
      rcases s.askDatabase_cases q.run with ⟨rows, c, hc, hrun, hsome, _⟩ | ⟨hnone, _⟩
      · rw [hsome]
        refine congrArg (fun rows => (some rows).getD []) ((keepKinds_eq_iff hnil rows).mpr ?_)
        exact fun r hr => hsame _ ⟨s.database, rows, hrun, r, hr, rfl⟩
      · rw [hnone]
        rfl

/-- A kind with an `@` shares its key with the two kinds around it, and not its rows. -/
theorem lookups_of_one_key_differ :
    let q := Query.byPath "p" 250
    q.key ["a", "b"] = q.key ["a@b"] ∧ ¬ ∀ s : Store, s.options.useCache = false →
      ((fetchKinds q ["a", "b"]).run s).1 = ((fetchKinds q ["a@b"]).run s).1 := by
  intro q
  have hkey : q.key ["a", "b"] = q.key ["a@b"] := by decide +kernel
  refine ⟨hkey, fun hagree => ?_⟩
  have hsmall : q.isTooLarge = false := by decide +kernel
  have hanswer : q.CanAnswer "a" := by
    let r : Row := ⟨1, { name := "x", file := "f.c", kind := "a", path := "p" }⟩
    refine ⟨{ tags := [r] }, [r], ?_, r, List.mem_singleton_self r, rfl⟩
    decide +kernel
  rcases (lookups_of_one_key hkey).2.2.mp hagree with h | h
  · rw [hsmall] at h
    cases h
  · have hab : "a" ∈ ["a@b"] := (h "a" hanswer).mp List.mem_cons_self
    exact absurd hab (by decide)

end Store
end TagIndex
