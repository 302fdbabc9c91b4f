import ScriptSessions.Proofs.Reference.Origin
import ScriptSessions.Reference.DefaultSet

set_option autoImplicit false

/-! # What is in a default set

The default references are kept by name, and each under its own name once. They come out of the
cache one after another, and the cache that they leave behind knows them all
(`DefaultSet.Built`).
-/

namespace ScriptSessions.Reference

/-! ## Recording in a table -/

theorem mem_record {α : Type} {table : List (String × α)} {key : String} {value : α}
    {p : String × α} (h : p ∈ record table key value) : p ∈ table ∨ p = (key, value) := by
  induction table with
  | nil => exact .inr (List.mem_singleton.mp h)
  | cons q rest ih =>
      obtain ⟨k, v⟩ := q
      rw [record] at h
      split at h
      · exact (List.mem_cons.mp h).symm.imp_left (List.mem_cons_of_mem _)
      · rcases List.mem_cons.mp h with rfl | hrest
        · exact .inl List.mem_cons_self
        · exact (ih hrest).imp_left (List.mem_cons_of_mem _)

/-- Recording uses no key twice. -/
theorem nodup_record {α : Type} {table : List (String × α)} (h : (table.map Prod.fst).Nodup)
    (key : String) (value : α) : ((record table key value).map Prod.fst).Nodup := by
  induction table with
  | nil => exact List.nodup_cons.mpr ⟨List.not_mem_nil, .nil⟩
  | cons q rest ih =>
      obtain ⟨k, v⟩ := q
      obtain ⟨hk, hrest⟩ := List.nodup_cons.mp h
      rw [record]
      split
      · next heq => exact heq ▸ h
      · next hne =>
          refine List.nodup_cons.mpr ⟨fun hmem => ?_, ih hrest⟩
          obtain ⟨p, hp, hfst⟩ := List.mem_map.mp hmem
          rcases mem_record hp with hold | rfl
          · exact hk (List.mem_map.mpr ⟨p, hold, hfst⟩)
          · exact hne hfst.symm

namespace DefaultSet

/-! ## Building -/

/-- What holds of a default set that was built through a cache: the cache knows its entries, and
each of them is kept under its own name, which is used once. -/
structure Built (c : Cache) (s : DefaultSet) : Prop where
  known : ∀ p ∈ s.table, c.Knows p.2
  keyed : ∀ p ∈ s.table, p.1 = nameKey p.2.name
  nodup : (s.table.map Prod.fst).Nodup

theorem built_empty (c : Cache) (imports facades : List String) :
    Built c { imports, facades } := ⟨nofun, nofun, .nil⟩

theorem Built.keeps {c d : Cache} {s : DefaultSet} (h : s.Built c) (hcd : c.Keeps d) :
    s.Built d :=
  ⟨fun p hp => (h.known p hp).keeps hcd, h.keyed, h.nodup⟩

theorem Built.record {c : Cache} {s s' : DefaultSet} {e : Entry} (h : s.Built c)
    (known : c.Knows e) (table : s'.table = record s.table (nameKey e.name) e) : s'.Built c := by
  refine ⟨fun p hp => ?_, fun p hp => ?_, by rw [table]; exact nodup_record h.nodup _ _⟩
  · rw [table] at hp
    rcases mem_record hp with hold | rfl
    · exact h.known p hold
    · exact known
  · rw [table] at hp
    rcases mem_record hp with hold | rfl
    · exact h.keyed p hold
    · rfl

variable {S : Setting} {w : World}

/-- What building leaves behind: a regular cache, and a default set that was built through it. -/
structure Prepared (S : Setting) (directories : Documentation.Directories) (s : DefaultSet)
    (c : Cache) : Prop where
  regular : c.Regular S []
  built : s.Built c
  directories : c.documentation.directories = directories

theorem Prepared.addAll {directories : Documentation.Directories}
    {add : DefaultSet → Entry → DefaultSet}
    (hadd : ∀ s e, (add s e).table = record s.table (nameKey e.name) e) (hw : S.worlds w)
    (locations : List String) (asked : ∀ l ∈ locations, S.asked l) {s : DefaultSet} {c : Cache}
    (h : Prepared S directories s c) :
    Prepared S directories (addAll w add s c locations).1 (addAll w add s c locations).2 := by
  induction locations generalizing s c with
  | nil => exact h
  | cons location rest ih =>
      have hsettled := h.regular.resolve hw (asked location List.mem_cons_self)
      have hrest {s c} := ih (fun l hl => asked l (List.mem_cons_of_mem _ hl)) (s := s) (c := c)
      have hdirs := hsettled.directories.trans h.directories
      simp only [DefaultSet.addAll]
      generalize c.resolve w location = r at *
      obtain ⟨result, d⟩ := r
      cases result with
      | ok e =>
          have hbuilt := (h.built.keeps hsettled.keeps).record (hsettled.ok e rfl) (hadd s e)
          exact hrest ⟨hsettled.regular, hbuilt, hdirs⟩
      | error =>
          exact hrest ⟨hsettled.regular, h.built.keeps hsettled.keeps, hdirs⟩

/-- The locations that a default set is built from. -/
def startLocations (w : World) (directories : Documentation.Directories) (sources : Sources) :
    List String :=
  distinct (sources.wellKnown.map (·.assembly)) ++ sources.extraReferences ++
    facadeLocations w directories

/-- A default set that was built is known to the cache that it has left behind. -/
theorem prepared_build {c : Cache} (h : c.Regular S []) (hw : S.worlds w) (sources : Sources)
    (asked : ∀ l ∈ startLocations w c.documentation.directories sources, S.asked l) :
    Prepared S c.documentation.directories (build w c sources).1 (build w c sources).2 := by
  have hstart : Prepared S c.documentation.directories {} c := ⟨h, built_empty c [] [], rfl⟩
  have hinsert (s : DefaultSet) (e : Entry) :
      (s.insert e).table = record s.table (nameKey e.name) e := rfl
  have hfacade (s : DefaultSet) (e : Entry) :
      (s.insertFacade e).table = record s.table (nameKey e.name) e := rfl
  simp only [startLocations, List.mem_append] at asked
  have h₁ := hstart.addAll hinsert hw (distinct (sources.wellKnown.map (·.assembly)))
    fun l hl => asked l (.inl (.inl hl))
  simp only [build, buildOn]
  generalize DefaultSet.addAll w insert {} c _ = r₁ at *
  obtain ⟨s₁, c₁⟩ := r₁
  have h₂ := h₁.addAll hinsert hw sources.extraReferences fun l hl => asked l (.inl (.inr hl))
  generalize DefaultSet.addAll w insert s₁ c₁ _ = r₂ at *
  obtain ⟨s₂, c₂⟩ := r₂
  have h₃ := h₂.addAll hfacade hw (facadeLocations w c.documentation.directories)
    fun l hl => asked l (.inr hl)
  generalize DefaultSet.addAll w insertFacade s₂ c₂ _ = r₃ at *
  obtain ⟨s₃, c₃⟩ := r₃
  exact ⟨h₃.regular, ⟨h₃.built.known, h₃.built.keyed, h₃.built.nodup⟩,
    h₃.directories⟩

end DefaultSet

end ScriptSessions.Reference
