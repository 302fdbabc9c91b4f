import ScriptSessions.Proofs.Reference.Names
import ScriptSessions.Proofs.Reference.Origin
import ScriptSessions.Proofs.Reference.Winner

set_option autoImplicit false

/-! # Which entries have absolute paths

The path of a module comes about in one of two ways. A location that is no bare name is made
absolute and collapsed, and so its path is plain, from wherever it is asked for. A bare name is put
below a search directory, and the directory is taken as it is: a relative one makes a relative path,
and one with `.` or `..` in it makes a path with these (`Path.isPlain_div_iff`).

`PlacedIn` says that a path has come about in one of these ways. What fetches look at, what they
have found and what the cache keeps is so placed, and every step keeps it (`Fetch.Placed.step`),
even if the current directory changes. So an entry has a plain path if and only if it does not come
from a search directory that is not plain (`Service.isPlain_path_iff`).
-/

namespace ScriptSessions.Reference

/-- Whether the path of an entry is that of a bare name in a search directory. -/
def Entry.FoundIn (e : Entry) (d : Path) : Prop :=
  ∃ location, isBareName (Text.trim location) = true ∧ e.path = candidate location d

/-- How the paths of modules come about, given the search directories. -/
inductive PlacedIn (searchDirectories : List Path) : Path → Prop where
  /-- The collapsed path of a location. -/
  | collapsed (cwd : Path) (location : String) :
      PlacedIn searchDirectories (modulePath cwd location)
  /-- The path of a bare name in a search directory. -/
  | searched (location : String) (bare : isBareName (Text.trim location) = true) (d : Path)
      (hd : d ∈ searchDirectories) : PlacedIn searchDirectories (candidate location d)

theorem isPlain_modulePath (cwd : Path) (location : String) :
    (modulePath cwd location).IsPlain :=
  Path.isPlain_ofNames fun _ => Path.isName_of_mem_names

theorem isPlain_candidate_iff {location : String} (bare : isBareName (Text.trim location) = true)
    (d : Path) : (candidate location d).IsPlain ↔ d.IsPlain :=
  Path.isPlain_div_iff d (isName_moduleFileName bare)

/-- A path that has come about in one of the two ways is plain, unless it is that of a bare name in a
search directory that is not plain. -/
theorem PlacedIn.isPlain_iff {searchDirectories : List Path} {e : Entry}
    (h : PlacedIn searchDirectories e.path) :
    e.path.IsPlain ↔ ∀ d ∈ searchDirectories, e.FoundIn d → d.IsPlain := by
  constructor
  · rintro hplain d - ⟨location, bare, hpath⟩
    rw [hpath] at hplain
    exact (isPlain_candidate_iff bare d).mp hplain
  · intro hdirs
    generalize hp : e.path = p at h ⊢
    cases h with
    | collapsed cwd location => exact isPlain_modulePath cwd location
    | searched location bare d hd =>
        exact (isPlain_candidate_iff bare d).mpr (hdirs d hd ⟨location, bare, hp⟩)

/-! ## What fetches look at -/

/-- Whether a cache keeps only modules at paths that have come about in one of the two ways. -/
def Cache.Placed (c : Cache) : Prop :=
  ∀ cell e, (cell, e) ∈ c.filled → PlacedIn c.searchDirectories e.path

namespace Fetch

variable {w : World} {others : List Fetch} {searchDirectories : List Path} {c : Cache} {f : Fetch}

/-- The paths at which a fetch is going to look, or at which it has found its module. -/
def paths (f : Fetch) : List Path :=
  match f.stage with
  | .arriving | .waiting _ _ | .finished (.error _) => []
  | .searching _ _ candidates => candidates
  | .examining _ _ path | .documenting _ _ path _ => [path]
  | .finished (.ok e) => [e.path]

/-- Whether all paths of a fetch have come about in one of the two ways. -/
def Placed (searchDirectories : List Path) (f : Fetch) : Prop :=
  ∀ path ∈ f.paths, PlacedIn searchDirectories path

theorem placed_of_nil (h : f.paths = []) : f.Placed searchDirectories := by
  rw [Placed, h]
  exact fun _ hp => absurd hp List.not_mem_nil

theorem placed_singleton {path : Path} (h : f.paths = [path]) :
    f.Placed searchDirectories ↔ PlacedIn searchDirectories path := by
  rw [Placed, h, List.forall_mem_singleton]

theorem mem_paths_of_result? {e : Entry} (h : f.result? = some (.ok e)) : e.path ∈ f.paths := by
  obtain ⟨location, stage⟩ := f
  cases stage with
  | finished =>
      cases h
      exact List.mem_singleton_self e.path
  | arriving | waiting | searching | examining | documenting => cases h

theorem placed_beginLoading (cwd : Path) (c : Cache) (location : String) (key : Key)
    (cell : CellId) :
    Placed c.searchDirectories ⟨location, beginLoading cwd c location key cell⟩ := by
  unfold beginLoading
  by_cases bare : isBareName (Text.trim location) = true
  · rw [if_pos bare]
    intro path hpath
    obtain ⟨d, hd, rfl⟩ := List.mem_map.mp hpath
    exact .searched location bare d hd
  · rw [if_neg bare]
    exact (placed_singleton rfl).mpr (.collapsed cwd location)

/-- A fetch that goes on finds its module where it was looking, or in the cache. -/
theorem Placed.step (h : f.Placed c.searchDirectories) (hc : c.Placed) :
    (f.step w others c).1.Placed c.searchDirectories := by
  obtain ⟨location, stage⟩ := f
  cases stage with
  | arriving =>
      simp only [Fetch.step]
      split
      · exact placed_of_nil rfl
      · exact placed_of_nil rfl
  | waiting key cell =>
      simp only [Fetch.step]
      split
      · next e he =>
          -- somebody else has filled the cell, with a module that was looked for in the same ways
          exact (placed_singleton rfl).mpr (hc cell e (mem_of_lookup he))
      · split
        · exact placed_of_nil rfl
        · exact placed_beginLoading w.directory c location key cell
  | searching key cell candidates =>
      cases candidates with
      | nil => exact placed_of_nil rfl
      | cons path rest =>
          simp only [Fetch.step]
          split
          · exact (placed_singleton rfl).mpr (h path List.mem_cons_self)
          · exact fun p hp => h p (List.mem_cons_of_mem path hp)
  | examining key cell path =>
      simp only [Fetch.step]
      split
      · exact (placed_singleton rfl).mpr ((placed_singleton rfl).mp h)
      · exact placed_of_nil rfl
      · exact placed_of_nil rfl
      · exact placed_of_nil rfl
  | documenting key cell path search =>
      have hpath := (placed_singleton rfl).mp h
      cases search <;> exact (placed_singleton rfl).mpr hpath
  | finished result => exact h

end Fetch

namespace Cache

variable {w : World} {others : List Fetch} {c : Cache} {f : Fetch}

theorem placed_new (searchDirectories : List Path) (documentation : Documentation.Registry) :
    (new searchDirectories documentation).Placed :=
  fun _ _ h => absurd h List.not_mem_nil

theorem Placed.congr {d : Cache} (h : c.Placed) (filled : d.filled = c.filled)
    (searchDirectories : d.searchDirectories = c.searchDirectories) : d.Placed := by
  rw [Placed, filled, searchDirectories]
  exact h

/-- The cache is filled only by fetches that have found their module. -/
theorem Placed.step (h : c.Placed) (hf : f.Placed c.searchDirectories) :
    (f.step w others c).2.Placed := by
  have hmove := f.move_step w others c
  generalize (f.step w others c).1 = g at hmove
  generalize (f.step w others c).2 = d at hmove
  cases hmove with
  | idle | reject | take | begin | advance => exact h
  | obtain key =>
      refine h.congr ?_ (Fetch.searchDirectories_obtain c key)
      unfold obtain
      split <;> rfl
  | fill key cell path provider _ stage =>
      have hpaths : f.paths = [path] := by rw [Fetch.paths, stage]
      intro cell' e hmem
      rcases List.mem_cons.mp hmem with hnew | hold
      · cases hnew
        exact (Fetch.placed_singleton hpaths).mp hf
      · exact h cell' e hold
  | fail key cell =>
      split
      · exact h
      · refine h.congr ?_ (Fetch.searchDirectories_forget c key cell)
        unfold forget
        split <;> rfl

theorem Placed.of_get? (h : c.Placed) {cwd : Path} {location : String} {e : Entry}
    (he : c.get? cwd location = some e) : PlacedIn c.searchDirectories e.path := by
  obtain ⟨key, -, hentry⟩ := get?_eq_some_iff.mp he
  obtain ⟨cell, -, hfilled⟩ := entryAt?_eq_some_iff.mp hentry
  exact h cell e (mem_of_lookup hfilled)

theorem Placed.of_finish (h : c.Placed) (hf : f.Placed c.searchDirectories) {e : Entry}
    (he : (f.finish w c).1 = .ok e) : PlacedIn c.searchDirectories e.path := by
  fun_induction Fetch.finish w c f with
  | case1 c f result hresult =>
      rw [show result = .ok e from he] at hresult
      exact hf e.path (Fetch.mem_paths_of_result? hresult)
  | case2 c f hresult next ih =>
      have hdirs : next.2.searchDirectories = c.searchDirectories :=
        searchDirectories_step w [] c f
      rw [hdirs] at ih
      exact ih (h.step hf) (hf.step h) he

end Cache

/-! ## Services -/

namespace Service

variable {σ : Service}

/-- Whether everything that a service keeps or looks at is placed. -/
structure Placed (searchDirectories : List Path) (σ : Service) : Prop where
  dirs : σ.cache.searchDirectories = searchDirectories
  cache : σ.cache.Placed
  callers : ∀ a ∈ σ.callers, a.fetch.Placed searchDirectories

/-- **One action.** Whatever happens to a service, everything stays placed. -/
theorem Placed.perform {searchDirectories : List Path} (h : σ.Placed searchDirectories)
    (action : Action) : (σ.perform action).Placed searchDirectories := by
  have heffect := σ.effect_perform action
  generalize σ.perform action = τ at heffect
  cases heffect with
  | idle => exact h
  | call location =>
      exact ⟨h.dirs, h.cache,
        List.forall_mem_append.mpr ⟨h.callers, List.forall_mem_singleton.mpr (Fetch.placed_of_nil rfl)⟩⟩
  | step w i a at_i going =>
      have hdirs := Cache.searchDirectories_step w (σ.others i) σ.cache a.fetch
      have hfetch := h.callers a (List.mem_of_getElem? at_i)
      rw [← h.dirs] at hfetch
      refine ⟨hdirs.trans h.dirs, h.cache.step hfetch, forall_mem_set h.callers ?_⟩
      rw [← h.dirs]
      exact hfetch.step h.cache
  | abandon i a at_i =>
      exact ⟨h.dirs, h.cache, forall_mem_set h.callers (h.callers a (List.mem_of_getElem? at_i))⟩
  | document documentation => exact ⟨h.dirs, h.cache, h.callers⟩

/-- The ways in which a service gives out an entry: as the result of a call, when it is asked for
the entry of a location, and when a location is resolved. -/
inductive Gives (σ : Service) (e : Entry) : Prop where
  | result (i : Nat) (h : σ.result? i = some (.ok e))
  | get (cwd : Path) (location : String) (h : σ.cache.get? cwd location = some e)
  | resolve (w : World) (location : String) (h : (σ.cache.resolve w location).1 = .ok e)

theorem Placed.of_gives {searchDirectories : List Path} (h : σ.Placed searchDirectories)
    {e : Entry} (he : σ.Gives e) : PlacedIn searchDirectories e.path := by
  cases he with
  | result i hresult =>
      obtain ⟨a, at_i, hfetch⟩ := Option.bind_eq_some_iff.mp hresult
      exact h.callers a (List.mem_of_getElem? at_i) e.path (Fetch.mem_paths_of_result? hfetch)
  | get cwd location hget =>
      rw [← h.dirs]
      exact h.cache.of_get? hget
  | resolve w location hresolve =>
      rw [← h.dirs]
      exact h.cache.of_finish (Fetch.placed_of_nil rfl) hresolve

/-- **Paths are absolute unless a search directory is not.** Let anything happen to a new cache and
its callers, beside any files and seen from any directories. The path of an entry that is then given
out is plain if and only if every search directory is in which the entry was found under a bare
name. -/
theorem isPlain_path_iff (searchDirectories : List Path) (documentation : Documentation.Registry)
    (actions : List Action) (e : Entry)
    (given : ((new searchDirectories documentation).run actions).Gives e) :
    e.path.IsPlain ↔ ∀ d ∈ searchDirectories, e.FoundIn d → d.IsPlain := by
  have hnew : (new searchDirectories documentation).Placed searchDirectories :=
    ⟨rfl, Cache.placed_new searchDirectories documentation, nofun⟩
  have hrun := run_induction (fun _ a hσ => hσ.perform a) hnew actions
  exact (hrun.of_gives given).isPlain_iff

/-- The files with a library in a directory. -/
def withA : World := (default : World).putFile ⟨"/lib/a.dll"⟩ (.text "")

/-- The library is asked for by its bare name. -/
def searchA : List Action := .call "a" :: List.replicate 8 (.step 0 withA)

/-- Below an absolute search directory the library is found at a plain path. -/
theorem found_at_plain_path :
    ((new [⟨"/lib"⟩] default).run searchA).result? 0
      = some (.ok ⟨0, ⟨"a", ⟨"/lib/a.dll"⟩⟩, .empty⟩) ∧
    Path.IsPlain ⟨"/lib/a.dll"⟩ := by
  have hresult : ((new [⟨"/lib"⟩] default).run searchA).result? 0
      = some (.ok ⟨0, ⟨"a", ⟨"/lib/a.dll"⟩⟩, .empty⟩) := by rfl
  refine ⟨hresult, (isPlain_path_iff [⟨"/lib"⟩] default searchA _ (.result 0 hresult)).mpr ?_⟩
  intro d hd _
  rw [List.mem_singleton.mp hd]
  decide

/-- Below a relative search directory the same library is found at a relative path, and below one
with `..` in it at a path with `..` in it. -/
theorem found_at_relative_path :
    ((new [⟨"lib"⟩] default).run searchA).result? 0
      = some (.ok ⟨0, ⟨"a", ⟨"lib/a.dll"⟩⟩, .empty⟩) ∧
    Path.isAbsolute ⟨"lib/a.dll"⟩ = false ∧
    ((new [⟨"/lib/../lib"⟩] default).run searchA).result? 0
      = some (.ok ⟨0, ⟨"a", ⟨"/lib/../lib/a.dll"⟩⟩, .empty⟩) ∧
    ".." ∈ Path.segments ⟨"/lib/../lib/a.dll"⟩ :=
  ⟨by rfl, by decide, by rfl, by decide⟩

end Service

end ScriptSessions.Reference
