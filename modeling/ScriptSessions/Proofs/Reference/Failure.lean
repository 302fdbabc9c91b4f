import ScriptSessions.Proofs.Reference.Keys
import ScriptSessions.Proofs.Reference.Origin
import ScriptSessions.Proofs.Reference.Tracked

set_option autoImplicit false

/-! # Resolving alone, and failing

A location whose key is not tracked is resolved in three moves: its key gets a fresh cell, the
module is looked for, and then the cell is filled or the key is forgotten again
(`Cache.resolve_of_untracked`). The documentation is asked for in between, but only once the module
has been found. So a fetch that fails has done nothing but use up the identity of a cell
(`Cache.forget_obtain`), and that nobody can see.

While calls are under way there may be empty cells, and a call that was given up may leave one
behind. Once all calls are complete, every key that is tracked has an entry (`Cache.AtRest`). A
resolution that fails in such a cache shows nowhere, and does not stand in the way of a later one
(`Service.failed_resolve_leaves_no_trace`).
-/

namespace ScriptSessions.Reference

/-! ## The file that a location designates -/

section Designates

variable {w : World} {searchDirectories : List Path} {location : String}

/-- Whether the file of the module that a location designates is there: a file of its name in some
search directory for a bare name, and the file at the collapsed path for any other location. A blank
location designates nothing. -/
def Designates (w : World) (searchDirectories : List Path) (location : String) : Prop :=
  Text.trim location ≠ "" ∧
    if isBareName (Text.trim location) then
      ∃ d ∈ searchDirectories, w.isFile (candidate location d) = true
    else w.isFile (modulePath w.directory location) = true

instance : Decidable (Designates w searchDirectories location) := by
  unfold Designates
  infer_instance

theorem exists_examineModule_iff {path : Path} :
    (∃ path', examineModule w location path = .ok path') ↔ w.isFile path = true := by
  unfold examineModule World.isFile
  constructor
  · rintro ⟨path', h⟩
    split at h
    · next content hx => rw [hx]
    · cases h
    · cases h
    · cases h
  · intro h
    split at h
    · next content hx => exact ⟨path, by rw [hx]⟩
    · cases h

/-- A location leads to a module if and only if the file that it designates is there. -/
theorem exists_locateModule_iff :
    (∃ path, locateModule w searchDirectories location = .ok path) ↔
      Designates w searchDirectories location := by
  by_cases blank : Text.trim location = ""
  · simp [Designates, locateModule, Key.normalize, blank]
  · obtain ⟨key, hkey⟩ : ∃ key, Key.normalize w.directory location = .ok key :=
      ⟨_, Key.normalize_eq_ok_iff.mpr ⟨blank, rfl⟩⟩
    rw [Designates, and_iff_right blank, locateModule, hkey]
    dsimp only
    by_cases bare : isBareName (Text.trim location) = true
    · rw [if_pos bare, if_pos bare]
      cases hfind : (searchDirectories.map (candidate location)).find? w.isFile with
      | some path =>
          obtain ⟨d, hd, rfl⟩ := List.mem_map.mp (List.mem_of_find?_eq_some hfind)
          exact iff_of_true ⟨_, rfl⟩ ⟨d, hd, List.find?_some hfind⟩
      | none =>
          constructor
          · rintro ⟨path, h⟩
            cases h
          · rintro ⟨d, hd, hfile⟩
            exact absurd hfile (List.find?_eq_none.mp hfind _ (List.mem_map_of_mem hd))
    · rw [if_neg bare, if_neg bare]
      exact exists_examineModule_iff

end Designates

/-! ## Loading alone -/

/-- What comes of an empty cell once the module has been looked for: it is filled, or its key is
forgotten. -/
def Cache.conclude (w : World) (c : Cache) (key : Key) (cell : CellId) :
    Except Error Path → Except Error Entry × Cache
  | .error e => (.error e, c.forget key cell)
  | .ok path =>
    let (provider, c) := c.providerFor w path
    let (entry, c) := c.fill cell path provider
    (.ok entry, c)

namespace Fetch

variable {w : World} {location : String} {key : Key} {cell : CellId}

theorem finish_of_fail {c : Cache} {f : Fetch} {e : Error} (hf : f.result? = none)
    (h : f.step w [] c = f.fail [] c key cell e) :
    finish w c f = c.conclude w key cell (.error e) := by
  rw [finish_step hf h, finish_of_result? rfl]
  rfl

theorem finish_documenting (c : Cache) (path : Path) (search : Documentation.Search)
    (documentation : Documentation.Registry) :
    finish w { c with documentation } ⟨location, .documenting key cell path search⟩ =
      let (provider, documentation) := search.finish w documentation
      let (entry, c) := { c with documentation }.fill cell path provider
      (.ok entry, c) := by
  fun_induction Documentation.Search.finish w documentation search with
  | case1 documentation provider => rw [finish_step rfl rfl, finish_of_result? rfl]
  | case2 documentation p next ih => rw [finish_step rfl rfl]; exact ih
  | case3 documentation k files next ih => rw [finish_step rfl rfl]; exact ih
  | case4 documentation k file next ih => rw [finish_step rfl rfl]; exact ih

/-- A module that has been found is put into the cell, with its documentation. -/
theorem finish_found (location : String) (c : Cache) (path : Path) :
    finish w c ⟨location, .documenting key cell path (.asking path)⟩
      = c.conclude w key cell (.ok path) :=
  finish_documenting c path (.asking path) c.documentation

/-- The first file among the candidates is the module of a bare name. -/
theorem finish_searching (c : Cache) (candidates : List Path) :
    finish w c ⟨location, .searching key cell candidates⟩
      = c.conclude w key cell (match candidates.find? w.isFile with
          | some path => .ok path
          | none => .error (.notFound (Text.trim location))) := by
  induction candidates with
  | nil => exact finish_of_fail rfl rfl
  | cons path rest ih =>
      cases hfile : w.isFile path with
      | true =>
          rw [List.find?_cons_of_pos hfile, ← finish_found location]
          exact finish_step rfl (by simp only [step, hfile, if_true])
      | false =>
          rw [List.find?_cons_of_neg (by simp [hfile]), ← ih]
          exact finish_step rfl (by simp only [step, hfile, Bool.false_eq_true, if_false])

/-- The path of any other location is examined. -/
theorem finish_examining (c : Cache) (path : Path) :
    finish w c ⟨location, .examining key cell path⟩
      = c.conclude w key cell (examineModule w location path) := by
  unfold examineModule
  split
  · next content hx =>
      rw [← finish_found location]
      exact finish_step rfl (by simp only [step, hx])
  · next hx => exact finish_of_fail rfl (by simp only [step, hx])
  · next hx => exact finish_of_fail rfl (by simp only [step, hx])
  · next cause hne hx => exact finish_of_fail rfl (by simp only [step, hx])

end Fetch

namespace Cache

variable {w : World} {c d : Cache} {location : String} {key : Key} {e : Error}

/-- A fresh cell is empty. -/
theorem Tidy.entryOf?_obtain (tidy : c.Tidy) (untracked : c.cells.lookup key = none) :
    (c.obtain key).2.entryOf? (c.obtain key).1 = none := by
  rw [Cache.entryOf?_obtain, Cache.obtain, untracked]
  refine List.lookup_eq_none_iff.mpr fun p hp => ?_
  have hlt := tidy.filled_lt p hp
  simpa using (Nat.ne_of_lt hlt).symm

/-- A location without a key does not resolve, and the cache stays as it is. -/
theorem resolve_of_keyless (keyless : Key.normalize w.directory location = .error e) :
    c.resolve w location = (.error e, c) := by
  have hreject : (Fetch.start location).step w [] c = (⟨location, .finished (.error e)⟩, c) := by
    simp only [Fetch.start, Fetch.step, keyless]
  exact (Fetch.finish_step rfl hreject).trans (Fetch.finish_of_result? rfl)

/-- **A key that is not tracked.** A location with such a key is looked for, and what comes of it
concludes the load of a fresh cell. -/
theorem resolve_of_untracked (tidy : c.Tidy)
    (hkey : Key.normalize w.directory location = .ok key)
    (untracked : c.cells.lookup key = none) :
    c.resolve w location = (c.obtain key).2.conclude w key (c.obtain key).1
      (locateModule w c.searchDirectories location) := by
  have hempty := tidy.entryOf?_obtain untracked
  have hdirs := Fetch.searchDirectories_obtain c key
  have hobtain : (Fetch.start location).step w [] c
      = (⟨location, .waiting key (c.obtain key).1⟩, (c.obtain key).2) := by
    simp only [Fetch.start, Fetch.step, hkey]
  rw [resolve, Fetch.finish_step rfl hobtain]
  generalize (c.obtain key).1 = cell at *
  generalize (c.obtain key).2 = d at *
  -- the cell is empty and nobody else is loading it, so the fetch loads it itself
  have hbegin : Fetch.step w [] d ⟨location, .waiting key cell⟩
      = (⟨location, Fetch.beginLoading w.directory d location key cell⟩, d) := by
    simp only [Fetch.step, hempty, List.any_nil, Bool.false_eq_true, if_false]
  rw [Fetch.finish_step rfl hbegin]
  unfold Fetch.beginLoading locateModule
  rw [hkey, hdirs]
  dsimp only
  split
  · exact Fetch.finish_searching d _
  · exact Fetch.finish_examining d _

/-- Forgetting a key right after its cell was obtained leaves nothing but the used identity. -/
theorem forget_obtain (tidy : c.Tidy) (untracked : c.cells.lookup key = none) :
    (c.obtain key).2.forget key (c.obtain key).1 = { c with nextCell := c.nextCell + 1 } := by
  have hempty := tidy.entryOf?_obtain untracked
  have hcell := lookup_obtain c key
  rw [forget, if_pos ⟨hcell, hempty⟩, obtain, untracked]
  -- of the cells that were there before, none is that of the key
  have hothers : c.cells.filter (fun p => p.1 != key) = c.cells := by
    refine List.filter_eq_self.mpr fun p hp => ?_
    have hne := List.lookup_eq_none_iff.mp untracked p hp
    simpa [bne, Bool.beq_comm] using hne
  simp [List.filter_append, hothers]

/-! ## Caches at rest -/

/-- What holds of a cache when no call is under way and none was given up: every key that is tracked
has an entry. -/
structure AtRest (c : Cache) : Prop where
  tidy : c.Tidy
  once : c.KeyedOnce
  full : ∀ key, ¬ c.EmptyAt key

theorem AtRest.lookup_eq_none_iff (h : c.AtRest) :
    c.cells.lookup key = none ↔ c.entryAt? key = none := by
  constructor
  · intro hnone
    rw [entryAt?, hnone, Option.bind_none]
  · intro hentry
    cases hcell : c.cells.lookup key with
    | none => rfl
    | some cell =>
        rw [entryAt?, hcell, Option.bind_some] at hentry
        exact absurd ⟨cell, hcell, hentry⟩ (h.full key)

/-- What can be seen of a cache: how many entries it has, how many keys it tracks, the entry of
every location, and the registry of the documentation. -/
structure ShowsAs (c d : Cache) : Prop where
  size : c.size = d.size
  trackedKeys : c.trackedKeys = d.trackedKeys
  get : ∀ cwd location, c.get? cwd location = d.get? cwd location
  documentation : c.documentation = d.documentation

/-! ## What resolving does at rest -/

/-- What can come of a location in a cache at rest: `Resolves w c location result d` says that it
may resolve to the result and leave the cache `d`. -/
inductive Resolves (w : World) (c : Cache) (location : String) : Except Error Entry → Cache → Prop
    where
  /-- The location has no key. -/
  | keyless (e : Error) (hkey : Key.normalize w.directory location = .error e) :
      Resolves w c location (.error e) c
  /-- The key has an entry. -/
  | known (key : Key) (e : Entry) (hkey : Key.normalize w.directory location = .ok key)
      (he : c.entryAt? key = some e) : Resolves w c location (.ok e) c
  /-- The module is not found, and a cell was used up. -/
  | lost (key : Key) (e : Error) (hkey : Key.normalize w.directory location = .ok key)
      (fresh : c.entryAt? key = none)
      (nowhere : locateModule w c.searchDirectories location = .error e) :
      Resolves w c location (.error e) { c with nextCell := c.nextCell + 1 }
  /-- The module is found, and its entry is put into a fresh cell. -/
  | found (key : Key) (path : Path) (hkey : Key.normalize w.directory location = .ok key)
      (fresh : c.entryAt? key = none)
      (there : locateModule w c.searchDirectories location = .ok path) (e : Entry) (d : Cache)
      (hpath : e.path = path) (he : d.entryAt? key = some e)
      (cells : d.cells = c.cells ++ [(key, c.nextCell)]) : Resolves w c location (.ok e) d

theorem AtRest.resolves (h : c.AtRest) (w : World) (location : String) :
    Resolves w c location (c.resolve w location).1 (c.resolve w location).2 := by
  cases hkey : Key.normalize w.directory location with
  | error e =>
      rw [resolve_of_keyless hkey]
      exact .keyless e hkey
  | ok key =>
      cases he : c.entryAt? key with
      | some e =>
          rw [resolve_of_entryAt? hkey he]
          exact .known key e hkey he
      | none =>
          have untracked := h.lookup_eq_none_iff.mpr he
          rw [resolve_of_untracked h.tidy hkey untracked]
          cases hmodule : locateModule w c.searchDirectories location with
          | error e =>
              rw [conclude, forget_obtain h.tidy untracked]
              exact .lost key e hkey he hmodule
          | ok path =>
              refine .found key path hkey he hmodule _ _ rfl ?_ ?_
              · exact entryAt?_eq_some_iff.mpr
                  ⟨_, lookup_obtain c key, entryOf?_fill_self _ _ _ _⟩
              · show (c.obtain key).2.cells = _
                rw [obtain, untracked]

/-! ## Failing -/

/-- Whether a location resolves, to an entry that the cache then has for it, and makes the cache
track one key more. -/
def Gains (w : World) (c : Cache) (location : String) : Prop :=
  (∃ e, (c.resolve w location).1 = .ok e ∧
    (c.resolve w location).2.get? w.directory location = some e) ∧
  (c.resolve w location).2.trackedKeys = c.trackedKeys + 1

/-- A location without an entry gets one if and only if the file that it designates is there. -/
theorem AtRest.gains_iff (h : c.AtRest) (fresh : c.get? w.directory location = none) :
    c.Gains w location ↔ Designates w c.searchDirectories location := by
  have hresolves := h.resolves w location
  rw [← exists_locateModule_iff, Gains]
  generalize (c.resolve w location).1 = result at *
  generalize (c.resolve w location).2 = d at *
  cases hresolves with
  | keyless e hkey =>
      constructor
      · rintro ⟨⟨_, hok, -⟩, -⟩
        cases hok
      · rintro ⟨path, hpath⟩
        simp [locateModule, hkey] at hpath
  | known key e hkey he => rw [get?_of_entryAt? hkey he] at fresh; cases fresh
  | lost key e hkey _ nowhere =>
      constructor
      · rintro ⟨⟨_, hok, -⟩, -⟩
        cases hok
      · rintro ⟨path, hpath⟩
        rw [nowhere] at hpath
        cases hpath
  | found key path hkey _ there e d hpath he cells =>
      refine iff_of_true ⟨⟨e, rfl, get?_of_entryAt? hkey he⟩, ?_⟩ ⟨path, there⟩
      rw [trackedKeys, cells, List.length_append]
      rfl

/-- A resolution that fails shows nowhere. -/
theorem Resolves.showsAs (h : Resolves w c location (.error e) d) :
    d.ShowsAs c ∧ d.get? w.directory location = none := by
  cases h with
  | keyless _ hkey => exact ⟨⟨rfl, rfl, fun _ _ => rfl, rfl⟩, by rw [get?, hkey]⟩
  | lost key _ hkey fresh =>
      exact ⟨⟨rfl, rfl, fun _ _ => rfl, rfl⟩, (get?_of_key hkey).trans fresh⟩

/-- A resolution that fails leaves the cache at rest. -/
theorem Resolves.atRest (h : Resolves w c location (.error e) d) (rest : c.AtRest) :
    d.AtRest ∧ d.searchDirectories = c.searchDirectories := by
  cases h with
  | keyless => exact ⟨rest, rfl⟩
  | lost =>
      have htidy := rest.tidy
      exact ⟨⟨⟨fun p hp => Nat.lt_succ_of_lt (htidy.cells_lt p hp), htidy.cells_nodup,
        fun p hp => Nat.lt_succ_of_lt (htidy.filled_lt p hp), htidy.entries_lt,
        htidy.entries_nodup⟩, rest.once, rest.full⟩, rfl⟩

end Cache

namespace Service

/-- Whether all calls of a run have been completed at its end: none was given up, and none is under
way. -/
def Completes (σ : Service) (actions : List Action) : Prop :=
  (∀ i, .abandon i ∉ actions) ∧ (σ.run actions).Idle

theorem searchDirectories_run (σ : Service) (actions : List Action) :
    (σ.run actions).cache.searchDirectories = σ.cache.searchDirectories := by
  refine run_induction (P := fun τ => τ.cache.searchDirectories = σ.cache.searchDirectories)
    (fun τ a hτ => ?_) rfl actions
  have heffect := τ.effect_perform a
  generalize τ.perform a = υ at heffect
  cases heffect with
  | idle | call | abandon | document => exact hτ
  | step w i a => exact (Cache.searchDirectories_step w (τ.others i) τ.cache a.fetch).trans hτ

/-- Calls that come to a cache at rest leave it at rest, once all are completed. -/
theorem atRest_run {c : Cache} (h : c.AtRest) {actions : List Action}
    (complete : Completes ⟨c, []⟩ actions) : (run ⟨c, []⟩ actions).cache.AtRest := by
  obtain ⟨patient, idle⟩ := complete
  have hneat : Neat ⟨c, []⟩ := ⟨⟨Cache.sound_nil c, nofun⟩, h.tidy, h.once⟩
  refine ⟨(hneat.run actions).tidy, (hneat.run actions).once, fun key hempty => ?_⟩
  -- an empty cell that nobody holds was there before, or a call that was given up has left it
  rcases (hneat.emptyAt_run_iff key actions).mp ⟨hempty, idle.not_holds key⟩ with
    ⟨hold, -⟩ | ⟨before, i, after, rfl, -⟩
  · exact h.full key hold
  · exact patient i (List.mem_append_right before List.mem_cons_self)

/-- What it means that a location, which has failed to resolve, has left no trace in the cache `c`
and does not stand in its own way later. -/
structure LeavesNoTrace (w : World) (c : Cache) (location : String) : Prop where
  /-- Nothing that can be seen of the cache has changed. -/
  shown : (c.resolve w location).2.ShowsAs c
  /-- Beside other files the location gets an entry and adds one tracked key, if and only if the file
  that it designates is there. -/
  again : ∀ files, (c.resolve w location).2.Gains { w with files } location ↔
    Designates { w with files } c.searchDirectories location
  /-- So it does after other calls have been completed, unless they gave its key the entry. -/
  later : ∀ actions, Completes ⟨(c.resolve w location).2, []⟩ actions → ∀ w',
    (run ⟨(c.resolve w location).2, []⟩ actions).cache.get? w'.directory location = none →
    ((run ⟨(c.resolve w location).2, []⟩ actions).cache.Gains w' location ↔
      Designates w' c.searchDirectories location)

/-- **A failed resolution leaves no trace.** Let all calls that have come to a new cache be completed.
If a location then fails to resolve, beside whatever files and for whatever reason, nothing that can
be seen of the cache has changed, and the location resolves as soon as its file is there. -/
theorem failed_resolve_leaves_no_trace (searchDirectories : List Path)
    (documentation : Documentation.Registry) (actions : List Action)
    (complete : (new searchDirectories documentation).Completes actions)
    (w : World) (location : String) (e : Error)
    (failed : (((new searchDirectories documentation).run actions).cache.resolve w location).1
      = .error e) :
    LeavesNoTrace w ((new searchDirectories documentation).run actions).cache location := by
  have hrest : ((new searchDirectories documentation).run actions).cache.AtRest := by
    refine atRest_run ⟨Cache.tidy_new _ _, .nil, ?_⟩ complete
    -- a new cache has no cells, and so no empty ones
    rintro key ⟨cell, hcell, -⟩
    cases hcell
  generalize ((new searchDirectories documentation).run actions).cache = c at *
  have hresolves := hrest.resolves w location
  rw [failed] at hresolves
  obtain ⟨hshows, hnone⟩ := hresolves.showsAs
  obtain ⟨hrest', hdirs⟩ := hresolves.atRest hrest
  refine ⟨hshows, fun files => ?_, fun actions hactions w' fresh => ?_⟩
  · rw [← hdirs]
    exact hrest'.gains_iff hnone
  · rw [← hdirs, ← searchDirectories_run ⟨(c.resolve w location).2, []⟩ actions]
    exact (atRest_run hrest' hactions).gains_iff fresh

/-- The files with a library in the root directory, and another one in a search directory. -/
def withBoth : World := withLib.putFile ⟨"/libs/Missing.dll"⟩ (.text "")

/-- A cache with a search directory that knows the library in the root directory. -/
def knowingLib : Service := (new [⟨"/libs"⟩] default).run (libCalls ++ [.step 1 default])

/-- The other library is not found. It leaves no trace, and resolves as soon as its file is there. -/
theorem missing_leaves_no_trace :
    knowingLib.cache.trackedKeys = 1 ∧
    (knowingLib.cache.resolve withLib "Missing").1 = .error (.notFound "Missing") ∧
    (knowingLib.cache.resolve withLib "Missing").2.ShowsAs knowingLib.cache ∧
    (knowingLib.cache.resolve withLib "Missing").2.Gains { withLib with files := withBoth.files }
      "Missing" := by
  have hdirs : knowingLib.cache.searchDirectories = [⟨"/libs"⟩] := searchDirectories_run _ _
  have hfails : (knowingLib.cache.resolve withLib "Missing").1 = .error (.notFound "Missing") := by
    have htidy : knowingLib.cache.Tidy := ((neat_new _ _).run _).tidy
    have hkey : Key.normalize withLib.directory "Missing" = .ok ⟨"Missing"⟩ := rfl
    have huntracked : knowingLib.cache.cells.lookup ⟨"Missing"⟩ = none := by decide
    have hlost : locateModule withLib [⟨"/libs"⟩] "Missing" = .error (.notFound "Missing") := rfl
    rw [Cache.resolve_of_untracked htidy hkey huntracked, hdirs, hlost, Cache.conclude]
  have hcomplete : (new [⟨"/libs"⟩] default).Completes (libCalls ++ [.step 1 default]) :=
    ⟨by simp [libCalls], by unfold Idle; decide⟩
  have hnothing : LeavesNoTrace withLib knowingLib.cache "Missing" :=
    failed_resolve_leaves_no_trace _ _ _ hcomplete _ _ _ hfails
  have hthere : Designates { withLib with files := withBoth.files }
      knowingLib.cache.searchDirectories "Missing" := by
    rw [hdirs]
    decide
  exact ⟨by decide, hfails, hnothing.shown, (hnothing.again withBoth.files).mpr hthere⟩

end Service

end ScriptSessions.Reference
