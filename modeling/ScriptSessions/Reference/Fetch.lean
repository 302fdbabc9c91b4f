import ScriptSessions.Reference.Cache

set_option autoImplicit false

/-! # Resolving a location

A *fetch* is one request for the entry of a location. It obtains the cell of the key, waits
until no other fetch is loading into that cell, and then takes the entry that it finds there
or loads one itself: it looks for the module, asks for the documentation provider of the
module, and fills the cell. A fetch that does not find the module stops tracking the key,
unless another fetch still holds the cell.

Each step (`Fetch.step`) looks at the disk at most once. Between two steps of a fetch other
fetches may run, files may change, and the fetch may be abandoned; what a step needs to know
of the other fetches is only which cells they hold and which cells they load.
`Cache.resolve` is a fetch that runs without a break and alone.
-/

namespace ScriptSessions.Reference

/-! ## Fetches -/

/-- How far a fetch has come. -/
inductive Fetch.Stage where
  /-- Nothing has been done. -/
  | arriving
  /-- The cell of the key is held, and the fetch waits for its turn. -/
  | waiting (key : Key) (cell : CellId)
  /-- The assembly is looked up at these places. -/
  | searching (key : Key) (cell : CellId) (candidates : List Path)
  /-- What stands at the path is about to be examined. -/
  | examining (key : Key) (cell : CellId) (path : Path)
  /-- The module is found, and its documentation provider is asked for. -/
  | documenting (key : Key) (cell : CellId) (path : Path) (search : Documentation.Search)
  /-- The fetch is over. -/
  | finished (result : Except Error Entry)

/-- A request for the entry of a location. -/
structure Fetch where
  location : String
  stage : Fetch.Stage

namespace Fetch

/-- A fetch that has not begun. -/
def start (location : String) : Fetch := ⟨location, .arriving⟩

/-- The cell that a fetch holds. -/
def held? (f : Fetch) : Option CellId :=
  match f.stage with
  | .waiting _ cell | .searching _ cell _ | .examining _ cell _ | .documenting _ cell _ _ =>
    some cell
  | .arriving | .finished _ => none

/-- The cell that a fetch is loading into. -/
def loading? (f : Fetch) : Option CellId :=
  match f.stage with
  | .searching _ cell _ | .examining _ cell _ | .documenting _ cell _ _ => some cell
  | .arriving | .waiting _ _ | .finished _ => none

/-- The result of a fetch that is over. -/
def result? (f : Fetch) : Option (Except Error Entry) :=
  match f.stage with
  | .finished result => some result
  | _ => none

/-! ## Steps -/

/-- The file name under which a bare name is looked up. -/
def moduleFileName (location : String) : String := stripSuffixes location ++ ".dll"

/-- The first stage of loading: a bare name is looked up in the search directories, and any
other location is a path to examine. -/
def beginLoading (cwd : Path) (c : Cache) (location : String) (key : Key) (cell : CellId) :
    Stage :=
  let location := Text.trim location
  if isBareName location then
    .searching key cell (c.searchDirectories.map (· / moduleFileName location))
  else .examining key cell (Path.ofNames (Path.names cwd ⟨location⟩))

/-- The end of a fetch that found no module. -/
def fail (others : List Fetch) (c : Cache) (f : Fetch) (key : Key) (cell : CellId)
    (e : Error) : Fetch × Cache :=
  ({ f with stage := .finished (.error e) },
    if others.any (fun g => g.held? == some cell) then c else c.forget key cell)

/-- One step of a fetch beside the others. A fetch whose cell another one is loading stays
where it is. -/
def step (w : World) (others : List Fetch) (c : Cache) (f : Fetch) : Fetch × Cache :=
  match f.stage with
  | .arriving =>
    match Key.normalize w.directory f.location with
    | .error e => ({ f with stage := .finished (.error e) }, c)
    | .ok key =>
      let (cell, c) := c.obtain key
      ({ f with stage := .waiting key cell }, c)
  | .waiting key cell =>
    match c.entryOf? cell with
    | some entry => ({ f with stage := .finished (.ok entry) }, c)
    | none =>
      if others.any (fun g => g.loading? == some cell) then (f, c)
      else ({ f with stage := beginLoading w.directory c f.location key cell }, c)
  | .searching key cell [] => fail others c f key cell (.notFound (Text.trim f.location))
  | .searching key cell (path :: rest) =>
    if w.isFile path then ({ f with stage := .documenting key cell path (.asking path) }, c)
    else ({ f with stage := .searching key cell rest }, c)
  | .examining key cell path =>
    match w.examine path with
    | .ok (.file _) => ({ f with stage := .documenting key cell path (.asking path) }, c)
    | .ok .directory => fail others c f key cell (.notAFile path)
    | .error .missing => fail others c f key cell (.notFound (Text.trim f.location))
    | .error cause => fail others c f key cell (.io path cause)
  | .documenting _ cell path (.done provider) =>
    let (entry, c) := c.fill cell path provider
    ({ f with stage := .finished (.ok entry) }, c)
  | .documenting key cell path search =>
    let (search, documentation) := search.step w c.documentation
    ({ f with stage := .documenting key cell path search }, { c with documentation })
  | .finished _ => (f, c)

/-! ## Running alone -/

/-- A bound on the steps that a fetch still takes when it is alone. -/
def remaining (c : Cache) (f : Fetch) : Nat :=
  match f.stage with
  | .arriving => c.searchDirectories.length + 12
  | .waiting _ _ => c.searchDirectories.length + 11
  | .searching _ _ candidates => candidates.length + 9
  | .examining _ _ _ => 9
  | .documenting _ _ _ search => search.remaining + 2
  | .finished _ => 0

theorem searchDirectories_forget (c : Cache) (key : Key) (cell : CellId) :
    (c.forget key cell).searchDirectories = c.searchDirectories := by
  simp only [Cache.forget]; split <;> rfl

theorem searchDirectories_obtain (c : Cache) (key : Key) :
    (c.obtain key).2.searchDirectories = c.searchDirectories := by
  simp only [Cache.obtain]; split <;> rfl

theorem remaining_step_lt (w : World) (c : Cache) (f : Fetch) (h : f.result? = none) :
    (f.step w [] c).1.remaining (f.step w [] c).2 < f.remaining c := by
  obtain ⟨location, stage⟩ := f
  cases stage with
  | arriving =>
      simp only [step]
      split
      · simp [remaining]
      · simp [remaining, searchDirectories_obtain]
  | waiting key cell =>
      simp only [step]
      split
      · simp [remaining]
      · simp only [List.any_nil, Bool.false_eq_true, if_false, beginLoading]
        split <;> simp [remaining]
  | searching key cell candidates =>
      cases candidates with
      | nil => simp [step, fail, remaining]
      | cons path rest =>
          simp only [step]
          split <;> simp [remaining, Documentation.Search.remaining]
  | examining key cell path =>
      simp only [step]
      split <;> simp [fail, remaining, Documentation.Search.remaining]
  | documenting key cell path search =>
      cases search with
      | done provider => simp [step, remaining, Documentation.Search.remaining]
      | asking p =>
          have := Documentation.Search.remaining_step_lt w c.documentation (.asking p)
            (by simp [Documentation.Search.remaining])
          simp only [step, remaining]; omega
      | probing k files =>
          have := Documentation.Search.remaining_step_lt w c.documentation (.probing k files)
            (by simp [Documentation.Search.remaining])
          simp only [step, remaining]; omega
      | choosing k file =>
          have := Documentation.Search.remaining_step_lt w c.documentation (.choosing k file)
            (by simp [Documentation.Search.remaining])
          simp only [step, remaining]; omega
  | finished result => simp [result?] at h

/-- Takes the remaining steps of a fetch without a break, with no other fetch about. -/
def finish (w : World) (c : Cache) (f : Fetch) : Except Error Entry × Cache :=
  match _h : f.result? with
  | some result => (result, c)
  | none =>
    let next := f.step w [] c
    finish w next.2 next.1
termination_by f.remaining c
decreasing_by exact remaining_step_lt w c f _h

end Fetch

namespace Cache

/-- The entry of a location, which is loaded if the cache does not have it. -/
def resolve (w : World) (c : Cache) (location : String) : Except Error Entry × Cache :=
  Fetch.finish w c (.start location)

/-- The entries of several locations, resolved one after another. -/
def resolveAll (w : World) (c : Cache) : List String → List (Except Error Entry) × Cache
  | [] => ([], c)
  | location :: rest =>
    let (result, c) := c.resolve w location
    let (results, c) := resolveAll w c rest
    (result :: results, c)

/-- The documentation provider of a module, shared with the entries of the cache. -/
def providerFor (w : World) (c : Cache) (modulePath : Path) : Documentation.Provider × Cache :=
  let (provider, documentation) := c.documentation.providerFor w modulePath
  (provider, { c with documentation })

end Cache

end ScriptSessions.Reference
