import ScriptSessions.Proofs.Reference.Entries

set_option autoImplicit false

/-! # Where entries come from

A key stands for several spellings of a location, but a module is looked for under the spelling
that was asked for. So the entry of a key is the module that *some* spelling of the key has led
to, and which one it was depends on who came first. What can be said of an entry is its origin
(`Cache.Traced`): a location with its key has been asked for, and has led to its module.

While files change, a location that is looked for in several directories may be led somewhere by
no single state of the disk. A `Setting` says which states may be met, and `Locates` what may
come of a location in it. In the setting of one state, `Setting.only`, this is what the function
`locateModule` gives.
-/

namespace ScriptSessions.Reference

/-! ## Locations on a disk that does not change -/

/-- The path at which a location that is no bare name is looked up. -/
def modulePath (directory : Path) (location : String) : Path :=
  Path.ofNames (Path.names directory ⟨Text.trim location⟩)

/-- The path at which a bare name is looked up in a search directory. -/
def candidate (location : String) (directory : Path) : Path :=
  directory / Fetch.moduleFileName (Text.trim location)

/-- What comes of examining the path of a location. -/
def examineModule (w : World) (location : String) (path : Path) : Except Error Path :=
  match w.examine path with
  | .ok (.file _) => .ok path
  | .ok .directory => .error (.notAFile path)
  | .error .missing => .error (.notFound (Text.trim location))
  | .error cause => .error (.io path cause)

/-- The path that a location leads to, or why it leads nowhere. -/
def locateModule (w : World) (searchDirectories : List Path) (location : String) :
    Except Error Path :=
  match Key.normalize w.directory location with
  | .error e => .error e
  | .ok _ =>
    if isBareName (Text.trim location) then
      match (searchDirectories.map (candidate location)).find? w.isFile with
      | some path => .ok path
      | none => .error (.notFound (Text.trim location))
    else examineModule w location (modulePath w.directory location)

/-! ## Locations on a disk that changes -/

/-- What fetches may meet: where they look, the states of the disk, and the locations that are
asked for. -/
structure Setting where
  /-- The current directory. -/
  directory : Path
  searchDirectories : List Path
  worlds : World → Prop
  asked : String → Prop

namespace Setting

/-- Whether the current directory is the same in all states. -/
def Still (S : Setting) : Prop := ∀ w, S.worlds w → w.directory = S.directory

/-- The setting with one state of the disk. -/
def only (w : World) (searchDirectories : List Path) (asked : String → Prop) : Setting :=
  ⟨w.directory, searchDirectories, (· = w), asked⟩

theorem still_only (w : World) (searchDirectories : List Path) (asked : String → Prop) :
    (only w searchDirectories asked).Still := by
  rintro w' rfl
  rfl

/-- Whether some search directories may be passed by for a bare name: at some moment there was
no such file in each of them. -/
def Passed (S : Setting) (location : String) (directories : List Path) : Prop :=
  ∀ d ∈ directories, ∃ w, S.worlds w ∧ w.isFile (candidate location d) = false

theorem Passed.append {S : Setting} {location : String} {before : List Path} {d : Path}
    (h : S.Passed location before) {w : World} (hw : S.worlds w)
    (hd : w.isFile (candidate location d) = false) : S.Passed location (before ++ [d]) := by
  intro d' hd'
  rcases List.mem_append.mp hd' with hmem | hlast
  · exact h d' hmem
  · rw [List.mem_singleton.mp hlast]
    exact ⟨w, hw, hd⟩

/-- What may come of a location. -/
inductive Locates (S : Setting) (location : String) : Except Error Path → Prop where
  /-- The location has no key. -/
  | keyless (e : Error) (hkey : Key.normalize S.directory location = .error e) :
      Locates S location (.error e)
  /-- A bare name is found in a search directory, after the ones before it were passed by. -/
  | found (key : Key) (hkey : Key.normalize S.directory location = .ok key)
      (bare : isBareName (Text.trim location) = true) (before : List Path) (d : Path)
      (after : List Path) (split : S.searchDirectories = before ++ d :: after)
      (passed : S.Passed location before) (w : World) (hw : S.worlds w)
      (file : w.isFile (candidate location d) = true) :
      Locates S location (.ok (candidate location d))
  /-- A bare name is not found, since all search directories were passed by. -/
  | lost (key : Key) (hkey : Key.normalize S.directory location = .ok key)
      (bare : isBareName (Text.trim location) = true)
      (passed : S.Passed location S.searchDirectories) :
      Locates S location (.error (.notFound (Text.trim location)))
  /-- The path of any other location is examined. -/
  | examined (key : Key) (hkey : Key.normalize S.directory location = .ok key)
      (spelled : isBareName (Text.trim location) = false) (w : World) (hw : S.worlds w) :
      Locates S location (examineModule w location (modulePath S.directory location))

/-- A bare name leads to a file below a search directory. -/
theorem Locates.exists_candidate {S : Setting} {location : String} {p : Path}
    (h : S.Locates location (.ok p)) (bare : isBareName (Text.trim location) = true) :
    ∃ d, p = candidate location d := by
  generalize hr : Except.ok p = r at h
  cases h with
  | keyless | lost => cases hr
  | found key hkey _ before d => exact ⟨d, Except.ok.inj hr⟩
  | examined key hkey spelled =>
      rw [bare] at spelled
      cases spelled

/-- Any other location leads to the path that it is. -/
theorem Locates.eq_modulePath {S : Setting} {location : String} {p : Path}
    (h : S.Locates location (.ok p)) (spelled : isBareName (Text.trim location) = false) :
    p = modulePath S.directory location := by
  generalize hr : Except.ok p = r at h
  cases h with
  | keyless | lost => cases hr
  | found key hkey bare =>
      rw [spelled] at bare
      cases bare
  | examined =>
      unfold examineModule at hr
      split at hr
      · exact Except.ok.inj hr
      · cases hr
      · cases hr
      · cases hr

/-- On a disk that does not change, one thing may come of a location. -/
theorem Locates.eq_locateModule {w : World} {searchDirectories : List Path}
    {asked : String → Prop} {location : String} {r : Except Error Path}
    (h : (only w searchDirectories asked).Locates location r) :
    r = locateModule w searchDirectories location := by
  have hpassed (dirs : List Path) (hp : (only w searchDirectories asked).Passed location dirs) :
      ∀ p ∈ dirs.map (candidate location), w.isFile p = false := by
    intro p hmem
    obtain ⟨d, hd, rfl⟩ := List.mem_map.mp hmem
    obtain ⟨w', rfl, hfile⟩ := hp d hd
    exact hfile
  cases h with
  | keyless e hkey =>
      have hkey : Key.normalize w.directory location = .error e := hkey
      simp only [locateModule, hkey]
  | found key hkey bare before d after split passed w' hw file =>
      cases hw
      have hkey : Key.normalize w.directory location = .ok key := hkey
      have split : searchDirectories = before ++ d :: after := split
      have hfind : (searchDirectories.map (candidate location)).find? w.isFile
          = some (candidate location d) := by
        rw [split, List.map_append, List.map_cons, List.find?_append,
          List.find?_eq_none.mpr fun p hp => by simp [hpassed before passed p hp],
          List.find?_cons_of_pos file, Option.none_or]
      simp only [locateModule, hkey, bare, if_true, hfind]
  | lost key hkey bare passed =>
      have hkey : Key.normalize w.directory location = .ok key := hkey
      have hfind : (searchDirectories.map (candidate location)).find? w.isFile = none :=
        List.find?_eq_none.mpr fun p hp => by simp [hpassed searchDirectories passed p hp]
      simp only [locateModule, hkey, bare, if_true, hfind]
  | examined key hkey spelled w' hw =>
      cases hw
      have hkey : Key.normalize w.directory location = .ok key := hkey
      simp only [locateModule, hkey, spelled, Bool.false_eq_true, if_false]
      rfl

end Setting

/-! ## Fetches on their way -/

namespace Fetch

variable {S : Setting} {c d : Cache} {f g : Fetch}

/-- Whether a fetch has come as far as it says, in a given setting: what it looks for is what its
location stands for, what it has found has been found, and a fetch that is over leaves its entry
at its key, or has failed for a reason. -/
def OnTrack (S : Setting) (c : Cache) (f : Fetch) : Prop :=
  match f.stage with
  | .arriving => True
  | .waiting key _ => Key.normalize S.directory f.location = .ok key
  | .searching key _ candidates =>
    Key.normalize S.directory f.location = .ok key ∧ isBareName (Text.trim f.location) = true ∧
      ∃ before after, S.searchDirectories = before ++ after ∧ S.Passed f.location before ∧
        candidates = after.map (candidate f.location)
  | .examining key _ path =>
    Key.normalize S.directory f.location = .ok key ∧ isBareName (Text.trim f.location) = false ∧
      path = modulePath S.directory f.location
  | .documenting key _ path _ =>
    Key.normalize S.directory f.location = .ok key ∧ S.Locates f.location (.ok path)
  | .finished (.ok e) =>
    ∃ key, Key.normalize S.directory f.location = .ok key ∧ c.entryAt? key = some e
  | .finished (.error reason) => S.Locates f.location (.error reason)

theorem OnTrack.keeps (h : f.OnTrack S c) (hcd : c.Keeps d) : f.OnTrack S d := by
  obtain ⟨location, stage⟩ := f
  cases stage with
  | arriving | waiting | searching | examining | documenting => exact h
  | finished result =>
      cases result with
      | error reason => exact h
      | ok e =>
          obtain ⟨key, hkey, he⟩ := h
          exact ⟨key, hkey, hcd key e he⟩

/-- The key that a fetch holds is that of its location. -/
theorem OnTrack.key (h : f.OnTrack S c) {key : Key} {cell : CellId}
    (hf : f.holding? = some (key, cell)) : Key.normalize S.directory f.location = .ok key := by
  obtain ⟨location, stage⟩ := f
  cases stage with
  | arriving | finished => cases hf
  | waiting => cases hf; exact h
  | searching | examining | documenting => cases hf; exact h.1

theorem location_step (w : World) (others : List Fetch) (c : Cache) (f : Fetch) :
    (f.step w others c).1.location = f.location := by
  obtain ⟨location, stage⟩ := f
  cases stage with
  | arriving => simp only [step]; split <;> rfl
  | waiting =>
      simp only [step]
      split
      · rfl
      · split <;> rfl
  | searching key cell candidates =>
      cases candidates with
      | nil => rfl
      | cons path rest => simp only [step]; split <;> rfl
  | examining => simp only [step]; split <;> rfl
  | documenting key cell path search => cases search <;> rfl
  | finished => rfl

/-- A fetch stays on its track. -/
theorem OnTrack.step {w : World} {others : List Fetch} (h : f.OnTrack S c) (still : S.Still)
    (hw : S.worlds w) (hs : c.Sound (f :: others))
    (dirs : c.searchDirectories = S.searchDirectories) :
    (f.step w others c).1.OnTrack S (f.step w others c).2 := by
  have hdir := still w hw
  have hkeeps := hs.keeps (f.move_step w others c)
  obtain ⟨location, stage⟩ := f
  cases stage with
  | arriving =>
      simp only [Fetch.step, hdir]
      split
      · next e hkey => exact .keyless e hkey
      · next key hkey => exact hkey
  | waiting key cell =>
      simp only [Fetch.step]
      split
      · next e he =>
          exact ⟨key, h, Cache.entryAt?_eq_some_iff.mpr
            ⟨cell, hs.held _ List.mem_cons_self key cell rfl, he⟩⟩
      · split
        · exact h
        · simp only [beginLoading, hdir, dirs]
          split
          · next bare =>
              have hpassed : S.Passed location [] := fun _ hd => absurd hd List.not_mem_nil
              exact ⟨h, bare, [], S.searchDirectories, rfl, hpassed, rfl⟩
          · next spelled => exact ⟨h, by simpa using spelled, rfl⟩
  | searching key cell candidates =>
      obtain ⟨hkey, bare, before, after, split, passed,
        (rfl : candidates = after.map (candidate location))⟩ := h
      cases after with
      | nil =>
          rw [List.append_nil] at split
          exact .lost key hkey bare (split ▸ passed)
      | cons d rest =>
          simp only [List.map_cons, Fetch.step]
          cases hfile : w.isFile (candidate location d) with
          | true =>
              exact ⟨hkey, .found key hkey bare before d rest split passed w hw hfile⟩
          | false =>
              refine ⟨hkey, bare, before ++ [d], rest, ?_, passed.append hw hfile, rfl⟩
              rw [split, List.append_assoc]
              rfl
  | examining key cell path =>
      obtain ⟨hkey, spelled, (rfl : path = modulePath S.directory location)⟩ := h
      have hexamined := Setting.Locates.examined key hkey spelled w hw
      simp only [Fetch.step]
      split
      · next content hx =>
          simp only [examineModule, hx] at hexamined
          exact ⟨hkey, hexamined⟩
      · next hx =>
          simp only [examineModule, hx] at hexamined
          exact hexamined
      · next hx =>
          simp only [examineModule, hx] at hexamined
          exact hexamined
      · next cause hne hx =>
          simp only [examineModule, hx] at hexamined
          exact hexamined
  | documenting key cell path search =>
      cases search with
      | done provider =>
          obtain ⟨key', cell', hf', he⟩ := hs.entryAt?_of_ok (Fetch.move_step w others c _) rfl rfl
          exact ⟨key', h.key hf', he⟩
      | asking | probing | choosing => exact h
  | finished result => exact h.keeps hkeeps

end Fetch

/-! ## The invariant -/

namespace Cache

variable {S : Setting} {c d : Cache} {f g : Fetch} {flight flight' others : List Fetch} {w : World}

/-- Where the entries of a cache come from, and how far the fetches in flight have come. -/
structure Traced (S : Setting) (c : Cache) (flight : List Fetch) : Prop where
  searchDirectories : c.searchDirectories = S.searchDirectories
  asked : ∀ f ∈ flight, S.asked f.location
  onTrack : ∀ f ∈ flight, f.OnTrack S c
  /-- The entry of a key is the module that a location with this key has led to. -/
  origin : ∀ key e, c.entryAt? key = some e → ∃ location, S.asked location ∧
    Key.normalize S.directory location = .ok key ∧ S.Locates location (.ok e.path)

/-- The invariant of a cache and the fetches in flight in a given setting. Where entries come
from can be said only if the current directory does not change. -/
structure Regular (S : Setting) (c : Cache) (flight : List Fetch) : Prop where
  sound : c.Sound flight
  tidy : c.Tidy
  /-- The entries that fetches have come to are known to the cache. -/
  results : ∀ f ∈ flight, ∀ e, f.result? = some (.ok e) → c.Knows e
  traced : S.Still → c.Traced S flight

theorem regular_new (S : Setting) (documentation : Documentation.Registry) :
    (new S.searchDirectories documentation).Regular S [] :=
  ⟨sound_nil _, tidy_new _ _, nofun, fun _ => ⟨rfl, nofun, nofun, nofun⟩⟩

theorem Regular.sublist (h : c.Regular S flight) (hsub : flight'.Sublist flight) :
    c.Regular S flight' :=
  ⟨h.sound.sublist hsub, h.tidy, fun f hf => h.results f (hsub.subset hf), fun still =>
    ⟨(h.traced still).searchDirectories, fun f hf => (h.traced still).asked f (hsub.subset hf),
      fun f hf => (h.traced still).onTrack f (hsub.subset hf), (h.traced still).origin⟩⟩

theorem Regular.perm (h : c.Regular S flight) (hperm : flight.Perm flight') :
    c.Regular S flight' :=
  ⟨h.sound.perm hperm, h.tidy, fun f hf => h.results f (hperm.mem_iff.mpr hf), fun still =>
    ⟨(h.traced still).searchDirectories,
      fun f hf => (h.traced still).asked f (hperm.mem_iff.mpr hf),
      fun f hf => (h.traced still).onTrack f (hperm.mem_iff.mpr hf), (h.traced still).origin⟩⟩

/-- The registry of the documentation may be used by anyone. -/
theorem Regular.document (h : c.Regular S flight) (documentation : Documentation.Registry) :
    Regular S { c with documentation } flight :=
  ⟨⟨h.sound.held, h.sound.empty, h.sound.once⟩,
    ⟨h.tidy.cells_lt, h.tidy.cells_nodup, h.tidy.filled_lt, h.tidy.entries_lt,
      h.tidy.entries_nodup⟩,
    h.results, fun still =>
    ⟨(h.traced still).searchDirectories, (h.traced still).asked,
      fun f hf => ((h.traced still).onTrack f hf).keeps (.refl c), (h.traced still).origin⟩⟩

/-- A fetch begins. -/
theorem Regular.start (h : c.Regular S flight) {location : String} (asked : S.asked location) :
    c.Regular S (.start location :: flight) := by
  refine ⟨h.sound.cons_idle rfl rfl, h.tidy, ?_, fun still => ?_⟩
  · intro f hf e he
    rcases List.mem_cons.mp hf with rfl | hmem
    · cases he
    · exact h.results f hmem e he
  · have htraced := h.traced still
    refine ⟨htraced.searchDirectories, ?_, ?_, htraced.origin⟩
    · exact List.forall_mem_cons.mpr ⟨asked, htraced.asked⟩
    · exact List.forall_mem_cons.mpr ⟨trivial, htraced.onTrack⟩

theorem searchDirectories_step (w : World) (others : List Fetch) (c : Cache) (f : Fetch) :
    (f.step w others c).2.searchDirectories = c.searchDirectories := by
  have hmove := f.move_step w others c
  generalize (f.step w others c).1 = g at hmove
  generalize (f.step w others c).2 = d at hmove
  cases hmove with
  | idle | reject | take | begin | advance | fill => rfl
  | obtain key => exact Fetch.searchDirectories_obtain c key
  | fail key cell =>
      split
      · rfl
      · exact Fetch.searchDirectories_forget c key cell

/-- A step of a fetch keeps the origins of all entries, and a new one has an origin too. -/
theorem Traced.step (h : c.Traced S (f :: others)) (still : S.Still) (hw : S.worlds w)
    (hs : c.Sound (f :: others)) (tidy : c.Tidy) :
    (f.step w others c).2.Traced S ((f.step w others c).1 :: others) := by
  have hmove := f.move_step w others c
  have htrack := h.onTrack f List.mem_cons_self
  have hasked := h.asked f List.mem_cons_self
  constructor
  · rw [searchDirectories_step, h.searchDirectories]
  · refine List.forall_mem_cons.mpr ⟨?_, fun o ho => h.asked o (List.mem_cons_of_mem f ho)⟩
    rw [Fetch.location_step]
    exact hasked
  · refine List.forall_mem_cons.mpr ⟨htrack.step still hw hs h.searchDirectories, fun o ho => ?_⟩
    exact (h.onTrack o (List.mem_cons_of_mem f ho)).keeps (hs.keeps hmove)
  · intro k e he
    rcases hs.entryAt?_move tidy hmove with hsame | ⟨key, cell, path, provider, stage, hfill⟩
    · rw [hsame] at he
      exact h.origin k e he
    · rw [hfill] at he
      split at he
      · next hk =>
          -- the key gets its entry from the fetch, which has been led to the module
          rw [Fetch.OnTrack, stage] at htrack
          rw [hk, ← Option.some.inj he]
          exact ⟨f.location, hasked, htrack.1, htrack.2⟩
      · exact h.origin k e he

theorem Regular.step (h : c.Regular S (f :: others)) (hw : S.worlds w) :
    (f.step w others c).2.Regular S ((f.step w others c).1 :: others) := by
  have hmove := f.move_step w others c
  have hkeeps := h.sound.keeps hmove
  refine ⟨h.sound.move hmove, h.tidy.move h.sound hmove, ?_,
    fun still => (h.traced still).step still hw h.sound h.tidy⟩
  intro o ho e he
  rcases List.mem_cons.mp ho with rfl | hmem
  · cases hf : f.result? with
    | some result =>
        rw [hmove.eq_of_result? hf] at he
        exact (h.results f List.mem_cons_self e he).keeps hkeeps
    | none =>
        obtain ⟨key, -, -, hentry⟩ := h.sound.entryAt?_of_ok hmove hf he
        exact ⟨key, hentry⟩
  · exact (h.results o (List.mem_cons_of_mem f hmem) e he).keeps hkeeps

/-- No step of a fetch changes the directories that the platform offers. -/
theorem directories_step (w : World) (others : List Fetch) (c : Cache) (f : Fetch) :
    (f.step w others c).2.documentation.directories = c.documentation.directories := by
  have hsearch (search : Documentation.Search) (r : Documentation.Registry) :
      (search.step w r).2.directories = r.directories := by
    cases search with
    | asking path => simp only [Documentation.Search.step]; split <;> rfl
    | probing key files =>
        cases files with
        | nil => rfl
        | cons file rest => simp only [Documentation.Search.step]; split <;> rfl
    | choosing key file =>
        simp only [Documentation.Search.step]
        split
        · rfl
        · cases file <;> rfl
    | done provider => rfl
  have hforget (key : Key) (cell : CellId) :
      (c.forget key cell).documentation = c.documentation := by
    unfold forget
    split <;> rfl
  obtain ⟨location, stage⟩ := f
  cases stage with
  | arriving =>
      simp only [Fetch.step]
      split
      · rfl
      · simp only [obtain]
        split <;> rfl
  | waiting =>
      simp only [Fetch.step]
      split
      · rfl
      · split <;> rfl
  | searching key cell candidates =>
      cases candidates with
      | nil => simp only [Fetch.step, Fetch.fail]; split <;> simp only [hforget]
      | cons path rest => simp only [Fetch.step]; split <;> rfl
  | examining key cell path =>
      simp only [Fetch.step]
      split
      · rfl
      · simp only [Fetch.fail]; split <;> simp only [hforget]
      · simp only [Fetch.fail]; split <;> simp only [hforget]
      · simp only [Fetch.fail]; split <;> simp only [hforget]
  | documenting key cell path search =>
      cases search with
      | done => rfl
      | asking modulePath => exact hsearch (.asking modulePath) c.documentation
      | probing key' files => exact hsearch (.probing key' files) c.documentation
      | choosing key' file => exact hsearch (.choosing key' file) c.documentation
  | finished => rfl

/-! ## Running alone -/

/-- What holds of a cache `d` and of the result of a location that was resolved alone, beside
one state of the disk, when the cache was `c`. -/
structure Settled (S : Setting) (c d : Cache) (location : String) (result : Except Error Entry) :
    Prop where
  regular : d.Regular S []
  keeps : c.Keeps d
  directories : d.documentation.directories = c.documentation.directories
  ok : ∀ e, result = .ok e → d.Knows e
  onTrack : S.Still → Fetch.OnTrack S d ⟨location, .finished result⟩

theorem Settled.of_finish (hw : S.worlds w) (h : c.Regular S [f]) :
    Settled S c (f.finish w c).2 f.location (f.finish w c).1 := by
  fun_induction Fetch.finish w c f with
  | case1 c f result hf =>
      refine ⟨h.sublist (List.nil_sublist _), .refl c, rfl, ?_, fun still => ?_⟩
      · rintro e rfl
        exact h.results f List.mem_cons_self e hf
      · have htrack := (h.traced still).onTrack f List.mem_cons_self
        obtain ⟨location, stage⟩ := f
        cases stage with
        | finished => cases hf; exact htrack
        | arriving | waiting | searching | examining | documenting => cases hf
  | case2 c f hf next ih =>
      have hrest := ih (h.step hw)
      rw [show next.1.location = f.location from f.location_step w [] c] at hrest
      have hkeeps := h.sound.keeps (f.move_step w [] c)
      exact ⟨hrest.regular, hkeeps.trans hrest.keeps,
        hrest.directories.trans (directories_step w [] c f), hrest.ok, hrest.onTrack⟩

/-- Resolving a location alone keeps the invariant. -/
theorem Regular.resolve (h : c.Regular S []) (hw : S.worlds w) {location : String}
    (asked : S.asked location) :
    Settled S c (c.resolve w location).2 location (c.resolve w location).1 :=
  .of_finish hw (h.start asked)

end Cache

end ScriptSessions.Reference
