import ScriptSessions.Proofs.Reference.Loading
import ScriptSessions.Proofs.Reference.Winner

set_option autoImplicit false

/-! # What an entry stands for

The cache and those who ask for documentation share one registry. An `Archive` puts them together:
the calls of the cache and the calls for documentation take their steps in any order, on any files,
and whoever has changed the registry leaves it to the others.

An entry is made in one step, by the call that loads it, and stays. So everything that is true of it
is true from this step on: `Archive.Kept` says what the call can show at that moment, and
`Archive.Kept.birth` reads the entry off it. What the entry then depends on, the provider under the
documentation key of its module, is never replaced (`Archive.Kept.advances`).
-/

namespace ScriptSessions.Reference

open Documentation (Desk Registry)

/-- A service, and those who use the registry of its documentation. -/
structure Archive where
  service : Service
  desk : Desk

namespace Archive

/-- An archive that no one has come to. -/
def new (searchDirectories : List Path) (directories : Documentation.Directories) : Archive :=
  ⟨.new searchDirectories (.new directories), .new directories⟩

/-- Something that happens to an archive. -/
inductive Event where
  /-- A call to resolve a location comes in. -/
  | call (location : String)
  /-- A call takes a step on the files as they are now. -/
  | step (i : Nat) (w : World)
  /-- A call is given up. -/
  | abandon (i : Nat)
  /-- Someone asks for documentation, on the files as they are now. -/
  | consult (w : World) (action : Desk.Action)

/-- Whether an event is seen from a directory. -/
def Event.SeenFrom (cwd : Path) : Event → Prop
  | .call _ | .abandon _ => True
  | .step _ w | .consult w _ => w.directory = cwd

/-- The archive after something has happened to its service. -/
def serve (A : Archive) (a : Service.Action) : Archive :=
  let service := A.service.perform a
  ⟨service, { A.desk with registry := service.cache.documentation }⟩

/-- The archive after an event. -/
def perform (A : Archive) : Event → Archive
  | .call location => A.serve (.call location)
  | .step i w => A.serve (.step i w)
  | .abandon i => A.serve (.abandon i)
  | .consult w action =>
    let desk := A.desk.perform w action
    ⟨A.service.perform (.document desk.registry), desk⟩

/-- The archive after a list of events. -/
def run (A : Archive) (events : List Event) : Archive := events.foldl perform A

theorem run_append (A : Archive) (before after : List Event) :
    A.run (before ++ after) = (A.run before).run after :=
  List.foldl_append

/-- The entry of a key. -/
def entryAt? (A : Archive) (key : Key) : Option Entry := A.service.cache.entryAt? key

/-- The location that a call asks for. -/
def location? (A : Archive) (i : Nat) : Option String :=
  A.service.callers[i]?.map fun a => a.fetch.location

/-- The worlds in which a call has taken its steps, in order. -/
def worldsOf (events : List Event) (i : Nat) : List World :=
  events.filterMap fun
    | .step j w => if j = i then some w else none
    | .call _ | .abandon _ | .consult _ _ => none

theorem worldsOf_concat_step (events : List Event) (i : Nat) (w : World) :
    worldsOf (events ++ [.step i w]) i = worldsOf events i ++ [w] := by
  simp [worldsOf]

theorem worldsOf_sublist (events : List Event) (ev : Event) (i : Nat) :
    (worldsOf events i).Sublist (worldsOf (events ++ [ev]) i) := by
  rw [worldsOf, worldsOf, List.filterMap_append]
  exact List.sublist_append_left _ _

/-! ## What an archive relies on -/

/-- What an archive relies on after some events that were all seen from one directory. -/
structure Kept (cwd : Path) (dirs : List Path) (events : List Event) (A : Archive) : Prop where
  /-- The service and the desk have one registry. -/
  shared : A.service.cache.documentation = A.desk.registry
  service : A.service.Kept
  tidy : A.service.cache.Tidy
  searched : A.service.cache.searchDirectories = dirs
  inquiries : ∀ q ∈ A.desk.inquiries, q.Sound A.desk.registry ∧ q.BegunIn cwd
  callers : ∀ (i : Nat) (a : Caller), A.service.callers[i]? = some a →
    a.fetch.OnRecord cwd dirs (worldsOf events i) A.service.cache

/-- What stays of an archive: its entries, and the providers that it keeps. -/
structure Advances (A B : Archive) : Prop where
  entries : A.service.cache.Keeps B.service.cache
  registry : A.desk.registry.Keeps B.desk.registry

theorem Advances.refl (A : Archive) : A.Advances A := ⟨.refl _, .refl _⟩

theorem Advances.trans {A B C : Archive} (h : A.Advances B) (h' : B.Advances C) : A.Advances C :=
  ⟨h.entries.trans h'.entries,
    h'.registry.directories.trans h.registry.directories, fun key p hp =>
      h'.registry.table key p (h.registry.table key p hp)⟩

theorem kept_new (cwd : Path) (searchDirectories : List Path)
    (directories : Documentation.Directories) :
    (new searchDirectories directories).Kept cwd searchDirectories [] where
  shared := rfl
  service := Service.kept_new searchDirectories (.new directories)
  tidy := Cache.tidy_new searchDirectories (.new directories)
  searched := rfl
  inquiries := nofun
  callers := nofun

section Step

variable {cwd : Path} {dirs : List Path} {events : List Event} {A : Archive}

/-- A call takes its step, unless there is no such call or it was given up. -/
theorem step_service_cases (σ : Service) (i : Nat) (w : World) :
    σ.perform (.step i w) = σ ∨ ∃ a, σ.callers[i]? = some a ∧ a.abandoned = false ∧
      σ.perform (.step i w) = ⟨(a.step w (σ.others i) σ.cache).2,
        σ.callers.set i (a.step w (σ.others i) σ.cache).1⟩ := by
  simp only [Service.perform, Service.step]
  cases at_i : σ.callers[i]? with
  | none => exact .inl rfl
  | some a =>
      cases going : a.abandoned with
      | true => exact .inl (if_pos going)
      | false => exact .inr ⟨a, rfl, going, if_neg (by simp [going])⟩

/-- What a call can show, it can show after every event that leaves its fetch as it is. -/
theorem Kept.onRecord (h : A.Kept cwd dirs events) (ev : Event) {c : Cache}
    (hc : A.service.cache.documentation.Keeps c.documentation) {i : Nat} {a : Caller}
    (at_i : A.service.callers[i]? = some a) :
    a.fetch.OnRecord cwd dirs (worldsOf (events ++ [ev]) i) c :=
  (h.callers i a at_i).mono (worldsOf_sublist events ev i) hc

/-- Something happens to the service, which keeps the providers of the registry. -/
theorem Kept.serve (h : A.Kept cwd dirs events) (ev : Event) {a : Service.Action}
    (tidy : (A.service.perform a).cache.Tidy)
    (hdirs : (A.service.perform a).cache.searchDirectories = A.service.cache.searchDirectories)
    (keeps : A.service.cache.documentation.Keeps (A.service.perform a).cache.documentation)
    (callers : ∀ (i : Nat) (b : Caller), (A.service.perform a).callers[i]? = some b →
      b.fetch.OnRecord cwd dirs (worldsOf (events ++ [ev]) i) (A.service.perform a).cache) :
    (A.serve a).Kept cwd dirs (events ++ [ev]) where
  shared := rfl
  service := h.service.perform a
  tidy := tidy
  searched := hdirs.trans h.searched
  inquiries q hq := by
    obtain ⟨hsound, hbegun⟩ := h.inquiries q hq
    rw [← h.shared] at hsound
    exact ⟨hsound.keeps keeps, hbegun⟩
  callers := callers

theorem Kept.call (h : A.Kept cwd dirs events) (location : String) :
    (A.perform (.call location)).Kept cwd dirs (events ++ [.call location]) := by
  refine h.serve _ h.tidy rfl (.refl _) fun i b at_i => ?_
  change (A.service.callers ++ [{ fetch := .start location }])[i]? = some b at at_i
  rw [List.getElem?_append] at at_i
  split at at_i
  · exact h.onRecord _ (.refl _) at_i
  · rw [List.mem_singleton.mp (List.mem_of_getElem? at_i)]
    trivial

/-- Something happens to the service, and neither its cache nor the fetches of its calls change. -/
theorem Kept.serve_of_cache_eq (h : A.Kept cwd dirs events) (ev : Event) {a : Service.Action}
    (cache : (A.service.perform a).cache = A.service.cache)
    (fetches : ∀ (i : Nat) (b : Caller), (A.service.perform a).callers[i]? = some b →
      ∃ b', A.service.callers[i]? = some b' ∧ b.fetch = b'.fetch) :
    (A.serve a).Kept cwd dirs (events ++ [ev]) := by
  refine h.serve ev ?_ ?_ ?_ fun i b at_i => ?_
  · rw [cache]
    exact h.tidy
  · rw [cache]
  · rw [cache]
    exact .refl _
  · obtain ⟨b', at_i', hfetch⟩ := fetches i b at_i
    rw [cache, hfetch]
    exact h.onRecord _ (.refl _) at_i'

theorem cache_abandon (σ : Service) (i : Nat) : (σ.perform (.abandon i)).cache = σ.cache := by
  simp only [Service.perform, Service.abandon]
  split <;> rfl

theorem Kept.abandon (h : A.Kept cwd dirs events) (i : Nat) :
    (A.perform (.abandon i)).Kept cwd dirs (events ++ [.abandon i]) := by
  refine h.serve_of_cache_eq _ (cache_abandon A.service i) fun j b at_j => ?_
  -- a call that is given up stops where it is
  simp only [Service.perform, Service.abandon] at at_j
  split at at_j
  · exact ⟨b, at_j, rfl⟩
  · next a at_i =>
      rcases of_getElem?_set at_j with ⟨rfl, rfl⟩ | ⟨-, hsame⟩
      · exact ⟨a, at_i, rfl⟩
      · exact ⟨b, hsame, rfl⟩

theorem Kept.step (h : A.Kept cwd dirs events) {i : Nat} {w : World} (hw : w.directory = cwd) :
    (A.perform (.step i w)).Kept cwd dirs (events ++ [.step i w]) := by
  rcases step_service_cases A.service i w with hidle | ⟨a, at_i, going, hstep⟩
  · refine h.serve_of_cache_eq _ (congrArg Service.cache hidle) fun j b at_j => ?_
    rw [hidle] at at_j
    exact ⟨b, at_j, rfl⟩
  · have hsound := h.service.sound_cons at_i going
    have hmove := a.fetch.move_step w (A.service.others i) A.service.cache
    have hkeeps := Fetch.keeps_documentation_step w (A.service.others i) A.service.cache a.fetch
    refine h.serve _ ?_ ?_ ?_ fun j b at_j => ?_
    · rw [hstep]
      exact h.tidy.move hsound hmove
    · rw [hstep]
      exact Cache.searchDirectories_step w _ _ _
    · rw [hstep]
      exact hkeeps
    · rw [hstep] at at_j ⊢
      rcases of_getElem?_set at_j with ⟨rfl, rfl⟩ | ⟨-, hsame⟩
      · rw [worldsOf_concat_step]
        exact (h.callers i a at_i).step hw _ h.searched
      · exact h.onRecord _ hkeeps hsame

/-- Whatever is done at a desk keeps the providers, and calls for documentation stay sound. -/
theorem change_desk {d d' : Desk} {w : World} (hw : w.directory = cwd) (hc : d.Change w d')
    (h : ∀ q ∈ d.inquiries, q.Sound d.registry ∧ q.BegunIn cwd) :
    d.registry.Keeps d'.registry ∧
      ∀ q ∈ d'.inquiries, q.Sound d'.registry ∧ q.BegunIn cwd := by
  cases hc with
  | idle | ask | leave => exact ⟨.refl _, h⟩
  | inquire path =>
      refine ⟨.refl _, List.forall_mem_append.mpr ⟨h, List.forall_mem_singleton.mpr ?_⟩⟩
      exact ⟨⟨rfl, rfl⟩, nofun⟩
  | advance i q q' r hi hmove =>
      have hq := h q (List.mem_of_getElem? hi)
      refine ⟨hmove.keeps, forall_mem_set (fun o ho => ?_) ?_⟩
      · exact ⟨(h o ho).1.keeps hmove.keeps, (h o ho).2⟩
      · exact ⟨hq.1.move hmove, hq.2.move hw hmove⟩
  | turn j l l' r hj hmove =>
      obtain ⟨contents, rfl⟩ := hmove.registry
      have hkeeps : d.registry.Keeps { d.registry with contents } := ⟨rfl, fun _ _ hp => hp⟩
      exact ⟨hkeeps, fun q hq => ⟨(h q hq).1.keeps hkeeps, (h q hq).2⟩⟩

theorem Kept.consult (h : A.Kept cwd dirs events) {w : World} (hw : w.directory = cwd)
    (action : Desk.Action) :
    (A.perform (.consult w action)).Kept cwd dirs (events ++ [.consult w action]) := by
  obtain ⟨hkeeps, hinquiries⟩ := change_desk hw (A.desk.change_perform w action) h.inquiries
  rw [← h.shared] at hkeeps
  refine ⟨rfl, h.service.perform (.document _), ?_, h.searched, hinquiries, fun i a at_i => ?_⟩
  · exact ⟨h.tidy.cells_lt, h.tidy.cells_nodup, h.tidy.filled_lt, h.tidy.entries_lt,
      h.tidy.entries_nodup⟩
  · exact h.onRecord _ hkeeps at_i

/-- **One event** keeps what an archive relies on. -/
theorem Kept.perform (h : A.Kept cwd dirs events) {ev : Event} (hev : ev.SeenFrom cwd) :
    (A.perform ev).Kept cwd dirs (events ++ [ev]) := by
  cases ev with
  | call location => exact h.call location
  | step i w => exact h.step hev
  | abandon i => exact h.abandon i
  | consult w action => exact h.consult hev action

/-- What an event does to the entries: nothing, or a call that has found its module and the
documentation provider of its module gives its key an entry. -/
theorem Kept.entryAt?_cases (h : A.Kept cwd dirs events) (ev : Event) :
    (∀ k, (A.perform ev).entryAt? k = A.entryAt? k) ∨
      ∃ i w a key cell path provider id, ev = .step i w ∧ A.service.callers[i]? = some a ∧
        a.fetch.stage = .documenting key cell path (.done provider) ∧ ∀ k,
          (A.perform ev).entryAt? k
            = if k = key then some ⟨id, .ofPath path, provider⟩ else A.entryAt? k := by
  cases ev with
  | call | consult => exact .inl fun _ => rfl
  | abandon i =>
      refine .inl fun k => ?_
      show (A.service.perform (.abandon i)).cache.entryAt? k = _
      rw [cache_abandon]
      rfl
  | step i w =>
      rcases step_service_cases A.service i w with hidle | ⟨a, at_i, going, hstep⟩
      · refine .inl fun k => ?_
        show (A.service.perform (.step i w)).cache.entryAt? k = _
        rw [hidle]
        rfl
      · have hentry (k : Key) : (A.perform (.step i w)).entryAt? k
            = (a.fetch.step w (A.service.others i) A.service.cache).2.entryAt? k := by
          show (A.service.perform (.step i w)).cache.entryAt? k = _
          rw [hstep]
          rfl
        rcases (h.service.sound_cons at_i going).entryAt?_move h.tidy
          (a.fetch.move_step w (A.service.others i) A.service.cache) with
          hsame | ⟨key, cell, path, provider, hstage, hfill⟩
        · exact .inl fun k => (hentry k).trans (hsame k)
        · exact .inr ⟨i, w, a, key, cell, path, provider, _, rfl, at_i, hstage, fun k =>
            (hentry k).trans (hfill k)⟩

/-- **One event** loses no entry and no provider. -/
theorem Kept.advances (h : A.Kept cwd dirs events) {ev : Event} (hev : ev.SeenFrom cwd) :
    A.Advances (A.perform ev) := by
  have hserved {a : Service.Action}
      (entries : A.service.cache.Keeps (A.service.perform a).cache)
      (keeps : A.service.cache.documentation.Keeps (A.service.perform a).cache.documentation) :
      A.Advances (A.serve a) := by
    rw [h.shared] at keeps
    exact ⟨entries, keeps⟩
  have hidle {a : Service.Action} (cache : (A.service.perform a).cache = A.service.cache) :
      A.Advances (A.serve a) := by
    refine hserved ?_ ?_
    · rw [cache]
      exact .refl _
    · rw [cache]
      exact .refl _
  cases ev with
  | call location => exact hidle rfl
  | abandon i => exact hidle (cache_abandon A.service i)
  | step i w =>
      rcases step_service_cases A.service i w with hsame | ⟨a, at_i, going, hstep⟩
      · exact hidle (congrArg Service.cache hsame)
      · refine hserved ?_ ?_
        · rw [hstep]
          exact (h.service.sound_cons at_i going).keeps (a.fetch.move_step w _ _)
        · rw [hstep]
          exact Fetch.keeps_documentation_step w _ _ a.fetch
  | consult w action =>
      exact ⟨.refl _, (change_desk hev (A.desk.change_perform w action) h.inquiries).1⟩

/-- **The birth of an entry.** A key gets an entry in a step of a call whose location has this key.
The entry is the module that the location has led the call to, with the provider that the registry
keeps for the module. -/
theorem Kept.birth (h : A.Kept cwd dirs events) {ev : Event} {key : Key} {e : Entry}
    (absent : A.entryAt? key = none) (present : (A.perform ev).entryAt? key = some e) :
    ∃ i w location, ev = .step i w ∧ A.location? i = some location ∧
      Key.normalize cwd location = .ok key ∧
      Located cwd dirs location (worldsOf events i) e.path ∧ e.module = .ofPath e.path ∧
      A.desk.registry.table.lookup (Documentation.key cwd e.path) = some e.documentation := by
  rcases h.entryAt?_cases ev with
    hsame | ⟨i, w, a, key', cell, path, provider, id, rfl, at_i, hstage, hnew⟩
  · rw [hsame, absent] at present
    cases present
  · have hrecord := h.callers i a at_i
    rw [hnew] at present
    by_cases hkey : key = key'
    · subst hkey
      rw [if_pos rfl] at present
      cases present
      rw [Fetch.OnRecord, hstage] at hrecord
      obtain ⟨hnormalize, hlocated, hsearches⟩ := hrecord
      rw [h.shared] at hsearches
      refine ⟨i, w, a.fetch.location, rfl, ?_, hnormalize, hlocated, rfl, hsearches.lookup⟩
      rw [location?, at_i]
      rfl
    · rw [if_neg hkey, absent] at present
      cases present

end Step

/-! ## Runs -/

section Run

variable {cwd : Path} {dirs : List Path} {events : List Event} {A : Archive}

theorem Kept.run (h : A.Kept cwd dirs events) {more : List Event}
    (hmore : ∀ ev ∈ more, ev.SeenFrom cwd) :
    (A.run more).Kept cwd dirs (events ++ more) ∧ A.Advances (A.run more) := by
  induction more generalizing A events with
  | nil =>
      rw [List.append_nil]
      exact ⟨h, .refl A⟩
  | cons ev rest ih =>
      have hev := hmore ev List.mem_cons_self
      obtain ⟨hkept, hadvances⟩ :=
        ih (h.perform hev) fun ev' hrest => hmore ev' (List.mem_cons_of_mem ev hrest)
      rw [List.append_assoc] at hkept
      exact ⟨hkept, (h.advances hev).trans hadvances⟩

/-- What has come about in a run has come about in one event. -/
theorem exists_event {P : Archive → Prop} (before : ¬ P A) (after : P (A.run events)) :
    ∃ front ev back, events = front ++ ev :: back ∧ ¬ P (A.run front) ∧
      P ((A.run front).perform ev) := by
  induction events generalizing A with
  | nil => exact absurd after before
  | cons ev rest ih =>
      by_cases hev : P (A.perform ev)
      · exact ⟨[], ev, rest, rfl, before, hev⟩
      · obtain ⟨front, ev', back, hrest, hfront, hback⟩ := ih hev after
        exact ⟨ev :: front, ev', back, by rw [hrest]; rfl, hfront, hback⟩

end Run

/-! ## The representation -/

/-- Whether a path is that of a regular file and has a key: the path of the directory of the file
and its stripped name make up the key. -/
structure IsModuleAt (looks : List World) (key : Key) (path : Path) : Prop where
  plain : path.IsPlain
  collapsed : ∀ cwd, Path.collapsed? cwd path = some path
  file : ∃ w ∈ looks, w.isFile path = true
  key : ∃ parent name, path.parent? = some parent ∧ path.fileName? = some name ∧
    key.text = (parent / stripSuffixes name).text

/-- How the call `i` has given the key its entry: it did so in one step, before which the key had
no entry, and it was led to the module in the worlds of its earlier steps. -/
structure LoadedBy (start : Archive) (cwd : Path) (events : List Event) (key : Key) (e : Entry)
    (before : List Event) (i : Nat) (location : String) : Prop where
  absent : (start.run before).entryAt? key = none
  step : ∃ w after, events = before ++ .step i w :: after ∧
    (start.run (before ++ [.step i w])).entryAt? key = some e
  asked : (start.run before).location? i = some location
  normalized : Key.normalize cwd location = .ok key
  bare : isBareName (Text.trim location) = true →
    FoundFirst start.service.cache.searchDirectories (key.text ++ ".dll") (worldsOf before i) e.path
  spelled : isBareName (Text.trim location) = false → IsModuleAt (worldsOf before i) key e.path

section Location

variable {cwd path : Path} {dirs : List Path} {location : String} {looks : List World} {key : Key}

/-- The file that a bare name is looked up as has the key as its stem. -/
theorem foundFirst_of_located (h : Located cwd dirs location looks path)
    (hkey : Key.normalize cwd location = .ok key) (bare : isBareName (Text.trim location) = true) :
    FoundFirst dirs (key.text ++ ".dll") looks path := by
  obtain ⟨-, hkey⟩ := Key.normalize_eq_ok_iff.mp hkey
  rw [if_pos bare] at hkey
  cases h with
  | found _ h =>
      rw [hkey]
      exact h
  | examined spelled =>
      rw [bare] at spelled
      cases spelled

/-- A path to a regular file leads to a place below the root, of which the key is made. -/
theorem isModuleAt_of_located (h : Located cwd dirs location looks path)
    (hkey : Key.normalize cwd location = .ok key)
    (spelled : isBareName (Text.trim location) = false) : IsModuleAt looks key path := by
  obtain ⟨hne, hkey⟩ := Key.normalize_eq_ok_iff.mp hkey
  rw [spelled, if_neg Bool.false_ne_true] at hkey
  cases h with
  | found bare =>
      rw [bare] at spelled
      cases spelled
  | examined _ w hw file =>
      have hcollapsed : Path.collapsed? cwd ⟨Text.trim location⟩
          = some (modulePath cwd location) := Path.collapsed?_eq_some_iff.mpr ⟨hne, rfl⟩
      obtain ⟨hplain, hagain⟩ := Path.collapsed?_collapsed hcollapsed
      refine ⟨hplain, hagain, ⟨w, hw, file⟩, ?_⟩
      have hnames (s : String) (hs : s ∈ Path.names cwd ⟨Text.trim location⟩) : Path.IsName s :=
        Path.isName_of_mem_names hs
      unfold modulePath at file ⊢
      rw [hkey]
      generalize Path.names cwd ⟨Text.trim location⟩ = ns at *
      have hroot : ns ≠ [] := by
        rintro rfl
        rw [World.isFile_of_fileName? rfl rfl] at file
        cases file
      obtain ⟨front, last, rfl⟩ : ∃ front last, ns = front ++ [last] :=
        ⟨_, _, (List.dropLast_concat_getLast hroot).symm⟩
      refine ⟨_, last, Path.parent?_ofNames hnames, Path.fileName?_ofNames hnames, ?_⟩
      rw [Key.ofNames, List.getLast?_concat, List.dropLast_concat]

end Location

/-- **What an entry stands for.** Let anything happen to a new cache, its callers and those who ask
for documentation, on any files, seen from one directory. An entry that a key then has is named
after its path. It stays, and the provider of its module is its own: everyone who has asked for the
documentation of the module has got it, and so does everyone who asks now or later. And it was
loaded under a location with the key: if that is a bare name, from the first search directory that
held a file that is named after the key; else from the collapsed path of the location, which names a
regular file and gives the key. -/
theorem entry_represents {cwd : Path} (searchDirectories : List Path)
    (directories : Documentation.Directories) (events : List Event)
    (seen : ∀ ev ∈ events, ev.SeenFrom cwd) {key : Key} {e : Entry}
    (resolved : ((new searchDirectories directories).run events).entryAt? key = some e) :
    e.name = simpleName e.path ∧
    (∀ later : List Event, (∀ ev ∈ later, ev.SeenFrom cwd) →
      let A := (new searchDirectories directories).run (events ++ later)
      A.entryAt? key = some e ∧
      (∀ w : World, w.directory = cwd →
        (A.service.cache.providerFor w e.path).1 = e.documentation) ∧
      ∀ q ∈ A.desk.inquiries, q.path = e.path → ∀ p, q.provider? = some p → p = e.documentation) ∧
    ∃ before i location,
      LoadedBy (new searchDirectories directories) cwd events key e before i location := by
  have hnew := kept_new cwd searchDirectories directories
  obtain ⟨front, ev, back, hevents, hbefore, hafter⟩ := exists_event
    (P := fun A => A.entryAt? key ≠ none) (A := new searchDirectories directories)
    (fun h => h rfl) (by rw [resolved]; exact Option.some_ne_none e)
  have hseen : ∀ ev' ∈ front ++ ev :: back, ev'.SeenFrom cwd := hevents ▸ seen
  have hfront := (hnew.run fun ev' h => hseen ev' (List.mem_append_left _ h)).1
  rw [List.nil_append] at hfront
  have hev := hseen ev (List.mem_append_right _ List.mem_cons_self)
  -- the entry is that of the event which brings it about
  have hback := ((hfront.perform hev).run fun ev' h =>
    hseen ev' (List.mem_append_right _ (List.mem_cons_of_mem ev h))).2
  have hrun : (((new searchDirectories directories).run front).perform ev).run back
      = (new searchDirectories directories).run events := by
    rw [hevents, run_append]
    rfl
  rw [hrun] at hback
  have hpresent : (((new searchDirectories directories).run front).perform ev).entryAt? key
      = some e := by
    obtain ⟨e', he'⟩ := Option.ne_none_iff_exists'.mp hafter
    rw [he', ← hback.entries key e' he']
    exact resolved
  obtain ⟨i, w, location, rfl, hasked, hkey, hlocated, hmodule, hprovider⟩ :=
    hfront.birth (not_not.mp hbefore) hpresent
  refine ⟨?_, fun later hlater => ?_, front, i, location, ?_⟩
  · rw [Entry.name, hmodule]
    rfl
  · obtain ⟨hkept, hadvances⟩ := (hnew.run seen).1.run hlater
    rw [← run_append] at hkept hadvances
    have hkeeps := ((hfront.advances hev).trans hback).trans hadvances
    have hlookup := hkeeps.registry.table _ _ hprovider
    refine ⟨hadvances.entries key e resolved, fun w hw => ?_, fun q hq hpath p hp => ?_⟩
    · rw [← hw, ← hkept.shared] at hlookup
      rw [Cache.providerFor, Registry.providerFor_of_lookup hlookup]
    · obtain ⟨hsound, hbegun⟩ := hkept.inquiries q hq
      rw [← hpath, hsound.lookup_key hbegun hp] at hlookup
      exact Option.some.inj hlookup
  · refine ⟨not_not.mp hbefore, ⟨w, back, hevents, ?_⟩, hasked, hkey,
      foundFirst_of_located hlocated hkey, isModuleAt_of_located hlocated hkey⟩
    rw [run_append]
    exact hpresent

/-- The files with a library and its documentation in a directory. -/
def withDocumentedA : World :=
  ((default : World).putFile ⟨"/lib/a.dll"⟩ (.text "")).putFile ⟨"/lib/a.xml"⟩ (.text "")

/-- The library is asked for by its bare name, and loaded. -/
def loadA : List Event := .call "a" :: List.replicate 9 (.step 0 withDocumentedA)

/-- The entry of the library keeps its documentation when the files are gone. -/
theorem loaded_a_represents :
    let e : Entry := ⟨0, ⟨"a", ⟨"/lib/a.dll"⟩⟩, ⟨1, some ⟨"/lib/a.xml"⟩⟩⟩
    ((new [⟨"/lib"⟩] {}).run loadA).entryAt? ⟨"a"⟩ = some e ∧
    (((new [⟨"/lib"⟩] {}).run (loadA ++ [.consult default (.inquire ⟨"/lib/a.dll"⟩)])
      ).service.cache.providerFor default ⟨"/lib/a.dll"⟩).1 = e.documentation ∧
    ∃ before i location, LoadedBy (new [⟨"/lib"⟩] {}) ⟨"/"⟩ loadA ⟨"a"⟩ e before i location := by
  intro e
  have hseen : ∀ ev ∈ loadA, ev.SeenFrom ⟨"/"⟩ := by
    intro ev hev
    rcases List.mem_cons.mp hev with rfl | hstep
    · trivial
    · rw [List.eq_of_mem_replicate hstep]
      rfl
  have hresolved : ((new [⟨"/lib"⟩] {}).run loadA).entryAt? ⟨"a"⟩ = some e := by rfl
  obtain ⟨-, hstays, hloaded⟩ := entry_represents [⟨"/lib"⟩] {} loadA hseen hresolved
  have hlater := hstays [.consult default (.inquire ⟨"/lib/a.dll"⟩)]
    (List.forall_mem_singleton.mpr rfl)
  exact ⟨hresolved, hlater.2.1 default rfl, hloaded⟩

end Archive

end ScriptSessions.Reference
