import ScriptSessions.Proofs.Host.Live
import ScriptSessions.Proofs.Session.Alike

set_option autoImplicit false

/-! # A pass and what came before it

A pass resolves the locations of its directives through the cache, so what it finds may depend on
what has been asked for before, also while no file changes. The spellings of one key share an
entry, but a module is looked for under the spelling that is asked for: a location that leads
nowhere resolves all the same if another spelling of its key has led somewhere first.

This is the only way in which history matters, and `work_independent_iff` says exactly when it
does: a key of the text has no entry from the beginning, and the first location of the text with
this key is disputed by another spelling that is asked for.
-/

namespace ScriptSessions

open Reference

/-- The resolver of the sessions that are opened by a request. -/
def Resolver.ofRequest (directory : Path) (overrides : List (String × String))
    (request : OpenRequest) : Resolver :=
  (Session.create directory .nil "" request {} overrides).resolver

/-- A session that is opened under an identifier that is not taken. -/
theorem Host.exists_session_open? (w : World) (h : Host) (request : OpenRequest) (id : Uuid)
    (free : h.workspace.registry.contains id = false) (ids : List Uuid) :
    ∃ n s, (h.open? w request (id :: ids)).2.workspace.session? n = some s ∧ s.closed = false ∧
      s.snapshot.text = request.text ∧
      s.resolver = .ofRequest w.directory h.overrides request := by
  have htaken : h.workspace.nextProjectName.2.registry.contains id = false := free
  have hrequest (ws : Workspace) (n : SessionNumber) (s : Session) :
      (ws.request n s).2.sessions = ws.sessions.set n s.request.2 := by
    simp only [Workspace.request]
    split <;> rfl
  have hadd (s : Session) : (h.workspace.nextProjectName.2.addSession s).2.sessions
      = h.workspace.sessions ++ [s] := rfl
  simp only [Host.open?, htaken, Bool.false_eq_true, if_false]
  generalize hs : Session.create w.directory id _ request _ h.overrides = s
  refine ⟨h.workspace.sessions.length, if h.config.reprocessOnOpen then s.request.2 else s, ?_⟩
  subst hs
  cases h.config.reprocessOnOpen with
  | false =>
      refine ⟨?_, rfl, rfl, rfl⟩
      simp only [Bool.false_eq_true, if_false, Workspace.session?, Workspace.sessions_register,
        hadd]
      exact List.getElem?_concat_length
  | true =>
      refine ⟨?_, rfl, rfl, rfl⟩
      simp only [if_true, Workspace.session?, hrequest, Workspace.sessions_register, hadd]
      exact List.getElem?_set_self (by simp [Workspace.addSession, Workspace.nextProjectName])

namespace LiveHost

variable {w : World} {config : Config} {overrides : List (String × String)} {asked : String → Prop}
  {request : OpenRequest}

/-! ## Histories -/

/-- Whether a pass may meet this cache and this session after some history of a host, in which
no file has changed: the session is open, and it has the text and the resolver that the sessions
have which are opened by the request. -/
structure Meets (w : World) (config : Config) (overrides : List (String × String))
    (asked : String → Prop) (request : OpenRequest) (c : Cache) (s : Session) : Prop where
  history : ∃ L n, Reachable (.only w config.searchDirectories asked) config overrides L ∧
    L.cache = c ∧ L.host.workspace.session? n = some s
  isOpen : s.closed = false
  text : s.snapshot.text = request.text
  resolver : s.resolver = .ofRequest w.directory overrides request

/-- Whether the disk, and the entries with which a host begins, decide what the requests of a text
come to. -/
def Decides (w : World) (config : Config) (overrides : List (String × String))
    (asked : String → Prop) (request : OpenRequest) : Prop :=
  (Resolver.ofRequest w.directory overrides request).Decided w config.searchDirectories asked
    (Host.new w config overrides).workspace.cache (Directive.requests request.text)

variable {c : Cache} {s : Session}

theorem Meets.regular (h : Meets w config overrides asked request c s) :
    c.Regular (.only w config.searchDirectories asked) [] := by
  obtain ⟨L, n, reachable, rfl, -⟩ := h.history
  exact reachable.kept.regular.sublist (List.nil_sublist _)

theorem Meets.keeps_new (h : Meets w config overrides asked request c s) :
    (Host.new w config overrides).workspace.cache.Keeps c := by
  obtain ⟨L, n, reachable, rfl, -⟩ := h.history
  exact reachable.keeps_new

/-- A pass may come first of all, or right after a client has resolved a location. -/
theorem exists_meets
    (start : ∀ l ∈ DefaultSet.startLocations w config.directories
      { extraReferences := config.extraReferences, extraImports := config.extraImports }, asked l)
    (request : OpenRequest) (location : String) (hasked : asked location) :
    ∃ s, Meets w config overrides asked request (Host.new w config overrides).workspace.cache s ∧
      Meets w config overrides asked request
        ((Host.new w config overrides).workspace.cache.resolve w location).2 s := by
  obtain ⟨n, s, at_n, isOpen, text, resolver⟩ :=
    (Host.new w config overrides).exists_session_open? w request .nil rfl []
  have hnew : Reachable (.only w config.searchDirectories asked) config overrides
      ⟨Host.new w config overrides, []⟩ := ⟨w, rfl, rfl, start, .refl⟩
  have hopened := hnew.step (.act (.openSession w request [.nil]) rfl)
  have hless := holdsLess_act ⟨Host.new w config overrides, []⟩
    (a := .openSession w request [.nil]) rfl
  have hresolved := hopened.resolve (List.sublist_nil.mp hless.fetches) (w := w) rfl hasked
  have hcache : ((Host.new w config overrides).perform
      (.openSession w request [.nil])).workspace.cache
        = (Host.new w config overrides).workspace.cache := hless.cache
  refine ⟨s, ⟨⟨_, n, hopened, hcache, at_n⟩, isOpen, text, resolver⟩,
    ⟨⟨_, n, hresolved, ?_, at_n⟩, isOpen, text, resolver⟩⟩
  rw [← hcache]
  rfl

/-! ## What a pass stores after any history -/

/-- **What a pass stores does not depend on what came before it, unless a location is disputed.**
While no file changes, passes over one text store the same lists after any two histories of a
host, exactly if of every key of the text that has no entry from the beginning the first location
is undisputed. If so, going over the text once more changes nothing but the number of the pass. The
histories are arbitrary, and the passes in question go on without a break. -/
theorem work_independent_iff
    (start : ∀ l ∈ DefaultSet.startLocations w config.directories
      { extraReferences := config.extraReferences, extraImports := config.extraImports }, asked l)
    (asks : (Resolver.ofRequest w.directory overrides request).Asks asked
      (Directive.requests request.text)) :
    ((∀ c c' s s' b b', Meets w config overrides asked request c s →
        Meets w config overrides asked request c' s' →
        (Pass.work w c s ⟨b, .entered⟩).2.1.findings.SameLists
          (Pass.work w c' s' ⟨b', .entered⟩).2.1.findings) ↔
      Decides w config overrides asked request) ∧
    (Decides w config overrides asked request →
      ∀ c s b b', Meets w config overrides asked request c s →
        (Pass.work w (Pass.work w c s ⟨b, .entered⟩).2.2 (Pass.work w c s ⟨b, .entered⟩).2.1
            ⟨b', .entered⟩).2.1.findings
          = { (Pass.work w c s ⟨b, .entered⟩).2.1.findings with
                number := s.findings.number + 2 }) := by
  refine ⟨⟨fun independent key d first fresh location hl => ?_, ?_⟩, ?_⟩
  · by_contra disputed
    simp only [Undisputed, not_forall] at disputed
    obtain ⟨other, hother, hkey, p, hp, elsewhere⟩ := disputed
    -- the passes of a new host, and after the other spelling has been resolved
    obtain ⟨s, h, h'⟩ := exists_meets start request other hother
    have hsame := independent _ _ s s true true h h'
    rw [Pass.work_entered _ _ h.isOpen, Pass.work_entered _ _ h.isOpen] at hsame
    rw [← h.text, ← h.resolver] at asks first
    rw [← h.resolver] at hl
    have hfirst : s.resolver.key? w.directory d = some key := by
      simpa using List.find?_some first
    obtain ⟨location', hl', hk⟩ := Resolver.key?_eq_some_iff.mp hfirst
    cases hl.symm.trans hl'
    have hk' := hkey.trans hk
    have hpath := (h.regular.map_path_resolve ((Cache.get?_of_key hk').trans fresh)).trans hp
    obtain ⟨e, he, rfl⟩ := h.regular.exists_entryAt?_resolve hother hk' hpath
    exact Pass.not_sameLists_findingsAfter h.regular h'.regular rfl rfl asks first hl fresh he
      elsewhere hsame
  · intro decides c c' s s' b b' h h'
    rw [Pass.work_entered _ _ h.isOpen, Pass.work_entered _ _ h'.isOpen]
    rw [Decides, ← h.text, ← h.resolver] at decides
    rw [← h.text, ← h.resolver] at asks
    exact Pass.sameLists_findingsAfter h.regular h'.regular (h'.text.trans h.text.symm)
      (h'.resolver.trans h.resolver.symm) asks decides h.keeps_new h'.keeps_new
  · intro decides c s b b' h
    rw [Decides, ← h.text, ← h.resolver] at decides
    rw [← h.text, ← h.resolver] at asks
    have htwo : s.findings.number + 2 = s.findings.number + 1 + 1 :=
      (UInt64.add_assoc _ 1 1).symm
    rw [Pass.work_entered _ _ h.isOpen, Pass.work_entered _ _ (by exact h.isOpen), htwo]
    exact Pass.findingsAfter_again h.regular asks decides h.keeps_new rfl rfl rfl

/-- A library beside the scripts. -/
def withLib : World := (default : World).putFile ⟨"/lib.dll"⟩ (.text "")

/-- A script asks for the library. -/
def libRequest : OpenRequest := { text := "#r \"lib.dll\"", workingDirectory := ⟨"/"⟩ }

/-- The library, and what a host asks for when it begins. -/
def libLocations : List String :=
  "/lib.dll" :: DefaultSet.startLocations withLib ({} : Config).directories {}

theorem location_lib : ∀ d ∈ Directive.requests libRequest.text,
    (Resolver.ofRequest withLib.directory [] libRequest).location? d = some "/lib.dll" := by
  decide +kernel

theorem decides_lib : Decides withLib {} [] (· ∈ libLocations) libRequest := by
  have hspelled : ∀ other ∈ libLocations, Key.normalize withLib.directory other
      = Key.normalize withLib.directory "/lib.dll" → other = "/lib.dll" := by decide +kernel
  intro key d first _ location hl other hother hkey p hp
  rw [location_lib d (List.mem_of_find?_eq_some first)] at hl
  cases hl
  rw [hspelled other hother hkey] at hp
  exact hp

/-- Passes over the script of `libRequest` store the same on a new host, which knows no module,
and after a client has resolved the library. -/
theorem lib_work_independent : ∃ c s,
    ((Host.new withLib {}).workspace.cache.size = 0 ∧ c.size = 1) ∧
    Meets withLib {} [] (· ∈ libLocations) libRequest (Host.new withLib {}).workspace.cache s ∧
    Meets withLib {} [] (· ∈ libLocations) libRequest c s ∧
    (Pass.work withLib (Host.new withLib {}).workspace.cache s
        ⟨true, .entered⟩).2.1.findings.SameLists
      (Pass.work withLib c s ⟨true, .entered⟩).2.1.findings := by
  have start : ∀ l ∈ DefaultSet.startLocations withLib ({} : Config).directories {},
      l ∈ libLocations := fun l hl => List.mem_cons_of_mem _ hl
  have asks : (Resolver.ofRequest withLib.directory [] libRequest).Asks (· ∈ libLocations)
      (Directive.requests libRequest.text) := by
    intro d hd location hl
    rw [location_lib d hd] at hl
    cases hl
    exact List.mem_cons_self
  obtain ⟨s, h, h'⟩ := exists_meets start libRequest "/lib.dll" List.mem_cons_self
  exact ⟨_, s, by decide +kernel, h, h',
    (work_independent_iff start asks).1.mpr decides_lib _ _ s s true true h h'⟩

/-- A script asks for the library twice, the first time without its suffix. -/
def disputedRequest : OpenRequest :=
  { text := "#r \"./lib\"\n#r \"./lib.dll\"", workingDirectory := ⟨"/"⟩ }

/-- The second of two passes over the script of `disputedRequest` stores more than the first,
although nothing has changed: without its suffix the location leads nowhere, but it has the key of
the one that has led to the library. -/
theorem disputed_resolves_later : ∃ c s,
    Meets withLib {} [] (fun _ => True) disputedRequest c s ∧
    (Pass.work withLib c s ⟨true, .entered⟩).2.1.findings.directives = ["./lib.dll"] ∧
    (Pass.work withLib (Pass.work withLib c s ⟨true, .entered⟩).2.2
        (Pass.work withLib c s ⟨true, .entered⟩).2.1 ⟨true, .entered⟩).2.1.findings.directives
      = ["./lib", "./lib.dll"] := by
  obtain ⟨s, h, -⟩ := exists_meets (fun _ _ => trivial) disputedRequest "" trivial
  refine ⟨_, s, h, ?_⟩
  rw [Pass.work_entered _ _ h.isOpen, Pass.work_entered _ _ (by exact h.isOpen)]
  rw [(Pass.account_findingsAfter ..).directives, (Pass.account_findingsAfter ..).directives]
  dsimp only
  rw [h.text, h.resolver]
  decide +kernel

end LiveHost

end ScriptSessions
