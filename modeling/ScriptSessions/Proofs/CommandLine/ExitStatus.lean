import Mathlib.Logic.Relation
import ScriptSessions.CommandLine.Run
import ScriptSessions.Proofs.Session.Values

set_option autoImplicit false

/-! # The exit status of a check

A check sets up a host, opens the script as the only session of it, makes one pass, and prints what
the pass has found (`Check.exists_session`). The default references have been asked for when the
pass begins, so what the reference values come to can be read off the disk (`Check.Resolves`). The
status is 0 if all of them resolve, and 1 otherwise.

A report can be printed as JSON only if its paths are texts (`Check.Written`). If they are not, the
check fails, whatever has resolved (`Check.roughCheck_fails`).

That is all that the status depends on. Whether a script to load exists, whether anything is
documented, and what was asked for or looked at in vain is `Check.Immaterial`: two checks that
differ in nothing else and print their reports end with one status (`Check.exit_status`).
-/

namespace ScriptSessions

open Reference

/-! ## A single pass -/

/-- What a pass reports of findings that it has stored. -/
def Findings.report (f : Findings) : Report :=
  { number := f.number, textVersion := f.textVersion, resolved := f.references.length,
    failures := f.diagnostics.length, committed := true }

namespace Session

/-- What is left of a session over whose text a single pass has been made. -/
structure PassedOnce (w : World) (c : Cache) (text : String) (t : Session) : Prop where
  isOpen : t.closed = false
  /-- The text is the one with which the session was opened. -/
  current : t.snapshot.text = text ∧ t.snapshot.version = 0
  /-- There has been one pass, the first one. It has stored its findings. -/
  passes : t.passes = [⟨false, .ended (some t.findings.report)⟩]
  stored : t.findings.number = 1 ∧ t.findings.textVersion = 0
  /-- It has gone through the whole text. -/
  account : t.findings.Account (Directive.requests text)
    (t.resolver.settleAll w c (Directive.requests text)).1

/-- A pass over an idle session is made at once, and only its findings and the pass itself are
left. -/
theorem reprocess_of_idle (w : World) (c : Cache) {s : Session} (isOpen : s.closed = false)
    (unlocked : s.gate.locked = false) (idle : s.passes = []) :
    s.reprocess w c = (some (Pass.findingsAfter w c s).report,
      { s with
        findings := Pass.findingsAfter w c s
        passes := [⟨false, .ended (some (Pass.findingsAfter w c s).report)⟩] },
      (s.resolver.settleAll w c (Directive.requests s.snapshot.text)).2) := by
  have hsettle : s.settle w c = (s, c) := by
    simp only [settle, idle, settle.go]
    rw [← idle]
  have henter : Pass.enter s ⟨false, .queued⟩ = (⟨false, .entered⟩, s.lock false) := by
    simp [Pass.enter, unlocked, isOpen, lock]
  have hversion := Pass.textVersion_findingsAfter w c s
  have hwork := Pass.work_entered w c (s := s.lock false) isOpen false
  have hgate : { (s.lock false).gate with locked := false } = s.gate := by
    cases hg : s.gate with
    | mk pending coalesced locked =>
        have hlocked : locked = false := by simpa [hg] using unlocked
        simp [lock, hg, hlocked]
  have hrun : Pass.run w c s ⟨false, .queued⟩
      = (⟨false, .ended (some (Pass.findingsAfter w c s).report)⟩,
          { s with findings := Pass.findingsAfter w c s },
          (s.resolver.settleAll w c (Directive.requests s.snapshot.text)).2) := by
    simp only [Pass.run, henter, hwork, Pass.step, hgate, Findings.report, hversion]
    rfl
  simp only [reprocess, hsettle, hrun, idle, List.nil_append]
  rfl

end Session

/-- A pass over the only session of a host. -/
theorem Host.reprocess_of_single {h : Host} {id : Uuid} {s : Session}
    (sessions : h.workspace.sessions = [s]) (registry : h.workspace.registry.sessions = [(id, 0)])
    (w : World) : (h.reprocess w id).1 = (s.reprocess w h.workspace.cache).1 ∧
      (h.reprocess w id).2.get? id = some (s.reprocess w h.workspace.cache).2.1 := by
  have hopen : h.workspace.open? id = some (0, s) := by
    simp [Workspace.open?, SessionRegistry.get?, registry, Workspace.session?, sessions]
  constructor
  · simp only [reprocess, hopen]
    rfl
  · simp [reprocess, Workspace.reprocess, Workspace.setSession, get?, Workspace.open?,
      SessionRegistry.get?, registry, Workspace.session?, sessions]

namespace CommandLine

/-! ## The session of a check -/

/-- A check that can be made: what the command line asks for, the configuration that counts, and
the text of the script. -/
structure Check where
  script : Path
  /-- The locations that the command line adds to the default references. -/
  references : List String
  json : Bool
  config : Config
  text : String
  /-- The names on the way to the script that are no texts. -/
  rawNames : List RawName := []

namespace Check

/-- Whether a command line asks for a check: the configuration is loaded, and the script is read. -/
structure Given (w : World) (env : Environment) (words : List String) (k : Check) : Prop where
  asked : ∃ args file, Args.ofWords words = .ok args ∧
    args.mode = .ok (.check k.script file k.references k.json) ∧
    Config.load w env file = .ok k.config
  readable : w.readText k.script = .ok k.text
  rawNames : env.rawNames = k.rawNames

/-- The distinct reference values of the script. -/
def values (k : Check) : List String := Directive.referenceValues k.text

/-- The locations of the values that lead through a raw name. -/
def overrides (w : World) (k : Check) : List (String × String) :=
  rawLocations k.rawNames (sessionDirectory w k.script) k.values

/-- The host that is set up for a check. -/
def host (w : World) (k : Check) : Host :=
  quietHost w k.config k.references (k.overrides w)

/-- What the session of a check is opened with. -/
def request (k : Check) : OpenRequest :=
  { text := k.text, workingDirectory := scriptDirectory k.script }

/-- The session of a check, when it has been opened. -/
def opened (w : World) (id : Uuid) (k : Check) : Session :=
  .create w.directory id (SessionRegistry.projectName 1) k.request k.config.compilationOptions
    (k.overrides w)

/-- The session of a check, when the script has been processed. -/
def session? (w : World) (id : Uuid) (k : Check) : Option Session :=
  (((k.host w).open? w k.request [id]).2.reprocess w id).2.get? id

/-- Opening puts the session of the check into a host without sessions. -/
theorem open?_host (w : World) (id : Uuid) (k : Check) :
    (k.host w).open? w k.request [id] = (some 0, { k.host w with
      workspace := { (k.host w).workspace with
        sessions := [k.opened w id], registry := ⟨[(id, 0)], [], 1⟩ } }) :=
  rfl

/-- The session of a check after the pass. -/
theorem exists_session (w : World) (id : Uuid) (k : Check) :
    ∃ t, k.session? w id = some t ∧ t.id = id ∧ t.resolver = (k.opened w id).resolver ∧
      t.PassedOnce w (k.host w).workspace.cache k.text ∧
      reportOn w (k.host w) id k.text (scriptDirectory k.script) = some (.ofSession t) := by
  have hopen := k.open?_host w id
  have hpass := Session.reprocess_of_idle w (k.host w).workspace.cache (s := k.opened w id)
    rfl rfl rfl
  have hsessions : ((k.host w).open? w k.request [id]).2.workspace.sessions = [k.opened w id] := by
    rw [hopen]
  have hregistry : ((k.host w).open? w k.request [id]).2.workspace.registry.sessions
      = [(id, 0)] := by rw [hopen]
  have hcache : ((k.host w).open? w k.request [id]).2.workspace.cache
      = (k.host w).workspace.cache := by rw [hopen]
  obtain ⟨hreport, hget⟩ := Host.reprocess_of_single hsessions hregistry w
  rw [hcache, hpass] at hreport hget
  refine ⟨_, hget, rfl, rfl, ⟨rfl, ⟨rfl, rfl⟩, rfl, ⟨rfl, ?_⟩, ?_⟩, ?_⟩
  · exact Pass.textVersion_findingsAfter w (k.host w).workspace.cache (k.opened w id)
  · exact Pass.account_findingsAfter w (k.host w).workspace.cache (k.opened w id)
  · have hreportOn : reportOn w (k.host w) id k.text (scriptDirectory k.script)
        = (((k.host w).open? w k.request [id]).2.reprocess w id).1.bind fun _ =>
            (k.session? w id).map CheckReport.ofSession := rfl
    rw [hreportOn, hreport, Option.bind_some, session?, hget]
    rfl

/-! ## What a check looks for -/

/-- The locations that are asked for before the script is looked at: those of the default
references. -/
def asked (w : World) (k : Check) : List String :=
  DefaultSet.startLocations w k.config.directories
    { extraReferences := k.config.extraReferences ++ k.references }

/-- How the references of the script are turned into locations. -/
def resolver (w : World) (k : Check) : Resolver :=
  { workingDirectory := sessionDirectory w k.script
    answer? := fun v => ((k.overrides w).lookup v).map .ok }

theorem location_resolver (w : World) {k : Check} {v : String} (hv : v ∈ k.values) :
    (k.resolver w).location v = (Resolver.locationUnder (sessionDirectory w k.script) v).map
      fun l => if Path.isText k.rawNames ⟨l⟩ then l else Text.shown k.rawNames l := by
  have hlookup : (k.overrides w).lookup v
      = rawLocation? k.rawNames (sessionDirectory w k.script) v := by
    rw [overrides, rawLocations, lookup_filterMap, if_pos hv]
  have hanswer : (k.resolver w).answer? v
      = (rawLocation? k.rawNames (sessionDirectory w k.script) v).map .ok :=
    congrArg (Option.map Except.ok) hlookup
  rw [Resolver.location, hanswer, rawLocation?, resolver]
  cases Resolver.locationUnder (sessionDirectory w k.script) v with
  | error reason => rfl
  | ok l => cases h : Path.isText k.rawNames ⟨l⟩ <;> simp [Except.map, h]

/-- Whether one of these values resolves. -/
def Resolves (w : World) (k : Check) (v : String) : Prop :=
  (k.resolver w).Resolves w k.config.searchDirectories (k.asked w) k.values v

/-- Setting up the host asks for the default references. -/
theorem after_host (w : World) (k : Check) :
    (k.host w).workspace.cache.After w k.config.searchDirectories (k.asked w) :=
  (Cache.after_new w k.config.searchDirectories (.new k.config.directories)).build
    { extraReferences := k.config.extraReferences ++ k.references,
      extraImports := k.config.extraImports }

/-! ## What comes of a check -/

/-- Whether the report of a check can be written: JSON has no room for a path that is no text. -/
def Written (k : Check) (report : CheckReport) : Prop :=
  k.json = true → ∀ p ∈ report.paths, p.isText k.rawNames = true

/-- What comes of a check: the outcome of the program, and the report of the pass. -/
structure Verdict (w : World) (id : Uuid) (k : Check) (outcome : Outcome) (report : CheckReport) :
    Prop where
  printed : k.Written report → outcome = checkOutcome k.json (report.shown k.rawNames)
  refused : ¬ k.Written report → outcome = .failure 1 "path contains invalid UTF-8 characters"
  /-- On a machine without raw names the report is printed as it is. -/
  plain : k.rawNames = [] → outcome = checkOutcome k.json report
  /-- The status is 0 if the report is printed and all reference values resolve, and 1 otherwise. -/
  success : outcome.status = 0 ↔ k.Written report ∧ ∀ v ∈ k.values, k.Resolves w v
  failure : outcome.status = 1 ↔ ¬ k.Written report ∨ ∃ v ∈ k.values, ¬ k.Resolves w v
  /-- A value is read from the directory of the script. Where this leads through a raw name, the
  location holds what is shown of it. -/
  locations : ∀ v ∈ k.values, (k.resolver w).location v
    = (Resolver.locationUnder (sessionDirectory w k.script) v).map
        fun l => if Path.isText k.rawNames ⟨l⟩ then l else Text.shown k.rawNames l
  /-- The report lists the values that resolve, and it has errors if some value that was scanned is
  not listed. -/
  directives : ∀ v, v ∈ report.directives ↔ v ∈ k.values ∧ k.Resolves w v
  errors : report.hasErrors = true ↔
    ∃ d ∈ Directive.scan k.text, d.kind = .reference ∧ d.value ∉ report.directives
  /-- The report is that of one pass over the whole text. -/
  pass : ∃ t, k.session? w id = some t ∧ report = .ofSession t ∧
    t.PassedOnce w (k.host w).workspace.cache k.text

section Written

variable {k : Check} {report : CheckReport}

theorem written_iff : k.Written report ↔
    (k.json && !report.paths.all (·.isText k.rawNames)) = false := by
  cases h : k.json <;> simp [Written, h]

/-- Without JSON every report can be written. -/
theorem written_of_json_eq_false (h : k.json = false) : k.Written report := by
  rw [written_iff, h, Bool.false_and]

theorem written_of_rawNames_eq_nil (h : k.rawNames = []) : k.Written report := by
  simp [Written, h]

theorem reportOutcome_of_written (h : k.Written report) :
    reportOutcome k.rawNames k.json report = checkOutcome k.json (report.shown k.rawNames) :=
  if_neg (Bool.not_eq_true _ ▸ written_iff.mp h)

theorem reportOutcome_of_not_written (h : ¬ k.Written report) :
    reportOutcome k.rawNames k.json report
      = .failure 1 "path contains invalid UTF-8 characters" :=
  if_pos (by rwa [written_iff, Bool.not_eq_false] at h)

theorem status_reportOutcome_eq_zero_iff : (reportOutcome k.rawNames k.json report).status = 0 ↔
    k.Written report ∧ report.hasErrors = false := by
  by_cases hwritten : k.Written report
  · rw [reportOutcome_of_written hwritten, checkOutcome, CheckReport.hasErrors_shown,
      and_iff_right hwritten]
    cases report.hasErrors <;> simp
  · rw [reportOutcome_of_not_written hwritten]
    exact iff_of_false (by decide) fun h => hwritten h.1

/-- There is no other status than 0 and 1. -/
theorem status_reportOutcome_eq_one_iff : (reportOutcome k.rawNames k.json report).status = 1 ↔
    ¬ (k.Written report ∧ report.hasErrors = false) := by
  rw [← status_reportOutcome_eq_zero_iff, reportOutcome]
  split
  · decide
  · rw [checkOutcome]
    cases (report.shown k.rawNames).hasErrors <;> simp

end Written

theorem Given.exists_verdict {w : World} {env : Environment} {words : List String} {k : Check}
    (given : k.Given w env words) (id : Uuid) :
    ∃ report, k.Verdict w id (run w env id words) report := by
  obtain ⟨⟨args, file, hwords, hmode, hconfig⟩, hread, hraw⟩ := given
  obtain ⟨t, hsession, -, hresolver, hpassed, hreport⟩ := k.exists_session w id
  have hvalues : (distinctDirectives (Directive.scan k.text)).filterMap Directive.referenceValue?
      = k.values := by
    rw [Directive.distinctDirectives_eq]
    rfl
  have hrun : run w env id words = reportOutcome k.rawNames k.json (.ofSession t) := by
    have hreport' : reportOn w (quietHost w k.config k.references (rawLocations k.rawNames
        (sessionDirectory w k.script) k.values)) id k.text (scriptDirectory k.script)
          = some (.ofSession t) := hreport
    simp only [run, hwords, hmode, Command.run, checkScript, hconfig, hread, hraw, hvalues,
      hreport']
  have haccount := hpassed.account
  rw [hresolver] at haccount
  have hdirectives (v : String) : v ∈ t.findings.directives ↔ v ∈ k.values ∧ k.Resolves w v :=
    haccount.mem_directives_iff_resolves (k.after_host w)
  have herrors : (CheckReport.ofSession t).hasErrors = true ↔
      ∃ v ∈ k.values, v ∉ t.findings.directives := haccount.isError_iff
  have hunresolved : (CheckReport.ofSession t).hasErrors = true ↔
      ∃ v ∈ k.values, ¬ k.Resolves w v := by
    rw [herrors]
    exact exists_congr fun v => and_congr_right fun hv => by rw [hdirectives, and_iff_right hv]
  have hresolved : (CheckReport.ofSession t).hasErrors = false ↔
      ∀ v ∈ k.values, k.Resolves w v := by
    rw [← Bool.not_eq_true, hunresolved]
    simp only [not_exists, not_and, not_not]
  have hprinted (hwritten : k.Written (.ofSession t)) : run w env id words
      = checkOutcome k.json ((CheckReport.ofSession t).shown k.rawNames) :=
    hrun.trans (reportOutcome_of_written hwritten)
  have hrefused (hnot : ¬ k.Written (.ofSession t)) : run w env id words
      = .failure 1 "path contains invalid UTF-8 characters" :=
    hrun.trans (reportOutcome_of_not_written hnot)
  have hplain (hnone : k.rawNames = []) :
      run w env id words = checkOutcome k.json (.ofSession t) := by
    rw [hprinted (written_of_rawNames_eq_nil hnone), hnone, CheckReport.shown_nil]
  refine ⟨.ofSession t, hprinted, hrefused, hplain, ?_, ?_, fun _ hv => location_resolver w hv,
    hdirectives, ?_, t, hsession, rfl, hpassed⟩
  · rw [hrun, status_reportOutcome_eq_zero_iff, hresolved]
  · rw [hrun, status_reportOutcome_eq_one_iff, not_and_or, Bool.not_eq_false, hunresolved]
  · rw [herrors]
    constructor
    · rintro ⟨v, hv, hnot⟩
      obtain ⟨d, hd, hkind, rfl⟩ := Directive.exists_of_mem_referenceValues hv
      exact ⟨d, hd, hkind, hnot⟩
    · rintro ⟨d, hd, hkind, hnot⟩
      exact ⟨d.value, Directive.mem_referenceValues_of_mem_scan hd hkind, hnot⟩

namespace Verdict

variable {w : World} {id : Uuid} {k : Check} {outcome : Outcome} {report : CheckReport}

theorem error_eq_none_iff (verdict : k.Verdict w id outcome report) :
    outcome.error = none ↔ k.Written report := by
  constructor
  · intro herror
    by_contra hrefused
    rw [verdict.refused hrefused] at herror
    cases herror
  · intro hwritten
    rw [verdict.printed hwritten]
    rfl

theorem status_of_ne_zero (verdict : k.Verdict w id outcome report) (h : outcome.status ≠ 0) :
    outcome.status = 1 := by
  rw [ne_eq, verdict.success, not_and_or] at h
  refine verdict.failure.mpr (h.imp_right fun hvalues => ?_)
  simpa only [not_forall, exists_prop] using hvalues

end Verdict

/-! ## What does not count -/

/-- Differences between two checks, each beside its own files, that do not count. -/
inductive Immaterial : World × Check → World × Check → Prop where
  /-- The text names other scripts to load, and other files are there, scripts and documentation
  among them. But the reference values are the same, and so are the facades, and what is asked for
  designates a module in both or in neither. -/
  | files (w w' : World) (k : Check) (text : String) (directory : w'.directory = w.directory)
      (values : Directive.referenceValues text = k.values)
      (facades : DefaultSet.facadeLocations w' k.config.directories
        = DefaultSet.facadeLocations w k.config.directories)
      (modules : ∀ location ∈ k.asked w ++ (k.resolver w).locations k.values,
        Designates w' k.config.searchDirectories location ↔
          Designates w k.config.searchDirectories location) :
      Immaterial (w, k) (w', { k with text })
  /-- Extra references that designate no module are left out. -/
  | references (w : World) (k : Check) (configured given : List String)
      (sublist : (configured ++ given).Sublist (k.config.extraReferences ++ k.references))
      (all : ∀ location ∈ k.config.extraReferences ++ k.references,
        Designates w k.config.searchDirectories location → location ∈ configured ++ given) :
      Immaterial (w, k) (w,
        { k with config := { k.config with extraReferences := configured }, references := given })
  /-- A runtime directory that is missing is not looked at. -/
  | runtimeDirectory (w : World) (k : Check) (d : Path)
      (configured : k.config.runtimeDirectory = some d) (lacks : w.Lacks d) :
      Immaterial (w, k) (w, { k with config := { k.config with runtimeDirectory := none } })
  /-- A directory of reference assemblies that is missing is not looked at. -/
  | referenceAssemblies (w : World) (k : Check) (d : Path)
      (configured : k.config.referenceAssembliesPath = some d) (lacks : w.Lacks d) :
      Immaterial (w, k) (w, { k with config := { k.config with referenceAssembliesPath := none } })
  /-- The documentation is looked for elsewhere, or nowhere. -/
  | documentation (w : World) (k : Check) (path : Option Path) :
      Immaterial (w, k) (w, { k with config := { k.config with documentationPath := path } })

/-- Whether two checks have the same reference values, and these come to the same. -/
def SameValues (p q : World × Check) : Prop :=
  q.2.values = p.2.values ∧ ∀ v ∈ p.2.values, q.2.Resolves q.1 v ↔ p.2.Resolves p.1 v

theorem sameValues_of {w w' : World} {k k' : Check} (values : k'.values = k.values)
    (resolver : k'.resolver w' = k.resolver w) (directory : w'.directory = w.directory)
    (before : ∀ key, Provides w' k'.config.searchDirectories (k'.asked w') key ↔
      Provides w k.config.searchDirectories (k.asked w) key)
    (modules : ∀ location ∈ (k.resolver w).locations k.values,
      Designates w' k'.config.searchDirectories location ↔
        Designates w k.config.searchDirectories location) :
    SameValues (w, k) (w', k') := by
  refine ⟨values, fun v hv => ?_⟩
  show Resolver.Resolves w' _ _ (k'.resolver w') k'.values v ↔ _
  rw [resolver, values]
  exact Resolver.resolves_congr hv directory before modules

theorem Immaterial.sameValues {p q : World × Check} (h : Immaterial p q) : SameValues p q := by
  cases h with
  | files w w' k text directory values facades modules =>
      have hasked : asked w' { k with text } = k.asked w := by
        simp only [asked, DefaultSet.startLocations, facades]
      have hresolver : resolver w' { k with text } = k.resolver w := by
        have hvalues : Check.values { k with text } = k.values := values
        simp only [resolver, overrides, sessionDirectory, hvalues, directory]
      refine sameValues_of values hresolver directory (fun key => ?_)
        fun location hmem => modules location (List.mem_append_right _ hmem)
      rw [hasked]
      exact provides_congr directory fun location hmem =>
        modules location (List.mem_append_left _ hmem)
  | references w k configured given sublist all =>
      refine sameValues_of rfl rfl rfl (fun key => ?_) fun _ _ => Iff.rfl
      refine provides_iff_of_sublist (((List.Sublist.refl _).append sublist).append (.refl _)) ?_
      intro location hmem hfile
      rw [asked, DefaultSet.startLocations, List.mem_append, List.mem_append] at hmem
      rcases hmem with (htype | hextra) | hfacade
      · exact List.mem_append_left _ (List.mem_append_left _ htype)
      · exact List.mem_append_left _ (List.mem_append_right _ (all location hextra hfile))
      · exact List.mem_append_right _ hfacade
  | runtimeDirectory w k d configured lacks =>
      have hdesignates (location : String) :
          Designates w k.config.referenceAssembliesPath.toList location ↔
            Designates w k.config.searchDirectories location := by
        rw [Config.searchDirectories, configured]
        have hskip : Designates w ([] ++ d :: k.config.referenceAssembliesPath.toList) location ↔
            Designates w ([] ++ k.config.referenceAssembliesPath.toList) location :=
          designates_iff_of_lacks lacks
        exact hskip.symm
      exact sameValues_of rfl rfl rfl (fun key => provides_congr rfl fun l _ => hdesignates l)
        fun l _ => hdesignates l
  | referenceAssemblies w k d configured lacks =>
      have hdesignates (location : String) :
          Designates w (k.config.runtimeDirectory.toList ++ []) location ↔
            Designates w k.config.searchDirectories location := by
        rw [Config.searchDirectories, configured]
        exact (designates_iff_of_lacks lacks).symm
      have hasked : asked w { k with config := { k.config with referenceAssembliesPath := none } }
          = k.asked w := by
        have hfacades := DefaultSet.facadeLocations_of_lacks lacks k.config.documentationPath
        simp only [asked, DefaultSet.startLocations, Config.directories, configured, hfacades]
        rfl
      refine sameValues_of rfl rfl rfl (fun key => ?_) fun l _ => hdesignates l
      rw [hasked]
      exact provides_congr rfl fun l _ => hdesignates l
  | documentation w k path => exact sameValues_of rfl rfl rfl (fun _ => Iff.rfl) fun _ _ => Iff.rfl

theorem sameValues_of_eqvGen {p q : World × Check} (h : Relation.EqvGen Immaterial p q) :
    SameValues p q := by
  induction h with
  | rel p q h => exact h.sameValues
  | refl p => exact ⟨rfl, fun _ _ => Iff.rfl⟩
  | symm p q _ ih =>
      obtain ⟨hvalues, hresolves⟩ := ih
      rw [← hvalues] at hresolves
      exact ⟨hvalues.symm, fun v hv => (hresolves v hv).symm⟩
  | trans p q o _ _ first second =>
      obtain ⟨hvalues, hresolves⟩ := first
      obtain ⟨hvalues', hresolves'⟩ := second
      rw [hvalues] at hresolves'
      exact ⟨hvalues'.trans hvalues, fun v hv => (hresolves' v hv).trans (hresolves v hv)⟩

/-- A script that asks for a library, which is there, and for another script, which is not. -/
def bench : World :=
  ((default : World).putFile ⟨"/lib.dll"⟩ (.text "")).putFile ⟨"/main.csx"⟩
    (.text "#r \"/lib.dll\"\n#load \"/setup.csx\"")

/-- The check of this script, with an extra reference that designates nothing. -/
def benchCheck : Check :=
  { script := ⟨"/main.csx"⟩, references := ["Nowhere"], json := false, config := {}
    text := "#r \"/lib.dll\"\n#load \"/setup.csx\"" }

/-- The same check without the extra reference. -/
def plainCheck : Check := { benchCheck with references := [] }

/-- The environment of a machine on which a name ends in a byte that is no UTF-8. -/
def roughEnvironment : Environment := { rawNames := [⟨"d%FF", "d\uFFFD"⟩] }

/-- A script that loads the script beside it, in a directory of that name. -/
def roughDesk : World :=
  ((default : World).putFile ⟨"/d%FF/main.csx"⟩ (.text "#load \"setup.csx\"")).putFile
    ⟨"/d%FF/setup.csx"⟩ (.text "")

/-- The check of this script. -/
def roughCheck : Check :=
  { script := ⟨"/d%FF/main.csx"⟩, references := [], json := true, config := {}
    text := "#load \"setup.csx\"", rawNames := roughEnvironment.rawNames }

end Check

end CommandLine

end ScriptSessions
