import ScriptSessions.Proofs.Reference.Keys
import ScriptSessions.Proofs.Reference.Origin
import ScriptSessions.Proofs.Session.Runs

set_option autoImplicit false

/-! # Where the directives of a session lead

A session makes its working directory absolute when it is created, and whatever its directives
name is joined with that directory. So the location of a file directive has the key of the file
below the working directory, and is never looked up by name; and the scripts that a session lists
are absolute paths. Passes add nothing of their own to this: they hand on what the resolver gives
(`Session.Obeys`).

The empty working directory is the exception. It has no absolute form and stays empty, and a path
below it is the path itself. A file name without a slash is then a bare name again, which the
cache looks up in its search directories (`Session.locations_iff`).
-/

namespace ScriptSessions

/-! ## Trimmed texts -/

namespace Text

/-- A text with no blank at either end. -/
def IsTrimmed (s : String) : Prop :=
  (∀ c ∈ s.toList.head?, isBlank c = false) ∧ ∀ c ∈ s.toList.getLast?, isBlank c = false

theorem isTrimmed_trim (s : String) : IsTrimmed (trim s) := by
  have hdrop (cs : List Char) (c : Char) (hc : c ∈ (cs.dropWhile isBlank).head?) :
      isBlank c = false := by
    have hhead := List.head?_dropWhile_not isBlank cs
    rw [Option.mem_def.mp hc] at hhead
    simpa using hhead
  unfold IsTrimmed trim trimList trimRight
  rw [String.toList_ofList, List.head?_reverse, List.getLast?_reverse]
  refine ⟨fun c hc => ?_, fun c hc => hdrop _ c hc⟩
  -- what is left at the end begins as it began before the end was trimmed
  obtain ⟨front, hfront⟩ :=
    List.dropWhile_suffix (l := (s.toList.dropWhile isBlank).reverse) isBlank
  refine hdrop s.toList c ?_
  rw [← List.getLast?_reverse, ← hfront, List.getLast?_append, Option.mem_def.mp hc]
  rfl

theorem trim_eq_self {s : String} (h : IsTrimmed s) : trim s = s := by
  have hdrop (cs : List Char) (hcs : ∀ c ∈ cs.head?, isBlank c = false) :
      cs.dropWhile isBlank = cs := by
    cases cs with
    | nil => rfl
    | cons c rest => exact List.dropWhile_cons_of_neg (by simp [hcs c rfl])
  have hlast : ∀ c ∈ s.toList.reverse.head?, isBlank c = false := by
    rw [List.head?_reverse]
    exact h.2
  rw [trim, trimList, hdrop _ h.1, trimRight, hdrop _ hlast, List.reverse_reverse,
    String.ofList_toList]

end Text

open Reference

/-! ## The location of a file directive -/

namespace Resolver

/-- Whether a reference value names a file and not an assembly. -/
structure NamesFile (value : String) : Prop where
  nonblank : Text.trim value ≠ ""
  file : isBareName (Text.trim value) = false ∨ hasModuleExtension (Text.trim value) = true

/-- The file that a value names in a session that was opened in a directory: the value itself if it
is absolute, and otherwise what it is below that directory. -/
def fileNamed (cwd directory : Path) (value : String) : String :=
  if Path.isAbsolute ⟨Text.trim value⟩ then value
  else ((cwd.join directory).join ⟨Text.trim value⟩).text

/-- Whether a location leads to a file: it has the key of the file, and it is examined at the place
of the file and never looked up by name. -/
structure LeadsTo (cwd : Path) (file location : String) : Prop where
  spelled : isBareName location = false
  key : ∃ key, Key.normalize cwd location = .ok key ∧ Key.normalize cwd file = .ok key
  examined : ∀ c key cell, Fetch.beginLoading cwd c location key cell
    = .examining key cell (Path.ofNames (Path.names cwd ⟨Text.trim file⟩))

theorem isBareName_of_isAbsolute {p : Path} (absolute : p.isAbsolute = true) :
    isBareName p.text = false := by
  rw [Path.isAbsolute, beq_iff_eq] at absolute
  have hslash : '/' ∈ p.text.toList := List.mem_of_head? absolute
  simp [isBareName, hslash]

theorem ne_empty_of_not_bare {s : String} (spelled : isBareName s = false) : s ≠ "" := by
  rintro rfl
  exact absurd spelled (by decide)

/-- A location that leads to the place of a file leads to the file. -/
theorem leadsTo_of_names {cwd : Path} {file location : String} (trimmed : Text.IsTrimmed location)
    (spelled : isBareName location = false) (spelled' : isBareName (Text.trim file) = false)
    (names : Path.names cwd ⟨location⟩ = Path.names cwd ⟨Text.trim file⟩) :
    LeadsTo cwd file location := by
  have htrim := Text.trim_eq_self trimmed
  refine ⟨spelled, ⟨Key.ofNames (Path.names cwd ⟨location⟩), ?_, ?_⟩, fun c key cell => ?_⟩
  · rw [Key.normalize_eq_ok_iff, htrim, spelled, if_neg Bool.false_ne_true]
    exact ⟨ne_empty_of_not_bare spelled, rfl⟩
  · rw [Key.normalize_eq_ok_iff, spelled', if_neg Bool.false_ne_true, names]
    exact ⟨ne_empty_of_not_bare spelled', rfl⟩
  · unfold Fetch.beginLoading
    rw [htrim, ← names]
    exact if_neg (by rw [spelled]; exact Bool.false_ne_true)

/-- A trimmed text below an absolute directory is a trimmed path. -/
theorem isTrimmed_join {base : Path} (absolute : base.isAbsolute = true) {v : String}
    (trimmed : Text.IsTrimmed v) (nonblank : v ≠ "") : Text.IsTrimmed (base.join ⟨v⟩).text := by
  by_cases hv : Path.isAbsolute ⟨v⟩ = true
  · rw [Path.join, if_pos hv]
    exact trimmed
  · obtain ⟨front, htext, tail, hfront⟩ := Path.exists_text_join base (Bool.eq_false_iff.mpr hv)
    have hhead : (base.join ⟨v⟩).text.toList.head? = some '/' := by
      have habsolute := Path.isAbsolute_join base ⟨v⟩
      rw [absolute, Bool.or_true, Path.isAbsolute, beq_iff_eq] at habsolute
      exact habsolute
    have hne : v.toList ≠ [] := fun h => nonblank (String.toList_inj.mp h)
    obtain ⟨last, hlast⟩ := Option.isSome_iff_exists.mp (List.getLast?_isSome.mpr hne)
    constructor
    · intro c hc
      rw [hhead] at hc
      cases hc
      decide
    · intro c hc
      rw [htext, List.getLast?_append, hlast] at hc
      exact trimmed.2 c (hlast.trans hc)

/-- A relative value leads below an absolute directory from wherever it is seen. -/
theorem names_join {cwd base : Path} (absolute : base.isAbsolute = true) {v : String}
    (relative : Path.isAbsolute ⟨v⟩ = false) :
    Path.names cwd (base.join ⟨v⟩) = Path.collapseSteps (base.steps ++ Path.steps ⟨v⟩) := by
  rw [Path.names, Path.isAbsolute_join, absolute, Bool.or_true, if_pos rfl, Path.steps_join,
    relative]
  rfl

/-- The location of a file directive leads to the file that the value names, unless the session was
opened in the empty directory and the value is a file name without a slash. -/
theorem leadsTo_iff {cwd : Path} (absolute : cwd.isAbsolute = true) (directory : Path)
    {value : String} (nonblank : Text.trim value ≠ "") :
    LeadsTo cwd (fileNamed cwd directory value)
        (((Path.absolute? cwd directory).getD directory).join ⟨Text.trim value⟩).text ↔
      directory.text ≠ "" ∨ isBareName (Text.trim value) = false := by
  have hbase := Path.absolute?_getD_cases absolute directory
  generalize (Path.absolute? cwd directory).getD directory = base at *
  have htrimmed := Text.isTrimmed_trim value
  have htrim := Text.trim_eq_self htrimmed
  unfold fileNamed
  generalize hv : Text.trim value = v at *
  by_cases hrooted : Path.isAbsolute ⟨v⟩ = true
  · -- an absolute value is its own location
    have hspelled : isBareName v = false := isBareName_of_isAbsolute hrooted
    rw [if_pos hrooted, Path.join, if_pos hrooted]
    have hleads : LeadsTo cwd value v :=
      leadsTo_of_names htrimmed hspelled (by rwa [hv]) (by rw [hv])
    exact iff_of_true hleads (.inr hspelled)
  · have hrelative : Path.isAbsolute ⟨v⟩ = false := Bool.eq_false_iff.mpr hrooted
    have hfrom : (cwd.join directory).isAbsolute = true := by
      rw [Path.isAbsolute_join, absolute, Bool.or_true]
    have hspelled {p : Path} (hp : p.isAbsolute = true) : isBareName (p.join ⟨v⟩).text = false := by
      refine isBareName_of_isAbsolute ?_
      rw [Path.isAbsolute_join, hp, Bool.or_true]
    have hfile := Text.trim_eq_self (isTrimmed_join hfrom htrimmed nonblank)
    rw [if_neg hrooted]
    rcases hbase with ⟨hd, hempty⟩ | ⟨hd, hbelow, hsteps⟩
    · -- the value is its own location, too, and is seen from the current directory
      have hhere : (cwd.join directory).steps = cwd.steps := by
        have hroot : directory = ⟨""⟩ := congrArg Path.mk hd
        rw [Path.steps_join, hroot]
        exact List.append_nil _
      rw [hempty, Path.join_of_empty hd, or_iff_right (not_not_intro hd)]
      refine ⟨LeadsTo.spelled, fun h => leadsTo_of_names htrimmed h ?_ ?_⟩
      · rw [hfile]
        exact hspelled hfrom
      · rw [hfile, names_join hfrom hrelative, hhere, Path.names, hrelative]
        rfl
    · refine iff_of_true ?_ (.inl hd)
      refine leadsTo_of_names (isTrimmed_join hbelow htrimmed nonblank) (hspelled hbelow) ?_ ?_
      · rw [hfile]
        exact hspelled hfrom
      · rw [hfile, names_join hfrom hrelative, names_join hbelow hrelative, hsteps]

/-- The path of a script that a directive asks for. -/
def Loads (r : Resolver) (path : Path) : Prop :=
  ∃ d : Directive, d.kind = .load ∧ path = r.scriptPath d.value

end Resolver

/-! ## What passes hand on -/

namespace Pass

/-- The scripts that a pass has found and not stored. -/
def scripts (p : Pass) : List Path :=
  match p.stage with
  | .resolving _ found _ => found.loadedScripts
  | _ => []

/-- The directive that a pass is looking at, and the location that it has handed to the cache. -/
def asked? (p : Pass) : Option (Directive × String) :=
  match p.stage with
  | .resolving (d :: _) _ (some f) => some (d, f.location)
  | _ => none

/-- A pass hands on what a resolver gives. -/
structure Obeys (r : Resolver) (p : Pass) : Prop where
  scripts : ∀ path ∈ p.scripts, r.Loads path
  asked : ∀ d location, p.asked? = some (d, location) → r.location d.value = .ok location

theorem obeys_of_nothing {r : Resolver} {p : Pass} (scripts : p.scripts = [])
    (asked : p.asked? = none) : p.Obeys r := by
  refine ⟨?_, ?_⟩
  · rw [scripts]
    exact nofun
  · rw [asked]
    exact nofun

/-- A pass that looks at a directive goes on to hand on what the resolver of its session gives. -/
theorem Obeys.stepDirective {w : World} {others : List Fetch} {c : Cache} {s : Session} {b : Bool}
    {d : Directive} {rest : List Directive} {found : Findings} {fetch : Option Fetch}
    (h : Obeys s.resolver ⟨b, .resolving (d :: rest) found fetch⟩) :
    Obeys s.resolver ⟨b, (stepDirective w others c s d rest found fetch).1⟩ := by
  have hdone (found' : Findings) (hfound : ∀ path ∈ found'.loadedScripts, s.resolver.Loads path) :
      Obeys s.resolver ⟨b, .resolving rest found' none⟩ := by
    refine ⟨hfound, ?_⟩
    cases rest <;> exact nofun
  have hreference (result : Except Error Entry) :
      Obeys s.resolver ⟨b, .resolving rest (found.addReference d result) none⟩ := by
    refine hdone _ ?_
    cases result <;> exact h.scripts
  unfold Pass.stepDirective
  split
  · next hkind =>
      refine hdone _ fun path hpath => ?_
      unfold Findings.addScript at hpath
      split at hpath
      · rcases List.mem_append.mp hpath with hold | hnew
        · exact h.scripts path hold
        · exact ⟨d, hkind, List.mem_singleton.mp hnew⟩
      · exact h.scripts path hpath
  · split
    · exact hreference _
    · next location hlocation =>
        refine ⟨h.scripts, fun d' location' hasked => ?_⟩
        cases hasked
        exact hlocation
  · next f _ =>
      split
      · exact hreference _
      · -- the fetch keeps its location while it is under way
        have hlocation := f.location_step w others c
        generalize f.step w others c = r at hlocation ⊢
        refine ⟨h.scripts, fun d' location' hasked => ?_⟩
        cases hasked
        exact hlocation ▸ h.asked d f.location rfl

end Pass

namespace Session

/-- A session and its passes hand on what a resolver gives. -/
structure Obeys (r : Resolver) (s : Session) : Prop where
  resolver : s.resolver = r
  stored : ∀ path ∈ s.findings.loadedScripts, r.Loads path
  held : ∀ p ∈ s.passes, p.Obeys r

theorem Obeys.move {r : Resolver} {s t : Session} {p q : Pass} (hs : s.Obeys r) (hp : p.Obeys r)
    (h : p.Move s q t) : q.Obeys r ∧ ∀ path ∈ t.findings.loadedScripts, r.Loads path := by
  cases h with
  | idle => exact ⟨hp, hs.stored⟩
  | enter | turnBack | leave => exact ⟨Pass.obeys_of_nothing rfl rfl, hs.stored⟩
  | read =>
      refine ⟨⟨nofun, ?_⟩, hs.stored⟩
      unfold Pass.readSnapshot
      cases distinctDirectives (Directive.scan s.snapshot.text) <;> exact nofun
  | look b w others c d rest found fetch =>
      refine ⟨?_, hs.stored⟩
      rw [← hs.resolver] at hp ⊢
      exact hp.stepDirective
  | commit b found fetch =>
      refine ⟨Pass.obeys_of_nothing rfl rfl, fun path hpath => ?_⟩
      by_cases hc : s.closed = true
      · rw [(commit_of_closed hc found).1] at hpath
        exact hs.stored path hpath
      · rw [commit_of_open (by simpa using hc)] at hpath
        exact hp.scripts path hpath
  | stop =>
      refine ⟨Pass.obeys_of_nothing rfl rfl, ?_⟩
      split
      · exact hs.stored
      · exact hs.stored

theorem Obeys.perform {r : Resolver} {s : Session} (hs : s.Obeys r) (a : Action) :
    (s.perform a).Obeys r := by
  have hqueued (b : Bool) : ∀ p ∈ s.passes ++ [⟨b, .queued⟩], p.Obeys r := by
    intro p hp
    rcases List.mem_append.mp hp with hold | hnew
    · exact hs.held p hold
    · rw [List.mem_singleton.mp hnew]
      exact Pass.obeys_of_nothing rfl rfl
  have h := s.effect_perform a
  generalize s.perform a = t at h
  cases h with
  | idle => exact hs
  | update | fold | cancel | close => exact ⟨hs.resolver, hs.stored, hs.held⟩
  | schedule => exact ⟨hs.resolver, hs.stored, hqueued true⟩
  | requestNow => exact ⟨hs.resolver, hs.stored, hqueued false⟩
  | move _ i p q t at_i h =>
      obtain ⟨hq, ht⟩ := hs.move (hs.held p (List.mem_of_getElem? at_i)) h
      obtain ⟨gate, findings, rfl⟩ := h.frame
      refine ⟨hs.resolver, ht, fun p' hp' => ?_⟩
      rcases List.mem_or_eq_of_mem_set hp' with hold | rfl
      · exact hs.held p' hold
      · exact hq

/-- What a session was created with decides what it hands on, whatever happens to it. -/
theorem obeys_run (cwd : Path) (id : Uuid) (name : String) (request : OpenRequest)
    (options : CompilationOptions) (overrides : List (String × String)) (actions : List Action) :
    ((create cwd id name request options overrides).run actions).Obeys
      (create cwd id name request options overrides).resolver :=
  run_induction (fun _ a h => h.perform a) ⟨rfl, nofun, nofun⟩ actions

/-! ## The directory of a session -/

/-- **When file directives lead below the working directory.** The location of a value that names a
file leads to that file, unless the session was opened in the empty directory and the value is a
bare name; and that location is what passes hand to the cache. A script that is listed has an
absolute path, unless the session was opened in the empty directory and the value is relative. -/
theorem locations_iff {cwd : Path} (absolute : cwd.isAbsolute = true) (id : Uuid) (name : String)
    (request : OpenRequest) (options : CompilationOptions) (overrides : List (String × String)) :
    let s := create cwd id name request options overrides
    let directory := request.workingDirectory
    (∀ value, Resolver.NamesFile value → overrides.lookup value = none →
      ∃ location, s.resolver.location value = .ok location ∧
        (Resolver.LeadsTo cwd (Resolver.fileNamed cwd directory value) location ↔
          directory.text ≠ "" ∨ isBareName (Text.trim value) = false)) ∧
    ∀ actions,
      (∀ p ∈ (s.run actions).passes, ∀ d location, p.asked? = some (d, location) →
        s.resolver.location d.value = .ok location) ∧
      ∀ path ∈ (s.run actions).findings.loadedScripts, ∃ d : Directive, d.kind = .load ∧
        path = s.resolver.scriptPath d.value ∧
        (path.isAbsolute = true ↔
          directory.text ≠ "" ∨ Path.isAbsolute ⟨Text.trim d.value⟩ = true) := by
  intro s directory
  refine ⟨fun value names free => ?_, fun actions => ?_⟩
  · have hlocation : s.resolver.location value
        = .ok (s.resolver.workingDirectory.join ⟨Text.trim value⟩).text := by
      have hanswer : s.resolver.answer? value = none := by
        show (overrides.lookup value).map Except.ok = none
        rw [free]
        rfl
      have hfile : ¬ ((isBareName (Text.trim value) && !hasModuleExtension (Text.trim value))
          = true) := by
        rcases names.file with h | h <;> simp [h]
      rw [Resolver.location, hanswer, Resolver.locationUnder, if_neg names.nonblank, if_neg hfile]
      rfl
    exact ⟨_, hlocation, Resolver.leadsTo_iff absolute directory names.nonblank⟩
  · have hobeys := obeys_run cwd id name request options overrides actions
    refine ⟨fun p hp => (hobeys.held p hp).asked, fun path hpath => ?_⟩
    obtain ⟨d, hkind, rfl⟩ := hobeys.stored path hpath
    refine ⟨d, hkind, rfl, ?_⟩
    show (s.resolver.workingDirectory.join ⟨Text.trim d.value⟩).isAbsolute = true ↔ _
    rw [Path.isAbsolute_join, Bool.or_eq_true, or_comm]
    refine or_congr_left ?_
    rcases Path.absolute?_getD_cases absolute directory with ⟨hd, hempty⟩ | ⟨hd, hbelow, -⟩
    · have hbase : s.resolver.workingDirectory = directory := hempty
      rw [hbase, Path.isAbsolute, hd]
      simp
    · exact iff_of_true hbelow hd

/-- A session that is opened in a directory, relative to the current one. -/
def inDirectory (directory text : String) : Session :=
  create ⟨"/work"⟩ .nil "Script1" { text, workingDirectory := ⟨directory⟩ } {} []

/-- In the directory `sub`, the value `lib.dll` leads to the file below it, however the pass goes. -/
theorem sub_leads_to_lib :
    (∃ location, (inDirectory "sub" "").resolver.location " lib.dll" = .ok location ∧
      Resolver.LeadsTo ⟨"/work"⟩ "/work/sub/lib.dll" location) ∧
    ∀ actions, ∀ path ∈ ((inDirectory "sub" "").run actions).findings.loadedScripts,
      path.isAbsolute = true := by
  have habsolute : Path.isAbsolute ⟨"/work"⟩ = true := rfl
  obtain ⟨hlocations, hruns⟩ :=
    locations_iff habsolute .nil "Script1" { workingDirectory := ⟨"sub"⟩ } {} []
  constructor
  · obtain ⟨location, hlocation, hleads⟩ :=
      hlocations " lib.dll" ⟨by decide, .inr (by decide)⟩ rfl
    exact ⟨location, hlocation, hleads.mpr (.inl (by decide))⟩
  · intro actions path hpath
    obtain ⟨d, -, -, hrooted⟩ := (hruns actions).2 path hpath
    exact hrooted.mpr (.inl (by decide))

/-- Two files in the current directory. -/
def withHelper : World :=
  ((⟨⟨"/work"⟩, .empty⟩ : World).putFile ⟨"lib.dll"⟩ (.text "")).putFile ⟨"helper.csx"⟩ (.text "")

/-- **In the empty directory a file name is looked up by name**: the value `lib.dll` is handed on as
it is, and the cache searches for it. The path of a script stays relative. -/
theorem empty_directory_hands_on_name :
    Resolver.NamesFile "lib.dll" ∧
    (inDirectory "" "").resolver.location "lib.dll" = .ok "lib.dll" ∧
    isBareName "lib.dll" = true ∧
    Fetch.beginLoading ⟨"/work"⟩ (.new [⟨"/rt"⟩] default) "lib.dll" ⟨"lib"⟩ 0
      = .searching ⟨"lib"⟩ 0 [⟨"/rt/lib.dll"⟩] ∧
    Key.normalize ⟨"/work"⟩ "lib.dll" = .ok ⟨"lib"⟩ ∧
    Key.normalize ⟨"/work"⟩ "/work/lib.dll" = .ok ⟨"/work/lib"⟩ ∧
    ((inDirectory "" "#load \"helper.csx\"").run (.requestNow ::
        List.replicate 4 (.step 0 withHelper [] default))).findings.loadedScripts
      = [⟨"helper.csx"⟩] := by
  have htrim : Text.trim "lib.dll" = "lib.dll" := by decide
  refine ⟨⟨by decide, .inr (by decide)⟩, ?_, by decide, ?_, rfl, rfl, by decide +kernel⟩
  · show Resolver.locationUnder ⟨""⟩ "lib.dll" = _
    rw [Resolver.locationUnder, htrim]
    rfl
  · rw [Fetch.beginLoading, htrim]
    rfl

end Session

end ScriptSessions
