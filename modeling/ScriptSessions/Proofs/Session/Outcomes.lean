import ScriptSessions.Proofs.Lists
import ScriptSessions.Proofs.Reference.Cells
import ScriptSessions.Proofs.Session.Runs

set_option autoImplicit false

/-! # Every directive is accounted for once

A text may name a library or a script several times. What counts are its *requests*: the
directives with distinct kind and value, each at its first occurrence. A request has one
*outcome*. A reference resolves or it does not, and a script to load exists or it does not. The
requests are settled in order, and the cache is passed on from each to the next
(`Resolver.settleAll`).

What a pass stores is nothing but the requests with their outcomes, sorted into lists
(`Findings.Account`). Every request is in exactly one of three lists: the references that
resolved, the scripts that exist, and the failures. `work_accounts` says that the work of a pass
comes to its end, whatever text it reads, and stores such an account.
-/

namespace ScriptSessions

open Reference

/-! ## Requests and outcomes -/

namespace Directive

/-- Whether two directives ask for the same thing. -/
def sameRequest (d e : Directive) : Bool := d.kind == e.kind && d.value == e.value

/-- The requests of a text: its directives with distinct kind and value, each at its first
occurrence. -/
def requests (text : String) : List Directive := (scan text).eraseDupsBy sameRequest

theorem sameRequest_comm (d e : Directive) : d.sameRequest e = e.sameRequest d := by
  rw [sameRequest, sameRequest, Bool.beq_comm, Bool.beq_comm (a := d.value)]

theorem distinctDirectives_eq (ds : List Directive) :
    distinctDirectives ds = ds.eraseDupsBy sameRequest :=
  foldl_eq_eraseDupsBy sameRequest_comm ds

end Directive

/-- What becomes of a request. -/
inductive Outcome where
  /-- The reference resolves to an entry. -/
  | resolved (entry : Entry)
  /-- The reference does not resolve. -/
  | unresolved (reason : Error)
  /-- The script to load is a regular file. -/
  | loaded (path : Path)
  /-- The script to load is not a regular file. -/
  | missing (path : Path)

namespace Outcome

/-- The kind of the directives that come to an outcome. -/
def kind : Outcome → DirectiveKind
  | .resolved _ | .unresolved _ => .reference
  | .loaded _ | .missing _ => .load

/-- The entry that a reference resolves to. -/
def found? : Outcome → Option Entry
  | .resolved entry => some entry
  | .unresolved _ | .loaded _ | .missing _ => none

/-- The path of a script that exists. -/
def script? : Outcome → Option Path
  | .loaded path => some path
  | .resolved _ | .unresolved _ | .missing _ => none

/-- How a failure is reported: a reference that does not resolve is an error, and a script that
does not exist is a warning. Both are reported at the line of the directive. -/
def diagnostic? (d : Directive) : Outcome → Option Diagnostic
  | .unresolved reason =>
    some { code := "SH0001", severity := .error, line := some (UInt64.ofNat d.line),
           message := s!"Unable to resolve reference '{d.value}': {reason.message}" }
  | .missing path =>
    some { code := "SH0002", severity := .warning, line := some (UInt64.ofNat d.line),
           message := s!"Script file not found: {path}" }
  | .resolved _ | .loaded _ => none

/-- The outcome of a reference whose location has been resolved. -/
def ofResult : Except Error Entry → Outcome
  | .ok entry => .resolved entry
  | .error reason => .unresolved reason

end Outcome

/-! ## Settling requests -/

namespace Resolver

/-- The outcome of one request, and the cache after it. -/
def settle (w : World) (r : Resolver) (c : Cache) (d : Directive) : Outcome × Cache :=
  match d.kind with
  | .load =>
    let path := r.scriptPath d.value
    (if w.isFile path then .loaded path else .missing path, c)
  | .reference =>
    match r.location d.value with
    | .error reason => (.unresolved reason, c)
    | .ok location => ((Outcome.ofResult (c.resolve w location).1), (c.resolve w location).2)

/-- The requests with their outcomes, settled one after another, and the cache after them. -/
def settleAll (w : World) (r : Resolver) : Cache → List Directive →
    List (Directive × Outcome) × Cache
  | c, [] => ([], c)
  | c, d :: rest =>
    let (outcome, c) := r.settle w c d
    let (settled, c) := settleAll w r c rest
    ((d, outcome) :: settled, c)

theorem kind_settle (w : World) (r : Resolver) (c : Cache) (d : Directive) :
    (r.settle w c d).1.kind = d.kind := by
  unfold settle
  split
  · next h => rw [h]; dsimp only; split <;> rfl
  · next h =>
      rw [h]
      split
      · rfl
      · next location _ => cases (c.resolve w location).1 <;> rfl

theorem map_fst_settleAll (w : World) (r : Resolver) (c : Cache) (ds : List Directive) :
    (r.settleAll w c ds).1.map Prod.fst = ds := by
  induction ds generalizing c with
  | nil => rfl
  | cons d rest ih => exact congrArg (d :: ·) (ih _)

theorem kind_of_mem_settleAll {w : World} {r : Resolver} {c : Cache} {ds : List Directive}
    {p : Directive × Outcome} (h : p ∈ (r.settleAll w c ds).1) : p.2.kind = p.1.kind := by
  induction ds generalizing c with
  | nil => cases h
  | cons d rest ih =>
      rcases List.mem_cons.mp h with rfl | hrest
      · exact r.kind_settle w c d
      · exact ih hrest

end Resolver

/-! ## Accounts -/

namespace Findings

/-- The findings `f` account for the requests, which have been settled with the given outcomes:
each of them is listed once, in order and in the place where its outcome belongs, and every entry
is listed at its first occurrence. -/
structure Account (requests : List Directive) (settled : List (Directive × Outcome))
    (f : Findings) : Prop where
  /-- Every request has one outcome. -/
  requests : settled.map Prod.fst = requests
  kinds : ∀ p ∈ settled, p.2.kind = p.1.kind
  directives : f.directives = settled.filterMap fun p => p.2.found?.map fun _ => p.1.value
  references : f.references = (settled.filterMap fun p => p.2.found?).eraseDupsBy Entry.sameAs
  loadedScripts : f.loadedScripts = settled.filterMap fun p => p.2.script?
  diagnostics : f.diagnostics = settled.filterMap fun p => p.2.diagnostic? p.1

/-- The findings with one more outcome. -/
def record (f : Findings) (p : Directive × Outcome) : Findings :=
  match p.2 with
  | .resolved entry => f.addReference p.1 (.ok entry)
  | .unresolved reason => f.addReference p.1 (.error reason)
  | .loaded path => f.addScript p.1 path true
  | .missing path => f.addScript p.1 path false

theorem textVersion_record (f : Findings) (p : Directive × Outcome) :
    (f.record p).textVersion = f.textVersion := by
  obtain ⟨d, o⟩ := p
  cases o <;> rfl

theorem textVersion_foldl_record (settled : List (Directive × Outcome)) (f : Findings) :
    (settled.foldl record f).textVersion = f.textVersion := by
  induction settled generalizing f with
  | nil => rfl
  | cons p rest ih => exact (ih _).trans (f.textVersion_record p)

/-- What recording outcomes adds to the lists of the findings. -/
theorem foldl_record (settled : List (Directive × Outcome)) (f : Findings) :
    (settled.foldl record f).directives
      = f.directives ++ settled.filterMap (fun p => p.2.found?.map fun _ => p.1.value) ∧
    (settled.foldl record f).references
      = (settled.filterMap fun p => p.2.found?).foldl addEntry f.references ∧
    (settled.foldl record f).loadedScripts
      = f.loadedScripts ++ settled.filterMap (fun p => p.2.script?) ∧
    (settled.foldl record f).diagnostics
      = f.diagnostics ++ settled.filterMap (fun p => p.2.diagnostic? p.1) := by
  induction settled generalizing f with
  | nil => simp
  | cons p rest ih =>
      obtain ⟨d, o⟩ := p
      rw [List.foldl_cons]
      obtain ⟨hd, hr, hl, hg⟩ := ih (f.record (d, o))
      rw [hd, hr, hl, hg]
      cases o with
      | resolved entry => simp [record, addReference, Outcome.found?, Outcome.script?,
          Outcome.diagnostic?]
      | unresolved reason => simp [record, addReference, Outcome.found?, Outcome.script?,
          Outcome.diagnostic?, unresolvedReferenceCode]
      | loaded path => simp [record, addScript, Outcome.found?, Outcome.script?,
          Outcome.diagnostic?]
      | missing path => simp [record, addScript, Outcome.found?, Outcome.script?,
          Outcome.diagnostic?, missingScriptCode]

/-- Recording the outcomes of requests in empty findings accounts for them. -/
theorem account_foldl_record (settled : List (Directive × Outcome))
    (kinds : ∀ p ∈ settled, p.2.kind = p.1.kind) (f : Findings) (empty : f.directives = [] ∧
      f.references = [] ∧ f.loadedScripts = [] ∧ f.diagnostics = []) :
    (settled.foldl record f).Account (settled.map Prod.fst) settled := by
  obtain ⟨hd, hr, hl, hg⟩ := foldl_record settled f
  obtain ⟨hd', hr', hl', hg'⟩ := empty
  rw [hd', List.nil_append] at hd
  rw [hl', List.nil_append] at hl
  rw [hg', List.nil_append] at hg
  rw [hr'] at hr
  exact ⟨rfl, kinds, hd, hr.trans (foldl_eq_eraseDupsBy Entry.sameAs_comm _), hl, hg⟩

namespace Account

variable {ds : List Directive} {settled : List (Directive × Outcome)} {f : Findings}

/-- The number of the pass is no part of the account. -/
theorem numbered (h : f.Account ds settled) (number : UInt64) :
    { f with number }.Account ds settled :=
  ⟨h.requests, h.kinds, h.directives, h.references, h.loadedScripts, h.diagnostics⟩

/-- Every request is in exactly one of three lists. -/
theorem length_add_length (h : f.Account ds settled) :
    f.directives.length + f.loadedScripts.length + f.diagnostics.length = ds.length := by
  have hone (p : Directive × Outcome) : (p.2.found?.map fun _ => p.1.value).toList.length
      + p.2.script?.toList.length + (p.2.diagnostic? p.1).toList.length = 1 := by
    obtain ⟨d, o⟩ := p
    cases o <;> rfl
  rw [h.directives, h.loadedScripts, h.diagnostics, ← h.requests, List.length_map]
  clear h
  induction settled with
  | nil => rfl
  | cons p rest ih =>
      have hp := hone p
      rw [length_filterMap_cons, length_filterMap_cons, length_filterMap_cons, List.length_cons]
      omega

/-- No entry is listed twice. -/
theorem pairwise_references (h : f.Account ds settled) :
    f.references.Pairwise fun a b => a.sameAs b = false := by
  rw [h.references]
  refine (pairwise_eraseDupsBy _).imp fun {a b} hab => ?_
  rw [Entry.sameAs_comm, hab]

theorem kind_of_found (h : f.Account ds settled) {p : Directive × Outcome} (hp : p ∈ settled)
    {e : Entry} (he : p.2.found? = some e) : p.1.kind = .reference := by
  rw [← h.kinds p hp]
  revert he
  cases p.2 <;> simp [Outcome.found?, Outcome.kind]

/-- No value is listed twice, if the requests are distinct. -/
theorem nodup_directives (h : f.Account ds settled)
    (distinct : ds.Pairwise fun d e => e.sameRequest d = false) : f.directives.Nodup := by
  rw [h.directives, List.Nodup, List.pairwise_filterMap]
  rw [← h.requests, List.pairwise_map] at distinct
  refine distinct.imp_of_mem fun {p q} hp hq hne v hv v' hv' => ?_
  obtain ⟨e, he, rfl⟩ := Option.map_eq_some_iff.mp hv
  obtain ⟨e', he', rfl⟩ := Option.map_eq_some_iff.mp hv'
  -- two references with one value would be the same request
  intro heq
  simp [Directive.sameRequest, h.kind_of_found hp he, h.kind_of_found hq he', heq] at hne

end Account

end Findings

/-! ## The work of a pass -/

namespace Pass

theorem work_of_isWorking {w : World} {c : Cache} {s : Session} {p : Pass}
    (h : p.isWorking = true) :
    work w c s p = work w (p.step w [] c s).2.2 (p.step w [] c s).2.1 (p.step w [] c s).1 := by
  rw [work, dif_pos h]

theorem work_of_leaving (w : World) (c : Cache) (s : Session) (b : Bool)
    (report : Option Report) :
    work w c s ⟨b, .leaving report⟩ = (⟨b, .leaving report⟩, s, c) := by
  rw [work, dif_neg (by simp [isWorking])]

/-- A pass waits for its fetch, and records the result. -/
theorem work_fetching {w : World} {s : Session} {b : Bool} {d : Directive}
    {rest : List Directive} {found : Findings} (kind : d.kind = .reference) (c : Cache)
    (f : Fetch) :
    work w c s ⟨b, .resolving (d :: rest) found (some f)⟩
      = work w (f.finish w c).2 s
          ⟨b, .resolving rest (found.addReference d (f.finish w c).1) none⟩ := by
  fun_induction Fetch.finish w c f with
  | case1 c f result hf =>
      rw [work_of_isWorking rfl]
      simp only [step, stepDirective, kind, hf]
  | case2 c f hf next ih =>
      rw [work_of_isWorking rfl]
      simp only [step, stepDirective, kind, hf]
      exact ih

/-- A pass settles one request after another. -/
theorem work_resolving (w : World) (s : Session) (b : Bool) (todo : List Directive)
    (found : Findings) (c : Cache) :
    work w c s ⟨b, .resolving todo found none⟩
      = work w (s.resolver.settleAll w c todo).2 s
          ⟨b, .resolving [] ((s.resolver.settleAll w c todo).1.foldl Findings.record found)
            none⟩ := by
  induction todo generalizing found c with
  | nil => rfl
  | cons d rest ih =>
      have hone : work w c s ⟨b, .resolving (d :: rest) found none⟩
          = work w (s.resolver.settle w c d).2 s
              ⟨b, .resolving rest (found.record (d, (s.resolver.settle w c d).1)) none⟩ := by
        rw [work_of_isWorking rfl]
        cases hk : d.kind with
        | load =>
            simp only [step, stepDirective, hk, Resolver.settle]
            cases w.isFile (s.resolver.scriptPath d.value) <;> rfl
        | reference =>
            cases hl : s.resolver.location d.value with
            | error reason => simp [step, stepDirective, hk, hl, Resolver.settle, Findings.record]
            | ok location =>
                have hstep : Pass.step w [] c s ⟨b, .resolving (d :: rest) found none⟩
                    = (⟨b, .resolving (d :: rest) found (some (.start location))⟩, s, c) := by
                  simp [step, stepDirective, hk, hl]
                rw [hstep, work_fetching hk]
                simp only [Resolver.settle, hk, hl, Cache.resolve]
                cases (Fetch.finish w c (.start location)).1 <;> rfl
      rw [hone, ih]
      rfl

/-- The findings of a pass over a session that goes on without a break. -/
def findingsAfter (w : World) (c : Cache) (s : Session) : Findings :=
  { (s.resolver.settleAll w c (Directive.requests s.snapshot.text)).1.foldl Findings.record
      { textVersion := s.snapshot.version } with number := s.findings.number + 1 }

/-- A pass finds what the text has of the version that it has read. -/
theorem textVersion_findingsAfter (w : World) (c : Cache) (s : Session) :
    (findingsAfter w c s).textVersion = s.snapshot.version := by
  simp only [findingsAfter, Findings.textVersion_foldl_record]

/-- A pass that has got the lock of an open session comes to its end. -/
theorem work_entered (w : World) (c : Cache) {s : Session} (isOpen : s.closed = false) (b : Bool) :
    work w c s ⟨b, .entered⟩
      = (⟨b, .leaving (some
            { number := s.findings.number + 1, textVersion := s.snapshot.version,
              resolved := (findingsAfter w c s).references.length,
              failures := (findingsAfter w c s).diagnostics.length, committed := true })⟩,
          { s with findings := findingsAfter w c s },
          (s.resolver.settleAll w c (Directive.requests s.snapshot.text)).2) := by
  have hread : work w c s ⟨b, .entered⟩
      = work w c s ⟨b, .resolving (Directive.requests s.snapshot.text)
          { textVersion := s.snapshot.version } none⟩ := by
    rw [work_of_isWorking rfl]
    simp only [step, readSnapshot, Directive.distinctDirectives_eq, Directive.requests]
  have hversion := Findings.textVersion_foldl_record
    (s.resolver.settleAll w c (Directive.requests s.snapshot.text)).1
    { textVersion := s.snapshot.version }
  rw [hread, work_resolving, work_of_isWorking rfl]
  simp only [step, Session.commit, isOpen, Bool.false_eq_true, if_false, work_of_leaving, hversion,
    findingsAfter]

/-- The findings of a pass account for the requests of the text. -/
theorem account_findingsAfter (w : World) (c : Cache) (s : Session) :
    (findingsAfter w c s).Account (Directive.requests s.snapshot.text)
      (s.resolver.settleAll w c (Directive.requests s.snapshot.text)).1 := by
  have h := Findings.account_foldl_record
    (s.resolver.settleAll w c (Directive.requests s.snapshot.text)).1
    (fun _ hp => Resolver.kind_of_mem_settleAll hp) { textVersion := s.snapshot.version }
    ⟨rfl, rfl, rfl, rfl⟩
  rw [Resolver.map_fst_settleAll] at h
  exact h.numbered (s.findings.number + 1)

/-- **Every directive is accounted for once.** A pass that has got the lock of an open session
comes to its end and stores findings that account for the requests of the text, settled one
after another; nothing else of the session changes. The findings list every request in one of
three places and nothing twice, and the report gives their numbers. -/
theorem work_accounts (w : World) (c : Cache) (s : Session) (isOpen : s.closed = false)
    (b : Bool) :
    ∃ found report,
      work w c s ⟨b, .entered⟩
        = (⟨b, .leaving (some report)⟩, { s with findings := found },
            (s.resolver.settleAll w c (Directive.requests s.snapshot.text)).2) ∧
      found.Account (Directive.requests s.snapshot.text)
        (s.resolver.settleAll w c (Directive.requests s.snapshot.text)).1 ∧
      found.directives.length + found.loadedScripts.length + found.diagnostics.length
        = (Directive.requests s.snapshot.text).length ∧
      found.directives.Nodup ∧
      (found.references.Pairwise fun e e' => e.sameAs e' = false) ∧
      found.textVersion = s.snapshot.version ∧ found.number = s.findings.number + 1 ∧
      report = { number := found.number, textVersion := s.snapshot.version,
                 resolved := found.references.length, failures := found.diagnostics.length,
                 committed := true } := by
  have haccount := account_findingsAfter w c s
  exact ⟨_, _, work_entered w c isOpen b, haccount, haccount.length_add_length,
    haccount.nodup_directives (pairwise_eraseDupsBy _), haccount.pairwise_references,
    textVersion_findingsAfter w c s, rfl, rfl⟩

/-- A library and a script. -/
def libAndSetup : World :=
  ((default : World).putFile ⟨"/lib.dll"⟩ (.text "")).putFile ⟨"/setup.csx"⟩ (.text "")

/-- A session whose text names the library in two ways and once more, the script, another script
that does not exist, and a library that does not exist. -/
def mixed : Session := Session.create ⟨"/"⟩ .nil "Script1"
  { text := "#r \"/lib.dll\"\n#load \"/setup.csx\"\n#r \"/./lib.dll\"\n"
      ++ "#load \"/none.csx\"\n#r \"/lib.dll\"\n#r \"/none.dll\"" } {} []

/-- Five of the six directives of `mixed` are requests, and a pass accounts for these: two values
lead to the one library, one script is found, and the script and the library that do not exist are
reported at their lines. -/
theorem mixed_work_accounts :
    mixed.closed = false ∧
    (Directive.requests mixed.snapshot.text).map Directive.line = [0, 1, 2, 3, 5] ∧
    ∃ found report,
      work libAndSetup (.new [] default) mixed ⟨true, .entered⟩
        = (⟨true, .leaving (some report)⟩, { mixed with findings := found },
            (mixed.resolver.settleAll libAndSetup (.new [] default)
              (Directive.requests mixed.snapshot.text)).2) ∧
      found.directives = ["/lib.dll", "/./lib.dll"] ∧
      found.references.map Entry.path = [⟨"/lib.dll"⟩] ∧
      found.loadedScripts = [⟨"/setup.csx"⟩] ∧
      found.diagnostics.map (fun e => (e.code, e.line))
        = [("SH0002", some 3), ("SH0001", some 5)] ∧
      report = ⟨1, 0, 1, 2, true⟩ := by
  obtain ⟨found, report, hwork, haccount, -, -, -, -, hnumber, hreport⟩ :=
    work_accounts libAndSetup (.new [] default) mixed rfl true
  have hlists : found.directives = ["/lib.dll", "/./lib.dll"] ∧
      found.references.map Entry.path = [⟨"/lib.dll"⟩] ∧
      found.loadedScripts = [⟨"/setup.csx"⟩] ∧
      found.diagnostics.map (fun e => (e.code, e.line))
        = [("SH0002", some 3), ("SH0001", some 5)] := by
    rw [haccount.directives, haccount.references, haccount.loadedScripts, haccount.diagnostics]
    decide +kernel
  obtain ⟨hdirectives, hreferences, hscripts, hdiagnostics⟩ := hlists
  have hresolved := congrArg List.length hreferences
  have hfailures := congrArg List.length hdiagnostics
  rw [List.length_map] at hresolved hfailures
  refine ⟨rfl, by decide, found, report, hwork, hdirectives, hreferences, hscripts, hdiagnostics,
    ?_⟩
  rw [hreport, hnumber, hresolved, hfailures]
  rfl

end Pass

end ScriptSessions
