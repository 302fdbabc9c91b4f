import ScriptSessions.Proofs.Host.References

set_option autoImplicit false

/-! # What a session lists

A session lists the default references and after them the entries that it has stored, without those
that are among the default references (`LiveHost.references_eq_append`). Nothing is listed twice.
That takes three things. The default references are kept under different names, so they are
different entries of the cache. Whatever a pass finds is listed by it once, and stored as a whole
(`Session.ListsApart`). And entries that were just added to the list are compared with those that
follow.
-/

namespace ScriptSessions

open Reference

/-! ## Lists of entries that are apart -/

namespace Findings

/-- No two entries of a list are made of the same objects. -/
def Apart (entries : List Entry) : Prop := entries.Pairwise fun e e' => e.sameAs e' = false

variable {entries new : List Entry}

theorem Apart.addEntry (h : Apart entries) (e : Entry) : Apart (addEntry entries e) := by
  rw [Findings.addEntry]
  split
  · exact h
  · next hany =>
      refine List.pairwise_append.mpr ⟨h, List.pairwise_singleton _ _, fun a ha b hb => ?_⟩
      rw [List.mem_singleton.mp hb]
      have hnone : entries.any (·.sameAs e) = false := by simpa using hany
      simpa using List.any_eq_false.mp hnone a ha

theorem Apart.foldl_addEntry (h : Apart entries) (new : List Entry) :
    Apart (new.foldl Findings.addEntry entries) := by
  induction new generalizing entries with
  | nil => exact h
  | cons e rest ih => exact ih (h.addEntry e)

/-- Entries that are apart are added if they are not there. Each is compared with those that were
added before it, which makes no difference. -/
theorem foldl_addEntry_eq (apart : Apart new) (entries : List Entry) :
    new.foldl Findings.addEntry entries
      = entries ++ new.filter fun e => !entries.any (·.sameAs e) := by
  induction new generalizing entries with
  | nil => simp
  | cons e rest ih =>
      obtain ⟨he, hrest⟩ := List.pairwise_cons.mp apart
      rw [List.foldl_cons, ih hrest, Findings.addEntry]
      cases hany : entries.any (·.sameAs e) with
      | true => simp [hany]
      | false =>
          have hkeep : (rest.filter fun a => !(entries ++ [e]).any (·.sameAs a))
              = rest.filter fun a => !entries.any (·.sameAs a) := by
            refine List.filter_congr fun a ha => ?_
            rw [List.any_append, List.any_cons, he a ha, List.any_nil, Bool.or_self, Bool.or_false]
          rw [if_neg Bool.false_ne_true, hkeep, List.filter_cons, hany, List.append_assoc]
          rfl

end Findings

open Findings

/-! ## What passes and sessions hold -/

theorem Findings.Apart.addReference {found : Findings} (h : Apart found.references) (d : Directive)
    (result : Except Error Entry) : Apart (found.addReference d result).references := by
  cases result with
  | ok e => exact h.addEntry e
  | error => exact h

namespace Pass

theorem apart_stepDirective {found : Findings} (h : Apart found.references) (w : World)
    (others : List Fetch) (c : Cache) (s : Session) (b : Bool) (d : Directive)
    (rest : List Directive) (fetch : Option Fetch) :
    Apart (entries ⟨b, (stepDirective w others c s d rest found fetch).1⟩) := by
  unfold stepDirective
  split
  · simp only [entries, references_addScript]
    exact h
  · split
    · exact h.addReference d _
    · exact h
  · split
    · exact h.addReference d _
    · exact h

/-- A pass lists nothing twice, and so there is nothing twice in what it stores. -/
theorem Move.apart {s t : Session} {p q : Pass} (h : p.Move s q t) (hp : Apart p.entries)
    (hs : Apart s.findings.references) : Apart q.entries ∧ Apart t.findings.references := by
  cases h with
  | idle => exact ⟨hp, hs⟩
  | enter | turnBack | read | leave => exact ⟨.nil, hs⟩
  | look b w others c d rest found fetch =>
      exact ⟨apart_stepDirective hp w others c s b d rest fetch, hs⟩
  | commit b found fetch =>
      refine ⟨.nil, ?_⟩
      rw [Session.commit]
      split
      · exact hs
      · exact hp
  | stop =>
      refine ⟨.nil, ?_⟩
      split
      · exact hs
      · exact hs

end Pass

namespace Session

/-- Neither a session nor any of its passes lists an entry twice. -/
structure ListsApart (s : Session) : Prop where
  stored : Apart s.findings.references
  found : ∀ p ∈ s.passes, Apart p.entries

theorem ListsApart.ask {s t : Session} (h : s.ListsApart) {b : Bool}
    (passes : t.passes = s.passes ++ [⟨b, .queued⟩]) (findings : t.findings = s.findings) :
    t.ListsApart := by
  refine ⟨findings ▸ h.stored, fun p hp => ?_⟩
  rw [passes] at hp
  rcases List.mem_append.mp hp with hold | hnew
  · exact h.found p hold
  · rw [List.mem_singleton.mp hnew]
    exact .nil

theorem ListsApart.perform {s : Session} (h : s.ListsApart) (a : Action) :
    (s.perform a).ListsApart := by
  have heffect := s.effect_perform a
  generalize s.perform a = t at heffect
  cases heffect with
  | idle | update | fold | cancel | close => exact ⟨h.stored, h.found⟩
  | schedule | requestNow => exact h.ask rfl rfl
  | move _ i p q t at_i hmove =>
      obtain ⟨hq, ht⟩ := hmove.apart (h.found p (List.mem_of_getElem? at_i)) h.stored
      obtain ⟨gate, findings, rfl⟩ := hmove.frame
      refine ⟨ht, fun r hr => ?_⟩
      rcases List.mem_or_eq_of_mem_set hr with hold | rfl
      · exact h.found r hold
      · exact hq

theorem listsApart_new {s : Session} (passes : s.passes = []) (findings : s.findings = {}) :
    s.ListsApart := by
  refine ⟨?_, ?_⟩
  · rw [findings]
    exact .nil
  · rw [passes]
    exact nofun

end Session

/-- The default references are different entries of the cache, and so different objects. -/
theorem Reference.DefaultSet.Built.apart_references {c : Cache} {s : DefaultSet} (h : s.Built c)
    (tidy : c.Tidy) : Apart s.references := by
  refine h.nodup_references.imp_of_mem fun {e e'} he he' hne => ?_
  rw [Bool.eq_false_iff]
  exact fun hsame => hne ((tidy.sameAs_iff (h.knows he) (h.knows he')).mp hsame)

/-! ## The list of a session -/

namespace LiveHost

variable {S : Setting} {config : Config} {overrides : List (String × String)} {L : LiveHost}
  {n : SessionNumber} {s : Session}

theorem Reachable.listsApart (h : L.Reachable S config overrides)
    (at_n : L.host.workspace.session? n = some s) : s.ListsApart :=
  h.forall_sessions (fun _ _ hturn hs => hturn.keeps (fun _ a hs => hs.perform a) hs)
    (fun _ passes findings _ _ => Session.listsApart_new passes findings) s
    (List.mem_of_getElem? at_n)

/-- **A session lists the default references and its own.** In any run of any host, the references
of a session are the default ones in their order, followed by those that it has stored, in their
order and without those that are identical to a default one. No two of them are identical, and
every default and every stored entry is among them. -/
theorem references_eq_append (reachable : L.Reachable S config overrides)
    (at_n : L.host.workspace.session? n = some s) :
    s.references L.host.defaults = L.host.defaults.references ++
      (s.findings.references.filter fun e => !L.host.defaults.references.any (·.sameAs e)) ∧
    ((s.references L.host.defaults).Pairwise fun e e' => e.sameAs e' = false) ∧
    ∀ e, e ∈ s.references L.host.defaults ↔
      e ∈ L.host.defaults.references ∨ e ∈ s.findings.references := by
  have kept := reachable.kept
  have hdefaults : Apart L.host.defaults.references :=
    kept.defaults.apart_references kept.regular.tidy
  exact ⟨foldl_addEntry_eq (reachable.listsApart at_n).stored _,
    hdefaults.foldl_addEntry s.findings.references, fun _ => kept.mem_references at_n⟩

/-- The files of `withRuntimeLib` and another library. -/
def withTwoLibraries : World := withRuntimeLib.putFile ⟨"/other.dll"⟩ (.text "")

/-- A script asks for the library that all sessions see, and for another one. -/
def twoLibraries : LiveHost :=
  atWork withTwoLibraries runtimeConfig "#r \"other.dll\"\n#r \"lib\"" 40

/-- The library that all sessions see is listed first, and not once more for the script. -/
theorem twoLibraries_references :
    ∃ s, twoLibraries.host.workspace.session? 0 = some s ∧
      (s.references twoLibraries.host.defaults).map Entry.path
        = [⟨"/rt/lib.dll"⟩, ⟨"/other.dll"⟩] ∧
      s.findings.references.map Entry.path = [⟨"/other.dll"⟩, ⟨"/rt/lib.dll"⟩] ∧
      s.references twoLibraries.host.defaults = twoLibraries.host.defaults.references ++
        s.findings.references.filter fun e =>
          !twoLibraries.host.defaults.references.any (·.sameAs e) := by
  have hpaths : (twoLibraries.host.workspace.session? 0).map (fun s =>
      ((s.references twoLibraries.host.defaults).map Entry.path,
        s.findings.references.map Entry.path))
      = some ([⟨"/rt/lib.dll"⟩, ⟨"/other.dll"⟩], [⟨"/other.dll"⟩, ⟨"/rt/lib.dll"⟩]) := by
    decide +kernel
  obtain ⟨s, at_0, hlists⟩ := Option.map_eq_some_iff.mp hpaths
  obtain ⟨hall, hfound⟩ := Prod.mk.inj hlists
  exact ⟨s, at_0, hall, hfound, (references_eq_append
    (reachable_atWork withTwoLibraries runtimeConfig _ 40) at_0).1⟩

end LiveHost

end ScriptSessions
