import ScriptSessions.Proofs.Host.Effects
import ScriptSessions.Proofs.Reference.Defaults
import ScriptSessions.Proofs.Session.Holdings

set_option autoImplicit false

/-! # A host at work

A `Host.Action` leaves open what other clients do to the cache, and which fetches a pass finds in
flight beside its own. Here nothing is left open: a `LiveHost` is a host together with the fetches
of those clients, every step of a fetch is made beside exactly the fetches of everyone else, and
the cache changes in no other way. Files may change between any two steps, within the bounds of a
`Setting`.

The invariant (`LiveHost.Kept`) is that of the cache and of the fetches in flight, and says in
addition that the cache knows every entry that a session or the default set holds.
-/

namespace ScriptSessions

open Reference

namespace Workspace

variable {offered : List Uuid} {ws ws' ws'' : Workspace}

/-! ## What the sessions hold -/

/-- The fetches that the passes of all sessions wait for. -/
def fetches (ws : Workspace) : List Fetch := ws.sessions.flatMap Session.fetches

/-- The same without one pass of one session. -/
def fetchesBeside (ws : Workspace) (n : SessionNumber) (i : Nat) : List Fetch :=
  ((ws.session? n).map (·.fetchesBeside i)).getD []
    ++ (ws.sessions.eraseIdx n).flatMap Session.fetches

/-- The entries that the sessions and their passes have found. -/
def entries (ws : Workspace) : List Entry := ws.sessions.flatMap Session.entries

/-- The workspace `ws'` has the cache and the default set of `ws`, and its sessions hold no
more. -/
structure HoldsLess (ws' ws : Workspace) : Prop where
  cache : ws'.cache = ws.cache
  defaults : ws'.defaults = ws.defaults
  fetches : ws'.fetches.Sublist ws.fetches
  entries : ws'.entries ⊆ ws.entries

theorem holdsLess_of_eq (cache : ws'.cache = ws.cache) (defaults : ws'.defaults = ws.defaults)
    (sessions : ws'.sessions = ws.sessions) : ws'.HoldsLess ws := by
  refine ⟨cache, defaults, ?_, ?_⟩
  · rw [Workspace.fetches, Workspace.fetches, sessions]
  · intro e he
    rw [Workspace.entries, sessions] at he
    exact he

theorem HoldsLess.trans (h : ws'.HoldsLess ws) (h' : ws''.HoldsLess ws') : ws''.HoldsLess ws :=
  ⟨h'.cache.trans h.cache, h'.defaults.trans h.defaults, h'.fetches.trans h.fetches,
    fun _ he => h.entries (h'.entries he)⟩

theorem mem_entries_setSession {n : SessionNumber} {t : Session} {e : Entry}
    (h : e ∈ (ws.setSession n t).entries) : e ∈ ws.entries ∨ e ∈ t.entries := by
  obtain ⟨u, hu, he⟩ := List.mem_flatMap.mp h
  rcases List.mem_or_eq_of_mem_set hu with hmem | rfl
  · exact .inl (List.mem_flatMap.mpr ⟨u, hmem, he⟩)
  · exact .inr he

theorem mem_entries_of_session? {n : SessionNumber} {s : Session} (at_n : ws.session? n = some s)
    {e : Entry} (he : e ∈ s.entries) : e ∈ ws.entries :=
  List.mem_flatMap.mpr ⟨s, List.mem_of_getElem? at_n, he⟩

/-- A calm effect lets the sessions hold no more than before. -/
theorem Effect.holdsLess (he : ws.Effect offered true ws') : ws'.HoldsLess ws := by
  cases he with
  | aside | tell | deliver | unregister => exact holdsLess_of_eq rfl rfl rfl
  | share _ busy | advance _ _ _ _ _ _ _ busy => cases busy
  | act n s a at_n ha =>
      have hless := s.holdsLess_perform a ha
      refine ⟨rfl, rfl, flatMap_set_sublist _ at_n hless.fetches, ?_⟩
      intro e he
      rcases mem_entries_setSession he with hold | hnew
      · exact hold
      · exact mem_entries_of_session? at_n (hless.entries hnew)
  | add s new blank =>
      have hfetches : s.fetches = [] := by rw [Session.fetches, new]; rfl
      have hentries : s.entries = [] := by rw [Session.entries, new, blank]; rfl
      refine ⟨rfl, rfl, ?_, ?_⟩
      · simp [Workspace.fetches, hfetches]
      · simp [Workspace.entries, hentries]
  | register n s b at_n =>
      simp only [Workspace.register, at_n]
      exact holdsLess_of_eq rfl rfl rfl

theorem Effects.holdsLess (he : ws.Effects offered true ws') : ws'.HoldsLess ws := by
  induction he with
  | refl => exact holdsLess_of_eq rfl rfl rfl
  | tail _ hlast ih => exact ih.trans hlast.holdsLess

/-! ## A pass and all other fetches -/

/-- The fetches of a workspace are those of one pass and of everything beside it. -/
theorem fetches_setSession_perm {n : SessionNumber} {s t : Session} {i : Nat} {p q : Pass}
    (at_n : ws.session? n = some s) (at_i : s.passes[i]? = some p)
    (passes : t.passes = s.passes.set i q) :
    (ws.setSession n t).fetches.Perm (q.fetch?.toList ++ ws.fetchesBeside n i) := by
  have hsessions : (ws.setSession n t).fetches.Perm
      (t.fetches ++ (ws.sessions.eraseIdx n).flatMap Session.fetches) :=
    flatMap_set_perm Session.fetches at_n t
  have hpasses : t.fetches.Perm (q.fetch?.toList ++ s.fetchesBeside i) := by
    rw [Session.fetches, passes]
    exact filterMap_set_perm Pass.fetch? at_i q
  rw [fetchesBeside, at_n, Option.map_some, Option.getD_some, ← List.append_assoc]
  exact hsessions.trans (hpasses.append_right _)

end Workspace

/-- A step of a pass keeps the invariant of the cache and the fetches in flight. -/
theorem Reference.Cache.Regular.stepPass {S : Setting} {w : World} {c : Cache} {p : Pass}
    {others : List Fetch} (h : c.Regular S (p.fetch?.toList ++ others)) (s : Session)
    (hw : S.worlds w)
    (asks : ∀ f ∈ (p.step w others c s).1.fetch?.toList ++ others, S.asked f.location) :
    c.Keeps (p.step w others c s).2.2 ∧
      (p.step w others c s).2.2.Regular S ((p.step w others c s).1.fetch?.toList ++ others) := by
  rcases p.fetch_step w others c s with
    ⟨hsame, hnone | ⟨hfree, location, hstart⟩⟩ | ⟨f, hf, hg, hd⟩
  · -- the pass waits for no fetch after the step
    rw [hsame, hnone]
    exact ⟨.refl c, h.sublist (List.sublist_append_right _ _)⟩
  · -- the pass begins a fetch
    rw [hstart] at asks
    rw [hfree] at h
    rw [hsame, hstart]
    exact ⟨.refl c, h.start (asks (.start location) List.mem_cons_self)⟩
  · -- the fetch of the pass takes a step
    rw [hf] at h
    rw [hd, hg]
    exact ⟨h.sound.keeps (f.move_step w others c), h.step hw⟩

/-! ## Hosts and their callers -/

/-- A host together with the clients that resolve locations through its cache. -/
structure LiveHost where
  host : Host
  /-- The fetches of these clients. -/
  callers : List Fetch := []

namespace LiveHost

variable {S : Setting}

/-- The cache that everyone shares. -/
def cache (L : LiveHost) : Cache := L.host.workspace.cache

/-- All fetches in flight. -/
def flight (L : LiveHost) : List Fetch := L.callers ++ L.host.workspace.fetches

/-- The same live host with another cache. -/
def setCache (L : LiveHost) (cache : Cache) : LiveHost :=
  { L with host := { L.host with workspace := { L.host.workspace with cache } } }

/-- All fetches in flight but that of one pass of one session. -/
def beside (L : LiveHost) (n : SessionNumber) (i : Nat) : List Fetch :=
  L.callers ++ L.host.workspace.fetchesBeside n i

/-- The live host after a pass has gone on. -/
def advance (L : LiveHost) (n : SessionNumber) (i : Nat) (w : World) : LiveHost :=
  { L with host := L.host.perform (.advance n i w (L.beside n i)) }

/-- The live host after a fetch of a client has taken a step. -/
def stepCaller (L : LiveHost) (i : Nat) (f : Fetch) (w : World) : LiveHost :=
  let next := f.step w (L.callers.eraseIdx i ++ L.host.workspace.fetches) L.cache
  { L.setCache next.2 with callers := L.callers.set i next.1 }

/-- What can happen to a live host in a setting. -/
inductive Step (S : Setting) (L : LiveHost) : LiveHost → Prop where
  /-- Something happens to the host that leaves the cache alone, and no pass goes on. -/
  | act (a : Host.Action) (calm : a.isCalm = true) : Step S L { L with host := L.host.perform a }
  /-- A pass goes on, and asks only for what may be asked for. -/
  | advance (n : SessionNumber) (i : Nat) (w : World) (hw : S.worlds w)
      (asks : ∀ f ∈ (L.advance n i w).flight, S.asked f.location) : Step S L (L.advance n i w)
  /-- A client asks for a location. -/
  | call (location : String) (asks : S.asked location) :
      Step S L { L with callers := L.callers ++ [.start location] }
  /-- The fetch of a client takes a step. -/
  | step (i : Nat) (f : Fetch) (w : World) (at_i : L.callers[i]? = some f) (hw : S.worlds w) :
      Step S L (L.stepCaller i f w)
  /-- A client is served, or gives up. -/
  | leave (i : Nat) : Step S L { L with callers := L.callers.eraseIdx i }
  /-- Someone else uses the registry of the documentation. -/
  | document (documentation : Documentation.Registry) :
      Step S L (L.setCache { L.cache with documentation })

/-- Whether a live host comes about in a setting: a new host has been at work. -/
def Reachable (S : Setting) (config : Config) (overrides : List (String × String))
    (L : LiveHost) : Prop :=
  ∃ w, S.worlds w ∧ S.searchDirectories = config.searchDirectories ∧
    (∀ l ∈ DefaultSet.startLocations w config.directories
      { extraReferences := config.extraReferences, extraImports := config.extraImports },
      S.asked l) ∧
    Relation.ReflTransGen (Step S) ⟨Host.new w config overrides, []⟩ L

/-! ## The invariant -/

/-- The invariant of a live host. -/
structure Kept (S : Setting) (L : LiveHost) : Prop where
  regular : L.cache.Regular S L.flight
  known : ∀ e ∈ L.host.workspace.entries, L.cache.Knows e
  defaults : L.host.workspace.defaults.Built L.cache

theorem kept_new {w : World} (hw : S.worlds w) {config : Config}
    (dirs : S.searchDirectories = config.searchDirectories) (overrides : List (String × String))
    (asked : ∀ l ∈ DefaultSet.startLocations w config.directories
      { extraReferences := config.extraReferences, extraImports := config.extraImports },
      S.asked l) : Kept S ⟨Host.new w config overrides, []⟩ := by
  have hnew := Cache.regular_new S (.new config.directories)
  rw [dirs] at hnew
  have hbuilt := DefaultSet.prepared_build hnew hw
    { extraReferences := config.extraReferences, extraImports := config.extraImports } asked
  exact ⟨hbuilt.regular, nofun, hbuilt.built⟩

theorem holdsLess_act (L : LiveHost) {a : Host.Action} (calm : a.isCalm = true) :
    (L.host.perform a).workspace.HoldsLess L.host.workspace := by
  have heffects := L.host.effects_perform a
  rw [calm] at heffects
  exact heffects.holdsLess

theorem Kept.act {L : LiveHost} (h : L.Kept S) {a : Host.Action} (calm : a.isCalm = true) :
    Kept S { L with host := L.host.perform a } := by
  have hless := L.holdsLess_act calm
  have hcache : (L.host.perform a).workspace.cache = L.cache := hless.cache
  refine ⟨?_, fun e he => ?_, ?_⟩
  · show (L.host.perform a).workspace.cache.Regular S (L.callers ++ _)
    rw [hcache]
    exact h.regular.sublist (hless.fetches.append_left L.callers)
  · show (L.host.perform a).workspace.cache.Knows e
    rw [hcache]
    exact h.known e (hless.entries he)
  · show (L.host.perform a).workspace.defaults.Built (L.host.perform a).workspace.cache
    rw [hcache, hless.defaults]
    exact h.defaults

/-- The invariant goes over to a cache that has kept its entries. -/
theorem Kept.of_keeps {L : LiveHost} (h : L.Kept S) {M : LiveHost}
    (regular : M.cache.Regular S M.flight) (keeps : L.cache.Keeps M.cache)
    (defaults : M.host.workspace.defaults = L.host.workspace.defaults)
    (entries : ∀ e ∈ M.host.workspace.entries, e ∈ L.host.workspace.entries ∨ M.cache.Knows e) :
    M.Kept S := by
  refine ⟨regular, fun e he => ?_, defaults ▸ h.defaults.keeps keeps⟩
  rcases entries e he with hold | hnew
  · exact (h.known e hold).keeps keeps
  · exact hnew

/-- Where there is no pass, nothing happens. -/
theorem advance_eq_self {L : LiveHost} {n : SessionNumber} {i : Nat} (w : World)
    (h : ∀ s, L.host.workspace.session? n = some s → s.passes[i]? = none) :
    L.advance n i w = L := by
  simp only [advance, Host.perform, Host.onSession]
  split
  · rfl
  · next s at_n =>
      have hsame : s.advancePass w (L.beside n i) L.host.workspace.cache i
          = (s, L.host.workspace.cache) := by
        simp [Session.advancePass, Session.stepPass, h s at_n]
      simp only [hsame, Workspace.setSession, set_eq_self at_n]

/-- What becomes of a live host when a pass goes on. -/
theorem advance_eq {L : LiveHost} {n : SessionNumber} {s : Session} {i : Nat} {p : Pass}
    (w : World) (at_n : L.host.workspace.session? n = some s) (at_i : s.passes[i]? = some p) :
    ∃ q t,
      (L.advance n i w).host.workspace = { L.host.workspace.setSession n t with
        cache := (p.step w (L.beside n i) L.cache s).2.2 } ∧
      t.passes = s.passes.set i q ∧ q.fetch? = (p.step w (L.beside n i) L.cache s).1.fetch? ∧
      ∀ e ∈ t.entries, e ∈ s.entries ∨ ∃ f, p.fetch? = some f ∧ f.result? = some (.ok e) := by
  obtain ⟨q, t, heq, hpasses, hfetch, hentries⟩ :=
    Session.advancePass_eq w (L.beside n i) L.cache at_i
  refine ⟨q, t, ?_, hpasses, hfetch, hentries⟩
  have heq' : s.advancePass w (L.beside n i) L.host.workspace.cache i = _ := heq
  simp only [advance, Host.perform, Host.onSession, at_n, heq']

/-- The fetches in flight are that of a pass and those beside it. -/
theorem flight_perm {L : LiveHost} {n : SessionNumber} {s t : Session} {i : Nat} {p q : Pass}
    (at_n : L.host.workspace.session? n = some s) (at_i : s.passes[i]? = some p)
    (passes : t.passes = s.passes.set i q) :
    (L.callers ++ (L.host.workspace.setSession n t).fetches).Perm
      (q.fetch?.toList ++ L.beside n i) := by
  have hfetches := Workspace.fetches_setSession_perm at_n at_i passes
  refine (hfetches.append_left L.callers).trans ?_
  rw [beside, ← List.append_assoc, ← List.append_assoc]
  exact List.perm_append_comm.append_right _

theorem Kept.advancePass {L : LiveHost} (h : L.Kept S) {n : SessionNumber} {s : Session}
    {i : Nat} {p : Pass} {w : World} (at_n : L.host.workspace.session? n = some s)
    (at_i : s.passes[i]? = some p) (hw : S.worlds w)
    (asks : ∀ f ∈ (L.advance n i w).flight, S.asked f.location) :
    Kept S (L.advance n i w) ∧ L.cache.Keeps (L.advance n i w).cache := by
  obtain ⟨q, t, hws, hpasses, hfetch, hentries⟩ := advance_eq w at_n at_i
  have hbefore : L.cache.Regular S (p.fetch?.toList ++ L.beside n i) := by
    have hperm := flight_perm at_n at_i (set_eq_self at_i).symm
    rw [Workspace.setSession, set_eq_self at_n] at hperm
    exact h.regular.perm hperm
  have hafter : (L.advance n i w).flight.Perm
      ((p.step w (L.beside n i) L.cache s).1.fetch?.toList ++ L.beside n i) := by
    have hperm := flight_perm at_n at_i hpasses
    rw [hfetch] at hperm
    rw [flight, hws]
    exact hperm
  have hstep := hbefore.stepPass s hw fun f hf => asks f (hafter.mem_iff.mpr hf)
  have hcache : (L.advance n i w).cache = (p.step w (L.beside n i) L.cache s).2.2 := by
    rw [cache, hws]
  rw [← hcache] at hstep
  refine ⟨h.of_keeps (hstep.2.perm hafter.symm) hstep.1 (by rw [hws]; rfl) fun e he => ?_, hstep.1⟩
  rw [hws] at he
  rcases Workspace.mem_entries_setSession he with hold | hmem
  · exact .inl hold
  · rcases hentries e hmem with hs | ⟨f, hf, hresult⟩
    · exact .inl (Workspace.mem_entries_of_session? at_n hs)
    · -- the fetch of the pass is in flight, so the cache knows its result
      have hmem : f ∈ p.fetch?.toList ++ L.beside n i := by rw [hf]; exact List.mem_cons_self
      exact .inr ((hbefore.results f hmem e hresult).keeps hstep.1)

theorem Kept.advance {L : LiveHost} (h : L.Kept S) {n : SessionNumber} {i : Nat} {w : World}
    (hw : S.worlds w) (asks : ∀ f ∈ (L.advance n i w).flight, S.asked f.location) :
    Kept S (L.advance n i w) ∧ L.cache.Keeps (L.advance n i w).cache := by
  cases at_n : L.host.workspace.session? n with
  | none =>
      rw [advance_eq_self w fun s hs => by rw [at_n] at hs; cases hs]
      exact ⟨h, .refl _⟩
  | some s =>
      cases at_i : s.passes[i]? with
      | none =>
          rw [advance_eq_self w fun s' hs => by rw [at_n] at hs; cases hs; exact at_i]
          exact ⟨h, .refl _⟩
      | some p => exact h.advancePass at_n at_i hw asks

/-- The invariant is kept, and so are the entries of the cache. -/
theorem Kept.step {L M : LiveHost} (h : L.Kept S) (hstep : L.Step S M) :
    M.Kept S ∧ L.cache.Keeps M.cache := by
  cases hstep with
  | act a calm =>
      have hcache : (L.host.perform a).workspace.cache = L.cache := (L.holdsLess_act calm).cache
      exact ⟨h.act calm, fun key e he => by rw [cache, hcache]; exact he⟩
  | advance n i w hw asks => exact h.advance hw asks
  | call location asks =>
      have hkeeps := Cache.Keeps.refl L.cache
      refine ⟨h.of_keeps ((h.regular.start asks).perm ?_) hkeeps rfl fun e he => .inl he, hkeeps⟩
      show (_ :: (L.callers ++ L.host.workspace.fetches)).Perm
        (L.callers ++ [.start location] ++ L.host.workspace.fetches)
      rw [List.append_assoc]
      exact List.perm_middle.symm
  | step i f w at_i hw =>
      obtain ⟨hi, rfl⟩ := List.getElem?_eq_some_iff.mp at_i
      have hbefore := h.regular.perm
        ((List.getElem_cons_eraseIdx_perm hi).symm.append_right L.host.workspace.fetches)
      have hkeeps := hbefore.sound.keeps (Fetch.move_step w
        (L.callers.eraseIdx i ++ L.host.workspace.fetches) L.cache L.callers[i])
      refine ⟨h.of_keeps ((hbefore.step hw).perm ?_) hkeeps rfl fun e he => .inl he, hkeeps⟩
      exact ((List.set_perm_cons_eraseIdx hi _).append_right L.host.workspace.fetches).symm
  | leave i =>
      have hkeeps := Cache.Keeps.refl L.cache
      exact ⟨h.of_keeps (h.regular.sublist ((List.eraseIdx_sublist ..).append_right _)) hkeeps rfl
        fun e he => .inl he, hkeeps⟩
  | document documentation =>
      have hkeeps : L.cache.Keeps { L.cache with documentation } := fun _ _ he => he
      exact ⟨h.of_keeps (h.regular.document documentation) hkeeps rfl fun e he => .inl he, hkeeps⟩

theorem Reachable.step {config : Config} {overrides : List (String × String)} {L M : LiveHost}
    (h : L.Reachable S config overrides) (hstep : L.Step S M) : M.Reachable S config overrides := by
  obtain ⟨w, hw, dirs, asked, hsteps⟩ := h
  exact ⟨w, hw, dirs, asked, hsteps.tail hstep⟩

/-- A pass may go on several times, if everything may be asked for. -/
theorem Reachable.advances {config : Config} {overrides : List (String × String)} {L : LiveHost}
    (h : L.Reachable S config overrides) (asks : ∀ l, S.asked l) {w : World} (hw : S.worlds w)
    (n : SessionNumber) (i k : Nat) :
    (Nat.repeat (fun M => M.advance n i w) k L).Reachable S config overrides := by
  induction k with
  | zero => exact h
  | succ k ih => exact ih.step (.advance n i w hw fun f _ => asks f.location)

/-- A client may resolve a location without a break, while nobody else is about. -/
theorem Reachable.resolve {config : Config} {overrides : List (String × String)} {L : LiveHost}
    (h : L.Reachable S config overrides) (idle : L.flight = []) {w : World} (hw : S.worlds w)
    {location : String} (hasked : S.asked location) :
    (L.setCache (L.cache.resolve w location).2).Reachable S config overrides := by
  obtain ⟨hcallers, hfetches⟩ := List.append_eq_nil_iff.mp idle
  obtain ⟨host, callers⟩ := L
  obtain rfl : callers = [] := hcallers
  have hfinish (c : Cache) (f : Fetch)
      (hf : Reachable S config overrides { setCache ⟨host, []⟩ c with callers := [f] }) :
      (setCache ⟨host, []⟩ (f.finish w c).2).Reachable S config overrides := by
    fun_induction Fetch.finish w c f with
    | case1 c f result hresult => exact hf.step (.leave 0)
    | case2 c f hresult next ih =>
        refine ih ?_
        have hstep := hf.step (.step 0 f w rfl hw)
        have hnext : stepCaller { setCache ⟨host, []⟩ c with callers := [f] } 0 f w
            = { setCache ⟨host, []⟩ next.2 with callers := [next.1] } := by
          -- there is no other fetch
          have hothers : ([] : List Fetch) ++ (setCache ⟨host, []⟩ c).host.workspace.fetches = [] :=
            hfetches
          rw [stepCaller, List.eraseIdx_cons_zero, hothers]
          rfl
        rwa [hnext] at hstep
  exact hfinish _ _ (h.step (.call location hasked))

theorem Reachable.kept {config : Config} {overrides : List (String × String)} {L : LiveHost}
    (h : L.Reachable S config overrides) : L.Kept S := by
  obtain ⟨w, hw, dirs, asked, hsteps⟩ := h
  induction hsteps with
  | refl => exact kept_new hw dirs overrides asked
  | tail _ hlast ih => exact (ih.step hlast).1

/-- What new sessions have and every turn keeps is so of all sessions of a live host. -/
theorem Reachable.forall_sessions {P : Session → Prop} (turn : ∀ s t, s.Turn t → P s → P t)
    (new : ∀ s : Session, s.passes = [] → s.findings = {} → s.gate = {} → s.delivering = true →
      P s)
    {config : Config} {overrides : List (String × String)} {L : LiveHost}
    (h : L.Reachable S config overrides) : ∀ s ∈ L.host.workspace.sessions, P s := by
  obtain ⟨w, hw, dirs, asked, hsteps⟩ := h
  induction hsteps with
  | refl => exact nofun
  | tail _ hlast ih =>
      cases hlast with
      | act a => exact (Host.effects_perform _ a).forall_sessions turn new ih
      | advance n i w => exact (Host.effects_perform _ (.advance n i w _)).forall_sessions turn new ih
      | call | step | leave | document => exact ih

/-- While no file changes, the cache has all entries with which the host has begun. -/
theorem Reachable.keeps_new {w : World} {dirs : List Path} {asked : String → Prop}
    {config : Config} {overrides : List (String × String)} {L : LiveHost}
    (h : L.Reachable (.only w dirs asked) config overrides) :
    (Host.new w config overrides).workspace.cache.Keeps L.cache := by
  obtain ⟨w', hw, hdirs, hasked, hsteps⟩ := h
  cases show w' = w from hw
  induction hsteps with
  | refl => exact .refl _
  | tail hinit hlast ih =>
      have hreach : Reachable (.only w dirs asked) config overrides _ :=
        ⟨w, rfl, hdirs, hasked, hinit⟩
      exact ih.trans (hreach.kept.step hlast).2

/-! ## A host at work on one script -/

/-- A new host with one session, whose first pass has been asked for and has taken a number of
steps. Nothing else has happened. -/
def atWork (w : World) (config : Config) (text : String) (steps : Nat) : LiveHost :=
  Nat.repeat (fun L => L.advance 0 0 w) steps
    ⟨((Host.new w config).perform
      (.openSession w { text, workingDirectory := ⟨"/"⟩ } [.nil])).perform (.reprocess .nil), []⟩

theorem reachable_atWork (w : World) (config : Config) (text : String) (steps : Nat) :
    (atWork w config text steps).Reachable (.only w config.searchDirectories fun _ => True)
      config [] := by
  have hnew : Reachable (.only w config.searchDirectories fun _ => True) config []
      ⟨Host.new w config, []⟩ := ⟨w, rfl, rfl, fun _ _ => trivial, .refl⟩
  have hopen := hnew.step
    (.act (.openSession w { text, workingDirectory := ⟨"/"⟩ } [.nil]) rfl)
  have hasked := hopen.step (.act (.reprocess .nil) rfl)
  exact hasked.advances (fun _ => trivial) rfl 0 0 steps

end LiveHost

end ScriptSessions
