import ScriptSessions.Proofs.Reference.Cells

set_option autoImplicit false

/-! # One entry for each key

A `Service` is a cache together with everyone who has called it. Calls come in, take their
steps in any order and beside any files, and are abandoned wherever they are, which gives up
the cells that they hold. Whoever comes to an entry for a key first decides: `single_winner`
says that from then on the key has this entry, whatever happens to the files.

The key of a call is the one that its location had when the call took its first step, as seen
from the current directory of that moment. Locations that are spelled differently, and equal
ones seen from other directories, are compared by these keys only.
-/

namespace ScriptSessions.Reference

/-- A call that asks a cache to resolve a location. -/
structure Caller where
  fetch : Fetch
  /-- The key that the location had when the call began, if it had one. -/
  key? : Option Key := none
  /-- Whether the call was given up, so that it takes no more steps and holds no cell. -/
  abandoned : Bool := false

namespace Caller

/-- The fetch of a call, unless it was given up. -/
def inFlight? (a : Caller) : Option Fetch := if a.abandoned then none else some a.fetch

/-- The key of a call after a step. -/
def keyAfter (w : World) (a : Caller) : Option Key :=
  match a.fetch.stage with
  | .arriving => (Key.normalize w.directory a.fetch.location).toOption
  | _ => a.key?

/-- A call and the cache after a step of the call, beside the fetches of the others. -/
def step (w : World) (others : List Fetch) (c : Cache) (a : Caller) : Caller × Cache :=
  let (fetch, c) := a.fetch.step w others c
  ({ a with fetch, key? := a.keyAfter w }, c)

/-- What the key of a call has to do with its fetch and with the cache: until the call is over,
it is the key of the cell that is held, and a call that succeeds leaves its entry there. -/
structure Kept (c : Cache) (a : Caller) : Prop where
  key : a.fetch.result? = none → a.key? = a.fetch.holding?.map Prod.fst
  ok : ∀ e, a.fetch.result? = some (.ok e) →
    ∃ key, a.key? = some key ∧ c.entryAt? key = some e

theorem Kept.keeps {c d : Cache} {a : Caller} (h : a.Kept c) (hcd : c.Keeps d) : a.Kept d := by
  refine ⟨h.key, ?_⟩
  intro e he
  obtain ⟨key, hkey, hentry⟩ := h.ok e he
  exact ⟨key, hkey, hcd key e hentry⟩

/-- A fetch that has held a cell, or is over, is not the first step of its call. -/
theorem keyAfter_of_ne {w : World} {a : Caller} (h : a.fetch.stage ≠ .arriving) :
    a.keyAfter w = a.key? := by
  unfold keyAfter
  split
  · next harriving => exact absurd harriving h
  · rfl

theorem ne_arriving_of_holding {f : Fetch} {held : Key × CellId} (h : f.holding? = some held) :
    f.stage ≠ .arriving := by
  intro harriving
  simp [Fetch.holding?, harriving] at h

theorem ne_arriving_of_result {f : Fetch} {result : Except Error Entry}
    (h : f.result? = some result) : f.stage ≠ .arriving := by
  intro harriving
  simp [Fetch.result?, harriving] at h

/-- A step keeps what a call has to do with its fetch and the cache. -/
theorem Kept.step {w : World} {others : List Fetch} {c : Cache} {a : Caller} (h : a.Kept c)
    (hs : c.Sound (a.fetch :: others)) :
    (a.step w others c).1.Kept (a.step w others c).2 := by
  have hmove := a.fetch.move_step w others c
  have hkeeps := hs.keeps hmove
  have hentry := fun e => hs.entryAt?_of_ok hmove (e := e)
  have hover (r : Except Error Entry) (hr : a.fetch.result? = some r) :
      (a.fetch.step w others c).1 = a.fetch := hmove.eq_of_result? hr
  show Kept (a.fetch.step w others c).2 ⟨(a.fetch.step w others c).1, a.keyAfter w, a.abandoned⟩
  generalize (a.fetch.step w others c).1 = g at hmove hentry hover
  generalize (a.fetch.step w others c).2 = d at hmove hentry hkeeps
  constructor
  · intro hg
    dsimp only at hg ⊢
    cases hmove with
    | idle hidle =>
        rcases hidle with hdone | ⟨key, cell, hstage, -⟩
        · rw [hg] at hdone
          cases hdone
        · rw [keyAfter_of_ne (by rw [hstage]; nofun), h.key hg]
    | reject | take | fill | fail => cases hg
    | obtain key hstage hkey => simp [keyAfter, hstage, hkey, Except.toOption, Fetch.holding?]
    | begin key cell _ hstage _ _ hl =>
        have hh : a.fetch.holding? = some (key, cell) := by simp [Fetch.holding?, hstage]
        rw [keyAfter_of_ne (ne_arriving_of_holding hh), h.key (Fetch.result?_of_holding hh), hh,
          hl.1]
    | advance key cell _ _ hf hl =>
        rw [keyAfter_of_ne (ne_arriving_of_holding hf.1), h.key (Fetch.result?_of_holding hf.1),
          hf.1, hl.1]
  · intro e hg
    dsimp only at hg ⊢
    cases hf : a.fetch.result? with
    | some result =>
        rw [hover result hf] at hg
        obtain ⟨key, hkey, he⟩ := h.ok e hg
        exact ⟨key, by rw [keyAfter_of_ne (ne_arriving_of_result hg), hkey], hkeeps key e he⟩
    | none =>
        obtain ⟨key, cell, hh, he⟩ := hentry e hf hg
        exact ⟨key, by rw [keyAfter_of_ne (ne_arriving_of_holding hh), h.key hf, hh]; rfl, he⟩

/-- Once a key has an entry, a call with this key that is not over comes to no other result. -/
theorem Kept.result_of_entryAt? {w : World} {others : List Fetch} {c : Cache} {a : Caller}
    (h : a.Kept c) (hs : c.Sound (a.fetch :: others)) {key : Key} {e : Entry}
    (he : c.entryAt? key = some e) (hf : a.fetch.result? = none)
    (hkey : a.keyAfter w = some key) {result : Except Error Entry}
    (hg : (a.step w others c).1.fetch.result? = some result) : result = .ok e := by
  have hmove := a.fetch.move_step w others c
  cases hh : a.fetch.holding? with
  | some held =>
      rw [keyAfter_of_ne (ne_arriving_of_holding hh), h.key hf, hh] at hkey
      obtain ⟨key', cell⟩ := held
      cases hkey
      exact Option.some.inj (hg.symm.trans (hs.result_of_entryAt? hmove hh he))
  | none =>
      change (a.fetch.step w others c).1.result? = some result at hg
      generalize (a.fetch.step w others c).1 = g at hmove hg
      generalize (a.fetch.step w others c).2 = d at hmove
      cases hmove with
      | idle => rw [hf] at hg; cases hg
      | reject e' hstage hnone => simp [keyAfter, hstage, hnone, Except.toOption] at hkey
      | obtain => cases hg
      | take _ _ _ hstage | begin _ _ _ hstage => simp [Fetch.holding?, hstage] at hh
      | advance _ _ _ _ hl | fill _ _ _ _ hl | fail _ _ _ hl => rw [hl.1] at hh; cases hh

end Caller

/-! ## Services -/

/-- A cache and everyone who has called it. -/
structure Service where
  cache : Cache
  callers : List Caller := []

namespace Service

/-- A service that nobody has called, with an empty cache. -/
def new (searchDirectories : List Path) (documentation : Documentation.Registry) : Service :=
  ⟨.new searchDirectories documentation, []⟩

/-- The key of a call, if it has begun and its location has one. -/
def key? (σ : Service) (i : Nat) : Option Key := σ.callers[i]?.bind Caller.key?

/-- The result of a call that is over. -/
def result? (σ : Service) (i : Nat) : Option (Except Error Entry) :=
  σ.callers[i]?.bind (·.fetch.result?)

/-- The fetches in flight. -/
def flight (σ : Service) : List Fetch := σ.callers.filterMap Caller.inFlight?

/-- The fetches in flight of all calls but one. -/
def others (σ : Service) (i : Nat) : List Fetch := (σ.callers.eraseIdx i).filterMap Caller.inFlight?

/-- The service after a step of a call, unless the call was given up. -/
def step (w : World) (σ : Service) (i : Nat) : Service :=
  match σ.callers[i]? with
  | none => σ
  | some a =>
    if a.abandoned then σ
    else
      let (a, cache) := a.step w (σ.others i) σ.cache
      { cache, callers := σ.callers.set i a }

/-- The service after a call was given up. -/
def abandon (σ : Service) (i : Nat) : Service :=
  match σ.callers[i]? with
  | none => σ
  | some a => { σ with callers := σ.callers.set i { a with abandoned := true } }

/-- Something that happens to a service. -/
inductive Action where
  /-- A call comes in. -/
  | call (location : String)
  /-- A call takes a step on the files as they are now. -/
  | step (i : Nat) (w : World)
  /-- A call is given up. -/
  | abandon (i : Nat)
  /-- Someone else uses the registry of the documentation. -/
  | document (documentation : Documentation.Registry)

/-- The service after an action. -/
def perform (σ : Service) : Action → Service
  | .call location => { σ with callers := σ.callers ++ [{ fetch := .start location }] }
  | .step i w => σ.step w i
  | .abandon i => σ.abandon i
  | .document documentation => { σ with cache := { σ.cache with documentation } }

/-- The service after a list of actions. -/
def run (σ : Service) (actions : List Action) : Service := actions.foldl perform σ

theorem run_induction {P : Service → Prop} (keep : ∀ σ a, P σ → P (σ.perform a)) {σ : Service}
    (h : P σ) (actions : List Action) : P (σ.run actions) := by
  induction actions generalizing σ with
  | nil => exact h
  | cons a rest ih => exact ih (keep σ a h)

/-- What an action can do to a service. -/
inductive Effect (σ : Service) : Service → Prop where
  /-- Nothing happens: there is no such call, or it was given up. -/
  | idle : Effect σ σ
  | call (location : String) :
      Effect σ { σ with callers := σ.callers ++ [{ fetch := .start location }] }
  | step (w : World) (i : Nat) (a : Caller) (at_i : σ.callers[i]? = some a)
      (going : a.abandoned = false) :
      Effect σ ⟨(a.step w (σ.others i) σ.cache).2,
        σ.callers.set i (a.step w (σ.others i) σ.cache).1⟩
  | abandon (i : Nat) (a : Caller) (at_i : σ.callers[i]? = some a) :
      Effect σ { σ with callers := σ.callers.set i { a with abandoned := true } }
  | document (documentation : Documentation.Registry) :
      Effect σ { σ with cache := { σ.cache with documentation } }

theorem effect_perform (σ : Service) (action : Action) : σ.Effect (σ.perform action) := by
  cases action with
  | call location => exact .call location
  | step i w =>
      simp only [perform, step]
      split
      · exact .idle
      · next a at_i =>
          split
          · exact .idle
          · next going => exact .step w i a at_i (by simpa using going)
  | abandon i =>
      simp only [perform, abandon]
      split
      · exact .idle
      · next a at_i => exact .abandon i a at_i
  | document documentation => exact .document documentation

/-! ## The invariant of a service -/

/-- The fetches in flight are that of one call and those of the others. -/
theorem flight_set_perm {σ : Service} {i : Nat} {a : Caller} (at_i : σ.callers[i]? = some a)
    (b : Caller) :
    ((σ.callers.set i b).filterMap Caller.inFlight?).Perm
      (b.inFlight?.toList ++ σ.others i) :=
  filterMap_set_perm Caller.inFlight? at_i b

theorem flight_perm {σ : Service} {i : Nat} {a : Caller} (at_i : σ.callers[i]? = some a) :
    σ.flight.Perm (a.inFlight?.toList ++ σ.others i) := by
  have h := flight_set_perm at_i a
  rw [set_eq_self at_i] at h
  exact h

/-- The invariant of a service: its cache is sound, and its calls are kept. -/
structure Kept (σ : Service) : Prop where
  sound : σ.cache.Sound σ.flight
  callers : ∀ a ∈ σ.callers, a.Kept σ.cache

/-- A call that may take a step finds the cache sound with it and the others. -/
theorem Kept.sound_cons {σ : Service} (h : σ.Kept) {i : Nat} {a : Caller}
    (at_i : σ.callers[i]? = some a) (going : a.abandoned = false) :
    σ.cache.Sound (a.fetch :: σ.others i) := by
  have hperm := flight_perm at_i
  rw [Caller.inFlight?, going] at hperm
  exact h.sound.perm hperm

theorem Kept.perform {σ : Service} (h : σ.Kept) (action : Action) : (σ.perform action).Kept := by
  have heffect := σ.effect_perform action
  generalize σ.perform action = τ at heffect
  cases heffect with
  | idle => exact h
  | call location =>
      constructor
      · show σ.cache.Sound ((σ.callers ++ [_]).filterMap Caller.inFlight?)
        rw [List.filterMap_append]
        exact (h.sound.cons_idle rfl rfl).perm (List.perm_append_singleton _ _).symm
      · intro a ha
        rcases List.mem_append.mp ha with hmem | hnew
        · exact h.callers a hmem
        · rw [List.mem_singleton.mp hnew]
          exact ⟨fun _ => rfl, nofun⟩
  | step w i a at_i going =>
      have hsound := h.sound_cons at_i going
      have hmove := a.fetch.move_step w (σ.others i) σ.cache
      have hflight : (a.step w (σ.others i) σ.cache).1.inFlight?
          = some (a.fetch.step w (σ.others i) σ.cache).1 := by
        simp [Caller.inFlight?, Caller.step, going]
      have hperm := flight_set_perm at_i (a.step w (σ.others i) σ.cache).1
      rw [hflight] at hperm
      refine ⟨(hsound.move hmove).perm hperm.symm, ?_⟩
      intro b hb
      rcases List.mem_or_eq_of_mem_set hb with hmem | rfl
      · exact (h.callers b hmem).keeps (hsound.keeps hmove)
      · exact (h.callers a (List.mem_of_getElem? at_i)).step hsound
  | abandon i a at_i =>
      constructor
      · refine Cache.Sound.perm ?_ (flight_set_perm at_i { a with abandoned := true }).symm
        -- without the call the others are as sound as before
        cases going : a.abandoned with
        | false => exact (h.sound_cons at_i going).tail
        | true =>
            have hbefore := flight_perm at_i
            rw [Caller.inFlight?, going] at hbefore
            exact h.sound.perm hbefore
      · intro b hb
        rcases List.mem_or_eq_of_mem_set hb with hmem | rfl
        · exact h.callers b hmem
        · have ha := h.callers a (List.mem_of_getElem? at_i)
          exact ⟨ha.key, ha.ok⟩
  | document documentation =>
      exact ⟨⟨h.sound.held, h.sound.empty, h.sound.once⟩, fun a ha =>
        (h.callers a ha).keeps fun _ _ he => he⟩

theorem Kept.run {σ : Service} (h : σ.Kept) (actions : List Action) : (σ.run actions).Kept :=
  run_induction (fun _ a hσ => hσ.perform a) h actions

theorem kept_new (searchDirectories : List Path) (documentation : Documentation.Registry) :
    (new searchDirectories documentation).Kept :=
  ⟨Cache.sound_nil _, nofun⟩

/-! ## The winner -/

/-- A key is decided by an entry since some moment: the cache has the entry, and every call
with the key that was not over at that moment comes to it. -/
structure Decided (since σ : Service) (key : Key) (e : Entry) : Prop where
  entry : σ.cache.entryAt? key = some e
  later : ∀ i result, since.result? i = none → σ.key? i = some key →
    σ.result? i = some result → result = .ok e

/-- A key stays decided if one call changes that does not thereby get another result. -/
theorem Decided.setCaller {since σ : Service} {key : Key} {e : Entry} (h : Decided since σ key e)
    {c : Cache} (keeps : σ.cache.Keeps c) {i : Nat} {a b : Caller} (at_i : σ.callers[i]? = some a)
    (hb : ∀ result, b.key? = some key → b.fetch.result? = some result →
      result = .ok e ∨ a.key? = some key ∧ a.fetch.result? = some result) :
    Decided since ⟨c, σ.callers.set i b⟩ key e := by
  refine ⟨keeps key e h.entry, ?_⟩
  intro j result hsince hkey hresult
  by_cases hij : i = j
  · subst hij
    obtain ⟨hi, -⟩ := List.getElem?_eq_some_iff.mp at_i
    simp only [key?, result?, List.getElem?_set_self hi, Option.bind_some] at hkey hresult
    rcases hb result hkey hresult with hok | ⟨hkey', hresult'⟩
    · exact hok
    · exact h.later i result hsince (by rw [key?, at_i]; exact hkey')
        (by rw [result?, at_i]; exact hresult')
  · simp only [key?, result?, List.getElem?_set_ne hij] at hkey hresult
    exact h.later j result hsince hkey hresult

theorem Decided.perform {since σ : Service} {key : Key} {e : Entry} (h : Decided since σ key e)
    (kept : σ.Kept) (action : Action) : Decided since (σ.perform action) key e := by
  have heffect := σ.effect_perform action
  generalize σ.perform action = τ at heffect
  cases heffect with
  | idle => exact h
  | call location =>
      refine ⟨h.entry, ?_⟩
      intro i result hsince hkey hresult
      simp only [key?, result?, List.getElem?_append] at hkey hresult
      split at hkey
      · next hi =>
          rw [if_pos hi] at hresult
          exact h.later i result hsince hkey hresult
      · -- the new call has no key yet
        obtain ⟨a, ha, hkey⟩ := Option.bind_eq_some_iff.mp hkey
        rw [List.mem_singleton.mp (List.mem_of_getElem? ha)] at hkey
        cases hkey
  | step w i a at_i going =>
      have hsound := kept.sound_cons at_i going
      have hmove := a.fetch.move_step w (σ.others i) σ.cache
      refine h.setCaller (hsound.keeps hmove) at_i fun result hkey hresult => ?_
      cases hf : a.fetch.result? with
      | some result' =>
          -- the call was over before, and stays as it is
          have hsame : (a.step w (σ.others i) σ.cache).1.fetch = a.fetch := hmove.eq_of_result? hf
          have hkey' := Caller.keyAfter_of_ne (w := w) (Caller.ne_arriving_of_result hf)
          exact .inr ⟨hkey'.symm.trans hkey, by rw [← hf, ← hsame, hresult]⟩
      | none =>
          exact .inl ((kept.callers a (List.mem_of_getElem? at_i)).result_of_entryAt? hsound
            h.entry hf hkey hresult)
  | abandon i a at_i =>
      exact h.setCaller (fun _ _ he => he) at_i fun result hkey hresult => .inr ⟨hkey, hresult⟩
  | document documentation => exact ⟨h.entry, h.later⟩

theorem Decided.run {since σ : Service} {key : Key} {e : Entry} (h : Decided since σ key e)
    (kept : σ.Kept) (actions : List Action) : Decided since (σ.run actions) key e := by
  induction actions generalizing σ with
  | nil => exact h
  | cons a rest ih => exact ih (h.perform kept a) (kept.perform a)

/-- A successful call decides its key. -/
theorem Kept.decided {σ : Service} (h : σ.Kept) {i : Nat} {key : Key} {e : Entry}
    (hkey : σ.key? i = some key) (won : σ.result? i = some (.ok e)) : Decided σ σ key e := by
  constructor
  · obtain ⟨a, at_i, hfetch⟩ := Option.bind_eq_some_iff.mp won
    obtain ⟨key', hkey', he⟩ := (h.callers a (List.mem_of_getElem? at_i)).ok e hfetch
    rw [key?, at_i, Option.bind_some, hkey'] at hkey
    rw [← Option.some.inj hkey, he]
  · intro j result hnone _ hresult
    rw [hnone] at hresult
    cases hresult

/-- What it means that an entry has won a key, for a service `σ` that has come from `since`. -/
structure Winner (since σ : Service) (key : Key) (e : Entry) : Prop where
  /-- Every call that succeeded for the key came to the entry, whenever that was. -/
  agree : ∀ i e', σ.key? i = some key → σ.result? i = some (.ok e') →
    e' = e ∧ e'.sameAs e = true
  /-- A call with the key that was not over by then comes to the entry and not to an error. -/
  later : ∀ i result, since.result? i = none → σ.key? i = some key →
    σ.result? i = some result → result = .ok e
  /-- A call with the key that is not over comes to the entry in its next step. -/
  prompt : ∀ i a w, σ.callers[i]? = some a → a.abandoned = false → a.key? = some key →
    a.fetch.result? = none → (σ.step w i).result? i = some (.ok e)
  /-- The cache gives the entry for every location with the key. -/
  get : ∀ cwd location, Key.normalize cwd location = .ok key →
    σ.cache.get? cwd location = some e
  /-- A location with the key resolves to the entry, beside any files. -/
  resolve : ∀ w location, Key.normalize w.directory location = .ok key →
    σ.cache.resolve w location = (.ok e, σ.cache)

/-- **One winner for each key.** Let anything happen to a cache and its callers. As soon as a
call has succeeded, its entry has won the key for the rest of the run: all calls agree on it,
and no later one fails, even if the files have changed or are gone. -/
theorem single_winner (searchDirectories : List Path) (documentation : Documentation.Registry)
    (before after : List Action) (i : Nat) (key : Key) (e : Entry)
    (hkey : ((new searchDirectories documentation).run before).key? i = some key)
    (won : ((new searchDirectories documentation).run before).result? i = some (.ok e)) :
    Winner ((new searchDirectories documentation).run before)
      (((new searchDirectories documentation).run before).run after) key e := by
  have hbefore := (kept_new searchDirectories documentation).run before
  generalize (new searchDirectories documentation).run before = since at *
  have hafter := hbefore.run after
  have hdecided := (hbefore.decided hkey won).run hbefore after
  generalize since.run after = σ at *
  refine ⟨?_, hdecided.later, ?_, fun cwd location h => Cache.get?_of_entryAt? h hdecided.entry,
    fun w location h => Cache.resolve_of_entryAt? h hdecided.entry⟩
  · -- whatever succeeds decides the key, and it is decided once
    intro j e' hkey' hresult
    have hentry := (hafter.decided hkey' hresult).entry
    rw [hdecided.entry] at hentry
    rw [Option.some.inj hentry]
    exact ⟨rfl, by simp [Entry.sameAs]⟩
  · -- a call that is not over holds the cell of its key, which is filled
    intro j a w at_j going hkey' hnew
    have hholds := (hafter.callers a (List.mem_of_getElem? at_j)).key hnew
    rw [hkey'] at hholds
    obtain ⟨⟨key', cell⟩, hh, rfl⟩ := Option.map_eq_some_iff.mp hholds.symm
    have hresult := (hafter.sound_cons at_j going).result_of_entryAt?
      (a.fetch.move_step w (σ.others j) σ.cache) hh hdecided.entry
    obtain ⟨hj, -⟩ := List.getElem?_eq_some_iff.mp at_j
    simp only [step, at_j, going, Bool.false_eq_true, if_false, result?,
      List.getElem?_set_self hj, Option.bind_some]
    exact hresult

/-- The files with a library in the root directory. -/
def withLib : World := (default : World).putFile ⟨"/lib.dll"⟩ (.text "")

/-- Two spellings of the library are asked for, of which only the first leads to the file. The
second call obtains the cell, and the first one loads. -/
def libCalls : List Action :=
  [.call "/lib.dll", .call "./lib", .step 1 withLib] ++ List.replicate 8 (.step 0 withLib)

/-- The entry of the first call has won the key, and the second call comes to it although there
are no files any more. -/
theorem lib_won :
    Winner ((new [] default).run libCalls) (((new [] default).run libCalls).run [.step 1 default])
      ⟨"/lib"⟩ ⟨0, ⟨"lib", ⟨"/lib.dll"⟩⟩, .empty⟩ ∧
    (((new [] default).run libCalls).run [.step 1 default]).result? 1
      = some (.ok ⟨0, ⟨"lib", ⟨"/lib.dll"⟩⟩, .empty⟩) :=
  ⟨single_winner [] default libCalls [.step 1 default] 0 _ _ (by decide) (by rfl), by rfl⟩

end Service

end ScriptSessions.Reference
