import ScriptSessions.Proofs.Reference.Entries
import ScriptSessions.Proofs.Reference.Winner

set_option autoImplicit false

/-! # Which keys stay tracked

A key that is tracked has a cell, and while the cell is empty someone should be about to fill it or
to take it away again. Filling and failing do so: a fetch that fails looks whether anyone else holds
the cell, and so the last one that fails takes it away. Giving up does not. A call that is given up
while nobody else holds its empty cell leaves the key behind (`Service.LeavesBehind`), and there it
stays until someone asks for the key again.

`Service.trackedKeys_eq_size_of_idle_iff` says that there is no other way. What one step of a fetch
can do to an empty cell is said by `Cache.Sound.emptyAt_of_move` and `Cache.Sound.emptyAt_move`,
what one action can do by `Service.Neat.emptyAt_perform_iff`, and what a run can do by
`Service.Neat.emptyAt_run_iff`.
-/

namespace ScriptSessions.Reference

/-! ## Empty cells -/

/-- Whether a fetch holds the cell of a key. -/
def Fetch.HoldsKey (f : Fetch) (key : Key) : Prop := ∃ cell, f.holding? = some (key, cell)

theorem Fetch.Loads.key_eq {f : Fetch} {key key' : Key} {cell : CellId} (h : f.Loads key cell)
    (hf : f.HoldsKey key') : key' = key := by
  obtain ⟨cell', hcell⟩ := hf
  rw [h.1] at hcell
  cases hcell
  rfl

namespace Cache

/-- Whether a key is tracked and its cell is empty. -/
def EmptyAt (c : Cache) (key : Key) : Prop :=
  ∃ cell, c.cells.lookup key = some cell ∧ c.entryOf? cell = none

/-- Whether every tracked key has one cell. -/
def KeyedOnce (c : Cache) : Prop := (c.cells.map Prod.fst).Nodup

theorem lookup_obtain_of_ne {key k : Key} (h : k ≠ key) (c : Cache) :
    (c.obtain key).2.cells.lookup k = c.cells.lookup k := by
  unfold obtain
  split
  · rfl
  · have hne : (k == key) = false := by simpa using h
    rw [List.lookup_append, List.lookup_cons, hne, List.lookup_nil, Option.or_none]

/-- A key whose cell is empty is not tracked after it has been forgotten. -/
theorem lookup_forget_self {c : Cache} {key : Key} {cell : CellId}
    (hcell : c.cells.lookup key = some cell) (hempty : c.entryOf? cell = none) :
    (c.forget key cell).cells.lookup key = none := by
  rw [forget, if_pos ⟨hcell, hempty⟩]
  refine List.lookup_eq_none_iff.mpr fun p hp => ?_
  have hne := (List.mem_filter.mp hp).2
  rw [bne_iff_ne] at hne
  simpa using hne.symm

/-- A fetch that loads into a cell finds it empty under its key. -/
theorem Sound.emptyAt_of_loads {c : Cache} {f : Fetch} {others : List Fetch}
    (hs : c.Sound (f :: others)) {key : Key} {cell : CellId} (hf : f.Loads key cell) :
    c.cells.lookup key = some cell ∧ c.entryOf? cell = none :=
  ⟨hs.held f List.mem_cons_self key cell hf.1, hs.empty f List.mem_cons_self cell hf.2⟩

section Move

variable {w : World} {others : List Fetch} {c d : Cache} {f g : Fetch}

/-- **Where empty cells come from.** A cell that is empty after a step of a fetch is held by the
fetch, or it was empty before, and if the fetch has let go of it, another one holds it. -/
theorem Sound.emptyAt_of_move (hs : c.Sound (f :: others)) (tidy : c.Tidy)
    (hmove : f.Move w others c g d) {key : Key} (hd : d.EmptyAt key) :
    g.HoldsKey key ∨ c.EmptyAt key ∧ (f.HoldsKey key → ∃ o ∈ others, o.HoldsKey key) := by
  obtain ⟨cell, hcell, hempty⟩ := hd
  have harriving (hstage : f.stage = .arriving) : ¬ f.HoldsKey key := by
    rintro ⟨cell', hheld⟩
    simp [Fetch.holding?, hstage] at hheld
  cases hmove with
  | idle =>
      by_cases hf : f.HoldsKey key
      · exact .inl hf
      · exact .inr ⟨⟨cell, hcell, hempty⟩, fun h => absurd h hf⟩
  | reject e hstage => exact .inr ⟨⟨cell, hcell, hempty⟩, fun h => absurd h (harriving hstage)⟩
  | obtain key' hstage =>
      by_cases hkey : key = key'
      · exact .inl ⟨(c.obtain key').1, by rw [hkey]; rfl⟩
      · rw [lookup_obtain_of_ne hkey] at hcell
        rw [entryOf?_obtain] at hempty
        exact .inr ⟨⟨cell, hcell, hempty⟩, fun h => absurd h (harriving hstage)⟩
  | take key' cell' e hstage he =>
      refine .inr ⟨⟨cell, hcell, hempty⟩, ?_⟩
      -- the cell of the fetch is filled, so it is the cell of another key
      rintro ⟨held, hheld⟩
      rw [hs.held f List.mem_cons_self key held hheld] at hcell
      simp only [Fetch.holding?, hstage] at hheld
      cases hheld
      cases hcell
      rw [he] at hempty
      cases hempty
  | begin key' cell' _ hstage _ _ hg =>
      by_cases hf : f.HoldsKey key
      · obtain ⟨held, hheld⟩ := hf
        simp only [Fetch.holding?, hstage] at hheld
        cases hheld
        exact .inl ⟨cell', hg.1⟩
      · exact .inr ⟨⟨cell, hcell, hempty⟩, fun h => absurd h hf⟩
  | advance key' cell' _ documentation hl hg =>
      by_cases hf : f.HoldsKey key
      · exact .inl ⟨cell', by rw [hl.key_eq hf, hg.1]⟩
      · exact .inr ⟨⟨cell, hcell, hempty⟩, fun h => absurd h hf⟩
  | fill key' cell' path provider hl =>
      have hne : cell ≠ cell' := by
        rintro rfl
        rw [entryOf?_fill_self] at hempty
        cases hempty
      rw [entryOf?_fill_of_ne hne] at hempty
      refine .inr ⟨⟨cell, hcell, hempty⟩, fun hf => ?_⟩
      have hown := (hs.emptyAt_of_loads hl).1
      rw [hl.key_eq hf] at hcell
      exact absurd (Option.some.inj (hcell.symm.trans hown)) hne
  | fail key' cell' e hl =>
      have hown := (hs.emptyAt_of_loads hl).1
      split at hcell
      · next hother =>
          rw [if_pos hother] at hempty
          refine .inr ⟨⟨cell, hcell, hempty⟩, fun hf => ?_⟩
          -- whoever holds the same cell holds it for the same key
          obtain ⟨o, ho, hheld⟩ := List.any_eq_true.mp hother
          rw [beq_iff_eq, Fetch.held?_eq] at hheld
          obtain ⟨⟨k, held⟩, hh, rfl⟩ := Option.map_eq_some_iff.mp hheld
          have hk := hs.held o (List.mem_cons_of_mem f ho) k held hh
          rw [hl.key_eq hf, tidy.key_of_cell hown hk]
          exact ⟨o, ho, held, hh⟩
      · next hfree =>
          rw [if_neg hfree, entryOf?_forget] at hempty
          have hne : key ≠ key' := by
            rintro rfl
            rw [lookup_forget_self hown (hs.emptyAt_of_loads hl).2] at hcell
            cases hcell
          rw [lookup_forget_of_ne hne] at hcell
          exact .inr ⟨⟨cell, hcell, hempty⟩, fun hf => absurd (hl.key_eq hf) hne⟩

/-- An empty cell stays as it is during the steps of fetches that do not hold it. -/
theorem Sound.emptyAt_move (hs : c.Sound (f :: others)) (tidy : c.Tidy)
    (hmove : f.Move w others c g d) {key : Key} (hc : c.EmptyAt key) (hf : ¬ f.HoldsKey key) :
    d.EmptyAt key := by
  obtain ⟨cell, hcell, hempty⟩ := hc
  cases hmove with
  | idle | reject | take | begin | advance => exact ⟨cell, hcell, hempty⟩
  | obtain key' => exact ⟨cell, lookup_obtain_of_some key' hcell, by rw [entryOf?_obtain, hempty]⟩
  | fill key' cell' path provider hl =>
      have hne : cell ≠ cell' := by
        rintro rfl
        rw [tidy.key_of_cell hcell (hs.emptyAt_of_loads hl).1] at hf
        exact hf ⟨cell, hl.1⟩
      exact ⟨cell, hcell, by rw [entryOf?_fill_of_ne hne, hempty]⟩
  | fail key' cell' e hl =>
      split
      · exact ⟨cell, hcell, hempty⟩
      · have hne : key ≠ key' := by
          rintro rfl
          exact hf ⟨cell', hl.1⟩
        exact ⟨cell, by rw [lookup_forget_of_ne hne, hcell], by rw [entryOf?_forget, hempty]⟩

theorem KeyedOnce.move (once : c.KeyedOnce) (hmove : f.Move w others c g d) : d.KeyedOnce := by
  cases hmove with
  | idle | reject | take | begin | advance | fill => exact once
  | obtain key =>
      unfold obtain
      split
      · exact once
      · next hnone =>
          rw [KeyedOnce, List.map_append, List.map_singleton, List.nodup_append]
          refine ⟨once, List.nodup_singleton key, ?_⟩
          -- the key is not tracked yet
          rintro k hk k' hk' rfl
          obtain ⟨p, hp, rfl⟩ := List.mem_map.mp hk
          have hsame : p.1 = key := List.mem_singleton.mp hk'
          rw [← hsame, lookup_of_mem once hp] at hnone
          cases hnone
  | fail key cell =>
      split
      · exact once
      · unfold forget
        split
        · exact once.sublist (List.filter_sublist.map Prod.fst)
        · exact once

end Move

/-- All tracked keys have entries if and only if no cell is empty. -/
theorem KeyedOnce.trackedKeys_eq_size_iff {c : Cache} (once : c.KeyedOnce) :
    c.trackedKeys = c.size ↔ ∀ key, ¬ c.EmptyAt key := by
  rw [eq_comm, size, trackedKeys, List.length_filter_eq_length_iff]
  constructor
  · rintro hfilled key ⟨cell, hcell, hempty⟩
    have hsome := hfilled (key, cell) (mem_of_lookup hcell)
    rw [hempty] at hsome
    cases hsome
  · rintro hnone ⟨key, cell⟩ hmem
    rw [Option.isSome_iff_ne_none]
    exact fun hempty => hnone key ⟨cell, lookup_of_mem once hmem, hempty⟩

end Cache

/-! ## Services -/

namespace Service

/-- Whether some call in flight holds the cell of a key. -/
def Holds (σ : Service) (key : Key) : Prop := ∃ f ∈ σ.flight, f.HoldsKey key

/-- Whether no call is in flight: every call is over or was given up. -/
def Idle (σ : Service) : Prop := ∀ f ∈ σ.flight, f.result?.isSome = true

/-- Whether giving up a call leaves a key behind: the key has an empty cell, and nobody holds it
any more. -/
def LeavesBehind (σ : Service) (i : Nat) (key : Key) : Prop :=
  σ.cache.EmptyAt key ∧ σ.Holds key ∧ ¬ (σ.abandon i).Holds key

/-- Whether nobody holds the cell of a key at any moment of a run. -/
def Unheld (σ : Service) (key : Key) : List Action → Prop
  | [] => ¬ σ.Holds key
  | a :: rest => ¬ σ.Holds key ∧ (σ.perform a).Unheld key rest

/-- Whether a key is left behind in a run: giving up a call leaves it behind, and nobody asks for it
afterwards. -/
def LeftBehind (σ : Service) (key : Key) (actions : List Action) : Prop :=
  ∃ before i after, actions = before ++ .abandon i :: after ∧
    (σ.run before).LeavesBehind i key ∧ ((σ.run before).abandon i).Unheld key after

theorem Idle.not_holds {σ : Service} (h : σ.Idle) (key : Key) : ¬ σ.Holds key := by
  rintro ⟨f, hf, cell, hheld⟩
  have hover := h f hf
  rw [Fetch.result?_of_holding hheld] at hover
  cases hover

theorem Unheld.not_holds {σ : Service} {key : Key} {actions : List Action}
    (h : σ.Unheld key actions) : ¬ σ.Holds key := by
  cases actions with
  | nil => exact h
  | cons a rest => exact h.1

/-- The first action of a run leaves a key behind for good, or a later one does. -/
theorem leftBehind_cons {σ : Service} {key : Key} {a : Action} {rest : List Action} :
    σ.LeftBehind key (a :: rest) ↔
      (∃ i, a = .abandon i ∧ σ.LeavesBehind i key ∧ (σ.perform a).Unheld key rest) ∨
      (σ.perform a).LeftBehind key rest := by
  constructor
  · rintro ⟨before, i, after, heq, hleaves, hunheld⟩
    cases before with
    | nil =>
        cases heq
        exact .inl ⟨i, rfl, hleaves, hunheld⟩
    | cons b before =>
        cases heq
        exact .inr ⟨before, i, after, rfl, hleaves, hunheld⟩
  · rintro (⟨i, rfl, hleaves, hunheld⟩ | ⟨before, i, after, rfl, hleaves, hunheld⟩)
    · exact ⟨[], i, rest, rfl, hleaves, hunheld⟩
    · exact ⟨a :: before, i, after, rfl, hleaves, hunheld⟩

/-- What is kept of a service, so that empty cells can be followed. -/
structure Neat (σ : Service) : Prop where
  kept : σ.Kept
  tidy : σ.cache.Tidy
  once : σ.cache.KeyedOnce

theorem neat_new (searchDirectories : List Path) (documentation : Documentation.Registry) :
    (new searchDirectories documentation).Neat :=
  ⟨kept_new searchDirectories documentation, Cache.tidy_new searchDirectories documentation, .nil⟩

theorem Neat.perform {σ : Service} (h : σ.Neat) (action : Action) : (σ.perform action).Neat := by
  have hkept := h.kept.perform action
  have heffect := σ.effect_perform action
  generalize σ.perform action = τ at heffect hkept
  cases heffect with
  | idle | call | abandon => exact ⟨hkept, h.tidy, h.once⟩
  | step w i a at_i going =>
      have hsound := h.kept.sound_cons at_i going
      have hmove := a.fetch.move_step w (σ.others i) σ.cache
      exact ⟨hkept, h.tidy.move hsound hmove, h.once.move hmove⟩
  | document documentation =>
      have htidy := h.tidy
      exact ⟨hkept, ⟨htidy.cells_lt, htidy.cells_nodup, htidy.filled_lt, htidy.entries_lt,
        htidy.entries_nodup⟩, h.once⟩

theorem Neat.run {σ : Service} (h : σ.Neat) (actions : List Action) : (σ.run actions).Neat :=
  run_induction (fun _ a hσ => hσ.perform a) h actions

/-! ## Who leaves a key behind -/

/-- After an action that leaves a call going, the calls in flight are that one and the others. -/
theorem holds_set_iff {σ : Service} {c : Cache} {i : Nat} {a b : Caller}
    (at_i : σ.callers[i]? = some a) (going : b.abandoned = false) (key : Key) :
    Holds ⟨c, σ.callers.set i b⟩ key ↔
      b.fetch.HoldsKey key ∨ ∃ o ∈ σ.others i, o.HoldsKey key := by
  have hflight : b.inFlight? = some b.fetch := by simp [Caller.inFlight?, going]
  have hperm := flight_set_perm at_i b
  rw [hflight] at hperm
  simp only [Holds, flight]
  constructor
  · rintro ⟨f, hf, hheld⟩
    rcases List.mem_cons.mp (hperm.mem_iff.mp hf) with rfl | hmem
    · exact .inl hheld
    · exact .inr ⟨f, hmem, hheld⟩
  · rintro (hheld | ⟨o, ho, hheld⟩)
    · exact ⟨b.fetch, hperm.mem_iff.mpr List.mem_cons_self, hheld⟩
    · exact ⟨o, hperm.mem_iff.mpr (List.mem_cons_of_mem _ ho), hheld⟩

/-- A call that comes in holds nothing. -/
theorem holds_call_iff {σ : Service} (location : String) (key : Key) :
    (σ.perform (.call location)).Holds key ↔ σ.Holds key := by
  have hnew : ¬ (Fetch.start location).HoldsKey key := fun ⟨_, hheld⟩ => by cases hheld
  have hflight : (σ.perform (.call location)).flight = σ.flight ++ [.start location] := by
    simp [perform, flight, Caller.inFlight?]
  rw [Holds, Holds, hflight]
  constructor
  · rintro ⟨f, hf, hheld⟩
    rcases List.mem_append.mp hf with hmem | hlast
    · exact ⟨f, hmem, hheld⟩
    · rw [List.mem_singleton.mp hlast] at hheld
      exact absurd hheld hnew
  · rintro ⟨f, hf, hheld⟩
    exact ⟨f, List.mem_append_left _ hf, hheld⟩

/-- A step makes no empty cell that nobody holds, and does away with none. -/
theorem Neat.emptyAt_step_iff {σ : Service} (h : σ.Neat) (w : World) (i : Nat) {key : Key}
    (free : ¬ (σ.step w i).Holds key) :
    (σ.step w i).cache.EmptyAt key ↔ σ.cache.EmptyAt key ∧ ¬ σ.Holds key := by
  cases at_i : σ.callers[i]? with
  | none =>
      simp only [step, at_i] at free ⊢
      exact (and_iff_left free).symm
  | some a =>
      cases going : a.abandoned with
      | true =>
          simp only [step, at_i, going, if_true] at free ⊢
          exact (and_iff_left free).symm
      | false =>
          simp only [step, at_i, going, Bool.false_eq_true, if_false] at free ⊢
          have hsound := h.kept.sound_cons at_i going
          have hmove := a.fetch.move_step w (σ.others i) σ.cache
          rw [holds_set_iff (b := (a.step w (σ.others i) σ.cache).1) at_i going, not_or] at free
          have hbefore : σ.Holds key ↔ a.fetch.HoldsKey key ∨ ∃ o ∈ σ.others i, o.HoldsKey key := by
            rw [← holds_set_iff (c := σ.cache) at_i going, set_eq_self at_i]
          rw [hbefore]
          constructor
          · intro hempty
            rcases hsound.emptyAt_of_move h.tidy hmove hempty with hheld | ⟨hcell, hothers⟩
            · exact absurd hheld free.1
            · exact ⟨hcell, fun hheld => free.2 (hheld.elim hothers id)⟩
          · rintro ⟨hcell, hfree⟩
            exact hsound.emptyAt_move h.tidy hmove hcell fun hheld => hfree (.inl hheld)

/-- **One action.** A key has an empty cell that nobody holds after an action if and only if it had
one before, or the action gives up the call that held it. -/
theorem Neat.emptyAt_perform_iff {σ : Service} (h : σ.Neat) (action : Action) {key : Key}
    (free : ¬ (σ.perform action).Holds key) :
    (σ.perform action).cache.EmptyAt key ↔
      σ.cache.EmptyAt key ∧ ¬ σ.Holds key ∨ ∃ i, action = .abandon i ∧ σ.LeavesBehind i key := by
  cases action with
  | call location =>
      rw [holds_call_iff] at free
      constructor
      · exact fun hempty => .inl ⟨hempty, free⟩
      · rintro (⟨hempty, -⟩ | ⟨i, hi, -⟩)
        · exact hempty
        · cases hi
  | step i w =>
      rw [show σ.perform (.step i w) = σ.step w i from rfl, h.emptyAt_step_iff w i free]
      exact ⟨.inl, fun hcases => hcases.resolve_right fun ⟨_, hi, _⟩ => by cases hi⟩
  | abandon i =>
      have hcache : (σ.perform (.abandon i)).cache = σ.cache := by
        simp only [Service.perform, Service.abandon]
        split <;> rfl
      rw [hcache]
      constructor
      · intro hempty
        by_cases hheld : σ.Holds key
        · exact .inr ⟨i, rfl, hempty, hheld, free⟩
        · exact .inl ⟨hempty, hheld⟩
      · rintro (⟨hempty, -⟩ | ⟨j, hj, hleaves⟩)
        · exact hempty
        · exact hleaves.1
  | document documentation =>
      constructor
      · exact fun hempty => .inl ⟨hempty, free⟩
      · rintro (⟨hempty, -⟩ | ⟨i, hi, -⟩)
        · exact hempty
        · cases hi

/-- **A whole run.** A key has an empty cell that nobody holds after a run if and only if it had one
at the beginning, and nobody has asked for it since, or it was left behind in the run. -/
theorem Neat.emptyAt_run_iff {σ : Service} (h : σ.Neat) (key : Key) (actions : List Action) :
    (σ.run actions).cache.EmptyAt key ∧ ¬ (σ.run actions).Holds key ↔
      σ.cache.EmptyAt key ∧ σ.Unheld key actions ∨ σ.LeftBehind key actions := by
  induction actions generalizing σ with
  | nil =>
      constructor
      · exact .inl
      · rintro (hfree | ⟨before, i, after, heq, -⟩)
        · exact hfree
        · cases before <;> cases heq
  | cons a rest ih =>
      have hrest := ih (h.perform a)
      rw [show σ.run (a :: rest) = (σ.perform a).run rest from rfl, hrest, leftBehind_cons,
        ← or_assoc]
      refine or_congr_left ?_
      -- nobody holds the key for the rest of the run, so nobody holds it after the first action
      constructor
      · rintro ⟨hempty, hunheld⟩
        rcases (h.emptyAt_perform_iff a hunheld.not_holds).mp hempty with
          ⟨hcell, hfree⟩ | ⟨i, hi, hleaves⟩
        · exact .inl ⟨hcell, hfree, hunheld⟩
        · exact .inr ⟨i, hi, hleaves, hunheld⟩
      · rintro (⟨hcell, hfree, hunheld⟩ | ⟨i, hi, hleaves, hunheld⟩)
        · exact ⟨(h.emptyAt_perform_iff a hunheld.not_holds).mpr (.inl ⟨hcell, hfree⟩), hunheld⟩
        · exact ⟨(h.emptyAt_perform_iff a hunheld.not_holds).mpr (.inr ⟨i, hi, hleaves⟩), hunheld⟩

/-- **Dead keys are left behind by calls that were given up.** Let anything happen to a cache and
its callers, until no call is in flight any more. Then all tracked keys have entries if and only if
no call was given up while it alone held an empty cell, or someone has asked for the key again. -/
theorem trackedKeys_eq_size_of_idle_iff (searchDirectories : List Path)
    (documentation : Documentation.Registry) (actions : List Action)
    (idle : ((new searchDirectories documentation).run actions).Idle) :
    ((new searchDirectories documentation).run actions).cache.trackedKeys
        = ((new searchDirectories documentation).run actions).cache.size ↔
      ∀ key, ¬ (new searchDirectories documentation).LeftBehind key actions := by
  have hneat := neat_new searchDirectories documentation
  rw [(hneat.run actions).once.trackedKeys_eq_size_iff]
  refine forall_congr' fun key => not_congr ?_
  have hrun := hneat.emptyAt_run_iff key actions
  rw [and_iff_left (idle.not_holds key)] at hrun
  rw [hrun]
  refine or_iff_right ?_
  -- there are no cells at the beginning
  rintro ⟨⟨cell, hcell, -⟩, -⟩
  cases hcell

/-- Two calls ask for a library that is not there. The first is given up while it is looking, and
the second looks in its place. -/
def handedOver : List Action :=
  [.call "/lib.dll", .call "/lib", .step 0 default, .step 1 default, .step 0 default, .abandon 0,
    .step 1 default, .step 1 default]

/-- The second call fails in place of the first and takes the cell away, so that the key is not left
behind. -/
theorem handedOver_leaves_nothing :
    ((new [] default).run handedOver).Idle ∧
    ((new [] default).run handedOver).cache.trackedKeys = 0 ∧
    ∀ key, ¬ (new [] default).LeftBehind key handedOver :=
  ⟨by unfold Idle; decide, by decide,
    (trackedKeys_eq_size_of_idle_iff [] default handedOver (by unfold Idle; decide)).mp (by decide)⟩

/-- A call that is given up while it alone is looking for a library leaves the key behind: nobody
is in flight, and one key is tracked, but no key has an entry. -/
theorem givenUp_leaves_dead_key :
    ∃ actions, ((new [] default).run actions).Idle ∧
      ((new [] default).run actions).cache.trackedKeys = 1 ∧
      ((new [] default).run actions).cache.size = 0 :=
  ⟨[.call "/lib.dll", .step 0 default, .step 0 default, .abandon 0], by unfold Idle; decide,
    by decide, by decide⟩

end Service

end ScriptSessions.Reference
