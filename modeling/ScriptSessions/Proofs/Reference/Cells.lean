import ScriptSessions.Proofs.Lists
import ScriptSessions.Reference.Fetch

set_option autoImplicit false

/-! # Cells and the fetches that hold them

A fetch that holds a cell relies on the cache: the cell has to stay the cell of its key, for
otherwise a later fetch would be given another cell and load a second entry. A fetch that fails
may stop tracking its key, but it looks whether anyone else holds the cell. Together with the
rule that one fetch at a time loads into a cell this makes an invariant (`Cache.Sound`) of the
cache and the fetches in flight, which every step of every fetch keeps.

What a step can do is said once, by `Fetch.Move`. It speaks of a fetch only through the cell
that it holds and its key (`Fetch.holding?`), the cell that it loads into (`Fetch.loading?`)
and its result.
-/

namespace ScriptSessions.Reference

/-! ## What the cache does to its cells -/

namespace Cache

theorem lookup_obtain (c : Cache) (key : Key) :
    (c.obtain key).2.cells.lookup key = some (c.obtain key).1 := by
  unfold obtain
  split
  · next h => exact h
  · next h => rw [List.lookup_append, h, List.lookup_cons_self, Option.none_or]

theorem lookup_obtain_of_some {c : Cache} {k : Key} {cell : CellId} (key : Key)
    (h : c.cells.lookup k = some cell) : (c.obtain key).2.cells.lookup k = some cell := by
  unfold obtain
  split
  · exact h
  · rw [List.lookup_append, h, Option.some_or]

theorem entryOf?_obtain (c : Cache) (key : Key) (cell : CellId) :
    (c.obtain key).2.entryOf? cell = c.entryOf? cell := by
  unfold obtain
  split <;> rfl

theorem entryOf?_fill_self (c : Cache) (cell : CellId) (path : Path)
    (provider : Documentation.Provider) :
    (c.fill cell path provider).2.entryOf? cell = some (c.fill cell path provider).1 :=
  List.lookup_cons_self

theorem entryOf?_fill_of_ne {c : Cache} {cell other : CellId} (h : other ≠ cell) (path : Path)
    (provider : Documentation.Provider) :
    (c.fill cell path provider).2.entryOf? other = c.entryOf? other := by
  have hne : (other == cell) = false := by simpa using h
  simp [fill, entryOf?, List.lookup_cons, hne]

theorem lookup_forget_of_ne {key k : Key} (h : k ≠ key) (c : Cache) (cell : CellId) :
    (c.forget key cell).cells.lookup k = c.cells.lookup k := by
  unfold forget
  split
  · exact lookup_filter_ne h c.cells
  · rfl

theorem entryOf?_forget (c : Cache) (key : Key) (cell other : CellId) :
    (c.forget key cell).entryOf? other = c.entryOf? other := by
  unfold forget
  split <;> rfl

/-- A key whose cell is filled stays tracked. -/
theorem lookup_forget_of_filled {c : Cache} {k : Key} {held : CellId} {e : Entry}
    (hk : c.cells.lookup k = some held) (he : c.entryOf? held = some e) (key : Key)
    (cell : CellId) : (c.forget key cell).cells.lookup k = some held := by
  by_cases h : k = key
  · unfold forget
    rw [if_neg]
    · exact hk
    · rintro ⟨hcell, hempty⟩
      rw [← h, hk] at hcell
      rw [← Option.some.inj hcell, he] at hempty
      cases hempty
  · rw [lookup_forget_of_ne h, hk]

theorem entryAt?_eq_some_iff {c : Cache} {key : Key} {e : Entry} :
    c.entryAt? key = some e ↔
      ∃ cell, c.cells.lookup key = some cell ∧ c.entryOf? cell = some e := by
  simp [entryAt?, Option.bind_eq_some_iff]

end Cache

/-! ## What a fetch can do -/

namespace Fetch

/-- The key of a fetch and the cell that it holds. -/
def holding? (f : Fetch) : Option (Key × CellId) :=
  match f.stage with
  | .waiting key cell | .searching key cell _ | .examining key cell _
  | .documenting key cell _ _ => some (key, cell)
  | .arriving | .finished _ => none

theorem held?_eq (f : Fetch) : f.held? = f.holding?.map Prod.snd := by
  obtain ⟨location, stage⟩ := f
  cases stage <;> rfl

theorem result?_of_holding {f : Fetch} {held : Key × CellId} (h : f.holding? = some held) :
    f.result? = none := by
  obtain ⟨location, stage⟩ := f
  cases stage with
  | finished => cases h
  | arriving | waiting | searching | examining | documenting => rfl

/-- A fetch that loads into a cell of a key: it holds the cell, and is not over. -/
def Loads (f : Fetch) (key : Key) (cell : CellId) : Prop :=
  f.holding? = some (key, cell) ∧ f.loading? = some cell

/-- What a fetch can do in one step: `Move w others c f g d` says that beside the fetches
`others` the fetch `f` may become `g` while the cache `c` becomes `d`. -/
inductive Move (w : World) (others : List Fetch) (c : Cache) (f : Fetch) : Fetch → Cache → Prop
    where
  /-- Nothing happens: the fetch is over, or its empty cell is being loaded by another one. -/
  | idle (h : f.result?.isSome = true ∨
        ∃ key cell, f.stage = .waiting key cell ∧ c.entryOf? cell = none) :
      Move w others c f f c
  /-- The location has no key. -/
  | reject (e : Error) (hf : f.stage = .arriving)
      (hkey : Key.normalize w.directory f.location = .error e) :
      Move w others c f ⟨f.location, .finished (.error e)⟩ c
  /-- The fetch obtains the cell of its key. -/
  | obtain (key : Key) (hf : f.stage = .arriving)
      (hkey : Key.normalize w.directory f.location = .ok key) :
      Move w others c f ⟨f.location, .waiting key (c.obtain key).1⟩ (c.obtain key).2
  /-- The fetch takes the entry that it finds in its cell. -/
  | take (key : Key) (cell : CellId) (e : Entry) (hf : f.stage = .waiting key cell)
      (he : c.entryOf? cell = some e) :
      Move w others c f ⟨f.location, .finished (.ok e)⟩ c
  /-- The fetch begins to load into its empty cell. -/
  | begin (key : Key) (cell : CellId) (g : Fetch) (hf : f.stage = .waiting key cell)
      (empty : c.entryOf? cell = none) (free : ∀ o ∈ others, o.loading? ≠ some cell)
      (hg : g.Loads key cell) :
      Move w others c f g c
  /-- The fetch goes on loading, and may learn of documentation. -/
  | advance (key : Key) (cell : CellId) (g : Fetch) (documentation : Documentation.Registry)
      (hf : f.Loads key cell) (hg : g.Loads key cell) :
      Move w others c f g { c with documentation }
  /-- The fetch fills its cell. -/
  | fill (key : Key) (cell : CellId) (path : Path) (provider : Documentation.Provider)
      (hf : f.Loads key cell) (stage : f.stage = .documenting key cell path (.done provider)) :
      Move w others c f ⟨f.location, .finished (.ok (c.fill cell path provider).1)⟩
        (c.fill cell path provider).2
  /-- The fetch finds no module, and stops tracking its key unless the cell is held by another
  one. -/
  | fail (key : Key) (cell : CellId) (e : Error) (hf : f.Loads key cell) :
      Move w others c f ⟨f.location, .finished (.error e)⟩
        (if others.any (fun o => o.held? == some cell) then c else c.forget key cell)

theorem loads_beginLoading (cwd : Path) (c : Cache) (location : String) (key : Key)
    (cell : CellId) :
    Loads ⟨location, beginLoading cwd c location key cell⟩ key cell := by
  simp only [beginLoading]
  split
  · exact ⟨rfl, rfl⟩
  · exact ⟨rfl, rfl⟩

theorem move_step (w : World) (others : List Fetch) (c : Cache) (f : Fetch) :
    f.Move w others c (f.step w others c).1 (f.step w others c).2 := by
  obtain ⟨location, stage⟩ := f
  cases stage with
  | arriving =>
      simp only [step]
      split
      · next e h => exact .reject e rfl h
      · next key h => exact .obtain key rfl h
  | waiting key cell =>
      simp only [step]
      split
      · next e h => exact .take key cell e rfl h
      · next h =>
          split
          · exact .idle (.inr ⟨key, cell, rfl, h⟩)
          · next hfree =>
              refine .begin key cell _ rfl h (fun o ho hl => hfree ?_)
                (loads_beginLoading _ c location key cell)
              exact List.any_eq_true.mpr ⟨o, ho, by simpa using hl⟩
  | searching key cell candidates =>
      cases candidates with
      | nil => exact .fail key cell _ ⟨rfl, rfl⟩
      | cons path rest =>
          simp only [step]
          split
          · exact .advance key cell _ c.documentation ⟨rfl, rfl⟩ ⟨rfl, rfl⟩
          · exact .advance key cell _ c.documentation ⟨rfl, rfl⟩ ⟨rfl, rfl⟩
  | examining key cell path =>
      simp only [step]
      split
      · exact .advance key cell _ c.documentation ⟨rfl, rfl⟩ ⟨rfl, rfl⟩
      · exact .fail key cell _ ⟨rfl, rfl⟩
      · exact .fail key cell _ ⟨rfl, rfl⟩
      · exact .fail key cell _ ⟨rfl, rfl⟩
  | documenting key cell path search =>
      cases search with
      | done provider => exact .fill key cell path provider ⟨rfl, rfl⟩ rfl
      | asking | probing | choosing => exact .advance key cell _ _ ⟨rfl, rfl⟩ ⟨rfl, rfl⟩
  | finished result => exact .idle (.inl rfl)

/-- A fetch that is over does not move any more. -/
theorem Move.eq_of_result? {w : World} {others : List Fetch} {c d : Cache} {f g : Fetch}
    (h : f.Move w others c g d) {result : Except Error Entry} (hf : f.result? = some result) :
    g = f := by
  cases h with
  | idle => rfl
  | reject _ hstage | obtain _ hstage | take _ _ _ hstage | begin _ _ _ hstage =>
      simp [result?, hstage] at hf
  | advance _ _ _ _ hl | fill _ _ _ _ hl | fail _ _ _ hl =>
      rw [result?_of_holding hl.1] at hf
      cases hf

/-- A fetch holds its cell until it is over. -/
theorem Move.holding? {w : World} {others : List Fetch} {c d : Cache} {f g : Fetch}
    (h : f.Move w others c g d) {held : Key × CellId} (hf : f.holding? = some held)
    (hg : g.result? = none) : g.holding? = some held := by
  cases h with
  | idle => exact hf
  | reject | take | fill | fail => cases hg
  | obtain _ hstage => simp [Fetch.holding?, hstage] at hf
  | begin key cell _ hstage _ _ hl =>
      rw [hl.1, ← hf]
      simp [Fetch.holding?, hstage]
  | advance key cell _ _ hl hl' => rw [hl'.1, ← hl.1, hf]

end Fetch

/-! ## The invariant -/

namespace Cache

/-- What a cache and the fetches in flight rely on. -/
structure Sound (c : Cache) (flight : List Fetch) : Prop where
  /-- The cell that a fetch holds is the cell of its key. -/
  held : ∀ f ∈ flight, ∀ key cell, f.holding? = some (key, cell) →
    c.cells.lookup key = some cell
  /-- A cell is empty while a fetch loads into it. -/
  empty : ∀ f ∈ flight, ∀ cell, f.loading? = some cell → c.entryOf? cell = none
  /-- One fetch at a time loads into a cell. -/
  once : flight.Pairwise fun f g => ∀ cell, f.loading? = some cell → g.loading? ≠ some cell

theorem sound_nil (c : Cache) : c.Sound [] := ⟨nofun, nofun, .nil⟩

theorem Sound.perm {c : Cache} {flight flight' : List Fetch} (h : c.Sound flight)
    (perm : flight.Perm flight') : c.Sound flight' := by
  constructor
  · exact fun f hf => h.held f (perm.mem_iff.mpr hf)
  · exact fun f hf => h.empty f (perm.mem_iff.mpr hf)
  · -- loading into different cells is symmetric, so the order does not matter
    refine (perm.pairwise_iff ?_).mp h.once
    intro f g hfg cell hg hf
    exact hfg cell hf hg

theorem Sound.sublist {c : Cache} {flight flight' : List Fetch} (h : c.Sound flight)
    (hsub : flight'.Sublist flight) : c.Sound flight' :=
  ⟨fun f hf => h.held f (hsub.subset hf), fun f hf => h.empty f (hsub.subset hf),
    h.once.sublist hsub⟩

theorem Sound.tail {c : Cache} {f : Fetch} {others : List Fetch} (h : c.Sound (f :: others)) :
    c.Sound others :=
  h.sublist (List.sublist_cons_self f others)

/-- A fetch comes to fetches in flight without harm if it holds a cell of its key, and loads
into no cell that is filled or being loaded. -/
theorem Sound.cons {c : Cache} {g : Fetch} {others : List Fetch} (h : c.Sound others)
    (held : ∀ key cell, g.holding? = some (key, cell) → c.cells.lookup key = some cell)
    (loading : ∀ cell, g.loading? = some cell →
      c.entryOf? cell = none ∧ ∀ o ∈ others, o.loading? ≠ some cell) :
    c.Sound (g :: others) := by
  constructor
  · intro f hf
    rcases List.mem_cons.mp hf with rfl | hmem
    · exact held
    · exact h.held f hmem
  · intro f hf
    rcases List.mem_cons.mp hf with rfl | hmem
    · exact fun cell hl => (loading cell hl).1
    · exact h.empty f hmem
  · rw [List.pairwise_cons]
    exact ⟨fun o ho cell hg => (loading cell hg).2 o ho, h.once⟩

/-- A fetch that holds nothing never does harm. -/
theorem Sound.cons_idle {c : Cache} {g : Fetch} {others : List Fetch} (h : c.Sound others)
    (idle : g.holding? = none) (unloading : g.loading? = none) : c.Sound (g :: others) :=
  h.cons (fun _ _ hg => by rw [idle] at hg; cases hg) fun _ hg => by
    rw [unloading] at hg; cases hg

/-- The invariant goes over to a cache that has kept the cells that are held, and filled none
that is being loaded. -/
theorem Sound.keep {c d : Cache} {flight : List Fetch} (h : c.Sound flight)
    (held : ∀ f ∈ flight, ∀ key cell, f.holding? = some (key, cell) →
      c.cells.lookup key = some cell → d.cells.lookup key = some cell)
    (empty : ∀ f ∈ flight, ∀ cell, f.loading? = some cell →
      c.entryOf? cell = none → d.entryOf? cell = none) : d.Sound flight :=
  ⟨fun f hf key cell hh => held f hf key cell hh (h.held f hf key cell hh),
    fun f hf cell hl => empty f hf cell hl (h.empty f hf cell hl), h.once⟩

/-- Every step of a fetch keeps the invariant. -/
theorem Sound.move {w : World} {others : List Fetch} {c d : Cache} {f g : Fetch}
    (hs : c.Sound (f :: others)) (h : f.Move w others c g d) : d.Sound (g :: others) := by
  have hothers := hs.tail
  have hheld := hs.held f List.mem_cons_self
  have hempty := hs.empty f List.mem_cons_self
  have honce := (List.pairwise_cons.mp hs.once).1
  cases h with
  | idle => exact hs
  | reject | take => exact hothers.cons_idle rfl rfl
  | obtain key hf hkey =>
      refine (hothers.keep ?_ ?_).cons (fun key' cell hg => ?_) nofun
      · exact fun o _ k cell _ hk => lookup_obtain_of_some key hk
      · exact fun o _ cell _ he => by rw [entryOf?_obtain, he]
      · cases hg
        exact lookup_obtain c key
  | begin key cell _ hf empty free hg =>
      refine hothers.cons (fun key' cell' hh => ?_) fun cell' hl => ?_
      · rw [hg.1] at hh
        cases hh
        exact hheld key cell (by simp [Fetch.holding?, hf])
      · rw [hg.2] at hl
        cases hl
        exact ⟨empty, free⟩
  | advance key cell _ documentation hf hg =>
      have hkept : Sound { c with documentation } others :=
        ⟨hothers.held, hothers.empty, hothers.once⟩
      refine hkept.cons (fun key' cell' hh => ?_) fun cell' hl => ?_
      · rw [hg.1, ← hf.1] at hh
        exact hheld key' cell' hh
      · rw [hg.2, ← hf.2] at hl
        exact ⟨hempty cell' hl, fun o ho => honce o ho cell' hl⟩
  | fill key cell path provider hf =>
      have hkept : (c.fill cell path provider).2.Sound others := by
        refine hothers.keep (fun _ _ _ _ _ hk => hk) fun o ho cell' hl he => ?_
        have hne : cell' ≠ cell := fun h => honce o ho cell hf.2 (h ▸ hl)
        rw [entryOf?_fill_of_ne hne, he]
      exact hkept.cons_idle rfl rfl
  | fail key cell e hf =>
      refine Sound.cons_idle ?_ rfl rfl
      split
      · exact hothers
      · next hfree =>
          refine hothers.keep (fun o ho k cell' hh hk => ?_) fun o _ cell' _ he => by
            rw [entryOf?_forget, he]
          -- whoever holds a cell of the key holds the cell that is given up, and no one does
          have hne : k ≠ key := by
            intro hkey
            rw [hkey, hheld key cell hf.1] at hk
            refine hfree (List.any_eq_true.mpr ⟨o, ho, ?_⟩)
            rw [Fetch.held?_eq, hh, Option.some.inj hk]
            simp
          rw [lookup_forget_of_ne hne, hk]

/-! ## Entries stay -/

/-- Every entry that a cache gives for a key, another one gives too. -/
def Keeps (c d : Cache) : Prop := ∀ key e, c.entryAt? key = some e → d.entryAt? key = some e

theorem Keeps.refl (c : Cache) : c.Keeps c := fun _ _ he => he

theorem Keeps.trans {c d d' : Cache} (h : c.Keeps d) (h' : d.Keeps d') : c.Keeps d' :=
  fun key e he => h' key e (h key e he)

/-- No step of a fetch loses an entry. -/
theorem Sound.keeps {w : World} {others : List Fetch} {c d : Cache} {f g : Fetch}
    (hs : c.Sound (f :: others)) (h : f.Move w others c g d) : c.Keeps d := by
  intro key e he
  obtain ⟨cell, hcell, hentry⟩ := entryAt?_eq_some_iff.mp he
  refine entryAt?_eq_some_iff.mpr ⟨cell, ?_⟩
  cases h with
  | idle | reject | take | begin | advance => exact ⟨hcell, hentry⟩
  | obtain key' => exact ⟨lookup_obtain_of_some key' hcell, by rw [entryOf?_obtain, hentry]⟩
  | fill key' cell' path provider hf =>
      have hne : cell ≠ cell' := by
        rintro rfl
        rw [hs.empty f List.mem_cons_self cell hf.2] at hentry
        cases hentry
      exact ⟨hcell, by rw [entryOf?_fill_of_ne hne, hentry]⟩
  | fail key' cell' =>
      split
      · exact ⟨hcell, hentry⟩
      · exact ⟨lookup_forget_of_filled hcell hentry key' cell', by rw [entryOf?_forget, hentry]⟩

/-- A fetch that comes to an entry has held the cell of a key, and leaves the entry there. -/
theorem Sound.entryAt?_of_ok {w : World} {others : List Fetch} {c d : Cache} {f g : Fetch}
    (hs : c.Sound (f :: others)) (h : f.Move w others c g d) {e : Entry}
    (hnew : f.result? = none) (hg : g.result? = some (.ok e)) :
    ∃ key cell, f.holding? = some (key, cell) ∧ d.entryAt? key = some e := by
  have hheld := hs.held f List.mem_cons_self
  cases h with
  | idle => rw [hnew] at hg; cases hg
  | reject | obtain | fail => cases hg
  | take key cell e' hf he =>
      cases hg
      have hh : f.holding? = some (key, cell) := by simp [Fetch.holding?, hf]
      exact ⟨key, cell, hh, entryAt?_eq_some_iff.mpr ⟨cell, hheld key cell hh, he⟩⟩
  | begin key cell _ hf empty free hl | advance key cell _ _ hf hl =>
      rw [Fetch.result?_of_holding hl.1] at hg
      cases hg
  | fill key cell path provider hf =>
      cases hg
      exact ⟨key, cell, hf.1, entryAt?_eq_some_iff.mpr
        ⟨cell, hheld key cell hf.1, entryOf?_fill_self c cell path provider⟩⟩

/-- Once a key has an entry, a fetch that holds a cell of the key takes this entry in its next
step. -/
theorem Sound.result_of_entryAt? {w : World} {others : List Fetch} {c d : Cache} {f g : Fetch}
    (hs : c.Sound (f :: others)) (h : f.Move w others c g d) {key : Key} {cell : CellId}
    {e : Entry} (hf : f.holding? = some (key, cell)) (he : c.entryAt? key = some e) :
    g.result? = some (.ok e) := by
  obtain ⟨cell', hcell, hentry⟩ := entryAt?_eq_some_iff.mp he
  rw [hs.held f List.mem_cons_self key cell hf] at hcell
  cases hcell
  -- the cell is filled, so the fetch is not loading
  have hloads : ∀ key' cell', ¬ f.Loads key' cell' := by
    rintro key' cell' ⟨hh, hl⟩
    rw [hf] at hh
    cases hh
    rw [hs.empty f List.mem_cons_self cell hl] at hentry
    cases hentry
  -- and if it waits, then for this cell
  have hwaits : ∀ key' cell', f.stage = .waiting key' cell' → c.entryOf? cell' = some e := by
    intro key' cell' hstage
    simp only [Fetch.holding?, hstage, Option.some.injEq, Prod.mk.injEq] at hf
    rw [hf.2, hentry]
  cases h with
  | idle hidle =>
      rcases hidle with hdone | ⟨key', cell', hstage, hempty⟩
      · rw [Fetch.result?_of_holding hf] at hdone
        cases hdone
      · rw [hwaits key' cell' hstage] at hempty
        cases hempty
  | reject _ hstage | obtain _ hstage => simp [Fetch.holding?, hstage] at hf
  | take key' cell' e' hstage he' =>
      rw [hwaits key' cell' hstage] at he'
      rw [← Option.some.inj he']
      rfl
  | begin key' cell' _ hstage hempty =>
      rw [hwaits key' cell' hstage] at hempty
      cases hempty
  | advance key' cell' _ _ hf' | fill key' cell' _ _ hf' | fail key' cell' _ hf' =>
      exact absurd hf' (hloads key' cell')

end Cache

/-! ## Running alone -/

theorem Fetch.finish_of_result? {w : World} {c : Cache} {f : Fetch} {result : Except Error Entry}
    (h : f.result? = some result) : Fetch.finish w c f = (result, c) := by
  rw [Fetch.finish]
  split
  · next result' h' =>
      rw [h] at h'
      rw [Option.some.inj h']
  · next h' => rw [h] at h'; cases h'

theorem Fetch.finish_step {w : World} {c d : Cache} {f g : Fetch} (hf : f.result? = none)
    (h : f.step w [] c = (g, d)) : Fetch.finish w c f = Fetch.finish w d g := by
  rw [Fetch.finish]
  split
  · next h' => rw [hf] at h'; cases h'
  · simp only [h]

/-- A location whose key has an entry resolves to it, and the cache stays as it is. -/
theorem Cache.resolve_of_entryAt? {w : World} {c : Cache} {location : String} {key : Key}
    {e : Entry} (hkey : Key.normalize w.directory location = .ok key)
    (he : c.entryAt? key = some e) : c.resolve w location = (.ok e, c) := by
  obtain ⟨cell, hcell, hentry⟩ := Cache.entryAt?_eq_some_iff.mp he
  have hobtain : (Fetch.start location).step w [] c = (⟨location, .waiting key cell⟩, c) := by
    simp [Fetch.step, Fetch.start, hkey, Cache.obtain, hcell]
  have htake : Fetch.step w [] c ⟨location, .waiting key cell⟩
      = (⟨location, .finished (.ok e)⟩, c) := by
    simp [Fetch.step, hentry]
  calc c.resolve w location
      = Fetch.finish w c ⟨location, .waiting key cell⟩ := Fetch.finish_step rfl hobtain
    _ = Fetch.finish w c ⟨location, .finished (.ok e)⟩ := Fetch.finish_step rfl htake
    _ = (.ok e, c) := Fetch.finish_of_result? rfl

/-! ## Entries of locations -/

section Locations

variable {c : Cache} {cwd : Path} {location : String} {key : Key} {e : Entry}

theorem Cache.get?_of_key (hkey : Key.normalize cwd location = .ok key) :
    c.get? cwd location = c.entryAt? key := by
  simp only [Cache.get?, hkey]

theorem Cache.get?_of_entryAt? (hkey : Key.normalize cwd location = .ok key)
    (he : c.entryAt? key = some e) : c.get? cwd location = some e :=
  (Cache.get?_of_key hkey).trans he

theorem Cache.get?_eq_some_iff : c.get? cwd location = some e ↔
    ∃ key, Key.normalize cwd location = .ok key ∧ c.entryAt? key = some e := by
  unfold Cache.get?
  split
  · next hkey => simp [hkey]
  · next key hkey => simp [hkey]

end Locations

end ScriptSessions.Reference
