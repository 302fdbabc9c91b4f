import Mathlib.Data.List.Nodup
import ScriptSessions.Proofs.Reference.Cells

set_option autoImplicit false

/-! # Which entry belongs to which key

A cache gives out the identities of its cells and of its entries in order, and uses none twice
(`Cache.Tidy`). An entry therefore belongs to one key, and two known entries are made of the same
objects only if they are the same entry (`Tidy.sameAs_iff`): comparing entries is comparing keys.

Of all that a fetch can do, only the last step of loading changes which entry a key has, and it
gives one key an entry (`Sound.entryAt?_move`).
-/

namespace ScriptSessions.Reference

namespace Cache

/-- Whether a cache gives an entry for some key. -/
def Knows (c : Cache) (e : Entry) : Prop := ∃ key, c.entryAt? key = some e

theorem Knows.keeps {c d : Cache} {e : Entry} (h : c.Knows e) (hcd : c.Keeps d) : d.Knows e := by
  obtain ⟨key, he⟩ := h
  exact ⟨key, hcd key e he⟩

/-! ## Identities -/

/-- The identities of cells and entries are below the next ones, and none is used twice. -/
structure Tidy (c : Cache) : Prop where
  cells_lt : ∀ p ∈ c.cells, p.2 < c.nextCell
  cells_nodup : (c.cells.map Prod.snd).Nodup
  filled_lt : ∀ p ∈ c.filled, p.1 < c.nextCell
  entries_lt : ∀ p ∈ c.filled, p.2.id < c.nextEntry
  entries_nodup : (c.filled.map fun p => p.2.id).Nodup

theorem tidy_new (searchDirectories : List Path) (documentation : Documentation.Registry) :
    (new searchDirectories documentation).Tidy :=
  ⟨nofun, .nil, nofun, nofun, .nil⟩

namespace Tidy

variable {c : Cache}

theorem obtain (h : c.Tidy) (key : Key) : (c.obtain key).2.Tidy := by
  unfold Cache.obtain
  split
  · exact h
  · constructor
    · intro p hp
      rcases List.mem_append.mp hp with hold | hnew
      · exact Nat.lt_succ_of_lt (h.cells_lt p hold)
      · rw [List.mem_singleton.mp hnew]
        exact Nat.lt_succ_self _
    · rw [List.map_append, List.map_singleton, List.nodup_append]
      refine ⟨h.cells_nodup, List.nodup_singleton _, ?_⟩
      rintro a ha b hb rfl
      -- a cell that is there already is below the new one
      obtain ⟨p, hp, rfl⟩ := List.mem_map.mp ha
      rw [List.mem_singleton] at hb
      exact Nat.ne_of_lt (h.cells_lt p hp) hb
    · exact fun p hp => Nat.lt_succ_of_lt (h.filled_lt p hp)
    · exact h.entries_lt
    · exact h.entries_nodup

theorem fill (h : c.Tidy) {cell : CellId} (hcell : cell < c.nextCell) (path : Path)
    (provider : Documentation.Provider) : (c.fill cell path provider).2.Tidy := by
  refine ⟨h.cells_lt, h.cells_nodup, ?_, ?_, ?_⟩
  · intro p hp
    rcases List.mem_cons.mp hp with rfl | hold
    · exact hcell
    · exact h.filled_lt p hold
  · intro p hp
    rcases List.mem_cons.mp hp with rfl | hold
    · exact Nat.lt_succ_self _
    · exact Nat.lt_succ_of_lt (h.entries_lt p hold)
  · refine List.nodup_cons.mpr ⟨?_, h.entries_nodup⟩
    intro hmem
    obtain ⟨p, hp, hid⟩ := List.mem_map.mp hmem
    exact Nat.ne_of_lt (h.entries_lt p hp) hid

theorem forget (h : c.Tidy) (key : Key) (cell : CellId) : (c.forget key cell).Tidy := by
  unfold Cache.forget
  split
  · have hsub := List.filter_sublist (l := c.cells) (p := fun p => p.1 != key)
    exact ⟨fun p hp => h.cells_lt p (hsub.subset hp), h.cells_nodup.sublist (hsub.map _),
      h.filled_lt, h.entries_lt, h.entries_nodup⟩
  · exact h

/-- The identities stay in order whatever a fetch does. -/
theorem move {w : World} {others : List Fetch} {d : Cache} {f g : Fetch} (h : c.Tidy)
    (hs : c.Sound (f :: others)) (hmove : f.Move w others c g d) : d.Tidy := by
  cases hmove with
  | idle | reject | take | begin => exact h
  | obtain key => exact h.obtain key
  | advance =>
      exact ⟨h.cells_lt, h.cells_nodup, h.filled_lt, h.entries_lt, h.entries_nodup⟩
  | fill key cell path provider hf =>
      have hcell := mem_of_lookup (hs.held f List.mem_cons_self key cell hf.1)
      exact h.fill (h.cells_lt _ hcell) path provider
  | fail key cell =>
      split
      · exact h
      · exact h.forget key cell

/-- A cell belongs to one key. -/
theorem key_of_cell (h : c.Tidy) {key key' : Key} {cell : CellId}
    (hkey : c.cells.lookup key = some cell) (hkey' : c.cells.lookup key' = some cell) :
    key = key' :=
  congrArg Prod.fst
    (List.inj_on_of_nodup_map h.cells_nodup (mem_of_lookup hkey) (mem_of_lookup hkey') rfl)

/-- Entries with one identity are one entry, and belong to one key. -/
theorem eq_of_id (h : c.Tidy) {key key' : Key} {e e' : Entry} (he : c.entryAt? key = some e)
    (he' : c.entryAt? key' = some e') (hid : e.id = e'.id) : key = key' ∧ e = e' := by
  obtain ⟨cell, hcell, hentry⟩ := entryAt?_eq_some_iff.mp he
  obtain ⟨cell', hcell', hentry'⟩ := entryAt?_eq_some_iff.mp he'
  have hpair : (cell, e) = (cell', e') :=
    List.inj_on_of_nodup_map h.entries_nodup (mem_of_lookup hentry) (mem_of_lookup hentry') hid
  cases hpair
  exact ⟨h.key_of_cell hcell hcell', rfl⟩

/-- Known entries are made of the same objects only if they are the same entry. -/
theorem sameAs_iff (h : c.Tidy) {e e' : Entry} (he : c.Knows e) (he' : c.Knows e') :
    e.sameAs e' = true ↔ e = e' := by
  obtain ⟨key, hkey⟩ := he
  obtain ⟨key', hkey'⟩ := he'
  constructor
  · intro hsame
    have hid : e.id = e'.id := by
      simp only [Entry.sameAs, Bool.and_eq_true, beq_iff_eq] at hsame
      exact hsame.1
    exact (h.eq_of_id hkey hkey' hid).2
  · rintro rfl
    exact e.sameAs_refl

/-- Known entries are compared by their keys. -/
theorem sameAs_eq (h : c.Tidy) {key key' : Key} {e e' : Entry} (he : c.entryAt? key = some e)
    (he' : c.entryAt? key' = some e') : e.sameAs e' = (key == key') := by
  rw [Bool.eq_iff_iff, h.sameAs_iff ⟨key, he⟩ ⟨key', he'⟩, beq_iff_eq]
  constructor
  · rintro rfl
    exact (h.eq_of_id he he' rfl).1
  · rintro rfl
    rw [he] at he'
    exact Option.some.inj he'

end Tidy

/-! ## What changes the entry of a key -/

theorem entryAt?_obtain {c : Cache} (tidy : c.Tidy) (key k : Key) :
    (c.obtain key).2.entryAt? k = c.entryAt? k := by
  unfold obtain
  split
  · rfl
  · next hnone =>
      show ((c.cells ++ [(key, c.nextCell)]).lookup k).bind c.entryOf? = c.entryAt? k
      rw [List.lookup_append, entryAt?]
      by_cases hk : k = key
      · -- the fresh cell of the key has never been filled
        have hempty : c.entryOf? c.nextCell = none := by
          refine List.lookup_eq_none_iff.mpr fun p hp => ?_
          have hlt := tidy.filled_lt p hp
          simpa using (Nat.ne_of_lt hlt).symm
        rw [hk, hnone, Option.none_or, List.lookup_cons_self, Option.bind_some, hempty,
          Option.bind_none]
      · have hne : (k == key) = false := by simpa using hk
        rw [List.lookup_cons, hne, List.lookup_nil, Option.or_none]

theorem entryAt?_forget (c : Cache) (key : Key) (cell : CellId) (k : Key) :
    (c.forget key cell).entryAt? k = c.entryAt? k := by
  by_cases hk : k = key
  · subst hk
    unfold forget
    split
    · next h =>
        have hgone : (c.cells.filter fun p => p.1 != k).lookup k = none := by
          refine List.lookup_eq_none_iff.mpr fun p hp => ?_
          have hne := (List.mem_filter.mp hp).2
          rw [bne_iff_ne] at hne
          simpa using hne.symm
        rw [entryAt?, hgone, entryAt?, h.1, Option.bind_none, Option.bind_some, h.2]
    · rfl
  · rw [entryAt?, lookup_forget_of_ne hk, entryAt?]
    exact congrArg _ (funext fun cell' => entryOf?_forget c key cell cell')

theorem entryAt?_fill {c : Cache} (tidy : c.Tidy) {key : Key} {cell : CellId}
    (hcell : c.cells.lookup key = some cell) (path : Path) (provider : Documentation.Provider)
    (k : Key) : (c.fill cell path provider).2.entryAt? k
      = if k = key then some (c.fill cell path provider).1 else c.entryAt? k := by
  have hcells : (c.fill cell path provider).2.cells = c.cells := rfl
  split
  · next hk => rw [entryAt?, hcells, hk, hcell, Option.bind_some, entryOf?_fill_self]
  · next hk =>
      rw [entryAt?, hcells, entryAt?]
      cases hother : c.cells.lookup k with
      | none => rfl
      | some cell' =>
          have hne : cell' ≠ cell := by
            rintro rfl
            exact hk (tidy.key_of_cell hother hcell)
          rw [Option.bind_some, Option.bind_some, entryOf?_fill_of_ne hne]

/-- A fetch gives at most one key an entry, when it has found the module and its
documentation. -/
theorem Sound.entryAt?_move {w : World} {others : List Fetch} {c d : Cache} {f g : Fetch}
    (hs : c.Sound (f :: others)) (tidy : c.Tidy) (hmove : f.Move w others c g d) :
    (∀ k, d.entryAt? k = c.entryAt? k) ∨
      ∃ key cell path provider, f.stage = .documenting key cell path (.done provider) ∧
        ∀ k, d.entryAt? k
          = if k = key then some ⟨c.nextEntry, .ofPath path, provider⟩ else c.entryAt? k := by
  cases hmove with
  | idle | reject | take | begin | advance => exact .inl fun _ => rfl
  | obtain key => exact .inl (entryAt?_obtain tidy key)
  | fill key cell path provider hf stage =>
      exact .inr ⟨key, cell, path, provider, stage,
        entryAt?_fill tidy (hs.held f List.mem_cons_self key cell hf.1) path provider⟩
  | fail key cell =>
      refine .inl fun k => ?_
      split
      · rfl
      · exact entryAt?_forget c key cell k

end Cache

end ScriptSessions.Reference
