import ScriptSessions.Proofs.Reference.Origin

set_option autoImplicit false

/-! # What resolving gives, while no file changes

Beside one state of the disk the cache works like a table. A location whose key has an entry
resolves to that entry, and nothing changes (`Cache.resolve_of_entryAt?`). Any other location
resolves to the module to which it leads, or fails as it would without a cache
(`Cache.Regular.map_path_resolve`), and no other key is touched (`Cache.Regular.entryAt?_resolve`).

The table is indexed by keys, and looked for is the location as it is spelled. So the answer to a
location depends on what was asked for before, unless the location is `Undisputed`.
-/

namespace ScriptSessions.Reference

variable {w : World} {dirs : List Path} {asked : String → Prop} {location : String}

/-- What comes of a location has nothing to do with what else is asked for. -/
theorem Setting.Locates.asking {r : Except Error Path}
    (h : (Setting.only w dirs asked).Locates location r) (asked' : String → Prop) :
    (Setting.only w dirs asked').Locates location r := by
  cases h with
  | keyless e hkey => exact .keyless e hkey
  | found key hkey bare before d after split passed w' hw file =>
      exact .found (S := .only w dirs asked') key hkey bare before d after split passed w' hw file
  | lost key hkey bare passed => exact .lost key hkey bare passed
  | examined key hkey spelled w' hw =>
      exact .examined (S := .only w dirs asked') key hkey spelled w' hw

namespace Cache

variable {c : Cache} {key : Key}

/-- The entries of a regular cache come from the locations whose keys have entries. So these, and
any further one, are all that need ever have been asked for. -/
theorem Regular.narrow (h : c.Regular (.only w dirs asked) []) (location : String) :
    c.Regular (.only w dirs fun other =>
      other = location ∨ ∃ e, c.get? w.directory other = some e) [] := by
  have htraced := h.traced (Setting.still_only _ _ _)
  refine ⟨h.sound, h.tidy, nofun, fun _ => ⟨htraced.searchDirectories, nofun, nofun, ?_⟩⟩
  intro key e he
  obtain ⟨other, -, hkey, hlocates⟩ := htraced.origin key e he
  exact ⟨other, .inr ⟨e, get?_eq_some_iff.mpr ⟨key, hkey, he⟩⟩, hkey, hlocates.asking _⟩

/-- A location whose key has no entry resolves to the module to which it leads. -/
theorem Regular.map_path_resolve (h : c.Regular (.only w dirs asked) [])
    (fresh : c.get? w.directory location = none) :
    (c.resolve w location).1.map Entry.path = locateModule w dirs location := by
  have hsettled := (h.narrow location).resolve (w := w) rfl (.inl rfl)
  have htrack := hsettled.onTrack (Setting.still_only _ _ _)
  generalize c.resolve w location = r at *
  obtain ⟨result, d⟩ := r
  cases result with
  | error reason => exact htrack.eq_locateModule
  | ok e =>
      obtain ⟨key, hkey, he⟩ := htrack
      obtain ⟨other, hother, hkey', hlocates⟩ :=
        (hsettled.regular.traced (Setting.still_only _ _ _)).origin key e he
      rcases hother with rfl | ⟨e', he'⟩
      · exact hlocates.eq_locateModule
      · -- no other spelling of the key can have an entry
        obtain ⟨key', hk, hentry⟩ := get?_eq_some_iff.mp he'
        cases hk.symm.trans hkey'
        cases fresh.symm.trans (get?_of_entryAt? hkey hentry)

/-- Resolving a location gives no entry to any other key. -/
theorem Regular.entryAt?_resolve (h : c.Regular (.only w dirs asked) [])
    (other : Key.normalize w.directory location ≠ .ok key) :
    (c.resolve w location).2.entryAt? key = c.entryAt? key := by
  have hsettled := (h.narrow location).resolve (w := w) rfl (.inl rfl)
  cases hold : c.entryAt? key with
  | some e => exact hsettled.keeps key e hold
  | none =>
      refine Option.eq_none_iff_forall_ne_some.mpr fun e he => ?_
      -- an entry would come from the location itself, or from a key that had one
      obtain ⟨location', hlocation, hkey, -⟩ :=
        (hsettled.regular.traced (Setting.still_only _ _ _)).origin key e he
      rcases hlocation with rfl | ⟨e', he'⟩
      · exact other hkey
      · obtain ⟨key', hk, hentry⟩ := get?_eq_some_iff.mp he'
        cases hk.symm.trans hkey
        rw [hold] at hentry
        cases hentry

/-- The entry to which a location has resolved is at its key. -/
theorem Regular.entryAt?_of_resolve (h : c.Regular (.only w dirs asked) [])
    (hasked : asked location) {e : Entry} (he : (c.resolve w location).1 = .ok e) :
    ∃ key, Key.normalize w.directory location = .ok key ∧
      (c.resolve w location).2.entryAt? key = some e := by
  have htrack := (h.resolve (w := w) rfl hasked).onTrack (Setting.still_only _ _ _)
  rw [he] at htrack
  exact htrack

theorem Regular.exists_entryAt?_resolve (h : c.Regular (.only w dirs asked) [])
    (hasked : asked location) (hkey : Key.normalize w.directory location = .ok key) {p : Path}
    (hpath : (c.resolve w location).1.map Entry.path = .ok p) :
    ∃ e, (c.resolve w location).2.entryAt? key = some e ∧ e.path = p := by
  cases hresult : (c.resolve w location).1 with
  | error reason =>
      rw [hresult] at hpath
      cases hpath
  | ok e =>
      rw [hresult] at hpath
      obtain ⟨key', hkey', he⟩ := h.entryAt?_of_resolve hasked hresult
      cases hkey'.symm.trans hkey
      exact ⟨e, he, Except.ok.inj hpath⟩

end Cache

/-! ## Undisputed locations -/

/-- Whether no spelling of the key of a location that is asked for leads to another module than the
location itself. -/
def Undisputed (w : World) (searchDirectories : List Path) (asked : String → Prop)
    (location : String) : Prop :=
  ∀ other, asked other → Key.normalize w.directory other = Key.normalize w.directory location →
    ∀ p, locateModule w searchDirectories other = .ok p →
      locateModule w searchDirectories location = .ok p

/-- An undisputed location resolves to the module to which it leads, whatever the cache. -/
theorem Undisputed.map_path_resolve {c : Cache} (undisputed : Undisputed w dirs asked location)
    (h : c.Regular (.only w dirs asked) []) :
    (c.resolve w location).1.map Entry.path = locateModule w dirs location := by
  cases hget : c.get? w.directory location with
  | none => exact h.map_path_resolve hget
  | some e =>
      obtain ⟨key, hkey, he⟩ := Cache.get?_eq_some_iff.mp hget
      rw [Cache.resolve_of_entryAt? hkey he]
      -- the entry came from some spelling of the key
      obtain ⟨other, hother, hkey', hlocates⟩ :=
        (h.traced (Setting.still_only _ _ _)).origin key e he
      exact (undisputed other hother (hkey'.trans hkey.symm) e.path
        hlocates.eq_locateModule.symm).symm

end ScriptSessions.Reference
