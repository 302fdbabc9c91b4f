import ScriptSessions.Documentation.Provider
import ScriptSessions.Proofs.Routes
import ScriptSessions.Proofs.Session.Locations

set_option autoImplicit false

/-! # The spellings of one place

A location that holds a slash is a path, and both keys that are made of it, the one under which its
module is kept and the one under which the documentation of the module is kept, are made of the
names on the way to the place (`Reference.shareKeys_of_names`). So they do not tell apart two
routes that can be shortened to a common one, and nothing that can be done to a spelling without
changing where it leads changes a key.
-/

namespace ScriptSessions.Reference

/-- Two locations share the key of their module and the key of its documentation. -/
structure ShareKeys (cwd : Path) (l l' : String) : Prop where
  module : ∃ key, Key.normalize cwd l = .ok key ∧ Key.normalize cwd l' = .ok key
  documentation : Documentation.key cwd ⟨l⟩ = Documentation.key cwd ⟨l'⟩

/-- A location that is a path and has no blank at either end. -/
structure IsPathLocation (l : String) : Prop where
  trimmed : Text.IsTrimmed l
  slash : '/' ∈ l.toList

theorem IsPathLocation.normalize {l : String} (h : IsPathLocation l) (cwd : Path) :
    Key.normalize cwd l = .ok (.ofNames (Path.names cwd ⟨l⟩)) := by
  have hspelled : isBareName l = false := by simp [isBareName, h.slash]
  refine Key.normalize_eq_ok_iff.mpr ?_
  rw [Text.trim_eq_self h.trimmed, hspelled]
  exact ⟨Resolver.ne_empty_of_not_bare hspelled, rfl⟩

theorem IsPathLocation.ne_empty {l : String} (h : IsPathLocation l) : l ≠ "" := by
  rintro rfl
  exact List.not_mem_nil h.slash

/-- Only the names on the way to a place go into its keys. -/
theorem shareKeys_of_names {cwd : Path} {l l' : String} (h : IsPathLocation l)
    (h' : IsPathLocation l') (names : Path.names cwd ⟨l⟩ = Path.names cwd ⟨l'⟩) :
    ShareKeys cwd l l' := by
  constructor
  · exact ⟨_, h.normalize cwd, names ▸ h'.normalize cwd⟩
  · rw [Documentation.key, Documentation.key, if_neg h.ne_empty, if_neg h'.ne_empty, names]

/-- **All spellings of one place share their keys.** Two locations that are paths share both keys if
their routes from the root can be shortened to a common one, and so they do if one is made from the
other by inserting `.` or a name and `..`, by doubling slashes, by a slash at the end, by writing it
from the root, or by undoing any of these. The collapsed form of a path is what is left of its
absolute form; every path but the empty one has one, which is plain and its own collapsed form. -/
theorem spellings_share_keys {cwd : Path} (absolute : cwd.isAbsolute = true) :
    (∀ l l', IsPathLocation l → IsPathLocation l' →
      (Path.SamePlace (Path.route cwd ⟨l⟩) (Path.route cwd ⟨l'⟩) → ShareKeys cwd l l') ∧
      (Relation.EqvGen (Path.Respelled cwd) l l' → ShareKeys cwd l l')) ∧
    ∀ p, (Path.collapsed? cwd p = none ↔ p.text = "") ∧
      Path.collapsed? cwd p
        = (Path.absolute? cwd p).map (fun a => Path.ofNames (Path.place a.segments)) ∧
      ∀ q, Path.collapsed? cwd p = some q →
        q.IsPlain ∧ ∀ cwd', Path.collapsed? cwd' q = some q := by
  have hshare {l l' : String} (h : IsPathLocation l) (h' : IsPathLocation l')
      (same : Path.SamePlace (Path.route cwd ⟨l⟩) (Path.route cwd ⟨l'⟩)) : ShareKeys cwd l l' :=
    shareKeys_of_names h h' (Path.samePlace_route_iff.mp same)
  refine ⟨fun l l' h h' => ⟨hshare h h', fun respelled => ?_⟩, fun p => ⟨?_, ?_, fun q hq => ?_⟩⟩
  · exact hshare h h' (Path.samePlace_of_respelled absolute respelled)
  · by_cases hp : p.text = ""
    · simp [Path.collapsed?, hp]
    · simp [Path.collapsed?, hp]
  · exact Path.collapsed?_eq_map_absolute? absolute p
  · exact Path.collapsed?_collapsed hq

/-- Two ways to the file `lib/A.dll`, and a step from the one to the other. -/
theorem detour_shares_keys :
    ShareKeys ⟨"/work"⟩ "../work/./lib//A.dll" "/work/sub/../lib/A.dll" ∧
    ShareKeys ⟨"/work"⟩ "lib/A.dll" "lib/sub/../A.dll" := by
  have habsolute : Path.isAbsolute ⟨"/work"⟩ = true := rfl
  have hshare := (spellings_share_keys habsolute).1
  have htrimmed (l : String) (h : Text.trim l = l) : Text.IsTrimmed l := h ▸ Text.isTrimmed_trim l
  constructor
  · refine (hshare _ _ ⟨htrimmed _ (by decide), by decide⟩
      ⟨htrimmed _ (by decide), by decide⟩).1 ?_
    exact Path.samePlace_iff.mpr (by decide)
  · refine (hshare _ _ ⟨htrimmed _ (by decide), by decide⟩
      ⟨htrimmed _ (by decide), by decide⟩).2 ?_
    have hname : Path.IsName "sub" := ⟨by decide, by decide, by decide, by decide⟩
    exact .rel _ _ (.detour "lib/" "A.dll" (.inl ⟨"lib", by decide⟩) hname)

end ScriptSessions.Reference
