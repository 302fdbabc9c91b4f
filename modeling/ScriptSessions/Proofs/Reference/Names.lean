import Mathlib.Data.List.TakeWhile
import ScriptSessions.Proofs.Lists
import ScriptSessions.Proofs.Path
import ScriptSessions.Reference.DefaultSet

set_option autoImplicit false

/-! # Suffixes of module names

Stripping takes away one extension and one platform suffix, no more. A name with both put behind
it is therefore what stripping gives back (`stripSuffixes_append`), whatever it looks like: every
text is the stripped form of some query. The file name of a bare name is a proper name, and gives
away the stripped name.
-/

namespace ScriptSessions

/-! ## Extensions -/

/-- A text is cut at its last dot: none comes after it. -/
theorem Path.cutAtLastDot?_eq_some_iff {cs stem ext : List Char} :
    cutAtLastDot? cs = some (stem, ext) ↔ cs = stem ++ '.' :: ext ∧ '.' ∉ ext := by
  unfold cutAtLastDot?
  dsimp only
  constructor
  · intro h
    split at h
    · cases h
    · next c front hdrop =>
        cases h
        have hc : c = '.' := by
          have hhead := List.head?_dropWhile_not (fun c : Char => c != '.') cs.reverse
          rw [hdrop] at hhead
          simpa using hhead
        constructor
        · have hreverse := congrArg List.reverse (eq_append_of_dropWhile hdrop)
          rwa [hc, List.reverse_reverse, List.reverse_append, List.reverse_cons,
            List.append_assoc, List.singleton_append] at hreverse
        · intro hmem
          simpa using List.mem_takeWhile_imp (List.mem_reverse.mp hmem)
  · rintro ⟨rfl, hext⟩
    have hrun : ∀ c ∈ ext.reverse, (c != '.') = true := by
      intro c hc
      have hne : c ≠ '.' := fun heq => hext (heq ▸ List.mem_reverse.mp hc)
      simpa using hne
    rw [List.reverse_append, List.reverse_cons, List.append_assoc, List.singleton_append,
      takeWhile_append_cons hrun (by simp), dropWhile_append_cons hrun (by simp)]
    simp

/-- Only a text without a dot is not cut. -/
theorem Path.cutAtLastDot?_eq_none_iff {cs : List Char} : cutAtLastDot? cs = none ↔ '.' ∉ cs := by
  have hdrop : cs.reverse.dropWhile (· != '.') = [] ↔ '.' ∉ cs := by
    rw [List.dropWhile_eq_nil_iff]
    constructor
    · intro h hmem
      simpa using h '.' (List.mem_reverse.mpr hmem)
    · intro h c hc
      simpa using fun heq : c = '.' => h (heq ▸ List.mem_reverse.mp hc)
  rw [← hdrop, cutAtLastDot?]
  split
  · next hnil => exact iff_of_true rfl hnil
  · next hcons =>
      refine iff_of_false (by simp) fun hnil => ?_
      rw [hnil] at hcons
      cases hcons

/-- The extension of a file name is what stands after its last dot, unless the dot comes first. -/
theorem Path.splitExtension?_eq_some_iff {name stem ext : String} :
    splitExtension? name = some (stem, ext) ↔
      name = stem ++ "." ++ ext ∧ stem ≠ "" ∧ '.' ∉ ext.toList := by
  unfold splitExtension?
  constructor
  · intro h
    split at h
    · cases h
    · cases h
    · next front back hne hcut =>
        cases h
        obtain ⟨hname, hback⟩ := cutAtLastDot?_eq_some_iff.mp hcut
        refine ⟨String.toList_inj.mp ?_, ?_, ?_⟩
        · simp [String.toList_append, hname]
        · intro hempty
          exact hne (by simpa using hempty)
        · rwa [String.toList_ofList]
  · rintro ⟨rfl, hstem, hext⟩
    have hcut : cutAtLastDot? (stem ++ "." ++ ext).toList = some (stem.toList, ext.toList) :=
      cutAtLastDot?_eq_some_iff.mpr ⟨by simp [String.toList_append], hext⟩
    rw [hcut]
    cases hcs : stem.toList with
    | nil => exact absurd (String.toList_inj.mp hcs) hstem
    | cons c cs =>
        dsimp only
        rw [← hcs, String.ofList_toList, String.ofList_toList]

namespace Reference

/-! ## Stripping -/

/-- A bare name stays one when it is stripped. -/
theorem slash_stripSuffixes {name : String} (h : '/' ∉ name.toList) :
    '/' ∉ (stripSuffixes name).toList := by
  have hext (c : Char) (hc : c ∈ stripModuleExtension name.toList) : c ∈ name.toList := by
    unfold stripModuleExtension at hc
    split at hc
    · exact hc
    · next stem ext hcut =>
        split at hc
        · obtain ⟨hname, -⟩ := Path.cutAtLastDot?_eq_some_iff.mp hcut
          rw [hname]
          exact List.mem_append_left _ hc
        · exact hc
  intro hmem
  rw [stripSuffixes, String.toList_ofList] at hmem
  unfold stripPlatformSuffix at hmem
  split at hmem
  · exact h (hext _ (List.mem_of_mem_take hmem))
  · exact h (hext _ hmem)

/-- Stripping takes away the suffixes that were put behind a name, and leaves the name alone. -/
theorem stripSuffixes_append (name : String) : stripSuffixes (name ++ ".ni.dll") = name := by
  have hcut : Path.cutAtLastDot? (name.toList ++ ".ni.dll".toList)
      = some (name.toList ++ platformSuffix, ['d', 'l', 'l']) := by
    refine Path.cutAtLastDot?_eq_some_iff.mpr ⟨?_, by decide⟩
    rw [platformSuffix, List.append_assoc]
    rfl
  have hext : stripModuleExtension (name.toList ++ ".ni.dll".toList)
      = name.toList ++ platformSuffix := by
    rw [stripModuleExtension, hcut]
    exact if_pos (by decide)
  have hsuffix : platformSuffix.isSuffixOf (name.toList ++ platformSuffix) = true :=
    List.isSuffixOf_iff_suffix.mpr (List.suffix_append _ _)
  rw [stripSuffixes, String.toList_append, hext, stripPlatformSuffix, if_pos hsuffix,
    List.length_append, Nat.add_sub_cancel, List.take_left, String.ofList_toList]

/-! ## Matching -/

theorem matchesName_iff (m : Module) (query : String) :
    m.matchesName query = true ↔ Text.foldAscii m.name = nameKey query :=
  Text.sameFolded_iff

theorem nameKey_append (name : String) : nameKey (name ++ ".ni.dll") = Text.foldAscii name := by
  rw [nameKey, stripSuffixes_append]

/-! ## The file of a bare name -/

theorem slash_of_isBareName {location : String} (bare : isBareName location = true) :
    '/' ∉ location.toList := by
  simp only [isBareName, Bool.and_eq_true, Bool.not_eq_true', List.contains_eq_mem,
    decide_eq_false_iff_not] at bare
  exact bare.1

theorem isName_moduleFileName {location : String} (bare : isBareName location = true) :
    Path.IsName (Fetch.moduleFileName location) := by
  have hne (s : String) (hs : s.length < 4) : Fetch.moduleFileName location ≠ s := by
    rintro rfl
    rw [Fetch.moduleFileName, String.length_append] at hs
    exact absurd hs (Nat.not_lt.mpr (Nat.le_add_left 4 _))
  refine ⟨hne _ (by decide), hne _ (by decide), hne _ (by decide), ?_⟩
  rw [Fetch.moduleFileName, String.toList_append]
  intro hmem
  rcases List.mem_append.mp hmem with hname | hend
  · exact slash_stripSuffixes (slash_of_isBareName bare) hname
  · exact absurd hend (by decide)

theorem stripSuffixes_eq_of_moduleFileName {location location' : String}
    (h : Fetch.moduleFileName location = Fetch.moduleFileName location') :
    stripSuffixes location = stripSuffixes location' := by
  have hlist := congrArg String.toList h
  rw [Fetch.moduleFileName, Fetch.moduleFileName, String.toList_append,
    String.toList_append] at hlist
  exact String.toList_inj.mp (List.append_cancel_right hlist)

end Reference

end ScriptSessions
