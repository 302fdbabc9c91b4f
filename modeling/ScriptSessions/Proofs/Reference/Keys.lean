import ScriptSessions.Proofs.Reference.Names

set_option autoImplicit false

/-! # Which locations share a key

A key is a text, and it is made in two ways: from a bare name, and from the names on the way to
the place of a path. The names can be read off the text again, for the name that has lost its
suffixes holds no slash either, whatever else is left of it (`Key.ofNames_inj`). So two paths
share a key exactly when they lead to one place but for the suffixes of the last name.

The text made from a path begins with a slash, and a bare name has none. The one exception is the
root, which has no last name, and gets the empty key. A bare name that is nothing but suffixes
gets the empty key, too, and these are all cases in which a bare name and a path share a key
(`Key.normalize_eq_iff`).
-/

namespace ScriptSessions.Reference

namespace Key

/-- A location that is not blank has a key: the name without its suffixes if it is bare, and
otherwise that of the place to which it leads. -/
theorem normalize_eq_ok_iff {cwd : Path} {location : String} {key : Key} :
    normalize cwd location = .ok key ↔ Text.trim location ≠ "" ∧
      key = if isBareName (Text.trim location) then ⟨stripSuffixes (Text.trim location)⟩
        else ofNames (Path.names cwd ⟨Text.trim location⟩) := by
  by_cases blank : Text.trim location = ""
  · simp [normalize, blank]
  · rw [normalize, if_neg blank, and_iff_right blank]
    split <;> rw [Except.ok.injEq, eq_comm]

/-! ## Keys of places -/

variable {ns ns' : List String}

/-- The names in the key of a place below the root hold no slash. -/
theorem slash_of_mem_stripped (h : ∀ s ∈ ns, Path.IsName s) {last : String}
    (hlast : ns.getLast? = some last) {s : String} (hs : s ∈ ns.dropLast ++ [stripSuffixes last]) :
    '/' ∉ s.toList := by
  rcases List.mem_append.mp hs with hfront | hend
  · exact (h s (List.dropLast_subset ns hfront)).slash
  · rw [List.mem_singleton.mp hend]
    exact slash_stripSuffixes (h last (List.mem_of_getLast? hlast)).slash

/-- The key of a place below the root is the path through its names, of which the last one has
lost its suffixes. -/
theorem ofNames_eq (h : ∀ s ∈ ns, Path.IsName s) {last : String}
    (hlast : ns.getLast? = some last) :
    ofNames ns = ⟨(Path.ofNames (ns.dropLast ++ [stripSuffixes last])).text⟩ := by
  have hfront : ∀ s ∈ ns.dropLast, Path.IsName s := fun s hs => h s (List.dropLast_subset ns hs)
  have hend := slash_of_mem_stripped h hlast (List.mem_append_right _ List.mem_cons_self)
  simp only [ofNames, hlast, Path.ofNames_div hfront hend]

/-- The key of a place is a text without slashes only for the root, whose key is empty. -/
theorem ofNames_eq_mk_iff (h : ∀ s ∈ ns, Path.IsName s) {text : String}
    (slash : '/' ∉ text.toList) : ofNames ns = ⟨text⟩ ↔ ns = [] ∧ text = "" := by
  constructor
  · intro heq
    cases hlast : ns.getLast? with
    | none =>
        have hnil := List.getLast?_eq_none_iff.mp hlast
        rw [hnil] at heq
        exact ⟨hnil, (congrArg Key.text heq).symm⟩
    | some last =>
        -- the key is a path, which begins with a slash
        rw [ofNames_eq h hlast] at heq
        refine absurd ?_ slash
        rw [← Key.mk.inj heq, Path.ofNames, String.toList_append]
        exact List.mem_append_left _ (List.mem_singleton_self '/')
  · rintro ⟨rfl, rfl⟩
    rfl

/-- **The key of a place gives away the directory and the stripped name.** -/
theorem ofNames_inj (h : ∀ s ∈ ns, Path.IsName s) (h' : ∀ s ∈ ns', Path.IsName s) :
    ofNames ns = ofNames ns' ↔ ns.dropLast = ns'.dropLast ∧
      ns.getLast?.map stripSuffixes = ns'.getLast?.map stripSuffixes := by
  have hroot : ofNames [] = ⟨""⟩ := rfl
  have hempty : '/' ∉ "".toList := by decide
  cases hlast : ns.getLast? with
  | none =>
      rw [List.getLast?_eq_none_iff.mp hlast, hroot, eq_comm, ofNames_eq_mk_iff h' hempty]
      constructor
      · rintro ⟨rfl, -⟩
        exact ⟨rfl, rfl⟩
      · rintro ⟨-, hnone⟩
        exact ⟨by simpa using hnone.symm, rfl⟩
  | some last =>
      cases hlast' : ns'.getLast? with
      | none =>
          rw [List.getLast?_eq_none_iff.mp hlast', hroot, ofNames_eq_mk_iff h hempty]
          constructor
          · rintro ⟨rfl, -⟩
            cases hlast
          · rintro ⟨-, hsome⟩
            cases hsome
      | some last' =>
          have hinj := Path.ofNames_inj (fun s => slash_of_mem_stripped h hlast (s := s))
            (fun s => slash_of_mem_stripped h' hlast' (s := s)) (by simp) (by simp)
          rw [List.append_singleton_inj] at hinj
          rw [ofNames_eq h hlast, ofNames_eq h' hlast', Key.mk.injEq, Option.map_some,
            Option.map_some, Option.some.injEq, ← hinj, Path.mk.injEq]

/-! ## Keys of locations -/

/-- What keys are meant to tell: whether two locations are spellings of one module. Two bare names
are if they are the same without suffixes, and two paths are if they lead through the same directory
to last names that are the same without suffixes. A bare name and a path never are. -/
def SameModule (cwd : Path) (location location' : String) : Prop :=
  isBareName location = true ∧ isBareName location' = true ∧
      stripSuffixes location = stripSuffixes location' ∨
    isBareName location = false ∧ isBareName location' = false ∧
      (Path.names cwd ⟨location⟩).dropLast = (Path.names cwd ⟨location'⟩).dropLast ∧
      (Path.names cwd ⟨location⟩).getLast?.map stripSuffixes
        = (Path.names cwd ⟨location'⟩).getLast?.map stripSuffixes

instance (cwd : Path) (location location' : String) :
    Decidable (SameModule cwd location location') := by
  unfold SameModule
  infer_instance

/-- Whether the first location is a bare name of which stripping leaves nothing, and the second one
a path to the root. -/
def NamelessAndRoot (cwd : Path) (location location' : String) : Prop :=
  isBareName location = true ∧ stripSuffixes location = "" ∧
    isBareName location' = false ∧ Path.names cwd ⟨location'⟩ = []

instance (cwd : Path) (location location' : String) :
    Decidable (NamelessAndRoot cwd location location') := by
  unfold NamelessAndRoot
  infer_instance

/-- A bare name shares its key with a path only if nothing is left of the one, and the other leads
to the root. -/
theorem mk_eq_ofNames_iff (cwd : Path) {location location' : String}
    (bare : isBareName location = true) (spelled : isBareName location' = false) :
    ⟨stripSuffixes location⟩ = ofNames (Path.names cwd ⟨location'⟩) ↔
      NamelessAndRoot cwd location location' := by
  rw [eq_comm, ofNames_eq_mk_iff (fun _ => Path.isName_of_mem_names)
    (slash_stripSuffixes (slash_of_isBareName bare))]
  constructor
  · rintro ⟨hroot, hnothing⟩
    exact ⟨bare, hnothing, spelled, hroot⟩
  · rintro ⟨-, hnothing, -, hroot⟩
    exact ⟨hroot, hnothing⟩

/-- **Which locations share a key.** Two locations that are not blank have keys, from whatever
directory they are seen. The keys are equal if and only if the locations are spellings of one
module, or one of them is a bare name without anything but suffixes and the other one leads to the
root. -/
theorem normalize_eq_iff (cwd : Path) (l l' : String) (nonblank : Text.trim l ≠ "")
    (nonblank' : Text.trim l' ≠ "") :
    ∃ key key', normalize cwd l = .ok key ∧ normalize cwd l' = .ok key' ∧
      (key = key' ↔ SameModule cwd (Text.trim l) (Text.trim l') ∨
        NamelessAndRoot cwd (Text.trim l) (Text.trim l') ∨
        NamelessAndRoot cwd (Text.trim l') (Text.trim l)) := by
  refine ⟨_, _, normalize_eq_ok_iff.mpr ⟨nonblank, rfl⟩,
    normalize_eq_ok_iff.mpr ⟨nonblank', rfl⟩, ?_⟩
  generalize Text.trim l = l at *
  generalize Text.trim l' = l' at *
  cases bare : isBareName l with
  | true =>
      cases bare' : isBareName l' with
      | true => simp [SameModule, NamelessAndRoot, bare, bare']
      | false =>
          rw [if_pos rfl, if_neg Bool.false_ne_true, mk_eq_ofNames_iff cwd bare bare']
          simp [SameModule, NamelessAndRoot, bare, bare']
  | false =>
      cases bare' : isBareName l' with
      | true =>
          rw [if_pos rfl, if_neg Bool.false_ne_true, eq_comm, mk_eq_ofNames_iff cwd bare' bare]
          simp [SameModule, NamelessAndRoot, bare, bare']
      | false =>
          rw [if_neg Bool.false_ne_true, if_neg Bool.false_ne_true,
            ofNames_inj (fun _ => Path.isName_of_mem_names) fun _ => Path.isName_of_mem_names]
          simp [SameModule, NamelessAndRoot, bare, bare']

/-- A path up and down again, with an extension and a suffix, shares its key with a plain one, and
not with the bare name of the same module. -/
theorem lib_shares_key_with_path :
    (∃ key, normalize ⟨"/work"⟩ " ../work/Lib.ni.EXE" = .ok key ∧
      normalize ⟨"/work"⟩ "/work/./Lib" = .ok key) ∧
    ∃ key key', normalize ⟨"/work"⟩ "Lib.dll" = .ok key ∧
      normalize ⟨"/work"⟩ "./Lib.dll" = .ok key' ∧
      key ≠ key' := by
  obtain ⟨key, key', hkey, hkey', hsame⟩ :=
    normalize_eq_iff ⟨"/work"⟩ " ../work/Lib.ni.EXE" "/work/./Lib" (by decide) (by decide)
  obtain ⟨bare, path, hbare, hpath, hdiffer⟩ :=
    normalize_eq_iff ⟨"/work"⟩ "Lib.dll" "./Lib.dll" (by decide) (by decide)
  refine ⟨⟨key, hkey, ?_⟩, bare, path, hbare, hpath, fun heq => ?_⟩
  · rw [hkey', hsame.mpr (.inl (by decide))]
  · exact absurd (hdiffer.mp heq) (by decide)

/-- **A bare name can share its key with a path**: a name that is nothing but suffixes does with the
root. -/
theorem nameless_shares_key_with_root :
    normalize ⟨"/"⟩ ".dll" = .ok ⟨""⟩ ∧ normalize ⟨"/"⟩ "/" = .ok ⟨""⟩ ∧
    isBareName (Text.trim ".dll") = true ∧ isBareName (Text.trim "/") = false ∧
    ¬ SameModule ⟨"/"⟩ (Text.trim ".dll") (Text.trim "/") := by
  refine ⟨rfl, rfl, ?_, ?_, ?_⟩ <;> decide

end Key

end ScriptSessions.Reference
