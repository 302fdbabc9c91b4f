import ScriptSessions.Proofs.Lists
import ScriptSessions.Proofs.Path
import ScriptSessions.World

set_option autoImplicit false

/-! # What has been written is read

A text that has been written to a path is found there (`World.readText_writeText`). This takes an
argument, because a path is walked step by step through the very files that are changed. What a walk
looks at on its way are directories, and no directory is ever replaced by a file
(`World.walk_set`).

A file that is new stands where nothing stood. The walk to its directory goes through the segments
before the last one, and the walk to the file goes one step further.

A path that designates no file, because it has no steps or the last of them leads back, does not
lead to a file (`World.isFile_of_fileName?`). Where a directory is missing, nothing can be located
below it (`World.Lacks.locate_ne_ok`).
-/

namespace ScriptSessions

namespace FileTree

theorem find?_set (t : FileTree) {place : Place} (below : place ≠ []) (node : FileNode)
    (other : Place) :
    (t.set place node).find? other = if other = place then some node else t.find? other := by
  unfold find?
  by_cases hroot : other = []
  · subst hroot
    rw [if_pos rfl, if_neg below.symm, if_pos rfl]
  · rw [if_neg hroot, if_neg hroot]
    split
    · next heq =>
        rw [heq]
        exact List.lookup_cons_self
    · next hne =>
        have hbeq : (other == place) = false := by simpa using hne
        rw [set, List.lookup_cons, hbeq]
        exact lookup_filter_ne hne t.entries

/-- A place where no directory stands is not the root. -/
theorem ne_root_of_find? {t : FileTree} {place : Place} (h : t.find? place ≠ some .directory) :
    place ≠ [] := by
  rintro rfl
  exact h rfl

end FileTree

namespace World

/-! ## Walks -/

variable {files : FileTree} {target : Place} {node : FileNode}

theorem walk_append (front back : List String) (start : Place) :
    walk files (front ++ back) start = (walk files front start).bind (walk files back) := by
  induction front generalizing start with
  | nil => rfl
  | cons s front ih =>
      simp only [List.cons_append, walk]
      split
      · rfl
      · rfl
      · split
        · exact ih start
        · split
          · exact ih _
          · split
            · rfl
            · split
              · exact ih _
              · rfl

theorem walk_append_cases {front back : List String} {start place : Place}
    (h : walk files (front ++ back) start = .ok place) :
    ∃ mid, walk files front start = .ok mid ∧ walk files back mid = .ok place := by
  rw [walk_append] at h
  cases hfront : walk files front start with
  | error e => rw [hfront] at h; cases h
  | ok mid => exact ⟨mid, rfl, by rwa [hfront] at h⟩

/-- A walk goes through directories only, so it is not disturbed where none stands. -/
theorem walk_set (free : files.find? target ≠ some .directory) {segments : List String}
    {start place : Place} (h : walk files segments start = .ok place) :
    walk (files.set target node) segments start = .ok place := by
  have hfind := files.find?_set (FileTree.ne_root_of_find? free) node
  induction segments generalizing start with
  | nil => exact h
  | cons s rest ih =>
      cases hstart : files.find? start with
      | none => simp [walk, hstart] at h
      | some found =>
          cases found with
          | file => simp [walk, hstart] at h
          | directory =>
              have hne : start ≠ target := fun heq => free (heq ▸ hstart)
              have hstart' : (files.set target node).find? start = some .directory := by
                rw [hfind, if_neg hne, hstart]
              have hisSome (here : Place) (hhere : (files.find? here).isSome = true) :
                  ((files.set target node).find? here).isSome = true := by
                rw [hfind]
                split
                · rfl
                · exact hhere
              simp only [walk, hstart] at h
              simp only [walk, hstart']
              split at h
              · next hidle => rw [if_pos hidle]; exact ih h
              · next hidle =>
                  rw [if_neg hidle]
                  split at h
                  · next hup => rw [if_pos hup]; exact ih h
                  · next hup =>
                      rw [if_neg hup]
                      split at h
                      · cases h
                      · next hlong =>
                          rw [if_neg hlong]
                          split at h
                          · next hthere => rw [if_pos (hisSome _ hthere)]; exact ih h
                          · cases h

/-- A walk that ends with a dot has come to a directory. -/
theorem walk_dot {start place : Place} (h : walk files ["."] start = .ok place) :
    start = place ∧ files.find? start = some .directory := by
  cases hstart : files.find? start with
  | none => simp [walk, hstart] at h
  | some found =>
      cases found with
      | file => simp [walk, hstart] at h
      | directory =>
          simp [walk, hstart] at h
          exact ⟨h, rfl⟩

/-- Whether a segment is the name of something in a directory. -/
def IsProper (s : String) : Prop := ¬ (s = "" ∨ s = ".") ∧ s ≠ ".."

/-- One step leads from a directory to what stands in it under a name. -/
theorem walk_singleton {place : Place} {name : String}
    (directory : files.find? place = some .directory) (proper : IsProper name) :
    walk files [name] place =
      if name.utf8ByteSize > 255 then .error .nameTooLong
      else if (files.find? (place ++ [name])).isSome then .ok (place ++ [name])
      else .error .missing := by
  simp only [walk, directory, if_neg proper.1, if_neg proper.2]

/-- One step of a walk starts in a directory, and stays there, goes back, or goes on. -/
theorem walk_singleton_cases {s : String} {start place : Place}
    (h : walk files [s] start = .ok place) : files.find? start = some .directory ∧
      ((s = "" ∨ s = ".") ∧ place = start ∨ s = ".." ∧ place = start.dropLast ∨
        IsProper s ∧ place = start ++ [s]) := by
  cases hstart : files.find? start with
  | none => simp [walk, hstart] at h
  | some found =>
      cases found with
      | file => simp [walk, hstart] at h
      | directory =>
          refine ⟨rfl, ?_⟩
          simp only [walk, hstart] at h
          split at h
          · next hidle => exact .inl ⟨hidle, (Except.ok.inj h).symm⟩
          · next hidle =>
              split at h
              · next hup => exact .inr (.inl ⟨hup, (Except.ok.inj h).symm⟩)
              · next hup =>
                  split at h
                  · cases h
                  · split at h
                    · exact .inr (.inr ⟨⟨hidle, hup⟩, (Except.ok.inj h).symm⟩)
                    · cases h

/-! ## Locating -/

/-- The place from which a path is walked. -/
def start (w : World) (p : Path) : Place := if p.isAbsolute then [] else w.directory.steps

/-- A path is wrong whatever the files are, or it is walked. It is missing as it stands only if it
is empty. -/
theorem locate_cases (w : World) (p : Path) :
    (∃ e, (e = .missing → p.text = "") ∧
      ∀ files, World.locate { w with files } p = .error e) ∨
    ∀ files, World.locate { w with files } p = walk files p.segments (w.start p) := by
  unfold locate
  by_cases hnul : p.text.toList.contains '\x00' = true
  · exact .inl ⟨.nulInName, nofun, fun files => if_pos hnul⟩
  · simp only [if_neg hnul]
    by_cases hempty : p.text = ""
    · exact .inl ⟨.missing, fun _ => hempty, fun files => if_pos hempty⟩
    · simp only [if_neg hempty]
      by_cases hlong : p.text.utf8ByteSize ≥ 4096
      · exact .inl ⟨.nameTooLong, nofun, fun files => if_pos hlong⟩
      · exact .inr fun files => if_neg hlong

/-- Where a path leads: its text is not wrong by itself, and the walk comes to an end. -/
theorem locate_eq_ok_iff {w : World} {p : Path} {place : Place} :
    w.locate p = .ok place ↔ '\x00' ∉ p.text.toList ∧ p.text ≠ "" ∧ p.text.utf8ByteSize < 4096 ∧
      walk w.files p.segments (w.start p) = .ok place := by
  unfold locate
  by_cases hnul : '\x00' ∈ p.text.toList
  · simp [hnul]
  · by_cases hempty : p.text = ""
    · simp [hempty]
    · by_cases hshort : p.text.utf8ByteSize < 4096
      · simp [hnul, hempty, hshort, Nat.not_le.mpr hshort, start]
      · simp [hnul, hempty, hshort, Nat.not_lt.mp hshort]

/-- A path that leads somewhere is walked, whatever the files are. -/
theorem locate_eq_walk {w : World} {p : Path} {place : Place} (located : w.locate p = .ok place)
    (files : FileTree) : World.locate { w with files } p = walk files p.segments (w.start p) := by
  rcases w.locate_cases p with ⟨e, -, herror⟩ | hwalk
  · have hlocate := herror w.files
    rw [located] at hlocate
    cases hlocate
  · exact hwalk files

theorem readText_of_locate {w : World} {p : Path} {place : Place} {s : String}
    (located : w.locate p = .ok place)
    (found : w.files.find? place = some (.file (.text s))) : w.readText p = .ok s := by
  simp [readText, examine, located, found, FileContent.text?]

/-! ## Writing -/

/-- The file that stands at the end of a path is replaced. -/
theorem readText_set {w : World} {p : Path} {place : Place} (located : w.locate p = .ok place)
    (free : w.files.find? place ≠ some .directory) (s : String) :
    World.readText { w with files := w.files.set place (.file (.text s)) } p = .ok s := by
  have hfound := w.files.find?_set (FileTree.ne_root_of_find? free) (.file (.text s)) place
  rw [if_pos rfl] at hfound
  have hwalk := locate_eq_walk located
  refine readText_of_locate ?_ hfound
  rw [hwalk]
  exact walk_set free ((hwalk w.files).symm.trans located)

/-- The place of a new file: its directory is there, and nothing stands in it under the last
segment. -/
theorem exists_directory {w : World} {p : Path} {front : List String} {last : String}
    {place : Place} (segments : p.segments = front ++ [last]) (proper : IsProper last)
    (missing : w.locate p = .error .missing)
    (located : w.locate ⟨"/".intercalate (front ++ ["."])⟩ = .ok place) :
    (∀ files, World.locate { w with files } p = walk files (front ++ [last]) (w.start p)) ∧
      walk w.files front (w.start p) = .ok place ∧ w.files.find? place = some .directory ∧
      ¬ last.utf8ByteSize > 255 ∧ w.files.find? (place ++ [last]) = none := by
  have hfront : Path.segments ⟨"/".intercalate (front ++ ["."])⟩ = front ++ ["."] := by
    refine Path.segments_intercalate (fun s hs => ?_) (by simp)
    rcases List.mem_append.mp hs with hmem | hdot
    · exact Path.slash_of_mem_segments (segments ▸ List.mem_append_left [last] hmem)
    · rw [List.mem_singleton.mp hdot]
      decide
  have hstart : w.start ⟨"/".intercalate (front ++ ["."])⟩ = w.start p := by
    rw [start, start, Path.isAbsolute_eq_of_segments hfront segments]
  -- both paths are walked, and the walks part only at the last segment
  have hwalk : ∀ files, World.locate { w with files } p
      = walk files (front ++ [last]) (w.start p) := by
    rcases w.locate_cases p with ⟨e, hempty, herror⟩ | hwalk
    · obtain rfl := Except.error.inj ((herror w.files).symm.trans missing)
      have hempty' : p.segments = [""] := by rw [Path.segments, hempty rfl]; rfl
      have hlast : some "" = some last := by
        simpa using congrArg List.getLast? (hempty'.symm.trans segments)
      exact absurd (.inl (Option.some.inj hlast).symm) proper.1
    · exact fun files => segments ▸ hwalk files
  have hdirectory : walk w.files front (w.start p) = .ok place ∧
      w.files.find? place = some .directory := by
    rcases w.locate_cases ⟨"/".intercalate (front ++ ["."])⟩ with ⟨e, -, herror⟩ | hwalk
    · have hlocate := (herror w.files).symm.trans located
      cases hlocate
    · have hlocate := (hwalk w.files).symm.trans located
      rw [hfront, hstart, walk_append] at hlocate
      cases hplace : walk w.files front (w.start p) with
      | error e => rw [hplace] at hlocate; cases hlocate
      | ok here =>
          rw [hplace] at hlocate
          obtain ⟨rfl, hfind⟩ := walk_dot hlocate
          exact ⟨rfl, hfind⟩
  have hlast := (hwalk w.files).symm.trans missing
  rw [walk_append, hdirectory.1] at hlast
  have hname := (walk_singleton hdirectory.2 proper).symm.trans hlast
  refine ⟨hwalk, hdirectory.1, hdirectory.2, ?_⟩
  split at hname
  · cases hname
  · next hlong =>
      split at hname
      · cases hname
      · next habsent => exact ⟨hlong, by simpa using habsent⟩

/-- A new file is put into the directory that the path leads to without its last segment. -/
theorem readText_set_new {w : World} {p : Path} {front : List String} {last : String}
    {place : Place} (segments : p.segments = front ++ [last]) (proper : IsProper last)
    (missing : w.locate p = .error .missing)
    (located : w.locate ⟨"/".intercalate (front ++ ["."])⟩ = .ok place) (s : String) :
    World.readText { w with files := w.files.set (place ++ [last]) (.file (.text s)) } p
      = .ok s := by
  obtain ⟨hwalk, hfront, hdirectory, hlong, habsent⟩ :=
    exists_directory segments proper missing located
  have hbelow : place ++ [last] ≠ [] := List.append_ne_nil_of_right_ne_nil place nofun
  have hfind := w.files.find?_set hbelow (.file (.text s))
  have hfree : w.files.find? (place ++ [last]) ≠ some .directory := by
    rw [habsent]
    exact nofun
  have hdirectory' : (w.files.set (place ++ [last]) (.file (.text s))).find? place
      = some .directory := by
    rw [hfind, if_neg (by simp), hdirectory]
  have hthere : (w.files.set (place ++ [last]) (.file (.text s))).find? (place ++ [last])
      = some (.file (.text s)) := by
    rw [hfind, if_pos rfl]
  refine readText_of_locate ?_ hthere
  rw [hwalk, walk_append, walk_set hfree hfront]
  refine (walk_singleton hdirectory' proper).trans ?_
  rw [if_neg hlong, hthere]
  rfl

/-- **What has been written is read**, whether the file is new or not. -/
theorem readText_writeText {w w' : World} {p : Path} {s : String}
    (written : w.writeText p s = .ok w') : w'.readText p = .ok s := by
  unfold writeText at written
  split at written
  · next place located =>
      split at written
      · cases written
      · next free =>
          cases written
          exact readText_set located free s
  · next missing =>
      split at written
      · cases written
      · next last hlast =>
          split at written
          · cases written
          · next hproper =>
              dsimp only at written
              split at written
              · cases written
              · next place located =>
                  cases written
                  obtain ⟨front, hsegments⟩ := List.getLast?_eq_some_iff.mp hlast
                  rw [hsegments, List.dropLast_concat] at located
                  simp only [not_or] at hproper
                  have hname : IsProper last := ⟨by simp [hproper], hproper.2.2⟩
                  exact readText_set_new hsegments hname missing located s
  · cases written

/-! ## Paths that designate no file -/

/-- What stands above a place are directories. -/
def Rooted (files : FileTree) (place : Place) : Prop :=
  ∀ above s below, place = above ++ s :: below → files.find? above = some .directory

/-- What stands above a place in a directory, if directories stand above the directory. -/
theorem Rooted.append_singleton {place : Place} (h : Rooted files place)
    (directory : files.find? place = some .directory) (s : String) :
    Rooted files (place ++ [s]) := by
  intro above t below heq
  rcases List.append_eq_append_iff.mp heq with ⟨back, rfl, hback⟩ | ⟨back, rfl, hback⟩
  · cases back with
    | nil => rwa [List.append_nil]
    | cons b back => simp at hback
  · cases back with
    | nil => rwa [List.append_nil] at directory
    | cons b back =>
        exact h above b back rfl

theorem Rooted.dropLast {place : Place} (h : Rooted files place) :
    Rooted files place.dropLast ∧ files.find? place.dropLast = some .directory := by
  rcases List.eq_nil_or_concat' place with rfl | ⟨front, s, rfl⟩
  · exact ⟨h, rfl⟩
  · rw [List.dropLast_concat]
    refine ⟨fun above t below heq => ?_, h front s [] rfl⟩
    exact h above t (below ++ [s]) (by rw [heq, List.append_assoc, List.cons_append])

theorem rooted_of_walk {segments : List String} {place : Place}
    (h : walk files segments [] = .ok place) : Rooted files place := by
  induction segments using List.reverseRecOn generalizing place with
  | nil =>
      cases h
      exact fun above s below heq => by simp at heq
  | append_singleton front s ih =>
      obtain ⟨mid, hmid, hstep⟩ := walk_append_cases h
      obtain ⟨hdirectory, hcases⟩ := walk_singleton_cases hstep
      rcases hcases with ⟨-, rfl⟩ | ⟨-, rfl⟩ | ⟨-, rfl⟩
      · exact ih hmid
      · exact (ih hmid).dropLast.1
      · exact (ih hmid).append_singleton hdirectory s

/-- A walk from the root comes to a directory if it has no steps, or the last of them leads
back. -/
theorem directory_of_walk {segments : List String} {place : Place}
    (h : walk files segments [] = .ok place)
    (hlast : ∀ s ∈ (segments.filter fun s => s != "" && s != ".").getLast?, s = "..") :
    files.find? place = some .directory := by
  rcases List.eq_nil_or_concat' segments with rfl | ⟨front, s, rfl⟩
  · cases h
    rfl
  · obtain ⟨mid, hmid, hstep⟩ := walk_append_cases h
    obtain ⟨hdirectory, hcases⟩ := walk_singleton_cases hstep
    rcases hcases with ⟨-, rfl⟩ | ⟨-, rfl⟩ | ⟨⟨hidle, hup⟩, -⟩
    · exact hdirectory
    · exact (rooted_of_walk hmid).dropLast.2
    · rw [not_or] at hidle
      have hs : [s].filter (fun s => s != "" && s != ".") = [s] := by simp [hidle]
      rw [List.filter_append, hs, List.getLast?_concat] at hlast
      exact absurd (hlast s rfl) hup

/-- An absolute path that designates no file does not lead to one. -/
theorem isFile_of_fileName? {p : Path} (absolute : p.isAbsolute = true) (h : p.fileName? = none)
    (w : World) : w.isFile p = false := by
  have hlast : ∀ s ∈ p.steps.getLast?, s = ".." := by
    intro s hs
    rw [Option.mem_def] at hs
    unfold Path.fileName? at h
    split at h
    · next hup => rw [hup] at hs; exact (Option.some.inj hs).symm
    · rw [h] at hs; cases hs
  cases hplace : w.locate p with
  | error e => simp [isFile, examine, hplace]
  | ok place =>
      have hwalk : walk w.files p.segments [] = .ok place := by
        rw [← hplace, locate_eq_walk hplace w.files, start, if_pos absolute]
      have hdirectory := directory_of_walk hwalk hlast
      simp [isFile, examine, hplace, hdirectory]

/-! ## Missing directories -/

/-- Whether no directory stands at a path. A dot is put behind the path, because a file is no
directory, and because what is looked up below the empty path is looked up in the current
directory. -/
def Lacks (w : World) (d : Path) : Prop := w.holds (d / ".") = false

instance (w : World) (d : Path) : Decidable (w.Lacks d) := inferInstanceAs (Decidable (_ = _))

/-- Nothing can be located below a directory that is missing. -/
theorem Lacks.locate_ne_ok {w : World} {d : Path} (h : w.Lacks d) {name : String}
    (slash : '/' ∉ name.toList) (proper : name ≠ "") (place : Place) :
    w.locate (d / name) ≠ .ok place := by
  intro located
  obtain ⟨stem, htext⟩ := d.text_div
  obtain ⟨front, -, hsegments⟩ := d.segments_div
  have hdot : '/' ∉ ".".toList := by decide
  obtain ⟨hnul, -, hshort, hwalk⟩ := locate_eq_ok_iff.mp located
  rw [htext name slash, String.toList_append, List.mem_append, not_or] at hnul
  rw [htext name slash, String.utf8ByteSize_append] at hshort
  rw [hsegments name slash] at hwalk
  -- the walk to the name starts its last step in the directory
  obtain ⟨mid, hfront, hlast⟩ := walk_append_cases hwalk
  have hmid := (walk_singleton_cases hlast).1
  have hstart : w.start (d / ".") = w.start (d / name) := by
    have habsolute (s : String) (hs : '/' ∉ s.toList) : (d / s).isAbsolute = d.isAbsolute := by
      show (d.join ⟨s⟩).isAbsolute = _
      rw [Path.isAbsolute_join, Path.isAbsolute_eq_false hs, Bool.false_or]
    rw [start, start, habsolute "." hdot, habsolute name slash]
  have hlocate : w.locate (d / ".") = .ok mid := by
    refine locate_eq_ok_iff.mpr ⟨?_, ?_, ?_, ?_⟩
    · rw [htext "." hdot, String.toList_append, List.mem_append, not_or]
      exact ⟨hnul.1, by decide⟩
    · rw [htext "." hdot]
      exact fun hempty => absurd (String.append_eq_empty_iff.mp hempty).2 (by decide)
    · have hone : ".".utf8ByteSize = 1 := rfl
      have hname : name.utf8ByteSize ≠ 0 := mt String.utf8ByteSize_eq_zero_iff.mp proper
      rw [htext "." hdot, String.utf8ByteSize_append]
      omega
    · rw [hsegments "." hdot, hstart, walk_append, hfront]
      show walk w.files ["."] mid = _
      simp [walk, hmid]
  have hholds : w.holds (d / ".") = true := by simp [holds, examine, hlocate, hmid]
  exact Bool.false_ne_true (h.symm.trans hholds)

theorem Lacks.isFile_div {w : World} {d : Path} (h : w.Lacks d) {name : String}
    (slash : '/' ∉ name.toList) (proper : name ≠ "") : w.isFile (d / name) = false := by
  cases hlocate : w.locate (d / name) with
  | ok place => exact absurd hlocate (h.locate_ne_ok slash proper place)
  | error e => simp [isFile, examine, hlocate]

theorem Lacks.entriesOf_div {w : World} {d : Path} (h : w.Lacks d) {name : String}
    (slash : '/' ∉ name.toList) (proper : name ≠ "") : w.entriesOf (d / name) = [] := by
  cases hlocate : w.locate (d / name) with
  | ok place => exact absurd hlocate (h.locate_ne_ok slash proper place)
  | error e => simp [entriesOf, hlocate]

end World

end ScriptSessions
