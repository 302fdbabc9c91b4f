import Mathlib.Data.List.Induction
import ScriptSessions.Path.Absolute

set_option autoImplicit false

/-! # Places and the paths that lead there

The names that lead from the root to a place are proper names: none is empty, `.` or `..`, and
none holds a slash (`Path.isName_of_mem_names`). Such names written as a path lead to the same
place again (`Path.names_ofNames`), so a place is known from any path that leads there; and a name
that is put below a directory is the last one on the way (`Path.getLast?_names_div`).

Where a joined path leads can be read off its parts (`Path.steps_join`), and the absolute form of a
path leads where the path itself leads (`Path.steps_of_absolute?`). The parent of a place is the
directory through which its last name is reached (`Path.parent?_ofNames`).
-/

namespace ScriptSessions.Path

/-! ## Segments and steps -/

/-- Whether a text can be the name of something in a directory. -/
structure IsName (s : String) : Prop where
  ne_empty : s ≠ ""
  ne_dot : s ≠ "."
  ne_up : s ≠ ".."
  slash : '/' ∉ s.toList

theorem splitAtSlashes_eq_splitOn (cs : List Char) : splitAtSlashes cs = cs.splitOn '/' := by
  induction cs with
  | nil => rfl
  | cons c rest ih =>
      rw [splitAtSlashes, List.splitOn_cons_eq_if_modifyHead, ih]
      by_cases hc : c = '/'
      · rw [if_pos hc, if_pos (by simpa using hc)]
      · rw [if_neg hc, if_neg (by simpa using hc)]
        cases hsplit : rest.splitOn '/' with
        | nil => exact absurd hsplit (List.splitOn_ne_nil _ _)
        | cons s ss => rfl

theorem slash_of_mem_splitAtSlashes {cs piece : List Char} (h : piece ∈ splitAtSlashes cs) :
    '/' ∉ piece := by
  induction cs generalizing piece with
  | nil =>
      rw [List.mem_singleton.mp h]
      exact List.not_mem_nil
  | cons c rest ih =>
      rw [splitAtSlashes] at h
      split at h
      · rcases List.mem_cons.mp h with rfl | hrest
        · exact List.not_mem_nil
        · exact ih hrest
      · next hc =>
          split at h
          · rw [List.mem_singleton.mp h, List.mem_singleton]
            exact fun heq => hc heq.symm
          · next s ss hsplit =>
              rw [hsplit] at ih
              rcases List.mem_cons.mp h with rfl | hss
              · intro hmem
                rcases List.mem_cons.mp hmem with heq | hs
                · exact hc heq.symm
                · exact ih List.mem_cons_self hs
              · exact ih (List.mem_cons_of_mem s hss)

theorem slash_of_mem_segments {p : Path} {s : String} (h : s ∈ p.segments) : '/' ∉ s.toList := by
  obtain ⟨piece, hpiece, rfl⟩ := List.mem_map.mp h
  rw [String.toList_ofList]
  exact slash_of_mem_splitAtSlashes hpiece

/-- A step is a proper name, or leads up. -/
theorem isName_of_mem_steps {p : Path} {s : String} (h : s ∈ p.steps) (up : s ≠ "..") :
    IsName s := by
  obtain ⟨hmem, hs⟩ := List.mem_filter.mp h
  obtain ⟨piece, hpiece, rfl⟩ := List.mem_map.mp hmem
  simp only [Bool.and_eq_true, bne_iff_ne] at hs
  refine ⟨hs.1, hs.2, up, ?_⟩
  rw [String.toList_ofList]
  exact slash_of_mem_splitAtSlashes hpiece

/-! ## Collapsing -/

/-- What is left after collapsing are steps that do not lead up. -/
theorem mem_collapseSteps {steps : List String} {s : String} (h : s ∈ collapseSteps steps) :
    s ∈ steps ∧ s ≠ ".." := by
  suffices hfold : ∀ acc : List String,
      s ∈ steps.foldl (fun names s => if s = ".." then names.dropLast else names ++ [s]) acc →
      s ∈ acc ∨ s ∈ steps ∧ s ≠ ".." by
    exact (hfold [] h).resolve_left List.not_mem_nil
  clear h
  induction steps with
  | nil => exact fun acc h => .inl h
  | cons t rest ih =>
      intro acc h
      rcases ih _ h with hacc | hrest
      · dsimp only at hacc
        split at hacc
        · exact .inl (List.dropLast_subset acc hacc)
        · next ht =>
            rcases List.mem_append.mp hacc with hold | hlast
            · exact .inl hold
            · rw [List.mem_singleton.mp hlast]
              exact .inr ⟨List.mem_cons_self, ht⟩
      · exact .inr ⟨List.mem_cons_of_mem t hrest.1, hrest.2⟩

/-- Collapsing keeps a last step that does not lead up. -/
theorem collapseSteps_append_singleton (steps : List String) {s : String} (up : s ≠ "..") :
    collapseSteps (steps ++ [s]) = collapseSteps steps ++ [s] := by
  rw [collapseSteps, List.foldl_append, List.foldl_cons, if_neg up]
  rfl

theorem collapseSteps_of_names (names : List String) (h : ∀ s ∈ names, IsName s) :
    collapseSteps names = names := by
  induction names using List.reverseRecOn with
  | nil => rfl
  | append_singleton front last ih =>
      have hlast := h last (List.mem_append_right front List.mem_cons_self)
      rw [collapseSteps_append_singleton front hlast.ne_up,
        ih fun s hs => h s (List.mem_append_left _ hs)]

/-- The names on the way to a place are proper names. -/
theorem isName_of_mem_names {cwd p : Path} {s : String} (h : s ∈ names cwd p) : IsName s := by
  obtain ⟨hmem, up⟩ := mem_collapseSteps h
  split at hmem
  · exact isName_of_mem_steps hmem up
  · rcases List.mem_append.mp hmem with hcwd | hp
    · exact isName_of_mem_steps hcwd up
    · exact isName_of_mem_steps hp up

/-! ## Writing names as a path -/

/-- Texts without slashes, written between slashes, are the segments of the path. -/
theorem segments_intercalate {ns : List String} (h : ∀ s ∈ ns, '/' ∉ s.toList)
    (hne : ns ≠ []) : segments ⟨"/".intercalate ns⟩ = ns := by
  have hslash : ∀ l ∈ ns.map String.toList, '/' ∉ l := by
    intro l hl
    obtain ⟨s, hs, rfl⟩ := List.mem_map.mp hl
    exact h s hs
  have htext : ("/".intercalate ns).toList = ['/'].intercalate (ns.map String.toList) :=
    String.toList_intercalate
  rw [segments, htext, splitAtSlashes_eq_splitOn,
    List.splitOn_intercalate '/' hslash (by simpa using hne), List.map_map]
  exact (List.map_congr_left fun s _ => String.ofList_toList).trans (List.map_id ns)

theorem segments_ofNames {ns : List String} (h : ∀ s ∈ ns, '/' ∉ s.toList) :
    (ofNames ns).segments = "" :: if ns = [] then [""] else ns := by
  split
  · next hnil => rw [hnil]; rfl
  · next hne =>
      have htext : ofNames ns = ⟨"/".intercalate ("" :: ns)⟩ := by
        rw [ofNames, String.intercalate_cons_of_ne_nil hne, String.empty_append]
      rw [htext]
      refine segments_intercalate (fun s hs => ?_) (List.cons_ne_nil "" ns)
      rcases List.mem_cons.mp hs with rfl | hmem
      · exact List.not_mem_nil
      · exact h s hmem

/-- Names without slashes can be read off the path that they are written as. -/
theorem ofNames_inj {ns ns' : List String} (h : ∀ s ∈ ns, '/' ∉ s.toList)
    (h' : ∀ s ∈ ns', '/' ∉ s.toList) (hne : ns ≠ []) (hne' : ns' ≠ []) :
    ofNames ns = ofNames ns' ↔ ns = ns' := by
  constructor
  · intro heq
    have hsegments := congrArg segments heq
    rw [segments_ofNames h, segments_ofNames h', if_neg hne, if_neg hne'] at hsegments
    exact List.tail_eq_of_cons_eq hsegments
  · exact congrArg ofNames

/-- A path without slashes is relative. -/
theorem isAbsolute_eq_false {s : String} (slash : '/' ∉ s.toList) : isAbsolute ⟨s⟩ = false := by
  rw [isAbsolute]
  cases hcs : s.toList with
  | nil => rfl
  | cons c rest =>
      have hc : c ≠ '/' := by
        rintro rfl
        exact slash (hcs ▸ List.mem_cons_self)
      simpa using hc

/-- A path is absolute if its first segment is empty and not the only one. -/
theorem isAbsolute_eq (p : Path) :
    p.isAbsolute = match p.segments with
      | first :: _ :: _ => first == ""
      | _ => false := by
  unfold isAbsolute segments
  cases p.text.toList with
  | nil => rfl
  | cons c rest =>
      rw [splitAtSlashes_eq_splitOn, List.splitOn_cons_eq_if_modifyHead]
      cases hsplit : rest.splitOn '/' with
      | nil => exact absurd hsplit (List.splitOn_ne_nil _ _)
      | cons piece pieces =>
          by_cases hc : c = '/'
          · subst hc
            rfl
          · -- the first segment begins with the first character
            have hcons : String.ofList (c :: piece) ≠ "" := by simp
            rw [if_neg (by simpa using hc)]
            cases pieces with
            | nil => simpa using hc
            | cons piece' pieces => simp [hc]

/-- Another last segment does not make a path absolute or relative. -/
theorem isAbsolute_eq_of_segments {p q : Path} {front : List String} {s t : String}
    (hp : p.segments = front ++ [s]) (hq : q.segments = front ++ [t]) :
    p.isAbsolute = q.isAbsolute := by
  rw [isAbsolute_eq, isAbsolute_eq, hp, hq]
  match front with
  | [] => rfl
  | [_] => rfl
  | _ :: _ :: _ => rfl

/-- Names written as a path do not end in a slash, unless there are none. -/
theorem getLast?_ofNames {ns : List String} (h : ∀ s ∈ ns, IsName s) (hne : ns ≠ []) :
    ∃ c, (ofNames ns).text.toList.getLast? = some c ∧ c ≠ '/' := by
  obtain ⟨front, x, rfl⟩ : ∃ front x, ns = front ++ [x] :=
    ⟨_, _, (List.dropLast_concat_getLast hne).symm⟩
  have hx := h x (List.mem_append_right front List.mem_cons_self)
  have htext : ∃ pre, (ofNames (front ++ [x])).text.toList = pre ++ x.toList := by
    by_cases hfront : front = []
    · exact ⟨['/'], by simp [ofNames, hfront, String.toList_append]⟩
    · refine ⟨("/" ++ "/".intercalate front ++ "/").toList, ?_⟩
      rw [ofNames, String.intercalate_append_of_ne_nil hfront (List.cons_ne_nil x []),
        String.intercalate_singleton]
      simp [String.toList_append]
  obtain ⟨pre, hpre⟩ := htext
  rw [hpre, List.getLast?_append]
  cases hc : x.toList.getLast? with
  | none => exact absurd (String.toList_inj.mp (List.getLast?_eq_none_iff.mp hc)) hx.ne_empty
  | some c =>
      refine ⟨c, Option.some_or, ?_⟩
      rintro rfl
      exact hx.slash (List.mem_of_getLast? hc)

/-- A text without slashes that is put below a directory comes behind its names, whatever the text
is. -/
theorem ofNames_div {ns : List String} (h : ∀ s ∈ ns, IsName s) {last : String}
    (slash : '/' ∉ last.toList) : ofNames ns / last = ofNames (ns ++ [last]) := by
  show (ofNames ns).join ⟨last⟩ = _
  rw [join, isAbsolute_eq_false slash, if_neg Bool.false_ne_true]
  by_cases hne : ns = []
  · rw [hne]
    rfl
  · obtain ⟨c, hc, hend⟩ := getLast?_ofNames h hne
    rw [hc, Option.getD_some, if_neg (by simpa using hend), ofNames, ofNames,
      String.intercalate_append_of_ne_nil hne (List.cons_ne_nil last []),
      String.intercalate_singleton, String.append_assoc, String.append_assoc, String.append_assoc]

/-- Names written as a path are its steps. -/
theorem steps_ofNames {ns : List String} (h : ∀ s ∈ ns, IsName s) : (ofNames ns).steps = ns := by
  rw [steps, segments_ofNames fun s hs => (h s hs).slash, List.filter_cons_of_neg (by simp)]
  split
  · next hnil => rw [hnil]; rfl
  · refine List.filter_eq_self.mpr fun s hs => ?_
    simp [(h s hs).ne_empty, (h s hs).ne_dot]

/-- Names written as a path lead to the place that they name. -/
theorem names_ofNames (cwd : Path) {ns : List String} (h : ∀ s ∈ ns, IsName s) :
    names cwd (ofNames ns) = ns := by
  have habsolute : (ofNames ns).isAbsolute = true := by
    simp [isAbsolute, ofNames, String.toList_append]
  rw [names, habsolute, if_pos rfl, steps_ofNames h, collapseSteps_of_names ns h]

/-! ## Joining -/

/-- A slash cuts a path into two, each of which has its own segments. -/
theorem segments_of_slash {p : Path} {front back : List Char}
    (h : p.text.toList = front ++ '/' :: back) :
    p.segments = segments ⟨String.ofList front⟩ ++ segments ⟨String.ofList back⟩ := by
  unfold segments
  rw [h, splitAtSlashes_eq_splitOn, List.splitOn_append_cons_self, List.map_append,
    splitAtSlashes_eq_splitOn, splitAtSlashes_eq_splitOn, String.toList_ofList,
    String.toList_ofList]

/-- A slash cuts a path into two, each of which has its own steps. -/
theorem steps_of_slash {p : Path} {front back : List Char}
    (h : p.text.toList = front ++ '/' :: back) :
    p.steps = steps ⟨String.ofList front⟩ ++ steps ⟨String.ofList back⟩ := by
  rw [steps, segments_of_slash h, List.filter_append]
  rfl

/-- A relative path comes behind the text of the other one. -/
theorem exists_text_join (p : Path) {q : Path} (relative : q.isAbsolute = false) :
    ∃ front, (p.join q).text.toList = front ++ q.text.toList ∧ p.text.toList <+: front := by
  rw [join, relative, if_neg Bool.false_ne_true]
  split
  · exact ⟨p.text.toList, String.toList_append, List.prefix_rfl⟩
  · refine ⟨p.text.toList ++ ['/'], ?_, List.prefix_append _ _⟩
    rw [String.toList_append, String.toList_append]
    rfl

/-- The empty path is no base at all. -/
theorem join_of_empty {p : Path} (h : p.text = "") (q : Path) : p.join q = q := by
  unfold join
  split
  · rfl
  · rw [h, String.empty_append]
    rfl

theorem isAbsolute_join (p q : Path) : (p.join q).isAbsolute = (q.isAbsolute || p.isAbsolute) := by
  cases hq : q.isAbsolute with
  | true => rw [join, hq, if_pos rfl, hq, Bool.true_or]
  | false =>
      cases hp : p.text.toList with
      | nil =>
          rw [join_of_empty (String.toList_inj.mp hp), hq, isAbsolute, hp]
          rfl
      | cons c rest =>
          obtain ⟨front, htext, tail, hfront⟩ := exists_text_join p hq
          rw [isAbsolute, isAbsolute, htext, ← hfront, hp]
          rfl

/-- A path goes on where the other one ends, unless it is absolute. -/
theorem steps_join (p q : Path) :
    (p.join q).steps = if q.isAbsolute then q.steps else p.steps ++ q.steps := by
  by_cases hq : q.isAbsolute = true
  · rw [join, if_pos hq, if_pos hq]
  · rw [if_neg hq]
    cases hlast : p.text.toList.getLast? with
    | none =>
        have htext : p.text = "" := String.toList_inj.mp (List.getLast?_eq_none_iff.mp hlast)
        have hsteps : p.steps = [] := by
          rw [steps, segments, htext]
          rfl
        rw [join_of_empty htext, hsteps, List.nil_append]
    | some c =>
        rw [join, if_neg hq, hlast]
        by_cases hc : c = '/'
        · subst hc
          obtain ⟨front, hfront⟩ := List.getLast?_eq_some_iff.mp hlast
          have hp : p.steps = steps ⟨String.ofList front⟩ := by
            rw [steps_of_slash hfront]
            exact List.append_nil _
          have hcut : (p.text ++ q.text).toList = front ++ '/' :: q.text.toList := by
            rw [String.toList_append, hfront, List.append_assoc]
            rfl
          rw [Option.getD_some, if_pos (by rfl), hp, steps_of_slash hcut, String.ofList_toList]
        · have hcut : (p.text ++ "/" ++ q.text).toList
              = p.text.toList ++ '/' :: q.text.toList := by
            rw [String.toList_append, String.toList_append, List.append_assoc]
            rfl
          rw [Option.getD_some, if_neg (by simpa using hc), steps_of_slash hcut,
            String.ofList_toList, String.ofList_toList]

/-- A text without slashes is a single segment. -/
theorem segments_mk {s : String} (slash : '/' ∉ s.toList) : segments ⟨s⟩ = [s] := by
  rw [segments, splitAtSlashes_eq_splitOn, List.splitOn_eq_singleton slash, List.map_singleton,
    String.ofList_toList]

/-- A text that can be a step is a relative path, which leads that step and no further. -/
theorem steps_mk {s : String} (slash : '/' ∉ s.toList) (proper : s ≠ "" ∧ s ≠ ".") :
    isAbsolute ⟨s⟩ = false ∧ steps ⟨s⟩ = [s] := by
  refine ⟨isAbsolute_eq_false slash, ?_⟩
  rw [steps, segments_mk slash]
  simpa using proper

/-- The path of a name below a directory ends in this name. -/
theorem getLast?_names_div (cwd base : Path) {name : String} (h : IsName name) :
    (names cwd (base / name)).getLast? = some name := by
  obtain ⟨hrelative, hname⟩ := steps_mk h.slash ⟨h.ne_empty, h.ne_dot⟩
  have hsteps : (base / name).steps = base.steps ++ [name] := by
    show (base.join ⟨name⟩).steps = _
    rw [steps_join, hrelative, hname]
    rfl
  rw [names, hsteps]
  split
  · rw [collapseSteps_append_singleton _ h.ne_up, List.getLast?_concat]
  · rw [← List.append_assoc, collapseSteps_append_singleton _ h.ne_up, List.getLast?_concat]

/-! ## Absolute forms -/

theorem foldl_div_steps {p : Path} {ss : List String} (h : ∀ s ∈ ss, s ∈ p.steps) (base : Path) :
    (ss.foldl (fun base s => base / s) base).isAbsolute = base.isAbsolute ∧
      (ss.foldl (fun base s => base / s) base).steps = base.steps ++ ss := by
  induction ss generalizing base with
  | nil => exact ⟨rfl, (List.append_nil _).symm⟩
  | cons s rest ih =>
      obtain ⟨hmem, hs⟩ := List.mem_filter.mp (h s List.mem_cons_self)
      obtain ⟨hrelative, hsteps⟩ := steps_mk (slash_of_mem_segments hmem) (by simpa using hs)
      obtain ⟨habsolute, hrest⟩ := ih (fun t ht => h t (List.mem_cons_of_mem s ht)) (base / s)
      have hbase : (base / s).isAbsolute = base.isAbsolute ∧
          (base / s).steps = base.steps ++ [s] := by
        show (base.join ⟨s⟩).isAbsolute = _ ∧ (base.join ⟨s⟩).steps = _
        rw [isAbsolute_join, steps_join, hrelative, hsteps]
        exact ⟨rfl, rfl⟩
      rw [List.foldl_cons, habsolute, hrest, hbase.1, hbase.2, List.append_assoc]
      exact ⟨rfl, rfl⟩

theorem absoluteStart_eq {cwd : Path} (absolute : cwd.isAbsolute = true) (p : Path) :
    (absoluteStart cwd p).isAbsolute = true ∧
      (absoluteStart cwd p).steps = if p.isAbsolute then [] else cwd.steps := by
  unfold absoluteStart
  split
  · next h => exact ⟨rfl, by rw [isAbsolute, h]; rfl⟩
  · next h => exact ⟨rfl, by rw [isAbsolute, h]; rfl⟩
  · next h => exact ⟨rfl, by rw [isAbsolute, h]; rfl⟩
  · next hroot =>
      have hp : p.isAbsolute = false := by
        rw [isAbsolute]
        cases hcs : p.text.toList with
        | nil => rfl
        | cons c rest =>
            have hc : c ≠ '/' := by
              rintro rfl
              exact hroot rest hcs
            simpa using hc
      rw [hp]
      exact ⟨absolute, rfl⟩

/-- The absolute form of a path is absolute, and leads where the path leads from the current
directory. -/
theorem steps_of_absolute? {cwd p a : Path} (absolute : cwd.isAbsolute = true)
    (h : absolute? cwd p = some a) : a.isAbsolute = true ∧ a.steps = (cwd.join p).steps := by
  unfold absolute? at h
  split at h
  · cases h
  · obtain ⟨hstart, hsteps⟩ := absoluteStart_eq absolute p
    obtain ⟨hbody, hall⟩ := foldl_div_steps (fun s hs => hs) (absoluteStart cwd p) (p := p)
    rw [hstart] at hbody
    rw [hsteps] at hall
    have hsame : (if p.isAbsolute then [] else cwd.steps) ++ p.steps = (cwd.join p).steps := by
      rw [steps_join]
      split <;> rfl
    rw [hsame] at hall
    dsimp only at h
    split at h
    · -- a slash at the end is no step
      cases h
      show (Path.join _ ⟨""⟩).isAbsolute = true ∧ (Path.join _ ⟨""⟩).steps = _
      rw [isAbsolute_join, steps_join, hbody, hall]
      exact ⟨rfl, List.append_nil _⟩
    · cases h
      exact ⟨hbody, hall⟩

/-- Only the empty path has no absolute form, and stays as it is. -/
theorem absolute?_getD_cases {cwd : Path} (absolute : cwd.isAbsolute = true) (p : Path) :
    p.text = "" ∧ (absolute? cwd p).getD p = p ∨
      p.text ≠ "" ∧ ((absolute? cwd p).getD p).isAbsolute = true ∧
        ((absolute? cwd p).getD p).steps = (cwd.join p).steps := by
  by_cases h : p.text = ""
  · rw [absolute?, if_pos h]
    exact .inl ⟨h, rfl⟩
  · have hsome : absolute? cwd p = some ((absolute? cwd p).getD p) := by
      rw [absolute?, if_neg h]
      rfl
    exact .inr ⟨h, steps_of_absolute? absolute hsome⟩

/-! ## Plain paths -/

/-- What is put below a directory comes behind one text, whatever its name is. -/
theorem text_div (d : Path) :
    ∃ stem, ∀ name : String, '/' ∉ name.toList → (d / name).text = stem ++ name := by
  by_cases hlast : (d.text.toList.getLast?.getD '/' == '/') = true
  · refine ⟨d.text, fun name slash => ?_⟩
    show (d.join ⟨name⟩).text = _
    rw [join, isAbsolute_eq_false slash, if_neg Bool.false_ne_true, if_pos hlast]
  · refine ⟨d.text ++ "/", fun name slash => ?_⟩
    show (d.join ⟨name⟩).text = _
    rw [join, isAbsolute_eq_false slash, if_neg Bool.false_ne_true, if_neg hlast]

/-- A name that is put below a directory comes behind the segments of the directory. A slash at the
end of the directory makes no segment of its own any more. -/
theorem segments_div (d : Path) :
    ∃ front, (d.segments = front ∨ d.segments = front ++ [""]) ∧
      ∀ name : String, '/' ∉ name.toList → (d / name).segments = front ++ [name] := by
  cases hlast : d.text.toList.getLast? with
  | none =>
      have hempty : d.text = "" := String.toList_inj.mp (List.getLast?_eq_none_iff.mp hlast)
      refine ⟨[], .inr ?_, fun name slash => ?_⟩
      · rw [segments, hempty]
        rfl
      · show (d.join ⟨name⟩).segments = _
        rw [join_of_empty hempty, segments_mk slash]
        rfl
  | some c =>
      by_cases hc : c = '/'
      · subst hc
        obtain ⟨front, hfront⟩ := List.getLast?_eq_some_iff.mp hlast
        refine ⟨segments ⟨String.ofList front⟩, .inr ?_, fun name slash => ?_⟩
        · rw [segments_of_slash hfront]
          rfl
        · have htext : (d.text ++ name).toList = front ++ '/' :: name.toList := by
            rw [String.toList_append, hfront, List.append_assoc]
            rfl
          show (d.join ⟨name⟩).segments = _
          rw [join, isAbsolute_eq_false slash, if_neg Bool.false_ne_true, hlast, Option.getD_some,
            if_pos (by rfl), segments_of_slash htext, String.ofList_toList, segments_mk slash]
      · refine ⟨d.segments, .inl rfl, fun name slash => ?_⟩
        have htext : (d.text ++ "/" ++ name).toList = d.text.toList ++ '/' :: name.toList := by
          rw [String.toList_append, String.toList_append, List.append_assoc]
          rfl
        show (d.join ⟨name⟩).segments = _
        rw [join, isAbsolute_eq_false slash, if_neg Bool.false_ne_true, hlast, Option.getD_some,
          if_neg (by simpa using hc), segments_of_slash htext, String.ofList_toList,
          String.ofList_toList, segments_mk slash]

/-- Whether a path says by itself which place it leads to: it is absolute, and nowhere in its text
does `.` or `..` stand between slashes. -/
structure IsPlain (p : Path) : Prop where
  absolute : p.isAbsolute = true
  dot : "." ∉ p.segments
  up : ".." ∉ p.segments

instance (p : Path) : Decidable p.IsPlain :=
  decidable_of_iff (p.isAbsolute = true ∧ "." ∉ p.segments ∧ ".." ∉ p.segments)
    ⟨fun ⟨absolute, dot, up⟩ => ⟨absolute, dot, up⟩, fun ⟨absolute, dot, up⟩ => ⟨absolute, dot, up⟩⟩

/-- Names written as a path make a plain one. -/
theorem isPlain_ofNames {ns : List String} (h : ∀ s ∈ ns, IsName s) : (ofNames ns).IsPlain := by
  have hsegments := segments_ofNames fun s hs => (h s hs).slash
  have hmem (s : String) (hne : s ≠ "") (hs : s ∈ (ofNames ns).segments) : s ∈ ns := by
    rw [hsegments] at hs
    rcases List.mem_cons.mp hs with rfl | hrest
    · exact absurd rfl hne
    · split at hrest
      · exact absurd (List.mem_singleton.mp hrest) hne
      · exact hrest
  constructor
  · simp [isAbsolute, ofNames, String.toList_append]
  · exact fun hs => (h "." (hmem "." (by decide) hs)).ne_dot rfl
  · exact fun hs => (h ".." (hmem ".." (by decide) hs)).ne_up rfl

/-- **The path of a name below a directory is plain if and only if the directory is.** -/
theorem isPlain_div_iff (d : Path) {name : String} (h : IsName name) :
    (d / name).IsPlain ↔ d.IsPlain := by
  obtain ⟨front, hfront, hnames⟩ := d.segments_div
  have hsegments := hnames name h.slash
  have habsolute : (d / name).isAbsolute = d.isAbsolute := by
    show (d.join ⟨name⟩).isAbsolute = _
    rw [isAbsolute_join, isAbsolute_eq_false h.slash, Bool.false_or]
  have hmem (s : String) (hne : s ≠ "") (hname : s ≠ name) :
      s ∈ (d / name).segments ↔ s ∈ d.segments := by
    rw [hsegments, List.mem_append, List.mem_singleton, or_iff_left hname]
    rcases hfront with hd | hd
    · rw [hd]
    · rw [hd, List.mem_append, List.mem_singleton, or_iff_left hne]
  have hdot := hmem "." (by decide) h.ne_dot.symm
  have hup := hmem ".." (by decide) h.ne_up.symm
  constructor
  · rintro ⟨absolute, dot, up⟩
    exact ⟨habsolute ▸ absolute, mt hdot.mpr dot, mt hup.mpr up⟩
  · rintro ⟨absolute, dot, up⟩
    exact ⟨habsolute.trans absolute, mt hdot.mp dot, mt hup.mp up⟩

/-! ## The directory above a place -/

theorem toList_ofNames_concat (front : List String) (last : String) :
    (ofNames (front ++ [last])).text.toList
      = (if front = [] then [] else (ofNames front).text.toList) ++ '/' :: last.toList := by
  by_cases hfront : front = []
  · rw [if_pos hfront, hfront]
    simp [ofNames, String.toList_append]
  · rw [if_neg hfront, ofNames, ofNames,
      String.intercalate_append_of_ne_nil hfront (List.cons_ne_nil last []),
      String.intercalate_singleton]
    simp [String.toList_append]

/-- Nothing is idle at the end of a name behind a slash. -/
theorem dropIdleEnd_name {name : String} (h : IsName name) (rest : List Char) :
    dropIdleEnd (name.toList.reverse ++ '/' :: rest) = name.toList.reverse ++ '/' :: rest := by
  have hslash : '/' ∉ name.toList.reverse := by simpa using h.slash
  have hempty : name.toList.reverse ≠ [] := by simpa using h.ne_empty
  have hdot : name.toList.reverse ≠ ['.'] := by
    intro heq
    refine h.ne_dot (String.toList_inj.mp ?_)
    rw [← List.reverse_reverse name.toList, heq]
    rfl
  generalize name.toList.reverse = cs at *
  match cs with
  | [] => exact absurd rfl hempty
  | [c] =>
      have hc : c ≠ '/' := by simpa [eq_comm] using hslash
      have hc' : c ≠ '.' := by simpa using hdot
      unfold dropIdleEnd
      split <;> simp_all
  | c :: d :: cs =>
      have hc : c ≠ '/' := by rintro rfl; exact hslash List.mem_cons_self
      have hd : d ≠ '/' := by
        rintro rfl
        exact hslash (List.mem_cons_of_mem c List.mem_cons_self)
      unfold dropIdleEnd
      split <;> simp_all

theorem dropIdleEnd_slash {cs : List Char} (h : cs ≠ []) :
    dropIdleEnd ('/' :: cs) = dropIdleEnd cs := by
  cases cs with
  | nil => exact absurd rfl h
  | cons c cs => rfl

/-- The parent of a place is the directory through which its last name is reached. -/
theorem parent?_ofNames {front : List String} {last : String}
    (h : ∀ s ∈ front ++ [last], IsName s) :
    parent? (ofNames (front ++ [last])) = some (ofNames front) := by
  have hlast := h last (List.mem_append_right front List.mem_cons_self)
  have hname : ∀ c ∈ last.toList.reverse, (c != '/') = true := by
    intro c hc
    simpa using fun heq : c = '/' => hlast.slash (by simpa [heq] using hc)
  have hdrop (rest : List Char) :
      (last.toList.reverse ++ '/' :: rest).dropWhile (· != '/') = '/' :: rest := by
    rw [List.dropWhile_append_of_pos hname, List.dropWhile_cons_of_neg (by simp)]
  -- the slash before the last name goes, and the name before it stays
  have hfront : String.ofList (dropIdleEnd ('/' :: (if front = [] then []
      else (ofNames front).text.toList).reverse)).reverse = (ofNames front).text := by
    by_cases hnil : front = []
    · rw [if_pos hnil, hnil]
      rfl
    · obtain ⟨above, name, rfl⟩ : ∃ above name, front = above ++ [name] :=
        ⟨_, _, (List.dropLast_concat_getLast hnil).symm⟩
      have hname' := h name (by simp)
      rw [if_neg hnil, dropIdleEnd_slash (by simp [ofNames]), toList_ofNames_concat,
        List.reverse_append, List.reverse_cons, List.append_assoc, List.singleton_append,
        dropIdleEnd_name hname']
      rw [← List.singleton_append, ← List.append_assoc, ← List.reverse_cons, ← List.reverse_append,
        ← toList_ofNames_concat, List.reverse_reverse, String.ofList_toList]
  rw [parent?, toList_ofNames_concat, List.reverse_append, List.reverse_cons, List.append_assoc,
    List.singleton_append, dropIdleEnd_name hlast]
  split
  · next heq => simp at heq
  · next heq =>
      have hlength := congrArg List.length heq
      have hpos : 0 < last.toList.length :=
        List.length_pos_iff.mpr fun hnil => hlast.ne_empty (String.toList_inj.mp hnil)
      simp only [List.length_append, List.length_reverse, List.length_cons, List.length_nil]
        at hlength
      omega
  · rw [hdrop, hfront]

theorem fileName?_ofNames {front : List String} {last : String}
    (h : ∀ s ∈ front ++ [last], IsName s) : fileName? (ofNames (front ++ [last])) = some last := by
  have hlast := h last (List.mem_append_right front List.mem_cons_self)
  rw [fileName?, steps_ofNames h, List.getLast?_concat]
  split
  · next heq => exact absurd (Option.some.inj heq) hlast.ne_up
  · rfl

end ScriptSessions.Path
