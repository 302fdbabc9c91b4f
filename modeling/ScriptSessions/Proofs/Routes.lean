import Mathlib.Logic.Relation
import ScriptSessions.Proofs.Path

set_option autoImplicit false

/-! # Routes that lead to one place

The components of a path, as they are written, are a *route* from the root. A route can be made
shorter in three ways, anywhere and in any order: an idle component is left out, a name and the `..`
that takes it back are left out together, and a `..` at the root is left out (`Path.Shortens`). No
order is better than another, because what a route collapses to is the same before and after
(`Path.place_eq_of_shortens`), and every route can be shortened to what it collapses to
(`Path.shortens_place`). So two routes can be shortened to a common one exactly when they collapse
to the same names (`Path.samePlace_iff`), and these are the names that the keys of a location are
made of (`Path.names_eq_place`).

The usual ways to spell a path differently (`Path.Respelled`) all keep the place.
-/

namespace ScriptSessions.Path

/-! ## Routes -/

/-- The components of the absolute form of a path, as they are written. -/
def route (cwd p : Path) : List String :=
  if p.isAbsolute then p.segments else cwd.segments ++ p.segments

/-- One way to make a route shorter. -/
inductive Shortens : List String → List String → Prop
  /-- An empty component and `.` lead nowhere. -/
  | idle (front back : List String) {s : String} (h : s = "" ∨ s = ".") :
      Shortens (front ++ s :: back) (front ++ back)
  /-- A name and `..` behind it lead back. -/
  | turn (front back : List String) {s : String} (h : s ≠ "" ∧ s ≠ "." ∧ s ≠ "..") :
      Shortens (front ++ s :: ".." :: back) (front ++ back)
  /-- Nothing is above the root. -/
  | top (back : List String) : Shortens (".." :: back) back

/-- Two routes lead to the same place if they can be shortened to a common one. -/
def SamePlace : List String → List String → Prop :=
  Relation.Join (Relation.ReflTransGen Shortens)

/-- What is left of a route when it is collapsed. -/
def place (route : List String) : List String :=
  collapseSteps (route.filter fun s => s != "" && s != ".")

theorem collapseSteps_append (ss ts : List String) :
    collapseSteps (ss ++ ts) =
      ts.foldl (fun names s => if s = ".." then names.dropLast else names ++ [s])
        (collapseSteps ss) :=
  List.foldl_append

theorem collapseSteps_append_up (ss : List String) :
    collapseSteps (ss ++ [".."]) = (collapseSteps ss).dropLast :=
  collapseSteps_append ss [".."]

/-- Steps that lead back to where they began can be left out. -/
theorem collapseSteps_append_congr {ss ss' : List String} (h : collapseSteps ss = collapseSteps ss')
    (ts : List String) : collapseSteps (ss ++ ts) = collapseSteps (ss' ++ ts) := by
  rw [collapseSteps_append, collapseSteps_append, h]

theorem collapseSteps_turn (front back : List String) {s : String} (up : s ≠ "..") :
    collapseSteps (front ++ s :: ".." :: back) = collapseSteps (front ++ back) := by
  have hturn : collapseSteps (front ++ [s] ++ [".."]) = collapseSteps front := by
    rw [collapseSteps_append_up, collapseSteps_append_singleton front up, List.dropLast_concat]
  calc collapseSteps (front ++ s :: ".." :: back)
      = collapseSteps (front ++ [s] ++ [".."] ++ back) := by simp
    _ = collapseSteps (front ++ back) := collapseSteps_append_congr hturn back

theorem place_eq_of_shortens {l l' : List String} (h : Shortens l l') : place l = place l' := by
  unfold place
  cases h with
  | idle front back h =>
      have hidle (s : String) (hs : s = "" ∨ s = ".") : (s != "" && s != ".") = false := by
        rcases hs with rfl | rfl <;> rfl
      rw [List.filter_append, List.filter_append, List.filter_cons_of_neg (by simp [hidle _ h])]
  | turn front back h =>
      rw [List.filter_append, List.filter_append, List.filter_cons_of_pos (by simp [h.1, h.2.1]),
        List.filter_cons_of_pos (by decide), collapseSteps_turn _ _ h.2.2]
  | top back => rfl

theorem Shortens.append {l l' : List String} (h : Shortens l l') (back : List String) :
    Shortens (l ++ back) (l' ++ back) := by
  cases h with
  | idle front rest h => simpa using idle front (rest ++ back) h
  | turn front rest h => simpa using turn front (rest ++ back) h
  | top => exact top (l' ++ back)

/-- Every route can be shortened until nothing idle and nothing that leads up is left. -/
theorem shortens_place (l : List String) : Relation.ReflTransGen Shortens l (place l) := by
  -- the induction is on the last component, which `place` treats last
  induction l using List.reverseRecOn with
  | nil => exact .refl
  | append_singleton front s ih =>
      have hfront : Relation.ReflTransGen Shortens (front ++ [s]) (place front ++ [s]) :=
        ih.lift (· ++ [s]) fun _ _ h => Shortens.append h [s]
      refine hfront.trans ?_
      by_cases hidle : s = "" ∨ s = "."
      · have hplace : place (front ++ [s]) = place front := by
          simpa using place_eq_of_shortens (Shortens.idle front [] hidle)
        rw [hplace]
        exact .single (by simpa using Shortens.idle (place front) [] hidle)
      · have hproper : s ≠ "" ∧ s ≠ "." := not_or.mp hidle
        have hplace : place (front ++ [s])
            = collapseSteps (front.filter (fun s => s != "" && s != ".") ++ [s]) := by
          rw [place, List.filter_append, List.filter_cons_of_pos (by simp [hproper])]
          rfl
        rw [hplace]
        by_cases hup : s = ".."
        · subst hup
          rw [collapseSteps_append_up]
          show Relation.ReflTransGen Shortens (place front ++ [".."]) (place front).dropLast
          cases hlast : (place front).getLast? with
          | none =>
              rw [List.getLast?_eq_none_iff.mp hlast]
              exact .single (.top [])
          | some name =>
              obtain ⟨before, hbefore⟩ := List.getLast?_eq_some_iff.mp hlast
              have hname : name ∈ place front := List.mem_of_getLast? hlast
              obtain ⟨hmem, hnotup⟩ := mem_collapseSteps hname
              have hs : name ≠ "" ∧ name ≠ "." := by simpa using (List.mem_filter.mp hmem).2
              rw [hbefore, List.dropLast_concat]
              refine .single ?_
              simpa using Shortens.turn before [] ⟨hs.1, hs.2, hnotup⟩
        · rw [collapseSteps_append_singleton _ hup]
          exact .refl

theorem place_eq_of_reflTransGen {l l' : List String} (h : Relation.ReflTransGen Shortens l l') :
    place l = place l' := by
  induction h with
  | refl => rfl
  | tail _ hstep ih => exact ih.trans (place_eq_of_shortens hstep)

/-- Shortening can be left at any time and taken up in another way: two routes lead to the same
place if and only if they collapse to the same names. -/
theorem samePlace_iff {l l' : List String} : SamePlace l l' ↔ place l = place l' := by
  constructor
  · rintro ⟨common, h, h'⟩
    rw [place_eq_of_reflTransGen h, place_eq_of_reflTransGen h']
  · intro h
    exact ⟨place l, shortens_place l, h ▸ shortens_place l'⟩

/-- The names on the way to a place are what is left of the route. -/
theorem names_eq_place (cwd p : Path) : names cwd p = place (route cwd p) := by
  rw [names, place, route]
  split
  · rfl
  · rw [List.filter_append]
    rfl

theorem samePlace_route_iff {cwd p q : Path} :
    SamePlace (route cwd p) (route cwd q) ↔ names cwd p = names cwd q := by
  rw [samePlace_iff, names_eq_place, names_eq_place]

/-! ## Spelling a path differently -/

/-- Whether a component can begin between the two parts of a text: the first part ends in a slash,
or it is empty and the rest is relative. -/
def AtBoundary (front back : String) : Prop :=
  (∃ before, front = before ++ "/") ∨ front = "" ∧ isAbsolute ⟨back⟩ = false

/-- What can be done to a spelling without changing where it leads. -/
inductive Respelled (cwd : Path) : String → String → Prop
  | here (front back : String) (boundary : AtBoundary front back) :
      Respelled cwd (front ++ back) (front ++ "./" ++ back)
  | detour (front back : String) (boundary : AtBoundary front back) {name : String}
      (h : IsName name) : Respelled cwd (front ++ back) (front ++ (name ++ "/../") ++ back)
  | slash (front back : String) : Respelled cwd (front ++ "/" ++ back) (front ++ "//" ++ back)
  | trailing (s : String) (h : s ≠ "") : Respelled cwd s (s ++ "/")
  /-- A relative path as it is joined with the current directory. -/
  | joined (s : String) : Respelled cwd s (cwd.join ⟨s⟩).text
  /-- The absolute form in which `..` is kept. -/
  | absolute (s : String) {a : Path} (h : absolute? cwd ⟨s⟩ = some a) : Respelled cwd s a.text
  /-- The absolute form in which `..` is collapsed. -/
  | collapsed (s : String) {a : Path} (h : collapsed? cwd ⟨s⟩ = some a) : Respelled cwd s a.text

theorem steps_append_slash (s t : String) : steps ⟨s ++ "/" ++ t⟩ = steps ⟨s⟩ ++ steps ⟨t⟩ := by
  have htext : (s ++ "/" ++ t).toList = s.toList ++ '/' :: t.toList := by
    rw [String.toList_append, String.toList_append, List.append_assoc]
    rfl
  rw [steps_of_slash htext, String.ofList_toList, String.ofList_toList]

theorem isAbsolute_append {s : String} (h : s ≠ "") (t : String) :
    isAbsolute ⟨s ++ t⟩ = isAbsolute ⟨s⟩ := by
  rw [isAbsolute, isAbsolute, String.toList_append]
  cases hs : s.toList with
  | nil => exact absurd (String.toList_inj.mp hs) h
  | cons c rest => rfl

/-- Steps in the middle of a path that lead back to where they began can be left out. -/
theorem names_eq_of_idle {cwd p q : Path} {front middle back : List String}
    (absolute : p.isAbsolute = q.isAbsolute) (hp : p.steps = front ++ middle ++ back)
    (hq : q.steps = front ++ back)
    (idle : ∀ ss, collapseSteps (ss ++ middle) = collapseSteps ss) : names cwd p = names cwd q := by
  rw [names, names, absolute, hp, hq]
  split
  · exact collapseSteps_append_congr (idle front) back
  · rw [← List.append_assoc, ← List.append_assoc, ← List.append_assoc]
    exact collapseSteps_append_congr (idle _) back

/-- A component that can begin where it is inserted, and whose steps lead back to where they began,
does not change where a path leads. -/
theorem names_insert {cwd : Path} {front back inner : String} (boundary : AtBoundary front back)
    (proper : inner ≠ "" ∧ isAbsolute ⟨inner⟩ = false)
    (idle : ∀ ss, collapseSteps (ss ++ steps ⟨inner⟩) = collapseSteps ss) :
    names cwd ⟨front ++ (inner ++ "/") ++ back⟩ = names cwd ⟨front ++ back⟩ := by
  have hinner : steps ⟨inner ++ "/" ++ back⟩ = steps ⟨inner⟩ ++ steps ⟨back⟩ :=
    steps_append_slash inner back
  rcases boundary with ⟨before, rfl⟩ | ⟨rfl, hrelative⟩
  · have hne : before ++ "/" ≠ "" := by simp
    refine names_eq_of_idle ?_ ?_ (steps_append_slash before back) idle
    · rw [String.append_assoc, isAbsolute_append hne, isAbsolute_append hne]
    · rw [String.append_assoc, steps_append_slash, hinner, List.append_assoc]
  · rw [String.empty_append, String.empty_append]
    refine names_eq_of_idle ?_ hinner (List.nil_append _).symm idle
    rw [String.append_assoc, isAbsolute_append proper.1, proper.2, hrelative]

/-- A name and `..` behind it are a relative path that leads back to where it began. -/
theorem steps_turn {name : String} (h : IsName name) : steps ⟨name ++ "/.."⟩ = [name, ".."] := by
  obtain ⟨-, hname⟩ := steps_mk h.slash ⟨h.ne_empty, h.ne_dot⟩
  have htext : name ++ "/.." = name ++ "/" ++ ".." := by rw [String.append_assoc]; rfl
  rw [htext, steps_append_slash, hname, (steps_mk (s := "..") (by decide) (by decide)).2,
    List.singleton_append]

theorem names_eq_of_steps {cwd p q : Path} (absolute : p.isAbsolute = q.isAbsolute)
    (steps : p.steps = q.steps) : names cwd p = names cwd q := by
  rw [names, names, absolute, steps]

theorem names_of_absolute? {cwd p a : Path} (absolute : cwd.isAbsolute = true)
    (h : absolute? cwd p = some a) (cwd' : Path) : names cwd' a = names cwd p := by
  obtain ⟨habsolute, hsteps⟩ := steps_of_absolute? absolute h
  rw [names, names, if_pos habsolute, hsteps, steps_join]

theorem collapsed?_eq_some_iff {cwd p q : Path} :
    collapsed? cwd p = some q ↔ p.text ≠ "" ∧ ofNames (names cwd p) = q := by
  by_cases h : p.text = ""
  · simp [collapsed?, h]
  · simp [collapsed?, h]

theorem names_of_collapsed? {cwd p q : Path} (h : collapsed? cwd p = some q) (cwd' : Path) :
    names cwd' q = names cwd p := by
  obtain ⟨-, rfl⟩ := collapsed?_eq_some_iff.mp h
  exact names_ofNames cwd' fun _ => isName_of_mem_names

/-- **The collapsed form is final**: it is absolute, holds no `.` and no `..`, and stays as it is
when it is collapsed again, from whatever directory. -/
theorem collapsed?_collapsed {cwd p q : Path} (h : collapsed? cwd p = some q) :
    q.IsPlain ∧ ∀ cwd', collapsed? cwd' q = some q := by
  have hnames := names_of_collapsed? h
  obtain ⟨-, hq⟩ := collapsed?_eq_some_iff.mp h
  constructor
  · rw [← hq]
    exact isPlain_ofNames fun _ => isName_of_mem_names
  · intro cwd'
    refine collapsed?_eq_some_iff.mpr ⟨?_, by rw [hnames, hq]⟩
    rw [← hq]
    simp [ofNames]

/-- **Collapsing takes two stages**: the path is made absolute, and the components of the absolute
form are collapsed. -/
theorem collapsed?_eq_map_absolute? {cwd : Path} (absolute : cwd.isAbsolute = true) (p : Path) :
    collapsed? cwd p = (absolute? cwd p).map fun a => ofNames (place a.segments) := by
  cases h : absolute? cwd p with
  | none =>
      have hempty : p.text = "" := by
        by_contra hne
        rw [absolute?, if_neg hne] at h
        cases h
      rw [collapsed?, if_pos hempty]
      rfl
  | some a =>
      have hne : p.text ≠ "" := by
        intro hempty
        rw [absolute?, if_pos hempty] at h
        cases h
      obtain ⟨habsolute, -⟩ := steps_of_absolute? absolute h
      have hnames : names cwd a = collapseSteps a.steps := by rw [names, if_pos habsolute]
      rw [collapsed?, if_neg hne, ← names_of_absolute? absolute h cwd, hnames]
      rfl

theorem names_eq_of_respelled {cwd : Path} (absolute : cwd.isAbsolute = true) {s t : String}
    (h : Respelled cwd s t) : names cwd ⟨s⟩ = names cwd ⟨t⟩ := by
  cases h with
  | here front back boundary =>
      have hdot : names cwd ⟨front ++ ("." ++ "/") ++ back⟩ = names cwd ⟨front ++ back⟩ := by
        refine names_insert boundary ⟨by decide, rfl⟩ fun ss => ?_
        exact congrArg collapseSteps (List.append_nil ss)
      exact hdot.symm
  | detour front back boundary hname =>
      rename_i name
      have htext : name ++ "/../" = name ++ "/.." ++ "/" := by rw [String.append_assoc]; rfl
      rw [htext]
      refine (names_insert boundary ⟨?_, ?_⟩ fun ss => ?_).symm
      · simp
      · rw [isAbsolute_append hname.ne_empty, isAbsolute_eq_false hname.slash]
      · rw [steps_turn hname, collapseSteps_turn ss [] hname.ne_up, List.append_nil]
  | slash front back =>
      have htext : front ++ "//" ++ back = front ++ "/" ++ ("/" ++ back) := by
        have hdouble : "//" = "/" ++ "/" := rfl
        rw [hdouble, ← String.append_assoc, String.append_assoc]
      have hback : steps ⟨"/" ++ back⟩ = steps ⟨back⟩ := steps_append_slash "" back
      have hne : front ++ "/" ≠ "" := by simp
      refine names_eq_of_steps ?_ ?_
      · rw [htext, isAbsolute_append hne, isAbsolute_append hne]
      · rw [htext, steps_append_slash, steps_append_slash, hback]
  | trailing _ hne =>
      refine names_eq_of_steps (isAbsolute_append hne "/").symm ?_
      have hsteps := steps_append_slash s ""
      rw [String.append_empty] at hsteps
      rw [hsteps]
      exact (List.append_nil _).symm
  | joined =>
      have hjoined : (cwd.join ⟨s⟩).isAbsolute = true := by
        rw [isAbsolute_join, absolute, Bool.or_true]
      show _ = names cwd (cwd.join ⟨s⟩)
      rw [names, names, if_pos hjoined, steps_join]
  | absolute _ h => exact (names_of_absolute? absolute h cwd).symm
  | collapsed _ h => exact (names_of_collapsed? h cwd).symm

/-- **Respelling a path keeps its place**, however often it is done and undone. -/
theorem samePlace_of_respelled {cwd : Path} (absolute : cwd.isAbsolute = true) {s t : String}
    (h : Relation.EqvGen (Respelled cwd) s t) : SamePlace (route cwd ⟨s⟩) (route cwd ⟨t⟩) := by
  rw [samePlace_route_iff]
  induction h with
  | rel _ _ h => exact names_eq_of_respelled absolute h
  | refl => rfl
  | symm _ _ _ ih => exact ih.symm
  | trans _ _ _ _ _ ih ih' => exact ih.trans ih'

end ScriptSessions.Path
