import ScriptSessions.Proofs.Documentation.Providers
import ScriptSessions.Proofs.Reference.Keys
import ScriptSessions.Proofs.Reference.Origin
import ScriptSessions.Proofs.Routes
import ScriptSessions.Proofs.World

set_option autoImplicit false

/-! # How a fetch comes to a module and its documentation

A fetch looks at the disk in several of its steps, each time in the world of that step. What it has
found is therefore told by these worlds, in their order: a bare name was found in the first search
directory that held it when the fetch came there (`FoundFirst`), and any other location led to a
regular file when it was examined (`Located`). Until it is over, the fetch keeps to this
(`Fetch.OnRecord.step`).

Beside the module a fetch looks for the documentation provider of the module, as any other call
does. So what is known of such calls holds of the search of a fetch, too (`Searches`), and the
provider that it comes to is the one that is kept under the documentation key of the module
(`Searches.lookup`).
-/

namespace ScriptSessions

/-! ## Documentation -/

namespace Documentation

theorem Inquiry.search_step (w : World) (r : Registry) (q : Inquiry) :
    (q.step w r).1.search = (q.search.step w r).1 ∧ (q.step w r).2 = (q.search.step w r).2 := by
  obtain ⟨path, world?, looks, search⟩ := q
  cases search with
  | probing key files => cases files <;> exact ⟨rfl, rfl⟩
  | asking | choosing | done => exact ⟨rfl, rfl⟩

theorem Inquiry.Move.path {w : World} {r r' : Registry} {q q' : Inquiry} (h : q.Move w r q' r') :
    q'.path = q.path := by
  cases h <;> rfl

/-- Whether a call that has begun has begun in a directory. -/
def Inquiry.BegunIn (cwd : Path) (q : Inquiry) : Prop := ∀ w ∈ q.world?, w.directory = cwd

theorem Inquiry.BegunIn.move {cwd : Path} {w : World} {r r' : Registry} {q q' : Inquiry}
    (h : q.BegunIn cwd) (hw : w.directory = cwd) (hmove : q.Move w r q' r') : q'.BegunIn cwd := by
  cases hmove with
  | known | unknown =>
      intro w' hw'
      rw [← Option.some.inj hw']
      exact hw
  | hit | miss | exhaust | late | insert | idle => exact h

/-- A call that is over has the provider that is kept under the documentation key of its module. -/
theorem Inquiry.Sound.lookup_key {cwd : Path} {r : Registry} {q : Inquiry} (h : q.Sound r)
    (begun : q.BegunIn cwd) {p : Provider} (hp : q.provider? = some p) :
    r.table.lookup (key cwd q.path) = some p := by
  obtain ⟨k, hk, hlookup⟩ := h.lookup hp
  obtain ⟨w, hw, rfl⟩ := Option.map_eq_some_iff.mp hk
  rwa [begun w hw] at hlookup

theorem Search.keeps_step (w : World) (r : Registry) (s : Search) : r.Keeps (s.step w r).2 := by
  have hmove := Inquiry.move_step w r ⟨default, none, [], s⟩
  rw [← (Inquiry.search_step w r ⟨default, none, [], s⟩).2]
  exact hmove.keeps

/-- A key that has a provider is answered at once. -/
theorem Registry.providerFor_of_lookup {w : World} {r : Registry} {path : Path} {p : Provider}
    (h : r.table.lookup (key w.directory path) = some p) : r.providerFor w path = (p, r) := by
  have hstep : (Search.asking path).step w r = (.done p, r) := by simp only [Search.step, h]
  rw [providerFor, Search.finish, hstep, Search.finish]

end Documentation

namespace Reference

open Documentation (Inquiry Registry Search Provider)

/-- Whether a search is one for the provider of a module, seen from a directory. -/
def Searches (cwd : Path) (r : Registry) (path : Path) (s : Search) : Prop :=
  ∃ q : Inquiry, q.search = s ∧ q.path = path ∧ q.Sound r ∧ q.BegunIn cwd

namespace Searches

variable {cwd path : Path} {r r' : Registry} {s : Search}

theorem asking (cwd : Path) (r : Registry) (path : Path) : Searches cwd r path (.asking path) :=
  ⟨.start path, rfl, rfl, ⟨rfl, rfl⟩, nofun⟩

theorem keeps (h : Searches cwd r path s) (hr : r.Keeps r') : Searches cwd r' path s := by
  obtain ⟨q, hsearch, hpath, hsound, hbegun⟩ := h
  exact ⟨q, hsearch, hpath, hsound.keeps hr, hbegun⟩

theorem step {w : World} (hw : w.directory = cwd) (h : Searches cwd r path s) :
    Searches cwd (s.step w r).2 path (s.step w r).1 := by
  obtain ⟨q, rfl, hpath, hsound, hbegun⟩ := h
  obtain ⟨hsearch, hregistry⟩ := q.search_step w r
  have hmove := q.move_step w r
  rw [hregistry] at hmove
  exact ⟨(q.step w r).1, hsearch, hmove.path.trans hpath, hsound.move hmove, hbegun.move hw hmove⟩

theorem lookup {p : Provider} (h : Searches cwd r path (.done p)) :
    r.table.lookup (Documentation.key cwd path) = some p := by
  obtain ⟨q, hsearch, rfl, hsound, hbegun⟩ := h
  exact hsound.lookup_key hbegun (by rw [Inquiry.provider?, hsearch])

end Searches

/-! ## Modules -/

/-- Whether a path is that of a file in the first search directory that held it: the directories
before it were looked at without success, one world for each, and then the file was there. -/
def FoundFirst (searchDirectories : List Path) (file : String) (looks : List World) (path : Path) :
    Prop :=
  ∃ front d back passed w, searchDirectories = front ++ d :: back ∧ path = d / file ∧
    (passed ++ [w]).Sublist looks ∧
    List.Forall₂ (fun d w => w.isFile (d / file) = false) front passed ∧ w.isFile path = true

/-- Where a location has led to, for a fetch that looked in some worlds. -/
inductive Located (cwd : Path) (searchDirectories : List Path) (location : String)
    (looks : List World) : Path → Prop where
  | found (bare : isBareName (Text.trim location) = true) {path : Path}
      (h : FoundFirst searchDirectories (Fetch.moduleFileName (Text.trim location)) looks path) :
      Located cwd searchDirectories location looks path
  | examined (spelled : isBareName (Text.trim location) = false) (w : World) (hw : w ∈ looks)
      (file : w.isFile (modulePath cwd location) = true) :
      Located cwd searchDirectories location looks (modulePath cwd location)

theorem Located.mono {cwd : Path} {searchDirectories : List Path} {location : String}
    {looks looks' : List World} {path : Path}
    (h : Located cwd searchDirectories location looks path) (hsub : looks.Sublist looks') :
    Located cwd searchDirectories location looks' path := by
  cases h with
  | found bare h =>
      obtain ⟨front, d, back, passed, w, hdirs, hpath, hlooks, hmissed, hfile⟩ := h
      exact .found bare ⟨front, d, back, passed, w, hdirs, hpath, hlooks.trans hsub, hmissed, hfile⟩
  | examined spelled w hw file => exact .examined spelled w (hsub.subset hw) file

namespace Fetch

variable {cwd : Path} {dirs : List Path} {looks looks' : List World} {c d : Cache} {f : Fetch}

/-- What a fetch that has looked in some worlds can show for how far it has come. -/
def OnRecord (cwd : Path) (dirs : List Path) (looks : List World) (c : Cache) (f : Fetch) : Prop :=
  match f.stage with
  | .arriving | .finished _ => True
  | .waiting key _ => Key.normalize cwd f.location = .ok key
  | .searching key _ candidates =>
    Key.normalize cwd f.location = .ok key ∧ isBareName (Text.trim f.location) = true ∧
      ∃ front back passed, dirs = front ++ back ∧ passed.Sublist looks ∧
        candidates = back.map (candidate f.location) ∧
        List.Forall₂ (fun d w => w.isFile (candidate f.location d) = false) front passed
  | .examining key _ path =>
    Key.normalize cwd f.location = .ok key ∧ isBareName (Text.trim f.location) = false ∧
      path = modulePath cwd f.location
  | .documenting key _ path search =>
    Key.normalize cwd f.location = .ok key ∧ Located cwd dirs f.location looks path ∧
      Searches cwd c.documentation path search

theorem OnRecord.mono (h : f.OnRecord cwd dirs looks c) (hsub : looks.Sublist looks')
    (hcd : c.documentation.Keeps d.documentation) : f.OnRecord cwd dirs looks' d := by
  obtain ⟨location, stage⟩ := f
  cases stage with
  | arriving | waiting | examining | finished => exact h
  | searching key cell candidates =>
      obtain ⟨hkey, bare, front, back, passed, hdirs, hpassed, hcandidates, hmissed⟩ := h
      exact ⟨hkey, bare, front, back, passed, hdirs, hpassed.trans hsub, hcandidates, hmissed⟩
  | documenting key cell path search =>
      exact ⟨h.1, h.2.1.mono hsub, h.2.2.keeps hcd⟩

/-- Only the search for documentation changes the registry. -/
theorem documentation_step (w : World) (others : List Fetch) (c : Cache) (f : Fetch) :
    (f.step w others c).2.documentation = match f.stage with
      | .documenting _ _ _ search => (search.step w c.documentation).2
      | _ => c.documentation := by
  have hfail (key : Key) (cell : CellId) (e : Error) :
      (fail others c f key cell e).2.documentation = c.documentation := by
    unfold fail Cache.forget
    dsimp only
    split
    · rfl
    · split <;> rfl
  obtain ⟨location, stage⟩ := f
  cases stage with
  | arriving =>
      simp only [step, Cache.obtain]
      split
      · rfl
      · split <;> rfl
  | waiting =>
      simp only [step]
      split
      · rfl
      · split <;> rfl
  | searching key cell candidates =>
      cases candidates with
      | nil => exact hfail key cell _
      | cons path rest => simp only [step]; split <;> rfl
  | examining key cell path =>
      simp only [step]
      split
      · rfl
      · exact hfail key cell _
      · exact hfail key cell _
      · exact hfail key cell _
  | documenting key cell path search => cases search <;> rfl
  | finished => rfl

theorem keeps_documentation_step (w : World) (others : List Fetch) (c : Cache) (f : Fetch) :
    c.documentation.Keeps (f.step w others c).2.documentation := by
  rw [documentation_step]
  split
  · exact Documentation.Search.keeps_step w c.documentation _
  · exact .refl _

/-- **One step.** A fetch that takes a step in a world keeps to its record, to which the world is
added. -/
theorem OnRecord.step {w : World} (hw : w.directory = cwd) (others : List Fetch)
    (hdirs : c.searchDirectories = dirs) (h : f.OnRecord cwd dirs looks c) :
    (f.step w others c).1.OnRecord cwd dirs (looks ++ [w]) (f.step w others c).2 := by
  have hlater : looks.Sublist (looks ++ [w]) := List.sublist_append_left looks [w]
  obtain ⟨location, stage⟩ := f
  cases stage with
  | arriving =>
      simp only [Fetch.step, hw]
      split
      · trivial
      · next key hkey => exact hkey
  | waiting key cell =>
      simp only [Fetch.step]
      split
      · trivial
      · split
        · exact h
        · simp only [beginLoading, hw, hdirs]
          split
          · next bare => exact ⟨h, bare, [], dirs, [], rfl, List.nil_sublist _, rfl, .nil⟩
          · next spelled => exact ⟨h, by simpa using spelled, rfl⟩
  | searching key cell candidates =>
      obtain ⟨hkey, bare, front, back, passed, hsplit, hpassed,
        (rfl : candidates = back.map (candidate location)), hmissed⟩ := h
      cases back with
      | nil => trivial
      | cons d rest =>
          have hlooks : (passed ++ [w]).Sublist (looks ++ [w]) :=
            hpassed.append (List.Sublist.refl [w])
          simp only [List.map_cons, Fetch.step]
          cases hfile : w.isFile (candidate location d) with
          | true =>
              have hfirst : FoundFirst dirs (moduleFileName (Text.trim location)) (looks ++ [w])
                  (candidate location d) :=
                ⟨front, d, rest, passed, w, hsplit, rfl, hlooks, hmissed, hfile⟩
              exact ⟨hkey, .found bare hfirst, .asking cwd c.documentation _⟩
          | false =>
              refine ⟨hkey, bare, front ++ [d], rest, passed ++ [w], ?_, hlooks, rfl,
                List.rel_append hmissed (.cons hfile .nil)⟩
              rw [hsplit, List.append_assoc]
              rfl
  | examining key cell path =>
      obtain ⟨hkey, spelled, (rfl : path = modulePath cwd location)⟩ := h
      simp only [Fetch.step]
      split
      · next content hx =>
          have hfile : w.isFile (modulePath cwd location) = true := by rw [World.isFile, hx]
          exact ⟨hkey, .examined spelled w (List.mem_append_right looks List.mem_cons_self) hfile,
            .asking cwd c.documentation _⟩
      · trivial
      · trivial
      · trivial
  | documenting key cell path search =>
      obtain ⟨hkey, hlocated, hsearches⟩ := h
      have hstep : Searches cwd (search.step w c.documentation).2 path
          (search.step w c.documentation).1 := hsearches.step hw
      cases search with
      | done => trivial
      | asking | probing | choosing => exact ⟨hkey, hlocated.mono hlater, hstep⟩
  | finished => trivial

end Fetch

end Reference

end ScriptSessions
