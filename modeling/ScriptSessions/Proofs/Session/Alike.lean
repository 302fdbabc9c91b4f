import ScriptSessions.Proofs.Reference.Resolve
import ScriptSessions.Proofs.Session.Outcomes

set_option autoImplicit false

/-! # Passes over one text that start from different caches

Two passes over one text settle the same requests, but through two caches. A location comes to the
same in both if its key has an entry of one path in either cache, or if the location is
undisputed. Of the requests with one key it is the first that counts: what it resolves to is there
for the others, and if it is undisputed and leads nowhere, no location of the key leads anywhere
(`Resolver.alike_settleAll`).

The lists that a pass stores show all of this. Where a location comes to different things, the
findings differ (`Findings.Backed.map_path_found?`).
-/

namespace ScriptSessions

open Reference

/-! ## Locations in two caches -/

namespace Reference

variable {w : World} {dirs : List Path} {asked : String → Prop} {c c' d d' : Cache} {key : Key}
  {location : String}

/-- Whether two caches have entries of one path at a key. -/
def Cache.AgreeAt (c c' : Cache) (key : Key) : Prop :=
  ∃ e e', c.entryAt? key = some e ∧ c'.entryAt? key = some e' ∧ e.path = e'.path

theorem Cache.AgreeAt.keeps (h : c.AgreeAt c' key) (hcd : c.Keeps d) (hcd' : c'.Keeps d') :
    d.AgreeAt d' key := by
  obtain ⟨e, e', he, he', hpath⟩ := h
  exact ⟨e, e', hcd key e he, hcd' key e' he', hpath⟩

/-- A location comes to the same in two caches that agree at its key, or if it is undisputed. -/
theorem Cache.Regular.map_path_resolve_eq (h : c.Regular (.only w dirs asked) [])
    (h' : c'.Regular (.only w dirs asked) [])
    (clear : ∀ key, Key.normalize w.directory location = .ok key →
      c.AgreeAt c' key ∨ Undisputed w dirs asked location) :
    (c.resolve w location).1.map Entry.path = (c'.resolve w location).1.map Entry.path := by
  cases hkey : Key.normalize w.directory location with
  | error reason =>
      have hnone (c : Cache) : c.get? w.directory location = none := by simp only [get?, hkey]
      rw [h.map_path_resolve (hnone c), h'.map_path_resolve (hnone c')]
  | ok key =>
      rcases clear key hkey with ⟨e, e', he, he', hpath⟩ | undisputed
      · rw [resolve_of_entryAt? hkey he, resolve_of_entryAt? hkey he']
        exact congrArg Except.ok hpath
      · rw [undisputed.map_path_resolve h, undisputed.map_path_resolve h']

/-- After an undisputed location has been resolved in two caches, they agree at its key, or every
location with this key is undisputed. -/
theorem Undisputed.agreeAt_or (undisputed : Undisputed w dirs asked location)
    (h : c.Regular (.only w dirs asked) []) (h' : c'.Regular (.only w dirs asked) [])
    (hasked : asked location) (hkey : Key.normalize w.directory location = .ok key) :
    (c.resolve w location).2.AgreeAt (c'.resolve w location).2 key ∨
      ∀ other, Key.normalize w.directory other = .ok key → Undisputed w dirs asked other := by
  cases hlocate : locateModule w dirs location with
  | ok p =>
      obtain ⟨e, he, hpath⟩ :=
        h.exists_entryAt?_resolve hasked hkey ((undisputed.map_path_resolve h).trans hlocate)
      obtain ⟨e', he', hpath'⟩ :=
        h'.exists_entryAt?_resolve hasked hkey ((undisputed.map_path_resolve h').trans hlocate)
      exact .inl ⟨e, e', he, he', hpath.trans hpath'.symm⟩
  | error reason =>
      -- a spelling that led somewhere would dispute the location
      refine .inr fun other hother third hthird hthird' p hp => ?_
      have hleads := undisputed third hthird ((hthird'.trans hother).trans hkey.symm) p hp
      cases hlocate.symm.trans hleads

end Reference

/-! ## Requests in two caches -/

/-- Two outcomes are alike if they are the same but for the identity of an entry. -/
inductive Outcome.Alike : Outcome → Outcome → Prop where
  | resolved (e e' : Entry) (path : e.path = e'.path) : Alike (.resolved e) (.resolved e')
  | same (o : Outcome) (ho : o.found? = none) : Alike o o

/-- Where one of two outcomes that are alike has an entry, the other has one with its path. -/
theorem Outcome.Alike.found? {o o' : Outcome} (h : Alike o o') :
    Option.Rel (fun e e' : Entry => e.path = e'.path) o.found? o'.found? := by
  cases h with
  | resolved e e' path => exact .some path
  | same o ho =>
      rw [ho]
      exact .none

theorem Outcome.alike_ofResult {result result' : Except Error Entry}
    (h : result.map Entry.path = result'.map Entry.path) :
    Alike (ofResult result) (ofResult result') := by
  cases result with
  | error reason =>
      cases result' with
      | error reason' =>
          rw [show reason = reason' from Except.error.inj h]
          exact .same _ rfl
      | ok e' => cases h
  | ok e =>
      cases result' with
      | error reason' => cases h
      | ok e' => exact .resolved e e' (Except.ok.inj h)

theorem Outcome.found?_ofResult_eq_some_iff {result : Except Error Entry} {e : Entry} :
    (ofResult result).found? = some e ↔ result = .ok e := by
  cases result <;> simp [ofResult, found?]

theorem Outcome.map_path_found?_ofResult (result : Except Error Entry) :
    (ofResult result).found?.map Entry.path = (result.map Entry.path).toOption := by
  cases result <;> rfl

namespace Resolver

variable {w : World} {dirs : List Path} {asked : String → Prop} {r : Resolver} {c c' : Cache}
  {d : Directive} {ds : List Directive} {key : Key} {location : String}

/-- The location that is looked for on behalf of a directive. -/
def location? (r : Resolver) (d : Directive) : Option String :=
  match d.kind with
  | .load => none
  | .reference => (r.location d.value).toOption

/-- The key of this location. -/
def key? (directory : Path) (r : Resolver) (d : Directive) : Option Key :=
  (r.location? d).bind fun location => (Key.normalize directory location).toOption

theorem key?_eq_some_iff {directory : Path} :
    r.key? directory d = some key ↔
      ∃ location, r.location? d = some location ∧ Key.normalize directory location = .ok key := by
  rw [key?, Option.bind_eq_some_iff]
  refine exists_congr fun location => and_congr_right fun _ => ?_
  cases Key.normalize directory location <;> simp [Except.toOption]

/-- If there is no location to look for, the cache has no part in a request. -/
theorem settle_of_no_location (hl : r.location? d = none) :
    ∃ o, o.found? = none ∧ ∀ c, r.settle w c d = (o, c) := by
  unfold location? at hl
  unfold settle
  cases hk : d.kind with
  | load => exact ⟨_, by split <;> rfl, fun _ => rfl⟩
  | reference =>
      rw [hk] at hl
      cases hlocation : r.location d.value with
      | error reason => exact ⟨.unresolved reason, rfl, fun _ => rfl⟩
      | ok location =>
          rw [hlocation] at hl
          cases hl

/-- Otherwise the location is resolved. -/
theorem settle_of_location (hl : r.location? d = some location) :
    r.settle w c d = (.ofResult (c.resolve w location).1, (c.resolve w location).2) := by
  unfold location? at hl
  unfold settle
  cases hk : d.kind with
  | load =>
      rw [hk] at hl
      cases hl
  | reference =>
      rw [hk] at hl
      cases hlocation : r.location d.value with
      | error reason =>
          rw [hlocation] at hl
          cases hl
      | ok location' =>
          rw [hlocation] at hl
          cases hl
          rfl

/-- The locations of some requests may be asked for. -/
def Asks (asked : String → Prop) (r : Resolver) (ds : List Directive) : Prop :=
  ∀ d ∈ ds, ∀ location, r.location? d = some location → asked location

theorem Asks.head (h : r.Asks asked (d :: ds)) (hl : r.location? d = some location) :
    asked location := h d List.mem_cons_self location hl

theorem Asks.tail (h : r.Asks asked (d :: ds)) : r.Asks asked ds :=
  fun d' hd' => h d' (List.mem_cons_of_mem d hd')

theorem regular_settle (h : c.Regular (.only w dirs asked) [])
    (hasked : ∀ location, r.location? d = some location → asked location) :
    (r.settle w c d).2.Regular (.only w dirs asked) [] ∧ c.Keeps (r.settle w c d).2 := by
  cases hl : r.location? d with
  | none =>
      obtain ⟨o, -, heq⟩ := settle_of_no_location (w := w) hl
      rw [heq]
      exact ⟨h, .refl c⟩
  | some location =>
      rw [settle_of_location hl]
      have hsettled := h.resolve (w := w) rfl (hasked location hl)
      exact ⟨hsettled.regular, hsettled.keeps⟩

theorem regular_settleAll (h : c.Regular (.only w dirs asked) []) (asks : r.Asks asked ds) :
    (r.settleAll w c ds).2.Regular (.only w dirs asked) [] ∧
      c.Keeps (r.settleAll w c ds).2 := by
  induction ds generalizing c with
  | nil => exact ⟨h, .refl c⟩
  | cons d rest ih =>
      obtain ⟨hone, hkeeps⟩ := regular_settle h fun _ => asks.head
      obtain ⟨hall, hkeeps'⟩ := ih hone asks.tail
      exact ⟨hall, hkeeps.trans hkeeps'⟩

/-! ### What becomes of one request -/

/-- Whether the entries to which requests have resolved are those of their keys. -/
def KeptAt (directory : Path) (r : Resolver) (c : Cache) (settled : List (Directive × Outcome)) :
    Prop :=
  ∀ p ∈ settled, ∀ e, p.2.found? = some e →
    ∃ key, r.key? directory p.1 = some key ∧ c.entryAt? key = some e

theorem keptAt_settleAll (h : c.Regular (.only w dirs asked) []) (asks : r.Asks asked ds) :
    r.KeptAt w.directory (r.settleAll w c ds).2 (r.settleAll w c ds).1 := by
  induction ds generalizing c with
  | nil => exact nofun
  | cons d rest ih =>
      have hone := (regular_settle h fun _ => asks.head).1
      have hrest := regular_settleAll hone asks.tail
      refine List.forall_mem_cons.mpr ⟨fun e he => ?_, ih hone asks.tail⟩
      replace he : (r.settle w c d).1.found? = some e := he
      cases hl : r.location? d with
      | none =>
          obtain ⟨o, ho, heq⟩ := settle_of_no_location (w := w) hl
          rw [heq, ho] at he
          cases he
      | some location =>
          rw [settle_of_location hl, Outcome.found?_ofResult_eq_some_iff] at he
          obtain ⟨key, hkey, hentry⟩ := h.entryAt?_of_resolve (asks.head hl) he
          refine ⟨key, key?_eq_some_iff.mpr ⟨location, hl, hkey⟩, hrest.2 key e ?_⟩
          rw [settle_of_location hl]
          exact hentry

/-- A request whose key has an entry resolves to it. -/
theorem mem_settleAll_of_entryAt? (h : c.Regular (.only w dirs asked) [])
    (asks : r.Asks asked ds) (hd : d ∈ ds) (hkey : r.key? w.directory d = some key) {e : Entry}
    (he : c.entryAt? key = some e) : (d, .resolved e) ∈ (r.settleAll w c ds).1 := by
  induction ds generalizing c with
  | nil => cases hd
  | cons d' rest ih =>
      have hone := regular_settle h fun _ => asks.head
      rcases List.mem_cons.mp hd with rfl | hrest
      · obtain ⟨location, hl, hk⟩ := key?_eq_some_iff.mp hkey
        have hsettle : (r.settle w c d).1 = .resolved e := by
          rw [settle_of_location hl, Cache.resolve_of_entryAt? hk he]
          rfl
        exact hsettle ▸ List.mem_cons_self
      · exact List.mem_cons_of_mem _ (ih hone.1 asks.tail hrest (hone.2 key e he))

/-- Settling a request gives no entry to any key but its own. -/
theorem entryAt?_settle (h : c.Regular (.only w dirs asked) [])
    (other : r.key? w.directory d ≠ some key) :
    (r.settle w c d).2.entryAt? key = c.entryAt? key := by
  cases hl : r.location? d with
  | none =>
      obtain ⟨o, -, heq⟩ := settle_of_no_location (w := w) hl
      rw [heq]
  | some location =>
      rw [settle_of_location hl]
      exact h.entryAt?_resolve fun hkey => other (key?_eq_some_iff.mpr ⟨location, hl, hkey⟩)

/-- The first request of a key without an entry comes to what its location leads to. -/
theorem exists_settleAll_of_first (h : c.Regular (.only w dirs asked) [])
    (asks : r.Asks asked ds)
    (first : ds.find? (fun d => r.key? w.directory d == some key) = some d)
    (fresh : c.entryAt? key = none) (hl : r.location? d = some location) :
    ∃ o, (d, o) ∈ (r.settleAll w c ds).1 ∧
      o.found?.map Entry.path = (locateModule w dirs location).toOption := by
  induction ds generalizing c with
  | nil => cases first
  | cons d' rest ih =>
      rw [List.find?_cons] at first
      split at first
      · next hkey =>
          cases first
          refine ⟨(r.settle w c d).1, List.mem_cons_self, ?_⟩
          obtain ⟨location', hl', hk⟩ := key?_eq_some_iff.mp (beq_iff_eq.mp hkey)
          cases hl.symm.trans hl'
          have hnone := (Cache.get?_of_key hk).trans fresh
          rw [settle_of_location hl, Outcome.map_path_found?_ofResult, h.map_path_resolve hnone]
      · next hother =>
          have hone := regular_settle h fun _ => asks.head
          rw [← entryAt?_settle h (by simpa using hother)] at fresh
          obtain ⟨o, hmem, ho⟩ := ih hone.1 asks.tail first fresh
          exact ⟨o, List.mem_cons_of_mem _ hmem, ho⟩

/-! ### What becomes of all requests -/

theorem alike_settle (h : c.Regular (.only w dirs asked) [])
    (h' : c'.Regular (.only w dirs asked) [])
    (clear : ∀ location key, r.location? d = some location →
      Key.normalize w.directory location = .ok key →
      c.AgreeAt c' key ∨ Undisputed w dirs asked location) :
    Outcome.Alike (r.settle w c d).1 (r.settle w c' d).1 := by
  cases hl : r.location? d with
  | none =>
      obtain ⟨o, ho, heq⟩ := settle_of_no_location (w := w) hl
      rw [heq, heq]
      exact .same o ho
  | some location =>
      rw [settle_of_location hl, settle_of_location hl]
      exact Outcome.alike_ofResult
        (h.map_path_resolve_eq h' fun key => clear location key hl)

/-- Requests come to the same in two caches that agree at their keys, but for the keys of which
the first request is undisputed. -/
theorem alike_settleAll (h : c.Regular (.only w dirs asked) [])
    (h' : c'.Regular (.only w dirs asked) []) (asks : r.Asks asked ds)
    (clear : ∀ key d, ds.find? (fun d => r.key? w.directory d == some key) = some d →
      c.AgreeAt c' key ∨ ∀ location, r.location? d = some location →
        Undisputed w dirs asked location) :
    List.Forall₂ (fun p p' => p.1 = p'.1 ∧ Outcome.Alike p.2 p'.2)
      (r.settleAll w c ds).1 (r.settleAll w c' ds).1 := by
  induction ds generalizing c c' with
  | nil => exact .nil
  | cons d rest ih =>
      have hone := regular_settle h fun _ => asks.head
      have hone' := regular_settle h' fun _ => asks.head
      have hfirst {key : Key} (hkey : r.key? w.directory d = some key) :=
        clear key d (List.find?_cons_of_pos (by simpa using hkey))
      have hclear : ∀ key d', rest.find? (fun d => r.key? w.directory d == some key) = some d' →
          (r.settle w c d).2.AgreeAt (r.settle w c' d).2 key ∨
            ∀ location, r.location? d' = some location → Undisputed w dirs asked location := by
        intro key d' hfind
        by_cases hkey : r.key? w.directory d = some key
        · -- the head is the first request of the key
          rcases hfirst hkey with hagree | undisputed
          · exact .inl (hagree.keeps hone.2 hone'.2)
          · obtain ⟨location, hl, hk⟩ := key?_eq_some_iff.mp hkey
            rw [settle_of_location hl, settle_of_location hl]
            refine ((undisputed location hl).agreeAt_or h h' (asks.head hl) hk).imp_right ?_
            intro hall other hother
            obtain ⟨location', hl', hk'⟩ :=
              key?_eq_some_iff.mp (by simpa using List.find?_some hfind)
            cases hl'.symm.trans hother
            exact hall other hk'
        · have hrest := clear key d' (by rw [List.find?_cons_of_neg (by simpa using hkey), hfind])
          exact hrest.imp_left (·.keeps hone.2 hone'.2)
      refine .cons ⟨rfl, alike_settle h h' fun location key hl hkey => ?_⟩
        (ih hone.1 hone'.1 asks.tail hclear)
      exact (hfirst (key?_eq_some_iff.mpr ⟨location, hl, hkey⟩)).imp_right (· location hl)

/-- Whether the disk and the entries of a cache decide what requests come to: of every key
without an entry, the first request is undisputed. -/
def Decided (w : World) (dirs : List Path) (asked : String → Prop) (c : Cache) (r : Resolver)
    (ds : List Directive) : Prop :=
  ∀ key d, ds.find? (fun d => r.key? w.directory d == some key) = some d →
    c.entryAt? key = none → ∀ location, r.location? d = some location →
      Undisputed w dirs asked location

/-- Requests that are decided come to the same in all caches that keep the entries. -/
theorem Decided.alike_settleAll {c₀ : Cache} (decided : r.Decided w dirs asked c₀ ds)
    (h : c.Regular (.only w dirs asked) []) (h' : c'.Regular (.only w dirs asked) [])
    (asks : r.Asks asked ds) (keeps : c₀.Keeps c) (keeps' : c₀.Keeps c') :
    List.Forall₂ (fun p p' => p.1 = p'.1 ∧ Outcome.Alike p.2 p'.2)
      (r.settleAll w c ds).1 (r.settleAll w c' ds).1 := by
  refine Resolver.alike_settleAll h h' asks fun key d first => ?_
  cases he : c₀.entryAt? key with
  | some e => exact .inl ⟨e, e, keeps key e he, keeps' key e he, rfl⟩
  | none => exact .inr (decided key d first he)

end Resolver

/-! ## Findings that agree -/

namespace Findings

/-- Two findings list the same, but for the identity of entries. -/
structure SameLists (f f' : Findings) : Prop where
  directives : f.directives = f'.directives
  paths : f.references.map Entry.path = f'.references.map Entry.path
  loadedScripts : f.loadedScripts = f'.loadedScripts
  diagnostics : f.diagnostics = f'.diagnostics

theorem eq_of_sameLists {f f' : Findings} (h : f.SameLists f')
    (references : f.references = f'.references) (version : f'.textVersion = f.textVersion) :
    f' = { f with number := f'.number } := by
  obtain ⟨hd, -, hl, hg⟩ := h
  rw [hd, references, hl, hg, ← version]

namespace Account

variable {ds : List Directive} {settled settled' : List (Directive × Outcome)} {f f' : Findings}

/-- Whether a reference has resolved shows in the findings, if the requests are distinct. -/
theorem mem_directives_iff (h : f.Account ds settled)
    (distinct : ds.Pairwise fun d e => e.sameRequest d = false) {d : Directive} {o : Outcome}
    (hmem : (d, o) ∈ settled) (kind : d.kind = .reference) :
    d.value ∈ f.directives ↔ o.found?.isSome = true := by
  rw [h.directives, List.mem_filterMap]
  constructor
  · rintro ⟨p, hp, hvalue⟩
    obtain ⟨e, he, heq⟩ := Option.map_eq_some_iff.mp hvalue
    have hnodup : (settled.map fun p => (p.1.kind, p.1.value)).Nodup := by
      rw [← h.requests, List.pairwise_map] at distinct
      rw [List.Nodup, List.pairwise_map]
      refine distinct.imp fun {p q} hne hsame => ?_
      rw [Prod.mk.injEq] at hsame
      simp [Directive.sameRequest, hsame.1, hsame.2] at hne
    -- no other request has the value
    have hkind : p.1.kind = d.kind := (h.kind_of_found hp he).trans kind.symm
    have hp' : p = (d, o) := List.inj_on_of_nodup_map hnodup hp hmem (Prod.ext hkind heq)
    rw [hp'] at he
    rw [he, Option.isSome_some]
  · intro hsome
    obtain ⟨e, he⟩ := Option.isSome_iff_exists.mp hsome
    exact ⟨(d, o), hmem, by rw [he]; rfl⟩

/-- If findings list the same, the same requests have resolved. -/
theorem isSome_found? (h : f.Account ds settled) (h' : f'.Account ds settled')
    (distinct : ds.Pairwise fun d e => e.sameRequest d = false) (same : f.SameLists f')
    {d : Directive} {o o' : Outcome} (hmem : (d, o) ∈ settled) (hmem' : (d, o') ∈ settled') :
    o.found?.isSome = o'.found?.isSome := by
  rw [Bool.eq_iff_iff]
  cases kind : d.kind with
  | reference =>
      rw [← h.mem_directives_iff distinct hmem kind, ← h'.mem_directives_iff distinct hmem' kind,
        same.directives]
  | load =>
      rw [Option.isSome_iff_exists, Option.isSome_iff_exists]
      constructor
      · rintro ⟨e, he⟩
        cases kind.symm.trans (h.kind_of_found hmem he)
      · rintro ⟨e, he⟩
        cases kind.symm.trans (h'.kind_of_found hmem' he)

end Account

/-- Findings account for requests, and a cache backs them: its identities are in order, and the
entries are those of the keys of the requests. -/
structure Backed (directory : Path) (r : Resolver) (c : Cache) (ds : List Directive)
    (settled : List (Directive × Outcome)) (f : Findings) : Prop where
  account : f.Account ds settled
  tidy : c.Tidy
  kept : r.KeptAt directory c settled

namespace Backed

variable {directory : Path} {r : Resolver} {c c' : Cache} {ds : List Directive}
  {settled settled' : List (Directive × Outcome)} {f f' : Findings}

/-- Where requests resolve alike, the findings list entries that correspond. These have one key,
and whatever else they have in common before duplicates are erased. -/
theorem forall₂_references {R : Entry → Entry → Prop} (h : f.Backed directory r c ds settled)
    (h' : f'.Backed directory r c' ds settled')
    (alike : List.Forall₂ (fun p p' => p.1 = p'.1 ∧ Option.Rel R p.2.found? p'.2.found?)
      settled settled') :
    List.Forall₂ (fun e e' => R e e' ∧
      ∃ key, c.entryAt? key = some e ∧ c'.entryAt? key = some e') f.references f'.references := by
  rw [h.account.references, h'.account.references]
  refine forall₂_eraseDupsBy (fun a b a' b' hab hab' => ?_) (R := fun e e' => R e e' ∧
      ∃ key, c.entryAt? key = some e ∧ c'.entryAt? key = some e') ?_
  · -- in either cache two entries are the same exactly if their keys are
    obtain ⟨-, key, ha, hb⟩ := hab
    obtain ⟨-, key', ha', hb'⟩ := hab'
    rw [h.tidy.sameAs_eq ha ha', h'.tidy.sameAs_eq hb hb']
  · refine List.rel_filterMap (fun p p' hp => ?_) (forall₂_mem alike)
    obtain ⟨⟨hmem, hmem'⟩, hd, hrel⟩ := hp
    have hkept := h.kept p hmem
    have hkept' := h'.kept p' hmem'
    rw [hd] at hkept
    generalize p.2.found? = x at hrel hkept
    generalize p'.2.found? = x' at hrel hkept'
    cases hrel with
    | none => exact .none
    | some hR =>
        -- the two requests are one, which has one key
        obtain ⟨key, hkey, he⟩ := hkept _ rfl
        obtain ⟨key', hkey', he'⟩ := hkept' _ rfl
        cases hkey.symm.trans hkey'
        exact .some ⟨hR, key, he, he'⟩

/-- Findings list the same if the requests come to the same. -/
theorem sameLists (h : f.Backed directory r c ds settled)
    (h' : f'.Backed directory r c' ds settled')
    (alike : List.Forall₂ (fun p p' => p.1 = p'.1 ∧ Outcome.Alike p.2 p'.2) settled settled') :
    f.SameLists f' := by
  have hentries := h.forall₂_references h' (alike.imp fun _ _ hp => ⟨hp.1, hp.2.found?⟩)
  constructor
  · rw [h.account.directives, h'.account.directives]
    refine filterMap_eq_of_forall₂ ?_ alike
    rintro ⟨d, o⟩ ⟨d', o'⟩ ⟨rfl, ho⟩
    cases ho <;> rfl
  · exact map_eq_map_iff_forall₂.mpr (hentries.imp fun _ _ he => he.1)
  · rw [h.account.loadedScripts, h'.account.loadedScripts]
    refine filterMap_eq_of_forall₂ ?_ alike
    rintro ⟨d, o⟩ ⟨d', o'⟩ ⟨-, ho⟩
    cases ho <;> rfl
  · rw [h.account.diagnostics, h'.account.diagnostics]
    refine filterMap_eq_of_forall₂ ?_ alike
    rintro ⟨d, o⟩ ⟨d', o'⟩ ⟨rfl, ho⟩
    cases ho <;> rfl

/-- If findings list the same, every request has come to an entry of the same path. -/
theorem map_path_found? (h : f.Backed directory r c ds settled)
    (h' : f'.Backed directory r c' ds settled')
    (distinct : ds.Pairwise fun d e => e.sameRequest d = false) (same : f.SameLists f')
    {d : Directive} {o o' : Outcome} (hmem : (d, o) ∈ settled) (hmem' : (d, o') ∈ settled') :
    o.found?.map Entry.path = o'.found?.map Entry.path := by
  have hfirsts : List.Forall₂ (fun p p' => p.1 = p'.1) settled settled' :=
    map_eq_map_iff_forall₂.mp (h.account.requests.trans h'.account.requests.symm)
  have hentries := h.forall₂_references h' (R := fun _ _ => True) <| by
    refine (forall₂_mem hfirsts).imp ?_
    rintro ⟨d, o⟩ ⟨d', o'⟩ ⟨⟨hp, hp'⟩, (rfl : d = d')⟩
    have ho := h.account.isSome_found? h'.account distinct same hp hp'
    refine ⟨rfl, ?_⟩
    revert ho
    cases o.found? <;> cases o'.found? <;> simp
  have ho := h.account.isSome_found? h'.account distinct same hmem hmem'
  have hk := h.kept (d, o) hmem
  have hk' := h'.kept (d, o') hmem'
  have hlisted (e : Entry) (he : o.found? = some e) : ∃ b ∈ f.references, e.sameAs b = true := by
    rw [h.account.references]
    exact exists_mem_eraseDupsBy Entry.sameAs_refl (List.mem_filterMap.mpr ⟨(d, o), hmem, he⟩)
  revert ho hk hk' hlisted
  cases o.found? with
  | none => cases o'.found? <;> simp
  | some e =>
      cases o'.found? with
      | none => simp
      | some e' =>
          intro _ hk hk' hlisted
          obtain ⟨key, hkey, he⟩ := hk e rfl
          obtain ⟨key', hkey', he'⟩ := hk' e' rfl
          cases hkey.symm.trans hkey'
          -- the entry is listed, and the entry listed in its place has the same path and key
          obtain ⟨b, hb, hsame⟩ := hlisted e rfl
          obtain ⟨b', -, ⟨-, other, hb, hb'⟩, hpath⟩ := exists_of_forall₂ hentries same.paths hb
          rw [h.tidy.sameAs_eq he hb, beq_iff_eq] at hsame
          subst hsame
          cases he.symm.trans hb
          cases he'.symm.trans hb'
          rw [Option.map_some, Option.map_some, hpath]

end Backed

end Findings

/-! ## Passes -/

namespace Pass

variable {w : World} {dirs : List Path} {asked : String → Prop} {c₀ c c' : Cache}
  {s s' : Session} {key : Key}

/-- What a pass finds is backed by the cache that it leaves behind. -/
theorem backed_findingsAfter (h : c.Regular (.only w dirs asked) [])
    (asks : s.resolver.Asks asked (Directive.requests s.snapshot.text)) :
    (findingsAfter w c s).Backed w.directory s.resolver
      (s.resolver.settleAll w c (Directive.requests s.snapshot.text)).2
      (Directive.requests s.snapshot.text)
      (s.resolver.settleAll w c (Directive.requests s.snapshot.text)).1 :=
  ⟨account_findingsAfter w c s, (Resolver.regular_settleAll h asks).1.tidy,
    Resolver.keptAt_settleAll h asks⟩

/-- The same of a pass over a session with the same text and resolver. -/
theorem backed_findingsAfter_of_text (h : c'.Regular (.only w dirs asked) [])
    (asks : s.resolver.Asks asked (Directive.requests s.snapshot.text))
    (text : s'.snapshot.text = s.snapshot.text) (resolver : s'.resolver = s.resolver) :
    (findingsAfter w c' s').Backed w.directory s.resolver
      (s.resolver.settleAll w c' (Directive.requests s.snapshot.text)).2
      (Directive.requests s.snapshot.text)
      (s.resolver.settleAll w c' (Directive.requests s.snapshot.text)).1 := by
  rw [← text, ← resolver] at asks ⊢
  exact backed_findingsAfter h asks

/-- Passes over one text find the same in two caches, if the disk and the entries that both have
decide what the requests come to. -/
theorem sameLists_findingsAfter (h : c.Regular (.only w dirs asked) [])
    (h' : c'.Regular (.only w dirs asked) []) (text : s'.snapshot.text = s.snapshot.text)
    (resolver : s'.resolver = s.resolver)
    (asks : s.resolver.Asks asked (Directive.requests s.snapshot.text))
    (decided : s.resolver.Decided w dirs asked c₀ (Directive.requests s.snapshot.text))
    (keeps : c₀.Keeps c) (keeps' : c₀.Keeps c') :
    (findingsAfter w c s).SameLists (findingsAfter w c' s') :=
  (backed_findingsAfter h asks).sameLists (backed_findingsAfter_of_text h' asks text resolver)
    (decided.alike_settleAll h h' asks keeps keeps')

/-- A pass that starts from the cache which another one over the snapshot has left behind finds
the same, the entries included. -/
theorem findingsAfter_again (h : c.Regular (.only w dirs asked) [])
    (asks : s.resolver.Asks asked (Directive.requests s.snapshot.text))
    (decided : s.resolver.Decided w dirs asked c₀ (Directive.requests s.snapshot.text))
    (keeps : c₀.Keeps c)
    (left : c' = (s.resolver.settleAll w c (Directive.requests s.snapshot.text)).2)
    (snapshot : s'.snapshot = s.snapshot) (resolver : s'.resolver = s.resolver) :
    findingsAfter w c' s' = { findingsAfter w c s with number := s'.findings.number + 1 } := by
  have text := congrArg Snapshot.text snapshot
  obtain ⟨hregular, hkeeps⟩ := Resolver.regular_settleAll h asks
  have hbacked := backed_findingsAfter h asks
  rw [← left] at hregular hkeeps hbacked
  have hbacked' := backed_findingsAfter_of_text hregular asks text resolver
  have halike := decided.alike_settleAll h hregular asks keeps (keeps.trans hkeeps)
  have hentries := hbacked.forall₂_references hbacked'
    (halike.imp fun _ _ hp => ⟨hp.1, hp.2.found?⟩)
  have hreferences : (findingsAfter w c s).references.map id
      = (findingsAfter w c' s').references.map id := by
    refine map_eq_map_iff_forall₂.mpr (hentries.imp ?_)
    rintro e e' ⟨-, key, he, he'⟩
    -- the second pass has kept the entry of the key
    have hkept := (Resolver.regular_settleAll hregular asks).2 key e he
    exact Option.some.inj (hkept.symm.trans he')
  rw [List.map_id, List.map_id] at hreferences
  have hversion : (findingsAfter w c' s').textVersion = (findingsAfter w c s).textVersion := by
    rw [textVersion_findingsAfter, textVersion_findingsAfter, snapshot]
  exact Findings.eq_of_sameLists (hbacked.sameLists hbacked' halike) hreferences hversion

/-- Passes over one text do not find the same, if the first request of a key leads elsewhere than
an entry that only one of the caches has. -/
theorem not_sameLists_findingsAfter (h : c.Regular (.only w dirs asked) [])
    (h' : c'.Regular (.only w dirs asked) []) (text : s'.snapshot.text = s.snapshot.text)
    (resolver : s'.resolver = s.resolver)
    (asks : s.resolver.Asks asked (Directive.requests s.snapshot.text))
    {d : Directive} (first : (Directive.requests s.snapshot.text).find?
      (fun d => s.resolver.key? w.directory d == some key) = some d)
    {location : String} (hl : s.resolver.location? d = some location)
    (fresh : c.entryAt? key = none) {e : Entry} (he : c'.entryAt? key = some e)
    (elsewhere : locateModule w dirs location ≠ .ok e.path) :
    ¬ (findingsAfter w c s).SameLists (findingsAfter w c' s') := by
  intro same
  have hkey : s.resolver.key? w.directory d = some key := by simpa using List.find?_some first
  obtain ⟨o, hmem, hpath⟩ := Resolver.exists_settleAll_of_first h asks first fresh hl
  have hmem' := Resolver.mem_settleAll_of_entryAt? h' asks (List.mem_of_find?_eq_some first) hkey he
  have hpaths := (backed_findingsAfter h asks).map_path_found?
    (backed_findingsAfter_of_text h' asks text resolver) (pairwise_eraseDupsBy _) same hmem hmem'
  rw [hpath] at hpaths
  refine elsewhere ?_
  revert hpaths
  cases locateModule w dirs location <;> simp [Except.toOption, Outcome.found?]

end Pass

end ScriptSessions
