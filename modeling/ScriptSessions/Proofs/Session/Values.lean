import ScriptSessions.Proofs.Reference.Asked
import ScriptSessions.Proofs.Session.Alike

set_option autoImplicit false

/-! # The reference values of a text

A pass lists the reference values that resolve, and of each other one it reports an error. Nothing
else that a text can hold is an error: a script to load that does not exist is a warning
(`Findings.Account.isError_iff`).

The values are settled in the order in which they first occur. So a value resolves if its location
does, after the locations that had been asked for before the pass and those of the values before it
(`Findings.Account.mem_directives_iff_resolves`).
-/

namespace ScriptSessions

open Reference

/-! ## Values -/

namespace Directive

/-- The distinct reference values of a text, in the order in which they first occur. -/
def referenceValues (text : String) : List String := (requests text).filterMap referenceValue?

theorem referenceValue?_eq_some_iff {d : Directive} {v : String} :
    d.referenceValue? = some v ↔ d.kind = .reference ∧ d.value = v := by
  unfold referenceValue?
  cases d.kind <;> simp

theorem mem_referenceValues_iff {text v : String} :
    v ∈ referenceValues text ↔ ∃ d ∈ requests text, d.kind = .reference ∧ d.value = v := by
  simp only [referenceValues, List.mem_filterMap, referenceValue?_eq_some_iff]

/-- All reference values of a text are among them. -/
theorem mem_referenceValues_of_mem_scan {text : String} {d : Directive} (hd : d ∈ scan text)
    (kind : d.kind = .reference) : d.value ∈ referenceValues text := by
  have hrefl (e : Directive) : e.sameRequest e = true := by simp [sameRequest]
  obtain ⟨e, he, hsame⟩ := exists_mem_eraseDupsBy hrefl hd
  rw [sameRequest, Bool.and_eq_true, beq_iff_eq, beq_iff_eq] at hsame
  exact mem_referenceValues_iff.mpr ⟨e, he, hsame.1.symm.trans kind, hsame.2.symm⟩

theorem exists_of_mem_referenceValues {text v : String} (hv : v ∈ referenceValues text) :
    ∃ d ∈ scan text, d.kind = .reference ∧ d.value = v := by
  obtain ⟨d, hd, hvalue⟩ := mem_referenceValues_iff.mp hv
  exact ⟨d, mem_of_mem_eraseDupsBy hd, hvalue⟩

theorem nodup_referenceValues (text : String) : (referenceValues text).Nodup := by
  rw [referenceValues, List.Nodup, List.pairwise_filterMap]
  refine (pairwise_eraseDupsBy (scan text)).imp fun {d e} hne v hv v' hv' heq => ?_
  obtain ⟨hkind, hvalue⟩ := referenceValue?_eq_some_iff.mp hv
  obtain ⟨hkind', hvalue'⟩ := referenceValue?_eq_some_iff.mp hv'
  simp [sameRequest, hkind, hkind', hvalue, hvalue', heq] at hne

end Directive

/-! ## What values resolve -/

namespace Resolver

variable {w : World} {dirs : List Path} {asked : List String} {c : Cache} {r : Resolver}
  {d : Directive} {ds : List Directive}

/-- The locations of reference values. -/
def locations (r : Resolver) (values : List String) : List String :=
  values.filterMap fun v => (r.location v).toOption

/-- Whether one of the given reference values resolves, if the locations `asked` have been asked for
before and the values are settled in order. -/
def Resolves (w : World) (searchDirectories : List Path) (asked : List String) (r : Resolver)
    (values : List String) (v : String) : Prop :=
  ∃ location, r.location v = .ok location ∧
    ResolvesAfter w searchDirectories (asked ++ r.locations (values.takeWhile (· != v))) location

/-- What a value comes to depends on the keys that have a module before, and on which of the
locations of the values designate one. -/
theorem resolves_congr {w' : World} {dirs' : List Path} {asked' values : List String} {v : String}
    (hv : v ∈ values) (directory : w'.directory = w.directory)
    (before : ∀ key, Provides w' dirs' asked' key ↔ Provides w dirs asked key)
    (modules : ∀ location ∈ r.locations values,
      Designates w' dirs' location ↔ Designates w dirs location) :
    r.Resolves w' dirs' asked' values v ↔ r.Resolves w dirs asked values v := by
  refine exists_congr fun location => and_congr_right fun hlocation => ?_
  have hhere : location ∈ r.locations values :=
    List.mem_filterMap.mpr ⟨v, hv, congrArg Except.toOption hlocation⟩
  have hearlier : ∀ other ∈ r.locations (values.takeWhile (· != v)), other ∈ r.locations values :=
    ((values.takeWhile_sublist _).filterMap _).subset
  have hnow : ∀ other ∈ r.locations (values.takeWhile (· != v)) ++ [location],
      Designates w' dirs' other ↔ Designates w dirs other := by
    intro other hother
    rcases List.mem_append.mp hother with hmem | hlast
    · exact modules other (hearlier other hmem)
    · rw [List.mem_singleton.mp hlast]
      exact modules location hhere
  rw [ResolvesAfter, ResolvesAfter, directory]
  refine exists_congr fun key => and_congr_right fun _ => ?_
  rw [List.append_assoc, List.append_assoc, provides_append, before,
    provides_congr directory hnow, ← provides_append]

theorem filterMap_location? (r : Resolver) (ds : List Directive) :
    ds.filterMap r.location? = r.locations (ds.filterMap Directive.referenceValue?) := by
  rw [locations, List.filterMap_filterMap]
  refine List.filterMap_congr fun d _ => ?_
  rw [location?, Directive.referenceValue?]
  cases d.kind <;> rfl

theorem after_settle (h : c.After w dirs asked) (d : Directive) :
    (r.settle w c d).2.After w dirs (asked ++ (r.location? d).toList) := by
  cases hl : r.location? d with
  | none =>
      obtain ⟨o, -, heq⟩ := settle_of_no_location (w := w) hl
      rw [heq, Option.toList_none, List.append_nil]
      exact h
  | some location =>
      rw [settle_of_location hl]
      exact h.resolve location

/-- Settling requests asks for their locations in order. -/
theorem after_settleAll (h : c.After w dirs asked) (ds : List Directive) :
    (r.settleAll w c ds).2.After w dirs (asked ++ ds.filterMap r.location?) := by
  induction ds generalizing c asked with
  | nil =>
      rw [List.filterMap_nil, List.append_nil]
      exact h
  | cons d rest ih =>
      have hrest := ih (after_settle (r := r) h d)
      rw [List.append_assoc] at hrest
      have hcons : (d :: rest).filterMap r.location?
          = (r.location? d).toList ++ rest.filterMap r.location? := by
        rw [List.filterMap_cons]
        cases r.location? d <;> rfl
      rw [hcons]
      exact hrest

/-- A request is settled through the cache that those before it have left behind. -/
theorem mem_settleAll_append (w : World) (r : Resolver) (c : Cache) (front : List Directive)
    (d : Directive) (back : List Directive) :
    (d, (r.settle w (r.settleAll w c front).2 d).1) ∈ (r.settleAll w c (front ++ d :: back)).1 := by
  induction front generalizing c with
  | nil => exact List.mem_cons_self
  | cons e front ih => exact List.mem_cons_of_mem _ (ih (r.settle w c e).2)

/-- What a reference comes to. -/
theorem isSome_found?_settle (h : c.After w dirs asked) (kind : d.kind = .reference) :
    (r.settle w c d).1.found?.isSome = true ↔
      ∃ location, r.location d.value = .ok location ∧ ResolvesAfter w dirs asked location := by
  rw [Option.isSome_iff_exists]
  cases hlocation : r.location d.value with
  | error reason =>
      have hnone : r.location? d = none := by
        rw [location?, kind]
        exact congrArg Except.toOption hlocation
      obtain ⟨o, ho, heq⟩ := settle_of_no_location (w := w) hnone
      rw [heq, ho]
      simp
  | ok location =>
      have hsome : r.location? d = some location := by
        rw [location?, kind]
        exact congrArg Except.toOption hlocation
      rw [settle_of_location hsome]
      simp only [Outcome.found?_ofResult_eq_some_iff, h.exists_resolve_iff, Except.ok.injEq,
        exists_eq_left']

end Resolver

/-! ## What is listed and what is an error -/

namespace Findings.Account

variable {text : String} {settled : List (Directive × Outcome)} {f : Findings}

/-- The account of a text lists values of the text only. -/
theorem mem_referenceValues (h : f.Account (Directive.requests text) settled) {v : String}
    (hv : v ∈ f.directives) : v ∈ Directive.referenceValues text := by
  rw [h.directives, List.mem_filterMap] at hv
  obtain ⟨p, hp, hvalue⟩ := hv
  obtain ⟨e, he, rfl⟩ := Option.map_eq_some_iff.mp hvalue
  have hrequest : p.1 ∈ Directive.requests text := h.requests ▸ List.mem_map_of_mem hp
  exact Directive.mem_referenceValues_iff.mpr ⟨p.1, hrequest, h.kind_of_found hp he, rfl⟩

/-- **What is an error.** Some diagnostic is an error if and only if some reference value of the
text is not listed. -/
theorem isError_iff (h : f.Account (Directive.requests text) settled) :
    f.diagnostics.any (·.isError) = true ↔
      ∃ v ∈ Directive.referenceValues text, v ∉ f.directives := by
  have distinct : (Directive.requests text).Pairwise fun d e => e.sameRequest d = false :=
    pairwise_eraseDupsBy _
  rw [List.any_eq_true, h.diagnostics]
  constructor
  · rintro ⟨g, hg, herror⟩
    obtain ⟨⟨d, o⟩, hp, hdiagnostic⟩ := List.mem_filterMap.mp hg
    cases o with
    | resolved entry => cases hdiagnostic
    | loaded path => cases hdiagnostic
    | missing path =>
        -- a script that is missing is a warning
        cases hdiagnostic
        cases herror
    | unresolved reason =>
        have hkind : d.kind = .reference := (h.kinds _ hp).symm
        have hrequest : d ∈ Directive.requests text := h.requests ▸ List.mem_map_of_mem hp
        refine ⟨d.value, Directive.mem_referenceValues_iff.mpr ⟨d, hrequest, hkind, rfl⟩, ?_⟩
        rw [h.mem_directives_iff distinct hp hkind]
        exact Bool.false_ne_true
  · rintro ⟨v, hv, hunlisted⟩
    obtain ⟨d, hd, hkind, rfl⟩ := Directive.mem_referenceValues_iff.mp hv
    rw [← h.requests] at hd
    obtain ⟨⟨d, o⟩, hp, rfl⟩ := List.mem_map.mp hd
    rw [h.mem_directives_iff distinct hp hkind] at hunlisted
    have ho : o.kind = .reference := (h.kinds _ hp).trans hkind
    cases o with
    | resolved entry => exact absurd rfl hunlisted
    | unresolved reason => exact ⟨_, List.mem_filterMap.mpr ⟨_, hp, rfl⟩, rfl⟩
    | loaded path => cases ho
    | missing path => cases ho

/-- **What is listed.** A pass that starts after some locations have been asked for lists the
reference values that resolve. -/
theorem mem_directives_iff_resolves {w : World} {dirs : List Path} {asked : List String} {c : Cache}
    {r : Resolver} (h : f.Account (Directive.requests text)
      (r.settleAll w c (Directive.requests text)).1) (after : c.After w dirs asked) {v : String} :
    v ∈ f.directives ↔ v ∈ Directive.referenceValues text ∧
      r.Resolves w dirs asked (Directive.referenceValues text) v := by
  rw [← and_iff_right_of_imp h.mem_referenceValues]
  refine and_congr_right fun hv => ?_
  obtain ⟨d, hd, hkind, rfl⟩ := Directive.mem_referenceValues_iff.mp hv
  obtain ⟨front, back, hsplit⟩ := List.append_of_mem hd
  have hvalue : d.referenceValue? = some d.value :=
    Directive.referenceValue?_eq_some_iff.mpr ⟨hkind, rfl⟩
  have hvalues : Directive.referenceValues text = front.filterMap Directive.referenceValue?
      ++ d.value :: back.filterMap Directive.referenceValue? := by
    rw [Directive.referenceValues, hsplit, List.filterMap_append, List.filterMap_cons_some hvalue]
  -- the value does not occur before, so what stands before it are the values of the front
  have hnodup := Directive.nodup_referenceValues text
  rw [hvalues] at hnodup
  have hearlier : (Directive.referenceValues text).takeWhile (· != d.value)
      = front.filterMap Directive.referenceValue? := by
    rw [hvalues]
    refine takeWhile_append_cons (fun v hmem => ?_) (by simp) _
    have hne := (List.nodup_append.mp hnodup).2.2 v hmem d.value List.mem_cons_self
    simpa using hne
  have hmem := Resolver.mem_settleAll_append w r c front d back
  rw [← hsplit] at hmem
  rw [h.mem_directives_iff (pairwise_eraseDupsBy _) hmem hkind,
    Resolver.isSome_found?_settle (Resolver.after_settleAll after front) hkind, Resolver.Resolves,
    hearlier, Resolver.filterMap_location?]

end Findings.Account

end ScriptSessions
