import ScriptSessions.Proofs.Documentation.Readings

set_option autoImplicit false

/-! # The first lookup reads

As long as no lookup of a provider is given up (`Desk.Patient`), its file is read once, and it is
the first lookup that reads it (`Desk.First`). The first lookup finds nothing known and no one
loading, so it loads; from then on the members are being loaded or known, and the others wait or
take what is known. The first lookup itself reads once, for it does not come back to the reading.
-/

namespace ScriptSessions.Documentation

/-! ## What a step of a lookup does -/

namespace Lookup

variable {w : World} {others : List Lookup} {r r' : Registry} {l l' : Lookup}

/-- Whether a lookup is beyond the reading, if it came to read at all. -/
def isPast (l : Lookup) : Bool :=
  match l.stage with
  | .storing _ | .finished _ | .left => true
  | .arriving | .waiting | .reading => false

theorem Move.isPast (h : l.Move w others r l' r') (hl : l.isPast = true) : l'.isPast = true := by
  cases h with
  | find | store => rfl
  | wait _ hstage | begin hstage => rcases hstage with hs | hs <;> simp [Lookup.isPast, hs] at hl
  | read hstage => rfl
  | idle => exact hl

theorem isPast_leave (l : Lookup) : l.leave.isPast = true := by
  obtain ⟨p, stage⟩ := l
  cases stage <;> rfl

/-- A lookup that loads goes on loading until the members are known. -/
theorem Move.isLoading (h : l.Move w others r l' r') (hl : l.isLoading = true) :
    l'.isLoading = true ∨ r'.contents.lookup l.provider.id ≠ none := by
  cases h with
  | find _ hstage | wait _ hstage | begin hstage =>
      rcases hstage with hs | hs <;> simp [Lookup.isLoading, hs] at hl
  | read => exact .inl rfl
  | store m => exact .inr (by rw [List.lookup_cons_self]; exact Option.some_ne_none m)
  | idle => exact .inl hl

/-- No step of a lookup gives it up. -/
theorem Move.ne_left (h : l.Move w others r l' r') (hl : l.stage ≠ .left) : l'.stage ≠ .left := by
  cases h with
  | find | wait | begin | read | store => exact nofun
  | idle => exact hl

theorem leave_cases (l : Lookup) : l.leave = l ∨ l.leave.stage = .left := by
  obtain ⟨p, stage⟩ := l
  cases stage with
  | finished => exact .inl rfl
  | arriving | waiting | reading | storing | left => exact .inr rfl

end Lookup

namespace Desk

/-! ## The invariant -/

/-- No lookup of a provider was given up. -/
def Patient (d : Desk) (p : Provider) : Prop :=
  ∀ l ∈ d.lookups, l.provider = p → l.stage ≠ .left

theorem Patient.of_change {d d' : Desk} {p : Provider} (hp : d'.Patient p) {w : World}
    (hc : d.Change w d') : d.Patient p := by
  intro l hl hprovider hleft
  obtain ⟨i, hi⟩ := List.mem_iff_getElem?.mp hl
  exact hp l (List.mem_of_getElem? (hc.lookup hi (.inl hleft))) hprovider hleft

/-- A lookup is given up only if someone gives it up. -/
theorem left_perform {w : World} {d : Desk} {a : Action} (hstay : ∀ j, a ≠ .leave j)
    (h : ∀ l ∈ d.lookups, l.stage ≠ .left) : ∀ l ∈ (d.perform w a).lookups, l.stage ≠ .left := by
  cases a with
  | inquire path => exact h
  | advance i =>
      simp only [perform]
      split
      · exact h
      · exact h
  | ask i =>
      simp only [perform]
      split
      · exact h
      · next p _ =>
          have hstart : (Lookup.start p).stage ≠ .left := by simp [Lookup.start]
          exact List.forall_mem_append.mpr ⟨h, List.forall_mem_singleton.mpr hstart⟩
  | turn j =>
      simp only [perform]
      split
      · exact h
      · next l hj =>
          have hmove := l.move_step w (d.lookups.eraseIdx j) d.registry
          exact forall_mem_set h (hmove.ne_left (h l (List.mem_of_getElem? hj)))
  | leave j => exact absurd rfl (hstay j)

theorem patient_run {directories : Directories} {events : List (World × Action)}
    (hstay : ∀ e ∈ events, ∀ j, e.2 ≠ .leave j) :
    ∀ l ∈ ((new directories).run events).lookups, l.stage ≠ .left := by
  suffices hrun : ∀ d : Desk, (∀ l ∈ d.lookups, l.stage ≠ .left) →
      ∀ l ∈ (d.run events).lookups, l.stage ≠ .left from hrun _ nofun
  induction events with
  | nil => exact fun d h => h
  | cons e rest ih =>
      intro d h
      have hstay' := ih fun e' he' => hstay e' (List.mem_cons_of_mem e he')
      exact hstay' _ (left_perform (hstay e List.mem_cons_self) h)

/-- The readings of a provider. -/
def readingsOf (d : Desk) (p : Provider) : List Reading := d.readings.filter (·.provider = p)

/-- The first lookup of a provider is the only one that loads and reads: the others wait for it,
or come when the members are known. -/
structure First (d : Desk) (p : Provider) : Prop where
  loading : ∀ j l, d.lookups[j]? = some l → l.provider = p → l.isLoading = true →
    d.begun.lookup p = some j
  waiting : ∀ l ∈ d.lookups, l.provider = p → l.stage = .waiting → d.begun.lookup p ≠ none
  reader : ∀ ρ ∈ d.readingsOf p, d.begun.lookup p = some ρ.lookup ∧
    ∃ l, d.lookups[ρ.lookup]? = some l ∧ l.isPast = true
  once : (d.readingsOf p).length ≤ 1
  begun : ∀ j, d.begun.lookup p = some j → d.registry.contents.lookup p.id ≠ none ∨
    ∃ l, d.lookups[j]? = some l ∧ l.provider = p ∧ l.isLoading = true

/-! ## Its preservation -/

/-- A step of a lookup of another provider does not matter. -/
theorem First.set_of_ne {d d' : Desk} {p : Provider} (h : d.First p) {j : Nat} {l l' : Lookup}
    (hj : d.lookups[j]? = some l) (hne : l.provider ≠ p) (hprovider : l'.provider = l.provider)
    (hpast : l.isPast = true → l'.isPast = true) (hlookups : d'.lookups = d.lookups.set j l')
    (hbegun : d'.begun.lookup p = d.begun.lookup p)
    (hreadings : d'.readingsOf p = d.readingsOf p)
    (hcontents : d.registry.contents.lookup p.id ≠ none →
      d'.registry.contents.lookup p.id ≠ none) : d'.First p := by
  have hne' : l'.provider ≠ p := fun heq => hne (hprovider.symm.trans heq)
  refine ⟨fun k o hk hp hloading => ?_, fun o ho hp hwaiting => ?_, fun ρ hρ => ?_, ?_,
    fun k hk => ?_⟩
  · rw [hlookups] at hk
    rcases of_getElem?_set hk with ⟨-, rfl⟩ | ⟨-, hold⟩
    · exact absurd hp hne'
    · rw [hbegun]
      exact h.loading k o hold hp hloading
  · rw [hlookups] at ho
    rcases List.mem_or_eq_of_mem_set ho with hold | rfl
    · rw [hbegun]
      exact h.waiting o hold hp hwaiting
    · exact absurd hp hne'
  · rw [hreadings] at hρ
    obtain ⟨hfirst, o, ho, hopast⟩ := h.reader ρ hρ
    refine ⟨hbegun.trans hfirst, ?_⟩
    rw [hlookups]
    rcases getElem?_set_cases hj l' ho with ⟨hi, rfl⟩ | hsame
    · subst hi
      exact ⟨l', List.getElem?_set_self (List.getElem?_eq_some_iff.mp hj).1, hpast hopast⟩
    · exact ⟨o, hsame, hopast⟩
  · rw [hreadings]
    exact h.once
  · rw [hbegun] at hk
    rcases h.begun k hk with hknown | ⟨o, ho, hp, hloading⟩
    · exact .inl (hcontents hknown)
    · refine .inr ⟨o, ?_, hp, hloading⟩
      rw [hlookups]
      exact (getElem?_set_cases hj l' ho).resolve_left fun hl => hne (hl.2 ▸ hp)

section Turn

variable {w : World} {d : Desk} {j : Nat} {l l' : Lookup} {r : Registry}

/-- A step makes a lookup the first one only if none has begun and it begins. -/
theorem begun_turned (p : Provider) : (d.turned w j l l' r).begun.lookup p
    = (d.begun.lookup p).or (if l.stage = .arriving ∧ p = l.provider then some j else none) := by
  rw [turned, List.lookup_append]
  by_cases harriving : l.stage = .arriving
  · simp [harriving, lookup_cons_eq_ite]
  · simp [harriving]

theorem begun_turned_of_some {p : Provider} {x : Nat} (hx : d.begun.lookup p = some x) :
    (d.turned w j l l' r).begun.lookup p = some x := by
  rw [begun_turned, hx, Option.some_or]

theorem begun_turned_of_arriving (harriving : l.stage = .arriving)
    (hnone : d.begun.lookup l.provider = none) :
    (d.turned w j l l' r).begun.lookup l.provider = some j := by
  rw [begun_turned, hnone, if_pos ⟨harriving, rfl⟩, Option.none_or]

theorem begun_turned_of_ne {p : Provider} (hne : p ≠ l.provider) :
    (d.turned w j l l' r).begun.lookup p = d.begun.lookup p := by
  rw [begun_turned, if_neg fun h => hne h.2, Option.or_none]

theorem begun_turned_cases {p : Provider} {x : Nat}
    (hx : (d.turned w j l l' r).begun.lookup p = some x) : d.begun.lookup p = some x ∨
      d.begun.lookup p = none ∧ l.stage = .arriving ∧ x = j := by
  rw [begun_turned] at hx
  cases hold : d.begun.lookup p with
  | some y =>
      rw [hold, Option.some_or] at hx
      exact .inl hx
  | none =>
      rw [hold, Option.none_or] at hx
      split at hx
      · next h => exact .inr ⟨rfl, h.1, (Option.some.inj hx).symm⟩
      · cases hx

theorem readingsOf_turned (p : Provider) : (d.turned w j l l' r).readingsOf p = d.readingsOf p ++
    if l.stage = .reading ∧ l.provider = p then [⟨l.provider, j, w⟩] else [] := by
  rw [readingsOf, turned, List.filter_append, readingsOf]
  by_cases hstage : l.stage = .reading
  · by_cases hp : l.provider = p <;> simp [hstage, hp]
  · simp [hstage]

variable (h : d.First l.provider) (hj : d.lookups[j]? = some l)
  (hmove : l.Move w (d.lookups.eraseIdx j) d.registry l' r)
include h hj

/-- If nothing is known and no lookup of the provider loads, then none has begun. -/
theorem First.begun_eq_none (hl : l.isLoading = false)
    (hnone : d.registry.contents.lookup l.provider.id = none)
    (free : ∀ o ∈ d.lookups.eraseIdx j, o.isLoading = true → o.provider.id ≠ l.provider.id) :
    d.begun.lookup l.provider = none := by
  refine Option.eq_none_iff_forall_ne_some.mpr fun x hx => ?_
  rcases h.begun x hx with hknown | ⟨o, ho, hp, hloading⟩
  · exact hknown hnone
  · by_cases hxj : x = j
    · rw [hxj, hj] at ho
      rw [← Option.some.inj ho, hl] at hloading
      cases hloading
    · exact free o (List.mem_eraseIdx_iff_getElem?.mpr ⟨x, hxj, ho⟩) hloading (by rw [hp])

include hmove

/-- A lookup that loads is the first one. -/
theorem First.begun_of_isLoading (hl' : l'.isLoading = true) :
    (d.turned w j l l' r).begun.lookup l.provider = some j := by
  cases hmove with
  | find | wait | store => cases hl'
  | begin hstage hnone free =>
      have hl : l.isLoading = false := by
        rcases hstage with hs | hs <;> rw [Lookup.isLoading, hs]
      have hnothing := h.begun_eq_none hj hl hnone free
      refine begun_turned_of_arriving (hstage.resolve_right fun hwaiting => ?_) hnothing
      exact h.waiting l (List.mem_of_getElem? hj) rfl hwaiting hnothing
  | read hstage =>
      exact begun_turned_of_some (h.loading j l hj rfl (by rw [Lookup.isLoading, hstage]))
  | idle => exact begun_turned_of_some (h.loading j l hj rfl hl')

omit hj in
/-- A lookup that waits is not the first one. -/
theorem First.begun_of_waiting
    (same : ∀ o ∈ d.lookups, o.provider.id = l.provider.id → o.provider = l.provider)
    (hl' : l'.stage = .waiting) : ∃ x, x ≠ j ∧ d.begun.lookup l.provider = some x := by
  cases hmove with
  | find | begin | read | store => cases hl'
  | wait o _ _ ho hloading hid =>
      obtain ⟨x, hxj, hx⟩ := List.mem_eraseIdx_iff_getElem?.mp ho
      exact ⟨x, hxj, h.loading x o hx (same o (List.mem_of_getElem? hx) hid) hloading⟩
  | idle hstage => rcases hstage with hs | ⟨m, hs⟩ <;> rw [hs] at hl' <;> cases hl'

theorem First.reader_turned {ρ : Reading}
    (hρ : ρ ∈ (d.turned w j l l' r).readingsOf l.provider) :
    (d.turned w j l l' r).begun.lookup l.provider = some ρ.lookup ∧
      ∃ o, (d.turned w j l l' r).lookups[ρ.lookup]? = some o ∧ o.isPast = true := by
  have hset : (d.turned w j l l' r).lookups[j]? = some l' :=
    List.getElem?_set_self (List.getElem?_eq_some_iff.mp hj).1
  rw [readingsOf_turned] at hρ
  rcases List.mem_append.mp hρ with hold | hnew
  · obtain ⟨hfirst, o, ho, hpast⟩ := h.reader ρ hold
    refine ⟨begun_turned_of_some hfirst, ?_⟩
    rcases getElem?_set_cases hj l' ho with ⟨hi, rfl⟩ | hsame
    · exact ⟨l', hi ▸ hset, hmove.isPast hpast⟩
    · exact ⟨o, hsame, hpast⟩
  · split at hnew
    · next hstage =>
        rw [List.mem_singleton.mp hnew]
        have hloading : l.isLoading = true := by rw [Lookup.isLoading, hstage.1]
        refine ⟨begun_turned_of_some (h.loading j l hj rfl hloading), l', hset, ?_⟩
        cases hmove with
        | find _ hs | wait _ hs | begin hs | store _ hs | idle hs => simp [hstage.1] at hs
        | read => rfl
    · cases hnew

omit hmove in
/-- The first lookup reads once, for it does not come back to the reading. -/
theorem First.length_readingsOf_turned :
    ((d.turned w j l l' r).readingsOf l.provider).length ≤ 1 := by
  rw [readingsOf_turned]
  split
  · next hstage =>
      have hunread : d.readingsOf l.provider = [] := by
        refine List.eq_nil_iff_forall_not_mem.mpr fun ρ hρ => ?_
        obtain ⟨hfirst, o, ho, hpast⟩ := h.reader ρ hρ
        rw [h.loading j l hj rfl (by rw [Lookup.isLoading, hstage.1])] at hfirst
        rw [← Option.some.inj hfirst, hj] at ho
        rw [← Option.some.inj ho, Lookup.isPast, hstage.1] at hpast
        cases hpast
      rw [hunread]
      exact Nat.le_refl 1
  · rw [List.append_nil]
    exact h.once

/-- As long as nothing is known, the first lookup loads. -/
theorem First.known_or_isLoading
    (same : ∀ o ∈ d.lookups, o.provider.id = l.provider.id → o.provider = l.provider)
    (kept : d.registry.contents.lookup l.provider.id ≠ none →
      r.contents.lookup l.provider.id ≠ none) {x : Nat}
    (hx : (d.turned w j l l' r).begun.lookup l.provider = some x) :
    r.contents.lookup l.provider.id ≠ none ∨
      ∃ o, (d.turned w j l l' r).lookups[x]? = some o ∧ o.provider = l.provider ∧
        o.isLoading = true := by
  have hset : (d.turned w j l l' r).lookups[j]? = some l' :=
    List.getElem?_set_self (List.getElem?_eq_some_iff.mp hj).1
  rcases begun_turned_cases hx with hold | ⟨hnothing, harriving, rfl⟩
  · rcases h.begun x hold with hknown | ⟨o, ho, hp, hloading⟩
    · exact .inl (kept hknown)
    · rcases getElem?_set_cases hj l' ho with ⟨rfl, rfl⟩ | hsame
      · rcases hmove.isLoading hloading with hl' | hknown
        · exact .inr ⟨l', hset, hmove.provider_eq, hl'⟩
        · exact .inl hknown
      · exact .inr ⟨o, hsame, hp, hloading⟩
  · -- the first lookup has just begun: it loads unless the members are known
    have hwaiting := h.begun_of_waiting hmove same
    cases hmove with
    | find m _ hknown =>
        rw [hknown]
        exact .inl (Option.some_ne_none m)
    | wait =>
        obtain ⟨y, -, hy⟩ := hwaiting rfl
        rw [hnothing] at hy
        cases hy
    | begin => exact .inr ⟨_, hset, rfl, rfl⟩
    | read hs | store _ hs | idle hs => simp [harriving] at hs

theorem First.turn
    (same : ∀ o ∈ d.lookups, o.provider.id = l.provider.id → o.provider = l.provider)
    (kept : d.registry.contents.lookup l.provider.id ≠ none →
      r.contents.lookup l.provider.id ≠ none) :
    (d.turned w j l l' r).First l.provider := by
  refine ⟨fun k o hk hp hloading => ?_, fun o ho hp hwaiting => ?_,
    fun ρ hρ => h.reader_turned hj hmove hρ, h.length_readingsOf_turned hj,
    fun x hx => h.known_or_isLoading hj hmove same kept hx⟩
  · rcases of_getElem?_set hk with ⟨rfl, rfl⟩ | ⟨-, hold⟩
    · exact h.begun_of_isLoading hj hmove hloading
    · exact begun_turned_of_some (h.loading k o hold hp hloading)
  · suffices hbegun : d.begun.lookup l.provider ≠ none by
      obtain ⟨x, hx⟩ := Option.ne_none_iff_exists'.mp hbegun
      rw [begun_turned_of_some hx]
      exact Option.some_ne_none x
    rcases List.mem_or_eq_of_mem_set ho with hold | rfl
    · exact h.waiting o hold hp hwaiting
    · obtain ⟨x, -, hx⟩ := h.begun_of_waiting hmove same hwaiting
      rw [hx]
      exact Option.some_ne_none x

end Turn

/-- Lookups of providers with one identity are lookups of one provider. -/
theorem Referred.provider_eq {d : Desk} (h : d.Referred) (hk : d.Kept) {l o : Lookup}
    (hl : l ∈ d.lookups) (ho : o ∈ d.lookups) (hid : o.provider.id = l.provider.id) :
    o.provider = l.provider := by
  obtain ⟨key, hkey⟩ := h.lookups l hl
  obtain ⟨key', hkey'⟩ := h.lookups o ho
  exact hk.tidy.eq_of_id hkey' hkey hid

/-- A lookup that comes has not begun. -/
theorem First.ask {d : Desk} {p : Provider} (h : d.First p) (p' : Provider) :
    First { d with lookups := d.lookups ++ [.start p'] } p := by
  have hold {x : Nat} {o : Lookup} (ho : d.lookups[x]? = some o) :
      (d.lookups ++ [.start p'])[x]? = some o := by
    rw [List.getElem?_append_left (List.getElem?_eq_some_iff.mp ho).1, ho]
  refine ⟨fun x o ho hprovider hloading => ?_, fun o ho hprovider hwaiting => ?_,
    fun ρ hρ => ?_, h.once, fun x hx => ?_⟩
  · rw [List.getElem?_append] at ho
    split at ho
    · exact h.loading x o ho hprovider hloading
    · rw [List.mem_singleton.mp (List.mem_of_getElem? ho)] at hloading
      cases hloading
  · rcases List.mem_append.mp ho with hmem | hnew
    · exact h.waiting o hmem hprovider hwaiting
    · rw [List.mem_singleton.mp hnew] at hwaiting
      cases hwaiting
  · obtain ⟨hfirst, o, ho, hpast⟩ := h.reader ρ hρ
    exact ⟨hfirst, o, hold ho, hpast⟩
  · rcases h.begun x hx with hknown | ⟨o, ho, hprovider, hloading⟩
    · exact .inl hknown
    · exact .inr ⟨o, hold ho, hprovider, hloading⟩

/-- Only a lookup of another provider, or one that is over, may be given up. -/
theorem First.leave {d : Desk} {p : Provider} (h : d.First p) {j : Nat} {l : Lookup}
    (hj : d.lookups[j]? = some l)
    (hp : Patient { d with lookups := d.lookups.set j l.leave } p) :
    First { d with lookups := d.lookups.set j l.leave } p := by
  by_cases hl : l.provider = p
  · rcases l.leave_cases with hsame | hleft
    · rw [hsame, set_eq_self hj]
      exact h
    · have hmem := List.mem_set (List.getElem?_eq_some_iff.mp hj).1 l.leave
      exact absurd hleft (hp _ hmem (l.provider_leave.trans hl))
  · exact h.set_of_ne hj hl l.provider_leave (fun _ => l.isPast_leave) rfl rfl rfl id

/-- As long as no lookup of a provider is given up, the first one is the only one that reads. -/
theorem First.change {d d' : Desk} {p : Provider} (h : d.First p) (hk : d.Kept) (hr : d.Referred)
    (he : d.Exclusive) {w : World} (hc : d.Change w d') (hp : d'.Patient p) : d'.First p := by
  have hcontents (id : Nat) (hknown : d.registry.contents.lookup id ≠ none) :
      d'.registry.contents.lookup id ≠ none := by
    obtain ⟨m, hm⟩ := Option.ne_none_iff_exists'.mp hknown
    rw [he.contents_change hc hm]
    exact Option.some_ne_none m
  cases hc with
  | idle => exact h
  | inquire => exact ⟨h.loading, h.waiting, h.reader, h.once, h.begun⟩
  | advance i q q' r hi hmove =>
      refine ⟨h.loading, h.waiting, h.reader, h.once, fun x hx => ?_⟩
      rw [registry_advanced, hmove.contents]
      exact h.begun x hx
  | ask i q p' hi hp' => exact h.ask p'
  | turn j l l' r hj hmove =>
      by_cases hl : l.provider = p
      · subst hl
        exact h.turn hj hmove (fun o ho => hr.provider_eq hk (List.mem_of_getElem? hj) ho)
          (hcontents l.provider.id)
      · refine h.set_of_ne hj hl hmove.provider_eq hmove.isPast rfl
          (begun_turned_of_ne (Ne.symm hl)) ?_ (hcontents p.id)
        rw [readingsOf_turned, if_neg fun hstage => hl hstage.2, List.append_nil]
  | leave j l hj => exact h.leave hj hp

end Desk

end ScriptSessions.Documentation
