import ScriptSessions.Proofs.Documentation.Providers

set_option autoImplicit false

/-! # One reading of a provider

All lookups of a provider come to the same members: those of one reading of its file, whatever
happens to the file afterwards. One lookup at a time loads, and only while nothing is known
(`Desk.Exclusive`); what becomes known is what has been read, and is never replaced
(`Desk.Truthful`).

A lookup that is given up while it loads leaves the provider unread, and another one may read
again. What becomes known comes from one of these readings.
-/

namespace ScriptSessions.Documentation

/-! ## What a step of a lookup keeps -/

namespace Lookup

variable {w : World} {others : List Lookup} {r r' : Registry} {l l' : Lookup}

theorem Move.provider_eq (h : l.Move w others r l' r') : l'.provider = l.provider := by
  cases h with
  | find | wait | begin | read | store | idle => rfl

theorem provider_leave (l : Lookup) : l.leave.provider = l.provider := by
  unfold leave
  split <;> rfl

theorem isLoading_leave (l : Lookup) : l.leave.isLoading = false := by
  obtain ⟨p, stage⟩ := l
  cases stage <;> rfl

theorem members?_leave (l : Lookup) : l.leave.members? = l.members? := by
  obtain ⟨p, stage⟩ := l
  cases stage <;> rfl

/-- A lookup that loads has been loading, or nothing is known and no other one loads. -/
theorem Move.loading (h : l.Move w others r l' r') (hl : l'.isLoading = true) :
    l.isLoading = true ∨ r.contents.lookup l.provider.id = none ∧
      ∀ o ∈ others, o.isLoading = true → o.provider.id ≠ l.provider.id := by
  cases h with
  | find | wait | store => cases hl
  | begin _ h free => exact .inr ⟨h, free⟩
  | read hstage => exact .inl (by rw [isLoading, hstage])
  | idle => exact .inl hl

/-- What is known changes only when a lookup that loads is through with it. -/
theorem Move.contents (h : l.Move w others r l' r') : r'.contents = r.contents ∨
    ∃ m, l.stage = .storing m ∧ l'.stage = .finished m ∧
      r'.contents = (l.provider.id, m) :: r.contents := by
  cases h with
  | find | wait | begin | read | idle => exact .inl rfl
  | store m hl => exact .inr ⟨m, hl, rfl, rfl⟩

/-- A lookup that is over, or was given up, does not move any more. -/
theorem Move.eq_of_over (h : l.Move w others r l' r')
    (hl : l.stage = .left ∨ ∃ m, l.stage = .finished m) : l' = l := by
  cases h with
  | idle => rfl
  | find _ hstage | wait _ hstage | begin hstage | read hstage | store _ hstage =>
      rcases hl with hl | ⟨m, hl⟩ <;> simp [hl] at hstage

theorem stage_of_members? {m : Members} (h : l.members? = some m) : l.stage = .finished m := by
  obtain ⟨p, stage⟩ := l
  cases stage with
  | finished m' => rw [Option.some.inj h]
  | arriving | waiting | reading | storing | left => cases h

end Lookup

namespace Desk

/-! ## Whose lookups they are -/

/-- Providers that are looked up or read are kept by the registry. -/
structure Referred (d : Desk) : Prop where
  lookups : ∀ l ∈ d.lookups, ∃ key, d.registry.table.lookup key = some l.provider
  readings : ∀ ρ ∈ d.readings, ∃ key, d.registry.table.lookup key = some ρ.provider

theorem Referred.change {d d' : Desk} (h : d.Referred) (hk : d.Kept) {w : World}
    (hc : d.Change w d') : d'.Referred := by
  cases hc with
  | idle => exact h
  | inquire => exact ⟨h.lookups, h.readings⟩
  | advance i q q' r hi hmove =>
      have hkeeps {p : Provider} (hp : ∃ key, d.registry.table.lookup key = some p) :
          ∃ key, r.table.lookup key = some p := by
        obtain ⟨key, hkey⟩ := hp
        exact ⟨key, hmove.keeps.table key p hkey⟩
      exact ⟨fun l hl => hkeeps (h.lookups l hl), fun ρ hρ => hkeeps (h.readings ρ hρ)⟩
  | ask i q p hi hp =>
      -- a call returns what the registry keeps for its key
      obtain ⟨key, -, hkey⟩ := (hk.sound q (List.mem_of_getElem? hi)).lookup hp
      exact ⟨List.forall_mem_append.mpr ⟨h.lookups, List.forall_mem_singleton.mpr ⟨key, hkey⟩⟩,
        h.readings⟩
  | turn j l l' r hj hmove =>
      have hl := h.lookups l (List.mem_of_getElem? hj)
      obtain ⟨contents, rfl⟩ := hmove.registry
      refine ⟨forall_mem_set h.lookups (hmove.provider_eq ▸ hl),
        List.forall_mem_append.mpr ⟨h.readings, fun ρ hρ => ?_⟩⟩
      split at hρ
      · rw [List.mem_singleton.mp hρ]
        exact hl
      · cases hρ
  | leave j l hj =>
      refine ⟨forall_mem_set h.lookups ?_, h.readings⟩
      rw [l.provider_leave]
      exact h.lookups l (List.mem_of_getElem? hj)

/-! ## One at a time -/

/-- Two lookups do not load the members of one provider at the same time. -/
def Apart (l o : Lookup) : Prop :=
  l.isLoading = true → o.isLoading = true → l.provider.id ≠ o.provider.id

/-- Lookups load one at a time, and only what is not known. -/
structure Exclusive (d : Desk) : Prop where
  apart : d.lookups.Pairwise Apart
  unread : ∀ l ∈ d.lookups, l.isLoading = true → d.registry.contents.lookup l.provider.id = none

/-- Beside a lookup that loads, the others load other providers. -/
theorem Exclusive.others {d : Desk} (h : d.Exclusive) {j : Nat} {l : Lookup}
    (hj : d.lookups[j]? = some l) :
    (∀ o ∈ d.lookups.eraseIdx j, Apart l o) ∧ (d.lookups.eraseIdx j).Pairwise Apart := by
  obtain ⟨hlt, rfl⟩ := List.getElem?_eq_some_iff.mp hj
  have hperm := List.getElem_cons_eraseIdx_perm hlt
  -- being apart is symmetric, so the order does not matter
  exact List.pairwise_cons.mp ((hperm.pairwise_iff fun hab hb ha => (hab ha hb).symm).mpr h.apart)

/-- A lookup may become one that keeps apart from the others, and something may become known that
none of the others loads. -/
theorem Exclusive.set {d d' : Desk} (h : d.Exclusive) {j : Nat} {l l' : Lookup}
    (hj : d.lookups[j]? = some l) (hlookups : d'.lookups = d.lookups.set j l')
    (apart : ∀ o ∈ d.lookups.eraseIdx j, Apart l' o)
    (unread : l'.isLoading = true → d'.registry.contents.lookup l'.provider.id = none)
    (others : ∀ o ∈ d.lookups.eraseIdx j, o.isLoading = true →
      d.registry.contents.lookup o.provider.id = none →
      d'.registry.contents.lookup o.provider.id = none) : d'.Exclusive := by
  have hperm := List.set_perm_cons_eraseIdx (List.getElem?_eq_some_iff.mp hj).1 l'
  rw [← hlookups] at hperm
  constructor
  · refine (hperm.pairwise_iff fun hab hb ha => (hab ha hb).symm).mpr ?_
    exact List.pairwise_cons.mpr ⟨apart, (h.others hj).2⟩
  · intro o ho hloading
    rcases List.mem_cons.mp (hperm.mem_iff.mp ho) with rfl | hother
    · exact unread hloading
    · exact others o hother hloading (h.unread o (List.mem_of_mem_eraseIdx hother) hloading)

theorem Exclusive.change {d d' : Desk} (h : d.Exclusive) {w : World} (hc : d.Change w d') :
    d'.Exclusive := by
  cases hc with
  | idle => exact h
  | inquire => exact ⟨h.apart, h.unread⟩
  | advance i q q' r hi hmove =>
      refine ⟨h.apart, fun l hl hloading => ?_⟩
      rw [registry_advanced, hmove.contents]
      exact h.unread l hl hloading
  | ask i q p hi hp =>
      -- the new lookup has not begun, so it does not load
      constructor
      · exact List.pairwise_append.mpr ⟨h.apart, List.pairwise_singleton _ _,
          fun l _ => List.forall_mem_singleton.mpr fun _ hloading => nomatch hloading⟩
      · exact List.forall_mem_append.mpr ⟨h.unread, List.forall_mem_singleton.mpr nofun⟩
  | turn j l l' r hj hmove =>
      obtain ⟨hothers, -⟩ := h.others hj
      have hunread := h.unread l (List.mem_of_getElem? hj)
      have hapart : ∀ o ∈ d.lookups.eraseIdx j, Apart l' o := by
        intro o ho hl' hloading
        rw [hmove.provider_eq]
        rcases hmove.loading hl' with hl | ⟨-, free⟩
        · exact hothers o ho hl hloading
        · exact (free o ho hloading).symm
      rcases hmove.contents with hsame | ⟨m, hstage, hstage', hcontents⟩
      · refine h.set hj rfl hapart (fun hl' => ?_) fun o _ _ hnone => ?_
        · rw [registry_turned, hsame, hmove.provider_eq]
          exact (hmove.loading hl').elim hunread And.left
        · rw [registry_turned, hsame]
          exact hnone
      · refine h.set hj rfl hapart (fun hl' => ?_) fun o ho hloading hnone => ?_
        · simp [Lookup.isLoading, hstage'] at hl'
        · -- what becomes known is loaded by no other one
          have hne := hothers o ho (by rw [Lookup.isLoading, hstage]) hloading
          rw [registry_turned, hcontents, lookup_cons_eq_ite, if_neg hne.symm]
          exact hnone
  | leave j l hj =>
      refine h.set hj rfl (fun o _ hl' => ?_) (fun hl' => ?_) fun _ _ _ hnone => hnone
      · rw [l.isLoading_leave] at hl'
        cases hl'
      · rw [l.isLoading_leave] at hl'
        cases hl'

/-- What is known stays known. -/
theorem Exclusive.contents_change {d d' : Desk} (h : d.Exclusive) {w : World}
    (hc : d.Change w d') {id : Nat} {m : Members}
    (hm : d.registry.contents.lookup id = some m) :
    d'.registry.contents.lookup id = some m := by
  cases hc with
  | idle | inquire | ask | leave => exact hm
  | advance i q q' r hi hmove => rw [registry_advanced, hmove.contents, hm]
  | turn j l l' r hj hmove =>
      rcases hmove.contents with hsame | ⟨m', hstage, -, hcontents⟩
      · rw [registry_turned, hsame, hm]
      · have hnone := h.unread l (List.mem_of_getElem? hj) (by rw [Lookup.isLoading, hstage])
        have hne : id ≠ l.provider.id := by
          rintro rfl
          rw [hnone] at hm
          cases hm
        rw [registry_turned, hcontents, lookup_cons_eq_ite, if_neg hne, hm]

/-! ## What is known has been read -/

/-- What a lookup is about to make known, and what is known, comes from a reading; and a lookup
that is over has what is known. -/
structure Truthful (d : Desk) : Prop where
  stored : ∀ l ∈ d.lookups, ∀ m, l.stage = .storing m →
    ∃ ρ ∈ d.readings, ρ.provider = l.provider ∧ m = ρ.members
  known : ∀ id m, d.registry.contents.lookup id = some m →
    ∃ ρ ∈ d.readings, ρ.provider.id = id ∧ m = ρ.members
  finished : ∀ l ∈ d.lookups, ∀ m, l.members? = some m →
    d.registry.contents.lookup l.provider.id = some m

section Turn

variable {w : World} {d : Desk} {j : Nat} {l l' : Lookup} {r : Registry}

theorem mem_readings_turned {ρ : Reading} (hρ : ρ ∈ d.readings) :
    ρ ∈ (d.turned w j l l' r).readings :=
  List.mem_append_left _ hρ

variable (h : d.Truthful) (hl : l ∈ d.lookups)
  (hmove : l.Move w (d.lookups.eraseIdx j) d.registry l' r)
include h hl hmove

/-- What a lookup is about to make known, it has just read, or it had read before. -/
theorem Truthful.stored_turned {m : Members} (hm : l'.stage = .storing m) :
    ∃ ρ ∈ (d.turned w j l l' r).readings, ρ.provider = l'.provider ∧ m = ρ.members := by
  cases hmove with
  | find | wait | begin | store => cases hm
  | read hstage =>
      cases hm
      have hread := Reading.members_eq ⟨l.provider, j, w⟩
      refine ⟨⟨l.provider, j, w⟩, List.mem_append_right _ ?_, rfl, hread.symm⟩
      rw [if_pos hstage]
      exact List.mem_cons_self
  | idle =>
      obtain ⟨ρ, hρ, hfound⟩ := h.stored l hl m hm
      exact ⟨ρ, mem_readings_turned hρ, hfound⟩

/-- What is known after a step was known before, or the lookup has brought it. -/
theorem Truthful.known_turned {id : Nat} {m : Members} (hm : r.contents.lookup id = some m) :
    ∃ ρ ∈ d.readings, ρ.provider.id = id ∧ m = ρ.members := by
  rcases hmove.contents with hsame | ⟨m', hstage, -, hcontents⟩
  · exact h.known id m (hsame ▸ hm)
  · rw [hcontents, lookup_cons_eq_ite] at hm
    split at hm
    · next hid =>
        cases hm
        obtain ⟨ρ, hρ, hprovider, hfound⟩ := h.stored l hl m hstage
        exact ⟨ρ, hρ, by rw [hprovider, hid], hfound⟩
    · exact h.known id m hm

theorem Truthful.finished_turned {m : Members} (hm : l'.members? = some m) :
    r.contents.lookup l'.provider.id = some m := by
  cases hmove with
  | wait | begin | read => cases hm
  | find m' _ hknown =>
      cases hm
      exact hknown
  | store m' =>
      cases hm
      exact List.lookup_cons_self
  | idle => exact h.finished l hl m hm

end Turn

theorem Truthful.change {d d' : Desk} (h : d.Truthful) (he : d.Exclusive) {w : World}
    (hc : d.Change w d') : d'.Truthful := by
  have hkept {id : Nat} {m : Members} (hm : d.registry.contents.lookup id = some m) :
      d'.registry.contents.lookup id = some m := he.contents_change hc hm
  cases hc with
  | idle => exact h
  | inquire => exact ⟨h.stored, h.known, h.finished⟩
  | advance i q q' r hi hmove =>
      refine ⟨h.stored, fun id m hm => ?_, fun l hl m hm => hkept (h.finished l hl m hm)⟩
      rw [registry_advanced, hmove.contents] at hm
      exact h.known id m hm
  | ask i q p hi hp =>
      exact ⟨List.forall_mem_append.mpr ⟨h.stored, List.forall_mem_singleton.mpr nofun⟩, h.known,
        List.forall_mem_append.mpr ⟨h.finished, List.forall_mem_singleton.mpr nofun⟩⟩
  | turn j l l' r hj hmove =>
      have hl := List.mem_of_getElem? hj
      refine ⟨forall_mem_set (fun o ho m hm => ?_) fun m hm => h.stored_turned hl hmove hm,
        fun id m hm => ?_,
        forall_mem_set (fun o ho m hm => hkept (h.finished o ho m hm)) fun m hm =>
          h.finished_turned hl hmove hm⟩
      · obtain ⟨ρ, hρ, hfound⟩ := h.stored o ho m hm
        exact ⟨ρ, mem_readings_turned hρ, hfound⟩
      · obtain ⟨ρ, hρ, hfound⟩ := h.known_turned hl hmove hm
        exact ⟨ρ, mem_readings_turned hρ, hfound⟩
  | leave j l hj =>
      refine ⟨forall_mem_set h.stored fun m hm => ?_, h.known, forall_mem_set h.finished ?_⟩
      · obtain ⟨p, stage⟩ := l
        cases stage <;> cases hm
      · rw [l.provider_leave, l.members?_leave]
        exact h.finished l (List.mem_of_getElem? hj)

/-! ## Lookups stay -/

/-- A lookup that is over, or was given up, stays as it is. -/
theorem Change.lookup {d d' : Desk} {w : World} (hc : d.Change w d') {i : Nat} {l : Lookup}
    (hi : d.lookups[i]? = some l) (hl : l.stage = .left ∨ ∃ m, l.stage = .finished m) :
    d'.lookups[i]? = some l := by
  cases hc with
  | idle | inquire | advance => exact hi
  | ask => rw [List.getElem?_append_left (List.getElem?_eq_some_iff.mp hi).1, hi]
  | turn j o o' r hj hmove =>
      rcases getElem?_set_cases hj o' hi with ⟨rfl, rfl⟩ | hsame
      · rw [lookups_turned, hmove.eq_of_over hl, set_eq_self hj, hi]
      · exact hsame
  | leave j o hj =>
      rcases getElem?_set_cases hj o.leave hi with ⟨rfl, rfl⟩ | hsame
      · have hleave : l.leave = l := by
          obtain ⟨p, stage⟩ := l
          rcases hl with rfl | ⟨m, rfl⟩ <;> rfl
        rw [hleave, set_eq_self hj, hi]
      · exact hsame

theorem lookup_run {d : Desk} {i : Nat} {l : Lookup} {m : Members} (hi : d.lookups[i]? = some l)
    (hm : l.members? = some m) (events : List (World × Action)) :
    (d.run events).lookups[i]? = some l :=
  run_induction (fun _ _ _ hc h => hc.lookup h (.inr ⟨m, Lookup.stage_of_members? hm⟩)) hi events

end Desk

end ScriptSessions.Documentation
