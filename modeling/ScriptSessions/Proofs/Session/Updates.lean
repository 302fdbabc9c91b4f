import Mathlib.Data.List.Chain
import Mathlib.Data.List.Nodup
import ScriptSessions.Proofs.Session.Edits

set_option autoImplicit false

/-! # Which updates are accepted, and when to try again

An open session accepts a snapshot that was derived from the version of its own and is newer
(`Snapshot.Precedes`, `update_eq_ok_iff`). Every other snapshot is refused as stale, and the refusal
says that the client may try again with a fresh snapshot.

To try again is to read the snapshot of the session, to make an edit to it, and to submit that.
Nothing but an update changes the snapshot (`sameText_run`), so what was read is current for as long
as nobody else updates the session, and an edit of it has the right base. It is newer too, unless
there is no version left (`Snapshot.precedes_edit_iff`). Clients choose the versions that they submit,
so a single update may use up all of them. `curable_iff_history` says that this is the only way in
which trying again can fail, and that it then fails for good; `curable_run_of_edits` says that it
takes 2⁶⁴ - 1 updates if all of them are edits.
-/

namespace ScriptSessions

/-! ## Snapshots in a row -/

namespace Snapshot

/-- Whether a snapshot may be applied right after the snapshot `s`: it was derived from the version
of `s`, and is newer. -/
def Precedes (s next : Snapshot) : Prop :=
  next.baseVersion = s.version ∧ s.version < next.version

/-- In a chain of snapshots a version belongs to one snapshot. -/
theorem eq_of_isChain {l : List Snapshot} (h : l.IsChain Precedes) {x y : Snapshot} (hx : x ∈ l)
    (hy : y ∈ l) (hv : x.version = y.version) : x = y := by
  have hversions : (l.map version).IsChain (· < ·) :=
    (List.isChain_map version).mpr (h.imp fun _ _ hab => hab.2)
  have : IsTrans UInt64 (· < ·) := ⟨fun _ _ _ => UInt64.lt_trans⟩
  have hnodup : (l.map version).Nodup := hversions.pairwise.imp fun hlt => UInt64.ne_of_lt hlt
  exact List.inj_on_of_nodup_map hnodup hx hy hv

/-- An edit may be applied after what was edited, unless the versions are used up. -/
theorem precedes_edit_iff (s : Snapshot) (e : Edit) :
    s.Precedes (s.edit e) ↔ s.version.toNat + 1 < UInt64.size := by
  rw [Precedes, baseVersion_edit, version_edit, UInt64.lt_iff_toNat_lt, UInt64.toNat_add,
    UInt64.toNat_one]
  constructor
  · rintro ⟨-, newer⟩
    refine Nat.lt_of_not_le fun hfull => ?_
    -- the version after the last one is zero, which is not newer
    have hlast : s.version.toNat + 1 = 2 ^ 64 := Nat.le_antisymm s.version.toNat_lt hfull
    rw [hlast, Nat.mod_self] at newer
    exact Nat.not_lt_zero _ newer
  · intro room
    rw [Nat.mod_eq_of_lt room]
    exact ⟨rfl, Nat.lt_succ_self _⟩

theorem toNat_version_edit_le (s : Snapshot) (e : Edit) :
    (s.edit e).version.toNat ≤ s.version.toNat + 1 := by
  rw [version_edit, UInt64.toNat_add, UInt64.toNat_one]
  exact Nat.mod_le _ _

end Snapshot

namespace Session

/-! ## What changes the snapshot of a session -/

/-- Whether a session accepts an update. -/
def accepts (s : Session) (next : Snapshot) : Bool := (s.update next).toOption.isSome

theorem update_eq_ok_iff {s t : Session} {next : Snapshot} : s.update next = .ok t ↔
    s.closed = false ∧ s.snapshot.Precedes next ∧ t = { s with snapshot := next } := by
  unfold update
  split
  · next closed => simp [closed]
  · next isOpen =>
      split
      · next hstale =>
          constructor
          · intro h
            cases h
          · rintro ⟨-, ⟨base, newer⟩, -⟩
            exact absurd hstale (not_or.mpr ⟨not_not_intro base, UInt64.not_le.mpr newer⟩)
      · next hfresh =>
          obtain ⟨base, newer⟩ := not_or.mp hfresh
          simp only [Except.ok.injEq, Snapshot.Precedes, eq_comm (a := t)]
          simp [isOpen, Decidable.of_not_not base, UInt64.not_le.mp newer]

theorem update_of_accepts {s : Session} {next : Snapshot} (h : s.accepts next = true) :
    s.update next = .ok { s with snapshot := next } ∧ s.snapshot.Precedes next := by
  cases hupdate : s.update next with
  | error e => simp [accepts, hupdate, Except.toOption] at h
  | ok t =>
      obtain ⟨-, hnext, rfl⟩ := update_eq_ok_iff.mp hupdate
      exact ⟨rfl, hnext⟩

/-- The client of an open session is told to try again, and that of a closed one is not. -/
theorem isRetryable_iff {s : Session} {next : Snapshot} {e : UpdateError}
    (refused : s.update next = .error e) : e.isRetryable = true ↔ s.closed = false := by
  unfold update at refused
  split at refused
  · next closed =>
      cases refused
      simp [UpdateError.isRetryable, closed]
  · next isOpen =>
      split at refused
      · cases refused
        simp [UpdateError.isRetryable, isOpen]
      · cases refused

/-- A session has the snapshot that it had, and the same wish to hear of its text. -/
structure SameText (s t : Session) : Prop where
  snapshot : t.snapshot = s.snapshot
  announcesText : t.announcesText = s.announcesText

theorem SameText.refl (s : Session) : s.SameText s := ⟨rfl, rfl⟩

theorem SameText.trans {s t u : Session} (h : s.SameText t) (h' : t.SameText u) : s.SameText u :=
  ⟨h'.snapshot.trans h.snapshot, h'.announcesText.trans h.announcesText⟩

/-- Whether an action submits a snapshot. -/
def Action.isUpdate : Action → Bool
  | .update _ => true
  | _ => false

theorem sameText_perform (s : Session) {a : Action} (quiet : a.isUpdate = false) :
    s.SameText (s.perform a) := by
  have h := s.effect_perform a
  generalize s.perform a = t at h
  cases h with
  | idle | fold | schedule | requestNow | cancel | close => exact ⟨rfl, rfl⟩
  | update next => cases quiet
  | move _ i p q t at_i h =>
      obtain ⟨gate, findings, rfl⟩ := h.frame
      exact ⟨rfl, rfl⟩

/-- As long as nobody updates the session, its snapshot stays what it is. -/
theorem sameText_run (s : Session) {actions : List Action}
    (quiet : ∀ a ∈ actions, a.isUpdate = false) : s.SameText (s.run actions) := by
  induction actions generalizing s with
  | nil => exact .refl s
  | cons a rest ih =>
      obtain ⟨hfirst, hrest⟩ := List.forall_mem_cons.mp quiet
      exact (s.sameText_perform hfirst).trans (ih (s.perform a) hrest)

/-! ## Trying again -/

/-- A client that has been refused may read the snapshot of the session and submit an edit of it. -/
structure Curable (s : Session) : Prop where
  /-- The version of the edit is the next one. -/
  counts : ∀ e, (s.snapshot.edit e).version.toNat = s.snapshot.version.toNat + 1
  accepted : ∀ e, s.update (s.snapshot.edit e) = .ok { s with snapshot := s.snapshot.edit e }
  /-- Anything may happen in the meantime that does not update or close the session. -/
  later : ∀ e between, (∀ a ∈ between, a.isUpdate = false) → (s.run between).closed = false →
    (s.run between).update (s.snapshot.edit e)
      = .ok { s.run between with snapshot := s.snapshot.edit e }

/-- A session that refuses every update for the rest of its life, and tells each client to try
again. -/
def Stuck (s : Session) : Prop :=
  ∀ later next, (s.run later).closed = false →
    ∃ e, (s.run later).update next = .error e ∧ e.isRetryable = true

/-- Trying again works as long as there is a next version. -/
theorem curable_iff_room {s : Session} (isOpen : s.closed = false) :
    s.Curable ↔ s.snapshot.version.toNat + 1 < UInt64.size := by
  constructor
  · intro h
    rw [← h.counts (.text "")]
    exact UInt64.toNat_lt_size _
  · intro room
    have hlater (e : Snapshot.Edit) (between : List Action)
        (quiet : ∀ a ∈ between, a.isUpdate = false)
        (stillOpen : (s.run between).closed = false) :
        (s.run between).update (s.snapshot.edit e)
          = .ok { s.run between with snapshot := s.snapshot.edit e } := by
      have hsame := (s.sameText_run quiet).snapshot
      refine update_eq_ok_iff.mpr ⟨stillOpen, ?_, rfl⟩
      rw [hsame]
      exact (s.snapshot.precedes_edit_iff e).mpr room
    exact ⟨fun e => s.snapshot.toNat_version_editAll [e] room,
      fun e => hlater e [] (List.forall_mem_nil _) isOpen, hlater⟩

/-- Once the versions are used up, no update is accepted any more. -/
theorem stuck_of_full {s : Session} (full : ¬ s.snapshot.version.toNat + 1 < UInt64.size) :
    s.Stuck := by
  intro later next isOpen
  cases hupdate : (s.run later).update next with
  | ok t =>
      -- it would have to be newer than the last version
      obtain ⟨-, ⟨-, newer⟩, -⟩ := update_eq_ok_iff.mp hupdate
      have hle := UInt64.le_iff_toNat_le.mp (s.version_run_le later)
      have hlt := UInt64.lt_iff_toNat_lt.mp newer
      have hsize := next.version.toNat_lt_size
      omega
  | error e => exact ⟨e, rfl, (isRetryable_iff hupdate).mpr isOpen⟩

/-- No snapshot of the history is newer than the last one. -/
theorem version_le_of_mem_history {s : Session} {actions : List Action} {x : Snapshot}
    (hx : x ∈ s.history actions) : x.version ≤ (s.run actions).snapshot.version := by
  induction actions generalizing s with
  | nil =>
      obtain rfl : x = s.snapshot := by simpa [history] using hx
      exact UInt64.le_refl _
  | cons a rest ih =>
      rcases List.mem_cons.mp hx with rfl | hx
      · exact s.version_run_le (a :: rest)
      · exact ih hx

/-- **When a refusal can be cured.** Let clients submit whatever they like to a session, in between
anything else. As long as it is open, trying again works if and only if the session has never had a
snapshot with the last version; and if it does not work now, no update is ever accepted again. -/
theorem curable_iff_history (s : Session) (actions : List Action)
    (isOpen : (s.run actions).closed = false) :
    ((s.run actions).Curable ↔ ∀ x ∈ s.history actions, x.version.toNat + 1 < UInt64.size) ∧
    (¬ (s.run actions).Curable → (s.run actions).Stuck) := by
  rw [curable_iff_room isOpen]
  refine ⟨⟨fun room x hx => ?_, fun hroom => ?_⟩, stuck_of_full⟩
  · have hle := UInt64.le_iff_toNat_le.mp (version_le_of_mem_history hx)
    omega
  · exact hroom _ (snapshot_run_mem_history s actions)

/-- A snapshot with the last version but one. -/
def farAhead : Snapshot := ⟨18446744073709551614, 0, "far ahead", {}⟩

/-- A snapshot with the last version, 2⁶⁴ - 1. -/
def furthest : Snapshot := ⟨18446744073709551615, 0, "furthest", {}⟩

/-- One version is left after `farAhead`, so that a client who came too late can still try again;
there is none after `furthest`. -/
theorem draft_curable_until_furthest :
    (draft.run [.update farAhead, .update furthest]).Curable ∧
    (draft.run [.update furthest, .update farAhead]).Stuck := by
  refine ⟨(curable_iff_history draft _ rfl).1.mpr (by decide),
    (curable_iff_history draft _ rfl).2 fun h => ?_⟩
  have hroom := (curable_iff_history draft _ rfl).1.mp h
  revert hroom
  decide

/-- **Trying again fails after the last version.** An edit of the snapshot has the version zero, and
is refused with the advice to try again. -/
theorem furthest_not_curable :
    (draft.run [.update furthest]).Reachable ∧ (draft.run [.update furthest]).closed = false ∧
    (∀ e, ((draft.run [.update furthest]).snapshot.edit e).version = 0) ∧
    ¬ (draft.run [.update furthest]).Curable := by
  refine ⟨⟨_, _, _, _, _, _, _, rfl⟩, by decide, fun e => ?_, fun h => ?_⟩
  · rw [Snapshot.version_edit]
    decide
  · have hcounts := h.counts (.text "next")
    revert hcounts
    decide

/-- If all that is submitted are edits, each update takes one version. -/
theorem toNat_version_run_le {s : Session} {actions : List Action}
    (edits : ∀ next, Action.update next ∈ actions → ∃ base e, next = Snapshot.edit base e) :
    (s.run actions).snapshot.version.toNat ≤ s.snapshot.version.toNat + actions.length := by
  induction actions generalizing s with
  | nil => exact Nat.le_refl _
  | cons a rest ih =>
      have hfirst : (s.perform a).snapshot.version.toNat ≤ s.snapshot.version.toNat + 1 := by
        rcases s.snapshot_perform a with heq | ⟨-, next, rfl, base, -, heq⟩
        · rw [heq]
          exact Nat.le_succ _
        · -- an edit that is accepted was made to a snapshot with the current version
          obtain ⟨t, e, rfl⟩ := edits next List.mem_cons_self
          rw [heq, ← base, Snapshot.baseVersion_edit]
          exact t.toNat_version_edit_le e
      have hrest := ih (s := s.perform a) fun next hnext => edits next (List.mem_cons_of_mem _ hnext)
      rw [run_cons, List.length_cons]
      omega

/-- Where all that is submitted are edits, a new session stays curable for as long as it can live. -/
theorem curable_run_of_edits {s : Session} {actions : List Action} (new : s.snapshot.version = 0)
    (edits : ∀ next, Action.update next ∈ actions → ∃ base e, next = Snapshot.edit base e)
    (few : actions.length + 1 < UInt64.size) (isOpen : (s.run actions).closed = false) :
    (s.run actions).Curable := by
  have hle := toNat_version_run_le (s := s) edits
  rw [new, UInt64.toNat_zero, Nat.zero_add] at hle
  refine (curable_iff_room isOpen).mpr ?_
  omega

end Session

end ScriptSessions
