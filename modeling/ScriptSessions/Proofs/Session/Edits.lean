import ScriptSessions.Proofs.Session.Runs

set_option autoImplicit false

/-! # Edits and the snapshots they were made to

A client reads a snapshot, derives others from it by a chain of edits, and submits one of
them at some later time. The client *has seen* the snapshot that it read and the ones on the
chain. An update may replace nothing else: otherwise an edit is lost that its author had no
way of knowing.

Whether an update is accepted is decided by version numbers alone. Within the history of one
session a version number belongs to one snapshot (`eq_of_version_eq`), so the numbers decide
rightly about a snapshot that has been in the session. A chain of several edits, though, counts
on from numbers that the session may meanwhile have given to something else.
`updatesSafely_iff` says exactly when this does no harm: the snapshot before the last edit has
to have been in the session itself. For a single edit this is so, because that snapshot was
read; `chain_overwrites_unseen` is the smallest chain for which it is not.
-/

namespace ScriptSessions

/-! ## Chains of edits -/

namespace Snapshot

/-- What a client changes in a snapshot. -/
inductive Edit where
  | text (text : String)
  | options (options : CompilationOptions)
deriving DecidableEq, Repr

/-- The snapshot after an edit. -/
def edit (s : Snapshot) : Edit → Snapshot
  | .text text => s.withText text
  | .options options => s.withOptions options

/-- The snapshot at the end of a chain of edits. -/
def editAll (s : Snapshot) (edits : List Edit) : Snapshot := edits.foldl edit s

/-- Whether the author of a chain of edits has seen a snapshot: it is the one that the chain
starts from, or one of those on the way to its end. -/
def Seen (start : Snapshot) (edits : List Edit) (s : Snapshot) : Prop :=
  ∃ n < edits.length, s = start.editAll (edits.take n)

theorem version_edit (s : Snapshot) (e : Edit) : (s.edit e).version = s.version + 1 := by
  cases e <;> rfl

theorem baseVersion_edit (s : Snapshot) (e : Edit) : (s.edit e).baseVersion = s.version := by
  cases e <;> rfl

theorem editAll_concat (s : Snapshot) (edits : List Edit) (e : Edit) :
    s.editAll (edits ++ [e]) = (s.editAll edits).edit e := by
  simp [editAll]

/-- The snapshot before the last edit has been seen. -/
theorem seen_editAll (start : Snapshot) (edits : List Edit) (e : Edit) :
    start.Seen (edits ++ [e]) (start.editAll edits) := by
  refine ⟨edits.length, by simp, ?_⟩
  rw [List.take_left]

/-- As long as the numbers last, every edit adds one to the version. -/
theorem toNat_version_editAll (s : Snapshot) (edits : List Edit)
    (room : s.version.toNat + edits.length < UInt64.size) :
    (s.editAll edits).version.toNat = s.version.toNat + edits.length := by
  induction edits generalizing s with
  | nil => rfl
  | cons e rest ih =>
      rw [List.length_cons] at room
      have hroom : s.version.toNat + 1 < UInt64.size := by omega
      have hone : (s.edit e).version.toNat = s.version.toNat + 1 := by
        rw [version_edit, UInt64.toNat_add, UInt64.toNat_one]
        exact Nat.mod_eq_of_lt hroom
      have hrest : (s.edit e).version.toNat + rest.length < UInt64.size := by omega
      calc (s.editAll (e :: rest)).version.toNat
          = ((s.edit e).editAll rest).version.toNat := rfl
        _ = (s.edit e).version.toNat + rest.length := ih (s.edit e) hrest
        _ = s.version.toNat + (e :: rest).length := by rw [hone, List.length_cons]; omega

end Snapshot

/-! ## The history of a session -/

namespace Session

/-- The snapshots that a session has during a run, from the first to the last. -/
def history (s : Session) : List Action → List Snapshot
  | [] => [s.snapshot]
  | a :: rest => s.snapshot :: (s.perform a).history rest

/-- An action leaves the snapshot alone, unless it is an update of an open session by a
snapshot with the right base and a greater version. -/
theorem snapshot_perform (s : Session) (a : Action) :
    (s.perform a).snapshot = s.snapshot ∨
      s.closed = false ∧ ∃ next, a = .update next ∧ next.baseVersion = s.snapshot.version ∧
        s.snapshot.version < next.version ∧ (s.perform a).snapshot = next := by
  have h := s.effect_perform a
  generalize s.perform a = t at h
  cases h with
  | idle | fold | schedule | requestNow | cancel | close => exact .inl rfl
  | update next isOpen base newer => exact .inr ⟨isOpen, next, rfl, base, newer, rfl⟩
  | move _ i p q t at_i h =>
      obtain ⟨gate, findings, rfl⟩ := h.frame
      exact .inl rfl

theorem version_perform_le (s : Session) (a : Action) :
    s.snapshot.version ≤ (s.perform a).snapshot.version := by
  rcases s.snapshot_perform a with h | ⟨-, next, -, -, hlt, h⟩
  · rw [h]; exact UInt64.le_refl _
  · rw [h]; exact UInt64.le_of_lt hlt

theorem version_run_le (s : Session) (actions : List Action) :
    s.snapshot.version ≤ (s.run actions).snapshot.version :=
  run_induction (P := fun t => s.snapshot.version ≤ t.snapshot.version)
    (fun t a h => UInt64.le_trans h (t.version_perform_le a)) (UInt64.le_refl _) actions

theorem snapshot_mem_history (s : Session) (actions : List Action) :
    s.snapshot ∈ s.history actions := by
  cases actions <;> simp [history]

theorem snapshot_run_mem_history (s : Session) (actions : List Action) :
    (s.run actions).snapshot ∈ s.history actions := by
  induction actions generalizing s with
  | nil => simp [history]
  | cons a rest ih => exact List.mem_cons_of_mem _ (ih (s.perform a))

/-- A snapshot of the history is the first one, or newer than the first one. -/
theorem eq_or_lt_of_mem_history {s : Session} {actions : List Action} {x : Snapshot}
    (hx : x ∈ s.history actions) : x = s.snapshot ∨ s.snapshot.version < x.version := by
  induction actions generalizing s with
  | nil => exact .inl (by simpa [history] using hx)
  | cons a rest ih =>
      rcases List.mem_cons.mp hx with rfl | hx
      · exact .inl rfl
      · rcases ih hx, s.snapshot_perform a with ⟨rfl | hlt, heq | ⟨-, next, -, -, hnew, heq⟩⟩
        · exact .inl heq
        · exact .inr (by rw [heq]; exact hnew)
        · exact .inr (by rw [← heq]; exact hlt)
        · exact .inr (UInt64.lt_trans hnew (by rw [← heq]; exact hlt))

/-- **A version number belongs to one snapshot of the history.** -/
theorem eq_of_version_eq {s : Session} {actions : List Action} {x y : Snapshot}
    (hx : x ∈ s.history actions) (hy : y ∈ s.history actions) (h : x.version = y.version) :
    x = y := by
  induction actions generalizing s with
  | nil =>
      simp only [history, List.mem_singleton] at hx hy
      rw [hx, hy]
  | cons a rest ih =>
      -- one of the two is the first snapshot, which has a version of its own, or neither is
      rcases List.mem_cons.mp hx with hx' | hx'
      · rcases eq_or_lt_of_mem_history hy with hy' | hlt
        · rw [hx', hy']
        · rw [← hx', h] at hlt
          exact absurd hlt (UInt64.lt_irrefl _)
      · rcases List.mem_cons.mp hy with hy' | hy'
        · rcases eq_or_lt_of_mem_history hx with hx'' | hlt
          · rw [hx'', hy']
          · rw [← hy', h] at hlt
            exact absurd hlt (UInt64.lt_irrefl _)
        · exact ih hx' hy'

/-! ## Which updates are accepted

The end of a chain counts on from the snapshot before the last edit, so this is the one whose
version the session compares. -/

theorem update_edit_of_version_eq {s : Session} {base : Snapshot} (e : Snapshot.Edit)
    (hopen : s.closed = false) (hbase : s.snapshot.version = base.version)
    (room : base.version.toNat + 1 < UInt64.size) :
    s.update (base.edit e) = .ok { s with snapshot := base.edit e } := by
  have hlt : base.version < (base.edit e).version := by
    rw [UInt64.lt_iff_toNat_lt, Snapshot.version_edit, UInt64.toNat_add, UInt64.toNat_one,
      Nat.mod_eq_of_lt room]
    omega
  simp [update, hopen, Snapshot.baseVersion_edit, hbase, hlt]

theorem update_edit_of_version_ne {s : Session} {base : Snapshot} (e : Snapshot.Edit)
    (hopen : s.closed = false) (hbase : s.snapshot.version ≠ base.version) :
    s.update (base.edit e) = .error (.stale s.id base.version s.snapshot.version) := by
  simp [update, hopen, Snapshot.baseVersion_edit, Ne.symm hbase]

theorem update_of_closed {s : Session} (h : s.closed = true) (next : Snapshot) :
    s.update next = .error (.closed s.id) := by
  simp [update, h]

/-- The law of updates for a chain of edits from `start` that is submitted to `s`: it replaces
nothing that its author has not seen, and if the session is open and its snapshot unseen, it is
refused as stale. -/
structure UpdatesSafely (s : Session) (start : Snapshot) (edits : List Snapshot.Edit) : Prop where
  seen_of_accepted : ∀ t, s.update (start.editAll edits) = .ok t → start.Seen edits s.snapshot
  stale_of_unseen : s.closed = false → ¬ start.Seen edits s.snapshot →
    s.update (start.editAll edits)
      = .error (.stale s.id (start.editAll edits).baseVersion s.snapshot.version)

/-- The snapshot before the last edit is the only one on the chain with its version. -/
theorem eq_of_seen {start current : Snapshot} {edits : List Snapshot.Edit} {e : Snapshot.Edit}
    (room : start.version.toNat + edits.length < UInt64.size)
    (hseen : start.Seen (edits ++ [e]) current)
    (h : current.version = (start.editAll edits).version) : current = start.editAll edits := by
  obtain ⟨n, hn, rfl⟩ := hseen
  have hle : n ≤ edits.length := by
    rw [List.length_append, List.length_singleton] at hn
    omega
  rw [List.take_append_of_le_length hle] at h ⊢
  have htake : (edits.take n).length = n := List.length_take_of_le hle
  -- the versions count the edits, so equal versions are equally many of them
  have hv : start.version.toNat + n = start.version.toNat + edits.length := by
    have hfirst := Snapshot.toNat_version_editAll start (edits.take n) (by rw [htake]; omega)
    rw [htake] at hfirst
    rw [← hfirst, h, Snapshot.toNat_version_editAll start edits room]
  rw [List.take_of_length_le (by omega)]

/-- Under the law, an open session that accepts the end of a chain for its version has the
snapshot before the last edit. -/
theorem UpdatesSafely.eq_editAll {s : Session} {start : Snapshot}
    {edits : List Snapshot.Edit} {e : Snapshot.Edit} (law : s.UpdatesSafely start (edits ++ [e]))
    (room : start.version.toNat + edits.length + 1 < UInt64.size) (hopen : s.closed = false)
    (hv : s.snapshot.version = (start.editAll edits).version) :
    s.snapshot = start.editAll edits := by
  have hbase := Snapshot.toNat_version_editAll start edits (by omega)
  -- the numbers agree, so the update is accepted, and what it replaces must have been seen
  have hacc := update_edit_of_version_eq e hopen hv (by rw [hbase]; exact room)
  rw [← Snapshot.editAll_concat] at hacc
  exact eq_of_seen (by omega) (law.seen_of_accepted _ hacc) hv

/-- The law holds if the snapshot of an open session has been seen whenever the numbers agree. -/
theorem updatesSafely_of_seen {s : Session} {start : Snapshot} {edits : List Snapshot.Edit}
    {e : Snapshot.Edit} (hseen : s.closed = false →
      s.snapshot.version = (start.editAll edits).version → start.Seen (edits ++ [e]) s.snapshot) :
    s.UpdatesSafely start (edits ++ [e]) := by
  constructor
  · intro u hu
    by_cases hopen : s.closed = false
    · apply hseen hopen
      refine Decidable.byContradiction fun hv => ?_
      rw [Snapshot.editAll_concat, update_edit_of_version_ne e hopen hv] at hu
      cases hu
    · rw [update_of_closed (by simpa using hopen)] at hu
      cases hu
  · intro hopen hunseen
    have hv : s.snapshot.version ≠ (start.editAll edits).version := by
      intro hv
      exact hunseen (hseen hopen hv)
    rw [Snapshot.editAll_concat, update_edit_of_version_ne e hopen hv, Snapshot.baseVersion_edit]

/-- **When updates are safe.** Let a client read the snapshot of `s`, make a chain of edits to
it, and submit the end of the chain after any run. The law of updates holds if and only if the
snapshot before the last edit has been in the session, or the session is closed or has another
version by then. It always holds for a single edit. -/
theorem updatesSafely_iff (s : Session) (actions : List Action) (edits : List Snapshot.Edit)
    (hne : edits ≠ []) (room : s.snapshot.version.toNat + edits.length < UInt64.size) :
    ((s.run actions).UpdatesSafely s.snapshot edits ↔
      ((s.run actions).closed = false →
        (s.run actions).snapshot.version = (s.snapshot.editAll edits.dropLast).version →
        s.snapshot.editAll edits.dropLast ∈ s.history actions)) ∧
    (edits.length = 1 → (s.run actions).UpdatesSafely s.snapshot edits) := by
  obtain ⟨front, e, rfl⟩ : ∃ front e, edits = front ++ [e] :=
    ⟨_, _, (List.dropLast_concat_getLast hne).symm⟩
  rw [List.dropLast_concat]
  rw [List.length_append, List.length_singleton] at room
  have hcurrent := snapshot_run_mem_history s actions
  generalize s.run actions = t at hcurrent ⊢
  have hiff : t.UpdatesSafely s.snapshot (front ++ [e]) ↔
      (t.closed = false → t.snapshot.version = (s.snapshot.editAll front).version →
        s.snapshot.editAll front ∈ s.history actions) := by
    constructor
    · intro law hopen hv
      rw [← law.eq_editAll (by omega) hopen hv]
      exact hcurrent
    · intro hist
      apply updatesSafely_of_seen
      intro hopen hv
      -- both have been in the session, where a version belongs to one snapshot
      rw [eq_of_version_eq hcurrent (hist hopen hv) hv]
      exact s.snapshot.seen_editAll front e
  refine ⟨hiff, ?_⟩
  intro hone
  -- the snapshot before the only edit is the one that was read
  refine hiff.mpr fun _ _ => ?_
  have hfront : front = [] := by simpa using hone
  rw [hfront]
  exact snapshot_mem_history s actions

/-- A session that has just been opened with the text `draft`. -/
def draft : Session := create ⟨"/"⟩ .nil "Script1" { text := "draft" } {} []

/-- Two edits are safe if the first of them is submitted before the second, and so is a single
edit after an update by someone else, which makes it stale. -/
theorem draft_updatesSafely :
    (draft.run [.update (draft.snapshot.withText "mine")]).UpdatesSafely draft.snapshot
      [.text "mine", .text "mine, finished"] ∧
    (draft.run [.update (draft.snapshot.withText "theirs")]).UpdatesSafely draft.snapshot
      [.text "mine"] :=
  ⟨(updatesSafely_iff draft _ _ (by decide) (by decide)).1.mpr fun _ _ => by decide,
    (updatesSafely_iff draft _ _ (by decide) (by decide)).2 rfl⟩

/-- **The law fails for two edits of which only the second is submitted.** Meanwhile someone
else has submitted an edit, which has the version of the first one; it is overwritten by an
author who has not seen it. -/
theorem chain_overwrites_unseen :
    (draft.run [.update (draft.snapshot.withText "theirs")]).snapshot.text = "theirs" ∧
    ¬ (draft.run [.update (draft.snapshot.withText "theirs")]).UpdatesSafely draft.snapshot
      [.text "mine", .text "mine, finished"] := by
  refine ⟨by decide, ?_⟩
  intro law
  have hseen := law.seen_of_accepted
    ((draft.run [.update (draft.snapshot.withText "theirs")]).perform
      (.update (draft.snapshot.editAll [.text "mine", .text "mine, finished"]))) (by rfl)
  revert hseen
  unfold Snapshot.Seen
  decide

end Session

end ScriptSessions
