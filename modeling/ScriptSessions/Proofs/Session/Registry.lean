import Mathlib.Data.List.Nodup
import ScriptSessions.Proofs.Lists
import ScriptSessions.Session.Registry

set_option autoImplicit false

/-! # The books of a registry

Whoever inserts or removes a session is told whether that has been done. From these answers alone
one can keep books on a registry (`SessionRegistry.Record`), and they say at any time what the
registry holds: under which identifiers sessions stand and with which callbacks (`Books.tracks`),
how many there are (`Books.size_add_removals`), and how often each identifier has been given and
taken back (`Books.balance`).

The project names that are handed out carry the numbers from one on, so they are distinct as long
as there are words for them (`Books.nodup_names`).
-/

namespace ScriptSessions.SessionRegistry

/-! ## Single changes -/

theorem contains_eq_false_iff {r : SessionRegistry} {id : Uuid} :
    r.contains id = false ↔ r.get? id = none := by
  simp [contains]

theorem insert_of_taken {r : SessionRegistry} {id : Uuid} (taken : r.contains id = true)
    (n : SessionNumber) (callback : Option SessionNumber) :
    r.insert id n callback = (false, r) := by
  simp [insert, taken]

theorem sessions_insert {r : SessionRegistry} {id : Uuid} (free : r.contains id = false)
    (n : SessionNumber) (callback : Option SessionNumber) :
    (r.insert id n callback).2.sessions = r.sessions ++ [(id, n)] := by
  simp [insert, free]

/-- An entry at the end of a table counts only if there is none before it. -/
theorem lookup_append_singleton {table : List (Uuid × SessionNumber)} {id : Uuid}
    (free : table.lookup id = none) (n : SessionNumber) (other : Uuid) :
    (table ++ [(id, n)]).lookup other = if other = id then some n else table.lookup other := by
  rw [List.lookup_append]
  split
  · next heq => rw [heq, free, List.lookup_cons_self]; rfl
  · next hne =>
      have hbeq : (other == id) = false := by simpa using hne
      rw [List.lookup_cons, hbeq, List.lookup_nil, Option.or_none]

/-- Taking an identifier out of a table takes it away and leaves the others. -/
theorem lookup_filter (table : List (Uuid × SessionNumber)) (id other : Uuid) :
    (table.filter (·.1 != id)).lookup other = if other = id then none else table.lookup other := by
  split
  · next heq =>
      refine List.lookup_eq_none_iff.mpr fun p hp => ?_
      have hne : p.1 ≠ id := by simpa using (List.mem_filter.mp hp).2
      simpa [heq] using hne.symm
  · next hne => exact lookup_filter_ne hne table

theorem get?_insert {r : SessionRegistry} {id : Uuid} (free : r.contains id = false)
    (n : SessionNumber) (callback : Option SessionNumber) (other : Uuid) :
    (r.insert id n callback).2.get? other = if other = id then some n else r.get? other := by
  rw [get?, sessions_insert free, lookup_append_singleton (contains_eq_false_iff.mp free)]
  rfl

/-- A session that is registered without a callback has none, if there was none before. -/
theorem notifier?_insert {r : SessionRegistry} {id : Uuid} (free : r.contains id = false)
    (silent : r.notifier? id = none) (n : SessionNumber) (callback : Option SessionNumber)
    (other : Uuid) : (r.insert id n callback).2.notifier? other
      = if other = id then callback else r.notifier? other := by
  cases callback with
  | none =>
      have hsame : (r.insert id n none).2.notifiers = r.notifiers := by simp [insert, free]
      rw [notifier?, hsame]
      split
      · next heq => rw [heq]; exact silent
      · rfl
  | some callback =>
      have hadd : (r.insert id n (some callback)).2.notifiers
          = r.notifiers.filter (·.1 != id) ++ [(id, callback)] := by simp [insert, free]
      have hnone : (r.notifiers.filter (·.1 != id)).lookup id = none := by
        rw [lookup_filter, if_pos rfl]
      rw [notifier?, hadd, lookup_append_singleton hnone]
      split
      · rfl
      · next hne => exact lookup_filter_ne hne r.notifiers

theorem get?_remove (r : SessionRegistry) (id other : Uuid) :
    (r.remove id).2.get? other = if other = id then none else r.get? other :=
  lookup_filter r.sessions id other

theorem notifier?_remove (r : SessionRegistry) (id other : Uuid) :
    (r.remove id).2.notifier? other = if other = id then none else r.notifier? other :=
  lookup_filter r.notifiers id other

theorem contains_insert {r : SessionRegistry} {id : Uuid} (free : r.contains id = false)
    (n : SessionNumber) (callback : Option SessionNumber) (other : Uuid) :
    (r.insert id n callback).2.contains other = if other = id then true else r.contains other := by
  rw [contains, get?_insert free]
  split <;> rfl

theorem contains_remove (r : SessionRegistry) (id other : Uuid) :
    (r.remove id).2.contains other = if other = id then false else r.contains other := by
  rw [contains, get?_remove]
  split <;> rfl

theorem mem_ids_iff {r : SessionRegistry} {id : Uuid} : id ∈ r.ids ↔ r.contains id = true := by
  rw [ids, List.mem_map, contains, get?, Option.isSome_iff_exists]
  constructor
  · rintro ⟨⟨other, n⟩, hmem, rfl⟩
    refine Option.isSome_iff_exists.mp (Option.isSome_iff_ne_none.mpr fun hnone => ?_)
    simpa using List.lookup_eq_none_iff.mp hnone _ hmem
  · rintro ⟨n, hn⟩
    exact ⟨(id, n), mem_of_lookup hn, rfl⟩

/-- Removing takes the identifier out, if it is there. -/
theorem ids_remove {r : SessionRegistry} (distinct : r.ids.Nodup) (id : Uuid) :
    (r.remove id).2.ids = r.ids.erase id := by
  rw [distinct.erase_eq_filter, ids, ids, List.filter_map]
  rfl

/-! ## Records -/

/-- A change of a registry, as its client is told of it. -/
inductive Record where
  /-- A session has been registered, with a callback or without one. -/
  | inserted (id : Uuid) (session : SessionNumber) (callback : Option SessionNumber)
  /-- The session under an identifier has been removed. -/
  | removed (id : Uuid)
deriving DecidableEq

namespace Record

/-- Whether a record is of an insertion. -/
def isInsertion : Record → Bool
  | .inserted _ _ _ => true
  | .removed _ => false

/-- Whether a record is of an insertion under a given identifier. -/
def insertsAt (id : Uuid) : Record → Bool
  | .inserted other _ _ => other == id
  | .removed _ => false

/-- Whether a record is of a removal under a given identifier. -/
def removesAt (id : Uuid) : Record → Bool
  | .inserted _ _ _ => false
  | .removed other => other == id

/-- The session and the callback that stand under an identifier after a record, if `found` stood
there before. -/
def apply (id : Uuid) (found : Option (SessionNumber × Option SessionNumber)) :
    Record → Option (SessionNumber × Option SessionNumber)
  | .inserted other n callback => if id = other then some (n, callback) else found
  | .removed other => if id = other then none else found

end Record

/-- The session that stands under an identifier according to the records, and the callback that it
was registered with: those of the last insertion, unless they have been removed since. -/
def standing (records : List Record) (id : Uuid) :
    Option (SessionNumber × Option SessionNumber) :=
  records.foldl (Record.apply id) none

theorem standing_concat (records : List Record) (record : Record) (id : Uuid) :
    standing (records ++ [record]) id = record.apply id (standing records id) := by
  rw [standing, List.foldl_append]
  rfl

/-- Nothing stands under a free identifier. -/
theorem standing_eq_none {t : SessionRegistry} {records : List Record} {id : Uuid}
    (tracked : t.get? id = (standing records id).map (·.1)) (free : t.contains id = false) :
    standing records id = none := by
  rw [contains_eq_false_iff.mp free] at tracked
  exact Option.map_eq_none_iff.mp tracked.symm

/-- `Books r records names t` says that the registry `r` has become `t` by the changes in `records`,
and that the project names in `names` have been handed out meanwhile. -/
inductive Books (r : SessionRegistry) : List Record → List String → SessionRegistry → Prop where
  | start : Books r [] [] r
  /-- A project name is handed out. -/
  | name {records : List Record} {names : List String} {t : SessionRegistry}
      (before : Books r records names t) :
      Books r records (names ++ [t.nextProjectName.1]) t.nextProjectName.2
  /-- A session is registered under an identifier that is free. -/
  | insert {records : List Record} {names : List String} {t : SessionRegistry}
      (before : Books r records names t) (id : Uuid) (n : SessionNumber)
      (callback : Option SessionNumber) (free : t.contains id = false) :
      Books r (records ++ [.inserted id n callback]) names (t.insert id n callback).2
  /-- Whatever is registered under an identifier is removed. -/
  | remove {records : List Record} {names : List String} {t : SessionRegistry}
      (before : Books r records names t) (id : Uuid) :
      Books r (records ++ if t.contains id then [.removed id] else []) names (t.remove id).2

namespace Books

variable {r t u : SessionRegistry} {records records' : List Record} {names names' : List String}

/-- Books are continued. -/
theorem trans (h : Books r records names t) (h' : Books t records' names' u) :
    Books r (records ++ records') (names ++ names') u := by
  induction h' with
  | start => rwa [List.append_nil, List.append_nil]
  | name _ ih => rw [← List.append_assoc]; exact ih.name
  | insert _ id n callback free ih => rw [← List.append_assoc]; exact ih.insert id n callback free
  | remove _ id ih => rw [← List.append_assoc]; exact ih.remove id

/-! ## What the books say -/

/-- The registry holds what stands in its books. -/
theorem tracks (h : Books {} records names t) (id : Uuid) :
    t.get? id = (standing records id).map (·.1) ∧
      t.notifier? id = (standing records id).bind (·.2) := by
  induction h generalizing id with
  | start => exact ⟨rfl, rfl⟩
  | name _ ih => exact ih id
  | @insert records _ t _ other n callback free ih =>
      -- a callback that was left behind would be that of the new session
      have hsilent : t.notifier? other = none := by
        rw [(ih other).2, standing_eq_none (ih other).1 free]
        rfl
      rw [get?_insert free, notifier?_insert free hsilent, standing_concat, Record.apply]
      split
      · exact ⟨rfl, rfl⟩
      · exact ih id
  | @remove records _ t _ other ih =>
      rw [get?_remove, notifier?_remove]
      cases hother : t.contains other with
      | true =>
          rw [if_pos rfl, standing_concat, Record.apply]
          split
          · exact ⟨rfl, rfl⟩
          · exact ih id
      | false =>
          -- nothing stood there, neither in the registry nor in the books
          simp only [Bool.false_eq_true, if_false, List.append_nil]
          split
          · next heq =>
              rw [heq, standing_eq_none (ih other).1 hother]
              exact ⟨rfl, rfl⟩
          · exact ih id

/-- A free identifier has no callback. -/
theorem notifier?_of_free (h : Books {} records names t) {id : Uuid}
    (free : t.contains id = false) : t.notifier? id = none := by
  rw [(h.tracks id).2, standing_eq_none (h.tracks id).1 free]
  rfl

/-- No identifier is registered twice. -/
theorem nodup_ids (h : Books {} records names t) : t.ids.Nodup := by
  induction h with
  | start => exact .nil
  | name _ ih => exact ih
  | insert _ id n callback free ih =>
      rw [ids, sessions_insert free, List.map_append]
      refine ih.append (List.nodup_singleton id) ?_
      rw [List.map_singleton, List.disjoint_singleton]
      exact fun hmem => Bool.false_ne_true (free.symm.trans (mem_ids_iff.mp hmem))
  | remove _ id ih =>
      rw [ids_remove ih]
      exact ih.erase id

/-- As many sessions are registered as have been inserted and not removed. -/
theorem size_add_removals (h : Books {} records names t) :
    t.size + records.countP (!·.isInsertion) = records.countP (·.isInsertion) := by
  induction h with
  | start => rfl
  | name _ ih => exact ih
  | @insert records _ t _ id n callback free ih =>
      have hsize : (t.insert id n callback).2.size = t.size + 1 := by
        rw [size, sessions_insert free, List.length_append]
        rfl
      have hremovals : [Record.inserted id n callback].countP (!·.isInsertion) = 0 := rfl
      have hinsertions : [Record.inserted id n callback].countP (·.isInsertion) = 1 := rfl
      rw [hsize, List.countP_append, List.countP_append, hremovals, hinsertions]
      omega
  | @remove records _ t before id ih =>
      have hsize : (t.remove id).2.size = (t.ids.erase id).length := by
        rw [← ids_remove before.nodup_ids]
        exact (List.length_map _).symm
      have hids : t.ids.length = t.size := List.length_map _
      cases hid : t.contains id with
      | true =>
          have hmem := mem_ids_iff.mpr hid
          have hpos := List.length_pos_of_mem hmem
          have hremovals : [Record.removed id].countP (!·.isInsertion) = 1 := rfl
          have hinsertions : [Record.removed id].countP (·.isInsertion) = 0 := rfl
          rw [if_pos rfl, hsize, List.length_erase_of_mem hmem, List.countP_append,
            List.countP_append, hremovals, hinsertions]
          omega
      | false =>
          have hmem : id ∉ t.ids := fun hmem =>
            Bool.false_ne_true (hid.symm.trans (mem_ids_iff.mp hmem))
          rw [hsize, List.erase_of_not_mem hmem, hids, if_neg Bool.false_ne_true, List.append_nil]
          exact ih

/-- An identifier is removed once for each insertion under it, except that the session that stands
there has not been removed yet. -/
theorem balance (h : Books {} records names t) (id : Uuid) :
    records.countP (·.removesAt id) + (t.contains id).toNat
      = records.countP (·.insertsAt id) := by
  induction h with
  | start => rfl
  | name _ ih => exact ih
  | insert _ other n callback free ih =>
      rw [contains_insert free, List.countP_append, List.countP_append]
      by_cases hid : id = other
      · subst hid
        rw [free] at ih
        simpa [Record.removesAt, Record.insertsAt] using ih
      · simpa [Record.removesAt, Record.insertsAt, hid, Ne.symm hid] using ih
  | @remove _ _ t _ other ih =>
      rw [contains_remove, List.countP_append, List.countP_append]
      by_cases hid : id = other
      · subst hid
        cases hc : t.contains id with
        | true => simpa [Record.removesAt, Record.insertsAt, hc] using ih
        | false => simpa [hc] using ih
      · cases hc : t.contains other with
        | true => simpa [Record.removesAt, Record.insertsAt, hid, Ne.symm hid] using ih
        | false => simpa [hid] using ih

/-! ## Project names -/

/-- The names carry the numbers from one on. -/
theorem names_eq (h : Books {} records names t) :
    names = (List.range names.length).map (fun i => projectName (UInt64.ofNat (i + 1))) ∧
      t.namesGiven = UInt64.ofNat names.length := by
  induction h with
  | start => exact ⟨rfl, rfl⟩
  | @name _ names t _ ih =>
      have hnext : t.namesGiven + 1 = UInt64.ofNat (names.length + 1) := by
        rw [ih.2, UInt64.ofNat_add]
        rfl
      constructor
      · rw [List.length_append, List.length_singleton, List.range_succ, List.map_append, ← ih.1]
        exact congrArg (names ++ [projectName ·]) hnext
      · rw [List.length_append]
        exact hnext
  | @insert _ _ t _ id n callback free ih =>
      have hgiven : (t.insert id n callback).2.namesGiven = t.namesGiven := by
        simp [SessionRegistry.insert, free]
      exact ⟨ih.1, hgiven.trans ih.2⟩
  | remove _ id ih => exact ih

end Books

/-- A number is read off its name. -/
theorem projectName_inj {n m : UInt64} (h : projectName n = projectName m) : n = m := by
  have hlists : (toString n).toList = (toString m).toList := by
    simpa [projectName] using congrArg String.toList h
  have hdigits : Nat.toDigits 10 n.toNat = Nat.toDigits 10 m.toNat := by
    change (Nat.repr n.toNat).toList = (Nat.repr m.toNat).toList at hlists
    simpa only [Nat.repr, String.toList_ofList] using hlists
  refine UInt64.toNat_inj.mp ?_
  calc n.toNat
      = Nat.ofDigitChars 10 (Nat.toDigits 10 n.toNat) 0 := Nat.ofDigitChars_ten_toDigits.symm
    _ = Nat.ofDigitChars 10 (Nat.toDigits 10 m.toNat) 0 := by rw [hdigits]
    _ = m.toNat := Nat.ofDigitChars_ten_toDigits

namespace Books

/-- No name is handed out twice before the words for them have been used up. -/
theorem nodup_names {t : SessionRegistry} {records : List Record} {names : List String}
    (h : Books {} records names t) (few : names.length < UInt64.size) : names.Nodup := by
  rw [h.names_eq.1]
  refine List.nodup_range.map_on fun i hi j hj heq => ?_
  have hword := congrArg UInt64.toNat (projectName_inj heq)
  have hsmall (k : Nat) (hk : k ∈ List.range names.length) : k + 1 < UInt64.size :=
    Nat.lt_of_le_of_lt (List.mem_range.mp hk) few
  rw [UInt64.toNat_ofNat_of_lt' (hsmall i hi), UInt64.toNat_ofNat_of_lt' (hsmall j hj)] at hword
  omega

end Books

end ScriptSessions.SessionRegistry
