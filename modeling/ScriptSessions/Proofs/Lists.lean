import Mathlib.Data.List.Forall2
import Mathlib.Data.List.Perm.Basic

set_option autoImplicit false

/-! # Lists that change at one place, lists as tables, and lists without repetitions

The passes of a session and the calls of a cache are lists of which one element changes at a
time, and the cells of a cache and the registry of a host are tables that are kept as lists of
pairs. The directives that a pass looks at, and the entries that it finds, are listed once each,
and what two passes find corresponds element by element. A list in a file is read element by
element. These are the facts about such lists that the theories need.
-/

namespace ScriptSessions

/-! ## Lists that change at one place -/

/-- Replacing one element of a list changes a count by what the two elements count. -/
theorem countP_set_add {α : Type} (f : α → Bool) {l : List α} {i : Nat} {a : α}
    (h : l[i]? = some a) (b : α) :
    (l.set i b).countP f + (f a).toNat = l.countP f + (f b).toNat := by
  obtain ⟨hi, rfl⟩ := List.getElem?_eq_some_iff.mp h
  have one (c : Bool) : (if c = true then 1 else 0) = c.toNat := by cases c <;> rfl
  have hle : (f l[i]).toNat ≤ l.countP f := by
    cases ha : f l[i] with
    | false => exact Nat.zero_le _
    | true => exact List.countP_pos_iff.mpr ⟨l[i], List.getElem_mem hi, ha⟩
  -- the count of the old list is at least that of the element, so nothing is cut off at zero
  rw [List.countP_set hi, one, one]
  omega

/-- Two places of a list with at most one such element are the same place. -/
theorem eq_of_countP_le_one {α : Type} {f : α → Bool} {l : List α} (h : l.countP f ≤ 1)
    {i j : Nat} {a b : α} (hi : l[i]? = some a) (hj : l[j]? = some b) (ha : f a = true)
    (hb : f b = true) : i = j := by
  refine Decidable.byContradiction fun hne => ?_
  -- without the place `i` the list still counts `b`, so with it it counts two
  have hpos : 0 < (l.eraseIdx i).countP f := by
    refine List.countP_pos_iff.mpr ⟨b, List.mem_eraseIdx_iff_getElem?.mpr ⟨j, ?_, hj⟩, hb⟩
    exact Ne.symm hne
  obtain ⟨hlt, rfl⟩ := List.getElem?_eq_some_iff.mp hi
  have hperm := (List.getElem_cons_eraseIdx_perm hlt).countP_eq f
  rw [List.countP_cons_of_pos ha] at hperm
  omega

/-- The picked elements of a list with a new element are what is picked of the new element, and
of the rest of the list. -/
theorem filterMap_set_perm {α β : Type} (f : α → Option β) {l : List α} {i : Nat} {a : α}
    (h : l[i]? = some a) (b : α) :
    ((l.set i b).filterMap f).Perm ((f b).toList ++ (l.eraseIdx i).filterMap f) := by
  obtain ⟨hi, -⟩ := List.getElem?_eq_some_iff.mp h
  refine ((List.set_perm_cons_eraseIdx hi b).filterMap f).trans ?_
  cases hb : f b with
  | none => rw [List.filterMap_cons_none hb]; rfl
  | some c => rw [List.filterMap_cons_some hb]; rfl

/-- The same of lists of lists. -/
theorem flatMap_set_perm {α β : Type} (f : α → List β) {l : List α} {i : Nat} {a : α}
    (h : l[i]? = some a) (b : α) :
    ((l.set i b).flatMap f).Perm (f b ++ (l.eraseIdx i).flatMap f) := by
  obtain ⟨hi, -⟩ := List.getElem?_eq_some_iff.mp h
  exact (List.set_perm_cons_eraseIdx hi b).flatMap_right f

/-- Replacing an element by itself changes nothing. -/
theorem set_eq_self {α : Type} {l : List α} {i : Nat} {a : α} (h : l[i]? = some a) :
    l.set i a = l := by
  obtain ⟨hi, rfl⟩ := List.getElem?_eq_some_iff.mp h
  exact List.set_getElem_self hi

/-- What holds of all elements still holds after one has become another one of which it holds. -/
theorem forall_mem_set {α : Type} {P : α → Prop} {l : List α} (h : ∀ a ∈ l, P a) {i : Nat} {b : α}
    (hb : P b) : ∀ a ∈ l.set i b, P a := by
  intro a ha
  rcases List.mem_or_eq_of_mem_set ha with hold | rfl
  · exact h a hold
  · exact hb

/-- An element of a list is the one that is replaced, or is still there. -/
theorem getElem?_set_cases {α : Type} {l : List α} {i j : Nat} {a c : α} (hi : l[i]? = some a)
    (b : α) (hj : l[j]? = some c) : (i = j ∧ c = a) ∨ (l.set i b)[j]? = some c := by
  by_cases hij : i = j
  · subst hij
    rw [hi] at hj
    exact .inl ⟨rfl, (Option.some.inj hj).symm⟩
  · exact .inr (by rw [List.getElem?_set_ne hij, hj])

/-- An element of a list in which one was replaced is the new one, or was there before. -/
theorem of_getElem?_set {α : Type} {l : List α} {i j : Nat} {b c : α}
    (h : (l.set i b)[j]? = some c) : (i = j ∧ c = b) ∨ (i ≠ j ∧ l[j]? = some c) := by
  by_cases hij : i = j
  · subst hij
    rw [List.getElem?_set_self (by simpa using (List.getElem?_eq_some_iff.mp h).1)] at h
    exact .inl ⟨rfl, (Option.some.inj h).symm⟩
  · rw [List.getElem?_set_ne hij] at h
    exact .inr ⟨hij, h⟩

/-- An element that gives less than another one may take its place. -/
theorem flatMap_set_sublist {α β : Type} (f : α → List β) {l : List α} {i : Nat} {a b : α}
    (h : l[i]? = some a) (hab : (f b).Sublist (f a)) :
    ((l.set i b).flatMap f).Sublist (l.flatMap f) := by
  induction l generalizing i with
  | nil => exact List.nil_sublist _
  | cons c rest ih =>
      cases i with
      | zero =>
          cases h
          exact hab.append_right (rest.flatMap f)
      | succ j => exact (ih h).append_left (f c)

/-! ## Tables -/

theorem mem_of_lookup {α β : Type} [BEq α] [LawfulBEq α] {a : α} {b : β} {table : List (α × β)}
    (h : table.lookup a = some b) : (a, b) ∈ table := by
  obtain ⟨front, back, rfl, -⟩ := List.lookup_eq_some_iff.mp h
  simp

/-- A table with distinct keys gives every value that it holds. -/
theorem lookup_of_mem {α β : Type} [BEq α] [LawfulBEq α] {a : α} {b : β} {table : List (α × β)}
    (distinct : (table.map Prod.fst).Nodup) (h : (a, b) ∈ table) : table.lookup a = some b := by
  induction table with
  | nil => cases h
  | cons entry rest ih =>
      obtain ⟨k, v⟩ := entry
      obtain ⟨hk, hrest⟩ := List.nodup_cons.mp distinct
      rcases List.mem_cons.mp h with heq | hmem
      · cases heq
        exact List.lookup_cons_self
      · have hne : (a == k) = false := by
          rw [beq_eq_false_iff_ne]
          rintro rfl
          exact hk (List.mem_map.mpr ⟨_, hmem, rfl⟩)
        rw [List.lookup_cons, hne, ih hrest hmem]

theorem lookup_cons_eq_ite {α β : Type} [DecidableEq α] (a k : α) (v : β) (rest : List (α × β)) :
    ((k, v) :: rest).lookup a = if a = k then some v else rest.lookup a := by
  by_cases h : a = k
  · rw [if_pos h, h, List.lookup_cons_self]
  · rw [if_neg h, List.lookup_cons, beq_eq_false_iff_ne.mpr h]

/-- A table of the values of a partial function. -/
theorem lookup_filterMap {α β : Type} [DecidableEq α] (f : α → Option β) (keys : List α) (a : α) :
    (keys.filterMap fun k => (f k).map fun v => (k, v)).lookup a
      = if a ∈ keys then f a else none := by
  induction keys with
  | nil => rfl
  | cons k rest ih =>
      cases hk : f k with
      | none =>
          rw [List.filterMap_cons_none (by rw [hk]; rfl), ih]
          by_cases h : a = k
          · simp [h, hk]
          · simp [h]
      | some v =>
          rw [List.filterMap_cons_some (by rw [hk]; rfl), lookup_cons_eq_ite, ih]
          by_cases h : a = k
          · simp [h, hk]
          · simp [h]

/-- Taking a key out of a table leaves the values of the other keys. -/
theorem lookup_filter_ne {α β : Type} [BEq α] [LawfulBEq α] {a b : α} (h : a ≠ b)
    (table : List (α × β)) : (table.filter (·.1 != b)).lookup a = table.lookup a := by
  induction table with
  | nil => rfl
  | cons entry rest ih =>
      obtain ⟨k, v⟩ := entry
      by_cases hk : k = b
      · have ha : (a == k) = false := by simpa [hk] using h
        rw [List.filter_cons_of_neg (by simpa using hk), ih, List.lookup_cons, ha]
      · rw [List.filter_cons_of_pos (by simpa using hk), List.lookup_cons, List.lookup_cons, ih]

/-! ## Runs at the beginning of a list -/

section Runs

variable {α : Type} {p : α → Bool} {run : List α} {a : α}

/-- A run ends at the first element that is not of its kind. -/
theorem takeWhile_append_cons (h : ∀ b ∈ run, p b = true) (ha : p a = false) (rest : List α) :
    (run ++ a :: rest).takeWhile p = run := by
  rw [List.takeWhile_append_of_pos h, List.takeWhile_cons_of_neg (by simp [ha]), List.append_nil]

/-- What stands after a run begins with an element that is not of its kind. -/
theorem dropWhile_append_cons (h : ∀ b ∈ run, p b = true) (ha : p a = false) (rest : List α) :
    (run ++ a :: rest).dropWhile p = a :: rest := by
  rw [List.dropWhile_append_of_pos h, List.dropWhile_cons_of_neg (by simp [ha])]

/-- A list is its run and what stands after it. -/
theorem eq_append_of_dropWhile {l rest : List α} (h : l.dropWhile p = rest) :
    l = l.takeWhile p ++ rest := by
  rw [← h, List.takeWhile_append_dropWhile]

/-- The run before an element ends somewhere if the element is in the list. -/
theorem exists_dropWhile_ne [BEq α] [LawfulBEq α] {l : List α} (h : a ∈ l) :
    ∃ rest, l.dropWhile (· != a) = a :: rest := by
  induction l with
  | nil => cases h
  | cons b rest ih =>
      by_cases hb : b = a
      · exact ⟨rest, by rw [hb, List.dropWhile_cons_of_neg (by simp)]⟩
      · rw [List.dropWhile_cons_of_pos (by simpa using hb)]
        exact ih ((List.mem_cons.mp h).resolve_left (Ne.symm hb))

end Runs

/-! ## Picking elements out of a list -/

theorem length_filterMap_cons {α β : Type} (f : α → Option β) (a : α) (l : List α) :
    ((a :: l).filterMap f).length = (f a).toList.length + (l.filterMap f).length := by
  cases h : f a with
  | none => simp [h]
  | some b => simp [h, Nat.add_comm]

/-- Lists that correspond element by element have the same picked elements, if these are picked
alike. -/
theorem filterMap_eq_of_forall₂ {α β γ : Type} {R : α → β → Prop} {f : α → Option γ}
    {g : β → Option γ} (alike : ∀ a b, R a b → f a = g b) {l : List α} {l' : List β}
    (h : List.Forall₂ R l l') : l.filterMap f = l'.filterMap g := by
  induction h with
  | nil => rfl
  | cons hab _ ih => rw [List.filterMap_cons, List.filterMap_cons, alike _ _ hab, ih]

/-! ## Lists that correspond element by element -/

theorem forall₂_mem {α β : Type} {R : α → β → Prop} {l : List α} {l' : List β}
    (h : List.Forall₂ R l l') : List.Forall₂ (fun a b => (a ∈ l ∧ b ∈ l') ∧ R a b) l l' := by
  induction h with
  | nil => exact .nil
  | cons hab _ ih =>
      refine .cons ⟨⟨List.mem_cons_self, List.mem_cons_self⟩, hab⟩ (ih.imp fun a b hmem => ?_)
      exact ⟨⟨List.mem_cons_of_mem _ hmem.1.1, List.mem_cons_of_mem _ hmem.1.2⟩, hmem.2⟩

/-- If functions give such lists the same values, an element has a counterpart to which they give
the same. -/
theorem exists_of_forall₂ {α β γ : Type} {R : α → β → Prop} {f : α → γ} {g : β → γ} {l : List α}
    {l' : List β} (h : List.Forall₂ R l l') (heq : l.map f = l'.map g) {a : α} (ha : a ∈ l) :
    ∃ b ∈ l', R a b ∧ f a = g b := by
  induction h with
  | nil => cases ha
  | cons hab _ ih =>
      obtain ⟨hhead, htail⟩ := List.cons.inj heq
      rcases List.mem_cons.mp ha with rfl | hrest
      · exact ⟨_, List.mem_cons_self, hab, hhead⟩
      · obtain ⟨b, hb, hab'⟩ := ih htail hrest
        exact ⟨b, List.mem_cons_of_mem _ hb, hab'⟩

/-- Functions give lists the same values, exactly if they give corresponding elements the same. -/
theorem map_eq_map_iff_forall₂ {α β γ : Type} {f : α → γ} {g : β → γ} {l : List α} {l' : List β} :
    l.map f = l'.map g ↔ List.Forall₂ (fun a b => f a = g b) l l' := by
  rw [← List.forall₂_eq_eq_eq, List.forall₂_map_left_iff, List.forall₂_map_right_iff]

/-! ## Lists that are written and read -/

section Reading

variable {α β γ : Type} {write : α → β} {l : List α}

theorem mapM_map_eq_map {read : β → Option γ} {f : α → γ}
    (h : ∀ a ∈ l, read (write a) = some (f a)) : (l.map write).mapM read = some (l.map f) := by
  induction l with
  | nil => rfl
  | cons a l ih =>
      rw [List.map_cons, List.mapM_cons, h a List.mem_cons_self,
        ih fun b hb => h b (List.mem_cons_of_mem a hb)]
      rfl

/-- A list is read back if its elements are. -/
theorem mapM_map_eq_self {read : β → Option α} (h : ∀ a ∈ l, read (write a) = some a) :
    (l.map write).mapM read = some l := by
  have hmap : (l.map write).mapM read = some (l.map id) := mapM_map_eq_map h
  rwa [List.map_id] at hmap

end Reading

/-! ## Lists without repetitions -/

section Repetitions

variable {α β : Type} {same : α → α → Bool}

/-- Adding elements to the end of a list, one by one and each unless one like it is there, is
the same as erasing duplicates. -/
theorem foldl_eq_eraseDupsBy (symm : ∀ a b, same a b = same b a) (l : List α) :
    l.foldl (fun acc a => if acc.any (same · a) then acc else acc ++ [a]) []
      = l.eraseDupsBy same := by
  suffices h : ∀ acc : List α,
      l.foldl (fun acc a => if acc.any (same · a) then acc else acc ++ [a]) acc.reverse
        = List.eraseDupsBy.loop same l acc from h []
  induction l with
  | nil => intro acc; simp [List.eraseDupsBy.loop]
  | cons a rest ih =>
      intro acc
      have hany : acc.reverse.any (same · a) = acc.any (same a) := by
        rw [List.any_reverse]
        exact congrArg acc.any (funext fun b => symm b a)
      rw [List.foldl_cons, hany, List.eraseDupsBy.loop]
      cases acc.any (same a) with
      | true => exact ih acc
      | false => simpa using ih (a :: acc)

/-- No two elements that are left are alike. -/
theorem pairwise_eraseDupsBy (l : List α) :
    (l.eraseDupsBy same).Pairwise fun a b => same b a = false := by
  suffices h : ∀ acc : List α, (acc.reverse.Pairwise fun a b => same b a = false) →
      (List.eraseDupsBy.loop same l acc).Pairwise fun a b => same b a = false from h [] .nil
  induction l with
  | nil => exact fun acc h => by simpa [List.eraseDupsBy.loop] using h
  | cons a rest ih =>
      intro acc h
      rw [List.eraseDupsBy.loop]
      cases hany : acc.any (same a) with
      | true => exact ih acc h
      | false =>
          refine ih (a :: acc) ?_
          rw [List.reverse_cons, List.pairwise_append]
          refine ⟨h, List.pairwise_singleton _ _, fun b hb c hc => ?_⟩
          rw [List.mem_singleton.mp hc]
          simpa using List.any_eq_false.mp hany b (List.mem_reverse.mp hb)

/-- Nothing is left that was not there. -/
theorem mem_of_mem_eraseDupsBy {l : List α} {a : α} (ha : a ∈ l.eraseDupsBy same) : a ∈ l := by
  suffices h : ∀ acc : List α, a ∈ List.eraseDupsBy.loop same l acc → a ∈ l ∨ a ∈ acc from
    (h [] ha).resolve_right List.not_mem_nil
  clear ha
  induction l with
  | nil => exact fun acc h => .inr (by simpa [List.eraseDupsBy.loop] using h)
  | cons b rest ih =>
      intro acc h
      rw [List.eraseDupsBy.loop] at h
      cases hany : acc.any (same b) with
      | true =>
          rw [hany] at h
          exact (ih acc h).imp_left (List.mem_cons_of_mem b)
      | false =>
          rw [hany] at h
          rcases ih (b :: acc) h with hrest | hacc
          · exact .inl (List.mem_cons_of_mem b hrest)
          · rcases List.mem_cons.mp hacc with rfl | hold
            · exact .inl List.mem_cons_self
            · exact .inr hold

/-- Whatever is in a list is like something that is left. -/
theorem exists_mem_eraseDupsBy (refl : ∀ a, same a a = true) {l : List α} {a : α} (ha : a ∈ l) :
    ∃ b ∈ l.eraseDupsBy same, same a b = true := by
  suffices h : ∀ acc : List α, (a ∈ l ∨ ∃ b ∈ acc, same a b = true) →
      ∃ b ∈ List.eraseDupsBy.loop same l acc, same a b = true from h [] (.inl ha)
  clear ha
  induction l with
  | nil => intro acc h; simpa [List.eraseDupsBy.loop] using h
  | cons c rest ih =>
      intro acc h
      rw [List.eraseDupsBy.loop]
      cases hany : acc.any (same c) with
      | true =>
          refine ih acc ?_
          rcases h with hmem | hacc
          · rcases List.mem_cons.mp hmem with rfl | hrest
            · exact .inr (List.any_eq_true.mp hany)
            · exact .inl hrest
          · exact .inr hacc
      | false =>
          refine ih (c :: acc) ?_
          rcases h with hmem | ⟨b, hb, hab⟩
          · rcases List.mem_cons.mp hmem with rfl | hrest
            · exact .inr ⟨a, List.mem_cons_self, refl a⟩
            · exact .inl hrest
          · exact .inr ⟨b, List.mem_cons_of_mem c hb, hab⟩

/-- Lists that correspond element by element, with the same elements alike, correspond without
their duplicates. -/
theorem forall₂_eraseDupsBy {same' : β → β → Bool} {R : α → β → Prop}
    (alike : ∀ a b a' b', R a b → R a' b' → same a a' = same' b b') {l : List α} {l' : List β}
    (h : List.Forall₂ R l l') : List.Forall₂ R (l.eraseDupsBy same) (l'.eraseDupsBy same') := by
  suffices hloop : ∀ acc acc', List.Forall₂ R acc acc' →
      List.Forall₂ R (List.eraseDupsBy.loop same l acc) (List.eraseDupsBy.loop same' l' acc') from
    hloop [] [] .nil
  induction h with
  | nil => exact fun acc acc' hacc => by simpa [List.eraseDupsBy.loop] using hacc
  | @cons a b rest rest' hab _ ih =>
      intro acc acc' hacc
      have hany : acc.any (same a) = acc'.any (same' b) := by
        induction hacc with
        | nil => rfl
        | cons hcd _ ih => rw [List.any_cons, List.any_cons, alike _ _ _ _ hab hcd, ih]
      rw [List.eraseDupsBy.loop, List.eraseDupsBy.loop, hany]
      cases acc'.any (same' b) with
      | true => exact ih acc acc' hacc
      | false => exact ih (a :: acc) (b :: acc') (.cons hab hacc)

end Repetitions
end ScriptSessions
