import Mathlib.Data.List.Dedup
import ScriptSessions.Proofs.Documentation.Desk
import ScriptSessions.Proofs.Lists

set_option autoImplicit false

/-! # One provider for a key

The provider that is kept under a key is the choice of the call that came to insert first, and
every call of the key, the earlier and the later ones, returns it. Calls look at the candidates
at different times, so they may find different files, but what a call has found matters only if
the key has no provider when the call comes back with it.

The invariant is `Desk.Kept`. It says of a call under way that its candidates are those of its key
and that it has looked at them in order (`Inquiry.Sound`), and of the table that behind each of
its entries there is the call that has made it. A provider once kept is never replaced
(`Registry.Keeps`), which carries everything that is known about the calls over to the next step.
-/

namespace ScriptSessions.Documentation

/-! ## The registry -/

namespace Registry

/-- Every provider that a registry keeps, another one keeps under the same key. -/
structure Keeps (r r' : Registry) : Prop where
  directories : r'.directories = r.directories
  table : ∀ key p, r.table.lookup key = some p → r'.table.lookup key = some p

theorem Keeps.refl (r : Registry) : r.Keeps r := ⟨rfl, fun _ _ h => h⟩

theorem Keeps.candidates {r r' : Registry} (h : r.Keeps r') (key : Path) :
    r'.candidates key = r.candidates key := by
  rw [Registry.candidates, Registry.candidates, h.directories]

/-- A key without a provider in the later registry had none before. -/
theorem Keeps.lookup_eq_none {r r' : Registry} (h : r.Keeps r') {key : Path}
    (hnone : r'.table.lookup key = none) : r.table.lookup key = none := by
  cases hkey : r.table.lookup key with
  | none => rfl
  | some p => rw [h.table key p hkey] at hnone; cases hnone

section Insert

variable (r : Registry) (key : Path) (file : Option Path)

theorem source_insert : (r.insert key file).1.source = file := by
  cases file <;> rfl

theorem insert_eq_empty (h : file = none) : (r.insert key file).1 = .empty := by
  subst h
  rfl

theorem table_insert : (r.insert key file).2.table = r.table ++ [(key, (r.insert key file).1)] := by
  cases file <;> rfl

theorem directories_insert : (r.insert key file).2.directories = r.directories := by
  cases file <;> rfl

theorem contents_insert : (r.insert key file).2.contents = r.contents := by
  cases file <;> rfl

theorem lookup_insert (k : Path) : (r.insert key file).2.table.lookup k
    = (r.table.lookup k).or (if k = key then some (r.insert key file).1 else none) := by
  rw [table_insert, List.lookup_append, lookup_cons_eq_ite, List.lookup_nil]

theorem lookup_insert_self (h : r.table.lookup key = none) :
    (r.insert key file).2.table.lookup key = some (r.insert key file).1 := by
  rw [lookup_insert, h, if_pos rfl, Option.none_or]

theorem keeps_insert : r.Keeps (r.insert key file).2 :=
  ⟨directories_insert r key file, fun k p h => by rw [lookup_insert, h, Option.some_or]⟩

end Insert

theorem nodup_insert {r : Registry} (keys : (r.table.map Prod.fst).Nodup) {key : Path}
    (hnew : r.table.lookup key = none) (file : Option Path) :
    ((r.insert key file).2.table.map Prod.fst).Nodup := by
  rw [table_insert, List.map_append, List.nodup_append]
  refine ⟨keys, List.nodup_singleton key, ?_⟩
  rintro k hk k' hk' rfl
  rw [List.mem_singleton.mp hk'] at hk
  obtain ⟨entry, hentry, hfst⟩ := List.mem_map.mp hk
  have hother := List.lookup_eq_none_iff.mp hnew entry hentry
  simp [hfst] at hother

/-! ## Identities -/

/-- The empty provider is shared, and any other one has an identity of its own. -/
structure Tidy (r : Registry) : Prop where
  next_pos : 0 < r.nextId
  kinds : ∀ key p, r.table.lookup key = some p →
    p = .empty ∨ (0 < p.id ∧ p.id < r.nextId ∧ p.source ≠ none)
  distinct : ∀ key key' p p', r.table.lookup key = some p → r.table.lookup key' = some p' →
    p.id = p'.id → (p = .empty ∧ p' = .empty) ∨ key = key'

namespace Tidy

variable {r : Registry}

theorem new (directories : Directories) : (Registry.new directories).Tidy :=
  ⟨Nat.one_pos, nofun, nofun⟩

/-- Providers with one identity are one provider. -/
theorem eq_of_id (h : r.Tidy) {key key' : Path} {p p' : Provider}
    (hp : r.table.lookup key = some p) (hp' : r.table.lookup key' = some p')
    (hid : p.id = p'.id) : p = p' := by
  rcases h.distinct key key' p p' hp hp' hid with ⟨hempty, hempty'⟩ | hkey
  · rw [hempty, hempty']
  · rw [hkey, hp'] at hp
    exact (Option.some.inj hp).symm

/-- A new provider has the identity of an old one only if both are the empty provider. -/
theorem eq_empty_of_insert (h : r.Tidy) {key k : Path} {file : Option Path} {p : Provider}
    (hp : r.table.lookup k = some p) (hid : p.id = (r.insert key file).1.id) :
    p = .empty ∧ (r.insert key file).1 = .empty := by
  have hpos := h.next_pos
  cases file with
  | none =>
      -- only the empty provider has the identity 0
      refine ⟨(h.kinds k p hp).resolve_right fun hkind => ?_, rfl⟩
      exact absurd hid (Nat.ne_of_gt hkind.1)
  | some f =>
      -- all identities are below the next one
      refine absurd hid (Nat.ne_of_lt ?_)
      rcases h.kinds k p hp with rfl | hkind
      · exact hpos
      · exact hkind.2.1

theorem insert (h : r.Tidy) {key : Path} (hnew : r.table.lookup key = none)
    (file : Option Path) : (r.insert key file).2.Tidy := by
  have hself {p : Provider} (hp : (r.insert key file).2.table.lookup key = some p) :
      p = (r.insert key file).1 := by
    rw [lookup_insert_self r key file hnew] at hp
    exact (Option.some.inj hp).symm
  have hold {k : Path} {p : Provider} (hk : k ≠ key)
      (hp : (r.insert key file).2.table.lookup k = some p) : r.table.lookup k = some p := by
    rwa [lookup_insert, if_neg hk, Option.or_none] at hp
  have hnext : r.nextId ≤ (r.insert key file).2.nextId := by
    cases file with
    | none => exact Nat.le_refl _
    | some f => exact Nat.le_succ _
  refine ⟨Nat.lt_of_lt_of_le h.next_pos hnext, fun k p hp => ?_, fun k k' p p' hp hp' hid => ?_⟩
  · by_cases hk : k = key
    · subst hk
      rw [hself hp]
      cases file with
      | none => exact .inl rfl
      | some f => exact .inr ⟨h.next_pos, Nat.lt_succ_self _, Option.some_ne_none f⟩
    · rcases h.kinds k p (hold hk hp) with hempty | ⟨hpos, hlt, hsource⟩
      · exact .inl hempty
      · exact .inr ⟨hpos, Nat.lt_of_lt_of_le hlt hnext, hsource⟩
  · by_cases hk : k = key
    · by_cases hk' : k' = key
      · exact .inr (hk.trans hk'.symm)
      · subst hk
        rw [hself hp] at hid ⊢
        exact .inl (h.eq_empty_of_insert (hold hk' hp') hid.symm).symm
    · by_cases hk' : k' = key
      · subst hk'
        rw [hself hp'] at hid ⊢
        exact .inl (h.eq_empty_of_insert (hold hk hp) hid)
      · exact h.distinct k k' p p' (hold hk hp) (hold hk' hp') hid

end Tidy

end Registry

/-! ## Looking at candidates -/

/-- The files in which the documentation of a key is looked for, in order: the sibling of the
module, which is the key itself, the file of the same name in the documentation directory, and the
one among the reference assemblies. There are none for a key without a file name. -/
inductive Directories.Places (dirs : Directories) (key : Path) : List Path → Prop where
  | nameless (h : key.fileName? = none) : Places dirs key []
  | named (name : String) (h : key.fileName? = some name) :
      Places dirs key ([key] ++ dirs.documentation.toList.map (· / name)
        ++ dirs.referenceAssemblies.toList.map (· / name))

/-- The candidates of a key are these files. -/
theorem Registry.places_candidates (r : Registry) (key : Path) :
    r.directories.Places key (r.candidates key) := by
  obtain ⟨⟨assemblies, docs⟩, table, contents, nextId⟩ := r
  unfold candidates
  split
  · next h => exact .nameless h
  · next name h =>
      have hplaces : Directories.Places ⟨assemblies, docs⟩ key _ := .named name h
      cases docs <;> cases assemblies <;> exact hplaces

/-- `FirstFile files looks file`: of some files that are looked at one after another, each in its
own world, `file` is the first regular one, with which the looking ends; it is `none` if all of
them were looked at and none is regular. -/
inductive FirstFile : List Path → List World → Option Path → Prop where
  | none : FirstFile [] [] none
  | here (file : Path) (rest : List Path) (w : World) (h : w.isFile file = true) :
      FirstFile (file :: rest) [w] (some file)
  | next (file : Path) (rest : List Path) (w : World) (looks : List World) (found : Option Path)
      (h : w.isFile file = false) (hrest : FirstFile rest looks found) :
      FirstFile (file :: rest) (w :: looks) found

/-! ## Calls under way -/

namespace Inquiry

/-- What is known of a call: as long as it looks, what comes of the candidates that are left comes
of all of them; then it brings what came of them; and in the end it has the provider of its
key. -/
def Sound (r : Registry) (q : Inquiry) : Prop :=
  match q.search with
  | .asking path => path = q.path ∧ q.looks = []
  | .probing key rest => q.key? = some key ∧ ∀ looks file, FirstFile rest looks file →
      FirstFile (r.candidates key) (q.looks ++ looks) file
  | .choosing key file => q.key? = some key ∧ FirstFile (r.candidates key) q.looks file
  | .done p => ∃ key, q.key? = some key ∧ r.table.lookup key = some p

theorem Sound.keeps {r r' : Registry} {q : Inquiry} (h : q.Sound r) (hr : r.Keeps r') :
    q.Sound r' := by
  obtain ⟨path, world?, looks, search⟩ := q
  cases search with
  | asking => exact h
  | probing key rest =>
      refine ⟨h.1, fun looks file hfirst => ?_⟩
      rw [hr.candidates]
      exact h.2 looks file hfirst
  | choosing key file =>
      refine ⟨h.1, ?_⟩
      rw [hr.candidates]
      exact h.2
  | done p =>
      obtain ⟨key, hkey, hp⟩ := h
      exact ⟨key, hkey, hr.table key p hp⟩

/-- What a step does to the registry: nothing, and then whoever comes to insert comes too late, or
it inserts what the call has found. -/
theorem Move.registry {w : World} {r r' : Registry} {q q' : Inquiry} (h : q.Move w r q' r') :
    (r' = r ∧ ∀ key, q.inserting? = some key → r.table.lookup key ≠ none) ∨
      ∃ key file, q.search = .choosing key file ∧ r.table.lookup key = none ∧
        q' = { q with search := .done (r.insert key file).1 } ∧ r' = (r.insert key file).2 := by
  cases h with
  | known _ _ hq | unknown _ hq | hit _ _ _ hq | miss _ _ _ hq | exhaust _ hq | idle _ hq =>
      exact .inl ⟨rfl, by simp [inserting?, hq]⟩
  | late key file p hq h =>
      refine .inl ⟨rfl, fun key' hkey' => ?_⟩
      rw [inserting?, hq] at hkey'
      rw [← Option.some.inj hkey', h]
      exact Option.some_ne_none p
  | insert key file hq h => exact .inr ⟨key, file, hq, h, rfl, rfl⟩

theorem Move.keeps {w : World} {r r' : Registry} {q q' : Inquiry} (h : q.Move w r q' r') :
    r.Keeps r' := by
  rcases h.registry with ⟨rfl, -⟩ | ⟨key, file, -, -, -, rfl⟩
  · exact .refl r'
  · exact r.keeps_insert key file

theorem Move.contents {w : World} {r r' : Registry} {q q' : Inquiry} (h : q.Move w r q' r') :
    r'.contents = r.contents := by
  rcases h.registry with ⟨rfl, -⟩ | ⟨key, file, -, -, -, rfl⟩
  · rfl
  · exact r.contents_insert key file

/-- Every step of a call keeps what is known of it. -/
theorem Sound.move {w : World} {r r' : Registry} {q q' : Inquiry} (hs : q.Sound r)
    (h : q.Move w r q' r') : q'.Sound r' := by
  cases h with
  | known path p hq h =>
      simp only [Sound, hq] at hs
      exact ⟨key w.directory path, by rw [hs.1]; rfl, h⟩
  | unknown path hq h =>
      simp only [Sound, hq] at hs
      refine ⟨by rw [hs.1]; rfl, fun looks file hfirst => ?_⟩
      rw [hs.2]
      exact hfirst
  | hit key file rest hq h =>
      simp only [Sound, hq] at hs
      exact ⟨hs.1, hs.2 [w] (some file) (.here file rest w h)⟩
  | miss key file rest hq h =>
      simp only [Sound, hq] at hs
      refine ⟨hs.1, fun looks found hfirst => ?_⟩
      rw [List.append_assoc]
      exact hs.2 (w :: looks) found (.next file rest w looks found h hfirst)
  | exhaust key hq =>
      simp only [Sound, hq] at hs
      have hfirst := hs.2 [] none .none
      rw [List.append_nil] at hfirst
      exact ⟨hs.1, hfirst⟩
  | late key file p hq h =>
      simp only [Sound, hq] at hs
      exact ⟨key, hs.1, h⟩
  | insert key file hq h =>
      simp only [Sound, hq] at hs
      exact ⟨key, hs.1, r.lookup_insert_self key file h⟩
  | idle => exact hs

/-- A call that is over has the provider of its key. -/
theorem Sound.lookup {r : Registry} {q : Inquiry} (h : q.Sound r) {p : Provider}
    (hp : q.provider? = some p) : ∃ key, q.key? = some key ∧ r.table.lookup key = some p := by
  obtain ⟨path, world?, looks, search⟩ := q
  cases search with
  | done p' =>
      cases hp
      exact h
  | asking | probing | choosing => cases hp

end Inquiry

/-! ## The desk -/

namespace Desk

/-- The keys for which calls are over. -/
def completedKeys (d : Desk) : List Path :=
  d.inquiries.filterMap fun q => if q.provider?.isSome then q.key? else none

/-- The call `i` has chosen the provider `p` of a key: it came first to the insertion for the key,
and `p` stands for the first regular file that it found among those in which the documentation of
the key is looked for, or is the empty provider if it found none. -/
structure Chose (d : Desk) (key : Path) (i : Nat) (q : Inquiry) (p : Provider) : Prop where
  inquiry : d.inquiries[i]? = some q
  first : d.insertions.lookup key = some i
  asked : q.key? = some key
  provider : q.provider? = some p
  file : ∃ files, d.registry.directories.Places key files ∧ FirstFile files q.looks p.source
  empty : p.source = none → p = .empty

/-- What a desk relies on when it keeps providers. -/
structure Kept (d : Desk) : Prop where
  keys : (d.registry.table.map Prod.fst).Nodup
  tidy : d.registry.Tidy
  sound : ∀ q ∈ d.inquiries, q.Sound d.registry
  chosen : ∀ key p, d.registry.table.lookup key = some p → ∃ i q, d.Chose key i q p
  free : ∀ key, d.registry.table.lookup key = none → d.insertions.lookup key = none

theorem kept_new (directories : Directories) : (new directories).Kept :=
  ⟨.nil, .new directories, nofun, nofun, fun _ _ => rfl⟩

/-- The place of a call that is over is not changed by a step of any call. -/
theorem getElem?_set_of_over {d : Desk} {w : World} {i j : Nat} {q q' o : Inquiry} {r : Registry}
    (hi : d.inquiries[i]? = some q) (hmove : q.Move w d.registry q' r)
    (hj : d.inquiries[j]? = some o) {p : Provider} (hp : o.provider? = some p) :
    (d.inquiries.set i q')[j]? = some o := by
  rcases getElem?_set_cases hi q' hj with ⟨rfl, rfl⟩ | hsame
  · rw [hmove.eq_of_provider? hp, set_eq_self hi, hi]
  · exact hsame

section Advance

variable {d : Desk} {w : World} {i : Nat} {q q' : Inquiry} {r : Registry} {key : Path}

/-- Whoever has chosen a provider stays the one who has. -/
theorem Chose.advanced {j : Nat} {o : Inquiry} {p : Provider} (h : d.Chose key j o p)
    (hi : d.inquiries[i]? = some q) (hmove : q.Move w d.registry q' r) :
    (d.advanced i q q' r).Chose key j o p := by
  refine ⟨getElem?_set_of_over hi hmove h.inquiry h.provider, ?_, h.asked, h.provider, ?_, h.empty⟩
  · show (d.insertions ++ _).lookup key = some j
    rw [List.lookup_append, h.first, Option.some_or]
  · show ∃ files, r.directories.Places key files ∧ FirstFile files o.looks p.source
    rw [hmove.keeps.directories]
    exact h.file

/-- A call that inserts has chosen what it inserts. -/
theorem Kept.chose_insert (h : d.Kept) (hi : d.inquiries[i]? = some q) {file : Option Path}
    (hq : q.search = .choosing key file) (hnew : d.registry.table.lookup key = none)
    (hq' : q' = { q with search := .done (d.registry.insert key file).1 }) :
    (d.advanced i q q' (d.registry.insert key file).2).Chose key i q'
      (d.registry.insert key file).1 := by
  have hfound := h.sound q (List.mem_of_getElem? hi)
  simp only [Inquiry.Sound, hq] at hfound
  subst hq'
  refine ⟨List.getElem?_set_self (List.getElem?_eq_some_iff.mp hi).1, ?_, hfound.1, rfl, ?_,
    fun hsource => ?_⟩
  · show (d.insertions ++ (q.inserting?.map (·, i)).toList).lookup key = some i
    rw [List.lookup_append, h.free key hnew, Inquiry.inserting?, hq, Option.none_or]
    exact List.lookup_cons_self
  · rw [Registry.source_insert]
    refine ⟨_, (d.registry.insert key file).2.places_candidates key, ?_⟩
    rw [(Registry.keeps_insert _ _ _).candidates]
    exact hfound.2
  · rw [Registry.source_insert] at hsource
    exact Registry.insert_eq_empty _ _ _ hsource

/-- No one has come to insert under a key that still has no provider. -/
theorem Kept.free_advanced (h : d.Kept) (hmove : q.Move w d.registry q' r)
    (hnone : r.table.lookup key = none) : (d.advanced i q q' r).insertions.lookup key = none := by
  show (d.insertions ++ (q.inserting?.map (·, i)).toList).lookup key = none
  rw [List.lookup_append, h.free key (hmove.keeps.lookup_eq_none hnone), Option.none_or]
  cases hinserting : q.inserting? with
  | none => rfl
  | some key' =>
      -- whoever comes to insert leaves the key with a provider
      have hne : key ≠ key' := by
        rintro rfl
        rcases hmove.registry with ⟨rfl, hlate⟩ | ⟨key', file, hq, hnew, -, rfl⟩
        · exact hlate key hinserting hnone
        · rw [Inquiry.inserting?, hq] at hinserting
          rw [← Option.some.inj hinserting, Registry.lookup_insert_self _ _ _ hnew] at hnone
          cases hnone
      show List.lookup key [(key', i)] = none
      rw [lookup_cons_eq_ite, if_neg hne, List.lookup_nil]

/-- A call that takes a step keeps what the desk relies on. -/
theorem Kept.advance (h : d.Kept) (hi : d.inquiries[i]? = some q)
    (hmove : q.Move w d.registry q' r) : (d.advanced i q q' r).Kept := by
  have hsound : ∀ o ∈ d.inquiries.set i q', o.Sound r :=
    forall_mem_set (fun o ho => (h.sound o ho).keeps hmove.keeps)
      ((h.sound q (List.mem_of_getElem? hi)).move hmove)
  have hchosen {key : Path} {p : Provider} (hp : d.registry.table.lookup key = some p) :
      ∃ j o, (d.advanced i q q' r).Chose key j o p := by
    obtain ⟨j, o, hchose⟩ := h.chosen key p hp
    exact ⟨j, o, hchose.advanced hi hmove⟩
  have hfree (key : Path) (hnone : r.table.lookup key = none) :=
    h.free_advanced (i := i) hmove hnone
  rcases hmove.registry with ⟨rfl, -⟩ | ⟨key, file, hq, hnew, hq', rfl⟩
  · exact ⟨h.keys, h.tidy, hsound, fun key p hp => hchosen hp, hfree⟩
  · refine ⟨Registry.nodup_insert h.keys hnew file, h.tidy.insert hnew file, hsound,
      fun k p hp => ?_, hfree⟩
    change (d.registry.insert key file).2.table.lookup k = some p at hp
    by_cases hk : k = key
    · subst hk
      rw [Registry.lookup_insert_self _ _ _ hnew] at hp
      cases hp
      exact ⟨i, q', h.chose_insert hi hq hnew hq'⟩
    · rw [Registry.lookup_insert, if_neg hk, Option.or_none] at hp
      exact hchosen hp

end Advance

/-- Nothing that happens in the lookups matters for the providers. -/
theorem Kept.of_eq {d d' : Desk} (h : d.Kept) (hinquiries : d'.inquiries = d.inquiries)
    (hinsertions : d'.insertions = d.insertions) {contents : List (Nat × Members)}
    (hregistry : d'.registry = { d.registry with contents }) : d'.Kept := by
  obtain ⟨registry, inquiries, lookups, insertions, begun, readings⟩ := d'
  subst hinquiries hinsertions hregistry
  have hkeeps : d.registry.Keeps { d.registry with contents } := ⟨rfl, fun _ _ hp => hp⟩
  refine ⟨h.keys, ⟨h.tidy.next_pos, h.tidy.kinds, h.tidy.distinct⟩,
    fun q hq => (h.sound q hq).keeps hkeeps, fun key p hp => ?_, h.free⟩
  obtain ⟨i, q, hi, hfirst, hkey, hprovider, hfile, hempty⟩ := h.chosen key p hp
  exact ⟨i, q, hi, hfirst, hkey, hprovider, hfile, hempty⟩

theorem Kept.inquire {d : Desk} (h : d.Kept) (path : Path) :
    Kept { d with inquiries := d.inquiries ++ [.start path] } := by
  have hsound : ∀ q ∈ d.inquiries ++ [.start path], q.Sound d.registry :=
    List.forall_mem_append.mpr ⟨h.sound, List.forall_mem_singleton.mpr ⟨rfl, rfl⟩⟩
  refine ⟨h.keys, h.tidy, hsound, fun key p hp => ?_, h.free⟩
  obtain ⟨i, q, hi, hfirst, hkey, hprovider, hfile, hempty⟩ := h.chosen key p hp
  refine ⟨i, q, ?_, hfirst, hkey, hprovider, hfile, hempty⟩
  rw [List.getElem?_append_left (List.getElem?_eq_some_iff.mp hi).1, hi]

/-- Whatever happens at a desk keeps what it relies on. -/
theorem Kept.change {d d' : Desk} (h : d.Kept) {w : World} (hc : d.Change w d') : d'.Kept := by
  cases hc with
  | idle => exact h
  | inquire path => exact h.inquire path
  | advance i q q' r hi hmove => exact h.advance hi hmove
  | turn j l l' r hj hmove =>
      obtain ⟨contents, hr⟩ := hmove.registry
      exact h.of_eq rfl rfl hr
  | ask | leave => exact h.of_eq rfl rfl rfl

theorem directories_run (directories : Directories) (events : List (World × Action)) :
    ((new directories).run events).registry.directories = directories := by
  refine run_induction (P := fun d => d.registry.directories = directories) ?_ rfl events
  intro w d d' hc h
  cases hc with
  | idle | inquire | ask | leave => exact h
  | advance i q q' r hi hmove => exact hmove.keeps.directories.trans h
  | turn j l l' r hj hmove =>
      obtain ⟨contents, rfl⟩ := hmove.registry
      exact h

/-- A call that is over stays as it is. -/
theorem inquiry_run {d : Desk} {i : Nat} {q : Inquiry} {p : Provider}
    (hi : d.inquiries[i]? = some q) (hp : q.provider? = some p)
    (events : List (World × Action)) : (d.run events).inquiries[i]? = some q := by
  refine run_induction (P := fun d => d.inquiries[i]? = some q) ?_ hi events
  intro w d d' hc h
  cases hc with
  | idle | ask | turn | leave => exact h
  | inquire path => rw [List.getElem?_append_left (List.getElem?_eq_some_iff.mp h).1, h]
  | advance j o o' r hj hmove => exact getElem?_set_of_over hj hmove h hp

/-- All calls of a key return one provider. -/
theorem Kept.provider_eq {d : Desk} (h : d.Kept) {q q' : Inquiry} (hq : q ∈ d.inquiries)
    (hq' : q' ∈ d.inquiries) (hkey : q.key? = q'.key?) {p p' : Provider}
    (hp : q.provider? = some p) (hp' : q'.provider? = some p') : p = p' := by
  obtain ⟨key, hk, hlookup⟩ := (h.sound q hq).lookup hp
  obtain ⟨key', hk', hlookup'⟩ := (h.sound q' hq').lookup hp'
  rw [hkey, hk'] at hk
  rw [Option.some.inj hk, hlookup] at hlookup'
  exact Option.some.inj hlookup'

theorem Kept.mem_completedKeys_iff {d : Desk} (h : d.Kept) {key : Path} :
    key ∈ d.completedKeys ↔ key ∈ d.registry.table.map Prod.fst := by
  rw [completedKeys, List.mem_filterMap]
  constructor
  · rintro ⟨q, hq, hkey⟩
    split at hkey
    · next hover =>
        obtain ⟨p, hp⟩ := Option.isSome_iff_exists.mp hover
        obtain ⟨key', hk, hlookup⟩ := (h.sound q hq).lookup hp
        rw [hkey] at hk
        rw [Option.some.inj hk]
        exact List.mem_map.mpr ⟨_, mem_of_lookup hlookup, rfl⟩
    · cases hkey
  · intro hmem
    obtain ⟨⟨_, p⟩, hentry, rfl⟩ := List.mem_map.mp hmem
    obtain ⟨i, q, hchose⟩ := h.chosen _ p (lookup_of_mem h.keys hentry)
    refine ⟨q, List.mem_of_getElem? hchose.inquiry, ?_⟩
    rw [hchose.provider, Option.isSome_some, if_pos rfl, hchose.asked]

/-- The registry holds one provider for each key for which a call is over. -/
theorem Kept.size_eq {d : Desk} (h : d.Kept) :
    d.registry.size = d.completedKeys.dedup.length := by
  have hperm : (d.registry.table.map Prod.fst).Perm d.completedKeys.dedup :=
    (List.perm_ext_iff_of_nodup h.keys (List.nodup_dedup _)).mpr fun key => by
      rw [List.mem_dedup, h.mem_completedKeys_iff]
  rw [Registry.size, ← hperm.length_eq, List.length_map]

end Desk

end ScriptSessions.Documentation
