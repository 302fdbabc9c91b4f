import ScriptSessions.Proofs.Host.Closing
import ScriptSessions.Proofs.Session.Chronicle

set_option autoImplicit false

/-! # Nothing is stored over something newer

The chronicle of a session is kept while its host runs. Clients of the host may do whatever they
like with this session and all others, and the passes of all sessions go on in any order, beside any
files and any use of the shared cache. `chronicle_faithful` says what the chronicle then looks like:
the results of the session are numbered without a gap, never go back to an older text, and each of
them is the whole outcome of one pass over one text.
-/

namespace ScriptSessions

open Reference

namespace Workspace

variable {offered : List Uuid} {ws ws' : Workspace} {n : SessionNumber} {c : Chronicle}

/-- The gates of all sessions are kept. -/
def GatesKept (ws : Workspace) : Prop := ∀ s ∈ ws.sessions, s.GateKept

theorem GatesKept.effect {calm : Bool} (h : ws.GatesKept) (he : ws.Effect offered calm ws') :
    ws'.GatesKept :=
  he.forall_sessions (fun _ _ hturn hs => hturn.keeps (fun _ a hs => hs.perform a) hs)
    (fun s passes _ unused _ => ⟨by rw [passes, unused]; rfl, fun _ => by rw [passes, unused]; rfl⟩)
    h

theorem GatesKept.effects {calm : Bool} (h : ws.GatesKept) (he : ws.Effects offered calm ws') :
    ws'.GatesKept := by
  induction he with
  | refl => exact h
  | tail _ hlast ih => exact ih.effect hlast

/-- The chronicle of the session with number `n` follows the session. It is empty as long as there
is no such session. -/
structure Chronicled (ws : Workspace) (n : SessionNumber) (c : Chronicle) : Prop where
  absent : ws.session? n = none → c = {}
  present : ∀ s, ws.session? n = some s → c.Follows s

theorem Chronicled.of_session?_eq (h : ws.Chronicled n c)
    (hsame : ws'.session? n = ws.session? n) : ws'.Chronicled n c :=
  ⟨fun hnone => h.absent (hsame ▸ hnone), fun s at_n => h.present s (hsame ▸ at_n)⟩

/-- As long as it is calm, nothing has to be written down. -/
theorem Chronicled.effect (h : ws.Chronicled n c) (he : ws.Effect offered true ws') :
    ws'.Chronicled n c := by
  cases he with
  | aside | tell | deliver | unregister => exact h.of_session?_eq rfl
  | share _ busy | advance _ _ _ _ _ _ _ busy => cases busy
  | act m s a at_m ha =>
      by_cases hm : m = n
      · subst hm
        have hself := session?_setSession_self at_m (s.perform a)
        constructor
        · intro hnone
          rw [hself] at hnone
          cases hnone
        · intro t at_m'
          rw [hself] at at_m'
          obtain rfl := Option.some.inj at_m'
          exact (h.present s at_m).act ha
      · exact h.of_session?_eq (session?_setSession_ne hm _)
  | add s new blank =>
      rcases Nat.lt_trichotomy n ws.sessions.length with hlt | heq | hgt
      · exact h.of_session?_eq (List.getElem?_append_left hlt)
      · -- the session is the new one
        subst heq
        have hempty := h.absent (List.getElem?_eq_none (Nat.le_refl _))
        constructor
        · exact fun _ => hempty
        · intro t at_n
          have hlast : (ws.sessions ++ [s])[ws.sessions.length]? = some s := by simp
          obtain rfl := Option.some.inj (hlast.symm.trans at_n)
          rw [hempty]
          exact Chronicle.follows_new new blank
      · refine h.of_session?_eq ?_
        have hnone : ws.session? n = none := List.getElem?_eq_none (Nat.le_of_lt hgt)
        rw [hnone]
        exact List.getElem?_eq_none (by rw [List.length_append]; exact hgt)
  | register m s b => exact h.of_session?_eq (session?_register m n b)

theorem Chronicled.effects (h : ws.Chronicled n c) (he : ws.Effects offered true ws') :
    ws'.Chronicled n c := by
  induction he with
  | refl => exact h
  | tail _ hlast ih => exact ih.effect hlast

end Workspace

/-! ## The chronicle of a run -/

namespace Host

/-- The request that the session with number `n` settles in an action. -/
def settled? (h : Host) (n : SessionNumber) : Action → Option (Nat × Directive × Outcome)
  | .advance m i w _ => if m = n then (h.workspace.session? n).bind (·.settled? w i) else none
  | _ => none

/-- The findings that the session with number `n` stores in an action. -/
def stored? (h : Host) (n : SessionNumber) (a : Action) : Option (Nat × Findings) :=
  match a with
  | .advance m i _ _ =>
    if m = n then
      (h.workspace.session? n).bind fun s =>
        ((h.perform a).workspace.session? n).bind fun t => s.stored? t i
    else none
  | _ => none

/-- The chronicle of the session with number `n` after an action. -/
def note (h : Host) (n : SessionNumber) (c : Chronicle) (a : Action) : Chronicle :=
  let c := c.write (h.settled? n a) (h.stored? n a)
  match (h.perform a).workspace.session? n with
  | none => c
  | some s => c.see s.snapshot

/-- The chronicle of the session with number `n` after a run, which continues the chronicle `c`. -/
def chronicle (h : Host) (n : SessionNumber) (c : Chronicle) : List Action → Chronicle
  | [] => c
  | a :: rest => (h.perform a).chronicle n (h.note n c a) rest

/-- The invariant of a host whose session with number `n` has the chronicle `c`. -/
structure Keeps (h : Host) (n : SessionNumber) (c : Chronicle) : Prop where
  chronicled : h.workspace.Chronicled n c
  seen : ∀ s, h.workspace.session? n = some s → s.snapshot ∈ c.snapshots
  gates : h.workspace.GatesKept
  kept : h.workspace.Kept

/-- When a pass of the session with number `n` goes on, what it settles and stores is written
down. -/
theorem Keeps.advance {h : Host} {n : SessionNumber} {c : Chronicle} (hk : h.Keeps n c)
    {s : Session} (at_n : h.workspace.session? n = some s) (i : Nat) (w : World)
    (others : List Fetch) :
    (c.write (s.settled? w i) (s.stored? (s.advancePass w others h.workspace.cache i).1 i)).Follows
      (s.advancePass w others h.workspace.cache i).1 := by
  have hmem := List.mem_of_getElem? at_n
  have hfollows := hk.chronicled.present s at_n
  cases at_i : s.passes[i]? with
  | none =>
      have hsame : s.advancePass w others h.workspace.cache i = (s, h.workspace.cache) := by
        simp [Session.advancePass, Session.stepPass, at_i]
      have hsettled : s.settled? w i = none := by simp [Session.settled?, at_i]
      have hstored : s.stored? s i = none := if_pos rfl
      rw [hsame, hsettled, hstored, Chronicle.write_nothing]
      exact hfollows
  | some p =>
      -- between two actions no pass stands with its report in hand and the lock not yet released
      have hleaving := hk.kept.between s hmem p (List.mem_of_getElem? at_i)
      obtain ⟨q, t, hgo, hstride⟩ :=
        Session.stride_advancePass at_i hleaving w others h.workspace.cache
      rw [hgo]
      exact hfollows.stride (hk.seen s at_n) (hk.gates s hmem) at_i hstride

/-- The chronicle with what was settled and stored in an action follows the session. -/
theorem Keeps.write {h : Host} {n : SessionNumber} {c : Chronicle} (hk : h.Keeps n c) (a : Action) :
    (h.perform a).workspace.Chronicled n (c.write (h.settled? n a) (h.stored? n a)) := by
  have hcalm (calm : a.isCalm = true) :
      (h.perform a).workspace.Chronicled n (c.write none none) := by
    rw [Chronicle.write_nothing]
    exact hk.chronicled.effects (calm ▸ h.effects_perform a)
  cases a with
  | advance m i w others =>
      by_cases hm : m = n
      · subst hm
        cases at_m : h.workspace.session? m with
        | none =>
            have hsame : h.perform (.advance m i w others) = h := by
              simp only [Host.perform, onSession, at_m]
            have hsettled : h.settled? m (.advance m i w others) = none := by
              simp [settled?, at_m]
            have hstored : h.stored? m (.advance m i w others) = none := by
              simp [stored?, at_m]
            rw [hsame, hsettled, hstored, Chronicle.write_nothing]
            exact hk.chronicled
        | some s =>
            have hnext : (h.perform (.advance m i w others)).workspace.session? m
                = some (s.advancePass w others h.workspace.cache i).1 := by
              simp only [Host.perform, onSession, at_m]
              exact Workspace.session?_setSession_self at_m _
            have hfollows := hk.advance at_m i w others
            constructor
            · intro hnone
              rw [hnext] at hnone
              cases hnone
            · intro t at_m'
              rw [hnext] at at_m'
              obtain rfl := Option.some.inj at_m'
              simpa only [settled?, stored?, if_true, at_m, hnext, Option.bind_some] using hfollows
      · -- the pass is one of another session
        have hsettled : h.settled? n (.advance m i w others) = none := if_neg hm
        have hstored : h.stored? n (.advance m i w others) = none := if_neg hm
        rw [hsettled, hstored, Chronicle.write_nothing]
        refine hk.chronicled.of_session?_eq ?_
        simp only [Host.perform, onSession]
        split
        · rfl
        · exact Workspace.session?_setSession_ne hm _
  | share cache =>
      rw [show h.settled? n (.share cache) = none from rfl,
        show h.stored? n (.share cache) = none from rfl, Chronicle.write_nothing]
      exact hk.chronicled.of_session?_eq rfl
  | openSession | close | shutdown | update | reprocess | updateSession | reprocessSession
  | request | cancel | notify | send | listen | drop | abandon => exact hcalm rfl

theorem Keeps.perform {h : Host} {n : SessionNumber} {c : Chronicle} (hk : h.Keeps n c)
    (a : Action) : (h.perform a).Keeps n (h.note n c a) := by
  have heffects := h.effects_perform a
  have hwrite := hk.write a
  have hgates := hk.gates.effects heffects
  have hkept := hk.kept.effects heffects
  unfold note
  -- what has been written no longer matters, only the snapshot that is seen next
  generalize c.write (h.settled? n a) (h.stored? n a) = d at hwrite
  generalize h.perform a = h' at *
  dsimp only
  split
  · next hnone =>
      refine ⟨hwrite, fun s at_n => ?_, hgates, hkept⟩
      rw [hnone] at at_n
      cases at_n
  · next s at_n =>
      refine ⟨⟨fun hnone => ?_, fun t at_n' => ?_⟩, fun t at_n' => ?_, hgates, hkept⟩
      · rw [at_n] at hnone
        cases hnone
      · rw [at_n] at at_n'
        obtain rfl := Option.some.inj at_n'
        exact (hwrite.present s at_n).see
      · rw [at_n] at at_n'
        obtain rfl := Option.some.inj at_n'
        exact List.mem_append_right _ List.mem_cons_self

theorem Keeps.run {h : Host} {n : SessionNumber} {c : Chronicle} (hk : h.Keeps n c)
    (actions : List Action) : (h.run actions).Keeps n (h.chronicle n c actions) := by
  induction actions generalizing h c with
  | nil => exact hk
  | cons a rest ih => exact ih (hk.perform a)

theorem keeps_new (w : World) (config : Config) (overrides : List (String × String))
    (n : SessionNumber) : (new w config overrides).Keeps n {} := by
  have hnone : (new w config overrides).workspace.sessions = [] := by simp [new]
  have hsession : (new w config overrides).workspace.session? n = none := by
    simp [Workspace.session?, hnone]
  refine ⟨⟨fun _ => rfl, fun s at_n => ?_⟩, fun s at_n => ?_, fun s hs => ?_,
    Workspace.kept_of_empty hnone (by simp [new])⟩
  · rw [hsession] at at_n
    cases at_n
  · rw [hsession] at at_n
    cases at_n
  · rw [hnone] at hs
    cases hs

/-- **Nothing is stored over something newer.** Let anything happen to a host and its sessions. The
chronicle of each session is faithful. Its results have the numbers 1, 2, 3, … as long as these fit
into 64 bits, and a report says that its findings were stored if and only if they were. -/
theorem chronicle_faithful (w : World) (config : Config) (overrides : List (String × String))
    (actions : List Action) (n : SessionNumber) (s : Session)
    (at_n : ((new w config overrides).run actions).workspace.session? n = some s) :
    ((new w config overrides).chronicle n {} actions).Faithful s ∧
      (((new w config overrides).chronicle n {} actions).results.length < UInt64.size →
        ((new w config overrides).chronicle n {} actions).results.map (fun r => r.2.pass)
          = List.range' 1 ((new w config overrides).chronicle n {} actions).results.length) ∧
      ∀ i r, s.report? i = some r → (r.committed = true ↔
        ∃ f, (i, f) ∈ ((new w config overrides).chronicle n {} actions).results ∧
          f.number = r.number) := by
  have hfollows := ((keeps_new w config overrides n).run actions).chronicled.present s at_n
  exact ⟨hfollows.toFaithful, hfollows.toFaithful.pass_results,
    fun i r hr => hfollows.committed_iff hr⟩

/-- A pass reads the text. While it is looking for the script, another pass is asked for, and the
text is changed. -/
def overtaken : List Action :=
  [.openSession default { text := "#load \"/setup.csx\"" } [.nil], .advance 0 0 default [],
    .advance 0 0 default [], .request 0, .updateSession 0 ⟨1, 0, "#load \"/main.csx\"", {}⟩] ++
  List.replicate 2 (.advance 0 0 default []) ++ List.replicate 4 (.advance 0 1 default [])

/-- The first pass stores what it has found in the first text, and the second one what it has found
in the changed text. -/
theorem overtaken_faithful :
    ∃ s, ((new default default).run overtaken).workspace.session? 0 = some s ∧
      ((new default default).chronicle 0 {} overtaken).Faithful s ∧
      ((new default default).chronicle 0 {} overtaken).results.map
        (fun r => (r.1, r.2.pass, r.2.textVersion)) = [(0, 1, 0), (1, 2, 1)] ∧
      ((new default default).chronicle 0 {} overtaken).results.length < UInt64.size := by
  have hthere : (((new default default).run overtaken).workspace.session? 0).isSome = true := by rfl
  obtain ⟨s, at_0⟩ := Option.isSome_iff_exists.mp hthere
  have hresults : ((new default default).chronicle 0 {} overtaken).results.map
      (fun r => (r.1, r.2.pass, r.2.textVersion)) = [(0, 1, 0), (1, 2, 1)] := by rfl
  have hlength := congrArg List.length hresults
  rw [List.length_map] at hlength
  refine ⟨s, at_0, (chronicle_faithful default default [] overtaken 0 s at_0).1, hresults, ?_⟩
  rw [hlength]
  decide

end Host

end ScriptSessions
