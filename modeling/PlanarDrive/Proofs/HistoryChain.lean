import PlanarDrive.PoseTable
import PlanarDrive.Proofs.SingleCalls

/-!
# The history as a chain of poses

A call that enters itself into the history does so with the poses around it. As long as no call
fails in its motion, the rover stands still between two entries. So each entry begins where the one
before it ended, the first of them at the start, and ends where the motions recorded until then lead
in playback. The table of poses shows the same chain as text.
-/

namespace PlanarDrive

variable {α : Type} [Scalar α]

structure Exchange.Enters (e : Exchange α) (entry : Entry α) : Prop where
  history : e.after.history = e.before.history ++ [entry]
  before : entry.before = e.before.pose
  after : entry.after = e.after.pose
  still : e.after.motions = e.before.motions → entry.before = entry.after

namespace Session

/-- A call enters itself into the history, or fails in its motion, or leaves the history and the
rover as they are. -/
theorem Effect.enters_or_fails_or_rests {s t : Session α} {r : Except (Fault α) (Option α)}
    (h : s.Effect (r, t)) (a : Act α) :
    (∃ entry, Exchange.Enters ⟨s, a, r, t⟩ entry) ∨ s.FailsInMotion (r, t) ∨
      t.history = s.history ∧ t.pose = s.pose := by
  cases h with
  | noted h b label => exact .inl ⟨⟨label, s.pose, s.pose⟩, rfl, rfl, rfl, fun _ => rfl⟩
  | moved h b label m hm =>
    refine .inl ⟨⟨label, s.pose, (s.carried m).pose⟩, rfl, rfl, rfl, fun hmotions => ?_⟩
    have hlength := congrArg List.length hmotions
    simp [entered, carried] at hlength
  | failed h f m hm => exact .inr (.inl ⟨m, f, rfl, rfl, hm⟩)
  | _ => exact .inr (.inr ⟨rfl, rfl⟩)

end Session

/-- A call that does not fail in its motion enters itself into the history or leaves the history
and the rover as they are. -/
theorem Exchange.IsCall.enters_or_rests {e : Exchange α} (h : e.IsCall)
    (hok : ¬ e.FailsInMotion) :
    (∃ entry, e.Enters entry) ∨
      e.after.history = e.before.history ∧ e.after.pose = e.before.pose := by
  rw [h.failsInMotion_iff] at hok
  rcases h.effect.enters_or_fails_or_rests e.act with henters | hfails | hrests
  · exact .inl henters
  · exact absurd hfails hok
  · exact .inr hrests

namespace Session

variable {s : Session α} {es : List (Exchange α)}

/-- The poses after the entries, led by the start, are the poses before them, followed by the live
pose. -/
def Linked (start : Pose α) (s : Session α) : Prop :=
  start :: s.history.map (·.after) = s.history.map (·.before) ++ [s.pose]

theorem linked_entered {start : Pose α} (hs : s.Linked start) (t : Session α)
    (ht : t.history = s.history) (label : String) : (s.entered t label).Linked start := by
  unfold Linked at hs ⊢
  show start :: (t.history ++ [_]).map _ = (t.history ++ [_]).map _ ++ [t.pose]
  rw [ht, List.map_append, List.map_append, ← List.cons_append, hs]
  rfl

/-- A call that does not fail in its motion keeps the history linked. -/
theorem Effect.linked {β : Type} {start : Pose α} {r : Except (Fault α) β × Session α}
    (h : s.Effect r) (hs : s.Linked start) (hok : ¬ s.FailsInMotion r) : r.2.Linked start := by
  cases h with
  | noted h b label => exact linked_entered hs s.tick rfl label
  | moved h b label m hm => exact linked_entered hs (s.carried m) rfl label
  | failed h f m hm => exact absurd ⟨m, f, rfl, rfl, hm⟩ hok
  | _ => exact hs

theorem Calls.linked {start : Pose α} (h : s.Calls es) (hs : s.Linked start)
    (hok : ∀ e ∈ es, ¬ e.FailsInMotion) : (s.reached es).Linked start := by
  refine h.rule (P := fun es => (∀ e ∈ es, ¬ e.FailsInMotion) → (s.reached es).Linked start)
    (fun _ => hs) (fun xs e _ hbefore he ih hok => ?_) hok
  rw [List.forall_mem_append, List.forall_mem_singleton] at hok
  have hlinked := ih hok.1
  rw [← hbefore] at hlinked
  rw [reached_concat]
  exact he.effect.linked hlinked (he.failsInMotion_iff.not.1 hok.2)

/-- Every entry of the history was made by one of the calls. -/
theorem Calls.exists_enters (h : s.Calls es) (hs : s.history = [])
    (hok : ∀ e ∈ es, ¬ e.FailsInMotion) {i : Nat} {entry : Entry α}
    (hi : (s.reached es).history[i]? = some entry) :
    ∃ e ∈ es, e.before.history.length = i ∧ e.Enters entry := by
  refine h.rule (P := fun es => (∀ e ∈ es, ¬ e.FailsInMotion) →
    (s.reached es).history[i]? = some entry →
      ∃ e ∈ es, e.before.history.length = i ∧ e.Enters entry) ?_ ?_ hok hi
  · simp [hs]
  · intro xs e _ hbefore he ih hok hi
    rw [List.forall_mem_append, List.forall_mem_singleton] at hok
    rw [reached_concat] at hi
    have hearlier (hi : e.before.history[i]? = some entry) :
        ∃ e' ∈ xs ++ [e], e'.before.history.length = i ∧ e'.Enters entry := by
      rw [hbefore] at hi
      obtain ⟨e', hmem, h'⟩ := ih hok.1 hi
      exact ⟨e', List.mem_append_left _ hmem, h'⟩
    rcases he.enters_or_rests hok.2 with ⟨new, henters⟩ | ⟨hhistory, -⟩
    · rw [henters.history] at hi
      rcases Nat.lt_trichotomy i e.before.history.length with hlt | heq | hgt
      · rw [List.getElem?_append_left hlt] at hi
        exact hearlier hi
      · rw [heq, List.getElem?_concat_length] at hi
        cases hi
        exact ⟨e, by simp, heq.symm, henters⟩
      · rw [List.getElem?_eq_none (by rw [List.length_append]; exact hgt)] at hi
        cases hi
    · rw [hhistory] at hi
      exact hearlier hi

/-- The session after one of the calls, and what is left of the calls after it. -/
theorem Calls.after_of_mem (h : s.Calls es) {e : Exchange α} (he : e ∈ es) :
    ∃ xs, (∀ e' ∈ xs, e' ∈ es) ∧ s.Calls xs ∧ e.after = s.reached xs ∧
      (s.reached es).Extends e.after := by
  obtain ⟨xs, ys, rfl⟩ := List.append_of_mem he
  rw [← List.singleton_append, ← List.append_assoc] at h ⊢
  have hrest := (chained_append.1 h.chained).2
  rw [reached_concat] at hrest
  refine ⟨xs ++ [e], fun _ => List.mem_append_left _, h.left, (s.reached_concat xs e).symm, ?_⟩
  rw [reached_append, reached_concat]
  exact hrest.extends

end Session

namespace PoseTable

theorem startRow_eq_ok {start : Pose Binary64} {row : Row} (h : startRow start = .ok row) :
    ∃ text, start.text = .ok text ∧ row = ⟨0, "(start)", "-", text⟩ := by
  unfold startRow at h
  cases ht : start.text with
  | error f => simp [ht, Except.map] at h
  | ok text =>
    simp only [ht, Except.map, Except.ok.injEq] at h
    exact ⟨text, rfl, h.symm⟩

theorem entryRow_eq_ok {step : Nat} {entry : Entry Binary64} {row : Row}
    (h : entryRow step entry = .ok row) :
    row.step = step ∧ row.command = entry.label ∧ entry.before.text = .ok row.before ∧
      entry.after.text = .ok row.after := by
  unfold entryRow at h
  cases hb : entry.before.text with
  | error f => simp [hb, bind, Except.bind] at h
  | ok before =>
    cases ha : entry.after.text with
    | error f => simp [hb, ha, bind, Except.bind] at h
    | ok after =>
      simp only [hb, ha, bind, Except.bind, Except.ok.injEq] at h
      subst h
      exact ⟨rfl, rfl, rfl, rfl⟩

/-- The rows of a history, column by column. -/
theorem entryRows_eq_ok {step : Nat} {entries : List (Entry Binary64)} {rows : List Row}
    (h : entryRows step entries = .ok rows) :
    rows.map (·.step) = (List.range' step entries.length).map Int.ofNat ∧
      rows.map (·.command) = entries.map (·.label) ∧
      (rows.map (·.before)).map .ok = entries.map (·.before.text) ∧
      (rows.map (·.after)).map .ok = entries.map (·.after.text) := by
  induction entries generalizing step rows with
  | nil =>
    cases h
    exact ⟨rfl, rfl, rfl, rfl⟩
  | cons entry rest ih =>
    unfold entryRows at h
    cases hrow : entryRow step entry with
    | error f => simp [hrow, bind, Except.bind] at h
    | ok row =>
      cases hrest : entryRows (step + 1) rest with
      | error f => simp [hrow, hrest, bind, Except.bind] at h
      | ok more =>
        simp only [hrow, hrest, bind, Except.bind, Except.ok.injEq] at h
        subst h
        obtain ⟨hstep, hcommand, hbefore, hafter⟩ := entryRow_eq_ok hrow
        obtain ⟨hsteps, hcommands, hbefores, hafters⟩ := ih hrest
        refine ⟨?_, ?_, ?_, ?_⟩
        · simp [hstep, hsteps, List.range'_succ]
        · simp [hcommand, hcommands]
        · rw [List.map_cons, List.map_cons, List.map_cons, hbefore, hbefores]
        · rw [List.map_cons, List.map_cons, List.map_cons, hafter, hafters]

/-- The table of a session whose history is linked shows the links. -/
theorem ofSession_of_linked {s : Session Binary64} (hs : s.Linked s.setup.start) {rows : List Row}
    (h : ofSession s = .ok rows) :
    rows.length = s.history.length + 1 ∧
      rows.map (·.step) = (List.range (s.history.length + 1)).map Int.ofNat ∧
      rows.map (·.command) = "(start)" :: s.history.map (·.label) ∧
      ∃ text, s.pose.text = .ok text ∧
        rows.map (·.after) = rows.tail.map (·.before) ++ [text] := by
  unfold ofSession at h
  cases hfirst : startRow s.setup.start with
  | error f => simp [hfirst, bind, Except.bind] at h
  | ok first =>
    cases hrest : entryRows 1 s.history with
    | error f => simp [hfirst, hrest, bind, Except.bind] at h
    | ok rest =>
      simp only [hfirst, hrest, bind, Except.bind, Except.ok.injEq] at h
      subst h
      obtain ⟨text₀, hstart, rfl⟩ := startRow_eq_ok hfirst
      obtain ⟨hsteps, hcommands, hbefores, hafters⟩ := entryRows_eq_ok hrest
      have hlength := congrArg List.length hcommands
      rw [List.length_map, List.length_map] at hlength
      refine ⟨congrArg (· + 1) hlength, ?_, congrArg _ hcommands, ?_⟩
      · rw [List.map_cons, hsteps, List.range_eq_range', List.range'_succ, List.map_cons]
        rfl
      · -- the texts of a chain of poses are a chain of texts
        have htexts := congrArg (List.map Pose.text) hs
        simp only [List.map_cons, List.map_append, List.map_map, List.map_nil] at htexts
        change s.setup.start.text :: s.history.map (·.after.text) =
          s.history.map (·.before.text) ++ [s.pose.text] at htexts
        rw [hstart, ← hafters, ← hbefores, ← List.map_cons] at htexts
        obtain ⟨texts, live, hrows, htexts, hlive⟩ := List.map_eq_append_iff.1 htexts
        obtain ⟨text, rfl, hpose⟩ := List.map_eq_singleton_iff.1 hlive
        rw [List.map_inj_right fun _ _ => Except.ok.inj] at htexts
        exact ⟨text, hpose.symm, hrows.trans (congrArg (· ++ [text]) htexts)⟩

/-- A line of the table ends with the pose after the call, filled up with spaces. -/
theorem Row.line_ends (row : Row) : ∃ front, row.line =
    front ++ " " ++ row.after ++ String.ofList (List.replicate (24 - row.after.length) ' ') := by
  unfold Row.line PoseTable.line
  simp only [String.ofList_append, Text.padRight, String.ofList_toList, String.length_toList,
    ← String.append_assoc]
  exact ⟨_, rfl⟩

theorem lines_concat (rows : List Row) (row : Row) :
    lines (rows ++ [row]) = lines rows ++ [row.line] := by
  simp [lines]

end PoseTable

/-- Along every run on a fresh session, as long as no call has failed in its motion, the first entry
of the history begins at the start, every other entry begins where the one before it ended, and the
last one ends at the live pose. Each entry was made by a call of the run, ends where the trajectory
of the motions recorded up to that call ends, and has moved the rover only if the call recorded a
motion. A table of such a session counts its rows from the start on, and its columns of poses show
the same chain. -/
theorem history_links_and_matches_playback {setup : Setup Binary64} {s₀ : Session Binary64}
    (h₀ : Session.start setup = .ok s₀) (p : Program Binary64) {past : List (Exchange Binary64)}
    (hp : past <+: p.calls s₀) (hok : ∀ e ∈ past, ¬ e.FailsInMotion) :
    setup.start :: (s₀.reached past).history.map (·.after) =
        (s₀.reached past).history.map (·.before) ++ [(s₀.reached past).pose] ∧
      (∀ (i : Nat) entry, (s₀.reached past).history[i]? = some entry →
        ∃ e ∈ past, e.before.history.length = i ∧
          e.after.history = e.before.history ++ [entry] ∧
          e.after.motions <+: (s₀.reached past).motions ∧
          (∃ samples last, Trajectory.build e.after.motions setup.start s₀.dt = .ok samples ∧
            samples.getLast? = some last ∧ last.pose = entry.after) ∧
          (e.after.motions = e.before.motions → entry.before = entry.after)) ∧
      ∀ rows, PoseTable.ofSession (s₀.reached past) = .ok rows →
        rows.length = (s₀.reached past).history.length + 1 ∧
          rows.map (·.step) =
            (List.range ((s₀.reached past).history.length + 1)).map Int.ofNat ∧
          rows.map (·.command) =
            "(start)" :: (s₀.reached past).history.map (·.label) ∧
          ∃ text, (s₀.reached past).pose.text = .ok text ∧
            rows.map (·.after) = rows.tail.map (·.before) ++ [text] := by
  obtain ⟨hin, rfl⟩ := Session.inStep_start h₀
  have hfresh := (Session.start_eq_ok h₀).2
  have hhistory : s₀.history = [] := by rw [hfresh]
  have hlinked₀ : s₀.Linked s₀.setup.start := by rw [hfresh]; rfl
  have hpast := (p.calls_calls s₀).earlier hp
  have hlinked := hpast.linked hlinked₀ hok
  refine ⟨hlinked, fun i entry hi => ?_, fun rows hrows => ?_⟩
  · obtain ⟨e, he, hlength, henters⟩ := hpast.exists_enters hhistory hok hi
    obtain ⟨xs, hsub, hxs, hafter, hrest⟩ := hpast.after_of_mem he
    obtain ⟨samples, hbuild, hlast⟩ := Trajectory.build_of_leads
      (hxs.chained.inStep hin fun e' he' => hok e' (hsub e' he'))
    rw [hxs.chained.extends.setup, hxs.chained.extends.dt, ← hafter] at hbuild
    rw [← hafter] at hlast
    exact ⟨e, he, hlength, henters.history, hrest.motions,
      ⟨samples, e.after.live, hbuild, hlast, henters.after.symm⟩, henters.still⟩
  · rw [← hpast.chained.extends.setup] at hlinked
    exact PoseTable.ofSession_of_linked hlinked hrows

/-- A script that looks, stands still, asks for an unknown command, turns a little and is put
elsewhere. -/
def errand : Program Binary64 :=
  .act (.call .look) fun _ =>
    .act (.plan [⟨"move_forward", 0.0⟩, ⟨"jump", 1.0⟩]) fun _ =>
      .act (.call (.steer .turnLeft (.ok 2.0))) fun _ =>
        .act (.call (.place (.ok 1.0) (.ok 2.0) (.ok 0.0))) fun _ => .stop (.ok ())

theorem history_links_and_matches_playback_errand :
    Session.start openField.setup = .ok openField ∧
      (∀ e ∈ errand.calls openField, ¬ e.FailsInMotion) ∧
      (errand.exec openField).2.history.length = 3 ∧
      .origin :: (errand.exec openField).2.history.map (·.after) =
        (errand.exec openField).2.history.map (·.before) ++ [⟨1.0, 2.0, 0.0⟩] ∧
      ∃ rows, PoseTable.ofSession (errand.exec openField).2 = .ok rows ∧ rows.length = 4 ∧
        rows.map (·.after) = rows.tail.map (·.before) ++ ["(1.00, 2.00, 0°)"] := by
  have h₀ : Session.start openField.setup = .ok openField := rfl
  have hquiet : ∀ e ∈ errand.calls openField,
      e.answer.isOk = true ∨ e.after.motions = e.before.motions := by
    decide +kernel
  have hok : ∀ e ∈ errand.calls openField, ¬ e.FailsInMotion := by
    intro e he hfails
    have hcall := (errand.calls_calls openField).isCall e he
    obtain ⟨⟨f, hf⟩, hmotions⟩ :=
      hcall.effect.failsInMotion_iff.1 (hcall.failsInMotion_iff.1 hfails)
    rcases hquiet e he with hanswer | hsame
    · rw [show e.answer = .error f from hf] at hanswer
      cases hanswer
    · exact hmotions hsame
  have hlength : (errand.exec openField).2.history.length = 3 := by decide +kernel
  have hpose : (errand.exec openField).2.pose = ⟨1.0, 2.0, 0.0⟩ := by decide +kernel
  obtain ⟨hlinked, -, htable⟩ :=
    history_links_and_matches_playback h₀ errand (List.prefix_refl _) hok
  rw [errand.reached_calls] at hlinked htable
  rw [hpose] at hlinked
  refine ⟨h₀, hok, hlength, hlinked, ?_⟩
  have hshown : (PoseTable.ofSession (errand.exec openField).2).isOk = true := by decide +kernel
  have htext : (⟨1.0, 2.0, 0.0⟩ : Pose Binary64).text.toOption = some "(1.00, 2.00, 0°)" := by
    decide +kernel
  cases hrows : PoseTable.ofSession (errand.exec openField).2 with
  | error f =>
    rw [hrows] at hshown
    cases hshown
  | ok rows =>
    obtain ⟨hcount, -, -, text, hpose', hchain⟩ := htable rows hrows
    rw [hpose] at hpose'
    rw [hpose'] at htext
    cases htext
    exact ⟨rows, rfl, by rw [hcount, hlength], hchain⟩

end PlanarDrive
