import Qwen3Tts.Runtime.StepSim

/-!
# Runtime — simulation of retirement and of the end of the worker

`retire_pending`, `retire_active`, the cleanup of `worker_loop`, and the unwinding that follows
when a session's destructor panics there.
-/

namespace Qwen3Tts.Runtime

open Qwen3Tts.Lib Sys

section Retirement

variable {s s' : Sys} {a : Action}

/-- A stage with a permit is counted by the pool. -/
theorem Coherent.used_pos {id : Nat} {v : Stage} (hs : Coherent s) (h : (id, v) ∈ s.stages)
    (hv : v.holdsPermit = true) : 0 < s.used := by
  rw [hs.permits, List.countP_pos_iff]
  exact ⟨(id, v), h, hv⟩

/-- What the program counter holds has a stage. -/
theorem held_mem {id : Nat} {v : Stage} {rest : List (Nat × Stage)}
    (hheld : s.worker.control.held = (id, v) :: rest) : (id, v) ∈ s.stages := by
  rw [stages_eq _ _ rfl rfl rfl hheld rfl]
  simp [parts]

/-! ## `retire_pending` -/

/-- Behind a retirement the program counter holds the starts that are still to be looked at. -/
theorem PendingReturn.held_eq (k : PendingReturn) : k.control.held = k.control.starts := by
  cases k <;> rfl

/-- A retirement of a pending start does not look at `active`, -/
theorem PendingReturn.active_eq (step : RetirePendingStep) (p : PendingStart) (k : PendingReturn)
    (active : List ActiveRequest) :
    activeStages (.retirePending step p k) active = activeStages k.control active := by
  cases k <;> rfl

/-- sends no command, -/
theorem PendingReturn.commanded_eq (step : RetirePendingStep) (p : PendingStart)
    (k : PendingReturn) : (Control.retirePending step p k).commanded = k.control.commanded := by
  cases k <;> rfl

/-- and keeps what the point it returns to refers to. -/
theorem PendingReturn.window_of {pending : List PendingStart} {active : List ActiveRequest}
    {step : RetirePendingStep} {p : PendingStart} {k : PendingReturn} (step' : RetirePendingStep)
    (h : Worker.WindowOk ⟨.retirePending step p k, pending, active⟩) :
    Worker.WindowOk ⟨.retirePending step' p k, pending, active⟩ ∧
      Worker.WindowOk ⟨k.control, pending, active⟩ := by
  have hempty := h.emptied
  cases k <;> exact ⟨.empty rfl hempty, .empty rfl hempty⟩

/-- Each step of `retire_pending`: the mark, the permit that is given back, the mark of the
retirement and the return to the caller. -/
theorem sim_retirePending {choice : Choice} {step : RetirePendingStep} {p : PendingStart}
    {k : PendingReturn} (hs : Coherent s) (hc : s.worker.control = .retirePending step p k) :
    Sim s (.worker choice) (s.retirePending step p k) := by
  have hheld : s.worker.control.held = (p.id, .retiringPending step p) :: k.control.starts := by
    rw [hc]; rfl
  have hwindow : Worker.WindowOk ⟨.retirePending step p k, s.worker.pending, s.worker.active⟩ := by
    rw [← hc]
    exact hs.window
  have hactive : ∀ step', activeStages (.retirePending step' p k) s.worker.active =
      activeStages s.worker.control s.worker.active := by
    intro step'
    rw [hc, PendingReturn.active_eq, PendingReturn.active_eq]
  have hcommanded : ∀ step', (Control.retirePending step' p k).commanded =
      s.worker.control.commanded := by
    intro step'
    rw [hc, PendingReturn.commanded_eq, PendingReturn.commanded_eq]
  -- the worker holds one entry, which moves on by one stage in each step
  unfold Sys.retirePending
  cases step with
  | mark mark =>
    obtain ⟨n, hn⟩ := s.applyMark_eq p.id mark
    simp only [hn]
    refine sim_held p.id _ (some (.retiringPending .release p)) _ _ hs (WorkerOnly.wakes n _ _ _ _)
      hheld rfl (hactive _) rfl le_rfl rfl ?_ (PendingReturn.window_of _ hwindow).1
      (.inr (hcommanded _))
    -- marking is allowed for the two reasons a pending request is retired for
    cases mark with
    | cancelled => exact ⟨.quiet, trivial, .cancelledPending⟩
    | failed cause => exact ⟨.fail, ⟨rfl, by rw [hc]; rfl⟩, .failedPending⟩
  | release =>
    -- the permit is counted, so the subtraction does not truncate
    have hused := hs.used_pos (held_mem hheld) rfl
    refine sim_held p.id _ (some (.retiringPending .markRetired p))
      ((s.requests p.id).emit .released) _ hs (WorkerOnly.of_worker _ _ _ _)
      hheld rfl (hactive _) ?_ ?_ rfl ⟨.quiet, trivial, .releasePending⟩
      (PendingReturn.window_of _ hwindow).1 (.inr (hcommanded _))
    · change s.used - 1 + 1 = s.used + 0
      omega
    · exact Nat.sub_le _ _
  | markRetired =>
    obtain ⟨n, hn⟩ := s.onShared_eq p.id .markRetired
    simp only [hn]
    refine sim_held p.id _ none _ _ hs (WorkerOnly.wakes n _ _ _ _) hheld
      (PendingReturn.held_eq k) ?_ rfl le_rfl rfl ⟨.quiet, trivial, .retirePending⟩
      (PendingReturn.window_of .markRetired hwindow).2 (.inr ?_)
    · rw [hc, PendingReturn.active_eq]
      rfl
    · rw [hc, PendingReturn.commanded_eq]
      rfl

/-! ## `retire_active` -/

/-- A retirement of an active request does not change the tags of the others, -/
theorem ActiveReturn.active_eq (step : RetireActiveStep) (r : ActiveRequest) (k : ActiveReturn)
    (active : List ActiveRequest) :
    activeStages (.retireActive step r k) active = activeStages k.control active := by
  cases k <;> rfl

/-- and no caller of `retire_active` refers to a request by its id. -/
theorem ActiveReturn.window_ok (k : ActiveReturn) (step : RetireActiveStep) (r : ActiveRequest)
    (pending : List PendingStart) (active : List ActiveRequest) :
    Worker.WindowOk ⟨.retireActive step r k, pending, active⟩ ∧
      Worker.WindowOk ⟨k.control, pending, active⟩ := by
  cases k <;> exact ⟨.idle rfl rfl, .idle rfl rfl⟩

/-- While a request is retired the others wait in a stage that a panic can end. -/
theorem ActiveReturn.working (k : ActiveReturn) (active : List ActiveRequest) :
    ∃ l : List (ActiveRequest × Stage), l.map (·.1) = active ∧
      activeStages k.control active = l.map (fun x => (x.1.id, x.2)) ∧
      ∀ x ∈ l, x.2.isWorking = some x.1 := by
  cases k with
  | removeCancelled index =>
    refine ⟨active.map fun r => (r, .active r), ?_, ?_, ?_⟩
    · simp [Function.comp_def]
    · rw [List.map_map]
      rfl
    · simp only [List.mem_map]
      rintro x ⟨r, -, rfl⟩
      rfl
  | removeFinished index =>
    -- before the index the scan has passed, behind it the requests are still settled
    refine ⟨(active.take index).map (fun r => (r, .active r)) ++
      (active.drop index).map fun r => (r, .settled r), ?_, ?_, ?_⟩
    · simp only [List.map_append, List.map_map, Function.comp_def]
      rw [← List.map_append, List.take_append_drop, List.map_id']
    · rw [List.map_append, List.map_map, List.map_map]
      exact activeStages_scan active rfl
    · simp only [List.mem_append, List.mem_map]
      rintro x (⟨r, -, rfl⟩ | ⟨r, -, rfl⟩) <;> rfl
  | exitActive panicked =>
    refine ⟨active.map fun r => (r, .exiting panicked r), ?_, ?_, ?_⟩
    · simp [Function.comp_def]
    · rw [List.map_map]
      rfl
    · simp only [List.mem_map]
      rintro x ⟨r, -, rfl⟩
      rfl

/-- A request that is worked on holds its permit. -/
theorem Stage.holdsPermit_of_working {v : Stage} {r : ActiveRequest} (h : v.isWorking = some r) :
    v.holdsPermit = true := by
  cases v <;> first | rfl | cases h

/-- The permit of a request whose session panicked is dropped, and everything else in `active`
is left to whoever catches the panic. -/
theorem sim_unwind {r : ActiveRequest} {k : ActiveReturn} (hs : Coherent s)
    (hc : s.worker.control = .retireActive (.release true) r k) :
    Sim s a ((s.release r.id).goto k.unwind) := by
  have hheld : s.worker.control.held = [(r.id, .retiringActive (.release true) r)] := by
    rw [hc]; rfl
  have hpos := hs.used_pos (held_mem hheld) rfl
  obtain ⟨l, hids, hstages, hworking⟩ := k.working s.worker.active
  have hactive : activeStages s.worker.control s.worker.active =
      l.map (fun x => (x.1.id, x.2)) := by
    rw [hc, ActiveReturn.active_eq, hstages]
  -- the panic moves every request at once: `none` stands for the one that is held, `some x` for the
  -- entry `x` of the active list
  let key : Option (ActiveRequest × Stage) → Nat := fun o => o.elim r.id (·.1.id)
  let before : Option (ActiveRequest × Stage) → Stage :=
    fun o => o.elim (.retiringActive (.release true) r) (·.2)
  let after : Option (ActiveRequest × Stage) → Option Stage :=
    fun o => o.map fun x => .exiting true x.1
  have hkeys : (none :: l.map some).map key = r.id :: s.worker.active.map (·.id) := by
    rw [← hids, List.map_cons, List.map_map, List.map_map]
    rfl
  have hbefore : (none :: l.map some).map (fun o => (key o, before o)) =
      (r.id, .retiringActive (.release true) r) :: l.map (fun x => (x.1.id, x.2)) := by
    rw [List.map_cons, List.map_map]
    rfl
  have hafter : entries key after (none :: l.map some) =
      l.map fun x => (x.1.id, .exiting true x.1) := by
    have h : entries key after (l.map some) = l.map fun x => (x.1.id, .exiting true x.1) := by
      simp [entries, key, after, List.filterMap_map, Function.comp_def]
    exact h
  have hunwound : activeStages k.unwind s.worker.active =
      l.map fun x => (x.1.id, .exiting true x.1) := by
    rw [← hids]
    cases k <;> simp [ActiveReturn.unwind, activeStages, Control.scan, tagged, Control.tag]
  -- the held request is not among the active ones
  have hnotmem : ∀ x ∈ l, x.1.id ≠ r.id := by
    intro x hx heq
    have hdistinct := hs.distinct
    rw [stages_eq _ _ rfl rfl rfl hheld rfl, parts, keys_append, keys_append, keys_append,
      keys_append, keys_activeStages] at hdistinct
    have h := hdistinct.of_append_right.of_append_right.of_append_right
    rw [keys_cons, keys_nil, List.singleton_append, List.nodup_cons] at h
    refine h.1 (heq ▸ List.mem_map_of_mem ?_)
    rw [← hids]
    exact List.mem_map_of_mem hx
  have hreq : ((s.release r.id).goto k.unwind).requests =
      Function.update s.requests r.id ((s.requests r.id).emit .released) := rfl
  refine Sim.update (none :: l.map some) key before after
    (s.starting.map waitingEntry ++ ((queuedStarts s.channel).map waitingEntry ++
      s.worker.pending.map waitingEntry))
    hs ⟨rfl, rfl, rfl, le_rfl⟩ (stages_eq _ _ rfl rfl rfl hheld hactive)
    (stages_eq [] _ rfl rfl rfl (by cases k <;> rfl) hunwound) ?_ ?_ ?_ (Nat.sub_le _ _) ?_ ?_
    (by cases k <;> exact .idle rfl rfl)
    (commands_of (fun _ h => h) (.inl (by cases k <;> rfl)))
  · rw [hbefore]
    refine perm_of_count fun x => ?_
    simp only [parts, List.count_append, List.count_cons, List.count_nil]
    omega
  · rw [hafter]
    refine perm_of_count fun x => ?_
    simp only [parts, goto, release, emit, onRequest, List.count_append, List.count_nil]
    omega
  · -- one permit is given back, the active requests keep theirs
    rw [hbefore, hafter]
    have hpermits : l.countP (fun x => x.2.holdsPermit) = l.length :=
      List.countP_eq_length.mpr fun x hx => Stage.holdsPermit_of_working (hworking x hx)
    have hcount : (l.map fun x => (x.1.id, x.2)).countP (fun y => y.2.holdsPermit) = l.length := by
      rw [List.countP_map]
      exact hpermits
    have hcount' : (l.map fun x => (x.1.id, Stage.exiting true x.1)).countP
        (fun y => y.2.holdsPermit) = l.length := by
      rw [List.countP_map]
      exact List.countP_eq_length.mpr fun _ _ => rfl
    rw [List.countP_cons, hcount, hcount']
    simp only [goto, release, emit, onRequest, Stage.holdsPermit, if_true]
    omega
  · -- a request that has no entry is not touched
    intro id hid
    rw [hreq, Function.update_of_ne]
    rintro rfl
    exact hid (hkeys ▸ List.mem_cons_self)
  · -- the held request is released, every other one is moved by the panic
    rintro (_ | x) hx
    · refine ⟨.quiet, trivial, ?_⟩
      change LocalStep _ _ _ _ ⟨((s.release r.id).goto k.unwind).requests r.id, none⟩
      rw [hreq, Function.update_self]
      exact .releaseUnwinding
    · have hxl : x ∈ l := by simpa using hx
      refine ⟨.panic, .inl (by rw [hc]; rfl), ?_⟩
      change LocalStep _ _ _ _
        ⟨((s.release r.id).goto k.unwind).requests x.1.id, some (.exiting true x.1)⟩
      rw [hreq, Function.update_of_ne (hnotmem x hxl)]
      exact .panic (hworking x hxl)

/-- Each step of `retire_active`: the cancellation in the backend, the mark, the drop of the session,
which may panic, the permit, the mark of the retirement and the return. -/
theorem sim_retireActive {choice : Choice} {step : RetireActiveStep} {r : ActiveRequest}
    {k : ActiveReturn} {panics : Bool} (hs : Coherent s)
    (hc : s.worker.control = .retireActive step r k) :
    Sim s (.worker choice) (s.retireActive step r k panics) := by
  have hheld : s.worker.control.held = [(r.id, .retiringActive step r)] := by
    rw [hc]; rfl
  have hactive : ∀ step', activeStages (.retireActive step' r k) s.worker.active =
      activeStages s.worker.control s.worker.active := by
    intro step'
    rw [hc, ActiveReturn.active_eq, ActiveReturn.active_eq]
  have hwindow := fun step' => (k.window_ok step' r s.worker.pending s.worker.active).1
  have hsession : ∀ event, s.emitSession r event = { s with
      requests := Function.update s.requests r.id ((s.requests r.id).emitSession r event) } := by
    intro event
    unfold Sys.emitSession Request.emitSession
    split
    · rfl
    · rw [Function.update_eq_self]
  -- one case for each step of `retire_active`, in its order
  unfold Sys.retireActive
  cases step with
  | cancelBackend mark =>
    simp only [hsession]
    refine sim_held r.id _ (some (.retiringActive (mark.elim .dropSession .mark) r)) _ _ hs
      (WorkerOnly.of_worker _ _ _ _) hheld rfl (hactive _) (by cases mark <;> rfl) le_rfl rfl
      ⟨.quiet, trivial, ?_⟩ (hwindow _) (.inl rfl)
    rcases mark with _ | _ | cause
    · exact .cancelBackend
    · exact .cancelBackendCancelled
    · exact .cancelBackendFailed
  | mark mark =>
    obtain ⟨n, hn⟩ := s.applyMark_eq r.id mark
    simp only [hn]
    refine sim_held r.id _ (some (.retiringActive .dropSession r)) _ _ hs
      (WorkerOnly.wakes n _ _ _ _) hheld rfl (hactive _) rfl le_rfl rfl ?_ (hwindow _) (.inl rfl)
    cases mark with
    | cancelled => exact ⟨.quiet, trivial, .cancelledActive⟩
    | failed cause => exact ⟨.fail, ⟨rfl, by rw [hc]; rfl⟩, .failedActive⟩
  | dropSession =>
    simp only [hsession]
    exact sim_held r.id _ (some (.retiringActive (.release (panics && r.session.isSome)) r)) _ _ hs
      (WorkerOnly.of_worker _ _ _ _) hheld rfl (hactive _) rfl le_rfl rfl
      ⟨.quiet, trivial, .dropSession _⟩ (hwindow _) (.inl rfl)
  | release unwinding =>
    -- the permit is dropped in the normal way, or by unwinding
    cases unwinding with
    | true => exact sim_unwind hs hc
    | false =>
      have hused := hs.used_pos (held_mem hheld) rfl
      refine sim_held r.id _ (some (.retiringActive .markRetired r))
        ((s.requests r.id).emit .released) _ hs (WorkerOnly.of_worker _ _ _ _)
        hheld rfl (hactive _) ?_ ?_ rfl ⟨.quiet, trivial, .releaseActive⟩ (hwindow _) (.inl rfl)
      · change s.used - 1 + 1 = s.used + 0
        omega
      · exact Nat.sub_le _ _
  | markRetired =>
    obtain ⟨n, hn⟩ := s.onShared_eq r.id .markRetired
    simp only [hn]
    refine sim_held r.id _ none _ _ hs (WorkerOnly.wakes n _ _ _ _) hheld
      (by cases k <;> rfl) ?_ rfl le_rfl rfl ⟨.quiet, trivial, .retireActive⟩
      (k.window_ok .markRetired r _ _).2 (.inl (by cases k <;> rfl))
    rw [hc, ActiveReturn.active_eq]
    rfl

/-! ## The end of `worker_loop` -/

/-- The cleanup takes the next request out of `active`, or goes on with the pending ones. -/
theorem sim_exitActive {panicked : Bool} (hs : Coherent s)
    (hc : s.worker.control = .exitActive panicked) : Sim s a (s.exitActive panicked) := by
  have hheld : s.worker.control.held = [] := by rw [hc]; rfl
  unfold Sys.exitActive
  cases hactive : s.worker.active with
  | nil =>
    refine sim_goto hs hheld.symm ?_ rfl (.empty rfl fun _ => hactive)
    rw [hactive, hc]
    rfl
  | cons r active =>
    have hbefore : activeStages s.worker.control s.worker.active =
        (r.id, .exiting panicked r) :: tagged (.exiting panicked) active := by
      rw [hc, hactive]
      rfl
    refine sim_worker r.id (.exiting panicked r)
      (some (.retiringActive (.cancelBackend (some (exitMark panicked))) r)) (s.requests r.id) [] _
      [_] (tagged (.exiting panicked) active) hs (WorkerOnly.of_worker _ _ _ _) hheld hbefore rfl rfl
      List.mem_cons_self ?_ rfl le_rfl (Function.update_eq_self _ _).symm
      ⟨.quiet, trivial, ?_⟩ (.idle rfl rfl) (.inl rfl)
    · -- the first entry of the list becomes the one that is held
      refine perm_of_count fun x => ?_
      simp only [Option.toList, List.map_cons, List.map_nil, List.count_cons, List.count_append,
        List.count_nil]
      omega
    · cases panicked with
      | true => exact .exitActivePanicked
      | false => exact .exitActive

/-- A start command that the exiting worker finds. -/
theorem exitPending_change {panicked : Bool} {id : Nat} {p : PendingStart}
    (h : panicked = true → s.worker.control.panicked = true) :
    LocalChange s a s id ⟨s.requests id, some (.waiting p)⟩
      ⟨s.requests id, some (.retiringPending (.mark (exitMark panicked)) p)⟩ := by
  cases panicked with
  | true => exact ⟨.panic, .inl (h rfl), .exitPendingPanicked⟩
  | false => exact ⟨.quiet, trivial, .exitPending⟩

/-- The cleanup takes a pending start, or goes on with the channel. -/
theorem sim_exitPending {panicked : Bool} (hs : Coherent s)
    (hc : s.worker.control = .exitPending panicked) : Sim s a (s.exitPending panicked) := by
  have hheld : s.worker.control.held = [] := by rw [hc]; rfl
  have hactive : s.worker.active = [] := hs.window.emptied (by rw [hc]; rfl)
  unfold Sys.exitPending
  -- by now no request is active, so only the pending list has entries
  cases hpending : s.worker.pending with
  | nil => exact sim_goto hs hheld.symm (by rw [hc]; rfl) rfl (.empty rfl fun _ => hactive)
  | cons p pending =>
    refine Sim.move p.id (.waiting p)
      (some (.retiringPending (.mark (exitMark panicked)) p)) (s.requests p.id) hs
      ⟨rfl, rfl, rfl, le_rfl⟩
      (stages_eq _ [] rfl rfl hpending hheld (by rw [hactive, hc]; rfl))
      (stages_eq [_] [] rfl rfl rfl rfl (by change activeStages _ s.worker.active = _; rw [hactive]; rfl))
      ?_ ?_ rfl le_rfl (Function.update_eq_self _ _).symm
      (exitPending_change fun h => by rw [hc, h]; rfl)
      (.empty rfl fun _ => hactive) (commands_of (fun _ h => h) (.inl rfl))
    · simp [parts, waitingEntry]
    · refine perm_of_count fun x => ?_
      simp only [parts, goto, setPending, waitingEntry, Option.toList, List.map_cons, List.map_nil,
        List.count_cons, List.count_append, List.count_nil]
      omega

/-- A start command leaves the channel from its front. -/
theorem sim_dequeue {p : PendingStart} {rest : List Command} (used : Nat) (control : Control)
    (v' : Option Stage) (r' : Request) (hs : Coherent s)
    (hchannel : s.channel = .start p :: rest) (hheld : s.worker.control.held = [])
    (hactive : s.worker.active = [])
    (hheld' : control.held = v'.toList.map (p.id, ·))
    (hused : used + 1 = s.used + (v'.elim 0 (·.holdsPermit.toNat))) (hle : used ≤ s.used)
    (hstep : LocalChange s a s p.id ⟨s.requests p.id, some (.waiting p)⟩ ⟨r', v'⟩)
    (hwindow : control.window = []) (hcommanded : control.commanded = none) :
    Sim s a { s with
      used := used
      channel := rest
      requests := Function.update s.requests p.id r'
      worker := ⟨control, s.worker.pending, s.worker.active⟩ } := by
  -- with no request active the scan position does not matter
  have hnone : ∀ control, activeStages control s.worker.active = [] := by
    intro control
    rw [hactive]
    unfold activeStages
    split <;> simp [tagged]
  refine Sim.move p.id (.waiting p) v' r' hs ⟨rfl, rfl, rfl, le_rfl⟩
    (stages_eq _ _ rfl (congrArg queuedStarts hchannel) rfl hheld (hnone _))
    (stages_eq _ _ rfl rfl rfl hheld' (hnone _)) ?_ ?_ hused hle rfl hstep
    (.empty hwindow fun _ => hactive) (commands_of (fun id h => ?_) (.inl hcommanded))
  · simp [parts, waitingEntry]
  · refine perm_of_count fun x => ?_
    simp only [parts, queuedStarts_start, waitingEntry, List.map_cons, List.count_cons,
      List.count_append, List.count_nil]
    omega
  · rw [hchannel]
    exact List.mem_cons_of_mem _ h

/-- Another command is thrown away. -/
theorem sim_discard {command : Command} {rest : List Command} (hs : Coherent s)
    (hchannel : s.channel = command :: rest) (hcommand : ∀ p, command ≠ .start p) :
    Sim s a { s with channel := rest } := by
  have hqueue : queuedStarts s.channel = queuedStarts rest := by
    rw [hchannel]
    cases command with
    | start p => exact absurd rfl (hcommand p)
    | cancel id => rfl
    | wake => rfl
    | shutdown => rfl
  refine Sim.frame hs ⟨rfl, rfl, rfl, le_rfl⟩ (stages_eq _ _ rfl hqueue rfl rfl rfl)
    (stages_eq _ _ rfl rfl rfl rfl rfl) (List.Perm.refl _) rfl rfl hs.window
    (commands_of (fun id h => ?_) (.inr rfl))
  rw [hchannel]
  exact List.mem_cons_of_mem _ h

/-- The cleanup takes a command out of the channel: a start is retired like a pending one, anything
else is dropped. -/
theorem sim_exitChannel {panicked : Bool} (hs : Coherent s)
    (hc : s.worker.control = .exitChannel panicked) : Sim s a (s.exitChannel panicked) := by
  have hheld : s.worker.control.held = [] := by rw [hc]; rfl
  have hactive : s.worker.active = [] := hs.window.emptied (by rw [hc]; rfl)
  unfold Sys.exitChannel
  cases hchannel : s.channel with
  | nil => exact sim_goto hs hheld.symm (by rw [hc]; rfl) rfl (.empty rfl fun _ => hactive)
  | cons command rest =>
    -- only a queued start carries a request
    cases command with
    | start p =>
      have h := sim_dequeue (a := a) s.used
        (.retirePending (.mark (exitMark panicked)) p (.exitChannel panicked))
        (some (.retiringPending (.mark (exitMark panicked)) p)) (s.requests p.id) hs hchannel hheld hactive rfl
        rfl le_rfl
        (exitPending_change fun h => by rw [hc, h]; rfl)
        rfl rfl
      rwa [Function.update_eq_self] at h
    | cancel id => exact sim_discard hs hchannel (by simp)
    | wake => exact sim_discard hs hchannel (by simp)
    | shutdown => exact sim_discard hs hchannel (by simp)

/-! ## Unwinding out of `worker_loop` -/

/-- The unwinding drops the next element of `active` with its session. -/
theorem sim_unwindActive {panics : Bool} (hs : Coherent s)
    (hc : s.worker.control = .unwindActive) : Sim s a (s.unwindActive panics) := by
  have hheld : s.worker.control.held = [] := by rw [hc]; rfl
  unfold Sys.unwindActive
  cases hactive : s.worker.active with
  | nil =>
    refine sim_goto hs hheld.symm (by rw [hc]; rfl) rfl (.empty rfl fun _ => hactive)
  | cons r active =>
    have hbefore : activeStages s.worker.control s.worker.active =
        (r.id, .exiting true r) :: tagged (.exiting true) active := by
      rw [hc, hactive]
      rfl
    have hsession : (s.setActive active).emitSession r .sessionDropped = { s with
        requests := Function.update s.requests r.id
          ((s.requests r.id).emitSession r .sessionDropped)
        worker := ⟨s.worker.control, s.worker.pending, active⟩ } := by
      unfold Sys.emitSession Request.emitSession
      split
      · rfl
      · rw [Function.update_eq_self]
        rfl
    -- both branches differ only in where the unwinding goes next
    have hmove : ∀ control : Control, control.held = [(r.id, .unwound r)] →
        activeStages control active = tagged (.exiting true) active → control.commanded = none →
        control.window = [] → control.pastActive = false →
        Sim s a (((s.setActive active).emitSession r .sessionDropped).goto control) := by
      intro control hheld' hactive' hcommanded hwindow hpast
      rw [hsession]
      refine sim_worker r.id (.exiting true r) (some (.unwound r)) _ [] _ [(r.id, .unwound r)]
        (tagged (.exiting true) active) hs (WorkerOnly.of_worker _ _ _ _) hheld hbefore hheld' hactive'
        List.mem_cons_self ?_ rfl le_rfl rfl ⟨.unwind, by rw [Origin, hc]; rfl, .unwindSession⟩
        (.idle hwindow hpast) (.inl hcommanded)
      refine perm_of_count fun x => ?_
      simp only [Option.toList, List.map_cons, List.map_nil, List.count_cons, List.count_append,
        List.count_nil]
      omega
    dsimp only
    split
    · exact hmove _ rfl rfl rfl rfl rfl
    · exact hmove _ rfl rfl rfl rfl rfl

/-- The permit of that element is given back when it is dropped. -/
theorem sim_unwindPermit {r : ActiveRequest} (hs : Coherent s)
    (hc : s.worker.control = .unwindPermit r) : Sim s a ((s.release r.id).goto .unwindActive) := by
  have hheld : s.worker.control.held = [(r.id, .unwound r)] := by rw [hc]; rfl
  have hused := hs.used_pos (held_mem hheld) rfl
  refine sim_held r.id _ none ((s.requests r.id).emit .released) _ hs
    (WorkerOnly.of_worker _ _ _ _) hheld rfl (by rw [hc]; rfl) ?_ (Nat.sub_le _ _) rfl
    ⟨.quiet, trivial, .unwindPermit⟩ (.idle rfl rfl) (.inl rfl)
  change s.used - 1 + 1 = s.used + 0
  omega

/-- The unwinding drops the pending starts, and with each its permit. -/
theorem sim_unwindPending (hs : Coherent s) (hc : s.worker.control = .unwindPending) :
    Sim s a s.unwindPending := by
  have hheld : s.worker.control.held = [] := by rw [hc]; rfl
  have hactive : s.worker.active = [] := hs.window.emptied (by rw [hc]; rfl)
  unfold Sys.unwindPending
  cases hpending : s.worker.pending with
  | nil => exact sim_goto hs hheld.symm (by rw [hc]; rfl) rfl (.empty rfl fun _ => hactive)
  | cons p pending =>
    have hmem : (p.id, Stage.waiting p) ∈ s.stages := by
      rw [stages_eq _ _ rfl rfl hpending rfl rfl]
      simp [parts, waitingEntry]
    -- the dropped entry owns a permit
    have hused := hs.used_pos hmem rfl
    have hnone : activeStages s.worker.control s.worker.active = [] := by
      rw [hactive, hc]
      rfl
    refine Sim.move p.id (.waiting p) none ((s.requests p.id).emit .released) hs
      ⟨rfl, rfl, rfl, le_rfl⟩ (stages_eq _ _ rfl rfl hpending hheld hnone)
      (stages_eq _ _ rfl rfl rfl hheld hnone) ?_ ?_ ?_ (Nat.sub_le _ _) rfl
      ⟨.quiet, trivial, .discard⟩
      (.empty (by change s.worker.control.window = []; rw [hc]; rfl) fun _ => hactive)
      (commands_of (fun _ h => h) (.inr rfl))
    · simp [parts, waitingEntry]
    · refine perm_of_count fun x => ?_
      simp only [parts, setPending, release, emit, onRequest, waitingEntry, Option.toList,
        List.map_cons, List.map_nil, List.count_cons, List.count_append, List.count_nil]
      omega
    · change s.used - 1 + 1 = s.used + 0
      omega

/-- The receiver is dropped: from here on no send succeeds. -/
theorem sim_disconnect (hs : Coherent s) (hc : s.worker.control = .disconnect) :
    Sim s a ({ s with receiverAlive := false }.goto .discard) := by
  refine Sim.frame hs ⟨rfl, rfl, rfl, le_rfl⟩
    (stages_eq [] (tagged (.exiting true) s.worker.active) rfl rfl rfl (by rw [hc]; rfl)
      (by rw [hc]; rfl))
    (stages_eq [] (tagged (.exiting true) s.worker.active) rfl rfl rfl rfl rfl)
    (List.Perm.refl _) rfl rfl (.empty rfl fun _ => ?_) (commands_of (fun _ h => h) (.inl rfl))
  exact hs.window.emptied (by rw [hc]; rfl)

/-- What was still in the channel is dropped with it. -/
theorem sim_discardAll (hs : Coherent s) (hc : s.worker.control = .discard) :
    Sim s a s.discard := by
  have hheld : s.worker.control.held = [] := by rw [hc]; rfl
  have hactive : s.worker.active = [] := hs.window.emptied (by rw [hc]; rfl)
  unfold Sys.discard
  cases hchannel : s.channel with
  | nil => exact sim_goto hs hheld.symm (by rw [hc]; rfl) rfl (.empty rfl fun _ => hactive)
  | cons command rest =>
    cases command with
    | start p =>
      have hmem : (p.id, Stage.waiting p) ∈ s.stages := by
        rw [stages_eq _ _ rfl (congrArg queuedStarts hchannel) rfl rfl rfl]
        simp [parts, waitingEntry]
      -- dropping the channel drops the permit of a queued start
      have hused := hs.used_pos hmem rfl
      refine sim_dequeue (s.used - 1) _ none _ hs hchannel hheld hactive ?_ ?_
        (Nat.sub_le _ _) ⟨.quiet, trivial, .discard⟩ (by rw [hc]; rfl) (by rw [hc]; rfl)
      · exact hheld
      · change s.used - 1 + 1 = s.used + 0
        omega
    | cancel id => exact sim_discard hs hchannel (by simp)
    | wake => exact sim_discard hs hchannel (by simp)
    | shutdown => exact sim_discard hs hchannel (by simp)

end Retirement

end Qwen3Tts.Runtime
