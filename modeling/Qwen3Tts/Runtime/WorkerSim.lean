import Qwen3Tts.Runtime.Simulation

/-!
# Runtime — the worker's steps simulate the steps of each request

One lemma for each function of `System`: run in a coherent state it changes every request by at
most one `LocalStep`.
-/

namespace Qwen3Tts.Runtime

open Qwen3Tts.Lib Sys

/-! ## Bookkeeping -/

/-- A program point that refers to no request by its id, with `active` empty where it has to be. -/
theorem Worker.WindowOk.empty {w : Worker} (hwindow : w.control.window = [])
    (hpast : w.control.pastActive = true → w.active = []) : w.WindowOk where
  nodup := by rw [hwindow]; exact List.nodup_nil
  subset := by rw [hwindow]; exact List.nil_subset _
  behind := fun _ _ => by rw [hwindow]; exact List.nil_subset _
  emptied := hpast

/-- A program point of the loop that refers to no request by its id. -/
theorem Worker.WindowOk.idle {w : Worker} (hwindow : w.control.window = [])
    (hpast : w.control.pastActive = false) : w.WindowOk :=
  .empty hwindow fun h => by rw [hpast] at h; cases h

section Worker

variable {s s' : Sys} {a : Action}

/-- A cancel command that is on its way was on its way before, unless it has just been sent. -/
theorem commands_of (hchannel : ∀ id, .cancel id ∈ s'.channel → .cancel id ∈ s.channel)
    (hcontrol : s'.worker.control.commanded = none ∨
      s'.worker.control.commanded = s.worker.control.commanded)
    (id : Nat) (h : s'.Commanded id) : s.Commanded id ∨ (s.requests id).cancel = .sending := by
  rcases h with h | h
  · exact .inl (.inl (hchannel id h))
  · rcases hcontrol with hcontrol | hcontrol
    · rw [hcontrol] at h
      cases h
    · exact .inl (.inr (hcontrol ▸ h))

/-- The worker moves to a program point at which nothing has moved. -/
theorem sim_goto {control : Control} (hs : Coherent s)
    (hheld : control.held = s.worker.control.held)
    (hactive : activeStages control s.worker.active
      = activeStages s.worker.control s.worker.active)
    (hcommanded : control.commanded = none)
    (hwindow : Worker.WindowOk ⟨control, s.worker.pending, s.worker.active⟩) :
    Sim s a (s.goto control) := by
  exact Sim.frame hs ⟨rfl, rfl, rfl, le_rfl⟩ (stages_eq _ _ rfl rfl rfl rfl rfl)
    (stages_eq _ _ rfl rfl rfl hheld hactive) (List.Perm.refl _) rfl rfl hwindow
    (commands_of (fun _ h => h) (.inl hcommanded))

/-- All of `active` takes on another tag at once. -/
theorem sim_retag {control : Control} {f g : ActiveRequest → Stage} (hs : Coherent s)
    (hheld : control.held = s.worker.control.held)
    (hbefore : activeStages s.worker.control s.worker.active = tagged f s.worker.active)
    (hafter : activeStages control s.worker.active = tagged g s.worker.active)
    (hf : ∀ r, (f r).holdsPermit) (hg : ∀ r, (g r).holdsPermit)
    (hstep : ∀ r ∈ s.worker.active, LocalChange s a (s.goto control) r.id
      ⟨s.requests r.id, some (f r)⟩ ⟨s.requests r.id, some (g r)⟩)
    (hcommanded : control.commanded = none)
    (hwindow : Worker.WindowOk ⟨control, s.worker.pending, s.worker.active⟩) :
    Sim s a (s.goto control) := by
  refine Sim.update s.worker.active (·.id) f (fun r => some (g r))
    (s.starting.map waitingEntry ++ ((queuedStarts s.channel).map waitingEntry
      ++ (s.worker.pending.map waitingEntry ++ control.held)))
    hs ⟨rfl, rfl, rfl, le_rfl⟩ (stages_eq _ _ rfl rfl rfl hheld.symm hbefore)
    (stages_eq control.held _ rfl rfl rfl rfl hafter) ?_ ?_ ?_ le_rfl (fun _ _ => rfl)
    hstep hwindow (commands_of (fun _ h => h) (.inl hcommanded))
  · -- the entries of the active list are the only ones that change
    refine perm_of_count fun x => ?_
    simp only [parts, tagged, List.count_append]
    omega
  · refine perm_of_count fun x => ?_
    simp only [parts, tagged, List.count_append, entries_some, goto]
    omega
  · simp [Sys.goto, hf, hg, List.countP_map, Function.comp_def]

/-- A step that only uses the worker's control and `active`, a request and the pool. -/
structure WorkerOnly (s s' : Sys) : Prop where
  still : Still s s'
  starting : s'.starting = s.starting
  queued : queuedStarts s'.channel = queuedStarts s.channel
  cancels : ∀ id, Command.cancel id ∈ s'.channel → .cancel id ∈ s.channel
  pending : s'.worker.pending = s.worker.pending

/-- Such a step may wake the worker. -/
theorem WorkerOnly.wakes (k used : Nat) (requests : Nat → Request) (control : Control)
    (active : List ActiveRequest) :
    WorkerOnly s { s with
      used := used, requests := requests, channel := s.channel ++ List.replicate k .wake
      worker := ⟨control, s.worker.pending, active⟩ } where
  still := ⟨rfl, rfl, rfl, le_rfl⟩
  starting := rfl
  queued := by simp [queuedStarts_wakes]
  cancels := by simp
  pending := rfl

/-- Or leave the channel alone. -/
theorem WorkerOnly.of_worker (used : Nat) (requests : Nat → Request) (control : Control)
    (active : List ActiveRequest) :
    WorkerOnly s { s with
      used := used, requests := requests
      worker := ⟨control, s.worker.pending, active⟩ } :=
  ⟨⟨rfl, rfl, rfl, le_rfl⟩, rfl, rfl, fun _ h => h, rfl⟩

/-- One request moves within the worker. -/
theorem sim_worker (id : Nat) (v : Stage) (v' : Option Stage) (r' : Request)
    (held active held' active' : List (Nat × Stage)) (hs : Coherent s) (h : WorkerOnly s s')
    (hheld : s.worker.control.held = held)
    (hactive : activeStages s.worker.control s.worker.active = active)
    (hheld' : s'.worker.control.held = held')
    (hactive' : activeStages s'.worker.control s'.worker.active = active')
    (hmem : (id, v) ∈ held ++ active)
    (hperm : ((id, v) :: (held' ++ active')).Perm (v'.toList.map (id, ·) ++ (held ++ active)))
    (hused : s'.used + v.holdsPermit.toNat = s.used + (v'.elim 0 (·.holdsPermit.toNat)))
    (hle : s'.used ≤ s.used) (hreq : s'.requests = Function.update s.requests id r')
    (hstep : LocalChange s a s' id ⟨s.requests id, some v⟩ ⟨r', v'⟩)
    (hwindow : s'.worker.WindowOk)
    (hcommanded : s'.worker.control.commanded = none ∨
      s'.worker.control.commanded = s.worker.control.commanded) :
    Sim s a s' := by
  refine Sim.move id v v' r' hs h.still (stages_eq _ _ rfl rfl rfl hheld hactive)
    (stages_eq _ _ h.starting h.queued h.pending hheld' hactive') ?_ ?_ hused hle hreq hstep hwindow
    (commands_of h.cancels hcommanded)
  · exact List.mem_append_right _ (List.mem_append_right _ (List.mem_append_right _ hmem))
  · -- what lies outside the held entries and the active list stays
    refine perm_of_count fun x => ?_
    have hcount := hperm.count_eq x
    simp only [List.count_cons, List.count_append] at hcount
    simp only [parts, List.count_cons, List.count_append]
    omega

/-- A request in a local of the worker takes its next step there. -/
theorem sim_held (id : Nat) (v : Stage) (v' : Option Stage) (r' : Request)
    (rest : List (Nat × Stage)) (hs : Coherent s) (h : WorkerOnly s s')
    (hheld : s.worker.control.held = (id, v) :: rest)
    (hheld' : s'.worker.control.held = v'.toList.map (id, ·) ++ rest)
    (hactive : activeStages s'.worker.control s'.worker.active
      = activeStages s.worker.control s.worker.active)
    (hused : s'.used + v.holdsPermit.toNat = s.used + (v'.elim 0 (·.holdsPermit.toNat)))
    (hle : s'.used ≤ s.used) (hreq : s'.requests = Function.update s.requests id r')
    (hstep : LocalChange s a s' id ⟨s.requests id, some v⟩ ⟨r', v'⟩)
    (hwindow : s'.worker.WindowOk)
    (hcommanded : s'.worker.control.commanded = none ∨
      s'.worker.control.commanded = s.worker.control.commanded) :
    Sim s a s' := by
  refine sim_worker id v v' r' _ _ _ _ hs h hheld rfl hheld' hactive (by simp) ?_ hused hle hreq
    hstep hwindow hcommanded
  refine perm_of_count fun x => ?_
  simp only [List.count_cons, List.count_append]
  omega

/-- Changing the tag of one element of `active`, and possibly the element itself. -/
theorem tagged_move {active : List ActiveRequest} {r : ActiveRequest}
    (hnodup : (active.map (·.id)).Nodup) (hr : r ∈ active) (f g : ActiveRequest → Stage)
    (modify : ActiveRequest → ActiveRequest) (hid : (modify r).id = r.id)
    (hfg : ∀ b ∈ active, b.id ≠ r.id → g b = f b) :
    ((r.id, f r) :: tagged g (modifyActive r.id modify active)).Perm
      ((r.id, g (modify r)) :: tagged f active) := by
  obtain ⟨before, after, rfl⟩ := List.append_of_mem hr
  -- ids are unique, so no other entry has the id of `r`
  have hother : ∀ b, (b ∈ before ∨ b ∈ after) → b.id ≠ r.id := by
    intro b hb heq
    rw [List.map_append, List.map_cons, List.nodup_middle, List.nodup_cons] at hnodup
    refine hnodup.1 ?_
    rw [← List.map_append, ← heq]
    exact List.mem_map_of_mem (List.mem_append.mpr hb)
  -- every other entry keeps its tag
  have hkeep : ∀ part : List ActiveRequest, (∀ b ∈ part, b ∈ before ∨ b ∈ after) →
      tagged g (modifyActive r.id modify part) = tagged f part := by
    intro part hpart
    unfold tagged modifyActive
    rw [List.map_map]
    refine List.map_congr_left fun b hb => ?_
    have hne := hother b (hpart b hb)
    have hmem : b ∈ before ++ r :: after := by
      rcases hpart b hb with h | h
      · exact List.mem_append_left _ h
      · exact List.mem_append_right _ (List.mem_cons_of_mem _ h)
    simp only [Function.comp_apply, if_neg hne, hfg b hmem hne]
  have hsplit : tagged g (modifyActive r.id modify (before ++ r :: after)) =
      tagged f before ++ (r.id, g (modify r)) :: tagged f after := by
    rw [← hkeep before fun b hb => .inl hb, ← hkeep after fun b hb => .inr hb]
    simp [tagged, modifyActive, hid]
  rw [hsplit]
  refine perm_of_count fun x => ?_
  simp only [tagged, List.map_append, List.map_cons, List.count_cons, List.count_append]
  omega

/-- Whatever the tags are, the ids are those of `active`. -/
theorem keys_activeStages (control : Control) (active : List ActiveRequest) :
    keys (activeStages control active) = active.map (·.id) := by
  unfold activeStages
  split
  · rename_i index _
    rw [keys_append, tagged, tagged, keys, keys, List.map_map, List.map_map]
    change (active.take index).map (·.id) ++ (active.drop index).map (·.id) = _
    rw [← List.map_append, List.take_append_drop]
  · rw [tagged, keys, List.map_map]
    rfl

/-- No request is twice in `active`. -/
theorem Coherent.active_nodup (hs : Coherent s) : (s.worker.active.map (·.id)).Nodup := by
  have hdistinct := hs.distinct
  rw [stages_eq _ _ rfl rfl rfl rfl rfl, parts, keys_append, keys_append, keys_append,
    keys_append, keys_activeStages] at hdistinct
  exact hdistinct.of_append_right.of_append_right.of_append_right.of_append_right

/-- An element of `active` takes its next step where it is. -/
theorem sim_tag {r : ActiveRequest} (f g : ActiveRequest → Stage)
    (modify : ActiveRequest → ActiveRequest) (r' : Request) (hs : Coherent s)
    (h : WorkerOnly s s') (hr : r ∈ s.worker.active) (hid : (modify r).id = r.id)
    (hfg : ∀ b ∈ s.worker.active, b.id ≠ r.id → g b = f b)
    (hheld : s'.worker.control.held = s.worker.control.held)
    (hactive : activeStages s.worker.control s.worker.active = tagged f s.worker.active)
    (hactive' : activeStages s'.worker.control s'.worker.active
      = tagged g (modifyActive r.id modify s.worker.active))
    (hf : (f r).holdsPermit) (hg : (g (modify r)).holdsPermit)
    (hused : s'.used = s.used) (hreq : s'.requests = Function.update s.requests r.id r')
    (hstep : LocalChange s a s' r.id ⟨s.requests r.id, some (f r)⟩ ⟨r', some (g (modify r))⟩)
    (hwindow : s'.worker.WindowOk) (hcommanded : s'.worker.control.commanded = none) :
    Sim s a s' := by
  have hnodup := hs.active_nodup
  refine sim_worker r.id (f r) (some (g (modify r))) r' _ _ _ _ hs h rfl hactive hheld hactive' ?_ ?_
    (by simp [hf, hg, hused]) hused.le hreq hstep hwindow (.inl hcommanded)
  · exact List.mem_append_right _ (List.mem_map.mpr ⟨r, hr, rfl⟩)
  · refine perm_of_count fun x => ?_
    -- the list with `r` retagged is the old one with one entry exchanged
    have hcount := (tagged_move hnodup hr f g modify hid hfg).count_eq x
    simp only [List.count_cons] at hcount
    simp only [Option.toList, List.map_cons, List.map_nil, List.count_cons, List.count_append,
      List.count_nil]
    omega

/-! ## The head of the loop -/

/-- The worker leaves its loop in order. -/
theorem sim_close (hs : Coherent s) (hheld : s.worker.control.held = [])
    (hactive : activeStages s.worker.control s.worker.active = tagged .active s.worker.active) :
    Sim s a (s.goto (.exitActive false)) :=
  sim_retag hs hheld.symm hactive rfl (fun _ => rfl) (fun _ => rfl)
    (fun _ _ => ⟨.quiet, trivial, .close⟩) rfl (.idle rfl rfl)

/-- The head of the loop: shut down, wait for a command or drain the channel. -/
theorem sim_top {commandShutdown : Bool} (hs : Coherent s)
    (hc : s.worker.control = .top commandShutdown) : Sim s a (s.top commandShutdown) := by
  unfold Sys.top
  split
  · exact sim_close hs (by rw [hc]; rfl) (by rw [hc]; rfl)
  · split
    · exact sim_goto hs (by rw [hc]; rfl) (by rw [hc]; rfl) rfl (.idle rfl rfl)
    · exact sim_goto hs (by rw [hc]; rfl) (by rw [hc]; rfl) rfl (.idle rfl rfl)

/-- A pending start that is found by its id is taken out of the list. -/
theorem takePending_spec {id : Nat} {pending rest : List PendingStart} {p : PendingStart}
    (h : takePending id pending = some (p, rest)) : p.id = id ∧ pending.Perm (p :: rest) := by
  unfold takePending at h
  split at h
  · cases h
  · rename_i index hindex
    obtain ⟨q, hq, heq⟩ := Option.map_eq_some_iff.mp h
    cases heq
    obtain ⟨before, after, rfl, rfl⟩ := split_at_getElem? hq
    obtain ⟨after', heq, hperm⟩ := swapRemove_split before p after
    refine ⟨?_, ?_⟩
    · obtain ⟨hlt, hp, -⟩ := List.findIdx?_eq_some_iff_getElem.mp hindex
      simpa using hp
    · rw [heq]
      exact List.perm_middle.trans ((hperm.symm.append_left before).cons p)

/-- Behind a receive the program counter holds no request, -/
theorem Site.next_held (site : Site) (shutdown : Bool) : (site.next shutdown).held = [] := by
  cases site <;> cases shutdown <;> rfl

/-- the requests of `active` are active ones, -/
theorem Site.next_active (site : Site) (shutdown : Bool) (active : List ActiveRequest) :
    activeStages (site.next shutdown) active = tagged .active active := by
  cases site <;> cases shutdown <;> rfl

/-- no command is open, -/
theorem Site.next_commanded (site : Site) (shutdown : Bool) :
    (site.next shutdown).commanded = none := by
  cases site <;> cases shutdown <;> rfl

/-- and no request is referred to by its id. -/
theorem Site.next_window (site : Site) (shutdown : Bool) (pending : List PendingStart)
    (active : List ActiveRequest) :
    Worker.WindowOk ⟨site.next shutdown, pending, active⟩ := by
  cases site <;> cases shutdown <;> exact .idle rfl rfl

/-- Receiving a command moves at most one start command. -/
theorem sim_receive {site : Site} (hs : Coherent s) (hheld : s.worker.control.held = [])
    (hactive : activeStages s.worker.control s.worker.active = tagged .active s.worker.active)
    (h : s.receive site = some s') : Sim s a s' := by
  unfold Sys.receive at h
  cases hchannel : s.channel with
  | nil => simp [hchannel] at h
  | cons command rest =>
    simp only [hchannel] at h
    -- what is left in the channel was in it before
    have hrest : ∀ id, Command.cancel id ∈ rest → .cancel id ∈ s.channel := by
      intro id hid
      rw [hchannel]
      exact List.mem_cons_of_mem _ hid
    have hbefore := stages_eq _ _ rfl (congrArg queuedStarts hchannel) rfl hheld hactive
    cases command with
    | start p =>
      cases h
      refine Sim.frame hs ⟨rfl, rfl, rfl, le_rfl⟩ hbefore
        (stages_eq _ _ rfl rfl rfl (site.next_held _) (site.next_active _ _)) ?_ rfl rfl
        (site.next_window _ _ _) (commands_of hrest (.inl (site.next_commanded _)))
      refine perm_of_count fun x => ?_
      simp only [parts, Sys.goto, Sys.setPending, queuedStarts_start, List.map_append,
        List.map_cons, List.map_nil, List.count_append, List.count_cons, List.count_nil]
      omega
    | wake =>
      cases h
      exact Sim.frame hs ⟨rfl, rfl, rfl, le_rfl⟩ hbefore
        (stages_eq _ _ rfl rfl rfl (site.next_held _) (site.next_active _ _)) (List.Perm.refl _) rfl rfl
        (site.next_window _ _ _) (commands_of hrest (.inl (site.next_commanded _)))
    | shutdown =>
      cases h
      exact Sim.frame hs ⟨rfl, rfl, rfl, le_rfl⟩ hbefore
        (stages_eq _ _ rfl rfl rfl (site.next_held _) (site.next_active _ _)) (List.Perm.refl _) rfl rfl
        (site.next_window _ _ _) (commands_of hrest (.inl (site.next_commanded _)))
    | cancel id =>
      have hcommanded : s.Commanded id := .inl (by rw [hchannel]; exact List.mem_cons_self)
      have hcommands : ∀ id', Command.cancel id' ∈ rest ∨ some id = some id' →
          s.Commanded id' ∨ (s.requests id').cancel = .sending := by
        rintro id' (hid | hid)
        · exact .inl (.inl (hrest id' hid))
        · cases hid
          exact .inl hcommanded
      -- the cancelled request may wait in the pending list
      cases htake : takePending id s.worker.pending with
      | none =>
        simp only [htake] at h
        cases h
        exact Sim.frame hs ⟨rfl, rfl, rfl, le_rfl⟩ hbefore (stages_eq _ _ rfl rfl rfl rfl rfl)
          (List.Perm.refl _) rfl rfl (.idle rfl rfl) hcommands
      | some found =>
        obtain ⟨p, pending⟩ := found
        simp only [htake] at h
        cases h
        obtain ⟨hid, hperm⟩ := takePending_spec htake
        -- it leaves the list and is held by the worker
        have hmem : p ∈ s.worker.pending := hperm.mem_iff.mpr List.mem_cons_self
        refine Sim.move p.id (.waiting p) (some (.retiringPending (.mark .cancelled) p))
          (s.requests p.id) hs ⟨rfl, rfl, rfl, le_rfl⟩ hbefore
          (stages_eq [_] (tagged .active s.worker.active) rfl rfl rfl rfl rfl) ?_ ?_ rfl le_rfl
          (Function.update_eq_self _ _).symm ⟨.quiet, trivial, .cancelPending ?_⟩ (.idle rfl rfl)
          hcommands
        · simp only [parts, List.mem_append, List.mem_map]
          exact .inr (.inr (.inl ⟨p, hmem, rfl⟩))
        · refine perm_of_count fun x => ?_
          have hcount := (hperm.map waitingEntry).count_eq x
          simp only [List.map_cons, List.count_cons, waitingEntry] at hcount
          simp only [parts, goto, setPending, queuedStarts_cancel, Option.toList, List.map_cons,
            List.map_nil, List.count_append, List.count_cons, List.count_nil]
          omega
        · rw [hid]
          exact hs.flagged id (.inl hcommanded)

/-- The identity modifies nothing. -/
theorem modifyActive_id (id : Nat) (active : List ActiveRequest) :
    modifyActive id (fun r => r) active = active := by
  simp [modifyActive]

/-- `handle_command` marks an active request, whose client has set the flag. -/
theorem sim_cancelActive {id : Nat} {site : Site} (hs : Coherent s)
    (hc : s.worker.control = .cancelActive id site) : Sim s a (s.cancelActive id site) := by
  have hactive : activeStages s.worker.control s.worker.active = tagged .active s.worker.active := by
    rw [hc]; rfl
  unfold Sys.cancelActive
  split
  · -- the request is active: it keeps its place and its phase is set
    rename_i hany
    obtain ⟨r, hr, hid⟩ := List.any_eq_true.mp hany
    have hid : r.id = id := by simpa using hid
    obtain ⟨k, hk⟩ := s.onShared_eq id .markCancelled
    rw [hk]
    subst hid
    refine sim_tag .active .active (fun r => r) ((s.requests r.id).applyMark .cancelled) hs
      (WorkerOnly.wakes k _ _ _ _) hr rfl (fun _ _ _ => rfl) ?_ hactive ?_ rfl rfl rfl rfl
      ⟨.quiet, trivial, .cancelActive ?_⟩ (site.next_window _ _ _) (site.next_commanded _)
    · rw [hc]
      exact site.next_held _
    · rw [modifyActive_id]
      exact site.next_active _ _
    · exact hs.flagged r.id (.inl (.inr (by rw [hc]; rfl)))
  · refine sim_goto hs ?_ ?_ (site.next_commanded _) (site.next_window _ _ _)
    · rw [hc]
      exact site.next_held _
    · rw [hactive]
      exact site.next_active _ _

/-- Behind the commands the worker shuts down, starts what is pending, or goes on with what is
active. -/
theorem sim_gate {commandShutdown : Bool} (hs : Coherent s)
    (hc : s.worker.control = .gate commandShutdown) : Sim s a (s.gate commandShutdown) := by
  unfold Sys.gate
  split
  · exact sim_close hs (by rw [hc]; rfl) (by rw [hc]; rfl)
  · split
    · exact sim_goto hs (by rw [hc]; rfl) (by rw [hc]; rfl) rfl (.idle rfl rfl)
    · refine Sim.frame hs ⟨rfl, rfl, rfl, le_rfl⟩
        (stages_eq [] (tagged .active s.worker.active) rfl rfl rfl (by rw [hc]; rfl) (by rw [hc]; rfl))
        (stages_eq (s.worker.pending.map waitingEntry ++ [].map readyEntry)
          (tagged .active s.worker.active) rfl rfl rfl rfl rfl)
        ?_ rfl rfl (.idle rfl rfl) (commands_of (fun _ h => h) (.inl rfl))
      refine perm_of_count fun x => ?_
      simp only [parts, goto, setPending, List.map_nil, List.count_append, List.count_nil]
      omega

/-! ## `start_pending` -/

/-- One turn of the check in front of a prefill: a request that was cancelled while it was pending
is retired, any other one is ready. -/
theorem sim_startCheck {todo ready : List PendingStart} (hs : Coherent s)
    (hc : s.worker.control = .startCheck todo ready) : Sim s a (s.startCheck todo ready) := by
  have hactive : activeStages s.worker.control s.worker.active = tagged .active s.worker.active := by
    rw [hc]; rfl
  unfold Sys.startCheck
  cases todo with
  | nil =>
    cases ready with
    | nil => exact sim_goto hs (by rw [hc]; rfl) hactive.symm rfl (.idle rfl rfl)
    | cons p ready => exact sim_goto hs (by rw [hc]; rfl) hactive.symm rfl (.idle rfl rfl)
  | cons p todo =>
    have hheld : s.worker.control.held =
        (p.id, .waiting p) :: (todo.map waitingEntry ++ ready.map readyEntry) := by
      rw [hc]; rfl
    -- a request cancelled while it waited is retired, any other is ready
    cases hflag : (s.shared p.id).isCancelRequested with
    | true =>
      simp only [hflag, if_true]
      exact sim_held p.id (.waiting p) (some (.retiringPending (.mark .cancelled) p)) _ _ hs
        (WorkerOnly.of_worker _ _ _ _) hheld rfl hactive.symm rfl le_rfl rfl
        ⟨.quiet, trivial, .examineCancelled hflag⟩ (.idle rfl rfl) (.inl rfl)
    | false =>
      simp only [hflag, Bool.false_eq_true, if_false]
      refine sim_worker p.id (.waiting p) (some (.ready p)) _ _ _
        (todo.map waitingEntry ++ (ready ++ [p]).map readyEntry) (tagged .active s.worker.active) hs
        (WorkerOnly.of_worker _ _ _ _) hheld hactive rfl rfl List.mem_cons_self ?_ rfl le_rfl rfl
        ⟨.quiet, trivial, .examineReady hflag⟩ (.idle rfl rfl) (.inl rfl)
      refine perm_of_count fun x => ?_
      simp only [readyEntry, Option.toList, List.map_append, List.map_cons, List.map_nil,
        List.count_append, List.count_cons, List.count_nil]
      omega

/-- A ready request is marked as prefilling. -/
theorem sim_startMark {prefillStarted : Nat} {marked todo : List PendingStart} (hs : Coherent s)
    (hc : s.worker.control = .startMark prefillStarted marked todo) :
    Sim s a (s.startMark prefillStarted marked todo) := by
  have hactive : activeStages s.worker.control s.worker.active = tagged .active s.worker.active := by
    rw [hc]; rfl
  cases todo with
  | nil =>
    refine sim_goto hs ?_ hactive.symm rfl (.idle rfl rfl)
    rw [hc]
    simp [Control.held, Control.starts]
  | cons p todo =>
    unfold Sys.startMark
    obtain ⟨k, hk⟩ := s.onShared_eq p.id
      (·.markPrefilling (durationMicroseconds (prefillStarted - p.enqueuedAt)))
    simp only [hk]
    -- one request moves from the ready ones to the prefilling ones
    refine sim_worker p.id (.ready p) (some (.prefilling p)) _
      (marked.map prefillingEntry ++ (p :: todo).map readyEntry) (tagged .active s.worker.active)
      ((marked ++ [p]).map prefillingEntry ++ todo.map readyEntry) (tagged .active s.worker.active)
      hs (WorkerOnly.wakes k _ _ _ _) (by rw [hc]; rfl) hactive rfl rfl ?_ ?_ rfl le_rfl rfl
      ⟨.quiet, trivial, .prefill _⟩ (.idle rfl rfl) (.inl rfl)
    · simp [readyEntry]
    · refine perm_of_count fun x => ?_
      simp only [readyEntry, prefillingEntry, Option.toList, List.map_append, List.map_cons,
        List.map_nil, List.count_append, List.count_cons, List.count_nil]
      omega

/-- Events change the histories of requests and nothing else. -/
theorem emitAll_eq (events : List (Nat × List Event)) (s : Sys) :
    emitAll events s = { s with requests := (emitAll events s).requests } := by
  induction events generalizing s with
  | nil => rfl
  | cons e events ih =>
    obtain ⟨id, es⟩ := e
    rw [emitAll, ih]
    rfl

/-- An operation on a request leaves the others alone, -/
theorem onRequest_of_ne {id id' : Nat} {f : Request → Request} (h : id ≠ id') :
    (s.onRequest id' f).requests id = s.requests id := Function.update_of_ne h _ _

/-- and is applied to its own one. -/
theorem onRequest_self {id : Nat} {f : Request → Request} :
    (s.onRequest id f).requests id = f (s.requests id) := Function.update_self _ _ _

/-- A request without events keeps its history. -/
theorem emitAll_of_not_mem {events : List (Nat × List Event)} {id : Nat}
    (h : id ∉ keys events) : (emitAll events s).requests id = s.requests id := by
  induction events generalizing s with
  | nil => rfl
  | cons e events ih =>
    obtain ⟨id', es⟩ := e
    rw [keys_cons, List.mem_cons, not_or] at h
    rw [emitAll, ih h.2, onRequest_of_ne h.1]

/-- A request with one entry gets the events of that entry. -/
theorem emitAll_of_mem {events : List (Nat × List Event)} {id : Nat} {es : List Event}
    (hnodup : (keys events).Nodup) (h : (id, es) ∈ events) :
    (emitAll events s).requests id = (s.requests id).emitAll es := by
  induction events generalizing s with
  | nil => cases h
  | cons e events ih =>
    obtain ⟨id', es'⟩ := e
    rw [keys_cons, List.nodup_cons] at hnodup
    rw [emitAll]
    -- the id occurs once: either here or in the rest
    rcases List.mem_cons.mp h with heq | hmem
    · cases heq
      rw [emitAll_of_not_mem hnodup.1, onRequest_self]
      rfl
    · have hne : id ≠ id' := by
        rintro rfl
        exact hnodup.1 (List.mem_map.mpr ⟨(id, es), hmem, rfl⟩)
      rw [ih hnodup.2 hmem, onRequest_of_ne hne]

/-- Whatever `start_batch` does, every request that was passed to it gets one result. -/
theorem startOutcomes_fst (ready : List PendingStart)
    (results : Option (List (Except BackendError BackendStarted))) :
    (startOutcomes ready results).map (·.1) = ready := by
  unfold startOutcomes
  split
  · simp [Function.comp_def]
  · split
    · rename_i hlength
      exact List.map_fst_zip (by simp [hlength])
    · simp [Function.comp_def]

/-- A failure of `start_batch` has a cause that a start can have. -/
theorem startOutcomes_cause {ready : List PendingStart}
    {results : Option (List (Except BackendError BackendStarted))}
    {o : PendingStart × Except FailureCause BackendStarted} (ho : o ∈ startOutcomes ready results)
    {cause : FailureCause} (hcause : o.2 = .error cause) : cause.fromStart = true := by
  unfold startOutcomes at ho
  -- a call that panicked fails all; otherwise the number of answers decides
  split at ho
  · obtain ⟨p, -, rfl⟩ := List.mem_map.mp ho
    cases hcause
    rfl
  · split at ho
    · obtain ⟨result, -, hresult⟩ := List.mem_map.mp (List.of_mem_zip ho).2
      rw [← hresult] at hcause
      cases result with
      | ok => cases hcause
      | error => cases hcause; rfl
    · obtain ⟨p, -, rfl⟩ := List.mem_map.mp ho
      cases hcause
      rfl

/-- The call of `start_batch`: like `step_batch` it changes every request that was passed to it at
once, and each gets one result. -/
theorem sim_startBatch {ready : List PendingStart}
    {results : Option (List (Except BackendError BackendStarted))} (hs : Coherent s)
    (hc : s.worker.control = .startBatch ready) : Sim s a (s.startBatch ready results) := by
  have hactive : activeStages s.worker.control s.worker.active = tagged .active s.worker.active := by
    rw [hc]; rfl
  have hfst := startOutcomes_fst ready results
  have hcause := fun o ho cause => @startOutcomes_cause ready results o ho cause
  unfold Sys.startBatch
  generalize startOutcomes ready results = outcomes at hfst hcause
  -- every ready request has exactly one outcome
  have hids : outcomes.map (fun o => o.1.id) = ready.map (·.id) := by
    rw [← hfst, List.map_map]
    rfl
  -- and no two of them have the same id
  have hnodup : (outcomes.map fun o => o.1.id).Nodup := by
    have hdistinct := hs.distinct
    rw [stages_eq (ready.map prefillingEntry) _ rfl rfl rfl (by rw [hc]; rfl) hactive, parts,
      keys_append, keys_append, keys_append, keys_append] at hdistinct
    have h := hdistinct.of_append_right.of_append_right.of_append_right.of_append_left
    rw [hids]
    simpa [keys, Function.comp_def, prefillingEntry] using h
  have hkeys : keys (outcomes.map fun o => (o.1.id, startEvents o.2)) =
      outcomes.map fun o => o.1.id := by
    simp [keys, Function.comp_def]
  dsimp only
  rw [emitAll_eq]
  -- the whole batch moves from `prefilling` to its outcomes at once
  refine Sim.update outcomes (fun o => o.1.id) (fun o => .prefilling o.1)
    (fun o => some (.outcome o.1 o.2))
    (s.starting.map waitingEntry ++ ((queuedStarts s.channel).map waitingEntry ++
      (s.worker.pending.map waitingEntry ++ tagged .active s.worker.active)))
    hs ⟨rfl, rfl, rfl, le_rfl⟩
    (stages_eq (ready.map prefillingEntry) _ rfl rfl rfl (by rw [hc]; rfl) hactive)
    (stages_eq (outcomes.map outcomeEntry) (tagged .active s.worker.active) rfl rfl rfl rfl rfl)
    ?_ ?_ ?_ le_rfl ?_ ?_ (.idle rfl rfl) (commands_of (fun _ h => h) (.inl rfl))
  · refine perm_of_count fun x => ?_
    rw [← hfst, List.map_map]
    simp only [parts, List.count_append, prefillingEntry, Function.comp_def]
    omega
  · refine perm_of_count fun x => ?_
    simp only [parts, goto, List.count_append, entries_some]
    change _ + (_ + (_ + (List.count x (outcomes.map fun o => (o.1.id, Stage.outcome o.1 o.2)) + _))) = _
    omega
  · simp [goto, List.countP_map, Function.comp_def, Stage.holdsPermit]
  · intro id hid
    exact emitAll_of_not_mem (by rw [hkeys]; exact hid)
  · intro o ho
    refine ⟨.quiet, trivial, ?_⟩
    have hreq := emitAll_of_mem (s := s) (hkeys ▸ hnodup)
      (List.mem_map.mpr ⟨o, ho, rfl⟩ : (o.1.id, startEvents o.2) ∈ _)
    change LocalStep _ _ _ _ ⟨(emitAll _ s).requests o.1.id, _⟩
    rw [hreq]
    exact .startBatch o.2 (hcause o ho)

/-- One turn of the loop over the results of `start_batch`: a started request is marked as
generating, any other one is retired with its error. -/
theorem sim_startResults {leftover : Bool}
    {todo : List (PendingStart × Except FailureCause BackendStarted)} (hs : Coherent s)
    (hc : s.worker.control = .startResults leftover todo) :
    Sim s a (s.startResults leftover todo) := by
  have hactive : activeStages s.worker.control s.worker.active = tagged .active s.worker.active := by
    rw [hc]; rfl
  cases todo with
  | nil => exact sim_goto hs (by rw [hc]; rfl) hactive.symm rfl (.idle rfl rfl)
  | cons o todo =>
    obtain ⟨p, result⟩ := o
    have hheld : s.worker.control.held = (p.id, .outcome p result) :: todo.map outcomeEntry := by
      rw [hc]; rfl
    -- a started request is marked, one that failed is retired
    cases result with
    | ok started =>
      unfold Sys.startResults
      obtain ⟨k, hk⟩ := s.onShared_eq p.id (·.markGenerating started)
      simp only [hk]
      exact sim_held p.id (.outcome p (.ok started)) (some (.snapshot p)) _ _ hs
        (WorkerOnly.wakes k _ _ _ _) hheld rfl hactive.symm rfl le_rfl rfl
        ⟨.quiet, trivial, .startOk⟩ (.idle rfl rfl) (.inl rfl)
    | error cause =>
      exact sim_held p.id (.outcome p (.error cause))
        (some (.retiringPending (.mark (.failed cause)) p)) (s.requests p.id) _ hs
        (WorkerOnly.of_worker _ _ _ _) hheld rfl hactive.symm rfl le_rfl
        (Function.update_eq_self _ _).symm ⟨.quiet, trivial, .startFailed⟩ (.idle rfl rfl) (.inl rfl)

/-- Sessions of a miscounted result list are dropped, and one of them panics. -/
theorem sim_leftover (hs : Coherent s) (hc : s.worker.control = .startResults true []) :
    Sim s (.worker .dropPanics) (s.goto (.exitActive true)) :=
  sim_retag hs (by rw [hc]; rfl) (by rw [hc]; rfl : _ = tagged .active _) rfl (fun _ => rfl)
    (fun _ => rfl) (fun _ _ => ⟨.panic, .inr rfl, .panic rfl⟩) rfl (.idle rfl rfl)

/-- The started request enters `active` with its session. -/
theorem sim_startSnapshot {p : PendingStart} {leftover : Bool}
    {todo : List (PendingStart × Except FailureCause BackendStarted)} (hs : Coherent s)
    (hc : s.worker.control = .startSnapshot p leftover todo) :
    Sim s a (s.startSnapshot p leftover todo) := by
  have hactive : activeStages s.worker.control s.worker.active = tagged .active s.worker.active := by
    rw [hc]; rfl
  let r := startedRequest p (s.requests p.id).state.metrics
  -- the request moves from the held entries to the end of the active list
  refine sim_worker p.id (.snapshot p) (some (.active r)) (s.requests p.id)
    ((p.id, .snapshot p) :: todo.map outcomeEntry) (tagged .active s.worker.active)
    (todo.map outcomeEntry) (tagged .active (s.worker.active ++ [r])) hs
    (WorkerOnly.of_worker _ _ _ _) (by rw [hc]; rfl) hactive rfl rfl List.mem_cons_self ?_ rfl le_rfl
    (Function.update_eq_self _ _).symm ⟨.quiet, trivial, .snapshot⟩ (.idle rfl rfl) (.inl rfl)
  have hid : r.id = p.id := rfl
  refine perm_of_count fun x => ?_
  simp only [tagged, hid, Option.toList, List.map_append, List.map_cons, List.map_nil,
    List.count_append, List.count_cons, List.count_nil]
  omega

end Worker

end Qwen3Tts.Runtime
