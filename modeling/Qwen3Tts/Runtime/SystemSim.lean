import Qwen3Tts.Runtime.RetireSim

/-!
# Runtime — the simulation theorem

The clients' steps, and `step_sim`: every step of the system from a coherent state leads to a
coherent state and is, for each request, nothing or one `LocalStep`. `Reachable.coherent` and the
two run rules at the end are what the rest of the development uses.
-/

namespace Qwen3Tts.Runtime

open Qwen3Tts.Lib Sys

section Clients

variable {s s' : Sys} {a : Action} {id : Nat}

/-- A request whose handle is owned was handed out by `start`. -/
theorem ne_unused_of_handle (h : (s.requests id).handle = .owned) :
    s.requests id ≠ .unused id := by
  intro heq
  rw [heq] at h
  cases h

/-- So was one that is in the middle of a `cancel`. -/
theorem ne_unused_of_cancel {progress : CancelProgress} (hprogress : progress ≠ .idle)
    (h : (s.requests id).cancel = progress) : s.requests id ≠ .unused id := by
  intro heq
  rw [heq] at h
  exact hprogress h.symm

/-- A wake-up is appended to the channel, or dropped when the receiver is gone or the channel full.
-/
theorem trySend_wake_eq (s : Sys) :
    ∃ k, s.trySend .wake = { s with channel := s.channel ++ List.replicate k .wake } :=
  wake_eq 1 s

/-- A client changes a request; the channel receives wake commands at most. -/
theorem sim_wakes (r' : Request) (k : Nat) (hs : Coherent s) (hid : s.requests id ≠ .unused id)
    (hstep : LocalChange s a s id (s.localOf id) ⟨r', (s.localOf id).stage⟩) :
    Sim s a { s with
      requests := Function.update s.requests id r'
      channel := s.channel ++ List.replicate k .wake } := by
  refine Sim.client id r' hs ⟨rfl, rfl, rfl, le_rfl⟩ rfl ?_ hid rfl hstep hs.window
    (commands_of (fun id h => ?_) (.inr rfl))
  · rw [stages_eq _ _ rfl rfl rfl rfl rfl, stages_eq (s := s) _ _ rfl rfl rfl rfl rfl]
    simp [queuedStarts_wakes]
  · simpa using h

/-- The same without a wake-up. -/
theorem sim_request (r' : Request) (hs : Coherent s) (hid : s.requests id ≠ .unused id)
    (hstep : LocalChange s a s id (s.localOf id) ⟨r', (s.localOf id).stage⟩) :
    Sim s a { s with requests := Function.update s.requests id r' } := by
  have h := sim_wakes r' 0 hs hid hstep
  rwa [List.replicate_zero, List.append_nil] at h

/-- A step that changes nothing. -/
theorem Sim.refl (hs : Coherent s) : Sim s a s :=
  Sim.frame hs ⟨rfl, rfl, rfl, le_rfl⟩ rfl rfl (List.Perm.refl _) rfl rfl hs.window
    (commands_of (fun _ h => h) (.inr rfl))

/-! ## `start` -/

/-- `start` hands out the next id and a permit. The request is not in the channel yet: it is one of
`starting`. -/
theorem sim_start {input : RequestInput} {generation : GenerationConfig} (hs : Coherent s)
    (h : s.start input generation = .ok s') : Sim s a s' := by
  unfold Sys.start at h
  split at h
  · cases h
  · split at h
    · cases h
    · split at h
      · cases h
      · -- neither closed, invalid nor full: a permit is taken and the request enters
        rename_i hfull
        have hused := hs.bounded
        cases h
        refine Sim.insert (.waiting ⟨⟨s.nextRequestId, input, generation⟩, s.now, ⟨⟩⟩)
          (Request.admitted s.nextRequestId s.env generation) hs rfl rfl rfl rfl ?_ rfl rfl ?_ rfl
          ⟨.quiet, trivial, .enter rfl rfl⟩ hs.window (commands_of (fun _ h => h) (.inr rfl))
        · rw [stages_eq _ _ rfl rfl rfl rfl rfl, stages_eq (s := s) _ _ rfl rfl rfl rfl rfl]
          refine perm_of_count fun x => ?_
          simp only [parts, waitingEntry, PendingStart.id, List.map_append, List.map_cons, List.map_nil,
            List.count_cons, List.count_append, List.count_nil]
          omega
        · change s.used + 1 ≤ _
          omega

/-- Taking one request out of `starting` by its id. -/
theorem filter_perm {starting : List PendingStart} {p : PendingStart}
    (hnodup : (starting.map (·.id)).Nodup) (hp : p ∈ starting) :
    starting.Perm (p :: starting.filter (fun q => q.id ≠ p.id)) := by
  obtain ⟨before, after, rfl⟩ := List.append_of_mem hp
  rw [List.map_append, List.map_cons, List.nodup_middle, List.nodup_cons] at hnodup
  -- ids are unique, so the filter removes `p` alone
  have hkeep : ∀ part : List PendingStart, (∀ q ∈ part, q ∈ before ∨ q ∈ after) →
      part.filter (fun q => q.id ≠ p.id) = part := by
    intro part hpart
    refine List.filter_eq_self.mpr fun q hq => ?_
    have hne : q.id ≠ p.id := by
      intro heq
      refine hnodup.1 (heq ▸ ?_)
      rw [← List.map_append]
      exact List.mem_map_of_mem (List.mem_append.mpr (hpart q hq))
    simpa using hne
  rw [List.filter_append, List.filter_cons_of_neg (by simp), hkeep before fun q hq => .inl hq,
    hkeep after fun q hq => .inr hq]
  exact List.perm_middle

/-- The `send` of a start: the request moves to the channel, or, when the worker is gone, gives its
permit back. -/
theorem sim_sendStart (hs : Coherent s) (h : s.sendStart id = some s') : Sim s a s' := by
  unfold Sys.sendStart at h
  cases hfind : s.starting.find? (fun p => p.id = id) with
  | none => simp [hfind] at h
  | some p =>
    have hp : p ∈ s.starting := List.mem_of_find?_eq_some hfind
    have hid : p.id = id := by simpa using List.find?_some hfind
    subst hid
    have hnodup : (s.starting.map (·.id)).Nodup := by
      have hdistinct := hs.distinct
      rw [stages_eq _ _ rfl rfl rfl rfl rfl, parts, keys_append] at hdistinct
      simpa [keys, Function.comp_def, waitingEntry] using hdistinct.of_append_left
    have hperm := (filter_perm hnodup hp).map waitingEntry
    have hmem : (p.id, Stage.waiting p) ∈ s.stages := by
      rw [stages_eq _ _ rfl rfl rfl rfl rfl, parts]
      exact List.mem_append_left _ (List.mem_map.mpr ⟨p, hp, rfl⟩)
    simp only [hfind] at h
    -- The receiver decides where the request goes.
    split at h
    · split at h
      · cases h
        refine Sim.move p.id (.waiting p) (some (.waiting p))
          { s.requests p.id with handle := .owned } hs ⟨rfl, rfl, rfl, le_rfl⟩
          (stages_eq _ _ rfl rfl rfl rfl rfl) (stages_eq _ _ rfl rfl rfl rfl rfl) hmem ?_ rfl le_rfl
          rfl ⟨.quiet, trivial, .send⟩ hs.window (commands_of (fun id h => ?_) (.inr rfl))
        · refine perm_of_count fun x => ?_
          have hcount := hperm.count_eq x
          simp only [List.map_cons, List.count_cons, waitingEntry] at hcount
          simp only [parts, onRequest, queuedStarts_append, queuedStarts_start, queuedStarts_nil,
            waitingEntry, Option.toList, List.map_append, List.map_cons, List.map_nil,
            List.count_cons, List.count_append, List.count_nil]
          omega
        · simpa [onRequest] using h
      · cases h
    · cases h
      have hused := hs.used_pos hmem rfl
      refine Sim.move p.id (.waiting p) none ((s.requests p.id).emit .released) hs
        ⟨rfl, rfl, rfl, le_rfl⟩ (stages_eq _ _ rfl rfl rfl rfl rfl)
        (stages_eq _ _ rfl rfl rfl rfl rfl) hmem ?_ ?_ (Nat.sub_le _ _) rfl
        ⟨.quiet, trivial, .discard⟩ hs.window (commands_of (fun _ h => h) (.inr rfl))
      · refine perm_of_count fun x => ?_
        have hcount := hperm.count_eq x
        simp only [List.map_cons, List.count_cons, waitingEntry] at hcount
        simp only [parts, release, emit, onRequest, Option.toList, List.map_nil, List.count_cons,
          List.count_append, List.count_nil]
        omega
      · change s.used - 1 + 1 = s.used + 0
        omega

/-! ## `poll` -/

/-- The five answers of `poll` are the five steps a poll can be. -/
theorem poll_step {answer : PollAnswer} {shared' : RequestShared}
    (h : (s.requests id).shared.poll s.now = (answer, shared')) :
    LocalChange s a s id (s.localOf id)
      ⟨match answer with
        | .packet packet =>
          { ((s.requests id).onShared fun _ => shared').emit (.polled answer) with
            outstanding := (s.requests id).outstanding ++ [packet] }
        | _ => ((s.requests id).onShared fun _ => shared').emit (.polled answer),
      (s.localOf id).stage⟩ := by
  unfold RequestShared.poll at h
  split at h
  · -- `poll` asks in this order: failure, cancellation, a queued packet, the producer
    rename_i hfailure
    cases h
    exact ⟨.quiet, trivial, .pollFailed hfailure⟩
  · rename_i hfailure
    split at h
    · rename_i hcancel
      cases h
      exact ⟨.quiet, trivial, .pollCancelled hfailure hcancel⟩
    · rename_i hcancel
      rw [not_or, Bool.not_eq_true] at hcancel
      split at h
      · rename_i hpackets
        cases h
        exact ⟨.quiet, trivial, .pollPacket hfailure hcancel.1 hpackets⟩
      · rename_i hpackets
        split at h
        · rename_i hproducer
          cases h
          exact ⟨.quiet, trivial, .pollEnd hfailure hcancel.1 hpackets hproducer⟩
        · rename_i hproducer
          cases h
          rw [Bool.not_eq_true] at hproducer
          exact ⟨.quiet, trivial, .pollBlocked hfailure hcancel.1 hpackets hproducer⟩

/-- `poll` changes its own request only, and may wake the worker. -/
theorem sim_poll (hs : Coherent s) (h : s.poll id = some s') : Sim s a s' := by
  unfold Sys.poll at h
  split at h
  · rename_i howned
    cases hpoll : (s.shared id).poll s.now with
    | mk answer shared' =>
      simp only [hpoll, Option.some.injEq] at h
      have hstep := poll_step (a := a) hpoll
      obtain ⟨k, hk⟩ := s.onShared_emit_eq id (fun _ => shared') (.polled answer)
      rw [hk] at h
      cases answer with
      | packet packet =>
        -- a packet that leaves the queue wakes the worker once more
        obtain ⟨n, hn⟩ := trySend_wake_eq (onRequest { s with
          requests := Function.update s.requests id
            (((s.requests id).onShared fun _ => shared').emit (.polled (.packet packet)))
          channel := s.channel ++ List.replicate k .wake } id
            fun r => { r with outstanding := r.outstanding ++ [packet] })
        simp only [hn] at h
        subst h
        have hsim := sim_wakes _ (k + n) hs (ne_unused_of_handle howned) hstep
        have hchannel : s.channel ++ List.replicate (k + n) .wake =
            (s.channel ++ List.replicate k .wake) ++ List.replicate n Command.wake := by
          rw [List.append_assoc, List.replicate_append_replicate]
        rw [hchannel] at hsim
        simpa [onRequest] using hsim
      | wouldBlock => subst h; exact sim_wakes _ k hs (ne_unused_of_handle howned) hstep
      | endOfStream reason => subst h; exact sim_wakes _ k hs (ne_unused_of_handle howned) hstep
      | cancelled => subst h; exact sim_wakes _ k hs (ne_unused_of_handle howned) hstep
      | failed error => subst h; exact sim_wakes _ k hs (ne_unused_of_handle howned) hstep
  · cases h

/-! ## `cancel`, `drop` -/

/-- The first half of `cancel`: the atomic flag. -/
theorem sim_cancelSwap (hs : Coherent s) (h : s.cancelSwap id = some s') : Sim s a s' := by
  unfold Sys.cancelSwap at h
  split at h
  · rename_i hcond
    cases h
    exact sim_request _ hs (ne_unused_of_handle hcond.1) ⟨.quiet, trivial, .cancelSwap hcond.2⟩
  · cases h

/-- The critical section of `cancel`, the only step with the label `cancelMark`. -/
theorem sim_cancelMark (hs : Coherent s) (h : s.cancelMark id = some s') :
    Sim s (.cancelMark id) s' := by
  unfold Sys.cancelMark at h
  split at h
  · rename_i hswapped
    have hid := ne_unused_of_cancel (by simp) hswapped
    unfold RequestShared.requestCancel at h
    -- a request in a terminal phase ignores the cancellation
    by_cases hphase : (s.requests id).shared.state.phase.isTerminal = true
    · simp only [shared, hphase, if_true, Bool.false_eq_true, if_false] at h
      cases h
      obtain ⟨k, hk⟩ := s.onShared_eq id fun _ => (s.requests id).shared
      rw [hk]
      have hsim := sim_wakes (a := .cancelMark id) { s.requests id with cancel := .done } k hs hid
        ⟨.cancelMark, rfl, .cancelIgnored⟩
      simpa [onRequest, Request.onShared] using hsim
    · simp only [shared, hphase, Bool.false_eq_true, if_false, if_true] at h
      cases h
      obtain ⟨k, hk⟩ := s.onShared_emit_eq id (fun _ =>
        { (s.requests id).shared.clearPackets with state :=
          { (s.requests id).shared.clearPackets.state with
            cancelRequested := true, finishReason := .none } }) .cancelRequested
      rw [hk]
      have hsim := sim_wakes (a := .cancelMark id) (s.requests id).markRequested k hs hid
        ⟨.cancelMark, rfl, .cancelMark (Bool.eq_false_iff.mpr hphase)⟩
      simpa [onRequest, Request.markRequested] using hsim
  · cases h

/-- The command of `cancel` reaches the channel; the flag is set before, which is what
`Coherent.flagged` says of every command. -/
theorem sim_cancelSend (hs : Coherent s) (h : s.cancelSend id = some s') : Sim s a s' := by
  unfold Sys.cancelSend at h
  split at h
  · rename_i hcond
    cases h
    rw [trySend_eq]
    refine Sim.client id { s.requests id with cancel := .done } hs ⟨rfl, rfl, rfl, le_rfl⟩ rfl ?_
      (ne_unused_of_cancel (by simp) hcond.1) rfl ⟨.quiet, trivial, .cancelSend hcond.1⟩ hs.window ?_
    · rw [stages_eq _ _ rfl rfl rfl rfl rfl, stages_eq (s := s) _ _ rfl rfl rfl rfl rfl]
      unfold trySend
      split <;> simp [onRequest]
    · -- the one command that is new is the one whose sender has the flag
      rintro id' (hmem | hcontrol)
      · unfold trySend at hmem
        split at hmem
        · simp only [onRequest, List.mem_append, List.mem_singleton, Command.cancel.injEq] at hmem
          rcases hmem with hmem | rfl
          · exact .inl (.inl hmem)
          · exact .inr hcond.1
        · exact .inl (.inl hmem)
      · exact .inl (.inr hcontrol)
  · cases h

/-- A dropped handle is a fact about the request only. -/
theorem sim_dropHandle (hs : Coherent s) (h : s.dropHandle id = some s') : Sim s a s' := by
  unfold Sys.dropHandle at h
  split at h
  · rename_i hcond
    cases h
    exact sim_request _ hs (ne_unused_of_handle hcond.1) ⟨.quiet, trivial, .dropHandle hcond.2⟩
  · cases h

/-- The ids that the program counter holds are the keys of what it holds. -/
theorem mem_heldIds {control : Control} : id ∈ heldIds control ↔ id ∈ keys control.held := by
  cases control with
  | retirePending step p k =>
    cases k <;> simp [heldIds, heldIdsOfReturn, Control.held, PendingReturn.control,
      Control.starts, keys, waitingEntry, readyEntry, outcomeEntry]
  | _ =>
    simp [heldIds, Control.held, Control.starts, keys, waitingEntry, readyEntry, prefillingEntry,
      outcomeEntry]

/-- A weak reference upgrades exactly while somebody owns the request. -/
theorem canUpgrade_eq : s.canUpgrade id = (s.localOf id).live := by
  have hstage : (assoc s.stages id).isSome ↔ id ∈ keys s.stages := assoc_isSome
  rw [stages_eq _ _ rfl rfl rfl rfl rfl, parts, keys_append, keys_append, keys_append, keys_append,
    keys_activeStages] at hstage
  have hids : ∀ l : List PendingStart, keys (l.map waitingEntry) = l.map (·.id) := by
    intro l
    simp [keys, Function.comp_def, waitingEntry]
  rw [hids, hids, hids] at hstage
  rw [Bool.eq_iff_iff, canUpgrade, Local.live]
  change _ ↔ (decide ((s.requests id).handle = .owned) || (assoc s.stages id).isSome) = true
  rw [stages_eq _ _ rfl rfl rfl rfl rfl, parts]
  simp only [Bool.or_eq_true, hstage, List.contains_iff_mem, List.mem_append, mem_heldIds]
  tauto

/-- A dropped packet puts its buffer back if the request is still there to take it. -/
theorem sim_dropPacket {index : Nat} (hs : Coherent s) (h : s.dropPacket id index = some s') :
    Sim s a s' := by
  unfold Sys.dropPacket at h
  cases hget : (s.requests id).outstanding[index]? with
  | none => simp [hget] at h
  | some packet =>
    simp only [hget, Option.some.injEq, canUpgrade_eq] at h
    have hid : s.requests id ≠ .unused id := by
      intro heq
      rw [heq] at hget
      cases hget
    have hstep : LocalChange s a s id (s.localOf id)
        ⟨(s.requests id).dropPacket (s.localOf id).live index packet.pcm, (s.localOf id).stage⟩ :=
      ⟨.quiet, trivial, .dropPacket hget⟩
    subst h
    unfold Request.dropPacket at hstep
    split
    · -- the buffer goes back to the pool while the request is alive
      rename_i hlive
      obtain ⟨k, hk⟩ := (s.onRequest id fun r => { r with
        outstanding := r.outstanding.eraseIdx index }).onShared_eq id (·.recyclePcm packet.pcm)
      rw [hk]
      simp only [hlive, if_true] at hstep
      have hsim := sim_wakes _ k hs hid hstep
      simpa [onRequest] using hsim
    · rename_i hlive
      simp only [hlive, Bool.false_eq_true, if_false] at hstep
      exact sim_request _ hs hid hstep

end Clients

/-! ## Every step -/

section

variable {s s' : Sys} {a : Action}

/-- The channel is drained without waiting. -/
theorem sim_drain {commandShutdown : Bool} (hs : Coherent s)
    (hc : s.worker.control = .drain commandShutdown) (h : s.drain commandShutdown = some s') :
    Sim s a s' := by
  unfold Sys.drain at h
  split at h
  · cases h
    exact sim_goto hs (by rw [hc]; rfl) (by rw [hc]; rfl) rfl (.idle rfl rfl)
  · exact sim_receive hs (by rw [hc]; rfl) (by rw [hc]; rfl) h

/-- The wait for more starts within the coalescing window. -/
theorem sim_coalesce {commandShutdown : Bool} (hs : Coherent s)
    (hc : s.worker.control = .coalesce commandShutdown)
    (h : s.coalesce commandShutdown = some s') : Sim s a s' := by
  unfold Sys.coalesce at h
  split at h
  · exact sim_receive hs (by rw [hc]; rfl) (by rw [hc]; rfl) h
  · cases h
    exact sim_goto hs (by rw [hc]; rfl) (by rw [hc]; rfl) rfl (.idle rfl rfl)

end

/-- Every step of the worker, by its program counter: one lemma of the modules below for each. -/
theorem workerStep_sim {s s' : Sys} {choice : Choice} (hs : Coherent s)
    (h : s.workerStep choice = some s') : Sim s (.worker choice) s' := by
  unfold Sys.workerStep at h
  split at h
  · -- one case for each line of `workerStep`, in its order; first the head of the loop
    rename_i hc
    cases h
    exact sim_top hs hc
  · rename_i hc
    exact sim_receive hs (by rw [hc]; rfl) (by rw [hc]; rfl) h
  · rename_i hc
    split at h
    · cases h
      exact sim_goto hs (by rw [hc]; rfl) (by rw [hc]; rfl) rfl (.idle rfl rfl)
    · cases h
  · rename_i hc
    exact sim_drain hs hc h
  · rename_i hc
    split at h
    · cases h
      exact sim_goto hs (by rw [hc]; rfl) (by rw [hc]; rfl) rfl (.idle rfl rfl)
    · cases h
  · rename_i hc
    exact sim_coalesce hs hc h
  · rename_i hc
    cases h
    exact sim_goto hs (by rw [hc]; rfl) (by rw [hc]; rfl) rfl (.idle rfl rfl)
  · rename_i hc
    split at h
    · cases h
      exact sim_goto hs (by rw [hc]; rfl) (by rw [hc]; rfl) rfl (.idle rfl rfl)
    · cases h
  · rename_i hc
    cases h
    exact sim_gate hs hc
  · -- a cancel command that was received
    rename_i hc
    cases h
    exact sim_cancelActive hs hc
  · -- `start_pending`
    rename_i hc
    cases h
    exact sim_startCheck hs hc
  · rename_i hc
    cases h
    exact sim_startMark hs hc
  · rename_i hc
    cases h
    exact sim_startBatch hs hc
  · rename_i hc
    cases h
    exact sim_startResults hs hc
  · rename_i hc
    cases h
    exact sim_leftover hs hc
  · rename_i hc
    cases h
    exact sim_startSnapshot hs hc
  · -- `remove_cancelled` and the selection
    rename_i hc
    cases h
    exact sim_removeCancelled hs hc
  · rename_i hc
    cases h
    exact sim_select hs hc
  · rename_i hc
    exact sim_selectPool hs hc h
  · rename_i hc
    exact sim_receive hs (by rw [hc]; rfl) (by rw [hc]; rfl) h
  · rename_i hc
    cases h
    exact sim_goto hs (by rw [hc]; rfl) (by rw [hc]; rfl) rfl (.idle rfl rfl)
  · rename_i hc
    split at h
    · cases h
      exact sim_goto hs (by rw [hc]; rfl) (by rw [hc]; rfl) rfl (.idle rfl rfl)
    · cases h
  · -- `step_eligible` and `remove_finished`
    rename_i hc
    exact sim_takeSessions hs hc h
  · rename_i hc
    cases h
    exact sim_takeFailed hs hc
  · rename_i hc
    cases h
    exact sim_stepBatch hs hc
  · rename_i hc
    exact sim_settle hs hc h
  · rename_i hc
    cases h
    exact sim_substep hs hc
  · rename_i hc
    cases h
    exact sim_removeFinished hs hc
  · -- retiring one request
    rename_i hc
    cases h
    exact sim_retirePending hs hc
  · rename_i hc
    cases h
    exact sim_retireActive hs hc
  · rename_i hc
    cases h
    exact sim_retireActive hs hc
  · -- the final cleanup
    rename_i hc
    cases h
    exact sim_exitActive hs hc
  · rename_i hc
    cases h
    exact sim_exitPending hs hc
  · rename_i hc
    cases h
    exact sim_exitChannel hs hc
  · -- unwinding out of the loop
    rename_i hc
    cases h
    exact sim_unwindActive hs hc
  · rename_i hc
    cases h
    exact sim_unwindActive hs hc
  · rename_i hc
    cases h
    exact sim_unwindPermit hs hc
  · rename_i hc
    cases h
    exact sim_unwindPending hs hc
  · rename_i hc
    cases h
    exact sim_disconnect hs hc
  · rename_i hc
    cases h
    exact sim_discardAll hs hc
  · cases h

/-- **The simulation theorem.** A step of the system keeps the structure of the scheduler and is,
for each request, nothing or one `LocalStep`. -/
theorem step_sim {s s' : Sys} {a : Action} (hs : Coherent s) (h : s.step a = some s') :
    Sim s a s' := by
  cases a with
  | tick microseconds =>
    cases h
    -- only the clock advances
    refine ⟨⟨hs.distinct, hs.fresh, hs.permits, hs.bounded, hs.window, hs.flagged⟩, rfl, ?_, le_rfl,
      le_rfl, fun _ => .inl rfl⟩
    exact Nat.le_add_right _ _
  | start input generation =>
    unfold Sys.step at h
    dsimp only at h
    split at h
    · cases hstart : s.start input generation with
      | ok started =>
        rw [hstart] at h
        cases h
        exact sim_start hs hstart
      | error error =>
        rw [hstart] at h
        cases h
        exact Sim.refl hs
    · cases h
  | sendStart id => exact sim_sendStart hs h
  | dropScheduler =>
    unfold Sys.step at h
    dsimp only at h
    split at h
    · cases h
      exact Sim.frame hs ⟨rfl, rfl, rfl, le_rfl⟩ (stages_eq _ _ rfl rfl rfl rfl rfl)
        (stages_eq _ _ rfl rfl rfl rfl rfl) (List.Perm.refl _) rfl rfl hs.window
        (commands_of (fun _ h => h) (.inr rfl))
    · cases h
  | sendShutdown =>
    unfold Sys.step at h
    dsimp only at h
    split at h
    · cases h
      rw [trySend_eq]
      refine Sim.frame hs ⟨rfl, rfl, rfl, le_rfl⟩ (stages_eq _ _ rfl rfl rfl rfl rfl)
        (stages_eq _ _ rfl ?_ rfl rfl rfl) (List.Perm.refl _) rfl rfl hs.window
        (commands_of (fun id h => ?_) (.inr rfl))
      · unfold trySend
        split <;> simp
      · unfold trySend at h
        split at h
        · simpa using h
        · exact h
    · cases h
  | poll id => exact sim_poll hs h
  | cancelSwap id => exact sim_cancelSwap hs h
  | cancelMark id => exact sim_cancelMark hs h
  | cancelSend id => exact sim_cancelSend hs h
  | dropHandle id => exact sim_dropHandle hs h
  | dropPacket id index => exact sim_dropPacket hs h
  | worker choice => exact workerStep_sim hs h

/-- A scheduler starts without requests. -/
theorem coherent_init (config : EngineConfig) : Coherent (.init config) where
  distinct := List.nodup_nil
  fresh := fun _ _ => ⟨rfl, by simp [stages, init, Worker.stages, Control.held, Control.starts,
    activeStages, Control.scan, tagged]⟩
  permits := rfl
  bounded := Nat.zero_le _
  window := .idle rfl rfl
  flagged := by
    rintro id ((h | h) | h) <;> cases h

end Qwen3Tts.Runtime
