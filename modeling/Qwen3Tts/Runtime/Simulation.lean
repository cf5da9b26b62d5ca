import Mathlib.Data.List.Perm.Basic
import Mathlib.Order.Nat
import Qwen3Tts.Runtime.LocalStep

/-!
# Runtime — every step of the system is a step of each request

`Coherent` is the structural invariant of the scheduler: a request is in at most one place, the
slot pool counts exactly the permits that are held, an id that was not handed out owns nothing,
and the locals of a step refer to distinct elements of `active`. `Sim s a s'` says that the
action `a` keeps it and changes each request by at most one `LocalStep`.

This module has the tools: what the elementary operations change, and one rule for each shape
a step can have (`Sim.frame`, `Sim.update`, `Sim.move`, `Sim.client`, `Sim.insert`).
-/

namespace Qwen3Tts.Runtime

open Qwen3Tts.Lib

/-! ## What the elementary operations change -/

namespace Sys

/-- The channel is empty, -/
@[simp] theorem queuedStarts_nil : queuedStarts [] = [] := rfl

/-- is the join of two, -/
@[simp] theorem queuedStarts_append (xs ys : List Command) :
    queuedStarts (xs ++ ys) = queuedStarts xs ++ queuedStarts ys := by
  simp [queuedStarts]

/-- starts with a request, -/
@[simp] theorem queuedStarts_start (p : PendingStart) (xs : List Command) :
    queuedStarts (.start p :: xs) = p :: queuedStarts xs := rfl

/-- or with one of the commands that carry none. -/
@[simp] theorem queuedStarts_cancel (id : Nat) (xs : List Command) :
    queuedStarts (.cancel id :: xs) = queuedStarts xs := rfl

@[simp] theorem queuedStarts_wake (xs : List Command) :
    queuedStarts (.wake :: xs) = queuedStarts xs := rfl

@[simp] theorem queuedStarts_shutdown (xs : List Command) :
    queuedStarts (.shutdown :: xs) = queuedStarts xs := rfl

/-- A send changes nothing but the channel. -/
theorem trySend_eq (s : Sys) (command : Command) :
    s.trySend command = { s with channel := (s.trySend command).channel } := by
  unfold trySend
  split <;> rfl

/-- A `Wake` in the channel owns no request and cancels none. -/
theorem wake_eq (n : Nat) (s : Sys) :
    ∃ k, wake n s = { s with channel := s.channel ++ List.replicate k .wake } := by
  induction n generalizing s with
  | zero => exact ⟨0, by simp [wake]⟩
  | succ n ih =>
    obtain ⟨k, hk⟩ := ih (s.trySend .wake)
    rw [wake, hk]
    unfold trySend
    split
    · exact ⟨k + 1, by simp [List.replicate_succ]⟩
    · exact ⟨k, rfl⟩

/-- A critical section changes its own request and may wake the worker. -/
theorem onShared_eq (s : Sys) (id : Nat) (f : RequestShared → RequestShared) : ∃ k, s.onShared id f = { s with
    requests := Function.update s.requests id ((s.requests id).onShared f)
    channel := s.channel ++ List.replicate k .wake } := by
  obtain ⟨k, hk⟩ := wake_eq
    ((f (s.requests id).shared).freePcm.length - (s.requests id).shared.freePcm.length)
    (s.onRequest id fun r => { r with shared := f r.shared })
  exact ⟨k, by rw [onShared, hk]; rfl⟩

/-- The same with an event in the history. -/
theorem onShared_emit_eq (s : Sys) (id : Nat) (f : RequestShared → RequestShared)
    (event : Event) : ∃ k, (s.onShared id f).emit id event = { s with
      requests := Function.update s.requests id (((s.requests id).onShared f).emit event)
      channel := s.channel ++ List.replicate k .wake } := by
  obtain ⟨k, hk⟩ := s.onShared_eq id f
  exact ⟨k, by rw [hk]; simp [emit, onRequest]⟩

/-- The same of a mark. -/
theorem applyMark_eq (s : Sys) (id : Nat) (mark : Mark) : ∃ k, s.applyMark id mark = { s with
    requests := Function.update s.requests id ((s.requests id).applyMark mark)
    channel := s.channel ++ List.replicate k .wake } := by
  cases mark with
  | cancelled => exact s.onShared_eq id _
  | failed cause =>
    obtain ⟨k, hk⟩ := (s.emit id (.markedFailed cause)).onShared_eq id (·.markFailed cause.error)
    refine ⟨k, ?_⟩
    rw [applyMark, hk]
    simp [emit, onRequest, Request.applyMark]

/-- Wake-ups carry no requests. -/
theorem queuedStarts_wakes (k : Nat) : queuedStarts (List.replicate k .wake) = [] := by
  induction k with
  | zero => rfl
  | succ k ih =>
    rw [List.replicate_succ, queuedStarts_wake]
    exact ih

end Sys

/-! ## The invariant -/

namespace Control

/-- The requests the locals of a step refer to. -/
def window : Control → List Nat
  | .select _ eligible | .selectPool _ eligible => eligible
  | .takeSessions _ todo selected => todo ++ selected.map (·.id)
  | .takeFailed id _ todo selected => id :: (todo ++ selected.map (·.id))
  | .stepBatch _ selected => selected.map (·.id)
  | .settle _ todo => todo.map (·.1.id)
  | .substep id _ _ todo => id :: todo.map (·.1.id)
  | _ => []

/-- The selection has looked at the first `index` elements of `active`. -/
def selecting : Control → Option Nat
  | .select index _ | .selectPool index _ => some index
  | _ => none

end Control

/-- The ids that the program counter refers to are distinct and those of `active`; where the cleanup
is past `active`, there is nothing left in it. -/
structure Worker.WindowOk (w : Worker) : Prop where
  nodup : w.control.window.Nodup
  subset : w.control.window ⊆ w.active.map (·.id)
  behind : ∀ index, w.control.selecting = some index →
    w.control.window ⊆ (w.active.take index).map (·.id)
  emptied : w.control.pastActive → w.active = []

/-- The structural invariant of the scheduler. -/
structure Coherent (s : Sys) : Prop where
  distinct : (keys s.stages).Nodup
  fresh : ∀ id, s.nextRequestId ≤ id → s.requests id = .unused id ∧ id ∉ keys s.stages
  permits : s.used = s.stages.countP (·.2.holdsPermit)
  bounded : s.used ≤ s.config.maxConcurrentRequests
  window : s.worker.WindowOk
  /-- A cancel command follows the flag it announces. -/
  flagged : ∀ id, s.Commanded id ∨ (s.requests id).cancel = .sending →
    (s.requests id).shared.isCancelRequested

/-! ## Where a labelled step comes from -/

/-- The request that the next step fails. -/
def Control.failing : Control → Option Nat
  | .retirePending (.mark (.failed _)) p _ => some p.id
  | .retireActive (.mark (.failed _)) a _ => some a.id
  | .substep id (.fail _) _ _ => some id
  | _ => none

/-- A destructor has panicked. -/
def Control.panicked : Control → Bool
  | .exitActive panicked | .exitPending panicked | .exitChannel panicked => panicked
  | .retirePending _ _ (.exitPending panicked) | .retirePending _ _ (.exitChannel panicked) =>
    panicked
  | .retireActive (.release true) _ _ => true
  | .retireActive _ _ (.exitActive panicked) => panicked
  | .unwindActive | .unwindPermit _ | .unwindPending | .aborted _ => true
  | _ => false

/-- `worker_loop` itself is unwinding. -/
def Control.unwinding : Control → Bool
  | .retireActive (.release true) _ (.exitActive _) => true
  | .unwindActive | .unwindPermit _ | .aborted _ => true
  | _ => false

/-- The worker's own steps. -/
def Action.isWorker : Action → Bool
  | .worker _ => true
  | _ => false

/-- Which step of the system can have the label. The labels mark what some results exclude, so they
say of the system's step what it was. -/
def Origin (s : Sys) (a : Action) (id : Nat) : Label → Prop
  | .quiet => True
  | .finish => a.isWorker = true ∧ ∃ index r, s.worker.control = .removeFinished index ∧
      s.worker.active[index]? = some r ∧ r.id = id
  | .cancelMark => a = .cancelMark id
  | .fail => a.isWorker = true ∧ s.worker.control.failing = some id
  | .panic => s.worker.control.panicked ∨ a = .worker .dropPanics
  | .unwind => s.worker.control.unwinding

/-- A `LocalStep` with a label that the action can have. -/
def LocalChange (s : Sys) (a : Action) (s' : Sys) (id : Nat) (l l' : Local) : Prop :=
  ∃ label, Origin s a id label ∧ LocalStep s.env s'.batches label l l'

/-- The step keeps the invariant, and each request stays as it is or makes one `LocalStep`. -/
structure Sim (s : Sys) (a : Action) (s' : Sys) : Prop where
  coherent : Coherent s'
  config : s'.config = s.config
  now : s.now ≤ s'.now
  batches : s.batches ≤ s'.batches
  next : s.nextRequestId ≤ s'.nextRequestId
  changes : ∀ id, s'.localOf id = s.localOf id ∨
    LocalChange s a s' id (s.localOf id) (s'.localOf id)

/-! ## The cancel flag is never taken back -/

/-- What a step preserves of the flag: it stays set, and a cancel command is only sent
under it. -/
theorem LocalStep.flag {env : Env} {calls : Nat} {label : Label} {l l' : Local}
    (h : LocalStep env calls label l l')
    (hsend : l.request.cancel = .sending → l.request.state.cancelRequested = true) :
    (l.request.state.cancelRequested = true → l'.request.state.cancelRequested = true) ∧
      (l'.request.cancel = .sending → l'.request.state.cancelRequested = true) := by
  cases h
  all_goals
    simp_all

/-! ## The rules

A rule is told what the stages are before and after as the concatenation of their five sources,
so that its last obligation is a permutation of lists that name nothing else of the state. -/

/-- The five sources of stages, one behind the other. -/
def parts (starting queued pending : List PendingStart) (held active : List (Nat × Stage)) :
    List (Nat × Stage) :=
  starting.map waitingEntry ++ (queued.map waitingEntry ++ (pending.map waitingEntry ++
    (held ++ active)))

/-- The stages of a state whose sources are known. -/
theorem stages_eq {s : Sys} {starting queued pending : List PendingStart}
    (held active : List (Nat × Stage)) (hstarting : s.starting = starting)
    (hqueued : Sys.queuedStarts s.channel = queued) (hpending : s.worker.pending = pending)
    (hheld : s.worker.control.held = held)
    (hactive : activeStages s.worker.control s.worker.active = active) :
    s.stages = parts starting queued pending held active := by
  subst hstarting hqueued hpending hheld hactive
  rfl

/-- Two lists are permutations of each other if they have the same counts; so a rearrangement of
several lists is settled by arithmetic. -/
theorem perm_of_count {α : Type*} {l l' : List α}
    (h : ∀ [DecidableEq α] (x : α), l.count x = l'.count x) : l.Perm l' := by
  classical
  exact List.perm_iff_count.mpr fun x => h x

/-- What no step but `start` and the clock changes. -/
structure Still (s s' : Sys) : Prop where
  config : s'.config = s.config
  now : s'.now = s.now
  next : s'.nextRequestId = s.nextRequestId
  batches : s.batches ≤ s'.batches

section Rules

variable {s s' : Sys} {a : Action} {l l' : List (Nat × Stage)}

/-- No step takes a cancel flag back, so a request whose cancel command is on its way keeps it. -/
theorem flagged_of_changes (hs : Coherent s)
    (hcommands : ∀ id, s'.Commanded id → s.Commanded id ∨ (s.requests id).cancel = .sending)
    (hchanges : ∀ id, s'.localOf id = s.localOf id ∨
      LocalChange s a s' id (s.localOf id) (s'.localOf id)) (id : Nat)
    (h : s'.Commanded id ∨ (s'.requests id).cancel = .sending) :
    (s'.requests id).state.cancelRequested = true := by
  have hsend := fun hc => hs.flagged id (.inr hc)
  rcases hchanges id with heq | ⟨label, -, hstep⟩
  · have hreq : s'.requests id = s.requests id := congrArg Local.request heq
    rw [hreq] at h ⊢
    rcases h with hc | hc
    · exact hs.flagged id (hcommands id hc)
    · exact hsend hc
  · obtain ⟨hmono, hsend'⟩ := hstep.flag hsend
    rcases h with hc | hc
    · exact hmono (hs.flagged id (hcommands id hc))
    · exact hsend' hc

/-- Several requests change or leave at once. -/
theorem Sim.update {α : Type} (xs : List α) (key : α → Nat) (f : α → Stage)
    (g : α → Option Stage) (rest : List (Nat × Stage)) (hs : Coherent s) (hstill : Still s s')
    (hl : s.stages = l) (hl' : s'.stages = l')
    (hbefore : l.Perm (xs.map (fun x => (key x, f x)) ++ rest))
    (hafter : l'.Perm (entries key g xs ++ rest))
    (hused : s'.used + (xs.map fun x => (key x, f x)).countP (·.2.holdsPermit)
      = s.used + (entries key g xs).countP (·.2.holdsPermit))
    (hle : s'.used ≤ s.used)
    (hreq : ∀ id, id ∉ xs.map key → s'.requests id = s.requests id)
    (hstep : ∀ x ∈ xs, LocalChange s a s' (key x) ⟨s.requests (key x), some (f x)⟩
      ⟨s'.requests (key x), g x⟩)
    (hwindow : s'.worker.WindowOk)
    (hcommands : ∀ id, s'.Commanded id → s.Commanded id ∨ (s.requests id).cancel = .sending) :
    Sim s a s' := by
  subst hl hl'
  obtain ⟨hdistinct, hin, hout⟩ := assoc_update hs.distinct hbefore hafter
  -- a request with an entry in `xs` makes its step, any other keeps its part
  have hchanges : ∀ id, s'.localOf id = s.localOf id ∨
      LocalChange s a s' id (s.localOf id) (s'.localOf id) := by
    intro id
    by_cases hid : id ∈ xs.map key
    · obtain ⟨x, hx, rfl⟩ := List.mem_map.mp hid
      have h := hstep x hx
      rw [← (hin x hx).1, ← (hin x hx).2] at h
      exact .inr h
    · refine .inl ?_
      rw [Sys.localOf, Sys.localOf, hout id hid, hreq id hid]
  -- an id without an entry before has none afterwards
  have hkeys : ∀ id, id ∉ keys s.stages → id ∉ xs.map key ∧ id ∉ keys s'.stages := by
    intro id hid
    have hnot : id ∉ xs.map key := by
      intro hmem
      obtain ⟨x, hx, rfl⟩ := List.mem_map.mp hmem
      rw [← assoc_eq_none, (hin x hx).1] at hid
      cases hid
    refine ⟨hnot, ?_⟩
    rw [← assoc_eq_none, hout id hnot]
    exact assoc_eq_none.mpr hid
  refine {
    coherent := {
      distinct := hdistinct
      fresh := fun id hid => ?_
      permits := ?_
      bounded := by rw [hstill.config]; exact hle.trans hs.bounded
      window := hwindow
      flagged := flagged_of_changes hs hcommands hchanges }
    config := hstill.config
    now := hstill.now.ge
    batches := hstill.batches
    next := hstill.next.ge
    changes := hchanges }
  · rw [hstill.next] at hid
    obtain ⟨hunused, hnone⟩ := hs.fresh id hid
    obtain ⟨hnot, hnone'⟩ := hkeys id hnone
    exact ⟨(hreq id hnot).trans hunused, hnone'⟩
  · have hpermits := hs.permits
    rw [hbefore.countP_eq, List.countP_append] at hpermits
    rw [hafter.countP_eq, List.countP_append]
    omega

/-- No request changes: the worker moves between program points or the channel shrinks. -/
theorem Sim.frame (hs : Coherent s) (hstill : Still s s') (hl : s.stages = l)
    (hl' : s'.stages = l') (hperm : l'.Perm l) (hused : s'.used = s.used) (hreq : s'.requests = s.requests)
    (hwindow : s'.worker.WindowOk)
    (hcommands : ∀ id, s'.Commanded id → s.Commanded id ∨ (s.requests id).cancel = .sending) :
    Sim s a s' := by
  refine Sim.update [] Empty.elim Empty.elim (fun _ => none) l hs hstill hl hl' (List.Perm.refl _) hperm ?_ hused.le ?_ ?_ hwindow hcommands
  · simpa using hused
  · intro id _
    rw [hreq]
  · intro x hx
    cases hx

/-- One request changes its stage, or leaves. -/
theorem Sim.move (id : Nat) (v : Stage) (v' : Option Stage) (r' : Request) (hs : Coherent s)
    (hstill : Still s s') (hl : s.stages = l) (hl' : s'.stages = l') (hmem : (id, v) ∈ l)
    (hperm : ((id, v) :: l').Perm (v'.toList.map (id, ·) ++ l))
    (hused : s'.used + v.holdsPermit.toNat = s.used + (v'.elim 0 (·.holdsPermit.toNat)))
    (hle : s'.used ≤ s.used)
    (hreq : s'.requests = Function.update s.requests id r')
    (hstep : LocalChange s a s' id ⟨s.requests id, some v⟩ ⟨r', v'⟩)
    (hwindow : s'.worker.WindowOk)
    (hcommands : ∀ id, s'.Commanded id → s.Commanded id ∨ (s.requests id).cancel = .sending) :
    Sim s a s' := by
  obtain ⟨before, after, hsplit⟩ := List.append_of_mem hmem
  have hbefore : l.Perm ((id, v) :: (before ++ after)) := hsplit ▸ List.perm_middle
  have hafter : l'.Perm (v'.toList.map (id, ·) ++ (before ++ after)) := by
    have h := hperm.trans ((hbefore.append_left _).trans List.perm_middle)
    exact (List.perm_cons _).mp h
  have hentries : entries (fun _ : Unit => id) (fun _ => v') [()] = v'.toList.map (id, ·) := by
    cases v' <;> rfl
  refine Sim.update [()] (fun _ => id) (fun _ => v) (fun _ => v') (before ++ after) hs hstill hl hl' hbefore (hentries ▸ hafter) ?_ hle ?_ ?_ hwindow hcommands
  · rw [hentries]
    cases v' with
    | none => cases hv : v.holdsPermit <;> simp_all
    | some w => cases hv : v.holdsPermit <;> cases hw : w.holdsPermit <;> simp_all
  · intro id' hid
    rw [hreq, Function.update_of_ne (by simpa using hid)]
  · intro x _
    rw [hreq, Function.update_self]
    exact hstep

/-- Every request that was handed out has an id below the next one. -/
theorem Coherent.lt_next {id : Nat} (hs : Coherent s) (h : s.requests id ≠ .unused id) :
    id < s.nextRequestId := by
  by_contra hge
  exact h (hs.fresh id (Nat.le_of_not_lt hge)).1

/-- A client changes a request and nothing moves. -/
theorem Sim.client (id : Nat) (r' : Request) (hs : Coherent s) (hstill : Still s s')
    (hused : s'.used = s.used) (hstages : s'.stages = s.stages)
    (hid : s.requests id ≠ .unused id)
    (hreq : s'.requests = Function.update s.requests id r')
    (hstep : LocalChange s a s' id (s.localOf id) ⟨r', (s.localOf id).stage⟩)
    (hwindow : s'.worker.WindowOk)
    (hcommands : ∀ id, s'.Commanded id → s.Commanded id ∨ (s.requests id).cancel = .sending) :
    Sim s a s' := by
  have hchanges : ∀ id, s'.localOf id = s.localOf id ∨
      LocalChange s a s' id (s.localOf id) (s'.localOf id) := by
    intro id'
    rw [Sys.localOf, Sys.localOf, hstages, hreq]
    -- the request of the client changes, every other one stays
    by_cases heq : id' = id
    · subst heq
      rw [Function.update_self]
      exact .inr hstep
    · rw [Function.update_of_ne heq]
      exact .inl rfl
  refine {
    coherent := {
      distinct := by rw [hstages]; exact hs.distinct
      fresh := fun id' hid' => ?_
      permits := by rw [hused, hs.permits, hstages]
      bounded := by rw [hstill.config, hused]; exact hs.bounded
      window := hwindow
      flagged := flagged_of_changes hs hcommands hchanges }
    config := hstill.config
    now := hstill.now.ge
    batches := hstill.batches
    next := hstill.next.ge
    changes := hchanges }
  rw [hstill.next] at hid'
  have hlt := hs.lt_next hid
  obtain ⟨hunused, hnone⟩ := hs.fresh id' hid'
  refine ⟨?_, by rw [hstages]; exact hnone⟩
  rw [hreq, Function.update_of_ne (by omega), hunused]

/-- `start` admits a request under a new id. -/
theorem Sim.insert (v : Stage) (r' : Request) (hs : Coherent s)
    (hconfig : s'.config = s.config) (hnow : s'.now = s.now) (hbatches : s'.batches = s.batches)
    (hnext : s'.nextRequestId = s.nextRequestId + 1)
    (hstages : s'.stages.Perm ((s.nextRequestId, v) :: s.stages))
    (hpermit : v.holdsPermit) (hused : s'.used = s.used + 1)
    (hbounded : s'.used ≤ s.config.maxConcurrentRequests)
    (hreq : s'.requests = Function.update s.requests s.nextRequestId r')
    (hstep : LocalChange s a s' s.nextRequestId ⟨.unused s.nextRequestId, none⟩ ⟨r', some v⟩)
    (hwindow : s'.worker.WindowOk)
    (hcommands : ∀ id, s'.Commanded id → s.Commanded id ∨ (s.requests id).cancel = .sending) :
    Sim s a s' := by
  obtain ⟨hunused, hnone⟩ := hs.fresh s.nextRequestId le_rfl
  obtain ⟨hdistinct, hold, hassoc⟩ := assoc_insert hs.distinct hnone hstages
  have hchanges : ∀ id, s'.localOf id = s.localOf id ∨
      LocalChange s a s' id (s.localOf id) (s'.localOf id) := by
    intro id
    rw [Sys.localOf, Sys.localOf, hassoc, hreq]
    -- the new id had neither a request nor an entry
    by_cases heq : id = s.nextRequestId
    · subst heq
      rw [Function.update_self, Function.update_self, hold, hunused]
      exact .inr hstep
    · rw [Function.update_of_ne heq, Function.update_of_ne heq]
      exact .inl rfl
  refine {
    coherent := {
      distinct := hdistinct
      fresh := fun id hid => ?_
      permits := by rw [hused, hs.permits, hstages.countP_eq]; simp [hpermit]
      bounded := by rw [hconfig]; exact hbounded
      window := hwindow
      flagged := flagged_of_changes hs hcommands hchanges }
    config := hconfig
    now := hnow.ge
    batches := hbatches.ge
    next := by omega
    changes := hchanges }
  rw [hnext] at hid
  obtain ⟨hunused', hnone'⟩ := hs.fresh id (by omega)
  have hne : id ≠ s.nextRequestId := by omega
  refine ⟨by rw [hreq, Function.update_of_ne hne, hunused'], ?_⟩
  rw [← assoc_eq_none, hassoc, Function.update_of_ne hne]
  exact assoc_eq_none.mpr hnone'

end Rules

end Qwen3Tts.Runtime
