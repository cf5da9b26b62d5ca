import Qwen3Tts.Runtime.SystemSim

/-!
# Runtime — invariants of one request

`Inductive allowed I` says that `I` holds of an id that was not handed out and is kept by every
`LocalStep` whose label is allowed. `Inductive.along` carries it to every state of every run whose
steps only have allowed labels; it is the one induction over runs that results about a request
need.

`Lifecycle` is the invariant the others build on: how the flags `cancel_requested`,
`producer_finished` and `failure`, the phase and the queue depend on where the request is.
-/

namespace Qwen3Tts.Runtime

open Qwen3Tts.Lib

/-! ## The rule -/

/-- Time passes and `step_batch` is called. -/
structure Env.Later (env env' : Env) : Prop where
  config : env'.config = env.config
  now : env.now ≤ env'.now
  batches : env.batches ≤ env'.batches

/-- An invariant of one request: it holds of a request that is not in use, and is kept by time and
by each step that is allowed. -/
structure Inductive (allowed : Label → Local → Prop) (I : Env → Local → Prop) : Prop where
  unused : ∀ env id, I env ⟨.unused id, none⟩
  later : ∀ {env env' l}, env.Later env' → I env l → I env' l
  step : ∀ {env calls label l l'}, env.batches ≤ calls → allowed label l →
    LocalStep env calls label l l' → I env l → I { env with batches := calls } l'

def anyLabel : Label → Local → Prop := fun _ _ => True

/-- An invariant for more steps is one for fewer. -/
theorem Inductive.restrict {allowed allowed' : Label → Local → Prop} {I : Env → Local → Prop}
    (h : Inductive allowed I) (hle : ∀ label l, allowed' label l → allowed label l) :
    Inductive allowed' I :=
  ⟨h.unused, h.later, fun hcalls hok => h.step hcalls (hle _ _ hok)⟩

/-- Proving an invariant with the help of another one. -/
theorem Inductive.and {allowed : Label → Local → Prop} {I J : Env → Local → Prop}
    (hJ : Inductive allowed J) (hunused : ∀ env id, I env ⟨.unused id, none⟩)
    (hlater : ∀ {env env' l}, env.Later env' → I env l → I env' l)
    (hstep : ∀ {env calls label l l'}, env.batches ≤ calls → allowed label l →
      LocalStep env calls label l l' → J env l → I env l → I { env with batches := calls } l') :
    Inductive allowed fun env l => J env l ∧ I env l where
  unused := fun env id => ⟨hJ.unused env id, hunused env id⟩
  later := fun hlate h => ⟨hJ.later hlate h.1, hlater hlate h.2⟩
  step := fun hcalls hok h hI => ⟨hJ.step hcalls hok h hI.1, hstep hcalls hok h hI.1 hI.2⟩

/-- One step of the system keeps an inductive invariant of every request. -/
theorem Inductive.sys_step {allowed : Label → Local → Prop} {I : Env → Local → Prop}
    (hI : Inductive allowed I) {s s' : Sys} {a : Action} (hsim : Sim s a s')
    (hok : ∀ id label, Origin s a id label → allowed label (s.localOf id))
    (h : ∀ id, I s.env (s.localOf id)) (id : Nat) : I s'.env (s'.localOf id) := by
  rcases hsim.changes id with heq | ⟨label, horigin, hstep⟩
  · rw [heq]
    have hlater : Env.Later s.env s'.env := ⟨hsim.config, hsim.now, hsim.batches⟩
    exact hI.later hlater (h id)
  · have hlater : Env.Later { s.env with batches := s'.batches } s'.env :=
      ⟨hsim.config, hsim.now, le_rfl⟩
    exact hI.later hlater (hI.step hsim.batches (hok id label horigin) hstep (h id))

/-- **The rule for runs.** `G` is what else has to be known of a state to see that the labels of
its next step are allowed. -/
theorem Inductive.along {allowed : Label → Local → Prop} {I : Env → Local → Prop}
    (hI : Inductive allowed I) (Ok : Sys → Action → Prop) (G : Sys → Prop) {config : EngineConfig}
    (hinit : G (.init config))
    (hkeep : ∀ s a s', G s → Ok s a → s.step a = some s' → G s')
    (hok : ∀ s a, G s → Ok s a → ∀ id label, Origin s a id label → allowed label (s.localOf id))
    {actions : List Action} {s : Sys} (halong : Along Sys.step Ok (.init config) actions)
    (hrun : run Sys.step (.init config) actions = some s) :
    Coherent s ∧ G s ∧ ∀ id, I s.env (s.localOf id) := by
  refine invariant_of_step (I := fun s => Coherent s ∧ G s ∧ ∀ id, I s.env (s.localOf id))
    ?_ ⟨coherent_init config, hinit, fun id => hI.unused _ id⟩ halong hrun
  rintro s a s' ⟨hcoherent, hG, hall⟩ hOk hstep
  have hsim := step_sim hcoherent hstep
  exact ⟨hsim.coherent, hkeep s a s' hG hOk hstep, hI.sys_step hsim (hok s a hG hOk) hall⟩

/-- The rule without conditions on the run. -/
theorem Inductive.reachable {I : Env → Local → Prop} (hI : Inductive anyLabel I)
    {config : EngineConfig} {s : Sys} (h : Reachable config s) (id : Nat) :
    I s.env (s.localOf id) := by
  obtain ⟨-, actions, hrun⟩ := h
  exact (hI.along (fun _ _ => True) (fun _ => True) trivial
    (fun _ _ _ _ _ _ => trivial) (fun _ _ _ _ _ _ _ => trivial)
    (along_trivial (fun _ _ => trivial) _ _) hrun).2.2 id

/-- The structure of the scheduler holds in every reachable state. -/
theorem Reachable.coherent {config : EngineConfig} {s : Sys} (h : Reachable config s) :
    Coherent s := by
  obtain ⟨-, actions, hrun⟩ := h
  refine invariant_of_step (P := fun _ _ => True) (fun s a s' hs _ hstep => ?_)
    (coherent_init config) (along_trivial (fun _ _ => trivial) _ _) hrun
  exact (step_sim hs hstep).coherent

/-- **The rule for two states of a run**: a reflexive and transitive relation that every
`LocalStep` respects relates a request to itself later. -/
theorem Inductive.relates {I : Env → Local → Prop} (hI : Inductive anyLabel I)
    {R : Local → Local → Prop} (hrefl : ∀ l, R l l)
    (htrans : ∀ l m l', R l m → R m l' → R l l')
    (hstep : ∀ env calls label l l', I env l → LocalStep env calls label l l' → R l l')
    {config : EngineConfig} {s s' : Sys} {actions : List Action} (h : Reachable config s)
    (hrun : run Sys.step s actions = some s') (id : Nat) : R (s.localOf id) (s'.localOf id) := by
  refine relation_of_step (I := Reachable config)
    (R := fun s s' => ∀ id, R (s.localOf id) (s'.localOf id)) (fun s id => hrefl _)
    (fun s m s' hsm hms id => htrans _ _ _ (hsm id) (hms id)) (fun s a s' hs hs' => ?_)
    (fun s a s' hs hs' id => ?_) h hrun id
  · obtain ⟨hconfig, actions, hactions⟩ := hs
    refine ⟨hconfig, actions ++ [a], ?_⟩
    rw [run_append, hactions]
    exact run_cons.mpr ⟨s', hs', rfl⟩
  · rcases (step_sim hs.coherent hs').changes id with heq | ⟨label, -, hlocal⟩
    · rw [heq]
      exact hrefl _
    · exact hstep _ _ label _ _ (hI.reachable hs id) hlocal

/-- The configuration is the one the scheduler was created with. -/
theorem Reachable.config_eq {config : EngineConfig} {s : Sys} (h : Reachable config s) :
    s.config = config := by
  obtain ⟨-, actions, hrun⟩ := h
  refine (invariant_of_step (P := fun _ _ => True) (I := fun s => Coherent s ∧ s.config = config)
    (fun s a s' hs _ hstep => ?_) ⟨coherent_init config, rfl⟩
    (along_trivial (fun _ _ => trivial) _ _) hrun).2
  have hsim := step_sim hs.1 hstep
  exact ⟨hsim.coherent, hsim.config.trans hs.2⟩

/-! ## Lifecycle -/

/-- No packet has been asked for yet. -/
@[simp] def isFresh : Option Stage → Bool
  | some (.waiting _) | some (.ready _) | some (.prefilling _) | some (.outcome _ _)
  | some (.snapshot _) | some (.retiringPending (.mark _) _) => true
  | _ => false

/-- The request is not known to be over, apart from its cancel flag. -/
@[simp] def isProducing : Option Stage → Bool
  | some (.active _) | some (.eligible _) | some (.poolEmpty _) | some (.selected _ _)
  | some (.stepped _ _ _) | some (.settling _ _) | some (.exiting false _)
  | some (.retiringActive (.cancelBackend (some .cancelled)) _)
  | some (.retiringActive (.mark .cancelled) _) => true
  | _ => false

/-- The record of a request whose session has not been taken or dropped. -/
@[simp] def sessionOwner : Option Stage → Option ActiveRequest
  | some (.active a) | some (.eligible a) | some (.poolEmpty a) | some (.settling a _)
  | some (.settled a) | some (.exiting _ a) | some (.retiringActive (.cancelBackend _) a)
  | some (.retiringActive (.mark _) a) | some (.retiringActive .dropSession a) => some a
  | _ => none

@[simp] def isEligible : Option Stage → Bool
  | some (.eligible _) => true
  | _ => false

@[simp] def isPoolEmpty : Option Stage → Bool
  | some (.poolEmpty _) => true
  | _ => false

structure Lifecycle (l : Local) : Prop where
  cancelled : l.request.state.phase = .cancelled → l.request.state.cancelRequested = true
  failed : l.request.state.failure.isSome → l.request.state.phase = .failed
  cleared : l.request.state.cancelRequested = true ∨ l.request.state.failure.isSome →
    l.request.state.packets = []
  fresh : isFresh l.stage → l.request.state.failure = none ∧
    l.request.state.producerFinished = false ∧ l.request.state.packets = []
  producing : isProducing l.stage → l.request.state.failure = none ∧
    (l.request.state.producerFinished → l.request.state.cancelRequested)
  session : ∀ a, sessionOwner l.stage = some a → a.session.isSome
  pool : isEligible l.stage → l.request.shared.freePcm ≠ []
  nonempty : isPoolEmpty l.stage = false

section

variable {env : Env} {calls : Nat} {label : Label} {l l' : Local}

theorem Lifecycle.step_cancelled (hl : Lifecycle l) (h : LocalStep env calls label l l') :
    l'.request.state.phase = .cancelled → l'.request.state.cancelRequested = true := by
  have hcancelled := hl.cancelled
  cases h
  case pollPacket | publish => simp_all; split <;> simp_all
  all_goals simp_all

theorem Lifecycle.step_failed (hl : Lifecycle l) (h : LocalStep env calls label l l') :
    l'.request.state.failure.isSome → l'.request.state.phase = .failed := by
  have hfailed := hl.failed
  have hfresh := hl.fresh
  have hproducing := hl.producing
  cases h
  all_goals simp_all

theorem Lifecycle.step_cleared (hl : Lifecycle l) (h : LocalStep env calls label l l') :
    l'.request.state.cancelRequested = true ∨ l'.request.state.failure.isSome →
      l'.request.state.packets = [] := by
  have hcleared := hl.cleared
  cases h
  all_goals simp_all

theorem Lifecycle.step_fresh (hl : Lifecycle l) (h : LocalStep env calls label l l') :
    isFresh l'.stage → l'.request.state.failure = none ∧
      l'.request.state.producerFinished = false ∧ l'.request.state.packets = [] := by
  have hfresh := hl.fresh
  cases h
  all_goals simp_all

theorem Lifecycle.step_producing (hl : Lifecycle l) (h : LocalStep env calls label l l') :
    isProducing l'.stage → l'.request.state.failure = none ∧
      (l'.request.state.producerFinished → l'.request.state.cancelRequested) := by
  have hproducing := hl.producing
  have hfresh := hl.fresh
  have hsession := hl.session
  have hnonempty := hl.nonempty
  cases h
  all_goals simp_all

theorem Lifecycle.step_session (hl : Lifecycle l) (h : LocalStep env calls label l l') :
    ∀ a, sessionOwner l'.stage = some a → a.session.isSome := by
  have hsession := hl.session
  cases h
  all_goals simp_all

theorem Lifecycle.step_pool (hl : Lifecycle l) (h : LocalStep env calls label l l') :
    isEligible l'.stage → l'.request.shared.freePcm ≠ [] := by
  have hpool := hl.pool
  cases h
  case dropPacket =>
    intro heligible
    rw [Request.dropPacket_freePcm]
    split
    · simp
    · exact hpool heligible
  all_goals simp_all

theorem Lifecycle.step_nonempty (hl : Lifecycle l) (h : LocalStep env calls label l l') :
    isPoolEmpty l'.stage = false := by
  have hpool := hl.pool
  have hnonempty := hl.nonempty
  cases h
  all_goals simp_all

/-- **Flags and stages agree** in every reachable state. -/
theorem lifecycle_inductive : Inductive anyLabel fun _ l => Lifecycle l where
  unused := fun _ _ => by constructor <;> simp
  later := fun _ h => h
  step := fun _ _ h hl => {
    cancelled := hl.step_cancelled h
    failed := hl.step_failed h
    cleared := hl.step_cleared h
    fresh := hl.step_fresh h
    producing := hl.step_producing h
    session := hl.step_session h
    pool := hl.step_pool h
    nonempty := hl.step_nonempty h }

end

end Qwen3Tts.Runtime
