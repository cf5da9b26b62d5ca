import Qwen3Tts.Lib.Assoc
import Qwen3Tts.Lib.Machine
import Qwen3Tts.Talker.Lockstep

/-!
# Talker — the cached lockstep graph

The machine of one model: sessions are created, reset, prefilled and destroyed, lockstep frames
are begun and finished, and `BatchWorkspace` keeps the last captured frame under its key. An
action carries what the environment decides: the addresses that the allocators hand out (any
that no live session holds), the outcomes of CUDA calls, the tokens that were sampled.
`created`, `born` and `capturedAt` are ghosts that number the sessions ever created; no branch
reads them.

* `launch_owned` — every operation of a launched graph refers to the session in its row of the
  current call, as long as no call hits the cache with a session younger than the graph;
* `launch_not_owned` — a session created at the address of a destroyed one hits the graph that
  was captured for the destroyed one.
-/

namespace Qwen3Tts.Talker

open Qwen3Tts.Lib

/-! ## The workspace's graph -/

/-- A captured frame: its operations, and as ghosts the numbers of the sessions it was captured
for and how many sessions had been created by then. -/
structure Graph where
  ops : List FrameOp
  owners : List Nat
  capturedAt : Nat
  deriving DecidableEq, Repr

/-- `graph`, `graph_exec`, `graph_key` and `uncaptured_runs` of `BatchWorkspace`. -/
structure GraphCache where
  graphExec : Option Graph
  graphKey : List UInt64
  uncapturedRuns : Nat
  deriving DecidableEq, Repr

/-- `destroy_graph`. -/
def GraphCache.destroyGraph : GraphCache :=
  { graphExec := none, graphKey := [], uncapturedRuns := 0 }

/-- The lookup, capture and launch of a frame whose CUDA calls succeed: the cache behind it, and
the graph that was launched, if one was. -/
def GraphCache.launch (cache : GraphCache) (key : List UInt64) (frame : Graph) :
    GraphCache × Option Graph :=
  let cache := if cache.graphKey ≠ key then { GraphCache.destroyGraph with graphKey := key }
    else cache
  match cache.graphExec with
  | some graph => (cache, some graph)
  | none =>
    -- the first run of a tuple executes uncaptured, the second one is captured and launched
    if cache.uncapturedRuns < 1 then
      ({ cache with uncapturedRuns := cache.uncapturedRuns + 1 }, none)
    else ({ cache with graphExec := some frame }, some frame)

/-! ## The machine -/

/-- Everything the constructor allocates that a lockstep frame can reach. -/
def Handles.allocations (h : Handles) : List Resource :=
  h.resources ++ (h.talkerCache ++ h.predictorCache).flatMap fun cache =>
    [.device cache.key, .device cache.value]

structure ModelState where
  /-- The live session objects by their address. -/
  sessions : List (Address × TalkerContext)
  cache : GraphCache
  created : Nat
  born : Address → Nat

def ModelState.init : ModelState :=
  { sessions := [], cache := GraphCache.destroyGraph, created := 0, born := fun _ => 0 }

/-- Where a CUDA call of the `try` block of `batch_begin_frames` fails: before the frame is
launched (the joins included), or in the rejoin of one row. -/
inductive BatchFault where
  | beforeLaunch
  | rejoin (row : Nat)
  deriving DecidableEq, Repr

inductive ModelCall where
  | create (address : Address) (maxSequenceLength : Nat) (handles : Handles)
  | destroy (address : Address)
  | reset (address : Address)
  | prefill (address : Address) (steps : List (Int × Int)) (sampling : SamplingConfig)
      (outcome : TalkerContext.PrefillOutcome)
  | batchBegin (slots : List Slot) (fault : Option BatchFault)
  | finish (address : Address) (leaseId : UInt64) (outcome : TalkerContext.FinishOutcome)
  deriving DecidableEq, Repr

namespace ModelState

/-- The frame that a call would enqueue now, as a graph. -/
def frame (s : ModelState) (rows : Rows) : Graph :=
  { ops := enqueueFrame (rows.map (·.2.handles))
    owners := rows.map fun row => s.born row.1.session
    capturedAt := s.created }

/-- `batch_begin_frames`, with the graph it launched. The call is defined only on live sessions. -/
def batchBegin (s : ModelState) (slots : List Slot) (fault : Option BatchFault) :
    Option (ModelState × Option Graph) := do
  let rows ← rowsOf s.sessions slots
  match preamble rows with
  | .error _ => return (s, none)
  | .ok () =>
    let leased := onSlots TalkerContext.lease slots s.sessions
    let (cache, launched) := s.cache.launch (graphKey rows) (s.frame rows)
    match fault with
    | none =>
      return ({ s with sessions := onSlots TalkerContext.advance slots leased, cache := cache },
        launched)
    | some .beforeLaunch =>
      return ({ s with
        sessions := onSlots TalkerContext.poison slots leased
        cache := GraphCache.destroyGraph }, none)
    | some (.rejoin row) =>
      let advanced := onSlots TalkerContext.advance (slots.take (row + 1)) leased
      return ({ s with
        sessions := onSlots TalkerContext.poison slots advanced
        cache := GraphCache.destroyGraph }, launched)

/-- The allocators hand out addresses that no live session holds, all of them different. -/
def free (s : ModelState) (address : Address) (handles : Handles) : Bool :=
  (assoc s.sessions address).isNone && decide handles.allocations.Nodup
    && s.sessions.all fun p => handles.allocations.all fun r => !p.2.handles.allocations.contains r

/-- The state behind an action, if the action is possible. -/
def step (s : ModelState) : ModelCall → Option ModelState
  | .create address maxSequenceLength handles =>
    if s.free address handles then
      match TalkerContext.new maxSequenceLength handles with
      | .error _ => some s
      | .ok c => some { s with
          sessions := (address, c) :: s.sessions
          created := s.created + 1
          born := Function.update s.born address (s.created + 1) }
    else none
  | .destroy address =>
    (assoc s.sessions address).map fun _ => { s with sessions := eraseAt address s.sessions }
  | .reset address =>
    (assoc s.sessions address).map fun c =>
      match c.reset with
      | .error _ => s
      | .ok _ => { s with sessions := modifyAt address TalkerContext.cleared s.sessions }
  | .prefill address steps sampling outcome =>
    (assoc s.sessions address).map fun _ =>
      { s with
        sessions := modifyAt address (fun c => (c.prefill steps sampling outcome).2) s.sessions }
  | .batchBegin slots fault => (s.batchBegin slots fault).map Prod.fst
  | .finish address leaseId outcome =>
    (assoc s.sessions address).map fun _ =>
      { s with
        sessions := modifyAt address (fun c => (c.finishFrame leaseId outcome).2) s.sessions }

/-- The graph that a call launches in this state. -/
def launched (s : ModelState) (slots : List Slot) (fault : Option BatchFault) : Option Graph :=
  (s.batchBegin slots fault).bind Prod.snd

end ModelState

/-! ## The property and its condition -/

/-- Every reference of the graph is to something of the session in the same row of the call: the
very session the graph was captured for, and no other live session holds what is referred to. -/
def OwnedByCall (s : ModelState) (slots : List Slot) (graph : Graph) : Prop :=
  ∀ op ∈ graph.ops, ∀ reference ∈ op.references, ∃ slot c,
    slots[reference.1]? = some slot ∧ assoc s.sessions slot.session = some c ∧
      graph.owners[reference.1]? = some (s.born slot.session) ∧
      reference.2 ∈ c.handles.resources ∧
      ∀ address c', assoc s.sessions address = some c' →
        reference.2 ∈ c'.handles.allocations → address = slot.session

/-- If the call finds its key in the cache, it names no session that was created after the cached
graph was captured. -/
def SessionsPredateGraph (s : ModelState) (slots : List Slot) : Prop :=
  ∀ graph ∈ s.cache.graphExec, ∀ rows ∈ rowsOf s.sessions slots, s.cache.graphKey = graphKey rows →
    ∀ slot ∈ slots, s.born slot.session ≤ graph.capturedAt

/-! ## Sessions keep their allocations -/

/-- Every session of `sessions'` was there before, with the same allocations. -/
def Survives (sessions sessions' : List (Address × TalkerContext)) : Prop :=
  ∀ a c', assoc sessions' a = some c' → ∃ c, assoc sessions a = some c ∧ c'.handles = c.handles

theorem Survives.refl (sessions : List (Address × TalkerContext)) : Survives sessions sessions :=
  fun _ c' h => ⟨c', h, rfl⟩

/-- Surviving twice is surviving. -/
theorem Survives.trans {l m n : List (Address × TalkerContext)} (h : Survives l m)
    (h' : Survives m n) : Survives l n := by
  intro a c hc
  obtain ⟨d, hd, hcd⟩ := h' a c hc
  obtain ⟨e, he, hde⟩ := h a d hd
  exact ⟨e, he, hcd.trans hde⟩

/-- Sessions survive a change that keeps their handles. -/
theorem survives_modifyAt {address : Address} {f : TalkerContext → TalkerContext}
    (hf : ∀ c, (f c).handles = c.handles) (sessions : List (Address × TalkerContext)) :
    Survives sessions (modifyAt address f sessions) := by
  intro a c' h
  rw [assoc_modifyAt] at h
  split at h
  · obtain ⟨c, hc, rfl⟩ := Option.map_eq_some_iff.mp h
    exact ⟨c, hc, hf c⟩
  · exact ⟨c', h, rfl⟩

/-- The others survive a destroy. -/
theorem survives_eraseAt (address : Address) (sessions : List (Address × TalkerContext)) :
    Survives sessions (eraseAt address sessions) := by
  intro a c' h
  rw [assoc_eraseAt] at h
  split at h
  · cases h
  · exact ⟨c', h, rfl⟩

/-- Sessions survive a change of several. -/
theorem survives_onSlots {f : TalkerContext → TalkerContext} (hf : ∀ c, (f c).handles = c.handles)
    (slots : List Slot) (sessions : List (Address × TalkerContext)) :
    Survives sessions (onSlots f slots sessions) := by
  induction slots generalizing sessions with
  | nil => exact Survives.refl sessions
  | cons slot slots ih => exact (survives_modifyAt hf sessions).trans (ih _)

/-- What a call does to the sessions: leases, then any number of counters, then poisoning. -/
theorem survives_batch (slots counted poisoned : List Slot)
    (sessions : List (Address × TalkerContext)) :
    Survives sessions
      (onSlots TalkerContext.poison poisoned
        (onSlots TalkerContext.advance counted
          (onSlots TalkerContext.lease slots sessions))) := by
  have hlease := survives_onSlots (f := TalkerContext.lease) (fun _ => rfl) slots sessions
  have hadvance := survives_onSlots (f := TalkerContext.advance) (fun _ => rfl) counted
    (onSlots TalkerContext.lease slots sessions)
  exact (hlease.trans hadvance).trans 
    (survives_onSlots (f := TalkerContext.poison) (fun _ => rfl) poisoned _)

/-! ## The invariant -/

/-- The graph was captured for `rows` and its key names them; those of them that are still alive
are its owners and have the allocations they had then. -/
structure CapturedFor (s : ModelState) (graph : Graph) (rows : Rows) : Prop where
  key : s.cache.graphKey = graphKey rows
  ops : graph.ops = enqueueFrame (rows.map (·.2.handles))
  past : graph.capturedAt ≤ s.created
  owners : ∀ owner ∈ graph.owners, owner ≤ graph.capturedAt
  alive : ∀ (i : Nat) (row : Slot × TalkerContext), rows[i]? = some row →
    ∀ c, assoc s.sessions row.1.session = some c → s.born row.1.session ≤ graph.capturedAt →
      c.handles = row.2.handles ∧ graph.owners[i]? = some (s.born row.1.session)

structure ModelInv (s : ModelState) : Prop where
  disjoint : ∀ a b c d, assoc s.sessions a = some c → assoc s.sessions b = some d →
    ∀ r ∈ c.handles.allocations, r ∈ d.handles.allocations → a = b
  born : ∀ a c, assoc s.sessions a = some c → s.born a ≤ s.created
  graph : ∀ graph, s.cache.graphExec = some graph → ∃ rows, CapturedFor s graph rows

theorem modelInv_init : ModelInv ModelState.init where
  disjoint a b c d hc := by cases hc
  born a c hc := by cases hc
  graph graph hgraph := by cases hgraph

/-- An action that creates no session and leaves the cache alone. -/
theorem ModelInv.of_survives {s : ModelState} (hs : ModelInv s) {sessions : List (Address × TalkerContext)}
    (h : Survives s.sessions sessions) : ModelInv { s with sessions := sessions } where
  disjoint a b c d hc hd := by
    obtain ⟨c₀, hc₀, hc⟩ := h a c hc
    obtain ⟨d₀, hd₀, hd⟩ := h b d hd
    rw [hc, hd]
    exact hs.disjoint a b c₀ d₀ hc₀ hd₀
  born a c hc := by
    obtain ⟨c₀, hc₀, -⟩ := h a c hc
    exact hs.born a c₀ hc₀
  graph graph hgraph := by
    obtain ⟨rows, hrows⟩ := hs.graph graph hgraph
    refine ⟨rows, hrows.key, hrows.ops, hrows.past, hrows.owners, fun i row hrow c hc hborn => ?_⟩
    obtain ⟨c₀, hc₀, heq⟩ := h row.1.session c hc
    rw [heq]
    exact hrows.alive i row hrow c₀ hc₀ hborn

/-- A cache without a graph. -/
theorem ModelInv.of_no_graph {s : ModelState} (hs : ModelInv s) (cache : GraphCache)
    (h : cache.graphExec = none) : ModelInv { s with cache := cache } where
  disjoint := hs.disjoint
  born := hs.born
  graph graph hgraph := by
    rw [h] at hgraph
    cases hgraph

/-! ## One launch -/

/-- A frame captured now is captured for the call's own rows. -/
theorem capturedFor_frame {s : ModelState} (hs : ModelInv s) {slots : List Slot} {rows : Rows}
    (hrows : rowsOf s.sessions slots = some rows) {cache : GraphCache}
    (hkey : cache.graphKey = graphKey rows) :
    CapturedFor { s with cache := cache } (s.frame rows) rows := by
  obtain ⟨-, hlive⟩ := mem_rowsOf hrows
  refine ⟨hkey, rfl, Nat.le_refl s.created, fun owner howner => ?_, fun i row hrow c hc _ => ?_⟩
  · obtain ⟨row, hrow, rfl⟩ := List.mem_map.mp howner
    exact hs.born _ _ (hlive row hrow)
  · have hsame := hlive row (List.mem_of_getElem? hrow)
    rw [hsame] at hc
    cases hc
    refine ⟨rfl, ?_⟩
    show (rows.map _)[i]? = _
    rw [List.getElem?_map, hrow]
    rfl

/-- What a launch can be: a hit, an uncaptured run, or a capture. -/
theorem launch_cases (cache : GraphCache) (key : List UInt64) (frame : Graph) :
    (∃ graph, cache.graphKey = key ∧ cache.graphExec = some graph ∧
      cache.launch key frame = (cache, some graph)) ∨
    (∃ cache', cache'.graphExec = none ∧ cache.launch key frame = (cache', none)) ∨
    ∃ cache', cache.graphExec = none ∧ cache'.graphKey = key ∧ cache'.graphExec = some frame ∧
      cache.launch key frame = (cache', some frame) := by
  unfold GraphCache.launch
  by_cases hkey : cache.graphKey = key
  · cases hexec : cache.graphExec with
    | some graph => exact .inl ⟨graph, hkey, rfl, by simp [hkey, hexec]⟩
    | none =>
      by_cases hruns : cache.uncapturedRuns < 1
      · refine .inr (.inl ⟨{ cache with uncapturedRuns := cache.uncapturedRuns + 1 }, hexec, ?_⟩)
        simp [hkey, hexec, hruns]
      · refine .inr (.inr ⟨{ cache with graphExec := some frame }, rfl, hkey, rfl, ?_⟩)
        simp [hkey, hexec, hruns]
  · -- another tuple: the old graph goes, and the first run of the new tuple is uncaptured
    refine .inr (.inl ⟨{ GraphCache.destroyGraph with graphKey := key, uncapturedRuns := 1 }, rfl, ?_⟩)
    simp [hkey, GraphCache.destroyGraph]

/-- The cache behind a launch is valid again. -/
theorem modelInv_launch {s : ModelState} (hs : ModelInv s) {slots : List Slot} {rows : Rows}
    (hrows : rowsOf s.sessions slots = some rows) :
    ModelInv { s with cache := (s.cache.launch (graphKey rows) (s.frame rows)).1 } := by
  rcases launch_cases s.cache (graphKey rows) (s.frame rows) with
    ⟨graph, -, -, heq⟩ | ⟨cache', hnone, heq⟩ | ⟨cache', -, hkey, hexec, heq⟩
  · rw [heq]
    exact hs
  · rw [heq]
    exact hs.of_no_graph cache' hnone
  · rw [heq]
    refine ⟨hs.disjoint, hs.born, fun graph hgraph => ⟨rows, ?_⟩⟩
    have hframe : s.frame rows = graph := Option.some.inj (hexec.symm.trans hgraph)
    rw [← hframe]
    exact capturedFor_frame hs hrows hkey

/-- What a call leaves behind, and that a graph it launches is the one of the cache lookup. -/
theorem batchBegin_cases {s s' : ModelState} {slots : List Slot} {fault : Option BatchFault}
    {launched : Option Graph} (h : s.batchBegin slots fault = some (s', launched)) :
    ∃ rows, rowsOf s.sessions slots = some rows ∧ ∃ sessions, Survives s.sessions sessions ∧
      (s' = s ∧ launched = none ∨
        (s' = { s with
            sessions := sessions
            cache := (s.cache.launch (graphKey rows) (s.frame rows)).1 } ∨
          s' = { s with sessions := sessions, cache := GraphCache.destroyGraph }) ∧
        (launched = none ∨ launched = (s.cache.launch (graphKey rows) (s.frame rows)).2)) := by
  unfold ModelState.batchBegin at h
  obtain ⟨rows, hrows, h⟩ := Option.bind_eq_some_iff.mp h
  refine ⟨rows, hrows, ?_⟩
  split at h
  · cases h
    exact ⟨s.sessions, Survives.refl _, .inl ⟨rfl, rfl⟩⟩
  · cases fault with
    | none =>
      cases h
      exact ⟨_, survives_batch slots slots [] s.sessions, .inr ⟨.inl rfl, .inr rfl⟩⟩
    | some fault =>
      cases fault with
      | beforeLaunch =>
        cases h
        exact ⟨_, survives_batch slots [] slots s.sessions, .inr ⟨.inr rfl, .inl rfl⟩⟩
      | rejoin row =>
        cases h
        exact ⟨_, survives_batch slots (slots.take (row + 1)) slots s.sessions,
          .inr ⟨.inr rfl, .inr rfl⟩⟩

/-- A launch keeps the invariant. -/
theorem modelInv_batchBegin {s s' : ModelState} (hs : ModelInv s) {slots : List Slot}
    {fault : Option BatchFault} {launched : Option Graph}
    (h : s.batchBegin slots fault = some (s', launched)) : ModelInv s' := by
  obtain ⟨rows, hrows, sessions, hsessions, hout⟩ := batchBegin_cases h
  rcases hout with ⟨rfl, -⟩ | ⟨rfl | rfl, -⟩
  · exact hs
  · exact (modelInv_launch hs hrows).of_survives hsessions
  · exact (hs.of_no_graph GraphCache.destroyGraph rfl).of_survives hsessions

/-! ## Runs -/

/-- A new session keeps it, when nothing uses its handles. -/
theorem modelInv_create {s : ModelState} (hs : ModelInv s) {address : Address} {handles : Handles}
    (hfree : s.free address handles) {c : TalkerContext} (hc : c.handles = handles) :
    ModelInv { s with
      sessions := (address, c) :: s.sessions
      created := s.created + 1
      born := Function.update s.born address (s.created + 1) } := by
  unfold ModelState.free at hfree
  simp only [Bool.and_eq_true, List.all_eq_true, Bool.not_eq_true', List.contains_eq_mem,
    decide_eq_false_iff_not, Option.isNone_iff_eq_none] at hfree
  obtain ⟨⟨hnone, -⟩, hfresh⟩ := hfree
  -- an old session lives at another address and shares nothing with the new one
  have hold : ∀ a d, a ≠ address → assoc ((address, c) :: s.sessions) a = some d →
      assoc s.sessions a = some d := by
    intro a d hne hd
    rwa [assoc, if_neg hne] at hd
  have hnew : ∀ a d, assoc s.sessions a = some d → ∀ r ∈ c.handles.allocations,
      r ∉ d.handles.allocations := by
    intro a d hd r hr
    rw [hc] at hr
    exact hfresh (a, d) (mem_of_assoc hd) r hr
  have hself : ∀ d, assoc ((address, c) :: s.sessions) address = some d → d = c := by
    intro d hd
    rw [assoc, if_pos rfl] at hd
    exact (Option.some.inj hd).symm
  refine ⟨fun a b d e hd he r hrd hre => ?_, fun a d hd => ?_, fun graph hgraph => ?_⟩
  · by_cases ha : a = address <;> by_cases hb : b = address
    · rw [ha, hb]
    · subst ha
      have hdc := hself d hd
      rw [hdc] at hrd
      exact absurd hre (hnew b e (hold b e hb he) r hrd)
    · subst hb
      have hec := hself e he
      rw [hec] at hre
      exact absurd hrd (hnew a d (hold a d ha hd) r hre)
    · exact hs.disjoint a b d e (hold a d ha hd) (hold b e hb he) r hrd hre
  · show Function.update s.born address (s.created + 1) a ≤ s.created + 1
    by_cases ha : a = address
    · simp only [ha, Function.update_self, Nat.le_refl]
    · rw [Function.update_of_ne ha]
      have hle := hs.born a d (hold a d ha hd)
      omega
  · obtain ⟨rows, hrows⟩ := hs.graph graph hgraph
    refine ⟨rows, hrows.key, hrows.ops, Nat.le_succ_of_le hrows.past, hrows.owners,
      fun i row hrow d hd hborn => ?_⟩
    have hpast := hrows.past
    replace hborn : Function.update s.born address (s.created + 1) row.1.session
        ≤ graph.capturedAt := hborn
    show _ ∧ _ = some (Function.update s.born address (s.created + 1) row.1.session)
    by_cases ha : row.1.session = address
    · -- the new session is younger than the graph
      rw [ha, Function.update_self] at hborn
      omega
    · rw [Function.update_of_ne ha] at hborn ⊢
      exact hrows.alive i row hrow d (hold _ d ha hd) hborn

/-- **One action keeps the invariant.** -/
theorem modelInv_step {s s' : ModelState} (hs : ModelInv s) {call : ModelCall}
    (h : s.step call = some s') : ModelInv s' := by
  cases call with
  | create address maxSequenceLength handles =>
    simp only [ModelState.step] at h
    split at h
    · rename_i hfree
      split at h
      · cases h
        exact hs
      · rename_i c hnew
        cases h
        refine modelInv_create hs hfree ?_
        unfold TalkerContext.new at hnew
        split at hnew
        · cases hnew
        · cases hnew
          rfl
    · cases h
  | destroy address =>
    obtain ⟨c, -, rfl⟩ := Option.map_eq_some_iff.mp h
    exact hs.of_survives (survives_eraseAt address s.sessions)
  | reset address =>
    obtain ⟨c, -, rfl⟩ := Option.map_eq_some_iff.mp h
    split
    · exact hs
    · exact hs.of_survives (survives_modifyAt (f := TalkerContext.cleared) (fun _ => rfl) _)
  | prefill address steps sampling outcome =>
    obtain ⟨c, -, rfl⟩ := Option.map_eq_some_iff.mp h
    refine hs.of_survives (survives_modifyAt (fun c => ?_) s.sessions)
    exact (TalkerContext.sameObject_prefill c steps sampling outcome).1
  | batchBegin slots fault =>
    obtain ⟨⟨m, launched⟩, hbatch, rfl⟩ := Option.map_eq_some_iff.mp h
    exact modelInv_batchBegin hs hbatch
  | finish address leaseId outcome =>
    obtain ⟨c, -, rfl⟩ := Option.map_eq_some_iff.mp h
    refine hs.of_survives (survives_modifyAt (fun c => ?_) s.sessions)
    exact (TalkerContext.sameObject_finishFrame c leaseId outcome).1

/-- It holds in every run. -/
theorem modelInv_run {s : ModelState} {calls : List ModelCall}
    (hrun : run ModelState.step .init calls = some s) : ModelInv s :=
  invariant_of_step (P := fun _ _ => True) (fun _ _ _ hs _ h => modelInv_step hs h) modelInv_init
    (along_trivial (fun _ _ => trivial) _ _) hrun

/-! ## The launched graph -/

/-- A launched graph comes from the cache, for the sessions of the slots. -/
theorem launched_cases {s : ModelState} {slots : List Slot} {fault : Option BatchFault}
    {graph : Graph} (h : s.launched slots fault = some graph) :
    ∃ rows, rowsOf s.sessions slots = some rows ∧
      (s.cache.launch (graphKey rows) (s.frame rows)).2 = some graph := by
  obtain ⟨⟨m, launched⟩, hbatch, hgraph⟩ := Option.bind_eq_some_iff.mp h
  replace hgraph : launched = some graph := hgraph
  obtain ⟨rows, hrows, sessions, -, hout⟩ := batchBegin_cases hbatch
  rcases hout with ⟨-, hnone⟩ | ⟨-, hnone | hlaunch⟩
  · rw [hnone] at hgraph
    cases hgraph
  · rw [hnone] at hgraph
    cases hgraph
  · exact ⟨rows, hrows, hlaunch ▸ hgraph⟩

/-- A graph whose operations are those of the call's own rows, with its owners, is owned. -/
theorem ownedByCall_of_rows {s : ModelState} (hs : ModelInv s) {slots : List Slot} {rows : Rows}
    (hrows : rowsOf s.sessions slots = some rows) {graph : Graph}
    (hops : graph.ops = enqueueFrame (rows.map (·.2.handles)))
    (howners : ∀ (i : Nat) (row : Slot × TalkerContext), rows[i]? = some row →
      graph.owners[i]? = some (s.born row.1.session)) :
    OwnedByCall s slots graph := by
  intro op hop reference href
  rw [hops] at hop
  obtain ⟨handles, hget, hres⟩ := references_enqueueFrame hop href
  rw [List.getElem?_map] at hget
  obtain ⟨row, hrow, rfl⟩ := Option.map_eq_some_iff.mp hget
  obtain ⟨hslots, hlive⟩ := mem_rowsOf hrows
  have hc := hlive row (List.mem_of_getElem? hrow)
  refine ⟨row.1, row.2, ?_, hc, howners _ row hrow, hres, fun address c' hc' hmem => ?_⟩
  · rw [← hslots, List.getElem?_map, hrow]
    rfl
  · exact hs.disjoint address row.1.session c' row.2 hc' hc reference.2 hmem
      (List.mem_append_left _ hres)

/-- A cached graph whose key the call finds: it is owned when no session of the call is younger. -/
theorem ownedByCall_of_hit {s : ModelState} (hs : ModelInv s) {slots : List Slot} {rows : Rows}
    (hrows : rowsOf s.sessions slots = some rows) {graph : Graph} (hexec : s.cache.graphExec = some graph)
    (hkey : s.cache.graphKey = graphKey rows)
    (hborn : ∀ slot ∈ slots, s.born slot.session ≤ graph.capturedAt) :
    OwnedByCall s slots graph := by
  obtain ⟨captured, hcaptured⟩ := hs.graph graph hexec
  obtain ⟨hslots, hlive⟩ := mem_rowsOf hrows
  -- equal keys name the same addresses, row by row
  have haddresses : captured.map (·.1.session) = rows.map (·.1.session) :=
    sessions_of_graphKey_eq (hcaptured.key.symm.trans hkey)
  have hlength : captured.length = rows.length := by
    simpa using congrArg List.length haddresses
  have hrow : ∀ (i : Nat) (old row : Slot × TalkerContext), captured[i]? = some old →
      rows[i]? = some row → row.2.handles = old.2.handles ∧
        graph.owners[i]? = some (s.born row.1.session) := by
    intro i old row hold hnew
    have haddress : old.1.session = row.1.session := by
      have hi := congrArg (fun l => l[i]?) haddresses
      simpa [hold, hnew] using hi
    have hmem := List.mem_of_getElem? hnew
    have hslot : row.1 ∈ slots := hslots ▸ List.mem_map_of_mem hmem
    have halive := hcaptured.alive i old hold row.2 (haddress ▸ hlive row hmem)
      (haddress ▸ hborn row.1 hslot)
    rw [haddress] at halive
    exact halive
  have hget : ∀ (i : Nat) (row : Slot × TalkerContext), rows[i]? = some row →
      ∃ old, captured[i]? = some old := by
    intro i row hnew
    obtain ⟨hi, -⟩ := List.getElem?_eq_some_iff.mp hnew
    exact ⟨captured[i], List.getElem?_eq_getElem (by omega)⟩
  refine ownedByCall_of_rows hs hrows ?_ fun i row hnew => ?_
  · have hhandles : captured.map (·.2.handles) = rows.map (·.2.handles) := by
      refine List.ext_getElem (by simpa using hlength) fun i hi hi' => ?_
      rw [List.length_map] at hi hi'
      rw [List.getElem_map, List.getElem_map]
      have hpair := hrow i captured[i] rows[i] (List.getElem?_eq_getElem hi)
        (List.getElem?_eq_getElem hi')
      exact hpair.1.symm
    rw [hcaptured.ops, hhandles]
  · obtain ⟨old, hold⟩ := hget i row hnew
    exact (hrow i old row hold hnew).2

/-- Every row of a frame is referred to, by the operation that stores its semantic token. -/
theorem storeSampledToken_mem {sessions : List Handles} {i : Nat} {handles : Handles}
    (h : sessions[i]? = some handles) :
    .storeSampledToken i handles.frameTokens 0 handles.sampledToken ∈ enqueueFrame sessions := by
  have hmem : (handles, i) ∈ sessions.zipIdx := List.mem_zipIdx_iff_getElem?.mpr h
  have hloop : .storeSampledToken i handles.frameTokens 0 handles.sampledToken ∈
      eachRow sessions fun row h =>
        [.storeSampledToken row h.frameTokens 0 h.sampledToken,
          .recordEvent row h.predictorStart] :=
    List.mem_flatMap.mpr ⟨(handles, i), hmem, List.mem_cons_self⟩
  unfold enqueueFrame frameBody
  simp only [List.mem_append]
  tauto

/-- An owned graph was captured when every session of the call existed. -/
theorem sessionsPredateGraph_of_owned {s : ModelState} (hs : ModelInv s) {slots : List Slot}
    {graph : Graph} (hexec : s.cache.graphExec = some graph) {rows : Rows}
    (hrows : rowsOf s.sessions slots = some rows) (hkey : s.cache.graphKey = graphKey rows)
    (howned : OwnedByCall s slots graph) :
    ∀ slot ∈ slots, s.born slot.session ≤ graph.capturedAt := by
  obtain ⟨captured, hcaptured⟩ := hs.graph graph hexec
  obtain ⟨hslots, -⟩ := mem_rowsOf hrows
  have hlength : captured.length = slots.length := by
    have haddresses := sessions_of_graphKey_eq (hcaptured.key.symm.trans hkey)
    have hrowsLength := congrArg List.length haddresses
    rw [List.length_map, List.length_map] at hrowsLength
    rw [← hslots, List.length_map, hrowsLength]
  intro slot hslot
  obtain ⟨i, hi, rfl⟩ := List.getElem_of_mem hslot
  have hi' : i < captured.length := by omega
  have hget : (captured.map (·.2.handles))[i]? = some captured[i].2.handles := by
    rw [List.getElem?_map, List.getElem?_eq_getElem hi']
    rfl
  have hop := storeSampledToken_mem hget
  rw [← hcaptured.ops] at hop
  obtain ⟨slot, c, hslot', -, howner, -⟩ := howned _ hop _ List.mem_cons_self
  rw [List.getElem?_eq_getElem hi] at hslot'
  cases hslot'
  exact hcaptured.owners _ (List.mem_of_getElem? howner)

/-- **A launched graph is owned by its call exactly when none of the call's sessions is younger
than the cached graph its key finds**, in every run and whatever the allocators hand out. -/
theorem launch_owned {calls : List ModelCall} {s : ModelState}
    (hrun : run ModelState.step .init calls = some s) {slots : List Slot}
    {fault : Option BatchFault} {graph : Graph} (hlaunch : s.launched slots fault = some graph) :
    OwnedByCall s slots graph ↔ SessionsPredateGraph s slots := by
  have hs := modelInv_run hrun
  obtain ⟨rows, hrows, hgraph⟩ := launched_cases hlaunch
  rcases launch_cases s.cache (graphKey rows) (s.frame rows) with
    ⟨cached, hkey, hexec, heq⟩ | ⟨cache', hnone, heq⟩ | ⟨cache', hmiss, -, -, heq⟩
  · -- a hit
    rw [heq] at hgraph
    obtain rfl : cached = graph := Option.some.inj hgraph
    constructor
    · intro howned graph' hgraph' rows' hrows' hkey'
      rw [hexec] at hgraph'
      cases hgraph'
      exact sessionsPredateGraph_of_owned hs hexec hrows' hkey' howned
    · intro hpre
      exact ownedByCall_of_hit hs hrows hexec hkey (hpre cached hexec rows hrows hkey)
  · rw [heq] at hgraph
    cases hgraph
  · -- the frame was captured by this call
    rw [heq] at hgraph
    cases hgraph
    refine iff_of_true (ownedByCall_of_rows hs hrows rfl fun i row hrow => ?_) ?_
    · show (rows.map _)[i]? = _
      rw [List.getElem?_map, hrow]
      rfl
    · intro graph' hgraph'
      rw [hmiss] at hgraph'
      cases hgraph'

/-! ## A single session, and a reused address -/

/-- One session, whose second lockstep frame is captured. -/
def callsToCapture : List ModelCall :=
  [.create 4096 64 (handlesAt 1000), .prefill 4096 [(1, -1)] greedy (.sampled 5),
    .batchBegin [slotAt 4096] none, .finish 4096 1 (.finished 6)]

/-- Behind the captured frame the session is destroyed; a new one is handed the address of the old
object, and other buffers. -/
def callsToReuse : List ModelCall :=
  callsToCapture ++ [.batchBegin [slotAt 4096] none, .finish 4096 2 (.finished 7), .destroy 4096,
    .create 4096 64 (handlesAt 2000), .prefill 4096 [(1, -1)] greedy (.sampled 5)]

set_option maxRecDepth 20000 in
/-- The new session's first lockstep frame replays the graph of the destroyed one. -/
theorem launch_not_owned : ∃ s graph, run ModelState.step .init callsToReuse = some s ∧
    s.launched [slotAt 4096] none = some graph ∧ ¬ OwnedByCall s [slotAt 4096] graph := by
  have hstate : (run ModelState.step .init callsToReuse).map (fun s =>
      ((rowsOf s.sessions [slotAt 4096]).map fun rows => s.cache.graphKey == graphKey rows,
        s.cache.graphExec.map (·.capturedAt), s.born 4096,
        (s.launched [slotAt 4096] none).isSome))
      = some (some true, some 1, 2, true) := by
    decide
  obtain ⟨s, hrun, hs⟩ := Option.map_eq_some_iff.mp hstate
  simp only [Prod.mk.injEq, Option.map_eq_some_iff, beq_iff_eq] at hs
  obtain ⟨⟨rows, hrows, hkey⟩, ⟨cached, hexec, hcaptured⟩, hborn, hlaunched⟩ := hs
  obtain ⟨graph, hgraph⟩ := Option.isSome_iff_exists.mp hlaunched
  refine ⟨s, graph, hrun, hgraph, fun howned => ?_⟩
  -- the launched graph is the cached one
  obtain ⟨rows', hrows', hlaunch⟩ := launched_cases hgraph
  rw [hrows] at hrows'
  cases hrows'
  rw [GraphCache.launch] at hlaunch
  simp [hkey, hexec] at hlaunch
  subst hlaunch
  have hle := sessionsPredateGraph_of_owned (modelInv_run hrun) hexec hrows hkey howned _
    List.mem_cons_self
  rw [hcaptured] at hle
  replace hle : s.born 4096 ≤ 1 := hle
  omega

set_option maxRecDepth 20000 in
/-- The second frame of a session is captured and launched with its own buffers. -/
theorem launch_owned_single : ∃ s graph, run ModelState.step .init callsToCapture = some s ∧
    s.launched [slotAt 4096] none = some graph ∧
      (OwnedByCall s [slotAt 4096] graph ↔ SessionsPredateGraph s [slotAt 4096]) := by
  have hstate : (run ModelState.step .init callsToCapture).map (fun s =>
      (s.launched [slotAt 4096] none).isSome) = some true := by
    decide
  obtain ⟨s, hrun, hs⟩ := Option.map_eq_some_iff.mp hstate
  obtain ⟨graph, hgraph⟩ := Option.isSome_iff_exists.mp hs
  exact ⟨s, graph, hrun, hgraph, launch_owned hrun hgraph⟩

end Qwen3Tts.Talker
