import Qwen3Tts.Talker.Calls

/-!
# Talker — the lease state machine

What holds in every state of a set of sessions, and what a call can do in it, whatever the calls
before it were and wherever their CUDA calls failed.

* `leases_disciplined` — in runs whose batch calls name no session twice: one outstanding lease at
  most, with the newest id; a finish succeeds for that lease only; a session whose begin failed
  does nothing any more; position and history follow the frames since the prefill;
* `leases_undisciplined` — a batch call that names a session twice passes the checks and advances
  the session by two positions for one frame.
-/

namespace Qwen3Tts.Talker

open Qwen3Tts.Lib

/-! ## The property -/

namespace Session

/-- All leases are finished: none is outstanding, and no begin has failed. -/
def Settled (s : Session) : Prop := ∀ lease ∈ s.ledger.leases, lease.2 = .finished

/-- Some begin has failed behind its checks. -/
def Spent (s : Session) : Prop := ∃ lease ∈ s.ledger.leases, lease.2 = .failed

/-- What holds in every state. -/
structure Ok (s : Session) : Prop where
  single : (s.ledger.leases.filter (·.2 == .outstanding)).length ≤ 1
  nonzero : ∀ lease ∈ s.ledger.leases, lease.1 ≠ 0
  increasing : s.ledger.leases.length < 2 ^ 64 →
    (s.ledger.leases.map Prod.fst).Pairwise fun new old => old < new
  /-- A failed lease is the newest one. -/
  newest : s.Spent → ∃ id rest, s.ledger.leases = (id, .failed) :: rest
  history : s.context.generatedSemanticCount ≤ s.context.position
  generation : ∀ prompt frames, s.ledger.generation = some (prompt, frames) →
    s.context.poisoned = false → (∀ lease ∈ s.ledger.leases, lease.2 ≠ .outstanding) →
      s.context.position = prompt + frames ∧ s.context.position ≤ s.context.maxSequenceLength ∧
        s.context.generatedSemanticCount = frames + 1

end Session

/-- The sessions that a begin names. -/
def Call.begins : Call → List Address
  | .beginFrame a _ _ _ _ _ _ => [a]
  | .batchBegin slots _ => Pool.names slots
  | _ => []

/-- The error of the sampling check. -/
def historyExceeds : String := "semantic history exceeds configured sequence capacity"

/-- What a call can do. -/
structure Disciplined (pool : Pool) (call : Call) (answer : Answer) (pool' : Pool) : Prop where
  /-- A begin succeeds for settled sessions that saw no EOS since their prefill. Its leases are new
  entries of the ledgers, and the codes of the last frame are overwritten only behind the wait for
  their consumer. -/
  leased : ∀ views, answer = .leased views → views.map Prod.fst = call.begins ∧
    ∀ view ∈ views, ∃ s s', assoc pool view.1 = some s ∧ assoc pool' view.1 = some s' ∧
      s.Settled ∧ s.ledger.ended = false ∧
      (∀ consumer, s.ledger.consumer = some consumer → consumer ∈ s.ledger.waits) ∧
      s'.ledger.leases = (view.2, .outstanding) :: s.ledger.leases
  /-- A finish succeeds for the outstanding lease, which is finished by it. -/
  next : ∀ token, answer = .next token → ∃ a leaseId consumer outcome s s' rest,
    call = .finish a leaseId consumer outcome ∧ assoc pool a = some s ∧ assoc pool' a = some s' ∧
      s.ledger.leases = (leaseId, .outstanding) :: rest ∧
      s'.ledger.leases = (leaseId, .finished) :: rest
  /-- A prefill succeeds for a settled session. -/
  first : ∀ token, answer = .first token → ∃ a steps sampling outcome s,
    call = .prefill a steps sampling outcome ∧ assoc pool a = some s ∧ s.Settled
  /-- What the checks reject changes no session. -/
  rejected : ∀ message, answer = .rejected message →
    ∀ a, assoc pool'.contexts a = assoc pool.contexts a
  /-- A begin that fails behind its checks leaves a failed lease in every session it names. By
  `kept` and `Session.Ok.newest` it stays the newest, so by `next` no later finish succeeds. -/
  failed : ∀ message, answer = .failed message → ∀ a ∈ call.begins,
    ∃ s', assoc pool' a = some s' ∧ s'.Spent
  /-- Failed leases stay in the ledger. -/
  kept : ∀ a s, assoc pool a = some s → ∃ s', assoc pool' a = some s' ∧ (s.Spent → s'.Spent)
  /-- The check of the semantic history is never the one that fails. -/
  history : answer ≠ .rejected historyExceeds ∧
    ∀ a token trailing talkerSampling predictorSampling copy,
      call = .beginFrame a token trailing talkerSampling predictorSampling copy none →
        answer ≠ .failed historyExceeds

/-- A batch call that passes its checks names every session once. -/
def NamesOnce (pool : Pool) : Call → Prop
  | .batchBegin slots _ => ∀ rows ∈ rowsOf pool.contexts slots, preamble rows = .ok () →
      (Pool.names slots).Nodup
  | _ => True

/-! ## Lease ids -/

/-- The ids taken so far, newest first, and the id that is next. -/
structure Ids (next : UInt64) (ids : List UInt64) : Prop where
  fresh : next ≠ 0
  nonzero : ∀ id ∈ ids, id ≠ 0
  count : ids.length + 1 < 2 ^ 64 → next.toNat = ids.length + 1
  bounded : ids.length < 2 ^ 64 → ∀ id ∈ ids, id.toNat ≤ ids.length
  increasing : ids.length < 2 ^ 64 → ids.Pairwise fun new old => old < new

/-- No lease was taken. -/
theorem ids_nil : Ids 1 [] where
  fresh := by decide
  nonzero := nofun
  count _ := by decide
  bounded _ := nofun
  increasing _ := List.Pairwise.nil

/-- The id behind `next`: zero is left out. -/
def nextId (id : UInt64) : UInt64 := if id + 1 = 0 then 1 else id + 1

/-- A lease takes the next id; the counter skips zero when it wraps. -/
theorem Ids.enter {next : UInt64} {ids : List UInt64} (h : Ids next ids) :
    Ids (nextId next) (next :: ids) where
  fresh := by
    unfold nextId
    split
    · decide
    · assumption
  nonzero id hid := by
    rcases List.mem_cons.mp hid with rfl | hid
    · exact h.fresh
    · exact h.nonzero id hid
  count hlength := by
    rw [List.length_cons] at hlength ⊢
    have hnext := h.count (by omega)
    have hsum : (next + 1).toNat = ids.length + 2 := by
      rw [UInt64.toNat_add, hnext]
      show (ids.length + 1 + 1) % 2 ^ 64 = ids.length + 2
      omega
    -- the counter has not wrapped yet, so it is one more than the number of leases
    have hne : next + 1 ≠ 0 := by
      intro hzero
      rw [hzero] at hsum
      have hz : (0 : UInt64).toNat = 0 := rfl
      omega
    unfold nextId
    rw [if_neg hne, hsum]
  bounded hlength id hid := by
    rw [List.length_cons] at hlength ⊢
    rcases List.mem_cons.mp hid with rfl | hid
    · exact Nat.le_of_eq (h.count hlength)
    · have hle := h.bounded (by omega) id hid
      omega
  increasing hlength := by
    rw [List.length_cons] at hlength
    refine List.pairwise_cons.mpr ⟨fun id hid => ?_, h.increasing (by omega)⟩
    have hle := h.bounded (by omega) id hid
    have hnext := h.count hlength
    rw [UInt64.lt_iff_toNat_lt]
    omega

/-! ## The invariant of a session -/

/-- What the flags of a session say about its leases. -/
inductive Standing (c : TalkerContext) (leases : List (UInt64 × LeaseState)) : Prop
  | idle (hflight : c.frameInFlight = false) (hpoison : c.poisoned = false)
      (hsettled : ∀ lease ∈ leases, lease.2 = .finished)
  | busy {rest : List (UInt64 × LeaseState)} (hflight : c.frameInFlight = true)
      (hpoison : c.poisoned = false) (hleases : leases = (c.pendingLeaseId, .outstanding) :: rest)
      (hsettled : ∀ lease ∈ rest, lease.2 = .finished)
  | dead {id : UInt64} {rest : List (UInt64 × LeaseState)} (hflight : c.frameInFlight = false)
      (hpoison : c.poisoned = true) (hleases : leases = (id, .failed) :: rest)
      (hsettled : ∀ lease ∈ rest, lease.2 = .finished)

/-- What holds of a session between two calls. -/
structure SessionInv (s : Session) : Prop where
  ids : Ids s.context.nextLeaseId (s.ledger.leases.map Prod.fst)
  standing : Standing s.context s.ledger.leases
  token : s.context.phase = .prefilled →
    s.context.currentSemanticToken ≠ kCodecEos ∧ s.context.currentSemanticToken < kTalkerVocabulary
  ended : s.ledger.ended = true → s.context.phase ≠ .prefilled
  history : s.context.generatedSemanticCount ≤ s.context.position
  generation : ∀ prompt frames, s.ledger.generation = some (prompt, frames) →
    s.context.poisoned = false → 1 ≤ prompt ∧
      s.context.position = prompt + frames + s.context.frameInFlight.toNat ∧
      s.context.generatedSemanticCount = frames + 1 + s.context.frameInFlight.toNat ∧
      s.context.position ≤ s.context.maxSequenceLength
  waits : ∀ consumer, s.ledger.consumer = some consumer → consumer ∈ s.ledger.waits

/-- A new session has taken no lease. -/
theorem sessionInv_fresh {maxSequenceLength : Nat} {handles : Handles} {c : TalkerContext}
    (h : TalkerContext.new maxSequenceLength handles = .ok c) : SessionInv (Session.fresh c) := by
  unfold TalkerContext.new at h
  split at h
  · cases h
  · cases h
    exact {
      ids := ids_nil
      standing := .idle rfl rfl nofun
      token := nofun
      ended := nofun
      history := Nat.le_refl 0
      generation := nofun
      waits := nofun }

/-- The invariant makes a state acceptable. -/
theorem SessionInv.ok {s : Session} (h : SessionInv s) : s.Ok where
  single := by
    -- finished leases are not outstanding
    have hnone : ∀ leases : List (UInt64 × LeaseState), (∀ lease ∈ leases, lease.2 = .finished) →
        leases.filter (·.2 == .outstanding) = [] := by
      intro leases hsettled
      refine List.filter_eq_nil_iff.mpr fun lease hlease => ?_
      rw [hsettled lease hlease]
      decide
    -- idle, with a frame in flight, or poisoned
    rcases h.standing with ⟨-, -, hsettled⟩ | ⟨-, -, hleases, hsettled⟩ | ⟨-, -, hleases, hsettled⟩
    · rw [hnone _ hsettled]
      exact Nat.zero_le 1
    · rw [hleases, List.filter_cons_of_pos rfl, hnone _ hsettled]
      exact Nat.le_refl 1
    · rw [hleases, List.filter_cons_of_neg (by simp), hnone _ hsettled]
      exact Nat.zero_le 1
  nonzero lease hlease := h.ids.nonzero lease.1 (List.mem_map_of_mem hlease)
  increasing hlength := h.ids.increasing (by rwa [List.length_map])
  newest := by
    rintro ⟨lease, hmem, hfailed⟩
    have hfinished : ∀ {leases : List (UInt64 × LeaseState)},
        (∀ lease ∈ leases, lease.2 = .finished) → lease ∉ leases := by
      intro leases hsettled hmem
      rw [hsettled lease hmem] at hfailed
      cases hfailed
    rcases h.standing with ⟨-, -, hsettled⟩ | ⟨-, -, hleases, hsettled⟩ | ⟨-, -, hleases, -⟩
    · exact absurd hmem (hfinished hsettled)
    · rw [hleases] at hmem
      rcases List.mem_cons.mp hmem with rfl | hmem
      · cases hfailed
      · exact absurd hmem (hfinished hsettled)
    · exact ⟨_, _, hleases⟩
  history := h.history
  generation prompt frames hgen hpoison hnone := by
    obtain ⟨-, hposition, hcount, hmax⟩ := h.generation prompt frames hgen hpoison
    have hflight : s.context.frameInFlight = false := by
      rcases h.standing with ⟨hflight, -, -⟩ | ⟨-, -, hleases, -⟩ | ⟨hflight, -, -, -⟩
      · exact hflight
      · exact absurd rfl (hnone (s.context.pendingLeaseId, .outstanding) (by simp [hleases]))
      · exact hflight
    rw [hflight] at hposition hcount
    exact ⟨hposition, hmax, hcount⟩

/-! ## What the checks establish -/

/-- A frame begins on a prefilled session that has room, is not poisoned and has no frame in flight.
-/
theorem beginChecks_eq_ok {c : TalkerContext} {token : Nat} {trailing : Int}
    (h : c.beginChecks token trailing = .ok ()) :
    c.poisoned = false ∧ c.frameInFlight = false ∧ c.phase = .prefilled ∧
      c.position < c.maxSequenceLength := by
  simp only [TalkerContext.beginChecks, bind_eq_ok, failIf_eq_ok] at h
  obtain ⟨-, hpoison, -, hflight, -, hphase, -, -, -, -, -, -, -, -, hposition⟩ := h
  exact ⟨by simpa using hpoison, by simpa using hflight, by simpa using hphase, by omega⟩

/-- A batch asks the same of every slot. -/
theorem validate_eq_ok {c : TalkerContext} {slot : Slot} (h : c.validate slot = .ok ()) :
    c.poisoned = false ∧ c.frameInFlight = false ∧ c.phase = .prefilled ∧
      c.position < c.maxSequenceLength := by
  simp only [TalkerContext.validate, bind_eq_ok, failIf_eq_ok] at h
  obtain ⟨-, hpoison, -, hflight, -, hphase, -, -, -, -, -, -, -, hposition, -⟩ := h
  exact ⟨by simpa using hpoison, by simpa using hflight, by simpa using hphase, by omega⟩

/-- A frame is finished under the id it was leased with. -/
theorem finishChecks_eq_ok {c : TalkerContext} {leaseId : UInt64}
    (h : c.finishChecks leaseId = .ok ()) :
    c.poisoned = false ∧ c.frameInFlight = true ∧ leaseId = c.pendingLeaseId := by
  simp only [TalkerContext.finishChecks, bind_eq_ok, failIf_eq_ok] at h
  obtain ⟨-, hpoison, -, hflight, hlease⟩ := h
  push Not at hlease
  exact ⟨by simpa using hpoison, by simpa using hflight, hlease.2⟩

/-- A prefill fits into the sequence. -/
theorem prefillChecks_eq_ok {c : TalkerContext} {steps : List (Int × Int)}
    (h : c.prefillChecks steps = .ok ()) :
    c.poisoned = false ∧ c.frameInFlight = false ∧ steps ≠ [] ∧
      steps.length ≤ c.maxSequenceLength := by
  simp only [TalkerContext.prefillChecks, bind_eq_ok, failIf_eq_ok] at h
  obtain ⟨-, hpoison, -, hflight, -, hsteps, hmax⟩ := h
  exact ⟨by simpa using hpoison, by simpa using hflight, hsteps, by omega⟩

/-! ## Begins -/

/-- What a begin leaves alone in a session. -/
structure SameTurn (c c' : TalkerContext) : Prop where
  phase : c'.phase = c.phase
  token : c'.currentSemanticToken = c.currentSemanticToken
  max : c'.maxSequenceLength = c.maxSequenceLength

/-- What the `try` block of `begin_frame` leaves alone, and its two counters: the position is
counted before the history. -/
structure Counted (c c' : TalkerContext) : Prop extends SameTurn c c' where
  next : c'.nextLeaseId = c.nextLeaseId
  pending : c'.pendingLeaseId = c.pendingLeaseId
  flight : c'.frameInFlight = c.frameInFlight
  poisoned : c'.poisoned = c.poisoned
  counters : c'.position = c.position ∧ c'.generatedSemanticCount = c.generatedSemanticCount ∨
    c'.position = c.position + 1 ∧ c'.generatedSemanticCount ≤ c.generatedSemanticCount + 1

/-- A frame counts one position and one semantic token, or fails before it does. -/
theorem runFrame_counted (c : TalkerContext) (talkerSampling predictorSampling : SamplingConfig)
    (fault : Option (TalkerContext.BeginPoint × String)) :
    Counted c (c.runFrame talkerSampling predictorSampling fault).2 := by
  have hsampler : ∀ fault, Counted c (c.talkerStep.sampleTalker talkerSampling fault).2 := by
    intro fault
    unfold TalkerContext.sampleTalker
    split
    · exact ⟨⟨rfl, rfl, rfl⟩, rfl, rfl, rfl, rfl, .inr ⟨rfl, Nat.le_succ _⟩⟩
    · exact ⟨⟨rfl, rfl, rfl⟩, rfl, rfl, rfl, rfl, .inr ⟨rfl, Nat.le_refl _⟩⟩
    · exact ⟨⟨rfl, rfl, rfl⟩, rfl, rfl, rfl, rfl, .inr ⟨rfl, Nat.le_refl _⟩⟩
    · exact ⟨⟨rfl, rfl, rfl⟩, rfl, rfl, rfl, rfl, .inr ⟨rfl, Nat.le_succ _⟩⟩
    · exact ⟨⟨rfl, rfl, rfl⟩, rfl, rfl, rfl, rfl, .inr ⟨rfl, Nat.le_succ _⟩⟩
  unfold TalkerContext.runFrame
  split
  · exact ⟨⟨rfl, rfl, rfl⟩, rfl, rfl, rfl, rfl, .inl ⟨rfl, rfl⟩⟩
  · exact ⟨⟨rfl, rfl, rfl⟩, rfl, rfl, rfl, rfl, .inl ⟨rfl, rfl⟩⟩
  · exact ⟨⟨rfl, rfl, rfl⟩, rfl, rfl, rfl, rfl, .inl ⟨rfl, rfl⟩⟩
  · exact ⟨⟨rfl, rfl, rfl⟩, rfl, rfl, rfl, rfl, .inl ⟨rfl, rfl⟩⟩
  · exact hsampler _

/-- A `try` block that ends has counted both. -/
theorem runFrame_ok {c c' : TalkerContext} {talkerSampling predictorSampling : SamplingConfig}
    {fault : Option (TalkerContext.BeginPoint × String)}
    (h : c.runFrame talkerSampling predictorSampling fault = (.ok (), c')) :
    c'.position = c.position + 1 ∧
      c'.generatedSemanticCount = c.generatedSemanticCount + 1 := by
  unfold TalkerContext.runFrame at h
  split at h
  · cases h
  · cases h
  · cases h
  · cases h
  · unfold TalkerContext.sampleTalker at h
    split at h
    · cases h
    · cases h
      exact ⟨rfl, rfl⟩
    · cases h
    · cases h
    · cases h

/-- The error says that the history is full. -/
theorem samplingChecks_historyExceeds {c : TalkerContext} {sampling : SamplingConfig}
    (h : c.samplingChecks sampling = .error historyExceeds) :
    c.maxSequenceLength ≤ c.generatedSemanticCount := by
  by_contra hlt
  unfold TalkerContext.samplingChecks failIf at h
  rw [if_neg hlt] at h
  split at h
  · have hne : "invalid sampling configuration" ≠ historyExceeds := by decide
    exact hne (Except.error.inj h)
  · cases h

/-- The check of the history can only fail when the history has reached the capacity. -/
theorem runFrame_historyExceeds {c : TalkerContext}
    {talkerSampling predictorSampling : SamplingConfig}
    (h : (c.runFrame talkerSampling predictorSampling none).1 = .error historyExceeds) :
    c.maxSequenceLength ≤ c.generatedSemanticCount := by
  have hne : "invalid sampling configuration" ≠ historyExceeds := by decide
  unfold TalkerContext.runFrame at h
  split at h
  · rename_i heq _
    exact nomatch heq
  · exact absurd (Except.error.inj h) hne
  · rename_i heq _
    exact nomatch heq
  · rename_i heq _
    exact nomatch heq
  · unfold TalkerContext.sampleTalker at h
    split at h
    · rename_i hchecks
      have hmessage := Except.error.inj h
      rw [hmessage] at hchecks
      exact samplingChecks_historyExceeds hchecks
    · exact nomatch h
    all_goals
      rename_i hfault
      exact nomatch hfault

/-! ## A session takes a lease -/

/-- A session that a begin's checks accept. -/
structure Accepts (c : TalkerContext) : Prop where
  poison : c.poisoned = false
  flight : c.frameInFlight = false
  phase : c.phase = .prefilled
  position : c.position < c.maxSequenceLength

/-- A session that accepts a begin has no lease outstanding. -/
theorem SessionInv.settled {s : Session} (hs : SessionInv s) (ha : Accepts s.context) :
    s.Settled := by
  rcases hs.standing with ⟨-, -, hsettled⟩ | ⟨hflight, -, -, -⟩ | ⟨-, hpoison, -, -⟩
  · exact hsettled
  · rw [ha.flight] at hflight
    cases hflight
  · rw [ha.poison] at hpoison
    cases hpoison

/-- **A begin that succeeds**: the session holds the lease, one position and one history entry
further. -/
theorem SessionInv.leased {s : Session} (hs : SessionInv s) (ha : Accepts s.context)
    {c : TalkerContext} (hsame : SameTurn s.context c)
    (hnext : c.nextLeaseId = nextId s.context.nextLeaseId)
    (hpending : c.pendingLeaseId = s.context.nextLeaseId) (hflight : c.frameInFlight = true)
    (hpoison : c.poisoned = false) (hposition : c.position = s.context.position + 1)
    (hcount : c.generatedSemanticCount = s.context.generatedSemanticCount + 1) :
    SessionInv (({ s with context := c }).enter .outstanding) where
  ids := by
    show Ids c.nextLeaseId (c.pendingLeaseId :: s.ledger.leases.map Prod.fst)
    rw [hnext, hpending]
    exact hs.ids.enter
  standing := .busy hflight hpoison rfl (hs.settled ha)
  token hphase := by
    show c.currentSemanticToken ≠ _ ∧ c.currentSemanticToken < _
    rw [hsame.token]
    exact hs.token ha.phase
  ended hended := absurd ha.phase (hs.ended hended)
  history := by
    show c.generatedSemanticCount ≤ c.position
    rw [hposition, hcount]
    exact Nat.succ_le_succ hs.history
  -- the frame in flight is counted ahead of the finished ones
  generation prompt frames hgen _ := by
    obtain ⟨hprompt, hold, holdCount, -⟩ := hs.generation prompt frames hgen ha.poison
    rw [ha.flight] at hold holdCount
    have hmax := ha.position
    show 1 ≤ prompt ∧ c.position = prompt + frames + c.frameInFlight.toNat ∧
      c.generatedSemanticCount = frames + 1 + c.frameInFlight.toNat ∧
      c.position ≤ c.maxSequenceLength
    rw [hflight, hposition, hcount, hsame.max, hold, holdCount]
    refine ⟨hprompt, rfl, rfl, ?_⟩
    rw [hold] at hmax
    exact hmax
  waits := nofun

/-- **A begin that fails behind its checks**: the session is poisoned, and the lease is spent. -/
theorem SessionInv.spent {s : Session} (hs : SessionInv s) (ha : Accepts s.context)
    {leased c : TalkerContext} (hleased : leased.pendingLeaseId = s.context.nextLeaseId)
    (hsame : SameTurn s.context c) (hnext : c.nextLeaseId = nextId s.context.nextLeaseId)
    (hflight : c.frameInFlight = false) (hpoison : c.poisoned = true)
    (hcounters : c.generatedSemanticCount ≤ c.position) :
    SessionInv ((({ s with context := leased }).enter .failed).onContext fun _ => c) where
  ids := by
    show Ids c.nextLeaseId (leased.pendingLeaseId :: s.ledger.leases.map Prod.fst)
    rw [hnext, hleased]
    exact hs.ids.enter
  standing := .dead hflight hpoison rfl (hs.settled ha)
  token hphase := by
    show c.currentSemanticToken ≠ _ ∧ c.currentSemanticToken < _
    rw [hsame.token]
    exact hs.token ha.phase
  ended hended := absurd ha.phase (hs.ended hended)
  history := hcounters
  generation prompt frames _ hfalse := by
    replace hfalse : c.poisoned = false := hfalse
    rw [hpoison] at hfalse
    cases hfalse
  waits := nofun

/-! ## Calls on one session -/

/-- `begin_frame`, from a state that meets the invariant. -/
theorem sessionInv_beginFrame {a : Address} {s : Session} (hs : SessionInv s) {token : Nat}
    {trailing : Int} {talkerSampling predictorSampling : SamplingConfig} {copy : Bool}
    {fault : Option (TalkerContext.BeginPoint × String)} :
    SessionInv (s.beginFrame a token trailing talkerSampling predictorSampling copy fault).2 := by
  unfold Session.beginFrame
  split
  · exact hs
  · rename_i hchecks
    obtain ⟨hpoison, hflight, hphase, hposition⟩ := beginChecks_eq_ok hchecks
    have ha : Accepts s.context := ⟨hpoison, hflight, hphase, hposition⟩
    -- the lease is taken before the frame runs
    have hcounted := runFrame_counted
      { s.context.lease with pendingHostCodeCopy := copy } talkerSampling predictorSampling fault
    cases hrun : TalkerContext.runFrame { s.context.lease with pendingHostCodeCopy := copy }
      talkerSampling predictorSampling fault with
    | mk r c =>
      rw [hrun] at hcounted
      simp only [TalkerContext.leaseFrame, hrun]
      obtain ⟨⟨hphase', htoken, hmax⟩, hnext, hpending, hflight', hpoisoned, hcounters⟩ := hcounted
      cases r with
      -- the frame failed: its lease is lost with the session
      | error message =>
        have hhistory := hs.history
        refine @SessionInv.spent s hs ha s.context.lease c.poison rfl ⟨hphase', htoken, hmax⟩ hnext
          rfl rfl ?_
        show c.generatedSemanticCount ≤ c.position
        rcases hcounters with ⟨hp, hg⟩ | ⟨hp, hg⟩
        · rw [hp, hg]
          exact hhistory
        · rw [hp]
          exact Nat.le_trans hg (Nat.succ_le_succ hhistory)
      | ok u =>
        obtain ⟨hp, hg⟩ := runFrame_ok hrun
        exact hs.leased ha ⟨hphase', htoken, hmax⟩ hnext hpending hflight'
          (hpoisoned.trans hpoison) hp hg

/-- A reset frees the session, or poisons it when a call fails. -/
theorem sessionInv_reset {s : Session} (hs : SessionInv s) (fault : Option String) :
    SessionInv (s.reset fault).2 := by
  unfold Session.reset TalkerContext.reset
  split
  · exact { hs with generation := nofun }
  · rename_i c hreset
    split at hreset
    · cases hreset
    · rename_i hflight
      cases hreset
      have hcleared : SessionInv {
          context := s.context.cleared, ledger := { s.ledger with generation := none } } := {
        ids := hs.ids
        standing := by
          rcases hs.standing with ⟨hf, hp, hsettled⟩ | ⟨hf, -, -, -⟩ | ⟨hf, hp, hleases, hsettled⟩
          · exact .idle hf hp hsettled
          · exact absurd hf hflight
          · exact .dead hf hp hleases hsettled
        token := nofun
        ended := nofun
        history := Nat.le_refl 0
        generation := nofun
        waits := hs.waits }
      split
      · exact hcleared
      · exact hcleared

/-- What `prefill` leaves alone behind its checks, and the bounds of its counters. -/
structure Prefilled (c c' : TalkerContext) : Prop where
  next : c'.nextLeaseId = c.nextLeaseId
  pending : c'.pendingLeaseId = c.pendingLeaseId
  flight : c'.frameInFlight = c.frameInFlight
  poisoned : c'.poisoned = c.poisoned
  max : c'.maxSequenceLength = c.maxSequenceLength
  history : c'.generatedSemanticCount ≤ c'.position

/-- A token that is not refused is one of the vocabulary. -/
theorem validatedToken_eq_ok {token : Int} {first : Nat}
    (h : TalkerContext.validatedToken token = .ok first) : first < kTalkerVocabulary := by
  unfold TalkerContext.validatedToken at h
  split at h
  · cases h
  · rename_i hrange
    cases h
    omega

/-- A prefill that fails keeps the phase and the token; one that succeeds sets both, the position
to the length of the prompt and the history to its first token. -/
theorem prefill_spec {c c' : TalkerContext} {steps : List (Int × Int)} {sampling : SamplingConfig}
    {outcome : TalkerContext.PrefillOutcome} {r : Except String Nat}
    (hchecks : c.prefillChecks steps = .ok ())
    (h : c.prefill steps sampling outcome = (r, c')) :
    Prefilled c c' ∧ match r with
      | .error _ => c'.phase = c.phase ∧ c'.currentSemanticToken = c.currentSemanticToken
      | .ok first => first < kTalkerVocabulary ∧ c'.phase = TalkerContext.phaseAfter first ∧
          c'.currentSemanticToken = first ∧ c'.position = steps.length ∧
          c'.generatedSemanticCount = 1 := by
  obtain ⟨-, -, hsteps, -⟩ := prefillChecks_eq_ok hchecks
  have hlength : 1 ≤ steps.length := List.length_pos_iff.mpr hsteps
  unfold TalkerContext.prefill at h
  rw [hchecks] at h
  simp only at h
  split at h
  · cases h
    exact ⟨⟨rfl, rfl, rfl, rfl, rfl, Nat.le_refl 0⟩, rfl, rfl⟩
  · cases h
    exact ⟨⟨rfl, rfl, rfl, rfl, rfl, Nat.le_refl 0⟩, rfl, rfl⟩
  · split at h
    · -- the first token: every call behind the layers may fail
      unfold TalkerContext.sampleFirst at h
      split at h
      · cases h
        exact ⟨⟨rfl, rfl, rfl, rfl, rfl, Nat.zero_le _⟩, rfl, rfl⟩
      · cases h
        exact ⟨⟨rfl, rfl, rfl, rfl, rfl, Nat.zero_le _⟩, rfl, rfl⟩
      · cases h
        exact ⟨⟨rfl, rfl, rfl, rfl, rfl, Nat.zero_le _⟩, rfl, rfl⟩
      · cases h
        exact ⟨⟨rfl, rfl, rfl, rfl, rfl, hlength⟩, rfl, rfl⟩
      · split at h
        · cases h
          exact ⟨⟨rfl, rfl, rfl, rfl, rfl, hlength⟩, rfl, rfl⟩
        · rename_i first hvalid
          cases h
          exact ⟨⟨rfl, rfl, rfl, rfl, rfl, hlength⟩, validatedToken_eq_ok hvalid, rfl, rfl, rfl,
            rfl⟩
    · cases h
      exact ⟨⟨rfl, rfl, rfl, rfl, rfl, Nat.zero_le _⟩, rfl, rfl⟩

/-- A token that leaves the session prefilled can be expanded. -/
theorem phaseAfter_prefilled {token : Nat} (h : TalkerContext.phaseAfter token = .prefilled) :
    token ≠ kCodecEos := by
  intro heos
  rw [TalkerContext.phaseAfter, if_pos heos] at h
  cases h

/-- The leases stand as before when the three fields they depend on do. -/
theorem Standing.congr {c c' : TalkerContext} {leases : List (UInt64 × LeaseState)}
    (h : Standing c leases) (hflight : c'.frameInFlight = c.frameInFlight)
    (hpoison : c'.poisoned = c.poisoned) (hpending : c'.pendingLeaseId = c.pendingLeaseId) :
    Standing c' leases := by
  rcases h with ⟨hf, hp, hsettled⟩ | ⟨hf, hp, hleases, hsettled⟩ | ⟨hf, hp, hleases, hsettled⟩
  · exact .idle (hflight.trans hf) (hpoison.trans hp) hsettled
  · exact .busy (hflight.trans hf) (hpoison.trans hp) (hpending ▸ hleases) hsettled
  · exact .dead (hflight.trans hf) (hpoison.trans hp) hleases hsettled

/-- A prefill starts a new generation; one that fails leaves the session without any. -/
theorem sessionInv_prefill {s : Session} (hs : SessionInv s) (steps : List (Int × Int))
    (sampling : SamplingConfig) (outcome : TalkerContext.PrefillOutcome) :
    SessionInv (s.prefill steps sampling outcome).2 := by
  unfold Session.prefill
  split
  · -- refused
    exact { hs with generation := nofun }
  · rename_i hchecks
    obtain ⟨hpoison, hflight, hsteps, hmax⟩ := prefillChecks_eq_ok hchecks
    split
    · rename_i message c hprefill
      obtain ⟨hkept, hphase, htoken⟩ := prefill_spec hchecks hprefill
      exact {
        ids := by
          show Ids c.nextLeaseId _
          rw [hkept.next]
          exact hs.ids
        standing := hs.standing.congr hkept.flight hkept.poisoned hkept.pending
        token := fun h => by
          show c.currentSemanticToken ≠ _ ∧ c.currentSemanticToken < _
          rw [htoken]
          exact hs.token (hphase ▸ h)
        ended := fun h => by
          show c.phase ≠ _
          rw [hphase]
          exact hs.ended h
        history := hkept.history
        generation := nofun
        waits := hs.waits }
    · rename_i first c hprefill
      -- the first token was sampled
      obtain ⟨hkept, hfirst, hphase, htoken, hposition, hcount⟩ := prefill_spec hchecks hprefill
      exact {
        ids := by
          show Ids c.nextLeaseId _
          rw [hkept.next]
          exact hs.ids
        standing := hs.standing.congr hkept.flight hkept.poisoned hkept.pending
        token := fun h => by
          show c.currentSemanticToken ≠ _ ∧ c.currentSemanticToken < _
          rw [htoken]
          exact ⟨phaseAfter_prefilled (hphase ▸ h), hfirst⟩
        ended := fun h heq => phaseAfter_prefilled (hphase ▸ heq) (by simpa using h)
        history := hkept.history
        generation := fun prompt frames h _ => by
          obtain ⟨rfl, rfl⟩ := Prod.mk.inj (Option.some.inj h)
          show 1 ≤ steps.length ∧ c.position = steps.length + 0 + c.frameInFlight.toNat ∧
            c.generatedSemanticCount = 0 + 1 + c.frameInFlight.toNat ∧
            c.position ≤ c.maxSequenceLength
          rw [hkept.flight, hflight, hposition, hcount, hkept.max]
          exact ⟨List.length_pos_iff.mpr hsteps, rfl, rfl, hmax⟩
        waits := hs.waits }

/-- A finish that fails behind its checks only counts the synchronisation; one that succeeds ends
the lease. -/
theorem finishFrame_spec {c c' : TalkerContext} {leaseId : UInt64}
    {outcome : TalkerContext.FinishOutcome} {r : Except String Nat}
    (hchecks : c.finishChecks leaseId = .ok ()) (h : c.finishFrame leaseId outcome = (r, c')) :
    match r with
    | .error _ => c' = { c with hostSyncCount := c'.hostSyncCount }
    | .ok token => token < kTalkerVocabulary ∧
        c' = { c.finished token with hostSyncCount := c'.hostSyncCount } := by
  unfold TalkerContext.finishFrame at h
  rw [hchecks] at h
  simp only at h
  split at h
  · cases h
    rfl
  · split at h
    · cases h
      rfl
    · cases h
      rfl
  · split at h
    · cases h
      rfl
    · rename_i next hvalid
      cases h
      exact ⟨validatedToken_eq_ok hvalid, rfl⟩

/-- The session whose lease a finish accepts. -/
theorem SessionInv.outstanding {s : Session} (hs : SessionInv s) {leaseId : UInt64}
    (hchecks : s.context.finishChecks leaseId = .ok ()) :
    ∃ rest, s.ledger.leases = (leaseId, .outstanding) :: rest ∧
      ∀ lease ∈ rest, lease.2 = .finished := by
  obtain ⟨hpoison, hflight, hlease⟩ := finishChecks_eq_ok hchecks
  rcases hs.standing with ⟨hf, -, -⟩ | ⟨-, -, hleases, hsettled⟩ | ⟨hf, -, -, -⟩
  · rw [hflight] at hf
    cases hf
  · exact ⟨_, hlease ▸ hleases, hsettled⟩
  · rw [hflight] at hf
    cases hf

/-- A finish retires the newest lease. -/
theorem sessionInv_finish {s : Session} (hs : SessionInv s) (leaseId : UInt64)
    (consumer : Option Nat) (outcome : TalkerContext.FinishOutcome) :
    SessionInv (s.finish leaseId consumer outcome).2 := by
  unfold Session.finish
  split
  · exact hs
  · rename_i hchecks
    obtain ⟨hpoison, hflight, -⟩ := finishChecks_eq_ok hchecks
    obtain ⟨rest, hleases, hsettled⟩ := hs.outstanding hchecks
    split
    · rename_i message c hfinish
      -- the wait failed: the lease stays as it was
      have hc := finishFrame_spec hchecks hfinish
      have hsame : SessionInv { s with context := c } := by
        rw [hc]
        exact ⟨hs.ids, hs.standing.congr rfl rfl rfl, hs.token, hs.ended, hs.history,
          hs.generation, hs.waits⟩
      show SessionInv { context := c, ledger := if outcome.failed then s.ledger else _ }
      split
      · exact hsame
      · exact { hsame with
          waits := fun id hid => List.mem_append_left _ (hs.waits id hid) }
    · rename_i token c hfinish
      -- the frame is done and its token is known
      obtain ⟨htoken, hc⟩ := finishFrame_spec hchecks hfinish
      rw [hc]
      exact {
        ids := by
          have hids := hs.ids
          rw [hleases] at hids
          simp only [Session.settle, hleases]
          exact hids
        standing := by
          refine .idle rfl hpoison ?_
          simp only [Session.settle, hleases]
          exact List.forall_mem_cons.mpr ⟨rfl, hsettled⟩
        token := fun h => ⟨phaseAfter_prefilled h, htoken⟩
        ended := fun h heq => phaseAfter_prefilled heq (by simpa [Session.settle] using h)
        history := hs.history
        generation := fun prompt frames h _ => by
          obtain ⟨⟨prompt', frames'⟩, hgen, heq⟩ := Option.map_eq_some_iff.mp h
          obtain ⟨rfl, rfl⟩ := Prod.mk.inj heq
          obtain ⟨hprompt, hposition, hcount, hmax⟩ := hs.generation _ _ hgen hpoison
          rw [hflight] at hposition hcount
          exact ⟨hprompt, hposition, hcount, hmax⟩
        waits := fun id hid => List.mem_append_right _ (by
          rw [Option.mem_toList]
          exact hid) }

/-! ## Batch calls -/

/-- The context of a session in the pool. -/
theorem assoc_contexts (pool : Pool) (a : Address) :
    assoc pool.contexts a = (assoc pool a).map Session.context :=
  assoc_map Session.context pool a

/-- The sessions of a batch call that passes its checks accept the begin. -/
theorem accepts_of_preamble {pool : Pool} {slots : List Slot} {rows : Rows}
    (hrows : rowsOf pool.contexts slots = some rows) (hpreamble : preamble rows = .ok ())
    {a : Address} (ha : a ∈ Pool.names slots) :
    ∃ s, assoc pool a = some s ∧ Accepts s.context := by
  obtain ⟨hslots, hlive⟩ := mem_rowsOf hrows
  obtain ⟨slot, hslot, rfl⟩ := List.mem_map.mp ha
  rw [← hslots] at hslot
  obtain ⟨row, hrow, rfl⟩ := List.mem_map.mp hslot
  have hcontext := hlive row hrow
  rw [assoc_contexts] at hcontext
  obtain ⟨s, hs, hsame⟩ := Option.map_eq_some_iff.mp hcontext
  refine ⟨s, hs, ?_⟩
  obtain ⟨-, -, hvalidate⟩ := bind_eq_ok.mp hpreamble
  have hvalid := forM_eq_ok.mp hvalidate row hrow
  rw [hsame]
  obtain ⟨hpoison, hflight, hphase, hposition⟩ := validate_eq_ok hvalid
  exact ⟨hpoison, hflight, hphase, hposition⟩

/-- A session behind a batch call that succeeds. -/
def Session.batched (s : Session) : Session :=
  ((s.onContext TalkerContext.lease).onContext TalkerContext.advance).enter .outstanding

/-- A session behind a batch call that fails, with or without its counters. -/
def Session.batchFailed (counted : Bool) (s : Session) : Session :=
  let leased := s.onContext TalkerContext.lease
  let advanced := if counted then leased.onContext TalkerContext.advance else leased
  (advanced.enter .failed).onContext TalkerContext.poison

/-- A slot of a batch that began, -/
theorem sessionInv_batched {s : Session} (hs : SessionInv s) (ha : Accepts s.context) :
    SessionInv s.batched :=
  hs.leased ha ⟨rfl, rfl, rfl⟩ rfl rfl rfl ha.poison rfl rfl

/-- and of one that failed. -/
theorem sessionInv_batchFailed {s : Session} (hs : SessionInv s) (ha : Accepts s.context)
    (counted : Bool) : SessionInv (s.batchFailed counted) := by
  cases counted with
  | false =>
    exact @SessionInv.spent s hs ha s.context.lease s.context.lease.poison rfl ⟨rfl, rfl, rfl⟩ rfl
      rfl rfl hs.history
  | true =>
    exact @SessionInv.spent s hs ha s.context.lease.advance s.context.lease.advance.poison rfl
      ⟨rfl, rfl, rfl⟩ rfl rfl rfl (Nat.succ_le_succ hs.history)

/-- A session whose history does not exceed its position fails another check before the one of the
history. -/
theorem validate_ne_historyExceeds {c : TalkerContext} {slot : Slot}
    (h : c.generatedSemanticCount ≤ c.position) : c.validate slot ≠ .error historyExceeds := by
  unfold TalkerContext.validate
  by_cases hposition : c.maxSequenceLength ≤ c.position
  · -- the position's check comes first
    refine failIf_bind_ne (.inr (by decide)) (failIf_bind_ne (.inr (by decide))
      (failIf_bind_ne (.inr (by decide)) (failIf_bind_ne (.inr (by decide))
      (failIf_bind_ne (.inr (by decide)) (failIf_bind_ne (.inr (by decide)) ?_)))))
    simp only [failIf, if_pos hposition]
    exact fun herror => absurd (Except.error.inj herror) (by decide)
  · have hcount : ¬ c.maxSequenceLength ≤ c.generatedSemanticCount := by omega
    refine failIf_bind_ne (.inr (by decide)) (failIf_bind_ne (.inr (by decide))
      (failIf_bind_ne (.inr (by decide)) (failIf_bind_ne (.inr (by decide))
      (failIf_bind_ne (.inr (by decide)) (failIf_bind_ne (.inr (by decide))
      (failIf_bind_ne (.inl hposition) (failIf_bind_ne (.inl hcount) ?_)))))))
    unfold failIf
    split
    · exact fun herror => absurd (Except.error.inj herror) (by decide)
    · exact nofun

/-- The history of a batched session is not full: it has no more tokens than positions. -/
theorem preamble_ne_historyExceeds {rows : Rows}
    (h : ∀ row ∈ rows, row.2.generatedSemanticCount ≤ row.2.position) :
    preamble rows ≠ .error historyExceeds := by
  refine failIf_bind_ne (.inr (by decide)) fun herror => ?_
  obtain ⟨row, hrow, hvalidate⟩ := forM_eq_error herror
  exact validate_ne_historyExceeds (h row hrow) hvalidate

/-- What a batch call that names its sessions once does to each session. -/
theorem poolBatch_cases {pool pool' : Pool} {slots : List Slot} {fault : Option BatchFault}
    {answer : Answer} (hinv : ∀ a s, assoc pool a = some s → SessionInv s)
    (honce : NamesOnce pool (.batchBegin slots fault))
    (h : pool.batchBegin slots fault = some (answer, pool')) :
    (∃ message, answer = .rejected message ∧ pool' = pool ∧ message ≠ historyExceeds) ∨
    (∀ a ∈ Pool.names slots, ∃ s, assoc pool a = some s ∧ Accepts s.context) ∧
      (∀ a ∉ Pool.names slots, assoc pool' a = assoc pool a) ∧
      (answer = .leased ((Pool.names slots).filterMap fun a =>
            (assoc pool a).map fun s => (a, s.context.nextLeaseId)) ∧
          (∀ a ∈ Pool.names slots, assoc pool' a = (assoc pool a).map Session.batched) ∨
        ∃ message, answer = .failed message ∧ ∃ counted : Address → Bool,
          ∀ a ∈ Pool.names slots,
            assoc pool' a = (assoc pool a).map (Session.batchFailed (counted a))) := by
  obtain ⟨rows, hrows, heq⟩ := Option.map_eq_some_iff.mp h
  split at heq
  · rename_i message hpreamble
    cases heq
    refine .inl ⟨message, rfl, rfl, ?_⟩
    rintro rfl
    refine preamble_ne_historyExceeds (fun row hrow => ?_) hpreamble
    have hlive := (mem_rowsOf hrows).2 row hrow
    rw [assoc_contexts] at hlive
    obtain ⟨s, hs, hsame⟩ := Option.map_eq_some_iff.mp hlive
    exact hsame ▸ (hinv _ s hs).history
  · rename_i hpreamble
    have hnodup := honce rows hrows hpreamble
    refine .inr ⟨fun a ha => accepts_of_preamble hrows hpreamble ha, ?_⟩
    cases fault with
    | none =>
      cases heq
      refine ⟨fun a ha => ?_, .inl ⟨?_, fun a ha => ?_⟩⟩
      · rw [assoc_modifyEach hnodup, assoc_modifyEach hnodup, assoc_modifyEach hnodup, if_neg ha,
          if_neg ha, if_neg ha]
      · refine congrArg Answer.leased (List.filterMap_congr fun a ha => ?_)
        rw [assoc_modifyEach hnodup, assoc_modifyEach hnodup, if_pos ha, if_pos ha, Option.map_map,
          Option.map_map]
        rfl
      · rw [assoc_modifyEach hnodup, assoc_modifyEach hnodup, assoc_modifyEach hnodup, if_pos ha,
          if_pos ha, if_pos ha, Option.map_map, Option.map_map]
        rfl
    | some fault =>
      cases heq
      cases fault with
      | beforeLaunch =>
        refine ⟨fun a ha => ?_, .inr ⟨_, rfl, fun _ => false, fun a ha => ?_⟩⟩
        · rw [assoc_modifyEach hnodup, assoc_modifyEach hnodup, assoc_modifyEach hnodup, if_neg ha,
            if_neg ha, if_neg ha]
        · rw [assoc_modifyEach hnodup, assoc_modifyEach hnodup, assoc_modifyEach hnodup, if_pos ha,
            if_pos ha, if_pos ha, Option.map_map, Option.map_map]
          rfl
      | rejoin row =>
        -- the counters of the rows up to the failing one have been advanced
        have hsub : (Pool.names (slots.take (row + 1))).Sublist (Pool.names slots) :=
          (List.take_sublist _ _).map _
        have htake := hnodup.sublist hsub
        refine ⟨fun a ha => ?_, .inr ⟨_, rfl,
          fun a => decide (a ∈ Pool.names (slots.take (row + 1))), fun a ha => ?_⟩⟩
        · have hnot : a ∉ Pool.names (slots.take (row + 1)) := fun hmem => ha (hsub.subset hmem)
          rw [assoc_modifyEach hnodup, assoc_modifyEach hnodup, assoc_modifyEach htake,
            assoc_modifyEach hnodup, if_neg ha, if_neg ha, if_neg hnot, if_neg ha]
        · rw [assoc_modifyEach hnodup, assoc_modifyEach hnodup, assoc_modifyEach htake,
            assoc_modifyEach hnodup, if_pos ha, if_pos ha, if_pos ha]
          show _ = Option.map (Session.batchFailed
            (decide (a ∈ Pool.names (slots.take (row + 1))))) _
          by_cases hmem : a ∈ Pool.names (slots.take (row + 1))
          · rw [if_pos hmem, Option.map_map, Option.map_map, Option.map_map, decide_eq_true hmem]
            rfl
          · rw [if_neg hmem, Option.map_map, Option.map_map, decide_eq_false hmem]
            rfl

/-! ## Steps and runs -/

/-- Every session of the pool keeps its invariant. -/
def PoolInv (pool : Pool) : Prop := ∀ a s, assoc pool a = some s → SessionInv s

/-- A call on one session changes that session only. -/
theorem on_cases {pool pool' : Pool} {a : Address} {f : Session → Answer × Session}
    {answer : Answer} (h : pool.on a f = some (answer, pool')) :
    ∃ s, assoc pool a = some s ∧ answer = (f s).1 ∧ assoc pool' a = some (f s).2 ∧
      ∀ b, b ≠ a → assoc pool' b = assoc pool b := by
  obtain ⟨s, hs, heq⟩ := Option.map_eq_some_iff.mp h
  cases heq
  refine ⟨s, hs, rfl, ?_, fun b hb => ?_⟩
  · rw [assoc_modifyAt, if_pos rfl, hs]
    rfl
  · rw [assoc_modifyAt, if_neg hb]

/-- A call on one session. -/
theorem poolInv_on {pool pool' : Pool} (hp : PoolInv pool) {a : Address}
    {f : Session → Answer × Session} (hf : ∀ s, SessionInv s → SessionInv (f s).2)
    {answer : Answer} (h : pool.on a f = some (answer, pool')) : PoolInv pool' := by
  obtain ⟨s, hs, -, hself, hother⟩ := on_cases h
  intro b t hb
  by_cases hba : b = a
  · subst hba
    rw [hself] at hb
    cases hb
    exact hf s (hp b s hs)
  · rw [hother b hba] at hb
    exact hp b t hb

/-- A batch that names no session twice. -/
theorem poolInv_batchBegin {pool pool' : Pool} (hp : PoolInv pool) {slots : List Slot}
    {fault : Option BatchFault} (honce : NamesOnce pool (.batchBegin slots fault)) {answer : Answer}
    (h : pool.batchBegin slots fault = some (answer, pool')) : PoolInv pool' := by
  rcases poolBatch_cases hp honce h with ⟨-, -, rfl, -⟩ | ⟨hnamed, hother, hout⟩
  · exact hp
  · intro b t hb
    by_cases hmem : b ∈ Pool.names slots
    · obtain ⟨s, hs, haccepts⟩ := hnamed b hmem
      rcases hout with ⟨-, hself⟩ | ⟨-, -, counted, hself⟩
      · rw [hself b hmem, hs] at hb
        cases hb
        exact sessionInv_batched (hp b s hs) haccepts
      · rw [hself b hmem, hs] at hb
        cases hb
        exact sessionInv_batchFailed (hp b s hs) haccepts _
    · rw [hother b hmem] at hb
      exact hp b t hb

/-- **One call keeps the invariant of every session.** -/
theorem poolInv_call {pool pool' : Pool} (hp : PoolInv pool) {call : Call}
    (honce : NamesOnce pool call) {answer : Answer} (h : pool.call call = some (answer, pool')) :
    PoolInv pool' := by
  cases call with
  | unselected message =>
    cases h
    exact hp
  | reset a fault => exact poolInv_on hp (fun s hs => sessionInv_reset hs fault) h
  | prefill a steps sampling outcome =>
    exact poolInv_on hp (fun s hs => sessionInv_prefill hs steps sampling outcome) h
  | beginFrame a token trailing talkerSampling predictorSampling copy fault =>
    exact poolInv_on hp (fun s hs => sessionInv_beginFrame hs) h
  | batchBegin slots fault => exact poolInv_batchBegin hp honce h
  | finish a leaseId consumer outcome =>
    exact poolInv_on hp (fun s hs => sessionInv_finish hs leaseId consumer outcome) h

/-- Every run of such calls. -/
theorem poolInv_run {pool₀ pool : Pool} (hfresh : pool₀.Fresh) {calls : List Call}
    (honce : Along Pool.step NamesOnce pool₀ calls) (hrun : run Pool.step pool₀ calls = some pool) :
    PoolInv pool := by
  have hinit : PoolInv pool₀ := by
    intro a s hs
    obtain ⟨maxSequenceLength, handles, c, hnew, rfl⟩ := hfresh a s hs
    exact sessionInv_fresh hnew
  refine invariant_of_step (fun p call p' hp hcall hstep => ?_) hinit honce hrun
  obtain ⟨⟨answer, p''⟩, hanswer, rfl⟩ := Option.map_eq_some_iff.mp hstep
  exact poolInv_call hp hcall hanswer

/-! ## What a call can do -/

/-- Failed leases stay when the call on the session keeps them. -/
theorem kept_on {pool pool' : Pool} {a : Address} {f : Session → Answer × Session}
    {answer : Answer} (h : pool.on a f = some (answer, pool'))
    (hf : ∀ s, assoc pool a = some s → s.Spent → (f s).2.Spent) :
    ∀ b s, assoc pool b = some s → ∃ s', assoc pool' b = some s' ∧ (s.Spent → s'.Spent) := by
  obtain ⟨s, hs, -, hself, hother⟩ := on_cases h
  intro b t hb
  by_cases hba : b = a
  · subst hba
    rw [hs] at hb
    cases hb
    exact ⟨_, hself, hf s hs⟩
  · exact ⟨t, by rw [hother b hba, hb], id⟩

/-- A call on one session that leaves its context alone. -/
theorem contexts_on {pool pool' : Pool} {a : Address} {f : Session → Answer × Session}
    {answer : Answer} (h : pool.on a f = some (answer, pool'))
    (hf : ∀ s, assoc pool a = some s → (f s).2.context = s.context) :
    ∀ b, assoc pool'.contexts b = assoc pool.contexts b := by
  obtain ⟨s, hs, -, hself, hother⟩ := on_cases h
  intro b
  rw [assoc_contexts, assoc_contexts]
  by_cases hba : b = a
  · subst hba
    rw [hself, hs]
    exact congrArg some (hf s hs)
  · rw [hother b hba]

/-- An answer that a call other than a begin, a prefill or a finish gives. -/
theorem disciplined_reset {pool pool' : Pool} {a : Address} {fault : Option String}
    {answer : Answer} (h : pool.call (.reset a fault) = some (answer, pool')) :
    Disciplined pool (.reset a fault) answer pool' := by
  obtain ⟨s, hs, hanswer, hself, hother⟩ := on_cases h
  -- the three answers of a reset
  have hcases : (∃ message, answer = .rejected message ∧
      message = "cannot reset while a device frame lease is in flight") ∨
      (∃ message, answer = .failed message) ∨ answer = .wasReset := by
    rw [hanswer]
    unfold Session.reset TalkerContext.reset
    split
    · rename_i message hreset
      split at hreset
      · cases hreset
        exact .inl ⟨_, rfl, rfl⟩
      · cases hreset
    · cases fault with
      | some message => exact .inr (.inl ⟨message, rfl⟩)
      | none => exact .inr (.inr rfl)
  -- it touches no lease
  have hleases : (s.reset fault).2.ledger.leases = s.ledger.leases := by
    unfold Session.reset
    split
    · rfl
    · split <;> rfl
  refine {
    leased := fun views heq => ?_
    next := fun token heq => ?_
    first := fun token heq => ?_
    rejected := fun message heq => contexts_on h fun t ht => ?_
    failed := fun _ _ _ hb => absurd hb List.not_mem_nil
    kept := kept_on h fun t ht hspent => ?_
    history := ⟨?_, nofun⟩ }
  · rcases hcases with ⟨_, rfl, -⟩ | ⟨_, rfl⟩ | rfl <;> cases heq
  · rcases hcases with ⟨_, rfl, -⟩ | ⟨_, rfl⟩ | rfl <;> cases heq
  · rcases hcases with ⟨_, rfl, -⟩ | ⟨_, rfl⟩ | rfl <;> cases heq
  · rw [hs] at ht
    cases ht
    rw [heq] at hanswer
    unfold Session.reset at hanswer ⊢
    split
    · rfl
    · rename_i hreset
      rw [hreset] at hanswer
      simp only at hanswer
      split at hanswer <;> cases hanswer
  · rw [hs] at ht
    cases ht
    show ∃ lease ∈ (s.reset fault).2.ledger.leases, lease.2 = .failed
    rw [hleases]
    exact hspent
  · rcases hcases with ⟨message, rfl, rfl⟩ | ⟨_, rfl⟩ | rfl
    · exact fun heq => absurd (Answer.rejected.inj heq) (by decide)
    · exact nofun
    · exact nofun

/-- A prefill takes no lease. -/
theorem disciplined_prefill {pool pool' : Pool} (hp : PoolInv pool) {a : Address}
    {steps : List (Int × Int)} {sampling : SamplingConfig} {outcome : TalkerContext.PrefillOutcome}
    {answer : Answer} (h : pool.call (.prefill a steps sampling outcome) = some (answer, pool')) :
    Disciplined pool (.prefill a steps sampling outcome) answer pool' := by
  obtain ⟨s, hs, hanswer, hself, hother⟩ := on_cases h
  -- the three answers of a prefill
  have hcases : (∃ message, answer = .rejected message ∧ message ≠ historyExceeds ∧
        (s.prefill steps sampling outcome).2.context = s.context) ∨
      (∃ message, answer = .failed message) ∨
      ∃ token, answer = .first token ∧ s.context.prefillChecks steps = .ok () := by
    rw [hanswer]
    unfold Session.prefill
    split
    · rename_i message hchecks
      refine .inl ⟨message, rfl, ?_, rfl⟩
      rintro rfl
      unfold TalkerContext.prefillChecks at hchecks
      refine absurd hchecks (failIf_bind_ne (.inr (by decide)) (failIf_bind_ne (.inr (by decide))
        (failIf_bind_ne (.inr (by decide)) ?_)))
      unfold failIf
      split
      · exact fun herror => absurd (Except.error.inj herror) (by decide)
      · exact nofun
    · rename_i hchecks
      split
      · exact .inr (.inl ⟨_, rfl⟩)
      · exact .inr (.inr ⟨_, rfl, hchecks⟩)
  -- it touches no lease
  have hleases : (s.prefill steps sampling outcome).2.ledger.leases = s.ledger.leases := by
    unfold Session.prefill
    split
    · rfl
    · split <;> rfl
  refine {
    leased := fun views heq => ?_
    next := fun token heq => ?_
    first := fun token heq => ?_
    rejected := fun message heq => contexts_on h fun t ht => ?_
    failed := fun _ _ _ hb => absurd hb List.not_mem_nil
    kept := kept_on h fun t ht hspent => ?_
    history := ⟨?_, nofun⟩ }
  · rcases hcases with ⟨_, rfl, -⟩ | ⟨_, rfl⟩ | ⟨_, rfl, -⟩ <;> cases heq
  · rcases hcases with ⟨_, rfl, -⟩ | ⟨_, rfl⟩ | ⟨_, rfl, -⟩ <;> cases heq
  · rcases hcases with ⟨_, rfl, -⟩ | ⟨_, rfl⟩ | ⟨_, rfl, hchecks⟩
    · cases heq
    · cases heq
    · obtain ⟨hpoison, hflight, -, -⟩ := prefillChecks_eq_ok hchecks
      refine ⟨a, steps, sampling, outcome, s, rfl, hs, ?_⟩
      -- an accepted prefill finds the session idle
      rcases (hp a s hs).standing with ⟨-, -, hsettled⟩ | ⟨hf, -, -, -⟩ | ⟨-, hd, -, -⟩
      · exact hsettled
      · rw [hflight] at hf
        cases hf
      · rw [hpoison] at hd
        cases hd
  · rcases hcases with ⟨_, rfl, -, hcontext⟩ | ⟨_, rfl⟩ | ⟨_, rfl, -⟩
    · rw [hs] at ht
      cases ht
      exact hcontext
    · cases heq
    · cases heq
  · rw [hs] at ht
    cases ht
    unfold Session.Spent
    rw [hleases]
    exact hspent
  · rcases hcases with ⟨message, rfl, hne, -⟩ | ⟨_, rfl⟩ | ⟨_, rfl, -⟩
    · exact fun heq => hne (Answer.rejected.inj heq)
    · exact nofun
    · exact nofun

/-- The checks of a begin have errors of their own. -/
theorem beginChecks_ne_historyExceeds (c : TalkerContext) (token : Nat) (trailing : Int) :
    c.beginChecks token trailing ≠ .error historyExceeds := by
  unfold TalkerContext.beginChecks
  refine failIf_bind_ne (.inr (by decide)) (failIf_bind_ne (.inr (by decide))
    (failIf_bind_ne (.inr (by decide)) (failIf_bind_ne (.inr (by decide))
    (failIf_bind_ne (.inr (by decide)) (failIf_bind_ne (.inr (by decide))
    (failIf_bind_ne (.inr (by decide)) ?_))))))
  unfold failIf
  split
  · exact fun herror => absurd (Except.error.inj herror) (by decide)
  · exact nofun

/-- What `begin_frame` answers, and the ledger it leaves. -/
theorem beginFrame_cases {a : Address} {s : Session} {token : Nat}
    {trailing : Int} {talkerSampling predictorSampling : SamplingConfig} {copy : Bool}
    {fault : Option (TalkerContext.BeginPoint × String)} {answer : Answer} {s' : Session}
    (h : s.beginFrame a token trailing talkerSampling predictorSampling copy fault = (answer, s')) :
    (∃ message, answer = .rejected message ∧ message ≠ historyExceeds ∧ s' = s) ∨
    (Accepts s.context ∧ ∃ message, answer = .failed message ∧ s'.Spent ∧
      (fault = none → message = historyExceeds →
        s.context.maxSequenceLength ≤ s.context.generatedSemanticCount)) ∨
    (Accepts s.context ∧ ∃ leaseId, answer = .leased [(a, leaseId)] ∧
      s'.ledger.leases = (leaseId, .outstanding) :: s.ledger.leases) := by
  unfold Session.beginFrame at h
  split at h
  · rename_i message hchecks
    cases h
    exact .inl ⟨message, rfl, fun heq => beginChecks_ne_historyExceeds _ _ _ (heq ▸ hchecks), rfl⟩
  · rename_i hchecks
    obtain ⟨hpoison, hflight, hphase, hposition⟩ := beginChecks_eq_ok hchecks
    have ha : Accepts s.context := ⟨hpoison, hflight, hphase, hposition⟩
    split at h
    · rename_i message c hlease
      cases h
      -- the frame failed behind its checks
      refine .inr (.inl ⟨ha, message, rfl, ⟨_, List.mem_cons_self, rfl⟩, ?_⟩)
      rintro rfl rfl
      unfold TalkerContext.leaseFrame at hlease
      simp only at hlease
      split at hlease
      · rename_i message c' hrun
        obtain rfl : message = historyExceeds := Except.error.inj (Prod.mk.inj hlease).1
        exact @runFrame_historyExceeds { s.context.lease with pendingHostCodeCopy := copy } _ _
          (congrArg Prod.fst hrun)
      · exact nomatch (Prod.mk.inj hlease).1
    · rename_i leaseId c hlease
      cases h
      -- the frame is in flight
      refine .inr (.inr ⟨ha, leaseId, rfl, ?_⟩)
      unfold TalkerContext.leaseFrame at hlease
      simp only at hlease
      split at hlease
      · exact nomatch (Prod.mk.inj hlease).1
      · obtain ⟨hid, rfl⟩ := Prod.mk.inj hlease
        obtain rfl := Except.ok.inj hid
        rfl

/-- A begin is refused, loses its session or hands out one lease. -/
theorem disciplined_beginFrame {pool pool' : Pool} (hp : PoolInv pool) {a : Address} {token : Nat}
    {trailing : Int} {talkerSampling predictorSampling : SamplingConfig} {copy : Bool}
    {fault : Option (TalkerContext.BeginPoint × String)} {answer : Answer}
    (h : pool.call (.beginFrame a token trailing talkerSampling predictorSampling copy fault)
      = some (answer, pool')) :
    Disciplined pool (.beginFrame a token trailing talkerSampling predictorSampling copy fault)
      answer pool' := by
  obtain ⟨s, hs, hanswer, hself, hother⟩ := on_cases h
  obtain ⟨s', hs'⟩ : ∃ s', s' =
    (s.beginFrame a token trailing talkerSampling predictorSampling copy fault).2 := ⟨_, rfl⟩
  rw [← hs'] at hself
  have hcases := beginFrame_cases (Prod.ext hanswer.symm hs'.symm)
  have hinv := hp a s hs
  refine {
    leased := fun views heq => ?_
    next := fun token heq => ?_
    first := fun token heq => ?_
    rejected := fun message heq b => ?_
    failed := fun message heq b hb => ?_
    kept := fun b t hb => ?_
    history := ⟨fun heq => ?_, ?_⟩ }
  · rcases hcases with ⟨_, rfl, -⟩ | ⟨-, _, rfl, -⟩ | ⟨ha, leaseId, rfl, hleases⟩
    · cases heq
    · cases heq
    · cases heq
      refine ⟨rfl, fun view hview => ?_⟩
      rw [List.mem_singleton.mp hview]
      refine ⟨s, s', hs, hself, hinv.settled ha, ?_, hinv.waits, hleases⟩
      -- a generation that has ended accepts no frame
      cases hended : s.ledger.ended with
      | false => rfl
      | true => exact absurd ha.phase (hinv.ended hended)
  · rcases hcases with ⟨_, rfl, -⟩ | ⟨-, _, rfl, -⟩ | ⟨-, _, rfl, -⟩ <;> cases heq
  · rcases hcases with ⟨_, rfl, -⟩ | ⟨-, _, rfl, -⟩ | ⟨-, _, rfl, -⟩ <;> cases heq
  · rcases hcases with ⟨_, rfl, -, rfl⟩ | ⟨-, _, rfl, -⟩ | ⟨-, _, rfl, -⟩
    · refine contexts_on h (fun t ht => ?_) b
      rw [hs] at ht
      cases ht
      rw [← hs']
    · cases heq
    · cases heq
  · rw [List.mem_singleton.mp hb]
    rcases hcases with ⟨_, rfl, -⟩ | ⟨-, _, rfl, hspent, -⟩ | ⟨-, _, rfl, -⟩
    · cases heq
    · exact ⟨s', hself, hspent⟩
    · cases heq
  · by_cases hba : b = a
    · subst hba
      rw [hs] at hb
      cases hb
      refine ⟨s', hself, fun hspent => ?_⟩
      rcases hcases with ⟨_, -, -, rfl⟩ | ⟨-, _, -, hspent', -⟩ | ⟨-, _, -, hleases⟩
      · exact hspent
      · exact hspent'
      · obtain ⟨lease, hmem, hfailed⟩ := hspent
        exact ⟨lease, by rw [hleases]; exact List.mem_cons_of_mem _ hmem, hfailed⟩
    · exact ⟨t, by rw [hother b hba, hb], id⟩
  · rcases hcases with ⟨message, rfl, hne, -⟩ | ⟨-, _, rfl, -⟩ | ⟨-, _, rfl, -⟩
    · exact hne (Answer.rejected.inj heq)
    · cases heq
    · cases heq
  · intro _ _ _ _ _ _ hcall heq
    obtain rfl : fault = none := by
      cases hcall
      rfl
    rcases hcases with ⟨_, rfl, -⟩ | ⟨ha, message, rfl, -, hcount⟩ | ⟨-, _, rfl, -⟩
    · cases heq
    · -- the history can only be full when no position is left
      have hle := hcount rfl (Answer.failed.inj heq)
      have hhistory := hinv.history
      have hposition := ha.position
      omega
    · cases heq

/-- What `finish_frame` answers, and the ledger it leaves. -/
theorem finish_cases {s s' : Session} {leaseId : UInt64} {consumer : Option Nat}
    {outcome : TalkerContext.FinishOutcome} {answer : Answer}
    (h : s.finish leaseId consumer outcome = (answer, s')) :
    (∃ message, answer = .rejected message ∧ message ≠ historyExceeds ∧ s' = s) ∨
    (∃ message, answer = .failed message ∧ s'.ledger.leases = s.ledger.leases) ∨
    ∃ token, answer = .next token ∧ s.context.finishChecks leaseId = .ok () ∧
      s'.ledger.leases = match s.ledger.leases with
        | (id, _) :: rest => (id, .finished) :: rest
        | [] => [] := by
  unfold Session.finish at h
  split at h
  · rename_i message hchecks
    cases h
    -- refused: neither error is the one of the history
    refine .inl ⟨message, rfl, ?_, rfl⟩
    rintro rfl
    unfold TalkerContext.finishChecks at hchecks
    refine absurd hchecks (failIf_bind_ne (.inr (by decide)) (failIf_bind_ne (.inr (by decide)) ?_))
    unfold failIf
    split
    · exact fun herror => absurd (Except.error.inj herror) (by decide)
    · exact nofun
  · rename_i hchecks
    split at h
    · rename_i message c hfinish
      cases h
      refine .inr (.inl ⟨message, rfl, ?_⟩)
      show (if outcome.failed then s.ledger else _).leases = _
      split <;> rfl
    · cases h
      exact .inr (.inr ⟨_, rfl, hchecks, rfl⟩)

/-- A finish is refused, fails, or retires the newest lease and gives the next token. -/
theorem disciplined_finish {pool pool' : Pool} (hp : PoolInv pool) {a : Address} {leaseId : UInt64}
    {consumer : Option Nat} {outcome : TalkerContext.FinishOutcome} {answer : Answer}
    (h : pool.call (.finish a leaseId consumer outcome) = some (answer, pool')) :
    Disciplined pool (.finish a leaseId consumer outcome) answer pool' := by
  obtain ⟨s, hs, hanswer, hself, hother⟩ := on_cases h
  obtain ⟨s', hs'⟩ : ∃ s', s' = (s.finish leaseId consumer outcome).2 := ⟨_, rfl⟩
  rw [← hs'] at hself
  have hcases := finish_cases (Prod.ext hanswer.symm hs'.symm)
  have hinv := hp a s hs
  refine {
    leased := fun views heq => ?_
    next := fun token heq => ?_
    first := fun token heq => ?_
    rejected := fun message heq b => ?_
    failed := fun _ _ _ hb => absurd hb List.not_mem_nil
    kept := fun b t hb => ?_
    history := ⟨fun heq => ?_, nofun⟩ }
  · rcases hcases with ⟨_, rfl, -⟩ | ⟨_, rfl, -⟩ | ⟨_, rfl, -⟩ <;> cases heq
  · rcases hcases with ⟨_, rfl, -⟩ | ⟨_, rfl, -⟩ | ⟨_, rfl, hchecks, hleases'⟩
    · cases heq
    · cases heq
    · obtain ⟨rest, hleases, -⟩ := hinv.outstanding hchecks
      rw [hleases] at hleases'
      exact ⟨a, leaseId, consumer, outcome, s, s', rest, rfl, hs, hself, hleases, hleases'⟩
  · rcases hcases with ⟨_, rfl, -⟩ | ⟨_, rfl, -⟩ | ⟨_, rfl, -⟩ <;> cases heq
  · rcases hcases with ⟨_, rfl, -, rfl⟩ | ⟨_, rfl, -⟩ | ⟨_, rfl, -⟩
    · refine contexts_on h (fun t ht => ?_) b
      rw [hs] at ht
      cases ht
      rw [← hs']
    · cases heq
    · cases heq
  · by_cases hba : b = a
    · subst hba
      rw [hs] at hb
      cases hb
      refine ⟨s', hself, fun hspent => ?_⟩
      rcases hcases with ⟨_, -, -, rfl⟩ | ⟨_, -, hleases⟩ | ⟨_, -, hchecks, -⟩
      · exact hspent
      · unfold Session.Spent
        rw [hleases]
        exact hspent
      · -- the only lease that is not finished is the outstanding one
        obtain ⟨rest, hleases, hsettled⟩ := hinv.outstanding hchecks
        obtain ⟨lease, hmem, hfailed⟩ := hspent
        rw [hleases] at hmem
        rcases List.mem_cons.mp hmem with rfl | hmem
        · cases hfailed
        · rw [hsettled lease hmem] at hfailed
          cases hfailed
    · exact ⟨t, by rw [hother b hba, hb], id⟩
  · rcases hcases with ⟨message, rfl, hne, -⟩ | ⟨_, rfl, -⟩ | ⟨_, rfl, -⟩
    · exact hne (Answer.rejected.inj heq)
    · cases heq
    · cases heq

/-- A batch hands out one lease for each slot, or loses every session it names. -/
theorem disciplined_batchBegin {pool pool' : Pool} (hp : PoolInv pool) {slots : List Slot}
    {fault : Option BatchFault} (honce : NamesOnce pool (.batchBegin slots fault))
    {answer : Answer} (h : pool.call (.batchBegin slots fault) = some (answer, pool')) :
    Disciplined pool (.batchBegin slots fault) answer pool' := by
  have hcases := poolBatch_cases hp honce h
  refine {
    leased := fun views heq => ?_
    next := fun token heq => ?_
    first := fun token heq => ?_
    rejected := fun message heq b => ?_
    failed := fun message heq b hb => ?_
    kept := fun b t hb => ?_
    history := ⟨fun heq => ?_, nofun⟩ }
  · rcases hcases with ⟨_, rfl, -⟩ | ⟨hnamed, -, ⟨rfl, hself⟩ | ⟨_, rfl, -⟩⟩
    · cases heq
    · cases heq
      constructor
      · show List.map Prod.fst _ = Pool.names slots
        rw [List.map_filterMap]
        refine (List.filterMap_congr fun a ha => ?_).trans List.filterMap_some
        obtain ⟨s, hs, -⟩ := hnamed a ha
        rw [hs]
        rfl
      · intro view hview
        obtain ⟨a, ha, hsome⟩ := List.mem_filterMap.mp hview
        obtain ⟨s, hs, rfl⟩ := Option.map_eq_some_iff.mp hsome
        obtain ⟨t, ht, haccepts⟩ := hnamed a ha
        rw [hs] at ht
        cases ht
        have hinv := hp a s hs
        refine ⟨s, s.batched, hs, by rw [hself a ha, hs]; rfl, hinv.settled haccepts, ?_,
          hinv.waits, rfl⟩
        cases hended : s.ledger.ended with
        | false => rfl
        | true => exact absurd haccepts.phase (hinv.ended hended)
    · cases heq
  · rcases hcases with ⟨_, rfl, -⟩ | ⟨-, -, ⟨rfl, -⟩ | ⟨_, rfl, -⟩⟩ <;> cases heq
  · rcases hcases with ⟨_, rfl, -⟩ | ⟨-, -, ⟨rfl, -⟩ | ⟨_, rfl, -⟩⟩ <;> cases heq
  · rcases hcases with ⟨_, rfl, rfl, -⟩ | ⟨-, -, ⟨rfl, -⟩ | ⟨_, rfl, -⟩⟩
    · rfl
    · cases heq
    · cases heq
  · rcases hcases with ⟨_, rfl, -⟩ | ⟨hnamed, -, ⟨rfl, -⟩ | ⟨_, rfl, counted, hself⟩⟩
    · cases heq
    · cases heq
    · obtain ⟨s, hs, -⟩ := hnamed b hb
      refine ⟨s.batchFailed (counted b), by rw [hself b hb, hs]; rfl, ?_⟩
      exact ⟨_, List.mem_cons_self, rfl⟩
  · rcases hcases with ⟨_, -, rfl, -⟩ | ⟨hnamed, hother, hout⟩
    · exact ⟨t, hb, id⟩
    · by_cases hmem : b ∈ Pool.names slots
      · -- a session that a begin accepts has no failed lease
        obtain ⟨s, hs, haccepts⟩ := hnamed b hmem
        rw [hs] at hb
        cases hb
        have hnot : ¬ t.Spent := by
          rintro ⟨lease, hlease, hfailed⟩
          rw [(hp b t hs).settled haccepts lease hlease] at hfailed
          cases hfailed
        rcases hout with ⟨-, hself⟩ | ⟨_, -, counted, hself⟩
        · exact ⟨t.batched, by rw [hself b hmem, hs]; rfl, fun h => absurd h hnot⟩
        · exact ⟨t.batchFailed (counted b), by rw [hself b hmem, hs]; rfl, fun h => absurd h hnot⟩
      · exact ⟨t, by rw [hother b hmem, hb], id⟩
  · rcases hcases with ⟨message, rfl, -, hne⟩ | ⟨-, -, ⟨rfl, -⟩ | ⟨_, rfl, -⟩⟩
    · exact hne (Answer.rejected.inj heq)
    · cases heq
    · cases heq

/-- **The lease discipline**: in every state of a run whose batch calls name no session twice, and
for every further such call, whatever failed before. -/
theorem leases_disciplined {pool₀ pool : Pool} (hfresh : pool₀.Fresh) {calls : List Call}
    (honce : Along Pool.step NamesOnce pool₀ calls) (hrun : run Pool.step pool₀ calls = some pool) :
    (∀ a s, assoc pool a = some s → s.Ok) ∧
    ∀ call, NamesOnce pool call → ∀ answer pool', pool.call call = some (answer, pool') →
      Disciplined pool call answer pool' := by
  have hp := poolInv_run hfresh honce hrun
  refine ⟨fun a s hs => (hp a s hs).ok, fun call hcall answer pool' h => ?_⟩
  cases call with
  | unselected message =>
    cases h
    exact ⟨nofun, nofun, nofun, nofun, fun _ _ _ hb => absurd hb List.not_mem_nil,
      fun a s hs => ⟨s, hs, id⟩, nofun, nofun⟩
  | reset a fault => exact disciplined_reset h
  | prefill a steps sampling outcome => exact disciplined_prefill hp h
  | beginFrame a token trailing talkerSampling predictorSampling copy fault =>
    exact disciplined_beginFrame hp h
  | batchBegin slots fault => exact disciplined_batchBegin hp hcall h
  | finish a leaseId consumer outcome => exact disciplined_finish hp h

/-! ## One session -/

/-- A session as the constructor leaves it. -/
def createdAt (base : UInt64) : TalkerContext where
  handles := handlesAt base
  maxSequenceLength := 64
  position := 0
  generatedSemanticCount := 0
  currentSemanticToken := 0
  phase := .ready
  framesGenerated := 0
  deviceSampleCount := 0
  hostSyncCount := 0
  frameInFlight := false
  pendingHostCodeCopy := false
  poisoned := false
  nextLeaseId := 1
  pendingLeaseId := 0
  pendingTalkerPosition := 0

/-- A pool of one new session. -/
def onePool : Pool := [(4096, Session.fresh (createdAt 1000))]

/-- It has taken no lease. -/
theorem onePool_fresh : onePool.Fresh := by
  intro a s hs
  have hmem := mem_of_assoc hs
  obtain ⟨-, rfl⟩ := Prod.mk.inj (List.mem_singleton.mp hmem)
  exact ⟨64, handlesAt 1000, createdAt 1000, rfl, rfl⟩

/-- A prompt of one position, and one frame of the sessions `slots`. -/
def oneFrame (slots : List Slot) (leaseId : UInt64) : List Call :=
  [.prefill 4096 [(1, -1)] greedy (.sampled 5), .batchBegin slots none,
    .finish 4096 leaseId (some 0) (.finished 6)]

/-- The slots of one call name the session twice: the checks pass, and one frame counts twice. -/
theorem leases_undisciplined : onePool.Fresh ∧ ∃ pool s,
    run Pool.step onePool (oneFrame [slotAt 4096, slotAt 4096] 2) = some pool ∧
      assoc pool 4096 = some s ∧ s.ledger.generation = some (1, 1) ∧
      s.context.frameInFlight = false ∧ s.context.poisoned = false ∧ s.context.position = 3 ∧
      ¬ s.Ok := by
  refine ⟨onePool_fresh, ?_⟩
  have hstate : ((run Pool.step onePool (oneFrame [slotAt 4096, slotAt 4096] 2)).bind
      (assoc · 4096)).map (fun s => (s.ledger.generation, s.ledger.leases.map Prod.fst,
        s.context.frameInFlight, s.context.poisoned, s.context.position))
      = some (some (1, 1), [2, 2], false, false, 3) := by
    decide
  obtain ⟨s, hsession, heq⟩ := Option.map_eq_some_iff.mp hstate
  obtain ⟨pool, hrun, hs⟩ := Option.bind_eq_some_iff.mp hsession
  simp only [Prod.mk.injEq] at heq
  obtain ⟨hgen, hleases, hflight, hpoison, hposition⟩ := heq
  refine ⟨pool, s, hrun, hs, hgen, hflight, hpoison, hposition, fun hok => ?_⟩
  have hlength : s.ledger.leases.length = 2 := by
    rw [← List.length_map, hleases]
    rfl
  have hincreasing := hok.increasing (by omega)
  rw [hleases] at hincreasing
  exact absurd hincreasing (by decide)

/-- The same calls with one slot. -/
theorem leases_disciplined_single : ∃ pool s,
    run Pool.step onePool (oneFrame [slotAt 4096] 1) = some pool ∧
      assoc pool 4096 = some s ∧ s.Ok := by
  have hstate : (run Pool.step onePool (oneFrame [slotAt 4096] 1)).isSome = true := by
    decide
  obtain ⟨pool, hrun⟩ := Option.isSome_iff_exists.mp hstate
  have honce : Along Pool.step NamesOnce onePool (oneFrame [slotAt 4096] 1) := by
    refine along_of_forall (fun call hcall pool => ?_) onePool
    simp only [oneFrame, List.mem_cons, List.not_mem_nil, or_false] at hcall
    rcases hcall with rfl | rfl | rfl
    · trivial
    · intro rows _ _
      exact List.nodup_singleton _
    · trivial
  have hdisciplined := leases_disciplined onePool_fresh honce hrun
  have hsession : ((run Pool.step onePool (oneFrame [slotAt 4096] 1)).bind
      (assoc · 4096)).isSome = true := by
    decide
  rw [hrun] at hsession
  obtain ⟨s, hs⟩ := Option.isSome_iff_exists.mp hsession
  exact ⟨pool, s, hrun, hs, hdisciplined.1 4096 s hs⟩

end Qwen3Tts.Talker
