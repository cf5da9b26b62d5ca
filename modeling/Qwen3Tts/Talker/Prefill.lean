import Qwen3Tts.Talker.Leases

/-!
# Talker — begins behind a failed prefill

`prefill` clears position and history first and sets phase and token last; what fails in between
leaves the old phase and the old token with the new position.

* `failed_prefill_bars` — a failed prefill bars every begin up to the next successful one exactly
  when the session was not prefilled before it;
* `failed_prefill_begins` — a prefilled session whose second prompt fails generates a frame.
-/

namespace Qwen3Tts.Talker

open Qwen3Tts.Lib

/-! ## The property -/

namespace Pool

/-- A prefill of the session that succeeds. -/
def Prefills (a : Address) (pool : Pool) (call : Call) : Prop :=
  ∃ steps sampling outcome token pool', call = .prefill a steps sampling outcome ∧
    pool.call call = some (.first token, pool')

/-- Whatever calls follow, no begin on the session succeeds before a prefill has. -/
def Barred (pool : Pool) (a : Address) : Prop :=
  ∀ calls pool', Along step (fun pool call => ¬ pool.Prefills a call) pool calls →
    run step pool calls = some pool' →
      ∀ call, a ∈ call.begins → ∀ views pool'', pool'.call call ≠ some (.leased views, pool'')

end Pool

/-! ## Sessions that are not prefilled -/

/-- No lease is in flight that a finish could turn into a phase. -/
structure Unable (c : TalkerContext) : Prop where
  phase : c.phase ≠ .prefilled
  flight : c.frameInFlight = false

/-- No frame begins, -/
theorem Unable.beginChecks {c : TalkerContext} (hc : Unable c) (token : Nat) (trailing : Int) :
    ∃ message, c.beginChecks token trailing = .error message := by
  cases h : c.beginChecks token trailing with
  | error message => exact ⟨message, rfl⟩
  | ok u => exact absurd (beginChecks_eq_ok h).2.2.1 hc.phase

/-- and none is finished. -/
theorem Unable.finishChecks {c : TalkerContext} (hc : Unable c) (leaseId : UInt64) :
    ∃ message, c.finishChecks leaseId = .error message := by
  cases h : c.finishChecks leaseId with
  | error message => exact ⟨message, rfl⟩
  | ok u =>
    have hflight := (finishChecks_eq_ok h).2.1
    rw [hc.flight] at hflight
    cases hflight

/-- A reset does not prefill. -/
theorem unable_reset {s : Session} (hs : Unable s.context) (fault : Option String) :
    Unable (s.reset fault).2.context := by
  unfold Session.reset
  split
  · exact hs
  · rename_i c hreset
    have hc : Unable c := by
      unfold TalkerContext.reset at hreset
      split at hreset
      · cases hreset
      · cases hreset
        exact ⟨nofun, hs.flight⟩
    cases fault with
    | none => exact hc
    | some message => exact hc

/-- A prefill that does not succeed keeps phase and lease. -/
theorem unable_prefill {s : Session} (hs : Unable s.context) {steps : List (Int × Int)}
    {sampling : SamplingConfig} {outcome : TalkerContext.PrefillOutcome}
    (hfail : ∀ token, (s.prefill steps sampling outcome).1 ≠ .first token) :
    Unable (s.prefill steps sampling outcome).2.context := by
  unfold Session.prefill at hfail ⊢
  split
  · exact hs
  · rename_i hchecks
    rw [hchecks] at hfail
    split
    · rename_i message c hprefill
      obtain ⟨hkept, hphase, -⟩ := prefill_spec hchecks hprefill
      exact ⟨hphase ▸ hs.phase, hkept.flight.trans hs.flight⟩
    · rename_i first c hprefill
      simp only [hprefill] at hfail
      exact absurd rfl (hfail first)

/-- A begin is refused without a trace, -/
theorem begin_unable {a : Address} {s : Session} (hs : Unable s.context) (token : Nat)
    (trailing : Int) (talkerSampling predictorSampling : SamplingConfig) (copy : Bool)
    (fault : Option (TalkerContext.BeginPoint × String)) :
    ∃ message, s.beginFrame a token trailing talkerSampling predictorSampling copy fault
      = (.rejected message, s) := by
  obtain ⟨message, hchecks⟩ := hs.beginChecks token trailing
  exact ⟨message, by rw [Session.beginFrame, hchecks]⟩

/-- and so is a finish. -/
theorem finish_unable {s : Session} (hs : Unable s.context) (leaseId : UInt64)
    (consumer : Option Nat) (outcome : TalkerContext.FinishOutcome) :
    (s.finish leaseId consumer outcome).2 = s := by
  obtain ⟨message, hchecks⟩ := hs.finishChecks leaseId
  rw [Session.finish, hchecks]

/-! ## Batch calls -/

/-- A batch call that names an unable session is rejected. -/
theorem batch_unable {pool pool' : Pool} {a : Address}
    (hp : ∀ s, assoc pool a = some s → Unable s.context) {slots : List Slot}
    (ha : a ∈ Pool.names slots) {fault : Option BatchFault} {answer : Answer}
    (h : pool.batchBegin slots fault = some (answer, pool')) :
    (∃ message, answer = .rejected message) ∧ pool' = pool := by
  obtain ⟨rows, hrows, heq⟩ := Option.map_eq_some_iff.mp h
  cases hpreamble : preamble rows with
  | error message =>
    rw [hpreamble] at heq
    cases heq
    exact ⟨⟨message, rfl⟩, rfl⟩
  | ok u =>
    obtain ⟨s, hs, haccepts⟩ := accepts_of_preamble hrows hpreamble ha
    exact absurd haccepts.phase (hp s hs).phase

/-- A batch call leaves a session alone that it does not name. -/
theorem batch_other {pool pool' : Pool} {a : Address} {slots : List Slot}
    (ha : a ∉ Pool.names slots) {fault : Option BatchFault} {answer : Answer}
    (h : pool.batchBegin slots fault = some (answer, pool')) : assoc pool' a = assoc pool a := by
  obtain ⟨rows, hrows, heq⟩ := Option.map_eq_some_iff.mp h
  split at heq
  · cases heq
    rfl
  · cases fault with
    | none =>
      cases heq
      simp only [assoc_modifyEach_of_notMem ha]
    | some fault =>
      cases heq
      cases fault with
      | beforeLaunch => simp only [assoc_modifyEach_of_notMem ha]
      | rejoin row =>
        have hprefix : a ∉ Pool.names (slots.take (row + 1)) := fun hmem =>
          ha (List.map_subset _ (List.take_subset _ _) hmem)
        simp only [assoc_modifyEach_of_notMem ha, assoc_modifyEach_of_notMem hprefix]

/-! ## A session stays unable -/

/-- A call on one session, as the session sees it. -/
theorem unable_on {pool pool' : Pool} {a b : Address} {f : Session → Answer × Session}
    {answer : Answer} (hp : ∀ s, assoc pool a = some s → Unable s.context)
    (hf : ∀ s, b = a → assoc pool a = some s → Unable s.context → answer = (f s).1 →
      Unable (f s).2.context)
    (h : pool.on b f = some (answer, pool')) :
    ∀ s, assoc pool' a = some s → Unable s.context := by
  obtain ⟨s, hs, hanswer, hself, hother⟩ := on_cases h
  intro t ht
  by_cases hab : a = b
  · subst hab
    rw [hself] at ht
    cases ht
    exact hf s rfl hs (hp s hs) hanswer
  · rw [hother a hab] at ht
    exact hp t ht

/-- Every call but a prefill of this session. -/
theorem unable_call {pool pool' : Pool} {a : Address}
    (hp : ∀ s, assoc pool a = some s → Unable s.context) {call : Call}
    (hno : ¬ pool.Prefills a call) {answer : Answer}
    (h : pool.call call = some (answer, pool')) :
    ∀ s, assoc pool' a = some s → Unable s.context := by
  cases call with
  | unselected message =>
    cases h
    exact hp
  | reset b fault => exact unable_on hp (fun s _ _ hs _ => unable_reset hs fault) h
  | prefill b steps sampling outcome =>
    refine unable_on hp (fun s hb _ hs hanswer => unable_prefill hs fun token htoken => ?_) h
    -- the answer would be that of a successful prefill of this session
    subst hb
    exact hno ⟨steps, sampling, outcome, token, pool', rfl, by rw [h, hanswer, htoken]⟩
  | beginFrame b token trailing talkerSampling predictorSampling copy fault =>
    refine unable_on hp (fun s _ _ hs _ => ?_) h
    obtain ⟨message, hbegin⟩ :=
      @begin_unable b s hs token trailing talkerSampling predictorSampling copy fault
    rw [hbegin]
    exact hs
  | batchBegin slots fault =>
    by_cases ha : a ∈ Pool.names slots
    · obtain ⟨-, rfl⟩ := batch_unable hp ha h
      exact hp
    · intro s hs
      rw [batch_other ha h] at hs
      exact hp s hs
  | finish b leaseId consumer outcome =>
    refine unable_on hp (fun s _ _ hs _ => ?_) h
    rw [finish_unable hs]
    exact hs

/-- **No begin succeeds for an unable session.** -/
theorem barred_of_unable {pool : Pool} {a : Address}
    (hp : ∀ s, assoc pool a = some s → Unable s.context) : pool.Barred a := by
  intro calls pool' hno hrun call ha views pool'' hcall
  have hp' : ∀ s, assoc pool' a = some s → Unable s.context := by
    refine @invariant_of_step _ _ _ _ (fun p : Pool => ∀ s, assoc p a = some s → Unable s.context)
      (fun p call p' hunable hcall hstep => ?_) _ _ _ hp hno hrun
    obtain ⟨⟨answer, p''⟩, hanswer, rfl⟩ := Option.map_eq_some_iff.mp hstep
    exact unable_call hunable hcall hanswer
  cases call with
  | beginFrame b token trailing talkerSampling predictorSampling copy fault =>
    obtain rfl := List.mem_singleton.mp ha
    obtain ⟨s, hs, hanswer, -, -⟩ := on_cases hcall
    obtain ⟨message, hbegin⟩ :=
      @begin_unable a s (hp' s hs) token trailing talkerSampling predictorSampling copy fault
    rw [hbegin] at hanswer
    cases hanswer
  | batchBegin slots fault =>
    obtain ⟨⟨message, hanswer⟩, -⟩ := batch_unable hp' ha hcall
    cases hanswer
  | unselected message => exact absurd ha List.not_mem_nil
  | reset b fault => exact absurd ha List.not_mem_nil
  | prefill b steps sampling outcome => exact absurd ha List.not_mem_nil
  | finish b leaseId consumer outcome => exact absurd ha List.not_mem_nil

/-! ## The token of a prefilled session

It can be expanded, in every run: only a validated token comes with the phase. -/

/-- A prefilled session has a token to go on with. -/
def TokenOk (s : Session) : Prop :=
  s.context.phase = .prefilled →
    s.context.currentSemanticToken ≠ kCodecEos ∧ s.context.currentSemanticToken < kTalkerVocabulary

/-- The token depends on the phase and on the token itself. -/
theorem TokenOk.sameTurn {s s' : Session} (h : TokenOk s) (hsame : SameTurn s.context s'.context) :
    TokenOk s' := by
  intro hphase
  rw [hsame.token]
  exact h (hsame.phase ▸ hphase)

/-- A reset leaves the prefilled phase. -/
theorem tokenOk_reset {s : Session} (hs : TokenOk s) (fault : Option String) :
    TokenOk (s.reset fault).2 := by
  unfold Session.reset
  split
  · exact hs
  · rename_i c hreset
    have hready : c.phase ≠ .prefilled := by
      unfold TalkerContext.reset at hreset
      split at hreset
      · cases hreset
      · cases hreset
        exact nofun
    cases fault with
    | none => exact fun hphase => absurd hphase hready
    | some message => exact fun hphase => absurd hphase hready

/-- A prefill sets the token with the phase. -/
theorem tokenOk_prefill {s : Session} (hs : TokenOk s) (steps : List (Int × Int))
    (sampling : SamplingConfig) (outcome : TalkerContext.PrefillOutcome) :
    TokenOk (s.prefill steps sampling outcome).2 := by
  unfold Session.prefill
  split
  · exact hs
  · rename_i hchecks
    split
    · rename_i message c hprefill
      obtain ⟨hkept, hphase, htoken⟩ := prefill_spec hchecks hprefill
      exact hs.sameTurn ⟨hphase, htoken, hkept.max⟩
    · rename_i first c hprefill
      obtain ⟨-, hfirst, hphase, htoken, -⟩ := prefill_spec hchecks hprefill
      intro hprefilled
      show c.currentSemanticToken ≠ _ ∧ c.currentSemanticToken < _
      rw [htoken]
      exact ⟨phaseAfter_prefilled (hphase ▸ hprefilled), hfirst⟩

/-- A begin keeps both. -/
theorem tokenOk_beginFrame {a : Address} {s : Session} (hs : TokenOk s) {token : Nat}
    {trailing : Int} {talkerSampling predictorSampling : SamplingConfig} {copy : Bool}
    {fault : Option (TalkerContext.BeginPoint × String)} :
    TokenOk (s.beginFrame a token trailing talkerSampling predictorSampling copy fault).2 := by
  unfold Session.beginFrame
  split
  · exact hs
  · have hcounted := runFrame_counted
      { s.context.lease with pendingHostCodeCopy := copy } talkerSampling predictorSampling fault
    cases hrun : TalkerContext.runFrame { s.context.lease with pendingHostCodeCopy := copy }
      talkerSampling predictorSampling fault with
    | mk r c =>
      rw [hrun] at hcounted
      simp only [TalkerContext.leaseFrame, hrun]
      have hturn := hcounted.toSameTurn
      cases r with
      | error message => exact @TokenOk.sameTurn s _ hs ⟨hturn.phase, hturn.token, hturn.max⟩
      | ok u => exact @TokenOk.sameTurn s _ hs ⟨hturn.phase, hturn.token, hturn.max⟩

/-- A finish sets the next token, or leaves the phase. -/
theorem tokenOk_finish {s : Session} (hs : TokenOk s) (leaseId : UInt64) (consumer : Option Nat)
    (outcome : TalkerContext.FinishOutcome) : TokenOk (s.finish leaseId consumer outcome).2 := by
  unfold Session.finish
  split
  · exact hs
  · rename_i hchecks
    split
    · rename_i message c hfinish
      have hc := finishFrame_spec hchecks hfinish
      refine hs.sameTurn ?_
      show SameTurn s.context c
      rw [hc]
      exact ⟨rfl, rfl, rfl⟩
    · rename_i token c hfinish
      obtain ⟨htoken, hc⟩ := finishFrame_spec hchecks hfinish
      rw [hc]
      exact fun hphase => ⟨phaseAfter_prefilled hphase, htoken⟩

/-- A change that keeps both. -/
theorem tokenOk_onContext {f : TalkerContext → TalkerContext} (hf : ∀ c, SameTurn c (f c))
    (s : Session) (hs : TokenOk s) : TokenOk (s.onContext f) :=
  hs.sameTurn (hf s.context)

/-- A batch is a begin on each of its sessions. -/
theorem tokenOk_batchBegin {pool pool' : Pool} (hp : ∀ a s, assoc pool a = some s → TokenOk s)
    {slots : List Slot} {fault : Option BatchFault} {answer : Answer}
    (h : pool.batchBegin slots fault = some (answer, pool')) :
    ∀ a s, assoc pool' a = some s → TokenOk s := by
  have hlease := tokenOk_onContext fun c => (⟨rfl, rfl, rfl⟩ : SameTurn c c.lease)
  have hadvance := tokenOk_onContext fun c => (⟨rfl, rfl, rfl⟩ : SameTurn c c.advance)
  have hpoison := tokenOk_onContext fun c => (⟨rfl, rfl, rfl⟩ : SameTurn c c.poison)
  have henter : ∀ state s, TokenOk s → TokenOk (Session.enter state s) := fun _ _ h => h
  obtain ⟨rows, hrows, heq⟩ := Option.map_eq_some_iff.mp h
  split at heq
  · cases heq
    exact hp
  · have hleased := @forall_modifyEach _ _ _ _ _ (Pool.names slots) _ hlease hp
    cases fault with
    | none =>
      cases heq
      exact forall_modifyEach (henter _) (forall_modifyEach hadvance hleased)
    | some fault =>
      cases heq
      refine forall_modifyEach hpoison (forall_modifyEach (henter _) ?_)
      cases fault with
      | beforeLaunch => exact hleased
      | rejoin row => exact forall_modifyEach hadvance hleased

/-- A call on one session. -/
theorem tokenOk_on {pool pool' : Pool} (hp : ∀ a s, assoc pool a = some s → TokenOk s)
    {b : Address} {f : Session → Answer × Session} (hf : ∀ s, TokenOk s → TokenOk (f s).2)
    {answer : Answer} (h : pool.on b f = some (answer, pool')) :
    ∀ a s, assoc pool' a = some s → TokenOk s := by
  obtain ⟨s, hs, -, hself, hother⟩ := on_cases h
  intro a t ht
  by_cases hab : a = b
  · subst hab
    rw [hself] at ht
    cases ht
    exact hf s (hp a s hs)
  · rw [hother a hab] at ht
    exact hp a t ht

/-- The token of a prefilled session can be expanded, whatever calls were made. -/
theorem tokenOk_run {pool₀ pool : Pool} (hfresh : pool₀.Fresh) {calls : List Call}
    (hrun : run Pool.step pool₀ calls = some pool) : ∀ a s, assoc pool a = some s → TokenOk s := by
  have hinit : ∀ a s, assoc pool₀ a = some s → TokenOk s := by
    intro a s hs
    obtain ⟨maxSequenceLength, handles, c, hnew, rfl⟩ := hfresh a s hs
    exact (sessionInv_fresh hnew).token
  refine @invariant_of_step _ _ _ (fun _ _ => True)
    (fun p : Pool => ∀ a s, assoc p a = some s → TokenOk s) (fun p call p' hp _ hstep => ?_) _ _ _
    hinit (along_trivial (fun _ _ => trivial) _ _) hrun
  obtain ⟨⟨answer, p''⟩, h, rfl⟩ := Option.map_eq_some_iff.mp hstep
  cases call with
  | unselected message =>
    cases h
    exact hp
  | reset a fault => exact tokenOk_on hp (fun s hs => tokenOk_reset hs fault) h
  | prefill a steps sampling outcome =>
    exact tokenOk_on hp (fun s hs => tokenOk_prefill hs steps sampling outcome) h
  | beginFrame a token trailing talkerSampling predictorSampling copy fault =>
    exact tokenOk_on hp (fun s hs => tokenOk_beginFrame hs) h
  | batchBegin slots fault => exact tokenOk_batchBegin hp h
  | finish a leaseId consumer outcome =>
    exact tokenOk_on hp (fun s hs => tokenOk_finish hs leaseId consumer outcome) h

/-! ## A prefilled session generates -/

/-- A `try` block with room in the history, no CUDA call of which fails. -/
theorem runFrame_greedy {c : TalkerContext} (hcount : c.generatedSemanticCount < c.maxSequenceLength) :
    (c.runFrame greedy greedy none).1 = .ok () := by
  have hvalid : greedy.valid = true := by decide
  have hsampling : c.talkerStep.samplingChecks greedy = .ok () := by
    simp only [TalkerContext.samplingChecks, bind_eq_ok, failIf_eq_ok]
    exact ⟨(), by decide, Nat.not_le_of_lt hcount⟩
  unfold TalkerContext.runFrame
  rw [hvalid]
  show (c.talkerStep.sampleTalker greedy none).1 = .ok ()
  unfold TalkerContext.sampleTalker
  rw [hsampling]

/-- A begin with the session's own token, for a session with room. -/
theorem beginFrame_leased {a : Address} {s : Session} (hpoison : s.context.poisoned = false)
    (hflight : s.context.frameInFlight = false) (hphase : s.context.phase = .prefilled)
    (htoken : TokenOk s) (hposition : s.context.position < s.context.maxSequenceLength)
    (hcount : s.context.generatedSemanticCount < s.context.maxSequenceLength) :
    ∃ leaseId, (s.beginFrame a s.context.currentSemanticToken 0 greedy greedy false none).1
      = .leased [(a, leaseId)] := by
  obtain ⟨heos, hvocabulary⟩ := htoken hphase
  have hchecks : s.context.beginChecks s.context.currentSemanticToken 0 = .ok () := by
    simp only [TalkerContext.beginChecks, bind_eq_ok, failIf_eq_ok]
    refine ⟨(), by simp [hpoison], (), by simp [hflight], (), by simp [hphase], (), heos, (),
      by omega, (), by simp, (), ?_, by omega⟩
    rintro (hneg | htext)
    · omega
    · exact absurd htext (by decide)
  have hframe := @runFrame_greedy { s.context.lease with pendingHostCodeCopy := false } hcount
  unfold Session.beginFrame
  rw [hchecks]
  cases hrun : TalkerContext.runFrame { s.context.lease with pendingHostCodeCopy := false }
    greedy greedy none with
  | mk r c =>
    rw [hrun] at hframe
    obtain rfl : r = .ok () := hframe
    simp only [TalkerContext.leaseFrame, hrun]
    exact ⟨_, rfl⟩

/-- The session behind a prompt that fails at its first position. -/
def Session.emptied (s : Session) : Session where
  context := { s.context with position := 0, generatedSemanticCount := 0 }
  ledger := { s.ledger with generation := none }

/-- A position that holds nothing fails behind the checks. -/
theorem prefill_empty_position {s : Session} (hpoison : s.context.poisoned = false)
    (hflight : s.context.frameInFlight = false) (hmax : 1 ≤ s.context.maxSequenceLength) :
    (s.prefill [(-1, -1)] greedy (.promptFailed "")) =
      (.failed "a prompt position must contain text or codec input", s.emptied) := by
  have hchecks : s.context.prefillChecks [(-1, -1)] = .ok () := by
    simp only [TalkerContext.prefillChecks, bind_eq_ok, failIf_eq_ok]
    exact ⟨(), by simp [hpoison], (), by simp [hflight], (), by simp, Nat.not_lt.mpr hmax⟩
  have hprompt : [((-1 : Int), (-1 : Int))].forM TalkerContext.preparePromptEmbedding
      = .error "a prompt position must contain text or codec input" := by
    rfl
  unfold Session.prefill TalkerContext.prefill
  simp only [hchecks, hprompt]
  rfl

/-- What a failed prefill leaves is enough for a begin when the session was prefilled: another
failing prompt makes room, then the old token is expanded. -/
theorem not_barred_of_prefilled {pool pool' : Pool} {a : Address} {s : Session}
    (hs : assoc pool a = some s) (htoken : TokenOk s) (hphase : s.context.phase = .prefilled)
    {steps : List (Int × Int)} {sampling : SamplingConfig}
    {outcome : TalkerContext.PrefillOutcome} {message : String}
    (h : pool.call (.prefill a steps sampling outcome) = some (.failed message, pool')) :
    ¬ pool'.Barred a := by
  obtain ⟨t, ht, hanswer, hself, -⟩ := on_cases h
  rw [hs] at ht
  cases ht
  -- the session behind the failed prefill
  obtain ⟨s', hs'⟩ : ∃ s', s' = (s.prefill steps sampling outcome).2 := ⟨_, rfl⟩
  rw [← hs'] at hself
  have htoken' : TokenOk s' := hs' ▸ tokenOk_prefill htoken steps sampling outcome
  have hleft : s'.context.poisoned = false ∧ s'.context.frameInFlight = false ∧
      s'.context.phase = .prefilled ∧ 1 ≤ s'.context.maxSequenceLength := by
    unfold Session.prefill at hanswer hs'
    split at hs'
    · rename_i hchecks
      simp only [hchecks] at hanswer
      cases hanswer
    · rename_i hchecks
      obtain ⟨hpoison, hflight, hsteps, hmax⟩ := prefillChecks_eq_ok hchecks
      have hlength : 1 ≤ steps.length := List.length_pos_iff.mpr hsteps
      split at hs'
      · rename_i c hprefill
        obtain ⟨hkept, hphase', -⟩ := prefill_spec hchecks hprefill
        rw [hs']
        refine ⟨hkept.poisoned.trans hpoison, hkept.flight.trans hflight, hphase'.trans hphase, ?_⟩
        show 1 ≤ TalkerContext.maxSequenceLength _
        rw [hkept.max]
        omega
      · rename_i hprefill
        simp only [hchecks, hprefill] at hanswer
        cases hanswer
  obtain ⟨hpoison, hflight, hphase', hmax⟩ := hleft
  -- a failing prompt clears position and history, which leaves room for a frame
  have hempty := prefill_empty_position hpoison hflight hmax
  have hfail : pool'.call (.prefill a [(-1, -1)] greedy (.promptFailed ""))
      = some (.failed "a prompt position must contain text or codec input",
          modifyAt a (fun _ => s'.emptied) pool') := by
    show Pool.on pool' a _ = _
    rw [Pool.on, hself, Option.map_some, hempty]
  obtain ⟨leaseId, hbegin⟩ :=
    @beginFrame_leased a s'.emptied hpoison hflight hphase' htoken' hmax hmax
  intro hbarred
  refine hbarred [.prefill a [(-1, -1)] greedy (.promptFailed "")]
    (modifyAt a (fun _ => s'.emptied) pool') ⟨?_, fun _ _ => trivial⟩ ?_
    (.beginFrame a s'.emptied.context.currentSemanticToken 0 greedy greedy false none)
    (List.mem_singleton.mpr rfl) [(a, leaseId)]
    (modifyAt a (fun _ => (s'.emptied.beginFrame a s'.emptied.context.currentSemanticToken 0 greedy
      greedy false none).2) (modifyAt a (fun _ => s'.emptied) pool')) ?_
  · rintro ⟨_, _, _, _, _, -, hfirst⟩
    rw [hfail] at hfirst
    cases hfirst
  · refine run_cons.mpr ⟨_, ?_, rfl⟩
    rw [Pool.step, hfail]
    rfl
  · show Pool.on _ a _ = _
    rw [Pool.on, assoc_modifyAt, if_pos rfl, hself]
    simp only [Option.map_some, hbegin]

/-- **A failed prefill bars every begin exactly when the session was not prefilled before.** -/
theorem failed_prefill_bars {pool₀ pool : Pool} (hfresh : pool₀.Fresh) {calls : List Call}
    (hrun : run Pool.step pool₀ calls = some pool) {a : Address} {s : Session}
    (hs : assoc pool a = some s) {steps : List (Int × Int)} {sampling : SamplingConfig}
    {outcome : TalkerContext.PrefillOutcome} {message : String} {pool' : Pool}
    (h : pool.call (.prefill a steps sampling outcome) = some (.failed message, pool')) :
    pool'.Barred a ↔ s.context.phase ≠ .prefilled := by
  constructor
  · intro hbarred hphase
    exact not_barred_of_prefilled hs (tokenOk_run hfresh hrun a s hs) hphase h hbarred
  · intro hphase
    refine barred_of_unable fun s' hs' => ?_
    obtain ⟨t, ht, hanswer, hself, -⟩ := on_cases h
    rw [hs] at ht
    cases ht
    rw [hself] at hs'
    cases hs'
    -- the checks of the failed prefill leave no lease in flight
    have hflight : s.context.frameInFlight = false := by
      unfold Session.prefill at hanswer
      split at hanswer
      · cases hanswer
      · rename_i hchecks
        exact (prefillChecks_eq_ok hchecks).2.1
    refine unable_prefill ⟨hphase, hflight⟩ fun token htoken => ?_
    rw [htoken] at hanswer
    cases hanswer

/-- A prompt and one frame, behind which the session has ended. -/
def callsToEnd : List Call :=
  [.prefill 4096 [(1, -1)] greedy (.sampled 5), .beginFrame 4096 5 0 greedy greedy false none,
    .finish 4096 1 (some 0) (.finished kCodecEos)]

set_option maxRecDepth 20000 in
/-- A fresh session whose first prompt fails, and an ended session whose second prompt fails. -/
theorem failed_prefill_bars_ended :
    (∃ pool', onePool.call (.prefill 4096 [(-1, -1)] greedy (.sampled 5)) =
      some (.failed "a prompt position must contain text or codec input", pool') ∧
      pool'.Barred 4096) ∧
    ∃ pool s pool', run Pool.step onePool callsToEnd = some pool ∧ assoc pool 4096 = some s ∧
      s.context.phase = .ended ∧ s.ledger.ended = true ∧
      pool.call (.prefill 4096 [(-1, -1)] greedy (.sampled 5)) =
        some (.failed "a prompt position must contain text or codec input", pool') ∧
      pool'.Barred 4096 := by
  constructor
  · exact ⟨_, rfl, (@failed_prefill_bars onePool onePool onePool_fresh [] rfl 4096 _ rfl [(-1, -1)]
      greedy (.sampled 5) _ _ rfl).mpr (by decide)⟩
  · obtain ⟨pool, hrun⟩ := Option.isSome_iff_exists.mp
      (show (run Pool.step onePool callsToEnd).isSome = true by decide)
    cases hrun
    exact ⟨_, _, _, rfl, rfl, by decide, by decide, rfl,
      (@failed_prefill_bars onePool _ onePool_fresh callsToEnd rfl 4096 _ rfl [(-1, -1)]
        greedy (.sampled 5) _ _ rfl).mpr (by decide)⟩

set_option maxRecDepth 20000 in
/-- The session generates behind the prompt that failed. -/
theorem failed_prefill_begins : onePool.Fresh ∧ ∃ pool₁ pool₂ pool₃ views,
    onePool.call (.prefill 4096 [(1, -1)] greedy (.sampled 5)) = some (.first 5, pool₁) ∧
    pool₁.call (.prefill 4096 [(-1, -1)] greedy (.sampled 5)) =
      some (.failed "a prompt position must contain text or codec input", pool₂) ∧
    pool₁ ≠ pool₂ ∧
    pool₂.call (.beginFrame 4096 5 0 greedy greedy false none) = some (.leased views, pool₃) :=
  ⟨onePool_fresh, _, _, _, _, rfl, rfl, by decide, rfl⟩

end Qwen3Tts.Talker
