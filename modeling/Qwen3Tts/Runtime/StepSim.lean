import Qwen3Tts.Runtime.Accept
import Qwen3Tts.Runtime.WorkerSim

/-!
# Runtime — simulation of one round over `active`

`remove_cancelled`, the selection of eligible requests, `step_eligible` and `remove_finished`.
During a round the tag of an element of `active` is looked up by its id in the lists the round
carries; the lemmas of the first section compute these lookups before and after a list gets
longer or shorter.
-/

namespace Qwen3Tts.Runtime

open Qwen3Tts.Lib Sys

/-! ## Tags -/

section Tags

variable {r : ActiveRequest} {id : Nat} {todo : List (Selected × Except FailureCause BackendPacket)}
  {selected : List Selected} {entry : Selected} {result : Except FailureCause BackendPacket}

/-- With distinct keys the search by the key of an element finds that element and no other one. -/
theorem find?_of_nodup {α : Type} {key : α → Nat} {l : List α} {x : α}
    (hnodup : (l.map key).Nodup) (hx : x ∈ l) : l.find? (fun y => key y = key x) = some x := by
  induction l with
  | nil => cases hx
  | cons y l ih =>
    rw [List.map_cons, List.nodup_cons] at hnodup
    rcases List.mem_cons.mp hx with rfl | hmem
    · simp
    · have hne : key y ≠ key x := fun heq => hnodup.1 (heq ▸ List.mem_map_of_mem hmem)
      rw [List.find?_cons_of_neg (by simpa using hne)]
      exact ih hnodup.2 hmem

/-- A new element at the end of a list without duplicates. -/
theorem nodup_snoc {α : Type} {l : List α} {x : α} (hx : x ∉ l) (hl : l.Nodup) :
    (l ++ [x]).Nodup := by
  rw [← List.concat_eq_append]
  exact hl.concat hx

/-- A key that occurs nowhere is not found. -/
theorem find?_none_of_not_mem {α : Type} {key : α → Nat} {l : List α} (h : id ∉ l.map key) :
    l.find? (fun y => key y = id) = none := by
  rw [List.find?_eq_none]
  intro y hy heq
  exact h (List.mem_map.mpr ⟨y, hy, by simpa using heq⟩)

namespace Control

/-- A request whose entry is in the list is selected, with that entry. The ids of the list are
distinct, so the lookup cannot return another one. -/
theorem selectedTag_of_mem (hnodup : (selected.map (·.id)).Nodup) (h : entry ∈ selected)
    (hid : entry.id = r.id) : selectedTag selected r = .selected r entry := by
  unfold selectedTag
  rw [← hid, find?_of_nodup hnodup h]

/-- A request without an entry is still an active one. -/
theorem selectedTag_of_not_mem (h : r.id ∉ selected.map (·.id)) :
    selectedTag selected r = .active r := by
  unfold selectedTag
  rw [find?_none_of_not_mem h]

/-- The entry of another request does not change the tag. -/
theorem selectedTag_concat_ne (h : entry.id ≠ r.id) :
    selectedTag (selected ++ [entry]) r = selectedTag selected r := by
  unfold selectedTag
  rw [List.find?_append, List.find?_cons_of_neg (by simpa using h), List.find?_nil, Option.or_none]

/-- A request whose result is still to be settled has been stepped, with that result. -/
theorem settleTag_of_mem (hnodup : (todo.map (·.1.id)).Nodup) (h : (entry, result) ∈ todo)
    (hid : entry.id = r.id) : settleTag todo r = .stepped r entry result := by
  have hfind : todo.find? (fun o => o.1.id = r.id) = some (entry, result) := by
    rw [← hid]
    exact find?_of_nodup hnodup h
  unfold settleTag
  rw [hfind]

/-- A request without an open result is settled. -/
theorem settleTag_of_not_mem (h : r.id ∉ todo.map (·.1.id)) : settleTag todo r = .settled r := by
  have hfind : todo.find? (fun o => o.1.id = r.id) = none := find?_none_of_not_mem h
  unfold settleTag
  rw [hfind]

/-- The result of another request does not change the tag. -/
theorem settleTag_cons_ne (h : entry.id ≠ r.id) :
    settleTag ((entry, result) :: todo) r = settleTag todo r := by
  unfold settleTag
  rw [List.find?_cons_of_neg (by simpa using h)]

end Control

end Tags

section Round

variable {s s' : Sys} {a : Action}

/-- Outside a scan every element of `active` has the tag that the program counter gives it. -/
theorem activeStages_tag {control : Control} {f : ActiveRequest → Stage}
    {active : List ActiveRequest} (hscan : control.scan = none) (htag : control.tag = f) :
    activeStages control active = tagged f active := by
  unfold activeStages
  rw [hscan, htag]

/-! ## `remove_cancelled` -/

/-- One turn of `remove_cancelled`: it goes on behind the last element, moves a cancelled request
out of `active` and into its retirement, or steps over a request that goes on. -/
theorem sim_removeCancelled {index : Nat} (hs : Coherent s)
    (hc : s.worker.control = .removeCancelled index) : Sim s a (s.removeCancelled index) := by
  have hheld : s.worker.control.held = [] := by rw [hc]; rfl
  have hactive : activeStages s.worker.control s.worker.active = tagged .active s.worker.active := by
    rw [hc]; rfl
  unfold Sys.removeCancelled
  cases hget : s.worker.active[index]? with
  | none =>
    -- The scan is over: no request changes its stage.
    refine sim_goto hs hheld.symm ?_ rfl (.empty rfl (by simp [Control.pastActive]))
    rw [hactive]
    exact activeStages_tag rfl (by funext r; simp [Control.tag])
  | some r =>
    dsimp only
    split
    · rename_i hflag
      -- A cancelled request leaves `active`; `swap_remove` only permutes the others.
      refine sim_worker r.id (.active r) (some (.retiringActive (.cancelBackend (some .cancelled)) r))
        (s.requests r.id) [] (tagged .active s.worker.active) [_]
        (tagged .active (swapRemove s.worker.active index)) hs (WorkerOnly.of_worker _ _ _ _) hheld
        hactive rfl rfl ?_ ?_ rfl le_rfl (Function.update_eq_self _ _).symm
        ⟨.quiet, trivial, .removeCancelled hflag⟩ (.idle rfl rfl) (.inl rfl)
      · exact List.mem_map.mpr ⟨r, List.mem_of_getElem? hget, rfl⟩
      · refine perm_of_count fun x => ?_
        have hcount := ((swapRemove_perm hget).map fun r => (r.id, Stage.active r)).count_eq x
        simp only [List.map_cons, List.count_cons] at hcount
        simp only [tagged, Option.toList, List.map_cons, List.map_nil, List.count_cons,
          List.count_append, List.count_nil]
        omega
    · exact sim_goto hs hheld.symm hactive.symm rfl (.idle rfl rfl)

/-! ## Selection -/

/-- One turn of the selection: the list of eligible ids is complete, the request at `index` is
passed over, or its pool is asked next. The eligible ids are among the requests in front of `index`,
so no id is selected twice. -/
theorem sim_select {index : Nat} {eligible : List Nat} (hs : Coherent s)
    (hc : s.worker.control = .select index eligible) : Sim s a (s.select index eligible) := by
  have hwindow := hs.window
  have hnodup := hwindow.nodup
  have hsubset := hwindow.subset
  have hbehind := hwindow.behind
  rw [hc] at hnodup hsubset hbehind
  have hheld : s.worker.control.held = [] := by rw [hc]; rfl
  unfold Sys.select
  cases hget : s.worker.active[index]? with
  | none =>
    dsimp only
    split
    · rename_i hempty
      -- Nothing is eligible: the round ends without a `step_batch`.
      rw [List.isEmpty_iff] at hempty
      subst hempty
      refine sim_goto hs hheld.symm ?_ rfl (.idle rfl rfl)
      rw [hc]
      exact (activeStages_tag rfl (by funext r; simp [Control.tag])).symm
    · refine sim_goto hs hheld.symm (by rw [hc]; rfl) rfl ⟨?_, ?_, ?_, ?_⟩
      · simpa [Control.window] using hnodup
      · simpa [Control.window] using hsubset
      · simp [Control.selecting]
      · simp [Control.pastActive]
  | some r =>
    dsimp only
    split
    · exact sim_goto hs hheld.symm (by rw [hc]; rfl) rfl
        ⟨hnodup, hsubset, hbehind, by simp [Control.pastActive]⟩
    · refine sim_goto hs hheld.symm (by rw [hc]; rfl) rfl
        ⟨hnodup, hsubset, fun i hi => ?_, by simp [Control.pastActive]⟩
      -- The prefix in front of `index` has grown by one element.
      cases hi
      intro id hid
      have h := hbehind index rfl hid
      rw [List.map_take] at h ⊢
      exact List.mem_of_mem_take (i := index) (by rw [List.take_take]; simpa using h)

/-- The pool's answer: with a free slot the request becomes eligible, without one it waits for the
next round. -/
theorem sim_selectPool {index : Nat} {eligible : List Nat} (hs : Coherent s)
    (hc : s.worker.control = .selectPool index eligible)
    (h : s.selectPool index eligible = some s') : Sim s a s' := by
  have hwindow := hs.window
  have hnodup := hwindow.nodup
  have hsubset := hwindow.subset
  have hbehind := hwindow.behind
  rw [hc] at hnodup hsubset hbehind
  have hheld : s.worker.control.held = [] := by rw [hc]; rfl
  obtain ⟨r, hget, heq⟩ := Option.map_eq_some_iff.mp h
  obtain ⟨before, after, hsplit, hlength⟩ := split_at_getElem? hget
  have hmem : r ∈ s.worker.active := List.mem_of_getElem? hget
  have htake : s.worker.active.take (index + 1) = before ++ [r] := by
    rw [hsplit, ← hlength, List.take_length_add_append]
    rfl
  have hids : eligible ⊆ before.map (·.id) := by
    have h := hbehind index rfl
    rw [hsplit, ← hlength, List.take_left] at h
    exact h
  -- The id at `index` is new, because all eligible ids stand in front of it.
  have hnew : r.id ∉ eligible := by
    intro hin
    have hactive := hs.active_nodup
    rw [hsplit, List.map_append, List.map_cons, List.nodup_middle, List.nodup_cons] at hactive
    exact hactive.1 (List.mem_append_left _ (hids hin))
  have hahead : ∀ id ∈ eligible, id ∈ (s.worker.active.take (index + 1)).map (·.id) := by
    intro id hid
    rw [htake, List.map_append]
    exact List.mem_append_left _ (hids hid)
  split at heq
  · rename_i hpool
    subst heq
    refine sim_tag (Control.tag (.selectPool index eligible))
      (Control.tag (.select (index + 1) (eligible ++ [r.id]))) (fun r => r) (s.requests r.id) hs
      (WorkerOnly.of_worker _ _ _ _) hmem rfl ?_ hheld.symm (by rw [hc]; rfl)
      (by rw [modifyActive_id]; rfl) ?_ ?_ rfl (Function.update_eq_self _ _).symm ?_ ?_ rfl
    · intro b _ hb
      simp [Control.tag, hb]
    · simp [Control.tag, hnew, Stage.holdsPermit]
    · simp [Control.tag, Stage.holdsPermit]
    · refine ⟨.quiet, trivial, ?_⟩
      simp only [Control.tag, hnew, if_false, List.mem_append, List.mem_singleton, or_true, if_true]
      refine .select ?_
      simpa [RequestShared.poolAccepts, shared] using hpool
    · refine ⟨nodup_snoc hnew hnodup, ?_, fun i hi => ?_, by simp [Control.pastActive, goto]⟩
      · intro id hid
        rcases List.mem_append.mp hid with hid | hid
        · exact hsubset hid
        · rw [List.mem_singleton.mp hid]
          exact List.mem_map_of_mem hmem
      · cases hi
        intro id hid
        rcases List.mem_append.mp hid with hid | hid
        · exact hahead id hid
        · rw [List.mem_singleton.mp hid, goto, htake]
          simp
  · subst heq
    refine sim_goto hs hheld.symm (by rw [hc]; rfl) rfl
      ⟨hnodup, hsubset, fun i hi => ?_, by simp [Control.pastActive]⟩
    cases hi
    exact hahead

/-! ## `step_eligible` -/

/-- What a lookup by id finds is in `active` and has the id. -/
theorem lookupActive_spec {id : Nat} {r : ActiveRequest} (h : s.lookupActive id = some r) :
    r ∈ s.worker.active ∧ r.id = id := by
  unfold lookupActive at h
  exact ⟨List.mem_of_find?_eq_some h, by simpa using List.find?_some h⟩

/-- A modification that keeps the ids keeps the list of them. -/
theorem modifyActive_ids {id : Nat} (modify : ActiveRequest → ActiveRequest)
    {active : List ActiveRequest} (hid : ∀ r ∈ active, r.id = id → (modify r).id = r.id) :
    (modifyActive id modify active).map (·.id) = active.map (·.id) := by
  unfold modifyActive
  rw [List.map_map]
  refine List.map_congr_left fun r hr => ?_
  simp only [Function.comp_apply]
  split
  · rename_i heq
    exact hid r hr heq
  · rfl

/-- One turn of the loop that takes sessions and buffers out. A request without a session fails, one
with an empty PCM pool goes to `takeFailed`, and any other one hands out its session and a buffer;
the last case is the only one in which the list of entries grows. -/
theorem sim_takeSessions {stepStarted : Nat} {todo : List Nat} {selected : List Selected}
    (hs : Coherent s) (hc : s.worker.control = .takeSessions stepStarted todo selected)
    (h : s.takeSessions stepStarted todo selected = some s') : Sim s a s' := by
  have hheld : s.worker.control.held = [] := by rw [hc]; rfl
  have hactive : activeStages s.worker.control s.worker.active =
      tagged (Control.tag (.takeSessions stepStarted todo selected)) s.worker.active := by
    rw [hc]; rfl
  have hnodup := hs.window.nodup
  have hsubset := hs.window.subset
  rw [hc] at hnodup hsubset
  cases todo with
  | nil =>
    cases h
    -- All sessions are taken, `step_batch` is next.
    refine sim_goto hs hheld.symm ?_ rfl ⟨hnodup, hsubset, ?_, ?_⟩
    · rw [hactive]
      exact activeStages_tag rfl (by funext r; simp [Control.tag])
    · simp [Control.selecting]
    · simp [Control.pastActive]
  | cons id todo =>
    obtain ⟨r, hlookup, heq⟩ := Option.map_eq_some_iff.mp h
    obtain ⟨hr, rfl⟩ := lookupActive_spec hlookup
    have hnew : r.id ∉ todo ∧ r.id ∉ selected.map (·.id) := by
      have h := (List.nodup_cons.mp hnodup).1
      exact ⟨fun hin => h (List.mem_append_left _ hin), fun hin => h (List.mem_append_right _ hin)⟩
    have hrest : (todo ++ selected.map (·.id)).Nodup := (List.nodup_cons.mp hnodup).2
    have hbefore : Control.tag (.takeSessions stepStarted (r.id :: todo) selected) r = .eligible r := by
      simp [Control.tag]
    -- For every other request the tag of this program point is that of the next one.
    have hother : ∀ b : ActiveRequest, b.id ≠ r.id →
        (if b.id ∈ todo then Stage.eligible b else Control.selectedTag selected b) =
          Control.tag (.takeSessions stepStarted (r.id :: todo) selected) b := by
      intro b hb
      simp [Control.tag, hb]
    cases hsession : r.session with
    | none =>
      simp only [hsession] at heq
      -- A request that has lost its session.
      obtain ⟨k, hk⟩ := s.applyMark_eq r.id (.failed .noSession)
      rw [hk] at heq
      subst heq
      have hafter : Control.tag (.takeSessions stepStarted todo selected) r = .active r := by
        simp only [Control.tag, hnew.1, if_false]
        exact Control.selectedTag_of_not_mem hnew.2
      refine sim_tag _ (Control.tag (.takeSessions stepStarted todo selected)) (fun r => r) _ hs
        (WorkerOnly.wakes k _ _ _ _) hr rfl (fun b _ hb => hother b hb) hheld.symm hactive
        (by rw [modifyActive_id]; rfl) (by rw [hbefore]; rfl) (by rw [hafter]; rfl) rfl rfl ?_ ?_ rfl
      · rw [hbefore, hafter]
        exact ⟨.quiet, trivial, .noSession hsession⟩
      · refine ⟨hrest, fun id hid => hsubset (List.mem_cons_of_mem _ hid), ?_, ?_⟩
        · simp [Control.selecting, goto]
        · simp [Control.pastActive, goto]
    | some session =>
      simp only [hsession] at heq
      cases hpool : (s.requests r.id).shared.freePcm with
      | nil =>
        simp only [shared, RequestShared.takePcm, hpool] at heq
        subst heq
        have hafter : Control.tag (.takeFailed r.id stepStarted todo selected) r = .poolEmpty r := by
          simp [Control.tag]
        refine sim_tag _ (Control.tag (.takeFailed r.id stepStarted todo selected)) (fun r => r)
          (s.requests r.id) hs (WorkerOnly.of_worker _ _ _ _) hr rfl ?_ hheld.symm hactive
          (by rw [modifyActive_id]; rfl) (by rw [hbefore]; rfl) (by rw [hafter]; rfl) rfl
          (Function.update_eq_self _ _).symm ?_ ⟨hnodup, hsubset, ?_, ?_⟩ rfl
        · intro b _ hb
          rw [← hother b hb]
          simp [Control.tag, hb]
        · rw [hbefore, hafter]
          exact ⟨.quiet, trivial, .poolEmpty hpool⟩
        · simp [Control.selecting, goto]
        · simp [Control.pastActive, goto]
      | cons pcm rest =>
        simp only [shared, RequestShared.takePcm, hpool] at heq
        -- The session and the first free buffer move into the entry.
        let entry : Selected := ⟨r.id, session, pcm.map fun _ => pcmSentinel⟩
        let modify := fun r : ActiveRequest => { r with session := none }
        obtain ⟨k, hk⟩ := s.onShared_eq r.id
          fun _ => { (s.requests r.id).shared with freePcm := rest }
        rw [hk] at heq
        subst heq
        have hafter : Control.tag (.takeSessions stepStarted todo (selected ++ [entry])) (modify r) =
            .selected (modify r) entry := by
          have hmem : (modify r).id ∉ todo := hnew.1
          simp only [Control.tag, hmem, if_false]
          refine Control.selectedTag_of_mem ?_ (List.mem_append_right _ List.mem_cons_self) rfl
          rw [List.map_append]
          exact nodup_snoc hnew.2 (List.nodup_append.mp hrest).2.1
        refine sim_tag _ (Control.tag (.takeSessions stepStarted todo (selected ++ [entry]))) modify
          _ hs (WorkerOnly.wakes k _ _ _ _) hr rfl ?_ hheld.symm hactive rfl (by rw [hbefore]; rfl)
          (by rw [hafter]; rfl) rfl rfl ?_ ?_ rfl
        · intro b _ hb
          rw [← hother b hb]
          simp only [Control.tag]
          rw [Control.selectedTag_concat_ne hb.symm]
        · rw [hbefore, hafter]
          exact ⟨.quiet, trivial, .take hsession hpool⟩
        · have hwindow : Control.window (.takeSessions stepStarted todo (selected ++ [entry])) =
              (todo ++ selected.map (·.id)) ++ [r.id] := by
            simp [Control.window, entry]
          refine ⟨?_, ?_, ?_, ?_⟩
          · change (Control.window (.takeSessions _ _ (_ ++ [entry]))).Nodup
            rw [hwindow]
            exact nodup_snoc (List.nodup_cons.mp hnodup).1 hrest
          · change Control.window (.takeSessions _ _ (_ ++ [entry])) ⊆
              (modifyActive r.id modify s.worker.active).map (·.id)
            rw [hwindow, modifyActive_ids modify fun _ _ _ => rfl]
            intro id hid
            rcases List.mem_append.mp hid with hid | hid
            · exact hsubset (List.mem_cons_of_mem _ hid)
            · rw [List.mem_singleton.mp hid]
              exact List.mem_map_of_mem hr
          · simp [Control.selecting, goto]
          · simp [Control.pastActive, goto]

/-- A request whose PCM pool was empty is marked as failed; its session stays where it is. -/
theorem sim_takeFailed {id stepStarted : Nat} {todo : List Nat} {selected : List Selected}
    (hs : Coherent s) (hc : s.worker.control = .takeFailed id stepStarted todo selected) :
    Sim s a ((s.applyMark id (.failed .poolEmpty)).goto
      (.takeSessions stepStarted todo selected)) := by
  have hheld : s.worker.control.held = [] := by rw [hc]; rfl
  have hactive : activeStages s.worker.control s.worker.active =
      tagged (Control.tag (.takeFailed id stepStarted todo selected)) s.worker.active := by
    rw [hc]; rfl
  have hnodup := hs.window.nodup
  have hsubset := hs.window.subset
  rw [hc] at hnodup hsubset
  obtain ⟨r, hr, rfl⟩ := List.mem_map.mp (hsubset List.mem_cons_self)
  obtain ⟨hnew, hrest⟩ := List.nodup_cons.mp hnodup
  -- it is the first that is not examined, and no other entry changes its tag
  have hbefore : Control.tag (.takeFailed r.id stepStarted todo selected) r = .poolEmpty r := by
    simp [Control.tag]
  have hafter : Control.tag (.takeSessions stepStarted todo selected) r = .active r := by
    have htodo : r.id ∉ todo := fun hin => hnew (List.mem_append_left _ hin)
    simp only [Control.tag, htodo, if_false]
    exact Control.selectedTag_of_not_mem fun hin => hnew (List.mem_append_right _ hin)
  obtain ⟨k, hk⟩ := s.applyMark_eq r.id (.failed .poolEmpty)
  rw [hk]
  refine sim_tag _ (Control.tag (.takeSessions stepStarted todo selected)) (fun r => r) _ hs
    (WorkerOnly.wakes k _ _ _ _) hr rfl ?_ hheld.symm hactive
    (by rw [modifyActive_id]; rfl) (by rw [hbefore]; rfl) (by rw [hafter]; rfl) rfl rfl ?_
    ⟨hrest, fun id hid => hsubset (List.mem_cons_of_mem _ hid), ?_, ?_⟩ rfl
  · intro b _ hb
    simp [Control.tag, hb]
  · rw [hbefore, hafter]
    exact ⟨.quiet, trivial, .failEmpty⟩
  · simp [Control.selecting, goto]
  · simp [Control.pastActive, goto]

/-- Whatever `step_batch` does, every session that was passed to it gets one result. -/
theorem stepOutcomes_fst (selected : List Selected)
    (results : Option (List (Except BackendError BackendPacket))) :
    (stepOutcomes selected results).map (·.1) = selected := by
  unfold stepOutcomes
  split
  · simp [Function.comp_def]
  · split
    · rename_i hlength
      exact List.map_fst_zip (by simp [hlength])
    · simp [Function.comp_def]

/-- A failure of `step_batch` has a cause that a step can have: the panic, the wrong number of
results, or the backend's own error. -/
theorem stepOutcomes_cause {selected : List Selected}
    {results : Option (List (Except BackendError BackendPacket))}
    {o : Selected × Except FailureCause BackendPacket} (ho : o ∈ stepOutcomes selected results)
    {cause : FailureCause} (hcause : o.2 = .error cause) : cause.fromStep = true := by
  unfold stepOutcomes at ho
  -- a call that panicked fails all; otherwise the number of answers decides
  split at ho
  · obtain ⟨entry, -, rfl⟩ := List.mem_map.mp ho
    cases hcause
    rfl
  · split at ho
    · obtain ⟨result, -, hresult⟩ := List.mem_map.mp (List.of_mem_zip ho).2
      rw [← hresult] at hcause
      cases result with
      | ok => cases hcause
      | error => cases hcause; rfl
    · obtain ⟨entry, -, rfl⟩ := List.mem_map.mp ho
      cases hcause
      rfl

/-- The call of `step_batch`. It touches every selected request at once, so this is the one place of
the round that changes more than one request: each gets its own result, and those that were not
selected keep their stage. -/
theorem sim_stepBatch {stepStarted : Nat} {selected : List Selected} {write : Nat → Nat → Int16}
    {results : Option (List (Except BackendError BackendPacket))} (hs : Coherent s)
    (hc : s.worker.control = .stepBatch stepStarted selected) :
    Sim s a (s.stepBatch stepStarted selected write results) := by
  have hheld : s.worker.control.held = [] := by rw [hc]; rfl
  have hactive : activeStages s.worker.control s.worker.active =
      tagged (Control.selectedTag selected) s.worker.active := by
    rw [hc]; rfl
  have hnodup := hs.window.nodup
  have hsubset := hs.window.subset
  rw [hc] at hnodup hsubset
  have hfst := stepOutcomes_fst (selected.map (Selected.written write)) results
  have hcause := fun o ho cause =>
    @stepOutcomes_cause (selected.map (Selected.written write)) results o ho cause
  unfold Sys.stepBatch
  generalize stepOutcomes (selected.map (Selected.written write)) results = outcomes at hfst hcause
  dsimp only
  -- The results belong to the entries in their order.
  have hids : outcomes.map (fun o => o.1.id) = selected.map (·.id) := by
    have h := congrArg (List.map (·.id)) hfst
    rw [List.map_map, List.map_map] at h
    exact h
  have hkeys : keys (outcomes.map fun o =>
      (o.1.id, [Event.stepBatch s.batches, .stepOutcome (outcomeOf o.2)])) =
        selected.map (·.id) := by
    rw [← hids, keys, List.map_map]
    rfl
  have houtcomes : (outcomes.map fun o => o.1.id).Nodup := by
    rw [hids]
    exact hnodup
  -- every selected entry has its result
  have hresult : ∀ r : ActiveRequest, r.id ∈ selected.map (·.id) →
      ∃ entry result, (entry ∈ selected ∧ entry.id = r.id) ∧
        (entry.written write, result) ∈ outcomes := by
    intro r hr
    obtain ⟨entry, hentry, hid⟩ := List.mem_map.mp hr
    have hmem : entry.written write ∈ outcomes.map (·.1) := by
      rw [hfst]
      exact List.mem_map_of_mem hentry
    obtain ⟨⟨written, result⟩, ho, heq⟩ := List.mem_map.mp hmem
    cases heq
    exact ⟨entry, result, ⟨hentry, hid⟩, ho⟩
  rw [emitAll_eq]
  refine Sim.update s.worker.active (·.id) (Control.selectedTag selected)
    (fun r => some (Control.settleTag outcomes r))
    (s.starting.map waitingEntry ++ ((queuedStarts s.channel).map waitingEntry ++
      s.worker.pending.map waitingEntry))
    hs ⟨rfl, rfl, rfl, Nat.le_succ _⟩ (stages_eq [] _ rfl rfl rfl hheld hactive)
    (stages_eq [] (tagged (Control.settleTag outcomes) s.worker.active) rfl rfl rfl rfl rfl)
    ?_ ?_ ?_ le_rfl ?_ ?_ ⟨?_, ?_, ?_, ?_⟩ (commands_of (fun _ h => h) (.inl rfl))
  · refine perm_of_count fun x => ?_
    simp only [parts, tagged, List.count_append, List.count_nil]
    omega
  · refine perm_of_count fun x => ?_
    simp only [parts, goto, tagged, List.count_append, List.count_nil, entries_some]
    omega
  · have hselected : ∀ r, (Control.selectedTag selected r).holdsPermit = true := by
      intro r
      unfold Control.selectedTag
      split <;> rfl
    have hsettled : ∀ r, (Control.settleTag outcomes r).holdsPermit = true := by
      intro r
      unfold Control.settleTag
      split <;> rfl
    simp [goto, List.countP_map, Function.comp_def, hselected, hsettled]
  · -- A request that is not in `active` has no event.
    intro id hid
    refine emitAll_of_not_mem ?_
    rw [hkeys]
    exact fun hin => hid (hsubset hin)
  · -- One request of `active`: stepped, or skipped.
    intro r hr
    refine ⟨.quiet, trivial, ?_⟩
    change LocalStep _ _ _ _ ⟨(emitAll _ s).requests r.id, _⟩
    by_cases hin : r.id ∈ selected.map (·.id)
    · obtain ⟨entry, result, ⟨hentry, hid⟩, ho⟩ := hresult r hin
      have hid' : (entry.written write).id = r.id := hid
      have hevents := List.mem_map_of_mem (f := fun o : Selected × Except FailureCause BackendPacket =>
        (o.1.id, [Event.stepBatch s.batches, .stepOutcome (outcomeOf o.2)])) ho
      have hreq := emitAll_of_mem (s := s) (hkeys ▸ hnodup) hevents
      rw [hid'] at hreq
      rw [hreq, Control.selectedTag_of_mem hnodup hentry hid,
        Control.settleTag_of_mem houtcomes ho hid']
      exact .stepBatch write result (Nat.lt_succ_self _) (hcause _ ho)
    · rw [emitAll_of_not_mem (by rw [hkeys]; exact hin), Control.selectedTag_of_not_mem hin,
        Control.settleTag_of_not_mem (hids ▸ hin)]
      exact .skipped
  · exact houtcomes
  · change outcomes.map (fun o => o.1.id) ⊆ _
    rw [hids]
    exact hsubset
  · simp [Control.selecting, goto]
  · simp [Control.pastActive, goto]

/-- One turn of the loop over the results. An error and a packet that `accept` refuses go to a
`Substep` that recycles the buffer, an accepted packet to one that pushes it. -/
theorem sim_settle {stepMicroseconds : F32}
    {todo : List (Selected × Except FailureCause BackendPacket)} (hs : Coherent s)
    (hc : s.worker.control = .settle stepMicroseconds todo)
    (h : s.settle stepMicroseconds todo = some s') : Sim s a s' := by
  have hheld : s.worker.control.held = [] := by rw [hc]; rfl
  have hactive : activeStages s.worker.control s.worker.active =
      tagged (Control.settleTag todo) s.worker.active := by
    rw [hc]; rfl
  have hnodup := hs.window.nodup
  have hsubset := hs.window.subset
  rw [hc] at hnodup hsubset
  cases todo with
  | nil =>
    cases h
    -- Every result is settled.
    refine sim_goto hs hheld.symm ?_ rfl (.idle rfl rfl)
    rw [hactive]
    rfl
  | cons o todo =>
    obtain ⟨entry, result⟩ := o
    obtain ⟨r, hlookup, heq⟩ := Option.map_eq_some_iff.mp h
    obtain ⟨hr, hid⟩ := lookupActive_spec hlookup
    have hbefore : Control.settleTag ((entry, result) :: todo) r = .stepped r entry result :=
      Control.settleTag_of_mem hnodup List.mem_cons_self hid.symm
    -- both arms put the session back and go on with a `Substep` of the same request
    have hmove : ∀ (modify : ActiveRequest → ActiveRequest) (sub : Substep),
        (modify r).id = r.id →
        LocalStep s.env s.batches .quiet ⟨s.requests r.id, some (.stepped r entry result)⟩
          ⟨s.requests r.id, some (.settling (modify r) sub)⟩ →
        Sim s a ((s.setActive (modifyActive entry.id modify s.worker.active)).goto
          (.substep entry.id sub stepMicroseconds todo)) := by
      intro modify sub hmodify hstep
      have hafter : Control.tag (.substep entry.id sub stepMicroseconds todo) (modify r) =
          .settling (modify r) sub := by
        simp [Control.tag, hmodify, hid]
      refine sim_tag _ (Control.tag (.substep entry.id sub stepMicroseconds todo)) modify
        (s.requests r.id) hs (WorkerOnly.of_worker _ _ _ _) hr hmodify ?_ hheld.symm hactive
        (by rw [hid]; rfl) (by rw [hbefore]; rfl) (by rw [hafter]; rfl) rfl
        (Function.update_eq_self _ _).symm ?_ ⟨hnodup, ?_, ?_, ?_⟩ rfl
      · intro b _ hb
        have hne : entry.id ≠ b.id := by
          rw [← hid]
          exact hb.symm
        rw [Control.settleTag_cons_ne hne]
        simp [Control.tag, hne.symm]
      · rw [hbefore, hafter]
        exact ⟨.quiet, trivial, hstep⟩
      · change _ ⊆ (modifyActive entry.id modify s.worker.active).map (·.id)
        rw [modifyActive_ids modify fun b hb hbid => ?_]
        · exact hsubset
        · have heq : b = r := List.inj_on_of_nodup_map hs.active_nodup hb hr (hbid.trans hid.symm)
          rw [heq, hmodify]
      · simp [Control.selecting, goto]
      · simp [Control.pastActive, goto]
    cases result with
    | error cause =>
      subst heq
      exact hmove _ _ rfl .settleError
    | ok packet =>
      cases haccept : r.accept packet entry.pcm s.config.packetFrames s.now stepMicroseconds with
      | error cause =>
        simp only [haccept] at heq
        subst heq
        exact hmove _ _ rfl (.settleRejected haccept)
      | ok accepted =>
        obtain ⟨owned, record⟩ := accepted
        simp only [haccept] at heq
        subst heq
        exact hmove (fun a => { a with session := some entry.session, record := record }) _
          (ActiveRequest.accept_ok haccept).id (.settleAccepted haccept)

/-- A `Substep` of the request `id`: either it goes on with another one, or the loop does. -/
theorem sim_substep_move {id : Nat} {sub : Substep} {stepMicroseconds : F32}
    {todo : List (Selected × Except FailureCause BackendPacket)} {k : Nat} {r' : Request}
    (next : Option Substep) (hs : Coherent s)
    (hc : s.worker.control = .substep id sub stepMicroseconds todo)
    (hstep : ∀ r : ActiveRequest, r.id = id → LocalChange s a s id
      ⟨s.requests id, some (.settling r sub)⟩
      ⟨r', some (next.elim (.settled r) (.settling r ·))⟩) :
    Sim s a ({ s with
      requests := Function.update s.requests id r'
      channel := s.channel ++ List.replicate k Command.wake }.goto
        (next.elim (.settle stepMicroseconds todo) (.substep id · stepMicroseconds todo))) := by
  have hheld : s.worker.control.held = [] := by rw [hc]; rfl
  have hactive : activeStages s.worker.control s.worker.active =
      tagged (Control.tag (.substep id sub stepMicroseconds todo)) s.worker.active := by
    rw [hc]; rfl
  have hnodup := hs.window.nodup
  have hsubset := hs.window.subset
  rw [hc] at hnodup hsubset
  obtain ⟨r, hr, rfl⟩ := List.mem_map.mp (hsubset List.mem_cons_self)
  obtain ⟨hnew, hrest⟩ := List.nodup_cons.mp hnodup
  have hbefore : Control.tag (.substep r.id sub stepMicroseconds todo) r = .settling r sub := by
    simp [Control.tag]
  have hother : ∀ b : ActiveRequest, b.id ≠ r.id →
      Control.tag (.substep r.id sub stepMicroseconds todo) b = Control.settleTag todo b := by
    intro b hb
    simp [Control.tag, hb]
  -- after the last part of settling the request is settled, before it the next part follows
  cases next with
  | none =>
    have hafter := Control.settleTag_of_not_mem hnew
    refine sim_tag _ (Control.settleTag todo) (fun r => r) r' hs (WorkerOnly.wakes k _ _ _ _) hr
      rfl (fun b _ hb => (hother b hb).symm) hheld.symm hactive (by rw [modifyActive_id]; rfl)
      (by rw [hbefore]; rfl) (by rw [hafter]; rfl) rfl rfl ?_
      ⟨hrest, fun id hid => hsubset (List.mem_cons_of_mem _ hid), ?_, ?_⟩ rfl
    · rw [hbefore, hafter]
      exact hstep r rfl
    · simp [Control.selecting, goto]
    · simp [Control.pastActive, goto]
  | some sub' =>
    have hafter : Control.tag (.substep r.id sub' stepMicroseconds todo) r = .settling r sub' := by
      simp [Control.tag]
    refine sim_tag _ (Control.tag (.substep r.id sub' stepMicroseconds todo)) (fun r => r) r' hs
      (WorkerOnly.wakes k _ _ _ _) hr rfl ?_ hheld.symm hactive (by rw [modifyActive_id]; rfl)
      (by rw [hbefore]; rfl) (by rw [hafter]; rfl) rfl rfl ?_ ⟨hnodup, hsubset, ?_, ?_⟩ rfl
    · intro b _ hb
      simp [Control.tag, hb]
    · rw [hbefore, hafter]
      exact hstep r rfl
    · simp [Control.selecting, goto]
    · simp [Control.pastActive, goto]

/-- The same where the request itself does not change. -/
theorem sim_substep_goto {id : Nat} {sub : Substep} {stepMicroseconds : F32}
    {todo : List (Selected × Except FailureCause BackendPacket)} (next : Option Substep)
    (hs : Coherent s) (hc : s.worker.control = .substep id sub stepMicroseconds todo)
    (hstep : ∀ r : ActiveRequest, r.id = id → LocalChange s a s id
      ⟨s.requests id, some (.settling r sub)⟩
      ⟨s.requests id, some (next.elim (.settled r) (.settling r ·))⟩) :
    Sim s a (s.goto
      (next.elim (.settle stepMicroseconds todo) (.substep id · stepMicroseconds todo))) := by
  have h := @sim_substep_move s a id sub stepMicroseconds todo 0 (s.requests id) next hs hc hstep
  rwa [Function.update_eq_self, List.replicate_zero, List.append_nil] at h

/-- Each `Substep` of settling a result: a buffer goes back to its pool, a failure is marked, a
packet is pushed or found to overflow the queue, which is a failure only when the request was not
cancelled. -/
theorem sim_substep {choice : Choice} {id : Nat} {sub : Substep} {stepMicroseconds : F32}
    {todo : List (Selected × Except FailureCause BackendPacket)} (hs : Coherent s)
    (hc : s.worker.control = .substep id sub stepMicroseconds todo) :
    Sim s (.worker choice) (s.substep id sub stepMicroseconds todo) := by
  unfold Sys.substep
  cases sub with
  | recycle pcm cause =>
    obtain ⟨k, hk⟩ := s.onShared_eq id (·.recyclePcm pcm)
    simp only [hk]
    exact sim_substep_move (some (.fail cause)) hs hc
      fun r _ => ⟨.quiet, trivial, .recycle⟩
  | fail cause =>
    obtain ⟨k, hk⟩ := s.applyMark_eq id (.failed cause)
    simp only [hk]
    exact sim_substep_move none hs hc
      fun r _ => ⟨.fail, ⟨rfl, by rw [hc]; rfl⟩, .fail⟩
  | push packet metrics =>
    -- `push_packet` refuses a packet of a request that is over or whose queue is full.
    by_cases hpush : (s.shared id).state.cancelRequested = true ∨
        (s.shared id).state.failure.isSome = true ∨
        (s.shared id).state.packets.length = (s.shared id).state.packetCapacity
    · simp only [RequestShared.pushPacket_eq, hpush, if_true]
      exact sim_substep_goto (some (.rejected packet.pcm)) hs hc
        fun r _ => ⟨.quiet, trivial, .reject hpush⟩
    · simp only [RequestShared.pushPacket_eq, hpush, if_false]
      obtain ⟨k, hk⟩ := s.onShared_emit_eq id _ (.published packet)
      rw [hk]
      rw [not_or, not_or, Bool.not_eq_true, Option.not_isSome_iff_eq_none] at hpush
      exact sim_substep_move none hs hc
        fun r _ => ⟨.quiet, trivial, .publish hpush.1 hpush.2.1 hpush.2.2⟩
  | rejected pcm =>
    obtain ⟨k, hk⟩ := s.onShared_eq id (·.recyclePcm pcm)
    simp only [hk]
    exact sim_substep_move (some .overflow) hs hc
      fun r _ => ⟨.quiet, trivial, .rejected⟩
  | overflow =>
    dsimp only
    split
    · rename_i hflag
      exact sim_substep_goto none hs hc
        fun r _ => ⟨.quiet, trivial, .overflowCancelled hflag⟩
    · rename_i hflag
      exact sim_substep_goto (some (.fail .queueOverflow)) hs hc
        fun r _ => ⟨.quiet, trivial, .overflow (Bool.eq_false_iff.mpr hflag)⟩

/-! ## `remove_finished` -/

/-- While `remove_finished` scans, the requests in front of its index are active again and the
others settled. -/
theorem activeStages_scan {control : Control} {index : Nat} (active : List ActiveRequest)
    (h : control.scan = some index) : activeStages control active =
      tagged .active (active.take index) ++ tagged .settled (active.drop index) := by
  unfold activeStages
  rw [h]

/-- One turn of `remove_finished`: a request that is over leaves `active` and goes to its
retirement, any other one is active again. This turn has the label `finish`. -/
theorem sim_removeFinished {choice : Choice} {index : Nat} (hs : Coherent s)
    (hc : s.worker.control = .removeFinished index) :
    Sim s (.worker choice) (s.removeFinished index) := by
  have hheld : s.worker.control.held = [] := by rw [hc]; rfl
  have hactive := activeStages_scan s.worker.active
    (by rw [hc]; rfl : s.worker.control.scan = some index)
  unfold Sys.removeFinished
  cases hget : s.worker.active[index]? with
  | none =>
    -- The scan is over, and every request is active again.
    have hlength : s.worker.active.length ≤ index := List.getElem?_eq_none_iff.mp hget
    refine sim_goto hs hheld.symm ?_ rfl (.idle rfl rfl)
    rw [hactive, List.take_of_length_le hlength, List.drop_of_length_le hlength]
    exact (List.append_nil _).symm
  | some r =>
    obtain ⟨before, after, hsplit, hlength⟩ := split_at_getElem? hget
    have hbefore : activeStages s.worker.control s.worker.active =
        tagged .active before ++ (r.id, .settled r) :: tagged .settled after := by
      rw [hactive, hsplit, ← hlength, List.take_left, List.drop_left]
      rfl
    have hmem : (r.id, Stage.settled r) ∈
        [] ++ (tagged .active before ++ (r.id, .settled r) :: tagged .settled after) := by simp
    dsimp only
    split
    · rename_i hfinished
      obtain ⟨after', hremoved, hperm⟩ := swapRemove_split before r after
      -- the two ways of retiring differ in the first step of `retire_active` only
      have hretire : ∀ step, (Stage.retiringActive step r).holdsPermit = true →
          LocalStep s.env s.batches .finish ⟨s.requests r.id, some (.settled r)⟩
            ⟨s.requests r.id, some (.retiringActive step r)⟩ →
          Sim s (.worker choice) ((s.setActive (swapRemove s.worker.active index)).goto
            (.retireActive step r (.removeFinished index))) := by
        intro step hpermit hstep
        refine sim_worker r.id (.settled r) (some (.retiringActive step r)) (s.requests r.id) [] _
          [_] (tagged .active before ++ tagged .settled after') hs (WorkerOnly.of_worker _ _ _ _)
          hheld hbefore rfl ?_ hmem ?_ ?_ le_rfl (Function.update_eq_self _ _).symm
          ⟨.finish, ⟨rfl, index, r, hc, hget, rfl⟩, hstep⟩ (.idle rfl rfl) (.inl rfl)
        · rw [hsplit, ← hlength, hremoved]
          change tagged .active (List.take before.length (before ++ after')) ++
            tagged .settled (List.drop before.length (before ++ after')) = _
          rw [List.take_left, List.drop_left]
        · refine perm_of_count fun x => ?_
          have hcount := (hperm.map fun r => (r.id, Stage.settled r)).count_eq x
          simp only [tagged, Option.toList, List.map_cons, List.map_nil, List.count_cons,
            List.count_append, List.count_nil]
          omega
        · change s.used + 1 = s.used + (Stage.retiringActive step r).holdsPermit.toNat
          rw [hpermit]
          rfl
      split
      · -- A failed or cancelled request is cancelled in the backend, a finished one is not.
        rename_i hover
        exact hretire _ rfl (.finishOver (by simpa [shared] using hover))
      · rename_i hover
        rw [Bool.or_eq_true] at hfinished
        have hproducer := hfinished.resolve_right hover
        rw [Bool.or_eq_true, not_or, Option.not_isSome_iff_eq_none, Bool.not_eq_true] at hover
        exact hretire _ rfl (.finish hproducer hover.1 hover.2)
    · rename_i hfinished
      rw [Bool.or_eq_true, Bool.or_eq_true, not_or, not_or, Bool.not_eq_true, Bool.not_eq_true,
        Bool.not_eq_true, Option.isSome_eq_false_iff, Option.isNone_iff_eq_none] at hfinished
      refine sim_worker r.id (.settled r) (some (.active r)) (s.requests r.id) [] _
        [] (tagged .active (before ++ [r]) ++ tagged .settled after) hs
        (WorkerOnly.of_worker _ _ _ _) hheld hbefore rfl ?_ hmem ?_ rfl le_rfl
        (Function.update_eq_self _ _).symm
        ⟨.quiet, trivial, .keep hfinished.1 hfinished.2.1 hfinished.2.2⟩ (.idle rfl rfl) (.inl rfl)
      · change tagged .active (s.worker.active.take (index + 1)) ++
          tagged .settled (s.worker.active.drop (index + 1)) = _
        rw [hsplit, ← hlength, List.take_length_add_append, List.drop_length_add_append]
        rfl
      · refine perm_of_count fun x => ?_
        simp only [tagged, Option.toList, List.map_append, List.map_cons, List.map_nil,
          List.count_cons, List.count_append, List.count_nil]
        omega

end Round

end Qwen3Tts.Runtime
