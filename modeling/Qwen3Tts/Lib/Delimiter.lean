import Mathlib.Data.List.Infix
import Mathlib.Order.Lattice
import Qwen3Tts.Lib.Loop

/-!
# Lib — a delimiter in a list that arrives in parts

`firstAt` is where a delimiter stands first. What has arrived of a list knows the place as soon as
the delimiter is complete, and not before (`firstAt_arrived`). `search` is a reader that waits for
a delimiter and gives up on two occasions: at a place that is too far, and when too much has
arrived without the delimiter. `search_eq_some` says which lists it accepts, in terms of the
amounts it has seen (`stops`), and `loop_of_search` is the rule for a loop that reads this way.
-/

namespace Qwen3Tts.Lib

variable {α : Type*} [DecidableEq α]

/-- The first place of `needle`. -/
def firstAt (needle : List α) : List α → Option Nat
  | [] => if needle = [] then some 0 else none
  | x :: l => if needle <+: x :: l then some 0 else (firstAt needle l).map (· + 1)

section
variable {needle l arrived rest : List α} {i : Nat}

theorem firstAt_here {x : α} (h : needle <+: x :: l) : firstAt needle (x :: l) = some 0 := if_pos h

theorem firstAt_miss {x : α} (h : ¬ needle <+: x :: l) :
    firstAt needle (x :: l) = (firstAt needle l).map (· + 1) := if_neg h

/-- The first place at which the needle starts. -/
theorem firstAt_eq_some :
    firstAt needle l = some i ↔ needle <+: l.drop i ∧ ∀ j < i, ¬ needle <+: l.drop j := by
  induction l generalizing i with
  | nil =>
    simp only [firstAt, List.drop_nil, List.prefix_nil]
    constructor
    · intro h
      split at h
      · rename_i hnil
        cases h
        exact ⟨hnil, fun j hj => absurd hj (Nat.not_lt_zero j)⟩
      · cases h
    · intro ⟨hnil, hfirst⟩
      cases i with
      | zero => exact if_pos hnil
      | succ i => exact absurd hnil (hfirst 0 (Nat.succ_pos i))
  | cons x l ih =>
    unfold firstAt
    -- the needle starts here, or the place is one further
    by_cases hhere : needle <+: x :: l
    · rw [if_pos hhere]
      constructor
      · intro h
        cases h
        exact ⟨hhere, fun j hj => absurd hj (Nat.not_lt_zero j)⟩
      · intro h
        cases i with
        | zero => rfl
        | succ i => exact absurd hhere (h.2 0 (Nat.succ_pos i))
    · rw [if_neg hhere, Option.map_eq_some_iff]
      constructor
      · intro ⟨j, hj, heq⟩
        subst heq
        have hlater := ih.mp hj
        refine ⟨hlater.1, fun k hk => ?_⟩
        cases k with
        | zero => exact hhere
        | succ k => exact hlater.2 k (by omega)
      · intro ⟨hthere, hfirst⟩
        cases i with
        | zero => exact absurd hthere hhere
        | succ i =>
          exact ⟨i, ih.mpr ⟨hthere, fun k hk => hfirst (k + 1) (by omega)⟩, rfl⟩

/-- The needle starts nowhere. -/
theorem firstAt_eq_none : firstAt needle l = none ↔ ∀ j, ¬ needle <+: l.drop j := by
  constructor
  · intro h j hj
    obtain ⟨i, hi, hleast⟩ : ∃ i, needle <+: l.drop i ∧ ∀ j < i, ¬ needle <+: l.drop j := by
      induction j using Nat.strongRecOn with
      | ind j ih =>
        by_cases hearlier : ∃ k < j, needle <+: l.drop k
        · obtain ⟨k, hk, hthere⟩ := hearlier
          exact ih k hk hthere
        · exact ⟨j, hj, fun k hk hthere => hearlier ⟨k, hk, hthere⟩⟩
    rw [firstAt_eq_some.mpr ⟨hi, hleast⟩] at h
    cases h
  · intro h
    cases hfound : firstAt needle l with
    | none => rfl
    | some i => exact absurd (firstAt_eq_some.mp hfound).1 (h i)

/-- The delimiter lies within the list. -/
theorem firstAt_le (h : firstAt needle l = some i) (hneedle : needle ≠ []) :
    i + needle.length ≤ l.length := by
  have hfits := (firstAt_eq_some.mp h).1.length_le
  have hsome := List.length_pos_iff.mpr hneedle
  rw [List.length_drop] at hfits
  omega

/-- More input does not move a match. -/
theorem firstAt_append (h : firstAt needle l = some i) (hneedle : needle ≠ []) :
    firstAt needle (l ++ rest) = some i := by
  have hle := firstAt_le h hneedle
  obtain ⟨hthere, hfirst⟩ := firstAt_eq_some.mp h
  refine firstAt_eq_some.mpr ⟨?_, fun j hj hearlier => hfirst j hj ?_⟩
  · rw [List.drop_append_of_le_length (by omega)]
    exact hthere.trans (List.prefix_append _ _)
  · rw [List.drop_append_of_le_length (by omega)] at hearlier
    apply List.prefix_of_prefix_length_le hearlier (List.prefix_append _ _)
    rw [List.length_drop]
    omega

/-- What has arrived shows the place when the delimiter is complete. -/
theorem firstAt_arrived (h : firstAt needle (arrived ++ rest) = some i) (hneedle : needle ≠ []) :
    firstAt needle arrived = if i + needle.length ≤ arrived.length then some i else none := by
  cases hfound : firstAt needle arrived with
  | some j =>
    have hsame : firstAt needle (arrived ++ rest) = some j := firstAt_append hfound hneedle
    rw [h] at hsame
    cases hsame
    rw [if_pos (firstAt_le hfound hneedle)]
  | none =>
    rw [if_neg]
    intro hle
    apply firstAt_eq_none.mp hfound i
    have hthere := (firstAt_eq_some.mp h).1
    rw [List.drop_append_of_le_length (by omega)] at hthere
    apply List.prefix_of_prefix_length_le hthere (List.prefix_append _ _)
    rw [List.length_drop]
    omega

/-- A list that avoids the first element of the delimiter moves the place. -/
theorem firstAt_skip {x : α} {front : List α} (hfront : x ∉ front) :
    firstAt (x :: needle) (front ++ rest)
      = (firstAt (x :: needle) rest).map (front.length + ·) := by
  induction front with
  | nil =>
    simp only [List.nil_append, List.length_nil, Nat.zero_add, Option.map_id_fun', id_eq]
  | cons y front ih =>
    have hne : ¬ (x :: needle) <+: y :: (front ++ rest) := by
      rw [List.cons_prefix_cons]
      intro h
      exact hfront (h.1 ▸ List.mem_cons_self)
    rw [List.cons_append, firstAt, if_neg hne, ih fun h => hfront (List.mem_cons_of_mem y h),
      Option.map_map]
    congr 1
    funext n
    show front.length + n + 1 = front.length + 1 + n
    omega

end

/-! ## A reader -/

/-- How much has arrived each time the reader looks. -/
def stops : Nat → List (List α) → List Nat
  | n, [] => [n]
  | n, part :: parts => n :: stops (n + part.length) parts

/-- Waits for `needle`; gives up at a place that is `far` and when what has arrived is `long`. -/
def search (needle : List α) (far long : Nat → Prop) [DecidablePred far] [DecidablePred long] :
    List α → List (List α) → Option Nat
  | arrived, [] =>
    match firstAt needle arrived with
    | some i => if far i then none else some i
    | none => none
  | arrived, part :: parts =>
    match firstAt needle arrived with
    | some i => if far i then none else some i
    | none => if long arrived.length then none else search needle far long (arrived ++ part) parts

variable {needle : List α} {far long : Nat → Prop} [DecidablePred far] [DecidablePred long]

omit [DecidableEq α] in
/-- No stop lies before the start. -/
theorem le_of_mem_stops {n stop : Nat} {parts : List (List α)} (h : stop ∈ stops n parts) :
    n ≤ stop := by
  induction parts generalizing n with
  | nil => exact Nat.le_of_eq (List.mem_singleton.mp h).symm
  | cons part parts ih =>
    rcases List.mem_cons.mp h with h | h
    · exact Nat.le_of_eq h.symm
    · exact Nat.le_trans (Nat.le_add_right _ _) (ih h)

/-- A reader that has the delimiter looks at its place only. -/
theorem search_of_found {arrived : List α} {parts : List (List α)} {i j : Nat}
    (hneedle : needle ≠ []) (hfound : firstAt needle arrived = some j) :
    search needle far long arrived parts = some i ↔
      firstAt needle (arrived ++ parts.flatten) = some i ∧ ¬ far i ∧
        ∀ stop ∈ stops arrived.length parts, stop < i + needle.length → ¬ long stop := by
  have hle := firstAt_le hfound hneedle
  have hsearch : search needle far long arrived parts = if far j then none else some j := by
    cases parts with
    | nil => simp only [search, hfound]
    | cons part parts => simp only [search, hfound]
  rw [hsearch, firstAt_append hfound hneedle]
  constructor
  · intro h
    split at h
    · cases h
    · rename_i hnear
      cases h
      refine ⟨rfl, hnear, fun stop hstop hlt => ?_⟩
      have hstop := le_of_mem_stops hstop
      omega
  · intro ⟨heq, hnear, _⟩
    cases heq
    exact if_neg hnear

/-- **What a reader accepts.** The delimiter is there, it is not too far, and no amount that the
reader has seen in front of its end is too long. -/
theorem search_eq_some {arrived : List α} {parts : List (List α)} {i : Nat}
    (hneedle : needle ≠ []) :
    search needle far long arrived parts = some i ↔
      firstAt needle (arrived ++ parts.flatten) = some i ∧ ¬ far i ∧
        ∀ stop ∈ stops arrived.length parts, stop < i + needle.length → ¬ long stop := by
  induction parts generalizing arrived with
  | nil =>
    cases hfound : firstAt needle arrived with
    | some j => exact search_of_found hneedle hfound
    | none =>
      rw [List.flatten_nil, List.append_nil, hfound]
      simp only [search, hfound, reduceCtorEq, false_and]
  | cons part parts ih =>
    cases hfound : firstAt needle arrived with
    | some j => exact search_of_found hneedle hfound
    | none =>
      -- the delimiter is still incomplete, so the amount seen here counts
      have hshort : firstAt needle (arrived ++ (part :: parts).flatten) = some i →
          arrived.length < i + needle.length := by
        intro h
        have harrived := firstAt_arrived h hneedle
        rw [hfound] at harrived
        by_contra hle
        rw [if_pos (by omega)] at harrived
        cases harrived
      simp only [search, hfound]
      by_cases hlong : long arrived.length
      · rw [if_pos hlong]
        constructor
        · intro h
          cases h
        · intro ⟨hthere, _, hstops⟩
          exact absurd hlong (hstops _ List.mem_cons_self (hshort hthere))
      · rw [if_neg hlong, ih, List.append_assoc, ← List.flatten_cons, List.length_append]
        constructor
        · intro ⟨hthere, hnear, hstops⟩
          refine ⟨hthere, hnear, fun stop hstop hlt => ?_⟩
          rcases List.mem_cons.mp hstop with heq | hstop
          · rw [heq]
            exact hlong
          · exact hstops stop hstop hlt
        · intro ⟨hthere, hnear, hstops⟩
          exact ⟨hthere, hnear, fun stop hstop => hstops stop (List.mem_cons_of_mem _ hstop)⟩

/-- A loop whose state holds what has arrived and the parts to come ends as `search` does. -/
theorem loop_of_search {σ ρ : Type*} {body : σ → ρ ⊕ σ} (Holds : σ → List α → List (List α) → Prop)
    (Out : Option Nat → List α → ρ → Prop)
    (hfound : ∀ {s arrived parts i}, Holds s arrived parts → firstAt needle arrived = some i →
      ∃ r, body s = .inl r ∧ Out (if far i then none else some i) (arrived ++ parts.flatten) r)
    (hlost : ∀ {s arrived parts}, Holds s arrived parts → firstAt needle arrived = none →
      long arrived.length ∨ parts = [] →
      ∃ r, body s = .inl r ∧ Out none (arrived ++ parts.flatten) r)
    (hnext : ∀ {s arrived part parts}, Holds s arrived (part :: parts) →
      firstAt needle arrived = none → ¬ long arrived.length →
      ∃ s', body s = .inr s' ∧ Holds s' (arrived ++ part) parts)
    {s : σ} {arrived : List α} {parts : List (List α)} (h : Holds s arrived parts) :
    ∃ fuel r, loop body fuel s = some r ∧
      Out (search needle far long arrived parts) (arrived ++ parts.flatten) r := by
  -- by induction on the parts that are still to arrive
  induction parts generalizing s arrived with
  | nil =>
    cases hplace : firstAt needle arrived with
    | some i =>
      obtain ⟨r, hbody, hout⟩ := hfound h hplace
      refine ⟨1, r, loop_done hbody, ?_⟩
      simp only [search, hplace]
      exact hout
    | none =>
      obtain ⟨r, hbody, hout⟩ := hlost h hplace (Or.inr rfl)
      refine ⟨1, r, loop_done hbody, ?_⟩
      simp only [search, hplace]
      exact hout
  | cons part parts ih =>
    cases hplace : firstAt needle arrived with
    | some i =>
      obtain ⟨r, hbody, hout⟩ := hfound h hplace
      refine ⟨1, r, loop_done hbody, ?_⟩
      simp only [search, hplace]
      exact hout
    | none =>
      by_cases hlong : long arrived.length
      · obtain ⟨r, hbody, hout⟩ := hlost h hplace (Or.inl hlong)
        refine ⟨1, r, loop_done hbody, ?_⟩
        simp only [search, hplace, if_pos hlong]
        exact hout
      · -- nothing found and the limit not reached: the next part arrives
        obtain ⟨s', hbody, hs'⟩ := hnext h hplace hlong
        obtain ⟨fuel, r, hloop, hout⟩ := ih hs'
        refine ⟨fuel + 1, r, by rw [loop_next hbody]; exact hloop, ?_⟩
        simp only [search, hplace, if_neg hlong]
        rw [List.flatten_cons, ← List.append_assoc]
        exact hout

end Qwen3Tts.Lib
