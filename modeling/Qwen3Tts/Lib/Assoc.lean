import Mathlib.Data.List.Perm.Basic
import Mathlib.Data.List.Nodup
import Mathlib.Logic.Function.Basic

/-!
# Lib — association lists seen as finite maps

When objects are moved between the containers of a program, the containers together form an
association list from the objects' keys to their places, in some order. As long as the keys
are distinct the order does not matter: the list is the partial function `assoc l`, and moving
some objects updates that function at their keys. `assoc_insert` and `assoc_update` say so up
to permutation, so that a step of the program only has to exhibit the list before and after as
permutations of a common rest.
-/

namespace Qwen3Tts.Lib

variable {κ β : Type*} [DecidableEq κ]

/-- The keys, in the order of the list. -/
def keys (l : List (κ × β)) : List κ := l.map Prod.fst

/-- The value of the first entry with the key. -/
def assoc : List (κ × β) → κ → Option β
  | [], _ => none
  | (k, v) :: l, x => if x = k then some v else assoc l x

omit [DecidableEq κ] in
@[simp] theorem keys_nil : keys ([] : List (κ × β)) = [] := rfl
omit [DecidableEq κ] in
@[simp] theorem keys_cons {k : κ} {v : β} {l : List (κ × β)} : keys ((k, v) :: l) = k :: keys l := rfl
omit [DecidableEq κ] in
@[simp] theorem keys_append {l l' : List (κ × β)} : keys (l ++ l') = keys l ++ keys l' := by
  simp [keys]

omit [DecidableEq κ] in
theorem keys_perm {l l' : List (κ × β)} (h : l.Perm l') : (keys l).Perm (keys l') := h.map _

/-- The first entry overrides the rest. -/
theorem assoc_cons {k : κ} {v : β} {l : List (κ × β)} :
    assoc ((k, v) :: l) = Function.update (assoc l) k (some v) := by
  funext x
  by_cases h : x = k
  · simp [assoc, h]
  · simp [assoc, h]

/-- Nothing is found exactly when the key is not there. -/
theorem assoc_eq_none {l : List (κ × β)} {x : κ} : assoc l x = none ↔ x ∉ keys l := by
  induction l with
  | nil => simp [assoc]
  | cons p l ih =>
    obtain ⟨k, v⟩ := p
    by_cases h : x = k
    · simp [assoc, h]
    · simp [assoc, h, ih]

theorem assoc_isSome {l : List (κ × β)} {x : κ} : (assoc l x).isSome ↔ x ∈ keys l := by
  rw [← not_iff_not, ← assoc_eq_none]
  simp

/-- What is found is an entry. -/
theorem mem_of_assoc {l : List (κ × β)} {x : κ} {v : β} (h : assoc l x = some v) : (x, v) ∈ l := by
  induction l with
  | nil => simp [assoc] at h
  | cons p l ih =>
    obtain ⟨k, w⟩ := p
    by_cases hx : x = k
    · simp [assoc, hx] at h
      simp [hx, h]
    · simp [assoc, hx] at h
      exact List.mem_cons_of_mem _ (ih h)

/-- With unique keys every entry is found. -/
theorem assoc_of_mem {l : List (κ × β)} (hl : (keys l).Nodup) {x : κ} {v : β} (h : (x, v) ∈ l) :
    assoc l x = some v := by
  induction l with
  | nil => simp at h
  | cons p l ih =>
    obtain ⟨k, w⟩ := p
    rw [keys_cons, List.nodup_cons] at hl
    rcases List.mem_cons.mp h with heq | hmem
    · cases heq
      simp [assoc]
    · -- the key of the first entry does not occur in the rest
      have hx : x ≠ k := by
        rintro rfl
        exact hl.1 (List.mem_map_of_mem (f := Prod.fst) hmem)
      simp [assoc, hx, ih hl.2 hmem]

/-- The order of an association list with distinct keys does not matter. -/
theorem assoc_perm {l l' : List (κ × β)} (hl : (keys l).Nodup) (h : l.Perm l') :
    assoc l = assoc l' := by
  have hl' : (keys l').Nodup := (keys_perm h).nodup_iff.mp hl
  funext x
  cases hx : assoc l x with
  | none =>
    rw [assoc_eq_none] at hx
    rw [eq_comm, assoc_eq_none]
    exact fun hmem => hx ((keys_perm h).mem_iff.mpr hmem)
  | some v => exact (assoc_of_mem hl' (h.mem_iff.mp (mem_of_assoc hx))).symm

/-- A new key. -/
theorem assoc_insert {l l' : List (κ × β)} {k : κ} {v : β} (hl : (keys l).Nodup) (hk : k ∉ keys l)
    (h' : l'.Perm ((k, v) :: l)) :
    (keys l').Nodup ∧ assoc l k = none ∧ assoc l' = Function.update (assoc l) k (some v) := by
  have hl' : (keys l').Nodup := by
    refine (keys_perm h').nodup_iff.mpr ?_
    rw [keys_cons, List.nodup_cons]
    exact ⟨hk, hl⟩
  rw [assoc_perm hl' h', assoc_cons]
  exact ⟨hl', assoc_eq_none.mpr hk, rfl⟩

section Sorted

variable [LT κ] [DecidableLT κ]

/-- Puts a value under its key, in front of the larger keys. -/
def insertSorted (k : κ) (v : β) : List (κ × β) → List (κ × β)
  | [] => [(k, v)]
  | p :: l =>
    if p.1 = k then (k, v) :: l
    else if p.1 < k then p :: insertSorted k v l
    else (k, v) :: p :: l

/-- Inserting adds the entry somewhere. -/
theorem insertSorted_perm {k : κ} {v : β} {l : List (κ × β)} (hk : k ∉ keys l) :
    (insertSorted k v l).Perm ((k, v) :: l) := by
  induction l with
  | nil => exact .refl _
  | cons p l ih =>
    obtain ⟨hp, hl⟩ := not_or.mp (mt List.mem_cons.mpr hk)
    rw [insertSorted, if_neg (Ne.symm hp)]
    split
    · exact ((ih hl).cons p).trans (.swap _ _ _)
    · exact .refl _

theorem keys_insertSorted_perm {k : κ} {v : β} {l : List (κ × β)} (hk : k ∉ keys l) :
    (keys (insertSorted k v l)).Perm (k :: keys l) := keys_perm (insertSorted_perm hk)

end Sorted

section Update

variable {α : Type*} {xs : List α} {key : α → κ} {f : α → β} {g : α → Option β}

/-- The entries of `xs` after an update: `none` is an entry that is gone. -/
def entries (key : α → κ) (g : α → Option β) (xs : List α) : List (κ × β) :=
  xs.filterMap fun x => (g x).map (key x, ·)

omit [DecidableEq κ] in
@[simp] theorem entries_nil : entries key g [] = [] := rfl

omit [DecidableEq κ] in
@[simp] theorem entries_some : entries key (fun x => some (f x)) xs = xs.map fun x => (key x, f x) := by
  simp [entries]

omit [DecidableEq κ] in
/-- The entries are those the function keeps. -/
theorem mem_entries {k : κ} {v : β} :
    (k, v) ∈ entries key g xs ↔ ∃ x ∈ xs, key x = k ∧ g x = some v := by
  simp only [entries, List.mem_filterMap, Option.map_eq_some_iff, Prod.mk.injEq]
  constructor
  · rintro ⟨x, hx, w, hw, rfl, rfl⟩
    exact ⟨x, hx, rfl, hw⟩
  · rintro ⟨x, hx, rfl, hw⟩
    exact ⟨x, hx, v, hw, rfl, rfl⟩

omit [DecidableEq κ] in
/-- No key is added. -/
theorem keys_entries_sublist : (keys (entries key g xs)).Sublist (xs.map key) := by
  induction xs with
  | nil => exact List.Sublist.refl _
  | cons x xs ih =>
    cases hg : g x with
    | none => simpa [entries, hg] using ih.cons (key x)
    | some v => simpa [entries, hg, keys] using ih.cons_cons (key x)

/-- **Changing or removing the values of some keys at once.** Each of them had its old value and
has its new one, every other key keeps its value. -/
theorem assoc_update {l l' rest : List (κ × β)} (hl : (keys l).Nodup)
    (h : l.Perm (xs.map (fun x => (key x, f x)) ++ rest))
    (h' : l'.Perm (entries key g xs ++ rest)) :
    (keys l').Nodup ∧ (∀ x ∈ xs, assoc l (key x) = some (f x) ∧ assoc l' (key x) = g x) ∧
      ∀ k, k ∉ xs.map key → assoc l' k = assoc l k := by
  have hkeys : keys (xs.map (fun x => (key x, f x)) ++ rest) = xs.map key ++ keys rest := by
    simp [keys, Function.comp_def]
  have hnd : (xs.map key ++ keys rest).Nodup := hkeys ▸ (keys_perm h).nodup_iff.mp hl
  have hl' : (keys l').Nodup := by
    refine (keys_perm h').nodup_iff.mpr ?_
    rw [keys_append]
    exact hnd.sublist (keys_entries_sublist.append (List.Sublist.refl _))
  obtain ⟨hxs, -, hdisj⟩ := List.nodup_append.mp hnd
  refine ⟨hl', fun x hx => ⟨?_, ?_⟩, fun k hk => ?_⟩
  · refine assoc_of_mem hl (h.mem_iff.mpr (List.mem_append_left _ ?_))
    exact List.mem_map.mpr ⟨x, hx, rfl⟩
  · have hrest : key x ∉ keys rest :=
      fun hmem => hdisj _ (List.mem_map_of_mem hx) _ hmem rfl
    cases hg : g x with
    | some v =>
      refine assoc_of_mem hl' (h'.mem_iff.mpr (List.mem_append_left _ ?_))
      exact mem_entries.mpr ⟨x, hx, rfl, hg⟩
    | none =>
      rw [assoc_eq_none, (keys_perm h').mem_iff, keys_append, List.mem_append]
      rintro (hmem | hmem)
      · -- another entry of `xs` under the same key is `x` itself
        obtain ⟨⟨k, v⟩, hkv, hk⟩ := List.mem_map.mp hmem
        obtain ⟨y, hy, hky, hgy⟩ := mem_entries.mp hkv
        have hyx : y = x := List.inj_on_of_nodup_map hxs hy hx (hky.trans hk)
        rw [hyx, hg] at hgy
        cases hgy
      · exact hrest hmem
  · have hmem : ∀ v, (k, v) ∈ l' ↔ (k, v) ∈ l := by
      intro v
      rw [h.mem_iff, h'.mem_iff, List.mem_append, List.mem_append, mem_entries]
      constructor
      · rintro (⟨x, hx, rfl, -⟩ | hin)
        · exact absurd (List.mem_map_of_mem hx) hk
        · exact .inr hin
      · rintro (hin | hin)
        · obtain ⟨x, hx, heq⟩ := List.mem_map.mp hin
          exact absurd (List.mem_map.mpr ⟨x, hx, (Prod.mk.inj heq).1⟩) hk
        · exact .inr hin
    cases hv : assoc l k with
    | none =>
      rw [assoc_eq_none] at hv ⊢
      intro hin
      obtain ⟨⟨k', v⟩, hkv, rfl⟩ := List.mem_map.mp hin
      exact hv (List.mem_map_of_mem (f := Prod.fst) ((hmem v).mp hkv))
    | some v => exact assoc_of_mem hl' ((hmem v).mpr (mem_of_assoc hv))

end Update

section Entry

/-- Changes the value under one key. -/
def modifyAt (k : κ) (f : β → β) (l : List (κ × β)) : List (κ × β) :=
  l.map fun p => if p.1 = k then (p.1, f p.2) else p

/-- Removes one key. -/
def eraseAt (k : κ) (l : List (κ × β)) : List (κ × β) := l.filter fun p => p.1 ≠ k

variable {k : κ} {f : β → β} {l : List (κ × β)}

/-- Modifying one key changes the value at that key. -/
theorem assoc_modifyAt (x : κ) :
    assoc (modifyAt k f l) x = if x = k then (assoc l x).map f else assoc l x := by
  induction l with
  | nil => simp [modifyAt, assoc]
  | cons p l ih =>
    obtain ⟨k', v⟩ := p
    have htail : assoc (modifyAt k f ((k', v) :: l)) x
        = if x = k' then some (if k' = k then f v else v) else assoc (modifyAt k f l) x := by
      by_cases hk : k' = k <;> simp [modifyAt, assoc, hk]
    rw [htail, ih, assoc]
    by_cases hx : x = k' <;> by_cases hk : k' = k <;> by_cases hxk : x = k <;> simp_all

/-- Erasing a key removes what is found at it. -/
theorem assoc_eraseAt (x : κ) : assoc (eraseAt k l) x = if x = k then none else assoc l x := by
  induction l with
  | nil => simp [eraseAt, assoc]
  | cons p l ih =>
    obtain ⟨k', v⟩ := p
    have htail : assoc (eraseAt k ((k', v) :: l)) x
        = if k' = k then assoc (eraseAt k l) x
          else if x = k' then some v else assoc (eraseAt k l) x := by
      by_cases hk : k' = k <;> simp [eraseAt, assoc, hk]
    rw [htail, ih, assoc]
    by_cases hx : x = k' <;> by_cases hk : k' = k <;> by_cases hxk : x = k <;> simp_all

/-- Two modifications of one key are one. -/
theorem modifyAt_modifyAt (g : β → β) : modifyAt k g (modifyAt k f l) = modifyAt k (g ∘ f) l := by
  unfold modifyAt
  rw [List.map_map]
  refine List.map_congr_left fun p _ => ?_
  by_cases hp : p.1 = k <;> simp [hp]

/-- A modification before the erasure is lost. -/
theorem eraseAt_modifyAt : eraseAt k (modifyAt k f l) = eraseAt k l := by
  induction l with
  | nil => rfl
  | cons p l ih =>
    have ih' : (modifyAt k f l).filter (fun p => p.1 ≠ k) = l.filter fun p => p.1 ≠ k := ih
    by_cases hp : p.1 = k
    · show ((if p.1 = k then (p.1, f p.2) else p) :: modifyAt k f l).filter _ = (p :: l).filter _
      rw [if_pos hp, List.filter_cons_of_neg (by simp [hp]), List.filter_cons_of_neg (by simp [hp]),
        ih']
    · show ((if p.1 = k then (p.1, f p.2) else p) :: modifyAt k f l).filter _ = (p :: l).filter _
      rw [if_neg hp, List.filter_cons_of_pos (by simp [hp]), List.filter_cons_of_pos (by simp [hp]),
        ih']

/-- Modifying keeps the keys. -/
theorem keys_modifyAt : keys (modifyAt k f l) = keys l := by
  unfold keys modifyAt
  rw [List.map_map]
  refine List.map_congr_left fun p _ => ?_
  by_cases hp : p.1 = k <;> simp [hp]

/-- Erasing adds no key. -/
theorem keys_eraseAt_sublist : (keys (eraseAt k l)).Sublist (keys l) :=
  List.filter_sublist.map _

/-- Modifying an absent key does nothing. -/
theorem modifyAt_of_notMem (hk : k ∉ keys l) : modifyAt k f l = l := by
  unfold modifyAt
  conv_rhs => rw [← List.map_id l]
  refine List.map_congr_left fun p hp => ?_
  have hne : p.1 ≠ k := by
    rintro rfl
    exact hk (List.mem_map_of_mem hp)
  rw [if_neg hne]
  rfl

/-- Erasing an absent key does nothing. -/
theorem eraseAt_of_notMem (hk : k ∉ keys l) : eraseAt k l = l := by
  refine List.filter_eq_self.mpr fun p hp => ?_
  have hne : p.1 ≠ k := by
    rintro rfl
    exact hk (List.mem_map_of_mem hp)
  simpa using hne

/-- An entry and the rest. -/
theorem perm_eraseAt (hl : (keys l).Nodup) {v : β} (h : assoc l k = some v) :
    l.Perm ((k, v) :: eraseAt k l) := by
  induction l with
  | nil => cases h
  | cons p l ih =>
    obtain ⟨k', w⟩ := p
    obtain ⟨hk', hl⟩ := List.nodup_cons.mp hl
    -- the first entry is the one that is erased, or one that stays
    by_cases hk : k = k'
    · subst hk
      have hv : w = v := by simpa [assoc] using h
      have hrest : eraseAt k ((k, w) :: l) = l :=
        (List.filter_cons_of_neg (by simp)).trans (eraseAt_of_notMem hk')
      rw [hrest, hv]
    · have htail : assoc l k = some v := by simpa [assoc, hk] using h
      have hrest : eraseAt k ((k', w) :: l) = (k', w) :: eraseAt k l :=
        List.filter_cons_of_pos (by simpa using Ne.symm hk)
      rw [hrest]
      exact ((ih hl htail).cons _).trans (List.Perm.swap _ _ _)

/-- An entry that is changed, and the rest. -/
theorem perm_modifyAt (hl : (keys l).Nodup) {v : β} (h : assoc l k = some v) :
    (modifyAt k f l).Perm ((k, f v) :: eraseAt k l) := by
  have hkeys : (keys (modifyAt k f l)).Nodup := by rwa [keys_modifyAt]
  have hentry : assoc (modifyAt k f l) k = some (f v) := by
    rw [assoc_modifyAt, if_pos rfl, h]
    rfl
  have hperm := perm_eraseAt hkeys hentry
  rwa [eraseAt_modifyAt] at hperm

/-- Changes the values under some keys, one after the other. -/
def modifyEach (ks : List κ) (f : β → β) (l : List (κ × β)) : List (κ × β) :=
  ks.foldl (fun l k => modifyAt k f l) l

/-- Modifying several keys changes the values at these keys. -/
theorem assoc_modifyEach {ks : List κ} (hks : ks.Nodup) (x : κ) :
    assoc (modifyEach ks f l) x = if x ∈ ks then (assoc l x).map f else assoc l x := by
  induction ks generalizing l with
  | nil => simp [modifyEach]
  | cons k ks ih =>
    obtain ⟨hk, hks⟩ := List.nodup_cons.mp hks
    have htail : assoc (modifyEach (k :: ks) f l) x = assoc (modifyEach ks f (modifyAt k f l)) x :=
      rfl
    rw [htail, ih hks, assoc_modifyAt]
    by_cases hx : x = k
    · have hnot : x ∉ ks := fun hmem => hk (hx ▸ hmem)
      simp [hx, hk]
    · simp [hx]

theorem assoc_modifyEach_of_notMem {ks : List κ} {x : κ} (hx : x ∉ ks) :
    assoc (modifyEach ks f l) x = assoc l x := by
  induction ks generalizing l with
  | nil => rfl
  | cons k ks ih =>
    obtain ⟨hk, hks⟩ := not_or.mp (mt List.mem_cons.mpr hx)
    show assoc (modifyEach ks f (modifyAt k f l)) x = assoc l x
    rw [ih hks, assoc_modifyAt, if_neg hk]

/-- What the changes keep of one value they keep of all values, however often a key is named. -/
theorem forall_modifyEach {ks : List κ} {P : β → Prop} (hf : ∀ v, P v → P (f v))
    (h : ∀ x v, assoc l x = some v → P v) :
    ∀ x v, assoc (modifyEach ks f l) x = some v → P v := by
  induction ks generalizing l with
  | nil => exact h
  | cons k ks ih =>
    refine ih fun x v hv => ?_
    rw [assoc_modifyAt] at hv
    split at hv
    · obtain ⟨w, hw, rfl⟩ := Option.map_eq_some_iff.mp hv
      exact hf w (h x w hw)
    · exact h x v hv

/-- A list whose values are mapped. -/
theorem assoc_map {γ : Type*} (g : β → γ) (l : List (κ × β)) (x : κ) :
    assoc (l.map fun p => (p.1, g p.2)) x = (assoc l x).map g := by
  induction l with
  | nil => rfl
  | cons p l ih =>
    obtain ⟨k', v⟩ := p
    by_cases hx : x = k'
    · simp [assoc, hx]
    · simp [assoc, hx, ih]

end Entry

end Qwen3Tts.Lib
