import Qwen3Tts.Talker.BytePairs
import Qwen3Tts.Talker.ByteEncoder

/-!
# Talker — the merge file

`load` takes every line that starts with `#` for a comment. Only the version header is one: `#` is
also a byte-level symbol, and a merge whose left symbol starts with it is dropped.

* `load_lists_iff` — the table has all listed pairs, in the order of the file, exactly when no
  left symbol starts with `#`.
-/

namespace Qwen3Tts.Talker.Tokenizer

open Qwen3Tts.Lib

/-- A symbol of characters that the byte encoder writes. -/
def ByteLevel (symbol : Text) : Prop := symbol ≠ [] ∧ ∀ c ∈ symbol, c ∈ buildByteEncoder

/-- A line of two symbols with white space between them. -/
structure MergeLine where
  text : Text
  left : Text
  right : Text
  split : splitWhitespace text = [left, right]
  front : left <+: text
  leftLevel : ByteLevel left
  rightLevel : ByteLevel right

def MergeLine.pair (line : MergeLine) : Text × Text := (line.left, line.right)

/-- The table has every listed pair, and the pairs rank as they are listed. A pair that is listed
again ranks where it is listed last. -/
structure Lists (ranks : MergeRanks) (body : List MergeLine) : Prop where
  contains : ∀ line ∈ body, (ranks.get line.pair).isSome
  inOrder : ∀ front line behind, body = front ++ line :: behind →
    line.pair ∉ behind.map MergeLine.pair → ∀ later ∈ behind, ∀ m n,
      ranks.get line.pair = some m → ranks.get later.pair = some n → m < n

/-! ## Lines -/

/-- A symbol holds no white space. -/
theorem splitOnP_of_byteLevel {symbol : Text} (h : ByteLevel symbol) :
    symbol.splitOnP isWhitespace = [symbol] := by
  rw [List.splitOnP_eq_singleton]
  intro c hc
  rw [not_isWhitespace_of_mem (h.2 c hc)]

/-- `left right` is such a line. -/
def MergeLine.of (left right : Text) (hleft : ByteLevel left) (hright : ByteLevel right) :
    MergeLine where
  text := left ++ ' ' :: right
  left := left
  right := right
  split := by
    have hspace : isWhitespace ' ' = true := by decide
    rw [splitWhitespace, List.splitOnP_append_cons left right hspace, splitOnP_of_byteLevel hleft,
      splitOnP_of_byteLevel hright]
    simp [hleft.1, hright.1]
  front := List.prefix_append _ _
  leftLevel := hleft
  rightLevel := hright

/-- A line is a comment when its first symbol starts with a hash. -/
theorem MergeLine.startsWithHash_text (line : MergeLine) :
    startsWithHash line.text = (line.left.head? == some '#') := by
  obtain ⟨tail, htail⟩ := line.front
  obtain ⟨c, rest, hleft⟩ := List.exists_cons_of_ne_nil line.leftLevel.1
  rw [startsWithHash, ← htail, hleft]
  rfl

/-! ## Reading -/

def MergeReader.add (r : MergeReader) (line : MergeLine) : MergeReader :=
  r.insert line.left line.right line.leftLevel.1 line.rightLevel.1

/-- Reading a line adds its pair. -/
theorem addMerge_text (r : MergeReader) (line : MergeLine) :
    addMerge r line.text = .ok (r.add line) := by
  unfold addMerge
  split
  · next h =>
    rw [line.split] at h
    cases h
  · next h =>
    rw [line.split] at h
    cases h
  · next left right h =>
    have hline := line.split
    rw [h] at hline
    cases hline
    rfl
  · next hne =>
    exact absurd line.split (hne _ _)

/-- Reading the lines adds their pairs. -/
theorem foldlM_addMerge (body : List MergeLine) (r : MergeReader) :
    (body.map MergeLine.text).foldlM addMerge r = .ok (body.foldl MergeReader.add r) := by
  induction body generalizing r with
  | nil => rfl
  | cons line body ih =>
    rw [List.map_cons, List.foldlM_cons, addMerge_text, ok_bind]
    exact ih _

section
variable {body : List MergeLine} {r : MergeReader} {pair : Text × Text}

theorem get_add (line : MergeLine) :
    (r.add line).get pair = if pair = line.pair then some r.rank else r.get pair := rfl

/-- A pair that is not listed keeps its entry. -/
theorem get_foldl_of_not_mem (h : pair ∉ body.map MergeLine.pair) :
    (body.foldl MergeReader.add r).get pair = r.get pair := by
  induction body generalizing r with
  | nil => rfl
  | cons line body ih =>
    rw [List.map_cons, List.mem_cons, not_or] at h
    rw [List.foldl_cons, ih h.2, get_add, if_neg h.1]

/-- A pair that is listed gets a rank behind all lines read before. -/
theorem get_foldl_of_mem (h : pair ∈ body.map MergeLine.pair) :
    ∃ n, (body.foldl MergeReader.add r).get pair = some n ∧ r.rank ≤ n := by
  induction body generalizing r with
  | nil => cases h
  | cons line body ih =>
    rw [List.foldl_cons]
    by_cases hlater : pair ∈ body.map MergeLine.pair
    · obtain ⟨n, hn, hle⟩ := ih (r := r.add line) hlater
      exact ⟨n, hn, Nat.le_of_succ_le hle⟩
    · have hpair : pair = line.pair := by
        rw [List.map_cons, List.mem_cons] at h
        exact h.resolve_right hlater
      refine ⟨r.rank, ?_, Nat.le_refl _⟩
      rw [get_foldl_of_not_mem hlater, get_add, if_pos hpair]

/-- Reading all lines makes the table that is listed. -/
theorem lists_foldl (body : List MergeLine) :
    Lists (body.foldl MergeReader.add MergeReader.empty).toMergeRanks body where
  contains line hline := by
    obtain ⟨n, hn, -⟩ := get_foldl_of_mem (r := MergeReader.empty)
      (List.mem_map_of_mem (f := MergeLine.pair) hline)
    rw [hn]
    rfl
  inOrder front line behind hbody hlast later hlater m n hm hn := by
    -- `line` gets the rank at its place, `later` one of the ranks behind it
    rw [hbody, List.foldl_append, List.foldl_cons] at hm hn
    rw [get_foldl_of_not_mem hlast, get_add, if_pos rfl] at hm
    obtain ⟨n', hn', hle⟩ := get_foldl_of_mem
      (r := (front.foldl MergeReader.add MergeReader.empty).add line)
      (List.mem_map_of_mem (f := MergeLine.pair) hlater)
    rw [hn'] at hn
    cases hm
    cases hn
    exact hle

end

/-- What is left of the file's lines. -/
theorem filter_lines (header : Option Text) (hheader : ∀ h ∈ header, "#version".toList <+: h)
    (body : List MergeLine) :
    (header.toList ++ body.map MergeLine.text).filter (!startsWithHash ·)
      = (body.filter fun line => line.left.head? != some '#').map MergeLine.text := by
  have hhead : header.toList.filter (!startsWithHash ·) = [] := by
    cases header with
    | none => rfl
    | some h =>
      obtain ⟨tail, htail⟩ := hheader h rfl
      have hhash : startsWithHash h = true := by
        rw [← htail]
        rfl
      simp [hhash]
  rw [List.filter_append, hhead, List.nil_append, List.filter_map]
  congr 2
  funext line
  simp only [Function.comp, line.startsWithHash_text]
  rfl

section
variable (pattern : Text → List (Option Text)) (vocabulary : List (Text × UInt32))
  (decoder : List (Text × Text)) (merges : Text) (added : List (Text × UInt32))
  (header : Option Text) (body : List MergeLine)

/-- `load` on a merge file of listed pairs, beside two other files that it accepts. -/
theorem load_mergeRanks (hadded : decoder.mapM parseAddedToken = .ok added)
    (hheader : ∀ h ∈ header, "#version".toList <+: h)
    (hlines : lines merges = header.toList ++ body.map MergeLine.text) :
    ∃ t, Qwen2Tokenizer.load pattern ⟨.ok vocabulary, .ok merges, .ok decoder⟩ = .ok t ∧
      t.mergeRanks = ((body.filter fun line => line.left.head? != some '#').foldl MergeReader.add
        MergeReader.empty).toMergeRanks := by
  have hread : readMerges merges
      = .ok ((body.filter fun line => line.left.head? != some '#').foldl MergeReader.add
        MergeReader.empty).toMergeRanks := by
    unfold readMerges
    rw [hlines, filter_lines header hheader, foldlM_addMerge]
    rfl
  let kept := body.filter fun line => line.left.head? != some '#'
  let t : Qwen2Tokenizer :=
    { pattern, vocabulary, byteEncoder := buildByteEncoder
      mergeRanks := (kept.foldl MergeReader.add MergeReader.empty).toMergeRanks
      addedTokens := added.insertionSort AddedBefore }
  refine ⟨t, ?_, rfl⟩
  unfold Qwen2Tokenizer.load
  simp only [ok_bind, hread, hadded]
  rfl

/-- **All listed merges are loaded exactly when none begins with `#`.** -/
theorem load_lists_iff (hadded : decoder.mapM parseAddedToken = .ok added)
    (hheader : ∀ h ∈ header, "#version".toList <+: h)
    (hlines : lines merges = header.toList ++ body.map MergeLine.text) :
    (∃ t, Qwen2Tokenizer.load pattern ⟨.ok vocabulary, .ok merges, .ok decoder⟩ = .ok t ∧
        Lists t.mergeRanks body) ↔
      ∀ line ∈ body, line.left.head? ≠ some '#' := by
  obtain ⟨t, hload, hranks⟩ := load_mergeRanks pattern vocabulary decoder merges added
    header body hadded hheader hlines
  constructor
  · rintro ⟨t', hload', hlists⟩ line hline hhash
    rw [hload] at hload'
    cases hload'
    -- a pair that begins with `#` is not among the lines that are left
    have hnot : line.pair ∉ (body.filter fun line => line.left.head? != some '#').map
        MergeLine.pair := by
      intro hmem
      obtain ⟨kept, hkept, hpair⟩ := List.mem_map.mp hmem
      have hleft : kept.left = line.left := (Prod.ext_iff.mp hpair).1
      have hfilter := (List.mem_filter.mp hkept).2
      rw [hleft, hhash] at hfilter
      cases hfilter
    have hsome := hlists.contains line hline
    rw [hranks, get_foldl_of_not_mem hnot] at hsome
    cases hsome
  · intro hnone
    have hall : (body.filter fun line => line.left.head? != some '#') = body := by
      rw [List.filter_eq_self]
      intro line hline
      simpa using hnone line hline
    refine ⟨t, hload, ?_⟩
    rw [hranks, hall]
    exact lists_foldl body

end

theorem byteLevel_singleton {c : Char} (h : c ∈ buildByteEncoder) : ByteLevel [c] := by
  refine ⟨by simp, fun d hd => ?_⟩
  rw [List.mem_singleton.mp hd]
  exact h

/-- `#` stands for the byte 35. -/
theorem byteLevel_hash : ByteLevel ['#'] := byteLevel_singleton (mem_buildByteEncoder (by decide))

/-- A header and the merge of two `#`. -/
def hashMerges : Text := "#version: 0.2\n# #\n".toList

/-- The file is loaded without the merge, and `##` stays two symbols. -/
theorem load_drops_hash :
    lines hashMerges
        = ["#version: 0.2".toList, (MergeLine.of ['#'] ['#'] byteLevel_hash byteLevel_hash).text] ∧
      ∃ t, Qwen2Tokenizer.load (fun text => [some text]) ⟨.ok [], .ok hashMerges, .ok []⟩ = .ok t ∧
        ¬ Lists t.mergeRanks [MergeLine.of ['#'] ['#'] byteLevel_hash byteLevel_hash] ∧
        bytePairEncode t.mergeRanks ['#', '#'] = [['#'], ['#']] := by
  let t : Qwen2Tokenizer :=
    { pattern := fun text => [some text], vocabulary := []
      mergeRanks := MergeReader.empty.toMergeRanks, byteEncoder := buildByteEncoder
      addedTokens := [] }
  refine ⟨by decide, t, rfl, ?_, by decide⟩
  intro hlists
  have hsome := hlists.contains _ (List.mem_singleton.mpr rfl)
  exact absurd hsome (by decide)

/-- A file that is loaded whole. -/
theorem load_lists_plain :
    ∃ t, Qwen2Tokenizer.load (fun text => [some text])
        ⟨.ok [], .ok "#version: 0.2\n! #\n".toList, .ok []⟩ = .ok t ∧
      Lists t.mergeRanks [MergeLine.of ['!'] ['#'] (byteLevel_singleton (mem_buildByteEncoder (by decide)))
        byteLevel_hash] := by
  refine (load_lists_iff _ [] [] _ [] (some "#version: 0.2".toList) _ rfl ?_ rfl).mpr ?_
  · intro h hh
    cases hh
    exact ⟨": 0.2".toList, rfl⟩
  · intro line hline
    rw [List.mem_singleton.mp hline]
    decide

end Qwen3Tts.Talker.Tokenizer
