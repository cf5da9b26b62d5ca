import Qwen3Tts.Talker.Tokenizer
import Mathlib.Data.List.DropRight

/-!
# Talker — the pre-tokenizer

The seven alternatives of `PRETOKENIZE_REGEX` as functions from a text to the length of their
match at its front, and the first that matches counts. What backtracking leaves is written out:
greedy runs give characters back only in front of the line breaks and of the lookahead. The
classes `\p{L}` and `\p{N}` are the engine's tables.
-/

namespace Qwen3Tts.Talker.Tokenizer

open Qwen3Tts.Lib

/-- The classes of the engine. Letters and numbers are no white space, and ASCII letters are
letters and no numbers. -/
structure CharClasses where
  letter : Char → Bool
  number : Char → Bool
  letter_space : ∀ c, isWhitespace c = true → letter c = false
  number_space : ∀ c, isWhitespace c = true → number c = false
  letter_ascii : ∀ c, 'a' ≤ c → c ≤ 'z' → letter c = true
  number_ascii : ∀ c, 'a' ≤ c → c ≤ 'z' → number c = false

def isLineBreak (c : Char) : Bool := c == '\r' || c == '\n'

/-- Equality under `(?i:…)`; the long s folds to `s`. -/
def foldsTo (pattern c : Char) : Bool :=
  c == pattern || c == pattern.toUpper || (pattern == 's' && c == 'ſ')

def contractions : List Text := [['s'], ['t'], ['r', 'e'], ['v', 'e'], ['m'], ['l', 'l'], ['d']]

namespace CharClasses

variable (classes : CharClasses)

/-- `[^\s\p{L}\p{N}]` -/
def other (c : Char) : Bool := !isWhitespace c && !classes.letter c && !classes.number c

/-- The length of the longest run of `p` at the front. -/
def runLength (p : Char → Bool) (text : Text) : Nat := (text.takeWhile p).length

/-- `+`: a run that is not empty. -/
def runMatch (p : Char → Bool) (text : Text) : Option Nat :=
  if runLength p text = 0 then none else some (runLength p text)

/-- `(?i:'s|'t|'re|'ve|'m|'ll|'d)` -/
def contraction (text : Text) : Option Nat :=
  match text with
  | '\'' :: rest =>
    (contractions.find? fun word =>
      word.length ≤ rest.length && (word.zip rest).all fun p => foldsTo p.1 p.2).map
        fun word => word.length + 1
  | _ => none

/-- `[^\r\n\p{L}\p{N}]?\p{L}+` -/
def word (text : Text) : Option Nat :=
  match text with
  | [] => none
  | c :: rest =>
    if !isLineBreak c && !classes.letter c && !classes.number c then
      (runMatch classes.letter rest).map (· + 1)
    else runMatch classes.letter text

/-- `\p{N}` -/
def digit (text : Text) : Option Nat :=
  match text with
  | [] => none
  | c :: _ => if classes.number c then some 1 else none

/-- `[^\s\p{L}\p{N}]+[\r\n]*` -/
def symbols (text : Text) : Option Nat :=
  (runMatch classes.other text).map fun n => n + runLength isLineBreak (text.drop n)

/-- ` ?[^\s\p{L}\p{N}]+[\r\n]*` -/
def punctuation (text : Text) : Option Nat :=
  match text with
  | ' ' :: rest => (classes.symbols rest).map (· + 1)
  | _ => classes.symbols text

/-- `\s*[\r\n]+`: white space up to the last line break of the run. -/
def lineBreaks (text : Text) : Option Nat :=
  let matched := (text.takeWhile isWhitespace).rdropWhile fun c => !isLineBreak c
  if matched = [] then none else some matched.length

/-- `\s+(?!\S)`: in front of a character that is no white space the run gives one back. -/
def trailingSpace (text : Text) : Option Nat :=
  let n := runLength isWhitespace text
  if n = 0 then none
  else if text.drop n = [] then some n
  else if n = 1 then none
  else some (n - 1)

/-- `\s+` -/
def space (text : Text) : Option Nat := runMatch isWhitespace text

/-- The match of `PRETOKENIZE_REGEX` at the front of a text. -/
def matchLength (text : Text) : Option Nat :=
  contraction text <|> classes.word text <|> classes.digit text <|> classes.punctuation text <|>
    lineBreaks text <|> trailingSpace text <|> space text

/-- `find_iter`: the matches one behind the other; a place without a match is passed over. -/
def findIter : Nat → Text → List Text
  | 0, _ => []
  | _ + 1, [] => []
  | fuel + 1, c :: rest =>
    match classes.matchLength (c :: rest) with
    | some n => (c :: rest).take n :: findIter fuel ((c :: rest).drop n)
    | none => findIter fuel rest

def pretokenize (text : Text) : List Text := classes.findIter text.length text

end CharClasses

/-! ## The matches tile the text -/

namespace CharClasses

section
variable {classes : CharClasses} {p : Char → Bool} {c : Char} {rest text : Text} {n : Nat}

/-- A run that starts matches. -/
theorem runMatch_of_pos (rest : Text) (h : p c = true) : ∃ n, runMatch p (c :: rest) = some n := by
  have hne : runLength p (c :: rest) ≠ 0 := by simp [runLength, List.takeWhile_cons_of_pos h]
  exact ⟨_, if_neg hne⟩

theorem runMatch_of_neg (h : p c = false) : runMatch p (c :: rest) = none := by
  have hzero : runLength p (c :: rest) = 0 := by
    simp [runLength, List.takeWhile_cons_of_neg (Bool.eq_false_iff.mp h)]
  rw [runMatch, if_pos hzero]

/-- No match is empty. -/
theorem pos_of_runMatch (h : runMatch p text = some n) : 0 < n := by
  unfold runMatch at h
  split at h
  · cases h
  · next hne =>
    cases h
    exact Nat.pos_of_ne_zero hne

theorem pos_of_word (h : classes.word text = some n) : 0 < n := by
  cases text with
  | nil => cases h
  | cons c rest =>
    simp only [word] at h
    split at h
    · obtain ⟨m, -, rfl⟩ := Option.map_eq_some_iff.mp h
      omega
    · exact pos_of_runMatch h

theorem pos_of_digit (h : classes.digit text = some n) : 0 < n := by
  cases text with
  | nil => cases h
  | cons c rest =>
    simp only [digit] at h
    split at h
    · cases h
      omega
    · cases h

theorem pos_of_symbols (h : classes.symbols text = some n) : 0 < n := by
  obtain ⟨m, hm, rfl⟩ := Option.map_eq_some_iff.mp h
  have hpos := pos_of_runMatch hm
  omega

theorem pos_of_punctuation (h : classes.punctuation text = some n) : 0 < n := by
  unfold punctuation at h
  split at h
  · obtain ⟨m, -, rfl⟩ := Option.map_eq_some_iff.mp h
    omega
  · exact pos_of_symbols h

theorem pos_of_contraction (h : contraction text = some n) : 0 < n := by
  unfold contraction at h
  split at h
  · obtain ⟨word, -, rfl⟩ := Option.map_eq_some_iff.mp h
    omega
  · cases h

theorem pos_of_lineBreaks (h : lineBreaks text = some n) : 0 < n := by
  simp only [lineBreaks] at h
  split at h
  · cases h
  · next hne =>
    cases h
    exact List.length_pos_iff.mpr hne

theorem pos_of_trailingSpace (h : trailingSpace text = some n) : 0 < n := by
  simp only [trailingSpace] at h
  split at h
  · cases h
  · split at h
    · cases h
      omega
    · split at h
      · cases h
      · cases h
        omega

/-- No match is empty. -/
theorem pos_of_matchLength (h : classes.matchLength text = some n) : 0 < n := by
  unfold matchLength at h
  simp only [Option.orElse_eq_orElse, Option.orElse_eq_or, Option.or_eq_some_iff] at h
  rcases h with h | ⟨-, h | ⟨-, h | ⟨-, h | ⟨-, h | ⟨-, h | ⟨-, h⟩⟩⟩⟩⟩⟩
  · exact pos_of_contraction h
  · exact pos_of_word h
  · exact pos_of_digit h
  · exact pos_of_punctuation h
  · exact pos_of_lineBreaks h
  · exact pos_of_trailingSpace h
  · exact pos_of_runMatch h

/-- Every character begins a match: it is white space, a letter, a number or something else. -/
theorem exists_matchLength (classes : CharClasses) (c : Char) (rest : Text) :
    ∃ n, classes.matchLength (c :: rest) = some n := by
  have hsome : ∀ {a b : Option Nat}, (∃ n, b = some n) → ∃ n, (a <|> b) = some n := by
    intro a b hb
    cases a with
    | none => simpa using hb
    | some n => exact ⟨n, rfl⟩
  have hleft : ∀ {a b : Option Nat}, (∃ n, a = some n) → ∃ n, (a <|> b) = some n := by
    rintro a b ⟨n, rfl⟩
    exact ⟨n, rfl⟩
  -- the alternatives are tried in order, and one takes the first character whatever it is
  unfold matchLength
  by_cases hspace : isWhitespace c = true
  · iterate 6 apply hsome
    exact runMatch_of_pos rest hspace
  · by_cases hletter : classes.letter c = true
    · apply hsome
      apply hleft
      simp only [word, hletter, Bool.not_true, Bool.and_false, Bool.false_and]
      exact runMatch_of_pos rest hletter
    · by_cases hnumber : classes.number c = true
      · apply hsome
        apply hsome
        apply hleft
        exact ⟨1, if_pos hnumber⟩
      · iterate 3 apply hsome
        apply hleft
        have hother : classes.other c = true := by simp [other, hspace, hletter, hnumber]
        have hne : c ≠ ' ' := by
          rintro rfl
          exact hspace (by decide)
        obtain ⟨n, hn⟩ := runMatch_of_pos rest hother
        refine ⟨n + runLength isLineBreak ((c :: rest).drop n), ?_⟩
        unfold punctuation
        split
        · next heq =>
          cases heq
          exact absurd rfl hne
        · rw [symbols, hn]
          rfl

/-- The matches cover the text. -/
theorem flatten_findIter {fuel : Nat} (h : text.length ≤ fuel) :
    (classes.findIter fuel text).flatten = text := by
  induction fuel generalizing text with
  | zero =>
    have hnil : text = [] := List.eq_nil_of_length_eq_zero (by omega)
    rw [hnil]
    rfl
  | succ fuel ih =>
    cases text with
    | nil => rfl
    | cons c rest =>
      obtain ⟨n, hn⟩ := exists_matchLength classes c rest
      have hpos := pos_of_matchLength hn
      have hrest : ((c :: rest).drop n).length ≤ fuel := by
        rw [List.length_drop]
        simp only [List.length_cons] at h ⊢
        omega
      simp only [findIter, hn]
      rw [List.flatten_cons, ih hrest, List.take_append_drop]

/-- The pieces join to the text. -/
theorem flatten_pretokenize (classes : CharClasses) (text : Text) :
    (classes.pretokenize text).flatten = text := flatten_findIter (Nat.le_refl _)

end

end CharClasses

/-- The tables on ASCII text. -/
def asciiClasses : CharClasses where
  letter c := (65 ≤ c.toNat && c.toNat ≤ 90) || (97 ≤ c.toNat && c.toNat ≤ 122)
  number c := 48 ≤ c.toNat && c.toNat ≤ 57
  letter_space c h := by
    simp only [isWhitespace, Bool.or_eq_true, Bool.and_eq_true, decide_eq_true_eq, beq_iff_eq] at h
    simp only [Bool.or_eq_false_iff, Bool.and_eq_false_iff, decide_eq_false_iff_not]
    omega
  number_space c h := by
    simp only [isWhitespace, Bool.or_eq_true, Bool.and_eq_true, decide_eq_true_eq, beq_iff_eq] at h
    simp only [Bool.and_eq_false_iff, decide_eq_false_iff_not]
    omega
  letter_ascii c ha hz := by
    have hlow : 97 ≤ c.toNat := ha
    have hhigh : c.toNat ≤ 122 := hz
    simp [hlow, hhigh]
  number_ascii c ha _ := by
    have hlow : 97 ≤ c.toNat := ha
    simp only [Bool.and_eq_false_iff, decide_eq_false_iff_not]
    omega

example : asciiClasses.pretokenize "I'm sure they'LL see 2026 voices!".toList =
    ["I", "'m", " sure", " they", "'LL", " see", " ", "2", "0", "2", "6", " voices", "!"].map
      String.toList := by decide

example : asciiClasses.pretokenize "line one\n\n  indented\ttab  ".toList =
    ["line", " one", "\n\n", " ", " indented", "\ttab", "  "].map String.toList := by
  decide

end Qwen3Tts.Talker.Tokenizer
