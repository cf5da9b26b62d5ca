import Qwen3Tts.Lib.Assoc
import Qwen3Tts.Lib.Fallible
import Qwen3Tts.Lib.PairMerge
import Qwen3Tts.Lib.Text
import Mathlib.Data.Prod.Lex
import Mathlib.Data.List.Sort
import Mathlib.Order.OrderDual

/-!
# Talker — the tokenizer

`tokenizer.rs`. A `str` is the list of its characters, so a cursor and an offset count characters
and not bytes; they are only compared with each other and cut at, both of which agree. The regex
engine and the Unicode tables are other crates' code: a tokenizer holds the matches that the
engine finds in a text (`none` is an error of the engine), and `encode` takes the normal form as
an argument.

* `byte_pair_encode` is `Lib.mergeRound` with passes, over symbols that are strings.
* `encode` is a `Lib.loop` over the rest of the text behind the cursor. Nothing bounds its
  iterations, so it takes fuel.
-/

namespace Qwen3Tts.Talker.Tokenizer

open Qwen3Tts.Lib

/-- `str::len` -/
def byteLength (text : Text) : Nat := (utf8 text).length

/-- An error message; `quoting` has a text in it that is printed with `{:?}`. -/
inductive Message where
  | text (message : String)
  | quoting (before : String) (quoted : Text) (behind : String)
deriving DecidableEq

/-! ## The byte encoder -/

/-- The state of the second loop of `build_byte_encoder`. -/
structure ByteTable where
  values : List Nat
  mapped : List Nat
  offset : Nat

/-- The bytes that stand for themselves. -/
def printable : List Nat := List.range' 33 94 ++ List.range' 161 12 ++ List.range' 174 82

def ByteTable.add (t : ByteTable) (byte : Nat) : ByteTable :=
  if byte ∈ printable then t
  else ⟨t.values ++ [byte], t.mapped ++ [256 + t.offset], t.offset + 1⟩

/-- The last loop: the characters are written to the places of their bytes. -/
def ByteTable.encoder (t : ByteTable) : List Char :=
  (t.values.zip t.mapped).foldl (fun encoder p => encoder.set p.1 (Char.ofNat p.2))
    (List.replicate 256 '\x00')

def buildByteEncoder : List Char :=
  ((List.range 256).foldl ByteTable.add ⟨printable, printable, 0⟩).encoder

/-- `byte_encoder[*byte as usize]` -/
def encodeByte (encoder : List Char) (byte : UInt8) : Char := encoder.getD byte.toNat '\x00'

/-! ## Files -/

/-- `split_inclusive('\n')` -/
def splitInclusive : Text → List Text
  | [] => []
  | c :: rest =>
    if c = '\n' then [c] :: splitInclusive rest
    else match splitInclusive rest with
      | [] => [[c]]
      | line :: lines => (c :: line) :: lines

def stripLineEnd (line : Text) : Text :=
  if line.getLast? = some '\n' then
    if line.dropLast.getLast? = some '\r' then line.dropLast.dropLast else line.dropLast
  else line

/-- `str::lines` -/
def lines (text : Text) : List Text := (splitInclusive text).map stripLineEnd

def startsWithHash (line : Text) : Bool := line.head? == some '#'

def isDigit (c : Char) : Bool := '0' ≤ c && c ≤ '9'

/-- `str::parse::<u32>` -/
def parseU32 (text : Text) : Option UInt32 :=
  let digits := if text.head? = some '+' then text.tail else text
  if digits ≠ [] ∧ digits.all isDigit then
    let value := digits.foldl (fun n c => 10 * n + (c.toNat - '0'.toNat)) 0
    if value < 4294967296 then some (UInt32.ofNat value) else none
  else none

/-- A loaded merge table: the newest entry of a pair is the one that counts. -/
structure MergeRanks where
  entries : List ((Text × Text) × Nat)
  /-- Every entry ranks behind the older ones. -/
  ordered : entries.Pairwise fun newer older => older.2 < newer.2
  /-- `split_whitespace` gives no empty symbol. -/
  nonempty : ∀ e ∈ entries, e.1.1 ≠ [] ∧ e.1.2 ≠ []

def MergeRanks.get (ranks : MergeRanks) (pair : Text × Text) : Option Nat :=
  assoc ranks.entries pair

/-- The table while the file is read; `rank` counts the lines in front. -/
structure MergeReader extends MergeRanks where
  rank : Nat
  below : ∀ e ∈ entries, e.2 < rank

def MergeReader.empty : MergeReader := ⟨⟨[], .nil, by simp⟩, 0, by simp⟩

def MergeReader.insert (t : MergeReader) (left right : Text) (hleft : left ≠ [])
    (hright : right ≠ []) : MergeReader where
  entries := ((left, right), t.rank) :: t.entries
  ordered := List.Pairwise.cons t.below t.ordered
  nonempty := List.forall_mem_cons.mpr ⟨⟨hleft, hright⟩, t.nonempty⟩
  rank := t.rank + 1
  below := List.forall_mem_cons.mpr
    ⟨Nat.lt_succ_self _, fun e he => Nat.lt_succ_of_lt (t.below e he)⟩

theorem ne_nil_of_mem_splitWhitespace (text : Text) {symbol : Text} (h : symbol ∈ splitWhitespace text) :
    symbol ≠ [] := by
  simpa using (List.mem_filter.mp h).2

/-- One line of the merge file. -/
def addMerge (t : MergeReader) (line : Text) : Except Message MergeReader :=
  match h : splitWhitespace line with
  | [] => .error (.text "merge is missing its left symbol")
  | [_] => .error (.text "merge is missing its right symbol")
  | [left, right] =>
    .ok (t.insert left right (ne_nil_of_mem_splitWhitespace line (by simp [h]))
      (ne_nil_of_mem_splitWhitespace line (by simp [h])))
  | _ => .error (.quoting "merge line contains more than two symbols: " line "")

def readMerges (merges : Text) : Except Message MergeRanks := do
  let t ← ((lines merges).filter (!startsWithHash ·)).foldlM addMerge MergeReader.empty
  return t.toMergeRanks

/-- What reading and parsing each of the files gives; maps in the order of their iteration. -/
structure Files where
  vocabulary : Except Message (List (Text × UInt32))
  merges : Except Message Text
  addedTokensDecoder : Except Message (List (Text × Text))

def parseAddedToken (entry : Text × Text) : Except Message (Text × UInt32) :=
  match parseU32 entry.1 with
  | none => .error (.quoting "invalid added-token ID " entry.1 "")
  | some id => .ok (entry.2, id)

/-- The order of `sort_unstable_by`: longer tokens first, then smaller ids. -/
def AddedBefore (left right : Text × UInt32) : Prop :=
  byteLength right.1 < byteLength left.1 ∨
    byteLength right.1 = byteLength left.1 ∧ left.2.toNat ≤ right.2.toNat

instance : DecidableRel AddedBefore := fun _ _ => inferInstanceAs (Decidable (_ ∨ _))

structure Qwen2Tokenizer where
  /-- The matches of `pattern.find_iter`. -/
  pattern : Text → List (Option Text)
  vocabulary : List (Text × UInt32)
  mergeRanks : MergeRanks
  byteEncoder : List Char
  addedTokens : List (Text × UInt32)

def Qwen2Tokenizer.load (pattern : Text → List (Option Text)) (files : Files) :
    Except Message Qwen2Tokenizer := do
  let vocabulary ← files.vocabulary
  let merges ← files.merges
  let mergeRanks ← readMerges merges
  let config ← files.addedTokensDecoder
  let addedTokens ← config.mapM parseAddedToken
  return { pattern, vocabulary, mergeRanks, byteEncoder := buildByteEncoder
           addedTokens := addedTokens.insertionSort AddedBefore }

/-! ## Byte-pair encoding -/

/-- `byte_pair_encode`. The loop ends since every pass merges the pair it was chosen for. -/
def bytePairEncode (ranks : MergeRanks) (token : Text) : List Text :=
  let symbols := token.map fun c => [c]
  if symbols.length < 2 then symbols
  else (loop (mergeRound ranks.get (mergePass (· ++ ·))) (symbols.length + 1) symbols).get
    (loop_pass_isSome (Nat.lt_succ_self _))

/-! ## Encoding -/

/-- `str::find` -/
def find (token : Text) : Text → Option Nat
  | [] => if token = [] then some 0 else none
  | c :: rest =>
    if token.isPrefixOf (c :: rest) then some 0 else (find token rest).map (· + 1)

/-- The first offset, there the longest token, of these the smallest id. -/
def matchKey (m : Nat × Text × UInt32) : ℕ ×ₗ ℕᵒᵈ ×ₗ ℕ :=
  toLex (m.1, toLex (OrderDual.toDual (byteLength m.2.1), m.2.2.toNat))

namespace Qwen2Tokenizer

variable (t : Qwen2Tokenizer)

def nextAddedToken (text : Text) : Option (Nat × Text × UInt32) :=
  (t.addedTokens.filterMap fun added => (find added.1 text).map (·, added)).argmin matchKey

def pushSymbol (output : List UInt32) (token : Text) : Except Message (List UInt32) :=
  match assoc t.vocabulary token with
  | none => .error (.quoting "BPE token " token " is missing from the vocabulary")
  | some id => .ok (output ++ [id])

def encodePiece (output : List UInt32) : Option Text → Except Message (List UInt32)
  | none => .error (.text "Qwen2 pre-tokenizer failed")
  | some piece =>
    (bytePairEncode t.mergeRanks ((utf8 piece).map (encodeByte t.byteEncoder))).foldlM
      t.pushSymbol output

def encodeOrdinary (text : Text) (output : List UInt32) : Except Message (List UInt32) :=
  (t.pattern text).foldlM t.encodePiece output

/-- The text in front of an added token; nothing is encoded where the token comes first. -/
def encodeBefore (text : Text) (offset : Nat) (ids : List UInt32) :
    Except Message (List UInt32) :=
  if offset > 0 then t.encodeOrdinary (text.take offset) ids else .ok ids

/-- One iteration: the text behind the cursor and the ids so far. -/
def encodeStep : Text × List UInt32 → Except Message (List UInt32) ⊕ Text × List UInt32
  | (rest, ids) =>
    if rest = [] then .inl (.ok ids)
    else match t.nextAddedToken rest with
      | some (offset, token, id) =>
        match t.encodeBefore rest offset ids with
        | .error e => .inl (.error e)
        | .ok ids => .inr (rest.drop (offset + token.length), ids ++ [id])
      | none =>
        match t.encodeOrdinary rest ids with
        | .error e => .inl (.error e)
        | .ok ids => .inr ([], ids)

/-- `none` means that the iterations were not enough. -/
def encode (nfc : Text → Text) (fuel : Nat) (text : Text) : Option (Except Message (List UInt32)) :=
  loop t.encodeStep fuel (nfc text, [])

end Qwen2Tokenizer

end Qwen3Tts.Talker.Tokenizer
