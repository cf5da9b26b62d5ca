import Qwen3Tts.Talker.ByteEncoder
import Qwen3Tts.Talker.Scan

/-!
# Talker — what the ids spell

The ids of a text expand to the bytes of its normal form: an added token to its content, any other
id to the bytes that its symbol stands for. This needs ids that mean one thing each. `load` does
not ask for that, and with a shared id two texts have the same encoding.

* `encode_lossless` — the byte encoder is a bijection, the expansion gives back the text, and the
  added tokens among the ids are those of the scan.
-/

namespace Qwen3Tts.Talker.Tokenizer

open Qwen3Tts.Lib

/-- The inverse of the byte encoder. -/
def decodeByte (c : Char) : Option UInt8 := (buildByteEncoder.idxOf? c).map UInt8.ofNat

/-! ## The byte encoder is a bijection -/

/-- There is one character for each byte. -/
theorem length_buildByteEncoder : buildByteEncoder.length = 256 := by
  rw [buildByteEncoder_eq, List.length_map]
  simp [byteCodes]

/-- No two bytes share a character. -/
theorem nodup_buildByteEncoder : buildByteEncoder.Nodup := by
  rw [buildByteEncoder_eq]
  refine nodup_byteCodes.map_on fun m hm n hn heq => ?_
  rw [← toNat_ofNat_of_mem hm, ← toNat_ofNat_of_mem hn, heq]

/-- The lookup of a byte is within the table. -/
theorem encodeByte_eq (b : UInt8) :
    ∃ h : b.toNat < buildByteEncoder.length,
      encodeByte buildByteEncoder b = buildByteEncoder[b.toNat] := by
  have hlt : b.toNat < buildByteEncoder.length := by
    rw [length_buildByteEncoder]
    exact b.toNat_lt
  refine ⟨hlt, ?_⟩
  rw [encodeByte, List.getD_eq_getElem?_getD, List.getElem?_eq_getElem hlt, Option.getD_some]

/-- Decoding inverts encoding. -/
theorem decodeByte_encodeByte (b : UInt8) :
    decodeByte (encodeByte buildByteEncoder b) = some b := by
  obtain ⟨hlt, heq⟩ := encodeByte_eq b
  have hindex : buildByteEncoder.idxOf? (encodeByte buildByteEncoder b) = some b.toNat := by
    rw [List.idxOf?_eq_some_iff]
    refine ⟨hlt, heq.symm, fun j hj hsame => ?_⟩
    rw [heq] at hsame
    have hplace := nodup_buildByteEncoder.getElem_inj_iff.mp hsame
    omega
  rw [decodeByte, hindex]
  exact congrArg some (UInt8.ofNat_toNat)

/-- Bytes can be told apart by their characters. -/
theorem encodeByte_injective : Function.Injective (encodeByte buildByteEncoder) := by
  intro a b hab
  have ha := decodeByte_encodeByte a
  rw [hab, decodeByte_encodeByte b] at ha
  exact (Option.some.inj ha).symm

/-- Every character of the table is that of a byte. -/
theorem exists_encodeByte {c : Char} (h : c ∈ buildByteEncoder) :
    ∃ b, encodeByte buildByteEncoder b = c := by
  obtain ⟨n, hn, hc⟩ := List.getElem_of_mem h
  have hbyte : n < 256 := by rw [← length_buildByteEncoder]; exact hn
  obtain ⟨hlt, heq⟩ := encodeByte_eq (UInt8.ofNat n)
  have hplace : (UInt8.ofNat n).toNat = n := UInt8.toNat_ofNat_of_lt hbyte
  refine ⟨UInt8.ofNat n, ?_⟩
  rw [heq, ← hc]
  simp only [hplace]

/-! ## Symbols and their bytes -/

/-- The bytes of a symbol. -/
def decodeSymbol (symbol : Text) : Option (List UInt8) := symbol.mapM decodeByte

/-- The bytes of a symbol are those it was made from. -/
theorem decodeSymbol_map (bytes : List UInt8) :
    decodeSymbol (bytes.map (encodeByte buildByteEncoder)) = some bytes := by
  induction bytes with
  | nil => rfl
  | cons b bytes ih =>
    rw [decodeSymbol, List.map_cons, List.mapM_cons, decodeByte_encodeByte]
    unfold decodeSymbol at ih
    rw [ih]
    rfl

/-- Symbols that join to encoded bytes are each encoded bytes. -/
theorem exists_chunks {f : UInt8 → Char} {symbols : List Text} {bytes : List UInt8}
    (h : symbols.flatten = bytes.map f) :
    ∃ chunks : List (List UInt8), symbols = chunks.map (List.map f) ∧ chunks.flatten = bytes := by
  induction symbols generalizing bytes with
  | nil =>
    have hnil : bytes = [] := List.map_eq_nil_iff.mp h.symm
    exact ⟨[], rfl, hnil.symm⟩
  | cons symbol symbols ih =>
    rw [List.flatten_cons] at h
    obtain ⟨front, behind, rfl, hfront, hbehind⟩ := List.map_eq_append_iff.mp h.symm
    obtain ⟨chunks, rfl, rfl⟩ := ih hbehind.symm
    exact ⟨front :: chunks, by rw [List.map_cons, hfront], rfl⟩

/-- Merging neither loses nor adds a character. -/
theorem flatten_bytePairEncode (ranks : MergeRanks) (token : Text) :
    (bytePairEncode ranks token).flatten = token := by
  obtain ⟨fuel, hloop⟩ := loop_bytePairEncode ranks token
  rw [loop_pass_preserves List.flatten flatten_mergePass hloop, flatten_singletons]

namespace Qwen2Tokenizer

/-- What an id stands for. -/
def expand (t : Qwen2Tokenizer) (id : UInt32) : Option (List UInt8) :=
  match t.addedTokens.find? fun a => a.2 = id with
  | some a => some (utf8 a.1)
  | none => (t.vocabulary.find? fun entry => entry.2 = id).bind fun entry => decodeSymbol entry.1

/-- Every id means one thing. -/
structure DistinctIds (t : Qwen2Tokenizer) : Prop where
  added : ∀ a ∈ t.addedTokens, ∀ b ∈ t.addedTokens, a.2 = b.2 → a.1 = b.1
  vocabulary : ∀ v ∈ t.vocabulary, ∀ w ∈ t.vocabulary, v.2 = w.2 → v.1 = w.1
  apart : ∀ a ∈ t.addedTokens, ∀ v ∈ t.vocabulary, a.2 ≠ v.2

/-- The matches of the pre-tokenizer join to the text it is given. -/
def Tiles (t : Qwen2Tokenizer) : Prop :=
  ∀ text (pieces : List Text), t.pattern text = pieces.map some → pieces.flatten = text

section
variable {t : Qwen2Tokenizer} {text token : Text} {id : UInt32} {ids : List UInt32}

/-- The id of an added token stands for its text. -/
theorem expand_added (h : DistinctIds t) (hmem : (token, id) ∈ t.addedTokens) :
    t.expand id = some (utf8 token) := by
  unfold expand
  cases hfind : t.addedTokens.find? fun a => a.2 = id with
  | none =>
    have hnone := List.find?_eq_none.mp hfind (token, id) hmem
    simp at hnone
  | some a =>
    have hid : a.2 = id := by simpa using List.find?_some hfind
    have htoken : a.1 = token := h.added a (List.mem_of_find?_eq_some hfind) (token, id) hmem hid
    show some (utf8 a.1) = _
    rw [htoken]

/-- The id of a symbol stands for its bytes. -/
theorem expand_vocabulary (h : DistinctIds t) {symbol : Text}
    (hid : assoc t.vocabulary symbol = some id) : t.expand id = decodeSymbol symbol := by
  have hmem := mem_of_assoc hid
  unfold expand
  -- an added token with this id would share it with a symbol
  cases hfind : t.addedTokens.find? fun a => a.2 = id with
  | some a =>
    have hsame : a.2 = id := by simpa using List.find?_some hfind
    exact absurd hsame (h.apart a (List.mem_of_find?_eq_some hfind) (symbol, id) hmem)
  | none =>
    show (t.vocabulary.find? fun entry => entry.2 = id).bind (fun entry => decodeSymbol entry.1) = _
    -- the first entry with this id is the symbol itself
    cases hentry : t.vocabulary.find? fun entry => entry.2 = id with
    | none =>
      have hnone := List.find?_eq_none.mp hentry (symbol, id) hmem
      simp at hnone
    | some entry =>
      have hsame : entry.2 = id := by simpa using List.find?_some hentry
      have hsymbol : entry.1 = symbol :=
        h.vocabulary entry (List.mem_of_find?_eq_some hentry) (symbol, id) hmem hsame
      rw [Option.bind_some, hsymbol]

/-- The ids expand to these bytes, one list for each id. -/
def Expands (t : Qwen2Tokenizer) : List UInt32 → List (List UInt8) → Prop :=
  List.Forall₂ fun id bytes => t.expand id = some bytes

/-- The relation read as a computation. -/
theorem Expands.mapM {bytes : List (List UInt8)} (h : Expands t ids bytes) :
    ids.mapM t.expand = some bytes := by
  induction h with
  | nil => rfl
  | cons hid _ ih =>
    rw [List.mapM_cons, hid, ih]
    rfl

/-- The ids that spell some symbols stand for their bytes. -/
theorem expands_of_spells (h : DistinctIds t) {chunks : List (List UInt8)}
    (hspells : Spells t (chunks.map (List.map (encodeByte buildByteEncoder))) ids) :
    Expands t ids chunks := by
  induction chunks generalizing ids with
  | nil =>
    cases hspells
    exact .nil
  | cons chunk chunks ih =>
    obtain ⟨id, ids, hid, hids, rfl⟩ := List.forall₂_cons_left_iff.mp hspells
    refine .cons ?_ (ih hids)
    rw [expand_vocabulary h hid, decodeSymbol_map]

/-- The symbols of a piece are the characters of its bytes. -/
theorem flatten_pieceSymbols (t : Qwen2Tokenizer) (piece : Text) :
    (t.pieceSymbols piece).flatten = (utf8 piece).map (encodeByte t.byteEncoder) :=
  flatten_bytePairEncode _ _

/-- The symbols of all pieces are the characters of their bytes. -/
theorem flatten_symbols (t : Qwen2Tokenizer) (pieces : List Text) :
    (pieces.flatMap t.pieceSymbols).flatten
      = (utf8 pieces.flatten).map (encodeByte t.byteEncoder) := by
  induction pieces with
  | nil => rfl
  | cons piece pieces ih =>
    rw [List.flatMap_cons, List.flatten_append, ih, flatten_pieceSymbols, List.flatten_cons,
      utf8_append, List.map_append]

/-- Ordinary text comes back. -/
theorem expands_ordinary (h : DistinctIds t) (htiles : Tiles t)
    (hencoder : t.byteEncoder = buildByteEncoder) (hids : t.encodeOrdinary text [] = .ok ids) :
    ∃ bytes, Expands t ids bytes ∧ bytes.flatten = utf8 text := by
  obtain ⟨pieces, ids', hpieces, hspells, heq⟩ := encodeOrdinary_eq_ok.mp hids
  rw [List.nil_append] at heq
  subst heq
  have hjoin := flatten_symbols t pieces
  rw [htiles text pieces hpieces, hencoder] at hjoin
  obtain ⟨chunks, hchunks, hbytes⟩ := exists_chunks hjoin
  rw [hchunks] at hspells
  exact ⟨chunks, expands_of_spells h hspells, hbytes⟩

/-- Every token that is cut out is an added token. -/
theorem Cuts.mem {segments : List Segment} (h : Cuts t text segments)
    (hmem : Segment.added token id ∈ segments) : (token, id) ∈ t.addedTokens := by
  induction h with
  | done => cases hmem
  | last => simp at hmem
  | first _ hcut _ ih =>
    rcases List.mem_cons.mp hmem with heq | hrest
    · cases heq
      exact hcut.mem
    · exact ih hrest
  | later _ hcut _ ih =>
    simp only [List.mem_cons, reduceCtorEq, false_or] at hmem
    rcases hmem with heq | hrest
    · cases heq
      exact hcut.mem
    · exact ih hrest

/-- The text of a segment. -/
def Segment.content : Segment → Text
  | .ordinary text => text
  | .added token _ => token

/-- The segments join to the text. -/
theorem Cuts.join {segments : List Segment} (h : Cuts t text segments) :
    segments.flatMap Segment.content = text := by
  induction h with
  | done => rfl
  | last => simp [Segment.content]
  | @first text token id segments _ hcut _ ih =>
    have hsplit := hcut.split
    rw [Nat.zero_add, List.take_zero, List.nil_append] at hsplit
    rw [List.flatMap_cons, ih]
    exact hsplit.symm
  | @later text token offset id segments _ hcut _ ih =>
    rw [List.flatMap_cons, List.flatMap_cons, ih, ← List.append_assoc]
    exact hcut.split.symm

/-- The ids of the segments stand for the text. -/
theorem expands_segments (h : DistinctIds t) (htiles : Tiles t)
    (hencoder : t.byteEncoder = buildByteEncoder) {segments : List Segment}
    {parts : List (List UInt32)} (hparts : List.Forall₂ (EncodesAs t) segments parts)
    (hmem : ∀ token id, Segment.added token id ∈ segments → (token, id) ∈ t.addedTokens) :
    ∃ bytes, Expands t parts.flatten bytes ∧
      bytes.flatten = utf8 (segments.flatMap Segment.content) := by
  -- by induction on the segments
  induction hparts with
  | nil => exact ⟨[], .nil, rfl⟩
  | @cons segment part segments parts hpart _ ih =>
    obtain ⟨bytes, hbytes, hjoin⟩ := ih fun token id hin => hmem token id (List.mem_cons_of_mem _ hin)
    rw [List.flatten_cons, List.flatMap_cons]
    cases segment with
    | ordinary text =>
      obtain ⟨front, hfront, hfrontJoin⟩ := expands_ordinary h htiles hencoder hpart
      refine ⟨front ++ bytes, List.rel_append hfront hbytes, ?_⟩
      rw [List.flatten_append, hfrontJoin, hjoin, utf8_append]
      rfl
    | added token id =>
      cases hpart
      have hexpand := expand_added h (hmem token id List.mem_cons_self)
      refine ⟨utf8 token :: bytes, .cons hexpand hbytes, ?_⟩
      rw [List.flatten_cons, hjoin, utf8_append]
      rfl

/-! ## The added tokens among the ids -/

/-- The ids of the cuts. -/
def Segment.addedId : Segment → Option UInt32
  | .ordinary _ => none
  | .added _ id => some id

def isAddedId (t : Qwen2Tokenizer) (id : UInt32) : Bool := t.addedTokens.any fun a => a.2 = id

theorem isAddedId_of_mem (hmem : (token, id) ∈ t.addedTokens) : t.isAddedId id = true :=
  List.any_eq_true.mpr ⟨(token, id), hmem, by simp⟩

/-- A symbol never has the id of an added token. -/
theorem not_isAddedId_of_spells (h : DistinctIds t) {symbols : List Text}
    (hspells : Spells t symbols ids) : ∀ id ∈ ids, t.isAddedId id = false := by
  induction hspells with
  | nil => simp
  | @cons symbol id symbols ids hid _ ih =>
    refine List.forall_mem_cons.mpr ⟨?_, ih⟩
    rw [isAddedId, List.any_eq_false]
    intro a ha
    simpa using h.apart a ha (symbol, id) (mem_of_assoc hid)

/-- The ids of added tokens in the output are those of the added segments, in order. -/
theorem filter_isAddedId (h : DistinctIds t) {segments : List Segment} {parts : List (List UInt32)}
    (hparts : List.Forall₂ (EncodesAs t) segments parts)
    (hmem : ∀ token id, Segment.added token id ∈ segments → (token, id) ∈ t.addedTokens) :
    parts.flatten.filter t.isAddedId = segments.filterMap Segment.addedId := by
  -- by induction on the segments
  induction hparts with
  | nil => rfl
  | @cons segment part segments parts hpart _ ih =>
    have hrest := ih fun token id hin => hmem token id (List.mem_cons_of_mem _ hin)
    rw [List.flatten_cons, List.filter_append, hrest]
    cases segment with
    | ordinary text =>
      obtain ⟨pieces, spelled, -, hspells, heq⟩ := encodeOrdinary_eq_ok.mp hpart
      have hnone : part.filter t.isAddedId = [] := by
        rw [heq, List.nil_append, List.filter_eq_nil_iff]
        intro id hid
        rw [not_isAddedId_of_spells h hspells id hid]
        exact Bool.false_ne_true
      rw [hnone]
      rfl
    | added token id =>
      cases hpart
      have hadded := isAddedId_of_mem (hmem token id List.mem_cons_self)
      rw [List.filter_cons_of_pos hadded]
      rfl

/-- A loaded tokenizer has the pattern it was given and the standard byte encoder. -/
theorem fields_of_load {pattern : Text → List (Option Text)} {files : Files}
    (h : load pattern files = .ok t) : t.pattern = pattern ∧ t.byteEncoder = buildByteEncoder := by
  unfold load at h
  obtain ⟨vocabulary, -, h⟩ := bind_eq_ok.mp h
  obtain ⟨merges, -, h⟩ := bind_eq_ok.mp h
  obtain ⟨ranks, -, h⟩ := bind_eq_ok.mp h
  obtain ⟨config, -, h⟩ := bind_eq_ok.mp h
  obtain ⟨added, -, h⟩ := bind_eq_ok.mp h
  have hloaded := Except.ok.inj h
  constructor
  · rw [← hloaded]
  · rw [← hloaded]

/-- **The ids spell the text**, when every id means one thing. -/
theorem encode_lossless {pattern : Text → List (Option Text)} {files : Files}
    (hload : load pattern files = .ok t) (hids : DistinctIds t) (htiles : Tiles t)
    (nfc : Text → Text) (fuel : Nat) (text : Text) {ids : List UInt32}
    (hencode : t.encode nfc fuel text = some (.ok ids)) :
    (Function.Injective (encodeByte t.byteEncoder) ∧
      ∀ c ∈ t.byteEncoder, ∃ b, encodeByte t.byteEncoder b = c) ∧
    (∃ bytes, ids.mapM t.expand = some bytes ∧ bytes.flatten = utf8 (nfc text)) ∧
    ∃ segments, Cuts t (nfc text) segments ∧
      ids.filter t.isAddedId = segments.filterMap Segment.addedId := by
  have hencoder := (fields_of_load hload).2
  obtain ⟨segments, parts, hcuts, hparts, rfl⟩ := encode_ok_iff.mp ⟨fuel, hencode⟩
  have hmem : ∀ token id, Segment.added token id ∈ segments → (token, id) ∈ t.addedTokens :=
    fun _ _ => hcuts.mem
  refine ⟨?_, ?_, segments, hcuts, filter_isAddedId hids hparts hmem⟩
  · rw [hencoder]
    exact ⟨encodeByte_injective, fun c hc => exists_encodeByte hc⟩
  · obtain ⟨bytes, hbytes, hjoin⟩ := expands_segments hids htiles hencoder hparts hmem
    rw [hcuts.join] at hjoin
    exact ⟨bytes, hbytes.mapM, hjoin⟩

end

/-! ## Samples -/

/-- One symbol and one added token. -/
def sampleFiles (symbolId : UInt32) : Files where
  vocabulary := .ok [(['a'], symbolId)]
  merges := .ok []
  addedTokensDecoder := .ok [(['0'], ['<', 'x', '>'])]

/-- The pre-tokenizer takes the whole text, as it does with a single letter. -/
def sampleTokenizer (symbolId : UInt32) : Qwen2Tokenizer where
  pattern text := [some text]
  vocabulary := [(['a'], symbolId)]
  mergeRanks := MergeReader.empty.toMergeRanks
  byteEncoder := byteCodes.map Char.ofNat
  addedTokens := [(['<', 'x', '>'], 0)]

theorem load_sampleFiles (symbolId : UInt32) :
    load (fun text => [some text]) (sampleFiles symbolId) = .ok (sampleTokenizer symbolId) := by
  unfold sampleTokenizer
  rw [← buildByteEncoder_eq]
  rfl

theorem tiles_sample (symbolId : UInt32) : Tiles (sampleTokenizer symbolId) := by
  intro text pieces h
  have hpieces : pieces = [text] := by
    cases pieces with
    | nil => cases h
    | cons piece pieces =>
      cases pieces with
      | nil =>
        cases h
        rfl
      | cons piece' pieces => cases h
  rw [hpieces]
  simp

theorem encode_lossless_sample :
    ∃ segments, Cuts (sampleTokenizer 1) ['a', '<', 'x', '>'] segments ∧
      [1, 0].filter (sampleTokenizer 1).isAddedId = segments.filterMap Segment.addedId := by
  have hids : DistinctIds (sampleTokenizer 1) := ⟨by decide, by decide, by decide⟩
  have hencode : (sampleTokenizer 1).encode (fun text => text) 3 ['a', '<', 'x', '>']
      = some (.ok [1, 0]) := by decide
  exact (encode_lossless (load_sampleFiles 1) hids (tiles_sample 1) _ _ _ hencode).2.2

/-- With one id for both, `a` and `<x>` have the same encoding: no expansion gives back both. -/
theorem encode_shared_id :
    load (fun text => [some text]) (sampleFiles 0) = .ok (sampleTokenizer 0) ∧
    (∀ a ∈ (sampleTokenizer 0).addedTokens, a.1 ≠ []) ∧
    (∀ v ∈ (sampleTokenizer 0).vocabulary, ∀ w ∈ (sampleTokenizer 0).vocabulary,
      v.2 = w.2 → v.1 = w.1) ∧
    (∀ a ∈ (sampleTokenizer 0).addedTokens, ∀ v ∈ (sampleTokenizer 0).vocabulary, a.1 ≠ v.1) ∧
    Tiles (sampleTokenizer 0) ∧
    ¬ ∃ expansion : UInt32 → List UInt8, ∀ text fuel ids,
      (sampleTokenizer 0).encode (fun text => text) fuel text = some (.ok ids) →
        ids.flatMap expansion = utf8 text := by
  refine ⟨load_sampleFiles 0, by decide, by decide, by decide, tiles_sample 0, ?_⟩
  rintro ⟨expansion, h⟩
  have hletter := h ['a'] 2 [0] (by decide)
  have htoken := h ['<', 'x', '>'] 2 [0] (by decide)
  rw [hletter] at htoken
  exact absurd htoken (by decide)

end Qwen2Tokenizer

end Qwen3Tts.Talker.Tokenizer
