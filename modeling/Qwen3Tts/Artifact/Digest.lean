import Qwen3Tts.Artifact.Sha256

/-!
# Artifact — the digest of a message is that of the standard

`compress` is the computation of the standard on one block: its constants are the roots, its array
is the message schedule, its locals are the working variables. On top of it a hasher that has seen
a message holds the hash value behind the whole blocks of the message and their rest, however the
message was cut; `finalize` completes the rest to the last one or two blocks of the padded message.
-/

namespace Qwen3Tts.Artifact.Sha256

open Qwen3Tts.Lib

/-! ## Constants -/

/-- The part of a root in front of the point, for small numbers. -/
def wholePart (k p : Nat) : Nat := ((List.range 18).filter fun a => (a + 1) ^ k ≤ p).length

/-- A word is the fractional part of a root. -/
def IsRoot (k p : Nat) (word : UInt32) : Prop :=
  let r := wholePart k p * 2 ^ 32 + word.toNat
  r ^ k ≤ p * 2 ^ (32 * k) ∧ p * 2 ^ (32 * k) < (r + 1) ^ k

instance (k p : Nat) (word : UInt32) : Decidable (IsRoot k p word) :=
  inferInstanceAs (Decidable (_ ∧ _))

/-- A word that meets the bounds of a root is the root. -/
theorem rootBits_of_isRoot {k p : Nat} {word : UInt32} (hk : 0 < k) (h : IsRoot k p word) :
    Fips180.rootBits k p = word := by
  have hword := word.toNat_lt
  rw [Fips180.rootBits_eq hk h.1 h.2]
  apply UInt32.toNat_inj.mp
  rw [UInt32.toNat_ofNat']
  omega

/-- The table is that of the standard, -/
theorem roundConstants_eq {t : Nat} (ht : t < 64) :
    roundConstants.getD t 0 = Fips180.roundConstant t := by
  have hroots : ∀ t < 64, IsRoot 3 (Fips180.primes.getD t 0) (roundConstants.getD t 0) := by
    decide
  exact (rootBits_of_isRoot (by decide) (hroots t ht)).symm

/-- The eight words in their order. -/
def words (v : Fips180.Words) : List UInt32 := [v.a, v.b, v.c, v.d, v.e, v.f, v.g, v.h]

/-- and so is the initial value. -/
theorem initialState_eq : initialState = words Fips180.initial := by
  have hroot : ∀ p word, IsRoot 2 p word → Fips180.rootBits 2 p = word :=
    fun p word h => rootBits_of_isRoot (by decide) h
  unfold words Fips180.initial
  rw [hroot 2 0x6a09e667 (by decide), hroot 3 0xbb67ae85 (by decide),
    hroot 5 0x3c6ef372 (by decide), hroot 7 0xa54ff53a (by decide),
    hroot 11 0x510e527f (by decide), hroot 13 0x9b05688c (by decide),
    hroot 17 0x1f83d9ab (by decide), hroot 19 0x5be0cd19 (by decide)]
  rfl

/-! ## The message schedule -/

variable {block : List UInt8}

/-- The schedule has 64 words, -/
theorem length_loadSchedule (hblock : block.length = 64) : (loadSchedule block).length = 64 := by
  unfold loadSchedule asChunks
  rw [length_overwrite (by simp [hblock])]
  rfl

/-- The first sixteen words are those of the block. -/
theorem loadSchedule_getD (hblock : block.length = 64) {t : Nat} (ht : t < 16) :
    (loadSchedule block).getD t 0 = Fips180.schedule block t := by
  rw [Fips180.schedule, if_pos ht]
  unfold loadSchedule asChunks overwrite Fips180.word
  rw [hblock, List.take_zero, List.nil_append, List.getD_eq_getElem?_getD,
    List.getElem?_append_left (by simpa using ht)]
  simp [ht, Nat.mul_comm]

/-- and keeps them. -/
theorem length_extend (schedule : List UInt32) (index : Nat) :
    (extend schedule index).length = schedule.length := List.length_set

/-- What the second loop has reached. -/
structure Extended (block : List UInt8) (schedule : List UInt32) (reached : Nat) : Prop where
  length : schedule.length = 64
  word : ∀ t < reached, schedule.getD t 0 = Fips180.schedule block t

/-- One more word is that of the standard; the ones before it stay. -/
theorem Extended.next {schedule : List UInt32} {index : Nat} (h : Extended block schedule index)
    (hfirst : 16 ≤ index) (hlast : index < 64) :
    Extended block (extend schedule index) (index + 1) where
  length := by rw [length_extend, h.length]
  word := by
    intro t ht
    have hindex : index < schedule.length := by rw [h.length]; exact hlast
    unfold extend
    rw [List.getD_eq_getElem?_getD, List.getElem?_set]
    rcases Nat.lt_or_ge t index with hlt | hge
    · rw [if_neg (by omega), ← List.getD_eq_getElem?_getD, h.word t hlt]
    · have heq : index = t := by omega
      subst heq
      have hback : ∀ distance, 0 < distance →
          schedule.getD (index - distance) 0 = Fips180.schedule block (index - distance) :=
        fun distance hdistance => h.word _ (by omega)
      simp only [if_pos, hindex, Option.getD_some]
      rw [hback 16 (by decide), hback 15 (by decide), hback 7 (by decide), hback 2 (by decide),
        Fips180.schedule.eq_def block index, if_neg (by omega)]
      show Fips180.schedule block (index - 16) + Fips180.smallSigma0 _ + _ + Fips180.smallSigma1 _
        = _
      -- the standard adds the same four words in another order
      ac_rfl

/-- The loop that extends the schedule. -/
theorem extended_loop {schedule : List UInt32} (count : Nat) {first : Nat}
    (h : Extended block schedule first) (hfirst : 16 ≤ first) (hlast : first + count ≤ 64) :
    Extended block ((List.range' first count).foldl extend schedule) (first + count) := by
  induction count generalizing first schedule with
  | zero => exact h
  | succ count ih =>
    have hnext := ih (h.next hfirst (by omega)) (by omega) (by omega)
    rw [List.range'_succ, List.foldl_cons]
    rwa [Nat.add_right_comm] at hnext

/-! ## A block -/

/-- The locals as the working variables. -/
def Locals.words (v : Locals) : Fips180.Words := ⟨v.a, v.b, v.c, v.d, v.e, v.f, v.g, v.h⟩

/-- One round, with the eight variables of the code. -/
theorem mix_words {schedule : List UInt32} (h : Extended block schedule 64) (v : Locals) {t : Nat}
    (ht : t < 64) : (mix schedule v t).words = Fips180.round block v.words t := by
  unfold mix Fips180.round
  rw [roundConstants_eq ht, h.word t ht]
  rfl

/-- All of them. -/
theorem mix_loop {schedule : List UInt32} (h : Extended block schedule 64) (v : Locals)
    {rounds : List Nat} (hrounds : ∀ t ∈ rounds, t < 64) :
    (rounds.foldl (mix schedule) v).words = rounds.foldl (Fips180.round block) v.words := by
  induction rounds generalizing v with
  | nil => rfl
  | cons t rounds ih =>
    have hlater : ∀ t' ∈ rounds, t' < 64 := fun t' ht' => hrounds t' (List.mem_cons_of_mem t ht')
    rw [List.foldl_cons, List.foldl_cons, ih _ hlater, mix_words h v (hrounds t List.mem_cons_self)]

/-- **One block is compressed as the standard says.** -/
theorem compress_words (hblock : block.length = 64) (value : Fips180.Words) :
    compress (words value) block = words (Fips180.compress value block) := by
  have hloaded : Extended block (loadSchedule block) 16 :=
    ⟨length_loadSchedule hblock, fun t ht => loadSchedule_getD hblock ht⟩
  have hschedule := extended_loop 48 hloaded (le_refl 16) (le_refl 64)
  have hloop := mix_loop hschedule
    ⟨value.a, value.b, value.c, value.d, value.e, value.f, value.g, value.h⟩
    fun t ht => List.mem_range.mp ht
  generalize hlocals : (List.range 64).foldl (mix _) _ = v at hloop
  have hround : (List.range 64).foldl (Fips180.round block) value = v.words := hloop.symm
  have hcode : compress (words value) block
      = List.zipWith (· + ·) (words value) [v.a, v.b, v.c, v.d, v.e, v.f, v.g, v.h] := by
    rw [← hlocals]
    rfl
  rw [hcode, Fips180.compress, hround]
  simp [words, Locals.words, Fips180.Words.add, UInt32.add_comm]

/-! ## Updates -/

/-- A hasher that has seen a message. -/
structure Seen (s : Sha256) (message : List UInt8) : Prop where
  state : s.state = words (absorb 64 Fips180.compress Fips180.initial message).1
  length : s.block.length = 64
  rest : s.block.take s.blockLen = (absorb 64 Fips180.compress Fips180.initial message).2
  count : s.blockLen = message.length % 64
  bytesSeen : s.bytesSeen = message.length

/-- Nothing has been hashed. -/
theorem seen_new : Seen new [] where
  state := initialState_eq
  length := List.length_replicate
  rest := rfl
  count := rfl
  bytesSeen := rfl

/-- Blocks one after the other. -/
theorem compress_blocks {value : Fips180.Words} {blocks : List (List UInt8)}
    (h : ∀ block ∈ blocks, block.length = 64) :
    blocks.foldl compress (words value) = words (blocks.foldl Fips180.compress value) := by
  induction blocks generalizing value with
  | nil => rfl
  | cons block blocks ih =>
    rw [List.foldl_cons, List.foldl_cons, compress_words (h block List.mem_cons_self),
      ih fun block' hblock' => h block' (List.mem_cons_of_mem block hblock')]

/-- The whole blocks of an input, by a hasher whose buffer is empty. -/
theorem updateBlocks_spec {s : Sha256} {value : Fips180.Words} (hstate : s.state = words value)
    (hlength : s.block.length = 64) (input : List UInt8) :
    (s.updateBlocks input).state = words (absorb 64 Fips180.compress value input).1
      ∧ (s.updateBlocks input).block.length = 64
      ∧ (s.updateBlocks input).block.take (s.updateBlocks input).blockLen
          = (absorb 64 Fips180.compress value input).2
      ∧ (s.updateBlocks input).blockLen = input.length % 64
      ∧ (s.updateBlocks input).bytesSeen = s.bytesSeen := by
  have hrest : (asChunks 64 input).2.length = input.length % 64 := length_rest (by decide) input
  refine ⟨?_, ?_, ?_, hrest, rfl⟩
  · show (asChunks 64 input).1.foldl compress s.state = _
    rw [hstate, compress_blocks fun block hblock => length_of_mem_asChunks (by decide) hblock]
    rfl
  · show (overwrite s.block 0 (asChunks 64 input).2).length = 64
    rw [length_overwrite (by omega), hlength]
  · show (overwrite s.block 0 (asChunks 64 input).2).take (asChunks 64 input).2.length = _
    rw [front_overwrite]
    rfl

/-- **One update.** -/
theorem Seen.update {s : Sha256} {message : List UInt8} (h : Seen s message) (input : List UInt8)
    (hsize : message.length + input.length < 2 ^ 64) :
    ∃ t, s.update input = .ok t ∧ Seen t (message ++ input) := by
  have hpieces : absorb 64 Fips180.compress Fips180.initial (message ++ input)
      = absorb 64 Fips180.compress (absorb 64 Fips180.compress Fips180.initial message).1
          (s.block.take s.blockLen ++ input) := by
    rw [h.rest]
    exact absorb_append (by decide) message input
  have hmessage : (message ++ input).length = message.length + input.length := List.length_append
  have hfull : s.blockLen < 64 := by
    rw [h.count]
    exact Nat.mod_lt _ (by decide)
  have hcount := h.count
  have hlength := h.length
  have hbytes : s.bytesSeen + input.length = (message ++ input).length := by
    rw [h.bytesSeen, hmessage]
  have hwaiting : (s.block.take s.blockLen).length = s.blockLen := by
    rw [List.length_take]
    omega
  unfold Sha256.update
  rw [if_neg (by omega)]
  dsimp only
  by_cases hempty : s.blockLen = 0
  · -- nothing waits in the buffer
    rw [if_pos hempty]
    rw [hempty, List.take_zero, List.nil_append] at hpieces
    obtain ⟨hstate, hblock, hrest, hlen, hseen⟩ :=
      updateBlocks_spec (s := { s with bytesSeen := s.bytesSeen + input.length }) h.state hlength
        input
    refine ⟨_, rfl, ?_, hblock, ?_, ?_, ?_⟩
    · rw [hstate, hpieces]
    · rw [hrest, hpieces]
    · rw [hlen, hmessage]
      omega
    · rw [hseen, ← hbytes]
  · rw [if_neg hempty]
    generalize hcopied : min (64 - s.blockLen) input.length = copied
    have hfits : copied ≤ input.length := by omega
    have hpiece : (input.take copied).length = copied := by
      rw [List.length_take]
      omega
    have hbuffer := take_overwrite (input.take copied)
      (show s.blockLen ≤ s.block.length by omega)
    have hkeeps : (overwrite s.block s.blockLen (input.take copied)).length = 64 := by
      rw [length_overwrite (by omega), hlength]
    rw [hpiece] at hbuffer
    by_cases hwhole : s.blockLen + copied = 64
    · -- the buffer is full and compressed in front of the rest of the input
      rw [if_pos hwhole]
      rw [hwhole, List.take_of_length_le (by omega)] at hbuffer
      have hsplit : s.block.take s.blockLen ++ input
          = (s.block.take s.blockLen ++ input.take copied) ++ input.drop copied := by
        rw [List.append_assoc, List.take_append_drop]
      rw [hsplit, ← hbuffer, absorb_cons (by decide) hkeeps] at hpieces
      generalize overwrite s.block s.blockLen (input.take copied) = block at *
      obtain ⟨hstate, hblock, hrest, hlen, hseen⟩ := updateBlocks_spec
        (s := ⟨compress s.state block, block, 0, s.bytesSeen + input.length⟩)
        (by rw [h.state, compress_words hkeeps]) hkeeps (input.drop copied)
      refine ⟨_, rfl, ?_, hblock, ?_, ?_, ?_⟩
      · rw [hstate, hpieces]
      · rw [hrest, hpieces]
      · rw [hlen, hmessage, List.length_drop]
        omega
      · rw [hseen, ← hbytes]
    · -- the whole input waits
      rw [if_neg hwhole]
      have hall : copied = input.length := by omega
      rw [hall, List.take_length] at hbuffer hkeeps
      have hshort : (s.block.take s.blockLen ++ input).length < 64 := by
        rw [List.length_append]
        omega
      rw [absorb_of_lt hshort] at hpieces
      rw [hall, List.take_length]
      refine ⟨_, rfl, ?_, hkeeps, ?_, ?_, hbytes⟩
      · rw [hpieces]
        exact h.state
      · rw [hpieces]
        exact hbuffer
      · show s.blockLen + input.length = _
        rw [hmessage]
        omega

/-- The message may be cut anywhere. -/
theorem Seen.updates {s : Sha256} {message : List UInt8} (h : Seen s message)
    (inputs : List (List UInt8)) (hsize : message.length + inputs.flatten.length < 2 ^ 64) :
    ∃ t, s.updates inputs = .ok t ∧ Seen t (message ++ inputs.flatten) := by
  induction inputs generalizing s message with
  | nil => exact ⟨s, rfl, by simpa using h⟩
  | cons input inputs ih =>
    rw [List.flatten_cons, List.length_append] at hsize
    obtain ⟨m, hm, hseen⟩ := h.update input (by omega)
    obtain ⟨t, ht, hseen⟩ := ih hseen (by rw [List.length_append]; omega)
    refine ⟨t, ?_, ?_⟩
    · show (s.update input >>= fun m => m.updates inputs) = .ok t
      rw [hm]
      exact ht
    · rw [List.append_assoc] at hseen
      exact hseen

/-! ## The last blocks -/

/-- A number in a fixed number of bytes. -/
theorem length_toBeBytes (count value : Nat) : (Fips180.toBeBytes count value).length = count := by
  rw [Fips180.toBeBytes, List.length_map, List.length_range]

/-- The block buffer with the one bit behind the rest. -/
theorem take_marked {block : List UInt8} {count : Nat} (hlength : block.length = 64)
    (hcount : count < 64) :
    (block.set count 0x80).length = 64
      ∧ (block.set count 0x80).take (count + 1) = block.take count ++ [0x80] := by
  rw [set_eq_overwrite (by omega)]
  refine ⟨?_, take_overwrite [0x80] (by omega)⟩
  rw [length_overwrite (by rw [hlength]; exact hcount), hlength]

/-- **The digest of what was seen.** -/
theorem Seen.finalize {s : Sha256} {message : List UInt8} (h : Seen s message)
    (hsize : message.length < 2 ^ 61) : s.finalize = .ok (Fips180.digest message) := by
  have hfull : s.blockLen < 64 := by
    rw [h.count]
    exact Nat.mod_lt _ (by decide)
  have hcount := h.count
  have hlength := h.length
  have hrest : (s.block.take s.blockLen).length = s.blockLen := by
    rw [List.length_take]
    omega
  obtain ⟨hmarked, htake⟩ := take_marked hlength hfull
  generalize hbits : Fips180.toBeBytes 8 (8 * message.length) = bits
  have hbitsLength : bits.length = 8 := by rw [← hbits, length_toBeBytes]
  -- the padded message, behind the blocks that were compressed
  have hpad : absorb 64 Fips180.compress Fips180.initial (Fips180.pad message)
      = absorb 64 Fips180.compress (absorb 64 Fips180.compress Fips180.initial message).1
          (s.block.take s.blockLen ++ [0x80]
            ++ (List.replicate (Fips180.zeroBytes message.length) 0 ++ bits)) := by
    rw [Fips180.pad, absorb_append (by decide), ← h.rest, hbits]
    simp only [List.append_assoc, List.singleton_append]
  unfold Sha256.finalize
  rw [if_neg (by rw [h.bytesSeen]; omega), h.bytesSeen, Nat.mul_comm message.length]
  dsimp only
  unfold Fips180.digest
  rw [hbits, hpad, h.state]
  by_cases hlong : 56 < s.blockLen + 1
  · -- the length does not fit behind the rest: two blocks
    rw [if_pos hlong]
    have hfirst : overwrite (s.block.set s.blockLen 0x80) (s.blockLen + 1)
        (List.replicate (64 - (s.blockLen + 1)) 0)
        = s.block.take s.blockLen ++ [0x80] ++ List.replicate (64 - (s.blockLen + 1)) 0 := by
      rw [overwrite_of_end (by rw [List.length_replicate, hmarked]; omega), htake]
    have hsecond : overwrite (List.replicate 64 0) 56 bits = List.replicate 56 0 ++ bits := by
      rw [overwrite_of_end (by rw [hbitsLength]; rfl), List.take_replicate]
      rfl
    have hzeros : Fips180.zeroBytes message.length = (64 - (s.blockLen + 1)) + 56 := by
      unfold Fips180.zeroBytes
      rw [← hcount]
      omega
    have hlengths : (s.block.take s.blockLen ++ [0x80]
        ++ List.replicate (64 - (s.blockLen + 1)) 0).length = 64
        ∧ (List.replicate 56 0 ++ bits).length = 64 := by
      refine ⟨?_, by rw [List.length_append, hbitsLength, List.length_replicate]⟩
      simp only [List.length_append, List.length_replicate, hrest, List.length_singleton]
      omega
    dsimp only
    rw [hfirst, hsecond, compress_words hlengths.1, compress_words hlengths.2, hzeros,
      List.replicate_add, List.append_assoc (List.replicate _ _), ← List.append_assoc,
      absorb_cons (by decide) hlengths.1,
      absorb_block (by decide) hlengths.2]
    rfl
  · -- one block
    rw [if_neg hlong]
    dsimp only
    have hfilled : (overwrite (s.block.set s.blockLen 0x80) (s.blockLen + 1)
        (List.replicate (56 - (s.blockLen + 1)) 0)).length = 64 := by
      rw [length_overwrite (by rw [List.length_replicate, hmarked]; omega), hmarked]
    have hmiddle := take_overwrite (List.replicate (56 - (s.blockLen + 1)) 0)
      (show s.blockLen + 1 ≤ (s.block.set s.blockLen 0x80).length by omega)
    rw [htake, List.length_replicate, Nat.add_sub_cancel' (by omega)] at hmiddle
    have hlast : overwrite (overwrite (s.block.set s.blockLen 0x80) (s.blockLen + 1)
        (List.replicate (56 - (s.blockLen + 1)) 0)) 56 bits
        = s.block.take s.blockLen ++ [0x80]
          ++ (List.replicate (56 - (s.blockLen + 1)) 0 ++ bits) := by
      rw [overwrite_of_end (by rw [hbitsLength, hfilled]), hmiddle, List.append_assoc]
    have hzeros : Fips180.zeroBytes message.length = 56 - (s.blockLen + 1) := by
      unfold Fips180.zeroBytes
      rw [← hcount]
      omega
    have hwhole : (s.block.take s.blockLen ++ [0x80]
        ++ (List.replicate (56 - (s.blockLen + 1)) 0 ++ bits)).length = 64 := by
      simp only [List.length_append, List.length_replicate, hrest, List.length_singleton,
        hbitsLength]
      omega
    rw [hlast, compress_words hwhole, hzeros, absorb_block (by decide) hwhole]
    rfl

end Qwen3Tts.Artifact.Sha256

namespace Qwen3Tts.Artifact

open Qwen3Tts.Lib Sha256

/-! ## A reader -/

variable {ε : Type}

/-- The loop of `digest_reader` over the chunks of a stream, up to the first empty one. -/
theorem readAll_spec {s : Sha256} {message : List UInt8} (h : Seen s message) {bufferBytes : Nat}
    {buffer : List UInt8} (hbuffer : buffer.length = bufferBytes) (chunks : List (List UInt8))
    (hchunks : ∀ chunk ∈ chunks, chunk ≠ [] ∧ chunk.length ≤ bufferBytes)
    (hsize : message.length + chunks.flatten.length < 2 ^ 64)
    (later : List (Except ε (List UInt8))) :
    ∃ t, readAll s buffer message.length (chunks.map .ok ++ .ok [] :: later)
        = .ok (t, (message ++ chunks.flatten).length) ∧ Seen t (message ++ chunks.flatten) := by
  induction chunks generalizing s message buffer with
  | nil => exact ⟨s, by simp [readAll], by simpa using h⟩
  | cons chunk chunks ih =>
    obtain ⟨hne, hfits⟩ := hchunks chunk List.mem_cons_self
    rw [List.flatten_cons, List.length_append] at hsize
    obtain ⟨m, hm, hseen⟩ := h.update chunk (by omega)
    have hlength : (message ++ chunk).length = message.length + chunk.length := List.length_append
    have hkept : (overwrite buffer 0 chunk).length = bufferBytes := by
      rw [length_overwrite (by omega), hbuffer]
    obtain ⟨t, ht, hseen⟩ := ih hseen hkept
      (fun chunk' hchunk' => hchunks chunk' (List.mem_cons_of_mem chunk hchunk'))
      (by rw [hlength]; omega)
    refine ⟨t, ?_, ?_⟩
    · rw [List.map_cons, List.cons_append, readAll, if_neg (by simpa using hne),
        if_neg (by omega)]
      dsimp only
      -- the buffer holds the chunk at its front
      rw [front_overwrite, hm, ← hlength, List.flatten_cons, ← List.append_assoc]
      exact ht
    · rw [List.flatten_cons, ← List.append_assoc]
      exact hseen

/-- **The streaming digest is the digest of the standard**, however the message is cut into updates
or into the chunks of a reader. -/
theorem streaming_digest (message : List UInt8) (hsize : message.length < 2 ^ 61) :
    (∀ inputs : List (List UInt8), inputs.flatten = message →
      (Sha256.new.updates inputs >>= Sha256.finalize) = .ok (Fips180.digest message))
    ∧ ∀ (ε : Type) (bufferBytes : Nat) (chunks : List (List UInt8))
        (later : List (Except ε (List UInt8))), 0 < bufferBytes → chunks.flatten = message →
        (∀ chunk ∈ chunks, chunk ≠ [] ∧ chunk.length ≤ bufferBytes) →
        digestReader (chunks.map .ok ++ .ok [] :: later) bufferBytes
          = .ok (Fips180.digest message, message.length) := by
  constructor
  · intro inputs hjoin
    obtain ⟨t, ht, hseen⟩ := seen_new.updates inputs (by rw [hjoin, List.length_nil]; omega)
    rw [List.nil_append, hjoin] at hseen
    rw [ht]
    exact hseen.finalize hsize
  · intro ε bufferBytes chunks later hbuffer hjoin hchunks
    have hempty : (List.replicate bufferBytes (0 : UInt8)).length = bufferBytes :=
      List.length_replicate
    obtain ⟨t, ht, hseen⟩ := readAll_spec seen_new hempty chunks hchunks
      (by rw [hjoin, List.length_nil]; omega) later
    rw [List.nil_append, hjoin] at hseen ht
    unfold digestReader
    rw [if_neg (by omega), List.length_nil] at *
    rw [ht]
    show (orPanic t.finalize >>= fun digest => _) = _
    rw [hseen.finalize hsize]
    rfl

/-- The message `abc`, in three updates of which one is empty, and through a reader. -/
theorem streaming_digest_abc :
    (Sha256.new.updates [[0x61], [], [0x62, 0x63]] >>= Sha256.finalize)
        = .ok (Fips180.digest [0x61, 0x62, 0x63])
      ∧ digestReader (ε := Empty) [.ok [0x61, 0x62], .ok [0x63], .ok []] 2
        = .ok (Fips180.digest [0x61, 0x62, 0x63], 3) := by
  have hdigest := streaming_digest [0x61, 0x62, 0x63] (by decide)
  exact ⟨hdigest.1 [[0x61], [], [0x62, 0x63]] rfl,
    hdigest.2 Empty 2 [[0x61, 0x62], [0x63]] [] (by decide) rfl (by decide)⟩

end Qwen3Tts.Artifact
