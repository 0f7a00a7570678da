import Heniek.RpcCodec

/-!
Framing does not depend on how the bytes arrive: a connection decodes to the
frames of its lines, up to the first line or tail over the cap.
-/

namespace Heniek.ChunkedDecoding
open RpcCodec JsonSyntax

def terminatedLines (bytes : List UInt8) : List (List UInt8) := (bytes.splitOn lineFeed).dropLast

def tailLine (bytes : List UInt8) : List UInt8 := ((bytes.splitOn lineFeed).getLast?).getD []

def withinCap (line : List UInt8) : Bool := decide (line.length ≤ maxLineBytes)

def keptLines (bytes : List UInt8) : List (List UInt8) :=
  (terminatedLines bytes).takeWhile withinCap

def AllWithinCap (bytes : List UInt8) : Prop :=
  keptLines bytes = terminatedLines bytes ∧ (tailLine bytes).length ≤ maxLineBytes

instance (bytes : List UInt8) : Decidable (AllWithinCap bytes) :=
  inferInstanceAs (Decidable (_ ∧ _))

/-- The frames of the lines before the first one over the cap, and the fatal frame of that one. -/
def lineDecoding (bytes : List UInt8) : List Frame × DecoderState :=
  if AllWithinCap bytes then ((keptLines bytes).flatMap lineFrames, ⟨tailLine bytes, false⟩)
  else ((keptLines bytes).flatMap lineFrames ++ [overCap], ⟨[], true⟩)

variable {line : List UInt8}

theorem terminatedLines_line (free : lineFeed ∉ line) (bytes : List UInt8) :
    terminatedLines (line ++ lineFeed :: bytes) = line :: terminatedLines bytes := by
  rw [terminatedLines, List.splitOn_append_cons_self_of_not_mem free,
    List.dropLast_cons_of_ne_nil (List.splitOn_ne_nil lineFeed bytes)]
  rfl

theorem tailLine_line (free : lineFeed ∉ line) (bytes : List UInt8) :
    tailLine (line ++ lineFeed :: bytes) = tailLine bytes := by
  rw [tailLine, List.splitOn_append_cons_self_of_not_mem free,
    List.getLast?_cons_of_ne_nil (List.splitOn_ne_nil lineFeed bytes)]
  rfl

theorem lineDecoding_tail (free : lineFeed ∉ line) :
    lineDecoding line = if maxLineBytes < line.length then breach else ([], ⟨line, false⟩) := by
  have lines : terminatedLines line = [] := by
    rw [terminatedLines, List.splitOn_eq_singleton free]; rfl
  have tail : tailLine line = line := by rw [tailLine, List.splitOn_eq_singleton free]; rfl
  by_cases long : maxLineBytes < line.length
  · have exceeds : ¬ AllWithinCap line := fun within => by
      have short := within.2
      rw [tail] at short
      omega
    simp [lineDecoding, exceeds, keptLines, lines, long, breach]
  · have within : AllWithinCap line := ⟨by simp [keptLines, lines], by rw [tail]; omega⟩
    simp [lineDecoding, within, keptLines, lines, tail, long]

theorem lineDecoding_line (free : lineFeed ∉ line) (bytes : List UInt8) :
    lineDecoding (line ++ lineFeed :: bytes) =
      if maxLineBytes < line.length then breach
      else (lineFrames line ++ (lineDecoding bytes).1, (lineDecoding bytes).2) := by
  have lines := terminatedLines_line free bytes
  have tail := tailLine_line free bytes
  by_cases long : maxLineBytes < line.length
  · have exceeding : withinCap line = false := by simp [withinCap, long]
    have kept : keptLines (line ++ lineFeed :: bytes) = [] := by
      simp [keptLines, lines, exceeding]
    have exceeds : ¬ AllWithinCap (line ++ lineFeed :: bytes) := fun within => by
      have all := within.1
      rw [kept, lines] at all
      cases all
    simp [lineDecoding, exceeds, kept, long, breach]
  · have under : withinCap line = true := by simp [withinCap]; omega
    have kept : keptLines (line ++ lineFeed :: bytes) = line :: keptLines bytes := by
      simp [keptLines, lines, under]
    have same : AllWithinCap (line ++ lineFeed :: bytes) ↔ AllWithinCap bytes := by
      simp [AllWithinCap, kept, lines, tail]
    by_cases within : AllWithinCap bytes
    · simp [lineDecoding, same, within, kept, tail, long]
    · simp [lineDecoding, same, within, kept, long]

theorem decodeBuffer_eq (line buffer : List UInt8) (free : lineFeed ∉ line) :
    decodeBuffer line buffer = lineDecoding (line ++ buffer) := by
  induction buffer generalizing line with
  | nil => rw [List.append_nil, lineDecoding_tail free, decodeBuffer]
  | cons byte buffer ih =>
    by_cases ended : byte = lineFeed
    · subst ended
      rw [lineDecoding_line free, decodeBuffer, ih [] List.not_mem_nil]
      simp
    · have longer : lineFeed ∉ line ++ [byte] := by
        simp [free, Ne.symm ended]
      rw [decodeBuffer, if_pos ended, ih (line ++ [byte]) longer]
      simp

theorem decodeBuffer_long (long : maxLineBytes < line.length) (buffer : List UInt8) :
    decodeBuffer line buffer = breach := by
  induction buffer generalizing line with
  | nil => rw [decodeBuffer, if_pos long]
  | cons byte buffer ih =>
    rw [decodeBuffer]
    split
    · exact ih (by simp; omega)
    · rfl

/-- The decoding of the second part goes on where the first one ended. -/
def followedBy (decoded : List Frame × DecoderState) (buffer : List UInt8) :
    List Frame × DecoderState :=
  if decoded.2.poisoned then decoded
  else
    let rest := decodeBuffer decoded.2.pending buffer
    (decoded.1 ++ rest.1, rest.2)

theorem decodeBuffer_append (line first second : List UInt8) :
    decodeBuffer line (first ++ second) = followedBy (decodeBuffer line first) second := by
  induction first generalizing line with
  | nil =>
    rw [decodeBuffer]
    split
    · rename_i long
      rw [decodeBuffer_long long]
      rfl
    · simp [followedBy]
  | cons byte first ih =>
    rw [List.cons_append, decodeBuffer, decodeBuffer, ih, ih]
    split
    · rfl
    · split
      · rfl
      · unfold followedBy
        split <;> simp

structure Bounded (state : DecoderState) : Prop where
  unended : lineFeed ∉ state.pending
  capped : state.pending.length ≤ maxLineBytes

theorem decodeBuffer_bounded (free : lineFeed ∉ line) (buffer : List UInt8) :
    Bounded (decodeBuffer line buffer).2 := by
  induction buffer generalizing line with
  | nil =>
    rw [decodeBuffer]
    split
    · exact ⟨List.not_mem_nil, Nat.zero_le _⟩
    · rename_i short
      exact ⟨free, Nat.le_of_not_lt short⟩
  | cons byte buffer ih =>
    rw [decodeBuffer]
    split
    · rename_i continued
      exact ih (by simp [free, Ne.symm continued])
    · split
      · exact ⟨List.not_mem_nil, Nat.zero_le _⟩
      · exact ih List.not_mem_nil

theorem decodeBuffer_pending {pending : List UInt8} (free : lineFeed ∉ pending)
    (line buffer : List UInt8) :
    decodeBuffer line (pending ++ buffer) = decodeBuffer (line ++ pending) buffer := by
  induction pending generalizing line with
  | nil => simp
  | cons byte pending ih =>
    rw [List.mem_cons, not_or] at free
    rw [List.cons_append, decodeBuffer, if_pos (Ne.symm free.1), ih free.2]
    simp

theorem decodeChunk_followedBy {decoded : List Frame × DecoderState} (bounded : Bounded decoded.2)
    (chunk : List UInt8) :
    (decoded.1 ++ (decodeChunk decoded.2 chunk).1, (decodeChunk decoded.2 chunk).2) =
      followedBy decoded chunk := by
  unfold decodeChunk followedBy
  split
  · simp
  · rw [decodeBuffer_pending bounded.unended]
    simp

theorem decodeChunks_poisoned {state : DecoderState} (poisoned : state.poisoned = true)
    (chunks : List (List UInt8)) : decodeChunks state chunks = ([], state) := by
  induction chunks with
  | nil => rfl
  | cons chunk chunks ih => simp [decodeChunks, decodeChunk, poisoned, ih]

theorem decodeChunks_after (received : List UInt8) (chunks : List (List UInt8)) :
    ((decodeBuffer [] received).1 ++ (decodeChunks (decodeBuffer [] received).2 chunks).1,
        (decodeChunks (decodeBuffer [] received).2 chunks).2) =
      decodeBuffer [] (received ++ chunks.flatten) := by
  induction chunks generalizing received with
  | nil => simp [decodeChunks]
  | cons chunk chunks ih =>
    have bounded := decodeBuffer_bounded List.not_mem_nil received
    have next : decodeBuffer [] (received ++ chunk) =
        ((decodeBuffer [] received).1 ++ (decodeChunk (decodeBuffer [] received).2 chunk).1,
          (decodeChunk (decodeBuffer [] received).2 chunk).2) := by
      rw [decodeBuffer_append, decodeChunk_followedBy bounded]
    have rest := ih (received ++ chunk)
    rw [next] at rest
    rw [List.flatten_cons, ← List.append_assoc, ← rest, decodeChunks]
    simp

def Frame.isFatal : Frame → Bool
  | .request _ => false
  | .error frame => frame.fatal

theorem toFrame_not_fatal (line : List Char) : Frame.isFatal (toFrame line) = false := by
  unfold toFrame
  split
  · rfl
  · unfold recordFrame
    split
    · rfl
    · split
      · split <;> rfl
      · rfl
  · rfl

theorem lineFrames_not_fatal (line : List UInt8) :
    (lineFrames line).filter Frame.isFatal = [] := by
  unfold lineFrames
  split
  · rfl
  · simp [toFrame_not_fatal]

theorem lineDecoding_fatal (bytes : List UInt8) :
    (lineDecoding bytes).1.filter Frame.isFatal =
      if (lineDecoding bytes).2.poisoned then [overCap] else [] := by
  have none : ∀ lines : List (List UInt8),
      (lines.flatMap lineFrames).filter Frame.isFatal = [] := by
    intro lines
    induction lines with
    | nil => rfl
    | cons line lines ih => simp [lineFrames_not_fatal, ih]
  unfold lineDecoding
  split
  · simp [none]
  · simp [none, overCap, Frame.isFatal]

end Heniek.ChunkedDecoding
