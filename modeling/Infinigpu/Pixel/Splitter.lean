import Infinigpu.Lib.Marks
import Infinigpu.Pixel.Streamer

/-!
# Splitting the encoder's output

The encoder writes one byte stream, with a delimiter before every access unit, and the reader gets it in chunks of any
size. The splitter holds the access unit that is still arriving: it is complete only when the next delimiter is seen,
which may itself be cut by the end of a chunk.
-/

namespace Infinigpu

namespace Codec

def audType : Codec → UInt8
  | .h264 => 9
  | .hevc => 35

/-- The type of the unit whose first byte after the start code is `b`. -/
def nalType : Codec → UInt8 → UInt8
  | .h264, b => b &&& 0x1F
  | .hevc, b => (b >>> 1) &&& 0x3F

def isKeyframeNal : Codec → UInt8 → Bool
  | .h264, t => t == 5 || t == 7
  | .hevc, t => t == 19 || t == 20 || t == 21 || t == 32 || t == 33 || t == 34

end Codec

/-- A delimiter: a start code and this codec's type. -/
def startsAud (codec : Codec) : List UInt8 → Bool
  | a :: b :: c :: d :: _ => a == 0 && b == 0 && c == 1 && codec.nalType d == codec.audType
  | _ => false

def scanAud (codec : Codec) : List UInt8 → Nat → Option Nat
  | [], _ => none
  | b :: bs, i => if startsAud codec (b :: bs) then some i else scanAud codec bs (i + 1)

def findAud (buf : List UInt8) (start : Nat) (codec : Codec) : Option Nat := scanAud codec (buf.drop start) start

def auIsKeyframe (codec : Codec) : List UInt8 → Bool
  | a :: b :: c :: d :: rest =>
    if a == 0 && b == 0 && c == 1 then
      codec.isKeyframeNal (codec.nalType d) || auIsKeyframe codec (d :: rest)
    else
      auIsKeyframe codec (b :: c :: d :: rest)
  | _ => false

/-! ### Delimiters as marks -/

/-- A byte of the delimiter's type is not zero. -/
private theorem ne_zero_of_audType {codec : Codec} {d : UInt8} (h : codec.nalType d = codec.audType) : d ≠ 0 := by
  rintro rfl
  cases codec with
  | h264 => exact absurd h (by decide)
  | hevc => exact absurd h (by decide)

private theorem startsAud_iff {codec : Codec} {l : List UInt8} :
    startsAud codec l = true ↔ ∃ d r, l = 0 :: 0 :: 1 :: d :: r ∧ codec.nalType d = codec.audType := by
  constructor
  · intro h
    unfold startsAud at h
    split at h
    next a b c d r =>
      simp only [Bool.and_eq_true, beq_iff_eq] at h
      obtain ⟨⟨⟨rfl, rfl⟩, rfl⟩, ht⟩ := h
      exact ⟨d, r, rfl, ht⟩
    next => cases h
  · rintro ⟨d, r, rfl, ht⟩
    simp [startsAud, ht]

/-- The delimiters of a codec. -/
def Codec.auds (codec : Codec) : Marks UInt8 where
  starts := startsAud codec
  width := 4
  width_pos := Nat.succ_pos 3
  width_le := by
    intro l h
    obtain ⟨d, r, rfl, -⟩ := startsAud_iff.mp h
    simp
  starts_append := by
    intro l r hl
    cases l with
    | nil => simp at hl
    | cons a l =>
      cases l with
      | nil => simp at hl
      | cons b l =>
        cases l with
        | nil => simp at hl
        | cons c l =>
          cases l with
          | nil => simp at hl
          | cons d l => rfl
  apart := by
    intro l k h hk hlt
    obtain ⟨d, r, rfl, ht⟩ := startsAud_iff.mp h
    rw [← Bool.not_eq_true]
    intro hin
    obtain ⟨d', r', heq, -⟩ := startsAud_iff.mp hin
    -- the third byte is not zero, and neither is the type
    obtain rfl | rfl | rfl : k = 1 ∨ k = 2 ∨ k = 3 := by omega
    · simp at heq
    · simp at heq
    · simp at heq
      exact ne_zero_of_audType ht heq.1

private theorem scanAud_eq (codec : Codec) (l : List UInt8) (i : Nat) :
    scanAud codec l i = (codec.auds.first l).map (· + i) := by
  induction l generalizing i with
  | nil => rfl
  | cons b l ih =>
    rw [scanAud, Marks.first]
    change (if codec.auds.starts (b :: l) = true then _ else _) = _
    split
    · simp
    · rw [ih, Option.map_map]
      congr 1
      funext n
      simp only [Function.comp_apply]
      omega

private theorem findAud_eq (codec : Codec) (buf : List UInt8) (start : Nat) :
    findAud buf start codec = (codec.auds.first (buf.drop start)).map (· + start) :=
  scanAud_eq codec (buf.drop start) start

/-- A delimiter that is found behind the first one is behind the start and inside the buffer. -/
private theorem findAud_bounds {codec : Codec} {buf : List UInt8} {start n : Nat}
    (h : findAud buf start codec = some n) : start ≤ n ∧ n < buf.length := by
  rw [findAud_eq, Option.map_eq_some_iff] at h
  obtain ⟨i, hi, rfl⟩ := h
  have hlen := codec.auds.width_le (codec.auds.first_eq_some hi).1
  have hwidth := codec.auds.width_pos
  rw [List.length_drop, List.length_drop] at hlen
  omega

/-! ### The splitter -/

structure AuSplitter where
  buf : List UInt8 := []
  codec : Codec

namespace AuSplitter

/-- The loop of `push`: the complete access units at the front, and what is left. -/
def emitComplete (codec : Codec) (buf : List UInt8) : List (List UInt8) × List UInt8 :=
  match _h : findAud buf 4 codec with
  | none => ([], buf)
  | some next => (buf.take next :: (emitComplete codec (buf.drop next)).1, (emitComplete codec (buf.drop next)).2)
termination_by buf.length
decreasing_by
  all_goals
    have hb := findAud_bounds _h
    rw [List.length_drop]
    omega

/-- The splitter after a chunk and the access units it has emitted. -/
def push (s : AuSplitter) (incoming : List UInt8) : AuSplitter × List (List UInt8) :=
  let buf := s.buf ++ incoming
  match findAud buf 0 s.codec with
  | none => ({ s with buf }, [])
  -- bytes before the first delimiter are dropped
  | some first =>
    let r := emitComplete s.codec (buf.drop first)
    ({ s with buf := r.2 }, r.1)

def flush (s : AuSplitter) : AuSplitter × List (List UInt8) :=
  if s.buf.length > 6 ∧ findAud s.buf 0 s.codec = some 0 then
    ({ s with buf := [] }, [s.buf])
  else
    ({ s with buf := [] }, [])

def pushAll (s : AuSplitter) : List (List UInt8) → AuSplitter × List (List UInt8)
  | [] => (s, [])
  | chunk :: chunks =>
    let r := s.push chunk
    let t := r.1.pushAll chunks
    (t.1, r.2 ++ t.2)

/-- What a new splitter emits for the chunks and the end of the stream. -/
def units (codec : Codec) (chunks : List (List UInt8)) : List (List UInt8) :=
  let r := pushAll { codec } chunks
  r.2 ++ r.1.flush.2

end AuSplitter

/-- The reader's access units, numbered in the order of the stream. -/
def readerLoop (codec : Codec) (chunks : List (List UInt8)) : List EncodedAu :=
  (AuSplitter.units codec chunks).zipIdx.map fun au =>
    { data := au.1, keyframe := auIsKeyframe codec au.1, seq := UInt64.ofNat au.2 }

/-! ### The splitter cuts at the marks -/

namespace AuSplitter

/-- The loop leaves the last segment and emits the others. -/
private theorem emitComplete_spec {codec : Codec} {buf : List UInt8} (h : startsAud codec buf = true) :
    (codec.auds.segments buf).2 = (emitComplete codec buf).1 ++ [(emitComplete codec buf).2] := by
  induction hn : buf.length using Nat.strongRecOn generalizing buf with
  | ind n ih =>
    subst hn
    have hfind := findAud_eq codec buf 4
    cases hj : codec.auds.first (buf.drop codec.auds.width) with
    | none =>
      have hnone : findAud buf 4 codec = none := by
        rw [hfind]
        exact congrArg (Option.map (· + 4)) hj
      have hloop : emitComplete codec buf = ([], buf) := by
        rw [emitComplete]
        split
        next => rfl
        next next hnext => exact absurd (hnone.symm.trans hnext).symm (Option.some_ne_none _)
      rw [hloop, codec.auds.segments_single (codec.auds.single_of_first_none h hj)]
      rfl
    | some j =>
      have hsome : findAud buf 4 codec = some (4 + j) := by
        rw [hfind, Nat.add_comm]
        exact congrArg (Option.map (· + 4)) hj
      have hloop : emitComplete codec buf = (buf.take (4 + j) :: (emitComplete codec (buf.drop (4 + j))).1,
          (emitComplete codec (buf.drop (4 + j))).2) := by
        rw [emitComplete]
        split
        next hnone => exact absurd (hsome.symm.trans hnone) (Option.some_ne_none _)
        next next hnext =>
          cases hsome.symm.trans hnext
          rfl
      obtain ⟨-, hstarts, hrest⟩ := codec.auds.segments_of_first_some h hj
      have hlen := (findAud_bounds hsome).2
      have hih := ih (buf.drop (4 + j)).length (by rw [List.length_drop]; omega) hstarts rfl
      rw [hloop, hrest]
      exact congrArg (List.cons _) hih

/-- What the splitter holds of a stream, and what it has emitted. -/
def Splits (s : AuSplitter) (stream : List UInt8) (emitted : List (List UInt8)) : Prop :=
  (s.buf = stream ∧ emitted = [] ∧ s.codec.auds.first stream = none) ∨
    ∃ junk, s.codec.auds.segments stream = (junk, emitted ++ [s.buf])

/-- What one chunk does to the buffer. -/
private theorem push_none {s : AuSplitter} {chunk : List UInt8}
    (h : s.codec.auds.first (s.buf ++ chunk) = none) : s.push chunk = ({ s with buf := s.buf ++ chunk }, []) := by
  have hfind : findAud (s.buf ++ chunk) 0 s.codec = none := by
    rw [findAud_eq, List.drop_zero, h]
    rfl
  simp only [push, hfind]

private theorem push_some {s : AuSplitter} {chunk : List UInt8} {i : Nat}
    (h : s.codec.auds.first (s.buf ++ chunk) = some i) :
    s.push chunk = ({ s with buf := (emitComplete s.codec ((s.buf ++ chunk).drop i)).2 },
      (emitComplete s.codec ((s.buf ++ chunk).drop i)).1) := by
  have hfind : findAud (s.buf ++ chunk) 0 s.codec = some i := by
    rw [findAud_eq, List.drop_zero, h]
    rfl
  simp only [push, hfind]

private theorem push_codec (s : AuSplitter) (chunk : List UInt8) : (s.push chunk).1.codec = s.codec := by
  cases h : s.codec.auds.first (s.buf ++ chunk) with
  | none => rw [push_none h]
  | some i => rw [push_some h]

theorem Splits.push {s : AuSplitter} {stream : List UInt8} {emitted : List (List UInt8)} (h : s.Splits stream emitted)
    (chunk : List UInt8) : (s.push chunk).1.Splits (stream ++ chunk) (emitted ++ (s.push chunk).2) := by
  rcases h with ⟨rfl, rfl, -⟩ | ⟨junk, hseg⟩
  · cases hfirst : s.codec.auds.first (s.buf ++ chunk) with
    | none =>
      rw [push_none hfirst]
      exact Or.inl ⟨rfl, rfl, hfirst⟩
    | some i =>
      obtain ⟨hstarts, -, hseg⟩ := s.codec.auds.first_eq_some hfirst
      rw [push_some hfirst]
      refine Or.inr ⟨(s.buf ++ chunk).take i, ?_⟩
      rw [List.nil_append, ← emitComplete_spec hstarts]
      exact hseg
  · have hmem : s.buf ∈ (s.codec.auds.segments stream).2 := by
      rw [hseg]
      exact List.mem_append_right _ (List.mem_singleton.mpr rfl)
    have hbuf := (s.codec.auds.single_of_mem_segments hmem).1
    have hstarts : s.codec.auds.starts (s.buf ++ chunk) = true :=
      (s.codec.auds.starts_append chunk (s.codec.auds.width_le hbuf)).trans hbuf
    -- the held unit still begins with its delimiter
    have hfirst := s.codec.auds.first_of_starts hstarts
    rw [push_some hfirst, List.drop_zero]
    refine Or.inr ⟨junk, ?_⟩
    have hgrow := s.codec.auds.segments_grow hseg chunk
    rw [emitComplete_spec hstarts, ← List.append_assoc] at hgrow
    exact hgrow

private theorem pushAll_codec (s : AuSplitter) (chunks : List (List UInt8)) :
    (s.pushAll chunks).1.codec = s.codec := by
  induction chunks generalizing s with
  | nil => rfl
  | cons chunk chunks ih => exact (ih (s.push chunk).1).trans (s.push_codec chunk)

private theorem Splits.pushAll {s : AuSplitter} {stream : List UInt8} {emitted : List (List UInt8)}
    (h : s.Splits stream emitted) (chunks : List (List UInt8)) :
    (s.pushAll chunks).1.Splits (stream ++ chunks.flatten) (emitted ++ (s.pushAll chunks).2) := by
  induction chunks generalizing s stream emitted with
  | nil => simpa [AuSplitter.pushAll] using h
  | cons chunk chunks ih =>
    have hrest := ih (h.push chunk)
    rw [List.append_assoc, List.append_assoc] at hrest
    exact hrest

/-- At the end of the stream the held unit is emitted if it is longer than a delimiter can be. -/
theorem Splits.flush {s : AuSplitter} {stream : List UInt8} {emitted : List (List UInt8)}
    (h : s.Splits stream emitted) :
    (emitted = [] ∧ s.flush.2 = [] ∧ (s.codec.auds.segments stream).2 = []) ∨
      ∃ junk last, s.codec.auds.segments stream = (junk, emitted ++ [last]) ∧
        s.flush.2 = if 6 < last.length then [last] else [] := by
  rcases h with ⟨rfl, rfl, hnone⟩ | ⟨junk, hseg⟩
  · left
    refine ⟨rfl, ?_, congrArg Prod.snd (s.codec.auds.first_eq_none hnone).1⟩
    have hfind : findAud s.buf 0 s.codec = none := by
      rw [findAud_eq, List.drop_zero, hnone]
      rfl
    rw [AuSplitter.flush, if_neg]
    rintro ⟨-, h0⟩
    exact Option.some_ne_none _ (h0.symm.trans hfind)
  · right
    refine ⟨junk, s.buf, hseg, ?_⟩
    have hmem : s.buf ∈ (s.codec.auds.segments stream).2 := by
      rw [hseg]
      exact List.mem_append_right _ (List.mem_singleton.mpr rfl)
    have hbuf := (s.codec.auds.single_of_mem_segments hmem).1
    have hfind : findAud s.buf 0 s.codec = some 0 := by
      rw [findAud_eq, List.drop_zero, s.codec.auds.first_of_starts hbuf]
      rfl
    by_cases hlen : 6 < s.buf.length
    · rw [AuSplitter.flush, if_pos ⟨hlen, hfind⟩, if_pos hlen]
    · rw [AuSplitter.flush, if_neg fun hc => hlen hc.1, if_neg hlen]

/-- The access units of a whole stream: its segments, except a last one of at most 6 bytes. -/
def whole (codec : Codec) (stream : List UInt8) : List (List UInt8) :=
  (codec.auds.segments stream).2.dropLast ++
    (codec.auds.segments stream).2.getLast?.toList.filter fun u => 6 < u.length

/-- The chunks do not matter. -/
private theorem units_eq (codec : Codec) (chunks : List (List UInt8)) :
    units codec chunks = whole codec chunks.flatten := by
  have hnew : Splits { codec } [] [] := Or.inl ⟨rfl, rfl, rfl⟩
  have hall := (hnew.pushAll chunks).flush
  rw [pushAll_codec, List.nil_append, List.nil_append] at hall
  have hdef : units codec chunks =
      (AuSplitter.pushAll { codec } chunks).2 ++ (AuSplitter.pushAll { codec } chunks).1.flush.2 := rfl
  rw [hdef, whole]
  rcases hall with ⟨hemitted, hflush, hseg⟩ | ⟨junk, last, hseg, hflush⟩
  · rw [hemitted, hflush, hseg]
    rfl
  · rw [hflush, hseg]
    by_cases hlen : 6 < last.length
    · simp [hlen]
    · simp [hlen]

/-- The stream from its first delimiter on. -/
def fromFirst (codec : Codec) (stream : List UInt8) : List UInt8 :=
  match findAud stream 0 codec with
  | none => []
  | some i => stream.drop i

private theorem segments_fromFirst (codec : Codec) (stream : List UInt8) :
    (codec.auds.segments stream).2.flatten = fromFirst codec stream := by
  have hfind := findAud_eq codec stream 0
  rw [List.drop_zero] at hfind
  cases hfirst : codec.auds.first stream with
  | none =>
    rw [hfirst] at hfind
    rw [(codec.auds.first_eq_none hfirst).1]
    simp only [fromFirst, hfind, Option.map_none, List.flatten_nil]
  | some i =>
    obtain ⟨hstarts, -, hseg⟩ := codec.auds.first_eq_some hfirst
    have hflat := codec.auds.segments_flatten (stream.drop i)
    rw [codec.auds.segments_of_starts hstarts, List.nil_append] at hflat
    rw [hfirst] at hfind
    rw [hseg]
    simp only [fromFirst, hfind, Option.map_some, Nat.add_zero]
    exact hflat

end AuSplitter

/-- However the stream is cut, the same access units are emitted. Each begins with a delimiter and has no other, and
together they are the stream from its first delimiter on, up to a final delimiter with at most 6 bytes. -/
theorem chunking_independent (codec : Codec) (chunks : List (List UInt8)) :
    let units := AuSplitter.units codec chunks
    units = AuSplitter.units codec [chunks.flatten] ∧
      (∀ u ∈ units, startsAud codec u = true ∧ ∀ k, 0 < k → startsAud codec (u.drop k) = false) ∧
      ∃ fragment, AuSplitter.fromFirst codec chunks.flatten = units.flatten ++ fragment ∧
        (fragment = [] ∨ startsAud codec fragment = true ∧ fragment.length ≤ 6) := by
  intro units
  have hunits : units = AuSplitter.whole codec chunks.flatten := AuSplitter.units_eq codec chunks
  have hone : AuSplitter.units codec [chunks.flatten] = AuSplitter.whole codec chunks.flatten := by
    rw [AuSplitter.units_eq, List.flatten_singleton]
  refine ⟨hunits.trans hone.symm, ?_, ?_⟩
  · intro u hu
    refine codec.auds.single_of_mem_segments (l := chunks.flatten) ?_
    rw [hunits, AuSplitter.whole, List.mem_append, List.mem_filter, Option.mem_toList] at hu
    rcases hu with hu | ⟨hu, -⟩
    · exact List.mem_of_mem_dropLast hu
    · exact List.mem_of_getLast? hu
  · rw [← AuSplitter.segments_fromFirst, hunits, AuSplitter.whole]
    cases hsegs : (codec.auds.segments chunks.flatten).2.getLast? with
    | none =>
      rw [List.getLast?_eq_none_iff] at hsegs
      exact ⟨[], by simp [hsegs], Or.inl rfl⟩
    | some last =>
      have hmem := List.mem_of_getLast? hsegs
      have hsplit : _ ++ [last] = (codec.auds.segments chunks.flatten).2 := List.dropLast_append_getLast? last hsegs
      have hflat : (codec.auds.segments chunks.flatten).2.flatten = _ := (congrArg List.flatten hsplit).symm
      rw [List.flatten_append, List.flatten_singleton] at hflat
      by_cases hlen : 6 < last.length
      · refine ⟨[], ?_, Or.inl rfl⟩
        simpa [hlen] using hflat
      · refine ⟨last, ?_, Or.inr ⟨(codec.auds.single_of_mem_segments hmem).1, Nat.le_of_not_lt hlen⟩⟩
        simpa [hlen] using hflat

/-- The reader hands on the same numbered access units for every cut. -/
theorem readerLoop_eq (codec : Codec) (chunks : List (List UInt8)) :
    readerLoop codec chunks = readerLoop codec [chunks.flatten] := by
  rw [readerLoop, readerLoop, AuSplitter.units_eq, AuSplitter.units_eq, List.flatten_singleton]

end Infinigpu
