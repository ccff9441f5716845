import VeloBus.LinkModel

/-! The incremental frame decoder of the client. What it holds between two chunks is the start of a frame, so that
it is compared with the decoder that has the whole stream before it. -/

namespace VeloBus.Client

/-- A frame with room for its length, of which some bytes are there. -/
structure Filling where
  length : Nat
  bytes : Bytes
  valid : 5 ≤ length ∧ length ≤ maxFrame
  short : bytes.length < length

structure FrameDecoder where
  /-- The used part of `prefix`. -/
  start : Bytes
  frame : Option Filling
  short : start.length < 4
  apart : frame.isSome → start = []

/-- What a pass of the loop in `push` does: it throws, or it goes on with the rest of the chunk. -/
inductive Turn where
  | threw
  | went (emitted : Option Bytes) (decoder : FrameDecoder) (rest : Bytes)

namespace FrameDecoder

def new : FrameDecoder := ⟨[], none, Nat.succ_pos 3, nofun⟩

/-- The part of a pass that copies into the frame. -/
def fill (frame : Filling) (chunk : Bytes) : Turn :=
  let count := min (frame.length - frame.bytes.length) chunk.length
  let bytes := frame.bytes ++ chunk.take count
  if h : bytes.length < frame.length then
    .went none ⟨[], some ⟨frame.length, bytes, frame.valid, h⟩, Nat.succ_pos 3, fun _ => rfl⟩ (chunk.drop count)
  else .went (some bytes) new (chunk.drop count)

def turn (decoder : FrameDecoder) (chunk : Bytes) : Turn :=
  match decoder.frame with
  | some frame => fill frame chunk
  | none =>
    let count := min (4 - decoder.start.length) chunk.length
    let start := decoder.start ++ chunk.take count
    if h : start.length < 4 then .went none ⟨start, none, h, nofun⟩ (chunk.drop count)
    else
      let length := Bytes.ofBe start
      if hvalid : 5 ≤ length ∧ length ≤ maxFrame then
        fill ⟨length, [], hvalid, (Nat.succ_pos 4).trans_le hvalid.1⟩ (chunk.drop count)
      else .threw

theorem fill_rest {frame : Filling} {chunk rest : Bytes} {emitted : Option Bytes} {next : FrameDecoder}
    (h : fill frame chunk = .went emitted next rest) :
    rest = chunk.drop (min (frame.length - frame.bytes.length) chunk.length) := by
  unfold fill at h
  dsimp only at h
  split_ifs at h
  · exact (Turn.went.inj h).2.2.symm
  · exact (Turn.went.inj h).2.2.symm

/-- A pass reads something. -/
theorem turn_lt {decoder next : FrameDecoder} {chunk rest : Bytes} {emitted : Option Bytes} (hchunk : chunk ≠ [])
    (h : decoder.turn chunk = .went emitted next rest) : rest.length < chunk.length := by
  have hpositive := List.length_pos_iff.mpr hchunk
  unfold turn at h
  cases hframe : decoder.frame with
  | some frame =>
      rw [hframe] at h
      have hshort := frame.short
      rw [fill_rest h, List.length_drop]
      omega
  | none =>
      rw [hframe] at h
      have hshort := decoder.short
      dsimp only at h
      split_ifs at h
      · rw [← (Turn.went.inj h).2.2, List.length_drop]
        omega
      · rw [fill_rest h, List.length_drop, List.length_drop]
        omega

/-- `push`: the frames it emits, and the decoder it leaves unless it throws. -/
def push (decoder : FrameDecoder) (chunk : Bytes) : List Bytes × Option FrameDecoder :=
  if _hchunk : chunk = [] then ([], some decoder)
  else
    match _hturn : decoder.turn chunk with
    | .threw => ([], none)
    | .went emitted next rest =>
      let result := push next rest
      (emitted.toList ++ result.1, result.2)
termination_by chunk.length
decreasing_by exact turn_lt _hchunk _hturn

/-- Chunks one after another, until `push` throws. -/
def pushAll (decoder : FrameDecoder) : List Bytes → List Bytes × Option FrameDecoder
  | [] => ([], some decoder)
  | chunk :: chunks =>
    match decoder.push chunk with
    | (frames, none) => (frames, none)
    | (frames, some next) =>
      let result := pushAll next chunks
      (frames ++ result.1, result.2)

/-! ### One pass -/

/-- The bytes that were received and are in no frame yet. -/
def buffered (decoder : FrameDecoder) : Bytes :=
  match decoder.frame with
  | none => decoder.start
  | some frame => Bytes.toBe 4 frame.length ++ frame.bytes

/-- What a pass made of a stream: nothing, a frame, or an error. -/
inductive Turned (stream chunk : Bytes) : Turn → Prop where
  | threw (h : decode stream = .invalid) : Turned stream chunk .threw
  | waits {decoder : FrameDecoder} {rest : Bytes} (h : decoder.buffered ++ rest = stream)
      (hrest : rest.length ≤ chunk.length) : Turned stream chunk (.went none decoder rest)
  | emits {frame rest : Bytes} (h : decode stream = .frame frame rest) (hrest : rest.length ≤ chunk.length) :
      Turned stream chunk (.went (some frame) new rest)

theorem ofBe_valid {length : Nat} (hvalid : 5 ≤ length ∧ length ≤ maxFrame) : Bytes.ofBe (Bytes.toBe 4 length) = length := by
  apply Bytes.ofBe_toBe_of_lt
  have hmost := hvalid.2
  unfold maxFrame at hmost
  omega

/-- A stream whose length is there and valid. -/
theorem decode_valid {length : Nat} (hvalid : 5 ≤ length ∧ length ≤ maxFrame) (data : Bytes) :
    decode (Bytes.toBe 4 length ++ data) =
      if data.length < length then .more else .frame (data.take length) (data.drop length) := by
  have hfour : (Bytes.toBe 4 length ++ data).take 4 = Bytes.toBe 4 length := List.take_left' (Bytes.length_toBe _ _)
  have hdata : (Bytes.toBe 4 length ++ data).drop 4 = data := List.drop_left' (Bytes.length_toBe _ _)
  have hrest : (Bytes.toBe 4 length ++ data).drop (4 + length) = data.drop length := by
    rw [← List.drop_drop, hdata]
  unfold decode
  rw [hfour, ofBe_valid hvalid]
  dsimp only
  rw [hdata, hrest, List.length_append, Bytes.length_toBe, if_neg (by omega), if_neg (by omega)]
  by_cases hshort : data.length < length
  · rw [if_pos (by omega), if_pos hshort]
  · rw [if_neg (by omega), if_neg hshort]

theorem fill_turned (frame : Filling) (chunk : Bytes) :
    Turned (Bytes.toBe 4 frame.length ++ (frame.bytes ++ chunk)) chunk (fill frame chunk) := by
  have hrest : (chunk.drop (min (frame.length - frame.bytes.length) chunk.length)).length ≤ chunk.length := by
    rw [List.length_drop]
    exact Nat.sub_le _ _
  unfold fill
  dsimp only
  split_ifs with hshort
  · apply Turned.waits _ hrest
    unfold buffered
    dsimp only
    rw [List.append_assoc, List.append_assoc, List.take_append_drop]
  · have hcount : min (frame.length - frame.bytes.length) chunk.length = frame.length - frame.bytes.length := by
      rw [List.length_append, List.length_take] at hshort
      omega
    apply Turned.emits _ hrest
    have hlong : ¬(frame.bytes ++ chunk).length < frame.length := by
      rw [List.length_append, List.length_take] at hshort
      rw [List.length_append]
      omega
    rw [decode_valid frame.valid, if_neg hlong, hcount, List.take_append, List.drop_append,
      List.take_of_length_le frame.short.le, List.drop_of_length_le frame.short.le, List.nil_append]

theorem Turned.mono {stream chunk chunk' : Bytes} {turn : Turn} (h : Turned stream chunk turn)
    (hchunk : chunk.length ≤ chunk'.length) : Turned stream chunk' turn := by
  cases h with
  | threw h => exact .threw h
  | waits h hrest => exact .waits h (hrest.trans hchunk)
  | emits h hrest => exact .emits h (hrest.trans hchunk)

/-- Once the length is there it has four bytes. -/
theorem start_length {decoder : FrameDecoder} {chunk : Bytes}
    (h : ¬(decoder.start ++ chunk.take (min (4 - decoder.start.length) chunk.length)).length < 4) :
    (decoder.start ++ chunk.take (min (4 - decoder.start.length) chunk.length)).length = 4 := by
  have hshort := decoder.short
  rw [List.length_append, List.length_take] at h ⊢
  omega

theorem turn_turned (decoder : FrameDecoder) (chunk : Bytes) :
    Turned (decoder.buffered ++ chunk) chunk (decoder.turn chunk) := by
  unfold turn buffered
  cases hframe : decoder.frame with
  | some frame =>
      dsimp only
      rw [List.append_assoc]
      exact fill_turned frame chunk
  | none =>
      dsimp only
      have hrest : (chunk.drop (min (4 - decoder.start.length) chunk.length)).length ≤ chunk.length := by
        rw [List.length_drop]
        exact Nat.sub_le _ _
      have hsplit : decoder.start ++ chunk = (decoder.start ++ chunk.take (min (4 - decoder.start.length) chunk.length)) ++
          chunk.drop (min (4 - decoder.start.length) chunk.length) := by
        rw [List.append_assoc, List.take_append_drop]
      split_ifs with hshort hvalid
      · apply Turned.waits _ hrest
        exact hsplit.symm
      · have hfour := start_length hshort
        have hturned := fill_turned ⟨Bytes.ofBe (decoder.start ++ chunk.take _), [], hvalid,
          (Nat.succ_pos 4).trans_le hvalid.1⟩ (chunk.drop (min (4 - decoder.start.length) chunk.length))
        have hwhole := Bytes.toBe_ofBe (decoder.start ++ chunk.take (min (4 - decoder.start.length) chunk.length))
        rw [hfour] at hwhole
        rw [hwhole, List.nil_append, ← hsplit] at hturned
        exact hturned.mono hrest
      · have hfour := start_length hshort
        apply Turned.threw
        unfold decode
        rw [hsplit, List.take_left' hfour, List.length_append, hfour, if_neg (by omega)]
        dsimp only
        rw [if_pos (by omega)]

/-! ### The stream -/

theorem decode_lt {stream frame rest : Bytes} (h : decode stream = .frame frame rest) : rest.length < stream.length := by
  unfold decode at h
  split_ifs at h
  dsimp only at h
  split_ifs at h
  rw [← (Decoded.frame.inj h).2, List.length_drop]
  omega

/-- The frames of a stream, and what follows them unless it is invalid. -/
def frames (stream : Bytes) : List Bytes × Option Bytes :=
  match _hdecode : decode stream with
  | .more => ([], some stream)
  | .invalid => ([], none)
  | .frame frame rest =>
    let result := frames rest
    (frame :: result.1, result.2)
termination_by stream.length
decreasing_by exact decode_lt _hdecode

theorem frames_more {stream : Bytes} (h : decode stream = .more) : frames stream = ([], some stream) := by
  rw [frames]
  split <;> simp_all

theorem frames_invalid {stream : Bytes} (h : decode stream = .invalid) : frames stream = ([], none) := by
  rw [frames]
  split <;> simp_all

theorem frames_frame {stream frame rest : Bytes} (h : decode stream = .frame frame rest) :
    frames stream = (frame :: (frames rest).1, (frames rest).2) := by
  rw [frames]
  split
  · simp_all
  · simp_all
  · rename_i frame' rest' hdecode
    obtain ⟨rfl, rfl⟩ := Decoded.frame.inj (h.symm.trans hdecode)
    rfl

/-- A decoder holds no whole frame. -/
theorem decode_buffered (decoder : FrameDecoder) : decode decoder.buffered = .more := by
  unfold buffered
  cases decoder.frame with
  | none =>
      unfold decode
      exact if_pos decoder.short
  | some frame =>
      dsimp only
      rw [decode_valid frame.valid, if_pos frame.short]

/-- **A decoder emits the frames of its stream.** -/
theorem push_frames (decoder : FrameDecoder) (chunk : Bytes) :
    frames (decoder.buffered ++ chunk) = ((decoder.push chunk).1, (decoder.push chunk).2.map buffered) := by
  induction hlength : chunk.length using Nat.strong_induction_on generalizing decoder chunk with
  | h n ih =>
      unfold push
      split_ifs with hchunk
      · rw [hchunk, List.append_nil, frames_more (decode_buffered decoder)]
        rfl
      · have hturned := turn_turned decoder chunk
        split
        · rename_i hturn
          rw [hturn] at hturned
          cases hturned with
          | threw hinvalid => exact frames_invalid hinvalid
        · rename_i emitted next rest hturn
          have hnext := ih rest.length (hlength ▸ turn_lt hchunk hturn) next rest rfl
          rw [hturn] at hturned
          cases hturned with
          | waits hstream _ =>
              rw [← hstream, hnext]
              rfl
          | emits hframe _ =>
              rw [frames_frame hframe]
              rw [show new.buffered ++ rest = rest from rfl] at hnext
              rw [hnext]
              rfl

/-- What follows a stream is read after it. -/
theorem frames_append (stream more : Bytes) : frames (stream ++ more) =
    match (frames stream).2 with
    | none => frames stream
    | some rest => ((frames stream).1 ++ (frames (rest ++ more)).1, (frames (rest ++ more)).2) := by
  induction hlength : stream.length using Nat.strong_induction_on generalizing stream with
  | h n ih =>
      cases hdecode : decode stream with
      | more =>
          rw [frames_more hdecode]
          rfl
      | invalid => rw [frames_invalid hdecode, frames_invalid (decode_invalid_append hdecode more)]
      | frame frame rest =>
          rw [frames_frame hdecode, frames_frame (decode_append hdecode more),
            ih rest.length (hlength ▸ decode_lt hdecode) rest rfl]
          generalize frames rest = result
          obtain ⟨emitted, _ | left⟩ := result
          · rfl
          · rfl

theorem pushAll_frames (chunks : List Bytes) (decoder : FrameDecoder) : frames (decoder.buffered ++ chunks.flatten) =
    ((decoder.pushAll chunks).1, (decoder.pushAll chunks).2.map buffered) := by
  induction chunks generalizing decoder with
  | nil =>
      rw [List.flatten_nil, List.append_nil, frames_more (decode_buffered decoder)]
      rfl
  | cons chunk chunks ih =>
      rw [List.flatten_cons, ← List.append_assoc, frames_append, push_frames]
      unfold pushAll
      rcases decoder.push chunk with ⟨emitted, _ | next⟩
      · rfl
      · dsimp only [Option.map_some]
        rw [ih next]

/-- A decoder is what it holds. -/
theorem buffered_injective {decoder decoder' : FrameDecoder} (h : decoder.buffered = decoder'.buffered) :
    decoder = decoder' := by
  obtain ⟨start, frame, hshort, hapart⟩ := decoder
  obtain ⟨start', frame', hshort', hapart'⟩ := decoder'
  unfold buffered at h
  cases frame with
  | none =>
      cases frame' with
      | none =>
          obtain rfl : start = start' := h
          rfl
      | some frame' =>
          have hlength := congrArg List.length h
          simp only [List.length_append, Bytes.length_toBe] at hlength
          omega
  | some frame =>
      cases frame' with
      | none =>
          have hlength := congrArg List.length h
          simp only [List.length_append, Bytes.length_toBe] at hlength
          omega
      | some frame' =>
          obtain ⟨hlength, hbytes⟩ := List.append_inj h (by rw [Bytes.length_toBe, Bytes.length_toBe])
          have hsame := congrArg Bytes.ofBe hlength
          rw [ofBe_valid frame.valid, ofBe_valid frame'.valid] at hsame
          obtain rfl : start = [] := hapart rfl
          obtain rfl : start' = [] := hapart' rfl
          obtain rfl : frame = frame' := by
            obtain ⟨length, bytes, hvalid, hless⟩ := frame
            obtain ⟨length', bytes', hvalid', hless'⟩ := frame'
            obtain rfl : length = length' := hsame
            obtain rfl : bytes = bytes' := hbytes
            rfl
          rfl

/-- **Chunks are pushed like their concatenation.** -/
theorem pushAll_flatten (decoder : FrameDecoder) (chunks : List Bytes) :
    decoder.pushAll chunks = decoder.push chunks.flatten := by
  have hsame := (pushAll_frames chunks decoder).symm.trans (push_frames decoder chunks.flatten)
  obtain ⟨hframes, hrest⟩ := Prod.mk.inj hsame
  refine Prod.ext hframes ?_
  exact Option.map_injective (fun _ _ => buffered_injective) hrest

end FrameDecoder

/-! ### Responses -/

/-- What `receive` reads in a frame. -/
def readResponse (frame : Bytes) : Frame := ⟨frameOpcode frame, frameId frame, frame.drop 5⟩

theorem readResponse_bytes {frame : Frame} (h : frame.Legal) : readResponse (frame.bytes.drop 4) = frame := by
  unfold readResponse
  rw [frameOpcode_bytes h, frameId_bytes h, frameBody_bytes]

theorem frames_bytes {sent : List Frame} (h : ∀ frame ∈ sent, frame.Legal) :
    FrameDecoder.frames (sent.flatMap Frame.bytes) = (sent.map fun frame => frame.bytes.drop 4, some []) := by
  induction sent with
  | nil => exact FrameDecoder.frames_more rfl
  | cons frame sent ih =>
      rw [List.flatMap_cons, FrameDecoder.frames_frame (decode_bytes (h frame List.mem_cons_self) _),
        ih fun other hmem => h other (List.mem_cons_of_mem _ hmem)]
      rfl

/-! ### The stream of the broker

`read_frame` on a stream that arrives in parts: `read_exact` waits until it has all it asked for. -/

/-- `read_exact`, with what has arrived and is left. -/
def readExact (count : Nat) : List Bytes → Option (Bytes × List Bytes)
  | [] => if count = 0 then some ([], []) else none
  | chunk :: chunks =>
    if count < chunk.length then some (chunk.take count, chunk.drop count :: chunks)
    else (readExact (count - chunk.length) chunks).map fun result => (chunk ++ result.1, result.2)

theorem readExact_flatten (count : Nat) (chunks : List Bytes) :
    (readExact count chunks).map (fun result => (result.1, result.2.flatten)) =
      if chunks.flatten.length < count then none else some (chunks.flatten.take count, chunks.flatten.drop count) := by
  induction chunks generalizing count with
  | nil =>
      unfold readExact
      by_cases hcount : count = 0
      · rw [if_pos hcount, hcount]
        rfl
      · rw [if_neg hcount, List.flatten_nil, List.length_nil, if_pos (Nat.pos_of_ne_zero hcount)]
        rfl
  | cons chunk chunks ih =>
      unfold readExact
      rw [List.flatten_cons, List.length_append]
      by_cases hshort : count < chunk.length
      · rw [if_pos hshort, if_neg (by omega), List.take_append_of_le_length hshort.le,
          List.drop_append_of_le_length hshort.le]
        rfl
      · have hrest := ih (count - chunk.length)
        rw [if_neg hshort, Option.map_map]
        rw [List.take_append, List.drop_append, List.take_of_length_le (not_lt.mp hshort),
          List.drop_of_length_le (not_lt.mp hshort), List.nil_append]
        by_cases hlong : chunks.flatten.length < count - chunk.length
        · rw [if_pos hlong, Option.map_eq_none_iff] at hrest
          rw [hrest, if_pos (by omega)]
          rfl
        · rw [if_neg hlong] at hrest
          obtain ⟨result, hresult, heq⟩ := Option.map_eq_some_iff.mp hrest
          rw [hresult, if_neg (by omega)]
          rw [← (Prod.mk.inj heq).1, ← (Prod.mk.inj heq).2]
          rfl

/-- What a call of `read_frame` comes to. -/
inductive Arrival where
  | waits
  | invalid (message : String)
  | arrived (frame : Frame) (rest : List Bytes)

def readFrame (chunks : List Bytes) : Arrival :=
  match readExact 4 chunks with
  | none => .waits
  | some (start, chunks) =>
    let length := Bytes.ofBe start
    if validLength length = false then .invalid "invalid frame length"
    else
      match readExact length chunks with
      | none => .waits
      | some (data, chunks) =>
        let requestId := Bytes.ofBe ((data.drop 1).take 4)
        if requestId = 0 then .invalid "zero request id"
        else .arrived ⟨Bytes.ofBe (data.take 1), requestId, data.drop 5⟩ chunks

/-- The same of what has arrived, in one part. -/
def Arrival.flatten : Arrival → Incoming
  | .waits => .more
  | .invalid message => .invalid message
  | .arrived frame rest => .frame frame rest.flatten

theorem readExact_none {count : Nat} {chunks : List Bytes} (h : readExact count chunks = none) :
    chunks.flatten.length < count := by
  have hflatten := readExact_flatten count chunks
  rw [h] at hflatten
  by_contra hlong
  rw [if_neg hlong] at hflatten
  cases hflatten

theorem readExact_some {count : Nat} {chunks rest : List Bytes} {data : Bytes}
    (h : readExact count chunks = some (data, rest)) : count ≤ chunks.flatten.length ∧
      data = chunks.flatten.take count ∧ rest.flatten = chunks.flatten.drop count := by
  have hflatten := readExact_flatten count chunks
  rw [h] at hflatten
  by_cases hshort : chunks.flatten.length < count
  · rw [if_pos hshort] at hflatten
    cases hflatten
  · rw [if_neg hshort] at hflatten
    obtain ⟨hdata, hrest⟩ := Prod.mk.inj (Option.some.inj hflatten)
    exact ⟨not_lt.mp hshort, hdata, hrest⟩

theorem readFrame_flatten (chunks : List Bytes) : (readFrame chunks).flatten = VeloBus.readFrame chunks.flatten := by
  unfold readFrame VeloBus.readFrame
  cases hstart : readExact 4 chunks with
  | none =>
      rw [if_pos (readExact_none hstart)]
      rfl
  | some result =>
      obtain ⟨start, middle⟩ := result
      obtain ⟨hfour, rfl, hmiddle⟩ := readExact_some hstart
      rw [if_neg (not_lt.mpr hfour)]
      dsimp only
      by_cases hlength : validLength (Bytes.ofBe (chunks.flatten.take 4)) = false
      · rw [if_pos hlength, if_pos hlength]
        rfl
      · rw [if_neg hlength, if_neg hlength]
        cases hframe : readExact (Bytes.ofBe (chunks.flatten.take 4)) middle with
        | none =>
            have hshort := readExact_none hframe
            rw [hmiddle, List.length_drop] at hshort
            rw [if_pos (by omega)]
            rfl
        | some result =>
            obtain ⟨data, rest⟩ := result
            obtain ⟨hlong, rfl, hrest⟩ := readExact_some hframe
            rw [hmiddle, List.length_drop] at hlong
            rw [hmiddle, List.drop_drop] at hrest
            rw [hmiddle, if_neg (by omega)]
            dsimp only
            split_ifs with hzero
            · rfl
            · exact congrArg _ hrest

theorem readFrame_lt {chunks rest : List Bytes} {frame : Frame} (h : readFrame chunks = .arrived frame rest) :
    rest.flatten.length < chunks.flatten.length := by
  have hflatten := readFrame_flatten chunks
  rw [h] at hflatten
  unfold Arrival.flatten VeloBus.readFrame at hflatten
  by_cases hshort : chunks.flatten.length < 4
  · rw [if_pos hshort] at hflatten
    cases hflatten
  · rw [if_neg hshort] at hflatten
    dsimp only at hflatten
    split_ifs at hflatten
    rw [(Incoming.frame.inj hflatten).2, List.length_drop]
    omega

/-- The frames that the broker reads until it waits, or until an error. -/
def readFrames (chunks : List Bytes) : List Frame × Option String :=
  match _hframe : readFrame chunks with
  | .waits => ([], none)
  | .invalid message => ([], some message)
  | .arrived frame rest =>
    let result := readFrames rest
    (frame :: result.1, result.2)
termination_by chunks.flatten.length
decreasing_by exact readFrame_lt _hframe

theorem readFrames_waits {chunks : List Bytes} (h : readFrame chunks = .waits) : readFrames chunks = ([], none) := by
  rw [readFrames]
  split <;> simp_all

theorem readFrames_invalid {chunks : List Bytes} {message : String} (h : readFrame chunks = .invalid message) :
    readFrames chunks = ([], some message) := by
  rw [readFrames]
  split <;> simp_all

theorem readFrames_arrived {chunks rest : List Bytes} {frame : Frame} (h : readFrame chunks = .arrived frame rest) :
    readFrames chunks = (frame :: (readFrames rest).1, (readFrames rest).2) := by
  rw [readFrames]
  split
  · simp_all
  · simp_all
  · rename_i hframe
    obtain ⟨rfl, rfl⟩ := Arrival.arrived.inj (h.symm.trans hframe)
    rfl

/-- What has arrived is all that counts. -/
theorem readFrames_congr {chunks chunks' : List Bytes} (h : chunks.flatten = chunks'.flatten) :
    readFrames chunks = readFrames chunks' := by
  induction hlength : chunks.flatten.length using Nat.strong_induction_on generalizing chunks chunks' with
  | h n ih =>
      have hsame : (readFrame chunks).flatten = (readFrame chunks').flatten := by
        rw [readFrame_flatten, readFrame_flatten, h]
      cases hframe : readFrame chunks with
      | waits =>
          cases hframe' : readFrame chunks' with
          | waits => rw [readFrames_waits hframe, readFrames_waits hframe']
          | _ => rw [hframe, hframe'] at hsame; cases hsame
      | invalid message =>
          cases hframe' : readFrame chunks' with
          | invalid message' =>
              rw [hframe, hframe'] at hsame
              rw [readFrames_invalid hframe, readFrames_invalid hframe', Incoming.invalid.inj hsame]
          | _ => rw [hframe, hframe'] at hsame; cases hsame
      | arrived frame rest =>
          cases hframe' : readFrame chunks' with
          | arrived frame' rest' =>
              rw [hframe, hframe'] at hsame
              obtain ⟨hfirst, hrest⟩ := Incoming.frame.inj hsame
              have hlater := ih _ (hlength ▸ readFrame_lt hframe) hrest rfl
              rw [readFrames_arrived hframe, readFrames_arrived hframe', hfirst, hlater]
          | _ => rw [hframe, hframe'] at hsame; cases hsame

/-- Frames that were written one after another are read. -/
theorem readFrames_bytes {sent : List Frame} (hlegal : ∀ frame ∈ sent, frame.Legal) {chunks : List Bytes}
    (h : chunks.flatten = sent.flatMap Frame.bytes) : readFrames chunks = (sent, none) := by
  induction sent generalizing chunks with
  | nil =>
      have hread := readFrame_flatten chunks
      rw [h] at hread
      cases hframe : readFrame chunks with
      | waits => exact readFrames_waits hframe
      | _ => rw [hframe] at hread; cases hread
  | cons frame sent ih =>
      have hread := readFrame_flatten chunks
      rw [h, List.flatMap_cons, readFrame_bytes (hlegal frame List.mem_cons_self)] at hread
      cases hframe : readFrame chunks with
      | arrived first rest =>
          rw [hframe] at hread
          obtain ⟨rfl, hrest⟩ := Incoming.frame.inj hread
          rw [readFrames_arrived hframe, ih (fun other hmem => hlegal other (List.mem_cons_of_mem _ hmem)) hrest]
      | _ => rw [hframe] at hread; cases hread

/-- What the requests of a client are when `envelope` takes them. -/
theorem envelope_bytes {requests : List Frame} {outputs : List Bytes}
    (hids : ∀ request ∈ requests, request.opcode < 256 ∧ 0 < request.requestId ∧ request.requestId < 2 ^ 32)
    (h : List.Forall₂ (fun request output =>
      envelope request.opcode request.requestId request.body = .ok output) requests outputs) :
    (∀ request ∈ requests, request.Legal) ∧ outputs.flatten = requests.flatMap Frame.bytes := by
  induction h with
  | nil => exact ⟨nofun, rfl⟩
  | @cons request output requests outputs hfirst _ ih =>
      obtain ⟨hlegal, hflatten⟩ := ih fun other hmem => hids other (List.mem_cons_of_mem _ hmem)
      obtain ⟨hopcode, hpositive, hid⟩ := hids request List.mem_cons_self
      obtain ⟨sent, hsent, hbytes, rfl⟩ := Link.exists_envelope hopcode hpositive (Nat.le_of_lt_succ hid) hfirst
      constructor
      · rw [List.forall_mem_cons]
        exact ⟨hsent, hlegal⟩
      · rw [List.flatten_cons, List.flatMap_cons, hflatten, ← hbytes]

/-! ### The cuts of a stream -/

/-- **Framing does not depend on how the stream is cut.** A decoder that is new emits what the whole stream would
make it emit, and throws when that would; of the responses of a broker each is read as it was, or as an error when
it is too large; and the broker reads the requests of a client as they were written. -/
theorem framing_chunks (chunks : List Bytes) :
    FrameDecoder.new.pushAll chunks = FrameDecoder.new.push chunks.flatten ∧
    (∀ responses : List Frame,
      (∀ response ∈ responses, response.opcode < 256 ∧ 0 < response.requestId ∧ response.requestId < 2 ^ 32) →
      chunks.flatten = responses.flatMap (fun response =>
        responseFrame response.opcode response.requestId response.body) →
      (FrameDecoder.new.pushAll chunks).2 = some FrameDecoder.new ∧
      (FrameDecoder.new.pushAll chunks).1.map readResponse = responses.map fun response =>
        if response.body.length ≤ VeloBus.maxFrame - 5 then response
        else ⟨0xff, response.requestId, errorBody ⟨Code.limit, "response exceeds maximum frame size"⟩⟩) ∧
    readFrames chunks = readFrames [chunks.flatten] ∧
    ∀ (requests : List Frame) (outputs : List Bytes),
      (∀ request ∈ requests, request.opcode < 256 ∧ 0 < request.requestId ∧ request.requestId < 2 ^ 32) →
      List.Forall₂ (fun request output =>
        envelope request.opcode request.requestId request.body = .ok output) requests outputs →
      chunks.flatten = outputs.flatten → readFrames chunks = (requests, none) := by
  refine ⟨FrameDecoder.pushAll_flatten _ _, ?_, ?_, ?_⟩
  · intro responses hids hchunks
    let answers := responses.map fun response => Frame.answer response.opcode response.requestId response.body
    have hlegal : ∀ answer ∈ answers, answer.Legal := by
      intro answer hanswer
      obtain ⟨response, hmem, rfl⟩ := List.mem_map.mp hanswer
      obtain ⟨hopcode, hpositive, hid⟩ := hids response hmem
      exact Frame.answer_legal hopcode hpositive hid
    have hbytes : chunks.flatten = answers.flatMap Frame.bytes := by
      rw [hchunks, List.flatMap_map]
      simp only [Frame.answer_bytes]
    have hframes := FrameDecoder.pushAll_frames chunks FrameDecoder.new
    rw [show FrameDecoder.new.buffered = [] from rfl, List.nil_append, hbytes, frames_bytes hlegal] at hframes
    obtain ⟨hemitted, hleft⟩ := Prod.mk.inj hframes
    constructor
    · obtain ⟨decoder, hdecoder, hbuffered⟩ := Option.map_eq_some_iff.mp hleft.symm
      rw [hdecoder, FrameDecoder.buffered_injective (hbuffered.trans rfl : _ = FrameDecoder.new.buffered)]
    · rw [← hemitted, List.map_map]
      calc answers.map (readResponse ∘ fun answer => answer.bytes.drop 4)
          = answers := by
            conv_rhs => rw [← List.map_id answers]
            apply List.map_congr_left
            intro answer hanswer
            exact readResponse_bytes (hlegal answer hanswer)
        _ = _ := by
            apply List.map_congr_left
            intro response _
            unfold Frame.answer
            by_cases hlong : VeloBus.maxFrame - 5 < response.body.length
            · rw [if_pos hlong, if_neg (not_le.mpr hlong)]
            · rw [if_neg hlong, if_pos (not_lt.mp hlong)]
  · apply readFrames_congr
    rw [List.flatten_cons, List.flatten_nil, List.append_nil]
  · intro requests outputs hids houtputs hchunks
    obtain ⟨hlegal, hbytes⟩ := envelope_bytes hids houtputs
    exact readFrames_bytes hlegal (hchunks.trans hbytes)

/-- A response in three parts, of which one is empty, and a request in two. -/
theorem framing_chunks_parts :
    (FrameDecoder.new.pushAll [[0, 0], [], [0, 6, 0x81, 0, 0, 0, 1, 7]]).1.map readResponse = [⟨0x81, 1, [7]⟩] ∧
    readFrames [[0, 0, 0, 5, 2], [0, 0, 0, 1]] = ([⟨2, 1, []⟩], none) := by
  have hresponse := (framing_chunks [[0, 0], [], [0, 6, 0x81, 0, 0, 0, 1, 7]]).2.1 [⟨0x81, 1, [7]⟩]
    (by decide) (by decide)
  have hrequest := (framing_chunks [[0, 0, 0, 5, 2], [0, 0, 0, 1]]).2.2.2 [⟨2, 1, []⟩] [[0, 0, 0, 5, 2, 0, 0, 0, 1]]
    (by decide) (List.Forall₂.cons (by decide) .nil) (by decide)
  constructor
  · rw [hresponse.2]
    decide
  · exact hrequest

end VeloBus.Client
