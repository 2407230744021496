import Flume.Network.Input

/-!
# The network stream round trip

What a network collector was given comes out of the network input at the other end, exactly when no
watermark is among it and every record's encoding is shorter than `2 ^ 32` bytes: a watermark is
sent without the length prefix that the input expects, and a longer length is cut off.

* `Delivered`: the input yields the elements passed in, barriers compared by their ids;
* `Sends`: the invariant of a run of the collector, `sends_process` its step;
* `sum_weight_le`: the elements of a batch take no more room than its payload;
* **`networkStream_delivered`**: when the stream is delivered.
-/

namespace Flume

open Fallible Framing

variable {T : Type}

/-- An element whose barrier has lost its timestamp. -/
def StreamElement.untimed : StreamElement T → StreamElement T
  | .checkpointBarrier b => .checkpointBarrier ⟨b.checkpointId, 0⟩
  | e => e

/-- The element is a watermark. -/
def StreamElement.isWatermark : StreamElement T → Bool
  | .watermark _ => true
  | _ => false

/-- The element is no watermark, and its encoding, if any, is shorter than `2 ^ 32` bytes. -/
def StreamElement.Framed (codec : Codec (StreamElement T)) : StreamElement T → Prop
  | .record r => match codec.serialize (.record r) with
    | .ok bytes => bytes.length < 2 ^ 32
    | .error _ => True
  | .watermark _ => False
  | .checkpointBarrier _ => True

instance (codec : Codec (StreamElement T)) : ∀ e : StreamElement T, Decidable (e.Framed codec)
  | .record r => show Decidable (match codec.serialize (.record r) with
      | .ok bytes => bytes.length < 2 ^ 32
      | .error _ => True) from
    match codec.serialize (.record r) with
    | .ok bytes => inferInstanceAs (Decidable (bytes.length < 2 ^ 32))
    | .error _ => instDecidableTrue
  | .watermark _ => instDecidableFalse
  | .checkpointBarrier _ => instDecidableTrue

/-- The bytes that an element takes behind a length prefix; a barrier takes none. -/
def StreamElement.weight (codec : Codec (StreamElement T)) (e : StreamElement T) : ℕ :=
  match e.barrier?, codec.serialize e with
  | none, .ok bytes => 4 + bytes.length
  | _, _ => 0

namespace NetworkCollector

/-- The network input yields the elements passed in, in order, each once. -/
def Delivered (codec : Codec (StreamElement T)) (events : List (Event T)) (c : NetworkCollector) :
    Prop :=
  (NetworkInput.recvAll codec ⟨c.sent, []⟩).map StreamElement.untimed =
    (elements events).map StreamElement.untimed

/-! ## The run of the collector -/

section Run

variable {codec : Codec (StreamElement T)} {events : List (Event T)} {c c' : NetworkCollector}
  {e : StreamElement T}

theorem elements_emit (events : List (Event T)) (e : StreamElement T) :
    elements (events ++ [.emit e]) = elements events ++ [e] := List.filterMap_append

theorem elements_grant (events : List (Event T)) (credits : U32) :
    elements (events ++ [.grant credits]) = elements events :=
  List.filterMap_append.trans (List.append_nil _)

theorem elements_deliver (events : List (Event T)) :
    elements (events ++ [.deliver]) = elements events :=
  List.filterMap_append.trans (List.append_nil _)

/-- The bytes sent so far. -/
def sentBytes (c : NetworkCollector) : ℕ := (c.sent.map fun batch => batch.payload.length).sum

/-- The frames of `frames` are in the buffer, and with them everything of `es` is on its way. -/
structure Carries (codec : Codec (StreamElement T)) (es : List (StreamElement T))
    (frames : List Bytes) (c : NetworkCollector) : Prop where
  short : ∀ b ∈ frames, b.length < 256 ^ 4
  buffer : c.buffer = (frames.map (frame 4)).flatten
  all : c.sent.flatMap (batchElements codec) ++ decodeFrames codec frames =
    es.map StreamElement.untimed

/-- The invariant of a run whose calls return `Ok`. -/
structure Sends (codec : Codec (StreamElement T)) (events : List (Event T))
    (c : NetworkCollector) : Prop where
  carries : (∀ e ∈ elements events, e.Framed codec) → ∃ frames, Carries codec (elements events) frames c
  drained : ∀ b, (elements events).getLast? = some (.checkpointBarrier b) → c.buffer = []
  weighs : c.sentBytes + c.buffer.length + 4 * (elements events).countP StreamElement.isWatermark =
    ((elements events).map (StreamElement.weight codec)).sum

/-! ### What the receiver will yield -/

theorem batchElements_of_frames {batch : DataBatch} {frames : List Bytes}
    (hshort : ∀ b ∈ frames, b.length < 256 ^ 4) (hbarrier : batch.isBarrier = false)
    (hpayload : batch.payload = (frames.map (frame 4)).flatten) :
    batchElements codec batch = decodeFrames codec frames := by
  rw [batchElements, if_neg (by rw [hbarrier]; exact Bool.false_ne_true), hpayload,
    unframe_flatten hshort]

theorem Carries.decoded_of_empty {es : List (StreamElement T)} {frames : List Bytes}
    (h : Carries codec es frames c) (hempty : c.buffer = []) : decodeFrames codec frames = [] := by
  have hframes : frames = [] := by
    rw [← @unframe_flatten 4 (by decide) _ h.short, ← h.buffer, hempty, unframe_nil]
  rw [hframes]
  rfl

theorem Carries.send {es : List (StreamElement T)} {frames : List Bytes} {batch : DataBatch}
    (h : Carries codec es frames c) (hbarrier : batch.isBarrier = false)
    (hpayload : batch.payload = c.buffer) (hsent : c'.sent = c.sent ++ [batch])
    (hbuffer : c'.buffer = []) : Carries codec es [] c' := by
  refine ⟨fun b hb => absurd hb List.not_mem_nil, hbuffer, ?_⟩
  rw [hsent, List.flatMap_append, List.flatMap_singleton, ← h.all,
    batchElements_of_frames h.short hbarrier (hpayload.trans h.buffer)]
  exact List.append_nil _

theorem Carries.flush {es : List (StreamElement T)} {frames : List Bytes}
    (h : Carries codec es frames c) (hflush : NetworkCollector.flush.runOn c = (.ok (), c')) :
    Carries codec es [] c' := by
  obtain ⟨hbuffer, ⟨hempty, hsent⟩ | ⟨batch, hpayload, hbarrier, hsent⟩⟩ := flush_eq_ok hflush
  · refine ⟨fun b hb => absurd hb List.not_mem_nil, hbuffer, ?_⟩
    rw [hsent, ← h.all, h.decoded_of_empty hempty]
    rfl
  · exact h.send hbarrier hpayload hsent hbuffer

theorem Carries.addFrame (hcodec : codec.RoundTrips) {es : List (StreamElement T)}
    {frames : List Bytes} {record : Record T} {bytes : Bytes} (h : Carries codec es frames c)
    (hframed : (StreamElement.record record).Framed codec)
    (hbytes : codec.serialize (.record record) = .ok bytes)
    (hbuffer : c'.buffer = c.buffer ++ frame 4 bytes) (hsent : c'.sent = c.sent) :
    Carries codec (es ++ [.record record]) (frames ++ [bytes]) c' := by
  have hlt : bytes.length < 2 ^ 32 := by
    simpa only [StreamElement.Framed, hbytes] using hframed
  have hlen : bytes.length < 256 ^ 4 := hlt.trans_eq (by norm_num)
  have hdecode : decodeFrames codec (frames ++ [bytes]) =
      decodeFrames codec frames ++ [.record record] := by
    simp only [decodeFrames, List.filterMap_append, List.filterMap_cons, List.filterMap_nil,
      hcodec _ _ hbytes, Except.toOption]
  refine ⟨fun b hb => ?_, ?_, ?_⟩
  · rcases List.mem_append.mp hb with hb | hb
    · exact h.short b hb
    · rw [List.mem_singleton.mp hb]; exact hlen
  · rw [hbuffer, List.map_append, List.flatten_append, ← h.buffer]
    exact congrArg _ (List.append_nil _).symm
  · rw [hsent, hdecode, ← List.append_assoc, h.all, List.map_append]
    rfl

theorem carries_collect (hcodec : codec.RoundTrips) {es : List (StreamElement T)}
    {frames : List Bytes} {record : Record T} (h : Carries codec es frames c)
    (hframed : (StreamElement.record record).Framed codec)
    (hcall : (collect codec record).runOn c = (.ok (), c')) :
    ∃ frames', Carries codec (es ++ [.record record]) frames' c' := by
  obtain ⟨bytes, hbytes, ⟨hbuffer, hsent⟩ | ⟨hbuffer, batch, hpayload, hbarrier, hsent⟩⟩ :=
    collect_eq_ok hcall
  · exact ⟨frames ++ [bytes], h.addFrame hcodec hframed hbytes hbuffer hsent⟩
  · have hadded : Carries codec (es ++ [.record record]) (frames ++ [bytes])
        { c with buffer := c.buffer ++ frame 4 bytes } :=
      h.addFrame hcodec hframed hbytes rfl rfl
    exact ⟨[], hadded.send hbarrier hpayload hsent hbuffer⟩

theorem carries_collectBarrier {es : List (StreamElement T)} {frames : List Bytes}
    {barrier : CheckpointBarrier} (h : Carries codec es frames c)
    (hcall : (collectBarrier barrier).runOn c = (.ok (), c')) :
    Carries codec (es ++ [.checkpointBarrier barrier]) [] c' := by
  obtain ⟨c₁, hflush, hbuffer, batch, -, hbarrier, hid, hsent⟩ := collectBarrier_eq_ok hcall
  have hcarries := h.flush hflush
  refine ⟨hcarries.short, hbuffer, ?_⟩
  have hbatch : batchElements codec batch = [.checkpointBarrier ⟨barrier.checkpointId, 0⟩] := by
    rw [batchElements, if_pos hbarrier, hid]
  have hall := hcarries.all
  rw [decodeFrames, List.filterMap_nil, List.append_nil] at hall
  rw [hsent, List.flatMap_append, List.flatMap_singleton, hbatch, hall, List.map_append]
  exact List.append_nil _

theorem carries_emit (hcodec : codec.RoundTrips) {es : List (StreamElement T)} {frames : List Bytes}
    (h : Carries codec es frames c) (hframed : e.Framed codec)
    (hcall : (emit codec e).runOn c = (.ok (), c')) :
    ∃ frames', Carries codec (es ++ [e]) frames' c' := by
  cases e with
  | record record => exact carries_collect hcodec h hframed hcall
  | watermark watermark => exact hframed.elim
  | checkpointBarrier barrier => exact ⟨[], carries_collectBarrier h hcall⟩

theorem Carries.quiet {es : List (StreamElement T)} {frames : List Bytes}
    (h : Carries codec es frames c) (hsent : c'.sent = c.sent) (hbuffer : c'.buffer = c.buffer) :
    Carries codec es frames c' :=
  ⟨h.short, hbuffer.trans h.buffer, by rw [hsent]; exact h.all⟩

/-! ### How many bytes were sent -/

theorem sentBytes_append {batch : DataBatch} (h : c'.sent = c.sent ++ [batch]) :
    c'.sentBytes = c.sentBytes + batch.payload.length := by
  rw [sentBytes, h, List.map_append, List.sum_append]
  rfl

theorem sentBytes_flush (h : NetworkCollector.flush.runOn c = (.ok (), c')) :
    c'.sentBytes = c.sentBytes + c.buffer.length := by
  obtain ⟨-, ⟨hempty, hsent⟩ | ⟨batch, hpayload, -, hsent⟩⟩ := flush_eq_ok h
  · rw [sentBytes, hsent, hempty]
    rfl
  · rw [sentBytes_append hsent, hpayload]

theorem weight_of_serialize {bytes : Bytes} (hbarrier : e.barrier? = none)
    (h : codec.serialize e = .ok bytes) : e.weight codec = 4 + bytes.length := by
  unfold StreamElement.weight
  rw [hbarrier, h]

/-- A call that returns `Ok` puts the element's weight on its way, a watermark's without its
length prefix. -/
theorem bytes_emit (hcall : (emit codec e).runOn c = (.ok (), c')) :
    c'.sentBytes + c'.buffer.length + (if e.isWatermark then 4 else 0) =
      c.sentBytes + c.buffer.length + e.weight codec := by
  cases e with
  | record record =>
    obtain ⟨bytes, hbytes, hcases⟩ := collect_eq_ok hcall
    rw [weight_of_serialize rfl hbytes]
    rcases hcases with ⟨hbuf, hsent⟩ | ⟨hbuf, batch, hpayload, -, hsent⟩
    · have hsame : c'.sentBytes = c.sentBytes := by rw [sentBytes, hsent, sentBytes]
      rw [hsame, hbuf, List.length_append, frame, List.length_append, length_leBytes]
      simp only [StreamElement.isWatermark, Bool.false_eq_true, if_false]
      omega
    · rw [sentBytes_append hsent, hbuf, hpayload, List.length_append, frame, List.length_append,
        length_leBytes]
      simp only [StreamElement.isWatermark, Bool.false_eq_true, if_false, List.length_nil]
      omega
  | watermark watermark =>
    obtain ⟨bytes, c₁, hbytes, hflush, hbuf, batch, hpayload, -, hsent⟩ :=
      collectWatermark_eq_ok hcall
    rw [weight_of_serialize rfl hbytes, sentBytes_append hsent, sentBytes_flush hflush, hbuf,
      hpayload]
    simp only [StreamElement.isWatermark, if_true, List.length_nil]
    omega
  | checkpointBarrier barrier =>
    obtain ⟨c₁, hflush, hbuf, batch, hpayload, -, -, hsent⟩ := collectBarrier_eq_ok hcall
    rw [sentBytes_append hsent, sentBytes_flush hflush, hbuf, hpayload]
    rfl

/-! ### The invariant -/

theorem sends_new (channelId : String) (capacity : ℕ) (batchSize : U32) :
    Sends codec [] (new channelId (BatchSender.new capacity) batchSize) :=
  ⟨fun _ => ⟨[], by simp, rfl, rfl⟩, fun b h => rfl, rfl⟩

theorem Sends.quiet {events' : List (Event T)} (h : Sends codec events c)
    (hes : elements events' = elements events) (hsent : c'.sent = c.sent)
    (hbuffer : c'.buffer = c.buffer) : Sends codec events' c' := by
  have hbytes : c'.sentBytes = c.sentBytes := by rw [sentBytes, hsent, sentBytes]
  refine ⟨fun hframed => ?_, fun b hb => ?_, ?_⟩
  · rw [hes] at hframed ⊢
    obtain ⟨frames, hc⟩ := h.carries hframed
    exact ⟨frames, hc.quiet hsent hbuffer⟩
  · rw [hbuffer]
    exact h.drained b (hes ▸ hb)
  · rw [hbytes, hbuffer, hes]
    exact h.weighs

/-- **Every call that returns `Ok` keeps the invariant.** -/
theorem sends_emit (hcodec : codec.RoundTrips) (h : Sends codec events c)
    (hcall : (emit codec e).runOn c = (.ok (), c')) : Sends codec (events ++ [.emit e]) c' := by
  refine ⟨fun hframed => ?_, fun b hb => ?_, ?_⟩
  · rw [elements_emit] at hframed ⊢
    obtain ⟨frames, hc⟩ := h.carries fun e' he' => hframed e' (List.mem_append_left _ he')
    exact carries_emit hcodec hc (hframed e (by simp)) hcall
  · rw [elements_emit, List.getLast?_concat, Option.some.injEq] at hb
    subst hb
    obtain ⟨-, -, hbuffer, -⟩ := collectBarrier_eq_ok hcall
    exact hbuffer
  · have hbytes := bytes_emit hcall
    have hold := h.weighs
    rw [elements_emit, List.countP_append, List.map_append, List.sum_append, List.countP_singleton,
      List.map_singleton, List.sum_singleton]
    split_ifs at hbytes ⊢ <;> omega

theorem sends_run (hcodec : codec.RoundTrips) {channelId : String} {capacity : ℕ} {batchSize : U32}
    (h : (run codec events).runOn (new channelId (BatchSender.new capacity) batchSize) =
      (.ok (), c)) : Sends codec events c := by
  refine runOn_forM_invariant (P := Sends codec) (fun done event s s' hs hevent => ?_)
    (sends_new channelId capacity batchSize) h
  cases event with
  | emit e => exact sends_emit hcodec hs hevent
  | grant credits =>
    obtain ⟨hsent, hbuffer⟩ := grantCredits_eq_ok hevent
    exact hs.quiet (elements_grant done credits) hsent hbuffer
  | deliver =>
    obtain ⟨hsent, hbuffer⟩ := deliver_eq_ok hevent
    exact hs.quiet (elements_deliver done) hsent hbuffer

end Run

/-! ## What the receiver yields takes its room -/

section Yield

variable {codec : Codec (StreamElement T)} {e : StreamElement T} {batch : DataBatch}

theorem weight_untimed : e.untimed.weight codec = e.weight codec := by
  cases e <;> rfl

theorem sum_weight_untimed (es : List (StreamElement T)) :
    ((es.map StreamElement.untimed).map (StreamElement.weight codec)).sum =
      (es.map (StreamElement.weight codec)).sum := by
  rw [List.map_map]
  exact congrArg List.sum (List.map_congr_left fun e _ => weight_untimed)

theorem weight_decoded (hminimal : codec.Minimal) {bytes : Bytes}
    (h : codec.deserialize bytes = .ok e) : e.weight codec ≤ 4 + bytes.length := by
  unfold StreamElement.weight
  split
  · rename_i bytes' _ hbytes
    exact Nat.add_le_add_left (hminimal _ _ _ h hbytes) 4
  · exact Nat.zero_le _

theorem sum_weight_decodeFrames (hminimal : codec.Minimal) (frames : List Bytes) :
    ((decodeFrames codec frames).map (StreamElement.weight codec)).sum ≤
      (frames.map fun b => 4 + b.length).sum := by
  induction frames with
  | nil => exact Nat.zero_le _
  | cons b frames ih =>
    rw [decodeFrames, List.filterMap_cons, List.map_cons, List.sum_cons]
    cases hb : codec.deserialize b with
    | error msg => exact ih.trans (Nat.le_add_left _ _)
    | ok e =>
      simp only [Except.toOption, List.map_cons, List.sum_cons]
      exact Nat.add_le_add (weight_decoded hminimal hb) ih

/-- **The elements of a batch take no more room than its payload.** -/
theorem sum_weight_batch (hminimal : codec.Minimal) (batch : DataBatch) :
    ((batchElements codec batch).map (StreamElement.weight codec)).sum ≤ batch.payload.length := by
  unfold batchElements
  split_ifs
  · exact Nat.zero_le _
  · exact (sum_weight_decodeFrames hminimal _).trans (sum_unframe_le _)

theorem sum_weight_le (hminimal : codec.Minimal) (batches : List DataBatch) :
    ((batches.flatMap (batchElements codec)).map (StreamElement.weight codec)).sum ≤
      (batches.map fun batch => batch.payload.length).sum := by
  induction batches with
  | nil => exact Nat.zero_le _
  | cons batch batches ih =>
    rw [List.flatMap_cons, List.map_append, List.sum_append, List.map_cons, List.sum_cons]
    exact Nat.add_le_add (sum_weight_batch hminimal batch) ih

theorem framed_of_mem (hminimal : codec.Minimal) {batches : List DataBatch} {record : Record T}
    (h : .record record ∈ batches.flatMap (batchElements codec)) :
    (StreamElement.record record).Framed codec := by
  obtain ⟨batch, -, hmem⟩ := List.mem_flatMap.mp h
  unfold batchElements at hmem
  split_ifs at hmem
  · cases List.mem_singleton.mp hmem
  · obtain ⟨bytes, hbytes, hdecode⟩ := List.mem_filterMap.mp hmem
    have hok : codec.deserialize bytes = .ok (.record record) := by
      cases hd : codec.deserialize bytes with
      | error msg => rw [hd] at hdecode; cases hdecode
      | ok e => rw [hd] at hdecode; cases hdecode; rfl
    have hlen : bytes.length < 256 ^ 4 := length_lt_of_mem_unframe hbytes
    unfold StreamElement.Framed
    dsimp only
    split
    · rename_i bytes' hbytes'
      exact (hminimal _ _ _ hok hbytes').trans_lt (hlen.trans_eq (by norm_num))
    · trivial

end Yield

/-! ## When the stream is delivered -/

section Delivered

variable {codec : Codec (StreamElement T)} {events : List (Event T)} {c : NetworkCollector}

theorem recvAll_sent (c : NetworkCollector) :
    NetworkInput.recvAll codec ⟨c.sent, []⟩ = c.sent.flatMap (batchElements codec) :=
  NetworkInput.recvAll_eq codec ⟨c.sent, []⟩

theorem untimed_untimed (e : StreamElement T) : e.untimed.untimed = e.untimed := by
  cases e <;> rfl

theorem delivered_of_framed (h : Sends codec events c) (hempty : c.buffer = [])
    (hframed : ∀ e ∈ elements events, e.Framed codec) : Delivered codec events c := by
  obtain ⟨frames, hcarries⟩ := h.carries hframed
  have hall := hcarries.all
  rw [hcarries.decoded_of_empty hempty, List.append_nil] at hall
  rw [Delivered, recvAll_sent, hall, List.map_map]
  exact List.map_congr_left fun e _ => untimed_untimed e

theorem framed_of_delivered (hminimal : codec.Minimal) (h : Sends codec events c)
    (hempty : c.buffer = []) (hdelivered : Delivered codec events c) :
    ∀ e ∈ elements events, e.Framed codec := by
  rw [Delivered, recvAll_sent] at hdelivered
  have hcount : (elements events).countP StreamElement.isWatermark = 0 := by
    have hroom := sum_weight_le hminimal c.sent
    rw [← sum_weight_untimed, hdelivered, sum_weight_untimed] at hroom
    have hweighs := h.weighs
    rw [hempty, List.length_nil, sentBytes] at hweighs
    omega
  intro e he
  cases e with
  | record record =>
    have hmem : StreamElement.record record ∈ (elements events).map StreamElement.untimed :=
      List.mem_map.mpr ⟨_, he, rfl⟩
    rw [← hdelivered] at hmem
    obtain ⟨e', he', hun⟩ := List.mem_map.mp hmem
    cases e' <;> cases hun
    exact framed_of_mem hminimal he'
  | watermark watermark => exact absurd rfl (List.countP_eq_zero.mp hcount _ he)
  | checkpointBarrier barrier => trivial

/-- **When the stream is delivered:** if no watermark is passed in and every encoding of a record is
shorter than `2 ^ 32` bytes. -/
theorem networkStream_delivered (codec : Codec (StreamElement T)) (hcodec : codec.RoundTrips)
    (channelId : String) (capacity : ℕ) (batchSize : U32) (events : List (Event T))
    (c : NetworkCollector) (hok : (run codec events).runOn
      (new channelId (BatchSender.new capacity) batchSize) = (.ok (), c))
    (barrier : CheckpointBarrier)
    (hlast : (elements events).getLast? = some (.checkpointBarrier barrier)) :
    ((∀ e ∈ elements events, e.Framed codec) → Delivered codec events c) ∧
      (codec.Minimal → Delivered codec events c → ∀ e ∈ elements events, e.Framed codec) := by
  have hsends := sends_run hcodec hok
  have hempty := hsends.drained barrier hlast
  exact ⟨delivered_of_framed hsends hempty,
    fun hminimal => framed_of_delivered hminimal hsends hempty⟩

end Delivered

/-! ## A codec and two streams -/

/-- The number in little-endian bytes. -/
def readU64 (bytes : Bytes) : U64 := Fin.ofNat _ (leValue bytes)

/-- A codec for elements with one-byte values: a tag, then the fields. -/
def byteCodec : Codec (StreamElement UInt8) where
  serialize
    | .record ⟨value, timestamp, none⟩ => .ok (0 :: value :: leBytes 8 timestamp.val)
    | .record ⟨value, timestamp, some key⟩ => .ok (1 :: value :: leBytes 8 timestamp.val ++ key)
    | .watermark ⟨timestamp⟩ => .ok (2 :: leBytes 8 timestamp.val)
    | .checkpointBarrier ⟨checkpointId, timestamp⟩ =>
      .ok (3 :: leBytes 8 checkpointId.val ++ leBytes 8 timestamp.val)
  deserialize
    | 0 :: value :: bytes =>
      if bytes.length = 8 then .ok (.record ⟨value, readU64 bytes, none⟩) else .error "length"
    | 1 :: value :: bytes =>
      if 8 ≤ bytes.length then
        .ok (.record ⟨value, readU64 (bytes.take 8), some (bytes.drop 8)⟩)
      else .error "length"
    | 2 :: bytes => if bytes.length = 8 then .ok (.watermark ⟨readU64 bytes⟩) else .error "length"
    | 3 :: bytes =>
      if bytes.length = 16 then
        .ok (.checkpointBarrier ⟨readU64 (bytes.take 8), readU64 (bytes.drop 8)⟩)
      else .error "length"
    | _ => .error "tag"

theorem byteCodec_roundTrips : byteCodec.RoundTrips := by
  have hread : ∀ n : U64, readU64 (leBytes 8 n.val) = n := by
    intro n
    rw [readU64, leValue_leBytes_of_lt (n.isLt.trans_eq (by norm_num)), Fin.ofNat_val_eq_self]
  have htake : ∀ (n : ℕ) (bs : Bytes), (leBytes 8 n ++ bs).take 8 = leBytes 8 n := by
    intro n bs
    rw [List.take_append_of_le_length (length_leBytes 8 n).ge,
      List.take_of_length_le (length_leBytes 8 n).le]
  have hdrop : ∀ (n : ℕ) (bs : Bytes), (leBytes 8 n ++ bs).drop 8 = bs := by
    intro n bs
    rw [List.drop_append_of_le_length (length_leBytes 8 n).ge,
      List.drop_of_length_le (length_leBytes 8 n).le, List.nil_append]
  intro x b h
  rcases x with ⟨value, timestamp, _ | key⟩ | ⟨⟨timestamp⟩⟩ | ⟨checkpointId, timestamp⟩ <;>
    cases h <;> simp [byteCodec, hread, htake, hdrop]

theorem byteCodec_minimal : byteCodec.Minimal := by
  intro b x b' hdecode hencode
  simp only [byteCodec] at hdecode
  split at hdecode <;> try split_ifs at hdecode with hlen
  all_goals cases hdecode
  all_goals
    cases hencode
    simp only [List.length_cons, List.length_append, length_leBytes, List.length_drop]
    omega

/-- Records of which two fill a batch and one is flushed by the barrier. -/
def recordEvents : List (Event UInt8) :=
  [.grant 3, .emit (.record ⟨1, 100, some [7]⟩), .emit (.record ⟨2, 200, none⟩), .deliver,
    .emit (.record ⟨3, 300, none⟩), .emit (.checkpointBarrier ⟨1, 400⟩)]

/-- A collector with room for four batches of two records, after some events. -/
def afterEvents (events : List (Event UInt8)) : Except FlumeError Unit × NetworkCollector :=
  (run byteCodec events).runOn (new "ch-1" (BatchSender.new 4) 2)

theorem recordEvents_delivered :
    (∀ e ∈ elements recordEvents, e.Framed byteCodec) ∧
      (Delivered byteCodec recordEvents (afterEvents recordEvents).2 ↔
        ∀ e ∈ elements recordEvents, e.Framed byteCodec) := by
  have hwhen := networkStream_delivered byteCodec byteCodec_roundTrips "ch-1" 4 2 recordEvents
    (afterEvents recordEvents).2 (Prod.ext (by decide +kernel) rfl) ⟨1, 400⟩ rfl
  exact ⟨by decide +kernel, hwhen.2 byteCodec_minimal, hwhen.1⟩

/-- One watermark, then a barrier. -/
def watermarkEvents : List (Event UInt8) :=
  [.grant 1, .emit (.watermark ⟨500⟩), .emit (.checkpointBarrier ⟨1, 600⟩)]

/-- Both calls return `Ok`, but only the barrier comes out: the watermark is lost. -/
theorem watermarkEvents_not_delivered :
    byteCodec.RoundTrips ∧ (afterEvents watermarkEvents).1 = .ok () ∧
      (elements watermarkEvents).getLast? = some (.checkpointBarrier ⟨1, 600⟩) ∧
      NetworkInput.recvAll byteCodec ⟨(afterEvents watermarkEvents).2.sent, []⟩ =
        [.checkpointBarrier ⟨1, 0⟩] ∧
      ¬ Delivered byteCodec watermarkEvents (afterEvents watermarkEvents).2 := by
  refine ⟨byteCodec_roundTrips, by decide +kernel, rfl, by decide +kernel, ?_⟩
  unfold Delivered
  decide +kernel

end NetworkCollector

end Flume
