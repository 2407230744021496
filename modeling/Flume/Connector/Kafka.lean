import Flume.Core.Record
import Flume.Lib.Cursor
import Flume.Lib.Framing
import Flume.Lib.Utf8

/-!
# The Kafka source

A snapshot of a `KafkaSource` has the topic and the position in every partition; `restore` reads
them back and assigns the partitions at these positions. The client library is a parameter.

* `Rdkafka`, `Rdkafka.Faithful`: what the source uses of the client library, and relies on;
* `KafkaSource.snapshot`, `KafkaSource.restore`: as the code has them;
* `partitionData_eq`: the partitions of a snapshot;
* `Reads.topic`, `Reads.partitions`: what the fields of a snapshot are read back as;
* **`kafkaOffsets_survive`**: `restore` reads the partitions back, and rejects what is cut off.
-/

namespace Flume

open Framing Cursors

/-! ## The client library -/

/-- A position in a partition. -/
inductive Offset
  | beginning
  | endOfPartition
  | stored
  | invalid
  | offset (off : Int64)
  | offsetTail (off : Int64)
  deriving DecidableEq

/-- An entry of a list of partitions. -/
structure TopicPartitionListElem where
  topic : String
  partition : Int32
  offset : Offset
  deriving DecidableEq

/-- What the source uses of the client library; its errors are known by their texts. -/
structure Rdkafka where
  TopicPartitionList : Type
  new : TopicPartitionList
  elements : TopicPartitionList → List TopicPartitionListElem
  addPartitionOffset : TopicPartitionList → String → Int32 → Offset →
    Except String TopicPartitionList
  StreamConsumer : Type
  assignment : StreamConsumer → Except String TopicPartitionList
  position : StreamConsumer → Except String TopicPartitionList
  assign : StreamConsumer → TopicPartitionList → Except String Unit × StreamConsumer

/-- The client reports and accepts positions faithfully. -/
structure Rdkafka.Faithful (k : Rdkafka) : Prop where
  /-- A new list is empty. -/
  elements_new : k.elements k.new = []
  /-- A partition that is not in the list can be added at any offset from 0. -/
  accepts : ∀ (tpl : k.TopicPartitionList) (topic : String) (partition : Int32) (off : Int64),
    0 ≤ off → partition ∉ (k.elements tpl).map TopicPartitionListElem.partition →
      ∃ tpl', k.addPartitionOffset tpl topic partition (.offset off) = .ok tpl' ∧
        k.elements tpl' = k.elements tpl ++ [⟨topic, partition, .offset off⟩]
  /-- A reported offset is not negative. -/
  reports : ∀ consumer tpl, k.position consumer = .ok tpl →
    ∀ elem ∈ k.elements tpl, ∀ off, elem.offset = .offset off → 0 ≤ off

/-! ## The source -/

/-- Consumes messages from a topic. -/
structure KafkaSource (k : Rdkafka) where
  consumer : k.StreamConsumer
  topic : String

/-- `to_le_bytes` of an `i32`. -/
def int32Bytes (n : Int32) : Bytes := leBytes 4 n.toUInt32.toNat

/-- `to_le_bytes` of an `i64`. -/
def int64Bytes (n : Int64) : Bytes := leBytes 8 n.toUInt64.toNat

/-- `i32::from_le_bytes`. -/
def int32OfBytes (bs : Bytes) : Int32 := (UInt32.ofNat (leValue bs)).toInt32

/-- `i64::from_le_bytes`. -/
def int64OfBytes (bs : Bytes) : Int64 := (UInt64.ofNat (leValue bs)).toInt64

/-- The offset of a partition that has a position. -/
def TopicPartitionListElem.position? (elem : TopicPartitionListElem) : Option (Int32 × Int64) :=
  match elem.offset with
  | .offset off => some (elem.partition, off)
  | _ => none

/-- Adds an assigned partition that has no position yet. -/
def addAssigned (partitionData : List (Int32 × Int64)) (elem : TopicPartitionListElem) :
    List (Int32 × Int64) :=
  if partitionData.any fun p => p.1 = elem.partition then partitionData
  else partitionData ++ [(elem.partition, 0)]

/-- The partitions of a snapshot, with their offsets. -/
def partitionData (positions assignment : List TopicPartitionListElem) : List (Int32 × Int64) :=
  assignment.foldl addAssigned (positions.filterMap TopicPartitionListElem.position?)

/-- The bytes of a snapshot. -/
def snapshotBytes (topic : String) (partitionData : List (Int32 × Int64)) : Bytes :=
  leBytes 4 (Utf8.encode topic).length ++ Utf8.encode topic ++
    leBytes 4 partitionData.length ++
    partitionData.flatMap fun p => int32Bytes p.1 ++ int64Bytes p.2

/-- The loop over the partitions of a snapshot. -/
def readPartitions (k : Rdkafka) (topic : String) :
    ℕ → k.TopicPartitionList → Cursor UInt8 FlumeError k.TopicPartitionList
  | 0, tpl => pure tpl
  | count + 1, tpl => do
    let data ← takeFront 12 (.checkpoint "invalid state: partition data truncated")
    let partition := int32OfBytes (data.take 4)
    let offset := int64OfBytes (data.drop 4)
    let tpl ← lift ((k.addPartitionOffset tpl topic partition (.offset offset)).mapError
      fun e => .checkpoint ("failed to set offset: " ++ e))
    readPartitions k topic count tpl

/-- Reads a snapshot. The topic in it is checked to be valid UTF-8, and not used. -/
def readState (k : Rdkafka) (topic : String) : Cursor UInt8 FlumeError k.TopicPartitionList := do
  let topicLen ← takeFront 4 (.checkpoint "invalid state: too short")
  let bytes ← takeFront (leValue topicLen) (.checkpoint "invalid state: topic truncated")
  let _topic ← lift <| match Utf8.decode bytes with
    | some topic => .ok topic
    | none => .error (.checkpoint "invalid topic utf8")
  let count ← takeFront 4 (.checkpoint "invalid state: no partition count")
  readPartitions k topic (leValue count) k.new

namespace KafkaSource

variable {k : Rdkafka}

/-- The topic and the position in every partition. -/
def snapshot (source : KafkaSource k) : Except FlumeError Bytes := do
  let assignment ← (k.assignment source.consumer).mapError .source
  let positions ← (k.position source.consumer).mapError .source
  return snapshotBytes source.topic
    (partitionData (k.elements positions) (k.elements assignment))

/-- Assigns the partitions of a snapshot. -/
def restore (source : KafkaSource k) (state : Bytes) : Except FlumeError Unit × KafkaSource k :=
  if state = [] then (.ok (), source)
  else
    match readState k source.topic state with
    | .error e => (.error e, source)
    | .ok (tpl, _) =>
      let (result, consumer) := k.assign source.consumer tpl
      (result.mapError .source, { source with consumer })

end KafkaSource

/-! ## The partitions of a snapshot -/

/-- The partitions that have a position. -/
def positioned (positions : List TopicPartitionListElem) : List (Int32 × Int64) :=
  positions.filterMap TopicPartitionListElem.position?

/-- The assigned partitions that have no position. -/
def unpositioned (positions assignment : List TopicPartitionListElem) : List (Int32 × Int64) :=
  ((assignment.map TopicPartitionListElem.partition).filter
    (· ∉ (positioned positions).map Prod.fst)).map fun partition => (partition, 0)

section PartitionData

variable {positions assignment : List TopicPartitionListElem}

theorem foldl_addAssigned {data : List (Int32 × Int64)}
    (h : (assignment.map TopicPartitionListElem.partition).Nodup) :
    assignment.foldl addAssigned data = data ++
      ((assignment.map TopicPartitionListElem.partition).filter
        (· ∉ data.map Prod.fst)).map fun partition => (partition, 0) := by
  induction assignment generalizing data with
  | nil => exact (List.append_nil data).symm
  | cons elem assignment ih =>
    obtain ⟨hnew, hrest⟩ := List.nodup_cons.mp h
    have hany : (data.any fun p => p.1 = elem.partition) = true ↔
        elem.partition ∈ data.map Prod.fst := by
      simp [List.any_eq_true, List.mem_map]
    rw [List.foldl_cons, ih hrest, List.map_cons, List.filter_cons, addAssigned]
    by_cases hmem : elem.partition ∈ data.map Prod.fst
    · rw [if_pos (hany.mpr hmem), if_neg (by simpa using hmem)]
    · rw [if_neg (mt hany.mp hmem), if_pos (decide_eq_true hmem), List.map_cons,
        List.append_assoc]
      -- the partition that was added does not occur in the rest of the assignment
      refine congrArg (data ++ (elem.partition, 0) :: List.map _ ·) (List.filter_congr ?_)
      intro partition hpartition
      have hne : partition ≠ elem.partition := fun heq => hnew (heq ▸ hpartition)
      simp [hne]

/-- **The partitions of a snapshot**: those with a position, then the other assigned ones. -/
theorem partitionData_eq (h : (assignment.map TopicPartitionListElem.partition).Nodup) :
    partitionData positions assignment =
      positioned positions ++ unpositioned positions assignment := foldl_addAssigned h

theorem position?_eq_some {elem : TopicPartitionListElem} {p : Int32 × Int64} :
    elem.position? = some p ↔ elem.partition = p.1 ∧ elem.offset = .offset p.2 := by
  obtain ⟨partition, off⟩ := p
  unfold TopicPartitionListElem.position?
  cases elem.offset <;> simp

theorem sublist_positioned (positions : List TopicPartitionListElem) :
    ((positioned positions).map Prod.fst).Sublist
      (positions.map TopicPartitionListElem.partition) := by
  induction positions with
  | nil => exact List.Sublist.slnil
  | cons elem positions ih =>
    rw [positioned, List.filterMap_cons]
    cases helem : elem.position? with
    | none => exact ih.cons elem.partition
    | some p =>
      rw [List.map_cons, List.map_cons, (position?_eq_some.mp helem).1]
      exact ih.cons_cons p.1

theorem nodup_partitionData
    (hpositions : (positions.map TopicPartitionListElem.partition).Nodup)
    (hassignment : (assignment.map TopicPartitionListElem.partition).Nodup) :
    ((partitionData positions assignment).map Prod.fst).Nodup := by
  rw [partitionData_eq hassignment, List.map_append, unpositioned, List.map_map]
  have hfst : (Prod.fst ∘ fun partition : Int32 => (partition, (0 : Int64))) = id := rfl
  rw [hfst, List.map_id, List.nodup_append]
  refine ⟨?_, hassignment.filter _, ?_⟩
  · exact hpositions.sublist (sublist_positioned positions)
  · rintro a ha b hb rfl
    exact absurd ha (of_decide_eq_true (List.mem_filter.mp hb).2)

theorem offset_nonneg
    (h : ∀ elem ∈ positions, ∀ off, elem.offset = .offset off → 0 ≤ off)
    (hassignment : (assignment.map TopicPartitionListElem.partition).Nodup) :
    ∀ p ∈ partitionData positions assignment, 0 ≤ p.2 := by
  intro p hp
  rw [partitionData_eq hassignment, List.mem_append] at hp
  rcases hp with hp | hp
  · obtain ⟨elem, helem, hsome⟩ := List.mem_filterMap.mp hp
    exact h elem helem p.2 (position?_eq_some.mp hsome).2
  · obtain ⟨partition, -, rfl⟩ := List.mem_map.mp hp
    exact Int64.le_refl 0

end PartitionData

/-! ## Reading a snapshot -/

theorem int32OfBytes_int32Bytes (n : Int32) : int32OfBytes (int32Bytes n) = n := by
  have hlt : n.toUInt32.toNat < 256 ^ 4 := n.toUInt32.toNat_lt
  rw [int32OfBytes, int32Bytes, leValue_leBytes_of_lt hlt, UInt32.ofNat_toNat,
    Int32.toInt32_toUInt32]

theorem int64OfBytes_int64Bytes (n : Int64) : int64OfBytes (int64Bytes n) = n := by
  have hlt : n.toUInt64.toNat < 256 ^ 8 := n.toUInt64.toNat_lt
  rw [int64OfBytes, int64Bytes, leValue_leBytes_of_lt hlt, UInt64.ofNat_toNat,
    Int64.toInt64_toUInt64]

/-- The error is a checkpoint error. -/
def IsCheckpoint (e : FlumeError) : Prop := ∃ msg, e = .checkpoint msg

variable {k : Rdkafka}

/-- The partitions of a snapshot are added one after the other. -/
theorem reads_partitions (hk : k.Faithful) (topic : String) {data : List (Int32 × Int64)}
    (hnodup : (data.map Prod.fst).Nodup) (hnonneg : ∀ p ∈ data, 0 ≤ p.2)
    (tpl : k.TopicPartitionList)
    (hnew : ∀ p ∈ data, p.1 ∉ (k.elements tpl).map TopicPartitionListElem.partition) :
    ∃ tpl', k.elements tpl' = k.elements tpl ++ data.map (fun p => ⟨topic, p.1, .offset p.2⟩) ∧
      Reads IsCheckpoint (readPartitions k topic data.length tpl)
        (data.flatMap fun p => int32Bytes p.1 ++ int64Bytes p.2) tpl' := by
  induction data generalizing tpl with
  | nil => exact ⟨tpl, (List.append_nil _).symm, .pure tpl⟩
  | cons p data ih =>
    obtain ⟨hp, hnodup⟩ := List.nodup_cons.mp hnodup
    obtain ⟨tpl₁, hadd, helements⟩ := hk.accepts tpl topic p.1 p.2
      (hnonneg p List.mem_cons_self) (hnew p List.mem_cons_self)
    have hnew₁ : ∀ q ∈ data, q.1 ∉ (k.elements tpl₁).map TopicPartitionListElem.partition := by
      intro q hq hmem
      rw [helements, List.map_append, List.mem_append] at hmem
      rcases hmem with hmem | hmem
      · exact hnew q (List.mem_cons_of_mem p hq) hmem
      · obtain heq : q.1 = p.1 := List.mem_singleton.mp hmem
        exact hp (heq ▸ List.mem_map_of_mem hq)
    obtain ⟨tpl', helements', hreads⟩ :=
      ih hnodup (fun q hq => hnonneg q (List.mem_cons_of_mem p hq)) tpl₁ hnew₁
    refine ⟨tpl', ?_, ?_⟩
    · rw [helements', helements, List.append_assoc]
      rfl
    · have h4 : (int32Bytes p.1).length = 4 := length_leBytes _ _
      have h8 : (int64Bytes p.2).length = 8 := length_leBytes _ _
      rw [List.flatMap_cons, ← List.nil_append (List.flatMap _ data)]
      refine .bind (.takeFront ⟨_, rfl⟩ (by rw [List.length_append, h4, h8])) (.bind (.lift ?_) hreads)
      rw [← h4, List.take_left, List.drop_left, int32OfBytes_int32Bytes, int64OfBytes_int64Bytes,
        hadd]
      rfl

/-- **A snapshot is read back** as the list of its partitions. -/
theorem reads_state (hk : k.Faithful) (topic topic' : String) {data : List (Int32 × Int64)}
    (htopic : (Utf8.encode topic).length < 2 ^ 32) (hcount : data.length < 2 ^ 32)
    (hnodup : (data.map Prod.fst).Nodup) (hnonneg : ∀ p ∈ data, 0 ≤ p.2) :
    ∃ tpl, k.elements tpl = data.map (fun p => ⟨topic', p.1, .offset p.2⟩) ∧
      Reads IsCheckpoint (readState k topic') (snapshotBytes topic data) tpl := by
  have hnew : ∀ p ∈ data, p.1 ∉ (k.elements k.new).map TopicPartitionListElem.partition := by
    intro p _ hmem
    rw [hk.elements_new] at hmem
    cases hmem
  obtain ⟨tpl, helements, hreads⟩ := reads_partitions hk topic' hnodup hnonneg k.new hnew
  rw [hk.elements_new, List.nil_append] at helements
  refine ⟨tpl, helements, ?_⟩
  have hlen : leValue (leBytes 4 (Utf8.encode topic).length) = (Utf8.encode topic).length :=
    leValue_leBytes_of_lt htopic
  have hdata : leValue (leBytes 4 data.length) = data.length := leValue_leBytes_of_lt hcount
  unfold snapshotBytes
  rw [List.append_assoc, List.append_assoc, ← List.nil_append (leBytes 4 data.length ++ _)]
  refine .bind (.takeFront ⟨_, rfl⟩ (length_leBytes _ _)) (.bind (.takeFront ⟨_, rfl⟩ hlen.symm)
    (.bind (a := topic) (.lift ?_) (.bind (.takeFront ⟨_, rfl⟩ (length_leBytes _ _)) ?_)))
  · rw [Utf8.decode_encode]
  · rw [hdata]
    exact hreads

theorem snapshotBytes_ne_nil (topic : String) (data : List (Int32 × Int64)) :
    snapshotBytes topic data ≠ [] := by
  intro hnil
  have hlen := congrArg List.length hnil
  simp only [snapshotBytes, List.length_append, length_leBytes, List.length_nil] at hlen
  omega

/-- **Offsets survive snapshot and restore.** An assigned partition without a position gets offset
0; a snapshot that is cut off is rejected. -/
theorem kafkaOffsets_survive (hk : k.Faithful) (source : KafkaSource k)
    {positions assignment : k.TopicPartitionList}
    (hassignment : k.assignment source.consumer = .ok assignment)
    (hposition : k.position source.consumer = .ok positions)
    (htopic : (Utf8.encode source.topic).length < 2 ^ 32)
    (hpositionsOnce : ((k.elements positions).map TopicPartitionListElem.partition).Nodup)
    (hassignmentOnce : ((k.elements assignment).map TopicPartitionListElem.partition).Nodup)
    (hcount : (positioned (k.elements positions) ++
      unpositioned (k.elements positions) (k.elements assignment)).length < 2 ^ 32) :
    ∃ state data, source.snapshot = .ok state ∧
      data = positioned (k.elements positions) ++
        unpositioned (k.elements positions) (k.elements assignment) ∧
      (data.map Prod.fst).Nodup ∧
      ∀ source' : KafkaSource k,
        (∃ tpl, k.elements tpl = data.map (fun p => ⟨source'.topic, p.1, .offset p.2⟩) ∧
          source'.restore state = ((k.assign source'.consumer tpl).1.mapError .source,
            { source' with consumer := (k.assign source'.consumer tpl).2 })) ∧
        ∀ part, part <+: state → part ≠ state → part ≠ [] →
          ∃ msg, source'.restore part = (.error (.checkpoint msg), source') := by
  have hdata : partitionData (k.elements positions) (k.elements assignment) = _ :=
    partitionData_eq hassignmentOnce
  have hnodup := nodup_partitionData hpositionsOnce hassignmentOnce
  have hnonneg := offset_nonneg (hk.reports _ _ hposition) hassignmentOnce
  rw [← hdata] at hcount
  refine ⟨snapshotBytes source.topic (partitionData (k.elements positions) (k.elements assignment)),
    _, ?_, hdata, hnodup, fun source' => ?_⟩
  · unfold KafkaSource.snapshot
    rw [hassignment, hposition]
    rfl
  obtain ⟨tpl, helements, hreads⟩ :=
    reads_state hk source.topic source'.topic htopic hcount hnodup hnonneg
  refine ⟨⟨tpl, helements, ?_⟩, fun part hpart hcut hne => ?_⟩
  · have hwhole := hreads.whole []
    rw [List.append_nil] at hwhole
    unfold KafkaSource.restore
    rw [if_neg (snapshotBytes_ne_nil _ _), hwhole]
  · obtain ⟨e, he, msg, rfl⟩ := hreads.cut part hpart hcut
    refine ⟨msg, ?_⟩
    unfold KafkaSource.restore
    rw [if_neg hne, he]

/-! ## A client library -/

/-- Adds a partition at the end of a list, unless the offset is negative. -/
def addToList (tpl : List TopicPartitionListElem) (topic : String) (partition : Int32) :
    Offset → Except String (List TopicPartitionListElem)
  | .offset off =>
    if off < 0 then .error "Set partition offset error: InvalidArgument"
    else .ok (tpl ++ [⟨topic, partition, .offset off⟩])
  | offset => .ok (tpl ++ [⟨topic, partition, offset⟩])

theorem addToList_of_nonneg (tpl : List TopicPartitionListElem) (topic : String)
    (partition : Int32) {off : Int64} (h : 0 ≤ off) :
    addToList tpl topic partition (.offset off) = .ok (tpl ++ [⟨topic, partition, .offset off⟩]) :=
  if_neg (Int64.not_lt.mpr h)

/-- A client whose lists of partitions are lists, and whose consumer keeps the last one. -/
def listClient : Rdkafka where
  TopicPartitionList := List TopicPartitionListElem
  new := []
  elements := id
  addPartitionOffset := addToList
  StreamConsumer := List TopicPartitionListElem
  assignment := .ok
  position consumer := .ok (consumer.filter fun elem => match elem.offset with
    | .offset off => 0 ≤ off
    | _ => true)
  assign _ tpl := (.ok (), tpl)

theorem listClient_faithful : listClient.Faithful where
  elements_new := rfl
  accepts tpl topic partition _ hoff _ :=
    ⟨_, addToList_of_nonneg tpl topic partition hoff, rfl⟩
  reports := by
    rintro consumer tpl htpl elem helem off hoff
    obtain rfl := Except.ok.inj htpl
    have hkept := (List.mem_filter.mp helem).2
    rw [hoff] at hkept
    exact of_decide_eq_true hkept

/-- Two partitions, one of which has no position. -/
def twoPartitions : KafkaSource listClient :=
  ⟨[⟨"events", 0, .offset 42⟩, ⟨"events", 1, .invalid⟩], "events"⟩

theorem twoPartitions_restored : ∃ state, twoPartitions.snapshot = .ok state ∧
    (twoPartitions.restore state).2.consumer =
      [⟨"events", 0, .offset 42⟩, ⟨"events", 1, .offset 0⟩] := by
  obtain ⟨state, data, hsnapshot, rfl, -, hrestore⟩ :=
    kafkaOffsets_survive listClient_faithful twoPartitions rfl rfl (by decide) (by decide) (by decide)
      (by decide)
  obtain ⟨⟨tpl, helements, hassigned⟩, -⟩ := hrestore twoPartitions
  refine ⟨state, hsnapshot, ?_⟩
  rw [hassigned]
  exact helements

end Flume
