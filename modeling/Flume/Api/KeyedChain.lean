import Flume.Api.KeyBy
import Flume.Api.Pipeline

/-!
# Stateless operators after `key_by`

A chain of `map`, `filter` and `flat_map` turns records into records. To tell which record of the
input an output was derived from, the chain is run on values that carry their record with them.

* `StatelessOp`, `StatelessChain`: the operators and the chains, as operators of a `DataStream`;
* `StatelessOp.expand`: what an operator makes of one value; `feed_operator`: of a stream;
* `StatelessChain.traced`, **`map_untag_output`**: the chain on values with their origins;
* `StatelessChain.values`: what the closures of a chain make of the values;
* **`keyed_iff`**: when every output has the timestamp and the key of its origin.
-/

namespace Flume

open Emitters

/-- A stateless operator and its closure, which may have a state of its own. -/
inductive StatelessOp : Type → Type → Type 1
  | map {σ In Out : Type} (initial : σ) (f : σ → In → Out × σ) : StatelessOp In Out
  | filter {σ T : Type} (initial : σ) (predicate : σ → T → Bool × σ) : StatelessOp T T
  | flatMap {σ In Out : Type} (initial : σ) (f : σ → In → List Out × σ) : StatelessOp In Out

namespace StatelessOp

variable {In Out O : Type}

/-- The name of the operator's task. -/
def name {In Out : Type} : StatelessOp In Out → String
  | map _ _ => "map"
  | filter _ _ => "filter"
  | flatMap _ _ => "flat_map"

/-- The operator that the method of `DataStream` applies. -/
def operator {In Out : Type} : StatelessOp In Out → Operator In Out
  | map initial f => MapOperator initial f
  | filter initial predicate => FilterOperator initial predicate
  | flatMap initial f => FlatMapOperator initial f

/-- Whether it is a `flat_map`. -/
def isFlatMap {In Out : Type} : StatelessOp In Out → Bool
  | flatMap _ _ => true
  | _ => false

/-- The same closure on values that carry something with them. -/
def traced (O : Type) {In Out : Type} : StatelessOp In Out → StatelessOp (In × O) (Out × O)
  | map initial f => map initial fun s v => (((f s v.1).1, v.2), (f s v.1).2)
  | filter initial predicate => filter initial fun s v => predicate s v.1
  | flatMap initial f => flatMap initial fun s v => ((f s v.1).1.map fun u => (u, v.2), (f s v.1).2)

/-- What the closure makes of one value. -/
def expand {In Out : Type} :
    (op : StatelessOp In Out) → op.operator.State → In → List Out × op.operator.State
  | map _ f, s, v => ([(f s v).1], (f s v).2)
  | filter _ predicate, s, v => (if (predicate s v).1 then [v] else [], (predicate s v).2)
  | flatMap _ f, s, v => f s v

end StatelessOp

section Expand

variable {In Out σ : Type} (expand : σ → In → List Out × σ)

/-- What a closure makes of some values, one after the other. -/
def expandAll : σ → List In → List Out
  | _, [] => []
  | s, v :: vs => (expand s v).1 ++ expandAll (expand s v).2 vs

/-- The record for a value that a closure has made of another; `flat_map` leaves out the key. -/
def deriveRecord (flat : Bool) (r : Record In) (v : Out) : Record Out :=
  ⟨v, r.timestamp, if flat then none else r.key⟩

/-- The elements that an operator with this closure emits for a stream. -/
def expandElements (flat : Bool) : σ → List (StreamElement In) → List (StreamElement Out)
  | _, [] => []
  | s, .record r :: es =>
    (expand s r.value).1.map (fun v => .record (deriveRecord flat r v)) ++
      expandElements flat (expand s r.value).2 es
  | s, .watermark w :: es => .watermark w :: expandElements flat s es
  | s, .checkpointBarrier b :: es => .checkpointBarrier b :: expandElements flat s es

end Expand

section Expand

variable {In Out O σ : Type} {expand : σ → In → List Out × σ}

/-- **Where an emitted record comes from.** -/
theorem mem_expandElements {flat : Bool} {s : σ} {es : List (StreamElement In)} {r' : Record Out}
    (h : .record r' ∈ expandElements expand flat s es) :
    ∃ r t, .record r ∈ es ∧ r'.value ∈ (expand t r.value).1 ∧
      r'.timestamp = r.timestamp ∧ r'.key = if flat then none else r.key := by
  induction es generalizing s with
  | nil => cases h
  | cons e es ih =>
    have hlater : ∀ {t : σ}, .record r' ∈ expandElements expand flat t es →
        ∃ r t, .record r ∈ e :: es ∧ r'.value ∈ (expand t r.value).1 ∧
          r'.timestamp = r.timestamp ∧ r'.key = if flat then none else r.key := by
      intro t hmem
      obtain ⟨r, t', hr, hderived⟩ := ih hmem
      exact ⟨r, t', List.mem_cons_of_mem _ hr, hderived⟩
    cases e with
    | record r =>
      rw [expandElements, List.mem_append] at h
      rcases h with h | h
      · obtain ⟨v, hv, heq⟩ := List.mem_map.mp h
        obtain rfl := StreamElement.record.inj heq
        exact ⟨r, s, List.mem_cons_self, hv, rfl, rfl⟩
      · exact hlater h
    | watermark w => exact hlater ((List.mem_cons.mp h).resolve_left fun heq => by cases heq)
    | checkpointBarrier b =>
      exact hlater ((List.mem_cons.mp h).resolve_left fun heq => by cases heq)

theorem values_expandElements (flat : Bool) (s : σ) (es : List (StreamElement In)) :
    (expandElements expand flat s es).filterMap StreamElement.value? =
      expandAll expand s (es.filterMap StreamElement.value?) := by
  induction es generalizing s with
  | nil => rfl
  | cons e es ih =>
    cases e with
    | record r =>
      have hvalues : ∀ vs : List Out, (vs.map fun v =>
          StreamElement.record (deriveRecord flat r v)).filterMap StreamElement.value? = vs := by
        intro vs
        rw [List.filterMap_map]
        exact List.filterMap_some
      rw [expandElements, List.filterMap_append, hvalues, ih]
      rfl
    | watermark w => exact ih s
    | checkpointBarrier b => exact ih s

theorem map_expandElements {expand' : σ → In × O → List (Out × O) × σ}
    (h : ∀ s v o, expand' s (v, o) = ((expand s v).1.map fun u => (u, o), (expand s v).2))
    (flat : Bool) (s : σ) (es : List (StreamElement (In × O))) :
    (expandElements expand' flat s es).map (StreamElement.map Prod.fst) =
      expandElements expand flat s (es.map (StreamElement.map Prod.fst)) := by
  induction es generalizing s with
  | nil => rfl
  | cons e es ih =>
    cases e with
    | record r =>
      obtain ⟨⟨v, o⟩, timestamp, key⟩ := r
      rw [expandElements, h, List.map_append, ih, List.map_map, List.map_map]
      rfl
    | watermark w => exact congrArg (_ :: ·) (ih s)
    | checkpointBarrier b => exact congrArg (_ :: ·) (ih s)

end Expand

namespace StatelessOp

variable {In Out O : Type}

theorem emissions_forM_send {A B S : Type} (g : B → A) (bs : List B) (s : S) :
    (do bs.forM fun b => Emitter.send (g b); return s : Emitter A TaskFailure S).emissions =
        bs.map g ∧
      (do bs.forM fun b => Emitter.send (g b); return s : Emitter A TaskFailure S).result =
        .ok s := by
  induction bs with
  | nil => exact ⟨rfl, rfl⟩
  | cons b bs ih => exact ⟨congrArg (g b :: ·) ih.1, ih.2⟩

theorem process_filter {T σ : Type} (initial : σ) (predicate : σ → T → Bool × σ) (s : σ)
    (r : Record T) :
    ((FilterOperator initial predicate).process s (.record r)).emissions =
        (if (predicate s r.value).1 then [.record r] else []) ∧
      ((FilterOperator initial predicate).process s (.record r)).result =
        .ok (predicate s r.value).2 := by
  unfold Operator.process FilterOperator
  dsimp only
  split_ifs <;> exact ⟨rfl, rfl⟩

/-- **What a call emits**: a record for each value that the closure has made. -/
theorem process_record (op : StatelessOp In Out) (s : op.operator.State) (r : Record In) :
    (op.operator.process s (.record r)).emissions =
        (op.expand s r.value).1.map (fun v => .record (deriveRecord op.isFlatMap r v)) ∧
      (op.operator.process s (.record r)).result = .ok (op.expand s r.value).2 := by
  cases op with
  | map initial f => exact ⟨rfl, rfl⟩
  | filter initial predicate =>
    obtain ⟨hemissions, hresult⟩ := process_filter initial predicate s r
    refine ⟨hemissions.trans ?_, hresult⟩
    change _ = List.map _ (if (predicate s r.value).1 then [r.value] else [])
    split_ifs <;> rfl
  | flatMap initial f => exact emissions_forM_send _ (f s r.value).1 (f s r.value).2

/-- **What the operator emits for a stream.** -/
theorem feed_operator (op : StatelessOp In Out) (es : List (StreamElement In)) :
    (op.operator.feed es).1 =
      expandElements op.expand op.isFlatMap op.operator.initial es := by
  have hfeed : ∀ s, (Emitter.feed op.operator.process s es).1 =
      expandElements op.expand op.isFlatMap s es := by
    induction es with
    | nil => exact fun s => rfl
    | cons e es ih =>
      intro s
      rw [Emitter.feed]
      cases e with
      | record r =>
        obtain ⟨hemissions, hresult⟩ := op.process_record s r
        rw [hresult, hemissions]
        exact congrArg _ (ih _)
      | watermark w =>
        have hprocess : op.operator.process s (.watermark w) =
            (do Emitter.send (.watermark w); return s) := by
          cases op <;> rfl
        rw [hprocess]
        exact congrArg _ (ih _)
      | checkpointBarrier b =>
        have hprocess : op.operator.process s (.checkpointBarrier b) =
            (do Emitter.send (.checkpointBarrier b); return s) := by
          cases op <;> rfl
        rw [hprocess]
        exact congrArg _ (ih _)
  exact hfeed op.operator.initial

theorem isFlatMap_traced (op : StatelessOp In Out) : (op.traced O).isFlatMap = op.isFlatMap := by
  cases op <;> rfl

theorem expand_traced (op : StatelessOp In Out) {s : (op.traced O).operator.State} {v : In × O}
    {u : Out × O} (h : u ∈ ((op.traced O).expand s v).1) : u.2 = v.2 := by
  cases op with
  | map initial f =>
    obtain rfl := List.mem_singleton.mp h
    rfl
  | filter initial predicate =>
    change u ∈ (if (predicate s v.1).1 then [v] else []) at h
    split_ifs at h
    · obtain rfl := List.mem_singleton.mp h
      rfl
    · cases h
  | flatMap initial f =>
    obtain ⟨w, -, rfl⟩ := List.mem_map.mp h
    rfl

/-- **The operator on values that carry something with them** emits the same records. -/
theorem map_feed_traced (op : StatelessOp In Out) (es : List (StreamElement (In × O))) :
    ((op.traced O).operator.feed es).1.map (StreamElement.map Prod.fst) =
      (op.operator.feed (es.map (StreamElement.map Prod.fst))).1 := by
  rw [feed_operator, feed_operator]
  cases op with
  | map initial f => exact map_expandElements (fun _ _ _ => rfl) _ _ es
  | filter initial predicate =>
    have hexpand : ∀ s v (o : O), ((filter initial predicate).traced O).expand s (v, o) =
        (((filter initial predicate).expand s v).1.map fun u => (u, o),
          ((filter initial predicate).expand s v).2) := by
      intro s v o
      change (if (predicate s v).1 then [(v, o)] else [], _) =
        ((if (predicate s v).1 then [v] else []).map _, _)
      split_ifs <;> rfl
    exact map_expandElements hexpand _ _ es
  | flatMap initial f => exact map_expandElements (fun _ _ _ => rfl) _ _ es

end StatelessOp

/-! ## Chains -/

/-- A chain of stateless operators. -/
inductive StatelessChain : Type → Type → Type 1
  | nil {T : Type} : StatelessChain T T
  | snoc {A B C : Type} (chain : StatelessChain A B) (op : StatelessOp B C) : StatelessChain A C

namespace StatelessChain

variable {A B O : Type}

/-- The chain applied to a stream. -/
def applyTo {A B : Type} : StatelessChain A B → DataStream A → DataStream B
  | nil, stream => stream
  | snoc chain op, stream => .apply op.name (chain.applyTo stream) op.operator

/-- What the chain makes of the elements of a stream. -/
def output {A B : Type} : StatelessChain A B → List (StreamElement A) → List (StreamElement B)
  | nil, es => es
  | snoc chain op, es => (op.operator.feed (chain.output es)).1

/-- The chain on values that carry something with them. -/
def traced (O : Type) {A B : Type} : StatelessChain A B → StatelessChain (A × O) (B × O)
  | nil => nil
  | snoc chain op => snoc (chain.traced O) (op.traced O)

/-- Whether a `flat_map` is in the chain. -/
def hasFlatMap {A B : Type} : StatelessChain A B → Bool
  | nil => false
  | snoc chain op => chain.hasFlatMap || op.isFlatMap

/-- What the closures of the chain make of the values. -/
def values {A B : Type} : StatelessChain A B → List A → List B
  | nil, vs => vs
  | snoc chain op, vs => expandAll op.expand op.operator.initial (chain.values vs)

theorem output_applyTo (chain : StatelessChain A B) (stream : DataStream A) :
    (chain.applyTo stream).output = chain.output stream.output := by
  induction chain with
  | nil => rfl
  | snoc chain op ih => exact congrArg (fun es => (op.operator.feed es).1) ih

/-- **The chain on values that carry something with them** makes the same records. -/
theorem map_output_traced (chain : StatelessChain A B) (es : List (StreamElement (A × O))) :
    ((chain.traced O).output es).map (StreamElement.map Prod.fst) =
      chain.output (es.map (StreamElement.map Prod.fst)) := by
  induction chain with
  | nil => rfl
  | snoc chain op ih =>
    change ((op.traced O).operator.feed _).1.map _ = (op.operator.feed _).1
    rw [op.map_feed_traced, ih]

theorem values_output (chain : StatelessChain A B) (es : List (StreamElement A)) :
    (chain.output es).filterMap StreamElement.value? =
      chain.values (es.filterMap StreamElement.value?) := by
  induction chain with
  | nil => rfl
  | snoc chain op ih =>
    change (op.operator.feed _).1.filterMap _ = expandAll _ _ _
    rw [op.feed_operator, values_expandElements, ih]

/-- **Where an output comes from**: it carries the timestamp of its origin, and the key of its
origin unless a `flat_map` has left it out. -/
theorem mem_output_traced (chain : StatelessChain A B) {es : List (StreamElement (A × O))}
    {r' : Record (B × O)} (h : .record r' ∈ (chain.traced O).output es) :
    ∃ r, .record r ∈ es ∧ r'.value.2 = r.value.2 ∧ r'.timestamp = r.timestamp ∧
      r'.key = if chain.hasFlatMap then none else r.key := by
  induction chain with
  | nil => exact ⟨r', h, rfl, rfl, rfl⟩
  | snoc chain op ih =>
    change .record r' ∈ ((op.traced O).operator.feed ((chain.traced O).output es)).1 at h
    rw [StatelessOp.feed_operator] at h
    obtain ⟨r₁, t, hr₁, hvalue, htime₁, hkey₁⟩ := mem_expandElements h
    obtain ⟨r, hr, horigin, htime, hkey⟩ := ih hr₁
    refine ⟨r, hr, (op.expand_traced hvalue).trans horigin, htime₁.trans htime, ?_⟩
    rw [hkey₁, op.isFlatMap_traced, hkey, hasFlatMap]
    cases op.isFlatMap <;> cases chain.hasFlatMap <;> rfl

end StatelessChain

/-! ## After `key_by` -/

/-- `key_by` on a stream. -/
def DataStream.keyBy {K T σ : Type} (stream : DataStream T) (hasher : Hasher) (write : K → Bytes)
    (initial : σ) (keyExtractor : σ → T → K × σ) : DataStream T :=
  .apply "key_by" stream (KeyByOperator hasher write initial keyExtractor)

/-- An element whose record carries itself as its origin. -/
def StreamElement.withOrigin {T : Type} : StreamElement T → StreamElement (T × Record T)
  | record r => record (r.map fun v => (v, r))
  | watermark w => watermark w
  | checkpointBarrier b => checkpointBarrier b

/-- Every record has the timestamp and the key of its origin. -/
def KeepsOrigin {A B : Type} (es : List (StreamElement (B × Record A))) : Prop :=
  ∀ r, .record r ∈ es → r.timestamp = r.value.2.timestamp ∧ r.key = r.value.2.key

section Keyed

variable {A B K σ : Type}

theorem map_withOrigin (es : List (StreamElement A)) :
    (es.map StreamElement.withOrigin).map (StreamElement.map Prod.fst) = es := by
  rw [List.map_map]
  conv_rhs => rw [← List.map_id es]
  refine List.map_congr_left fun e _ => ?_
  cases e <;> rfl

theorem mem_withOrigin {es : List (StreamElement A)} {r : Record (A × Record A)}
    (h : .record r ∈ es.map StreamElement.withOrigin) :
    .record r.value.2 ∈ es ∧ r.timestamp = r.value.2.timestamp ∧ r.key = r.value.2.key := by
  obtain ⟨e, he, heq⟩ := List.mem_map.mp h
  cases e with
  | record r₀ =>
    obtain rfl := StreamElement.record.inj heq
    exact ⟨he, rfl, rfl⟩
  | watermark w => cases heq
  | checkpointBarrier b => cases heq

theorem key_keyBy {stream : DataStream A} {hasher : Hasher} {write : K → Bytes} {initial : σ}
    {f : σ → A → K × σ} {r : Record A}
    (h : .record r ∈ (stream.keyBy hasher write initial f).output) :
    ∃ k, r.key = some (hashKey hasher write k) := by
  obtain ⟨s, e, -, hmem⟩ := Emitter.mem_feed h
  rw [(process_keyBy initial f s e).1, List.mem_singleton] at hmem
  cases e with
  | record r₀ =>
    obtain rfl := StreamElement.record.inj hmem
    exact ⟨_, rfl⟩
  | watermark w => cases hmem
  | checkpointBarrier b => cases hmem

/-- What `key_by` makes of a stream, each record with itself as its origin. -/
def keyedOrigins (stream : DataStream A) (hasher : Hasher) (write : K → Bytes) (initial : σ)
    (keyExtractor : σ → A → K × σ) : List (StreamElement (A × Record A)) :=
  (stream.keyBy hasher write initial keyExtractor).output.map StreamElement.withOrigin

theorem keepsOrigin_of_not_hasFlatMap {chain : StatelessChain A B} {es : List (StreamElement A)}
    (h : chain.hasFlatMap = false) :
    KeepsOrigin ((chain.traced (Record A)).output (es.map StreamElement.withOrigin)) := by
  intro r' hr'
  obtain ⟨r, hr, horigin, htime, hkey⟩ := chain.mem_output_traced hr'
  obtain ⟨-, htime₀, hkey₀⟩ := mem_withOrigin hr
  rw [h] at hkey
  rw [horigin]
  exact ⟨htime.trans htime₀, hkey.trans hkey₀⟩

theorem values_traced (chain : StatelessChain A B) (es : List (StreamElement A)) :
    ((chain.traced (Record A)).output (es.map StreamElement.withOrigin)).filterMap
        (fun e => (e.map Prod.fst).value?) =
      chain.values (es.filterMap StreamElement.value?) := by
  rw [← chain.values_output, ← map_withOrigin es, ← chain.map_output_traced, List.filterMap_map,
    map_withOrigin]
  rfl

theorem values_eq_nil_of_keepsOrigin {chain : StatelessChain A B} {stream : DataStream A}
    {hasher : Hasher} {write : K → Bytes} {initial : σ} {f : σ → A → K × σ}
    (hflat : chain.hasFlatMap = true)
    (h : KeepsOrigin ((chain.traced (Record A)).output
      (keyedOrigins stream hasher write initial f))) :
    chain.values ((stream.keyBy hasher write initial f).output.filterMap
      StreamElement.value?) = [] := by
  rw [← values_traced, List.filterMap_eq_nil_iff]
  intro e he
  cases e with
  | record r' =>
    obtain ⟨r, hr, horigin, -, hkey⟩ := chain.mem_output_traced he
    obtain ⟨k, hk⟩ := key_keyBy (mem_withOrigin hr).1
    have hkept := (h r' he).2
    rw [hkey, if_pos hflat, horigin, hk] at hkept
    cases hkept
  | watermark w => rfl
  | checkpointBarrier b => rfl

/-- **When stateless operators keep records keyed:** a chain after `key_by` without a `flat_map`, or
one whose closures leave nothing of the values. -/
theorem keyed_iff (stream : DataStream A) (hasher : Hasher) (write : K → Bytes) (initial : σ)
    (f : σ → A → K × σ) (chain : StatelessChain A B) :
    ((chain.traced (Record A)).output (keyedOrigins stream hasher write initial f)).map
        (StreamElement.map Prod.fst) =
      (chain.applyTo (stream.keyBy hasher write initial f)).output ∧
    (KeepsOrigin ((chain.traced (Record A)).output
        (keyedOrigins stream hasher write initial f)) ↔
      chain.hasFlatMap = false ∨
        chain.values ((stream.keyBy hasher write initial f).output.filterMap
          StreamElement.value?) = []) := by
  have herased := chain.map_output_traced (O := Record A)
    (keyedOrigins stream hasher write initial f)
  rw [keyedOrigins, map_withOrigin] at herased
  refine ⟨herased.trans (chain.output_applyTo _).symm, ?_, ?_⟩
  · intro h
    rcases Bool.eq_false_or_eq_true chain.hasFlatMap with hflat | hflat
    · exact .inr (values_eq_nil_of_keepsOrigin hflat h)
    · exact .inl hflat
  · rintro (hflat | hnil)
    · exact keepsOrigin_of_not_hasFlatMap hflat
    · -- nothing comes out
      intro r' hr'
      rw [← values_traced, List.filterMap_eq_nil_iff] at hnil
      cases hnil _ hr'

/-- A `flat_map` that keeps every value. -/
def flatMapChain : StatelessChain String String := .snoc .nil (.flatMap () fun s v => ([v], s))

/-- A stream of one record. -/
def oneRecord : DataStream String := .source ⟨[.record ⟨"a", 7, none⟩], .ok ()⟩

/-- Behind `key_by` and `flat_map` the record has no key, its origin has one. -/
theorem flatMapChain_losesKey :
    (flatMapChain.applyTo (oneRecord.keyBy defaultHasher writeStr () fun s v => (v, s))).output =
      [.record ⟨"a", 7, none⟩] ∧
    ¬KeepsOrigin ((flatMapChain.traced (Record String)).output
      (keyedOrigins oneRecord defaultHasher writeStr () fun s v => (v, s))) := by
  refine ⟨rfl, fun hkeeps => ?_⟩
  have hvalues := values_eq_nil_of_keepsOrigin (by rfl) hkeeps
  exact absurd hvalues (List.cons_ne_nil "a" [])

end Keyed
end Flume
