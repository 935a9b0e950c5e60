import PacedLoad.Operation.Json
import PacedLoad.Proofs.Json.Record
import PacedLoad.Proofs.Json.Value

/-!
# Operations and results as text

The text that is written for an operation or a result is read as the same one.  So is every
other spelling of it: with the members of its objects in any order, with unknown members, and
without those that have their defaults.
-/

namespace PacedLoad

open Json

namespace Instant

def document (t : Instant) : Document := .int t.nanos

theorem decode_document (t : Instant) (room : Nat) : decode room t.document.tree = some t := by
  rw [decode, document, natural_document 64 t.nanos_lt rfl le_rfl]
  exact dif_pos t.nanos_lt

theorem nullable_document (t : Option Instant) (room : Nat) :
    Json.nullable decode room (t.elim .null document).tree = some t := by
  cases t with
  | none => rfl
  | some t => exact congrArg (Option.map some) (decode_document t room)

end Instant

namespace Span

theorem seconds_lt (d : Span) : d.seconds < 18446744073709551616 := by
  have bound := d.nanos_lt
  rw [seconds, show nanosPerSecond = 1000000000 from rfl]
  omega

theorem subsecNanos_lt (d : Span) : d.subsecNanos < nanosPerSecond :=
  Nat.mod_lt _ (by decide)

theorem nanos_eq (d : Span) : d.seconds * nanosPerSecond + d.subsecNanos = d.nanos :=
  Nat.div_add_mod' _ _

def members (d : Span) : List (String × Document) :=
  [("secs", .int d.seconds), ("nanos", .int d.subsecNanos)]

def ofRecord? (r : Record) : Option Span :=
  if r.fields.any fun f => !fieldNames.contains f.1 then none
  else do
    let secs ← r.required "secs" (Decode.natural 64)
    let nanos ← r.required "nanos" (Decode.natural 32)
    Span.ofNanos? (secs * nanosPerSecond + nanos)

theorem decode_eq_ofRecord : decode = Decoder.ofRecord fieldNames ofRecord? := rfl

/-- A span is read from its two members in either order. -/
theorem decode_members {d : Span} {parts : List (String × Document)} (perm : parts.Perm d.members)
    (room : Nat) : decode (room + 1) (Document.object parts).tree = some d := by
  have keys := perm.map Prod.fst
  have once : Once fieldNames parts := once_of_perm keys (by decide)
  have declared : (fieldsOf parts).any (fun f => !fieldNames.contains f.1) = false := by
    rw [List.any_eq_false]
    intro f inside
    obtain ⟨m, member, rfl⟩ := List.mem_map.mp inside
    have known : m.1 ∈ fieldNames := keys.mem_iff.mp (List.mem_map_of_mem member)
    simpa using known
  have secs := required_of_mem once (by decide) (perm.mem_iff.mpr List.mem_cons_self)
    (natural_document 64 d.seconds_lt rfl le_rfl room)
  have nanos := required_of_mem once (by decide)
    (perm.mem_iff.mpr (List.mem_cons_of_mem _ List.mem_cons_self))
    (natural_document 32 (d.subsecNanos_lt.trans (by decide)) rfl (by decide) room)
  -- Unfolded binds would have the kernel count up to the bound on the nanoseconds.
  rw [decode_eq_ofRecord, ofRecord_once _ once, ofRecord?, declared, if_neg Bool.false_ne_true,
    secs, Option.bind_eq_bind, Option.bind_some, nanos, Option.bind_some, nanos_eq]
  exact dif_pos d.nanos_lt

end Span

namespace Operation

def ofRecord? (r : Record) : Option Operation := do
  return {
    id := ← r.required "id" (Decode.natural 64)
    kind := ← r.required "kind" Decode.string
    scheduledStart := ← r.required "scheduled_start" Instant.decode
    dependencyTime := ← r.withDefault "dependency_time" none (Json.nullable Instant.decode)
    params := ← r.withDefault "params" .null Decode.value }

theorem decode_eq_ofRecord : decode = Decoder.ofRecord fieldNames ofRecord? := rfl

theorem ofRecord?_local : Local fieldNames ofRecord? := by
  intro named room fields fields' same
  simp only [ofRecord?, Record.required, Record.withDefault, Record.find?,
    same "id" (by decide), same "kind" (by decide), same "scheduled_start" (by decide),
    same "dependency_time" (by decide), same "params" (by decide)]

/-- The members of an operation's object, in any order and with any others under unknown names.
A dependency or parameters that are not there may be left out; `room` is how deep the parameters
may nest. -/
structure Spelled (room : Nat) (op : Operation) (members : List (String × Document)) : Prop where
  once : Once fieldNames members
  id : ("id", .int op.id) ∈ members
  kind : ("kind", .string op.kind) ∈ members
  scheduledStart : ("scheduled_start", op.scheduledStart.document) ∈ members
  dependencyTime : ("dependency_time", op.dependencyTime.elim .null Instant.document) ∈ members ∨
    op.dependencyTime = none ∧ ∀ m ∈ members, m.1 ≠ "dependency_time"
  params : (∃ d, op.params.Spelled room d ∧ ("params", d) ∈ members) ∨
    op.params = .null ∧ ∀ m ∈ members, m.1 ≠ "params"

/-- Every spelling of an operation is read as the operation. -/
theorem Spelled.decode {room : Nat} {op : Operation} {members : List (String × Document)}
    (spelled : op.Spelled room members) (fits : op.id < 18446744073709551616) :
    Operation.decode (room + 1) (Document.object members).tree = some op := by
  have once := spelled.once
  have id := required_of_mem once (by decide) spelled.id (natural_document 64 fits rfl le_rfl room)
  have kind := required_of_mem once (by decide) spelled.kind (string_document op.kind room)
  have start := required_of_mem once (by decide) spelled.scheduledStart
    (Instant.decode_document op.scheduledStart room)
  have dependency : Record.withDefault ⟨true, room, fieldsOf members⟩ "dependency_time" none
      (Json.nullable Instant.decode) = some op.dependencyTime := by
    rcases spelled.dependencyTime with given | ⟨none, absent⟩
    · exact withDefault_of_mem none once (by decide) given (Instant.nullable_document _ room)
    · rw [none]
      exact withDefault_of_absent _ _ room absent
  have params : Record.withDefault ⟨true, room, fieldsOf members⟩ "params" .null Decode.value =
      some op.params := by
    rcases spelled.params with ⟨d, stands, given⟩ | ⟨null, absent⟩
    · exact withDefault_of_mem .null once (by decide) given stands.value?
    · rw [null]
      exact withDefault_of_absent _ _ room absent
  rw [decode_eq_ofRecord, ofRecord_once _ once, ofRecord?, id, kind, start, dependency, params]
  rfl

def defaultNames : List String := ["dependency_time", "params"]

theorem requires {name : String} (declared : name ∈ fieldNames) (needed : name ∉ defaultNames) :
    Requires Operation.decode name := by
  rw [decode_eq_ofRecord]
  refine requires_of fun room fields absent => ?_
  simp only [fieldNames, List.mem_cons, List.not_mem_nil, or_false] at declared
  rcases declared with rfl | rfl | rfl | rfl | rfl
  case inr.inr.inr.inl => exact absurd (by decide) needed
  case inr.inr.inr.inr => exact absurd (by decide) needed
  all_goals simp [ofRecord?, Record.required, Record.find?, absent]

theorem defaultsTo_dependencyTime : DefaultsTo Operation.decode "dependency_time" .null := by
  rw [decode_eq_ofRecord]
  refine defaultsTo_of fun room fields absent => ?_
  simp [ofRecord?, Record.required, Record.withDefault, Record.find?, absent, List.lookup_cons,
    Json.nullable]

theorem defaultsTo_params : DefaultsTo Operation.decode "params" .null := by
  rw [decode_eq_ofRecord]
  refine defaultsTo_of fun room fields absent => ?_
  simp [ofRecord?, Record.required, Record.withDefault, Record.find?, absent, List.lookup_cons,
    Decode.value, Tree.value?]

/-- An operation as the program holds it: the id fits 64 bits, and the parameters hold no double
and have the members of their objects in order. -/
structure WellFormed (op : Operation) : Prop where
  id_lt : op.id < 18446744073709551616
  exact : op.params.Exact
  ordered : op.params.Ordered

def members (op : Operation) (params : Document) : List (String × Document) :=
  [("id", .int op.id), ("kind", .string op.kind), ("scheduled_start", op.scheduledStart.document),
    ("dependency_time", op.dependencyTime.elim .null Instant.document), ("params", params)]

/-- The written text is a spelling. -/
theorem WellFormed.spelled {op : Operation} (wellFormed : op.WellFormed) {room : Nat}
    (fits : op.params.depth ≤ room) :
    ∃ members, op.Spelled room members ∧ (Document.object members).text = op.toJson.compact := by
  obtain ⟨params, text, -⟩ := wellFormed.exact.document
  have stands : op.params.Spelled room params :=
    ⟨op.params, wellFormed.exact, fits, wellFormed.ordered.sorted, text⟩
  refine ⟨op.members params, ?_, ?_⟩
  · exact {
      once := once_of_perm (.refl _) (by decide)
      id := by simp [members]
      kind := by simp [members]
      scheduledStart := by simp [members]
      dependencyTime := .inl (by simp [members])
      params := .inl ⟨params, stands, by simp [members]⟩ }
  · have dependency : (op.dependencyTime.elim .null Instant.document : Document).text =
        (Value.ofOption Instant.toJson op.dependencyTime).compact := by
      cases op.dependencyTime <;> rfl
    rw [Document.object_text, toJson, Value.compact, Value.compactMembers_eq]
    simp only [members, List.map_cons, List.map_nil, Document.memberText, dependency, text]
    rfl

theorem Spelled.ofText? {op : Operation} {members : List (String × Document)}
    (spelled : op.Spelled (maxDepth - 1) members) (fits : op.id < 18446744073709551616) :
    Decoder.ofText? Operation.decode (Document.object members).text = some op := by
  rw [ofText?_document]
  exact spelled.decode fits

/-- What is written for an operation is read as the operation. -/
theorem WellFormed.ofText? {op : Operation} (wellFormed : op.WellFormed)
    (fits : op.toJson.depth ≤ maxDepth) :
    Decoder.ofText? Operation.decode op.toJson.compact = some op := by
  have params := Value.depth_le_of_mem (m := ("params", op.params)) fits (by simp)
  obtain ⟨members, spelled, text⟩ := wellFormed.spelled params
  rw [← text]
  exact spelled.ofText? wellFormed.id_lt

end Operation

namespace OperationResult

def ofRecord? (r : Record) : Option OperationResult := do
  return {
    operation := ← r.required "operation" Operation.decode
    actualStart := ← r.required "actual_start" Instant.decode
    runDuration := ← r.required "run_duration" Span.decode
    resultCode := ← r.required "result_code" Decode.int32
    value := ← r.required "value" Decode.value
    lateStartAccepted := ← r.withDefault "late_start_accepted" false Decode.boolean }

theorem decode_eq_ofRecord : decode = Decoder.ofRecord fieldNames ofRecord? := rfl

theorem ofRecord?_local : Local fieldNames ofRecord? := by
  intro named room fields fields' same
  simp only [ofRecord?, Record.required, Record.withDefault, Record.find?,
    same "operation" (by decide), same "actual_start" (by decide), same "run_duration" (by decide),
    same "result_code" (by decide), same "value" (by decide),
    same "late_start_accepted" (by decide)]

/-- The members of a result's object, in any order and with any others under unknown names, with
any spelling of the operation and with the run duration's members in either order.  The acceptance
of a late start may be left out where there is none; `room` is how deep the operation's
parameters may nest. -/
structure Spelled (room : Nat) (r : OperationResult) (members : List (String × Document)) :
    Prop where
  once : Once fieldNames members
  operation : ∃ inner, r.operation.Spelled room inner ∧ ("operation", .object inner) ∈ members
  actualStart : ("actual_start", r.actualStart.document) ∈ members
  runDuration : ∃ parts, parts.Perm r.runDuration.members ∧
    ("run_duration", .object parts) ∈ members
  resultCode : ("result_code", .int r.resultCode) ∈ members
  value : ∃ d, r.value.Spelled (room + 1) d ∧ ("value", d) ∈ members
  lateStartAccepted : ("late_start_accepted", .bool r.lateStartAccepted) ∈ members ∨
    r.lateStartAccepted = false ∧ ∀ m ∈ members, m.1 ≠ "late_start_accepted"

/-- A result whose numbers fit their widths. -/
structure Fits (r : OperationResult) : Prop where
  id_lt : r.operation.id < 18446744073709551616
  least : -2147483648 ≤ r.resultCode
  greatest : r.resultCode < 2147483648

/-- Every spelling of a result is read as the result. -/
theorem Spelled.decode {room : Nat} {r : OperationResult} {members : List (String × Document)}
    (spelled : r.Spelled room members) (fits : r.Fits) :
    OperationResult.decode (room + 2) (Document.object members).tree = some r := by
  have once := spelled.once
  obtain ⟨inner, spelledOperation, givenOperation⟩ := spelled.operation
  obtain ⟨parts, perm, givenDuration⟩ := spelled.runDuration
  obtain ⟨d, stands, givenValue⟩ := spelled.value
  have operation := required_of_mem once (by decide) givenOperation
    (spelledOperation.decode fits.id_lt)
  have start := required_of_mem once (by decide) spelled.actualStart
    (Instant.decode_document r.actualStart (room + 1))
  have duration := required_of_mem once (by decide) givenDuration (Span.decode_members perm room)
  have code := required_of_mem once (by decide) spelled.resultCode
    (int32_document fits.least fits.greatest (room + 1))
  have value : Record.required ⟨true, room + 1, fieldsOf members⟩ "value" Decode.value =
      some r.value := required_of_mem once (by decide) givenValue stands.value?
  have accepted : Record.withDefault ⟨true, room + 1, fieldsOf members⟩ "late_start_accepted" false
      Decode.boolean = some r.lateStartAccepted := by
    rcases spelled.lateStartAccepted with given | ⟨none, absent⟩
    · exact withDefault_of_mem false once (by decide) given rfl
    · rw [none]
      exact withDefault_of_absent _ _ _ absent
  rw [decode_eq_ofRecord, ofRecord_once _ once (room + 1), ofRecord?, operation, start, duration,
    code, value, accepted]
  rfl

theorem requires {name : String} (declared : name ∈ fieldNames)
    (needed : name ≠ "late_start_accepted") : Requires OperationResult.decode name := by
  rw [decode_eq_ofRecord]
  refine requires_of fun room fields absent => ?_
  simp only [fieldNames, List.mem_cons, List.not_mem_nil, or_false, needed] at declared
  rcases declared with rfl | rfl | rfl | rfl | rfl <;>
    simp [ofRecord?, Record.required, Record.find?, absent]

theorem defaultsTo_lateStartAccepted :
    DefaultsTo OperationResult.decode "late_start_accepted" (.bool false) := by
  rw [decode_eq_ofRecord]
  refine defaultsTo_of fun room fields absent => ?_
  simp [ofRecord?, Record.required, Record.withDefault, Record.find?, absent, List.lookup_cons,
    Decode.boolean]

/-- A result as the program holds it: the numbers fit their widths, and the parameters and the
value hold no double and have the members of their objects in order. -/
structure WellFormed (r : OperationResult) : Prop where
  operation : r.operation.WellFormed
  least : -2147483648 ≤ r.resultCode
  greatest : r.resultCode < 2147483648
  exact : r.value.Exact
  ordered : r.value.Ordered

theorem WellFormed.fits {r : OperationResult} (wellFormed : r.WellFormed) : r.Fits :=
  ⟨wellFormed.operation.id_lt, wellFormed.least, wellFormed.greatest⟩

def members (r : OperationResult) (operation value : Document) : List (String × Document) :=
  [("operation", operation), ("actual_start", r.actualStart.document),
    ("run_duration", .object r.runDuration.members), ("result_code", .int r.resultCode),
    ("value", value), ("late_start_accepted", .bool r.lateStartAccepted)]

/-- The written text is a spelling. -/
theorem WellFormed.spelled {r : OperationResult} (wellFormed : r.WellFormed) {room : Nat}
    (fitsParams : r.operation.params.depth ≤ room) (fitsValue : r.value.depth ≤ room + 1) :
    ∃ members, r.Spelled room members ∧ (Document.object members).text = r.toJson.compact := by
  obtain ⟨inner, spelled, operation⟩ := wellFormed.operation.spelled fitsParams
  obtain ⟨value, text, -⟩ := wellFormed.exact.document
  have stands : r.value.Spelled (room + 1) value :=
    ⟨r.value, wellFormed.exact, fitsValue, wellFormed.ordered.sorted, text⟩
  refine ⟨r.members (.object inner) value, ?_, ?_⟩
  · exact {
      once := once_of_perm (.refl _) (by decide)
      operation := ⟨inner, spelled, by simp [members]⟩
      actualStart := by simp [members]
      runDuration := ⟨r.runDuration.members, .refl _, by simp [members]⟩
      resultCode := by simp [members]
      value := ⟨value, stands, by simp [members]⟩
      lateStartAccepted := .inl (by simp [members]) }
  · have duration :
        (Document.object r.runDuration.members).text = r.runDuration.toJson.compact := by
      rw [Document.object_text, Span.toJson, Value.compact, Value.compactMembers_eq]
      rfl
    rw [Document.object_text, toJson, Value.compact, Value.compactMembers_eq]
    simp only [members, List.map_cons, List.map_nil, Document.memberText, operation, text, duration]
    rfl

theorem Spelled.ofText? {r : OperationResult} {members : List (String × Document)}
    (spelled : r.Spelled (maxDepth - 2) members) (fits : r.Fits) :
    Decoder.ofText? OperationResult.decode (Document.object members).text = some r := by
  rw [ofText?_document]
  exact spelled.decode fits

/-- What is written for a result is read as the result. -/
theorem WellFormed.ofText? {r : OperationResult} (wellFormed : r.WellFormed)
    (fits : r.toJson.depth ≤ maxDepth) :
    Decoder.ofText? OperationResult.decode r.toJson.compact = some r := by
  have operation := Value.depth_le_of_mem (m := ("operation", r.operation.toJson)) fits (by simp)
  have params := Value.depth_le_of_mem (m := ("params", r.operation.params)) operation (by simp)
  have value := Value.depth_le_of_mem (m := ("value", r.value)) fits (by simp)
  obtain ⟨members, spelled, text⟩ := wellFormed.spelled params value
  rw [← text]
  exact spelled.ofText? wellFormed.fits

end OperationResult

/-- Operations and results survive their text.  What is written for one is read as the same; so is
every spelling of it, whatever the order of the members, the unknown members among them and the
defaults that are left out.  Also for texts that are no spelling, the order and unknown members
make no difference, a member that is left out counts as its default, and a text without a member
that has none is refused. -/
theorem roundTrip_of_spelled :
    (∀ op : Operation, op.WellFormed → op.toJson.depth ≤ maxDepth →
      Decoder.ofText? Operation.decode op.toJson.compact = some op) ∧
    (∀ r : OperationResult, r.WellFormed → r.toJson.depth ≤ maxDepth →
      Decoder.ofText? OperationResult.decode r.toJson.compact = some r) ∧
    (∀ (op : Operation) members, op.id < 18446744073709551616 →
      op.Spelled (maxDepth - 1) members →
        Decoder.ofText? Operation.decode (Document.object members).text = some op) ∧
    (∀ (r : OperationResult) members, r.Fits → r.Spelled (maxDepth - 2) members →
      Decoder.ofText? OperationResult.decode (Document.object members).text = some r) ∧
    OrderFree Operation.fieldNames Operation.decode ∧
    OrderFree OperationResult.fieldNames OperationResult.decode ∧
    DefaultsTo Operation.decode "dependency_time" .null ∧
    DefaultsTo Operation.decode "params" .null ∧
    DefaultsTo OperationResult.decode "late_start_accepted" (.bool false) ∧
    (∀ name ∈ Operation.fieldNames, name ∉ Operation.defaultNames →
      Requires Operation.decode name) ∧
    (∀ name ∈ OperationResult.fieldNames, name ≠ "late_start_accepted" →
      Requires OperationResult.decode name) := by
  refine ⟨fun _ => Operation.WellFormed.ofText?, fun _ => OperationResult.WellFormed.ofText?,
    fun _ _ fits spelled => spelled.ofText? fits, fun _ _ fits spelled => spelled.ofText? fits,
    orderFree_of_local Operation.ofRecord?_local,
    orderFree_of_local OperationResult.ofRecord?_local, Operation.defaultsTo_dependencyTime,
    Operation.defaultsTo_params, OperationResult.defaultsTo_lateStartAccepted,
    fun _ => Operation.requires, fun _ => OperationResult.requires⟩

/-- An operation with nested parameters, and a result in another order, with an unknown member and
without what may be left out. -/
theorem roundTrip_of_spelled_nested :
    let op : Operation := ⟨18446744073709551615, "re\"ad\n", .last, some .first,
      .object [("a", .array [.int (-9223372036854775808), .null]), ("b", .string "\x01")]⟩
    let r : OperationResult := ⟨⟨7, "read", .first, none, .null⟩, .last,
      ⟨1500000000, by decide⟩, -2147483648, .null, false⟩
    let spelling : List (String × Document) := [("value", .null), ("extra", .array [.int 1]),
      ("result_code", .int (-2147483648)), ("actual_start", Instant.last.document),
      ("run_duration", .object [("nanos", .int 500000000), ("secs", .int 1)]),
      ("operation", .object [("scheduled_start", Instant.first.document), ("kind", .string "read"),
        ("id", .int 7)])]
    (op.WellFormed ∧ op.toJson.depth ≤ maxDepth ∧
      Decoder.ofText? Operation.decode op.toJson.compact = some op) ∧
    (r.Fits ∧ r.Spelled (maxDepth - 2) spelling ∧
      Decoder.ofText? OperationResult.decode (Document.object spelling).text = some r) := by
  intro op r spelling
  have wellFormed : op.WellFormed := {
    id_lt := by decide
    exact := .object (by simp [Value.Exact.array, Value.Exact.int, Value.Exact.null,
      Value.Exact.string])
    ordered := .object (List.pairwise_pair.mpr (by decide)) (by
      simp [Value.Ordered.array, Value.Ordered.int, Value.Ordered.null, Value.Ordered.string]) }
  have shallow : op.toJson.depth ≤ maxDepth := by decide
  have fits : r.Fits := ⟨by decide, by decide, by decide⟩
  have inner : r.operation.Spelled (maxDepth - 2) [("scheduled_start", Instant.first.document),
      ("kind", .string "read"), ("id", .int 7)] := {
    once := by decide
    id := by simp [r]
    kind := by simp [r]
    scheduledStart := by simp [r]
    dependencyTime := .inr ⟨rfl, by simp⟩
    params := .inr ⟨rfl, by simp⟩ }
  have duration : [("nanos", .int 500000000), ("secs", .int 1)].Perm r.runDuration.members := by
    have members : r.runDuration.members = [("secs", .int 1), ("nanos", .int 500000000)] := by
      simp [r, Span.members, Span.seconds, Span.subsecNanos]
    rw [members]
    exact .swap _ _ _
  have spelled : r.Spelled (maxDepth - 2) spelling := {
    once := by decide
    operation := ⟨_, inner, by simp [spelling]⟩
    actualStart := by simp [spelling, r]
    runDuration := ⟨_, duration, by simp [spelling]⟩
    resultCode := by simp [spelling, r]
    value := ⟨.null, ⟨.null, .null, by decide, rfl, rfl⟩, by simp [spelling]⟩
    lateStartAccepted := .inr ⟨rfl, by simp [spelling]⟩ }
  exact ⟨⟨wellFormed, shallow, roundTrip_of_spelled.1 op wellFormed shallow⟩,
    fits, spelled, roundTrip_of_spelled.2.2.2.1 r spelling fits spelled⟩

end PacedLoad
