import SplitBrainFabric.Messages

/-! All wire types at once. What a codec accepts is its encoder's image of an encodable
value, with the extents of its scope in any order and any codes its explanation comes from. -/

namespace SplitBrainFabric
open Words Decoder

/-- The pair of functions of one type, and the parts of a value that its decoder brings
into a form of its own: `encodeWith` is the image around other codes and extents. -/
structure Codec where
  Value : Type
  read : Reader.Read Value
  encode : Value → Bytes
  Encodable : Value → Prop
  explanation : Value → Option Explanation
  scope : Value → Option Scope
  encodeWith : List Reason → List ExtentId → Value → Bytes

/-- The image of a list of extents, in their order. -/
def listExtents (extents : List ExtentId) : Bytes :=
  Writer.sequence (fun e => Writer.text e.value) extents

/-- The codec of a type that carries neither a scope nor reasons. -/
def Codec.plain {α : Type} (read : Reader.Read α) (encode : α → Bytes) (Encodable : α → Prop) :
    Codec where
  Value := α
  read := read
  encode := encode
  Encodable := Encodable
  explanation := fun _ => none
  scope := fun _ => none
  encodeWith := fun _ _ => encode

/-- The codec of a type that carries a scope. -/
def Codec.around {α : Type} (read : Reader.Read α) (encode : α → Bytes) (Encodable : α → Prop)
    (scope : α → Scope) (encodeWith : Bytes → α → Bytes) : Codec where
  Value := α
  read := read
  encode := encode
  Encodable := Encodable
  explanation := fun _ => none
  scope := fun v => some (scope v)
  encodeWith := fun _ extents => encodeWith (listExtents extents)

inductive PayloadKind where
  | scope | quorumProfile | lease | witnessAttestation | evidenceBundle | authorityVector
  | authorityDecision | domainDefinition | helloRequest | helloResponse | allocateEpochRequest
  | allocateEpochResponse | decideRequest | decideResponse | commitRequest | commitResponse
  | fenceRequest | fenceResponse | releaseRequest | releaseResponse | inspectRequest
  | inspectResponse | attestRequest | attestResponse | witnessStatusRequest
  | witnessStatusResponse | defineDomainRequest | defineDomainResponse | errorResponse
  deriving DecidableEq

namespace PayloadKind

def codec : PayloadKind → Codec
  | .scope => .around Scope.decode Scope.encode (fun _ => True) id fun image _ => image
  | .quorumProfile => .plain QuorumProfile.decode QuorumProfile.encode QuorumProfile.Encodable
  | .lease => .plain Lease.decode Lease.encode Lease.Encodable
  | .witnessAttestation =>
    .plain WitnessAttestation.decode WitnessAttestation.encode WitnessAttestation.Encodable
  | .evidenceBundle => .plain EvidenceBundle.decode EvidenceBundle.encode EvidenceBundle.Encodable
  | .authorityVector => .plain AuthorityVector.decode AuthorityVector.encode fun _ => True
  | .authorityDecision => {
      Value := AuthorityDecision
      read := AuthorityDecision.decode
      encode := AuthorityDecision.encode
      Encodable := AuthorityDecision.Encodable
      explanation := fun d => some d.explanation
      scope := fun d => some d.scope
      encodeWith := fun codes extents d => d.encodeWith codes (listExtents extents) }
  | .domainDefinition => .around DomainDefinition.decode DomainDefinition.encode DomainDefinition.Encodable
    DomainDefinition.scope DomainDefinition.encodeWith
  | .helloRequest => .plain HelloRequest.decode HelloRequest.encode HelloRequest.Encodable
  | .helloResponse => .plain HelloResponse.decode HelloResponse.encode HelloResponse.Encodable
  | .allocateEpochRequest => .around AllocateEpochRequest.decode AllocateEpochRequest.encode AllocateEpochRequest.Encodable
    AllocateEpochRequest.scope AllocateEpochRequest.encodeWith
  | .allocateEpochResponse =>
    .plain AllocateEpochResponse.decode AllocateEpochResponse.encode fun _ => True
  | .decideRequest => .around DecideRequest.decode DecideRequest.encode DecideRequest.Encodable
    DecideRequest.scope DecideRequest.encodeWith
  | .decideResponse => {
      Value := DecideResponse
      read := DecideResponse.decode
      encode := DecideResponse.encode
      Encodable := fun v => v.decision.Encodable
      explanation := fun v => some v.decision.explanation
      scope := fun v => some v.decision.scope
      encodeWith := fun codes extents v =>
        v.encodeWith (v.decision.encodeWith codes (listExtents extents)) }
  | .commitRequest => .around CommitRequest.decode CommitRequest.encode CommitRequest.Encodable
    CommitRequest.scope CommitRequest.encodeWith
  | .commitResponse => .plain CommitResponse.decode CommitResponse.encode fun _ => True
  | .fenceRequest => .around FenceRequest.decode FenceRequest.encode FenceRequest.Encodable
    FenceRequest.scope FenceRequest.encodeWith
  | .fenceResponse => .plain FenceResponse.decode FenceResponse.encode fun _ => True
  | .releaseRequest => .plain ReleaseRequest.decode ReleaseRequest.encode ReleaseRequest.Encodable
  | .releaseResponse => .plain ReleaseResponse.decode ReleaseResponse.encode fun _ => True
  | .inspectRequest => .around InspectRequest.decode InspectRequest.encode InspectRequest.Encodable
    InspectRequest.scope InspectRequest.encodeWith
  | .inspectResponse =>
    .plain InspectResponse.decode InspectResponse.encode InspectResponse.Encodable
  | .attestRequest => .around AttestRequest.decode AttestRequest.encode AttestRequest.Encodable
    AttestRequest.subjectScope AttestRequest.encodeWith
  | .attestResponse => .plain AttestResponse.decode AttestResponse.encode AttestResponse.Encodable
  | .witnessStatusRequest =>
    .plain WitnessStatusRequest.decode WitnessStatusRequest.encode WitnessStatusRequest.Encodable
  | .witnessStatusResponse =>
    .plain WitnessStatusResponse.decode WitnessStatusResponse.encode WitnessStatusResponse.Encodable
  | .defineDomainRequest =>
    .around DefineDomainRequest.decode DefineDomainRequest.encode DefineDomainRequest.Encodable
      (fun v => v.definition.scope) fun scope v => v.encodeWith (v.definition.encodeWith scope)
  | .defineDomainResponse =>
    .plain DefineDomainResponse.decode DefineDomainResponse.encode fun _ => True
  | .errorResponse => .plain ErrorResponse.decode ErrorResponse.encode ErrorResponse.Encodable

end PayloadKind

namespace Codec

variable (c : Codec)

/-- A whole buffer, decoded into a fresh value. -/
def decode (bytes : Bytes) : Except Status c.Value := Reader.decode c.read bytes

/-- The codes in an image: any that the explanation is gathered from, as many as fit. -/
def Gathered (codes : List Reason) (v : c.Value) : Prop :=
  match c.explanation v with
  | some e => codes.length ≤ Limits.maxExplanationCodes ∧ Explanation.gather codes = e
  | none => codes = []

/-- The extents in an image: those of the scope, in any order. -/
def Ordered (extents : List ExtentId) (v : c.Value) : Prop :=
  match c.scope v with
  | some s => extents.Perm s.extents
  | none => extents = []

def keptCodes (v : c.Value) : List Reason := ((c.explanation v).map (·.codes)).getD []

def sortedExtents (v : c.Value) : List ExtentId := ((c.scope v).map (·.extents)).getD []

def Spelled (v : c.Value) (image : Bytes) : Prop :=
  c.Encodable v ∧ ∃ codes extents, c.Gathered codes v ∧ c.Ordered extents v ∧
    image = c.encodeWith codes extents v

section Spells

variable {α : Type} {read : Reader.Read α} {encode : α → Bytes} {Encodable : α → Prop}
  {scopeOf : α → Scope} {around : Bytes → α → Bytes}

/-- A type without a scope and without reasons has one image for each value. -/
theorem spells_plain (exact : Exact read Encodable encode) :
    Spells read (plain read encode Encodable).Spelled := by
  refine exact.congr fun v image => and_congr_right fun _ => ?_
  constructor
  · rintro ⟨_, _, rfl, rfl, rfl⟩
    rfl
  · rintro rfl
    exact ⟨[], [], rfl, rfl, rfl⟩

/-- A type around a scope has one image for each order of the extents. -/
theorem spells_around (spells : Spells read fun v image =>
      Encodable v ∧ ∃ s, (scopeOf v).Spelled s ∧ image = around s v) :
    Spells read (Codec.around read encode Encodable scopeOf around).Spelled := by
  refine spells.congr fun v image => and_congr_right fun _ => ?_
  constructor
  · rintro ⟨_, extents, rfl, same, rfl⟩
    exact ⟨_, ⟨extents, same, rfl⟩, rfl⟩
  · rintro ⟨_, ⟨extents, same, rfl⟩, rfl⟩
    exact ⟨[], extents, rfl, same, rfl⟩

end Spells
end Codec

theorem AuthorityDecision.spelled_iff {d : AuthorityDecision} {image : Bytes} :
    d.Spelled image ↔ d.Encodable ∧ ∃ codes extents, (codes.length ≤ Limits.maxExplanationCodes ∧
      Explanation.gather codes = d.explanation) ∧ extents.Perm d.scope.extents ∧
        image = d.encodeWith codes (listExtents extents) := by
  constructor
  · rintro ⟨listed, codes, _, ⟨few, gathered⟩, ⟨extents, same, rfl⟩, rfl⟩
    exact ⟨⟨listed, codes, gathered.symm⟩, codes, extents, ⟨few, gathered⟩, same, rfl⟩
  · rintro ⟨⟨listed, -⟩, codes, extents, gathered, same, rfl⟩
    exact ⟨listed, codes, _, gathered, ⟨extents, same, rfl⟩, rfl⟩

namespace PayloadKind

theorem spells_decideResponse :
    Spells PayloadKind.decideResponse.codec.read PayloadKind.decideResponse.codec.Spelled := by
  refine DecideResponse.spells_decode.congr fun v image => ?_
  constructor
  · rintro ⟨encodable, codes, extents, gathered, ordered, rfl⟩
    exact ⟨_, AuthorityDecision.spelled_iff.mpr ⟨encodable, codes, extents, gathered, ordered, rfl⟩,
      rfl⟩
  · rintro ⟨_, spelled, rfl⟩
    obtain ⟨encodable, codes, extents, gathered, ordered, rfl⟩ :=
      AuthorityDecision.spelled_iff.mp spelled
    exact ⟨encodable, codes, extents, gathered, ordered, rfl⟩

theorem spells_defineDomainRequest : Spells PayloadKind.defineDomainRequest.codec.read
    PayloadKind.defineDomainRequest.codec.Spelled := by
  refine Codec.spells_around (DefineDomainRequest.spells_decode.congr fun v image => ?_)
  constructor
  · rintro ⟨⟨envelope, definition⟩, s, spelled, rfl⟩
    exact ⟨envelope, _, ⟨definition, s, spelled, rfl⟩, rfl⟩
  · rintro ⟨envelope, _, ⟨definition, s, spelled, rfl⟩, rfl⟩
    exact ⟨⟨envelope, definition⟩, s, spelled, rfl⟩

/-- Every decoder accepts the spellings of its type and nothing else. -/
theorem spells (k : PayloadKind) : Spells k.codec.read k.codec.Spelled := by
  cases k with
  | scope => exact Codec.spells_around (Scope.spells_decode.congr fun s image => by simp)
  | quorumProfile => exact Codec.spells_plain QuorumProfile.exact_decode
  | lease => exact Codec.spells_plain Lease.exact_decode
  | witnessAttestation => exact Codec.spells_plain WitnessAttestation.exact_decode
  | evidenceBundle => exact Codec.spells_plain EvidenceBundle.exact_decode
  | authorityVector => exact Codec.spells_plain AuthorityVector.exact_decode
  | authorityDecision =>
    exact AuthorityDecision.spells_decode.congr fun d image => AuthorityDecision.spelled_iff.symm
  | domainDefinition => exact Codec.spells_around DomainDefinition.spells_decode
  | helloRequest => exact Codec.spells_plain HelloRequest.exact_decode
  | helloResponse => exact Codec.spells_plain HelloResponse.exact_decode
  | allocateEpochRequest => exact Codec.spells_around AllocateEpochRequest.spells_decode
  | allocateEpochResponse => exact Codec.spells_plain AllocateEpochResponse.exact_decode
  | decideRequest => exact Codec.spells_around DecideRequest.spells_decode
  | decideResponse => exact spells_decideResponse
  | commitRequest => exact Codec.spells_around CommitRequest.spells_decode
  | commitResponse => exact Codec.spells_plain CommitResponse.exact_decode
  | fenceRequest => exact Codec.spells_around FenceRequest.spells_decode
  | fenceResponse => exact Codec.spells_plain FenceResponse.exact_decode
  | releaseRequest => exact Codec.spells_plain ReleaseRequest.exact_decode
  | releaseResponse => exact Codec.spells_plain ReleaseResponse.exact_decode
  | inspectRequest => exact Codec.spells_around InspectRequest.spells_decode
  | inspectResponse => exact Codec.spells_plain InspectResponse.exact_decode
  | attestRequest => exact Codec.spells_around AttestRequest.spells_decode
  | attestResponse => exact Codec.spells_plain AttestResponse.exact_decode
  | witnessStatusRequest => exact Codec.spells_plain WitnessStatusRequest.exact_decode
  | witnessStatusResponse => exact Codec.spells_plain WitnessStatusResponse.exact_decode
  | defineDomainRequest => exact spells_defineDomainRequest
  | defineDomainResponse => exact Codec.spells_plain DefineDomainResponse.exact_decode
  | errorResponse => exact Codec.spells_plain ErrorResponse.exact_decode

theorem encode_eq (k : PayloadKind) (v : k.codec.Value) : k.codec.encode v =
    k.codec.encodeWith (k.codec.keptCodes v) (k.codec.sortedExtents v) v := by
  cases k <;> rfl

/-- The reasons of an encodable value are distinct and few. -/
theorem explanation_kept (k : PayloadKind) {v : k.codec.Value} {e : Explanation}
    (encodable : k.codec.Encodable v) (explained : k.codec.explanation v = some e) : e.Kept := by
  cases k with
  | authorityDecision =>
    cases explained
    obtain ⟨-, codes, built⟩ := encodable
    exact built ▸ Explanation.kept_gather codes
  | decideResponse =>
    cases explained
    obtain ⟨-, codes, built⟩ := encodable
    exact built ▸ Explanation.kept_gather codes
  | _ => cases explained

theorem encode_spelled (k : PayloadKind) {v : k.codec.Value} (encodable : k.codec.Encodable v) :
    k.codec.Spelled v (k.codec.encode v) := by
  refine ⟨encodable, k.codec.keptCodes v, k.codec.sortedExtents v, ?_, ?_, k.encode_eq v⟩
  · unfold Codec.Gathered Codec.keptCodes
    cases explained : k.codec.explanation v with
    | none => rfl
    | some e =>
      have kept := k.explanation_kept encodable explained
      exact ⟨kept.few, Explanation.gather_of_kept kept⟩
  · unfold Codec.Ordered Codec.sortedExtents
    cases k.codec.scope v with
    | none => rfl
    | some s => exact .refl _

/-- Every value that can be sent is read back, and no cut or extended image is read at all. -/
theorem round_trip (k : PayloadKind) (v : k.codec.Value) (encodable : k.codec.Encodable v) :
    k.codec.decode (k.codec.encode v) = .ok v ∧
      (∀ front more, more ≠ [] → k.codec.encode v = front ++ more →
        ∃ refusal, k.codec.decode front = .error refusal) ∧
      ∀ more, more ≠ [] → ∃ refusal, k.codec.decode (k.codec.encode v ++ more) = .error refusal := by
  have spelled := k.encode_spelled encodable
  refine ⟨k.spells.whole_iff.mpr spelled, ?_, ?_⟩
  · intro front more proper parts
    exact (k.spells.whole_refused spelled proper).2 front parts
  · intro more proper
    exact (k.spells.whole_refused spelled proper).1

/-- A refusal that never got to a subject, as it travels. -/
def refusedDecision : AuthorityDecision :=
  AuthorityDecision.fail {} .invalid .invalid .domainNotRegistered

theorem round_trip_refused :
    PayloadKind.decideResponse.codec.decode
        (PayloadKind.decideResponse.codec.encode ⟨refusedDecision.status, refusedDecision⟩) =
      .ok ⟨refusedDecision.status, refusedDecision⟩ ∧
      (∀ front more, more ≠ [] → PayloadKind.decideResponse.codec.encode
          ⟨refusedDecision.status, refusedDecision⟩ = front ++ more →
        ∃ refusal, PayloadKind.decideResponse.codec.decode front = .error refusal) ∧
      ∀ more, more ≠ [] → ∃ refusal, PayloadKind.decideResponse.codec.decode
        (PayloadKind.decideResponse.codec.encode ⟨refusedDecision.status, refusedDecision⟩ ++
          more) = .error refusal :=
  round_trip .decideResponse ⟨refusedDecision.status, refusedDecision⟩
    ⟨⟨by decide, by decide, by decide, by decide⟩, [.domainNotRegistered], rfl⟩

end PayloadKind

theorem exact_extents : Exact (Reader.sequence Limits.maxExtentsPerScope
    (Reader.identifier .invalid : Reader.Read ExtentId))
    (fun xs => xs.length ≤ Limits.maxExtentsPerScope ∧ ∀ e ∈ xs, e.isEmpty = false)
    listExtents :=
  AuthorityDecision.exact_ids (by decide)

/-- The orders of the extents of a scope have different images. -/
theorem listExtents_inj {s : Scope} {a b : List ExtentId} (left : a.Perm s.extents)
    (right : b.Perm s.extents) (same : listExtents a = listExtents b) : a = b := by
  have sound : ∀ l : List ExtentId, l.Perm s.extents →
      (l.length ≤ Limits.maxExtentsPerScope ∧ ∀ e ∈ l, e.isEmpty = false) := fun l perm =>
    ⟨perm.length_eq ▸ s.bounded, fun e member => s.named e (perm.mem_iff.mp member)⟩
  exact (exact_extents.splits ⟨sound a left, rfl⟩ ⟨sound b right, rfl⟩
    (congrArg (· ++ []) same)).1

namespace AuthorityDecision

theorem encodeWith_inj {d : AuthorityDecision} {codes codes' : List Reason} {s s' : Bytes}
    (few : codes.length ≤ Limits.maxExplanationCodes)
    (few' : codes'.length ≤ Limits.maxExplanationCodes)
    (same : d.encodeWith codes s = d.encodeWith codes' s') : codes = codes' ∧ s = s' := by
  simp only [encodeWith, List.flatten_cons, List.append_cancel_left_eq] at same
  obtain ⟨codes, rest⟩ := exact_codes.splits ⟨⟨few, fun _ _ => trivial⟩, rfl⟩
    ⟨⟨few', fun _ _ => trivial⟩, rfl⟩ same
  exact ⟨codes, by simpa using rest⟩

/-- A decision has its canonical image around the kept codes and the ascending extents only. -/
theorem encodeWith_iff {d : AuthorityDecision} {codes : List Reason} {extents : List ExtentId}
    (gathered : codes.length ≤ Limits.maxExplanationCodes ∧
      Explanation.gather codes = d.explanation) (ordered : extents.Perm d.scope.extents) :
    d.encodeWith codes (listExtents extents) = d.encode ↔
      codes = d.explanation.codes ∧ extents = d.scope.extents := by
  constructor
  · intro same
    have few : d.explanation.codes.length ≤ Limits.maxExplanationCodes := by
      rw [← gathered.2]
      exact (Explanation.kept_gather codes).few
    obtain ⟨kept, listed⟩ := encodeWith_inj gathered.1 few same
    exact ⟨kept, listExtents_inj ordered (.refl _) listed⟩
  · rintro ⟨rfl, rfl⟩
    rfl

end AuthorityDecision

namespace Codec

variable {α : Type} {read : Reader.Read α} {encode : α → Bytes} {Encodable : α → Prop}
  {scopeOf : α → Scope} {around : Bytes → α → Bytes}

/-- The image around a list of extents is the canonical one for the ascending list only. -/
theorem around_iff {c : Codec} (shape : c = Codec.around read encode Encodable scopeOf around)
    {v : c.Value} {codes : List Reason} {extents : List ExtentId}
    (canonical : c.encode v = c.encodeWith (c.keptCodes v) (c.sortedExtents v) v)
    (gathered : c.Gathered codes v) (ordered : c.Ordered extents v)
    (injective : ∀ s t, c.encodeWith [] s v = c.encodeWith [] t v →
      listExtents s = listExtents t) :
    c.encodeWith codes extents v = c.encode v ↔
      codes = c.keptCodes v ∧ extents = c.sortedExtents v := by
  subst shape
  rw [canonical]
  constructor
  · intro same
    exact ⟨gathered, listExtents_inj ordered (.refl _) (injective _ _ same)⟩
  · rintro ⟨rfl, rfl⟩
    rfl

end Codec

namespace PayloadKind

theorem encodeWith_iff (k : PayloadKind) {v : k.codec.Value} {codes : List Reason}
    {extents : List ExtentId} (encodable : k.codec.Encodable v)
    (gathered : k.codec.Gathered codes v) (ordered : k.codec.Ordered extents v) :
    k.codec.encodeWith codes extents v = k.codec.encode v ↔
      codes = k.codec.keptCodes v ∧ extents = k.codec.sortedExtents v := by
  cases k with
  | scope => exact Codec.around_iff rfl rfl gathered ordered fun _ _ same => same
  | domainDefinition =>
    refine Codec.around_iff rfl rfl gathered ordered fun s t same => ?_
    simpa [codec, Codec.around, DomainDefinition.encodeWith] using same
  | allocateEpochRequest =>
    refine Codec.around_iff rfl rfl gathered ordered fun s t same => ?_
    simpa [codec, Codec.around, AllocateEpochRequest.encodeWith] using same
  | decideRequest =>
    refine Codec.around_iff rfl rfl gathered ordered fun s t same => ?_
    simpa [codec, Codec.around, DecideRequest.encodeWith] using same
  | fenceRequest =>
    refine Codec.around_iff rfl rfl gathered ordered fun s t same => ?_
    simpa [codec, Codec.around, FenceRequest.encodeWith] using same
  | inspectRequest =>
    refine Codec.around_iff rfl rfl gathered ordered fun s t same => ?_
    simpa [codec, Codec.around, InspectRequest.encodeWith] using same
  | attestRequest =>
    refine Codec.around_iff rfl rfl gathered ordered fun s t same => ?_
    simpa [codec, Codec.around, AttestRequest.encodeWith] using same
  | defineDomainRequest =>
    have shape : PayloadKind.defineDomainRequest.codec =
        .around DefineDomainRequest.decode DefineDomainRequest.encode DefineDomainRequest.Encodable
          (fun v => v.definition.scope)
          fun scope v => v.encodeWith (v.definition.encodeWith scope) := rfl
    refine Codec.around_iff shape rfl gathered ordered fun s t same => ?_
    simpa [codec, Codec.around, DefineDomainRequest.encodeWith,
      DomainDefinition.encodeWith] using same
  | commitRequest =>
    refine Codec.around_iff rfl rfl gathered ordered fun s t same => ?_
    have short := Nat.not_lt.mpr (CommitRequest.Encodable.operation encodable)
    simpa [codec, Codec.around, CommitRequest.encodeWith, short] using same
  | authorityDecision =>
    exact AuthorityDecision.encodeWith_iff gathered ordered
  | decideResponse =>
    have decision := AuthorityDecision.encodeWith_iff gathered ordered
    refine Iff.trans ?_ decision
    simp [codec, DecideResponse.encodeWith, DecideResponse.encode]
  | _ => exact ⟨fun _ => ⟨gathered, ordered⟩, fun _ => rfl⟩

/-- The accepted byte strings are the images around the extents in any order and around any
codes the explanation comes from. One of them is canonical. -/
theorem decode_iff (k : PayloadKind) (image : Bytes) (v : k.codec.Value) :
    k.codec.decode image = .ok v ↔ k.codec.Encodable v ∧
      ∃ codes extents, k.codec.Gathered codes v ∧ k.codec.Ordered extents v ∧
        image = k.codec.encodeWith codes extents v ∧
        (k.codec.encode v = image ↔
          codes = k.codec.keptCodes v ∧ extents = k.codec.sortedExtents v) := by
  constructor
  · intro accepted
    obtain ⟨encodable, codes, extents, gathered, ordered, rfl⟩ := k.spells.whole_iff.mp accepted
    refine ⟨encodable, codes, extents, gathered, ordered, rfl, ?_⟩
    rw [eq_comm]
    exact k.encodeWith_iff encodable gathered ordered
  · rintro ⟨encodable, codes, extents, gathered, ordered, spelled, -⟩
    exact k.spells.whole_iff.mpr ⟨encodable, codes, extents, gathered, ordered, spelled⟩

def east : ExtentId := Id.make [101]
def west : ExtentId := Id.make [119]

def eastWest : Scope := ⟨[east, west], by decide, by decide, by decide⟩

/-- A scope is also read from its extents in descending order. -/
theorem decode_not_canonical : ¬ ∀ (k : PayloadKind) (image : Bytes) (v : k.codec.Value),
    k.codec.decode image = .ok v → k.codec.encode v = image := by
  intro canonical
  have read : Reader.decode Scope.decode (listExtents [west, east]) = .ok eastWest := by
    decide +kernel
  have same : eastWest.encode = listExtents [west, east] := canonical .scope _ _ read
  revert same
  decide +kernel

end PayloadKind

/-- A message text of the source, byte by byte. -/
def ascii (text : String) : Bytes := text.toList.map fun c => UInt8.ofNat c.toNat

/-- A value on its way out, with the codec it leaves through. -/
structure WireValue where
  kind : PayloadKind
  value : kind.codec.Value

namespace WireValue

def payload (w : WireValue) : Bytes := w.kind.codec.encode w.value

/-- The matching decoder gives back the value that was sent. -/
def Transportable (w : WireValue) : Prop := w.kind.codec.decode w.payload = .ok w.value

theorem transportable_iff {w : WireValue} : w.Transportable ↔ w.kind.codec.Encodable w.value := by
  constructor
  · exact fun read => ((w.kind.decode_iff w.payload w.value).mp read).1
  · exact fun encodable => w.kind.spells.whole_iff.mpr (w.kind.encode_spelled encodable)

end WireValue

/-- What one frame is answered with; without a reply the payload is empty. -/
structure Answer where
  type : MessageType := .errorResponse
  reply : Option WireValue := none
  /-- The new value of the flag that closes the connection, where it gets one. -/
  stop : Option Bool := none

end SplitBrainFabric
