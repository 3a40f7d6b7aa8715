import SplitBrainFabric.CommitAnswers
import SplitBrainFabric.Connection
import SplitBrainFabric.Library.Refusing

/-! No refusal of the registry says `Ok`. A client takes an error response that does for a
success, so this is what its reading of the answers rests on. -/

namespace SplitBrainFabric
open Words
open Decoder (Refuses)

/-- A status that reports a failure. -/
def Status.Fails (st : Status) : Prop := st.isOk = false

theorem Status.fails {st : Status} (failing : st.isOk = false) : st.Fails := failing

namespace Reader

theorem refuses_take (n : Nat) : (take n).Refuses Status.Fails :=
  .take (fun _ => Status.fails rfl) n

theorem refuses_u8 : u8.Refuses Status.Fails := (refuses_take 1).bind fun _ => .pure _

theorem refuses_u16 : u16.Refuses Status.Fails := (refuses_take 2).bind fun _ => .pure _

theorem refuses_u32 : u32.Refuses Status.Fails := (refuses_take 4).bind fun _ => .pure _

theorem refuses_u64 : u64.Refuses Status.Fails :=
  (refuses_take 4).bind fun _ => (refuses_take 4).bind fun _ => .pure _

theorem refuses_i64 : i64.Refuses Status.Fails := refuses_u64.bind fun _ => .pure _

theorem refuses_boolean : boolean.Refuses Status.Fails :=
  refuses_u8.bind fun _ => .ite (.throw (Status.fails rfl)) (.pure _)

theorem refuses_text : text.Refuses Status.Fails :=
  refuses_u16.bind fun length => refuses_take length.toNat

theorem refuses_blob : blob.Refuses Status.Fails :=
  refuses_u32.bind fun length => .ite (.throw (Status.fails rfl)) (refuses_take length.toNat)

theorem refuses_digest : digest.Refuses Status.Fails := by
  refine (refuses_take 32).bind fun raw => ?_
  split
  · exact .pure _
  · exact .throw (Status.fails rfl)

theorem refuses_count (bound : Nat) : (count bound).Refuses Status.Fails :=
  refuses_u32.bind fun _ => .ite (.throw (Status.fails rfl)) <|
    Refuses.remaining.bind fun _ => .ite (.throw (Status.fails rfl)) (.pure _)

theorem refuses_sequence {α : Type} {item : Read α} (bound : Nat)
    (each : item.Refuses Status.Fails) : (sequence bound item).Refuses Status.Fails :=
  (refuses_count bound).bind fun n => each.repeatM n

theorem refuses_reason : reason.Refuses Status.Fails := by
  refine refuses_u16.bind fun raw => ?_
  split
  · exact .pure _
  · exact .throw (Status.fails rfl)

theorem refuses_enum {α : Type} (fromCode : UInt16 → Option α) :
    (enum fromCode).Refuses Status.Fails := by
  refine refuses_u16.bind fun raw => ?_
  split
  · exact .pure _
  · exact .throw (Status.fails rfl)

theorem refuses_idOf {tag : IdTag} (value : Bytes) :
    (idOf .invalid value : Read (Id tag)).Refuses Status.Fails := by
  unfold idOf
  split
  · exact .pure _
  · exact .throw (Status.fails rfl)

theorem refuses_identifier {tag : IdTag} :
    (identifier .invalid : Read (Id tag)).Refuses Status.Fails :=
  refuses_text.bind fun value => refuses_idOf value

theorem refuses_nested {α : Type} {item : Read α} (refuses : item.Refuses Status.Fails) :
    (nested item).Refuses Status.Fails :=
  refuses_blob.bind fun _ => .ofExcept fun _ refused =>
    refuses.whole (fun _ => Status.fails rfl) refused

theorem decode_fails {α : Type} {item : Read α} {bytes : Bytes} {st : Status}
    (refuses : item.Refuses Status.Fails) (refused : decode item bytes = .error st) : st.Fails :=
  refuses.whole (fun _ => Status.fails rfl) refused

end Reader

open Reader

theorem Scope.make_fails {extents : List ExtentId} {st : Status}
    (refused : Scope.make extents = .error st) : st.Fails := by
  unfold Scope.make at refused
  split at refused
  · cases refused
    rfl
  split at refused
  · cases refused
    rfl
  split at refused
  · cases refused
    rfl
  split at refused
  · cases refused
    rfl
  · cases refused

theorem Scope.refuses_decode : Scope.decode.Refuses Status.Fails :=
  (refuses_sequence _ refuses_identifier).bind fun _ =>
    .ite (.pure _) (.ofExcept fun _ refused => Scope.make_fails refused)

theorem refuses_wallClock : decodeWallClock.Refuses Status.Fails :=
  refuses_i64.bind fun _ => refuses_u64.bind fun _ => refuses_boolean.bind fun _ => .pure _

theorem RequestEnvelope.refuses_decode : RequestEnvelope.decode.Refuses Status.Fails :=
  refuses_u64.bind fun _ => refuses_identifier.bind fun _ => refuses_u64.bind fun _ =>
  refuses_u64.bind fun _ => .pure _

theorem Lease.refuses_decode : Lease.decode.Refuses Status.Fails :=
  refuses_u64.bind fun _ => refuses_u64.bind fun _ => refuses_identifier.bind fun _ =>
  refuses_digest.bind fun _ => refuses_u64.bind fun _ => refuses_u64.bind fun _ =>
  refuses_u64.bind fun _ => refuses_u64.bind fun _ => refuses_u64.bind fun _ =>
  refuses_u64.bind fun _ => refuses_u64.bind fun _ => .pure _

theorem WitnessAttestation.refuses_decode : WitnessAttestation.decode.Refuses Status.Fails :=
  refuses_text.bind fun _ => refuses_text.bind fun _ => (refuses_idOf _).bind fun _ =>
  (refuses_idOf _).bind fun _ => refuses_digest.bind fun _ => refuses_u64.bind fun _ =>
  refuses_u64.bind fun _ => refuses_u64.bind fun _ => refuses_u64.bind fun _ =>
  refuses_u64.bind fun _ => refuses_u64.bind fun _ => refuses_u64.bind fun _ =>
  refuses_u64.bind fun _ => refuses_boolean.bind fun _ => refuses_wallClock.bind fun _ => .pure _

theorem EvidenceBundle.refuses_decode : EvidenceBundle.decode.Refuses Status.Fails :=
  refuses_identifier.bind fun _ => refuses_u64.bind fun _ => refuses_u64.bind fun _ =>
  refuses_u64.bind fun _ =>
  (refuses_sequence _ (refuses_nested WitnessAttestation.refuses_decode)).bind fun _ =>
  refuses_boolean.bind fun _ =>
    .ite ((refuses_nested Lease.refuses_decode).bind fun _ => .pure _) (.pure _)

theorem DomainDefinition.refuses_decode : DomainDefinition.decode.Refuses Status.Fails :=
  refuses_text.bind fun _ => refuses_text.bind fun _ => (refuses_idOf _).bind fun _ =>
  (refuses_idOf _).bind fun _ => (refuses_nested Scope.refuses_decode).bind fun _ =>
  refuses_identifier.bind fun _ => refuses_boolean.bind fun _ => .pure _

section Messages

theorem refuses_envelope : (nested RequestEnvelope.decode).Refuses Status.Fails :=
  refuses_nested RequestEnvelope.refuses_decode

theorem refuses_scope : (nested Scope.decode).Refuses Status.Fails :=
  refuses_nested Scope.refuses_decode

theorem HelloRequest.refuses_decode : HelloRequest.decode.Refuses Status.Fails :=
  refuses_identifier.bind fun _ => (refuses_enum _).bind fun _ => refuses_u16.bind fun _ =>
  (Refuses.refuseIf (Status.fails rfl)).bind fun _ => .pure _

theorem DefineDomainRequest.refuses_decode : DefineDomainRequest.decode.Refuses Status.Fails :=
  refuses_envelope.bind fun _ =>
  (refuses_nested DomainDefinition.refuses_decode).bind fun _ => .pure _

theorem AllocateEpochRequest.refuses_decode : AllocateEpochRequest.decode.Refuses Status.Fails :=
  refuses_envelope.bind fun _ => refuses_identifier.bind fun _ => refuses_scope.bind fun _ =>
  refuses_u64.bind fun _ => refuses_u64.bind fun _ => refuses_u64.bind fun _ =>
  refuses_wallClock.bind fun _ => .pure _

theorem DecideRequest.refuses_decode : DecideRequest.decode.Refuses Status.Fails :=
  refuses_envelope.bind fun _ => refuses_identifier.bind fun _ => refuses_scope.bind fun _ =>
  refuses_u64.bind fun _ => refuses_u64.bind fun _ => refuses_u64.bind fun _ =>
  refuses_u64.bind fun _ => (refuses_enum _).bind fun _ => refuses_u64.bind fun _ =>
  (refuses_nested EvidenceBundle.refuses_decode).bind fun _ =>
  refuses_wallClock.bind fun _ => .pure _

theorem CommitRequest.refuses_decode : CommitRequest.decode.Refuses Status.Fails :=
  refuses_envelope.bind fun _ => refuses_identifier.bind fun _ => refuses_scope.bind fun _ =>
  refuses_u64.bind fun _ => refuses_u64.bind fun _ => refuses_u64.bind fun _ =>
  refuses_u64.bind fun _ => refuses_u64.bind fun _ => refuses_text.bind fun _ =>
  (Refuses.refuseIf (Status.fails rfl)).bind fun _ => refuses_digest.bind fun _ =>
  refuses_wallClock.bind fun _ => .pure _

theorem FenceRequest.refuses_decode : FenceRequest.decode.Refuses Status.Fails :=
  refuses_envelope.bind fun _ => refuses_identifier.bind fun _ => refuses_scope.bind fun _ =>
  refuses_u64.bind fun _ => refuses_u64.bind fun _ => refuses_reason.bind fun _ => .pure _

theorem ReleaseRequest.refuses_decode : ReleaseRequest.decode.Refuses Status.Fails :=
  refuses_envelope.bind fun _ => refuses_u64.bind fun _ => refuses_reason.bind fun _ => .pure _

theorem InspectRequest.refuses_decode : InspectRequest.decode.Refuses Status.Fails :=
  refuses_envelope.bind fun _ => refuses_identifier.bind fun _ => refuses_scope.bind fun _ =>
  refuses_u64.bind fun _ => .pure _

end Messages

section Storage

theorem FileFault.fails (fault : FileFault) : fault.status.Fails := by
  cases fault with
  | missing => rfl
  | incomplete aux => rfl

theorem Store.append_refuses (r : JournalRecord) (io : AppendIo) :
    (Store.append r io).Refuses Status.Fails := by
  refine .get fun s => .refuseIf (fun _ => rfl) <| .refuseIf (fun _ => rfl) <|
    .refuseIf (fun _ => rfl) ?_
  simp only
  split
  · exact .set _
  · exact .bind (.set _) fun _ => .throw (Status.fails rfl)
  · exact .bind (.set _) fun _ => .throw (Status.fails rfl)
  · exact .bind (.set _) fun _ => .throw (Status.fails rfl)

theorem Store.checkpoint_refuses (blob : Bytes) (covers : Sequence) (now : Step)
    (io : CheckpointIo) : (Store.checkpoint blob covers now io).Refuses Status.Fails := by
  refine .get fun s => .refuseIf (fun _ => rfl) <| .refuseIf (fun _ => rfl) <|
    .refuseIf (fun _ => rfl) ?_
  cases io with
  | done => exact .set _
  | snapshotFault fault => exact .throw fault.fails
  | flushFault stage => exact .bind (.set _) fun _ => .throw (Status.fails rfl)
  | rotationFault fault => exact .bind (.set _) fun _ => .throw fault.fails
  | reopenFault => exact .bind (.set _) fun _ => .throw (Status.fails rfl)

end Storage

namespace RegistryService

open Prog (Refuses)

variable {io : RequestIo} {frame : Frame} {binding : SessionBinding} {s : RegistryService}

theorem advance_refuses : (onRegistry advance).Refuses Status.Fails :=
  .zoom (.get fun _ => .refuseIf (fun _ => rfl) (.bind (.set _) fun _ => .pure _))

theorem perform_refuses {ε α : Type} (m : Prog ε Work α) : (perform m).Refuses Status.Fails := by
  intro s e s' refused
  cases refused

theorem appendRecords_refuses (io : RequestIo) (records : List JournalRecord) :
    (appendRecords io records).Refuses Status.Fails := by
  have turns : ∀ turn, (appendOne io turn).Refuses Status.Fails := fun turn =>
    .bind (.zoom (Store.append_refuses _ _)) fun _ => .modify _
  rw [appendRecords_eq]
  refine .bind (.forM turns _) fun _ => .get fun s => .ite (fun _ => ?_) fun _ => .pure _
  exact .bind (.zoom (Store.checkpoint_refuses _ _ _ _)) fun _ => .modify _

theorem received_refuses {ρ : Type} {read : Reader.Read ρ} (envelope : ρ → RequestEnvelope)
    (payload : Bytes) (binding : SessionBinding) (reads : read.Refuses Status.Fails) :
    (received read envelope payload binding).Refuses Status.Fails :=
  .bind (.ofExcept fun _ refused => Reader.decode_fails reads refused) fun _ =>
    .refuseIf (fun failed => failed) (.pure _)

theorem operate_refuses {ρ : Type} (io : RequestIo) (m : Step → Prog ρ Work ρ) :
    (operate io m).Refuses Status.Fails :=
  .bind advance_refuses fun _ => .bind (perform_refuses _) fun _ =>
    .bind (appendRecords_refuses io _) fun _ => .pure _

theorem handleRequest_refuses (io : RequestIo) (frame : Frame) (binding : SessionBinding) :
    (handleRequest io frame binding).Refuses Status.Fails := by
  refine .refuseIf (fun _ => rfl) ?_
  split
  · refine .bind (received_refuses _ _ _ DefineDomainRequest.refuses_decode) fun _ => ?_
    exact .bind advance_refuses fun _ => .bind (perform_refuses _) fun _ => .get fun _ =>
      .bind (appendRecords_refuses io _) fun _ => .pure _
  · refine .bind (received_refuses _ _ _ AllocateEpochRequest.refuses_decode) fun _ => ?_
    exact .refuseIf (fun _ => rfl) <| .refuseIf (fun _ => rfl) <|
      .bind (operate_refuses io _) fun _ => .pure _
  · refine .bind (received_refuses _ _ _ DecideRequest.refuses_decode) fun _ => ?_
    exact .bind advance_refuses fun _ => .bind (perform_refuses _) fun _ => .pure _
  · refine .bind (received_refuses _ _ _ CommitRequest.refuses_decode) fun _ => ?_
    exact .refuseIf (fun _ => rfl) <| .bind (operate_refuses io _) fun _ => .pure _
  · refine .bind (received_refuses _ _ _ FenceRequest.refuses_decode) fun _ => ?_
    exact .bind (operate_refuses io _) fun _ => .pure _
  · refine .bind (received_refuses _ _ _ ReleaseRequest.refuses_decode) fun _ => ?_
    exact .bind (operate_refuses io _) fun _ => .pure _
  · refine .bind (received_refuses _ _ _ InspectRequest.refuses_decode) fun _ => ?_
    exact .get fun _ => .pure _
  · exact .throw (Status.fails rfl)

/-- Whatever a frame asks for, and whatever the disk does, it is not refused with `Ok`. -/
theorem handleFrame_refuses (io : RequestIo) (frame : Frame) (binding : SessionBinding) :
    (handleFrame io frame binding).Refuses Status.Fails := by
  unfold handleFrame
  split
  · exact .pure _
  · exact .pure _
  · exact handleRequest_refuses io frame binding

end RegistryService
end SplitBrainFabric
