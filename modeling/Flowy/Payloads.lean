import Flowy.Activity.Integrity
import Flowy.Child.Integrity
import Flowy.Wait.Arbitration
import Flowy.Seal

/-! Envelopes as storage has them: the runtime collections are JSON payloads, and every check of the
runtime reads them again. -/
namespace Flowy

/-- The JSON readers of the three collections; an empty payload is an empty collection. -/
structure PayloadCodec where
  journal : Bytes → Result Journal
  children : Bytes → Result ChildGroups
  waits : Bytes → Result Waits

namespace PayloadCodec

variable (payloads : PayloadCodec)

def readJournal (payload : Bytes) : Result Journal :=
  if payload.isEmpty then .ok ∅ else payloads.journal payload

def readChildren (payload : Bytes) : Result ChildGroups :=
  if payload.isEmpty then .ok ∅ else payloads.children payload

def readWaits (payload : Bytes) : Result Waits :=
  if payload.isEmpty then .ok ∅ else payloads.waits payload

end PayloadCodec

def RawEnvelope.withJournal (e : RawEnvelope) (journal : Journal) : ExecutionEnvelope Journal Bytes Bytes :=
  { e with journal := journal }

def RawEnvelope.withChildren (e : RawEnvelope) (groups : ChildGroups) :
    ExecutionEnvelope Bytes ChildGroups Bytes :=
  { e with children := groups }

def RawEnvelope.withWaits (e : RawEnvelope) (waits : Waits) : ExecutionEnvelope Bytes Bytes Waits :=
  { e with waits := waits }

section Reading

variable [Sha256]

namespace PayloadCodec

variable (payloads : PayloadCodec)

/-- `executionWaits` on an envelope as storage has it. -/
def executionWaits (e : RawEnvelope) : Result Waits := do
  let waits ← payloads.readWaits e.waits
  Flowy.executionWaits (RawEnvelope.withWaits e waits)

/-- `validateExecutionCollections` on an envelope as storage has it. -/
def validateExecutionCollections (e : RawEnvelope) : Result Unit := do
  require (validMigrationText e.progress) .executionCorrupt
  require (e.runtimeProfile.all fun profile => profile.validate.isOk) .executionCorrupt
  let journal ← payloads.readJournal e.journal
  let _ ← executionActivityJournal (RawEnvelope.withJournal e journal)
  let groups ← payloads.readChildren e.children
  let _ ← executionChildGroups (RawEnvelope.withChildren e groups)
  let _ ← payloads.executionWaits e
  .ok ()

def validateExecutionCollectionsWithWaits (e : RawEnvelope) : Result Waits := do
  payloads.validateExecutionCollections e
  payloads.executionWaits e

end PayloadCodec

end Reading
end Flowy
