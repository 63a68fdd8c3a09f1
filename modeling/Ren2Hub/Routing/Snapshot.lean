import Mathlib.Data.List.Sort
import Ren2Hub.Lib.Int64

namespace Ren2Hub.Routing
open Lib

/-- `unset` is the empty string, which `Normalize` replaces. -/
inductive CapabilityState where
  | unset
  | eligible
  | unresolved
  | unsupported
  | disabled
  | conflict
deriving DecidableEq, Repr

inductive RefreshStatus where
  | active
  | building
  | failed
deriving DecidableEq, Repr

/-- `projection` stands for the columns that publishing neither reads nor writes. -/
structure ChannelModelCapability (α : Type) where
  channelID : Int := 0
  snapshotVersion : Int := 0
  requestModel : String
  labSlug : String := ""
  sourceHash : String := ""
  catalogVersion : String := ""
  state : CapabilityState := .unset
  updatedAt : Int := 0
  projection : α

structure ChannelCapabilitySnapshot where
  activeVersion : Int := 0
  sourceHash : String := ""
  catalogVersion : String := ""
  refreshStatus : RefreshStatus := .building
  refreshedAt : Int := 0
  lastFailedSourceHash : String := ""
  lastFailedCatalogVersion : String := ""
  lastFailedAt : Int := 0

structure ChannelCapabilitySnapshotFence where
  activeVersion : Int := 0
  sourceHash : String := ""
  catalogVersion : String := ""
deriving DecidableEq, Repr

def ChannelCapabilitySnapshotFence.matches (f : ChannelCapabilitySnapshotFence)
    (snapshot : ChannelCapabilitySnapshot) : Bool :=
  f.activeVersion = snapshot.activeVersion && f.sourceHash = snapshot.sourceHash &&
    f.catalogVersion = snapshot.catalogVersion

inductive SnapshotError where
  | unavailable
  | conflict
  | versionOverflow
  | database
deriving DecidableEq, Repr

structure CapabilityTables (α : Type) where
  snapshots : Int → Option ChannelCapabilitySnapshot := fun _ => none
  capabilities : List (ChannelModelCapability α) := []

variable {α : Type}

namespace CapabilityTables

def setSnapshot (db : CapabilityTables α) (channelID : Int) (snapshot : ChannelCapabilitySnapshot) :
    CapabilityTables α :=
  { db with snapshots := Function.update db.snapshots channelID (some snapshot) }

/-- The locked pointer row. A missing row is created for the zero fence only. -/
def current (db : CapabilityTables α) (channelID : Int)
    (expected : ChannelCapabilitySnapshotFence) : Except SnapshotError ChannelCapabilitySnapshot :=
  match db.snapshots channelID with
  | some snapshot => .ok snapshot
  | none => if expected ≠ {} then .error .conflict else .ok {}

end CapabilityTables

def ChannelModelCapability.stamped (capability : ChannelModelCapability α)
    (channelID version : Int) (sourceHash catalogVersion : String) (now : Int) :
    ChannelModelCapability α :=
  { capability with
    channelID := channelID, snapshotVersion := version, sourceHash := sourceHash
    catalogVersion := catalogVersion
    state := if capability.state = .unset then .unresolved else capability.state
    updatedAt := if capability.updatedAt = 0 then now else capability.updatedAt }

def ChannelModelCapability.key (capability : ChannelModelCapability α) : Int × Int × String :=
  (capability.channelID, capability.snapshotVersion, capability.requestModel)

variable (db : CapabilityTables α)

def CapabilityTables.accepts (rows : List (ChannelModelCapability α)) : Bool :=
  (rows.map (·.key)).Nodup && rows.all fun row => !db.capabilities.any fun old => old.key = row.key

/-- New rows, the pointer, and versions before the active one's two predecessors deleted. -/
def CapabilityTables.publish (channelID : Int) (snapshot : ChannelCapabilitySnapshot)
    (rows : List (ChannelModelCapability α)) : CapabilityTables α :=
  { db.setSnapshot channelID snapshot with
    capabilities := (db.capabilities ++ rows).filter fun row =>
      !(row.channelID = channelID && row.snapshotVersion < snapshot.activeVersion - 2) }

/-- `PublishChannelCapabilitySnapshot` as one transaction. -/
def publishChannelCapabilitySnapshot (channelID : Int) (expected : ChannelCapabilitySnapshotFence)
    (sourceHash catalogVersion : String) (capabilities : List (ChannelModelCapability α))
    (now : Int) (db : CapabilityTables α) : Except SnapshotError (CapabilityTables α) :=
  if channelID ≤ 0 then .error .unavailable
  else do
    let current ← db.current channelID expected
    let nextVersion := int64 (current.activeVersion + 1)
    let rows := capabilities.map (·.stamped channelID nextVersion sourceHash catalogVersion now)
    if !expected.matches current then .error .conflict
    else if nextVersion ≤ 0 then .error .versionOverflow
    else if !db.accepts rows then .error .database
    else .ok (db.publish channelID
      { current with activeVersion := nextVersion, sourceHash := sourceHash
                     catalogVersion := catalogVersion, refreshStatus := .active
                     refreshedAt := now } rows)

/-- `MarkChannelCapabilityRefreshFailure` as one transaction. -/
def markChannelCapabilityRefreshFailure (channelID : Int)
    (expected : ChannelCapabilitySnapshotFence) (sourceHash catalogVersion : String) (now : Int)
    (db : CapabilityTables α) : Except SnapshotError (CapabilityTables α) :=
  if channelID ≤ 0 then .error .unavailable
  else do
    let current ← db.current channelID expected
    if !expected.matches current then .error .conflict
    else .ok (db.setSnapshot channelID
      { current with
        lastFailedSourceHash := sourceHash, lastFailedCatalogVersion := catalogVersion
        lastFailedAt := now
        -- A first build has no readable rows, so its failure may show.
        refreshStatus := if expected.activeVersion ≤ 0 then .failed else current.refreshStatus })

def getChannelCapabilitySnapshotFence (channelID : Int) (db : CapabilityTables α) :
    ChannelCapabilitySnapshotFence :=
  match db.snapshots channelID with
  | none => {}
  | some snapshot => ⟨snapshot.activeVersion, snapshot.sourceHash, snapshot.catalogVersion⟩

def CapabilityTables.isActive (row : ChannelModelCapability α) : Bool :=
  match db.snapshots row.channelID with
  | none => false
  | some snapshot =>
    snapshot.activeVersion > 0 && snapshot.refreshStatus = .active &&
      snapshot.activeVersion = row.snapshotVersion

def findActiveChannelCapabilities (channelIDs : List Int) (requestModel lab : String)
    (db : CapabilityTables α) : List (ChannelModelCapability α) :=
  (db.capabilities.filter fun row =>
    row.channelID ∈ channelIDs && db.isActive row &&
      (requestModel = "" || row.requestModel = requestModel) &&
        (lab = "" || row.labSlug = lab)).insertionSort
    fun a b => a.requestModel < b.requestModel ∨
      (a.requestModel = b.requestModel ∧ a.channelID ≤ b.channelID)

inductive SnapshotCall (α : Type) where
  | publish (channelID : Int) (expected : ChannelCapabilitySnapshotFence)
      (sourceHash catalogVersion : String) (capabilities : List (ChannelModelCapability α))
  | markFailure (channelID : Int) (expected : ChannelCapabilitySnapshotFence)
      (sourceHash catalogVersion : String)

/-- A transaction at some moment. A database failure rolls it back. -/
structure SnapshotStep (α : Type) where
  call : SnapshotCall α
  now : Int
  fails : Bool := false

def SnapshotStep.exec (st : SnapshotStep α) (db : CapabilityTables α) :
    Except SnapshotError (CapabilityTables α) :=
  if st.fails then .error .database
  else match st.call with
    | .publish channelID expected sourceHash catalogVersion capabilities =>
      publishChannelCapabilitySnapshot channelID expected sourceHash catalogVersion capabilities
        st.now db
    | .markFailure channelID expected sourceHash catalogVersion =>
      markChannelCapabilityRefreshFailure channelID expected sourceHash catalogVersion st.now db

end Ren2Hub.Routing
