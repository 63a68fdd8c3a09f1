import Ren2Hub.Lib.Program
import Ren2Hub.Routing.Snapshot

namespace Ren2Hub.Routing
open Lib

/-- How capability rows come out of a channel row `κ` and its abilities `β`. The
fingerprint fails when the row cannot be encoded. -/
structure Projection (κ β α : Type) where
  channelCapabilityFingerprint : κ → List β → Option String
  projectChannelCapabilities : κ → List β → String → List (ChannelModelCapability α)
  catalogVersion : String

/-- A channel row in the memory of a refresher, and when it was read. -/
structure LoadedChannel (κ : Type) where
  id : Int
  row : κ
  readAt : Nat
deriving DecidableEq, Repr

inductive RefreshError where
  | channelIDRequired
  | cancelled
  | database
  | fingerprint
  | snapshot (e : SnapshotError)
  | recordFailure (e : SnapshotError)
  | join (first second : RefreshError)

/-- The tables, and what the active snapshot of each channel was built from. `locked` is
`capabilityRefreshMu` of each node. The clock, which no code reads, ticks with every read of
channel rows, edit and publication. -/
structure RefreshState (κ β α : Type) where
  channels : List (Int × κ) := []
  abilities : List (Int × β) := []
  db : CapabilityTables α := {}
  locked : Nat → Bool := fun _ => false
  clock : Nat := 1
  editedAt : Int → Nat := fun _ => 0
  publishedAt : Int → Nat := fun _ => 0
  behind : Int → Option (LoadedChannel κ) := fun _ => none

variable {κ β α : Type}

namespace RefreshState

variable (s : RefreshState κ β α)

variable (channelID : Int)

def row? : Option κ :=
  (s.channels.find? fun c => c.1 = channelID).map (·.2)

def load : Option (LoadedChannel κ) :=
  (s.row? channelID).map fun row => ⟨channelID, row, s.clock⟩

def loadAll : List (LoadedChannel κ) :=
  s.channels.filterMap fun c => s.load c.1

def abilitiesOf : List β :=
  (s.abilities.filter fun a => a.1 = channelID).map (·.2)

def tick : RefreshState κ β α := { s with clock := s.clock + 1 }

def edited (channels : List (Int × κ)) : RefreshState κ β α :=
  { s.tick with channels := channels, editedAt := Function.update s.editedAt channelID s.clock }

/-- The snapshot of a channel swapped for one built from `channel`. -/
def published (channel : LoadedChannel κ) (db : CapabilityTables α) : RefreshState κ β α :=
  { s.tick with
    db := db
    publishedAt := Function.update s.publishedAt channel.id s.clock
    behind := Function.update s.behind channel.id (some channel) }

def saveChannel (row : κ) : RefreshState κ β α :=
  s.edited channelID ((channelID, row) :: s.channels.filter fun c => c.1 ≠ channelID)

def deleteChannel : RefreshState κ β α :=
  s.edited channelID (s.channels.filter fun c => c.1 ≠ channelID)

def saveAbilities (abilities : List β) : RefreshState κ β α :=
  { s with
    abilities := (s.abilities.filter fun a => a.1 ≠ channelID) ++
      abilities.map fun a => (channelID, a) }

end RefreshState

inductive RefreshCall (κ β : Type) where
  | lock (node : Nat)
  | unlock (node : Nat)
  | checkContext
  | findChannel (channelID : Int)
  | findChannels
  | findAbilities (channelID : Int)
  | findAllAbilities
  | snapshotMatches (channelID : Int) (sourceHash : String)
  | getFence (channel : LoadedChannel κ)
  | publish (channel : LoadedChannel κ) (abilities : List β) (sourceHash : String)
      (expected : ChannelCapabilitySnapshotFence) (now : Int)
  | markFailure (channelID : Int) (expected : ChannelCapabilitySnapshotFence)
      (sourceHash : String) (now : Int)
  | rebuildIndex
  | saveChannel (channelID : Int) (row : κ)
  | deleteChannel (channelID : Int)
  | saveAbilities (channelID : Int) (abilities : List β)

def RefreshAnswer : RefreshCall κ β → Type
  | .lock _ | .unlock _ => Unit
  | .checkContext => Except RefreshError Unit
  | .findChannel _ => Except RefreshError (Option (LoadedChannel κ))
  | .findChannels => Except RefreshError (List (LoadedChannel κ))
  | .findAbilities _ => Except RefreshError (List β)
  | .findAllAbilities => Except RefreshError (List (Int × β))
  | .snapshotMatches _ _ => Bool
  | .getFence _ => Except RefreshError ChannelCapabilitySnapshotFence
  | .publish .. | .markFailure .. => Except SnapshotError Unit
  | .rebuildIndex => Except RefreshError Unit
  | .saveChannel .. | .deleteChannel _ | .saveAbilities .. => Unit

def channelCapabilitySnapshotMatches (channelID : Int) (sourceHash catalogVersion : String)
    (db : CapabilityTables α) : Bool :=
  match db.snapshots channelID with
  | none => false
  | some snapshot =>
    snapshot.refreshStatus = .active && snapshot.sourceHash = sourceHash &&
      snapshot.catalogVersion = catalogVersion

variable (P : Projection κ β α)

def RefreshCall.exec : (c : RefreshCall κ β) → RefreshState κ β α →
    RefreshState κ β α × RefreshAnswer c
  | .lock node, s => ({ s with locked := Function.update s.locked node true }, ())
  | .unlock node, s => ({ s with locked := Function.update s.locked node false }, ())
  | .checkContext, s => (s, .ok ())
  | .findChannel channelID, s => (s.tick, .ok (s.load channelID))
  | .findChannels, s => (s.tick, .ok s.loadAll)
  | .findAbilities channelID, s => (s, .ok (s.abilitiesOf channelID))
  | .findAllAbilities, s => (s, .ok s.abilities)
  | .snapshotMatches channelID sourceHash, s =>
    (s, channelCapabilitySnapshotMatches channelID sourceHash P.catalogVersion s.db)
  | .getFence channel, s => (s, .ok (getChannelCapabilitySnapshotFence channel.id s.db))
  | .publish channel abilities sourceHash expected now, s =>
    match publishChannelCapabilitySnapshot channel.id expected sourceHash P.catalogVersion
        (P.projectChannelCapabilities channel.row abilities sourceHash) now s.db with
    | .ok db => (s.published channel db, .ok ())
    | .error e => (s, .error e)
  | .markFailure channelID expected sourceHash now, s =>
    match markChannelCapabilityRefreshFailure channelID expected sourceHash P.catalogVersion now
        s.db with
    | .ok db => ({ s with db := db }, .ok ())
    | .error e => (s, .error e)
  -- The index is rebuilt from the tables and lives in the memory of one node.
  | .rebuildIndex, s => (s, .ok ())
  | .saveChannel channelID row, s => (s.saveChannel channelID row, ())
  | .deleteChannel channelID, s => (s.deleteChannel channelID, ())
  | .saveAbilities channelID abilities, s => (s.saveAbilities channelID abilities, ())

def RefreshCall.ready : RefreshCall κ β → RefreshState κ β α → Bool
  | .lock node, s => !s.locked node
  | _, _ => true

/-- A database error, or a cancelled context at the check between two channels. -/
def RefreshCall.fault : (c : RefreshCall κ β) → Option (RefreshAnswer c)
  | .lock _ | .unlock _ => none
  | .checkContext => some (.error .cancelled)
  | .findChannel _ | .findChannels | .findAbilities _ | .findAllAbilities =>
    some (.error .database)
  | .snapshotMatches _ _ => some false
  | .getFence _ => some (.error .database)
  | .publish .. | .markFailure .. => some (.error .database)
  | .rebuildIndex => some (.error .database)
  | .saveChannel .. | .deleteChannel _ | .saveAbilities .. => some ()

def refreshMachine : Machine (RefreshCall κ β) RefreshAnswer (RefreshState κ β α) where
  exec := RefreshCall.exec P
  ready := RefreshCall.ready
  fault := RefreshCall.fault

abbrev Refresher (κ β ρ : Type) := Program (RefreshCall κ β) RefreshAnswer ρ

def ask (c : RefreshCall κ β) : Refresher κ β (RefreshAnswer c) := .call c .done

/-- The loser of a swap leaves the winner's snapshot alone. -/
def recordRefreshFailure (channelID : Int) (expected : ChannelCapabilitySnapshotFence)
    (sourceHash : String) (refreshErr : SnapshotError) (now : Int) :
    Refresher κ β RefreshError :=
  if refreshErr = .conflict then pure (.snapshot refreshErr)
  else do
    match ← ask (.markFailure channelID expected sourceHash now) with
    | .ok () => pure (.snapshot refreshErr)
    | .error e => pure (.join (.snapshot refreshErr) (.recordFailure e))

/-- Publication under a fence, and the failure marker when it fails. -/
def publishFenced (channel : LoadedChannel κ) (abilities : List β) (sourceHash : String)
    (expected : ChannelCapabilitySnapshotFence) (now : Int) :
    Refresher κ β (Except RefreshError Unit) := do
  match ← ask (.publish channel abilities sourceHash expected now) with
  | .ok () => pure (.ok ())
  | .error e => do
    let err ← recordRefreshFailure channel.id expected sourceHash e now
    pure (.error err)

def refreshOneChannel (channel : LoadedChannel κ) (abilities : List β) (rebuild : Bool)
    (now : Int) : Refresher κ β (Except RefreshError Unit) :=
  match P.channelCapabilityFingerprint channel.row abilities with
  | none => pure (.error .fingerprint)
  | some hash => do
    match ← ask (.getFence channel) with
    | .error e => pure (.error e)
    | .ok expected =>
      match ← publishFenced channel abilities hash expected now with
      | .error e => pure (.error e)
      | .ok () => if rebuild then ask .rebuildIndex else pure (.ok ())

/-- The part of `RefreshChannelCapabilitiesByID` under the lock. -/
def refreshByIDLocked (channelID now : Int) : Refresher κ β (Except RefreshError Unit) := do
  match ← ask (.findChannel channelID) with
  | .error e => pure (.error e)
  | .ok none => ask .rebuildIndex
  | .ok (some channel) =>
    match ← ask (.findAbilities channelID) with
    | .error e => pure (.error e)
    | .ok abilities => refreshOneChannel P channel abilities true now

def refreshChannelCapabilitiesByID (node : Nat) (channelID now : Int) :
    Refresher κ β (Except RefreshError Unit) :=
  if channelID ≤ 0 then pure (.error .channelIDRequired)
  else do
    let _ ← ask (.lock node)
    let r ← refreshByIDLocked P channelID now
    let _ ← ask (.unlock node)
    pure r

structure CapabilityRefreshSummary where
  scanned : Nat := 0
  refreshed : Nat := 0
  skipped : Nat := 0
  failed : Nat := 0

structure RefreshProgress where
  summary : CapabilityRefreshSummary := {}
  firstErr : Option RefreshError := none

namespace RefreshProgress

def fail (w : RefreshProgress) (e : RefreshError) : RefreshProgress :=
  { summary := { w.summary with failed := w.summary.failed + 1 }
    firstErr := some (w.firstErr.getD e) }

def skip (w : RefreshProgress) : RefreshProgress :=
  { w with summary := { w.summary with skipped := w.summary.skipped + 1 } }

def count (w : RefreshProgress) : Except RefreshError Unit → RefreshProgress
  | .error e => w.fail e
  | .ok () => { w with summary := { w.summary with refreshed := w.summary.refreshed + 1 } }

end RefreshProgress

/-- One round of the loop of `refreshAllChannels` after its context check. -/
def refreshLoadedChannel (fingerprintOnly : Bool) (channel : LoadedChannel κ) (abilities : List β)
    (now : Int) (w : RefreshProgress) : Refresher κ β RefreshProgress :=
  match P.channelCapabilityFingerprint channel.row abilities with
  | none => pure (w.fail .fingerprint)
  | some hash => do
    let same : Bool ← if fingerprintOnly then ask (.snapshotMatches channel.id hash) else pure false
    if same then pure w.skip
    else
      match ← ask (.getFence channel) with
      | .error e => pure (w.fail e)
      | .ok expected => do
        let r ← publishFenced channel abilities hash expected now
        pure (w.count r)

def refreshLoadedChannels (P : Projection κ β α) (fingerprintOnly : Bool)
    (abilities : List (Int × β)) (now : Int) :
    List (LoadedChannel κ) → RefreshProgress → Refresher κ β RefreshProgress
  | [], w => do
    match ← ask .rebuildIndex with
    | .ok () => pure w
    | .error e => pure { w with firstErr := some (w.firstErr.getD e) }
  | channel :: rest, w => do
    match ← ask .checkContext with
    | .error e => pure { w with firstErr := some e }
    | .ok () => do
      let byChannel := (abilities.filter fun a => a.1 = channel.id).map (·.2)
      let w ← refreshLoadedChannel P fingerprintOnly channel byChannel now w
      refreshLoadedChannels P fingerprintOnly abilities now rest w

def refreshAllChannels (fingerprintOnly : Bool) (now : Int) : Refresher κ β RefreshProgress := do
  match ← ask .findChannels with
  | .error e => pure { firstErr := some e }
  | .ok channels =>
    match ← ask .findAllAbilities with
    | .error e => pure { firstErr := some e }
    | .ok abilities =>
      refreshLoadedChannels P fingerprintOnly abilities now channels
        { summary := { scanned := channels.length } }

def refreshStaleChannelCapabilities (node : Nat) (now : Int) : Refresher κ β RefreshProgress := do
  let _ ← ask (.lock node)
  let w ← refreshAllChannels P true now
  let _ ← ask (.unlock node)
  pure w

def initRouteCapabilityIndex (now : Int) : Refresher κ β RefreshProgress :=
  refreshAllChannels P false now

inductive RefreshJob (κ β : Type) where
  | byID (node : Nat) (channelID now : Int)
  | stale (node : Nat) (now : Int)
  | init (now : Int)
  | saveChannel (channelID : Int) (row : κ)
  | deleteChannel (channelID : Int)
  | saveAbilities (channelID : Int) (abilities : List β)

def RefreshJob.program : RefreshJob κ β → Refresher κ β Unit
  | .byID node channelID now => do
    let _ ← refreshChannelCapabilitiesByID P node channelID now
  | .stale node now => do
    let _ ← refreshStaleChannelCapabilities P node now
  | .init now => do
    let _ ← initRouteCapabilityIndex P now
  | .saveChannel channelID row => ask (.saveChannel channelID row)
  | .deleteChannel channelID => ask (.deleteChannel channelID)
  | .saveAbilities channelID abilities => ask (.saveAbilities channelID abilities)

end Ren2Hub.Routing
