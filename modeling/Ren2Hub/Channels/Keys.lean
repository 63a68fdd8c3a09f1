import Ren2Hub.Lib.Crew

namespace Ren2Hub.Channels
open Lib

def channelStatusEnabled : Int := 1
def channelStatusAutoDisabled : Int := 3

inductive MultiKeyMode where
  | random
  | polling
  | unknown
deriving DecidableEq, Repr

/-- A Go map from key indexes. A missing map reads like an empty one. -/
abbrev KeyMap (α : Type) := Nat → Option α

namespace KeyMap
variable {α : Type}

def set (m : KeyMap α) (i : Nat) (a : α) : KeyMap α := fun j => if j = i then some a else m j

def erase (m : KeyMap α) (i : Nat) : KeyMap α := fun j => if j = i then none else m j

end KeyMap

structure ChannelInfo where
  isMultiKey : Bool := true
  multiKeyStatusList : KeyMap Int := fun _ => none
  multiKeyDisabledReason : KeyMap String := fun _ => none
  multiKeyDisabledTime : KeyMap Int := fun _ => none
  multiKeyPollingIndex : Int := 0
  multiKeyMode : MultiKeyMode := .polling

structure StatusInfo where
  statusReason : String
  statusTime : Int

/-- `keys` is what `GetKeys` reads from the column `key`. -/
structure Channel where
  key : String := ""
  keys : List String
  status : Int := channelStatusEnabled
  otherInfo : Option StatusInfo := none
  info : ChannelInfo := {}

/-- The index is enabled: the list has nothing else for it. -/
def keyEnabled (statusList : KeyMap Int) (i : Nat) : Bool :=
  (statusList i).getD channelStatusEnabled = channelStatusEnabled

def hasEnabledMultiKey (keys : List String) (statusList : KeyMap Int) : Bool :=
  (List.range keys.length).any (keyEnabled statusList)

/-- The arguments of a call of `UpdateChannelStatus`, and when it asks for the time. -/
structure StatusUpdate where
  usingKey : String
  status : Int
  reason : String
  time : Int

def ChannelInfo.setKey (info : ChannelInfo) (keyIndex : Nat) (u : StatusUpdate) : ChannelInfo :=
  if u.status = channelStatusEnabled then
    { info with multiKeyStatusList := info.multiKeyStatusList.erase keyIndex }
  else
    { info with
      multiKeyStatusList := info.multiKeyStatusList.set keyIndex u.status
      multiKeyDisabledReason := info.multiKeyDisabledReason.set keyIndex u.reason
      multiKeyDisabledTime := info.multiKeyDisabledTime.set keyIndex u.time }

section
variable (channel : Channel)

def handlerMultiKeyUpdate (u : StatusUpdate) : Channel :=
  if channel.keys = [] then { channel with status := u.status }
  else
    match channel.keys.idxOf? u.usingKey with
    | none =>
      if u.usingKey ≠ "" then channel
      else { channel with status := u.status, otherInfo := some ⟨u.reason, u.time⟩ }
    | some keyIndex =>
      let channel := { channel with info := channel.info.setKey keyIndex u }
      if !hasEnabledMultiKey channel.keys channel.info.multiKeyStatusList then
        { channel with
          status := channelStatusAutoDisabled
          otherInfo := some ⟨"All keys are disabled", u.time⟩ }
      else if u.status = channelStatusEnabled then { channel with status := channelStatusEnabled }
      else channel

/-- What `UpdateChannelStatus` makes of the row it read. -/
def statusUpdated (u : StatusUpdate) : Channel :=
  if channel.info.isMultiKey then handlerMultiKeyUpdate channel u
  else { channel with status := u.status, otherInfo := some ⟨u.reason, u.time⟩ }

/-- The columns of `channel` that are written to `row`. -/
def saveStatusState (channel row : Channel) : Channel :=
  { row with
    status := channel.status
    otherInfo := channel.otherInfo
    info := if channel.info.isMultiKey then channel.info else row.info }

def saveChannelInfo (channel row : Channel) : Channel := { row with info := channel.info }

inductive KeyError where
  | noKeysAvailable
  | noEnabledKeys
  | noUntriedEnabledKeys

def Channel.enabledKeyIndexes : List Nat :=
  (List.range channel.keys.length).filter (keyEnabled channel.info.multiKeyStatusList)

def remainingIndexes (excluded : List Nat) : List Nat :=
  channel.enabledKeyIndexes.filter (· ∉ excluded)

def pollIndex (excluded : List Nat) (pollingIndex : Int) : Option Nat :=
  let start :=
    if pollingIndex < 0 ∨ (channel.keys.length : Int) ≤ pollingIndex then 0
    else pollingIndex.toNat
  ((List.range channel.keys.length).map fun i => (start + i) % channel.keys.length).find?
    fun idx => idx ∉ excluded && idx ∈ channel.enabledKeyIndexes

/-- The polling loop: the index, and the channel with the next polling index. -/
def pollKey (excluded : List Nat) (pollingIndex : Int) : Channel × Nat :=
  match pollIndex channel excluded pollingIndex with
  | some idx =>
    ({ channel with info := { channel.info with
        multiKeyPollingIndex := ((idx + 1) % channel.keys.length : Nat) } }, idx)
  | none => (channel, (remainingIndexes channel excluded).headD 0)

abbrev KeyChoice := Except KeyError (String × Nat)

def Channel.keyAt (i : Nat) : String := (channel.keys[i]?).getD ""

end

/-- `stored` and `disabled` are not in the source: how many calls of `UpdateChannelStatus` wrote the
row, and the indexes they disabled and did not enable since. -/
structure KeyStore where
  row : Channel
  locked : Bool := false
  stored : Nat := 0
  disabled : List Nat := []

def StatusUpdate.target (u : StatusUpdate) (channel : Channel) : Option Nat :=
  channel.keys.idxOf? u.usingKey

def KeyStore.store (s : KeyStore) (u : StatusUpdate) (channel : Channel) : KeyStore :=
  { s with
    row := saveStatusState channel s.row
    stored := s.stored + 1
    disabled :=
      match u.target channel with
      | none => s.disabled
      | some k =>
        if u.status = channelStatusEnabled then s.disabled.filter (· ≠ k) else k :: s.disabled }

/-- A row as a request loaded it, with what had been stored and disabled by then. -/
structure Loaded where
  channel : Channel
  since : Nat
  barred : List Nat

/-- A request or a call of `UpdateChannelStatus` under way. `pick` is what `rand.Intn`
returns. -/
inductive KeyJob where
  | loading (excluded : List Nat) (pick : Nat)
  | waiting (c : Loaded) (excluded : List Nat) (pick : Nat)
  | reading (c : Loaded) (excluded : List Nat)
  | saving (c : Loaded) (choice : KeyChoice)
  | selected (choice : KeyChoice) (barred : List Nat)
  | updating (u : StatusUpdate)
  | fetching (u : StatusUpdate)
  | storing (u : StatusUpdate) (channel : Channel)
  | updated (changed : Bool)

/-- `GetNextEnabledKeyExcluding` before it takes the lock. -/
def selectUnlocked (channel : Channel) (excluded : List Nat) : Option KeyChoice :=
  if !channel.info.isMultiKey then
    some (if 0 ∈ excluded then .error .noUntriedEnabledKeys else .ok (channel.key, 0))
  else if channel.keys = [] then some (.error .noKeysAvailable)
  else none

/-- The choice by mode, under the lock; nothing when the polling index has to be read. -/
def selectLocked (channel : Channel) (excluded : List Nat) (pick : Nat) : Option KeyChoice :=
  if channel.enabledKeyIndexes = [] then some (.error .noEnabledKeys)
  else
    let remaining := remainingIndexes channel excluded
    if remaining = [] then some (.error .noUntriedEnabledKeys)
    else
      match channel.info.multiKeyMode with
      | .random =>
        let idx := (remaining[pick % remaining.length]?).getD 0
        some (.ok (channel.keyAt idx, idx))
      | .unknown => some (.ok (channel.keyAt (remaining.headD 0), remaining.headD 0))
      | .polling => none

def Channel.withPollingIndex (channel : Channel) (index : Int) : Channel :=
  { channel with info := { channel.info with multiKeyPollingIndex := index } }

/-- The choice, if it is made without the polling index. -/
def selectUnpolled (channel : Channel) (excluded : List Nat) (pick : Nat) : Option KeyChoice :=
  selectUnlocked channel excluded <|> selectLocked channel excluded pick

/-- A call with nobody else at the channel. With the memory cache on it is made on the cached
channel, which is `shared`. With the cache off `shared` is the row and the call is made on a copy,
which may have a polling index of its `own`. -/
def getNextEnabledKeyExcluding (memoryCache : Bool) (shared : Channel) (own : Int)
    (excluded : List Nat) (pick : Nat) : Channel × KeyChoice :=
  let channel := if memoryCache then shared else shared.withPollingIndex own
  match selectUnpolled channel excluded pick with
  | some choice => (shared, choice)
  | none =>
    let (channel, idx) := pollKey channel excluded shared.info.multiKeyPollingIndex
    (if memoryCache then channel else saveChannelInfo channel shared,
      .ok (channel.keyAt idx, idx))

def KeyJob.step : KeyJob → KeyStore → KeyStore × KeyJob
  | .loading excluded pick, s => (s, .waiting ⟨s.row, s.stored, s.disabled⟩ excluded pick)
  | .waiting c excluded pick, s =>
    match selectUnlocked c.channel excluded with
    | some choice => (s, .selected choice c.barred)
    | none =>
      if s.locked then (s, .waiting c excluded pick)
      else
        -- nothing shared is read without polling, so the lock is left again at once
        match selectLocked c.channel excluded pick with
        | some choice => (s, .selected choice c.barred)
        | none => ({ s with locked := true }, .reading c excluded)
  | .reading c excluded, s =>
    let (channel, idx) := pollKey c.channel excluded s.row.info.multiKeyPollingIndex
    (s, .saving { c with channel } (.ok (channel.keyAt idx, idx)))
  | .saving c choice, s =>
    ({ s with row := saveChannelInfo c.channel s.row, locked := false },
      .selected choice c.barred)
  | .selected choice barred, s => (s, .selected choice barred)
  | .updating u, s =>
    if s.locked then (s, .updating u) else ({ s with locked := true }, .fetching u)
  | .fetching u, s =>
    if s.row.status = u.status then ({ s with locked := false }, .updated false)
    else (s, .storing u (statusUpdated s.row u))
  | .storing u channel, s => ({ s.store u channel with locked := false }, .updated true)
  | .updated changed, s => (s, .updated changed)

abbrev KeyWorld := Crew KeyStore KeyJob

inductive KeyEvent where
  | request (excluded : List Nat) (pick : Nat)
  | updateChannelStatus (u : StatusUpdate)
  | step (i : Nat)

def KeyWorld.on (w : KeyWorld) : KeyEvent → KeyWorld
  | .request excluded pick => Crew.join w (.loading excluded pick)
  | .updateChannelStatus u => Crew.join w (.updating u)
  | .step i => Crew.step KeyJob.step w i

structure CachedChannel where
  cache : Channel
  row : Channel

/-- The branch on the cached channel; nothing when the call ends there. -/
def cacheStatus (cache : Channel) (u : StatusUpdate) : Option Channel :=
  if cache.info.isMultiKey then some (handlerMultiKeyUpdate cache u)
  else if cache.status = u.status then none
  else some { cache with status := u.status }

def rowStatus (row : Channel) (u : StatusUpdate) : Channel :=
  if row.status = u.status then row else saveStatusState (statusUpdated row u) row

def updateChannelStatus (c : CachedChannel) (u : StatusUpdate) : CachedChannel :=
  match cacheStatus c.cache u with
  | none => c
  | some cache => ⟨cache, rowStatus c.row u⟩

/-- What `InitChannelCache` makes of the cached channel. -/
def initChannelCache (c : CachedChannel) : CachedChannel :=
  let keepsIndex (channel : Channel) : Bool :=
    channel.info.isMultiKey && channel.info.multiKeyMode = .polling
  { c with cache :=
      if keepsIndex c.row && keepsIndex c.cache then
        { c.row with info := { c.row.info with
            multiKeyPollingIndex := c.cache.info.multiKeyPollingIndex } }
      else c.row }

end Ren2Hub.Channels
