import BackendFoundation.Errors
import BackendFoundation.Lib.Calls
import BackendFoundation.Lib.Interleave

/-! # Push devices

`registerDevice` and `unregisterDevice` of `users.service.ts` and `sendPush` of `providers.ts`, over the
table of devices, a statement or a request a step, beside any others and the erasure of accounts.

Every read and write of the client leaves out the rows that are deleted, as `prisma.ts` adds the filter;
the unique index on the token has them. A push is sent to up to 500 tokens at a time, and the tokens that
are found stale are removed from the table. What a push says is left out. -/

namespace BackendFoundation.Notifications.Devices

open Errors Lib Lib.Interleave

structure Device where
  id : ℕ
  userId : String
  fcmToken : String
  platform : Option String := none
  lastSeenAt : ℕ
  deletedAt : Option ℕ := none
deriving DecidableEq

/-- A request to the messaging service for some tokens of a user, by the call that sent it. -/
structure Multicast where
  sender : ℕ
  userId : String
  tokens : List String
deriving DecidableEq

structure DeviceState where
  now : ℕ := 0
  devices : List Device := []
  nextDevice : ℕ := 0
  sent : List Multicast := []

namespace DeviceState
variable (s : DeviceState)

/-- `device.findUnique({ where: { fcmToken } })` -/
def findDevice (token : String) : Option Device :=
  s.devices.find? fun d => d.fcmToken = token ∧ d.deletedAt = none

/-- `device.update({ where: { id, userId } })`, with the new platform if one is given. -/
def updateDevice (id : ℕ) (userId : String) (platform : Option String) : Except Thrown DeviceState :=
  if s.devices.any (fun d => d.id = id ∧ d.userId = userId ∧ d.deletedAt = none) then
    .ok { s with devices := s.devices.map fun d =>
      if d.id = id ∧ d.userId = userId ∧ d.deletedAt = none then
        { d with platform := platform.or d.platform, lastSeenAt := s.now }
      else d }
  else .error (.prisma "P2025" "No record was found for an update.")

/-- `device.create` -/
def createDevice (userId token : String) (platform : Option String) : Except Thrown DeviceState :=
  if s.devices.any (fun d => d.fcmToken = token) then
    .error (.prisma "P2002" "Unique constraint failed on the fields: (`fcmToken`)")
  else
    .ok { s with
      devices := s.devices ++
        [{ id := s.nextDevice, userId, fcmToken := token, platform, lastSeenAt := s.now }]
      nextDevice := s.nextDevice + 1 }

/-- The transaction of `unregisterDevice`, and the number of devices that it removes. -/
def unregister (id : ℕ) (userId : String) : DeviceState × ℕ :=
  let matching (d : Device) : Bool := d.id = id ∧ d.userId = userId ∧ d.deletedAt = none
  let remove (d : Device) : Device := if matching d then { d with deletedAt := some s.now } else d
  ({ s with devices := s.devices.map remove }, (s.devices.filter matching).length)

/-- The tokens of `device.findMany({ where: { userId } })`. -/
def tokensOf (userId : String) : List String :=
  (s.devices.filter fun d => d.userId = userId ∧ d.deletedAt = none).map (·.fcmToken)

/-- `device.deleteMany` of the devices that meet the condition. -/
def deleteDevices (cond : Device → Bool) : DeviceState :=
  { s with devices := s.devices.filter fun d => !(cond d && d.deletedAt.isNone) }

def send (m : Multicast) : DeviceState := { s with sent := s.sent ++ [m] }

end DeviceState

/-- `chunks`, of at most `size` values each. -/
def chunksFrom (size : ℕ) : ℕ → List String → List (List String)
  | 0, _ | _ + 1, [] => []
  | fuel + 1, value :: values =>
    (value :: values).take size :: chunksFrom size fuel ((value :: values).drop size)

def chunks (values : List String) (size : ℕ) : List (List String) := chunksFrom size values.length values

/-! ### Calls -/

inductive DeviceCall
  | register (userId token : String) (platform : Option String)
  | unregister (userId : String) (deviceId : ℕ)
  | sendPush (userId : String)
deriving DecidableEq

inductive DevicePc
  | begin
  /-- `registerDevice` after it has found the device or none. -/
  | update (id : ℕ)
  | create
  /-- `sendPush` with these batches to go. -/
  | send (batches : List (List String))
  | removeStale (stale : List String) (batches : List (List String))
  | registered (id : ℕ)
  | unregistered (removed : Bool)
  /-- `sendPush` has returned `sent`, or `suppressed`. -/
  | pushed (sent : Bool)
  | thrown (e : Thrown)
deriving DecidableEq

/-- What the surroundings choose: the fate of a statement or request, and the tokens that the messaging
service no longer knows. -/
structure DeviceChoice where
  outcome : Outcome Thrown := .ok
  stale : List String := []

/-- `assertResourceOwner` throws it. -/
def notOwner : Thrown := .app (forbidden "You do not have permission to perform this action")

/-- `firebase` if the service is configured. -/
def deviceStep (firebase : Bool) (s : DeviceState) (pid : ℕ) (call : DeviceCall) (pc : DevicePc)
    (c : DeviceChoice) : Option (DeviceState × DevicePc) :=
  match call, pc with
  | .register userId token _, .begin =>
    let next : DevicePc :=
      match s.findDevice token with
      | none => .create
      | some existing => if existing.userId = userId then .update existing.id else .thrown notOwner
    some (c.outcome.read s next .thrown)
  | .register userId _ platform, .update id =>
    match s.updateDevice id userId platform with
    | .ok t => some (c.outcome.run s t (.registered id) .thrown)
    | .error e => some (c.outcome.read s (.thrown e) .thrown)
  | .register userId token platform, .create =>
    match s.createDevice userId token platform with
    | .ok t => some (c.outcome.run s t (.registered s.nextDevice) .thrown)
    | .error e => some (c.outcome.read s (.thrown e) .thrown)
  | .unregister userId deviceId, .begin =>
    let removed := s.unregister deviceId userId
    some (c.outcome.run s removed.1 (.unregistered (removed.2 = 1)) .thrown)
  | .sendPush userId, .begin =>
    let tokens := s.tokensOf userId
    let next : DevicePc :=
      if tokens = [] then .pushed false
      else if firebase then .send (chunks tokens 500)
      else .pushed true
    some (c.outcome.read s next .thrown)
  | .sendPush _, .send [] => some (s, .pushed true)
  | .sendPush userId, .send (batch :: batches) =>
    let stale := batch.filter (· ∈ c.stale)
    let next : DevicePc := if stale = [] then .send batches else .removeStale stale batches
    some (c.outcome.run s (s.send ⟨pid, userId, batch⟩) next .thrown)
  | .sendPush _, .removeStale stale batches =>
    some (c.outcome.run s (s.deleteDevices fun d => d.fcmToken ∈ stale) (.send batches) .thrown)
  | _, _ => none

/-! ### The system -/

inductive DeviceEvent
  | tick (ms : ℕ)
  /-- `deleteAccount`. -/
  | erase (userId : String)

def deviceEvent (s : DeviceState) : DeviceEvent → Option DeviceState
  | .tick ms => some { s with now := s.now + ms }
  | .erase userId => some (s.deleteDevices fun d => d.userId = userId)

structure DeviceProc where
  call : DeviceCall
  pc : DevicePc
deriving DecidableEq

/-- **The devices**, with any calls beside each other. -/
def system (firebase : Bool) : Program DeviceState DeviceProc DeviceCall DeviceChoice DeviceEvent where
  init := {}
  spawn s _ call := some (s, ⟨call, .begin⟩)
  step s pid p c := (deviceStep firebase s pid p.call p.pc c).map fun r => (r.1, ⟨p.call, r.2⟩)
  env := deviceEvent

abbrev DeviceWorld := World DeviceState DeviceProc

end BackendFoundation.Notifications.Devices
