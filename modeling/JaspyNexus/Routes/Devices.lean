import Mathlib
import JaspyNexus.Lib.Text
import JaspyNexus.Models.Calls
import JaspyNexus.Utilities.Deletion

/-! # Devices added and removed by hand

`device_create` and `device_delete` of `routes/api/v1.rs`, with what `create` of
`routes/dev/device.rs` does otherwise: a device is keyed by its name and domain, and one
that is on record is refused by the former. -/

namespace JaspyNexus.Routes
open JaspyNexus.Lib JaspyNexus.Lib.Text JaspyNexus.Models

/-- `validated_device_identity`. -/
def validatedDeviceIdentity (name dnsDomain : String) : Except String (String × String) :=
  if trim name = "" || trim dnsDomain = "" then
    .error "device requires a fully-qualified name (hostname.domain)"
  else .ok (trim name, trim dnsDomain)

/-- What `device_create` answers; a failed insert answers with the database's error. -/
inductive DeviceCreated where
  | created (device : Device)
  | badRequest (error : String)
  | conflict (error : String)
  | internalServerError
  deriving DecidableEq, Repr

/-- `device_create`. -/
def deviceCreate (submitted : NewDevice) : Prog Call DeviceCreated :=
  match validatedDeviceIdentity submitted.name submitted.dnsDomain with
  | .error e => .done (.badRequest e)
  | .ok (name, dnsDomain) =>
    let new := { submitted with name := name, dnsDomain := dnsDomain }
    (Prog.lift (.findDevice new.name new.dnsDomain)).bind fun
      | some _ => .done (.conflict ("device already exists: " ++ new.name ++ "." ++ new.dnsDomain))
      | none =>
        (Prog.lift (.createDevice new)).bind fun
          | none => .done .internalServerError
          | some device =>
            (Prog.lift .invalidateWeathermap).bind fun _ =>
            (Prog.lift (.publish (.created device.fqdn))).bind fun _ => .done (.created device)

/-- `create` of `routes/dev/device.rs`. -/
def create (new : NewDevice) : Prog Call (Option Device) :=
  (Prog.lift (.createDevice new)).bind fun
    | none => .done none
    | some device =>
      (Prog.lift .invalidateWeathermap).bind fun _ =>
      (Prog.lift (.publish (.created device.fqdn))).bind fun _ => .done (some device)

/-- `device_delete`, and `delete` of `routes/dev/device.rs`, up to the event that is
published at the end. -/
def deviceDelete (deviceFqdn : String) : Prog Call (Option Device) :=
  match Utilities.Discovery.splitFqdn deviceFqdn with
  | none => .done none
  | some (hostname, domain) =>
    (Prog.lift (.findDevice hostname domain)).bind fun
      | none => .done none
      | some oldDevice =>
        (Utilities.Discovery.deleteDevice oldDevice.id).bind fun deleted =>
          if deleted then (Prog.lift .invalidateWeathermap).bind fun _ => .done (some oldDevice)
          else .done none

end JaspyNexus.Routes
