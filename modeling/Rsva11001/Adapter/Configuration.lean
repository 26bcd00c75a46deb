import Rsva11001.Adapter.Requests

/-!
# The configuration in the environment

`readConfiguration` copies the host, the password and the user name out of the environment and
reads the number of cameras. The copies are made with `strcpy`.
-/

namespace Rsva11001

open Lib

/-- The sizes of the fields of the globals. -/
def HOST_SIZE : Nat := 256
def PASSWORD_SIZE : Nat := 64
def USERNAME_SIZE : Nat := 64

/-- The value of a variable: a string that ends at its first NUL. -/
structure EnvValue where
  bytes : CString
  no_nul : 0 ∉ bytes

/-- What `getenv` returns for the variables of the program, `none` for one that is not set. -/
structure Environment where
  RSVA11001_HOST : Option EnvValue
  RSVA11001_PASSWORD : Option EnvValue
  RSVA11001_USERNAME : Option EnvValue
  RSVA11001_NUM_CAMERAS : Option EnvValue

/-- `strcpy` to a field of `size` bytes. The source may be a NULL pointer. -/
def strcpy (size : Nat) (src : Option EnvValue) : Except Halt CString :=
  access .configurationCopy
    (src.bind fun v => if v.bytes.length < size then some v.bytes else none)

/-- `strtoul` on the value of a variable. -/
def EnvValue.strtoul (v : EnvValue) : Except Halt Strtoul :=
  access .numCamerasValue (Rsva11001.strtoul (v.bytes ++ [0]))

namespace Globals

variable {P : HttpParser}

/-- `bzero` of the globals. -/
def zeroed (P : HttpParser) : Globals P :=
  configured P [] [] [] 0

/-- `readConfiguration` -/
def readConfiguration (g : Globals P) (env : Environment) : Except Halt (Bool × Globals P) :=
  if env.RSVA11001_HOST.isNone then .ok (false, g)
  else if env.RSVA11001_PASSWORD.isNone then .ok (false, g)
  else if env.RSVA11001_HOST.isNone then .ok (false, g)
  else
    match env.RSVA11001_NUM_CAMERAS with
    | none => .ok (false, g)
    | some numCameras => do
      let host ← strcpy HOST_SIZE env.RSVA11001_HOST
      let password ← strcpy PASSWORD_SIZE env.RSVA11001_PASSWORD
      let username ← strcpy USERNAME_SIZE env.RSVA11001_USERNAME
      let g := { g with host, password, username }
      let r ← numCameras.strtoul
      if r.value = ULONG_MAX ∧ r.erange then return (false, g)
      else if r.value ≥ MAX_NUM_CAMERAS ∨ r.value > UINT_MAX then return (false, g)
      else return (true, { g with numCameras := r.value % 2 ^ 32 })

end Globals

end Rsva11001
