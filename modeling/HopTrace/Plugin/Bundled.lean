import HopTrace.Address.Text
import HopTrace.Json.Value
import HopTrace.Plugin.Basic

/-!
# The bundled plugins

One does nothing. The other logs the progress of the trace unless its level,
a whole number of 32 bits, is above a threshold.
-/

namespace HopTrace.Plugin

def idle : Plugin := { name := "default" }

/-- The highest level at which progress is logged. -/
def progressThreshold : Int := 2

def progressLine (level : Int) (message : String) (fields : List (String × Log.Field)) :
    Reaction Unit :=
  if level ≤ progressThreshold then
    { effects := { log := [⟨.info, message, ("debug_level", .number level) :: fields⟩] }
      result := .ok () }
  else { result := .ok () }

/-- Logs hop changes, new addresses and completed hops. -/
def progress (level : Int) : Plugin where
  name := "debug"
  onTtlChange _ ttl := progressLine level "TTL changed" [("ttl", .number ttl.toNat)]
  onNewIpFound _ a := progressLine level "New IP found" [("ip", .text a.text)]
  onTtlCompleted _ ttl hops :=
    progressLine level "TTL completed" [
      ("ttl", .number ttl.toNat),
      ("probes", .number hops.length),
      ("replies", .number (hops.countP (·.success)))]

/-- Takes any parameters. -/
def idle? (_ : Json.Value) : Option Plugin := some idle

/-- Takes a level and nothing else. -/
def progress? (params : Json.Value) : Option Plugin := do
  let level ← params.toInt64?
  if -0x80000000 ≤ level ∧ level < 0x80000000 then some (progress level) else none

end HopTrace.Plugin
