import Mikrouli.Lib.Rego

/-! The policy for the Deployment of Jaeger, `k8s/policy/jaeger.rego`. -/

namespace Mikrouli.JaegerPolicy

open Rego

/-- 1Gi -/
def limitFloorBytes : ℚ := 1073741824

/-- 256Mi -/
def requestFloorBytes : ℚ := 268435456

/-- 24h -/
def ttlCapMinutes : ℚ := 1440

def ttlEnvName : String := "BADGER_SPAN_STORAGE_TTL"

/-- The containers that give the rule a value. -/
def jaegerContainers (input : Term) : List Term :=
  if input.ref ["kind"] = some (.string "Deployment") ∧
      input.ref ["metadata", "name"] = some (.string "jaeger") then
    (each (input.ref ["spec", "template", "spec", "containers"])).filter fun container =>
      container.ref ["name"] = some (.string "jaeger")
  else []

def jaegerContainer (input : Term) : Except Conflict (Option Term) :=
  complete (jaegerContainers input)

def podSecurityContext (input : Term) : Option Term :=
  input.ref ["spec", "template", "spec", "securityContext"]

variable (B : Builtins)

/-- An alternative for one suffix. -/
def inUnit (value : Term) (suffix : String) (factor : ℚ) : Option ℚ :=
  if endsWith value suffix then
    ((trimSuffix value suffix).bind (toNumber B)).map (· * factor)
  else none

/-- The first alternative that is defined. -/
def quantityToBytes (value : Term) : Option ℚ :=
  (inUnit B value "Gi" 1073741824).or ((inUnit B value "Mi" 1048576).or
    ((inUnit B value "Ki" 1024).or (toNumber B value)))

def durationToMinutes (value : Term) : Option ℚ :=
  (inUnit B value "h" 60).or
    (if endsWith value "m" then (trimSuffix value "m").bind (toNumber B) else none)

/-! ### Messages -/

/-- The memory in `field` is below its floor. -/
def belowFloor (field : List String) (floor : ℚ) (format : String) (container : Term) :
    List String :=
  ((container.ref field).bind fun memory =>
    (quantityToBytes B memory).bind fun bytes =>
      if bytes < floor then some (B.sprintf format [memory]) else none).toList

def denyLimit : Term → List String :=
  belowFloor B ["resources", "limits", "memory"] limitFloorBytes
    "jaeger memory limit %s is below the 1Gi floor"

def denyRequest : Term → List String :=
  belowFloor B ["resources", "requests", "memory"] requestFloorBytes
    "jaeger memory request %s is below the 256Mi floor"

/-- The entries of the environment that set the time to live. -/
def ttlEntries (container : Term) : List Term :=
  (each (container.ref ["env"])).filter fun env => env.ref ["name"] = some (.string ttlEnvName)

def denyTtl (container : Term) : List String :=
  (ttlEntries container).filterMap fun env =>
    (env.ref ["value"]).bind fun value =>
      (durationToMinutes B value).bind fun minutes =>
        if ttlCapMinutes < minutes then
          some (B.sprintf "jaeger %s %s exceeds the 24h cap" [.string ttlEnvName, value])
        else none

/-- The field is another value than the one it must be. -/
def denyOther (field : Option Term) (required : Term) (msg : String) : List String :=
  match field with
  | none => []
  | some value => if value ≠ required then [msg] else []

def denyWritable (container : Term) : List String :=
  denyOther (container.ref ["securityContext", "readOnlyRootFilesystem"]) (.bool true)
    "jaeger container must set securityContext.readOnlyRootFilesystem to true"

def denyRoot (podSecurityContext : Option Term) : List String :=
  denyOther (podSecurityContext.bind (·.ref ["runAsNonRoot"])) (.bool true)
    "jaeger pod must set securityContext.runAsNonRoot to true"

def dropsAllCapabilities (container : Term) : Bool :=
  (each (container.ref ["securityContext", "capabilities", "drop"])).any fun capability =>
    capability = .string "ALL"

def denyCapabilities (container : Term) : List String :=
  if dropsAllCapabilities container then [] else ["jaeger container must drop ALL capabilities"]

def denySeccomp (podSecurityContext : Option Term) : List String :=
  denyOther (podSecurityContext.bind (·.ref ["seccompProfile", "type"])) (.string "RuntimeDefault")
    "jaeger pod must set seccompProfile.type to RuntimeDefault"

/-- What the rules say of a container. -/
def messages (podSecurityContext : Option Term) (container : Term) : List String :=
  denyLimit B container ++ denyRequest B container ++ denyTtl B container ++
    denyWritable container ++ denyRoot podSecurityContext ++ denyCapabilities container ++
    denySeccomp podSecurityContext

/-- Every rule is about the container of Jaeger. -/
def deny (input : Term) : Except Conflict (List String) :=
  (jaegerContainer input).map fun
    | none => []
    | some container => messages B (podSecurityContext input) container

end Mikrouli.JaegerPolicy
