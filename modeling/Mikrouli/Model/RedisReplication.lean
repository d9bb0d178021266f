import Mikrouli.Lib.NetworkPolicies

/-! The policy for the replication of Redis, `k8s/policy/redis-replication.rego`. Its input is a list of
documents, each with its path. -/

namespace Mikrouli.RedisReplication

open Rego

def redisNameLabel : String := "app.kubernetes.io/name"

def redisName : String := "redis"

def componentLabel : String := "app.kubernetes.io/component"

def primaryComponent : String := "primary"

def replicaComponent : String := "replica"

def replicationPort : ℕ := 6379

def networkPolicies (input : Term) : List Term :=
  (each (some input)).filterMap fun doc =>
    (doc.ref ["contents"]).filter fun policy => policy.ref ["kind"] = some (.string "NetworkPolicy")

def labelsMatch (selector : Option Term) (appName component : String) : Bool :=
  decide (selector.bind (·.ref ["matchLabels", redisNameLabel]) = some (.string appName)) &&
    decide (selector.bind (·.ref ["matchLabels", componentLabel]) = some (.string component))

/-- No rule of the policy asks for it. -/
def bareScopeSelector (selector : Term) : Bool :=
  decide (selector.ref ["matchLabels", redisNameLabel] = some (.string redisName)) &&
    match selector.ref ["matchLabels", componentLabel] with
    | none | some (.bool false) => true
    | some _ => false

/-- A rule with an entry for the port and a peer with both labels. -/
def permitsPods (peers component : String) (rule : Term) : Bool :=
  ((each (rule.ref ["ports"])).any fun port =>
    port.ref ["port"] = some (.number replicationPort)) &&
  (each (rule.ref [peers])).any fun peer => labelsMatch (peer.ref ["podSelector"]) redisName component

def permitsEgressToPods : Term → Bool := permitsPods "to" primaryComponent

def permitsIngressFromPods : Term → Bool := permitsPods "from" replicaComponent

/-- A policy of the type, for the component, with such a rule. -/
def hasRule (type component rules : String) (permits : Term → Bool) (policy : Term) : Bool :=
  decide (.string type ∈ each (policy.ref ["spec", "policyTypes"])) &&
    labelsMatch (policy.ref ["spec", "podSelector"]) redisName component &&
    (each (policy.ref ["spec", rules])).any permits

def hasReplicaEgressToPrimary (input : Term) : Bool :=
  (networkPolicies input).any (hasRule "Egress" replicaComponent "egress" permitsEgressToPods)

def hasPrimaryIngressFromReplica (input : Term) : Bool :=
  (networkPolicies input).any (hasRule "Ingress" primaryComponent "ingress" permitsIngressFromPods)

def deny (input : Term) : List String :=
  (if hasReplicaEgressToPrimary input then []
    else ["missing egress from redis replica to primary on TCP 6379"]) ++
  (if hasPrimaryIngressFromReplica input then []
    else ["missing ingress to redis primary from replica on TCP 6379"])

/-! ### Bundles -/

/-- A rendered manifest: a network policy, or anything that is none. -/
inductive Manifest where
  | policy (P : NetworkPolicies.NetworkPolicy)
  | other (contents : Term)
      (foreign : ¬(contents.ref ["apiVersion"] = some (.string "networking.k8s.io/v1") ∧
        contents.ref ["kind"] = some (.string "NetworkPolicy")))

def Manifest.contents : Manifest → Term
  | .policy P => P.value
  | .other contents _ => contents

def Manifest.policy? : Manifest → Option NetworkPolicies.NetworkPolicy
  | .policy P => some P
  | .other _ _ => none

structure Document where
  path : String
  manifest : Manifest

/-- The documents in one input. -/
def combined (bundle : List Document) : Term :=
  .array (bundle.map fun doc =>
    .object [("contents", doc.manifest.contents), ("path", .string doc.path)])

def policiesOf (bundle : List Document) : List NetworkPolicies.NetworkPolicy :=
  bundle.filterMap fun doc => doc.manifest.policy?

end Mikrouli.RedisReplication
