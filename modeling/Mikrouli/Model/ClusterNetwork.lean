import Mikrouli.Lib.NetworkPolicies

/-! The policies of `k8s/base/network-policies.yaml` and the labels of the pods that the manifests of
`k8s/base` start. -/

namespace Mikrouli.ClusterNetwork

open NetworkPolicies

def nameLabel : String := "app.kubernetes.io/name"

def componentLabel : String := "app.kubernetes.io/component"

def partOfLabel : String := "app.kubernetes.io/part-of"

def solverLabel : String := "acme.cert-manager.io/http01-solver"

/-- Every namespace carries its own name in this label. -/
def namespaceNameLabel : String := "kubernetes.io/metadata.name"

def mikrouliNamespace : String := "mikrouli"

/-! ### Selectors and rules -/

def everyPod : LabelSelector := ⟨[], []⟩

def named (name : String) : LabelSelector := ⟨[(nameLabel, name)], []⟩

def namedIn (names : List String) : LabelSelector := ⟨[], [⟨nameLabel, .isIn, names⟩]⟩

def redisComponent (component : String) : LabelSelector :=
  ⟨[(nameLabel, "redis"), (componentLabel, component)], []⟩

def namespaceNamed (name : String) : LabelSelector := ⟨[(namespaceNameLabel, name)], []⟩

/-- A port without a protocol. -/
def port (n : ℕ) : PolicyPort := ⟨none, .number n⟩

def portOf (protocol : Protocol) (n : ℕ) : PolicyPort := ⟨some protocol, .number n⟩

def policy (podSelector : LabelSelector) (policyTypes : List Direction) (ingress egress : List Rule) :
    NetworkPolicy :=
  ⟨some mikrouliNamespace, podSelector, policyTypes, ingress, egress⟩

/-! ### The suite -/

def defaultDenyAll : NetworkPolicy := policy everyPod [.ingress, .egress] [] []

def allowDnsEgress : NetworkPolicy :=
  policy everyPod [.egress] []
    [⟨[portOf .udp 53, portOf .tcp 53], [.namespaces (namespaceNamed "kube-system")]⟩]

def allowApiEgressToDatabases : NetworkPolicy :=
  policy (namedIn ["api", "api-migration"]) [.egress] []
    [⟨[port 5432], [.pods (named "postgres")]⟩,
     ⟨[port 6379], [.pods (named "redis")]⟩,
     ⟨[port 8123, port 9000], [.pods (named "clickhouse")]⟩]

def allowWebEgressToApi : NetworkPolicy :=
  policy (named "web") [.egress] [] [⟨[port 3000], [.pods (named "api")]⟩]

def allowIngressToWeb : NetworkPolicy :=
  policy (named "web") [.ingress] [⟨[], [.namespaces (namespaceNamed "kube-system")]⟩] []

def allowIngressToApiFromWeb : NetworkPolicy :=
  policy (named "api") [.ingress] [⟨[], [.pods (named "web")]⟩] []

def allowDatabasesIngressFromApi : NetworkPolicy :=
  policy (namedIn ["postgres", "redis", "clickhouse"]) [.ingress]
    [⟨[], [.pods (namedIn ["api", "api-migration"])]⟩] []

def allowApiEgressObservability : NetworkPolicy :=
  policy (namedIn ["api", "api-migration"]) [.egress] []
    [⟨[portOf .tcp 4318], [.namespaces (namespaceNamed "observability")]⟩]

def allowApiEgressHttps : NetworkPolicy :=
  policy (namedIn ["api", "api-migration"]) [.egress] []
    [⟨[portOf .tcp 443], [.block "0.0.0.0/0" []]⟩]

def allowRedisReplicaEgressToPrimary : NetworkPolicy :=
  policy (redisComponent "replica") [.egress] []
    [⟨[portOf .tcp 6379], [.pods (redisComponent "primary")]⟩]

def allowRedisPrimaryIngressFromReplica : NetworkPolicy :=
  policy (redisComponent "primary") [.ingress]
    [⟨[portOf .tcp 6379], [.pods (redisComponent "replica")]⟩] []

def allowAcmeSolverIngress : NetworkPolicy :=
  policy ⟨[(solverLabel, "true")], []⟩ [.ingress] [⟨[portOf .tcp 8089], [.namespaces everyPod]⟩] []

def policies : List NetworkPolicy :=
  [defaultDenyAll, allowDnsEgress, allowApiEgressToDatabases, allowWebEgressToApi, allowIngressToWeb,
    allowIngressToApiFromWeb, allowDatabasesIngressFromApi, allowApiEgressObservability,
    allowApiEgressHttps, allowRedisReplicaEgressToPrimary, allowRedisPrimaryIngressFromReplica,
    allowAcmeSolverIngress]

/-! ### Pod templates -/

/-- The labels of the template in the manifest of that name. -/
def template (name : String) : Labels := [(nameLabel, name), (partOfLabel, "mikrouli")]

def postgresBackup : Labels := template "postgres-backup"

def clickhouseBackup : Labels := template "clickhouse-backup"

/-- The pods of a cluster run with the labels of their template, and may be given more. -/
def Runs (labels : Labels) (pod : Pod) : Prop :=
  pod.namespace = mikrouliNamespace ∧ ∀ l ∈ labels, pod.labels.lookup l.1 = some l.2

end Mikrouli.ClusterNetwork
