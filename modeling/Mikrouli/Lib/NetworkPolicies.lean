import Mikrouli.Lib.Rego

/-! Network policies of Kubernetes: what they are written as and which connections they let through.

A pod that no policy restricts in a direction is open in it. One that is restricted gets what some
policy that selects it admits. -/

namespace NetworkPolicies

open Rego

/-! ### Selectors -/

/-- Keys with their values, each key once. -/
abbrev Labels := List (String × String)

inductive Operator where
  | isIn
  | notIn
  | exist
  | doesNotExist
  deriving DecidableEq, Repr

structure Requirement where
  key : String
  operator : Operator
  values : List String
  deriving DecidableEq, Repr

def Requirement.holds (r : Requirement) (labels : Labels) : Bool :=
  match r.operator with
  | .isIn => r.values.any fun v => labels.lookup r.key = some v
  -- a pod without the key too
  | .notIn => r.values.all fun v => labels.lookup r.key ≠ some v
  | .exist => (labels.lookup r.key).isSome
  | .doesNotExist => (labels.lookup r.key).isNone

structure LabelSelector where
  matchLabels : Labels
  matchExpressions : List Requirement
  deriving DecidableEq, Repr

namespace LabelSelector

def holds (s : LabelSelector) (labels : Labels) : Bool :=
  s.matchLabels.all (fun l => labels.lookup l.1 = some l.2) &&
    s.matchExpressions.all fun r => r.holds labels

/-- What it asks for besides these labels. -/
def besides (s : LabelSelector) (common : Labels) : LabelSelector :=
  { s with matchLabels := s.matchLabels.filter fun l => l ∉ common }

theorem holds_besides {s : LabelSelector} {common labels : Labels}
    (shared : ∀ l ∈ common, labels.lookup l.1 = some l.2) :
    (s.besides common).holds labels = s.holds labels := by
  rw [Bool.eq_iff_iff]
  simp only [holds, besides, Bool.and_eq_true, List.all_eq_true, List.mem_filter, decide_eq_true_eq]
  refine and_congr_left fun _ => ?_
  constructor
  · intro rest l member
    by_cases known : l ∈ common
    · exact shared l known
    · exact rest l ⟨member, known⟩
  · intro all l kept
    exact all l kept.1

end LabelSelector

/-! ### Pods and policies -/

inductive Protocol where
  | tcp
  | udp
  | sctp
  deriving DecidableEq, Repr

structure Pod where
  «namespace» : String
  labels : Labels
  /-- the ports of its containers that have names -/
  ports : List (String × Protocol × ℕ)

/-- What the rules may refer to besides the pods. -/
structure Cluster where
  namespaceLabels : String → Labels
  /-- whether the address of a pod is in a block, but for what is cut out of it -/
  inBlock : String → List String → Pod → Bool

inductive PortMatch where
  | any
  | number (port : ℕ)
  | range (port endPort : ℕ) (ordered : port ≤ endPort)
  | named (name : String)

structure PolicyPort where
  protocol : Option Protocol
  port : PortMatch

namespace PolicyPort

def effectiveProtocol (p : PolicyPort) : Protocol := p.protocol.getD .tcp

def allows (p : PolicyPort) (destination : Pod) (protocol : Protocol) (port : ℕ) : Bool :=
  decide (p.effectiveProtocol = protocol) &&
    match p.port with
    | .any => true
    | .number n => decide (n = port)
    | .range n last _ => decide (n ≤ port ∧ port ≤ last)
    | .named name => decide ((name, protocol, port) ∈ destination.ports)

end PolicyPort

inductive Peer where
  /-- pods of the policy's own namespace -/
  | pods (podSelector : LabelSelector)
  | namespaces (namespaceSelector : LabelSelector)
  | podsOf (podSelector namespaceSelector : LabelSelector)
  | block (cidr : String) (except : List String)

namespace Peer

def podSelector : Peer → Option LabelSelector
  | .pods s | .podsOf s _ => some s
  | .namespaces _ | .block _ _ => none

/-- Whether it refers to the namespace of the pod. -/
def reaches (c : Cluster) (own : String) (peer : Peer) (pod : Pod) : Bool :=
  match peer with
  | .pods _ => decide (pod.namespace = own)
  | .namespaces s | .podsOf _ s => s.holds (c.namespaceLabels pod.namespace)
  | .block cidr except => c.inBlock cidr except pod

def holds (c : Cluster) (own : String) (peer : Peer) (pod : Pod) : Bool :=
  peer.reaches c own pod && peer.podSelector.all fun s => s.holds pod.labels

end Peer

inductive Direction where
  | ingress
  | egress
  deriving DecidableEq, Repr

/-- The pod that is connected to, seen from a pod whose connections in a direction are meant. -/
def destination (d : Direction) (own other : Pod) : Pod :=
  match d with
  | .ingress => own
  | .egress => other

structure Rule where
  ports : List PolicyPort
  /-- `to` or `from` -/
  peers : List Peer

/-- An empty list is no restriction. -/
def Rule.allows (r : Rule) (c : Cluster) (own : String) (destination other : Pod)
    (protocol : Protocol) (port : ℕ) : Bool :=
  (r.ports.isEmpty || r.ports.any fun p => p.allows destination protocol port) &&
    (r.peers.isEmpty || r.peers.any fun peer => peer.holds c own other)

structure NetworkPolicy where
  «namespace» : Option String
  podSelector : LabelSelector
  policyTypes : List Direction
  ingress : List Rule
  egress : List Rule

namespace NetworkPolicy

def effectiveNamespace (P : NetworkPolicy) : String := P.namespace.getD "default"

def rules (P : NetworkPolicy) : Direction → List Rule
  | .ingress => P.ingress
  | .egress => P.egress

/-- Without types a policy is of ingress, and of egress if it has such rules. -/
def restricts (P : NetworkPolicy) (d : Direction) : Bool :=
  if P.policyTypes.isEmpty then decide (d = .ingress) || !P.egress.isEmpty
  else P.policyTypes.contains d

def selects (P : NetworkPolicy) (pod : Pod) : Bool :=
  decide (pod.namespace = P.effectiveNamespace) && P.podSelector.holds pod.labels

/-- It lets the connection through, by this rule. -/
def Admits (P : NetworkPolicy) (c : Cluster) (d : Direction) (own other : Pod) (protocol : Protocol)
    (port : ℕ) (r : Rule) : Prop :=
  P.selects own = true ∧ P.restricts d = true ∧
    r.allows c P.effectiveNamespace (destination d own other) other protocol port = true

end NetworkPolicy

/-- A pod to which the policies of a direction apply. -/
def Isolated (policies : List NetworkPolicy) (d : Direction) (own : Pod) : Prop :=
  ∃ P ∈ policies, P.selects own = true ∧ P.restricts d = true

/-- The connection is allowed in this direction, for the pod whose direction it is. -/
def Permitted (c : Cluster) (policies : List NetworkPolicy) (d : Direction) (own other : Pod)
    (protocol : Protocol) (port : ℕ) : Prop :=
  Isolated policies d own → ∃ P ∈ policies, ∃ r ∈ P.rules d, P.Admits c d own other protocol port r

/-! ### Documents -/

def Operator.name : Operator → String
  | .isIn => "In"
  | .notIn => "NotIn"
  | .exist => "Exists"
  | .doesNotExist => "DoesNotExist"

def Requirement.value (r : Requirement) : Term :=
  .object [("key", .string r.key), ("operator", .string r.operator.name),
    ("values", .array (r.values.map .string))]

def LabelSelector.value (s : LabelSelector) : Term :=
  .object [("matchExpressions", .array (s.matchExpressions.map Requirement.value)),
    ("matchLabels", .object (s.matchLabels.map fun l => (l.1, .string l.2)))]

def Protocol.name : Protocol → String
  | .tcp => "TCP"
  | .udp => "UDP"
  | .sctp => "SCTP"

def PortMatch.fields : PortMatch → List (String × Term)
  | .any => []
  | .number port => [("port", .number port)]
  | .range port endPort _ => [("endPort", .number endPort), ("port", .number port)]
  | .named name => [("port", .string name)]

def PolicyPort.value (p : PolicyPort) : Term :=
  .object (p.port.fields ++ (p.protocol.map fun protocol => ("protocol", .string protocol.name)).toList)

def Peer.value : Peer → Term
  | .pods s => .object [("podSelector", s.value)]
  | .namespaces s => .object [("namespaceSelector", s.value)]
  | .podsOf s n => .object [("namespaceSelector", n.value), ("podSelector", s.value)]
  | .block cidr except =>
    .object [("ipBlock", .object [("cidr", .string cidr), ("except", .array (except.map .string))])]

def Direction.name : Direction → String
  | .ingress => "Ingress"
  | .egress => "Egress"

def Rule.value (d : Direction) (r : Rule) : Term :=
  let ports := ("ports", .array (r.ports.map PolicyPort.value))
  let peers := r.peers.map Peer.value
  match d with
  | .ingress => .object [("from", .array peers), ports]
  | .egress => .object [ports, ("to", .array peers)]

def NetworkPolicy.value (P : NetworkPolicy) : Term :=
  .object [("apiVersion", .string "networking.k8s.io/v1"), ("kind", .string "NetworkPolicy"),
    ("metadata", .object (P.namespace.map fun n => ("namespace", .string n)).toList),
    ("spec", .object [("egress", .array (P.egress.map (Rule.value .egress))),
      ("ingress", .array (P.ingress.map (Rule.value .ingress))),
      ("podSelector", P.podSelector.value),
      ("policyTypes", .array (P.policyTypes.map fun d => .string d.name))])]

end NetworkPolicies
