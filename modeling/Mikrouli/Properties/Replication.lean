import Mikrouli.Model.RedisReplication

/-! Which bundles pass the policy for the replication of Redis.

The policy looks for one rule of each half that names the port and the labels of both components, and
counts it. Whether such a rule admits the connection is decided by what else it says. -/

namespace Mikrouli.RedisReplication

open Rego NetworkPolicies

/-- The labels of the pods of a component. -/
def redis (component : String) : Labels := [(redisNameLabel, redisName), (componentLabel, component)]

structure RedisPod (component : String) extends Pod where
  labelled : ∀ l ∈ redis component, labels.lookup l.1 = some l.2

/-- The half of a component: its rules about the other component. -/
structure Half where
  direction : Direction
  own : String
  other : String

def replicaEgress : Half := ⟨.egress, replicaComponent, primaryComponent⟩

def primaryIngress : Half := ⟨.ingress, primaryComponent, replicaComponent⟩

def half : Direction → Half
  | .egress => replicaEgress
  | .ingress => primaryIngress

/-! ### Rules the policy counts -/

/-- The number a port entry begins with. -/
def start : PortMatch → Option ℕ
  | .number port | .range port _ _ => some port
  | .any | .named _ => none

def Names (s : LabelSelector) (component : String) : Prop :=
  ∀ l ∈ redis component, s.matchLabels.lookup l.1 = some l.2

structure Counted (h : Half) (P : NetworkPolicy) (r : Rule) : Prop where
  listed : h.direction ∈ P.policyTypes
  own : Names P.podSelector h.own
  port : ∃ p ∈ r.ports, start p.port = some replicationPort
  peer : ∃ peer ∈ r.peers, ∃ s ∈ peer.podSelector, Names s h.other

/-- The rule of the policy for a half, of any document. -/
def Half.counts (h : Half) (policy : Term) : Bool :=
  match h.direction with
  | .egress => hasRule "Egress" h.own "egress" (permitsPods "to" h.other) policy
  | .ingress => hasRule "Ingress" h.own "ingress" (permitsPods "from" h.other) policy

theorem lookup_map_string (labels : Labels) (key : String) :
    (labels.map fun l => (l.1, Term.string l.2)).lookup key = (labels.lookup key).map .string := by
  induction labels with
  | nil => rfl
  | cons l labels ih =>
    obtain ⟨k, v⟩ := l
    rw [List.map_cons, List.lookup_cons, List.lookup_cons, ih]
    cases key == k <;> rfl

theorem ref_matchLabels (s : LabelSelector) (key : String) :
    s.value.ref ["matchLabels", key] = (s.matchLabels.lookup key).map .string := by
  simp [LabelSelector.value, List.lookup_cons, lookup_map_string]

theorem labelsMatch_value (s : LabelSelector) (component : String) :
    labelsMatch (some s.value) redisName component = true ↔ Names s component := by
  rw [labelsMatch, Option.bind_some, Option.bind_some, ref_matchLabels, ref_matchLabels]
  simp [Names, redis]

theorem labelsMatch_podSelector (peer : Peer) (component : String) :
    labelsMatch (peer.value.ref ["podSelector"]) redisName component = true ↔
      ∃ s ∈ peer.podSelector, Names s component := by
  have absent : labelsMatch none redisName component = false := rfl
  cases peer with
  | pods s => simpa [Peer.value, List.lookup_cons, Peer.podSelector] using labelsMatch_value s component
  | podsOf s n => simpa [Peer.value, List.lookup_cons, Peer.podSelector] using labelsMatch_value s component
  | namespaces n => simp [Peer.value, List.lookup_cons, Peer.podSelector, absent]
  | block cidr except => simp [Peer.value, List.lookup_cons, Peer.podSelector, absent]

theorem ref_port (p : PolicyPort) :
    p.value.ref ["port"] = some (.number replicationPort) ↔ start p.port = some replicationPort := by
  obtain ⟨protocol, port⟩ := p
  cases protocol <;> cases port <;>
    simp [PolicyPort.value, PortMatch.fields, Term.ref, Term.get, start, List.lookup_cons]

/-- A rule is looked at through its ports and its peers. -/
theorem permitsPods_value (d : Direction) (r : Rule) {peers component : String}
    (here : each ((r.value d).ref [peers]) = r.peers.map Peer.value) :
    permitsPods peers component (r.value d) = true ↔
      (∃ p ∈ r.ports, start p.port = some replicationPort) ∧
        ∃ peer ∈ r.peers, ∃ s ∈ peer.podSelector, Names s component := by
  have ports : each ((r.value d).ref ["ports"]) = r.ports.map PolicyPort.value := by
    cases d <;> rfl
  rw [permitsPods, ports, here, List.any_map, List.any_map]
  simp only [Bool.and_eq_true, List.any_eq_true, Function.comp_apply, decide_eq_true_eq, ref_port,
    labelsMatch_podSelector]

theorem listed_iff (P : NetworkPolicy) (d : Direction) :
    .string d.name ∈ each (P.value.ref ["spec", "policyTypes"]) ↔ d ∈ P.policyTypes := by
  have types : each (P.value.ref ["spec", "policyTypes"]) =
      P.policyTypes.map fun d => .string d.name := rfl
  rw [types, List.mem_map]
  constructor
  · rintro ⟨d', member, same⟩
    obtain rfl : d' = d := by
      cases d' <;> cases d <;> first | rfl | simp [Direction.name] at same
    exact member
  · intro member
    exact ⟨d, member, rfl⟩

theorem hasRule_value (d : Direction) (P : NetworkPolicy) {component rules : String}
    {permits : Term → Bool} (here : each (P.value.ref ["spec", rules]) = (P.rules d).map (Rule.value d)) :
    hasRule d.name component rules permits P.value = true ↔
      d ∈ P.policyTypes ∧ Names P.podSelector component ∧
        ∃ r ∈ P.rules d, permits (r.value d) = true := by
  have selector : P.value.ref ["spec", "podSelector"] = some P.podSelector.value := rfl
  rw [hasRule, selector, here, List.any_map]
  simp only [Bool.and_eq_true, decide_eq_true_eq, listed_iff, labelsMatch_value, List.any_eq_true,
    Function.comp_apply, and_assoc]

/-- Of a network policy, the rules that name the port and both components. -/
theorem counts_value (h : Half) (P : NetworkPolicy) :
    h.counts P.value = true ↔ ∃ r ∈ P.rules h.direction, Counted h P r := by
  have rule {peers rules : String}
      (inRule : ∀ r : Rule, each ((r.value h.direction).ref [peers]) = r.peers.map Peer.value)
      (inPolicy : each (P.value.ref ["spec", rules]) =
        (P.rules h.direction).map (Rule.value h.direction)) :
      hasRule h.direction.name h.own rules (permitsPods peers h.other) P.value = true ↔
        ∃ r ∈ P.rules h.direction, Counted h P r := by
    rw [hasRule_value h.direction P inPolicy]
    constructor
    · rintro ⟨listed, own, r, member, permits⟩
      obtain ⟨port, peer⟩ := (permitsPods_value h.direction r (inRule r)).mp permits
      exact ⟨r, member, listed, own, port, peer⟩
    · rintro ⟨r, member, listed, own, port, peer⟩
      exact ⟨listed, own, r, member, (permitsPods_value h.direction r (inRule r)).mpr ⟨port, peer⟩⟩
  obtain ⟨d, own, other⟩ := h
  cases d with
  | egress => exact rule (fun _ => rfl) rfl
  | ingress => exact rule (fun _ => rfl) rfl

/-! ### Bundles -/

/-- The policy takes the document for one with the half. -/
def Document.Counted (doc : Document) (h : Half) : Prop :=
  match doc.manifest with
  | .policy P => ∃ r ∈ P.rules h.direction, RedisReplication.Counted h P r
  -- any other kind of document of this name
  | .other contents _ =>
    contents.ref ["kind"] = some (.string "NetworkPolicy") ∧ h.counts contents = true

theorem mem_networkPolicies {bundle : List Document} {policy : Term} :
    policy ∈ networkPolicies (combined bundle) ↔
      ∃ doc ∈ bundle, doc.manifest.contents = policy ∧
        policy.ref ["kind"] = some (.string "NetworkPolicy") := by
  have documents : each (some (combined bundle)) = bundle.map fun doc =>
      .object [("contents", doc.manifest.contents), ("path", .string doc.path)] := rfl
  rw [networkPolicies, documents, List.filterMap_map, List.mem_filterMap]
  refine exists_congr fun doc => and_congr_right fun _ => ?_
  have contents : (Term.object [("contents", doc.manifest.contents), ("path", .string doc.path)]).ref
      ["contents"] = some doc.manifest.contents := rfl
  rw [Function.comp_apply, contents, Option.filter_eq_some_iff, Option.some.injEq]
  refine and_congr_right fun same => ?_
  rw [decide_eq_true_eq]

theorem counted_iff {doc : Document} {h : Half} :
    doc.Counted h ↔ doc.manifest.contents.ref ["kind"] = some (.string "NetworkPolicy") ∧
      h.counts doc.manifest.contents = true := by
  obtain ⟨path, manifest⟩ := doc
  cases manifest with
  | policy P =>
    have kind : P.value.ref ["kind"] = some (.string "NetworkPolicy") := rfl
    exact (counts_value h P).symm.trans (and_iff_right kind).symm
  | other contents foreign => exact Iff.rfl

theorem any_networkPolicies (bundle : List Document) (h : Half) :
    (networkPolicies (combined bundle)).any h.counts = true ↔ ∃ doc ∈ bundle, doc.Counted h := by
  rw [List.any_eq_true]
  constructor
  · rintro ⟨policy, member, counts⟩
    obtain ⟨doc, inBundle, rfl, kind⟩ := mem_networkPolicies.mp member
    exact ⟨doc, inBundle, counted_iff.mpr ⟨kind, counts⟩⟩
  · rintro ⟨doc, inBundle, counted⟩
    obtain ⟨kind, counts⟩ := counted_iff.mp counted
    exact ⟨_, mem_networkPolicies.mpr ⟨doc, inBundle, rfl, kind⟩, counts⟩

theorem deny_eq_nil {bundle : List Document} :
    deny (combined bundle) = [] ↔
      (∃ doc ∈ bundle, doc.Counted replicaEgress) ∧ ∃ doc ∈ bundle, doc.Counted primaryIngress := by
  rw [← any_networkPolicies, ← any_networkPolicies]
  have egress : hasReplicaEgressToPrimary (combined bundle) =
      (networkPolicies (combined bundle)).any replicaEgress.counts := rfl
  have ingress : hasPrimaryIngressFromReplica (combined bundle) =
      (networkPolicies (combined bundle)).any primaryIngress.counts := rfl
  rw [deny, egress, ingress, List.append_eq_nil_iff]
  simp

/-! ### What a counted rule admits -/

/-- What else has to be as it should for a counted rule to admit the connection of two pods. -/
structure Plain (c : Cluster) (h : Half) (P : NetworkPolicy) (r : Rule) (own other : Pod) : Prop where
  «namespace» : own.namespace = P.effectiveNamespace
  selector : (P.podSelector.besides (redis h.own)).holds own.labels = true
  /-- an entry that begins with the port is of the protocol, or another entry allows it -/
  port : ∃ p ∈ r.ports, if start p.port = some replicationPort then p.effectiveProtocol = .tcp
    else p.allows (destination h.direction own other) .tcp replicationPort = true
  peer : ∃ peer ∈ r.peers, peer.reaches c P.effectiveNamespace other = true ∧
    ∀ s ∈ peer.podSelector, (s.besides (redis h.other)).holds other.labels = true

theorem allows_of_start {p : PolicyPort} {pod : Pod} {protocol : Protocol} {port : ℕ}
    (first : start p.port = some port) :
    p.allows pod protocol port = true ↔ p.effectiveProtocol = protocol := by
  obtain ⟨own, m⟩ := p
  cases m with
  | number n =>
    cases first
    simp [PolicyPort.allows]
  | range n last ordered =>
    cases first
    simp [PolicyPort.allows, ordered]
  | any | named name => cases first

theorem allows_iff {p : PolicyPort} {pod : Pod} :
    p.allows pod .tcp replicationPort = true ↔
      if start p.port = some replicationPort then p.effectiveProtocol = .tcp
      else p.allows pod .tcp replicationPort = true := by
  split
  next first => exact allows_of_start first
  · exact Iff.rfl

theorem holds_iff_besides {c : Cluster} {«namespace» component : String} {peer : Peer}
    (pod : RedisPod component) :
    peer.holds c «namespace» pod.toPod = true ↔ peer.reaches c «namespace» pod.toPod = true ∧
      ∀ s ∈ peer.podSelector, (s.besides (redis component)).holds pod.labels = true := by
  rw [Peer.holds, Bool.and_eq_true, Option.all_eq_true]
  refine and_congr_right fun _ => forall₂_congr fun s _ => ?_
  rw [LabelSelector.holds_besides pod.labelled]

theorem selects_iff_besides {P : NetworkPolicy} {component : String} (pod : RedisPod component) :
    P.selects pod.toPod = true ↔ pod.namespace = P.effectiveNamespace ∧
      (P.podSelector.besides (redis component)).holds pod.labels = true := by
  rw [NetworkPolicy.selects, Bool.and_eq_true, decide_eq_true_eq,
    LabelSelector.holds_besides pod.labelled]

theorem restricts_of_mem {P : NetworkPolicy} {d : Direction} (listed : d ∈ P.policyTypes) :
    P.restricts d = true := by
  have typed : P.policyTypes.isEmpty = false := by
    rw [List.isEmpty_eq_false_iff]
    exact List.ne_nil_of_mem listed
  rw [NetworkPolicy.restricts, typed]
  exact List.contains_iff_mem.mpr listed

/-- With a port and with a peer, a rule allows what one of its entries and one of its peers allow. -/
theorem rule_allows_iff {r : Rule} {c : Cluster} {own : String} {destination other : Pod}
    {protocol : Protocol} {port : ℕ} (ports : r.ports ≠ []) (peers : r.peers ≠ []) :
    r.allows c own destination other protocol port = true ↔
      (∃ p ∈ r.ports, p.allows destination protocol port = true) ∧
        ∃ peer ∈ r.peers, peer.holds c own other = true := by
  rw [Rule.allows, List.isEmpty_eq_false_iff.mpr ports, List.isEmpty_eq_false_iff.mpr peers,
    Bool.false_or, Bool.false_or, Bool.and_eq_true, List.any_eq_true, List.any_eq_true]

theorem admits_iff_plain {c : Cluster} {h : Half} {P : NetworkPolicy} {r : Rule}
    (counted : Counted h P r) (own : RedisPod h.own) (other : RedisPod h.other) :
    P.Admits c h.direction own.toPod other.toPod .tcp replicationPort r ↔
      Plain c h P r own.toPod other.toPod := by
  have ports : r.ports ≠ [] := by
    obtain ⟨p, member, -⟩ := counted.port
    exact List.ne_nil_of_mem member
  have peers : r.peers ≠ [] := by
    obtain ⟨peer, member, -⟩ := counted.peer
    exact List.ne_nil_of_mem member
  rw [NetworkPolicy.Admits, rule_allows_iff ports peers, selects_iff_besides own]
  constructor
  · rintro ⟨⟨here, selector⟩, -, ⟨p, inPorts, allows⟩, peer, inPeers, holds⟩
    exact ⟨here, selector, ⟨p, inPorts, allows_iff.mp allows⟩, peer, inPeers,
      (holds_iff_besides other).mp holds⟩
  · rintro ⟨here, selector, ⟨p, inPorts, allows⟩, peer, inPeers, holds⟩
    exact ⟨⟨here, selector⟩, restricts_of_mem counted.listed, ⟨p, inPorts, allows_iff.mpr allows⟩,
      peer, inPeers, (holds_iff_besides other).mpr holds⟩

/-- A half that the policy counts and that does not admit the connection: every counted rule is spoiled
by what else it says, and no other rule helps. -/
structure HalfOverlooked (c : Cluster) (h : Half) (bundle : List Document) (own other : Pod) : Prop where
  counted : ∃ doc ∈ bundle, doc.Counted h
  isolated : Isolated (policiesOf bundle) h.direction own
  spoiled : ∀ P ∈ policiesOf bundle, ∀ r ∈ P.rules h.direction, Counted h P r → ¬Plain c h P r own other
  others : ∀ P ∈ policiesOf bundle, ∀ r ∈ P.rules h.direction, ¬Counted h P r →
    ¬P.Admits c h.direction own other .tcp replicationPort r

def halfCheck (c : Cluster) (h : Half) (bundle : List Document) (own other : Pod) : Check where
  good := Permitted c (policiesOf bundle) h.direction own other .tcp replicationPort
  denied := ¬∃ doc ∈ bundle, doc.Counted h
  overlooked := HalfOverlooked c h bundle own other

theorem halfCheck_exact (c : Cluster) (h : Half) (bundle : List Document) (own : RedisPod h.own)
    (other : RedisPod h.other) : (halfCheck c h bundle own.toPod other.toPod).Exact := by
  constructor
  · intro overlooked
    refine ⟨fun allowed => ?_, fun uncounted => uncounted overlooked.counted⟩
    obtain ⟨P, inBundle, r, member, admits⟩ := allowed overlooked.isolated
    by_cases counted : Counted h P r
    · exact overlooked.spoiled P inBundle r member counted ((admits_iff_plain counted own other).mp admits)
    · exact overlooked.others P inBundle r member counted admits
  · rintro ⟨blocked, counted⟩
    have none_admits : ∀ P ∈ policiesOf bundle, ∀ r ∈ P.rules h.direction,
        ¬P.Admits c h.direction own.toPod other.toPod .tcp replicationPort r :=
      fun P inBundle r member admits => blocked fun _ => ⟨P, inBundle, r, member, admits⟩
    refine ⟨not_not.mp counted, ?_, ?_, ?_⟩
    · by_contra free
      exact blocked fun isolated => absurd isolated free
    · intro P inBundle r member counted plain
      exact none_admits P inBundle r member ((admits_iff_plain counted own other).mpr plain)
    · intro P inBundle r member _
      exact none_admits P inBundle r member

/-! ### Bare selectors -/

/-- A selector of the name alone, which every pod of the scope meets. -/
def Bare (s : LabelSelector) : Prop :=
  bareScopeSelector s.value = true ∧
    ∀ labels : Labels, labels.lookup redisNameLabel = some redisName → s.holds labels = true

/-- Pods of the scope, but not the replica and the primary of the half. -/
def Beyond (d : Direction) (own other : Pod) : Prop :=
  own.labels.lookup redisNameLabel = some redisName ∧
    other.labels.lookup redisNameLabel = some redisName ∧
    ¬(own.labels.lookup componentLabel = some (half d).own ∧
      other.labels.lookup componentLabel = some (half d).other)

/-- A policy widens what the halves allow: through a bare selector it admits the connection of other
pods of the scope. -/
def Widens (c : Cluster) (P : NetworkPolicy) : Prop :=
  ∃ d own other, Beyond d own other ∧ ∃ r ∈ P.rules d, P.Admits c d own other .tcp replicationPort r ∧
    (Bare P.podSelector ∨ ∃ peer ∈ r.peers, peer.holds c P.effectiveNamespace other = true ∧
      ∃ s ∈ peer.podSelector, Bare s)

/-- The selector of the name alone. -/
def nameOnly : LabelSelector := ⟨[(redisNameLabel, redisName)], []⟩

theorem bare_nameOnly : Bare nameOnly := by
  refine ⟨by decide +kernel, fun labels named => ?_⟩
  simp [LabelSelector.holds, nameOnly, named]

/-- A policy from the scope to the scope widens both halves. -/
theorem widens_of_nameOnly {c : Cluster} {P : NetworkPolicy} {d : Direction} {r : Rule} {p : PolicyPort}
    (own : P.podSelector = nameOnly) (listed : d ∈ P.policyTypes) (rule : r ∈ P.rules d)
    (entry : p ∈ r.ports) (first : start p.port = some replicationPort)
    (protocol : p.effectiveProtocol = .tcp) (peer : .pods nameOnly ∈ r.peers) : Widens c P := by
  let labels : Labels := [(redisNameLabel, redisName)]
  have named : labels.lookup redisNameLabel = some redisName := by decide +kernel
  have other : labels.lookup componentLabel = none := by decide +kernel
  let pod : Pod := ⟨P.effectiveNamespace, labels, []⟩
  have holds : nameOnly.holds pod.labels = true := bare_nameOnly.2 pod.labels named
  have selected : P.selects pod = true := by
    rw [NetworkPolicy.selects, own, holds, Bool.and_true, decide_eq_true_eq]
  have reached : (Peer.pods nameOnly).holds c P.effectiveNamespace pod = true := by
    simp [Peer.holds, Peer.reaches, Peer.podSelector, holds, pod]
  refine ⟨d, pod, pod, ⟨named, named, ?_⟩, r, rule, ⟨selected, restricts_of_mem listed, ?_⟩, .inl ?_⟩
  · rintro ⟨component, -⟩
    rw [other] at component
    cases component
  · rw [rule_allows_iff (List.ne_nil_of_mem entry) (List.ne_nil_of_mem peer)]
    exact ⟨⟨p, entry, (allows_of_start first).mpr protocol⟩, _, peer, reached⟩
  · rw [own]
    exact bare_nameOnly

def wideningCheck (c : Cluster) (bundle : List Document) : Check where
  good := ∀ P ∈ policiesOf bundle, ¬Widens c P
  denied := False
  overlooked := ∃ P ∈ policiesOf bundle, Widens c P

theorem wideningCheck_exact (c : Cluster) (bundle : List Document) : (wideningCheck c bundle).Exact := by
  simp [Check.Exact, wideningCheck]

/-! ### The policy -/

/-- Both halves allow the connection, and no policy widens them. -/
structure Sound (c : Cluster) (bundle : List Document) (replica primary : Pod) : Prop where
  egress : Permitted c (policiesOf bundle) .egress replica primary .tcp replicationPort
  ingress : Permitted c (policiesOf bundle) .ingress primary replica .tcp replicationPort
  narrow : ∀ P ∈ policiesOf bundle, ¬Widens c P

def checks (c : Cluster) (bundle : List Document) (replica primary : Pod) : List Check := [
  halfCheck c replicaEgress bundle replica primary,
  halfCheck c primaryIngress bundle primary replica,
  wideningCheck c bundle]

/-- The policy is sound for a bundle and two pods just where it misses a half whenever it overlooks
something. -/
theorem replication_sound_iff (c : Cluster) (bundle : List Document)
    (replica : RedisPod replicaComponent) (primary : RedisPod primaryComponent) :
    (deny (combined bundle) = [] → Sound c bundle replica.toPod primary.toPod) ↔
      ((∃ check ∈ checks c bundle replica.toPod primary.toPod, check.overlooked) →
        ∃ check ∈ checks c bundle replica.toPod primary.toPod, check.denied) := by
  have exact : ∀ check ∈ checks c bundle replica.toPod primary.toPod, check.Exact := by
    simp only [checks, List.forall_mem_cons, List.not_mem_nil, false_implies, implies_true, and_true]
    exact ⟨halfCheck_exact c replicaEgress bundle replica primary,
      halfCheck_exact c primaryIngress bundle primary replica, wideningCheck_exact c bundle⟩
  have silent : deny (combined bundle) = [] ↔
      ∀ check ∈ checks c bundle replica.toPod primary.toPod, ¬check.denied := by
    rw [deny_eq_nil]
    simp [checks, halfCheck, wideningCheck]
  have sound : Sound c bundle replica.toPod primary.toPod ↔
      ∀ check ∈ checks c bundle replica.toPod primary.toPod, check.good := by
    simp only [checks, List.forall_mem_cons, List.not_mem_nil, false_implies, implies_true, and_true]
    constructor
    · rintro ⟨egress, ingress, narrow⟩
      exact ⟨egress, ingress, narrow⟩
    · rintro ⟨egress, ingress, narrow⟩
      exact ⟨egress, ingress, narrow⟩
  rw [silent, sound]
  exact sound_iff exact

/-! ### Another protocol -/

def component (name : String) : LabelSelector := ⟨redis name, []⟩

/-- Both halves, for datagrams. -/
def udpBundle : List Document :=
  let entry : PolicyPort := ⟨some .udp, .number replicationPort⟩
  [⟨"base/network-policies.yaml", .policy
      ⟨some "mikrouli", component replicaComponent, [.egress], [],
        [⟨[entry], [.pods (component primaryComponent)]⟩]⟩⟩,
    ⟨"base/network-policies-ingress.yaml", .policy
      ⟨some "mikrouli", component primaryComponent, [.ingress],
        [⟨[entry], [.pods (component replicaComponent)]⟩], []⟩⟩]

def redisPod (name : String) : RedisPod name where
  «namespace» := "mikrouli"
  labels := redis name
  ports := []
  labelled := by simp [redis, List.lookup_cons, redisNameLabel, componentLabel]

/-- A cluster without labels of namespaces and without blocks. -/
def bareCluster : Cluster := ⟨fun _ => [], fun _ _ _ => false⟩

/-- The bundle passes, and the replica cannot connect. -/
theorem datagrams_pass : ¬∀ (c : Cluster) (bundle : List Document) (replica : RedisPod replicaComponent)
    (primary : RedisPod primaryComponent), deny (combined bundle) = [] →
    Sound c bundle replica.toPod primary.toPod := by
  intro law
  have sound := law bareCluster udpBundle (redisPod _) (redisPod _) (by decide +kernel)
  have isolated : Isolated (policiesOf udpBundle) .egress (redisPod replicaComponent).toPod := by
    unfold Isolated
    decide +kernel
  have closed : ∀ P ∈ policiesOf udpBundle, ∀ r ∈ P.rules .egress,
      r.allows bareCluster P.effectiveNamespace (redisPod primaryComponent).toPod
        (redisPod primaryComponent).toPod .tcp replicationPort = false := by
    decide +kernel
  obtain ⟨P, inBundle, r, member, -, -, allows⟩ := sound.egress isolated
  exact absurd (closed P inBundle r member) (ne_false_of_eq_true allows)

end Mikrouli.RedisReplication
