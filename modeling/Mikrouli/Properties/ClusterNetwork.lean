import Mikrouli.Model.ClusterNetwork

/-! Which connections the shipped network policies let through, for pods with any labels. -/

namespace Mikrouli.ClusterNetwork

open NetworkPolicies

variable {c : Cluster} {a b : Pod} {protocol : Protocol} {n : ℕ}

/-- The policies of both ends let the connection through. -/
def Connects (c : Cluster) (a b : Pod) (protocol : Protocol) (n : ℕ) : Prop :=
  Permitted c policies .egress a b protocol n ∧ Permitted c policies .ingress b a protocol n

/-! ### What the suite says -/

def Named (name : String) (pod : Pod) : Prop := pod.labels.lookup nameLabel = some name

def IsApi (pod : Pod) : Prop := Named "api" pod ∨ Named "api-migration" pod

def IsDatabase (pod : Pod) : Prop := Named "postgres" pod ∨ Named "redis" pod ∨ Named "clickhouse" pod

def IsRedis (component : String) (pod : Pod) : Prop :=
  Named "redis" pod ∧ pod.labels.lookup componentLabel = some component

def InNamespaceNamed (c : Cluster) (name : String) (pod : Pod) : Prop :=
  (c.namespaceLabels pod.namespace).lookup namespaceNameLabel = some name

/-- Where a pod of the namespace may connect to. -/
inductive Opens (c : Cluster) (a b : Pod) : Protocol → ℕ → Prop
  | dns {protocol : Protocol} (there : InNamespaceNamed c "kube-system" b)
      (either : protocol = .udp ∨ protocol = .tcp) : Opens c a b protocol 53
  | postgres (api : IsApi a) (inside : b.namespace = mikrouliNamespace) (there : Named "postgres" b) :
      Opens c a b .tcp 5432
  | redis (api : IsApi a) (inside : b.namespace = mikrouliNamespace) (there : Named "redis" b) :
      Opens c a b .tcp 6379
  | clickhouse {n : ℕ} (api : IsApi a) (inside : b.namespace = mikrouliNamespace)
      (there : Named "clickhouse" b) (either : n = 8123 ∨ n = 9000) : Opens c a b .tcp n
  | api (web : Named "web" a) (inside : b.namespace = mikrouliNamespace) (there : Named "api" b) :
      Opens c a b .tcp 3000
  | traces (api : IsApi a) (there : InNamespaceNamed c "observability" b) : Opens c a b .tcp 4318
  | https (api : IsApi a) (there : c.inBlock "0.0.0.0/0" [] b = true) : Opens c a b .tcp 443
  | replication (replica : IsRedis "replica" a) (inside : b.namespace = mikrouliNamespace)
      (there : IsRedis "primary" b) : Opens c a b .tcp 6379

/-- What a pod of the namespace takes in. -/
inductive Accepts (c : Cluster) (b a : Pod) : Protocol → ℕ → Prop
  | web {protocol : Protocol} {n : ℕ} (here : Named "web" b)
      (there : InNamespaceNamed c "kube-system" a) : Accepts c b a protocol n
  | api {protocol : Protocol} {n : ℕ} (here : Named "api" b)
      (inside : a.namespace = mikrouliNamespace) (there : Named "web" a) : Accepts c b a protocol n
  | database {protocol : Protocol} {n : ℕ} (here : IsDatabase b)
      (inside : a.namespace = mikrouliNamespace) (there : IsApi a) : Accepts c b a protocol n
  | replication (here : IsRedis "primary" b) (inside : a.namespace = mikrouliNamespace)
      (there : IsRedis "replica" a) : Accepts c b a .tcp 6379
  | solver (here : b.labels.lookup solverLabel = some "true") : Accepts c b a .tcp 8089

/-- The connections to the pods of the namespace that are left. -/
inductive Reaches (c : Cluster) (a b : Pod) : Protocol → ℕ → Prop
  | postgres (inside : a.namespace = mikrouliNamespace) (api : IsApi a) (there : Named "postgres" b) :
      Reaches c a b .tcp 5432
  | redis (inside : a.namespace = mikrouliNamespace) (api : IsApi a) (there : Named "redis" b) :
      Reaches c a b .tcp 6379
  | clickhouse {n : ℕ} (inside : a.namespace = mikrouliNamespace) (api : IsApi a)
      (there : Named "clickhouse" b) (either : n = 8123 ∨ n = 9000) : Reaches c a b .tcp n
  | https (inside : a.namespace = mikrouliNamespace) (api : IsApi a) (there : IsDatabase b)
      (block : c.inBlock "0.0.0.0/0" [] b = true) : Reaches c a b .tcp 443
  | api (inside : a.namespace = mikrouliNamespace) (web : Named "web" a) (there : Named "api" b) :
      Reaches c a b .tcp 3000
  | replication (inside : a.namespace = mikrouliNamespace) (replica : IsRedis "replica" a)
      (there : IsRedis "primary" b) : Reaches c a b .tcp 6379
  | edge {protocol : Protocol} {n : ℕ} (outside : a.namespace ≠ mikrouliNamespace)
      (here : InNamespaceNamed c "kube-system" a) (there : Named "web" b) : Reaches c a b protocol n
  | solver (outside : a.namespace ≠ mikrouliNamespace)
      (there : b.labels.lookup solverLabel = some "true") : Reaches c a b .tcp 8089

/-! ### Selectors -/

section Selectors

variable {pod : Pod}

@[simp] theorem holds_everyPod (labels : Labels) : everyPod.holds labels = true := rfl

@[simp] theorem holds_named {name : String} {labels : Labels} :
    (named name).holds labels = true ↔ labels.lookup nameLabel = some name := by
  simp [LabelSelector.holds, named]

@[simp] theorem holds_namespaceNamed {name : String} {labels : Labels} :
    (namespaceNamed name).holds labels = true ↔ labels.lookup namespaceNameLabel = some name := by
  simp [LabelSelector.holds, namespaceNamed]

@[simp] theorem holds_namedIn {names : List String} {labels : Labels} :
    (namedIn names).holds labels = true ↔ ∃ name ∈ names, labels.lookup nameLabel = some name := by
  simp [LabelSelector.holds, namedIn, Requirement.holds]

@[simp] theorem holds_solver {labels : Labels} :
    (⟨[(solverLabel, "true")], []⟩ : LabelSelector).holds labels = true ↔
      labels.lookup solverLabel = some "true" := by
  simp [LabelSelector.holds]

@[simp] theorem holds_redisComponent {component : String} {labels : Labels} :
    (redisComponent component).holds labels = true ↔
      labels.lookup nameLabel = some "redis" ∧ labels.lookup componentLabel = some component := by
  simp [LabelSelector.holds, redisComponent]

@[simp] theorem allows_port {destination : Pod} {m : ℕ} :
    (port m).allows destination protocol n = true ↔ .tcp = protocol ∧ m = n := by
  cases protocol <;> simp [PolicyPort.allows, port, PolicyPort.effectiveProtocol]

@[simp] theorem allows_portOf {destination : Pod} {of : Protocol} {m : ℕ} :
    (portOf of m).allows destination protocol n = true ↔ of = protocol ∧ m = n := by
  cases of <;> cases protocol <;> simp [PolicyPort.allows, portOf, PolicyPort.effectiveProtocol]

@[simp] theorem holds_pods {own : String} {s : LabelSelector} :
    (Peer.pods s).holds c own pod = true ↔ pod.namespace = own ∧ s.holds pod.labels = true := by
  simp [Peer.holds, Peer.reaches, Peer.podSelector]

@[simp] theorem holds_namespaces {own : String} {s : LabelSelector} :
    (Peer.namespaces s).holds c own pod = true ↔ s.holds (c.namespaceLabels pod.namespace) = true := by
  simp [Peer.holds, Peer.reaches, Peer.podSelector]

@[simp] theorem holds_block {own cidr : String} {cut : List String} :
    (Peer.block cidr cut).holds c own pod = true ↔ c.inBlock cidr cut pod = true := by
  simp [Peer.holds, Peer.reaches, Peer.podSelector]

@[simp] theorem allows_rule {own : String} {destination other : Pod} {ports : List PolicyPort}
    {peer : Peer} :
    (⟨ports, [peer]⟩ : Rule).allows c own destination other protocol n = true ↔
      (ports = [] ∨ ∃ p ∈ ports, p.allows destination protocol n = true) ∧
        peer.holds c own other = true := by
  simp [Rule.allows]

end Selectors

/-- The first policy isolates every pod of the namespace, so it gets what some policy admits. -/
theorem permitted_iff {d : Direction} (inside : a.namespace = mikrouliNamespace) :
    Permitted c policies d a b protocol n ↔
      ∃ P ∈ policies, ∃ r ∈ P.rules d, P.Admits c d a b protocol n r := by
  have isolated : Isolated policies d a := by
    refine ⟨defaultDenyAll, List.mem_cons_self, ?_, ?_⟩
    · simp [NetworkPolicy.selects, defaultDenyAll, policy, NetworkPolicy.effectiveNamespace, inside]
    · cases d <;> rfl
  exact ⟨fun permitted => permitted isolated, fun admitted _ => admitted⟩

/-- What a policy of the suite admits for a pod of its namespace. -/
theorem exists_admits_iff {selector : LabelSelector} {types : List Direction}
    {ingress egress : List Rule} {d : Direction} (inside : a.namespace = mikrouliNamespace)
    (typed : types.isEmpty = false) :
    (∃ r ∈ (policy selector types ingress egress).rules d,
        (policy selector types ingress egress).Admits c d a b protocol n r) ↔
      selector.holds a.labels = true ∧ d ∈ types ∧
        ∃ r ∈ (policy selector types ingress egress).rules d,
          r.allows c mikrouliNamespace (destination d a b) b protocol n = true := by
  simp only [NetworkPolicy.Admits, NetworkPolicy.selects, NetworkPolicy.restricts,
    NetworkPolicy.effectiveNamespace, policy, Option.getD_some, inside, typed, decide_true,
    Bool.true_and, Bool.false_eq_true, if_false, List.contains_iff_mem]
  constructor
  · rintro ⟨r, has, selected, typed, allows⟩
    exact ⟨selected, typed, r, has, allows⟩
  · rintro ⟨selected, typed, r, has, allows⟩
    exact ⟨r, has, selected, typed, allows⟩

theorem rules_policy {selector : LabelSelector} {types : List Direction}
    {ingress egress : List Rule} {d : Direction} :
    (policy selector types ingress egress).rules d =
      match d with
      | .ingress => ingress
      | .egress => egress := by
  cases d <;> rfl

theorem permitted_egress_iff (inside : a.namespace = mikrouliNamespace) :
    Permitted c policies .egress a b protocol n ↔ Opens c a b protocol n := by
  rw [permitted_iff inside]
  simp only [policies, List.mem_cons, List.not_mem_nil, or_false, exists_eq_or_imp, exists_eq_left,
    defaultDenyAll, allowDnsEgress, allowApiEgressToDatabases, allowWebEgressToApi, allowIngressToWeb,
    allowIngressToApiFromWeb, allowDatabasesIngressFromApi, allowApiEgressObservability,
    allowApiEgressHttps, allowRedisReplicaEgressToPrimary, allowRedisPrimaryIngressFromReplica,
    allowAcmeSolverIngress, exists_admits_iff inside, List.isEmpty_cons]
  simp [destination, rules_policy]
  constructor
  · rintro (⟨⟨rfl, rfl⟩ | ⟨rfl, rfl⟩, there⟩ |
      ⟨api, ⟨⟨rfl, rfl⟩, inside, there⟩ | ⟨⟨rfl, rfl⟩, inside, there⟩ |
        ⟨⟨rfl, rfl⟩ | ⟨rfl, rfl⟩, inside, there⟩⟩ | ⟨web, ⟨rfl, rfl⟩, inside, there⟩ |
      ⟨api, ⟨rfl, rfl⟩, there⟩ | ⟨api, ⟨rfl, rfl⟩, there⟩ | ⟨replica, ⟨rfl, rfl⟩, inside, there⟩)
    · exact .dns there (.inl rfl)
    · exact .dns there (.inr rfl)
    · exact .postgres api inside there
    · exact .redis api inside there
    · exact .clickhouse api inside there (.inl rfl)
    · exact .clickhouse api inside there (.inr rfl)
    · exact .api web inside there
    · exact .traces api there
    · exact .https api there
    · exact .replication replica inside there
  · intro opens
    cases opens with
    | dns there either =>
      rcases either with rfl | rfl <;> simp_all [InNamespaceNamed]
    | clickhouse api inside there either =>
      rcases either with rfl | rfl <;> simp_all [IsApi, Named]
    | _ => simp_all [IsApi, IsRedis, Named, InNamespaceNamed]

theorem permitted_ingress_iff (inside : b.namespace = mikrouliNamespace) :
    Permitted c policies .ingress b a protocol n ↔ Accepts c b a protocol n := by
  rw [permitted_iff inside]
  simp only [policies, List.mem_cons, List.not_mem_nil, or_false, exists_eq_or_imp, exists_eq_left,
    defaultDenyAll, allowDnsEgress, allowApiEgressToDatabases, allowWebEgressToApi, allowIngressToWeb,
    allowIngressToApiFromWeb, allowDatabasesIngressFromApi, allowApiEgressObservability,
    allowApiEgressHttps, allowRedisReplicaEgressToPrimary, allowRedisPrimaryIngressFromReplica,
    allowAcmeSolverIngress, exists_admits_iff inside, List.isEmpty_cons]
  simp [destination, rules_policy]
  constructor
  · rintro (⟨here, there⟩ | ⟨here, inside, there⟩ | ⟨here, inside, there⟩ |
      ⟨here, ⟨rfl, rfl⟩, inside, there⟩ | ⟨here, rfl, rfl⟩)
    · exact .web here there
    · exact .api here inside there
    · exact .database here inside there
    · exact .replication here inside there
    · exact .solver here
  · intro accepts
    cases accepts <;> simp_all [IsApi, IsDatabase, IsRedis, Named, InNamespaceNamed]

/-! ### Who reaches whom -/

theorem Named.eq {x y : String} {pod : Pod} (first : Named x pod) (second : Named y pod) : x = y :=
  Option.some.inj (first.symm.trans second)

/-- A namespace with its own name is not another one. -/
theorem not_inNamespaceNamed {name : String}
    (own : (c.namespaceLabels mikrouliNamespace).lookup namespaceNameLabel = some mikrouliNamespace)
    (inside : a.namespace = mikrouliNamespace) (other : mikrouliNamespace ≠ name) :
    ¬ InNamespaceNamed c name a := by
  intro named
  rw [InNamespaceNamed, inside, own] at named
  exact other (Option.some.inj named)

/-- No policy of the suite is about a pod of another namespace. -/
theorem permitted_outside {d : Direction} (outside : a.namespace ≠ mikrouliNamespace) :
    Permitted c policies d a b protocol n := by
  rintro ⟨P, listed, selected, -⟩
  have namespaces : ∀ P ∈ policies, P.effectiveNamespace = mikrouliNamespace := by
    simp [policies, defaultDenyAll, allowDnsEgress, allowApiEgressToDatabases, allowWebEgressToApi,
      allowIngressToWeb, allowIngressToApiFromWeb, allowDatabasesIngressFromApi,
      allowApiEgressObservability, allowApiEgressHttps, allowRedisReplicaEgressToPrimary,
      allowRedisPrimaryIngressFromReplica, allowAcmeSolverIngress, policy,
      NetworkPolicy.effectiveNamespace]
  rw [NetworkPolicy.selects, Bool.and_eq_true, decide_eq_true_eq, namespaces P listed] at selected
  exact absurd selected.1 outside

/-- Inside the namespace, what one pod opens and the other takes in. -/
theorem reaches_of_opens_accepts
    (own : (c.namespaceLabels mikrouliNamespace).lookup namespaceNameLabel = some mikrouliNamespace)
    (source : a.namespace = mikrouliNamespace) (target : b.namespace = mikrouliNamespace)
    (opens : Opens c a b protocol n) (accepts : Accepts c b a protocol n) :
    Reaches c a b protocol n := by
  cases opens with
  | dns there _ => exact absurd there (not_inNamespaceNamed own target (by decide))
  | traces _ there => exact absurd there (not_inNamespaceNamed own target (by decide))
  | postgres api _ there => exact .postgres source api there
  | redis api _ there => exact .redis source api there
  | clickhouse api _ there either => exact .clickhouse source api there either
  | api web _ there => exact .api source web there
  | replication replica _ there => exact .replication source replica there
  | https api block =>
    cases accepts with
    | web _ there => exact absurd there (not_inNamespaceNamed own source (by decide))
    | database here _ _ => exact .https source api here block
    | api _ _ web =>
      rcases api with api | api
      · exact absurd (api.eq web) (by decide)
      · exact absurd (api.eq web) (by decide)

/-- **The network.** Whatever labels the pods of a cluster carry, a pod of the namespace can be
connected to only by the web from the edge, by the API from the web, by the databases from the API,
by the primary Redis from its replicas, and by a certificate solver from outside; and these can. -/
theorem connects_iff
    (own : (c.namespaceLabels mikrouliNamespace).lookup namespaceNameLabel = some mikrouliNamespace)
    (target : b.namespace = mikrouliNamespace) :
    Connects c a b protocol n ↔ Reaches c a b protocol n := by
  by_cases source : a.namespace = mikrouliNamespace
  · rw [Connects, permitted_egress_iff source, permitted_ingress_iff target]
    constructor
    · rintro ⟨opens, accepts⟩
      exact reaches_of_opens_accepts own source target opens accepts
    · intro reaches
      cases reaches with
      | postgres _ api there => exact ⟨.postgres api target there, .database (.inl there) source api⟩
      | redis _ api there =>
        exact ⟨.redis api target there, .database (.inr (.inl there)) source api⟩
      | clickhouse _ api there either =>
        exact ⟨.clickhouse api target there either, .database (.inr (.inr there)) source api⟩
      | https _ api there block => exact ⟨.https api block, .database there source api⟩
      | api _ web there => exact ⟨.api web target there, .api there source web⟩
      | replication _ replica there =>
        exact ⟨.replication replica target there, .replication there source replica⟩
      | edge outside _ _ => exact absurd source outside
      | solver outside _ => exact absurd source outside
  · rw [Connects, permitted_ingress_iff target]
    constructor
    · rintro ⟨-, accepts⟩
      cases accepts with
      | web here there => exact .edge source there here
      | solver here => exact .solver source here
      | api _ inside _ => exact absurd inside source
      | database _ inside _ => exact absurd inside source
      | replication _ inside _ => exact absurd inside source
    · intro reaches
      refine ⟨permitted_outside source, ?_⟩
      cases reaches with
      | edge _ here there => exact .web there here
      | solver _ there => exact .solver there
      | postgres inside _ _ => exact absurd inside source
      | redis inside _ _ => exact absurd inside source
      | clickhouse inside _ _ _ => exact absurd inside source
      | https inside _ _ _ => exact absurd inside source
      | api inside _ _ => exact absurd inside source
      | replication inside _ _ => exact absurd inside source

/-! ### The backups -/

/-- A pod of that name opens nothing but name lookups. -/
theorem opens_named_iff {name : String} (named : Named name a)
    (unlisted : name ∉ ["api", "api-migration", "web", "redis"]) :
    Opens c a b protocol n ↔
      InNamespaceNamed c "kube-system" b ∧ (protocol = .udp ∨ protocol = .tcp) ∧ n = 53 := by
  have other : ∀ x ∈ ["api", "api-migration", "web", "redis"], ¬ Named x a := by
    intro x listed named'
    exact unlisted (named.eq named' ▸ listed)
  have api : ¬ IsApi a := by
    rintro (api | api)
    · exact other _ (by simp) api
    · exact other _ (by simp) api
  constructor
  · intro opens
    cases opens with
    | dns there either => exact ⟨there, either, rfl⟩
    | postgres is _ _ => exact absurd is api
    | redis is _ _ => exact absurd is api
    | clickhouse is _ _ _ => exact absurd is api
    | traces is _ => exact absurd is api
    | https is _ => exact absurd is api
    | api web _ _ => exact absurd web (other _ (by simp))
    | replication replica _ _ => exact absurd replica.1 (other _ (by simp))
  · rintro ⟨there, either, rfl⟩
    exact .dns there either

/-- **Backups.** The suite lets the backup jobs look names up and nothing else: they reach no database
to dump and no store to put the dump into. -/
theorem permitted_backup_iff (runs : Runs postgresBackup a ∨ Runs clickhouseBackup a) :
    (Permitted c policies .egress a b protocol n ↔
        InNamespaceNamed c "kube-system" b ∧ (protocol = .udp ∨ protocol = .tcp) ∧ n = 53) ∧
      ((c.namespaceLabels mikrouliNamespace).lookup namespaceNameLabel = some mikrouliNamespace →
        b.namespace = mikrouliNamespace → ¬ Connects c a b protocol n) := by
  have inside : a.namespace = mikrouliNamespace := by
    rcases runs with runs | runs
    · exact runs.1
    · exact runs.1
  have opens : Opens c a b protocol n ↔
      InNamespaceNamed c "kube-system" b ∧ (protocol = .udp ∨ protocol = .tcp) ∧ n = 53 := by
    rcases runs with runs | runs
    · exact opens_named_iff (runs.2 (nameLabel, "postgres-backup") (by simp [postgresBackup, template]))
        (by decide)
    · exact opens_named_iff
        (runs.2 (nameLabel, "clickhouse-backup") (by simp [clickhouseBackup, template])) (by decide)
  refine ⟨(permitted_egress_iff inside).trans opens, ?_⟩
  intro own target connects
  have names := opens.1 ((permitted_egress_iff inside).1 connects.1)
  exact not_inNamespaceNamed own target (by decide) names.1

/-! ### Examples -/

/-- A cluster whose namespaces are labelled with their names, and whose pods have IPv4 addresses. -/
def sampleCluster : Cluster where
  namespaceLabels name := [(namespaceNameLabel, name)]
  inBlock cidr cut _ := decide (cidr = "0.0.0.0/0" ∧ cut = [])

def samplePod (name : String) : Pod := ⟨mikrouliNamespace, template name, []⟩

theorem connects_iff_apiToPostgres :
    Connects sampleCluster (samplePod "api") (samplePod "postgres") .tcp 5432 ∧
      ¬ Connects sampleCluster (samplePod "web") (samplePod "postgres") .tcp 5432 := by
  constructor
  · exact (connects_iff rfl rfl).2 (.postgres rfl (.inl rfl) rfl)
  · intro connects
    have web : Named "web" (samplePod "web") := rfl
    cases (connects_iff rfl rfl).1 connects with
    | postgres _ api _ =>
      rcases api with api | api
      · exact absurd (api.eq web) (by decide)
      · exact absurd (api.eq web) (by decide)
    | clickhouse _ _ _ either => omega
    | edge outside _ _ => exact outside rfl

theorem permitted_backup_iff_postgres :
    ¬ Connects sampleCluster (samplePod "postgres-backup") (samplePod "postgres") .tcp 5432 :=
  (permitted_backup_iff (.inl ⟨rfl, by decide⟩)).2 rfl rfl

end Mikrouli.ClusterNetwork
