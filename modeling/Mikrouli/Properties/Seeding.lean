import Mikrouli.Lib.CheckThenAct
import Mikrouli.Model.StatsSchema
import Mikrouli.Properties.Conservation

/-! What the boots of the pods make of the dictionaries, however they are interleaved and whichever
of their requests fail. The count of a table and its seed are two requests: pods that boot at once
may both find it empty. -/

namespace Mikrouli.StatsSchema

open Async

variable {es : List (Event boots)}

/-! ### One boot -/

/-- The newest thing a boot did: it found the table empty. -/
def foundEmpty (table : String) : List (Event boots) → Bool
  | .call (.count t) (.ok n) :: _ => decide (t = table) && decide ((n : Nat) = 0)
  | _ => false

/-- A boot inserts nothing but the seed of a table, right after it found it empty. -/
def SeedsEmpty (es : List (Event boots)) : SchemaCmd → Prop
  | .insert table values => foundEmpty table es = true ∧ ⟨table, values⟩ ∈ DICTIONARY_TABLES
  | _ => True

def failed : Event boots → Bool
  | .call _ (.error ()) => true
  | _ => false

/-- No request of the boot has failed. -/
def Clean (es : List (Event boots)) : Prop := es.any failed = false

instance (es : List (Event boots)) : Decidable (Clean es) :=
  inferInstanceAs (Decidable (es.any failed = false))

/-- The boot has seen rows in the table, or has put them there. -/
def Settled (es : List (Event boots)) (d : Dictionary) : Prop :=
  (∃ n : Nat, 0 < n ∧ .call (.count d.table) (.ok n) ∈ es) ∨
    .call (.insert d.table d.rows) (.ok ()) ∈ es

theorem Settled.mono {es' : List (Event boots)} {d : Dictionary} (settled : Settled es d)
    (grown : es ⊆ es') : Settled es' d := by
  rcases settled with ⟨n, positive, counted⟩ | inserted
  · exact .inl ⟨n, positive, grown counted⟩
  · exact .inr (grown inserted)

/-- A part of a boot: it settles some tables, unless one of its requests fails. -/
def Part (dictionaries : List Dictionary) (es : List (Event boots)) : Except Unit Unit → Prop
  | .ok () => ∀ d ∈ dictionaries, Settled es d
  | .error () => ¬Clean es

theorem not_clean {c : SchemaCmd} : ¬Clean (.call c (.error ()) :: es) := by
  simp [Clean, failed]

theorem along_ask {c : SchemaCmd} {ψ : List (Event boots) → Except Unit c.Res → Prop}
    (before : SeedsEmpty es c) (after : ∀ res, ψ (.call c res :: es) res) :
    Along SeedsEmpty ψ (ask c) es :=
  Along.perform before fun res _ => after res

theorem along_runDdlList (ddls : List String) :
    Along SeedsEmpty (Part []) (runDdlList ddls) es := by
  induction ddls generalizing es with
  | nil => exact fun d mem => absurd mem (List.not_mem_nil)
  | cons table ddls ih =>
    refine Along.bind (along_ask trivial fun res => ?_)
    cases res with
    | ok _ => exact ih
    | error e => exact not_clean

theorem along_seedTableIfEmpty {d : Dictionary} (known : d ∈ DICTIONARY_TABLES) :
    Along SeedsEmpty (Part [d]) (seedTableIfEmpty d) es := by
  refine Along.bind (along_ask (c := .count d.table) trivial fun res => ?_)
  cases res with
  | error e => exact not_clean
  | ok n =>
    by_cases positive : (n : Nat) > 0
    · simp only [positive, if_true]
      intro d' mem
      obtain rfl := List.mem_singleton.mp mem
      exact .inl ⟨n, positive, List.mem_cons_self ..⟩
    · simp only [positive, if_false]
      have zero : (n : Nat) = 0 := Nat.eq_zero_of_not_pos positive
      refine along_ask ⟨by simp [foundEmpty, zero], known⟩ fun res => ?_
      cases res with
      | error e => exact not_clean
      | ok _ =>
        intro d' mem
        obtain rfl := List.mem_singleton.mp mem
        exact .inr (List.mem_cons_self ..)

theorem along_seedAllDictionaries {dictionaries : List Dictionary}
    (known : dictionaries ⊆ DICTIONARY_TABLES) :
    Along SeedsEmpty (Part dictionaries) (seedAllDictionaries dictionaries) es := by
  induction dictionaries generalizing es with
  | nil => exact fun d mem => absurd mem (List.not_mem_nil)
  | cons d dictionaries ih =>
    have first : Along SeedsEmpty (Part [d]) (seedTableIfEmpty d) es :=
      along_seedTableIfEmpty (known (List.mem_cons_self ..))
    refine Along.bind (first.mono fun es₁ r part => ?_)
    cases r with
    | error e => exact part
    | ok _ =>
      have rest : Along SeedsEmpty (Part dictionaries) (seedAllDictionaries dictionaries) es₁ :=
        ih fun d' mem => known (List.mem_cons_of_mem _ mem)
      refine rest.grows.mono fun es₂ r ⟨grown, part'⟩ => ?_
      cases r with
      | error e => exact part'
      | ok _ =>
        intro d' mem
        rcases List.mem_cons.mp mem with rfl | later
        · exact (part _ (List.mem_singleton_self _)).mono grown
        · exact part' d' later

/-- A boot never throws, and one without a failure has settled every dictionary. -/
def Booted (_ : Unit) (es : List (Event boots)) (r : Except Unit Unit) : Prop :=
  r = .ok () ∧ (Clean es → ∀ d ∈ DICTIONARY_TABLES, Settled es d)

theorem along_initSchemaAndSeed : Along SeedsEmpty (Booted ()) initSchemaAndSeed es := by
  refine Along.tryCatch (Along.bind ((along_runDdlList STATS_DDL).mono fun es₁ r part => ?_))
  cases r with
  | error e => exact ⟨rfl, fun clean => absurd clean part⟩
  | ok _ =>
    refine (along_seedAllDictionaries fun _ mem => mem).mono fun es₂ r part => ?_
    cases r with
    | error e => exact ⟨rfl, fun clean => absurd clean part⟩
    | ok _ => exact ⟨rfl, fun _ => part⟩

/-! ### The server -/

section Server

variable (s : Tables) (delivery : Delivery) (table : String) (values : List DictionaryRow)

theorem deliver_command : (deliver (.command table) delivery s).2.rows = s.rows := by
  cases delivery <;> simp [deliver, Tables.serve] <;> split <;> rfl

theorem deliver_count : (deliver (.count table) delivery s).2 = s ∧
    ((deliver (.count table) delivery s).1 = .error () ∨
      (deliver (.count table) delivery s).1 = .ok (s.rows table).length) := by
  cases delivery <;> simp [deliver, Tables.serve] <;> split <;> simp

/-- An insertion that is not answered may have happened all the same. -/
theorem deliver_insert :
    (deliver (.insert table values) delivery s).2.rows = s.rows ∧
        (deliver (.insert table values) delivery s).1 = .error () ∨
      (deliver (.insert table values) delivery s).2.rows =
        Function.update s.rows table (s.rows table ++ values) := by
  cases delivery <;> simp [deliver, Tables.serve] <;> split <;> simp

end Server

/-! ### All boots -/

section Boots

variable {k copies : Nat} {d : Dictionary} {σ : Shared boots} {i : Nat}

/-- When a boot counts a table, fewer than `k` others have found it empty and have not come to
their insertion yet. -/
def atOnce (k : Nat) (σ : Shared boots) : Act boots → Prop
  | .call _ (.count table) _ => (σ.census (foundEmpty table)).card < k
  | _ => True

/-- A table holds whole copies of its seed, as many as the abstract check and act have made. -/
structure Seeded (k : Nat) (d : Dictionary) (σ : Shared boots) (copies : Nat) : Prop where
  rows : σ.world.rows d.table = (List.replicate copies d.rows).flatten
  run : CheckThenAct.Run 1 k (0, 0) (copies, (σ.census (foundEmpty d.table)).card)
  settled : ∀ i, Settled (σ.own i) d → 1 ≤ copies

theorem rows_ne_nil : ∀ d ∈ DICTIONARY_TABLES, d.rows ≠ [] := by decide

theorem eq_of_table : ∀ d ∈ DICTIONARY_TABLES, ∀ d' ∈ DICTIONARY_TABLES,
    d.table = d'.table → d = d' := by
  decide

/-- The table is empty only without a copy. -/
theorem Seeded.length_eq_zero (seeded : Seeded k d σ copies) (known : d ∈ DICTIONARY_TABLES) :
    (σ.world.rows d.table).length = 0 ↔ copies = 0 := by
  rw [seeded.rows]
  have positive := List.length_pos_iff.mpr (rows_ne_nil d known)
  simp [List.length_flatten, Nat.pos_iff_ne_zero.mp positive]

theorem settled_called {c : SchemaCmd} {res : Except Unit c.Res} {w : Tables} {j : Nat}
    (settled : Settled ((σ.called i c res w).own j) d) :
    Settled (σ.own j) d ∨ Settled [.call c res] d := by
  rcases settled with ⟨n, positive, counted⟩ | inserted
  · rcases Shared.mem_own_called.mp counted with ⟨-, new⟩ | old
    · exact .inr (.inl ⟨n, positive, by simp [new]⟩)
    · exact .inl (.inl ⟨n, positive, old⟩)
  · rcases Shared.mem_own_called.mp inserted with ⟨-, new⟩ | old
    · exact .inr (.inr (by simp [new]))
    · exact .inl (.inr old)

theorem not_settled_of_failed {c : SchemaCmd} : ¬Settled [.call c (.error ())] d := by
  rintro (⟨n, -, new⟩ | new)
  · cases List.mem_singleton.mp new
  · cases List.mem_singleton.mp new

theorem not_settled_of_ne {c : SchemaCmd} {res : Except Unit c.Res}
    (uncounted : c ≠ .count d.table) (unseeded : c ≠ .insert d.table d.rows) :
    ¬Settled [.call c res] d := by
  rintro (⟨n, -, new⟩ | new)
  · cases List.mem_singleton.mp new
    exact uncounted rfl
  · cases List.mem_singleton.mp new
    exact unseeded rfl

/-- A request after which the table is as it was, and whose boot is not about to seed it. -/
theorem Seeded.idle {c : SchemaCmd} {res : Except Unit c.Res} {w : Tables}
    (seeded : Seeded k d σ copies) (same : w.rows d.table = σ.world.rows d.table)
    (elsewhere : foundEmpty d.table (.call c res :: σ.own i) = false)
    (settles : Settled [.call c res] d → 1 ≤ copies) : Seeded k d (σ.called i c res w) copies where
  rows := same.trans seeded.rows
  run := seeded.run.ease (Nat.le_refl _) <|
    Shared.card_census_called_le rfl fun found => by simp [elsewhere] at found
  settled j settled := by
    rcases settled_called settled with old | new
    · exact seeded.settled j old
    · exact settles new

/-- A boot seeds a table right after it found it empty, whatever others have done since. -/
theorem Seeded.insert {delivery : Delivery} (seeded : Seeded k d σ copies)
    (found : foundEmpty d.table (σ.own i) = true) :
    ∃ copies', Seeded k d (σ.called i (.insert d.table d.rows)
      (deliver (.insert d.table d.rows) delivery σ.world).1
      (deliver (.insert d.table d.rows) delivery σ.world).2) copies' := by
  rcases deliver_insert σ.world delivery d.table d.rows with ⟨same, failed⟩ | inserted
  · refine ⟨copies, seeded.idle (congrFun same _) rfl fun settled => ?_⟩
    rw [failed] at settled
    exact absurd settled not_settled_of_failed
  · refine ⟨copies + 1, ?_, ?_, fun _ _ => Nat.le_add_left ..⟩
    · rw [Shared.called_world, inserted, Function.update_self, seeded.rows, List.replicate_succ',
        List.flatten_append, List.flatten_singleton]
    · exact seeded.run.act (Shared.card_census_called_leave rfl found rfl)

/-- A count that finds rows finds copies; one that finds none makes the boot seed the table. -/
theorem Seeded.count {delivery : Delivery} (seeded : Seeded k d σ copies)
    (known : d ∈ DICTIONARY_TABLES) (allowed : atOnce k σ (.call i (.count d.table) delivery)) :
    Seeded k d (σ.called i (.count d.table) (deliver (.count d.table) delivery σ.world).1
      (deliver (.count d.table) delivery σ.world).2) copies := by
  obtain ⟨same, failed | counted⟩ := deliver_count σ.world delivery d.table
  · rw [same, failed]
    exact seeded.idle rfl rfl fun settled => absurd settled not_settled_of_failed
  · rw [same, counted]
    by_cases absent : copies = 0
    · have below : (copies : Int) < 1 := by omega
      refine ⟨seeded.rows, ?_, fun j settled => ?_⟩
      · exact seeded.run.check below allowed (Shared.card_census_called_le_succ rfl)
      · have empty := (seeded.length_eq_zero known).mpr absent
        rcases settled_called settled with old | ⟨n, positive, new⟩ | new
        · exact seeded.settled j old
        · have length : n = (σ.world.rows d.table).length := by simpa using new
          rw [length, empty] at positive
          exact absurd positive (Nat.lt_irrefl 0)
        · simp at new
    · have filled := (seeded.length_eq_zero known).not.mpr absent
      refine seeded.idle rfl ?_ fun _ => Nat.pos_of_ne_zero absent
      simpa [foundEmpty] using filled

theorem Seeded.called (seeded : Seeded k d σ copies) (known : d ∈ DICTIONARY_TABLES)
    {c : SchemaCmd} {delivery : Delivery} (seeds : SeedsEmpty (σ.own i) c)
    (allowed : atOnce k σ (.call i c delivery)) :
    ∃ copies', Seeded k d
      (σ.called i c (deliver c delivery σ.world).1 (deliver c delivery σ.world).2) copies' := by
  cases c with
  | command table =>
    refine ⟨copies, seeded.idle (congrFun (deliver_command ..) _) rfl fun settled => ?_⟩
    exact absurd settled (not_settled_of_ne nofun nofun)
  | count table =>
    by_cases same : table = d.table
    · subst same
      exact ⟨copies, seeded.count known allowed⟩
    · refine ⟨copies, seeded.idle ?_ ?_ fun settled => absurd settled ?_⟩
      · rw [(deliver_count σ.world delivery table).1]
      · rcases deliver_count σ.world delivery table with ⟨-, r | r⟩
        · rw [r]; rfl
        · rw [r]; simp [foundEmpty, same]
      · exact not_settled_of_ne (fun counted => same (SchemaCmd.count.inj counted)) nofun
  | insert table values =>
    obtain ⟨found, listed⟩ := seeds
    by_cases same : table = d.table
    · obtain rfl : d = ⟨table, values⟩ := eq_of_table d known _ listed same.symm
      exact seeded.insert found
    · refine ⟨copies, seeded.idle ?_ rfl fun settled => absurd settled ?_⟩
      · rcases deliver_insert σ.world delivery table values with ⟨r, -⟩ | r
        · rw [r]
        · rw [r, Function.update_of_ne (Ne.symm same)]
      · exact not_settled_of_ne nofun fun seeding => same (SchemaCmd.insert.inj seeding).1

theorem Seeded.started {n : Nat} {r : Unit} (seeded : Seeded k d σ copies)
    (fresh : σ.own n = []) : Seeded k d (σ.started n r) copies where
  rows := seeded.rows
  run := by
    rw [Shared.census_started rfl fresh rfl]
    exact seeded.run
  settled j settled := by
    refine seeded.settled j ?_
    rcases settled with ⟨n, positive, counted⟩ | inserted
    · exact .inl ⟨n, positive, Shared.call_mem_own_started.mp counted⟩
    · exact .inr (Shared.call_mem_own_started.mp inserted)

theorem seeded_initial : Seeded k d (initial (V := boots) Tables.empty).shared 0 where
  rows := rfl
  run := .refl
  settled i settled := by
    rcases settled with ⟨n, -, counted⟩ | inserted
    · cases counted
    · cases inserted

/-- The contract of a boot. -/
abbrev booting : Contract boots := .ofHistory SeedsEmpty Booted

theorem booting_sound {G : Guard boots} : booting.Sound G :=
  Contract.ofHistory_sound fun _ => along_initSchemaAndSeed

theorem seeded_acts {σ' : Shared boots} (known : d ∈ DICTIONARY_TABLES)
    (acts : booting.Acts (atOnce k) σ σ') (seeded : ∃ copies, Seeded k d σ copies) :
    ∃ copies, Seeded k d σ' copies := by
  obtain ⟨copies, seeded⟩ := seeded
  cases acts with
  | start n r fresh _ => exact ⟨copies, seeded.started fresh⟩
  | call pre returned allowed =>
    have outcome : deliver _ _ σ.world = (_, _) := Option.some.inj returned
    have kept := seeded.called known pre allowed
    rw [outcome] at kept
    exact kept
  | env e _ => exact e.elim

variable {c : Config boots}

theorem booting_holds (reach : Reach (atOnce k) (initial Tables.empty) c) :
    booting.Holds (atOnce k) c :=
  (Contract.ofHistory_holds _).reach booting_sound reach

theorem seeded_of_reach (reach : Reach (atOnce k) (initial Tables.empty) c)
    (known : d ∈ DICTIONARY_TABLES) : ∃ copies, Seeded k d c.shared copies := by
  have initially : booting.Holds (atOnce k) (initial Tables.empty) := Contract.ofHistory_holds _
  exact initially.invariant booting_sound (fun _ _ _ acts => seeded_acts known acts)
    ⟨0, seeded_initial⟩ reach

/-- A boot that is over and of which no request failed has left every dictionary with a copy. -/
theorem Seeded.copied (seeded : Seeded k d c.shared copies) (known : d ∈ DICTIONARY_TABLES)
    (holds : booting.Holds (atOnce k) c) (answered : c.Answered i () ())
    (clean : Clean (c.shared.own i)) : 1 ≤ copies :=
  seeded.settled i ((holds.history_ok answered).2 clean d known)

theorem boot_never_fails (reach : Reach (atOnce k) (initial Tables.empty) c) (i : Nat) :
    ¬c.Failed i () := by
  rintro ⟨e, failed⟩
  obtain ⟨ended, -⟩ := (booting_holds reach).history_error failed
  cases ended

/-- Where at most `k` boots overlap between finding a table empty and seeding it, the table holds
at most `k` whole copies of its seed and nothing else. It holds one at least as soon as a boot is
over of which no request failed. No boot keeps its pod from starting. -/
theorem copies_of_boots (positive : 1 ≤ k) (reach : Reach (atOnce k) (initial Tables.empty) c)
    (known : d ∈ DICTIONARY_TABLES) :
    (∀ i, ¬c.Failed i ()) ∧ ∃ copies ≤ k,
      c.shared.world.rows d.table = (List.replicate copies d.rows).flatten ∧
        ∀ i, c.Answered i () () → Clean (c.shared.own i) → 1 ≤ copies := by
  have holds := booting_holds reach
  obtain ⟨copies, seeded⟩ := seeded_of_reach reach known
  refine ⟨boot_never_fails reach, copies, ?_, seeded.rows, fun i answered clean => ?_⟩
  · have bound := CheckThenAct.acts_le_of_run positive (by decide) seeded.run
    omega
  · exact seeded.copied known holds answered clean

theorem atOnce.mono {k' : Nat} (le : k ≤ k') {a : Act boots} (allowed : atOnce k σ a) :
    atOnce k' σ a := by
  unfold atOnce at allowed ⊢
  split at allowed
  · exact Nat.lt_of_lt_of_le allowed le
  · trivial

theorem exists_atOnce_step {c' : Config boots} (step : Step anyStep c c') :
    ∃ k, Step (atOnce k) c c' := by
  cases step with
  | start r _ => exact ⟨0, .start r trivial⟩
  | @call σ _ _ _ cmd _ _ _ _ thread returned _ =>
    cases cmd with
    | count table =>
      exact ⟨(σ.census (foundEmpty table)).card + 1, .call thread returned (Nat.lt_succ_self _)⟩
    | command table => exact ⟨0, .call thread returned trivial⟩
    | insert table rows => exact ⟨0, .call thread returned trivial⟩
  | env e _ => exact e.elim

/-- However many boots overlap, there is a bound to it. -/
theorem exists_atOnce (reach : Reach anyStep (initial Tables.empty) c) :
    ∃ k, 1 ≤ k ∧ Reach (atOnce k) (initial Tables.empty) c := by
  induction reach with
  | refl => exact ⟨1, Nat.le_refl 1, .refl⟩
  | tail _ step ih =>
    obtain ⟨k, positive, reach⟩ := ih
    obtain ⟨k', step⟩ := exists_atOnce_step step
    have reach' := reach.weaken fun _ _ => atOnce.mono (Nat.le_max_left k k')
    have step' := step.weaken fun _ _ => atOnce.mono (Nat.le_max_right k k')
    exact ⟨max k k', Nat.le_trans positive (Nat.le_max_left k k'), reach'.tail step'⟩

/-- In whatever order the boots run, no pod fails to start, and a table holds whole copies of its
seed only. -/
theorem wholeCopies_of_reach (reach : Reach anyStep (initial Tables.empty) c)
    (known : d ∈ DICTIONARY_TABLES) :
    (∀ i, ¬c.Failed i ()) ∧
      ∃ copies, c.shared.world.rows d.table = (List.replicate copies d.rows).flatten := by
  obtain ⟨k, positive, reach⟩ := exists_atOnce reach
  obtain ⟨copies, seeded⟩ := seeded_of_reach reach known
  exact ⟨boot_never_fails reach, copies, seeded.rows⟩

/-- Decides that no boot but one more is about to seed the table that is counted. -/
def twoBoots (σ : Shared boots) : Act boots → Bool
  | .call _ (.count table) _ => decide ((σ.census (foundEmpty table)).card < 2)
  | _ => true

theorem atOnce_of_twoBoots (σ : Shared boots) (a : Act boots) (ready : twoBoots σ a = true) :
    atOnce 2 σ a := by
  cases a with
  | call i c delivery =>
    cases c with
    | count table =>
      have few : (σ.census (foundEmpty table)).card < 2 := of_decide_eq_true ready
      exact few
    | _ => trivial
  | _ => trivial

/-- Two pods boot: both create the tables and find the first dictionary empty. -/
def twoPods : List (Move boots) :=
  [.start (), .start ()] ++ List.replicate 7 (.run 0 .answered) ++
    List.replicate 7 (.run 1 .answered) ++ List.replicate 7 (.run 0 .answered) ++
    List.replicate 4 (.run 1 .answered)

/-- The first dictionary holds its seed twice, and the second does not. -/
theorem copies_of_boots_twoPods : ∃ c : Config boots,
    (c.shared.world.rows "os" = OS_SEED ++ OS_SEED ∧
      c.shared.world.rows "browsers" = BROWSER_SEED) ∧
        ∃ copies ≤ 2, OS_SEED ++ OS_SEED = (List.replicate copies OS_SEED).flatten := by
  obtain ⟨c, reach, twice⟩ := exists_reach_of_play atOnce_of_twoBoots
    (initial Tables.empty) twoPods
    (fun c => decide (c.shared.world.rows "os" = OS_SEED ++ OS_SEED ∧
      c.shared.world.rows "browsers" = BROWSER_SEED)) (by decide +kernel)
  have seeded := of_decide_eq_true twice
  obtain ⟨-, copies, few, rows, -⟩ := copies_of_boots (by decide) reach
    (d := ⟨"os", OS_SEED⟩) (by decide)
  exact ⟨c, seeded, copies, few, seeded.1.symm.trans rows⟩

/-! ### What the dictionaries name -/

def Names (rows : List DictionaryRow) (id : Nat) : Prop := ∃ row ∈ rows, row.id = id

instance (rows : List DictionaryRow) (id : Nat) : Decidable (Names rows id) :=
  inferInstanceAs (Decidable (∃ row ∈ rows, row.id = id))

theorem Seeded.names (seeded : Seeded k d σ copies) (copied : 1 ≤ copies) {id : Nat}
    (named : Names d.rows id) : Names (σ.world.rows d.table) id := by
  obtain ⟨row, member, same⟩ := named
  refine ⟨row, ?_, same⟩
  rw [seeded.rows, List.mem_flatten]
  exact ⟨d.rows, List.mem_replicate.mpr ⟨Nat.ne_of_gt copied, rfl⟩, member⟩

theorem os_named (ua : Option String) : Names OS_SEED (parseOsId ua) :=
  (by decide : ∀ id < 6, Names OS_SEED id) _ (firstMatch_lt (by decide) (by decide) ua)

theorem browser_named (ua : Option String) : Names BROWSER_SEED (parseBrowserId ua) :=
  (by decide : ∀ id < 6, Names BROWSER_SEED id) _ (parseBrowserId_lt ua)

/-- Once a boot is over of which no request failed, the dictionaries name every id that a click is
recorded with. -/
theorem names_of_boots (reach : Reach (atOnce k) (initial Tables.empty) c)
    (answered : c.Answered i () ()) (clean : Clean (c.shared.own i)) (shortUrl : String)
    (ip ua : Option String) :
    Names (c.shared.world.rows "os") (buildStatRow shortUrl ip ua).osId ∧
      Names (c.shared.world.rows "browsers") (buildStatRow shortUrl ip ua).browserId ∧
        Names (c.shared.world.rows "countries") (buildStatRow shortUrl ip ua).countryId ∧
          Names (c.shared.world.rows "cities") (buildStatRow shortUrl ip ua).cityId := by
  have named : ∀ d ∈ DICTIONARY_TABLES, ∀ id, Names d.rows id →
      Names (c.shared.world.rows d.table) id := by
    intro d known id listed
    obtain ⟨copies, seeded⟩ := seeded_of_reach reach known
    exact seeded.names (seeded.copied known (booting_holds reach) answered clean) listed
  refine ⟨?_, ?_, ?_, ?_⟩
  · exact named ⟨"os", OS_SEED⟩ (by decide) _ (os_named ua)
  · exact named ⟨"browsers", BROWSER_SEED⟩ (by decide) _ (browser_named ua)
  · exact named ⟨"countries", COUNTRY_SEED⟩ (by decide) _ (by decide : Names COUNTRY_SEED 0)
  · exact named ⟨"cities", CITY_SEED⟩ (by decide) _ (by decide : Names CITY_SEED 0)

/-- A click from Firefox, after two pods have booted. -/
theorem names_of_boots_twoPods : ∃ c : Config boots,
    (c.Answered 0 () () ∧ Clean (c.shared.own 0)) ∧ Names (c.shared.world.rows "os") 0 ∧
      Names (c.shared.world.rows "browsers") 2 ∧ Names (c.shared.world.rows "countries") 0 ∧
        Names (c.shared.world.rows "cities") 0 := by
  obtain ⟨c, reach, booted⟩ := exists_reach_of_play atOnce_of_twoBoots
    (initial Tables.empty) twoPods
    (fun c => decide (c.answer? 0 = some ((), ())) && decide (Clean (c.shared.own 0)))
    (by decide +kernel)
  simp only [Bool.and_eq_true, decide_eq_true_eq] at booted
  have answered : c.Answered 0 () () := answered_of_answer? booted.1
  have named := names_of_boots reach answered booted.2 "abc123" none (some "Firefox")
  have ids : buildStatRow "abc123" none (some "Firefox") = ⟨"abc123", "", 0, 0, 0, 2⟩ := by
    decide +kernel
  rw [ids] at named
  exact ⟨c, ⟨answered, booted.2⟩, named⟩

end Boots

end Mikrouli.StatsSchema
