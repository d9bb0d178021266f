import Mikrouli.Model.Links
import Mikrouli.Properties.Alone

/-! The cleanup job over every batch and every pattern of failures. -/

namespace Mikrouli

open Async Store

variable {P : Platform} {i : Nat} {w w' : World}

/-! ### What the job did -/

/-- The slugs whose DELETE went through. -/
def deletedSlugs (log : List (Call api)) : List String :=
  log.filterMap fun
    | ⟨.deleteLink slug, .ok _⟩ => some slug
    | _ => none

/-- The slugs whose DELETE failed. -/
def failedSlugs (log : List (Call api)) : List String :=
  log.filterMap fun
    | ⟨.deleteLink slug, .error _⟩ => some slug
    | _ => none

/-- The cache keys whose DEL went through. -/
def evictedKeys (log : List (Call api)) : List String :=
  log.filterMap fun
    | ⟨.redisDel key, .ok _⟩ => some key
    | _ => none

/-- The batches of expired links that came back. -/
def batchesOf (log : List (Call api)) : List (List Link) :=
  log.filterMap fun
    | ⟨.findExpiredLinks _ _, .ok batch⟩ => some batch
    | _ => none

/-- After the calls of `log`, `count` of them successful deletes, the world is the one before less
the rows and entries deleted. -/
structure Swept (w₀ : World) (batches : List (List Link)) (w : World) (log : List (Call api))
    (count : Nat) : Prop where
  rows : ∀ r, r ∈ w.links.rows ↔ r ∈ w₀.links.rows ∧ r.slugKey ∉ (deletedSlugs log).map bpchar
  entries : ∀ key, w.redis key = if key ∈ evictedKeys log then none else w₀.redis key
  evicted : ∀ key ∈ evictedKeys log, ∃ slug ∈ deletedSlugs log, key = LinkCacheService.cacheKey slug
  counted : count = (deletedSlugs log).length
  found : batchesOf log = batches

/-- Each row that went had its cache entry dropped, or Redis failed to. -/
def Followed (log : List (Call api)) : Prop :=
  ∀ slug ∈ deletedSlugs log, LinkCacheService.cacheKey slug ∈ evictedKeys log ∨
    ∃ e, ⟨.redisDel (LinkCacheService.cacheKey slug), .error e⟩ ∈ log

variable {w₀ : World} {bs : List (List Link)} {log : List (Call api)} {count : Nat}

theorem Swept.delete (swept : Swept w₀ bs w log count) (slug : String) (n : Nat) (ms : Nat) :
    Swept w₀ bs { w.advance ms with
        links := w.links.delete fun l => decide (l.slugKey = bpchar slug) }
      (⟨.deleteLink slug, .ok n⟩ :: log) (count + 1) where
  rows r := by
    have slugs : deletedSlugs (⟨.deleteLink slug, .ok n⟩ :: log) = slug :: deletedSlugs log := rfl
    rw [slugs, List.map_cons, List.mem_cons, not_or]
    refine Table.mem_delete.trans ?_
    rw [swept.rows r, decide_eq_false_iff_not]
    exact and_right_comm.trans and_assoc
  entries := swept.entries
  evicted key member := by
    obtain ⟨s, gone, same⟩ := swept.evicted key member
    exact ⟨s, List.mem_cons_of_mem slug gone, same⟩
  counted := congrArg Nat.succ swept.counted
  found := swept.found

theorem Swept.evict {slug : String} (swept : Swept w₀ bs w log count) (gone : slug ∈ deletedSlugs log) :
    Swept w₀ bs { w with redis := w.redis.del (LinkCacheService.cacheKey slug) }
      (⟨.redisDel (LinkCacheService.cacheKey slug), .ok ()⟩ :: log) count where
  rows := swept.rows
  entries key := by
    have keys : evictedKeys (⟨.redisDel (LinkCacheService.cacheKey slug), .ok ()⟩ :: log) =
        LinkCacheService.cacheKey slug :: evictedKeys log := rfl
    rw [keys]
    -- DEL takes the one key away and leaves the others
    by_cases same : key = LinkCacheService.cacheKey slug
    · simp [same]
    · simp [Expiring.del_apply, same, swept.entries key]
  evicted key member := by
    rcases List.mem_cons.mp member with rfl | before
    · exact ⟨slug, gone, rfl⟩
    · exact swept.evicted key before
  counted := swept.counted
  found := swept.found

/-- One link: its DELETE fails and nothing else happens, or its row goes and the cache is asked
to follow. -/
theorem deleteOneSafely_swept {link : Link} (swept : Swept w₀ bs w log count)
    (followed : Followed log) :
    Always (machine P).recorded (ticking P).recorded i
      (fun r w' => ∃ ok, r = .ok ok ∧ Swept w₀ bs w'.1 w'.2 (if ok then count + 1 else count) ∧
        Followed w'.2 ∧ (deletedSlugs w'.2 ++ failedSlugs w'.2).Perm
          (link.shortUrl.1 :: (deletedSlugs log ++ failedSlugs log)))
      (CleanupService.deleteOneSafely link) (w, log) := by
  apply Always.tryCatch
  apply Always.bind
  apply Always.bind
  apply ticking_perform
  intro ms ch res w₁ returned
  rcases exec_deleteLink returned with ⟨rfl, rfl⟩ | ⟨n, rfl, rfl⟩
  -- the DELETE failed: the error is caught, and the cache is not asked
  · refine ⟨false, rfl, ⟨swept.rows, swept.entries, swept.evicted, swept.counted, swept.found⟩, ?_, ?_⟩
    · intro slug gone
      exact (followed slug gone).imp id fun ⟨e, failed⟩ => ⟨e, List.mem_cons_of_mem _ failed⟩
    · exact List.perm_middle
  · have deleted := swept.delete link.shortUrl.1 n ms
    apply Always.tryCatch
    apply ticking_perform
    intro ms' ch' res' w₂ returned'
    -- the job counts the link whether or not its cache entry could be dropped
    rcases exec_redisDel returned' with ⟨-, rfl, rfl⟩ | ⟨-, rfl, rfl⟩
    · refine ⟨true, rfl, ⟨deleted.rows, deleted.entries, deleted.evicted, deleted.counted,
        deleted.found⟩, ?_, List.Perm.refl _⟩
      intro slug gone
      rcases List.mem_cons.mp gone with rfl | before
      · exact .inr ⟨_, List.mem_cons_self⟩
      · exact (followed slug before).imp id fun ⟨e, failed⟩ =>
          ⟨e, List.mem_cons_of_mem _ (List.mem_cons_of_mem _ failed)⟩
    · have evicted := deleted.evict List.mem_cons_self
      refine ⟨true, rfl, ⟨evicted.rows, evicted.entries, evicted.evicted, evicted.counted,
        evicted.found⟩, ?_, List.Perm.refl _⟩
      intro slug gone
      rcases List.mem_cons.mp gone with rfl | before
      · exact .inl List.mem_cons_self
      · exact (followed slug before).imp (List.mem_cons_of_mem _) fun ⟨e, failed⟩ =>
          ⟨e, List.mem_cons_of_mem _ (List.mem_cons_of_mem _ failed)⟩

theorem processBatch_swept {expired : List Link} (swept : Swept w₀ bs w log count)
    (followed : Followed log) :
    Always (machine P).recorded (ticking P).recorded i
      (fun r w' => ∃ n, r = .ok n ∧ Swept w₀ bs w'.1 w'.2 n ∧ Followed w'.2 ∧
        (deletedSlugs w'.2 ++ failedSlugs w'.2).Perm
          (expired.map (fun l => l.shortUrl.1) ++ (deletedSlugs log ++ failedSlugs log)))
      (CleanupService.processBatch count expired) (w, log) := by
  induction expired generalizing count w log with
  | nil => exact ⟨count, rfl, swept, followed, List.Perm.refl _⟩
  | cons link expired ih =>
    apply Always.bind
    refine (deleteOneSafely_swept swept followed).mono fun r w₁ one => ?_
    obtain ⟨ok, rfl, swept₁, followed₁, visited₁⟩ := one
    refine (ih swept₁ followed₁).mono fun r w₂ rest => ?_
    obtain ⟨n, rfl, swept₂, followed₂, visited₂⟩ := rest
    refine ⟨n, rfl, swept₂, followed₂, ?_⟩
    exact (visited₂.trans (visited₁.append_left _)).trans List.perm_middle

/-- The job either finds no batch, or tries each link of the one it finds once. -/
theorem handleCleanup_swept :
    Always (machine P).recorded (ticking P).recorded i
      (fun r w' => batchesOf w'.2 = [] ∨ ∃ batch n, r = .ok n ∧ Swept w [batch] w'.1 w'.2 n ∧
        Followed w'.2 ∧ (deletedSlugs w'.2 ++ failedSlugs w'.2).Perm
          (batch.map fun l => l.shortUrl.1) ∧ batch.Nodup ∧ ∀ l ∈ batch, l ∈ w.links.rows)
      CleanupService.handleCleanup (w, []) := by
  apply Always.bind
  apply ticking_perform
  intro ms ch res w₁ returned
  obtain ⟨rfl, rfl⟩ := exec_dateNow returned
  apply Always.bind
  apply ticking_perform
  intro ms' ch' res' w₂ returned'
  obtain ⟨rfl, rfl | ⟨batch, rfl, expired⟩⟩ := exec_findExpiredLinks returned'
  · exact .inl rfl
  · simp only [World.isExpiredBatch, decide_eq_true_eq] at expired
    -- nothing has been deleted when the batch comes back
    have start : Swept w [batch] ((w.advance ms).advance ms')
        [⟨.findExpiredLinks (w.advance ms).now CLEANUP_BATCH_SIZE, .ok batch⟩,
          ⟨.dateNow, .ok (w.advance ms).now⟩] 0 := by
      refine ⟨fun r => ?_, fun key => rfl, ?_, rfl, rfl⟩
      · exact (and_iff_left (List.not_mem_nil)).symm
      · exact fun key none => by cases none
    refine (processBatch_swept start fun slug none => by cases none).mono fun r w₃ rest => ?_
    obtain ⟨n, rfl, swept, followed, visited⟩ := rest
    refine .inr ⟨batch, n, rfl, swept, followed, ?_, expired.1, fun l member => ?_⟩
    · exact (List.append_nil (batch.map fun l => l.shortUrl.1)) ▸ visited
    · exact List.mem_of_mem_filter (expired.2.1 l member)

/-! ### Isolation -/

/-- Rows of one table with one slug in stored form are one row. -/
theorem link_eq_of_slug {l r : Link} (row : l ∈ w.links.rows) (row' : r ∈ w.links.rows)
    (same : r.slugKey = bpchar l.shortUrl.1) : r = l :=
  Table.eq_of_key (t := w.links) (k := Link.slugKey) (by simp) row' row same

theorem nodup_slugs {batch : List Link} (distinct : batch.Nodup)
    (rows : ∀ l ∈ batch, l ∈ w.links.rows) : (batch.map fun l => l.shortUrl.1).Nodup := by
  refine distinct.map_on fun l member l' member' same => ?_
  refine link_eq_of_slug (rows l' member') (rows l member) ?_
  rw [Link.slugKey, same]

/-- What the job leaves of the rows and cache entries of a batch, and of all others. -/
structure Isolates (w w' : World) (batch : List Link) (log : List (Call api)) (n : Nat) : Prop where
  tried : ∀ l ∈ batch, l.shortUrl.1 ∈ failedSlugs log ∨ l.shortUrl.1 ∈ deletedSlugs log
  failed : ∀ l ∈ batch, l.shortUrl.1 ∈ failedSlugs log → l ∈ w'.links.rows ∧
    w'.redis (LinkCacheService.cacheKey l.shortUrl.1) =
      w.redis (LinkCacheService.cacheKey l.shortUrl.1)
  gone : ∀ l ∈ batch, l.shortUrl.1 ∈ deletedSlugs log →
    w'.link? l.shortUrl.1 = none ∧
      ((∀ e, ⟨.redisDel (LinkCacheService.cacheKey l.shortUrl.1), .error e⟩ ∉ log) →
        w'.redis (LinkCacheService.cacheKey l.shortUrl.1) = none)
  others : ∀ l ∉ batch, l ∈ w'.links.rows ↔ l ∈ w.links.rows
  entries : ∀ key, (∀ l ∈ batch, key ≠ LinkCacheService.cacheKey l.shortUrl.1) →
    w'.redis key = w.redis key
  counted : n = (batch.filter fun l => decide (l.shortUrl.1 ∈ deletedSlugs log)).length

/-- A row whose stored slug was deleted is the row of that slug, and the batch has it. -/
theorem mem_batch_of_deleted {batch : List Link}
    (visited : (deletedSlugs log ++ failedSlugs log).Perm (batch.map fun l => l.shortUrl.1))
    (rows : ∀ l ∈ batch, l ∈ w.links.rows) {r : Link} (row : r ∈ w.links.rows)
    (gone : r.slugKey ∈ (deletedSlugs log).map bpchar) :
    r ∈ batch ∧ r.shortUrl.1 ∈ deletedSlugs log := by
  obtain ⟨slug, member, same⟩ := List.mem_map.mp gone
  obtain ⟨l, inside, rfl⟩ := List.mem_map.mp (visited.subset (List.mem_append_left _ member))
  rw [link_eq_of_slug (rows l inside) row same.symm]
  exact ⟨inside, member⟩

/-- As many links of the batch went as DELETEs went through. -/
theorem length_deletedSlugs {batch : List Link}
    (visited : (deletedSlugs log ++ failedSlugs log).Perm (batch.map fun l => l.shortUrl.1))
    (apart : (deletedSlugs log ++ failedSlugs log).Nodup) :
    (deletedSlugs log).length =
      (batch.filter fun l => decide (l.shortUrl.1 ∈ deletedSlugs log)).length := by
  have all : (deletedSlugs log).countP (fun slug => decide (slug ∈ deletedSlugs log)) =
      (deletedSlugs log).length := by simp [List.countP_eq_length]
  have none : (failedSlugs log).countP (fun slug => decide (slug ∈ deletedSlugs log)) = 0 := by
    rw [List.countP_eq_zero]
    intro slug failed gone
    exact (List.disjoint_of_nodup_append apart) (of_decide_eq_true gone) failed
  calc (deletedSlugs log).length
      = (deletedSlugs log ++ failedSlugs log).countP fun slug => decide (slug ∈ deletedSlugs log) := by
        rw [List.countP_append, all, none, Nat.add_zero]
    _ = (batch.map fun l => l.shortUrl.1).countP fun slug => decide (slug ∈ deletedSlugs log) :=
      visited.countP_eq _
    _ = (batch.filter fun l => decide (l.shortUrl.1 ∈ deletedSlugs log)).length := by
      rw [List.countP_map, List.countP_eq_length_filter]
      rfl

theorem Swept.isolates {batch : List Link} {n : Nat} (swept : Swept w [batch] w' log n)
    (followed : Followed log)
    (visited : (deletedSlugs log ++ failedSlugs log).Perm (batch.map fun l => l.shortUrl.1))
    (distinct : batch.Nodup) (rows : ∀ l ∈ batch, l ∈ w.links.rows) :
    Isolates w w' batch log n := by
  -- no slug is tried twice, so none has both failed and gone
  have apart := visited.nodup_iff.mpr (nodup_slugs distinct rows)
  constructor
  · intro l member
    have tried := visited.symm.subset (List.mem_map_of_mem (f := fun l => l.shortUrl.1) member)
    exact (List.mem_append.mp tried).symm
  · intro l member failed
    have kept : l.shortUrl.1 ∉ deletedSlugs log :=
      fun gone => (List.disjoint_of_nodup_append apart) gone failed
    constructor
    · refine (swept.rows l).mpr ⟨rows l member, fun gone => kept ?_⟩
      exact (mem_batch_of_deleted visited rows (rows l member) gone).2
    -- entries go only after their rows
    · rw [swept.entries, if_neg]
      intro evicted
      obtain ⟨slug, gone, same⟩ := swept.evicted _ evicted
      rw [cacheKey_inj same] at kept
      exact kept gone
  · intro l member gone
    constructor
    · rw [World.link?, Table.byKey_eq_none]
      intro r row same
      exact ((swept.rows r).mp row).2 (List.mem_map.mpr ⟨_, gone, same.symm⟩)
    · intro working
      rcases followed _ gone with evicted | ⟨e, failed⟩
      · rw [swept.entries, if_pos evicted]
      · exact absurd failed (working e)
  · intro l outside
    refine (swept.rows l).trans (and_iff_left_of_imp fun row gone => ?_)
    exact outside (mem_batch_of_deleted visited rows row gone).1
  · intro key foreign
    rw [swept.entries, if_neg]
    intro evicted
    obtain ⟨slug, gone, same⟩ := swept.evicted key evicted
    obtain ⟨l, inside, rfl⟩ := List.mem_map.mp (visited.subset (List.mem_append_left _ gone))
    exact foreign l inside same
  · exact swept.counted.trans (length_deletedSlugs visited apart)

/-- Whatever batch comes back and whichever deletes fail, the failures stay with their links. -/
theorem cleanup_isolates_failures {r : Except AppError Nat} {w' : World × List (Call api)}
    (run : Runs (machine P).recorded (ticking P).recorded i CleanupService.handleCleanup (w, []) r w')
    {batch : List Link} (found : batch ∈ batchesOf w'.2) :
    ∃ n, r = .ok n ∧ Isolates w w'.1 batch w'.2 n := by
  rcases handleCleanup_swept.runs run with
    none | ⟨batch', n, rfl, swept, followed, visited, distinct, rows⟩
  · rw [none] at found
    cases found
  · rw [swept.found, List.mem_singleton] at found
    subst found
    exact ⟨n, rfl, swept.isolates followed visited distinct rows⟩

def firstExpired : Link := ⟨⟨"aaaaaa", by decide⟩, "https://ab.cd", "u", 0, some 1000⟩
def secondExpired : Link := ⟨⟨"bbbbbb", by decide⟩, "https://ab.cd", "u", 0, some 1000⟩

def twoExpired : World := { World.empty 5000 with
  links := ⟨[firstExpired, secondExpired], by decide⟩ }

/-- The first DELETE fails, the second goes through. -/
theorem cleanup_isolates_failures_boom :
    ∃ w' log, Runs (machine Platform.plain).recorded (ticking Platform.plain).recorded 0
        CleanupService.handleCleanup (twoExpired, []) (.ok 1) (w', log) ∧
      Isolates twoExpired w' [firstExpired, secondExpired] log 1 := by
  obtain ⟨r, ⟨w', log⟩, run, passed⟩ := exists_runs_of_replay
    (M := (machine Platform.plain).recorded) (K := (ticking Platform.plain).recorded) (i := 0)
    (p := CleanupService.handleCleanup) (w := (twoExpired, [])) (fun w => ⟨⟨0, rfl⟩, rfl⟩)
    [{}, { batch := [firstExpired, secondExpired] }, { fault := some 0 }, {}, {}]
    (fun _ _ _ _ => trivial)
    (fun x => decide (x.1 = .ok 1) && decide (batchesOf x.2.2 = [[firstExpired, secondExpired]]))
    (by decide +kernel)
  simp only [Bool.and_eq_true, decide_eq_true_eq] at passed
  obtain ⟨rfl, found⟩ := passed
  have one : [firstExpired, secondExpired] ∈ batchesOf log := by
    rw [found]
    exact List.mem_singleton_self _
  obtain ⟨n, same, isolates⟩ := cleanup_isolates_failures run one
  cases same
  exact ⟨w', log, run, isolates⟩

end Mikrouli
