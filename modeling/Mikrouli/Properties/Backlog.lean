import Mikrouli.Model.Commands
import Mikrouli.Properties.LinkSteps

/-! How long an expired link can last: each round of the cleanup job takes a whole batch off the
backlog, less the rows that cannot be deleted, whatever other requests do meanwhile. -/

namespace Mikrouli

open Async Store

variable {P : Platform}

/-! ### The backlog -/

def Link.expiresBefore (t : Nat) (l : Link) : Bool := l.expiresAt.any fun x => decide (x < (t : Int))

/-- The rows that will have expired at `t`. -/
def World.backlog (t : Nat) (w : World) : Nat := w.links.count (Link.expiresBefore t)

/-- The event made a link that will have expired at `t`. -/
def arrives (t : Nat) : Event (mikrouli P) → Bool
  | .call (.insertLinkWithOutbox _) (.ok (l : Link)) => l.expiresBefore t
  | _ => false

def arrivals (t : Nat) (σ : Shared (mikrouli P)) : Nat := σ.log.countP fun e => arrives t e.event

/-- The DELETEs of the job fail for none but these slugs. -/
def reliable (P : Platform) (F : Finset String) : Guard (mikrouli P) := fun σ a =>
  match a with
  | .call i (.deleteLink slug) ch =>
    .start .cleanup ∈ σ.own i → ch.fault.isSome = true → bpchar slug ∈ F
  | _ => True

/-- The slug has no row. -/
def World.Lacks (slugKey : String) (w : World) : Prop := ∀ r ∈ w.links.rows, r.slugKey ≠ slugKey

/-- The slug has a row, which will have expired at `t`. -/
def World.Overdue (t : Nat) (slugKey : String) (w : World) : Prop :=
  ∃ r ∈ w.links.rows, r.slugKey = slugKey ∧ r.expiresBefore t = true

section Commands

variable {i t : Nat} {c : Cmd} {ch : Choice} {w w' : World} {res : Except AppError c.Res}

/-- A row keeps its slug and its expiry until it is deleted. -/
theorem row_lasts (returned : exec P i c ch w = some (res, w')) {r : Link} (row : r ∈ w.links.rows) :
    (∃ slug, c = .deleteLink slug ∧ w'.Lacks r.slugKey ∧ r.slugKey = bpchar slug) ∨
      ∃ r' ∈ w'.links.rows, r'.slugKey = r.slugKey ∧ r'.expiresAt = r.expiresAt := by
  cases c with
  | insertLinkWithOutbox fields =>
    rcases exec_insertLinkWithOutbox returned with ⟨rfl, -⟩ | ⟨link, links, -, inserted, -, rfl⟩
    · exact .inr ⟨r, row, rfl, rfl⟩
    · refine .inr ⟨r, ?_, rfl, rfl⟩
      rw [show _ = links.rows from rfl, (Table.insert?_eq_some.mp inserted).2]
      exact List.mem_cons_of_mem _ row
  | updateLink slug userId url =>
    rcases exec_updateLink returned with ⟨rfl, -⟩ | ⟨n, -, rfl⟩
    · exact .inr ⟨r, row, rfl, rfl⟩
    · refine .inr ⟨_, World.mem_setOriginalUrl.mpr ⟨r, row, rfl⟩, ?_⟩
      split <;> exact ⟨rfl, rfl⟩
  | deleteLink slug =>
    rcases exec_deleteLink returned with ⟨rfl, -⟩ | ⟨n, -, rfl⟩
    · exact .inr ⟨r, row, rfl, rfl⟩
    · by_cases same : r.slugKey = bpchar slug
      · refine .inl ⟨slug, rfl, fun r' row' key => ?_, same⟩
        exact of_decide_eq_false (Table.mem_delete.mp row').2 (key.trans same)
      · exact .inr ⟨r, Table.mem_delete.mpr ⟨row, decide_eq_false same⟩, rfl, rfl⟩
  | _ =>
    rw [(exec_frame returned).links rfl]
    exact .inr ⟨r, row, rfl, rfl⟩

theorem World.Overdue.called {slugKey : String} (overdue : w.Overdue t slugKey)
    (returned : exec P i c ch w = some (res, w')) :
    (∃ slug, c = .deleteLink slug ∧ w'.Lacks slugKey ∧ slugKey = bpchar slug) ∨
      w'.Overdue t slugKey := by
  obtain ⟨r, row, rfl, early⟩ := overdue
  rcases row_lasts returned row with deleted | ⟨r', row', key, expiry⟩
  · exact .inl deleted
  · refine .inr ⟨r', row', key, ?_⟩
    rw [Link.expiresBefore, expiry]
    exact early

/-- Only an INSERT adds to the backlog. -/
theorem backlog_called (returned : exec P i c ch w = some (res, w')) :
    w'.backlog t ≤ w.backlog t + if arrives (P := P) t (.call c res) then 1 else 0 := by
  cases c with
  | insertLinkWithOutbox fields =>
    rcases exec_insertLinkWithOutbox returned with ⟨rfl, -⟩ | ⟨link, links, rfl, inserted, -, rfl⟩
    · exact Nat.le_add_right _ _
    · exact (Table.count_insert inserted (Link.expiresBefore t)).le
  | updateLink slug userId url =>
    rcases exec_updateLink returned with ⟨rfl, -⟩ | ⟨n, -, rfl⟩
    · exact Nat.le_add_right _ _
    · refine Nat.le_add_right_of_le (Nat.le_of_eq (Table.count_update ?_ fun _ => rfl))
      simp [Link.slugKey]
  | deleteLink slug =>
    rcases exec_deleteLink returned with ⟨rfl, -⟩ | ⟨n, -, rfl⟩
    · exact Nat.le_add_right _ _
    · exact Nat.le_add_right_of_le (Table.count_delete_le _ _ _)
  | _ =>
    refine Nat.le_add_right_of_le (Nat.le_of_eq ?_)
    rw [World.backlog, (exec_frame returned).links rfl, World.backlog]

/-- A DELETE that meets an overdue row takes it off the backlog. -/
theorem backlog_deleted {slug : String} {n : Nat}
    (returned : exec P i (.deleteLink slug) ch w = some (.ok n, w'))
    (overdue : w.Overdue t (bpchar slug)) : w'.backlog t + 1 ≤ w.backlog t := by
  obtain ⟨r, row, key, early⟩ := overdue
  rcases exec_deleteLink returned with ⟨-, failed⟩ | ⟨n', -, rfl⟩
  · cases failed
  · exact Table.count_delete_of_mem row (decide_eq_true key) early

end Commands

/-! ### The job -/

/-- The thread got to every row of the batch it was given. -/
def Tried (batch : List Link) (es : Events P) : Prop :=
  ∀ b ∈ batch, ∃ res, .call (.deleteLink b.shortUrl.1) res ∈ es

/-- The thread was given the batch at a time it had read, and has done `newer` since. -/
def Given (batch : List Link) (newer es : Events P) : Prop :=
  ∃ now older, es = newer ++ .call (.findExpiredLinks now CLEANUP_BATCH_SIZE) (.ok batch) :: older ∧
    .call .dateNow (.ok now) ∈ older

section Job

variable {es : Events P}

theorem cacheDel_silent (slug : String) :
    Along (V := mikrouli P) (fun _ _ => True) (fun es' r => r = .ok () ∧ ∃ newer, es' = newer ++ es)
      (LinkCacheService.del slug) es := by
  apply Along.tryCatch
  apply await_along (c := .redisDel (LinkCacheService.cacheKey slug))
  · trivial
  intro res _ _ _ _ _
  cases res with
  | ok _ => exact ⟨rfl, [_], rfl⟩
  | error e => exact ⟨rfl, [_], rfl⟩

theorem deleteOneSafely_tries (l : Link) :
    Along (V := mikrouli P) (fun _ _ => True) (fun es' r => (∃ ok, r = .ok ok) ∧
      ∃ newer, es' = newer ++ es ∧ Tried [l] newer) (CleanupService.deleteOneSafely l) es := by
  have tried : ∀ (newer : Events P) res, Tried [l] (newer ++ [.call (.deleteLink l.shortUrl.1) res]) := by
    intro newer res b member
    rw [List.mem_singleton.mp member]
    exact ⟨res, by simp⟩
  apply Along.tryCatch
  apply Along.bind
  apply Along.bind
  apply await_along
  · trivial
  intro res _ _ _ _ _
  cases res with
  | error e => exact ⟨⟨false, rfl⟩, _, rfl, tried [] _⟩
  | ok n =>
    refine (cacheDel_silent l.shortUrl.1).mono fun es₁ r ends => ?_
    obtain ⟨rfl, newer, rfl⟩ := ends
    exact ⟨⟨true, rfl⟩, newer ++ [.call (.deleteLink l.shortUrl.1) (.ok n)], by simp, tried newer _⟩

theorem processBatch_tries (batch : List Link) (count : Nat) :
    Along (V := mikrouli P) (fun _ _ => True) (fun es' _ => ∃ newer, es' = newer ++ es ∧
      Tried batch newer) (CleanupService.processBatch count batch) es := by
  induction batch generalizing count es with
  | nil => exact ⟨[], rfl, fun b none => by cases none⟩
  | cons l rest ih =>
    apply Along.bind
    refine (deleteOneSafely_tries l).mono fun es₁ r first => ?_
    obtain ⟨⟨ok, rfl⟩, newer₁, rfl, tried₁⟩ := first
    refine (ih _).mono fun es₂ r others => ?_
    obtain ⟨newer₂, rfl, tried₂⟩ := others
    refine ⟨newer₂ ++ newer₁, (List.append_assoc _ _ _).symm, fun b member => ?_⟩
    rcases List.mem_cons.mp member with rfl | other
    · obtain ⟨res, deleted⟩ := tried₁ b (List.mem_singleton_self b)
      exact ⟨res, List.mem_append_right _ deleted⟩
    · obtain ⟨res, deleted⟩ := tried₂ b other
      exact ⟨res, List.mem_append_left _ deleted⟩

/-- A job that ends has got to every row of a batch. -/
def JobEnds (r : Req) (es : Events P) (res : Except AppError Ans) : Prop :=
  ∀ n, r = .cleanup → res = .ok (.cleaned n) →
    ∃ batch newer, Given batch newer es ∧ Tried batch newer

theorem serve_jobs (r : Req) :
    Along (V := mikrouli P) (fun _ _ => True) (JobEnds r) (serve P r) [.start r] := by
  by_cases job : r = .cleanup
  · subst job
    apply Along.map
    apply Along.bind
    apply await_along
    · trivial
    intro res _ _ _ _ _
    cases res with
    | error e => exact fun n _ same => by cases same
    | ok now =>
      apply Along.bind
      apply await_along (c := .findExpiredLinks now CLEANUP_BATCH_SIZE)
      · trivial
      intro res _ _ _ _ _
      cases res with
      | error e => exact fun n _ same => by cases same
      | ok batch =>
        refine (processBatch_tries batch 0).mono fun es r ends => ?_
        obtain ⟨newer, rfl, tried⟩ := ends
        exact fun n _ _ => ⟨batch, newer, ⟨now, _, rfl, List.mem_cons_self⟩, tried⟩
  · exact Along.unasked fun es res n same => absurd same job

abbrev jobs (P : Platform) : Contract (mikrouli P) := .ofHistory (fun _ _ => True) JobEnds

end Job

/-! ### One round -/

section Round

variable {t : Nat} {w w' : World} {σ₀ σ : Shared (mikrouli P)} {batch : List Link}

/-- Since the batch was given, the rows of the slugs `D` have gone, and each has been taken off the
backlog of `before` rows and all that have arrived since. -/
structure Drained (t before : Nat) (batch : List Link) (D : Finset String) (w : World) : Prop where
  within : ∀ s ∈ D, ∃ b ∈ batch, b.slugKey = s
  left : ∀ b ∈ batch, b.slugKey ∈ D ∨ w.Overdue t b.slugKey
  paid : w.backlog t + D.card ≤ before

/-- What a command takes off the backlog, and which slugs it frees. -/
theorem Drained.called {i before : Nat} {c : Cmd} {ch : Choice} {res : Except AppError c.Res}
    {D : Finset String} (drained : Drained t before batch D w)
    (returned : exec P i c ch w = some (res, w')) : ∃ D', D ⊆ D' ∧
      Drained t (before + if arrives (P := P) t (.call c res) then 1 else 0) batch D' w' ∧
      (∀ s ∈ D', s ∈ D ∨ w'.Lacks s) ∧
      ∀ slug n, (.call c res : Event (mikrouli P)) = .call (.deleteLink slug) (.ok n) →
        (∃ b ∈ batch, b.slugKey = bpchar slug) → bpchar slug ∈ D' := by
  have paid := drained.paid
  have fewer := backlog_called (t := t) returned
  by_cases frees : ∃ slug n, (.call c res : Event (mikrouli P)) = .call (.deleteLink slug) (.ok n) ∧
      (∃ b ∈ batch, b.slugKey = bpchar slug) ∧ bpchar slug ∉ D
  -- the row of a slug of the batch is deleted for the first time
  · obtain ⟨slug, n, event, ⟨b, inside, key⟩, fresh⟩ := frees
    cases event
    have overdue : w.Overdue t (bpchar slug) := by
      rcases drained.left b inside with gone | overdue
      · rw [key] at gone
        exact absurd gone fresh
      · rw [key] at overdue
        exact overdue
    have less := backlog_deleted returned overdue
    have absent : w'.Lacks (bpchar slug) := by
      intro r row same
      rcases exec_deleteLink returned with ⟨-, failed⟩ | ⟨n', -, rfl⟩
      · cases failed
      · exact of_decide_eq_false (Table.mem_delete.mp row).2 same
    refine ⟨insert (bpchar slug) D, Finset.subset_insert _ _, ⟨?_, ?_, ?_⟩, ?_, ?_⟩
    · intro s member
      rcases Finset.mem_insert.mp member with rfl | old
      · exact ⟨b, inside, key⟩
      · exact drained.within s old
    · intro b' inside'
      rcases drained.left b' inside' with gone | overdue'
      · exact .inl (Finset.mem_insert_of_mem gone)
      · rcases overdue'.called returned with ⟨slug', same, -, key'⟩ | still
        · cases same
          exact .inl (key' ▸ Finset.mem_insert_self _ _)
        · exact .inr still
    · rw [Finset.card_insert_of_notMem fresh]
      omega
    · intro s member
      rcases Finset.mem_insert.mp member with rfl | old
      · exact .inr absent
      · exact .inl old
    · intro slug' n' event _
      cases event
      exact Finset.mem_insert_self _ _
  -- otherwise the slugs of the batch stay as they are
  · refine ⟨D, Finset.Subset.refl D, ⟨drained.within, ?_, by omega⟩, fun s old => .inl old, ?_⟩
    · intro b inside
      rcases drained.left b inside with gone | overdue
      · exact .inl gone
      · rcases overdue.called returned with ⟨slug, rfl, absent, key⟩ | still
        · by_contra neither
          rw [not_or] at neither
          rcases exec_deleteLink returned with ⟨rfl, rfl⟩ | ⟨n, rfl, -⟩
          · exact neither.2 overdue
          · refine frees ⟨slug, n, rfl, ⟨b, inside, key⟩, ?_⟩
            rw [← key]
            exact neither.1
        · exact .inr still
    · intro slug n event inside
      by_contra fresh
      exact frees ⟨slug, n, event, inside, fresh⟩

/-- A batch that is not full has every row that has expired. -/
theorem mem_of_isExpiredBatch {now take : Nat} (answer : w.isExpiredBatch now take batch = true)
    (short : batch.length ≠ take) {r : Link} (row : r ∈ w.links.rows)
    (expired : r.expiresBefore now = true) : r ∈ batch := by
  obtain ⟨distinct, rows, size⟩ := of_decide_eq_true answer
  have all := (List.subperm_of_subset distinct rows).perm_of_length_le (by omega)
  exact all.mem_iff.mpr (List.mem_filter.mpr ⟨row, expired⟩)

/-- What is or will be due at `t` after `σ₀`, had nothing been deleted since. -/
def due (t : Nat) (σ₀ σ : Shared (mikrouli P)) : Nat :=
  σ₀.world.backlog t + (arrivals t σ - arrivals t σ₀)

/-- The batch was full unless it had the row under the slug, and what of it was deleted since is off
the backlog. -/
def Pays (t : Nat) (slugKey : String) (σ₀ σ : Shared (mikrouli P)) (batch : List Link)
    (newer : Events P) : Prop :=
  (batch.map Link.slugKey).Nodup ∧
    (batch.length = CLEANUP_BATCH_SIZE ∨ ∃ b ∈ batch, b.slugKey = slugKey) ∧
    ∃ D, Drained t (due t σ₀ σ) batch D σ.world ∧ slugKey ∉ D ∧
      ∀ b ∈ batch, ∀ n, .call (.deleteLink b.shortUrl.1) (.ok n) ∈ newer → b.slugKey ∈ D

/-- Thread `i` runs the job while the row under the slug stays, from `σ₀` on and no later than `t`. -/
structure Sweeping (F : Finset String) (t i : Nat) (slugKey : String) (x : Int)
    (σ₀ σ : Shared (mikrouli P)) : Prop where
  clock : σ₀.world.now ≤ σ.world.now
  early : σ.world.now ≤ t
  stands : ∃ r ∈ σ.world.links.rows, r.slugKey = slugKey ∧ r.expiresAt = some x
  arrived : arrivals t σ₀ ≤ arrivals t σ
  grown : σ.world.backlog t ≤ due t σ₀ σ
  read : ∀ now, .call .dateNow (.ok now) ∈ σ.own i → σ₀.world.now ≤ now ∧ now ≤ σ.world.now
  failed : .start .cleanup ∈ σ.own i → ∀ slug e,
    .call (.deleteLink slug) (.error e) ∈ σ.own i → bpchar slug ∈ F
  given : ∀ batch newer, Given batch newer (σ.own i) → Pays t slugKey σ₀ σ batch newer

theorem arrivals_called (i : Nat) (c : Cmd) (res : Except AppError c.Res) (w : World) :
    arrivals t (σ.called i c res w) =
      arrivals t σ + if arrives (P := P) t (.call c res) then 1 else 0 :=
  List.countP_cons

theorem arrivals_started (n : Nat) (r : Req) : arrivals t (σ.started n r) = arrivals t σ :=
  List.countP_cons

theorem due_called (i : Nat) (c : Cmd) (res : Except AppError c.Res) (w : World)
    (arrived : arrivals t σ₀ ≤ arrivals t σ) : due t σ₀ (σ.called i c res w) =
      due t σ₀ σ + if arrives (P := P) t (.call c res) then 1 else 0 := by
  rw [due, due, arrivals_called]
  omega

/-- What one more event makes of a batch that was given. -/
theorem given_cons {e : Event (mikrouli P)} {es newer : Events P} (given : Given batch newer (e :: es)) :
    (newer = [] ∧ ∃ now, e = .call (.findExpiredLinks now CLEANUP_BATCH_SIZE) (.ok batch) ∧
      .call .dateNow (.ok now) ∈ es) ∨ ∃ newer', newer = e :: newer' ∧ Given batch newer' es := by
  obtain ⟨now, older, split, read⟩ := given
  rcases List.cons_eq_append_iff.mp split with ⟨rfl, same⟩ | ⟨newer', rfl, split'⟩
  · cases same
    exact .inl ⟨rfl, now, rfl, read⟩
  · exact .inr ⟨newer', rfl, now, older, split', read⟩

variable {F : Finset String} {i : Nat} {slugKey : String} {x : Int}

/-- What every command does for a batch that was given before. -/
theorem Pays.called {newer : Events P} {j : Nat} {c : Cmd} {ch : Choice}
    {res : Except AppError c.Res} (pays : Pays t slugKey σ₀ σ batch newer)
    (arrived : arrivals t σ₀ ≤ arrivals t σ) (returned : exec P j c ch σ.world = some (res, w))
    (stays : ¬w.Lacks slugKey) :
    Pays t slugKey σ₀ (σ.called j c res w) batch newer ∧
      Pays t slugKey σ₀ (σ.called j c res w) batch (.call c res :: newer) := by
  obtain ⟨distinct, full, D, drained, kept, deleted⟩ := pays
  obtain ⟨D', grown, drained', fresh, now⟩ := drained.called returned
  rw [← due_called j c res w arrived] at drained'
  have kept' : slugKey ∉ D' := fun member => (fresh slugKey member).elim kept stays
  refine ⟨⟨distinct, full, D', drained', kept', fun b inside n event => ?_⟩,
    ⟨distinct, full, D', drained', kept', fun b inside n event => ?_⟩⟩
  · exact grown (deleted b inside n event)
  · rcases List.mem_cons.mp event with same | old
    · exact now _ n same.symm ⟨b, inside, rfl⟩
    · exact grown (deleted b inside n old)

/-- A batch that is given now owes nothing yet. -/
theorem Sweeping.pays_now (sweeping : Sweeping F t i slugKey x σ₀ σ) (past : x < (σ₀.world.now : Int))
    {now : Nat} {ch : Choice} (read : .call .dateNow (.ok now) ∈ σ.own i)
    (returned : exec P i (.findExpiredLinks now CLEANUP_BATCH_SIZE) ch σ.world =
      some (.ok batch, w)) :
    Pays t slugKey σ₀ (σ.called i (.findExpiredLinks now CLEANUP_BATCH_SIZE) (.ok batch) w)
      batch [] := by
  obtain ⟨begun, ended⟩ := sweeping.read now read
  have late := sweeping.early
  obtain ⟨rfl, failed | ⟨batch', same, answer⟩⟩ := exec_findExpiredLinks returned
  · cases failed
  cases same
  obtain ⟨distinct, rows, size⟩ := of_decide_eq_true answer
  have row : ∀ b ∈ batch, b ∈ σ.world.links.rows := fun b inside => (List.mem_filter.mp (rows b inside)).1
  refine ⟨?_, ?_, ∅, ⟨?_, ?_, ?_⟩, Finset.notMem_empty _, ?_⟩
  · refine distinct.map_on fun b inside b' inside' same => ?_
    exact Table.eq_of_key (t := σ.world.links) (k := Link.slugKey) (by simp) (row b inside)
      (row b' inside') same
  · by_cases full : batch.length = CLEANUP_BATCH_SIZE
    · exact .inl full
    · obtain ⟨r, member, key, expiry⟩ := sweeping.stands
      refine .inr ⟨r, mem_of_isExpiredBatch answer full member ?_, key⟩
      rw [Link.expiresBefore, expiry]
      exact decide_eq_true (by omega)
  · exact fun s none => by simp at none
  · intro b inside
    refine .inr ⟨b, row b inside, rfl, ?_⟩
    have expired := (List.mem_filter.mp (rows b inside)).2
    obtain ⟨y, expiry, before⟩ := (Option.any_eq_true _ _).mp expired
    rw [Link.expiresBefore, expiry]
    have before := of_decide_eq_true before
    exact decide_eq_true (by omega)
  · rw [Finset.card_empty, due_called i _ _ _ sweeping.arrived]
    exact Nat.le_add_right_of_le sweeping.grown
  · exact fun b _ n none => by cases none

theorem Sweeping.called (sweeping : Sweeping F t i slugKey x σ₀ σ) (past : x < (σ₀.world.now : Int))
    {j : Nat} {c : Cmd} {ch : Choice} {res : Except AppError c.Res}
    (returned : exec P j c ch σ.world = some (res, w)) (stays : ¬w.Lacks slugKey)
    (allowed : reliable P F σ (.call j c ch)) :
    Sweeping F t i slugKey x σ₀ (σ.called j c res w) := by
  have clock : w.now = σ.world.now := (exec_frame returned).now
  have arrived := sweeping.arrived
  constructor
  case clock => exact sweeping.clock.trans_eq clock.symm
  case early => exact clock.trans_le sweeping.early
  case stands =>
    obtain ⟨r, row, key, expiry⟩ := sweeping.stands
    rcases row_lasts returned row with ⟨slug, -, absent, -⟩ | ⟨r', row', key', expiry'⟩
    · exact absurd (key ▸ absent) stays
    · exact ⟨r', row', key'.trans key, expiry'.trans expiry⟩
  case arrived =>
    rw [arrivals_called]
    exact Nat.le_add_right_of_le arrived
  case grown =>
    rw [due_called j c res w arrived]
    exact (backlog_called returned).trans (Nat.add_le_add_right sweeping.grown _)
  case read =>
    intro now event
    rw [Shared.called_world, clock]
    rcases Shared.mem_own_called.mp event with ⟨-, new⟩ | old
    · cases new
      obtain ⟨-, same⟩ := exec_dateNow returned
      cases same
      exact ⟨sweeping.clock, le_rfl⟩
    · exact sweeping.read now old
  case failed =>
    intro job slug e event
    replace job := Shared.start_mem_own_called.mp job
    rcases Shared.mem_own_called.mp event with ⟨rfl, new⟩ | old
    · cases new
      -- the DELETE failed for the fault that the guard allowed
      refine allowed job ?_
      by_contra working
      rw [Bool.not_eq_true, Option.isSome_eq_false_iff, Option.isNone_iff_eq_none] at working
      simp [exec, working] at returned
    · exact sweeping.failed job slug e old
  case given =>
    intro batch newer given
    rw [Shared.called_own] at given
    split at given
    next same =>
      subst same
      rcases given_cons given with ⟨rfl, now, event, read⟩ | ⟨newer', rfl, earlier⟩
      · cases event
        exact sweeping.pays_now past read returned
      · exact ((sweeping.given batch newer' earlier).called arrived returned stays).2
    · exact ((sweeping.given batch newer given).called arrived returned stays).1

/-- An event that is no answer gives no batch. -/
theorem given_start {r : Req} {es newer : Events P} (given : Given batch newer (.start r :: es)) :
    ∃ newer', newer = .start r :: newer' ∧ Given batch newer' es := by
  rcases given_cons given with ⟨-, now, event, -⟩ | earlier
  · cases event
  · exact earlier

theorem Sweeping.started (sweeping : Sweeping F t i slugKey x σ₀ σ) {n : Nat} (r : Req)
    (fresh : σ.own n = []) : Sweeping F t i slugKey x σ₀ (σ.started n r) := by
  have due_eq : due t σ₀ (σ.started n r) = due t σ₀ σ := by
    rw [due, due, arrivals_started]
  constructor
  case clock => exact sweeping.clock
  case early => exact sweeping.early
  case stands => exact sweeping.stands
  case arrived =>
    rw [arrivals_started]
    exact sweeping.arrived
  case grown =>
    rw [due_eq]
    exact sweeping.grown
  case read => exact fun now event => sweeping.read now (Shared.call_mem_own_started.mp event)
  case failed =>
    intro job slug e event
    rcases Shared.mem_own_started.mp job with ⟨rfl, -⟩ | old
    · rw [Shared.call_mem_own_started, fresh] at event
      cases event
    · exact sweeping.failed old slug e (Shared.call_mem_own_started.mp event)
  case given =>
    intro batch newer given
    have earlier : ∃ newer', Given batch newer' (σ.own i) ∧
        ∀ b ∈ batch, ∀ n, .call (.deleteLink b.shortUrl.1) (.ok n) ∈ newer →
          .call (.deleteLink b.shortUrl.1) (.ok n) ∈ newer' := by
      rw [Shared.started_own] at given
      split at given
      · obtain ⟨newer', rfl, earlier⟩ := given_start given
        refine ⟨newer', earlier, fun b _ n event => ?_⟩
        exact (List.mem_cons.mp event).resolve_left fun same => by cases same
      · exact ⟨newer, given, fun b _ n event => event⟩
    obtain ⟨newer', earlier, same⟩ := earlier
    obtain ⟨distinct, full, D, drained, kept, deleted⟩ := sweeping.given batch newer' earlier
    rw [← due_eq] at drained
    exact ⟨distinct, full, D, drained, kept, fun b inside n event =>
      deleted b inside n (same b inside n event)⟩

theorem Sweeping.ticked (sweeping : Sweeping F t i slugKey x σ₀ σ) (ms : Nat)
    (early : (σ.ticked (V := mikrouli P) ms).world.now ≤ t) :
    Sweeping F t i slugKey x σ₀ (σ.ticked (V := mikrouli P) ms) := by
  constructor
  case clock => exact sweeping.clock.trans (Nat.le_add_right _ _)
  case early => exact early
  case stands => exact sweeping.stands
  case arrived => exact sweeping.arrived
  case grown => exact sweeping.grown
  case read =>
    intro now event
    exact ⟨(sweeping.read now event).1, (sweeping.read now event).2.trans (Nat.le_add_right _ _)⟩
  case failed => exact sweeping.failed
  case given =>
    intro batch newer given
    obtain ⟨distinct, full, D, drained, rest⟩ := sweeping.given batch newer given
    exact ⟨distinct, full, D, ⟨drained.within, drained.left, drained.paid⟩, rest⟩

theorem Sweeping.initial {r : Link} (row : r ∈ σ₀.world.links.rows) (expiry : r.expiresAt = some x)
    (early : σ₀.world.now ≤ t) (fresh : σ₀.own i = []) :
    Sweeping F t i r.slugKey x σ₀ σ₀ := by
  constructor
  case clock => exact le_rfl
  case early => exact early
  case stands => exact ⟨r, row, rfl, expiry⟩
  case arrived => exact le_rfl
  case grown => exact Nat.le_add_right _ _
  all_goals rw [fresh]
  case read => exact fun now event => by cases event
  case failed => exact fun job => by cases job
  case given =>
    rintro batch newer ⟨now, older, split, -⟩
    simp at split

/-- A job that ended took a full batch off, less the slugs whose DELETE may fail. -/
theorem Sweeping.round (sweeping : Sweeping F t i slugKey x σ₀ σ) (deletable : slugKey ∉ F)
    (job : .start .cleanup ∈ σ.own i) {newer : Events P} (given : Given batch newer (σ.own i))
    (tried : Tried batch newer) :
    σ.world.backlog t + (CLEANUP_BATCH_SIZE - F.card) ≤ due t σ₀ σ := by
  obtain ⟨distinct, full, D, drained, kept, deleted⟩ := sweeping.given batch newer given
  have gone : ∀ b ∈ batch, b.slugKey ∈ F ∨ b.slugKey ∈ D := by
    intro b inside
    obtain ⟨now, older, split, -⟩ := given
    obtain ⟨res, event⟩ := tried b inside
    cases res with
    | ok n => exact .inr (deleted b inside n event)
    | error e =>
      refine .inl (sweeping.failed job _ e ?_)
      rw [split]
      exact List.mem_append_left _ event
  have size : batch.length = CLEANUP_BATCH_SIZE := by
    rcases full with size | ⟨b, inside, key⟩
    · exact size
    · rcases gone b inside with spared | member
      · exact absurd (key ▸ spared) deletable
      · exact absurd (key ▸ member) kept
  have covered : (batch.map Link.slugKey).toFinset ⊆ F ∪ D := by
    intro s member
    obtain ⟨b, inside, rfl⟩ := List.mem_map.mp (List.mem_toFinset.mp member)
    exact Finset.mem_union.mpr (gone b inside)
  have counted := (Finset.card_le_card covered).trans (Finset.card_union_le F D)
  rw [List.toFinset_card_of_nodup distinct, List.length_map, size] at counted
  have paid := drained.paid
  omega

end Round

/-! ### Whole runs -/

section Runs

variable {G : Guard (mikrouli P)} {F : Finset String} {w₀ : World} {c c' : Config (mikrouli P)}
  {t n : Nat} {slugKey : String} {x : Int} {r : Link}

/-- At some moment between the two the slug had no row. -/
def GoneBetween (G : Guard (mikrouli P)) (slugKey : String) (c c' : Config (mikrouli P)) : Prop :=
  ∃ c'', Reach G c c'' ∧ Reach G c'' c' ∧ c''.shared.world.Lacks slugKey

/-- A step no later than `t` after which the slug has a row. -/
def StepKeeping (G : Guard (mikrouli P)) (t : Nat) (slugKey : String) (c c' : Config (mikrouli P)) :
    Prop :=
  Step G c c' ∧ c'.shared.world.now ≤ t ∧ ¬c'.shared.world.Lacks slugKey

theorem now_le_of_step (step : Step G c c') : c.shared.world.now ≤ c'.shared.world.now := by
  cases step with
  | start r _ => exact le_rfl
  | call _ returned _ => exact (exec_frame returned).now.ge
  | env ms _ => exact Nat.le_add_right _ _

theorem now_le_of_reach (run : Reach G c c') : c.shared.world.now ≤ c'.shared.world.now := by
  induction run with
  | refl => exact le_rfl
  | tail _ step ih => exact ih.trans (now_le_of_step step)

theorem kept_or_gone (run : Reach G c c') (late : c'.shared.world.now ≤ t) :
    Relation.ReflTransGen (StepKeeping G t slugKey) c c' ∨ GoneBetween G slugKey c c' := by
  induction run with
  | refl => exact .inl .refl
  | @tail b c' run step ih =>
    rcases ih ((now_le_of_step step).trans late) with kept | ⟨c'', before, after, absent⟩
    · by_cases lacks : c'.shared.world.Lacks slugKey
      · exact .inr ⟨c', run.tail step, .refl, lacks⟩
      · exact .inl (kept.tail ⟨step, late, lacks⟩)
    · exact .inr ⟨c'', before, after.tail step, absent⟩

theorem jobs_holds (reach : Reach G (initial w₀) c) : (jobs P).Holds G c :=
  (Contract.ofHistory_holds w₀).reach (Contract.ofHistory_sound serve_jobs) reach

theorem reach_of_kept (kept : Relation.ReflTransGen (StepKeeping G t slugKey) c c') : Reach G c c' :=
  Relation.ReflTransGen.mono (fun _ _ step => step.1) _ _ kept

theorem sweeping_of_kept (reach : Reach (reliable P F) (initial w₀) c)
    (row : r ∈ c.shared.world.links.rows) (expiry : r.expiresAt = some x)
    (past : x < (c.shared.world.now : Int)) (early : c.shared.world.now ≤ t)
    (kept : Relation.ReflTransGen (StepKeeping (reliable P F) t r.slugKey) c c') {i : Nat}
    (later : c.threads.length ≤ i) : Sweeping F t i r.slugKey x c.shared c'.shared := by
  induction kept with
  | refl =>
    refine .initial row expiry early (Shared.own_eq_nil_of_not_mem fun member => ?_)
    obtain ⟨e, logged, rfl⟩ := List.mem_map.mp member
    exact absurd ((jobs_holds reach).logged e logged) (Nat.not_lt.mpr later)
  | tail earlier step sweeping =>
    obtain ⟨step, late, stays⟩ := step
    have logged := (jobs_holds (reach.trans (reach_of_kept earlier))).logged
    cases step with
    | start r' _ => exact sweeping.started r' (own_nil_of_logged logged)
    | call _ returned allowed => exact sweeping.called past returned stays allowed
    | env ms _ => exact sweeping.ticked ms late

/-- `n` rounds one after the other: in each, a job starts and ends, among whatever else. -/
inductive Rounds (G : Guard (mikrouli P)) : Nat → Config (mikrouli P) → Config (mikrouli P) → Prop
  | idle {c c' : Config (mikrouli P)} (run : Reach G c c') : Rounds G 0 c c'
  | round {n i k : Nat} {c c' c'' : Config (mikrouli P)} (before : Rounds G n c c')
      (run : Reach G c' c'') (later : c'.threads.length ≤ i)
      (swept : c''.Answered i .cleanup (.cleaned k)) : Rounds G (n + 1) c c''

theorem Rounds.reach (rounds : Rounds G n c c') : Reach G c c' := by
  induction rounds with
  | idle run => exact run
  | round _ run _ _ ih => exact ih.trans run

/-- What is left of the backlog after the rounds, as long as the row stays. -/
structure Left (F : Finset String) (t n : Nat) (slugKey : String) (x : Int)
    (c c' : Config (mikrouli P)) : Prop where
  stands : ∃ r ∈ c'.shared.world.links.rows, r.slugKey = slugKey ∧ r.expiresAt = some x
  arrived : arrivals t c.shared ≤ arrivals t c'.shared
  paid : c'.shared.world.backlog t + n * (CLEANUP_BATCH_SIZE - F.card) ≤ due t c.shared c'.shared

theorem left_of_rounds (reach : Reach (reliable P F) (initial w₀) c)
    (rounds : Rounds (reliable P F) n c c') (row : r ∈ c.shared.world.links.rows)
    (expiry : r.expiresAt = some x) (past : x < (c.shared.world.now : Int))
    (deletable : r.slugKey ∉ F) (late : c'.shared.world.now ≤ t) :
    Left F t n r.slugKey x c c' ∨ GoneBetween (reliable P F) r.slugKey c c' := by
  induction rounds with
  | idle run =>
    rcases kept_or_gone run late with kept | gone
    · have sweeping := sweeping_of_kept reach row expiry past ((now_le_of_reach run).trans late) kept le_rfl
      refine .inl ⟨sweeping.stands, sweeping.arrived, ?_⟩
      rw [Nat.zero_mul, Nat.add_zero]
      exact sweeping.grown
    · exact .inr gone
  | @round n i k c c' c'' before run later swept ih =>
    rcases ih reach row past ((now_le_of_reach run).trans late) with left | ⟨b, first, second, absent⟩
    · obtain ⟨r', row', key, expiry'⟩ := left.stands
      rw [← key] at deletable ⊢
      have past' : x < (c'.shared.world.now : Int) := by
        have later := now_le_of_reach before.reach
        omega
      rcases kept_or_gone run late with kept | ⟨b, first, second, absent⟩
      · have reach' := reach.trans before.reach
        have sweeping := sweeping_of_kept reach' row' expiry' past' ((now_le_of_reach run).trans late) kept later
        have reach'' := reach'.trans run
        have job := (asked_iff_started reach'' i .cleanup).mp ⟨_, swept⟩
        obtain ⟨batch, newer, given, tried⟩ := (jobs_holds reach'').history_ok swept k rfl rfl
        have paid := sweeping.round deletable job given tried
        have paid' := left.paid
        have arrived := sweeping.arrived
        have arrived' := left.arrived
        refine .inl ⟨sweeping.stands, arrived'.trans arrived, ?_⟩
        rw [Nat.add_mul, Nat.one_mul]
        simp only [due] at *
        omega
      · exact .inr ⟨b, before.reach.trans first, second, absent⟩
    · exact .inr ⟨b, first, second.trans run, absent⟩

/-- An expired link whose DELETE does not fail is gone once the rounds of the job, each worth a
batch less the rows that may fail, come to what is due in the end: the rows there were that have
expired by then, and those made since that have. -/
theorem expired_gone_of_rounds (reach : Reach (reliable P F) (initial w₀) c)
    (rounds : Rounds (reliable P F) n c c') (row : r ∈ c.shared.world.links.rows)
    (expiry : r.expiresAt = some x) (past : x < (c.shared.world.now : Int))
    (deletable : r.slugKey ∉ F)
    (enough : due c'.shared.world.now c.shared c'.shared ≤ n * (CLEANUP_BATCH_SIZE - F.card)) :
    ∃ c'', Reach (reliable P F) c c'' ∧ Reach (reliable P F) c'' c' ∧
      c''.shared.world.link? r.shortUrl.1 = none := by
  rcases left_of_rounds reach rounds row expiry past deletable le_rfl with
    left | ⟨c'', before, after, absent⟩
  -- the row itself would still be due
  · obtain ⟨r', row', -, expiry'⟩ := left.stands
    have counted : 0 < c'.shared.world.backlog c'.shared.world.now := by
      refine List.countP_pos_iff.mpr ⟨r', row', ?_⟩
      have later := now_le_of_reach rounds.reach
      rw [Link.expiresBefore, expiry']
      exact decide_eq_true (by omega)
    have paid := left.paid
    omega
  · refine ⟨c'', before, after, ?_⟩
    rw [World.link?, Table.byKey_eq_none]
    exact absent

end Runs

/-! ### A concrete run -/

def agedLink : Link := ⟨⟨"aged01", by decide⟩, "https://ab.cd", "u", 0, some 1000⟩

/-- Two rows have expired, and the DELETE of one of them fails. -/
def twoAged : World := { World.empty 5000 with
  links := ⟨[agedLink, { agedLink with shortUrl := ⟨"aged02", by decide⟩ }], by decide⟩ }

def oneJob : List (Move (mikrouli Platform.plain)) :=
  [.start .cleanup, .run 0 {}, .run 0 { batch := twoAged.links.rows }, .run 0 {}, .run 0 {},
    .run 0 { fault := some 0 }]

/-- Decides `reliable`, with no regard to who deletes. -/
def isReliable (F : Finset String) (_ : Shared (mikrouli P)) (a : Act (mikrouli P)) : Bool :=
  match a with
  | .call _ (.deleteLink slug) ch => !ch.fault.isSome || decide (bpchar slug ∈ F)
  | _ => true

theorem reliable_of_isReliable (F : Finset String) (σ : Shared (mikrouli P)) (a : Act (mikrouli P))
    (test : isReliable F σ a = true) : reliable P F σ a := by
  unfold isReliable at test
  unfold reliable
  split at test
  next slug ch =>
    intro _ faulty
    simpa [faulty] using test
  · trivial

theorem expired_gone_of_rounds_oneJob : ∃ c,
    Reach (reliable Platform.plain {"aged02"}) (initial twoAged) c ∧
      c.shared.world.link? "aged01" = none := by
  obtain ⟨c, reach, passed⟩ := exists_reach_of_play (reliable_of_isReliable {"aged02"})
    (initial (V := mikrouli Platform.plain) twoAged) oneJob
    (fun c => decide (c.answer? 0 = some (.cleanup, .cleaned 1)) &&
      decide (due c.shared.world.now ⟨twoAged, []⟩ c.shared ≤ 1 * (CLEANUP_BATCH_SIZE - 1)))
    (by decide +kernel)
  obtain ⟨swept, enough⟩ := (Bool.and_eq_true _ _).mp passed
  obtain ⟨c'', before, -, gone⟩ := expired_gone_of_rounds .refl
    (.round (.idle .refl) reach (Nat.zero_le 0) (answered_of_answer? (of_decide_eq_true swept)))
    (r := agedLink) List.mem_cons_self rfl (by decide) (by decide) (of_decide_eq_true enough)
  exact ⟨c'', before, gone⟩

end Mikrouli
