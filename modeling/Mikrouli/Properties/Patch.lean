import Mikrouli.Lib.History
import Mikrouli.Model.Api
import Mikrouli.Model.Commands

/-! A PATCH against the row it was asked to change, in whatever order requests interleave. -/

namespace Mikrouli

open Async Store

variable {P : Platform} {slug userId url : String}

/-! ### What a PATCH did -/

/-- An UPDATE of the thread changed the row. -/
def Changed (slug userId url : String) (es : Events P) : Prop :=
  ∃ n : Nat, n ≠ 0 ∧ .call (.updateLink slug userId url) (.ok n) ∈ es

/-- The event wrote no row and no cache entry. -/
def writesNothing : Event (mikrouli P) → Bool
  | .start _ => true
  | .call (.findLink _) _ => true
  | .call (.updateLink _ _ _) (.ok (n : Nat)) => decide (n = 0)
  | .call (.updateLink _ _ _) (.error _) => true
  | _ => false

def writesCache : Event (mikrouli P) → Bool
  | .call (.redisSet _ _ _) _ => true
  | .call (.redisDel _) _ => true
  | _ => false

/-- What the events of a PATCH are when it ends: without a report nothing was written, and with one
there was one UPDATE, which may have changed nothing. -/
def PatchEnd (slug userId url : String) (es : Events P) : Except AppError Ans → Prop
  | .error _ => es.all writesNothing = true ∧ ∀ n, .call (.updateLink slug userId url) (.ok n) ∉ es
  | .ok _ => ∃ n : Nat, ∀ m, .call (.updateLink slug userId url) (.ok m) ∈ es ↔ m = n

/-- The contract says something of PATCHes alone. -/
def patches (P : Platform) : Contract (mikrouli P) :=
  .ofHistory (fun _ _ => True) fun r es res =>
    ∀ userId slug url, r = .updateLink userId slug url → PatchEnd slug userId url es res

section Commands

variable {c : Cmd} {es : Events P}

theorem unasked_await {ψ : Events P → Except AppError c.Res → Prop}
    (post : ∀ res, (mikrouli P).Possible c res → ψ (.call c res :: es) res) :
    Along (fun _ _ => True) ψ (await c) es := by
  refine ⟨trivial, fun res possible => ?_⟩
  cases res with
  | ok a => exact post _ possible
  | error e => exact post _ possible

theorem getOwnedLink_unasked {ψ : Events P → Except AppError Link → Prop}
    (fails : ∀ res e, ψ (.call (.findLink slug) res :: es) (.error e))
    (owned : ∀ l, ψ (.call (.findLink slug) (.ok (some l)) :: es) (.ok l)) :
    Along (fun _ _ => True) ψ (LinksService.getOwnedLink slug userId) es := by
  apply Along.bind
  apply unasked_await
  intro res _
  cases res with
  | error e => exact fails _ e
  | ok found =>
    cases found with
    | none => exact fails _ _
    | some l =>
      dsimp only
      split
      · exact fails _ _
      · exact owned l

theorem setWithOptionalTtl_unasked {key value : String} {ttl : Option Nat}
    {ψ : Events P → Except AppError Unit → Prop}
    (post : ∀ ex res, ψ (.call (.redisSet key value ex) res :: es) res) :
    Along (fun _ _ => True) ψ (setWithOptionalTtl key value ttl) es := by
  unfold setWithOptionalTtl
  split
  · split
    · exact unasked_await fun res _ => post _ res
    · exact unasked_await fun res _ => post _ res
  · exact unasked_await fun res _ => post _ res

end Commands

section CacheStep

variable {K : Events P → Prop} {es : Events P}
  (keeps : ∀ es cmd res, cmd ≠ .updateLink slug userId url → K es → K (.call cmd res :: es))

include keeps in
/-- A failure of the cache is swallowed. -/
theorem cacheDel_unasked {s : String} (start : K es) :
    Along (fun _ _ => True) (fun es r => r = .ok () ∧ K es) (LinkCacheService.del s) es := by
  apply Along.tryCatch
  apply unasked_await
  intro res _
  have kept := keeps es (.redisDel (LinkCacheService.cacheKey s)) res (by simp) start
  cases res with
  | ok _ => exact ⟨rfl, kept⟩
  | error e => exact ⟨rfl, kept⟩

include keeps in
theorem safeSet_unasked {key value : String} {ttl : Option Nat} (start : K es) :
    Along (fun _ _ => True) (fun es r => r = .ok () ∧ K es) (safeSet key value ttl) es := by
  apply Along.tryCatch
  apply setWithOptionalTtl_unasked
  intro ex res
  have kept := keeps es (.redisSet key value ex) res (by simp) start
  cases res with
  | ok _ => exact ⟨rfl, kept⟩
  | error e => exact ⟨rfl, kept⟩

include keeps in
theorem dateNow_unasked {α : Type} {ψ : Events P → Except AppError α → Prop} {f : Nat → Prog α}
    (start : K es) (next : ∀ now es, K es → Along (fun _ _ => True) ψ (f now) es) :
    Along (fun _ _ => True) ψ (await .dateNow >>= f) es := by
  apply Along.bind
  apply unasked_await
  rintro res ⟨i, ch, w, w', returned⟩
  obtain ⟨-, rfl⟩ := exec_dateNow returned
  exact next _ _ (keeps es .dateNow _ (by simp) start)

include keeps in
theorem cacheSet_unasked {s value : String} {expiresAt : Option Int} (start : K es) :
    Along (fun _ _ => True) (fun es r => r = .ok () ∧ K es)
      (LinkCacheService.set s value expiresAt) es := by
  cases expiresAt with
  | none => exact safeSet_unasked keeps start
  | some x => exact dateNow_unasked keeps start fun now es kept => safeSet_unasked keeps kept

end CacheStep

/-- Every PATCH ends as `PatchEnd` says. -/
theorem update_patchEnd :
    Along (V := mikrouli P) (fun _ _ => True)
      (fun es r => PatchEnd slug userId url es (r.map Ans.link))
      (LinksController.update userId slug url) [.start (.updateLink userId slug url)] := by
  apply Along.bind
  apply Along.bind
  refine getOwnedLink_unasked ?_ ?_
  · intro res e
    exact ⟨rfl, by simp⟩
  · intro l
    apply Along.bind
    apply unasked_await
    intro res _
    cases res with
    | error e => exact ⟨rfl, by simp⟩
    | ok n =>
      -- from here on nothing is asked of the row, and no failure of the cache is seen
      let K : Events P → Prop := fun es =>
        ∀ m : Nat, .call (.updateLink slug userId url) (.ok m) ∈ es ↔ m = n
      have keeps (es : Events P) (cmd : Cmd) (res : Except AppError cmd.Res)
          (other : cmd ≠ .updateLink slug userId url) (kept : K es) : K (.call cmd res :: es) := by
        intro m
        rw [List.mem_cons, ← kept m]
        exact or_iff_right fun same => other (by cases same; rfl)
      have start : K [.call (.updateLink slug userId url) (.ok n),
          .call (.findLink slug) (.ok (some l)), .start (.updateLink userId slug url)] := by
        intro m
        simp
      cases l.expiresAt with
      | none =>
        simp only [Prog.pure_eq, Along]
        apply Along.bind
        refine (cacheSet_unasked keeps start).mono ?_
        rintro es _ ⟨rfl, kept⟩
        exact ⟨n, kept⟩
      | some x =>
        simp only [Prog.pure_eq, Along]
        refine dateNow_unasked keeps start fun now es kept => ?_
        split
        · apply Along.bind
          refine (cacheDel_unasked keeps kept).mono ?_
          rintro es' _ ⟨rfl, kept'⟩
          exact ⟨n, kept'⟩
        · apply Along.bind
          refine (cacheSet_unasked keeps kept).mono ?_
          rintro es' _ ⟨rfl, kept'⟩
          exact ⟨n, kept'⟩

theorem patches_sound {G : Guard (mikrouli P)} : (patches P).Sound G := by
  apply Contract.ofHistory_sound
  intro r
  cases r with
  | updateLink userId slug url =>
    apply Along.map
    refine update_patchEnd.mono fun es res ended userId' slug' url' same => ?_
    cases same
    exact ended
  | _ => exact Along.unasked fun es res userId slug url same => by cases same

/-! ### Success and failure -/

/-- A PATCH reports success and caches its link only if its UPDATE changed the row; else it ends in
an error and has written nothing. -/
structure HonestPatch (c : Config (mikrouli P)) (i : Nat) (userId slug url : String) : Prop where
  success : (∃ a, c.Answered i (.updateLink userId slug url) a) ∨
    (c.shared.own i).any writesCache = true → Changed slug userId url (c.shared.own i)
  failure : ¬Changed slug userId url (c.shared.own i) →
    c.Failed i (.updateLink userId slug url) ∧ (c.shared.own i).all writesNothing = true

theorem writesCache_of_writesNothing {e : Event (mikrouli P)} (idle : writesNothing e = true) :
    writesCache e = false := by
  unfold writesNothing at idle
  split at idle
  · rfl
  · rfl
  · rfl
  · rfl
  · cases idle

section Run

variable {G : Guard (mikrouli P)} {w₀ : World} {c : Config (mikrouli P)} {i : Nat}
  {p : Async.Prog api Ans}

/-- A PATCH that has ended was honest unless an UPDATE of its went through and hit nothing. -/
theorem honest_iff_hit (reach : Reach G (initial w₀) c)
    (thread : c.threads[i]? = some (.updateLink userId slug url, p)) (ended : p.Ended) :
    HonestPatch c i userId slug url ↔
      ∀ n : Nat, .call (.updateLink slug userId url) (.ok n) ∈ c.shared.own i → n ≠ 0 := by
  have holds := patches_sound.holds trivial reach
  cases p with
  | await cmd k => cases ended
  | done a =>
    -- it reported success: exactly one UPDATE went through
    obtain ⟨n, updated⟩ := holds.history_ok thread userId slug url rfl
    constructor
    · intro honest m member
      obtain ⟨k, hit, member'⟩ := honest.success (.inl ⟨a, thread⟩)
      rwa [(updated m).mp member, ← (updated k).mp member']
    · intro all
      have changed : Changed slug userId url (c.shared.own i) :=
        ⟨n, all n ((updated n).mpr rfl), (updated n).mpr rfl⟩
      exact ⟨fun _ => changed, fun unchanged => absurd changed unchanged⟩
  | fail e =>
    -- it failed: no UPDATE went through and nothing was written
    obtain ⟨idle, none⟩ := holds.history_error thread userId slug url rfl
    refine iff_of_true ⟨?_, fun _ => ⟨⟨e, thread⟩, idle⟩⟩ fun n member => absurd member (none n)
    rintro (⟨a, answered⟩ | wrote)
    · rw [Config.Answered, thread] at answered
      cases answered
    · obtain ⟨event, member, writes⟩ := List.any_eq_true.mp wrote
      rw [writesCache_of_writesNothing (List.all_eq_true.mp idle event member)] at writes
      cases writes

/-- The row with that slug and that user is in the table. -/
def HasRow (w : World) (slug userId : String) : Prop :=
  ∃ r ∈ w.links.rows, r.slugKey = bpchar slug ∧ r.userId = userId

/-- An UPDATE leaves the rows it may hit where they are. -/
theorem hasRow_updated {w : World} :
    HasRow { w with links := w.setOriginalUrl slug userId url } slug userId ↔
      HasRow w slug userId := by
  constructor
  · rintro ⟨r, member, key, owner⟩
    obtain ⟨r₀, before, same⟩ := World.mem_setOriginalUrl.mp member
    split at same
    next hit => exact ⟨r₀, before, hit⟩
    · subst same
      exact ⟨r₀, before, key, owner⟩
  · rintro ⟨r, member, hit⟩
    exact ⟨{ r with originalUrl := url }, World.mem_setOriginalUrl.mpr ⟨r, member, if_pos hit⟩, hit⟩

/-- An UPDATE that goes through finds the row in the table. -/
def updatesMeetRow (P : Platform) : Guard (mikrouli P) := fun σ a =>
  match a with
  | .call _ (.updateLink slug userId _) ch => ch.fault = none → HasRow σ.world slug userId
  | _ => True

/-- Every PATCH is honest in a run where the row is there at each UPDATE. In any run whatever, a
PATCH is honest exactly if the row was there at its own. -/
theorem patch_honest_iff_row_present (w₀ : World) (c : Config (mikrouli P)) :
    (Reach (updatesMeetRow P) (initial w₀) c →
      ∀ i userId slug url p, c.threads[i]? = some (.updateLink userId slug url, p) → p.Ended →
        HonestPatch c i userId slug url) ∧
    (Reach anyStep (initial w₀) c →
      ∀ i userId slug url p, c.threads[i]? = some (.updateLink userId slug url, p) → p.Ended →
        (HonestPatch c i userId slug url ↔
          ∀ e ∈ c.shared.log, ∀ n : Nat, e.thread = i →
            e.event = .call (.updateLink slug userId url) (.ok n) →
              HasRow e.world slug userId)) := by
  constructor
  · intro reach i userId slug url p thread ended
    refine (honest_iff_hit reach thread ended).mpr fun n member => ?_
    obtain ⟨e, logged, rfl, event⟩ := Shared.mem_log_of_mem_own member
    obtain ⟨ch, σ, returned, allowed⟩ := call_of_logged reach e logged _ _ event
    -- the guard spoke of the world in which the UPDATE ran
    refine (hit_of_updateLink returned).mpr (allowed ?_)
    by_contra faulty
    simp [exec, Option.isSome_iff_ne_none, faulty] at returned
  · intro reach i userId slug url p thread ended
    rw [honest_iff_hit reach thread ended]
    have hit (e : Entry (mikrouli P)) (logged : e ∈ c.shared.log) (n : Nat)
        (event : e.event = .call (.updateLink slug userId url) (.ok n)) :
        n ≠ 0 ↔ HasRow e.world slug userId := by
      obtain ⟨ch, w, returned⟩ := exec_of_logged reach e logged _ _ event
      rcases exec_updateLink returned with ⟨-, failed⟩ | ⟨m, -, after⟩
      · cases failed
      · rw [hit_of_updateLink returned, after, hasRow_updated, HasRow]
    constructor
    · intro all e logged n same event
      refine (hit e logged n event).mp (all n ?_)
      exact List.mem_map.mpr ⟨e, List.mem_filter.mpr ⟨logged, decide_eq_true same⟩, event⟩
    · intro present n member
      obtain ⟨e, logged, same, event⟩ := Shared.mem_log_of_mem_own member
      exact (hit e logged n event).mpr (present e logged n same event)

end Run

/-! ### Concrete runs -/

/-- Decides that no UPDATE misses its row. -/
def isUpdatesMeetRow (σ : Shared (mikrouli P)) : Act (mikrouli P) → Bool
  | .call _ (.updateLink slug userId _) _ => σ.world.links.rows.any fun r =>
      decide (r.slugKey = bpchar slug) && decide (r.userId = userId)
  | _ => true

theorem updatesMeetRow_of_isUpdatesMeetRow (σ : Shared (mikrouli P)) (a : Act (mikrouli P))
    (test : isUpdatesMeetRow σ a = true) : updatesMeetRow P σ a := by
  cases a with
  | call i c ch =>
    cases c with
    | updateLink slug userId url =>
      intro _
      obtain ⟨r, member, hit⟩ := List.any_eq_true.mp test
      rw [Bool.and_eq_true, decide_eq_true_eq, decide_eq_true_eq] at hit
      exact ⟨r, member, hit⟩
    | _ => trivial
  | _ => trivial

def patchedLink : Link := ⟨⟨"uvwxyz", by decide⟩, "https://ab.cd", "u", 0, none⟩

def patchedWorld : World := { World.empty 5000 with links := ⟨[patchedLink], by decide⟩ }

/-- Another PATCH and a visit run in between, and the row is there all along. -/
theorem patch_honest_besideOthers :
    ∃ c, Reach (updatesMeetRow Platform.plain) (initial patchedWorld) c ∧
      HonestPatch c 0 "u" "uvwxyz" "https://cd.ef" := by
  obtain ⟨c, reach, passed⟩ := exists_reach_of_play updatesMeetRow_of_isUpdatesMeetRow
    (initial (V := mikrouli Platform.plain) patchedWorld)
    [.start (.updateLink "u" "uvwxyz" "https://cd.ef"), .run 0 {},
     .start (.updateLink "u" "uvwxyz" "https://gh.ij"), .start (.resolve "uvwxyz"),
     .run 1 {}, .run 2 {}, .run 0 {}, .run 1 {}, .run 2 {}, .run 0 {}]
    (fun c => decide (c.answer? 0 = some (.updateLink "u" "uvwxyz" "https://cd.ef",
      .link ⟨"uvwxyz", "https://cd.ef", 0, none⟩)))
    (by decide +kernel)
  have answered := answered_of_answer? (of_decide_eq_true passed)
  exact ⟨c, reach, (patch_honest_iff_row_present patchedWorld c).1 reach 0 "u" "uvwxyz"
    "https://cd.ef" _ answered trivial⟩

/-- The event changed a row by an UPDATE. -/
def changesRow : Event (mikrouli P) → Bool
  | .call (.updateLink _ _ _) (.ok (n : Nat)) => decide (n ≠ 0)
  | _ => false

/-- A DELETE runs between the lookup of a PATCH and its UPDATE. The PATCH answers with the link all
the same, and the cache keeps a destination that no row has. -/
theorem patch_of_deleted_row :
    ∃ c, Reach (anyStep (V := mikrouli Platform.plain)) (initial patchedWorld) c ∧
      c.Answered 0 (.updateLink "u" "uvwxyz" "https://cd.ef")
        (.link ⟨"uvwxyz", "https://cd.ef", 0, none⟩) ∧
      c.shared.world.links.rows = [] ∧
      c.shared.world.redis.get c.shared.world.now (LinkCacheService.cacheKey "uvwxyz") =
        some "https://cd.ef" ∧
      ¬HonestPatch c 0 "u" "uvwxyz" "https://cd.ef" := by
  obtain ⟨c, reach, passed⟩ := exists_reach_of_play anyStep_of_anyReady
    (initial (V := mikrouli Platform.plain) patchedWorld)
    [.start (.updateLink "u" "uvwxyz" "https://cd.ef"), .run 0 {}, .start (.removeLink "u" "uvwxyz"),
     .run 1 {}, .run 1 {}, .run 1 {}, .run 0 {}, .run 0 {}]
    (fun c => decide (c.answer? 0 = some (.updateLink "u" "uvwxyz" "https://cd.ef",
        .link ⟨"uvwxyz", "https://cd.ef", 0, none⟩)) &&
      decide (c.shared.world.links.rows = []) &&
      decide (c.shared.world.redis.get c.shared.world.now (LinkCacheService.cacheKey "uvwxyz") =
        some "https://cd.ef") &&
      !(c.shared.own 0).any changesRow)
    (by decide +kernel)
  rw [Bool.and_eq_true, Bool.and_eq_true, Bool.and_eq_true] at passed
  obtain ⟨⟨⟨answer, empty⟩, cached⟩, unchanged⟩ := passed
  have answered := answered_of_answer? (of_decide_eq_true answer)
  refine ⟨c, reach, answered, of_decide_eq_true empty, of_decide_eq_true cached, fun honest => ?_⟩
  obtain ⟨n, hit, member⟩ := honest.success (.inl ⟨_, answered⟩)
  have changed : (c.shared.own 0).any changesRow = true :=
    List.any_eq_true.mpr ⟨_, member, decide_eq_true hit⟩
  rw [changed] at unchanged
  cases unchanged

end Mikrouli
