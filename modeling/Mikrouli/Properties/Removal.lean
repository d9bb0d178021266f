import Mikrouli.Properties.LinkSteps

/-! Which rows the two deleters take away when their check and their DELETE are apart. -/

namespace Mikrouli

open Async Store

variable {P : Platform}

/-! ### Rows -/

section Rows

variable {i : Nat} {c : Cmd} {ch : Choice} {w w' : World} {res : Except AppError c.Res}

/-- A slug loses its row to nothing but its deletion. -/
theorem deletes_of_gone (returned : exec P i c ch w = some (res, w')) {r : Link}
    (before : r ∈ w.links.rows) (gone : ∀ r' ∈ w'.links.rows, r'.slugKey ≠ r.slugKey) :
    ∃ slug, c = .deleteLink slug ∧ r.slugKey = bpchar slug := by
  cases c with
  | insertLinkWithOutbox fields =>
    rcases exec_insertLinkWithOutbox returned with ⟨rfl, -⟩ | ⟨link, links, -, inserted, -, rfl⟩
    · exact absurd rfl (gone r before)
    · refine absurd rfl (gone r ?_)
      rw [show _ = links.rows from rfl, (Table.insert?_eq_some.mp inserted).2]
      exact List.mem_cons_of_mem _ before
  | updateLink slug userId url =>
    rcases exec_updateLink returned with ⟨rfl, -⟩ | ⟨n, -, rfl⟩
    · exact absurd rfl (gone r before)
    · refine absurd ?_ (gone _ (World.mem_setOriginalUrl.mpr ⟨r, before, rfl⟩))
      split <;> rfl
  | deleteLink slug =>
    rcases exec_deleteLink returned with ⟨rfl, -⟩ | ⟨n, -, rfl⟩
    · exact absurd rfl (gone r before)
    · refine ⟨slug, rfl, ?_⟩
      by_contra other
      exact gone r (Table.mem_delete.mpr ⟨before, decide_eq_false other⟩) rfl
  | _ =>
    rw [(exec_frame returned).links rfl] at gone
    exact absurd rfl (gone r before)

end Rows

/-! ### Slugs that are given out again -/

/-- No slug is given out again while a request that found its row deletable has yet to delete it:
not to another user while a DELETE has, and not for a link that has yet to expire while a cleanup
has. -/
def noReuse (P : Platform) : Guard (mikrouli P) := fun σ a =>
  match a with
  | .call _ (.insertLinkWithOutbox fields) _ => ∀ j slug, bpchar slug = bpchar fields.shortUrl.1 →
      (∀ userId, checked userId slug (σ.own j) = true → userId = fields.userId) ∧
      (listed slug (σ.own j) = true → ∃ x, fields.expiresAt = some x ∧ x < (σ.world.now : Int))
  | _ => True

/-- The row under a slug is the user's where it was found to be, and expired where it was found
to be, until its deletion is tried. -/
structure Entitled (σ : Shared (mikrouli P)) : Prop where
  clock : ∀ i t, .call .dateNow (.ok t) ∈ σ.own i → t ≤ σ.world.now
  owner : ∀ i userId slug, checked userId slug (σ.own i) = true →
    ∀ r ∈ σ.world.links.rows, r.slugKey = bpchar slug → r.userId = userId
  expired : ∀ i slug, listed slug (σ.own i) = true → ∀ r ∈ σ.world.links.rows,
    r.slugKey = bpchar slug → ∃ x, r.expiresAt = some x ∧ x < (σ.world.now : Int)

section Entitled

variable {σ : Shared (mikrouli P)} {i : Nat} {c : Cmd} {ch : Choice} {w : World}
  {res : Except AppError c.Res}

theorem of_checked_cons {userId slug : String} {es : Events P}
    (after : checked userId slug (.call c res :: es) = true) :
    finds userId slug (.call c res : Event (mikrouli P)) = true ∨ checked userId slug es = true := by
  simp only [checked, List.any_cons, Bool.and_eq_true, Bool.or_eq_true, Bool.not_eq_true',
    Bool.or_eq_false_iff] at after ⊢
  obtain ⟨⟨asked, found⟩, -, untried⟩ := after
  have asked := asked.resolve_left (by simp [asksRemoval])
  exact found.imp_right fun found => ⟨⟨asked, found⟩, untried⟩

theorem of_listed_cons {slug : String} {es : Events P}
    (after : listed slug (.call c res :: es) = true) :
    lists slug (.call c res : Event (mikrouli P)) = true ∨ listed slug es = true := by
  simp only [listed, List.any_cons, Bool.and_eq_true, Bool.or_eq_true, Bool.not_eq_true',
    Bool.or_eq_false_iff] at after ⊢
  exact after.1.imp_right fun found => ⟨found, after.2.2⟩

/-- The row a check has just found is the one there is. -/
theorem owner_of_finds {userId slug : String}
    (found : finds (P := P) userId slug (.call c res) = true)
    (returned : exec P i c ch σ.world = some (res, w)) {r : Link} (member : r ∈ w.links.rows)
    (key : r.slugKey = bpchar slug) : r.userId = userId := by
  unfold finds at found
  split at found
  next slug' l same =>
    simp only [Event.call.injEq] at same
    obtain ⟨rfl, same⟩ := same
    cases eq_of_heq same
    obtain ⟨rfl, owner⟩ := of_decide_eq_true found
    rcases exec_findLink returned with ⟨rfl, failed | row⟩
    · cases failed
    · simp only [Except.ok.injEq] at row
      -- one row has the slug: the one that was found
      have same := (World.link?_eq_some.mpr ⟨member, key⟩).symm.trans row.symm
      simp only [Option.some.injEq] at same
      rw [same, owner]
  · cases found

/-- The rows a cleanup has just found have expired. -/
theorem expired_of_lists {slug : String} (found : lists (P := P) slug (.call c res) = true)
    (step : LinkStep (σ.own i) c) (clock : ∀ t, .call .dateNow (.ok t) ∈ σ.own i → t ≤ σ.world.now)
    (returned : exec P i c ch σ.world = some (res, w)) {r : Link} (member : r ∈ w.links.rows)
    (key : r.slugKey = bpchar slug) : ∃ x, r.expiresAt = some x ∧ x < (σ.world.now : Int) := by
  unfold lists at found
  split at found
  next now take batch same =>
    simp only [Event.call.injEq] at same
    obtain ⟨rfl, same⟩ := same
    cases eq_of_heq same
    obtain ⟨l, inBatch, hit⟩ := List.any_eq_true.mp found
    have read := clock now step
    rcases exec_findExpiredLinks returned with ⟨rfl, failed | ⟨batch', same, answer⟩⟩
    · cases failed
    · cases same
      have expired := (of_decide_eq_true answer).2.1 l inBatch
      rw [List.mem_filter, Option.any_eq_true] at expired
      obtain ⟨row, x, expires, past⟩ := expired
      -- the slug is one of the batch, and its row the one in the batch
      have same : r = l := by
        refine Table.eq_of_key (k := Link.slugKey) (by simp) member row ?_
        rw [key, Link.slugKey, of_decide_eq_true hit]
      subst same
      have past := of_decide_eq_true past
      exact ⟨x, expires, by omega⟩
  · cases found

theorem Entitled.called (entitled : Entitled σ) (step : LinkStep (σ.own i) c)
    (returned : exec P i c ch σ.world = some (res, w)) (allowed : noReuse P σ (.call i c ch)) :
    Entitled (σ.called i c res w) := by
  have clock := (exec_frame returned).now
  constructor
  case clock =>
    intro j t read
    rw [Shared.called_world, clock]
    rcases Shared.mem_own_called.mp read with ⟨-, event⟩ | before
    · cases event
      obtain ⟨-, same⟩ := exec_dateNow returned
      cases same
      exact le_rfl
    · exact entitled.clock j t before
  case owner =>
    intro j userId slug after r member key
    have before : finds userId slug (.call c res : Event (mikrouli P)) = true ∨
        checked userId slug (σ.own j) = true := by
      rw [Shared.called_own] at after
      split at after
      · exact of_checked_cons after
      · exact .inr after
    -- the check has just been made, or was made before and its row is there or given out again
    rcases before with found | before
    · exact owner_of_finds found returned member key
    · rcases row_origin returned member with ⟨r₀, old, key₀, owner, -⟩ | ⟨fields, rfl, rfl⟩
      · rw [← owner]
        exact entitled.owner j userId slug before r₀ old (key₀.trans key)
      · exact ((allowed j slug key.symm).1 userId before).symm
  case expired =>
    intro j slug after r member key
    rw [Shared.called_world, clock]
    rw [Shared.called_own] at after
    have before : (j = i ∧ lists slug (.call c res : Event (mikrouli P)) = true) ∨
        listed slug (σ.own j) = true := by
      split at after
      next same => exact (of_listed_cons after).imp_left fun found => ⟨same.symm, found⟩
      · exact .inr after
    -- the SELECT has just been made, or was made before
    rcases before with ⟨rfl, found⟩ | before
    · exact expired_of_lists found step (entitled.clock j) returned member key
    · rcases row_origin returned member with ⟨r₀, old, key₀, -, expiry, -⟩ | ⟨fields, rfl, rfl⟩
      · rw [← expiry]
        exact entitled.expired j slug before r₀ old (key₀.trans key)
      · exact (allowed j slug key.symm).2 before

theorem Entitled.acts {σ' : Shared (mikrouli P)} (acts : (links P).Acts (noReuse P) σ σ')
    (entitled : Entitled σ) : Entitled σ' := by
  cases acts with
  | call step returned allowed => exact entitled.called step returned allowed
  | env ms _ =>
    refine ⟨fun i t read => ?_, entitled.owner, fun i slug held r member key => ?_⟩
    · exact (entitled.clock i t read).trans (Nat.le_add_right _ _)
    · obtain ⟨x, expires, past⟩ := entitled.expired i slug held r member key
      -- what has expired stays so as time goes on
      refine ⟨x, expires, past.trans_le ?_⟩
      exact Int.ofNat_le.mpr (Nat.le_add_right _ _)
  | start n r fresh _ =>
    refine ⟨fun i t read => ?_, fun i userId slug held => ?_, fun i slug held => ?_⟩
    · exact entitled.clock i t (Shared.call_mem_own_started.mp read)
    · rw [Shared.started_own] at held
      split at held
      next same =>
        subst same
        rw [fresh] at held
        simp [checked, finds] at held
      · exact entitled.owner i userId slug held
    · rw [Shared.started_own] at held
      split at held
      next same =>
        subst same
        rw [fresh] at held
        simp [listed, lists] at held
      · exact entitled.expired i slug held

theorem Entitled.initial (w₀ : World) : Entitled (P := P) ⟨w₀, []⟩ := by
  constructor
  · exact fun i t read => by cases read
  · exact fun i userId slug held => by cases held
  · exact fun i slug held => by cases held

end Entitled

/-! ### The rows that go -/

/-- In one step, thread `i`'s, a slug lost its row. -/
def Removes (c c' : Config (mikrouli P)) (i : Nat) (r : Link) : Prop :=
  c'.shared.log.map Entry.thread = i :: c.shared.log.map Entry.thread ∧
    r ∈ c.shared.world.links.rows ∧ ∀ r' ∈ c'.shared.world.links.rows, r'.slugKey ≠ r.slugKey

instance (c c' : Config (mikrouli P)) (i : Nat) (r : Link) : Decidable (Removes c c' i r) :=
  inferInstanceAs (Decidable (_ ∧ _))

/-- As long as no slug is given out again that a request has found deletable and has yet to
delete: a row only goes by the DELETE of its owner, or by a cleanup when it has expired. -/
theorem removals_entitled {w₀ : World} {c c' : Config (mikrouli P)} {i : Nat} {r : Link}
    (reach : Reach (noReuse P) (initial w₀) c) (step : Step (noReuse P) c c')
    (removes : Removes c c' i r) :
    (∃ userId slug, c.Asked i (.removeLink userId slug) ∧ r.userId = userId) ∨
      (c.Asked i .cleanup ∧ ∃ x, r.expiresAt = some x ∧ x < (c.shared.world.now : Int)) := by
  have entitled : Entitled c.shared :=
    (Contract.ofHistory_holds w₀).invariant links_sound
      (fun _ _ _ acts entitled => entitled.acts acts) (Entitled.initial w₀) reach
  obtain ⟨moved, before, gone⟩ := removes
  cases step with
  | start q _ => exact absurd rfl (gone r before)
  | env ms _ => exact absurd rfl (gone r before)
  | @call σ ts j q cmd k ch res w thread returned _ =>
    simp only [Shared.called, List.map_cons, List.cons.injEq, and_true] at moved
    subst moved
    obtain ⟨slug, rfl, key⟩ := deletes_of_gone returned before gone
    -- who may issue a DELETE: a removal that found the row, or a cleanup that listed it
    rcases (links_holds reach).pre ⟨q, k, thread⟩ with ⟨userId, held⟩ | ⟨asked, held⟩
    · refine .inl ⟨userId, slug, ?_, entitled.owner j userId slug held r before key⟩
      simp only [checked, Bool.and_eq_true] at held
      obtain ⟨e, member, asks⟩ := List.any_eq_true.mp held.1.1
      unfold asksRemoval at asks
      split at asks
      next =>
        obtain ⟨rfl, rfl⟩ := of_decide_eq_true asks
        exact (asked_iff_started reach j _).mpr member
      · cases asks
    · exact .inr ⟨(asked_iff_started reach j _).mpr asked,
        entitled.expired j slug held r before key⟩

/-! ### Concrete runs -/

/-- Decides that a slug is given out before anything has been asked to delete a row. -/
def isNoReuse (σ : Shared (mikrouli P)) : Act (mikrouli P) → Bool
  | .call _ (.insertLinkWithOutbox _) _ => σ.log.all fun e =>
      match e.event with
      | .start (.removeLink _ _) => false
      | .call (.findExpiredLinks _ _) _ => false
      | _ => true
  | _ => true

theorem noReuse_of_isNoReuse (σ : Shared (mikrouli P)) (a : Act (mikrouli P))
    (test : isNoReuse σ a = true) : noReuse P σ a := by
  cases a with
  | call i c ch =>
    cases c with
    | insertLinkWithOutbox fields =>
      -- nothing has been asked to delete a row, and nothing listed
      have untouched : ∀ j, ∀ e ∈ σ.own j, (∀ userId slug, asksRemoval userId slug e = false) ∧
          ∀ slug, lists slug e = false := by
        intro j e member
        obtain ⟨entry, logged, -, rfl⟩ := Shared.mem_log_of_mem_own member
        have idle := List.all_eq_true.mp test entry logged
        split at idle
        · cases idle
        · cases idle
        next other other' =>
          constructor
          · intro userId slug
            unfold asksRemoval
            split
            next same => exact absurd same (other _ _)
            · rfl
          · intro slug
            unfold lists
            split
            next same => exact absurd same (other' _ _ _)
            · rfl
      intro j slug _
      refine ⟨fun userId held => ?_, fun held => ?_⟩
      · simp only [checked, Bool.and_eq_true] at held
        obtain ⟨e, member, asks⟩ := List.any_eq_true.mp held.1.1
        rw [(untouched j e member).1] at asks
        cases asks
      · simp only [listed, Bool.and_eq_true] at held
        obtain ⟨e, member, found⟩ := List.any_eq_true.mp held.1
        rw [(untouched j e member).2] at found
        cases found
    | _ => trivial
  | _ => trivial

/-- A guest link under the slug `abcdef`, which stays for good. -/
def guestLinkOf (userId : String) (i : Nat) : List (Move (mikrouli Platform.plain)) :=
  [.start (.createLink ⟨userId, true⟩ "https://ab.cd" (some none)), .run i { draw := "abcdef" },
   .run i {}, .run i {}]

def rowOf (userId : String) (createdAt : Nat) : Link :=
  ⟨⟨"abcdef", by decide⟩, "https://ab.cd", userId, createdAt, none⟩

theorem removals_entitled_owner :
    ∃ c : Config (mikrouli Platform.plain),
      (∃ userId slug, c.Asked 1 (.removeLink userId slug) ∧ "a" = userId) ∨
        (c.Asked 1 .cleanup ∧ ∃ x, (none : Option Int) = some x ∧ x < (c.shared.world.now : Int)) := by
  obtain ⟨c, c', reach, step, passed⟩ := exists_step_of_play noReuse_of_isNoReuse
    (initial (V := mikrouli Platform.plain) (World.empty 5000))
    (guestLinkOf "a" 0 ++ [.start (.removeLink "a" "abcdef"), .run 1 {}]) (.run 1 {})
    (fun c c' => decide (Removes c c' 1 (rowOf "a" 5000))) (by decide +kernel)
  exact ⟨c, removals_entitled reach step (of_decide_eq_true passed)⟩

/-- Two DELETEs of one link: between the check and the DELETE of the second the first goes
through, and the slug is given out to another user. -/
theorem another_users_row_removed :
    ¬∀ (P : Platform) (w₀ : World) (c c' : Config (mikrouli P)) (i : Nat) (r : Link),
      Reach anyStep (initial w₀) c → Step anyStep c c' → Removes c c' i r →
      ∀ userId slug, c.Asked i (.removeLink userId slug) → r.userId = userId := by
  intro entitled
  obtain ⟨c, c', reach, step, passed⟩ := exists_step_of_play anyStep_of_anyReady
    (initial (V := mikrouli Platform.plain) (World.empty 5000))
    (guestLinkOf "a" 0 ++ [.start (.removeLink "a" "abcdef"), .start (.removeLink "a" "abcdef"),
      .run 1 {}, .run 2 {}, .run 2 {}, .run 2 {}] ++ guestLinkOf "b" 3) (.run 1 {})
    (fun c c' => decide (Removes c c' 1 (rowOf "b" 5000)) &&
      decide (c.Asked 1 (.removeLink "a" "abcdef"))) (by decide +kernel)
  rw [Bool.and_eq_true] at passed
  have same := entitled Platform.plain (World.empty 5000) c c' 1 (rowOf "b" 5000) reach step
    (of_decide_eq_true passed.1) "a" "abcdef" (of_decide_eq_true passed.2)
  exact absurd same (by decide)

end Mikrouli
