import Mikrouli.Properties.LinkSteps

/-! Links and their outbox rows, whatever slugs collide and whichever statement fails. -/

namespace Mikrouli

open Async Store

variable {P : Platform}

/-! ### What has been created -/

/-- The link an event inserted. -/
def createdBy (e : Event (mikrouli P)) : Option Link :=
  match linkAttempt e with
  | some (.ok l) => some l
  | _ => none

/-- Every link the run has inserted, newest first. -/
def createdLinks (σ : Shared (mikrouli P)) : List Link := σ.log.filterMap fun e => createdBy e.event

/-- The outbox row that goes with a link. -/
def outboxOf (l : Link) : Outbox := ⟨"link_created", l.shortUrl.1, l.originalUrl⟩

/-- One link came into being, together with its outbox row, and every row there was stays as it
is. -/
structure AddsLink (w w' : World) (l : Link) : Prop where
  rows : w'.links.rows = l :: w.links.rows
  outbox : w'.outbox = outboxOf l :: w.outbox
  fresh : ∀ r ∈ w.links.rows, r.slugKey ≠ l.slugKey

section Events

variable {i : Nat} {c : Cmd} {ch : Choice} {w w' : World} {res : Except AppError c.Res} {l : Link}

/-- What a command does to the links and the outbox is told by its event. -/
theorem adds_of_createdBy (returned : exec P i c ch w = some (res, w'))
    (created : createdBy (P := P) (.call c res) = some l) :
    AddsLink w w' l ∧ ∃ fields, c = .insertLinkWithOutbox fields ∧ l.originalUrl = fields.originalUrl := by
  cases c with
  | insertLinkWithOutbox fields =>
    rcases exec_insertLinkWithOutbox returned with
      ⟨-, e, rfl⟩ | ⟨link, links, rfl, inserted, row, rfl⟩
    · cases created
    · cases created
      obtain ⟨free, rows⟩ := Table.insert?_eq_some.mp inserted
      refine ⟨⟨rows, ?_, fun r member => ?_⟩, fields, rfl, by rw [row]⟩
      · rw [outboxOf, row]
      · exact Table.clash?_eq_none.mp free r member Link.slugKey (by simp)
  | _ => cases created

theorem outbox_of_createdBy (returned : exec P i c ch w = some (res, w'))
    (created : createdBy (P := P) (.call c res) = none) : w'.outbox = w.outbox := by
  cases c with
  | insertLinkWithOutbox fields =>
    rcases exec_insertLinkWithOutbox returned with ⟨rfl, -⟩ | ⟨link, links, rfl, -⟩
    · rfl
    · cases created
  | _ => exact exec_outbox returned (by simp)

theorem links_of_createdBy (returned : exec P i c ch w = some (res, w'))
    (created : createdBy (P := P) (.call c res) = none)
    (updates : ∀ slug userId url, c ≠ .updateLink slug userId url)
    (deletes : ∀ slug, c ≠ .deleteLink slug) : w'.links = w.links := by
  cases c with
  | insertLinkWithOutbox fields =>
    rcases exec_insertLinkWithOutbox returned with ⟨rfl, -⟩ | ⟨link, links, rfl, -⟩
    · rfl
    · cases created
  | updateLink slug userId url => exact absurd rfl (updates slug userId url)
  | deleteLink slug => exact absurd rfl (deletes slug)
  | _ => exact (exec_frame returned).links rfl

theorem filterMap_createdBy (es : Events P) :
    es.filterMap createdBy = (attempts es).filterMap fun
      | .ok l => some l
      | .error _ => none := by
  rw [attempts, List.filterMap_filterMap]
  congr 1
  funext e
  unfold createdBy
  cases linkAttempt e with
  | none => rfl
  | some r => cases r <;> rfl

theorem filterMap_collisions (k : Nat) :
    (collisions k).filterMap (fun
      | .ok (l : Link) => some l
      | .error _ => none) = [] := by
  rw [List.filterMap_eq_nil_iff]
  intro r member
  rw [List.eq_of_mem_replicate member]

end Events

/-! ### The ledger of creations -/

section Ledger

variable {w₀ : World} {σ σ' : Shared (mikrouli P)} {G : Guard (mikrouli P)}

/-- Every outbox row there is was there at the start or came with a link. -/
def Recorded (w₀ : World) (σ : Shared (mikrouli P)) : Prop :=
  σ.world.outbox = (createdLinks σ).map outboxOf ++ w₀.outbox

theorem Recorded.acts (acts : (links P).Acts G σ σ') (recorded : Recorded w₀ σ) :
    Recorded w₀ σ' := by
  cases acts with
  | start n r _ _ => exact recorded
  | env ms _ => exact recorded
  | @call i c ch res w _ returned _ =>
    -- the log grows by one event, and with it the links it tells of
    have events : createdLinks (σ.called i c res w) =
        (createdBy (P := P) (.call c res)).toList ++ createdLinks σ := by
      rw [createdLinks, Shared.called, List.filterMap_cons]
      cases createdBy (P := P) (.call c res) <;> rfl
    rw [Recorded, Shared.called_world, events]
    cases created : createdBy (P := P) (.call c res) with
    | none =>
      rw [outbox_of_createdBy returned created]
      exact recorded
    | some l =>
      obtain ⟨adds, -⟩ := adds_of_createdBy returned created
      rw [adds.outbox, recorded]
      rfl

end Ledger

/-! ### Creations -/

section Results

variable {w₀ : World} {c c' : Config (mikrouli P)} {i : Nat} {r : Req} {url : String}

/-- The links the thread has inserted. -/
def insertedBy (c : Config (mikrouli P)) (i : Nat) : List Link :=
  (c.shared.own i).filterMap createdBy

theorem insertedBy_ok {a : Ans} (reach : Reach anyStep (initial w₀) c) (creates : r.Creates url)
    (answered : c.Answered i r a) :
    ∃ l, insertedBy c i = [l] ∧ l.originalUrl = url ∧ a = .link (toPublicLinkSchema l) := by
  obtain ⟨k, -, l, tried, dest, answer⟩ :=
    ((links_holds reach).history_ok answered).creation url creates
  refine ⟨l, ?_, dest, answer⟩
  -- the collisions added nothing, the last insert its link
  rw [insertedBy, filterMap_createdBy, tried, List.filterMap_cons, filterMap_collisions]

theorem insertedBy_error {e : AppError} (reach : Reach anyStep (initial w₀) c)
    (creates : r.Creates url) (failed : c.threads[i]? = some (r, .fail e)) :
    insertedBy c i = [] ∧ CreationFails (c.shared.own i) e := by
  have fails : CreationFails (c.shared.own i) e :=
    ((links_holds reach).history_error failed).creation url creates
  refine ⟨?_, fails⟩
  rw [insertedBy, filterMap_createdBy]
  -- collisions alone, no insert at all, or a last insert that failed otherwise
  rcases fails with ⟨-, tried⟩ | ⟨-, tried | ⟨k, -, tried, -⟩⟩
  · rw [tried, filterMap_collisions]
  · rw [tried]
    rfl
  · rw [tried, List.filterMap_cons, filterMap_collisions]

/-- The destination a thread inserts is the one it was asked for. -/
theorem url_of_asksLink (reach : Reach anyStep (initial w₀) c) (asked : c.Asked i r)
    (creates : r.Creates url) {userId url' : String}
    (asks : (c.shared.own i).any (asksLink userId url') = true) : url' = url := by
  obtain ⟨r', started, creates'⟩ := creates_of_asksLink asks
  have same : r' = r := Config.Asked.unique ((asked_iff_started reach i _).mpr started) asked
  subst same
  exact creates'.unique creates

/-- A creation only ever adds its own link. -/
theorem creation_step (reach : Reach anyStep (initial w₀) c) (creates : r.Creates url)
    (asked : c.Asked i r) (step : Step anyStep c c')
    (moved : c'.shared.log.map Entry.thread = i :: c.shared.log.map Entry.thread) :
    (c'.shared.world.links = c.shared.world.links ∧
        c'.shared.world.outbox = c.shared.world.outbox ∧ insertedBy c' i = insertedBy c i) ∨
      ∃ l, l.originalUrl = url ∧ AddsLink c.shared.world c'.shared.world l ∧
        insertedBy c' i = l :: insertedBy c i := by
  cases step with
  -- a request that arrives gets a thread of its own
  | @start σ ts q _ =>
    simp only [Shared.started, List.map_cons, List.cons.injEq, and_true] at moved
    obtain ⟨p, thread⟩ := asked
    have bound := (List.getElem?_eq_some_iff.mp thread).1
    exact absurd bound (by rw [moved]; exact Nat.lt_irrefl _)
  | env ms _ =>
    have lengths := congrArg List.length moved
    simp at lengths
  | @call σ ts j q cmd k ch res w thread returned _ =>
    simp only [Shared.called, List.map_cons, List.cons.injEq, and_true] at moved
    subst moved
    have step : LinkStep (σ.own j) cmd := (links_holds reach).pre ⟨q, k, thread⟩
    have events : insertedBy ⟨σ.called j cmd res w, ts.set j (q, k res)⟩ j =
        (createdBy (P := P) (.call cmd res)).toList ++ insertedBy ⟨σ, ts⟩ j := by
      rw [insertedBy, Shared.called_own_self, List.filterMap_cons]
      cases createdBy (P := P) (.call cmd res) <;> rfl
    -- all that the thread was asked for is the creation
    have foreign : ∀ {q : Req}, .start q ∈ σ.own j → q.linkOwner? ≠ none := by
      intro q started
      rw [Config.Asked.unique ((asked_iff_started reach j _).mpr started) asked]
      exact creates.owned
    rw [events]
    cases created : createdBy (P := P) (.call cmd res) with
    | some l =>
      -- the transaction of both inserts went through
      obtain ⟨adds, fields, rfl, dest⟩ := adds_of_createdBy returned created
      refine .inr ⟨l, ?_, adds, rfl⟩
      rw [dest]
      exact url_of_asksLink reach asked creates step.1
    | none =>
      refine .inl ⟨links_of_createdBy returned created ?_ ?_,
        outbox_of_createdBy returned created, rfl⟩
      -- an UPDATE and a DELETE are made by threads asked for something else
      · rintro slug userId url' rfl
        exact foreign step.1 rfl
      · rintro slug rfl
        rcases step with ⟨userId, held⟩ | ⟨cleanup, -⟩
        · simp only [checked, Bool.and_eq_true] at held
          obtain ⟨e, member, asks⟩ := List.any_eq_true.mp held.1.1
          unfold asksRemoval at asks
          split at asks
          · exact foreign member rfl
          · cases asks
        · exact foreign cleanup rfl

/-- In any run from any tables, whichever slugs collide and whichever statements fail: a creation
that answers has added its link and the outbox row that goes with it, once; one that fails has
added neither, and fails with the conflict exactly after as many collisions as it may have; each
of its steps adds a link with its outbox row to what there is or changes neither; and the outbox
holds a row for every link ever created, beside those it held at the start. -/
theorem creation_atomic {w₀ : World} {c : Config (mikrouli P)}
    (reach : Reach anyStep (initial w₀) c) :
    (∀ i r url a, r.Creates url → c.Answered i r a →
      ∃ l, insertedBy c i = [l] ∧ l.originalUrl = url ∧ a = .link (toPublicLinkSchema l)) ∧
    (∀ i r url e, r.Creates url → c.threads[i]? = some (r, .fail e) →
      insertedBy c i = [] ∧ CreationFails (c.shared.own i) e) ∧
    (∀ i r url c', r.Creates url → c.Asked i r → Step anyStep c c' →
      c'.shared.log.map Entry.thread = i :: c.shared.log.map Entry.thread →
      (c'.shared.world.links = c.shared.world.links ∧
          c'.shared.world.outbox = c.shared.world.outbox ∧ insertedBy c' i = insertedBy c i) ∨
        ∃ l, l.originalUrl = url ∧ AddsLink c.shared.world c'.shared.world l ∧
          insertedBy c' i = l :: insertedBy c i) ∧
    c.shared.world.outbox = (createdLinks c.shared).map outboxOf ++ w₀.outbox := by
  have holds₀ : (links P).Holds anyStep (initial w₀) := links_holds .refl
  have recorded : Recorded w₀ c.shared :=
    holds₀.invariant links_sound (fun _ _ _ acts recorded => recorded.acts acts) rfl reach
  refine ⟨?_, ?_, ?_, recorded⟩
  · exact fun i r url a creates answered => insertedBy_ok reach creates answered
  · exact fun i r url e creates failed => insertedBy_error reach creates failed
  · exact fun i r url c' creates asked step moved => creation_step reach creates asked step moved

end Results

def guestCreation (userId : String) : Req := .createLink ⟨userId, true⟩ "https://ab.cd" (some none)

/-- The slug of the first link is drawn again for the second, which then finds a free one. -/
theorem creation_atomic_retried :
    ∃ c : Config (mikrouli Platform.plain), ∃ a, c.Answered 1 (guestCreation "b") a ∧
      (∃ l, insertedBy c 1 = [l] ∧ l.originalUrl = "https://ab.cd" ∧
        a = .link (toPublicLinkSchema l)) ∧
      c.shared.world.outbox = (createdLinks c.shared).map outboxOf ++ [] := by
  obtain ⟨c, reach, passed⟩ := exists_reach_of_play anyStep_of_anyReady
    (initial (V := mikrouli Platform.plain) (World.empty 5000))
    [.start (guestCreation "a"), .run 0 { draw := "abcdef" }, .run 0 {}, .run 0 {},
     .start (guestCreation "b"), .run 1 { draw := "abcdef" }, .run 1 {},
     .run 1 { draw := "ghijkl" }, .run 1 {}, .run 1 {}]
    (fun c => (c.answer? 1).any fun t => decide (t.1 = guestCreation "b")) (by decide +kernel)
  obtain ⟨⟨r, a⟩, answer, asked⟩ := (Option.any_eq_true _ _).mp passed
  cases of_decide_eq_true asked
  have answered := answered_of_answer? answer
  have atomic := creation_atomic reach
  exact ⟨c, a, answered, atomic.1 1 (guestCreation "b") "https://ab.cd" a (.inl ⟨_, _, rfl⟩) answered,
    atomic.2.2.2⟩

end Mikrouli
